import GrammarCheck.Proofs.RegistryFile.Tokens
import GrammarCheck.RegistryFile.Reading
import Mathlib.Data.List.Forall2

/-! Objects and lists of a registry file, read from the tokens of their JSON. Main statements: an object is
read by taking its keys one after another, and a list by reading its items, if each of these readings
goes through whatever follows. -/
namespace GrammarCheck.RegistryFile
open Json (Value Lexeme memberLexemes itemLexemes separator)
open Text (units ofUnits)

def keyText (key : List Nat) : String := String.ofList (ofUnits key)

@[simp] theorem keyText_units (key : String) : keyText (units key.toList) = key := by simp [keyText]

def keyTexts (members : List (List Nat × Value)) : List String := members.map fun member => keyText member.1

def valueTokens (value : Value) : List Token := value.lexemes.map lexemeToken

def memberTokens (first : Bool) (members : List (List Nat × Value)) : List Token :=
  (memberLexemes first members).map lexemeToken

def itemTokens (first : Bool) (items : List Value) : List Token := (itemLexemes first items).map lexemeToken

theorem valueTokens_object (members : List (List Nat × Value)) :
    valueTokens (.object members) = .openObject :: (memberTokens true members ++ [.closeObject]) := by
  simp [valueTokens, memberTokens, Value.lexemes, lexemeToken]

theorem valueTokens_list (items : List Value) :
    valueTokens (.list items) = .openList :: (itemTokens true items ++ [.closeList]) := by
  simp [valueTokens, itemTokens, Value.lexemes, lexemeToken]

theorem memberTokens_cons (first : Bool) (key : List Nat) (value : Value) (rest : List (List Nat × Value)) :
    memberTokens first ((key, value) :: rest) = (separator first).map lexemeToken ++
      .string (keyText key) :: .colon :: (valueTokens value ++ memberTokens false rest) := by
  simp [memberTokens, valueTokens, memberLexemes, lexemeToken, keyText]

theorem itemTokens_cons (first : Bool) (item : Value) (rest : List Value) :
    itemTokens first (item :: rest) =
      (separator first).map lexemeToken ++ (valueTokens item ++ itemTokens false rest) := by
  simp [itemTokens, valueTokens, itemLexemes]

section
variable {δ : Type} {put : Put δ} {shortens : put.Shortens}

theorem members_of_close {tokens rest : List Token} (found : nextKey tokens = .ok (none, rest)) (draft : δ) :
    members put shortens draft tokens = .ok (draft, rest) := by
  rw [members]
  split <;> simp_all

theorem members_of_key {tokens inside rest : List Token} {key : String} {draft taken : δ}
    (found : nextKey tokens = .ok (some key, inside)) (ok : put draft key inside = .ok (taken, rest)) :
    members put shortens draft tokens = members put shortens taken rest := by
  rw [members]
  split
  · simp_all
  · simp_all
  · next same =>
    rw [found] at same
    cases same
    split <;> simp_all

theorem nextKey_separator (first : Bool) (key : String) (rest : List Token) :
    nextKey ((separator first).map lexemeToken ++ .string key :: rest) = .ok (some key, rest) := by
  cases first <;> rfl

theorem members_memberTokens {take : δ → String → δ} {all : List (List Nat × Value)}
    (taken : ∀ member ∈ all, ∀ draft rest, put draft (keyText member.1) (.colon :: (valueTokens member.2 ++ rest)) =
      .ok (take draft (keyText member.1), rest))
    (first : Bool) (draft : δ) (rest : List Token) :
    members put shortens draft (memberTokens first all ++ .closeObject :: rest) =
      .ok ((keyTexts all).foldl take draft, rest) := by
  induction all generalizing first draft with
  | nil => exact members_of_close rfl draft
  | cons member all ih =>
    obtain ⟨key, value⟩ := member
    obtain ⟨own, others⟩ := List.forall_mem_cons.mp taken
    rw [memberTokens_cons, List.append_assoc, List.cons_append, List.cons_append, List.append_assoc,
      members_of_key (nextKey_separator first _ _) (own draft _), ih others]
    rfl

end

theorem listOfTokens_of_object {tokens inside rest : List Token} {spec : GrammarSpec}
    (found : next .item tokens = .ok (.openObject, inside)) (ok : GrammarSpec.ofTokens inside = .ok (spec, rest)) :
    GrammarSpec.listOfTokens tokens =
      (GrammarSpec.listOfTokens rest).map fun (specs, after) => (spec :: specs, after) := by
  rw [GrammarSpec.listOfTokens]
  split
  · simp_all
  · simp_all
  · next same =>
    rw [found] at same
    cases same
    split <;> simp_all
  · simp_all

theorem next_separator (first : Bool) (rest : List Token) :
    next .item ((separator first).map lexemeToken ++ .openObject :: rest) = .ok (.openObject, rest) := by
  cases first <;> rfl

/-- An item that is an object and is read as this grammar wherever it stands. -/
def ReadsAs (spec : GrammarSpec) (item : Value) : Prop :=
  ∃ all, item = .object all ∧
    ∀ rest, GrammarSpec.ofTokens (memberTokens true all ++ .closeObject :: rest) = .ok (spec, rest)

theorem listOfTokens_itemTokens {specs : List GrammarSpec} {items : List Value}
    (read : List.Forall₂ ReadsAs specs items) (first : Bool) (rest : List Token) :
    GrammarSpec.listOfTokens (itemTokens first items ++ .closeList :: rest) = .ok (specs, rest) := by
  induction read generalizing first with
  | nil =>
    rw [GrammarSpec.listOfTokens]
    rfl
  | cons own _ ih =>
    obtain ⟨all, rfl, own⟩ := own
    rw [itemTokens_cons, valueTokens_object]
    simp only [List.append_assoc, List.cons_append, List.nil_append]
    rw [listOfTokens_of_object (next_separator first _) (own _), ih]
    rfl

theorem foldl_get {δ α : Type} {take : δ → String → δ} (get : δ → α) {key : String} {value : α}
    (own : ∀ draft, get (take draft key) = value)
    (others : ∀ draft other, other ≠ key → get (take draft other) = get draft) (keys : List String) (draft : δ) :
    get (keys.foldl take draft) = if key ∈ keys then value else get draft := by
  induction keys generalizing draft with
  | nil => rfl
  | cons other keys ih =>
    rw [List.foldl_cons, ih]
    by_cases same : other = key
    · subst same
      simp [own]
    · simp [others draft other same, Ne.symm same]

def ValueReadable (value : Value) : Prop := ∀ lexeme ∈ value.lexemes, Readable lexeme

theorem readable_separator (first : Bool) : ∀ lexeme ∈ separator first, Readable lexeme := by
  cases first <;> simp [separator, Readable]

theorem readable_between {start stop : Lexeme} {inside : List Lexeme} (first : Readable start) (last : Readable stop)
    (all : ∀ lexeme ∈ inside, Readable lexeme) : ∀ lexeme ∈ start :: (inside ++ [stop]), Readable lexeme := by
  intro lexeme listed
  simp only [List.mem_append, List.mem_cons, List.mem_nil_iff, or_false] at listed
  rcases listed with rfl | listed | rfl
  · exact first
  · exact all lexeme listed
  · exact last

theorem readable_object {all : List (List Nat × Value)}
    (readable : ∀ member ∈ all, Readable (.string member.1) ∧ ValueReadable member.2) :
    ValueReadable (.object all) := by
  have inside (first : Bool) : ∀ lexeme ∈ memberLexemes first all, Readable lexeme := by
    induction all generalizing first with
    | nil => simp [memberLexemes]
    | cons member all ih =>
      obtain ⟨⟨key, value⟩, others⟩ := List.forall_mem_cons.mp readable
      intro lexeme listed
      simp only [memberLexemes, List.mem_append, List.mem_cons] at listed
      rcases listed with listed | rfl | rfl | listed | listed
      · exact readable_separator first lexeme listed
      · exact key
      · exact trivial
      · exact value lexeme listed
      · exact ih others false lexeme listed
  rw [ValueReadable, Value.lexemes]
  exact readable_between trivial trivial (inside true)

theorem readable_list {items : List Value} (readable : ∀ item ∈ items, ValueReadable item) :
    ValueReadable (.list items) := by
  have inside (first : Bool) : ∀ lexeme ∈ itemLexemes first items, Readable lexeme := by
    induction items generalizing first with
    | nil => simp [itemLexemes]
    | cons item items ih =>
      obtain ⟨own, others⟩ := List.forall_mem_cons.mp readable
      intro lexeme listed
      simp only [itemLexemes, List.mem_append] at listed
      rcases listed with listed | listed | listed
      · exact readable_separator first lexeme listed
      · exact own lexeme listed
      · exact ih others false lexeme listed
  rw [ValueReadable, Value.lexemes]
  exact readable_between trivial trivial (inside true)

end GrammarCheck.RegistryFile
