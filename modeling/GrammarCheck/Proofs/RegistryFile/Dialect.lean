import GrammarCheck.Proofs.RegistryFile.Written

/-! The rows of tokens that are read as registry files. Separators may be left out, and stand before a first
member or item, but not before a closing bracket. Under an unknown key, brackets need only close as often
as they open. Main statement: a row is read as a file if and only if it starts with one of this form. -/
namespace GrammarCheck.RegistryFile

/-- A token that a value starts with. -/
def Token.Starts : Token → Prop
  | .closeObject | .closeList | .colon | .comma | .fault _ => False
  | _ => True

def Token.Opens (token : Token) : Prop := token = .openObject ∨ token = .openList

def Token.Closes (token : Token) : Prop := token = .closeObject ∨ token = .closeList

/-- A token that is neither a bracket nor a fault. -/
def Token.Flat : Token → Prop
  | .openObject | .closeObject | .openList | .closeList | .fault _ => False
  | _ => True

/-- An integer of more than 64 bits. -/
def Token.Wide : Token → Prop
  | .number value => value.Wide
  | _ => False

/-- Brackets close as often as they open, in any kind, and anything else stands anywhere. -/
inductive Balanced : List Token → Prop
  | nil : Balanced []
  | flat {token : Token} {rest : List Token} (flat : token.Flat) (more : Balanced rest) : Balanced (token :: rest)
  | group {start stop : Token} {inside rest : List Token} (opens : start.Opens) (closes : stop.Closes)
      (within : Balanced inside) (more : Balanced rest) : Balanced (start :: (inside ++ stop :: rest))

/-- What is passed over under a key: colons, and a value. -/
inductive PassedOver : List Token → Prop
  | colon {value : List Token} (more : PassedOver value) : PassedOver (.colon :: value)
  | scalar {token : Token} (starts : token.Starts) (flat : token.Flat) (narrow : ¬ token.Wide) : PassedOver [token]
  | group {start stop : Token} {inside : List Token} (opens : start.Opens) (closes : stop.Closes)
      (within : Balanced inside) : PassedOver (start :: (inside ++ [stop]))

/-- A mark stands here, or nothing. -/
def Perhaps (mark : Token) (row : List Token) : Prop := row = [] ∨ row = [mark]

inductive TextOrNull : List Token → Prop
  | null {colon : List Token} (separator : Perhaps .colon colon) : TextOrNull (colon ++ [.null])
  | text {colon : List Token} (separator : Perhaps .colon colon) (text : String) : TextOrNull (colon ++ [.string text])

/-- Members with these keys, and a closing bracket. -/
inductive Members (under : String → List Token → Prop) : List String → List Token → Prop
  | close : Members under [] [.closeObject]
  | member {key : String} {keys : List String} {comma value rest : List Token} (separator : Perhaps .comma comma)
      (taken : under key value) (more : Members under keys rest) :
      Members under (key :: keys) (comma ++ .string key :: (value ++ rest))

def SpecUnder (key : String) : List Token → Prop :=
  if key ∈ ["name", "display_name", "library", "symbol", "grammar_json", "sample"] then TextOrNull else PassedOver

/-- Objects with a name, and a closing bracket. -/
inductive Items : List Token → Prop
  | close : Items [.closeList]
  | item {keys : List String} {comma members rest : List Token} (separator : Perhaps .comma comma)
      (object : Members SpecUnder keys members) (named : "name" ∈ keys) (more : Items rest) :
      Items (comma ++ .openObject :: (members ++ rest))

inductive ListOrNull : List Token → Prop
  | null {colon : List Token} (separator : Perhaps .colon colon) : ListOrNull (colon ++ [.null])
  | list {colon items : List Token} (separator : Perhaps .colon colon) (inside : Items items) :
      ListOrNull (colon ++ .openList :: items)

def FileUnder (key : String) : List Token → Prop :=
  if key = "grammar_dir" then TextOrNull else if key = "grammars" then ListOrNull else PassedOver

/-- An object with a list of grammars. -/
inductive File : List Token → Prop
  | object {keys : List String} {members : List Token} (object : Members FileUnder keys members)
      (listed : "grammars" ∈ keys) : File (.openObject :: members)

/-- What may stand before a value that is expected. -/
def Separates : Expected → List Token → Prop
  | .value => fun row => row = []
  | .fieldValue => Perhaps .colon
  | .key => Perhaps .comma
  | .item => Perhaps .comma

section
variable {expected : Expected} {token : Token} {tokens rest : List Token}

theorem next_of_starts (starts : token.Starts) (expected : Expected) (rest : List Token) :
    next expected (token :: rest) = .ok (token, rest) := by
  cases token <;> first | rfl | exact starts.elim

theorem starts_of_next_value (tokens : List Token) (ok : next .value tokens = .ok (token, rest)) :
    tokens = token :: rest ∧ token.Starts := by
  cases tokens with
  | nil => contradiction
  | cons first others =>
    cases first with
    | closeObject | closeList | colon | comma | fault => contradiction
    | _ => cases ok; exact ⟨rfl, trivial⟩

theorem separates_of_next (ok : next expected tokens = .ok (token, rest)) :
    (∃ row, Separates expected row ∧ tokens = row ++ token :: rest ∧ token.Starts) ∨
      (expected = .key ∧ token = .closeObject ∧ tokens = .closeObject :: rest) ∨
      (expected = .item ∧ token = .closeList ∧ tokens = .closeList :: rest) := by
  have plain : Separates expected [] := by cases expected <;> first | rfl | exact .inl rfl
  cases tokens with
  | nil => contradiction
  | cons first others =>
    cases first with
    | fault => contradiction
    | closeObject => cases expected <;> cases ok; exact .inr (.inl ⟨rfl, rfl, rfl⟩)
    | closeList => cases expected <;> cases ok; exact .inr (.inr ⟨rfl, rfl, rfl⟩)
    | colon =>
      cases expected with
      | fieldValue =>
        obtain ⟨rfl, starts⟩ := starts_of_next_value _ ok
        exact .inl ⟨[.colon], .inr rfl, rfl, starts⟩
      | _ => contradiction
    | comma =>
      cases expected with
      | key =>
        obtain ⟨rfl, starts⟩ := starts_of_next_value others ok
        exact .inl ⟨[.comma], .inr rfl, rfl, starts⟩
      | item =>
        obtain ⟨rfl, starts⟩ := starts_of_next_value others ok
        exact .inl ⟨[.comma], .inr rfl, rfl, starts⟩
      | _ => contradiction
    | _ => cases ok; exact .inl ⟨[], plain, rfl, trivial⟩

theorem next_eq_start (starts : token.Starts) :
    next expected tokens = .ok (token, rest) ↔ ∃ row, Separates expected row ∧ tokens = row ++ token :: rest := by
  constructor
  · intro ok
    obtain ⟨row, separates, same, _⟩ | ⟨_, rfl, _⟩ | ⟨_, rfl, _⟩ := separates_of_next ok
    · exact ⟨row, separates, same⟩
    · exact starts.elim
    · exact starts.elim
  · rintro ⟨row, separates, rfl⟩
    cases expected with
    | value =>
      cases separates
      exact next_of_starts starts .value rest
    | _ =>
      rcases separates with rfl | rfl
      · exact next_of_starts starts _ rest
      · exact next_of_starts starts .value rest

theorem next_fieldValue (starts : token.Starts) :
    next .fieldValue tokens = .ok (token, rest) ↔ ∃ colon, Perhaps .colon colon ∧ tokens = colon ++ token :: rest :=
  next_eq_start starts

theorem next_key (starts : token.Starts) :
    next .key tokens = .ok (token, rest) ↔ ∃ comma, Perhaps .comma comma ∧ tokens = comma ++ token :: rest :=
  next_eq_start starts

theorem next_item (starts : token.Starts) :
    next .item tokens = .ok (token, rest) ↔ ∃ comma, Perhaps .comma comma ∧ tokens = comma ++ token :: rest :=
  next_eq_start starts

theorem next_eq_closeObject : next .key tokens = .ok (.closeObject, rest) ↔ tokens = .closeObject :: rest := by
  constructor
  · intro ok
    obtain ⟨_, _, _, starts⟩ | ⟨_, _, same⟩ | ⟨_, other, _⟩ := separates_of_next ok
    · exact starts.elim
    · exact same
    · contradiction
  · rintro rfl
    rfl

theorem next_eq_closeList : next .item tokens = .ok (.closeList, rest) ↔ tokens = .closeList :: rest := by
  constructor
  · intro ok
    obtain ⟨_, _, _, starts⟩ | ⟨_, other, _⟩ | ⟨_, _, same⟩ := separates_of_next ok
    · exact starts.elim
    · contradiction
    · exact same
  · rintro rfl
    rfl

end

section
variable {tokens rest : List Token}

theorem nextKey_eq_close : nextKey tokens = .ok (none, rest) ↔ tokens = .closeObject :: rest := by
  rw [← next_eq_closeObject]
  constructor
  · intro ok
    unfold nextKey at ok
    split at ok <;> cases ok
    assumption
  · intro found
    rw [nextKey, found]

theorem nextKey_eq_key {key : String} :
    nextKey tokens = .ok (some key, rest) ↔ ∃ comma, Perhaps .comma comma ∧ tokens = comma ++ .string key :: rest := by
  have starts : (Token.string key).Starts := trivial
  rw [← next_key starts]
  constructor
  · intro ok
    unfold nextKey at ok
    split at ok <;> cases ok
    assumption
  · intro found
    rw [nextKey, found]

/-- The reader takes just these rows, whatever stands after them. -/
def Takes {α : Type} (read : List Token → Except Failure (α × List Token)) (row : List Token → Prop) : Prop :=
  ∀ tokens rest, (∃ x, read tokens = .ok (x, rest)) ↔ ∃ front, row front ∧ tokens = front ++ rest

theorem takes_optionalText : Takes optionalText TextOrNull := by
  have null : Token.null.Starts := trivial
  have string (text : String) : (Token.string text).Starts := trivial
  intro tokens rest
  constructor
  · rintro ⟨value, ok⟩
    unfold optionalText at ok
    split at ok <;> cases ok
    · next text found =>
      obtain ⟨colon, separator, same⟩ := (next_fieldValue (string text)).mp found
      exact ⟨_, .text separator text, by simp [same]⟩
    · next found =>
      obtain ⟨colon, separator, same⟩ := (next_fieldValue null).mp found
      exact ⟨_, .null separator, by simp [same]⟩
  · rintro ⟨front, separator | ⟨separator, text⟩, rfl⟩
    · refine ⟨none, ?_⟩
      rw [List.append_assoc, List.singleton_append, optionalText, (next_fieldValue null).mpr ⟨_, separator, rfl⟩]
    · refine ⟨some text, ?_⟩
      rw [List.append_assoc, List.singleton_append, optionalText,
        (next_fieldValue (string text)).mpr ⟨_, separator, rfl⟩]

theorem Takes.map {α β : Type} {read : List Token → Except Failure (α × List Token)} {row : List Token → Prop}
    (takes : Takes read row) (f : α → β) :
    Takes (fun tokens => (read tokens).map fun (x, rest) => (f x, rest)) row := by
  intro tokens rest
  rw [← takes]
  cases found : read tokens with
  | error fault => simp [found, Except.map]
  | ok result =>
    obtain ⟨x, after⟩ := result
    simp [found, Except.map]

theorem Token.kind_cases (token : Token) : token.Opens ∨ token.Closes ∨ token.Flat ∨ ∃ fault, token = .fault fault := by
  cases token with
  | openObject => exact .inl (.inl rfl)
  | openList => exact .inl (.inr rfl)
  | closeObject => exact .inr (.inl (.inl rfl))
  | closeList => exact .inr (.inl (.inr rfl))
  | fault fault => exact .inr (.inr (.inr ⟨fault, rfl⟩))
  | _ => exact .inr (.inr (.inl trivial))

theorem skipInside_opens {start : Token} (opens : start.Opens) (depth : Nat) (rest : List Token) :
    skipInside depth (start :: rest) = skipInside (depth + 1) rest := by
  rcases opens with rfl | rfl <;> cases depth <;> rfl

theorem skipInside_closes {stop : Token} (closes : stop.Closes) (rest : List Token) :
    skipInside 0 (stop :: rest) = .ok rest ∧
      ∀ depth, skipInside (depth + 1) (stop :: rest) = skipInside depth rest := by
  rcases closes with rfl | rfl <;> exact ⟨rfl, fun _ => rfl⟩

theorem skipInside_flat {token : Token} (flat : token.Flat) (depth : Nat) (rest : List Token) :
    skipInside depth (token :: rest) = skipInside depth rest := by
  cases token <;> first | exact flat.elim | cases depth <;> rfl

theorem skipInside_fault (depth : Nat) (fault : Fault) (rest : List Token) :
    skipInside depth (.fault fault :: rest) = .error (.fault fault) := by cases depth <;> rfl

theorem skipInside_balanced {inside : List Token} (balanced : Balanced inside) (depth : Nat) (rest : List Token) :
    skipInside depth (inside ++ rest) = skipInside depth rest := by
  induction balanced generalizing depth rest with
  | nil => rfl
  | flat flat _ ih => rw [List.cons_append, skipInside_flat flat, ih]
  | group opens closes _ _ within more =>
    rw [List.cons_append, List.append_assoc, List.cons_append, skipInside_opens opens, within,
      (skipInside_closes closes _).2, more]

/-- What is passed over at a depth is a balanced row and a closing bracket, and then what is left to pass
over one level further out. -/
theorem balanced_of_skipInside {depth : Nat} (ok : skipInside depth tokens = .ok rest) :
    ∃ inside stop after, Balanced inside ∧ stop.Closes ∧ tokens = inside ++ stop :: after ∧
      (depth = 0 ∧ after = rest ∨ ∃ outer, depth = outer + 1 ∧ skipInside outer after = .ok rest) := by
  -- by length, as what stands after a group is left by the induction itself
  induction length : tokens.length using Nat.strongRecOn generalizing depth tokens with
  | ind size ih =>
    cases tokens with
    | nil => cases depth <;> contradiction
    | cons first others =>
      have shorter : others.length < size := by simp [← length]
      obtain opens | closes | flat | ⟨fault, rfl⟩ := first.kind_cases
      · rw [skipInside_opens opens] at ok
        obtain ⟨inside, stop, after, balanced, closes, rfl, ⟨_, _⟩ | ⟨outer, same, left⟩⟩ := ih _ shorter ok rfl
        · contradiction
        · cases same
          have shorter : after.length < size := by simp at shorter; omega
          obtain ⟨more, last, end_, rest_balanced, last_closes, rfl, further⟩ := ih _ shorter left rfl
          exact ⟨_, last, end_, .group opens closes balanced rest_balanced, last_closes, by simp, further⟩
      · cases depth with
        | zero =>
          rw [(skipInside_closes closes _).1] at ok
          cases ok
          exact ⟨[], first, rest, .nil, closes, rfl, .inl ⟨rfl, rfl⟩⟩
        | succ depth =>
          rw [(skipInside_closes closes _).2] at ok
          exact ⟨[], first, others, .nil, closes, rfl, .inr ⟨depth, rfl, ok⟩⟩
      · rw [skipInside_flat flat] at ok
        obtain ⟨inside, stop, after, balanced, closes, rfl, left⟩ := ih _ shorter ok rfl
        exact ⟨first :: inside, stop, after, .flat flat balanced, closes, rfl, left⟩
      · rw [skipInside_fault] at ok
        contradiction

theorem skip_opens {start : Token} (opens : start.Opens) (rest : List Token) :
    skip (start :: rest) = skipInside 0 rest := by
  rcases opens with rfl | rfl <;> rfl

theorem group_of_skip {start : Token} (opens : start.Opens) (ok : skip (start :: tokens) = .ok rest) :
    ∃ front, PassedOver front ∧ start :: tokens = front ++ rest := by
  rw [skip_opens opens] at ok
  obtain ⟨inside, stop, after, balanced, closes, rfl, ⟨_, rfl⟩ | ⟨_, other, _⟩⟩ := balanced_of_skipInside ok
  · exact ⟨_, .group opens closes balanced, by simp⟩
  · contradiction

theorem skip_eq_ok : skip tokens = .ok rest ↔ ∃ front, PassedOver front ∧ tokens = front ++ rest := by
  constructor
  · intro ok
    induction tokens with
    | nil => contradiction
    | cons first tokens ih =>
      cases first with
      | fault | closeObject | closeList | comma => contradiction
      | colon =>
        obtain ⟨front, passed, rfl⟩ := ih ok
        exact ⟨_, .colon passed, rfl⟩
      | openObject => exact group_of_skip (.inl rfl) ok
      | openList => exact group_of_skip (.inr rfl) ok
      | number value =>
        refine ⟨[.number value], ?_, ?_⟩
        · cases value <;> first | contradiction | exact .scalar trivial trivial id
        · cases value <;> cases ok <;> rfl
      | _ =>
        cases ok
        refine ⟨[_], ?_, rfl⟩
        exact .scalar trivial trivial id
  · rintro ⟨front, passed, rfl⟩
    induction passed with
    | colon _ ih => exact ih
    | @scalar token starts flat narrow =>
      cases token with
      | number value => cases value <;> first | rfl | exact absurd trivial narrow
      | _ => first | rfl | exact starts.elim | exact flat.elim
    | group opens closes within =>
      rw [List.cons_append, List.append_assoc, skip_opens opens, skipInside_balanced within]
      exact (skipInside_closes closes rest).1

theorem takes_skip {α : Type} (x : α) : Takes (fun tokens => (skip tokens).map fun rest => (x, rest)) PassedOver := by
  intro tokens rest
  rw [← skip_eq_ok]
  cases found : skip tokens <;> simp [found, Except.map]

end

section
variable {δ : Type} {put : Put δ} {shortens : put.Shortens} {under : String → List Token → Prop}

section
variable (takes : ∀ draft key, Takes (put draft key) (under key)) {needed : String} {has : δ → Prop}
  (keeps : ∀ draft key tokens taken rest, put draft key tokens = .ok (taken, rest) →
    (has taken ↔ has draft ∨ key = needed))
include takes keeps

theorem members_of_row (shortens : put.Shortens) {keys : List String} {front : List Token}
    (row : Members under keys front) (draft : δ) (rest : List Token) :
    ∃ result, members put shortens draft (front ++ rest) = .ok (result, rest) ∧
      (has result ↔ has draft ∨ needed ∈ keys) := by
  induction row generalizing draft with
  | close => exact ⟨draft, members_of_close rfl draft, by simp⟩
  | @member key keys comma value more separator taken _ ih =>
    obtain ⟨next, put_ok⟩ := (takes draft key (value ++ (more ++ rest)) (more ++ rest)).mpr ⟨value, taken, rfl⟩
    obtain ⟨result, ok, kept⟩ := ih next
    have found : nextKey (comma ++ .string key :: (value ++ (more ++ rest))) =
        .ok (some key, value ++ (more ++ rest)) :=
      nextKey_eq_key.mpr ⟨comma, separator, rfl⟩
    refine ⟨result, ?_, ?_⟩
    · rw [List.append_assoc, List.cons_append, List.append_assoc, members_of_key found put_ok, ok]
    · rw [kept, keeps _ _ _ _ _ put_ok, List.mem_cons, or_assoc, eq_comm (a := key)]

theorem row_of_members {draft result : δ} {tokens rest : List Token}
    (ok : members put shortens draft tokens = .ok (result, rest)) : ∃ keys front, Members under keys front ∧
      tokens = front ++ rest ∧ (has result ↔ has draft ∨ needed ∈ keys) := by
  fun_induction members put shortens draft tokens with
  | case1 => contradiction
  | case2 _ _ _ found =>
    cases ok
    exact ⟨[], _, .close, nextKey_eq_close.mp found, by simp⟩
  | case3 => contradiction
  | case4 draft tokens key inside found next after taken ih =>
    obtain ⟨keys, front, row, rfl, kept⟩ := ih ok
    obtain ⟨comma, separator, rfl⟩ := nextKey_eq_key.mp found
    obtain ⟨value, under, rfl⟩ := (takes draft key inside (front ++ rest)).mp ⟨next, taken⟩
    refine ⟨key :: keys, _, .member separator under row, by simp, ?_⟩
    rw [kept, keeps _ _ _ _ _ taken, List.mem_cons, or_assoc, eq_comm (a := key)]

end

end

end GrammarCheck.RegistryFile

namespace GrammarCheck.GrammarSpec
open RegistryFile (Token Takes SpecUnder Members Items Perhaps)

theorem Field.listed_of_ofKey? {key : String} {field : Field} (found : ofKey? key = some field) :
    key ∈ ["name", "display_name", "library", "symbol", "grammar_json", "sample"] := by
  rw [← key_of_ofKey? found]
  cases field <;> decide

theorem Draft.takes_put (draft : Draft) (key : String) : Takes (put draft key) (SpecUnder key) := by
  unfold put SpecUnder
  cases found : Field.ofKey? key with
  | some field =>
    rw [if_pos (Field.listed_of_ofKey? found)]
    exact RegistryFile.takes_optionalText.map fun value => draft.set value field
  | none =>
    have absent : key ∉ ["name", "display_name", "library", "symbol", "grammar_json", "sample"] :=
      Field.ofKey?_eq_none.mp found
    rw [if_neg absent]
    exact RegistryFile.takes_skip draft

theorem Draft.keeps_name (draft : Draft) (key : String) (tokens : List Token) (taken : Draft) (rest : List Token)
    (ok : put draft key tokens = .ok (taken, rest)) :
    taken.name.isSome = true ↔ draft.name.isSome = true ∨ key = "name" := by
  unfold put at ok
  cases found : Field.ofKey? key with
  | some field =>
    rw [found] at ok
    obtain ⟨_, _, same⟩ := RegistryFile.map_eq_ok.mp ok
    cases same
    rw [← Field.key_of_ofKey? found]
    cases field <;> simp [set, Field.key]
  | none =>
    rw [found] at ok
    obtain ⟨_, _, same⟩ := RegistryFile.map_eq_ok.mp ok
    cases same
    have other : key ≠ "name" := by
      rintro rfl
      contradiction
    simp [other]

theorem Draft.spec_isOk {draft : Draft} : (∃ spec, draft.spec = .ok spec) ↔ draft.name.isSome = true := by
  unfold spec
  cases draft.name <;> simp

/-- The row of an object with a name, after its opening bracket. -/
def Named (row : List Token) : Prop := ∃ keys, Members SpecUnder keys row ∧ "name" ∈ keys

theorem takes_ofTokens : Takes ofTokens Named := by
  intro tokens rest
  constructor
  · rintro ⟨spec, ok⟩
    unfold ofTokens at ok
    split at ok
    · contradiction
    · next draft after read =>
      obtain ⟨_, found, same⟩ := RegistryFile.map_eq_ok.mp ok
      cases same
      obtain ⟨keys, front, row, rfl, kept⟩ := RegistryFile.row_of_members Draft.takes_put Draft.keeps_name read
      have named := kept.mp (Draft.spec_isOk.mp ⟨_, found⟩)
      exact ⟨front, ⟨keys, row, by simpa [Draft.empty] using named⟩, rfl⟩
  · rintro ⟨front, ⟨keys, row, named⟩, rfl⟩
    obtain ⟨draft, read, kept⟩ := RegistryFile.members_of_row Draft.takes_put Draft.keeps_name
      Draft.put_shortens row Draft.empty rest
    obtain ⟨spec, found⟩ := Draft.spec_isOk.mpr (kept.mpr (.inr named))
    refine ⟨spec, ?_⟩
    rw [ofTokens, read]
    simp [found, Except.map]

theorem items_of_list {tokens rest : List Token} {specs : List GrammarSpec}
    (ok : listOfTokens tokens = .ok (specs, rest)) : ∃ front, Items front ∧ tokens = front ++ rest := by
  have opens : Token.openObject.Starts := trivial
  fun_induction listOfTokens tokens generalizing specs with
  | case1 => contradiction
  | case2 tokens after found =>
    cases ok
    exact ⟨_, .close, RegistryFile.next_eq_closeList.mp found⟩
  | case3 => contradiction
  | case4 tokens inside found spec after taken ih =>
    obtain ⟨_, others, same⟩ := RegistryFile.map_eq_ok.mp ok
    cases same
    obtain ⟨front, items, rfl⟩ := ih others
    obtain ⟨comma, separator, rfl⟩ := (RegistryFile.next_item opens).mp found
    obtain ⟨object, ⟨keys, row, named⟩, rfl⟩ := (takes_ofTokens _ _).mp ⟨spec, taken⟩
    exact ⟨_, .item separator row named items, by simp⟩
  | case5 => contradiction

theorem list_of_items {front : List Token} (items : Items front) (rest : List Token) :
    ∃ specs, listOfTokens (front ++ rest) = .ok (specs, rest) := by
  have opens : Token.openObject.Starts := trivial
  induction items with
  | close =>
    refine ⟨[], ?_⟩
    rw [listOfTokens]
    rfl
  | @item keys comma members more separator row named _ ih =>
    obtain ⟨specs, others⟩ := ih
    obtain ⟨spec, taken⟩ :=
      (takes_ofTokens (members ++ (more ++ rest)) (more ++ rest)).mpr ⟨members, ⟨keys, row, named⟩, rfl⟩
    refine ⟨spec :: specs, ?_⟩
    have found : RegistryFile.next .item (comma ++ .openObject :: (members ++ (more ++ rest))) =
        .ok (.openObject, members ++ (more ++ rest)) := (RegistryFile.next_item opens).mpr ⟨comma, separator, rfl⟩
    rw [List.append_assoc, List.cons_append, List.append_assoc, RegistryFile.listOfTokens_of_object found taken, others]
    rfl

end GrammarCheck.GrammarSpec

namespace GrammarCheck.RegistryFile

theorem takes_grammarList : Takes grammarList ListOrNull := by
  have null : Token.null.Starts := trivial
  have list : Token.openList.Starts := trivial
  intro tokens rest
  constructor
  · rintro ⟨specs, ok⟩
    unfold grammarList at ok
    split at ok
    · contradiction
    · next found =>
      obtain ⟨colon, separator, rfl⟩ := (next_fieldValue list).mp found
      obtain ⟨front, items, rfl⟩ := GrammarSpec.items_of_list ok
      exact ⟨_, .list separator items, by simp⟩
    · next found =>
      cases ok
      obtain ⟨colon, separator, rfl⟩ := (next_fieldValue null).mp found
      exact ⟨_, .null separator, by simp⟩
    · contradiction
  · rintro ⟨front, separator | ⟨separator, items⟩, rfl⟩
    · refine ⟨[], ?_⟩
      rw [List.append_assoc, List.singleton_append, grammarList, (next_fieldValue null).mpr ⟨_, separator, rfl⟩]
    · obtain ⟨specs, ok⟩ := GrammarSpec.list_of_items items rest
      refine ⟨specs, ?_⟩
      rw [List.append_assoc, List.cons_append, grammarList, (next_fieldValue list).mpr ⟨_, separator, rfl⟩]
      exact ok

theorem Draft.takes_put (draft : Draft) (key : String) : Takes (put draft key) (FileUnder key) := by
  unfold put FileUnder
  cases found : Field.ofKey? key with
  | some field =>
    rw [← Field.key_of_ofKey? found]
    cases field with
    | grammarDir => exact takes_optionalText.map fun value => { draft with grammarDir := value }
    | grammars => exact takes_grammarList.map fun specs => { draft with grammars := some specs }
  | none =>
    have absent : key ∉ ["grammar_dir", "grammars"] := Field.ofKey?_eq_none.mp found
    obtain ⟨dir, list⟩ : key ≠ "grammar_dir" ∧ key ≠ "grammars" := by simpa using absent
    rw [if_neg dir, if_neg list]
    exact takes_skip draft

theorem Draft.keeps_grammars (draft : Draft) (key : String) (tokens : List Token) (taken : Draft) (rest : List Token)
    (ok : put draft key tokens = .ok (taken, rest)) :
    taken.grammars.isSome = true ↔ draft.grammars.isSome = true ∨ key = "grammars" := by
  unfold put at ok
  cases found : Field.ofKey? key with
  | some field =>
    rw [found] at ok
    rw [← Field.key_of_ofKey? found]
    cases field <;>
    · obtain ⟨_, _, same⟩ := map_eq_ok.mp ok
      cases same
      simp [Field.key]
  | none =>
    rw [found] at ok
    obtain ⟨_, _, same⟩ := map_eq_ok.mp ok
    cases same
    have other : key ≠ "grammars" := by
      rintro rfl
      contradiction
    simp [other]

theorem Draft.file_isOk {draft : Draft} : (∃ file, draft.file = .ok file) ↔ draft.grammars.isSome = true := by
  unfold file
  cases draft.grammars <;> simp

theorem ofTokens_isOk {tokens : List Token} :
    (∃ file, ofTokens tokens = .ok file) ↔ ∃ front rest, File front ∧ tokens = front ++ rest := by
  constructor
  · rintro ⟨file, ok⟩
    unfold ofTokens at ok
    split at ok
    · contradiction
    · next found =>
      split at ok
      · contradiction
      · next draft rest read =>
        obtain ⟨rfl, _⟩ := starts_of_next_value _ found
        obtain ⟨keys, front, row, rfl, kept⟩ := row_of_members Draft.takes_put Draft.keeps_grammars read
        have listed := kept.mp (Draft.file_isOk.mp ⟨file, ok⟩)
        exact ⟨_, rest, .object row (by simpa [Draft.empty] using listed), rfl⟩
    · contradiction
  · rintro ⟨front, rest, @⟨keys, members, row, listed⟩, rfl⟩
    obtain ⟨draft, read, kept⟩ := members_of_row Draft.takes_put Draft.keeps_grammars Draft.put_shortens row
      Draft.empty rest
    obtain ⟨file, found⟩ := Draft.file_isOk.mpr (kept.mpr (.inr listed))
    refine ⟨file, ?_⟩
    have opened : next .value (.openObject :: (members ++ rest)) = .ok (.openObject, members ++ rest) := rfl
    rw [List.cons_append, ofTokens, opened]
    simp only [read, found]

end GrammarCheck.RegistryFile
