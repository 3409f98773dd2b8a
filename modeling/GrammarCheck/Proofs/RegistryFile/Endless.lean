import GrammarCheck.Proofs.RegistryFile.Dialect
import GrammarCheck.Proofs.RegistryFile.Value

/-! The rows of tokens whose reading never ends. They are those of files as far as a bracket under a key that is
not known, and from there on no bracket closes that was not opened after it. Main statement: the reading
of a row never ends if and only if the row is of this form. -/
namespace GrammarCheck.RegistryFile

/-- A bracket may stay open, but what closes was opened before, in any kind. -/
inductive Unclosed : List Token → Prop
  | nil : Unclosed []
  | flat {token : Token} {rest : List Token} (flat : token.Flat) (more : Unclosed rest) : Unclosed (token :: rest)
  | opened {start : Token} {rest : List Token} (opens : start.Opens) (more : Unclosed rest) : Unclosed (start :: rest)
  | group {start stop : Token} {inside rest : List Token} (opens : start.Opens) (closes : stop.Closes)
      (within : Balanced inside) (more : Unclosed rest) : Unclosed (start :: (inside ++ stop :: rest))

/-- Colons, and a bracket that stays open. -/
inductive LeftOpen : List Token → Prop
  | colon {value : List Token} (more : LeftOpen value) : LeftOpen (.colon :: value)
  | bracket {start : Token} {rest : List Token} (opens : start.Opens) (within : Unclosed rest) :
      LeftOpen (start :: rest)

/-- Members up to one whose value stays open. -/
inductive OpenMembers (under left : String → List Token → Prop) : List Token → Prop
  | here {key : String} {comma value : List Token} (separator : Perhaps .comma comma) (last : left key value) :
      OpenMembers under left (comma ++ .string key :: value)
  | later {key : String} {comma value rest : List Token} (separator : Perhaps .comma comma) (taken : under key value)
      (more : OpenMembers under left rest) : OpenMembers under left (comma ++ .string key :: (value ++ rest))

def SpecOpen (key : String) : List Token → Prop :=
  if key ∈ ["name", "display_name", "library", "symbol", "grammar_json", "sample"] then fun _ => False else LeftOpen

/-- Objects with a name, up to one that stays open. -/
inductive OpenItems : List Token → Prop
  | here {comma members : List Token} (separator : Perhaps .comma comma)
      (last : OpenMembers SpecUnder SpecOpen members) : OpenItems (comma ++ .openObject :: members)
  | later {keys : List String} {comma members rest : List Token} (separator : Perhaps .comma comma)
      (object : Members SpecUnder keys members) (named : "name" ∈ keys) (more : OpenItems rest) :
      OpenItems (comma ++ .openObject :: (members ++ rest))

inductive OpenList : List Token → Prop
  | list {colon items : List Token} (separator : Perhaps .colon colon) (inside : OpenItems items) :
      OpenList (colon ++ .openList :: items)

def FileOpen (key : String) : List Token → Prop :=
  if key = "grammar_dir" then fun _ => False else if key = "grammars" then OpenList else LeftOpen

inductive OpenFile : List Token → Prop
  | object {members : List Token} (inside : OpenMembers FileUnder FileOpen members) : OpenFile (.openObject :: members)

theorem skipInside_unclosed {row : List Token} (unclosed : Unclosed row) (depth : Nat) :
    skipInside depth row = .error .endless := by
  induction unclosed generalizing depth with
  | nil => cases depth <;> rfl
  | flat flat _ ih => rw [skipInside_flat flat, ih]
  | opened opens _ ih => rw [skipInside_opens opens, ih]
  | group opens closes within _ ih =>
    rw [skipInside_opens opens, skipInside_balanced within, (skipInside_closes closes _).2, ih]

section
variable {tokens : List Token}

/-- A row that is passed over without end leaves brackets open, or else it closes one level of `depth` with a
balanced row and a bracket, and the rest is passed over without end one level further out. -/
theorem unclosed_of_skipInside {depth : Nat} (endless : skipInside depth tokens = .error .endless) :
    Unclosed tokens ∨ ∃ inside stop after outer, Balanced inside ∧ stop.Closes ∧ tokens = inside ++ stop :: after ∧
      depth = outer + 1 ∧ skipInside outer after = .error .endless := by
  -- by length, as in `balanced_of_skipInside`
  induction length : tokens.length using Nat.strongRecOn generalizing depth tokens with
  | ind size ih =>
    cases tokens with
    | nil => exact .inl .nil
    | cons first others =>
      have shorter : others.length < size := by simp [← length]
      obtain opens | closes | flat | ⟨fault, rfl⟩ := first.kind_cases
      · rw [skipInside_opens opens] at endless
        obtain unclosed | ⟨inside, stop, after, outer, balanced, closes, rfl, same, left⟩ := ih _ shorter endless rfl
        · exact .inl (.opened opens unclosed)
        · cases same
          have shorter : after.length < size := by simp at shorter; omega
          obtain unclosed | ⟨more, last, end_, outer, rest_balanced, last_closes, rfl, further⟩ := ih _ shorter left rfl
          · exact .inl (.group opens closes balanced unclosed)
          · exact .inr ⟨_, last, end_, outer, .group opens closes balanced rest_balanced, last_closes, by simp, further⟩
      · cases depth with
        | zero =>
          rw [(skipInside_closes closes _).1] at endless
          contradiction
        | succ depth =>
          rw [(skipInside_closes closes _).2] at endless
          exact .inr ⟨[], first, others, depth, .nil, closes, rfl, rfl, endless⟩
      · rw [skipInside_flat flat] at endless
        obtain unclosed | ⟨inside, stop, after, outer, balanced, closes, rfl, left⟩ := ih _ shorter endless rfl
        · exact .inl (.flat flat unclosed)
        · exact .inr ⟨first :: inside, stop, after, outer, .flat flat balanced, closes, rfl, left⟩
      · rw [skipInside_fault] at endless
        cases endless

theorem skipInside_eq_endless : skipInside 0 tokens = .error .endless ↔ Unclosed tokens := by
  constructor
  · intro endless
    obtain unclosed | ⟨_, _, _, _, _, _, _, other, _⟩ := unclosed_of_skipInside endless
    · exact unclosed
    · contradiction
  · exact fun unclosed => skipInside_unclosed unclosed 0

theorem skip_eq_endless : skip tokens = .error .endless ↔ LeftOpen tokens := by
  constructor
  · intro endless
    induction tokens with
    | nil => cases endless
    | cons first tokens ih =>
      cases first with
      | colon => exact .colon (ih endless)
      | openObject => exact .bracket (.inl rfl) (skipInside_eq_endless.mp endless)
      | openList => exact .bracket (.inr rfl) (skipInside_eq_endless.mp endless)
      | number value => cases value <;> cases endless
      | _ => cases endless
  · intro left
    induction left with
    | colon _ ih => exact ih
    | bracket opens within => rw [skip_opens opens, skipInside_unclosed within]

theorem next_ne_endless (expected : Expected) (tokens : List Token) : next expected tokens ≠ .error .endless := by
  fun_induction next expected tokens <;> simp_all

theorem nextKey_ne_endless (tokens : List Token) : nextKey tokens ≠ .error .endless := by
  intro endless
  unfold nextKey at endless
  split at endless
  · next found =>
    cases endless
    exact next_ne_endless .key tokens found
  all_goals cases endless

end

/-- The reading of just these rows never ends. -/
def SticksIn {α : Type} (read : List Token → Except Failure α) (row : List Token → Prop) : Prop :=
  ∀ tokens, read tokens = .error .endless ↔ row tokens

theorem map_eq_endless {α β : Type} {read : Except Failure α} {f : α → β} :
    read.map f = .error .endless ↔ read = .error .endless := by
  cases read <;> simp [Except.map]

theorem SticksIn.map {α β : Type} {read : List Token → Except Failure α} {row : List Token → Prop}
    (sticks : SticksIn read row) (f : α → β) : SticksIn (fun tokens => (read tokens).map f) row :=
  fun tokens => map_eq_endless.trans (sticks tokens)

theorem sticksIn_optionalText : SticksIn optionalText fun _ => False := by
  intro tokens
  rw [iff_false]
  intro endless
  unfold optionalText at endless
  split at endless
  · next found =>
    cases endless
    exact next_ne_endless .fieldValue tokens found
  all_goals cases endless

theorem sticksIn_skip : SticksIn skip LeftOpen := fun _ => skip_eq_endless

theorem sticksIn_members {δ : Type} {put : Put δ} {under left : String → List Token → Prop}
    (takes : ∀ draft key, Takes (put draft key) (under key)) (sticks : ∀ draft key, SticksIn (put draft key) (left key))
    (shortens : put.Shortens) (draft : δ) : SticksIn (members put shortens draft) (OpenMembers under left) := by
  intro tokens
  constructor
  · intro endless
    fun_induction members put shortens draft tokens with
    | case1 _ tokens _ found =>
      cases endless
      exact absurd found (nextKey_ne_endless tokens)
    | case2 => contradiction
    | case3 draft tokens key inside found _ stuck =>
      cases endless
      obtain ⟨comma, separator, rfl⟩ := nextKey_eq_key.mp found
      exact .here separator ((sticks draft key inside).mp stuck)
    | case4 draft tokens key inside found taken rest ok ih =>
      obtain ⟨comma, separator, rfl⟩ := nextKey_eq_key.mp found
      obtain ⟨value, under, rfl⟩ := (takes draft key inside rest).mp ⟨taken, ok⟩
      exact .later separator under (ih endless)
  · intro opened
    induction opened generalizing draft with
    | @here key comma value separator last =>
      have found : nextKey (comma ++ .string key :: value) = .ok (some key, value) :=
        nextKey_eq_key.mpr ⟨comma, separator, rfl⟩
      rw [members_eq, found]
      show (put draft key value >>= _) = _
      rw [(sticks draft key value).mpr last]
      rfl
    | @later key comma value rest separator taken _ ih =>
      obtain ⟨next, ok⟩ := (takes draft key (value ++ rest) rest).mpr ⟨value, taken, rfl⟩
      have found : nextKey (comma ++ .string key :: (value ++ rest)) = .ok (some key, value ++ rest) :=
        nextKey_eq_key.mpr ⟨comma, separator, rfl⟩
      rw [members_of_key found ok, ih]

end GrammarCheck.RegistryFile

namespace GrammarCheck.GrammarSpec
open RegistryFile (Token SticksIn OpenMembers OpenItems SpecUnder SpecOpen)

theorem Draft.sticksIn_put (draft : Draft) (key : String) : SticksIn (put draft key) (SpecOpen key) := by
  unfold put SpecOpen
  cases found : Field.ofKey? key with
  | some field =>
    rw [if_pos (Field.listed_of_ofKey? found)]
    exact RegistryFile.sticksIn_optionalText.map _
  | none =>
    have absent : key ∉ ["name", "display_name", "library", "symbol", "grammar_json", "sample"] :=
      Field.ofKey?_eq_none.mp found
    rw [if_neg absent]
    exact RegistryFile.sticksIn_skip.map _

theorem sticksIn_ofTokens : SticksIn ofTokens (OpenMembers SpecUnder SpecOpen) := by
  intro tokens
  rw [← RegistryFile.sticksIn_members Draft.takes_put Draft.sticksIn_put Draft.put_shortens Draft.empty, ofTokens]
  split
  · next read => simp [read]
  · next draft rest read =>
    rw [read, RegistryFile.map_eq_endless]
    unfold Draft.spec
    cases draft.name <;> simp

theorem sticksIn_listOfTokens : SticksIn listOfTokens OpenItems := by
  have opens : Token.openObject.Starts := trivial
  intro tokens
  constructor
  · intro endless
    fun_induction listOfTokens tokens with
    | case1 tokens _ found =>
      cases endless
      exact absurd found (RegistryFile.next_ne_endless .item tokens)
    | case2 => contradiction
    | case3 tokens inside found _ stuck =>
      cases endless
      obtain ⟨comma, separator, rfl⟩ := (RegistryFile.next_item opens).mp found
      exact .here separator ((sticksIn_ofTokens inside).mp stuck)
    | case4 tokens inside found spec rest taken ih =>
      obtain ⟨comma, separator, rfl⟩ := (RegistryFile.next_item opens).mp found
      obtain ⟨object, ⟨keys, row, named⟩, rfl⟩ := (takes_ofTokens inside rest).mp ⟨spec, taken⟩
      exact .later separator row named (ih (RegistryFile.map_eq_endless.mp endless))
    | case5 => cases endless
  · intro opened
    induction opened with
    | @here comma members separator last =>
      have found : RegistryFile.next .item (comma ++ .openObject :: members) = .ok (.openObject, members) :=
        (RegistryFile.next_item opens).mpr ⟨comma, separator, rfl⟩
      rw [listOfTokens_eq, found]
      show (ofTokens members >>= _) = _
      rw [(sticksIn_ofTokens members).mpr last]
      rfl
    | @later keys comma members rest separator object named _ ih =>
      obtain ⟨spec, taken⟩ := (takes_ofTokens (members ++ rest) rest).mpr ⟨members, ⟨keys, object, named⟩, rfl⟩
      have found : RegistryFile.next .item (comma ++ .openObject :: (members ++ rest)) =
          .ok (.openObject, members ++ rest) := (RegistryFile.next_item opens).mpr ⟨comma, separator, rfl⟩
      rw [RegistryFile.listOfTokens_of_object found taken, ih]
      rfl

end GrammarCheck.GrammarSpec

namespace GrammarCheck.RegistryFile

theorem sticksIn_grammarList : SticksIn grammarList OpenList := by
  have opens : Token.openList.Starts := trivial
  intro tokens
  constructor
  · intro endless
    unfold grammarList at endless
    split at endless
    · next found =>
      cases endless
      exact absurd found (next_ne_endless .fieldValue tokens)
    · next found =>
      obtain ⟨colon, separator, rfl⟩ := (next_fieldValue opens).mp found
      exact .list separator ((GrammarSpec.sticksIn_listOfTokens _).mp endless)
    · cases endless
    · cases endless
  · rintro ⟨separator, inside⟩
    rw [grammarList, (next_fieldValue opens).mpr ⟨_, separator, rfl⟩]
    exact (GrammarSpec.sticksIn_listOfTokens _).mpr inside

theorem Draft.sticksIn_put (draft : Draft) (key : String) : SticksIn (put draft key) (FileOpen key) := by
  unfold put FileOpen
  cases found : Field.ofKey? key with
  | some field =>
    rw [← Field.key_of_ofKey? found]
    cases field with
    | grammarDir => exact sticksIn_optionalText.map _
    | grammars => exact sticksIn_grammarList.map _
  | none =>
    have absent : key ∉ ["grammar_dir", "grammars"] := Field.ofKey?_eq_none.mp found
    obtain ⟨dir, list⟩ : key ≠ "grammar_dir" ∧ key ≠ "grammars" := by simpa using absent
    rw [if_neg dir, if_neg list]
    exact sticksIn_skip.map _

theorem sticksIn_ofTokens : SticksIn ofTokens OpenFile := by
  have inner := sticksIn_members Draft.takes_put Draft.sticksIn_put Draft.put_shortens Draft.empty
  intro tokens
  constructor
  · intro endless
    unfold ofTokens at endless
    split at endless
    · next found =>
      cases endless
      exact absurd found (next_ne_endless .value tokens)
    · next rest found =>
      obtain ⟨rfl, _⟩ := starts_of_next_value tokens found
      split at endless
      · next read =>
        cases endless
        exact .object ((inner rest).mp read)
      · next draft _ _ =>
        unfold Draft.file at endless
        cases grammars : draft.grammars <;> rw [grammars] at endless <;> cases endless
    · cases endless
  · rintro ⟨inside⟩
    have opened (rest : List Token) : next .value (.openObject :: rest) = .ok (.openObject, rest) := rfl
    rw [ofTokens, opened]
    simp only [(inner _).mpr inside]

end GrammarCheck.RegistryFile
