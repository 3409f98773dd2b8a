import GrammarCheck.RegistryFile.Stream

/-! Registry files, read from their tokens. An object is read key by key, the values of keys that are
not known passed over, and what follows the file's own closing bracket is not looked at. Of a key that is
repeated the last value counts. If the key is optional this is no more than a convention, as the earlier
value is then freed twice. Main statements: every reader leaves fewer tokens than it was given. -/
namespace GrammarCheck

structure GrammarSpec where
  name : String
  displayName : Option String
  library : Option String
  symbol : Option String
  grammarJson : Option String
  sample : Option String

structure RegistryFile where
  grammarDir : Option String
  grammars : List GrammarSpec

namespace RegistryFile

theorem map_eq_ok {α β : Type} {read : Except Failure α} {f : α → β} {result : β} :
    read.map f = .ok result ↔ ∃ value, read = .ok value ∧ f value = result := by
  cases read <;> simp [Except.map]

def Token.description : Token → String
  | .openObject => "object start"
  | .closeObject => "object end"
  | .openList => "list start"
  | .closeList => "list end"
  | .colon => "colon"
  | .comma => "comma"
  | .string value => s!"scalar string {value}"
  | .number value => s!"scalar {value.description}"
  | .boolean value => s!"scalar bool {value}"
  | .null => "scalar null"
  | .fault stray => stray.message

/-- The fault of a value that starts with a token its shape has no use for. -/
def Token.misfit (shape : String) : Token → Fault
  | .number _ => .unsupported shape "numeric type"
  | .boolean _ => .wrongShape shape "bool"
  | .string _ => .wrongShape shape "String"
  | .openList => .unsupported shape "array, list, tuple, or slice"
  | .openObject => .unsupported shape "map, enum, or struct"
  | _ => .noDefault shape

/-- The text under a key, or nothing for null. -/
def optionalText (tokens : List Token) : Except Failure (Option String × List Token) :=
  match next .fieldValue tokens with
  | .error failure => .error failure
  | .ok (.string value, rest) => .ok (some value, rest)
  | .ok (.null, rest) => .ok (none, rest)
  | .ok (token, _) => .error (.fault (token.misfit "String"))

theorem length_after_optionalText {tokens rest : List Token} {value : Option String}
    (ok : optionalText tokens = .ok (value, rest)) : rest.length < tokens.length := by
  revert ok
  unfold optionalText
  split
  · exact fun ok => nomatch ok
  · next found => rintro ⟨⟩; exact length_after_next found
  · next found => rintro ⟨⟩; exact length_after_next found
  · exact fun ok => nomatch ok

/-- The next key of an object, or nothing at its closing bracket. -/
def nextKey (tokens : List Token) : Except Failure (Option String × List Token) :=
  match next .key tokens with
  | .error failure => .error failure
  | .ok (.closeObject, rest) => .ok (none, rest)
  | .ok (.string key, rest) => .ok (some key, rest)
  | .ok (token, _) => .error (.fault (.noKey token.description))

theorem length_after_nextKey {tokens rest : List Token} {key : Option String}
    (ok : nextKey tokens = .ok (key, rest)) : rest.length < tokens.length := by
  revert ok
  unfold nextKey
  split
  · exact fun ok => nomatch ok
  · next found => rintro ⟨⟩; exact length_after_next found
  · next found => rintro ⟨⟩; exact length_after_next found
  · exact fun ok => nomatch ok

abbrev Put (δ : Type) := δ → String → List Token → Except Failure (δ × List Token)

def Put.Shortens {δ : Type} (put : Put δ) : Prop :=
  ∀ ⦃draft key tokens result rest⦄, put draft key tokens = .ok (result, rest) → rest.length < tokens.length

/-- Reads an object after its opening bracket. -/
def members {δ : Type} (put : Put δ) (shortens : put.Shortens) (draft : δ) (tokens : List Token) :
    Except Failure (δ × List Token) :=
  match _found : nextKey tokens with
  | .error failure => .error failure
  | .ok (none, rest) => .ok (draft, rest)
  | .ok (some key, rest) =>
    match _taken : put draft key rest with
    | .error failure => .error failure
    | .ok (draft, rest) => members put shortens draft rest
termination_by tokens.length
decreasing_by
  exact Nat.lt_trans (shortens _taken) (length_after_nextKey _found)

theorem length_after_members {δ : Type} {put : Put δ} {shortens : put.Shortens} {draft result : δ}
    {tokens rest : List Token} (ok : members put shortens draft tokens = .ok (result, rest)) :
    rest.length < tokens.length := by
  fun_induction members put shortens draft tokens with
  | case1 => contradiction
  | case2 _ _ _ found => cases ok; exact length_after_nextKey found
  | case3 => contradiction
  | case4 _ _ _ _ found _ _ taken shorter =>
    exact Nat.lt_trans (shorter ok) (Nat.lt_trans (shortens taken) (length_after_nextKey found))

end RegistryFile

namespace GrammarSpec
open RegistryFile (Failure Token Put)

inductive Field where
  | name
  | displayName
  | library
  | symbol
  | grammarJson
  | sample
deriving DecidableEq

namespace Field

def all : List Field := [.name, .displayName, .library, .symbol, .grammarJson, .sample]

def key : Field → String
  | .name => "name"
  | .displayName => "display_name"
  | .library => "library"
  | .symbol => "symbol"
  | .grammarJson => "grammar_json"
  | .sample => "sample"

def ofKey? (key : String) : Option Field := all.find? (·.key == key)

end Field

structure Draft where
  name : Option String
  displayName : Option String
  library : Option String
  symbol : Option String
  grammarJson : Option String
  sample : Option String

namespace Draft

def empty : Draft := ⟨none, none, none, none, none, none⟩

/-- Takes the value of a field. Null is the empty name. -/
def set (draft : Draft) (value : Option String) : Field → Draft
  | .name => { draft with name := some (value.getD "") }
  | .displayName => { draft with displayName := value }
  | .library => { draft with library := value }
  | .symbol => { draft with symbol := value }
  | .grammarJson => { draft with grammarJson := value }
  | .sample => { draft with sample := value }

def put : Put Draft := fun draft key tokens =>
  match Field.ofKey? key with
  | some field => (RegistryFile.optionalText tokens).map fun (value, rest) => (draft.set value field, rest)
  | none => (RegistryFile.skip tokens).map fun rest => (draft, rest)

theorem put_shortens : Put.Shortens put := by
  intro draft key tokens result rest ok
  unfold put at ok
  split at ok
  · obtain ⟨read, taken, same⟩ := RegistryFile.map_eq_ok.mp ok
    cases same
    exact RegistryFile.length_after_optionalText taken
  · obtain ⟨read, taken, same⟩ := RegistryFile.map_eq_ok.mp ok
    cases same
    exact RegistryFile.length_after_skip taken

def spec (draft : Draft) : Except Failure GrammarSpec :=
  match draft.name with
  | none => .error (.fault (.missingField "GrammarSpec" "name"))
  | some name =>
    .ok {
      name := name
      displayName := draft.displayName
      library := draft.library
      symbol := draft.symbol
      grammarJson := draft.grammarJson
      sample := draft.sample }

end Draft

/-- Reads what is said about one grammar after its opening bracket. -/
def ofTokens (tokens : List Token) : Except Failure (GrammarSpec × List Token) :=
  match RegistryFile.members Draft.put Draft.put_shortens Draft.empty tokens with
  | .error failure => .error failure
  | .ok (draft, rest) => draft.spec.map fun spec => (spec, rest)

theorem length_after_ofTokens {tokens rest : List Token} {spec : GrammarSpec}
    (ok : ofTokens tokens = .ok (spec, rest)) : rest.length < tokens.length := by
  revert ok
  unfold ofTokens
  split
  · exact fun ok => nomatch ok
  · next found =>
    intro ok
    obtain ⟨_, _, same⟩ := RegistryFile.map_eq_ok.mp ok
    cases same
    exact RegistryFile.length_after_members found

/-- Reads a list of grammars after its opening bracket. -/
def listOfTokens (tokens : List Token) : Except Failure (List GrammarSpec × List Token) :=
  match _found : RegistryFile.next .item tokens with
  | .error failure => .error failure
  | .ok (.closeList, rest) => .ok ([], rest)
  | .ok (.openObject, rest) =>
    match _taken : ofTokens rest with
    | .error failure => .error failure
    | .ok (spec, rest) => (listOfTokens rest).map fun (specs, rest) => (spec :: specs, rest)
  | .ok (token, _) => .error (.fault (token.misfit "GrammarSpec"))
termination_by tokens.length
decreasing_by
  exact Nat.lt_trans (length_after_ofTokens _taken) (RegistryFile.length_after_next _found)

theorem length_after_listOfTokens {tokens rest : List Token} {specs : List GrammarSpec}
    (ok : listOfTokens tokens = .ok (specs, rest)) : rest.length < tokens.length := by
  fun_induction listOfTokens tokens generalizing specs rest with
  | case1 => contradiction
  | case2 _ _ found => cases ok; exact RegistryFile.length_after_next found
  | case3 => contradiction
  | case4 _ _ found _ _ taken shorter =>
    obtain ⟨_, more, same⟩ := RegistryFile.map_eq_ok.mp ok
    cases same
    exact Nat.lt_trans (shorter more)
      (Nat.lt_trans (length_after_ofTokens taken) (RegistryFile.length_after_next found))
  | case5 => contradiction

end GrammarSpec

namespace RegistryFile

inductive Field where
  | grammarDir
  | grammars
deriving DecidableEq

namespace Field

def all : List Field := [.grammarDir, .grammars]

def key : Field → String
  | .grammarDir => "grammar_dir"
  | .grammars => "grammars"

def ofKey? (key : String) : Option Field := all.find? (·.key == key)

end Field

structure Draft where
  grammarDir : Option String
  grammars : Option (List GrammarSpec)

/-- The grammars of a file. Null is the empty list. -/
def grammarList (tokens : List Token) : Except Failure (List GrammarSpec × List Token) :=
  match next .fieldValue tokens with
  | .error failure => .error failure
  | .ok (.openList, rest) => GrammarSpec.listOfTokens rest
  | .ok (.null, rest) => .ok ([], rest)
  | .ok (token, _) => .error (.fault (token.misfit "Vec<GrammarSpec>"))

theorem length_after_grammarList {tokens rest : List Token} {specs : List GrammarSpec}
    (ok : grammarList tokens = .ok (specs, rest)) : rest.length < tokens.length := by
  revert ok
  unfold grammarList
  split
  · exact fun ok => nomatch ok
  · next found =>
    exact fun ok => Nat.lt_trans (GrammarSpec.length_after_listOfTokens ok) (length_after_next found)
  · next found => rintro ⟨⟩; exact length_after_next found
  · exact fun ok => nomatch ok

namespace Draft

def empty : Draft := ⟨none, none⟩

def put : Put Draft := fun draft key tokens =>
  match Field.ofKey? key with
  | some .grammarDir =>
    (optionalText tokens).map fun (value, rest) => ({ draft with grammarDir := value }, rest)
  | some .grammars =>
    (grammarList tokens).map fun (specs, rest) => ({ draft with grammars := some specs }, rest)
  | none => (skip tokens).map fun rest => (draft, rest)

theorem put_shortens : Put.Shortens put := by
  intro draft key tokens result rest ok
  unfold put at ok
  split at ok
  · obtain ⟨read, taken, same⟩ := map_eq_ok.mp ok
    cases same
    exact length_after_optionalText taken
  · obtain ⟨read, taken, same⟩ := map_eq_ok.mp ok
    cases same
    exact length_after_grammarList taken
  · obtain ⟨read, taken, same⟩ := map_eq_ok.mp ok
    cases same
    exact length_after_skip taken

def file (draft : Draft) : Except Failure RegistryFile :=
  match draft.grammars with
  | none => .error (.fault (.missingField "RegistryFile" "grammars"))
  | some grammars => .ok ⟨draft.grammarDir, grammars⟩

end Draft

def ofTokens (tokens : List Token) : Except Failure RegistryFile :=
  match next .value tokens with
  | .error failure => .error failure
  | .ok (.openObject, rest) =>
    match members Draft.put Draft.put_shortens Draft.empty rest with
    | .error failure => .error failure
    | .ok (draft, _) => draft.file
  | .ok (token, _) => .error (.fault (token.misfit "RegistryFile"))

def ofText (text : String) : Except Failure RegistryFile := ofTokens (tokens text.toList)

end RegistryFile
end GrammarCheck
