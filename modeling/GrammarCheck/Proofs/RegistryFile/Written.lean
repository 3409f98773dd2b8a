import GrammarCheck.Proofs.RegistryFile.Members
import Mathlib.Data.List.Nodup

/-! Registry files as JSON values: objects whose keys are known and differ, in any order, where a field
that has nothing to say is null or left out. Main statement: a JSON text of such a value is read as the
file that was written. -/
namespace GrammarCheck
open Json (Value Denotes)
open Text (units)

variable {keys : List String} {members : List (List Nat × Value)} {key : String} {given : Option String}

/-- The keys of an object are some of these, each at most once. -/
structure Keyed (keys : List String) (members : List (List Nat × Value)) : Prop where
  known : ∀ member ∈ members, ∃ key ∈ keys, member.1 = units key.toList
  distinct : (members.map (·.1)).Nodup

/-- What an object gives under a key: a text, or nothing if the key is missing or null. -/
def Gives (members : List (List Nat × Value)) (key : String) : Option String → Prop
  | some text => (units key.toList, .string (units text.toList)) ∈ members
  | none => ∀ value, (units key.toList, value) ∈ members → value = .null

inductive GrammarSpec.Written (spec : GrammarSpec) : Value → Prop
  | object {members : List (List Nat × Value)}
      (keys : Keyed ["name", "display_name", "library", "symbol", "grammar_json", "sample"] members)
      (name : Gives members "name" (some spec.name))
      (displayName : Gives members "display_name" spec.displayName)
      (library : Gives members "library" spec.library)
      (symbol : Gives members "symbol" spec.symbol)
      (grammarJson : Gives members "grammar_json" spec.grammarJson)
      (sample : Gives members "sample" spec.sample) : Written spec (.object members)

inductive RegistryFile.Written (file : RegistryFile) : Value → Prop
  | object {members : List (List Nat × Value)} {items : List Value}
      (keys : Keyed ["grammar_dir", "grammars"] members)
      (grammarDir : Gives members "grammar_dir" file.grammarDir)
      (grammars : (units "grammars".toList, .list items) ∈ members)
      (specs : List.Forall₂ GrammarSpec.Written file.grammars items) : Written file (.object members)

def optionalValue : Option String → Value
  | some text => .string (units text.toList)
  | none => .null

theorem Keyed.value_unique (keyed : Keyed keys members) {key : List Nat} {first second : Value}
    (one : (key, first) ∈ members) (other : (key, second) ∈ members) : first = second :=
  congrArg Prod.snd (List.inj_on_of_nodup_map keyed.distinct one other rfl)

theorem Gives.value_eq (gives : Gives members key given) (keyed : Keyed keys members) {value : Value}
    (inside : (units key.toList, value) ∈ members) : value = optionalValue given := by
  cases given with
  | none => exact gives value inside
  | some text => exact keyed.value_unique inside gives

theorem Gives.eq_none (gives : Gives members key given) (absent : key ∉ RegistryFile.keyTexts members) :
    given = none := by
  cases given with
  | none => rfl
  | some text =>
    refine absurd (List.mem_map.mpr ⟨_, gives, ?_⟩) absent
    exact RegistryFile.keyText_units key

theorem RegistryFile.optionalText_optionalValue (said : Option String) (rest : List Token) :
    optionalText (.colon :: (valueTokens (optionalValue said) ++ rest)) = .ok (said, rest) := by
  cases said with
  | none => rfl
  | some text =>
    have token : valueTokens (optionalValue (some text)) = [.string text] := by
      simp [optionalValue, valueTokens, Value.lexemes, lexemeToken]
    rw [token]
    rfl

theorem RegistryFile.readable_optionalValue (said : Option String) : ValueReadable (optionalValue said) := by
  cases said with
  | none => simp [optionalValue, ValueReadable, Value.lexemes, Readable]
  | some text => simp [optionalValue, ValueReadable, Value.lexemes, Readable]

theorem Keyed.readable (keyed : Keyed keys members)
    (values : ∀ key ∈ keys, ∀ value, (units key.toList, value) ∈ members → RegistryFile.ValueReadable value) :
    RegistryFile.ValueReadable (.object members) := by
  apply RegistryFile.readable_object
  intro member inside
  obtain ⟨key, listed, same⟩ := keyed.known member inside
  refine ⟨⟨key.toList, same⟩, values key listed member.2 ?_⟩
  rw [← same]
  exact inside

namespace GrammarSpec
open RegistryFile (Token)
variable {spec : GrammarSpec}

def said (spec : GrammarSpec) : Field → Option String
  | .name => some spec.name
  | .displayName => spec.displayName
  | .library => spec.library
  | .symbol => spec.symbol
  | .grammarJson => spec.grammarJson
  | .sample => spec.sample

theorem Field.ofKey?_key (field : Field) : ofKey? field.key = some field := by cases field <;> rfl

theorem Field.key_of_ofKey? {key : String} {field : Field} (found : ofKey? key = some field) : field.key = key := by
  simpa using List.find?_some found

theorem Field.ofKey?_eq_none {key : String} : ofKey? key = none ↔ key ∉ all.map Field.key := by
  simp [ofKey?]

def Draft.get (draft : Draft) : Field → Option String
  | .name => draft.name
  | .displayName => draft.displayName
  | .library => draft.library
  | .symbol => draft.symbol
  | .grammarJson => draft.grammarJson
  | .sample => draft.sample

theorem Draft.get_set_self (draft : Draft) (spec : GrammarSpec) (field : Field) :
    (draft.set (spec.said field) field).get field = spec.said field := by cases field <;> rfl

theorem Draft.get_set_of_ne {field other : Field} (different : other ≠ field) (draft : Draft) (value : Option String) :
    (draft.set value other).get field = draft.get field := by
  cases other <;> cases field <;> simp_all [set, get]

theorem Draft.spec_of_get {draft : Draft} (same : ∀ field, draft.get field = spec.said field) :
    draft.spec = .ok spec := by
  have name : draft.name = some spec.name := same .name
  have displayName : draft.displayName = spec.displayName := same .displayName
  have library : draft.library = spec.library := same .library
  have symbol : draft.symbol = spec.symbol := same .symbol
  have grammarJson : draft.grammarJson = spec.grammarJson := same .grammarJson
  have sample : draft.sample = spec.sample := same .sample
  rw [Draft.spec, name, displayName, library, symbol, grammarJson, sample]

/-- What a draft becomes as a key of a grammar that is known already is taken. -/
def take (spec : GrammarSpec) (draft : Draft) (key : String) : Draft :=
  match Field.ofKey? key with
  | some field => draft.set (spec.said field) field
  | none => draft

theorem get_take_key (spec : GrammarSpec) (field : Field) (draft : Draft) :
    (spec.take draft field.key).get field = spec.said field := by
  rw [take, Field.ofKey?_key]
  exact draft.get_set_self spec field

theorem get_take_of_ne (spec : GrammarSpec) {field : Field} {key : String} (different : key ≠ field.key)
    (draft : Draft) : (spec.take draft key).get field = draft.get field := by
  rw [take]
  cases found : Field.ofKey? key with
  | none => rfl
  | some other =>
    refine Draft.get_set_of_ne ?_ draft _
    intro same
    subst same
    exact different (Field.key_of_ofKey? found).symm

theorem get_foldl_take (spec : GrammarSpec) (field : Field) (keys : List String) (draft : Draft) :
    (keys.foldl spec.take draft).get field = if field.key ∈ keys then spec.said field else draft.get field :=
  RegistryFile.foldl_get (fun draft => draft.get field) (spec.get_take_key field)
    (fun draft _ different => spec.get_take_of_ne different draft) keys draft

theorem Written.gives (written : spec.Written (.object members)) (field : Field) :
    Gives members field.key (spec.said field) := by
  obtain ⟨_, name, displayName, library, symbol, grammarJson, sample⟩ := written
  cases field with
  | name => exact name
  | displayName => exact displayName
  | library => exact library
  | symbol => exact symbol
  | grammarJson => exact grammarJson
  | sample => exact sample

theorem Written.keyed (written : spec.Written (.object members)) :
    Keyed (Field.all.map Field.key) members := by
  obtain ⟨keys, _⟩ := written
  exact keys

theorem Written.put (written : spec.Written (.object members)) {member : List Nat × Value}
    (inside : member ∈ members) (draft : Draft) (rest : List Token) :
    Draft.put draft (RegistryFile.keyText member.1) (.colon :: (RegistryFile.valueTokens member.2 ++ rest)) =
      .ok (spec.take draft (RegistryFile.keyText member.1), rest) := by
  obtain ⟨key, value⟩ := member
  obtain ⟨text, listed, rfl⟩ := written.keyed.known _ inside
  obtain ⟨field, _, rfl⟩ := List.mem_map.mp listed
  have given := (written.gives field).value_eq written.keyed inside
  rw [RegistryFile.keyText_units, given, Draft.put, take, Field.ofKey?_key]
  simp only [RegistryFile.optionalText_optionalValue]
  rfl

theorem Written.readable {item : Value} (written : spec.Written item) :
    RegistryFile.ValueReadable item := by
  cases item with
  | object members =>
    apply written.keyed.readable
    intro key listed value inside
    obtain ⟨field, _, rfl⟩ := List.mem_map.mp listed
    rw [(written.gives field).value_eq written.keyed inside]
    exact RegistryFile.readable_optionalValue (spec.said field)
  | _ => cases written

theorem Written.readsAs {item : Value} (written : spec.Written item) : RegistryFile.ReadsAs spec item := by
  cases item with
  | object members =>
    refine ⟨members, rfl, fun rest => ?_⟩
    have read : ∀ field, ((RegistryFile.keyTexts members).foldl spec.take Draft.empty).get field = spec.said field := by
      intro field
      rw [get_foldl_take]
      split
      · rfl
      · next absent =>
        rw [(written.gives field).eq_none absent]
        cases field <;> rfl
    rw [ofTokens, RegistryFile.members_memberTokens (fun member inside => written.put inside)]
    show (Draft.spec _).map _ = _
    rw [Draft.spec_of_get read]
    rfl
  | _ => cases written

end GrammarSpec

namespace RegistryFile
variable {file : RegistryFile}

theorem Field.key_of_ofKey? {key : String} {field : Field} (found : ofKey? key = some field) : field.key = key := by
  simpa using List.find?_some found

theorem Field.ofKey?_eq_none {key : String} : ofKey? key = none ↔ key ∉ all.map Field.key := by
  simp [ofKey?]

/-- What a draft becomes as a key of a file that is known already is taken. -/
def take (file : RegistryFile) (draft : Draft) (key : String) : Draft :=
  match Field.ofKey? key with
  | some .grammarDir => { draft with grammarDir := file.grammarDir }
  | some .grammars => { draft with grammars := some file.grammars }
  | none => draft

theorem grammarDir_foldl_take (file : RegistryFile) (keys : List String) (draft : Draft) :
    (keys.foldl file.take draft).grammarDir =
      if "grammar_dir" ∈ keys then file.grammarDir else draft.grammarDir := by
  apply foldl_get (fun draft : Draft => draft.grammarDir)
  · exact fun _ => rfl
  · intro draft other different
    simp only [take]
    split
    · next found => exact absurd (Field.key_of_ofKey? found).symm different
    · rfl
    · rfl

theorem grammars_foldl_take (file : RegistryFile) (keys : List String) (draft : Draft) :
    (keys.foldl file.take draft).grammars = if "grammars" ∈ keys then some file.grammars else draft.grammars := by
  apply foldl_get (fun draft : Draft => draft.grammars)
  · exact fun _ => rfl
  · intro draft other different
    simp only [take]
    split
    · rfl
    · next found => exact absurd (Field.key_of_ofKey? found).symm different
    · rfl

theorem grammarList_list {specs : List GrammarSpec} {items : List Value}
    (written : List.Forall₂ GrammarSpec.Written specs items) (rest : List Token) :
    grammarList (.colon :: (valueTokens (.list items) ++ rest)) = .ok (specs, rest) := by
  have read := listOfTokens_itemTokens (written.imp fun _ _ => GrammarSpec.Written.readsAs) true rest
  rw [valueTokens_list, List.cons_append, List.append_assoc]
  exact read

theorem Written.gives_grammarDir (written : file.Written (.object members)) :
    Gives members "grammar_dir" file.grammarDir := by
  obtain ⟨_, grammarDir, _, _⟩ := written
  exact grammarDir

theorem Written.grammars_mem (written : file.Written (.object members)) : "grammars" ∈ keyTexts members := by
  obtain ⟨_, _, grammars, _⟩ := written
  refine List.mem_map.mpr ⟨_, grammars, ?_⟩
  exact keyText_units "grammars"

theorem Written.put (written : file.Written (.object members)) {member : List Nat × Value}
    (inside : member ∈ members) (draft : Draft) (rest : List Token) :
    Draft.put draft (keyText member.1) (.colon :: (valueTokens member.2 ++ rest)) =
      .ok (file.take draft (keyText member.1), rest) := by
  obtain ⟨keys, grammarDir, grammars, specs⟩ := written
  obtain ⟨key, value⟩ := member
  obtain ⟨text, listed, rfl⟩ := keys.known _ inside
  simp only [List.mem_cons, List.not_mem_nil, or_false] at listed
  rcases listed with rfl | rfl
  · rw [keyText_units, grammarDir.value_eq keys inside]
    show (optionalText _).map _ = _
    rw [optionalText_optionalValue]
    rfl
  · rw [keyText_units, keys.value_unique inside grammars]
    show (grammarList _).map _ = _
    rw [grammarList_list specs]
    rfl

theorem readable_items {specs : List GrammarSpec} {items : List Value}
    (written : List.Forall₂ GrammarSpec.Written specs items) : ∀ item ∈ items, ValueReadable item := by
  induction written with
  | nil => exact fun _ listed => nomatch listed
  | cons own _ ih => exact List.forall_mem_cons.mpr ⟨own.readable, ih⟩

theorem Written.readable {value : Value} (written : file.Written value) : ValueReadable value := by
  obtain ⟨keys, grammarDir, grammars, specs⟩ := written
  apply keys.readable
  intro key listed value inside
  simp only [List.mem_cons, List.not_mem_nil, or_false] at listed
  rcases listed with rfl | rfl
  · rw [grammarDir.value_eq keys inside]
    exact readable_optionalValue file.grammarDir
  · rw [keys.value_unique inside grammars]
    exact readable_list (readable_items specs)

theorem ofTokens_valueTokens {value : Value} (written : file.Written value) :
    ofTokens (valueTokens value) = .ok file := by
  cases value with
  | object members =>
    have grammarDir : ((keyTexts members).foldl file.take Draft.empty).grammarDir = file.grammarDir := by
      rw [grammarDir_foldl_take]
      split
      · rfl
      · next absent => exact (written.gives_grammarDir.eq_none absent).symm
    have grammars : ((keyTexts members).foldl file.take Draft.empty).grammars = some file.grammars := by
      rw [grammars_foldl_take, if_pos written.grammars_mem]
    have opened : next .value (valueTokens (.object members)) =
        .ok (.openObject, memberTokens true members ++ [.closeObject]) := by
      rw [valueTokens_object]
      rfl
    rw [ofTokens, opened]
    simp only [members_memberTokens (fun member inside => written.put inside), Draft.file, grammars, grammarDir]
  | _ => cases written

theorem ofText_of_denotes {text : String} {value : Value} (denotes : Denotes text value)
    (written : file.Written value) : ofText text = .ok file := by
  rw [ofText, tokens_of_lexed denotes written.readable]
  exact ofTokens_valueTokens written

end RegistryFile
end GrammarCheck
