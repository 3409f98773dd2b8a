import GrammarCheck.Proofs.Json.Record
import Mathlib.Data.List.Nodup

/-! Writing JSON without blanks, as few characters escaped as can be, and what readers recover of it. Main
statements: what is written of a value is a JSON text of it, if its strings are texts and its numbers
proper, and lists and records of what a reader recovers are recovered, as far down as the reader goes. -/
namespace GrammarCheck.Json
open Text (units)

def escape (c : Char) : List Char :=
  if c = '"' ∨ c = '\\' then ['\\', c]
  else if c < ' ' then ['\\', 'u', '0', '0', Nat.digitChar (c.toNat / 16), Nat.digitChar (c.toNat % 16)]
  else [c]

theorem hexDigit_digitChar (value : Nat) (small : value < 16) : HexDigit (Nat.digitChar value) value := by
  have digits : ∀ value : Fin 10, '0' ≤ Nat.digitChar value ∧ Nat.digitChar value ≤ '9' ∧
      (Nat.digitChar value).toNat - '0'.toNat = value := by decide
  have letters : ∀ value : Fin 6, 'a' ≤ Nat.digitChar (10 + value) ∧ Nat.digitChar (10 + value) ≤ 'f' ∧
      10 + ((Nat.digitChar (10 + value)).toNat - 'a'.toNat) = 10 + value := by decide
  by_cases decimal : value < 10
  · obtain ⟨first, last, same⟩ := digits ⟨value, decimal⟩
    have digit := HexDigit.digit first last
    rwa [same] at digit
  · obtain ⟨more, rfl⟩ := Nat.exists_eq_add_of_le (Nat.le_of_not_lt decimal)
    obtain ⟨first, last, same⟩ := letters ⟨more, by omega⟩
    have digit := HexDigit.small first last
    rwa [same] at digit

theorem spells_control {c : Char} (control : c < ' ') {body : List Char} {units : List Nat} (more : Spells body units) :
    Spells ('\\' :: 'u' :: '0' :: '0' :: Nat.digitChar (c.toNat / 16) :: Nat.digitChar (c.toNat % 16) :: body)
      (Text.charUnits c ++ units) := by
  have below : c.toNat < 32 := control
  have zero : HexDigit '0' 0 := hexDigit_digitChar 0 (by decide)
  have spelled := Spells.unit zero zero (hexDigit_digitChar (c.toNat / 16) (by omega))
    (hexDigit_digitChar (c.toNat % 16) (by omega)) more
  have code : 0x1000 * 0 + 0x100 * 0 + 0x10 * (c.toNat / 16) + c.toNat % 16 = c.toNat := by omega
  have single : Text.charUnits c = [c.toNat] := if_pos (by omega)
  rw [code] at spelled
  rwa [single]

theorem spells_escape (text : List Char) : Spells (text.flatMap escape) (units text) := by
  induction text with
  | nil => exact .nil
  | cons c text ih =>
    rw [List.flatMap_cons, Text.units_cons, escape]
    split
    · next mark =>
      refine .escape ?_ ih
      rcases mark with rfl | rfl <;> decide
    · next plain =>
      split
      · next control => exact spells_control control ih
      · next printable => exact .plain (Char.not_lt.mp printable) (plain ∘ .inl) (plain ∘ .inr) ih

def Lexeme.spelling : Lexeme → List Char
  | .openObject => ['{']
  | .closeObject => ['}']
  | .openList => ['[']
  | .closeList => [']']
  | .colon => [':']
  | .comma => [',']
  | .null => ['n', 'u', 'l', 'l']
  | .boolean true => ['t', 'r', 'u', 'e']
  | .boolean false => ['f', 'a', 'l', 's', 'e']
  | .number literal => literal
  | .string units => '"' :: (((Text.ofUnits? units).getD []).flatMap escape ++ ['"'])

/-- A string that is a text, a number that is proper, or any other lexeme. -/
def Lexeme.Writable : Lexeme → Prop
  | .number literal => ∃ sign whole fraction exponent, Numeral.Proper sign whole fraction exponent ∧
    literal = sign ++ whole ++ fraction ++ exponent
  | .string units => ∃ text, units = Text.units text
  | _ => True

theorem Lexeme.spelled_spelling {lexeme : Lexeme} (writable : lexeme.Writable) : lexeme.Spelled lexeme.spelling := by
  cases lexeme with
  | number literal =>
    obtain ⟨sign, whole, fraction, exponent, proper, rfl⟩ := writable
    exact .number proper
  | string units =>
    obtain ⟨text, rfl⟩ := writable
    rw [spelling, Text.ofUnits?_units]
    exact .string (spells_escape text)
  | boolean value => cases value <;> constructor
  | _ => constructor

theorem lexed_spelling {lexemes : List Lexeme} (writable : ∀ lexeme ∈ lexemes, lexeme.Writable) :
    Lexed (lexemes.flatMap Lexeme.spelling) lexemes := by
  induction lexemes with
  | nil => exact .nil
  | cons lexeme lexemes ih =>
    obtain ⟨own, others⟩ := List.forall_mem_cons.mp writable
    exact .cons (Lexeme.spelled_spelling own) (ih others)

theorem lexed_append {first second : List Char} {lexemes more : List Lexeme} (one : Lexed first lexemes)
    (other : Lexed second more) : Lexed (first ++ second) (lexemes ++ more) := by
  induction one with
  | nil => exact other
  | blank blank _ ih => exact .blank blank ih
  | cons spelled _ ih =>
    rw [List.append_assoc]
    exact .cons spelled ih

namespace Value

def Writable (value : Value) : Prop := ∀ lexeme ∈ value.lexemes, lexeme.Writable

theorem writable_list {items : List Value} (each : ∀ item ∈ items, item.Writable) : (list items).Writable := by
  have inside (first : Bool) : ∀ lexeme ∈ itemLexemes first items, lexeme.Writable := by
    induction items generalizing first with
    | nil => exact fun _ absent => absurd absent List.not_mem_nil
    | cons item items ih =>
      obtain ⟨own, others⟩ := List.forall_mem_cons.mp each
      intro lexeme listed
      rw [itemLexemes, List.mem_append, List.mem_append] at listed
      rcases listed with comma | here | later
      · cases first with
        | true => exact absurd comma List.not_mem_nil
        | false => cases List.mem_singleton.mp comma; trivial
      · exact own lexeme here
      · exact ih others false lexeme later
  intro lexeme listed
  rw [lexemes, List.mem_cons, List.mem_append, List.mem_singleton] at listed
  rcases listed with rfl | listed | rfl
  · trivial
  · exact inside true lexeme listed
  · trivial

theorem writable_object {members : List (List Nat × Value)}
    (each : ∀ member ∈ members, (∃ text, member.1 = units text) ∧ member.2.Writable) : (object members).Writable := by
  have inside (first : Bool) : ∀ lexeme ∈ memberLexemes first members, lexeme.Writable := by
    induction members generalizing first with
    | nil => exact fun _ absent => absurd absent List.not_mem_nil
    | cons member members ih =>
      obtain ⟨⟨key, own⟩, others⟩ := List.forall_mem_cons.mp each
      intro lexeme listed
      rw [memberLexemes, List.mem_append, List.mem_cons, List.mem_cons, List.mem_append] at listed
      rcases listed with comma | rfl | rfl | here | later
      · cases first with
        | true => exact absurd comma List.not_mem_nil
        | false => cases List.mem_singleton.mp comma; trivial
      · exact key
      · trivial
      · exact own lexeme here
      · exact ih others false lexeme later
  intro lexeme listed
  rw [lexemes, List.mem_cons, List.mem_append, List.mem_singleton] at listed
  rcases listed with rfl | listed | rfl
  · trivial
  · exact inside true lexeme listed
  · trivial

/-- The text of a value without blanks. -/
def written (value : Value) : String := String.ofList (value.lexemes.flatMap Lexeme.spelling)

theorem denotes_written {value : Value} (writable : value.Writable) : Denotes value.written value := by
  rw [Denotes, written, String.toList_ofList]
  exact lexed_spelling writable

/-- The object of what is given for each field. -/
def record {φ : Type} (keyOf : φ → String) (all : List φ) (given : φ → Option Value) : Value :=
  ofMembers (all.filterMap fun field => (given field).map fun value => (keyOf field, value))

/-- Made of texts, integers and the like, with a text for each key and no key twice. -/
inductive Plain : Value → Prop
  | null : Plain .null
  | boolean (value : Bool) : Plain (.boolean value)
  | integer (value : Int) : Plain (.number (decimalDigits value))
  | text (text : String) : Plain (.ofText text)
  | list {items : List Value} (each : ∀ item ∈ items, Plain item) : Plain (.list items)
  | members {members : List (String × Value)} (once : (members.map Prod.fst).Nodup)
      (each : ∀ member ∈ members, Plain member.2) : Plain (.ofMembers members)

theorem Plain.proper {value : Value} (plain : value.Plain) : value.Proper := by
  induction plain with
  | null => exact .scalar rfl
  | boolean => exact .scalar rfl
  | integer => exact .scalar rfl
  | text => exact .scalar rfl
  | list _ ih => exact .list ih
  | members once _ ih => exact proper_ofMembers once ih

theorem Plain.writable {value : Value} (plain : value.Plain) : value.Writable := by
  have single {value : Value} {lexeme : Lexeme} (same : value.lexemes = [lexeme]) (own : lexeme.Writable) :
      value.Writable := by
    intro other listed
    rw [same, List.mem_singleton] at listed
    exact listed ▸ own
  induction plain with
  | null => exact single rfl trivial
  | boolean => exact single rfl trivial
  | integer value =>
    exact single rfl ⟨_, _, [], [], Numeral.proper_decimalDigits value, by rw [List.append_nil, List.append_nil]; rfl⟩
  | text text => exact single rfl ⟨text.toList, rfl⟩
  | list _ ih => exact writable_list ih
  | members _ _ ih =>
    refine writable_object fun member inside => ?_
    obtain ⟨named, listed, rfl⟩ := List.mem_map.mp inside
    exact ⟨⟨named.1.toList, rfl⟩, ih named listed⟩

end Value

/-- The reader finds what the value was made of, if it may go down far enough, and nothing otherwise. -/
def Recovers {α : Type} (read : Nat → Value → Option α) (form : α → Value) (x : α) : Prop :=
  ∀ depth, read depth (form x) = if (form x).nesting ≤ depth then some x else none

theorem recovers_ofText (text : String) : Recovers (fun _ => Value.text?) Value.ofText text :=
  fun depth => (Value.text?_ofText text).trans (if_pos (Nat.zero_le depth)).symm

theorem recovers_boolean (value : Bool) : Recovers (fun _ => Value.boolean?) Value.boolean value :=
  fun depth => (if_pos (Nat.zero_le depth)).symm

section
variable {α : Type} {read : Nat → Value → Option α} {form : α → Value}

theorem mapM_form {items : List α} {depth : Nat} (each : ∀ x ∈ items, Recovers read form x) :
    (items.map form).mapM (read depth) =
      if Value.nestingOfItems (items.map form) ≤ depth then some items else none := by
  induction items with
  | nil => rfl
  | cons item items ih =>
    obtain ⟨own, others⟩ := List.forall_mem_cons.mp each
    rw [List.map_cons, List.mapM_cons, own, ih others, Value.nestingOfItems]
    by_cases here : (form item).nesting ≤ depth
    · by_cases rest : Value.nestingOfItems (items.map form) ≤ depth
      · rw [if_pos here, if_pos rest, if_pos (Nat.max_le.mpr ⟨here, rest⟩)]
        rfl
      · rw [if_pos here, if_neg rest, if_neg fun both => rest (Nat.max_le.mp both).2]
        rfl
    · rw [if_neg here, if_neg fun both => here (Nat.max_le.mp both).1]
      rfl

theorem recovers_list {items : List α} (each : ∀ x ∈ items, Recovers read form x) :
    Recovers (Value.items? read) (fun items => .list (items.map form)) items := by
  intro depth
  cases depth with
  | zero => rfl
  | succ depth =>
    rw [Value.items?, mapM_form each, Value.nesting]
    simp only [Nat.add_le_add_iff_right]

theorem recovers_optional {given : Option α} (each : ∀ x ∈ given, Recovers read form x) (present : ∀ x, form x ≠ .null)
    (depth : Nat) {value : Value} (same : given.map form = some value) : (given.map some).isSome = true ∧
      value.optional? (read depth) = if value.nesting ≤ depth then given.map some else none := by
  obtain ⟨x, rfl, rfl⟩ := Option.map_eq_some_iff.mp same
  have read := each x rfl depth
  refine ⟨rfl, ?_⟩
  rw [Value.optional?, read]
  · split <;> rfl
  · exact present x

end

section
variable {φ : Type} {Slot : φ → Type} {ofKey? : String → Option φ} {keyOf : φ → String}
  {read : (field : φ) → Value → Option (Slot field)} {all : List φ} {given : φ → Option Value}

theorem mem_record {name : String} {value : Value} :
    (name, value) ∈ (all.filterMap fun field => (given field).map fun value => (keyOf field, value)) ↔
      ∃ field ∈ all, given field = some value ∧ keyOf field = name := by
  simp

theorem key_inj (exact : ∀ key field, ofKey? key = some field ↔ key = keyOf field) {field other : φ}
    (same : keyOf field = keyOf other) : field = other :=
  Option.some.inj (((exact _ field).mpr rfl).symm.trans ((exact _ other).mpr same))

theorem nodup_record (exact : ∀ key field, ofKey? key = some field ↔ key = keyOf field) (once : all.Nodup)
    (given : φ → Option Value) :
    ((all.filterMap fun field => (given field).map fun value => (keyOf field, value)).map Prod.fst).Nodup := by
  rw [List.map_filterMap]
  refine List.Nodup.filterMap (fun field other key first second => ?_) once
  simp only [Option.map_map, Option.mem_def, Option.map_eq_some_iff] at first second
  obtain ⟨_, _, rfl⟩ := first
  obtain ⟨_, _, same⟩ := second
  exact key_inj exact same.symm

theorem plain_record (exact : ∀ key field, ofKey? key = some field ↔ key = keyOf field) (once : all.Nodup)
    (each : ∀ field value, given field = some value → value.Plain) : (Value.record keyOf all given).Plain := by
  refine .members (nodup_record exact once given) fun ⟨name, value⟩ inside => ?_
  obtain ⟨field, _, here, _⟩ := mem_record.mp inside
  exact each field value here

theorem nesting_record (complete : ∀ field, field ∈ all) {depth : Nat} :
    (Value.record keyOf all given).nesting ≤ depth + 1 ↔
      ∀ field value, given field = some value → value.nesting ≤ depth := by
  rw [Value.record, Value.nesting_ofMembers]
  constructor
  · exact fun below field value here => below _ (mem_record.mpr ⟨field, complete field, here, rfl⟩)
  · rintro below ⟨name, value⟩ inside
    obtain ⟨field, _, here, _⟩ := mem_record.mp inside
    exact below field value here

theorem known_record (exact : ∀ key field, ofKey? key = some field ↔ key = keyOf field) (once : all.Nodup)
    (complete : ∀ field, field ∈ all) (given : φ → Option Value) : ∃ known,
      (Value.record keyOf all given).fields? ofKey? all = some known ∧ (known.map Prod.fst).Nodup ∧
      ∀ field value, (field, value) ∈ known ↔ given field = some value := by
  obtain ⟨known, found, distinct, listed⟩ :=
    knownMembers_of_texts exact (Value.texts_keyed _) (Value.nodup_keyed (nodup_record exact once given))
  refine ⟨known, found, distinct, fun field value => ?_⟩
  rw [listed, Value.mem_keyed, mem_record]
  constructor
  · rintro ⟨other, _, here, same⟩
    exact key_inj exact same ▸ here
  · exact fun here => ⟨field, complete field, here, rfl⟩

theorem record_reads [DecidableEq φ] {parts : (field : φ) → Option (Slot field)} {depth : Nat}
    (exact : ∀ key field, ofKey? key = some field ↔ key = keyOf field) (once : all.Nodup)
    (complete : ∀ field, field ∈ all)
    (reads : ∀ field value, given field = some value →
      (parts field).isSome = true ∧ read field value = if value.nesting ≤ depth then parts field else none)
    (absent : ∀ field, given field = none → parts field = none) :
    ((Value.record keyOf all given).fields? ofKey? all).bind (fill read fun _ => none) =
      if (Value.record keyOf all given).nesting ≤ depth + 1 then some parts else none := by
  obtain ⟨known, bound, distinct, same⟩ := known_record exact once complete given
  rw [bound, Option.bind_some]
  split
  · next fits =>
    rw [nesting_record complete] at fits
    refine fill_eq_some.mpr ⟨distinct, fun _ _ => rfl, fun ⟨field, value⟩ inside => ?_, fun field outside => ?_⟩
    · have here := (same field value).mp inside
      obtain ⟨readable, own⟩ := reads field value here
      rw [if_pos (fits field value here)] at own
      exact ⟨own ▸ readable, own.symm⟩
    · refine absent field (Option.eq_none_iff_forall_ne_some.mpr fun value here => outside ?_)
      exact List.mem_map.mpr ⟨(field, value), (same field value).mpr here, rfl⟩
  · next deep =>
    rw [nesting_record complete] at deep
    refine Option.eq_none_iff_forall_ne_some.mpr fun filled done => deep fun field value here => ?_
    obtain ⟨readable, _⟩ := (fill_eq_some.mp done).given _ ((same field value).mpr here)
    rw [(reads field value here).2] at readable
    by_contra above
    rw [if_neg above] at readable
    contradiction

end
end GrammarCheck.Json
