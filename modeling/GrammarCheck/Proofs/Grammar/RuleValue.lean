import GrammarCheck.Proofs.Grammar.ObjectForm
import GrammarCheck.Proofs.Grammar.Refused
import GrammarCheck.Proofs.RegistryFile.Skipping

/-! What may be given as the value of a rule. Main statement: if a rule is read without a value, then with one
it is that rule with the text or the integer of 32 bits that is given, or with none for null, and whatever
else is given, minus zero included, makes it no rule and makes no grammar of what it stands in. -/
namespace GrammarCheck
open Json (Value Lexeme Denotes textOf? fill)
open RegistryFile (Spelled spelled_of_denotes)
open Text (units)

/-- The value that a rule is given: a text, an integer of 32 bits other than minus zero, or null for none. -/
inductive RuleValue.Given : Value → Option RuleValue → Prop
  | null : Given .null none
  | text (text : String) : Given (.ofText text) (some (.text text))
  | level {literal : List Char} {n : Int} {level : Int32} (integer : Json.Numeral.Integer literal n)
      (signed : literal ≠ ['-', '0']) (least : -2147483648 ≤ n) (most : n ≤ 2147483647) (same : level.toInt = n) :
      Given (.number literal) (some (.level level))

namespace RuleValue

theorem given_of_integer {literal spelling : List Char} (spelled : (Lexeme.number literal).Spelled spelling) {n : Int}
    (read : Json.Number.ofLiteral? literal = some (.integer n)) (least : -0x80000000 ≤ n) (most : n < 0x80000000) :
    Given (.number literal) (some (.level (Int32.ofInt n))) := by
  cases spelled with
  | number proper =>
    obtain ⟨integer, signed⟩ := Json.Numeral.integer_of_ofLiteral? proper read
    exact .level integer signed least (Int.le_of_lt_add_one most) (Int32.toInt_ofInt_of_le least most)

theorem given_of_ofValue? {value : Value} (spelled : Spelled value) {meaning : Option RuleValue}
    (read : ofValue? value = some meaning) : Given value meaning := by
  cases value with
  | null =>
    cases read
    exact .null
  | boolean => contradiction
  | list => simp [ofValue?] at read
  | object => simp [ofValue?] at read
  | string written =>
    obtain ⟨spelling, spelled⟩ := spelled (.string written) (.head _)
    rw [ofValue?, Value.scalar?_string] at read
    cases found : textOf? written with
    | none => simp [found] at read
    | some text =>
      obtain rfl : some (RuleValue.text text) = meaning := by simpa [found] using read
      obtain rfl := (Json.textOf?_eq_some spelled).mp found
      exact .text text
  | number literal =>
    obtain ⟨spelling, spelled⟩ := spelled (.number literal) (.head _)
    rw [ofValue?, Value.scalar?_number] at read
    cases found : Json.Number.ofLiteral? literal with
    | none => simp [found] at read
    | some number =>
      cases number with
      | decimal => simp [found] at read
      | integer n =>
        simp only [found, Option.map_some, Option.ite_none_right_eq_some, Option.some.injEq] at read
        obtain ⟨⟨least, most⟩, rfl⟩ := read
        exact given_of_integer spelled found least most

theorem ofValue?_of_given {value : Value} {meaning : Option RuleValue} (given : Given value meaning) :
    ofValue? value = some meaning := by
  cases given with
  | null => rfl
  | text text => simp [ofValue?, Value.ofText]
  | @level literal n level integer signed least most same =>
    have limit : Json.Numeral.wordLimit = 0x10000000000000000 := rfl
    have read := Json.Numeral.ofLiteral?_integer integer signed (by omega) (by omega)
    subst same
    rw [ofValue?, Value.scalar?_number, read]
    simp only [Option.map_some]
    rw [if_pos ⟨least, Int.lt_add_one_of_le most⟩, Int32.ofInt_toInt]

end RuleValue

namespace Rule

theorem toOption_ofText {text : String} {value : Value} (denotes : Denotes text value) :
    (ofText text).toOption = ofValue? Json.depthLimit value :=
  Json.Document.toOption_read denotes fun node => readsAt Json.depthLimit node value

theorem ofParts?_update (parts : (field : Field) → Option field.Slot) (meaning : Option RuleValue) :
    ofParts? (Function.update parts .value (some meaning)) =
      (ofParts? parts).map fun rule => { rule with value := meaning } := by
  rw [ofParts?, ofParts?, Option.map_map]
  rfl

theorem ofValue?_object {members : List (List Nat × Value)}
    (texts : ∀ member ∈ members, (textOf? member.1).isSome = true) (depth : Nat) :
    ofValue? (depth + 1) (.object members) =
      (fill (field? depth (ofValue? depth) (listOfValue? depth)) (fun _ => none)
        (Json.fieldsOf Field.ofKey? members)).bind ofParts? := by
  have known : Json.knownMembers Field.ofKey? members = some (Json.fieldsOf Field.ofKey? members) :=
    Json.knownMembers_eq_some.mpr ⟨texts, rfl⟩
  rw [ofValue?, ofFields?, Value.fields?, known, Option.bind_some]

/-- No other field depends on the value of a rule. -/
theorem ofValue?_insert {front back : List (List Nat × Value)} {depth : Nat} {rule : Rule}
    (absent : ∀ member ∈ front ++ back, textOf? member.1 ≠ some Field.value.key)
    (valid : ofValue? depth (.object (front ++ back)) = some rule) (value : Value) :
    ofValue? depth (.object (front ++ (units Field.value.key.toList, value) :: back)) =
      (RuleValue.ofValue? value).map fun meaning => { rule with value := meaning } := by
  cases depth with
  | zero => exact nomatch valid
  | succ depth =>
    have texts : ∀ member ∈ front ++ back, (textOf? member.1).isSome = true := by
      obtain ⟨known, listed, _⟩ := Option.bind_eq_some_iff.mp valid
      exact (Json.knownMembers_eq_some.mp listed).1
    have own : (textOf? (units Field.value.key.toList)).isSome = true := by rw [Json.textOf?_units, Option.isSome_some]
    have textsToo : ∀ member ∈ front ++ (units Field.value.key.toList, value) :: back,
        (textOf? member.1).isSome = true := by
      obtain ⟨first, last⟩ := List.forall_mem_append.mp texts
      exact List.forall_mem_append.mpr ⟨first, List.forall_mem_cons.mpr ⟨own, last⟩⟩
    have free := Json.not_mem_fieldsOf Field.ofKey?_eq_some absent
    rw [ofValue?_object texts] at valid
    rw [Json.fieldsOf_append] at free valid
    obtain ⟨parts, filled, made⟩ := Option.bind_eq_some_iff.mp valid
    have empty : (fun _ => none : (field : Field) → Option field.Slot) .value = none := rfl
    rw [ofValue?_object textsToo, Json.fieldsOf_insert Field.ofKey?_eq_some, Json.fill_insert empty free value, filled,
      Option.bind_some]
    show ((RuleValue.ofValue? value).map _).bind ofParts? = _
    cases RuleValue.ofValue? value with
    | none => rfl
    | some meaning =>
      rw [Option.map_some, Option.bind_some, ofParts?_update, made]
      rfl

/-- An object with a value for the rule put somewhere among its members. -/
def withValue (front : List (List Nat × Value)) (value : Value) (back : List (List Nat × Value)) : Value :=
  .object (front ++ (units "value".toList, value) :: back)

section
variable {front back : List (List Nat × Value)}

theorem unnamed_of_spelled (absent : units "value".toList ∉ (front ++ back).map Prod.fst)
    (spelled : Spelled (.object (front ++ back))) : ∀ member ∈ front ++ back, textOf? member.1 ≠ some "value" := by
  intro member inside text
  obtain ⟨spelling, named⟩ := spelled.key inside
  rw [← (Json.textOf?_eq_some named).mp text] at absent
  exact absent (List.mem_map_of_mem inside)

theorem refused_withValue {value : Value} (nothing : RuleValue.ofValue? value = none) :
    Grammar.Refused .rule (withValue front value back) := by
  have inside : (units Field.value.key.toList, value) ∈ front ++ (units Field.value.key.toList, value) :: back := by
    simp
  have field (depth : Nat) : field? depth (ofValue? depth) (listOfValue? depth) .value value = none := nothing
  have named : (textOf? (units Field.value.key.toList)).bind Field.ofKey? = some Field.value :=
    Json.fieldOf?_units Field.ofKey?_eq_some .value
  exact ⟨by simp [withValue], ofValue?_eq_none field fun _ => Json.mem_fields?_of_member inside named⟩

/-- A rule that is read without a value, and the same with one. -/
theorem ofText_withValue {value : Value} {bare text : String} {rule : Rule}
    (absent : units "value".toList ∉ (front ++ back).map Prod.fst)
    (without : Denotes bare (.object (front ++ back))) (valid : ofText bare = .ok rule)
    (denotes : Denotes text (withValue front value back)) :
    (∀ meaning, RuleValue.Given value meaning → ofText text = .ok { rule with value := meaning }) ∧
      ((¬ ∃ meaning, RuleValue.Given value meaning) → (∃ fault, ofText text = .error fault) ∧
        ∀ definition whole, Denotes definition whole →
          Grammar.Holds .grammar whole .rule (withValue front value back) →
          ∃ fault, Grammar.ofText definition = .error (.malformed definition fault)) := by
  constructor
  · intro meaning given
    have meant : ofValue? Json.depthLimit (.object (front ++ back)) = some rule :=
      (toOption_ofText without).symm.trans (Json.toOption_eq_some.mpr valid)
    have inserted := ofValue?_insert (unnamed_of_spelled absent (spelled_of_denotes without)) meant value
    rw [RuleValue.ofValue?_of_given given] at inserted
    exact Json.toOption_eq_some.mp ((toOption_ofText denotes).trans inserted)
  · intro meaningless
    have nothing : RuleValue.ofValue? value = none := by
      refine Option.eq_none_iff_forall_ne_some.mpr fun meaning read => meaningless ⟨meaning, ?_⟩
      have spelled : Spelled value := (spelled_of_denotes denotes).member (List.mem_append_right _ (.head _))
      exact RuleValue.given_of_ofValue? spelled read
    have refused : Grammar.Refused .rule (withValue front value back) := refused_withValue nothing
    refine ⟨Json.toOption_eq_none.mp ?_, fun definition whole denotes holds => ?_⟩
    · rw [toOption_ofText denotes]
      exact refused.2 Json.depthLimit
    · exact Grammar.malformed_of_denotes denotes ((Grammar.refused_of_holds holds refused).2 Json.depthLimit)

end

/-- A precedence that has no level. -/
def unleveled : Rule :=
  ⟨.prec, none, none, some ⟨.blank, none, none, none, [], none, none, none⟩, [], none, none, none⟩

def kindMember : List Nat × Value := (units "type".toList, .ofText "PREC")

def contentMember : List Nat × Value := (units "content".toList, .ofMembers [("type", .ofText "BLANK")])

/-- The same in JSON, with a level among its members. -/
def leveled (literal : List Char) : Value := withValue [kindMember] (.number literal) [contentMember]

theorem denotes_unleveled : Denotes unleveled.objectForm.written (.object ([kindMember] ++ [contentMember])) :=
  Value.denotes_written unleveled.plain_objectForm.writable

theorem ofText_unleveled : ofText unleveled.objectForm.written = .ok unleveled := by
  have read : ofValue? Json.depthLimit unleveled.objectForm = some unleveled := by
    rw [recovers_objectForm, if_pos (by decide +kernel)]
  exact Json.toOption_eq_some.mp ((toOption_ofText denotes_unleveled).trans read)

theorem writable_leveled {literal : List Char} (number : (Value.number literal).Writable) :
    (leveled literal).Writable := by
  have blank : (Value.ofMembers [("type", .ofText "BLANK")]).Plain :=
    .members (List.nodup_singleton _) (List.forall_mem_singleton.mpr (.text _))
  have prec : (Value.ofText "PREC").Plain := .text _
  refine Value.writable_object (List.forall_mem_cons.mpr ⟨⟨⟨_, rfl⟩, prec.writable⟩, ?_⟩)
  exact List.forall_mem_cons.mpr ⟨⟨⟨_, rfl⟩, number⟩, List.forall_mem_singleton.mpr ⟨⟨_, rfl⟩, blank.writable⟩⟩

/-- A grammar of one rule, which has a level. -/
def leveledGrammar (literal : List Char) : Value :=
  .object [(units "name".toList, .ofText "g"), (units "rules".toList, .object [(units "a".toList, leveled literal)])]

theorem writable_leveledGrammar {literal : List Char} (number : (Value.number literal).Writable) :
    (leveledGrammar literal).Writable := by
  have name : (Value.ofText "g").Plain := .text _
  have rules : (Value.object [(units "a".toList, leveled literal)]).Writable :=
    Value.writable_object (List.forall_mem_singleton.mpr ⟨⟨_, rfl⟩, writable_leveled number⟩)
  refine Value.writable_object (List.forall_mem_cons.mpr ⟨⟨⟨_, rfl⟩, name.writable⟩, ?_⟩)
  exact List.forall_mem_singleton.mpr ⟨⟨_, rfl⟩, rules⟩

theorem holds_leveledGrammar (literal : List Char) :
    Grammar.Holds .grammar (leveledGrammar literal) .rule (leveled literal) := by
  have rules : Grammar.format.member .grammar (units "rules".toList) = .rules := Grammar.format_grammar.member .rules
  have inside : Grammar.Holds .rules (.object [(units "a".toList, leveled literal)]) .rule (leveled literal) :=
    .member (.head _) (.here .rule _)
  exact .member (.tail _ (.head _)) (rules ▸ inside)

/-- The least level there is, and one more than the greatest. -/
theorem ofText_withValue_extreme :
    ofText (leveled (Json.decimalDigits (-2147483648))).written =
      .ok { unleveled with value := some (.level (-2147483648)) } ∧
    (∃ fault, ofText (leveled (Json.decimalDigits 2147483648)).written = .error fault) ∧
    ∃ fault, Grammar.ofText (leveledGrammar (Json.decimalDigits 2147483648)).written =
      .error (.malformed (leveledGrammar (Json.decimalDigits 2147483648)).written fault) := by
  have absent : units "value".toList ∉ ([kindMember] ++ [contentMember]).map Prod.fst := by decide
  have number (n : Int) : (Value.number (Json.decimalDigits n)).Writable := (Value.Plain.integer n).writable
  have denotes (n : Int) := Value.denotes_written (writable_leveled (number n))
  have given := RuleValue.Given.level (Json.Numeral.integer_decimalDigits (-2147483648))
    (Json.Numeral.decimalDigits_ne_minusZero _) (by decide) (by decide) (show (-2147483648 : Int32).toInt = _ by decide)
  have meaningless : ¬ ∃ meaning, RuleValue.Given (.number (Json.decimalDigits 2147483648)) meaning := by
    have nothing : RuleValue.ofValue? (.number (Json.decimalDigits 2147483648)) = none := by decide +kernel
    rintro ⟨meaning, given⟩
    cases nothing.symm.trans (RuleValue.ofValue?_of_given given)
  have tooLarge := ofText_withValue absent denotes_unleveled ofText_unleveled (denotes 2147483648)
  obtain ⟨refused, everywhere⟩ := tooLarge.2 meaningless
  refine ⟨(ofText_withValue absent denotes_unleveled ofText_unleveled (denotes _)).1 _ given, refused, ?_⟩
  exact everywhere _ _ (Value.denotes_written (writable_leveledGrammar (number _))) (holds_leveledGrammar _)

/-- Minus zero is an integer of 32 bits, but not one that is read. -/
theorem ofText_minusZero : Json.Numeral.Integer ['-', '0'] 0 ∧
    Denotes unleveled.objectForm.written (.object ([kindMember] ++ [contentMember])) ∧
    ofText unleveled.objectForm.written = .ok unleveled ∧
    Denotes (leveled ['-', '0']).written (withValue [kindMember] (.number ['-', '0']) [contentMember]) ∧
    ∃ fault, ofText (leveled ['-', '0']).written = .error fault := by
  have proper : Json.Numeral.Proper ['-'] ['0'] [] [] :=
    ⟨.inr rfl, Json.Numeral.digits_toDigits 0, fun _ => rfl, .inl rfl, .inl rfl⟩
  have number : (Value.number ['-', '0']).Writable := List.forall_mem_singleton.mpr ⟨_, _, _, _, proper, rfl⟩
  have denotes := Value.denotes_written (writable_leveled number)
  refine ⟨.minus proper, denotes_unleveled, ofText_unleveled, denotes, Json.toOption_eq_none.mp ?_⟩
  rw [toOption_ofText denotes]
  exact (refused_withValue rfl).2 Json.depthLimit

end Rule
end GrammarCheck
