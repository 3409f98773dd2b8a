import GrammarCheck.Proofs.Grammar.Meaning
import GrammarCheck.Proofs.Grammar.Symbols
import GrammarCheck.Proofs.Json.Alike
import GrammarCheck.Proofs.Json.Written

/-! What of a grammar definition counts: the known members of the grammar and of its rules, in any order.
Main statement: two texts that agree in what counts give the same grammar, or are refused for the same
reason. -/
namespace GrammarCheck
open Json (Value Denotes Format textOf? fill)
open Text (units)

namespace Grammar

/-- What a value in a grammar definition is looked at for. All that is in a `whole` counts. -/
inductive Role where
  | grammar
  | rules
  | rule
  | ruleList
  | whole

end Grammar

open Grammar (Role)

def Grammar.Field.role : Grammar.Field → Role
  | .rules => .rules
  | .extras => .ruleList
  | .externals => .ruleList
  | _ => .whole

def Rule.Field.role : Rule.Field → Role
  | .content => .rule
  | .members => .ruleList
  | _ => .whole

theorem Grammar.Field.ofKey?_eq_some (key : String) (field : Grammar.Field) :
    ofKey? key = some field ↔ key = field.key := by
  constructor
  · intro found
    rw [ofKey?] at found
    have same := List.find?_some found
    exact (eq_of_beq same).symm
  · rintro rfl
    cases field <;> decide

theorem Rule.Field.ofKey?_eq_some (key : String) (field : Rule.Field) : ofKey? key = some field ↔ key = field.key := by
  constructor
  · intro found
    rw [ofKey?] at found
    have same := List.find?_some found
    exact (eq_of_beq same).symm
  · rintro rfl
    cases field <;> decide

namespace Grammar

def format : Format Role where
  counts
    | .grammar, key => (Json.fieldOf? Grammar.Field.ofKey? key).isSome
    | .rule, key => (Json.fieldOf? Rule.Field.ofKey? key).isSome
    | _, _ => true
  member
    | .grammar, key => ((Json.fieldOf? Grammar.Field.ofKey? key).map Grammar.Field.role).getD .whole
    | .rules, _ => .rule
    | .rule, key => ((Json.fieldOf? Rule.Field.ofKey? key).map Rule.Field.role).getD .whole
    | _, _ => .whole
  item
    | .grammar, i => (Grammar.Field.all[i]?.map Grammar.Field.role).getD .whole
    | .rule, i => (Rule.Field.all[i]?.map Rule.Field.role).getD .whole
    | .ruleList, _ => .rule
    | _, _ => .whole

theorem format_whole : format.Whole .whole := ⟨fun _ => rfl, fun _ => rfl, fun _ => rfl⟩

theorem format_grammar : format.Fields .grammar Grammar.Field.key Grammar.Field.all Grammar.Field.role where
  counts := by simp [format, Json.fieldOf?_units Grammar.Field.ofKey?_eq_some]
  member := by simp [format, Json.fieldOf?_units Grammar.Field.ofKey?_eq_some]
  item := fun i field here => by simp [format, here]

theorem format_rule : format.Fields .rule Rule.Field.key Rule.Field.all Rule.Field.role where
  counts := by simp [format, Json.fieldOf?_units Rule.Field.ofKey?_eq_some]
  member := by simp [format, Json.fieldOf?_units Rule.Field.ofKey?_eq_some]
  item := fun i field here => by simp [format, here]

end Grammar

section
variable {value other : Value} {role : Role}

theorem RuleValue.ofValue?_alike (alike : Grammar.format.Alike role value other) :
    RuleValue.ofValue? value = RuleValue.ofValue? other := by
  rw [RuleValue.ofValue?, RuleValue.ofValue?, alike.scalar?_eq]

/-- An object that is like a single member with null is that member. -/
theorem eq_single {key : List Nat} {members : List (List Nat × Value)}
    (alike : Grammar.format.Alike .whole (.object [(key, .null)]) (.object members))
    (once : (members.map Prod.fst).Nodup) : members = [(key, .null)] := by
  cases alike with
  | scalar single => simp [Value.lexemes] at single
  | object keys each =>
    have listed : [key].Perm (members.map Prod.fst) :=
      (List.perm_ext_iff_of_nodup (List.nodup_singleton key) once).mpr fun other => by simpa using keys other rfl
    obtain ⟨⟨name, value⟩, rfl, rfl⟩ := List.map_eq_singleton_iff.mp (List.singleton_perm.mp listed).symm
    have null := each name .null value rfl (.head _) (.head _)
    cases null
    rfl

theorem RuleKind.ofValue?_alike (alike : Grammar.format.Alike .whole value other) (proper : value.Proper)
    (also : other.Proper) (depth : Nat) : RuleKind.ofValue? depth value = RuleKind.ofValue? depth other := by
  have apart {members : List (List Nat × Value)} (several : ∀ key, members ≠ [(key, .null)]) :
      RuleKind.ofValue? depth (.object members) = none := by
    rw [RuleKind.ofValue?]
    · intros
      contradiction
    · rintro _ key _ ⟨⟩
      exact several key rfl
  cases alike with
  | scalar => rfl
  | list => rfl
  | @object _ members others keys each =>
    by_cases single : ∃ key, members = [(key, .null)]
    · obtain ⟨key, rfl⟩ := single
      rw [eq_single (.object keys each) also.members.2.1]
    · rw [apart fun key same => single ⟨key, same⟩, apart]
      intro key same
      subst same
      exact single ⟨key, eq_single (Format.Alike.symm (.object keys each)) proper.members.2.1⟩

end

namespace Rule

/-- Alike rules are read alike, at one depth. -/
def AlikeAt (depth : Nat) : Prop :=
  ∀ value other : Value, value.Proper → other.Proper → Grammar.format.Alike .rule value other →
    ofValue? depth value = ofValue? depth other

variable {value other : Value}

theorem listOfValue?_alike {depth : Nat} (each : ∀ below < depth, AlikeAt below)
    (alike : Grammar.format.Alike .ruleList value other) (proper : value.Proper) (also : other.Proper) :
    Value.items? ofValue? depth value = Value.items? ofValue? depth other :=
  alike.items?_eq proper also depth fun _ below item other less proper also alike =>
    each below less item other proper also alike

theorem field?_alike {depth : Nat} (each : ∀ below ≤ depth, AlikeAt below) (field : Field) (proper : value.Proper)
    (also : other.Proper) (alike : Grammar.format.Alike field.role value other) :
    field? depth (ofValue? depth) (listOfValue? depth) field value =
      field? depth (ofValue? depth) (listOfValue? depth) field other := by
  rw [listOfValue?_eq_items?]
  cases field with
  | type => exact RuleKind.ofValue?_alike alike proper also depth
  | value => exact RuleValue.ofValue?_alike alike
  | name => exact alike.optional?_eq alike.text?_eq
  | content => exact alike.optional?_eq (each depth (Nat.le_refl depth) value other proper also alike)
  | members => exact listOfValue?_alike (fun below less => each below (Nat.le_of_lt less)) alike proper also
  | named => exact alike.optional?_eq alike.boolean?_eq
  | flags => exact alike.optional?_eq alike.text?_eq
  | contextName => exact alike.optional?_eq alike.text?_eq

theorem alikeAt (depth : Nat) : AlikeAt depth := by
  induction depth using Nat.strongRecOn with
  | ind depth each =>
    intro value other proper also alike
    cases depth with
    | zero => rfl
    | succ depth =>
      have filled := alike.record_eq proper also Field.ofKey?_eq_some Field.nodup_all Grammar.format_rule
        fun field _ _ => field?_alike (fun below le => each below (Nat.lt_succ_of_le le)) field
      rw [ofValue?, ofValue?, ofFields?, ofFields?, ← Option.bind_assoc, ← Option.bind_assoc, filled]

end Rule

namespace Grammar
variable {value other : Value}

theorem names?_alike (alike : format.Alike .whole value other) (proper : value.Proper) (also : other.Proper)
    (depth : Nat) : names? depth value = names? depth other :=
  alike.items?_eq proper also depth fun _ _ _ _ _ _ _ alike => alike.text?_eq

/-- Each rule stands in alike rules under the same name, and is read the same there. -/
theorem exists_rule_alike {members others : List (List Nat × Value)} (proper : (Value.object members).Proper)
    (also : (Value.object others).Proper) (alike : format.Alike .rules (.object members) (.object others)) (depth : Nat)
    {key : List Nat} {value : Value} (inside : (key, value) ∈ members) :
    ∃ other, (key, other) ∈ others ∧ Rule.ofValue? depth value = Rule.ofValue? depth other := by
  cases alike with
  | scalar single => simp [Value.lexemes] at single
  | object keys each =>
    have listed := (keys key rfl).mp (List.mem_map_of_mem inside)
    obtain ⟨⟨_, other⟩, found, rfl⟩ := List.mem_map.mp listed
    exact ⟨other, found, Rule.alikeAt depth value other (proper.members.2.2 _ inside) (also.members.2.2 _ found)
      (each _ value other rfl inside found)⟩

theorem rulesOfValue?_alike (alike : format.Alike .rules value other) (proper : value.Proper) (also : other.Proper)
    (depth : Nat) : rulesOfValue? depth value = rulesOfValue? depth other := by
  have half {members others : List (List Nat × Value)} (proper : (Value.object members).Proper)
      (also : (Value.object others).Proper) (alike : format.Alike .rules (.object members) (.object others))
      {depth : Nat} {table : Table Rule} (read : rulesOfValue? (depth + 1) (.object members) = some table) :
      rulesOfValue? (depth + 1) (.object others) = some table := by
    rw [rulesOfValue?_eq_some proper.members.1 proper.members.2.1] at read
    rw [rulesOfValue?_eq_some also.members.1 also.members.2.1]
    obtain ⟨readable, look⟩ := read
    refine ⟨fun ⟨key, other⟩ inside => ?_, fun name rule => (look name rule).trans ⟨?_, ?_⟩⟩
    · obtain ⟨value, found, same⟩ := exists_rule_alike also proper alike.symm depth inside
      exact same ▸ readable _ found
    · rintro ⟨value, inside, meant⟩
      obtain ⟨other, found, same⟩ := exists_rule_alike proper also alike depth inside
      exact ⟨other, found, same ▸ meant⟩
    · rintro ⟨other, inside, meant⟩
      obtain ⟨value, found, same⟩ := exists_rule_alike also proper alike.symm depth inside
      exact ⟨value, found, same ▸ meant⟩
  cases depth with
  | zero => rfl
  | succ depth =>
    cases alike with
    | scalar => rfl
    | list => rfl
    | object keys each =>
      have alike := Format.Alike.object keys each
      exact Option.ext fun table => ⟨half proper also alike, half also proper alike.symm⟩

theorem field?_alike (depth : Nat) (field : Field) (proper : value.Proper) (also : other.Proper)
    (alike : format.Alike field.role value other) : field? depth field value = field? depth field other := by
  have each : ∀ below < depth, Rule.AlikeAt below := fun below _ => Rule.alikeAt below
  cases field with
  | name => exact alike.text?_eq
  | rules => exact rulesOfValue?_alike alike proper also depth
  | extras => exact alike.optional?_eq (Rule.listOfValue?_alike each alike proper also)
  | externals => exact alike.optional?_eq (Rule.listOfValue?_alike each alike proper also)
  | inline => exact alike.optional?_eq (names?_alike alike proper also depth)
  | conflicts =>
    exact alike.optional?_eq (alike.items?_eq proper also depth fun _ below _ _ _ proper also alike =>
      names?_alike alike proper also below)
  | word => exact alike.optional?_eq alike.text?_eq
  | supertypes => exact alike.optional?_eq (names?_alike alike proper also depth)

theorem ofValue?_alike (alike : format.Alike .grammar value other) (proper : value.Proper) (also : other.Proper)
    (depth : Nat) : ofValue? depth value = ofValue? depth other := by
  cases depth with
  | zero => rfl
  | succ depth =>
    have filled := alike.record_eq proper also Field.ofKey?_eq_some Field.nodup_all format_grammar
      fun field _ _ => field?_alike depth field
    simp only [ofValue?, Option.bind_eq_bind]
    rw [← Option.bind_assoc, ← Option.bind_assoc, filled]

end Grammar

def GrammarError.IsValidation (error : GrammarError) : Prop :=
  (∃ grammar, error = .noRules grammar) ∨ ∃ symbol rule, error = .undefinedSymbol symbol rule

namespace Grammar
variable {first second text : String} {value other : Value}

theorem validation_of_check {grammar : Grammar} {error : GrammarError} (refused : grammar.check = .error error) :
    error.IsValidation := by
  by_cases rules : grammar.HasRules
  · by_cases closed : grammar.Closed
    · rw [check_of_closed rules closed] at refused
      contradiction
    · obtain ⟨symbol, rule, _, same⟩ := check_of_not_closed rules closed
      cases same.symm.trans refused
      exact .inr ⟨symbol, rule, rfl⟩
  · cases (check_of_not_hasRules rules).symm.trans refused
    exact .inl ⟨grammar.name, rfl⟩

theorem ofText_of_denotes {grammar : Grammar} (denotes : Denotes text value)
    (meant : ofValue? Json.depthLimit value = some grammar) : ofText text = grammar.check :=
  ofText_eq_check (Json.toOption_eq_some.mp ((toOption_decode denotes).trans meant))

theorem malformed_of_denotes (denotes : Denotes text value) (nothing : ofValue? Json.depthLimit value = none) :
    ∃ fault, ofText text = .error (.malformed text fault) := by
  obtain ⟨fault, found⟩ := Json.toOption_eq_none.mp ((toOption_decode denotes).trans nothing)
  exact ⟨fault, by rw [ofText, found]; rfl⟩

/-- Reading ends alike: with one grammar, with one validation error, or with texts that are no grammar. -/
inductive SameOutcome (first second : String) : Prop
  | accepted {grammar : Grammar} (left : ofText first = .ok grammar) (right : ofText second = .ok grammar)
  | invalid {error : GrammarError} (validation : error.IsValidation) (left : ofText first = .error error)
      (right : ofText second = .error error)
  | malformed {fault other : Json.Fault} (left : ofText first = .error (.malformed first fault))
      (right : ofText second = .error (.malformed second other))

theorem SameOutcome.ok_iff (same : SameOutcome first second) (grammar : Grammar) :
    ofText first = .ok grammar ↔ ofText second = .ok grammar := by
  cases same with
  | accepted left right => rw [left, right]
  | invalid _ left right => rw [left, right]
  | malformed left right => rw [left, right]; exact ⟨nofun, nofun⟩

/-- Texts that agree in what counts are read alike. -/
theorem ofText_alike (denotes : Denotes first value) (denotesToo : Denotes second other) (proper : value.Proper)
    (properToo : other.Proper) (alike : format.Alike .grammar value other) :
    (∀ grammar, ofText first = .ok grammar ↔ ofText second = .ok grammar) ∧ SameOutcome first second := by
  have outcome : SameOutcome first second := by
    have same := ofValue?_alike alike proper properToo Json.depthLimit
    cases meant : ofValue? Json.depthLimit value with
    | none =>
      obtain ⟨fault, left⟩ := malformed_of_denotes denotes meant
      obtain ⟨faultToo, right⟩ := malformed_of_denotes denotesToo (same ▸ meant)
      exact .malformed left right
    | some grammar =>
      have left := ofText_of_denotes denotes meant
      have right := ofText_of_denotes denotesToo (same ▸ meant)
      cases checked : grammar.check with
      | ok => exact .accepted (left.trans checked) (right.trans checked)
      | error => exact .invalid (validation_of_check checked) (left.trans checked) (right.trans checked)
  exact ⟨outcome.ok_iff, outcome⟩

def plainRule : Value := .ofMembers [("type", .ofText "SYMBOL"), ("name", .ofText "b")]

def notedRule : Value := .ofMembers [("note", .null), ("name", .ofText "b"), ("type", .ofText "SYMBOL")]

def rulesOf (rule : Value) : Value := .ofMembers [("a", rule)]

/-- A grammar with a symbol that is not defined. -/
def plainValue : Value := .ofMembers [("name", .ofText "g"), ("rules", rulesOf plainRule)]

/-- The same grammar in another order, with notes on it and on its rule. -/
def notedValue : Value :=
  .ofMembers [("note", .list [.boolean true]), ("rules", rulesOf notedRule), ("name", .ofText "g")]

theorem rulesOf_plain {rule : Value} (plain : rule.Plain) : (rulesOf rule).Plain :=
  .members (by simp) (by simpa using plain)

theorem plainRule_plain : plainRule.Plain := .members (by decide) (by simp [Value.Plain.text])

theorem notedRule_plain : notedRule.Plain := .members (by decide) (by simp [Value.Plain.text, Value.Plain.null])

theorem plainValue_plain : plainValue.Plain :=
  .members (by decide) (by simp [Value.Plain.text, rulesOf_plain plainRule_plain])

theorem notedValue_plain : notedValue.Plain := by
  have note : (Value.list [.boolean true]).Plain := .list (by simp [Value.Plain.boolean])
  exact .members (by decide) (by simp [Value.Plain.text, note, rulesOf_plain notedRule_plain])

theorem plainRule_alike_notedRule : format.Alike .rule plainRule notedRule := by
  have swapped : format.Alike .rule plainRule (.ofMembers [("name", .ofText "b"), ("type", .ofText "SYMBOL")]) :=
    .of_perm plainRule_plain.proper (.swap _ _ _) _
  exact swapped.trans (.add_member (Value.proper_ofMembers (by decide) (by simp [Value.proper_ofText]))
    (by decide +kernel) .null)

theorem plainValue_alike_notedValue : format.Alike .grammar plainValue notedValue := by
  have rules : format.Alike (format.member .grammar (units Field.rules.key.toList)) (rulesOf plainRule)
      (rulesOf notedRule) := by
    rw [format_grammar.member .rules]
    have empty : (Value.object []).Proper := .object nofun .nil nofun
    exact .cons_member nofun nofun plainRule_alike_notedRule (.refl empty _)
  have swapped : format.Alike .grammar plainValue (.ofMembers [("rules", rulesOf plainRule), ("name", .ofText "g")]) :=
    .of_perm plainValue_plain.proper (.swap _ _ _) _
  have replaced : format.Alike .grammar (.ofMembers [("rules", rulesOf plainRule), ("name", .ofText "g")])
      (.ofMembers [("rules", rulesOf notedRule), ("name", .ofText "g")]) :=
    .cons_member (by decide) (by decide) rules
      (.refl (Value.proper_ofMembers (by decide) (by simp [Value.proper_ofText])) _)
  refine swapped.trans (replaced.trans (.add_member ?_ (by decide +kernel) _))
  exact Value.proper_ofMembers (by decide) (by simp [Value.proper_ofText, (rulesOf_plain notedRule_plain).proper])

theorem ofText_alike_notedValue :
    Denotes plainValue.written plainValue ∧ Denotes notedValue.written notedValue ∧ plainValue.Proper ∧
      notedValue.Proper ∧ format.Alike .grammar plainValue notedValue ∧
      SameOutcome plainValue.written notedValue.written := by
  have plain := Value.denotes_written plainValue_plain.writable
  have noted := Value.denotes_written notedValue_plain.writable
  exact ⟨plain, noted, plainValue_plain.proper, notedValue_plain.proper, plainValue_alike_notedValue,
    (ofText_alike plain noted plainValue_plain.proper notedValue_plain.proper plainValue_alike_notedValue).2⟩

end Grammar
end GrammarCheck
