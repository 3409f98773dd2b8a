import GrammarCheck.Proofs.Grammar.Alike
import GrammarCheck.Proofs.Grammar.Occurrence

/-! Grammars written as JSON objects that leave out what is not set. Main statement: a text of the object form
of a grammar is read as that grammar, unless lists and objects in it nest too deep. -/
namespace GrammarCheck
open Json (Value Denotes Recovers)
open Text (units)

namespace RuleValue

def form : RuleValue → Value
  | .text value => .ofText value
  | .level value => .number (Json.decimalDigits value.toInt)

theorem ofValue?_form (value : RuleValue) : ofValue? value.form = some (some value) := by
  cases value with
  | text value => simp [ofValue?, form, Value.ofText]
  | level value =>
    have least : -0x80000000 ≤ value.toInt := value.le_toInt
    have most : value.toInt < 0x80000000 := value.toInt_lt
    have small : value.toInt.natAbs ≤ Nat.pow 2 63 := by
      have size : Nat.pow 2 63 = 0x8000000000000000 := by decide
      omega
    simp [ofValue?, form, Json.Numeral.ofLiteral?_decimalDigits small, least, most]

theorem nesting_form (value : RuleValue) : value.form.nesting = 0 := by
  cases value <;> rfl

end RuleValue

theorem RuleKind.ofValue?_ofText (kind : RuleKind) (depth : Nat) : ofValue? depth (.ofText kind.name) = some kind := by
  simp [Value.ofText, ofValue?, ofName?_name]

namespace Rule

mutual

def objectForm : Rule → Value
  | ⟨kind, value, name, content, members, named, flags, contextName⟩ =>
    .record Field.key Field.all fun
      | .type => some (.ofText kind.name)
      | .value => value.map RuleValue.form
      | .name => name.map .ofText
      | .content => contentForm content
      | .members => membersForm members
      | .named => named.map .boolean
      | .flags => flags.map .ofText
      | .contextName => contextName.map .ofText

def contentForm : Option Rule → Option Value
  | none => none
  | some rule => some rule.objectForm

def memberForms : List Rule → List Value
  | [] => []
  | rule :: rest => rule.objectForm :: memberForms rest

def membersForm : List Rule → Option Value
  | [] => none
  | rule :: rest => some (.list (rule.objectForm :: memberForms rest))

end

/-- What the object form gives for each field. Content and members are there if there are any. -/
def given (rule : Rule) : Field → Option Value
  | .type => some (.ofText rule.kind.name)
  | .value => rule.value.map RuleValue.form
  | .name => rule.name.map .ofText
  | .content => rule.content.map objectForm
  | .members => if rule.members.isEmpty then none else some (.list (rule.members.map objectForm))
  | .named => rule.named.map .boolean
  | .flags => rule.flags.map .ofText
  | .contextName => rule.contextName.map .ofText

theorem memberForms_eq_map (rules : List Rule) : memberForms rules = rules.map objectForm := by
  induction rules with
  | nil => rfl
  | cons rule rest ih => rw [memberForms, ih, List.map_cons]

theorem objectForm_eq (rule : Rule) : rule.objectForm = .record Field.key Field.all rule.given := by
  obtain ⟨kind, value, name, content, members, named, flags, contextName⟩ := rule
  rw [objectForm]
  congr 1
  funext field
  cases field with
  | content => cases content <;> rfl
  | members => cases members <;> simp [membersForm, memberForms_eq_map, given]
  | _ => rfl

theorem objectForm_ne_null (rule : Rule) : rule.objectForm ≠ .null := by
  rw [objectForm_eq]
  exact nofun

/-- The fields that are set. -/
def part (rule : Rule) : (field : Field) → Option field.Slot
  | .type => some rule.kind
  | .value => rule.value.map some
  | .name => rule.name.map some
  | .content => rule.content.map some
  | .members => if rule.members.isEmpty then none else some rule.members
  | .named => rule.named.map some
  | .flags => rule.flags.map some
  | .contextName => rule.contextName.map some

theorem ofParts?_part (rule : Rule) : ofParts? rule.part = some rule := by
  obtain ⟨kind, value, name, content, members, named, flags, contextName⟩ := rule
  have join {α : Type} (x : Option α) : (x.map some).join = x := by cases x <;> rfl
  have listed : (if members.isEmpty then none else some members).getD [] = members := by cases members <;> rfl
  simp only [ofParts?, part, join, listed, Option.map_some]

theorem part_eq_none {rule : Rule} {field : Field} (missing : rule.given field = none) : rule.part field = none := by
  cases field with
  | type => exact nomatch missing
  | members =>
    cases empty : rule.members.isEmpty with
    | true => simp [part, empty]
    | false => simp [given, empty] at missing
  | _ => exact Option.map_eq_none_iff.mpr (Option.map_eq_none_iff.mp missing)

/-- Each set field of the object form is read back, if it does not nest too deep. -/
theorem field?_given {rule : Rule} {depth : Nat}
    (each : ∀ child ∈ rule.children, Recovers ofValue? objectForm child) {field : Field} {value : Value}
    (here : rule.given field = some value) : (rule.part field).isSome = true ∧
      field? depth (ofValue? depth) (listOfValue? depth) field value =
        if value.nesting ≤ depth then rule.part field else none := by
  have content : ∀ child ∈ rule.content, Recovers ofValue? objectForm child := fun child inside =>
    each child (List.mem_append_left _ (Option.mem_toList.mpr inside))
  have members : ∀ child ∈ rule.members, Recovers ofValue? objectForm child := fun child inside =>
    each child (List.mem_append_right _ inside)
  have texts (given : Option String) (same : given.map Value.ofText = some value) :=
    Json.recovers_optional (fun text _ => Json.recovers_ofText text) (fun _ => nofun) depth same
  rw [listOfValue?_eq_items?]
  cases field with
  | type =>
    cases here
    exact ⟨rfl, (RuleKind.ofValue?_ofText rule.kind depth).trans (if_pos (Nat.zero_le depth)).symm⟩
  | value =>
    obtain ⟨given, same, rfl⟩ := Option.map_eq_some_iff.mp here
    rw [part, same, given.nesting_form, if_pos (Nat.zero_le depth)]
    exact ⟨rfl, given.ofValue?_form⟩
  | name => exact texts rule.name here
  | content => exact Json.recovers_optional content objectForm_ne_null depth here
  | members =>
    cases empty : rule.members.isEmpty with
    | true => simp [given, empty] at here
    | false =>
      simp only [given, empty] at here
      cases here
      refine ⟨by simp [part, empty], ?_⟩
      exact (Json.recovers_list members depth).trans (by simp [part, empty])
  | named => exact Json.recovers_optional (fun flag _ => Json.recovers_boolean flag) (fun _ => nofun) depth here
  | flags => exact texts rule.flags here
  | contextName => exact texts rule.contextName here

theorem recovers_objectForm (rule : Rule) : Recovers ofValue? objectForm rule := by
  induction rule using childInduction with
  | step rule each =>
    intro depth
    cases depth with
    | zero =>
      rw [objectForm_eq]
      rfl
    | succ depth =>
      rw [ofValue?, ofFields?, ← Option.bind_assoc, objectForm_eq,
        Json.record_reads Field.ofKey?_eq_some Field.nodup_all Field.mem_all
          (fun field value here => field?_given each here) fun field => part_eq_none]
      split
      · exact ofParts?_part rule
      · rfl

theorem plain_given {rule : Rule} (each : ∀ child ∈ rule.children, child.objectForm.Plain) {field : Field}
    {value : Value} (here : rule.given field = some value) : value.Plain := by
  have texts (given : Option String) (same : given.map Value.ofText = some value) : value.Plain := by
    obtain ⟨text, _, rfl⟩ := Option.map_eq_some_iff.mp same
    exact .text text
  cases field with
  | type => cases here; exact .text _
  | value =>
    obtain ⟨given, _, rfl⟩ := Option.map_eq_some_iff.mp here
    cases given with
    | text text => exact .text text
    | level level => exact .integer level.toInt
  | name => exact texts rule.name here
  | content =>
    obtain ⟨child, inside, rfl⟩ := Option.map_eq_some_iff.mp here
    exact each child (List.mem_append_left _ (Option.mem_toList.mpr inside))
  | members =>
    cases empty : rule.members.isEmpty with
    | true => simp [given, empty] at here
    | false =>
      simp only [given, empty] at here
      cases here
      exact .list (List.forall_mem_map.mpr fun child inside => each child (List.mem_append_right _ inside))
  | named =>
    obtain ⟨flag, _, rfl⟩ := Option.map_eq_some_iff.mp here
    exact .boolean flag
  | flags => exact texts rule.flags here
  | contextName => exact texts rule.contextName here

theorem plain_objectForm (rule : Rule) : rule.objectForm.Plain := by
  induction rule using childInduction with
  | step rule each =>
    rw [objectForm_eq]
    exact Json.plain_record Field.ofKey?_eq_some Field.nodup_all fun field value => plain_given each

/-- Rules in a list. -/
def listForm (rules : List Rule) : Value := .list (rules.map objectForm)

theorem recovers_listForm (rules : List Rule) : Recovers (Value.items? ofValue?) listForm rules :=
  Json.recovers_list fun rule _ => recovers_objectForm rule

end Rule

namespace Grammar

def namesForm (names : List String) : Value := .list (names.map .ofText)

def rulesForm (rules : Table Rule) : Value := .ofMembers (rules.entries.map fun entry => (entry.1, entry.2.objectForm))

/-- What the object form gives for each field. -/
def given (grammar : Grammar) : Field → Option Value
  | .name => some (.ofText grammar.name)
  | .rules => some (rulesForm grammar.rules)
  | .extras => grammar.extras.map Rule.listForm
  | .externals => grammar.externals.map Rule.listForm
  | .inline => grammar.inline.map namesForm
  | .conflicts => grammar.conflicts.map fun groups => .list (groups.map namesForm)
  | .word => grammar.word.map .ofText
  | .supertypes => grammar.supertypes.map namesForm

def objectForm (grammar : Grammar) : Value := .record Field.key Field.all grammar.given

/-- The value is the object form of the grammar, with the members of each object in any order. -/
def WrittenAs (grammar : Grammar) (value : Value) : Prop :=
  value.Proper ∧ format.Alike .whole grammar.objectForm value

def part (grammar : Grammar) : (field : Field) → Option field.Slot
  | .name => some grammar.name
  | .rules => some grammar.rules
  | .extras => grammar.extras.map some
  | .externals => grammar.externals.map some
  | .inline => grammar.inline.map some
  | .conflicts => grammar.conflicts.map some
  | .word => grammar.word.map some
  | .supertypes => grammar.supertypes.map some

theorem ofParts?_part (grammar : Grammar) : ofParts? grammar.part = some grammar := by
  have join {α : Type} (x : Option α) : (x.map some).join = x := by cases x <;> rfl
  simp [ofParts?, part, join]

theorem part_eq_none {grammar : Grammar} {field : Field} (missing : grammar.given field = none) :
    grammar.part field = none := by
  cases field with
  | name => exact nomatch missing
  | rules => exact nomatch missing
  | _ => exact Option.map_eq_none_iff.mpr (Option.map_eq_none_iff.mp missing)

theorem recovers_namesForm (names : List String) : Recovers names? namesForm names :=
  Json.recovers_list fun text _ => Json.recovers_ofText text

theorem nodup_rules (rules : Table Rule) :
    ((rules.entries.map fun entry => (entry.1, entry.2.objectForm)).map Prod.fst).Nodup := by
  rw [List.map_map]
  exact rules.nodup_keys

theorem recovers_rulesForm (rules : Table Rule) : Recovers rulesOfValue? rulesForm rules := by
  intro depth
  cases depth with
  | zero => rfl
  | succ depth =>
    have known (table : Table Rule) : rulesOfValue? (depth + 1) _ = some table ↔ _ :=
      rulesOfValue?_eq_some (Value.texts_keyed _) (Value.nodup_keyed (nodup_rules rules))
    have listed {name : String} {value : Value} :
        (units name.toList, value) ∈ Value.keyed (rules.entries.map fun entry => (entry.1, entry.2.objectForm)) ↔
          ∃ rule, rules.get? name = some rule ∧ rule.objectForm = value := by
      simp [Value.mem_keyed, Table.get?_eq_some]
    rw [rulesForm, Value.ofMembers]
    split
    · next fits =>
      have own {name : String} {rule : Rule} (found : rules.get? name = some rule) :
          Rule.ofValue? depth rule.objectForm = some rule := by
        rw [Rule.recovers_objectForm rule depth]
        exact if_pos (Value.nesting_ofMembers.mp fits _ (List.mem_map.mpr ⟨_, Table.get?_eq_some.mp found, rfl⟩))
      refine (known rules).mpr ⟨fun member inside => ?_, fun name rule => ⟨fun found => ?_, ?_⟩⟩
      · obtain ⟨key, value⟩ := member
        obtain ⟨name, rfl⟩ := Value.texts_keyed _ _ inside
        obtain ⟨rule, found, rfl⟩ := listed.mp inside
        rw [own found]
        rfl
      · exact ⟨rule.objectForm, listed.mpr ⟨rule, found, rfl⟩, own found⟩
      · rintro ⟨value, inside, meant⟩
        obtain ⟨body, found, rfl⟩ := listed.mp inside
        cases (own found).symm.trans meant
        exact found
    · next deep =>
      refine Option.eq_none_iff_forall_ne_some.mpr fun table done => deep (Value.nesting_ofMembers.mpr ?_)
      rw [List.forall_mem_map]
      intro entry inside
      obtain ⟨name, rule⟩ := entry
      have readable := ((known table).mp done).1 _ (listed.mpr ⟨rule, Table.get?_eq_some.mpr inside, rfl⟩)
      by_contra above
      rw [Rule.recovers_objectForm rule depth, if_neg above] at readable
      contradiction

theorem field?_given {grammar : Grammar} {depth : Nat} {field : Field} {value : Value}
    (here : grammar.given field = some value) : (grammar.part field).isSome = true ∧
      field? depth field value = if value.nesting ≤ depth then grammar.part field else none := by
  have rules (given : Option (List Rule)) (same : given.map Rule.listForm = some value) :=
    Json.recovers_optional (fun rules _ => Rule.recovers_listForm rules) (fun _ => nofun) depth same
  have names (given : Option (List String)) (same : given.map namesForm = some value) :=
    Json.recovers_optional (fun names _ => recovers_namesForm names) (fun _ => nofun) depth same
  cases field with
  | name =>
    cases here
    exact ⟨rfl, Json.recovers_ofText grammar.name depth⟩
  | rules =>
    cases here
    exact ⟨rfl, recovers_rulesForm grammar.rules depth⟩
  | extras => exact rules grammar.extras here
  | externals => exact rules grammar.externals here
  | inline => exact names grammar.inline here
  | conflicts =>
    exact Json.recovers_optional (fun groups _ => Json.recovers_list fun group _ => recovers_namesForm group)
      (fun _ => nofun) depth here
  | word => exact Json.recovers_optional (fun text _ => Json.recovers_ofText text) (fun _ => nofun) depth here
  | supertypes => exact names grammar.supertypes here

theorem recovers_objectForm (grammar : Grammar) : Recovers ofValue? objectForm grammar := by
  intro depth
  cases depth with
  | zero => rfl
  | succ depth =>
    simp only [ofValue?, Option.bind_eq_bind]
    rw [← Option.bind_assoc, objectForm, Json.record_reads Field.ofKey?_eq_some Field.nodup_all Field.mem_all
      (fun field value => field?_given) fun field => part_eq_none]
    split
    · exact ofParts?_part grammar
    · rfl

theorem plain_objectForm (grammar : Grammar) : grammar.objectForm.Plain := by
  have names (names : List String) : (namesForm names).Plain := .list (List.forall_mem_map.mpr fun name _ => .text name)
  have rules (rules : List Rule) : (Rule.listForm rules).Plain :=
    .list (List.forall_mem_map.mpr fun rule _ => rule.plain_objectForm)
  refine Json.plain_record Field.ofKey?_eq_some Field.nodup_all fun field value here => ?_
  cases field with
  | name => cases here; exact .text _
  | rules =>
    cases here
    exact .members (nodup_rules grammar.rules) (List.forall_mem_map.mpr fun entry _ => entry.2.plain_objectForm)
  | extras => obtain ⟨given, _, rfl⟩ := Option.map_eq_some_iff.mp here; exact rules given
  | externals => obtain ⟨given, _, rfl⟩ := Option.map_eq_some_iff.mp here; exact rules given
  | inline => obtain ⟨given, _, rfl⟩ := Option.map_eq_some_iff.mp here; exact names given
  | conflicts =>
    obtain ⟨groups, _, rfl⟩ := Option.map_eq_some_iff.mp here
    exact .list (List.forall_mem_map.mpr fun group _ => names group)
  | word => obtain ⟨text, _, rfl⟩ := Option.map_eq_some_iff.mp here; exact .text text
  | supertypes => obtain ⟨given, _, rfl⟩ := Option.map_eq_some_iff.mp here; exact names given

theorem writtenAs_objectForm (grammar : Grammar) : grammar.WrittenAs grammar.objectForm :=
  ⟨grammar.plain_objectForm.proper, .refl grammar.plain_objectForm.proper _⟩

theorem ofValue?_of_writtenAs {grammar : Grammar} {value : Value} (written : grammar.WrittenAs value) (depth : Nat) :
    ofValue? depth value = if value.nesting ≤ depth then some grammar else none := by
  obtain ⟨proper, alike⟩ := written
  have same := ofValue?_alike (alike.of_whole format_whole .grammar) grammar.plain_objectForm.proper proper depth
  rw [← same, recovers_objectForm, alike.nesting_eq format_whole]

theorem ofText_objectForm {grammar : Grammar} (fits : grammar.objectForm.nesting ≤ Json.depthLimit) :
    ofText grammar.objectForm.written = grammar.check := by
  have meant := (ofValue?_of_writtenAs grammar.writtenAs_objectForm Json.depthLimit).trans (if_pos fits)
  exact ofText_of_denotes (Value.denotes_written grammar.plain_objectForm.writable) meant

/-- Every grammar that passes the check can be written, and however it is written, it is read back unless
lists and objects nest more than 127 deep. -/
theorem ofText_of_writtenAs {grammar : Grammar} (rules : grammar.HasRules) (closed : grammar.Closed) :
    (∃ text value, grammar.WrittenAs value ∧ Denotes text value) ∧
    ∀ text value, grammar.WrittenAs value → Denotes text value →
      (value.nesting ≤ 127 → ofText text = .ok grammar) ∧
      (127 < value.nesting → ∃ fault, ofText text = .error (.malformed text fault)) := by
  have written := Value.denotes_written grammar.plain_objectForm.writable
  refine ⟨⟨_, _, grammar.writtenAs_objectForm, written⟩, fun text value written denotes =>
    ⟨fun fits => ?_, fun deep => ?_⟩⟩
  · have meant := (ofValue?_of_writtenAs written Json.depthLimit).trans (if_pos fits)
    exact (ofText_of_denotes denotes meant).trans (check_of_closed rules closed)
  · have nothing := (ofValue?_of_writtenAs written Json.depthLimit).trans (if_neg (Nat.not_le.mpr deep))
    exact malformed_of_denotes denotes nothing

def levelRule : Rule where
  kind := .precLeft
  value := some (.level (-7))
  name := none
  content := some ⟨.choice, none, none, none,
    [⟨.string, some (.text "\"😀\n"), none, none, [], none, none, none⟩,
      ⟨.symbol, none, some "a", none, [], some false, some "i", none⟩], none, none, none⟩
  members := []
  named := none
  flags := none
  contextName := some "c"

/-- A grammar of one rule with a negative level, a character of two halves and a symbol that is the rule. -/
def levelGrammar : Grammar where
  name := "g"
  rules := Table.ofEntries [("a", levelRule)]
  extras := some []
  externals := none
  inline := some ["a"]
  conflicts := some [["a"], []]
  word := some "a"
  supertypes := none

theorem ofText_of_writtenAs_levelGrammar : levelGrammar.HasRules ∧ levelGrammar.Closed ∧
    levelGrammar.WrittenAs levelGrammar.objectForm ∧
    Denotes levelGrammar.objectForm.written levelGrammar.objectForm ∧ levelGrammar.objectForm.nesting ≤ 127 ∧
    ofText levelGrammar.objectForm.written = .ok levelGrammar := by
  have rules : levelGrammar.HasRules := ⟨"a", levelRule, rfl⟩
  have closed : levelGrammar.Closed := undefinedSymbol?_eq_none.mp (by decide +kernel)
  have written := levelGrammar.writtenAs_objectForm
  have denotes := Value.denotes_written levelGrammar.plain_objectForm.writable
  have fits : levelGrammar.objectForm.nesting ≤ 127 := by decide +kernel
  exact ⟨rules, closed, written, denotes, fits, ((ofText_of_writtenAs rules closed).2 _ _ written denotes).1 fits⟩

end Grammar
end GrammarCheck
