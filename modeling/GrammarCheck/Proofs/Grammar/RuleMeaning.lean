import GrammarCheck.Grammar.RuleReading
import GrammarCheck.Proofs.Json.Record

/-! What rules in JSON mean. A rule gives its fields in any order or listed, each at most once, and lists
and objects go down to a limited depth. Main statement: the rule that is read of a tree is the one that
the value of the tree stands for. -/
namespace GrammarCheck
open Json (Node Items Members Place Cause Fault Value textOf? fill)

/-- A null stands for no value. -/
def RuleValue.ofValue? (value : Value) : Option (Option RuleValue) :=
  match value.scalar? with
  | some .null => some none
  | some (.string written) => some (some (.text written))
  | some (.number (.integer given)) =>
    if -0x80000000 ≤ given ∧ given < 0x80000000 then some (some (.level (Int32.ofInt given))) else none
  | _ => none

/-- A kind is given by its name, or by an object with its name as the one key. -/
def RuleKind.ofValue? : Nat → Value → Option RuleKind
  | _, .string units => (textOf? units).bind ofName?
  | _ + 1, .object [(units, .null)] => (textOf? units).bind ofName?
  | _, _ => none

namespace Rule

abbrev Field.Slot : Field → Type
  | .type => RuleKind
  | .value => Option RuleValue
  | .name => Option String
  | .content => Option Rule
  | .members => List Rule
  | .named => Option Bool
  | .flags => Option String
  | .contextName => Option String

/-- Reads one field, with rules inside it read by `rule` and `rules`. -/
def field? (depth : Nat) (rule : Value → Option Rule) (rules : Value → Option (List Rule)) :
    (field : Field) → Value → Option field.Slot
  | .type => RuleKind.ofValue? depth
  | .value => RuleValue.ofValue?
  | .name => Value.optional? Value.text?
  | .content => Value.optional? rule
  | .members => rules
  | .named => Value.optional? Value.boolean?
  | .flags => Value.optional? Value.text?
  | .contextName => Value.optional? Value.text?

/-- The rule with these parts. Only the kind has to be given. -/
def ofParts? (parts : (field : Field) → Option field.Slot) : Option Rule :=
  (parts .type).map fun kind =>
    { kind := kind
      value := (parts .value).join
      name := (parts .name).join
      content := (parts .content).join
      members := (parts .members).getD []
      named := (parts .named).join
      flags := (parts .flags).join
      contextName := (parts .contextName).join }

def ofFields? (depth : Nat) (rule : Value → Option Rule) (rules : Value → Option (List Rule)) (value : Value) :
    Option Rule :=
  (value.fields? Field.ofKey? Field.all).bind fun known =>
    (fill (field? depth rule rules) (fun _ => none) known).bind ofParts?

mutual

/-- The rule that a value stands for, if lists and objects in it go no deeper than `depth`. -/
def ofValue? : Nat → Value → Option Rule
  | 0, _ => none
  | depth + 1, value => ofFields? depth (ofValue? depth) (listOfValue? depth) value

def listOfValue? : Nat → Value → Option (List Rule)
  | depth + 1, .list items => items.mapM (ofValue? depth)
  | _, _ => none

end

theorem listOfValue?_eq_items? : listOfValue? = Value.items? ofValue? := by
  funext depth value
  cases depth with
  | zero => rfl
  | succ depth => cases value <;> rfl

end Rule

section
variable {node : Node} {value : Value}

theorem RuleValue.toOption_ofNode (shows : node.Shows value) (depth : Nat) (settled : Place) :
    (RuleValue.ofNode depth settled node).toOption = RuleValue.ofValue? value := by
  rw [RuleValue.ofNode, RuleValue.ofValue?, Node.isNull, shows.scalar?_eq]
  cases found : value.scalar? with
  | none => simp
  | some scalar =>
    have kept := shows.keep_of_scalar? found depth
    cases scalar with
    | null => rfl
    | boolean => simp
    | string written => simp [kept]
    | number given =>
      cases given with
      | integer given => simp [kept, apply_ite Except.toOption]
      | decimal => simp

theorem RuleKind.toOption_ofText (name : String) (after : Place) :
    (RuleKind.ofText name after).toOption = RuleKind.ofName? name := by
  rw [RuleKind.ofText]
  cases RuleKind.ofName? name <;> rfl

theorem RuleKind.toOption_ofNode (shows : node.Shows value) (depth : Nat) :
    (RuleKind.ofNode depth node).toOption = RuleKind.ofValue? depth value := by
  cases shows with
  | scalar single shown =>
    rw [RuleKind.ofNode, shown.quoted]
    cases value with
    | string units =>
      cases single
      simp [Json.Lexeme.isString, shown.text_toOption, RuleKind.toOption_ofText, RuleKind.ofValue?]
    | list => simp [Value.lexemes] at single
    | object => simp [Value.lexemes] at single
    | _ => cases single; rfl
  | list => rfl
  | @object place members values shown =>
    cases depth with
    | zero =>
      rw [RuleKind.ofValue?]
      · rfl
      all_goals
        intros
        contradiction
    | succ depth =>
      cases shown with
      | close => rfl
      | @member key colon settled node next units value rest named first others =>
        have null := first.isNull_iff
        show Except.toOption (do
          let kind ← RuleKind.ofText (← key.text) key.after
          if node.isNull then kind.finish settled next else .error (node.mismatch "unit")) = _
        by_cases same : value = .null
        · subst same
          simp only [if_pos (null.mpr rfl), Json.toOption_bind, named.text_toOption, RuleKind.toOption_ofText]
          cases others with
          | close => simp [RuleKind.finish, RuleKind.ofValue?]
          | member => simp [RuleKind.finish, RuleKind.ofValue?]
        · simp only [if_neg (same ∘ null.mp), Json.toOption_bind, Json.toOption_error, Option.bind_fun_none]
          rw [RuleKind.ofValue?]
          · simp
          · intro _ _ other
            simp_all

end

namespace Rule

/-- A reader of rules reads what values stand for, at one depth. -/
def ReadsAt (depth : Nat) : Prop :=
  ∀ (node : Node) (value : Value), node.Shows value → (ofNode depth node).toOption = ofValue? depth value

def Draft.part (draft : Draft) : (field : Field) → Option field.Slot
  | .type => draft.type
  | .value => draft.value
  | .name => draft.name
  | .content => draft.content
  | .members => draft.members
  | .named => draft.named
  | .flags => draft.flags
  | .contextName => draft.contextName

theorem Draft.part_empty (field : Field) : Draft.empty.part field = none := by
  cases field <;> rfl

theorem Draft.has_eq (draft : Draft) (field : Field) : draft.has field = (draft.part field).isSome := by
  cases field <;> rfl

def Draft.set (draft : Draft) : (field : Field) → field.Slot → Draft
  | .type, part => { draft with type := some part }
  | .value, part => { draft with value := some part }
  | .name, part => { draft with name := some part }
  | .content, part => { draft with content := some part }
  | .members, part => { draft with members := some part }
  | .named, part => { draft with named := some part }
  | .flags, part => { draft with flags := some part }
  | .contextName, part => { draft with contextName := some part }

theorem Draft.part_set (draft : Draft) (field : Field) (part : field.Slot) :
    (draft.set field part).part = Function.update draft.part field (some part) := by
  funext other
  cases field <;> cases other <;> rfl

variable {depth : Nat}

theorem listOfItems_eq_values (depth : Nat) : ∀ items : Items, listOfItems depth items = items.values (ofNode depth)
  | .close _ => by rw [listOfItems, Items.values]
  | .broken _ _ => by rw [listOfItems, Items.values]
  | .item value _ next => by
    rw [listOfItems, Items.values, listOfItems_eq_values depth next]

theorem toOption_listOfNode {node : Node} {value : Value} (each : ∀ below < depth, ReadsAt below)
    (shows : node.Shows value) : (listOfNode depth node).toOption = listOfValue? depth value := by
  cases shows with
  | scalar single =>
    cases value with
    | list => simp [Value.lexemes] at single
    | _ => cases depth <;> rfl
  | object => cases depth <;> rfl
  | list shown =>
    rw [listOfNode, Json.toOption_descend]
    cases depth with
    | zero => rfl
    | succ depth =>
      dsimp only
      rw [listOfItems_eq_values]
      exact shown.values_toOption (each depth (Nat.lt_succ_self depth))

theorem puts_of_reads (each : ∀ below ≤ depth, ReadsAt below) :
    Json.Puts (field? depth (ofValue? depth) (listOfValue? depth)) Draft.part fun draft settled node =>
      draft.put depth settled node (fun _ => ofNode depth node) (fun _ => listOfNode depth node) := by
  intro draft settled node value field shows
  have own := each depth (Nat.le_refl depth) node value shows
  have below := toOption_listOfNode (fun below less => each below (Nat.le_of_lt less)) shows
  cases field with
  | type => exact Json.map_view (draft.part_set .type) (RuleKind.toOption_ofNode shows depth)
  | value => exact Json.map_view (draft.part_set .value) (RuleValue.toOption_ofNode shows depth settled)
  | name => exact Json.map_view (draft.part_set .name) (shows.optional_toOption shows.text_toOption)
  | content => exact Json.map_view (draft.part_set .content) (shows.optional_toOption own)
  | members => exact Json.map_view (draft.part_set .members) below
  | named => exact Json.map_view (draft.part_set .named) (shows.optional_toOption shows.boolean_toOption)
  | flags => exact Json.map_view (draft.part_set .flags) (shows.optional_toOption shows.text_toOption)
  | contextName => exact Json.map_view (draft.part_set .contextName) (shows.optional_toOption shows.text_toOption)

theorem ofMembers_close (depth : Nat) (draft : Draft) (after : Place) :
    (ofMembers depth draft (.close after)).toOption = ofParts? draft.part := by
  rw [ofMembers, ofParts?, Draft.part]
  cases draft.type <;> rfl

theorem Field.nodup_all : Field.all.Nodup := by decide

theorem Field.mem_all (field : Field) : field ∈ Field.all := by
  cases field <;> decide

theorem ofItems_close (depth : Nat) (draft : Draft) (fields : List Field) (after : Place) :
    (ofItems depth draft fields (.close after)).toOption = ofParts? draft.part := by
  rw [ofItems, ofParts?, Draft.part]
  cases draft.type <;> rfl

theorem readsAt (depth : Nat) : ReadsAt depth := by
  induction depth using Nat.strongRecOn with
  | ind depth each =>
    intro node value shows
    cases depth with
    | zero =>
      cases shows with
      | scalar => rfl
      | list => rfl
      | object => rfl
    | succ depth =>
      have puts := puts_of_reads fun below le => each below (Nat.lt_succ_of_le le)
      cases shows with
      | scalar single =>
        cases value with
        | list => simp [Value.lexemes] at single
        | object => simp [Value.lexemes] at single
        | _ => rfl
      | list shown =>
        have filled := Json.items_toOption puts (ofItems_close depth)
          (fun draft field fields node settled next => by rw [ofItems])
          (fun draft node settled next => by rw [ofItems]; rfl) shown Field.nodup_all
          fun field _ => Draft.part_empty field
        rw [ofNode, Json.toOption_descend, ofValue?, ofFields?, Value.fields?]
        exact filled.trans (by split <;> simp [funext Draft.part_empty])
      | object shown =>
        have filled := Json.members_toOption Field.ofKey? (fun field colon => (Cause.duplicateField field.key).here colon)
          puts Draft.has_eq (ofMembers_close depth)
          (fun draft key colon node settled next => by
            rw [ofMembers]
            congr 1
            funext name
            cases Field.ofKey? name with
            | none => rfl
            | some field => rfl) shown Draft.empty
        rw [ofNode, Json.toOption_descend, ofValue?, ofFields?, Value.fields?]
        rwa [funext Draft.part_empty] at filled

end Rule
end GrammarCheck
