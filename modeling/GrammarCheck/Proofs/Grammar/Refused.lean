import GrammarCheck.Proofs.Grammar.Alike

/-! Parts of a grammar definition that cannot be read. Main statement: if a value cannot be read in the role
it has where it stands, then neither can the value that it stands in, however far outside. -/
namespace GrammarCheck
open Json (Value)

namespace Grammar

/-- Inside a value that is looked at in a role stands another one, and this is the role it has there. -/
inductive Holds : Role → Value → Role → Value → Prop
  | here (role : Role) (value : Value) : Holds role value role value
  | member {role place : Role} {members : List (List Nat × Value)} {key : List Nat} {value found : Value}
      (listed : (key, value) ∈ members) (inside : Holds (format.member role key) value place found) :
      Holds role (.object members) place found
  | item {role place : Role} {items : List Value} {i : Nat} {value found : Value} (listed : items[i]? = some value)
      (inside : Holds (format.item role i) value place found) : Holds role (.list items) place found

/-- There is something, but nothing that can be read in the role, however far the reader may go down. -/
def Refused : Role → Value → Prop
  | .grammar, value => value ≠ .null ∧ ∀ depth, ofValue? depth value = none
  | .rules, value => value ≠ .null ∧ ∀ depth, rulesOfValue? depth value = none
  | .rule, value => value ≠ .null ∧ ∀ depth, Rule.ofValue? depth value = none
  | .ruleList, value => value ≠ .null ∧ ∀ depth, value.items? Rule.ofValue? depth = none
  | .whole, _ => False

theorem field?_of_refused {field : Field} {value : Value} (refused : Refused field.role value) (depth : Nat) :
    field? depth field value = none := by
  cases field with
  | rules => exact refused.2 depth
  | extras => exact Value.optional?_eq_none refused.1 (refused.2 depth)
  | externals => exact Value.optional?_eq_none refused.1 (refused.2 depth)
  | _ => exact refused.elim

theorem ofValue?_eq_none {value inner : Value} {field : Field} (nothing : ∀ depth, field? depth field inner = none)
    (given : ∀ known, value.fields? Field.ofKey? Field.all = some known → (field, inner) ∈ known) (depth : Nat) :
    ofValue? depth value = none := by
  cases depth with
  | zero => rfl
  | succ depth =>
    have nothing := Json.record_eq_none given (nothing depth)
    simp only [ofValue?, Option.bind_eq_bind]
    rw [← Option.bind_assoc, nothing, Option.bind_none]

theorem rulesOfValue?_eq_none {members : List (List Nat × Value)} {key : List Nat} {value : Value}
    (inside : (key, value) ∈ members) (refused : Refused .rule value) (depth : Nat) :
    rulesOfValue? depth (.object members) = none := by
  cases depth with
  | zero => rfl
  | succ depth =>
    have nothing : namedRule? depth (key, value) = none := by simp [namedRule?, refused.2 depth]
    rw [rulesOfValue?, Json.mapM_eq_none inside nothing]
    rfl

end Grammar

namespace Rule

theorem field?_of_refused {field : Field} {value : Value} (refused : Grammar.Refused field.role value) (depth : Nat) :
    field? depth (ofValue? depth) (listOfValue? depth) field value = none := by
  cases field with
  | content => exact Value.optional?_eq_none refused.1 (refused.2 depth)
  | members => exact listOfValue?_eq_items? ▸ refused.2 depth
  | _ => exact refused.elim

theorem ofValue?_eq_none {value inner : Value} {field : Field}
    (nothing : ∀ depth, field? depth (ofValue? depth) (listOfValue? depth) field inner = none)
    (given : ∀ known, value.fields? Field.ofKey? Field.all = some known → (field, inner) ∈ known) (depth : Nat) :
    ofValue? depth value = none := by
  cases depth with
  | zero => rfl
  | succ depth =>
    have nothing := Json.record_eq_none given (nothing depth)
    rw [ofValue?, ofFields?, ← Option.bind_assoc, nothing, Option.bind_none]

theorem items?_eq_none {items : List Value} {value : Value} (inside : value ∈ items)
    (refused : Grammar.Refused .rule value) (depth : Nat) : (Value.list items).items? ofValue? depth = none := by
  cases depth with
  | zero => rfl
  | succ depth => exact Json.mapM_eq_none inside (refused.2 depth)

end Rule

namespace Grammar

theorem refused_of_member {role : Role} {members : List (List Nat × Value)} {key : List Nat} {value : Value}
    (listed : (key, value) ∈ members) (refused : Refused (format.member role key) value) :
    Refused role (.object members) := by
  have present : Value.object members ≠ .null := by simp
  cases role with
  | grammar =>
    simp only [format] at refused
    cases named : Json.fieldOf? Field.ofKey? key with
    | none => rw [named] at refused; exact refused.elim
    | some field =>
      rw [named] at refused
      refine ⟨present, ofValue?_eq_none (field?_of_refused refused) fun _ => ?_⟩
      exact Json.mem_fields?_of_member listed named
  | rules => exact ⟨present, rulesOfValue?_eq_none listed refused⟩
  | rule =>
    simp only [format] at refused
    cases named : Json.fieldOf? Rule.Field.ofKey? key with
    | none => rw [named] at refused; exact refused.elim
    | some field =>
      rw [named] at refused
      refine ⟨present, Rule.ofValue?_eq_none (Rule.field?_of_refused refused) fun _ => ?_⟩
      exact Json.mem_fields?_of_member listed named
  | ruleList => exact refused.elim
  | whole => exact refused.elim

theorem refused_of_item {role : Role} {items : List Value} {i : Nat} {value : Value}
    (listed : items[i]? = some value) (refused : Refused (format.item role i) value) :
    Refused role (.list items) := by
  have present : Value.list items ≠ .null := by simp
  cases role with
  | grammar =>
    simp only [format] at refused
    cases named : Field.all[i]? with
    | none => rw [named] at refused; exact refused.elim
    | some field =>
      rw [named] at refused
      refine ⟨present, ofValue?_eq_none (field?_of_refused refused) fun _ => ?_⟩
      exact Json.mem_fields?_of_item listed named
  | rules => exact refused.elim
  | rule =>
    simp only [format] at refused
    cases named : Rule.Field.all[i]? with
    | none => rw [named] at refused; exact refused.elim
    | some field =>
      rw [named] at refused
      refine ⟨present, Rule.ofValue?_eq_none (Rule.field?_of_refused refused) fun _ => ?_⟩
      exact Json.mem_fields?_of_item listed named
  | ruleList => exact ⟨present, Rule.items?_eq_none (List.mem_of_getElem? listed) refused⟩
  | whole => exact refused.elim

theorem refused_of_holds {role place : Role} {value found : Value} (holds : Holds role value place found)
    (refused : Refused place found) : Refused role value := by
  induction holds with
  | here => exact refused
  | member listed _ ih => exact refused_of_member listed (ih refused)
  | item listed _ ih => exact refused_of_item listed (ih refused)

end Grammar

end GrammarCheck
