import GrammarCheck.Json.Reading
import GrammarCheck.Proofs.Json.Tree

/-! Readers of a tree beside readers of the value it shows. Main statements: what is read of a tree is what
is read of its value, faults apart, and every well-formed value can be passed over. -/
namespace GrammarCheck.Json

section
variable {α β : Type}

@[simp] theorem toOption_ok (x : α) : (Except.ok x : Except Fault α).toOption = some x := rfl

@[simp] theorem toOption_error (fault : Fault) : (Except.error fault : Except Fault α).toOption = none := rfl

theorem toOption_eq_some {result : Except Fault α} {x : α} : result.toOption = some x ↔ result = .ok x := by
  cases result <;> simp [Except.toOption]

theorem toOption_eq_none {result : Except Fault α} : result.toOption = none ↔ ∃ fault, result = .error fault := by
  cases result <;> simp [Except.toOption]

@[simp] theorem toOption_bind (result : Except Fault α) (next : α → Except Fault β) :
    (result >>= next).toOption = result.toOption.bind fun x => (next x).toOption := by
  cases result <;> rfl

@[simp] theorem toOption_map (result : Except Fault α) (f : α → β) :
    (f <$> result).toOption = result.toOption.map f := by
  cases result <;> rfl

theorem toOption_descend (depth : Nat) (place : Place) (read : Nat → Except Fault α) :
    (descend depth place read).toOption =
      match depth with
      | 0 => none
      | depth + 1 => (read depth).toOption := by
  cases depth <;> rfl

end

theorem Literal.Shows.text_toOption {key : Literal} {units : List Nat} (named : key.Shows (.string units)) :
    key.text.toOption = textOf? units := by
  have kept : key.value.toOption = (textOf? units).map .string := named.kept.trans (Value.scalar?_string units)
  rw [Literal.text]
  cases value : key.value with
  | error fault =>
    rw [value] at kept
    cases found : textOf? units with
    | none => rfl
    | some text => rw [found] at kept; contradiction
  | ok scalar =>
    rw [value] at kept
    cases found : textOf? units with
    | none => rw [found] at kept; contradiction
    | some text =>
      rw [found] at kept
      cases kept
      rfl

namespace Node.Shows
variable {node : Node} {value : Value}

theorem scalar?_eq (shows : node.Shows value) : node.scalar? = value.scalar? := by
  cases shows with
  | scalar single shown =>
    rw [Value.scalar?, single]
    exact shown.kept
  | list => exact (Value.scalar?_list _).symm
  | object => exact (Value.scalar?_object _).symm

theorem keep_of_scalar? {scalar : Scalar} (shows : node.Shows value) (found : value.scalar? = some scalar) (depth : Nat) :
    node.keep depth = .ok () := by
  cases shows with
  | scalar single shown =>
    have kept : Except.toOption _ = some scalar := shown.kept.trans (by rw [← found, Value.scalar?, single])
    rw [keep]
    cases taken : Literal.value _ with
    | ok => rfl
    | error fault =>
      rw [taken] at kept
      contradiction
  | list => simp at found
  | object => simp at found

theorem isNull_iff (shows : node.Shows value) : node.isNull = true ↔ value = .null := by
  rw [isNull, shows.scalar?_eq]
  cases value with
  | null => simp
  | boolean => simp
  | number literal => cases found : Number.ofLiteral? literal <;> simp [found]
  | string units => cases found : textOf? units <;> simp [found]
  | list => simp
  | object => simp

theorem text_toOption (shows : node.Shows value) : node.text.toOption = value.text? := by
  rw [text, shows.scalar?_eq, Value.text?]
  cases value.scalar? with
  | none => rfl
  | some scalar => cases scalar <;> rfl

theorem boolean_toOption (shows : node.Shows value) : node.boolean.toOption = value.boolean? := by
  rw [boolean, shows.scalar?_eq, Value.boolean?]
  cases value.scalar? with
  | none => rfl
  | some scalar => cases scalar <;> rfl

theorem optional_toOption {α : Type} {read : Node → Except Fault α} {meaning : Value → Option α}
    (shows : node.Shows value) (own : (read node).toOption = meaning value) :
    (node.optional read).toOption = value.optional? meaning := by
  have nothing := shows.isNull_iff
  by_cases null : value = .null
  · subst null
    rw [optional, if_pos (nothing.mpr rfl)]
    rfl
  · rw [optional, if_neg (null ∘ nothing.mp), toOption_map, own, Value.optional?]
    · rfl
    · exact null

end Node.Shows

theorem Items.Shows.skip_eq {items : Items} {values : List Value} (shows : items.Shows values)
    (each : ∀ value ∈ values, ∀ node : Node, node.Shows value → node.skip = .ok ()) : items.skip = .ok () := by
  induction values generalizing items with
  | nil => cases shows; rfl
  | cons value values ih =>
    cases shows with
    | item first others =>
      obtain ⟨own, rest⟩ := List.forall_mem_cons.mp each
      rw [Items.skip, own _ first, ih others rest]
      rfl

theorem Members.Shows.skip_eq {members : Members} {values : List (List Nat × Value)} (shows : members.Shows values)
    (each : ∀ value ∈ values, ∀ node : Node, node.Shows value.2 → node.skip = .ok ()) : members.skip = .ok () := by
  induction values generalizing members with
  | nil => cases shows; rfl
  | cons value values ih =>
    cases shows with
    | member named first others =>
      obtain ⟨own, rest⟩ := List.forall_mem_cons.mp each
      rw [Members.skip, named.skipped]
      dsimp only
      rw [own _ first, ih others rest]
      rfl

theorem Node.Shows.skip_eq {node : Node} {value : Value} (shows : node.Shows value) : node.skip = .ok () := by
  induction value using Value.induction generalizing node with
  | scalar value lexeme single =>
    cases shows with
    | scalar _ shown => rw [skip, shown.skipped]
    | list => simp [Value.lexemes] at single
    | object => simp [Value.lexemes] at single
  | list items each =>
    cases shows with
    | scalar single => simp [Value.lexemes] at single
    | list shown => exact shown.skip_eq fun item inside node shows => each item inside shows
  | object members each =>
    cases shows with
    | scalar single => simp [Value.lexemes] at single
    | object shown => exact shown.skip_eq fun member inside node shows => each member inside shows

theorem Items.Shows.values_toOption {α : Type} {read : Node → Except Fault α} {meaning : Value → Option α}
    {items : Items} {values : List Value} (shows : items.Shows values)
    (each : ∀ (node : Node) (value : Value), node.Shows value → (read node).toOption = meaning value) :
    (items.values read).toOption = values.mapM meaning := by
  induction values generalizing items with
  | nil => cases shows; rfl
  | cons value values ih =>
    cases shows with
    | item first others =>
      rw [Items.values, List.mapM_cons, toOption_bind, each _ _ first]
      simp only [toOption_bind, ih others, toOption_ok]
      rfl

theorem Node.Shows.values_toOption {α : Type} {read : Nat → Node → Except Fault α}
    {meaning : Nat → Value → Option α} {node : Node} {value : Value} (shows : node.Shows value)
    (each : ∀ (depth : Nat) (node : Node) (value : Value), node.Shows value →
      (read depth node).toOption = meaning depth value) (depth : Nat) :
    (node.values depth read).toOption = value.items? meaning depth := by
  cases shows with
  | scalar single shown =>
    rw [Node.values]
    · cases value with
      | list => simp [Value.lexemes] at single
      | _ => cases depth <;> rfl
    · intros
      contradiction
  | object => cases depth <;> rfl
  | list shown =>
    rw [Node.values, toOption_descend]
    cases depth with
    | zero => rfl
    | succ depth => exact shown.values_toOption (each depth)

/-- What is read of a document is what is read of its value. -/
theorem Document.toOption_read {α : Type} {text : String} {value : Value} {read : Node → Except Fault α}
    {meaning : Option α} (denotes : Denotes text value)
    (own : ∀ node : Node, node.Shows value → (read node).toOption = meaning) :
    ((ofText text).read read).toOption = meaning := by
  obtain ⟨shows, whole⟩ := ofText_of_denotes denotes
  rw [Document.read, whole, ← own _ shows]
  cases read (ofText text).root <;> rfl

end GrammarCheck.Json
