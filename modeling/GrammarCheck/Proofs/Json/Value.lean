import GrammarCheck.Proofs.Json.Number

/-! JSON values by themselves: how deep they nest, what a scalar amounts to, and what readers of a value
ask of it. Texts and numbers that cannot be kept amount to nothing. -/
namespace GrammarCheck.Json

namespace Value

theorem induction {motive : Value → Prop}
    (scalar : ∀ value lexeme, value.lexemes = [lexeme] → motive value)
    (list : ∀ items, (∀ item ∈ items, motive item) → motive (.list items))
    (object : ∀ members, (∀ member ∈ members, motive member.2) → motive (.object members))
    (value : Value) : motive value := by
  refine @Value.rec motive (fun items => ∀ item ∈ items, motive item)
    (fun members => ∀ member ∈ members, motive member.2) (fun member => motive member.2)
    ?null ?boolean ?number ?string list object ?nil ?cons ?noMember ?member ?pair value
  case null => exact scalar .null .null rfl
  case boolean => exact fun value => scalar (.boolean value) (.boolean value) rfl
  case number => exact fun literal => scalar (.number literal) (.number literal) rfl
  case string => exact fun units => scalar (.string units) (.string units) rfl
  case nil => exact fun _ absent => nomatch absent
  case cons => exact fun _ _ first others => List.forall_mem_cons.mpr ⟨first, others⟩
  case noMember => exact fun _ absent => nomatch absent
  case member => exact fun _ _ first others => List.forall_mem_cons.mpr ⟨first, others⟩
  case pair => exact fun _ _ holds => holds

mutual

/-- How deep lists and objects are nested in a value. -/
def nesting : Value → Nat
  | .list items => nestingOfItems items + 1
  | .object members => nestingOfMembers members + 1
  | _ => 0

def nestingOfItems : List Value → Nat
  | [] => 0
  | item :: rest => max item.nesting (nestingOfItems rest)

def nestingOfMembers : List (List Nat × Value) → Nat
  | [] => 0
  | (_, value) :: rest => max value.nesting (nestingOfMembers rest)

end

theorem nestingOfItems_le {items : List Value} {depth : Nat} :
    nestingOfItems items ≤ depth ↔ ∀ item ∈ items, item.nesting ≤ depth := by
  induction items with
  | nil => simp [nestingOfItems]
  | cons item rest ih => rw [nestingOfItems, Nat.max_le, ih, List.forall_mem_cons]

theorem nestingOfMembers_le {members : List (List Nat × Value)} {depth : Nat} :
    nestingOfMembers members ≤ depth ↔ ∀ member ∈ members, member.2.nesting ≤ depth := by
  induction members with
  | nil => simp [nestingOfMembers]
  | cons member rest ih => rw [nestingOfMembers, Nat.max_le, ih, List.forall_mem_cons]

end Value

def Lexeme.scalar? : Lexeme → Option Scalar
  | .null => some .null
  | .boolean value => some (.boolean value)
  | .number literal => (Number.ofLiteral? literal).map .number
  | .string units => (Text.ofUnits? units).map fun text => .string (String.ofList text)
  | _ => none

def Value.scalar? (value : Value) : Option Scalar :=
  match value.lexemes with
  | [lexeme] => lexeme.scalar?
  | _ => none

def textOf? (units : List Nat) : Option String := (Text.ofUnits? units).map String.ofList

@[simp] theorem textOf?_units (text : String) : textOf? (Text.units text.toList) = some text := by
  simp [textOf?]

theorem textOf?_eq_some {written : List Nat} {spelling : List Char}
    (spelled : (Lexeme.string written).Spelled spelling) {text : String} :
    textOf? written = some text ↔ written = Text.units text.toList := by
  refine ⟨fun found => ?_, fun same => same ▸ textOf?_units text⟩
  cases spelled with
  | string inside =>
    obtain ⟨read, given, rfl⟩ := Option.map_eq_some_iff.mp found
    rw [String.toList_ofList]
    exact (Text.ofUnits?_eq_some inside.lt).mp given

namespace Value

@[simp] theorem scalar?_null : Value.null.scalar? = some .null := rfl

@[simp] theorem scalar?_boolean (value : Bool) : (Value.boolean value).scalar? = some (.boolean value) := rfl

@[simp] theorem scalar?_number (literal : List Char) :
    (Value.number literal).scalar? = (Number.ofLiteral? literal).map .number := rfl

@[simp] theorem scalar?_string (units : List Nat) :
    (Value.string units).scalar? = (textOf? units).map .string := by
  show (Text.ofUnits? units).map _ = ((Text.ofUnits? units).map _).map _
  rw [Option.map_map]
  rfl

@[simp] theorem scalar?_list (items : List Value) : (Value.list items).scalar? = none := by
  rw [scalar?, lexemes]
  split
  · next same => simp at same
  · rfl

@[simp] theorem scalar?_object (members : List (List Nat × Value)) : (Value.object members).scalar? = none := by
  rw [scalar?, lexemes]
  split
  · next same => simp at same
  · rfl

def text? (value : Value) : Option String :=
  match value.scalar? with
  | some (.string text) => some text
  | _ => none

def boolean? (value : Value) : Option Bool :=
  match value.scalar? with
  | some (.boolean value) => some value
  | _ => none

/-- Null means that nothing is given. -/
def optional? {α : Type} (read : Value → Option α) : Value → Option (Option α)
  | .null => some none
  | value => some <$> read value

theorem optional?_eq_some {α : Type} {read : Value → Option α} {value : Value} {x : α}
    (given : value.optional? read = some (some x)) : read value = some x := by
  cases value with
  | null => exact nomatch Option.some.inj given
  | _ => simpa [optional?] using given

theorem optional?_eq_none {α : Type} {read : Value → Option α} {value : Value} (present : value ≠ .null)
    (nothing : read value = none) : value.optional? read = none := by
  rw [optional?, nothing]
  · rfl
  · exact present

/-- The items of a list, each read one level further down. -/
def items? {α : Type} (read : Nat → Value → Option α) : Nat → Value → Option (List α)
  | depth + 1, .list items => items.mapM (read depth)
  | _, _ => none

/-- The keys of every object are texts, each at most once. -/
inductive Proper : Value → Prop
  | scalar {value : Value} {lexeme : Lexeme} (single : value.lexemes = [lexeme]) : Proper value
  | list {items : List Value} (each : ∀ item ∈ items, Proper item) : Proper (.list items)
  | object {members : List (List Nat × Value)}
      (texts : ∀ member ∈ members, ∃ key : String, member.1 = Text.units key.toList)
      (once : (members.map Prod.fst).Nodup) (each : ∀ member ∈ members, Proper member.2) : Proper (.object members)

theorem Proper.item {items : List Value} {item : Value} (proper : (Value.list items).Proper)
    (inside : item ∈ items) : item.Proper := by
  cases proper with
  | scalar single => simp [lexemes] at single
  | list each => exact each item inside

theorem Proper.members {members : List (List Nat × Value)} (proper : (Value.object members).Proper) :
    (∀ member ∈ members, ∃ key : String, member.1 = Text.units key.toList) ∧ (members.map Prod.fst).Nodup ∧
      ∀ member ∈ members, member.2.Proper := by
  cases proper with
  | scalar single => simp [lexemes] at single
  | object texts once each => exact ⟨texts, once, each⟩

def ofText (text : String) : Value := .string (Text.units text.toList)

/-- Members with texts for keys. -/
def keyed (members : List (String × Value)) : List (List Nat × Value) :=
  members.map fun member => (Text.units member.1.toList, member.2)

def ofMembers (members : List (String × Value)) : Value := .object (keyed members)

theorem mem_keyed {members : List (String × Value)} {name : String} {value : Value} :
    (Text.units name.toList, value) ∈ keyed members ↔ (name, value) ∈ members := by
  simp [keyed, Text.units_inj, String.toList_inj]

theorem texts_keyed (members : List (String × Value)) :
    ∀ member ∈ keyed members, ∃ key : String, member.1 = Text.units key.toList := by
  intro member inside
  obtain ⟨named, _, rfl⟩ := List.mem_map.mp inside
  exact ⟨named.1, rfl⟩

theorem nodup_keyed {members : List (String × Value)} (once : (members.map Prod.fst).Nodup) :
    ((keyed members).map Prod.fst).Nodup := by
  rw [keyed, List.map_map]
  exact List.pairwise_map.mpr ((List.pairwise_map.mp once).imp fun different same =>
    different (String.toList_inj.mp (Text.units_inj.mp same)))

theorem nesting_ofMembers {members : List (String × Value)} {depth : Nat} :
    (ofMembers members).nesting ≤ depth + 1 ↔ ∀ member ∈ members, member.2.nesting ≤ depth := by
  rw [ofMembers, nesting, Nat.add_le_add_iff_right, nestingOfMembers_le, keyed, List.forall_mem_map]

@[simp] theorem text?_ofText (text : String) : (ofText text).text? = some text := by
  simp [ofText, text?]

theorem proper_ofText (text : String) : (ofText text).Proper := .scalar rfl

theorem proper_ofMembers {members : List (String × Value)} (once : (members.map Prod.fst).Nodup)
    (each : ∀ member ∈ members, member.2.Proper) : (ofMembers members).Proper :=
  .object (texts_keyed members) (nodup_keyed once) (List.forall_mem_map.mpr each)

end Value

theorem mapM_eq_some {α β : Type} {read : α → Option β} {items : List α} {found : List β} :
    items.mapM read = some found ↔ items.map read = found.map some := by
  induction items generalizing found with
  | nil => cases found <;> simp
  | cons item items ih =>
    rw [List.mapM_cons, List.map_cons]
    cases read item with
    | none => cases found <;> simp
    | some x =>
      cases found with
      | nil => cases items.mapM read <;> simp
      | cons y found =>
        rw [List.map_cons, List.cons.injEq, ← ih]
        cases items.mapM read <;> simp

theorem exists_of_mapM {α β : Type} {read : α → Option β} {items : List α} {found : List β}
    (done : items.mapM read = some found) {x : β} (inside : x ∈ found) : ∃ item ∈ items, read item = some x := by
  have listed : some x ∈ items.map read := mapM_eq_some.mp done ▸ List.mem_map_of_mem inside
  exact List.mem_map.mp listed

theorem mapM_eq_none {α β : Type} {read : α → Option β} {items : List α} {item : α} (inside : item ∈ items)
    (nothing : read item = none) : items.mapM read = none := by
  refine Option.eq_none_iff_forall_ne_some.mpr fun found done => ?_
  have listed : none ∈ found.map some := mapM_eq_some.mp done ▸ nothing ▸ List.mem_map_of_mem inside
  simp at listed

theorem mapM_of_readable {α β : Type} {read : α → Option β} {items : List α}
    (each : ∀ item ∈ items, (read item).isSome = true) : ∃ found, items.mapM read = some found := by
  induction items with
  | nil => exact ⟨[], rfl⟩
  | cons item items ih =>
    obtain ⟨own, others⟩ := List.forall_mem_cons.mp each
    obtain ⟨x, here⟩ := Option.isSome_iff_exists.mp own
    obtain ⟨found, rest⟩ := ih others
    exact ⟨x :: found, by rw [List.mapM_cons, here, rest]; rfl⟩

end GrammarCheck.Json
