import GrammarCheck.Proofs.Json.Shown
import Mathlib.Logic.Function.Basic

/-! Records: objects with known fields, or lists of their fields in order. Main statements: what is read of
a record depends on the value of each field and not on the order they stand in, and readers that take
members or items one after another read just that. -/
namespace GrammarCheck.Json
open Text (units)

section
variable {φ : Type}

/-- The members under known keys. Every key has to be a text, known or not. -/
def knownMembers (ofKey? : String → Option φ) : List (List Nat × Value) → Option (List (φ × Value))
  | [] => some []
  | (units, value) :: rest => do
    let key ← textOf? units
    let known ← knownMembers ofKey? rest
    match ofKey? key with
    | some field => some ((field, value) :: known)
    | none => some known

/-- The fields that a record gives. A list gives them in order, the last ones being left out. -/
def Value.fields? (ofKey? : String → Option φ) (all : List φ) : Value → Option (List (φ × Value))
  | .object members => knownMembers ofKey? members
  | .list items => if items.length ≤ all.length then some (all.zip items) else none
  | _ => none

variable {ofKey? : String → Option φ} {keyOf : φ → String}

/-- What the members give under known keys, in order. -/
def fieldsOf (ofKey? : String → Option φ) (members : List (List Nat × Value)) : List (φ × Value) :=
  members.filterMap fun member => ((textOf? member.1).bind ofKey?).map fun field => (field, member.2)

theorem knownMembers_eq_some {members : List (List Nat × Value)} {known : List (φ × Value)} :
    knownMembers ofKey? members = some known ↔
      (∀ member ∈ members, (textOf? member.1).isSome = true) ∧ known = fieldsOf ofKey? members := by
  induction members generalizing known with
  | nil =>
    rw [knownMembers, Option.some.injEq, fieldsOf, List.filterMap_nil]
    exact ⟨fun same => ⟨nofun, same.symm⟩, fun ⟨_, same⟩ => same.symm⟩
  | cons member members ih =>
    obtain ⟨key, value⟩ := member
    rw [fieldsOf] at ih
    rw [List.forall_mem_cons, fieldsOf, List.filterMap_cons, knownMembers]
    cases textOf? key with
    | none => simp
    | some name =>
      cases found : ofKey? name with
      | none => simp [found, ih]
      | some field =>
        simp only [Option.bind_eq_bind, Option.bind_some, Option.bind_eq_some_iff, found, Option.map_some, ih,
          Option.isSome_some, true_and, Option.some.injEq]
        constructor
        · rintro ⟨others, ⟨texts, rfl⟩, rfl⟩
          exact ⟨texts, rfl⟩
        · rintro ⟨texts, rfl⟩
          exact ⟨_, ⟨texts, rfl⟩, rfl⟩

theorem fieldsOf_append (front back : List (List Nat × Value)) :
    fieldsOf ofKey? (front ++ back) = fieldsOf ofKey? front ++ fieldsOf ofKey? back := List.filterMap_append

section
variable (exact : ∀ key field, ofKey? key = some field ↔ key = keyOf field)
include exact

theorem fieldsOf_insert (front back : List (List Nat × Value)) (field : φ) (value : Value) :
    fieldsOf ofKey? (front ++ (units (keyOf field).toList, value) :: back) =
      fieldsOf ofKey? front ++ (field, value) :: fieldsOf ofKey? back := by
  have named : ofKey? (keyOf field) = some field := (exact (keyOf field) field).mpr rfl
  rw [fieldsOf_append, fieldsOf, fieldsOf, List.filterMap_cons, textOf?_units, Option.bind_some, named]
  rfl

theorem not_mem_fieldsOf {members : List (List Nat × Value)} {field : φ}
    (absent : ∀ member ∈ members, textOf? member.1 ≠ some (keyOf field)) :
    field ∉ (fieldsOf ofKey? members).map Prod.fst := by
  intro inside
  obtain ⟨entry, listed, rfl⟩ := List.mem_map.mp inside
  obtain ⟨member, given, own⟩ := List.mem_filterMap.mp listed
  obtain ⟨found, named, rfl⟩ := Option.map_eq_some_iff.mp own
  obtain ⟨key, text, known⟩ := Option.bind_eq_some_iff.mp named
  rw [(exact key found).mp known] at text
  exact absent member given text

end

theorem mem_fields?_of_member {members : List (List Nat × Value)} {all : List φ} {key : List Nat} {value : Value}
    {field : φ} (inside : (key, value) ∈ members) (named : (textOf? key).bind ofKey? = some field)
    {known : List (φ × Value)} (read : (Value.object members).fields? ofKey? all = some known) : (field, value) ∈ known := by
  obtain ⟨_, rfl⟩ := knownMembers_eq_some.mp read
  exact List.mem_filterMap.mpr ⟨(key, value), inside, by rw [named]; rfl⟩

theorem mem_fields?_of_item {items : List Value} {all : List φ} {i : Nat} {value : Value} {field : φ}
    (inside : items[i]? = some value) (named : all[i]? = some field) {known : List (φ × Value)}
    (read : (Value.list items).fields? ofKey? all = some known) : (field, value) ∈ known := by
  rw [Value.fields?, Option.ite_none_right_eq_some] at read
  obtain ⟨_, same⟩ := read
  cases same
  exact List.mem_of_getElem? (List.getElem?_zip_eq_some.mpr ⟨named, inside⟩)

theorem knownMembers_of_texts (exact : ∀ key field, ofKey? key = some field ↔ key = keyOf field)
    {members : List (List Nat × Value)} (texts : ∀ member ∈ members, ∃ key : String, member.1 = units key.toList)
    (once : (members.map Prod.fst).Nodup) : ∃ known, knownMembers ofKey? members = some known ∧
      (known.map Prod.fst).Nodup ∧
      ∀ field value, (field, value) ∈ known ↔ (units (keyOf field).toList, value) ∈ members := by
  induction members with
  | nil => exact ⟨[], rfl, .nil, by simp⟩
  | cons member members ih =>
    obtain ⟨first, value⟩ := member
    obtain ⟨⟨key, rfl⟩, others⟩ := List.forall_mem_cons.mp texts
    obtain ⟨fresh, once⟩ := List.nodup_cons.mp once
    obtain ⟨known, found, distinct, same⟩ := ih others once
    have own (field : φ) : units (keyOf field).toList = units key.toList ↔ ofKey? key = some field :=
      Text.units_inj.trans (String.toList_inj.trans (eq_comm.trans (exact key field).symm))
    cases named : ofKey? key with
    | none =>
      refine ⟨known, by simp [knownMembers, found, named], distinct, fun field other => ?_⟩
      rw [same, List.mem_cons, Prod.mk.injEq, own, named]
      simp
    | some field =>
      refine ⟨(field, value) :: known, by simp [knownMembers, found, named], ?_, fun other given => ?_⟩
      · refine List.nodup_cons.mpr ⟨fun inside => ?_, distinct⟩
        obtain ⟨⟨_, given⟩, listed, rfl⟩ := List.mem_map.mp inside
        have also := (same _ given).mp listed
        rw [(own _).mpr named] at also
        exact fresh (List.mem_map.mpr ⟨_, also, rfl⟩)
      · rw [List.mem_cons, List.mem_cons, same, Prod.mk.injEq, Prod.mk.injEq, own, named, Option.some.injEq,
          eq_comm (a := other)]

end

section
variable {φ : Type} [DecidableEq φ] {Slot : φ → Type}

/-- Reads fields into parts that are empty so far. A field that is given twice is refused. -/
def fill (read : (field : φ) → Value → Option (Slot field)) (parts : (field : φ) → Option (Slot field)) :
    List (φ × Value) → Option ((field : φ) → Option (Slot field))
  | [] => some parts
  | (field, value) :: rest =>
    if (parts field).isSome then none
    else (read field value).bind fun part => fill read (Function.update parts field (some part)) rest

variable {read : (field : φ) → Value → Option (Slot field)}

/-- The parts hold what is read of the fields, and are as they were before elsewhere. -/
structure Fills (read : (field : φ) → Value → Option (Slot field)) (parts : (field : φ) → Option (Slot field))
    (known : List (φ × Value)) (filled : (field : φ) → Option (Slot field)) : Prop where
  once : (known.map Prod.fst).Nodup
  free : ∀ field ∈ known.map Prod.fst, parts field = none
  given : ∀ entry ∈ known, (read entry.1 entry.2).isSome = true ∧ filled entry.1 = read entry.1 entry.2
  absent : ∀ field ∉ known.map Prod.fst, filled field = parts field

omit [DecidableEq φ] in
theorem fills_nil {parts filled : (field : φ) → Option (Slot field)} :
    Fills read parts [] filled ↔ parts = filled := by
  constructor
  · intro fills
    exact funext fun field => (fills.absent field List.not_mem_nil).symm
  · rintro rfl
    exact ⟨.nil, nofun, nofun, fun _ _ => rfl⟩

theorem fills_cons {parts filled : (field : φ) → Option (Slot field)} {field : φ} {value : Value}
    {known : List (φ × Value)} : Fills read parts ((field, value) :: known) filled ↔ parts field = none ∧
      ∃ part, read field value = some part ∧ Fills read (Function.update parts field (some part)) known filled := by
  constructor
  · intro fills
    obtain ⟨fresh, once⟩ := List.nodup_cons.mp fills.once
    obtain ⟨here, free⟩ := List.forall_mem_cons.mp fills.free
    obtain ⟨⟨readable, own⟩, others⟩ := List.forall_mem_cons.mp fills.given
    obtain ⟨part, found⟩ := Option.isSome_iff_exists.mp readable
    refine ⟨here, part, found, once, fun other inside => ?_, others, fun other outside => ?_⟩
    · have different : other ≠ field := fun same => fresh (same ▸ inside)
      rw [Function.update_of_ne different]
      exact free other inside
    · by_cases same : other = field
      · subst same
        rw [Function.update_self, own, found]
      · rw [Function.update_of_ne same]
        exact fills.absent other (by simpa [same] using outside)
  · rintro ⟨here, part, found, fills⟩
    have fresh : field ∉ known.map Prod.fst := by
      intro inside
      have taken := fills.free field inside
      rw [Function.update_self] at taken
      contradiction
    have own : filled field = some part := by rw [fills.absent field fresh, Function.update_self]
    refine ⟨List.nodup_cons.mpr ⟨fresh, fills.once⟩, List.forall_mem_cons.mpr ⟨here, fun other inside => ?_⟩,
      List.forall_mem_cons.mpr ⟨?_, fills.given⟩, fun other outside => ?_⟩
    · have different : other ≠ field := fun same => fresh (same ▸ inside)
      rw [← fills.free other inside, Function.update_of_ne different]
    · rw [found, own]
      exact ⟨rfl, rfl⟩
    · obtain ⟨different, outside⟩ : other ≠ field ∧ other ∉ known.map Prod.fst := by simpa using outside
      rw [fills.absent other outside, Function.update_of_ne different]

theorem fill_eq_some {parts filled : (field : φ) → Option (Slot field)} {known : List (φ × Value)} :
    fill read parts known = some filled ↔ Fills read parts known filled := by
  induction known generalizing parts with
  | nil => rw [fill, Option.some.injEq, fills_nil]
  | cons entry known ih =>
    obtain ⟨field, value⟩ := entry
    rw [fill, fills_cons]
    cases parts field with
    | some part => simp
    | none => simp only [Option.isSome_none, Bool.false_eq_true, if_false, Option.bind_eq_some_iff, ih, true_and]

/-- A part that is filled already stays, and nothing depends on it if its field is not given. -/
theorem fill_update {parts : (field : φ) → Option (Slot field)} {known : List (φ × Value)} {field : φ}
    (absent : field ∉ known.map Prod.fst) (part : Option (Slot field)) :
    fill read (Function.update parts field part) known =
      (fill read parts known).map fun filled => Function.update filled field part := by
  induction known generalizing parts with
  | nil => rfl
  | cons entry known ih =>
    obtain ⟨other, value⟩ := entry
    obtain ⟨different, absent⟩ : field ≠ other ∧ field ∉ known.map Prod.fst := by simpa using absent
    rw [fill, fill, Function.update_of_ne different.symm]
    split
    · rfl
    · rw [Option.map_bind]
      congr 1
      funext own
      rw [Function.update_comm different]
      exact ih absent

/-- A field that is not given otherwise may stand anywhere, and fills its own part only. -/
theorem fill_insert {parts : (field : φ) → Option (Slot field)} {front back : List (φ × Value)} {field : φ}
    (free : parts field = none) (absent : field ∉ (front ++ back).map Prod.fst) (value : Value) :
    fill read parts (front ++ (field, value) :: back) = (fill read parts (front ++ back)).bind fun filled =>
      (read field value).map fun part => Function.update filled field (some part) := by
  induction front generalizing parts with
  | nil =>
    rw [List.nil_append] at absent
    rw [List.nil_append, List.nil_append, fill, free, Option.isSome_none, if_neg Bool.false_ne_true]
    cases read field value with
    | none => simp
    | some part =>
      rw [Option.bind_some, fill_update absent]
      cases fill read parts back <;> rfl
  | cons entry front ih =>
    obtain ⟨other, own⟩ := entry
    obtain ⟨different, absent⟩ : field ≠ other ∧ field ∉ (front ++ back).map Prod.fst := by simpa using absent
    rw [List.cons_append, List.cons_append, fill, fill]
    split
    · rfl
    · rw [Option.bind_assoc]
      congr 1
      funext part
      exact ih (by rw [Function.update_of_ne different, free]) absent

theorem fill_eq_none {parts : (field : φ) → Option (Slot field)} {known : List (φ × Value)} {entry : φ × Value}
    (inside : entry ∈ known) (nothing : read entry.1 entry.2 = none) : fill read parts known = none := by
  refine Option.eq_none_iff_forall_ne_some.mpr fun filled done => ?_
  have readable := ((fill_eq_some.mp done).given entry inside).1
  rw [nothing] at readable
  contradiction

/-- Nothing is read of a record if a field in it cannot be read. -/
theorem record_eq_none {ofKey? : String → Option φ} {all : List φ} {value inner : Value} {field : φ}
    (given : ∀ known, value.fields? ofKey? all = some known → (field, inner) ∈ known)
    (nothing : read field inner = none) : (value.fields? ofKey? all).bind (fill read fun _ => none) = none := by
  cases found : value.fields? ofKey? all with
  | none => rfl
  | some known => exact fill_eq_none (given known found) nothing

/-- What is in a part was read of the field. -/
theorem exists_of_fill {known : List (φ × Value)} {filled : (field : φ) → Option (Slot field)}
    (done : fill read (fun _ => none) known = some filled) {field : φ} {part : Slot field}
    (has : filled field = some part) : ∃ value, read field value = some part := by
  have fills := fill_eq_some.mp done
  by_cases inside : field ∈ known.map Prod.fst
  · obtain ⟨⟨_, value⟩, listed, rfl⟩ := List.mem_map.mp inside
    exact ⟨value, (fills.given _ listed).2.symm.trans has⟩
  · rw [fills.absent field inside] at has
    contradiction

omit [DecidableEq φ] in
theorem Fills.congr {parts filled : (field : φ) → Option (Slot field)} {known others : List (φ × Value)}
    (once : (others.map Prod.fst).Nodup) (fields : ∀ field, field ∈ known.map Prod.fst ↔ field ∈ others.map Prod.fst)
    (same : ∀ field value other, (field, value) ∈ known → (field, other) ∈ others → read field value = read field other)
    (fills : Fills read parts known filled) : Fills read parts others filled where
  once := once
  free := fun field inside => fills.free field ((fields field).mpr inside)
  given := by
    intro entry inside
    obtain ⟨⟨field, value⟩, listed, rfl⟩ := List.mem_map.mp ((fields entry.1).mpr (List.mem_map_of_mem inside))
    rw [← same _ value entry.2 listed inside]
    exact fills.given _ listed
  absent := fun field outside => fills.absent field fun inside => outside ((fields field).mp inside)

theorem fill_congr {parts : (field : φ) → Option (Slot field)} {known others : List (φ × Value)}
    (once : (known.map Prod.fst).Nodup) (also : (others.map Prod.fst).Nodup)
    (fields : ∀ field, field ∈ known.map Prod.fst ↔ field ∈ others.map Prod.fst)
    (same : ∀ field value other, (field, value) ∈ known → (field, other) ∈ others → read field value = read field other) :
    fill read parts known = fill read parts others := by
  refine Option.ext fun filled => ?_
  rw [fill_eq_some, fill_eq_some]
  constructor
  · exact Fills.congr also fields same
  · exact Fills.congr once (fun field => (fields field).symm) fun field value other inside listed =>
      (same field other value listed inside).symm

end

section
variable {φ δ ρ : Type} [DecidableEq φ] {Slot : φ → Type}
  {read : (field : φ) → Value → Option (Slot field)} {view : δ → (field : φ) → Option (Slot field)}
  {put : δ → Place → Node → φ → Except Fault δ} {build : ((field : φ) → Option (Slot field)) → Option ρ}

/-- Putting a field into a draft is filling its part with what is read of the value. -/
def Puts (read : (field : φ) → Value → Option (Slot field)) (view : δ → (field : φ) → Option (Slot field))
    (put : δ → Place → Node → φ → Except Fault δ) : Prop :=
  ∀ (draft : δ) (settled : Place) (node : Node) (value : Value) (field : φ), node.Shows value →
    (put draft settled node field).toOption.map view =
      (read field value).map fun part => Function.update (view draft) field (some part)

theorem map_view {draft : δ} {field : φ} {set : Slot field → δ} {result : Except Fault (Slot field)}
    {meaning : Option (Slot field)}
    (sets : ∀ part, view (set part) = Function.update (view draft) field (some part))
    (own : result.toOption = meaning) : (result >>= fun part => return set part).toOption.map view =
      meaning.map fun part => Function.update (view draft) field (some part) := by
  rw [← own]
  cases result with
  | error => rfl
  | ok part => exact congrArg some (sets part)

theorem bind_of_puts (puts : Puts read view put) {node : Node} {value : Value} (shows : node.Shows value)
    {draft : δ} {settled : Place} {field : φ} {next : δ → Except Fault ρ}
    (rest : ((field : φ) → Option (Slot field)) → Option ρ)
    (same : ∀ after part, view after = Function.update (view draft) field (some part) →
      (next after).toOption = rest (view after)) :
    (put draft settled node field >>= next).toOption =
      (read field value).bind fun part => rest (Function.update (view draft) field (some part)) := by
  have done := puts draft settled node value field shows
  cases taken : put draft settled node field with
  | error fault =>
    rw [taken] at done
    rw [Option.map_eq_none_iff.mp done.symm]
    rfl
  | ok after =>
    rw [taken] at done
    obtain ⟨part, found, filled⟩ := Option.map_eq_some_iff.mp done.symm
    rw [found]
    exact (same after part filled.symm).trans (congrArg rest filled.symm)

theorem members_toOption {has : δ → φ → Bool} {run : δ → Members → Except Fault ρ}
    (ofKey? : String → Option φ) (twice : φ → Place → Fault)
    (puts : Puts read view put) (taken : ∀ draft field, has draft field = (view draft field).isSome)
    (close : ∀ draft after, (run draft (.close after)).toOption = build (view draft))
    (member : ∀ draft key colon node settled next, run draft (.member key colon node settled next) = do
      match ofKey? (← key.text) with
      | some field =>
        if has draft field then .error (twice field colon)
        else do
          let draft ← put draft settled node field
          run draft next
      | none => do
        node.skip
        run draft next)
    {members : Members} {values : List (List Nat × Value)} (shows : members.Shows values) (draft : δ) :
    (run draft members).toOption =
      (knownMembers ofKey? values).bind fun known => (fill read (view draft) known).bind build := by
  induction values generalizing members draft with
  | nil =>
    cases shows
    exact close draft _
  | cons value values ih =>
    cases shows with
    | member named first others =>
      rw [member, toOption_bind, named.text_toOption, knownMembers]
      simp only [Option.bind_eq_bind, Option.bind_assoc]
      congr 1
      funext key
      cases ofKey? key with
      | none =>
        simp only [first.skip_eq, toOption_bind, toOption_ok, Option.bind_some]
        exact ih others draft
      | some field =>
        simp only [Option.bind_some, fill, taken]
        cases (view draft field).isSome with
        | true => simp
        | false =>
          simp only [Bool.false_eq_true, if_false]
          rw [bind_of_puts puts first
            (fun parts => (knownMembers ofKey? values).bind fun known => (fill read parts known).bind build)
            (fun after _ _ => ih others after), Option.bind_comm]
          simp only [Option.bind_assoc]

theorem items_toOption {run : δ → List φ → Items → Except Fault ρ} (puts : Puts read view put)
    (close : ∀ draft fields after, (run draft fields (.close after)).toOption = build (view draft))
    (item : ∀ draft field fields node settled next, run draft (field :: fields) (.item node settled next) = do
      let draft ← put draft settled node field
      run draft fields next)
    (more : ∀ draft node settled next, (run draft [] (.item node settled next)).toOption = none)
    {items : Items} {values : List Value} (shows : items.Shows values) {draft : δ} {fields : List φ}
    (once : fields.Nodup) (free : ∀ field ∈ fields, view draft field = none) :
    (run draft fields items).toOption =
      if values.length ≤ fields.length then (fill read (view draft) (fields.zip values)).bind build else none := by
  induction values generalizing items draft fields with
  | nil =>
    cases shows
    rw [close, List.zip_nil_right, List.length_nil, if_pos (Nat.zero_le _)]
    rfl
  | cons value values ih =>
    cases shows with
    | item first others =>
      cases fields with
      | nil => exact more draft _ _ _
      | cons field fields =>
        obtain ⟨fresh, once⟩ := List.nodup_cons.mp once
        obtain ⟨here, free⟩ := List.forall_mem_cons.mp free
        have still (after : δ) (part : Slot field)
            (filled : view after = Function.update (view draft) field (some part)) :
            ∀ other ∈ fields, view after other = none := by
          intro other inside
          have different : other ≠ field := fun same => fresh (same ▸ inside)
          rw [filled, Function.update_of_ne different]
          exact free other inside
        rw [item, bind_of_puts puts first
          (fun parts => if values.length ≤ fields.length then (fill read parts (fields.zip values)).bind build else none)
          (fun after part filled => ih others once (still after part filled)), List.zip_cons_cons, fill, here]
        simp only [List.length_cons, Nat.add_le_add_iff_right, Option.isSome_none, Bool.false_eq_true, if_false,
          Option.bind_assoc]
        split
        · rfl
        · cases read field value <;> rfl

end

end GrammarCheck.Json
