import GrammarCheck.Proofs.Json.Record
import Mathlib.Data.List.Nodup

/-! Values that say the same. The order of members says nothing, and neither do members that a format does
not count. Main statements: alike values nest equally deep where all members count, and records and lists
are read alike if their fields and items are. -/
namespace GrammarCheck.Json
open Text (units)

/-- What a value is looked at for in a role: the keys that count, and the roles of the values inside. -/
structure Format (Role : Type) where
  counts : Role → List Nat → Bool
  member : Role → List Nat → Role
  item : Role → Nat → Role

/-- The values say the same in a role. -/
inductive Format.Alike {Role : Type} (format : Format Role) : Role → Value → Value → Prop
  | scalar {role : Role} {value : Value} {lexeme : Lexeme} (single : value.lexemes = [lexeme]) :
      Alike format role value value
  | list {role : Role} {items others : List Value} (length : items.length = others.length)
      (each : ∀ i item other, items[i]? = some item → others[i]? = some other →
        Alike format (format.item role i) item other) : Alike format role (.list items) (.list others)
  | object {role : Role} {members others : List (List Nat × Value)}
      (keys : ∀ key, format.counts role key = true → (key ∈ members.map Prod.fst ↔ key ∈ others.map Prod.fst))
      (each : ∀ key value other, format.counts role key = true → (key, value) ∈ members → (key, other) ∈ others →
        Alike format (format.member role key) value other) : Alike format role (.object members) (.object others)

/-- All members count in the role, and in all that is inside. -/
structure Format.Whole {Role : Type} (format : Format Role) (role : Role) : Prop where
  counts : ∀ key, format.counts role key = true
  member : ∀ key, format.member role key = role
  item : ∀ i, format.item role i = role

section
variable {Role : Type} {format : Format Role} {role whole : Role} {value other : Value}

namespace Format.Alike

theorem symm (alike : format.Alike role value other) : format.Alike role other value := by
  induction alike with
  | scalar single => exact .scalar single
  | list length _ ih => exact .list length.symm fun i item other left right => ih i other item right left
  | object keys _ ih =>
    exact .object (fun key counted => (keys key counted).symm)
      fun key value other counted left right => ih key other value counted right left

theorem refl (proper : value.Proper) (role : Role) : format.Alike role value value := by
  induction proper generalizing role with
  | scalar single => exact .scalar single
  | list _ ih =>
    refine .list rfl fun i item other left right => ?_
    cases left.symm.trans right
    exact ih item (List.mem_of_getElem? left) _
  | object _ once _ ih =>
    refine .object (fun _ _ => Iff.rfl) fun key value other _ left right => ?_
    cases List.inj_on_of_nodup_map once left right rfl
    exact ih _ left _

theorem trans {last : Value} (first : format.Alike role value other) (second : format.Alike role other last) :
    format.Alike role value last := by
  induction first generalizing last with
  | scalar => exact second
  | @list role items middle length _ ih =>
    cases second with
    | scalar => exact .list length (by assumption)
    | @list _ _ others lengthToo each =>
      refine .list (length.trans lengthToo) fun i item other left right => ?_
      obtain ⟨bound, _⟩ := List.getElem?_eq_some_iff.mp right
      have between := List.getElem?_eq_getElem (lengthToo.symm ▸ bound)
      exact ih i item _ left between (each i _ other between right)
  | @object role members middle keys _ ih =>
    cases second with
    | scalar => exact .object keys (by assumption)
    | @object _ _ others keysToo each =>
      refine .object (fun key counted => (keys key counted).trans (keysToo key counted)) ?_
      intro key value other counted left right
      obtain ⟨⟨_, between⟩, inside, rfl⟩ := List.mem_map.mp ((keys key counted).mp (List.mem_map_of_mem left))
      exact ih _ value between counted left inside (each _ between other counted inside right)

/-- The order of members says nothing. -/
theorem of_perm {members others : List (List Nat × Value)} (proper : (Value.object members).Proper)
    (perm : members.Perm others) (role : Role) : format.Alike role (.object members) (.object others) := by
  obtain ⟨_, once, each⟩ := proper.members
  refine .object (fun key _ => (perm.map Prod.fst).mem_iff) fun key value other _ left right => ?_
  cases List.inj_on_of_nodup_map once left (perm.mem_iff.mpr right) rfl
  exact refl (each _ left) _

/-- A member that does not count says nothing. -/
theorem add_member {members : List (List Nat × Value)} (proper : (Value.object members).Proper) {key : List Nat}
    (ignored : format.counts role key = false) (value : Value) :
    format.Alike role (.object members) (.object ((key, value) :: members)) := by
  obtain ⟨_, once, each⟩ := proper.members
  have other {counted : List Nat} (counts : format.counts role counted = true) : counted ≠ key := by
    rintro rfl
    rw [ignored] at counts
    contradiction
  refine .object (fun name counts => ?_) fun name value also counts left right => ?_
  · rw [List.map_cons, List.mem_cons, or_iff_right (other counts)]
  · rcases List.mem_cons.mp right with same | right
    · exact absurd (congrArg Prod.fst same) (other counts)
    · cases List.inj_on_of_nodup_map once left right rfl
      exact refl (each _ left) _

theorem cons_member {members others : List (List Nat × Value)} {key : List Nat} {value other : Value}
    (fresh : key ∉ members.map Prod.fst) (freshToo : key ∉ others.map Prod.fst)
    (own : format.Alike (format.member role key) value other)
    (rest : format.Alike role (.object members) (.object others)) :
    format.Alike role (.object ((key, value) :: members)) (.object ((key, other) :: others)) := by
  cases rest with
  | scalar single => simp [Value.lexemes] at single
  | object keys each =>
    refine .object (fun name counted => ?_) fun name first second counted left right => ?_
    · rw [List.map_cons, List.map_cons, List.mem_cons, List.mem_cons, keys name counted]
    · rcases List.mem_cons.mp left with same | left
      · cases same
        rcases List.mem_cons.mp right with same | right
        · cases same
          exact own
        · exact absurd (List.mem_map.mpr ⟨_, right, rfl⟩) freshToo
      · rcases List.mem_cons.mp right with same | right
        · cases same
          exact absurd (List.mem_map.mpr ⟨_, left, rfl⟩) fresh
        · exact each name first second counted left right

theorem of_whole (all : format.Whole whole) (alike : format.Alike whole value other) (role : Role) :
    format.Alike role value other := by
  induction alike generalizing role with
  | scalar single => exact .scalar single
  | list length _ ih =>
    exact .list length fun i item other left right => ih i item other left right ((all.item i).symm ▸ all) _
  | object keys _ ih =>
    exact .object (fun key _ => keys key (all.counts key)) fun key value other _ left right =>
      ih key value other (all.counts key) left right ((all.member key).symm ▸ all) _

theorem nesting_le (all : format.Whole whole) (alike : format.Alike whole value other) :
    value.nesting ≤ other.nesting := by
  induction alike with
  | scalar => exact Nat.le_refl _
  | @list role items others length _ ih =>
    refine Nat.succ_le_succ (Value.nestingOfItems_le.mpr fun item inside => ?_)
    obtain ⟨i, bound, rfl⟩ := List.mem_iff_getElem.mp inside
    have also : i < others.length := length ▸ bound
    refine Nat.le_trans (ih i _ others[i] (List.getElem?_eq_getElem bound) (List.getElem?_eq_getElem also)
      ((all.item i).symm ▸ all)) ?_
    exact Value.nestingOfItems_le.mp (Nat.le_refl _) _ (List.getElem_mem also)
  | @object role members others keys _ ih =>
    refine Nat.succ_le_succ (Value.nestingOfMembers_le.mpr fun ⟨key, value⟩ inside => ?_)
    have listed := (keys key (all.counts key)).mp (List.mem_map_of_mem inside)
    obtain ⟨⟨_, other⟩, found, rfl⟩ := List.mem_map.mp listed
    refine Nat.le_trans (ih _ value other (all.counts _) inside found ((all.member _).symm ▸ all)) ?_
    exact Value.nestingOfMembers_le.mp (Nat.le_refl _) _ found

theorem nesting_eq (all : format.Whole whole) (alike : format.Alike whole value other) :
    value.nesting = other.nesting :=
  Nat.le_antisymm (alike.nesting_le all) (alike.symm.nesting_le all)

theorem scalar?_eq (alike : format.Alike role value other) : value.scalar? = other.scalar? := by
  cases alike with
  | scalar => rfl
  | list => simp
  | object => simp

theorem text?_eq (alike : format.Alike role value other) : value.text? = other.text? := by
  rw [Value.text?, Value.text?, alike.scalar?_eq]

theorem boolean?_eq (alike : format.Alike role value other) : value.boolean? = other.boolean? := by
  rw [Value.boolean?, Value.boolean?, alike.scalar?_eq]

theorem optional?_eq {α : Type} {read : Value → Option α} (alike : format.Alike role value other)
    (same : read value = read other) : value.optional? read = other.optional? read := by
  cases alike with
  | scalar => rfl
  | list => exact congrArg (some <$> ·) same
  | object => exact congrArg (some <$> ·) same

theorem items?_eq {α : Type} {read : Nat → Value → Option α} (alike : format.Alike role value other)
    (proper : value.Proper) (also : other.Proper) (depth : Nat)
    (same : ∀ i below item other, below < depth → item.Proper → other.Proper →
      format.Alike (format.item role i) item other → read below item = read below other) :
    value.items? read depth = other.items? read depth := by
  cases depth with
  | zero => rfl
  | succ depth =>
    cases alike with
    | scalar => rfl
    | object => rfl
    | @list _ items others length each =>
      have mapped : items.map (read depth) = others.map (read depth) := by
        refine List.ext_getElem (by simpa using length) fun i left right => ?_
        rw [List.getElem_map, List.getElem_map]
        rw [List.length_map] at left right
        exact same i depth _ _ (Nat.lt_succ_self depth) (proper.item (List.getElem_mem left))
          (also.item (List.getElem_mem right))
          (each i _ _ (List.getElem?_eq_getElem left) (List.getElem?_eq_getElem right))
      show items.mapM (read depth) = others.mapM (read depth)
      have folded := congrArg (List.mapM id) mapped
      rwa [List.mapM_map, List.mapM_map] at folded

end Format.Alike
end

section
variable {Role φ : Type} [DecidableEq φ] {Slot : φ → Type} {ofKey? : String → Option φ} {keyOf : φ → String}
  {read : (field : φ) → Value → Option (Slot field)} {format : Format Role} {role : Role} {roleOf : φ → Role}
  {all : List φ}

def fieldOf? (ofKey? : String → Option φ) (key : List Nat) : Option φ := (textOf? key).bind ofKey?

omit [DecidableEq φ] in
theorem fieldOf?_units (exact : ∀ key field, ofKey? key = some field ↔ key = keyOf field) (field : φ) :
    fieldOf? ofKey? (units (keyOf field).toList) = some field := by
  rw [fieldOf?, textOf?_units]
  exact (exact (keyOf field) field).mpr rfl

/-- Values in the role are looked at for these fields, by key or by position. -/
structure Format.Fields (format : Format Role) (role : Role) (keyOf : φ → String) (all : List φ)
    (roleOf : φ → Role) : Prop where
  counts : ∀ field, format.counts role (units (keyOf field).toList) = true
  member : ∀ field, format.member role (units (keyOf field).toList) = roleOf field
  item : ∀ i field, all[i]? = some field → format.item role i = roleOf field

omit [DecidableEq φ] in
theorem map_fst_zip (all : List φ) (values : List Value) : (all.zip values).map Prod.fst = all.take values.length := by
  induction all generalizing values with
  | nil => simp
  | cons field all ih => cases values <;> simp [ih]

/-- Alike records are read alike if their fields are. -/
theorem Format.Alike.record_eq {value other : Value} (alike : format.Alike role value other) (proper : value.Proper)
    (also : other.Proper) (exact : ∀ key field, ofKey? key = some field ↔ key = keyOf field) (once : all.Nodup)
    (fields : format.Fields role keyOf all roleOf)
    (same : ∀ field value other, value.Proper → other.Proper → format.Alike (roleOf field) value other →
      read field value = read field other) :
    (value.fields? ofKey? all).bind (fill read fun _ => none) =
      (other.fields? ofKey? all).bind (fill read fun _ => none) := by
  cases alike with
  | scalar => rfl
  | @list _ items others length each =>
    rw [Value.fields?, Value.fields?, length]
    split
    · have distinct (values : List Value) : ((all.zip values).map Prod.fst).Nodup :=
        map_fst_zip all values ▸ (List.take_sublist values.length all).nodup once
      refine fill_congr (distinct items) (distinct others) (fun field => ?_) fun field value other inside insideToo => ?_
      · rw [map_fst_zip, map_fst_zip, length]
      · obtain ⟨i, left⟩ := List.mem_iff_getElem?.mp inside
        obtain ⟨j, right⟩ := List.mem_iff_getElem?.mp insideToo
        obtain ⟨here, left⟩ := List.getElem?_zip_eq_some.mp left
        obtain ⟨there, right⟩ := List.getElem?_zip_eq_some.mp right
        obtain ⟨bound, _⟩ := List.getElem?_eq_some_iff.mp here
        have place : i = j := (List.getElem?_inj bound once).mp (here.trans there.symm)
        subst place
        refine same field value other (proper.item (List.mem_of_getElem? left))
          (also.item (List.mem_of_getElem? right)) ?_
        exact fields.item i field here ▸ each i value other left right
    · rfl
  | @object _ members others keys each =>
    obtain ⟨texts, distinct, below⟩ := proper.members
    obtain ⟨textsToo, distinctToo, belowToo⟩ := also.members
    obtain ⟨known, found, single, listed⟩ := knownMembers_of_texts exact texts distinct
    obtain ⟨knownToo, foundToo, singleToo, listedToo⟩ := knownMembers_of_texts exact textsToo distinctToo
    rw [Value.fields?, Value.fields?, found, foundToo]
    have has {entries : List (φ × Value)} {values : List (List Nat × Value)}
        (listed : ∀ field value, (field, value) ∈ entries ↔ (units (keyOf field).toList, value) ∈ values) (field : φ) :
        field ∈ entries.map Prod.fst ↔ units (keyOf field).toList ∈ values.map Prod.fst := by
      simp [listed]
    refine fill_congr single singleToo (fun field => ?_) fun field value other inside insideToo => ?_
    · rw [has listed, has listedToo]
      exact keys _ (fields.counts field)
    · have left := (listed field value).mp inside
      have right := (listedToo field other).mp insideToo
      refine same field value other (below _ left) (belowToo _ right) ?_
      exact fields.member field ▸ each _ value other (fields.counts field) left right

end
end GrammarCheck.Json
