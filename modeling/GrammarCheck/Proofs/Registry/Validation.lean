import GrammarCheck.Proofs.Registry.Meaning
import GrammarCheck.Proofs.Registry.Relocation
import GrammarCheck.Proofs.Text.ByteOrder

/-! Which tables of grammars are refused, and why. Main statement: a table is taken as it is unless it is
empty or some name in it is malformed or was there before, and then the first such name is the one told of. -/
namespace GrammarCheck
open String (utf8EncodeChar)

/-- The bytes of small ASCII letters, digits, underscores and hyphens. -/
def NameByte (byte : UInt8) : Prop :=
  0x61 ≤ byte ∧ byte ≤ 0x7a ∨ 0x30 ≤ byte ∧ byte ≤ 0x39 ∨ byte = 0x5f ∨ byte = 0x2d

def MalformedName (name : String) : Prop := name = "" ∨ ∃ byte ∈ Text.bytes name, ¬ NameByte byte

theorem nameByte_ofNat {code : Nat} (small : code < 256) : NameByte (UInt8.ofNat code) ↔
    97 ≤ code ∧ code ≤ 122 ∨ 48 ≤ code ∧ code ≤ 57 ∨ code = 95 ∨ code = 45 := by
  simp only [NameByte, UInt8.le_iff_toNat_le, ← UInt8.toNat_inj, UInt8.toNat_ofNat_of_lt' small]
  rfl

theorem nameChar_iff {c : Char} : 'a' ≤ c ∧ c ≤ 'z' ∨ '0' ≤ c ∧ c ≤ '9' ∨ c = '_' ∨ c = '-' ↔
    97 ≤ c.val.toNat ∧ c.val.toNat ≤ 122 ∨ 48 ≤ c.val.toNat ∧ c.val.toNat ≤ 57 ∨ c.val.toNat = 95 ∨
      c.val.toNat = 45 := by
  simp only [Char.le_def, UInt32.le_iff_toNat_le, Char.ext_iff, ← UInt32.toNat_inj]
  rfl

/-- The first byte of what is no ASCII is larger than all ASCII. -/
theorem exists_utf8EncodeChar {c : Char} (other : 127 < c.val.toNat) :
    ∃ code rest, 192 ≤ code ∧ code < 256 ∧ utf8EncodeChar c = UInt8.ofNat code :: rest := by
  unfold utf8EncodeChar
  simp only [Nat.not_le.mpr other, if_false]
  split_ifs
  · exact ⟨_, _, by omega, by omega, rfl⟩
  · exact ⟨_, _, by omega, by omega, rfl⟩
  · exact ⟨_, _, by omega, by omega, rfl⟩

theorem nameByte_utf8EncodeChar (c : Char) : (∀ byte ∈ utf8EncodeChar c, NameByte byte) ↔
    'a' ≤ c ∧ c ≤ 'z' ∨ '0' ≤ c ∧ c ≤ '9' ∨ c = '_' ∨ c = '-' := by
  rw [nameChar_iff]
  rcases Nat.lt_or_ge 127 c.val.toNat with other | ascii
  · obtain ⟨code, rest, large, small, encoded⟩ := exists_utf8EncodeChar other
    rw [encoded, List.forall_mem_cons, nameByte_ofNat small]
    omega
  · have encoded : utf8EncodeChar c = [UInt8.ofNat c.val.toNat] := if_pos ascii
    rw [encoded, List.forall_mem_singleton, nameByte_ofNat (by omega)]

theorem isGrammarName_eq_true_iff {name : String} : isGrammarName name = true ↔ ¬ MalformedName name := by
  have each : (∀ byte ∈ Text.bytes name, NameByte byte) ↔
      ∀ c ∈ name.toList, ∀ byte ∈ utf8EncodeChar c, NameByte byte := by
    rw [Text.bytes_eq_flatMap, List.forall_mem_flatMap]
  rw [isGrammarName_iff, MalformedName]
  simp only [not_or, not_exists, not_and, not_not]
  rw [each]
  simp only [nameByte_utf8EncodeChar]

/-- The name at this place is malformed or stands at an earlier place too. -/
def Offends (names : List String) (place : Nat) (name : String) : Prop :=
  names[place]? = some name ∧ (MalformedName name ∨ name ∈ names.take place)

def FirstOffence (names : List String) (place : Nat) (name : String) : Prop :=
  Offends names place name ∧ ∀ earlier < place, ∀ other, ¬ Offends names earlier other

/-- The result on a table of these entries, which have these names. -/
structure Registry.Judged (names : List String) (entries : List Entry) (result : Except RegistryError Registry) :
    Prop where
  empty : result = .error .empty ↔ entries = []
  accepted : (∃ registry, result = .ok registry) ↔ entries ≠ [] ∧ ∀ place name, ¬ Offends names place name
  kept : ∀ registry, result = .ok registry → registry = ⟨entries⟩
  malformed : ∀ place name, FirstOffence names place name → MalformedName name → result = .error (.invalidName name)
  repeated : ∀ place name, FirstOffence names place name → ¬ MalformedName name → result = .error (.duplicate name)

theorem not_offends_iff {names : List String} : (∀ place name, ¬ Offends names place name) ↔
    (∀ name ∈ names, ¬ MalformedName name) ∧ names.Nodup := by
  constructor
  · intro none
    constructor
    · intro name listed malformed
      obtain ⟨place, found⟩ := List.mem_iff_getElem?.mp listed
      exact none place name ⟨found, .inl malformed⟩
    · refine List.pairwise_iff_getElem.mpr fun earlier place _ bound less same => ?_
      have taken : names[earlier] ∈ names.take place := List.mem_take_iff_getElem.mpr ⟨earlier, by omega, rfl⟩
      exact none place _ ⟨List.getElem?_eq_getElem bound, .inr (same ▸ taken)⟩
  · rintro ⟨valid, distinct⟩ place name ⟨found, malformed | taken⟩
    · exact valid name (List.mem_of_getElem? found) malformed
    · obtain ⟨bound, rfl⟩ := List.getElem?_eq_some_iff.mp found
      obtain ⟨earlier, before, same⟩ := List.mem_take_iff_getElem.mp taken
      have equal := (List.Nodup.getElem_inj_iff distinct).mp same
      omega

theorem offends_take {names : List String} {place earlier : Nat} {name : String}
    (offends : Offends (names.take place) earlier name) : Offends names earlier name ∧ earlier < place := by
  obtain ⟨found, cause⟩ := offends
  rw [List.getElem?_take] at found
  split_ifs at found with within
  rw [List.take_take, Nat.min_eq_left within.le] at cause
  exact ⟨⟨found, cause⟩, within⟩

namespace Registry

theorem nameFault?_append {before : List Entry} {taken : List String} (passed : nameFault? taken before = none)
    (after : List Entry) :
    nameFault? taken (before ++ after) = nameFault? ((before.map (·.name)).reverse ++ taken) after := by
  induction before generalizing taken with
  | nil => rfl
  | cons first rest ih =>
    obtain ⟨valid, free, later⟩ := nameFault?_cons_eq_none.mp passed
    rw [List.cons_append, nameFault?, valid]
    simp [free, ih later]

theorem nameFault?_eq_none_iff {entries : List Entry} : nameFault? [] entries = none ↔
    ∀ place name, ¬ Offends (entries.map (·.name)) place name := by
  rw [nameFault?_eq_none, not_offends_iff, List.forall_mem_map]
  simp only [isGrammarName_eq_true_iff]
  simp

theorem exists_split_of_getElem? {entries : List Entry} {place : Nat} {entry : Entry}
    (present : entries[place]? = some entry) : ∃ after, entries = entries.take place ++ entry :: after := by
  obtain ⟨bound, rfl⟩ := List.getElem?_eq_some_iff.mp present
  refine ⟨entries.drop (place + 1), ?_⟩
  rw [← List.drop_eq_getElem_cons bound, List.take_append_drop]

/-- What comes before the first offence passes, so that the entry there is told of. -/
theorem nameFault?_of_firstOffence {entries : List Entry} {place : Nat} {name : String}
    (first : FirstOffence (entries.map (·.name)) place name) : nameFault? [] entries =
      some (if isGrammarName name then .duplicate name else .invalidName name) := by
  obtain ⟨⟨found, cause⟩, earliest⟩ := first
  rw [List.getElem?_map, Option.map_eq_some_iff] at found
  obtain ⟨entry, present, rfl⟩ := found
  obtain ⟨after, split⟩ := exists_split_of_getElem? present
  have passed : nameFault? [] (entries.take place) = none := by
    refine nameFault?_eq_none_iff.mpr fun earlier other offends => ?_
    rw [List.map_take] at offends
    obtain ⟨offence, less⟩ := offends_take offends
    exact earliest earlier less other offence
  rw [split, nameFault?_append passed, nameFault?]
  cases valid : isGrammarName entry.name with
  | false => simp
  | true =>
    have taken := cause.resolve_left (isGrammarName_eq_true_iff.mp valid)
    have listed : entry.name ∈ ((entries.take place).map (·.name)).reverse ++ [] := by
      rw [List.append_nil, List.mem_reverse, List.map_take]
      exact taken
    simp only [Bool.not_true, Bool.false_eq_true, if_false, if_true, List.contains_iff_mem.mpr listed]

theorem judged_ofEntries (entries : List Entry) :
    Judged (entries.map (·.name)) entries (ofEntries entries) := by
  by_cases empty : entries = []
  · subst empty
    have refused : ofEntries [] = .error .empty := rfl
    rw [refused]
    exact {
      empty := by simp
      accepted := by simp
      kept := by simp
      malformed := by
        rintro place name ⟨⟨found, _⟩, _⟩
        simp at found
      repeated := by
        rintro place name ⟨⟨found, _⟩, _⟩
        simp at found }
  · have result : ofEntries entries = (nameFault? [] entries).elim (.ok ⟨entries⟩) .error := by
      rw [ofEntries, if_neg (by simpa using empty)]
      cases nameFault? [] entries <;> rfl
    rw [result]
    exact {
      empty := by
        cases found : nameFault? [] entries with
        | none => simp [empty]
        | some fault =>
          obtain ⟨name, rfl | rfl⟩ := nameFault?_names found <;> simp [empty]
      accepted := by
        rw [← nameFault?_eq_none_iff]
        cases nameFault? [] entries <;> simp [empty]
      kept := by
        intro registry
        cases nameFault? [] entries <;> simp [eq_comm]
      malformed := by
        intro place name first malformed
        have valid := mt isGrammarName_eq_true_iff.mp (not_not_intro malformed)
        simp [nameFault?_of_firstOffence first, valid]
      repeated := by
        intro place name first valid
        simp [nameFault?_of_firstOffence first, isGrammarName_eq_true_iff.mpr valid] }

/-- A table is judged by its names, whether it was built or read. -/
theorem judged_of_table :
    (∀ entries, Judged (entries.map (·.name)) entries (ofEntries entries)) ∧
    ∀ text base file, RegistryFile.ofText text = .ok file →
      Judged (file.grammars.map (·.name)) (file.grammars.map (GrammarSpec.entry (file.dir base)))
        (ofText text base) := by
  refine ⟨judged_ofEntries, fun text base file decoded => ?_⟩
  have judged := judged_ofEntries (file.grammars.map (GrammarSpec.entry (file.dir base)))
  rw [List.map_map] at judged
  rw [ofText_of_file decoded, ofFile_eq_ofEntries]
  exact judged

/-- A file in which a name comes back before a malformed one, which comes back too. -/
def offendingText : String :=
  "\x7b\"grammars\":[\x7b\"name\":\"a\"\x7d,\x7b\"name\":\"a\"\x7d,\x7b\"name\":\"B\"\x7d,\x7b\"name\":\"B\"\x7d]\x7d"

theorem judged_of_offendingText : ∃ file, RegistryFile.ofText offendingText = .ok file ∧
    FirstOffence (file.grammars.map (·.name)) 1 "a" ∧ ofText offendingText ⟨"dir"⟩ = .error (.duplicate "a") ∧
    ofEntries ((file.grammars.map (GrammarSpec.entry ⟨"dir"⟩)).drop 1).reverse = .error (.invalidName "B") := by
  have names : (RegistryFile.ofText offendingText).toOption.map (fun file => file.grammars.map (·.name)) =
      some ["a", "a", "B", "B"] := by decide +kernel
  obtain ⟨file, decoded, named⟩ := Option.map_eq_some_iff.mp names
  replace decoded : RegistryFile.ofText offendingText = .ok file := by
    cases read : RegistryFile.ofText offendingText with
    | error fault => rw [read] at decoded; contradiction
    | ok other => rw [read] at decoded; cases decoded; rfl
  have valid : ¬ MalformedName "a" := isGrammarName_eq_true_iff.mp (by decide)
  have malformed : MalformedName "B" := not_not.mp (mt isGrammarName_eq_true_iff.mpr (by decide))
  have first : FirstOffence (file.grammars.map (·.name)) 1 "a" := by
    rw [named]
    refine ⟨⟨rfl, .inr (by decide)⟩, fun earlier less other offends => ?_⟩
    obtain rfl : earlier = 0 := by omega
    obtain ⟨found, blamed | taken⟩ := offends
    · cases found
      exact valid blamed
    · exact absurd taken List.not_mem_nil
  refine ⟨file, decoded, first, (judged_of_table.2 _ _ file decoded).repeated 1 "a" first valid, ?_⟩
  refine (judged_of_table.1 _).malformed 0 "B" ⟨⟨?_, .inl malformed⟩, by simp⟩ malformed
  have entries : (((file.grammars.map (GrammarSpec.entry ⟨"dir"⟩)).drop 1).reverse).map (·.name) =
      ((file.grammars.map (·.name)).drop 1).reverse := by
    rw [List.map_reverse, List.map_drop, List.map_map]
    rfl
  rw [entries, named]
  rfl

end Registry
end GrammarCheck
