import Mathlib.Tactic.SplitIfs

/-! The order of texts by code points and their order by encoded bytes. Main statement: they are one
order, so that what ascends by code points ascends by bytes. -/
namespace GrammarCheck.Text
open String (utf8EncodeChar)

def bytes (text : String) : List UInt8 := text.toByteArray.data.toList

theorem bytes_eq_flatMap (text : String) : bytes text = text.toList.flatMap utf8EncodeChar := by
  have whole : text.toByteArray = (text.toList.flatMap utf8EncodeChar).toByteArray := by
    conv => lhs; rw [← String.ofList_toList (s := text)]
    exact String.toByteArray_ofList
  rw [bytes, whole]
  exact List.toList_data_toByteArray

theorem ofNat_cons_lt {a b : Nat} (ha : a < 256) (hb : b < 256) {before after : List UInt8} :
    UInt8.ofNat a :: before < UInt8.ofNat b :: after ↔ a < b ∨ a = b ∧ before < after := by
  rw [List.cons_lt_cons_iff, UInt8.lt_iff_toNat_lt, ← UInt8.toNat_inj,
    UInt8.toNat_ofNat_of_lt' ha, UInt8.toNat_ofNat_of_lt' hb]

/-- A smaller character has a smaller encoding, whatever follows the two. -/
theorem utf8EncodeChar_append_lt {c d : Char} (less : c < d) (before after : List UInt8) :
    utf8EncodeChar c ++ before < utf8EncodeChar d ++ after := by
  have below : c.val.toNat < d.val.toNat := UInt32.lt_iff_toNat_lt.mp less
  have bound : d.val.toNat < 0x110000 := by
    rcases d.valid with low | high
    · exact Nat.lt_of_lt_of_le low (by decide)
    · exact high.2
  have second (n : Nat) : n / 4096 = n / 64 / 64 := by omega
  have third (n : Nat) : n / 262144 = n / 64 / 64 / 64 := by omega
  unfold utf8EncodeChar
  generalize c.val.toNat = v, d.val.toNat = w at *
  simp only [second, third]
  -- first bytes tell the lengths apart, and within one length the digits decide from the left,
  -- so that what follows never does
  by_cases tail : before < after <;> split_ifs <;> first
    | omega
    | simp (disch := omega) only [List.cons_append, List.nil_append, ofNat_cons_lt, tail, and_true,
        and_false, or_false]
      omega

theorem flatMap_lt_of_lt {a b : List Char} (less : a < b) :
    a.flatMap utf8EncodeChar < b.flatMap utf8EncodeChar := by
  induction less with
  | @nil c rest =>
    rw [List.flatMap_cons]
    cases code : utf8EncodeChar c with
    | nil => exact absurd code String.utf8EncodeChar_ne_nil
    | cons first more => exact List.nil_lt_cons _ _
  | cons _ ih =>
    simp only [List.flatMap_cons]
    exact List.append_left_lt ih
  | rel smaller =>
    simp only [List.flatMap_cons]
    exact utf8EncodeChar_append_lt smaller _ _

theorem lt_iff_bytes_lt (a b : String) : a < b ↔ bytes a < bytes b := by
  rw [bytes_eq_flatMap, bytes_eq_flatMap]
  refine ⟨flatMap_lt_of_lt, fun less => Classical.byContradiction fun notLess => ?_⟩
  by_cases same : a = b
  · exact List.lt_irrefl _ (same ▸ less)
  · have more : b < a := Std.lt_of_le_of_ne (String.not_lt.mp notLess) (Ne.symm same)
    exact List.lt_asymm less (flatMap_lt_of_lt more)

end GrammarCheck.Text
