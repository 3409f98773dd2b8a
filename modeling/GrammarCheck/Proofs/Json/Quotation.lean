import GrammarCheck.Proofs.Json.Spelling

/-! String literals that are proper JSON. Main statement: however units are spelled, the literal ends at
its closing quote, and it is kept as the text of its units or not at all. -/
namespace GrammarCheck.Json.Quotation
open Text (charUnits ofUnits?)

def Piece.units : Piece → List Nat
  | .plain c _ => charUnits c
  | .escape c _ => charUnits c
  | .unit code _ => [code]

theorem charUnits_head_not_low (c : Char) (rest : List Nat) :
    ∀ low ∈ (charUnits c ++ rest).head?, isLowHalf low = false := by
  intro low first
  obtain ⟨single, _, notLow⟩ | ⟨high, _, pair, isHigh, _⟩ := Text.charUnits_cases c
  · rw [single] at first
    cases first
    exact notLow
  · rw [pair] at first
    cases first
    exact Text.isLowHalf_of_isHighHalf isHigh

/-- Joining the halves piece by piece is joining them in the units of the pieces. -/
theorem toOption_keep (after : Place) (pieces : List Piece) :
    (keep (.closed after) pieces).toOption = ofUnits? (pieces.flatMap Piece.units) := by
  have mapped (c : Char) (kept : Except Fault (List Char)) :
      ((c :: ·) <$> kept).toOption = (c :: ·) <$> kept.toOption := by cases kept <;> rfl
  fun_induction keep (.closed after) pieces with
  | case1 => contradiction
  | case2 => rfl
  | case3 c place rest ih => rw [mapped, ih]; exact (Text.ofUnits?_charUnits_append c _).symm
  | case4 c letter rest ih => rw [mapped, ih]; exact (Text.ofUnits?_charUnits_append c _).symm
  | case5 code place rest low => exact (Text.ofUnits?_low low _).symm
  | case6 code place _ high low next rest isLow ih =>
    rw [mapped, ih]
    exact (Text.ofUnits?_pair high isLow _).symm
  | case7 code place _ high low next rest notLow =>
    refine (Text.ofUnits?_half high fun first same => ?_).symm
    cases same
    simpa using notLow
  | case8 code place _ high c next rest => exact (Text.ofUnits?_half high (charUnits_head_not_low c _)).symm
  | case9 code place _ high c next rest => exact (Text.ofUnits?_half high (charUnits_head_not_low c _)).symm
  | case10 code place _ high => exact (Text.ofUnits?_half high (by simp)).symm
  | case11 code place rest notLow notHigh ih =>
    rw [mapped, ih]
    exact (Text.ofUnits?_cons (by simpa using notLow) (by simpa using notHigh) _).symm

theorem scan_plain {c : Char} (printable : ' ' ≤ c) (quote : c ≠ '"') (backslash : c ≠ '\\') (rest : List Char) :
    scan (c :: rest) = (scan rest).cons (.plain c (c :: rest)) := by
  have shown : ¬ c < ' ' := Char.not_lt.mpr printable
  rw [scan]
  · exact if_neg shown
  all_goals simp_all

theorem scan_escape {letter c : Char} (known : (letter, c) ∈ escapes) (rest : List Char) :
    scan ('\\' :: letter :: rest) = (scan rest).cons (.escape c (letter :: rest)) := by
  have all : ∀ pair ∈ escapes, pair.1 ≠ 'u' ∧ escapeValue? pair.1 = some pair.2 := by decide
  obtain ⟨single, value⟩ := all _ known
  rw [scan, value]
  all_goals simp_all

theorem scan_unit {a b c d : Char} {code : Nat} (found : hexValue? [a, b, c, d] = some code) (rest : List Char) :
    scan ('\\' :: 'u' :: a :: b :: c :: d :: rest) = (scan rest).cons (.unit code rest) := by
  rw [scan, found]

theorem scan_of_spells {body : List Char} {units : List Nat} (spelled : Spells body units) (rest : List Char) :
    ∃ pieces, scan (body ++ '"' :: rest) = ⟨pieces, .closed rest⟩ ∧ pieces.flatMap Piece.units = units := by
  induction spelled with
  | nil => exact ⟨[], by rw [List.nil_append, scan], rfl⟩
  | @plain c body _ printable quote backslash _ ih =>
    obtain ⟨pieces, scanned, same⟩ := ih
    refine ⟨.plain c (c :: (body ++ '"' :: rest)) :: pieces, ?_, congrArg (charUnits c ++ ·) same⟩
    rw [List.cons_append, scan_plain printable quote backslash, scanned]
    rfl
  | @escape letter c body _ known _ ih =>
    obtain ⟨pieces, scanned, same⟩ := ih
    refine ⟨.escape c (letter :: (body ++ '"' :: rest)) :: pieces, ?_, congrArg (charUnits c ++ ·) same⟩
    rw [List.cons_append, List.cons_append, scan_escape known, scanned]
    rfl
  | @unit _ _ _ _ i j k l body _ first second third fourth _ ih =>
    obtain ⟨pieces, scanned, same⟩ := ih
    refine ⟨.unit (0x1000 * i + 0x100 * j + 0x10 * k + l) (body ++ '"' :: rest) :: pieces, ?_,
      congrArg (List.cons _) same⟩
    simp only [List.cons_append]
    rw [scan_unit (hexValue?_eq_some first second third fourth), scanned]
    rfl

end GrammarCheck.Json.Quotation
