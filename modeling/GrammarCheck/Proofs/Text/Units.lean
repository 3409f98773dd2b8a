import GrammarCheck.Json.Quotation

/-! The UTF-16 units of a text, which escapes by number are about. Main statements: the units of a text
stand for that text and no other, and units with half a character among them stand for no text. Nothing else
of 16 bits stands for a text. -/
namespace GrammarCheck.Text
open Json.Quotation (isHighHalf isLowHalf joinHalves)

/-- A character beyond the first plane is two halves of ten bits each. -/
def charUnits (c : Char) : List Nat :=
  if c.toNat < 0x10000 then [c.toNat]
  else [0xD800 + (c.toNat - 0x10000) / 0x400, 0xDC00 + (c.toNat - 0x10000) % 0x400]

def units (text : List Char) : List Nat := text.flatMap charUnits

@[simp] theorem units_nil : units [] = [] := rfl

@[simp] theorem units_cons (c : Char) (text : List Char) : units (c :: text) = charUnits c ++ units text := rfl

def ofUnits : List Nat → List Char
  | [] => []
  | [code] => [Char.ofNat code]
  | code :: low :: rest =>
    if isHighHalf code && isLowHalf low then joinHalves code low :: ofUnits rest
    else Char.ofNat code :: ofUnits (low :: rest)

/-- The text that units stand for, if every half of a character has its other half. -/
def ofUnits? : List Nat → Option (List Char)
  | [] => some []
  | [code] => if isLowHalf code || isHighHalf code then none else some [Char.ofNat code]
  | code :: low :: rest =>
    if isLowHalf code then none
    else if isHighHalf code then
      if isLowHalf low then (joinHalves code low :: ·) <$> ofUnits? rest else none
    else (Char.ofNat code :: ·) <$> ofUnits? (low :: rest)

theorem toNat_valid (c : Char) : c.toNat < 0xD800 ∨ 0xDFFF < c.toNat ∧ c.toNat < 0x110000 := c.valid

theorem joinHalves_split (c : Char) (beyond : 0x10000 ≤ c.toNat) :
    joinHalves (0xD800 + (c.toNat - 0x10000) / 0x400) (0xDC00 + (c.toNat - 0x10000) % 0x400) = c := by
  have joined : 0x10000 + (0xD800 + (c.toNat - 0x10000) / 0x400 - 0xD800) * 0x400 +
      (0xDC00 + (c.toNat - 0x10000) % 0x400 - 0xDC00) = c.toNat := by omega
  rw [joinHalves, joined, Char.ofNat_toNat]

theorem charUnits_cases (c : Char) :
    (charUnits c = [c.toNat] ∧ isHighHalf c.toNat = false ∧ isLowHalf c.toNat = false) ∨
      ∃ high low, charUnits c = [high, low] ∧ isHighHalf high = true ∧ isLowHalf low = true ∧
        joinHalves high low = c := by
  have valid := toNat_valid c
  by_cases first : c.toNat < 0x10000
  · refine .inl ⟨if_pos first, ?_, ?_⟩
    · simp only [isHighHalf, Bool.and_eq_false_iff, decide_eq_false_iff_not]
      omega
    · simp only [isLowHalf, Bool.and_eq_false_iff, decide_eq_false_iff_not]
      omega
  · refine .inr ⟨_, _, if_neg first, ?_, ?_, joinHalves_split c (Nat.le_of_not_lt first)⟩
    · simp only [isHighHalf, Bool.and_eq_true, decide_eq_true_eq]
      omega
    · simp only [isLowHalf, Bool.and_eq_true, decide_eq_true_eq]
      omega

theorem ofUnits_charUnits_append (c : Char) (rest : List Nat) :
    ofUnits (charUnits c ++ rest) = c :: ofUnits rest := by
  obtain ⟨single, notHigh, _⟩ | ⟨high, low, pair, isHigh, isLow, joined⟩ := charUnits_cases c
  · rw [single, List.singleton_append]
    cases rest with
    | nil => simp [ofUnits]
    | cons low rest => simp [ofUnits, notHigh]
  · rw [pair, List.cons_append, List.singleton_append, ofUnits, isHigh, isLow, joined]
    rfl

@[simp] theorem ofUnits_units (text : List Char) : ofUnits (units text) = text := by
  induction text with
  | nil => rfl
  | cons c text ih => rw [units_cons, ofUnits_charUnits_append, ih]

theorem isLowHalf_of_isHighHalf {code : Nat} (high : isHighHalf code = true) : isLowHalf code = false := by
  simp only [isHighHalf, Bool.and_eq_true, decide_eq_true_eq] at high
  simp only [isLowHalf, Bool.and_eq_false_iff, decide_eq_false_iff_not]
  omega

theorem ofUnits?_cons {code : Nat} (low : isLowHalf code = false) (high : isHighHalf code = false) (rest : List Nat) :
    ofUnits? (code :: rest) = (Char.ofNat code :: ·) <$> ofUnits? rest := by
  cases rest with
  | nil => simp [ofUnits?, low, high]
  | cons next rest => simp [ofUnits?, low, high]

theorem ofUnits?_low {code : Nat} (low : isLowHalf code = true) (rest : List Nat) :
    ofUnits? (code :: rest) = none := by
  cases rest with
  | nil => simp [ofUnits?, low]
  | cons next rest => simp [ofUnits?, low]

theorem ofUnits?_pair {high low : Nat} (isHigh : isHighHalf high = true) (isLow : isLowHalf low = true)
    (rest : List Nat) : ofUnits? (high :: low :: rest) = (joinHalves high low :: ·) <$> ofUnits? rest := by
  simp [ofUnits?, isHigh, isLow, isLowHalf_of_isHighHalf isHigh]

theorem ofUnits?_half {high : Nat} (isHigh : isHighHalf high = true) {rest : List Nat}
    (alone : ∀ low ∈ rest.head?, isLowHalf low = false) : ofUnits? (high :: rest) = none := by
  cases rest with
  | nil => simp [ofUnits?, isHigh]
  | cons next rest => simp [ofUnits?, isHigh, alone next rfl]

theorem ofUnits?_charUnits_append (c : Char) (rest : List Nat) :
    ofUnits? (charUnits c ++ rest) = (c :: ·) <$> ofUnits? rest := by
  obtain ⟨single, notHigh, notLow⟩ | ⟨high, low, pair, isHigh, isLow, joined⟩ := charUnits_cases c
  · rw [single, List.singleton_append, ofUnits?_cons notLow notHigh, Char.ofNat_toNat]
  · rw [pair, List.cons_append, List.singleton_append, ofUnits?_pair isHigh isLow, joined]

@[simp] theorem ofUnits?_units (text : List Char) : ofUnits? (units text) = some text := by
  induction text with
  | nil => rfl
  | cons c text ih => rw [units_cons, ofUnits?_charUnits_append, ih]; rfl

theorem units_inj {first second : List Char} : units first = units second ↔ first = second := by
  refine ⟨fun same => ?_, congrArg units⟩
  rw [← ofUnits_units first, same, ofUnits_units]

theorem charUnits_lt (c : Char) : ∀ code ∈ charUnits c, code < 0x10000 := by
  have valid := toNat_valid c
  intro code inside
  rw [charUnits] at inside
  split at inside
  · simp only [List.mem_singleton] at inside
    omega
  · simp only [List.mem_cons, List.not_mem_nil, or_false] at inside
    omega

theorem toNat_ofNat {code : Nat} (valid : code.isValidChar) : (Char.ofNat code).toNat = code := by
  rw [Char.ofNat, dif_pos valid]
  rfl

theorem charUnits_ofNat {code : Nat} (small : code < 0x10000) (low : isLowHalf code = false)
    (high : isHighHalf code = false) : charUnits (Char.ofNat code) = [code] := by
  simp only [isLowHalf, isHighHalf, Bool.and_eq_false_iff, decide_eq_false_iff_not] at low high
  have valid : code.isValidChar := by
    rw [Nat.isValidChar]
    omega
  rw [charUnits, toNat_ofNat valid, if_pos small]

theorem charUnits_joinHalves {high low : Nat} (isHigh : isHighHalf high = true) (isLow : isLowHalf low = true) :
    charUnits (joinHalves high low) = [high, low] := by
  simp only [isLowHalf, isHighHalf, Bool.and_eq_true, decide_eq_true_eq] at isHigh isLow
  have valid : (0x10000 + (high - 0xD800) * 0x400 + (low - 0xDC00)).isValidChar := by
    rw [Nat.isValidChar]
    omega
  rw [joinHalves, charUnits, toNat_ofNat valid, if_neg (by omega)]
  simp only [List.cons.injEq, and_true]
  omega

/-- Units of 16 bits stand for a text only if they are its units. -/
theorem ofUnits?_eq_some {all : List Nat} {text : List Char} (small : ∀ code ∈ all, code < 0x10000) :
    ofUnits? all = some text ↔ all = units text := by
  refine ⟨fun read => ?_, fun same => same ▸ ofUnits?_units text⟩
  fun_induction ofUnits? all generalizing text with
  | case1 =>
    cases read
    rfl
  | case2 => contradiction
  | case3 code whole =>
    cases read
    simp only [Bool.or_eq_true, not_or, Bool.not_eq_true] at whole
    rw [units_cons, units_nil, charUnits_ofNat (small code (.head _)) whole.1 whole.2]
    rfl
  | case4 => contradiction
  | case5 code low rest _ isHigh isLow ih =>
    obtain ⟨more, found, rfl⟩ := Option.map_eq_some_iff.mp read
    rw [units_cons, charUnits_joinHalves isHigh isLow,
      ← ih (fun other inside => small other (.tail _ (.tail _ inside))) found]
    rfl
  | case6 => contradiction
  | case7 code low rest notLow notHigh ih =>
    obtain ⟨more, found, rfl⟩ := Option.map_eq_some_iff.mp read
    obtain ⟨own, others⟩ := List.forall_mem_cons.mp small
    rw [units_cons, charUnits_ofNat own (by simpa using notLow) (by simpa using notHigh), ← ih others found]
    rfl

end GrammarCheck.Text
