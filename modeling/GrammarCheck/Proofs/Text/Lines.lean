import GrammarCheck.Decimal.Style
import GrammarCheck.Text.Quoted

/-! Lines of a text. Main statement: a text is a first line and as many more as it has line feeds, and the
first starts as the text does. Numbers and quotations never have a line feed in them. -/
namespace GrammarCheck.Text

def lineFeeds (text : String) : Nat := text.toList.count '\n'

/-- These are the lines of the text, each of them ended by a line feed. -/
structure HasLines (text : String) (lines : List String) : Prop where
  joined : text = String.join (lines.map (· ++ "\n"))
  flat : ∀ line ∈ lines, lineFeeds line = 0

@[simp] theorem lineFeeds_append (front back : String) :
    lineFeeds (front ++ back) = lineFeeds front + lineFeeds back := by
  rw [lineFeeds, String.toList_append, List.count_append]
  rfl

theorem lineFeeds_ofList_eq_zero {text : List Char} : lineFeeds (String.ofList text) = 0 ↔ '\n' ∉ text := by
  rw [lineFeeds, String.toList_ofList, List.count_eq_zero]

theorem lineFeeds_eq_zero {text : String} : lineFeeds text = 0 ↔ '\n' ∉ text.toList := List.count_eq_zero

@[simp] theorem lineFeeds_empty : lineFeeds "" = 0 := rfl

@[simp] theorem lineFeeds_join_cons (text : String) (rest : List String) :
    lineFeeds (String.join (text :: rest)) = lineFeeds text + lineFeeds (String.join rest) := by
  rw [String.join_cons, lineFeeds_append]

@[simp] theorem lineFeeds_join_append (texts others : List String) :
    lineFeeds (String.join (texts ++ others)) = lineFeeds (String.join texts) + lineFeeds (String.join others) := by
  rw [String.join_append, lineFeeds_append]

theorem lineFeeds_join_eq_zero {texts : List String} :
    lineFeeds (String.join texts) = 0 ↔ ∀ text ∈ texts, lineFeeds text = 0 := by
  induction texts with
  | nil => simp
  | cons text rest ih => simp [ih]

theorem not_mem_toDigits {base : Nat} (many : 1 < base) (n : Nat) : '\n' ∉ Nat.toDigits base n := by
  have other (digit : Nat) : '\n' ≠ digit.digitChar := (Nat.digitChar_ne '\n' (by decide)).symm
  induction n using Nat.strongRecOn with
  | ind n ih =>
    by_cases small : n < base
    · rw [Nat.toDigits_of_lt_base small]
      simp [other]
    · have less : n / base < n := Nat.div_lt_self (by omega) many
      rw [Nat.toDigits_of_base_le many (Nat.le_of_not_lt small)]
      simp [other, ih _ less]

@[simp] theorem lineFeeds_repr (n : Nat) : lineFeeds n.repr = 0 := by
  rw [Nat.repr_eq_ofList_toDigits, lineFeeds_ofList_eq_zero]
  exact not_mem_toDigits (by decide) n

@[simp] theorem lineFeeds_intRepr (n : Int) : lineFeeds n.repr = 0 := by
  rw [Int.repr_eq_if]
  split
  · exact lineFeeds_repr _
  · rw [lineFeeds_append, lineFeeds_repr]
    rfl

theorem not_mem_escaped (c : Char) : '\n' ∉ escaped c := by
  unfold escaped
  split
  case h_7 c _ _ feed _ _ _ =>
    split
    · simp [not_mem_toDigits]
    · simpa using Ne.symm feed
  all_goals decide

@[simp] theorem lineFeeds_quoted (text : String) : lineFeeds (quoted text) = 0 := by
  rw [quoted, lineFeeds_ofList_eq_zero]
  simp [not_mem_escaped]

theorem not_mem_write (style : Decimal.Style) (digits : Decimal.Digits) : '\n' ∉ digits.write style := by
  have spelled := not_mem_toDigits (by decide : 1 < 10) digits.coefficient
  have whole : '\n' ∉ (if style.marksWhole then ['.', '0'] else []) := by split <;> decide
  have power (n : Int) : '\n' ∉ (toString n).toList := lineFeeds_eq_zero.mp (lineFeeds_intRepr n)
  unfold Decimal.Digits.write
  simp only
  generalize Nat.toDigits 10 digits.coefficient = written at *
  have front (n : Nat) := mt (List.mem_of_mem_take (i := n)) spelled
  have back (n : Nat) := mt (List.mem_of_mem_drop (i := n)) spelled
  have fraction : '\n' ∉ (if (written.drop 1).isEmpty then [] else '.' :: written.drop 1) := by
    split
    · simp
    · rw [List.mem_cons]
      exact not_or.mpr ⟨by decide, back 1⟩
  split
  · simp [whole]
  · split
    · split
      · simp [spelled, whole]
      · split
        · simp [front, back]
        · simp [spelled]
    · have sign : '\n' ∉ (if 0 < digits.exponent + written.length then ['+'] else []) := by split <;> decide
      simp only [List.mem_append, List.mem_cons, not_or]
      exact ⟨⟨⟨front 1, fraction⟩, by decide, sign⟩, power _⟩

@[simp] theorem lineFeeds_write (style : Decimal.Style) (x : Float) : lineFeeds (style.write x) = 0 := by
  unfold Decimal.Style.write
  simp only
  split
  · rfl
  · split
    · rw [lineFeeds_ofList_eq_zero]
      split <;> decide
    · rw [lineFeeds_ofList_eq_zero, List.mem_append]
      refine not_or.mpr ⟨?_, not_mem_write _ _⟩
      split <;> decide

theorem HasLines.length {text : String} {lines : List String} (has : HasLines text lines) :
    lines.length = lineFeeds text := by
  obtain ⟨rfl, flat⟩ := has
  induction lines with
  | nil => rfl
  | cons line rest ih =>
    obtain ⟨own, others⟩ := List.forall_mem_cons.mp flat
    have feed : lineFeeds "\n" = 1 := rfl
    rw [List.map_cons, String.join_cons, lineFeeds_append, lineFeeds_append, own, feed, ← ih others,
      List.length_cons]
    omega

theorem HasLines.append {text more : String} {lines others : List String} (has : HasLines text lines)
    (follow : HasLines more others) : HasLines (text ++ more) (lines ++ others) where
  joined := by rw [has.joined, follow.joined, List.map_append, String.join_append]
  flat := fun line inside => (List.mem_append.mp inside).elim (has.flat line) (follow.flat line)

theorem join_eq_intercalate (line : String) (more : List String) :
    String.join ((line :: more).map (· ++ "\n")) = "\n".intercalate (line :: more) ++ "\n" := by
  induction more generalizing line with
  | nil => simp
  | cons next more ih => rw [List.map_cons, String.join_cons, ih, String.intercalate_cons_cons, String.append_assoc,
      String.append_assoc, String.append_assoc]

theorem intercalate_append_cons (separator head line : String) (more : List String) :
    separator.intercalate ((head ++ line) :: more) = head ++ separator.intercalate (line :: more) := by
  cases more with
  | nil => simp
  | cons next more => simp only [String.intercalate_cons_cons, String.append_assoc]

theorem exists_pieces (text : List Char) : ∃ line more, (∀ piece ∈ line :: more, lineFeeds piece = 0) ∧
    "\n".intercalate (line :: more) = String.ofList text := by
  induction text with
  | nil => exact ⟨"", [], by simp [lineFeeds], by simp⟩
  | cons c rest ih =>
    obtain ⟨line, more, flat, same⟩ := ih
    have split : String.ofList (c :: rest) = String.singleton c ++ String.ofList rest := by
      rw [String.singleton_eq_ofList, ← String.ofList_append]
      rfl
    by_cases feed : c = '\n'
    · refine ⟨"", line :: more, List.forall_mem_cons.mpr ⟨rfl, flat⟩, ?_⟩
      rw [String.intercalate_cons_cons, same, split, feed]
      rfl
    · obtain ⟨own, others⟩ := List.forall_mem_cons.mp flat
      have single : lineFeeds (String.singleton c) = 0 := by simp [lineFeeds, feed]
      refine ⟨String.singleton c ++ line, more, List.forall_mem_cons.mpr ⟨by simp [single, own], others⟩, ?_⟩
      rw [intercalate_append_cons, same, split]

theorem startsWith_of_append {text front back : String} (starts : text.startsWith (front ++ back) = true) :
    text.startsWith front = true := by
  rw [String.startsWith_string_iff, String.toList_append] at starts
  exact String.startsWith_string_iff.mpr ((List.prefix_append _ _).trans starts)

/-- A text on several lines. The first starts as the text does, up to the first line feed. -/
theorem exists_lines {text head : String} (flat : lineFeeds head = 0) (starts : text.startsWith head = true) :
    ∃ line more, HasLines (text ++ "\n") (line :: more) ∧ "\n".intercalate (line :: more) = text ∧
      line.startsWith head = true := by
  obtain ⟨rest, shape⟩ := String.startsWith_string_iff.mp starts
  obtain ⟨line, more, pieces, same⟩ := exists_pieces rest
  obtain ⟨own, others⟩ := List.forall_mem_cons.mp pieces
  have whole : "\n".intercalate ((head ++ line) :: more) = text := by
    rw [intercalate_append_cons, same, ← String.ofList_toList (s := text), ← shape, String.ofList_append,
      String.ofList_toList]
  refine ⟨head ++ line, more, ⟨?_, ?_⟩, whole, by simp⟩
  · rw [join_eq_intercalate, whole]
  · exact List.forall_mem_cons.mpr ⟨by simp [flat, own], others⟩

end GrammarCheck.Text
