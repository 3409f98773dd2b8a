import GrammarCheck.Proofs.Text.Units

/-! The grammar of JSON, said without a reader: which texts denote which values. A value is a row of
lexemes, each of which has its spellings, and blanks may stand between any two of them. A string is a
row of UTF-16 units, since an escape may name half a character alone. -/
namespace GrammarCheck.Json

inductive Value where
  | null
  | boolean (value : Bool)
  | number (literal : List Char)
  | string (units : List Nat)
  | list (items : List Value)
  | object (members : List (List Nat × Value))

inductive Lexeme where
  | openObject
  | closeObject
  | openList
  | closeList
  | colon
  | comma
  | null
  | boolean (value : Bool)
  | number (literal : List Char)
  | string (units : List Nat)

/-- A comma stands before every item or member but the first. -/
def separator (first : Bool) : List Lexeme := if first then [] else [.comma]

mutual
def Value.lexemes : Value → List Lexeme
  | .null => [.null]
  | .boolean value => [.boolean value]
  | .number literal => [.number literal]
  | .string units => [.string units]
  | .list items => .openList :: (itemLexemes true items ++ [.closeList])
  | .object members => .openObject :: (memberLexemes true members ++ [.closeObject])

def itemLexemes (first : Bool) : List Value → List Lexeme
  | [] => []
  | item :: rest => separator first ++ (item.lexemes ++ itemLexemes false rest)

def memberLexemes (first : Bool) : List (List Nat × Value) → List Lexeme
  | [] => []
  | (key, value) :: rest =>
    separator first ++ .string key :: .colon :: (value.lexemes ++ memberLexemes false rest)
end

inductive HexDigit : Char → Nat → Prop
  | digit {c : Char} (first : '0' ≤ c) (last : c ≤ '9') : HexDigit c (c.toNat - '0'.toNat)
  | small {c : Char} (first : 'a' ≤ c) (last : c ≤ 'f') : HexDigit c (10 + (c.toNat - 'a'.toNat))
  | capital {c : Char} (first : 'A' ≤ c) (last : c ≤ 'F') : HexDigit c (10 + (c.toNat - 'A'.toNat))

theorem HexDigit.lt {c : Char} {value : Nat} (digit : HexDigit c value) : value < 0x10 := by
  cases digit with
  | digit _ last =>
    have bound : c.toNat ≤ '9'.toNat := last
    have least : '0'.toNat = 48 ∧ '9'.toNat = 57 := by decide
    omega
  | small _ last =>
    have bound : c.toNat ≤ 'f'.toNat := last
    have least : 'a'.toNat = 97 ∧ 'f'.toNat = 102 := by decide
    omega
  | capital _ last =>
    have bound : c.toNat ≤ 'F'.toNat := last
    have least : 'A'.toNat = 65 ∧ 'F'.toNat = 70 := by decide
    omega

theorem hexDigit?_eq_some {c : Char} {value : Nat} (digit : HexDigit c value) : hexDigit? c = some value := by
  rw [hexDigit?]
  cases digit with
  | digit first last => exact if_pos ⟨first, last⟩
  | small first last =>
    have lower : 97 ≤ c.toNat := first
    have beyond : ¬('0' ≤ c ∧ c ≤ '9') := fun ⟨_, upper⟩ => absurd (Nat.le_trans lower upper) (by decide)
    rw [if_neg beyond, if_pos ⟨first, last⟩, Option.some.injEq]
    show c.toNat - 87 = 10 + (c.toNat - 97)
    omega
  | capital first last =>
    have lower : 65 ≤ c.toNat := first
    have upper : c.toNat ≤ 70 := last
    have beyond : ¬('0' ≤ c ∧ c ≤ '9') := fun ⟨_, upper⟩ => absurd (Nat.le_trans lower upper) (by decide)
    have before : ¬('a' ≤ c ∧ c ≤ 'f') := fun ⟨above, _⟩ => absurd (Nat.le_trans above upper) (by decide)
    rw [if_neg beyond, if_neg before, if_pos ⟨first, last⟩, Option.some.injEq]
    show c.toNat - 55 = 10 + (c.toNat - 65)
    omega

theorem hexValue?_eq_some {a b c d : Char} {i j k l : Nat} (first : HexDigit a i) (second : HexDigit b j)
    (third : HexDigit c k) (fourth : HexDigit d l) :
    hexValue? [a, b, c, d] = some (0x1000 * i + 0x100 * j + 0x10 * k + l) := by
  simp only [hexValue?, List.foldlM_cons, List.foldlM_nil, hexDigit?_eq_some first, hexDigit?_eq_some second,
    hexDigit?_eq_some third, hexDigit?_eq_some fourth, Option.map_some, Option.bind_eq_bind, Option.bind_some,
    Option.pure_def, Option.some.injEq]
  omega

/-- The letters that may follow a backslash, and what they stand for there. -/
def escapes : List (Char × Char) :=
  [('"', '"'), ('\\', '\\'), ('/', '/'), ('b', '\x08'), ('f', '\x0c'), ('n', '\n'), ('r', '\r'), ('t', '\t')]

/-- The inside of a string literal, and the units it stands for. -/
inductive Spells : List Char → List Nat → Prop
  | nil : Spells [] []
  | plain {c : Char} {body : List Char} {units : List Nat} (printable : ' ' ≤ c) (quote : c ≠ '"')
      (backslash : c ≠ '\\') (more : Spells body units) : Spells (c :: body) (Text.charUnits c ++ units)
  | escape {letter c : Char} {body : List Char} {units : List Nat} (known : (letter, c) ∈ escapes)
      (more : Spells body units) : Spells ('\\' :: letter :: body) (Text.charUnits c ++ units)
  | unit {a b c d : Char} {i j k l : Nat} {body : List Char} {units : List Nat}
      (first : HexDigit a i) (second : HexDigit b j) (third : HexDigit c k) (fourth : HexDigit d l)
      (more : Spells body units) :
      Spells ('\\' :: 'u' :: a :: b :: c :: d :: body) ((0x1000 * i + 0x100 * j + 0x10 * k + l) :: units)

theorem Spells.lt {body : List Char} {units : List Nat} (spells : Spells body units) :
    ∀ code ∈ units, code < 0x10000 := by
  induction spells with
  | nil => simp
  | plain _ _ _ _ ih => exact List.forall_mem_append.mpr ⟨Text.charUnits_lt _, ih⟩
  | escape _ _ ih => exact List.forall_mem_append.mpr ⟨Text.charUnits_lt _, ih⟩
  | unit first second third fourth _ ih =>
    have bounds := And.intro (And.intro first.lt second.lt) (And.intro third.lt fourth.lt)
    exact List.forall_mem_cons.mpr ⟨by omega, ih⟩

theorem spells_append {text body : List Char} {units : List Nat}
    (plain : ∀ c ∈ text, ' ' ≤ c ∧ c ≠ '"' ∧ c ≠ '\\') (more : Spells body units) :
    Spells (text ++ body) (Text.units text ++ units) := by
  induction text with
  | nil => exact more
  | cons c text ih =>
    obtain ⟨⟨printable, quote, backslash⟩, others⟩ := List.forall_mem_cons.mp plain
    rw [Text.units_cons, List.append_assoc]
    exact .plain printable quote backslash (ih others)

def Digits (text : List Char) : Prop := text ≠ [] ∧ ∀ c ∈ text, '0' ≤ c ∧ c ≤ '9'

/-- The parts of a number: a zero stands alone before the point, and point and exponent have digits. -/
structure Numeral.Proper (sign whole fraction exponent : List Char) : Prop where
  signed : sign = [] ∨ sign = ['-']
  digits : Digits whole
  leading : whole.head? = some '0' → whole = ['0']
  point : fraction = [] ∨ ∃ digits, Digits digits ∧ fraction = '.' :: digits
  power : exponent = [] ∨ ∃ e sign digits, (e = 'e' ∨ e = 'E') ∧ (sign = [] ∨ sign = ['+'] ∨ sign = ['-']) ∧
    Digits digits ∧ exponent = e :: (sign ++ digits)

inductive Lexeme.Spelled : Lexeme → List Char → Prop
  | openObject : Spelled .openObject ['{']
  | closeObject : Spelled .closeObject ['}']
  | openList : Spelled .openList ['[']
  | closeList : Spelled .closeList [']']
  | colon : Spelled .colon [':']
  | comma : Spelled .comma [',']
  | null : Spelled .null ['n', 'u', 'l', 'l']
  | true : Spelled (.boolean true) ['t', 'r', 'u', 'e']
  | false : Spelled (.boolean false) ['f', 'a', 'l', 's', 'e']
  | number {sign whole fraction exponent : List Char} (parts : Numeral.Proper sign whole fraction exponent) :
      Spelled (.number (sign ++ whole ++ fraction ++ exponent)) (sign ++ whole ++ fraction ++ exponent)
  | string {body : List Char} {units : List Nat} (inside : Spells body units) :
      Spelled (.string units) ('"' :: (body ++ ['"']))

/-- A text as a row of lexemes, with blanks before, between and after them. -/
inductive Lexed : List Char → List Lexeme → Prop
  | nil : Lexed [] []
  | blank {c : Char} {rest : List Char} {lexemes : List Lexeme} (blank : c ∈ [' ', '\t', '\n', '\r'])
      (more : Lexed rest lexemes) : Lexed (c :: rest) lexemes
  | cons {lexeme : Lexeme} {spelling rest : List Char} {lexemes : List Lexeme}
      (spelled : lexeme.Spelled spelling) (more : Lexed rest lexemes) :
      Lexed (spelling ++ rest) (lexeme :: lexemes)

/-- A text denotes a value if it is a JSON text of it. -/
def Denotes (text : String) (value : Value) : Prop := Lexed text.toList value.lexemes

end GrammarCheck.Json
