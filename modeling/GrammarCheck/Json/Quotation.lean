import GrammarCheck.Json.Fault

/-! String literals after their opening quote. Scanning finds their parts and how they end, which is
all that passing over one needs; keeping one also joins the halves of characters written as two
escapes. Main statements: what is left after a closed literal is shorter than what was scanned. -/
namespace GrammarCheck.Json

def hexDigit? (c : Char) : Option Nat :=
  if '0' ≤ c ∧ c ≤ '9' then some (c.toNat - 48)
  else if 'a' ≤ c ∧ c ≤ 'f' then some (c.toNat - 87)
  else if 'A' ≤ c ∧ c ≤ 'F' then some (c.toNat - 55)
  else none

def hexValue? (digits : List Char) : Option Nat :=
  digits.foldlM (fun value c => (hexDigit? c).map (16 * value + ·)) 0

/-- What a backslash and the letter after it stand for. -/
def escapeValue? : Char → Option Char
  | '"' => some '"'
  | '\\' => some '\\'
  | '/' => some '/'
  | 'b' => some '\x08'
  | 'f' => some '\x0c'
  | 'n' => some '\n'
  | 'r' => some '\r'
  | 't' => some '\t'
  | _ => none

namespace Quotation

inductive Piece where
  | plain (c : Char) (place : Place)
  | escape (c : Char) (letter : Place)
  | unit (code : Nat) (after : Place)

inductive Ending where
  | closed (after : Place)
  | unended
  | badEscape (letter : Place)
  | badHex (digits : Place)
  | control (place : Place)

structure Scan where
  pieces : List Piece
  ending : Ending

def Scan.cons (piece : Piece) (scan : Scan) : Scan := ⟨piece :: scan.pieces, scan.ending⟩

def scan : List Char → Scan
  | [] => ⟨[], .unended⟩
  | '"' :: rest => ⟨[], .closed rest⟩
  | '\\' :: 'u' :: a :: b :: c :: d :: rest =>
    match hexValue? [a, b, c, d] with
    | some code => (scan rest).cons (.unit code rest)
    | none => ⟨[], .badHex (a :: b :: c :: d :: rest)⟩
  | '\\' :: 'u' :: rest => ⟨[], if bytes rest < 4 then .unended else .badHex rest⟩
  | '\\' :: c :: rest =>
    match escapeValue? c with
    | some value => (scan rest).cons (.escape value (c :: rest))
    | none => ⟨[], .badEscape (c :: rest)⟩
  | ['\\'] => ⟨[], .unended⟩
  | c :: rest =>
    if c < ' ' then ⟨[], .control (c :: rest)⟩ else (scan rest).cons (.plain c (c :: rest))

def Ending.skipFault? : Ending → Option Fault
  | .closed _ => none
  | .unended => some (Cause.endInString.here [])
  | .badEscape letter => some (Cause.invalidEscape.next letter)
  | .badHex digits => some ⟨.invalidEscape, digits, 4⟩
  | .control place => some (Cause.controlCharacter.here place)

def Ending.keepFault? : Ending → Option Fault
  | .control place => some (Cause.controlCharacter.next place)
  | ending => ending.skipFault?

/-- The fault of the first half of a character with nothing after it but the end of the literal. -/
def Ending.halfFault : Ending → Fault
  | .closed after => Cause.unfinishedSurrogate.next ('"' :: after)
  | .unended => Cause.endInString.here []
  | .badEscape letter => Cause.unfinishedSurrogate.next letter
  | .badHex digits => ⟨.invalidEscape, digits, 4⟩
  | .control place => Cause.unfinishedSurrogate.next place

def isHighHalf (code : Nat) : Bool := 0xD800 ≤ code && code ≤ 0xDBFF

def isLowHalf (code : Nat) : Bool := 0xDC00 ≤ code && code ≤ 0xDFFF

def joinHalves (high low : Nat) : Char := Char.ofNat (0x10000 + (high - 0xD800) * 0x400 + (low - 0xDC00))

def keep (ending : Ending) : List Piece → Except Fault (List Char)
  | [] =>
    match ending.keepFault? with
    | some fault => .error fault
    | none => .ok []
  | .plain c _ :: rest => (c :: ·) <$> keep ending rest
  | .escape c _ :: rest => (c :: ·) <$> keep ending rest
  | .unit code after :: rest =>
    if isLowHalf code then .error (Cause.loneSurrogate.here after)
    else if isHighHalf code then
      match rest with
      | .unit low after :: rest =>
        if isLowHalf low then (joinHalves code low :: ·) <$> keep ending rest
        else .error (Cause.loneSurrogate.here after)
      | .plain _ place :: _ => .error (Cause.unfinishedSurrogate.next place)
      | .escape _ letter :: _ => .error (Cause.unfinishedSurrogate.next letter)
      | [] => .error ending.halfFault
    else (Char.ofNat code :: ·) <$> keep ending rest

def Scan.text (scan : Scan) : Except Fault String := String.ofList <$> keep scan.ending scan.pieces

def Scan.after (scan : Scan) : Place :=
  match scan.ending with
  | .closed after => after
  | _ => []

@[simp] theorem Scan.after_cons (piece : Piece) (scan : Scan) : (scan.cons piece).after = scan.after := rfl

theorem length_after_scan (text : List Char) : (scan text).after.length ≤ text.length := by
  fun_induction scan text with
  | case5 rest _ => by_cases short : bytes rest < 4 <;> simp [Scan.after, short]
  | _ => grind [Scan.after, Scan.after_cons]

end Quotation
end GrammarCheck.Json
