import GrammarCheck.Json.Quotation
import GrammarCheck.RegistryFile.Fault

/-! Strings of a registry file. Controls stand for themselves, an unknown escape stands for its letter,
and a string at the end of the text may be closed by the last quote in it, whatever that quote was
before. Main statement: what is left after a string is no longer than what was read. -/
namespace GrammarCheck.RegistryFile

/-- Four hexadecimal digits, the first of which may be a plus sign. -/
def hexValue? : List Char → Option Nat
  | '+' :: digits => Json.hexValue? digits
  | digits => Json.hexValue? digits

/-- The fault of an escape by number that lacks its four digits. -/
def shortEscape (rest : List Char) : Fault :=
  if Json.bytes rest < 4 then .ended "in Unicode escape sequence" else .strayCharacter '?'

/-- What a backslash and the letter after it stand for: the letter itself if nothing else. -/
def escapeValue (c : Char) : Char :=
  match c with
  | 'b' | 'f' | 'n' | 'r' | 't' => (Json.escapeValue? c).getD c
  | c => c

structure Quotation where
  text : List Char
  after : List Char

def Quotation.cons (c : Char) (quotation : Quotation) : Quotation := { quotation with text := c :: quotation.text }

/-- Reads a string after its opening quote. `quoteLast` tells whether the character before was a
quote, which closes the string if nothing follows. -/
def quotation (quoteLast : Bool) : List Char → Except Fault Quotation
  | [] => if quoteLast then .ok ⟨[], []⟩ else .error (.ended "in string literal")
  | '"' :: rest => .ok ⟨[], rest⟩
  | ['\\'] => .error (.ended "in string escape")
  | '\\' :: 'u' :: a :: b :: c :: d :: rest =>
    match hexValue? [a, b, c, d] with
    | none => .error (.strayCharacter '?')
    | some code =>
      if Json.Quotation.isLowHalf code then .error .loneLowSurrogate
      else if Json.Quotation.isHighHalf code then
        match rest with
        | '\\' :: 'u' :: a :: b :: c :: d :: rest =>
          match hexValue? [a, b, c, d] with
          | none => .error (.strayCharacter '?')
          | some low =>
            if Json.Quotation.isLowHalf low then
              (·.cons (Json.Quotation.joinHalves code low)) <$> quotation false rest
            else .error .loneHighSurrogate
        | '\\' :: 'u' :: rest =>
          .error (if Json.bytes rest < 4 then .loneHighSurrogate else .strayCharacter '?')
        | _ => .error .loneHighSurrogate
      else (·.cons (Char.ofNat code)) <$> quotation false rest
  | '\\' :: 'u' :: rest => .error (shortEscape rest)
  | '\\' :: c :: rest => (·.cons (escapeValue c)) <$> quotation (c == '"') rest
  | c :: rest => (·.cons c) <$> quotation false rest

theorem length_of_map_cons {read : Except Fault Quotation} {c : Char} {result : Quotation} {bound : Nat}
    (ok : (·.cons c) <$> read = .ok result)
    (shorter : ∀ {inner : Quotation}, read = .ok inner → inner.after.length ≤ bound) :
    result.after.length ≤ bound := by
  cases read with
  | error fault => contradiction
  | ok inner =>
    have same : inner.cons c = result := Except.ok.inj ok
    subst same
    exact @shorter inner rfl

theorem length_after_quotation {quoteLast : Bool} {text : List Char} {result : Quotation}
    (ok : quotation quoteLast text = .ok result) : result.after.length ≤ text.length := by
  fun_induction quotation quoteLast text generalizing result with
  | case1 => cases ok; simp
  | case3 => cases ok; simp
  | case8 | case12 | case14 | case15 =>
    rename_i shorter
    have := length_of_map_cons ok shorter
    simp only [List.length_cons]
    omega
  | _ => contradiction

end GrammarCheck.RegistryFile
