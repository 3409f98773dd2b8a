/-! Why a text is no registry file. -/
namespace GrammarCheck.RegistryFile

inductive Fault where
  | unexpected (got : Char) (wanted : String)
  | ended (wanted : String)
  | outOfRange (number : String)
  | loneHighSurrogate
  | loneLowSurrogate
  | unsupported (shape wanted : String)
  | wrongShape (shape got : String)
  | noDefault (shape : String)
  | noKey (got : String)
  | missingField (shape field : String)

/-- What is said of a fault. The piece of the text around it that is shown with the message is left out. -/
def Fault.message : Fault → String
  | .unexpected got wanted => s!"Unexpected character: got '{got}', wanted {wanted}"
  | .ended wanted => s!"Unexpected end of file: wanted {wanted}"
  | .outOfRange number => s!"Number out of range: {number}"
  | .loneHighSurrogate => "Invalid UTF-8 encoding: high surrogate not followed by low surrogate"
  | .loneLowSurrogate => "Invalid UTF-8 encoding: unexpected low surrogate"
  | .unsupported shape wanted => s!"Unsupported type: got {shape}, wanted {wanted}"
  | .wrongShape shape got => s!"Wrong shape: expected {shape}, but got {got}"
  | .noDefault shape => s!"Operation failed on shape {shape}: type does not implement Default"
  | .noKey got => s!"Unexpected {got}, wanted scalar or object close"
  | .missingField shape field => s!"Field '{shape}::{field}' was not initialized"

/-- Reading stops at a fault. It does not stop at all if the text ends before a bracket is closed under a key
that is not known: the end is then taken as one more token to pass over, again and again. -/
inductive Failure where
  | fault (fault : Fault)
  | endless

/-- A text of characters of one byte each. The piece of a text that is shown with a fault is cut out by bytes,
and next to a longer character the cut stops the program, so that no message comes. -/
def Quotable (text : List Char) : Prop := ∀ c ∈ text, c.toNat < 128

def Fault.strayCharacter (c : Char) : Fault := .unexpected c "valid JSON character"

end GrammarCheck.RegistryFile
