import GrammarCheck.Text.Quoted

/-! What can be wrong with a JSON document, and where. A place is what is left of the text there, so
that scanners carry no counters; line and column are worked out for the one fault reported. -/
namespace GrammarCheck.Json

abbrev Place := List Char

def bytes : List Char → Nat
  | [] => 0
  | c :: rest => c.utf8Size + bytes rest

inductive Cause where
  | endInValue
  | endInList
  | endInObject
  | endInString
  | expectedValue
  | expectedWord
  | expectedColon
  | expectedItemEnd
  | expectedMemberEnd
  | keyNotString
  | trailingComma
  | trailingText
  | invalidNumber
  | numberOutOfRange
  | invalidEscape
  | loneSurrogate
  | unfinishedSurrogate
  | controlCharacter
  | tooDeep
  | wrongType (found expected : String)
  | unknownVariant (name : String) (known : List String)
  | noVariant (type : String)
  | missingField (name : String)
  | duplicateField (name : String)
  | wrongLength (length : Nat) (expected : String)

def Cause.message : Cause → String
  | .endInValue => "EOF while parsing a value"
  | .endInList => "EOF while parsing a list"
  | .endInObject => "EOF while parsing an object"
  | .endInString => "EOF while parsing a string"
  | .expectedValue => "expected value"
  | .expectedWord => "expected ident"
  | .expectedColon => "expected `:`"
  | .expectedItemEnd => "expected `,` or `]`"
  | .expectedMemberEnd => "expected `,` or `\x7d`"
  | .keyNotString => "key must be a string"
  | .trailingComma => "trailing comma"
  | .trailingText => "trailing characters"
  | .invalidNumber => "invalid number"
  | .numberOutOfRange => "number out of range"
  | .invalidEscape => "invalid escape"
  | .loneSurrogate => "lone leading surrogate in hex escape"
  | .unfinishedSurrogate => "unexpected end of hex escape"
  | .controlCharacter => "control character (\\u0000-\\u001F) found while parsing a string"
  | .tooDeep => "recursion limit exceeded"
  | .wrongType found expected => s!"invalid type: {found}, expected {expected}"
  | .unknownVariant name known =>
    s!"unknown variant `{name}`, expected one of " ++
      ", ".intercalate (known.map fun variant => s!"`{variant}`")
  | .noVariant type => s!"data did not match any variant of untagged enum {type}"
  | .missingField name => s!"missing field `{name}`"
  | .duplicateField name => s!"duplicate field `{name}`"
  | .wrongLength length expected => s!"invalid length {length}, expected {expected}"

/-- A cause and the place it is reported at: `ahead` bytes after `place`, or the end of the text. -/
structure Fault where
  cause : Cause
  place : Place
  ahead : Nat

def Cause.here (cause : Cause) (place : Place) : Fault := ⟨cause, place, 0⟩

def Cause.next (cause : Cause) (place : Place) : Fault := ⟨cause, place, 1⟩

/-- Line and column after the first `count` bytes of a text. Lines count from 1, columns are bytes
since the last line break. -/
def lineColumn (line column : Nat) : Nat → List Char → Nat × Nat
  | _, [] => (line, column)
  | 0, _ => (line, column)
  | count, c :: rest =>
    if c = '\n' then lineColumn (line + 1) 0 (count - 1) rest
    else if c.utf8Size ≤ count then lineColumn line (column + c.utf8Size) (count - c.utf8Size) rest
    else (line, column + count)

def Fault.message (text : String) (fault : Fault) : String :=
  let left := bytes fault.place
  let consumed := bytes text.toList - left + min fault.ahead left
  let (line, column) := lineColumn 1 0 consumed text.toList
  s!"{fault.cause.message} at line {line} column {column}"

end GrammarCheck.Json
