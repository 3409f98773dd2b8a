import GrammarCheck.Text.Hidden

/-! Text in double quotes on one line, as it is shown to a reader: quotes, backslashes and characters
without a shape of their own are spelled out. -/
namespace GrammarCheck.Text

def escaped (c : Char) : List Char :=
  match c with
  | '"' => ['\\', '"']
  | '\\' => ['\\', '\\']
  | '\n' => ['\\', 'n']
  | '\t' => ['\\', 't']
  | '\r' => ['\\', 'r']
  | '\x00' => ['\\', '0']
  | c => if isHidden c then ['\\', 'u', '{'] ++ Nat.toDigits 16 c.toNat ++ ['}'] else [c]

/-- The text in quotes. A single quote stands for itself. -/
def quoted (text : String) : String :=
  String.ofList ('"' :: text.toList.flatMap escaped ++ ['"'])

end GrammarCheck.Text
