import GrammarCheck.SyntaxTree

/-! The lexemes of the bundled languages: words of small letters, semicolons, and the junk between them.
All junk of one gap is one lexeme, from the first character of it to the last. -/
namespace GrammarCheck.Bundled

/-- A place in a text with the number of bytes before it. -/
structure Mark where
  position : Position
  offset : Nat

def Mark.origin : Mark := ⟨⟨0, 0⟩, 0⟩

def Mark.after (mark : Mark) (c : Char) : Mark :=
  ⟨mark.position.after c, mark.offset + c.utf8Size⟩

def Mark.endOf (text : String) : Mark := text.toList.foldl Mark.after .origin

structure Span where
  start : Mark
  stop : Mark

namespace Span

def through (first last : Span) : Span := ⟨first.start, last.stop⟩

/-- The stretch that reaches back to an earlier span, if there is one. -/
def joined (earlier : Option Span) (last : Span) : Span :=
  match earlier with
  | some first => first.through last
  | none => last

def bytes (span : Span) : Nat := span.stop.offset - span.start.offset

def lines (span : Span) : Nat := span.stop.position.row - span.start.position.row

end Span

inductive Lexeme where
  | word (span : Span)
  | semicolon (span : Span)
  | junk (span : Span)

def Lexeme.span : Lexeme → Span
  | word span | semicolon span | junk span => span

def isLetter (c : Char) : Bool := c.isLower

/-- The lexemes from `mark` on, after the junk of the gap at hand. A semicolon is junk if the language
has no use for it. -/
def lexemes (semicolons : Bool) (mark : Mark) (junk : Option Span) : List Char → List Lexeme
  | [] => junk.toList.map .junk
  | c :: rest =>
    let next := mark.after c
    if isLetter c then
      let stop := (rest.takeWhile isLetter).foldl Mark.after next
      junk.toList.map .junk ++
        .word ⟨mark, stop⟩ :: lexemes semicolons stop none (rest.dropWhile isLetter)
    else if semicolons && c == ';' then
      junk.toList.map .junk ++ .semicolon ⟨mark, next⟩ :: lexemes semicolons next none rest
    else if c == ' ' || c == '\n' then lexemes semicolons next junk rest
    else lexemes semicolons next (some (Span.joined junk ⟨mark, next⟩)) rest
termination_by text => text.length
decreasing_by
  · exact Nat.lt_succ_of_le (List.dropWhile_sublist _).length_le
  all_goals exact Nat.lt_succ_self _

/-- The lexemes of a text. A mark of byte order at its very start is no junk. -/
def lexemesOfText (semicolons : Bool) (text : String) : List Lexeme :=
  match text.toList with
  | '\uFEFF' :: rest => lexemes semicolons (Mark.origin.after '\uFEFF') none rest
  | text => lexemes semicolons .origin none text

end GrammarCheck.Bundled
