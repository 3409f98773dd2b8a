import GrammarCheck.Bundled.Nyx.Part

/-! Reading a program lexeme by lexeme. Where a lexeme does not fit, there are several ways to go on,
and each is followed in a draft of its own until another one turns out to be cheaper. -/
namespace GrammarCheck.Bundled.Nyx

/-- A statement without its semicolon so far: its word, and what was skipped after it. -/
structure Unfinished where
  word : Span
  inner : Option Skipped

namespace Unfinished

def skip (statement : Unfinished) (span : Span) : Unfinished :=
  match statement.inner with
  | some inner => ⟨statement.word, some (inner.join (.ofLexeme span))⟩
  | none => ⟨statement.word, some (.ofLexeme span)⟩

def text (statement : Unfinished) : Skipped :=
  match statement.inner with
  | some inner => (Skipped.ofLexeme statement.word).join inner
  | none => .ofLexeme statement.word

end Unfinished

/-- What is read of a program so far: its parts, the latest first, what their errors cost together, and
the statement at the end. -/
structure Draft where
  parts : List Part
  spent : Nat
  unfinished : Option Unfinished

namespace Draft

def empty : Draft := ⟨[], 0, none⟩

def cost (draft : Draft) : Nat :=
  match draft.unfinished with
  | some ⟨_, some inner⟩ => draft.spent + inner.cost
  | _ => draft.spent

def start (draft : Draft) (word : Span) : Draft := { draft with unfinished := some ⟨word, none⟩ }

def add (draft : Draft) (part : Part) : Draft :=
  ⟨part :: draft.parts, draft.spent + part.cost, none⟩

/-- Skipped text joins what was skipped right before it. -/
def skip (draft : Draft) (text : Skipped) : Draft :=
  match draft.parts with
  | .skipped before :: parts =>
    ⟨.skipped (before.join text) :: parts, draft.spent - before.cost + (before.join text).cost, none⟩
  | _ => draft.add (.skipped text)

/-- The parts before a skipped text, the latest first, skipped with it. An error between the last
statement and the text does not count as a node of it. -/
def sink (counts : Bool) : List Part → Skipped → Skipped
  | [], text => text
  | [.skipped front], text => front.join text
  | part :: earlier, text =>
    let counts := counts || part.isStatement
    sink counts earlier (Skipped.join ⟨part.span, counts.toNat, [part.tree]⟩ text)

/-- The draft with all of its parts and a word after them skipped. An error in front only grows. -/
def abandon (draft : Draft) (word : Span) : Draft :=
  let whole := sink false draft.parts (.ofLexeme word)
  match draft.parts.getLast? with
  | some (.skipped front) => ⟨[.skipped whole], draft.spent - front.cost + whole.cost, none⟩
  | _ => ⟨[.skipped whole], draft.spent + whole.cost, none⟩

/-- The most that it may cost to pass over all text from the error in front, or else from the start of
the text, to the end of a word that is given up. -/
def reach : Nat := 510

def reaches (draft : Draft) (word : Span) : Bool :=
  let origin :=
    match draft.parts.getLast? with
    | some (.skipped front) => front.span.stop
    | _ => .origin
  passingCost ⟨origin, word.stop⟩ ≤ reach

def givenUp (draft : Draft) (word : Span) : List Draft :=
  if draft.reaches word then [draft.abandon word] else []

def isSkipping (draft : Draft) : Bool :=
  match draft.unfinished, draft.parts with
  | some statement, _ => statement.inner.isSome
  | none, .skipped _ :: _ => true
  | none, _ => false

def takes (draft : Draft) (lexeme : Lexeme) : Bool :=
  draft.isSkipping ||
    match draft.unfinished, lexeme with
    | none, .word _ => true
    | some _, .semicolon _ => true
    | _, _ => false

/-- Whether the program may end here, if only in skipped text. -/
def mayEnd (draft : Draft) : Bool := draft.isSkipping || draft.unfinished.isNone

/-- The ways to go on with a lexeme. A second word in a statement belongs to what is skipped in it, or
begins the next statement, after the first one is given up or a semicolon is made up for it. -/
def next (draft : Draft) : Lexeme → List Draft
  | .word span =>
    match draft.unfinished with
    | none => [draft.start span]
    | some statement =>
      let inside := { draft with unfinished := some (statement.skip span) }
      if statement.inner.isSome then [(draft.skip statement.text).start span, inside]
      else (draft.givenUp statement.word).map (·.start span) ++
        [inside, (draft.add (.mended statement.word)).start span]
  | .semicolon span =>
    match draft.unfinished with
    | none => [draft.skip (.ofLexeme span)]
    | some statement => [draft.add (.statement statement.word statement.inner span)]
  | .junk span =>
    match draft.unfinished with
    | none => [draft.skip (.ofLexeme span)]
    | some statement => [{ draft with unfinished := some (statement.skip span) }]

def closed (draft : Draft) : Draft :=
  match draft.unfinished with
  | none => draft
  | some statement => draft.skip statement.text

def cheapest (drafts : List Draft) : Option Draft := drafts.minOn? Draft.cost

/-- The drafts after one more lexeme. Of those that do not take it only the cheapest goes on, and only
if the others skip it and cost more by over an error with one node. A draft that skips the lexeme is
dropped when a cheaper one does not. -/
def readAll (drafts : List Draft) (lexeme : Lexeme) : List Draft :=
  let (taking, broken) := drafts.partition (·.takes lexeme)
  let read := taking.flatMap (·.next lexeme)
  match cheapest (read.filter (!·.isSkipping)), cheapest broken with
  | some best, _ => read.filter fun draft => !draft.isSkipping || draft.cost ≤ best.cost
  | none, none => read
  | none, some draft =>
    if read.all (draft.cost + errorCost + nodeCost < ·.cost) then draft.next lexeme ++ read
    else read

def tree (draft : Draft) : SyntaxTree :=
  .branch "program" ⟨0, 0⟩ (draft.parts.reverse.map Part.tree)

/-- The tree of a program with a bare word at its end, which is given up or mended, whichever costs
less. A word that is all there is and too far away to be given up can still fail as a whole, with the
blanks up to the end of the text. -/
def treeBefore (stop : Mark) (draft : Draft) (word : Span) : SyntaxTree :=
  let mended := draft.add (.mended word)
  let whole := Skipped.ofLexeme ⟨word.start, stop⟩
  if draft.parts.isEmpty && !draft.reaches word && whole.cost < mended.cost then whole.tree
  else ((cheapest (draft.givenUp word ++ [mended])).getD mended).tree

/-- The tree at the end of the text, of the cheapest draft that may end, and else of the cheapest. -/
def finalTree (stop : Mark) (drafts : List Draft) : SyntaxTree :=
  match cheapest ((drafts.filter mayEnd).map closed), cheapest drafts with
  | some draft, _ => draft.tree
  | none, some draft =>
    match draft.unfinished with
    | some statement => treeBefore stop draft statement.word
    | none => draft.tree
  | none, none => empty.tree

end Draft

end GrammarCheck.Bundled.Nyx
