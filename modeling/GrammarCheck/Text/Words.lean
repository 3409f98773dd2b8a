import GrammarCheck.Text.Letters

/-! Names written in any of the usual styles, `grammarDir`, `GRAMMAR-DIR` or `grammar_dir`, brought
to one: lower case words joined by underscores. Only the case of ASCII letters is looked at. -/
namespace GrammarCheck.Text

/-- The parts of a text between characters that are neither letters nor digits, empty ones included. -/
def fragments : List Char → List (List Char)
  | [] => [[]]
  | c :: rest =>
    match fragments rest with
    | first :: others => if isLetterOrDigit c then (c :: first) :: others else [] :: first :: others
    | [] => [[c]]

inductive Pace
  | fresh
  | lower
  | upper
deriving DecidableEq

/-- Splits a fragment where its case changes: before a capital that follows a small letter, and
before the last of several capitals when a small letter follows it. `word` holds the word under
way, backwards. -/
def wordsFrom (pace : Pace) (word : List Char) : List Char → List (List Char)
  | [] => [word.reverse]
  | [c] => [(c :: word).reverse]
  | c :: next :: rest =>
    let ahead := if c.isLower then .lower else if c.isUpper then .upper else pace
    if ahead = .lower && next.isUpper then
      (c :: word).reverse :: wordsFrom .fresh [] (next :: rest)
    else if pace = .upper && c.isUpper && next.isLower then
      word.reverse :: wordsFrom .fresh [c] (next :: rest)
    else wordsFrom ahead (c :: word) (next :: rest)

def words (text : String) : List String :=
  ((fragments text.toList).filter (!·.isEmpty)).flatMap fun fragment =>
    (wordsFrom .fresh [] fragment).map fun word => String.ofList (word.map Char.toLower)

def snakeCase (text : String) : String := "_".intercalate (words text)

end GrammarCheck.Text
