import GrammarCheck.RegistryFile.Token

/-! Taking tokens one at a time. What is expected decides which separators and closing brackets are
welcome, and a separator that was taken does not come back. Main statements: every taking leaves fewer
tokens. -/
namespace GrammarCheck.RegistryFile

inductive Expected where
  | value
  | fieldValue
  | key
  | item
deriving DecidableEq

def next (expected : Expected) : List Token → Except Failure (Token × List Token)
  | [] => .error (.fault (.ended "any value (got EOF)"))
  | .fault fault :: _ => .error (.fault fault)
  | .closeObject :: rest =>
    if expected = .key then .ok (.closeObject, rest) else .error (.fault (.unexpected '}' "a value"))
  | .closeList :: rest =>
    if expected = .item then .ok (.closeList, rest) else .error (.fault (.unexpected ']' "a value"))
  | .colon :: rest =>
    if expected = .fieldValue then next .value rest
    else .error (.fault (.unexpected ':' "a value, not a colon"))
  | .comma :: rest =>
    if expected = .key ∨ expected = .item then next .value rest
    else .error (.fault (.unexpected ',' "<value or key>"))
  | token :: rest => .ok (token, rest)

/-- Passes over the rest of a list or object, up to as many closing brackets of either kind as were
opened: one, and one more for each level of `depth`. The end of the text closes none, and comes again. -/
def skipInside : Nat → List Token → Except Failure (List Token)
  | _, [] => .error .endless
  | _, .fault fault :: _ => .error (.fault fault)
  | depth, .openObject :: rest => skipInside (depth + 1) rest
  | depth, .openList :: rest => skipInside (depth + 1) rest
  | 0, .closeObject :: rest => .ok rest
  | 0, .closeList :: rest => .ok rest
  | depth + 1, .closeObject :: rest => skipInside depth rest
  | depth + 1, .closeList :: rest => skipInside depth rest
  | depth, _ :: rest => skipInside depth rest

def skip : List Token → Except Failure (List Token)
  | [] => .error (.fault (.unexpected 'E' "value"))
  | .fault fault :: _ => .error (.fault fault)
  | .colon :: rest => skip rest
  | .openObject :: rest => skipInside 0 rest
  | .openList :: rest => skipInside 0 rest
  | .closeObject :: _ => .error (.fault (.unexpected 'R' "value"))
  | .closeList :: _ => .error (.fault (.unexpected 'R' "value"))
  | .comma :: _ => .error (.fault (.unexpected 'C' "value"))
  | .number (.wideUnsigned _) :: _ => .error (.fault (.unexpected 'U' "value"))
  | .number (.wideSigned _) :: _ => .error (.fault (.unexpected 'I' "value"))
  | _ :: rest => .ok rest

theorem length_after_next {expected : Expected} {tokens rest : List Token} {token : Token}
    (ok : next expected tokens = .ok (token, rest)) : rest.length < tokens.length := by
  fun_induction next expected tokens with
  | case7 | case9 =>
    rename_i shorter
    exact Nat.lt_succ_of_lt (shorter ok)
  | case3 | case5 | case11 => cases ok; simp
  | _ => contradiction

theorem length_after_skipInside {depth : Nat} {tokens rest : List Token}
    (ok : skipInside depth tokens = .ok rest) : rest.length < tokens.length := by
  fun_induction skipInside depth tokens <;> grind

theorem length_after_skip {tokens rest : List Token} (ok : skip tokens = .ok rest) :
    rest.length < tokens.length := by
  fun_induction skip tokens with
  | case3 _ shorter => exact Nat.lt_succ_of_lt (shorter ok)
  | case4 | case5 => exact Nat.lt_succ_of_lt (length_after_skipInside ok)
  | case11 => cases ok; simp
  | _ => contradiction

end GrammarCheck.RegistryFile
