import GrammarCheck.Grammar.Reading
import GrammarCheck.Proofs.Grammar.Occurrence
import GrammarCheck.Proofs.Text.ByteOrder
import Mathlib.Data.List.Basic

/-! The check that every symbol in the rules of a grammar is defined. Main statement: which grammars pass
it, and which rule and symbol a refusal names, in whatever order the rules are listed. -/
namespace GrammarCheck.Grammar
open Json (Fault)

def Defines (grammar : Grammar) (symbol : String) : Prop :=
  (∃ rule, grammar.rules.get? symbol = some rule) ∨
    ∃ entry ∈ grammar.externals.getD [], entry.kind = .symbol ∧ entry.name = some symbol

theorem defines_iff {grammar : Grammar} {symbol : String} :
    grammar.defines symbol = true ↔ grammar.Defines symbol := by
  rw [defines, Bool.or_eq_true, Option.isSome_iff_exists, List.contains_iff_mem, mem_externalNames]
  rfl

def HasRules (grammar : Grammar) : Prop := ∃ name rule, grammar.rules.get? name = some rule

theorem isEmpty_iff {grammar : Grammar} : grammar.rules.isEmpty = true ↔ ¬ grammar.HasRules := by
  rw [Table.isEmpty, List.isEmpty_iff]
  constructor
  · intro none rules
    obtain ⟨name, rule, found⟩ := rules
    have listed := Table.get?_eq_some.mp found
    rw [none] at listed
    exact nomatch listed
  · intro none
    refine List.eq_nil_iff_forall_not_mem.mpr fun (name, rule) listed => ?_
    exact none ⟨name, rule, Table.get?_eq_some.mpr listed⟩

def Refers (grammar : Grammar) (rule symbol : String) : Prop :=
  ∃ body node, grammar.rules.get? rule = some body ∧ body.Occurs node ∧ node.kind = .symbol ∧
    node.name = some symbol

def Closed (grammar : Grammar) : Prop := ∀ rule symbol, grammar.Refers rule symbol → grammar.Defines symbol

theorem mem_symbols {body : Rule} {symbol : String} : symbol ∈ body.symbols ↔
    ∃ node, body.Occurs node ∧ node.kind = .symbol ∧ node.name = some symbol := by
  simp only [Rule.symbols, Rule.mem_findings, Rule.symbolName?_eq_some]

/-- At `path` the body refers to the symbol, which is not defined, and all that it refers to at earlier
paths is defined. -/
structure FirstUndefined (grammar : Grammar) (body : Rule) (path : List Nat) (symbol : String) : Prop where
  here : ∃ node, body.at? path = some node ∧ node.kind = .symbol ∧ node.name = some symbol
  undefined : ¬ grammar.Defines symbol
  first : ∀ earlier < path, ∀ node name, body.at? earlier = some node → node.kind = .symbol →
    node.name = some name → grammar.Defines name

theorem firstUndefined_of_find? {grammar : Grammar} {body : Rule} {symbol : String}
    (found : body.symbols.find? (!grammar.defines ·) = some symbol) :
    ∃ path, grammar.FirstUndefined body path symbol := by
  obtain ⟨path, ⟨node, leads, taken⟩, undefined, first⟩ := Rule.firstAt_of_find? found
  have isDefined {name : String} (passed : (!grammar.defines name) = false) : grammar.Defines name :=
    defines_iff.mp (by simpa using passed)
  refine ⟨path, ⟨node, leads, Rule.symbolName?_eq_some.mp taken⟩, fun defined => ?_, ?_⟩
  · exact absurd undefined (by simp [defines_iff.mpr defined])
  · intro earlier less other name leads kind named
    exact isDefined (first earlier less other name leads (Rule.symbolName?_eq_some.mpr ⟨kind, named⟩))

def undefinedIn? (grammar : Grammar) (rule : String) : Option (String × String) :=
  (grammar.rules.get? rule).bind fun body =>
    (body.symbols.find? (!grammar.defines ·)).map fun symbol => (symbol, rule)

theorem undefinedIn?_eq_none {grammar : Grammar} {rule : String} :
    grammar.undefinedIn? rule = none ↔ ∀ symbol, grammar.Refers rule symbol → grammar.Defines symbol := by
  cases found : grammar.rules.get? rule with
  | none => simp [undefinedIn?, Refers, found]
  | some body =>
    simp only [undefinedIn?, found, Option.bind_some, Option.map_eq_none_iff, List.find?_eq_none, mem_symbols,
      Bool.not_eq_true', Bool.not_eq_false, defines_iff, Refers]
    constructor
    · intro all symbol refers
      obtain ⟨_, node, same, occurs, symbols⟩ := refers
      cases same
      exact all symbol ⟨node, occurs, symbols⟩
    · intro all symbol inside
      obtain ⟨node, occurs, symbols⟩ := inside
      exact all symbol ⟨body, node, rfl, occurs, symbols⟩

theorem undefinedSymbol?_eq_findSome? (grammar : Grammar) :
    grammar.undefinedSymbol? = grammar.rules.keys.findSome? grammar.undefinedIn? := by
  have same : ∀ entry ∈ grammar.rules.entries,
      (entry.2.symbols.find? (!grammar.defines ·)).map (fun symbol => (symbol, entry.1)) =
        (grammar.undefinedIn? ∘ (·.1)) entry := by
    intro (rule, body) listed
    simp [undefinedIn?, Table.get?_eq_some.mpr listed]
  rw [undefinedSymbol?, Table.keys, List.findSome?_map, ← List.head?_filterMap, ← List.head?_filterMap]
  exact congrArg List.head? (List.filterMap_congr same)

theorem undefinedSymbol?_eq_none {grammar : Grammar} : grammar.undefinedSymbol? = none ↔ grammar.Closed := by
  simp only [undefinedSymbol?_eq_findSome?, List.findSome?_eq_none_iff, undefinedIn?_eq_none, Table.mem_keys]
  constructor
  · intro all rule symbol refers
    obtain ⟨body, node, found, inside⟩ := refers
    exact all rule ⟨body, found⟩ symbol ⟨body, node, found, inside⟩
  · exact fun closed rule _ => closed rule

/-- A refusal names the least rule with an undefined symbol, and the first such symbol in it. -/
theorem undefinedSymbol?_eq_some {grammar : Grammar} {symbol rule : String}
    (found : grammar.undefinedSymbol? = some (symbol, rule)) :
    (∃ body path, grammar.rules.get? rule = some body ∧ grammar.FirstUndefined body path symbol) ∧
      ∀ other < rule, ∀ name, grammar.Refers other name → grammar.Defines name := by
  rw [undefinedSymbol?_eq_findSome?] at found
  obtain ⟨before, key, after, split, found, none⟩ := List.findSome?_eq_some_iff.mp found
  obtain ⟨body, defined, found⟩ := Option.bind_eq_some_iff.mp found
  obtain ⟨name, first, same⟩ := Option.map_eq_some_iff.mp found
  cases same
  refine ⟨⟨body, (firstUndefined_of_find? first).imp fun _ at_ => ⟨defined, at_⟩⟩, ?_⟩
  intro other less name refers
  -- the keys ascend, so a smaller rule was looked at before
  have ascending : (before ++ rule :: after).Pairwise (· < ·) := by
    rw [← split]
    exact List.pairwise_map.mpr grammar.rules.ascending
  have listed : other ∈ before ++ rule :: after := by
    obtain ⟨body, _, found, _⟩ := refers
    exact split ▸ Table.mem_keys.mpr ⟨body, found⟩
  rcases List.mem_append.mp listed with earlier | later
  · exact undefinedIn?_eq_none.mp (none other earlier) name refers
  · rcases List.mem_cons.mp later with same | later
    · exact absurd less (same ▸ String.lt_irrefl rule)
    · have more := (List.pairwise_cons.mp (List.pairwise_append.mp ascending).2.1).1 other later
      exact absurd less (String.lt_asymm more)

/-- The check as it goes with the names of the rules listed in any order. -/
def checkListed (grammar : Grammar) (names : List String) : Except GrammarError Grammar :=
  if names.isEmpty then .error (.noRules grammar.name)
  else
    match (names.mergeSort fun a b => decide (a ≤ b)).findSome? grammar.undefinedIn? with
    | some (symbol, rule) => .error (.undefinedSymbol symbol rule)
    | none => .ok grammar

theorem mergeSort_eq_keys {grammar : Grammar} {names : List String} (listed : names.Perm grammar.rules.keys) :
    (names.mergeSort fun a b => decide (a ≤ b)) = grammar.rules.keys := by
  have sorted : (names.mergeSort fun a b => decide (a ≤ b)).Pairwise fun a b => decide (a ≤ b) = true := by
    refine List.pairwise_mergeSort ?_ ?_ names
    · exact fun a b c first second => decide_eq_true (String.le_trans (of_decide_eq_true first) (of_decide_eq_true second))
    · intro a b
      rcases String.le_total a b with le | le <;> simp [le]
  have keys : grammar.rules.keys.Pairwise fun a b => decide (a ≤ b) = true :=
    (List.pairwise_map.mpr grammar.rules.ascending).imp fun less =>
      decide_eq_true (String.not_lt.mp (String.lt_asymm less))
  refine List.Perm.eq_of_pairwise ?_ sorted keys ((List.mergeSort_perm names _).trans listed)
  exact fun a b _ _ le ge => String.le_antisymm (of_decide_eq_true le) (of_decide_eq_true ge)

theorem checkListed_eq_check {grammar : Grammar} {names : List String}
    (listed : names.Perm grammar.rules.keys) : grammar.checkListed names = grammar.check := by
  have empty : names.isEmpty = grammar.rules.isEmpty := by
    rw [listed.isEmpty_eq]
    simp [Table.keys, Table.isEmpty]
  have first : (names.mergeSort fun a b => decide (a ≤ b)).findSome? grammar.undefinedIn? = grammar.undefinedSymbol? := by
    rw [mergeSort_eq_keys listed, undefinedSymbol?_eq_findSome?]
  rw [checkListed, first, empty]
  cases found : grammar.undefinedSymbol? with
  | none => simp only [check, found]
  | some pair => simp only [check, found]

/-- What reading a text answers that decodes to the grammar, its rules listed in any order. -/
structure Verdict (text : String) (grammar : Grammar) : Prop where
  accepted : ofText text = .ok grammar ↔ grammar.HasRules ∧ grammar.Closed
  noRules : ¬ grammar.HasRules → ofText text = .error (.noRules grammar.name) ∧
    (GrammarError.noRules grammar.name).message =
      "validation error: grammar '" ++ grammar.name ++ "' has no rules"
  undefined : grammar.HasRules → ¬ grammar.Closed → ∃ rule body path symbol,
    ofText text = .error (.undefinedSymbol symbol rule) ∧
    (GrammarError.undefinedSymbol symbol rule).message =
      "validation error: undefined symbol '" ++ symbol ++ "' referenced in rule '" ++ rule ++ "'" ∧
    grammar.rules.get? rule = some body ∧ grammar.FirstUndefined body path symbol ∧
    ∀ other, Text.bytes other < Text.bytes rule → ∀ name, grammar.Refers other name → grammar.Defines name
  anyOrder : ∀ names : List String, names.Perm grammar.rules.keys → ofText text = grammar.checkListed names

theorem ofText_eq_check {text : String} {grammar : Grammar} (decoded : decode text = .ok grammar) :
    ofText text = grammar.check := by
  rw [ofText, decoded]
  rfl

theorem check_of_not_hasRules {grammar : Grammar} (none : ¬ grammar.HasRules) :
    grammar.check = .error (.noRules grammar.name) := by
  rw [check, if_pos (isEmpty_iff.mpr none)]

theorem check_of_closed {grammar : Grammar} (rules : grammar.HasRules) (closed : grammar.Closed) :
    grammar.check = .ok grammar := by
  have full : ¬ grammar.rules.isEmpty = true := fun empty => isEmpty_iff.mp empty rules
  rw [check, if_neg full, undefinedSymbol?_eq_none.mpr closed]

theorem check_of_not_closed {grammar : Grammar} (rules : grammar.HasRules) (dangling : ¬ grammar.Closed) :
    ∃ symbol rule, grammar.undefinedSymbol? = some (symbol, rule) ∧
      grammar.check = .error (.undefinedSymbol symbol rule) := by
  have full : ¬ grammar.rules.isEmpty = true := fun empty => isEmpty_iff.mp empty rules
  cases found : grammar.undefinedSymbol? with
  | none => exact absurd (undefinedSymbol?_eq_none.mp found) dangling
  | some pair => exact ⟨pair.1, pair.2, rfl, by rw [check, if_neg full, found]⟩

theorem check_eq_ok_iff {given grammar : Grammar} :
    given.check = .ok grammar ↔ given = grammar ∧ grammar.HasRules ∧ grammar.Closed := by
  constructor
  · intro passed
    have rules : given.HasRules := Classical.byContradiction fun none => by
      rw [check_of_not_hasRules none] at passed
      exact nomatch passed
    have closed : given.Closed := Classical.byContradiction fun dangling => by
      obtain ⟨_, _, _, refused⟩ := check_of_not_closed rules dangling
      rw [refused] at passed
      exact nomatch passed
    rw [check_of_closed rules closed] at passed
    cases passed
    exact ⟨rfl, rules, closed⟩
  · intro passed
    obtain ⟨rfl, rules, closed⟩ := passed
    exact check_of_closed rules closed

theorem verdict_of_decode {text : String} {grammar : Grammar} (decoded : decode text = .ok grammar) :
    Verdict text grammar := by
  have read := ofText_eq_check decoded
  constructor
  case accepted =>
    rw [read]
    refine ⟨fun passed => ?_, fun ⟨rules, closed⟩ => check_of_closed rules closed⟩
    have rules : grammar.HasRules := Classical.byContradiction fun none => by
      rw [check_of_not_hasRules none] at passed
      exact nomatch passed
    refine ⟨rules, Classical.byContradiction fun dangling => ?_⟩
    obtain ⟨_, _, _, refused⟩ := check_of_not_closed rules dangling
    rw [refused] at passed
    exact nomatch passed
  case noRules =>
    exact fun none => ⟨read.trans (check_of_not_hasRules none), rfl⟩
  case undefined =>
    intro rules dangling
    obtain ⟨symbol, rule, found, refused⟩ := check_of_not_closed rules dangling
    obtain ⟨⟨body, path, defined, first⟩, smaller⟩ := undefinedSymbol?_eq_some found
    exact ⟨rule, body, path, symbol, read.trans refused, rfl, defined, first,
      fun other less => smaller other ((Text.lt_iff_bytes_lt other rule).mpr less)⟩
  case anyOrder =>
    exact fun names listed => read.trans (checkListed_eq_check listed).symm

/-- The text of a grammar with an undefined symbol in each of two rules, and with two of them in one. -/
def danglingText : String :=
  "\x7b\"name\":\"g\",\"rules\":\x7b\"b\":[\"SYMBOL\",null,\"y\"]," ++
    "\"a\":[\"TOKEN\",null,null,[\"SYMBOL\",null,\"w\"],[[\"SYMBOL\",null,\"x\"]]]\x7d\x7d"

def endsAt (text symbol rule : String) : Bool :=
  match ofText text with
  | .error (.undefinedSymbol found holder) => found == symbol && holder == rule
  | _ => false

theorem verdict_of_danglingText : ∃ grammar, decode danglingText = .ok grammar ∧ Verdict danglingText grammar ∧
    endsAt danglingText "w" "a" = true := by
  have refused : endsAt danglingText "w" "a" = true := by decide +kernel
  cases decoded : decode danglingText with
  | ok grammar => exact ⟨grammar, rfl, verdict_of_decode decoded, refused⟩
  | error fault =>
    have malformed : ofText danglingText = .error (.malformed danglingText fault) := by
      rw [ofText, decoded]
      rfl
    rw [endsAt, malformed] at refused
    exact nomatch refused

end GrammarCheck.Grammar
