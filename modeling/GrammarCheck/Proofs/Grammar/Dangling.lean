import GrammarCheck.Proofs.Grammar.ObjectForm

/-! Where symbols may dangle in a grammar that is accepted. Main statement: the check looks at the symbols
in rules that have a name, and at no other. A grammar is accepted exactly if each of its symbols that refers
to nothing has no name, or stands in an extra or below the top of an external. -/
namespace GrammarCheck.Grammar

/-- The trees of a grammar. -/
inductive Place where
  | rule (name : String)
  | extra
  | external

def Contains (grammar : Grammar) (node : Rule) : Place → Prop
  | .rule name => ∃ body, grammar.rules.get? name = some body ∧ body.Occurs node
  | .extra => ∃ body ∈ grammar.extras.getD [], body.Occurs node
  | .external => ∃ body ∈ grammar.externals.getD [], body.Occurs node

/-- A symbol that has no name, or the name of neither a rule nor an external. -/
def Dangles (grammar : Grammar) (node : Rule) : Prop :=
  node.kind = .symbol ∧ ∀ name, node.name = some name → ¬ grammar.Defines name

/-- What the check does not look at: symbols without a name, extras, and what is inside externals. -/
def Overlooks (grammar : Grammar) (node : Rule) : Place → Prop
  | .rule _ => node.name = none
  | .extra => True
  | .external => node.name = none ∨ node ∉ grammar.externals.getD []

theorem closed_iff_overlooks {grammar : Grammar} : grammar.Closed ↔
    ∀ place node, grammar.Contains node place → grammar.Dangles node → grammar.Overlooks node place := by
  constructor
  · intro closed place node contains dangles
    obtain ⟨kind, undefined⟩ := dangles
    cases place with
    | extra => trivial
    | rule rule =>
      obtain ⟨body, found, occurs⟩ := contains
      cases named : node.name with
      | none => exact named
      | some name => exact absurd (closed rule name ⟨body, node, found, occurs, kind, named⟩) (undefined name named)
    | external =>
      cases named : node.name with
      | none => exact .inl named
      | some name =>
        -- at the top of an external the symbol defines its own name
        exact .inr fun top => undefined name named (.inr ⟨node, top, kind, named⟩)
  · intro overlooks rule symbol refers
    obtain ⟨body, node, found, occurs, kind, named⟩ := refers
    refine Classical.byContradiction fun undefined => ?_
    have dangles : grammar.Dangles node :=
      ⟨kind, fun name same => Option.some.inj (named.symm.trans same) ▸ undefined⟩
    have nameless : node.name = none := overlooks (.rule rule) node ⟨body, found, occurs⟩ dangles
    exact nomatch named.symm.trans nameless

theorem ofText_eq_ok_iff {text : String} {grammar : Grammar} : ofText text = .ok grammar ↔
    decode text = .ok grammar ∧ grammar.HasRules ∧
      ∀ place node, grammar.Contains node place → grammar.Dangles node → grammar.Overlooks node place := by
  rw [← closed_iff_overlooks]
  cases decoded : decode text with
  | error fault =>
    have refused : ofText text = .error (.malformed text fault) := by rw [ofText, decoded]; rfl
    rw [refused]
    simp
  | ok given =>
    rw [ofText_eq_check decoded, check_eq_ok_iff, Except.ok.injEq]

/-- A nameless symbol in a rule, an undefined one in an extra, and another inside an external. -/
def strayText : String :=
  "\x7b\"name\":\"g\",\"rules\":\x7b\"a\":\x7b\"type\":\"SYMBOL\"\x7d\x7d," ++
    "\"extras\":[\x7b\"type\":\"SYMBOL\",\"name\":\"x\"\x7d]," ++
    "\"externals\":[\x7b\"type\":\"TOKEN\",\"content\":\x7b\"type\":\"SYMBOL\",\"name\":\"y\"\x7d\x7d]\x7d"

def strayNode (name : Option String) : Rule := ⟨.symbol, none, name, none, [], none, none, none⟩

def strayGrammar : Grammar where
  name := "g"
  rules := Table.ofEntries [("a", strayNode none)]
  extras := some [strayNode (some "x")]
  externals := some [⟨.token, none, none, some (strayNode (some "y")), [], none, none, none⟩]
  inline := none
  conflicts := none
  word := none
  supertypes := none

theorem written_strayGrammar : strayGrammar.objectForm.written = strayText := by decide +kernel

theorem dangles_strayNode {name : Option String} (undefined : ∀ given, name = some given → strayGrammar.defines given = false) :
    strayGrammar.Dangles (strayNode name) :=
  ⟨rfl, fun given same defined => Bool.false_ne_true ((undefined given same).symm.trans (defines_iff.mpr defined))⟩

/-- Symbols that refer to nothing are accepted in every part of a grammar. -/
theorem accepts_dangling : ofText strayText = .ok strayGrammar ∧
    ∀ place ∈ [Place.rule "a", .extra, .external],
      ∃ node, strayGrammar.Contains node place ∧ strayGrammar.Dangles node := by
  constructor
  · have closed : strayGrammar.Closed := undefinedSymbol?_eq_none.mp (by decide +kernel)
    rw [← written_strayGrammar, ofText_objectForm (by decide +kernel)]
    exact check_of_closed ⟨"a", strayNode none, rfl⟩ closed
  · intro place listed
    simp only [List.mem_cons, List.not_mem_nil, or_false] at listed
    obtain rfl | rfl | rfl := listed
    · exact ⟨strayNode none, ⟨_, rfl, .root _⟩, dangles_strayNode (by simp)⟩
    · exact ⟨strayNode (some "x"), ⟨_, .head _, .root _⟩, dangles_strayNode (by decide)⟩
    · exact ⟨strayNode (some "y"), ⟨_, .head _, .under rfl (.head _) (.root _)⟩, dangles_strayNode (by decide)⟩

end GrammarCheck.Grammar
