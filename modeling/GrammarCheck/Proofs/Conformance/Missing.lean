import GrammarCheck.Proofs.Conformance.Kinds
import GrammarCheck.Proofs.Text.ByteOrder

/-! What a check finds missing. Main statement: each list of a report ascends, and holds exactly those
kinds that the grammar calls for and the language does not resolve. -/
namespace GrammarCheck

/-- `names` is the list, strictly ascending by bytes, of exactly the names with property `p`. -/
structure Names.Lists (names : List String) (p : String → Prop) : Prop where
  ascending : names.Pairwise fun a b => Text.bytes a < Text.bytes b
  mem_iff : ∀ name, name ∈ names ↔ p name

namespace Grammar

inductive CallsForNamed (grammar : Grammar) (name : String) : Prop
  | rule {rule : Rule} (defined : grammar.rules.get? name = some rule)
      (visible : name.toList.head? ≠ some '_') (kept : name ∉ grammar.inline.getD [])
  | aliased {node : Rule} (exposed : grammar.Exposes node) (kind : node.kind = .alias)
      (value : node.value = some (.text name)) (named : node.named = some true)

inductive CallsForAnonymous (grammar : Grammar) (name : String) : Prop
  | string {node : Rule} (exposed : grammar.Exposes node) (kind : node.kind = .string)
      (value : node.value = some (.text name))
  | token {token content : Rule} (exposed : grammar.Exposes token)
      (kind : token.kind = .token ∨ token.kind = .immediateToken) (wraps : token.content = some content)
      (string : content.kind = .string) (value : content.value = some (.text name))
  | aliased {node : Rule} (exposed : grammar.Exposes node) (kind : node.kind = .alias)
      (value : node.value = some (.text name)) (anonymous : node.named ≠ some true)

def CallsForExternal (grammar : Grammar) (name : String) : Prop :=
  (∃ entry ∈ grammar.externals.getD [], entry.kind = .symbol ∧ entry.name = some name) ∧
    name.toList.head? ≠ some '_'

theorem callsForNamed_iff {grammar : Grammar} {name : String} :
    grammar.CallsForNamed name ↔ name ∈ grammar.visibleRuleNames ++ grammar.kindNames true := by
  simp only [List.mem_append, mem_visibleRuleNames, mem_kindNames, Rule.named_mem_ownKinds]
  constructor
  · intro called
    cases called with
    | rule defined visible kept => exact .inl ⟨⟨_, defined⟩, by simpa [isHiddenName] using visible, kept⟩
    | aliased exposed kind value named => exact .inr ⟨_, exposed, kind, value, named⟩
  · intro listed
    rcases listed with ⟨⟨_, defined⟩, visible, kept⟩ | ⟨_, exposed, kind, value, named⟩
    · exact .rule defined (by simpa [isHiddenName] using visible) kept
    · exact .aliased exposed kind value named

theorem callsForAnonymous_iff {grammar : Grammar} {name : String} :
    grammar.CallsForAnonymous name ↔ name ∈ grammar.kindNames false := by
  simp only [mem_kindNames, Rule.anonymous_mem_ownKinds]
  constructor
  · intro called
    cases called with
    | string exposed kind value => exact ⟨_, exposed, .inr (.inr ⟨kind, value⟩)⟩
    | token exposed kind wraps string value =>
      exact ⟨_, exposed, .inr (.inl ⟨Rule.isToken_iff.mpr kind, _, wraps, string, value⟩)⟩
    | aliased exposed kind value anonymous => exact ⟨_, exposed, .inl ⟨kind, value, anonymous⟩⟩
  · intro listed
    obtain ⟨_, exposed, own⟩ := listed
    rcases own with ⟨kind, value, anonymous⟩ | ⟨kind, _, wraps, string, value⟩ | ⟨kind, value⟩
    · exact .aliased exposed kind value anonymous
    · exact .token exposed (Rule.isToken_iff.mp kind) wraps string value
    · exact .string exposed kind value

theorem callsForExternal_iff {grammar : Grammar} {name : String} :
    grammar.CallsForExternal name ↔ name ∈ grammar.visibleExternalNames := by
  simp [visibleExternalNames, mem_externalNames, CallsForExternal, isHiddenName]

end Grammar

namespace Conformance

theorem missing_lists {language : Language} {names : List String} {named : Bool} {p : String → Prop}
    (same : ∀ name, p name ↔ name ∈ names) :
    Names.Lists (missing language names named) fun name =>
      language.resolves ⟨name, named⟩ = false ∧ p name := by
  constructor
  · have ascending := (Names.ascending_ofList names).filter fun name => !language.resolves ⟨name, named⟩
    exact ascending.imp (Text.lt_iff_bytes_lt _ _).mp
  · intro name
    rw [missing, List.mem_filter, Names.mem_ofList, same, Bool.not_eq_true', and_comm]

theorem lists_missingNamed (grammar : Grammar) (language : Language) :
    Names.Lists (check grammar language).missingNamed fun name =>
      language.resolves ⟨name, true⟩ = false ∧ grammar.CallsForNamed name :=
  missing_lists fun _ => Grammar.callsForNamed_iff

theorem lists_missingAnonymous (grammar : Grammar) (language : Language) :
    Names.Lists (check grammar language).missingAnonymous fun name =>
      language.resolves ⟨name, false⟩ = false ∧ grammar.CallsForAnonymous name :=
  missing_lists fun _ => Grammar.callsForAnonymous_iff

theorem lists_missingExternals (grammar : Grammar) (language : Language) :
    Names.Lists (check grammar language).missingExternals fun name =>
      language.resolves ⟨name, true⟩ = false ∧ grammar.CallsForExternal name :=
  missing_lists fun _ => Grammar.callsForExternal_iff

theorem check_lists_missing (grammar : Grammar) (language : Language) :
    Names.Lists (check grammar language).missingNamed (fun name =>
        language.resolves ⟨name, true⟩ = false ∧ grammar.CallsForNamed name) ∧
      Names.Lists (check grammar language).missingAnonymous (fun name =>
        language.resolves ⟨name, false⟩ = false ∧ grammar.CallsForAnonymous name) ∧
      Names.Lists (check grammar language).missingExternals (fun name =>
        language.resolves ⟨name, true⟩ = false ∧ grammar.CallsForExternal name) :=
  ⟨lists_missingNamed grammar language, lists_missingAnonymous grammar language,
    lists_missingExternals grammar language⟩

def blankRule : Rule := ⟨.blank, none, none, none, [], none, none, none⟩

def literalRule (text : String) : Rule := ⟨.string, some (.text text), none, none, [], none, none, none⟩

/-- A grammar of one rule, with external tokens. -/
def ofRule (rule : Rule) (externals : List Rule) : Grammar where
  name := "g"
  rules := Table.empty.insert "a" rule
  extras := none
  externals := some externals
  inline := none
  conflicts := none
  word := none
  supertypes := none

/-- A language that knows the rule of such a grammar and nothing else. -/
def bareLanguage : Language := .ofTable 15 none [⟨"a", true, true, false⟩]

/-- A grammar of one rule with two external tokens, one hidden and one visible. -/
def scannerGrammar : Grammar where
  name := "g"
  rules := Table.empty.insert "a" ⟨.blank, none, none, none, [], none, none, none⟩
  extras := none
  externals := some [⟨.symbol, none, some "_dedent", none, [], none, none, none⟩,
    ⟨.symbol, none, some "indent", none, [], none, none, none⟩]
  inline := none
  conflicts := none
  word := none
  supertypes := none

def scannerLanguage : Language :=
  .ofTable 15 none [⟨"a", true, true, false⟩, ⟨"indent", true, true, false⟩]

/-- Neither an external token that the language resolves nor a hidden one that it does not resolve is
missing. -/
theorem external_names_not_all_missing :
    scannerGrammar.externalNames = ["_dedent", "indent"] ∧
      scannerLanguage.resolves ⟨"_dedent", true⟩ = false ∧
      (check scannerGrammar scannerLanguage).missingExternals = [] ∧
      ¬ Names.Lists (check scannerGrammar scannerLanguage).missingExternals fun name =>
        ∃ entry ∈ scannerGrammar.externals.getD [], entry.kind = .symbol ∧ entry.name = some name := by
  have none : (check scannerGrammar scannerLanguage).missingExternals = [] := by decide
  refine ⟨by decide, by decide, none, fun lists => ?_⟩
  have listed := (lists.mem_iff "indent").mpr ⟨_, .tail _ (.head _), rfl, rfl⟩
  rw [none] at listed
  exact nomatch listed

end Conformance
end GrammarCheck
