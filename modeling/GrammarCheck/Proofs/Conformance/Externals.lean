import GrammarCheck.Proofs.Conformance.Missing

/-! Literals among the external tokens. Main statement: a check takes no note of them. The report is that of the
grammar without the literal, and its text is found missing exactly if some rule calls for it. -/
namespace GrammarCheck

namespace Grammar

/-- The grammars agree in what a check looks at. -/
structure CheckedAs (grammar other : Grammar) : Prop where
  name : grammar.name = other.name
  rules : grammar.rules = other.rules
  inline : grammar.inline = other.inline
  externalNames : grammar.externalNames = other.externalNames

theorem externalNames_of_literal {grammar : Grammar} {before after : List Rule} {entry : Rule} {text : String}
    (externals : grammar.externals = some (before ++ entry :: after)) (literal : entry.stringValue? = some text) :
    grammar.externalNames = { grammar with externals := some (before ++ after) }.externalNames := by
  have nameless : entry.symbolName? = none := by
    rw [Rule.symbolName?, (Rule.stringValue?_eq_some.mp literal).1]
  simp [Grammar.externalNames, externals, nameless]

end Grammar

namespace Conformance

/-- A check looks at the name, the rules, the inlined names and the names of external tokens, and at nothing else. -/
theorem check_eq_of_checkedAs {grammar other : Grammar} (alike : grammar.CheckedAs other) (language : Language) :
    check grammar language = check other language := by
  have visible : grammar.visibleRuleNames = other.visibleRuleNames := by
    simp only [Grammar.visibleRuleNames, Grammar.isInlined, alike.rules, alike.inline]
  have kinds : grammar.kindNames = other.kindNames := by
    funext named
    rw [Grammar.kindNames, Grammar.kindNames, alike.rules]
  have externals : grammar.visibleExternalNames = other.visibleExternalNames := by
    rw [Grammar.visibleExternalNames, Grammar.visibleExternalNames, alike.externalNames]
  rw [check, check, nameMismatch?, nameMismatch?, alike.name, visible, kinds, externals]

theorem isClean_of_missingAnonymous {report : Conformance} {name : String} (missing : name ∈ report.missingAnonymous) :
    report.isClean = false := by
  have listed : report.missingAnonymous.isEmpty = false := List.isEmpty_eq_false_iff_exists_mem.mpr ⟨name, missing⟩
  simp [isClean, listed]

/-- What comes of a literal among the external tokens, for a text that is no anonymous kind of the language. -/
theorem check_of_literal_external {grammar : Grammar} {language : Language} {before after : List Rule} {entry : Rule}
    {text : String} (externals : grammar.externals = some (before ++ entry :: after))
    (literal : entry.stringValue? = some text) (unresolved : language.resolves ⟨text, false⟩ = false) :
    check grammar language = check { grammar with externals := some (before ++ after) } language ∧
      (text ∈ (check grammar language).missingAnonymous ↔ grammar.CallsForAnonymous text) ∧
      (grammar.CallsForAnonymous text → (check grammar language).isClean = false) := by
  have reported : text ∈ (check grammar language).missingAnonymous ↔ grammar.CallsForAnonymous text := by
    rw [(lists_missingAnonymous grammar language).mem_iff, and_iff_right unresolved]
  refine ⟨check_eq_of_checkedAs ?_ language, reported, fun called => isClean_of_missingAnonymous (reported.mpr called)⟩
  exact ⟨rfl, rfl, rfl, Grammar.externalNames_of_literal externals literal⟩

/-- A grammar with a comma among its external tokens. -/
def commaGrammar (rule : Rule) : Grammar := ofRule rule [literalRule ","]

theorem check_of_comma_in_rule : "," ∈ (check (commaGrammar (literalRule ",")) bareLanguage).missingAnonymous ∧
    (check (commaGrammar (literalRule ",")) bareLanguage).isClean = false := by
  have called : (commaGrammar (literalRule ",")).CallsForAnonymous "," :=
    .string ⟨"a", literalRule ",", rfl, .root _⟩ rfl rfl
  have externals : (commaGrammar (literalRule ",")).externals = some ([] ++ literalRule "," :: []) := rfl
  have unresolved : bareLanguage.resolves ⟨",", false⟩ = false := by decide
  obtain ⟨_, reported, unclean⟩ := check_of_literal_external externals rfl unresolved
  exact ⟨reported.mpr called, unclean called⟩

/-- A comma that only the external scanner makes is not looked for. -/
theorem external_comma_passes : (commaGrammar blankRule).externals = some [literalRule ","] ∧
    bareLanguage.resolves ⟨",", false⟩ = false ∧
    (check (commaGrammar blankRule) bareLanguage).isClean = true := ⟨rfl, by decide, by decide⟩

end Conformance
end GrammarCheck
