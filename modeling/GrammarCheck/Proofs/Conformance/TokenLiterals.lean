import GrammarCheck.Proofs.Conformance.Missing

/-! Tokens that wrap one string. Main statement: such a token counts as the literal exactly if nothing stands
between the two. With a precedence or another token in between, the text is called for only where some other
node of the grammar calls for it. -/
namespace GrammarCheck

namespace Rule

/-- Precedences and tokens, which match what their content does. -/
def isWrapper (rule : Rule) : Bool :=
  [RuleKind.prec, .precLeft, .precRight, .precDynamic, .token, .immediateToken].contains rule.kind

/-- The content of `rule` is, under `depth` wrappers, a string of the given text. -/
inductive WrapsText : Rule → Nat → String → Prop
  | string {rule content : Rule} {text : String} (wraps : rule.content = some content)
      (kind : content.kind = .string) (value : content.value = some (.text text)) : WrapsText rule 0 text
  | wrapper {rule content : Rule} {depth : Nat} {text : String} (wraps : rule.content = some content)
      (wrapper : content.isWrapper = true) (inside : WrapsText content depth text) : WrapsText rule (depth + 1) text

theorem stringValue?_of_isWrapper {rule : Rule} (wrapper : rule.isWrapper = true) : rule.stringValue? = none := by
  refine Option.eq_none_iff_forall_ne_some.mpr fun text valued => ?_
  have kind : rule.kind = .string := (stringValue?_eq_some.mp valued).1
  rw [isWrapper, kind] at wrapper
  contradiction

variable {token : Rule} {depth : Nat} {text : String}

theorem literal?_of_wrapsText (isToken : token.isToken = true) (wraps : token.WrapsText depth text) :
    token.literal? = if depth = 0 then some text else none := by
  rw [literal?, if_pos isToken]
  cases wraps with
  | string content kind value => simp [content, stringValue?_eq_some.mpr ⟨kind, value⟩]
  | wrapper content wrapper _ => simp [content, stringValue?_of_isWrapper wrapper]

theorem literals_of_wrapsText (isToken : token.isToken = true) (wraps : token.WrapsText depth text) :
    token.literals = if depth = 0 then [text] else [] := by
  have own : token.literals = token.literal?.toList := by
    rw [literals_of_isToken isToken, literal?, if_pos isToken]
  rw [own, literal?_of_wrapsText isToken wraps]
  split <;> rfl

theorem literal?_iff_direct (isToken : token.isToken = true) (wraps : token.WrapsText depth text) :
    token.literal? = some text ↔ depth = 0 := by
  simp [literal?_of_wrapsText isToken wraps]

theorem anonymous_mem_ownKinds_iff_direct (isToken : token.isToken = true) (wraps : token.WrapsText depth text) :
    ⟨text, false⟩ ∈ token.ownKinds ↔ depth = 0 := by
  have other : token.kind ≠ .alias := by
    rcases isToken_iff.mp isToken with kind | kind <;> simp [kind]
  rw [anonymous_mem_ownKinds_iff, or_iff_right fun renamed => other renamed.1, literal?_iff_direct isToken wraps]

end Rule

theorem exists_iff_this_or_other {α : Type} {p q : α → Prop} {this : α} (inside : p this) :
    (∃ x, p x ∧ q x) ↔ q this ∨ ∃ x, p x ∧ x ≠ this ∧ q x := by
  constructor
  · intro found
    obtain ⟨x, among, holds⟩ := found
    by_cases same : x = this
    · exact .inl (same ▸ holds)
    · exact .inr ⟨x, among, same, holds⟩
  · intro found
    rcases found with holds | ⟨x, among, _, holds⟩
    · exact ⟨this, inside, holds⟩
    · exact ⟨x, among, holds⟩

namespace Conformance

/-- What comes of a token below no other token, with `depth` wrappers between it and its string. -/
theorem literal_of_token {rule token : Rule} {depth : Nat} {text : String} (exposed : rule.Exposed token)
    (kind : token.kind = .token ∨ token.kind = .immediateToken) (wraps : token.WrapsText depth text) :
    token.literals = (if depth = 0 then [text] else []) ∧
      (text ∈ rule.literals ↔
        depth = 0 ∨ ∃ node, rule.Exposed node ∧ node ≠ token ∧ node.literal? = some text) ∧
      ∀ grammar language name, grammar.rules.get? name = some rule → language.resolves ⟨text, false⟩ = false →
        (text ∈ (check grammar language).missingAnonymous ↔
          depth = 0 ∨ ∃ node, grammar.Exposes node ∧ node ≠ token ∧ ⟨text, false⟩ ∈ node.ownKinds) := by
  have isToken : token.isToken = true := Rule.isToken_iff.mpr kind
  refine ⟨Rule.literals_of_wrapsText isToken wraps, ?tree, fun grammar language name found unresolved => ?report⟩
  case tree =>
    rw [Rule.mem_literals, exists_iff_this_or_other exposed, Rule.literal?_iff_direct isToken wraps]
  case report =>
    have exposes : grammar.Exposes token := ⟨name, rule, found, exposed⟩
    rw [(lists_missingAnonymous grammar language).mem_iff, and_iff_right unresolved, Grammar.callsForAnonymous_iff,
      Grammar.mem_kindNames, exists_iff_this_or_other exposes, Rule.anonymous_mem_ownKinds_iff_direct isToken wraps]

def tokenRule (content : Rule) : Rule := ⟨.token, none, none, some content, [], none, none, none⟩

theorem literal_of_token_direct : "x" ∈ (tokenRule (literalRule "x")).literals ∧
    "x" ∈ (check (ofRule (tokenRule (literalRule "x")) []) bareLanguage).missingAnonymous := by
  have wraps : (tokenRule (literalRule "x")).WrapsText 0 "x" := .string rfl rfl rfl
  obtain ⟨_, listed, reported⟩ := literal_of_token (.root _) (.inl rfl) wraps
  exact ⟨listed.mpr (.inl rfl), (reported _ bareLanguage "a" rfl (by decide)).mpr (.inl rfl)⟩

/-- A token whose string is in a precedence. -/
def precedenceToken : Rule := tokenRule ⟨.prec, some (.level 1), none, some (literalRule "x"), [], none, none, none⟩

/-- It does not count as the literal, and so a language that lacks the literal is found to be in step. -/
theorem literal_under_precedence_passes :
    precedenceToken.Exposed precedenceToken ∧ precedenceToken.kind = .token ∧ precedenceToken.WrapsText 1 "x" ∧
      "x" ∉ precedenceToken.literals ∧ bareLanguage.resolves ⟨"x", false⟩ = false ∧
      (check (ofRule precedenceToken []) bareLanguage).isClean = true :=
  ⟨.root _, rfl, .wrapper rfl rfl (.string rfl rfl rfl), by decide, by decide, by decide⟩

end Conformance
end GrammarCheck
