import GrammarCheck.Proofs.Conformance.Missing
import GrammarCheck.Report
import Mathlib.Data.Set.Card
import Mathlib.Tactic.Ring

/-! How many findings a report counts. Main statement: each kind that the grammar requires and the language does
not resolve counts once, and once more if it is required both by a rule or an alias and by an external token. -/
namespace GrammarCheck

/-- The kinds that a grammar requires, whichever part of it calls for them. -/
inductive Grammar.Requires (grammar : Grammar) : NodeKind → Prop
  | named {name : String} (called : grammar.CallsForNamed name) : grammar.Requires ⟨name, true⟩
  | external {name : String} (called : grammar.CallsForExternal name) : grammar.Requires ⟨name, true⟩
  | anonymous {name : String} (called : grammar.CallsForAnonymous name) : grammar.Requires ⟨name, false⟩

namespace Grammar

theorem requires_named_iff {grammar : Grammar} {name : String} :
    grammar.Requires ⟨name, true⟩ ↔ grammar.CallsForNamed name ∨ grammar.CallsForExternal name := by
  constructor
  · intro required
    cases required with
    | named called => exact .inl called
    | external called => exact .inr called
  · intro called
    rcases called with called | called
    · exact .named called
    · exact .external called

theorem requires_anonymous_iff {grammar : Grammar} {name : String} :
    grammar.Requires ⟨name, false⟩ ↔ grammar.CallsForAnonymous name := by
  constructor
  · intro required
    cases required with
    | anonymous called => exact called
  · exact .anonymous

end Grammar

theorem Names.Lists.nodup {names : List String} {p : String → Prop} (lists : Names.Lists names p) : names.Nodup :=
  lists.ascending.imp fun {_ _} less => Std.ne_of_lt ((Text.lt_iff_bytes_lt _ _).mpr less)

theorem Names.Lists.setOf_eq {names : List String} {p : String → Prop} (lists : Names.Lists names p) :
    {name | p name} = {name | name ∈ names} := Set.ext fun name => (lists.mem_iff name).symm

/-- A list of the names with a property is as long as there are such names. -/
theorem Names.Lists.encard {names : List String} {p : String → Prop} (lists : Names.Lists names p) :
    {name | p name}.encard = names.length := by
  rw [lists.setOf_eq, ← List.coe_toFinset, Set.encard_coe_eq_coe_finsetCard, List.toFinset_card_of_nodup lists.nodup]

namespace Conformance

def namedKind (name : String) : NodeKind := ⟨name, true⟩

/-- The names with property `p` that the language does not resolve, as names of named or of anonymous kinds. -/
def lacking (language : Language) (named : Bool) (p : String → Prop) : Set String :=
  {name | language.resolves ⟨name, named⟩ = false ∧ p name}

section
variable (grammar : Grammar) (language : Language)

theorem setOf_required : {kind | grammar.Requires kind ∧ language.resolves kind = false} =
    namedKind '' (lacking language true grammar.CallsForNamed ∪ lacking language true grammar.CallsForExternal) ∪
      Rule.anonymousKind '' lacking language false grammar.CallsForAnonymous := by
  ext kind
  obtain ⟨name, named⟩ := kind
  cases named with
  | true => simp [namedKind, Rule.anonymousKind, lacking, Grammar.requires_named_iff, or_and_right, and_comm]
  | false => simp [namedKind, Rule.anonymousKind, lacking, Grammar.requires_anonymous_iff, and_comm]

theorem encard_required : {kind | grammar.Requires kind ∧ language.resolves kind = false}.encard =
    (lacking language true grammar.CallsForNamed ∪ lacking language true grammar.CallsForExternal).encard +
      (lacking language false grammar.CallsForAnonymous).encard := by
  have named : Function.Injective namedKind := fun _ _ same => congrArg NodeKind.name same
  have anonymous : Function.Injective Rule.anonymousKind := fun _ _ same => congrArg NodeKind.name same
  have apart (names others : Set String) : Disjoint (namedKind '' names) (Rule.anonymousKind '' others) := by
    refine Set.disjoint_left.mpr fun kind inside outside => ?_
    obtain ⟨name, _, rfl⟩ := inside
    obtain ⟨other, _, same⟩ := outside
    exact Bool.false_ne_true (congrArg NodeKind.named same)
  rw [setOf_required, Set.encard_union_eq (apart _ _), named.encard_image, anonymous.encard_image]

theorem setOf_required_twice :
    {name | (grammar.CallsForNamed name ∧ grammar.CallsForExternal name) ∧ language.resolves ⟨name, true⟩ = false} =
      lacking language true grammar.CallsForNamed ∩ lacking language true grammar.CallsForExternal := by
  ext name
  simp only [lacking, Set.mem_ofPred_eq, Set.mem_inter_iff]
  tauto

theorem nameMismatch_isSome :
    (check grammar language).nameMismatch.isSome = language.name?.any (· != grammar.name) := by
  show (nameMismatch? grammar language).isSome = _
  unfold nameMismatch?
  cases language.name? with
  | none => rfl
  | some name => by_cases same : name = grammar.name <;> simp [same]

/-- A report counts the kinds that are required and not resolved, once more those that are required both as a
rule or an alias and as an external token, and a name that differs. This is the count that is shown. -/
theorem findingCount_check : ((check grammar language).findingCount : ℕ∞) =
      {kind | grammar.Requires kind ∧ language.resolves kind = false}.encard +
        {name | (grammar.CallsForNamed name ∧ grammar.CallsForExternal name) ∧
          language.resolves ⟨name, true⟩ = false}.encard +
        (if language.name?.any (· != grammar.name) then 1 else 0) ∧
    ∀ host path, Grammar.load host.readText path = .ok grammar → (check grammar language).isClean = false →
      (Note.ofGrammar host language path).text =
        s!"{(check grammar language).findingCount} node kinds out of step with grammar.json" := by
  constructor
  · have named : (lacking language true grammar.CallsForNamed).encard = (check grammar language).missingNamed.length :=
      (lists_missingNamed grammar language).encard
    have externals : (lacking language true grammar.CallsForExternal).encard =
        (check grammar language).missingExternals.length := (lists_missingExternals grammar language).encard
    have anonymous : (lacking language false grammar.CallsForAnonymous).encard =
        (check grammar language).missingAnonymous.length := (lists_missingAnonymous grammar language).encard
    -- a kind in both lists is counted in each, so these lengths add up to more than there are kinds
    have both : ((check grammar language).missingNamed.length + (check grammar language).missingExternals.length : ℕ∞) =
        (lacking language true grammar.CallsForNamed ∪ lacking language true grammar.CallsForExternal).encard +
          (lacking language true grammar.CallsForNamed ∩ lacking language true grammar.CallsForExternal).encard := by
      rw [Set.encard_union_add_encard_inter, named, externals]
    have lengths : ((check grammar language).findingCount : ℕ∞) =
        ((check grammar language).missingNamed.length + (check grammar language).missingExternals.length) +
          (check grammar language).missingAnonymous.length +
          if language.name?.any (· != grammar.name) then 1 else 0 := by
      rw [findingCount, nameMismatch_isSome]
      push_cast
      ring
    rw [lengths, both, encard_required, setOf_required_twice, anonymous]
    ring
  · intro host path loaded unclean
    simp [Note.ofGrammar, loaded, unclean]

end

def symbolRule (name : String) : Rule := ⟨.symbol, none, some name, none, [], none, none, none⟩

/-- A rule that is an external token, too. -/
def fallbackGrammar : Grammar := ofRule blankRule [symbolRule "a"]

def emptyLanguage : Language := .ofTable 15 none []

/-- Two findings on a single kind. -/
theorem finding_counted_twice : (check fallbackGrammar emptyLanguage).findingCount = 2 ∧
    {kind | fallbackGrammar.Requires kind ∧ emptyLanguage.resolves kind = false}.encard = 1 ∧
    emptyLanguage.name? = none := by
  have named := (lists_missingNamed fallbackGrammar emptyLanguage).setOf_eq
  have externals := (lists_missingExternals fallbackGrammar emptyLanguage).setOf_eq
  have anonymous := (lists_missingAnonymous fallbackGrammar emptyLanguage).setOf_eq
  rw [show (check fallbackGrammar emptyLanguage).missingNamed = ["a"] by decide] at named
  rw [show (check fallbackGrammar emptyLanguage).missingExternals = ["a"] by decide] at externals
  rw [show (check fallbackGrammar emptyLanguage).missingAnonymous = [] by decide] at anonymous
  refine ⟨by decide, ?_, rfl⟩
  rw [encard_required, lacking, lacking, lacking, named, externals, anonymous]
  simp

end Conformance
end GrammarCheck
