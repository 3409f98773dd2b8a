import GrammarCheck.Bundled.Fig
import GrammarCheck.Proofs.CommandLine.Verdict
import GrammarCheck.Proofs.Registry.Selection

/-! Runs on one grammar beside the run on all of them. Main statement: asked for a grammar of the registry,
a run prints what the run on all prints for it, and succeeds if it passes there. Asked for another, it
prints nothing and ends with status 2. -/
namespace GrammarCheck

namespace Arguments

def withGrammar (arguments : Arguments) (name : String) : Arguments := { arguments with grammar := some name }

/-- The registry file, or the known grammars, before one grammar is picked out. -/
def wholeRegistry (host : Host) (arguments : Arguments) : Except RegistryError Registry :=
  match arguments.registry with
  | some path => Registry.load host.readText ⟨path⟩
  | .none => .ok (Registry.known ⟨arguments.grammarDir.getD "."⟩)

theorem option?_grammar : option? "--grammar".toList = some (.grammar, .none) := by decide +kernel

theorem grammar_apply {arguments : Arguments} {settings : List (Key × String)}
    (unasked : (arguments.apply settings).grammar = .none) : arguments.grammar = .none := by
  induction settings generalizing arguments with
  | nil => exact unasked
  | cons setting rest ih =>
    obtain ⟨key, value⟩ := setting
    -- a grammar that was asked for is never forgotten
    have before : (arguments.set value key).grammar = .none := ih unasked
    cases key with
    | grammar => exact nomatch before
    | _ => exact before

theorem apply_withGrammar {arguments : Arguments} {settings : List (Key × String)}
    (unasked : (arguments.apply settings).grammar = .none) (name : String) :
    (arguments.withGrammar name).apply settings = (arguments.apply settings).withGrammar name := by
  induction settings generalizing arguments with
  | nil => rfl
  | cons setting rest ih =>
    obtain ⟨key, value⟩ := setting
    have before : (arguments.set value key).grammar = .none := grammar_apply unasked
    cases key with
    | grammar => exact nomatch before
    | _ => exact ih unasked

/-- Any arguments that ask for no grammar can be made to ask for one. -/
theorem choose_grammar {arguments : List String} {chosen : Arguments} (choose : Choose arguments chosen)
    (unasked : chosen.grammar = .none) (name : String) :
    Choose ("--grammar" :: name :: arguments) (chosen.withGrammar name) := by
  obtain ⟨settings, sets, rfl⟩ := choose
  refine ⟨(.grammar, name) :: settings, ?_, (apply_withGrammar unasked name).symm⟩
  have valued : Key.grammar ≠ .quiet := by decide
  exact sets.imp (.apart valued option?_grammar) (.apart valued option?_grammar)

theorem chooseRegistry_eq (host : Host) (arguments : Arguments) :
    arguments.chooseRegistry host = (arguments.wholeRegistry host).bind fun registry =>
      match arguments.grammar with
      | some name => registry.select [name]
      | .none => .ok registry := by
  unfold chooseRegistry wholeRegistry
  cases arguments.registry <;> rfl

theorem chooseRegistry_of_unasked {host : Host} {arguments : Arguments} (unasked : arguments.grammar = .none) :
    arguments.chooseRegistry host = arguments.wholeRegistry host := by
  rw [chooseRegistry_eq, unasked]
  cases arguments.wholeRegistry host <;> rfl

theorem chooseRegistry_withGrammar {host : Host} {arguments : Arguments} {registry : Registry}
    (whole : arguments.wholeRegistry host = .ok registry) (name : String) :
    (arguments.withGrammar name).chooseRegistry host = registry.select [name] := by
  have same : (arguments.withGrammar name).wholeRegistry host = .ok registry := whole
  rw [chooseRegistry_eq, same]
  rfl

theorem wholeRegistry_wellFormed {host : Host} {arguments : Arguments} {registry : Registry}
    (whole : arguments.wholeRegistry host = .ok registry) : registry.WellFormed := by
  unfold wholeRegistry at whole
  split at whole
  · exact Registry.load_wellFormed whole
  · cases whole
    exact Registry.known_wellFormed _

theorem chooseRegistry_wellFormed {host : Host} {arguments : Arguments} {registry : Registry}
    (chosen : arguments.chooseRegistry host = .ok registry) : registry.WellFormed := by
  rw [chooseRegistry_eq] at chosen
  cases whole : arguments.wholeRegistry host with
  | error => rw [whole] at chosen; contradiction
  | ok all =>
    rw [whole] at chosen
    cases grammar : arguments.grammar with
    | none =>
      rw [grammar] at chosen
      cases chosen
      exact wholeRegistry_wellFormed whole
    | some name =>
      rw [grammar] at chosen
      exact Registry.select_wellFormed chosen

end Arguments

def Report.printed (quiet : Bool) (report : Report) : String :=
  if quiet && report.passed then "" else report.text ++ "\n"

theorem Outcome.stdout_ofReports_cons (quiet : Bool) (report : Report) (rest : List Report) :
    (ofReports quiet (report :: rest)).stdout = report.printed quiet ++ (ofReports quiet rest).stdout := by
  simp only [ofReports, Report.printed, List.filter_cons]
  cases quiet && report.passed <;> simp

theorem Outcome.stdout_ofReports (quiet : Bool) (reports : List Report) :
    (ofReports quiet reports).stdout = String.join (reports.map (Report.printed quiet)) := by
  induction reports with
  | nil => rfl
  | cons report rest ih => rw [stdout_ofReports_cons, ih, List.map_cons, String.join_cons]

theorem Outcome.ofReports_single (quiet : Bool) (report : Report) :
    ofReports quiet [report] = ⟨if report.passed then 0 else 1, report.printed quiet, ""⟩ := by
  have printed : (ofReports quiet [report]).stdout = report.printed quiet := by simp [stdout_ofReports]
  rw [← printed]
  cases passed : report.passed <;> simp [ofReports, passed]

/-- The report is what is printed for the entry, also if its grammar is the only one asked for. -/
structure Entry.PrintedAlone (host : Host) (chosen : Arguments) (entry : Entry) (report : Report) : Prop where
  reported : entry.ReportedAs host report.text
  passed : report.passed = true ↔ entry.Passes host
  alone : ∀ narrowed, Arguments.Choose narrowed (chosen.withGrammar entry.name) →
    run host narrowed = ⟨if report.passed then 0 else 1, report.printed chosen.quiet, ""⟩

/-- The reports are what the run prints, one for each entry, and what the runs on one grammar each print. -/
structure Projects (host : Host) (arguments : List String) (chosen : Arguments) (entries : List Entry)
    (reports : List Report) : Prop where
  printed : (run host arguments).stdout = String.join (reports.map (Report.printed chosen.quiet))
  succeeds : (run host arguments).status = 0 ↔ ∀ report ∈ reports, report.passed = true
  each : List.Forall₂ (Entry.PrintedAlone host chosen) entries reports
  unregistered : ∀ name, name ∉ entries.map (·.name) →
    ∀ narrowed, Arguments.Choose narrowed (chosen.withGrammar name) →
      (run host narrowed).status = 2 ∧ (run host narrowed).stdout = ""
  askable : ∀ name, Arguments.Choose ("--grammar" :: name :: arguments) (chosen.withGrammar name)

theorem run_of_wholeRegistry {host : Host} {arguments : List String} {chosen : Arguments} {registry : Registry}
    (choose : Arguments.Choose arguments chosen) (unasked : chosen.grammar = .none)
    (whole : chosen.wholeRegistry host = .ok registry) :
    run host arguments = .ofReports chosen.quiet (registry.reports host) := by
  rw [run_of_choose choose, Arguments.run, Arguments.chooseRegistry_of_unasked unasked, whole]

theorem run_alone {host : Host} {narrowed : List String} {chosen : Arguments} {registry : Registry} {entry : Entry}
    (whole : chosen.wholeRegistry host = .ok registry) (inside : entry ∈ registry.entries)
    (choose : Arguments.Choose narrowed (chosen.withGrammar entry.name)) :
    run host narrowed = .ofReports chosen.quiet [entry.report host] := by
  have single := (Arguments.wholeRegistry_wellFormed whole).select_name inside
  rw [run_of_choose choose, Arguments.run, Arguments.chooseRegistry_withGrammar whole, single]
  exact congrArg (Outcome.ofReports chosen.quiet) (Registry.reports_eq_map host ⟨[entry]⟩)

theorem run_of_unregistered {host : Host} {narrowed : List String} {chosen : Arguments} {registry : Registry}
    {name : String} (whole : chosen.wholeRegistry host = .ok registry) (absent : name ∉ registry.entries.map (·.name))
    (choose : Arguments.Choose narrowed (chosen.withGrammar name)) :
    run host narrowed = .refused (RegistryError.unknown name).message := by
  rw [run_of_choose choose, Arguments.run, Arguments.chooseRegistry_withGrammar whole,
    Registry.select_unregistered absent]
  rfl

theorem run_projects (host : Host) {arguments : List String} {chosen : Arguments} {registry : Registry}
    (choose : Arguments.Choose arguments chosen) (unasked : chosen.grammar = .none)
    (usable : chosen.chooseRegistry host = .ok registry) :
    Projects host arguments chosen registry.entries (registry.reports host) := by
  have whole : chosen.wholeRegistry host = .ok registry :=
    (Arguments.chooseRegistry_of_unasked unasked).symm.trans usable
  have all := run_of_wholeRegistry choose unasked whole
  constructor
  case printed => rw [all, Outcome.stdout_ofReports]
  case succeeds => simp [all, Outcome.ofReports]
  case each =>
    rw [Registry.reports_eq_map, List.forall₂_map_right_iff, List.forall₂_same]
    intro entry inside
    exact {
      reported := entry.reportedAs_report host
      passed := Entry.report_passed
      alone := fun narrowed asked => (run_alone whole inside asked).trans (Outcome.ofReports_single _ _) }
  case unregistered =>
    intro name absent narrowed asked
    rw [run_of_unregistered whole absent asked]
    exact ⟨rfl, rfl⟩
  case askable => exact Arguments.choose_grammar choose unasked

/-- A host with one library, that of the first known grammar. -/
def figHost : Host where
  readText := fun _ => none
  openLibrary := fun path =>
    if path = ⟨"./libtree-sitter-fig.so"⟩ then .ok ⟨fun _ => .ok (some (Bundled.Fig.language 15))⟩
    else .error "absent"

/-- Of the known grammars the first passes, the second does not, and each comes out alone as it did with
the other. -/
theorem run_projects_figHost :
    Arguments.Choose [] .none ∧ Arguments.none.chooseRegistry figHost = .ok (.known ⟨"."⟩) ∧
    Projects figHost [] .none (Registry.known ⟨"."⟩).entries ((Registry.known ⟨"."⟩).reports figHost) ∧
    (run figHost ["--grammar", "fig"]).stdout = "ok fig (abi 15)\n" ∧
    (run figHost ["--grammar", "nyx"]).status = 1 := by
  have choose : Arguments.Choose [] .none := ⟨[], .inl (.done []), rfl⟩
  exact ⟨choose, rfl, run_projects figHost choose rfl rfl, by decide +kernel, by decide +kernel⟩

end GrammarCheck
