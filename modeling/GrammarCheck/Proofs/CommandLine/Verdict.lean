import GrammarCheck.CommandLine.Run
import GrammarCheck.Proofs.CommandLine.Arguments
import GrammarCheck.Proofs.Report
import Mathlib.Data.List.Forall2

/-! The verdict of a run. Main statement: a run that has a registry prints one report for each entry, in
order, and succeeds exactly if every report is an `ok`. A run that has none prints nothing, and ends with
status 2 unless an empty argument stopped it or the registry file is never read to its end. -/
namespace GrammarCheck

/-- The outcome of a run over `entries`, of which `lines` are the reports. -/
structure Outcome.Tells (host : Host) (entries : List Entry) (quiet : Bool) (lines : List String)
    (outcome : Outcome) : Prop where
  lines_match : List.Forall₂ (Entry.ReportedAs host) entries lines
  printed : quiet = false → outcome.stdout = String.join (lines.map (· ++ "\n"))
  failures_printed : quiet = true →
    outcome.stdout = String.join ((lines.filter (!·.startsWith "ok ")).map (· ++ "\n"))
  succeeds : outcome.status = 0 ↔ ∀ line ∈ lines, line.startsWith "ok " = true
  fails : outcome.status = 1 ↔ ∃ line ∈ lines, line.startsWith "ok " = false

/-- An error whose message comes. That of a malformed file is shown with a piece of the file. -/
def Arguments.Told (host : Host) (arguments : Arguments) : RegistryError → Prop
  | .malformed (.fault _) => ∀ path text, arguments.registry = some path → host.readText ⟨path⟩ = some text →
    RegistryFile.Quotable text.toList
  | .malformed .endless => False
  | _ => True

/-- What the outcome is on arguments that are not read, that choose no registry, and that choose one. -/
structure Verdict (host : Host) (arguments : List String) (outcome : Outcome) : Prop where
  unread : (∀ chosen, ¬ Arguments.Choose arguments chosen) → ¬ Arguments.MeetEmpty arguments →
    outcome.status = 2 ∧ outcome.stdout = ""
  stopped : Arguments.MeetEmpty arguments → outcome.status = 101 ∧ outcome.stdout = ""
  unregistered : ∀ chosen error, Arguments.Choose arguments chosen → chosen.chooseRegistry host = .error error →
    chosen.Told host error → outcome.status = 2 ∧ outcome.stdout = ""
  endless : ∀ chosen, Arguments.Choose arguments chosen →
    chosen.chooseRegistry host = .error (.malformed .endless) → outcome.status = .never ∧ outcome.stdout = ""
  told : ∀ chosen registry, Arguments.Choose arguments chosen →
    chosen.chooseRegistry host = .ok registry → ∃ lines, outcome.Tells host registry.entries chosen.quiet lines

theorem Entry.startsWith_report (host : Host) (entry : Entry) :
    (entry.report host).text.startsWith "ok " = (entry.report host).passed := by
  rw [Bool.eq_iff_iff, (entry.reportedAs_report host).passed, report_passed]

theorem Outcome.tells_ofReports (host : Host) (entries : List Entry) (quiet : Bool) :
    (ofReports quiet (entries.map (Entry.report host))).Tells host entries quiet
      (entries.map fun entry => (entry.report host).text) := by
  constructor
  · rw [List.forall₂_map_right_iff, List.forall₂_same]
    exact fun entry _ => entry.reportedAs_report host
  · rintro rfl
    simp [ofReports, Function.comp_def]
  · rintro rfl
    simp [ofReports, List.filter_map, Function.comp_def, Entry.startsWith_report]
  · simp [ofReports, Entry.startsWith_report, -String.startsWith_string_iff]
  · simp [ofReports, Entry.startsWith_report, -String.startsWith_string_eq_false_iff]

theorem run_of_unusable {arguments : List String} (unusable : Arguments.Unusable arguments) (host : Host) :
    run host arguments = .refused "Could not parse CLI arguments" := by
  rw [run, Arguments.ofList_of_unusable unusable]
  rfl

theorem run_of_meetEmpty {arguments : List String} (met : Arguments.MeetEmpty arguments) (host : Host) :
    run host arguments = .stopped := by
  rw [run, Arguments.ofList_of_meetEmpty met]
  rfl

theorem run_of_choose {arguments : List String} {chosen : Arguments}
    (choose : Arguments.Choose arguments chosen) (host : Host) : run host arguments = chosen.run host := by
  rw [run, Arguments.ofList_of_choose choose]

theorem Arguments.outcome_of_told {host : Host} {arguments : Arguments} {error : RegistryError}
    (told : arguments.Told host error) : error.outcome.status = 2 ∧ error.outcome.stdout = "" := by
  cases error with
  | malformed failure =>
    cases failure with
    | fault => exact ⟨rfl, rfl⟩
    | endless => exact told.elim
  | _ => exact ⟨rfl, rfl⟩

/-- A host without files and libraries. -/
def bareHost : Host := ⟨fun _ => none, fun path => .error s!"dlopen failed: {path.text}"⟩

end GrammarCheck
