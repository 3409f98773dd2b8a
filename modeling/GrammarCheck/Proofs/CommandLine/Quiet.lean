import GrammarCheck.Proofs.CommandLine.Projection

/-! Quiet runs beside the others. Main statement: with the option to be quiet put in among its options, in any
spelling, a run ends as it did without it, and prints the failures of what it printed, as they were. -/
namespace GrammarCheck

namespace Arguments

def quieted (arguments : Arguments) : Arguments := { arguments with quiet := true }

/-- An option to be quiet is put in where an option is due. -/
inductive AddsQuiet : List String → List String → Prop
  | intro {front rest : List String} {settings : List (Key × String)} {flag : String} {value : Option String}
      (options : Sets front settings []) (read : option? flag.toList = some (.quiet, value)) :
      AddsQuiet (front ++ rest) (front ++ flag :: rest)

theorem Sets.append {front after : List String} {settings : List (Key × String)} (sets : Sets front settings after)
    (rest : List String) : Sets (front ++ rest) settings (after ++ rest) := by
  induction sets with
  | done after => exact .done _
  | flag read _ ih => exact .flag read ih
  | joined valued read _ ih => exact .joined valued read ih
  | apart valued read _ ih => exact .apart valued read ih

theorem quieted_apply (start : Arguments) (settings : List (Key × String)) :
    start.quieted.apply settings = (start.apply settings).quieted := by
  induction settings generalizing start with
  | nil => rfl
  | cons setting rest ih =>
    obtain ⟨key, value⟩ := setting
    have swap : start.quieted.set value key = (start.set value key).quieted := by cases key <;> rfl
    show (start.quieted.set value key).apply rest = _
    rw [swap, ih]
    rfl

/-- Whatever comes first, being quiet changes nothing else of what is read. -/
theorem read_quieted (start : Arguments) (arguments : List String) :
    read start.quieted arguments = (read start arguments).map quieted := by
  obtain ⟨settings, rest, sets, rfl | rfl | ⟨after, rfl⟩ | misplaced⟩ := exists_sets arguments
  · rw [read_of_sets sets, read_of_sets sets, quieted_apply]
    rfl
  · rw [read_of_sets sets, read_of_sets sets, quieted_apply]
    rfl
  · rw [read_of_sets sets, read_of_sets sets, quieted_apply, read, read, if_pos rfl, if_pos rfl]
    rfl
  · rw [read_of_sets sets, read_of_sets sets, read_of_misplaced misplaced, read_of_misplaced misplaced]
    rfl

theorem chooseRegistry_quieted (host : Host) (arguments : Arguments) :
    arguments.quieted.chooseRegistry host = arguments.chooseRegistry host := rfl

theorem AddsQuiet.ofList_eq {loud still : List String} (added : AddsQuiet loud still) :
    ofList still = (ofList loud).map quieted := by
  obtain ⟨options, flag⟩ := added
  rw [ofList, ofList, read_of_sets (options.append _), read_of_sets (options.append _)]
  exact (read_of_sets (.flag flag (.done _)) _).trans (read_quieted _ _)

end Arguments

/-- The lines of a run, beside what the run prints if it is quiet. -/
structure Outcome.KeepsFailures (host : Host) (arguments : List String) (lines : List String)
    (loud still : Outcome) : Prop where
  status : still.status = loud.status
  stderr : still.stderr = loud.stderr
  printed : loud.stdout = String.join (lines.map (· ++ "\n"))
  kept : still.stdout = String.join ((lines.filter (·.startsWith "FAIL ")).map (· ++ "\n"))
  dropped : ∀ line ∈ lines, line.startsWith "FAIL " = !line.startsWith "ok "
  reported : ∀ chosen registry, Arguments.Choose arguments chosen →
    chosen.chooseRegistry host = .ok registry → List.Forall₂ (Entry.ReportedAs host) registry.entries lines

/-- A line opens with one of the two words and so not with the other. -/
theorem Entry.ReportedAs.startsWith_fail {host : Host} {entry : Entry} {line : String}
    (reported : entry.ReportedAs host line) : line.startsWith "FAIL " = !line.startsWith "ok " := by
  rcases reported.named with head | head
  · obtain ⟨rest, shape⟩ := String.startsWith_string_iff.mp head
    rw [Bool.eq_iff_iff]
    simp [← shape]
  · obtain ⟨rest, shape⟩ := String.startsWith_string_iff.mp head
    rw [Bool.eq_iff_iff]
    simp [← shape]

theorem Outcome.keepsFailures_refl {host : Host} {arguments : List String} {outcome : Outcome}
    (silent : outcome.stdout = "") (unregistered : ∀ chosen registry, Arguments.Choose arguments chosen →
      chosen.chooseRegistry host ≠ .ok registry) : outcome.KeepsFailures host arguments [] outcome where
  status := rfl
  stderr := rfl
  printed := silent
  kept := silent
  dropped := by simp
  reported := fun chosen registry choose registered => absurd registered (unregistered chosen registry choose)

/-- Over the entries of a registry, being quiet filters the reports and changes nothing else. -/
theorem Outcome.keepsFailures_ofReports {host : Host} {arguments : List String} {chosen : Arguments}
    {registry : Registry} (choose : Arguments.Choose arguments chosen)
    (registered : chosen.chooseRegistry host = .ok registry) :
    (ofReports false (registry.reports host)).KeepsFailures host arguments
      (registry.entries.map fun entry => (entry.report host).text) (ofReports true (registry.reports host)) := by
  rw [Registry.reports_eq_map]
  have loud := tells_ofReports host registry.entries false
  have still := tells_ofReports host registry.entries true
  have dropped : ∀ line ∈ registry.entries.map fun entry => (entry.report host).text,
      line.startsWith "FAIL " = !line.startsWith "ok " := by
    intro line told
    obtain ⟨entry, -, rfl⟩ := List.mem_map.mp told
    exact (entry.reportedAs_report host).startsWith_fail
  constructor
  case status => rfl
  case stderr => rfl
  case printed => exact loud.printed rfl
  case kept => rw [still.failures_printed rfl, List.filter_congr dropped]
  case dropped => exact dropped
  case reported =>
    intro other found chooses finds
    have same : chosen = other := by
      exact Except.ok.inj ((Arguments.ofList_of_choose choose).symm.trans (Arguments.ofList_of_choose chooses))
    subst same
    have same : registry = found := Except.ok.inj (registered.symm.trans finds)
    exact same ▸ loud.lines_match

theorem RegistryError.stdout_outcome (error : RegistryError) : error.outcome.stdout = "" := by
  unfold outcome
  split <;> rfl

theorem Arguments.run_keepsFailures {host : Host} {arguments : List String} {chosen : Arguments}
    (choose : Choose arguments chosen) (loud : chosen.quiet = false) :
    ∃ lines, (chosen.run host).KeepsFailures host arguments lines (chosen.quieted.run host) := by
  simp only [run, chooseRegistry_quieted]
  cases registered : chosen.chooseRegistry host with
  | error error =>
    refine ⟨[], Outcome.keepsFailures_refl error.stdout_outcome ?_⟩
    intro other registry chooses finds
    cases (ofList_of_choose choose).symm.trans (ofList_of_choose chooses)
    rw [registered] at finds
    contradiction
  | ok registry =>
    rw [loud]
    exact ⟨_, Outcome.keepsFailures_ofReports choose registered⟩

theorem run_quiet (host : Host) {loud still : List String} (added : Arguments.AddsQuiet loud still)
    (unasked : ∀ chosen, Arguments.Choose loud chosen → chosen.quiet = false) :
    ∃ lines, (run host loud).KeepsFailures host loud lines (run host still) := by
  cases read : Arguments.ofList loud with
  | error fault =>
    -- with the option or without it, the arguments are of no use
    have ends : run host still = run host loud := by
      rw [run, run, added.ofList_eq, read]
      rfl
    have silent : (run host loud).stdout = "" := by
      rw [run, read]
      cases fault <;> rfl
    have unread : ∀ chosen, ¬ Arguments.Choose loud chosen := by simp [Arguments.choose_iff_ofList, read]
    rw [ends]
    exact ⟨[], Outcome.keepsFailures_refl silent fun chosen _ choose => absurd choose (unread chosen)⟩
  | ok chosen =>
    have choose : Arguments.Choose loud chosen := Arguments.choose_iff_ofList.mpr read
    have quieted : run host still = chosen.quieted.run host := by
      rw [run, added.ofList_eq, read]
      rfl
    rw [quieted, run_of_choose choose]
    exact Arguments.run_keepsFailures choose (unasked chosen choose)

/-- Being quiet leaves out the known grammar that passes and keeps the one that does not. -/
theorem run_quiet_figHost :
    Arguments.AddsQuiet ["-d", "."] ["-d", ".", "--Quiet=no"] ∧
    (∀ chosen, Arguments.Choose ["-d", "."] chosen → chosen.quiet = false) ∧
    (∃ lines, (run figHost ["-d", "."]).KeepsFailures figHost ["-d", "."] lines
      (run figHost ["-d", ".", "--Quiet=no"])) ∧
    (run figHost ["-d", "."]).stdout = "ok fig (abi 15)\n" ++ (run figHost ["-d", ".", "-q"]).stdout ∧
    (run figHost ["-d", ".", "--Quiet=no"]).stdout = "FAIL nyx: Error loading Nyx grammar: " ++
      "could not open grammar library ./libtree-sitter-nyx.so: absent\n" := by
  have directory : Arguments.option? "-d".toList = some (.grammarDir, .none) := by decide +kernel
  have flag : Arguments.option? "--Quiet=no".toList = some (.quiet, some "no") := by decide +kernel
  have options : Arguments.Sets ["-d", "."] [(.grammarDir, ".")] [] := .apart (by decide) directory (.done [])
  have added : Arguments.AddsQuiet ["-d", "."] ["-d", ".", "--Quiet=no"] := .intro options flag
  have read := Arguments.ofList_of_choose ⟨_, .inl options, rfl⟩
  have unasked : ∀ chosen, Arguments.Choose ["-d", "."] chosen → chosen.quiet = false := by
    intro chosen choose
    cases read.symm.trans (Arguments.ofList_of_choose choose)
    rfl
  exact ⟨added, unasked, run_quiet figHost added unasked, by decide +kernel, by decide +kernel⟩

end GrammarCheck
