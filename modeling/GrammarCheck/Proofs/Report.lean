import GrammarCheck.Report

/-! What a report says. Main statement: the report on an entry starts with `ok` exactly if the entry loads
and passes its checks, bears the name of the entry, and tells of each check whatever came of the other. -/
namespace GrammarCheck

/-- A text is shown as it is. -/
@[simp] theorem toString_text (text : String) : toString text = text := rfl

/-- The file is read and holds a valid grammar, and the language is in step with it. -/
def GrammarConforms (host : Host) (language : Language) (path : Path) : Prop :=
  ∃ text grammar, host.readText path = some text ∧ Grammar.ofText text = .ok grammar ∧
    (Conformance.check grammar language).isClean = true

/-- The file is read and parses without an error. -/
def SampleParses (host : Host) (language : Language) (path : Path) : Prop :=
  ∃ source, host.readText path = some source ∧ (language.parseSample source).errorCount = 0

namespace Note

theorem ofGrammar_passed {host : Host} {language : Language} {path : Path} :
    (ofGrammar host language path).passed = true ↔ GrammarConforms host language path := by
  unfold ofGrammar Grammar.load GrammarConforms
  cases host.readText path with
  | none => simp
  | some text =>
    cases valid : Grammar.ofText text with
    | error error => simp [valid]
    | ok grammar =>
      by_cases clean : (Conformance.check grammar language).isClean = true
      · simp [valid, clean]
      · simp [valid, clean]

theorem ofSample_passed {host : Host} {language : Language} {path : Path} :
    (ofSample host language path).passed = true ↔ SampleParses host language path := by
  unfold ofSample Language.loadSample SampleParses
  cases host.readText path with
  | none => simp
  | some source =>
    by_cases clean : (language.parseSample source).errorCount = 0
    · simp [SampleReport.isClean, clean]
    · simp [SampleReport.isClean, clean]

end Note

namespace Entry

def Passes (host : Host) (entry : Entry) : Prop :=
  ∃ loaded, entry.load host = .ok loaded ∧
    (∀ path ∈ entry.grammarJson, GrammarConforms host loaded.language path) ∧
    (∀ path ∈ entry.sample, SampleParses host loaded.language path)

/-- What the report on a loaded entry says after its head, first of the grammar and then of the sample. -/
def remarks (host : Host) (entry : Entry) (language : Language) : String :=
  entry.grammarJson.elim "" (fun path => "; " ++ (Note.ofGrammar host language path).text) ++
    entry.sample.elim "" (fun path => "; " ++ (Note.ofSample host language path).text)

structure ReportedAs (host : Host) (entry : Entry) (line : String) : Prop where
  passed : line.startsWith "ok " = true ↔ entry.Passes host
  named : line.startsWith s!"ok {entry.name} (abi " = true ∨ line.startsWith s!"FAIL {entry.name}: " = true
  unloaded : ∀ failure, entry.load host = .error failure → line = s!"FAIL {entry.name}: {failure.detailed}"
  loaded : ∀ loaded, entry.load host = .ok loaded →
    ∃ head, (head = s!"ok {entry.name} (abi {loaded.language.abi})" ∨
      head = s!"FAIL {entry.name}: loaded (abi {loaded.language.abi})") ∧
      line = head ++ entry.remarks host loaded.language

theorem name_of_load {host : Host} {entry : Entry} {loaded : LoadedGrammar}
    (load : entry.load host = .ok loaded) : loaded.name = entry.name := by
  unfold Entry.load at load
  split at load
  · cases load
    rfl
  · exact nomatch load

theorem abi_of_load {host : Host} {entry : Entry} {loaded : LoadedGrammar}
    (load : entry.load host = .ok loaded) : loaded.abi = loaded.language.abi := by
  unfold Entry.load at load
  split at load
  · cases load
    rfl
  · exact nomatch load

theorem notes_passed {host : Host} {entry : Entry} {language : Language} :
    (entry.notes host language).all (·.passed) = true ↔
      (∀ path ∈ entry.grammarJson, GrammarConforms host language path) ∧
        ∀ path ∈ entry.sample, SampleParses host language path := by
  simp [notes, Note.ofGrammar_passed, Note.ofSample_passed]

theorem join_notes (host : Host) (entry : Entry) (language : Language) :
    String.join ((entry.notes host language).map fun note => "; " ++ note.text) =
      entry.remarks host language := by
  unfold notes remarks
  cases entry.grammarJson <;> cases entry.sample <;> simp

theorem passes_iff_of_load {host : Host} {entry : Entry} {loaded : LoadedGrammar}
    (load : entry.load host = .ok loaded) :
    entry.Passes host ↔ (entry.notes host loaded.language).all (·.passed) = true := by
  rw [notes_passed]
  constructor
  · rintro ⟨other, same, checks⟩
    cases load.symm.trans same
    exact checks
  · exact fun checks => ⟨loaded, load, checks⟩

/-- The report on an entry, made of its own load. -/
def report (host : Host) (entry : Entry) : Report :=
  .ofVerification host entry ⟨entry.name, entry.load host⟩

theorem report_of_failure {host : Host} {entry : Entry} {failure : LoadFailure}
    (load : entry.load host = .error failure) :
    entry.report host = ⟨false, s!"FAIL {entry.name}: {failure.detailed}"⟩ := by
  simp only [report, Report.ofVerification, load]

theorem report_of_pass {host : Host} {entry : Entry} {loaded : LoadedGrammar}
    (load : entry.load host = .ok loaded) (passes : entry.Passes host) :
    entry.report host = ⟨true,
      s!"ok {entry.name} (abi {loaded.language.abi})" ++ entry.remarks host loaded.language⟩ := by
  have passed := (passes_iff_of_load load).mp passes
  simp only [report, Report.ofVerification, load, Report.ofLoaded, passed, join_notes, name_of_load load,
    abi_of_load load]
  simp

theorem report_of_fail {host : Host} {entry : Entry} {loaded : LoadedGrammar}
    (load : entry.load host = .ok loaded) (fails : ¬ entry.Passes host) :
    entry.report host = ⟨false,
      s!"FAIL {entry.name}: loaded (abi {loaded.language.abi})" ++ entry.remarks host loaded.language⟩ := by
  have failed := mt (passes_iff_of_load load).mpr fails
  simp only [report, Report.ofVerification, load, Report.ofLoaded, failed, join_notes, name_of_load load,
    abi_of_load load]
  simp

theorem report_passed {host : Host} {entry : Entry} :
    (entry.report host).passed = true ↔ entry.Passes host := by
  cases load : entry.load host with
  | error failure =>
    rw [report_of_failure load]
    have fails : ¬ entry.Passes host := by
      rintro ⟨_, loads, _⟩
      exact nomatch load.symm.trans loads
    simp [fails]
  | ok loaded =>
    by_cases passes : entry.Passes host
    · simp [report_of_pass load passes, passes]
    · simp [report_of_fail load passes, passes]

theorem reportedAs_report (host : Host) (entry : Entry) :
    entry.ReportedAs host (entry.report host).text := by
  cases load : entry.load host with
  | error failure =>
    have fails : ¬ entry.Passes host := by simp [← report_passed, report_of_failure load]
    rw [report_of_failure load]
    exact {
      passed := by simp [fails]
      named := by simp
      unloaded := by simp [load]
      loaded := by simp [load] }
  | ok loaded =>
    by_cases passes : entry.Passes host
    · rw [report_of_pass load passes]
      exact {
        passed := by simp [passes]
        named := by simp
        unloaded := by simp [load]
        loaded := by simp [load] }
    · rw [report_of_fail load passes]
      exact {
        passed := by simp [passes]
        named := by simp
        unloaded := by simp [load]
        loaded := by simp [load] }

end Entry

theorem Registry.reports_eq_map (host : Host) (registry : Registry) :
    registry.reports host = registry.entries.map (Entry.report host) := by
  simp only [reports, verifyAll, List.zipWith_map_right, List.zipWith_self]
  rfl

end GrammarCheck
