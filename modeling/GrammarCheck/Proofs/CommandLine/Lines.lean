import GrammarCheck.Proofs.CommandLine.Projection
import GrammarCheck.Proofs.Grammar.Traced

/-! The lines of a run. Main statement: a run prints a first line for each entry, which bears the name of the
entry, and one more for every line feed in the texts that it shows as they are. So it prints as many lines as
there are entries exactly if no such text has a line feed in it, and nothing keeps one out. -/
namespace GrammarCheck
open Text (lineFeeds HasLines)

def LoadFault.shown : LoadFault → List String
  | .openLibrary path cause => [path.text, cause]
  | .missingSymbol symbol path cause => [symbol, path.text, cause]
  | .nullLanguage => []
  | .incompatibleAbi _ => []

def LoadFailure.shown (failure : LoadFailure) : List String := failure.displayName :: failure.fault.shown

namespace Note

/-- The texts that a note shows as they are. A file that is in order shows none of its own. -/
def shownOfGrammar (host : Host) (path : Path) : List String :=
  match Grammar.load host.readText path with
  | .error error => error.shown
  | .ok _ => []

def shownOfSample (host : Host) (language : Language) (path : Path) : List String :=
  match language.loadSample host.readText path with
  | .error (.unreadable path) => [path.text]
  | .ok report => if report.isClean then [report.rootKind] else []

end Note

/-- The texts that the report on an entry shows as they are, besides its name. -/
def Entry.shown (host : Host) (entry : Entry) : List String :=
  match entry.load host with
  | .error failure => failure.shown
  | .ok loaded => entry.grammarJson.toList.flatMap (Note.shownOfGrammar host) ++
      entry.sample.toList.flatMap (Note.shownOfSample host loaded.language)

theorem LoadFault.lineFeeds_message (fault : LoadFault) :
    lineFeeds fault.message + lineFeeds (String.join fault.cause?.toList) = lineFeeds (String.join fault.shown) := by
  cases fault with
  | openLibrary path cause =>
    have front : lineFeeds "could not open grammar library " = 0 := rfl
    show lineFeeds ("could not open grammar library " ++ path.text) + lineFeeds (String.join [cause]) =
      lineFeeds (String.join [path.text, cause])
    simp [front]
  | missingSymbol symbol path cause =>
    have front : lineFeeds "symbol `" = 0 := rfl
    have middle : lineFeeds "` not found in " = 0 := rfl
    show lineFeeds ("symbol `" ++ symbol ++ "` not found in " ++ path.text) + lineFeeds (String.join [cause]) =
      lineFeeds (String.join [symbol, path.text, cause])
    simp [front, middle, Nat.add_assoc]
  | nullLanguage => rfl
  | incompatibleAbi found =>
    have front : lineFeeds "language ABI version " = 0 := rfl
    have middle : lineFeeds " is outside the supported range " = 0 := rfl
    have back : lineFeeds "..=" = 0 := rfl
    show lineFeeds ("language ABI version " ++ found.repr ++ " is outside the supported range " ++ oldestAbi.repr ++
      "..=" ++ newestAbi.repr) + 0 = 0
    simp [front, middle, back]

theorem LoadFailure.lineFeeds_detailed (failure : LoadFailure) :
    lineFeeds failure.detailed = lineFeeds (String.join failure.shown) := by
  have front : lineFeeds "Error loading " = 0 := rfl
  have back : lineFeeds " grammar" = 0 := rfl
  have colon : lineFeeds ": " = 0 := rfl
  have head : lineFeeds failure.message = lineFeeds failure.displayName := by
    show lineFeeds ("Error loading " ++ failure.displayName ++ " grammar") = _
    simp [front, back]
  rw [shown, Text.lineFeeds_join_cons, ← failure.fault.lineFeeds_message, detailed]
  cases failure.fault.cause? <;> simp [String.intercalate_cons_cons, head, colon]

namespace Note

theorem lineFeeds_ofGrammar (host : Host) (language : Language) (path : Path) :
    lineFeeds (ofGrammar host language path).text = lineFeeds (String.join (shownOfGrammar host path)) := by
  unfold ofGrammar shownOfGrammar
  cases loaded : Grammar.load host.readText path with
  | error error => exact Grammar.lineFeeds_of_load loaded
  | ok grammar =>
    by_cases clean : (Conformance.check grammar language).isClean = true
    · simp only [clean, if_true]
      rfl
    · have back : lineFeeds " node kinds out of step with grammar.json" = 0 := rfl
      simp only [clean]
      show lineFeeds ((Conformance.check grammar language).findingCount.repr ++
        " node kinds out of step with grammar.json") = 0
      simp [back]

theorem lineFeeds_firstErrorText (first : Option Position) : lineFeeds (firstErrorText first) = 0 := by
  cases first with
  | none => rfl
  | some position =>
    have front : lineFeeds " (first at " = 0 := rfl
    have middle : lineFeeds ":" = 0 := rfl
    have back : lineFeeds ")" = 0 := rfl
    show lineFeeds (" (first at " ++ (position.row + 1).repr ++ ":" ++ (position.column + 1).repr ++ ")") = 0
    simp [front, middle, back]

theorem lineFeeds_ofSample (host : Host) (language : Language) (path : Path) :
    lineFeeds (ofSample host language path).text = lineFeeds (String.join (shownOfSample host language path)) := by
  unfold ofSample shownOfSample Language.loadSample
  cases host.readText path with
  | none =>
    have front : lineFeeds "could not read sample " = 0 := rfl
    show lineFeeds ("could not read sample " ++ path.text) = lineFeeds (String.join [path.text])
    simp [front]
  | some source =>
    by_cases clean : (language.parseSample source).isClean = true
    · have front : lineFeeds "sample parsed as " = 0 := rfl
      simp only [clean, if_true]
      show lineFeeds ("sample parsed as " ++ (language.parseSample source).rootKind) = _
      simp [front]
    · have front : lineFeeds "sample has " = 0 := rfl
      have back : lineFeeds " syntax errors" = 0 := rfl
      simp only [clean]
      show lineFeeds ("sample has " ++ (language.parseSample source).errorCount.repr ++ " syntax errors" ++
        firstErrorText (language.parseSample source).firstError) = 0
      simp [front, back, lineFeeds_firstErrorText]

end Note

namespace Entry

theorem lineFeeds_remarks (host : Host) (entry : Entry) (language : Language) :
    lineFeeds (entry.remarks host language) =
      lineFeeds (String.join (entry.grammarJson.toList.flatMap (Note.shownOfGrammar host) ++
        entry.sample.toList.flatMap (Note.shownOfSample host language))) := by
  have semicolon : lineFeeds "; " = 0 := rfl
  unfold remarks
  cases entry.grammarJson <;> cases entry.sample <;>
    simp [semicolon, Note.lineFeeds_ofGrammar, Note.lineFeeds_ofSample]

/-- The name of the entry is on one line, and so is all that the program says itself. -/
theorem lineFeeds_report (host : Host) {entry : Entry} (named : lineFeeds entry.name = 0) :
    lineFeeds (entry.report host).text = lineFeeds (String.join (entry.shown host)) := by
  unfold shown
  cases load : entry.load host with
  | error failure =>
    have front : lineFeeds "FAIL " = 0 := rfl
    have colon : lineFeeds ": " = 0 := rfl
    rw [report_of_failure load]
    show lineFeeds ("FAIL " ++ entry.name ++ ": " ++ failure.detailed) = _
    simp [front, colon, named, failure.lineFeeds_detailed]
  | ok loaded =>
    have middle : lineFeeds " (abi " = 0 := rfl
    have back : lineFeeds ")" = 0 := rfl
    by_cases passes : entry.Passes host
    · have front : lineFeeds "ok " = 0 := rfl
      rw [report_of_pass load passes]
      show lineFeeds ("ok " ++ entry.name ++ " (abi " ++ loaded.language.abi.repr ++ ")" ++
        entry.remarks host loaded.language) = _
      simp only [Text.lineFeeds_append, Text.lineFeeds_repr, front, middle, back, named, lineFeeds_remarks]
      omega
    · have front : lineFeeds "FAIL " = 0 := rfl
      have middle : lineFeeds ": loaded (abi " = 0 := rfl
      rw [report_of_fail load passes]
      show lineFeeds ("FAIL " ++ entry.name ++ ": loaded (abi " ++ loaded.language.abi.repr ++ ")" ++
        entry.remarks host loaded.language) = _
      simp only [Text.lineFeeds_append, Text.lineFeeds_repr, front, middle, back, named, lineFeeds_remarks]
      omega

/-- The lines of the report on an entry. The first has its name, and each line feed in a text that the report
shows begins another. -/
structure TakesLines (host : Host) (entry : Entry) (block : List String) : Prop where
  reported : entry.ReportedAs host ("\n".intercalate block)
  named : ∃ line more, block = line :: more ∧
    (line.startsWith s!"ok {entry.name} " = true ∨ line.startsWith s!"FAIL {entry.name}:" = true)
  length : block.length = 1 + lineFeeds (String.join (entry.shown host))

/-- A report starts with its verdict and the name, and these stand on one line. -/
theorem exists_head {host : Host} {entry : Entry} {text : String} (reported : entry.ReportedAs host text)
    (named : lineFeeds entry.name = 0) : ∃ head, lineFeeds head = 0 ∧ text.startsWith head = true ∧
      (head = s!"ok {entry.name} " ∨ head = s!"FAIL {entry.name}:") := by
  rcases reported.named with ok | fail
  · have front : lineFeeds "ok " = 0 := rfl
    have back : lineFeeds " " = 0 := rfl
    have flat : lineFeeds ("ok " ++ entry.name ++ " ") = 0 := by simp [front, back, named]
    have split : "ok " ++ entry.name ++ " (abi " = "ok " ++ entry.name ++ " " ++ "(abi " := by
      show "ok " ++ entry.name ++ (" " ++ "(abi ") = _
      exact String.append_assoc.symm
    exact ⟨_, flat, Text.startsWith_of_append (split ▸ ok), .inl rfl⟩
  · have front : lineFeeds "FAIL " = 0 := rfl
    have back : lineFeeds ":" = 0 := rfl
    have flat : lineFeeds ("FAIL " ++ entry.name ++ ":") = 0 := by simp [front, back, named]
    have split : "FAIL " ++ entry.name ++ ": " = "FAIL " ++ entry.name ++ ":" ++ " " := by
      show "FAIL " ++ entry.name ++ (":" ++ " ") = _
      exact String.append_assoc.symm
    exact ⟨_, flat, Text.startsWith_of_append (split ▸ fail), .inr rfl⟩

theorem exists_block (host : Host) {entry : Entry} (named : lineFeeds entry.name = 0) :
    ∃ block, HasLines ((entry.report host).text ++ "\n") block ∧ entry.TakesLines host block := by
  have reported := entry.reportedAs_report host
  obtain ⟨head, flat, starts, first⟩ := exists_head reported named
  obtain ⟨line, more, lines, same, shared⟩ := Text.exists_lines flat starts
  have count : (line :: more).length = 1 + lineFeeds (String.join (entry.shown host)) := by
    rw [lines.length, Text.lineFeeds_append, lineFeeds_report host named]
    exact Nat.add_comm _ _
  refine ⟨line :: more, lines, same ▸ reported, ⟨line, more, rfl, ?_⟩, count⟩
  rcases first with rfl | rfl
  · exact .inl shared
  · exact .inr shared

end Entry

theorem Registry.WellFormed.lineFeeds_name {registry : Registry} (formed : registry.WellFormed) :
    ∀ entry ∈ registry.entries, lineFeeds entry.name = 0 := by
  intro entry inside
  rw [Text.lineFeeds_eq_zero]
  intro feed
  have known := (formed.named entry inside).2 '\n' feed
  simp at known

/-- The blocks of the entries, one after the other, are the lines of all their reports. -/
theorem exists_blocks (host : Host) {entries : List Entry} (named : ∀ entry ∈ entries, lineFeeds entry.name = 0) :
    ∃ blocks : List (List String),
      HasLines (String.join ((entries.map (Entry.report host)).map (·.text ++ "\n"))) blocks.flatten ∧
      List.Forall₂ (Entry.TakesLines host) entries blocks := by
  induction entries with
  | nil => exact ⟨[], ⟨rfl, by simp⟩, .nil⟩
  | cons entry rest ih =>
    obtain ⟨own, others⟩ := List.forall_mem_cons.mp named
    obtain ⟨block, lines, takes⟩ := entry.exists_block host own
    obtain ⟨blocks, after, each⟩ := ih others
    refine ⟨block :: blocks, ?_, .cons takes each⟩
    rw [List.map_cons, List.map_cons, String.join_cons]
    exact lines.append after

theorem length_blocks {host : Host} {entries : List Entry} {blocks : List (List String)}
    (each : List.Forall₂ (Entry.TakesLines host) entries blocks) :
    blocks.flatten.length = entries.length + lineFeeds (String.join (entries.flatMap (Entry.shown host))) := by
  induction each with
  | nil => rfl
  | cons takes _ ih =>
    rw [List.flatten_cons, List.length_append, takes.length, ih, List.length_cons, List.flatMap_cons,
      Text.lineFeeds_join_append]
    omega

/-- The lines that a run prints, in a block for each entry. -/
structure Outcome.Lists (host : Host) (entries : List Entry) (blocks : List (List String)) (outcome : Outcome) :
    Prop where
  printed : HasLines outcome.stdout blocks.flatten
  each : List.Forall₂ (Entry.TakesLines host) entries blocks
  single : blocks.flatten.length = entries.length ↔
    ∀ entry ∈ entries, ∀ text ∈ entry.shown host, '\n' ∉ text.toList

theorem run_lines (host : Host) {arguments : List String} {chosen : Arguments} {registry : Registry}
    (choose : Arguments.Choose arguments chosen) (loud : chosen.quiet = false)
    (registered : chosen.chooseRegistry host = .ok registry) :
    ∃ blocks, (run host arguments).Lists host registry.entries blocks := by
  have formed := Arguments.chooseRegistry_wellFormed registered
  obtain ⟨blocks, lines, each⟩ := exists_blocks host formed.lineFeeds_name
  have told : (run host arguments).stdout =
      String.join ((registry.entries.map (Entry.report host)).map (·.text ++ "\n")) := by
    simp only [run_of_choose choose, Arguments.run, registered, loud, Registry.reports_eq_map]
    simp [Outcome.ofReports]
  refine ⟨blocks, told ▸ lines, each, ?_⟩
  rw [length_blocks each, Nat.add_eq_left, Text.lineFeeds_join_eq_zero]
  constructor
  · intro flat entry inside text shows
    exact Text.lineFeeds_eq_zero.mp (flat text (List.mem_flatMap.mpr ⟨entry, inside, shows⟩))
  · intro flat text shows
    obtain ⟨entry, inside, shows⟩ := List.mem_flatMap.mp shows
    exact Text.lineFeeds_eq_zero.mpr (flat entry inside text shows)

/-- The known grammars show nothing but plain texts, and take a line each. -/
theorem run_lines_figHost :
    Arguments.Choose [] .none ∧ Arguments.none.quiet = false ∧
    Arguments.none.chooseRegistry figHost = .ok (.known ⟨"."⟩) ∧
    (∃ blocks, (run figHost []).Lists figHost (Registry.known ⟨"."⟩).entries blocks) ∧
    (run figHost []).stdout = "ok fig (abi 15)\nFAIL nyx: Error loading Nyx grammar: " ++
      "could not open grammar library ./libtree-sitter-nyx.so: absent\n" := by
  have choose : Arguments.Choose [] .none := ⟨[], .inl (.done []), rfl⟩
  exact ⟨choose, rfl, rfl, run_lines figHost choose rfl rfl, by decide +kernel⟩

/-- A host with a registry file and no library. The display name in the file has a line feed in it. -/
def splittingHost : Host where
  readText := fun path =>
    if path = ⟨"d/r.json"⟩ then
      some "\x7b\"grammars\":[\x7b\"name\":\"a\",\"display_name\":\"A\\nok b (abi 15)\"\x7d]\x7d"
    else none
  openLibrary := fun _ => .error "absent"

/-- The only entry is `a`, and yet there are two lines, of which the second reads as a report on `b`. -/
theorem run_splittingHost :
    (∃ chosen registry, Arguments.Choose ["-r", "d/r.json"] chosen ∧ chosen.quiet = false ∧
      chosen.chooseRegistry splittingHost = .ok registry ∧ registry.entries.map (·.name) = ["a"]) ∧
    (run splittingHost ["-r", "d/r.json"]).stdout = "FAIL a: Error loading A\n" ++
      "ok b (abi 15) grammar: could not open grammar library d/libtree-sitter-a.so: absent\n" ∧
    ∀ lines, HasLines (run splittingHost ["-r", "d/r.json"]).stdout lines → lines.length = 2 := by
  have option : Arguments.option? "-r".toList = some (.registry, .none) := by decide +kernel
  have choose : Arguments.Choose ["-r", "d/r.json"] { Arguments.none with registry := some "d/r.json" } :=
    ⟨_, .inl (.apart (by decide) option (.done [])), rfl⟩
  have names : ((({ Arguments.none with registry := some "d/r.json" } : Arguments).chooseRegistry
      splittingHost).toOption.map fun registry => registry.entries.map (·.name)) = some ["a"] := by decide +kernel
  have printed : (run splittingHost ["-r", "d/r.json"]).stdout = "FAIL a: Error loading A\n" ++
      "ok b (abi 15) grammar: could not open grammar library d/libtree-sitter-a.so: absent\n" := by decide +kernel
  refine ⟨?_, printed, ?_⟩
  · cases chosen : ({ Arguments.none with registry := some "d/r.json" } : Arguments).chooseRegistry splittingHost with
    | error => rw [chosen] at names; contradiction
    | ok registry =>
      rw [chosen] at names
      exact ⟨_, registry, choose, rfl, chosen, Option.some.inj names⟩
  · intro lines has
    rw [has.length, printed]
    decide +kernel

end GrammarCheck
