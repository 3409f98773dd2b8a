import GrammarCheck.Loading

/-! What a load comes to. Main statement: an entry loads exactly if its provider answers with a language of a
version that can be read, and else it fails at the first stage that it does not clear, with what it met there. -/
namespace GrammarCheck

namespace Provider
variable {host : Host}

theorem resolve_of_unopened {path : Path} {symbol cause : String} (unopened : host.openLibrary path = .error cause) :
    (library path symbol).resolve host = .error (.openLibrary path cause) := by
  rw [resolve, unopened]
  rfl

theorem resolve_of_opened {path : Path} {symbol : String} {opened : Library}
    (open_eq : host.openLibrary path = .ok opened) :
    (library path symbol).resolve host = (opened.find symbol).mapError (.missingSymbol symbol path) := by
  rw [resolve, open_eq]
  rfl

theorem resolve_of_missing {path : Path} {symbol cause : String} {opened : Library}
    (opens : host.openLibrary path = .ok opened) (missing : opened.find symbol = .error cause) :
    (library path symbol).resolve host = .error (.missingSymbol symbol path cause) := by
  rw [resolve_of_opened opens, missing]
  rfl

/-- What the provider gives when it is asked, which is null or a language. -/
inductive Answers (host : Host) : Provider → Option Language → Prop
  | linked (language : Option Language) : Answers host (linked language) language
  | library {path : Path} {symbol : String} {opened : Library} {language : Option Language}
      (opens : host.openLibrary path = .ok opened) (finds : opened.find symbol = .ok language) :
      Answers host (library path symbol) language

theorem Answers.resolve_eq {provider : Provider} {language : Option Language}
    (answers : provider.Answers host language) : provider.resolve host = .ok language := by
  cases answers with
  | linked => rfl
  | library opens finds =>
    rw [resolve_of_opened opens, finds]
    rfl

theorem Answers.unique {provider : Provider} {language other : Option Language}
    (answers : provider.Answers host language) (also : provider.Answers host other) : language = other :=
  Except.ok.inj (answers.resolve_eq.symm.trans also.resolve_eq)

end Provider

/-- What has to go well for a grammar to load, in the order of the list below. -/
inductive LoadStage where
  | openLibrary
  | findSymbol
  | getLanguage
  | checkAbi

def LoadStage.order : List LoadStage := [.openLibrary, .findSymbol, .getLanguage, .checkAbi]

def LoadFault.stage : LoadFault → LoadStage
  | openLibrary .. => .openLibrary
  | missingSymbol .. => .findSymbol
  | nullLanguage => .getLanguage
  | incompatibleAbi _ => .checkAbi

namespace Entry
variable {host : Host} {entry : Entry}

def Clears (host : Host) (entry : Entry) : LoadStage → Prop
  | .openLibrary => ∀ path symbol, entry.provider = .library path symbol →
    ∃ opened, host.openLibrary path = .ok opened
  | .findSymbol => ∃ language, entry.provider.Answers host language
  | .getLanguage => ∃ language, entry.provider.Answers host (some language)
  | .checkAbi => ∃ language, entry.provider.Answers host (some language) ∧
    oldestAbi ≤ language.abi ∧ language.abi ≤ newestAbi

/-- The entry clears every stage before this one, and not this one. -/
def FirstUncleared (host : Host) (entry : Entry) (stage : LoadStage) : Prop :=
  ∃ before after, LoadStage.order = before ++ stage :: after ∧ (∀ earlier ∈ before, entry.Clears host earlier) ∧
    ¬ entry.Clears host stage

/-- The fault tells what stands in the way of the entry, by its own path and symbol or by what it led to. -/
inductive Meets (host : Host) (entry : Entry) : LoadFault → Prop
  | openLibrary {path : Path} {symbol cause : String} (provider : entry.provider = .library path symbol)
      (unopened : host.openLibrary path = .error cause) : Meets host entry (.openLibrary path cause)
  | missingSymbol {path : Path} {symbol cause : String} {opened : Library}
      (provider : entry.provider = .library path symbol) (opens : host.openLibrary path = .ok opened)
      (missing : opened.find symbol = .error cause) : Meets host entry (.missingSymbol symbol path cause)
  | nullLanguage (null : entry.provider.Answers host none) : Meets host entry .nullLanguage
  | incompatibleAbi {language : Language} (answers : entry.provider.Answers host (some language))
      (outside : language.abi < oldestAbi ∨ newestAbi < language.abi) :
      Meets host entry (.incompatibleAbi language.abi)

/-- What comes of loading the entry. -/
structure LoadsAs (host : Host) (entry : Entry) (result : Except LoadFailure LoadedGrammar) : Prop where
  succeeds : (∃ loaded, result = .ok loaded) ↔ ∃ language, entry.provider.Answers host (some language) ∧
    oldestAbi ≤ language.abi ∧ language.abi ≤ newestAbi
  loaded : ∀ loaded, result = .ok loaded → loaded.name = entry.name ∧
    entry.provider.Answers host (some loaded.language) ∧ loaded.abi = loaded.language.abi ∧
    (loaded.isDynamic = true ↔ ∃ path symbol, entry.provider = .library path symbol)
  failed : ∀ failure, result = .error failure → failure.grammar = entry.name ∧
    failure.displayName = entry.displayName ∧ entry.Meets host failure.fault ∧
    entry.FirstUncleared host failure.fault.stage
  linked : ∀ language, entry.provider = .linked language → entry.provider.Answers host language ∧
    ∀ failure, result = .error failure → failure.fault = .nullLanguage ∨ ∃ found, failure.fault = .incompatibleAbi found

theorem answers_of_linked {language : Option Language} (linked : entry.provider = .linked language) :
    entry.provider.Answers host language := by
  rw [linked]
  exact .linked language

theorem answers_of_library {path : Path} {symbol : String} {opened : Library} {language : Option Language}
    (library : entry.provider = .library path symbol) (opens : host.openLibrary path = .ok opened)
    (finds : opened.find symbol = .ok language) : entry.provider.Answers host language := by
  rw [library]
  exact .library opens finds

theorem loadLanguage_of_answers {language : Language} (answers : entry.provider.Answers host (some language)) :
    entry.loadLanguage host =
      if oldestAbi ≤ language.abi ∧ language.abi ≤ newestAbi then .ok language
      else .error (.incompatibleAbi language.abi) := by
  simp only [loadLanguage, answers.resolve_eq]

theorem load_of_fault {fault : LoadFault} (unloaded : entry.loadLanguage host = .error fault) :
    entry.load host = .error ⟨entry.name, entry.displayName, fault⟩ := by
  simp only [load, unloaded]

theorem load_of_language {language : Language} (loaded : entry.loadLanguage host = .ok language) :
    entry.load host = .ok ⟨entry.name, language, language.abi, entry.provider.isDynamic⟩ := by
  simp only [load, loaded]

theorem Meets.loadLanguage_eq {fault : LoadFault} (meets : entry.Meets host fault) :
    entry.loadLanguage host = .error fault := by
  cases meets with
  | openLibrary provider unopened =>
    simp only [loadLanguage, provider, Provider.resolve_of_unopened unopened]
  | missingSymbol provider opens missing =>
    simp only [loadLanguage, provider, Provider.resolve_of_missing opens missing]
  | nullLanguage null => simp only [loadLanguage, null.resolve_eq]
  | incompatibleAbi answers outside =>
    rw [loadLanguage_of_answers answers, if_neg (by omega)]

/-- Unless something stands in the way, the entry clears the last stage. -/
theorem clears_or_meets (host : Host) (entry : Entry) :
    entry.Clears host .checkAbi ∨ ∃ fault, entry.Meets host fault := by
  have checked {answer : Option Language} (answers : entry.provider.Answers host answer) :
      entry.Clears host .checkAbi ∨ ∃ fault, entry.Meets host fault := by
    cases answer with
    | none => exact .inr ⟨_, .nullLanguage answers⟩
    | some language =>
      by_cases readable : oldestAbi ≤ language.abi ∧ language.abi ≤ newestAbi
      · exact .inl ⟨language, answers, readable⟩
      · exact .inr ⟨_, .incompatibleAbi answers (by omega)⟩
  cases provider : entry.provider with
  | linked language => exact checked (answers_of_linked provider)
  | library path symbol =>
    cases opens : host.openLibrary path with
    | error cause => exact .inr ⟨_, .openLibrary provider opens⟩
    | ok opened =>
      cases finds : opened.find symbol with
      | error cause => exact .inr ⟨_, .missingSymbol provider opens finds⟩
      | ok language => exact checked (answers_of_library provider opens finds)

theorem clears_openLibrary {language : Option Language} (answers : entry.provider.Answers host language) :
    entry.Clears host .openLibrary := by
  intro path symbol provider
  rw [provider] at answers
  cases answers with
  | library opens _ => exact ⟨_, opens⟩

theorem Meets.firstUncleared {fault : LoadFault} (meets : entry.Meets host fault) :
    entry.FirstUncleared host fault.stage := by
  cases meets with
  | @openLibrary path symbol cause provider unopened =>
    refine ⟨[], _, rfl, by simp, fun cleared => ?_⟩
    obtain ⟨opened, opens⟩ := cleared path symbol provider
    exact nomatch unopened.symm.trans opens
  | @missingSymbol path symbol cause opened provider opens missing =>
    refine ⟨[.openLibrary], _, rfl, ?_, ?_⟩
    · rw [List.forall_mem_singleton]
      intro other name same
      cases provider.symm.trans same
      exact ⟨opened, opens⟩
    · rintro ⟨language, answers⟩
      have resolved := answers.resolve_eq
      rw [provider, Provider.resolve_of_opened opens, missing] at resolved
      exact nomatch resolved
  | nullLanguage null =>
    refine ⟨[.openLibrary, .findSymbol], _, rfl, ?_, ?_⟩
    · simp only [List.forall_mem_cons]
      exact ⟨clears_openLibrary null, ⟨_, null⟩, by simp⟩
    · rintro ⟨language, answers⟩
      exact nomatch null.unique answers
  | @incompatibleAbi language answers outside =>
    refine ⟨[.openLibrary, .findSymbol, .getLanguage], _, rfl, ?_, ?_⟩
    · simp only [List.forall_mem_cons]
      exact ⟨clears_openLibrary answers, ⟨_, answers⟩, ⟨_, answers⟩, by simp⟩
    · rintro ⟨other, also, readable⟩
      cases answers.unique also
      omega

theorem Meets.of_linked {language : Option Language} {fault : LoadFault} (meets : entry.Meets host fault)
    (linked : entry.provider = .linked language) :
    fault = .nullLanguage ∨ ∃ found, fault = .incompatibleAbi found := by
  cases meets with
  | openLibrary provider _ => exact nomatch linked.symm.trans provider
  | missingSymbol provider _ _ => exact nomatch linked.symm.trans provider
  | nullLanguage => exact .inl rfl
  | incompatibleAbi => exact .inr ⟨_, rfl⟩

theorem isDynamic_iff {provider : Provider} :
    provider.isDynamic = true ↔ ∃ path symbol, provider = .library path symbol := by
  cases provider <;> simp [Provider.isDynamic]

theorem loadsAs_load (host : Host) (entry : Entry) : entry.LoadsAs host (entry.load host) := by
  rcases clears_or_meets host entry with ⟨language, answers, readable⟩ | ⟨fault, meets⟩
  · have load := load_of_language ((loadLanguage_of_answers answers).trans (if_pos readable))
    rw [load]
    exact {
      succeeds := ⟨fun _ => ⟨language, answers, readable⟩, fun _ => ⟨_, rfl⟩⟩
      loaded := by
        rintro _ ⟨⟩
        exact ⟨rfl, answers, rfl, isDynamic_iff⟩
      failed := nofun
      linked := fun _ provider => ⟨answers_of_linked provider, nofun⟩ }
  · have first := meets.firstUncleared
    rw [load_of_fault meets.loadLanguage_eq]
    exact {
      succeeds := by
        refine ⟨nofun, ?_⟩
        rintro ⟨language, answers, readable⟩
        have load := load_of_language ((loadLanguage_of_answers answers).trans (if_pos readable))
        exact nomatch (load_of_fault meets.loadLanguage_eq).symm.trans load
      loaded := nofun
      failed := by
        rintro _ ⟨⟩
        exact ⟨rfl, rfl, meets, first⟩
      linked := by
        intro language provider
        refine ⟨answers_of_linked provider, ?_⟩
        rintro _ ⟨⟩
        exact meets.of_linked provider }

/-- Both ends of the range load, and what lies next to them does not. -/
example (host : Host) : [12, 13, 15, 16].map (fun abi =>
    ((ofProvider "a" (.linked (some (.ofTable abi none [])))).load host).isOk) = [false, true, true, false] := rfl

end Entry
end GrammarCheck
