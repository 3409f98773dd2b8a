import GrammarCheck.Proofs.Loading
import GrammarCheck.Workers

/-! Workers under any schedule. Main statement: no schedule gets stuck or goes on for ever, and each one
that is done has joined, in the order of the registry, what every entry comes to when it is loaded alone. -/
namespace GrammarCheck

namespace Stage

/-- What a worker has found out about its entry by the time it is at a stage. -/
def Holds (host : Host) (entry : Entry) : Stage → Prop
  | started => True
  | opened path symbol library => entry.provider = .library path symbol ∧ host.openLibrary path = .ok library
  | resolved language => entry.provider.resolve host = .ok language
  | constructed language => entry.provider.resolve host = .ok (some language)
  | finished result => result = entry.load host

theorem Holds.next {host : Host} {entry : Entry} {stage next : Stage} (holds : stage.Holds host entry)
    (step : stage.next? host entry = some next) : next.Holds host entry := by
  revert holds step
  fun_cases next? host entry stage with
  | case1 language provider =>
    rintro - ⟨⟩
    simp only [Holds, provider, Provider.resolve]
  | case2 path symbol provider cause unopened =>
    rintro - ⟨⟩
    exact (Entry.load_of_fault (Entry.Meets.openLibrary provider unopened).loadLanguage_eq).symm
  | case3 path symbol provider library opened =>
    rintro - ⟨⟩
    exact ⟨provider, opened⟩
  | case4 path symbol library cause missing =>
    rintro ⟨provider, opened⟩ ⟨⟩
    exact (Entry.load_of_fault (Entry.Meets.missingSymbol provider opened missing).loadLanguage_eq).symm
  | case5 path symbol library language found =>
    rintro ⟨provider, opened⟩ ⟨⟩
    rw [Holds, provider, Provider.resolve_of_opened opened, found]
    rfl
  | case6 =>
    rintro resolve ⟨⟩
    exact (Entry.load_of_fault (by simp only [Entry.loadLanguage, show _ = _ from resolve])).symm
  | case7 language =>
    rintro resolve ⟨⟩
    exact resolve
  | case8 language supported =>
    rintro resolve ⟨⟩
    exact (Entry.load_of_language (by simp only [Entry.loadLanguage, show _ = _ from resolve, if_pos supported])).symm
  | case9 language unsupported =>
    rintro resolve ⟨⟩
    exact (Entry.load_of_fault (by simp only [Entry.loadLanguage, show _ = _ from resolve, if_neg unsupported])).symm
  | case10 result =>
    rintro - ⟨⟩

/-- An upper bound of the steps that are left. -/
def rank : Stage → Nat
  | started => 4
  | opened .. => 3
  | resolved _ => 2
  | constructed _ => 1
  | finished _ => 0

theorem rank_next {host : Host} {entry : Entry} {stage next : Stage}
    (step : stage.next? host entry = some next) : next.rank < stage.rank := by
  revert step
  fun_cases next? host entry stage <;> rintro ⟨⟩ <;> simp [rank, failed]

theorem exists_next_or (host : Host) (entry : Entry) (stage : Stage) :
    (∃ result, stage = finished result) ∨ ∃ next, stage.next? host entry = some next := by
  fun_cases next? host entry stage with
  | case10 result => exact .inl ⟨result, rfl⟩
  | _ => exact .inr ⟨_, rfl⟩

end Stage

def Entry.verification (host : Host) (entry : Entry) : Verification := ⟨entry.name, entry.load host⟩

namespace Workers
variable {host : Host} {registry : Registry} {workers next : Workers}

theorem of_start (step : workers.start = some next) :
    ∃ entry rest, workers.unstarted = entry :: rest ∧ next = { workers with
      unstarted := rest
      running := workers.running ++ [⟨entry, .started⟩]
      handles := workers.handles ++ [(entry, workers.running.length)] } := by
  unfold start at step
  split at step
  · exact nomatch step
  · rename_i entry rest unstarted
    exact ⟨entry, rest, unstarted, (Option.some.inj step).symm⟩

theorem of_work {place : Nat} (step : workers.work host place = some next) :
    ∃ worker stage, workers.running[place]? = some worker ∧ worker.stage.next? host worker.entry = some stage ∧
      next = { workers with running := workers.running.set place ⟨worker.entry, stage⟩ } := by
  unfold work at step
  split at step
  · exact nomatch step
  · rename_i worker found
    obtain ⟨stage, advance, same⟩ := Option.map_eq_some_iff.mp step
    exact ⟨worker, stage, found, advance, same.symm⟩

theorem of_join (step : workers.join = some next) :
    ∃ entry place rest own result, workers.unstarted = [] ∧ workers.handles = (entry, place) :: rest ∧
      workers.running[place]? = some ⟨own, .finished result⟩ ∧ next = { workers with
        handles := rest
        joined := workers.joined ++ [⟨entry.name, result⟩] } := by
  unfold join at step
  split at step
  · rename_i entry place rest unstarted handles
    split at step
    · rename_i own result found
      exact ⟨entry, place, rest, own, result, unstarted, handles, found, (Option.some.inj step).symm⟩
    · exact nomatch step
  · exact nomatch step

/-- Every handle is that of the worker of its entry, every worker is sound about its own entry, and what
was joined is what comes of the entries that are not waited for. -/
structure Sound (host : Host) (registry : Registry) (workers : Workers) : Prop where
  running : ∀ worker ∈ workers.running, worker.stage.Holds host worker.entry
  handles : ∀ handle ∈ workers.handles, ∃ worker, workers.running[handle.2]? = some worker ∧ worker.entry = handle.1
  covers : workers.joined ++ (workers.handles.map Prod.fst ++ workers.unstarted).map (Entry.verification host) =
    registry.verifyAll host

theorem sound_ofRegistry (host : Host) (registry : Registry) : (ofRegistry registry).Sound host registry where
  running := by simp [ofRegistry]
  handles := by simp [ofRegistry]
  covers := by simp [ofRegistry, Registry.verifyAll, Entry.verification]

theorem Sound.start (sound : workers.Sound host registry) (step : workers.start = some next) :
    next.Sound host registry := by
  obtain ⟨entry, rest, unstarted, rfl⟩ := of_start step
  exact {
    running := by
      intro worker member
      rcases List.mem_append.mp member with old | new
      · exact sound.running worker old
      · cases List.mem_singleton.mp new
        exact trivial
    handles := by
      intro handle member
      rcases List.mem_append.mp member with old | new
      · obtain ⟨worker, found, own⟩ := sound.handles handle old
        have inside := (List.getElem?_eq_some_iff.mp found).1
        exact ⟨worker, (List.getElem?_append_left inside).trans found, own⟩
      · cases List.mem_singleton.mp new
        exact ⟨⟨entry, .started⟩, by simp, rfl⟩
    covers := by simpa [unstarted] using sound.covers }

theorem Sound.work {place : Nat} (sound : workers.Sound host registry)
    (step : workers.work host place = some next) : next.Sound host registry := by
  obtain ⟨worker, stage, found, advance, rfl⟩ := of_work step
  exact {
    running := by
      intro other member
      rcases List.mem_or_eq_of_mem_set member with old | rfl
      · exact sound.running other old
      · exact (sound.running worker (List.mem_of_getElem? found)).next advance
    -- a step leaves the entry of a worker as it is, so its handle stays right
    handles := by
      intro handle member
      obtain ⟨other, present, own⟩ := sound.handles handle member
      by_cases same : place = handle.2
      · subst same
        cases found.symm.trans present
        have inside := (List.getElem?_eq_some_iff.mp found).1
        exact ⟨_, List.getElem?_set_self inside, own⟩
      · exact ⟨other, (List.getElem?_set_ne same).trans present, own⟩
    covers := sound.covers }

theorem Sound.join (sound : workers.Sound host registry) (step : workers.join = some next) :
    next.Sound host registry := by
  obtain ⟨entry, place, rest, own, result, unstarted, handles, found, rfl⟩ := of_join step
  obtain ⟨worker, present, same⟩ := sound.handles (entry, place) (by simp [handles])
  cases found.symm.trans present
  subst same
  have result_eq : result = own.load host := sound.running _ (List.mem_of_getElem? found)
  exact {
    running := sound.running
    handles := fun handle member => sound.handles handle (by simp [handles, member])
    covers := by simpa [unstarted, handles, Entry.verification, result_eq] using sound.covers }

theorem Sound.move {move : Move} (sound : workers.Sound host registry)
    (step : workers.move host move = some next) : next.Sound host registry := by
  cases move with
  | start => exact sound.start step
  | work place => exact sound.work step
  | join => exact sound.join step

theorem Sound.run {schedule : List Move} (sound : workers.Sound host registry)
    (ran : workers.run host schedule = some next) : next.Sound host registry := by
  induction schedule generalizing workers with
  | nil =>
    cases ran
    exact sound
  | cons first rest ih =>
    cases step : workers.move host first with
    | none => simp [Workers.run, step] at ran
    | some middle =>
      rw [Workers.run, step] at ran
      exact ih (sound.move step) ran

def stepsLeft : List Worker → Nat
  | [] => 0
  | worker :: rest => worker.stage.rank + stepsLeft rest

theorem stepsLeft_append (running others : List Worker) :
    stepsLeft (running ++ others) = stepsLeft running + stepsLeft others := by
  induction running with
  | nil => simp [stepsLeft]
  | cons worker rest ih => simp [stepsLeft, ih, Nat.add_assoc]

theorem stepsLeft_set_lt {running : List Worker} {place : Nat} {worker : Worker} {stage : Stage}
    (found : running[place]? = some worker) (lower : stage.rank < worker.stage.rank) :
    stepsLeft (running.set place ⟨worker.entry, stage⟩) < stepsLeft running := by
  induction running generalizing place with
  | nil => exact nomatch found
  | cons first rest ih =>
    cases place with
    | zero =>
      cases found
      simpa [stepsLeft] using lower
    | succ place => simpa [stepsLeft] using ih found

/-- An upper bound of the moves that are left. -/
def effort (workers : Workers) : Nat :=
  6 * workers.unstarted.length + stepsLeft workers.running + workers.handles.length

theorem effort_move {move : Move} (step : workers.move host move = some next) :
    next.effort < workers.effort := by
  cases move with
  | start =>
    obtain ⟨entry, rest, unstarted, rfl⟩ := of_start step
    simp only [effort, unstarted, stepsLeft_append, stepsLeft, Stage.rank, List.length_append,
      List.length_cons, List.length_nil]
    omega
  | work place =>
    obtain ⟨worker, stage, found, advance, rfl⟩ := of_work step
    have falls := stepsLeft_set_lt found (Stage.rank_next advance)
    simp only [effort]
    omega
  | join =>
    obtain ⟨entry, place, rest, own, result, unstarted, handles, found, rfl⟩ := of_join step
    simp only [effort, handles, List.length_cons]
    omega

theorem length_of_run {schedule : List Move} (ran : workers.run host schedule = some next) :
    schedule.length + next.effort ≤ workers.effort := by
  induction schedule generalizing workers with
  | nil =>
    cases ran
    simp
  | cons first rest ih =>
    cases step : workers.move host first with
    | none => simp [run, step] at ran
    | some middle =>
      rw [run, step] at ran
      have falls := effort_move step
      have bound := ih ran
      simp only [List.length_cons]
      omega

/-- Either everything is joined or there is a move. The next worker to join is finished or has a step. -/
theorem Sound.isDone_or (sound : workers.Sound host registry) :
    workers.isDone = true ∨ ∃ move next, workers.move host move = some next := by
  cases unstarted : workers.unstarted with
  | cons entry rest => exact .inr ⟨.start, _, by rw [Workers.move, Workers.start, unstarted]⟩
  | nil =>
    cases handles : workers.handles with
    | nil => exact .inl (by simp [isDone, unstarted, handles])
    | cons handle rest =>
      obtain ⟨⟨entry, stage⟩, found, -⟩ := sound.handles handle (by simp [handles])
      rcases stage.exists_next_or host entry with ⟨result, rfl⟩ | ⟨advanced, step⟩
      · exact .inr ⟨.join, by simp [Workers.move, Workers.join, unstarted, handles, found]⟩
      · exact .inr ⟨.work handle.2, by simp [Workers.move, Workers.work, found, step]⟩

theorem Sound.joined_of_isDone (sound : workers.Sound host registry) (done : workers.isDone = true) :
    workers.joined = registry.verifyAll host := by
  obtain ⟨unstarted, handles⟩ : workers.unstarted = [] ∧ workers.handles = [] := by simpa [isDone] using done
  simpa [unstarted, handles] using sound.covers

/-- From every sound state some schedule gets everything joined, as each move lowers the effort. -/
theorem Sound.exists_run (sound : workers.Sound host registry) :
    ∃ schedule last, workers.run host schedule = some last ∧ last.isDone = true := by
  induction left : workers.effort using Nat.strongRecOn generalizing workers with
  | _ effort ih =>
    rcases sound.isDone_or with done | ⟨move, next, step⟩
    · exact ⟨[], workers, rfl, done⟩
    · obtain ⟨schedule, last, ran, done⟩ := ih next.effort (left ▸ effort_move step) (sound.move step) rfl
      exact ⟨move :: schedule, last, by rw [Workers.run, step]; exact ran, done⟩

/-- Some schedule joins these verifications. -/
def Joins (host : Host) (registry : Registry) (verifications : List Verification) : Prop :=
  ∃ schedule last, (ofRegistry registry).run host schedule = some last ∧ last.isDone = true ∧
    last.joined = verifications

theorem joins_iff (host : Host) (registry : Registry) (verifications : List Verification) :
    Joins host registry verifications ↔ verifications = registry.verifyAll host := by
  have sound := sound_ofRegistry host registry
  constructor
  · rintro ⟨schedule, last, ran, done, rfl⟩
    exact (sound.run ran).joined_of_isDone done
  · rintro rfl
    obtain ⟨schedule, last, ran, done⟩ := sound.exists_run
    exact ⟨schedule, last, ran, done, (sound.run ran).joined_of_isDone done⟩

/-- Schedules are as good as one another, and entries do not depend on one another. -/
structure Settles (host : Host) (registry : Registry) : Prop where
  bounded : ∀ schedule last, (ofRegistry registry).run host schedule = some last →
    schedule.length ≤ 6 * registry.entries.length
  live : ∀ schedule last, (ofRegistry registry).run host schedule = some last →
    last.isDone = true ∨ ∃ move next, last.move host move = some next
  joins : ∀ verifications, Joins host registry verifications ↔ verifications = registry.verifyAll host
  length_eq : ∀ verifications, Joins host registry verifications →
    verifications.length = registry.entries.length
  each : ∀ verifications, Joins host registry verifications → ∀ (place : Nat) (entry : Entry),
    registry.entries[place]? = some entry → verifications[place]? = some ⟨entry.name, entry.load host⟩
  independent : ∀ verifications, Joins host registry verifications → ∀ changed entry others,
    Joins host ⟨registry.entries.set changed entry⟩ others → ∀ place, place ≠ changed →
      others[place]? = verifications[place]?

theorem settles (host : Host) (registry : Registry) : Settles host registry where
  bounded := by
    intro schedule last ran
    have bound := length_of_run ran
    simp only [effort, ofRegistry, stepsLeft, List.length_nil] at bound
    omega
  live := fun schedule last ran => ((sound_ofRegistry host registry).run ran).isDone_or
  joins := joins_iff host registry
  length_eq := by
    intro verifications joins
    simp [(joins_iff host registry verifications).mp joins, Registry.verifyAll]
  each := by
    intro verifications joins place entry present
    simp [(joins_iff host registry verifications).mp joins, Registry.verifyAll, present]
  independent := by
    intro verifications joins changed entry others joined place differs
    rw [(joins_iff _ _ _).mp joins, (joins_iff _ _ _).mp joined]
    simp [Registry.verifyAll, List.getElem?_set_ne differs.symm]

/-- The second worker is finished before the first one gets to work, and is joined after it. -/
example (host : Host) :
    ((ofRegistry ⟨[.ofProvider "a" (.linked none), .ofProvider "b" (.linked none)]⟩).run host
      [.start, .start, .work 1, .work 1, .work 0, .work 0, .join, .join]).map
        (fun last => (last.isDone, last.joined.map (·.grammar))) = some (true, ["a", "b"]) := rfl

end Workers
end GrammarCheck
