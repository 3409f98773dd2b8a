import GrammarCheck.Loading

/-! Loading the languages of a registry by workers, one for each entry. Workers are started in the order of
the registry and joined in that order, and take their steps in any order. -/
namespace GrammarCheck

/-- How far a worker got with the load of its entry. -/
inductive Stage where
  | started
  | opened (path : Path) (symbol : String) (library : Library)
  | resolved (language : Option Language)
  | constructed (language : Language)
  | finished (result : Except LoadFailure LoadedGrammar)

namespace Stage

def failed (entry : Entry) (fault : LoadFault) : Stage :=
  finished (.error ⟨entry.name, entry.displayName, fault⟩)

def next? (host : Host) (entry : Entry) : Stage → Option Stage
  | started =>
    match entry.provider with
    | .linked language => some (resolved language)
    | .library path symbol =>
      match host.openLibrary path with
      | .error cause => some (failed entry (.openLibrary path cause))
      | .ok library => some (opened path symbol library)
  | opened path symbol library =>
    match library.find symbol with
    | .error cause => some (failed entry (.missingSymbol symbol path cause))
    | .ok language => some (resolved language)
  | resolved none => some (failed entry .nullLanguage)
  | resolved (some language) => some (constructed language)
  | constructed language =>
    if oldestAbi ≤ language.abi ∧ language.abi ≤ newestAbi then
      some (finished (.ok ⟨entry.name, language, language.abi, entry.provider.isDynamic⟩))
    else some (failed entry (.incompatibleAbi language.abi))
  | finished _ => none

end Stage

structure Worker where
  entry : Entry
  stage : Stage

/-- Workers and their collector. `handles` pairs the entries whose workers are not joined yet with the
places of these workers. -/
structure Workers where
  unstarted : List Entry
  running : List Worker
  handles : List (Entry × Nat)
  joined : List Verification

inductive Move where
  | start
  | work (place : Nat)
  | join

namespace Workers

def ofRegistry (registry : Registry) : Workers := ⟨registry.entries, [], [], []⟩

def start (workers : Workers) : Option Workers :=
  match workers.unstarted with
  | [] => none
  | entry :: rest => some { workers with
      unstarted := rest
      running := workers.running ++ [⟨entry, .started⟩]
      handles := workers.handles ++ [(entry, workers.running.length)] }

/-- The worker at `place` takes a step. -/
def work (host : Host) (workers : Workers) (place : Nat) : Option Workers :=
  match workers.running[place]? with
  | none => none
  | some worker => (worker.stage.next? host worker.entry).map fun stage =>
      { workers with running := workers.running.set place ⟨worker.entry, stage⟩ }

/-- Takes the result of the first worker that is not joined yet. It has to wait until every worker was
started and this one is finished. -/
def join (workers : Workers) : Option Workers :=
  match workers.unstarted, workers.handles with
  | [], (entry, place) :: rest =>
    match workers.running[place]? with
    | some ⟨_, .finished result⟩ => some { workers with
        handles := rest
        joined := workers.joined ++ [⟨entry.name, result⟩] }
    | _ => none
  | _, _ => none

def move (host : Host) (workers : Workers) : Move → Option Workers
  | .start => workers.start
  | .work place => workers.work host place
  | .join => workers.join

/-- Makes the moves of a schedule, if each of them can be made. -/
def run (host : Host) (workers : Workers) : List Move → Option Workers
  | [] => some workers
  | first :: rest =>
    match workers.move host first with
    | none => none
    | some next => next.run host rest

def isDone (workers : Workers) : Bool := workers.unstarted.isEmpty && workers.handles.isEmpty

end Workers
end GrammarCheck
