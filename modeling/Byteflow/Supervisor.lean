import Byteflow.CapTable
import Byteflow.Chunk

namespace Byteflow

inductive RestartStrategy where
  | oneForOne | oneForAll | restForOne
deriving DecidableEq, Repr

def strategyFromU8 (byte : UInt8) : Option RestartStrategy :=
  if byte = 0 then some .oneForOne else if byte = 1 then some .oneForAll
  else if byte = 2 then some .restForOne else none

inductive FlowOutcome where
  | completed (value : Value)
  | failed (message : String)

-- starter is not in the source: the authority of the flow whose StartChild
-- asked for the child, none for a child the host asked for.
structure ChildSpec where
  name : String
  function : UInt32
  args : List Value
  restart : RestartPolicy
  starter : Option Cap

structure ChildExit where
  id : FlowId
  outcome : FlowOutcome
  restart : RestartPolicy

structure LiveChild where
  spec : ChildSpec
  expectedShutdown : Bool

-- byId has one row per child; order is the start order.
structure ChildTable where
  byId : List (FlowId × LiveChild)
  order : List FlowId

namespace ChildTable

def new : ChildTable := ⟨[], []⟩

def find (table : ChildTable) (id : FlowId) : Option LiveChild := table.byId.lookup id

def insert (table : ChildTable) (id : FlowId) (child : LiveChild) : ChildTable :=
  ⟨(id, child) :: table.byId.filter (·.1 ≠ id), table.order ++ [id]⟩

def remove (table : ChildTable) (id : FlowId) : ChildTable :=
  ⟨table.byId.filter (·.1 ≠ id), table.order.filter (· ≠ id)⟩

def expectShutdown (table : ChildTable) (ids : List FlowId) : ChildTable :=
  { table with byId := table.byId.map fun (id, child) =>
      (id, if id ∈ ids then { child with expectedShutdown := true } else child) }

def specs (table : ChildTable) : List ChildSpec := table.byId.map (·.2.spec)

end ChildTable

structure Cascade where
  waiting : List FlowId
  specs : List ChildSpec

-- What the drive thread is doing: waiting for an exit, about to look which
-- victims of a wave have left the directory, or respawning. A wave stops when
-- intensity has been exceeded, a single respawn does not ask.
inductive DrivePhase where
  | idle
  | pruning
  | respawnOne (spec : ChildSpec)
  | respawnWave (specs : List ChildSpec)

-- The spawner's chunk stands for the RuntimeSpawner; times are milliseconds.
structure Supervisor where
  chunk : Chunk
  strategy : RestartStrategy
  maxRestarts : Nat
  maxPeriod : Nat
  events : List ChildExit
  children : ChildTable
  cascade : Option Cascade
  restartTimes : List Nat
  intensityExceeded : Bool
  phase : DrivePhase

def DEFAULT_MAX_RESTARTS : Nat := 3
def DEFAULT_MAX_PERIOD : Nat := 5000

namespace Supervisor

def withConfig (chunk : Chunk) (strategy : RestartStrategy) (maxRestarts maxPeriod : Nat) : Supervisor :=
  ⟨chunk, strategy, maxRestarts, maxPeriod, [], .new, none, [], false, .idle⟩

def notify (sup : Supervisor) (exit : ChildExit) : Supervisor := { sup with events := sup.events ++ [exit] }

def shouldRestart : RestartPolicy → FlowOutcome → Bool
  | .always, _ => true
  | .onFailure, .failed _ => true
  | .onFailure, .completed _ => false
  | .never, _ => false

def pruneRestartWindow (times : List Nat) (now period : Nat) : List Nat :=
  if period ≤ now then times.dropWhile (· < now - period) else times

-- The length is cast to u32, the type of max_restarts.
def intensityHit (sup : Supervisor) (now : Nat) : Bool × Supervisor :=
  let times := pruneRestartWindow (sup.restartTimes ++ [now]) now sup.maxPeriod
  if times.length % 2 ^ 32 > sup.maxRestarts then (true, { sup with restartTimes := times, intensityExceeded := true })
  else (false, { sup with restartTimes := times })

def waveSpecs (sup : Supervisor) (failed : ChildSpec) (failedIdx : Nat) (later : List FlowId) :
    Option (List ChildSpec) :=
  let laterSpecs := later.filterMap fun id => (sup.children.find id).map (·.spec)
  match sup.strategy with
  | .oneForAll => if failedIdx > laterSpecs.length then none else some (laterSpecs.insertIdx failedIdx failed)
  | .restForOne => some (failed :: laterSpecs)
  | .oneForOne => some [failed]

def startCascade (sup : Supervisor) (failed : ChildSpec) (failedIdx : Nat) (later : List FlowId) : Supervisor :=
  let marked := { sup with children := sup.children.expectShutdown later }
  match waveSpecs sup failed failedIdx later with
  | none => marked
  | some specs => { marked with cascade := some ⟨later, specs⟩, phase := .pruning }

def finishCascade (sup : Supervisor) : Supervisor :=
  match sup.cascade with
  | none => { sup with phase := .idle }
  | some cascade => { sup with cascade := none, phase := .respawnWave cascade.specs }

def onCascadeProgress (sup : Supervisor) (id : FlowId) : Supervisor :=
  match sup.cascade with
  | none => sup
  | some cascade =>
    let waiting := cascade.waiting.filter (· ≠ id)
    let next := { sup with cascade := some { cascade with waiting := waiting } }
    if waiting.isEmpty then next.finishCascade else next

-- The part of start_cascade after the kills: alive says who is still in the directory.
def pruneCascade (sup : Supervisor) (alive : FlowId → Bool) : Supervisor :=
  match sup.cascade with
  | none => sup.finishCascade
  | some cascade =>
    let next := { sup with cascade := some { cascade with waiting := cascade.waiting.filter alive }, phase := .idle }
    if (cascade.waiting.filter alive).isEmpty ∨ cascade.waiting.isEmpty then next.finishCascade else next

def handleExit (sup : Supervisor) (exit : ChildExit) (now : Nat) : Supervisor :=
  let failedIdx := sup.children.order.idxOf? exit.id
  let children := sup.children.remove exit.id
  let removed := { sup with children := children }
  match sup.children.find exit.id with
  | none => removed
  | some live =>
    let later := match sup.strategy, failedIdx with
      | .oneForAll, _ => children.order
      | .restForOne, some i => children.order.drop i
      | _, _ => []
    if live.expectedShutdown then removed.onCascadeProgress exit.id
    else if shouldRestart exit.restart exit.outcome = false then removed
    else if removed.intensityExceeded then removed
    else
      let (hit, counted) := removed.intensityHit now
      if hit then counted
      else if counted.cascade.isSome then counted
      else match counted.strategy, failedIdx with
        | .oneForOne, _ => { counted with phase := .respawnOne live.spec }
        | _, none => counted
        | _, some failedIdx => counted.startCascade live.spec failedIdx later

end Supervisor

end Byteflow
