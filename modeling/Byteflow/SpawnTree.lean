import Byteflow.Spawn
import Byteflow.Transition

namespace Byteflow

-- The record of one started flow: the authority it was given, and that of the
-- flow whose bytecode asked for it (none when the host did). A restart is
-- recorded under the flow that asked for the child.
structure Start where
  starter : Option Cap
  authority : Cap

structure SpawnSystem where
  flows : List FlowRecord
  supervisors : List Supervisor
  starts : List Start

inductive SpawnEvent where
  | hostSpawn (chunk : Chunk) (function : UInt32) (args : List Value) (policy : Option RootAuthorityPolicy)
      (restart : RestartPolicy) (env : SpawnEnv)
  | hostSupervisor (chunk : Chunk) (strategy : RestartStrategy) (maxRestarts maxPeriod : Nat)
  | hostStartChild (index : Nat) (name : String) (function : UInt32) (args : List Value) (restart : RestartPolicy)
      (env : SpawnEnv) (nameFree : Bool)
  | spawn (flow : FlowId) (function : UInt32) (args : List Value) (rights : CapRights) (rateOk : Bool) (env : SpawnEnv)
  | startSupervisor (flow : FlowId) (strategy : UInt8)
  | startChild (flow : FlowId) (function : UInt32) (policy : UInt8) (env : SpawnEnv)
  | setRestartPolicy (flow : FlowId) (policy : RestartPolicy)
  | revoke (flow : FlowId)
  | finalize (flow : FlowId) (outcome : FlowOutcome)
  | takeExit (index now : Nat)
  | prune (index : Nat) (directory : List FlowId)
  | respawn (index : Nat) (env : SpawnEnv) (nameFree : Bool)

namespace SpawnSystem

def initial : SpawnSystem := ⟨[], [], []⟩

def find (sys : SpawnSystem) (id : FlowId) : Option FlowRecord := sys.flows.find? (·.id = id)

def update (sys : SpawnSystem) (id : FlowId) (change : FlowRecord → FlowRecord) : SpawnSystem :=
  { sys with flows := sys.flows.map fun flow => if flow.id = id then change flow else flow }

def setSupervisor (sys : SpawnSystem) (index : Nat) (sup : Supervisor) : SpawnSystem :=
  { sys with supervisors := sys.supervisors.set index sup }

def addFlow (sys : SpawnSystem) (starter : Option Cap) (flow : FlowRecord) : SpawnSystem :=
  { sys with flows := flow :: sys.flows, starts := ⟨starter, flow.authority⟩ :: sys.starts }

-- The end of finalize_flow: the flow is gone and its supervisor is told.
def finalizeFlow (sys : SpawnSystem) (flow : FlowRecord) (outcome : FlowOutcome) : SpawnSystem :=
  let rest := { sys with flows := sys.flows.filter (·.id ≠ flow.id) }
  match flow.supervisor with
  | none => rest
  | some index =>
    match sys.supervisors[index]? with
    | none => rest
    | some sup => rest.setSupervisor index (sup.notify ⟨flow.id, outcome, flow.restartPolicy⟩)

def finishFailed (sys : SpawnSystem) (flow : FlowRecord) (message : String) : SpawnSystem :=
  sys.finalizeFlow flow (.failed message)

-- A child whose name is taken stays in the table, marked for the shutdown it
-- has been asked for.
def spawnChild (config : SpawnConfig) (sys : SpawnSystem) (index : Nat) (sup : Supervisor) (spec : ChildSpec)
    (env : SpawnEnv) (nameFree : Bool) : SpawnSystem × Option SpawnError :=
  match spawnOn config sup.chunk spec.function spec.args spec.restart (some index) none none env with
  | .error e => (sys.setSupervisor index sup, some e)
  | .ok flow =>
    let refused := spec.name ≠ "" && !nameFree
    let sup := { sup with children := sup.children.insert flow.id ⟨spec, refused⟩ }
    ((sys.addFlow spec.starter flow).setSupervisor index sup, if refused then some (.nameTaken spec.name) else none)

def linkFor (flow : FlowRecord) : Option Nat :=
  match flow.localSupervisor with
  | some index => some index
  | none => flow.supervisor

def startSupervisor (sys : SpawnSystem) (flow : FlowRecord) (strategy : UInt8) : SpawnSystem :=
  if flow.authority.rights.contains .SPAWN = false then
    sys.finishFailed flow "start_supervisor denied: flow lacks SPAWN right"
  else if flow.localSupervisor.isSome then sys.finishFailed flow "start_supervisor: this flow already started one"
  else match strategyFromU8 strategy with
    | none => sys.finishFailed flow "start_supervisor: strategy must be 0..=2"
    | some strategy =>
      let sup := Supervisor.withConfig flow.chunk strategy DEFAULT_MAX_RESTARTS DEFAULT_MAX_PERIOD
      let index := sys.supervisors.length
      { sys with supervisors := sys.supervisors ++ [sup] }.update flow.id
        fun flow => { flow with localSupervisor := some index }

def startChild (config : SpawnConfig) (sys : SpawnSystem) (flow : FlowRecord) (function : UInt32) (policy : UInt8)
    (env : SpawnEnv) : SpawnSystem :=
  match RestartPolicy.fromU8 policy with
  | none => sys.finishFailed flow "start_child: bad restart policy"
  | some policy =>
    match flow.chunk.function function with
    | none => sys.finishFailed flow s!"start_child: function {function} is not in the chunk"
    | some fn =>
      if fn.arity ≠ 0 then
        sys.finishFailed flow
          s!"start_child: function {function} has arity {fn.arity}, the opcode passes none"
      else match linkFor flow with
        | none => sys.finishFailed flow "start_child: flow was not started by a supervisor"
        | some index =>
          match sys.supervisors[index]? with
          | none => sys
          | some sup =>
            match spawnChild config sys index sup ⟨"", function, [], policy, some flow.authority⟩ env true with
            | (started, none) => started
            | (unchanged, some e) => unchanged.finishFailed flow e.display

-- The drive thread between two respawns of a wave.
def respawn (config : SpawnConfig) (sys : SpawnSystem) (index : Nat) (sup : Supervisor) (env : SpawnEnv)
    (nameFree : Bool) : Option SpawnSystem :=
  match sup.phase with
  | .respawnOne spec => some (spawnChild config sys index { sup with phase := .idle } spec env nameFree).1
  | .respawnWave [] => some (sys.setSupervisor index { sup with phase := .idle })
  | .respawnWave (spec :: rest) =>
    if sup.intensityExceeded then some (sys.setSupervisor index { sup with phase := .idle })
    else some (spawnChild config sys index { sup with phase := .respawnWave rest } spec env nameFree).1
  | _ => none

def next (config : SpawnConfig) (sys : SpawnSystem) : SpawnEvent → Option SpawnSystem
  | .hostSpawn chunk function args policy restart env =>
    match spawnOn config chunk function args restart none none policy env with
    | .error _ => some sys
    | .ok flow => some (sys.addFlow none flow)
  | .hostSupervisor chunk strategy maxRestarts maxPeriod =>
    some { sys with supervisors := sys.supervisors ++ [.withConfig chunk strategy maxRestarts maxPeriod] }
  | .hostStartChild index name function args restart env nameFree =>
    match sys.supervisors[index]? with
    | none => none
    | some sup => some (spawnChild config sys index sup ⟨name, function, args, restart, none⟩ env nameFree).1
  | .spawn id function args rights rateOk env =>
    match sys.find id with
    | none => none
    | some parent =>
      match spawnOn config parent.chunk function args parent.restartPolicy none
          (some ⟨parent.authority, parent.cell, rateOk, rights⟩) none env with
      | .error e => some (sys.finishFailed parent e.display)
      | .ok child => some (sys.addFlow (some parent.authority) child)
  | .startSupervisor id strategy => (sys.find id).map fun flow => sys.startSupervisor flow strategy
  | .startChild id function policy env => (sys.find id).map fun flow => startChild config sys flow function policy env
  | .setRestartPolicy id policy => some (sys.update id fun flow => { flow with restartPolicy := policy })
  | .revoke id => some (sys.update id fun flow => { flow with cell := flow.cell + 1 })
  | .finalize id outcome => (sys.find id).map fun flow => sys.finalizeFlow flow outcome
  | .takeExit index now =>
    match sys.supervisors[index]? with
    | none => none
    | some sup =>
      match sup.phase, sup.events with
      | .idle, exit :: rest => some (sys.setSupervisor index ({ sup with events := rest }.handleExit exit now))
      | _, _ => none
  | .prune index directory =>
    match sys.supervisors[index]? with
    | none => none
    | some sup =>
      match sup.phase with
      | .pruning => some (sys.setSupervisor index (sup.pruneCascade (· ∈ directory)))
      | _ => none
  | .respawn index env nameFree =>
    match sys.supervisors[index]? with
    | none => none
    | some sup => respawn config sys index sup env nameFree

end SpawnSystem

end Byteflow
