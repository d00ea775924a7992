import Byteflow.Supervisor

namespace Byteflow

inductive RootAuthorityPolicy where
  | trustedHost | restricted | untrusted
deriving DecidableEq, Repr

def RootAuthorityPolicy.mint (policy : RootAuthorityPolicy) (flow : FlowId) (nativesLen : Nat) (cell : UInt64) : Cap :=
  match policy with
  | .trustedHost => Cap.root (.flow flow) .ROOT (some (.full nativesLen)) cell
  | .restricted =>
    Cap.root (.flow flow) (.fromBits (CapRights.FLOW.bits &&& ~~~CapRights.NATIVE.bits)) (some (.empty nativesLen)) cell
  | .untrusted => Cap.root (.flow flow) .NONE (some (.empty nativesLen)) cell

inductive ConfinedSpawnError where
  | rateLimited | sourceCapRevoked | missingSpawnRight
deriving DecidableEq, Repr

inductive SpawnError where
  | badFunction (index tableSize : UInt32)
  | invalidCapability | unavailable | flowIdExhausted | requestIdsExhausted
  | flowLimit (current : Nat) (max : UInt32)
  | spawnRateExceeded | parentCapRevoked | missingSpawnRight
  | nameTaken (name : String)
  | vmInit (message : String)
deriving DecidableEq, Repr

def SpawnError.display : SpawnError → String
  | .badFunction index tableSize => s!"spawn: function index {index} out of range (table size {tableSize})"
  | .invalidCapability => "spawn: argument capability is unknown or not held"
  | .unavailable => "spawn: runtime table unavailable"
  | .flowIdExhausted => "spawn: flow id space exhausted (counter wrapped)"
  | .requestIdsExhausted => "spawn: host request ids exhausted"
  | .flowLimit current max => s!"spawn: live flow limit reached ({current}/{max})"
  | .spawnRateExceeded => "spawn: spawn rate exceeded"
  | .parentCapRevoked => "spawn: parent capability revoked"
  | .missingSpawnRight => "spawn: parent lacks SPAWN right"
  | .nameTaken name => s!"spawn: registry name {name.quote} already taken"
  | .vmInit message => s!"vm init failed: {message}"

def SpawnError.ofConfined : ConfinedSpawnError → SpawnError
  | .rateLimited => .spawnRateExceeded
  | .sourceCapRevoked => .parentCapRevoked
  | .missingSpawnRight => .missingSpawnRight

-- rateOk is the answer of the parent quota's check_spawn; a cell is passed as
-- the epoch it shows.
def execSpawnAuthority (parentCap : Cap) (parentCell : UInt64) (rateOk : Bool) (newChildId : FlowId)
    (requestedRights : CapRights) (requestedNative : Option NativeMask) (childCell : UInt64) :
    Except ConfinedSpawnError Cap :=
  if parentCap.isValid parentCell = false then .error .sourceCapRevoked
  else if parentCap.rights.contains .SPAWN = false then .error .missingSpawnRight
  else if rateOk = false then .error .rateLimited
  else
    let attenuated := parentCap.attenuate requestedRights requestedNative
    .ok (Cap.root (.flow newChildId) attenuated.rights attenuated.nativeMask childCell)

structure BytecodeSpawn where
  authority : Cap
  cell : UInt64
  rateOk : Bool
  requestedRights : CapRights

-- supervisor and localSupervisor index the supervisors of the system.
structure FlowRecord where
  id : FlowId
  chunk : Chunk
  restartPolicy : RestartPolicy
  supervisor : Option Nat
  localSupervisor : Option Nat
  authority : Cap
  cell : UInt64

-- What the rest of the runtime answers to one spawn: the new id, and whether
-- the live-flow limit, the id counter or the capability table refuse it
-- (before the authority is computed), or the argument grants, the VM, the
-- quota or the directory (after it).
structure SpawnEnv where
  id : FlowId
  refused : Option SpawnError
  refusedLater : Option SpawnError

def checkBytecodeArity (chunk : Chunk) (function : UInt32) (args : List Value) : Except SpawnError Unit :=
  match chunk.function function with
  | none => .error (.badFunction function (UInt32.ofNat chunk.functions.length))
  | some fn => if args.length ≠ fn.arity.toNat then .error (.vmInit s!"call passed {args.length} arguments, callee arity is {fn.arity}") else .ok ()

structure SpawnConfig where
  rootAuthority : RootAuthorityPolicy
  nativesLen : Nat
deriving DecidableEq, Repr

-- A fresh id is bound to a new revocation cell, whose epoch is 0.
def spawnAuthority (config : SpawnConfig) (id : FlowId) (bytecode : Option BytecodeSpawn)
    (hostAuthority : Option RootAuthorityPolicy) : Except SpawnError Cap :=
  match bytecode with
  | none => .ok ((hostAuthority.getD config.rootAuthority).mint id config.nativesLen 0)
  | some ctx =>
    match execSpawnAuthority ctx.authority ctx.cell ctx.rateOk id ctx.requestedRights none 0 with
    | .ok cap => .ok cap
    | .error e => .error (.ofConfined e)

def refusal : Option SpawnError → Except SpawnError Unit
  | some e => .error e
  | none => .ok ()

def spawnOn (config : SpawnConfig) (chunk : Chunk) (function : UInt32) (args : List Value)
    (restartPolicy : RestartPolicy) (supervisor : Option Nat) (bytecode : Option BytecodeSpawn)
    (hostAuthority : Option RootAuthorityPolicy) (env : SpawnEnv) : Except SpawnError FlowRecord := do
  (if bytecode.isSome then checkBytecodeArity chunk function args else .ok ())
  refusal env.refused
  let authority ← spawnAuthority config env.id bytecode hostAuthority
  refusal env.refusedLater
  .ok ⟨env.id, chunk, restartPolicy, supervisor, none, authority, 0⟩

end Byteflow
