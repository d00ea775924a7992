import Byteflow.Chunk

namespace Byteflow

inductive TrustLevel where
  | trusted | restricted | untrusted
deriving DecidableEq, Repr

def TrustLevel.allowsAuthorityConstants : TrustLevel → Bool
  | .trusted => true
  | .restricted | .untrusted => false

structure VerifyConfig where
  trust : TrustLevel
deriving DecidableEq, Repr

inductive ConstantKind where
  | capability | processId | message
deriving DecidableEq, Repr

inductive VerifyError where
  | constOutOfRange (at_ : Nat) (index : UInt32) (len : Nat)
  | functionOutOfRange (at_ : Nat) (index : UInt32) (len : Nat)
  | jumpOutOfRange (at_ : Nat) (target : Int) (len : Nat)
  | emptyFunctionTable
  | entryOutOfRange (function : Nat) (entry : UInt32) (len : Nat)
  | arityExceedsRegisters (function : Nat) (arity numRegisters : UInt8)
  | callArity (at_ : Nat) (function : UInt32) (argc arity : UInt8)
  | forbiddenConstant (index : Nat) (kind : ConstantKind)
  | fallThrough (function at_ nextEntry : Nat)
  | badImmediate (at_ : Nat) (what : String)
deriving DecidableEq, Repr

mutual
def rejectUntrustedConstant (index : Nat) : Value → Except VerifyError Unit
  | .cap _ => .error (.forbiddenConstant index .capability)
  | .pid _ => .error (.forbiddenConstant index .processId)
  | .message _ => .error (.forbiddenConstant index .message)
  | .list items => rejectUntrustedItems index items
  | .record fields => rejectUntrustedItems index fields
  | .map entries => rejectUntrustedEntries index entries
  | _ => .ok ()

def rejectUntrustedItems (index : Nat) : List Value → Except VerifyError Unit
  | [] => .ok ()
  | item :: rest => do
    rejectUntrustedConstant index item
    rejectUntrustedItems index rest

def rejectUntrustedEntries (index : Nat) : List (MapKey × Value) → Except VerifyError Unit
  | [] => .ok ()
  | entry :: rest => do
    rejectUntrustedEntry index entry
    rejectUntrustedEntries index rest

def rejectUntrustedEntry (index : Nat) : MapKey × Value → Except VerifyError Unit
  | (_, value) => rejectUntrustedConstant index value
end

def validateConstant (trust : TrustLevel) (index : Nat) (value : Value) : Except VerifyError Unit :=
  if trust.allowsAuthorityConstants then .ok ()
  else if !value.withinNestingLimit then .error (.forbiddenConstant index .capability)
  else rejectUntrustedConstant index value

def checkPack (at_ : Nat) (base : UInt8) (count : Int32) (width maxLen : Nat) : Except VerifyError Unit :=
  if ¬ (0 ≤ count.toInt ∧ count.toInt ≤ maxLen) then .error (.badImmediate at_ "pack length")
  else if count = 0 then .ok ()
  else if base.toNat + count.toInt.toNat * width > 255 then .error (.badImmediate at_ "pack window")
  else .ok ()

def groupLimit (functions : List FunctionDef) (entry : Nat) : UInt8 :=
  (((functions.filter (·.entry.toNat == entry)).map FunctionDef.numRegisters).min?).getD 0

def fillSlots (start stop : Nat) (limit : UInt8) (limits : List (Option UInt8)) : List (Option UInt8) :=
  limits.mapIdx fun i slot => if start ≤ i ∧ i < stop then some limit else slot

def fillLimits (chunk : Chunk) : List Nat → List (Option UInt8) → List (Option UInt8)
  | [], limits => limits
  | entry :: rest, limits =>
    fillLimits chunk rest
      (fillSlots entry (rest.headD chunk.code.length) (groupLimit chunk.functions entry) limits)

-- sort_unstable followed by dedup.
def sortedEntries (functions : List FunctionDef) : List Nat :=
  ((functions.map (·.entry.toNat)).insertionSort (· ≤ ·)).destutter (· ≠ ·)

def registerLimits (chunk : Chunk) : List (Option UInt8) :=
  fillLimits chunk (sortedEntries chunk.functions) (List.replicate chunk.code.length none)

def checkSlot (at_ : Nat) (reg limit : UInt8) (what : String) : Except VerifyError Unit :=
  if reg.toNat < limit.toNat then .ok () else .error (.badImmediate at_ what)

def checkWindow (at_ : Nat) (base : UInt8) (extra count : Nat) (limit : UInt8) : Except VerifyError Unit :=
  if count = 0 then .ok ()
  else if base.toNat + extra + count > limit.toNat then .error (.badImmediate at_ "register window")
  else .ok ()

def isTerminator : Opcode → Bool
  | .jump | .ret | .halt | .exit | .trap | .tailCall => true
  | _ => false

def nearerEnd (start stop : Nat) (fn : FunctionDef) : Nat :=
  if fn.entry.toNat > start ∧ fn.entry.toNat < stop then fn.entry.toNat else stop

def exclusiveEnd (functions : List FunctionDef) (start codeLen : Nat) : Nat :=
  functions.foldl (nearerEnd start) codeLen

def laterStart (at_ : Nat) (start : Option Nat) (fn : FunctionDef) : Option Nat :=
  if fn.entry.toNat ≤ at_ then
    match start with
    | some prev => if prev ≥ fn.entry.toNat then some prev else some fn.entry.toNat
    | none => some fn.entry.toNat
  else start

def spanStart (functions : List FunctionDef) (at_ : Nat) : Option Nat := functions.foldl (laterStart at_) none

def functionSpan (functions : List FunctionDef) (at_ codeLen : Nat) : Option (Nat × Nat) :=
  match spanStart functions at_ with
  | none => none
  | some start =>
    let stop := exclusiveEnd functions start codeLen
    if at_ ≥ stop then none else some (start, stop)

def checkFallthrough (chunk : Chunk) (function : Nat) (fn : FunctionDef) : Except VerifyError Unit :=
  let len := chunk.code.length
  let start := fn.entry.toNat
  let stop := exclusiveEnd chunk.functions start len
  if stop ≥ len ∨ stop ≤ start then .ok ()
  else match chunk.code[stop - 1]? with
    | some instr =>
      if isTerminator instr.op then .ok () else .error (.fallThrough function (stop - 1) stop)
    | none => .ok ()

def rejectFallthrough (chunk : Chunk) : Except VerifyError Unit :=
  chunk.functions.zipIdx.forM fun (fn, function) => checkFallthrough chunk function fn

def verifyFunction (chunk : Chunk) (function : Nat) (fn : FunctionDef) : Except VerifyError Unit :=
  if fn.entry.toNat ≥ chunk.code.length then .error (.entryOutOfRange function fn.entry chunk.code.length)
  else if fn.arity > fn.numRegisters then .error (.arityExceedsRegisters function fn.arity fn.numRegisters)
  else .ok ()

-- The checks that need the register file of the enclosing span are skipped
-- for an instruction outside every span.
def withLimit (limits : List (Option UInt8)) (at_ : Nat) (check : UInt8 → Except VerifyError Unit) :
    Except VerifyError Unit :=
  match (limits[at_]?).join with
  | some limit => check limit
  | none => .ok ()

def verifyCall (chunk : Chunk) (limits : List (Option UInt8)) (at_ : Nat) (instr : Instruction) :
    Except VerifyError Unit :=
  let idx := instr.imm.toUInt32
  match chunk.function idx with
  | none => .error (.functionOutOfRange at_ idx chunk.functions.length)
  | some fn =>
    if instr.b ≠ fn.arity then .error (.callArity at_ idx instr.b fn.arity)
    else withLimit limits at_ fun limit => do
      checkSlot at_ instr.a limit "destination register"
      checkWindow at_ instr.a (if instr.op = .spawn then 1 else 0) instr.b.toNat limit

def verifyStartChild (chunk : Chunk) (limits : List (Option UInt8)) (at_ : Nat) (instr : Instruction) :
    Except VerifyError Unit :=
  let idx := instr.imm.toUInt32
  match chunk.function idx with
  | none => .error (.functionOutOfRange at_ idx chunk.functions.length)
  | some fn =>
    if fn.arity ≠ 0 then .error (.callArity at_ idx 0 fn.arity)
    else if instr.b > 2 then .error (.badImmediate at_ "restart policy")
    else withLimit limits at_ fun limit => checkSlot at_ instr.a limit "destination register"

def verifyJump (chunk : Chunk) (at_ : Nat) (instr : Instruction) : Except VerifyError Unit :=
  let len := chunk.code.length
  let target : Int := at_ + 1 + instr.imm.toInt
  if target < 0 ∨ target.toNat > len then .error (.jumpOutOfRange at_ target len)
  else match functionSpan chunk.functions at_ len with
    | none => .ok ()
    | some (start, stop) =>
      if target.toNat ≠ len ∧ (target.toNat < start ∨ target.toNat ≥ stop) then
        .error (.jumpOutOfRange at_ target len)
      else .ok ()

def verifyInstruction (chunk : Chunk) (limits : List (Option UInt8)) (at_ : Nat) (instr : Instruction) :
    Except VerifyError Unit :=
  match instr.op with
  | .loadConst =>
    let idx := instr.imm.toUInt32
    if idx.toNat ≥ chunk.constants.length then .error (.constOutOfRange at_ idx chunk.constants.length)
    else .ok ()
  | .call | .tailCall | .spawn => verifyCall chunk limits at_ instr
  | .startChild => verifyStartChild chunk limits at_ instr
  | .callNative => withLimit limits at_ fun limit => checkWindow at_ instr.a 0 instr.b.toNat limit
  | .callNativeFrom => withLimit limits at_ fun limit => do
    checkSlot at_ instr.a limit "destination register"
    checkSlot at_ instr.b limit "source register"
  | .listPack => checkPack at_ instr.b instr.imm 1 MAX_LIST_LEN
  | .recordPack => checkPack at_ instr.b instr.imm 1 MAX_RECORD_LEN
  | .mapPack => checkPack at_ instr.b instr.imm 2 MAX_MAP_LEN
  | .receiveMatchKind =>
    if 0 ≤ instr.imm.toInt ∧ instr.imm.toInt ≤ 10 then .ok ()
    else .error (.badImmediate at_ "payload kind")
  | .receiveMatchCmp =>
    if (IntCmp.fromImm instr.imm).isNone then .error (.badImmediate at_ "compare immediate") else .ok ()
  | .receiveMatchImm | .receiveMatchCorrImm =>
    if ((u32TryFrom instr.imm).getD 0xFFFFFFFF).toNat ≤ 65535 then .ok ()
    else .error (.badImmediate at_ "tag immediate")
  | .setRestartPolicy =>
    if 0 ≤ instr.imm.toInt ∧ instr.imm.toInt ≤ 2 then .ok ()
    else .error (.badImmediate at_ "restart policy")
  | .askTimeout => withLimit limits at_ fun limit =>
    match u32TryFrom instr.imm with
    | some reg => if reg.toNat < limit.toNat then .ok () else .error (.badImmediate at_ "millis register")
    | none => .error (.badImmediate at_ "millis register")
  | .jump | .branch | .branchTrue => verifyJump chunk at_ instr
  | _ => .ok ()

def verifyWith (chunk : Chunk) (config : VerifyConfig) : Except VerifyError Unit := do
  if chunk.functions.isEmpty then throw .emptyFunctionTable
  chunk.constants.zipIdx.forM fun (value, index) => validateConstant config.trust index value
  chunk.functions.zipIdx.forM fun (fn, function) => verifyFunction chunk function fn
  let limits := registerLimits chunk
  chunk.code.zipIdx.forM fun (instr, at_) => verifyInstruction chunk limits at_ instr
  rejectFallthrough chunk

end Byteflow
