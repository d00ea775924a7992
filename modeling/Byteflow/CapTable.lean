import Byteflow.Cap

namespace Byteflow

abbrev FlowId := UInt64

-- Identity of a RevocationCell: a cell dropped from the table may still be
-- held by an operation in progress.
abbrev CellRef := Nat

-- born is not in the source: how often the target had been revoked when the
-- epoch was read that this entry derives from.
structure Capability where
  holder : FlowId
  cap : Cap
  born : Nat
deriving DecidableEq, Repr

inductive CapError where
  | unknown | notHolder | insufficientRights | wrongTarget | unavailable | tooNested | requestIdsExhausted
deriving DecidableEq, Repr

inductive CapIdError where
  | entropy | reservedZero
deriving DecidableEq, Repr

inductive MintError where
  | reservedCapId | entropyFailed | capIdCollision
deriving DecidableEq, Repr

def MINT_ATTEMPTS : Nat := 32

-- The draws of the OS random source are an argument of every minting step.
abbrev CapDraws := List (Except CapIdError CapId)

-- cells holds the epoch of every cell ever created. revocations is not in the
-- source: the flows revoke_flow was called for.
structure CapTable where
  entries : List (CapId × Capability)
  cells : List UInt64
  flowCells : List (FlowId × CellRef)
  tableCells : List (UInt64 × CellRef)
  replyIndex : List ((FlowId × FlowId) × CapId)
  nativeCell : CellRef
  schedulerCell : CellRef
  revocations : List FlowId

namespace CapTable

def new : CapTable := ⟨[], [0, 0], [], [], [], 0, 1, []⟩

def epoch (table : CapTable) (cell : CellRef) : UInt64 := table.cells.getD cell 0

def generation (table : CapTable) (flow : FlowId) : Nat := table.revocations.count flow

def bindFlow (table : CapTable) (flow : FlowId) : CapTable × CellRef :=
  match table.flowCells.lookup flow with
  | some cell => (table, cell)
  | none =>
    ({ table with cells := table.cells ++ [0], flowCells := (flow, table.cells.length) :: table.flowCells },
      table.cells.length)

def insertFresh (entries : List (CapId × Capability)) (entry : Capability) :
    CapDraws → Except MintError (CapId × List (CapId × Capability))
  | [] => .error .capIdCollision
  | .error .reservedZero :: _ => .error .reservedCapId
  | .error .entropy :: _ => .error .entropyFailed
  | .ok id :: rest =>
    if id = .NONE then .error .reservedCapId
    else if (entries.lookup id).isSome then insertFresh entries entry rest
    else .ok (id, (id, entry) :: entries)

def insert (table : CapTable) (entry : Capability) (draws : CapDraws) : CapTable × Except MintError CapId :=
  match insertFresh table.entries entry (draws.take MINT_ATTEMPTS) with
  | .error e => (table, .error e)
  | .ok (id, entries) => ({ table with entries := entries }, .ok id)

def cellOf (table : CapTable) : CapTarget → Option CellRef
  | .flow flow => table.flowCells.lookup flow
  | .nativeTable => some table.nativeCell
  | .scheduler => some table.schedulerCell
  | .table id => table.tableCells.lookup id

def isLive (table : CapTable) (cap : Cap) : Bool :=
  match table.cellOf cap.target with
  | some cell => cap.isValid (table.epoch cell)
  | none => false

def replyCapIsLive (table : CapTable) (id : CapId) (holder target : FlowId) (rights : CapRights) : Bool :=
  match table.entries.lookup id with
  | none => false
  | some entry =>
    entry.holder == holder && entry.cap.target == .flow target && entry.cap.rights.contains rights &&
      table.isLive entry.cap

def replyCap (table : CapTable) (holder target : FlowId) (rights : CapRights) : Option CapId :=
  match table.replyIndex.lookup (holder, target) with
  | some id => if table.replyCapIsLive id holder target rights then some id else none
  | none => none

-- The tail of mint_or_reuse, still under its lock.
def mintReply (table : CapTable) (holder target : FlowId) (rights : CapRights) (draws : CapDraws) :
    CapTable × Except MintError CapId :=
  let (bound, cell) := table.bindFlow target
  bound.insert ⟨holder, Cap.root (.flow target) rights none (bound.epoch cell), bound.generation target⟩ draws

def mintOrReuse (table : CapTable) (holder target : FlowId) (rights : CapRights) (draws : CapDraws) :
    CapTable × Except MintError CapId :=
  match table.replyCap holder target rights with
  | some id => (table, .ok id)
  | none =>
    let dropped := { table with replyIndex := table.replyIndex.filter (·.1 ≠ (holder, target)) }
    match dropped.mintReply holder target rights draws with
    | (failed, .error e) => (failed, .error e)
    | (inserted, .ok id) => ({ inserted with replyIndex := ((holder, target), id) :: inserted.replyIndex }, .ok id)

def lookup (table : CapTable) (id : CapId) : Option Capability :=
  if id = .NONE then none else table.entries.lookup id

def resolve (table : CapTable) (id : CapId) (holder : FlowId) (required : CapRights) : Except CapError Capability :=
  match table.lookup id with
  | none => .error .unknown
  | some entry =>
    if entry.holder ≠ holder then .error .notHolder
    else if entry.cap.rights.contains required = false then .error .insufficientRights
    else if table.isLive entry.cap = false then .error .unknown
    else .ok entry

def bindTable (table : CapTable) (id : UInt64) : CapTable :=
  { table with cells := table.cells ++ [0], tableCells := (id, table.cells.length) :: table.tableCells.filter (·.1 ≠ id) }

def revokeCell (table : CapTable) (cell : Option CellRef) : CapTable :=
  match cell with
  | some cell => { table with cells := table.cells.modify cell (· + 1) }
  | none => table

def revokeTable (table : CapTable) (id : UInt64) : CapTable :=
  let revoked := table.revokeCell (table.tableCells.lookup id)
  { revoked with
    tableCells := table.tableCells.filter (·.1 ≠ id)
    entries := table.entries.filter (·.2.cap.target ≠ .table id) }

def revokeFlow (table : CapTable) (flow : FlowId) : CapTable :=
  let revoked := table.revokeCell (table.flowCells.lookup flow)
  { revoked with
    flowCells := table.flowCells.filter (·.1 ≠ flow)
    entries := table.entries.filter fun row => row.2.holder ≠ flow ∧ row.2.cap.target ≠ .flow flow
    replyIndex := table.replyIndex.filter fun row => row.1.1 ≠ flow ∧ row.1.2 ≠ flow
    revocations := flow :: table.revocations }

theorem insert_fresh_ok {entries after : List (CapId × Capability)} {entry : Capability} {draws : CapDraws} {id : CapId}
    (inserted : insertFresh entries entry draws = .ok (id, after)) :
    after = (id, entry) :: entries ∧ entries.lookup id = none ∧ id ≠ .NONE ∧ .ok id ∈ draws := by
  induction draws with
  | nil => cases inserted
  | cons draw rest ih =>
    rcases draw with failure | drawn
    · cases failure <;> cases inserted
    · rw [insertFresh] at inserted
      split at inserted
      · cases inserted
      rename_i reserved
      by_cases taken : (entries.lookup drawn).isSome = true
      · rw [if_pos taken] at inserted
        obtain ⟨rows, free, some_, drawn⟩ := ih inserted
        exact ⟨rows, free, some_, List.mem_cons_of_mem _ drawn⟩
      · rw [if_neg taken] at inserted
        cases inserted
        exact ⟨rfl, Option.not_isSome_iff_eq_none.mp taken, reserved, List.mem_cons_self⟩

theorem resolve_ok_iff {table : CapTable} (id : CapId) (holder : FlowId) (required : CapRights) (entry : Capability) :
    table.resolve id holder required = .ok entry ↔ table.lookup id = some entry ∧ entry.holder = holder ∧
      entry.cap.rights.contains required = true ∧ table.isLive entry.cap = true := by
  rw [resolve]
  cases found : table.lookup id with
  | none => simp
  | some listed =>
    dsimp only
    by_cases other : listed.holder ≠ holder
    · rw [if_pos other]
      refine ⟨nofun, ?_⟩
      rintro ⟨same, isHolder, _⟩
      cases same
      exact absurd isHolder other
    · rw [if_neg other]
      by_cases lacks : listed.cap.rights.contains required = false
      · rw [if_pos lacks]
        refine ⟨nofun, ?_⟩
        rintro ⟨same, _, contains, _⟩
        cases same
        rw [lacks] at contains
        cases contains
      · rw [if_neg lacks]
        by_cases dead : table.isLive listed.cap = false
        · rw [if_pos dead]
          refine ⟨nofun, ?_⟩
          rintro ⟨same, _, _, live⟩
          cases same
          rw [dead] at live
          cases live
        · rw [if_neg dead]
          constructor
          · intro same
            cases same
            exact ⟨rfl, not_not.mp other, (Bool.not_eq_false _).mp lacks, (Bool.not_eq_false _).mp dead⟩
          · rintro ⟨same, _⟩
            cases same
            rfl

end CapTable

inductive DelegateError where
  | sourceRevoked | sourceLacksNative
deriving DecidableEq, Repr

def execDelegate (src : Cap) (srcCell : UInt64) (wantRights : CapRights) (wantNative : Option NativeMask) :
    Except DelegateError Cap :=
  if src.isValid srcCell = false then .error .sourceRevoked
  else if wantNative.isSome ∧ src.rights.contains .NATIVE = false then .error .sourceLacksNative
  else .ok (src.attenuate wantRights wantNative)

def CapError.ofDelegate : DelegateError → CapError
  | .sourceRevoked => .unknown
  | .sourceLacksNative => .insufficientRights

end Byteflow
