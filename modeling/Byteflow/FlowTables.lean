import Byteflow.CapDerive
import Byteflow.Machine

namespace Byteflow

open List Transition Exec

namespace TableLimits

def MAX_ROWS : Nat := 256
def MAX_BYTES : Nat := 64 * 1024
def MAX_NAME : Nat := 256

end TableLimits

open TableLimits

structure OwnedTable where
  owner : FlowId
  rows : List (MapKey × Value)
  bytes : Nat

-- The three hash maps; the order of their rows is not observed.
structure FlowTables where
  byOwner : List (FlowId × UInt64)
  tables : List (UInt64 × OwnedTable)
  global : List (String × UInt64)
  nextId : UInt64

def FlowTables.new : FlowTables := ⟨[], [], [], 1⟩

-- The parts of Shared that the tables use. dropped is not in the source: the
-- recorded bytes of the tables that unregister_global removed.
structure TableHost where
  tables : FlowTables
  caps : CapTable
  memory : MemoryBudget
  quotas : FlowId → Option FlowQuota
  dropped : Nat

def CapError.text : CapError → String
  | .unknown => "unknown or revoked capability"
  | .notHolder => "calling flow does not hold this capability"
  | .insufficientRights => "capability lacks required rights"
  | .wrongTarget => "capability target is not a flow"
  | .unavailable => "capability table unavailable (poisoned lock)"
  | .tooNested => "value nesting exceeds limit"
  | .requestIdsExhausted => "host request ids exhausted"

def MintError.text : MintError → String
  | .reservedCapId => "capability id draw was the reserved zero"
  | .entropyFailed => "capability CSPRNG unavailable"
  | .capIdCollision => "could not allocate a unique capability id"

def Fault.chargeText : Fault → String
  | .quotaExceeded text => text
  | _ => "memory"

mutual
def valueAllowed (depth : Nat) (value : Value) : Bool :=
  if depth > MAX_VALUE_DEPTH then false
  else match value with
    | .cap _ | .pid _ | .message _ => false
    | .list items => itemsAllowed (depth + 1) items
    | .record fields => itemsAllowed (depth + 1) fields
    | .map entries => entriesAllowed (depth + 1) entries
    | .unit | .bool _ | .int _ | .float _ | .str _ | .bytes _ => true

def itemsAllowed (depth : Nat) : List Value → Bool
  | [] => true
  | item :: rest => valueAllowed depth item && itemsAllowed depth rest

def entriesAllowed (depth : Nat) : List (MapKey × Value) → Bool
  | [] => true
  | entry :: rest => entryAllowed depth entry && entriesAllowed depth rest

def entryAllowed (depth : Nat) : MapKey × Value → Bool
  | (_, item) => valueAllowed depth item
end

namespace FlowTables

abbrev TableM := Exec TableHost String

def failWith {α : Type} : Except String α → TableM α
  | .ok a => pure a
  | .error e => throw e

variable (layout : Layout)

def mapKey : Value → Except String MapKey
  | .int n => .ok (.int n)
  | .str text => .ok (.str text)
  | other => .error s!"table key must be int or str, got {other.typeName}"

def keyBytes : MapKey → Nat
  | .int _ => 0
  | .str text => text.utf8ByteSize

def rowBytes (key : MapKey) (value : Value) : Except String Nat :=
  let heap := (value.heapSizeLimited layout).getD layout.usizeMax
  if heap = layout.usizeMax then .error "table value is too nested"
  else
    match layout.checkedAdd (keyBytes key) heap with
    | some sum => .ok sum
    | none => .error "table row does not fit"

def nameFits (name : String) : Bool := name.utf8ByteSize ≠ 0 && name.utf8ByteSize ≤ MAX_NAME

-- The id handed out and the counter after it; 0 is the pinned counter.
def allocateId (nextId : UInt64) : Option (UInt64 × UInt64) :=
  if nextId = 0 then none else some (nextId, nextId + 1)

def tableId (holder : FlowId) (cap : CapId) (need : CapRights) : TableM UInt64 := do
  let host ← get
  match host.caps.resolve cap holder need with
  | .error e => throw e.text
  | .ok entry =>
    match entry.cap.target with
    | .table id => pure id
    | _ => throw "capability does not address a table"

def releaseAccount (owner : FlowId) (bytes : Nat) : TableM Unit :=
  if bytes = 0 then pure ()
  else modify fun host =>
    { host with
      memory := host.memory.release bytes
      quotas := Function.update host.quotas owner ((host.quotas owner).map (·.free bytes)) }

def account (owner : FlowId) (old new : Nat) : TableM Unit := do
  if new > old then
    let host ← get
    match host.memory.tryCharge layout (new - old) with
    | .error e => throw e.chargeText
    | .ok charged =>
      match host.quotas owner with
      | none => set { host with memory := charged }
      | some quota =>
        match quota.alloc layout (new - old) with
        | .ok grown => set { host with memory := charged, quotas := Function.update host.quotas owner (some grown) }
        | .error e => do
          set { host with memory := charged.release (new - old) }
          throw e.chargeText
  else if old > new then releaseAccount owner (old - new)
  else pure ()

def grantTable (holder : FlowId) (id : UInt64) (epoch : UInt64) (draws : CapDraws) : TableM (Except MintError CapId) := do
  let host ← get
  let rights : CapRights := ⟨CapRights.SEND.bits ||| CapRights.RECV.bits⟩
  let (caps, granted) := host.caps.grant ⟨holder, Cap.root (.table id) rights none epoch, 0⟩ draws
  set { host with caps := caps }
  pure granted

def openGlobal (holder : FlowId) (id : UInt64) (draws : CapDraws) : TableM CapId := do
  let host ← get
  match host.caps.tableCells.lookup id with
  | none => throw "table is closed"
  | some cell =>
    match (← grantTable holder id (host.caps.epoch cell) draws) with
    | .ok cap => pure cap
    | .error e => throw e.text

def openTable (owner : FlowId) (name : String) (draws : CapDraws) : TableM CapId := do
  if nameFits name = false then throw "table name must be 1..=256 bytes"
  else
    let host ← get
    match host.tables.global.lookup name with
    | some id => openGlobal owner id draws
    | none =>
      if (host.tables.byOwner.lookup owner).isSome then throw "flow already owns a table"
      else
        match allocateId host.tables.nextId with
        | none => throw "table ids exhausted"
        | some (id, nextId) => do
          set { host with caps := host.caps.bindTable id, tables := { host.tables with nextId := nextId } }
          match (← grantTable owner id 0 draws) with
          | .error e => do
            modify fun host => { host with caps := host.caps.revokeTable id }
            throw e.text
          | .ok cap => do
            modify fun host =>
              { host with
                tables := { host.tables with
                  byOwner := Assoc.insert owner id host.tables.byOwner
                  tables := Assoc.insert id ⟨owner, [], 0⟩ host.tables.tables } }
            pure cap

def registerGlobal (name : String) : TableM Unit := do
  if nameFits name = false then throw "table name must be 1..=256 bytes"
  else
    let host ← get
    if (host.tables.global.lookup name).isSome then throw "global table name already registered"
    else
      match allocateId host.tables.nextId with
      | none => throw "table ids exhausted"
      | some (id, nextId) =>
        set { host with
          caps := host.caps.bindTable id
          tables := { host.tables with
            nextId := nextId
            tables := Assoc.insert id ⟨0, [], 0⟩ host.tables.tables
            global := Assoc.insert name id host.tables.global } }

def bytesAt (id : UInt64) (tables : List (UInt64 × OwnedTable)) : Nat := ((tables.lookup id).map OwnedTable.bytes).getD 0

def unregisterGlobal (name : String) : TableM Unit := do
  let host ← get
  match host.tables.global.lookup name with
  | none => throw "no global table with that name"
  | some id =>
    set { host with
      caps := host.caps.revokeTable id
      tables := { host.tables with
        global := Assoc.remove name host.tables.global
        tables := Assoc.remove id host.tables.tables }
      dropped := host.dropped + bytesAt id host.tables.tables }

def getRow (holder : FlowId) (cap : CapId) (key : Value) : TableM Value := do
  let id ← tableId holder cap .RECV
  let key ← failWith (mapKey key)
  let host ← get
  match host.tables.tables.lookup id with
  | none => throw "table is closed"
  | some table => pure ((table.rows.lookup key).getD .unit)

def replacedBytes (table : OwnedTable) (key : MapKey) : Except String Nat :=
  match table.rows.lookup key with
  | some stored => rowBytes layout key stored
  | none => .ok 0

def putPlan (table : OwnedTable) (key : MapKey) (add : Nat) : Except String (Nat × Nat) := do
  let old ← replacedBytes layout table key
  if (table.rows.lookup key).isNone && table.rows.length ≥ MAX_ROWS then .error "table row limit"
  else if table.bytes < old then .error "table byte accounting diverged"
  else
    match layout.checkedAdd (table.bytes - old) add with
    | none => .error "table byte limit"
    | some next => if next > MAX_BYTES then .error "table byte limit" else .ok (old, next)

def storeRow (key : MapKey) (value : Value) : List (MapKey × Value) → List (MapKey × Value)
  | [] => [(key, value)]
  | row :: rest => if row.1 = key then (row.1, value) :: rest else row :: storeRow key value rest

-- The lock is held throughout, so the table is still there after account.
def put (holder : FlowId) (cap : CapId) (key value : Value) : TableM Unit := do
  let id ← tableId holder cap .SEND
  let key ← failWith (mapKey key)
  if valueAllowed 0 value = false then throw "table values cannot hold cap, pid, or message"
  else
    let add ← failWith (rowBytes layout key value)
    let host ← get
    match host.tables.tables.lookup id with
    | none => throw "table is closed"
    | some table => do
      let plan ← failWith (putPlan layout table key add)
      account layout table.owner plan.1 add
      modify fun host =>
        { host with
          tables := { host.tables with
            tables := Assoc.insert id { table with rows := storeRow key value table.rows, bytes := plan.2 } host.tables.tables } }

def closeOwner (owner : FlowId) : TableM Unit := do
  let host ← get
  match host.tables.byOwner.lookup owner with
  | none => pure ()
  | some id =>
    set { host with
      tables := { host.tables with
        byOwner := Assoc.remove owner host.tables.byOwner
        tables := Assoc.remove id host.tables.tables } }
    releaseAccount owner (bytesAt id host.tables.tables)
    modify fun host => { host with caps := host.caps.revokeTable id }

section Rows

variable {layout : Layout} {key : MapKey} {value : Value} {rows : List (MapKey × Value)}

def rowsBytes (layout : Layout) : List (MapKey × Value) → Except String Nat
  | [] => .ok 0
  | row :: rest => do
    let first ← rowBytes layout row.1 row.2
    let others ← rowsBytes layout rest
    return first + others

theorem rows_bytes_cons (row : MapKey × Value) (rest : List (MapKey × Value)) (sum : Nat) :
    rowsBytes layout (row :: rest) = .ok sum ↔
      ∃ first others, rowBytes layout row.1 row.2 = .ok first ∧ rowsBytes layout rest = .ok others ∧ first + others = sum := by
  rw [rowsBytes, except_bind_ok_iff]
  constructor
  · rintro ⟨first, here, others⟩
    obtain ⟨tail, there, same⟩ := (except_bind_ok_iff _ _ _).mp others
    cases same
    exact ⟨first, tail, here, there, rfl⟩
  · rintro ⟨first, others, here, there, rfl⟩
    exact ⟨first, here, (except_bind_ok_iff _ _ _).mpr ⟨others, there, rfl⟩⟩

theorem store_row_keys (key : MapKey) (value : Value) (rows : List (MapKey × Value)) :
    (storeRow key value rows).map Prod.fst =
      if (rows.lookup key).isSome then rows.map Prod.fst else rows.map Prod.fst ++ [key] := by
  induction rows with
  | nil => rfl
  | cons row rest ih =>
    obtain ⟨other, stored⟩ := row
    rw [storeRow, Assoc.lookup_cons]
    by_cases same : other = key
    · subst same
      rw [if_pos rfl, if_pos rfl]
      rfl
    · rw [if_neg same, if_neg (Ne.symm same), map_cons, ih, map_cons]
      split
      · rfl
      · rfl

theorem store_row_new (sum add : Nat) (unknown : rows.lookup key = none) (sized : rowsBytes layout rows = .ok sum)
    (adds : rowBytes layout key value = .ok add) : rowsBytes layout (storeRow key value rows) = .ok (sum + add) := by
  induction rows generalizing sum with
  | nil =>
    cases sized
    exact (rows_bytes_cons _ _ _).mpr ⟨add, 0, adds, rfl, Nat.add_comm _ _⟩
  | cons row rest ih =>
    obtain ⟨other, stored⟩ := row
    rw [Assoc.lookup_cons] at unknown
    split at unknown
    · cases unknown
    rename_i same
    obtain ⟨first, others, here, there, rfl⟩ := (rows_bytes_cons _ _ _).mp sized
    rw [storeRow, if_neg (Ne.symm same)]
    exact (rows_bytes_cons _ _ _).mpr ⟨first, others + add, here, ih others unknown there, (Nat.add_assoc _ _ _).symm⟩

theorem store_row_old (sum add old : Nat) {stored : Value} (found : rows.lookup key = some stored)
    (sized : rowsBytes layout rows = .ok sum) (replaces : rowBytes layout key stored = .ok old)
    (adds : rowBytes layout key value = .ok add) :
    ∃ after, rowsBytes layout (storeRow key value rows) = .ok after ∧ after + old = sum + add := by
  induction rows generalizing sum with
  | nil => cases found
  | cons row rest ih =>
    obtain ⟨other, current⟩ := row
    obtain ⟨first, others, here, there, rfl⟩ := (rows_bytes_cons _ _ _).mp sized
    rw [Assoc.lookup_cons] at found
    by_cases same : key = other
    · subst same
      rw [if_pos rfl] at found
      cases found
      cases here.symm.trans replaces
      rw [storeRow, if_pos rfl]
      exact ⟨add + others, (rows_bytes_cons _ _ _).mpr ⟨add, others, adds, there, rfl⟩, by omega⟩
    · rw [if_neg same] at found
      obtain ⟨after, tail, balance⟩ := ih others found there
      rw [storeRow, if_neg (Ne.symm same)]
      exact ⟨first + after, (rows_bytes_cons _ _ _).mpr ⟨first, after, here, tail, rfl⟩, by omega⟩

structure RowsOk (layout : Layout) (table : OwnedTable) : Prop where
  distinct : (table.rows.map Prod.fst).Nodup
  few : table.rows.length ≤ MAX_ROWS
  small : table.bytes ≤ MAX_BYTES
  sized : rowsBytes layout table.rows = .ok table.bytes

theorem put_plan_ok {table : OwnedTable} {add old next : Nat} (plan : putPlan layout table key add = .ok (old, next)) :
    old ≤ table.bytes ∧ next + old = table.bytes + add ∧ next ≤ MAX_BYTES ∧
      ((table.rows.lookup key = none ∧ old = 0 ∧ table.rows.length < MAX_ROWS) ∨
        ∃ stored, table.rows.lookup key = some stored ∧ rowBytes layout key stored = .ok old) := by
  rw [putPlan] at plan
  obtain ⟨bytes, replaced, plan⟩ := (except_bind_ok_iff _ _ _).mp plan
  split at plan
  · cases plan
  rename_i room
  split at plan
  · cases plan
  rename_i enough
  split at plan
  · cases plan
  rename_i sum added
  split at plan
  · cases plan
  rename_i fits
  cases plan
  have exact_ : next = table.bytes - old + add := by
    rw [Layout.checkedAdd] at added
    split at added
    · exact (Option.some.inj added).symm
    · cases added
  refine ⟨by omega, by omega, by omega, ?_⟩
  rw [replacedBytes] at replaced
  cases found : table.rows.lookup key with
  | none =>
    rw [found] at replaced room
    cases replaced
    refine Or.inl ⟨rfl, rfl, ?_⟩
    simpa using room
  | some stored =>
    rw [found] at replaced
    exact Or.inr ⟨stored, rfl, replaced⟩

theorem stored_rows_ok {table : OwnedTable} {add old next : Nat} (ok : RowsOk layout table)
    (plan : putPlan layout table key add = .ok (old, next)) (adds : rowBytes layout key value = .ok add) :
    RowsOk layout { table with rows := storeRow key value table.rows, bytes := next } := by
  obtain ⟨_, balance, small, row⟩ := put_plan_ok plan
  have keys := store_row_keys key value table.rows
  have length : (storeRow key value table.rows).length = ((storeRow key value table.rows).map Prod.fst).length :=
    (length_map _).symm
  rcases row with ⟨unknown, rfl, room⟩ | ⟨stored, found, replaced⟩
  · rw [unknown, if_neg (by simp)] at keys
    refine ⟨?_, ?_, small, ?_⟩
    · rw [keys]
      exact List.Nodup.append ok.distinct (nodup_singleton _) (by simpa using Assoc.lookup_none_absent unknown)
    · rw [length, keys, length_append, length_map]
      exact room
    · rw [store_row_new table.bytes add unknown ok.sized adds]
      exact congrArg Except.ok balance.symm
  · rw [found, if_pos (by simp)] at keys
    refine ⟨?_, ?_, small, ?_⟩
    · rw [keys]
      exact ok.distinct
    · rw [length, keys, length_map]
      exact ok.few
    · obtain ⟨after, sized, same⟩ := store_row_old table.bytes add old found ok.sized replaced adds
      have exact_ : after = next := by omega
      rw [sized, exact_]

end Rows

section Account

variable {layout : Layout} {host : TableHost}

theorem try_charge_ok {memory charged : MemoryBudget} {bytes : Nat} (done : memory.tryCharge layout bytes = .ok charged) :
    charged = { memory with used := memory.used + bytes } := by
  rw [MemoryBudget.tryCharge] at done
  split at done
  · rename_i nothing
    cases done
    rw [nothing]
    rfl
  · split at done
    · cases done
    · rename_i sum added
      split at done
      · cases done
      · cases done
        rw [Layout.checkedAdd] at added
        split at added
        · cases added
          rfl
        · cases added

theorem charged_release {memory charged : MemoryBudget} {bytes : Nat} (done : memory.tryCharge layout bytes = .ok charged) :
    charged.release bytes = memory := by
  rw [try_charge_ok done, MemoryBudget.release]
  dsimp only
  rw [Nat.add_sub_cancel]

theorem account_ends (owner : FlowId) (old new : Nat) (covered : old ≤ host.memory.used) :
    Ends (fun _ after => after.tables = host.tables ∧ after.dropped = host.dropped ∧
        after.memory.used + old = host.memory.used + new)
      (fun _ after => after = host) (exec (account layout owner old new) host) := by
  rw [account]
  by_cases grows : new > old
  · rw [if_pos grows, exec_get_bind]
    cases charge : host.memory.tryCharge layout (new - old) with
    | error e => exact rfl
    | ok charged =>
      have used : charged.used = host.memory.used + (new - old) := by rw [try_charge_ok charge]
      dsimp only
      cases owned : host.quotas owner with
      | none =>
        refine ⟨rfl, rfl, ?_⟩
        change charged.used + old = host.memory.used + new
        omega
      | some quota =>
        dsimp only
        cases alloc : quota.alloc layout (new - old) with
        | ok grown =>
          refine ⟨rfl, rfl, ?_⟩
          change charged.used + old = host.memory.used + new
          omega
        | error e =>
          change { host with memory := charged.release (new - old) } = host
          rw [charged_release charge]
  · rw [if_neg grows]
    by_cases shrinks : old > new
    · rw [if_pos shrinks, releaseAccount, if_neg (by omega), exec_modify]
      refine ⟨rfl, rfl, ?_⟩
      change host.memory.used - (old - new) + old = host.memory.used + new
      omega
    · rw [if_neg shrinks]
      exact ⟨rfl, rfl, by omega⟩

end Account

section Balance

-- The ids handed out so far are the ones below the counter, or all of them once
-- it is pinned.
structure Balanced (layout : Layout) (host : TableHost) : Prop where
  ids : (host.tables.tables.map Prod.fst).Nodup
  issued : ∀ id ∈ host.tables.tables.map Prod.fst, host.tables.nextId = 0 ∨ id < host.tables.nextId
  rows : ∀ row ∈ host.tables.tables, RowsOk layout row.2
  charged : host.memory.used = Assoc.total OwnedTable.bytes host.tables.tables + host.dropped

variable {layout : Layout} {host after : TableHost} {nextId : UInt64}

theorem balanced_same (balanced : Balanced layout host) (tables : after.tables = host.tables)
    (memory : after.memory = host.memory) (dropped : after.dropped = host.dropped) : Balanced layout after := by
  obtain ⟨ids, issued, rows, charged⟩ := balanced
  rw [← tables] at ids issued rows charged
  exact ⟨ids, issued, rows, by rw [memory, dropped]; exact charged⟩

theorem issued_next {ids : List UInt64} (live : nextId ≠ 0)
    (issued : ∀ id ∈ ids, nextId = 0 ∨ id < nextId) : ∀ id ∈ nextId :: ids, nextId + 1 = 0 ∨ id < nextId + 1 := by
  intro id member
  by_cases pinned : nextId + 1 = 0
  · exact Or.inl pinned
  · refine Or.inr ?_
    have above : nextId < nextId + 1 := by
      rw [UInt64.lt_iff_toNat_lt, UInt64.toNat_add]
      have notZero : (nextId + 1).toNat ≠ 0 := fun zero => pinned (UInt64.toNat_inj.mp zero)
      rw [UInt64.toNat_add] at notZero
      have below := nextId.toNat_lt
      have one : (1 : UInt64).toNat = 1 := rfl
      omega
    rcases mem_cons.mp member with rfl | old
    · exact above
    · exact UInt64.lt_trans ((issued id old).resolve_left live) above

theorem fresh_id {ids : List UInt64} (live : nextId ≠ 0)
    (issued : ∀ id ∈ ids, nextId = 0 ∨ id < nextId) : nextId ∉ ids := fun present =>
  absurd ((issued nextId present).resolve_left live) (UInt64.lt_irrefl _)

theorem balanced_counter (balanced : Balanced layout host) {id : UInt64}
    (allocated : allocateId host.tables.nextId = some (id, nextId)) (tables : after.tables.tables = host.tables.tables)
    (counter : after.tables.nextId = nextId) (memory : after.memory = host.memory) (dropped : after.dropped = host.dropped) :
    Balanced layout after := by
  rw [allocateId] at allocated
  split at allocated
  · cases allocated
  rename_i live
  cases allocated
  refine ⟨?_, ?_, ?_, ?_⟩
  · rw [tables]
    exact balanced.ids
  · rw [tables, counter]
    exact fun other member => issued_next live balanced.issued other (mem_cons_of_mem _ member)
  · rw [tables]
    exact balanced.rows
  · rw [tables, memory, dropped]
    exact balanced.charged

theorem balanced_new_table (balanced : Balanced layout host) {id : UInt64}
    (allocated : allocateId host.tables.nextId = some (id, nextId)) (owner : FlowId)
    (tables : after.tables.tables = Assoc.insert id ⟨owner, [], 0⟩ host.tables.tables)
    (counter : after.tables.nextId = nextId) (memory : after.memory = host.memory) (dropped : after.dropped = host.dropped) :
    Balanced layout after := by
  rw [allocateId] at allocated
  split at allocated
  · cases allocated
  rename_i live
  cases allocated
  have new := fresh_id live balanced.issued
  have kept : Assoc.insert host.tables.nextId ⟨owner, [], 0⟩ host.tables.tables =
      (host.tables.nextId, ⟨owner, [], 0⟩) :: host.tables.tables := by
    rw [Assoc.insert, Assoc.remove_absent new]
  refine ⟨?_, ?_, ?_, ?_⟩
  · rw [tables]
    exact Assoc.insert_distinct _ _ balanced.ids
  · rw [tables, kept, counter]
    exact issued_next live balanced.issued
  · rw [tables, kept]
    intro row member
    rcases mem_cons.mp member with rfl | old
    · exact ⟨nodup_nil, Nat.zero_le _, Nat.zero_le _, rfl⟩
    · exact balanced.rows row old
  · rw [tables, memory, dropped, Assoc.total_insert_new _ _ new, balanced.charged, Nat.zero_add]

theorem bytes_at_total (ids : (host.tables.tables.map Prod.fst).Nodup) (id : UInt64) :
    Assoc.total OwnedTable.bytes (Assoc.remove id host.tables.tables) + bytesAt id host.tables.tables =
      Assoc.total OwnedTable.bytes host.tables.tables := by
  cases found : host.tables.tables.lookup id with
  | none =>
    rw [Assoc.remove_absent (Assoc.lookup_none_absent found), bytesAt, found]
    rfl
  | some table =>
    rw [bytesAt, found]
    exact Assoc.total_remove _ ids found

theorem bytes_at_charged (balanced : Balanced layout host) (id : UInt64) :
    bytesAt id host.tables.tables ≤ host.memory.used := by
  have weight := bytes_at_total balanced.ids id
  have charged := balanced.charged
  omega

theorem balanced_removed (balanced : Balanced layout host) (id : UInt64)
    (tables : after.tables.tables = Assoc.remove id host.tables.tables) (counter : after.tables.nextId = host.tables.nextId)
    (settles : after.memory.used + host.dropped + bytesAt id host.tables.tables = host.memory.used + after.dropped) :
    Balanced layout after := by
  have weight := bytes_at_total balanced.ids id
  have charged := balanced.charged
  refine ⟨?_, ?_, ?_, ?_⟩
  · rw [tables]
    exact Assoc.remove_distinct id balanced.ids
  · rw [tables, counter]
    intro other member
    obtain ⟨row, stays, rfl⟩ := mem_map.mp member
    exact balanced.issued row.1 (mem_map_of_mem (Assoc.mem_remove.mp stays).1)
  · rw [tables]
    exact fun row member => balanced.rows row (Assoc.mem_remove.mp member).1
  · rw [tables]
    omega

end Balance

section Steps

variable {layout : Layout} {α : Type}

def Keeps (layout : Layout) (call : TableM α) : Prop :=
  Triple (Balanced layout) call (fun _ => Balanced layout) (fun _ => Balanced layout)

theorem keeps_of_ends {call : TableM α} (ends : ∀ host, Balanced layout host →
    Ends (fun _ after => Balanced layout after) (fun _ after => after = host) (exec call host)) : Keeps layout call :=
  fun host balanced => ends_mono (ends host balanced) (fun _ _ kept => kept) fun _ after same => by
    rw [same]
    exact balanced

theorem grant_table_ends (holder : FlowId) (id epoch : UInt64) (draws : CapDraws) (host : TableHost) :
    Ends (fun _ after => after.tables = host.tables ∧ after.memory = host.memory ∧ after.dropped = host.dropped)
      (fun _ _ => False) (exec (grantTable holder id epoch draws) host) := ⟨rfl, rfl, rfl⟩

theorem open_global_keeps (holder : FlowId) (id : UInt64) (draws : CapDraws) : Keeps layout (openGlobal holder id draws) := by
  intro host balanced
  rw [openGlobal, exec_get_bind]
  cases host.caps.tableCells.lookup id with
  | none => exact balanced
  | some cell =>
    refine ends_bind (grant_table_ends _ _ _ _ host) (fun granted after same => ?_) fun _ _ never => never.elim
    have kept := balanced_same balanced same.1 same.2.1 same.2.2
    cases granted with
    | ok | error => exact kept

theorem register_global_keeps (name : String) : Keeps layout (registerGlobal name) := by
  intro host balanced
  rw [registerGlobal]
  by_cases bad : nameFits name = false
  · rw [if_pos bad]
    exact balanced
  rw [if_neg bad, exec_get_bind]
  by_cases taken : (host.tables.global.lookup name).isSome = true
  · rw [if_pos taken]
    exact balanced
  rw [if_neg taken]
  cases allocated : allocateId host.tables.nextId with
  | none => exact balanced
  | some pair => exact balanced_new_table balanced allocated 0 rfl rfl rfl rfl

theorem unregister_global_keeps (name : String) : Keeps layout (unregisterGlobal name) := by
  intro host balanced
  rw [unregisterGlobal, exec_get_bind]
  cases host.tables.global.lookup name with
  | none => exact balanced
  | some id =>
    refine balanced_removed balanced id rfl rfl ?_
    change host.memory.used + host.dropped + _ = host.memory.used + (host.dropped + _)
    omega

theorem open_table_keeps (owner : FlowId) (name : String) (draws : CapDraws) : Keeps layout (openTable owner name draws) := by
  intro host balanced
  rw [openTable]
  by_cases bad : nameFits name = false
  · rw [if_pos bad]
    exact balanced
  rw [if_neg bad, exec_get_bind]
  cases host.tables.global.lookup name with
  | some id => exact open_global_keeps owner id draws host balanced
  | none =>
    dsimp only
    by_cases owns : (host.tables.byOwner.lookup owner).isSome = true
    · rw [if_pos owns]
      exact balanced
    rw [if_neg owns]
    cases allocated : allocateId host.tables.nextId with
    | none => exact balanced
    | some pair =>
      obtain ⟨id, nextId⟩ := pair
      dsimp only
      rw [exec_bind_ok (set _) _ host _ ⟨⟩ (exec_set host _)]
      refine ends_bind (grant_table_ends owner id 0 draws _) (fun granted after same => ?_)
        fun _ _ never => never.elim
      obtain ⟨tables, memory, dropped⟩ := same
      cases granted with
      | error e =>
        -- The counter has moved whatever becomes of the grant.
        refine balanced_counter balanced allocated (?_ : after.tables.tables = _) (?_ : after.tables.nextId = _) memory dropped
        · rw [tables]
        · rw [tables]
      | ok cap =>
        refine balanced_new_table balanced allocated owner
          (?_ : Assoc.insert id ⟨owner, [], 0⟩ after.tables.tables = _) (?_ : after.tables.nextId = _) memory dropped
        · rw [tables]
        · rw [tables]

theorem close_owner_keeps (owner : FlowId) : Keeps layout (closeOwner owner) := by
  intro host balanced
  rw [closeOwner, exec_get_bind]
  cases host.tables.byOwner.lookup owner with
  | none => exact balanced
  | some id =>
    have covered : bytesAt id host.tables.tables ≤ host.memory.used := bytes_at_charged balanced id
    dsimp only
    rw [exec_bind_ok (set _) _ host _ ⟨⟩ (exec_set host _), releaseAccount]
    by_cases empty : bytesAt id host.tables.tables = 0
    · rw [if_pos empty]
      refine balanced_removed balanced id rfl rfl ?_
      change host.memory.used + host.dropped + _ = host.memory.used + host.dropped
      omega
    · rw [if_neg empty]
      refine balanced_removed balanced id rfl rfl ?_
      change host.memory.used - _ + host.dropped + _ = host.memory.used + host.dropped
      omega

theorem fail_with_ends (result : Except String α) (host : TableHost) :
    Ends (fun a after => after = host ∧ result = .ok a) (fun _ after => after = host) (exec (failWith result) host) := by
  cases result with
  | ok a => exact ⟨rfl, rfl⟩
  | error e => exact rfl

theorem table_id_ends (holder : FlowId) (cap : CapId) (need : CapRights) (host : TableHost) :
    Ends (fun _ after => after = host) (fun _ after => after = host) (exec (tableId holder cap need) host) := by
  rw [tableId, exec_get_bind]
  cases host.caps.resolve cap holder need with
  | error e => exact rfl
  | ok entry =>
    dsimp only
    cases entry.cap.target <;> exact rfl

theorem get_row_ends (holder : FlowId) (cap : CapId) (key : Value) (host : TableHost) :
    Ends (fun _ after => after = host) (fun _ after => after = host) (exec (getRow holder cap key) host) := by
  rw [getRow]
  refine ends_next (table_id_ends holder cap .RECV host) fun id after same => ?_
  subst same
  refine ends_next (fail_with_ends (mapKey key) after) fun found last same => ?_
  obtain ⟨rfl, _⟩ := same
  rw [exec_get_bind]
  cases last.tables.tables.lookup id with
  | none | some => exact rfl

theorem put_ends (holder : FlowId) (cap : CapId) (key value : Value) {host : TableHost} (balanced : Balanced layout host) :
    Ends (fun _ after => Balanced layout after) (fun _ after => after = host)
      (exec (put layout holder cap key value) host) := by
  rw [put]
  refine ends_next (table_id_ends holder cap .SEND host) fun id after same => ?_
  subst same
  refine ends_next (fail_with_ends (mapKey key) after) fun found last same => ?_
  obtain ⟨rfl, _⟩ := same
  by_cases refused : valueAllowed 0 value = false
  · rw [if_pos refused]
    exact rfl
  rw [if_neg refused]
  refine ends_next (fail_with_ends (rowBytes layout found value) last) fun add host same => ?_
  obtain ⟨rfl, adds⟩ := same
  rw [exec_get_bind]
  cases there : host.tables.tables.lookup id with
  | none => exact rfl
  | some table =>
    refine ends_next (fail_with_ends (putPlan layout table found add) host) fun plan before same => ?_
    obtain ⟨rfl, planned⟩ := same
    obtain ⟨old, next⟩ := plan
    obtain ⟨covered, balance, _⟩ := put_plan_ok planned
    have listed : (id, table) ∈ before.tables.tables := Assoc.mem_of_lookup there
    have share : table.bytes ≤ before.memory.used := by
      have all := bytes_at_charged balanced id
      rw [bytesAt, there] at all
      exact all
    refine ends_next (account_ends table.owner old add (Nat.le_trans covered share)) fun _ paid settled => ?_
    obtain ⟨tables, dropped, used⟩ := settled
    rw [exec_modify]
    have weight := Assoc.total_insert_old OwnedTable.bytes balanced.ids there
      { table with rows := storeRow found value table.rows, bytes := next }
    have charged := balanced.charged
    refine ⟨?_, ?_, ?_, ?_⟩
    · dsimp only
      rw [tables]
      exact Assoc.insert_distinct _ _ balanced.ids
    · dsimp only
      rw [tables]
      intro other member
      obtain ⟨row, listedRow, rfl⟩ := mem_map.mp member
      rcases Assoc.mem_insert.mp listedRow with rfl | ⟨kept, _⟩
      · exact balanced.issued id (mem_map_of_mem listed)
      · exact balanced.issued row.1 (mem_map_of_mem kept)
    · dsimp only
      rw [tables]
      intro row member
      rcases Assoc.mem_insert.mp member with rfl | ⟨kept, _⟩
      · exact stored_rows_ok (balanced.rows _ listed) planned adds
      · exact balanced.rows row kept
    · dsimp only at weight ⊢
      rw [tables, dropped]
      omega

theorem get_row_keeps (holder : FlowId) (cap : CapId) (key : Value) : Keeps layout (getRow holder cap key) :=
  keeps_of_ends fun host balanced => ends_mono (get_row_ends holder cap key host)
    (fun _ _ same => by rw [same]; exact balanced) fun _ _ failed => failed

theorem put_keeps (holder : FlowId) (cap : CapId) (key value : Value) : Keeps layout (put layout holder cap key value) :=
  keeps_of_ends fun _ balanced => put_ends holder cap key value balanced

end Steps

section Runs

inductive TableOp where
  | openTable (owner : FlowId) (name : String) (draws : CapDraws)
  | registerGlobal (name : String)
  | openGlobal (holder : FlowId) (id : UInt64) (draws : CapDraws)
  | put (holder : FlowId) (cap : CapId) (key value : Value)
  | getRow (holder : FlowId) (cap : CapId) (key : Value)
  | unregisterGlobal (name : String)
  | closeOwner (owner : FlowId)
  -- Capabilities and quotas have other users; the process budget has none.
  | environment (caps : CapTable) (quotas : FlowId → Option FlowQuota)

def apply (layout : Layout) (host : TableHost) : TableOp → TableHost
  | .openTable owner name draws => (exec (openTable owner name draws) host).2
  | .registerGlobal name => (exec (registerGlobal name) host).2
  | .openGlobal holder id draws => (exec (openGlobal holder id draws) host).2
  | .put holder cap key value => (exec (put layout holder cap key value) host).2
  | .getRow holder cap key => (exec (getRow holder cap key) host).2
  | .unregisterGlobal name => (exec (unregisterGlobal name) host).2
  | .closeOwner owner => (exec (closeOwner owner) host).2
  | .environment caps quotas => { host with caps := caps, quotas := quotas }

def next (layout : Layout) (host : TableHost) (op : TableOp) : Option TableHost := some (apply layout host op)

def fresh (limit : Nat) (caps : CapTable) (quotas : FlowId → Option FlowQuota) : TableHost :=
  ⟨.new, caps, ⟨limit, 0⟩, quotas, 0⟩

variable {layout : Layout} {host : TableHost}

theorem keeps_state {α : Type} {call : TableM α} (keeps : Keeps layout call) (balanced : Balanced layout host) :
    Balanced layout (exec call host).2 := by
  have ends := keeps host balanced
  revert ends
  rcases exec call host with ⟨e | a, after⟩
  · exact fun kept => kept
  · exact fun kept => kept

theorem apply_balanced (op : TableOp) (balanced : Balanced layout host) : Balanced layout (apply layout host op) := by
  cases op with
  | openTable owner name draws => exact keeps_state (open_table_keeps owner name draws) balanced
  | registerGlobal name => exact keeps_state (register_global_keeps name) balanced
  | openGlobal holder id draws => exact keeps_state (open_global_keeps holder id draws) balanced
  | put holder cap key value => exact keeps_state (put_keeps holder cap key value) balanced
  | getRow holder cap key => exact keeps_state (get_row_keeps holder cap key) balanced
  | unregisterGlobal name => exact keeps_state (unregister_global_keeps name) balanced
  | closeOwner owner => exact keeps_state (close_owner_keeps owner) balanced
  | environment caps quotas => exact balanced_same balanced rfl rfl rfl

theorem reached_balanced {limit : Nat} {caps : CapTable} {quotas : FlowId → Option FlowQuota}
    (reached : Reach (next layout) (fun _ _ => True) (fresh limit caps quotas) host) : Balanced layout host := by
  have initial : Balanced layout (fresh limit caps quotas) :=
    ⟨nodup_nil, fun _ none_ => absurd none_ not_mem_nil, fun _ none_ => absurd none_ not_mem_nil, rfl⟩
  refine reach_invariant initial ?_ reached
  intro before op after balanced _ stepped
  cases stepped
  exact apply_balanced op balanced

theorem table_accounting (layout : Layout) (limit : Nat) (caps : CapTable) (quotas : FlowId → Option FlowQuota)
    (host : TableHost) (reached : Reach (next layout) (fun _ _ => True) (fresh limit caps quotas) host) :
    (host.memory.used = Assoc.total OwnedTable.bytes host.tables.tables ↔ host.dropped = 0) ∧
      (∀ id table, (id, table) ∈ host.tables.tables → rowsBytes layout table.rows = .ok table.bytes ∧
        (table.rows.map Prod.fst).Nodup ∧ table.rows.length ≤ 256 ∧ table.bytes ≤ 64 * 1024) ∧
      ∀ holder cap key value e after, exec (put layout holder cap key value) host = (.error e, after) → after = host := by
  have balanced := reached_balanced reached
  refine ⟨?_, fun id table listed => ?_, fun holder cap key value e after failed => ?_⟩
  · have charged := balanced.charged
    omega
  · have ok := balanced.rows _ listed
    exact ⟨ok.sized, ok.distinct, ok.few, ok.small⟩
  · have ends := put_ends holder cap key value balanced
    rw [failed] at ends
    exact ends

def sharedRow : List TableOp :=
  [.registerGlobal "shared", .openTable 5 "shared" [.ok ⟨9⟩], .put 5 ⟨9⟩ (.int 1) (.str "abc")]

def emptyHost : TableHost := fresh 1000 .new fun _ => none

theorem shared_row_accounted :
    ∃ host, play (next .word) emptyHost sharedRow = some host ∧ host.memory.used = 3 ∧
      host.memory.used = Assoc.total OwnedTable.bytes host.tables.tables := by
  obtain ⟨host, played, used, dropped⟩ : ∃ host, play (next .word) emptyHost sharedRow = some host ∧
      host.memory.used = 3 ∧ host.dropped = 0 := ⟨_, rfl, rfl, rfl⟩
  have reached := reach_of_play sharedRow emptyHost (all_meet_of_forall (fun _ _ => trivial) _ _) played
  exact ⟨host, played, used, (table_accounting .word 1000 .new (fun _ => none) host reached).1.mpr dropped⟩

theorem unregistered_bytes_stay_charged :
    ∃ host, play (next .word) emptyHost (sharedRow ++ [.unregisterGlobal "shared"]) = some host ∧
      host.memory.used = 3 ∧ Assoc.total OwnedTable.bytes host.tables.tables = 0 :=
  ⟨_, rfl, rfl, rfl⟩

end Runs

end FlowTables

end Byteflow
