import Byteflow.CapTable
import Byteflow.Assoc
import Byteflow.Transition

namespace Byteflow

open Assoc Transition

inductive CapCall where
  | bindFlow (flow : FlowId)
  | mint (holder target : FlowId) (rights : CapRights)
  | mintOrReuse (holder target : FlowId) (rights : CapRights)
  | attenuate (id : CapId) (fromHolder toHolder : FlowId) (wantRights : CapRights) (wantNative : Option NativeMask)
  | delegate (id : CapId) (fromHolder toHolder : FlowId)
  | reissueFor (id : CapId) (newHolder : FlowId)
  | resolve (id : CapId) (holder : FlowId) (required : CapRights)
  | revokeFlow (flow : FlowId)
deriving DecidableEq, Repr

-- A call in progress, by what it has read so far. Each state ends at the next
-- acquisition of the table lock or the next read of a revocation cell.
inductive CapOp where
  | start (call : CapCall)
  | mintRead (holder target : FlowId) (rights : CapRights) (cell : CellRef)
  | attenuateCell (src : Capability) (toHolder : FlowId) (wantRights : CapRights) (wantNative : Option NativeMask)
  | attenuateCheck (src : Capability) (cell : CellRef) (toHolder : FlowId) (wantRights : CapRights)
      (wantNative : Option NativeMask)
  | attenuateRecheck (narrowed : Capability) (cell : CellRef)
  | reissueCheck (entry : Capability) (newHolder : FlowId)
  | insert (entry : Capability)
  | done
deriving DecidableEq, Repr

namespace CapOp

def step (table : CapTable) (draws : CapDraws) : CapOp → CapTable × CapOp
  | .start (.bindFlow flow) => ((table.bindFlow flow).1, .done)
  | .start (.mint holder target rights) =>
    let (bound, cell) := table.bindFlow target
    (bound, .mintRead holder target rights cell)
  | .mintRead holder target rights cell =>
    (table, .insert ⟨holder, Cap.root (.flow target) rights none (table.epoch cell), table.generation target⟩)
  | .start (.mintOrReuse holder target rights) => ((table.mintOrReuse holder target rights draws).1, .done)
  | .start (.attenuate id fromHolder toHolder wantRights wantNative) =>
    match table.resolve id fromHolder .NONE with
    | .error _ => (table, .done)
    | .ok src => (table, .attenuateCell src toHolder wantRights wantNative)
  | .attenuateCell src toHolder wantRights wantNative =>
    match src.cap.target with
    | .nativeTable | .scheduler => (table, .done)
    | target =>
      match table.cellOf target with
      | none => (table, .done)
      | some cell => (table, .attenuateCheck src cell toHolder wantRights wantNative)
  | .attenuateCheck src cell toHolder wantRights wantNative =>
    match execDelegate src.cap (table.epoch cell) wantRights wantNative with
    | .error _ => (table, .done)
    | .ok narrowed => (table, .attenuateRecheck ⟨toHolder, narrowed, src.born⟩ cell)
  | .attenuateRecheck narrowed cell =>
    if narrowed.cap.isValid (table.epoch cell) then (table, .insert narrowed) else (table, .done)
  | .start (.delegate id fromHolder toHolder) =>
    match table.resolve id fromHolder .NONE with
    | .error _ => (table, .done)
    | .ok src => (table, .start (.attenuate id fromHolder toHolder src.cap.rights src.cap.nativeMask))
  | .start (.reissueFor id newHolder) =>
    match table.lookup id with
    | none => (table, .done)
    | some entry => (table, .reissueCheck entry newHolder)
  | .reissueCheck entry newHolder =>
    if table.isLive entry.cap then
      (table, .insert ⟨newHolder, entry.cap.attenuate entry.cap.rights entry.cap.nativeMask, entry.born⟩)
    else (table, .done)
  | .insert entry => ((table.insert entry draws).1, .done)
  | .start (.resolve ..) => (table, .done)
  | .start (.revokeFlow flow) => (table.revokeFlow flow, .done)
  | .done => (table, .done)

def carried : CapOp → Option Capability
  | .attenuateCell src .. | .attenuateCheck src .. => some src
  | .attenuateRecheck narrowed _ => some narrowed
  | .reissueCheck entry _ => some entry
  | .insert entry => some entry
  | .start _ | .mintRead .. | .done => none

def binds : CapOp → Option FlowId
  | .start (.bindFlow flow) | .start (.mint _ flow _) | .start (.mintOrReuse _ flow _) => some flow
  | _ => none

end CapOp

structure CapRace where
  table : CapTable
  ops : List CapOp

inductive CapEvent where
  | call (call : CapCall)
  | step (index : Nat) (draws : CapDraws)

namespace CapRace

def initial : CapRace := ⟨.new, []⟩

def next (race : CapRace) : CapEvent → Option CapRace
  | .call call => some { race with ops := race.ops ++ [.start call] }
  | .step index draws =>
    match race.ops[index]? with
    | none | some .done => none
    | some op =>
      let (table, op) := op.step race.table draws
      some ⟨table, race.ops.set index op⟩

-- A cell for a flow is created only while nothing of an earlier cell of that
-- flow is left: neither an entry nor an operation in progress carries a
-- capability for it with the epoch the new cell will show.
def CleanCreation (race : CapRace) : CapEvent → Prop
  | .call _ => True
  | .step index _ => ∀ op ∈ race.ops[index]?, ∀ flow ∈ op.binds, race.table.flowCells.lookup flow = none →
      (∀ row ∈ race.table.entries, row.2.cap.target = .flow flow → row.2.cap.epoch ≠ 0) ∧
        ∀ other ∈ race.ops, ∀ entry ∈ other.carried, entry.cap.target = .flow flow → entry.cap.epoch ≠ 0

instance (race : CapRace) : ∀ event, Decidable (CleanCreation race event)
  | .call _ => isTrue trivial
  | .step .. => by
    unfold CleanCreation
    have (op : CapOp) : Decidable (∀ flow ∈ op.binds, race.table.flowCells.lookup flow = none →
        (∀ row ∈ race.table.entries, row.2.cap.target = .flow flow → row.2.cap.epoch ≠ 0) ∧
          ∀ other ∈ race.ops, ∀ entry ∈ other.carried, entry.cap.target = .flow flow → entry.cap.epoch ≠ 0) :=
      Option.decidableForallMem _
    infer_instance

-- An entry with the epoch of a live cell was read since the last revocation.
def Timely (table : CapTable) (entry : Capability) : Prop :=
  ∀ flow, entry.cap.target = .flow flow → entry.cap.epoch = 0 → (table.flowCells.lookup flow).isSome →
    entry.born = table.generation flow

structure CellsOk (table : CapTable) : Prop where
  allocated : ∀ flow cell, table.flowCells.lookup flow = some cell → cell < table.cells.length
  distinct : ∀ flow other cell, table.flowCells.lookup flow = some cell → table.flowCells.lookup other = some cell →
    flow = other
  unrevoked : ∀ flow cell, table.flowCells.lookup flow = some cell → table.epoch cell = 0

def HoldsCell (table : CapTable) : CapOp → Prop
  | .mintRead _ target _ cell => cell < table.cells.length ∧
      (table.flowCells.lookup target = some cell ∨ table.epoch cell ≠ 0)
  | _ => True

structure Safe (race : CapRace) : Prop where
  cells : CellsOk race.table
  held : ∀ op ∈ race.ops, HoldsCell race.table op
  entries : ∀ row ∈ race.table.entries, Timely race.table row.2
  carried : ∀ op ∈ race.ops, ∀ entry, op.carried = some entry → Timely race.table entry

structure Advance (clean : Capability → Prop) (before after : CapTable) : Prop where
  cells : CellsOk after
  held : ∀ op, HoldsCell before op → HoldsCell after op
  timely : ∀ entry, clean entry → Timely before entry → Timely after entry

theorem advance_refl {clean : Capability → Prop} {table : CapTable} (ok : CellsOk table) : Advance clean table table :=
  ⟨ok, fun _ held => held, fun _ _ timely => timely⟩

theorem advance_same {clean : Capability → Prop} {before after : CapTable} (ok : CellsOk before)
    (cells : after.cells = before.cells) (flowCells : after.flowCells = before.flowCells)
    (revocations : after.revocations = before.revocations) : Advance clean before after := by
  refine ⟨⟨fun flow cell => ?_, fun flow other cell => ?_, fun flow cell => ?_⟩, fun op held => ?_,
    fun entry _ timely flow target epoch bound => ?_⟩
  · rw [flowCells, cells]
    exact ok.allocated flow cell
  · rw [flowCells]
    exact ok.distinct flow other cell
  · rw [flowCells, CapTable.epoch, cells]
    exact ok.unrevoked flow cell
  · cases op <;> first
      | exact trivial
      | simpa only [HoldsCell, CapTable.epoch, cells, flowCells] using held
  · rw [CapTable.generation, revocations]
    exact timely flow target epoch (flowCells ▸ bound)

section Bind

variable {table : CapTable} {flow : FlowId}

theorem epoch_append (cell : CellRef) (inside : cell < table.cells.length) :
    { table with cells := table.cells ++ [0] }.epoch cell = table.epoch cell := by
  simp [CapTable.epoch, List.getD_eq_getElem?_getD, List.getElem?_append_left inside]

theorem bind_flow_cell (ok : CellsOk table) : (table.bindFlow flow).1.flowCells.lookup flow = some (table.bindFlow flow).2 ∧
    (table.bindFlow flow).2 < (table.bindFlow flow).1.cells.length := by
  unfold CapTable.bindFlow
  cases found : table.flowCells.lookup flow with
  | some cell => exact ⟨found, ok.allocated flow cell found⟩
  | none => exact ⟨by simp, by simp⟩

theorem bind_flow_entries : (table.bindFlow flow).1.entries = table.entries := by
  unfold CapTable.bindFlow
  cases table.flowCells.lookup flow <;> rfl

theorem bind_flow_advance (ok : CellsOk table) :
    Advance (fun entry => table.flowCells.lookup flow = none → entry.cap.target = .flow flow → entry.cap.epoch ≠ 0) table
      (table.bindFlow flow).1 := by
  unfold CapTable.bindFlow
  cases found : table.flowCells.lookup flow with
  | some cell => exact advance_refl ok
  | none =>
    dsimp only
    have row : ∀ other cell, ((flow, table.cells.length) :: table.flowCells).lookup other = some cell →
        other = flow ∧ cell = table.cells.length ∨ other ≠ flow ∧ table.flowCells.lookup other = some cell := by
      intro other cell listed
      rw [lookup_cons] at listed
      by_cases same : other = flow
      · rw [if_pos same] at listed
        exact Or.inl ⟨same, (Option.some.inj listed).symm⟩
      · rw [if_neg same] at listed
        exact Or.inr ⟨same, listed⟩
    refine ⟨⟨fun other cell listed => ?_, fun one other cell first second => ?_, fun other cell listed => ?_⟩,
      fun op held => ?_, fun entry clean timely other target epoch bound => ?_⟩
    · rw [List.length_append, List.length_singleton]
      rcases row other cell listed with ⟨_, rfl⟩ | ⟨_, old⟩
      · exact Nat.lt_succ_self _
      · exact Nat.lt_succ_of_lt (ok.allocated other cell old)
    · rcases row one cell first with ⟨rfl, fresh⟩ | ⟨_, old⟩
      · rcases row other cell second with ⟨rfl, _⟩ | ⟨_, older⟩
        · rfl
        · exact absurd (fresh ▸ ok.allocated other cell older) (Nat.lt_irrefl _)
      · rcases row other cell second with ⟨rfl, fresh⟩ | ⟨_, older⟩
        · exact absurd (fresh ▸ ok.allocated one cell old) (Nat.lt_irrefl _)
        · exact ok.distinct one other cell old older
    · rcases row other cell listed with ⟨_, rfl⟩ | ⟨_, old⟩
      · simp [CapTable.epoch, List.getD_eq_getElem?_getD]
      · exact (epoch_append cell (ok.allocated other cell old)).trans (ok.unrevoked other cell old)
    · cases op with
      | mintRead holder target rights cell =>
        refine ⟨by rw [List.length_append]; exact Nat.lt_add_right _ held.1, held.2.imp (fun current => ?_) fun old => ?_⟩
        · rw [lookup_cons, if_neg]
          · exact current
          · rintro rfl
            rw [found] at current
            cases current
        · exact fun zero => old ((epoch_append cell held.1).symm.trans zero)
      | _ => trivial
    · by_cases same : other = flow
      · exact absurd epoch (clean rfl (same ▸ target))
      · rw [lookup_cons, if_neg same] at bound
        exact timely other target epoch bound

end Bind

section Revoke

variable {table : CapTable} {flow : FlowId}

theorem revoke_flow_lookup (other : FlowId) :
    (table.revokeFlow flow).flowCells.lookup other = if other = flow then none else table.flowCells.lookup other := by
  rw [← lookup_filter_ne]
  rfl

theorem revoke_flow_length : (table.revokeFlow flow).cells.length = table.cells.length := by
  unfold CapTable.revokeFlow CapTable.revokeCell
  cases table.flowCells.lookup flow <;> simp

theorem revoke_flow_epoch (cell : CellRef) :
    (table.revokeFlow flow).epoch cell =
      if table.flowCells.lookup flow = some cell ∧ cell < table.cells.length then table.epoch cell + 1
      else table.epoch cell := by
  unfold CapTable.revokeFlow CapTable.revokeCell CapTable.epoch
  cases found : table.flowCells.lookup flow with
  | none => simp
  | some bumped =>
    simp only [List.getD_eq_getElem?_getD, List.getElem?_modify, Option.some.injEq]
    by_cases same : bumped = cell
    · subst same
      by_cases inside : bumped < table.cells.length
      · simp [inside]
      · simp [inside]
    · simp [same]

theorem revoke_flow_advance (ok : CellsOk table) : Advance (fun _ => True) table (table.revokeFlow flow) := by
  have kept : ∀ other cell, (table.revokeFlow flow).flowCells.lookup other = some cell →
      other ≠ flow ∧ table.flowCells.lookup other = some cell := by
    intro other cell listed
    rw [revoke_flow_lookup] at listed
    by_cases same : other = flow
    · simp [same] at listed
    · exact ⟨same, by simpa [same] using listed⟩
  have unbumped : ∀ other cell, other ≠ flow → table.flowCells.lookup other = some cell →
      (table.revokeFlow flow).epoch cell = table.epoch cell := by
    intro other cell differs listed
    rw [revoke_flow_epoch, if_neg]
    exact fun bumped => differs (ok.distinct other flow cell listed bumped.1)
  refine ⟨⟨fun other cell listed => ?_, fun one other cell first second => ?_, fun other cell listed => ?_⟩,
    fun op held => ?_, fun entry _ timely other target epoch bound => ?_⟩
  · rw [revoke_flow_length]
    exact ok.allocated other cell (kept other cell listed).2
  · exact ok.distinct one other cell (kept one cell first).2 (kept other cell second).2
  · obtain ⟨differs, listed⟩ := kept other cell listed
    exact (unbumped other cell differs listed).trans (ok.unrevoked other cell listed)
  · cases op with
    | mintRead holder target rights cell =>
      refine ⟨by rw [revoke_flow_length]; exact held.1, ?_⟩
      rcases held.2 with current | old
      · by_cases same : target = flow
        · -- The mint now holds the revoked cell.
          subst same
          refine Or.inr ?_
          rw [revoke_flow_epoch, if_pos ⟨current, held.1⟩, ok.unrevoked target cell current]
          decide
        · exact Or.inl (by rw [revoke_flow_lookup, if_neg same]; exact current)
      · refine Or.inr ?_
        rw [revoke_flow_epoch]
        split
        · rename_i bumped
          exact absurd (ok.unrevoked flow cell bumped.1) old
        · exact old
    | _ => trivial
  · by_cases same : other = flow
    · simp [revoke_flow_lookup, same] at bound
    · rw [revoke_flow_lookup, if_neg same] at bound
      have count : (table.revokeFlow flow).generation other = table.generation other := by
        change (flow :: table.revocations).count other = table.revocations.count other
        exact List.count_cons_of_ne (fun eq => same eq.symm)
      rw [count]
      exact timely other target epoch bound

end Revoke

section Insert

variable {table : CapTable} {clean : Capability → Prop}

theorem insert_cases (entry : Capability) (draws : CapDraws) :
    (table.insert entry draws).1 = table ∨
      ∃ id, (table.insert entry draws).1 = { table with entries := (id, entry) :: table.entries } := by
  unfold CapTable.insert
  cases inserted : CapTable.insertFresh table.entries entry (draws.take MINT_ATTEMPTS) with
  | error e => exact Or.inl rfl
  | ok result =>
    obtain ⟨id, after⟩ := result
    exact Or.inr ⟨id, by rw [(CapTable.insert_fresh_ok inserted).1]⟩

theorem insert_advance (ok : CellsOk table) (entry : Capability) (draws : CapDraws) :
    Advance clean table (table.insert entry draws).1 := by
  rcases insert_cases entry draws with same | ⟨id, same⟩
  · rw [same]
    exact advance_refl ok
  · rw [same]
    exact advance_same ok rfl rfl rfl

theorem insert_rows (entry : Capability) (draws : CapDraws) :
    ∀ row ∈ (table.insert entry draws).1.entries, row ∈ table.entries ∨ row.2 = entry := by
  intro row member
  rcases insert_cases entry draws with same | ⟨id, same⟩
  · rw [same] at member
    exact Or.inl member
  · rw [same] at member
    rcases List.mem_cons.mp member with rfl | old
    · exact Or.inr rfl
    · exact Or.inl old

theorem advance_trans {middle after : CapTable} (first : Advance clean table middle)
    (second : Advance clean middle after) : Advance clean table after :=
  ⟨second.cells, fun op held => second.held op (first.held op held),
    fun entry isClean timely => second.timely entry isClean (first.timely entry isClean timely)⟩

end Insert

section Reply

variable {table : CapTable} {target : FlowId}

abbrev Unused (table : CapTable) (target : FlowId) (entry : Capability) : Prop :=
  table.flowCells.lookup target = none → entry.cap.target = .flow target → entry.cap.epoch ≠ 0

theorem insert_generation (entry : Capability) (draws : CapDraws) (flow : FlowId) :
    (table.insert entry draws).1.generation flow = table.generation flow := by
  rcases insert_cases entry draws with same | ⟨id, same⟩
  · rw [same]
  · rw [same]
    rfl

theorem mint_reply_rows (holder : FlowId) (rights : CapRights) (draws : CapDraws) :
    ∀ row ∈ (table.mintReply holder target rights draws).1.entries,
      row ∈ table.entries ∨ Timely (table.mintReply holder target rights draws).1 row.2 := by
  intro row member
  rcases insert_rows _ draws row member with old | fresh
  · change row ∈ (table.bindFlow target).1.entries at old
    rw [bind_flow_entries] at old
    exact Or.inl old
  · refine Or.inr fun flow isTarget _ _ => ?_
    rw [fresh] at isTarget ⊢
    cases isTarget
    exact (insert_generation _ draws target).symm

theorem mint_or_reuse_advance (ok : CellsOk table) (holder : FlowId) (rights : CapRights) (draws : CapDraws) :
    Advance (Unused table target) table (table.mintOrReuse holder target rights draws).1 ∧
      ∀ row ∈ (table.mintOrReuse holder target rights draws).1.entries,
        row ∈ table.entries ∨ Timely (table.mintOrReuse holder target rights draws).1 row.2 := by
  unfold CapTable.mintOrReuse
  cases table.replyCap holder target rights with
  | some id => exact ⟨advance_refl ok, fun row member => Or.inl member⟩
  | none =>
    dsimp only
    generalize indexed : ({ table with replyIndex := table.replyIndex.filter (·.1 ≠ (holder, target)) } : CapTable) = dropped
    have sameCells : dropped.flowCells = table.flowCells := by rw [← indexed]
    have sameEntries : dropped.entries = table.entries := by rw [← indexed]
    have dropping : Advance (Unused table target) table dropped := by
      rw [← indexed]
      exact advance_same ok rfl rfl rfl
    have bound := @bind_flow_advance dropped target dropping.cells
    have minted : Advance (Unused dropped target) dropped (dropped.mintReply holder target rights draws).1 :=
      advance_trans bound (insert_advance bound.cells _ draws)
    have rows := @mint_reply_rows dropped target holder rights draws
    rw [sameEntries] at rows
    have unused : Unused dropped target = Unused table target := by
      funext entry
      simp only [Unused, sameCells]
    rw [unused] at minted
    have whole := advance_trans dropping minted
    revert rows whole
    rcases dropped.mintReply holder target rights draws with ⟨after, e | id⟩
    · exact fun rows whole => ⟨whole, rows⟩
    · exact fun rows whole => ⟨advance_trans whole (advance_same whole.cells rfl rfl rfl), rows⟩

end Reply

section Steps

variable {race : CapRace}

theorem safe_advance (safe : Safe race) (index : Nat) (table : CapTable) (op : CapOp) (clean : Capability → Prop)
    (advance : Advance clean race.table table) (cleanRows : ∀ row ∈ race.table.entries, clean row.2)
    (cleanOps : ∀ other ∈ race.ops, ∀ entry, other.carried = some entry → clean entry)
    (rows : ∀ row ∈ table.entries, row ∈ race.table.entries ∨ Timely table row.2) (held : HoldsCell table op)
    (carried : ∀ entry, op.carried = some entry → Timely table entry) : Safe ⟨table, race.ops.set index op⟩ := by
  refine ⟨advance.cells, fun other member => ?_, fun row member => ?_, fun other member entry isCarried => ?_⟩
  · rcases List.mem_or_eq_of_mem_set member with old | rfl
    · exact advance.held other (safe.held other old)
    · exact held
  · rcases rows row member with old | timely
    · exact advance.timely row.2 (cleanRows row old) (safe.entries row old)
    · exact timely
  · rcases List.mem_or_eq_of_mem_set member with old | rfl
    · exact advance.timely entry (cleanOps other old entry isCarried) (safe.carried other old entry isCarried)
    · exact carried entry isCarried

theorem safe_read (safe : Safe race) (index : Nat) (op : CapOp) (held : HoldsCell race.table op)
    (carried : ∀ entry, op.carried = some entry → Timely race.table entry) :
    Safe ⟨race.table, race.ops.set index op⟩ :=
  safe_advance safe index race.table op (fun _ => True) (advance_refl safe.cells) (fun _ _ => trivial)
    (fun _ _ _ _ => trivial) (fun _ member => Or.inl member) held carried

theorem safe_done (safe : Safe race) (index : Nat) : Safe ⟨race.table, race.ops.set index .done⟩ :=
  safe_read safe index .done trivial fun _ none => by cases none

theorem timely_lookup (safe : Safe race) (id : CapId) (entry : Capability) (found : race.table.lookup id = some entry) :
    Timely race.table entry := by
  unfold CapTable.lookup at found
  split at found
  · cases found
  · exact safe.entries (id, entry) (mem_of_lookup found)

theorem exec_delegate_ok {src narrowed : Cap} {cell : UInt64} {wantRights : CapRights} {wantNative : Option NativeMask}
    (delegated : execDelegate src cell wantRights wantNative = .ok narrowed) :
    narrowed = src.attenuate wantRights wantNative := by
  unfold execDelegate at delegated
  split at delegated
  · cases delegated
  split at delegated
  · cases delegated
  · cases delegated
    rfl

abbrev CleanFor (race : CapRace) (flow : FlowId) : Prop :=
  (∀ row ∈ race.table.entries, Unused race.table flow row.2) ∧
    ∀ other ∈ race.ops, ∀ entry, other.carried = some entry → Unused race.table flow entry

theorem safe_bind (safe : Safe race) (index : Nat) (flow : FlowId) (op : CapOp) (clean : CleanFor race flow)
    (held : HoldsCell (race.table.bindFlow flow).1 op) (carries : op.carried = none) :
    Safe ⟨(race.table.bindFlow flow).1, race.ops.set index op⟩ := by
  refine safe_advance safe index _ op _ (bind_flow_advance safe.cells) clean.1 clean.2 (fun row member => ?_) held
    fun entry isCarried => ?_
  · rw [bind_flow_entries] at member
    exact Or.inl member
  · rw [carries] at isCarried
    cases isCarried

theorem safe_call (safe : Safe race) (index : Nat) (call : CapCall) (draws : CapDraws)
    (clean : ∀ flow, (CapOp.start call).binds = some flow → CleanFor race flow) :
    Safe ⟨((CapOp.start call).step race.table draws).1, race.ops.set index ((CapOp.start call).step race.table draws).2⟩ := by
  cases call with
  | bindFlow flow => exact safe_bind safe index flow .done (clean flow rfl) trivial rfl
  | mint holder target rights =>
    obtain ⟨bound, allocated⟩ := @bind_flow_cell race.table target safe.cells
    exact safe_bind safe index target (.mintRead holder target rights _) (clean target rfl)
      ⟨allocated, Or.inl bound⟩ rfl
  | mintOrReuse holder target rights =>
    obtain ⟨advance, rows⟩ := @mint_or_reuse_advance race.table target safe.cells holder rights draws
    exact safe_advance safe index _ .done _ advance (clean target rfl).1 (clean target rfl).2 rows trivial
      fun _ none => by cases none
  | attenuate id fromHolder toHolder wantRights wantNative =>
    simp only [CapOp.step]
    cases resolved : race.table.resolve id fromHolder .NONE with
    | error e => exact safe_done safe index
    | ok src =>
      refine safe_read safe index _ trivial fun entry isCarried => ?_
      cases isCarried
      exact timely_lookup safe id src ((CapTable.resolve_ok_iff _ _ _ _).mp resolved).1
  | delegate id fromHolder toHolder =>
    simp only [CapOp.step]
    cases race.table.resolve id fromHolder .NONE with
    | error e => exact safe_done safe index
    | ok src => exact safe_read safe index _ trivial fun _ none => by cases none
  | reissueFor id newHolder =>
    simp only [CapOp.step]
    cases found : race.table.lookup id with
    | none => exact safe_done safe index
    | some entry =>
      refine safe_read safe index _ trivial fun other isCarried => ?_
      cases isCarried
      exact timely_lookup safe id entry found
  | resolve id holder required => exact safe_done safe index
  | revokeFlow flow =>
    refine safe_advance safe index _ .done _ (revoke_flow_advance safe.cells) (fun _ _ => trivial)
      (fun _ _ _ _ => trivial) (fun row member => Or.inl ?_) trivial fun _ none => by cases none
    exact (List.mem_filter.mp member).1

theorem safe_op (safe : Safe race) (index : Nat) (op : CapOp) (draws : CapDraws) (member : op ∈ race.ops)
    (clean : ∀ flow, op.binds = some flow → CleanFor race flow) :
    Safe ⟨(op.step race.table draws).1, race.ops.set index (op.step race.table draws).2⟩ := by
  have carried := safe.carried op member
  cases op with
  | start call => exact safe_call safe index call draws clean
  | mintRead holder target rights cell =>
    refine safe_read safe index _ trivial fun entry isCarried flow isTarget _ _ => ?_
    cases isCarried
    cases isTarget
    rfl
  | attenuateCell src toHolder wantRights wantNative =>
    have kept : ∀ cell, Safe ⟨race.table, race.ops.set index (.attenuateCheck src cell toHolder wantRights wantNative)⟩ :=
      fun cell => safe_read safe index _ trivial carried
    simp only [CapOp.step]
    cases src.cap.target with
    | nativeTable | scheduler => exact safe_done safe index
    | flow id =>
      dsimp only
      cases race.table.cellOf (.flow id) with
      | none => exact safe_done safe index
      | some cell => exact kept cell
    | table id =>
      dsimp only
      cases race.table.cellOf (.table id) with
      | none => exact safe_done safe index
      | some cell => exact kept cell
  | attenuateCheck src cell toHolder wantRights wantNative =>
    simp only [CapOp.step]
    cases narrowed : execDelegate src.cap (race.table.epoch cell) wantRights wantNative with
    | error e => exact safe_done safe index
    | ok cap =>
      refine safe_read safe index _ trivial fun entry isCarried => ?_
      cases isCarried
      rw [exec_delegate_ok narrowed]
      exact carried src rfl
  | attenuateRecheck narrowed cell =>
    simp only [CapOp.step]
    split
    · exact safe_read safe index _ trivial carried
    · exact safe_done safe index
  | reissueCheck entry newHolder =>
    simp only [CapOp.step]
    split
    · refine safe_read safe index _ trivial fun other isCarried => ?_
      cases isCarried
      exact carried entry rfl
    · exact safe_done safe index
  | insert entry =>
    have inserted : Advance (fun _ => True) race.table (race.table.insert entry draws).1 :=
      insert_advance safe.cells entry draws
    refine safe_advance safe index _ .done _ inserted (fun _ _ => trivial) (fun _ _ _ _ => trivial)
      (fun row isRow => ?_) trivial fun _ none => by cases none
    refine (insert_rows entry draws row isRow).imp id fun same => ?_
    rw [same]
    exact inserted.timely entry trivial (carried entry rfl)
  | done => exact safe_done safe index

theorem safe_step (safe : Safe race) (event : CapEvent) (clean : CleanCreation race event) (after : CapRace)
    (stepped : next race event = some after) : Safe after := by
  cases event with
  | call call =>
    cases stepped
    refine ⟨safe.cells, fun op member => ?_, safe.entries, fun op member entry isCarried => ?_⟩
    · rcases List.mem_append.mp member with old | new
      · exact safe.held op old
      · rw [List.mem_singleton.mp new]
        trivial
    · rcases List.mem_append.mp member with old | new
      · exact safe.carried op old entry isCarried
      · rw [List.mem_singleton.mp new] at isCarried
        cases isCarried
  | step index draws =>
    simp only [next] at stepped
    cases found : race.ops[index]? with
    | none => simp [found] at stepped
    | some op =>
      have member : op ∈ race.ops := List.mem_of_getElem? found
      have stepped : some (CapRace.mk (op.step race.table draws).1 (race.ops.set index (op.step race.table draws).2)) =
          some after := by
        cases op <;> first | simpa only [found] using stepped | simp [found] at stepped
      have same := Option.some.inj stepped
      subst same
      refine safe_op safe index op draws member fun flow binds =>
        ⟨fun row isRow unbound => ?_, fun other isOp entry isCarried unbound => ?_⟩
      · exact (clean op found flow binds unbound).1 row isRow
      · exact (clean op found flow binds unbound).2 other isOp entry isCarried

end Steps

theorem initial_safe : Safe initial := by
  refine ⟨⟨fun _ _ none => ?_, fun _ _ _ none => ?_, fun _ _ none => ?_⟩, fun _ none => ?_, fun _ none => ?_,
    fun _ none => ?_⟩
  all_goals cases none

-- born counts the revocations of the target before the read an entry derives
-- from, so an entry read before the last one is older than generation.
theorem revoked_never_resolves (race : CapRace) (reached : Reach next CleanCreation initial race) (id : CapId)
    (holder : FlowId) (required : CapRights) (entry : Capability)
    (resolved : race.table.resolve id holder required = .ok entry) (flow : FlowId)
    (target : entry.cap.target = .flow flow) : ¬ entry.born < race.table.generation flow := by
  have safe : Safe race := reach_invariant initial_safe
    (fun before event after safe clean stepped => safe_step safe event clean after stepped) reached
  obtain ⟨found, _, _, live⟩ := (CapTable.resolve_ok_iff _ _ _ _).mp resolved
  simp only [CapTable.isLive, CapTable.cellOf, target] at live
  cases bound : race.table.flowCells.lookup flow with
  | none =>
    rw [bound] at live
    cases live
  | some cell =>
    simp only [bound, Cap.isValid, safe.cells.unrevoked flow cell bound, beq_iff_eq] at live
    have timely := timely_lookup safe id entry found flow target live (by rw [bound]; rfl)
    rw [timely]
    exact Nat.lt_irrefl _

def renewalEvents : List CapEvent :=
  [.call (.mint 1 7 .SEND), .step 0 [], .step 0 [], .step 0 [.ok ⟨5⟩], .call (.revokeFlow 7), .step 1 [],
    .call (.mint 2 7 .SEND), .step 2 [], .step 2 [], .step 2 [.ok ⟨6⟩]]

theorem renewed_cell_is_fresh : ∃ race, Reach next CleanCreation initial race ∧
    ∃ entry, race.table.resolve ⟨6⟩ 2 .SEND = .ok entry ∧ ¬ entry.born < race.table.generation 7 := by
  obtain ⟨race, played, entry, resolved, target⟩ : ∃ race, play next initial renewalEvents = some race ∧
      ∃ entry, race.table.resolve ⟨6⟩ 2 .SEND = .ok entry ∧ entry.cap.target = .flow 7 := ⟨_, rfl, _, rfl, rfl⟩
  have reached : Reach next CleanCreation initial race :=
    reach_of_play renewalEvents initial (by decide) played
  exact ⟨race, reached, entry, resolved, revoked_never_resolves race reached ⟨6⟩ 2 .SEND entry resolved 7 target⟩

-- A mint reads the epoch of flow 7's cell before the revocation and inserts
-- after it; another mint makes a new cell, which shows the same epoch.
def revivalEvents : List CapEvent :=
  [.call (.mint 1 7 .SEND), .step 0 [], .step 0 [], .call (.revokeFlow 7), .step 1 [], .step 0 [.ok ⟨5⟩],
    .call (.mint 2 7 .SEND), .step 2 []]

theorem revoked_token_revives : ∃ race, Reach next (fun _ _ => True) initial race ∧
    ∃ entry, race.table.resolve ⟨5⟩ 1 .SEND = .ok entry ∧ entry.cap.target = .flow 7 ∧
      entry.born < race.table.generation 7 := by
  obtain ⟨race, played, found⟩ : ∃ race, play next initial revivalEvents = some race ∧
      ∃ entry, race.table.resolve ⟨5⟩ 1 .SEND = .ok entry ∧ entry.cap.target = .flow 7 ∧
        entry.born < race.table.generation 7 := ⟨_, rfl, _, rfl, rfl, by decide⟩
  exact ⟨race, reach_of_play revivalEvents initial (all_meet_of_forall (fun _ _ => trivial) _ _) played, found⟩

end CapRace

end Byteflow
