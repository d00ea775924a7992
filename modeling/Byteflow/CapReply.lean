import Byteflow.CapDerive

namespace Byteflow

open Assoc

namespace CapTable

def heldCells (table : CapTable) : List CellRef :=
  table.flowCells.map Prod.snd ++ (table.tableCells.map Prod.snd ++ [table.nativeCell, table.schedulerCell])

-- No two targets share a cell, so a revocation bumps one epoch.
structure CellsApart (table : CapTable) : Prop where
  allocated : ∀ cell ∈ table.heldCells, cell < table.cells.length
  distinct : table.heldCells.Nodup

-- What an operation on other flows leaves of the pair (holder, target).
structure Keeps (holder target : FlowId) (before after : CapTable) : Prop where
  entries : ∀ id entry, before.entries.lookup id = some entry → entry.holder = holder → entry.cap.target = .flow target →
    after.entries.lookup id = some entry
  cell : ∀ cell, before.flowCells.lookup target = some cell →
    after.flowCells.lookup target = some cell ∧ after.epoch cell = before.epoch cell

-- What the operations that hand out an entry do to the table: nothing, or one row more.
def AddsRow (table after : CapTable) : Prop := after = table ∨ ∃ entry draws id, Inserted table entry draws id after

theorem insert_adds (table : CapTable) (entry : Capability) (draws : CapDraws) : AddsRow table (table.insert entry draws).1 := by
  rcases insert_spec table entry draws with ⟨e, failed⟩ | ⟨id, after, done, inserted⟩
  · rw [failed]
    exact .inl rfl
  · rw [done]
    exact .inr ⟨entry, draws, id, inserted⟩

theorem derives_adds {table : CapTable} {id : CapId} {toHolder : FlowId} {draws : CapDraws} {allowed : Capability → Prop}
    {result : CapTable × Except CapError CapId} (derives : Derives table id toHolder draws allowed result) :
    AddsRow table result.1 := by
  cases derives with
  | refused e => exact .inl rfl
  | derived src wantRights wantNative new after found held inserted => exact .inr ⟨_, draws, new, inserted⟩

section Apart

variable {table : CapTable} {after : CapTable} {cell : CellRef} {flow : FlowId}

theorem flow_cell_held (found : table.flowCells.lookup flow = some cell) : cell ∈ table.heldCells :=
  List.mem_append_left _ (List.mem_map_of_mem (mem_of_lookup found))

variable (apart : CellsApart table)

include apart

theorem flow_cells_differ {other : FlowId}
    (found : table.flowCells.lookup flow = some cell) (listed : table.flowCells.lookup other = some cell) : flow = other := by
  have distinct : (table.flowCells.map Prod.snd).Nodup := (List.nodup_append.mp apart.distinct).1
  have same := List.inj_on_of_nodup_map distinct (mem_of_lookup found) (mem_of_lookup listed) rfl
  exact congrArg Prod.fst same

theorem other_cell_differs {other : CellRef} {target : CapTarget}
    (found : table.flowCells.lookup flow = some cell) (apartTarget : target ≠ .flow flow)
    (listed : table.cellOf target = some other) : other ≠ cell := by
  have flows := List.mem_map_of_mem (mem_of_lookup found) (f := Prod.snd)
  have differ := (List.nodup_append.mp apart.distinct).2.2 cell flows
  rintro rfl
  cases target with
  | flow named => exact apartTarget (congrArg CapTarget.flow (flow_cells_differ apart listed found))
  | nativeTable | scheduler => exact differ _ (List.mem_append_right _ (by simp)) (Option.some.inj listed).symm
  | table id => exact differ _ (List.mem_append_left _ (List.mem_map_of_mem (mem_of_lookup listed))) rfl

theorem cells_apart_sublist (fewer : after.heldCells.Sublist table.heldCells)
    (length : after.cells.length = table.cells.length) : CellsApart after :=
  ⟨fun cell member => length ▸ apart.allocated cell (fewer.subset member), fewer.nodup apart.distinct⟩

theorem cells_apart_new {rest : List CellRef}
    (held : after.heldCells.Perm (table.cells.length :: rest)) (fewer : rest.Sublist table.heldCells)
    (length : after.cells.length = table.cells.length + 1) : CellsApart after := by
  have old : ∀ cell ∈ rest, cell < table.cells.length := fun cell member => apart.allocated cell (fewer.subset member)
  refine ⟨fun cell member => ?_, held.nodup_iff.mpr (List.nodup_cons.mpr ⟨fun fresh => ?_, fewer.nodup apart.distinct⟩)⟩
  · rw [length]
    rcases List.mem_cons.mp (held.mem_iff.mp member) with rfl | there
    · exact Nat.lt_succ_self _
    · exact Nat.lt_succ_of_lt (old cell there)
  · exact absurd (old _ fresh) (Nat.lt_irrefl _)

omit apart in
theorem revoke_cell_length (cell : Option CellRef) : (table.revokeCell cell).cells.length = table.cells.length := by
  cases cell with
  | none => rfl
  | some cell => exact List.length_modify ..

omit apart in
theorem revoke_cell_epoch {bumped : Option CellRef} (other : bumped ≠ some cell) :
    (table.revokeCell bumped).epoch cell = table.epoch cell := by
  cases bumped with
  | none => rfl
  | some bumped =>
    have differs : bumped ≠ cell := fun same => other (congrArg some same)
    simp [revokeCell, epoch, List.getD_eq_getElem?_getD, differs]

theorem bind_flow_apart (flow : FlowId) : CellsApart (table.bindFlow flow).1 := by
  unfold bindFlow
  cases table.flowCells.lookup flow with
  | some cell => exact apart
  | none => exact cells_apart_new apart (.refl _) (.refl _) (List.length_append ..)

theorem bind_table_apart (id : UInt64) : CellsApart (table.bindTable id) :=
  cells_apart_new apart List.perm_middle (((List.filter_sublist.map _).append_right _).append_left _) (List.length_append ..)

theorem adds_apart (adds : AddsRow table after) : CellsApart after := by
  obtain rfl | ⟨entry, draws, id, inserted⟩ := adds
  · exact apart
  · rw [inserted.grown]
    exact ⟨apart.allocated, apart.distinct⟩

omit apart in
theorem revoke_table_flow_cells (id : UInt64) : (table.revokeTable id).flowCells = table.flowCells := by
  unfold revokeTable revokeCell
  cases table.tableCells.lookup id <;> rfl

theorem revoke_table_apart (id : UInt64) : CellsApart (table.revokeTable id) := by
  have length : (table.revokeTable id).cells.length = table.cells.length := revoke_cell_length (table.tableCells.lookup id)
  apply cells_apart_sublist apart _ length
  unfold heldCells revokeTable revokeCell
  cases table.tableCells.lookup id <;> exact ((List.filter_sublist.map _).append_right _).append_left _

theorem revoke_flow_apart (flow : FlowId) : CellsApart (table.revokeFlow flow) := by
  apply cells_apart_sublist apart _ CapRace.revoke_flow_length
  unfold heldCells revokeFlow revokeCell
  cases table.flowCells.lookup flow <;> exact (List.filter_sublist.map _).append_right _

end Apart

section Keeps

variable {table middle after : CapTable} {holder target : FlowId}

theorem keeps_refl : Keeps holder target table table := ⟨fun _ _ found _ _ => found, fun _ found => ⟨found, rfl⟩⟩

theorem keeps_trans (first : Keeps holder target table middle) (second : Keeps holder target middle after) :
    Keeps holder target table after := by
  refine ⟨fun id entry found held aimed => second.entries id entry (first.entries id entry found held aimed) held aimed,
    fun cell found => ?_⟩
  obtain ⟨bound, same⟩ := first.cell cell found
  obtain ⟨kept, again⟩ := second.cell cell bound
  exact ⟨kept, again.trans same⟩

theorem keeps_index (index : List ((FlowId × FlowId) × CapId)) : Keeps holder target table { table with replyIndex := index } :=
  ⟨fun _ _ found _ _ => found, fun _ found => ⟨found, rfl⟩⟩

variable (apart : CellsApart table)

include apart

theorem keeps_bind_flow (flow : FlowId) : Keeps holder target table (table.bindFlow flow).1 := by
  unfold bindFlow
  cases found : table.flowCells.lookup flow with
  | some cell => exact keeps_refl
  | none =>
    refine ⟨fun _ _ listed _ _ => listed, fun cell bound => ⟨?_, ?_⟩⟩
    · rw [lookup_cons, if_neg]
      · exact bound
      · rintro rfl
        rw [found] at bound
        cases bound
    · exact CapRace.epoch_append cell (apart.allocated cell (flow_cell_held bound))

theorem keeps_bind_table (id : UInt64) : Keeps holder target table (table.bindTable id) :=
  ⟨fun _ _ listed _ _ => listed, fun cell bound =>
    ⟨bound, CapRace.epoch_append cell (apart.allocated cell (flow_cell_held bound))⟩⟩

omit apart in
theorem keeps_adds (adds : AddsRow table after) : Keeps holder target table after := by
  obtain rfl | ⟨entry, draws, id, rfl, free, _, _⟩ := adds
  · exact keeps_refl
  refine ⟨fun other row found _ _ => ?_, fun cell found => ⟨found, rfl⟩⟩
  rw [lookup_cons, if_neg]
  · exact found
  · rintro rfl
    rw [free] at found
    cases found

theorem keeps_revoke_table (id : UInt64) : Keeps holder target table (table.revokeTable id) := by
  refine ⟨fun other entry found _ aimed => ?_, fun cell found => ⟨(revoke_table_flow_cells id).symm ▸ found, ?_⟩⟩
  · refine lookup_filter_found (fun entry => decide (entry.cap.target ≠ .table id)) found (decide_eq_true ?_)
    rw [aimed]
    exact nofun
  · refine revoke_cell_epoch fun bumped => ?_
    have listed : table.cellOf (.table id) = some cell := bumped
    have differs : CapTarget.table id ≠ .flow target := nofun
    exact other_cell_differs apart found differs listed rfl

theorem keeps_revoke_flow {flow : FlowId} (otherHolder : flow ≠ holder) (otherTarget : flow ≠ target) :
    Keeps holder target table (table.revokeFlow flow) := by
  refine ⟨fun id entry found held aimed => ?_, fun cell found => ⟨?_, ?_⟩⟩
  · refine lookup_filter_found (fun entry => decide (entry.holder ≠ flow ∧ entry.cap.target ≠ .flow flow)) found
      (decide_eq_true ?_)
    rw [held, aimed]
    exact ⟨otherHolder.symm, fun same => otherTarget (CapTarget.flow.inj same).symm⟩
  · rw [CapRace.revoke_flow_lookup, if_neg otherTarget.symm]
    exact found
  · refine revoke_cell_epoch fun bumped => ?_
    exact otherTarget (flow_cells_differ apart bumped found)

end Keeps

section Reply

variable {table : CapTable} {holder target : FlowId} {rights : CapRights} {draws : CapDraws}

def Backed (table : CapTable) (row : (FlowId × FlowId) × CapId) : Prop :=
  ∃ entry, table.lookup row.2 = some entry ∧ entry.holder = row.1.1 ∧ entry.cap.target = .flow row.1.2

theorem backed_kept {after : CapTable} {row : (FlowId × FlowId) × CapId} (backed : Backed table row)
    (keeps : Keeps row.1.1 row.1.2 table after) : Backed after row := by
  obtain ⟨entry, found, held, aimed⟩ := backed
  obtain ⟨some_, listed, _⟩ := lookup_mem found
  refine ⟨entry, ?_, held, aimed⟩
  rw [lookup, if_neg some_]
  exact keeps.entries row.2 entry listed held aimed

theorem reply_cap_kept {after : CapTable} {id : CapId} (reply : table.replyCap holder target rights = some id)
    (keeps : Keeps holder target table after)
    (index : after.replyIndex.lookup (holder, target) = table.replyIndex.lookup (holder, target)) :
    after.replyCap holder target rights = some id := by
  obtain ⟨listed, entry, found, held, aimed, contains, valid⟩ := (reply_cap_iff holder target rights id).mp reply
  obtain ⟨cell, bound, epoch⟩ := (is_live_iff entry.cap).mp valid
  rw [aimed] at bound
  obtain ⟨kept, same⟩ := keeps.cell cell bound
  refine (reply_cap_iff holder target rights id).mpr ⟨index.trans listed, entry, keeps.entries id entry found held aimed, held,
    aimed, contains, (is_live_iff entry.cap).mpr ⟨cell, ?_, ?_⟩⟩
  · rw [aimed]
    exact kept
  · exact epoch.trans same.symm

theorem bind_flow_index (flow : FlowId) : (table.bindFlow flow).1.replyIndex = table.replyIndex := by
  unfold bindFlow
  cases table.flowCells.lookup flow <;> rfl

theorem cleared_index : (table.cleared holder target).replyIndex = table.replyIndex.filter (·.1 ≠ (holder, target)) :=
  bind_flow_index target

variable (apart : CellsApart table)

include apart

theorem forgotten_apart : CellsApart (table.forgotten holder target) :=
  ⟨apart.allocated, apart.distinct⟩

theorem cleared_apart : CellsApart (table.cleared holder target) :=
  bind_flow_apart (forgotten_apart apart) target

theorem keeps_cleared {from_ to_ : FlowId} : Keeps from_ to_ table (table.cleared holder target) :=
  keeps_trans (keeps_index _) (keeps_bind_flow (forgotten_apart apart) target)

theorem mint_or_reuse_apart : CellsApart (table.mintOrReuse holder target rights draws).1 := by
  rcases mint_or_reuse_spec table holder target rights draws with ⟨id, _, reused⟩ | ⟨e, failed⟩ | ⟨id, after, inserted, minted⟩
  · rw [reused]
    exact apart
  · rw [failed]
    exact cleared_apart apart
  · rw [minted]
    have grown := adds_apart (cleared_apart apart) (.inr ⟨_, draws, id, inserted⟩)
    exact ⟨grown.allocated, grown.distinct⟩

theorem keeps_mint_or_reuse {from_ to_ : FlowId} :
    Keeps from_ to_ table (table.mintOrReuse holder target rights draws).1 := by
  rcases mint_or_reuse_spec table holder target rights draws with ⟨id, _, reused⟩ | ⟨e, failed⟩ | ⟨id, after, inserted, minted⟩
  · rw [reused]
    exact keeps_refl
  · rw [failed]
    exact keeps_cleared apart
  · rw [minted]
    exact keeps_trans (keeps_trans (keeps_cleared apart) (keeps_adds (.inr ⟨_, draws, id, inserted⟩))) (keeps_index _)

end Reply

end CapTable

namespace CapCommand

open CapTable

section Step

variable {table : CapTable} {holder target : FlowId} {draws : CapDraws} {rights : CapRights}

def addsRow : CapCommand → Bool
  | .grant .. | .attenuate .. | .delegate .. | .reissueFor .. => true
  | _ => false

theorem apply_adds {command : CapCommand} (isAdding : command.addsRow = true) : AddsRow table (apply table command) := by
  cases command with
  | grant entry draws => exact insert_adds table entry draws
  | attenuate id fromHolder toHolder wantRights wantNative draws =>
    exact derives_adds (attenuate_derives id fromHolder toHolder wantRights wantNative draws)
  | delegate id fromHolder toHolder draws => exact derives_adds (delegate_derives id fromHolder toHolder draws)
  | reissueFor id newHolder draws => exact derives_adds (reissue_for_derives id newHolder draws)
  | _ => cases isAdding

theorem apply_apart (apart : CellsApart table) (command : CapCommand) : CellsApart (apply table command) := by
  cases command with
  | bindFlow flow => exact bind_flow_apart apart flow
  | bindTable id => exact bind_table_apart apart id
  | mint from_ to_ rights draws => exact adds_apart (bind_flow_apart apart to_) (insert_adds _ _ draws)
  | mintOrReuse from_ to_ rights draws => exact mint_or_reuse_apart apart
  | revokeTable id => exact revoke_table_apart apart id
  | revokeFlow flow => exact revoke_flow_apart apart flow
  | _ => exact adds_apart apart (apply_adds rfl)

theorem apply_keeps (apart : CellsApart table) (command : CapCommand)
    (calm : ∀ flow, command = .revokeFlow flow → flow ≠ holder ∧ flow ≠ target) :
    Keeps holder target table (apply table command) := by
  cases command with
  | bindFlow flow => exact keeps_bind_flow apart flow
  | bindTable id => exact keeps_bind_table apart id
  | mint from_ to_ rights draws => exact keeps_trans (keeps_bind_flow apart to_) (keeps_adds (insert_adds _ _ draws))
  | mintOrReuse from_ to_ rights draws => exact keeps_mint_or_reuse apart
  | revokeTable id => exact keeps_revoke_table apart id
  | revokeFlow flow => exact keeps_revoke_flow apart (calm flow rfl).1 (calm flow rfl).2
  | _ => exact keeps_adds (apply_adds rfl)

theorem adds_index {after : CapTable} (adds : AddsRow table after) : after.replyIndex = table.replyIndex := by
  obtain rfl | ⟨entry, draws, id, inserted⟩ := adds
  · rfl
  · rw [inserted.grown]

theorem revoke_cell_index (cell : Option CellRef) : (table.revokeCell cell).replyIndex = table.replyIndex := by
  cases cell <;> rfl

theorem apply_index (command : CapCommand) : (apply table command).replyIndex = match command with
    | .mintOrReuse from_ to_ rights draws => (table.mintOrReuse from_ to_ rights draws).1.replyIndex
    | .revokeFlow flow => table.replyIndex.filter fun row => row.1.1 ≠ flow ∧ row.1.2 ≠ flow
    | _ => table.replyIndex := by
  cases command with
  | bindFlow flow => exact bind_flow_index flow
  | mint from_ to_ rights draws => exact (adds_index (insert_adds _ _ draws)).trans (bind_flow_index to_)
  | revokeTable id => exact revoke_cell_index _
  | bindTable id | mintOrReuse from_ to_ rights draws | revokeFlow flow => rfl
  | _ => exact adds_index (apply_adds rfl)

variable (apart : CellsApart table)

include apart

theorem mint_or_reuse_rows (backed : ∀ row ∈ table.replyIndex, Backed table row) :
    ∀ row ∈ (table.mintOrReuse holder target rights draws).1.replyIndex,
      Backed (table.mintOrReuse holder target rights draws).1 row := by
  intro row member
  have kept : row ∈ table.replyIndex → Backed (table.mintOrReuse holder target rights draws).1 row := fun old =>
    backed_kept (backed row old) (keeps_mint_or_reuse apart)
  rcases mint_or_reuse_spec table holder target rights draws with ⟨id, _, reused⟩ | ⟨e, failed⟩ | ⟨id, after, inserted, minted⟩
  · rw [reused] at member
    exact kept member
  · rw [failed, cleared_index] at member
    exact kept (List.mem_of_mem_filter member)
  · rw [minted] at member
    rcases List.mem_cons.mp member with rfl | old
    · rw [minted]
      refine ⟨table.replyEntry holder target rights, ?_, rfl, rfl⟩
      rw [lookup, if_neg inserted.some_, inserted.grown]
      exact List.lookup_cons_self
    · rw [inserted.grown, cleared_index] at old
      exact kept (List.mem_of_mem_filter old)

theorem apply_rows (backed : ∀ row ∈ table.replyIndex, Backed table row) (command : CapCommand) :
    ∀ row ∈ (apply table command).replyIndex, Backed (apply table command) row := by
  intro row member
  have index : (apply table command).replyIndex = _ := apply_index command
  cases command with
  | mintOrReuse from_ to_ rights draws => exact mint_or_reuse_rows apart backed row member
  | revokeFlow flow =>
    rw [index] at member
    obtain ⟨old, other⟩ := List.mem_filter.mp member
    obtain ⟨otherHolder, otherTarget⟩ := of_decide_eq_true other
    exact backed_kept (backed row old) (keeps_revoke_flow apart (Ne.symm otherHolder) (Ne.symm otherTarget))
  | _ =>
    rw [index] at member
    exact backed_kept (backed row member) (apply_keeps apart _ nofun)

omit apart in
def LeavesAlone (holder target : FlowId) (rights : CapRights) : CapCommand → Prop
  | .revokeFlow flow => flow ≠ holder ∧ flow ≠ target
  | .mintOrReuse from_ to_ other _ => (from_, to_) = (holder, target) → other = rights
  | _ => True

omit apart in
theorem mint_or_reuse_index {from_ to_ : FlowId} (other : (from_, to_) ≠ (holder, target)) :
    (table.mintOrReuse from_ to_ rights draws).1.replyIndex.lookup (holder, target) =
      table.replyIndex.lookup (holder, target) := by
  have filtered : (table.replyIndex.filter (·.1 ≠ (from_, to_))).lookup (holder, target) =
      table.replyIndex.lookup (holder, target) :=
    lookup_filter_key (fun key => decide (key ≠ (from_, to_))) (decide_eq_true other.symm) table.replyIndex
  rcases mint_or_reuse_spec table from_ to_ rights draws with ⟨id, _, reused⟩ | ⟨e, failed⟩ | ⟨id, after, inserted, minted⟩
  · rw [reused]
  · rw [failed, cleared_index]
    exact filtered
  · rw [minted, inserted.grown]
    dsimp only
    rw [List.lookup_cons, beq_false_of_ne other.symm, cleared_index]
    exact filtered

theorem apply_replies {id : CapId} (reply : table.replyCap holder target rights = some id) (command : CapCommand)
    (alone : command.LeavesAlone holder target rights) : (apply table command).replyCap holder target rights = some id := by
  have index : (apply table command).replyIndex = _ := apply_index command
  cases command with
  | mintOrReuse from_ to_ other draws =>
    by_cases same : (from_, to_) = (holder, target)
    · obtain ⟨rfl, rfl⟩ := Prod.mk.inj same
      obtain rfl := alone rfl
      rw [apply, CapTable.mintOrReuse, reply]
      exact reply
    · exact reply_cap_kept reply (keeps_mint_or_reuse apart) (mint_or_reuse_index same)
  | revokeFlow flow =>
    refine reply_cap_kept reply (keeps_revoke_flow apart alone.1 alone.2) ?_
    have kept : decide (holder ≠ flow ∧ target ≠ flow) = true := decide_eq_true ⟨alone.1.symm, alone.2.symm⟩
    rw [index]
    exact lookup_filter_key (fun key : FlowId × FlowId => decide (key.1 ≠ flow ∧ key.2 ≠ flow)) kept table.replyIndex
  | _ => exact reply_cap_kept reply (apply_keeps apart _ fun _ same => by cases same) (congrArg _ index)

end Step

structure Coherent (table : CapTable) : Prop where
  apart : CellsApart table
  rows : ∀ row ∈ table.replyIndex, Backed table row

theorem run_coherent (commands : List CapCommand) : Coherent (run commands) := by
  induction commands using List.reverseRecOn with
  | nil => exact ⟨⟨by decide, by decide⟩, List.forall_mem_nil _⟩
  | append_singleton commands command ih =>
    rw [run_snoc]
    exact ⟨apply_apart ih.apart command, apply_rows ih.apart ih.rows command⟩

theorem replies_stay {table : CapTable} {holder target : FlowId} {rights : CapRights} {id : CapId} (apart : CellsApart table)
    (reply : table.replyCap holder target rights = some id) (later : List CapCommand)
    (alone : ∀ command ∈ later, command.LeavesAlone holder target rights) :
    (later.foldl apply table).replyCap holder target rights = some id := by
  induction later generalizing table with
  | nil => exact reply
  | cons command rest ih =>
    exact ih (apply_apart apart command) (apply_replies apart reply command (alone command List.mem_cons_self))
      fun other member => alone other (List.mem_cons_of_mem command member)

theorem reply_resolves {table : CapTable} {holder target : FlowId} {rights : CapRights} {id : CapId} (coherent : Coherent table)
    (reply : table.replyCap holder target rights = some id) :
    ∃ entry, table.resolve id holder rights = .ok entry ∧ entry.cap.target = .flow target := by
  obtain ⟨listed, entry, found, held, aimed, contains, valid⟩ := (reply_cap_iff holder target rights id).mp reply
  have member : ((holder, target), id) ∈ table.replyIndex := by
    obtain ⟨before, after, rows, _⟩ := List.lookup_eq_some_iff.mp listed
    rw [rows]
    exact List.mem_append_right _ List.mem_cons_self
  obtain ⟨backing, looked, _⟩ := coherent.rows _ member
  have named : table.lookup id = some entry := by rw [lookup, if_neg (lookup_mem looked).1, found]
  exact ⟨entry, (resolve_ok_iff id holder rights entry).mpr ⟨named, held, contains, valid⟩, aimed⟩

theorem reply_caps_reused_soundly (commands : List CapCommand) :
    (∀ holder target id, ((holder, target), id) ∈ (run commands).replyIndex →
      ∃ entry, (run commands).entries.lookup id = some entry ∧ entry.holder = holder ∧ entry.cap.target = .flow target) ∧
    ∀ holder target rights draws id, ((run commands).mintOrReuse holder target rights draws).2 = .ok id →
      (∃ entry, ((run commands).mintOrReuse holder target rights draws).1.resolve id holder rights = .ok entry ∧
        entry.cap.target = .flow target) ∧
      ∀ later : List CapCommand, (∀ command ∈ later, command.LeavesAlone holder target rights) → ∀ again,
        ((run (commands ++ .mintOrReuse holder target rights draws :: later)).mintOrReuse holder target rights again).2 = .ok id := by
  have coherent := run_coherent commands
  refine ⟨fun holder target id member => ?_, fun holder target rights draws id done => ?_⟩
  · obtain ⟨entry, found, held, aimed⟩ := coherent.rows _ member
    exact ⟨entry, (lookup_mem found).2.1, held, aimed⟩
  · have reply := mint_or_reuse_replies done
    have apart : CellsApart ((run commands).mintOrReuse holder target rights draws).1 := mint_or_reuse_apart coherent.apart
    refine ⟨reply_resolves ⟨apart, mint_or_reuse_rows coherent.apart coherent.rows⟩ reply, fun later alone again => ?_⟩
    have stays := replies_stay apart reply later alone
    have reached : run (commands ++ .mintOrReuse holder target rights draws :: later) =
        later.foldl apply ((run commands).mintOrReuse holder target rights draws).1 := List.foldl_append ..
    rw [reached, CapTable.mintOrReuse, stays]

theorem second_reply_cap :
    (CapTable.new.mintOrReuse 1 2 .SEND [.ok ⟨9⟩]).2 = .ok ⟨9⟩ ∧
      ((run ([] ++ [.mintOrReuse 1 2 .SEND [.ok ⟨9⟩], .revokeFlow 3])).mintOrReuse 1 2 .SEND []).2 = .ok ⟨9⟩ := by
  have first : ((run []).mintOrReuse 1 2 .SEND [.ok ⟨9⟩]).2 = .ok ⟨9⟩ := by decide
  refine ⟨first, ((reply_caps_reused_soundly []).2 1 2 .SEND [.ok ⟨9⟩] ⟨9⟩ first).2 [.revokeFlow 3] ?_ []⟩
  intro command member
  rw [List.mem_singleton.mp member]
  exact ⟨by decide, by decide⟩

section Revocation

variable {table : CapTable} {flow : FlowId}

theorem revoke_flow_cell {target : CapTarget} (other : target ≠ .flow flow) :
    (table.revokeFlow flow).cellOf target = table.cellOf target := by
  cases target with
  | flow named =>
    have apart : named ≠ flow := fun same => other (congrArg CapTarget.flow same)
    change (table.revokeFlow flow).flowCells.lookup named = _
    rw [CapRace.revoke_flow_lookup, if_neg apart]
    rfl
  | _ =>
    unfold CapTable.revokeFlow revokeCell
    cases table.flowCells.lookup flow <;> rfl

theorem revoke_flow_live (apart : CellsApart table) {cap : Cap} (other : cap.target ≠ .flow flow) :
    (table.revokeFlow flow).isLive cap = table.isLive cap := by
  rw [isLive, isLive, revoke_flow_cell other]
  cases listed : table.cellOf cap.target with
  | none => rfl
  | some cell =>
    have epoch : (table.revokeFlow flow).epoch cell = table.epoch cell := by
      apply revoke_cell_epoch
      intro bumped
      exact other_cell_differs apart bumped other listed rfl
    dsimp only
    rw [epoch]

theorem revoke_flow_entry {id : CapId} (others : ∀ entry, table.lookup id = some entry →
      entry.holder ≠ flow ∧ entry.cap.target ≠ .flow flow) : (table.revokeFlow flow).lookup id = table.lookup id := by
  unfold lookup at others ⊢
  split
  · rfl
  · rename_i named
    simp only [named, if_false] at others
    cases found : table.entries.lookup id with
    | none =>
      apply List.lookup_eq_none_iff.mpr
      intro row member
      exact List.lookup_eq_none_iff.mp found row (List.mem_filter.mp member).1
    | some entry =>
      exact lookup_filter_found (fun entry => decide (entry.holder ≠ flow ∧ entry.cap.target ≠ .flow flow)) found
        (decide_eq_true (others entry found))

theorem revocation_is_local (commands : List CapCommand) (flow : FlowId) :
    (∀ row, row ∈ ((run commands).revokeFlow flow).entries ↔
      row ∈ (run commands).entries ∧ ¬ (row.2.holder = flow ∨ row.2.cap.target = .flow flow)) ∧
    ∀ id, (∀ entry, (run commands).lookup id = some entry → ¬ (entry.holder = flow ∨ entry.cap.target = .flow flow)) →
      ∀ holder required, ((run commands).revokeFlow flow).resolve id holder required = (run commands).resolve id holder required := by
  constructor
  · intro row
    rw [CapTable.revokeFlow, List.mem_filter, decide_eq_true_iff, not_or]
  · intro id others holder required
    simp only [not_or] at others
    rw [resolve, revoke_flow_entry others, resolve]
    cases found : (run commands).lookup id with
    | none => rfl
    | some entry =>
      dsimp only
      rw [revoke_flow_live (run_coherent commands).apart (others entry found).2]

theorem bystander_resolves :
    ((run [.mint 1 2 .SEND [.ok ⟨9⟩], .mint 3 2 .SEND [.ok ⟨8⟩]]).revokeFlow 3).resolve ⟨9⟩ 1 .SEND =
      .ok ⟨1, Cap.root (.flow 2) .SEND none 0, 0⟩ := by
  rw [(revocation_is_local [.mint 1 2 .SEND [.ok ⟨9⟩], .mint 3 2 .SEND [.ok ⟨8⟩]] 3).2 ⟨9⟩ (by decide)]
  decide

end Revocation

end CapCommand

end Byteflow
