import Byteflow.CapTable
import Byteflow.IndexedRows
import Byteflow.Transition

namespace Byteflow

open List IndexedRows

structure AwaitEntry where
  flow : FlowId
  op : UInt32
deriving DecidableEq

inductive HostAwaitParkError where
  | limitReached (current max : Nat)
  | idExhausted
deriving DecidableEq

-- by_ticket and by_flow. cancelled holds the tickets whose flag is set: the
-- flag is shared with the flow and outlives the row.
structure HostAwaitIndex where
  tickets : IndexedRows Nat AwaitEntry FlowId
  cancelled : List Nat
  nextTicket : Nat
  max : Nat

namespace HostAwaitIndex

def new (maxHostAwaits : Nat) : HostAwaitIndex := ⟨.empty, [], 1, maxHostAwaits⟩

def mentions (entry : AwaitEntry) : List FlowId := [entry.flow]

def register (index : HostAwaitIndex) (flow : FlowId) (op : UInt32) : HostAwaitIndex × Except HostAwaitParkError Nat :=
  if index.max ≠ 0 ∧ index.tickets.rows.length ≥ index.max then
    (index, .error (.limitReached index.tickets.rows.length index.max))
  else if index.nextTicket = 0 ∨ index.nextTicket ≥ 2 ^ 63 - 1 then (index, .error .idExhausted)
  else
    ({ index with
      tickets := index.tickets.insert mentions index.nextTicket ⟨flow, op⟩
      nextTicket := index.nextTicket + 1 }, .ok index.nextTicket)

def takeTicket (index : HostAwaitIndex) (ticket : Nat) : HostAwaitIndex × Option FlowId :=
  let (tickets, entry) := index.tickets.remove mentions ticket
  ({ index with tickets := tickets }, if ticket ∈ index.cancelled then none else entry.map AwaitEntry.flow)

def cancelFlow (index : HostAwaitIndex) (flow : FlowId) : HostAwaitIndex × List (Nat × AwaitEntry) :=
  let (tickets, notices) := index.tickets.sweep mentions flow
  ({ index with tickets := tickets, cancelled := notices.map Prod.fst ++ index.cancelled }, notices)

def cancelAll (index : HostAwaitIndex) : HostAwaitIndex × List (Nat × AwaitEntry) :=
  ({ index with tickets := .empty, cancelled := index.tickets.rows.map Prod.fst ++ index.cancelled }, index.tickets.rows)

end HostAwaitIndex

-- The index with the history of its calls: the tickets given out, and those
-- handed to a completion or to a cancellation.
structure AwaitRun where
  index : HostAwaitIndex
  issued : List Nat
  completed : List Nat
  cancelled : List Nat

-- finalize_one cancels the flow it finalizes.
inductive AwaitCall where
  | register (flow : FlowId) (op : UInt32)
  | settle (ticket : Nat)
  | cancelFlow (flow : FlowId)
  | cancelAll

namespace AwaitRun

open HostAwaitIndex (mentions)

def initial (maxHostAwaits : Nat) : AwaitRun := ⟨.new maxHostAwaits, [], [], []⟩

def call (run : AwaitRun) : AwaitCall → AwaitRun
  | .register flow op =>
    match run.index.register flow op with
    | (index, .ok ticket) => { run with index := index, issued := ticket :: run.issued }
    | (index, .error _) => { run with index := index }
  | .settle ticket =>
    match run.index.takeTicket ticket with
    | (index, some _) => { run with index := index, completed := ticket :: run.completed }
    | (index, none) => { run with index := index }
  | .cancelFlow flow =>
    let (index, notices) := run.index.cancelFlow flow
    { run with index := index, cancelled := notices.map Prod.fst ++ run.cancelled }
  | .cancelAll =>
    let (index, notices) := run.index.cancelAll
    { run with index := index, cancelled := notices.map Prod.fst ++ run.cancelled }

def open_ (run : AwaitRun) : List Nat := run.index.tickets.rows.map Prod.fst

structure Settled (run : AwaitRun) : Prop where
  agrees : Agrees mentions run.index.tickets
  issued : run.issued.Nodup
  below : ∀ ticket ∈ run.issued, ticket < run.index.nextTicket
  once : run.issued.Perm (run.open_ ++ (run.completed ++ run.cancelled))
  flags : ∀ ticket ∈ run.index.cancelled, ticket ∈ run.cancelled
  bounded : run.index.max ≠ 0 → run.open_.length ≤ run.index.max

-- What each call hands out: every open ticket it is about, to its own flow.
structure HandsOut (index : HostAwaitIndex) : Prop where
  registered : ∀ flow op, ¬ (index.max ≠ 0 ∧ index.tickets.rows.length ≥ index.max) →
    ¬ (index.nextTicket = 0 ∨ index.nextTicket ≥ 2 ^ 63 - 1) → (index.register flow op).2 = .ok index.nextTicket ∧
      (index.register flow op).1.tickets.rows = (index.nextTicket, ⟨flow, op⟩) :: index.tickets.rows
  completed : ∀ ticket, (index.takeTicket ticket).2 = (index.tickets.rows.lookup ticket).map AwaitEntry.flow ∧
    (index.takeTicket ticket).1.tickets.rows = Assoc.remove ticket index.tickets.rows
  cancelled : ∀ flow, (index.cancelFlow flow).2.Perm (index.tickets.rows.filter (·.2.flow = flow)) ∧
    (index.cancelFlow flow).1.tickets.rows = index.tickets.rows.filter (·.2.flow ≠ flow)
  all : index.cancelAll.2 = index.tickets.rows ∧ index.cancelAll.1.tickets.rows = []

section Steps

variable {run : AwaitRun} (settled : Settled run)

include settled

theorem open_unflagged {ticket : Nat} (member : ticket ∈ run.open_) : ticket ∉ run.index.cancelled := by
  intro flagged
  have apart := (nodup_append.mp (settled.once.nodup_iff.mp settled.issued)).2.2
  exact apart ticket member ticket (mem_append_right _ (settled.flags ticket flagged)) rfl

theorem next_fresh : run.index.nextTicket ∉ run.open_ := fun member =>
  Nat.lt_irrefl _ (settled.below _ (settled.once.mem_iff.mpr (mem_append_left _ member)))

theorem settled_register (flow : FlowId) (op : UInt32) : Settled (run.call (.register flow op)) := by
  simp only [call, HostAwaitIndex.register]
  by_cases full : run.index.max ≠ 0 ∧ run.index.tickets.rows.length ≥ run.index.max
  · simpa [full] using settled
  by_cases exhausted : run.index.nextTicket = 0 ∨ run.index.nextTicket ≥ 2 ^ 63 - 1
  · simpa only [full, exhausted, if_true, if_false] using settled
  simp only [full, exhausted, if_false]
  have new : run.index.nextTicket ∉ run.issued := fun member => Nat.lt_irrefl _ (settled.below _ member)
  have fresh := next_fresh settled
  have rows : (run.index.tickets.insert mentions run.index.nextTicket ⟨flow, op⟩).rows = _ := insert_rows fresh
  constructor
  · exact insert_agrees settled.agrees _ fresh
  · exact nodup_cons.mpr ⟨new, settled.issued⟩
  · intro ticket member
    rcases mem_cons.mp member with rfl | old
    · exact Nat.lt_succ_self _
    · exact Nat.lt_succ_of_lt (settled.below ticket old)
  · simp only [open_, rows]
    exact settled.once.cons _
  · exact settled.flags
  · intro limited
    simp only [open_, rows, map_cons, length_cons, length_map]
    simp only [not_and, Nat.not_le] at full
    exact full limited

theorem settled_removed {after : AwaitRun} (gone : List Nat) (agrees : Agrees mentions after.index.tickets)
    (rows : run.open_.Perm (gone ++ after.open_)) (issued : after.issued = run.issued)
    (history : (after.completed ++ after.cancelled).Perm (gone ++ (run.completed ++ run.cancelled)))
    (next : after.index.nextTicket = run.index.nextTicket) (max : after.index.max = run.index.max)
    (flags : ∀ ticket ∈ after.index.cancelled, ticket ∈ after.cancelled) : Settled after := by
  constructor
  · exact agrees
  · rw [issued]
    exact settled.issued
  · rw [issued, next]
    exact settled.below
  · rw [issued]
    apply settled.once.trans
    apply (rows.append_right _).trans
    rw [append_assoc]
    apply perm_append_comm.trans
    rw [append_assoc]
    exact (perm_append_comm.trans history.symm).append_left _
  · exact flags
  · intro limited
    rw [max] at limited ⊢
    have length := rows.length_eq
    rw [length_append] at length
    have bounded := settled.bounded limited
    omega

theorem settled_settle (ticket : Nat) : Settled (run.call (.settle ticket)) := by
  cases found : run.index.tickets.rows.lookup ticket with
  | none =>
    have nothing : run.call (.settle ticket) = run := by
      simp [call, HostAwaitIndex.takeTicket, remove, found]
    rw [nothing]
    exact settled
  | some entry =>
    have member : ticket ∈ run.open_ := mem_map_of_mem (Assoc.mem_of_lookup found)
    have removed := remove_agrees settled.agrees ticket
    simp only [call, HostAwaitIndex.takeTicket]
    simp only [remove, found, if_neg (open_unflagged settled member), Option.map_some] at removed ⊢
    have rows := (Assoc.perm_remove settled.agrees.unique found).map Prod.fst
    exact settled_removed settled [ticket] removed rows rfl (.refl _) rfl rfl settled.flags

theorem settled_cancelled {tickets : IndexedRows Nat AwaitEntry FlowId} {gone : List Nat} (agrees : Agrees mentions tickets)
    (rows : run.open_.Perm (gone ++ tickets.rows.map Prod.fst)) :
    Settled { run with
      index := { run.index with tickets := tickets, cancelled := gone ++ run.index.cancelled }
      cancelled := gone ++ run.cancelled } := by
  refine settled_removed settled gone agrees rows rfl (perm_append_comm_assoc _ _ _) rfl rfl ?_
  intro ticket member
  exact (mem_append.mp member).elim (mem_append_left _) fun old => mem_append_right _ (settled.flags ticket old)

theorem settled_call (event : AwaitCall) : Settled (run.call event) := by
  cases event with
  | register flow op => exact settled_register settled flow op
  | settle ticket => exact settled_settle settled ticket
  | cancelFlow flow =>
    obtain ⟨agrees, left, taken⟩ := sweep_spec settled.agrees flow
    have parts := (filter_append_perm (fun row : Nat × AwaitEntry => flow ∈ mentions row.2) run.index.tickets.rows).symm
    simp only [← decide_not] at parts
    apply settled_cancelled settled agrees
    rw [left, ← map_append]
    exact (parts.trans (taken.symm.append_right _)).map Prod.fst
  | cancelAll =>
    apply settled_cancelled settled empty_agrees
    rw [show (empty : IndexedRows Nat AwaitEntry FlowId).rows = [] from rfl, map_nil, append_nil]
    exact .refl _

theorem hands_out : HandsOut run.index where
  registered := by
    intro flow op free left
    rw [HostAwaitIndex.register, if_neg free, if_neg left]
    exact ⟨rfl, insert_rows (next_fresh settled)⟩
  completed := by
    intro ticket
    refine ⟨?_, remove_rows ticket⟩
    change (if ticket ∈ run.index.cancelled then none else (run.index.tickets.remove mentions ticket).2.map AwaitEntry.flow) = _
    rw [remove_value]
    cases found : run.index.tickets.rows.lookup ticket with
    | none => exact ite_self _
    | some entry => exact if_neg (open_unflagged settled (mem_map_of_mem (Assoc.mem_of_lookup found)))
  cancelled := by
    intro flow
    obtain ⟨_, left, taken⟩ := sweep_spec settled.agrees flow
    simp only [mentions, mem_singleton, @eq_comm _ flow] at left taken
    exact ⟨taken, left⟩
  all := ⟨rfl, rfl⟩

end Steps

def run (maxHostAwaits : UInt32) (calls : List AwaitCall) : AwaitRun := calls.foldl call (initial maxHostAwaits.toNat)

theorem call_max (before : AwaitRun) (event : AwaitCall) : (before.call event).index.max = before.index.max := by
  cases event with
  | register flow op =>
    simp only [call, HostAwaitIndex.register]
    split_ifs <;> rfl
  | settle ticket =>
    simp only [call, HostAwaitIndex.takeTicket]
    generalize (if ticket ∈ before.index.cancelled then none else _ : Option FlowId) = taken
    cases taken <;> rfl
  | cancelFlow | cancelAll => rfl

theorem tickets_settled_once (maxHostAwaits : UInt32) (calls : List AwaitCall) :
    (∀ ticket flow, ticket ∈ (run maxHostAwaits calls).index.tickets.index.keys flow ↔
      ∃ entry, (ticket, entry) ∈ (run maxHostAwaits calls).index.tickets.rows ∧ entry.flow = flow) ∧
    (run maxHostAwaits calls).issued.Nodup ∧
    (run maxHostAwaits calls).issued.Perm ((run maxHostAwaits calls).open_ ++
      ((run maxHostAwaits calls).completed ++ (run maxHostAwaits calls).cancelled)) ∧
    (maxHostAwaits = 0 ∨ (run maxHostAwaits calls).open_.length ≤ maxHostAwaits.toNat) ∧
    HandsOut (run maxHostAwaits calls).index := by
  have started : Settled (initial maxHostAwaits.toNat) :=
    ⟨empty_agrees, nodup_nil, nofun, .refl _, nofun, fun _ => Nat.zero_le _⟩
  have settled : Settled (run maxHostAwaits calls) ∧ (run maxHostAwaits calls).index.max = maxHostAwaits.toNat :=
    List.foldlRecOn (motive := fun run => Settled run ∧ run.index.max = maxHostAwaits.toNat) calls call ⟨started, rfl⟩
      fun before held event _ => ⟨settled_call held.1 event, (call_max before event).trans held.2⟩
  obtain ⟨settled, max⟩ := settled
  refine ⟨fun ticket flow => ?_, settled.issued, settled.once, ?_, hands_out settled⟩
  · rw [settled.agrees.listed]
    simp only [mentions, mem_singleton, @eq_comm _ flow]
  · by_cases unlimited : maxHostAwaits = 0
    · exact .inl unlimited
    · have limited : (run maxHostAwaits calls).index.max ≠ 0 := by
        rw [max]
        exact fun zero => unlimited (UInt32.toNat_inj.mp zero)
      exact .inr (max ▸ settled.bounded limited)

def twoFlows : List AwaitCall :=
  [.register 7 0, .register 8 0, .register 7 1, .register 9 0, .settle 2, .cancelFlow 7, .settle 1, .register 9 0]

-- The fourth call is refused, and so is the late completion of ticket 1.
theorem two_flows_settled : (run 3 twoFlows).issued = [4, 3, 2, 1] ∧ (run 3 twoFlows).open_ = [4] ∧
    (run 3 twoFlows).completed = [2] ∧ (run 3 twoFlows).cancelled = [1, 3] ∧
    ((run 3 twoFlows).index.takeTicket 4).2 = some 9 :=
  ⟨rfl, rfl, rfl, rfl, ((tickets_settled_once 3 twoFlows).2.2.2.2.completed 4).1⟩

end AwaitRun

end Byteflow
