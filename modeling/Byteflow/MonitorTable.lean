import Byteflow.Lifecycle
import Byteflow.LinkTable

namespace Byteflow

open List
open IndexedRows (Agrees empty_agrees insert_agrees remove_agrees remove_rows sweep_spec)

abbrev MonitorRef := Nat

def MAX_MONITOR_ID : Nat := 2 ^ 63 - 1

structure MonitorEntry where
  owner : FlowId
  target : FlowId
deriving DecidableEq, Repr

structure DownEvent where
  monitor : MonitorRef
  owner : FlowId
  target : FlowId
  reason : FlowExitReason
deriving DecidableEq, Repr

-- The keys of by_owner and by_target.
inductive MonitorName where
  | owner (flow : FlowId)
  | target (flow : FlowId)
deriving DecidableEq

abbrev MonitorTable := IndexedRows MonitorRef MonitorEntry MonitorName

namespace MonitorTable

def new : MonitorTable := .empty

abbrev monitors (table : MonitorTable) : List (MonitorRef × MonitorEntry) := table.rows

abbrev byOwner (table : MonitorTable) (owner : FlowId) : Option (List MonitorRef) := table.index (.owner owner)

def mentions (entry : MonitorEntry) : List MonitorName := [.owner entry.owner, .target entry.target]

def insert (table : MonitorTable) (monitor : MonitorRef) (owner target : FlowId) : MonitorTable :=
  IndexedRows.insert mentions table monitor ⟨owner, target⟩

def take (table : MonitorTable) (monitor : MonitorRef) : MonitorTable × Option MonitorEntry := table.remove mentions monitor

def removeOwned (table : MonitorTable) (owner : FlowId) (monitor : MonitorRef) : MonitorTable × Except LifecycleError Unit :=
  match table.monitors.lookup monitor with
  | some entry => if entry.owner = owner then ((table.take monitor).1, .ok ()) else (table, .error .notOwner)
  | none => (table, .error .invalidMonitor)

def removeOwnedBy (table : MonitorTable) (owner : FlowId) : MonitorTable := (table.sweep mentions (.owner owner)).1

def notifyTargetExit (table : MonitorTable) (target : FlowId) (reason : FlowExitReason) : MonitorTable × List DownEvent :=
  let (after, taken) := table.sweep mentions (.target target)
  let events := taken.map fun row => ⟨row.1, row.2.owner, target, reason⟩
  (after, events.insertionSort (fun event other => event.monitor ≤ other.monitor))

abbrev Lockstep (table : MonitorTable) : Prop := Agrees mentions table

section Rows

variable {table : MonitorTable}

theorem new_lockstep : Lockstep new := empty_agrees

theorem insert_lockstep (agrees : Lockstep table) {monitor : MonitorRef} (owner target : FlowId)
    (fresh : ∀ entry, (monitor, entry) ∉ table.monitors) : Lockstep (table.insert monitor owner target) := by
  apply insert_agrees agrees
  intro taken
  obtain ⟨⟨_, entry⟩, member, rfl⟩ := mem_map.mp taken
  exact fresh entry member

theorem remove_owned_spec (agrees : Lockstep table) (owner : FlowId) (monitor : MonitorRef) :
    Lockstep (table.removeOwned owner monitor).1 ∧
      ∀ id entry, (id, entry) ∈ (table.removeOwned owner monitor).1.monitors ↔
        (id, entry) ∈ table.monitors ∧ ¬ (id = monitor ∧ entry.owner = owner) := by
  rw [removeOwned]
  cases found : table.monitors.lookup monitor with
  | none =>
    refine ⟨agrees, fun id entry => ⟨fun row => ⟨row, ?_⟩, And.left⟩⟩
    rintro ⟨rfl, _⟩
    exact Assoc.lookup_none_absent found (mem_map_of_mem row)
  | some entry =>
    have row := Assoc.mem_of_lookup found
    dsimp only
    by_cases owned : entry.owner = owner
    · rw [if_pos owned]
      have rows : (table.take monitor).1.monitors = Assoc.remove monitor table.monitors := remove_rows monitor
      refine ⟨remove_agrees agrees monitor, fun id other => ?_⟩
      rw [rows, Assoc.mem_remove]
      refine and_congr_right fun there => not_congr ⟨?_, And.left⟩
      rintro rfl
      rw [(Prod.mk.inj (inj_on_of_nodup_map agrees.unique there row rfl)).2]
      exact ⟨rfl, owned⟩
    · rw [if_neg owned]
      refine ⟨agrees, fun id other => ⟨fun there => ⟨there, ?_⟩, And.left⟩⟩
      rintro ⟨rfl, named⟩
      rw [(Prod.mk.inj (inj_on_of_nodup_map agrees.unique there row rfl)).2] at named
      exact owned named

theorem remove_owned_by_rows (agrees : Lockstep table) (owner : FlowId) :
    (table.removeOwnedBy owner).monitors = table.monitors.filter (·.2.owner ≠ owner) := by
  have left := (sweep_spec agrees (.owner owner)).left
  have named : ∀ entry : MonitorEntry, .owner owner ∈ mentions entry ↔ entry.owner = owner := by
    simp [mentions, @eq_comm _ owner]
  simp only [named] at left
  exact left

theorem remove_owned_by_spec (agrees : Lockstep table) (owner : FlowId) :
    Lockstep (table.removeOwnedBy owner) ∧
      ∀ id entry, (id, entry) ∈ (table.removeOwnedBy owner).monitors ↔ (id, entry) ∈ table.monitors ∧ entry.owner ≠ owner :=
  ⟨(sweep_spec agrees (.owner owner)).agrees, fun id entry => by simp [remove_owned_by_rows agrees]⟩

theorem notify_target_exit_rows (agrees : Lockstep table) (target : FlowId) (reason : FlowExitReason) :
    Lockstep (table.notifyTargetExit target reason).1 ∧
      (table.notifyTargetExit target reason).1.monitors = table.monitors.filter (·.2.target ≠ target) ∧
      (table.notifyTargetExit target reason).2.Perm
        ((table.monitors.filter (·.2.target = target)).map fun row => ⟨row.1, row.2.owner, target, reason⟩) := by
  obtain ⟨kept, left, taken⟩ := sweep_spec agrees (.target target)
  have named : ∀ entry : MonitorEntry, .target target ∈ mentions entry ↔ entry.target = target := by
    simp [mentions, @eq_comm _ target]
  simp only [named] at left taken
  exact ⟨kept, left, (perm_insertionSort _ _).trans (taken.map _)⟩

theorem notify_target_exit_spec (agrees : Lockstep table) (target : FlowId) (reason : FlowExitReason) :
    Lockstep (table.notifyTargetExit target reason).1 ∧
      (∀ id entry, (id, entry) ∈ (table.notifyTargetExit target reason).1.monitors ↔
        (id, entry) ∈ table.monitors ∧ entry.target ≠ target) ∧
      (∀ event, event ∈ (table.notifyTargetExit target reason).2 ↔
        (event.monitor, ⟨event.owner, target⟩) ∈ table.monitors ∧ event.target = target ∧ event.reason = reason) ∧
      ((table.notifyTargetExit target reason).2.map DownEvent.monitor).Nodup := by
  obtain ⟨kept, left, taken⟩ := notify_target_exit_rows agrees target reason
  refine ⟨kept, fun id entry => by simp [left], fun event => ?_, (taken.map _).nodup_iff.mpr ?_⟩
  · rw [taken.mem_iff, mem_map]
    constructor
    · rintro ⟨⟨id, owner, named⟩, member, rfl⟩
      obtain ⟨row, same⟩ := mem_filter.mp member
      exact ⟨of_decide_eq_true same ▸ row, rfl, rfl⟩
    · rintro ⟨row, same, because⟩
      refine ⟨(event.monitor, ⟨event.owner, target⟩), mem_filter.mpr ⟨row, by simp⟩, ?_⟩
      rw [← same, ← because]
  · rw [map_map]
    exact (filter_sublist.map Prod.fst).nodup agrees.unique

end Rows

end MonitorTable

end Byteflow
