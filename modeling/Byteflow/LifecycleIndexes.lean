import Byteflow.MonitorTable

namespace Byteflow

open MonitorTable LinkTable List IndexedRows

structure RegistryEntry where
  cap : CapId
  flow : FlowId
deriving DecidableEq

abbrev Registry := IndexedRows String RegistryEntry FlowId

namespace Registry

def mentions (entry : RegistryEntry) : List FlowId := [entry.flow]

-- RegistryStore::register; no limit when max_names is 0.
def register (table : Registry) (maxNames : Nat) (name : String) (cap : CapId) (flow : FlowId) :
    Registry × Except LifecycleError Unit :=
  if name = "" then (table, .error .emptyName)
  else if (table.rows.lookup name).isSome then (table, .error .alreadyRegistered)
  else if maxNames ≠ 0 ∧ table.rows.length % 2 ^ 32 ≥ maxNames then (table, .error (.registryLimitReached maxNames))
  else (table.insert mentions name ⟨cap, flow⟩, .ok ())

def unregister (table : Registry) (name : String) : Registry × Bool :=
  let (after, entry) := table.remove mentions name
  (after, entry.isSome)

def unregisterFlow (table : Registry) (flow : FlowId) : Registry := (table.sweep mentions flow).1

theorem register_cases (table : Registry) (maxNames : Nat) (name : String) (cap : CapId) (flow : FlowId) :
    (∃ e, table.register maxNames name cap flow = (table, .error e)) ∨
      name ∉ table.rows.map Prod.fst ∧
        table.register maxNames name cap flow = (table.insert mentions name ⟨cap, flow⟩, .ok ()) := by
  rw [register]
  split
  · exact .inl ⟨_, rfl⟩
  split
  · exact .inl ⟨_, rfl⟩
  rename_i free
  split
  · exact .inl ⟨_, rfl⟩
  · exact .inr ⟨Assoc.lookup_none_absent (Option.not_isSome_iff_eq_none.mp free), rfl⟩

theorem register_agrees {table : Registry} (agrees : Agrees mentions table) (maxNames : Nat) (name : String) (cap : CapId)
    (flow : FlowId) : Agrees mentions (table.register maxNames name cap flow).1 := by
  obtain ⟨e, refused⟩ | ⟨fresh, inserted⟩ := register_cases table maxNames name cap flow
  · rw [refused]
    exact agrees
  · rw [inserted]
    exact insert_agrees agrees _ fresh

theorem unregister_flow_rows {table : Registry} (agrees : Agrees mentions table) (flow : FlowId) :
    (table.unregisterFlow flow).rows = table.rows.filter (·.2.flow ≠ flow) := by
  have left := (sweep_spec agrees flow).left
  simp only [mentions, mem_singleton, @eq_comm _ flow] at left
  exact left

end Registry

inductive AskInsertError where
  | duplicate
  | limitReached (current max : Nat)
deriving DecidableEq

-- by_asker with by_target, and request_ids.
structure AskWaits where
  waits : IndexedRows FlowId FlowId FlowId
  requestIds : List (FlowId × UInt64)
  max : Nat

namespace AskWaits

def mentions (target : FlowId) : List FlowId := [target]

def insert (table : AskWaits) (asker target : FlowId) (requestId : UInt64) : AskWaits × Except AskInsertError Unit :=
  if (table.requestIds.lookup asker).isSome then (table, .error .duplicate)
  else if table.max ≠ 0 ∧ table.waits.rows.length ≥ table.max then
    (table, .error (.limitReached table.waits.rows.length table.max))
  else
    ({ table with
      waits := table.waits.insert mentions asker target
      requestIds := Assoc.insert asker requestId table.requestIds }, .ok ())

def removeAsker (table : AskWaits) (asker : FlowId) : AskWaits × Option FlowId :=
  let (waits, target) := table.waits.remove mentions asker
  ({ table with waits := waits, requestIds := Assoc.remove asker table.requestIds }, target)

def takeWaitersOf (table : AskWaits) (target : FlowId) : AskWaits × List FlowId :=
  let (waits, taken) := table.waits.sweep mentions target
  let askers := taken.map Prod.fst
  ({ table with waits := waits, requestIds := table.requestIds.filter (·.1 ∉ askers) }, askers)

end AskWaits

structure LifecycleTables where
  links : LinkTable
  monitors : MonitorTable
  registry : Registry
  asks : AskWaits
  nextLink : LinkId
  nextMonitor : MonitorRef

-- The counters are shared with other runtimes: skipped ids are theirs.
inductive TableOp where
  | link (skipped : Nat) (a b : FlowId)
  | unlinkId (id : LinkId)
  | unlinkOwned (owner : FlowId) (id : LinkId)
  | removeLinksOf (target : FlowId)
  | monitor (skipped : Nat) (owner target : FlowId)
  | removeOwned (owner : FlowId) (monitor : MonitorRef)
  | removeOwnedBy (owner : FlowId)
  | notifyTargetExit (target : FlowId) (reason : FlowExitReason)
  | register (maxNames : Nat) (name : String) (cap : CapId) (flow : FlowId)
  | unregister (name : String)
  | unregisterFlow (flow : FlowId)
  | insertAsk (asker target : FlowId) (requestId : UInt64)
  | removeAsker (asker : FlowId)
  | takeWaitersOf (target : FlowId)

namespace LifecycleTables

def initial (maxAskWaits : Nat) : LifecycleTables := ⟨.empty, .empty, .empty, ⟨.empty, [], maxAskWaits⟩, 1, 1⟩

def apply (tables : LifecycleTables) : TableOp → LifecycleTables
  | .link skipped a b =>
    if a = b ∨ tables.links.hasPair a b then tables
    else
      { tables with
        links := tables.links.insert (tables.nextLink + skipped) a b
        nextLink := tables.nextLink + skipped + 1 }
  | .unlinkId id => { tables with links := (tables.links.unlinkId id).1 }
  | .unlinkOwned owner id => { tables with links := (tables.links.unlinkOwned owner id).1 }
  | .removeLinksOf target => { tables with links := (tables.links.removeLinksOf target).1 }
  | .monitor skipped owner target =>
    { tables with
      monitors := tables.monitors.insert (tables.nextMonitor + skipped) owner target
      nextMonitor := tables.nextMonitor + skipped + 1 }
  | .removeOwned owner monitor => { tables with monitors := (tables.monitors.removeOwned owner monitor).1 }
  | .removeOwnedBy owner => { tables with monitors := tables.monitors.removeOwnedBy owner }
  | .notifyTargetExit target reason => { tables with monitors := (tables.monitors.notifyTargetExit target reason).1 }
  | .register maxNames name cap flow => { tables with registry := (tables.registry.register maxNames name cap flow).1 }
  | .unregister name => { tables with registry := (tables.registry.unregister name).1 }
  | .unregisterFlow flow => { tables with registry := tables.registry.unregisterFlow flow }
  | .insertAsk asker target requestId => { tables with asks := (tables.asks.insert asker target requestId).1 }
  | .removeAsker asker => { tables with asks := (tables.asks.removeAsker asker).1 }
  | .takeWaitersOf target => { tables with asks := (tables.asks.takeWaitersOf target).1 }

def run (maxAskWaits : Nat) (ops : List TableOp) : LifecycleTables := ops.foldl apply (initial maxAskWaits)

structure Exact (tables : LifecycleTables) : Prop where
  links : tables.links.Lockstep
  monitors : tables.monitors.Lockstep
  registry : Agrees Registry.mentions tables.registry
  asks : Agrees AskWaits.mentions tables.asks.waits
  askers : tables.asks.requestIds.map Prod.fst = tables.asks.waits.rows.map Prod.fst
  linkIds : ∀ id link, (id, link) ∈ tables.links.links → id < tables.nextLink
  monitorIds : ∀ id entry, (id, entry) ∈ tables.monitors.monitors → id < tables.nextMonitor

theorem below_insert {ν : Type} {rows : List (Nat × ν)} {next : Nat} (below : ∀ id value, (id, value) ∈ rows → id < next)
    (skipped : Nat) (new : ν) :
    ∀ id value, (id, value) ∈ Assoc.insert (next + skipped) new rows → id < next + skipped + 1 := by
  intro id value member
  rcases Assoc.mem_insert.mp member with same | ⟨old, _⟩
  · cases same
    exact Nat.lt_succ_self _
  · exact Nat.lt_of_lt_of_le (below id value old) (by omega)

section Steps

variable {tables : LifecycleTables} (exact_ : Exact tables)

include exact_

theorem exact_links {links : LinkTable} (agrees : links.Lockstep) (fewer : ∀ row ∈ links.links, row ∈ tables.links.links) :
    Exact { tables with links := links } :=
  { exact_ with links := agrees, linkIds := fun id link row => exact_.linkIds id link (fewer _ row) }

theorem exact_monitors {monitors : MonitorTable} (agrees : monitors.Lockstep)
    (fewer : ∀ id entry, (id, entry) ∈ monitors.monitors → (id, entry) ∈ tables.monitors.monitors) :
    Exact { tables with monitors := monitors } :=
  { exact_ with monitors := agrees, monitorIds := fun id entry row => exact_.monitorIds id entry (fewer id entry row) }

theorem exact_asks {asks : AskWaits} (agrees : Agrees AskWaits.mentions asks.waits)
    (askers : asks.requestIds.map Prod.fst = asks.waits.rows.map Prod.fst) : Exact { tables with asks := asks } :=
  { exact_ with asks := agrees, askers := askers }

theorem exact_link (skipped : Nat) (a b : FlowId) : Exact (tables.apply (.link skipped a b)) := by
  simp only [apply]
  split
  · exact exact_
  · rename_i free
    obtain ⟨different, unlinked⟩ := not_or.mp free
    refine { exact_ with links := ?_, linkIds := below_insert exact_.linkIds skipped _ }
    apply insert_lockstep exact_.links different (Bool.eq_false_iff.mpr unlinked)
    intro link row
    exact absurd (exact_.linkIds _ link row) (Nat.not_lt.mpr (Nat.le_add_right _ _))

theorem exact_monitor (skipped : Nat) (owner target : FlowId) : Exact (tables.apply (.monitor skipped owner target)) := by
  refine { exact_ with monitors := ?_, monitorIds := below_insert exact_.monitorIds skipped _ }
  apply insert_lockstep exact_.monitors
  intro entry row
  exact absurd (exact_.monitorIds _ entry row) (Nat.not_lt.mpr (Nat.le_add_right _ _))

theorem exact_insert_ask (asker target : FlowId) (requestId : UInt64) :
    Exact (tables.apply (.insertAsk asker target requestId)) := by
  simp only [apply, AskWaits.insert]
  split
  · exact exact_
  rename_i free
  split
  · exact exact_
  · have unasked := Assoc.lookup_none_absent (Option.not_isSome_iff_eq_none.mp free)
    have fresh : asker ∉ tables.asks.waits.rows.map Prod.fst := exact_.askers ▸ unasked
    apply exact_asks exact_ (insert_agrees exact_.asks target fresh)
    rw [insert_rows fresh, Assoc.insert, Assoc.remove_absent unasked, map_cons, map_cons, exact_.askers]

theorem askers_filter (keep : FlowId → Bool) :
    (tables.asks.requestIds.filter (keep ·.1)).map Prod.fst = (tables.asks.waits.rows.filter (keep ·.1)).map Prod.fst := by
  have keys : ∀ {ν : Type} (rows : List (FlowId × ν)), (rows.filter (keep ·.1)).map Prod.fst = (rows.map Prod.fst).filter keep :=
    fun rows => by rw [filter_map]; rfl
  rw [keys, keys, exact_.askers]

theorem exact_remove_asker (asker : FlowId) : Exact (tables.apply (.removeAsker asker)) := by
  apply exact_asks exact_ (remove_agrees exact_.asks asker)
  have rows : (tables.asks.waits.remove AskWaits.mentions asker).1.rows = _ := remove_rows asker
  exact (askers_filter exact_ (· ≠ asker)).trans (congrArg (List.map Prod.fst) rows.symm)

theorem take_waiters_of_rows (target : FlowId) :
    Exact (tables.apply (.takeWaitersOf target)) ∧
      (tables.asks.takeWaitersOf target).1.waits.rows = tables.asks.waits.rows.filter (·.2 ≠ target) ∧
      (tables.asks.takeWaitersOf target).2.Perm ((tables.asks.waits.rows.filter (·.2 = target)).map Prod.fst) := by
  obtain ⟨kept, left, taken⟩ := sweep_spec exact_.asks target
  simp only [AskWaits.mentions, mem_singleton, @eq_comm _ target] at left taken
  have askers : (tables.asks.takeWaitersOf target).2.Perm _ := taken.map Prod.fst
  refine ⟨exact_asks exact_ kept ?_, left, askers⟩
  refine (askers_filter exact_ (· ∉ (tables.asks.takeWaitersOf target).2)).trans (congrArg (List.map Prod.fst) (.trans ?_ left.symm))
  apply filter_congr
  intro row member
  have asked : row.1 ∈ (tables.asks.takeWaitersOf target).2 ↔ row.2 = target := by
    rw [askers.mem_iff, mem_map]
    constructor
    · rintro ⟨other, listed, same⟩
      obtain ⟨there, named⟩ := mem_filter.mp listed
      rw [← inj_on_of_nodup_map exact_.asks.unique there member same]
      exact of_decide_eq_true named
    · intro named
      exact ⟨row, mem_filter.mpr ⟨member, decide_eq_true named⟩, rfl⟩
  simp only [asked]

theorem exact_apply (op : TableOp) : Exact (tables.apply op) := by
  cases op with
  | link skipped a b => exact exact_link exact_ skipped a b
  | unlinkId id =>
    obtain ⟨agrees, rows, _⟩ := unlink_id_spec exact_.links id
    exact exact_links exact_ agrees fun row member => ((rows row.1 row.2).mp member).1
  | unlinkOwned owner id =>
    simp only [apply, LinkTable.unlinkOwned]
    obtain ⟨agrees, rows, _⟩ := unlink_id_spec exact_.links id
    split
    · split
      · exact exact_links exact_ agrees fun row member => ((rows row.1 row.2).mp member).1
      · exact exact_
    · exact exact_
  | removeLinksOf target =>
    obtain ⟨agrees, rows, _⟩ := remove_links_of_spec exact_.links target
    exact exact_links exact_ agrees fun row member => ((rows row.1 row.2).mp member).1
  | monitor skipped owner target => exact exact_monitor exact_ skipped owner target
  | removeOwned owner monitor =>
    obtain ⟨agrees, rows⟩ := remove_owned_spec exact_.monitors owner monitor
    exact exact_monitors exact_ agrees fun id entry member => ((rows id entry).mp member).1
  | removeOwnedBy owner =>
    obtain ⟨agrees, rows⟩ := remove_owned_by_spec exact_.monitors owner
    exact exact_monitors exact_ agrees fun id entry member => ((rows id entry).mp member).1
  | notifyTargetExit target reason =>
    obtain ⟨agrees, rows, _⟩ := notify_target_exit_spec exact_.monitors target reason
    exact exact_monitors exact_ agrees fun id entry member => ((rows id entry).mp member).1
  | register maxNames name cap flow => exact { exact_ with registry := Registry.register_agrees exact_.registry maxNames name cap flow }
  | unregister name => exact { exact_ with registry := remove_agrees exact_.registry name }
  | unregisterFlow flow => exact { exact_ with registry := (sweep_spec exact_.registry flow).agrees }
  | insertAsk asker target requestId => exact exact_insert_ask exact_ asker target requestId
  | removeAsker asker => exact exact_remove_asker exact_ asker
  | takeWaitersOf target => exact (take_waiters_of_rows exact_ target).1

end Steps

theorem run_exact (maxAskWaits : Nat) (ops : List TableOp) : Exact (run maxAskWaits ops) :=
  List.foldlRecOn (motive := Exact) ops apply
    ⟨new_lockstep, new_lockstep, empty_agrees, empty_agrees, rfl, nofun, nofun⟩
    fun _ exact_ op _ => exact_apply exact_ op

structure Sweeps (tables : LifecycleTables) (flow : FlowId) : Prop where
  links : (tables.links.removeLinksOf flow).1.links = tables.links.links.filter (fun row => ¬ row.2.Mentions flow)
  peers : (tables.links.removeLinksOf flow).2.Perm
    ((tables.links.links.filter fun row => row.2.Mentions flow).map fun row => (row.1, row.2.peerOf flow))
  watched : ∀ reason, (tables.monitors.notifyTargetExit flow reason).1.monitors = tables.monitors.monitors.filter (·.2.target ≠ flow)
  downs : ∀ reason, (tables.monitors.notifyTargetExit flow reason).2.Perm
    ((tables.monitors.monitors.filter (·.2.target = flow)).map fun row => ⟨row.1, row.2.owner, flow, reason⟩)
  owned : (tables.monitors.removeOwnedBy flow).monitors = tables.monitors.monitors.filter (·.2.owner ≠ flow)
  names : (tables.registry.unregisterFlow flow).rows = tables.registry.rows.filter (·.2.flow ≠ flow)
  waits : (tables.asks.takeWaitersOf flow).1.waits.rows = tables.asks.waits.rows.filter (·.2 ≠ flow)
  askers : (tables.asks.takeWaitersOf flow).2.Perm ((tables.asks.waits.rows.filter (·.2 = flow)).map Prod.fst)
  asker : (tables.asks.removeAsker flow).1.waits.rows = tables.asks.waits.rows.filter (·.1 ≠ flow)
  target : (tables.asks.removeAsker flow).2 = tables.asks.waits.rows.lookup flow

theorem lifecycle_indexes_agree (maxAskWaits : Nat) (ops : List TableOp) :
    Exact (run maxAskWaits ops) ∧ ∀ flow, Sweeps (run maxAskWaits ops) flow := by
  have exact_ := run_exact maxAskWaits ops
  apply And.intro exact_
  intro flow
  obtain ⟨_, links, peers⟩ := remove_links_of_rows exact_.links flow
  have monitors := notify_target_exit_rows exact_.monitors flow
  obtain ⟨_, waits, askers⟩ := take_waiters_of_rows exact_ flow
  constructor
  · exact links
  · exact peers
  · exact fun reason => (monitors reason).2.1
  · exact fun reason => (monitors reason).2.2
  · exact remove_owned_by_rows exact_.monitors flow
  · exact Registry.unregister_flow_rows exact_.registry flow
  · exact waits
  · exact askers
  · exact remove_rows flow
  · exact remove_value flow

end LifecycleTables

end Byteflow
