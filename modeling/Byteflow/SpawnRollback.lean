import Byteflow.HopAuth
import Byteflow.Spawn
import Byteflow.ValueTree

namespace Byteflow

open CapTable List Exec Transition

section MapCaps

variable {σ ε : Type} {Atom : (γ : Type) → Exec σ ε γ → Prop} {tooNested : ε} {onCap : CapId → Exec σ ε CapId}
  {onMessage : Message → Exec σ ε Message}

theorem items_map_caps_built {depth : Nat} {items : List Value}
    (each : ∀ item ∈ items, Built Atom Value (item.mapCaps tooNested onCap onMessage depth)) :
    Built Atom (List Value) (itemsMapCaps tooNested onCap onMessage depth items) := by
  induction items with
  | nil =>
    rw [itemsMapCaps]
    exact .pure []
  | cons item rest ih =>
    rw [itemsMapCaps]
    refine .bind (each item mem_cons_self) fun next => .bind (ih fun other member => ?_) fun others => .pure _
    exact each other (mem_cons_of_mem _ member)

theorem entries_map_caps_built {depth : Nat} {entries : List (MapKey × Value)}
    (each : ∀ item ∈ entries.map Prod.snd, Built Atom Value (item.mapCaps tooNested onCap onMessage depth)) :
    Built Atom (List (MapKey × Value)) (entriesMapCaps tooNested onCap onMessage depth entries) := by
  induction entries with
  | nil =>
    rw [entriesMapCaps]
    exact .pure []
  | cons entry rest ih =>
    rw [entriesMapCaps, entryMapCaps]
    refine .bind (.bind (each entry.2 mem_cons_self) fun next => .pure _) fun next =>
      .bind (ih fun other member => ?_) fun others => .pure _
    exact each other (mem_cons_of_mem _ member)

theorem or_too_nested_built {α : Type} (made : Option α) : Built Atom α (orTooNested tooNested made) := by
  cases made with
  | none => exact .throw tooNested
  | some a => exact .pure a

-- map_caps touches the state only through its two closures.
theorem map_caps_built (cap : ∀ id, Built Atom CapId (onCap id)) (message : ∀ hop, Built Atom Message (onMessage hop))
    (value : Value) (depth : Nat) : Built Atom Value (value.mapCaps tooNested onCap onMessage depth) := by
  induction value using Value.children_induction generalizing depth with
  | step value ih =>
    have inside : ∀ child ∈ value.children, Built Atom Value (child.mapCaps tooNested onCap onMessage (depth + 1)) :=
      fun child member => ih child member (depth + 1)
    rw [Value.mapCaps.eq_def]
    refine built_ite _ (.throw tooNested) ?_
    cases value with
    | cap id => exact built_ite _ (.pure _) (.bind (cap id) fun new => .pure _)
    | message hop =>
      have payload : Built Atom Value (payloadMapCaps tooNested onCap onMessage (depth + 1) hop) := by
        have walk := inside hop.payload mem_cons_self
        obtain ⟨sender, replyCap, requestId, tag, payload⟩ := hop
        rw [payloadMapCaps]
        exact walk
      exact .bind payload fun next => .bind (message _) fun new => .pure _
    | list | record => exact .bind (items_map_caps_built inside) fun next => or_too_nested_built _
    | map entries => exact .bind (entries_map_caps_built inside) fun next => or_too_nested_built _
    | _ => exact .pure _

end MapCaps

def NativeGate.fromAuthority (cap : Cap) (flowCell nativeCell : UInt64) (nativeCount : Nat) : NativeGate :=
  ⟨cap.rights.contains .NATIVE, cap.nativeMask.getD (.empty nativeCount), cap.epoch, flowCell, nativeCell, nativeCell⟩

def SpawnError.ofFault (display : Fault → String) : Fault → SpawnError
  | .badFunction index tableSize => .badFunction index tableSize
  | other => .vmInit (display other)

structure SpawnShared where
  layout : Layout
  display : Fault → String
  maxFlows : UInt32
  rootAuthority : RootAuthorityPolicy
  memLimit : Nat

structure SpawnCall where
  chunk : Chunk
  natives : NativeTable
  function : UInt32
  args : List Value
  parent : Option FlowId
  bytecode : Option BytecodeSpawn
  hostAuthority : Option RootAuthorityPolicy

-- What spawn_on reads and writes. nextFlowId and idsExhausted are the statics
-- of the id allocator, live the counter of FlowLimit; random and calls are the
-- draws the calls of the capability table see.
structure SpawnTables where
  live : Nat
  nextFlowId : UInt64
  idsExhausted : Bool
  caps : CapTable
  directory : List FlowId
  quotas : List (FlowId × FlowQuota)
  memory : MemoryBudget
  hostNextRequestId : UInt64
  random : Nat → CapDraws
  calls : Nat

abbrev SpawnM := Exec SpawnTables SpawnError

namespace SpawnTables

def tryReserve (shared : SpawnShared) : SpawnM PUnit := do
  let tables ← get
  if shared.maxFlows ≠ 0 ∧ tables.live ≥ shared.maxFlows.toNat then throw (.flowLimit tables.live shared.maxFlows)
  else set { tables with live := shared.layout.saturatingAdd tables.live 1 }

def release : SpawnM PUnit := modify fun tables => { tables with live := tables.live - 1 }

def tryNextFlowId : SpawnM FlowId := do
  let tables ← get
  if tables.idsExhausted then throw .flowIdExhausted
  else do
    set { tables with nextFlowId := tables.nextFlowId + 1, idsExhausted := tables.nextFlowId == 0 }
    if tables.nextFlowId = 0 then throw .flowIdExhausted else pure tables.nextFlowId

def aborting {α : Type} (id : FlowId) (m : SpawnM α) : SpawnM α :=
  onError m fun e => do
    release
    modify fun tables => { tables with caps := tables.caps.revokeFlow id }
    throw e

def passCap (parent : Option FlowId) (child : FlowId) (id : CapId) : SpawnM CapId := do
  let tables ← get
  let draws := tables.random tables.calls
  let (caps, result) := match parent with
    | none => tables.caps.reissueFor id child draws
    | some holder => tables.caps.delegate id holder child draws
  set { tables with caps := caps, calls := tables.calls + 1 }
  reading fun _ => result.mapError fun _ => .invalidCapability

def mintHostRequestId : SpawnM UInt64 := do
  let tables ← get
  if tables.hostNextRequestId = 0 then throw .requestIdsExhausted
  else do
    set { tables with hostNextRequestId := tables.hostNextRequestId + 1 }
    pure tables.hostNextRequestId

def requestIdOr (requestId : UInt64) : SpawnM UInt64 := if requestId = 0 then mintHostRequestId else pure requestId

def replyCapOr (parent : Option FlowId) (child : FlowId) (replyCap : CapId) : SpawnM CapId :=
  if replyCap.isNone then pure replyCap else passCap parent child replyCap

def stampArg (parent : Option FlowId) (child : FlowId) (message : Message) : SpawnM Message := do
  let sender := if message.sender = 0 then parent.getD message.sender else message.sender
  let requestId ← requestIdOr message.requestId
  let replyCap ← replyCapOr parent child message.replyCap
  pure { message with sender := sender, requestId := requestId, replyCap := replyCap }

def grantCapsInArgs (parent : Option FlowId) (child : FlowId) : List Value → SpawnM (List Value)
  | [] => pure []
  | arg :: rest =>
    if arg.withinNestingLimit = false then throw .invalidCapability
    else do
      let granted ← arg.mapCaps .invalidCapability (passCap parent child) (stampArg parent child) 0
      let out ← grantCapsInArgs parent child rest
      pure (granted :: out)

def buildVm (shared : SpawnShared) (call : SpawnCall) (authority : Cap) (args : List Value) (tables : SpawnTables) :
    Except SpawnError Vm :=
  let gate := NativeGate.fromAuthority authority 0 (tables.caps.epoch tables.caps.nativeCell) call.natives.len
  (Vm.withNativeGate shared.layout call.chunk call.natives gate call.function args).mapError (.ofFault shared.display)

def chargeVm (shared : SpawnShared) (vm : Vm) (tables : SpawnTables) : Except SpawnError Vm :=
  ((vm.setMemoryBudget tables.memory).setQuota ⟨shared.memLimit, 0⟩).mapError (.ofFault shared.display)

def register (id : FlowId) : SpawnM PUnit := do
  let tables ← get
  if id ∈ tables.directory then throw .unavailable else set { tables with directory := id :: tables.directory }

def spawnOn (shared : SpawnShared) (call : SpawnCall) : SpawnM FlowId := do
  reading fun _ => if call.bytecode.isSome then checkBytecodeArity call.chunk call.function call.args else .ok ()
  tryReserve shared
  let id ← onError tryNextFlowId fun e => do
    release
    throw e
  modify fun tables => { tables with caps := (tables.caps.bindFlow id).1 }
  let authority ← aborting id (reading fun _ =>
    spawnAuthority ⟨shared.rootAuthority, call.natives.len⟩ id call.bytecode call.hostAuthority)
  let args ← aborting id (grantCapsInArgs call.parent id call.args)
  let vm ← aborting id (reading (buildVm shared call authority args))
  let vm ← aborting id (reading (chargeVm shared vm))
  modify fun tables => { tables with memory := vm.memory.getD tables.memory }
  aborting id (register id)
  modify fun tables => { tables with quotas := (id, vm.quota.getD ⟨shared.memLimit, 0⟩) :: tables.quotas.filter (·.1 ≠ id) }
  pure id

-- The id is not one that the allocator will still hand out.
def Issued (tables : SpawnTables) (flow : FlowId) : Prop :=
  tables.idsExhausted = false → tables.nextFlowId ≠ 0 → flow < tables.nextFlowId

end SpawnTables

structure CapTable.Names (known : FlowId → Prop) (caps : CapTable) : Prop where
  entries : ∀ row ∈ caps.entries, known row.2.holder ∧ ∀ flow, row.2.cap.target = .flow flow → known flow
  cells : ∀ row ∈ caps.flowCells, known row.1
  replies : ∀ row ∈ caps.replyIndex, known row.1.1 ∧ known row.1.2

-- A table in which a new flow has been bound and given copies of entries.
structure CapTable.Grown (before : CapTable) (child : FlowId) (after : CapTable) : Prop where
  entries : ∃ rows, after.entries = rows ++ before.entries ∧ ∀ row ∈ rows, row.2.holder = child ∧
    ∃ src ∈ before.entries, row.2.cap.target = src.2.cap.target
  flowCells : after.flowCells = (child, before.cells.length) :: before.flowCells
  tableCells : after.tableCells = before.tableCells
  replyIndex : after.replyIndex = before.replyIndex
  cells : after.cells = before.cells ++ [0]

namespace CapTable

variable {before after : CapTable} {child : FlowId}

theorem names_mono {known wider : FlowId → Prop} (names : Names known before) (weaker : ∀ flow, known flow → wider flow) :
    Names wider before where
  entries row member := ⟨weaker _ (names.entries row member).1, fun flow target => weaker _ ((names.entries row member).2 flow target)⟩
  cells row member := weaker _ (names.cells row member)
  replies row member := ⟨weaker _ (names.replies row member).1, weaker _ (names.replies row member).2⟩

theorem bind_flow_grown (fresh : Names (· ≠ child) before) : Grown before child (before.bindFlow child).1 := by
  have unbound : before.flowCells.lookup child = none := by
    rw [lookup_eq_none_iff]
    intro row member
    simpa using (fresh.cells row member).symm
  rw [bindFlow, unbound]
  exact ⟨⟨[], rfl, nofun⟩, rfl, rfl, rfl, rfl⟩

theorem derives_grown {id : CapId} {draws : CapDraws} {allowed : Capability → Prop} {result : CapTable × Except CapError CapId}
    (grown : Grown before child after) (derives : Derives after id child draws allowed result) :
    Grown before child result.1 := by
  cases derives with
  | refused e => exact grown
  | derived src wantRights wantNative new later found held inserted =>
    obtain ⟨rows, isGrown, passed⟩ := grown.entries
    rw [inserted.grown]
    refine { grown with entries := ⟨(new, _) :: rows, congrArg _ isGrown, fun row member => ?_⟩ }
    rcases mem_cons.mp member with rfl | old
    · refine ⟨rfl, ?_⟩
      have there := (lookup_mem found).2.2
      rw [isGrown] at there
      rcases mem_append.mp there with added | kept
      · exact (passed _ added).2
      · exact ⟨_, kept, rfl⟩
    · exact passed row old

theorem grown_revoked (fresh : Names (· ≠ child) before) (grown : Grown before child after) :
    (after.revokeFlow child).entries = before.entries ∧ (after.revokeFlow child).flowCells = before.flowCells ∧
      (after.revokeFlow child).tableCells = before.tableCells ∧ (after.revokeFlow child).replyIndex = before.replyIndex ∧
      ∀ cell < before.cells.length, (after.revokeFlow child).epoch cell = before.epoch cell := by
  obtain ⟨rows, isGrown, passed⟩ := grown.entries
  have bound : after.flowCells.lookup child = some before.cells.length := by
    rw [grown.flowCells]
    simp
  simp only [revokeFlow, revokeCell, bound, epoch]
  refine ⟨?_, ?_, grown.tableCells, ?_, fun cell old => ?_⟩
  · rw [isGrown, filter_append, filter_eq_nil_iff.mpr, filter_eq_self.mpr, nil_append]
    · intro row member
      simpa using ⟨(fresh.entries row member).1, fun target => (fresh.entries row member).2 child target rfl⟩
    · intro row member
      simp [(passed row member).1]
  · rw [grown.flowCells, filter_cons_of_neg (by simp), filter_eq_self.mpr]
    intro row member
    simpa using fresh.cells row member
  · rw [grown.replyIndex, filter_eq_self.mpr]
    intro row member
    simpa using fresh.replies row member
  · rw [grown.cells, getD_eq_getElem?_getD, getElem?_modify_ne _ _ (Nat.ne_of_gt old),
      getElem?_append_left old, getD_eq_getElem?_getD]

end CapTable

namespace SpawnTables

open CapTable (Names Grown)

structure Restored (before after : SpawnTables) : Prop where
  live : after.live = before.live
  directory : after.directory = before.directory
  quotas : after.quotas = before.quotas
  memory : after.memory = before.memory
  entries : after.caps.entries = before.caps.entries
  flowCells : after.caps.flowCells = before.caps.flowCells
  tableCells : after.caps.tableCells = before.caps.tableCells
  replyIndex : after.caps.replyIndex = before.caps.replyIndex
  epochs : ∀ cell < before.caps.cells.length, after.caps.epoch cell = before.caps.epoch cell

structure Sound (tables : SpawnTables) : Prop where
  named : Names tables.Issued tables.caps
  listed : ∀ flow ∈ tables.directory, tables.Issued flow
  counted : tables.live = tables.directory.length

structure Opened (before : SpawnTables) (id : FlowId) (tables : SpawnTables) : Prop where
  live : tables.live = before.live + 1
  directory : tables.directory = before.directory
  quotas : tables.quotas = before.quotas
  nextFlowId : tables.nextFlowId = id + 1
  idsExhausted : tables.idsExhausted = false
  caps : Grown before.caps id tables.caps

section Calls

variable {before : SpawnTables} {id : FlowId} {parent : Option FlowId}

-- Holds while the arguments are granted and the VM is built, until the memory
-- is charged.
def Uncharged (before : SpawnTables) (id : FlowId) (tables : SpawnTables) : Prop :=
  Opened before id tables ∧ tables.memory = before.memory

abbrev Keeps (before : SpawnTables) (id : FlowId) (α : Type) (m : SpawnM α) : Prop :=
  Triple (Uncharged before id) m (fun _ => Uncharged before id) fun _ => Uncharged before id

theorem pass_cap_keeps (cap : CapId) : Keeps before id CapId (passCap parent id cap) := by
  refine triple_get_bind fun tables ⟨opened, memory⟩ => ?_
  have grown : Grown before.caps id (match parent with
      | none => tables.caps.reissueFor cap id (tables.random tables.calls)
      | some holder => tables.caps.delegate cap holder id (tables.random tables.calls)).1 := by
    cases parent with
    | none => exact derives_grown opened.caps (reissue_for_derives ..)
    | some holder => exact derives_grown opened.caps (delegate_derives ..)
  refine triple_bind (triple_modify _ (fun _ => Uncharged before id) fun _ _ => ?_) fun _ => ?_
  · exact ⟨{ opened with caps := grown }, memory⟩
  · exact triple_reading _ (fun _ _ pre _ => pre) fun _ _ pre _ => pre

theorem mint_host_request_id_keeps : Keeps before id UInt64 mintHostRequestId := by
  refine triple_get_bind fun tables pre => triple_ite _ (fun _ => ?_) fun _ => ?_
  · refine triple_throw _ fun _ same => ?_
    rw [same]
    exact pre
  · refine triple_bind (triple_modify _ (fun _ => Uncharged before id) fun _ _ => ?_) fun _ => triple_pure _ fun _ kept => kept
    exact ⟨{ pre.1 with }, pre.2⟩

theorem grant_caps_keeps (args : List Value) : Keeps before id (List Value) (grantCapsInArgs parent id args) := by
  have granted : Built (Keeps before id) (List Value) (grantCapsInArgs parent id args) := by
    induction args with
    | nil => exact .pure []
    | cons arg rest ih =>
      rw [grantCapsInArgs]
      refine built_ite _ (.throw _) (.bind (map_caps_built (fun cap => .atom (pass_cap_keeps cap)) (fun hop => ?_) arg 0)
        fun next => .bind ih fun out => .pure _)
      refine .bind (built_ite _ (.atom mint_host_request_id_keeps) (.pure _)) fun requestId => ?_
      exact .bind (built_ite _ (.pure _) (.atom (pass_cap_keeps _))) fun replyCap => .pure _
  exact built_keeps (fun _ _ kept => kept) granted

def Failed (before after : SpawnTables) : Prop := Restored before after ∧ Sound after

theorem restored_failed {after : SpawnTables} (sound : Sound before) (restored : Restored before after)
    (issued : ∀ flow, before.Issued flow → after.Issued flow) : Failed before after := by
  have named := names_mono sound.named issued
  refine ⟨restored, ⟨?_, ?_, ?_⟩, fun flow member => ?_, ?_⟩
  · rw [restored.entries]
    exact named.entries
  · rw [restored.flowCells]
    exact named.cells
  · rw [restored.replyIndex]
    exact named.replies
  · rw [restored.directory] at member
    exact issued flow (sound.listed flow member)
  · rw [restored.live, restored.directory]
    exact sound.counted

theorem failed_at_once (sound : Sound before) : Failed before before :=
  restored_failed sound ⟨rfl, rfl, rfl, rfl, rfl, rfl, rfl, rfl, fun _ _ => rfl⟩ fun _ issued => issued

theorem aborting_fails {α : Type} {m : SpawnM α} {Q : α → SpawnTables → Prop} (sound : Sound before)
    (fresh : Names (· ≠ id) before.caps) (later : ∀ flow, before.Issued flow → id + 1 ≠ 0 → flow < id + 1)
    (body : Triple (Uncharged before id) m Q fun _ => Uncharged before id) :
    Triple (Uncharged before id) (aborting id m) Q fun _ => Failed before := by
  refine triple_on_error body fun e tables ⟨opened, memory⟩ => ?_
  obtain ⟨entries, flowCells, tableCells, replyIndex, epochs⟩ := grown_revoked fresh opened.caps
  have live : tables.live - 1 = before.live := by rw [opened.live, Nat.add_sub_cancel]
  refine restored_failed sound
    ⟨live, opened.directory, opened.quotas, memory, entries, flowCells, tableCells, replyIndex, epochs⟩ fun flow issued => ?_
  intro _ unwrapped
  change tables.nextFlowId ≠ 0 at unwrapped
  change flow < tables.nextFlowId
  rw [opened.nextFlowId] at unwrapped ⊢
  exact later flow issued unwrapped

structure Hands (before : SpawnTables) (id : FlowId) : Prop where
  fresh : ∀ flow, before.Issued flow → flow ≠ id
  later : ∀ flow, before.Issued flow → id + 1 ≠ 0 → flow < id + 1

theorem next_id_hands (going : before.idsExhausted = false) (unwrapped : before.nextFlowId ≠ 0) :
    Hands before before.nextFlowId := by
  refine ⟨fun flow issued => ?_, fun flow issued room => ?_⟩
  · have below := issued going unwrapped
    grind
  · have below := issued going unwrapped
    grind

theorem try_reserve_spec (shared : SpawnShared) (sound : Sound before) (room : before.live < shared.layout.usizeMax) :
    Triple (fun t => t = before) (tryReserve shared) (fun _ t => t = { before with live := before.live + 1 })
      fun _ => Failed before := by
  refine triple_get_bind fun tables same => triple_ite _ (fun _ => ?_) fun _ => ?_
  · refine triple_throw _ fun t isTables => ?_
    rw [isTables, same]
    exact failed_at_once sound
  · intro t isTables
    rw [same]
    change _ = _
    simp only [Layout.saturatingAdd, Nat.min_eq_left room]

theorem next_flow_id_spec (sound : Sound before) :
    Triple (fun t => t = { before with live := before.live + 1 }) (onError tryNextFlowId fun e => do
        release
        throw e)
      (fun id t => Hands before id ∧ t = { before with live := before.live + 1, nextFlowId := id + 1, idsExhausted := false })
      fun _ => Failed before := by
  refine triple_on_error (F := fun _ t => ∃ next, t = { before with
    live := before.live + 1, nextFlowId := next, idsExhausted := true }) ?_ fun e => ?_
  · refine triple_get_bind fun tables same => triple_ite _ (fun ended => ?_) fun going => ?_
    · refine triple_throw _ fun t isTables => ⟨before.nextFlowId, ?_⟩
      rw [same] at isTables ended
      rw [isTables, ← ended]
    · rw [same] at going ⊢
      refine triple_bind (triple_modify _ (fun _ t => t = _) fun _ _ => rfl) fun _ => triple_ite _ (fun wrapped => ?_) fun unwrapped => ?_
      · refine triple_throw _ fun t isTables => ⟨before.nextFlowId + 1, isTables.trans ?_⟩
        simpa using wrapped
      · refine triple_pure _ fun t isTables => ⟨next_id_hands (by simpa using going) unwrapped, isTables.trans ?_⟩
        simp [unwrapped]
  · rintro t ⟨next, rfl⟩
    refine restored_failed sound ⟨rfl, rfl, rfl, rfl, rfl, rfl, rfl, rfl, fun _ _ => rfl⟩ fun flow _ => ?_
    exact fun going => nomatch going

theorem opened_sound {tables : SpawnTables} (sound : Sound before) (hands : Hands before id) (opened : Opened before id tables) :
    Sound { tables with directory := id :: tables.directory } := by
  obtain ⟨rows, isGrown, passed⟩ := opened.caps.entries
  have known : ∀ flow, before.Issued flow ∨ flow = id → Issued { tables with directory := id :: tables.directory } flow := by
    intro flow either _ unwrapped
    change tables.nextFlowId ≠ 0 at unwrapped
    change flow < tables.nextFlowId
    rw [opened.nextFlowId] at unwrapped ⊢
    rcases either with issued | same
    · exact hands.later flow issued unwrapped
    · grind
  refine ⟨⟨fun row member => ?_, fun row member => ?_, fun row member => ?_⟩, fun flow member => known flow ?_, ?_⟩
  · rcases mem_append.mp (isGrown ▸ member) with new | old
    · obtain ⟨holder, src, there, target⟩ := passed row new
      refine ⟨known _ (Or.inr holder), fun flow isTarget => known _ (Or.inl ?_)⟩
      exact (sound.named.entries src there).2 flow (target.symm.trans isTarget)
    · obtain ⟨holder, target⟩ := sound.named.entries row old
      exact ⟨known _ (Or.inl holder), fun flow isTarget => known _ (Or.inl (target flow isTarget))⟩
  · rcases mem_cons.mp (opened.caps.flowCells ▸ member) with rfl | old
    · exact known _ (Or.inr rfl)
    · exact known _ (Or.inl (sound.named.cells row old))
  · have old := sound.named.replies row (opened.caps.replyIndex ▸ member)
    exact ⟨known _ (Or.inl old.1), known _ (Or.inl old.2)⟩
  · rcases mem_cons.mp member with same | old
    · exact Or.inr same
    · exact Or.inl (sound.listed flow (opened.directory ▸ old))
  · rw [opened.live, sound.counted, length_cons, opened.directory]

theorem spawn_on_spec (shared : SpawnShared) (call : SpawnCall) (sound : Sound before)
    (room : before.directory.length < shared.layout.usizeMax) :
    Triple (fun t => t = before) (spawnOn shared call) (fun _ => Sound) fun _ => Failed before := by
  refine triple_bind (triple_reading (Q := fun _ t => t = before) _ (fun _ _ same _ => same) fun _ e same _ => ?_) fun _ => ?_
  · rw [same]
    exact failed_at_once sound
  refine triple_bind (try_reserve_spec shared sound (sound.counted ▸ room)) fun _ => ?_
  refine triple_bind (next_flow_id_spec sound) fun id => triple_fact fun hands => ?_
  have fresh : Names (· ≠ id) before.caps := names_mono sound.named hands.fresh
  have reads : ∀ {α : Type} (f : SpawnTables → Except SpawnError α),
      Triple (Uncharged before id) (aborting id (reading f)) (fun _ => Uncharged before id) fun _ => Failed before :=
    fun f => aborting_fails sound fresh hands.later (triple_reading f (fun _ _ pre _ => pre) fun _ _ pre _ => pre)
  refine triple_bind (triple_modify _ (fun _ => Uncharged before id) ?_) fun _ => ?_
  · rintro t rfl
    exact ⟨⟨rfl, rfl, rfl, rfl, rfl, bind_flow_grown fresh⟩, rfl⟩
  refine triple_bind (reads _) fun authority => ?_
  refine triple_bind (aborting_fails sound fresh hands.later (grant_caps_keeps call.args)) fun args => ?_
  refine triple_bind (reads _) fun vm => triple_bind (reads _) fun charged => ?_
  refine triple_bind (triple_modify _ (fun _ => Opened before id) fun t ⟨opened, _⟩ => { opened with }) fun _ => ?_
  -- The directory cannot refuse an id that was never handed out.
  refine triple_bind (R := fun _ => Sound) (triple_on_error (F := fun _ _ => False) ?_ fun _ _ none => none.elim) fun _ => ?_
  · refine triple_get_bind fun tables opened => triple_ite _ (fun taken => ?_) fun _ _ _ => opened_sound sound hands opened
    rw [opened.directory] at taken
    exact absurd rfl (hands.fresh id (sound.listed id taken))
  · exact triple_bind (triple_modify _ (fun _ => Sound) fun t sound => { sound with }) fun _ => triple_pure _ fun _ sound => sound

end Calls

-- work is what the flows and the host do with the tables between the calls.
inductive TablesEvent where
  | spawn (call : SpawnCall)
  | finalize (id : FlowId)
  | work (caps : CapTable) (quotas : List (FlowId × FlowQuota)) (memory : MemoryBudget) (hostNextRequestId : UInt64)

def next (shared : SpawnShared) (tables : SpawnTables) : TablesEvent → Option SpawnTables
  | .spawn call => some (exec (spawnOn shared call) tables).2
  | .finalize id =>
    if id ∈ tables.directory then
      some { tables with
        live := tables.live - 1
        directory := tables.directory.erase id
        quotas := tables.quotas.filter (·.1 ≠ id)
        caps := tables.caps.revokeFlow id }
    else none
  | .work caps quotas memory hostNextRequestId =>
    some { tables with caps := caps, quotas := quotas, memory := memory, hostNextRequestId := hostNextRequestId }

-- The directory is a map in memory, and the capability table names flows that
-- were spawned.
def Possible (shared : SpawnShared) (tables : SpawnTables) : TablesEvent → Prop
  | .spawn _ => tables.directory.length < shared.layout.usizeMax
  | .finalize _ => True
  | .work caps _ _ _ => Names tables.Issued caps

def initial (limit : Nat) (random : Nat → CapDraws) : SpawnTables := ⟨0, 1, false, .new, [], [], ⟨limit, 0⟩, 1, random, 0⟩

theorem revoke_flow_names {known : FlowId → Prop} {caps : CapTable} (named : Names known caps) (id : FlowId) :
    Names known (caps.revokeFlow id) :=
  ⟨fun row member => named.entries row (mem_of_mem_filter member),
    fun row member => named.cells row (mem_of_mem_filter member),
    fun row member => named.replies row (mem_of_mem_filter member)⟩

theorem sound_step {shared : SpawnShared} {before after : SpawnTables} {event : TablesEvent} (sound : Sound before)
    (possible : Possible shared before event) (stepped : next shared before event = some after) : Sound after := by
  cases event with
  | spawn call =>
    cases stepped
    have ends := spawn_on_spec shared call sound possible before rfl
    revert ends
    rcases exec (spawnOn shared call) before with ⟨e | id, tables⟩
    · exact fun failed => failed.2
    · exact fun done => done
  | finalize id =>
    obtain ⟨member, ⟨⟩⟩ := Option.ite_none_right_eq_some.mp stepped
    refine ⟨revoke_flow_names sound.named id, fun flow kept => sound.listed flow (mem_of_mem_erase kept), ?_⟩
    rw [sound.counted, length_erase_of_mem member]
  | work caps quotas memory hostNextRequestId =>
    cases stepped
    exact ⟨possible, sound.listed, sound.counted⟩

theorem failed_spawn_leaves_nothing (shared : SpawnShared) (limit : Nat) (random : Nat → CapDraws) (tables after : SpawnTables)
    (reached : Reach (next shared) (Possible shared) (initial limit random) tables) (call : SpawnCall)
    (possible : Possible shared tables (.spawn call)) (e : SpawnError)
    (failed : exec (spawnOn shared call) tables = (.error e, after)) : Restored tables after := by
  have sound : Sound tables := by
    refine reach_invariant ?_ (fun before event after sound possible stepped => sound_step sound possible stepped) reached
    exact ⟨⟨nofun, nofun, nofun⟩, nofun, rfl⟩
  have ends := spawn_on_spec shared call sound possible tables rfl
  rw [failed] at ends
  exact ends.1

def oneFlow : SpawnCall where
  chunk := { name := "one", constants := [], code := [], functions := [{ name := "main", entry := 0, arity := 0, numRegisters := 2 }] }
  natives := ⟨[]⟩
  function := 0
  args := []
  parent := none
  bytecode := none
  hostAuthority := none

def halfGranted : SpawnCall := { oneFlow with args := [.list [.cap ⟨7⟩, .cap ⟨8⟩]], parent := some 1 }

def smallShared : SpawnShared := ⟨.word, fun _ => "", 0, .trustedHost, 2 ^ 20⟩

def heldBy (holder : FlowId) : CapTable :=
  { CapTable.new with entries := [(⟨7⟩, ⟨holder, Cap.root (.flow holder) .ADDRESSING none 0, 0⟩)], flowCells := [(holder, 0)] }

theorem half_granted_spawn_restored : ∃ tables after,
    Reach (next smallShared) (Possible smallShared) (initial (2 ^ 20) fun _ => [.ok ⟨9⟩]) tables ∧
      exec (spawnOn smallShared halfGranted) tables = (.error .invalidCapability, after) ∧ after.calls = 2 ∧
      tables.directory = [1] ∧ Restored tables after := by
  have first : Reach (next smallShared) (Possible smallShared) (initial (2 ^ 20) fun _ => [.ok ⟨9⟩]) _ :=
    .step _ (.spawn oneFlow) _ .here (by change 0 < 2 ^ 64 - 1; decide) rfl
  have named : Names (· = 1) (heldBy 1) := by
    refine ⟨fun row member => ?_, fun row member => ?_, nofun⟩
    · rw [mem_singleton.mp member]
      exact ⟨rfl, fun flow target => (CapTarget.flow.inj target).symm⟩
    · rw [mem_singleton.mp member]
  have reached := Reach.step _ (TablesEvent.work (heldBy 1) [] ⟨2 ^ 20, 0⟩ 1) _ first
    (names_mono named fun flow same => by rw [same]; exact fun _ _ => by decide) rfl
  exact ⟨_, _, reached, rfl, rfl, rfl,
    failed_spawn_leaves_nothing _ _ _ _ _ reached halfGranted (by change 1 < 2 ^ 64 - 1; decide) _ rfl⟩

end SpawnTables

end Byteflow
