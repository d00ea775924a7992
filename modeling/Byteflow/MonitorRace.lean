import Byteflow.MonitorTable

namespace Byteflow

open MonitorTable List Assoc Transition

-- finalize_one from the revocation of the flow's capabilities on, by its next step.
inductive ExitStage where
  | unregister | disown | notify
  | deliver (events : List DownEvent)
deriving DecidableEq, Repr

inductive MonitorPhase where
  | unborn | live
  | exiting (reason : FlowExitReason) (stage : ExitStage)
  | finalized
deriving DecidableEq, Repr

-- A thread in the Monitor opcode (resolving, checkingCell, creating) or in
-- Runtime::monitor, by its next lock step.
inductive MonitorCall where
  | resolving (owner target : FlowId)
  | checkingCell (owner target : FlowId)
  | requiringOwner (owner target : FlowId)
  | requiringTarget (owner target : FlowId)
  | creating (host : Bool) (owner target : FlowId)
  | rechecking (id : MonitorRef) (owner target : FlowId)
  | removing (id : MonitorRef) (owner target : FlowId)
  | delivering (id : MonitorRef) (owner target : FlowId)
  | refused
  | created (id : MonitorRef) (owner target : FlowId)
deriving DecidableEq, Repr

-- downs is the history of the run: the events deliver_down was called with.
structure MonitorRace where
  table : MonitorTable
  maxMonitors : Nat
  nextMonitor : MonitorRef
  phases : FlowId → MonitorPhase
  calls : List MonitorCall
  downs : List DownEvent

-- granted is the answer of the capability table while the target is not revoked.
inductive MonitorEvent where
  | spawn (flow : FlowId)
  | opcode (owner target : FlowId)
  | host (owner target : FlowId)
  | step (index : Nat) (granted : Bool)
  | exit (flow : FlowId) (reason : FlowExitReason)
  | finalStep (flow : FlowId)
deriving DecidableEq, Repr

namespace MonitorPhase

def inDirectory : MonitorPhase → Bool
  | .live | .exiting _ .unregister => true
  | _ => false

def ownsMonitors : MonitorPhase → Bool
  | .unborn | .live | .exiting _ .unregister | .exiting _ .disown => true
  | _ => false

def pastNotify : MonitorPhase → Bool
  | .exiting _ (.deliver _) | .finalized => true
  | _ => false

def pending : MonitorPhase → List DownEvent
  | .exiting _ (.deliver events) => events
  | _ => []

end MonitorPhase

namespace MonitorRace

def initial (maxMonitors : Nat) : MonitorRace := ⟨.new, maxMonitors, 1, fun _ => .unborn, [], []⟩

def setPhase (race : MonitorRace) (flow : FlowId) (phase : MonitorPhase) : MonitorRace :=
  { race with phases := Function.update race.phases flow phase }

def create (race : MonitorRace) (owner target : FlowId) : MonitorRace × Option MonitorRef :=
  if race.maxMonitors ≠ 0 ∧ race.table.monitors.length ≥ race.maxMonitors then (race, none)
  else if race.nextMonitor > MAX_MONITOR_ID then (race, none)
  else ({ race with
    table := race.table.insert race.nextMonitor owner target
    nextMonitor := race.nextMonitor + 1 }, some race.nextMonitor)

def advance (race : MonitorRace) (granted : Bool) : MonitorCall → Option (MonitorRace × MonitorCall)
  | .resolving owner target =>
    some (race, if granted ∧ race.phases target = .live then .checkingCell owner target else .refused)
  | .checkingCell owner target =>
    some (race, if granted ∧ race.phases target = .live then
      (if target = owner then .refused else .creating false owner target) else .refused)
  | .requiringOwner owner target =>
    some (race, if (race.phases owner).inDirectory then .requiringTarget owner target else .refused)
  | .requiringTarget owner target =>
    some (race, if (race.phases target).inDirectory then .creating true owner target else .refused)
  | .creating host owner target =>
    match race.create owner target with
    | (_, none) => some (race, .refused)
    | (after, some id) => some (after, if host then .rechecking id owner target else .created id owner target)
  | .rechecking id owner target =>
    some (race, if (race.phases target).inDirectory then .created id owner target else .removing id owner target)
  | .removing id owner target =>
    -- The result of remove_owned is not looked at.
    some ({ race with table := (race.table.removeOwned owner id).1 }, .delivering id owner target)
  | .delivering id owner target =>
    some ({ race with downs := race.downs ++ [⟨id, owner, target, .fault⟩] }, .created id owner target)
  | .refused | .created .. => none

def finalStep (race : MonitorRace) (flow : FlowId) : Option MonitorRace :=
  match race.phases flow with
  | .exiting reason .unregister => some (race.setPhase flow (.exiting reason .disown))
  | .exiting reason .disown =>
    some { race.setPhase flow (.exiting reason .notify) with table := race.table.removeOwnedBy flow }
  | .exiting reason .notify =>
    let (after, events) := race.table.notifyTargetExit flow reason
    some { race.setPhase flow (.exiting reason (.deliver events)) with table := after }
  | .exiting _ (.deliver []) => some (race.setPhase flow .finalized)
  | .exiting reason (.deliver (event :: rest)) =>
    some { race.setPhase flow (.exiting reason (.deliver rest)) with downs := race.downs ++ [event] }
  | .unborn | .live | .finalized => none

def next (race : MonitorRace) : MonitorEvent → Option MonitorRace
  | .spawn flow => if race.phases flow = .unborn then some (race.setPhase flow .live) else none
  | .opcode owner target =>
    if race.phases owner = .live then some { race with calls := race.calls ++ [.resolving owner target] } else none
  | .host owner target =>
    if owner = target then none else some { race with calls := race.calls ++ [.requiringOwner owner target] }
  | .step index granted =>
    match race.calls[index]? with
    | none => none
    | some call =>
      match race.advance granted call with
      | none => none
      | some (after, left) => some { after with calls := after.calls.set index left }
  | .exit flow reason =>
    if race.phases flow = .live then some (race.setPhase flow (.exiting reason .unregister)) else none
  | .finalStep flow => race.finalStep flow

-- The opcode inserts its row before the target's sweep, and a host that finds
-- the target gone finds its row still there, unless the owner's end took it.
def CallInTime (race : MonitorRace) : MonitorCall → Prop
  | .creating false owner target => (race.create owner target).2.isSome = true → (race.phases target).pastNotify = false
  | .removing id owner target => (race.phases owner).ownsMonitors = true → (id, ⟨owner, target⟩) ∈ race.table.monitors
  | _ => True

instance (race : MonitorRace) : DecidablePred race.CallInTime
  | .creating false .. | .removing .. => inferInstanceAs (Decidable (_ = true → _))
  | .resolving .. | .checkingCell .. | .requiringOwner .. | .requiringTarget .. | .creating true .. | .rechecking ..
  | .delivering .. | .refused | .created .. => isTrue trivial

def InTime (race : MonitorRace) : MonitorEvent → Prop
  | .step index _ => ∀ call ∈ race.calls[index]?, race.CallInTime call
  | _ => True

instance (race : MonitorRace) : DecidablePred race.InTime
  | .step index _ => inferInstanceAs (Decidable (∀ call ∈ race.calls[index]?, race.CallInTime call))
  | .spawn _ | .opcode .. | .host .. | .exit .. | .finalStep _ => isTrue trivial

end MonitorRace

namespace MonitorCall

def row : MonitorCall → Option (MonitorRef × MonitorEntry)
  | .rechecking id owner target | .removing id owner target | .delivering id owner target | .created id owner target =>
    some (id, ⟨owner, target⟩)
  | _ => none

def due : MonitorCall → Nat
  | .delivering .. => 1
  | _ => 0

-- The host has not yet looked whether the target is still there, or is about
-- to take its row back.
def undecided : MonitorCall → Bool
  | .rechecking .. | .removing .. => true
  | _ => false

def ended : MonitorCall → Bool
  | .refused | .created .. => true
  | _ => false

end MonitorCall

namespace MonitorRace

def rows (race : MonitorRace) (id : MonitorRef) : Nat := (race.table.monitors.map Prod.fst).count id

def pend (race : MonitorRace) (target : FlowId) (id : MonitorRef) : Nat :=
  ((race.phases target).pending.map DownEvent.monitor).count id

def hops (race : MonitorRace) (id : MonitorRef) : Nat := (race.downs.map DownEvent.monitor).count id

-- What holds for a call that has created the monitor id: while its owner keeps
-- its monitors, the row, a hop on its way and the hops produced add up to one.
structure Accounted (race : MonitorRace) (call : MonitorCall) (id : MonitorRef) (entry : MonitorEntry) : Prop where
  named : id < race.nextMonitor
  own : ∀ other, (id, other) ∈ race.table.monitors → other = entry
  about : ∀ event, (event ∈ race.downs ∨ ∃ flow, event ∈ (race.phases flow).pending) → event.monitor = id →
    event.owner = entry.owner ∧ event.target = entry.target
  once : (race.phases entry.owner).ownsMonitors = true →
    race.rows id + race.pend entry.target id + call.due + race.hops id = 1
  late : (id, entry) ∈ race.table.monitors → (race.phases entry.target).pastNotify = true → call.undecided = true

structure Sound (race : MonitorRace) : Prop where
  agrees : race.table.Lockstep
  numbered : ∀ id entry, (id, entry) ∈ race.table.monitors → id < race.nextMonitor
  sent : ∀ event ∈ race.downs, event.monitor < race.nextMonitor
  waiting : ∀ flow, ∀ event ∈ (race.phases flow).pending, event.monitor < race.nextMonitor ∧ event.target = flow
  apart : Apart MonitorCall.row race.calls
  rowed : ∀ id entry, (id, entry) ∈ race.table.monitors → ∃ call ∈ race.calls, call.row = some (id, entry)
  accounted : ∀ call ∈ race.calls, ∀ id entry, call.row = some (id, entry) → race.Accounted call id entry

section Steps

variable {race after : MonitorRace} {index : Nat} {call left : MonitorCall}
  {reason : FlowExitReason} {target flow owner : FlowId} {entry : MonitorEntry} {id : MonitorRef}

theorem rows_of_mem (agrees : race.table.Lockstep) (row : (id, entry) ∈ race.table.monitors) : race.rows id = 1 :=
  List.count_eq_one_of_mem agrees.unique (mem_map.mpr ⟨(id, entry), row, rfl⟩)

theorem rows_of_not_mem (absent : ∀ entry, (id, entry) ∉ race.table.monitors) : race.rows id = 0 := by
  refine List.count_eq_zero_of_not_mem fun member => ?_
  obtain ⟨⟨_, entry⟩, row, rfl⟩ := mem_map.mp member
  exact absent entry row

theorem rows_same (agrees : race.table.Lockstep) (afterAgrees : after.table.Lockstep)
    (same : ∀ entry, (id, entry) ∈ after.table.monitors ↔ (id, entry) ∈ race.table.monitors) :
    after.rows id = race.rows id := by
  by_cases there : ∃ entry, (id, entry) ∈ race.table.monitors
  · obtain ⟨entry, row⟩ := there
    rw [rows_of_mem agrees row, rows_of_mem afterAgrees ((same entry).mpr row)]
  · rw [rows_of_not_mem fun entry row => there ⟨entry, row⟩,
      rows_of_not_mem fun entry row => there ⟨entry, (same entry).mp row⟩]

structure CallStep (race : MonitorRace) (call : MonitorCall) (after : MonitorRace) (left : MonitorCall) : Prop where
  phases : after.phases = race.phases
  calls : after.calls = race.calls
  agrees : after.table.Lockstep
  later : race.nextMonitor ≤ after.nextMonitor
  numbered : ∀ id entry, (id, entry) ∈ after.table.monitors → id < after.nextMonitor
  sent : ∀ event ∈ after.downs, event.monitor < after.nextMonitor
  others : ∀ id, (∀ entry, call.row ≠ some (id, entry)) → id < race.nextMonitor →
    (∀ entry, (id, entry) ∈ after.table.monitors ↔ (id, entry) ∈ race.table.monitors) ∧
    (∀ event ∈ after.downs, event.monitor = id → event ∈ race.downs) ∧ after.hops id = race.hops id
  inherits : ∀ id entry, left.row = some (id, entry) → call.row = some (id, entry) ∨ race.nextMonitor ≤ id
  rowed : ∀ id entry, (id, entry) ∈ after.table.monitors →
    left.row = some (id, entry) ∨ (id, entry) ∈ race.table.monitors ∧ call.row ≠ some (id, entry)
  accounted : ∀ id entry, left.row = some (id, entry) → after.Accounted left id entry

variable (sound : Sound race)

include sound

theorem accounted_other (step : CallStep race call after left) {other : MonitorCall}
    (accounted : race.Accounted other id entry) (foreign : ∀ own, call.row ≠ some (id, own)) :
    after.Accounted other id entry := by
  obtain ⟨rows, downs, hops⟩ := step.others id foreign accounted.named
  refine ⟨Nat.lt_of_lt_of_le accounted.named step.later, fun own row => accounted.own own ((rows own).mp row),
    fun event there same => accounted.about event ?_ same, fun owns => ?_, fun row past => ?_⟩
  · rcases there with down | waiting
    · exact Or.inl (downs event down same)
    · exact Or.inr (step.phases ▸ waiting)
  · rw [rows_same sound.agrees step.agrees rows, hops, pend, step.phases]
    exact accounted.once (step.phases ▸ owns)
  · exact accounted.late ((rows entry).mp row) (step.phases ▸ past)

omit sound in
theorem accounted_calls (calls : List MonitorCall)
    (accounted : race.Accounted call id entry) : Accounted { race with calls := calls } call id entry :=
  ⟨accounted.named, accounted.own, accounted.about, accounted.once, accounted.late⟩

theorem sound_call (here : race.calls[index]? = some call) (step : CallStep race call after left) :
    Sound { after with calls := after.calls.set index left } := by
  have member : call ∈ race.calls := mem_of_getElem? here
  rw [step.calls]
  refine ⟨step.agrees, step.numbered, step.sent, fun flow event there => ?_, ?_, fun id entry row => ?_, fun other inside id entry row => ?_⟩
  · obtain ⟨bound, placed⟩ := sound.waiting flow event (step.phases ▸ there)
    exact ⟨Nat.lt_of_lt_of_le bound step.later, placed⟩
  · refine apart_set sound.apart here fun id entry mine => (step.inherits id entry mine).imp_right ?_
    exact fun fresh other inside own row => Nat.not_lt.mpr fresh (sound.accounted other inside id own row).named
  · rcases step.rowed id entry row with new | ⟨old, foreign⟩
    · exact ⟨left, mem_set (List.getElem?_eq_some_iff.mp here).1 left, new⟩
    · obtain ⟨other, inside, otherRow⟩ := sound.rowed id entry old
      refine ⟨other, mem_set_of_ne here inside ?_, otherRow⟩
      rintro rfl
      exact foreign otherRow
  · obtain ⟨position, found⟩ := List.mem_iff_getElem?.mp inside
    rcases mem_set_cases found with ⟨_, rfl⟩ | ⟨elsewhere, old⟩
    · exact accounted_calls _ (step.accounted id entry row)
    · have accounted := sound.accounted other (mem_of_getElem? old) id entry row
      refine accounted_calls _ (accounted_other sound step accounted fun own callRow => elsewhere ?_)
      exact sound.apart id position index other call entry own old here row callRow

omit sound in
theorem kept_row (row : left.row = call.row) (there : (id, entry) ∈ race.table.monitors) :
    left.row = some (id, entry) ∨ (id, entry) ∈ race.table.monitors ∧ call.row ≠ some (id, entry) := by
  by_cases mine : call.row = some (id, entry)
  · exact Or.inl (row.trans mine)
  · exact Or.inr ⟨there, mine⟩

theorem call_step_reads (member : call ∈ race.calls) (row : left.row = call.row) (due : left.due = call.due)
    (late : ∀ id entry, call.row = some (id, entry) → (race.phases entry.target).pastNotify = true →
      call.undecided = true → left.undecided = true) : CallStep race call race left where
  phases := rfl
  calls := rfl
  agrees := sound.agrees
  later := Nat.le_refl _
  numbered := sound.numbered
  sent := sound.sent
  others _ _ _ := ⟨fun _ => Iff.rfl, fun _ there _ => there, rfl⟩
  inherits id entry leftRow := Or.inl (row ▸ leftRow)
  rowed _ _ there := kept_row row there
  accounted id entry leftRow := by
    have callRow : call.row = some (id, entry) := row ▸ leftRow
    have accounted := sound.accounted call member id entry callRow
    refine ⟨accounted.named, accounted.own, accounted.about, fun owns => ?_, fun there past => ?_⟩
    · rw [due]
      exact accounted.once owns
    · exact late id entry callRow past (accounted.late there past)

theorem call_step_idle (member : call ∈ race.calls) (before : call.row = none) (now : left.row = none)
    (due : left.due = call.due) : CallStep race call race left :=
  call_step_reads sound member (now.trans before.symm) due fun _ _ row => by rw [before] at row; cases row

theorem fresh_silent :
    (∀ target, race.pend target race.nextMonitor = 0) ∧ race.hops race.nextMonitor = 0 ∧
      ∀ event, (event ∈ race.downs ∨ ∃ flow, event ∈ (race.phases flow).pending) → event.monitor ≠ race.nextMonitor := by
  have silent : ∀ event, (event ∈ race.downs ∨ ∃ flow, event ∈ (race.phases flow).pending) →
      event.monitor ≠ race.nextMonitor := by
    rintro event (down | ⟨flow, waits⟩)
    · exact Nat.ne_of_lt (sound.sent event down)
    · exact Nat.ne_of_lt (sound.waiting flow event waits).1
  refine ⟨fun target => List.count_eq_zero_of_not_mem fun member => ?_, List.count_eq_zero_of_not_mem fun member => ?_, silent⟩
  · obtain ⟨event, waits, same⟩ := mem_map.mp member
    exact silent event (Or.inr ⟨target, waits⟩) same
  · obtain ⟨event, down, same⟩ := mem_map.mp member
    exact silent event (Or.inl down) same

theorem call_step_create {host : Bool} (created : race.create owner target = (after, some id))
    (inTime : host = false → (race.phases target).pastNotify = false) :
    CallStep race (.creating host owner target) after
      (if host then .rechecking id owner target else .created id owner target) := by
  rw [create] at created
  split at created
  · cases created
  split at created
  · cases created
  cases created
  have fresh : ∀ entry, (race.nextMonitor, entry) ∉ race.table.monitors := fun entry row =>
    Nat.lt_irrefl _ (sound.numbered _ entry row)
  have leftRow : MonitorCall.row (if host then .rechecking race.nextMonitor owner target
      else .created race.nextMonitor owner target) = some (race.nextMonitor, ⟨owner, target⟩) := by
    cases host <;> rfl
  have leftDue : MonitorCall.due (if host then .rechecking race.nextMonitor owner target
      else .created race.nextMonitor owner target) = 0 := by
    cases host <;> rfl
  refine ⟨rfl, rfl, insert_lockstep sound.agrees owner target fresh, Nat.le_succ _, fun other entry row => ?_,
    fun event there => Nat.lt_succ_of_lt (sound.sent event there), fun other _ bound => ?_, fun other entry row => ?_,
    fun other entry row => ?_, fun other entry row => ?_⟩
  · rcases mem_insert.mp row with same | ⟨old, _⟩
    · cases same
      exact Nat.lt_succ_self _
    · exact Nat.lt_succ_of_lt (sound.numbered other entry old)
  · refine ⟨fun entry => ⟨fun row => ?_, fun row => mem_insert.mpr (Or.inr ⟨row, bound.ne⟩)⟩, fun _ there _ => there, rfl⟩
    rcases mem_insert.mp row with same | ⟨old, _⟩
    · cases same
      exact absurd bound (Nat.lt_irrefl _)
    · exact old
  · rw [leftRow] at row
    cases row
    exact Or.inr (Nat.le_refl _)
  · rcases mem_insert.mp row with same | ⟨old, _⟩
    · cases same
      exact Or.inl leftRow
    · exact Or.inr ⟨old, by rintro ⟨⟩⟩
  · rw [leftRow] at row
    cases row
    obtain ⟨noPend, noHop, silent⟩ := fresh_silent sound
    refine ⟨Nat.lt_succ_self _, fun other there => ?_, fun event there same => absurd same (silent event there),
      fun _ => ?_, fun _ past => ?_⟩
    · rcases mem_insert.mp there with same | ⟨old, _⟩
      · cases same
        rfl
      · exact absurd old (fresh other)
    · have one : rows { race with table := race.table.insert race.nextMonitor owner target } race.nextMonitor = 1 :=
        rows_of_mem (insert_lockstep sound.agrees owner target fresh) mem_cons_self
      rw [leftDue]
      exact congrArg₂ (· + ·) (congrArg₂ (· + ·) (congrArg₂ (· + ·) one (noPend target)) rfl) noHop
    · cases host with
      | true => rfl
      | false => exact absurd past (by rw [inTime rfl]; decide)

theorem call_step_remove
    (member : .removing id owner target ∈ race.calls)
    (inTime : (race.phases owner).ownsMonitors = true → (id, ⟨owner, target⟩) ∈ race.table.monitors) :
    CallStep race (.removing id owner target) { race with table := (race.table.removeOwned owner id).1 }
      (.delivering id owner target) := by
  obtain ⟨agrees, rows⟩ := remove_owned_spec sound.agrees owner id
  have accounted := sound.accounted _ member id ⟨owner, target⟩ rfl
  have gone : ∀ entry, (id, entry) ∉ (race.table.removeOwned owner id).1.monitors := by
    intro entry row
    obtain ⟨there, kept⟩ := (rows id entry).mp row
    rw [accounted.own entry there] at kept
    exact kept ⟨rfl, rfl⟩
  refine ⟨rfl, rfl, agrees, Nat.le_refl _, fun other entry row => sound.numbered other entry ((rows other entry).mp row).1,
    sound.sent, fun other foreign _ => ⟨fun entry => ?_, fun _ there _ => there, rfl⟩, fun other entry row => Or.inl row,
    fun other entry row => kept_row rfl ((rows other entry).mp row).1, fun other entry row => ?_⟩
  · rw [rows]
    refine ⟨And.left, fun row => ⟨row, ?_⟩⟩
    rintro ⟨rfl, _⟩
    exact foreign ⟨owner, target⟩ rfl
  · cases row
    refine ⟨accounted.named, fun other there => absurd there (gone other), accounted.about, fun owns => ?_,
      fun there => absurd there (gone _)⟩
    have before := accounted.once owns
    rw [rows_of_mem sound.agrees (inTime owns)] at before
    have none_ : MonitorRace.rows { race with table := (race.table.removeOwned owner id).1 } id = 0 := rows_of_not_mem gone
    rw [none_]
    change 0 + race.pend target id + 1 + race.hops id = 1
    change 1 + race.pend target id + 0 + race.hops id = 1 at before
    omega

theorem call_step_deliver (member : .delivering id owner target ∈ race.calls) :
    CallStep race (.delivering id owner target) { race with downs := race.downs ++ [⟨id, owner, target, .fault⟩] }
      (.created id owner target) := by
  have accounted := sound.accounted _ member id ⟨owner, target⟩ rfl
  have more : ∀ other, hops { race with downs := race.downs ++ [⟨id, owner, target, .fault⟩] } other =
      race.hops other + if id = other then 1 else 0 := by
    intro other
    simp [hops, List.count_singleton]
  refine ⟨rfl, rfl, sound.agrees, Nat.le_refl _, sound.numbered, fun event there => ?_, fun other foreign _ => ?_,
    fun other entry row => Or.inl row, fun other entry row => kept_row rfl row, fun other entry row => ?_⟩
  · rcases mem_append.mp there with old | new
    · exact sound.sent event old
    · rw [mem_singleton.mp new]
      exact accounted.named
  · have different : id ≠ other := by
      rintro rfl
      exact foreign ⟨owner, target⟩ rfl
    refine ⟨fun _ => Iff.rfl, fun event there same => ?_, by rw [more, if_neg different]; rfl⟩
    rcases mem_append.mp there with old | new
    · exact old
    · rw [mem_singleton.mp new] at same
      exact absurd same different
  · cases row
    refine ⟨accounted.named, accounted.own, fun event there same => ?_, fun owns => ?_, fun there past => ?_⟩
    · rcases there with down | waits
      · rcases mem_append.mp down with old | new
        · exact accounted.about event (Or.inl old) same
        · rw [mem_singleton.mp new]
          exact ⟨rfl, rfl⟩
      · exact accounted.about event (Or.inr waits) same
    · have before := accounted.once owns
      rw [more, if_pos rfl]
      change race.rows id + race.pend target id + 0 + (race.hops id + 1) = 1
      change race.rows id + race.pend target id + 1 + race.hops id = 1 at before
      omega
    · cases accounted.late there past

theorem advance_step (member : call ∈ race.calls) {granted : Bool}
    (inTime : race.CallInTime call) (advanced : race.advance granted call = some (after, left)) : CallStep race call after left := by
  cases call with
  | resolving owner target | requiringOwner owner target | requiringTarget owner target =>
    cases advanced
    refine call_step_idle sound member rfl ?_ ?_
    · split <;> rfl
    · split <;> rfl
  | checkingCell owner target =>
    cases advanced
    refine call_step_idle sound member rfl ?_ ?_
    · split
      · split <;> rfl
      · rfl
    · split
      · split <;> rfl
      · rfl
  | creating host owner target =>
    rw [advance] at advanced
    cases created : race.create owner target with
    | mk middle result =>
      rw [created] at advanced
      cases result with
      | none =>
        cases advanced
        exact call_step_idle sound member rfl rfl rfl
      | some id =>
        cases advanced
        refine call_step_create sound created fun opcode => ?_
        subst opcode
        exact inTime (by rw [created]; rfl)
  | rechecking id owner target =>
    cases advanced
    by_cases present : (race.phases target).inDirectory = true
    · rw [if_pos present]
      refine call_step_reads sound member rfl rfl fun _ _ row past => ?_
      cases row
      cases at_ : race.phases target with
      | unborn | live => rw [at_] at past; cases past
      | finalized => rw [at_] at present; cases present
      | exiting reason stage =>
        rw [at_] at present past
        cases stage with
        | unregister => cases past
        | disown | notify | deliver => cases present
    · rw [if_neg present]
      exact call_step_reads sound member rfl rfl fun _ _ _ _ _ => rfl
  | removing id owner target =>
    cases advanced
    exact call_step_remove sound member inTime
  | delivering id owner target =>
    cases advanced
    exact call_step_deliver sound member
  | refused | created => cases advanced

theorem sound_life (calls : after.calls = race.calls) (ids : after.nextMonitor = race.nextMonitor)
    (agrees : after.table.Lockstep)
    (rows : ∀ id entry, (id, entry) ∈ after.table.monitors → (id, entry) ∈ race.table.monitors)
    (sent : ∀ event ∈ after.downs, event.monitor < race.nextMonitor)
    (waiting : ∀ flow, ∀ event ∈ (after.phases flow).pending, event.monitor < race.nextMonitor ∧ event.target = flow)
    (accounted : ∀ call id entry, race.Accounted call id entry → after.Accounted call id entry) : Sound after where
  agrees := agrees
  numbered id entry row := ids ▸ sound.numbered id entry (rows id entry row)
  sent event there := ids ▸ sent event there
  waiting flow event there := ids ▸ waiting flow event there
  apart := calls ▸ sound.apart
  rowed id entry row := calls ▸ sound.rowed id entry (rows id entry row)
  accounted call member id entry row := accounted call id entry (sound.accounted call (calls ▸ member) id entry row)

omit sound in
theorem set_phase_self (flow : FlowId) (phase : MonitorPhase) : (race.setPhase flow phase).phases flow = phase := by
  simp [setPhase]

omit sound in
theorem set_phase_of_ne {other : FlowId} (different : other ≠ flow) (phase : MonitorPhase) :
    (race.setPhase flow phase).phases other = race.phases other := by
  simp [setPhase, different]

theorem sound_phase {phase : MonitorPhase} (quiet : (race.phases flow).pending = [])
    (still : phase.pending = []) (owns : phase.ownsMonitors = true → (race.phases flow).ownsMonitors = true)
    (past : phase.pastNotify = true → (race.phases flow).pastNotify = true) : Sound (race.setPhase flow phase) := by
  have pending : ∀ other, ((race.setPhase flow phase).phases other).pending = (race.phases other).pending := by
    intro other
    by_cases same : other = flow
    · subst same
      rw [set_phase_self, quiet, still]
    · rw [set_phase_of_ne same]
  refine sound_life sound rfl rfl sound.agrees (fun _ _ row => row) sound.sent (fun other event there => ?_)
    fun call id entry accounted => ⟨accounted.named, accounted.own, fun event there => accounted.about event ?_,
      fun keeps => ?_, fun row late => accounted.late row ?_⟩
  · exact sound.waiting other event (pending other ▸ there)
  · rcases there with down | ⟨other, waits⟩
    · exact Or.inl down
    · exact Or.inr ⟨other, pending other ▸ waits⟩
  · have before : (race.phases entry.owner).ownsMonitors = true := by
      by_cases same : entry.owner = flow
      · rw [same, set_phase_self] at keeps
        rw [same]
        exact owns keeps
      · rwa [set_phase_of_ne same] at keeps
    have once := accounted.once before
    rw [pend, ← pending entry.target] at once
    exact once
  · by_cases same : entry.target = flow
    · rw [same, set_phase_self] at late
      rw [same]
      exact past late
    · rwa [set_phase_of_ne same] at late

theorem sound_disown (here : race.phases flow = .exiting reason .disown) :
    Sound { race.setPhase flow (.exiting reason .notify) with table := race.table.removeOwnedBy flow } := by
  obtain ⟨agrees, rows⟩ := remove_owned_by_spec sound.agrees flow
  have middle : Sound (race.setPhase flow (.exiting reason .notify)) :=
    sound_phase sound (by rw [here]; rfl) rfl (by rintro ⟨⟩) (by rintro ⟨⟩)
  refine sound_life middle rfl rfl agrees (fun id entry row => ((rows id entry).mp row).1) middle.sent middle.waiting
    fun call id entry accounted => ⟨accounted.named, fun other row => accounted.own other ((rows id other).mp row).1,
      accounted.about, fun keeps => ?_, fun row => accounted.late ((rows id entry).mp row).1⟩
  have different : entry.owner ≠ flow := by
    intro same
    rw [same] at keeps
    exact absurd ((congrArg MonitorPhase.ownsMonitors (set_phase_self flow _)).symm.trans keeps) (by simp [MonitorPhase.ownsMonitors])
  have same : ∀ other, (id, other) ∈ (race.table.removeOwnedBy flow).monitors ↔ (id, other) ∈ race.table.monitors := by
    intro other
    rw [rows]
    refine ⟨And.left, fun row => ⟨row, ?_⟩⟩
    rw [accounted.own other row]
    exact different
  have kept : MonitorRace.rows { race.setPhase flow (.exiting reason .notify) with table := race.table.removeOwnedBy flow } id =
      (race.setPhase flow (.exiting reason .notify)).rows id := rows_same middle.agrees agrees same
  rw [kept]
  exact accounted.once keeps

theorem sound_notify (here : race.phases flow = .exiting reason .notify) :
    Sound { race.setPhase flow (.exiting reason (.deliver (race.table.notifyTargetExit flow reason).2)) with
      table := (race.table.notifyTargetExit flow reason).1 } := by
  obtain ⟨agrees, rows, events, once⟩ := notify_target_exit_spec sound.agrees flow reason
  let after : MonitorRace := { race.setPhase flow (.exiting reason (.deliver (race.table.notifyTargetExit flow reason).2)) with
    table := (race.table.notifyTargetExit flow reason).1 }
  change Sound after
  have atFlow : after.phases flow = .exiting reason (.deliver (race.table.notifyTargetExit flow reason).2) := set_phase_self flow _
  have elsewhere : ∀ {other}, other ≠ flow → after.phases other = race.phases other := fun different => set_phase_of_ne different _
  have waits : ∀ {other event}, event ∈ (after.phases other).pending →
      event ∈ (race.phases other).pending ∨ (event.monitor, ⟨event.owner, flow⟩) ∈ race.table.monitors ∧ event.target = flow ∧ other = flow := by
    intro other event there
    by_cases same : other = flow
    · rw [same, atFlow] at there
      obtain ⟨row, target, _⟩ := (events event).mp there
      exact Or.inr ⟨row, target, same⟩
    · rw [elsewhere same] at there
      exact Or.inl there
  refine sound_life sound rfl rfl agrees (fun id entry row => ((rows id entry).mp row).1) sound.sent
    (fun other event there => ?_)
    fun call id entry accounted => ⟨accounted.named, fun other row => accounted.own other ((rows id other).mp row).1,
      fun event there same => ?_, fun keeps => ?_, fun row past => ?_⟩
  · rcases waits there with old | ⟨row, target, rfl⟩
    · exact sound.waiting other event old
    · exact ⟨sound.numbered _ _ row, target⟩
  · rcases there with down | ⟨other, pending⟩
    · exact accounted.about event (Or.inl down) same
    · rcases waits pending with old | ⟨row, target, _⟩
      · exact accounted.about event (Or.inr ⟨other, old⟩) same
      · rw [same] at row
        rw [← accounted.own _ row]
        exact ⟨rfl, target⟩
  · have alive : entry.owner ≠ flow := by
      intro same
      rw [same, atFlow] at keeps
      cases keeps
    have before := accounted.once (elsewhere alive ▸ keeps)
    by_cases same : entry.target = flow
    · have gone : after.rows id = 0 := rows_of_not_mem fun other row => by
        obtain ⟨there, different⟩ := (rows id other).mp row
        rw [accounted.own other there] at different
        exact different same
      have moved : after.pend entry.target id = race.rows id := by
        rw [pend, same, atFlow]
        by_cases there : (id, entry) ∈ race.table.monitors
        · rw [rows_of_mem sound.agrees there]
          refine List.count_eq_one_of_mem once (mem_map.mpr ⟨⟨id, entry.owner, flow, reason⟩, ?_, rfl⟩)
          exact (events _).mpr ⟨same ▸ there, rfl, rfl⟩
        · rw [rows_of_not_mem fun other row => there (accounted.own other row ▸ row)]
          refine List.count_eq_zero_of_not_mem fun listed => ?_
          obtain ⟨event, produced, named⟩ := mem_map.mp listed
          have row := ((events event).mp produced).1
          rw [named] at row
          exact there (accounted.own _ row ▸ row)
      have none_ : race.pend entry.target id = 0 := by
        rw [pend, same, here]
        rfl
      have hops : after.hops id = race.hops id := rfl
      omega
    · have kept : after.rows id = race.rows id := rows_same sound.agrees agrees fun other => by
        rw [rows]
        refine ⟨And.left, fun row => ⟨row, ?_⟩⟩
        rw [accounted.own other row]
        exact same
      have hops : after.hops id = race.hops id := rfl
      rw [kept, pend, elsewhere same, hops]
      exact before
  · obtain ⟨row, different⟩ := (rows id entry).mp row
    exact accounted.late row (elsewhere different ▸ past)

theorem sound_deliver {event : DownEvent} {rest : List DownEvent}
    (here : race.phases flow = .exiting reason (.deliver (event :: rest))) :
    Sound { race.setPhase flow (.exiting reason (.deliver rest)) with downs := race.downs ++ [event] } := by
  let after : MonitorRace := { race.setPhase flow (.exiting reason (.deliver rest)) with downs := race.downs ++ [event] }
  change Sound after
  have atFlow : after.phases flow = .exiting reason (.deliver rest) := set_phase_self flow _
  have elsewhere : ∀ {other}, other ≠ flow → after.phases other = race.phases other := fun different => set_phase_of_ne different _
  have first : event ∈ (race.phases flow).pending := by
    rw [here]
    exact mem_cons_self
  have waits : ∀ {other down}, down ∈ (after.phases other).pending → down ∈ (race.phases other).pending := by
    intro other down there
    by_cases same : other = flow
    · rw [same, atFlow] at there
      rw [same, here]
      exact mem_cons_of_mem _ there
    · rwa [elsewhere same] at there
  have sent : ∀ {down}, down ∈ after.downs → down ∈ race.downs ∨ ∃ other, down ∈ (race.phases other).pending := by
    intro down there
    rcases mem_append.mp there with old | new
    · exact Or.inl old
    · rw [mem_singleton.mp new]
      exact Or.inr ⟨flow, first⟩
  have more : ∀ id, after.hops id = race.hops id + if event.monitor = id then 1 else 0 := by
    intro id
    simp [after, hops, List.count_singleton]
  have phase : ∀ {other} (f : MonitorPhase → Bool), f (.exiting reason (.deliver rest)) = f (race.phases flow) →
      f (after.phases other) = f (race.phases other) := by
    intro other f same
    by_cases at_ : other = flow
    · rw [at_, atFlow, same]
    · rw [elsewhere at_]
  refine sound_life sound rfl rfl sound.agrees (fun _ _ row => row) (fun down there => ?_)
    (fun other down there => sound.waiting other down (waits there))
    fun call id entry accounted => ⟨accounted.named, accounted.own, fun down there => accounted.about down ?_,
      fun keeps => ?_, fun row past => accounted.late row ?_⟩
  · rcases sent there with old | ⟨other, waited⟩
    · exact sound.sent down old
    · exact (sound.waiting other down waited).1
  · rcases there with produced | ⟨other, pending⟩
    · exact sent produced
    · exact Or.inr ⟨other, waits pending⟩
  · have before := accounted.once (phase MonitorPhase.ownsMonitors (by rw [here]; rfl) ▸ keeps)
    have kept : after.rows id = race.rows id := rfl
    have moved : race.pend entry.target id = after.pend entry.target id + if event.monitor = id then 1 else 0 := by
      rw [pend, pend]
      by_cases same : entry.target = flow
      · rw [same, here, atFlow]
        simp [MonitorPhase.pending, List.count_cons]
      · have other : event.monitor ≠ id := by
          intro named
          exact same (((accounted.about event (Or.inr ⟨flow, first⟩) named).2.symm).trans (sound.waiting flow event first).2)
        rw [elsewhere same, if_neg other]
        rfl
    have more := more id
    omega
  · exact phase MonitorPhase.pastNotify (by rw [here]; rfl) ▸ past

theorem sound_start (idle : call.row = none) : Sound { race with calls := race.calls ++ [call] } where
  agrees := sound.agrees
  numbered := sound.numbered
  sent := sound.sent
  waiting := sound.waiting
  apart := apart_append sound.apart idle
  rowed id entry row := by
    obtain ⟨maker, member, made⟩ := sound.rowed id entry row
    exact ⟨maker, mem_append_left _ member, made⟩
  accounted maker member id entry row := by
    rcases mem_append.mp member with old | new
    · exact accounted_calls _ (sound.accounted maker old id entry row)
    · rw [mem_singleton.mp new, idle] at row
      cases row

theorem sound_final (taken : race.finalStep flow = some after) : Sound after := by
  rw [finalStep] at taken
  cases here : race.phases flow with
  | unborn | live | finalized => rw [here] at taken; cases taken
  | exiting reason stage =>
    rw [here] at taken
    cases stage with
    | unregister =>
      cases taken
      exact sound_phase sound (by rw [here]; rfl) rfl (fun _ => by rw [here]; rfl) (by rintro ⟨⟩)
    | disown =>
      cases taken
      exact sound_disown sound here
    | notify =>
      cases taken
      exact sound_notify sound here
    | deliver events =>
      cases events with
      | nil =>
        cases taken
        exact sound_phase sound (by rw [here]; rfl) rfl (by rintro ⟨⟩) (fun _ => by rw [here]; rfl)
      | cons event rest =>
        cases taken
        exact sound_deliver sound here

theorem sound_next (event : MonitorEvent) (inTime : race.InTime event)
    (taken : race.next event = some after) : Sound after := by
  cases event with
  | spawn flow =>
    obtain ⟨unborn, ⟨⟩⟩ := Option.ite_none_right_eq_some.mp taken
    exact sound_phase sound (by rw [unborn]; rfl) rfl (fun _ => by rw [unborn]; rfl) (by rintro ⟨⟩)
  | opcode owner target =>
    obtain ⟨_, ⟨⟩⟩ := Option.ite_none_right_eq_some.mp taken
    exact sound_start sound rfl
  | host owner target =>
    obtain ⟨_, ⟨⟩⟩ := Option.ite_none_left_eq_some.mp taken
    exact sound_start sound rfl
  | step index granted =>
    rw [next] at taken
    split at taken
    · cases taken
    rename_i call here
    split at taken
    · cases taken
    rename_i middle left advanced
    cases taken
    exact sound_call sound here (advance_step sound (mem_of_getElem? here) (inTime call here) advanced)
  | exit flow reason =>
    obtain ⟨live, ⟨⟩⟩ := Option.ite_none_right_eq_some.mp taken
    exact sound_phase sound (by rw [live]; rfl) rfl (fun _ => by rw [live]; rfl) (by rintro ⟨⟩)
  | finalStep flow => exact sound_final sound taken

omit sound in
theorem initial_sound (maxMonitors : Nat) : Sound (initial maxMonitors) where
  agrees := new_lockstep
  numbered _ _ row := absurd row not_mem_nil
  sent _ there := absurd there not_mem_nil
  waiting _ _ there := absurd there not_mem_nil
  apart _ _ _ _ _ _ _ found := by cases found
  rowed _ _ row := absurd row not_mem_nil
  accounted _ member := absurd member not_mem_nil

theorem swept_rows (idle : ∀ call ∈ race.calls, call.ended = true)
    (row : (id, entry) ∈ race.table.monitors) : (race.phases entry.target).pastNotify = false := by
  obtain ⟨call, member, made⟩ := sound.rowed id entry row
  rw [← Bool.not_eq_true]
  intro past
  have late := (sound.accounted call member id entry made).late row past
  have ended := idle call member
  cases call with
  | resolving | checkingCell | requiringOwner | requiringTarget | creating | refused | delivering | created => cases late
  | rechecking | removing => cases ended

omit sound

theorem one_down_per_monitor (maxMonitors : Nat) (race : MonitorRace) (reached : Reach next InTime (initial maxMonitors) race)
    (idle : ∀ call ∈ race.calls, call.ended = true) :
    ∀ call ∈ race.calls, call = .refused ∨ ∃ id owner target, call = .created id owner target ∧
      (race.phases owner = .live → race.phases target = .finalized →
        (∃ down, race.downs.filter (·.monitor = id) = [down] ∧ down.owner = owner ∧ down.target = target) ∧
        ∀ other entry, (other, entry) ∈ race.table.monitors → entry.target ≠ target) := by
  have sound : Sound race :=
    reach_invariant (initial_sound maxMonitors) (fun _ event _ holds inTime taken => sound_next holds event inTime taken) reached
  intro call member
  have ended := idle call member
  cases call with
  | resolving | checkingCell | requiringOwner | requiringTarget | creating | rechecking | removing | delivering => cases ended
  | refused => exact Or.inl rfl
  | created id owner target =>
    refine Or.inr ⟨id, owner, target, rfl, fun live final => ?_⟩
    have unswept : ∀ other entry, (other, entry) ∈ race.table.monitors → entry.target ≠ target := by
      rintro other entry row rfl
      have late := swept_rows sound idle row
      rw [final] at late
      cases late
    have accounted := sound.accounted _ member id ⟨owner, target⟩ rfl
    have once := accounted.once (by rw [live]; rfl)
    have noRow : race.rows id = 0 := rows_of_not_mem fun other row =>
      unswept id other row (congrArg MonitorEntry.target (accounted.own other row))
    have noPend : race.pend target id = 0 := by
      rw [pend, final]
      rfl
    have produced : race.hops id = 1 := by
      change race.rows id + race.pend target id + 0 + race.hops id = 1 at once
      omega
    refine ⟨?_, unswept⟩
    have single : (race.downs.filter (·.monitor = id)).length = 1 := by
      rw [← produced, hops, List.count_eq_length_filter, filter_map, length_map]
      congr 1
    obtain ⟨down, same⟩ := length_eq_one_iff.mp single
    have there : down ∈ race.downs.filter (·.monitor = id) := same ▸ mem_singleton_self down
    obtain ⟨produced, named⟩ := mem_filter.mp there
    exact ⟨down, same, accounted.about down (Or.inl produced) (by simpa using named)⟩

end Steps

def reportedEvents : List MonitorEvent :=
  [.spawn 1, .spawn 2, .opcode 1 2, .step 0 true, .step 0 true, .step 0 true, .host 1 2, .step 1 true, .step 1 true,
    .step 1 true, .step 1 true, .exit 2 .normal, .finalStep 2, .finalStep 2, .finalStep 2, .finalStep 2, .finalStep 2,
    .finalStep 2]

def reported : MonitorRace := (play next (initial 0) reportedEvents).getD (initial 0)

theorem reported_once : play next (initial 0) reportedEvents = some reported ∧
    (∃ down, reported.downs.filter (·.monitor = 1) = [down] ∧ down.owner = 1 ∧ down.target = 2) ∧
    ∀ other entry, (other, entry) ∈ reported.table.monitors → entry.target ≠ 2 := by
  have played : play next (initial 0) reportedEvents = some reported := rfl
  have inTime : AllMeet next InTime (initial 0) reportedEvents := by
    decide
  have reached := reach_of_play reportedEvents (initial 0) inTime played
  have idle : ∀ call ∈ reported.calls, call.ended = true := by decide
  have member : .created 1 1 2 ∈ reported.calls := by decide
  rcases one_down_per_monitor 0 reported reached idle _ member with refused | ⟨id, owner, target, same, settled⟩
  · cases refused
  · cases same
    exact ⟨played, settled rfl rfl⟩

-- The opcode checks its target, the target is finalized, and only then is the
-- row inserted.
def missedEvents : List MonitorEvent :=
  [.spawn 1, .spawn 2, .opcode 1 2, .step 0 true, .step 0 true, .exit 2 .normal, .finalStep 2, .finalStep 2, .finalStep 2,
    .finalStep 2, .step 0 true]

def missed : MonitorRace := (play next (initial 0) missedEvents).getD (initial 0)

-- The host finds its target unregistered; the target's sweep reports the row
-- before the host takes it back and reports once more.
def doubledEvents : List MonitorEvent :=
  [.spawn 1, .spawn 2, .host 1 2, .step 0 true, .step 0 true, .step 0 true, .exit 2 .normal, .finalStep 2, .step 0 true,
    .finalStep 2, .finalStep 2, .finalStep 2, .finalStep 2, .step 0 true, .step 0 true]

def doubled : MonitorRace := (play next (initial 0) doubledEvents).getD (initial 0)

theorem down_missed_or_doubled :
    (play next (initial 0) missedEvents = some missed ∧ (∀ call ∈ missed.calls, call.ended = true) ∧
      .created 1 1 2 ∈ missed.calls ∧ missed.phases 1 = .live ∧ missed.phases 2 = .finalized ∧
      missed.downs = [] ∧ missed.table.monitors = [(1, ⟨1, 2⟩)]) ∧
    play next (initial 0) doubledEvents = some doubled ∧ (∀ call ∈ doubled.calls, call.ended = true) ∧
      .created 1 1 2 ∈ doubled.calls ∧ doubled.phases 1 = .live ∧ doubled.phases 2 = .finalized ∧
      doubled.downs = [⟨1, 1, 2, .normal⟩, ⟨1, 1, 2, .fault⟩] := by
  refine ⟨⟨rfl, by decide, by decide, rfl, rfl, rfl, rfl⟩, rfl, by decide, by decide, rfl, rfl, rfl⟩

end MonitorRace

end Byteflow
