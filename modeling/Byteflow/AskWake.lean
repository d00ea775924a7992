import Byteflow.AskOrphan

namespace Byteflow

open List Function Transition

def Stage.awaited : Stage → List (FlowId × Nat)
  | .lookup waiters => waiters
  | .take current serial rest => (current, serial) :: rest
  | .signal | .index | .asker | .close | .sweep | .revoke | .unregister => []

namespace Place

def awaited : Place → List (FlowId × Nat)
  | .hand (.finalizing _ stage) => stage.awaited
  | .unborn | .hand _ | .parked _ | .waiting .. | .gone => []

def unregistered : Place → Option Wait
  | .hand (.parking _) => none
  | .hand point => point.wait
  | .waiting _ reply => reply
  | .unborn | .parked _ | .gone => none

def registered : Place → Option Wait
  | .hand (.parking wait) | .parked wait => some wait
  | .unborn | .hand _ | .waiting .. | .gone => none

-- Where a flow may be while the index has a row for its Ask numbered serial.
def keeps (serial : Nat) : Place → Prop
  | .hand (.parking wait) | .parked wait => wait.serial = serial
  | .hand .unasking | .hand (.finalizing _ .signal) | .hand (.finalizing _ .index) | .hand (.finalizing _ .asker) => True
  | .unborn | .hand _ | .waiting .. | .gone => False

-- A move that no claim on the flow can tell from standing still.
structure Leads (before after : Place) : Prop where
  begun : ∀ wait, after.unregistered = some wait → before.unregistered = some wait
  registered : ∀ wait, after.registered = some wait → before.registered = some wait ∨ before.unregistered = some wait
  parked : ∀ wait, after = .parked wait → before = .parked wait
  awaited : ∀ entry ∈ after.awaited, entry ∈ before.awaited
  keeps : ∀ serial, before.keeps serial → after.keeps serial

theorem leads_refl (place : Place) : place.Leads place :=
  ⟨fun _ begun => begun, fun _ registered => Or.inl registered, fun _ parked => parked, fun _ member => member,
    fun _ keeps => keeps⟩

theorem leads_hand {before : Place} {point : Point}
    (begun : ∀ wait, (Place.hand point).unregistered = some wait → before.unregistered = some wait)
    (registered : (Place.hand point).registered = none) (awaited : (Place.hand point).awaited = [])
    (keeps : ∀ serial, before.keeps serial → (Place.hand point).keeps serial) : before.Leads (.hand point) := by
  refine ⟨begun, fun wait isWait => ?_, fun wait parked => ?_, fun entry member => ?_, keeps⟩
  · rw [registered] at isWait
    cases isWait
  · cases parked
  · rw [awaited] at member
    cases member

theorem leads_finalize {before : Place} (reason : FlowExitReason) : before.Leads (.hand (.finalizing reason .signal)) :=
  leads_hand (fun _ none => by cases none) rfl rfl fun _ _ => trivial

theorem keeps_registered {place : Place} {wait : Wait} {serial : Nat} (keeps : place.keeps serial) :
    place.unregistered ≠ some wait := by
  intro begun
  cases place with
  | hand point => cases point <;> first | exact keeps.elim | cases begun
  | parked current => cases begun
  | unborn | waiting target reply | gone => exact keeps.elim

theorem keeps_serial {place : Place} {wait : Wait} {serial : Nat} (keeps : place.keeps serial)
    (isWait : place.registered = some wait) : wait.serial = serial := by
  cases place with
  | parked current =>
    cases isWait
    exact keeps
  | hand point =>
    cases point <;> cases isWait
    exact keeps
  | unborn | waiting target reply | gone => cases isWait

end Place

def ExitWrite.Own (write : ExitWrite) : Prop :=
  write.hit.serial = write.ask ∧ write.dest = write.hit.dest ∧
    ∃ target, ∃ reason : FlowExitReason, write.hit.target = some target ∧ write.hop = Message.linkedExit target reason.asU64

namespace Lifecycle

def Unclaimed (life : Lifecycle) (id : FlowId) (wait : Wait) : Prop :=
  (∀ task ∈ life.tasks, ∀ target older, task.asking = some (id, target, older) → older.serial = wait.serial) ∧
    ∀ target serial, (id, serial) ∈ (life.places target).awaited → serial = wait.serial

-- A flow parks only when no thread is left that re-checks, and no finalizer
-- that has still to wake, an earlier Ask of the flow.
def ParkUnclaimed (life : Lifecycle) : LifeEvent → Prop
  | .step id _ _ => ∀ wait, life.places id = .hand (.parking wait) → life.Unclaimed id wait
  | _ => True

def Claimed (life : Lifecycle) (id target : FlowId) (serial : Nat) : Prop :=
  (∃ row, (id, row) ∈ life.askWaits ∧ row.target = target ∧ row.serial = serial) ∨
    (id, serial) ∈ (life.places target).awaited ∨
    ∃ task ∈ life.tasks, ∃ wait, task.asking = some (id, target, wait) ∧ wait.serial = serial

structure Owned (life : Lifecycle) : Prop where
  begun : ∀ id wait, (life.places id).unregistered = some wait ∨ (life.places id).registered = some wait →
    wait.serial < life.clock
  fresh : ∀ id target serial, life.Claimed id target serial → serial < life.clock ∧
    ∀ wait, (life.places id).unregistered = some wait → wait.serial ≠ serial
  same : ∀ id target serial, life.Claimed id target serial → ∀ wait, (life.places id).registered = some wait →
    wait.serial = serial → wait.target = some target
  row : ∀ id row, (id, row) ∈ life.askWaits → (life.places id).keeps row.serial
  due : ∀ id target serial, (id, serial) ∈ (life.places target).awaited → ∀ wait, life.places id = .parked wait →
    wait.serial = serial
  taken : ∀ id target serial, (id, serial) ∈ (life.places target).awaited →
    ∀ wait, (life.places id).registered = some wait → wait.serial = serial → ∀ row, (id, row) ∉ life.askWaits
  checked : ∀ task ∈ life.tasks, ∀ id target wait, task.asking = some (id, target, wait) →
    (∀ current, (life.places id).registered = some current → current.serial = wait.serial → current = wait) ∧
      ∀ current, life.places id = .parked current → current.serial = wait.serial
  exits : ∀ write ∈ life.exits, write.Own

-- The finalizer of id has just taken the row of the Ask, and left none on id.
def TakenBy (life after : Lifecycle) (id : FlowId) (ask : FlowId × Nat) : Prop :=
  ∃ row, (ask.1, row) ∈ life.askWaits ∧ row.target = id ∧ row.serial = ask.2 ∧
    ∀ left, (ask.1, left) ∈ after.askWaits → left.target ≠ id

-- One flow as a step leaves it: it has begun no wait but a new one and has
-- come no further than to park.
structure Follows (life after : Lifecycle) (id : FlowId) : Prop where
  begun : ∀ wait, (after.places id).unregistered = some wait →
    (life.places id).unregistered = some wait ∨ wait.serial = life.clock ∧ life.clock < after.clock
  registered : ∀ wait, (after.places id).registered = some wait →
    (life.places id).registered = some wait ∨ (life.places id).unregistered = some wait
  parked : ∀ wait, after.places id = .parked wait → life.places id = .parked wait ∨ life.Unclaimed id wait
  awaited : ∀ ask ∈ (after.places id).awaited, ask ∈ (life.places id).awaited ∨ life.TakenBy after id ask
  keeps : ∀ row, (id, row) ∈ after.askWaits → (life.places id).keeps row.serial → (after.places id).keeps row.serial

structure Quiet (life after : Lifecycle) : Prop where
  clock : life.clock ≤ after.clock
  rows : ∀ row ∈ after.askWaits, row ∈ life.askWaits
  tasks : ∀ task ∈ after.tasks, task.asking = none ∨ ∃ old ∈ life.tasks, task.asking = old.asking
  exits : ∀ write ∈ after.exits, write ∈ life.exits ∨ write.Own
  places : ∀ id, Follows life after id

section Steps

variable {life after : Lifecycle} {id : FlowId}
  {target : FlowId} {base : Lifecycle} {place : Place} {point : Point} {wait : Wait}

theorem claimed_quiet (quiet : Quiet life after) {serial : Nat} (claimed : after.Claimed id target serial) :
    life.Claimed id target serial := by
  rcases claimed with ⟨row, member, isTarget, isSerial⟩ | member | ⟨task, member, wait, asking, isSerial⟩
  · exact Or.inl ⟨row, quiet.rows _ member, isTarget, isSerial⟩
  · rcases (quiet.places target).awaited _ member with old | ⟨row, taken, isTarget, isSerial, _⟩
    · exact Or.inr (Or.inl old)
    · exact Or.inl ⟨row, taken, isTarget, isSerial⟩
  · rcases quiet.tasks task member with none | ⟨old, oldMember, inherits⟩
    · rw [none] at asking
      cases asking
    · exact Or.inr (Or.inr ⟨old, oldMember, wait, inherits ▸ asking, isSerial⟩)

variable (owned : Owned life)

include owned

theorem owned_quiet (quiet : Quiet life after) : Owned after := by
  have before : ∀ id target serial, life.Claimed id target serial → ∀ wait, (after.places id).registered = some wait →
      wait.serial = serial → (life.places id).registered = some wait := by
    intro id target serial claimed wait registered isSerial
    rcases (quiet.places id).registered wait registered with old | new
    · exact old
    · exact absurd isSerial ((owned.fresh id target serial claimed).2 wait new)
  refine ⟨?_, ?_, ?_, ?_, ?_, ?_, ?_, ?_⟩
  · intro id wait isWait
    rcases isWait with unregistered | registered
    · rcases (quiet.places id).begun wait unregistered with old | ⟨isSerial, later⟩
      · exact Nat.lt_of_lt_of_le (owned.begun id wait (Or.inl old)) quiet.clock
      · rw [isSerial]
        exact later
    · refine Nat.lt_of_lt_of_le (owned.begun id wait ?_) quiet.clock
      exact ((quiet.places id).registered wait registered).symm
  · intro id target serial claimed
    obtain ⟨earlier, differs⟩ := owned.fresh id target serial (claimed_quiet quiet claimed)
    refine ⟨Nat.lt_of_lt_of_le earlier quiet.clock, fun wait unregistered => ?_⟩
    rcases (quiet.places id).begun wait unregistered with old | ⟨isSerial, _⟩
    · exact differs wait old
    · rw [isSerial]
      exact (Nat.ne_of_lt earlier).symm
  · intro id target serial claimed wait registered isSerial
    have claimed := claimed_quiet quiet claimed
    exact owned.same id target serial claimed wait (before id target serial claimed wait registered isSerial) isSerial
  · intro id row member
    exact (quiet.places id).keeps row member (owned.row id row (quiet.rows _ member))
  · intro id target serial member wait parked
    have wasParked := (quiet.places id).parked wait parked
    rcases (quiet.places target).awaited _ member with old | ⟨row, taken, isTarget, isSerial, _⟩
    · rcases wasParked with was | unclaimed
      · exact owned.due id target serial old wait was
      · exact (unclaimed.2 target serial old).symm
    · have keeps := owned.row id row taken
      rcases (quiet.places id).registered wait (by rw [parked]; rfl) with registered | begun
      · exact (Place.keeps_serial keeps registered).trans isSerial
      · exact (Place.keeps_registered keeps begun).elim
  · intro id target serial member wait registered isSerial row rowMember
    have kept := quiet.rows _ rowMember
    have claimed : life.Claimed id target serial := claimed_quiet quiet (Or.inr (Or.inl member))
    have old := before id target serial claimed wait registered isSerial
    rcases (quiet.places target).awaited _ member with inPlace | ⟨_, _, _, _, gone⟩
    · exact owned.taken id target serial inPlace wait old isSerial row kept
    · -- The row that is left would be of the same Ask, on another target.
      have onTaken := owned.same id target serial claimed wait old isSerial
      have onKept := owned.same id row.target row.serial (Or.inl ⟨row, kept, rfl, rfl⟩) wait old
        (Place.keeps_serial (owned.row id row kept) old)
      exact gone row rowMember (Option.some.inj (onKept.symm.trans onTaken))
  · intro task member id target wait asking
    rcases quiet.tasks task member with none | ⟨old, oldMember, inherits⟩
    · rw [none] at asking
      cases asking
    · rw [inherits] at asking
      obtain ⟨equal, serial⟩ := owned.checked old oldMember id target wait asking
      refine ⟨fun current registered isSerial => ?_, fun current parked => ?_⟩
      · have claimed : life.Claimed id target wait.serial := Or.inr (Or.inr ⟨old, oldMember, wait, asking, rfl⟩)
        exact equal current (before id target wait.serial claimed current registered isSerial) isSerial
      · rcases (quiet.places id).parked current parked with was | unclaimed
        · exact serial current was
        · exact (unclaimed.1 old oldMember target wait asking).symm
  · intro write member
    rcases quiet.exits write member with old | own
    · exact owned.exits write old
    · exact own

omit owned in
theorem quiet_leads (clock : after.clock = life.clock) (rows : after.askWaits = life.askWaits)
    (tasks : after.tasks = life.tasks) (exits : after.exits = life.exits)
    (leads : ∀ id, (life.places id).Leads (after.places id)) : Quiet life after := by
  refine ⟨Nat.le_of_eq clock.symm, fun row member => rows ▸ member, fun task member => ?_,
    fun write member => Or.inl (exits ▸ member), fun id => ?_⟩
  · exact Or.inr ⟨task, tasks ▸ member, rfl⟩
  · exact ⟨fun wait begun => Or.inl ((leads id).begun wait begun), (leads id).registered,
      fun wait parked => Or.inl ((leads id).parked wait parked), fun ask member => Or.inl ((leads id).awaited ask member),
      fun row _ => (leads id).keeps row.serial⟩

theorem owned_move {before : Place} (held : life.places id = before)
    (places : after.places = update life.places id place) (clock : after.clock = life.clock)
    (rows : after.askWaits = life.askWaits) (tasks : after.tasks = life.tasks) (exits : after.exits = life.exits)
    (leads : before.Leads place) : Owned after := by
  refine owned_quiet owned (quiet_leads clock rows tasks exits fun other => ?_)
  rw [places]
  by_cases same : other = id
  · subst same
    rw [update_self, held]
    exact leads
  · rw [update_of_ne same]
    exact Place.leads_refl _

omit owned in
theorem goes_leads {follow : Point} (goes : Goes life id place base follow) : place.Leads (.hand follow) := by
  cases goes with
  | stops _ _ reason => exact Place.leads_finalize reason
  | receives wait => exact ⟨nofun, fun _ isWait => Or.inr isWait, nofun, nofun, fun _ never => never.elim⟩
  | delivers _ reply | sent reply =>
    cases reply with
    | none => exact Place.leads_hand nofun rfl rfl fun _ never => never.elim
    | some wait => exact Place.leads_hand (fun _ isWait => isWait) rfl rfl fun _ never => never.elim
  | withdraws _ _ _ sending =>
    rcases sending with rfl | rfl | rfl <;> exact Place.leads_hand nofun rfl rfl fun _ never => never.elim
  | _ => exact Place.leads_hand (by simp [Place.unregistered, Point.wait]) rfl rfl (by simp [Place.keeps])

theorem owned_goes {follow : Point} (held : life.places id = place)
    (goes : Goes life id place base follow) : Owned (base.moveTo id follow) := by
  have leads := goes_leads goes
  cases goes_notes goes <;> exact owned_move owned held rfl rfl rfl rfl rfl leads

omit owned in
theorem follows_still (place : after.places id = life.places id) : Follows life after id := by
  refine ⟨?_, ?_, ?_, ?_, ?_⟩
  all_goals rw [place]
  · exact fun wait isWait => Or.inl isWait
  · exact fun wait isWait => Or.inl isWait
  · exact fun wait parked => Or.inl parked
  · exact fun _ member => Or.inl member
  · exact fun row _ keeps => keeps

omit owned in
theorem follows_hand (place : after.places id = .hand point)
    (begun : ∀ wait, (Place.hand point).unregistered = some wait → wait.serial = life.clock ∧ life.clock < after.clock)
    (registered : (Place.hand point).registered = none) (awaited : (Place.hand point).awaited = [])
    (keeps : ∀ row, (id, row) ∈ after.askWaits → (life.places id).keeps row.serial → (Place.hand point).keeps row.serial) :
    Follows life after id := by
  refine ⟨?_, ?_, ?_, ?_, ?_⟩
  all_goals rw [place]
  · exact fun wait isWait => Or.inr (begun wait isWait)
  · intro wait isWait
    rw [registered] at isWait
    cases isWait
  · intro wait parked
    cases parked
  · intro entry member
    rw [awaited] at member
    cases member
  · exact keeps

-- The step moves the flow id and leaves the others where they are.
theorem owned_at (clock : life.clock ≤ base.clock) (rows : ∀ row ∈ base.askWaits, row ∈ life.askWaits)
    (exits : ∀ write ∈ base.exits, write ∈ life.exits ∨ write.Own) (tasks : base.tasks = life.tasks)
    (places : base.places = life.places) (here : Follows life (base.move id place) id) : Owned (base.move id place) := by
  refine owned_quiet owned ⟨clock, rows, fun task member => Or.inr ⟨task, tasks ▸ member, rfl⟩, exits, fun other => ?_⟩
  by_cases same : other = id
  · exact same ▸ here
  · exact follows_still ((update_of_ne same ..).trans (congrFun places other))

theorem owned_remove_asker (point : Point)
    (begun : (Place.hand point).unregistered = none) (registered : (Place.hand point).registered = none)
    (awaited : (Place.hand point).awaited = []) : Owned ((life.removeAsker id).moveTo id point) := by
  refine owned_at owned (Nat.le_refl _) (fun row => mem_of_mem_filter) (fun _ => Or.inl) rfl rfl
    (follows_hand (update_self ..) (fun wait isWait => ?_) registered awaited fun row member => ?_)
  · rw [begun] at isWait
    cases isWait
  · have kept := of_mem_filter (show (id, row) ∈ life.askWaits.filter (·.1 ≠ id) from member)
    simp at kept

theorem begin_wait_owned (held : life.places id = .hand .running)
    (serial : wait.serial = life.clock) (begun : (Place.hand point).unregistered = some wait)
    (registered : (Place.hand point).registered = none) (awaited : (Place.hand point).awaited = []) :
    Owned ({ life with clock := life.clock + 1 }.moveTo id point) := by
  refine owned_at owned (Nat.le_succ _) (fun _ member => member) (fun _ => Or.inl) rfl rfl
    (follows_hand (update_self ..) (fun current isCurrent => ?_) registered awaited fun row _ keeps => ?_)
  · rw [begun] at isCurrent
    cases isCurrent
    exact ⟨serial, Nat.lt_succ_self _⟩
  · rw [held] at keeps
    cases keeps

theorem add_row_owned (held : life.places id = .hand (.parking wait))
    (asked : wait.target = some target) (unheard : ∀ finalized, (id, wait.serial) ∉ (life.places finalized).awaited) :
    Owned { life with askWaits := (id, ⟨target, wait.requestId, wait.serial⟩) :: life.askWaits } := by
  refine ⟨owned.begun, ?_, ?_, ?_, owned.due, ?_, owned.checked, owned.exits⟩
  · intro other at_ serial claimed
    rcases claimed with ⟨row, member, isTarget, isSerial⟩ | claimed
    · rcases mem_cons.mp member with new | old
      · cases new
        subst isSerial
        refine ⟨owned.begun id wait (Or.inr (by rw [held]; rfl)), fun current isCurrent => ?_⟩
        rw [held] at isCurrent
        cases isCurrent
      · exact owned.fresh other at_ serial (Or.inl ⟨row, old, isTarget, isSerial⟩)
    · exact owned.fresh other at_ serial (Or.inr claimed)
  · intro other at_ serial claimed
    rcases claimed with ⟨row, member, isTarget, isSerial⟩ | claimed
    · rcases mem_cons.mp member with new | old
      · cases new
        intro current registered _
        rw [held] at registered
        cases registered
        rw [asked, ← isTarget]
      · exact owned.same other at_ serial (Or.inl ⟨row, old, isTarget, isSerial⟩)
    · exact owned.same other at_ serial (Or.inr claimed)
  · intro other row member
    rcases mem_cons.mp member with new | old
    · cases new
      rw [held]
      exact rfl
    · exact owned.row other row old
  · intro other at_ serial entry current registered isSerial row member
    rcases mem_cons.mp member with new | old
    · cases new
      rw [held] at registered
      cases registered
      subst isSerial
      exact unheard at_ entry
    · exact owned.taken other at_ serial entry current registered isSerial row old

theorem insert_ask_owned (held : life.places id = .hand (.inserting wait)) (asked : wait.target = some target) :
    Owned ({ life with askWaits := (id, ⟨target, wait.requestId, wait.serial⟩) :: life.askWaits }.moveTo id
      (.parking wait)) := by
  have moved : Owned (life.moveTo id (.parking wait)) :=
    owned_move owned held rfl rfl rfl rfl rfl
      ⟨nofun, fun _ isWait => Or.inr isWait, nofun, nofun, fun _ never => never.elim⟩
  refine add_row_owned moved (update_self ..) asked fun finalized entry => ?_
  have known : (id, wait.serial) ∈ (life.places finalized).awaited := by
    by_cases same : finalized = id
    · rw [same, show (life.moveTo id (.parking wait)).places id = _ from update_self ..] at entry
      cases entry
    · rw [show (life.moveTo id (.parking wait)).places finalized = _ from update_of_ne same ..] at entry
      exact entry
  exact (owned.fresh id finalized wait.serial (Or.inr (Or.inl known))).2 wait (by rw [held]; rfl) rfl

theorem add_task_owned (task : Task) (asks : ∀ asker target wait, task.asking = some (asker, target, wait) →
      life.places asker = .parked wait ∧ wait.target = some target) : Owned (life.addTask task) := by
  have claims : ∀ other at_ serial, (life.addTask task).Claimed other at_ serial → life.Claimed other at_ serial ∨
      ∃ wait, life.places other = .parked wait ∧ wait.target = some at_ ∧ wait.serial = serial := by
    intro other at_ serial claimed
    rcases claimed with row | entry | ⟨check, member, wait, asking, isSerial⟩
    · exact Or.inl (Or.inl row)
    · exact Or.inl (Or.inr (Or.inl entry))
    · rcases mem_append.mp member with old | new
      · exact Or.inl (Or.inr (Or.inr ⟨check, old, wait, asking, isSerial⟩))
      · rw [mem_singleton.mp new] at asking
        obtain ⟨parked, isTarget⟩ := asks other at_ wait asking
        exact Or.inr ⟨wait, parked, isTarget, isSerial⟩
  refine ⟨owned.begun, ?_, ?_, owned.row, owned.due, owned.taken, ?_, owned.exits⟩
  · intro other at_ serial claimed
    rcases claims other at_ serial claimed with old | ⟨wait, parked, _, isSerial⟩
    · exact owned.fresh other at_ serial old
    · subst isSerial
      refine ⟨owned.begun other wait (Or.inr (by rw [parked]; rfl)), fun current isCurrent => ?_⟩
      rw [show (life.addTask task).places other = _ from parked] at isCurrent
      cases isCurrent
  · intro other at_ serial claimed current registered isSerial
    rcases claims other at_ serial claimed with old | ⟨wait, parked, isTarget, _⟩
    · exact owned.same other at_ serial old current registered isSerial
    · rw [show (life.addTask task).places other = _ from parked] at registered
      cases registered
      exact isTarget
  · intro check member other at_ wait asking
    rcases mem_append.mp member with old | new
    · exact owned.checked check old other at_ wait asking
    · rw [mem_singleton.mp new] at asking
      obtain ⟨parked, _⟩ := asks other at_ wait asking
      refine ⟨fun current registered _ => ?_, fun current isParked => ?_⟩
      · rw [show (life.addTask task).places other = _ from parked] at registered
        cases registered
        rfl
      · rw [show (life.addTask task).places other = _ from parked] at isParked
        cases isParked
        rfl

theorem park_owned (held : life.places id = .hand (.parking wait))
    (unclaimed : life.Unclaimed id wait) : Owned ((life.move id (.parked wait)).addTask (.checkKill id wait)) := by
  have moved : Owned (life.move id (.parked wait)) := by
    refine owned_at owned (Nat.le_refl _) (fun _ member => member) (fun _ => Or.inl) rfl rfl ⟨?_, ?_, ?_, ?_, ?_⟩
    all_goals rw [show (life.move id (.parked wait)).places id = _ from update_self ..]
    · exact fun _ none => by cases none
    · intro current registered
      rw [held]
      exact Or.inl registered
    · intro current parked
      cases parked
      exact Or.inr unclaimed
    · exact fun _ none => by cases none
    · intro row _ keeps
      rw [held] at keeps
      exact keeps
  refine add_task_owned moved _ fun asker target current asking => ?_
  simp only [Task.asking, Option.map_eq_some_iff, Prod.mk.injEq] at asking
  obtain ⟨at_, isTarget, rfl, rfl, rfl⟩ := asking
  exact ⟨update_self .., isTarget⟩

theorem close_mailbox_owned : Owned (life.closeMailbox id) := by
  refine owned_quiet owned (quiet_leads rfl rfl rfl rfl fun other => ?_)
  rcases close_mailbox_cases life id other with ⟨reply, place, now⟩ | ⟨_, now⟩
  · rw [now, place]
    exact Place.leads_hand nofun rfl rfl fun _ never => never.elim
  · rw [now]
    exact Place.leads_refl _

theorem sweep_owned {reason : FlowExitReason} (held : life.places id = .hand (.finalizing reason .sweep)) :
    Owned ({ life with askWaits := life.askWaits.filter (·.2.target ≠ id) }.moveTo id
      (.finalizing reason (.lookup (life.waitersOf id)))) := by
  refine owned_at owned (Nat.le_refl _) (fun _ => mem_of_mem_filter) (fun _ => Or.inl) rfl rfl
    ⟨?_, ?_, ?_, fun ask member => ?_, fun row _ keeps => ?_⟩
  · simp [move, Place.unregistered, Point.wait]
  · simp [move, Place.registered]
  · simp [move]
  · simp only [move, update_self] at member
    obtain ⟨⟨asker, row⟩, taken, rfl⟩ := mem_map.mp member
    obtain ⟨kept, isTarget⟩ := mem_filter.mp taken
    exact Or.inr ⟨row, kept, by simpa using isTarget, rfl, fun left stays => by simpa using (mem_filter.mp stays).2⟩
  · rw [held] at keeps
    cases keeps

theorem write_owned {write : ExitWrite} (own : write.Own)
    (begun : (Place.hand point).unregistered = none) (registered : (Place.hand point).registered = none)
    (awaited : (Place.hand point).awaited = [])
    (keeps : ∀ row, (id, row) ∈ life.askWaits → (life.places id).keeps row.serial → (Place.hand point).keeps row.serial) :
    Owned ({ life with exits := write :: life.exits }.moveTo id point) := by
  refine owned_at owned (Nat.le_refl _) (fun _ member => member) (fun other member => ?_) rfl rfl
    (follows_hand (update_self ..) (fun wait isWait => ?_) registered awaited keeps)
  · rcases mem_cons.mp member with rfl | old
    · exact Or.inr own
    · exact Or.inl old
  · rw [begun] at isWait
    cases isWait

theorem orphan_owned {reason : FlowExitReason} {asker : FlowId} {serial : Nat}
    (entry : (asker, serial) ∈ (life.places id).awaited) (orphan : Orphan life id asker serial reason base) : Owned base := by
  cases orphan with
  | woken wait place point follow =>
    have isSerial := owned.due asker id serial entry wait place
    have isWait : (life.places asker).registered = some wait := by rw [place]; rfl
    have isTarget := owned.same asker id serial (Or.inr (Or.inl entry)) wait isWait isSerial
    have rowless := owned.taken asker id serial entry wait isWait isSerial
    have own : ExitWrite.Own ⟨asker, serial, wait, wait.dest, Message.linkedExit id reason.asU64⟩ :=
      ⟨isSerial, rfl, id, reason, isTarget, rfl⟩
    rcases follow with rfl | rfl
    · exact write_owned owned own rfl rfl rfl fun row member => absurd member (rowless row)
    · exact write_owned owned own rfl rfl rfl fun _ _ _ => trivial
  | left => exact owned

theorem turn_owned (held : life.places id = place)
    (unclaimed : ∀ wait, place = .hand (.parking wait) → life.Unclaimed id wait) (turn : Turn life id place after) :
    Owned after := by
  cases turn with
  | goes goes => exact owned_goes owned held goes
  | receives wait serial | asks target wait asked serial => exact begin_wait_owned owned held serial rfl rfl rfl
  | sleeps target reply isOpen =>
    refine add_task_owned ?_ _ nofun
    exact owned_move owned held rfl rfl rfl rfl rfl
      ⟨fun _ isWait => isWait, nofun, nofun, nofun, fun _ never => never.elim⟩
  | inserts target wait asked => exact insert_ask_owned owned held asked
  | hears wait asked =>
    refine owned_at owned (Nat.le_refl _) (fun _ member => member) (fun _ => Or.inl) rfl rfl
      (follows_hand (update_self ..) nofun rfl rfl fun row member keeps => ?_)
    rw [held] at keeps
    have isWait : (life.places id).registered = some wait := by rw [held]; rfl
    have onTarget := owned.same id row.target row.serial (Or.inl ⟨row, member, rfl, rfl⟩) wait isWait keeps
    rw [asked] at onTarget
    cases onTarget
  | parks wait => exact park_owned owned held (unclaimed wait rfl)
  | unasks | faults | removes => exact owned_remove_asker owned _ rfl rfl rfl
  | closes reason =>
    have leads : (Place.hand (.finalizing reason .close)).Leads (.hand (.finalizing reason .sweep)) :=
      Place.leads_hand nofun rfl rfl fun _ keeps => keeps
    split
    · exact owned_move (close_mailbox_owned owned) (close_mailbox_hand held) rfl rfl rfl rfl rfl leads
    · exact owned_move owned held rfl rfl rfl rfl rfl leads
  | sweeps reason => exact sweep_owned owned held
  | picks reason waiters pick asker serial picked =>
    refine owned_move owned held rfl rfl rfl rfl rfl ⟨nofun, nofun, nofun, fun entry member => ?_, fun _ never => never.elim⟩
    split at member
    · rcases mem_cons.mp member with rfl | left
      · exact mem_of_getElem? picked
      · exact mem_of_mem_eraseIdx left
    · exact mem_of_mem_eraseIdx member
  | takes reason asker serial rest orphan =>
    have entry : (asker, serial) ∈ (life.places id).awaited := by
      rw [held]
      exact mem_cons_self
    exact owned_move (orphan_owned owned entry orphan) (orphan_held orphan held) rfl rfl rfl rfl rfl
      ⟨nofun, nofun, nofun, fun _ member => mem_cons_of_mem _ member, fun _ never => never.elim⟩
  | unregisters reason =>
    exact owned_move owned held rfl rfl rfl rfl rfl ⟨nofun, nofun, nofun, nofun, fun _ never => never.elim⟩

omit owned

section Tasks

variable {index : Nat} {task : Task}

theorem perform_owned (owned : Owned life) (found : life.tasks[index]? = some task) :
    Owned { (life.perform task).1 with
      tasks := putTask (life.perform task).1.tasks index (life.perform task).2 } := by
  have moved : Owned (life.perform task).1 := by
    generalize performed : (life.perform task).1 = base
    cases performed ▸ perform_cases task with
    | notes notes =>
      refine owned_quiet owned ?_
      cases notes <;> exact quiet_leads rfl rfl rfl rfl fun _ => Place.leads_refl _
    | goes held goes => exact owned_goes owned held goes
    | writes id target wait hit isTask held =>
      subst isTask
      have member := mem_of_getElem? found
      have isHit : (life.places id).registered = some hit := by rw [held]; rfl
      obtain ⟨equal, serial⟩ := owned.checked _ member id target wait rfl
      have isSerial := serial hit held
      have isWait := equal hit isHit isSerial
      have isTarget := owned.same id target wait.serial (Or.inr (Or.inr ⟨_, member, wait, rfl, rfl⟩)) hit isHit isSerial
      have own : ExitWrite.Own ⟨id, wait.serial, hit, wait.dest, Message.linkedExit target FlowExitReason.fault.asU64⟩ :=
        ⟨isSerial, by rw [isWait], target, .fault, isTarget, rfl⟩
      exact write_owned owned own rfl rfl rfl fun _ _ _ => trivial
  refine owned_quiet moved ⟨Nat.le_refl _, fun row member => member, fun other member => Or.inr ?_,
    fun write member => Or.inl member, fun id => follows_still rfl⟩
  rcases mem_put member with old | new
  · exact ⟨other, old, rfl⟩
  · exact ⟨task, by rw [perform_tasks]; exact mem_of_getElem? found, (perform_left new).2.2⟩

end Tasks

theorem owned_step (owned : Owned life) (event : LifeEvent) (unclaimed : life.ParkUnclaimed event)
    (stepped : life.next event = some after) : Owned after := by
  cases step_cases stepped with
  | spawn id unborn =>
    exact owned_move owned unborn rfl rfl rfl rfl rfl (Place.leads_hand nofun rfl rfl fun _ never => never.elim)
  | turn held _ holder turn =>
    refine turn_owned owned held (fun wait parking => ?_) turn
    obtain ⟨answer, pick, rfl⟩ := holder wait parking
    exact unclaimed wait (held.trans parking)
  | kill id reason => exact add_task_owned owned _ nofun
  | task index task found => exact perform_owned owned found

end Steps

theorem initial_owned (maxAskWaits : Nat) : Owned (initial maxAskWaits) := by
  have unclaimed : ∀ id target serial, ¬ (initial maxAskWaits).Claimed id target serial := by
    rintro id target serial (⟨row, member, _⟩ | member | ⟨task, member, _⟩)
    all_goals cases member
  refine ⟨?_, ?_, ?_, ?_, ?_, ?_, ?_, ?_⟩
  · rintro id wait (none | none)
    all_goals cases none
  · exact fun id target serial claimed => absurd claimed (unclaimed id target serial)
  · exact fun id target serial claimed => absurd claimed (unclaimed id target serial)
  · exact fun _ _ none => by cases none
  · exact fun _ _ _ none => by cases none
  · exact fun _ _ _ none => by cases none
  · exact fun _ none => by cases none
  · exact fun _ none => by cases none

theorem orphan_wake_hits_own_ask (maxAskWaits : Nat) (life : Lifecycle)
    (reached : Reach next ParkUnclaimed (initial maxAskWaits) life) (write : ExitWrite) (written : write ∈ life.exits) :
    write.Own := by
  have owned : Owned life := by
    refine reach_invariant (initial_owned maxAskWaits) ?_ reached
    intro before event after owned unclaimed stepped
    exact owned_step owned event unclaimed stepped
  exact owned.exits write written

def rowEvents : List LifeEvent := requestEvents true ++ ([.step 1 .accepted 0] : List LifeEvent)

def takingEvents : List LifeEvent := ([.task 0, .task 0, .task 0] : List LifeEvent) ++ sweepEvents ++ ([.step 2 .accepted 0] : List LifeEvent)

theorem row_events_unswept {life : Lifecycle} (played : play next (initial 0) rowEvents = some life)
    (target : FlowId) : (life.places target).awaited = [] := by
  simp [rowEvents, requestEvents, play, next, advance, runEffect, obeyKill, moveTo, move, beginWait, initial,
    insertAsk, afterSend] at played
  subst played
  by_cases first : target = 1
  · subst first
    rfl
  by_cases second : target = 2
  · subst second
    rfl
  simp [update, first, second, Place.awaited]

def parksNobody (life : Lifecycle) : LifeEvent → Bool
  | .step id _ _ => (life.places id).registered.isNone
  | _ => true

theorem park_unclaimed_of_nobody (life : Lifecycle) (event : LifeEvent) (nobody : life.parksNobody event = true) :
    life.ParkUnclaimed event := by
  cases event with
  | step id answer pick =>
    intro wait parking
    simp only [parksNobody, parking] at nobody
    cases nobody
  | _ => trivial

theorem sweep_wakes_own_ask : ∃ life, Reach next ParkUnclaimed (initial 0) life ∧
    ∃ write ∈ life.exits, write.flow = 1 ∧ write.Own := by
  obtain ⟨row, playedRow, quiet, wait, parking⟩ : ∃ life, play next (initial 0) rowEvents = some life ∧
      life.tasks = [] ∧ ∃ wait, life.places 1 = .hand (.parking wait) := ⟨_, rfl, rfl, _, rfl⟩
  have reachedRow : Reach next ParkUnclaimed (initial 0) row :=
    reach_mono park_unclaimed_of_nobody (reach_of_play rowEvents (initial 0) (by decide) playedRow)
  have unclaimed : row.ParkUnclaimed (.step 1 .empty 0) := by
    intro current _
    refine ⟨fun task member => ?_, fun target serial member => ?_⟩
    · rw [quiet] at member
      cases member
    · rw [row_events_unswept playedRow target] at member
      cases member
  obtain ⟨parked, life, stepped, meets, played, write, written, flow⟩ : ∃ parked life,
      row.next (.step 1 .empty 0) = some parked ∧
        AllMeet next (fun life event => life.parksNobody event = true) parked
          (takingEvents ++ [.step 2 .accepted 0]) ∧
        play next parked (takingEvents ++ [.step 2 .accepted 0]) = some life ∧
          ∃ write ∈ life.exits, write.flow = 1 := by
    cases playedRow
    exact ⟨_, _, rfl, by decide, rfl, _, mem_singleton_self _, rfl⟩
  have reached : Reach next ParkUnclaimed (initial 0) life :=
    reach_trans (.step row _ parked reachedRow unclaimed stepped)
      (reach_mono park_unclaimed_of_nobody (reach_of_play _ parked meets played))
  exact ⟨life, reached, write, written, flow, orphan_wake_hits_own_ask 0 life reached write written⟩

-- The Ask of flow 1 expires between the lookup of flow 2 and its take, and
-- flow 1 waits for the next hop.
def lateTakeEvents : List LifeEvent :=
  rowEvents ++ ([.step 1 .empty 0] : List LifeEvent) ++ takingEvents ++ ([.expire 1 true, .step 1 .accepted 0, .step 1 .accepted 0,
    .run 1 (.receive 3 false), .step 1 .empty 0, .step 1 .empty 0, .task 0, .step 2 .accepted 0] : List LifeEvent)

theorem late_take_hits_receive : ∃ life, Reach next (fun _ _ => True) (initial 0) life ∧
    ∃ write ∈ life.exits, write.hit.target = none ∧ write.dest = 3 ∧ ¬ write.Own := by
  obtain ⟨life, played, write, written, receives, dest⟩ : ∃ life,
      play next (initial 0) lateTakeEvents = some life ∧
        ∃ write ∈ life.exits, write.hit.target = none ∧ write.dest = 3 :=
    ⟨_, rfl, _, mem_singleton_self _, rfl, rfl⟩
  refine ⟨life, reach_of_play lateTakeEvents (initial 0) (all_meet_of_forall (fun _ _ => trivial) _ _) played, write,
    written, receives, dest, ?_⟩
  rintro ⟨_, _, target, _, asks, _⟩
  rw [receives] at asks
  cases asks

end Lifecycle

end Byteflow
