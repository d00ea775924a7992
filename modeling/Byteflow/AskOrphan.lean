import Byteflow.KillRace

namespace Byteflow

open Assoc Transition

def Stage.pastSweep : Stage → Bool
  | .signal | .index | .asker | .close | .sweep => false
  | .lookup _ | .take .. | .revoke | .unregister => true

def Stage.left : Stage → List FlowId
  | .lookup waiters => waiters.map (·.1)
  | .take current _ rest => current :: rest.map (·.1)
  | .signal | .index | .asker | .close | .sweep | .revoke | .unregister => []

def Point.wait : Point → Option Wait
  | .popping wait | .inserting wait | .parking wait => some wait
  | .deliverLookup _ reply | .deliverPush _ reply | .sendIndex _ reply | .sendLookup _ reply | .sendPark _ reply
  | .sendDelivered reply | .admitted reply => reply
  | .ready | .running | .withdrawing _ | .unasking | .finalizing .. => none

namespace Place

def pastSweep : Place → Bool
  | .hand (.finalizing _ stage) => stage.pastSweep
  | .gone => true
  | .unborn | .hand _ | .parked _ | .waiting .. => false

def left : Place → List FlowId
  | .hand (.finalizing _ stage) => stage.left
  | .unborn | .hand _ | .parked _ | .waiting .. | .gone => []

def begun : Place → Option Wait
  | .hand point => point.wait
  | .waiting _ reply => reply
  | .unborn | .parked _ | .gone => none

end Place

namespace Task

def rechecks (id target : FlowId) (serial : Nat) : Task → Bool
  | .checkKill flow wait | .checkTake flow wait _ | .checkRestore flow wait _ =>
    flow = id && wait.serial = serial && wait.target = some target
  | .askIndex flow wait at_ | .askDirectory flow wait at_ _ | .askGone flow wait at_ =>
    flow = id && wait.serial = serial && at_ = target
  | _ => false

theorem rechecks_asking {task : Task} {id target : FlowId} {serial : Nat} :
    task.rechecks id target serial = true ↔ ∃ wait, task.asking = some (id, target, wait) ∧ wait.serial = serial := by
  cases task <;> simp [rechecks, asking, and_comm, and_assoc]

end Task

namespace Lifecycle

def asks (life : Lifecycle) (id target : FlowId) : Bool := (life.askWaits.lookup id).any (·.target = target)

-- A thread that saw the row of its Ask looks the target up while the target is
-- still listed, has already taken its rows, and the row is there: it was made
-- after the sweep, and nobody will see it.
def RowBeforeSweep (life : Lifecycle) : LifeEvent → Prop
  | .task index => ∀ task ∈ life.tasks[index]?, match task with
      | .askDirectory id _ target still => still = true → life.directory target = true →
          (life.places target).pastSweep = true → life.asks id target = false
      | _ => True
  | _ => True

instance (life : Lifecycle) : ∀ event, Decidable (life.RowBeforeSweep event)
  | .task index => by
    unfold RowBeforeSweep
    have (task : Task) : Decidable (match task with
        | .askDirectory id _ target still => still = true → life.directory target = true →
            (life.places target).pastSweep = true → life.asks id target = false
        | _ => True) := by
      cases task <;> infer_instance
    infer_instance
  | .spawn _ | .run .. | .step .. | .kill .. | .wake _ | .expire .. | .takeSender .. => isTrue trivial

def Newer (life : Lifecycle) (id : FlowId) (place : Place) : Prop :=
  ∀ wait ∈ place.begun, wait.serial < life.clock ∧
    ∀ task ∈ life.tasks, task.flow = id → ∀ older ∈ task.wait, older.serial ≠ wait.serial

structure Attended (life : Lifecycle) : Prop where
  listed : ∀ id, life.directory id = false → life.places id = .unborn ∨ life.places id = .gone
  numbered : ∀ task ∈ life.tasks, ∀ wait ∈ task.wait, wait.serial < life.clock
  newer : ∀ id, life.Newer id (life.places id)
  seen : ∀ id wait target, .askDirectory id wait target true ∈ life.tasks → ∀ current, life.places id = .parked current →
    current.serial = wait.serial → life.asks id target = true ∨ id ∈ (life.places target).left
  kept : ∀ id wait target, life.places id = .parked wait → wait.target = some target →
    (life.asks id target = true ∧ (life.places target).pastSweep = false) ∨ id ∈ (life.places target).left ∨
      ∃ task ∈ life.tasks, task.rechecks id target wait.serial = true

section Steps

variable {life after : Lifecycle} {id : FlowId} {base : Lifecycle} {place : Place}

structure TendsAt (life after : Lifecycle) (id : FlowId) : Prop where
  listed : after.directory id = false → life.directory id = false ∧ after.places id = life.places id
  begun : ∀ wait ∈ (after.places id).begun, wait ∈ (life.places id).begun ∨ wait.serial = life.clock ∧ life.clock < after.clock
  parked : ∀ wait, after.places id = .parked wait → life.places id = .parked wait ∨
    wait ∈ (life.places id).begun ∧ .checkKill id wait ∈ after.tasks
  rows : ∀ wait target, after.places id = .parked wait → life.asks id target = true →
    after.asks id target = true ∨ id ∈ (after.places target).left
  left : ∀ asker wait, life.places asker = .parked wait → asker ∈ (life.places id).left → asker ∈ (after.places id).left
  swept : ∀ asker, life.asks asker id = true → (life.places id).pastSweep = false →
    (after.places id).pastSweep = false ∨ asker ∈ (after.places id).left

structure Tends (life after : Lifecycle) : Prop where
  clock : life.clock ≤ after.clock
  older : ∀ task ∈ life.tasks, task ∈ after.tasks
  tasks : ∀ task ∈ after.tasks, task ∈ life.tasks ∨ task.wait = none ∨
    ∃ id, ∃ wait ∈ (life.places id).begun, task = .checkKill id wait ∧ (after.places id).begun = none
  flows : ∀ id, TendsAt life after id

theorem tends_still (places : after.places id = life.places id) (directory : after.directory id = life.directory id)
    (rows : ∀ target, life.asks id target = true → after.asks id target = true ∨ id ∈ (after.places target).left) :
    TendsAt life after id := by
  refine ⟨?_, ?_, ?_, ?_, ?_, ?_⟩
  all_goals rw [places]
  · exact fun unlisted => ⟨directory ▸ unlisted, rfl⟩
  · exact fun _ isWait => Or.inl isWait
  · exact fun _ parked => Or.inl parked
  · exact fun _ target _ => rows target
  · exact fun _ _ _ member => member
  · exact fun _ _ before => Or.inl before

theorem attended_tends (attended : Attended life) (tends : Tends life after) : Attended after := by
  refine ⟨fun id unlisted => ?_, fun task member wait isWait => ?_, fun id wait isWait => ?_,
    fun id wait target member current parked serial => ?_, fun id wait target parked isTarget => ?_⟩
  · obtain ⟨before, same⟩ := (tends.flows id).listed unlisted
    rw [same]
    exact attended.listed id before
  · refine Nat.lt_of_lt_of_le ?_ tends.clock
    rcases tends.tasks task member with old | none_ | ⟨id, begun, isBegun, rfl, _⟩
    · exact attended.numbered task old wait isWait
    · rw [none_] at isWait
      cases isWait
    · cases isWait
      exact (attended.newer id _ isBegun).1
  · -- A check that the step has begun is of a flow that begins nothing.
    have others : ∀ serial, (∀ task ∈ life.tasks, task.flow = id → ∀ older ∈ task.wait, older.serial ≠ serial) →
        ∀ task ∈ after.tasks, task.flow = id → ∀ older ∈ task.wait, older.serial ≠ serial := by
      intro serial differs task member flow older isOlder
      rcases tends.tasks task member with old | none_ | ⟨checked, begun, _, rfl, idle⟩
      · exact differs task old flow older isOlder
      · rw [none_] at isOlder
        cases isOlder
      · rw [show checked = id from flow] at idle
        rw [idle] at isWait
        cases isWait
    rcases (tends.flows id).begun wait isWait with old | ⟨isSerial, later⟩
    · obtain ⟨before, differs⟩ := attended.newer id wait old
      exact ⟨Nat.lt_of_lt_of_le before tends.clock, others _ differs⟩
    · rw [isSerial]
      exact ⟨later, others _ fun task member _ older isOlder => Nat.ne_of_lt (attended.numbered task member older isOlder)⟩
  · have member : Task.askDirectory id wait target true ∈ life.tasks := by
      rcases tends.tasks _ member with old | none_ | ⟨_, _, _, eq, _⟩
      · exact old
      · cases none_
      · cases eq
    rcases (tends.flows id).parked current parked with old | ⟨begun, _⟩
    · rcases attended.seen id wait target member current old serial with asks | left
      · exact (tends.flows id).rows current target parked asks
      · exact Or.inr ((tends.flows target).left id current old left)
    · -- No check of an earlier Ask has the number of this one.
      exact absurd serial.symm ((attended.newer id current begun).2 _ member rfl wait rfl)
  · rcases (tends.flows id).parked wait parked with old | ⟨_, check⟩
    · rcases attended.kept id wait target old isTarget with ⟨asks, before⟩ | left | ⟨task, member, rechecks⟩
      · rcases (tends.flows id).rows wait target parked asks with still | left
        · rcases (tends.flows target).swept id asks before with unswept | left
          · exact Or.inl ⟨still, unswept⟩
          · exact Or.inr (Or.inl left)
        · exact Or.inr (Or.inl left)
      · exact Or.inr (Or.inl ((tends.flows target).left id wait old left))
      · exact Or.inr (Or.inr ⟨task, tends.older task member, rechecks⟩)
    · exact Or.inr (Or.inr ⟨_, check, by simp [Task.rechecks, isTarget]⟩)

theorem attended_move (attended : Attended life) (place : Place)
    (places : after.places = Function.update life.places id place)
    (directory : after.directory = life.directory) (tasks : after.tasks = life.tasks) (clock : life.clock ≤ after.clock)
    (rows : ∀ other, other ≠ id → after.askWaits.lookup other = life.askWaits.lookup other)
    (awake : ∀ wait, place ≠ .parked wait) (listed : life.directory id = true)
    (sweep : place.pastSweep = (life.places id).pastSweep)
    (left : ∀ asker ∈ (life.places id).left, asker ∈ place.left ∨ ∀ wait, life.places asker ≠ .parked wait)
    (begun : ∀ wait ∈ place.begun, wait ∈ (life.places id).begun ∨ wait.serial = life.clock ∧ life.clock < after.clock) :
    Attended after := by
  refine attended_tends attended ⟨clock, fun _ member => tasks ▸ member, fun _ member => Or.inl (tasks ▸ member), fun other => ?_⟩
  by_cases same : other = id
  · subst same
    have here : after.places other = place := by rw [places, Function.update_self]
    refine ⟨fun unlisted => ?_, ?_, ?_, ?_, ?_, ?_⟩
    · rw [directory, listed] at unlisted
      cases unlisted
    all_goals rw [here]
    · exact begun
    · exact fun wait parked => absurd parked (awake wait)
    · exact fun wait _ parked => absurd parked (awake wait)
    · exact fun asker wait parked member => (left asker member).resolve_right fun unparked => unparked wait parked
    · exact fun _ _ before => Or.inl (sweep.trans before)
  · refine tends_still (by rw [places, Function.update_of_ne same]) (by rw [directory]) fun target asked => Or.inl ?_
    rw [asks, rows other same]
    exact asked

-- base differs from life in tables the wait index does not depend on.
structure SameAsks (life base : Lifecycle) : Prop where
  places : base.places = life.places
  directory : base.directory = life.directory
  tasks : base.tasks = life.tasks
  clock : base.clock = life.clock
  rows : base.askWaits = life.askWaits

theorem same_refl : SameAsks life life := ⟨rfl, rfl, rfl, rfl, rfl⟩

theorem notes_same (notes : Notes life id base) : SameAsks life base := by
  cases notes <;> exact ⟨rfl, rfl, rfl, rfl, rfl⟩

theorem same_exits (exits : List ExitWrite) : SameAsks life { life with exits := exits } := ⟨rfl, rfl, rfl, rfl, rfl⟩

variable (attended : Attended life)

include attended

theorem alive_listed (held : life.places id = place) (born : place ≠ .unborn)
    (alive : place ≠ .gone) : life.directory id = true := by
  by_contra unlisted
  rcases attended.listed id (by simpa using unlisted) with isUnborn | isGone
  · exact born (held.symm.trans isUnborn)
  · exact alive (held.symm.trans isGone)

theorem attended_held (held : life.places id = place)
    (same : SameAsks life base) (point : Point) (born : place ≠ .unborn) (alive : place ≠ .gone)
    (sweep : (Place.hand point).pastSweep = place.pastSweep) (left : (Place.hand point).left = place.left)
    (begun : ∀ wait ∈ point.wait, wait ∈ place.begun) : Attended (base.moveTo id point) := by
  subst held
  exact attended_move attended (.hand point) (by rw [← same.places]; rfl) same.directory same.tasks
    (Nat.le_of_eq same.clock.symm) (fun _ _ => by rw [← same.rows]; rfl) nofun (alive_listed attended rfl born alive) sweep
    (fun asker member => Or.inl (left ▸ member)) fun wait isWait => Or.inl (begun wait isWait)

omit attended in
theorem goes_attends {follow : Point} (goes : Goes life id place base follow) :
    (place ≠ .unborn ∧ place ≠ .gone) ∧ (Place.hand follow).pastSweep = place.pastSweep ∧
      (Place.hand follow).left = place.left ∧ ∀ wait ∈ follow.wait, wait ∈ place.begun := by
  cases goes with
  | stops alive =>
    cases place with
    | hand point =>
      cases point with
      | finalizing => cases alive
      | _ => exact ⟨⟨nofun, nofun⟩, rfl, rfl, nofun⟩
    | parked wait | waiting target reply => exact ⟨⟨nofun, nofun⟩, rfl, rfl, nofun⟩
    | unborn | gone => cases alive
  | withdraws _ _ _ sending => rcases sending with rfl | rfl | rfl <;> exact ⟨⟨nofun, nofun⟩, rfl, rfl, nofun⟩
  | delivers _ reply | sent reply =>
    cases reply with
    | none => exact ⟨⟨nofun, nofun⟩, rfl, rfl, nofun⟩
    | some wait => exact ⟨⟨nofun, nofun⟩, rfl, rfl, fun _ isWait => isWait⟩
  | _ => exact ⟨⟨nofun, nofun⟩, rfl, rfl, by simp [Point.wait, Place.begun]⟩

theorem attended_goes {follow : Point}
    (held : life.places id = place) (goes : Goes life id place base follow) : Attended (base.moveTo id follow) := by
  obtain ⟨⟨born, alive⟩, sweep, left, begun⟩ := goes_attends goes
  exact attended_held attended held (notes_same (goes_notes goes)) follow born alive sweep left begun

theorem remove_asker_attended (held : life.places id = place) (point : Point)
    (born : place ≠ .unborn) (alive : place ≠ .gone) (sweep : (Place.hand point).pastSweep = place.pastSweep)
    (left : (Place.hand point).left = place.left) (none_ : point.wait = none) :
    Attended ((life.removeAsker id).moveTo id point) := by
  subst held
  refine attended_move attended (.hand point) rfl rfl rfl (Nat.le_refl _) (fun other differs => ?_) nofun
    (alive_listed attended rfl born alive) sweep (fun asker member => Or.inl (left ▸ member)) fun wait isWait => ?_
  · change (life.askWaits.filter (·.1 ≠ id)).lookup other = life.askWaits.lookup other
    rw [lookup_filter_ne, if_neg differs]
  · rw [show (Place.hand point).begun = none from none_] at isWait
    cases isWait

theorem begin_wait_attended (held : life.places id = .hand .running) (point : Point)
    (sweep : (Place.hand point).pastSweep = false) (serial : ∀ wait ∈ point.wait, wait.serial = life.clock) :
    Attended ({ life with clock := life.clock + 1 }.moveTo id point) :=
  attended_move attended (.hand point) rfl rfl rfl (Nat.le_succ _) (fun _ _ => rfl) nofun
    (alive_listed attended held nofun nofun) (held ▸ sweep) (fun asker member => by rw [held] at member; cases member)
    fun wait isWait => Or.inr ⟨serial wait isWait, Nat.lt_succ_self _⟩

theorem park_attended (wait : Wait) (held : life.places id = .hand (.parking wait)) :
    Attended ((life.move id (.parked wait)).addTask (.checkKill id wait)) := by
  have begun : wait ∈ (life.places id).begun := by rw [held]; rfl
  have here : Function.update life.places id (.parked wait) id = .parked wait := Function.update_self ..
  refine attended_tends attended ⟨Nat.le_refl _, fun _ member => List.mem_append_left _ member, fun task member => ?_,
    fun other => ?_⟩
  · refine (List.mem_append.mp member).imp_right fun new => Or.inr ⟨id, wait, begun, List.mem_singleton.mp new, ?_⟩
    change (Function.update life.places id (.parked wait) id).begun = none
    rw [here]
    rfl
  · by_cases same : other = id
    · subst same
      refine ⟨fun unlisted => ?_, ?_, ?_, fun _ _ _ asks => Or.inl asks, ?_, ?_⟩
      · exact absurd ((alive_listed attended held nofun nofun).symm.trans unlisted) (by decide)
      all_goals simp only [addTask, move, here]
      · exact nofun
      · intro current parked
        cases parked
        exact Or.inr ⟨begun, List.mem_append_right _ (List.mem_singleton_self _)⟩
      · exact fun _ _ _ member => by rw [held] at member; cases member
      · exact fun _ _ _ => Or.inl rfl
    · exact tends_still (Function.update_of_ne same ..) rfl fun _ asks => Or.inl asks

theorem add_task_attended (task : Task) (none_ : task.wait = none) : Attended (life.addTask task) := by
  refine attended_tends attended ⟨Nat.le_refl _, fun _ member => List.mem_append_left _ member, fun other member => ?_,
    fun id => tends_still rfl rfl fun _ asks => Or.inl asks⟩
  exact (List.mem_append.mp member).imp_right fun new => Or.inl (by rw [List.mem_singleton.mp new, none_])

theorem close_mailbox_attended : Attended (life.closeMailbox id) := by
  refine attended_tends attended ⟨Nat.le_refl _, fun _ member => member, fun _ member => Or.inl member, fun other => ?_⟩
  rcases close_mailbox_cases life id other with ⟨reply, place, now⟩ | ⟨_, now⟩
  · refine ⟨fun unlisted => ?_, ?_, ?_, ?_, ?_, ?_⟩
    · exact absurd ((alive_listed attended place nofun nofun).symm.trans unlisted) (by decide)
    all_goals rw [now]
    · exact nofun
    · exact nofun
    · exact nofun
    · exact fun _ _ _ member => by rw [place] at member; cases member
    · exact fun _ _ _ => Or.inl rfl
  · exact tends_still now rfl fun _ asks => Or.inl asks

omit attended in
theorem waiter_left (asker target : FlowId) (asks : life.asks asker target = true) :
    asker ∈ (life.waitersOf target).map (·.1) := by
  unfold Lifecycle.asks at asks
  cases found : life.askWaits.lookup asker with
  | none => simp [found] at asks
  | some row =>
    simp only [found, Option.any_some, decide_eq_true_eq] at asks
    refine List.mem_map.mpr ⟨(asker, row.serial), List.mem_map.mpr ⟨(asker, row), ?_, rfl⟩, rfl⟩
    exact List.mem_filter.mpr ⟨mem_of_lookup found, by simpa using asks⟩

omit attended in
theorem swept_asks (asker target : FlowId) (asks : life.asks asker target = true) (differs : target ≠ id) :
    { life with askWaits := life.askWaits.filter (·.2.target ≠ id) }.asks asker target = true := by
  unfold Lifecycle.asks at asks ⊢
  cases found : life.askWaits.lookup asker with
  | none => simp [found] at asks
  | some row =>
    simp only [found, Option.any_some, decide_eq_true_eq] at asks
    have kept : (life.askWaits.filter fun row => decide (row.2.target ≠ id)).lookup asker = some row :=
      lookup_filter_found (fun row : AskRow => decide (row.target ≠ id)) found (by simpa [asks] using differs)
    simp only [kept, Option.any_some, asks, decide_true]

theorem sweep_attended (reason : FlowExitReason) (held : life.places id = .hand (.finalizing reason .sweep)) :
    Attended ({ life with askWaits := life.askWaits.filter (·.2.target ≠ id) }.moveTo id
      (.finalizing reason (.lookup (life.waitersOf id)))) := by
  generalize isSwept : ({ life with askWaits := life.askWaits.filter (·.2.target ≠ id) }.moveTo id
    (.finalizing reason (.lookup (life.waitersOf id)))) = swept
  have here : swept.places id = .hand (.finalizing reason (.lookup (life.waitersOf id))) := by
    rw [← isSwept]
    exact Function.update_self ..
  have rows : ∀ asker target, life.asks asker target = true → swept.asks asker target = true ∨
      asker ∈ (swept.places target).left := by
    intro asker target asks
    by_cases same : target = id
    · rw [same, here]
      exact Or.inr (waiter_left asker id (same ▸ asks))
    · rw [← isSwept]
      exact Or.inl (swept_asks asker target asks same)
  refine attended_tends attended ⟨by rw [← isSwept]; exact Nat.le_refl _, fun _ member => by rw [← isSwept]; exact member,
    fun _ member => Or.inl (by rw [← isSwept] at member; exact member), fun other => ?_⟩
  by_cases same : other = id
  · subst same
    refine ⟨fun unlisted => ?_, ?_, ?_, fun _ target _ => rows other target, ?_, ?_⟩
    · rw [← isSwept] at unlisted
      exact absurd ((alive_listed attended held nofun nofun).symm.trans unlisted) (by decide)
    all_goals rw [here]
    · exact nofun
    · exact nofun
    · exact fun _ _ _ member => by rw [held] at member; cases member
    · exact fun asker asks _ => Or.inr (waiter_left asker other asks)
  · refine tends_still ?_ ?_ (rows other)
    · rw [← isSwept]
      exact Function.update_of_ne same ..
    · rw [← isSwept]
      rfl

theorem finalizer_attended {reason : FlowExitReason} {stage : Stage}
    (held : life.places id = .hand (.finalizing reason stage)) (later : Stage) (sweep : later.pastSweep = stage.pastSweep)
    (left : ∀ asker ∈ stage.left, asker ∈ later.left ∨ ∀ wait, life.places asker ≠ .parked wait) :
    Attended (life.moveTo id (.finalizing reason later)) := by
  refine attended_move attended (.hand (.finalizing reason later)) rfl rfl rfl (Nat.le_refl _) (fun _ _ => rfl)
    nofun (alive_listed attended held nofun nofun) (by rw [held]; exact sweep)
    (fun asker member => left asker (by rw [held] at member; exact member)) nofun

omit attended

section Orphans

variable {base : Lifecycle} {asker : FlowId} {serial : Nat} {reason : FlowExitReason}

theorem orphan_attended (attended : Attended life) (orphan : Orphan life id asker serial reason base) : Attended base := by
  cases orphan with
  | woken wait parked point follow =>
    rcases follow with rfl | rfl
    · exact attended_held attended parked (same_exits _) _ nofun nofun rfl rfl nofun
    · exact attended_held attended parked (same_exits _) _ nofun nofun rfl rfl nofun
  | left => exact attended

theorem orphan_unparked (orphan : Orphan life id asker serial reason base) (wait : Wait) : base.places asker ≠ .parked wait := by
  cases orphan with
  | woken _ _ point =>
    change Function.update life.places asker (.hand point) asker ≠ .parked wait
    rw [Function.update_self]
    nofun
  | left unparked => exact unparked wait

theorem orphan_held {point : Point} (orphan : Orphan life id asker serial reason base) (held : life.places id = .hand point) :
    base.places id = .hand point := by
  cases orphan with
  | woken wait parked =>
    have differs : id ≠ asker := by
      rintro rfl
      cases parked.symm.trans held
    exact (Function.update_of_ne differs ..).trans held
  | left => exact held

end Orphans

theorem unregister_attended (attended : Attended life) (reason : FlowExitReason)
    (held : life.places id = .hand (.finalizing reason .unregister)) :
    Attended ({ life with directory := Function.update life.directory id false }.move id .gone) := by
  have moved : Attended (life.move id .gone) := by
    exact attended_move attended .gone rfl rfl rfl (Nat.le_refl _) (fun _ _ => rfl) nofun
      (alive_listed attended held nofun nofun) (by rw [held]; rfl) (fun asker member => by rw [held] at member; cases member) nofun
  refine ⟨fun other unlisted => ?_, moved.numbered, moved.newer, moved.seen, moved.kept⟩
  by_cases same : other = id
  · exact Or.inr (by rw [same]; exact Function.update_self ..)
  · have unlisted : Function.update life.directory id false other = false := unlisted
    rw [Function.update_of_ne same] at unlisted
    exact moved.listed other unlisted

theorem spawn_attended (attended : Attended life) (unborn : life.places id = .unborn) :
    Attended { life.moveTo id .ready with
      directory := Function.update life.directory id true
      opened := Function.update life.opened id true } := by
  have registered : Attended { life with
      directory := Function.update life.directory id true
      opened := Function.update life.opened id true } := by
    refine ⟨fun other unlisted => ?_, attended.numbered, attended.newer, attended.seen, attended.kept⟩
    by_cases same : other = id
    · rw [same] at unlisted
      simp at unlisted
    · simp only [Function.update_of_ne same] at unlisted
      exact attended.listed other unlisted
  exact attended_move registered (.hand .ready) rfl rfl rfl (Nat.le_refl _) (fun _ _ => rfl) nofun (Function.update_self ..)
    (by rw [unborn]; rfl) (fun asker member => by rw [unborn] at member; cases member) nofun

theorem mem_picked {entries : List (FlowId × Nat)} {pick serial : Nat} {asker other : FlowId}
    (picked : entries[pick]? = some (asker, serial)) (member : other ∈ entries.map (·.1)) :
    other = asker ∨ other ∈ (entries.eraseIdx pick).map (·.1) := by
  obtain ⟨entry, inside, rfl⟩ := List.mem_map.mp member
  obtain ⟨position, isThere⟩ := List.mem_iff_getElem?.mp inside
  by_cases same : position = pick
  · rw [same, picked] at isThere
    cases isThere
    exact Or.inl rfl
  · exact Or.inr (List.mem_map_of_mem (List.mem_eraseIdx_iff_getElem?.mpr ⟨position, same, isThere⟩))

theorem turn_attended {place : Place} (attended : Attended life) (held : life.places id = place)
    (turn : Turn life id place after) : Attended after := by
  cases turn with
  | goes goes => exact attended_goes attended held goes
  | receives wait serial => exact begin_wait_attended attended held _ rfl fun _ isWait => by cases isWait; exact serial
  | asks target wait asked serial =>
    exact begin_wait_attended attended held _ rfl fun _ isWait => by cases isWait; exact serial
  | sleeps target reply isOpen =>
    refine add_task_attended ?_ _ rfl
    exact attended_move attended (.waiting target reply) rfl rfl rfl (Nat.le_refl _) (fun _ _ => rfl) nofun
      (alive_listed attended held nofun nofun) (by rw [held]; rfl)
      (fun asker member => by rw [held] at member; cases member) fun _ isWait => Or.inl (by rw [held]; exact isWait)
  | inserts target wait asked =>
    refine attended_move attended (.hand (.parking wait)) rfl rfl rfl (Nat.le_refl _) (fun other differs => ?_) nofun
      (alive_listed attended held nofun nofun) (by rw [held]; rfl)
      (fun asker member => by rw [held] at member; cases member) fun _ isWait => Or.inl (by rw [held]; exact isWait)
    change ((id, _) :: life.askWaits).lookup other = life.askWaits.lookup other
    rw [lookup_cons, if_neg differs]
  | hears wait => exact attended_held attended held same_refl .ready nofun nofun rfl rfl nofun
  | parks wait => exact park_attended attended wait held
  | unasks | faults | removes => exact remove_asker_attended attended held _ nofun nofun rfl rfl rfl
  | closes reason =>
    by_cases listed : life.directory id = true
    · rw [if_pos listed]
      exact attended_held (close_mailbox_attended attended) (close_mailbox_hand held) same_refl _ nofun nofun rfl rfl nofun
    · rw [if_neg listed]
      exact attended_held attended held same_refl _ nofun nofun rfl rfl nofun
  | sweeps reason => exact sweep_attended attended reason held
  | picks reason waiters pick asker serial picked =>
    by_cases listed : life.directory asker = true
    · rw [if_pos listed]
      refine finalizer_attended attended held (.take asker serial _) rfl fun other member => Or.inl ?_
      exact List.mem_cons.mpr (mem_picked picked member)
    · rw [if_neg listed]
      refine finalizer_attended attended held (.lookup _) rfl fun other member => ?_
      rcases mem_picked picked member with rfl | left
      · -- A flow that left the directory is not parked.
        exact Or.inr fun wait parked => listed (alive_listed attended parked nofun nofun)
      · exact Or.inl left
  | takes reason asker serial rest orphan =>
    refine finalizer_attended (orphan_attended attended orphan) (orphan_held orphan held) (.lookup rest) rfl
      fun other member => ?_
    rcases List.mem_cons.mp member with rfl | later
    · exact Or.inr (orphan_unparked orphan)
    · exact Or.inl later
  | unregisters reason => exact unregister_attended attended reason held

section Tasks

variable {index : Nat} {task : Task} {left : Option Task}

theorem attended_same {base : Lifecycle} (attended : Attended life) (same : SameAsks life base) : Attended base := by
  refine ⟨?_, ?_, ?_, ?_, ?_⟩
  · simpa only [same.places, same.directory] using attended.listed
  · simpa only [same.tasks, same.clock] using attended.numbered
  · simpa only [Newer, same.places, same.tasks, same.clock] using attended.newer
  · simpa only [asks, same.places, same.tasks, same.rows] using attended.seen
  · simpa only [asks, same.places, same.tasks, same.rows] using attended.kept

theorem mem_put {tasks : List Task} {other : Task} (member : other ∈ putTask tasks index left) :
    other ∈ tasks ∨ left = some other := by
  cases left with
  | none => exact Or.inl (List.mem_of_mem_eraseIdx member)
  | some new =>
    rcases List.mem_or_eq_of_mem_set member with old | rfl
    · exact Or.inl old
    · exact Or.inr rfl

theorem attended_put (attended : Attended life) (found : life.tasks[index]? = some task)
    (inherits : ∀ new, left = some new → new.flow = task.flow ∧ ∀ wait ∈ new.wait, wait ∈ task.wait)
    (seen : ∀ wait target, left = some (.askDirectory task.flow wait target true) → life.asks task.flow target = true)
    (kept : ∀ wait target, life.places task.flow = .parked wait → wait.target = some target →
      task.rechecks task.flow target wait.serial = true →
      (life.asks task.flow target = true ∧ (life.places target).pastSweep = false) ∨
        task.flow ∈ (life.places target).left ∨ ∃ new, left = some new ∧ new.rechecks task.flow target wait.serial = true) :
    Attended { life with tasks := putTask life.tasks index left } := by
  refine ⟨attended.listed, fun other member wait isWait => ?_, fun other wait isWait => ?_,
    fun other wait target member current parked serial => ?_, fun other wait target parked isTarget => ?_⟩
  · rcases mem_put member with old | new
    · exact attended.numbered other old wait isWait
    · exact attended.numbered task (List.mem_of_getElem? found) wait ((inherits other new).2 wait isWait)
  · obtain ⟨before, differs⟩ := attended.newer other wait isWait
    refine ⟨before, fun added member flow older isOlder => ?_⟩
    rcases mem_put member with old | new
    · exact differs added old flow older isOlder
    · obtain ⟨sameFlow, sameWait⟩ := inherits added new
      exact differs task (List.mem_of_getElem? found) (sameFlow ▸ flow) older (sameWait older isOlder)
  · rcases mem_put member with old | new
    · exact attended.seen other wait target old current parked serial
    · have sameFlow : other = task.flow := (inherits _ new).1
      rw [sameFlow] at new ⊢
      exact Or.inl (seen wait target new)
  · rcases attended.kept other wait target parked isTarget with row | waiter | ⟨recheck, member, rechecks⟩
    · exact Or.inl row
    · exact Or.inr (Or.inl waiter)
    · by_cases same : recheck = task
      · subst same
        have flow : recheck.flow = other := by
          revert rechecks
          cases recheck <;> simp +contextual [Task.rechecks, Task.flow]
        subst flow
        refine (kept wait target parked isTarget rechecks).imp_right (Or.imp_right ?_)
        rintro ⟨new, rfl, newRechecks⟩
        exact ⟨new, mem_put_left found, newRechecks⟩
      · exact Or.inr (Or.inr ⟨recheck, mem_put_other found member same, rechecks⟩)

theorem perform_seen {wait : Wait} {target : FlowId}
    (isNew : (life.perform task).2 = some (.askDirectory task.flow wait target true)) :
    (life.perform task).1.asks task.flow target = true := by
  cases task with
  | askIndex id current asked =>
    simp only [perform, Option.some.injEq, Task.askDirectory.injEq] at isNew
    obtain ⟨_, _, rfl, still⟩ := isNew
    exact still
  | _ =>
    simp only [perform, afterCheck, Option.map_eq_some_iff] at isNew
    repeat' split at isNew
    all_goals simp at isNew

theorem perform_ends {target : FlowId} {wait : Wait} (ended : (life.perform task).2 = none)
    (asking : task.asking = some (id, target, wait)) : (∀ hit, (life.perform task).1.places id ≠ .parked hit) ∨
      task = .askDirectory id wait target true ∧ life.directory target = true := by
  have goesOn : ∀ {flow : FlowId} {current : Wait}, current.target.map (fun target => (flow, target, current)) =
      some (id, target, wait) → afterCheck flow current ≠ none := by
    intro flow current asking
    obtain ⟨asked, isTarget, _⟩ := Option.map_eq_some_iff.mp asking
    simp [afterCheck, isTarget]
  cases task with
  | checkKill flow current =>
    simp only [perform] at ended
    split at ended
    · cases ended
    · exact absurd ended (goesOn asking)
  | checkRestore flow current => exact absurd ended (goesOn asking)
  | checkTake flow current reason =>
    obtain ⟨_, _, eq⟩ := Option.map_eq_some_iff.mp asking
    cases eq
    simp only [perform] at ended ⊢
    split at ended
    · exact Or.inl fun hit parked => by cases (Function.update_self id _ life.places).symm.trans parked
    · cases ended
  | askIndex => cases ended
  | askDirectory flow current asked still =>
    cases asking
    simp only [perform] at ended
    split at ended
    · rename_i done
      rw [Bool.and_eq_true] at done
      exact Or.inr ⟨by rw [done.1], done.2⟩
    · cases ended
  | askGone flow current asked =>
    cases asking
    simp only [perform]
    split
    · exact Or.inl fun hit parked => by cases (Function.update_self id _ life.places).symm.trans parked
    · rename_i unparked
      exact Or.inl unparked
  | _ => cases asking

theorem perform_attended (attended : Attended life) (found : life.tasks[index]? = some task)
    (ordered : life.RowBeforeSweep (.task index)) :
    Attended { (life.perform task).1 with
      tasks := putTask (life.perform task).1.tasks index (life.perform task).2 } := by
  have moved : Attended (life.perform task).1 := by
    generalize performed : (life.perform task).1 = base
    cases performed ▸ perform_cases task with
    | notes notes => exact attended_same attended (notes_same notes)
    | goes held goes => exact attended_goes attended held goes
    | writes id target wait hit _ held =>
      exact attended_held attended held (same_exits _) .unasking nofun nofun rfl rfl nofun
  refine attended_put moved (by rw [perform_tasks]; exact found) (fun new isNew => ?_) (fun _ _ => perform_seen)
    fun current target parked isTarget rechecks => ?_
  · obtain ⟨flow, wait, _⟩ := perform_left isNew
    exact ⟨flow, fun _ isWait => wait ▸ isWait⟩
  · generalize task.flow = flow at parked rechecks ⊢
    obtain ⟨wait, asking, serial⟩ := Task.rechecks_asking.mp rechecks
    cases left : (life.perform task).2 with
    | some new =>
      refine Or.inr (Or.inr ⟨new, rfl, Task.rechecks_asking.mpr ⟨wait, ?_, serial⟩⟩)
      rw [(perform_left left).2.2]
      exact asking
    | none =>
      rcases perform_ends left asking with awake | ⟨isTask, listed⟩
      · exact absurd parked (awake current)
      · -- The row it saw is there still, or a finalizer took it.
        subst isTask
        rcases attended.seen _ wait target (List.mem_of_getElem? found) current parked serial.symm with asks | waiter
        · refine Or.inl ⟨asks, ?_⟩
          by_contra past
          have past : ¬ (life.places target).pastSweep = false := past
          have gone := ordered _ found rfl listed (by simpa using past)
          exact absurd (asks.symm.trans gone) (by decide)
        · exact Or.inr (Or.inl waiter)

end Tasks

theorem attended_step (attended : Attended life) (event : LifeEvent) (ordered : life.RowBeforeSweep event)
    (stepped : life.next event = some after) : Attended after := by
  cases step_cases stepped with
  | spawn id unborn => exact spawn_attended attended unborn
  | turn held _ _ turn => exact turn_attended attended held turn
  | kill id reason => exact add_task_attended attended _ rfl
  | task index task found => exact perform_attended attended found ordered

end Steps

theorem initial_attended (maxAskWaits : Nat) : Attended (initial maxAskWaits) := by
  refine ⟨fun _ _ => Or.inl rfl, fun _ none => ?_, fun _ _ none => ?_, fun _ _ _ none => ?_, fun _ _ _ none => ?_⟩
  all_goals cases none

theorem no_ask_on_dead_target (maxAskWaits : Nat) (life : Lifecycle)
    (reached : Reach next RowBeforeSweep (initial maxAskWaits) life) (target : FlowId)
    (dead : life.places target = .gone) (asker : FlowId) (quiet : ∀ task ∈ life.tasks, task.flow ≠ asker) (wait : Wait)
    (parked : life.places asker = .parked wait) : wait.target ≠ some target := by
  have attended : Attended life := by
    refine reach_invariant (initial_attended maxAskWaits) ?_ reached
    intro before event after attended ordered stepped
    exact attended_step attended event ordered stepped
  intro isTarget
  rcases attended.kept asker wait target parked isTarget with ⟨_, before⟩ | left | ⟨task, member, rechecks⟩
  · rw [dead] at before
    cases before
  · rw [dead] at left
    cases left
  · refine quiet task member ?_
    revert rechecks
    cases task <;> simp +contextual [Task.rechecks, Task.flow]

def requestEvents (timed : Bool) : List LifeEvent :=
  [.spawn 1, .spawn 2, .step 1 .accepted 0, .run 1 (.ask 2 7 0 timed), .step 1 .accepted 0, .step 1 .accepted 0,
    .step 1 .empty 0]

def sweepEvents : List LifeEvent :=
  [.step 2 .accepted 0, .run 2 (.exit .normal), .step 2 .accepted 0, .step 2 .accepted 0, .step 2 .accepted 0,
    .step 2 .accepted 0, .step 2 .accepted 0]

def orphanEvents : List LifeEvent :=
  requestEvents false ++ ([.step 1 .accepted 0, .step 1 .empty 0, .task 0, .task 0, .task 0] : List LifeEvent) ++ sweepEvents ++
    ([.step 2 .accepted 0, .step 2 .accepted 0, .step 2 .accepted 0, .step 2 .accepted 0, .step 2 .accepted 0,
      .step 1 .accepted 0, .run 1 (.receive 3 false), .step 1 .empty 0, .step 1 .empty 0, .task 0] : List LifeEvent)

theorem orphan_is_woken : ∃ life, Reach next RowBeforeSweep (initial 0) life ∧ life.places 2 = .gone ∧
    life.exits.map (·.flow) = [1] ∧ ∃ wait, life.places 1 = .parked wait ∧ wait.target ≠ some 2 := by
  obtain ⟨life, played, dead, woken, quiet, wait, parked⟩ : ∃ life,
      play next (initial 0) orphanEvents = some life ∧ life.places 2 = .gone ∧
        life.exits.map (·.flow) = [1] ∧ life.tasks = [] ∧ ∃ wait, life.places 1 = .parked wait :=
    ⟨_, rfl, rfl, rfl, rfl, _, rfl⟩
  have reached : Reach next RowBeforeSweep (initial 0) life := reach_of_play orphanEvents (initial 0) (by decide) played
  refine ⟨life, reached, dead, woken, wait, parked, no_ask_on_dead_target 0 life reached 2 dead 1 ?_ wait parked⟩
  rw [quiet]
  intro task member
  cases member

def strandedEvents : List LifeEvent :=
  requestEvents false ++ sweepEvents ++ ([.step 1 .accepted 0, .step 1 .empty 0, .task 0, .task 0, .task 0, .step 2 .accepted 0,
    .step 2 .accepted 0, .step 2 .accepted 0] : List LifeEvent)

theorem late_row_is_stranded : ∃ life, Reach next (fun _ _ => True) (initial 0) life ∧ life.tasks = [] ∧
    life.places 2 = .gone ∧ ∃ wait, life.places 1 = .parked wait ∧ wait.target = some 2 ∧ wait.timed = false := by
  obtain ⟨life, played, stranded⟩ : ∃ life, play next (initial 0) strandedEvents = some life ∧
      life.tasks = [] ∧ life.places 2 = .gone ∧
        ∃ wait, life.places 1 = .parked wait ∧ wait.target = some 2 ∧ wait.timed = false :=
    ⟨_, rfl, rfl, rfl, _, rfl, rfl, rfl⟩
  exact ⟨life, reach_of_play strandedEvents (initial 0) (all_meet_of_forall (fun _ _ => trivial) _ _) played, stranded⟩

end Lifecycle

end Byteflow
