import Byteflow.LifecycleSteps

namespace Byteflow

open List Function Transition

namespace Task

-- A thread that takes a pending kill of the flow, or the flow itself, before it
-- is done, if the flow stays parked in its mailbox.
def seeksParked (id : FlowId) : Task → Bool
  | .killTakeParked flow _ | .checkKill flow _ => flow = id
  | _ => false

def seeksWaiting (id target : FlowId) : Task → Bool
  | .killTakeParked flow _ | .killIndex flow _ => flow = id
  | .killTarget flow at_ _ | .killTakeSender flow at_ _ | .sentCheck flow at_ => flow = id && at_ = target
  | _ => false

def restores : Task → Option FlowId
  | .checkRestore id _ _ | .sentRestore id _ => some id
  | _ => none

theorem seeks_parked_flow {id : FlowId} {task : Task} (seeks : task.seeksParked id = true) : task.flow = id := by
  cases task <;> simp_all [seeksParked, flow]

theorem seeks_waiting_flow {id target : FlowId} {task : Task} (seeks : task.seeksWaiting id target = true) :
    task.flow = id := by
  cases task <;> simp_all [seeksWaiting, flow]

end Task

def Stage.pastClose : Stage → Bool
  | .signal | .index | .asker | .close => false
  | .sweep | .lookup _ | .take .. | .revoke | .unregister => true

namespace Lifecycle

def Sought (id : FlowId) (tasks : List Task) : Place → Prop
  | .parked _ => ∃ task ∈ tasks, task.seeksParked id = true
  | .waiting target _ => ∃ task ∈ tasks, task.seeksWaiting id target = true
  | .unborn | .hand _ | .gone => True

instance (id : FlowId) (tasks : List Task) : ∀ place, Decidable (Sought id tasks place)
  | .parked _ => inferInstanceAs (Decidable (∃ task ∈ tasks, task.seeksParked id = true))
  | .waiting target _ => inferInstanceAs (Decidable (∃ task ∈ tasks, task.seeksWaiting id target = true))
  | .unborn | .hand _ | .gone => isTrue trivial

-- A kill that a thread took and did not deliver is put back only while the flow
-- is not parked, or while another thread is still to look for the flow there.
def RestoreSought (life : Lifecycle) : LifeEvent → Prop
  | .task index => ∀ task ∈ life.tasks[index]?, ∀ id ∈ task.restores,
      Sought id (life.tasks.eraseIdx index) (life.places id)
  | _ => True

instance (life : Lifecycle) : ∀ event, Decidable (life.RestoreSought event)
  | .task index =>
    have (task : Task) : Decidable (∀ id ∈ task.restores, Sought id (life.tasks.eraseIdx index) (life.places id)) :=
      Option.decidableForallMem _
    Option.decidableForallMem _
  | .spawn _ | .run .. | .step .. | .kill .. | .wake _ | .expire .. | .takeSender .. => isTrue trivial

-- The waiting_send_at row of a flow that waits, or is about to wait, to send,
-- and the mailbox of a flow that is being finalized.
def Booked (life : Lifecycle) (id : FlowId) : Place → Prop
  | .waiting target _ => life.waitingSendAt id = some target ∧ life.opened target = true
  | .hand (.sendLookup target _) | .hand (.sendPark target _) => life.waitingSendAt id = some target
  | .hand (.finalizing _ stage) => stage.pastClose = true → life.opened id = false
  | _ => True

structure Watched (life : Lifecycle) : Prop where
  listed : ∀ id, life.opened id = true → life.directory id = true
  booked : ∀ id, life.Booked id (life.places id)
  sought : ∀ id, life.signals id ≠ none → Sought id life.tasks (life.places id)

section Steps

variable {life after : Lifecycle} {id : FlowId} {base : Lifecycle} {place : Place}

theorem sought_more {tasks more : List Task} (fewer : ∀ task ∈ tasks, task.flow = id → task ∈ more)
    (sought : Sought id tasks place) : Sought id more place := by
  cases place with
  | parked wait =>
    obtain ⟨task, member, seeks⟩ := sought
    exact ⟨task, fewer task member (Task.seeks_parked_flow seeks), seeks⟩
  | waiting target reply =>
    obtain ⟨task, member, seeks⟩ := sought
    exact ⟨task, fewer task member (Task.seeks_waiting_flow seeks), seeks⟩
  | unborn | hand | gone => trivial

theorem booked_frame (booked : life.Booked id place) (row : after.waitingSendAt id = life.waitingSendAt id)
    (opened : ∀ target reply, place = .waiting target reply → life.opened target = true → after.opened target = true)
    (shut : life.opened id = false → after.opened id = false) : after.Booked id place := by
  unfold Booked at booked ⊢
  split
  · exact ⟨row.trans booked.1, opened _ _ rfl booked.2⟩
  · exact row.trans booked
  · exact row.trans booked
  · exact fun past => shut (booked past)
  · trivial

theorem booked_same (row : after.waitingSendAt id = life.waitingSendAt id)
    (opened : after.opened = life.opened) (booked : life.Booked id place) : after.Booked id place :=
  booked_frame booked row (fun _ _ _ isOpen => opened ▸ isOpen) fun shut => opened ▸ shut

-- A step of the thread that holds the flow, or one that takes the flow out of
-- its place: only the entries of that flow change.
theorem watched_move (watched : Watched life) (place : Place)
    (places : after.places = update life.places id place) (directory : after.directory = life.directory)
    (opened : after.opened = life.opened) (signals : ∀ other, other ≠ id → after.signals other = life.signals other)
    (rows : ∀ other, other ≠ id → after.waitingSendAt other = life.waitingSendAt other)
    (tasks : ∀ task ∈ life.tasks, task.flow ≠ id → task ∈ after.tasks) (booked : after.Booked id place)
    (sought : after.signals id ≠ none → Sought id after.tasks place) : Watched after := by
  refine ⟨fun other isOpen => ?_, fun other => ?_, fun other pending => ?_⟩
  · rw [directory]
    exact watched.listed other (opened ▸ isOpen)
  · rw [places]
    by_cases same : other = id
    · subst same
      rw [update_self]
      exact booked
    · rw [update_of_ne same]
      exact booked_same (rows other same) opened (watched.booked other)
  · rw [places]
    by_cases same : other = id
    · subst same
      rw [update_self]
      exact sought pending
    · rw [update_of_ne same]
      rw [signals other same] at pending
      refine sought_more (fun task member flow => tasks task member ?_) (watched.sought other pending)
      rw [flow]
      exact same

-- base differs from life in the entries of the flow only.
structure Local (id : FlowId) (life base : Lifecycle) : Prop where
  places : base.places = life.places
  directory : base.directory = life.directory
  opened : base.opened = life.opened
  tasks : base.tasks = life.tasks
  signals : ∀ other, other ≠ id → base.signals other = life.signals other
  rows : ∀ other, other ≠ id → base.waitingSendAt other = life.waitingSendAt other

theorem notes_local (notes : Notes life id base) : Local id life base := by
  cases notes with
  | nothing => exact ⟨rfl, rfl, rfl, rfl, fun _ _ => rfl, fun _ _ => rfl⟩
  | signal => exact ⟨rfl, rfl, rfl, rfl, fun _ differs => update_of_ne differs _ _, fun _ _ => rfl⟩
  | row => exact ⟨rfl, rfl, rfl, rfl, fun _ _ => rfl, fun _ differs => update_of_ne differs _ _⟩

theorem local_books (rows : List (FlowId × AskRow)) (clock : Nat) (exits : List ExitWrite) :
    Local id life { life with askWaits := rows, clock := clock, exits := exits } :=
  ⟨rfl, rfl, rfl, rfl, fun _ _ => rfl, fun _ _ => rfl⟩

theorem watched_held (watched : Watched life) (near : Local id life base) (point : Point)
    (booked : base.Booked id (.hand point)) : Watched (base.moveTo id point) := by
  refine watched_move watched (.hand point) (by rw [← near.places]; rfl) near.directory near.opened near.signals near.rows
    (fun task member _ => ?_) booked fun _ => trivial
  change task ∈ base.tasks
  rwa [near.tasks]

theorem goes_booked {follow : Point} (booked : life.Booked id place)
    (goes : Goes life id place base follow) : base.Booked id (.hand follow) := by
  cases goes with
  | stops | unsignals | unbooks => exact fun past => nomatch past
  | books target => exact update_self ..
  | meets => exact booked
  | delivers _ reply | sent reply => cases reply <;> trivial
  | revokes | leaves => exact fun _ => booked rfl
  | _ => trivial

theorem close_mailbox_watched (watched : Watched life) : Watched (life.closeMailbox id) := by
  refine ⟨fun other isOpen => ?_, fun other => ?_, fun other pending => ?_⟩
  · by_cases same : other = id
    · simp [closeMailbox, same] at isOpen
    · simp only [closeMailbox, update_of_ne same] at isOpen
      exact watched.listed other isOpen
  · rcases close_mailbox_cases life id other with ⟨_, _, now⟩ | ⟨unblocked, now⟩
    · rw [now]
      trivial
    · rw [now]
      refine booked_frame (watched.booked other) rfl (fun target reply isPlace isOpen => ?_) fun shut => ?_
      · have differs : target ≠ id := fun same => unblocked reply (same ▸ isPlace)
        exact (update_of_ne differs ..).trans isOpen
      · by_cases same : other = id
        · exact same ▸ update_self ..
        · exact (update_of_ne same ..).trans shut
  · rcases close_mailbox_cases life id other with ⟨_, _, now⟩ | ⟨_, now⟩
    · rw [now]
      trivial
    · rw [now]
      exact watched.sought other pending

theorem orphan_watched {asker : FlowId} {serial : Nat} {reason : FlowExitReason} (watched : Watched life)
    (orphan : Orphan life id asker serial reason base) : Watched base ∧ base.opened = life.opened := by
  cases orphan with
  | woken wait parked point follow =>
    refine ⟨watched_held watched (local_books life.askWaits life.clock _) point ?_, rfl⟩
    rcases follow with rfl | rfl
    · trivial
    · exact fun past => nomatch past
  | left => exact ⟨watched, rfl⟩

theorem unregister_watched (watched : Watched life) (shut : life.opened id = false) :
    Watched ({ life with directory := update life.directory id false }.move id .gone) := by
  have moved : Watched (life.move id .gone) :=
    watched_move watched .gone rfl rfl rfl (fun _ _ => rfl) (fun _ _ => rfl) (fun _ member _ => member) trivial
      fun _ => trivial
  refine ⟨fun other isOpen => ?_, moved.booked, moved.sought⟩
  by_cases same : other = id
  · subst same
    exact absurd isOpen (by change ¬ life.opened other = true; rw [shut]; decide)
  · change update life.directory id false other = true
    rw [update_of_ne same]
    exact watched.listed other isOpen

theorem turn_watched (watched : Watched life) (held : life.places id = place)
    (turn : Turn life id place after) : Watched after := by
  have booked := watched.booked id
  rw [held] at booked
  cases turn with
  | goes goes => exact watched_held watched (notes_local (goes_notes goes)) _ (goes_booked booked goes)
  | receives | asks => exact watched_held watched (local_books life.askWaits (life.clock + 1) life.exits) _ trivial
  | sleeps target reply isOpen =>
    refine watched_move watched (.waiting target reply) rfl rfl rfl (fun _ _ => rfl) (fun _ _ => rfl)
      (fun task member _ => mem_append_left _ member) ⟨booked, isOpen⟩ fun _ => ?_
    exact ⟨.sentCheck id target, mem_append_right _ (mem_singleton_self _), by simp [Task.seeksWaiting]⟩
  | inserts | unasks => exact watched_held watched (local_books _ life.clock life.exits) _ trivial
  | hears => exact watched_held watched (notes_local .nothing) _ trivial
  | parks wait =>
    refine watched_move watched (.parked wait) rfl rfl rfl (fun _ _ => rfl) (fun _ _ => rfl)
      (fun task member _ => mem_append_left _ member) trivial fun _ => ?_
    exact ⟨.checkKill id wait, mem_append_right _ (mem_singleton_self _), by simp [Task.seeksParked]⟩
  | faults | removes => exact watched_held watched (local_books _ life.clock life.exits) _ fun past => nomatch past
  | closes reason =>
    by_cases listed : life.directory id = true
    · rw [if_pos listed]
      refine watched_held (close_mailbox_watched watched) (notes_local .nothing) _ fun _ => ?_
      exact update_self id false life.opened
    · rw [if_neg listed]
      refine watched_held watched (notes_local .nothing) _ fun _ => ?_
      by_contra isOpen
      exact listed (watched.listed id (by simpa using isOpen))
  | sweeps => exact watched_held watched (local_books _ life.clock life.exits) _ fun _ => booked rfl
  | picks => exact watched_held watched (notes_local .nothing) _ fun _ => booked rfl
  | takes reason asker serial rest orphan =>
    obtain ⟨woken, opened⟩ := orphan_watched watched orphan
    refine watched_held woken (notes_local .nothing) _ fun _ => ?_
    rw [opened]
    exact booked rfl
  | unregisters => exact unregister_watched watched (booked rfl)

section Tasks

variable {tasks : List Task} {index : Nat} {task : Task} {left : Option Task}

theorem mem_put_erased {other : Task} (member : other ∈ tasks.eraseIdx index) : other ∈ putTask tasks index left := by
  cases left with
  | none => exact member
  | some new =>
    obtain ⟨position, differs, found⟩ := mem_eraseIdx_iff_getElem?.mp member
    have kept : (tasks.set index new)[position]? = some other := by
      rw [List.getElem?_set_ne (Ne.symm differs)]
      exact found
    exact mem_of_getElem? kept

theorem mem_put_other {other : Task} (found : tasks[index]? = some task) (member : other ∈ tasks) (differs : other ≠ task) :
    other ∈ putTask tasks index left := by
  apply mem_put_erased
  obtain ⟨position, isOther⟩ := List.mem_iff_getElem?.mp member
  refine mem_eraseIdx_iff_getElem?.mpr ⟨position, ?_, isOther⟩
  intro same
  rw [same, found] at isOther
  exact differs (Option.some.inj isOther).symm

theorem mem_put_left {new : Task} (found : tasks[index]? = some task) : new ∈ putTask tasks index (some new) := by
  obtain ⟨inside, _⟩ := List.getElem?_eq_some_iff.mp found
  exact mem_set inside new

theorem sought_put {place : Place} (found : tasks[index]? = some task) (sought : Sought id tasks place)
    (idle : task.seeksParked id = false) (aside : ∀ target reply, place = .waiting target reply →
      task.seeksWaiting id target = false) : Sought id (putTask tasks index left) place := by
  cases place with
  | parked wait =>
    obtain ⟨other, member, seeks⟩ := sought
    refine ⟨other, mem_put_other found member fun same => ?_, seeks⟩
    rw [same, idle] at seeks
    cases seeks
  | waiting target reply =>
    obtain ⟨other, member, seeks⟩ := sought
    refine ⟨other, mem_put_other found member fun same => ?_, seeks⟩
    rw [same, aside target reply rfl] at seeks
    cases seeks
  | unborn | hand | gone => trivial

theorem watched_task {base : Lifecycle} (watched : Watched life) (found : life.tasks[index]? = some task)
    (about : task.flow = id) (place : Place) (places : base.places = update life.places id place)
    (directory : base.directory = life.directory) (opened : base.opened = life.opened)
    (signals : ∀ other, other ≠ id → base.signals other = life.signals other)
    (rows : base.waitingSendAt = life.waitingSendAt) (tasks : base.tasks = life.tasks) (booked : life.Booked id place)
    (sought : base.signals id ≠ none → Sought id (putTask life.tasks index left) place) :
    Watched { base with tasks := putTask base.tasks index left } := by
  refine watched_move watched place places directory opened signals (fun other _ => by rw [rows])
    (fun other member differs => ?_) (booked_same (by rw [rows]) opened booked) ?_
  · change other ∈ putTask base.tasks index left
    rw [tasks]
    exact mem_put_other found member fun same => differs (same ▸ about)
  · change base.signals id ≠ none → Sought id (putTask base.tasks index left) place
    rw [tasks]
    exact sought

theorem watched_look (watched : Watched life) (found : life.tasks[index]? = some task) (about : task.flow = id)
    (sought : life.signals id ≠ none → Sought id (putTask life.tasks index left) (life.places id)) :
    Watched { life with tasks := putTask life.tasks index left } :=
  watched_task watched found about (life.places id) (update_eq_self id life.places).symm rfl rfl (fun _ _ => rfl)
    rfl rfl (watched.booked id) sought

theorem watched_signal (watched : Watched life) (found : life.tasks[index]? = some task) (about : task.flow = id)
    (signal : Option FlowExitReason)
    (sought : signal ≠ none → Sought id (putTask life.tasks index left) (life.places id)) :
    Watched { life.setSignal id signal with tasks := putTask (life.setSignal id signal).tasks index left } := by
  refine watched_task watched found about (life.places id) (update_eq_self id life.places).symm rfl rfl
    (fun other differs => update_of_ne differs _ _) rfl rfl (watched.booked id) fun pending => sought ?_
  intro none
  apply pending
  change update life.signals id signal id = _
  rw [update_self, none]

theorem watched_take {base : Lifecycle} (watched : Watched life) (found : life.tasks[index]? = some task)
    (about : task.flow = id) (near : Local id life base) (rows : base.waitingSendAt = life.waitingSendAt) (point : Point)
    (booked : life.Booked id (.hand point)) :
    Watched { base.moveTo id point with tasks := putTask (base.moveTo id point).tasks index left } := by
  refine watched_task watched found about (.hand point) ?_ near.directory near.opened near.signals rows near.tasks booked
    fun _ => trivial
  rw [← near.places]
  rfl

theorem perform_watched (watched : Watched life) (found : life.tasks[index]? = some task)
    (restore : ∀ id ∈ task.restores, Sought id (life.tasks.eraseIdx index) (life.places id)) :
    Watched { (life.perform task).1 with
      tasks := putTask (life.perform task).1.tasks index (life.perform task).2 } := by
  have idle : task.seeksParked task.flow = false → (∀ target reply, life.places task.flow = .waiting target reply →
      task.seeksWaiting task.flow target = false) → ∀ left, Watched { life with tasks := putTask life.tasks index left } :=
    fun unparked unsent left => watched_look watched found rfl fun pending =>
      sought_put found (watched.sought _ pending) unparked unsent
  cases task with
  | killLookup | askIndex | askDirectory => exact idle rfl (fun _ _ _ => rfl) _
  | killSet id reason =>
    refine watched_signal watched found rfl (some reason) fun _ => ?_
    have after : Task.killTakeParked id reason ∈ putTask life.tasks index (some (.killTakeParked id reason)) :=
      mem_put_left found
    change Sought id _ (life.places id)
    cases life.places id with
    | parked wait => exact ⟨_, after, by simp [Task.seeksParked]⟩
    | waiting target reply => exact ⟨_, after, by simp [Task.seeksWaiting]⟩
    | unborn | hand | gone => trivial
  | killTakeParked id reason =>
    simp only [perform]
    cases place : life.places id with
    | parked wait => exact watched_take watched found rfl (notes_local .nothing) rfl _ fun past => by cases past
    | waiting target reply =>
      refine watched_look watched found rfl fun _ => ?_
      change Sought id _ (life.places id)
      rw [place]
      exact ⟨.killIndex id reason, mem_put_left found, by simp [Task.seeksWaiting]⟩
    | unborn | hand point | gone =>
      refine watched_look watched found rfl fun _ => ?_
      change Sought id _ (life.places id)
      rw [place]
      trivial
  | killIndex id reason =>
    refine watched_look watched found rfl fun pending => ?_
    change Sought id _ (life.places id)
    have sought := watched.sought id pending
    have booked := watched.booked id
    revert sought booked
    cases life.places id with
    | waiting target reply =>
      -- The row names the mailbox in which the flow waits.
      intro _ booked
      have row : (life.perform (.killIndex id reason)).2 = some (.killTarget id target reason) := by
        simp only [perform, booked.1, Option.map_some]
      rw [row]
      exact ⟨.killTarget id target reason, mem_put_left found, by simp [Task.seeksWaiting]⟩
    | parked wait => exact fun sought _ => sought_put found sought rfl fun _ _ isWaiting => by cases isWaiting
    | unborn | hand point | gone => exact fun _ _ => trivial
  | killTarget id target reason =>
    refine watched_look watched found rfl fun pending => ?_
    change Sought id _ (life.places id)
    have sought := watched.sought id pending
    have booked := watched.booked id
    revert sought booked
    cases life.places id with
    | waiting current reply =>
      intro sought booked
      by_cases same : current = target
      · subst same
        have listed : (life.perform (.killTarget id current reason)).2 = some (.killTakeSender id current reason) := by
          simp only [perform, watched.listed current booked.2, if_true]
        rw [listed]
        exact ⟨.killTakeSender id current reason, mem_put_left found, by simp [Task.seeksWaiting]⟩
      · refine sought_put found sought rfl fun other _ isWaiting => ?_
        cases isWaiting
        simpa [Task.seeksWaiting] using fun eq => same eq.symm
    | parked wait => exact fun sought _ => sought_put found sought rfl fun _ _ isWaiting => by cases isWaiting
    | unborn | hand point | gone => exact fun _ _ => trivial
  | killTakeSender id target reason =>
    have other : ∀ current reply, life.places id = .waiting current reply → current ≠ target →
        (Task.killTakeSender id target reason).seeksWaiting id current = false := by
      intro current _ _ differs
      simpa [Task.seeksWaiting] using fun eq => differs eq.symm
    simp only [perform]
    cases place : life.places id with
    | waiting current reply =>
      dsimp only
      by_cases same : current = target
      · rw [if_pos same]
        exact watched_take watched found rfl (notes_local .nothing) rfl _ trivial
      · rw [if_neg same]
        refine idle rfl (fun target reply isWaiting => other target reply isWaiting ?_) _
        cases place.symm.trans isWaiting
        exact same
    | unborn | hand point | parked wait | gone =>
      exact idle rfl (fun _ _ isWaiting => by cases place.symm.trans isWaiting) _
  | checkKill id _ | sentCheck id _ =>
    simp only [perform]
    cases signal : life.signals id with
    | some reason => exact watched_signal watched found rfl none fun pending => absurd rfl pending
    | none => exact watched_look watched found rfl fun pending => absurd signal pending
  | checkTake id wait reason =>
    simp only [perform]
    cases life.places id with
    | parked hit => exact watched_take watched found rfl (notes_local .nothing) rfl _ fun past => by cases past
    | unborn | hand point | waiting target reply | gone => exact idle rfl (fun _ _ _ => rfl) _
  | checkRestore id _ reason | sentRestore id reason =>
    refine watched_signal watched found rfl (some reason) fun _ => ?_
    exact sought_more (fun task member _ => mem_put_erased member) (restore id rfl)
  | sentTake id target reason =>
    simp only [perform]
    cases life.places id with
    | waiting current reply =>
      dsimp only
      by_cases same : current = target
      · rw [if_pos same]
        exact watched_take watched found rfl (notes_local .nothing) rfl _ trivial
      · rw [if_neg same]
        exact idle rfl (fun _ _ _ => rfl) _
    | unborn | hand point | parked wait | gone => exact idle rfl (fun _ _ _ => rfl) _
  | askGone id wait target =>
    simp only [perform]
    cases life.places id with
    | parked hit => exact watched_take watched found rfl (local_books life.askWaits life.clock (_ :: life.exits)) rfl .unasking trivial
    | unborn | hand point | waiting target reply | gone => exact idle rfl (fun _ _ _ => rfl) _

end Tasks

theorem spawn_watched (watched : Watched life) :
    Watched { life.moveTo id .ready with
      directory := update life.directory id true
      opened := update life.opened id true } := by
  refine ⟨fun other isOpen => ?_, fun other => ?_, fun other pending => ?_⟩
  · by_cases same : other = id
    · exact same ▸ update_self ..
    · have isOpen : update life.opened id true other = true := isOpen
      rw [update_of_ne same] at isOpen
      change update life.directory id true other = true
      rw [update_of_ne same]
      exact watched.listed other isOpen
  · change Booked _ other (update life.places id (.hand .ready) other)
    by_cases same : other = id
    · rw [same, update_self]
      trivial
    · rw [update_of_ne same]
      refine booked_frame (watched.booked other) rfl (fun target _ _ isOpen => ?_) fun shut =>
        (update_of_ne same ..).trans shut
      by_cases born : target = id
      · exact born ▸ update_self ..
      · exact (update_of_ne born ..).trans isOpen
  · change Sought other life.tasks (update life.places id (.hand .ready) other)
    by_cases same : other = id
    · rw [same, update_self]
      trivial
    · rw [update_of_ne same]
      exact watched.sought other pending

theorem watched_step (watched : Watched life) (event : LifeEvent) (restore : life.RestoreSought event)
    (stepped : life.next event = some after) : Watched after := by
  cases step_cases stepped with
  | spawn id _ => exact spawn_watched watched
  | turn held _ _ turn => exact turn_watched watched held turn
  | kill id reason =>
    refine ⟨watched.listed, watched.booked, fun other pending => ?_⟩
    exact sought_more (fun task member _ => mem_append_left _ member) (watched.sought other pending)
  | task index task found => exact perform_watched watched found (restore task found)

end Steps

theorem initial_watched (maxAskWaits : Nat) : Watched (initial maxAskWaits) := by
  refine ⟨fun _ isOpen => ?_, fun _ => trivial, fun _ pending => absurd rfl pending⟩
  cases isOpen

def Asleep (life : Lifecycle) (id : FlowId) : Prop :=
  (∃ wait, life.places id = .parked wait) ∨ ∃ target reply, life.places id = .waiting target reply

theorem kill_never_lost (maxAskWaits : Nat) (life : Lifecycle)
    (reached : Reach next RestoreSought (initial maxAskWaits) life) (id : FlowId)
    (quiet : ∀ task ∈ life.tasks, task.flow ≠ id) (asleep : life.Asleep id) : life.signals id = none := by
  have watched : Watched life := by
    refine reach_invariant (initial_watched maxAskWaits) ?_ reached
    intro before event after watched restore stepped
    exact watched_step watched event restore stepped
  by_contra pending
  have sought := watched.sought id pending
  rcases asleep with ⟨wait, place⟩ | ⟨target, reply, place⟩
  · rw [place] at sought
    obtain ⟨task, member, seeks⟩ := sought
    exact quiet task member (Task.seeks_parked_flow seeks)
  · rw [place] at sought
    obtain ⟨task, member, seeks⟩ := sought
    exact quiet task member (Task.seeks_waiting_flow seeks)

-- Flow 2 parks, is killed and woken at once; the thread that parked it takes
-- the kill and finds the flow gone from the mailbox.
def wokenKillEvents : List LifeEvent :=
  [.spawn 2, .step 2 .accepted 0, .run 2 (.receive 0 false), .step 2 .empty 0, .step 2 .empty 0, .kill 2 .killed, .task 1,
    .task 1, .task 0, .wake 2, .task 0, .task 1, .task 1]

def obeyedEvents : List LifeEvent :=
  wokenKillEvents ++ ([.task 0, .step 2 .accepted 0, .step 2 .accepted 0, .spawn 1, .step 1 .accepted 0,
    .run 1 (.receive 0 false), .step 1 .empty 0, .step 1 .empty 0, .task 0] : List LifeEvent)

theorem restored_kill_is_obeyed : ∃ life, Reach next RestoreSought (initial 0) life ∧
    life.places 2 = .hand (.finalizing .killed .signal) ∧ life.Asleep 1 ∧ life.signals 1 = none := by
  obtain ⟨life, played, killed, quiet, wait, place⟩ : ∃ life, play next (initial 0) obeyedEvents = some life ∧
      life.places 2 = .hand (.finalizing .killed .signal) ∧ life.tasks = [] ∧ ∃ wait, life.places 1 = .parked wait :=
    ⟨_, rfl, rfl, rfl, _, rfl⟩
  have reached : Reach next RestoreSought (initial 0) life :=
    reach_of_play obeyedEvents (initial 0) (by decide) played
  refine ⟨life, reached, killed, Or.inl ⟨wait, place⟩, kill_never_lost 0 life reached 1 ?_ (Or.inl ⟨wait, place⟩)⟩
  rw [quiet]
  intro task member
  cases member

def lostKillEvents : List LifeEvent :=
  wokenKillEvents ++ ([.step 2 .accepted 0, .step 2 .accepted 0, .run 2 (.receive 0 false), .step 2 .empty 0,
    .step 2 .empty 0, .task 1, .task 0] : List LifeEvent)

theorem restored_kill_is_lost : ∃ life, Reach next (fun _ _ => True) (initial 0) life ∧
    life.tasks = [] ∧ life.Asleep 2 ∧ life.signals 2 = some .killed := by
  obtain ⟨life, played, quiet, wait, place, pending⟩ : ∃ life, play next (initial 0) lostKillEvents = some life ∧
      life.tasks = [] ∧ ∃ wait, life.places 2 = .parked wait ∧ life.signals 2 = some .killed :=
    ⟨_, rfl, rfl, _, rfl, rfl⟩
  exact ⟨life, reach_of_play lostKillEvents (initial 0) (all_meet_of_forall (fun _ _ => trivial) _ _) played, quiet,
    Or.inl ⟨wait, place⟩, pending⟩

end Lifecycle

end Byteflow
