import Byteflow.Lifecycle

namespace Byteflow

namespace Task

def flow : Task → FlowId
  | .killLookup id _ | .killSet id _ | .killTakeParked id _ | .killIndex id _ | .killTarget id _ _
  | .killTakeSender id _ _ | .checkKill id _ | .checkTake id _ _ | .checkRestore id _ _ | .sentCheck id _
  | .sentTake id _ _ | .sentRestore id _ | .askIndex id _ _ | .askDirectory id _ _ _ | .askGone id _ _ => id

def wait : Task → Option Wait
  | .checkKill _ wait | .checkTake _ wait _ | .checkRestore _ wait _ | .askIndex _ wait _ | .askDirectory _ wait _ _
  | .askGone _ wait _ => some wait
  | .killLookup .. | .killSet .. | .killTakeParked .. | .killIndex .. | .killTarget .. | .killTakeSender .. | .sentCheck ..
  | .sentTake .. | .sentRestore .. => none

def asking : Task → Option (FlowId × FlowId × Wait)
  | .checkKill id wait | .checkTake id wait _ | .checkRestore id wait _ => wait.target.map fun target => (id, target, wait)
  | .askIndex id wait target | .askDirectory id wait target _ | .askGone id wait target => some (id, target, wait)
  | .killLookup .. | .killSet .. | .killTakeParked .. | .killIndex .. | .killTarget .. | .killTakeSender .. | .sentCheck ..
  | .sentTake .. | .sentRestore .. => none

end Task

def Place.alive : Place → Bool
  | .hand (.finalizing ..) | .unborn | .gone => false
  | .hand _ | .parked _ | .waiting .. => true

namespace Lifecycle

-- What a step may write of a flow beside its place.
inductive Notes (life : Lifecycle) (id : FlowId) : Lifecycle → Prop where
  | nothing : Notes life id life
  | signal (signal : Option FlowExitReason) : Notes life id (life.setSignal id signal)
  | row (target : Option FlowId) : Notes life id (life.setWaitingSend id target)

-- The flow comes from its place into the hand of a thread at a point, and no
-- table but its own notes is written.
inductive Goes (life : Lifecycle) (id : FlowId) : Place → Lifecycle → Point → Prop where
  | stops {place : Place} {base : Lifecycle} (alive : place.alive = true) (notes : Notes life id base)
      (reason : FlowExitReason) : Goes life id place base (.finalizing reason .signal)
  | resumes : Goes life id (.hand .ready) life .running
  | yields : Goes life id (.hand .running) life .ready
  | awaits : Goes life id (.hand .running) life .running
  | sends (target : FlowId) : Goes life id (.hand .running) life (.deliverLookup target none)
  | pops (wait : Wait) : Goes life id (.hand (.popping wait)) life .running
  | receives (wait : Wait) : Goes life id (.hand (.popping wait)) life (.parking wait)
  | asks (wait : Wait) : Goes life id (.hand (.popping wait)) life (.inserting wait)
  | finds (target : FlowId) (reply : Option Wait) :
      Goes life id (.hand (.deliverLookup target reply)) life (.deliverPush target reply)
  | fills (target : FlowId) (reply : Option Wait) :
      Goes life id (.hand (.deliverPush target reply)) life (.sendIndex target reply)
  | delivers (target : FlowId) (reply : Option Wait) :
      Goes life id (.hand (.deliverPush target reply)) life (afterSend reply)
  | books (target : FlowId) (reply : Option Wait) :
      Goes life id (.hand (.sendIndex target reply)) (life.setWaitingSend id (some target)) (.sendLookup target reply)
  | meets (target : FlowId) (reply : Option Wait) :
      Goes life id (.hand (.sendLookup target reply)) life (.sendPark target reply)
  | withdraws {place : Place} (alive : place.alive = true) (target : FlowId) (reply : Option Wait)
      (sending : place = .hand (.sendLookup target reply) ∨ place = .hand (.sendPark target reply) ∨
        place = .waiting target reply) (reason : FlowExitReason) : Goes life id place life (.withdrawing reason)
  | lands (target : FlowId) (reply : Option Wait) :
      Goes life id (.hand (.sendPark target reply)) life (.sendDelivered reply)
  | admits (target : FlowId) (reply : Option Wait) : Goes life id (.waiting target reply) life (.admitted reply)
  | sent (reply : Option Wait) : Goes life id (.hand (.sendDelivered reply)) (life.setWaitingSend id none) (afterSend reply)
  | rests : Goes life id (.hand (.admitted none)) (life.setWaitingSend id none) .ready
  | replies (wait : Wait) :
      Goes life id (.hand (.admitted (some wait))) (life.setWaitingSend id none) (.inserting wait)
  | finishes (wait : Wait) : Goes life id (.hand (.parking wait)) life .unasking
  | wakes (wait : Wait) : Goes life id (.parked wait) life .unasking
  | unsignals (reason : FlowExitReason) :
      Goes life id (.hand (.finalizing reason .signal)) (life.setSignal id none) (.finalizing reason .index)
  | unbooks (reason : FlowExitReason) :
      Goes life id (.hand (.finalizing reason .index)) (life.setWaitingSend id none) (.finalizing reason .asker)
  | revokes (reason : FlowExitReason) :
      Goes life id (.hand (.finalizing reason (.lookup []))) life (.finalizing reason .revoke)
  | leaves (reason : FlowExitReason) :
      Goes life id (.hand (.finalizing reason .revoke)) life (.finalizing reason .unregister)

inductive Orphan (life : Lifecycle) (id asker : FlowId) (serial : Nat) (reason : FlowExitReason) : Lifecycle → Prop where
  | woken (wait : Wait) (parked : life.places asker = .parked wait) (point : Point)
      (follow : point = .ready ∨ point = .finalizing .fault .signal) : Orphan life id asker serial reason
        ({ life with exits := ⟨asker, serial, wait, wait.dest, Message.linkedExit id reason.asU64⟩ :: life.exits }.moveTo asker point)
  | left (unparked : ∀ wait, life.places asker ≠ .parked wait) : Orphan life id asker serial reason life

-- A step about one flow, by the place it finds the flow in.
inductive Turn (life : Lifecycle) (id : FlowId) : Place → Lifecycle → Prop where
  | goes {place : Place} {base : Lifecycle} {follow : Point} (goes : Goes life id place base follow) :
      Turn life id place (base.moveTo id follow)
  | receives (wait : Wait) (serial : wait.serial = life.clock) :
      Turn life id (.hand .running) ({ life with clock := life.clock + 1 }.moveTo id (.popping wait))
  | asks (target : FlowId) (wait : Wait) (asked : wait.target = some target) (serial : wait.serial = life.clock) :
      Turn life id (.hand .running)
        ({ life with clock := life.clock + 1 }.moveTo id (.deliverLookup target (some wait)))
  | sleeps (target : FlowId) (reply : Option Wait) (isOpen : life.opened target = true) :
      Turn life id (.hand (.sendPark target reply))
        ((life.move id (.waiting target reply)).addTask (.sentCheck id target))
  | inserts (target : FlowId) (wait : Wait) (asked : wait.target = some target) :
      Turn life id (.hand (.inserting wait))
        ({ life with askWaits := (id, ⟨target, wait.requestId, wait.serial⟩) :: life.askWaits }.moveTo id (.parking wait))
  | hears (wait : Wait) (asked : wait.target = none) : Turn life id (.hand (.parking wait)) (life.moveTo id .ready)
  | parks (wait : Wait) :
      Turn life id (.hand (.parking wait)) ((life.move id (.parked wait)).addTask (.checkKill id wait))
  | unasks : Turn life id (.hand .unasking) ((life.removeAsker id).moveTo id .ready)
  | faults : Turn life id (.hand .unasking) ((life.removeAsker id).moveTo id (.finalizing .fault .signal))
  | removes (reason : FlowExitReason) : Turn life id (.hand (.finalizing reason .asker))
      ((life.removeAsker id).moveTo id (.finalizing reason .close))
  | closes (reason : FlowExitReason) : Turn life id (.hand (.finalizing reason .close))
      ((if life.directory id then life.closeMailbox id else life).moveTo id (.finalizing reason .sweep))
  | sweeps (reason : FlowExitReason) : Turn life id (.hand (.finalizing reason .sweep))
      ({ life with askWaits := life.askWaits.filter (·.2.target ≠ id) }.moveTo id
        (.finalizing reason (.lookup (life.waitersOf id))))
  | picks (reason : FlowExitReason) (waiters : List (FlowId × Nat)) (pick : Nat) (asker : FlowId) (serial : Nat)
      (picked : waiters[pick]? = some (asker, serial)) :
      Turn life id (.hand (.finalizing reason (.lookup waiters)))
        (life.moveTo id (.finalizing reason (if life.directory asker then Stage.take asker serial (waiters.eraseIdx pick)
          else .lookup (waiters.eraseIdx pick))))
  | takes (reason : FlowExitReason) (asker : FlowId) (serial : Nat) (rest : List (FlowId × Nat)) {base : Lifecycle}
      (orphan : Orphan life id asker serial reason base) : Turn life id (.hand (.finalizing reason (.take asker serial rest)))
        (base.moveTo id (.finalizing reason (.lookup rest)))
  | unregisters (reason : FlowExitReason) : Turn life id (.hand (.finalizing reason .unregister))
      ({ life with directory := Function.update life.directory id false }.move id .gone)

inductive Step (life : Lifecycle) : LifeEvent → Lifecycle → Prop where
  | spawn (id : FlowId) (unborn : life.places id = .unborn) : Step life (.spawn id)
      { life.moveTo id .ready with
        directory := Function.update life.directory id true
        opened := Function.update life.opened id true }
  -- Only the interpreter goes on from running, and only the thread that holds
  -- a flow parks it.
  | turn {event : LifeEvent} {id : FlowId} {place : Place} {after : Lifecycle} (held : life.places id = place)
      (runner : place = .hand .running → ∃ effect, event = .run id effect)
      (holder : ∀ wait, place = .hand (.parking wait) → ∃ answer pick, event = .step id answer pick)
      (turn : Turn life id place after) : Step life event after
  | kill (id : FlowId) (reason : FlowExitReason) : Step life (.kill id reason) (life.addTask (.killLookup id reason))
  | task (index : Nat) (task : Task) (found : life.tasks[index]? = some task) : Step life (.task index)
      { (life.perform task).1 with tasks := putTask (life.perform task).1.tasks index (life.perform task).2 }

section Inversion

variable {life after : Lifecycle} {id : FlowId} {point : Point}

theorem wake_orphan_cases (life : Lifecycle) (id asker : FlowId) (serial : Nat) (reason : FlowExitReason) (answer : Answer) :
    Orphan life id asker serial reason (life.wakeOrphan id asker serial reason answer) := by
  unfold wakeOrphan
  cases place : life.places asker with
  | parked wait =>
    dsimp only
    split
    · exact .woken wait place _ (Or.inr rfl)
    · exact .woken wait place _ (Or.inl rfl)
  | unborn | hand point | waiting target reply | gone =>
    refine .left fun wait parked => ?_
    rw [place] at parked
    cases parked

-- Closing a mailbox takes every sender that waits there out of it.
theorem close_mailbox_cases (life : Lifecycle) (id other : FlowId) :
    (∃ reply, life.places other = .waiting id reply ∧ (life.closeMailbox id).places other = .hand (.withdrawing .fault)) ∨
      (∀ reply, life.places other ≠ .waiting id reply) ∧ (life.closeMailbox id).places other = life.places other := by
  cases place : life.places other with
  | waiting target reply =>
    by_cases here : target = id
    · exact Or.inl ⟨reply, by rw [here], by simp [closeMailbox, place, here]⟩
    · refine Or.inr ⟨fun reply same => here ?_, by simp [closeMailbox, place, here]⟩
      cases same
      rfl
  | unborn | hand point | parked wait | gone => exact Or.inr ⟨nofun, by simp [closeMailbox, place]⟩

theorem close_mailbox_hand (held : life.places id = .hand point) : (life.closeMailbox id).places id = .hand point := by
  simp only [closeMailbox, held]

theorem obey_kill_turn (alive : (Place.hand point).alive = true) (idle : point = .ready ∨ point = .running) :
    Turn life id (.hand point) (life.obeyKill id) := by
  unfold obeyKill
  cases life.signals id with
  | some reason => exact .goes (.stops alive (.signal none) reason)
  | none =>
    rcases idle with rfl | rfl
    · exact .goes .resumes
    · exact .goes .awaits

theorem run_effect_turn (effect : Effect) : Turn life id (.hand .running) (life.runEffect id effect) := by
  cases effect with
  | yield => exact .goes .yields
  | exit reason => exact .goes (.stops rfl .nothing reason)
  | hostAwait => exact obey_kill_turn rfl (Or.inr rfl)
  | receive dest timed => exact .receives _ rfl
  | send target => exact .goes (.sends target)
  | ask target requestId dest timed => exact .asks target _ rfl rfl

theorem insert_ask_inserted {target : FlowId} {wait : Wait} {inserted : Lifecycle}
    (outcome : life.insertAsk id target wait = (inserted, true)) :
    inserted = { life with askWaits := (id, ⟨target, wait.requestId, wait.serial⟩) :: life.askWaits } := by
  unfold insertAsk at outcome
  split at outcome
  · cases outcome
  · split at outcome
    · cases outcome
    · cases outcome
      rfl

theorem finalize_one_turn {reason : FlowExitReason} {answer : Answer} {pick : Nat} {stage : Stage}
    (stepped : life.finalizeOne id reason answer pick stage = some after) :
    Turn life id (.hand (.finalizing reason stage)) after := by
  cases stage with
  | lookup waiters =>
    cases waiters with
    | nil =>
      cases stepped
      exact .goes (.revokes reason)
    | cons first rest =>
      simp only [finalizeOne] at stepped
      split at stepped
      · cases stepped
      · rename_i asker serial picked
        cases stepped
        exact .picks reason _ pick asker serial picked
  | signal =>
    cases stepped
    exact .goes (.unsignals reason)
  | index =>
    cases stepped
    exact .goes (.unbooks reason)
  | asker =>
    cases stepped
    exact .removes reason
  | close =>
    cases stepped
    exact .closes reason
  | sweep =>
    cases stepped
    exact .sweeps reason
  | take asker serial rest =>
    cases stepped
    exact .takes reason asker serial rest (wake_orphan_cases life id asker serial reason answer)
  | revoke =>
    cases stepped
    exact .goes (.leaves reason)
  | unregister =>
    cases stepped
    exact .unregisters reason

theorem advance_turn {answer : Answer} {pick : Nat} (stepped : life.advance id answer pick point = some after) :
    Turn life id (.hand point) after := by
  have fails : ∀ {place : Place} (reason : FlowExitReason), place.alive = true → Turn life id place (life.finalize id reason) :=
    fun reason alive => .goes (.stops alive .nothing reason)
  cases point with
  | ready =>
    cases stepped
    split
    · exact fails .fault rfl
    · exact obey_kill_turn rfl (Or.inl rfl)
  | running => cases stepped
  | popping wait =>
    simp only [advance] at stepped
    split at stepped <;> cases stepped
    · exact fails .fault rfl
    · exact .goes (.pops wait)
    · exact .goes (.receives wait)
    · exact .goes (.asks wait)
  | deliverLookup target reply =>
    cases stepped
    split
    · exact .goes (.finds target reply)
    · exact fails .fault rfl
  | deliverPush target reply =>
    simp only [advance] at stepped
    split at stepped
    · cases stepped
      exact fails .fault rfl
    · split at stepped <;> cases stepped
      · exact .goes (.fills target reply)
      · exact fails .fault rfl
      · exact .goes (.delivers target reply)
  | sendIndex target reply =>
    cases stepped
    exact .goes (.books target reply)
  | sendLookup target reply =>
    cases stepped
    split
    · exact .goes (.meets target reply)
    · exact .goes (.withdraws rfl target reply (Or.inl rfl) .fault)
  | sendPark target reply =>
    simp only [advance] at stepped
    split at stepped
    · cases stepped
      exact .goes (.withdraws rfl target reply (Or.inr (Or.inl rfl)) .fault)
    · rename_i isOpen
      split at stepped <;> cases stepped
      · exact .sleeps target reply (by simpa using isOpen)
      · exact .goes (.lands target reply)
      · exact .goes (.withdraws rfl target reply (Or.inr (Or.inl rfl)) .fault)
  | sendDelivered reply =>
    cases stepped
    exact .goes (.sent reply)
  | admitted reply =>
    cases stepped
    cases reply with
    | none => exact .goes .rests
    | some wait => exact .goes (.replies wait)
  | withdrawing reason =>
    cases stepped
    exact .goes (.stops rfl (.row none) reason)
  | inserting wait =>
    simp only [advance] at stepped
    split at stepped
    · cases stepped
    · rename_i target asked
      split at stepped
      · cases stepped
        exact fails .fault rfl
      · rename_i outcome
        cases stepped
        rw [insert_ask_inserted outcome]
        exact .inserts target wait asked
  | parking wait =>
    simp only [advance] at stepped
    split at stepped
    · rename_i asked
      cases stepped
      exact .hears wait asked
    · cases stepped
      exact fails .fault rfl
    · cases stepped
      exact .goes (.finishes wait)
    · cases stepped
      exact .goes (.finishes wait)
    · cases stepped
      exact .parks wait
  | unasking =>
    cases stepped
    split
    · exact .faults
    · exact .unasks
  | finalizing reason stage => exact finalize_one_turn stepped

theorem step_cases {event : LifeEvent} (stepped : life.next event = some after) : Step life event after := by
  cases event with
  | spawn id =>
    simp only [next] at stepped
    split at stepped <;> cases stepped
    exact .spawn id (by assumption)
  | run id effect =>
    simp only [next] at stepped
    split at stepped <;> cases stepped
    rename_i held
    exact .turn held (fun _ => ⟨effect, rfl⟩) (fun _ parks => nomatch parks) (run_effect_turn effect)
  | step id answer pick =>
    simp only [next] at stepped
    split at stepped
    · rename_i held
      exact .turn held (fun runs => by cases runs; cases stepped) (fun _ _ => ⟨answer, pick, rfl⟩) (advance_turn stepped)
    · cases stepped
  | kill id reason =>
    cases stepped
    exact .kill id reason
  | task index =>
    simp only [next] at stepped
    cases found : life.tasks[index]? with
    | none => simp [found] at stepped
    | some task =>
      simp only [found, Option.some.injEq] at stepped
      subst stepped
      exact .task index task found
  | wake id =>
    simp only [next] at stepped
    split at stepped <;> cases stepped
    rename_i held
    exact .turn held (fun runs => nomatch runs) (fun _ parks => nomatch parks) (.goes (.wakes _))
  | expire id armed =>
    simp only [next] at stepped
    split at stepped
    · rename_i held
      split at stepped <;> cases stepped
      refine .turn held (fun runs => nomatch runs) (fun _ parks => nomatch parks) ?_
      split
      · exact .goes (.wakes _)
      · exact .goes (.stops rfl .nothing .fault)
    · cases stepped
  | takeSender id fits =>
    simp only [next] at stepped
    split at stepped
    · rename_i target reply held
      split at stepped <;> cases stepped
      refine .turn held (fun runs => nomatch runs) (fun _ parks => nomatch parks) ?_
      split
      · exact .goes (.admits target reply)
      · exact .goes (.withdraws rfl target reply (Or.inr (Or.inr rfl)) .fault)
    · cases stepped

theorem goes_notes {place : Place} {base : Lifecycle} {follow : Point} (goes : Goes life id place base follow) :
    Notes life id base := by
  cases goes with
  | stops _ notes => exact notes
  | books target => exact .row (some target)
  | sent | rests | replies | unbooks => exact .row none
  | unsignals => exact .signal none
  | _ => exact .nothing

theorem after_check_left {wait : Wait} {new : Task} (isNew : afterCheck id wait = some new) :
    new.flow = id ∧ new.wait = some wait ∧ new.asking = (Task.checkKill id wait).asking := by
  obtain ⟨target, isTarget, rfl⟩ := Option.map_eq_some_iff.mp isNew
  exact ⟨rfl, rfl, by simp only [Task.asking, isTarget, Option.map_some]⟩

-- A task that goes on is about the same flow and the same Ask.
theorem perform_left {task new : Task} (isNew : (life.perform task).2 = some new) :
    new.flow = task.flow ∧ new.wait = task.wait ∧ new.asking = task.asking := by
  cases task with
  | checkKill id wait =>
    simp only [perform] at isNew
    split at isNew
    · cases isNew
      exact ⟨rfl, rfl, rfl⟩
    · exact after_check_left isNew
  | checkRestore id wait reason => exact after_check_left isNew
  | killIndex id reason =>
    obtain ⟨target, _, rfl⟩ := Option.map_eq_some_iff.mp isNew
    exact ⟨rfl, rfl, rfl⟩
  | killSet | askIndex =>
    cases isNew
    exact ⟨rfl, rfl, rfl⟩
  | sentRestore => cases isNew
  | sentTake id target reason =>
    simp only [perform] at isNew
    split at isNew
    · split at isNew <;> cases isNew
      exact ⟨rfl, rfl, rfl⟩
    · cases isNew
      exact ⟨rfl, rfl, rfl⟩
  | killTakeSender id target reason =>
    simp only [perform] at isNew
    split at isNew
    · split at isNew <;> cases isNew
    · cases isNew
  | askGone id wait target =>
    simp only [perform] at isNew
    split at isNew <;> cases isNew
  | _ =>
    simp only [perform] at isNew
    split at isNew <;> cases isNew
    exact ⟨rfl, rfl, rfl⟩

inductive Performs (life : Lifecycle) (task : Task) : Lifecycle → Prop where
  | notes {base : Lifecycle} (notes : Notes life task.flow base) : Performs life task base
  | goes {place : Place} {follow : Point} (held : life.places task.flow = place)
      (goes : Goes life task.flow place life follow) : Performs life task (life.moveTo task.flow follow)
  | writes (id target : FlowId) (wait hit : Wait) (isTask : task = .askGone id wait target) (held : life.places id = .parked hit) :
      Performs life task ({ life with exits := ⟨id, wait.serial, hit, wait.dest,
        Message.linkedExit target FlowExitReason.fault.asU64⟩ :: life.exits }.moveTo id .unasking)

theorem perform_cases (task : Task) : Performs life task (life.perform task).1 := by
  cases task with
  | killTakeParked id reason | checkTake id wait reason =>
    simp only [perform]
    split
    · rename_i held
      exact .goes held (.stops rfl .nothing reason)
    · exact .notes .nothing
  | killTakeSender id target reason | sentTake id target reason =>
    simp only [perform]
    split
    · rename_i current reply held
      split
      · exact .goes held (.withdraws rfl current reply (Or.inr (Or.inr rfl)) reason)
      · exact .notes .nothing
    · exact .notes .nothing
  | checkKill id wait | sentCheck id target =>
    simp only [perform]
    split
    · exact .notes (.signal none)
    · exact .notes .nothing
  | killSet id reason | checkRestore id wait reason | sentRestore id reason => exact .notes (.signal (some reason))
  | askGone id wait target =>
    simp only [perform]
    split
    · rename_i held
      exact .writes id target wait _ rfl held
    · exact .notes .nothing
  | killLookup | killIndex | killTarget | askIndex | askDirectory => exact .notes .nothing

theorem notes_tasks {base : Lifecycle} (notes : Notes life id base) : base.tasks = life.tasks := by
  cases notes <;> rfl

theorem perform_tasks (task : Task) : (life.perform task).1.tasks = life.tasks := by
  generalize performed : (life.perform task).1 = base
  cases performed ▸ perform_cases task with
  | notes notes => exact notes_tasks notes
  | goes | writes => rfl

end Inversion

end Lifecycle

end Byteflow
