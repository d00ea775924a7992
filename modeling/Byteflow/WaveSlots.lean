import Byteflow.RestartIntensity

namespace Byteflow

open List Transition

-- The steps of a child's life in their order. The slot and the name are given
-- back before the fourth.
def ChildStage.rank : Option ChildStage → Nat
  | none => 0
  | some .running => 1
  | some (.finalizing _ _) => 2
  | some (.unlisted _ _) => 3
  | some (.unnamed _ _) => 4
  | some .gone => 5

def SupervisorRun.rank (run : SupervisorRun) (id : FlowId) : Nat := ChildStage.rank (run.stages id)

-- A supervisor, the children that hold a slot of the live-flow limit, and the
-- children that its last wave killed.
structure SlotRun where
  run : SupervisorRun
  slots : List FlowId
  victims : List FlowId

-- refuse is a respawn that try_reserve refuses, whoever holds the slots.
inductive SlotEvent where
  | wave (event : WaveEvent)
  | refuse
  | releaseSlot (id : FlowId)

namespace SlotRun

def initial (chunk : Chunk) (strategy : RestartStrategy) (maxRestarts maxPeriod : Nat) : SlotRun :=
  ⟨.initial chunk strategy maxRestarts maxPeriod, [], []⟩

def next (state : SlotRun) : SlotEvent → Option SlotRun
  | .wave event =>
    match event, state.run.next event with
    | _, none => none
    | .startChild id _, some run => some { state with run := run, slots := id :: state.slots }
    | .respawn id, some run =>
      some { state with run := run, slots := if (run.stages id).isSome then id :: state.slots else state.slots }
    | .kill id _, some run => some { state with run := run, slots := state.slots.filter (· ≠ id) }
    | .releaseName id, some run => if id ∈ state.slots then none else some { state with run := run }
    | .takeExit _, some run =>
      some { state with
        run := run
        victims := match run.sup.phase, run.sup.cascade with
          | .pruning, some cascade => cascade.waiting
          | _, _ => state.victims }
    | _, some run => some { state with run := run }
  | .refuse =>
    match state.run.sup.phase with
    | .respawnOne _ => some { state with run := state.run.setPhase .idle }
    | .respawnWave (_ :: rest) => some { state with run := state.run.setPhase (.respawnWave rest) }
    | _ => none
  -- The slot goes after the directory row and before the name.
  | .releaseSlot id => if state.run.rank id = 3 then some { state with slots := state.slots.filter (· ≠ id) } else none

-- The flow holds the name or a slot that the next respawn of the wave may need.
def BlockedBy (state : SlotRun) (id : FlowId) : Prop :=
  ∃ spec rest, state.run.sup.phase = .respawnWave (spec :: rest) ∧
    (spec.name ≠ "" ∧ state.run.names.lookup spec.name = some id ∨ id ∈ state.slots)

-- When start_cascade looks, no victim is between leaving the directory and giving up its name.
def settled (state : SlotRun) : SlotEvent → Bool
  | .wave .prune => match state.run.sup.cascade with
      | some cascade => cascade.waiting.all fun id => state.run.rank id ≠ 3
      | none => true
  | _ => true

structure Clear (state : SlotRun) : Prop where
  slots : ∀ id ∈ state.slots, 1 ≤ state.run.rank id ∧ state.run.rank id ≤ 3
  names : ∀ row ∈ state.run.names, 1 ≤ state.run.rank row.2 ∧ state.run.rank row.2 ≤ 3
  table : ∀ id ∈ state.run.sup.children.order, 1 ≤ state.run.rank id
  reported : ∀ exit ∈ state.run.sup.events, 4 ≤ state.run.rank exit.id
  watched : ∀ id ∈ state.victims, 4 ≤ state.run.rank id ∨
    1 ≤ state.run.rank id ∧ ∃ cascade, state.run.sup.cascade = some cascade ∧ id ∈ cascade.waiting
  waits : ∀ specs, state.run.sup.phase = .respawnWave specs → state.run.sup.cascade = none

theorem kept_victims {sup : Supervisor} (victims : List FlowId) (quiet : sup.phase.begins = false) :
    (match sup.phase, sup.cascade with
      | .pruning, some cascade => cascade.waiting
      | _, _ => victims) = victims := by
  split
  · rename_i pruning _
    rw [pruning] at quiet
    cases quiet
  · rfl

section Steps

variable {state after : SlotRun} (clear : Clear state) {run : SupervisorRun}

include clear

theorem clear_stage (id : FlowId) (stage : ChildStage)
    (stages : after.run.stages = Function.update state.run.stages id (some stage))
    (grows : state.run.rank id ≤ ChildStage.rank (some stage))
    (slots : ∀ other ∈ after.slots, other = id ∨ other ∈ state.slots)
    (names : ∀ row ∈ after.run.names, row.2 = id ∨ row ∈ state.run.names)
    (freed : ChildStage.rank (some stage) ≤ 3 ∨ id ∉ after.slots ∧ ∀ row ∈ after.run.names, row.2 ≠ id)
    (order : ∀ other ∈ after.run.sup.children.order, other = id ∨ other ∈ state.run.sup.children.order)
    (events : ∀ exit ∈ after.run.sup.events, exit.id = id ∧ 4 ≤ ChildStage.rank (some stage) ∨ exit ∈ state.run.sup.events)
    (victims : after.victims = state.victims) (cascade : after.run.sup.cascade = state.run.sup.cascade)
    (waits : ∀ specs, after.run.sup.phase = .respawnWave specs → state.run.sup.cascade = none) : Clear after := by
  have here : after.run.rank id = ChildStage.rank (some stage) := by rw [SupervisorRun.rank, stages, Function.update_self]
  have there : ∀ other, other ≠ id → after.run.rank other = state.run.rank other := by
    intro other differs
    rw [SupervisorRun.rank, stages, Function.update_of_ne differs, SupervisorRun.rank]
  have later : ∀ other, state.run.rank other ≤ after.run.rank other := by
    intro other
    by_cases same : other = id
    · rw [same, here]
      exact grows
    · exact (there other same).ge
  have born : 1 ≤ after.run.rank id := by
    rw [here]
    cases stage <;> simp [ChildStage.rank]
  constructor
  · intro other member
    by_cases same : other = id
    · rw [same] at member ⊢
      exact ⟨born, here.le.trans (freed.resolve_right fun free => free.1 member)⟩
    · rw [there other same]
      exact clear.slots other ((slots other member).resolve_left same)
  · intro row member
    by_cases same : row.2 = id
    · rw [same]
      exact ⟨born, here.le.trans (freed.resolve_right fun free => free.2 row member same)⟩
    · rw [there row.2 same]
      exact clear.names row ((names row member).resolve_left same)
  · intro other member
    obtain same | old := order other member
    · rw [same]
      exact born
    · exact (clear.table other old).trans (later other)
  · intro exit member
    obtain ⟨same, done⟩ | old := events exit member
    · rw [same, here]
      exact done
    · exact (clear.reported exit old).trans (later exit.id)
  · intro other member
    rw [cascade]
    obtain done | ⟨known, waiting⟩ := clear.watched other (victims ▸ member)
    · exact .inl (done.trans (later other))
    · exact .inr ⟨known.trans (later other), waiting⟩
  · intro specs phase
    rw [cascade]
    exact waits specs phase

theorem clear_drive (sup : Supervisor) (order : ∀ id ∈ sup.children.order, id ∈ state.run.sup.children.order)
    (events : ∀ exit ∈ sup.events, exit ∈ state.run.sup.events) (waves : List Wave)
    (cascade : sup.cascade = state.run.sup.cascade) (waits : ∀ specs, sup.phase = .respawnWave specs → sup.cascade = none) :
    Clear { state with run := { state.run with sup := sup, waves := waves } } := by
  refine ⟨clear.slots, clear.names, fun id member => clear.table id (order id member),
    fun exit member => clear.reported exit (events exit member), ?_, waits⟩
  rw [cascade]
  exact clear.watched

theorem clear_progress (sup : Supervisor) {cascade : Cascade} (keep : FlowId → Bool) {ready : Prop} [Decidable ready]
    (order : ∀ id ∈ sup.children.order, id ∈ state.run.sup.children.order)
    (events : ∀ exit ∈ sup.events, exit ∈ state.run.sup.events) (waves : List Wave) (idle : sup.phase = .idle)
    (active : state.run.sup.cascade = some cascade)
    (waiting : sup.cascade = some { cascade with waiting := cascade.waiting.filter keep })
    (dropped : ∀ id ∈ cascade.waiting, 1 ≤ state.run.rank id → keep id = false → 4 ≤ state.run.rank id)
    (done : ready → cascade.waiting.filter keep = []) :
    Clear { state with run := { state.run with sup := if ready then sup.finishCascade else sup, waves := waves } } := by
  have watched : ∀ id ∈ state.victims, 4 ≤ state.run.rank id ∨ 1 ≤ state.run.rank id ∧ id ∈ cascade.waiting.filter keep := by
    intro id member
    obtain ended | ⟨known, other, same, listed⟩ := clear.watched id member
    · exact .inl ended
    · cases active.symm.trans same
      cases kept : keep id with
      | true => exact .inr ⟨known, mem_filter.mpr ⟨listed, kept⟩⟩
      | false => exact .inl (dropped id listed known kept)
  have table := fun id member => clear.table id (order id member)
  have reported := fun exit member => clear.reported exit (events exit member)
  by_cases ended : ready
  · rw [if_pos ended, Supervisor.finishCascade, waiting]
    refine ⟨clear.slots, clear.names, table, reported, fun id member => .inl ?_, fun _ _ => rfl⟩
    apply (watched id member).resolve_right
    rw [done ended]
    exact fun listed => absurd listed.2 not_mem_nil
  · rw [if_neg ended]
    refine ⟨clear.slots, clear.names, table, reported, fun id member => (watched id member).imp_right ?_, ?_⟩
    · exact fun listed => ⟨listed.1, _, waiting, listed.2⟩
    · intro specs phase
      cases idle.symm.trans phase

theorem clear_take_exit {now : Nat} (moved : state.run.next (.takeExit now) = some run) :
    Clear { state with
      run := run
      victims := match run.sup.phase, run.sup.cascade with
        | .pruning, some cascade => cascade.waiting
        | _, _ => state.victims } := by
  simp only [SupervisorRun.next] at moved
  split at moved
  · rename_i exit rest idle queue
    cases moved
    have events : ∀ exit ∈ rest, exit ∈ state.run.sup.events := fun exit member => queue ▸ mem_cons_of_mem _ member
    have order : ∀ id ∈ (state.run.sup.children.remove exit.id).order, id ∈ state.run.sup.children.order :=
      fun id member => (mem_filter.mp member).1
    have handled := Supervisor.handle_exit_handled { state.run.sup with events := rest } exit now
    simp only [SupervisorRun.takeExit]
    generalize Supervisor.handleExit _ exit now = sup at handled
    cases handled with
    | unknown | left =>
      simp only [idle]
      exact clear_drive clear _ order events _ rfl fun _ phase => by cases phase
    | one => exact clear_drive clear _ order events _ rfl fun _ phase => by cases phase
    | expected child found marked =>
      have done : 4 ≤ state.run.rank exit.id := clear.reported exit (queue ▸ mem_cons_self ..)
      rw [Supervisor.onCascadeProgress]
      cases active : state.run.sup.cascade with
      | none =>
        simp only [idle]
        exact clear_drive clear _ order events _ active.symm fun _ phase => by cases phase
      | some cascade =>
        have quiet := Supervisor.progress_begins_nothing
          { state.run.sup with events := rest, children := state.run.sup.children.remove exit.id } idle exit.id
        rw [Supervisor.onCascadeProgress] at quiet
        simp only [active] at quiet ⊢
        rw [kept_victims _ quiet]
        refine clear_progress clear _ (· ≠ exit.id) order events _ idle active rfl ?_ isEmpty_iff.mp
        intro id _ _ left
        have same : id = exit.id := by simpa using left
        exact same ▸ done
    | wave child found free alone due under strategy failedIdx position =>
      rw [Supervisor.startCascade]
      cases Supervisor.waveSpecs _ child.spec failedIdx _ with
      | none =>
        simp only [idle]
        exact clear_drive clear _ order events _ rfl fun _ phase => by cases phase
      | some specs =>
        refine ⟨clear.slots, clear.names, fun id member => clear.table id (order id member),
          fun exit member => clear.reported exit (events exit member), fun id member => .inr ⟨?_, _, rfl, member⟩,
          fun _ phase => by cases phase⟩
        exact clear.table id (order id ((Supervisor.victims_sublist _ _).subset member))
  · cases moved

theorem clear_prune (settled : state.settled (.wave .prune) = true)
    (moved : state.run.next .prune = some run) : Clear { state with run := run } := by
  simp only [SupervisorRun.next] at moved
  split at moved
  · cases moved
    rw [Supervisor.pruneCascade]
    cases active : state.run.sup.cascade with
    | none =>
      simp only [Supervisor.finishCascade, active]
      exact clear_drive clear { state.run.sup with cascade := none, phase := .idle } (fun _ member => member)
        (fun _ member => member) _ active.symm fun _ phase => by cases phase
    | some cascade =>
      simp only [SlotRun.settled, active, all_eq_true, decide_eq_true_eq] at settled
      refine clear_progress clear
        { state.run.sup with cascade := some { cascade with waiting := cascade.waiting.filter state.run.isListed }, phase := .idle }
        state.run.isListed (fun _ member => member) (fun _ member => member) _ rfl active rfl ?_ ?_
      · intro id member known unlisted
        have apart := settled id member
        rw [SupervisorRun.isListed] at unlisted
        rw [SupervisorRun.rank] at known apart ⊢
        cases stage : state.run.stages id with
        | none => simp [stage, ChildStage.rank] at known
        | some at_ => cases at_ <;> simp_all [ChildStage.rank, ChildStage.isListed]
      · rintro (empty | empty)
        · exact isEmpty_iff.mp empty
        · rw [isEmpty_iff.mp empty]
          rfl
  · cases moved

theorem clear_spawn {id : FlowId} (spec : ChildSpec) (phase : DrivePhase) (fresh : state.run.stages id = none)
    (waits : ∀ specs, phase = .respawnWave specs → state.run.sup.cascade = none) (starts : List ChildSpec) (waves : List Wave) :
    Clear { state with
      run := { (state.run.setPhase phase).spawnChild id spec with starts := starts, waves := waves }
      slots := id :: state.slots } := by
  refine clear_stage clear id .running rfl (by simp [SupervisorRun.rank, fresh, ChildStage.rank])
    (fun _ member => mem_cons.mp member) ?_ (.inl (by decide)) ?_ (fun _ member => .inr member) rfl rfl waits
  · intro row member
    simp only [SupervisorRun.spawnChild] at member
    split at member
    · exact (mem_cons.mp member).imp_left fun same => by rw [same]
    · exact .inr member
  · intro other member
    exact (mem_append.mp member).symm.imp_left mem_singleton.mp

theorem clear_phase (phase : DrivePhase) (waits : ∀ specs, phase = .respawnWave specs → state.run.sup.cascade = none) :
    Clear { state with run := state.run.setPhase phase } :=
  clear_drive clear { state.run.sup with phase := phase } (fun _ member => member) (fun _ member => member) _ rfl waits

theorem clear_respawn {id : FlowId} (moved : state.run.next (.respawn id) = some run) :
    Clear { state with run := run, slots := if (run.stages id).isSome then id :: state.slots else state.slots } := by
  obtain ⟨known, moved⟩ := Option.ite_none_left_eq_some.mp moved
  have fresh : state.run.stages id = none := Option.not_isSome_iff_eq_none.mp known
  rw [SupervisorRun.respawn] at moved
  split at moved
  · rename_i spec phase
    cases moved
    rw [if_pos (by simp [SupervisorRun.spawnChild])]
    exact clear_spawn clear spec .idle fresh (fun _ phase => by cases phase) _ _
  · cases moved
    simpa [SupervisorRun.setPhase, fresh] using clear_phase clear .idle fun _ phase => by cases phase
  · rename_i spec rest phase
    split at moved
    · cases moved
      simpa [SupervisorRun.setPhase, fresh] using clear_phase clear .idle fun _ phase => by cases phase
    · cases moved
      have alone : ∀ specs, DrivePhase.respawnWave rest = .respawnWave specs → state.run.sup.cascade = none :=
        fun _ _ => clear.waits _ phase
      rw [SupervisorRun.recordRespawn]
      split
      · rw [if_pos (by simp [SupervisorRun.spawnChild])]
        exact clear_spawn clear spec _ fresh alone _ _
      · rw [if_pos (by simp [SupervisorRun.spawnChild])]
        exact clear_spawn clear spec _ fresh alone _ _
  · cases moved

theorem clear_child {event : WaveEvent} (moved : state.run.next event = some run)
    (taken : state.next (.wave event) = some after) (settled : state.settled (.wave event) = true) : Clear after := by
  cases event <;> simp only [next, moved] at taken
  case takeExit now =>
    cases taken
    exact clear_take_exit clear moved
  case prune =>
    cases taken
    exact clear_prune clear settled moved
  case respawn id =>
    cases taken
    exact clear_respawn clear moved
  case startChild id spec =>
    cases taken
    obtain ⟨known, moved⟩ := Option.ite_none_left_eq_some.mp moved
    have fresh := Option.not_isSome_iff_eq_none.mp known
    split at moved <;> cases moved <;> exact clear_spawn clear spec state.run.sup.phase fresh clear.waits _ _
  case exit id outcome restart =>
    cases taken
    simp only [SupervisorRun.next] at moved
    split at moved
    · rename_i here
      cases moved
      exact clear_stage clear id (.finalizing outcome restart) rfl (by simp [SupervisorRun.rank, here, ChildStage.rank])
        (fun _ => .inr) (fun _ => .inr) (.inl (by simp [ChildStage.rank])) (fun _ => .inr) (fun _ => .inr) rfl rfl clear.waits
    · cases moved
  case unregister id =>
    cases taken
    simp only [SupervisorRun.next] at moved
    split at moved
    · rename_i outcome restart here
      cases moved
      exact clear_stage clear id (.unlisted outcome restart) rfl (by simp [SupervisorRun.rank, here, ChildStage.rank])
        (fun _ => .inr) (fun _ => .inr) (.inl (by simp [ChildStage.rank])) (fun _ => .inr) (fun _ => .inr) rfl rfl clear.waits
    · cases moved
  case releaseName id =>
    obtain ⟨free, ⟨⟩⟩ := Option.ite_none_left_eq_some.mp taken
    simp only [SupervisorRun.next] at moved
    split at moved
    · rename_i outcome restart here
      cases moved
      refine clear_stage clear id (.unnamed outcome restart) rfl (by simp [SupervisorRun.rank, here, ChildStage.rank])
        (fun _ => .inr) (fun _ member => .inr (mem_filter.mp member).1) (.inr ⟨free, fun row member => ?_⟩)
        (fun _ => .inr) (fun _ => .inr) rfl rfl clear.waits
      exact of_decide_eq_true (mem_filter.mp member).2
    · cases moved
  case notify id =>
    cases taken
    simp only [SupervisorRun.next] at moved
    split at moved
    · rename_i outcome restart here
      cases moved
      have done : state.run.rank id = 4 := by simp [SupervisorRun.rank, here, ChildStage.rank]
      refine clear_stage clear id .gone rfl (by simp [done, ChildStage.rank]) (fun _ => .inr) (fun _ => .inr)
        (.inr ⟨fun member => ?_, fun row member same => ?_⟩) (fun _ => .inr) (fun exit member => ?_) rfl rfl clear.waits
      · exact absurd (clear.slots id member).2 (by omega)
      · exact absurd (clear.names row member).2 (by rw [same]; omega)
      · refine (mem_append.mp member).symm.imp_left fun new => ?_
        cases mem_singleton.mp new
        exact ⟨rfl, by simp [ChildStage.rank]⟩
    · cases moved
  case kill id restart =>
    cases taken
    simp only [SupervisorRun.next] at moved
    split at moved
    · rename_i here
      obtain ⟨_, moved⟩ := Option.ite_none_right_eq_some.mp moved
      cases moved
      refine clear_stage clear id .gone rfl (by simp [SupervisorRun.rank, here, ChildStage.rank])
        (fun _ member => .inr (mem_filter.mp member).1) (fun _ member => .inr (mem_filter.mp member).1)
        (.inr ⟨by simp, by simp⟩) (fun _ => .inr) (fun exit member => ?_) rfl rfl clear.waits
      refine (mem_append.mp member).symm.imp_left fun new => ?_
      cases mem_singleton.mp new
      exact ⟨rfl, by simp [ChildStage.rank]⟩
    · cases moved

theorem clear_next {event : SlotEvent} (settled : state.settled event = true) (taken : state.next event = some after) :
    Clear after := by
  cases event with
  | wave event =>
    cases moved : state.run.next event with
    | none => simp [next, moved] at taken
    | some run => exact clear_child clear moved taken settled
  | refuse =>
    simp only [next] at taken
    split at taken
    · cases taken
      exact clear_phase clear .idle nofun
    · rename_i spec rest phase
      cases taken
      exact clear_phase clear _ fun _ _ => clear.waits _ phase
    · cases taken
  | releaseSlot id =>
    obtain ⟨_, ⟨⟩⟩ := Option.ite_none_right_eq_some.mp taken
    exact { clear with slots := fun other member => clear.slots other (mem_filter.mp member).1 }

end Steps

theorem wave_unblocked (chunk : Chunk) (strategy : RestartStrategy) (maxRestarts maxPeriod : Nat) (state : SlotRun)
    (reached : Reach next (fun state event => state.settled event = true) (initial chunk strategy maxRestarts maxPeriod) state) :
    ∀ id ∈ state.victims, ¬ state.BlockedBy id := by
  have clear : Clear state := by
    apply reach_invariant _ _ reached
    · exact ⟨nofun, nofun, nofun, nofun, nofun, nofun⟩
    · exact fun _ _ _ clear settled taken => clear_next clear settled taken
  rintro id victim ⟨spec, rest, phase, holds⟩
  have done : 4 ≤ state.run.rank id := by
    apply (clear.watched id victim).resolve_right
    rintro ⟨_, cascade, active, _⟩
    rw [clear.waits _ phase] at active
    cases active
  obtain ⟨_, named⟩ | held := holds
  · have held : state.run.rank id ≤ 3 := (clear.names _ (Assoc.mem_of_lookup named)).2
    omega
  · have held := (clear.slots id held).2
    omega

def pair : SlotRun := initial SupervisorRun.trapTwice .oneForAll 3 5000

def failing : List SlotEvent :=
  ([.startChild 1 ⟨"first", 0, [], .always, none⟩, .startChild 2 ⟨"second", 1, [], .always, none⟩,
    .exit 1 (.failed "boom") .always, .unregister 1] : List WaveEvent).map .wave ++ .releaseSlot 1 ::
  ([.releaseName 1, .notify 1, .takeExit 0] : List WaveEvent).map .wave

def parkedVictim : List SlotEvent := failing ++ ([.kill 2 .always, .prune] : List WaveEvent).map .wave

theorem parked_victim_unblocked : ∃ state, Reach next (fun state event => state.settled event = true) pair state ∧
    state.victims = [2] ∧ state.run.sup.cascade.isNone = true ∧ ¬ state.BlockedBy 2 := by
  have reached : Reach next (fun state event => state.settled event = true) pair ((play next pair parkedVictim).getD pair) :=
    reach_of_play parkedVictim pair (by decide) rfl
  exact ⟨_, reached, rfl, rfl, wave_unblocked _ _ _ _ _ reached 2 (by decide)⟩

def unlistedVictim : List SlotEvent := failing ++
  ([.exit 2 (.failed "exit (supervisor)") .always, .unregister 2, .prune, .respawn 3] : List WaveEvent).map .wave

-- The child of the respawn cannot take the name of its spec: its row is marked for the kill.
theorem wave_blocked_by_victim : ∃ state, Reach next (fun _ _ => True) pair state ∧ state.victims = [2] ∧ state.BlockedBy 2 ∧
    ∃ after, state.next (.wave (.respawn 4)) = some after ∧ after.run.names.lookup "second" = some 2 ∧
      after.run.sup.children.find 4 = some ⟨⟨"second", 1, [], .always, none⟩, true⟩ :=
  ⟨(play next pair unlistedVictim).getD pair,
    reach_of_play unlistedVictim pair (all_meet_of_forall (fun _ _ => trivial) _ _) rfl, rfl,
    ⟨_, [], rfl, .inl ⟨by decide, rfl⟩⟩, _, rfl, rfl, rfl⟩

end SlotRun

end Byteflow
