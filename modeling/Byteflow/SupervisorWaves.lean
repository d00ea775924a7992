import Byteflow.SupervisorExit
import Byteflow.Transition

namespace Byteflow

open ChildTable List Transition

-- How far finalize_one has got with a child: it leaves the directory, then
-- its name, and last it tells the supervisor.
inductive ChildStage where
  | running
  | finalizing (outcome : FlowOutcome) (restart : RestartPolicy)
  | unlisted (outcome : FlowOutcome) (restart : RestartPolicy)
  | unnamed (outcome : FlowOutcome) (restart : RestartPolicy)
  | gone

def ChildStage.isRunning : ChildStage → Bool
  | .running => true
  | _ => false

def ChildStage.isListed : ChildStage → Bool
  | .running | .finalizing _ _ => true
  | _ => false

-- The history of one wave: the specs it is due to start again, and those it
-- has started.
structure Wave where
  due : List ChildSpec
  respawned : List ChildSpec

-- One supervisor and its children. starts holds the spec of every start_child
-- that succeeded; starts and waves, newest first, are the history of the run.
structure SupervisorRun where
  sup : Supervisor
  stages : FlowId → Option ChildStage
  names : List (String × FlowId)
  starts : List ChildSpec
  waves : List Wave

-- A spawn event carries the new flow id.
inductive WaveEvent where
  | startChild (id : FlowId) (spec : ChildSpec)
  | exit (id : FlowId) (outcome : FlowOutcome) (restart : RestartPolicy)
  | unregister (id : FlowId)
  | releaseName (id : FlowId)
  | notify (id : FlowId)
  | takeExit (now : Nat)
  | kill (id : FlowId) (restart : RestartPolicy)
  | prune
  | respawn (id : FlowId)

namespace SupervisorRun

def initial (chunk : Chunk) (strategy : RestartStrategy) (maxRestarts maxPeriod : Nat) : SupervisorRun :=
  ⟨.withConfig chunk strategy maxRestarts maxPeriod, fun _ => none, [], [], []⟩

def setStage (run : SupervisorRun) (id : FlowId) (stage : ChildStage) : SupervisorRun :=
  { run with stages := Function.update run.stages id (some stage) }

def isListed (run : SupervisorRun) (id : FlowId) : Bool := (run.stages id).any ChildStage.isListed

def nameFree (run : SupervisorRun) (spec : ChildSpec) : Bool := spec.name = "" || (run.names.lookup spec.name).isNone

-- A child whose name is taken stays in the table, marked for the kill that
-- spawn_child then asks for.
def spawnChild (run : SupervisorRun) (id : FlowId) (spec : ChildSpec) : SupervisorRun :=
  { run with
    sup := { run.sup with children := run.sup.children.insert id ⟨spec, !run.nameFree spec⟩ }
    names := if spec.name ≠ "" ∧ run.nameFree spec = true then (spec.name, id) :: run.names else run.names
    stages := Function.update run.stages id (some .running) }

def recordRespawn (run : SupervisorRun) (spec : ChildSpec) : SupervisorRun :=
  match run.waves with
  | [] => run
  | wave :: old => { run with waves := { wave with respawned := wave.respawned ++ [spec] } :: old }

def setPhase (run : SupervisorRun) (phase : DrivePhase) : SupervisorRun := { run with sup := { run.sup with phase := phase } }

def respawn (run : SupervisorRun) (id : FlowId) : Option SupervisorRun :=
  match run.sup.phase with
  | .respawnOne spec => some ((run.setPhase .idle).spawnChild id spec)
  | .respawnWave [] => some (run.setPhase .idle)
  | .respawnWave (spec :: rest) =>
    if run.sup.intensityExceeded then some (run.setPhase .idle)
    else some (((run.setPhase (.respawnWave rest)).spawnChild id spec).recordRespawn spec)
  | _ => none

def takeExit (run : SupervisorRun) (exit : ChildExit) (rest : List ChildExit) (now : Nat) : SupervisorRun :=
  let after := { run.sup with events := rest }.handleExit exit now
  { run with
    sup := after
    waves := if run.sup.cascade.isNone && after.cascade.isSome then ⟨run.sup.dueAfter exit.id, []⟩ :: run.waves else run.waves }

-- Flow ids are never used twice.
def next (run : SupervisorRun) : WaveEvent → Option SupervisorRun
  | .startChild id spec =>
    if (run.stages id).isSome then none
    else if run.nameFree spec then some { run.spawnChild id spec with starts := spec :: run.starts }
    else some (run.spawnChild id spec)
  | .exit id outcome restart =>
    match run.stages id with
    | some .running => some (run.setStage id (.finalizing outcome restart))
    | _ => none
  | .unregister id =>
    match run.stages id with
    | some (.finalizing outcome restart) => some (run.setStage id (.unlisted outcome restart))
    | _ => none
  | .releaseName id =>
    match run.stages id with
    | some (.unlisted outcome restart) =>
      some { run.setStage id (.unnamed outcome restart) with names := run.names.filter (·.2 ≠ id) }
    | _ => none
  | .notify id =>
    match run.stages id with
    | some (.unnamed outcome restart) => some { run.setStage id .gone with sup := run.sup.notify ⟨id, outcome, restart⟩ }
    | _ => none
  | .takeExit now =>
    match run.sup.phase, run.sup.events with
    | .idle, exit :: rest => some (run.takeExit exit rest now)
    | _, _ => none
  -- The drive thread itself finalizes a victim it finds parked. A running
  -- victim exits later, at the end of its quantum.
  | .kill id restart =>
    match run.sup.phase, run.sup.cascade, run.stages id with
    | .pruning, some cascade, some .running =>
      if id ∈ cascade.waiting then
        some { run.setStage id .gone with
          names := run.names.filter (·.2 ≠ id)
          sup := run.sup.notify ⟨id, .failed "exit (supervisor)", restart⟩ }
      else none
    | _, _, _ => none
  | .prune =>
    match run.sup.phase with
    | .pruning => some { run with sup := run.sup.pruneCascade run.isListed }
    | _ => none
  | .respawn id => if (run.stages id).isSome then none else run.respawn id

def incarnations (run : SupervisorRun) : List ChildSpec :=
  run.sup.children.byId.filterMap fun (id, child) =>
    if !child.expectedShutdown && (run.stages id).any ChildStage.isRunning then some child.spec else none

def pendingWave (sup : Supervisor) : List ChildSpec :=
  match sup.cascade, sup.phase with
  | some cascade, _ => cascade.specs
  | none, .respawnWave specs => specs
  | none, _ => []

-- The last wave has started again what it is due to, except what is still
-- pending; the earlier ones all of it.
def WavesExact (run : SupervisorRun) : Prop :=
  match run.waves with
  | [] => pendingWave run.sup = []
  | wave :: old => wave.respawned ++ pendingWave run.sup = wave.due ∧ ∀ wave ∈ old, wave.respawned = wave.due

-- A respawn does not fail: the name of its spec is free.
def respawnFits (run : SupervisorRun) : WaveEvent → Bool
  | .respawn _ =>
    match run.sup.phase with
    | .respawnOne spec => run.nameFree spec
    | .respawnWave (spec :: _) => run.nameFree spec
    | _ => true
  | _ => true

-- A wave starts only when none of its victims is already marked for shutdown,
-- and the restart intensity is not exceeded while a wave waits for its victims.
def orderly (run : SupervisorRun) : WaveEvent → Bool
  | .takeExit now =>
    match run.sup.events with
    | [] => true
    | exit :: _ =>
      !run.sup.restarts exit ||
        if run.sup.cascade.isSome then !run.sup.overLimit now
        else run.sup.overLimit now || run.sup.strategy == .oneForOne ||
          (run.sup.victims exit.id).all fun id => !run.sup.isMarked id
  | _ => true

open Supervisor (Placed victims_sublist victims_found wave_placed wave_specs_placed placed_due)

def pendingOne : DrivePhase → List ChildSpec
  | .respawnOne spec => [spec]
  | _ => []

structure Sound (run : SupervisorRun) : Prop where
  shaped : run.sup.children.Shaped
  known : ∀ id ∈ run.sup.children.byId.map Prod.fst, (run.stages id).isSome
  -- A wave that waits for its victims leaves the drive thread free.
  waits : run.sup.cascade.isSome → run.sup.phase = .idle ∨ run.sup.phase = .pruning
  covered : (run.sup.children.live ++ pendingWave run.sup ++ pendingOne run.sup.phase).Subperm run.starts
  exact_ : WavesExact run
  calm : pendingWave run.sup ≠ [] → run.sup.intensityExceeded = false

section Steps

variable {run after : SupervisorRun} {id : FlowId} {child : LiveChild}

theorem initial_sound (chunk : Chunk) (strategy : RestartStrategy) (maxRestarts maxPeriod : Nat) :
    Sound (initial chunk strategy maxRestarts maxPeriod) where
  shaped := new_shaped
  known := nofun
  waits := nofun
  covered := nil_subperm
  exact_ := rfl
  calm pending := absurd rfl pending

theorem sound_stage (sound : Sound run) (stages : ∀ other, (run.stages other).isSome → (after.stages other).isSome)
    (events : List ChildExit) (sup : after.sup = { run.sup with events := events }) (starts : after.starts = run.starts)
    (waves : after.waves = run.waves) : Sound after where
  shaped := by
    rw [sup]
    exact sound.shaped
  known other member := by
    rw [sup] at member
    exact stages other (sound.known other member)
  waits := by
    rw [sup]
    exact sound.waits
  covered := by
    rw [sup, starts]
    exact sound.covered
  exact_ := by
    rw [WavesExact, waves, sup]
    exact sound.exact_
  calm := by
    rw [sup]
    exact sound.calm

theorem exact_same (exact_ : WavesExact run) (waves : after.waves = run.waves)
    (pending : pendingWave after.sup = pendingWave run.sup) : WavesExact after := by
  rw [WavesExact, waves, pending]
  exact exact_

theorem set_stage_some (run : SupervisorRun) (id : FlowId) (stage : ChildStage) (other : FlowId)
    (known : (run.stages other).isSome) : ((run.setStage id stage).stages other).isSome := by
  rw [setStage]
  by_cases same : other = id
  · simp [same]
  · simpa [same] using known

theorem sound_spawn (sound : Sound run) (fresh : (run.stages id).isSome = false) (spec : ChildSpec) (phase : DrivePhase)
    (starts : List ChildSpec) (waves : List Wave) (waits : run.sup.cascade.isSome → phase = .idle ∨ phase = .pruning)
    (covered : ((if run.nameFree spec then spec :: run.sup.children.live else run.sup.children.live) ++
      pendingWave (run.setPhase phase).sup ++ pendingOne phase).Subperm starts)
    (exact_ : WavesExact { run.setPhase phase with waves := waves })
    (calm : pendingWave (run.setPhase phase).sup ≠ [] → run.sup.intensityExceeded = false) :
    Sound { (run.setPhase phase).spawnChild id spec with starts := starts, waves := waves } := by
  have absent : id ∉ run.sup.children.byId.map Prod.fst := by
    intro member
    have present := sound.known id member
    rw [fresh] at present
    cases present
  refine ⟨insert_shaped sound.shaped absent _, fun other member => ?_, waits, ?_, exact_, calm⟩
  · have rows : other = id ∨ other ∈ run.sup.children.byId.map Prod.fst := by
      obtain ⟨row, inserted, rfl⟩ := mem_map.mp member
      exact (Assoc.mem_insert.mp inserted).imp (congrArg Prod.fst) fun old => mem_map_of_mem old.1
    change ((Function.update run.stages id (some .running)) other).isSome
    rcases rows with rfl | old
    · simp
    · by_cases same : other = id
      · simp [same]
      · simpa [same] using sound.known other old
  · have live := insert_live absent ⟨spec, !run.nameFree spec⟩
    change ((run.sup.children.insert id ⟨spec, !run.nameFree spec⟩).live ++ pendingWave (run.setPhase phase).sup ++
      pendingOne phase).Subperm starts
    rw [live]
    cases free : run.nameFree spec <;> simpa [free] using covered

theorem sound_start_child (sound : Sound run) (spec : ChildSpec) (started : run.next (.startChild id spec) = some after) :
    Sound after := by
  cases fresh : (run.stages id).isSome with
  | true => simp [next, fresh] at started
  | false =>
    simp only [next, fresh, Bool.false_eq_true, if_false] at started
    have same : run.setPhase run.sup.phase = run := rfl
    cases free : run.nameFree spec with
    | true =>
      simp only [free, if_true, Option.some.injEq] at started
      subst started
      refine sound_spawn sound fresh spec run.sup.phase (spec :: run.starts) run.waves sound.waits ?_ sound.exact_ sound.calm
      rw [free, if_pos rfl, same]
      exact (subperm_cons spec).mpr sound.covered
    | false =>
      simp only [free, Bool.false_eq_true, if_false, Option.some.injEq] at started
      subst started
      refine sound_spawn sound fresh spec run.sup.phase run.starts run.waves sound.waits ?_ sound.exact_ sound.calm
      rw [free, if_neg Bool.false_ne_true, same]
      exact sound.covered

theorem sound_drive (sound : Sound run) (sup : Supervisor) (shaped : sup.children.Shaped)
    (keys : ∀ id ∈ sup.children.byId.map Prod.fst, id ∈ run.sup.children.byId.map Prod.fst)
    (waits : sup.cascade.isSome → sup.phase = .idle ∨ sup.phase = .pruning) (pending : pendingWave sup = pendingWave run.sup)
    (covered : (sup.children.live ++ pendingOne sup.phase).Subperm (run.sup.children.live ++ pendingOne run.sup.phase))
    (calm : pendingWave sup ≠ [] → sup.intensityExceeded = false) : Sound { run with sup := sup } where
  shaped := shaped
  known id member := sound.known id (keys id member)
  waits := waits
  covered := by
    have swap : ∀ live wave one : List ChildSpec, (live ++ wave ++ one).Perm (wave ++ (live ++ one)) := fun live wave one => by
      rw [← append_assoc]
      exact perm_append_comm.append_right one
    refine List.Subperm.trans ?_ sound.covered
    change (sup.children.live ++ pendingWave sup ++ pendingOne sup.phase).Subperm _
    rw [pending]
    refine (swap _ _ _).subperm.trans (List.Subperm.trans ?_ (swap _ _ _).symm.subperm)
    exact (subperm_append_left _).mpr covered
  exact_ := exact_same sound.exact_ rfl pending
  calm := calm

theorem cascade_none (sound : Sound run) (notIdle : run.sup.phase ≠ .idle) (notPruning : run.sup.phase ≠ .pruning) :
    run.sup.cascade = none := by
  cases cascade : run.sup.cascade with
  | none => rfl
  | some _ => exact absurd (sound.waits (by rw [cascade]; rfl)) (by simp [notIdle, notPruning])

theorem pending_phase (alone : run.sup.cascade = none) (phase : DrivePhase) :
    pendingWave (run.setPhase phase).sup = match phase with
      | .respawnWave specs => specs
      | _ => [] := by
  rw [setPhase, pendingWave, alone]
  cases phase <;> rfl

theorem sound_respawn_one (sound : Sound run) (fresh : (run.stages id).isSome = false) {spec : ChildSpec}
    (phase : run.sup.phase = .respawnOne spec) (free : run.nameFree spec = true) :
    Sound ((run.setPhase .idle).spawnChild id spec) := by
  have alone := cascade_none sound (by simp [phase]) (by simp [phase])
  have before : pendingWave run.sup = [] := by rw [pendingWave, alone, phase]
  have covered := sound.covered
  rw [before, append_nil, phase] at covered
  refine sound_spawn sound fresh spec .idle run.starts run.waves (fun _ => Or.inl rfl) ?_ ?_ ?_
  · rw [free, if_pos rfl, pending_phase alone]
    simpa [pendingOne] using (perm_append_singleton spec _).symm.subperm.trans covered
  · exact exact_same sound.exact_ rfl ((pending_phase alone .idle).trans before.symm)
  · rw [pending_phase alone]
    exact fun some_ => absurd rfl some_

theorem sound_respawn_wave (sound : Sound run) (fresh : (run.stages id).isSome = false) {spec : ChildSpec}
    {rest : List ChildSpec} (phase : run.sup.phase = .respawnWave (spec :: rest)) (free : run.nameFree spec = true) :
    Sound (((run.setPhase (.respawnWave rest)).spawnChild id spec).recordRespawn spec) := by
  have alone := cascade_none sound (by simp [phase]) (by simp [phase])
  have before : pendingWave run.sup = spec :: rest := by rw [pendingWave, alone, phase]
  have exact_ := sound.exact_
  rw [WavesExact, before] at exact_
  cases waves : run.waves with
  | nil => simp [waves] at exact_
  | cons wave old =>
    rw [waves] at exact_
    have covered := sound.covered
    rw [before, phase] at covered
    have recorded : ((run.setPhase (.respawnWave rest)).spawnChild id spec).recordRespawn spec =
        { (run.setPhase (.respawnWave rest)).spawnChild id spec with
          starts := run.starts, waves := { wave with respawned := wave.respawned ++ [spec] } :: old } := by
      simp only [recordRespawn, spawnChild, setPhase, waves]
    rw [recorded]
    refine sound_spawn sound fresh spec (.respawnWave rest) _ _ (by simp [alone]) ?_ ?_ ?_
    · rw [free, if_pos rfl, pending_phase alone]
      have first := (@perm_middle _ spec run.sup.children.live rest).symm.subperm
      simpa [pendingOne] using first.trans (by simpa [pendingOne] using covered)
    · refine ⟨?_, exact_.2⟩
      change wave.respawned ++ [spec] ++ pendingWave (run.setPhase (.respawnWave rest)).sup = wave.due
      rw [pending_phase alone, append_assoc]
      exact exact_.1
    · exact fun _ => sound.calm (by simp [before])

theorem sound_respawn (sound : Sound run) (fits : run.respawnFits (.respawn id) = true)
    (taken : run.next (.respawn id) = some after) : Sound after := by
  cases fresh : (run.stages id).isSome with
  | true => simp [next, fresh] at taken
  | false =>
    simp only [next, fresh, Bool.false_eq_true, if_false, respawn] at taken
    cases phase : run.sup.phase with
    | idle | pruning => simp [phase] at taken
    | respawnOne spec =>
      simp only [respawnFits, phase] at fits
      simp only [phase, Option.some.injEq] at taken
      exact taken ▸ sound_respawn_one sound fresh phase fits
    | respawnWave specs =>
      cases specs with
      | nil =>
        simp only [phase, Option.some.injEq] at taken
        subst taken
        have alone := cascade_none sound (by simp [phase]) (by simp [phase])
        have before : pendingWave run.sup = [] := by rw [pendingWave, alone, phase]
        refine sound_drive sound _ sound.shaped (fun _ member => member) (fun _ => Or.inl rfl)
          ((pending_phase alone .idle).trans before.symm) (by rw [phase]; exact List.Subperm.refl _) ?_
        exact fun some_ => absurd (pending_phase alone .idle) some_
      | cons spec rest =>
        simp only [respawnFits, phase] at fits
        have alone := cascade_none sound (by simp [phase]) (by simp [phase])
        have calm := sound.calm (by simp [pendingWave, alone, phase])
        simp only [phase, calm, Bool.false_eq_true, if_false, Option.some.injEq] at taken
        exact taken ▸ sound_respawn_wave sound fresh phase fits

structure Progress (sup after : Supervisor) : Prop where
  pending : pendingWave after = pendingWave sup
  one : pendingOne after.phase = []
  children : after.children = sup.children
  waits : after.cascade.isSome → after.phase = .idle ∨ after.phase = .pruning
  exceeded : after.intensityExceeded = sup.intensityExceeded

theorem finish_progress {sup : Supervisor} (drives : sup.phase = .idle ∨ sup.phase = .pruning) :
    Progress sup sup.finishCascade := by
  rw [Supervisor.finishCascade]
  cases cascade : sup.cascade with
  | some cascade => exact ⟨by simp [pendingWave, cascade], rfl, rfl, nofun, rfl⟩
  | none =>
    refine ⟨?_, rfl, rfl, nofun, rfl⟩
    rcases drives with phase | phase <;> simp [pendingWave, cascade, phase]

theorem waiting_progress {sup : Supervisor} {cascade : Cascade} (active : sup.cascade = some cascade) (waiting : List FlowId) :
    Progress sup { sup with cascade := some { cascade with waiting := waiting }, phase := .idle } where
  pending := by simp [pendingWave, active]
  one := rfl
  children := rfl
  waits _ := Or.inl rfl
  exceeded := rfl

theorem progress_trans {first second third : Supervisor} (left : Progress first second) (right : Progress second third) :
    Progress first third where
  pending := right.pending.trans left.pending
  one := right.one
  children := right.children.trans left.children
  waits := right.waits
  exceeded := right.exceeded.trans left.exceeded

theorem prune_progress {sup : Supervisor} (pruning : sup.phase = .pruning) (alive : FlowId → Bool) :
    Progress sup (sup.pruneCascade alive) := by
  rw [Supervisor.pruneCascade]
  cases active : sup.cascade with
  | none => exact finish_progress (Or.inr pruning)
  | some cascade =>
    have waits := waiting_progress active (cascade.waiting.filter alive)
    dsimp only
    split
    · exact progress_trans waits (finish_progress (Or.inl rfl))
    · exact waits

theorem exit_progress {sup : Supervisor} (idle : sup.phase = .idle) (id : FlowId) : Progress sup (sup.onCascadeProgress id) := by
  rw [Supervisor.onCascadeProgress]
  cases active : sup.cascade with
  | none => exact ⟨rfl, by rw [idle]; rfl, rfl, by simp [active], rfl⟩
  | some cascade =>
    have waits := waiting_progress active (cascade.waiting.filter (· ≠ id))
    have same : { sup with cascade := some { cascade with waiting := cascade.waiting.filter (· ≠ id) }, phase := .idle } =
        { sup with cascade := some { cascade with waiting := cascade.waiting.filter (· ≠ id) } } := by rw [← idle]
    rw [same] at waits
    dsimp only
    split
    · exact progress_trans waits (finish_progress (Or.inl idle))
    · exact waits

theorem sound_progress (sound : Sound run) {sup : Supervisor} (progress : Progress run.sup sup) : Sound { run with sup := sup } := by
  refine sound_drive sound sup ?_ ?_ progress.waits progress.pending ?_ ?_
  · rw [progress.children]
    exact sound.shaped
  · rw [progress.children]
    exact fun _ member => member
  · rw [progress.children, progress.one, append_nil]
    exact (sublist_append_left _ _).subperm
  · rw [progress.pending, progress.exceeded]
    exact sound.calm

theorem removed_keys (table : ChildTable) (id : FlowId) :
    ∀ other ∈ (table.remove id).byId.map Prod.fst, other ∈ table.byId.map Prod.fst := by
  intro other member
  obtain ⟨row, kept, rfl⟩ := mem_map.mp member
  exact mem_map_of_mem (Assoc.mem_remove.mp kept).1

theorem pending_idle {sup : Supervisor} (idle : sup.phase = .idle) (alone : sup.cascade = none) : pendingWave sup = [] := by
  rw [pendingWave, alone, idle]

theorem wave_moves (sound : Sound run) (found : run.sup.children.find id = some child)
    (free : child.expectedShutdown = false) {failedIdx : Nat} {front later : List FlowId}
    (placed : Placed run.sup id failedIdx front later)
    (victims : ∀ other ∈ run.sup.victims id, run.sup.isMarked other = false) :
    (((run.sup.children.remove id).expectShutdown (run.sup.victims id)).live ++ run.sup.dueAfter id).Perm
      run.sup.children.live := by
  have shaped := remove_shaped sound.shaped id
  have failed := remove_live_some sound.shaped found
  rw [free, if_neg Bool.false_ne_true] at failed
  have marked := expect_shutdown_live shaped (run.sup.victims id) ((victims_sublist _ id).nodup shaped.order)
    fun other member => by
      obtain ⟨victim, removed, here⟩ := victims_found sound.shaped member
      have clear := victims other member
      rw [Supervisor.isMarked, here, Option.any_some] at clear
      exact ⟨victim, removed, clear⟩
  have specs : (run.sup.children.remove id).specsOf (run.sup.victims id) =
      run.sup.children.specsOf front ++ run.sup.children.specsOf later := by
    rw [placed.victims, specs_of_removed _ placed.apart, specs_of_append]
  rw [specs] at marked
  rw [placed_due placed found free victims]
  refine ((perm_middle.append_left _).trans perm_middle).trans ?_
  exact (marked.symm.cons child.spec).trans failed.symm

theorem sound_wave (sound : Sound run) (idle : run.sup.phase = .idle) (alone : run.sup.cascade = none)
    (calm : run.sup.intensityExceeded = false) (found : run.sup.children.find id = some child)
    (free : child.expectedShutdown = false) {failedIdx : Nat} {front later : List FlowId}
    (placed : Placed run.sup id failedIdx front later)
    (victims : ∀ other ∈ run.sup.victims id, run.sup.isMarked other = false) (times : List Nat) :
    Sound { run with
      sup := { run.sup with
        restartTimes := times, phase := .pruning
        children := (run.sup.children.remove id).expectShutdown (run.sup.victims id)
        cascade := some ⟨run.sup.victims id, run.sup.dueAfter id⟩ }
      waves := ⟨run.sup.dueAfter id, []⟩ :: run.waves } := by
  have shaped := remove_shaped sound.shaped id
  have before := pending_idle idle alone
  have covered := sound.covered
  have exact_ := sound.exact_
  rw [before, idle] at covered
  rw [WavesExact, before] at exact_
  refine ⟨expect_shutdown_shaped shaped _, fun other member => ?_, fun _ => Or.inr rfl, ?_, ⟨rfl, ?_⟩, fun _ => calm⟩
  · rw [expect_shutdown_keys] at member
    exact sound.known other (removed_keys _ id other member)
  · have moved := (wave_moves sound found free placed victims).subperm
    simpa [pendingWave, pendingOne] using moved.trans (by simpa [pendingOne] using covered)
  · cases waves : run.waves with
    | nil => exact nofun
    | cons wave old =>
      simp only [waves, append_nil] at exact_
      exact forall_mem_cons.mpr exact_

theorem progress_cascade (sup : Supervisor) (id : FlowId) (active : (sup.onCascadeProgress id).cascade.isSome) :
    sup.cascade.isSome := by
  cases cascade : sup.cascade with
  | some _ => rfl
  | none => simp [Supervisor.onCascadeProgress, cascade] at active

theorem removed_covered (sound : Sound run) (found : run.sup.children.find id = some child)
    (free : child.expectedShutdown = false) :
    (child.spec :: (run.sup.children.remove id).live).Perm run.sup.children.live := by
  have failed := remove_live_some sound.shaped found
  rw [free, if_neg Bool.false_ne_true] at failed
  exact failed.symm

theorem sound_handled (sound : Sound run) (idle : run.sup.phase = .idle) {exit : ChildExit} {now : Nat} {result : Supervisor}
    (handled : run.sup.Handled exit now result)
    (orderly : run.sup.restarts exit = true → if run.sup.cascade.isSome then run.sup.overLimit now = false
      else run.sup.overLimit now = true ∨ run.sup.strategy = .oneForOne ∨
        ∀ other ∈ run.sup.victims exit.id, run.sup.isMarked other = false) :
    Sound { run with
      sup := result
      waves := if run.sup.cascade.isNone && result.cascade.isSome then ⟨run.sup.dueAfter exit.id, []⟩ :: run.waves
        else run.waves } := by
  have shaped := remove_shaped sound.shaped exit.id
  have keys := removed_keys run.sup.children exit.id
  have unwaved : (result.cascade.isSome → run.sup.cascade.isSome) →
      (if run.sup.cascade.isNone && result.cascade.isSome then ⟨run.sup.dueAfter exit.id, []⟩ :: run.waves else run.waves) =
        run.waves := by
    intro kept
    refine if_neg fun both => ?_
    obtain ⟨none_, some_⟩ := (Bool.and_eq_true _ _).mp both
    rw [Option.isNone_iff_eq_none.mp none_] at kept
    exact Bool.false_ne_true (kept some_)
  cases handled with
  | unknown missing =>
    rw [unwaved id]
    refine sound_drive sound _ shaped keys (fun _ => Or.inl idle) rfl ?_ sound.calm
    rw [remove_live_none missing]
  | expected child found marked =>
    have same := remove_live_some sound.shaped found
    rw [marked, if_pos rfl] at same
    rw [unwaved (progress_cascade { run.sup with children := run.sup.children.remove exit.id } exit.id)]
    have removed : Sound { run with sup := { run.sup with children := run.sup.children.remove exit.id } } :=
      sound_drive sound _ shaped keys (fun _ => Or.inl idle) rfl (same.symm.append_right _).subperm sound.calm
    refine sound_progress removed (exit_progress ?_ exit.id)
    exact idle
  | left child found free times exceeded counted =>
    rw [unwaved id]
    refine sound_drive sound _ shaped keys (fun _ => Or.inl idle) rfl ?_ fun pending => ?_
    · have fewer := (sublist_cons_self child.spec _).subperm.trans (removed_covered sound found free).subperm
      exact (subperm_append_right _).mpr fewer
    · have active := Option.isSome_iff_ne_none.mpr fun alone => pending (pending_idle idle alone)
      rcases counted with ⟨_, rfl⟩ | ⟨due, _, rfl⟩
      · exact sound.calm pending
      · simpa only [active, if_true] using orderly due
  | one child found free alone due under =>
    rw [unwaved id]
    refine sound_drive sound _ shaped keys (by simp [alone]) ?_ ?_ ?_
    · rw [pending_idle idle alone, pendingWave, alone]
    · rw [idle]
      simpa [pendingOne] using (perm_append_singleton child.spec _).subperm.trans (removed_covered sound found free).subperm
    · rw [pendingWave, alone]
      exact fun pending => absurd rfl pending
  | wave child found free alone due under strategy failedIdx position =>
    obtain ⟨front, later, placed⟩ := wave_placed sound.shaped found strategy position
    have clear : ∀ other ∈ run.sup.victims exit.id, run.sup.isMarked other = false := by
      simpa [alone, under, strategy] using orderly due
    rw [Supervisor.startCascade, wave_specs_placed sound.shaped placed, if_pos (by rw [alone]; rfl),
      ← placed_due placed found free clear]
    exact sound_wave sound idle alone (Supervisor.restarts_calm due) found free placed clear _

theorem sound_take_exit (sound : Sound run) {now : Nat} (orderly : run.orderly (.takeExit now) = true)
    (taken : run.next (.takeExit now) = some after) : Sound after := by
  cases phase : run.sup.phase with
  | idle =>
    cases events : run.sup.events with
    | nil => simp [next, phase, events] at taken
    | cons exit rest =>
      simp only [next, phase, events, Option.some.injEq] at taken
      simp only [SupervisorRun.orderly, events] at orderly
      subst taken
      have popped : Sound { run with sup := { run.sup with events := rest } } :=
        sound_stage sound (fun _ known => known) rest rfl rfl rfl
      refine sound_handled popped phase (Supervisor.handle_exit_handled { run.sup with events := rest } exit now) ?_
      show run.sup.restarts exit = true → if run.sup.cascade.isSome then run.sup.overLimit now = false
        else run.sup.overLimit now = true ∨ run.sup.strategy = .oneForOne ∨
          ∀ other ∈ run.sup.victims exit.id, run.sup.isMarked other = false
      intro due
      by_cases active : run.sup.cascade.isSome = true
      · simpa [due, active] using orderly
      · simpa [due, active, or_assoc] using orderly
  | _ => simp [next, phase] at taken

theorem sound_next (sound : Sound run) (event : WaveEvent) (fits : run.respawnFits event = true)
    (orderly : run.orderly event = true) (taken : run.next event = some after) : Sound after := by
  cases event with
  | startChild id spec => exact sound_start_child sound spec taken
  | takeExit now => exact sound_take_exit sound orderly taken
  | respawn id => exact sound_respawn sound fits taken
  | prune =>
    simp only [next] at taken
    split at taken
    · rename_i pruning
      cases taken
      exact sound_progress sound (prune_progress pruning run.isListed)
    · cases taken
  | exit _ _ _ | unregister _ | releaseName _ | notify _ =>
    simp only [next] at taken
    split at taken
    · cases taken
      exact sound_stage sound (set_stage_some run _ _) _ rfl rfl rfl
    · cases taken
  | kill id restart =>
    simp only [next] at taken
    split at taken
    · split at taken
      · cases taken
        exact sound_stage sound (set_stage_some run id _) _ rfl rfl rfl
      · cases taken
    · cases taken

theorem incarnations_live (run : SupervisorRun) : run.incarnations.Sublist run.sup.children.live := by
  rw [incarnations, ChildTable.live]
  induction run.sup.children.byId with
  | nil => exact List.Sublist.refl _
  | cons row rest ih =>
    rw [filterMap_cons, filterMap_cons]
    cases marked : row.2.expectedShutdown with
    | true => simpa [marked] using ih
    | false =>
      cases runs : (run.stages row.1).any ChildStage.isRunning with
      | true => simpa [marked, runs] using ih
      | false => simpa [marked, runs] using ih.cons row.2.spec

end Steps

theorem supervised_once (chunk : Chunk) (strategy : RestartStrategy) (maxRestarts maxPeriod : Nat) (run : SupervisorRun)
    (reached : Reach next (fun run event => run.respawnFits event = true ∧ run.orderly event = true)
      (initial chunk strategy maxRestarts maxPeriod) run) :
    (∀ [DecidableEq ChildSpec] (spec : ChildSpec), run.incarnations.count spec ≤ run.starts.count spec) ∧ WavesExact run := by
  have sound : Sound run := by
    refine reach_invariant (initial_sound chunk strategy maxRestarts maxPeriod) ?_ reached
    exact fun before event after sound allowed taken => sound_next sound event allowed.1 allowed.2 taken
  refine ⟨fun spec => ?_, sound.exact_⟩
  have fewer : run.incarnations.Subperm run.starts := by
    refine (incarnations_live run).subperm.trans (List.Subperm.trans ?_ sound.covered)
    rw [append_assoc]
    exact (sublist_append_left _ _).subperm
  exact fewer.count_le spec

def trapTwice : Chunk :=
  ⟨"trap", [], [⟨.trap, 0, 0, 0, 1⟩, ⟨.trap, 0, 0, 0, 2⟩], [⟨"first", 0, 0, 1⟩, ⟨"second", 1, 0, 1⟩]⟩

def firstSpec : ChildSpec := ⟨"", 0, [], .onFailure, none⟩

def secondSpec : ChildSpec := ⟨"", 1, [], .onFailure, none⟩

def supervisedPair : SupervisorRun := initial trapTwice .oneForAll 3 5000

def waveEvents : List WaveEvent :=
  [.startChild 1 firstSpec, .startChild 2 secondSpec,
    .exit 1 (.failed "boom") .onFailure, .unregister 1, .releaseName 1, .notify 1, .takeExit 0,
    .exit 2 (.failed "exit (supervisor)") .onFailure, .unregister 2, .prune, .respawn 3, .respawn 4, .respawn 5]

def afterWave : SupervisorRun := (play next supervisedPair waveEvents).getD supervisedPair

theorem wave_restarts_pair :
    Reach next (fun run event => run.respawnFits event = true ∧ run.orderly event = true) supervisedPair afterWave ∧
      afterWave.incarnations = [secondSpec, firstSpec] ∧
      (∀ [DecidableEq ChildSpec] (spec : ChildSpec), afterWave.incarnations.count spec ≤ afterWave.starts.count spec) ∧
        WavesExact afterWave := by
  have reached : Reach next (fun run event => run.respawnFits event = true ∧ run.orderly event = true)
      supervisedPair afterWave := reach_of_play waveEvents supervisedPair (by decide) rfl
  exact ⟨reached, rfl, supervised_once trapTwice .oneForAll 3 5000 afterWave reached⟩

-- The new first child fails before the old second one has told the
-- supervisor: its row is still in the table when the second wave starts.
def staleEvents : List WaveEvent :=
  waveEvents ++ ([.exit 3 (.failed "boom") .onFailure, .unregister 3, .releaseName 3, .notify 3, .takeExit 1,
    .kill 4 .onFailure, .prune, .respawn 5, .respawn 6, .respawn 7] : List WaveEvent)

theorem stale_row_restarts_twice : ∃ run, Reach next (fun run event => run.respawnFits event = true) supervisedPair run ∧
    run.starts = [secondSpec, firstSpec] ∧ run.incarnations = [secondSpec, firstSpec, secondSpec] ∧
      (∀ [DecidableEq ChildSpec], run.starts.count secondSpec < run.incarnations.count secondSpec) ∧ ¬ WavesExact run := by
  refine ⟨(play next supervisedPair staleEvents).getD supervisedPair,
    reach_of_play staleEvents supervisedPair (by decide) rfl, rfl, rfl, ?_, ?_⟩
  · intro _
    have differ : firstSpec ≠ secondSpec := fun same => absurd (congrArg ChildSpec.function same) (by decide)
    change List.count secondSpec [secondSpec, firstSpec] < List.count secondSpec [secondSpec, firstSpec, secondSpec]
    simp [differ]
  · intro exact_
    exact absurd (congrArg List.length exact_.1) (by decide)

end SupervisorRun

end Byteflow
