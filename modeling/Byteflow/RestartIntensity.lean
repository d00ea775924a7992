import Byteflow.SupervisorWaves

namespace Byteflow

open List Function Transition

-- A supervisor with the clock of its drive thread and, newest first, the
-- times at which it began a restart wave.
structure TimedRun where
  run : SupervisorRun
  clock : Nat
  begun : List Nat

-- handle_exit begins a wave when it leaves the drive thread with one child to
-- start again, or with victims to look after.
def DrivePhase.begins : DrivePhase → Bool
  | .respawnOne _ | .pruning => true
  | _ => false

namespace Supervisor

def window (sup : Supervisor) : List Nat × Bool × Nat × Nat :=
  (sup.restartTimes, sup.intensityExceeded, sup.maxRestarts, sup.maxPeriod)

@[simp] theorem window_finish (sup : Supervisor) : sup.finishCascade.window = sup.window := by
  rw [finishCascade]
  split <;> rfl

@[simp] theorem window_progress (sup : Supervisor) (id : FlowId) : (sup.onCascadeProgress id).window = sup.window := by
  rw [onCascadeProgress]
  split
  · rfl
  · dsimp only
    split
    · exact window_finish _
    · rfl

@[simp] theorem window_prune (sup : Supervisor) (alive : FlowId → Bool) : (sup.pruneCascade alive).window = sup.window := by
  rw [pruneCascade]
  split
  · exact window_finish _
  · dsimp only
    split
    · exact window_finish _
    · rfl

theorem start_window (sup : Supervisor) (failed : ChildSpec) (failedIdx : Nat) (later : List FlowId) :
    (sup.startCascade failed failedIdx later).window = sup.window := by
  rw [startCascade]
  dsimp only
  split <;> rfl

theorem progress_begins_nothing (sup : Supervisor) (idle : sup.phase = .idle) (id : FlowId) :
    (sup.onCascadeProgress id).phase.begins = false := by
  rw [onCascadeProgress]
  split
  · rw [idle]
    rfl
  · dsimp only
    split
    · rfl
    · rw [idle]
      rfl

-- An exit leaves the window alone and begins no wave, or it puts its mark in
-- the window and begins a wave only below the limit.
def Counts (sup after : Supervisor) (now : Nat) : Prop :=
  after.window = sup.window ∧ after.phase.begins = false ∨
    sup.intensityExceeded = false ∧
      ∃ times, times = pruneRestartWindow (sup.restartTimes ++ [now]) now sup.maxPeriod ∧
        (after.window = (times, true, sup.maxRestarts, sup.maxPeriod) ∧ after.phase.begins = false ∨
          after.window = (times, false, sup.maxRestarts, sup.maxPeriod) ∧ times.length % 2 ^ 32 ≤ sup.maxRestarts)

theorem handle_exit_counts (sup : Supervisor) (idle : sup.phase = .idle) (exit : ChildExit) (now : Nat) :
    Counts sup (sup.handleExit exit now) now := by
  have quiet : sup.phase.begins = false := by rw [idle]; rfl
  have handled := handle_exit_handled sup exit now
  generalize sup.handleExit exit now = result at handled
  have below : sup.overLimit now = false →
      (pruneRestartWindow (sup.restartTimes ++ [now]) now sup.maxPeriod).length % 2 ^ 32 ≤ sup.maxRestarts :=
    fun under => Nat.le_of_not_lt (of_decide_eq_false under)
  cases handled with
  | unknown => exact .inl ⟨rfl, quiet⟩
  | expected => exact .inl ⟨window_progress _ _, progress_begins_nothing _ (by exact idle) _⟩
  | left _ _ _ times exceeded counted =>
    rcases counted with ⟨rfl, rfl⟩ | ⟨due, rfl, rfl⟩
    · exact .inl ⟨rfl, quiet⟩
    · refine .inr ⟨restarts_calm due, _, rfl, ?_⟩
      cases limit : sup.overLimit now with
      | true => exact .inl ⟨rfl, quiet⟩
      | false => exact .inr ⟨rfl, below limit⟩
  | one _ _ _ _ due under =>
    refine .inr ⟨restarts_calm due, _, rfl, .inr ⟨?_, below under⟩⟩
    rw [← restarts_calm due]
    rfl
  | wave _ _ _ _ due under =>
    refine .inr ⟨restarts_calm due, _, rfl, .inr ⟨?_, below under⟩⟩
    rw [start_window, ← restarts_calm due]
    rfl

end Supervisor

namespace TimedRun

open Supervisor (pruneRestartWindow Counts handle_exit_counts)

def initial (chunk : Chunk) (strategy : RestartStrategy) (maxRestarts maxPeriod : Nat) : TimedRun :=
  ⟨.initial chunk strategy maxRestarts maxPeriod, 0, []⟩

-- The clock never goes back. An exit is taken by an idle drive thread.
def next (timed : TimedRun) : WaveEvent → Option TimedRun
  | .takeExit now =>
    if now < timed.clock then none
    else (timed.run.next (.takeExit now)).map fun after =>
      ⟨after, now, if after.sup.phase.begins then now :: timed.begun else timed.begun⟩
  | event => (timed.run.next event).map fun after => { timed with run := after }

def wavesWithin (timed : TimedRun) (start period : Nat) : Nat :=
  timed.begun.countP fun time => start ≤ time ∧ time ≤ start + period

theorem next_window {run after : SupervisorRun} {event : WaveEvent} (other : ∀ now, event ≠ .takeExit now)
    (taken : run.next event = some after) : after.sup.window = run.sup.window := by
  cases event with
  | takeExit now => exact absurd rfl (other now)
  | startChild id spec =>
    simp only [SupervisorRun.next] at taken
    split at taken
    · cases taken
    split at taken <;> cases taken <;> rfl
  | exit _ _ _ | unregister _ | releaseName _ | notify _ =>
    simp only [SupervisorRun.next] at taken
    split at taken <;> cases taken
    rfl
  | kill id restart =>
    simp only [SupervisorRun.next] at taken
    split at taken
    · split at taken <;> cases taken
      rfl
    · cases taken
  | prune =>
    simp only [SupervisorRun.next] at taken
    split at taken <;> cases taken
    exact Supervisor.window_prune _ _
  | respawn id =>
    simp only [SupervisorRun.next, SupervisorRun.respawn] at taken
    split at taken
    · cases taken
    split at taken
    · cases taken
      rfl
    · cases taken
      rfl
    · split at taken <;> cases taken
      · rfl
      · rw [SupervisorRun.recordRespawn]
        split <;> rfl
    · cases taken

theorem take_exit_counts {run after : SupervisorRun} {now : Nat} (taken : run.next (.takeExit now) = some after) :
    Counts run.sup after.sup now := by
  simp only [SupervisorRun.next] at taken
  split at taken <;> cases taken
  rename_i exit rest idle queued
  exact handle_exit_counts { run.sup with events := rest } idle exit now

-- Marks that fall out of the window are older than every interval that still counts.
theorem prune_count (times : List Nat) {now period start : Nat} (counts : now ≤ start + period) :
    (pruneRestartWindow times now period).countP (start ≤ ·) = times.countP (start ≤ ·) := by
  rw [pruneRestartWindow]
  split
  · induction times with
    | nil => rfl
    | cons time rest ih =>
      by_cases old : time < now - period
      · have before : ¬ start ≤ time := by omega
        rw [dropWhile_cons_of_pos (by simpa using old), ih, countP_cons_of_neg (by simpa using before)]
      · rw [dropWhile_cons_of_neg (by simpa using old)]
  · rfl

theorem prune_length (times : List Nat) (now period : Nat) : (pruneRestartWindow times now period).length ≤ times.length := by
  rw [pruneRestartWindow]
  split
  · exact (dropWhile_sublist _).length_le
  · exact le_rfl

structure Kept (limit period : Nat) (timed : TimedRun) : Prop where
  restarts : timed.run.sup.maxRestarts = limit
  span : timed.run.sup.maxPeriod = period
  short : timed.run.sup.intensityExceeded = false → timed.run.sup.restartTimes.length ≤ limit
  retained : ∀ start, timed.clock ≤ start + period →
    timed.begun.countP (start ≤ ·) ≤ timed.run.sup.restartTimes.countP (start ≤ ·)
  bounded : ∀ start, timed.wavesWithin start period ≤ limit

section Steps

variable {limit period : Nat} {timed after : TimedRun} {event : WaveEvent}

theorem kept_window (kept : Kept limit period timed) (window : after.run.sup.window = timed.run.sup.window)
    (clock : timed.clock ≤ after.clock) (begun : after.begun = timed.begun) : Kept limit period after := by
  simp only [Supervisor.window, Prod.mk.injEq] at window
  obtain ⟨times, exceeded, restarts, span⟩ := window
  constructor
  · rw [restarts, kept.restarts]
  · rw [span, kept.span]
  · rw [exceeded, times]
    exact kept.short
  · intro start counts
    rw [begun, times]
    exact kept.retained start (by omega)
  · intro start
    rw [wavesWithin, begun]
    exact kept.bounded start

theorem kept_mark (kept : Kept limit period timed) (small : limit < 2 ^ 32 - 1) {now : Nat} (forward : timed.clock ≤ now)
    (clock : after.clock = now) (calm : timed.run.sup.intensityExceeded = false) {times : List Nat} {stops : Bool}
    (pruned : times = pruneRestartWindow (timed.run.sup.restartTimes ++ [now]) now timed.run.sup.maxPeriod)
    (window : after.run.sup.window = (times, stops, timed.run.sup.maxRestarts, timed.run.sup.maxPeriod))
    (fits : stops = false → times.length % 2 ^ 32 ≤ limit)
    (begun : after.begun = if after.run.sup.phase.begins then now :: timed.begun else timed.begun)
    (ends : stops = true → after.run.sup.phase.begins = false) : Kept limit period after := by
  simp only [Supervisor.window, Prod.mk.injEq] at window
  obtain ⟨marks, exceeded, restarts, span⟩ := window
  rw [kept.span] at pruned
  have grown : times.length ≤ limit + 1 := by
    have old := kept.short calm
    have shorter := prune_length (timed.run.sup.restartTimes ++ [now]) now period
    rw [← pruned, length_append] at shorter
    simp only [length_singleton] at shorter
    omega
  have short : stops = false → times.length ≤ limit := by
    intro calmAfter
    have cast := fits calmAfter
    omega
  have retained : ∀ start, now ≤ start + period → after.begun.countP (start ≤ ·) ≤ times.countP (start ≤ ·) := by
    intro start counts
    have old := kept.retained start (by omega)
    rw [begun, pruned, prune_count _ counts, countP_append]
    split
    · rw [countP_cons, countP_singleton]
      exact Nat.add_le_add_right old _
    · exact Nat.le_add_right_of_le old
  constructor
  · exact restarts.trans kept.restarts
  · exact span.trans kept.span
  · intro calmAfter
    rw [marks]
    exact short (exceeded.symm.trans calmAfter)
  · intro start counts
    rw [marks]
    exact retained start (clock ▸ counts)
  · intro start
    by_cases inside : after.run.sup.phase.begins = true ∧ now ≤ start + period
    · have calmAfter : stops = false := by
        cases stops with
        | false => rfl
        | true => exact absurd (inside.1.symm.trans (ends rfl)) (by decide)
      calc
        after.wavesWithin start period ≤ after.begun.countP (start ≤ ·) := by
          apply countP_mono_left
          intro time _ within
          simp only [decide_eq_true_eq] at within ⊢
          exact within.1
        _ ≤ times.countP (start ≤ ·) := retained start inside.2
        _ ≤ times.length := countP_le_length
        _ ≤ limit := short calmAfter
    · have same : after.wavesWithin start period = timed.wavesWithin start period := by
        rw [wavesWithin, begun, wavesWithin]
        split
        · rename_i begins
          apply countP_cons_of_neg
          simp only [decide_eq_true_eq]
          exact fun within => inside ⟨begins, within.2⟩
        · rfl
      rw [same]
      exact kept.bounded start

theorem next_moves (taken : timed.next event = some after) :
    (∃ now, timed.clock ≤ now ∧ after.clock = now ∧ Counts timed.run.sup after.run.sup now ∧
      after.begun = if after.run.sup.phase.begins then now :: timed.begun else timed.begun) ∨
    after.run.sup.window = timed.run.sup.window ∧ after.clock = timed.clock ∧ after.begun = timed.begun := by
  by_cases exits : ∃ now, event = .takeExit now
  · obtain ⟨now, rfl⟩ := exits
    simp only [next] at taken
    split at taken
    · cases taken
    rename_i forward
    obtain ⟨run, moved, rfl⟩ := Option.map_eq_some_iff.mp taken
    exact .inl ⟨now, Nat.le_of_not_lt forward, rfl, take_exit_counts moved, rfl⟩
  · have other : ∀ now, event ≠ .takeExit now := fun now same => exits ⟨now, same⟩
    have plain : timed.next event = (timed.run.next event).map fun after => { timed with run := after } := by
      cases event with
      | takeExit now => exact absurd rfl (other now)
      | _ => rfl
    rw [plain] at taken
    obtain ⟨run, moved, rfl⟩ := Option.map_eq_some_iff.mp taken
    exact .inr ⟨next_window other moved, rfl, rfl⟩

theorem kept_next (kept : Kept limit period timed) (small : limit < 2 ^ 32 - 1)
    (taken : timed.next event = some after) : Kept limit period after := by
  rcases next_moves taken with ⟨now, forward, clock, moves, begun⟩ | ⟨window, clock, begun⟩
  · rcases moves with ⟨window, quiet⟩ | ⟨calm, times, pruned, ⟨window, quiet⟩ | ⟨window, fits⟩⟩
    · rw [quiet, if_neg Bool.false_ne_true] at begun
      exact kept_window kept window (clock ▸ forward) begun
    · exact kept_mark kept small forward clock calm pruned window (by simp) begun fun _ => quiet
    · rw [kept.restarts] at fits
      exact kept_mark kept small forward clock calm pruned window (fun _ => fits) begun (by simp)
  · exact kept_window kept window clock.ge begun

theorem exceeded_next (exceeded : timed.run.sup.intensityExceeded = true)
    (taken : timed.next event = some after) : after.run.sup.intensityExceeded = true ∧ after.begun = timed.begun := by
  rcases next_moves taken with ⟨now, _, _, moves, begun⟩ | ⟨window, _, begun⟩
  · rcases moves with ⟨window, quiet⟩ | ⟨calm, _⟩
    · rw [quiet, if_neg Bool.false_ne_true] at begun
      exact ⟨(congrArg (·.2.1) window).trans exceeded, begun⟩
    · rw [exceeded] at calm
      cases calm
  · exact ⟨(congrArg (·.2.1) window).trans exceeded, begun⟩

end Steps

def endlessChild : ChildSpec := ⟨"", 0, [], .always, none⟩

def endless (chunk : Chunk) (period : Nat) (id : FlowId) (count : Nat) : Supervisor :=
  { Supervisor.withConfig chunk .oneForOne (2 ^ 32 - 1) period with
    children := ⟨[(id, ⟨endlessChild, false⟩)], [id]⟩, restartTimes := List.range count }

theorem endless_restarts (chunk : Chunk) {period count : Nat} (within : count ≤ period) (id : FlowId) :
    (endless chunk period id count).handleExit ⟨id, .completed .unit, .always⟩ count =
      { endless chunk period id (count + 1) with children := .new, phase := .respawnOne endlessChild } := by
  have window : pruneRestartWindow (List.range count ++ [count]) count period = List.range (count + 1) := by
    rw [← List.range_succ, pruneRestartWindow, Nat.sub_eq_zero_of_le within]
    simp
  have below : ¬ (List.range (count + 1)).length % 2 ^ 32 > 2 ^ 32 - 1 := by
    apply Nat.not_lt_of_le
    exact Nat.le_sub_one_of_lt (Nat.mod_lt _ (by decide))
  simp only [Supervisor.handleExit, Supervisor.intensityHit, endless, Supervisor.withConfig, ChildTable.find, lookup_cons_self,
    window, below, if_false, Bool.false_eq_true]
  simp [ChildTable.remove, ChildTable.new, Supervisor.shouldRestart]

-- The only child of a supervisor that restarts it whenever it ends, after
-- count waves, one in each millisecond.
structure Turning (chunk : Chunk) (period count : Nat) (timed : TimedRun) : Prop where
  sup : timed.run.sup = endless chunk period (UInt64.ofNat count) count
  running : timed.run.stages (UInt64.ofNat count) = some .running
  fresh : ∀ later, count < later → later < 2 ^ 64 → timed.run.stages (UInt64.ofNat later) = none
  names : timed.run.names = []
  clock : timed.clock = count - 1
  begun : timed.begun = (List.range count).reverse

theorem of_nat_apart {count later : Nat} (above : count < later) (fits : later < 2 ^ 64) :
    UInt64.ofNat later ≠ UInt64.ofNat count := by
  intro same
  have equal := congrArg UInt64.toNat same
  rw [UInt64.toNat_ofNat_of_lt' fits, UInt64.toNat_ofNat_of_lt' (above.trans fits)] at equal
  exact above.ne' equal

theorem turning_start (chunk : Chunk) (period : Nat) :
    ∃ timed, Reach next (fun _ _ => True) (initial chunk .oneForOne (2 ^ 32 - 1) period) timed ∧ Turning chunk period 0 timed := by
  apply Exists.intro _
  apply And.intro (.step _ (.startChild 0 endlessChild) _ .here trivial rfl)
  constructor
  · rfl
  · rfl
  · intro later above fits
    exact update_of_ne (of_nat_apart above fits) _ _
  · rfl
  · rfl
  · rfl

theorem turning_again {chunk : Chunk} {period count : Nat} {timed : TimedRun} (fits : count + 1 < 2 ^ 64)
    (within : count ≤ period) (turning : Turning chunk period count timed) :
    ∃ after, Reach next (fun _ _ => True) timed after ∧ Turning chunk period (count + 1) after := by
  obtain ⟨⟨sup, stages, names, starts, waves⟩, clock, begun⟩ := timed
  obtain ⟨rfl, running, fresh, rfl, rfl, rfl⟩ := turning
  simp only at running fresh
  have unused := fresh (count + 1) (by omega) fits
  have other := of_nat_apart (Nat.lt_succ_self count) fits
  have restarts := endless_restarts chunk within (UInt64.ofNat count)
  have forward : ¬ count < count - 1 := by omega
  let ended := update stages (UInt64.ofNat count) (some .gone)
  have unlisted : update stages (UInt64.ofNat count) (some .gone) (UInt64.ofNat (count + 1)) = none :=
    (update_of_ne other _ _).trans unused
  let after : TimedRun := ⟨⟨endless chunk period (UInt64.ofNat (count + 1)) (count + 1),
    update ended (UInt64.ofNat (count + 1)) (some .running), [], starts, waves⟩, count, count :: (List.range count).reverse⟩
  apply Exists.intro after
  apply And.intro
  · apply reach_of_play [.exit (UInt64.ofNat count) (.completed .unit) .always, .unregister (UInt64.ofNat count),
      .releaseName (UInt64.ofNat count), .notify (UInt64.ofNat count), .takeExit count, .respawn (UInt64.ofNat (count + 1))]
    · exact all_meet_of_forall (fun _ _ => trivial) _ _
    · simp only [play, next, SupervisorRun.next, running, SupervisorRun.setStage, Option.map_some, update_self,
        update_idem, SupervisorRun.takeExit, Supervisor.notify]
      simp only [endless, Supervisor.withConfig] at restarts ⊢
      simp only [nil_append, restarts, forward, if_false, Option.map_some, unlisted, Option.isSome_none, Bool.false_eq_true]
      rfl
  · constructor
    · rfl
    · exact update_self _ _ _
    · intro later above small
      have lower := update_of_ne (of_nat_apart above small) (some ChildStage.running) ended
      apply lower.trans
      exact (update_of_ne (of_nat_apart (by omega) small) _ _).trans (fresh later (by omega) small)
    · rfl
    · rfl
    · simp [after, List.range_succ]

theorem turning_reached (chunk : Chunk) (period count : Nat) (fits : count < 2 ^ 64) (within : count ≤ period) :
    ∃ timed, Reach next (fun _ _ => True) (initial chunk .oneForOne (2 ^ 32 - 1) period) timed ∧
      Turning chunk period count timed := by
  induction count with
  | zero => exact turning_start chunk period
  | succ count ih =>
    obtain ⟨timed, reached, turning⟩ := ih (by omega) (by omega)
    obtain ⟨after, moved, again⟩ := turning_again fits (by omega) turning
    exact ⟨after, reach_trans reached moved, again⟩

def Limited (limit period : Nat) (timed : TimedRun) : Prop :=
  (∀ start, timed.wavesWithin start period ≤ limit) ∧
    (timed.run.sup.intensityExceeded = true →
      ∀ later, Reach next (fun _ _ => True) timed later → later.begun = timed.begun)

theorem exceeded_ends {timed later : TimedRun} (exceeded : timed.run.sup.intensityExceeded = true)
    (reached : Reach next (fun _ _ => True) timed later) : later.begun = timed.begun := by
  have both : later.run.sup.intensityExceeded = true ∧ later.begun = timed.begun := by
    apply reach_invariant _ _ reached
    · exact ⟨exceeded, rfl⟩
    · intro before event after held _ taken
      obtain ⟨still, begun⟩ := exceeded_next held.1 taken
      exact ⟨still, begun.trans held.2⟩
  exact both.2

theorem turning_waves {chunk : Chunk} {period count : Nat} {timed : TimedRun} (within : count ≤ period)
    (turning : Turning chunk period count timed) : timed.wavesWithin 0 period = count := by
  rw [wavesWithin, turning.begun, countP_reverse, countP_eq_length.mpr, List.length_range]
  intro time member
  have := List.mem_range.mp member
  simp
  omega

-- A wave in each of 2^32 milliseconds: the count of the marks is 0 in u32.
theorem endless_waves_unlimited : ∃ timed,
    Reach next (fun _ _ => True) (initial ⟨"", [], [], []⟩ .oneForOne 4294967295 4294967296) timed ∧
      timed.wavesWithin 0 4294967296 = 4294967296 := by
  obtain ⟨timed, reached, turning⟩ := turning_reached ⟨"", [], [], []⟩ 4294967296 4294967296 (by decide) le_rfl
  exact ⟨timed, reached, turning_waves le_rfl turning⟩

theorem waves_limited_iff (maxRestarts : UInt32) :
    (∀ (chunk : Chunk) (strategy : RestartStrategy) (maxPeriod : Nat) (timed : TimedRun),
      Reach next (fun _ _ => True) (initial chunk strategy maxRestarts.toNat maxPeriod) timed →
        Limited maxRestarts.toNat maxPeriod timed) ↔ maxRestarts.toNat < 4294967295 := by
  apply Iff.intro
  · intro limited
    by_contra top
    have all : maxRestarts.toNat = 2 ^ 32 - 1 := by
      have fits := maxRestarts.toNat_lt
      omega
    obtain ⟨timed, reached, turning⟩ := turning_reached ⟨"", [], [], []⟩ (2 ^ 32) (2 ^ 32) (by decide) le_rfl
    rw [all] at limited
    have few := (limited _ _ _ _ reached).1 0
    rw [turning_waves le_rfl turning] at few
    omega
  · intro small chunk strategy maxPeriod timed reached
    have kept : Kept maxRestarts.toNat maxPeriod timed := by
      apply reach_invariant _ _ reached
      · constructor
        · rfl
        · rfl
        · intro _
          exact Nat.zero_le _
        · intro start _
          exact le_rfl
        · intro start
          exact Nat.zero_le _
      · intro before event after held _ taken
        exact kept_next held (by omega) taken
    exact ⟨kept.bounded, fun exceeded later moved => exceeded_ends exceeded moved⟩

end TimedRun

end Byteflow
