import Byteflow.AskWake

namespace Byteflow

open Function

def Place.wait : Place → Option Wait
  | .hand point => point.wait
  | .waiting _ reply => reply
  | .parked wait => some wait
  | .unborn | .gone => none

namespace Lifecycle

def Inherits (life after : Lifecycle) : Prop :=
  ∀ id wait, (after.places id).wait = some wait → (life.places id).wait = some wait

section Waits

variable {life middle after : Lifecycle} {id : FlowId}

theorem inherits_same (places : after.places = life.places) : Inherits life after := fun _ _ => places ▸ id

theorem inherits_trans (first : Inherits life middle) (second : Inherits middle after) : Inherits life after :=
  fun id wait isWait => first id wait (second id wait isWait)

theorem inherits_move (place : Place) (narrow : ∀ wait, place.wait = some wait → (life.places id).wait = some wait) :
    Inherits life (life.move id place) := by
  intro other wait isWait
  by_cases same : other = id
  · subst same
    simp only [move, update_self] at isWait
    exact narrow wait isWait
  · simpa only [move, update_of_ne same] using isWait

theorem inherits_free (point : Point) (free : point.wait = none) : Inherits life (life.moveTo id point) :=
  inherits_move _ fun wait isWait => by
    change point.wait = some wait at isWait
    rw [free] at isWait
    cases isWait

theorem inherits_obey_kill : Inherits life (life.obeyKill id) := by
  unfold obeyKill
  split
  · exact inherits_trans (inherits_same rfl) (inherits_free _ rfl)
  · exact inherits_free _ rfl

theorem inherits_close : Inherits life (life.closeMailbox id) := by
  intro other wait isWait
  rcases close_mailbox_cases life id other with ⟨_, _, now⟩ | ⟨_, now⟩
  · rw [now] at isWait
    cases isWait
  · exact now ▸ isWait

theorem inherits_orphan {base : Lifecycle} {asker : FlowId} {serial : Nat} {reason : FlowExitReason}
    (orphan : Orphan life id asker serial reason base) : Inherits life base := by
  cases orphan with
  | woken _ _ point follow => rcases follow with rfl | rfl <;> exact inherits_trans (inherits_same rfl) (inherits_free _ rfl)
  | left => exact inherits_same rfl

theorem inherits_goes {place : Place} {base : Lifecycle} {follow : Point} (held : life.places id = place)
    (goes : Goes life id place base follow) : Inherits life (base.moveTo id follow) := by
  have same := notes_same (goes_notes goes)
  refine inherits_trans (inherits_same same.places) (inherits_move _ fun wait isWait => ?_)
  have begun := (goes_attends goes).2.2.2 wait isWait
  rw [same.places, held]
  cases place with
  | hand | waiting => exact begun
  | unborn | parked | gone => cases begun

theorem inherits_turn {place : Place} (held : life.places id = place) (idle : place ≠ .hand .running)
    (turn : Turn life id place after) : Inherits life after := by
  have keeps : ∀ {base : Lifecycle} (next : Place), base.places = life.places → next.wait = place.wait →
      Inherits life (base.move id next) := by
    intro base next same wait
    refine inherits_trans (inherits_same same) (inherits_move next fun current isWait => ?_)
    rw [same, held, ← wait]
    exact isWait
  cases turn with
  | goes goes => exact inherits_goes held goes
  | receives | asks => exact absurd rfl idle
  | sleeps target reply => exact inherits_trans (keeps (.waiting target reply) rfl rfl) (inherits_same rfl)
  | parks wait => exact inherits_trans (keeps (.parked wait) rfl rfl) (inherits_same rfl)
  | inserts | unregisters => exact keeps _ rfl rfl
  | closes reason =>
    split
    · exact inherits_trans inherits_close (inherits_free _ rfl)
    · exact inherits_free _ rfl
  | takes _ _ _ _ orphan => exact inherits_trans (inherits_orphan orphan) (inherits_free _ rfl)
  | hears | unasks | faults | removes | sweeps | picks => exact inherits_trans (inherits_same rfl) (inherits_free _ rfl)

theorem inherits_perform (task : Task) : Inherits life (life.perform task).1 := by
  generalize performed : (life.perform task).1 = base
  cases performed ▸ perform_cases task with
  | notes notes => exact inherits_same (notes_same notes).places
  | goes held goes => exact inherits_goes held goes
  | writes => exact inherits_trans (inherits_same rfl) (inherits_free _ rfl)

theorem inherits_next {event : LifeEvent} (other : ∀ id effect, event ≠ .run id effect) (stepped : life.next event = some after) :
    Inherits life after := by
  cases step_cases stepped with
  | spawn id _ => exact inherits_trans (inherits_free .ready rfl) (inherits_same rfl)
  | turn held runner _ turn =>
    refine inherits_turn held (fun runs => ?_) turn
    obtain ⟨effect, isRun⟩ := runner runs
    exact other _ effect isRun
  | kill => exact inherits_same rfl
  | task index task found => exact inherits_trans (inherits_perform task) (inherits_same rfl)

theorem run_wait {flow : FlowId} {effect : Effect} (stepped : life.next (.run flow effect) = some after) {wait : Wait}
    {target : FlowId} (isWait : (after.places id).wait = some wait) (asks : wait.target = some target) :
    (life.places id).wait = some wait ∨
      ∃ requestId dest timed, effect = .ask target requestId dest timed := by
  simp only [next] at stepped
  split at stepped
  · rename_i held
    cases stepped
    cases effect with
    | yield | exit | send => exact Or.inl (inherits_free _ rfl id wait isWait)
    | hostAwait => exact Or.inl (inherits_obey_kill id wait isWait)
    | receive dest timed =>
      by_cases same : id = flow
      · subst same
        simp only [runEffect, beginWait, moveTo, move, update_self] at isWait
        cases isWait
        cases asks
      · simp only [runEffect, beginWait, moveTo, move, update_of_ne same] at isWait
        exact Or.inl isWait
    | ask peer requestId dest timed =>
      by_cases same : id = flow
      · subst same
        simp only [runEffect, beginWait, moveTo, move, update_self] at isWait
        cases isWait
        cases asks
        exact Or.inr ⟨requestId, dest, timed, rfl⟩
      · simp only [runEffect, beginWait, moveTo, move, update_of_ne same] at isWait
        exact Or.inl isWait
  · cases stepped

end Waits

end Lifecycle

end Byteflow
