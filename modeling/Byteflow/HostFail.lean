import Byteflow.Supervisor
import Byteflow.Transition

namespace Byteflow

open Transition

structure FailSlot where
  message : Option String := none
  settled : Bool := false

-- HostAwaitFailures at one flow id. Each call is one critical section.
namespace HostAwaitFailures

def request (slot : Option FailSlot) (msg : String) : Option FailSlot × Bool :=
  let current := slot.getD {}
  if current.settled then (some current, false)
  else (some { current with message := some (current.message.getD msg) }, true)

def take (slot : Option FailSlot) : Option FailSlot × Option String :=
  match slot with
  | none => (none, none)
  | some current =>
    if current.message.isNone && !current.settled then (none, none)
    else (some { current with message := none }, current.message)

def commitSuccess (slot : Option FailSlot) : Option FailSlot × Option String :=
  (some ⟨none, true⟩, (slot.getD {}).message)

def sealSlot (_slot : Option FailSlot) : Option FailSlot := some ⟨none, true⟩

def clear (_slot : Option FailSlot) : Option FailSlot := none

end HostAwaitFailures

inductive FinalizeStage where
  | sealSlot | cancel | unregister | complete | clear
deriving DecidableEq, Repr

-- Who has the flow. held is the completer that extracted it.
inductive FlowPlace where
  | running
  | parked
  | held (completer : Nat)
  | finalizing (outcome : FlowOutcome) (stage : FinalizeStage)
  | finished (outcome : FlowOutcome)

inductive FailStep where
  | takeTicket | lookup | request | extract | takeText | finalize
  | returned (ok : Bool)
deriving DecidableEq, Repr

structure Completer where
  message : String
  step : FailStep

-- One flow, its worker and the completers of its HostAwait tickets. The ticket
-- of a completer is its position.
structure HostFail where
  place : FlowPlace
  slot : Option FailSlot
  registered : Bool
  tickets : List Nat
  completers : List Completer
  outcome : Option FlowOutcome

inductive FailEvent where
  | hostAwait (message : String)
  | park
  | wake
  | checkFailures
  | finishOk (value : Value)
  | finishFailed (text : String)
  -- A kill that the worker sees, or that takes the parked flow.
  | kill (text : String)
  | exit
  | fail (completer : Nat) (found : Bool)

namespace HostFail

open HostAwaitFailures

def start : HostFail := ⟨.running, none, true, [], [], none⟩

def finalizeFlow (state : HostFail) (slot : Option FailSlot) (outcome : FlowOutcome) : HostFail :=
  { state with place := .finalizing outcome .sealSlot, slot := slot }

def isRunning (state : HostFail) : Bool :=
  match state.place with
  | .running => true
  | _ => false

def isParked (state : HostFail) : Bool :=
  match state.place with
  | .parked => true
  | _ => false

def parkFlowIfHostFailed (state : HostFail) : HostFail :=
  match take state.slot with
  | (slot, some msg) => state.finalizeFlow slot (.failed msg)
  | (slot, none) => { state with slot := slot }

def finishOk (state : HostFail) (value : Value) : HostFail :=
  match commitSuccess state.slot with
  | (slot, some msg) => state.finalizeFlow slot (.failed msg)
  | (slot, none) => state.finalizeFlow slot (.completed value)

def killFlow (state : HostFail) (text : String) : HostFail :=
  match take state.slot with
  | (slot, message) => state.finalizeFlow slot (.failed (message.getD text))

def finalizeOne (state : HostFail) : Option HostFail :=
  match state.place with
  | .finalizing outcome .sealSlot => some { state with place := .finalizing outcome .cancel, slot := sealSlot state.slot }
  | .finalizing outcome .cancel => some { state with place := .finalizing outcome .unregister, tickets := [] }
  | .finalizing outcome .unregister => some { state with place := .finalizing outcome .complete, registered := false }
  | .finalizing outcome .complete => some { state with place := .finalizing outcome .clear, outcome := some outcome }
  | .finalizing outcome .clear => some { state with place := .finished outcome, slot := clear state.slot }
  | _ => none

def setStep (state : HostFail) (index : Nat) (completer : Completer) (step : FailStep) : HostFail :=
  { state with completers := state.completers.set index { completer with step := step } }

-- settle with an error, then fail_live. found is whether extract_for_kill meets
-- the flow where it is parked.
def failLive (state : HostFail) (index : Nat) (completer : Completer) (found : Bool) : Option HostFail :=
  match completer.step with
  | .takeTicket =>
    if index ∈ state.tickets then
      some ({ state with tickets := state.tickets.erase index }.setStep index completer .lookup)
    else some (state.setStep index completer (.returned false))
  | .lookup => some (state.setStep index completer (if state.registered then .request else .returned false))
  | .request =>
    match request state.slot completer.message with
    | (slot, true) => some ({ state with slot := slot }.setStep index completer .extract)
    | (slot, false) => some ({ state with slot := slot }.setStep index completer (.returned false))
  | .extract =>
    if found then
      if state.isParked then some ({ state with place := .held index }.setStep index completer .takeText) else none
    else some (state.setStep index completer (.returned true))
  | .takeText =>
    match state.place with
    | .held holder =>
      if holder = index then some ((state.killFlow completer.message).setStep index completer .finalize) else none
    | _ => none
  | .finalize =>
    match state.place with
    | .finished _ => some (state.setStep index completer (.returned true))
    | _ => none
  | .returned _ => none

def next (state : HostFail) : FailEvent → Option HostFail
  | .hostAwait message =>
    if state.isRunning then
      some { state with
        tickets := state.completers.length :: state.tickets
        completers := state.completers ++ [⟨message, .takeTicket⟩] }
    else none
  | .park => if state.isRunning then some { state with place := .parked } else none
  | .wake => if state.isParked then some { state with place := .running } else none
  | .checkFailures => if state.isRunning then some state.parkFlowIfHostFailed else none
  | .finishOk value => if state.isRunning then some (state.finishOk value) else none
  | .finishFailed text => if state.isRunning then some (state.finalizeFlow state.slot (.failed text)) else none
  | .kill text => if state.isRunning || state.isParked then some (state.killFlow text) else none
  | .exit => state.finalizeOne
  | .fail index found =>
    match state.completers[index]? with
    | some completer => state.failLive index completer found
    | none => none

section Soundness

variable {state after : HostFail} {found : Bool} {completer : Completer} {index : Nat}

def verdict (state : HostFail) : Option FlowOutcome :=
  match state.place with
  | .finalizing outcome _ | .finished outcome => some outcome
  | _ => none

def claims : FailStep → Bool
  | .extract | .takeText | .finalize | .returned true => true
  | _ => false

def Claimed (state : HostFail) : Prop := ∃ completer ∈ state.completers, claims completer.step = true

-- A claim that the flow's outcome can no longer ignore.
structure Sound (state : HostFail) : Prop where
  noted : state.Claimed → state.isRunning = true ∨ state.isParked = true →
    ∃ slot text, state.slot = some slot ∧ slot.message = some text
  decided : state.Claimed → ∀ outcome, state.verdict = some outcome → ∃ text, outcome = .failed text
  settled : ∀ value stage, state.place = .finalizing (.completed value) stage →
    ∃ slot, state.slot = some slot ∧ slot.settled = true
  published : ∀ outcome, state.outcome = some outcome → state.verdict = some outcome
  cleared : ∀ outcome, state.place = .finished outcome → state.slot = none

theorem claimed_set_step {step : FailStep}
    (claimed : (state.setStep index completer step).Claimed) : claims step = true ∨ state.Claimed := by
  obtain ⟨other, member, claim⟩ := claimed
  rcases List.mem_or_eq_of_mem_set member with old | rfl
  · exact Or.inr ⟨other, old, claim⟩
  · exact Or.inl claim

theorem sound_set_step (sound : state.Sound) {step : FailStep}
    (old : claims step = true → state.Claimed) : (state.setStep index completer step).Sound := by
  have same : (state.setStep index completer step).Claimed → state.Claimed :=
    fun claimed => (claimed_set_step claimed).elim old id
  exact ⟨fun claimed => sound.noted (same claimed), fun claimed => sound.decided (same claimed), sound.settled,
    sound.published, sound.cleared⟩

theorem sound_tickets (sound : state.Sound) (tickets : List Nat) : ({ state with tickets := tickets } : HostFail).Sound :=
  ⟨sound.noted, sound.decided, sound.settled, sound.published, sound.cleared⟩

theorem unpublished (sound : state.Sound) (undecided : state.verdict = none) : state.outcome = none := by
  cases published : state.outcome with
  | none => rfl
  | some outcome => cases undecided.symm.trans (sound.published outcome published)

theorem sound_failed (sound : state.Sound) (undecided : state.verdict = none) (slot : Option FailSlot) (text : String) :
    (state.finalizeFlow slot (.failed text)).Sound := by
  refine ⟨fun _ here => ?_, fun _ outcome same => ?_, nofun, fun outcome published => ?_, nofun⟩
  · rcases here with here | here <;> cases here
  · cases same
    exact ⟨text, rfl⟩
  · cases (unpublished sound undecided).symm.trans published

theorem running_undecided (here : state.isRunning = true) : state.verdict = none := by
  obtain ⟨place, _, _, _, _, _⟩ := state
  cases place with
  | running => rfl
  | _ => cases here

theorem parked_undecided (here : state.isParked = true) : state.verdict = none := by
  obtain ⟨place, _, _, _, _, _⟩ := state
  cases place with
  | parked => rfl
  | _ => cases here

theorem sound_finish_ok (sound : state.Sound) (here : state.isRunning = true) (value : Value) :
    (state.finishOk value).Sound := by
  have undecided := running_undecided here
  rw [finishOk]
  cases noted : (state.slot.getD {}).message with
  | some msg =>
    rw [commitSuccess, noted]
    exact sound_failed sound undecided _ msg
  | none =>
    -- A claim would have left its text in the slot.
    have unclaimed : ¬ state.Claimed := by
      intro claimed
      obtain ⟨slot, text, isSlot, message⟩ := sound.noted claimed (Or.inl here)
      rw [isSlot] at noted
      cases message.symm.trans noted
    rw [commitSuccess, noted]
    refine ⟨fun claimed => absurd claimed unclaimed, fun claimed => absurd claimed unclaimed, fun _ _ _ => ⟨_, rfl, rfl⟩,
      fun outcome published => ?_, nofun⟩
    cases (unpublished sound undecided).symm.trans published

theorem sound_check (sound : state.Sound) (here : state.isRunning = true) : state.parkFlowIfHostFailed.Sound := by
  have undecided := running_undecided here
  rw [parkFlowIfHostFailed]
  cases taken : take state.slot with
  | mk slot message =>
    cases message with
    | some msg => exact sound_failed sound undecided slot msg
    | none =>
      have unclaimed : ¬ state.Claimed := by
        intro claimed
        obtain ⟨current, text, isSlot, noted⟩ := sound.noted claimed (Or.inl here)
        rw [isSlot, take, noted] at taken
        cases taken
      refine ⟨fun claimed => absurd claimed unclaimed, fun claimed => absurd claimed unclaimed, fun value stage same => ?_,
        sound.published, fun outcome same => ?_⟩
      · rw [verdict, show state.place = _ from same] at undecided
        cases undecided
      · rw [verdict, show state.place = _ from same] at undecided
        cases undecided

theorem sound_exit (sound : state.Sound) {given : FlowOutcome} (before : state.verdict = some given)
    (same : after.completers = state.completers) (kept : after.verdict = some given)
    (settled : ∀ value stage, after.place = .finalizing (.completed value) stage →
      ∃ slot, after.slot = some slot ∧ slot.settled = true)
    (published : ∀ outcome, after.outcome = some outcome → outcome = given)
    (cleared : ∀ outcome, after.place = .finished outcome → after.slot = none) : after.Sound := by
  have old : after.Claimed → state.Claimed := by
    rw [Claimed, Claimed, same]
    exact id
  refine ⟨fun _ here => ?_, fun claimed outcome decided => ?_, settled, fun outcome given => ?_, cleared⟩
  · rcases here with here | here
    · cases (running_undecided here).symm.trans kept
    · cases (parked_undecided here).symm.trans kept
  · exact sound.decided (old claimed) outcome (before.trans (kept.symm.trans decided))
  · rw [kept, published outcome given]

theorem sound_finalize_one (sound : state.Sound) (stepped : state.finalizeOne = some after) : after.Sound := by
  obtain ⟨place, slot, registered, tickets, completers, outcome⟩ := state
  cases place with
  | finalizing given stage =>
    have published : ∀ said, outcome = some said → said = given :=
      fun said here => (Option.some.inj (sound.published said here)).symm
    have settled : ∀ value, given = .completed value → ∃ current, slot = some current ∧ current.settled = true := by
      intro value same
      exact sound.settled value stage (by rw [same])
    cases stage with
    | sealSlot =>
      cases stepped
      exact sound_exit sound rfl rfl rfl (fun _ _ _ => ⟨_, rfl, rfl⟩) published nofun
    | cancel | unregister =>
      cases stepped
      exact sound_exit sound rfl rfl rfl (fun value _ same => settled value (FlowPlace.finalizing.inj same).1) published nofun
    | complete =>
      cases stepped
      exact sound_exit sound rfl rfl rfl (fun value _ same => settled value (FlowPlace.finalizing.inj same).1)
        (fun said same => (Option.some.inj same).symm) nofun
    | clear =>
      cases stepped
      exact sound_exit sound rfl rfl rfl nofun published (fun _ _ => rfl)
  | running | parked | held | finished => cases stepped

theorem sound_moved (sound : state.Sound) (undecided : state.verdict = none) (here : state.isRunning = true ∨ state.isParked = true)
    {place : FlowPlace} (still : ({ state with place := place } : HostFail).verdict = none) :
    ({ state with place := place } : HostFail).Sound := by
  refine ⟨fun claimed _ => sound.noted claimed here, fun _ outcome decided => ?_, fun value stage same => ?_,
    fun outcome published => ?_, fun outcome same => ?_⟩
  · cases still.symm.trans decided
  · cases same
    cases still
  · cases (unpublished sound undecided).symm.trans published
  · cases same
    cases still

theorem request_cases (slot : Option FailSlot) (message : String) :
    (request slot message = (slot, false) ∧ ∃ current, slot = some current ∧ current.settled = true) ∨
      (∃ current text, request slot message = (some current, true) ∧ current.message = some text) ∧
        ∀ current, slot = some current → current.settled = false := by
  cases slot with
  | none => exact Or.inr ⟨⟨_, message, rfl, rfl⟩, nofun⟩
  | some current =>
    cases settled : current.settled with
    | true => exact Or.inl ⟨by rw [request, Option.getD_some, if_pos settled], current, rfl, settled⟩
    | false =>
      refine Or.inr ⟨⟨⟨some (current.message.getD message), false⟩, current.message.getD message, ?_, rfl⟩, fun other same => Option.some.inj same ▸ settled⟩
      rw [request, Option.getD_some, settled, if_neg Bool.false_ne_true]

theorem sound_request (sound : state.Sound) (alive : ∀ outcome, state.place ≠ .finished outcome)
    (stepped : state.failLive index completer found = some after) (atRequest : completer.step = .request) :
    after.Sound := by
  rw [failLive, atRequest] at stepped
  rcases request_cases state.slot completer.message with ⟨refused, _⟩ | ⟨⟨current, text, taken, message⟩, unsettled⟩
  · rw [refused] at stepped
    cases stepped
    exact sound_set_step sound nofun
  · rw [taken] at stepped
    cases stepped
    refine ⟨fun _ _ => ⟨current, text, rfl, message⟩, fun _ outcome decided => ?_, fun value stage same => ?_, sound.published,
      fun outcome same => absurd same (alive outcome)⟩
    · -- A completed flow has settled its slot before anyone could ask.
      cases outcome with
      | failed said => exact ⟨said, rfl⟩
      | completed value =>
        rw [verdict] at decided
        split at decided
        case h_1 given stage isPlace =>
          cases decided
          obtain ⟨slot, isSlot, settled⟩ := sound.settled value stage isPlace
          cases (unsettled slot isSlot).symm.trans settled
        case h_2 given isPlace => exact absurd isPlace (alive given)
        case h_3 => cases decided
    · obtain ⟨slot, isSlot, settled⟩ := sound.settled value stage same
      cases (unsettled slot isSlot).symm.trans settled

-- The request is made before the flow is finalized.
def InTime (state : HostFail) : FailEvent → Prop
  | .fail index _ => ∀ completer, state.completers[index]? = some completer → completer.step = .request →
      ∀ outcome, state.place ≠ .finished outcome
  | _ => True

theorem sound_fail (sound : state.Sound) (isCompleter : state.completers[index]? = some completer)
    (alive : completer.step = .request → ∀ outcome, state.place ≠ .finished outcome)
    (stepped : state.failLive index completer found = some after) : after.Sound := by
  cases atStep : completer.step with
  | request => exact sound_request sound (alive atStep) stepped atStep
  | takeTicket =>
    simp only [failLive, atStep] at stepped
    split at stepped
    · cases stepped
      exact sound_set_step (sound_tickets sound _) nofun
    · cases stepped
      exact sound_set_step sound nofun
  | lookup =>
    simp only [failLive, atStep] at stepped
    cases stepped
    split
    · exact sound_set_step sound nofun
    · exact sound_set_step sound nofun
  | extract =>
    have claimed : state.Claimed := ⟨completer, List.mem_of_getElem? isCompleter, by rw [atStep]; rfl⟩
    simp only [failLive, atStep] at stepped
    split at stepped
    · split at stepped
      case isTrue parked =>
        cases stepped
        exact sound_set_step (sound_moved sound (parked_undecided parked) (Or.inr parked) rfl) (fun _ => claimed)
      case isFalse => cases stepped
    · cases stepped
      exact sound_set_step sound (fun _ => claimed)
  | takeText =>
    have claimed : state.Claimed := ⟨completer, List.mem_of_getElem? isCompleter, by rw [atStep]; rfl⟩
    simp only [failLive, atStep] at stepped
    split at stepped
    case h_1 holder held =>
      split at stepped
      · cases stepped
        have undecided : state.verdict = none := by rw [verdict, held]
        exact sound_set_step (sound_failed sound undecided _ _) (fun _ => claimed)
      · cases stepped
    case h_2 => cases stepped
  | finalize =>
    have claimed : state.Claimed := ⟨completer, List.mem_of_getElem? isCompleter, by rw [atStep]; rfl⟩
    simp only [failLive, atStep] at stepped
    split at stepped
    · cases stepped
      exact sound_set_step sound (fun _ => claimed)
    · cases stepped
  | returned ok =>
    simp only [failLive, atStep] at stepped
    cases stepped

theorem sound_next (sound : state.Sound) {event : FailEvent} (inTime : state.InTime event)
    (stepped : state.next event = some after) : after.Sound := by
  cases event with
  | hostAwait message =>
    obtain ⟨_, rfl⟩ := Option.ite_some_none_eq_some.mp stepped
    have old : ∀ completers : List Completer,
        (∃ completer ∈ completers ++ [⟨message, .takeTicket⟩], claims completer.step = true) →
          ∃ completer ∈ completers, claims completer.step = true := by
      rintro completers ⟨completer, member, claim⟩
      rcases List.mem_append.mp member with member | member
      · exact ⟨completer, member, claim⟩
      · rw [List.mem_singleton.mp member] at claim
        cases claim
    exact ⟨fun claimed => sound.noted (old _ claimed), fun claimed => sound.decided (old _ claimed), sound.settled,
      sound.published, sound.cleared⟩
  | park =>
    obtain ⟨running, rfl⟩ := Option.ite_some_none_eq_some.mp stepped
    exact sound_moved sound (running_undecided running) (Or.inl running) rfl
  | wake =>
    obtain ⟨parked, rfl⟩ := Option.ite_some_none_eq_some.mp stepped
    exact sound_moved sound (parked_undecided parked) (Or.inr parked) rfl
  | checkFailures =>
    obtain ⟨running, rfl⟩ := Option.ite_some_none_eq_some.mp stepped
    exact sound_check sound running
  | finishOk value =>
    obtain ⟨running, rfl⟩ := Option.ite_some_none_eq_some.mp stepped
    exact sound_finish_ok sound running value
  | finishFailed text =>
    obtain ⟨running, rfl⟩ := Option.ite_some_none_eq_some.mp stepped
    exact sound_failed sound (running_undecided running) _ text
  | kill text =>
    obtain ⟨here, rfl⟩ := Option.ite_some_none_eq_some.mp stepped
    have undecided : state.verdict = none := by
      rcases (Bool.or_eq_true _ _).mp here with running | parked
      · exact running_undecided running
      · exact parked_undecided parked
    exact sound_failed sound undecided _ _
  | exit => exact sound_finalize_one sound stepped
  | fail index found =>
    simp only [next] at stepped
    split at stepped
    case h_1 completer isCompleter => exact sound_fail sound isCompleter (inTime completer isCompleter) stepped
    case h_2 => cases stepped

theorem start_sound : start.Sound :=
  ⟨fun ⟨_, member, _⟩ => absurd member List.not_mem_nil, fun ⟨_, member, _⟩ => absurd member List.not_mem_nil, nofun, nofun, nofun⟩

def Honest (state : HostFail) : Prop :=
  (∀ completer ∈ state.completers, completer.step = .returned true → ∀ outcome, state.outcome = some outcome →
    ∃ text, outcome = .failed text) ∧
  ∀ outcome, state.place = .finished outcome → state.slot = none

theorem honest_of_sound (sound : state.Sound) : state.Honest := by
  refine ⟨fun completer member returned outcome published => ?_, sound.cleared⟩
  exact sound.decided ⟨completer, member, by rw [returned]; rfl⟩ outcome (sound.published outcome published)

theorem late_request {event : FailEvent} (late : ¬ state.InTime event) :
    ∃ after, state.next event = some after ∧ ¬ after.Honest := by
  cases event with
  | fail index found =>
    simp only [InTime, not_forall, not_not] at late
    obtain ⟨completer, isCompleter, atRequest, outcome, finished⟩ := late
    simp only [next, isCompleter, failLive, atRequest]
    rcases request_cases state.slot completer.message with ⟨refused, current, isSlot, _⟩ | ⟨⟨current, text, taken, _⟩, _⟩
    · rw [refused]
      refine ⟨_, rfl, fun honest => ?_⟩
      cases (honest.2 outcome finished).symm.trans isSlot
    · rw [taken]
      refine ⟨_, rfl, fun honest => ?_⟩
      cases honest.2 outcome finished
  | _ => exact absurd trivial late

end Soundness

def HonestRun (state : HostFail) (events : List FailEvent) : Prop :=
  ∀ done after, done <+: events → play next state done = some after → after.Honest

theorem honest_run_cons {state after : HostFail} {event : FailEvent} (taken : state.next event = some after)
    (events : List FailEvent) : state.HonestRun (event :: events) ↔ state.Honest ∧ after.HonestRun events := by
  constructor
  · intro honest
    refine ⟨honest [] state List.nil_prefix rfl, fun done last within played => ?_⟩
    refine honest (event :: done) last (List.cons_prefix_cons.mpr ⟨rfl, within⟩) ?_
    simp only [play, taken, played]
  · rintro ⟨here, rest⟩ done last within played
    cases done with
    | nil =>
      cases played
      exact here
    | cons first done =>
      obtain ⟨rfl, shorter⟩ := List.cons_prefix_cons.mp within
      simp only [play, taken] at played
      exact rest done last shorter played

theorem honest_run_iff {state : HostFail} (sound : state.Sound) (events : List FailEvent) :
    state.HonestRun events ↔ AllMeet next InTime state events := by
  induction events generalizing state with
  | nil =>
    refine iff_of_true (fun done after within played => ?_) trivial
    rw [List.prefix_nil.mp within] at played
    cases played
    exact honest_of_sound sound
  | cons event rest ih =>
    simp only [AllMeet]
    by_cases inTime : state.InTime event
    · cases taken : state.next event with
      | none =>
        refine iff_of_true (fun done after within played => ?_) ⟨inTime, trivial⟩
        cases done with
        | nil =>
          cases played
          exact honest_of_sound sound
        | cons first done =>
          obtain ⟨rfl, _⟩ := List.cons_prefix_cons.mp within
          simp only [play, taken] at played
          cases played
      | some after =>
        rw [honest_run_cons taken, ih (sound_next sound inTime taken)]
        exact and_congr (iff_of_true (honest_of_sound sound) inTime) Iff.rfl
    · obtain ⟨after, taken, dishonest⟩ := late_request inTime
      refine iff_of_false (fun honest => dishonest ?_) (fun meets => inTime meets.1)
      exact ((honest_run_cons taken rest).mp honest).2 [] after List.nil_prefix rfl

theorem host_failure_decides_iff (events : List FailEvent) : start.HonestRun events ↔ AllMeet next InTime start events :=
  honest_run_iff start_sound events

-- The lookup finds the flow, the flow completes and is finalized, and the
-- request then lands in a new slot and reports success.
def lateFail : List FailEvent :=
  [.hostAwait "late", .fail 0 false, .fail 0 false, .finishOk (.int 1), .exit, .exit, .exit, .exit, .exit, .fail 0 false,
    .fail 0 false]

theorem late_fail_reports_success :
    (∃ after, play next start lateFail = some after ∧
      after.completers.map Completer.step = [.returned true] ∧ after.outcome = some (.completed (.int 1)) ∧
      after.place = .finished (.completed (.int 1)) ∧ after.slot = some ⟨some "late", false⟩) ∧
    ¬ start.HonestRun lateFail := by
  refine ⟨⟨_, rfl, rfl, rfl, rfl, rfl⟩, fun honest => ?_⟩
  have cleared := (honest lateFail _ List.prefix_rfl rfl).2 (.completed (.int 1)) rfl
  cases cleared

end HostFail

end Byteflow
