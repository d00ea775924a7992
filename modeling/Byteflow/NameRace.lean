import Byteflow.CapDerive
import Byteflow.LifecycleIndexes

namespace Byteflow

open List Function IndexedRows Transition

-- finalize_one revokes the capabilities of a flow, takes it out of the
-- directory and sweeps its names, in this order.
inductive NamePhase where
  | unborn | live | revoked | unregistered | finalized
deriving DecidableEq

-- A registration by its next lock step. Runtime::register_name begins with
-- lookup; RegisterName (own: the worker that runs the flow is in it) and
-- register_child_name begin with mint.
inductive NameCall where
  | lookup (name : String) (cap : CapId)
  | requireLive (name : String) (cap : CapId) (target : FlowId)
  | mint (own : Bool) (name : String) (flow : FlowId)
  | register (own : Bool) (name : String) (cap : CapId) (flow : FlowId)
  | finished (result : Except LifecycleError Unit)
  | unminted (e : MintError)

structure NameRace where
  registry : Registry
  maxNames : Nat
  caps : CapTable
  phases : FlowId → NamePhase
  calls : List NameCall

inductive NameEvent where
  | spawn (flow : FlowId)
  | mintCap (holder target : FlowId) (rights : CapRights) (draws : CapDraws)
  | registerName (name : String) (cap : CapId)
  | registerOwn (name : String) (flow : FlowId)
  | registerChild (name : String) (flow : FlowId)
  | step (index : Nat) (draws : CapDraws)
  | unregisterName (name : String)
  | revoke (flow : FlowId)
  | unregister (flow : FlowId)
  | sweep (flow : FlowId)

def NameCall.runs (flow : FlowId) : NameCall → Bool
  | .mint own _ target | .register own _ _ target => own && target == flow
  | _ => false

namespace NameRace

def initial (maxNames : UInt32) : NameRace := ⟨.empty, maxNames.toNat, .new, fun _ => .unborn, []⟩

def listed (race : NameRace) (flow : FlowId) : Bool := race.phases flow = .live || race.phases flow = .revoked

def targetOf (race : NameRace) (cap : CapId) : Option FlowId :=
  match race.caps.lookup cap with
  | some entry => match entry.cap.target with
    | .flow flow => some flow
    | _ => none
  | none => none

def advance (race : NameRace) (draws : CapDraws) : NameCall → Option (NameRace × NameCall)
  | .lookup name cap =>
    match race.targetOf cap with
    | none => some (race, .finished (.error .invalidCapability))
    | some target => some (race, .requireLive name cap target)
  | .requireLive name cap target =>
    some (race, if race.listed target then .register false name cap target else .finished (.error (.noSuchFlow target)))
  | .mint own name flow =>
    match race.caps.mint flow flow .ADDRESSING draws with
    | (caps, .error e) => some ({ race with caps := caps }, .unminted e)
    | (caps, .ok cap) => some ({ race with caps := caps }, .register own name cap flow)
  | .register _ name cap flow =>
    let (registry, result) := race.registry.register race.maxNames name cap flow
    some ({ race with registry := registry }, .finished result)
  | .finished _ | .unminted _ => none

def setPhase (race : NameRace) (flow : FlowId) (phase : NamePhase) : NameRace :=
  { race with phases := update race.phases flow phase }

def next (race : NameRace) : NameEvent → Option NameRace
  | .spawn flow => if race.phases flow = .unborn then some (race.setPhase flow .live) else none
  | .mintCap holder target rights draws => some { race with caps := (race.caps.mint holder target rights draws).1 }
  | .registerName name cap => some { race with calls := race.calls ++ [.lookup name cap] }
  | .registerOwn name flow =>
    if race.phases flow = .live then some { race with calls := race.calls ++ [.mint true name flow] } else none
  -- The child was spawned and may have run to its end since.
  | .registerChild name flow =>
    if race.phases flow = .unborn then none else some { race with calls := race.calls ++ [.mint false name flow] }
  | .step index draws =>
    match race.calls[index]? with
    | none => none
    | some call =>
      match race.advance draws call with
      | none => none
      | some (after, left) => some { after with calls := after.calls.set index left }
  | .unregisterName name => some { race with registry := (race.registry.unregister name).1 }
  | .revoke flow =>
    if race.phases flow = .live ∧ race.calls.all (fun call => !call.runs flow) then
      some { race.setPhase flow .revoked with caps := race.caps.revokeFlow flow }
    else none
  | .unregister flow => if race.phases flow = .revoked then some (race.setPhase flow .unregistered) else none
  | .sweep flow =>
    if race.phases flow = .unregistered then
      some { race.setPhase flow .finalized with registry := race.registry.unregisterFlow flow }
    else none

def Quiescent (race : NameRace) : Prop :=
  (∀ call ∈ race.calls, (race.advance [] call).isNone = true) ∧
    ∀ flow, race.phases flow ≠ .revoked ∧ race.phases flow ≠ .unregistered

-- No row is inserted by register_name or register_child_name for a flow whose names are swept.
def inTime (race : NameRace) : NameEvent → Bool
  | .step index _ =>
    match race.calls[index]? with
    | some (.register false name cap flow) =>
      race.phases flow ≠ .finalized || !(race.registry.register race.maxNames name cap flow).2.isOk
    | _ => true
  | _ => true

structure Bound (race : NameRace) : Prop where
  agrees : Agrees Registry.mentions race.registry
  running : ∀ call ∈ race.calls, ∀ flow, call.runs flow = true → race.phases flow = .live
  kept : ∀ name entry, (name, entry) ∈ race.registry.rows → race.phases entry.flow ≠ .finalized

section Steps

variable {race : NameRace} (bound : Bound race)

include bound

theorem bound_begin {call : NameCall} (running : ∀ flow, call.runs flow = true → race.phases flow = .live) :
    Bound { race with calls := race.calls ++ [call] } := by
  refine { bound with running := ?_ }
  intro other member
  obtain old | new := mem_append.mp member
  · exact bound.running other old
  · cases mem_singleton.mp new
    exact running

theorem bound_phase (flow : FlowId) (phase : NamePhase) {registry : Registry} (agrees : Agrees Registry.mentions registry)
    (fewer : ∀ row ∈ registry.rows, row ∈ race.registry.rows ∧ (phase = .finalized → row.2.flow ≠ flow))
    (idle : phase = .live ∨ race.phases flow ≠ .live ∨ ∀ call ∈ race.calls, call.runs flow = false) (caps : CapTable) :
    Bound { race.setPhase flow phase with registry := registry, caps := caps } := by
  refine ⟨agrees, ?_, ?_⟩
  · intro call member other runs
    change update race.phases flow phase other = .live
    have live := bound.running call member other runs
    by_cases same : other = flow
    · subst same
      rw [update_self]
      obtain same | ended | idle := idle
      · exact same
      · exact absurd live ended
      · exact absurd runs (by simp [idle call member])
    · rw [update_of_ne same]
      exact live
  · intro name entry row
    change update race.phases flow phase entry.flow ≠ .finalized
    obtain ⟨old, other⟩ := fewer _ row
    by_cases same : entry.flow = flow
    · rw [same, update_self]
      exact fun ended => other ended same
    · rw [update_of_ne same]
      exact bound.kept name entry old

theorem advance_moves {call left : NameCall} {draws : CapDraws} {moved : NameRace} (member : call ∈ race.calls)
    (timely : ∀ name cap flow, call = .register false name cap flow →
      (race.registry.register race.maxNames name cap flow).2 = .ok () → race.phases flow ≠ .finalized)
    (advanced : race.advance draws call = some (moved, left)) :
    Bound moved ∧ moved.phases = race.phases ∧ moved.calls = race.calls ∧ ∀ flow, left.runs flow = true → call.runs flow = true := by
  cases call with
  | lookup name cap =>
    simp only [advance] at advanced
    cases found : race.targetOf cap <;> rw [found] at advanced <;> cases advanced <;>
      exact ⟨bound, rfl, rfl, fun _ owns => nomatch owns⟩
  | requireLive name cap target =>
    cases advanced
    refine ⟨bound, rfl, rfl, fun flow owns => ?_⟩
    cases listed : race.listed target <;> rw [listed] at owns <;> cases owns
  | mint own name flow =>
    simp only [advance] at advanced
    split at advanced <;> cases advanced
    · exact ⟨{ bound with }, rfl, rfl, fun _ owns => nomatch owns⟩
    · exact ⟨{ bound with }, rfl, rfl, fun _ owns => owns⟩
  | register own name cap flow =>
    obtain ⟨e, refused⟩ | ⟨fresh, inserted⟩ := Registry.register_cases race.registry race.maxNames name cap flow
    · simp only [advance, refused] at advanced
      cases advanced
      exact ⟨bound, rfl, rfl, fun _ owns => nomatch owns⟩
    · simp only [advance, inserted] at advanced
      cases advanced
      refine ⟨⟨insert_agrees bound.agrees _ fresh, bound.running, ?_⟩, rfl, rfl, fun _ owns => nomatch owns⟩
      rw [insert_rows fresh]
      intro other entry row
      obtain same | old := mem_cons.mp row
      · cases same
        cases own with
        | true =>
          have live := bound.running _ member flow (by simp [NameCall.runs])
          simp [live]
        | false => exact timely name cap flow rfl (by rw [inserted])
      · exact bound.kept other entry old
  | finished | unminted => cases advanced

theorem bound_step {index : Nat} {draws : CapDraws} {after : NameRace} (inTime : race.inTime (.step index draws) = true)
    (taken : race.next (.step index draws) = some after) : Bound after := by
  simp only [next] at taken
  simp only [NameRace.inTime] at inTime
  split at taken
  · cases taken
  rename_i call here
  simp only [here] at inTime
  have member := mem_of_getElem? here
  split at taken
  · cases taken
  rename_i middle moved advanced
  cases taken
  obtain ⟨kept, phases, calls, runs⟩ := advance_moves bound member
    (fun name cap flow same inserts => by simpa [same, inserts, Except.isOk, Except.toBool] using inTime) advanced
  refine ⟨kept.agrees, fun other found flow owns => ?_, kept.kept⟩
  rw [calls] at found
  obtain ⟨position, found⟩ := mem_iff_getElem?.mp found
  change middle.phases flow = .live
  rw [phases]
  obtain ⟨_, rfl⟩ | ⟨_, old⟩ := mem_set_cases found
  · exact bound.running call member flow (runs flow owns)
  · exact bound.running other (mem_of_getElem? old) flow owns

theorem bound_next {event : NameEvent} {after : NameRace} (inTime : race.inTime event = true)
    (taken : race.next event = some after) : Bound after := by
  cases event with
  | step index draws => exact bound_step bound inTime taken
  | spawn flow =>
    obtain ⟨_, ⟨⟩⟩ := Option.ite_none_right_eq_some.mp taken
    exact bound_phase bound flow .live bound.agrees (fun row old => ⟨old, nofun⟩) (.inl rfl) race.caps
  | mintCap holder target rights draws =>
    cases taken
    exact { bound with }
  | registerName name cap =>
    cases taken
    exact bound_begin bound nofun
  | registerOwn name flow =>
    obtain ⟨live, ⟨⟩⟩ := Option.ite_none_right_eq_some.mp taken
    apply bound_begin bound
    intro other runs
    rw [← (by simpa [NameCall.runs] using runs : flow = other)]
    exact live
  | registerChild name flow =>
    obtain ⟨_, ⟨⟩⟩ := Option.ite_none_left_eq_some.mp taken
    exact bound_begin bound nofun
  | unregisterName name =>
    cases taken
    refine ⟨remove_agrees bound.agrees name, bound.running, ?_⟩
    intro other entry row
    have rows : (race.registry.remove Registry.mentions name).1.rows = _ := remove_rows name
    exact bound.kept other entry (mem_filter.mp (rows ▸ row)).1
  | revoke flow =>
    obtain ⟨⟨_, idle⟩, ⟨⟩⟩ := Option.ite_none_right_eq_some.mp taken
    apply bound_phase bound flow .revoked bound.agrees (fun row old => ⟨old, nofun⟩)
    refine .inr (.inr fun call member => ?_)
    simpa using all_eq_true.mp idle call member
  | unregister flow =>
    obtain ⟨revoked, ⟨⟩⟩ := Option.ite_none_right_eq_some.mp taken
    exact bound_phase bound flow .unregistered bound.agrees (fun row old => ⟨old, nofun⟩) (.inr (.inl (by simp [revoked]))) race.caps
  | sweep flow =>
    obtain ⟨gone, ⟨⟩⟩ := Option.ite_none_right_eq_some.mp taken
    refine bound_phase bound flow .finalized (sweep_spec bound.agrees flow).agrees ?_ (.inr (.inl (by simp [gone]))) race.caps
    intro row member
    have rows : (race.registry.unregisterFlow flow).rows = _ := Registry.unregister_flow_rows bound.agrees flow
    obtain ⟨old, other⟩ := mem_filter.mp (rows ▸ member)
    exact ⟨old, fun _ => of_decide_eq_true other⟩

end Steps

theorem names_end_with_flow (maxNames : UInt32) (race : NameRace)
    (reached : Reach next (fun race event => race.inTime event = true) (initial maxNames) race) :
    ∀ name entry, (name, entry) ∈ race.registry.rows → race.phases entry.flow ≠ .finalized := by
  have bound : Bound race := reach_invariant (⟨empty_agrees, nofun, nofun⟩ : Bound (initial maxNames))
    (fun _ _ _ bound inTime taken => bound_next bound inTime taken) reached
  exact bound.kept

def named : List NameEvent :=
  [.spawn 1, .mintCap 1 1 .ADDRESSING [.ok ⟨7⟩], .registerName "worker" ⟨7⟩, .step 0 [], .step 0 []]

def ended : List NameEvent := [.revoke 1, .unregister 1, .sweep 1]

def afterEnd : NameRace := (play next (initial 0) (named ++ .step 0 [] :: ended)).getD (initial 0)

theorem name_swept_with_flow : afterEnd.phases 1 = .finalized ∧ afterEnd.registry.rows.all (·.2.flow ≠ 1) = true := by
  have reached : Reach next (fun race event => race.inTime event = true) (initial 0) afterEnd :=
    reach_of_play (named ++ .step 0 [] :: ended) _ (by decide) rfl
  refine ⟨rfl, all_eq_true.mpr fun row member => ?_⟩
  have kept := names_end_with_flow 0 afterEnd reached row.1 row.2 member
  rw [decide_eq_true_eq]
  intro same
  exact kept (same ▸ rfl)

def lateName : NameRace := (play next (initial 0) (named ++ ended ++ [.step 0 []])).getD (initial 0)

theorem late_name_stays : Reach next (fun _ _ => True) (initial 0) lateName ∧ Quiescent lateName ∧
    lateName.registry.rows = [("worker", ⟨⟨7⟩, 1⟩)] ∧ lateName.phases 1 = .finalized := by
  refine ⟨reach_of_play (named ++ ended ++ [.step 0 []]) _ (all_meet_of_forall (fun _ _ => trivial) _ _) rfl, ?_, rfl, rfl⟩
  constructor
  · decide
  · intro flow
    by_cases same : flow = 1
    · subst same
      decide
    · have unborn : lateName.phases flow = .unborn := by
        change update (update (update (update _ _ _) _ _) _ _) _ _ flow = _
        simp only [update_of_ne same]
        rfl
      simp [unborn]

end NameRace

end Byteflow
