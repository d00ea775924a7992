import Byteflow.LinkTable
import Byteflow.Transition

namespace Byteflow

open LinkTable List Function Transition

inductive LinkOutcome where
  | linked (id : LinkId)
  | consumed (dead : FlowId)
deriving DecidableEq, Repr

-- A flow as the directory and the link sweep see it: finalize_one unregisters
-- it and sweeps its links later.
inductive FlowPhase where
  | unborn | live | unregistered | finalized
deriving DecidableEq, Repr

-- A thread in link_if_live, by its next lock step. id is the row it inserted.
inductive LinkCall where
  | starting (a b : FlowId)
  | checkingA (id : LinkId) (a b : FlowId)
  | checkingB (id : LinkId) (a b : FlowId) (aLive : Bool)
  | withdrawing (id : LinkId) (a b dead : FlowId)
  | refused (e : LifecycleError)
  | finished (id : LinkId) (a b : FlowId) (outcome : Except LifecycleError LinkOutcome)
deriving DecidableEq, Repr

structure LinkReport where
  id : LinkId
  dead : FlowId
  peer : FlowId
deriving DecidableEq, Repr

-- reports is the history of the run: what the sweeps handed to finalize_one.
structure LinkRace where
  table : LinkTable
  maxLinks : Nat
  nextLink : LinkId
  phases : FlowId → FlowPhase
  calls : List LinkCall
  reports : List LinkReport

inductive LinkEvent where
  | spawn (flow : FlowId)
  | call (a b : FlowId)
  | step (index : Nat)
  | unregister (flow : FlowId)
  | sweep (flow : FlowId)
deriving DecidableEq, Repr

namespace LinkRace

def initial (maxLinks : Nat) : LinkRace := ⟨.new, maxLinks, 1, fun _ => .unborn, [], []⟩

def isLive (race : LinkRace) (flow : FlowId) : Bool := race.phases flow = .live

def setPhase (race : LinkRace) (flow : FlowId) (phase : FlowPhase) : LinkRace :=
  { race with phases := update race.phases flow phase }

def insertRow (race : LinkRace) (a b : FlowId) : LinkRace × LinkCall :=
  if a = b then (race, .refused .selfRelation)
  else if race.table.hasPair a b then (race, .refused .alreadyLinked)
  else if race.maxLinks ≠ 0 ∧ race.table.links.length ≥ race.maxLinks then
    (race, .refused (.linkLimitReached race.maxLinks))
  else if race.nextLink > MAX_LINK_ID then (race, .refused .unavailable)
  else ({ race with table := race.table.insert race.nextLink a b, nextLink := race.nextLink + 1 },
    .checkingA race.nextLink a b)

def advance (race : LinkRace) : LinkCall → Option (LinkRace × LinkCall)
  | .starting a b => some (race.insertRow a b)
  | .checkingA id a b => some (race, .checkingB id a b (race.isLive a))
  | .checkingB id a b aLive =>
    let bLive := race.isLive b
    some (race, if aLive && bLive then .finished id a b (.ok (.linked id))
      else .withdrawing id a b (if aLive then b else a))
  | .withdrawing id a b dead =>
    let (after, removed) := race.table.unlinkId id
    some ({ race with table := after }, .finished id a b
      (if removed.isSome then .error (.noSuchFlow dead) else .ok (.consumed dead)))
  | .refused _ | .finished .. => none

def next (race : LinkRace) : LinkEvent → Option LinkRace
  | .spawn flow => if race.phases flow = .unborn then some (race.setPhase flow .live) else none
  | .call a b => some { race with calls := race.calls ++ [.starting a b] }
  | .step index =>
    match race.calls[index]? with
    | none => none
    | some call =>
      match race.advance call with
      | none => none
      | some (after, left) => some { after with calls := after.calls.set index left }
  | .unregister flow => if race.phases flow = .live then some (race.setPhase flow .unregistered) else none
  | .sweep flow =>
    if race.phases flow = .unregistered then
      let (after, peers) := race.table.removeLinksOf flow
      some { race.setPhase flow .finalized with
        table := after
        reports := race.reports ++ peers.map fun row => ⟨row.1, flow, row.2⟩ }
    else none

-- No call is between its steps and no flow between its removal from the
-- directory and its sweep.
def Quiescent (race : LinkRace) : Prop :=
  (∀ call ∈ race.calls, (race.advance call).isNone = true) ∧ ∀ flow, race.phases flow ≠ .unregistered

end LinkRace

namespace LinkCall

-- The row a call stands for unless it has withdrawn it itself.
def keeps : LinkCall → Option (LinkId × Link)
  | .checkingA id a b | .checkingB id a b _ | .withdrawing id a b _ => some (id, ⟨a, b⟩)
  | .finished id a b (.ok _) => some (id, ⟨a, b⟩)
  | .starting .. | .refused _ | .finished _ _ _ (.error _) => none

-- The call is still going to see that flow is dead, or has seen that an
-- endpoint is.
def WillWithdraw (id : LinkId) (link : Link) (flow : FlowId) : LinkCall → Prop
  | .checkingA own a b => own = id ∧ link = ⟨a, b⟩
  | .checkingB own a b aLive => own = id ∧ link = ⟨a, b⟩ ∧ (flow = a → aLive = false)
  | .withdrawing own _ _ _ => own = id
  | .starting .. | .refused _ | .finished .. => False

def Shaped : LinkCall → Prop
  | .finished id _ _ (.ok (.linked own)) => own = id
  | .finished _ _ _ (.error e) => ∃ gone, e = .noSuchFlow gone
  | _ => True

end LinkCall

namespace LinkRace

def Reported (race : LinkRace) (id : LinkId) (link : Link) : Prop :=
  ∃ dead, link.Mentions dead ∧ race.phases dead = .finalized ∧ ⟨id, dead, link.peerOf dead⟩ ∈ race.reports

structure Sound (race : LinkRace) : Prop where
  agrees : race.table.Lockstep
  numbered : ∀ id link, (id, link) ∈ race.table.links → id < race.nextLink
  known : ∀ call ∈ race.calls, ∀ id link, call.keeps = some (id, link) →
    (id, link) ∈ race.table.links ∨ race.Reported id link
  apart : Apart LinkCall.keeps race.calls
  owed : ∀ id link flow, (id, link) ∈ race.table.links → link.Mentions flow → race.phases flow = .finalized →
    ∃ call ∈ race.calls, call.WillWithdraw id link flow
  spent : ∀ report ∈ race.reports, report.id < race.nextLink ∧ ∀ link, (report.id, link) ∉ race.table.links
  once : (race.reports.map LinkReport.id).Nodup
  shaped : ∀ call ∈ race.calls, call.Shaped

section Steps

variable {race after : LinkRace} {index : Nat} {call left : LinkCall}

variable (sound : Sound race) {flow : FlowId} {link : Link} {id : LinkId}

include sound

theorem call_numbered (member : call ∈ race.calls) (keeps : call.keeps = some (id, link)) : id < race.nextLink := by
  rcases sound.known call member id link keeps with row | ⟨dead, _, _, reported⟩
  · exact sound.numbered id link row
  · exact (sound.spent _ reported).1

omit sound in
structure CallStep (race : LinkRace) (call : LinkCall) (after : LinkRace) (left : LinkCall) : Prop where
  phases : after.phases = race.phases
  reports : after.reports = race.reports
  calls : after.calls = race.calls
  agrees : after.table.Lockstep
  later : race.nextLink ≤ after.nextLink
  rows : ∀ id link, (id, link) ∈ after.table.links → (id, link) ∈ race.table.links ∨
    race.nextLink ≤ id ∧ id < after.nextLink ∧ ∀ flow, left.WillWithdraw id link flow
  stays : ∀ id link, (id, link) ∈ race.table.links → (id, link) ∈ after.table.links ∨ ∃ own, call.keeps = some (id, own)
  inherits : ∀ id link, left.keeps = some (id, link) → call.keeps = some (id, link) ∨ race.nextLink ≤ id
  keeps : ∀ id link, left.keeps = some (id, link) → (id, link) ∈ after.table.links ∨ race.Reported id link
  owes : ∀ id link flow, (id, link) ∈ after.table.links → link.Mentions flow → race.phases flow = .finalized →
    call.WillWithdraw id link flow → left.WillWithdraw id link flow
  shaped : left.Shaped

theorem sound_call (here : race.calls[index]? = some call) (step : CallStep race call after left) :
    Sound { after with calls := after.calls.set index left } := by
  have member : call ∈ race.calls := mem_of_getElem? here
  have leftIn : left ∈ race.calls.set index left :=
    List.mem_iff_getElem?.mpr ⟨index, List.getElem?_set_self (List.getElem?_eq_some_iff.mp here).1⟩
  have sameReported : ∀ id link, race.Reported id link → LinkRace.Reported { after with calls := after.calls.set index left } id link := by
    intro id link reported
    rw [Reported, step.phases, step.reports]
    exact reported
  rw [step.calls]
  refine ⟨step.agrees, fun id link row => ?_, fun other inside id link keeps => ?_, ?_,
    fun id link flow row mentions dead => ?_, fun report there => ?_, ?_, fun other inside => ?_⟩
  · rcases step.rows id link row with old | ⟨_, bound, _⟩
    · exact Nat.lt_of_lt_of_le (sound.numbered id link old) step.later
    · exact bound
  · obtain ⟨position, found⟩ := List.mem_iff_getElem?.mp inside
    rcases mem_set_cases found with ⟨_, rfl⟩ | ⟨elsewhere, found⟩
    · exact (step.keeps id link keeps).imp_right (sameReported id link)
    · rcases sound.known other (mem_of_getElem? found) id link keeps with row | reported
      · rcases step.stays id link row with stays | ⟨own, mine⟩
        · exact Or.inl stays
        · exact absurd (sound.apart id position index other call link own found here keeps mine) elsewhere
      · exact Or.inr (sameReported id link reported)
  · refine apart_set sound.apart here fun id link mine => (step.inherits id link mine).imp_right ?_
    exact fun fresh other inside own keeps => Nat.not_lt.mpr fresh (call_numbered sound inside keeps)
  · have dead : race.phases flow = .finalized := step.phases ▸ dead
    rcases step.rows id link row with old | ⟨_, _, withdraws⟩
    · obtain ⟨other, inside, withdraws⟩ := sound.owed id link flow old mentions dead
      by_cases same : other = call
      · exact ⟨left, leftIn, step.owes id link flow row mentions dead (same ▸ withdraws)⟩
      · exact ⟨other, mem_set_of_ne here inside same, withdraws⟩
    · exact ⟨left, leftIn, withdraws flow⟩
  · have there : report ∈ race.reports := step.reports ▸ there
    obtain ⟨bound, gone⟩ := sound.spent report there
    refine ⟨Nat.lt_of_lt_of_le bound step.later, fun link row => ?_⟩
    rcases step.rows report.id link row with old | ⟨fresh, _⟩
    · exact gone link old
    · exact Nat.not_lt.mpr fresh bound
  · rw [step.reports]
    exact sound.once
  · rcases mem_or_eq_of_mem_set inside with old | rfl
    · exact sound.shaped other old
    · exact step.shaped

theorem call_step_reads (member : call ∈ race.calls)
    (same : ∀ id link, left.keeps = some (id, link) → call.keeps = some (id, link))
    (owes : ∀ id link flow, link.Mentions flow → race.phases flow = .finalized → call.WillWithdraw id link flow →
      left.WillWithdraw id link flow) (shaped : left.Shaped) : CallStep race call race left where
  phases := rfl
  reports := rfl
  calls := rfl
  agrees := sound.agrees
  later := Nat.le_refl _
  rows _ _ row := Or.inl row
  stays _ _ row := Or.inl row
  inherits id link keeps := Or.inl (same id link keeps)
  keeps id link keeps := sound.known call member id link (same id link keeps)
  owes id link flow _ := owes id link flow
  shaped := shaped

theorem call_step_refused (a b : FlowId) (e : LifecycleError) (member : .starting a b ∈ race.calls) :
    CallStep race (.starting a b) race (.refused e) :=
  call_step_reads sound member (fun _ _ keeps => by cases keeps) (fun _ _ _ _ _ withdraws => withdraws.elim) trivial

theorem call_step_insert (a b : FlowId) (different : a ≠ b) (unlinked : race.table.hasPair a b = false) :
    CallStep race (.starting a b)
      { race with table := race.table.insert race.nextLink a b, nextLink := race.nextLink + 1 }
      (.checkingA race.nextLink a b) where
  phases := rfl
  reports := rfl
  calls := rfl
  agrees := insert_lockstep sound.agrees different unlinked fun link row =>
    Nat.lt_irrefl _ (sound.numbered _ link row)
  later := Nat.le_succ _
  rows id link row := by
    rcases Assoc.mem_insert.mp row with same | ⟨old, _⟩
    · cases same
      exact Or.inr ⟨Nat.le_refl _, Nat.lt_succ_self _, fun _ => ⟨rfl, rfl⟩⟩
    · exact Or.inl old
  stays id link row := Or.inl (Assoc.mem_insert.mpr (Or.inr ⟨row, (sound.numbered id link row).ne⟩))
  inherits id link keeps := by
    cases keeps
    exact Or.inr (Nat.le_refl _)
  keeps id link keeps := by
    cases keeps
    exact Or.inl mem_cons_self
  owes _ _ _ _ _ _ withdraws := withdraws.elim
  shaped := trivial

theorem call_step_withdraw (id : LinkId) (a b dead : FlowId) (member : .withdrawing id a b dead ∈ race.calls) :
    CallStep race (.withdrawing id a b dead) { race with table := (race.table.unlinkId id).1 }
      (.finished id a b
        (if (race.table.unlinkId id).2.isSome then .error (.noSuchFlow dead) else .ok (.consumed dead))) := by
  obtain ⟨agrees, rows, removed⟩ := unlink_id_spec sound.agrees id
  refine ⟨rfl, rfl, rfl, agrees, Nat.le_refl _, fun other link row => Or.inl ((rows other link).mp row).1,
    fun other link row => ?_, fun other link keeps => ?_, fun other link keeps => ?_, fun other link flow row _ _ withdraws => ?_, ?_⟩
  · by_cases same : other = id
    · exact Or.inr ⟨⟨a, b⟩, by rw [same]; rfl⟩
    · exact Or.inl ((rows other link).mpr ⟨row, same⟩)
  · split at keeps
    · cases keeps
    exact Or.inl keeps
  · split at keeps
    · cases keeps
    rename_i there
    cases keeps
    rcases sound.known _ member id ⟨a, b⟩ rfl with row | reported
    · exact absurd (removed.mpr ⟨_, row⟩) there
    · exact Or.inr reported
  · exact absurd withdraws.symm ((rows other link).mp row).2
  · by_cases there : (race.table.unlinkId id).2.isSome = true
    · rw [if_pos there]
      exact ⟨dead, rfl⟩
    · rw [if_neg there]
      trivial

theorem advance_step (member : call ∈ race.calls) (taken : race.advance call = some (after, left)) :
    CallStep race call after left := by
  cases call with
  | starting a b =>
    rw [advance, insertRow] at taken
    by_cases same : a = b
    · rw [if_pos same] at taken
      cases taken
      exact call_step_refused sound a b _ member
    · rw [if_neg same] at taken
      by_cases linked : race.table.hasPair a b = true
      · rw [if_pos linked] at taken
        cases taken
        exact call_step_refused sound a b _ member
      · rw [if_neg linked] at taken
        by_cases full : race.maxLinks ≠ 0 ∧ race.table.links.length ≥ race.maxLinks
        · rw [if_pos full] at taken
          cases taken
          exact call_step_refused sound a b _ member
        · rw [if_neg full] at taken
          by_cases exhausted : race.nextLink > MAX_LINK_ID
          · rw [if_pos exhausted] at taken
            cases taken
            exact call_step_refused sound a b _ member
          · rw [if_neg exhausted] at taken
            cases taken
            exact call_step_insert sound a b same ((Bool.not_eq_true _).mp linked)
  | checkingA id a b =>
    cases taken
    refine call_step_reads sound member (fun _ _ keeps => keeps) (fun other link flow _ dead withdraws => ?_) trivial
    refine ⟨withdraws.1, withdraws.2, ?_⟩
    rintro rfl
    simp [isLive, dead]
  | checkingB id a b aLive =>
    rw [advance] at taken
    cases taken
    by_cases live : (aLive && race.isLive b) = true
    · rw [if_pos live]
      refine call_step_reads sound member (fun _ _ keeps => keeps) (fun other link flow mentions dead withdraws => ?_) rfl
      obtain ⟨aLives, bLives⟩ := Bool.and_eq_true _ _ ▸ live
      obtain ⟨_, rfl, aDead⟩ := withdraws
      rcases mentions with rfl | rfl
      · rw [aDead rfl] at aLives
        cases aLives
      · simp [isLive, dead] at bLives
    · rw [if_neg live]
      exact call_step_reads sound member (fun _ _ keeps => keeps) (fun _ _ _ _ _ withdraws => withdraws.1) trivial
  | withdrawing id a b dead =>
    cases taken
    exact call_step_withdraw sound id a b dead member
  | refused | finished => cases taken

omit sound in
theorem finalized_elsewhere {other : FlowId} {phase : FlowPhase} (alive : race.phases flow ≠ .finalized)
    (stays : phase ≠ .finalized) :
    (race.setPhase flow phase).phases other = .finalized ↔ race.phases other = .finalized := by
  change update race.phases flow phase other = _ ↔ _
  by_cases same : other = flow
  · rw [same, update_self]
    exact ⟨fun final => absurd final stays, fun final => absurd final alive⟩
  · rw [update_of_ne same]

theorem sound_phase {phase : FlowPhase} (alive : race.phases flow ≠ .finalized)
    (stays : phase ≠ .finalized) : Sound (race.setPhase flow phase) where
  agrees := sound.agrees
  numbered := sound.numbered
  known call member id link keeps := by
    refine (sound.known call member id link keeps).imp_right ?_
    rintro ⟨dead, mentions, final, reported⟩
    exact ⟨dead, mentions, (finalized_elsewhere alive stays).mpr final, reported⟩
  apart := sound.apart
  owed id link other row mentions final := sound.owed id link other row mentions ((finalized_elsewhere alive stays).mp final)
  spent := sound.spent
  once := sound.once
  shaped := sound.shaped

theorem sound_start (a b : FlowId) : Sound { race with calls := race.calls ++ [.starting a b] } where
  agrees := sound.agrees
  numbered := sound.numbered
  known call member id link keeps := by
    rcases mem_append.mp member with old | new
    · exact sound.known call old id link keeps
    · rw [mem_singleton.mp new] at keeps
      cases keeps
  apart := apart_append sound.apart rfl
  owed id link flow row mentions final := by
    obtain ⟨call, member, withdraws⟩ := sound.owed id link flow row mentions final
    exact ⟨call, mem_append_left _ member, withdraws⟩
  spent := sound.spent
  once := sound.once
  shaped call member := by
    rcases mem_append.mp member with old | new
    · exact sound.shaped call old
    · rw [mem_singleton.mp new]
      trivial

theorem sound_sweep (flow : FlowId) :
    Sound { race.setPhase flow .finalized with
      table := (race.table.removeLinksOf flow).1
      reports := race.reports ++ (race.table.removeLinksOf flow).2.map fun row => ⟨row.1, flow, row.2⟩ } := by
  obtain ⟨agrees, rows, peers, nodup⟩ := remove_links_of_spec sound.agrees flow
  have stillFinal : ∀ {other : FlowId}, race.phases other = .finalized →
      update race.phases flow .finalized other = .finalized := by
    intro other final
    by_cases same : other = flow
    · rw [same, update_self]
    · rw [update_of_ne same, final]
  refine ⟨agrees, fun id link row => sound.numbered id link ((rows id link).mp row).1, fun call member id link keeps => ?_,
    sound.apart, fun id link other row mentions final => ?_, fun report there => ?_, ?_, sound.shaped⟩
  · rcases sound.known call member id link keeps with row | ⟨dead, mentions, final, reported⟩
    · by_cases mentions : link.Mentions flow
      · refine Or.inr ⟨flow, mentions, update_self .., mem_append_right _ ?_⟩
        exact mem_map.mpr ⟨(id, link.peerOf flow), (peers _ _).mpr ⟨link, row, mentions, rfl⟩, rfl⟩
      · exact Or.inl ((rows id link).mpr ⟨row, mentions⟩)
    · exact Or.inr ⟨dead, mentions, stillFinal final, mem_append_left _ reported⟩
  · obtain ⟨there, notFlow⟩ := (rows id link).mp row
    have apart : other ≠ flow := fun same => notFlow (same ▸ mentions)
    have final : race.phases other = .finalized := (update_of_ne apart ..).symm.trans final
    exact sound.owed id link other there mentions final
  · rcases mem_append.mp there with old | new
    · obtain ⟨bound, gone⟩ := sound.spent report old
      exact ⟨bound, fun link row => gone link ((rows _ link).mp row).1⟩
    · obtain ⟨⟨id, peer⟩, member, rfl⟩ := mem_map.mp new
      obtain ⟨link, row, mentions, _⟩ := (peers id peer).mp member
      refine ⟨sound.numbered id link row, fun other left => ?_⟩
      obtain ⟨there, notFlow⟩ := (rows id other).mp left
      rw [(Prod.mk.inj (inj_on_of_nodup_map sound.agrees.unique there row rfl)).2] at notFlow
      exact notFlow mentions
  · rw [map_append, map_map]
    refine List.Nodup.append sound.once nodup fun id old new => ?_
    obtain ⟨report, there, rfl⟩ := mem_map.mp old
    obtain ⟨⟨id, peer⟩, member, same⟩ := mem_map.mp new
    obtain ⟨link, row, _⟩ := (peers id peer).mp member
    exact (sound.spent report there).2 link (same ▸ row)

theorem sound_next (event : LinkEvent) (taken : race.next event = some after) : Sound after := by
  cases event with
  | spawn flow =>
    obtain ⟨unborn, ⟨⟩⟩ := Option.ite_none_right_eq_some.mp taken
    exact sound_phase sound (by rw [unborn]; decide) (by decide)
  | call a b =>
    cases taken
    exact sound_start sound a b
  | step index =>
    rw [next] at taken
    split at taken
    · cases taken
    rename_i call here
    split at taken
    · cases taken
    rename_i middle left advanced
    cases taken
    exact sound_call sound here (advance_step sound (mem_of_getElem? here) advanced)
  | unregister flow =>
    obtain ⟨live, ⟨⟩⟩ := Option.ite_none_right_eq_some.mp taken
    exact sound_phase sound (by rw [live]; decide) (by decide)
  | sweep flow =>
    obtain ⟨_, ⟨⟩⟩ := Option.ite_none_right_eq_some.mp taken
    exact sound_sweep sound flow

omit sound in
theorem initial_sound (maxLinks : Nat) : Sound (initial maxLinks) where
  agrees := new_lockstep
  numbered _ _ row := absurd row not_mem_nil
  known _ member := absurd member not_mem_nil
  apart _ _ _ _ _ _ _ found := by cases found
  owed _ _ _ row := absurd row not_mem_nil
  spent _ there := absurd there not_mem_nil
  once := nodup_nil
  shaped _ member := absurd member not_mem_nil

theorem quiescent_row (quiet : race.Quiescent)
    (row : (id, link) ∈ race.table.links) (mentions : link.Mentions flow) : race.phases flow ≠ .finalized := by
  intro final
  obtain ⟨call, member, withdraws⟩ := sound.owed id link flow row mentions final
  have ended := quiet.1 call member
  cases call with
  | starting | refused | finished => exact withdraws.elim
  | checkingA | checkingB | withdrawing => cases ended

theorem quiescent_report (quiet : race.Quiescent) {call : LinkCall}
    {dead : FlowId} (member : call ∈ race.calls) (keeps : call.keeps = some (id, link)) (mentions : link.Mentions dead)
    (final : race.phases dead = .finalized) (survives : race.phases (link.peerOf dead) ≠ .finalized) :
    ⟨id, dead, link.peerOf dead⟩ ∈ race.reports := by
  rcases sound.known call member id link keeps with row | ⟨gone, named, ended, reported⟩
  · exact absurd final (quiescent_row sound quiet row mentions)
  · by_cases same : gone = dead
    · exact same ▸ reported
    · exfalso
      by_cases distinct : link.a = link.b
      · have onlyDead : link.a = dead := mentions.elim (fun here => here) (fun there => distinct.trans there)
        have onlyGone : link.a = gone := named.elim (fun here => here) (fun there => distinct.trans there)
        exact same (onlyGone.symm.trans onlyDead)
      · rw [peer_mentions distinct mentions same] at named
        exact survives (named ▸ ended)

omit sound

theorem links_end_with_their_flows (maxLinks : Nat) (race : LinkRace)
    (reached : Reach next (fun _ _ => True) (initial maxLinks) race) :
    (race.Quiescent → ∀ id link flow, (id, link) ∈ race.table.links → link.Mentions flow →
      race.phases flow ≠ .finalized) ∧
    (race.Quiescent → ∀ id a b outcome dead survivor, .finished id a b outcome ∈ race.calls →
      (⟨a, b⟩ : Link).Mentions dead → survivor = (⟨a, b⟩ : Link).peerOf dead → race.phases dead = .finalized →
      race.phases survivor ≠ .finalized →
      (∃ gone, outcome = .error (.noSuchFlow gone)) ∨
      ((∃ gone, outcome = .ok (.consumed gone)) ∨ outcome = .ok (.linked id)) ∧ ⟨id, dead, survivor⟩ ∈ race.reports) ∧
    (race.reports.map LinkReport.id).Nodup := by
  have sound : Sound race :=
    reach_invariant (initial_sound maxLinks) (fun _ event _ holds _ taken => sound_next holds event taken) reached
  refine ⟨fun quiet id link flow row mentions => quiescent_row sound quiet row mentions, ?_, sound.once⟩
  rintro quiet id a b outcome dead survivor member mentions rfl final survives
  have shaped := sound.shaped _ member
  cases outcome with
  | error e =>
    obtain ⟨gone, rfl⟩ := shaped
    exact Or.inl ⟨gone, rfl⟩
  | ok answer =>
    refine Or.inr ⟨?_, quiescent_report sound quiet member rfl mentions final survives⟩
    cases answer with
    | linked own => exact Or.inr (by rw [show own = id from shaped])
    | consumed gone => exact Or.inl ⟨gone, rfl⟩

end Steps

def deathEvents : List LinkEvent :=
  [.spawn 1, .spawn 2, .call 1 2, .step 0, .step 0, .step 0, .unregister 2, .sweep 2]

def afterDeath : LinkRace := (play next (initial 0) deathEvents).getD (initial 0)

theorem after_death_quiescent : afterDeath.Quiescent := by
  refine ⟨by decide, fun flow => ?_⟩
  change update (update (update (update (fun _ => FlowPhase.unborn) 1 .live) 2 .live) 2
    .unregistered) 2 .finalized flow ≠ .unregistered
  by_cases two : flow = 2
  · rw [two, update_self]
    decide
  · rw [update_of_ne two, update_of_ne two, update_of_ne two]
    by_cases one : flow = 1
    · rw [one, update_self]
      decide
    · rw [update_of_ne one]
      decide

theorem linked_death_is_reported : play next (initial 0) deathEvents = some afterDeath ∧
    (∀ id link, (id, link) ∈ afterDeath.table.links → ¬ link.Mentions 2) ∧ ⟨1, 2, 1⟩ ∈ afterDeath.reports := by
  have played : play next (initial 0) deathEvents = some afterDeath := rfl
  have reached := reach_of_play deathEvents (initial 0)
    (all_meet_of_forall (fun _ _ => trivial) deathEvents (initial 0)) played
  have dead : afterDeath.phases 2 = .finalized := rfl
  have linked : .finished 1 1 2 (.ok (.linked 1)) ∈ afterDeath.calls := mem_cons_self
  have peer : (1 : FlowId) = (⟨1, 2⟩ : Link).peerOf 2 := by decide
  obtain ⟨rows, answers, _⟩ := links_end_with_their_flows 0 afterDeath reached
  refine ⟨played, fun id link row mentions => rows after_death_quiescent id link 2 row mentions dead, ?_⟩
  rcases answers after_death_quiescent 1 1 2 (.ok (.linked 1)) 2 1 linked (Or.inr rfl) peer dead (by decide) with
    ⟨_, impossible⟩ | ⟨_, reported⟩
  · cases impossible
  · exact reported

end LinkRace

end Byteflow
