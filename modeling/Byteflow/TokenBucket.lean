import Byteflow.Transition

namespace Byteflow

open Transition

-- elapsed is in nanoseconds; the product saturates at u128::MAX.
def tokensForElapsed (elapsed : Nat) (perSec : Int) : Int :=
  if perSec ≤ 0 then 0
  else
    let add := min (perSec.toNat * elapsed) (2 ^ 128 - 1) / 1000000000
    if add ≤ 2 ^ 63 - 1 then add else 2 ^ 63 - 1

-- What the holder of last_refill has got to; readAt is when it read the clock.
inductive RefillStage where
  | load (add : Int) (readAt : Nat)
  | exchange (add : Int) (readAt : Nat) (cur : Int)
  | stamp (readAt : Nat)

inductive BucketCall where
  | refill
  | refilling
  | load
  | exchange (cur : Int)
  | returned (granted : Bool)
  | creditLoad (extra : Int)
  | creditExchange (extra cur : Int)
  | credited

-- granted counts the calls that returned true, credits what was credited.
structure TokenBucket where
  capacity : Int
  tokens : Int
  refillPerSec : Int
  lastRefill : Nat
  lock : Option RefillStage
  calls : List BucketCall
  now : Nat
  granted : Nat
  credits : Int

inductive BucketEvent where
  | tryConsume
  | credit (extra : Int)
  | tick (nanos : Nat)
  | poisoned (index : Nat)
  | step (index : Nat) (spurious : Bool)

namespace TokenBucket

-- i64::saturating_add.
def saturatingAdd (a b : Int) : Int := max (-2 ^ 63) (min (a + b) (2 ^ 63 - 1))

def new (capacity refillPerSec : Int) (now : Nat) : TokenBucket :=
  ⟨capacity, capacity, refillPerSec, now, none, [], now, 0, 0⟩

-- One atomic step of a call. A weak compare-exchange may fail although the
-- value is as expected.
def step (bucket : TokenBucket) (spurious : Bool) : BucketCall → Option (TokenBucket × BucketCall)
  | .refill =>
    match bucket.lock with
    | some _ => none
    | none =>
      let elapsed := bucket.now - bucket.lastRefill
      let add := tokensForElapsed elapsed bucket.refillPerSec
      if elapsed ≥ 50000000 ∧ add > 0 then some ({ bucket with lock := some (.load add bucket.now) }, .refilling)
      else some (bucket, .load)
  | .refilling =>
    match bucket.lock with
    | none => none
    | some (.load add readAt) => some ({ bucket with lock := some (.exchange add readAt bucket.tokens) }, .refilling)
    | some (.exchange add readAt cur) =>
      if spurious ∨ bucket.tokens ≠ cur then some ({ bucket with lock := some (.load add readAt) }, .refilling)
      else some ({ bucket with
        tokens := min (saturatingAdd cur add) bucket.capacity, lock := some (.stamp readAt) }, .refilling)
    | some (.stamp _) => some ({ bucket with lastRefill := bucket.now, lock := none }, .load)
  | .load => if bucket.tokens ≤ 0 then some (bucket, .returned false) else some (bucket, .exchange bucket.tokens)
  | .exchange cur =>
    if spurious ∨ bucket.tokens ≠ cur then some (bucket, .load)
    else some ({ bucket with tokens := cur - 1, granted := bucket.granted + 1 }, .returned true)
  | .creditLoad extra => some (bucket, .creditExchange extra bucket.tokens)
  | .creditExchange extra cur =>
    if spurious ∨ bucket.tokens ≠ cur then some (bucket, .creditLoad extra)
    else some ({ bucket with tokens := saturatingAdd cur extra, credits := bucket.credits + extra }, .credited)
  | .returned _ | .credited => none

def next (bucket : TokenBucket) : BucketEvent → Option TokenBucket
  | .tryConsume => some { bucket with calls := bucket.calls ++ [.refill] }
  | .credit extra =>
    some { bucket with calls := bucket.calls ++ [if extra ≤ 0 then .credited else .creditLoad extra] }
  | .tick nanos => some { bucket with now := bucket.now + nanos }
  | .poisoned index =>
    match bucket.calls[index]? with
    | some .refill => some { bucket with calls := bucket.calls.set index (.returned false) }
    | _ => none
  | .step index spurious =>
    match bucket.calls[index]? with
    | none => none
    | some call => (bucket.step spurious call).map fun (after, later) => { after with calls := bucket.calls.set index later }

theorem tokens_for_elapsed_le (elapsed : Nat) (perSec : Int) :
    0 ≤ tokensForElapsed elapsed perSec ∧ tokensForElapsed elapsed perSec * 1000000000 ≤ max perSec 0 * elapsed := by
  unfold tokensForElapsed
  by_cases none : perSec ≤ 0
  · simp [if_pos none, max_eq_right none]
  have rate : max perSec 0 = (perSec.toNat : Int) := by omega
  have floor := Nat.div_mul_le_self (min (perSec.toNat * elapsed) (2 ^ 128 - 1)) 1000000000
  have whole : min (perSec.toNat * elapsed) (2 ^ 128 - 1) / 1000000000 * 1000000000 ≤ perSec.toNat * elapsed := by omega
  have cast : ((perSec.toNat * elapsed : Nat) : Int) = perSec.toNat * elapsed := Nat.cast_mul _ _
  rw [if_neg none, rate, ← cast]
  dsimp only
  split <;> omega

-- The moment up to which the tokens handed out have been earned.
def earnedUntil (bucket : TokenBucket) : Nat :=
  match bucket.lock with
  | some (.stamp readAt) => readAt
  | _ => bucket.lastRefill

-- A refill adds no more than its holder saw earned since the last one.
def Earned (bucket : TokenBucket) : RefillStage → Prop
  | .load add readAt | .exchange add readAt _ => 0 ≤ add ∧ bucket.lastRefill ≤ readAt ∧ readAt ≤ bucket.now ∧
      add * 1000000000 ≤ max bucket.refillPerSec 0 * (readAt - bucket.lastRefill)
  | .stamp readAt => readAt ≤ bucket.now

def Ready : BucketCall → Prop
  | .exchange cur => 0 < cur
  | .creditLoad extra | .creditExchange extra _ => 0 < extra
  | _ => True

structure Bounded (limit perSec : Int) (start : Nat) (bucket : TokenBucket) : Prop where
  capacity : bucket.capacity = limit
  rate : bucket.refillPerSec = perSec
  low : 0 ≤ bucket.tokens
  high : bucket.tokens ≤ 2 ^ 63 - 1
  earned : ∀ stage, bucket.lock = some stage → bucket.Earned stage
  until_now : bucket.earnedUntil ≤ bucket.now
  spent : 1000000000 * ((bucket.granted : Int) + bucket.tokens) ≤
    1000000000 * (limit + bucket.credits) + max perSec 0 * ((bucket.earnedUntil : Int) - start)
  ready : ∀ call ∈ bucket.calls, Ready call

section Steps

variable {limit perSec : Int} {start : Nat} {bucket after : TokenBucket} {call later : BucketCall}

theorem earned_later (perSec : Int) (start : Nat) {readAt later : Nat} (passed : readAt ≤ later) :
    max perSec 0 * ((readAt : Int) - start) ≤ max perSec 0 * ((later : Int) - start) :=
  mul_le_mul_of_nonneg_left (by omega) (le_max_right _ _)

-- The refill's exchange moves the earned time to the moment its clock was read.
theorem earned_split (perSec : Int) (readAt lastRefill start : Nat) : max perSec 0 * ((readAt : Int) - start) =
    max perSec 0 * ((lastRefill : Int) - start) + max perSec 0 * ((readAt : Int) - lastRefill) := by
  rw [← mul_add]
  congr 1
  omega

theorem step_bounded {spurious : Bool} (nonneg : 0 ≤ limit) (fits : limit ≤ 2 ^ 63 - 1) (bounded : Bounded limit perSec start bucket)
    (ready : Ready call) (taken : bucket.step spurious call = some (after, later)) :
    Bounded limit perSec start after ∧ Ready later := by
  obtain ⟨rfl, rfl, low, high, earned, until_now, spent, others⟩ := id bounded
  cases call with
  | returned _ | credited => cases taken
  | refill =>
    simp only [step] at taken
    cases held : bucket.lock with
    | some stage => simp [held] at taken
    | none =>
      simp only [held] at taken
      split_ifs at taken with due <;> cases taken
      · refine ⟨⟨rfl, rfl, low, high, ?_, ?_, ?_, others⟩, trivial⟩
        · rintro stage same
          cases same
          have bound := tokens_for_elapsed_le (bucket.now - bucket.lastRefill) bucket.refillPerSec
          simp only [earnedUntil, held] at until_now
          rw [Nat.cast_sub until_now] at bound
          exact ⟨bound.1, until_now, le_rfl, bound.2⟩
        · simpa only [earnedUntil, held] using until_now
        · simpa only [earnedUntil, held] using spent
      · exact ⟨bounded, trivial⟩
  | refilling =>
    simp only [step] at taken
    cases held : bucket.lock with
    | none => simp [held] at taken
    | some stage =>
      have earnings := earned stage held
      simp only [held] at taken
      simp only [earnedUntil, held] at until_now spent
      cases stage with
      | load add readAt =>
        cases taken
        refine ⟨⟨rfl, rfl, low, high, fun _ same => ?_, until_now, spent, others⟩, trivial⟩
        cases same
        exact earnings
      | exchange add readAt cur =>
        dsimp only at taken until_now spent
        split_ifs at taken with failed <;> cases taken
        · refine ⟨⟨rfl, rfl, low, high, fun _ same => ?_, until_now, spent, others⟩, trivial⟩
          cases same
          exact earnings
        · obtain ⟨grows, order, past, bound⟩ := earnings
          have same : bucket.tokens = cur := by tauto
          have split := earned_split bucket.refillPerSec readAt bucket.lastRefill start
          simp only [saturatingAdd]
          refine ⟨⟨rfl, rfl, ?_, ?_, fun _ same => ?_, past, ?_, others⟩, trivial⟩
          · dsimp only; omega
          · dsimp only; omega
          · cases same
            exact past
          · dsimp only [earnedUntil]
            rw [split]
            omega
      | stamp readAt =>
        cases taken
        have more := earned_later bucket.refillPerSec start earnings
        refine ⟨⟨rfl, rfl, low, high, nofun, le_rfl, ?_, others⟩, trivial⟩
        exact spent.trans (Int.add_le_add_left more _)
  | load =>
    simp only [step] at taken
    split_ifs at taken with empty <;> cases taken
    · exact ⟨bounded, trivial⟩
    · exact ⟨bounded, Int.not_le.mp empty⟩
  | exchange cur =>
    simp only [step] at taken
    split_ifs at taken with failed <;> cases taken
    · exact ⟨bounded, trivial⟩
    · have same : bucket.tokens = cur := by tauto
      have positive : 0 < cur := ready
      refine ⟨{ bounded with low := by dsimp only; omega, high := by dsimp only; omega, spent := ?_ }, trivial⟩
      dsimp only [earnedUntil] at spent ⊢
      push_cast
      omega
  | creditLoad extra =>
    cases taken
    exact ⟨bounded, ready⟩
  | creditExchange extra cur =>
    simp only [step] at taken
    split_ifs at taken with failed <;> cases taken
    · exact ⟨bounded, ready⟩
    · have same : bucket.tokens = cur := by tauto
      have positive : 0 < extra := ready
      simp only [saturatingAdd]
      refine ⟨{ bounded with low := by dsimp only; omega, high := by dsimp only; omega, spent := ?_ }, trivial⟩
      dsimp only [earnedUntil] at spent ⊢
      omega

theorem ready_set {calls : List BucketCall} {index : Nat} (ready : ∀ call ∈ calls, Ready call) (new : Ready later) :
    ∀ call ∈ calls.set index later, Ready call := by
  intro call member
  rcases List.mem_or_eq_of_mem_set member with old | rfl
  · exact ready call old
  · exact new

theorem next_bounded (nonneg : 0 ≤ limit) (fits : limit ≤ 2 ^ 63 - 1) (bounded : Bounded limit perSec start bucket)
    {event : BucketEvent} (taken : bucket.next event = some after) : Bounded limit perSec start after := by
  have joined : ∀ call, Ready call → ∀ other ∈ bucket.calls ++ [call], Ready other := by
    intro call new other member
    rcases List.mem_append.mp member with old | last
    · exact bounded.ready other old
    · rwa [List.mem_singleton.mp last]
  cases event with
  | tryConsume =>
    cases taken
    exact { bounded with ready := joined _ trivial }
  | credit extra =>
    cases taken
    refine { bounded with ready := joined _ ?_ }
    split_ifs with none
    · trivial
    · exact Int.not_le.mp none
  | tick nanos =>
    cases taken
    refine { bounded with earned := fun stage held => ?_, until_now := bounded.until_now.trans (Nat.le_add_right _ _) }
    have before := bounded.earned stage held
    cases stage with
    | load add readAt | exchange add readAt _ =>
      obtain ⟨grows, order, past, bound⟩ := before
      exact ⟨grows, order, past.trans (Nat.le_add_right _ _), bound⟩
    | stamp readAt => exact Nat.le_trans before (Nat.le_add_right _ _)
  | poisoned index =>
    simp only [next] at taken
    split at taken
    · cases taken
      exact { bounded with ready := ready_set bounded.ready trivial }
    · cases taken
  | step index spurious =>
    simp only [next] at taken
    split at taken
    · cases taken
    rename_i call held
    obtain ⟨⟨stepped, later⟩, moved, rfl⟩ := Option.map_eq_some_iff.mp taken
    obtain ⟨kept, new⟩ := step_bounded nonneg fits bounded (bounded.ready call (List.mem_of_getElem? held)) moved
    exact { kept with ready := ready_set bounded.ready new }

-- In nanoseconds, so that elapsed seconds need no division. A negative
-- refill rate adds nothing.
theorem rate_limit_holds (capacity refillPerSec : Int) (start : Nat) (nonneg : 0 ≤ capacity) (fits : capacity ≤ 2 ^ 63 - 1)
    (bucket : TokenBucket) (reached : Reach next (fun _ _ => True) (.new capacity refillPerSec start) bucket) :
    1000000000 * (bucket.granted : Int) ≤
        1000000000 * (capacity + bucket.credits) + max refillPerSec 0 * ((bucket.now : Int) - start) ∧
      (0 ≤ bucket.tokens ∧ bucket.tokens ≤ 2 ^ 63 - 1) ∧ ∀ cur, .exchange cur ∈ bucket.calls → 0 ≤ cur - 1 := by
  have bounded : Bounded capacity refillPerSec start bucket := by
    refine reach_invariant ?_ (fun before event after held _ taken => next_bounded nonneg fits held taken) reached
    refine ⟨rfl, rfl, nonneg, fits, nofun, le_rfl, ?_, nofun⟩
    simp [new, earnedUntil]
  refine ⟨?_, ⟨bounded.low, bounded.high⟩, fun cur member => ?_⟩
  · have spent := bounded.spent
    have low := bounded.low
    have more := earned_later refillPerSec start bounded.until_now
    omega
  · have positive : 0 < cur := bounded.ready _ member
    omega

end Steps

-- The refill after 50 ms is capped; the credit goes beyond the capacity.
def busyEvents : List BucketEvent :=
  [.credit 1, .step 0 false, .step 0 false, .tick 50000000, .tryConsume] ++ List.replicate 6 (.step 1 false)

theorem busy_bucket_bounded : ∃ bucket, Reach next (fun _ _ => True) (.new 1 100 0) bucket ∧
    bucket.calls = [.credited, .returned true] ∧
      1000000000 * (bucket.granted : Int) ≤ 1000000000 * (1 + bucket.credits) + 100 * bucket.now := by
  have reached : Reach next (fun _ _ => True) (.new 1 100 0)
      ⟨1, 0, 100, 50000000, none, [.credited, .returned true], 50000000, 1, 1⟩ :=
    reach_of_play busyEvents _ (all_meet_of_forall (fun _ _ => trivial) _ _) rfl
  obtain ⟨bound, _⟩ := rate_limit_holds 1 100 0 (by decide) (by decide) _ reached
  exact ⟨_, reached, rfl, bound⟩

-- A rate of minus one token a second takes nothing away.
theorem negative_rate_ignored : ∃ bucket, Reach next (fun _ _ => True) (.new 1 (-1) 0) bucket ∧
    ¬ 1000000000 * (bucket.granted : Int) ≤ 1000000000 * (1 + bucket.credits) + -1 * (bucket.now : Int) := by
  have reached : Reach next (fun _ _ => True) (.new 1 (-1) 0)
      ⟨1, 0, -1, 0, none, [.returned true], 2000000000, 1, 0⟩ :=
    reach_of_play (.tick 2000000000 :: .tryConsume :: List.replicate 3 (.step 0 false)) _
      (all_meet_of_forall (fun _ _ => trivial) _ _) rfl
  exact ⟨_, reached, by decide⟩

end TokenBucket

end Byteflow
