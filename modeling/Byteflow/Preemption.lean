import Byteflow.Interpreter

namespace Byteflow

open List Exec

namespace Vm

def leaves : Except Fault (Option VmResult) → Option (Except Fault VmResult)
  | .error fault => some (.error fault)
  | .ok (some result) => some (.ok result)
  | .ok none => none

theorem run_succ (budget : Nat) (vm : Vm) :
    vm.run (budget + 1) = match leaves (exec step vm).1 with
      | some result => (result, (exec step vm).2)
      | none => (exec step vm).2.run budget := by
  rw [run]
  rcases exec step vm with ⟨fault | _ | result, next⟩ <;> rfl

-- Whether a slice of this budget ends because the budget is used up. Its
-- result is then the same Yield that the Yield opcode gives.
def preempted : Nat → Vm → Bool
  | 0, _ => true
  | budget + 1, vm =>
    match leaves (exec step vm).1 with
    | some _ => false
    | none => preempted budget (exec step vm).2

theorem preempted_yields (budget : Nat) (vm : Vm) (used : vm.preempted budget = true) : (vm.run budget).1 = .ok .yield := by
  induction budget generalizing vm with
  | zero => rfl
  | succ budget ih =>
    rw [preempted] at used
    rw [run_succ]
    cases left : leaves (exec step vm).1 with
    | some result => simp [left] at used
    | none =>
      rw [left] at used
      exact ih _ used

-- The loop of run with no budget: the result it leaves with and the machine
-- at that moment.
inductive Runs : Vm → Except Fault VmResult × Vm → Prop where
  | stops {vm : Vm} {result : Except Fault VmResult} (left : leaves (exec step vm).1 = some result) :
      Runs vm (result, (exec step vm).2)
  | turns {vm : Vm} {outcome : Except Fault VmResult × Vm} (stays : leaves (exec step vm).1 = none)
      (rest : Runs (exec step vm).2 outcome) : Runs vm outcome

-- What the scheduler makes of the k-th result: the machine with which the
-- flow goes on, or none when it does not run again.
abbrev Answers := Nat → Except Fault VmResult → Vm → Option Vm

section Slices

variable (answer : Answers)

-- The results other than preemptions that a flow shows to the scheduler in
-- slices of these budgets, each with the machine at that moment.
def sliced : Nat → List Nat → Vm → List (Except Fault VmResult × Vm)
  | _, [], _ => []
  | k, budget :: rest, vm =>
    if vm.preempted budget then sliced k rest (vm.run budget).2
    else vm.run budget :: (match answer k (vm.run budget).1 (vm.run budget).2 with
      | none => []
      | some next => sliced (k + 1) rest next)

def resumed (k : Nat) (rest : List Nat) (outcome : Except Fault VmResult × Vm) : List (Except Fault VmResult × Vm) :=
  match answer k outcome.1 outcome.2 with
  | none => []
  | some next => sliced answer (k + 1) rest next

inductive Unbounded : Nat → Vm → Nat → Except Fault VmResult × Vm → Prop where
  | here {k : Nat} {vm : Vm} {outcome : Except Fault VmResult × Vm} (runs : Runs vm outcome) : Unbounded k vm 0 outcome
  | later {k n : Nat} {vm next : Vm} {first outcome : Except Fault VmResult × Vm} (runs : Runs vm first)
      (answered : answer k first.1 first.2 = some next) (rest : Unbounded (k + 1) next n outcome) :
      Unbounded k vm (n + 1) outcome

end Slices

section Transparent

variable {answer : Answers} {vm : Vm} {outcome : Except Fault VmResult × Vm} {k budget : Nat} {rest : List Nat}

theorem sliced_preempted (used : vm.preempted budget = true) :
    sliced answer k (budget :: rest) vm = sliced answer k rest (vm.run budget).2 := by
  rw [sliced, if_pos used]

theorem sliced_leaves (left : vm.preempted budget = false) :
    sliced answer k (budget :: rest) vm = vm.run budget :: resumed answer k rest (vm.run budget) := by
  rw [sliced, if_neg (Bool.eq_false_iff.mp left)]
  rfl

theorem sliced_turn (stays : leaves (exec step vm).1 = none) :
    sliced answer k ((budget + 1) :: rest) vm = sliced answer k (budget :: rest) (exec step vm).2 := by
  have same : vm.run (budget + 1) = (exec step vm).2.run budget := by rw [run_succ, stays]
  have alike : vm.preempted (budget + 1) = (exec step vm).2.preempted budget := by rw [preempted, stays]
  simp only [sliced, same, alike]

theorem sliced_stop {result : Except Fault VmResult} (left : leaves (exec step vm).1 = some result) :
    sliced answer k ((budget + 1) :: rest) vm =
      (result, (exec step vm).2) :: resumed answer k rest (result, (exec step vm).2) := by
  have ends : vm.run (budget + 1) = (result, (exec step vm).2) := by rw [run_succ, left]
  have seen : vm.preempted (budget + 1) = false := by rw [preempted, left]
  rw [sliced_leaves seen, ends]

theorem runs_of_slice (left : vm.preempted budget = false) : Runs vm (vm.run budget) := by
  induction budget generalizing vm with
  | zero => cases left
  | succ budget ih =>
    rw [preempted] at left
    rw [run_succ]
    cases stepped : leaves (exec step vm).1 with
    | some result => exact .stops stepped
    | none =>
      rw [stepped] at left
      exact .turns stepped (ih left)

theorem runs_of_preempted (used : vm.preempted budget = true) (runs : Runs (vm.run budget).2 outcome) : Runs vm outcome := by
  induction budget generalizing vm with
  | zero => exact runs
  | succ budget ih =>
    rw [preempted] at used
    rw [run_succ] at runs
    cases stepped : leaves (exec step vm).1 with
    | some result => simp [stepped] at used
    | none =>
      rw [stepped] at used runs
      exact .turns stepped (ih used runs)

theorem unbounded_of_preempted {n : Nat} (used : vm.preempted budget = true)
    (unbounded : Unbounded answer k (vm.run budget).2 n outcome) : Unbounded answer k vm n outcome := by
  cases unbounded with
  | here runs => exact .here (runs_of_preempted used runs)
  | later runs answered rest => exact .later (runs_of_preempted used runs) answered rest

theorem sliced_unbounded (budgets : List Nat) (k : Nat) (vm : Vm) (n : Nat)
    (shown : (sliced answer k budgets vm)[n]? = some outcome) : Unbounded answer k vm n outcome := by
  induction budgets generalizing k vm n with
  | nil => simp [sliced] at shown
  | cons budget rest ih =>
    cases used : vm.preempted budget with
    | true =>
      rw [sliced_preempted used] at shown
      exact unbounded_of_preempted used (ih k _ n shown)
    | false =>
      rw [sliced_leaves used] at shown
      cases n with
      | zero =>
        cases shown
        exact .here (runs_of_slice used)
      | succ n =>
        rw [getElem?_cons_succ, resumed] at shown
        cases answered : answer k (vm.run budget).1 (vm.run budget).2 with
        | none => simp [answered] at shown
        | some next =>
          rw [answered] at shown
          exact .later (runs_of_slice used) answered (ih (k + 1) next n shown)

theorem sliced_reaches (answer : Answers) (runs : Runs vm outcome) : ∃ enough, ∀ k budget rest, (∀ later ∈ rest, 0 < later) →
    enough ≤ rest.length → ∃ used ≤ enough,
      sliced answer k (budget :: rest) vm = outcome :: resumed answer k (rest.drop used) outcome := by
  induction runs with
  | stops left =>
    refine ⟨1, fun k budget rest positive room => ?_⟩
    cases budget with
    | succ budget => exact ⟨0, Nat.zero_le 1, sliced_stop left⟩
    | zero =>
      obtain ⟨_ | budget, below, rfl⟩ := exists_cons_of_length_pos room
      · exact absurd (positive 0 mem_cons_self) (Nat.lt_irrefl 0)
      · refine ⟨1, le_rfl, ?_⟩
        rw [sliced_preempted rfl]
        exact sliced_stop left
  | turns stays _ ih =>
    obtain ⟨enough, ih⟩ := ih
    refine ⟨enough + 1, fun k budget rest positive room => ?_⟩
    cases budget with
    | succ budget =>
      obtain ⟨used, within, shows⟩ := ih k budget rest positive (by omega)
      exact ⟨used, by omega, by rw [sliced_turn stays, shows]⟩
    | zero =>
      obtain ⟨_ | budget, below, rfl⟩ := exists_cons_of_length_pos (Nat.lt_of_lt_of_le (Nat.succ_pos enough) room)
      · exact absurd (positive 0 mem_cons_self) (Nat.lt_irrefl 0)
      · obtain ⟨used, within, shows⟩ := ih k budget below (fun later member => positive later (mem_cons_of_mem _ member))
          (by simpa using room)
        refine ⟨used + 1, by omega, ?_⟩
        rw [sliced_preempted rfl]
        exact (sliced_turn stays).trans shows

theorem unbounded_sliced {n : Nat} (unbounded : Unbounded answer k vm n outcome) : ∃ enough, ∀ budgets : List Nat,
    (∀ budget ∈ budgets, 0 < budget) → enough ≤ budgets.length → (sliced answer k budgets vm)[n]? = some outcome := by
  induction unbounded with
  | here runs =>
    obtain ⟨enough, reaches⟩ := sliced_reaches answer runs
    refine ⟨enough + 1, fun budgets positive room => ?_⟩
    obtain ⟨budget, rest, rfl⟩ := exists_cons_of_length_pos (Nat.lt_of_lt_of_le (Nat.succ_pos enough) room)
    obtain ⟨used, _, shows⟩ := reaches _ budget rest (fun later member => positive later (mem_cons_of_mem _ member))
      (by simpa using room)
    rw [shows]
    rfl
  | later runs answered _ ih =>
    obtain ⟨enough, reaches⟩ := sliced_reaches answer runs
    obtain ⟨more, ih⟩ := ih
    refine ⟨enough + more + 1, fun budgets positive room => ?_⟩
    obtain ⟨budget, rest, rfl⟩ := exists_cons_of_length_pos (Nat.lt_of_lt_of_le (Nat.succ_pos _) room)
    have positive : ∀ later ∈ rest, 0 < later := fun later member => positive later (mem_cons_of_mem _ member)
    have room : enough + more ≤ rest.length := by simpa using room
    obtain ⟨used, within, shows⟩ := reaches _ budget rest positive (by omega)
    rw [shows, getElem?_cons_succ, resumed, answered]
    refine ih _ (fun later member => positive later (mem_of_mem_drop member)) ?_
    rw [length_drop]
    omega

-- A preempted slice reports Yield. However a flow is cut into slices of
-- positive budgets, its n-th result that is not a preemption, and the machine
-- at that moment, are those of the flow that runs with no budget, and the
-- first has an n-th result iff the second has.
theorem preemption_transparent (answer : Answers) (vm : Vm) (budgets : Nat → ℕ+) (n : Nat)
    (outcome : Except Fault VmResult × Vm) :
    (∀ budget (state : Vm), state.preempted budget = true → (state.run budget).1 = .ok .yield) ∧
      ((∃ slices, (sliced answer 0 ((List.range slices).map fun i => (budgets i : Nat)) vm)[n]? = some outcome) ↔
        Unbounded answer 0 vm n outcome) := by
  refine ⟨preempted_yields, ?_⟩
  constructor
  · rintro ⟨slices, shown⟩
    exact sliced_unbounded _ 0 vm n shown
  · intro unbounded
    obtain ⟨enough, reaches⟩ := unbounded_sliced unbounded
    refine ⟨enough, reaches _ ?_ (by simp)⟩
    intro budget member
    obtain ⟨i, _, rfl⟩ := mem_map.mp member
    exact (budgets i).pos

end Transparent

end Vm

end Byteflow
