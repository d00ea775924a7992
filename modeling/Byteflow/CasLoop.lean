import Mathlib

namespace CasLoop

-- A counter changed by loops of a load and a weak compare-exchange. apply
-- refuses the count a call loads or says what to write.
variable {κ ε : Type} (apply : κ → Nat → Except ε Nat)

inductive Event (κ : Type) where
  | load (op : κ)
  | exchange (index : Nat) (spurious : Bool)

-- The calls about to exchange, with the count each loaded, and the answers,
-- newest first, by the access that decided each.
structure Shared (κ ε : Type) where
  count : Nat
  pending : List (κ × Nat)
  answers : List (κ × Except ε Nat)

def step (shared : Shared κ ε) : Event κ → Shared κ ε
  | .load op =>
    match apply op shared.count with
    | .error fault => { shared with answers := (op, .error fault) :: shared.answers }
    | .ok _ => { shared with pending := (op, shared.count) :: shared.pending }
  | .exchange index spurious =>
    match shared.pending[index]? with
    | none => shared
    | some (op, current) =>
      let shared := { shared with pending := shared.pending.eraseIdx index }
      match apply op current with
      | .error _ => shared
      | .ok written =>
        -- A failed exchange is a load or leads to one.
        if spurious ∨ shared.count ≠ current then shared
        else { shared with count := written, answers := (op, .ok written) :: shared.answers }

def run (events : List (Event κ)) : Shared κ ε := events.foldl (step apply) ⟨0, [], []⟩

-- The calls made one after the other.
def serve : List κ → Nat × List (κ × Except ε Nat)
  | [] => (0, [])
  | op :: earlier =>
    let (count, answers) := serve earlier
    ((apply op count).toOption.getD count, (op, apply op count) :: answers)

def granted (amount : κ → Int) : κ × Except ε Nat → Int
  | (op, .ok _) => amount op
  | (_, .error _) => 0

structure Accounted (amount : κ → Int) (limit : Nat) (shared : Shared κ ε) : Prop where
  served : serve apply (shared.answers.map Prod.fst) = (shared.count, shared.answers)
  covered : (shared.answers.map (granted amount)).sum ≤ shared.count
  within : shared.count ≤ limit

variable {apply} {amount : κ → Int} {limit : Nat}

theorem accounted_run
    (kept : ∀ op count written, apply op count = .ok written → count ≤ limit → written ≤ limit ∧ amount op + count ≤ written)
    (events : List (Event κ)) : Accounted apply amount limit (run apply events) := by
  refine List.foldlRecOn events (step apply) ⟨rfl, Int.le_refl _, Nat.zero_le _⟩ fun shared held event _ => ?_
  obtain ⟨served, covered, within⟩ := held
  cases event with
  | load op =>
    simp only [step]
    split
    · constructor <;> simp_all [serve, granted, Except.toOption]
    · exact ⟨served, covered, within⟩
  | exchange index spurious =>
    simp only [step]
    split
    · exact ⟨served, covered, within⟩
    · rename_i op current _
      split
      · exact ⟨served, covered, within⟩
      · rename_i written wrote
        split
        · exact ⟨served, covered, within⟩
        · rename_i unchanged
          obtain rfl : shared.count = current := not_not.mp fun differs => unchanged (Or.inr differs)
          obtain ⟨bounded, moved⟩ := kept op shared.count written wrote within
          refine ⟨by simp [serve, served, wrote, Except.toOption], ?_, bounded⟩
          simp only [List.map_cons, List.sum_cons, granted]
          omega

end CasLoop
