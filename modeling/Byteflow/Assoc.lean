import Mathlib

namespace Assoc

variable {κ ν : Type} [DecidableEq κ]

theorem lookup_cons (key other : κ) (value : ν) (rows : List (κ × ν)) :
    List.lookup key ((other, value) :: rows) = if key = other then some value else rows.lookup key := by
  by_cases same : key = other
  · simp [same]
  · rw [List.lookup_cons, beq_false_of_ne same, if_neg same]

theorem mem_of_lookup {key : κ} {value : ν} {rows : List (κ × ν)} (found : rows.lookup key = some value) :
    (key, value) ∈ rows := by
  obtain ⟨before, after, rfl, _⟩ := List.lookup_eq_some_iff.mp found
  simp

theorem lookup_filter_ne (key removed : κ) (rows : List (κ × ν)) :
    (rows.filter (·.1 ≠ removed)).lookup key = if key = removed then none else rows.lookup key := by
  induction rows with
  | nil => simp
  | cons row rest ih =>
    obtain ⟨other, value⟩ := row
    by_cases dropped : other = removed
    · rw [List.filter_cons_of_neg (by simpa using dropped), ih, lookup_cons]
      by_cases same : key = removed
      · simp [same]
      · simp [same, show key ≠ other from fun eq => same (eq.trans dropped)]
    · rw [List.filter_cons_of_pos (by simpa using dropped), lookup_cons, lookup_cons, ih]
      by_cases same : key = other
      · simp [same, dropped]
      · simp [same]

theorem lookup_filter_found (keep : ν → Bool) {key : κ} {value : ν} {rows : List (κ × ν)}
    (found : rows.lookup key = some value) (kept : keep value = true) :
    (rows.filter fun row => keep row.2).lookup key = some value := by
  induction rows with
  | nil => cases found
  | cons row rest ih =>
    obtain ⟨other, current⟩ := row
    rw [lookup_cons] at found
    by_cases same : key = other
    · rw [if_pos same] at found
      cases found
      rw [List.filter_cons_of_pos (by exact kept), lookup_cons, if_pos same]
    · rw [if_neg same] at found
      by_cases keeps : keep current = true
      · rw [List.filter_cons_of_pos (by exact keeps), lookup_cons, if_neg same]
        exact ih found
      · rw [List.filter_cons_of_neg (by exact keeps)]
        exact ih found

omit [DecidableEq κ] in
theorem lookup_filter_key [BEq κ] [LawfulBEq κ] (keep : κ → Bool) {key : κ} (kept : keep key = true) (rows : List (κ × ν)) :
    (rows.filter fun row => keep row.1).lookup key = rows.lookup key := by
  induction rows with
  | nil => rfl
  | cons row rest ih =>
    obtain ⟨other, value⟩ := row
    by_cases same : key = other
    · subst same
      rw [List.filter_cons_of_pos (by exact kept), List.lookup_cons_self, List.lookup_cons_self]
    · rw [List.lookup_cons, beq_false_of_ne same]
      by_cases keeps : keep other = true
      · rw [List.filter_cons_of_pos (by exact keeps), List.lookup_cons, beq_false_of_ne same]
        exact ih
      · rw [List.filter_cons_of_neg (by exact keeps)]
        exact ih

section Maps

def remove (key : κ) (rows : List (κ × ν)) : List (κ × ν) := rows.filter (·.1 ≠ key)

def insert (key : κ) (value : ν) (rows : List (κ × ν)) : List (κ × ν) := (key, value) :: remove key rows

def total (weigh : ν → Nat) (rows : List (κ × ν)) : Nat := (rows.map fun row => weigh row.2).sum

variable {key : κ} {value : ν} {rows : List (κ × ν)}

theorem mem_remove {row : κ × ν} : row ∈ remove key rows ↔ row ∈ rows ∧ row.1 ≠ key := by
  simp [remove]

theorem mem_insert {row : κ × ν} : row ∈ insert key value rows ↔ row = (key, value) ∨ (row ∈ rows ∧ row.1 ≠ key) := by
  rw [insert, List.mem_cons, mem_remove]

theorem remove_distinct (key : κ) (distinct : (rows.map Prod.fst).Nodup) : ((remove key rows).map Prod.fst).Nodup :=
  (List.filter_sublist.map Prod.fst).nodup distinct

theorem insert_distinct (key : κ) (value : ν) (distinct : (rows.map Prod.fst).Nodup) :
    ((insert key value rows).map Prod.fst).Nodup := by
  rw [insert, List.map_cons, List.nodup_cons]
  refine ⟨fun present => ?_, remove_distinct key distinct⟩
  obtain ⟨row, member, same⟩ := List.mem_map.mp present
  exact (mem_remove.mp member).2 same

theorem remove_absent (absent : key ∉ rows.map Prod.fst) : remove key rows = rows := by
  refine List.filter_eq_self.mpr fun row member => decide_eq_true fun same => absent ?_
  exact List.mem_map.mpr ⟨row, member, same⟩

theorem lookup_none_absent (unknown : rows.lookup key = none) : key ∉ rows.map Prod.fst := by
  intro present
  obtain ⟨row, member, same⟩ := List.mem_map.mp present
  have missing := List.lookup_eq_none_iff.mp unknown row member
  rw [same] at missing
  simp at missing

theorem perm_remove (distinct : (rows.map Prod.fst).Nodup) (found : rows.lookup key = some value) :
    rows.Perm ((key, value) :: remove key rows) := by
  induction rows with
  | nil => cases found
  | cons row rest ih =>
    obtain ⟨other, current⟩ := row
    rw [List.map_cons, List.nodup_cons] at distinct
    rw [lookup_cons] at found
    by_cases same : key = other
    · subst same
      rw [if_pos rfl] at found
      cases found
      have gone : remove key ((key, value) :: rest) = rest := by
        rw [remove, List.filter_cons_of_neg (by simp)]
        exact remove_absent distinct.1
      rw [gone]
    · rw [if_neg same] at found
      rw [remove, List.filter_cons_of_pos (by simpa using Ne.symm same)]
      exact ((ih distinct.2 found).cons (other, current)).trans (.swap _ _ _)

omit [DecidableEq κ] in
theorem total_cons (weigh : ν → Nat) (key : κ) (value : ν) (rows : List (κ × ν)) :
    total weigh ((key, value) :: rows) = weigh value + total weigh rows := by
  rw [total, List.map_cons, List.sum_cons, total]

theorem total_remove (weigh : ν → Nat) (distinct : (rows.map Prod.fst).Nodup) (found : rows.lookup key = some value) :
    total weigh (remove key rows) + weigh value = total weigh rows := by
  have sums := ((perm_remove distinct found).map fun row => weigh row.2).sum_nat
  rw [List.map_cons, List.sum_cons] at sums
  rw [total, total, sums, Nat.add_comm]

theorem total_insert_new (weigh : ν → Nat) (value : ν) (new : key ∉ rows.map Prod.fst) :
    total weigh (insert key value rows) = weigh value + total weigh rows := by
  rw [insert, remove_absent new, total_cons]

theorem total_insert_old (weigh : ν → Nat) (distinct : (rows.map Prod.fst).Nodup) {old : ν}
    (found : rows.lookup key = some old) (value : ν) :
    total weigh (insert key value rows) + weigh old = total weigh rows + weigh value := by
  have removed := total_remove weigh distinct found
  rw [insert, total_cons]
  omega

end Maps

end Assoc
