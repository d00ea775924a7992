import Byteflow.Assoc

abbrev Buckets (φ κ : Type) := φ → Option (List κ)

namespace Buckets

variable {φ κ : Type} [DecidableEq φ]

def keys (buckets : Buckets φ κ) (name : φ) : List κ := (buckets name).getD []

def push (buckets : Buckets φ κ) (name : φ) (key : κ) : Buckets φ κ :=
  Function.update buckets name (some (buckets.keys name ++ [key]))

-- A vector that becomes empty is removed.
def drop [DecidableEq κ] (buckets : Buckets φ κ) (name : φ) (key : κ) : Buckets φ κ :=
  let left := (buckets.keys name).filter (· ≠ key)
  Function.update buckets name (if left = [] then none else some left)

def clear (buckets : Buckets φ κ) (name : φ) : Buckets φ κ := Function.update buckets name none

def Full (buckets : Buckets φ κ) : Prop := ∀ name, buckets name ≠ some []

section Lists

variable {buckets : Buckets φ κ} {name other : φ} {key entry : κ}

theorem keys_update (bucket : Option (List κ)) :
    keys (Function.update buckets name bucket) other = if other = name then bucket.getD [] else buckets.keys other := by
  rw [keys, Function.update_apply]
  split <;> rfl

theorem update_full (full : Full buckets) {bucket : Option (List κ)} (some_ : bucket ≠ some []) :
    Full (Function.update buckets name bucket) := by
  intro other
  rw [Function.update_apply]
  split
  · exact some_
  · exact full other

theorem mem_push : entry ∈ (buckets.push name key).keys other ↔ entry ∈ buckets.keys other ∨ other = name ∧ entry = key := by
  rw [push, keys_update]
  by_cases same : other = name <;> simp [same]

theorem mem_drop [DecidableEq κ] : entry ∈ (buckets.drop name key).keys other ↔ entry ∈ buckets.keys other ∧ ¬ (other = name ∧ entry = key) := by
  have kept : ∀ left : List κ, (if left = [] then none else some left).getD [] = left := by
    intro left
    split <;> simp_all
  rw [drop, keys_update, kept]
  by_cases same : other = name <;> simp [same]

theorem drop_full [DecidableEq κ] (full : Full buckets) : Full (buckets.drop name key) := by
  apply update_full full
  split <;> simp_all

theorem mem_pushes (names : List φ) : entry ∈ keys (names.foldl (fun b name => push b name key) buckets) other ↔
    entry ∈ buckets.keys other ∨ other ∈ names ∧ entry = key := by
  induction names generalizing buckets with
  | nil => simp
  | cons name rest ih => rw [List.foldl_cons, ih, mem_push, List.mem_cons, or_and_right, or_assoc]

theorem mem_drops [DecidableEq κ] (names : List φ) : entry ∈ keys (names.foldl (fun b name => drop b name key) buckets) other ↔
    entry ∈ buckets.keys other ∧ ¬ (other ∈ names ∧ entry = key) := by
  induction names generalizing buckets with
  | nil => simp
  | cons name rest ih => rw [List.foldl_cons, ih, mem_drop, List.mem_cons, or_and_right, not_or, and_assoc]

end Lists

end Buckets

-- A map with secondary maps from the names that a row mentions to its key. A
-- name says which of the secondary maps it belongs to.
structure IndexedRows (κ ν φ : Type) where
  rows : List (κ × ν)
  index : Buckets φ κ

namespace IndexedRows

variable {κ ν φ : Type} [DecidableEq κ] [DecidableEq φ]

def empty : IndexedRows κ ν φ := ⟨[], fun _ => none⟩

section Operations

variable (mentions : ν → List φ)

def insert (table : IndexedRows κ ν φ) (key : κ) (value : ν) : IndexedRows κ ν φ where
  rows := Assoc.insert key value table.rows
  index := (mentions value).foldl (fun b name => b.push name key) table.index

def remove (table : IndexedRows κ ν φ) (key : κ) : IndexedRows κ ν φ × Option ν :=
  match table.rows.lookup key with
  | none => (table, none)
  | some value =>
    (⟨Assoc.remove key table.rows, (mentions value).foldl (fun b name => b.drop name key) table.index⟩, some value)

def removeEach (table : IndexedRows κ ν φ) : List κ → IndexedRows κ ν φ × List (κ × ν)
  | [] => (table, [])
  | key :: rest =>
    match table.rows.lookup key with
    | none => table.removeEach rest
    | some value =>
      let (after, taken) := (table.remove mentions key).1.removeEach rest
      (after, (key, value) :: taken)

-- The bucket of the name is taken as a whole; the rows leave their other buckets.
def sweep (table : IndexedRows κ ν φ) (name : φ) : IndexedRows κ ν φ × List (κ × ν) :=
  removeEach (fun value => (mentions value).filter (· ≠ name)) ⟨table.rows, table.index.clear name⟩ (table.index.keys name)

structure Agrees (table : IndexedRows κ ν φ) : Prop where
  unique : (table.rows.map Prod.fst).Nodup
  listed : ∀ name key, key ∈ table.index.keys name ↔ ∃ value, (key, value) ∈ table.rows ∧ name ∈ mentions value
  full : table.index.Full

structure Swept (table : IndexedRows κ ν φ) (name : φ) (result : IndexedRows κ ν φ × List (κ × ν)) : Prop where
  agrees : Agrees mentions result.1
  left : result.1.rows = table.rows.filter fun row => name ∉ mentions row.2
  taken : result.2.Perm (table.rows.filter fun row => name ∈ mentions row.2)

end Operations

variable {mentions : ν → List φ} {table : IndexedRows κ ν φ}

omit [DecidableEq κ] [DecidableEq φ] in
theorem empty_agrees : Agrees mentions (empty : IndexedRows κ ν φ) := ⟨List.nodup_nil, by simp [empty, Buckets.keys], nofun⟩

theorem insert_rows {key : κ} {value : ν} (fresh : key ∉ table.rows.map Prod.fst) :
    (table.insert mentions key value).rows = (key, value) :: table.rows :=
  congrArg (List.cons _) (Assoc.remove_absent fresh)

theorem insert_agrees (agrees : Agrees mentions table) {key : κ} (value : ν) (fresh : key ∉ table.rows.map Prod.fst) :
    Agrees mentions (table.insert mentions key value) := by
  constructor
  · exact Assoc.insert_distinct key value agrees.unique
  · intro name entry
    rw [insert_rows fresh, insert, Buckets.mem_pushes, agrees.listed]
    simp only [List.mem_cons, Prod.mk.injEq, or_and_right, exists_or]
    rw [or_comm, and_comm]
    simp
  · exact List.foldlRecOn (motive := Buckets.Full) _ _ agrees.full fun b full name _ => Buckets.update_full full (by simp)

theorem remove_agrees (agrees : Agrees mentions table) (key : κ) : Agrees mentions (table.remove mentions key).1 := by
  rw [remove]
  cases found : table.rows.lookup key with
  | none => exact agrees
  | some value =>
    constructor
    · exact Assoc.remove_distinct key agrees.unique
    · intro name entry
      simp only [Buckets.mem_drops, agrees.listed, Assoc.mem_remove]
      constructor
      · rintro ⟨⟨old, row, named⟩, apart⟩
        refine ⟨old, ⟨row, ?_⟩, named⟩
        rintro rfl
        have same := List.inj_on_of_nodup_map agrees.unique row (Assoc.mem_of_lookup found) rfl
        cases same
        exact apart ⟨named, rfl⟩
      · rintro ⟨old, ⟨row, different⟩, named⟩
        exact ⟨⟨old, row, named⟩, fun same => different same.2⟩
    · exact List.foldlRecOn (motive := Buckets.Full) _ _ agrees.full fun b full name _ => Buckets.drop_full full

theorem remove_rows (key : κ) : (table.remove mentions key).1.rows = Assoc.remove key table.rows := by
  rw [remove]
  cases found : table.rows.lookup key with
  | none => exact (Assoc.remove_absent (Assoc.lookup_none_absent found)).symm
  | some value => rfl

theorem remove_value (key : κ) : (table.remove mentions key).2 = table.rows.lookup key := by
  rw [remove]
  cases table.rows.lookup key <;> rfl

theorem remove_each_spec (agrees : Agrees mentions table) (keys : List κ) :
    Agrees mentions (table.removeEach mentions keys).1 ∧
      (table.removeEach mentions keys).1.rows = table.rows.filter (·.1 ∉ keys) ∧
      (table.removeEach mentions keys).2.Perm (table.rows.filter (·.1 ∈ keys)) := by
  induction keys generalizing table with
  | nil => exact ⟨agrees, by simp [removeEach], by simp [removeEach]⟩
  | cons key rest ih =>
    rw [removeEach]
    cases found : table.rows.lookup key with
    | none =>
      have other : ∀ row ∈ table.rows, row.1 ≠ key := by
        intro row member same
        exact Assoc.lookup_none_absent found (List.mem_map.mpr ⟨row, member, same⟩)
      obtain ⟨kept, left, taken⟩ := ih agrees
      refine ⟨kept, left.trans (List.filter_congr ?_), taken.trans (.of_eq (List.filter_congr ?_))⟩
      · intro row member
        simp [other row member]
      · intro row member
        simp [other row member]
    | some value =>
      obtain ⟨kept, left, taken⟩ := ih (remove_agrees agrees key)
      rw [remove_rows] at left taken
      refine ⟨kept, left.trans ?_, (taken.cons _).trans ?_⟩
      · rw [Assoc.remove, List.filter_filter]
        apply List.filter_congr
        intro row _
        simp only [List.mem_cons, not_or, Bool.decide_and]
        exact Bool.and_comm _ _
      · have split := ((Assoc.perm_remove agrees.unique found).filter (·.1 ∈ key :: rest)).symm
        rw [List.filter_cons_of_pos (by simp)] at split
        refine .trans (.of_eq (congrArg _ (List.filter_congr ?_))) split
        intro row member
        simp [(Assoc.mem_remove.mp member).2]

theorem sweep_spec (agrees : Agrees mentions table) (name : φ) : Swept mentions table name (table.sweep mentions name) := by
  have cleared : Agrees (fun value => (mentions value).filter (· ≠ name)) ⟨table.rows, table.index.clear name⟩ := by
    constructor
    · exact agrees.unique
    · intro other key
      rw [Buckets.clear, Buckets.keys_update]
      by_cases same : other = name <;> simp [same, agrees.listed]
    · exact Buckets.update_full agrees.full nofun
  obtain ⟨kept, left, taken⟩ := remove_each_spec cleared (table.index.keys name)
  have mentioned : ∀ row ∈ table.rows, row.1 ∈ table.index.keys name ↔ name ∈ mentions row.2 := by
    intro row member
    rw [agrees.listed]
    refine ⟨?_, fun named => ⟨row.2, member, named⟩⟩
    rintro ⟨value, there, named⟩
    have same := List.inj_on_of_nodup_map agrees.unique there member rfl
    exact same ▸ named
  have rows : (table.sweep mentions name).1.rows = table.rows.filter fun row => name ∉ mentions row.2 :=
    left.trans (List.filter_congr fun row member => by simp [mentioned row member])
  refine ⟨⟨kept.unique, fun other key => ?_, kept.full⟩, rows,
    taken.trans (.of_eq (List.filter_congr fun row member => by simp [mentioned row member]))⟩
  rw [sweep, kept.listed]
  apply exists_congr
  intro value
  apply and_congr_right
  intro row
  rw [List.mem_filter, decide_eq_true_iff]
  refine and_iff_left_of_imp ?_
  rintro there rfl
  rw [← sweep, rows] at row
  simp [there] at row

end IndexedRows
