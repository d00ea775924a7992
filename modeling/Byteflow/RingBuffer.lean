import Mathlib

-- A ring buffer that grows on demand. Every slot access can fail: none stands
-- for the panic of an index out of bounds or of a remainder by zero.
structure RingBuffer (α : Type) where
  slots : List (Option α)
  head : Nat
  len : Nat

namespace RingBuffer

variable {α : Type}

def empty : RingBuffer α := ⟨[], 0, 0⟩

def capacity (ring : RingBuffer α) : Nat := ring.slots.length

def index (ring : RingBuffer α) (logical : Nat) : Option Nat :=
  if ring.capacity = 0 then none else some ((ring.head + logical) % ring.capacity)

def takeSlot (slots : List (Option α)) (index : Nat) : Option (Option α × List (Option α)) :=
  (slots[index]?).map fun value => (value, slots.set index none)

def setSlot (slots : List (Option α)) (index : Nat) (value : Option α) : Option (List (Option α)) :=
  if index < slots.length then some (slots.set index value) else none

def shorter (ring : RingBuffer α) (slots : List (Option α)) (head : Nat) : RingBuffer α :=
  ⟨slots, if ring.len - 1 = 0 then 0 else head, ring.len - 1⟩

def popFront (ring : RingBuffer α) : Option (RingBuffer α × Option α) :=
  if ring.len = 0 then some (ring, none)
  else do
    let (value, slots) ← takeSlot ring.slots ring.head
    some (ring.shorter slots (if ring.capacity = 0 then 0 else (ring.head + 1) % ring.capacity), value)

def pushBack (ring : RingBuffer α) (value : α) : Option (RingBuffer α) :=
  if ring.len < ring.capacity then do
    let slots ← setSlot ring.slots (← ring.index ring.len) (some value)
    some ⟨slots, ring.head, ring.len + 1⟩
  else none

-- Moves the slots behind a hole at logical one place forward.
def shift (head capacity : Nat) : Nat → Nat → List (Option α) → Option (List (Option α))
  | 0, _, slots => some slots
  | count + 1, logical, slots => do
    let (value, slots) ← takeSlot slots ((head + logical + 1) % capacity)
    let slots ← setSlot slots ((head + logical) % capacity) value
    shift head capacity count (logical + 1) slots

def removeAt (ring : RingBuffer α) (logical : Nat) : Option (RingBuffer α × Option α) :=
  if logical ≥ ring.len then some (ring, none)
  else do
    let (value, slots) ← takeSlot ring.slots (← ring.index logical)
    let slots ← shift ring.head ring.capacity (ring.len - 1 - logical) logical slots
    some (ring.shorter slots ring.head, value)

def findFrom (ring : RingBuffer α) (accepts : α → Bool) : Nat → Nat → Option (Option Nat)
  | 0, _ => some none
  | count + 1, logical => do
    match ← ring.slots[← ring.index logical]? with
    | some value => if accepts value then some (some logical) else ring.findFrom accepts count (logical + 1)
    | none => ring.findFrom accepts count (logical + 1)

def find (ring : RingBuffer α) (accepts : α → Bool) : Option (Option Nat) := ring.findFrom accepts ring.len 0

-- The slots in logical order. The old slot file is dropped after this, so a
-- read stands for the take of the source.
def unrolled (ring : RingBuffer α) : Option (List (Option α)) :=
  if ring.capacity = 0 then some []
  else (List.range ring.len).mapM fun logical => ring.slots[(ring.head + logical) % ring.capacity]?

def grow (ring : RingBuffer α) (next : Nat) : Option (RingBuffer α) :=
  ring.unrolled.map fun moved => ⟨moved ++ List.replicate (next - moved.length) none, 0, ring.len⟩

-- The ring holds these elements, oldest first.
structure Holds (ring : RingBuffer α) (items : List α) : Prop where
  len : ring.len = items.length
  fits : items.length ≤ ring.slots.length
  head : ring.head < ring.slots.length ∨ ring.head = 0 ∧ items = []
  slot : ∀ logical < items.length, ring.slots[(ring.head + logical) % ring.slots.length]? = some items[logical]?

theorem holds_empty : (empty : RingBuffer α).Holds [] := ⟨rfl, Nat.le_refl _, Or.inr ⟨rfl, rfl⟩, nofun⟩

section Indices

variable {head capacity first second : Nat}

theorem index_inj (inHead : head < capacity) (inFirst : first < capacity) (inSecond : second < capacity)
    (same : (head + first) % capacity = (head + second) % capacity) : first = second := by
  rcases Nat.lt_or_ge (head + first) capacity with low | high <;> rcases Nat.lt_or_ge (head + second) capacity with low' | high'
  · rw [Nat.mod_eq_of_lt low, Nat.mod_eq_of_lt low'] at same
    omega
  · rw [Nat.mod_eq_of_lt low, Nat.mod_eq_sub_mod high', Nat.mod_eq_of_lt (by omega)] at same
    omega
  · rw [Nat.mod_eq_sub_mod high, Nat.mod_eq_of_lt low', Nat.mod_eq_of_lt (by omega)] at same
    omega
  · rw [Nat.mod_eq_sub_mod high, Nat.mod_eq_sub_mod high', Nat.mod_eq_of_lt (by omega), Nat.mod_eq_of_lt (by omega)] at same
    omega

theorem next_index (head logical capacity : Nat) :
    ((head + 1) % capacity + logical) % capacity = (head + (logical + 1)) % capacity := by
  rw [Nat.mod_add_mod, Nat.add_assoc, Nat.add_comm 1 logical]

end Indices

section Operations

variable {ring : RingBuffer α} {items : List α}

variable (holds : ring.Holds items) {logical : Nat}

include holds

theorem holds_head (some_ : items ≠ []) : ring.head < ring.slots.length :=
  holds.head.resolve_right fun ⟨_, nothing⟩ => some_ nothing

theorem holds_index (inside : logical < items.length) :
    ring.index logical = some ((ring.head + logical) % ring.slots.length) ∧
      (ring.head + logical) % ring.slots.length < ring.slots.length := by
  have slots : 0 < ring.slots.length := Nat.lt_of_lt_of_le (Nat.zero_lt_of_lt inside) holds.fits
  exact ⟨if_neg (Nat.ne_of_gt slots), Nat.mod_lt _ slots⟩

theorem slot_ne {first second : Nat} (inFirst : first < items.length)
    (inSecond : second < items.length) (different : first ≠ second) :
    (ring.head + first) % ring.slots.length ≠ (ring.head + second) % ring.slots.length := by
  intro same
  have some_ : items ≠ [] := List.ne_nil_of_length_pos (Nat.zero_lt_of_lt inFirst)
  exact different (index_inj (holds_head holds some_) (Nat.lt_of_lt_of_le inFirst holds.fits)
    (Nat.lt_of_lt_of_le inSecond holds.fits) same)

omit holds in
theorem take_slot {slots : List (Option α)} {index : Nat} {value : Option α} (found : slots[index]? = some value) :
    takeSlot slots index = some (value, slots.set index none) := by rw [takeSlot, found]; rfl

omit holds in
theorem pop_front_nil (holds : ring.Holds []) : ring.popFront = some (ring, none) := if_pos holds.len

omit holds in
theorem pop_front_cons {first : α} {rest : List α} (holds : ring.Holds (first :: rest)) :
    ∃ after, ring.popFront = some (after, some first) ∧ after.Holds rest ∧ after.capacity = ring.capacity := by
  have inHead := holds_head holds (List.cons_ne_nil _ _)
  have here : ring.slots[ring.head]? = some (some first) := by
    have slot := holds.slot 0 (Nat.succ_pos _)
    rwa [Nat.add_zero, Nat.mod_eq_of_lt inHead] at slot
  have len : ring.len - 1 = rest.length := by rw [holds.len, List.length_cons, Nat.add_sub_cancel]
  have cells : ring.capacity ≠ 0 := Nat.ne_of_gt (Nat.zero_lt_of_lt inHead)
  refine ⟨ring.shorter (ring.slots.set ring.head none) ((ring.head + 1) % ring.capacity), ?_, ?_, List.length_set⟩
  · rw [popFront, if_neg (by rw [holds.len]; exact Nat.succ_ne_zero _), take_slot here, if_neg cells]
    rfl
  rw [shorter, len]
  cases rest with
  | nil => exact ⟨rfl, Nat.zero_le _, Or.inr ⟨rfl, rfl⟩, nofun⟩
  | cons second rest =>
    rw [if_neg (show ¬ (second :: rest).length = 0 from Nat.succ_ne_zero _)]
    refine ⟨rfl, ?_, Or.inl ?_, fun logical inside => ?_⟩
    · rw [List.length_set]
      exact Nat.le_of_succ_le holds.fits
    · rw [List.length_set]
      exact Nat.mod_lt _ (Nat.pos_of_ne_zero cells)
    · have away := slot_ne holds (Nat.succ_lt_succ inside) (Nat.succ_pos _) (Nat.succ_ne_zero _)
      rw [Nat.add_zero, Nat.mod_eq_of_lt inHead] at away
      rw [List.length_set, capacity, next_index, List.getElem?_set_ne away.symm, holds.slot _ (Nat.succ_lt_succ inside)]
      rfl

theorem push_back (value : α) (free : items.length < ring.slots.length) :
    ∃ after, ring.pushBack value = some after ∧ after.Holds (items ++ [value]) ∧ after.capacity = ring.capacity := by
  have cells : 0 < ring.slots.length := Nat.zero_lt_of_lt free
  have inHead : ring.head < ring.slots.length := by
    rcases holds.head with inside | ⟨zero, _⟩
    · exact inside
    · rw [zero]
      exact cells
  have isIndex : ring.index ring.len = some ((ring.head + items.length) % ring.slots.length) := by
    rw [index, capacity, if_neg (Nat.ne_of_gt cells), holds.len]
  have inside : (ring.head + items.length) % ring.slots.length < ring.slots.length := Nat.mod_lt _ cells
  refine ⟨⟨ring.slots.set ((ring.head + items.length) % ring.slots.length) (some value), ring.head, ring.len + 1⟩, ?_,
    ⟨?_, ?_, Or.inl ?_, ?_⟩, List.length_set⟩
  · rw [pushBack, if_pos (holds.len ▸ free : ring.len < ring.capacity), isIndex]
    change (setSlot ring.slots ((ring.head + items.length) % ring.slots.length) (some value)).bind _ = _
    rw [setSlot, if_pos inside]
    rfl
  · rw [holds.len, List.length_append]
    rfl
  · rw [List.length_append, List.length_set]
    exact free
  · rw [List.length_set]
    exact inHead
  · intro logical less
    rw [List.length_append, List.length_singleton] at less
    dsimp only
    rw [List.length_set]
    rcases Nat.lt_or_eq_of_le (Nat.le_of_lt_succ less) with old | rfl
    · have away : (ring.head + items.length) % ring.slots.length ≠ (ring.head + logical) % ring.slots.length := by
        intro same
        have := index_inj inHead free (Nat.lt_of_lt_of_le old holds.fits) same
        omega
      rw [List.getElem?_set_ne away, holds.slot logical old, List.getElem?_append_left old]
    · rw [List.getElem?_set_self inside, List.getElem?_concat_length]

omit holds in
-- The loop of remove_at at hole logical: the places before the hole hold the
-- list without the removed element, those behind it the old list.
structure Shifting (ring : RingBuffer α) (items : List α) (removed logical : Nat) (slots : List (Option α)) : Prop where
  length : slots.length = ring.slots.length
  done : ∀ place < logical, slots[(ring.head + place) % ring.slots.length]? = some (items.eraseIdx removed)[place]?
  left : ∀ place, logical < place → place < items.length →
    slots[(ring.head + place) % ring.slots.length]? = some items[place]?

theorem shift_spec {removed : Nat} (count logical : Nat) (slots : List (Option α))
    (behind : removed ≤ logical) (ends : logical + count + 1 = items.length)
    (shifting : Shifting ring items removed logical slots) :
    ∃ after, shift ring.head ring.slots.length count logical slots = some after ∧
      Shifting ring items removed (items.length - 1) after := by
  induction count generalizing logical slots with
  | zero =>
    have last : items.length - 1 = logical := by omega
    exact ⟨slots, rfl, last ▸ shifting⟩
  | succ count ih =>
    have inside : logical < items.length := by omega
    have inNext : logical + 1 < items.length := by omega
    have next := shifting.left (logical + 1) (Nat.lt_succ_self _) inNext
    have apart := slot_ne holds inside inNext (Nat.ne_of_lt (Nat.lt_succ_self _))
    have bound : (ring.head + logical) % ring.slots.length < (slots.set ((ring.head + (logical + 1)) % ring.slots.length) none).length := by
      rw [List.length_set, shifting.length]
      exact (holds_index holds inside).2
    have moved : Shifting ring items removed (logical + 1)
        ((slots.set ((ring.head + (logical + 1)) % ring.slots.length) none).set ((ring.head + logical) % ring.slots.length)
          items[logical + 1]?) := by
      refine ⟨?_, fun place before => ?_, fun place beyond inPlace => ?_⟩
      · rw [List.length_set, List.length_set, shifting.length]
      · rcases Nat.lt_or_eq_of_le (Nat.le_of_lt_succ before) with earlier | rfl
        · have inPlace : place < items.length := by omega
          rw [List.getElem?_set_ne (slot_ne holds inside inPlace (by omega)),
            List.getElem?_set_ne (slot_ne holds inNext inPlace (by omega)), shifting.done place earlier]
        · rw [List.getElem?_set_self bound, List.getElem?_eraseIdx_of_ge behind]
      · rw [List.getElem?_set_ne (slot_ne holds inside inPlace (by omega)),
          List.getElem?_set_ne (slot_ne holds inNext inPlace (by omega)), shifting.left place (by omega) inPlace]
    obtain ⟨after, shifted, spec⟩ := ih (logical + 1) _ (by omega) (by omega) moved
    refine ⟨after, ?_, spec⟩
    rw [shift, Nat.add_assoc ring.head logical 1, take_slot next]
    change (setSlot (slots.set ((ring.head + (logical + 1)) % ring.slots.length) none)
      ((ring.head + logical) % ring.slots.length) items[logical + 1]?).bind _ = _
    rw [setSlot, if_pos bound]
    exact shifted

theorem remove_at_outside (outside : items.length ≤ logical) :
    ring.removeAt logical = some (ring, none) := if_pos (holds.len ▸ outside)

theorem remove_at_inside {value : α} (found : items[logical]? = some value) :
    ∃ after, ring.removeAt logical = some (after, some value) ∧ after.Holds (items.eraseIdx logical) ∧
      after.capacity = ring.capacity := by
  obtain ⟨inside, _⟩ := List.getElem?_eq_some_iff.mp found
  obtain ⟨isIndex, bound⟩ := holds_index holds inside
  have slot := holds.slot logical inside
  rw [found] at slot
  have fewer : (items.eraseIdx logical).length = items.length - 1 := List.length_eraseIdx_of_lt inside
  have hole : Shifting ring items logical logical (ring.slots.set ((ring.head + logical) % ring.slots.length) none) := by
    refine ⟨List.length_set, fun place before => ?_, fun place beyond inPlace => ?_⟩
    · rw [List.getElem?_set_ne (slot_ne holds inside (by omega) (by omega)), holds.slot place (by omega),
        List.getElem?_eraseIdx_of_lt before]
    · rw [List.getElem?_set_ne (slot_ne holds inside inPlace (by omega)), holds.slot place inPlace]
  obtain ⟨slots, shifted, spec⟩ := shift_spec holds (ring.len - 1 - logical) logical _ (Nat.le_refl _)
    (by rw [holds.len]; omega) hole
  refine ⟨ring.shorter slots ring.head, ?_, ?_, spec.length⟩
  · rw [removeAt, if_neg (by rw [holds.len]; omega), isIndex]
    change (takeSlot ring.slots ((ring.head + logical) % ring.slots.length)).bind _ = _
    rw [take_slot slot]
    change (shift ring.head ring.slots.length (ring.len - 1 - logical) logical _).bind _ = _
    rw [shifted]
    rfl
  · have len : ring.len - 1 = (items.eraseIdx logical).length := by rw [fewer, holds.len]
    rw [shorter, len]
    by_cases none_ : (items.eraseIdx logical).length = 0
    · rw [if_pos none_, List.length_eq_zero_iff.mp none_]
      exact ⟨rfl, Nat.zero_le _, Or.inr ⟨rfl, rfl⟩, nofun⟩
    · rw [if_neg none_]
      have inHead := holds_head holds (List.ne_nil_of_length_pos (Nat.zero_lt_of_lt inside))
      refine ⟨rfl, ?_, Or.inl (spec.length ▸ inHead), fun place inPlace => ?_⟩
      · rw [spec.length, fewer]
        exact Nat.le_trans (Nat.sub_le _ _) holds.fits
      · rw [spec.length]
        exact spec.done place (fewer ▸ inPlace)

theorem find_from_spec (accepts : α → Bool) (count logical : Nat) (ends : logical + count = items.length) :
    ring.findFrom accepts count logical = some (((items.drop logical).findIdx? accepts).map (· + logical)) := by
  induction count generalizing logical with
  | zero =>
    rw [List.drop_eq_nil_of_le (by omega)]
    rfl
  | succ count ih =>
    have inside : logical < items.length := by omega
    have slot := holds.slot logical inside
    rw [List.getElem?_eq_getElem inside] at slot
    rw [findFrom, (holds_index holds inside).1, List.drop_eq_getElem_cons inside, List.findIdx?_cons]
    change (ring.slots[(ring.head + logical) % ring.slots.length]?).bind _ = _
    rw [slot]
    change (if accepts items[logical] = true then some (some logical) else ring.findFrom accepts count (logical + 1)) = _
    by_cases accepted : accepts items[logical] = true
    · rw [if_pos accepted, if_pos accepted, Option.map_some, Nat.zero_add]
    · rw [if_neg accepted, if_neg accepted, ih (logical + 1) (by omega), Option.map_map]
      congr 2
      funext place
      exact Nat.add_right_comm place logical 1

theorem find_spec (accepts : α → Bool) : ring.find accepts = some (items.findIdx? accepts) := by
  rw [find, find_from_spec holds accepts ring.len 0 (by rw [holds.len, Nat.zero_add]), List.drop_zero]
  congr 1
  exact Option.map_id'

omit holds in
theorem mapM_some {β : Type} {f : β → Option α} {g : β → α} (entries : List β) (each : ∀ entry ∈ entries, f entry = some (g entry)) :
    entries.mapM f = some (entries.map g) := by
  induction entries with
  | nil => rfl
  | cons entry rest ih =>
    rw [List.mapM_cons, each entry List.mem_cons_self, ih fun other member => each other (List.mem_cons_of_mem _ member)]
    rfl

theorem unrolled_spec : ring.unrolled = some (items.map some) := by
  by_cases cells : ring.capacity = 0
  · have nothing : items = [] := List.length_eq_zero_iff.mp (Nat.le_zero.mp (cells ▸ holds.fits))
    rw [unrolled, if_pos cells, nothing]
    rfl
  · rw [unrolled, if_neg cells, holds.len]
    refine (mapM_some _ fun logical member => holds.slot logical (List.mem_range.mp member)).trans (congrArg some ?_)
    refine List.ext_getElem (by simp) fun place inRange inItems => ?_
    rw [List.length_map] at inItems
    simp [inItems]

theorem grow_spec {next : Nat} (larger : items.length < next) :
    ∃ after, ring.grow next = some after ∧ after.Holds items ∧ after.capacity = next := by
  have length : (items.map some).length = items.length := List.length_map _
  have total : (items.map some ++ List.replicate (next - items.length) none).length = next := by
    rw [List.length_append, length, List.length_replicate]
    omega
  refine ⟨⟨items.map some ++ List.replicate (next - items.length) none, 0, items.length⟩, ?_,
    ⟨rfl, ?_, Or.inl ?_, fun logical inside => ?_⟩, total⟩
  · rw [grow, unrolled_spec holds, Option.map_some, length, holds.len]
  · rw [total]
    exact Nat.le_of_lt larger
  · rw [total]
    exact Nat.zero_lt_of_lt larger
  · rw [total, Nat.zero_add, Nat.mod_eq_of_lt (Nat.lt_trans inside larger), List.getElem?_append_left (by rw [length]; exact inside),
      List.getElem?_map, List.getElem?_eq_getElem inside]
    rfl

end Operations

end RingBuffer
