import Byteflow.Grid

namespace Byteflow

open List

-- Instants are nanoseconds on one clock. The payload of an entry is what fire
-- reads; the wheel only moves it.
structure TimerEntry (α : Type) where
  deadline : Nat
  payload : α

structure TimerSlot (α : Type) where
  entries : List (TimerEntry α)
  earliest : Option Nat

structure Wheel (α : Type) where
  levels : List (List (TimerSlot α))
  cursor : Nat
  origin : Nat

namespace Wheel

def SLOTS : Nat := 256
def SLOT_SHIFT : Nat := 8
def LEVELS : Nat := 6
def TICK_NS : Nat := 1000000

-- The loop of place: the first level whose window holds the distance.
def climb (delta : Nat) : Nat → Nat → Nat → Nat
  | 0, level, _ => level
  | rounds + 1, level, horizon =>
    if level + 1 < LEVELS ∧ delta ≥ horizon then climb delta rounds (level + 1) (min (horizon * SLOTS) (2 ^ 64 - 1)) else level

def place (cursor when_ : Nat) : Nat × Nat :=
  let when_ := max when_ cursor
  let level := climb (when_ - cursor) LEVELS 0 SLOTS
  (level, (when_ >>> (level * SLOT_SHIFT)) &&& (SLOTS - 1))

theorem climb_level (delta rounds level horizon : Nat) (inside : level < LEVELS) : climb delta rounds level horizon < LEVELS := by
  induction rounds generalizing level horizon with
  | zero => exact inside
  | succ rounds ih =>
    rw [climb]
    split
    · rename_i more
      exact ih _ _ more.1
    · exact inside

theorem place_inside (cursor when_ : Nat) : (place cursor when_).1 < LEVELS ∧ (place cursor when_).2 < SLOTS := by
  refine ⟨climb_level _ _ _ _ (by decide), ?_⟩
  exact Nat.lt_of_le_of_lt Nat.and_le_right (by decide)

variable {α : Type}

def tickOf (wheel : Wheel α) (instant : Nat) : Nat := min ((instant - wheel.origin) / TICK_NS) (2 ^ 64 - 1)

def new (origin : Nat) : Wheel α := ⟨List.replicate LEVELS (List.replicate SLOTS ⟨[], none⟩), 0, origin⟩

end Wheel

namespace TimerSlot

variable {α : Type}

def add (bucket : TimerSlot α) (entry : TimerEntry α) : TimerSlot α :=
  ⟨bucket.entries ++ [entry], some (match bucket.earliest with
    | some prev => if prev ≤ entry.deadline then prev else entry.deadline
    | none => entry.deadline)⟩

def ready (bucket : TimerSlot α) (now : Nat) : Bool :=
  match bucket.earliest with
  | some earliest => earliest ≤ now
  | none => false

structure Tidy (bucket : TimerSlot α) : Prop where
  none_ : bucket.earliest = none → bucket.entries = []
  least : ∀ earliest, bucket.earliest = some earliest →
    (∃ entry ∈ bucket.entries, entry.deadline = earliest) ∧ ∀ entry ∈ bucket.entries, earliest ≤ entry.deadline

theorem tidy_empty : (⟨[], none⟩ : TimerSlot α).Tidy := ⟨fun _ => rfl, nofun⟩

theorem tidy_add {bucket : TimerSlot α} (tidy : bucket.Tidy) (entry : TimerEntry α) : (bucket.add entry).Tidy := by
  refine ⟨nofun, fun earliest isEarliest => ?_⟩
  have last : entry ∈ bucket.entries ++ [entry] := mem_append_right _ (mem_singleton_self _)
  simp only [add, Option.some.injEq] at isEarliest
  cases before : bucket.earliest with
  | none =>
    simp only [before] at isEarliest
    subst isEarliest
    refine ⟨⟨entry, last, rfl⟩, fun other member => ?_⟩
    simp only [add, tidy.none_ before, nil_append, mem_singleton] at member
    exact member ▸ Nat.le_refl _
  | some prev =>
    obtain ⟨⟨first, inside, isFirst⟩, least⟩ := tidy.least prev before
    simp only [before] at isEarliest
    split at isEarliest
    · rename_i sooner
      subst isEarliest
      refine ⟨⟨first, mem_append_left _ inside, isFirst⟩, fun other member => ?_⟩
      rcases mem_append.mp member with old | new
      · exact least other old
      · rw [mem_singleton.mp new]
        exact sooner
    · rename_i later
      subst isEarliest
      refine ⟨⟨entry, last, rfl⟩, fun other member => ?_⟩
      rcases mem_append.mp member with old | new
      · have := least other old
        omega
      · exact (mem_singleton.mp new) ▸ Nat.le_refl _

theorem ready_add {bucket : TimerSlot α} {now : Nat} (closed : bucket.ready now = false) {entry : TimerEntry α}
    (later : now < entry.deadline) : (bucket.add entry).ready now = false := by
  simp only [ready, add, decide_eq_false_iff_not, Nat.not_le]
  cases before : bucket.earliest with
  | none => exact later
  | some prev =>
    simp only [ready, before, decide_eq_false_iff_not, Nat.not_le] at closed
    dsimp only
    split
    · exact closed
    · exact later

theorem closed_later {bucket : TimerSlot α} (tidy : bucket.Tidy) {now : Nat} (closed : bucket.ready now = false) :
    ∀ entry ∈ bucket.entries, now < entry.deadline := by
  intro entry member
  cases before : bucket.earliest with
  | none =>
    rw [tidy.none_ before] at member
    cases member
  | some earliest =>
    simp only [ready, before, decide_eq_false_iff_not, Nat.not_le] at closed
    exact Nat.lt_of_lt_of_le closed ((tidy.least earliest before).2 entry member)

end TimerSlot

namespace Wheel

variable {α : Type}

def insert (wheel : Wheel α) (entry : TimerEntry α) : Option (Wheel α) :=
  let position := place wheel.cursor (max (wheel.tickOf entry.deadline) wheel.cursor)
  (Grid.read wheel.levels position.1 position.2).bind fun bucket =>
    (Grid.write wheel.levels position.1 position.2 (bucket.add entry)).map fun levels => { wheel with levels := levels }

-- The opened bucket of collect_due: due entries leave, the others go back in.
def reinsert (now : Nat) : List (TimerEntry α) → Wheel α → List (TimerEntry α) → Option (Wheel α × List (TimerEntry α))
  | [], wheel, due => some (wheel, due)
  | entry :: batch, wheel, due =>
    if entry.deadline ≤ now then reinsert now batch wheel (due ++ [entry])
    else (wheel.insert entry).bind fun wheel => reinsert now batch wheel due

-- One pass of the two for loops over the slots that are still to be looked at.
def sweep (now : Nat) : List (Nat × Nat) → Wheel α → List (TimerEntry α) → Bool →
    Option (Wheel α × List (TimerEntry α) × Bool)
  | [], wheel, due, opened => some (wheel, due, opened)
  | (level, slot) :: rest, wheel, due, opened =>
    (Grid.read wheel.levels level slot).bind fun bucket =>
      if bucket.ready now then
        (Grid.write wheel.levels level slot ⟨[], none⟩).bind fun levels =>
          (reinsert now bucket.entries { wheel with levels := levels } due).bind fun (wheel, due) =>
            sweep now rest wheel due true
      else sweep now rest wheel due opened

def positions : List (Nat × Nat) := (List.range LEVELS).flatMap fun level => (List.range SLOTS).map fun slot => (level, slot)

-- none is also a loop that has used up its rounds.
def collectLoop (now : Nat) : Nat → Wheel α → List (TimerEntry α) → Option (Wheel α × List (TimerEntry α))
  | 0, _, _ => none
  | rounds + 1, wheel, due =>
    (sweep now positions wheel due false).bind fun (wheel, due, opened) =>
      if opened then collectLoop now rounds wheel due else some (wheel, due)

def collectDue (rounds : Nat) (wheel : Wheel α) (now : Nat) : Option (Wheel α × List (TimerEntry α)) :=
  (collectLoop now rounds { wheel with cursor := wheel.tickOf now } []).map fun (wheel, due) =>
    (wheel, due.mergeSort fun first second => first.deadline ≤ second.deadline)

def sooner (best : Option Nat) (bucket : TimerSlot α) : Option Nat :=
  match bucket.earliest with
  | some earliest => some (match best with
      | some prev => if prev ≤ earliest then prev else earliest
      | none => earliest)
  | none => best

def nextDeadline (wheel : Wheel α) : Option Nat := wheel.levels.flatten.foldl sooner none

def stored (wheel : Wheel α) : List (TimerEntry α) := wheel.levels.flatten.flatMap (·.entries)

structure Sound (wheel : Wheel α) : Prop where
  shape : Grid.Shape LEVELS SLOTS wheel.levels
  tidy : ∀ bucket ∈ wheel.levels.flatten, bucket.Tidy

def Closed (wheel : Wheel α) (now : Nat) (position : Nat × Nat) : Prop :=
  ∀ bucket, Grid.read wheel.levels position.1 position.2 = some bucket → bucket.ready now = false

section Steps

variable {wheel : Wheel α} {now : Nat}

theorem sound_new (origin : Nat) : (new origin : Wheel α).Sound ∧ (new origin : Wheel α).stored = [] := by
  have empty : ∀ bucket ∈ (new origin : Wheel α).levels.flatten, bucket = ⟨[], none⟩ := by
    intro bucket member
    obtain ⟨slots, inLevels, inSlots⟩ := mem_flatten.mp member
    rw [eq_of_mem_replicate inLevels] at inSlots
    exact eq_of_mem_replicate inSlots
  refine ⟨⟨Grid.shape_replicate LEVELS SLOTS _, fun bucket member => empty bucket member ▸ TimerSlot.tidy_empty⟩, ?_⟩
  exact flatMap_eq_nil_iff.mpr fun bucket member => empty bucket member ▸ rfl

theorem swap_perm (front back first second : List (TimerEntry α)) :
    ((front ++ (first ++ back)) ++ second).Perm ((front ++ (second ++ back)) ++ first) := by
  simp only [append_assoc]
  refine List.Perm.append_left front ?_
  calc first ++ (back ++ second)
    _ |>.Perm (back ++ (first ++ second)) := perm_append_comm_assoc first back second
    List.Perm _ (back ++ (second ++ first)) := List.Perm.append_left back perm_append_comm
    List.Perm _ (second ++ (back ++ first)) := perm_append_comm_assoc back second first

theorem written_sound (sound : wheel.Sound) {after : List (List (TimerSlot α))} {position : Nat × Nat} {old new : TimerSlot α}
    (written : Grid.Written LEVELS SLOTS wheel.levels after position.1 position.2 old new) (tidy : new.Tidy) :
    { wheel with levels := after }.Sound ∧ ({ wheel with levels := after }.stored ++ old.entries).Perm (wheel.stored ++ new.entries) := by
  obtain ⟨front, back, before, behind⟩ := written.cells
  refine ⟨⟨written.shape, fun bucket member => ?_⟩, ?_⟩
  · change bucket ∈ after.flatten at member
    rw [behind] at member
    rcases mem_append.mp member with inFront | inBack
    · exact sound.tidy bucket (before ▸ mem_append_left _ inFront)
    · rcases mem_cons.mp inBack with rfl | inBack
      · exact tidy
      · exact sound.tidy bucket (before ▸ mem_append_right _ (mem_cons_of_mem _ inBack))
  · rw [stored, stored, before]
    change ((after.flatten.flatMap _) ++ _).Perm _
    rw [behind]
    simp only [flatMap_append, flatMap_cons]
    exact swap_perm _ _ _ _

theorem insert_spec (sound : wheel.Sound) (entry : TimerEntry α) :
    ∃ after, wheel.insert entry = some after ∧ after.Sound ∧ after.stored.Perm (entry :: wheel.stored) ∧
      ∀ now position, now < entry.deadline → wheel.Closed now position → after.Closed now position := by
  obtain ⟨inLevels, inSlots⟩ := place_inside wheel.cursor (max (wheel.tickOf entry.deadline) wheel.cursor)
  obtain ⟨bucket, found⟩ := Grid.read_inside sound.shape inLevels inSlots
  obtain ⟨levels, wrote, written⟩ := Grid.write_inside sound.shape found (bucket.add entry)
  have tidy := TimerSlot.tidy_add (sound.tidy bucket (Grid.mem_of_read found)) entry
  obtain ⟨kept, perm⟩ := @written_sound _ _ sound levels (_, _) _ _ written tidy
  refine ⟨_, ?_, kept, ?_, ?_⟩
  · rw [insert, found, Option.bind_some, wrote]
    rfl
  · have moved : (wheel.stored ++ (bucket.entries ++ [entry])).Perm ((entry :: wheel.stored) ++ bucket.entries) := by
      rw [← append_assoc]
      exact perm_append_comm
    exact (perm_append_right_iff bucket.entries).mp (perm.trans moved)
  · intro now position later closed other read
    by_cases here : position = place wheel.cursor (max (wheel.tickOf entry.deadline) wheel.cursor)
    · subst here
      rw [written.here] at read
      cases read
      exact TimerSlot.ready_add (closed bucket found) later
    · rw [written.others position.1 position.2 here] at read
      exact closed other read

theorem reinsert_spec (now : Nat) (batch : List (TimerEntry α)) (wheel : Wheel α) (due : List (TimerEntry α)) (sound : wheel.Sound) :
    ∃ after collected, reinsert now batch wheel due = some (after, collected) ∧ after.Sound ∧
      (after.stored ++ collected).Perm (wheel.stored ++ due ++ batch) ∧ (∀ entry ∈ collected, entry ∈ due ∨ entry.deadline ≤ now) ∧
      ∀ position, wheel.Closed now position → after.Closed now position := by
  induction batch generalizing wheel due with
  | nil => exact ⟨wheel, due, rfl, sound, by rw [append_nil], fun _ member => Or.inl member, fun _ closed => closed⟩
  | cons entry batch ih =>
    rw [reinsert]
    by_cases reached : entry.deadline ≤ now
    · rw [if_pos reached]
      obtain ⟨after, collected, done, kept, perm, origin, closed⟩ := ih wheel (due ++ [entry]) sound
      refine ⟨after, collected, done, kept, ?_, fun other member => ?_, closed⟩
      · simpa only [append_assoc, singleton_append] using perm
      · rcases origin other member with old | late
        · rcases mem_append.mp old with old | new
          · exact Or.inl old
          · exact Or.inr (mem_singleton.mp new ▸ reached)
        · exact Or.inr late
    · obtain ⟨middle, inserted, middleSound, more, stays⟩ := insert_spec sound entry
      obtain ⟨after, collected, done, kept, perm, origin, closed⟩ := ih middle due middleSound
      rw [if_neg reached, inserted]
      refine ⟨after, collected, done, kept, perm.trans ?_, origin, fun position before => ?_⟩
      · calc middle.stored ++ due ++ batch
          _ |>.Perm ((entry :: wheel.stored) ++ due ++ batch) := (more.append_right due).append_right batch
          List.Perm _ (wheel.stored ++ due ++ entry :: batch) := perm_middle.symm
      · exact closed position (stays now position (Nat.not_le.mp reached) before)

theorem emptied_closed {levels : List (List (TimerSlot α))} {here position : Nat × Nat} {bucket : TimerSlot α}
    (written : Grid.Written LEVELS SLOTS wheel.levels levels here.1 here.2 bucket ⟨[], none⟩)
    (before : wheel.Closed now position ∨ position = here) : { wheel with levels := levels }.Closed now position := by
  intro other read
  by_cases same : position = here
  · rw [same, written.here] at read
    cases read
    rfl
  · rw [written.others position.1 position.2 same] at read
    exact (before.resolve_right same) other read

theorem sweep_spec (now : Nat) (places : List (Nat × Nat)) (inside : ∀ position ∈ places, position.1 < LEVELS ∧ position.2 < SLOTS)
    (wheel : Wheel α) (due : List (TimerEntry α)) (opened : Bool) (sound : wheel.Sound) :
    ∃ after collected flag, sweep now places wheel due opened = some (after, collected, flag) ∧ after.Sound ∧
      (after.stored ++ collected).Perm (wheel.stored ++ due) ∧ (∀ entry ∈ collected, entry ∈ due ∨ entry.deadline ≤ now) ∧
      ∀ position, wheel.Closed now position ∨ position ∈ places → after.Closed now position := by
  induction places generalizing wheel due opened with
  | nil =>
    refine ⟨wheel, due, opened, rfl, sound, List.Perm.refl _, fun _ member => Or.inl member, ?_⟩
    rintro position (closed | member)
    · exact closed
    · cases member
  | cons here rest ih =>
    obtain ⟨inLevels, inSlots⟩ := inside here mem_cons_self
    have restInside := fun position member => inside position (mem_cons_of_mem here member)
    obtain ⟨bucket, found⟩ := Grid.read_inside sound.shape inLevels inSlots
    rw [sweep, found, Option.bind_some]
    by_cases isReady : bucket.ready now = true
    · obtain ⟨levels, wrote, written⟩ := Grid.write_inside sound.shape found ⟨[], none⟩
      obtain ⟨emptySound, taken⟩ := @written_sound _ _ sound levels here _ _ written TimerSlot.tidy_empty
      obtain ⟨middle, collected, reinserted, middleSound, moved, origin, stays⟩ :=
        reinsert_spec now bucket.entries { wheel with levels := levels } due emptySound
      obtain ⟨after, total, flag, done, kept, perm, totalOrigin, closed⟩ := ih restInside middle collected true middleSound
      rw [if_pos isReady, wrote, Option.bind_some, reinserted]
      refine ⟨after, total, flag, done, kept, perm.trans (moved.trans ?_), fun entry member => ?_, ?_⟩
      · rw [append_nil] at taken
        calc { wheel with levels := levels }.stored ++ due ++ bucket.entries
          _ |>.Perm ({ wheel with levels := levels }.stored ++ bucket.entries ++ due) := by
              simp only [append_assoc]
              exact perm_append_comm.append_left _
          List.Perm _ (wheel.stored ++ due) := taken.append_right due
      · rcases totalOrigin entry member with old | late
        · exact origin entry old
        · exact Or.inr late
      · rintro position (before | member)
        · exact closed position (Or.inl (stays position (emptied_closed written (Or.inl before))))
        · rcases mem_cons.mp member with same | later
          · exact closed position (Or.inl (stays position (emptied_closed written (Or.inr same))))
          · exact closed position (Or.inr later)
    · obtain ⟨after, collected, flag, done, kept, perm, origin, closed⟩ := ih restInside wheel due opened sound
      rw [if_neg isReady]
      refine ⟨after, collected, flag, done, kept, perm, origin, ?_⟩
      rintro position (before | member)
      · exact closed position (Or.inl before)
      · rcases mem_cons.mp member with rfl | later
        · refine closed position (Or.inl fun other read => ?_)
          rw [found] at read
          cases read
          exact Bool.eq_false_iff.mpr isReady
        · exact closed position (Or.inr later)

theorem sweep_idle (places : List (Nat × Nat)) (inside : ∀ position ∈ places, position.1 < LEVELS ∧ position.2 < SLOTS)
    (sound : wheel.Sound) (due : List (TimerEntry α)) (closed : ∀ position ∈ places, wheel.Closed now position) :
    sweep now places wheel due false = some (wheel, due, false) := by
  induction places with
  | nil => rfl
  | cons here rest ih =>
    obtain ⟨inLevels, inSlots⟩ := inside here mem_cons_self
    obtain ⟨bucket, found⟩ := Grid.read_inside sound.shape inLevels inSlots
    have unready := closed here mem_cons_self bucket found
    rw [sweep, found, Option.bind_some, unready, if_neg Bool.false_ne_true]
    exact ih (fun position member => inside position (mem_cons_of_mem here member))
      fun position member => closed position (mem_cons_of_mem here member)

theorem mem_positions {position : Nat × Nat} : position ∈ positions ↔ position.1 < LEVELS ∧ position.2 < SLOTS := by
  obtain ⟨level, slot⟩ := position
  simp only [positions, mem_flatMap, mem_map, mem_range, Prod.mk.injEq]
  constructor
  · rintro ⟨_, inLevels, _, inSlots, rfl, rfl⟩
    exact ⟨inLevels, inSlots⟩
  · intro ⟨inLevels, inSlots⟩
    exact ⟨level, inLevels, slot, inSlots, rfl, rfl⟩

theorem closed_stored (sound : wheel.Sound) (closed : ∀ position ∈ positions, wheel.Closed now position) :
    ∀ entry ∈ wheel.stored, now < entry.deadline := by
  intro entry member
  obtain ⟨bucket, inside, here⟩ := mem_flatMap.mp member
  obtain ⟨level, slot, inLevels, inSlots, read⟩ := Grid.read_of_mem sound.shape inside
  exact TimerSlot.closed_later (sound.tidy bucket inside) (closed (level, slot) (mem_positions.mpr ⟨inLevels, inSlots⟩) bucket read)
    entry here

-- Two passes are enough: the second finds every bucket closed.
theorem collect_loop_spec (now rounds : Nat) (sound : wheel.Sound) :
    ∃ after due, collectLoop now (rounds + 2) wheel [] = some (after, due) ∧ after.Sound ∧ (after.stored ++ due).Perm wheel.stored ∧
      (∀ entry ∈ due, entry.deadline ≤ now) ∧ ∀ entry ∈ after.stored, now < entry.deadline := by
  have inside := fun position (member : position ∈ positions) => mem_positions.mp member
  obtain ⟨after, due, opened, swept, kept, perm, origin, closed⟩ := sweep_spec now positions inside wheel [] false sound
  have allClosed : ∀ position ∈ positions, after.Closed now position := fun position member => closed position (Or.inr member)
  refine ⟨after, due, ?_, kept, by rwa [append_nil] at perm, fun entry member => ?_, closed_stored kept allClosed⟩
  · rw [collectLoop, swept, Option.bind_some]
    cases opened with
    | false => rfl
    | true =>
      dsimp only
      rw [if_pos rfl, collectLoop, sweep_idle positions inside kept due allClosed]
      rfl
  · exact (origin entry member).resolve_left not_mem_nil

structure Collects (wheel : Wheel α) (now : Nat) (after : Wheel α) (due : List (TimerEntry α)) : Prop where
  sound : after.Sound
  returned : due.Perm (wheel.stored.filter (·.deadline ≤ now))
  sorted : due.Pairwise (·.deadline ≤ ·.deadline)
  left : after.stored.Perm (wheel.stored.filter (now < ·.deadline))

theorem collect_due_spec (now : Nat) {rounds : Nat} (enough : 2 ≤ rounds) (sound : wheel.Sound) :
    ∃ after due, wheel.collectDue rounds now = some (after, due) ∧ Collects wheel now after due := by
  obtain ⟨more, rfl⟩ : ∃ more, rounds = more + 2 := ⟨rounds - 2, by omega⟩
  have observed : { wheel with cursor := wheel.tickOf now }.Sound := ⟨sound.shape, sound.tidy⟩
  obtain ⟨after, due, collected, kept, perm, reached, later⟩ := collect_loop_spec now more observed
  have sorts := mergeSort_perm due fun first second => first.deadline ≤ second.deadline
  refine ⟨after, _, ?_, kept, sorts.trans ?_, ?_, ?_⟩
  · rw [collectDue, collected]
    rfl
  · have split := perm.filter (·.deadline ≤ now)
    have gone : after.stored.filter (·.deadline ≤ now) = [] :=
      filter_eq_nil_iff.mpr fun entry member => by simpa using later entry member
    have all : due.filter (·.deadline ≤ now) = due := filter_eq_self.mpr fun entry member => by simpa using reached entry member
    rw [filter_append, gone, all, nil_append] at split
    exact split
  · have sorted := @pairwise_mergeSort _ (fun first second : TimerEntry α => first.deadline ≤ second.deadline)
      (fun _ _ _ first second => by simp only [decide_eq_true_eq] at *; exact Nat.le_trans first second)
      (fun first second => by simp only [Bool.or_eq_true, decide_eq_true_eq]; exact Nat.le_total _ _) due
    exact sorted.imp fun ordered => by simpa using ordered
  · have split := perm.filter (now < ·.deadline)
    have gone : due.filter (now < ·.deadline) = [] :=
      filter_eq_nil_iff.mpr fun entry member => by simpa using reached entry member
    have all : after.stored.filter (now < ·.deadline) = after.stored :=
      filter_eq_self.mpr fun entry member => by simpa using later entry member
    rw [filter_append, gone, all, append_nil] at split
    exact split

theorem sooner_tidy {best : Option Nat} {seen : List (TimerEntry α)} {bucket : TimerSlot α}
    (before : TimerSlot.Tidy ⟨seen, best⟩) (tidy : bucket.Tidy) : TimerSlot.Tidy ⟨seen ++ bucket.entries, sooner best bucket⟩ := by
  cases isEarliest : bucket.earliest with
  | none =>
    rw [sooner, isEarliest, tidy.none_ isEarliest, append_nil]
    exact before
  | some earliest =>
    obtain ⟨⟨first, inside, isFirst⟩, least⟩ := tidy.least earliest isEarliest
    rw [sooner, isEarliest]
    refine ⟨nofun, fun result isResult => ?_⟩
    simp only [Option.some.injEq] at isResult
    cases best with
    | none =>
      subst isResult
      have nothing : seen = [] := before.none_ rfl
      rw [nothing, nil_append]
      exact ⟨⟨first, inside, isFirst⟩, least⟩
    | some prev =>
      obtain ⟨⟨older, olderInside, isOlder⟩, olderLeast⟩ := before.least prev rfl
      dsimp only at isResult olderInside olderLeast
      split at isResult
      · subst isResult
        refine ⟨⟨older, mem_append_left _ olderInside, isOlder⟩, fun other member => ?_⟩
        rcases mem_append.mp member with old | new
        · exact olderLeast other old
        · have := least other new
          omega
      · subst isResult
        refine ⟨⟨first, mem_append_right _ inside, isFirst⟩, fun other member => ?_⟩
        rcases mem_append.mp member with old | new
        · have := olderLeast other old
          omega
        · exact least other new

theorem scan_tidy (buckets : List (TimerSlot α)) (tidy : ∀ bucket ∈ buckets, bucket.Tidy) {best : Option Nat}
    {seen : List (TimerEntry α)} (before : TimerSlot.Tidy ⟨seen, best⟩) :
    TimerSlot.Tidy ⟨seen ++ buckets.flatMap (·.entries), buckets.foldl sooner best⟩ := by
  induction buckets generalizing best seen with
  | nil =>
    rw [flatMap_nil, append_nil]
    exact before
  | cons bucket rest ih =>
    rw [flatMap_cons, ← append_assoc, foldl_cons]
    exact ih (fun other member => tidy other (mem_cons_of_mem bucket member))
      (sooner_tidy before (tidy bucket mem_cons_self))

theorem tidy_min {entries all : List (TimerEntry α)} {earliest : Option Nat} (tidy : TimerSlot.Tidy ⟨entries, earliest⟩)
    (perm : entries.Perm all) : earliest = (all.map (·.deadline)).min? := by
  cases earliest with
  | none =>
    have nothing : entries = [] := tidy.none_ rfl
    rw [nothing] at perm
    rw [perm.nil_eq.symm]
    rfl
  | some least =>
    obtain ⟨⟨first, inside, isFirst⟩, below⟩ := tidy.least least rfl
    refine (min?_eq_some_iff.mpr ⟨?_, fun deadline member => ?_⟩).symm
    · exact mem_map.mpr ⟨first, perm.mem_iff.mp inside, isFirst⟩
    · obtain ⟨entry, isEntry, rfl⟩ := mem_map.mp member
      exact below entry (perm.mem_iff.mpr isEntry)

end Steps

end Wheel

inductive WheelOp (α : Type) where
  | insert (entry : TimerEntry α)
  | collectDue (now : Nat)

namespace WheelOp

variable {α : Type}

-- A collect_due at or past the deadline of the entry.
def reaches (entry : TimerEntry α) : WheelOp α → Bool
  | .insert _ => false
  | .collectDue now => entry.deadline ≤ now

-- The entries inserted by ops for which the call at this position is the first
-- one after their insertion that reaches them.
def returnedAt : List (WheelOp α) → Nat → List (TimerEntry α)
  | [], _ => []
  | _ :: _, 0 => []
  | .insert entry :: later, position + 1 =>
    if later.findIdx? (reaches entry) = some position then entry :: returnedAt later position else returnedAt later position
  | .collectDue _ :: later, position + 1 => returnedAt later position

-- The inserted entries that no call after their insertion reaches.
def remaining : List (WheelOp α) → List (TimerEntry α)
  | [] => []
  | .insert entry :: later => if later.findIdx? (reaches entry) = none then entry :: remaining later else remaining later
  | .collectDue _ :: later => remaining later

end WheelOp

namespace Wheel

variable {α : Type}

def apply (rounds : Nat) (wheel : Wheel α) : WheelOp α → Option (Wheel α × List (TimerEntry α))
  | .insert entry => (wheel.insert entry).map (·, [])
  | .collectDue now => wheel.collectDue rounds now

def run (rounds : Nat) (wheel : Wheel α) : List (WheelOp α) → Option (Wheel α × List (List (TimerEntry α)))
  | [] => some (wheel, [])
  | op :: later =>
    (wheel.apply rounds op).bind fun (wheel, batch) =>
      (wheel.run rounds later).map fun (final, batches) => (final, batch :: batches)

open WheelOp (reaches returnedAt remaining)

-- Of the entries stored at the start, those that the call at a position takes.
def takenAt (ops : List (WheelOp α)) (entries : List (TimerEntry α)) (position : Nat) : List (TimerEntry α) :=
  entries.filter fun entry => ops.findIdx? (reaches entry) = some position

def leftBy (ops : List (WheelOp α)) (entries : List (TimerEntry α)) : List (TimerEntry α) :=
  entries.filter fun entry => ops.findIdx? (reaches entry) = none

section Positions

variable {entry : TimerEntry α} {later : List (WheelOp α)} {entries : List (TimerEntry α)} {position now : Nat}

theorem taken_insert_zero : takenAt (.insert entry :: later) entries 0 = [] := by
  refine filter_eq_nil_iff.mpr fun other _ => ?_
  simp [findIdx?_cons, reaches]

theorem taken_insert_succ : takenAt (.insert entry :: later) entries (position + 1) = takenAt later entries position := by
  refine filter_congr fun other _ => ?_
  simp [findIdx?_cons, reaches]

theorem left_insert : leftBy (.insert entry :: later) entries = leftBy later entries := by
  refine filter_congr fun other _ => ?_
  simp [findIdx?_cons, reaches]

theorem taken_collect_zero : takenAt (.collectDue now :: later) entries 0 = entries.filter (·.deadline ≤ now) := by
  refine filter_congr fun other _ => ?_
  by_cases reached : other.deadline ≤ now
  · simp [findIdx?_cons, reaches, reached]
  · simp [findIdx?_cons, reaches, reached]

theorem taken_collect_succ : takenAt (.collectDue now :: later) entries (position + 1) =
    takenAt later (entries.filter (now < ·.deadline)) position := by
  rw [takenAt, takenAt, filter_filter]
  refine filter_congr fun other _ => ?_
  by_cases reached : other.deadline ≤ now
  · simp [findIdx?_cons, reaches, reached]
  · simp [findIdx?_cons, reaches, reached, Nat.not_le.mp reached]

theorem left_collect : leftBy (.collectDue now :: later) entries = leftBy later (entries.filter (now < ·.deadline)) := by
  rw [leftBy, leftBy, filter_filter]
  refine filter_congr fun other _ => ?_
  by_cases reached : other.deadline ≤ now
  · simp [findIdx?_cons, reaches, reached]
  · simp [findIdx?_cons, reaches, reached, Nat.not_le.mp reached]

theorem taken_inserted : (takenAt later (entry :: entries) position ++ returnedAt later position).Perm
    (takenAt later entries position ++ returnedAt (.insert entry :: later) (position + 1)) := by
  rw [returnedAt, takenAt, takenAt, filter_cons]
  by_cases here : later.findIdx? (reaches entry) = some position
  · rw [if_pos here, if_pos (decide_eq_true here)]
    exact perm_middle.symm
  · rw [if_neg here, if_neg (by simpa using here)]

theorem left_inserted : (leftBy later (entry :: entries) ++ remaining later).Perm
    (leftBy later entries ++ remaining (.insert entry :: later)) := by
  rw [remaining, leftBy, leftBy, filter_cons]
  by_cases here : later.findIdx? (reaches entry) = none
  · rw [if_pos here, if_pos (decide_eq_true here)]
    exact perm_middle.symm
  · rw [if_neg here, if_neg (by simpa using here)]

end Positions

structure Exact (ops : List (WheelOp α)) (entries : List (TimerEntry α)) (final : Wheel α)
    (batches : List (List (TimerEntry α))) : Prop where
  length : batches.length = ops.length
  batch : ∀ (position : Nat) (batch : List (TimerEntry α)), batches[position]? = some batch →
    batch.Perm (takenAt ops entries position ++ returnedAt ops position) ∧ batch.Pairwise (·.deadline ≤ ·.deadline)
  sound : final.Sound
  left : final.stored.Perm (leftBy ops entries ++ remaining ops)

theorem run_exact {rounds : Nat} (enough : 2 ≤ rounds) (ops : List (WheelOp α)) (wheel : Wheel α) (sound : wheel.Sound) :
    ∃ final batches, wheel.run rounds ops = some (final, batches) ∧ Exact ops wheel.stored final batches := by
  induction ops generalizing wheel with
  | nil =>
    have all : leftBy [] wheel.stored = wheel.stored := filter_eq_self.mpr fun _ _ => rfl
    refine ⟨wheel, [], rfl, rfl, nofun, sound, ?_⟩
    rw [all, remaining, append_nil]
  | cons op later ih =>
    cases op with
    | insert entry =>
      obtain ⟨middle, inserted, middleSound, more, _⟩ := insert_spec sound entry
      obtain ⟨final, batches, ran, exact_⟩ := ih middle middleSound
      refine ⟨final, [] :: batches, ?_, ?_, ?_, exact_.sound, ?_⟩
      · rw [run, apply, inserted]
        dsimp only [Option.map_some, Option.bind_some]
        rw [ran]
        rfl
      · rw [length_cons, exact_.length, length_cons]
      · intro position batch found
        cases position with
        | zero =>
          cases found
          rw [taken_insert_zero]
          exact ⟨List.Perm.refl _, List.Pairwise.nil⟩
        | succ position =>
          obtain ⟨perm, sorted⟩ := exact_.batch position batch found
          rw [taken_insert_succ]
          exact ⟨perm.trans (((more.filter _).append_right _).trans taken_inserted), sorted⟩
      · rw [left_insert]
        exact exact_.left.trans (((more.filter _).append_right _).trans left_inserted)
    | collectDue now =>
      obtain ⟨middle, due, collected, collects⟩ := collect_due_spec now enough sound
      obtain ⟨final, batches, ran, exact_⟩ := ih middle collects.sound
      refine ⟨final, due :: batches, ?_, ?_, ?_, exact_.sound, ?_⟩
      · rw [run, apply, collected]
        dsimp only [Option.bind_some]
        rw [ran]
        rfl
      · rw [length_cons, exact_.length, length_cons]
      · intro position batch found
        cases position with
        | zero =>
          cases found
          rw [taken_collect_zero, returnedAt, append_nil]
          exact ⟨collects.returned, collects.sorted⟩
        | succ position =>
          obtain ⟨perm, sorted⟩ := exact_.batch position batch found
          rw [taken_collect_succ, returnedAt]
          exact ⟨perm.trans ((collects.left.filter _).append_right _), sorted⟩
      · rw [left_collect, remaining]
        exact exact_.left.trans ((collects.left.filter _).append_right _)

end Wheel

theorem timer_wheel_exact {α : Type} (origin rounds : Nat) (enough : 2 ≤ rounds) (ops : List (WheelOp α)) :
    ∃ final batches, (Wheel.new origin).run rounds ops = some (final, batches) ∧ batches.length = ops.length ∧
      (∀ (position : Nat) (batch : List (TimerEntry α)), batches[position]? = some batch →
        batch.Perm (WheelOp.returnedAt ops position) ∧ batch.Pairwise fun first second => first.deadline ≤ second.deadline) ∧
      final.stored.Perm (WheelOp.remaining ops) ∧
      final.nextDeadline = ((WheelOp.remaining ops).map (·.deadline)).min? := by
  obtain ⟨sound, empty⟩ := @Wheel.sound_new α origin
  obtain ⟨final, batches, ran, exact_⟩ := Wheel.run_exact enough ops (Wheel.new origin) sound
  have left : final.stored.Perm (WheelOp.remaining ops) := by
    have perm := exact_.left
    rw [empty] at perm
    exact perm
  have tidy := Wheel.scan_tidy final.levels.flatten exact_.sound.tidy TimerSlot.tidy_empty
  refine ⟨final, batches, ran, exact_.length, fun position batch found => ?_, left, Wheel.tidy_min tidy left⟩
  have exactly := exact_.batch position batch found
  rw [empty] at exactly
  exact exactly

def farAndNear : List (WheelOp Nat) :=
  [.insert ⟨25200000000000, 1⟩, .insert ⟨5, 2⟩, .collectDue 3600000000000, .collectDue 25200000000000]

theorem far_and_near_exact : ∃ final batches, (Wheel.new 0).run 2 farAndNear = some (final, batches) ∧
    (∀ (position : Nat) (batch : List (TimerEntry Nat)), batches[position]? = some batch →
      batch.Perm (WheelOp.returnedAt farAndNear position)) ∧
    WheelOp.returnedAt farAndNear 2 = [⟨5, 2⟩] ∧ WheelOp.returnedAt farAndNear 3 = [⟨25200000000000, 1⟩] := by
  obtain ⟨final, batches, ran, _, exact_, _⟩ := timer_wheel_exact 0 2 (by decide) farAndNear
  exact ⟨final, batches, ran, fun position batch found => (exact_ position batch found).1, rfl, rfl⟩

end Byteflow
