import Byteflow.Transition

namespace Byteflow

open List Function Transition

def LOCAL_CAP : Nat := 256

-- Wrapping arithmetic on an i64.
def i64 (n : Int) : Int := n.bmod (2 ^ 64)

-- A task with the number of the push that stores it: what was returned may be
-- pushed again.
structure Pushed (τ : Type) where
  call : Nat
  task : τ

-- The next access of the owner's push or pop in progress.
inductive OwnerStage (τ : Type) where
  | idle
  | pushTop (pushed : Pushed τ) (b : Int)
  | pushWrite (pushed : Pushed τ) (b : Int)
  | pushStore (pushed : Pushed τ) (b : Int)
  | popStore (b : Int)
  | popTop (b : Int)
  | popEmpty (t : Int)
  | popRead (b t : Int)
  | popRace (pushed : Pushed τ) (t : Int)
  | popClose (won : Bool) (pushed : Pushed τ) (t : Int)

inductive StealStage (τ : Type) where
  | bottom (t : Int)
  | read (t : Int)
  | race (pushed : Pushed τ) (t : Int)
  | done

-- A slot is uninitialized until it is first written. The last two fields are
-- the history: what push accepted, and what pop and steal returned.
structure LocalQueue (τ : Type) where
  top : Int
  bottom : Int
  slots : Int → Option (Pushed τ)
  owner : OwnerStage τ
  stealers : List (StealStage τ)
  accepted : List (Pushed τ)
  returned : List (Pushed τ)

inductive QueueEvent (τ : Type) where
  | push (task : τ)
  | pop
  | owner
  | steal
  | stealer (index : Nat)

variable {τ : Type}

namespace OwnerStage

-- One past the last index that holds a task nobody has taken: pop publishes
-- the decremented bottom while its task is still in the ring.
def limit (bottom : Int) : OwnerStage τ → Int
  | .popTop _ | .popEmpty _ | .popRead _ _ | .popRace _ _ | .popClose _ _ _ => bottom + 1
  | _ => bottom

-- One past the last index that a stealer can still win: a pop that has seen
-- top below its index has that index to itself.
def stealable (bottom : Int) : OwnerStage τ → Int
  | .popRead b t => if t < b then b else b + 1
  | owner => owner.limit bottom

-- The task of a pop that has won the race and has yet to restore bottom.
def taking : OwnerStage τ → List (Pushed τ)
  | .popClose won pushed _ => if won then [pushed] else []
  | _ => []

def Sound (slots : Int → Option (Pushed τ)) (top bottom : Int) (accepted : Nat) : OwnerStage τ → Prop
  | .idle => True
  | .pushTop pushed b => b = bottom ∧ pushed.call = accepted ∧ accepted + 1 < 2 ^ 63
  | .pushWrite pushed b => b = bottom ∧ pushed.call = accepted ∧ accepted + 1 < 2 ^ 63 ∧ b - top < LOCAL_CAP
  | .pushStore pushed b => b = bottom ∧ pushed.call = accepted ∧ accepted + 1 < 2 ^ 63 ∧ b - top < LOCAL_CAP ∧
      slots (b % LOCAL_CAP) = some pushed
  | .popStore b => b = bottom - 1
  | .popTop b => b = bottom
  | .popEmpty t => t = bottom + 1 ∧ top = t
  | .popRead b t => b = bottom ∧ 0 ≤ t ∧ t ≤ b ∧ t ≤ top
  | .popRace pushed t => t = bottom ∧ t ≤ top ∧ slots (t % LOCAL_CAP) = some pushed
  | .popClose _ _ t => t = bottom ∧ top = t + 1

end OwnerStage

namespace LocalQueue

def new : LocalQueue τ := ⟨0, 0, fun _ => none, .idle, [], [], []⟩

def ownerStep (queue : LocalQueue τ) : OwnerStage τ → Option (LocalQueue τ)
  | .idle => none
  | .pushTop pushed b =>
    if i64 (b - queue.top) ≥ LOCAL_CAP then some { queue with owner := .idle }
    else some { queue with owner := .pushWrite pushed b }
  | .pushWrite pushed b =>
    some { queue with slots := update queue.slots (b % LOCAL_CAP) (some pushed), owner := .pushStore pushed b }
  | .pushStore pushed b =>
    some { queue with bottom := i64 (b + 1), owner := .idle, accepted := queue.accepted ++ [pushed] }
  | .popStore b => some { queue with bottom := b, owner := .popTop b }
  | .popTop b => some { queue with owner := if b < queue.top then .popEmpty queue.top else .popRead b queue.top }
  | .popEmpty t => some { queue with bottom := t, owner := .idle }
  | .popRead b t =>
    (queue.slots (b % LOCAL_CAP)).map fun pushed =>
      if b > t then { queue with owner := .idle, returned := pushed :: queue.returned }
      else { queue with owner := .popRace pushed t }
  | .popRace pushed t =>
    if queue.top = t then some { queue with top := i64 (t + 1), owner := .popClose true pushed t }
    else some { queue with owner := .popClose false pushed t }
  | .popClose won pushed t =>
    some { queue with
      bottom := i64 (t + 1), owner := .idle, returned := if won then pushed :: queue.returned else queue.returned }

def stealStep (queue : LocalQueue τ) : StealStage τ → Option (LocalQueue τ × StealStage τ)
  | .bottom t => some (queue, if t ≥ queue.bottom then .done else .read t)
  | .read t => (queue.slots (t % LOCAL_CAP)).map fun pushed => (queue, .race pushed t)
  | .race pushed t =>
    if queue.top = t then some ({ queue with top := i64 (t + 1), returned := pushed :: queue.returned }, .done)
    else some (queue, .done)
  | .done => none

-- push and pop begin with their load of bottom, steal with its load of top.
def next (queue : LocalQueue τ) : QueueEvent τ → Option (LocalQueue τ)
  | .push task =>
    match queue.owner with
    | .idle => some { queue with owner := .pushTop ⟨queue.accepted.length, task⟩ queue.bottom }
    | _ => none
  | .pop =>
    match queue.owner with
    | .idle => some { queue with owner := .popStore (i64 (queue.bottom - 1)) }
    | _ => none
  | .owner => queue.ownerStep queue.owner
  | .steal => some { queue with stealers := queue.stealers ++ [.bottom queue.top] }
  | .stealer index => do
    let stage ← queue.stealers[index]?
    let (after, stage) ← queue.stealStep stage
    some { after with stealers := after.stealers.set index stage }

-- Fewer than 2^63 pushes.
def Possible (queue : LocalQueue τ) : QueueEvent τ → Prop
  | .push _ => queue.accepted.length + 1 < 2 ^ 63
  | _ => True

def StealSound (slots : Int → Option (Pushed τ)) (top stealable : Int) : StealStage τ → Prop
  | .bottom t => 0 ≤ t ∧ t ≤ top
  | .read t => t ≤ top ∧ (t = top → t < stealable) ∧ slots (t % LOCAL_CAP) ≠ none
  | .race pushed t => t ≤ top ∧ (t = top → t < stealable ∧ slots (t % LOCAL_CAP) = some pushed)
  | .done => True

-- What holds of the ring and its history, whatever the owner does: taken are
-- the tasks that a pop or steal has won.
structure Seated (slots : Int → Option (Pushed τ)) (top stealable limit : Int) (accepted taken : List (Pushed τ))
    (stealers : List (StealStage τ)) : Prop where
  live : ∀ i, top ≤ i → i < limit → ∃ pushed ∈ accepted, slots (i % LOCAL_CAP) = some pushed ∧ pushed ∉ taken
  apart : ∀ i j pushed, top ≤ i → i < limit → top ≤ j → j < limit → slots (i % LOCAL_CAP) = some pushed →
    slots (j % LOCAL_CAP) = some pushed → i = j
  kept : ∀ pushed ∈ accepted, pushed ∈ taken ∨ ∃ i, top ≤ i ∧ i < limit ∧ slots (i % LOCAL_CAP) = some pushed
  known : ∀ pushed ∈ taken, pushed ∈ accepted
  once : taken.Nodup
  filled : ∀ i, 0 ≤ i → i < limit → slots (i % LOCAL_CAP) ≠ none
  start : 0 ≤ top
  inside : top ≤ stealable ∧ stealable ≤ limit
  room : limit ≤ top + LOCAL_CAP
  counted : limit ≤ accepted.length
  small : accepted.length < 2 ^ 63
  numbered : accepted.map Pushed.call = List.range accepted.length
  stealing : ∀ stage ∈ stealers, StealSound slots top stealable stage

structure Sound (queue : LocalQueue τ) : Prop where
  seated : Seated queue.slots queue.top (queue.owner.stealable queue.bottom) (queue.owner.limit queue.bottom) queue.accepted
    (queue.owner.taking ++ queue.returned) queue.stealers
  owned : queue.owner.Sound queue.slots queue.top queue.bottom queue.accepted.length

theorem i64_small {n : Int} (low : -2 ^ 63 ≤ n) (high : n < 2 ^ 63) : i64 n = n :=
  Int.bmod_eq_of_le (by omega) (by omega)

theorem slot_apart {top i b : Int} (low : top ≤ i) (high : i < b) (room : b - top < LOCAL_CAP) : i % LOCAL_CAP ≠ b % LOCAL_CAP := by
  unfold LOCAL_CAP at *
  omega

section Seats

variable {slots : Int → Option (Pushed τ)} {top stealable limit : Int} {accepted taken : List (Pushed τ)}
  {stealers : List (StealStage τ)} {pushed : Pushed τ}

theorem seated_write (seated : Seated slots top limit limit accepted taken stealers) (free : limit - top < LOCAL_CAP) :
    Seated (update slots (limit % LOCAL_CAP) (some pushed)) top limit limit accepted taken stealers := by
  have same : ∀ i, top ≤ i → i < limit →
      update slots (limit % LOCAL_CAP) (some pushed) (i % LOCAL_CAP) = slots (i % LOCAL_CAP) :=
    fun i low high => update_of_ne (slot_apart low high free) ..
  have filled : ∀ i, slots (i % LOCAL_CAP) ≠ none → update slots (limit % LOCAL_CAP) (some pushed) (i % LOCAL_CAP) ≠ none := by
    grind
  refine { seated with live := ?_, apart := ?_, kept := ?_, filled := ?_, stealing := ?_ }
  · grind [seated.live]
  · grind [seated.apart]
  · grind [seated.kept]
  · exact fun i low high => filled i (seated.filled i low high)
  · intro stage member
    have sound := seated.stealing stage member
    cases stage with
    | bottom t => exact sound
    | read t => exact ⟨sound.1, sound.2.1, filled t sound.2.2⟩
    | race pushed t =>
      refine ⟨sound.1, fun last => ⟨(sound.2 last).1, ?_⟩⟩
      rw [same t (Int.le_of_eq last.symm) (sound.2 last).1]
      exact (sound.2 last).2
    | done => trivial

theorem seated_push (seated : Seated slots top limit limit accepted taken stealers)
    (stored : slots (limit % LOCAL_CAP) = some pushed) (free : limit - top < LOCAL_CAP)
    (few : accepted.length + 1 < 2 ^ 63) (number : pushed.call = accepted.length) :
    Seated slots top (limit + 1) (limit + 1) (accepted ++ [pushed]) taken stealers := by
  have fresh : pushed ∉ accepted := by
    intro old
    have listed := mem_map_of_mem (f := Pushed.call) old
    rw [seated.numbered, number, mem_range] at listed
    exact Nat.lt_irrefl _ listed
  have last : ∀ i, i < limit + 1 → i < limit ∨ i = limit := fun i high => by omega
  obtain ⟨live, apart, kept, known, once, filled, start, inside, room, counted, small, numbered, stealing⟩ := seated
  refine ⟨?_, ?_, ?_, ?_, once, ?_, start, ?_, ?_, ?_, ?_, ?_, fun stage member => ?_⟩
  · grind
  · grind
  · grind
  · grind
  · grind
  · omega
  · omega
  · grind
  · grind
  · simp [numbered, number, range_succ]
  · have := stealing stage member
    cases stage <;> grind [StealSound]

-- The task at index is won: from the top by a steal or the last pop, else from
-- the bottom.
theorem seated_take {first last index : Int} (seated : Seated slots top stealable limit accepted taken stealers)
    (stored : slots (index % LOCAL_CAP) = some pushed) (low : top ≤ index) (high : index < limit)
    (range : first = top + 1 ∧ last = limit ∧ index = top ∧ top < stealable ∨
      first = top ∧ last = limit - 1 ∧ index = limit - 1 ∧ stealable < limit) :
    Seated slots first stealable last accepted (pushed :: taken) stealers := by
  obtain ⟨live, apart, kept, known, once, filled, start, inside, room, counted, small, numbered, stealing⟩ := seated
  have ends : ∀ i, first ≤ i ∧ i < last ↔ top ≤ i ∧ i < limit ∧ i ≠ index := fun i => by omega
  refine ⟨?_, ?_, ?_, ?_, ?_, ?_, ?_, ?_, ?_, ?_, small, numbered, fun stage member => ?_⟩
  · grind
  · grind
  · grind
  · grind
  · grind
  · grind
  · omega
  · omega
  · omega
  · omega
  · have := stealing stage member
    cases stage <;> grind [StealSound]

theorem seated_spare {last : Int} (seated : Seated slots top (last + 1) (last + 1) accepted taken stealers) (spare : top < last) :
    Seated slots top last (last + 1) accepted taken stealers := by
  refine { seated with inside := by omega, stealing := fun stage member => ?_ }
  have := seated.stealing stage member
  cases stage <;> grind [StealSound]

theorem seated_perm {other : List (Pushed τ)} (seated : Seated slots top stealable limit accepted taken stealers)
    (perm : taken.Perm other) : Seated slots top stealable limit accepted other stealers := by
  have mem : ∀ pushed, pushed ∈ taken ↔ pushed ∈ other := fun _ => perm.mem_iff
  exact { seated with
    live := by simpa only [mem] using seated.live
    kept := by simpa only [mem] using seated.kept
    known := by simpa only [mem] using seated.known
    once := perm.nodup_iff.mp seated.once }

end Seats

theorem sound_owner {queue after : LocalQueue τ} (sound : Sound queue) (taken : queue.ownerStep queue.owner = some after) :
    Sound after := by
  obtain ⟨top, bottom, slots, owner, stealers, accepted, returned⟩ := queue
  have seated : Seated slots top (owner.stealable bottom) (owner.limit bottom) accepted (owner.taking ++ returned) stealers :=
    sound.seated
  have owned : owner.Sound slots top bottom accepted.length := sound.owned
  have start := seated.start
  have inside := seated.inside
  have counted := seated.counted
  have small := seated.small
  cases owner <;> simp only [OwnerStage.limit, OwnerStage.stealable, OwnerStage.Sound, ownerStep] at owned inside counted taken
  case idle => cases taken
  case pushTop pushed b =>
    obtain ⟨rfl, number, few⟩ := owned
    rw [i64_small (by omega) (by omega)] at taken
    split at taken
    · cases taken
      exact ⟨seated, trivial⟩
    · rename_i free
      cases taken
      exact ⟨seated, rfl, number, few, Int.not_le.mp free⟩
  case pushWrite pushed b =>
    obtain ⟨rfl, number, few, free⟩ := owned
    cases taken
    exact ⟨seated_write seated free, rfl, number, few, free, update_self ..⟩
  case pushStore pushed b =>
    obtain ⟨rfl, number, few, free, stored⟩ := owned
    rw [i64_small (by omega) (by omega)] at taken
    cases taken
    exact ⟨seated_push seated stored free few number, trivial⟩
  case popStore b =>
    subst owned
    cases taken
    refine ⟨?_, rfl⟩
    simp only [OwnerStage.limit, OwnerStage.stealable, Int.sub_add_cancel]
    exact seated
  case popTop b =>
    subst owned
    cases taken
    by_cases empty : b < top
    · have emptied : top = b + 1 := by omega
      simp only [if_pos empty]
      exact ⟨seated, emptied, rfl⟩
    · simp only [if_neg empty]
      refine ⟨?_, rfl, start, Int.not_lt.mp empty, Int.le_refl _⟩
      by_cases last : top < b
      · simp only [OwnerStage.stealable, if_pos last]
        exact seated_spare seated last
      · simp only [OwnerStage.stealable, if_neg last]
        exact seated
  case popEmpty t =>
    obtain ⟨rfl, _⟩ := owned
    cases taken
    exact ⟨seated, trivial⟩
  case popRead b t =>
    obtain ⟨rfl, _, high, seen⟩ := owned
    obtain ⟨pushed, stored, taken⟩ := Option.map_eq_some_iff.mp taken
    cases taken
    by_cases mine : b > t
    · rw [if_pos mine] at inside ⊢
      rw [OwnerStage.stealable, if_pos mine] at seated
      have won := seated_take seated stored inside.1 (Int.lt_succ _)
        (Or.inr ⟨rfl, rfl, (Int.add_sub_cancel ..).symm, Int.lt_succ _⟩)
      rw [OwnerStage.limit, Int.add_sub_cancel] at won
      exact ⟨won, trivial⟩
    · rw [if_neg mine]
      rw [OwnerStage.stealable, if_neg mine] at seated
      obtain rfl : t = b := by omega
      exact ⟨seated, rfl, seen, stored⟩
  case popRace pushed t =>
    obtain ⟨rfl, seen, stored⟩ := owned
    split at taken
    · rename_i same
      cases taken
      subst same
      rw [i64_small (by omega) (by omega)]
      exact ⟨seated_take seated stored (Int.le_refl _) (Int.lt_succ _) (Or.inl ⟨rfl, rfl, rfl, Int.lt_succ _⟩), rfl, rfl⟩
    · rename_i differs
      cases taken
      exact ⟨seated, rfl, by simp only; omega⟩
  case popClose won pushed t =>
    obtain ⟨rfl, last⟩ := owned
    rw [i64_small (by omega) (by omega)] at taken
    cases taken
    cases won with
    | true | false => exact ⟨seated, trivial⟩

theorem bottom_le_stealable {queue : LocalQueue τ} (sound : Sound queue) : queue.bottom ≤ queue.owner.stealable queue.bottom := by
  have owned := sound.owned
  cases stage : queue.owner <;> rw [stage] at owned <;> grind [OwnerStage.stealable, OwnerStage.limit, OwnerStage.Sound]

theorem sound_won {queue : LocalQueue τ} {pushed : Pushed τ} (sound : Sound queue)
    (first : queue.top < queue.owner.stealable queue.bottom) (stored : queue.slots (queue.top % LOCAL_CAP) = some pushed) :
    Sound { queue with top := queue.top + 1, returned := pushed :: queue.returned } := by
  obtain ⟨seated, owned⟩ := sound
  constructor
  · have won := seated_take seated stored (Int.le_refl _) (Int.lt_of_lt_of_le first seated.inside.2) (Or.inl ⟨rfl, rfl, rfl, first⟩)
    exact seated_perm won perm_middle.symm
  · change queue.owner.Sound queue.slots (queue.top + 1) queue.bottom queue.accepted.length
    cases stage : queue.owner <;> rw [stage] at owned first <;>
      grind [OwnerStage.stealable, OwnerStage.limit, OwnerStage.Sound]

theorem sound_stealer {queue after : LocalQueue τ} {stage left : StealStage τ} (sound : Sound queue)
    (member : stage ∈ queue.stealers) (taken : queue.stealStep stage = some (after, left)) :
    Sound after ∧ StealSound after.slots after.top (after.owner.stealable after.bottom) left := by
  have held := sound.seated.stealing stage member
  have within := sound.seated.inside
  cases stage with
  | bottom t =>
    cases taken
    refine ⟨sound, ?_⟩
    by_cases empty : t ≥ queue.bottom
    · rw [if_pos empty]
      trivial
    · rw [if_neg empty]
      have below := bottom_le_stealable sound
      exact ⟨held.2, fun _ => by omega, sound.seated.filled t held.1 (by omega)⟩
  | read t =>
    obtain ⟨pushed, stored, taken⟩ := Option.map_eq_some_iff.mp taken
    cases taken
    exact ⟨sound, held.1, fun first => ⟨held.2.1 first, stored⟩⟩
  | race pushed t =>
    rw [stealStep] at taken
    split at taken
    · rename_i same
      cases taken
      subst same
      obtain ⟨first, stored⟩ := held.2 rfl
      obtain ⟨_, _, _, _, _, _, start, _, _, counted, small, _, _⟩ := sound.seated
      rw [i64_small (by omega) (by omega)]
      exact ⟨sound_won sound first stored, trivial⟩
    · cases taken
      exact ⟨sound, trivial⟩
  | done => cases taken

theorem sound_next {queue after : LocalQueue τ} {event : QueueEvent τ} (sound : Sound queue) (possible : Possible queue event)
    (taken : queue.next event = some after) : Sound after := by
  cases event with
  | push task =>
    obtain ⟨top, bottom, slots, owner, stealers, accepted, returned⟩ := queue
    cases owner <;> cases taken
    exact ⟨sound.seated, rfl, rfl, possible⟩
  | pop =>
    obtain ⟨top, bottom, slots, owner, stealers, accepted, returned⟩ := queue
    cases owner <;> cases taken
    obtain ⟨_, _, _, _, _, _, start, inside, _, counted, small, _, _⟩ := sound.seated
    simp only [OwnerStage.limit, OwnerStage.stealable] at start inside counted small
    have wraps : i64 (bottom - 1) = bottom - 1 := i64_small (by omega) (by omega)
    exact ⟨sound.seated, wraps⟩
  | owner => exact sound_owner sound taken
  | steal =>
    cases taken
    refine ⟨{ sound.seated with stealing := fun stage member => ?_ }, sound.owned⟩
    rcases mem_append.mp member with old | new
    · exact sound.seated.stealing stage old
    · rw [mem_singleton.mp new]
      exact ⟨sound.seated.start, Int.le_refl _⟩
  | stealer index =>
    simp only [next, Option.bind_eq_bind, Option.bind_eq_some_iff] at taken
    obtain ⟨stage, found, ⟨moved, left⟩, stepped, same⟩ := taken
    cases same
    obtain ⟨kept, here⟩ := sound_stealer sound (mem_of_getElem? found) stepped
    refine ⟨{ kept.seated with stealing := fun other member => ?_ }, kept.owned⟩
    rcases mem_or_eq_of_mem_set member with old | rfl
    · exact kept.seated.stealing other old
    · exact here

-- The task of a pop in progress, which nobody has taken from it.
def Popping (queue : LocalQueue τ) (pushed : Pushed τ) : Prop :=
  match queue.owner with
  | .popTop b | .popRead b _ => queue.top ≤ b ∧ queue.slots (b % LOCAL_CAP) = some pushed
  | .popRace taken t => queue.top ≤ t ∧ taken = pushed
  | .popClose won taken _ => won = true ∧ taken = pushed
  | _ => False

structure Safe (queue : LocalQueue τ) : Prop where
  numbered : queue.accepted.map Pushed.call = List.range queue.accepted.length
  once : queue.returned.Nodup
  known : ∀ pushed ∈ queue.returned, pushed ∈ queue.accepted
  kept : ∀ pushed ∈ queue.accepted, pushed ∈ queue.returned ∨ queue.Popping pushed ∨
    ∃ i, queue.top ≤ i ∧ i < queue.bottom ∧ queue.slots (i % LOCAL_CAP) = some pushed
  live : ∀ i, queue.top ≤ i → i < queue.bottom →
    ∃ pushed ∈ queue.accepted, queue.slots (i % LOCAL_CAP) = some pushed ∧ pushed ∉ queue.returned
  apart : ∀ i j pushed, queue.top ≤ i → i < queue.bottom → queue.top ≤ j → j < queue.bottom →
    queue.slots (i % LOCAL_CAP) = some pushed → queue.slots (j % LOCAL_CAP) = some pushed → i = j
  written : ∀ pushed b, queue.owner = .pushWrite pushed b → ∀ i, queue.top ≤ i → i < queue.bottom →
    i % LOCAL_CAP ≠ b % LOCAL_CAP
  popped : ∀ b t, queue.owner = .popRead b t → queue.slots (b % LOCAL_CAP) ≠ none
  stolen : ∀ t, .read t ∈ queue.stealers → queue.slots (t % LOCAL_CAP) ≠ none
  refused : ∀ pushed b, queue.owner = .pushTop pushed b → i64 (b - queue.top) ≥ LOCAL_CAP → queue.bottom - queue.top = LOCAL_CAP

theorem kept_or_popping {queue : LocalQueue τ} (sound : Sound queue) (pushed : Pushed τ) (member : pushed ∈ queue.accepted) :
    pushed ∈ queue.returned ∨ queue.Popping pushed ∨
      ∃ i, queue.top ≤ i ∧ i < queue.bottom ∧ queue.slots (i % LOCAL_CAP) = some pushed := by
  have kept := sound.seated.kept pushed member
  have owned := sound.owned
  unfold Popping
  cases stage : queue.owner <;> rw [stage] at kept owned <;>
    grind [OwnerStage.limit, OwnerStage.taking, OwnerStage.Sound]

theorem safe_of_sound {queue : LocalQueue τ} (sound : Sound queue) : Safe queue := by
  have within : ∀ i, i < queue.bottom → i < queue.owner.limit queue.bottom := fun i high =>
    Int.lt_of_lt_of_le high ((bottom_le_stealable sound).trans sound.seated.inside.2)
  obtain ⟨live, apart, _, known, once, filled, start, inside, room, counted, small, numbered, stealing⟩ := sound.seated
  have owned := sound.owned
  refine ⟨numbered, (nodup_append.mp once).2.1, fun pushed member => known pushed (mem_append_right _ member),
    kept_or_popping sound, fun i low high => ?_,
    fun i j pushed low high low' high' => apart i j pushed low (within i high) low' (within j high'),
    fun pushed b stage i low high => ?_, fun b t stage => ?_, fun t member => (stealing _ member).2.2, fun pushed b stage full => ?_⟩
  · obtain ⟨pushed, member, stored, untaken⟩ := live i low (within i high)
    exact ⟨pushed, member, stored, fun returned => untaken (mem_append_right _ returned)⟩
  · rw [stage] at owned
    obtain ⟨rfl, _, _, free⟩ := owned
    exact slot_apart low high free
  · rw [stage] at owned filled
    obtain ⟨rfl, low, high, _⟩ := owned
    exact filled _ (low.trans high) (Int.lt_succ _)
  · rw [stage] at owned inside room counted
    obtain ⟨rfl, _⟩ := owned
    simp only [OwnerStage.limit, OwnerStage.stealable] at inside room counted
    rw [i64_small (by omega) (by omega)] at full
    omega

theorem sound_new : Sound (new : LocalQueue τ) := by
  refine ⟨⟨?_, ?_, nofun, nofun, nodup_nil, ?_, Int.le_refl _, ⟨Int.le_refl _, Int.le_refl _⟩, ?_, Int.le_refl _,
    Nat.two_pow_pos 63, rfl, nofun⟩, trivial⟩
  all_goals
    simp only [new, OwnerStage.limit, LOCAL_CAP]
    omega

theorem deque_safe (queue : LocalQueue τ) (reached : Reach next Possible new queue) : Safe queue :=
  safe_of_sound (reach_invariant sound_new (fun _ _ _ sound possible taken => sound_next sound possible taken) reached)

instance possibleDecidable (queue : LocalQueue τ) (event : QueueEvent τ) : Decidable (Possible queue event) :=
  match event with
  | .push _ => inferInstanceAs (Decidable (_ < _))
  | .pop | .owner | .steal | .stealer _ => isTrue trivial

-- A stealer takes the last task from a pop that has already read it.
theorem last_task_stolen : ∃ queue : LocalQueue Nat, Reach next Possible new queue ∧ queue.returned = [⟨0, 7⟩] ∧ Safe queue := by
  have reached : Reach next Possible (new : LocalQueue Nat) _ :=
    reach_of_play [.push 7, .owner, .owner, .owner, .steal, .stealer 0, .pop, .owner, .owner, .owner, .stealer 0, .stealer 0,
      .owner, .owner] new (by decide) rfl
  exact ⟨_, reached, rfl, deque_safe _ reached⟩

end LocalQueue

end Byteflow
