import Mathlib

namespace Byteflow

open List

abbrev FrameKey := UInt64 × UInt64

inductive DedupState where
  | pending
  | accepted
deriving DecidableEq, Repr

inductive DedupTicket where
  | fresh (key : FrameKey)
  | duplicate
deriving DecidableEq, Repr

structure DedupEntry where
  key : FrameKey
  state : DedupState
deriving DecidableEq, Repr

-- seen is the source's VecDeque, its front first.
structure RemoteFrameDedup where
  capacity : Nat
  seen : List DedupEntry
  positive : 0 < capacity

namespace RemoteFrameDedup

def new (capacity : Nat) : RemoteFrameDedup := ⟨max capacity 1, [], by omega⟩

def evictAccepted (capacity : Nat) : List DedupEntry → List DedupEntry
  | [] => []
  | front :: rest =>
    if rest.length + 1 > capacity then
      match front.state with
      | .pending => front :: rest
      | .accepted => evictAccepted capacity rest
    else front :: rest

def lookup (dedup : RemoteFrameDedup) (key : FrameKey) : Option DedupState :=
  (dedup.seen.find? (·.key = key)).map (·.state)

-- One turn of the loop in reserve. None waits for the peer that holds the key.
def reserve (dedup : RemoteFrameDedup) (key : FrameKey) : RemoteFrameDedup × Option DedupTicket :=
  match dedup.lookup key with
  | some .accepted => (dedup, some .duplicate)
  | some .pending => (dedup, none)
  | none => ({ dedup with seen := evictAccepted dedup.capacity (dedup.seen ++ [⟨key, .pending⟩]) }, some (.fresh key))

def markAccepted (key : FrameKey) : List DedupEntry → List DedupEntry
  | [] => []
  | entry :: rest =>
    if entry.key = key then { entry with state := .accepted } :: rest else entry :: markAccepted key rest

def commit (dedup : RemoteFrameDedup) (key : FrameKey) : RemoteFrameDedup :=
  { dedup with seen := evictAccepted dedup.capacity (markAccepted key dedup.seen) }

def rollback (dedup : RemoteFrameDedup) (key : FrameKey) : RemoteFrameDedup :=
  { dedup with seen := dedup.seen.filter fun entry => !(entry.key = key && entry.state = .pending) }

section Entries

variable {capacity : Nat} {entries : List DedupEntry} {key : FrameKey} {dedup : RemoteFrameDedup}

theorem evict_accepted_split (capacity : Nat) (entries : List DedupEntry) :
    ∃ evicted, entries = evicted ++ evictAccepted capacity entries ∧ ∀ entry ∈ evicted, entry.state = .accepted := by
  induction entries with
  | nil => exact ⟨[], rfl, fun _ none => absurd none not_mem_nil⟩
  | cons front rest ih =>
    rw [evictAccepted]
    by_cases full : rest.length + 1 > capacity
    · rw [if_pos full]
      cases state : front.state with
      | pending => exact ⟨[], rfl, fun _ none => absurd none not_mem_nil⟩
      | accepted =>
        obtain ⟨evicted, split, accepted⟩ := ih
        refine ⟨front :: evicted, congrArg (front :: ·) split, fun entry member => ?_⟩
        rcases mem_cons.mp member with rfl | later
        · exact state
        · exact accepted entry later
    · rw [if_neg full]
      exact ⟨[], rfl, fun _ none => absurd none not_mem_nil⟩

theorem evict_accepted_of_room (room : entries.length ≤ capacity) : evictAccepted capacity entries = entries := by
  cases entries with
  | nil => rfl
  | cons front rest =>
    rw [evictAccepted, if_neg (by simpa using room)]

theorem mark_accepted_keys (key : FrameKey) (entries : List DedupEntry) :
    (markAccepted key entries).map (·.key) = entries.map (·.key) := by
  induction entries with
  | nil => rfl
  | cons entry rest ih =>
    rw [markAccepted]
    by_cases same : entry.key = key
    · rw [if_pos same]
      rfl
    · rw [if_neg same, map_cons, map_cons, ih]

theorem mem_mark_accepted (unique : (entries.map (·.key)).Nodup) {entry : DedupEntry} :
    entry ∈ markAccepted key entries ↔
      (entry ∈ entries ∧ entry.key ≠ key) ∨ (entry = ⟨key, .accepted⟩ ∧ key ∈ entries.map (·.key)) := by
  induction entries with
  | nil => simp [markAccepted]
  | cons front rest ih =>
    obtain ⟨first, others⟩ := nodup_cons.mp unique
    rw [markAccepted]
    by_cases same : front.key = key
    · subst same
      rw [if_pos rfl]
      have elsewhere : entry ∈ rest → entry.key ≠ front.key := fun member eq =>
        first (mem_map.mpr ⟨entry, member, eq⟩)
      constructor
      · intro member
        rcases mem_cons.mp member with rfl | later
        · exact Or.inr ⟨rfl, mem_cons_self⟩
        · exact Or.inl ⟨mem_cons_of_mem front later, elsewhere later⟩
      · rintro (⟨member, other⟩ | ⟨rfl, _⟩)
        · exact mem_cons_of_mem _ ((mem_cons.mp member).resolve_left fun eq => other (eq ▸ rfl))
        · exact mem_cons_self
    · rw [if_neg same, mem_cons, ih others, mem_cons, map_cons, mem_cons]
      constructor
      · rintro (rfl | ⟨member, other⟩ | ⟨rfl, present⟩)
        · exact Or.inl ⟨Or.inl rfl, same⟩
        · exact Or.inl ⟨Or.inr member, other⟩
        · exact Or.inr ⟨rfl, Or.inr present⟩
      · rintro (⟨rfl | member, other⟩ | ⟨rfl, eq | present⟩)
        · exact Or.inl rfl
        · exact Or.inr (Or.inl ⟨member, other⟩)
        · exact absurd eq.symm same
        · exact Or.inr (Or.inr ⟨rfl, present⟩)

theorem lookup_some {state : DedupState} (found : dedup.lookup key = some state) : ⟨key, state⟩ ∈ dedup.seen := by
  obtain ⟨entry, here, rfl⟩ := Option.map_eq_some_iff.mp found
  have same : entry.key = key := by simpa using find?_some here
  subst same
  exact mem_of_find?_eq_some here

theorem lookup_none (absent : dedup.lookup key = none) : key ∉ dedup.seen.map (·.key) := by
  intro present
  obtain ⟨entry, member, same⟩ := mem_map.mp present
  have none := find?_eq_none.mp (Option.map_eq_none_iff.mp absent) entry member
  exact none (decide_eq_true same)

theorem lookup_of_mem (unique : (dedup.seen.map (·.key)).Nodup) {entry : DedupEntry}
    (member : entry ∈ dedup.seen) : dedup.lookup entry.key = some entry.state := by
  cases found : dedup.lookup entry.key with
  | none => exact absurd (mem_map_of_mem member) (lookup_none found)
  | some state =>
    have here := lookup_some found
    have same := inj_on_of_nodup_map unique member here rfl
    rw [same]

end Entries

end RemoteFrameDedup

end Byteflow
