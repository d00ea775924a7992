import Byteflow.Dedup
import Byteflow.Transition

namespace Byteflow

open RemoteFrameDedup List

inductive DedupNote where
  | issued (key : FrameKey)
  | committed (key : FrameKey)
  | rolledBack (key : FrameKey)
  | evicted (entry : DedupEntry)
deriving DecidableEq, Repr

-- The filter with the Fresh tickets its deliverers hold. notes is the history
-- of the run, newest first. A deliverer that waits calls reserve again.
structure DedupRace where
  dedup : RemoteFrameDedup
  tickets : List FrameKey
  notes : List DedupNote

inductive DedupEvent where
  | reserve (key : FrameKey)
  | commit (index : Nat)
  | rollback (index : Nat)
deriving DecidableEq, Repr

namespace DedupRace

open Transition
open RemoteFrameDedup (evictAccepted markAccepted)

def initial (capacity : Nat) : DedupRace := ⟨.new capacity, [], []⟩

-- The entries that left the front of the queue, the last one first.
def evictions (queue after : List DedupEntry) : List DedupNote :=
  ((queue.take (queue.length - after.length)).map .evicted).reverse

def next (state : DedupRace) : DedupEvent → Option DedupRace
  | .reserve key =>
    match state.dedup.reserve key with
    | (dedup, some (.fresh key)) =>
      some ⟨dedup, key :: state.tickets,
        evictions (state.dedup.seen ++ [⟨key, .pending⟩]) dedup.seen ++ .issued key :: state.notes⟩
    | (dedup, some .duplicate) | (dedup, none) => some { state with dedup := dedup }
  | .commit index =>
    match state.tickets[index]? with
    | none => none
    | some key =>
      some ⟨state.dedup.commit key, state.tickets.eraseIdx index,
        evictions (markAccepted key state.dedup.seen) (state.dedup.commit key).seen ++ .committed key :: state.notes⟩
  | .rollback index =>
    match state.tickets[index]? with
    | none => none
    | some key =>
      some ⟨state.dedup.rollback key, state.tickets.eraseIdx index, .rolledBack key :: state.notes⟩

def remembers (key : FrameKey) : List DedupNote → Bool
  | [] => false
  | .committed other :: older => other = key || remembers key older
  | .evicted entry :: older => entry ≠ ⟨key, .accepted⟩ && remembers key older
  | .issued _ :: older | .rolledBack _ :: older => remembers key older

def NeverReissued : List DedupNote → Prop
  | [] => True
  | .issued key :: older => remembers key older = false ∧ NeverReissued older
  | .committed _ :: older | .rolledBack _ :: older | .evicted _ :: older => NeverReissued older

structure Sound (state : DedupRace) : Prop where
  unique : (state.dedup.seen.map (·.key)).Nodup
  single : state.tickets.Nodup
  held : ∀ key, key ∈ state.tickets ↔ ⟨key, .pending⟩ ∈ state.dedup.seen
  remembered : ∀ key, remembers key state.notes = true ↔ ⟨key, .accepted⟩ ∈ state.dedup.seen
  once : NeverReissued state.notes
  kept : ∀ entry, .evicted entry ∈ state.notes → entry.state = .accepted

section Steps

variable {state after : DedupRace} {key : FrameKey} {index : Nat}

theorem remembers_evicted (key : FrameKey) (evicted : List DedupEntry) (notes : List DedupNote) :
    remembers key ((evicted.map .evicted).reverse ++ notes) = true ↔
      remembers key notes = true ∧ ⟨key, .accepted⟩ ∉ evicted := by
  induction evicted generalizing notes with
  | nil => simp
  | cons entry rest ih =>
    rw [map_cons, reverse_cons, append_assoc, singleton_append, ih]
    simp only [remembers, Bool.and_eq_true, decide_eq_true_eq, mem_cons, not_or]
    constructor
    · rintro ⟨⟨other, before⟩, later⟩
      exact ⟨before, fun same => other same.symm, later⟩
    · rintro ⟨before, other, later⟩
      exact ⟨⟨fun same => other same.symm, before⟩, later⟩

theorem never_reissued_evicted (evicted : List DedupEntry) (notes : List DedupNote) (once : NeverReissued notes) :
    NeverReissued ((evicted.map .evicted).reverse ++ notes) := by
  induction evicted generalizing notes with
  | nil => exact once
  | cons entry rest ih =>
    rw [map_cons, reverse_cons, append_assoc, singleton_append]
    exact ih (.evicted entry :: notes) once

theorem sound_evict {dedup : RemoteFrameDedup} {tickets : List FrameKey} {notes : List DedupNote}
    (sound : Sound ⟨dedup, tickets, notes⟩) :
    Sound ⟨{ dedup with seen := evictAccepted dedup.capacity dedup.seen }, tickets,
      evictions dedup.seen (evictAccepted dedup.capacity dedup.seen) ++ notes⟩ := by
  obtain ⟨evicted, split, accepted⟩ := evict_accepted_split dedup.capacity dedup.seen
  have left : evictions dedup.seen (evictAccepted dedup.capacity dedup.seen) = (evicted.map .evicted).reverse := by
    have length := congrArg List.length split
    rw [length_append] at length
    rw [evictions, show dedup.seen.length - (evictAccepted dedup.capacity dedup.seen).length = evicted.length by omega]
    nth_rewrite 1 [split]
    rw [take_left]
  have unique := sound.unique
  rw [split, map_append] at unique
  have apart := disjoint_of_nodup_append unique
  have stays : ∀ {entry : DedupEntry}, entry ∈ dedup.seen →
      (entry ∈ evictAccepted dedup.capacity dedup.seen ↔ entry ∉ evicted) := by
    intro entry member
    constructor
    · intro inside out
      exact apart (mem_map_of_mem out) (mem_map_of_mem inside)
    · intro inside
      rw [split] at member
      exact (mem_append.mp member).resolve_left inside
  have within : ∀ {entry : DedupEntry}, entry ∈ evictAccepted dedup.capacity dedup.seen → entry ∈ dedup.seen := by
    intro entry member
    rw [split]
    exact mem_append_right evicted member
  rw [left]
  refine ⟨(nodup_append.mp unique).2.1, sound.single, fun key => ?_, fun key => ?_,
    never_reissued_evicted evicted notes sound.once, fun entry member => ?_⟩
  · refine (sound.held key).trans ⟨fun member => (stays member).mpr fun out => ?_, within⟩
    cases accepted _ out
  · rw [remembers_evicted, sound.remembered key]
    exact ⟨fun ⟨member, inside⟩ => (stays member).mpr inside, fun member => ⟨within member, (stays (within member)).mp member⟩⟩
  · rcases mem_append.mp member with out | old
    · obtain ⟨other, inside, same⟩ := mem_map.mp (mem_reverse.mp out)
      cases same
      exact accepted entry inside
    · exact sound.kept entry old

theorem sound_reserve (sound : Sound state) (reserved : state.next (.reserve key) = some after) : Sound after := by
  rw [next, RemoteFrameDedup.reserve] at reserved
  cases found : state.dedup.lookup key with
  | some held =>
    rw [found] at reserved
    cases held with
    | pending | accepted =>
      cases reserved
      exact sound
  | none =>
    rw [found] at reserved
    cases reserved
    have absent := lookup_none found
    have missing : ∀ held, ⟨key, held⟩ ∉ state.dedup.seen := fun held member => absent (mem_map_of_mem member)
    have other : ∀ {entry : DedupEntry}, entry ∈ state.dedup.seen ++ [⟨key, .pending⟩] ↔
        entry ∈ state.dedup.seen ∨ entry = ⟨key, .pending⟩ := by
      intro entry
      rw [mem_append, mem_singleton]
    refine @sound_evict { state.dedup with seen := state.dedup.seen ++ [⟨key, .pending⟩] } _ _ ⟨?_, ?_, ?_, ?_, ?_, ?_⟩
    · rw [map_append, nodup_append]
      refine ⟨sound.unique, nodup_singleton _, fun old member new last same => ?_⟩
      obtain rfl : new = key := mem_singleton.mp last
      exact absent (same ▸ member)
    · exact nodup_cons.mpr ⟨fun member => missing _ ((sound.held key).mp member), sound.single⟩
    · intro ticket
      rw [mem_cons, other, sound.held ticket, or_comm]
      exact or_congr_right ⟨fun same => same ▸ rfl, fun same => congrArg DedupEntry.key same⟩
    · intro ticket
      rw [remembers, other, sound.remembered ticket]
      exact ⟨Or.inl, fun member => member.resolve_right fun same => by cases same⟩
    · refine ⟨?_, sound.once⟩
      by_contra remembered
      exact missing _ ((sound.remembered key).mp (by simpa using remembered))
    · intro entry member
      exact sound.kept entry ((mem_cons.mp member).resolve_left fun same => by cases same)

theorem mem_tickets_erased (sound : Sound state) (found : state.tickets[index]? = some key)
    (ticket : FrameKey) : ticket ∈ state.tickets.eraseIdx index ↔ ticket ∈ state.tickets ∧ ticket ≠ key := by
  obtain ⟨inside, rfl⟩ := List.getElem?_eq_some_iff.mp found
  rw [← (erase_getElem inside).mem_iff, sound.single.mem_erase_iff]
  exact and_comm

theorem sound_commit (sound : Sound state) (committed : state.next (.commit index) = some after) :
    Sound after := by
  rw [next] at committed
  split at committed
  · cases committed
  rename_i key found
  cases committed
  have pending := (sound.held key).mp (mem_of_getElem? found)
  have present : key ∈ state.dedup.seen.map (·.key) := mem_map_of_mem pending
  have marked : ∀ {entry : DedupEntry}, entry ∈ markAccepted key state.dedup.seen ↔
      (entry ∈ state.dedup.seen ∧ entry.key ≠ key) ∨ entry = ⟨key, .accepted⟩ := by
    intro entry
    rw [mem_mark_accepted sound.unique, and_iff_left present]
  refine @sound_evict { state.dedup with seen := markAccepted key state.dedup.seen } _ _ ⟨?_, ?_, ?_, ?_, ?_, ?_⟩
  · rw [mark_accepted_keys]
    exact sound.unique
  · exact sound.single.eraseIdx index
  · intro ticket
    rw [mem_tickets_erased sound found, marked, sound.held ticket]
    exact ⟨Or.inl, fun member => member.resolve_right fun same => by cases same⟩
  · intro ticket
    rw [remembers, marked, Bool.or_eq_true, decide_eq_true_eq, sound.remembered ticket]
    by_cases same : ticket = key
    · subst same
      simp
    · simp [same, Ne.symm same]
  · exact sound.once
  · intro entry member
    exact sound.kept entry ((mem_cons.mp member).resolve_left fun same => by cases same)

theorem sound_rollback (sound : Sound state) (rolledBack : state.next (.rollback index) = some after) :
    Sound after := by
  rw [next] at rolledBack
  split at rolledBack
  · cases rolledBack
  rename_i key found
  cases rolledBack
  have kept : ∀ {entry : DedupEntry}, entry ∈ (state.dedup.rollback key).seen ↔
      entry ∈ state.dedup.seen ∧ entry ≠ ⟨key, .pending⟩ := by
    intro entry
    rw [RemoteFrameDedup.rollback, mem_filter]
    refine and_congr_right fun _ => ?_
    obtain ⟨own, held⟩ := entry
    simp [DedupEntry.mk.injEq, imp_iff_not_or]
  refine ⟨?_, ?_, ?_, ?_, ?_, ?_⟩
  · exact sound.unique.sublist (filter_sublist.map _)
  · exact sound.single.eraseIdx index
  · intro ticket
    rw [mem_tickets_erased sound found, kept, sound.held ticket]
    simp [DedupEntry.mk.injEq]
  · intro ticket
    rw [remembers, kept, sound.remembered ticket]
    simp [DedupEntry.mk.injEq]
  · exact sound.once
  · intro entry member
    exact sound.kept entry ((mem_cons.mp member).resolve_left fun same => by cases same)

theorem sound_next (sound : Sound state) (event : DedupEvent) (taken : state.next event = some after) : Sound after := by
  cases event with
  | reserve key => exact sound_reserve sound taken
  | commit index => exact sound_commit sound taken
  | rollback index => exact sound_rollback sound taken

theorem initial_sound (capacity : Nat) : Sound (initial capacity) := by
  refine ⟨nodup_nil, nodup_nil, fun key => ?_, fun key => ?_, trivial, fun entry member => ?_⟩
  · exact iff_of_false not_mem_nil not_mem_nil
  · exact iff_of_false Bool.false_ne_true not_mem_nil
  · cases member

theorem reached_sound {capacity : Nat} {allowed : DedupRace → DedupEvent → Prop}
    (reached : Reach next allowed (initial capacity) state) : Sound state := by
  refine reach_invariant (initial_sound capacity) ?_ reached
  intro before event after sound _ taken
  exact sound_next sound event taken

end Steps

theorem one_acceptance_per_key (capacity : Nat) (state : DedupRace)
    (reached : Reach next (fun _ _ => True) (initial capacity) state) :
    state.tickets.Nodup ∧ NeverReissued state.notes ∧
      (∀ key, remembers key state.notes = true ↔ ⟨key, .accepted⟩ ∈ state.dedup.seen) ∧
      (∀ entry, .evicted entry ∈ state.notes → entry.state = .accepted) ∧
      ∀ key ∈ state.tickets, ⟨key, .pending⟩ ∈ state.dedup.seen := by
  have sound := reached_sound reached
  exact ⟨sound.single, sound.once, sound.remembered, sound.kept, fun key => (sound.held key).mp⟩

def afterCalls (capacity : Nat) (events : List DedupEvent) : DedupRace :=
  (play next (initial capacity) events).getD (initial capacity)

-- A window of one: a second frame is reserved while the first is delivered, a
-- retransmit of the first waits, and after both commits the first is forgotten.
def crowdedEvents : List DedupEvent :=
  [.reserve (2, 7), .reserve (3, 7), .reserve (2, 7), .commit 1, .commit 0, .reserve (2, 7)]

theorem crowded_window_issues_once : (afterCalls 1 crowdedEvents).tickets = [(2, 7)] ∧
    NeverReissued (afterCalls 1 crowdedEvents).notes := by
  have played : play next (initial 1) crowdedEvents = some (afterCalls 1 crowdedEvents) := rfl
  have reached := reach_of_play crowdedEvents (initial 1) (all_meet_of_forall (fun _ _ => trivial) _ _) played
  exact ⟨rfl, (one_acceptance_per_key 1 (afterCalls 1 crowdedEvents) reached).2.1⟩

end DedupRace

end Byteflow
