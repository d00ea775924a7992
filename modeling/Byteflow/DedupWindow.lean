import Byteflow.DedupRace

namespace Byteflow

open RemoteFrameDedup List

def DedupNote.commits (notes : List DedupNote) : List FrameKey :=
  notes.filterMap fun
    | .committed key => some key
    | .issued _ | .rolledBack _ | .evicted _ => none

namespace DedupRace

open Transition
open RemoteFrameDedup (evictAccepted markAccepted)

def committedSince (state : DedupRace) (key : FrameKey) : List FrameKey :=
  ((DedupNote.commits state.notes).takeWhile (· ≠ key)).dedup

def evictedNone (state : DedupRace) : Bool :=
  match state.notes with
  | .issued _ :: _ => true
  | _ => false

-- Deliveries take turns, and one that fails has pushed nothing out.
def Serial (state : DedupRace) : DedupEvent → Prop
  | .reserve _ => state.tickets = []
  | .commit _ => True
  | .rollback _ => state.evictedNone = true

instance (state : DedupRace) : (event : DedupEvent) → Decidable (state.Serial event)
  | .reserve _ => inferInstanceAs (Decidable (state.tickets = []))
  | .commit _ => inferInstanceAs (Decidable True)
  | .rollback _ => inferInstanceAs (Decidable (state.evictedNone = true))

-- The entries of the last n commits, as the queue holds them.
def window (commits : List FrameKey) (n : Nat) : List DedupEntry := (commits.take n).reverse.map (⟨·, .accepted⟩)

-- How the queue stands between two calls: the last n commits in their order,
-- and behind them the one reservation that is not settled yet.
inductive Aligned (capacity : Nat) (state : DedupRace) : Prop where
  | idle (n : Nat) (free : state.tickets = []) (seen : state.dedup.seen = window (DedupNote.commits state.notes) n)
      (fits : n ≤ capacity) (known : n ≤ (DedupNote.commits state.notes).length)
      (full : n = capacity ∨ n = (DedupNote.commits state.notes).length)
  | busy (n : Nat) (key : FrameKey) (held : state.tickets = [key])
      (seen : state.dedup.seen = window (DedupNote.commits state.notes) n ++ [⟨key, .pending⟩])
      (fits : n + 1 ≤ capacity) (known : n ≤ (DedupNote.commits state.notes).length)
      (full : n + 1 = capacity ∨ n = (DedupNote.commits state.notes).length)
      (untouched : state.evictedNone = true → n = (DedupNote.commits state.notes).length)

structure Windowed (capacity : Nat) (state : DedupRace) : Prop where
  sound : Sound state
  same : state.dedup.capacity = capacity
  aligned : Aligned capacity state

section Window

variable {capacity : Nat} {state after : DedupRace} {commits : List FrameKey} {n : Nat} {key : FrameKey}

theorem window_length (known : n ≤ commits.length) : (window commits n).length = n := by
  rw [window, length_map, length_reverse, length_take, Nat.min_eq_left known]

theorem window_succ (known : n < commits.length) :
    window commits (n + 1) = ⟨commits.get ⟨n, known⟩, .accepted⟩ :: window commits n := by
  rw [window, take_succ_eq_append_getElem known, reverse_append]
  rfl

theorem window_commit (key : FrameKey) (commits : List FrameKey) (n : Nat) :
    window (key :: commits) (n + 1) = window commits n ++ [⟨key, .accepted⟩] := by
  rw [window, take_succ_cons, reverse_cons, map_append]
  rfl

theorem commits_evictions (queue left : List DedupEntry) (notes : List DedupNote) :
    DedupNote.commits (evictions queue left ++ notes) = DedupNote.commits notes := by
  have silent : DedupNote.commits (evictions queue left) = [] := by
    rw [DedupNote.commits, filterMap_eq_nil_iff]
    intro note member
    obtain ⟨entry, _, rfl⟩ := mem_map.mp (mem_reverse.mp member)
    rfl
  rw [DedupNote.commits, filterMap_append]
  exact congrArg (· ++ DedupNote.commits notes) silent

theorem evict_full (key : FrameKey) (known : n < commits.length) :
    evictAccepted (n + 1) (window commits (n + 1) ++ [⟨key, .pending⟩]) = window commits n ++ [⟨key, .pending⟩] := by
  rw [window_succ known, cons_append, evictAccepted]
  have length : (window commits n ++ [(⟨key, .pending⟩ : DedupEntry)]).length = n + 1 := by
    rw [length_append, window_length (Nat.le_of_lt known)]
    rfl
  rw [if_pos (by rw [length]; omega)]
  exact evict_accepted_of_room (Nat.le_of_eq length)

theorem mark_window (absent : key ∉ commits.take n) :
    markAccepted key (window commits n ++ [⟨key, .pending⟩]) = window commits n ++ [⟨key, .accepted⟩] := by
  have skipped : ∀ entries : List FrameKey, key ∉ entries →
      markAccepted key (entries.map (⟨·, .accepted⟩) ++ [⟨key, .pending⟩]) =
        entries.map (⟨·, .accepted⟩) ++ [⟨key, .accepted⟩] := by
    intro entries missing
    induction entries with
    | nil => simp [markAccepted]
    | cons other rest ih =>
      rw [mem_cons, not_or] at missing
      rw [map_cons, cons_append, markAccepted, if_neg (Ne.symm missing.1), ih missing.2]
      rfl
  exact skipped _ (by simpa using absent)

theorem aligned_reserve (aligned : Aligned capacity state) (same : state.dedup.capacity = capacity)
    (free : state.tickets = []) (reserved : state.next (.reserve key) = some after) : Aligned capacity after := by
  subst same
  cases aligned with
  | busy n other held => rw [free] at held; cases held
  | idle n _ seen fits known full =>
    rw [next, RemoteFrameDedup.reserve] at reserved
    cases found : state.dedup.lookup key with
    | some held =>
      rw [found] at reserved
      cases held with
      | pending | accepted =>
        cases reserved
        exact .idle n free seen fits known full
    | none =>
      rw [found] at reserved
      cases reserved
      have kept : ∀ queue left, DedupNote.commits (evictions queue left ++ .issued key :: state.notes) =
          DedupNote.commits state.notes := fun queue left => commits_evictions queue left _
      by_cases room : n < state.dedup.capacity
      · have stays : evictAccepted state.dedup.capacity (state.dedup.seen ++ [⟨key, .pending⟩]) =
            state.dedup.seen ++ [⟨key, .pending⟩] := by
          apply evict_accepted_of_room
          rw [seen, length_append, window_length known]
          exact room
        have all : n = (DedupNote.commits state.notes).length := full.resolve_left (Nat.ne_of_lt room)
        refine .busy n key (by rw [free]) ?_ room ?_ (Or.inr ?_) fun _ => ?_
        · rw [kept]
          exact stays.trans (congrArg (· ++ _) seen)
        all_goals rw [kept]
        · exact known
        · exact all
        · exact all
      · have isFull : state.dedup.capacity = n := Nat.le_antisymm (Nat.not_lt.mp room) fits
        obtain ⟨m, rfl⟩ : ∃ m, n = m + 1 := Nat.exists_eq_succ_of_ne_zero (isFull ▸ state.dedup.positive.ne')
        have shifted := evict_full key known
        rw [← seen, ← isFull] at shifted
        refine .busy m key (by rw [free]) ?_ fits ?_ (Or.inl isFull.symm) fun issued => ?_
        · rw [kept]
          exact shifted
        · rw [kept]
          exact Nat.le_of_lt known
        · -- The queue was full, so the newest note is an eviction.
          have left : (state.dedup.seen ++ [(⟨key, .pending⟩ : DedupEntry)]).length -
              (evictAccepted state.dedup.capacity (state.dedup.seen ++ [⟨key, .pending⟩])).length = 1 := by
            rw [shifted, seen, length_append, length_append, window_length known,
              window_length (Nat.le_of_lt known)]
            simp
          simp only [evictedNone, evictions, left] at issued
          rw [seen, window_succ known] at issued
          cases issued

theorem aligned_commit (aligned : Aligned capacity state) (sound : Sound state) (same : state.dedup.capacity = capacity)
    {index : Nat} (committed : state.next (.commit index) = some after) : Aligned capacity after := by
  subst same
  rw [next] at committed
  cases aligned with
  | idle n free =>
    rw [free] at committed
    cases committed
  | busy n key held seen fits known full untouched =>
    cases index with
    | succ index =>
      rw [held] at committed
      cases committed
    | zero =>
      rw [held] at committed
      cases committed
      have absent : key ∉ (DedupNote.commits state.notes).take n := by
        have unique := sound.unique
        rw [seen, map_append, nodup_append] at unique
        intro member
        refine unique.2.2 key ?_ key mem_cons_self rfl
        rw [window, map_map]
        exact mem_map.mpr ⟨key, mem_reverse.mpr member, rfl⟩
      have marked : (state.dedup.commit key).seen = window (key :: DedupNote.commits state.notes) (n + 1) := by
        rw [RemoteFrameDedup.commit, seen, mark_window absent, ← window_commit]
        apply evict_accepted_of_room
        rw [window_length (Nat.succ_le_succ known)]
        exact fits
      have grown : ∀ queue left, DedupNote.commits (evictions queue left ++ .committed key :: state.notes) =
          key :: DedupNote.commits state.notes := fun queue left => commits_evictions queue left _
      refine .idle (n + 1) rfl ?_ fits ?_ ?_
      all_goals rw [grown]
      · exact marked
      · exact Nat.succ_le_succ known
      · exact full.imp id (congrArg (· + 1))

theorem aligned_rollback (aligned : Aligned capacity state) {index : Nat} (issued : state.evictedNone = true)
    (rolledBack : state.next (.rollback index) = some after) : Aligned capacity after := by
  rw [next] at rolledBack
  cases aligned with
  | idle n free =>
    rw [free] at rolledBack
    cases rolledBack
  | busy n key held seen fits known full untouched =>
    cases index with
    | succ index =>
      rw [held] at rolledBack
      cases rolledBack
    | zero =>
      rw [held] at rolledBack
      cases rolledBack
      refine .idle n rfl ?_ (Nat.le_of_succ_le fits) known (Or.inr (untouched issued))
      change state.dedup.seen.filter _ = _
      rw [seen, filter_append, filter_eq_self.mpr]
      · simp [DedupNote.commits]
      · intro entry member
        obtain ⟨other, _, rfl⟩ := mem_map.mp member
        simp

theorem recent_in_window (committed : key ∈ commits) (distinct : (commits.take n).Nodup)
    (recent : ((commits.takeWhile (· ≠ key)).dedup).length < n) : key ∈ commits.take n := by
  by_contra forgotten
  have others : ∀ other ∈ commits.take n, decide (other ≠ key) = true := by
    intro other member
    exact decide_eq_true fun same => forgotten (same ▸ member)
  have counted : commits.take n ⊆ (commits.takeWhile (· ≠ key)).dedup := by
    intro other member
    have front : commits.takeWhile (· ≠ key) = commits.take n ++ (commits.drop n).takeWhile (· ≠ key) := by
      rw [← takeWhile_append_of_pos others, take_append_drop]
    rw [mem_dedup, front]
    exact mem_append_left _ member
  have bound := (subperm_of_subset distinct counted).length_le
  rw [length_take] at bound
  have short : commits.length ≤ n := by omega
  rw [take_of_length_le short] at forgotten
  exact forgotten committed

theorem next_capacity (event : DedupEvent) (taken : state.next event = some after) :
    after.dedup.capacity = state.dedup.capacity := by
  cases event with
  | reserve key =>
    rw [next, RemoteFrameDedup.reserve] at taken
    rcases found : state.dedup.lookup key with _ | _ | _
    all_goals rw [found] at taken; cases taken; rfl
  | commit index | rollback index =>
    rw [next] at taken
    split at taken
    · cases taken
    · cases taken
      rfl

theorem windowed_next (windowed : Windowed capacity state) (event : DedupEvent) (serial : state.Serial event)
    (taken : state.next event = some after) : Windowed capacity after := by
  refine ⟨sound_next windowed.sound event taken, (next_capacity event taken).trans windowed.same, ?_⟩
  cases event with
  | reserve key => exact aligned_reserve windowed.aligned windowed.same serial taken
  | commit index => exact aligned_commit windowed.aligned windowed.sound windowed.same taken
  | rollback index => exact aligned_rollback windowed.aligned serial taken

theorem initial_windowed (positive : 1 ≤ capacity) : Windowed capacity (initial capacity) :=
  ⟨initial_sound capacity, Nat.max_eq_left positive, .idle 0 rfl rfl (Nat.zero_le _) (Nat.zero_le _) (Or.inr rfl)⟩

end Window

theorem replay_window (capacity : Nat) (positive : 1 ≤ capacity) (state : DedupRace)
    (reached : Reach next Serial (initial capacity) state) (key : FrameKey) (free : state.tickets = [])
    (committed : key ∈ DedupNote.commits state.notes) (recent : (state.committedSince key).length < capacity) :
    (state.dedup.reserve key).2 = some .duplicate := by
  have windowed : Windowed capacity state := by
    refine reach_invariant (initial_windowed positive) ?_ reached
    intro before event after windowed serial taken
    exact windowed_next windowed event serial taken
  cases windowed.aligned with
  | busy n other held => rw [free] at held; cases held
  | idle n _ seen fits known full =>
    have unique := windowed.sound.unique
    rw [seen, window, map_map] at unique
    have distinct : ((DedupNote.commits state.notes).take n).Nodup := by
      simpa [Function.comp_def] using unique
    have inside : key ∈ (DedupNote.commits state.notes).take n := by
      rcases full with rfl | all
      · exact recent_in_window committed distinct recent
      · rw [all, take_length]
        exact committed
    have held : (⟨key, .accepted⟩ : DedupEntry) ∈ state.dedup.seen := by
      rw [seen]
      exact mem_map.mpr ⟨key, mem_reverse.mpr inside, rfl⟩
    have found := lookup_of_mem windowed.sound.unique held
    rw [RemoteFrameDedup.reserve, found]

def turnsEvents : List DedupEvent :=
  [.reserve (2, 7), .commit 0, .reserve (3, 7), .rollback 0, .reserve (4, 7), .commit 0]

theorem delivered_frame_is_duplicate : (afterCalls 2 turnsEvents).committedSince (2, 7) = [(4, 7)] ∧
    ((afterCalls 2 turnsEvents).dedup.reserve (2, 7)).2 = some .duplicate := by
  have played : play next (initial 2) turnsEvents = some (afterCalls 2 turnsEvents) := rfl
  have serial : AllMeet next Serial (initial 2) turnsEvents := by decide
  have reached := reach_of_play turnsEvents (initial 2) serial played
  exact ⟨by decide, replay_window 2 (by decide) _ reached (2, 7) rfl (by decide) (by decide)⟩

def failedEvents : List DedupEvent := [.reserve (2, 7), .commit 0, .reserve (3, 7), .rollback 0]

def crossedEvents : List DedupEvent :=
  [.reserve (2, 7), .reserve (3, 7), .commit 0, .commit 0, .reserve (4, 7), .commit 0]

def Forgets (capacity : Nat) (events : List DedupEvent) (key : FrameKey) : Prop :=
  play next (initial capacity) events = some (afterCalls capacity events) ∧
    key ∈ DedupNote.commits (afterCalls capacity events).notes ∧
    ((afterCalls capacity events).committedSince key).length < capacity ∧
    ((afterCalls capacity events).dedup.reserve key).2 = some (.fresh key)

theorem window_forgets_early : Forgets 1 failedEvents (2, 7) ∧ Forgets 2 crossedEvents (2, 7) :=
  ⟨⟨rfl, by decide, by decide, rfl⟩, rfl, by decide, by decide, rfl⟩

end DedupRace

end Byteflow
