import Mathlib

namespace Transition

variable {σ ε : Type}

-- The states reached from start by enabled steps that all meet allowed. An
-- event carries every choice of the environment, so next is a function.
inductive Reach (next : σ → ε → Option σ) (allowed : σ → ε → Prop) (start : σ) : σ → Prop where
  | here : Reach next allowed start start
  | step (state : σ) (event : ε) (after : σ) (reached : Reach next allowed start state) (meets : allowed state event)
      (taken : next state event = some after) : Reach next allowed start after

def play (next : σ → ε → Option σ) : σ → List ε → Option σ
  | state, [] => some state
  | state, event :: rest =>
    match next state event with
    | none => none
    | some after => play next after rest

def AllMeet (next : σ → ε → Option σ) (allowed : σ → ε → Prop) : σ → List ε → Prop
  | _, [] => True
  | state, event :: rest => allowed state event ∧
      (match next state event with
        | none => True
        | some after => AllMeet next allowed after rest)

instance allMeetDecidable (next : σ → ε → Option σ) (allowed : σ → ε → Prop)
    [∀ state event, Decidable (allowed state event)] : ∀ state events, Decidable (AllMeet next allowed state events)
  | _, [] => isTrue trivial
  | state, event :: rest =>
    match taken : next state event with
    | none => decidable_of_iff (allowed state event) (by simp [AllMeet, taken])
    | some after =>
      have := allMeetDecidable next allowed after rest
      decidable_of_iff (allowed state event ∧ AllMeet next allowed after rest) (by simp [AllMeet, taken])

section Rules

variable {next : σ → ε → Option σ} {allowed : σ → ε → Prop} {start state : σ}

-- The induction behind every safety result: an invariant of the start that
-- each allowed step keeps holds in every state reached.
theorem reach_invariant {holds : σ → Prop} (initial : holds start)
    (kept : ∀ before event after, holds before → allowed before event → next before event = some after → holds after)
    (reached : Reach next allowed start state) : holds state := by
  induction reached with
  | here => exact initial
  | step before event after _ meets taken ih => exact kept before event after ih meets taken

theorem reach_trans {middle : σ} (first : Reach next allowed start middle) (second : Reach next allowed middle state) :
    Reach next allowed start state := by
  induction second with
  | here => exact first
  | step before event after _ meets taken ih => exact .step before event after ih meets taken

theorem reach_mono {weaker : σ → ε → Prop} (weakens : ∀ state event, allowed state event → weaker state event)
    (reached : Reach next allowed start state) : Reach next weaker start state := by
  induction reached with
  | here => exact .here
  | step before event after _ meets taken ih => exact .step before event after ih (weakens before event meets) taken

theorem reach_of_play (events : List ε) (before : σ) (meets : AllMeet next allowed before events)
    (played : play next before events = some state) : Reach next allowed before state := by
  induction events generalizing before with
  | nil =>
    cases played
    exact .here
  | cons event rest ih =>
    simp only [play] at played
    simp only [AllMeet] at meets
    cases taken : next before event with
    | none => simp [taken] at played
    | some after =>
      simp only [taken] at played meets
      exact reach_trans (.step before event after .here meets.1 taken) (ih after meets.2 played)

theorem all_meet_mono {weaker : σ → ε → Prop} (weakens : ∀ state event, allowed state event → weaker state event)
    (events : List ε) (before : σ) (meets : AllMeet next allowed before events) : AllMeet next weaker before events := by
  induction events generalizing before with
  | nil => trivial
  | cons event rest ih =>
    simp only [AllMeet] at meets ⊢
    refine ⟨weakens before event meets.1, ?_⟩
    cases taken : next before event with
    | none => trivial
    | some after =>
      simp only [taken] at meets
      exact ih after meets.2

theorem all_meet_of_forall (always : ∀ state event, allowed state event) (events : List ε) (before : σ) :
    AllMeet next allowed before events := by
  induction events generalizing before with
  | nil => trivial
  | cons event rest ih =>
    refine ⟨always before event, ?_⟩
    cases next before event with
    | none => trivial
    | some after => exact ih after

end Rules

-- Threads kept in a list, of which the one at index has taken a step.
section Threads

variable {α : Type} {items : List α} {index : Nat}

theorem mem_set_of_ne {old new item : α} (here : items[index]? = some old)
    (member : item ∈ items) (other : item ≠ old) : item ∈ items.set index new := by
  obtain ⟨position, found⟩ := List.mem_iff_getElem?.mp member
  refine List.mem_iff_getElem?.mpr ⟨position, ?_⟩
  rw [List.getElem?_set_ne, found]
  rintro rfl
  rw [here] at found
  exact other (Option.some.inj found).symm

theorem mem_set_cases {position : Nat} {new item : α} (found : (items.set index new)[position]? = some item) :
    position = index ∧ item = new ∨ position ≠ index ∧ items[position]? = some item := by
  rw [List.getElem?_set] at found
  by_cases same : index = position
  · rw [if_pos same] at found
    by_cases inside : index < items.length
    · rw [if_pos inside] at found
      exact Or.inl ⟨same.symm, (Option.some.inj found).symm⟩
    · rw [if_neg inside] at found
      cases found
  · rw [if_neg same] at found
    exact Or.inr ⟨fun eq => same eq.symm, found⟩

-- No two threads stand for the same key.
def Apart {κ ν : Type} (row : α → Option (κ × ν)) (items : List α) : Prop :=
  ∀ key (i j : Nat) first second one other, items[i]? = some first → items[j]? = some second →
    row first = some (key, one) → row second = some (key, other) → i = j

section Apart

variable {κ ν : Type} {row : α → Option (κ × ν)} (apart : Apart row items)

include apart

theorem apart_set {old new : α} (here : items[index]? = some old) (inherits : ∀ key one, row new = some (key, one) →
      row old = some (key, one) ∨ ∀ item ∈ items, ∀ other, row item ≠ some (key, other)) :
    Apart row (items.set index new) := by
  have same : ∀ {key : κ} {k : Nat} {third own mine}, items[k]? = some third → row third = some (key, own) →
      row new = some (key, mine) → k = index := by
    intro key k third own mine atK held leaves
    rcases inherits key mine leaves with kept | fresh
    · exact apart key k index third old own mine atK here held kept
    · exact absurd held (fresh third (List.mem_of_getElem? atK) own)
  intro key i j first second one other atI atJ isOne isOther
  rcases mem_set_cases atI with ⟨rfl, rfl⟩ | ⟨notI, oldI⟩
  · rcases mem_set_cases atJ with ⟨rfl, _⟩ | ⟨notJ, oldJ⟩
    · rfl
    · exact absurd (same oldJ isOther isOne) notJ
  · rcases mem_set_cases atJ with ⟨rfl, rfl⟩ | ⟨notJ, oldJ⟩
    · exact absurd (same oldI isOne isOther) notI
    · exact apart key i j first second one other oldI oldJ isOne isOther

theorem apart_append {item : α} (idle : row item = none) : Apart row (items ++ [item]) := by
  have old : ∀ {key : κ} {k : Nat} {third own}, (items ++ [item])[k]? = some third → row third = some (key, own) →
      items[k]? = some third := by
    intro key k third own found held
    rw [List.getElem?_append] at found
    by_cases inside : k < items.length
    · rwa [if_pos inside] at found
    · rw [if_neg inside] at found
      rw [List.mem_singleton.mp (List.mem_of_getElem? found), idle] at held
      cases held
  intro key i j first second one other atI atJ isOne isOther
  exact apart key i j first second one other (old atI isOne) (old atJ isOther) isOne isOther

end Apart

theorem sum_map_set (weight : α → Nat) (items : List α) (index : Nat) (old new : α) (held : items[index]? = some old) :
    ((items.set index new).map weight).sum + weight old = (items.map weight).sum + weight new := by
  induction items generalizing index with
  | nil => cases held
  | cons item rest ih =>
    cases index with
    | zero =>
      cases held
      simp only [List.set_cons_zero, List.map_cons, List.sum_cons]
      omega
    | succ index =>
      have step := ih index held
      simp only [List.set_cons_succ, List.map_cons, List.sum_cons]
      omega

theorem le_sum_map (weight : α → Nat) (items : List α) (item : α) (member : item ∈ items) :
    weight item ≤ (items.map weight).sum :=
  List.single_le_sum (by simp) _ (List.mem_map_of_mem member)

end Threads

end Transition
