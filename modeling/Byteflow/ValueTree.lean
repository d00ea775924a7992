import Byteflow.Value

namespace Byteflow

open List

namespace Value

def children : Value → List Value
  | .message hop => [hop.payload]
  | .list items => items
  | .map entries => entries.map Prod.snd
  | .record fields => fields
  | _ => []

theorem children_smaller (value child : Value) (inside : child ∈ value.children) : sizeOf child < sizeOf value := by
  cases value with
  | message hop =>
    obtain ⟨sender, replyCap, requestId, tag, payload⟩ := hop
    rw [mem_singleton.mp inside]
    simp only [Value.message.sizeOf_spec, Envelope.mk.sizeOf_spec]
    omega
  | list items =>
    have smaller : sizeOf child < sizeOf items := sizeOf_lt_of_mem inside
    simp only [Value.list.sizeOf_spec]
    omega
  | map entries =>
    obtain ⟨entry, member, rfl⟩ := mem_map.mp inside
    have smaller := sizeOf_lt_of_mem member
    have part : sizeOf entry.2 < sizeOf entry := by
      obtain ⟨key, value⟩ := entry
      simp only [Prod.mk.sizeOf_spec]
      omega
    simp only [Value.map.sizeOf_spec]
    omega
  | record fields =>
    have smaller : sizeOf child < sizeOf fields := sizeOf_lt_of_mem inside
    simp only [Value.record.sizeOf_spec]
    omega
  | _ => cases inside

theorem children_induction {motive : Value → Prop} (step : ∀ value, (∀ child ∈ value.children, motive child) → motive value)
    (value : Value) : motive value :=
  step value fun child inside =>
    have := children_smaller value child inside
    children_induction step child
termination_by sizeOf value

-- A property of a value and of everything inside it.
inductive Everywhere (holds : Value → Prop) : Value → Prop where
  | mk (value : Value) (here : holds value) (inside : ∀ child ∈ value.children, Everywhere holds child) :
      Everywhere holds value

theorem everywhere_iff (holds : Value → Prop) (value : Value) :
    Everywhere holds value ↔ holds value ∧ ∀ child ∈ value.children, Everywhere holds child := by
  constructor
  · rintro ⟨_, here, inside⟩
    exact ⟨here, inside⟩
  · rintro ⟨here, inside⟩
    exact ⟨value, here, inside⟩

def sumOf (weight : Value → Nat) (value : Value) : Nat :=
  weight value + (value.children.attach.map fun child =>
    have := children_smaller value child.1 child.2
    sumOf weight child.1).sum
termination_by sizeOf value

theorem sum_of_eq (weight : Value → Nat) (value : Value) :
    value.sumOf weight = weight value + (value.children.map (sumOf weight)).sum := by
  rw [sumOf, attach_map_val (f := sumOf weight)]

inductive Below : Nat → Value → Value → Prop where
  | here (value : Value) : Below 0 value value
  | inside {levels : Nat} {value child inner : Value} (member : child ∈ value.children) (deeper : Below levels child inner) :
      Below (levels + 1) value inner

end Value

theorem items_nest_within (depth : Nat) (items : List Value) :
    itemsNestWithin depth items = items.all (Value.nestsWithin depth) := by
  induction items with
  | nil => rfl
  | cons item rest ih => rw [itemsNestWithin, all_cons, ih]

theorem entries_nest_within (depth : Nat) (entries : List (MapKey × Value)) :
    entriesNestWithin depth entries = (entries.map Prod.snd).all (Value.nestsWithin depth) := by
  induction entries with
  | nil => rfl
  | cons entry rest ih =>
    obtain ⟨key, value⟩ := entry
    rw [entriesNestWithin, map_cons, all_cons, ih]
    rfl

theorem nests_within_iff (depth : Nat) (value : Value) :
    value.nestsWithin depth = true ↔
      depth ≤ MAX_VALUE_DEPTH ∧ ∀ child ∈ value.children, child.nestsWithin (depth + 1) = true := by
  cases value with
  | message hop =>
    obtain ⟨sender, replyCap, requestId, tag, payload⟩ := hop
    simp [Value.nestsWithin, payloadNestsWithin, Value.children]
  | list | record => simp [Value.nestsWithin, items_nest_within, Value.children]
  | map entries => simp only [Value.nestsWithin, entries_nest_within, Value.children, Bool.and_eq_true, decide_eq_true_eq,
      all_eq_true]
  | _ => simp [Value.nestsWithin, Value.children]

theorem nests_within_mono (value : Value) (deep shallow : Nat) (less : shallow ≤ deep)
    (nests : value.nestsWithin deep = true) : value.nestsWithin shallow = true := by
  induction value using Value.children_induction generalizing deep shallow with
  | step value ih =>
    obtain ⟨within, inside⟩ := (nests_within_iff deep value).mp nests
    refine (nests_within_iff shallow value).mpr ⟨by omega, fun child member => ?_⟩
    exact ih child member (deep + 1) (shallow + 1) (by omega) (inside child member)

end Byteflow
