import Mathlib

namespace Byteflow

open List Function

-- Tokens kept in containers, counted over all of them.
namespace Tally

variable {α κ : Type}

-- The tokens of a family of containers, one for each key.
def family (keys : List κ) (content : κ → List α) : List α := keys.flatMap content

theorem family_congr {keys : List κ} {content other : κ → List α} (same : ∀ key ∈ keys, content key = other key) :
    family keys content = family keys other := by
  induction keys with
  | nil => rfl
  | cons key rest ih =>
    have tail := ih fun later member => same later (mem_cons_of_mem key member)
    simp only [family, flatMap_cons] at tail ⊢
    rw [same key mem_cons_self, tail]

theorem family_update_of_not_mem [DecidableEq κ] {keys : List κ} {key : κ} (absent : key ∉ keys) (content : κ → List α) (new : List α) :
    family keys (update content key new) = family keys content := by
  refine family_congr fun other member => ?_
  have different : other ≠ key := by
    rintro rfl
    exact absent member
  rw [update_of_ne different]

section Counts

variable [BEq α]

theorem count_family_update [DecidableEq κ] {keys : List κ} {key : κ} (distinct : keys.Nodup) (member : key ∈ keys) (content : κ → List α)
    (new : List α) (token : α) :
    (family keys (update content key new)).count token + (content key).count token =
      (family keys content).count token + new.count token := by
  induction keys with
  | nil => exact absurd member not_mem_nil
  | cons first rest ih =>
    obtain ⟨fresh, distinct⟩ := nodup_cons.mp distinct
    by_cases here : key = first
    · subst here
      have same := family_update_of_not_mem fresh content new
      simp only [family] at same ⊢
      rw [flatMap_cons, flatMap_cons, update_self, same, List.count_append, List.count_append]
      omega
    · have inRest : key ∈ rest := (mem_cons.mp member).resolve_left here
      have tail := ih distinct inRest
      simp only [family] at tail ⊢
      rw [flatMap_cons, flatMap_cons, update_of_ne (Ne.symm here), List.count_append, List.count_append]
      omega

theorem count_le_family {keys : List κ} {key : κ} (member : key ∈ keys) (content : κ → List α) (token : α) :
    (content key).count token ≤ (family keys content).count token := by
  obtain ⟨front, back, rfl⟩ := append_of_mem member
  simp only [family, flatMap_append, flatMap_cons, List.count_append]
  omega

theorem count_eraseIdx {β : Type} {items : List β} {index : Nat} {item : β} (found : items[index]? = some item) (f : β → α)
    (token : α) : ((items.eraseIdx index).map f).count token + [f item].count token = (items.map f).count token := by
  obtain ⟨inside, same⟩ := List.getElem?_eq_some_iff.mp found
  have perm := (List.getElem_cons_eraseIdx_perm inside).map f
  rw [← perm.count_eq token, same]
  simp only [map_cons, List.count_cons, List.count_nil, Nat.zero_add]

end Counts

end Tally

end Byteflow
