import Byteflow.Value

namespace Byteflow

open List

abbrev NativeIdx := UInt32

structure CapRights where
  bits : UInt32
deriving DecidableEq, Repr

namespace CapRights

def NONE : CapRights := ⟨0⟩
def SEND : CapRights := ⟨0x01⟩
def ASK : CapRights := ⟨0x02⟩
def RECV : CapRights := ⟨0x04⟩
def SPAWN : CapRights := ⟨0x08⟩
def LINK : CapRights := ⟨0x10⟩
def MONITOR : CapRights := ⟨0x20⟩
def NATIVE : CapRights := ⟨0x80⟩
def ADDRESSING : CapRights := ⟨SEND.bits ||| ASK.bits ||| LINK.bits ||| MONITOR.bits⟩
def FLOW : CapRights :=
  ⟨SEND.bits ||| ASK.bits ||| RECV.bits ||| SPAWN.bits ||| LINK.bits ||| MONITOR.bits ||| NATIVE.bits⟩
def ROOT : CapRights := FLOW

def intersect (rights other : CapRights) : CapRights := ⟨rights.bits &&& other.bits⟩
def contains (rights other : CapRights) : Bool := rights.bits &&& other.bits == other.bits
def fromBits (bits : UInt32) : CapRights := ⟨bits⟩
def fromU8 (bits : UInt8) : CapRights := ⟨bits.toUInt32⟩

theorem contains_iff (rights other : CapRights) :
    rights.contains other = true ↔ rights.bits &&& other.bits = other.bits := by
  simp [contains]

theorem contains_refl (rights : CapRights) : rights.contains rights = true := by
  simp [contains]

theorem contains_trans (a b c : CapRights) (ab : a.contains b = true) (bc : b.contains c = true) : a.contains c = true := by
  rw [contains_iff] at *
  rw [← bc, ← UInt32.and_assoc, ab]

theorem contains_intersect (rights other : CapRights) : rights.contains (rights.intersect other) = true := by
  rw [contains_iff, intersect, ← UInt32.and_assoc, UInt32.and_self]

end CapRights

structure NativeMask where
  words : List UInt64
deriving DecidableEq, Repr

namespace NativeMask

def empty (nativeCount : Nat) : NativeMask := ⟨List.replicate ((nativeCount + 63) / 64) 0⟩

def full (nativeCount : Nat) : NativeMask :=
  let words := (nativeCount + 63) / 64
  let ones := List.replicate words (0xFFFFFFFFFFFFFFFF : UInt64)
  let rem := nativeCount % 64
  if rem ≠ 0 then ⟨ones.modify (words - 1) (· &&& (((1 : UInt64) <<< UInt64.ofNat rem) - 1))⟩ else ⟨ones⟩

def allows (mask : NativeMask) (idx : NativeIdx) : Bool :=
  match mask.words[idx.toNat / 64]? with
  | some word => word &&& ((1 : UInt64) <<< UInt64.ofNat (idx.toNat % 64)) != 0
  | none => false

def intersect (mask requested : NativeMask) : NativeMask :=
  ⟨List.zipWith (· &&& ·) mask.words requested.words⟩

def mark (nativeCount : Nat) (mask : NativeMask) (i : NativeIdx) : NativeMask :=
  if i.toNat / 64 < mask.words.length ∧ i.toNat < nativeCount then
    ⟨mask.words.modify (i.toNat / 64) (· ||| ((1 : UInt64) <<< UInt64.ofNat (i.toNat % 64)))⟩
  else mask

def fromIndices (nativeCount : Nat) (idxs : List NativeIdx) : NativeMask := idxs.foldl (mark nativeCount) (empty nativeCount)

def word (mask : NativeMask) (idx : Nat) : UInt64 :=
  match mask.words[idx]? with
  | some word => word
  | none => 0

def isSubsetOf (mask other : NativeMask) : Bool :=
  (List.range (max mask.words.length other.words.length)).all fun idx => mask.word idx &&& ~~~other.word idx == 0

theorem one_shifted (bit : Nat) (small : bit < 64) : ((1 : UInt64) <<< UInt64.ofNat bit).toNat = 2 ^ bit := by
  have fits : 2 ^ bit < 2 ^ 64 := Nat.pow_lt_pow_right (by decide) small
  have index : (UInt64.ofNat bit).toNat % 64 = bit := by
    rw [UInt64.toNat_ofNat', Nat.mod_eq_of_lt (a := bit) (by omega), Nat.mod_eq_of_lt small]
  rw [UInt64.toNat_shiftLeft, index, UInt64.toNat_one, Nat.one_shiftLeft, Nat.mod_eq_of_lt fits]

theorem bit_set_iff (word : UInt64) (bit : Nat) (small : bit < 64) :
    (word &&& ((1 : UInt64) <<< UInt64.ofNat bit) != 0) = word.toNat.testBit bit := by
  have value : (word &&& ((1 : UInt64) <<< UInt64.ofNat bit)).toNat = (word.toNat.testBit bit).toNat * 2 ^ bit := by
    rw [UInt64.toNat_and, one_shifted bit small, Nat.and_two_pow]
  have isZero : word &&& ((1 : UInt64) <<< UInt64.ofNat bit) = 0 ↔ word.toNat.testBit bit = false := by
    rw [← UInt64.toNat_inj, value]
    cases word.toNat.testBit bit <;> simp
  cases set : word.toNat.testBit bit with
  | false | true => simpa [set] using isZero

theorem allows_bit (mask : NativeMask) (idx : NativeIdx) :
    mask.allows idx = (mask.word (idx.toNat / 64)).toNat.testBit (idx.toNat % 64) := by
  unfold allows word
  cases mask.words[idx.toNat / 64]? with
  | none => simp
  | some word => exact bit_set_iff word _ (Nat.mod_lt _ (by decide))

theorem intersect_allows (mask requested : NativeMask) (idx : NativeIdx) :
    (mask.intersect requested).allows idx = (mask.allows idx && requested.allows idx) := by
  have both : (mask.intersect requested).word (idx.toNat / 64) =
      mask.word (idx.toNat / 64) &&& requested.word (idx.toNat / 64) := by
    simp only [word, intersect, getElem?_zipWith]
    cases mask.words[idx.toNat / 64]? <;> cases requested.words[idx.toNat / 64]? <;> simp
  simp only [allows_bit, both, UInt64.toNat_and, Nat.testBit_and]

theorem low_bits (rem bit : Nat) (small : rem < 64) :
    ((((1 : UInt64) <<< UInt64.ofNat rem) - 1).toNat).testBit bit = decide (bit < rem) := by
  have positive : 1 ≤ (1 : UInt64) <<< UInt64.ofNat rem := by
    rw [UInt64.le_iff_toNat_le, one_shifted rem small]
    exact Nat.one_le_two_pow
  rw [UInt64.toNat_sub_of_le _ _ positive, one_shifted rem small, UInt64.toNat_one, Nat.testBit_two_pow_sub_one]

theorem full_allows (nativeCount : Nat) (idx : NativeIdx) :
    (full nativeCount).allows idx = decide (idx.toNat < nativeCount) := by
  have small : idx.toNat % 64 < 64 := Nat.mod_lt _ (by decide)
  have ones : Nat.testBit 0xFFFFFFFFFFFFFFFF (idx.toNat % 64) = true := by
    rw [show 0xFFFFFFFFFFFFFFFF = 2 ^ 64 - 1 from rfl, Nat.testBit_two_pow_sub_one, decide_eq_true small]
  rw [allows_bit, full]
  by_cases inside : idx.toNat / 64 < (nativeCount + 63) / 64
  · by_cases whole : nativeCount % 64 = 0
    · have fits : idx.toNat < nativeCount := by omega
      simp [word, whole, inside, ones, fits]
    · by_cases last : (nativeCount + 63) / 64 - 1 = idx.toNat / 64
      · have below : idx.toNat % 64 < nativeCount % 64 ↔ idx.toNat < nativeCount := by omega
        simp [word, whole, inside, last, ones, low_bits _ _ (Nat.mod_lt _ _), below]
      · have fits : idx.toNat < nativeCount := by omega
        simp [word, whole, inside, last, ones, fits]
  · have beyond : ¬ idx.toNat < nativeCount := by omega
    by_cases whole : nativeCount % 64 = 0 <;> simp [word, whole, inside, beyond]

theorem empty_allows (nativeCount : Nat) (idx : NativeIdx) : (empty nativeCount).allows idx = false := by
  simp only [allows, empty, getElem?_replicate]
  by_cases inside : idx.toNat / 64 < (nativeCount + 63) / 64 <;> simp [inside]

theorem mark_allows {nativeCount : Nat} {mask : NativeMask} (sized : mask.words.length = (nativeCount + 63) / 64)
    (i idx : NativeIdx) : (mark nativeCount mask i).allows idx = true ↔
      mask.allows idx = true ∨ idx = i ∧ idx.toNat < nativeCount := by
  unfold mark
  by_cases within : i.toNat < nativeCount
  · have inside : i.toNat / 64 < mask.words.length := by omega
    have small : i.toNat % 64 < 64 := Nat.mod_lt _ (by decide)
    have same : idx = i ∧ idx.toNat < nativeCount ↔ i.toNat / 64 = idx.toNat / 64 ∧ i.toNat % 64 = idx.toNat % 64 := by
      rw [← UInt32.toNat_inj]
      omega
    rw [if_pos ⟨inside, within⟩, allows_bit, allows_bit]
    by_cases here : i.toNat / 64 = idx.toNat / 64
    · rw [here] at inside
      simp only [word, here, getElem?_modify_eq, getElem?_eq_getElem inside, Option.map_eq_map, Option.map_some,
        UInt64.toNat_or, one_shifted _ small, Nat.testBit_or, Nat.testBit_two_pow, Bool.or_eq_true, decide_eq_true_eq, same,
        true_and]
    · simp [word, here, same]
  · rw [if_neg fun both => within both.2]
    refine ⟨Or.inl, fun either => either.resolve_right ?_⟩
    rintro ⟨rfl, below⟩
    exact within below

-- The loop keeps the number of words, so every index below nativeCount finds its word.
theorem marks_allow {nativeCount : Nat} (idxs : List NativeIdx) {mask : NativeMask}
    (sized : mask.words.length = (nativeCount + 63) / 64) (idx : NativeIdx) :
    (idxs.foldl (mark nativeCount) mask).allows idx = true ↔
      mask.allows idx = true ∨ idx ∈ idxs ∧ idx.toNat < nativeCount := by
  induction idxs generalizing mask with
  | nil => simp
  | cons i rest ih =>
    have kept : (mark nativeCount mask i).words.length = (nativeCount + 63) / 64 := by
      unfold mark
      split <;> simp [sized]
    rw [foldl_cons, ih kept, mark_allows sized, mem_cons, or_assoc, ← or_and_right]

theorem no_extra_bit (left right : UInt64) :
    left &&& ~~~right = 0 ↔ ∀ bit < 64, left.toNat.testBit bit = true → right.toNat.testBit bit = true := by
  rw [← UInt64.toBitVec_inj, BitVec.eq_of_getLsbD_eq_iff]
  refine forall₂_congr fun bit small => ?_
  simp [small, ← UInt64.toNat_toBitVec, BitVec.testBit_toNat]

-- The indices reach 2 ^ 26 words: is_subset_of also looks at the words above.
theorem is_subset_iff {mask : NativeMask} (other : NativeMask) (short : mask.words.length ≤ 2 ^ 26) :
    mask.isSubsetOf other = true ↔ ∀ idx, mask.allows idx = true → other.allows idx = true := by
  simp only [isSubsetOf, all_eq_true, mem_range, beq_iff_eq, no_extra_bit, allows_bit]
  constructor
  · intro words idx
    by_cases inside : idx.toNat / 64 < mask.words.length
    · exact words _ (by omega) _ (Nat.mod_lt _ (by decide))
    · simp [word, getElem?_eq_none (Nat.le_of_not_lt inside)]
  · intro indices position _ bit small
    by_cases inside : position < mask.words.length
    · have reached := indices (UInt32.ofNat (position * 64 + bit))
      rw [UInt32.toNat_ofNat_of_lt' (by simp [UInt32.size]; omega)] at reached
      rwa [show (position * 64 + bit) / 64 = position by omega, show (position * 64 + bit) % 64 = bit by omega] at reached
    · simp [word, getElem?_eq_none (Nat.le_of_not_lt inside)]

theorem mask_is_finite_set (mask other : NativeMask) :
    (∀ idx, (mask.intersect other).allows idx = true ↔ mask.allows idx = true ∧ other.allows idx = true) ∧
    (mask.words.length ≤ 2 ^ 26 →
      (mask.isSubsetOf other = true ↔ ∀ idx, mask.allows idx = true → other.allows idx = true)) ∧
    (∀ nativeCount idx, (full nativeCount).allows idx = true ↔ idx.toNat < nativeCount) ∧
    (∀ nativeCount idxs idx, (fromIndices nativeCount idxs).allows idx = true ↔ idx ∈ idxs ∧ idx.toNat < nativeCount) := by
  refine ⟨fun idx => ?_, is_subset_iff other, fun nativeCount idx => ?_, fun nativeCount idxs idx => ?_⟩
  · rw [intersect_allows, Bool.and_eq_true]
  · rw [full_allows, decide_eq_true_eq]
  · rw [fromIndices, marks_allow idxs (by simp [empty]), empty_allows]
    simp

theorem narrow_mask_is_subset : (full 3).words.length ≤ 2 ^ 26 ∧ ∀ idx, (full 3).allows idx = true → (full 70).allows idx = true :=
  ⟨by decide, ((mask_is_finite_set (full 3) (full 70)).2.1 (by decide)).mp (by decide)⟩

theorem wider_not_subset (words : Nat) : (full (words * 64 + 1)).isSubsetOf (full (words * 64)) = false := by
  have rounded : (words * 64 + 1 + 63) / 64 = words + 1 := by omega
  have whole : (words * 64 + 63) / 64 = words := by omega
  have last : (full (words * 64 + 1)).word words = 1 := by
    simp [full, word, rounded]
    rfl
  have none_ : (full (words * 64)).word words = 0 := by simp [full, word, whole]
  rw [← Bool.not_eq_true, isSubsetOf, all_eq_true]
  intro subset
  have extra := subset words (mem_range.mpr (by simp [full, rounded]))
  rw [last, none_] at extra
  exact absurd extra (by decide)

theorem listed_native_dropped : (fromIndices 10 [20]).allows 20 = false ∧
    (full (2 ^ 32 + 1)).isSubsetOf (full (2 ^ 32)) = false ∧
    ∀ idx, (full (2 ^ 32 + 1)).allows idx = true → (full (2 ^ 32)).allows idx = true := by
  have same : 2 ^ 26 * 64 = 2 ^ 32 := by decide
  refine ⟨by decide, same ▸ wider_not_subset (2 ^ 26), fun idx _ => ?_⟩
  rw [full_allows, decide_eq_true_eq]
  exact idx.toNat_lt

end NativeMask

inductive CapTarget where
  | flow (id : UInt64)
  | nativeTable
  | scheduler
  | table (id : UInt64)
deriving DecidableEq, Repr

def CapTarget.flowId : CapTarget → Option UInt64
  | .flow id => some id
  | .nativeTable | .scheduler | .table _ => none

structure Cap where
  target : CapTarget
  rights : CapRights
  nativeMask : Option NativeMask
  epoch : UInt64
deriving DecidableEq, Repr

namespace Cap

-- The issuing cell is passed as the epoch it shows at that moment.
def root (target : CapTarget) (rights : CapRights) (nativeMask : Option NativeMask) (cellEpoch : UInt64) : Cap :=
  ⟨target, rights, nativeMask, cellEpoch⟩

def isValid (cap : Cap) (cellEpoch : UInt64) : Bool := cap.epoch == cellEpoch

def attenuate (cap : Cap) (wantRights : CapRights) (wantNative : Option NativeMask) : Cap :=
  { cap with
    rights := cap.rights.intersect wantRights
    nativeMask := match cap.nativeMask, wantNative with
      | some current, some requested => some (current.intersect requested)
      | some current, none => some current
      | none, _ => none }

def allowsNative (cap : Cap) (idx : NativeIdx) : Bool :=
  match cap.nativeMask with
  | some mask => mask.allows idx
  | none => false

def Within (child parent : Cap) : Prop :=
  parent.rights.contains child.rights = true ∧
    ∀ idx, child.allowsNative idx = true → parent.allowsNative idx = true

theorem within_refl (cap : Cap) : cap.Within cap :=
  ⟨CapRights.contains_refl cap.rights, fun _ allowed => allowed⟩

theorem within_trans (a b c : Cap) (ab : a.Within b) (bc : b.Within c) : a.Within c :=
  ⟨CapRights.contains_trans c.rights b.rights a.rights bc.1 ab.1, fun idx allowed => bc.2 idx (ab.2 idx allowed)⟩

theorem attenuate_within (cap : Cap) (wantRights : CapRights) (wantNative : Option NativeMask) :
    (cap.attenuate wantRights wantNative).Within cap := by
  refine ⟨CapRights.contains_intersect cap.rights wantRights, fun idx allowed => ?_⟩
  cases current : cap.nativeMask with
  | none => simp [allowsNative, attenuate, current] at allowed
  | some mask =>
    cases wantNative with
    | none => simpa [allowsNative, attenuate, current] using allowed
    | some requested =>
      simp only [allowsNative, attenuate, current] at allowed ⊢
      rw [NativeMask.intersect_allows, Bool.and_eq_true] at allowed
      exact allowed.1

end Cap

end Byteflow
