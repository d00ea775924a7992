import Byteflow.Machine
import Byteflow.ValueTree

namespace Byteflow

open List

-- Bytes to reserve on the sender's quota while a hop is in flight.
def inFlightHopCharge (layout : Layout) (value : Value) : Nat :=
  match heapChargeOf layout value with
  | .ok held => value.memorySize layout - held
  | .error _ => value.memorySize layout

def MapKey.ownBytes : MapKey → Nat
  | .str text => text.utf8ByteSize
  | .int _ => 0

namespace Value

-- The bytes of one value without those of the values inside: what a register
-- pays for it, and what the envelope of a Message adds to a hop.
def ownBytes (layout : Layout) : Value → Nat
  | .str text => text.utf8ByteSize
  | .bytes data => data.length
  | .list items => items.length * layout.sizeOfValue
  | .record fields => fields.length * layout.sizeOfValue
  | .map entries => entries.length * layout.sizeOfValue + (entries.map fun entry => entry.1.ownBytes).sum
  | _ => 0

def isMessage : Value → Bool
  | .message _ => true
  | _ => false

def messageCount (value : Value) : Nat := value.sumOf fun inner => if inner.isMessage then 1 else 0

def chargeBytes (layout : Layout) (value : Value) : Nat := value.sumOf (ownBytes layout)

def heapBytes (layout : Layout) (value : Value) : Nat :=
  value.sumOf fun inner => ownBytes layout inner + if inner.isMessage then layout.sizeOfValue else 0

def isContainer : Value → Bool
  | .message _ | .list _ | .map _ | .record _ => true
  | _ => false

def isHollow (value : Value) : Bool := value.isContainer && value.children.isEmpty

theorem heap_bytes_split (layout : Layout) (value : Value) :
    value.heapBytes layout = value.chargeBytes layout + layout.sizeOfValue * value.messageCount := by
  induction value using children_induction with
  | step value ih =>
    rw [heapBytes, chargeBytes, messageCount, sum_of_eq, sum_of_eq, sum_of_eq]
    have inside : (value.children.map (heapBytes layout)).sum =
        (value.children.map (chargeBytes layout)).sum + layout.sizeOfValue * (value.children.map messageCount).sum := by
      rw [map_congr_left ih, sum_map_add, sum_map_mul_left]
    have own : (if value.isMessage = true then layout.sizeOfValue else 0) =
        layout.sizeOfValue * (if value.isMessage = true then 1 else 0) := by
      split
      · rw [Nat.mul_one]
      · rfl
    change _ + (value.children.map (heapBytes layout)).sum = _ + (value.children.map (chargeBytes layout)).sum +
      layout.sizeOfValue * (_ + (value.children.map messageCount).sum)
    rw [inside, own, Nat.mul_add]
    omega

section Levels

variable {value inner : Value} {depth levels : Nat}

theorem below_zero : Below 0 value inner ↔ inner = value := by
  constructor
  · rintro ⟨⟩
    rfl
  · rintro rfl
    exact .here _

theorem below_succ : Below (levels + 1) value inner ↔ ∃ child ∈ value.children, Below levels child inner := by
  constructor
  · rintro (_ | ⟨member, deeper⟩)
    exact ⟨_, member, deeper⟩
  · rintro ⟨child, member, deeper⟩
    exact .inside member deeper

theorem below_last : Below (levels + 1) value inner ↔ ∃ parent, Below levels value parent ∧ inner ∈ parent.children := by
  induction levels generalizing value with
  | zero =>
    simp only [below_succ, below_zero]
    constructor
    · rintro ⟨child, member, rfl⟩
      exact ⟨value, rfl, member⟩
    · rintro ⟨parent, rfl, member⟩
      exact ⟨inner, member, rfl⟩
  | succ levels ih =>
    rw [below_succ]
    simp only [ih]
    constructor
    · rintro ⟨child, member, parent, deeper, inside⟩
      exact ⟨parent, .inside member deeper, inside⟩
    · rintro ⟨parent, deeper, inside⟩
      obtain ⟨child, member, deeper⟩ := below_succ.mp deeper
      exact ⟨child, member, parent, deeper, inside⟩

theorem container_of_child (inside : inner ∈ value.children) : value.isContainer = true := by
  cases value with
  | message hop | list items | map entries | record fields => rfl
  | _ => cases inside

-- A statement about every level of a value, one level at a time.
theorem levels_iff (holds : Nat → Value → Prop) :
    (∀ levels inner, Below levels value inner → holds (depth + levels) inner) ↔
      holds depth value ∧ ∀ child ∈ value.children, ∀ levels inner, Below levels child inner → holds (depth + 1 + levels) inner := by
  constructor
  · intro all
    refine ⟨all 0 value (.here value), fun child member levels inner deeper => ?_⟩
    have at_ := all (levels + 1) inner (.inside member deeper)
    rwa [← Nat.add_assoc, Nat.add_right_comm] at at_
  · rintro ⟨here, inside⟩ levels inner deeper
    cases deeper with
    | here => exact here
    | inside member deeper =>
      have at_ := inside _ member _ inner deeper
      rwa [Nat.add_right_comm] at at_

theorem nests_within_levels : value.nestsWithin depth = true ↔ ∀ levels inner, Below levels value inner → depth + levels ≤ MAX_VALUE_DEPTH := by
  induction value using children_induction generalizing depth with
  | step value ih =>
    rw [nests_within_iff, levels_iff fun level _ => level ≤ MAX_VALUE_DEPTH]
    exact and_congr_right fun _ => forall_congr' fun child => forall_congr' fun member => ih child member

-- Where the size walk gives up: every container is above the limit.
def SizedWithin (depth : Nat) (value : Value) : Prop :=
  ∀ levels inner, Below levels value inner → inner.isContainer = true → depth + levels < MAX_VALUE_DEPTH

theorem sized_within_iff : value.SizedWithin depth ↔
    (value.isContainer = true → depth < MAX_VALUE_DEPTH) ∧ ∀ child ∈ value.children, child.SizedWithin (depth + 1) :=
  levels_iff fun level inner => inner.isContainer = true → level < MAX_VALUE_DEPTH

-- The walks part at an empty container in the last level.
theorem sized_within_nests : value.SizedWithin 0 ↔
    value.withinNestingLimit = true ∧ ∀ inner, Below MAX_VALUE_DEPTH value inner → inner.isHollow = false := by
  rw [withinNestingLimit, nests_within_levels]
  constructor
  · intro sized
    refine ⟨fun levels inner deeper => ?_, fun inner deeper => ?_⟩
    · cases levels with
      | zero => exact Nat.zero_le _
      | succ levels =>
        obtain ⟨parent, above, member⟩ := below_last.mp deeper
        exact Nat.le_trans (Nat.le_of_eq (Nat.add_assoc ..).symm) (sized levels parent above (container_of_child member))
    · cases container : inner.isContainer with
      | false => rw [isHollow, container, Bool.false_and]
      | true => exact absurd (sized _ inner deeper container) (by omega)
  · rintro ⟨within, full⟩ levels inner deeper container
    have level := within levels inner deeper
    rcases Nat.lt_or_eq_of_le level with above | last
    · exact above
    · rw [Nat.zero_add] at last
      rw [last] at deeper
      have filled := full inner deeper
      rw [isHollow, container, Bool.true_and] at filled
      cases inside : inner.children with
      | nil =>
        rw [inside] at filled
        cases filled
      | cons child rest =>
        have next := within (MAX_VALUE_DEPTH + 1) child (below_last.mpr ⟨inner, deeper, inside ▸ mem_cons_self⟩)
        omega

end Levels

end Value

section Sizes

variable {layout : Layout} {depth extra size : Nat}

theorem checked_iff (total : Nat) :
    (if total ≤ layout.usizeMax then some total else none) = some size ↔ size = total ∧ size ≤ layout.usizeMax := by
  split
  · rw [Option.some.injEq]
    constructor
    · rintro rfl
      exact ⟨rfl, by assumption⟩
    · rintro ⟨rfl, _⟩
      rfl
  · refine ⟨nofun, ?_⟩
    rintro ⟨rfl, fits⟩
    contradiction

theorem checked_add_iff (a b : Nat) : layout.checkedAdd a b = some size ↔ size = a + b ∧ size ≤ layout.usizeMax :=
  checked_iff (a + b)

theorem checked_mul_iff (a b : Nat) : layout.checkedMul a b = some size ↔ size = a * b ∧ size ≤ layout.usizeMax :=
  checked_iff (a * b)

theorem checked_add_fits {a b : Nat} (fits : a + b ≤ layout.usizeMax) : layout.checkedAdd a b = some (a + b) :=
  (checked_add_iff a b).mpr ⟨rfl, fits⟩

theorem checked_mul_fits {a b : Nat} (fits : a * b ≤ layout.usizeMax) : layout.checkedMul a b = some (a * b) :=
  (checked_mul_iff a b).mpr ⟨rfl, fits⟩

def Sizes (layout : Layout) (depth : Nat) (value : Value) : Prop :=
  ∀ size, value.heapSizeWalk layout depth = some size ↔
    value.SizedWithin depth ∧ size = value.heapBytes layout ∧ size ≤ layout.usizeMax

def Adds (layout : Layout) (within : Prop) (bytes : Nat) (step : Nat → Option Nat) : Prop :=
  ∀ extra size, step extra = some size ↔ within ∧ size = extra + bytes ∧ size ≤ layout.usizeMax

section Walk

-- The loops over items and over entries: the parts add up to the sum unless one of them is refused.
variable {β : Type} {walk : Nat → List β → Option Nat} {step : β → Nat → Option Nat} {within : β → Prop}
    {bytes : β → Nat} (stop : ∀ extra, walk extra [] = some extra)
    (next : ∀ extra part rest, walk extra (part :: rest) = (step part extra).bind (walk · rest)) (parts : List β)
    (each : ∀ part ∈ parts, Adds layout (within part) (bytes part) (step part))

include stop next each

theorem walk_adds (fits : extra ≤ layout.usizeMax) :
    walk extra parts = some size ↔
      (∀ part ∈ parts, within part) ∧ size = extra + (parts.map bytes).sum ∧ size ≤ layout.usizeMax := by
  induction parts generalizing extra with
  | nil =>
    rw [stop, Option.some.injEq, map_nil, sum_nil]
    constructor
    · rintro rfl
      exact ⟨nofun, rfl, fits⟩
    · rintro ⟨_, rfl, _⟩
      rfl
  | cons part rest ih =>
    have later := fun member => each member ∘ mem_cons_of_mem part
    simp only [next, Option.bind_eq_some_iff, each part mem_cons_self _ _, forall_mem_cons, map_cons, sum_cons]
    constructor
    · rintro ⟨_, ⟨here, rfl, bound⟩, walked⟩
      obtain ⟨below, rfl, inside⟩ := (ih later bound).mp walked
      exact ⟨⟨here, below⟩, Nat.add_assoc .., inside⟩
    · rintro ⟨⟨here, below⟩, rfl, inside⟩
      exact ⟨_, ⟨here, rfl, by omega⟩, (ih later (by omega)).mpr ⟨below, (Nat.add_assoc ..).symm, inside⟩⟩

theorem slots_add :
    ((layout.checkedMul parts.length layout.sizeOfValue).bind fun extra => walk extra parts) = some size ↔
      (∀ part ∈ parts, within part) ∧ size = parts.length * layout.sizeOfValue + (parts.map bytes).sum ∧
        size ≤ layout.usizeMax := by
  simp only [Option.bind_eq_some_iff, checked_mul_iff]
  constructor
  · rintro ⟨_, ⟨rfl, bound⟩, walked⟩
    exact (walk_adds stop next parts each bound).mp walked
  · rintro ⟨below, total, inside⟩
    have bound : parts.length * layout.sizeOfValue ≤ layout.usizeMax := by omega
    exact ⟨_, ⟨rfl, bound⟩, (walk_adds stop next parts each bound).mpr ⟨below, total, inside⟩⟩

end Walk

theorem item_adds {item : Value} (sizes : Sizes layout depth item) : Adds layout (item.SizedWithin depth) (item.heapBytes layout)
    fun extra => (item.heapSizeWalk layout depth).bind fun inner => layout.checkedAdd extra inner := by
  intro extra size
  simp only [Option.bind_eq_some_iff, sizes _, checked_add_iff]
  constructor
  · rintro ⟨_, ⟨here, rfl, _⟩, rfl, inside⟩
    exact ⟨here, rfl, inside⟩
  · rintro ⟨here, rfl, inside⟩
    exact ⟨_, ⟨here, rfl, by omega⟩, rfl, inside⟩

theorem entry_adds (entry : MapKey × Value) (sizes : Sizes layout depth entry.2) : Adds layout (entry.2.SizedWithin depth)
    (entry.1.ownBytes + entry.2.heapBytes layout) fun extra => entryHeapSize layout depth extra entry := by
  intro extra size
  obtain ⟨key, value⟩ := entry
  cases key with
  | str text =>
    simp only [entryHeapSize, Option.bind_eq_bind, Option.bind_eq_some_iff, sizes _, checked_add_iff, MapKey.ownBytes]
    constructor
    · rintro ⟨_, ⟨rfl, _⟩, _, ⟨here, rfl, _⟩, rfl, within⟩
      exact ⟨here, Nat.add_assoc .., within⟩
    · rintro ⟨here, rfl, within⟩
      exact ⟨_, ⟨rfl, by omega⟩, _, ⟨here, rfl, by omega⟩, (Nat.add_assoc ..).symm, within⟩
  | int key =>
    rw [MapKey.ownBytes, Nat.zero_add]
    exact item_adds sizes extra size

theorem heap_bytes_eq (value : Value) : value.heapBytes layout =
    value.ownBytes layout + (if value.isMessage then layout.sizeOfValue else 0) +
      (value.children.map (Value.heapBytes layout)).sum :=
  Value.sum_of_eq _ value

theorem limited_some {walk : Option Nat} :
    (if depth ≥ MAX_VALUE_DEPTH then none else walk) = some size ↔ depth < MAX_VALUE_DEPTH ∧ walk = some size := by
  split
  · exact ⟨nofun, fun ⟨above, _⟩ => absurd above (by omega)⟩
  · exact (and_iff_right (by omega)).symm

theorem sequence_heap_size (items : List Value) (each : ∀ item ∈ items, Sizes layout depth item) :
    ((layout.checkedMul items.length layout.sizeOfValue).bind fun extra => itemsHeapSize layout depth extra items) = some size ↔
      (∀ item ∈ items, item.SizedWithin depth) ∧
        size = items.length * layout.sizeOfValue + (items.map (Value.heapBytes layout)).sum ∧ size ≤ layout.usizeMax :=
  slots_add (fun _ => rfl) (fun _ _ _ => (Option.bind_assoc ..).symm) items fun item member => item_adds (each item member)

theorem map_heap_size (entries : List (MapKey × Value)) (each : ∀ entry ∈ entries, Sizes layout depth entry.2) :
    ((layout.checkedMul entries.length layout.sizeOfValue).bind fun extra => entriesHeapSize layout depth extra entries) = some size ↔
      (∀ entry ∈ entries, entry.2.SizedWithin depth) ∧
        size = (Value.map entries).ownBytes layout + (entries.map fun entry => entry.2.heapBytes layout).sum ∧
          size ≤ layout.usizeMax := by
  simp only [Value.ownBytes, Nat.add_assoc, ← sum_map_add]
  exact slots_add (fun _ => rfl) (fun _ _ _ => rfl) entries fun entry member => entry_adds entry (each entry member)

theorem message_heap_size (hop : Envelope Value) (sizes : Sizes layout depth hop.payload) :
    ((payloadHeapSize layout depth hop).bind fun inner => layout.checkedAdd layout.sizeOfValue inner) = some size ↔
      hop.payload.SizedWithin depth ∧ size = layout.sizeOfValue + hop.payload.heapBytes layout ∧ size ≤ layout.usizeMax := by
  obtain ⟨sender, replyCap, requestId, tag, payload⟩ := hop
  exact item_adds sizes layout.sizeOfValue size

theorem heap_size_walk (value : Value) : Sizes layout depth value := by
  induction value using Value.children_induction generalizing depth with
  | step value ih =>
    intro size
    rw [Value.sized_within_iff, heap_bytes_eq]
    have deeper : ∀ child ∈ value.children, Sizes layout (depth + 1) child := fun child member => ih child member
    cases value with
    | list items =>
      rw [Value.heapSizeWalk, limited_some, Option.bind_eq_bind, sequence_heap_size items deeper]
      simp [Value.isContainer, Value.children, Value.ownBytes, Value.isMessage, and_assoc]
    | record fields =>
      rw [Value.heapSizeWalk, limited_some, Option.bind_eq_bind, sequence_heap_size fields deeper]
      simp [Value.isContainer, Value.children, Value.ownBytes, Value.isMessage, and_assoc]
    | map entries =>
      have each : ∀ entry ∈ entries, Sizes layout (depth + 1) entry.2 := fun entry member =>
        deeper entry.2 (mem_map_of_mem member)
      rw [Value.heapSizeWalk, limited_some, Option.bind_eq_bind, map_heap_size entries each]
      simp only [Value.isContainer, Value.children, Value.isMessage, forall_mem_map, map_map, forall_const, and_assoc]
      rfl
    | message hop =>
      rw [Value.heapSizeWalk, limited_some, Option.bind_eq_bind, message_heap_size hop (deeper _ mem_cons_self)]
      simp [Value.isContainer, Value.children, Value.ownBytes, Value.isMessage, and_assoc]
    | str | bytes => simp [Value.heapSizeWalk, checked_add_iff, Value.isContainer, Value.children, Value.ownBytes, Value.isMessage]
    | _ =>
      simp only [Value.heapSizeWalk, Option.some.injEq]
      constructor
      · rintro rfl
        exact ⟨⟨fun isContainer => (by cases isContainer), forall_mem_nil _⟩, rfl, Nat.zero_le _⟩
      · rintro ⟨_, rfl, _⟩
        rfl

def Charges (layout : Layout) (depth : Nat) (value : Value) : Prop :=
  value.chargeBytes layout ≤ layout.usizeMax →
    value.chargeWalk layout depth =
      if value.nestsWithin depth then .ok (value.chargeBytes layout) else .error valueNestingExceedsLimit

theorem items_charge (items : List Value) (each : ∀ item ∈ items, Charges layout depth item)
    (fits : extra + (items.map (Value.chargeBytes layout)).sum ≤ layout.usizeMax) :
    itemsCharge layout depth extra items =
      if items.all (Value.nestsWithin depth) then .ok (extra + (items.map (Value.chargeBytes layout)).sum)
      else .error valueNestingExceedsLimit := by
  induction items generalizing extra with
  | nil => rfl
  | cons item rest ih =>
    have later := fun member => each member ∘ mem_cons_of_mem item
    rw [map_cons, sum_cons, ← Nat.add_assoc] at fits ⊢
    rw [itemsCharge, each item mem_cons_self (by omega), all_cons]
    cases item.nestsWithin depth with
    | false => rfl
    | true =>
      have room : extra + item.chargeBytes layout ≤ layout.usizeMax := by omega
      simp only [Bool.true_and, ← ih later fits, if_true, bind, Except.bind, checked_add_fits room]

theorem entry_charge (entry : MapKey × Value) (charges : Charges layout depth entry.2)
    (fits : extra + (entry.1.ownBytes + entry.2.chargeBytes layout) ≤ layout.usizeMax) :
    entryCharge layout depth extra entry =
      if entry.2.nestsWithin depth then .ok (extra + (entry.1.ownBytes + entry.2.chargeBytes layout))
      else .error valueNestingExceedsLimit := by
  obtain ⟨key, value⟩ := entry
  cases key with
  | str text =>
    rw [MapKey.ownBytes, ← Nat.add_assoc] at fits
    have room : extra + text.utf8ByteSize ≤ layout.usizeMax := by omega
    simp only [entryCharge, checked_add_fits room]
    rw [charges (by omega)]
    cases value.nestsWithin depth with
    | false => rfl
    | true => simp only [if_true, bind, Except.bind, checked_add_fits fits, MapKey.ownBytes, Nat.add_assoc]
  | int key =>
    rw [MapKey.ownBytes, Nat.zero_add] at fits
    rw [entryCharge, charges (by omega)]
    cases value.nestsWithin depth with
    | false => rfl
    | true => simp only [if_true, bind, Except.bind, checked_add_fits fits, MapKey.ownBytes, Nat.zero_add]

theorem entries_charge (entries : List (MapKey × Value)) (each : ∀ entry ∈ entries, Charges layout depth entry.2)
    (fits : extra + (entries.map fun entry => entry.1.ownBytes + entry.2.chargeBytes layout).sum ≤ layout.usizeMax) :
    entriesCharge layout depth extra entries =
      if entries.all (fun entry => entry.2.nestsWithin depth) then
        .ok (extra + (entries.map fun entry => entry.1.ownBytes + entry.2.chargeBytes layout).sum)
      else .error valueNestingExceedsLimit := by
  induction entries generalizing extra with
  | nil => rfl
  | cons entry rest ih =>
    have later := fun member => each member ∘ mem_cons_of_mem entry
    rw [map_cons, sum_cons, ← Nat.add_assoc] at fits ⊢
    rw [entriesCharge, entry_charge entry (each entry mem_cons_self) (by omega), all_cons]
    cases entry.2.nestsWithin depth with
    | false => rfl
    | true => simp only [Bool.true_and, ← ih later fits, if_true, bind, Except.bind]

theorem charge_bytes_eq (value : Value) : value.chargeBytes layout =
    value.ownBytes layout + (value.children.map (Value.chargeBytes layout)).sum :=
  Value.sum_of_eq _ value

theorem nests_within_eq (value : Value) (within : depth ≤ MAX_VALUE_DEPTH) :
    value.nestsWithin depth = value.children.all (Value.nestsWithin (depth + 1)) := by
  rw [Bool.eq_iff_iff, nests_within_iff, all_eq_true]
  exact and_iff_right within

theorem charge_walk (value : Value) : Charges layout depth value := by
  induction value using Value.children_induction generalizing depth with
  | step value ih =>
    intro fits
    have deeper : ∀ child ∈ value.children, Charges layout (depth + 1) child := fun child member => ih child member
    rw [Value.chargeWalk.eq_def]
    split
    case isTrue past =>
      have nests : value.nestsWithin depth = false := by
        rw [Bool.eq_false_iff, ne_eq, nests_within_iff]
        exact fun within => absurd within.1 (by omega)
      rw [nests]
      rfl
    case isFalse within =>
      rw [nests_within_eq value (by omega), charge_bytes_eq]
      rw [charge_bytes_eq] at fits
      cases value with
      | list items =>
        have room : items.length * layout.sizeOfValue ≤ layout.usizeMax := Nat.le_trans (Nat.le_add_right ..) fits
        simp only [checked_mul_fits room]
        exact items_charge items deeper fits
      | record fields =>
        have room : fields.length * layout.sizeOfValue ≤ layout.usizeMax := Nat.le_trans (Nat.le_add_right ..) fits
        simp only [checked_mul_fits room]
        exact items_charge fields deeper fits
      | map entries =>
        have each : ∀ entry ∈ entries, Charges layout (depth + 1) entry.2 := fun entry member =>
          deeper entry.2 (mem_map_of_mem member)
        simp only [Value.ownBytes, Value.children, map_map, Function.comp_def, Nat.add_assoc, ← sum_map_add,
          all_map] at fits ⊢
        have room : entries.length * layout.sizeOfValue ≤ layout.usizeMax := Nat.le_trans (Nat.le_add_right ..) fits
        simp only [checked_mul_fits room]
        exact entries_charge entries each fits
      | message hop =>
        obtain ⟨sender, replyCap, requestId, tag, payload⟩ := hop
        simp only [Value.ownBytes, Value.children, map_cons, map_nil, sum_cons, sum_nil, Nat.zero_add,
          Nat.add_zero, all_cons, all_nil, Bool.and_true, payloadCharge] at fits ⊢
        exact deeper payload mem_cons_self fits
      | _ => rfl

variable {value : Value}

theorem heap_size_limited_some : value.heapSizeLimited layout = some size ↔
    value.SizedWithin 0 ∧ size = value.heapBytes layout ∧ size ≤ layout.usizeMax :=
  heap_size_walk value size

theorem charge_bytes_le (layout : Layout) (value : Value) : value.chargeBytes layout ≤ value.heapBytes layout := by
  rw [Value.heap_bytes_split]
  exact Nat.le_add_right ..

theorem memory_size_saturates (fits : layout.sizeOfValue + value.heapBytes layout < layout.usizeMax) :
    value.memorySize layout = layout.usizeMax ↔ ¬value.SizedWithin 0 := by
  rw [Value.memorySize]
  cases walked : value.heapSizeLimited layout with
  | some heap =>
    obtain ⟨sized, rfl, _⟩ := heap_size_limited_some.mp walked
    simp only [Layout.saturatingAdd]
    exact ⟨fun saturated => absurd saturated (by omega), fun deep => absurd sized deep⟩
  | none =>
    refine iff_of_true rfl fun sized => ?_
    have sizes : value.heapSizeLimited layout = some (value.heapBytes layout) :=
      heap_size_limited_some.mpr ⟨sized, rfl, by omega⟩
    rw [walked] at sizes
    cases sizes

theorem heap_charge_nesting (fits : value.chargeBytes layout ≤ layout.usizeMax) :
    heapChargeOf layout value = .error valueNestingExceedsLimit ↔ value.withinNestingLimit = false := by
  rw [heapChargeOf, charge_walk value fits, Value.withinNestingLimit]
  cases value.nestsWithin 0 with
  | true => exact ⟨nofun, nofun⟩
  | false => exact ⟨fun _ => rfl, fun _ => rfl⟩

theorem nesting_checks_agree_iff (fits : layout.sizeOfValue + value.heapBytes layout < layout.usizeMax) :
    ((value.memorySize layout = layout.usizeMax ↔ value.withinNestingLimit = false) ∧
        (heapChargeOf layout value = .error valueNestingExceedsLimit ↔ value.withinNestingLimit = false)) ↔
      (value.withinNestingLimit = true → ∀ inner, Value.Below MAX_VALUE_DEPTH value inner → inner.isHollow = false) := by
  have small := charge_bytes_le layout value
  rw [and_iff_left (heap_charge_nesting (by omega)), memory_size_saturates fits, Value.sized_within_nests]
  cases value.withinNestingLimit with
  | false => exact iff_of_true (iff_of_true (fun both => absurd both.1 nofun) rfl) nofun
  | true =>
    simp only [true_and, Bool.true_eq_false, iff_false, not_not, forall_const]

def Value.nested : Nat → Value → Value
  | 0, value => value
  | levels + 1, value => .list [Value.nested levels value]

theorem below_nested {levels : Nat} {inner : Value} (below : Value.Below levels (.nested levels value) inner) : inner = value := by
  induction levels with
  | zero => exact Value.below_zero.mp below
  | succ levels ih =>
    obtain ⟨child, member, deeper⟩ := Value.below_succ.mp below
    cases mem_singleton.mp member
    exact ih deeper

-- A unit as deep as the limit allows.
def Value.boxed : Value := .nested MAX_VALUE_DEPTH .unit

theorem boxed_checks_agree :
    Value.boxed.withinNestingLimit = true ∧ Layout.word.sizeOfValue + Value.boxed.heapBytes .word < Layout.word.usizeMax ∧
      (Value.boxed.memorySize .word = Layout.word.usizeMax ↔ Value.boxed.withinNestingLimit = false) ∧
      (heapChargeOf .word .boxed = .error valueNestingExceedsLimit ↔ Value.boxed.withinNestingLimit = false) := by
  have fits : Layout.word.sizeOfValue + Value.boxed.heapBytes .word < Layout.word.usizeMax := by
    simp [heap_bytes_eq, Value.boxed, Value.nested, Value.children, Value.ownBytes, Value.isMessage, Layout.word, MAX_VALUE_DEPTH]
  refine ⟨by decide, fits, (nesting_checks_agree_iff fits).mpr fun _ inner deeper => ?_⟩
  rw [below_nested deeper]
  rfl

def Value.deepEmpty : Value := .nested MAX_VALUE_DEPTH (.list [])

theorem deep_empty_checks_differ :
    Value.deepEmpty.withinNestingLimit = true ∧ Value.deepEmpty.memorySize .word = Layout.word.usizeMax ∧
      heapChargeOf .word .deepEmpty = .ok 1024 ∧
      Layout.word.sizeOfValue + Value.deepEmpty.heapBytes .word < Layout.word.usizeMax := by
  refine ⟨by decide, by decide, by rfl, ?_⟩
  simp [heap_bytes_eq, Value.deepEmpty, Value.nested, Value.children, Value.ownBytes, Value.isMessage, Layout.word, MAX_VALUE_DEPTH]

theorem in_flight_hop_charge_splits {heap : Nat} (walked : value.heapSizeLimited layout = some heap)
    (fits : layout.sizeOfValue + heap ≤ layout.usizeMax) :
    ∃ held, heapChargeOf layout value = .ok held ∧ inFlightHopCharge layout value + held = value.memorySize layout ∧
      inFlightHopCharge layout value = layout.sizeOfValue * (1 + value.messageCount) := by
  obtain ⟨sized, rfl, _⟩ := heap_size_limited_some.mp walked
  have nests : value.nestsWithin 0 = true := (Value.sized_within_nests.mp sized).1
  have split := Value.heap_bytes_split layout value
  have charge : heapChargeOf layout value = .ok (value.chargeBytes layout) := by
    rw [heapChargeOf, charge_walk value (by omega), nests, if_pos rfl]
  have whole : value.memorySize layout = layout.sizeOfValue + value.heapBytes layout := by
    simp only [Value.memorySize, walked, Layout.saturatingAdd]
    exact Nat.min_eq_left fits
  have flight : inFlightHopCharge layout value = value.memorySize layout - value.chargeBytes layout := by
    simp only [inFlightHopCharge, charge]
  refine ⟨value.chargeBytes layout, charge, ?_, ?_⟩
  · rw [flight, whole]
    omega
  · rw [flight, whole, Nat.mul_add, Nat.mul_one]
    omega

def Value.forwarded : Value := .message ⟨1, .NONE, 0, 0, .message ⟨2, .NONE, 0, 0, .bytes [1, 2, 3]⟩⟩

theorem forwarded_splits :
    Value.forwarded.heapSizeLimited .word = some 131 ∧ Layout.word.sizeOfValue + 131 ≤ Layout.word.usizeMax ∧
      ∃ held, heapChargeOf .word .forwarded = .ok held ∧
        inFlightHopCharge .word .forwarded + held = Value.forwarded.memorySize .word ∧
        inFlightHopCharge .word .forwarded = Layout.word.sizeOfValue * (1 + Value.forwarded.messageCount) := by
  have walked : Value.forwarded.heapSizeLimited .word = some 131 := rfl
  have fits : Layout.word.sizeOfValue + 131 ≤ Layout.word.usizeMax := by decide
  exact ⟨walked, fits, in_flight_hop_charge_splits walked fits⟩

end Sizes

end Byteflow
