import Mathlib

-- Readers of byte strings that consume a front part and may fail. The state
-- is what has not been read yet.
abbrev Codec (ε α : Type) := StateT (List UInt8) (Except ε) α

namespace Codec

variable {ε α β : Type}

-- The reader accepts exactly what the writer writes for the values in ok, and
-- leaves the rest untouched. One equivalence holds both directions: what is
-- written is read back, and nothing else is accepted.
def Exact (read : Codec ε α) (write : α → List UInt8) (ok : α → Prop) : Prop :=
  ∀ input a rest, read.run input = .ok (a, rest) ↔ input = write a ++ rest ∧ ok a

def orThrow (e : ε) : Option α → Codec ε α
  | some a => pure a
  | none => throw e

theorem run_bind_ok (first : Codec ε α) (next : α → Codec ε β) (input : List UInt8) (result : β × List UInt8) :
    (first >>= next).run input = .ok result ↔
      ∃ a middle, first.run input = .ok (a, middle) ∧ (next a).run middle = .ok result := by
  rw [StateT.run_bind]
  cases first.run input with
  | error e => simp [bind, Except.bind]
  | ok pair =>
    obtain ⟨a, middle⟩ := pair
    simp [bind, Except.bind]

section Rules

variable {read : Codec ε α} {write : α → List UInt8} {ok : α → Prop} {writeBoth : β → List UInt8}

theorem exact_congr {write' : α → List UInt8} {ok' : α → Prop} (exact : Exact read write ok)
    (accepts : ∀ a, ok a ↔ ok' a) (writes : ∀ a, ok a → write a = write' a) : Exact read write' ok' := by
  intro input a rest
  rw [exact input a rest, ← accepts a]
  constructor
  · rintro ⟨same, holds⟩
    exact ⟨by rw [same, writes a holds], holds⟩
  · rintro ⟨same, holds⟩
    exact ⟨by rw [same, writes a holds], holds⟩

theorem exact_pure (a : α) : Exact (pure a : Codec ε α) (fun _ => []) (fun b => b = a) := by
  intro input b rest
  rw [StateT.run_pure]
  change Except.ok (a, input) = Except.ok (b, rest) ↔ _
  simp only [Except.ok.injEq, Prod.mk.injEq, List.nil_append]
  exact ⟨fun ⟨same, unread⟩ => ⟨unread, same.symm⟩, fun ⟨unread, same⟩ => ⟨same.symm, unread⟩⟩

theorem exact_throw (e : ε) (write : α → List UInt8) : Exact (throw e : Codec ε α) write (fun _ => False) := by
  intro input a rest
  refine ⟨fun impossible => ?_, fun ⟨_, impossible⟩ => impossible.elim⟩
  cases impossible

theorem exact_ite (c : Prop) [Decidable c] {other : Codec ε α} {otherOk : α → Prop} (yes : Exact read write ok)
    (no : Exact other write otherOk) :
    Exact (if c then read else other) write (fun a => if c then ok a else otherOk a) := by
  by_cases holds : c
  · simp only [if_pos holds]
    exact yes
  · simp only [if_neg holds]
    exact no

theorem exact_guard (c : Prop) [Decidable c] (e : ε) (exact : Exact read write ok) :
    Exact (if c then throw e else read) write (fun a => ¬ c ∧ ok a) := by
  refine exact_congr (exact_ite c (exact_throw e write) exact) (fun a => ?_) fun _ _ => rfl
  by_cases holds : c
  · simp [holds]
  · simp [holds]

theorem exact_bind {next : α → Codec ε β} {writeNext : α → β → List UInt8} {okNext : α → β → Prop}
    (first : Exact read write ok)
    (second : ∀ a, ok a → Exact (next a) (writeNext a) (okNext a))
    (writes : ∀ a b, ok a → okNext a b → writeBoth b = write a ++ writeNext a b) :
    Exact (read >>= next) writeBoth (fun b => ∃ a, ok a ∧ okNext a b) := by
  intro input b rest
  rw [run_bind_ok]
  constructor
  · rintro ⟨a, middle, readFirst, readNext⟩
    obtain ⟨rfl, holds⟩ := (first input a middle).mp readFirst
    obtain ⟨rfl, nextHolds⟩ := (second a holds middle b rest).mp readNext
    exact ⟨by rw [writes a b holds nextHolds, List.append_assoc], a, holds, nextHolds⟩
  · rintro ⟨rfl, a, holds, nextHolds⟩
    refine ⟨a, writeNext a b ++ rest, ?_, ?_⟩
    · exact (first _ _ _).mpr ⟨by rw [writes a b holds nextHolds, List.append_assoc], holds⟩
    · exact (second a holds _ _ _).mpr ⟨rfl, nextHolds⟩

theorem exact_map (f : α → β) (exact : Exact read write ok) (writes : ∀ a, ok a → writeBoth (f a) = write a) :
    Exact (do return f (← read)) writeBoth (fun b => ∃ a, ok a ∧ b = f a) := by
  refine exact_bind exact (fun a _ => exact_pure (f a)) ?_
  rintro a b holds rfl
  rw [writes a holds, List.append_nil]

theorem exact_or_throw (e : ε) (result : Option α) : Exact (orThrow e result) (fun _ => []) (fun a => result = some a) := by
  cases result with
  | none => exact exact_congr (exact_throw e _) (fun a => by simp) fun _ _ => rfl
  | some made => exact exact_congr (exact_pure made) (fun a => by simp [eq_comm]) fun _ _ => rfl

theorem exact_build (build : α → Option β) (e : ε) (exact : Exact read write ok)
    (writes : ∀ a b, ok a → build a = some b → writeBoth b = write a) :
    Exact (do orThrow e (build (← read))) writeBoth (fun b => ∃ a, ok a ∧ build a = some b) := by
  refine exact_bind exact (fun a _ => exact_or_throw e (build a)) fun a b holds done => ?_
  rw [writes a b holds done, List.append_nil]

theorem exact_read_write (exact : Exact read write ok) (a : α) (holds : ok a) (rest : List UInt8) :
    read.run (write a ++ rest) = .ok (a, rest) := (exact _ a rest).mpr ⟨rfl, holds⟩

theorem exact_unique (exact : Exact read write ok) {a b : α} {restA restB : List UInt8} (okA : ok a) (okB : ok b)
    (same : write a ++ restA = write b ++ restB) : a = b ∧ restA = restB := by
  have first := exact_read_write exact a okA restA
  rw [same, exact_read_write exact b okB restB] at first
  cases first
  exact ⟨rfl, rfl⟩

end Rules

def take (short : ε) (n : Nat) : Codec ε (List UInt8) := do
  let input ← get
  if input.length < n then throw short
  else
    set (input.drop n)
    return input.take n

theorem exact_take (short : ε) (n : Nat) : Exact (take short n) (fun bytes => bytes) (fun bytes => bytes.length = n) := by
  intro input bytes rest
  have ran : (take short n).run input = if input.length < n then .error short else .ok (input.take n, input.drop n) := by
    change StateT.run (if input.length < n then throw short else (do set (input.drop n); return input.take n) :
      Codec ε (List UInt8)) input = _
    by_cases few : input.length < n
    · rw [if_pos few, if_pos few]
      rfl
    · rw [if_neg few, if_neg few]
      rfl
  rw [ran]
  constructor
  · intro done
    split at done
    · cases done
    cases done
    exact ⟨(List.take_append_drop n input).symm, List.length_take_of_le (by omega)⟩
  · rintro ⟨rfl, rfl⟩
    rw [if_neg (by simp)]
    simp

def leBytes : Nat → Nat → List UInt8
  | 0, _ => []
  | width + 1, n => UInt8.ofNat n :: leBytes width (n / 256)

def ofLe : List UInt8 → Nat
  | [] => 0
  | byte :: rest => byte.toNat + 256 * ofLe rest

theorem le_bytes_length (width n : Nat) : (leBytes width n).length = width := by
  induction width generalizing n with
  | zero => rfl
  | succ width ih => rw [leBytes, List.length_cons, ih]

theorem of_le_le_bytes (width n : Nat) (small : n < 256 ^ width) : ofLe (leBytes width n) = n := by
  induction width generalizing n with
  | zero =>
    rw [pow_zero] at small
    simp only [leBytes, ofLe]
    omega
  | succ width ih =>
    have high : n / 256 < 256 ^ width := by
      rw [pow_succ, Nat.mul_comm] at small
      exact Nat.div_lt_of_lt_mul small
    rw [leBytes, ofLe, ih (n / 256) high, UInt8.toNat_ofNat']
    omega

theorem of_le_lt (bytes : List UInt8) : ofLe bytes < 256 ^ bytes.length := by
  induction bytes with
  | nil => simp [ofLe]
  | cons byte rest ih =>
    have low : byte.toNat < 256 := byte.toNat_lt
    rw [ofLe, List.length_cons, pow_succ]
    omega

theorem le_bytes_of_le (bytes : List UInt8) : leBytes bytes.length (ofLe bytes) = bytes := by
  induction bytes with
  | nil => rfl
  | cons byte rest ih =>
    have low : byte.toNat < 256 := byte.toNat_lt
    have quotient : (byte.toNat + 256 * ofLe rest) / 256 = ofLe rest := by omega
    have digit : UInt8.ofNat (byte.toNat + 256 * ofLe rest) = byte := by
      rw [← UInt8.toNat_inj, UInt8.toNat_ofNat']
      omega
    rw [ofLe, List.length_cons, leBytes, quotient, digit, ih]

theorem exact_le (short : ε) (width : Nat) (toNat : α → Nat) (ofNat : Nat → α) (small : ∀ a, toNat a < 256 ^ width)
    (ofToNat : ∀ a, ofNat (toNat a) = a) (toOfNat : ∀ n, n < 256 ^ width → toNat (ofNat n) = n) :
    Exact (do return ofNat (ofLe (← take short width))) (fun a => leBytes width (toNat a)) (fun _ => True) := by
  refine exact_congr (exact_map (fun bytes => ofNat (ofLe bytes)) (exact_take short width) ?_) (fun a => ?_) fun _ _ => rfl
  · rintro bytes rfl
    rw [toOfNat _ (of_le_lt bytes)]
    exact le_bytes_of_le bytes
  · refine ⟨fun _ => trivial, fun _ => ⟨leBytes width (toNat a), le_bytes_length _ _, ?_⟩⟩
    rw [of_le_le_bytes width _ (small a), ofToNat]

section Tables

variable {write : α → List UInt8} {ok : α → Prop}

def readEach (item : Nat → Codec ε α) (index : Nat) : Nat → Codec ε (List α)
  | 0 => return []
  | count + 1 => do
    let first ← item index
    let rest ← readEach item (index + 1) count
    return first :: rest

theorem exact_read_each (item : Nat → Codec ε α) (each : ∀ index, Exact (item index) write ok) (index count : Nat) :
    Exact (readEach item index count) (fun items => items.flatMap write)
      (fun items => items.length = count ∧ ∀ a ∈ items, ok a) := by
  induction count generalizing index with
  | zero =>
    refine exact_congr (exact_pure []) (fun items => ?_) fun items empty => by rw [empty]; rfl
    rw [List.length_eq_zero_iff]
    exact ⟨fun empty => ⟨empty, by rw [empty]; exact List.forall_mem_nil _⟩, fun holds => holds.1⟩
  | succ count ih =>
    intro input items rest
    rw [readEach, run_bind_ok]
    constructor
    · rintro ⟨first, middle, readFirst, others⟩
      obtain ⟨tail, last, readRest, done⟩ := (run_bind_ok _ _ _ _).mp others
      cases done
      obtain ⟨rfl, firstOk⟩ := (each index _ _ _).mp readFirst
      obtain ⟨rfl, length, tailOk⟩ := (ih (index + 1) _ _ _).mp readRest
      refine ⟨?_, by rw [List.length_cons, length], List.forall_mem_cons.mpr ⟨firstOk, tailOk⟩⟩
      exact (List.append_assoc _ _ _).symm
    · rintro ⟨rfl, length, allOk⟩
      cases items with
      | nil => cases length
      | cons first tail =>
        obtain ⟨firstOk, tailOk⟩ := List.forall_mem_cons.mp allOk
        refine ⟨first, tail.flatMap write ++ rest, ?_, (run_bind_ok _ _ _ _).mpr ⟨tail, rest, ?_, rfl⟩⟩
        · exact (each index _ _ _).mpr ⟨List.append_assoc _ _ _, firstOk⟩
        · exact (ih (index + 1) _ _ _).mpr ⟨rfl, Nat.succ.inj length, tailOk⟩

end Tables

end Codec
