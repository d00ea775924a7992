import Byteflow.Format

namespace Byteflow

open Codec

theorem read_le_exact {α : Type} (width : Nat) (toNat : α → Nat) (ofNat : Nat → α) (small : ∀ a, toNat a < 256 ^ width)
    (ofToNat : ∀ a, ofNat (toNat a) = a) (toOfNat : ∀ n, n < 256 ^ width → toNat (ofNat n) = n) :
    Exact (readLe width ofNat) (fun a => leBytes width (toNat a)) (fun _ => True) :=
  exact_le FormatError.truncated width toNat ofNat small ofToNat toOfNat

theorem u32_of_small (n : Nat) (small : n < 256 ^ 4) : (UInt32.ofNat n).toNat = n := by
  rw [UInt32.toNat_ofNat']
  exact Nat.mod_eq_of_lt small

theorem u64_of_small (n : Nat) (small : n < 256 ^ 8) : (UInt64.ofNat n).toNat = n := by
  rw [UInt64.toNat_ofNat']
  exact Nat.mod_eq_of_lt small

theorem read_u8_exact : Exact readU8 (fun byte => [byte]) (fun _ => True) := by
  have read := read_le_exact 1 UInt8.toNat UInt8.ofNat (fun a => a.toNat_lt) (fun _ => UInt8.ofNat_toNat)
    fun n small => by
      rw [UInt8.toNat_ofNat']
      exact Nat.mod_eq_of_lt small
  refine exact_congr read (fun _ => Iff.rfl) fun byte _ => ?_
  change [UInt8.ofNat byte.toNat] = [byte]
  rw [UInt8.ofNat_toNat]

theorem read_u16_exact : Exact readU16 writeU16 (fun _ => True) :=
  read_le_exact 2 UInt16.toNat UInt16.ofNat (fun a => a.toNat_lt) (fun _ => UInt16.ofNat_toNat) fun n small => by
    rw [UInt16.toNat_ofNat']
    exact Nat.mod_eq_of_lt small

theorem read_u32_exact : Exact readU32 writeU32 (fun _ => True) :=
  read_le_exact 4 UInt32.toNat UInt32.ofNat (fun a => a.toNat_lt) (fun _ => UInt32.ofNat_toNat) u32_of_small

theorem read_u64_exact : Exact readU64 writeU64 (fun _ => True) :=
  read_le_exact 8 UInt64.toNat UInt64.ofNat (fun a => a.toNat_lt) (fun _ => UInt64.ofNat_toNat) u64_of_small

theorem read_i32_exact : Exact readI32 writeI32 (fun _ => True) :=
  read_le_exact 4 (fun n : Int32 => n.toUInt32.toNat) (fun n => (UInt32.ofNat n).toInt32)
    (fun n => n.toUInt32.toNat_lt) (fun n => by rw [UInt32.ofNat_toNat]; rfl) u32_of_small

theorem read_i64_exact : Exact readI64 writeI64 (fun _ => True) :=
  read_le_exact 8 (fun n : Int64 => n.toUInt64.toNat) (fun n => (UInt64.ofNat n).toInt64)
    (fun n => n.toUInt64.toNat_lt) (fun n => by rw [UInt64.ofNat_toNat]; rfl) u64_of_small

theorem read_f64_exact : Exact readF64 writeF64 (fun _ => True) :=
  read_le_exact 8 (fun x : F64 => x.bits.toNat) (fun n => ⟨UInt64.ofNat n⟩) (fun x => x.bits.toNat_lt)
    (fun x => by rw [UInt64.ofNat_toNat]) u64_of_small

theorem read_u128_exact : Exact readU128 writeCapId (fun _ => True) :=
  read_le_exact 16 (fun id : CapId => id.raw.toNat) (fun n => ⟨BitVec.ofNat 128 n⟩) (fun id => id.raw.isLt)
    (fun id => by rw [BitVec.ofNat_toNat, BitVec.setWidth_eq]) fun n small => by
      rw [BitVec.toNat_ofNat]
      exact Nat.mod_eq_of_lt small

theorem read_length_exact (what : String) (limit : Nat) :
    Exact (readLength what limit) writeU32 (fun n => n.toNat ≤ limit) := by
  refine exact_congr (exact_bind read_u32_exact (fun n _ => exact_guard (n.toNat > limit) (FormatError.limitExceeded what n)
    (exact_pure n)) ?_) (fun n => ?_) fun _ _ => rfl
  · rintro n m _ ⟨_, rfl⟩
    rw [List.append_nil]
  · constructor
    · rintro ⟨m, _, within, rfl⟩
      omega
    · intro within
      exact ⟨n, trivial, by omega, rfl⟩

section Counted

variable {α : Type} {write : α → List UInt8} {ok : α → Prop} (size : α → Nat)

theorem counted_exact (what : String) (limit : Nat) (fits : limit < 2 ^ 32) (body : Nat → Reader α)
    (each : ∀ n, Exact (body n) write (fun a => size a = n ∧ ok a)) :
    Exact (do body (← readLength what limit).toNat) (fun a => writeU32 (UInt32.ofNat (size a)) ++ write a)
      (fun a => size a ≤ limit ∧ ok a) := by
  refine exact_congr (exact_bind (read_length_exact what limit) (fun n _ => each n.toNat) ?_) (fun a => ?_) fun _ _ => rfl
  · rintro n a _ ⟨isSize, _⟩
    rw [isSize, UInt32.ofNat_toNat]
  · constructor
    · rintro ⟨n, within, isSize, holds⟩
      exact ⟨isSize ▸ within, holds⟩
    · rintro ⟨within, holds⟩
      have exactSize : (UInt32.ofNat (size a)).toNat = size a := by
        rw [UInt32.toNat_ofNat', Nat.mod_eq_of_lt (by omega)]
      exact ⟨UInt32.ofNat (size a), by omega, exactSize.symm, holds⟩

end Counted

theorem read_items_exact {α : Type} {write : α → List UInt8} {ok : α → Prop} (what : String) (limit : Nat)
    (fits : limit < 2 ^ 32) (item : Nat → Reader α) (each : ∀ index, Exact (item index) write ok) :
    Exact (readItems what limit item) (fun items => writeU32 (UInt32.ofNat items.length) ++ items.flatMap write)
      (fun items => items.length ≤ limit ∧ ∀ a ∈ items, ok a) :=
  counted_exact List.length what limit fits _ fun n => exact_read_each item each 0 n

theorem from_utf8_some (bytes : List UInt8) (text : String) : fromUtf8 bytes = some text ↔ utf8Bytes text = bytes := by
  rw [fromUtf8, String.fromUTF8?]
  constructor
  · intro decoded
    split at decoded
    · cases decoded
      simp [utf8Bytes, String.fromUTF8, String.toUTF8]
    · cases decoded
  · rintro rfl
    have same : (⟨(utf8Bytes text).toArray⟩ : ByteArray) = text.toByteArray := by
      simp [utf8Bytes, String.toUTF8]
    rw [dif_pos (by rw [same]; exact text.isValidUTF8)]
    simp only [same]
    rfl

theorem utf8_bytes_length (text : String) : (utf8Bytes text).length = text.utf8ByteSize := rfl

theorem read_text_exact (what : String) (limit : Nat) (fits : limit < 2 ^ 32) :
    Exact (readText what limit) writeString (fun text => text.utf8ByteSize ≤ limit) := by
  have body : ∀ n, Exact (do orThrow .badUtf8 (fromUtf8 (← take FormatError.truncated n))) utf8Bytes (fun text => text.utf8ByteSize = n ∧ True) := by
    intro n
    refine exact_congr (exact_build fromUtf8 FormatError.badUtf8 (exact_take FormatError.truncated n)
      fun bytes text _ decoded => (from_utf8_some bytes text).mp decoded) (fun text => ?_) fun _ _ => rfl
    constructor
    · rintro ⟨bytes, length, decoded⟩
      rw [← (from_utf8_some bytes text).mp decoded, utf8_bytes_length] at length
      exact ⟨length, trivial⟩
    · rintro ⟨length, _⟩
      exact ⟨utf8Bytes text, length, (from_utf8_some _ _).mpr rfl⟩
  exact exact_congr (counted_exact String.utf8ByteSize what limit fits _ body) (fun _ => and_iff_left trivial) fun _ _ => rfl

theorem read_blob_exact (what : String) : Exact (readBlob what) writeBlob (fun data => data.length ≤ MAX_BLOB) := by
  have body : ∀ n, Exact (take FormatError.truncated n) (fun data => data) (fun data => data.length = n ∧ True) := by
    intro n
    exact exact_congr (exact_take FormatError.truncated n) (fun _ => (and_iff_left trivial).symm) fun _ _ => rfl
  exact exact_congr (counted_exact List.length what MAX_BLOB (by decide) _ body) (fun _ => and_iff_left trivial) fun _ _ => rfl

end Byteflow
