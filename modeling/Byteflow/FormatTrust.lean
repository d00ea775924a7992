import Byteflow.Exec
import Byteflow.FormatRoundTrip

namespace Byteflow

open List Codec

section Silent

variable {α : Type} {check next : Except VerifyError Unit}

def Silent (check : Except VerifyError Unit) : Prop := ∀ index kind, check ≠ .error (.forbiddenConstant index kind)

theorem silent_ok : Silent (.ok ()) := nofun

theorem silent_error {e : VerifyError} (other : ∀ index kind, e ≠ .forbiddenConstant index kind) : Silent (.error e) :=
  fun index kind same => other index kind (Except.error.inj same)

theorem silent_bind (first : Silent check) (then_ : Silent next) : Silent (do check; next) := by
  cases check with
  | error e => exact first
  | ok _ => exact then_

theorem silent_ite {cond : Prop} [Decidable cond] (yes : Silent check) (no : Silent next) : Silent (if cond then check else next) := by
  split
  · exact yes
  · exact no

theorem silent_each (items : List α) {visit : α → Except VerifyError Unit} (each : ∀ item ∈ items, Silent (visit item)) :
    Silent (items.forM visit) := by
  induction items with
  | nil => exact silent_ok
  | cons item rest ih =>
    exact silent_bind (each item mem_cons_self) (ih fun later member => each later (mem_cons_of_mem item member))

end Silent

section Checks

variable (chunk : Chunk) (limits : List (Option UInt8)) (at_ : Nat) (instr : Instruction)

theorem check_slot_silent (reg limit : UInt8) (what : String) : Silent (checkSlot at_ reg limit what) :=
  silent_ite silent_ok (silent_error nofun)

theorem check_window_silent (base : UInt8) (extra count : Nat) (limit : UInt8) : Silent (checkWindow at_ base extra count limit) :=
  silent_ite silent_ok (silent_ite (silent_error nofun) silent_ok)

theorem check_pack_silent (base : UInt8) (count : Int32) (width maxLen : Nat) : Silent (checkPack at_ base count width maxLen) :=
  silent_ite (silent_error nofun) (silent_ite silent_ok (silent_ite (silent_error nofun) silent_ok))

theorem with_limit_silent {check : UInt8 → Except VerifyError Unit} (each : ∀ limit, Silent (check limit)) :
    Silent (withLimit limits at_ check) := by
  rw [withLimit]
  split
  · exact each _
  · exact silent_ok

theorem verify_call_silent : Silent (verifyCall chunk limits at_ instr) := by
  rw [verifyCall]
  split
  · exact silent_error nofun
  · exact silent_ite (silent_error nofun) (with_limit_silent limits at_ fun limit =>
      silent_bind (check_slot_silent at_ _ limit _) (check_window_silent at_ _ _ _ limit))

theorem verify_start_child_silent : Silent (verifyStartChild chunk limits at_ instr) := by
  rw [verifyStartChild]
  split
  · exact silent_error nofun
  · exact silent_ite (silent_error nofun) (silent_ite (silent_error nofun)
      (with_limit_silent limits at_ fun limit => check_slot_silent at_ _ limit _))

theorem verify_jump_silent : Silent (verifyJump chunk at_ instr) := by
  rw [verifyJump]
  refine silent_ite (silent_error nofun) ?_
  split
  · exact silent_ok
  · exact silent_ite (silent_error nofun) silent_ok

theorem verify_instruction_silent : Silent (verifyInstruction chunk limits at_ instr) := by
  rw [verifyInstruction]
  split
  case h_1 => exact silent_ite (silent_error nofun) silent_ok
  case h_2 | h_3 | h_4 => exact verify_call_silent chunk limits at_ instr
  case h_5 => exact verify_start_child_silent chunk limits at_ instr
  case h_6 => exact with_limit_silent limits at_ fun limit => check_window_silent at_ _ _ _ limit
  case h_7 =>
    exact with_limit_silent limits at_ fun limit =>
      silent_bind (check_slot_silent at_ _ limit _) (check_slot_silent at_ _ limit _)
  case h_8 | h_9 | h_10 => exact check_pack_silent at_ _ _ _ _
  case h_11 => exact silent_ite silent_ok (silent_error nofun)
  case h_12 => exact silent_ite (silent_error nofun) silent_ok
  case h_13 | h_14 | h_15 => exact silent_ite silent_ok (silent_error nofun)
  case h_16 =>
    refine with_limit_silent limits at_ fun limit => ?_
    split
    · exact silent_ite silent_ok (silent_error nofun)
    · exact silent_error nofun
  case h_17 | h_18 | h_19 => exact verify_jump_silent chunk at_ instr
  case h_20 => exact silent_ok

theorem reject_fallthrough_silent : Silent (rejectFallthrough chunk) := by
  refine silent_each _ fun ⟨fn, function⟩ _ => ?_
  simp only [checkFallthrough]
  refine silent_ite silent_ok ?_
  split
  · exact silent_ite silent_ok (silent_error nofun)
  · exact silent_ok

theorem verify_function_silent (function : Nat) (fn : FunctionDef) : Silent (verifyFunction chunk function fn) :=
  silent_ite (silent_error nofun) (silent_ite (silent_error nofun) silent_ok)

end Checks

section Authority

variable {abi : UInt32} {chunk : Chunk} {value : Value} {index : Nat}

theorem reject_items_iff (items : List Value) :
    rejectUntrustedItems index items = .ok () ↔ ∀ item ∈ items, rejectUntrustedConstant index item = .ok () := by
  induction items with
  | nil => simp [rejectUntrustedItems]
  | cons item rest ih =>
    rw [rejectUntrustedItems, Exec.except_bind_ok_iff, forall_mem_cons, ← ih]
    exact ⟨fun ⟨_, head, tail⟩ => ⟨head, tail⟩, fun ⟨head, tail⟩ => ⟨(), head, tail⟩⟩

theorem reject_entries_iff (entries : List (MapKey × Value)) :
    rejectUntrustedEntries index entries = .ok () ↔ ∀ value ∈ entries.map Prod.snd, rejectUntrustedConstant index value = .ok () := by
  induction entries with
  | nil => simp [rejectUntrustedEntries]
  | cons entry rest ih =>
    obtain ⟨key, value⟩ := entry
    rw [rejectUntrustedEntries, rejectUntrustedEntry, Exec.except_bind_ok_iff, map_cons, forall_mem_cons, ← ih]
    exact ⟨fun ⟨_, head, tail⟩ => ⟨head, tail⟩, fun ⟨head, tail⟩ => ⟨(), head, tail⟩⟩

theorem reject_ok_iff (value : Value) : rejectUntrustedConstant index value = .ok () ↔ value.Plain := by
  induction value using Value.children_induction with
  | step value ih =>
    have each : (∀ child ∈ value.children, rejectUntrustedConstant index child = .ok ()) ↔ ∀ child ∈ value.children, child.Plain :=
      forall_congr' fun child => forall_congr' fun member => ih child member
    rw [Value.Plain, Value.everywhere_iff]
    cases value with
    | cap id | pid id | message hop => simp [rejectUntrustedConstant, Value.isAuthority]
    | list items | record fields =>
      rw [rejectUntrustedConstant, reject_items_iff]
      exact each.trans (and_iff_right rfl).symm
    | map entries =>
      rw [rejectUntrustedConstant, reject_entries_iff]
      exact each.trans (and_iff_right rfl).symm
    | _ => simp [rejectUntrustedConstant, Value.isAuthority, Value.children]

theorem fits_untrusted_iff : Fits .untrusted abi (fun _ => True) value ↔
    Fits .trusted abi (fun _ => True) value ∧ value.isAuthority = false := by
  cases value with
  | pid | cap | message => exact ⟨nofun, nofun⟩
  | _ => exact (and_iff_left rfl).symm

theorem everywhere_and_iff {holds other : Value → Prop} :
    value.Everywhere (fun inner => holds inner ∧ other inner) ↔ value.Everywhere holds ∧ value.Everywhere other :=
  ⟨fun both => ⟨Value.everywhere_mono (fun _ => And.left) value both, Value.everywhere_mono (fun _ => And.right) value both⟩,
    fun ⟨first, second⟩ => Value.everywhere_and value first second⟩

theorem constant_untrusted_iff : FitsWithin .untrusted abi (MAX_VALUE_DEPTH + 1) value ↔
    FitsWithin .trusted abi (MAX_VALUE_DEPTH + 1) value ∧ value.Plain := by
  rw [fits_within_iff _ (Nat.le_refl _), fits_within_iff _ (Nat.le_refl _), and_right_comm, Value.Plain, ← everywhere_and_iff]
  exact and_congr_left fun _ => iff_of_eq (congrArg (Value.Everywhere · value) (funext fun _ => propext fits_untrusted_iff))

theorem chunk_untrusted_iff : ChunkFits .untrusted abi chunk ↔
    ChunkFits .trusted abi chunk ∧ ∀ value ∈ chunk.constants, value.Plain := by
  constructor
  · intro fits
    exact ⟨chunk_fits_trusted fits, fun value member => (constant_untrusted_iff.mp (fits.constants.2 value member)).2⟩
  · rintro ⟨fits, plain⟩
    exact ⟨fits.name, ⟨fits.constants.1, fun value member =>
      constant_untrusted_iff.mpr ⟨fits.constants.2 value member, plain value member⟩⟩, fits.functions, fits.code⟩

theorem validate_plain (trust : TrustLevel) (plain : value.Plain) (nests : value.withinNestingLimit = true) :
    validateConstant trust index value = .ok () := by
  rw [validateConstant, nests, (reject_ok_iff value).mpr plain]
  cases trust.allowsAuthorityConstants with
  | true | false => rfl

theorem verify_with_silent (config : VerifyConfig) (plain : ∀ value ∈ chunk.constants, value.Plain)
    (nests : ∀ value ∈ chunk.constants, value.withinNestingLimit = true) : Silent (verifyWith chunk config) := by
  rw [verifyWith]
  refine silent_ite (silent_error nofun) ?_
  refine silent_bind (silent_each _ fun ⟨value, index⟩ member => ?_) ?_
  · have inside : value ∈ chunk.constants := fst_mem_of_mem_zipIdx member
    have valid : validateConstant config.trust index value = .ok () :=
      validate_plain config.trust (plain value inside) (nests value inside)
    simp only [valid]
    exact silent_ok
  · refine silent_bind (silent_each _ fun ⟨fn, function⟩ _ => verify_function_silent chunk function fn) ?_
    exact silent_bind (silent_each _ fun ⟨instr, at_⟩ _ => verify_instruction_silent chunk _ at_ instr)
      (reject_fallthrough_silent chunk)

theorem decode_untrusted_iff (bytes : List UInt8) :
    (∀ chunk, decodeWith bytes .untrusted = .ok chunk ↔
      decodeWith bytes .trusted = .ok chunk ∧ ∀ value ∈ chunk.constants, value.Plain) ∧
    ∀ chunk, decodeWith bytes .untrusted = .ok chunk → ∀ index kind,
      verifyWith chunk { trust := .untrusted } ≠ .error (.forbiddenConstant index kind) := by
  have accepted : ∀ chunk, decodeWith bytes .untrusted = .ok chunk ↔
      decodeWith bytes .trusted = .ok chunk ∧ ∀ value ∈ chunk.constants, value.Plain := by
    intro chunk
    simp only [decode_with_ok_iff, chunk_untrusted_iff]
    constructor
    · rintro ⟨abi, supported, ⟨fits, plain⟩, written⟩
      exact ⟨⟨abi, supported, fits, written⟩, plain⟩
    · rintro ⟨⟨abi, supported, fits, written⟩, plain⟩
      exact ⟨abi, supported, ⟨fits, plain⟩, written⟩
  refine ⟨accepted, fun chunk decoded => ?_⟩
  obtain ⟨abi, _, fits, _⟩ := (decode_with_ok_iff bytes .untrusted chunk).mp decoded
  exact verify_with_silent _ ((accepted chunk).mp decoded).2 fun value member =>
    ((fits_within_iff _ (Nat.le_refl _) value).mp (fits.constants.2 value member)).2

def plainChunk : Chunk := { packed with constants := [.list [.str "x", .map [(.int 5, .bool true)]]] }

theorem plain_module_untrusted : decodeWith (encode plainChunk) .untrusted = .ok plainChunk ∧
    ∀ index kind, verifyWith plainChunk { trust := .untrusted } ≠ .error (.forbiddenConstant index kind) := by
  have constants : ∀ value ∈ plainChunk.constants, FitsWithin .untrusted 7 (MAX_VALUE_DEPTH + 1) value :=
    forall_mem_singleton.mpr ⟨by decide, by decide, forall_mem_cons.mpr ⟨(by decide : "x".utf8ByteSize ≤ MAX_BLOB),
      forall_mem_singleton.mpr ⟨by decide, by decide, by decide, forall_mem_singleton.mpr ⟨trivial, trivial⟩⟩⟩⟩
  have decoded : decodeWith (encode plainChunk) .untrusted = .ok plainChunk :=
    (decode_with_ok_iff _ _ _).mpr ⟨7, by decide, ⟨by decide, ⟨by decide, constants⟩, by decide, by decide⟩, rfl⟩
  exact ⟨decoded, (decode_untrusted_iff _).2 _ decoded⟩

end Authority

section Versions

def withVersion (abi : UInt32) (bytes : List UInt8) : List UInt8 := bytes.take 4 ++ (writeU32 abi ++ bytes.drop 8)

theorem with_version_encode (abi : UInt32) (chunk : Chunk) :
    withVersion abi (encode chunk) = MAGIC ++ (writeU32 abi ++ encodeBody chunk) := by
  rw [withVersion, encode, header_body]
  rfl

section Newer

variable {abi newer : UInt32} {value : Value}

theorem fits_newer {trust : TrustLevel} (fits : Fits trust abi (fun _ => True) value) (le : abi ≤ newer) :
    Fits trust newer (fun _ => True) value := by
  cases value with
  | list | map | record => exact ⟨UInt32.le_trans fits.1 le, fits.2⟩
  | _ => exact fits

theorem chunk_fits_newer {trust : TrustLevel} {chunk : Chunk} (fits : ChunkFits trust abi chunk) (le : abi ≤ newer) :
    ChunkFits trust newer chunk := by
  refine ⟨fits.name, ⟨fits.constants.1, fun value member => ?_⟩, fits.functions, fits.code⟩
  obtain ⟨everywhere, nests⟩ := (fits_within_iff _ (Nat.le_refl _) value).mp (fits.constants.2 value member)
  exact (fits_within_iff _ (Nat.le_refl _) value).mpr
    ⟨Value.everywhere_mono (fun _ here => fits_newer here le) value everywhere, nests⟩

end Newer

theorem module_abi_newest (constants : List Value) : moduleAbi constants ≤ 8 := by
  have supported := module_abi_supported constants
  simp only [supportedAbi, Bool.or_eq_true, beq_iff_eq] at supported
  rcases supported with ((abi | abi) | abi) | abi <;> rw [abi] <;> decide

theorem version_supported {abi : UInt32} (oldest : 5 ≤ abi) (newest : abi ≤ 8) : supportedAbi abi = true := by
  have low : 5 ≤ abi.toNat := UInt32.le_iff_toNat_le.mp oldest
  have high : abi.toNat ≤ 8 := UInt32.le_iff_toNat_le.mp newest
  have named : abi = 5 ∨ abi = 6 ∨ abi = 7 ∨ abi = 8 := by
    simp only [← UInt32.toNat_inj, UInt32.reduceToNat]
    omega
  rcases named with rfl | rfl | rfl | rfl <;> rfl

theorem version_decodes_iff (chunk : Chunk) (bounded : chunk.Bounded) (abi : UInt32) (oldest : 5 ≤ abi) (newest : abi ≤ 8) :
    ((∃ decoded, decodeWith (withVersion abi (encode chunk)) .trusted = .ok decoded) ↔ moduleAbi chunk.constants ≤ abi) ∧
      ∀ decoded, decodeWith (withVersion abi (encode chunk)) .trusted = .ok decoded → decoded = chunk := by
  have supported := version_supported oldest newest
  have reads : ∀ decoded, decodeWith (withVersion abi (encode chunk)) .trusted = .ok decoded →
      ChunkFits .trusted abi decoded ∧ encodeBody chunk = encodeBody decoded := by
    intro decoded done
    obtain ⟨read, _, fits, same⟩ := (decode_with_ok_iff _ _ _).mp done
    rw [with_version_encode] at same
    obtain ⟨rfl, bodies⟩ := exact_unique read_u32_exact trivial trivial (append_cancel_left same)
    exact ⟨fits, bodies⟩
  have written : ChunkFits .trusted (moduleAbi chunk.constants) chunk := bounded_chunk_fits bounded .trusted (Or.inl rfl)
  have accepted : moduleAbi chunk.constants ≤ abi → decodeWith (withVersion abi (encode chunk)) .trusted = .ok chunk := by
    intro le
    rw [with_version_encode]
    exact (decode_with_ok_iff _ _ _).mpr ⟨abi, supported, chunk_fits_newer written le, rfl⟩
  have same : ∀ decoded, decodeWith (withVersion abi (encode chunk)) .trusted = .ok decoded → decoded = chunk := by
    intro decoded done
    obtain ⟨fits, bodies⟩ := reads decoded done
    have bodies : encodeBody decoded ++ [] = encodeBody chunk ++ [] := by rw [bodies]
    exact (exact_unique (decode_body_exact .trusted 8) (chunk_fits_newer fits newest)
      (chunk_fits_newer written (module_abi_newest chunk.constants)) bodies).1
  refine ⟨⟨fun ⟨decoded, done⟩ => ?_, fun le => ⟨chunk, accepted le⟩⟩, same⟩
  have fits := (reads decoded done).1
  rw [same decoded done] at fits
  exact module_abi_least supported (decoded_covered fits)

theorem packed_version :
    packed.Bounded ∧ ((∃ decoded, decodeWith (withVersion 7 (encode packed)) .trusted = .ok decoded) ↔
      moduleAbi packed.constants ≤ 7) :=
  ⟨packed_bounded, (version_decodes_iff packed packed_bounded 7 (by decide) (by decide)).1⟩

end Versions

end Byteflow
