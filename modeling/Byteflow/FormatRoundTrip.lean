import Byteflow.FormatModule

namespace Byteflow

open Value List Codec

namespace Value

section Everywhere

variable {holds other : Value → Prop}

theorem everywhere_mono (weaker : ∀ value, holds value → other value) (value : Value) (all : value.Everywhere holds) :
    value.Everywhere other := by
  induction all with
  | mk value here _ ih => exact ⟨value, weaker value here, ih⟩

theorem everywhere_and (value : Value) (first : value.Everywhere holds) (second : value.Everywhere other) :
    value.Everywhere (fun inner => holds inner ∧ other inner) := by
  induction first with
  | mk value here _ ih =>
    obtain ⟨also, inside⟩ := (everywhere_iff other value).mp second
    exact ⟨value, ⟨here, also⟩, fun child member => ih child member (inside child member)⟩

theorem everywhere_of_all (all : ∀ value, holds value) (value : Value) : value.Everywhere holds := by
  induction value using children_induction with
  | step value ih => exact ⟨value, all value, ih⟩

end Everywhere

end Value

section Local

variable {trust : TrustLevel} {abi : UInt32}

theorem fits_iff (inner : Value → Prop) (value : Value) :
    Fits trust abi inner value ↔ Fits trust abi (fun _ => True) value ∧ ∀ child ∈ value.children, inner child := by
  cases value with
  | message hop => simp [Fits, Value.children]
  | list | record => simp [Fits, Value.children, and_assoc]
  | map entries =>
    simp only [Fits, Value.children, forall_mem_map, and_true]
    constructor
    · rintro ⟨since, distinct, short, fits⟩
      exact ⟨⟨since, distinct, short, fun entry member => (fits entry member).1⟩, fun entry member => (fits entry member).2⟩
    · rintro ⟨⟨since, distinct, short, keys⟩, inside⟩
      exact ⟨since, distinct, short, fun entry member => ⟨keys entry member, inside entry member⟩⟩
  | _ => simp [Fits, Value.children]

-- What the reader asks, level by level, is a condition on every value inside
-- and a bound on the nesting.
theorem fits_within_iff (levels : Nat) (shallow : levels ≤ MAX_VALUE_DEPTH + 1) (value : Value) :
    FitsWithin trust abi levels value ↔
      value.Everywhere (Fits trust abi fun _ => True) ∧ value.nestsWithin (MAX_VALUE_DEPTH + 1 - levels) = true := by
  induction levels generalizing value with
  | zero =>
    refine ⟨False.elim, fun ⟨_, nests⟩ => ?_⟩
    have within := ((nests_within_iff _ value).mp nests).1
    omega
  | succ levels ih =>
    have next : MAX_VALUE_DEPTH + 1 - (levels + 1) + 1 = MAX_VALUE_DEPTH + 1 - levels := by omega
    have within : MAX_VALUE_DEPTH + 1 - (levels + 1) ≤ MAX_VALUE_DEPTH := by omega
    rw [FitsWithin, fits_iff, everywhere_iff, nests_within_iff, next]
    constructor
    · rintro ⟨here, inside⟩
      exact ⟨⟨here, fun child member => ((ih (by omega) child).mp (inside child member)).1⟩, within,
        fun child member => ((ih (by omega) child).mp (inside child member)).2⟩
    · rintro ⟨⟨here, everywhere⟩, _, nests⟩
      exact ⟨here, fun child member => (ih (by omega) child).mpr ⟨everywhere child member, nests child member⟩⟩

end Local

section Header

variable {constants : List Value} {abi : UInt32}

def Covered (abi : UInt32) (value : Value) : Prop :=
  (value.wireTag = 9 → ABI_VERSION_LISTS ≤ abi) ∧ (value.wireTag = 10 → ABI_VERSION_MAPS ≤ abi) ∧
    (value.wireTag = 11 → ABI_VERSION_RECORDS ≤ abi)

theorem fits_covered {trust : TrustLevel} {value : Value} (fits : Fits trust abi (fun _ => True) value) : Covered abi value := by
  cases value with
  | list items => exact ⟨fun _ => fits.1, by simp [Value.wireTag], by simp [Value.wireTag]⟩
  | map entries => exact ⟨by simp [Value.wireTag], fun _ => fits.1, by simp [Value.wireTag]⟩
  | record fields => exact ⟨by simp [Value.wireTag], by simp [Value.wireTag], fun _ => fits.1⟩
  | _ => exact ⟨by simp [Value.wireTag], by simp [Value.wireTag], by simp [Value.wireTag]⟩

theorem none_contains (wanted : UInt8) (container : wanted = 9 ∨ wanted = 10 ∨ wanted = 11) :
    constants.any (Value.containsTag wanted) = false ↔
      ∀ value ∈ constants, value.Everywhere (fun inner => inner.wireTag ≠ wanted) := by
  simp only [any_eq_false, Bool.not_eq_true]
  exact forall_congr' fun value => forall_congr' fun _ => contains_tag_false_everywhere wanted container value

theorem module_abi_covers (value : Value) (member : value ∈ constants) : value.Everywhere (Covered (moduleAbi constants)) := by
  have absent : ∀ wanted : UInt8, wanted = 9 ∨ wanted = 10 ∨ wanted = 11 →
      ¬ constants.any (Value.containsTag wanted) = true → value.Everywhere (fun inner => inner.wireTag ≠ wanted) :=
    fun wanted container missing => (none_contains wanted container).mp (Bool.eq_false_iff.mpr missing) value member
  rw [moduleAbi]
  by_cases records : constantsContainRecord constants = true
  · rw [if_pos records]
    exact everywhere_of_all (fun inner => ⟨fun _ => by decide, fun _ => by decide, fun _ => by decide⟩) value
  · rw [if_neg records]
    have noRecord := absent 11 (by simp) records
    by_cases maps : constantsContainMap constants = true
    · rw [if_pos maps]
      exact everywhere_mono (fun inner notRecord =>
        ⟨fun _ => by decide, fun _ => by decide, fun isRecord => absurd isRecord notRecord⟩) value noRecord
    · rw [if_neg maps]
      have noMap := everywhere_and value noRecord (absent 10 (by simp) maps)
      by_cases lists : constantsContainList constants = true
      · rw [if_pos lists]
        exact everywhere_mono (fun inner not => ⟨fun _ => by decide, fun isMap => absurd isMap not.2,
          fun isRecord => absurd isRecord not.1⟩) value noMap
      · rw [if_neg lists]
        have noList := everywhere_and value noMap (absent 9 (by simp) lists)
        exact everywhere_mono (fun inner not => ⟨fun isList => absurd isList not.2,
          fun isMap => absurd isMap not.1.2, fun isRecord => absurd isRecord not.1.1⟩) value noList

theorem module_abi_supported (constants : List Value) : supportedAbi (moduleAbi constants) = true := by
  rw [moduleAbi]
  by_cases records : constantsContainRecord constants = true
  · rw [if_pos records]
    decide
  · rw [if_neg records]
    by_cases maps : constantsContainMap constants = true
    · rw [if_pos maps]
      decide
    · rw [if_neg maps]
      by_cases lists : constantsContainList constants = true
      · rw [if_pos lists]
        decide
      · rw [if_neg lists]
        decide

theorem module_abi_least (supported : supportedAbi abi = true)
    (covered : ∀ value ∈ constants, value.Everywhere (Covered abi)) : moduleAbi constants ≤ abi := by
  have present : ∀ wanted : UInt8, wanted = 9 ∨ wanted = 10 ∨ wanted = 11 →
      constants.any (Value.containsTag wanted) = true → ∃ value, value.wireTag = wanted ∧ Covered abi value := by
    intro wanted container found
    by_contra missing
    push Not at missing
    have nowhere := (none_contains wanted container).mpr fun value member =>
      everywhere_mono (fun inner covers isWanted => missing inner isWanted covers) value (covered value member)
    rw [nowhere] at found
    cases found
  have oldest : ABI_VERSION ≤ abi := by
    simp only [supportedAbi, Bool.or_eq_true, beq_iff_eq] at supported
    rcases supported with ((rfl | rfl) | rfl) | rfl <;> decide
  rw [moduleAbi]
  by_cases records : constantsContainRecord constants = true
  · rw [if_pos records]
    obtain ⟨value, isRecord, covers⟩ := present 11 (by simp) records
    exact covers.2.2 isRecord
  · rw [if_neg records]
    by_cases maps : constantsContainMap constants = true
    · rw [if_pos maps]
      obtain ⟨value, isMap, covers⟩ := present 10 (by simp) maps
      exact covers.2.1 isMap
    · rw [if_neg maps]
      by_cases lists : constantsContainList constants = true
      · rw [if_pos lists]
        obtain ⟨value, isList, covers⟩ := present 9 (by simp) lists
        exact covers.1 isList
      · rw [if_neg lists]
        exact oldest

end Header

theorem decode_with_ok_iff (bytes : List UInt8) (trust : TrustLevel) (chunk : Chunk) :
    decodeWith bytes trust = .ok chunk ↔ ∃ abi, supportedAbi abi = true ∧ ChunkFits trust abi chunk ∧
      bytes = MAGIC ++ (writeU32 abi ++ encodeBody chunk) := by
  have whole : decodeWith bytes trust = .ok chunk ↔ (readModule trust).run bytes = .ok (chunk, []) := by
    rw [decodeWith]
    cases (readModule trust).run bytes with
    | error e => simp
    | ok result =>
      obtain ⟨read, rest⟩ := result
      cases rest with
      | nil | cons => simp
  rw [whole, readModule]
  constructor
  · intro done
    obtain ⟨magic, _, readMagic, header⟩ := (run_bind_ok _ _ _ _).mp done
    obtain ⟨rfl, _⟩ := (exact_take _ _ _ _ _).mp readMagic
    split at header
    · cases header
    rename_i wrong
    obtain ⟨abi, _, readAbi, body⟩ := (run_bind_ok _ _ _ _).mp header
    obtain ⟨rfl, _⟩ := (read_u32_exact _ _ _).mp readAbi
    split at body
    · cases body
    rename_i unsupported
    obtain ⟨rfl, fits⟩ := (decode_body_exact trust abi _ _ _).mp body
    refine ⟨abi, (Bool.not_eq_false _).mp unsupported, fits, ?_⟩
    rw [not_not.mp wrong, append_nil]
  · rintro ⟨abi, supported, fits, rfl⟩
    refine (run_bind_ok _ _ _ _).mpr ⟨MAGIC, _, (exact_take _ _ _ _ _).mpr ⟨rfl, rfl⟩, ?_⟩
    rw [if_neg (not_not.mpr rfl)]
    refine (run_bind_ok _ _ _ _).mpr ⟨abi, _, (read_u32_exact _ _ _).mpr ⟨rfl, trivial⟩, ?_⟩
    rw [if_neg (by simp [supported])]
    exact (decode_body_exact trust abi _ _ _).mpr ⟨(append_nil _).symm, fits⟩

namespace Value

def BoundedHere : Value → Prop
  | .str text => text.utf8ByteSize ≤ 1024 * 1024
  | .bytes data => data.length ≤ 1024 * 1024
  | .list items => items.length ≤ 256
  | .record fields => fields.length ≤ 256
  | .map entries => entries.length ≤ 256 ∧ (entries.map Prod.fst).Nodup ∧
      ∀ text, .str text ∈ entries.map Prod.fst → text.utf8ByteSize ≤ 1024 * 1024
  | _ => True

def isAuthority : Value → Bool
  | .cap _ | .pid _ | .message _ => true
  | _ => false

def Plain (value : Value) : Prop := value.Everywhere (fun inner => inner.isAuthority = false)

theorem bounded_fits {trust : TrustLevel} {abi : UInt32} {value : Value} (bounded : value.BoundedHere)
    (covered : Covered abi value) (allowed : trust.allowsAuthorityConstants = true ∨ value.isAuthority = false) :
    Fits trust abi (fun _ => True) value := by
  have authority : value.isAuthority = true → trust.forbidsAuthorityConstants = false := by
    intro isAuthority
    rcases allowed with trusted | plain
    · rw [TrustLevel.forbidsAuthorityConstants, trusted]
      rfl
    · rw [isAuthority] at plain
      cases plain
  cases value with
  | pid | cap => exact authority rfl
  | message hop => exact ⟨authority rfl, trivial⟩
  | str | bytes => exact bounded
  | list items => exact ⟨covered.1 rfl, bounded, fun _ _ => trivial⟩
  | record fields => exact ⟨covered.2.2 rfl, bounded, fun _ _ => trivial⟩
  | map entries =>
    obtain ⟨short, distinct, keys⟩ := bounded
    refine ⟨covered.2.1 rfl, distinct, short, fun entry member => ⟨?_, trivial⟩⟩
    have listed := mem_map_of_mem (f := Prod.fst) member
    cases key : entry.1 with
    | int n => trivial
    | str text => exact keys text (key ▸ listed)
  | _ => trivial

end Value

structure Chunk.Bounded (chunk : Chunk) : Prop where
  name : chunk.name.utf8ByteSize ≤ 64 * 1024
  functionNames : ∀ fn ∈ chunk.functions, fn.name.utf8ByteSize ≤ 64 * 1024
  constantCount : chunk.constants.length ≤ 1000000
  functionCount : chunk.functions.length ≤ 1000000
  codeCount : chunk.code.length ≤ 1000000
  values : ∀ value ∈ chunk.constants, value.Everywhere Value.BoundedHere
  nesting : ∀ value ∈ chunk.constants, value.withinNestingLimit = true

theorem bounded_chunk_fits {chunk : Chunk} (bounded : chunk.Bounded) (trust : TrustLevel)
    (allowed : trust.allowsAuthorityConstants = true ∨ ∀ value ∈ chunk.constants, value.Plain) :
    ChunkFits trust (moduleAbi chunk.constants) chunk := by
  refine ⟨bounded.name, ⟨bounded.constantCount, fun value member => ?_⟩, ⟨bounded.functionCount, bounded.functionNames⟩,
    bounded.codeCount⟩
  have authority : value.Everywhere (fun inner => trust.allowsAuthorityConstants = true ∨ inner.isAuthority = false) := by
    rcases allowed with trusted | plain
    · exact everywhere_of_all (fun _ => Or.inl trusted) value
    · exact everywhere_mono (fun _ => Or.inr) value (plain value member)
  refine (fits_within_iff _ (Nat.le_refl _) value).mpr ⟨?_, ?_⟩
  · have here := everywhere_and value (everywhere_and value (bounded.values value member)
      (module_abi_covers value member)) authority
    exact everywhere_mono (fun _ all => bounded_fits all.1.1 all.1.2 all.2) value here
  · exact bounded.nesting value member

theorem decode_encode_trust {chunk : Chunk} (bounded : chunk.Bounded) (trust : TrustLevel)
    (allowed : trust.allowsAuthorityConstants = true ∨ ∀ value ∈ chunk.constants, value.Plain) :
    decodeWith (encode chunk) trust = .ok chunk :=
  (decode_with_ok_iff _ trust chunk).mpr
    ⟨moduleAbi chunk.constants, module_abi_supported _, bounded_chunk_fits bounded trust allowed, rfl⟩

theorem decode_encode (chunk : Chunk) (bounded : chunk.Bounded) :
    decodeWith (encode chunk) .trusted = .ok chunk ∧
      ((∀ value ∈ chunk.constants, value.Plain) → decodeWith (encode chunk) .untrusted = .ok chunk) :=
  ⟨decode_encode_trust bounded .trusted (Or.inl rfl), fun plain => decode_encode_trust bounded .untrusted (Or.inr plain)⟩

def packed : Chunk :=
  { name := "m", constants := [.list [.message ⟨1, ⟨2⟩, 3, 4, .str "x"⟩, .map [(.int 5, .bool true)]]],
    code := [{ op := .ret, a := 0, b := 0, c := 0, imm := -1 }],
    functions := [{ name := "main", entry := 0, arity := 0, numRegisters := 1 }] }

theorem packed_bounded : packed.Bounded := by
  have small : ∀ value : Value, value.children = [] → value.BoundedHere → value.Everywhere Value.BoundedHere :=
    fun value leaf here => ⟨value, here, by rw [leaf]; exact forall_mem_nil _⟩
  refine ⟨by decide, by decide, by decide, by decide, by decide, ?_, ?_⟩
  · intro value member
    rw [mem_singleton.mp member]
    refine ⟨_, by change 2 ≤ 256; decide, fun child inside => ?_⟩
    rcases mem_cons.mp inside with rfl | inside
    · refine ⟨_, trivial, fun child inside => ?_⟩
      rw [mem_singleton.mp inside]
      exact small _ rfl (by change "x".utf8ByteSize ≤ 1024 * 1024; decide)
    · rw [mem_singleton.mp inside]
      refine ⟨_, ⟨by decide, by decide, by simp⟩, fun child inside => ?_⟩
      rw [mem_singleton.mp inside]
      exact small _ rfl trivial
  · intro value member
    rw [mem_singleton.mp member]
    rfl

theorem packed_round_trip : decodeWith (encode packed) .trusted = .ok packed :=
  (decode_encode packed packed_bounded).1

section Canonical

variable {bytes : List UInt8} {trust : TrustLevel} {chunk : Chunk} {abi : UInt32}

theorem fits_trusted {value : Value} (fits : Fits trust abi (fun _ => True) value) :
    Fits .trusted abi (fun _ => True) value := by
  cases value with
  | pid | cap => rfl
  | message hop => exact ⟨rfl, trivial⟩
  | _ => exact fits

theorem chunk_fits_trusted (fits : ChunkFits trust abi chunk) : ChunkFits .trusted abi chunk := by
  refine ⟨fits.name, ⟨fits.constants.1, fun value member => ?_⟩, fits.functions, fits.code⟩
  obtain ⟨everywhere, nests⟩ := (fits_within_iff _ (Nat.le_refl _) value).mp (fits.constants.2 value member)
  exact (fits_within_iff _ (Nat.le_refl _) value).mpr ⟨everywhere_mono (fun _ => fits_trusted) value everywhere, nests⟩

theorem decoded_covered (fits : ChunkFits trust abi chunk) : ∀ value ∈ chunk.constants, value.Everywhere (Covered abi) := by
  intro value member
  have everywhere := ((fits_within_iff _ (Nat.le_refl _) value).mp (fits.constants.2 value member)).1
  exact everywhere_mono (fun _ => fits_covered) value everywhere

theorem header_word (abi : UInt32) (body : List UInt8) :
    ofLe (((MAGIC ++ (writeU32 abi ++ body)).drop 4).take 4) = abi.toNat := by
  have magic : (MAGIC ++ (writeU32 abi ++ body)).drop 4 = writeU32 abi ++ body := rfl
  rw [magic, writeU32, take_left' (le_bytes_length 4 _)]
  exact of_le_le_bytes 4 abi.toNat abi.toNat_lt

theorem header_body (abi : UInt32) (body : List UInt8) : (MAGIC ++ (writeU32 abi ++ body)).drop 8 = body := by
  have magic : (MAGIC ++ (writeU32 abi ++ body)).drop 8 = (writeU32 abi ++ body).drop 4 := rfl
  rw [magic, writeU32, drop_left' (le_bytes_length 4 _)]

theorem decode_extension {extra : List UInt8} {other : TrustLevel} {longer : Chunk}
    (decoded : decodeWith bytes trust = .ok chunk) (extended : decodeWith (bytes ++ extra) other = .ok longer) :
    extra = [] := by
  obtain ⟨abi, _, fits, rfl⟩ := (decode_with_ok_iff _ _ _).mp decoded
  obtain ⟨wider, _, widerFits, same⟩ := (decode_with_ok_iff _ _ _).mp extended
  simp only [append_assoc] at same
  have afterMagic := append_cancel_left same
  obtain ⟨rfl, bodies⟩ := exact_unique read_u32_exact trivial trivial afterMagic
  have bodies : encodeBody chunk ++ extra = encodeBody longer ++ [] := by rw [bodies, append_nil]
  exact (exact_unique (decode_body_exact .trusted abi) (chunk_fits_trusted fits) (chunk_fits_trusted widerFits) bodies).2

end Canonical

theorem decode_canonical (bytes : List UInt8) (trust : TrustLevel) (chunk : Chunk)
    (decoded : decodeWith bytes trust = .ok chunk) :
    bytes.take 4 = (encode chunk).take 4 ∧ bytes.drop 8 = (encode chunk).drop 8 ∧
      bytes.length = (encode chunk).length ∧
      ofLe (((encode chunk).drop 4).take 4) ≤ ofLe ((bytes.drop 4).take 4) ∧
      ∀ extra ≠ [], ∀ other longer, decodeWith (bytes ++ extra) other ≠ .ok longer := by
  refine ⟨?_, ?_, ?_, ?_, fun extra some_ other longer extended => some_ (decode_extension decoded extended)⟩
  all_goals obtain ⟨abi, supported, fits, rfl⟩ := (decode_with_ok_iff _ _ _).mp decoded
  · rfl
  · rw [encode, header_body, header_body]
  · simp [encode, writeU32, le_bytes_length]
  · rw [encode, header_word, header_word]
    exact module_abi_least supported (decoded_covered fits)

theorem newest_header_canonical : ∃ chunk, decodeWith (MAGIC ++ (writeU32 8 ++ encodeBody packed)) .trusted = .ok chunk ∧
    (MAGIC ++ (writeU32 8 ++ encodeBody packed)).drop 8 = (encode chunk).drop 8 := by
  have constants : ∀ value ∈ packed.constants, FitsWithin .trusted 8 (MAX_VALUE_DEPTH + 1) value :=
    forall_mem_singleton.mpr ⟨by decide, by decide, forall_mem_cons.mpr ⟨⟨rfl, (by decide : "x".utf8ByteSize ≤ MAX_BLOB)⟩,
      forall_mem_singleton.mpr ⟨by decide, by decide, by decide, forall_mem_singleton.mpr ⟨trivial, trivial⟩⟩⟩⟩
  have decoded := (decode_with_ok_iff (MAGIC ++ (writeU32 8 ++ encodeBody packed)) .trusted packed).mpr
    ⟨8, by decide, ⟨by decide, ⟨by decide, constants⟩, by decide, by decide⟩, rfl⟩
  exact ⟨packed, decoded, (decode_canonical _ .trusted _ decoded).2.1⟩

end Byteflow
