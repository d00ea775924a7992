import Byteflow.FormatExact
import Byteflow.ValueTree

namespace Byteflow

open List Codec

theorem items_contain_tag (wanted : UInt8) (items : List Value) :
    itemsContainTag wanted items = items.any (Value.containsTag wanted) := by
  induction items with
  | nil => rfl
  | cons item rest ih => rw [itemsContainTag, any_cons, ih]

theorem entries_contain_tag (wanted : UInt8) (entries : List (MapKey × Value)) :
    entriesContainTag wanted entries = (entries.map Prod.snd).any (Value.containsTag wanted) := by
  induction entries with
  | nil => rfl
  | cons entry rest ih =>
    obtain ⟨key, value⟩ := entry
    rw [entriesContainTag, map_cons, any_cons, ih]
    rfl

theorem contains_tag_false_iff (wanted : UInt8) (container : wanted = 9 ∨ wanted = 10 ∨ wanted = 11) (value : Value) :
    value.containsTag wanted = false ↔
      value.wireTag ≠ wanted ∧ ∀ child ∈ value.children, child.containsTag wanted = false := by
  cases value with
  | message hop =>
    obtain ⟨sender, replyCap, requestId, tag, payload⟩ := hop
    rcases container with rfl | rfl | rfl <;>
      simp [Value.containsTag, payloadContainsTag, Value.children, Value.wireTag]
  | list | record =>
    simp only [Value.containsTag, items_contain_tag, Value.children, Value.wireTag, Bool.or_eq_false_iff, any_eq_false,
      Bool.not_eq_true, beq_eq_false_iff_ne, @ne_comm UInt8]
  | map entries =>
    simp only [Value.containsTag, entries_contain_tag, Value.children, Value.wireTag, Bool.or_eq_false_iff,
      any_eq_false, Bool.not_eq_true, beq_eq_false_iff_ne, @ne_comm UInt8]
  | _ => rcases container with rfl | rfl | rfl <;> simp [Value.containsTag, Value.children, Value.wireTag]

theorem contains_tag_false_everywhere (wanted : UInt8) (container : wanted = 9 ∨ wanted = 10 ∨ wanted = 11) (value : Value) :
    value.containsTag wanted = false ↔ value.Everywhere (fun inner => inner.wireTag ≠ wanted) := by
  induction value using Value.children_induction with
  | step value ih =>
    rw [contains_tag_false_iff wanted container, Value.everywhere_iff]
    refine and_congr_right fun _ => ?_
    exact forall_congr' fun child => forall_congr' fun member => ih child member

theorem write_items (items : List Value) : writeItems items = items.flatMap writeValue := by
  induction items with
  | nil => rfl
  | cons item rest ih => rw [writeItems, flatMap_cons, ih]

theorem write_entries (entries : List (MapKey × Value)) : writeEntries entries = entries.flatMap writeEntry := by
  induction entries with
  | nil => rfl
  | cons entry rest ih => rw [writeEntries, flatMap_cons, ih]

def writeBody (value : Value) : List UInt8 := (writeValue value).tail

theorem write_value_eq (value : Value) : writeValue value = value.wireTag :: writeBody value := by
  cases value <;> rfl

section Fits

variable (trust : TrustLevel) (abi : UInt32)

def KeyFits : MapKey → Prop
  | .int _ => True
  | .str text => text.utf8ByteSize ≤ MAX_BLOB

-- What the reader asks of a value, given what it asks of the values inside.
def Fits (inner : Value → Prop) : Value → Prop
  | .unit | .bool _ | .int _ | .float _ => True
  | .pid _ | .cap _ => trust.forbidsAuthorityConstants = false
  | .message hop => trust.forbidsAuthorityConstants = false ∧ inner hop.payload
  | .str text => text.utf8ByteSize ≤ MAX_BLOB
  | .bytes data => data.length ≤ MAX_BLOB
  | .list items => ABI_VERSION_LISTS ≤ abi ∧ items.length ≤ MAX_LIST_LEN ∧ ∀ item ∈ items, inner item
  | .map entries => ABI_VERSION_MAPS ≤ abi ∧ (entries.map Prod.fst).Nodup ∧ entries.length ≤ MAX_MAP_LEN ∧
      ∀ entry ∈ entries, KeyFits entry.1 ∧ inner entry.2
  | .record fields => ABI_VERSION_RECORDS ≤ abi ∧ fields.length ≤ MAX_RECORD_LEN ∧ ∀ field ∈ fields, inner field

def FitsWithin : Nat → Value → Prop
  | 0, _ => False
  | levels + 1, value => Fits trust abi (FitsWithin levels) value

variable {trust abi}

theorem fits_children {inner : Value → Prop} {value : Value} (fits : Fits trust abi inner value) :
    ∀ child ∈ value.children, inner child := by
  intro child member
  cases value with
  | message hop =>
    rw [mem_singleton.mp member]
    exact fits.2
  | list | record => exact fits.2.2 child member
  | map entries =>
    obtain ⟨entry, inside, rfl⟩ := mem_map.mp member
    exact (fits.2.2.2 entry inside).2
  | _ => cases member

theorem fits_within_nests (levels : Nat) (value : Value) (shallow : levels ≤ MAX_VALUE_DEPTH + 1)
    (fits : FitsWithin trust abi levels value) : value.nestsWithin (MAX_VALUE_DEPTH + 1 - levels) = true := by
  induction levels generalizing value with
  | zero => exact fits.elim
  | succ levels ih =>
    refine (nests_within_iff _ value).mpr ⟨by omega, fun child member => ?_⟩
    have next : MAX_VALUE_DEPTH + 1 - (levels + 1) + 1 = MAX_VALUE_DEPTH + 1 - levels := by omega
    rw [next]
    exact ih child (by omega) (fits_children fits child member)

end Fits

section Arms

variable {trust : TrustLevel} {abi : UInt32} {child : Reader Value} {inner : Value → Prop}

def Arm (trust : TrustLevel) (abi : UInt32) (inner : Value → Prop) (tag : UInt8) (value : Value) : Prop :=
  value.wireTag = tag ∧ Fits trust abi inner value

theorem bool_exact : Exact readBool writeBody (Arm trust abi inner 1) := by
  have choose : ∀ byte : UInt8, Exact (if byte = 0 then pure (.bool false) else if byte = 1 then pure (.bool true)
      else throw (FormatError.nonCanonicalBool byte) : Reader Value) (fun _ => [])
      (fun value => byte = 0 ∧ value = .bool false ∨ byte = 1 ∧ value = .bool true) := by
    intro byte
    by_cases zero : byte = 0
    · rw [if_pos zero]
      exact exact_congr (exact_pure _) (fun value => by simp [zero]) fun _ _ => rfl
    · rw [if_neg zero]
      by_cases one : byte = 1
      · rw [if_pos one]
        exact exact_congr (exact_pure _) (fun value => by simp [one]) fun _ _ => rfl
      · rw [if_neg one]
        exact exact_congr (exact_throw _ _) (fun value => by simp [zero, one]) fun _ _ => rfl
  refine exact_congr (exact_bind read_u8_exact (fun byte _ => choose byte) ?_) (fun value => ?_) fun _ _ => rfl
  · rintro byte value _ (⟨rfl, rfl⟩ | ⟨rfl, rfl⟩) <;> rfl
  · constructor
    · rintro ⟨byte, _, ⟨rfl, rfl⟩ | ⟨rfl, rfl⟩⟩ <;> exact ⟨rfl, trivial⟩
    · rintro ⟨tag, _⟩
      cases value with
      | bool b => cases b <;> simp
      | _ => cases tag

theorem authority_exact {body : Reader Value} {tag : UInt8} {ok : Value → Prop} (kind : ConstantKind)
    (exact : Exact body writeBody ok)
    (accepts : ∀ value, trust.forbidsAuthorityConstants = false ∧ ok value ↔ Arm trust abi inner tag value) :
    Exact (readAuthority trust kind body) writeBody (Arm trust abi inner tag) := by
  refine exact_congr (exact_guard _ (FormatError.forbiddenConstant kind) exact) (fun value => ?_) fun _ _ => rfl
  rw [← accepts value, Bool.not_eq_true]

theorem message_exact (exactChild : Exact child writeValue inner) :
    Exact (readMessage child) writeBody (fun value => ∃ hop, value = .message hop ∧ inner hop.payload) := by
  intro input value rest
  rw [readMessage]
  constructor
  · intro done
    obtain ⟨sender, _, readSender, done⟩ := (run_bind_ok _ _ _ _).mp done
    obtain ⟨replyCap, _, readReply, done⟩ := (run_bind_ok _ _ _ _).mp done
    obtain ⟨requestId, _, readRequest, done⟩ := (run_bind_ok _ _ _ _).mp done
    obtain ⟨tag, _, readTag, done⟩ := (run_bind_ok _ _ _ _).mp done
    obtain ⟨payload, _, readPayload, done⟩ := (run_bind_ok _ _ _ _).mp done
    cases done
    obtain ⟨rfl, _⟩ := (read_u64_exact _ _ _).mp readSender
    obtain ⟨rfl, _⟩ := (read_u128_exact _ _ _).mp readReply
    obtain ⟨rfl, _⟩ := (read_u64_exact _ _ _).mp readRequest
    obtain ⟨rfl, _⟩ := (read_u16_exact _ _ _).mp readTag
    obtain ⟨rfl, holds⟩ := (exactChild _ _ _).mp readPayload
    refine ⟨?_, ⟨sender, replyCap, requestId, tag, payload⟩, rfl, holds⟩
    simp [writeBody, writeValue, writeMessage, Message.new]
  · rintro ⟨rfl, ⟨sender, replyCap, requestId, tag, payload⟩, rfl, holds⟩
    have bytes : writeBody (.message ⟨sender, replyCap, requestId, tag, payload⟩) ++ rest = writeU64 sender ++
        (writeCapId replyCap ++ (writeU64 requestId ++ (writeU16 tag ++ (writeValue payload ++ rest)))) := by
      simp [writeBody, writeValue, writeMessage]
    rw [bytes]
    refine (run_bind_ok _ _ _ _).mpr ⟨sender, _, (read_u64_exact _ _ _).mpr ⟨rfl, trivial⟩, ?_⟩
    refine (run_bind_ok _ _ _ _).mpr ⟨replyCap, _, (read_u128_exact _ _ _).mpr ⟨rfl, trivial⟩, ?_⟩
    refine (run_bind_ok _ _ _ _).mpr ⟨requestId, _, (read_u64_exact _ _ _).mpr ⟨rfl, trivial⟩, ?_⟩
    refine (run_bind_ok _ _ _ _).mpr ⟨tag, _, (read_u16_exact _ _ _).mpr ⟨rfl, trivial⟩, ?_⟩
    exact (run_bind_ok _ _ _ _).mpr ⟨payload, _, (exactChild _ _ _).mpr ⟨rfl, holds⟩, rfl⟩

theorem sequence_exact (exactChild : Exact child writeValue inner) (since : UInt32) (tag : UInt8) (what : String)
    (maxLen : Nat) (small : maxLen < 2 ^ 32) (build : List Value → Option Value) (wrap : List Value → Value)
    (writes : ∀ items, writeBody (wrap items) = writeU32 (UInt32.ofNat items.length) ++ items.flatMap writeValue)
    (builds : ∀ items, items.length ≤ maxLen → (∀ item ∈ items, inner item) → build items = some (wrap items)) :
    Exact (readSequence abi child since tag what maxLen build) writeBody
      (fun value => since ≤ abi ∧ ∃ items, value = wrap items ∧ items.length ≤ maxLen ∧ ∀ item ∈ items, inner item) := by
  have written : ∀ items value, (items.length ≤ maxLen ∧ ∀ item ∈ items, inner item) → build items = some value →
      writeBody value = writeU32 (UInt32.ofNat items.length) ++ items.flatMap writeValue := by
    rintro items value ⟨short, fits⟩ built
    rw [builds items short fits] at built
    rw [← Option.some.inj built, writes items]
  have body := exact_build build FormatError.valueTooNested (read_items_exact what maxLen small _ fun _ => exactChild) written
  refine exact_congr (exact_guard (abi < since) (FormatError.unknownValueTag tag) body) (fun value => ?_) fun _ _ => rfl
  rw [UInt32.not_lt]
  refine and_congr_right fun _ => exists_congr fun items => ?_
  constructor
  · rintro ⟨fits, built⟩
    rw [builds items fits.1 fits.2] at built
    exact ⟨(Option.some.inj built).symm, fits⟩
  · rintro ⟨rfl, fits⟩
    exact ⟨fits, builds items fits.1 fits.2⟩

theorem map_key_exact : Exact readMapKey writeMapKey KeyFits := by
  have choose : ∀ tag : UInt8, Exact (if tag = 0 then do return .int (← readI64) else if tag = 1 then do
      return .str (← readText "map key" MAX_BLOB) else throw (FormatError.unknownMapKey tag) : Reader MapKey)
      (fun key => (writeMapKey key).tail)
      (fun key => (tag = 0 ∧ ∃ n, key = .int n) ∨ (tag = 1 ∧ ∃ text, key = .str text ∧ KeyFits key)) := by
    intro tag
    by_cases zero : tag = 0
    · rw [if_pos zero]
      exact exact_congr (exact_map MapKey.int read_i64_exact fun _ _ => rfl) (fun key => by simp [zero]) fun _ _ => rfl
    · rw [if_neg zero]
      by_cases one : tag = 1
      · rw [if_pos one]
        refine exact_congr (exact_map MapKey.str (read_text_exact "map key" MAX_BLOB (by decide)) fun _ _ => rfl)
          (fun key => ?_) fun _ _ => rfl
        constructor
        · rintro ⟨text, fits, rfl⟩
          exact Or.inr ⟨one, text, rfl, fits⟩
        · rintro (⟨impossible, _⟩ | ⟨_, text, rfl, fits⟩)
          · exact absurd impossible zero
          · exact ⟨text, fits, rfl⟩
      · rw [if_neg one]
        exact exact_congr (exact_throw _ _) (fun key => by simp [zero, one]) fun _ _ => rfl
  refine exact_congr (exact_bind read_u8_exact (fun tag _ => choose tag) ?_) (fun key => ?_) fun _ _ => rfl
  · rintro tag key _ (⟨rfl, n, rfl⟩ | ⟨rfl, text, rfl, _⟩) <;> rfl
  · constructor
    · rintro ⟨tag, _, ⟨rfl, n, rfl⟩ | ⟨rfl, text, rfl, fits⟩⟩
      · trivial
      · exact fits
    · intro fits
      cases key with
      | int n => exact ⟨0, trivial, Or.inl ⟨rfl, n, rfl⟩⟩
      | str text => exact ⟨1, trivial, Or.inr ⟨rfl, text, rfl, fits⟩⟩

theorem entry_exact (exactChild : Exact child writeValue inner) :
    Exact (readEntry child) writeEntry (fun entry => KeyFits entry.1 ∧ inner entry.2) := by
  have second : ∀ key : MapKey, Exact (do return (key, ← child)) (fun entry => writeValue entry.2)
      (fun entry => ∃ value, inner value ∧ entry = (key, value)) :=
    fun key => exact_map (Prod.mk key) exactChild fun _ _ => rfl
  refine exact_congr (exact_bind map_key_exact (fun key _ => second key) ?_) (fun entry => ?_) fun _ _ => rfl
  · rintro key entry _ ⟨value, _, rfl⟩
    rfl
  · constructor
    · rintro ⟨key, keyFits, value, holds, rfl⟩
      exact ⟨keyFits, holds⟩
    · rintro ⟨keyFits, holds⟩
      exact ⟨entry.1, keyFits, entry.2, holds, rfl⟩

theorem map_exact (exactChild : Exact child writeValue inner)
    (nests : ∀ entries, (∀ entry ∈ entries, KeyFits entry.1 ∧ inner entry.2) →
      (Value.map entries).withinNestingLimit = true) :
    Exact (readMap abi child) writeBody (fun value => ABI_VERSION_MAPS ≤ abi ∧ ∃ entries, value = .map entries ∧
      (entries.map Prod.fst).Nodup ∧ entries.length ≤ MAX_MAP_LEN ∧
      ∀ entry ∈ entries, KeyFits entry.1 ∧ inner entry.2) := by
  have items := read_items_exact "map" MAX_MAP_LEN (by decide) (fun _ => readEntry child) fun _ => entry_exact exactChild
  have build : ∀ entries, (entries.length ≤ MAX_MAP_LEN ∧ ∀ entry ∈ entries, KeyFits entry.1 ∧ inner entry.2) →
      Exact (if Value.mapHasDuplicateKey entries then throw .duplicateMapKey
        else orThrow FormatError.valueTooNested (Value.tryMap entries)) (fun _ => [])
        (fun value => (entries.map Prod.fst).Nodup ∧ value = .map entries) := by
    rintro entries ⟨short, fits⟩
    refine exact_congr (exact_guard _ _ (exact_or_throw _ (Value.tryMap entries))) (fun value => ?_) fun _ _ => rfl
    rw [Value.mapHasDuplicateKey, Bool.not_eq_true, Bool.not_eq_false', decide_eq_true_iff]
    refine and_congr_right fun distinct => ?_
    have made : Value.tryMap entries = some (.map entries) := by
      rw [Value.tryMap, if_neg (by simp [Value.mapHasDuplicateKey, distinct, Nat.not_lt.mpr short]),
        if_pos (nests entries fits)]
    rw [made, Option.some.injEq, eq_comm]
  have body : Exact _ writeBody _ := exact_bind items build (by
    rintro entries value _ ⟨_, rfl⟩
    rw [append_nil, writeBody, writeValue, tail_cons, write_entries])
  refine exact_congr (exact_guard (abi < ABI_VERSION_MAPS) (FormatError.unknownValueTag 10) body) (fun value => ?_) fun _ _ => rfl
  rw [UInt32.not_lt]
  refine and_congr_right fun _ => exists_congr fun entries => ?_
  constructor
  · rintro ⟨fits, distinct, same⟩
    exact ⟨same, distinct, fits⟩
  · rintro ⟨same, distinct, fits⟩
    exact ⟨fits, distinct, same⟩

theorem tagged_exact (exactChild : Exact child writeValue inner)
    (nests : ∀ value : Value, (∀ item ∈ value.children, inner item) → value.withinNestingLimit = true) (tag : UInt8) :
    Exact (readTagged trust abi child tag) writeBody (Arm trust abi inner tag) := by
  have sequence : ∀ wrap : List Value → Value, (∀ items, (wrap items).children = items) → ∀ items,
      (∀ item ∈ items, inner item) → (wrap items).withinNestingLimit = true :=
    fun wrap inside items fits => nests (wrap items) (by rw [inside]; exact fits)
  have listBuilds : ∀ items, items.length ≤ MAX_LIST_LEN → (∀ item ∈ items, inner item) →
      Value.tryList items = some (.list items) := fun items short fits => by
    rw [Value.tryList, if_neg (by omega), if_pos (sequence .list (fun _ => rfl) items fits)]
  have recordBuilds : ∀ items, items.length ≤ MAX_RECORD_LEN → (∀ item ∈ items, inner item) →
      Value.tryRecord items = some (.record items) := fun items short fits => by
    rw [Value.tryRecord, if_neg (by omega), if_pos (sequence .record (fun _ => rfl) items fits)]
  have sequenceBytes : ∀ items, writeU32 (UInt32.ofNat items.length) ++ writeItems items =
      writeU32 (UInt32.ofNat items.length) ++ items.flatMap writeValue := fun items => by rw [write_items]
  by_cases known : tag ∈ ([0, 1, 2, 3, 4, 5, 6, 7, 8, 9, 10, 11] : List UInt8)
  · simp only [mem_cons, not_mem_nil, or_false] at known
    rcases known with rfl | rfl | rfl | rfl | rfl | rfl | rfl | rfl | rfl | rfl | rfl | rfl
    · exact exact_congr (exact_pure _) (fun value => by cases value <;> simp [Arm, Value.wireTag, Fits]) fun value is => by
        rw [is]
        rfl
    · exact bool_exact
    · exact exact_congr (exact_map Value.int read_i64_exact fun _ _ => rfl)
        (fun value => by cases value <;> simp [Arm, Value.wireTag, Fits]) fun _ _ => rfl
    · exact exact_congr (exact_map Value.float read_f64_exact fun _ _ => rfl)
        (fun value => by cases value <;> simp [Arm, Value.wireTag, Fits]) fun _ _ => rfl
    · exact authority_exact .processId (exact_map Value.pid read_u64_exact fun _ _ => rfl)
        fun value => by cases value <;> simp [Arm, Value.wireTag, Fits]
    · exact authority_exact .message (message_exact exactChild)
        fun value => by cases value <;> simp [Arm, Value.wireTag, Fits]
    · exact authority_exact .capability (exact_map Value.cap read_u128_exact fun _ _ => rfl)
        fun value => by cases value <;> simp [Arm, Value.wireTag, Fits]
    · exact exact_congr (exact_map Value.str (read_text_exact "str" MAX_BLOB (by decide)) fun _ _ => rfl)
        (fun value => by cases value <;> simp [Arm, Value.wireTag, Fits]) fun _ _ => rfl
    · exact exact_congr (exact_map Value.bytes (read_blob_exact "bytes") fun _ _ => rfl)
        (fun value => by cases value <;> simp [Arm, Value.wireTag, Fits]) fun _ _ => rfl
    · exact exact_congr (sequence_exact exactChild ABI_VERSION_LISTS 9 "list" MAX_LIST_LEN (by decide) Value.tryList .list
        sequenceBytes listBuilds) (fun value => by cases value <;> simp [Arm, Value.wireTag, Fits]) fun _ _ => rfl
    · refine exact_congr (map_exact exactChild fun entries fits => nests (.map entries) fun item member => ?_)
        (fun value => by cases value <;> simp [Arm, Value.wireTag, Fits]) fun _ _ => rfl
      obtain ⟨entry, inside, rfl⟩ := mem_map.mp member
      exact (fits entry inside).2
    · exact exact_congr (sequence_exact exactChild ABI_VERSION_RECORDS 11 "record" MAX_RECORD_LEN (by decide) Value.tryRecord
        .record sequenceBytes recordBuilds) (fun value => by cases value <;> simp [Arm, Value.wireTag, Fits]) fun _ _ => rfl
  · have unknown : readTagged trust abi child tag = throw (.unknownValueTag tag) := by
      rw [readTagged] <;> rintro rfl <;> exact known (by decide)
    rw [unknown]
    refine exact_congr (exact_throw _ _) (fun value => ⟨False.elim, fun ⟨same, _⟩ => ?_⟩) fun _ _ => rfl
    refine known ?_
    rw [← same]
    cases value <;> simp [Value.wireTag]

end Arms

theorem read_value_exact (trust : TrustLevel) (abi : UInt32) (levels : Nat) (shallow : levels ≤ MAX_VALUE_DEPTH + 1) :
    Exact (readValueWithin trust abi levels) writeValue (FitsWithin trust abi levels) := by
  induction levels with
  | zero => exact exact_throw _ _
  | succ levels ih =>
    have nests : ∀ value : Value, (∀ item ∈ value.children, FitsWithin trust abi levels item) →
        value.withinNestingLimit = true := by
      intro value inside
      refine nests_within_mono value (MAX_VALUE_DEPTH + 1 - (levels + 1)) 0 (Nat.zero_le _)
        ((nests_within_iff _ value).mpr ⟨by omega, fun child member => ?_⟩)
      rw [show MAX_VALUE_DEPTH + 1 - (levels + 1) + 1 = MAX_VALUE_DEPTH + 1 - levels by omega]
      exact fits_within_nests levels child (by omega) (inside child member)
    refine exact_congr (exact_bind read_u8_exact (fun tag _ => tagged_exact (ih (by omega)) nests tag) ?_)
      (fun value => ?_) fun _ _ => rfl
    · rintro tag value _ ⟨rfl, _⟩
      exact write_value_eq value
    · constructor
      · rintro ⟨tag, _, _, fits⟩
        exact fits
      · intro fits
        exact ⟨value.wireTag, trivial, rfl, fits⟩

end Byteflow
