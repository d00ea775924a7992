import Byteflow.RemoteFrame

namespace Byteflow

open Value List Codec

def Value.Screened : Value → Prop
  | .pid _ | .cap _ => False
  | .message hop => hop.replyCap.isNone = true
  | .list items => items.length ≤ MAX_LIST_LEN
  | .record fields => fields.length ≤ MAX_RECORD_LEN
  | .map entries => entries.length ≤ MAX_MAP_LEN
  | _ => True

theorem screen_items (depth : Nat) (items : List Value) :
    screenItems depth items = .ok () ↔ ∀ item ∈ items, screenValue depth item = .ok () := by
  induction items with
  | nil => simp [screenItems]
  | cons item rest ih =>
    rw [screenItems, forall_mem_cons, ← ih]
    cases screenValue depth item with
    | error | ok => simp [bind, Except.bind]

theorem screen_entries (depth : Nat) (entries : List (MapKey × Value)) :
    screenEntries depth entries = .ok () ↔ ∀ item ∈ entries.map Prod.snd, screenValue depth item = .ok () := by
  induction entries with
  | nil => simp [screenEntries]
  | cons entry rest ih =>
    obtain ⟨key, item⟩ := entry
    rw [screenEntries, screenEntry, map_cons, forall_mem_cons, ← ih]
    cases screenValue depth item with
    | error | ok => simp [bind, Except.bind]

theorem screen_message_iff (depth : Nat) (message : Message) :
    screenMessage depth message = .ok () ↔
      depth ≤ MAX_VALUE_DEPTH ∧ message.replyCap.isNone = true ∧ screenValue (depth + 1) message.payload = .ok () := by
  obtain ⟨sender, replyCap, requestId, tag, payload⟩ := message
  rw [screenMessage]
  by_cases deep : depth > MAX_VALUE_DEPTH
  · rw [if_pos deep]
    exact ⟨nofun, fun ⟨within, _⟩ => absurd within (by omega)⟩
  · rw [if_neg deep]
    by_cases live : replyCap.isNone = false
    · rw [if_pos live]
      simp [live]
    · rw [if_neg live]
      simp [Nat.not_lt.mp deep, live]

theorem screen_value_iff (depth : Nat) (value : Value) :
    screenValue depth value = .ok () ↔
      depth ≤ MAX_VALUE_DEPTH ∧ value.Screened ∧ ∀ child ∈ value.children, screenValue (depth + 1) child = .ok () := by
  by_cases deep : depth > MAX_VALUE_DEPTH
  · rw [screenValue.eq_def, if_pos deep]
    exact ⟨nofun, fun ⟨within, _⟩ => absurd within (by omega)⟩
  · have within : depth ≤ MAX_VALUE_DEPTH := Nat.not_lt.mp deep
    have counted : ∀ (length limit : Nat) (rest : Except RemoteFrameError Unit),
        (if length > limit then .error .unsupported else rest) = .ok () ↔ length ≤ limit ∧ rest = .ok () := by
      intro length limit rest
      by_cases long : length > limit
      · rw [if_pos long]
        exact ⟨nofun, fun ⟨short, _⟩ => absurd short (by omega)⟩
      · rw [if_neg long]
        exact ⟨fun done => ⟨by omega, done⟩, fun ⟨_, done⟩ => done⟩
    rw [screenValue.eq_def, if_neg deep]
    cases value with
    | message hop =>
      simp only [screen_message_iff, Value.Screened, Value.children, forall_mem_singleton]
    | list | record =>
      simp only [counted, screen_items, Value.Screened, Value.children, within, true_and]
    | map entries =>
      simp only [counted, screen_entries, Value.Screened, Value.children, within, true_and]
    | _ => simp [Value.Screened, Value.children, within]

theorem screen_value_ok (depth : Nat) (value : Value) :
    screenValue depth value = .ok () ↔ value.nestsWithin depth = true ∧ value.Everywhere Value.Screened := by
  induction value using children_induction generalizing depth with
  | step value ih =>
    rw [screen_value_iff, nests_within_iff, everywhere_iff]
    constructor
    · rintro ⟨within, here, inside⟩
      have screened := fun child member => (ih child member (depth + 1)).mp (inside child member)
      exact ⟨⟨within, fun child member => (screened child member).1⟩, here, fun child member => (screened child member).2⟩
    · rintro ⟨⟨within, nests⟩, here, inside⟩
      exact ⟨within, here, fun child member => (ih child member (depth + 1)).mpr ⟨nests child member, inside child member⟩⟩

theorem screen_message_ok (message : Message) :
    screenMessage 0 message = .ok () ↔
      (Value.message message).withinNestingLimit = true ∧ (Value.message message).Everywhere Value.Screened := by
  have same : screenMessage 0 message = screenValue 0 (.message message) := by
    rw [screenValue.eq_def, if_neg (by omega)]
  rw [same, screen_value_ok, Value.withinNestingLimit]

structure Sendable (hop : OutboundHop) : Prop where
  sender : hop.sender ≠ 0
  named : hop.name.utf8ByteSize ≠ 0
  short : hop.name.utf8ByteSize ≤ MAX_FRAME_NAME
  stamped : hop.message.sender = hop.sender
  screened : screenMessage 0 hop.message = .ok ()

theorem encode_frame_ok (hop : OutboundHop) (bytes : List UInt8) :
    encodeFrame hop = .ok bytes ↔ Sendable hop ∧ bytes = writeFrame hop := by
  rw [encodeFrame]
  by_cases host : hop.sender = 0
  · rw [if_pos host]
    exact ⟨nofun, fun ⟨sendable, _⟩ => absurd host sendable.sender⟩
  · rw [if_neg host]
    by_cases badName : hop.name.utf8ByteSize = 0 ∨ hop.name.utf8ByteSize > MAX_FRAME_NAME
    · rw [if_pos badName]
      refine ⟨nofun, fun ⟨sendable, _⟩ => ?_⟩
      have named := sendable.named
      have short := sendable.short
      omega
    · rw [if_neg badName]
      by_cases forged : hop.message.sender ≠ hop.sender
      · rw [if_pos forged]
        exact ⟨nofun, fun ⟨sendable, _⟩ => absurd sendable.stamped forged⟩
      · rw [if_neg forged]
        cases screened : screenMessage 0 hop.message with
        | error e =>
          refine ⟨nofun, fun ⟨sendable, _⟩ => ?_⟩
          rw [sendable.screened] at screened
          cases screened
        | ok done =>
          have sendable : Sendable hop := ⟨host, by omega, by omega, not_not.mp forged, screened⟩
          constructor
          · intro written
            cases written
            exact ⟨sendable, rfl⟩
          · rintro ⟨_, rfl⟩
            rfl

theorem take_u64_exact : Exact takeU64 writeU64 (fun _ => True) :=
  exact_le RemoteFrameError.truncated 8 UInt64.toNat UInt64.ofNat (fun a => a.toNat_lt) (fun _ => UInt64.ofNat_toNat)
    u64_of_small

theorem take_u16_exact : Exact takeU16 writeU16 (fun _ => True) :=
  exact_le RemoteFrameError.truncated 2 UInt16.toNat UInt16.ofNat (fun a => a.toNat_lt) (fun _ => UInt16.ofNat_toNat)
    fun n small => by
      rw [UInt16.toNat_ofNat']
      exact Nat.mod_eq_of_lt small

theorem decode_value_exact :
    Exact decodeValue writeValue (FitsWithin .trusted ABI_VERSION_RECORDS (MAX_VALUE_DEPTH + 1)) := by
  intro input value rest
  rw [← read_value_exact .trusted ABI_VERSION_RECORDS (MAX_VALUE_DEPTH + 1) (Nat.le_refl _) input value rest]
  change decodeValue input = _ ↔ readValue .trusted 0 ABI_VERSION_RECORDS input = _
  unfold decodeValue StateT.run
  cases readValue .trusted 0 ABI_VERSION_RECORDS input with
  | error e => simp
  | ok result => simp only [Except.ok.injEq]

theorem frame_hop_ok (node : UInt64) (name : String) (sender : UInt64) (value : Value) (leftover : List UInt8)
    (hop : OutboundHop) :
    frameHop node name sender value leftover = .ok hop ↔
      leftover = [] ∧ hop.node = node ∧ hop.name = name ∧ hop.sender = sender ∧ value = .message hop.message ∧
        hop.message.sender = hop.sender ∧ screenMessage 0 hop.message = .ok () := by
  rw [frameHop.eq_def]
  by_cases trailing : leftover ≠ []
  · rw [if_pos trailing]
    exact ⟨nofun, fun ⟨empty, _⟩ => absurd empty trailing⟩
  · rw [if_neg trailing]
    cases value with
    | message message =>
      dsimp only
      by_cases forged : message.sender ≠ sender
      · rw [if_pos forged]
        refine ⟨nofun, fun ⟨_, _, _, isSender, same, stamped, _⟩ => ?_⟩
        cases same
        exact absurd (stamped.trans isSender) forged
      · rw [if_neg forged]
        cases screened : screenMessage 0 message with
        | error e =>
          refine ⟨nofun, fun ⟨_, _, _, _, same, _, passed⟩ => ?_⟩
          cases same
          rw [passed] at screened
          cases screened
        | ok done =>
          constructor
          · intro built
            cases built
            exact ⟨not_not.mp trailing, rfl, rfl, rfl, rfl, not_not.mp forged, screened⟩
          · rintro ⟨_, rfl, rfl, rfl, same, _, _⟩
            cases same
            rfl
    | _ => exact ⟨nofun, nofun⟩

theorem decode_frame_ok (bytes : List UInt8) (hop : OutboundHop) :
    decodeFrame bytes = .ok hop ↔
      Sendable hop ∧ FitsWithin .trusted ABI_VERSION_RECORDS (MAX_VALUE_DEPTH + 1) (.message hop.message) ∧
        bytes = writeFrame hop := by
  have whole : decodeFrame bytes = .ok hop ↔ ∃ leftover, readFrame.run bytes = .ok (.ok hop, leftover) := by
    rw [decodeFrame]
    cases readFrame.run bytes with
    | error e => simp [bind, Except.bind]
    | ok result =>
      obtain ⟨read, leftover⟩ := result
      simp [bind, Except.bind]
  rw [whole, readFrame]
  constructor
  · rintro ⟨leftover, framed⟩
    obtain ⟨magic, _, readMagic, afterMagic⟩ := (run_bind_ok _ _ _ _).mp framed
    obtain ⟨rfl, _⟩ := (exact_take _ _ _ _ _).mp readMagic
    split at afterMagic
    · cases afterMagic
    rename_i wrong
    obtain ⟨version, _, readVersion, afterVersion⟩ := (run_bind_ok _ _ _ _).mp afterMagic
    obtain ⟨rfl, _⟩ := (exact_take _ _ _ _ _).mp readVersion
    split at afterVersion
    · cases afterVersion
    rename_i old
    obtain ⟨node, _, readNode, afterNode⟩ := (run_bind_ok _ _ _ _).mp afterVersion
    obtain ⟨rfl, _⟩ := (take_u64_exact _ _ _).mp readNode
    obtain ⟨nameLen, _, readLen, afterLen⟩ := (run_bind_ok _ _ _ _).mp afterNode
    obtain ⟨rfl, _⟩ := (take_u16_exact _ _ _).mp readLen
    split at afterLen
    · cases afterLen
    obtain ⟨nameBytes, _, readBytes, afterBytes⟩ := (run_bind_ok _ _ _ _).mp afterLen
    obtain ⟨rfl, nameLength⟩ := (exact_take _ _ _ _ _).mp readBytes
    obtain ⟨name, _, readName, afterName⟩ := (run_bind_ok _ _ _ _).mp afterBytes
    obtain ⟨rfl, utf8⟩ := (exact_or_throw _ _ _ _ _).mp readName
    obtain rfl := (from_utf8_some _ _).mp utf8
    obtain ⟨sender, _, readSender, afterSender⟩ := (run_bind_ok _ _ _ _).mp afterName
    obtain ⟨rfl, _⟩ := (take_u64_exact _ _ _).mp readSender
    split at afterSender
    · cases afterSender
    rename_i host
    obtain ⟨value, rest, readValue, afterValue⟩ := (run_bind_ok _ _ _ _).mp afterSender
    obtain ⟨rfl, fits⟩ := (decode_value_exact _ _ _).mp readValue
    have made : frameHop node name sender value rest = .ok hop :=
      (Prod.mk.inj (Except.ok.inj afterValue)).1
    obtain ⟨rfl, rfl, rfl, rfl, rfl, stamped, screened⟩ := (frame_hop_ok _ _ _ _ _ _).mp made
    rw [utf8_bytes_length] at nameLength
    refine ⟨⟨host, by omega, by omega, stamped, screened⟩, fits, ?_⟩
    rw [writeFrame, nameLength, UInt16.ofNat_toNat, not_not.mp wrong, not_not.mp old, append_nil]
  · rintro ⟨sendable, fits, rfl⟩
    have nameLength : (UInt16.ofNat hop.name.utf8ByteSize).toNat = hop.name.utf8ByteSize := by
      have short : hop.name.utf8ByteSize ≤ 256 := sendable.short
      rw [UInt16.toNat_ofNat', Nat.mod_eq_of_lt (by omega)]
    have badName : ¬ (hop.name.utf8ByteSize = 0 ∨ hop.name.utf8ByteSize > MAX_FRAME_NAME) := by
      have named := sendable.named
      have short := sendable.short
      omega
    refine ⟨[], (run_bind_ok _ _ _ _).mpr ⟨FRAME_MAGIC, _, (exact_take _ _ _ _ _).mpr ⟨rfl, rfl⟩, ?_⟩⟩
    rw [if_neg (not_not.mpr rfl)]
    refine (run_bind_ok _ _ _ _).mpr ⟨[FRAME_VERSION], _, (exact_take _ _ _ _ _).mpr ⟨rfl, rfl⟩, ?_⟩
    rw [if_neg (not_not.mpr rfl)]
    refine (run_bind_ok _ _ _ _).mpr ⟨hop.node, _, (take_u64_exact _ _ _).mpr ⟨rfl, trivial⟩, ?_⟩
    refine (run_bind_ok _ _ _ _).mpr ⟨_, _, (take_u16_exact _ _ _).mpr ⟨rfl, trivial⟩, ?_⟩
    rw [nameLength, if_neg badName]
    refine (run_bind_ok _ _ _ _).mpr ⟨utf8Bytes hop.name, _, (exact_take _ _ _ _ _).mpr ⟨rfl, utf8_bytes_length _⟩, ?_⟩
    refine (run_bind_ok _ _ _ _).mpr ⟨hop.name, _, (exact_or_throw _ _ _ _ _).mpr ⟨rfl, (from_utf8_some _ _).mpr rfl⟩, ?_⟩
    refine (run_bind_ok _ _ _ _).mpr ⟨hop.sender, _, (take_u64_exact _ _ _).mpr ⟨rfl, trivial⟩, ?_⟩
    rw [if_neg sendable.sender]
    refine (run_bind_ok _ _ _ _).mpr ⟨_, [], (decode_value_exact _ _ _).mpr ⟨(append_nil _).symm, fits⟩, ?_⟩
    have made : frameHop hop.node hop.name hop.sender (.message hop.message) [] = .ok hop :=
      (frame_hop_ok _ _ _ _ _ _).mpr ⟨rfl, rfl, rfl, rfl, rfl, sendable.stamped, sendable.screened⟩
    change Except.ok (frameHop hop.node hop.name hop.sender (.message hop.message) [], []) = _
    rw [made]

namespace Value

-- The limits of the reader that the screening of encode_frame does not have.
def Legible : Value → Prop
  | .str text => text.utf8ByteSize ≤ 1024 * 1024
  | .bytes data => data.length ≤ 1024 * 1024
  | .map entries => (entries.map Prod.fst).Nodup ∧
      ∀ text, .str text ∈ entries.map Prod.fst → text.utf8ByteSize ≤ 1024 * 1024
  | _ => True

theorem screened_bounded {value : Value} (screened : value.Screened) (legible : value.Legible) : value.BoundedHere := by
  cases value with
  | list | record => exact screened
  | map entries => exact ⟨screened, legible⟩
  | str | bytes => exact legible
  | _ => trivial

theorem fits_legible {trust : TrustLevel} {abi : UInt32} {value : Value} (fits : Fits trust abi (fun _ => True) value) :
    value.Legible := by
  cases value with
  | str | bytes => exact fits
  | map entries =>
    obtain ⟨_, distinct, _, inside⟩ := fits
    refine ⟨distinct, fun text listed => ?_⟩
    obtain ⟨entry, member, isKey⟩ := mem_map.mp listed
    have keyFits := (inside entry member).1
    rw [isKey] at keyFits
    exact keyFits
  | _ => trivial

end Value

theorem sendable_fits_iff {hop : OutboundHop} (sendable : Sendable hop) :
    FitsWithin .trusted ABI_VERSION_RECORDS (MAX_VALUE_DEPTH + 1) (.message hop.message) ↔
      hop.message.payload.Everywhere Value.Legible := by
  obtain ⟨nests, screened⟩ := (screen_message_ok hop.message).mp sendable.screened
  have newest : ∀ value : Value, Covered ABI_VERSION_RECORDS value :=
    fun value => ⟨fun _ => by decide, fun _ => by decide, fun _ => by decide⟩
  rw [fits_within_iff _ (Nat.le_refl _)]
  constructor
  · rintro ⟨fits, _⟩
    have inside := ((everywhere_iff _ _).mp fits).2 hop.message.payload (mem_singleton.mpr rfl)
    exact everywhere_mono (fun _ => fits_legible) _ inside
  · intro legible
    have whole : (Value.message hop.message).Everywhere Value.Legible :=
      ⟨_, trivial, fun child member => by rw [mem_singleton.mp member]; exact legible⟩
    refine ⟨everywhere_mono (fun value both => ?_) _ (everywhere_and _ screened whole), nests⟩
    exact bounded_fits (screened_bounded both.1 both.2) (newest value) (Or.inl rfl)

theorem frame_codec (hop : OutboundHop) (bytes : List UInt8) :
    (encodeFrame hop = .ok bytes →
      ((∃ decoded, decodeFrame bytes = .ok decoded ∧ decoded.name = hop.name ∧ decoded.sender = hop.sender ∧
          decoded.message = hop.message) ↔
        hop.message.payload.Everywhere Value.Legible)) ∧
      (decodeFrame bytes = .ok hop → encodeFrame hop = .ok bytes) := by
  refine ⟨fun encoded => ?_, fun decoded => ?_⟩
  · obtain ⟨sendable, rfl⟩ := (encode_frame_ok hop bytes).mp encoded
    rw [← sendable_fits_iff sendable]
    constructor
    · rintro ⟨decoded, accepted, _, _, sameMessage⟩
      have fits := ((decode_frame_ok _ _).mp accepted).2.1
      rw [sameMessage] at fits
      exact fits
    · intro fits
      exact ⟨hop, (decode_frame_ok _ _).mpr ⟨sendable, fits, rfl⟩, rfl, rfl, rfl⟩
  · obtain ⟨sendable, _, written⟩ := (decode_frame_ok _ _).mp decoded
    exact (encode_frame_ok hop bytes).mpr ⟨sendable, written⟩

def greeting : OutboundHop := ⟨7, 2, "log", ⟨7, .NONE, 1, 0, .list [.str "hi", .map [(.str "k", .int 3)]]⟩⟩

theorem greeting_round_trip :
    ∃ bytes decoded, encodeFrame greeting = .ok bytes ∧ decodeFrame bytes = .ok decoded ∧ decoded.name = "log" ∧
      decoded.sender = 7 ∧ decoded.message = greeting.message ∧ encodeFrame decoded = .ok bytes := by
  have leaf : ∀ value : Value, value.children = [] → value.Legible → value.Everywhere Value.Legible :=
    fun value none_ here => ⟨value, here, by rw [none_]; exact forall_mem_nil _⟩
  have legible : greeting.message.payload.Everywhere Value.Legible := by
    refine ⟨_, trivial, forall_mem_cons.mpr ⟨leaf _ rfl (by change "hi".utf8ByteSize ≤ 1024 * 1024; decide), ?_⟩⟩
    refine forall_mem_singleton.mpr ⟨_, ⟨by decide, fun text listed => ?_⟩, ?_⟩
    · cases mem_singleton.mp listed
      decide
    · exact forall_mem_singleton.mpr (leaf _ rfl trivial)
  obtain ⟨decoded, accepted, name, sender, message⟩ := ((frame_codec greeting _).1 rfl).mpr legible
  exact ⟨_, decoded, rfl, accepted, name, sender, message, (frame_codec decoded _).2 accepted⟩

def oversized : OutboundHop := ⟨7, 2, "log", ⟨7, .NONE, 1, 0, .bytes (List.replicate (1024 * 1024 + 1) 0)⟩⟩

theorem oversized_frame_unreadable :
    ∃ bytes, encodeFrame oversized = .ok bytes ∧
      ∀ decoded, decodeFrame bytes = .ok decoded → decoded.message ≠ oversized.message := by
  refine ⟨_, rfl, fun decoded accepted same => ?_⟩
  have fits := ((decode_frame_ok _ _).mp accepted).2.1
  rw [same] at fits
  have payload := ((fits_within_iff _ (Nat.le_refl _) _).mp fits).1
  have inside := ((everywhere_iff _ _).mp payload).2 oversized.message.payload (mem_singleton.mpr rfl)
  have short : (List.replicate (1024 * 1024 + 1) (0 : UInt8)).length ≤ MAX_BLOB := ((everywhere_iff _ _).mp inside).1
  rw [length_replicate] at short
  exact absurd short (by decide)

end Byteflow
