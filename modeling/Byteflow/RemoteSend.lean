import Byteflow.HopConfined
import Byteflow.RemoteFrameExact

namespace Byteflow

open Value List Exec

mutual
def Value.containsLiveCap (depth : Nat) (value : Value) : Bool :=
  if depth > MAX_VALUE_DEPTH then true
  else match value with
    | .cap id => !id.isNone
    | .message hop => !hop.replyCap.isNone || payloadContainsLiveCap (depth + 1) hop
    | .list items => itemsContainLiveCap (depth + 1) items
    | .record fields => itemsContainLiveCap (depth + 1) fields
    | .map entries => entriesContainLiveCap (depth + 1) entries
    | _ => false

def payloadContainsLiveCap (depth : Nat) : Envelope Value → Bool
  | ⟨_, _, _, _, payload⟩ => Value.containsLiveCap depth payload

def itemsContainLiveCap (depth : Nat) : List Value → Bool
  | [] => false
  | item :: rest => Value.containsLiveCap depth item || itemsContainLiveCap depth rest

def entriesContainLiveCap (depth : Nat) : List (MapKey × Value) → Bool
  | [] => false
  | entry :: rest => entryContainsLiveCap depth entry || entriesContainLiveCap depth rest

def entryContainsLiveCap (depth : Nat) : MapKey × Value → Bool
  | (_, value) => Value.containsLiveCap depth value
end

section Stamping

variable {σ ε : Type}

def mintIfUnset (mint : Exec σ ε UInt64) (requestId : UInt64) : Exec σ ε UInt64 :=
  if requestId = 0 then mint else pure requestId

def stampUnset (senderIfUnset : UInt64) (mint : Exec σ ε UInt64) (hop : Message) : Exec σ ε Message := do
  let sender := if hop.sender = 0 ∧ senderIfUnset ≠ 0 then senderIfUnset else hop.sender
  let requestId ← mintIfUnset mint hop.requestId
  pure { hop with sender := sender, requestId := requestId }

-- The walk of map_caps with every token copied.
def Value.stampUnsetEnvelopes (depth : Nat) (senderIfUnset : UInt64) (mint : Exec σ ε UInt64) (tooNested : ε)
    (value : Value) : Exec σ ε Value :=
  value.mapCaps tooNested pure (stampUnset senderIfUnset mint) depth

end Stamping

-- BridgeAccounts and the queue. A charge is released when the host drops the hop.
structure DistributionBridge where
  queue : List OutboundHop
  hops : Nat
  bytes : Nat
  maxHops : Nat
  maxBytes : Nat

-- What deliver uses of its flow. Id 0 is the host, which is no flow.
structure RemoteSender where
  id : FlowId
  spawned : id ≠ 0
  rights : CapRights
  nextRequestId : UInt64

structure RemoteNode where
  flow : RemoteSender
  distribution : Option DistributionBridge

namespace Distribution

-- layout and sizeOfHop are the sizes of the build; sendAllowed is the answer of
-- the flow's send bucket.
variable (layout : Layout) (sizeOfHop : Nat) (sendAllowed : Bool)

def tryCharge (bridge : DistributionBridge) (bytes : Nat) : Option DistributionBridge :=
  if bridge.hops ≥ bridge.maxHops then none
  else match layout.checkedAdd bridge.bytes bytes with
    | none => none
    | some next => if next > bridge.maxBytes then none else some { bridge with hops := bridge.hops + 1, bytes := next }

def hopByteCost (hop : OutboundHop) : Nat :=
  layout.saturatingAdd (layout.saturatingAdd sizeOfHop hop.name.utf8ByteSize) ((Value.message hop.message).memorySize layout)

def push (bridge : DistributionBridge) (hop : OutboundHop) : Exec RemoteNode String Unit :=
  match tryCharge layout bridge (hopByteCost layout sizeOfHop hop) with
  | none => throw "distribution bridge full"
  | some charged => modify fun node => { node with distribution := some { charged with queue := charged.queue ++ [hop] } }

def stamp (message : Message) (sender : FlowId) : Message := message.authenticate sender .NONE

def vmFreshRequestId : Exec RemoteNode String UInt64 := do
  let node ← get
  let (id, next) := nextFreshRequestId node.flow.nextRequestId
  set { node with flow := { node.flow with nextRequestId := next } }
  pure id

def deliver (node : UInt64) (name : String) (message : Value) : Exec RemoteNode String Unit := do
  let here ← get
  if here.flow.rights.contains .SEND = false then throw "send_remote denied: flow lacks SEND right"
  else match here.distribution with
    | none => throw "send_remote: no distribution bridge"
    | some bridge => match message.asMessage with
      | none => throw "send_remote: value is not a hop"
      | some msg =>
        if msg.payload.withinNestingLimit = false then throw "send_remote: payload too nested"
        else if msg.payload.containsLiveCap 0 then throw "send_remote: payload contains a local capability"
        else if sendAllowed = false then throw "send rate exceeded"
        else
          let requestId ← mintIfUnset vmFreshRequestId msg.requestId
          let payload ← msg.payload.stampUnsetEnvelopes 0 here.flow.id vmFreshRequestId "send_remote: payload too nested"
          let stamped := stamp (Message.withPayload { msg with requestId := requestId } payload) here.flow.id
          push layout sizeOfHop bridge ⟨here.flow.id, node, name, stamped⟩

end Distribution

theorem items_contain_live_cap (depth : Nat) (items : List Value) :
    itemsContainLiveCap depth items = items.any (Value.containsLiveCap depth) := by
  induction items with
  | nil => rfl
  | cons item rest ih => rw [itemsContainLiveCap, any_cons, ih]

theorem entries_contain_live_cap (depth : Nat) (entries : List (MapKey × Value)) :
    entriesContainLiveCap depth entries = (entries.map Prod.snd).any (Value.containsLiveCap depth) := by
  induction entries with
  | nil => rfl
  | cons entry rest ih =>
    obtain ⟨key, value⟩ := entry
    rw [entriesContainLiveCap, map_cons, any_cons, ih]
    rfl

def Value.Tokenless : Value → Prop
  | .cap id => id.isNone = true
  | .message hop => hop.replyCap.isNone = true
  | _ => True

theorem contains_live_cap_false_iff (depth : Nat) (value : Value) :
    value.containsLiveCap depth = false ↔
      depth ≤ MAX_VALUE_DEPTH ∧ value.Tokenless ∧ ∀ child ∈ value.children, child.containsLiveCap (depth + 1) = false := by
  rw [Value.containsLiveCap.eq_def]
  by_cases deep : depth > MAX_VALUE_DEPTH
  · rw [if_pos deep]
    exact ⟨nofun, fun ⟨within, _⟩ => absurd within (by omega)⟩
  · have within : depth ≤ MAX_VALUE_DEPTH := Nat.not_lt.mp deep
    rw [if_neg deep]
    cases value with
    | message hop =>
      obtain ⟨sender, replyCap, requestId, tag, payload⟩ := hop
      simp [payloadContainsLiveCap, Value.Tokenless, Value.children, within]
    | list | record => simp [items_contain_live_cap, Value.Tokenless, Value.children, within]
    | map entries => simp only [entries_contain_live_cap, Value.Tokenless, Value.children, within, true_and,
        any_eq_false, Bool.not_eq_true]
    | _ => simp [Value.Tokenless, Value.children, within]

theorem live_cap_free (depth : Nat) (value : Value) (free : value.containsLiveCap depth = false) :
    value.Everywhere Value.Tokenless := by
  induction value using children_induction generalizing depth with
  | step value ih =>
    obtain ⟨_, here, inside⟩ := (contains_live_cap_false_iff depth value).mp free
    exact ⟨value, here, fun child member => ih child member (depth + 1) (inside child member)⟩

section Mapped

variable {carries : CapId → CapId → Prop} {stamps : Message → Message → Prop}

theorem mapped_children {value new : Value} (mapped : Value.Mapped carries stamps value new) :
    List.Forall₂ (Value.Mapped carries stamps) value.children new.children := by
  cases mapped with
  | atom _ plain =>
    rw [atom_children plain]
    exact .nil
  | unset | cap => exact .nil
  | message hop new _ payload => exact .cons payload .nil
  | list items new each | map entries new _ each | record fields new each => exact each

theorem forall₂_all_iff {α β : Type} {R : α → β → Prop} {p : α → Prop} {q : β → Prop} {items : List α} {others : List β}
    (each : List.Forall₂ R items others) (same : ∀ item ∈ items, ∀ other, R item other → (p item ↔ q other)) :
    (∀ item ∈ items, p item) ↔ ∀ other ∈ others, q other := by
  induction each with
  | nil => simp
  | cons head _ ih =>
    rw [forall_mem_cons, forall_mem_cons, same _ mem_cons_self _ head,
      ih fun item member => same item (mem_cons_of_mem _ member)]

theorem mapped_nests (value : Value) : ∀ new, Value.Mapped carries stamps value new → ∀ depth,
    (value.nestsWithin depth = true ↔ new.nestsWithin depth = true) := by
  induction value using children_induction with
  | step value ih =>
    intro new mapped depth
    rw [nests_within_iff, nests_within_iff]
    refine and_congr_right fun _ => forall₂_all_iff (mapped_children mapped) fun child member other inner => ?_
    exact ih child member other inner (depth + 1)

theorem mapped_everywhere {holds : Value → Prop}
    (same : ∀ value new, Value.Mapped carries stamps value new → (holds value ↔ holds new)) (value : Value) :
    ∀ new, Value.Mapped carries stamps value new → (value.Everywhere holds ↔ new.Everywhere holds) := by
  induction value using children_induction with
  | step value ih =>
    intro new mapped
    rw [everywhere_iff, everywhere_iff, same value new mapped]
    refine and_congr_right fun _ => forall₂_all_iff (mapped_children mapped) fun child member other inner => ?_
    exact ih child member other inner

end Mapped

namespace Distribution

def OnlyMints (before after : RemoteNode) : Prop :=
  after.flow.id = before.flow.id ∧ after.distribution = before.distribution

instance : IsPreorder RemoteNode OnlyMints where
  refl _ := ⟨rfl, rfl⟩
  trans _ _ _ first second := ⟨second.1.trans first.1, second.2.trans first.2⟩

variable {base : RemoteNode}

theorem fresh_request_id_mints : Yields OnlyMints base (fun _ _ => True) vmFreshRequestId :=
  fun _ _ => ⟨⟨rfl, rfl⟩, trivial⟩

theorem request_id_mints (requestId : UInt64) :
    Yields OnlyMints base (fun _ _ => True) (mintIfUnset vmFreshRequestId requestId) :=
  yields_ite _ (fun _ => fresh_request_id_mints) fun _ => yields_pure _ fun _ _ => trivial

theorem stamp_unset_keeps (sender : UInt64) (hop : Message) :
    Yields OnlyMints base (fun _ new => new.replyCap = hop.replyCap ∧ new.payload = hop.payload)
      (stampUnset sender vmFreshRequestId hop) := by
  rw [stampUnset]
  exact yields_bind (request_id_mints hop.requestId) fun requestId mid later _ => yields_pure _ fun _ _ => ⟨rfl, rfl⟩

-- Everything of a value but the senders and request ids of its envelopes.
abbrev Restamped : Value → Value → Prop :=
  Value.Mapped (fun id new => new = id) (fun hop new => new.replyCap = hop.replyCap)

theorem stamp_unset_envelopes_yields (depth : Nat) (sender : UInt64) (tooNested : String) (value : Value) :
    Yields OnlyMints base (fun _ new => Restamped value new ∧ new.Everywhere Value.Sized)
      (value.stampUnsetEnvelopes depth sender vmFreshRequestId tooNested) := by
  have rewrites : Rewrites OnlyMints base (fun _ => True) (fun _ id new => new = id)
      (fun _ hop new => new.replyCap = hop.replyCap) pure (stampUnset sender vmFreshRequestId) := by
    refine ⟨fun _ _ _ _ _ same => same, fun _ _ _ _ _ same => same, fun _ _ _ _ same => same, ?_, ?_⟩
    · exact fun id _ _ => yields_pure _ fun _ _ => rfl
    · exact fun hop _ => stamp_unset_keeps sender hop
  exact map_caps_yields value rewrites (fun _ _ => trivial) depth

-- What the frame needs of the message that the flow sends: no Pid and no Cap,
-- and room for the envelope among the levels of nesting.
def isAddress : Value → Bool
  | .pid _ | .cap _ => true
  | _ => false

def Portable : Value → Prop
  | .message hop => hop.payload.Everywhere (fun inner => isAddress inner = false) ∧ hop.payload.nestsWithin 1 = true
  | _ => False

theorem restamped_tokenless (value new : Value) (same : Restamped value new) : value.Tokenless ↔ new.Tokenless := by
  cases same with
  | cap id new _ carried =>
    rw [carried]
  | message hop new stamped _ =>
    rw [Value.Tokenless, Value.Tokenless, stamped]
  | _ => exact Iff.rfl

theorem screened_iff {value : Value} (sized : value.Everywhere Value.Sized) (tokenless : value.Everywhere Value.Tokenless) :
    value.Everywhere Value.Screened ↔ value.Everywhere (fun inner => isAddress inner = false) := by
  have same : ∀ inner : Value, inner.Sized ∧ inner.Tokenless → (inner.Screened ↔ isAddress inner = false) := by
    rintro inner ⟨sizedHere, tokenlessHere⟩
    cases inner with
    | message hop => exact ⟨fun _ => rfl, fun _ => tokenlessHere⟩
    | list | record | map => exact ⟨fun _ => rfl, fun _ => sizedHere⟩
    | pid | cap => exact ⟨fun never => never.elim, nofun⟩
    | _ => exact ⟨fun _ => rfl, fun _ => trivial⟩
  have both := everywhere_and value sized tokenless
  constructor
  · intro screened
    exact everywhere_mono (fun inner all => (same inner all.1).mp all.2) value (everywhere_and value both screened)
  · intro plain
    exact everywhere_mono (fun inner all => (same inner all.1).mpr all.2) value (everywhere_and value both plain)

theorem stamped_sendable_iff (flow : RemoteSender) (node : UInt64) (name : String) (msg : Message) (requestId : UInt64)
    (payload : Value) (free : msg.payload.containsLiveCap 0 = false) (restamped : Restamped msg.payload payload)
    (sized : payload.Everywhere Value.Sized) :
    Sendable ⟨flow.id, node, name, stamp (Message.withPayload { msg with requestId := requestId } payload) flow.id⟩ ↔
      (1 ≤ name.utf8ByteSize ∧ name.utf8ByteSize ≤ 256) ∧ Portable (.message msg) := by
  have tokenless : payload.Everywhere Value.Tokenless :=
    (mapped_everywhere restamped_tokenless _ _ restamped).mp (live_cap_free 0 _ free)
  have plain : payload.Everywhere Value.Screened ↔ msg.payload.Everywhere (fun inner => isAddress inner = false) :=
    (screened_iff sized tokenless).trans
      (mapped_everywhere (fun _ _ same => by cases same <;> exact Iff.rfl) _ _ restamped).symm
  have nests := mapped_nests _ _ restamped 1
  have screened : screenMessage 0 (stamp (Message.withPayload { msg with requestId := requestId } payload) flow.id) = .ok () ↔
      Portable (.message msg) := by
    rw [screen_message_iff, Portable, ← plain, nests, and_comm (b := payload.nestsWithin 1 = true), ← screen_value_ok]
    exact ⟨fun ⟨_, _, passed⟩ => passed, fun passed => ⟨by decide, rfl, passed⟩⟩
  constructor
  · intro sendable
    have named : name.utf8ByteSize ≠ 0 := sendable.named
    have short : name.utf8ByteSize ≤ 256 := sendable.short
    exact ⟨⟨by omega, short⟩, screened.mp sendable.screened⟩
  · rintro ⟨⟨named, short⟩, portable⟩
    exact ⟨flow.spawned, by change name.utf8ByteSize ≠ 0; omega, short, rfl, screened.mpr portable⟩

def queued (node : RemoteNode) : List OutboundHop := (node.distribution.map (·.queue)).getD []

theorem push_queues (layout : Layout) (sizeOfHop : Nat) (hop : OutboundHop) {bridge : DistributionBridge}
    {node : RemoteNode} (shared : node.distribution = some bridge) :
    Ends (fun _ after => queued after = queued node ++ [hop]) (fun _ _ => True)
      (exec (push layout sizeOfHop bridge hop) node) := by
  rw [push]
  cases charged : tryCharge layout bridge (hopByteCost layout sizeOfHop hop) with
  | none => trivial
  | some next =>
    have same : next.queue = bridge.queue := by
      rw [tryCharge] at charged
      split at charged
      · cases charged
      · split at charged
        · cases charged
        · split at charged
          · cases charged
          · cases charged
            rfl
    rw [exec_modify]
    change next.queue ++ [hop] = queued node ++ [hop]
    rw [queued, shared, same]
    rfl

theorem deliver_queues (layout : Layout) (sizeOfHop : Nat) (sendAllowed : Bool) (node : UInt64) (name : String)
    (message : Value) (before : RemoteNode) :
    Ends (fun _ after => ∃ hop, queued after = queued before ++ [hop] ∧
        (Sendable hop ↔ (1 ≤ name.utf8ByteSize ∧ name.utf8ByteSize ≤ 256) ∧ Portable message))
      (fun _ _ => True) (exec (deliver layout sizeOfHop sendAllowed node name message) before) := by
  rw [deliver, exec_get_bind]
  by_cases denied : before.flow.rights.contains .SEND = false
  · rw [if_pos denied]
    trivial
  rw [if_neg denied]
  cases shared : before.distribution with
  | none => trivial
  | some bridge =>
    cases isHop : message.asMessage with
    | none => trivial
    | some msg =>
      have same : message = .message msg := by
        cases message with
        | message hop =>
          cases isHop
          rfl
        | _ => cases isHop
      subst same
      dsimp only
      by_cases deep : msg.payload.withinNestingLimit = false
      · rw [if_pos deep]
        trivial
      rw [if_neg deep]
      by_cases live : msg.payload.containsLiveCap 0 = true
      · rw [if_pos live]
        trivial
      rw [if_neg live]
      by_cases limited : sendAllowed = false
      · rw [if_pos limited]
        trivial
      rw [if_neg limited]
      have refl := refl_of OnlyMints
      refine ends_next (request_id_mints msg.requestId before (refl before)) fun requestId mid minted => ?_
      refine ends_next (stamp_unset_envelopes_yields 0 before.flow.id _ msg.payload mid (refl mid))
         fun payload last stamped => ?_
      obtain ⟨later, restamped, sized⟩ := stamped
      have kept : last.distribution = before.distribution := later.2.trans minted.1.2
      refine ends_mono (push_queues layout sizeOfHop _ (kept.trans shared)) (fun _ after pushed => ?_)
        fun _ _ failed => failed
      refine ⟨_, ?_, stamped_sendable_iff before.flow node name msg requestId payload (Bool.eq_false_iff.mpr live)
        restamped sized⟩
      rw [pushed, queued, kept, queued]

theorem queued_hop_encodes_iff (layout : Layout) (sizeOfHop : Nat) (sendAllowed : Bool) (node : UInt64) (name : String)
    (message : Value) (before after : RemoteNode)
    (delivered : exec (deliver layout sizeOfHop sendAllowed node name message) before = (.ok (), after)) :
    ∃ hop, queued after = queued before ++ [hop] ∧
      ((∃ bytes, encodeFrame hop = .ok bytes) ↔
        (1 ≤ name.utf8ByteSize ∧ name.utf8ByteSize ≤ 256) ∧ Portable message) := by
  have ends := deliver_queues layout sizeOfHop sendAllowed node name message before
  rw [delivered] at ends
  obtain ⟨hop, pushed, sendable⟩ := ends
  refine ⟨hop, pushed, ?_⟩
  rw [← sendable]
  constructor
  · rintro ⟨bytes, written⟩
    exact ((encode_frame_ok hop bytes).mp written).1
  · intro passes
    exact ⟨_, (encode_frame_ok hop _).mpr ⟨passes, rfl⟩⟩

def sendingNode : RemoteNode :=
  ⟨⟨5, by decide, .ADDRESSING, 1⟩, some ⟨[], 0, 0, 1024, 64 * 1024 * 1024⟩⟩

theorem text_hop_encodes :
    ∃ after hop, exec (deliver .word 96 true 2 "log" (.message ⟨0, .NONE, 0, 3, .str "hi"⟩)) sendingNode = (.ok (), after) ∧
      queued after = [hop] ∧ ∃ bytes, encodeFrame hop = .ok bytes := by
  obtain ⟨hop, pushed, encodes⟩ := queued_hop_encodes_iff .word 96 true 2 "log" (.message ⟨0, .NONE, 0, 3, .str "hi"⟩)
    sendingNode _ rfl
  refine ⟨_, hop, rfl, pushed, encodes.mpr ⟨by decide, ⟨_, rfl, forall_mem_nil _⟩, rfl⟩⟩

theorem pid_hop_refused :
    ∃ after hop, exec (deliver .word 96 true 2 "log" (.message ⟨0, .NONE, 0, 3, .pid 5⟩)) sendingNode = (.ok (), after) ∧
      queued after = [hop] ∧ encodeFrame hop = .error .liveCapability :=
  ⟨_, _, rfl, rfl, rfl⟩

end Distribution

end Byteflow
