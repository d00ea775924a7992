import Byteflow.Codec
import Byteflow.Transition

namespace Byteflow

open Transition Codec

def WIRE_MAGIC : List UInt8 := [0x42, 0x46, 0x54, 0x31]
def WIRE_VERSION : UInt8 := 1

inductive WireError where
  | io
  | frameTooLarge (len max : UInt32)

def encodeWireBytes (payload : List UInt8) (maxWireBytes : UInt32) : Except WireError (List UInt8) :=
  if payload.length ≥ 2 ^ 32 then .error (.frameTooLarge 0xFFFFFFFF maxWireBytes)
  else if UInt32.ofNat payload.length > maxWireBytes then
    .error (.frameTooLarge (UInt32.ofNat payload.length) maxWireBytes)
  else .ok (WIRE_MAGIC ++ [WIRE_VERSION] ++ leBytes 4 payload.length ++ payload)

-- written says whether write_all on the socket succeeds.
def writeWireFrame (payload : List UInt8) (maxWireBytes : UInt32) (written : Bool) : Except WireError Unit := do
  let _ ← encodeWireBytes payload maxWireBytes
  if written then .ok () else .error .io

structure WireFrame where
  peer : Nat
  bytes : List UInt8
deriving DecidableEq

inductive ConnectResult where
  | connected
  | noNodelay
  | refused
deriving DecidableEq

-- queue is what the channel still holds. sent lists the frames whose write
-- succeeded, taken counts the iterations that took a frame.
structure TcpWriter where
  queue : List WireFrame
  retryFrame : Option WireFrame
  stream : Bool
  connectedPeer : Option Nat
  running : Bool
  sent : List WireFrame
  taken : Nat

inductive WriterEvent where
  | stop
  | timeout
  | disconnected
  | attempt (connect : ConnectResult) (written : Bool)
deriving DecidableEq

namespace TcpWriter

def new (queue : List WireFrame) : TcpWriter := ⟨queue, none, false, none, true, [], 0⟩

def takeFrame (writer : TcpWriter) : Option (WireFrame × TcpWriter) :=
  match writer.retryFrame, writer.queue with
  | some frame, _ => some (frame, { writer with retryFrame := none, taken := writer.taken + 1 })
  | none, frame :: rest => some (frame, { writer with queue := rest, taken := writer.taken + 1 })
  | none, [] => none

-- The cached stream is kept only for the peer it is connected to.
def ensureStream (writer : TcpWriter) (peer : Nat) (connect : ConnectResult) : TcpWriter :=
  if writer.connectedPeer ≠ some peer ∨ writer.stream = false then
    if connect = .connected then { writer with stream := true, connectedPeer := some peer }
    else { writer with stream := false, connectedPeer := none }
  else writer

def attempt (maxWire : UInt32) (writer : TcpWriter) (connect : ConnectResult) (written : Bool) : Option TcpWriter := do
  let (frame, writer) ← writer.takeFrame
  let ready := writer.ensureStream frame.peer connect
  if ready.stream = false then some { ready with retryFrame := some frame }
  else match writeWireFrame frame.bytes maxWire written with
    | .error _ => some { ready with retryFrame := some frame, stream := false, connectedPeer := none }
    | .ok () => some { ready with sent := ready.sent ++ [frame] }

def next (maxWire : UInt32) (writer : TcpWriter) (event : WriterEvent) : Option TcpWriter :=
  if writer.running = false then none
  else match event with
    | .stop => some { writer with running := false }
    | .timeout => if writer.retryFrame = none then some writer else none
    | .disconnected =>
      if writer.retryFrame = none ∧ writer.queue = [] then some { writer with running := false } else none
    | .attempt connect written => writer.attempt maxWire connect written

def Healthy (_ : TcpWriter) (event : WriterEvent) : Prop :=
  match event with
  | .attempt connect written => connect = .connected ∧ written = true
  | _ => True

instance (writer : TcpWriter) (event : WriterEvent) : Decidable (Healthy writer event) := by
  cases event <;> unfold Healthy <;> infer_instance

section Runs

variable {maxWire : UInt32} {frames : List WireFrame} {writer after : TcpWriter}

theorem write_ok_iff (payload : List UInt8) (written : Bool) :
    writeWireFrame payload maxWire written = .ok () ↔ payload.length ≤ maxWire.toNat ∧ written = true := by
  have width := maxWire.toNat_lt
  unfold writeWireFrame encodeWireBytes
  by_cases wide : payload.length ≥ 2 ^ 32
  · rw [if_pos wide]
    exact ⟨nofun, fun ⟨fits, _⟩ => by omega⟩
  · have length : (UInt32.ofNat payload.length).toNat = payload.length := UInt32.toNat_ofNat_of_lt' (Nat.lt_of_not_le wide)
    have larger : UInt32.ofNat payload.length > maxWire ↔ maxWire.toNat < payload.length := by
      rw [gt_iff_lt, UInt32.lt_iff_toNat_lt, length]
    rw [if_neg wide]
    by_cases large : UInt32.ofNat payload.length > maxWire
    · rw [if_pos large]
      exact ⟨nofun, fun ⟨fits, _⟩ => absurd (larger.mp large) (Nat.not_lt.mpr fits)⟩
    · rw [if_neg large]
      have fits := Nat.le_of_not_lt fun long => large (larger.mpr long)
      cases written <;> simp [bind, Except.bind, fits]

-- Nothing is lost or repeated: what was sent, the retry slot and the channel
-- make up the queue, in order.
def InOrder (frames : List WireFrame) (writer : TcpWriter) : Prop :=
  writer.sent ++ (writer.retryFrame.toList ++ writer.queue) = frames

theorem take_frame_cases {frame : WireFrame} (took : writer.takeFrame = some (frame, after)) :
    ∃ rest, writer.retryFrame.toList ++ writer.queue = frame :: rest ∧
      after = { writer with queue := rest, retryFrame := none, taken := writer.taken + 1 } := by
  obtain ⟨queue, retryFrame, stream, connectedPeer, running, sent, taken⟩ := writer
  cases retryFrame with
  | some held =>
    cases took
    exact ⟨queue, rfl, rfl⟩
  | none =>
    cases queue with
    | nil => cases took
    | cons head rest =>
      cases took
      exact ⟨rest, rfl, rfl⟩

theorem ensure_stream_keeps (writer : TcpWriter) (peer : Nat) (connect : ConnectResult) :
    ∃ stream connectedPeer, writer.ensureStream peer connect = { writer with stream := stream, connectedPeer := connectedPeer } ∧
      (connect = .connected → stream = true) := by
  unfold ensureStream
  split_ifs with stale fresh
  · exact ⟨true, some peer, rfl, fun _ => rfl⟩
  · exact ⟨false, none, rfl, fun same => absurd same fresh⟩
  · refine ⟨writer.stream, writer.connectedPeer, rfl, fun _ => ?_⟩
    simp only [not_or, Bool.not_eq_false] at stale
    exact stale.2

theorem attempt_cases {connect : ConnectResult} {written : Bool} (done : writer.attempt maxWire connect written = some after) :
    ∃ frame rest, writer.retryFrame.toList ++ writer.queue = frame :: rest ∧ after.queue = rest ∧
      after.taken = writer.taken + 1 ∧ after.running = writer.running ∧
      (after.retryFrame = some frame ∧ after.sent = writer.sent ∧
          (connect = .connected ∧ written = true → ¬ frame.bytes.length ≤ maxWire.toNat) ∨
        after.retryFrame = none ∧ after.sent = writer.sent ++ [frame] ∧ frame.bytes.length ≤ maxWire.toNat) := by
  obtain ⟨⟨frame, writer'⟩, took, done⟩ := Option.bind_eq_some_iff.mp done
  obtain ⟨rest, split, rfl⟩ := take_frame_cases took
  obtain ⟨stream, peer, ready, connects⟩ := ensure_stream_keeps { writer with
    queue := rest, retryFrame := none, taken := writer.taken + 1 } frame.peer connect
  refine ⟨frame, rest, split, ?_⟩
  dsimp only at done
  rw [ready] at done
  split_ifs at done with broken
  · cases done
    exact ⟨rfl, rfl, rfl, Or.inl ⟨rfl, rfl, fun healthy => by rw [connects healthy.1] at broken; cases broken⟩⟩
  · cases wrote : writeWireFrame frame.bytes maxWire written with
    | error fault =>
      rw [wrote] at done
      cases done
      refine ⟨rfl, rfl, rfl, Or.inl ⟨rfl, rfl, fun healthy fits => ?_⟩⟩
      rw [(write_ok_iff _ _).mpr ⟨fits, healthy.2⟩] at wrote
      cases wrote
    | ok _ =>
      rw [wrote] at done
      cases done
      exact ⟨rfl, rfl, rfl, Or.inr ⟨rfl, rfl, ((write_ok_iff _ _).mp wrote).1⟩⟩

theorem next_cases {event : WriterEvent} (moved : writer.next maxWire event = some after) :
    (∃ running, after = { writer with running := running }) ∨
      ∃ connect written, event = .attempt connect written ∧ writer.attempt maxWire connect written = some after := by
  unfold next at moved
  split at moved
  · cases moved
  cases event with
  | attempt connect written => exact Or.inr ⟨connect, written, rfl, moved⟩
  | stop =>
    cases moved
    exact Or.inl ⟨false, rfl⟩
  | timeout | disconnected =>
    dsimp only at moved
    split at moved
    · cases moved
      exact Or.inl ⟨_, rfl⟩
    · cases moved

theorem in_order_next {event : WriterEvent} (ordered : InOrder frames writer)
    (moved : writer.next maxWire event = some after) : InOrder frames after := by
  rcases next_cases moved with ⟨running, rfl⟩ | ⟨connect, written, _, done⟩
  · exact ordered
  · obtain ⟨frame, rest, split, queue, _, _, ⟨retry, sent, _⟩ | ⟨retry, sent, _⟩⟩ := attempt_cases done
    · rw [InOrder, retry, sent, queue, ← ordered, split]
      rfl
    · rw [InOrder, retry, sent, queue, ← ordered, split]
      simp

theorem new_in_order (frames : List WireFrame) : InOrder frames (new frames) := rfl

theorem reached_in_order (reached : Reach (next maxWire) (fun _ _ => True) (new frames) writer) : InOrder frames writer :=
  reach_invariant (new_in_order frames) (fun _ _ _ ordered _ moved => in_order_next ordered moved) reached

def Flushed (frames : List WireFrame) (writer : TcpWriter) : Prop :=
  InOrder frames writer ∧ writer.retryFrame = none ∧ writer.sent.length = writer.taken

-- While every frame fits, a healthy iteration sends the frame it took.
theorem reached_flushed (small : ∀ frame ∈ frames, frame.bytes.length ≤ maxWire.toNat)
    (reached : Reach (next maxWire) Healthy (new frames) writer) : Flushed frames writer := by
  refine reach_invariant ⟨new_in_order frames, rfl, rfl⟩ ?_ reached
  rintro before event after ⟨ordered, retry, count⟩ healthy moved
  refine ⟨in_order_next ordered moved, ?_⟩
  rcases next_cases moved with ⟨running, rfl⟩ | ⟨connect, written, rfl, done⟩
  · exact ⟨retry, count⟩
  · obtain ⟨frame, rest, split, _, more, _, ⟨_, _, stuck⟩ | ⟨none, sent, _⟩⟩ := attempt_cases done
    · refine absurd (small frame ?_) (stuck healthy)
      rw [← ordered, split]
      simp
    · exact ⟨none, by rw [sent, more, List.length_append, count]; rfl⟩

theorem attempt_some (maxWire : UInt32) (connect : ConnectResult) (written : Bool) {frame : WireFrame} {rest : List WireFrame}
    (retry : writer.retryFrame = none) (queue : writer.queue = frame :: rest) :
    ∃ after, writer.attempt maxWire connect written = some after := by
  simp only [attempt, takeFrame, retry, queue, Option.bind_eq_bind, Option.bind_some]
  split
  · exact ⟨_, rfl⟩
  · split <;> exact ⟨_, rfl⟩

-- A frame that does not fit would come to rest in the retry slot.
theorem queue_fits (cleared : ∀ writer, Reach (next maxWire) Healthy (new frames) writer → writer.retryFrame = none)
    (queue : List WireFrame) (same : writer.queue = queue) (running : writer.running = true)
    (reached : Reach (next maxWire) Healthy (new frames) writer) : ∀ frame ∈ queue, frame.bytes.length ≤ maxWire.toNat := by
  induction queue generalizing writer with
  | nil => exact nofun
  | cons head rest ih =>
    have retry := cleared writer reached
    obtain ⟨after, done⟩ := attempt_some maxWire .connected true retry same
    have healthy : Healthy writer (.attempt .connected true) := ⟨rfl, rfl⟩
    have later := Reach.step writer _ after reached healthy (by simp [next, running, done])
    obtain ⟨frame, tail, split, queue, _, kept, ⟨stuck, _⟩ | ⟨_, _, fits⟩⟩ := attempt_cases done
    · rw [cleared after later] at stuck
      cases stuck
    · rw [retry, same] at split
      cases split
      exact List.forall_mem_cons.mpr ⟨fits, ih queue (kept.trans running) later⟩

theorem writer_progress_iff (maxWire : UInt32) (frames : List WireFrame) :
    (∀ writer, Reach (next maxWire) (fun _ _ => True) (new frames) writer → writer.sent <+: frames) ∧
    ((∀ writer, Reach (next maxWire) Healthy (new frames) writer →
        writer.retryFrame = none ∧ writer.sent = frames.take writer.taken) ↔
      ∀ frame ∈ frames, frame.bytes.length ≤ maxWire.toNat) := by
  refine ⟨fun writer reached => ⟨_, reached_in_order reached⟩, fun dealt => ?_, fun small writer reached => ?_⟩
  · exact queue_fits (fun writer reached => (dealt writer reached).1) frames rfl rfl .here
  · obtain ⟨ordered, retry, count⟩ := reached_flushed small reached
    refine ⟨retry, ?_⟩
    rw [← count]
    exact List.prefix_iff_eq_take.mp ⟨_, ordered⟩

-- Two healthy iterations, and the first frame is still in the retry slot.
theorem oversized_frame_stuck : ∃ writer, Reach (next 2) Healthy (new [⟨1, [0, 0, 0]⟩, ⟨1, [0]⟩]) writer ∧
    writer.taken = 2 ∧ writer.sent = [] ∧ writer.retryFrame = some ⟨1, [0, 0, 0]⟩ :=
  ⟨_, reach_of_play [.attempt .connected true, .attempt .connected true] _ (by decide) rfl, rfl, rfl, rfl⟩

end Runs

end TcpWriter

end Byteflow
