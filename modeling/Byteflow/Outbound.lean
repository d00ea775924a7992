import Byteflow.RemoteFrame
import Byteflow.Transition

namespace Byteflow

open List Transition

-- spawn_tcp_outbound_routed: the router and the channel's size. The channel's
-- buffer is allocated when it is made, so its size stays far below usize::MAX.
structure TcpOutbound (Peer : Type) where
  resolve : UInt64 → Option Peer
  queueCapacity : Nat
  positive : 0 < queueCapacity
  allocated : queueCapacity + 1 < 2 ^ 64

-- Where pump_bridge_to_routed_channel is: in recv_timeout, with a hop it has
-- not sent, behind send and before fetch_add, or out of its loop.
inductive Pump where
  | polling
  | holding (hop : OutboundHop)
  | uncounted
  | broken

-- Where run_tcp_routed_writer is: in recv_timeout, with a frame it has not
-- written, or behind the write and before fetch_sub.
inductive Writer (Peer : Type) where
  | waiting
  | holding (frame : Peer × List UInt8)
  | wrote

inductive HostPhase where
  | working | drainBridge | drainWire | drained | gaveUp | stopped
deriving DecidableEq, Repr

-- accepted, lost and wrapped are not in the source: the hops push took, those
-- that were dropped again, and whether fetch_sub ever met zero.
structure Outbound (Peer : Type) where
  queue : List OutboundHop
  pump : Pump
  channel : List (Peer × List UInt8)
  writer : Writer Peer
  written : List (Peer × List UInt8)
  wirePending : Nat
  host : HostPhase
  accepted : List OutboundHop
  lost : List OutboundHop
  wrapped : Bool

inductive OutboundEvent where
  | accept (hop : OutboundHop)
  | recv | send | count
  -- The writer. A connect or a write that fails keeps the frame for the next round.
  | take | write (ok : Bool) | countDown
  | shutdown | pollBridge | pollWire | timeOut | stop

namespace Outbound

variable {Peer : Type}

def start : Outbound Peer := ⟨[], .polling, [], .waiting, [], 0, .working, [], [], false⟩

section Steps

variable (link : TcpOutbound Peer)

def frame (hop : OutboundHop) : Option (Peer × List UInt8) :=
  match link.resolve hop.node, encodeFrame hop with
  | some peer, .ok bytes => some (peer, bytes)
  | _, _ => none

def accept (state : Outbound Peer) (hop : OutboundHop) : Option (Outbound Peer) :=
  match state.host with
  | .working => some { state with queue := state.queue ++ [hop], accepted := state.accepted ++ [hop] }
  | _ => none

def recv (state : Outbound Peer) : Option (Outbound Peer) :=
  match state.pump, state.queue with
  | .polling, hop :: rest => some { state with pump := .holding hop, queue := rest }
  | _, _ => none

-- A full channel blocks the pump. A hop that has no frame ends it.
def send (state : Outbound Peer) : Option (Outbound Peer) :=
  match state.pump with
  | .holding hop =>
    match frame link hop with
    | none => some { state with pump := .broken, lost := state.lost ++ [hop] }
    | some made =>
      if state.channel.length < link.queueCapacity then
        some { state with pump := .uncounted, channel := state.channel ++ [made] }
      else none
  | _ => none

def count (state : Outbound Peer) : Option (Outbound Peer) :=
  match state.pump with
  | .uncounted => some { state with pump := .polling, wirePending := (state.wirePending + 1) % 2 ^ 64 }
  | _ => none

def take (state : Outbound Peer) : Option (Outbound Peer) :=
  match state.writer, state.channel with
  | .waiting, first :: rest => some { state with writer := .holding first, channel := rest }
  | _, _ => none

def write (state : Outbound Peer) (ok : Bool) : Option (Outbound Peer) :=
  match state.writer with
  | .holding held =>
    some (if ok then { state with writer := .wrote, written := state.written ++ [held] } else state)
  | _ => none

def countDown (state : Outbound Peer) : Option (Outbound Peer) :=
  match state.writer with
  | .wrote => some { state with
      writer := .waiting
      wirePending := (state.wirePending + (2 ^ 64 - 1)) % 2 ^ 64
      wrapped := state.wrapped || state.wirePending == 0 }
  | _ => none

-- One round of wait_bridge_drained: try_recv takes the hop it finds.
def pollBridge (state : Outbound Peer) : Option (Outbound Peer) :=
  match state.host, state.queue with
  | .drainBridge, [] => some { state with host := .drainWire }
  | .drainBridge, hop :: rest => some { state with queue := rest, lost := state.lost ++ [hop] }
  | _, _ => none

def pollWire (state : Outbound Peer) : Option (Outbound Peer) :=
  match state.host with
  | .drainWire => some (if state.wirePending > 0 then state else { state with host := .drained })
  | _ => none

def next (state : Outbound Peer) : OutboundEvent → Option (Outbound Peer)
  | .accept hop => state.accept hop
  | .recv => state.recv
  | .send => state.send link
  | .count => state.count
  | .take => state.take
  | .write ok => state.write ok
  | .countDown => state.countDown
  | .shutdown => if state.host = .working then some { state with host := .drainBridge } else none
  | .pollBridge => state.pollBridge
  | .pollWire => state.pollWire
  | .timeOut =>
    if state.host = .drainBridge ∨ state.host = .drainWire then some { state with host := .gaveUp } else none
  | .stop => if state.host = .drained then some { state with host := .stopped } else none

end Steps

def inHand (state : Outbound Peer) : List OutboundHop :=
  match state.pump with
  | .holding hop => [hop]
  | _ => []

def unwritten (state : Outbound Peer) : List (Peer × List UInt8) :=
  match state.writer with
  | .holding held => [held]
  | _ => []

def Delivered (link : TcpOutbound Peer) (state : Outbound Peer) : Prop :=
  state.written.map some = state.accepted.map (frame link)

section Drain

variable {link : TcpOutbound Peer} {state after : Outbound Peer} {event : OutboundEvent}

-- All a step can do, with what it met.
inductive Step (link : TcpOutbound Peer) (state : Outbound Peer) : OutboundEvent → Outbound Peer → Prop where
  | accept (hop : OutboundHop) (working : state.host = .working) :
      Step link state (.accept hop) { state with queue := state.queue ++ [hop], accepted := state.accepted ++ [hop] }
  | recv (hop : OutboundHop) (rest : List OutboundHop) (polling : state.pump = .polling) (found : state.queue = hop :: rest) :
      Step link state .recv { state with pump := .holding hop, queue := rest }
  | refuse (hop : OutboundHop) (holding : state.pump = .holding hop) (unframed : frame link hop = none) :
      Step link state .send { state with pump := .broken, lost := state.lost ++ [hop] }
  | send (hop : OutboundHop) (made : Peer × List UInt8) (holding : state.pump = .holding hop) (framed : frame link hop = some made)
      (room : state.channel.length < link.queueCapacity) :
      Step link state .send { state with pump := .uncounted, channel := state.channel ++ [made] }
  | count (uncounted : state.pump = .uncounted) :
      Step link state .count { state with pump := .polling, wirePending := (state.wirePending + 1) % 2 ^ 64 }
  | take (first : Peer × List UInt8) (rest : List (Peer × List UInt8)) (waiting : state.writer = .waiting)
      (found : state.channel = first :: rest) :
      Step link state .take { state with writer := .holding first, channel := rest }
  | retry (held : Peer × List UInt8) (holding : state.writer = .holding held) : Step link state (.write false) state
  | write (held : Peer × List UInt8) (holding : state.writer = .holding held) :
      Step link state (.write true) { state with writer := .wrote, written := state.written ++ [held] }
  | countDown (wrote : state.writer = .wrote) :
      Step link state .countDown { state with
        writer := .waiting
        wirePending := (state.wirePending + (2 ^ 64 - 1)) % 2 ^ 64
        wrapped := state.wrapped || state.wirePending == 0 }
  | shutdown (working : state.host = .working) : Step link state .shutdown { state with host := .drainBridge }
  | bridgeEmpty (draining : state.host = .drainBridge) (empty : state.queue = []) :
      Step link state .pollBridge { state with host := .drainWire }
  | discard (hop : OutboundHop) (rest : List OutboundHop) (draining : state.host = .drainBridge) (found : state.queue = hop :: rest) :
      Step link state .pollBridge { state with queue := rest, lost := state.lost ++ [hop] }
  | wirePending (draining : state.host = .drainWire) : Step link state .pollWire state
  | wireZero (draining : state.host = .drainWire) (zero : state.wirePending = 0) :
      Step link state .pollWire { state with host := .drained }
  | timeOut : Step link state .timeOut { state with host := .gaveUp }
  | stop (drained : state.host = .drained) : Step link state .stop { state with host := .stopped }

theorem next_step (stepped : state.next link event = some after) : Step link state event after := by
  cases event with
  | accept hop =>
    simp only [next, Outbound.accept] at stepped
    split at stepped
    case h_1 working =>
      cases stepped
      exact .accept hop working
    case h_2 => cases stepped
  | recv =>
    simp only [next, Outbound.recv] at stepped
    split at stepped
    case h_1 hop rest polling found =>
      cases stepped
      exact .recv hop rest polling found
    case h_2 => cases stepped
  | send =>
    simp only [next, Outbound.send] at stepped
    split at stepped
    case h_1 hop holding =>
      split at stepped
      case h_1 unframed =>
        cases stepped
        exact .refuse hop holding unframed
      case h_2 made framed =>
        obtain ⟨room, rfl⟩ := Option.ite_some_none_eq_some.mp stepped
        exact .send hop made holding framed room
    case h_2 => cases stepped
  | count =>
    simp only [next, Outbound.count] at stepped
    split at stepped
    case h_1 uncounted =>
      cases stepped
      exact .count uncounted
    case h_2 => cases stepped
  | take =>
    simp only [next, Outbound.take] at stepped
    split at stepped
    case h_1 first rest waiting found =>
      cases stepped
      exact .take first rest waiting found
    case h_2 => cases stepped
  | write ok =>
    simp only [next, Outbound.write] at stepped
    split at stepped
    case h_1 held holding =>
      cases ok with
      | false =>
        cases stepped
        exact .retry held holding
      | true =>
        cases stepped
        exact .write held holding
    case h_2 => cases stepped
  | countDown =>
    simp only [next, Outbound.countDown] at stepped
    split at stepped
    case h_1 wrote =>
      cases stepped
      exact .countDown wrote
    case h_2 => cases stepped
  | shutdown =>
    obtain ⟨working, rfl⟩ := Option.ite_some_none_eq_some.mp stepped
    exact .shutdown working
  | pollBridge =>
    simp only [next, Outbound.pollBridge] at stepped
    split at stepped
    case h_1 draining empty =>
      cases stepped
      exact .bridgeEmpty draining empty
    case h_2 hop rest draining found =>
      cases stepped
      exact .discard hop rest draining found
    case h_3 => cases stepped
  | pollWire =>
    simp only [next, Outbound.pollWire] at stepped
    split at stepped
    case h_1 draining =>
      cases stepped
      split
      · exact .wirePending draining
      · case isFalse none_ => exact .wireZero draining (Nat.eq_zero_of_not_pos none_)
    case h_2 => cases stepped
  | timeOut =>
    obtain ⟨_, rfl⟩ := Option.ite_some_none_eq_some.mp stepped
    exact .timeOut
  | stop =>
    obtain ⟨drained, rfl⟩ := Option.ite_some_none_eq_some.mp stepped
    exact .stop drained

def Conserved (state : Outbound Peer) : Prop :=
  state.accepted.length = state.written.length + state.unwritten.length + state.channel.length + state.inHand.length +
    state.queue.length + state.lost.length

theorem step_conserved (step : Step link state event after) (conserved : state.Conserved) : after.Conserved := by
  unfold Conserved at conserved ⊢
  cases step with
  | accept hop working =>
    simp only [inHand, unwritten, length_append, length_singleton] at conserved ⊢
    omega
  | recv hop rest polling found =>
    simp only [inHand, unwritten, polling, found, length_cons, length_nil] at conserved ⊢
    omega
  | refuse hop holding unframed | send hop made holding framed room | write held holding =>
    simp only [inHand, unwritten, holding, length_append, length_cons, length_nil] at conserved ⊢
    omega
  | count uncounted =>
    simp only [inHand, unwritten, uncounted, length_nil] at conserved ⊢
    omega
  | take first rest waiting found =>
    simp only [inHand, unwritten, waiting, found, length_cons, length_nil] at conserved ⊢
    omega
  | countDown wrote =>
    simp only [inHand, unwritten, wrote, length_nil] at conserved ⊢
    omega
  | discard hop rest draining found =>
    simp only [inHand, unwritten, found, length_append, length_cons, length_nil] at conserved ⊢
    omega
  | retry | shutdown | bridgeEmpty | wirePending | wireZero | timeOut | stop => exact conserved

-- Frames behind send and not counted yet, and frames taken from the channel and
-- not discounted yet.
def uncounted (state : Outbound Peer) : Nat :=
  match state.pump with
  | .uncounted => 1
  | _ => 0

def undone (state : Outbound Peer) : Nat :=
  match state.writer with
  | .waiting => 0
  | _ => 1

def bridgeWaited (state : Outbound Peer) : Bool :=
  match state.host with
  | .drainWire | .drained | .stopped => true
  | _ => false

def wireWaited (state : Outbound Peer) : Bool :=
  match state.host with
  | .drained | .stopped => true
  | _ => false

structure Sound (link : TcpOutbound Peer) (state : Outbound Peer) : Prop where
  kept : state.lost = []
  framed : ∀ hop ∈ state.inHand ++ state.queue, frame link hop ≠ none
  ledger : state.accepted.map (frame link) =
    (state.written ++ state.unwritten ++ state.channel).map some ++ (state.inHand ++ state.queue).map (frame link)
  counter : state.wirePending + state.uncounted = state.channel.length + state.undone
  room : state.channel.length ≤ link.queueCapacity
  unwrapped : state.wrapped = false
  bridge : state.bridgeWaited = true → state.queue = []
  wire : state.wireWaited = true → state.inHand = [] ∧ state.channel = [] ∧ state.unwritten = []

def Succeeds (link : TcpOutbound Peer) : OutboundEvent → Prop
  | .accept hop => frame link hop ≠ none
  | .write ok => ok = true
  | _ => True

-- wait_bridge_drained finds no hop to take, wait_wire_drained does not read zero
-- past a hop in the pump's hands, and fetch_sub comes behind its fetch_add.
def InOrder (state : Outbound Peer) : OutboundEvent → Prop
  | .pollBridge => state.queue = []
  | .pollWire => state.wirePending = 0 →
      state.inHand = [] ∧ (state.uncounted = 1 → state.channel = [] ∧ state.unwritten = [])
  | .countDown => ¬ (state.uncounted = 1 ∧ state.channel = [])
  | _ => True

theorem undone_le (state : Outbound Peer) : state.undone ≤ 1 := by
  rw [undone]
  split <;> omega

theorem unwritten_of_done (done : state.undone = 0) : state.unwritten = [] := by
  rw [undone] at done
  split at done
  case h_1 waiting => rw [unwritten, waiting]
  case h_2 => cases done

theorem uncounted_le (state : Outbound Peer) : state.uncounted ≤ 1 := by
  rw [uncounted]
  split <;> omega

theorem bridge_waited_of_wire (waited : state.wireWaited = true) : state.bridgeWaited = true := by
  obtain ⟨_, _, _, _, _, _, host, _, _, _⟩ := state
  cases host with
  | drained | stopped => rfl
  | working | drainBridge | drainWire | gaveUp => cases waited

theorem step_sound (step : Step link state event after) (succeeds : Succeeds link event)
    (inOrder : state.InOrder event) (sound : state.Sound link) : after.Sound link := by
  obtain ⟨kept, framed, ledger, counter, room, unwrapped, bridge, wire⟩ := sound
  cases step with
  | accept hop working =>
    refine ⟨kept, fun other member => ?_, ?_, counter, room, unwrapped, fun waited => ?_, fun waited => ?_⟩
    · rw [← append_assoc] at member
      rcases mem_append.mp member with member | member
      · exact framed other member
      · rw [mem_singleton.mp member]
        exact succeeds
    · simp only [map_append, ledger, append_assoc]
      rfl
    · rw [bridgeWaited, working] at waited
      cases waited
    · rw [wireWaited, working] at waited
      cases waited
  | recv hop rest polling found =>
    have hands : state.inHand = [] := by rw [inHand, polling]
    rw [hands, nil_append, found] at framed ledger
    refine ⟨kept, framed, ledger, ?_, room, unwrapped, fun waited => ?_, fun waited => ?_⟩
    · rw [uncounted, polling] at counter
      exact counter
    · cases found.symm.trans (bridge waited)
    · cases found.symm.trans (bridge (bridge_waited_of_wire waited))
  | refuse hop holding unframed =>
    have hands : state.inHand = [hop] := by rw [inHand, holding]
    exact absurd unframed (framed hop (by rw [hands]; exact mem_cons_self))
  | send hop made holding isFrame space =>
    have hands : state.inHand = [hop] := by rw [inHand, holding]
    rw [hands] at framed ledger wire
    refine ⟨kept, fun other member => framed other (mem_cons_of_mem hop member), ?_, ?_, ?_, unwrapped, bridge,
      fun waited => ?_⟩
    · rw [ledger]
      simp only [inHand, unwritten, map_append, map_cons, map_nil, isFrame, append_assoc, nil_append]
    · rw [uncounted, holding] at counter
      simp only [uncounted, undone, length_append, length_singleton] at counter ⊢
      omega
    · rw [length_append, length_singleton]
      exact space
    · cases (wire waited).1
  | count pending =>
    have hands : state.inHand = [] := by rw [inHand, pending]
    rw [hands] at framed ledger wire
    refine ⟨kept, framed, ledger, ?_, room, unwrapped, bridge, wire⟩
    rw [uncounted, pending] at counter
    have bounded := undone_le state
    have allocated := link.allocated
    simp only [uncounted, undone] at counter bounded ⊢
    rw [Nat.mod_eq_of_lt (by omega)]
    omega
  | take first rest waiting found =>
    have nothing : state.unwritten = [] := by rw [unwritten, waiting]
    rw [nothing, found] at ledger wire
    refine ⟨kept, framed, ?_, ?_, ?_, unwrapped, bridge, fun waited => ?_⟩
    · rw [ledger]
      simp only [unwritten, inHand, append_nil, append_assoc, singleton_append]
    · rw [undone, waiting, found, length_cons] at counter
      simp only [uncounted, undone] at counter ⊢
      omega
    · rw [found, length_cons] at room
      exact Nat.le_of_succ_le room
    · cases (wire waited).2.1
  | write held holding =>
    have one : state.unwritten = [held] := by rw [unwritten, holding]
    rw [one] at ledger wire
    refine ⟨kept, framed, ?_, ?_, room, unwrapped, bridge, fun waited => ?_⟩
    · rw [ledger]
      simp only [unwritten, inHand, append_nil]
    · rw [undone, holding] at counter
      exact counter
    · cases (wire waited).2.2
  | countDown wrote =>
    have nothing : state.unwritten = [] := by rw [unwritten, wrote]
    have positive : 0 < state.wirePending := by
      refine Nat.pos_of_ne_zero fun zero => inOrder ?_
      have bounded := uncounted_le state
      have one : state.undone = 1 := by rw [undone, wrote]
      rw [one, zero] at counter
      exact ⟨by omega, eq_nil_of_length_eq_zero (by omega)⟩
    have unzero : (state.wirePending == 0) = false := beq_false_of_ne (Nat.ne_of_gt positive)
    rw [nothing] at ledger wire
    refine ⟨kept, framed, ledger, ?_, room, ?_, bridge, wire⟩
    · rw [undone, wrote] at counter
      have allocated := link.allocated
      simp only [uncounted, undone] at counter ⊢
      have dropped : (state.wirePending + (2 ^ 64 - 1)) % 2 ^ 64 = state.wirePending - 1 := by omega
      rw [dropped]
      omega
    · rw [unwrapped, unzero]
      rfl
  | shutdown | timeOut => exact ⟨kept, framed, ledger, counter, room, unwrapped, nofun, nofun⟩
  | bridgeEmpty draining empty => exact ⟨kept, framed, ledger, counter, room, unwrapped, fun _ => empty, nofun⟩
  | discard hop rest draining found => cases found.symm.trans inOrder
  | wireZero draining zero =>
    refine ⟨kept, framed, ledger, counter, room, unwrapped, fun _ => bridge (by rw [bridgeWaited, draining]), fun _ => ?_⟩
    obtain ⟨hands, written⟩ := inOrder zero
    by_cases pending : state.uncounted = 1
    · exact ⟨hands, written pending⟩
    · have bounded := uncounted_le state
      have empty : state.channel.length = 0 := by omega
      have done : state.undone = 0 := by omega
      exact ⟨hands, eq_nil_of_length_eq_zero empty, unwritten_of_done done⟩
  | stop drained =>
    have waited : state.wireWaited = true := by rw [wireWaited, drained]
    exact ⟨kept, framed, ledger, counter, room, unwrapped, fun _ => bridge (bridge_waited_of_wire waited), fun _ => wire waited⟩
  | retry | wirePending => exact ⟨kept, framed, ledger, counter, room, unwrapped, bridge, wire⟩

theorem reached_conserved {allowed : Outbound Peer → OutboundEvent → Prop}
    (reached : Reach (next link) allowed start state) : state.Conserved := by
  have initial : (start : Outbound Peer).Conserved := rfl
  exact reach_invariant initial (fun _ _ _ conserved _ stepped => step_conserved (next_step stepped) conserved) reached

theorem start_sound (link : TcpOutbound Peer) : start.Sound link :=
  ⟨rfl, nofun, rfl, rfl, Nat.zero_le _, rfl, nofun, nofun⟩

theorem reached_sound
    (reached : Reach (next link) (fun state event => Succeeds link event ∧ state.InOrder event) start state) :
    state.Sound link := by
  refine reach_invariant (start_sound link) ?_ reached
  intro before event after sound meets stepped
  exact step_sound (next_step stepped) meets.1 meets.2 sound

theorem delivered_of_sound (sound : state.Sound link) (stopped : state.host = .stopped) : state.Delivered link := by
  obtain ⟨hands, channel, unwritten⟩ := sound.wire (by rw [wireWaited, stopped])
  have queue := sound.bridge (by rw [bridgeWaited, stopped])
  have ledger := sound.ledger
  rw [hands, channel, unwritten, queue] at ledger
  simpa [Delivered] using ledger.symm

theorem undelivered (conserved : state.Conserved)
    (elsewhere : ¬ (state.unwritten = [] ∧ state.channel = [] ∧ state.inHand = [] ∧ state.lost = [])) :
    ¬ state.Delivered link := by
  intro delivered
  have same := congrArg List.length delivered
  rw [length_map, length_map, conserved] at same
  refine elsewhere ⟨?_, ?_, ?_, ?_⟩ <;> exact eq_nil_of_length_eq_zero (by omega)

def Lossy (state : Outbound Peer) : Prop := state.lost ≠ []

theorem step_lossy (step : Step link state event after) (lossy : state.Lossy) : after.Lossy := by
  cases step with
  | refuse | discard => exact append_ne_nil_of_left_ne_nil lossy _
  | _ => exact lossy

theorem discarded_undelivered (taken : state.queue ≠ []) (polled : state.next link .pollBridge = some after) : after.Lossy := by
  cases next_step polled with
  | bridgeEmpty draining empty => exact absurd empty taken
  | discard hop rest draining found => exact append_ne_nil_of_right_ne_nil _ (cons_ne_nil hop [])

theorem early_zero_undelivered (conserved : state.Conserved) (early : ¬ state.InOrder .pollWire) {waited : Outbound Peer}
    (polled : state.next link .pollWire = some waited) (stopped : waited.next link .stop = some after) :
    ¬ after.Delivered link := by
  have waits := step_conserved (next_step polled) conserved
  have elsewhere : ¬ (state.unwritten = [] ∧ state.channel = [] ∧ state.inHand = [] ∧ state.lost = []) :=
    fun empty => early fun _ => ⟨empty.2.2.1, fun _ => ⟨empty.2.1, empty.1⟩⟩
  cases next_step stopped with
  | stop drained =>
    refine undelivered (step_conserved (next_step stopped) waits) ?_
    cases next_step polled with
    | wirePending | wireZero => exact elsewhere

theorem overtaken_wraps (sound : state.Sound link) (overtaken : ¬ state.InOrder .countDown)
    (stepped : state.next link .countDown = some after) : after.wrapped = true := by
  obtain ⟨pending, empty⟩ := not_not.mp overtaken
  cases next_step stepped with
  | countDown wrote =>
    have one : state.undone = 1 := by rw [undone, wrote]
    have counter := sound.counter
    rw [pending, empty, one] at counter
    have zero : state.wirePending = 0 := Nat.succ.inj counter
    rw [sound.unwrapped, zero]
    rfl

end Drain

theorem graceful_shutdown (link : TcpOutbound Peer) :
    (∀ state, Reach (next link) (fun state event => Succeeds link event ∧ state.InOrder event) start state →
      state.wrapped = false ∧ (state.host = .stopped → state.Delivered link)) ∧
    (∀ state after final, Reach (next link) (fun _ _ => True) start state → ¬ state.InOrder .pollBridge →
      state.next link .pollBridge = some after → Reach (next link) (fun _ _ => True) after final →
        ¬ final.Delivered link) ∧
    (∀ state waited after, Reach (next link) (fun _ _ => True) start state → ¬ state.InOrder .pollWire →
      state.next link .pollWire = some waited → waited.next link .stop = some after → ¬ after.Delivered link) ∧
    (∀ state after, Reach (next link) (fun state event => Succeeds link event ∧ state.InOrder event) start state →
      ¬ state.InOrder .countDown → state.next link .countDown = some after → after.wrapped = true) := by
  refine ⟨fun state reached => ?_, fun state after final reached taken polled later => ?_,
    fun state waited after reached early polled stopped => ?_, fun state after reached overtaken stepped => ?_⟩
  · have sound := reached_sound reached
    exact ⟨sound.unwrapped, delivered_of_sound sound⟩
  · have lossy : final.Lossy := by
      refine reach_invariant (discarded_undelivered taken polled) ?_ later
      exact fun before event next kept _ stepped => step_lossy (next_step stepped) kept
    have all := reach_trans (.step state .pollBridge after reached trivial polled) later
    exact undelivered (reached_conserved all) fun empty => lossy empty.2.2.2
  · exact early_zero_undelivered (reached_conserved reached) early polled stopped
  · exact overtaken_wraps (reached_sound reached) overtaken stepped

def oneHop : OutboundHop := ⟨7, 2, "log", ⟨7, .NONE, 1, 0, .int 3⟩⟩

def onePeer : TcpOutbound Unit := ⟨fun _ => some (), 1, by decide, by decide⟩

def carried : Outbound Unit :=
  ⟨[], .polling, [], .waiting, [((), writeFrame oneHop)], 0, .working, [oneHop], [], false⟩

theorem polite_run_delivers :
    ∃ state, Reach (next onePeer) (fun state event => Succeeds onePeer event ∧ state.InOrder event) start state ∧
      state.host = .stopped ∧ state.wrapped = false ∧ state.accepted = [oneHop] ∧ state.Delivered onePeer := by
  have sent : frame onePeer oneHop ≠ none := Option.some_ne_none _
  have carries : Reach (next onePeer) (fun state event => Succeeds onePeer event ∧ state.InOrder event) start carried := by
    refine reach_of_play [.accept oneHop, .recv, .send, .count, .take, .write true, .countDown] start ?_ rfl
    exact ⟨⟨sent, trivial⟩, ⟨trivial, trivial⟩, ⟨trivial, trivial⟩, ⟨trivial, trivial⟩, ⟨trivial, trivial⟩, ⟨rfl, trivial⟩,
      ⟨trivial, nofun⟩, trivial⟩
  have stops : Reach (next onePeer) (fun state event => Succeeds onePeer event ∧ state.InOrder event) carried
      { carried with host := .stopped } := by
    refine reach_of_play [.shutdown, .pollBridge, .pollWire, .stop] carried ?_ rfl
    exact ⟨⟨trivial, trivial⟩, ⟨trivial, rfl⟩, ⟨trivial, fun _ => ⟨rfl, nofun⟩⟩, ⟨trivial, trivial⟩, trivial⟩
  have reached := reach_trans carries stops
  have safe := (graceful_shutdown onePeer).1 _ reached
  exact ⟨_, reached, rfl, safe.1, rfl, safe.2 rfl⟩

-- The bridge poll takes the hop; the pump holds it while the counter is zero;
-- the writer counts down first.
theorem shutdown_races :
    (∃ state, play (next onePeer) start [.accept oneHop, .shutdown, .pollBridge, .pollBridge, .pollWire, .stop] = some state ∧
      state.host = .stopped ∧ state.accepted = [oneHop] ∧ state.written = []) ∧
    (∃ state, play (next onePeer) start [.accept oneHop, .recv, .shutdown, .pollBridge, .pollWire, .stop] = some state ∧
      state.host = .stopped ∧ state.accepted = [oneHop] ∧ state.written = []) ∧
    (∃ state, play (next onePeer) start [.accept oneHop, .recv, .send, .take, .write true, .countDown] = some state ∧
      state.wrapped = true ∧ state.wirePending = 2 ^ 64 - 1) :=
  ⟨⟨_, rfl, rfl, rfl, rfl⟩, ⟨_, rfl, rfl, rfl, rfl⟩, ⟨_, rfl, rfl, by decide⟩⟩

end Outbound

end Byteflow
