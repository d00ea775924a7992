import Byteflow.CapDerive
import Byteflow.Machine

namespace Byteflow

open Exec

namespace Message

def authenticate (hop : Message) (sender : UInt64) (replyCap : CapId) : Message :=
  { hop with sender := sender, replyCap := replyCap }

def withPayload (hop : Message) (payload : Value) : Message := { hop with payload := payload }

end Message

section MapCaps

variable {σ ε : Type}

def orTooNested {α : Type} (tooNested : ε) : Option α → Exec σ ε α
  | some a => pure a
  | none => throw tooNested

-- map_caps. onMessage is the closure on &mut Message: it returns the message it leaves.
mutual
def Value.mapCaps (tooNested : ε) (onCap : CapId → Exec σ ε CapId) (onMessage : Message → Exec σ ε Message)
    (depth : Nat) (value : Value) : Exec σ ε Value :=
  if depth > MAX_VALUE_DEPTH then throw tooNested
  else match value with
    | .cap id => if id.isNone then pure (.cap id) else do pure (.cap (← onCap id))
    | .message hop => do
      let payload ← payloadMapCaps tooNested onCap onMessage (depth + 1) hop
      let next ← onMessage (Message.withPayload hop payload)
      pure (.message next)
    | .list items => do
      let next ← itemsMapCaps tooNested onCap onMessage (depth + 1) items
      orTooNested tooNested (Value.tryList next)
    | .map entries => do
      let next ← entriesMapCaps tooNested onCap onMessage (depth + 1) entries
      orTooNested tooNested (Value.tryMap next)
    | .record fields => do
      let next ← itemsMapCaps tooNested onCap onMessage (depth + 1) fields
      orTooNested tooNested (Value.tryRecord next)
    | other => pure other

def payloadMapCaps (tooNested : ε) (onCap : CapId → Exec σ ε CapId) (onMessage : Message → Exec σ ε Message)
    (depth : Nat) : Envelope Value → Exec σ ε Value
  | ⟨_, _, _, _, payload⟩ => Value.mapCaps tooNested onCap onMessage depth payload

def itemsMapCaps (tooNested : ε) (onCap : CapId → Exec σ ε CapId) (onMessage : Message → Exec σ ε Message)
    (depth : Nat) : List Value → Exec σ ε (List Value)
  | [] => pure []
  | item :: rest => do
    let next ← Value.mapCaps tooNested onCap onMessage depth item
    let others ← itemsMapCaps tooNested onCap onMessage depth rest
    pure (next :: others)

def entriesMapCaps (tooNested : ε) (onCap : CapId → Exec σ ε CapId) (onMessage : Message → Exec σ ε Message)
    (depth : Nat) : List (MapKey × Value) → Exec σ ε (List (MapKey × Value))
  | [] => pure []
  | entry :: rest => do
    let next ← entryMapCaps tooNested onCap onMessage depth entry
    let others ← entriesMapCaps tooNested onCap onMessage depth rest
    pure (next :: others)

def entryMapCaps (tooNested : ε) (onCap : CapId → Exec σ ε CapId) (onMessage : Message → Exec σ ε Message)
    (depth : Nat) : MapKey × Value → Exec σ ε (MapKey × Value)
  | (key, value) => do pure (key, ← Value.mapCaps tooNested onCap onMessage depth value)
end

end MapCaps

-- What one outgoing hop reads and changes: the table, the request id counter
-- of its sender, and the draws that the table's calls see one after another.
structure Sending where
  caps : CapTable
  nextRequestId : UInt64
  random : Nat → CapDraws
  calls : Nat

abbrev HopM := Exec Sending CapError

def nextFreshRequestId (counter : UInt64) : UInt64 × UInt64 :=
  let id := if counter = 0 then 1 else counter
  let max : UInt64 := 0x7FFFFFFFFFFFFFFF
  if id ≥ max then (max, max) else (id, id + 1)

theorem fresh_request_id_ne_zero (counter : UInt64) : (nextFreshRequestId counter).1 ≠ 0 := by
  rw [nextFreshRequestId]
  by_cases last : (if counter = 0 then 1 else counter) ≥ (0x7FFFFFFFFFFFFFFF : UInt64)
  · rw [if_pos last]
    decide
  · rw [if_neg last]
    by_cases unset : counter = 0
    · rw [if_pos unset]
      decide
    · rw [if_neg unset]
      exact unset

namespace HopAuth

def onTable (call : CapTable → CapDraws → CapTable × Except CapError CapId) : HopM CapId := do
  let sending ← get
  let (caps, result) := call sending.caps (sending.random sending.calls)
  set { sending with caps := caps, calls := sending.calls + 1 }
  reading fun _ => result

def delegate (id : CapId) (fromHolder toHolder : FlowId) : HopM CapId :=
  onTable fun table draws => table.delegate id fromHolder toHolder draws

def mintOrReuse (holder target : FlowId) (rights : CapRights) : HopM CapId :=
  onTable fun table draws =>
    let (after, minted) := table.mintOrReuse holder target rights draws
    (after, CapError.ofMint minted)

def vmFreshRequestId : HopM UInt64 := do
  let sending ← get
  let (id, next) := nextFreshRequestId sending.nextRequestId
  set { sending with nextRequestId := next }
  pure id

def requestIdOr (requestId : UInt64) : HopM UInt64 := if requestId = 0 then vmFreshRequestId else pure requestId

def replyCapOr (sender recipient : FlowId) (replyCap : CapId) : HopM CapId :=
  if replyCap.isNone then mintOrReuse recipient sender .SEND else delegate replyCap sender recipient

def stampEnvelope (sender recipient : FlowId) (hop : Message) : HopM Message := do
  let stamped := if hop.sender = 0 then sender else hop.sender
  let requestId ← requestIdOr hop.requestId
  let replyCap ← replyCapOr sender recipient hop.replyCap
  pure { hop with sender := stamped, requestId := requestId, replyCap := replyCap }

def reissueCapsInValue (sender recipient : FlowId) (value : Value) : HopM Value :=
  if value.withinNestingLimit = false then throw .tooNested
  else value.mapCaps .tooNested (fun id => delegate id sender recipient) (stampEnvelope sender recipient) 0

def authenticateOutgoingMessage (sender recipient : FlowId) (message : Message) : HopM Message := do
  let requestId ← requestIdOr message.requestId
  let payload ← reissueCapsInValue sender recipient message.payload
  let reply ← mintOrReuse recipient sender .SEND
  pure ((Message.withPayload { message with requestId := requestId } payload).authenticate sender reply)

end HopAuth

end Byteflow
