import Byteflow.FormatRoundTrip
import Byteflow.CapTable
import Byteflow.MailboxQueue

namespace Byteflow

open Codec

-- The reservation on the bridge is kept by the bridge.
structure OutboundHop where
  sender : FlowId
  node : UInt64
  name : String
  message : Message

def FRAME_MAGIC : List UInt8 := [0x42, 0x46, 0x48, 0x31]
def FRAME_VERSION : UInt8 := 1
def MAX_FRAME_NAME : Nat := 256

inductive RemoteFrameError where
  | badMagic
  | truncated
  | badVersion
  | badUtf8
  | liveCapability
  | senderZero
  | senderMismatch
  | name
  | unsupported
  | noSuchName
  | mailbox (reason : MailboxFullReason)
  | unavailable
deriving DecidableEq

def frameSenderError (messageSender : UInt64) : RemoteFrameError :=
  if messageSender = 0 then .senderZero else .senderMismatch

def frameFormatError : FormatError → RemoteFrameError
  | .truncated => .truncated
  | .badUtf8 => .badUtf8
  | .unknownValueTag tag => if tag = 4 ∨ tag = 6 then .liveCapability else .unsupported
  | _ => .unsupported

mutual
def screenMessage (depth : Nat) : Envelope Value → Except RemoteFrameError Unit
  | ⟨_, replyCap, _, _, payload⟩ =>
    if depth > MAX_VALUE_DEPTH then .error .unsupported
    else if replyCap.isNone = false then .error .liveCapability
    else screenValue (depth + 1) payload

def screenValue (depth : Nat) (value : Value) : Except RemoteFrameError Unit :=
  if depth > MAX_VALUE_DEPTH then .error .unsupported
  else match value with
    | .pid _ | .cap _ => .error .liveCapability
    | .message message => screenMessage depth message
    | .list items => if items.length > MAX_LIST_LEN then .error .unsupported else screenItems (depth + 1) items
    | .record fields => if fields.length > MAX_RECORD_LEN then .error .unsupported else screenItems (depth + 1) fields
    | .map entries => if entries.length > MAX_MAP_LEN then .error .unsupported else screenEntries (depth + 1) entries
    | .unit | .bool _ | .int _ | .float _ | .str _ | .bytes _ => .ok ()

def screenItems (depth : Nat) : List Value → Except RemoteFrameError Unit
  | [] => .ok ()
  | item :: rest => do
    screenValue depth item
    screenItems depth rest

def screenEntries (depth : Nat) : List (MapKey × Value) → Except RemoteFrameError Unit
  | [] => .ok ()
  | entry :: rest => do
    screenEntry depth entry
    screenEntries depth rest

def screenEntry (depth : Nat) : MapKey × Value → Except RemoteFrameError Unit
  | (_, item) => screenValue depth item
end

def writeFrame (hop : OutboundHop) : List UInt8 :=
  FRAME_MAGIC ++ ([FRAME_VERSION] ++ (writeU64 hop.node ++ (writeU16 (UInt16.ofNat hop.name.utf8ByteSize) ++
    (utf8Bytes hop.name ++ (writeU64 hop.sender ++ writeValue (.message hop.message))))))

def encodeFrame (hop : OutboundHop) : Except RemoteFrameError (List UInt8) :=
  if hop.sender = 0 then .error .senderZero
  else if hop.name.utf8ByteSize = 0 ∨ hop.name.utf8ByteSize > MAX_FRAME_NAME then .error .name
  else if hop.message.sender ≠ hop.sender then .error (frameSenderError hop.message.sender)
  else do
    screenMessage 0 hop.message
    return writeFrame hop

abbrev FrameReader := Codec RemoteFrameError

def takeU64 : FrameReader UInt64 := do return UInt64.ofNat (ofLe (← take .truncated 8))
def takeU16 : FrameReader UInt16 := do return UInt16.ofNat (ofLe (← take .truncated 2))

-- decode_value reads at the newest format and trusts authority constants.
def decodeValue : FrameReader Value := fun input =>
  match (readValue .trusted 0 ABI_VERSION_RECORDS).run input with
  | .error e => .error (frameFormatError e)
  | .ok result => .ok result

def frameHop (node : UInt64) (name : String) (sender : UInt64) (value : Value) (leftover : List UInt8) :
    Except RemoteFrameError OutboundHop :=
  if leftover ≠ [] then .error .unsupported
  else match value with
    | .message message =>
      if message.sender ≠ sender then .error (frameSenderError message.sender)
      else do
        screenMessage 0 message
        return ⟨sender, node, name, message⟩
    | _ => .error .unsupported

def readFrame : FrameReader (Except RemoteFrameError OutboundHop) := do
  let magic ← take .truncated 4
  if magic ≠ FRAME_MAGIC then throw .badMagic
  else
    let version ← take .truncated 1
    if version ≠ [FRAME_VERSION] then throw .badVersion
    else
      let node ← takeU64
      let nameLen ← takeU16
      if nameLen.toNat = 0 ∨ nameLen.toNat > MAX_FRAME_NAME then throw .name
      else
        let nameBytes ← take .truncated nameLen.toNat
        let name ← orThrow .badUtf8 (fromUtf8 nameBytes)
        let sender ← takeU64
        if sender = 0 then throw .senderZero
        else
          let value ← decodeValue
          return frameHop node name sender value (← get)

def decodeFrame (bytes : List UInt8) : Except RemoteFrameError OutboundHop := do
  let (hop, _) ← readFrame.run bytes
  hop

end Byteflow
