import Mathlib

namespace Byteflow

-- The two numbers the compiler fixes for a build: the size of the Value enum
-- and the largest usize. No definition below depends on their actual values.
structure Layout where
  sizeOfValue : Nat
  usizeMax : Nat
deriving DecidableEq, Repr

-- A 64-bit build.
def Layout.word : Layout := ⟨64, 2 ^ 64 - 1⟩

def Layout.checkedAdd (layout : Layout) (a b : Nat) : Option Nat :=
  if a + b ≤ layout.usizeMax then some (a + b) else none

def Layout.checkedMul (layout : Layout) (a b : Nat) : Option Nat :=
  if a * b ≤ layout.usizeMax then some (a * b) else none

def Layout.saturatingAdd (layout : Layout) (a b : Nat) : Nat := min (a + b) layout.usizeMax

-- An f64 is its bit pattern, so that two values are the same register content
-- exactly when their bits agree. Arithmetic and comparison are IEEE 754.
structure F64 where
  bits : UInt64
deriving DecidableEq, Repr

namespace F64

def toFloat (x : F64) : Float := Float.ofBits x.bits
def ofFloat (x : Float) : F64 := ⟨x.toBits⟩
def ofInt64 (n : Int64) : F64 := ofFloat n.toFloat
def add (x y : F64) : F64 := ofFloat (x.toFloat + y.toFloat)
def sub (x y : F64) : F64 := ofFloat (x.toFloat - y.toFloat)
def mul (x y : F64) : F64 := ofFloat (x.toFloat * y.toFloat)
def div (x y : F64) : F64 := ofFloat (x.toFloat / y.toFloat)
def neg (x : F64) : F64 := ofFloat (-x.toFloat)
def eq (x y : F64) : Bool := x.toFloat == y.toFloat
def lt (x y : F64) : Bool := decide (x.toFloat < y.toFloat)
def le (x y : F64) : Bool := decide (x.toFloat ≤ y.toFloat)

end F64

structure CapId where
  raw : BitVec 128
deriving DecidableEq, Repr

namespace CapId

def NONE : CapId := ⟨0⟩
def isNone (id : CapId) : Bool := id.raw == 0

end CapId

inductive MapKey where
  | int (n : Int64)
  | str (text : String)
deriving DecidableEq, Repr

-- Message in the source. The payload type is a parameter only so that Value
-- can be defined through it.
structure Envelope (α : Type) where
  sender : UInt64
  replyCap : CapId
  requestId : UInt64
  tag : UInt16
  payload : α
deriving DecidableEq, Repr

inductive Value where
  | unit
  | bool (b : Bool)
  | int (n : Int64)
  | float (x : F64)
  | pid (id : UInt64)
  | message (hop : Envelope Value)
  | cap (id : CapId)
  | str (text : String)
  | bytes (data : List UInt8)
  | list (items : List Value)
  | map (entries : List (MapKey × Value))
  | record (fields : List Value)
deriving Repr, Inhabited

abbrev Message := Envelope Value

def TAG_SYS_DOWN : UInt16 := 0xFF01
def TAG_SYS_EXIT : UInt16 := 0xFF02

def MAX_LIST_LEN : Nat := 256
def MAX_MAP_LEN : Nat := 256
def MAX_RECORD_LEN : Nat := 256
def MAX_VALUE_DEPTH : Nat := 16

namespace Message

def new (sender requestId : UInt64) (tag : UInt16) (payload : Value) : Message :=
  ⟨sender, CapId.NONE, requestId, tag, payload⟩

def linkedExit (targetFlow reason : UInt64) : Message :=
  new targetFlow 0 TAG_SYS_EXIT (.int reason.toInt64)

end Message

namespace Value

def wireTag : Value → UInt8
  | .unit => 0
  | .bool _ => 1
  | .int _ => 2
  | .float _ => 3
  | .pid _ => 4
  | .message _ => 5
  | .cap _ => 6
  | .str _ => 7
  | .bytes _ => 8
  | .list _ => 9
  | .map _ => 10
  | .record _ => 11

def typeName : Value → String
  | .unit => "unit"
  | .bool _ => "bool"
  | .int _ => "int"
  | .float _ => "float"
  | .pid _ => "pid"
  | .message _ => "message"
  | .cap _ => "cap"
  | .str _ => "str"
  | .bytes _ => "bytes"
  | .list _ => "list"
  | .map _ => "map"
  | .record _ => "record"

def isScalar : Value → Bool
  | .unit | .bool _ | .int _ | .float _ | .pid _ | .cap _ => true
  | _ => false

def isTruthy : Value → Bool
  | .unit => false
  | .bool b => b
  | .int n => n != 0
  | .str text => !text.isEmpty
  | .bytes data => !data.isEmpty
  | .list items => !items.isEmpty
  | .map entries => !entries.isEmpty
  | .record fields => !fields.isEmpty
  | _ => true

def asCap : Value → Option CapId
  | .cap id => some id
  | _ => none

def asMessage : Value → Option Message
  | .message hop => some hop
  | _ => none

-- impl From<u64>: ids above i64::MAX saturate instead of turning negative.
def ofUInt64 (id : UInt64) : Value :=
  .int (if id.toNat < 2 ^ 63 then id.toInt64 else Int64.maxValue)

end Value

-- The derived PartialEq: structural, except that floats compare as IEEE.
mutual
def Value.eq : Value → Value → Bool
  | .unit, .unit => true
  | .bool a, .bool b => a == b
  | .int a, .int b => a == b
  | .float a, .float b => a.eq b
  | .pid a, .pid b => a == b
  | .message a, .message b => envelopeEq a b
  | .cap a, .cap b => a == b
  | .str a, .str b => a == b
  | .bytes a, .bytes b => a == b
  | .list a, .list b => itemsEq a b
  | .map a, .map b => entriesEq a b
  | .record a, .record b => itemsEq a b
  | _, _ => false

def envelopeEq : Envelope Value → Envelope Value → Bool
  | ⟨sender, replyCap, requestId, tag, payload⟩, other =>
    sender == other.sender && replyCap == other.replyCap && requestId == other.requestId &&
      tag == other.tag && Value.eq payload other.payload

def itemsEq : List Value → List Value → Bool
  | [], [] => true
  | a :: as, b :: bs => Value.eq a b && itemsEq as bs
  | _, _ => false

def entriesEq : List (MapKey × Value) → List (MapKey × Value) → Bool
  | [], [] => true
  | a :: as, b :: bs => entryEq a b && entriesEq as bs
  | _, _ => false

def entryEq : MapKey × Value → MapKey × Value → Bool
  | (key, value), other => key == other.1 && Value.eq value other.2
end

-- walk of within_nesting_limit.
mutual
def Value.nestsWithin (depth : Nat) : Value → Bool
  | .message hop => depth ≤ MAX_VALUE_DEPTH && payloadNestsWithin (depth + 1) hop
  | .list items => depth ≤ MAX_VALUE_DEPTH && itemsNestWithin (depth + 1) items
  | .record fields => depth ≤ MAX_VALUE_DEPTH && itemsNestWithin (depth + 1) fields
  | .map entries => depth ≤ MAX_VALUE_DEPTH && entriesNestWithin (depth + 1) entries
  | _ => depth ≤ MAX_VALUE_DEPTH

def payloadNestsWithin (depth : Nat) : Envelope Value → Bool
  | ⟨_, _, _, _, payload⟩ => Value.nestsWithin depth payload

def itemsNestWithin (depth : Nat) : List Value → Bool
  | [] => true
  | item :: rest => Value.nestsWithin depth item && itemsNestWithin depth rest

def entriesNestWithin (depth : Nat) : List (MapKey × Value) → Bool
  | [] => true
  | entry :: rest => entryNestsWithin depth entry && entriesNestWithin depth rest

def entryNestsWithin (depth : Nat) : MapKey × Value → Bool
  | (_, value) => Value.nestsWithin depth value
end

-- walk of heap_size_limited. The source keeps the running total in extra and
-- loops along a Message chain; here every level returns its own share.
mutual
def Value.heapSizeWalk (layout : Layout) (depth : Nat) : Value → Option Nat
  | .message hop =>
    if depth ≥ MAX_VALUE_DEPTH then none
    else do layout.checkedAdd layout.sizeOfValue (← payloadHeapSize layout (depth + 1) hop)
  | .list items =>
    if depth ≥ MAX_VALUE_DEPTH then none
    else do itemsHeapSize layout (depth + 1) (← layout.checkedMul items.length layout.sizeOfValue) items
  | .record fields =>
    if depth ≥ MAX_VALUE_DEPTH then none
    else do itemsHeapSize layout (depth + 1) (← layout.checkedMul fields.length layout.sizeOfValue) fields
  | .map entries =>
    if depth ≥ MAX_VALUE_DEPTH then none
    else do entriesHeapSize layout (depth + 1) (← layout.checkedMul entries.length layout.sizeOfValue) entries
  | .str text => layout.checkedAdd 0 text.utf8ByteSize
  | .bytes data => layout.checkedAdd 0 data.length
  | _ => some 0

def payloadHeapSize (layout : Layout) (depth : Nat) : Envelope Value → Option Nat
  | ⟨_, _, _, _, payload⟩ => Value.heapSizeWalk layout depth payload

def itemsHeapSize (layout : Layout) (depth extra : Nat) : List Value → Option Nat
  | [] => some extra
  | item :: rest => do
    let extra ← layout.checkedAdd extra (← Value.heapSizeWalk layout depth item)
    itemsHeapSize layout depth extra rest

def entriesHeapSize (layout : Layout) (depth extra : Nat) : List (MapKey × Value) → Option Nat
  | [] => some extra
  | entry :: rest => do
    let extra ← entryHeapSize layout depth extra entry
    entriesHeapSize layout depth extra rest

def entryHeapSize (layout : Layout) (depth extra : Nat) : MapKey × Value → Option Nat
  | (.str text, value) => do
    let extra ← layout.checkedAdd extra text.utf8ByteSize
    layout.checkedAdd extra (← Value.heapSizeWalk layout depth value)
  | (.int _, value) => do layout.checkedAdd extra (← Value.heapSizeWalk layout depth value)
end

namespace Value

def withinNestingLimit (value : Value) : Bool := value.nestsWithin 0

def heapSizeLimited (layout : Layout) (value : Value) : Option Nat := value.heapSizeWalk layout 0

def memorySize (layout : Layout) (value : Value) : Nat :=
  match value.heapSizeLimited layout with
  | some heap => layout.saturatingAdd layout.sizeOfValue heap
  | none => layout.usizeMax

def tryList (items : List Value) : Option Value :=
  if items.length > MAX_LIST_LEN then none
  else if (Value.list items).withinNestingLimit then some (.list items) else none

def tryRecord (fields : List Value) : Option Value :=
  if fields.length > MAX_RECORD_LEN then none
  else if (Value.record fields).withinNestingLimit then some (.record fields) else none

def mapHasDuplicateKey (entries : List (MapKey × Value)) : Bool := !(entries.map Prod.fst).Nodup

def tryMap (entries : List (MapKey × Value)) : Option Value :=
  if entries.length > MAX_MAP_LEN ∨ mapHasDuplicateKey entries then none
  else if (Value.map entries).withinNestingLimit then some (.map entries) else none

end Value

end Byteflow
