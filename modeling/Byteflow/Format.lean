import Byteflow.Verify
import Byteflow.Codec

namespace Byteflow

open Codec

def MAGIC : List UInt8 := [0x42, 0x46, 0x56, 0x30]
def ABI_VERSION : UInt32 := 5
def ABI_VERSION_LISTS : UInt32 := 6
def ABI_VERSION_MAPS : UInt32 := 7
def ABI_VERSION_RECORDS : UInt32 := 8

def MAX_NAME : Nat := 64 * 1024
def MAX_ITEMS : Nat := 1000000
def MAX_BLOB : Nat := 1048576

def Opcode.asU8 : Opcode → UInt8
  | .halt => 0x00 | .loadConst => 0x01 | .move => 0x02 | .loadImm => 0x03
  | .add => 0x10 | .sub => 0x11 | .mul => 0x12 | .div => 0x13
  | .mod => 0x14 | .neg => 0x15 | .eq => 0x18 | .lt => 0x19
  | .le => 0x1A | .jump => 0x20 | .branch => 0x21 | .call => 0x30
  | .ret => 0x31 | .callNative => 0x32 | .spawn => 0x40 | .yield => 0x41
  | .sleep => 0x42 | .exit => 0x43 | .selfPid => 0x44 | .send => 0x50
  | .receive => 0x51 | .receiveTimeout => 0x52 | .receiveMatch => 0x53 | .receiveMatchImm => 0x54
  | .ask => 0x55 | .monitor => 0x56 | .demonitor => 0x57 | .link => 0x58
  | .unlink => 0x59 | .askTimeout => 0x5A | .delegate => 0x5B | .freshRequestId => 0x5C
  | .receiveMatchCorr => 0x5D | .receiveMatchCorrImm => 0x5E | .setTrapExit => 0x5F | .trap => 0x60
  | .nop => 0x61 | .registerName => 0x62 | .whereis => 0x63 | .receiveMatchKind => 0x64
  | .setRestartPolicy => 0x65 | .hostAwait => 0x66 | .receiveMatchTimeout => 0x67 | .receiveMatchImmTimeout => 0x68
  | .isAlive => 0x69 | .exitSignal => 0x6A | .dictPut => 0x6B | .dictGet => 0x6C
  | .dictErase => 0x6D | .receiveMatchEq => 0x6E | .startChild => 0x6F | .receiveMatchValue => 0x70
  | .sendRemote => 0x71 | .startSupervisor => 0x72 | .addImm => 0x73 | .callNativeFrom => 0x74
  | .subImm => 0x75 | .ltImm => 0x76 | .listPack => 0x77 | .listGet => 0x78
  | .listLen => 0x79 | .mulImm => 0x7A | .eqImm => 0x7B | .leImm => 0x7C
  | .bitAnd => 0x7D | .bitOr => 0x7E | .bitXor => 0x7F | .bitNot => 0x80
  | .shl => 0x81 | .shr => 0x82 | .receiveMatchCmp => 0x83 | .mapPack => 0x84
  | .mapGet => 0x85 | .mapLen => 0x86 | .tableOpen => 0x87 | .tableGet => 0x88
  | .tablePut => 0x89 | .recordPack => 0x8A | .recordGet => 0x8B | .recordLen => 0x8C
  | .ne => 0x8D | .gt => 0x8E | .ge => 0x8F | .neImm => 0x90
  | .gtImm => 0x91 | .geImm => 0x92 | .ushr => 0x93 | .branchTrue => 0x94
  | .strLen => 0x95 | .bytesLen => 0x96 | .tailCall => 0x97

def Opcode.fromU8 (byte : UInt8) : Option Opcode :=
  match byte with
  | 0x00 => some .halt | 0x01 => some .loadConst | 0x02 => some .move | 0x03 => some .loadImm
  | 0x10 => some .add | 0x11 => some .sub | 0x12 => some .mul | 0x13 => some .div
  | 0x14 => some .mod | 0x15 => some .neg | 0x18 => some .eq | 0x19 => some .lt
  | 0x1A => some .le | 0x20 => some .jump | 0x21 => some .branch | 0x30 => some .call
  | 0x31 => some .ret | 0x32 => some .callNative | 0x40 => some .spawn | 0x41 => some .yield
  | 0x42 => some .sleep | 0x43 => some .exit | 0x44 => some .selfPid | 0x50 => some .send
  | 0x51 => some .receive | 0x52 => some .receiveTimeout | 0x53 => some .receiveMatch | 0x54 => some .receiveMatchImm
  | 0x55 => some .ask | 0x56 => some .monitor | 0x57 => some .demonitor | 0x58 => some .link
  | 0x59 => some .unlink | 0x5A => some .askTimeout | 0x5B => some .delegate | 0x5C => some .freshRequestId
  | 0x5D => some .receiveMatchCorr | 0x5E => some .receiveMatchCorrImm | 0x5F => some .setTrapExit | 0x60 => some .trap
  | 0x61 => some .nop | 0x62 => some .registerName | 0x63 => some .whereis | 0x64 => some .receiveMatchKind
  | 0x65 => some .setRestartPolicy | 0x66 => some .hostAwait | 0x67 => some .receiveMatchTimeout | 0x68 => some .receiveMatchImmTimeout
  | 0x69 => some .isAlive | 0x6A => some .exitSignal | 0x6B => some .dictPut | 0x6C => some .dictGet
  | 0x6D => some .dictErase | 0x6E => some .receiveMatchEq | 0x6F => some .startChild | 0x70 => some .receiveMatchValue
  | 0x71 => some .sendRemote | 0x72 => some .startSupervisor | 0x73 => some .addImm | 0x74 => some .callNativeFrom
  | 0x75 => some .subImm | 0x76 => some .ltImm | 0x77 => some .listPack | 0x78 => some .listGet
  | 0x79 => some .listLen | 0x7A => some .mulImm | 0x7B => some .eqImm | 0x7C => some .leImm
  | 0x7D => some .bitAnd | 0x7E => some .bitOr | 0x7F => some .bitXor | 0x80 => some .bitNot
  | 0x81 => some .shl | 0x82 => some .shr | 0x83 => some .receiveMatchCmp | 0x84 => some .mapPack
  | 0x85 => some .mapGet | 0x86 => some .mapLen | 0x87 => some .tableOpen | 0x88 => some .tableGet
  | 0x89 => some .tablePut | 0x8A => some .recordPack | 0x8B => some .recordGet | 0x8C => some .recordLen
  | 0x8D => some .ne | 0x8E => some .gt | 0x8F => some .ge | 0x90 => some .neImm
  | 0x91 => some .gtImm | 0x92 => some .geImm | 0x93 => some .ushr | 0x94 => some .branchTrue
  | 0x95 => some .strLen | 0x96 => some .bytesLen | 0x97 => some .tailCall
  | _ => none

def TrustLevel.forbidsAuthorityConstants (trust : TrustLevel) : Bool := !trust.allowsAuthorityConstants

inductive FormatError where
  | badMagic (found : List UInt8)
  | unsupportedAbi (abi : UInt32)
  | truncated
  | limitExceeded (what : String) (got : UInt32)
  | badUtf8
  | unknownValueTag (tag : UInt8)
  | unknownMapKey (tag : UInt8)
  | nonCanonicalBool (byte : UInt8)
  | unknownOpcode (at_ : Nat) (byte : UInt8)
  | forbiddenConstant (kind : ConstantKind)
  | valueTooNested
  | duplicateMapKey
  | trailing (leftover : Nat)
deriving DecidableEq, Repr

-- The walks of constants_contain_record, constants_contain_map and
-- constants_contain_list look for one container tag at any depth. A scalar has
-- none of these tags.
mutual
def Value.containsTag (wanted : UInt8) : Value → Bool
  | .list items => wanted == 9 || itemsContainTag wanted items
  | .map entries => wanted == 10 || entriesContainTag wanted entries
  | .record fields => wanted == 11 || itemsContainTag wanted fields
  | .message hop => payloadContainsTag wanted hop
  | _ => false

def payloadContainsTag (wanted : UInt8) : Envelope Value → Bool
  | ⟨_, _, _, _, payload⟩ => Value.containsTag wanted payload

def itemsContainTag (wanted : UInt8) : List Value → Bool
  | [] => false
  | item :: rest => Value.containsTag wanted item || itemsContainTag wanted rest

def entriesContainTag (wanted : UInt8) : List (MapKey × Value) → Bool
  | [] => false
  | entry :: rest => entryContainsTag wanted entry || entriesContainTag wanted rest

def entryContainsTag (wanted : UInt8) : MapKey × Value → Bool
  | (_, value) => Value.containsTag wanted value
end

def constantsContainRecord (constants : List Value) : Bool := constants.any (Value.containsTag 11)
def constantsContainMap (constants : List Value) : Bool := constants.any (Value.containsTag 10)
def constantsContainList (constants : List Value) : Bool := constants.any (Value.containsTag 9)

def moduleAbi (constants : List Value) : UInt32 :=
  if constantsContainRecord constants then ABI_VERSION_RECORDS
  else if constantsContainMap constants then ABI_VERSION_MAPS
  else if constantsContainList constants then ABI_VERSION_LISTS
  else ABI_VERSION

def writeU16 (n : UInt16) : List UInt8 := leBytes 2 n.toNat
def writeU32 (n : UInt32) : List UInt8 := leBytes 4 n.toNat
def writeI32 (n : Int32) : List UInt8 := leBytes 4 n.toUInt32.toNat
def writeU64 (n : UInt64) : List UInt8 := leBytes 8 n.toNat
def writeI64 (n : Int64) : List UInt8 := leBytes 8 n.toUInt64.toNat
def writeF64 (x : F64) : List UInt8 := writeU64 x.bits
def writeCapId (id : CapId) : List UInt8 := leBytes 16 id.raw.toNat

def utf8Bytes (text : String) : List UInt8 := text.toUTF8.data.toList

def fromUtf8 (bytes : List UInt8) : Option String := String.fromUTF8? ⟨bytes.toArray⟩

def writeBlob (bytes : List UInt8) : List UInt8 := writeU32 (UInt32.ofNat bytes.length) ++ bytes

def writeString (text : String) : List UInt8 := writeBlob (utf8Bytes text)

def writeMapKey : MapKey → List UInt8
  | .int n => 0 :: writeI64 n
  | .str text => 1 :: writeString text

mutual
def writeValue : Value → List UInt8
  | .unit => [0]
  | .bool b => [1, if b then 1 else 0]
  | .int n => 2 :: writeI64 n
  | .float x => 3 :: writeF64 x
  | .pid id => 4 :: writeU64 id
  | .message hop => 5 :: writeMessage hop
  | .cap id => 6 :: writeCapId id
  | .str text => 7 :: writeString text
  | .bytes data => 8 :: writeBlob data
  | .list items => 9 :: (writeU32 (UInt32.ofNat items.length) ++ writeItems items)
  | .map entries => 10 :: (writeU32 (UInt32.ofNat entries.length) ++ writeEntries entries)
  | .record fields => 11 :: (writeU32 (UInt32.ofNat fields.length) ++ writeItems fields)

def writeMessage : Envelope Value → List UInt8
  | ⟨sender, replyCap, requestId, tag, payload⟩ =>
    writeU64 sender ++ (writeCapId replyCap ++ (writeU64 requestId ++ (writeU16 tag ++ writeValue payload)))

def writeItems : List Value → List UInt8
  | [] => []
  | item :: rest => writeValue item ++ writeItems rest

def writeEntries : List (MapKey × Value) → List UInt8
  | [] => []
  | entry :: rest => writeEntry entry ++ writeEntries rest

def writeEntry : MapKey × Value → List UInt8
  | (key, value) => writeMapKey key ++ writeValue value
end

def writeFunction (fn : FunctionDef) : List UInt8 :=
  writeString fn.name ++ (writeU32 fn.entry ++ [fn.arity, fn.numRegisters])

def writeInstruction (instr : Instruction) : List UInt8 :=
  [instr.op.asU8, instr.a, instr.b, instr.c] ++ writeI32 instr.imm

def encodeBody (chunk : Chunk) : List UInt8 :=
  writeString chunk.name ++
    (writeU32 (UInt32.ofNat chunk.constants.length) ++ (chunk.constants.flatMap writeValue ++
      (writeU32 (UInt32.ofNat chunk.functions.length) ++ (chunk.functions.flatMap writeFunction ++
        (writeU32 (UInt32.ofNat chunk.code.length) ++ chunk.code.flatMap writeInstruction)))))

def encode (chunk : Chunk) : List UInt8 := MAGIC ++ (writeU32 (moduleAbi chunk.constants) ++ encodeBody chunk)

abbrev Reader := Codec FormatError

def readLe {α : Type} (width : Nat) (ofNat : Nat → α) : Reader α := do return ofNat (ofLe (← take .truncated width))

def readU8 : Reader UInt8 := readLe 1 UInt8.ofNat
def readU16 : Reader UInt16 := readLe 2 UInt16.ofNat
def readU32 : Reader UInt32 := readLe 4 UInt32.ofNat
def readI32 : Reader Int32 := readLe 4 fun n => (UInt32.ofNat n).toInt32
def readU64 : Reader UInt64 := readLe 8 UInt64.ofNat
def readI64 : Reader Int64 := readLe 8 fun n => (UInt64.ofNat n).toInt64
def readF64 : Reader F64 := readLe 8 fun n => ⟨UInt64.ofNat n⟩
def readU128 : Reader CapId := readLe 16 fun n => ⟨BitVec.ofNat 128 n⟩

-- A u32 length checked against its limit, as read_count, read_string, read_blob
-- and the three containers do.
def readLength (what : String) (limit : Nat) : Reader UInt32 := do
  let n ← readU32
  if n.toNat > limit then throw (.limitExceeded what n) else return n

def readItems {α : Type} (what : String) (limit : Nat) (item : Nat → Reader α) : Reader (List α) := do
  let n ← readLength what limit
  readEach item 0 n.toNat

def readTable {α : Type} (what : String) (item : Nat → Reader α) : Reader (List α) := readItems what MAX_ITEMS item

def readText (what : String) (limit : Nat) : Reader String := do
  let n ← readLength what limit
  orThrow .badUtf8 (fromUtf8 (← take .truncated n.toNat))

def readString : Reader String := readText "name" MAX_NAME

def readBlob (what : String) : Reader (List UInt8) := do
  let n ← readLength what MAX_BLOB
  take .truncated n.toNat

def readBool : Reader Value := do
  let byte ← readU8
  if byte = 0 then return .bool false
  else if byte = 1 then return .bool true
  else throw (.nonCanonicalBool byte)

def readMapKey : Reader MapKey := do
  let tag ← readU8
  if tag = 0 then return .int (← readI64)
  else if tag = 1 then return .str (← readText "map key" MAX_BLOB)
  else throw (.unknownMapKey tag)

section Nested

-- child reads a value one level further down.
variable (trust : TrustLevel) (abi : UInt32) (child : Reader Value)

def readAuthority (kind : ConstantKind) (body : Reader Value) : Reader Value :=
  if trust.forbidsAuthorityConstants then throw (.forbiddenConstant kind) else body

def readMessage : Reader Value := do
  let sender ← readU64
  let replyCap ← readU128
  let requestId ← readU64
  let tag ← readU16
  let payload ← child
  return .message { Message.new sender requestId tag payload with sender := sender, replyCap := replyCap }

def readSequence (since : UInt32) (tag : UInt8) (what : String) (maxLen : Nat) (build : List Value → Option Value) :
    Reader Value :=
  if abi < since then throw (.unknownValueTag tag)
  else do orThrow .valueTooNested (build (← readItems what maxLen fun _ => child))

def readList : Reader Value := readSequence abi child ABI_VERSION_LISTS 9 "list" MAX_LIST_LEN Value.tryList

def readRecord : Reader Value := readSequence abi child ABI_VERSION_RECORDS 11 "record" MAX_RECORD_LEN Value.tryRecord

def readEntry : Reader (MapKey × Value) := do
  let key ← readMapKey
  let value ← child
  return (key, value)

def readMap : Reader Value :=
  if abi < ABI_VERSION_MAPS then throw (.unknownValueTag 10)
  else do
    let entries ← readItems "map" MAX_MAP_LEN fun _ => readEntry child
    if Value.mapHasDuplicateKey entries then throw .duplicateMapKey
    else orThrow .valueTooNested (Value.tryMap entries)

def readTagged (tag : UInt8) : Reader Value :=
  match tag with
  | 0 => return .unit
  | 1 => readBool
  | 2 => do return .int (← readI64)
  | 3 => do return .float (← readF64)
  | 4 => readAuthority trust .processId (do return .pid (← readU64))
  | 5 => readAuthority trust .message (readMessage child)
  | 6 => readAuthority trust .capability (do return .cap (← readU128))
  | 7 => do return .str (← readText "str" MAX_BLOB)
  | 8 => do return .bytes (← readBlob "bytes")
  | 9 => readList abi child
  | 10 => readMap abi child
  | 11 => readRecord abi child
  | tag => throw (.unknownValueTag tag)

end Nested

-- levels is MAX_VALUE_DEPTH + 1 - depth, which the source's depth check keeps
-- from reaching 0.
def readValueWithin (trust : TrustLevel) (abi : UInt32) : Nat → Reader Value
  | 0 => throw .valueTooNested
  | levels + 1 => do readTagged trust abi (readValueWithin trust abi levels) (← readU8)

def readValue (trust : TrustLevel) (depth : Nat) (abi : UInt32) : Reader Value :=
  readValueWithin trust abi (MAX_VALUE_DEPTH + 1 - depth)

def readFunction : Reader FunctionDef := do
  let name ← readString
  let entry ← readU32
  let arity ← readU8
  let numRegisters ← readU8
  return ⟨name, entry, arity, numRegisters⟩

def readInstruction (at_ : Nat) : Reader Instruction := do
  let byte ← readU8
  let op ← orThrow (.unknownOpcode at_ byte) (Opcode.fromU8 byte)
  let a ← readU8
  let b ← readU8
  let c ← readU8
  let imm ← readI32
  return ⟨op, a, b, c, imm⟩

def decodeBody (trust : TrustLevel) (abi : UInt32) : Reader Chunk := do
  let name ← readString
  let constants ← readTable "constants" fun _ => readValue trust 0 abi
  let functions ← readTable "functions" fun _ => readFunction
  let code ← readTable "code" readInstruction
  return ⟨name, constants, code, functions⟩

def supportedAbi (abi : UInt32) : Bool :=
  abi == ABI_VERSION || abi == ABI_VERSION_LISTS || abi == ABI_VERSION_MAPS || abi == ABI_VERSION_RECORDS

def readModule (trust : TrustLevel) : Reader Chunk := do
  let magic ← take .truncated 4
  if magic ≠ MAGIC then throw (.badMagic magic)
  else
    let abi ← readU32
    if supportedAbi abi = false then throw (.unsupportedAbi abi) else decodeBody trust abi

def decodeWith (bytes : List UInt8) (trust : TrustLevel) : Except FormatError Chunk :=
  match (readModule trust).run bytes with
  | .error e => .error e
  | .ok (chunk, rest) => if rest ≠ [] then .error (.trailing rest.length) else .ok chunk

end Byteflow
