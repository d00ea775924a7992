import Byteflow.FormatValue

namespace Byteflow

open Codec

theorem Opcode.from_as_u8 (op : Opcode) : Opcode.fromU8 op.asU8 = some op := by
  cases op <;> rfl

theorem Opcode.from_u8_some (byte : UInt8) (op : Opcode) : Opcode.fromU8 byte = some op ↔ op.asU8 = byte := by
  constructor
  · intro found
    unfold Opcode.fromU8 at found
    split at found <;> first | (cases found; rfl) | cases found
  · rintro rfl
    exact op.from_as_u8

theorem read_function_exact : Exact readFunction writeFunction (fun fn => fn.name.utf8ByteSize ≤ MAX_NAME) := by
  intro input fn rest
  rw [readFunction]
  constructor
  · intro done
    obtain ⟨name, _, readName, done⟩ := (run_bind_ok _ _ _ _).mp done
    obtain ⟨entry, _, readEntry, done⟩ := (run_bind_ok _ _ _ _).mp done
    obtain ⟨arity, _, readArity, done⟩ := (run_bind_ok _ _ _ _).mp done
    obtain ⟨numRegisters, _, readRegisters, done⟩ := (run_bind_ok _ _ _ _).mp done
    cases done
    obtain ⟨rfl, short⟩ := (read_text_exact "name" MAX_NAME (by decide) _ _ _).mp readName
    obtain ⟨rfl, _⟩ := (read_u32_exact _ _ _).mp readEntry
    obtain ⟨rfl, _⟩ := (read_u8_exact _ _ _).mp readArity
    obtain ⟨rfl, _⟩ := (read_u8_exact _ _ _).mp readRegisters
    exact ⟨by simp [writeFunction], short⟩
  · rintro ⟨rfl, short⟩
    have bytes : writeFunction fn ++ rest =
        writeString fn.name ++ (writeU32 fn.entry ++ ([fn.arity] ++ ([fn.numRegisters] ++ rest))) := by simp [writeFunction]
    rw [bytes]
    refine (run_bind_ok _ _ _ _).mpr ⟨fn.name, _, (read_text_exact "name" MAX_NAME (by decide) _ _ _).mpr ⟨rfl, short⟩, ?_⟩
    refine (run_bind_ok _ _ _ _).mpr ⟨fn.entry, _, (read_u32_exact _ _ _).mpr ⟨rfl, trivial⟩, ?_⟩
    refine (run_bind_ok _ _ _ _).mpr ⟨fn.arity, _, (read_u8_exact _ _ _).mpr ⟨rfl, trivial⟩, ?_⟩
    exact (run_bind_ok _ _ _ _).mpr ⟨fn.numRegisters, _, (read_u8_exact _ _ _).mpr ⟨rfl, trivial⟩, rfl⟩

theorem read_instruction_exact (at_ : Nat) : Exact (readInstruction at_) writeInstruction (fun _ => True) := by
  intro input instr rest
  rw [readInstruction]
  constructor
  · intro done
    obtain ⟨byte, _, readByte, done⟩ := (run_bind_ok _ _ _ _).mp done
    obtain ⟨op, _, readOp, done⟩ := (run_bind_ok _ _ _ _).mp done
    obtain ⟨a, _, readA, done⟩ := (run_bind_ok _ _ _ _).mp done
    obtain ⟨b, _, readB, done⟩ := (run_bind_ok _ _ _ _).mp done
    obtain ⟨c, _, readC, done⟩ := (run_bind_ok _ _ _ _).mp done
    obtain ⟨imm, _, readImm, done⟩ := (run_bind_ok _ _ _ _).mp done
    cases done
    obtain ⟨rfl, _⟩ := (read_u8_exact _ _ _).mp readByte
    obtain ⟨rfl, known⟩ := (exact_or_throw _ _ _ _ _).mp readOp
    obtain ⟨rfl, _⟩ := (read_u8_exact _ _ _).mp readA
    obtain ⟨rfl, _⟩ := (read_u8_exact _ _ _).mp readB
    obtain ⟨rfl, _⟩ := (read_u8_exact _ _ _).mp readC
    obtain ⟨rfl, _⟩ := (read_i32_exact _ _ _).mp readImm
    obtain rfl := (Opcode.from_u8_some byte op).mp known
    exact ⟨by simp [writeInstruction], trivial⟩
  · rintro ⟨rfl, _⟩
    have bytes : writeInstruction instr ++ rest =
        [instr.op.asU8] ++ ([instr.a] ++ ([instr.b] ++ ([instr.c] ++ (writeI32 instr.imm ++ rest)))) := by
      simp [writeInstruction]
    rw [bytes]
    refine (run_bind_ok _ _ _ _).mpr ⟨instr.op.asU8, _, (read_u8_exact _ _ _).mpr ⟨rfl, trivial⟩, ?_⟩
    refine (run_bind_ok _ _ _ _).mpr ⟨instr.op, _, (exact_or_throw _ _ _ _ _).mpr ⟨rfl, instr.op.from_as_u8⟩, ?_⟩
    refine (run_bind_ok _ _ _ _).mpr ⟨instr.a, _, (read_u8_exact _ _ _).mpr ⟨rfl, trivial⟩, ?_⟩
    refine (run_bind_ok _ _ _ _).mpr ⟨instr.b, _, (read_u8_exact _ _ _).mpr ⟨rfl, trivial⟩, ?_⟩
    refine (run_bind_ok _ _ _ _).mpr ⟨instr.c, _, (read_u8_exact _ _ _).mpr ⟨rfl, trivial⟩, ?_⟩
    exact (run_bind_ok _ _ _ _).mpr ⟨instr.imm, _, (read_i32_exact _ _ _).mpr ⟨rfl, trivial⟩, rfl⟩

structure ChunkFits (trust : TrustLevel) (abi : UInt32) (chunk : Chunk) : Prop where
  name : chunk.name.utf8ByteSize ≤ MAX_NAME
  constants : chunk.constants.length ≤ MAX_ITEMS ∧
    ∀ value ∈ chunk.constants, FitsWithin trust abi (MAX_VALUE_DEPTH + 1) value
  functions : chunk.functions.length ≤ MAX_ITEMS ∧ ∀ fn ∈ chunk.functions, fn.name.utf8ByteSize ≤ MAX_NAME
  code : chunk.code.length ≤ MAX_ITEMS

theorem decode_body_exact (trust : TrustLevel) (abi : UInt32) :
    Exact (decodeBody trust abi) encodeBody (ChunkFits trust abi) := by
  have nameExact := read_text_exact "name" MAX_NAME (by decide)
  have constantsExact := read_items_exact "constants" MAX_ITEMS (by decide) (fun _ => readValue trust 0 abi)
    fun _ => read_value_exact trust abi (MAX_VALUE_DEPTH + 1) (Nat.le_refl _)
  have functionsExact := read_items_exact "functions" MAX_ITEMS (by decide) (fun _ => readFunction)
    fun _ => read_function_exact
  have codeExact := read_items_exact "code" MAX_ITEMS (by decide) readInstruction read_instruction_exact
  intro input chunk rest
  rw [decodeBody]
  constructor
  · intro done
    obtain ⟨name, _, readName, done⟩ := (run_bind_ok _ _ _ _).mp done
    obtain ⟨constants, _, readConstants, done⟩ := (run_bind_ok _ _ _ _).mp done
    obtain ⟨functions, _, readFunctions, done⟩ := (run_bind_ok _ _ _ _).mp done
    obtain ⟨code, _, readCode, done⟩ := (run_bind_ok _ _ _ _).mp done
    cases done
    obtain ⟨rfl, nameFits⟩ := (nameExact _ _ _).mp readName
    obtain ⟨rfl, constantsFit⟩ := (constantsExact _ _ _).mp readConstants
    obtain ⟨rfl, functionsFit⟩ := (functionsExact _ _ _).mp readFunctions
    obtain ⟨rfl, codeFits⟩ := (codeExact _ _ _).mp readCode
    exact ⟨by simp [encodeBody], nameFits, constantsFit, functionsFit, codeFits.1⟩
  · rintro ⟨rfl, fits⟩
    have bytes : encodeBody chunk ++ rest = writeString chunk.name ++
        ((writeU32 (UInt32.ofNat chunk.constants.length) ++ chunk.constants.flatMap writeValue) ++
          ((writeU32 (UInt32.ofNat chunk.functions.length) ++ chunk.functions.flatMap writeFunction) ++
            ((writeU32 (UInt32.ofNat chunk.code.length) ++ chunk.code.flatMap writeInstruction) ++ rest))) := by
      simp [encodeBody]
    rw [bytes]
    refine (run_bind_ok _ _ _ _).mpr ⟨chunk.name, _, (nameExact _ _ _).mpr ⟨rfl, fits.name⟩, ?_⟩
    refine (run_bind_ok _ _ _ _).mpr ⟨chunk.constants, _, (constantsExact _ _ _).mpr ⟨rfl, fits.constants⟩, ?_⟩
    refine (run_bind_ok _ _ _ _).mpr ⟨chunk.functions, _, (functionsExact _ _ _).mpr ⟨rfl, fits.functions⟩, ?_⟩
    exact (run_bind_ok _ _ _ _).mpr
      ⟨chunk.code, _, (codeExact _ _ _).mpr ⟨rfl, fits.code, fun _ _ => trivial⟩, rfl⟩

end Byteflow
