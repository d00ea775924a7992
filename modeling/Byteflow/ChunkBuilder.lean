import Byteflow.Interpreter

namespace Byteflow

open List Exec

abbrev Label := UInt32

-- fn_starts is left out: finish does not read it.
structure ChunkBuilder where
  name : String
  constants : List Value
  code : List Instruction
  functions : List FunctionDef
  nextLabel : Label
  labelTargets : Label → Option UInt32
  pendingJumps : List (Nat × Label)

-- Every emit_ method but the two below pushes one given instruction;
-- emit_move of a register to itself pushes none.
inductive BuilderOp where
  | const (value : Value)
  | newLabel
  | bindLabel (label : Label)
  | emit (instr : Instruction)
  | emitJump (target : Label)
  | emitBranch (cond : UInt8) (target : Label)
  | beginFunction (name : String) (arity numRegisters : UInt8)
  | setNumRegisters (functionIndex : UInt32) (numRegisters : UInt8)

def i32TryFrom (n : Int) : Option Int32 := if -2 ^ 31 ≤ n ∧ n < 2 ^ 31 then some (Int32.ofInt n) else none

namespace ChunkBuilder

def new (name : String) : ChunkBuilder := ⟨name, [], [], [], 0, fun _ => none, []⟩

def emit (builder : ChunkBuilder) (instr : Instruction) : ChunkBuilder := { builder with code := builder.code ++ [instr] }

def emitTo (builder : ChunkBuilder) (instr : Instruction) (target : Label) : ChunkBuilder :=
  { builder.emit instr with pendingJumps := builder.pendingJumps ++ [(builder.code.length, target)] }

def apply (builder : ChunkBuilder) : BuilderOp → ChunkBuilder
  | .const value =>
    if builder.constants.any (·.eq value) then builder else { builder with constants := builder.constants ++ [value] }
  | .newLabel => { builder with nextLabel := builder.nextLabel + 1 }
  | .bindLabel label => { builder with
      labelTargets := Function.update builder.labelTargets label (some (UInt32.ofNat builder.code.length)) }
  | .emit instr => builder.emit instr
  | .emitJump target => builder.emitTo ⟨.jump, 0, 0, 0, 0⟩ target
  | .emitBranch cond target => builder.emitTo ⟨.branch, cond, 0, 0, 0⟩ target
  | .beginFunction name arity numRegisters => { builder with
      functions := builder.functions ++ [⟨name, UInt32.ofNat builder.code.length, arity, numRegisters⟩] }
  | .setNumRegisters functionIndex numRegisters => { builder with
      functions := builder.functions.modify functionIndex.toNat fun row => { row with numRegisters := numRegisters } }

-- The offset counts from the instruction after the jump.
def resolve (targets : Label → Option UInt32) (idx : Nat) (instr : Instruction) (label : Label) : Instruction :=
  match (targets label).bind fun target => i32TryFrom (target.toNat - (idx + 1)) with
  | some imm => { instr with imm := imm }
  | none => { instr with op := .trap, imm := 0 }

def patch (targets : Label → Option UInt32) (code : List Instruction) (jump : Nat × Label) : List Instruction :=
  code.modify jump.1 fun instr => resolve targets jump.1 instr jump.2

def finish (builder : ChunkBuilder) : Chunk :=
  ⟨builder.name, builder.constants, builder.pendingJumps.foldl (patch builder.labelTargets) builder.code, builder.functions⟩

-- Newest first.
def built (name : String) : List BuilderOp → ChunkBuilder
  | [] => new name
  | op :: earlier => (built name earlier).apply op

def emitted : BuilderOp → List (Instruction × Option Label)
  | .emit instr => [(instr, none)]
  | .emitJump target => [(⟨.jump, 0, 0, 0, 0⟩, some target)]
  | .emitBranch cond target => [(⟨.branch, cond, 0, 0, 0⟩, some target)]
  | _ => []

def emissions : List BuilderOp → List (Instruction × Option Label)
  | [] => []
  | op :: earlier => emissions earlier ++ emitted op

-- The index at which the label was last bound: the instructions emitted before.
def lastBound (label : Label) : List BuilderOp → Option Nat
  | [] => none
  | .bindLabel bound :: earlier => if bound = label then some (emissions earlier).length else lastBound label earlier
  | _ :: earlier => lastBound label earlier

def mentioned : BuilderOp → List Value
  | .const value => [value]
  | _ => []

-- The constants asked for, oldest first.
def mentions : List BuilderOp → List Value
  | [] => []
  | op :: earlier => mentions earlier ++ mentioned op

def declared : List BuilderOp → List FunctionDef
  | [] => []
  | .beginFunction name arity numRegisters :: earlier =>
    declared earlier ++ [⟨name, UInt32.ofNat (emissions earlier).length, arity, numRegisters⟩]
  | .setNumRegisters functionIndex numRegisters :: earlier =>
    (declared earlier).modify functionIndex.toNat fun row => { row with numRegisters := numRegisters }
  | _ :: earlier => declared earlier

def patched (targets : Label → Option UInt32) (idx : Nat) (emission : Instruction × Option Label) : Instruction :=
  match emission.2 with
  | none => emission.1
  | some label => resolve targets idx emission.1 label

variable {name : String} {history : List BuilderOp}

theorem modify_front {α : Type} (front : List α) (last : α) {idx : Nat} (inside : idx < front.length) (f : α → α) :
    (front ++ [last]).modify idx f = front.modify idx f ++ [last] := by
  induction front generalizing idx with
  | nil => cases inside
  | cons head rest ih =>
    cases idx with
    | zero => rfl
    | succ idx => simp [ih (Nat.lt_of_succ_lt_succ inside)]

theorem modify_last {α : Type} (front : List α) (last : α) (f : α → α) :
    (front ++ [last]).modify front.length f = front ++ [f last] := by
  induction front with
  | nil => rfl
  | cons head rest ih => simp [ih]

theorem patch_append (targets : Label → Option UInt32) (jumps : List (Nat × Label)) {code : List Instruction}
    (inside : ∀ jump ∈ jumps, jump.1 < code.length) (instr : Instruction) :
    jumps.foldl (patch targets) (code ++ [instr]) = jumps.foldl (patch targets) code ++ [instr] := by
  induction jumps generalizing code with
  | nil => rfl
  | cons jump rest ih =>
    have kept : patch targets (code ++ [instr]) jump = patch targets code jump ++ [instr] :=
      modify_front code instr (inside jump mem_cons_self) _
    rw [foldl_cons, foldl_cons, kept]
    exact ih fun other member => by simpa [patch] using inside other (mem_cons_of_mem _ member)

-- Kept for every table of targets, so that finish may use the last one.
structure Patches (name : String) (history : List BuilderOp) : Prop where
  code : ∀ targets, (built name history).pendingJumps.foldl (patch targets) (built name history).code =
    (emissions history).mapIdx (patched targets)
  inside : ∀ jump ∈ (built name history).pendingJumps, jump.1 < (built name history).code.length
  length : (built name history).code.length = (emissions history).length

theorem patches_same (kept : Patches name history) {op : BuilderOp}
    (code : (built name (op :: history)).code = (built name history).code)
    (jumps : (built name (op :: history)).pendingJumps = (built name history).pendingJumps) (silent : emitted op = []) :
    Patches name (op :: history) := by
  have same : emissions (op :: history) = emissions history := by rw [emissions, silent, append_nil]
  refine ⟨?_, ?_, ?_⟩
  · rw [code, jumps, same]
    exact kept.code
  · rw [code, jumps]
    exact kept.inside
  · rw [code, same]
    exact kept.length

theorem patches_emit (kept : Patches name history) {op : BuilderOp} {instr : Instruction} (target : Option Label)
    (code : (built name (op :: history)).code = (built name history).code ++ [instr])
    (jumps : (built name (op :: history)).pendingJumps =
      (built name history).pendingJumps ++ (target.map ((built name history).code.length, ·)).toList)
    (emits : emitted op = [(instr, target)]) : Patches name (op :: history) := by
  have longer : emissions (op :: history) = emissions history ++ [(instr, target)] := by rw [emissions, emits]
  refine ⟨fun targets => ?_, fun jump member => ?_, ?_⟩
  · have before := patch_append targets _ kept.inside instr
    rw [code, jumps, longer, mapIdx_concat, foldl_append, before, kept.code]
    cases target with
    | none => rfl
    | some label =>
      have last := modify_last ((emissions history).mapIdx (patched targets)) instr
      rw [length_mapIdx] at last
      simp only [Option.map_some, Option.toList_some, foldl_cons, foldl_nil, patch, kept.length, patched, last]
  · rw [code, length_append]
    rw [jumps] at member
    rcases mem_append.mp member with old | new
    · exact Nat.lt_succ_of_lt (kept.inside jump old)
    · cases target with
      | none => cases new
      | some label =>
        rw [mem_singleton.mp new]
        exact Nat.lt_succ_self _
  · rw [code, longer, length_append, length_append, kept.length]
    rfl

theorem patches_built (name : String) (history : List BuilderOp) : Patches name history := by
  induction history with
  | nil => exact ⟨fun _ => rfl, nofun, rfl⟩
  | cons op earlier ih =>
    cases op with
    | emitJump target | emitBranch cond target => exact patches_emit ih (some target) rfl rfl rfl
    | emit instr => exact patches_emit ih none rfl (append_nil _).symm rfl
    | const value =>
      refine patches_same ih ?_ ?_ rfl
      all_goals
        simp only [built, apply]
        split <;> rfl
    | _ => exact patches_same ih rfl rfl rfl

theorem targets_built (label : Label) :
    (built name history).labelTargets label = (lastBound label history).map UInt32.ofNat := by
  induction history with
  | nil => rfl
  | cons op earlier ih =>
    cases op with
    | bindLabel bound =>
      simp only [built, apply, lastBound, (patches_built name earlier).length]
      by_cases same : bound = label
      · rw [if_pos same, same, Function.update_self, Option.map_some]
      · rw [if_neg same, Function.update_of_ne (Ne.symm same), ih]
    | const value =>
      simp only [built, apply, lastBound]
      split <;> exact ih
    | _ => exact ih

theorem erase_dups_snoc {α : Type} (same : α → α → Bool) (items : List α) (last : α) :
    (items ++ [last]).eraseDupsBy same = if (items.eraseDupsBy same).any (same last) then items.eraseDupsBy same
      else items.eraseDupsBy same ++ [last] := by
  have loop : ∀ kept, eraseDupsBy.loop same (items ++ [last]) kept =
      if (eraseDupsBy.loop same items kept).any (same last) then eraseDupsBy.loop same items kept
      else eraseDupsBy.loop same items kept ++ [last] := by
    induction items with
    | nil => intro kept; cases found : kept.any (same last) <;> simp [eraseDupsBy.loop, found]
    | cons head rest ih => intro kept; cases found : kept.any (same head) <;> simp only [cons_append, eraseDupsBy.loop, found, ih]
  exact loop []

theorem constants_built : (built name history).constants = (mentions history).eraseDupsBy fun new old => old.eq new := by
  induction history with
  | nil => rfl
  | cons op earlier ih =>
    cases op with
    | const value =>
      simp only [built, apply, mentions, mentioned, erase_dups_snoc, ← ih]
      split <;> rfl
    | _ => exact ih.trans (congrArg (eraseDupsBy _) (append_nil _).symm)

theorem functions_built : (built name history).functions = declared history := by
  induction history with
  | nil => rfl
  | cons op earlier ih =>
    cases op with
    | beginFunction label arity numRegisters => simp only [built, apply, declared, ih, (patches_built name earlier).length]
    | setNumRegisters functionIndex numRegisters => simp only [built, apply, declared, ih]
    | const value =>
      simp only [built, apply, declared]
      split <;> exact ih
    | _ => exact ih

theorem last_bound_le {label : Label} {place : Nat} (bound : lastBound label history = some place) :
    place ≤ (emissions history).length := by
  induction history with
  | nil => cases bound
  | cons op earlier ih =>
    rw [emissions, length_append]
    cases op with
    | bindLabel other =>
      rw [lastBound] at bound
      split_ifs at bound
      · cases bound
        exact Nat.le_add_right _ _
      · exact (ih bound).trans (Nat.le_add_right _ _)
    | _ => exact (ih bound).trans (Nat.le_add_right _ _)

theorem i32_try_from_some {n : Int} (fits : -2 ^ 31 ≤ n ∧ n < 2 ^ 31) : ∃ imm, i32TryFrom n = some imm ∧ imm.toInt = n :=
  ⟨Int32.ofInt n, if_pos fits, Int32.toInt_ofInt_of_le fits.1 fits.2⟩

-- One instruction executed, and the top frame at pc.
def arrived (vm : Vm) (frame : Frame) (pc : Nat) : Vm :=
  { vm with instructionsExecuted := vm.instructionsExecuted + 1 }.setTop { frame with pc := pc }

section Landing

variable {vm : Vm} {frame : Frame} {rest : List Frame} {instr : Instruction} {place : Nat}

theorem step_fetched (top : vm.frames = frame :: rest) (here : vm.chunk.code[frame.pc]? = some instr) :
    exec Vm.step vm = exec (Vm.execute instr) (arrived vm frame (frame.pc + 1)) := by
  rw [Vm.exec_step_some top here, arrived, Vm.setTop, top]
  rfl

theorem arrived_current (vm : Vm) (frame : Frame) (pc : Nat) : (arrived vm frame pc).current = .ok { frame with pc := pc } := rfl

theorem jump_lands (offset : (frame.pc + 1 : Nat) + instr.imm.toInt = place) (inside : place ≤ vm.chunk.code.length) :
    exec (Vm.applyRelativeJump instr.imm) (arrived vm frame (frame.pc + 1)) = (.ok (), arrived vm frame place) := by
  simp only [Vm.applyRelativeJump, exec_bind, exec_get, exec_reading, arrived_current, offset]
  rw [if_neg (by change ¬ (_ ∨ _ > vm.chunk.code.length); omega)]
  rfl

end Landing

def FitsI32 (n : Int) : Prop := -2 ^ 31 ≤ n ∧ n < 2 ^ 31

theorem labels_patched (name : String) (history : List BuilderOp) (short : (emissions history).length < 2 ^ 32) :
    let chunk := (built name history).finish
    chunk.code.length = (emissions history).length ∧
    chunk.constants = ((mentions history).eraseDupsBy fun new old => old.eq new) ∧ chunk.functions = declared history ∧
    ∀ (idx : Nat) (instr : Instruction) target, (emissions history)[idx]? = some (instr, target) →
      (target = none → chunk.code[idx]? = some instr) ∧ ∀ label, target = some label →
        (∀ place, lastBound label history = some place → FitsI32 (place - (idx + 1)) →
          ∃ imm, chunk.code[idx]? = some { instr with imm := imm } ∧
            ∀ (vm : Vm) frame rest, vm.chunk = chunk → vm.frames = frame :: rest → frame.pc = idx →
              (instr.op = .jump → exec Vm.step vm = (.ok none, arrived vm frame place)) ∧
              (instr.op = .branch → ∀ value, frame.registers[instr.a.toNat]? = some value → exec Vm.step vm =
                (.ok none, arrived vm frame (if value.isTruthy then idx + 1 else place)))) ∧
        ((∀ place, lastBound label history = some place → ¬ FitsI32 (place - (idx + 1))) →
          chunk.code[idx]? = some { instr with op := .trap, imm := 0 }) := by
  have kept := patches_built name history
  have code : (built name history).finish.code = (emissions history).mapIdx (patched (built name history).labelTargets) :=
    kept.code _
  have length : (built name history).finish.code.length = (emissions history).length := by rw [code, length_mapIdx]
  refine ⟨length, constants_built, functions_built, fun idx instr target found => ⟨?_, ?_⟩⟩
  · rintro rfl
    rw [code, getElem?_mapIdx, found]
    rfl
  rintro label rfl
  have here : (built name history).finish.code[idx]? =
      some (resolve (built name history).labelTargets idx instr label) := by
    rw [code, getElem?_mapIdx, found]
    rfl
  rw [here]
  refine ⟨fun place bound fits => ?_, fun never => ?_⟩
  · obtain ⟨imm, converts, value⟩ := i32_try_from_some fits
    have within := last_bound_le bound
    have exact_ : (UInt32.ofNat place).toNat = place := UInt32.toNat_ofNat_of_lt' (within.trans_lt short)
    have resolved : resolve (built name history).labelTargets idx instr label = { instr with imm := imm } := by
      rw [resolve, targets_built, bound]
      simp [exact_, converts]
    rw [resolved] at here ⊢
    refine ⟨imm, rfl, fun vm frame rest loaded top pc => ?_⟩
    have fetched : vm.chunk.code[frame.pc]? = some { instr with imm := imm } := by rw [loaded, pc, here]
    have lands := @jump_lands vm frame { instr with imm := imm } place (by dsimp only; omega) (by rw [loaded, length]; exact within)
    rw [step_fetched top fetched]
    refine ⟨fun jumps => ?_, fun branches register held => ?_⟩
    · simp only [Vm.execute, jumps, exec_bind, lands]
      rfl
    · have read : (arrived vm frame (frame.pc + 1)).getReg instr.a = .ok register := by
        simp only [Vm.getReg, arrived_current, bind, Except.bind, held]
      cases truth : register.isTruthy
      · simp only [Vm.execute, branches, exec_bind, exec_reading, read, truth, if_true, lands]
        rfl
      · simp only [Vm.execute, branches, exec_bind, exec_reading, read, truth, if_true, ← pc]
        rfl
  · rw [resolve, targets_built]
    cases bound : lastBound label history with
    | none => rfl
    | some place =>
      have within := last_bound_le bound
      have exact_ : (UInt32.ofNat place).toNat = place := UInt32.toNat_ofNat_of_lt' (within.trans_lt short)
      have refused : i32TryFrom (place - (idx + 1)) = none := if_neg (never place bound)
      simp [exact_, refused]

def loopOps : List BuilderOp :=
  [.setNumRegisters 0 2, .emitJump 7, .bindLabel 1, .emitJump 0, .emitBranch 0 1, .bindLabel 0, .const (.int 3),
    .const (.int 3), .beginFunction "main" 0 1]

-- The branch goes forward, the first jump back, and label 7 was never bound.
theorem loop_patched :
    let chunk := (built "loop" loopOps).finish
    chunk.constants = [.int 3] ∧ chunk.functions = [⟨"main", 0, 0, 2⟩] ∧
    (∃ imm, chunk.code[0]? = some ⟨.branch, 0, 0, 0, imm⟩) ∧ (∃ imm, chunk.code[1]? = some ⟨.jump, 0, 0, 0, imm⟩) ∧
    chunk.code[2]? = some ⟨.trap, 0, 0, 0, 0⟩ := by
  obtain ⟨_, constants, functions, each⟩ := labels_patched "loop" loopOps (by decide)
  obtain ⟨forward, branch, _⟩ := ((each 0 _ _ rfl).2 1 rfl).1 2 rfl ⟨by decide, by decide⟩
  obtain ⟨back, jump, _⟩ := ((each 1 _ _ rfl).2 0 rfl).1 0 rfl ⟨by decide, by decide⟩
  refine ⟨?_, functions, ⟨forward, branch⟩, ⟨back, jump⟩, ((each 2 _ _ rfl).2 7 rfl).2 fun _ bound => by cases bound⟩
  rw [constants]
  simp [loopOps, mentions, mentioned, eraseDupsBy, eraseDupsBy.loop, Value.eq]

end ChunkBuilder

end Byteflow
