import Byteflow.Control

namespace Byteflow

open List

def Standing (place : Chunk → FunctionDef → Nat → Prop) (chunk : Chunk) (frame : FrameShape) : Prop :=
  ∃ fn, chunk.function frame.function = some fn ∧ frame.size = fn.numRegisters.toNat ∧ place chunk fn frame.pc

-- Every frame but the bottom one returns into a register of the frame below it.
def Linked : List FrameShape → Prop
  | [] => True
  | [bottom] => bottom.destReg = none
  | frame :: caller :: rest =>
    (∃ dest, frame.destReg = some dest ∧ dest.toNat < caller.size) ∧ Linked (caller :: rest)

structure StackOk (place : Chunk → FunctionDef → Nat → Prop) (chunk : Chunk) (shape : Shape) : Prop where
  sameChunk : shape.chunk = chunk
  standing : ∀ frame ∈ shape.frames, Standing place chunk frame
  linked : Linked shape.frames
  depth : shape.frames.length ≤ MAX_CALL_DEPTH

abbrev Resting (chunk : Chunk) (shape : Shape) : Prop := StackOk PcInBounds chunk shape

-- Between two steps every frame, callers included, is about to execute an
-- instruction of its own function.
structure Running (chunk : Chunk) (shape : Shape) : Prop extends StackOk Runnable chunk shape where
  active : shape.frames ≠ []
  natives : shape.natives.ReportsOnly

section Moves

variable {chunk : Chunk} {shape : Shape} {top : FrameShape} {below : List FrameShape}
  {place : Chunk → FunctionDef → Nat → Prop}

theorem function_mem {function : UInt32} {fn : FunctionDef} (found : chunk.function function = some fn) :
    fn ∈ chunk.functions := mem_of_getElem? found

theorem stack_ok_weaken (ok : StackOk Runnable chunk shape) : Resting chunk shape := by
  refine ⟨ok.sameChunk, fun frame member => ?_, ok.linked, ok.depth⟩
  obtain ⟨fn, found, size, runnable⟩ := ok.standing frame member
  exact ⟨fn, found, size, runnable_in_bounds chunk fn frame.pc runnable⟩

theorem running_ready (running : Running chunk shape) : shape.Ready := ⟨running.active, running.natives⟩

theorem linked_tail (linked : Linked (top :: below)) : Linked below := by
  cases below with
  | nil => trivial
  | cons caller rest => exact linked.2

theorem linked_replace (next : FrameShape) (linked : Linked (top :: below)) (dest : next.destReg = top.destReg) :
    Linked (next :: below) := by
  cases below with
  | nil => exact dest.trans linked
  | cons caller rest => exact ⟨dest ▸ linked.1, linked.2⟩

theorem linked_returns (linked : Linked (top :: below)) : top.destReg = none ∨ below ≠ [] := by
  cases below with
  | nil => exact Or.inl linked
  | cons caller rest => exact Or.inr (cons_ne_nil _ _)

theorem stack_ok_pop (ok : StackOk place chunk shape) (frames : shape.frames = top :: below) :
    StackOk place chunk (shape.withFrames below) := by
  have linked := ok.linked
  have depth := ok.depth
  rw [frames] at linked depth
  refine ⟨ok.sameChunk, fun frame member => ok.standing frame ?_, linked_tail linked, ?_⟩
  · rw [frames]
    exact mem_cons_of_mem top member
  · exact Nat.le_trans (Nat.le_succ _) depth

theorem stack_ok_replace {here : Chunk → FunctionDef → Nat → Prop} (ok : StackOk place chunk shape)
    (frames : shape.frames = top :: below) (next : FrameShape) (standing : Standing here chunk next)
    (dest : next.destReg = top.destReg) (weaker : ∀ fn pc, place chunk fn pc → here chunk fn pc) :
    StackOk here chunk (shape.withFrames (next :: below)) := by
  have linked := ok.linked
  have depth := ok.depth
  rw [frames] at linked depth
  refine ⟨ok.sameChunk, fun frame member => ?_, linked_replace next linked dest, depth⟩
  rcases mem_cons.mp member with rfl | inBelow
  · exact standing
  · obtain ⟨fn, found, size, placed⟩ := ok.standing frame (by rw [frames]; exact mem_cons_of_mem top inBelow)
    exact ⟨fn, found, size, weaker fn frame.pc placed⟩

theorem stack_ok_push (ok : StackOk place chunk shape) (frames : shape.frames = top :: below) (next : FrameShape)
    (standing : Standing place chunk next) (dest : ∃ reg, next.destReg = some reg ∧ reg.toNat < top.size)
    (room : shape.frames.length < MAX_CALL_DEPTH) : StackOk place chunk (shape.withFrames (next :: shape.frames)) := by
  refine ⟨ok.sameChunk, fun frame member => ?_, ?_, room⟩
  · rcases mem_cons.mp member with rfl | inStack
    · exact standing
    · exact ok.standing frame inStack
  · have linked := ok.linked
    simp only [Shape.withFrames, frames] at linked ⊢
    exact ⟨dest, linked⟩

theorem entry_standing (verified : Verified chunk) {function : UInt32} {fn : FunctionDef}
    (found : chunk.function function = some fn) (destReg : Option UInt8) :
    Standing Runnable chunk (Vm.entryShape function fn destReg) :=
  ⟨fn, found, rfl, Or.inl (entry_in_span chunk verified fn (function_mem found))⟩

end Moves

namespace Vm

open Exec

def Continues (chunk : Chunk) (result : Option VmResult) (vm : Vm) : Prop :=
  Running chunk vm.shape ∨ Resting chunk vm.shape ∧ ∃ value, result = some (.complete value)

def Faults (chunk : Chunk) (fault : Fault) (vm : Vm) : Prop :=
  fault.isStructural = false ∧ Resting chunk vm.shape

section Step

variable {chunk : Chunk} {shape : Shape} {top : FrameShape} {below : List FrameShape} {instr : Instruction}
  {fn : FunctionDef}

theorem running_continues {result : Option VmResult} {vm : Vm} (running : Running chunk vm.shape) :
    Continues chunk result vm := Or.inl running

theorem triple_faults {α : Type} {P : Vm → Prop} {Q : α → Vm → Prop} {m : VmM α} {shapes : List Shape}
    (body : Triple P m Q (Stops shapes)) (resting : ∀ other ∈ shapes, Resting chunk other) :
    Triple P m Q (Faults chunk) :=
  triple_consequence body (fun _ pre => pre) (fun _ _ post => post)
    fun _ vm stopped => ⟨stopped.1, resting vm.shape stopped.2⟩

theorem pop_frame_continues (value : Value) (ok : Resting chunk shape) (natives : shape.natives.ReportsOnly)
    (frames : shape.frames = top :: below) (callers : ∀ frame ∈ below, Standing Runnable chunk frame) :
    Triple (fun vm => vm.shape = shape) (popFrame value) (Continues chunk) (Faults chunk) := by
  have linked := ok.linked
  rw [frames] at linked
  have popped := stack_ok_pop ok frames
  refine triple_consequence (triple_faults (pop_frame_triple value natives frames (linked_returns linked)) ?_)
    (fun _ same => same) (fun result vm post => ?_) (fun _ _ faulted => faulted)
  · simp only [mem_cons, not_mem_nil, or_false]
    rintro other (rfl | rfl)
    · exact ok
    · exact popped
  · obtain ⟨shaped, ⟨_, done⟩ | ⟨caller, _⟩⟩ := post
    · exact Or.inr ⟨shaped ▸ popped, value, done⟩
    · rw [Continues, shaped]
      exact Or.inl ⟨⟨popped.sameChunk, callers, popped.linked, popped.depth⟩, caller, natives⟩

structure AtInstruction (chunk : Chunk) (shape : Shape) (top : FrameShape) (below : List FrameShape) (fn : FunctionDef)
    (instr : Instruction) : Prop where
  verified : Verified chunk
  running : Running chunk shape
  frames : shape.frames = top :: below
  known : chunk.function top.function = some fn
  size : top.size = fn.numRegisters.toNat
  inside : InSpan chunk fn top.pc
  found : chunk.code[top.pc]? = some instr

def fetched (shape : Shape) (top : FrameShape) (below : List FrameShape) : Shape :=
  shape.withFrames ({ top with pc := top.pc + 1 } :: below)

variable (at_ : AtInstruction chunk shape top below fn instr)

include at_

theorem fetched_resting : Resting chunk (fetched shape top below) :=
  stack_ok_replace at_.running.toStackOk at_.frames _
    ⟨fn, at_.known, at_.size, Or.inl ⟨Nat.le_succ_of_le at_.inside.1, at_.inside.2⟩⟩ rfl
    (fun fn pc => runnable_in_bounds chunk fn pc)

theorem running_replace (next : FrameShape) (standing : Standing Runnable chunk next) (dest : next.destReg = top.destReg) :
    Running chunk (shape.withFrames (next :: below)) :=
  ⟨stack_ok_replace at_.running.toStackOk at_.frames next standing dest (fun _ _ placed => placed),
    cons_ne_nil _ _, at_.running.natives⟩

theorem fetched_running (continues : isTerminator instr.op = false) : Running chunk (fetched shape top below) := by
  refine running_replace at_ _ ⟨fn, at_.known, at_.size, ?_⟩ rfl
  exact in_span_next_runnable chunk at_.verified fn top.pc instr (function_mem at_.known) at_.inside at_.found continues

theorem fetched_ready : (fetched shape top below).Ready :=
  ⟨cons_ne_nil _ _, at_.running.natives⟩

theorem fetched_steady {α : Type} {m : VmM α} (quiet : Quiet m) :
    Triple (fun vm => vm.shape = fetched shape top below) m (fun _ vm => vm.shape = fetched shape top below)
      (Faults chunk) := by
  refine triple_faults (steady_triple quiet (fetched_ready at_) [fetched shape top below]
    (mem_singleton.mpr rfl)) fun other member => ?_
  rw [mem_singleton.mp member]
  exact fetched_resting at_

theorem callers_standing (frame : FrameShape) (member : frame ∈ below) : Standing Runnable chunk frame :=
  at_.running.standing frame (by rw [at_.frames]; exact mem_cons_of_mem top member)

theorem jump_continues (jumps : instr.op = .jump ∨ instr.op = .branch ∨ instr.op = .branchTrue) :
    Triple (fun vm => vm.shape = fetched shape top below) (do applyRelativeJump instr.imm; return none)
      (Continues chunk) (Faults chunk) := by
  obtain ⟨low, high, target⟩ :=
    jump_target_runnable chunk at_.verified fn top.pc instr (function_mem at_.known) at_.inside at_.found jumps
  have same : ((top.pc + 1 : Nat) : Int) + instr.imm.toInt = top.pc + 1 + instr.imm.toInt := by push_cast; rfl
  have inRange : 0 ≤ ((top.pc + 1 : Nat) : Int) + instr.imm.toInt ∧
      (((top.pc + 1 : Nat) : Int) + instr.imm.toInt).toNat ≤ shape.chunk.code.length := by
    rw [same, at_.running.sameChunk]
    exact ⟨low, high⟩
  have frames : (fetched shape top below).frames = { top with pc := top.pc + 1 } :: below := rfl
  refine triple_bind (triple_faults (apply_relative_jump_triple instr.imm frames inRange)
    fun _ none => absurd none not_mem_nil) fun _ => ?_
  refine triple_pure _ fun vm shaped => ?_
  rw [Continues, shaped]
  refine Or.inl (running_replace at_ _ ⟨fn, at_.known, at_.size, ?_⟩ rfl)
  rw [same]
  exact target

theorem branch_continues (jumps : instr.op = .branch ∨ instr.op = .branchTrue) (taken : Bool) :
    Triple (fun vm => vm.shape = fetched shape top below)
      (do
        let value ← reading (getReg instr.a)
        if value.isTruthy = taken then applyRelativeJump instr.imm
        return (none : Option VmResult))
      (Continues chunk) (Faults chunk) := by
  have next : Running chunk (fetched shape top below) :=
    fetched_running at_ (by rcases jumps with isOp | isOp <;> rw [isOp] <;> rfl)
  refine triple_bind (fetched_steady at_ (get_reg_quiet instr.a)) fun value =>
    triple_ite _ (fun _ => ?_) fun _ => ?_
  · exact jump_continues at_ (Or.inr jumps)
  · exact triple_pure _ fun vm shaped => running_continues (shaped ▸ next)

theorem call_window (calls : instr.op = .call ∨ instr.op = .tailCall) :
    ∃ callee, chunk.function instr.imm.toUInt32 = some callee ∧ instr.b = callee.arity ∧
      instr.a.toNat < top.size ∧ WindowFits instr := by
  obtain ⟨callee, found, arity, dest, window⟩ :=
    verified_call at_.verified (function_mem at_.known) at_.inside at_.found calls
  have small := fn.numRegisters.toNat_lt
  exact ⟨callee, found, arity, at_.size ▸ dest, window.imp id fun fits => by omega⟩

theorem call_continues (isOp : instr.op = .call) :
    Triple (fun vm => vm.shape = fetched shape top below) (do call instr; return none) (Continues chunk)
      (Faults chunk) := by
  obtain ⟨callee, found, arity, dest, window⟩ := call_window at_ (Or.inl isOp)
  have next : Running chunk (fetched shape top below) := fetched_running at_ (by rw [isOp]; rfl)
  have called := call_triple instr callee (fetched_ready at_) (next.sameChunk.symm ▸ found) arity window
  refine triple_bind (triple_faults called fun other member => ?_) fun _ => ?_
  · rw [mem_singleton.mp member]
    exact fetched_resting at_
  · refine triple_fact fun room => triple_pure _ fun vm shaped => ?_
    rw [Continues, shaped]
    refine Or.inl ⟨?_, cons_ne_nil _ _, at_.running.natives⟩
    exact stack_ok_push next.toStackOk rfl _ (entry_standing at_.verified found _) ⟨instr.a, rfl, dest⟩ room

theorem tail_call_continues (isOp : instr.op = .tailCall) :
    Triple (fun vm => vm.shape = fetched shape top below) (do tailCall instr; return none) (Continues chunk)
      (Faults chunk) := by
  obtain ⟨callee, found, arity, dest, window⟩ := call_window at_ (Or.inr isOp)
  have resting := fetched_resting at_
  have frames : (fetched shape top below).frames = { top with pc := top.pc + 1 } :: below := rfl
  have called := tail_call_triple instr callee (fetched_ready at_) frames (resting.sameChunk.symm ▸ found) arity window
  refine triple_bind (triple_faults called ?_) fun _ => triple_pure _ fun vm shaped => ?_
  · simp only [mem_cons, not_mem_nil, or_false]
    rintro other (rfl | rfl)
    · exact resting
    · exact stack_ok_pop resting frames
  · rw [Continues, shaped]
    exact Or.inl (running_replace at_ _ (entry_standing at_.verified found _) rfl)

theorem return_continues :
    Triple (fun vm => vm.shape = fetched shape top below) (do popFrame (← reading (getReg instr.a))) (Continues chunk)
      (Faults chunk) :=
  triple_bind (fetched_steady at_ (get_reg_quiet instr.a)) fun value =>
    pop_frame_continues value (fetched_resting at_) at_.running.natives rfl (callers_standing at_)

theorem complete_continues (reg : UInt8) :
    Triple (fun vm => vm.shape = fetched shape top below) (do return some (.complete (← reading (getReg reg))))
      (Continues chunk) (Faults chunk) :=
  triple_bind (fetched_steady at_ (get_reg_quiet reg)) fun value =>
    triple_pure _ fun _ shaped => Or.inr ⟨shaped ▸ fetched_resting at_, value, rfl⟩

end Step

end Vm

end Byteflow
