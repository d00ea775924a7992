import Byteflow.Interpreter

namespace Byteflow

-- The part of a frame that decides where control goes: everything but the
-- register contents and their charge.
structure FrameShape where
  function : UInt32
  pc : Nat
  size : Nat
  destReg : Option UInt8

def Frame.shape (frame : Frame) : FrameShape := ⟨frame.function, frame.pc, frame.registers.length, frame.destReg⟩

structure Shape where
  chunk : Chunk
  natives : NativeTable
  frames : List FrameShape

def Vm.shape (vm : Vm) : Shape := ⟨vm.chunk, vm.natives, vm.frames.map Frame.shape⟩

-- The faults the verifier is meant to rule out.
def Fault.isStructural : Fault → Bool
  | .badConstant .. | .badFunction .. | .badJump .. | .badArity .. | .registerIndexOverflow ..
  | .invariant .. => true
  | _ => false

def Fault.isQuota : Fault → Bool
  | .quotaExceeded _ => true
  | _ => false

-- The documented contract of a host closure: NativeError is its only way to fail.
def NativeTable.ReportsOnly (natives : NativeTable) : Prop :=
  ∀ index native, natives.get index = some native →
    ∀ instant args fault, native instant args = .error fault → ∃ message, fault = .nativeError message

def Shape.Ready (shape : Shape) : Prop := shape.frames ≠ [] ∧ shape.natives.ReportsOnly

open Exec

def Tame {α : Type} (result : Except Fault α) : Prop :=
  ∀ fault, result = .error fault → fault.isStructural = false

def Charged {α : Type} (result : Except Fault α) : Prop :=
  ∀ fault, result = .error fault → fault.isQuota = true

-- From a state whose shape satisfies S the computation keeps that shape and
-- stops, if at all, with a fault that is not structural.
def Steady {α : Type} (S : Shape → Prop) (m : VmM α) : Prop :=
  ∀ shape, S shape → Triple (fun vm => vm.shape = shape) m (fun _ vm => vm.shape = shape)
    (fun fault vm => fault.isStructural = false ∧ vm.shape = shape)

abbrev Quiet {α : Type} (m : VmM α) : Prop := Steady Shape.Ready m
abbrev Still {α : Type} (m : VmM α) : Prop := Steady (fun _ => True) m

section Rules

variable {α β : Type} {S : Shape → Prop} {m : VmM α}

theorem tame_ok (a : α) : Tame (.ok a) := by
  intro fault impossible
  cases impossible

theorem tame_error (fault : Fault) (tame : fault.isStructural = false) : Tame (.error fault : Except Fault α) := by
  intro other same
  cases same
  exact tame

theorem tame_bind (m : Except Fault α) (f : α → Except Fault β) (first : Tame m)
    (next : ∀ a, m = .ok a → Tame (f a)) : Tame (m >>= f) := by
  intro fault failed
  rcases (except_bind_error_iff m f fault).mp failed with here | ⟨a, done, later⟩
  · exact first fault here
  · exact next a done fault later

theorem tame_mapM (items : List α) (f : α → Except Fault β) (each : ∀ item ∈ items, Tame (f item)) :
    Tame (items.mapM f) := by
  intro fault failed
  obtain ⟨item, member, fails⟩ := mapM_except_error items f fault failed
  exact each item member fault fails

theorem charged_ok (a : α) : Charged (.ok a) := by
  intro fault impossible
  cases impossible

theorem charged_error (message : String) : Charged (.error (.quotaExceeded message) : Except Fault α) := by
  intro fault same
  cases same
  rfl

theorem charged_bind (m : Except Fault α) (f : α → Except Fault β) (first : Charged m)
    (next : ∀ a, Charged (f a)) : Charged (m >>= f) := by
  intro fault failed
  rcases (except_bind_error_iff m f fault).mp failed with here | ⟨a, _, later⟩
  · exact first fault here
  · exact next a fault later

theorem charged_ite (c : Prop) [Decidable c] {yes no : Except Fault α} (whenTrue : Charged yes) (whenFalse : Charged no) :
    Charged (if c then yes else no) := by
  split
  · exact whenTrue
  · exact whenFalse

theorem tame_of_charged {result : Except Fault α} (charged : Charged result) : Tame result := by
  intro fault failed
  have quota := charged fault failed
  cases fault with
  | quotaExceeded message => rfl
  | _ => cases quota

theorem steady_of_still (still : Still m) : Steady S m := fun shape _ => still shape trivial

theorem steady_pure (a : α) : Steady S (pure a) := fun _ _ => triple_pure a (fun _ same => same)

theorem steady_throw (fault : Fault) (tame : fault.isStructural = false) : Steady S (throw fault : VmM α) :=
  fun _ _ => triple_throw fault (fun _ same => ⟨tame, same⟩)

theorem steady_modify (f : Vm → Vm) (kept : ∀ vm, S vm.shape → (f vm).shape = vm.shape) : Steady S (modify f) := by
  intro shape holds
  refine triple_modify f _ (fun vm same => ?_)
  subst same
  exact kept vm holds

theorem steady_reading (f : Vm → Except Fault α) (tame : ∀ vm, S vm.shape → Tame (f vm)) : Steady S (reading f) := by
  intro shape holds
  refine triple_reading f (fun _ _ same _ => same) (fun vm fault same failed => ⟨?_, same⟩)
  subst same
  exact tame vm holds fault failed

theorem steady_bind {f : α → VmM β} (first : Steady S m) (next : ∀ a, Steady S (f a)) : Steady S (m >>= f) :=
  fun shape holds => triple_bind (first shape holds) (fun a => next a shape holds)

theorem steady_get_bind {f : Vm → VmM β} (next : ∀ vm, S vm.shape → Steady (fun shape => shape = vm.shape) (f vm)) :
    Steady S (get >>= f) := by
  intro shape holds
  refine triple_get_bind (fun vm same => ?_)
  subst same
  exact triple_consequence (next vm holds vm.shape rfl) (fun _ eq => eq ▸ rfl)
    (fun _ _ post => post) (fun _ _ post => post)

theorem steady_reading_bind {f : Vm → Except Fault α} {g : α → VmM β} (tame : ∀ vm, S vm.shape → Tame (f vm))
    (next : ∀ vm a, S vm.shape → f vm = .ok a → Steady (fun shape => shape = vm.shape) (g a)) :
    Steady S (reading f >>= g) := by
  intro shape holds vm same
  subst same
  rw [exec_bind, exec_reading]
  cases result : f vm with
  | error fault => exact ⟨tame vm holds fault result, rfl⟩
  | ok a => exact next vm a holds result vm.shape rfl vm rfl

theorem steady_on_error {handler : Fault → VmM α} (body : Steady S m)
    (handled : ∀ fault, fault.isStructural = false → Steady S (handler fault)) : Steady S (onError m handler) := by
  intro shape holds
  refine triple_on_error (body shape holds) (fun fault vm ⟨tame, same⟩ => ?_)
  exact handled fault tame shape holds vm same

theorem steady_ite (c : Prop) [Decidable c] {n : VmM α} (yes : c → Steady S m) (no : ¬ c → Steady S n) :
    Steady S (if c then m else n) := by
  intro shape holds
  exact triple_ite c (fun h => yes h shape holds) (fun h => no h shape holds)

theorem steady_mono {S' : Shape → Prop} (steady : Steady S' m) (weaker : ∀ shape, S shape → S' shape) :
    Steady S m := fun shape holds => steady shape (weaker shape holds)

end Rules

end Byteflow
