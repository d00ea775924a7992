import Byteflow.Exec
import Byteflow.Verify

namespace Byteflow

open List Exec

-- What an accepted chunk guarantees, one field per pass of the verifier.
structure Verified (chunk : Chunk) : Prop where
  entryInCode : ∀ fn ∈ chunk.functions, fn.entry.toNat < chunk.code.length
  arityFits : ∀ fn ∈ chunk.functions, fn.arity.toNat ≤ fn.numRegisters.toNat
  instruction : ∀ at_ instr, chunk.code[at_]? = some instr →
    verifyInstruction chunk (registerLimits chunk) at_ instr = .ok ()
  closed : ∀ fn ∈ chunk.functions, ∃ function, checkFallthrough chunk function fn = .ok ()

theorem verify_with_verified (chunk : Chunk) (config : VerifyConfig)
    (accepted : verifyWith chunk config = .ok ()) : Verified chunk := by
  unfold verifyWith at accepted
  by_cases empty : chunk.functions.isEmpty
  · simp [empty, throw, throwThe, MonadExceptOf.throw, bind, Except.bind] at accepted
  · simp only [empty, Bool.false_eq_true, if_false] at accepted
    obtain ⟨_, _, functionsAndCode⟩ := (except_bind_ok_iff _ _ _).mp accepted
    obtain ⟨_, functions, codeAndRest⟩ := (except_bind_ok_iff _ _ _).mp functionsAndCode
    obtain ⟨_, code, fallthrough⟩ := (except_bind_ok_iff _ _ _).mp codeAndRest
    rw [forM_except_ok_iff] at functions code
    rw [rejectFallthrough, forM_except_ok_iff] at fallthrough
    have functionOk : ∀ fn ∈ chunk.functions, ∃ function, verifyFunction chunk function fn = .ok () := by
      intro fn member
      obtain ⟨i, found⟩ := getElem?_of_mem member
      exact ⟨i, functions (fn, i) (mem_zipIdx_iff_getElem?.mpr found)⟩
    refine ⟨fun fn member => ?_, fun fn member => ?_, fun at_ instr found => ?_, fun fn member => ?_⟩
    · obtain ⟨function, ok⟩ := functionOk fn member
      by_contra outside
      simp [verifyFunction, Nat.le_of_not_lt outside] at ok
    · obtain ⟨function, ok⟩ := functionOk fn member
      by_contra tooMany
      have larger : fn.arity > fn.numRegisters := UInt8.lt_iff_toNat_lt.mpr (by omega)
      simp only [verifyFunction, larger, if_true] at ok
      split at ok <;> cases ok
    · exact code (instr, at_) (mem_zipIdx_iff_getElem?.mpr found)
    · obtain ⟨i, found⟩ := getElem?_of_mem member
      exact ⟨i, fallthrough (fn, i) (mem_zipIdx_iff_getElem?.mpr found)⟩

theorem exclusive_end_le (functions : List FunctionDef) (start stop : Nat) : exclusiveEnd functions start stop ≤ stop := by
  induction functions generalizing stop with
  | nil => exact Nat.le_refl stop
  | cons fn rest ih =>
    have nearer : nearerEnd start stop fn ≤ stop := by
      unfold nearerEnd
      split <;> omega
    exact Nat.le_trans (ih (nearerEnd start stop fn)) nearer

theorem exclusive_end_le_entry (functions : List FunctionDef) (start stop : Nat) (fn : FunctionDef)
    (member : fn ∈ functions) (after : start < fn.entry.toNat) :
    exclusiveEnd functions start stop ≤ fn.entry.toNat := by
  induction functions generalizing stop with
  | nil => simp at member
  | cons head rest ih =>
    rcases mem_cons.mp member with rfl | inRest
    · have nearer : nearerEnd start stop fn ≤ fn.entry.toNat := by
        unfold nearerEnd
        split <;> omega
      exact Nat.le_trans (exclusive_end_le rest start (nearerEnd start stop fn)) nearer
    · exact ih (nearerEnd start stop head) inRest

theorem exclusive_end_gt (functions : List FunctionDef) (start stop : Nat) (inside : start < stop) :
    start < exclusiveEnd functions start stop := by
  induction functions generalizing stop with
  | nil => exact inside
  | cons fn rest ih =>
    have nearer : start < nearerEnd start stop fn := by
      unfold nearerEnd
      split <;> omega
    exact ih (nearerEnd start stop fn) nearer

def Chunk.spanEnd (chunk : Chunk) (fn : FunctionDef) : Nat :=
  exclusiveEnd chunk.functions fn.entry.toNat chunk.code.length

def InSpan (chunk : Chunk) (fn : FunctionDef) (pc : Nat) : Prop :=
  fn.entry.toNat ≤ pc ∧ pc < chunk.spanEnd fn

theorem span_end_le (chunk : Chunk) (fn : FunctionDef) : chunk.spanEnd fn ≤ chunk.code.length :=
  exclusive_end_le chunk.functions fn.entry.toNat chunk.code.length

theorem in_span_other_entry (chunk : Chunk) (fn other : FunctionDef) (pc : Nat) (inside : InSpan chunk fn pc)
    (member : other ∈ chunk.functions) : other.entry.toNat ≤ fn.entry.toNat ∨ pc < other.entry.toNat := by
  by_cases before : other.entry.toNat ≤ fn.entry.toNat
  · exact Or.inl before
  · have bound := exclusive_end_le_entry chunk.functions fn.entry.toNat chunk.code.length other member (by omega)
    exact Or.inr (Nat.lt_of_lt_of_le inside.2 bound)

theorem later_start_fold (functions : List FunctionDef) (pc best : Nat) (start : Option Nat) (reached : best ≤ pc)
    (others : ∀ fn ∈ functions, fn.entry.toNat ≤ best ∨ pc < fn.entry.toNat)
    (bounded : ∀ prev, start = some prev → prev ≤ best)
    (found : start = some best ∨ ∃ fn ∈ functions, fn.entry.toNat = best) :
    functions.foldl (laterStart pc) start = some best := by
  induction functions generalizing start with
  | nil => simpa using found
  | cons fn rest ih =>
    have here := others fn (by simp)
    have nextBounded : ∀ prev, laterStart pc start fn = some prev → prev ≤ best := by
      intro prev isNext
      unfold laterStart at isNext
      split at isNext
      · cases start with
        | none =>
          cases isNext
          omega
        | some old =>
          have oldBound := bounded old rfl
          simp only at isNext
          split at isNext <;> cases isNext <;> omega
      · exact bounded prev isNext
    refine ih (laterStart pc start fn) (fun other member => others other (by simp [member])) nextBounded ?_
    rcases found with already | ⟨target, member, isBest⟩
    · left
      subst already
      unfold laterStart
      split
      · have kept : best ≥ fn.entry.toNat := by omega
        simp only [if_pos kept]
      · rfl
    · rcases mem_cons.mp member with rfl | inRest
      · left
        unfold laterStart
        rw [if_pos (by omega)]
        cases start with
        | none => rw [isBest]
        | some prev =>
          have prevBound := bounded prev rfl
          by_cases same : prev ≥ target.entry.toNat
          · simp only [if_pos same, Option.some.injEq]
            omega
          · simp only [if_neg same]
            rw [isBest]
      · exact Or.inr ⟨target, inRest, isBest⟩

theorem span_start_of_in_span (chunk : Chunk) (fn : FunctionDef) (pc : Nat) (member : fn ∈ chunk.functions)
    (inside : InSpan chunk fn pc) : spanStart chunk.functions pc = some fn.entry.toNat :=
  later_start_fold chunk.functions pc fn.entry.toNat none inside.1
    (fun other isFn => in_span_other_entry chunk fn other pc inside isFn) (by simp) (Or.inr ⟨fn, member, rfl⟩)

theorem function_span_of_in_span (chunk : Chunk) (fn : FunctionDef) (pc : Nat) (member : fn ∈ chunk.functions)
    (inside : InSpan chunk fn pc) :
    functionSpan chunk.functions pc chunk.code.length = some (fn.entry.toNat, chunk.spanEnd fn) := by
  have stop : ¬ pc ≥ exclusiveEnd chunk.functions fn.entry.toNat chunk.code.length := Nat.not_le.mpr inside.2
  simp only [functionSpan, span_start_of_in_span chunk fn pc member inside, if_neg stop, Chunk.spanEnd]

theorem sorted_entries_mem (functions : List FunctionDef) (entry : Nat) :
    entry ∈ sortedEntries functions ↔ ∃ fn ∈ functions, fn.entry.toNat = entry := by
  have sorted := pairwise_insertionSort (· ≤ ·) (functions.map (·.entry.toNat))
  rw [sortedEntries, List.Pairwise.destutter_eq_dedup sorted, mem_dedup, mem_insertionSort,
    mem_map]

theorem sorted_entries_increasing (functions : List FunctionDef) : (sortedEntries functions).Pairwise (· < ·) := by
  have sorted := pairwise_insertionSort (· ≤ ·) (functions.map (·.entry.toNat))
  rw [sortedEntries, List.Pairwise.destutter_eq_dedup sorted]
  have ordered := List.Pairwise.sublist (dedup_sublist _) sorted
  have distinct := nodup_dedup ((functions.map (·.entry.toNat)).insertionSort (· ≤ ·))
  exact (ordered.and distinct).imp fun ⟨le, ne⟩ => Nat.lt_of_le_of_ne le ne

theorem fill_slots_get (start stop : Nat) (limit : UInt8) (limits : List (Option UInt8)) (i : Nat) :
    (fillSlots start stop limit limits)[i]? =
      (limits[i]?).map fun slot => if start ≤ i ∧ i < stop then some limit else slot := by
  simp [fillSlots]

theorem fill_limits_untouched (chunk : Chunk) (entries : List Nat) (limits : List (Option UInt8)) (i : Nat)
    (before : ∀ entry ∈ entries, i < entry) : (fillLimits chunk entries limits)[i]? = limits[i]? := by
  induction entries generalizing limits with
  | nil => rfl
  | cons entry rest ih =>
    have outside : ¬ entry ≤ i := Nat.not_le.mpr (before entry (by simp))
    rw [fillLimits, ih _ (fun later member => before later (by simp [member])), fill_slots_get]
    simp [outside]

theorem fill_limits_at (chunk : Chunk) (entries : List Nat) (limits : List (Option UInt8)) (entry i : Nat)
    (increasing : entries.Pairwise (· < ·)) (member : entry ∈ entries) (after : entry ≤ i)
    (before : ∀ later ∈ entries, entry < later → i < later) (inCode : i < chunk.code.length)
    (inLimits : i < limits.length) :
    (fillLimits chunk entries limits)[i]? = some (some (groupLimit chunk.functions entry)) := by
  induction entries generalizing limits with
  | nil => simp at member
  | cons head rest ih =>
    obtain ⟨headFirst, restIncreasing⟩ := pairwise_cons.mp increasing
    rw [fillLimits]
    rcases mem_cons.mp member with rfl | inRest
    · -- This entry's own slots: the rest of the table starts behind i.
      have restAfter : ∀ later ∈ rest, i < later := fun later isLater =>
        before later (by simp [isLater]) (headFirst later isLater)
      have stop : i < rest.headD chunk.code.length := by
        cases rest with
        | nil => exact inCode
        | cons next _ => exact restAfter next (by simp)
      rw [fill_limits_untouched chunk rest _ i restAfter, fill_slots_get, getElem?_eq_getElem inLimits]
      simp only [Option.map_some, after, stop, and_self, if_true]
    · exact ih _ restIncreasing inRest (fun later isLater => before later (by simp [isLater]))
        (by simpa [fillSlots] using inLimits)

theorem group_limit_le (functions : List FunctionDef) (fn : FunctionDef) (member : fn ∈ functions) :
    (groupLimit functions fn.entry.toNat).toNat ≤ fn.numRegisters.toNat := by
  have grouped : fn.numRegisters ∈
      (functions.filter (·.entry.toNat == fn.entry.toNat)).map FunctionDef.numRegisters :=
    mem_map.mpr ⟨fn, by simp [member], rfl⟩
  unfold groupLimit
  cases smallest : ((functions.filter (·.entry.toNat == fn.entry.toNat)).map FunctionDef.numRegisters).min? with
  | none =>
    rw [min?_eq_none_iff] at smallest
    rw [smallest] at grouped
    simp at grouped
  | some limit =>
    have least := (le_min?_iff smallest).mp (UInt8.le_refl limit)
    exact UInt8.le_iff_toNat_le.mp (least fn.numRegisters grouped)

theorem register_limit_at (chunk : Chunk) (fn : FunctionDef) (pc : Nat) (member : fn ∈ chunk.functions)
    (inside : InSpan chunk fn pc) :
    ((registerLimits chunk)[pc]?).join = some (groupLimit chunk.functions fn.entry.toNat) := by
  have inCode : pc < chunk.code.length := Nat.lt_of_lt_of_le inside.2 (span_end_le chunk fn)
  have found := fill_limits_at chunk (sortedEntries chunk.functions)
    (List.replicate chunk.code.length none) fn.entry.toNat pc (sorted_entries_increasing chunk.functions)
    ((sorted_entries_mem chunk.functions fn.entry.toNat).mpr ⟨fn, member, rfl⟩) inside.1
    (by
      intro later isEntry above
      obtain ⟨other, isFn, rfl⟩ := (sorted_entries_mem chunk.functions later).mp isEntry
      have separate := in_span_other_entry chunk fn other pc inside isFn
      omega)
    inCode (by simpa using inCode)
  rw [registerLimits, found]
  rfl

-- Where a frame may stand when its next instruction is fetched. Standing at
-- code.len() is the implicit return.
def Runnable (chunk : Chunk) (fn : FunctionDef) (pc : Nat) : Prop :=
  InSpan chunk fn pc ∨ pc = chunk.code.length

-- Where a frame may stand at all: a terminator at the end of the span leaves
-- the pc just behind it.
def PcInBounds (chunk : Chunk) (fn : FunctionDef) (pc : Nat) : Prop :=
  fn.entry.toNat ≤ pc ∧ pc ≤ chunk.spanEnd fn ∨ pc = chunk.code.length

theorem runnable_in_bounds (chunk : Chunk) (fn : FunctionDef) (pc : Nat) (runnable : Runnable chunk fn pc) :
    PcInBounds chunk fn pc :=
  runnable.imp (fun inside => ⟨inside.1, Nat.le_of_lt inside.2⟩) id

theorem entry_in_span (chunk : Chunk) (verified : Verified chunk) (fn : FunctionDef)
    (member : fn ∈ chunk.functions) : InSpan chunk fn fn.entry.toNat :=
  ⟨Nat.le_refl _, exclusive_end_gt chunk.functions _ _ (verified.entryInCode fn member)⟩

theorem in_span_next_runnable (chunk : Chunk) (verified : Verified chunk) (fn : FunctionDef) (pc : Nat)
    (instr : Instruction) (member : fn ∈ chunk.functions) (inside : InSpan chunk fn pc)
    (found : chunk.code[pc]? = some instr) (continues : isTerminator instr.op = false) :
    Runnable chunk fn (pc + 1) := by
  by_cases more : pc + 1 < chunk.spanEnd fn
  · exact Or.inl ⟨Nat.le_succ_of_le inside.1, more⟩
  · have last : chunk.spanEnd fn = pc + 1 := by
      have bound := inside.2
      omega
    by_cases atEnd : chunk.spanEnd fn = chunk.code.length
    · exact Or.inr (last.symm.trans atEnd)
    · -- The span ends at another entry, so its last instruction is a terminator.
      obtain ⟨function, ok⟩ := verified.closed fn member
      have bound := span_end_le chunk fn
      have closes : ¬ (chunk.spanEnd fn ≥ chunk.code.length ∨ chunk.spanEnd fn ≤ fn.entry.toNat) := by
        have start := inside.1
        omega
      unfold Chunk.spanEnd at last closes
      simp only [checkFallthrough] at ok
      rw [if_neg closes] at ok
      simp only [last, Nat.add_sub_cancel, found, continues] at ok
      cases ok

theorem jump_target_runnable (chunk : Chunk) (verified : Verified chunk) (fn : FunctionDef) (pc : Nat)
    (instr : Instruction) (member : fn ∈ chunk.functions) (inside : InSpan chunk fn pc)
    (found : chunk.code[pc]? = some instr)
    (jumps : instr.op = .jump ∨ instr.op = .branch ∨ instr.op = .branchTrue) :
    0 ≤ (pc : Int) + 1 + instr.imm.toInt ∧
      ((pc : Int) + 1 + instr.imm.toInt).toNat ≤ chunk.code.length ∧
      Runnable chunk fn ((pc : Int) + 1 + instr.imm.toInt).toNat := by
  have ok : verifyJump chunk pc instr = .ok () := by
    have checked := verified.instruction pc instr found
    rcases jumps with isJump | isBranch | isBranchTrue
    · simpa only [verifyInstruction, isJump] using checked
    · simpa only [verifyInstruction, isBranch] using checked
    · simpa only [verifyInstruction, isBranchTrue] using checked
  generalize target : (pc : Int) + 1 + instr.imm.toInt = destination at ok ⊢
  simp only [verifyJump, target, function_span_of_in_span chunk fn pc member inside] at ok
  split at ok
  · cases ok
  by_cases stray : destination.toNat ≠ chunk.code.length ∧
      (destination.toNat < fn.entry.toNat ∨ destination.toNat ≥ chunk.spanEnd fn)
  · rw [if_pos stray] at ok
    cases ok
  · refine ⟨by omega, by omega, ?_⟩
    by_cases atEnd : destination.toNat = chunk.code.length
    · exact Or.inr atEnd
    · exact Or.inl ⟨by omega, by omega⟩

end Byteflow
