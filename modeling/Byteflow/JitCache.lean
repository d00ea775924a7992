import Byteflow.Assoc
import Byteflow.Exec
import Byteflow.JitTrace
import Byteflow.Transition

namespace Byteflow

open List Transition

structure TraceCache where
  traces : List (TraceKey × CompiledTrace)
  failed : List TraceKey

namespace TraceCache

def new : TraceCache := ⟨[], []⟩

def get (cache : TraceCache) (key : TraceKey) : Option CompiledTrace := cache.traces.lookup key

def isFailed (cache : TraceCache) (key : TraceKey) : Bool := cache.failed.contains key

def markFailed (cache : TraceCache) (key : TraceKey) : TraceCache := { cache with failed := key :: cache.failed }

def insert (cache : TraceCache) (key : TraceKey) (trace : CompiledTrace) : TraceCache :=
  { cache with traces := Assoc.insert key trace cache.traces }

end TraceCache

structure HotCounter where
  counters : List (TraceKey × UInt32)

def HotCounter.hit (hot : HotCounter) (key : TraceKey) (threshold : UInt32) : HotCounter × Bool :=
  let counter := saturatingSucc ((hot.counters.lookup key).getD 0)
  (⟨Assoc.insert key counter hot.counters⟩, counter ≥ threshold)

-- An Arc<Chunk>: Arc::ptr_eq compares two of these.
abbrev ChunkRef := Nat

structure JitRuntime where
  chunk : ChunkRef
  hotThreshold : UInt32
  cache : TraceCache
  hot : HotCounter

def JitRuntime.new (chunk : ChunkRef) (hotThreshold : UInt32) : JitRuntime := ⟨chunk, hotThreshold, .new, ⟨[]⟩⟩

def JitRuntime.matchesChunk (runtime : JitRuntime) (vmChunk : ChunkRef) : Bool := runtime.chunk == vmChunk

-- Where try_jit_step_runtime and try_run_hot_runtime_tagged are between two
-- locks. Locks are never poisoned here.
inductive ProbeStage where
  | matchesChunk
  | isFailed
  | getTrace
  | recordHotHit
  | getTraceAgain
  | compile
  | insertTrace (trace : CompiledTrace)
  | markFailed
  | execute (trace : CompiledTrace)
  | done

-- A worker that probes the trace at key for a VM that runs vmChunk.
structure JitWorker where
  vmChunk : ChunkRef
  key : TraceKey
  stage : ProbeStage

inductive ReloadStage where
  | chunk | cache | hot | done
deriving DecidableEq

structure JitReload where
  image : ChunkRef
  stage : ReloadStage

section Steps

variable (images : ChunkRef → Chunk)

def JitWorker.step (runtime : JitRuntime) (worker : JitWorker) : JitRuntime × ProbeStage :=
  match worker.stage with
  | .matchesChunk => (runtime, if runtime.matchesChunk worker.vmChunk then .isFailed else .done)
  | .isFailed => (runtime, if runtime.cache.isFailed worker.key then .done else .getTrace)
  | .getTrace =>
    (runtime, match runtime.cache.get worker.key with
      | some trace => .execute trace
      | none => .recordHotHit)
  | .recordHotHit =>
    let (hot, reached) := runtime.hot.hit worker.key runtime.hotThreshold
    ({ runtime with hot := hot }, if reached then .getTraceAgain else .done)
  | .getTraceAgain => (runtime, if (runtime.cache.get worker.key).isSome then .isFailed else .compile)
  | .compile =>
    (runtime, match compileTrace (images worker.vmChunk) worker.key with
      | .ok trace => .insertTrace trace
      | .error _ => .markFailed)
  | .insertTrace trace => ({ runtime with cache := runtime.cache.insert worker.key trace }, .isFailed)
  | .markFailed => ({ runtime with cache := runtime.cache.markFailed worker.key }, .done)
  | .execute _ => (runtime, .done)
  | .done => (runtime, .done)

def JitReload.step (runtime : JitRuntime) (reload : JitReload) : JitRuntime × ReloadStage :=
  match reload.stage with
  | .chunk => ({ runtime with chunk := reload.image }, .cache)
  | .cache => ({ runtime with cache := .new }, .hot)
  | .hot => ({ runtime with hot := ⟨[]⟩ }, .done)
  | .done => (runtime, .done)

structure JitRace where
  runtime : JitRuntime
  workers : List JitWorker
  reloads : List JitReload

inductive JitEvent where
  | probe (vmChunk : ChunkRef) (key : TraceKey)
  | work (index : Nat)
  | reload (image : ChunkRef)
  | reloadStep (index : Nat)

namespace JitRace

def initial (chunk : ChunkRef) (hotThreshold : UInt32) : JitRace := ⟨.new chunk hotThreshold, [], []⟩

def next (race : JitRace) : JitEvent → Option JitRace
  | .probe vmChunk key => some { race with workers := race.workers ++ [⟨vmChunk, key, .matchesChunk⟩] }
  | .work index =>
    match race.workers[index]? with
    | none => none
    | some worker =>
      let (runtime, stage) := worker.step images race.runtime
      some { race with runtime := runtime, workers := race.workers.set index { worker with stage := stage } }
  | .reload image => some { race with reloads := race.reloads ++ [⟨image, .chunk⟩] }
  | .reloadStep index =>
    match race.reloads[index]? with
    | none => none
    | some reload =>
      let (runtime, stage) := reload.step race.runtime
      some { race with runtime := runtime, reloads := race.reloads.set index { reload with stage := stage } }

def RunsOwnChunk (race : JitRace) : Prop :=
  ∀ worker ∈ race.workers, ∀ trace, worker.stage = .execute trace → trace.chunk = images worker.vmChunk

end JitRace

end Steps

-- Past the chunk check, with a step on the cache still to come.
def ProbeStage.probing : ProbeStage → Bool
  | .matchesChunk | .execute _ | .done => false
  | _ => true

namespace JitRace

def reloading (race : JitRace) : Bool := race.reloads.any (·.stage == .cache)

-- A reload replaces the chunk while no worker is probing, and no worker passes
-- its chunk check before the cache is cleared.
def Exclusive (race : JitRace) : JitEvent → Prop
  | .work index => ∀ worker ∈ race.workers[index]?, worker.stage = .matchesChunk → worker.vmChunk = race.runtime.chunk →
      race.reloading = false
  | .reloadStep index => ∀ reload ∈ race.reloads[index]?, reload.stage = .chunk →
      ∀ worker ∈ race.workers, worker.stage.probing = false
  | _ => True

structure WorkerOk (images : ChunkRef → Chunk) (race : JitRace) (worker : JitWorker) : Prop where
  probing : worker.stage.probing = true → worker.vmChunk = race.runtime.chunk ∧ race.reloading = false
  carried : ∀ trace, worker.stage = .insertTrace trace ∨ worker.stage = .execute trace → trace.chunk = images worker.vmChunk

structure Settled (images : ChunkRef → Chunk) (race : JitRace) : Prop where
  cache : race.reloading = false → ∀ row ∈ race.runtime.cache.traces, row.2.chunk = images race.runtime.chunk
  workers : ∀ worker ∈ race.workers, WorkerOk images race worker

section Steps

variable {images : ChunkRef → Chunk} {race : JitRace} {after : JitRace} {index : Nat} {key : TraceKey}

theorem compile_trace_chunk {chunk : Chunk} {trace : CompiledTrace}
    (compiled : compileTrace chunk key = .ok trace) : trace.chunk = chunk := by
  rw [compileTrace] at compiled
  dsimp only at compiled
  split at compiled
  · rename_i fn first rest isFn collected
    split at compiled
    · cases compiled
    obtain ⟨_, _, done⟩ := (Exec.except_bind_ok_iff _ _ _).mp compiled
    cases done
    rfl
  · cases compiled

theorem done_ok {vmChunk : ChunkRef} : WorkerOk images race ⟨vmChunk, key, .done⟩ := ⟨nofun, nofun⟩

theorem empty_handed_ok {vmChunk : ChunkRef} {stage : ProbeStage}
    (fresh : vmChunk = race.runtime.chunk ∧ race.reloading = false)
    (empty : ∀ trace, stage ≠ .insertTrace trace ∧ stage ≠ .execute trace) : WorkerOk images race ⟨vmChunk, key, stage⟩ :=
  ⟨fun _ => fresh, fun trace carried => (carried.elim (empty trace).1 (empty trace).2).elim⟩

theorem worker_step_ok {worker : JitWorker} (settled : Settled images race) (ok : WorkerOk images race worker)
    (exclusive : worker.stage = .matchesChunk → worker.vmChunk = race.runtime.chunk → race.reloading = false) :
    (worker.step images race.runtime).1.chunk = race.runtime.chunk ∧
      (∀ row ∈ (worker.step images race.runtime).1.cache.traces,
        row ∈ race.runtime.cache.traces ∨ row.2.chunk = images race.runtime.chunk) ∧
      WorkerOk images race { worker with stage := (worker.step images race.runtime).2 } := by
  obtain ⟨vmChunk, key, stage⟩ := worker
  cases stage with
  | matchesChunk =>
    refine ⟨rfl, fun row member => Or.inl member, ?_⟩
    simp only [JitWorker.step]
    split
    case isTrue same =>
      have own : vmChunk = race.runtime.chunk := (eq_of_beq same).symm
      exact empty_handed_ok ⟨own, exclusive rfl own⟩ fun _ => ⟨nofun, nofun⟩
    case isFalse => exact done_ok
  | isFailed =>
    refine ⟨rfl, fun row member => Or.inl member, ?_⟩
    simp only [JitWorker.step]
    split
    · exact done_ok
    · exact empty_handed_ok (ok.probing rfl) fun _ => ⟨nofun, nofun⟩
  | getTrace =>
    refine ⟨rfl, fun row member => Or.inl member, ?_⟩
    obtain ⟨own, still⟩ := ok.probing rfl
    simp only [JitWorker.step]
    split
    case h_1 trace found =>
      refine ⟨nofun, fun taken carried => ?_⟩
      obtain rfl : trace = taken := ProbeStage.execute.inj (carried.resolve_left nofun)
      exact (settled.cache still _ (Assoc.mem_of_lookup found)).trans (congrArg images own.symm)
    case h_2 => exact empty_handed_ok ⟨own, still⟩ fun _ => ⟨nofun, nofun⟩
  | recordHotHit =>
    refine ⟨rfl, fun row member => Or.inl member, ?_⟩
    simp only [JitWorker.step]
    split
    · exact empty_handed_ok (ok.probing rfl) fun _ => ⟨nofun, nofun⟩
    · exact done_ok
  | getTraceAgain =>
    refine ⟨rfl, fun row member => Or.inl member, ?_⟩
    simp only [JitWorker.step]
    split
    · exact empty_handed_ok (ok.probing rfl) fun _ => ⟨nofun, nofun⟩
    · exact empty_handed_ok (ok.probing rfl) fun _ => ⟨nofun, nofun⟩
  | compile =>
    refine ⟨rfl, fun row member => Or.inl member, ?_⟩
    simp only [JitWorker.step]
    split
    case h_1 trace compiled =>
      refine ⟨fun _ => ok.probing rfl, fun taken carried => ?_⟩
      obtain rfl : trace = taken := ProbeStage.insertTrace.inj (carried.resolve_right nofun)
      exact compile_trace_chunk compiled
    case h_2 => exact empty_handed_ok (ok.probing rfl) fun _ => ⟨nofun, nofun⟩
  | insertTrace trace =>
    refine ⟨rfl, fun row member => ?_, empty_handed_ok (ok.probing rfl) fun _ => ⟨nofun, nofun⟩⟩
    rcases Assoc.mem_insert.mp member with rfl | ⟨old, _⟩
    · exact Or.inr ((ok.carried trace (Or.inl rfl)).trans (congrArg images (ok.probing rfl).1))
    · exact Or.inl old
  | markFailed | execute | done => exact ⟨rfl, fun row member => Or.inl member, done_ok⟩

theorem worker_ok_same {worker : JitWorker} (ok : WorkerOk images race worker)
    (chunk : after.runtime.chunk = race.runtime.chunk) (reloading : after.reloading = race.reloading) :
    WorkerOk images after worker :=
  ⟨fun probing => by rw [chunk, reloading]; exact ok.probing probing, ok.carried⟩

theorem settled_work (settled : Settled images race)
    (exclusive : race.Exclusive (.work index)) (taken : race.next images (.work index) = some after) : Settled images after := by
  rw [next] at taken
  split at taken
  · cases taken
  rename_i worker here
  cases taken
  obtain ⟨chunk, traces, ok⟩ := worker_step_ok settled (settled.workers worker (mem_of_getElem? here))
    (exclusive worker here)
  refine ⟨fun still row member => ?_, fun other member => ?_⟩
  · change row.2.chunk = images (worker.step images race.runtime).1.chunk
    rw [chunk]
    exact (traces row member).elim (settled.cache still row) id
  · obtain ⟨position, found⟩ := List.mem_iff_getElem?.mp member
    rcases mem_set_cases found with ⟨_, rfl⟩ | ⟨_, old⟩
    · exact worker_ok_same ok chunk rfl
    · exact worker_ok_same (settled.workers other (mem_of_getElem? old)) chunk rfl

theorem reloading_iff : race.reloading = true ↔ ∃ reload ∈ race.reloads, reload.stage = .cache := by
  simp [reloading]

theorem reloading_set {old new : JitReload} (here : race.reloads[index]? = some old) (before : old.stage ≠ .cache)
    (after : new.stage ≠ .cache) (runtime : JitRuntime) :
    reloading ⟨runtime, race.workers, race.reloads.set index new⟩ = race.reloading := by
  rw [Bool.eq_iff_iff, reloading_iff, reloading_iff]
  constructor
  · rintro ⟨reload, member, waits⟩
    obtain ⟨position, found⟩ := List.mem_iff_getElem?.mp member
    rcases mem_set_cases found with ⟨_, rfl⟩ | ⟨_, kept⟩
    · exact absurd waits after
    · exact ⟨reload, mem_of_getElem? kept, waits⟩
  · rintro ⟨reload, member, waits⟩
    have other : reload ≠ old := fun same => before (same ▸ waits)
    exact ⟨reload, mem_set_of_ne here member other, waits⟩

theorem settled_reload (settled : Settled images race)
    (exclusive : race.Exclusive (.reloadStep index)) (taken : race.next images (.reloadStep index) = some after) :
    Settled images after := by
  rw [next] at taken
  split at taken
  · cases taken
  rename_i reload here
  cases taken
  obtain ⟨image, stage⟩ := reload
  have inside : index < race.reloads.length := (List.getElem?_eq_some_iff.mp here).1
  cases stage with
  | chunk =>
    -- Nobody is probing, and nobody will before the cache is cleared.
    have waiting : reloading { race with
        runtime := { race.runtime with chunk := image }, reloads := race.reloads.set index ⟨image, .cache⟩ } = true :=
      reloading_iff.mpr ⟨⟨image, .cache⟩, mem_set inside _, rfl⟩
    refine ⟨fun still => absurd (waiting.symm.trans still) nofun, fun worker member => ⟨fun probing => ?_, ?_⟩⟩
    · rw [exclusive _ here rfl worker member] at probing
      cases probing
    · exact (settled.workers worker member).carried
  | cache =>
    refine ⟨fun _ => forall_mem_nil _, fun worker member => ⟨fun probing => ?_, ?_⟩⟩
    · have still := ((settled.workers worker member).probing probing).2
      have waiting := reloading_iff.mpr ⟨_, mem_of_getElem? here, rfl⟩
      exact absurd (waiting.symm.trans still) nofun
    · exact (settled.workers worker member).carried
  | hot =>
    have same : reloading ⟨{ race.runtime with hot := ⟨[]⟩ }, race.workers, race.reloads.set index ⟨image, .done⟩⟩ =
        race.reloading := reloading_set here (by exact nofun) (by exact nofun) _
    exact ⟨fun still => settled.cache (same ▸ still), fun worker member =>
      worker_ok_same (settled.workers worker member) rfl same⟩
  | done =>
    have same : reloading ⟨race.runtime, race.workers, race.reloads.set index ⟨image, .done⟩⟩ = race.reloading :=
      reloading_set here (by exact nofun) (by exact nofun) _
    exact ⟨fun still => settled.cache (same ▸ still), fun worker member =>
      worker_ok_same (settled.workers worker member) rfl same⟩

theorem settled_next (settled : Settled images race) (event : JitEvent) (after : JitRace) (exclusive : race.Exclusive event)
    (taken : race.next images event = some after) : Settled images after := by
  cases event with
  | probe vmChunk key =>
    cases taken
    refine ⟨settled.cache, fun worker member => ?_⟩
    rcases mem_append.mp member with old | new
    · exact worker_ok_same (settled.workers worker old) rfl rfl
    · rw [mem_singleton.mp new]
      exact ⟨nofun, nofun⟩
  | work index => exact settled_work settled exclusive taken
  | reload image =>
    cases taken
    have same : reloading { race with reloads := race.reloads ++ [⟨image, .chunk⟩] } = race.reloading := by simp [reloading]
    exact ⟨fun still => settled.cache (same ▸ still), fun worker member =>
      worker_ok_same (settled.workers worker member) rfl same⟩
  | reloadStep index => exact settled_reload settled exclusive taken

theorem executed_traces_own (images : ChunkRef → Chunk) (chunk : ChunkRef) (hotThreshold : UInt32) (race : JitRace)
    (reached : Reach (next images) Exclusive (initial chunk hotThreshold) race) : race.RunsOwnChunk images := by
  have settled : Settled images race :=
    reach_invariant ⟨fun _ => forall_mem_nil _, forall_mem_nil _⟩
      (fun before event after settled meets taken => settled_next settled event after meets taken) reached
  exact fun worker member trace executes => (settled.workers worker member).carried trace (Or.inr executes)

end Steps

def image : ChunkRef → Chunk
  | 0 => { name := "old", constants := [], code := [{ op := .ret, a := 0, b := 0, c := 0, imm := 0 }],
           functions := [{ name := "main", entry := 0, arity := 0, numRegisters := 1 }] }
  | _ => { name := "new", constants := [],
           code := [{ op := .loadImm, a := 0, b := 0, c := 0, imm := 7 }, { op := .ret, a := 0, b := 0, c := 0, imm := 0 }],
           functions := [{ name := "main", entry := 0, arity := 0, numRegisters := 1 }] }

def entryKey : TraceKey := ⟨0, 0, false⟩

def ownProbe : List JitEvent := .probe 0 entryKey :: List.replicate 9 (.work 0)

def probed : JitRace := (play (next image) (initial 0 1) ownProbe).getD (initial 0 1)

theorem probed_runs_own :
    Reach (next image) Exclusive (initial 0 1) probed ∧
      (∃ worker trace, worker ∈ probed.workers ∧ worker.stage = .execute trace) ∧ probed.RunsOwnChunk image := by
  have played : play (next image) (initial 0 1) ownProbe = some probed := rfl
  have meets : AllMeet (next image) Exclusive (initial 0 1) ownProbe :=
    ⟨trivial, fun _ _ _ _ => rfl, fun _ _ _ _ => rfl, fun _ _ _ _ => rfl, fun _ _ _ _ => rfl, fun _ _ _ _ => rfl,
      fun _ _ _ _ => rfl, fun _ _ _ _ => rfl, fun _ _ _ _ => rfl, fun _ _ _ _ => rfl, trivial⟩
  have reached := reach_of_play ownProbe (initial 0 1) meets played
  exact ⟨reached, ⟨_, _, mem_singleton.mpr rfl, rfl⟩, executed_traces_own image 0 1 probed reached⟩

def lateInsert : List JitEvent :=
  [.probe 0 entryKey, .work 0, .reload 1, .reloadStep 0, .reloadStep 0, .reloadStep 0, .work 0, .work 0, .work 0, .work 0,
    .work 0, .work 0, .probe 1 entryKey, .work 1, .work 1, .work 1]

def raced : JitRace := (play (next image) (initial 0 1) lateInsert).getD (initial 0 1)

theorem late_insert_runs_old :
    ∃ race, Reach (next image) (fun _ _ => True) (initial 0 1) race ∧ ¬race.RunsOwnChunk image := by
  have played : play (next image) (initial 0 1) lateInsert = some raced := rfl
  refine ⟨raced, reach_of_play lateInsert _ (all_meet_of_forall (fun _ _ => trivial) _ _) played, fun own => ?_⟩
  obtain ⟨worker, trace, here, vm, stage, old⟩ : ∃ worker trace, raced.workers[1]? = some worker ∧ worker.vmChunk = 1 ∧
    worker.stage = .execute trace ∧ trace.chunk = image 0 := ⟨_, _, rfl, rfl, rfl, rfl⟩
  have same : image 0 = image 1 := by
    rw [← old, ← vm]
    exact own worker (mem_of_getElem? here) trace stage
  exact absurd (congrArg Chunk.name same) (by decide)

end JitRace

end Byteflow
