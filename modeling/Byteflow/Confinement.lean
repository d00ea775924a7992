import Byteflow.Exec
import Byteflow.SpawnTree
import Byteflow.SupervisorExit

namespace Byteflow

open Supervisor List Transition

def DrivePhase.specs : DrivePhase → List ChildSpec
  | .idle | .pruning => []
  | .respawnOne spec => [spec]
  | .respawnWave specs => specs

def Supervisor.specs (sup : Supervisor) : List ChildSpec :=
  sup.children.specs ++ (sup.cascade.elim [] Cascade.specs) ++ sup.phase.specs

namespace Supervisor

section Specs

variable {sup : Supervisor} {spec : ChildSpec} {id : FlowId}

theorem mem_specs_iff : spec ∈ sup.specs ↔
    spec ∈ sup.children.specs ∨ (∃ cascade, sup.cascade = some cascade ∧ spec ∈ cascade.specs) ∨
      spec ∈ sup.phase.specs := by
  cases cascade : sup.cascade <;> simp [specs, cascade]

theorem removed_specs (member : spec ∈ (sup.children.remove id).specs) : spec ∈ sup.children.specs := by
  obtain ⟨row, kept, rfl⟩ := mem_map.mp member
  exact mem_map.mpr ⟨row, (mem_filter.mp kept).1, rfl⟩

theorem inserted_specs {child : LiveChild} (member : spec ∈ (sup.children.insert id child).specs) :
    spec = child.spec ∨ spec ∈ sup.children.specs := by
  obtain ⟨row, kept, rfl⟩ := mem_map.mp member
  rcases mem_cons.mp kept with rfl | old
  · exact Or.inl rfl
  · exact Or.inr (mem_map.mpr ⟨row, (mem_filter.mp old).1, rfl⟩)

theorem expected_specs (table : ChildTable) (ids : List FlowId) : (table.expectShutdown ids).specs = table.specs := by
  simp only [ChildTable.expectShutdown, ChildTable.specs, map_map]
  refine map_congr_left fun row _ => ?_
  by_cases marked : row.1 ∈ ids <;> simp [marked]

theorem found_spec {live : LiveChild} (found : sup.children.find id = some live) : live.spec ∈ sup.children.specs := by
  obtain ⟨before, after, rows, _⟩ := lookup_eq_some_iff.mp found
  exact mem_map.mpr ⟨(id, live), by simp [rows], rfl⟩

theorem wave_specs_from {failed : ChildSpec} {failedIdx : Nat} {later : List FlowId} {wave : List ChildSpec}
    (built : sup.waveSpecs failed failedIdx later = some wave) (member : spec ∈ wave) :
    spec = failed ∨ spec ∈ sup.children.specs := by
  have fromTable : spec ∈ (later.filterMap fun id => (sup.children.find id).map (·.spec)) →
      spec ∈ sup.children.specs := by
    intro listed
    obtain ⟨id, _, found⟩ := mem_filterMap.mp listed
    obtain ⟨live, isLive, rfl⟩ := Option.map_eq_some_iff.mp found
    exact found_spec isLive
  cases strategy : sup.strategy with
  | oneForOne =>
    simp only [waveSpecs, strategy, Option.some.injEq] at built
    subst built
    exact Or.inl (mem_singleton.mp member)
  | oneForAll =>
    simp only [waveSpecs, strategy] at built
    split at built
    · cases built
    · rename_i inRange
      cases built
      exact ((mem_insertIdx (Nat.le_of_not_lt inRange)).mp member).imp id fromTable
  | restForOne =>
    simp only [waveSpecs, strategy, Option.some.injEq] at built
    subst built
    exact (mem_cons.mp member).imp id fromTable

theorem finish_specs (member : spec ∈ sup.finishCascade.specs) : spec ∈ sup.specs := by
  rw [mem_specs_iff] at member ⊢
  cases waiting : sup.cascade with
  | none =>
    simp only [finishCascade, waiting, DrivePhase.specs, not_mem_nil, or_false, reduceCtorEq, false_and,
      exists_false] at member
    exact Or.inl member
  | some cascade =>
    simp only [finishCascade, waiting, DrivePhase.specs, reduceCtorEq, false_and, exists_false, false_or] at member
    exact member.imp id fun inWave => Or.inl ⟨cascade, rfl, inWave⟩

theorem waiting_specs {cascade : Cascade} (active : sup.cascade = some cascade) (waiting : List FlowId)
    (phase : DrivePhase) (quiet : phase.specs = [] ∨ phase = sup.phase)
    (member : spec ∈ { sup with cascade := some { cascade with waiting := waiting }, phase := phase }.specs) :
    spec ∈ sup.specs := by
  rw [mem_specs_iff] at member ⊢
  rcases member with inTable | ⟨other, same, inWave⟩ | inPhase
  · exact Or.inl inTable
  · cases same
    exact Or.inr (Or.inl ⟨cascade, active, inWave⟩)
  · rcases quiet with empty | same
    · rw [show ({ sup with cascade := some { cascade with waiting := waiting }, phase := phase } : Supervisor).phase.specs
        = phase.specs from rfl, empty] at inPhase
      cases inPhase
    · exact Or.inr (Or.inr (same ▸ inPhase))

theorem progress_specs (member : spec ∈ (sup.onCascadeProgress id).specs) : spec ∈ sup.specs := by
  cases active : sup.cascade with
  | none => simpa only [onCascadeProgress, active] using member
  | some cascade =>
    simp only [onCascadeProgress, active] at member
    split at member
    · exact waiting_specs active _ _ (Or.inr rfl) (finish_specs member)
    · exact waiting_specs active _ _ (Or.inr rfl) member

theorem prune_specs (alive : FlowId → Bool) (member : spec ∈ (sup.pruneCascade alive).specs) : spec ∈ sup.specs := by
  cases active : sup.cascade with
  | none =>
    simp only [pruneCascade, active] at member
    exact finish_specs member
  | some cascade =>
    simp only [pruneCascade, active] at member
    split at member
    · exact waiting_specs active _ .idle (Or.inl rfl) (finish_specs member)
    · exact waiting_specs active _ .idle (Or.inl rfl) member

theorem start_cascade_specs {failed : ChildSpec} {failedIdx : Nat} {later : List FlowId}
    (member : spec ∈ (sup.startCascade failed failedIdx later).specs) : spec = failed ∨ spec ∈ sup.specs := by
  have marked : spec ∈ (sup.children.expectShutdown later).specs → spec ∈ sup.specs := by
    rw [expected_specs]
    exact fun inTable => mem_specs_iff.mpr (Or.inl inTable)
  rw [startCascade] at member
  cases wave : sup.waveSpecs failed failedIdx later with
  | none =>
    rw [wave] at member
    rcases mem_specs_iff.mp member with inTable | others
    · exact Or.inr (marked inTable)
    · exact Or.inr (mem_specs_iff.mpr (Or.inr others))
  | some listed =>
    rw [wave] at member
    rcases mem_specs_iff.mp member with inTable | ⟨cascade, same, inWave⟩ | inPhase
    · exact Or.inr (marked inTable)
    · cases same
      exact (wave_specs_from wave inWave).imp id fun inTable => mem_specs_iff.mpr (Or.inl inTable)
    · cases inPhase

theorem handle_exit_specs (exit : ChildExit) (now : Nat) (member : spec ∈ (sup.handleExit exit now).specs) :
    spec ∈ sup.specs := by
  have removed : spec ∈ { sup with children := sup.children.remove exit.id }.specs → spec ∈ sup.specs := by
    intro inRemoved
    rw [mem_specs_iff] at inRemoved ⊢
    exact inRemoved.imp removed_specs id
  have ofLive : ∀ live, sup.children.find exit.id = some live → spec = live.spec → spec ∈ sup.specs :=
    fun live found same => mem_specs_iff.mpr (Or.inl (same ▸ found_spec found))
  have handled := handle_exit_handled sup exit now
  generalize sup.handleExit exit now = result at handled member
  cases handled with
  | unknown | left => exact removed member
  | expected _ _ _ => exact removed (progress_specs member)
  | one live found =>
    rcases mem_specs_iff.mp member with inTable | inCascade | inPhase
    · exact removed (mem_specs_iff.mpr (Or.inl inTable))
    · exact removed (mem_specs_iff.mpr (Or.inr (Or.inl inCascade)))
    · exact ofLive live found (mem_singleton.mp inPhase)
  | wave live found => exact (start_cascade_specs member).elim (ofLive live found) removed

end Specs

end Supervisor

def Confines (config : SpawnConfig) (authority : Cap) : Prop :=
  authority.rights.contains .SPAWN = true ∧
    match config.rootAuthority with
    | .trustedHost => authority.rights.contains .ROOT = true ∧
        ∀ idx : NativeIdx, idx.toNat < config.nativesLen → authority.allowsNative idx = true
    | .restricted =>
      authority.rights.contains (.fromBits (CapRights.FLOW.bits &&& ~~~CapRights.NATIVE.bits)) = true
    | .untrusted => True

theorem confines_iff (config : SpawnConfig) (authority : Cap) (id : FlowId) (cell : UInt64) :
    Confines config authority ↔ authority.rights.contains .SPAWN = true ∧
      (config.rootAuthority.mint id config.nativesLen cell).Within authority := by
  have noNative : ∀ idx : NativeIdx, (NativeMask.empty config.nativesLen).allows idx = true →
      authority.allowsNative idx = true := by
    intro idx allowed
    rw [NativeMask.empty_allows] at allowed
    cases allowed
  refine and_congr_right fun _ => ?_
  cases policy : config.rootAuthority with
  | trustedHost =>
    simp only [RootAuthorityPolicy.mint, Cap.root, Cap.Within, Cap.allowsNative, NativeMask.full_allows,
      decide_eq_true_eq]
  | restricted =>
    simp only [RootAuthorityPolicy.mint, Cap.root, Cap.Within]
    exact ⟨fun rights => ⟨rights, noNative⟩, fun within => within.1⟩
  | untrusted =>
    simp only [RootAuthorityPolicy.mint, Cap.root, Cap.Within, true_iff]
    exact ⟨by simp [CapRights.contains, CapRights.NONE], noNative⟩

def Start.Confined (start : Start) : Prop :=
  ∀ starter, start.starter = some starter →
    starter.rights.contains .SPAWN = true ∧ start.authority.Within starter

theorem exec_spawn_authority_confined {parentCap : Cap} {parentCell childCell : UInt64} {rateOk : Bool} {id : FlowId}
    {rights : CapRights} {native : Option NativeMask} {child : Cap}
    (granted : execSpawnAuthority parentCap parentCell rateOk id rights native childCell = .ok child) :
    parentCap.rights.contains .SPAWN = true ∧ child.Within parentCap := by
  unfold execSpawnAuthority at granted
  by_cases revoked : parentCap.isValid parentCell = false
  · simp [revoked] at granted
  · by_cases unable : parentCap.rights.contains .SPAWN = false
    · simp [revoked, unable] at granted
    · rw [if_neg revoked, if_neg unable] at granted
      split at granted
      · cases granted
      · cases granted
        exact ⟨by simpa using unable, Cap.attenuate_within parentCap rights native⟩

theorem spawn_on_authority {config : SpawnConfig} {chunk : Chunk} {function : UInt32} {args : List Value}
    {restart : RestartPolicy} {supervisor : Option Nat} {bytecode : Option BytecodeSpawn}
    {host : Option RootAuthorityPolicy} {env : SpawnEnv} {flow : FlowRecord}
    (spawned : spawnOn config chunk function args restart supervisor bytecode host env = .ok flow) :
    spawnAuthority config env.id bytecode host = .ok flow.authority := by
  obtain ⟨_, _, admitted⟩ := (Exec.except_bind_ok_iff _ _ _).mp spawned
  obtain ⟨_, _, authorised⟩ := (Exec.except_bind_ok_iff _ _ _).mp admitted
  obtain ⟨authority, minted, built⟩ := (Exec.except_bind_ok_iff _ _ _).mp authorised
  obtain ⟨_, _, done⟩ := (Exec.except_bind_ok_iff _ _ _).mp built
  cases done
  exact minted

namespace SpawnSystem

section Steps

variable {config : SpawnConfig} {sys : SpawnSystem}

structure Contained (config : SpawnConfig) (sys : SpawnSystem) : Prop where
  starts : ∀ start ∈ sys.starts, start.Confined
  specs : ∀ sup ∈ sys.supervisors, ∀ spec ∈ sup.specs, ∀ starter, spec.starter = some starter → Confines config starter

def SpecsConfined (config : SpawnConfig) (sup : Supervisor) : Prop :=
  ∀ spec ∈ sup.specs, ∀ starter, spec.starter = some starter → Confines config starter

variable (contained : Contained config sys)

include contained

theorem contained_set_supervisor (index : Nat) (sup : Supervisor)
    (confined : SpecsConfined config sup) : Contained config (sys.setSupervisor index sup) := by
  refine ⟨contained.starts, fun other member => ?_⟩
  rcases mem_or_eq_of_mem_set member with old | rfl
  · exact contained.specs other old
  · exact confined

theorem contained_add_flow (starter : Option Cap) (flow : FlowRecord)
    (confined : (Start.mk starter flow.authority).Confined) : Contained config (sys.addFlow starter flow) := by
  refine ⟨fun start member => ?_, contained.specs⟩
  rcases mem_cons.mp member with rfl | old
  · exact confined
  · exact contained.starts start old

theorem contained_add_supervisor (chunk : Chunk) (strategy : RestartStrategy) (maxRestarts maxPeriod : Nat) :
    Contained config { sys with supervisors := sys.supervisors ++ [.withConfig chunk strategy maxRestarts maxPeriod] } := by
  refine ⟨contained.starts, fun sup member => ?_⟩
  rcases mem_append.mp member with old | fresh
  · exact contained.specs sup old
  · rw [mem_singleton.mp fresh]
    intro spec inNone
    cases inNone

theorem contained_update (id : FlowId) (change : FlowRecord → FlowRecord) :
    Contained config (sys.update id change) := ⟨contained.starts, contained.specs⟩

theorem contained_finalize (flow : FlowRecord) (outcome : FlowOutcome) :
    Contained config (sys.finalizeFlow flow outcome) := by
  have rest : Contained config { sys with flows := sys.flows.filter (·.id ≠ flow.id) } :=
    ⟨contained.starts, contained.specs⟩
  unfold finalizeFlow
  cases flow.supervisor with
  | none => exact rest
  | some index =>
    dsimp only
    cases found : sys.supervisors[index]? with
    | none => exact rest
    | some sup => exact contained_set_supervisor rest index _ (contained.specs sup (mem_of_getElem? found))

theorem contained_spawn_child (index : Nat) (sup : Supervisor) (spec : ChildSpec)
    (env : SpawnEnv) (nameFree : Bool) (specs : SpecsConfined config sup)
    (confines : ∀ starter, spec.starter = some starter → Confines config starter) :
    Contained config (spawnChild config sys index sup spec env nameFree).1 := by
  unfold spawnChild
  cases spawned : spawnOn config sup.chunk spec.function spec.args spec.restart (some index) none none env with
  | error e => exact contained_set_supervisor contained index sup specs
  | ok flow =>
    have authority := spawn_on_authority spawned
    simp only [spawnAuthority, Option.getD_none, Except.ok.injEq] at authority
    refine contained_set_supervisor (contained_add_flow contained spec.starter flow fun starter isStarter => ?_) index _ ?_
    · rw [← authority]
      exact (confines_iff config starter env.id 0).mp (confines starter isStarter)
    · intro other member
      rcases mem_specs_iff.mp member with inTable | others
      · rcases inserted_specs inTable with rfl | old
        · exact confines
        · exact specs other (mem_specs_iff.mpr (Or.inl old))
      · exact specs other (mem_specs_iff.mpr (Or.inr others))

omit contained in
-- The checks before StartChild asks its supervisor.
def asksForChild (flow : FlowRecord) (function : UInt32) (policy : UInt8) : Bool :=
  (RestartPolicy.fromU8 policy).isSome && (flow.chunk.function function).any (·.arity = 0) && (linkFor flow).isSome

omit contained in
-- A StartChild that asks a supervisor is executed by a flow that holds SPAWN
-- and everything the root policy mints.
def StartChildConfines (config : SpawnConfig) (sys : SpawnSystem) : SpawnEvent → Prop
  | .startChild id function policy _ => ∀ flow, sys.find id = some flow → asksForChild flow function policy = true →
      Confines config flow.authority
  | _ => True

theorem contained_start_supervisor (flow : FlowRecord) (strategy : UInt8) :
    Contained config (sys.startSupervisor flow strategy) := by
  unfold startSupervisor
  split
  · exact contained_finalize contained flow _
  split
  · exact contained_finalize contained flow _
  · split
    · exact contained_finalize contained flow _
    · exact contained_update (contained_add_supervisor contained _ _ _ _) flow.id _

theorem contained_start_child (flow : FlowRecord) (function : UInt32)
    (policy : UInt8) (env : SpawnEnv) (confines : asksForChild flow function policy = true → Confines config flow.authority) :
    Contained config (startChild config sys flow function policy env) := by
  have fails : ∀ message, Contained config (sys.finishFailed flow message) :=
    fun message => contained_finalize contained flow (.failed message)
  unfold startChild
  cases known : RestartPolicy.fromU8 policy with
  | none => exact fails _
  | some policy =>
    dsimp only
    cases row : flow.chunk.function function with
    | none => exact fails _
    | some fn =>
      dsimp only
      by_cases takesArgs : fn.arity ≠ 0
      · rw [if_pos takesArgs]
        exact fails _
      · rw [if_neg takesArgs]
        cases linked : linkFor flow with
        | none => exact fails _
        | some index =>
          dsimp only
          cases found : sys.supervisors[index]? with
          | none => exact contained
          | some sup =>
            have started := contained_spawn_child contained index sup
              ⟨"", function, [], policy, some flow.authority⟩ env true
              (contained.specs sup (mem_of_getElem? found))
              (fun starter same => Option.some.inj same ▸ confines (by simp_all [asksForChild]))
            dsimp only
            revert started
            rcases spawnChild config sys index sup ⟨"", function, [], policy, some flow.authority⟩ env true with
              ⟨next, _ | e⟩
            · exact fun started => started
            · exact fun started => contained_finalize started flow _

theorem contained_respawn (index : Nat) (sup : Supervisor) (env : SpawnEnv)
    (nameFree : Bool) (specs : SpecsConfined config sup) (after : SpawnSystem)
    (stepped : respawn config sys index sup env nameFree = some after) : Contained config after := by
  have kept : ∀ phase : DrivePhase, (∀ spec ∈ phase.specs, spec ∈ sup.phase.specs) →
      SpecsConfined config { sup with phase := phase } := by
    intro phase smaller spec member
    refine specs spec (mem_specs_iff.mpr ?_)
    rcases mem_specs_iff.mp member with inTable | inCascade | inPhase
    · exact Or.inl inTable
    · exact Or.inr (Or.inl inCascade)
    · exact Or.inr (Or.inr (smaller spec inPhase))
  have pending : ∀ spec ∈ sup.phase.specs, ∀ starter, spec.starter = some starter → Confines config starter :=
    fun spec member => specs spec (mem_specs_iff.mpr (Or.inr (Or.inr member)))
  have idle := kept .idle (fun _ inNone => absurd inNone not_mem_nil)
  unfold respawn at stepped
  split at stepped
  · rename_i spec phase
    cases stepped
    exact contained_spawn_child contained index _ spec env nameFree idle
      (pending spec (by rw [phase]; exact mem_singleton.mpr rfl))
  · cases stepped
    exact contained_set_supervisor contained index _ idle
  · rename_i spec rest phase
    split at stepped
    · cases stepped
      exact contained_set_supervisor contained index _ idle
    · cases stepped
      refine contained_spawn_child contained index _ spec env nameFree (kept (.respawnWave rest) ?_)
        (pending spec (by rw [phase]; exact mem_cons_self))
      intro other inRest
      rw [phase]
      exact mem_cons_of_mem spec inRest
  · cases stepped

theorem supervisor_known {index : Nat} {taken : Supervisor → Option SpawnSystem} {after : SpawnSystem}
    (stepped : (match sys.supervisors[index]? with
      | none => none
      | some sup => taken sup) = some after) : ∃ sup, SpecsConfined config sup ∧ taken sup = some after := by
  split at stepped
  · cases stepped
  · rename_i sup found
    exact ⟨sup, contained.specs _ (mem_of_getElem? found), stepped⟩

theorem contained_step (event : SpawnEvent)
    (meets : StartChildConfines config sys event) (after : SpawnSystem) (stepped : next config sys event = some after) :
    Contained config after := by
  have hosted : ∀ flow : FlowRecord, (Start.mk none flow.authority).Confined := fun _ _ isStarter => by cases isStarter
  cases event with
  | hostSpawn chunk function args policy restart env =>
    simp only [next] at stepped
    cases spawned : spawnOn config chunk function args restart none none policy env with
    | error e =>
      rw [spawned] at stepped
      cases stepped
      exact contained
    | ok flow =>
      rw [spawned] at stepped
      cases stepped
      exact contained_add_flow contained none flow (hosted flow)
  | hostSupervisor chunk strategy maxRestarts maxPeriod =>
    cases stepped
    exact contained_add_supervisor contained _ _ _ _
  | hostStartChild index name function args restart env nameFree =>
    obtain ⟨sup, specs, same⟩ := supervisor_known contained stepped
    cases same
    exact contained_spawn_child contained index sup _ env nameFree specs fun _ same => by cases same
  | spawn id function args rights rateOk env =>
    simp only [next] at stepped
    split at stepped
    · cases stepped
    rename_i parent found
    cases spawned : spawnOn config parent.chunk function args parent.restartPolicy none
        (some ⟨parent.authority, parent.cell, rateOk, rights⟩) none env with
    | error e =>
      rw [spawned] at stepped
      cases stepped
      exact contained_finalize contained parent _
    | ok child =>
      rw [spawned] at stepped
      cases stepped
      refine contained_add_flow contained _ child fun starter same => ?_
      cases same
      have authority := spawn_on_authority spawned
      simp only [spawnAuthority] at authority
      split at authority
      · rename_i granted
        cases authority
        exact exec_spawn_authority_confined granted
      · cases authority
  | startSupervisor id strategy =>
    obtain ⟨flow, _, rfl⟩ := Option.map_eq_some_iff.mp stepped
    exact contained_start_supervisor contained flow strategy
  | startChild id function policy env =>
    obtain ⟨flow, found, rfl⟩ := Option.map_eq_some_iff.mp stepped
    exact contained_start_child contained flow function policy env (meets flow found)
  | setRestartPolicy id policy | revoke id =>
    cases stepped
    exact contained_update contained id _
  | finalize id outcome =>
    obtain ⟨flow, _, rfl⟩ := Option.map_eq_some_iff.mp stepped
    exact contained_finalize contained flow outcome
  | takeExit index now =>
    obtain ⟨sup, specs, stepped⟩ := supervisor_known contained stepped
    split at stepped
    · cases stepped
      refine contained_set_supervisor contained index _ fun spec member => specs spec ?_
      have before := handle_exit_specs _ _ member
      rw [mem_specs_iff] at before ⊢
      exact before
    · cases stepped
  | prune index directory =>
    obtain ⟨sup, specs, stepped⟩ := supervisor_known contained stepped
    split at stepped
    · cases stepped
      exact contained_set_supervisor contained index _ fun spec member => specs spec (prune_specs _ member)
    · cases stepped
  | respawn index env nameFree =>
    obtain ⟨sup, specs, stepped⟩ := supervisor_known contained stepped
    exact contained_respawn contained index sup env nameFree specs after stepped

end Steps

theorem started_flows_confined (config : SpawnConfig) (sys : SpawnSystem)
    (reached : Reach (next config) (StartChildConfines config) initial sys) :
    ∀ start ∈ sys.starts, start.Confined := by
  have contained : Contained config sys := by
    refine reach_invariant ⟨fun _ inNone => ?_, fun _ inNone => ?_⟩
      (fun before event after contained meets taken => contained_step contained event meets after taken) reached
    · cases inNone
    · cases inNone
  exact contained.starts

def idleChunk : Chunk :=
  { name := "idle", constants := [], code := [{ op := .halt, a := 0, b := 0, c := 0, imm := 0 }],
    functions := [{ name := "main", entry := 0, arity := 0, numRegisters := 1 }] }

def restartEvents : List SpawnEvent :=
  [.hostSpawn idleChunk 0 [] none .never ⟨1, none, none⟩, .startSupervisor 1 0, .startChild 1 0 0 ⟨2, none, none⟩,
    .spawn 1 0 [] .SPAWN true ⟨9, none, none⟩, .finalize 2 (.failed "fault"), .takeExit 0 7,
    .respawn 0 ⟨3, none, none⟩ true]

theorem restarted_child_confined : ∃ sys,
    Reach (next ⟨.restricted, 4⟩) (StartChildConfines ⟨.restricted, 4⟩) initial sys ∧ sys.starts.length = 4 ∧
      ∀ start ∈ sys.starts, start.Confined := by
  obtain ⟨sys, played, length⟩ : ∃ sys, play (next ⟨.restricted, 4⟩) initial restartEvents = some sys ∧
      sys.starts.length = 4 := ⟨_, rfl, rfl⟩
  have reached : Reach (next ⟨.restricted, 4⟩) (StartChildConfines ⟨.restricted, 4⟩) initial sys := by
    refine reach_of_play restartEvents initial ?_ played
    refine ⟨trivial, trivial, fun flow found _ => ?_, trivial, trivial, trivial, trivial, trivial⟩
    cases found
    exact ⟨by decide, by decide⟩
  exact ⟨sys, reached, length, started_flows_confined ⟨.restricted, 4⟩ sys reached⟩

def escalationEvents : List SpawnEvent :=
  [.hostSpawn idleChunk 0 [] none .never ⟨1, none, none⟩, .spawn 1 0 [] .SPAWN true ⟨2, none, none⟩,
    .startSupervisor 2 0, .startChild 2 0 0 ⟨3, none, none⟩]

theorem start_child_escalates : ∃ sys,
    Reach (next ⟨.trustedHost, 1⟩) (fun _ _ => True) initial sys ∧ ∃ start ∈ sys.starts, ¬ start.Confined := by
  obtain ⟨sys, played, starter, authority, newest, weak, strong⟩ : ∃ sys,
      play (next ⟨.trustedHost, 1⟩) initial escalationEvents = some sys ∧
      ∃ starter authority, sys.starts.head? = some ⟨some starter, authority⟩ ∧
        starter.rights = .SPAWN ∧ authority.rights = .ROOT := ⟨_, rfl, _, _, rfl, by decide, rfl⟩
  refine ⟨sys, reach_of_play escalationEvents initial (all_meet_of_forall (fun _ _ => trivial) _ _) played,
    _, mem_of_mem_head? newest, fun confined => ?_⟩
  have contained := (confined starter rfl).2.1
  rw [weak, strong] at contained
  exact absurd contained (by decide)

end SpawnSystem

end Byteflow
