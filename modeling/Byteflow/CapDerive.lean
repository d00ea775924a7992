import Byteflow.CapRace

namespace Byteflow

open CapTable List

def CapError.ofMint {α : Type} : Except MintError α → Except CapError α
  | .ok a => .ok a
  | .error _ => .error .unavailable

namespace CapTable

def grant (table : CapTable) (entry : Capability) (draws : CapDraws) : CapTable × Except MintError CapId :=
  table.insert entry draws

def mint (table : CapTable) (holder target : FlowId) (rights : CapRights) (draws : CapDraws) :
    CapTable × Except MintError CapId :=
  let (bound, cell) := table.bindFlow target
  bound.grant ⟨holder, Cap.root (.flow target) rights none (bound.epoch cell), bound.generation target⟩ draws

def attenuate (table : CapTable) (id : CapId) (fromHolder toHolder : FlowId) (wantRights : CapRights)
    (wantNative : Option NativeMask) (draws : CapDraws) : CapTable × Except CapError CapId :=
  match table.resolve id fromHolder .NONE with
  | .error e => (table, .error e)
  | .ok src =>
    match src.cap.target with
    | .nativeTable | .scheduler => (table, .error .wrongTarget)
    | target =>
      match table.cellOf target with
      | none => (table, .error .unknown)
      | some cell =>
        match execDelegate src.cap (table.epoch cell) wantRights wantNative with
        | .error e => (table, .error (.ofDelegate e))
        | .ok narrowed =>
          if narrowed.isValid (table.epoch cell) then
            let (after, inserted) := table.insert ⟨toHolder, narrowed, src.born⟩ draws
            (after, CapError.ofMint inserted)
          else (table, .error .unknown)

def delegate (table : CapTable) (id : CapId) (fromHolder toHolder : FlowId) (draws : CapDraws) :
    CapTable × Except CapError CapId :=
  match table.resolve id fromHolder .NONE with
  | .error e => (table, .error e)
  | .ok src => table.attenuate id fromHolder toHolder src.cap.rights src.cap.nativeMask draws

def reissueFor (table : CapTable) (id : CapId) (newHolder : FlowId) (draws : CapDraws) :
    CapTable × Except CapError CapId :=
  match table.lookup id with
  | none => (table, .error .unknown)
  | some entry =>
    if table.isLive entry.cap then
      let (after, inserted) :=
        table.insert ⟨newHolder, entry.cap.attenuate entry.cap.rights entry.cap.nativeMask, entry.born⟩ draws
      (after, CapError.ofMint inserted)
    else (table, .error .unknown)

section Specs

variable {table : CapTable}

structure Inserted (table : CapTable) (entry : Capability) (draws : CapDraws) (id : CapId) (after : CapTable) : Prop where
  grown : after = { table with entries := (id, entry) :: table.entries }
  free : table.entries.lookup id = none
  some_ : id ≠ .NONE
  drawn : .ok id ∈ draws

theorem insert_spec (table : CapTable) (entry : Capability) (draws : CapDraws) :
    (∃ e, table.insert entry draws = (table, .error e)) ∨
      ∃ id after, table.insert entry draws = (after, .ok id) ∧ Inserted table entry draws id after := by
  rw [insert]
  cases inserted : insertFresh table.entries entry (draws.take MINT_ATTEMPTS) with
  | error e => exact Or.inl ⟨e, rfl⟩
  | ok result =>
    obtain ⟨id, entries⟩ := result
    obtain ⟨rows, free, some_, drawn⟩ := insert_fresh_ok inserted
    exact Or.inr ⟨id, _, rfl, by rw [rows], free, some_, mem_of_mem_take drawn⟩

theorem is_live_iff (cap : Cap) :
    table.isLive cap = true ↔ ∃ cell, table.cellOf cap.target = some cell ∧ cap.epoch = table.epoch cell := by
  rw [isLive]
  cases bound : table.cellOf cap.target with
  | none => simp
  | some cell => simp [Cap.isValid]

theorem lookup_mem {id : CapId} {entry : Capability} (found : table.lookup id = some entry) :
    id ≠ .NONE ∧ table.entries.lookup id = some entry ∧ (id, entry) ∈ table.entries := by
  rw [lookup] at found
  split at found
  · cases found
  rename_i none_
  exact ⟨none_, found, Assoc.mem_of_lookup found⟩

section Reply

variable {holder target : FlowId} {rights : CapRights} {draws : CapDraws}

theorem reply_cap_is_live_iff {id : CapId} : table.replyCapIsLive id holder target rights = true ↔
    ∃ entry, table.entries.lookup id = some entry ∧ entry.holder = holder ∧ entry.cap.target = .flow target ∧
      entry.cap.rights.contains rights = true ∧ table.isLive entry.cap = true := by
  rw [replyCapIsLive]
  cases table.entries.lookup id with
  | none => simp
  | some entry => simp [and_assoc]

theorem reply_cap_iff (holder target : FlowId) (rights : CapRights) (id : CapId) :
    table.replyCap holder target rights = some id ↔ table.replyIndex.lookup (holder, target) = some id ∧
      ∃ entry, table.entries.lookup id = some entry ∧ entry.holder = holder ∧ entry.cap.target = .flow target ∧
        entry.cap.rights.contains rights = true ∧ table.isLive entry.cap = true := by
  rw [← reply_cap_is_live_iff, replyCap]
  cases table.replyIndex.lookup (holder, target) with
  | none => simp
  | some found =>
    dsimp only
    split
    case isTrue live =>
      constructor
      · rintro ⟨⟩
        exact ⟨rfl, live⟩
      · rintro ⟨⟨⟩, _⟩
        rfl
    case isFalse dead =>
      refine ⟨nofun, ?_⟩
      rintro ⟨⟨⟩, live⟩
      exact absurd live dead

def forgotten (table : CapTable) (holder target : FlowId) : CapTable :=
  { table with replyIndex := table.replyIndex.filter (·.1 ≠ (holder, target)) }

def cleared (table : CapTable) (holder target : FlowId) : CapTable := ((table.forgotten holder target).bindFlow target).1

theorem bind_flow_bound (table : CapTable) (flow : FlowId) :
    (table.bindFlow flow).1.flowCells.lookup flow = some (table.bindFlow flow).2 := by
  unfold bindFlow
  cases found : table.flowCells.lookup flow with
  | some cell => exact found
  | none => rw [Assoc.lookup_cons, if_pos rfl]

def replyEntry (table : CapTable) (holder target : FlowId) (rights : CapRights) : Capability :=
  let (bound, cell) := (table.forgotten holder target).bindFlow target
  ⟨holder, Cap.root (.flow target) rights none (bound.epoch cell), bound.generation target⟩

theorem mint_or_reuse_spec (table : CapTable) (holder target : FlowId) (rights : CapRights) (draws : CapDraws) :
    (∃ id, table.replyCap holder target rights = some id ∧ table.mintOrReuse holder target rights draws = (table, .ok id)) ∨
      (∃ e, table.mintOrReuse holder target rights draws = (table.cleared holder target, .error e)) ∨
      ∃ id after, Inserted (table.cleared holder target) (table.replyEntry holder target rights) draws id after ∧
        table.mintOrReuse holder target rights draws =
          ({ after with replyIndex := ((holder, target), id) :: after.replyIndex }, .ok id) := by
  rw [mintOrReuse]
  cases reply : table.replyCap holder target rights with
  | some id => exact Or.inl ⟨id, rfl, rfl⟩
  | none =>
    refine Or.inr ?_
    have minted : (table.forgotten holder target).mintReply holder target rights draws =
        (table.cleared holder target).insert (table.replyEntry holder target rights) draws := rfl
    simp only [forgotten] at minted
    dsimp only
    rw [minted]
    rcases insert_spec (table.cleared holder target) (table.replyEntry holder target rights) draws with
      ⟨e, failed⟩ | ⟨id, after, done, inserted⟩
    · rw [failed]
      exact Or.inl ⟨e, rfl⟩
    · rw [done]
      exact Or.inr ⟨id, after, inserted, rfl⟩

theorem mint_or_reuse_replies {id : CapId} (done : (table.mintOrReuse holder target rights draws).2 = .ok id) :
    (table.mintOrReuse holder target rights draws).1.replyCap holder target rights = some id := by
  rcases mint_or_reuse_spec table holder target rights draws with ⟨found, reply, reused⟩ | ⟨e, failed⟩ | ⟨new, after, inserted, minted⟩
  · rw [reused] at done ⊢
    cases done
    exact reply
  · rw [failed] at done
    cases done
  · rw [minted] at done ⊢
    cases done
    have listed : after.entries.lookup id = some (table.replyEntry holder target rights) := by
      rw [inserted.grown, Assoc.lookup_cons, if_pos rfl]
    have bound := bind_flow_bound (table.forgotten holder target) target
    have flows : after.flowCells = (table.cleared holder target).flowCells := by rw [inserted.grown]
    have cells : after.cells = (table.cleared holder target).cells := by rw [inserted.grown]
    refine (reply_cap_iff holder target rights id).mpr ⟨lookup_cons_self, _, listed, rfl, rfl, CapRights.contains_refl rights,
      (is_live_iff _).mpr ⟨_, (congrArg _ flows).trans bound, ?_⟩⟩
    exact congrArg (List.getD · _ 0) cells.symm

end Reply

-- What attenuate, delegate and reissue_for do: nothing, or one insertion of a
-- narrowed copy of an entry that is there.
inductive Derives (table : CapTable) (id : CapId) (toHolder : FlowId) (draws : CapDraws) (allowed : Capability → Prop) :
    CapTable × Except CapError CapId → Prop where
  | refused (e : CapError) : Derives table id toHolder draws allowed (table, .error e)
  | derived (src : Capability) (wantRights : CapRights) (wantNative : Option NativeMask) (new : CapId) (after : CapTable)
      (found : table.lookup id = some src) (held : allowed src)
      (inserted : Inserted table ⟨toHolder, src.cap.attenuate wantRights wantNative, src.born⟩ draws new after) :
      Derives table id toHolder draws allowed (after, .ok new)

theorem insert_derives {id : CapId} {toHolder : FlowId} {draws : CapDraws} {allowed : Capability → Prop} {src : Capability}
    (found : table.lookup id = some src) (held : allowed src) (wantRights : CapRights) (wantNative : Option NativeMask) :
    Derives table id toHolder draws allowed
      (let (after, inserted) := table.insert ⟨toHolder, src.cap.attenuate wantRights wantNative, src.born⟩ draws
      (after, CapError.ofMint inserted)) := by
  rcases insert_spec table ⟨toHolder, src.cap.attenuate wantRights wantNative, src.born⟩ draws with
    ⟨e, failed⟩ | ⟨new, after, done, inserted⟩
  · rw [failed]
    exact .refused _
  · rw [done]
    exact .derived src wantRights wantNative new after found held inserted

theorem attenuate_derives (id : CapId) (fromHolder toHolder : FlowId) (wantRights : CapRights)
    (wantNative : Option NativeMask) (draws : CapDraws) :
    Derives table id toHolder draws (fun src => src.holder = fromHolder)
      (table.attenuate id fromHolder toHolder wantRights wantNative draws) := by
  rw [attenuate]
  cases resolved : table.resolve id fromHolder .NONE with
  | error e => exact .refused e
  | ok src =>
    obtain ⟨found, held, _⟩ := (resolve_ok_iff _ _ _ _).mp resolved
    dsimp only
    cases src.cap.target with
    | nativeTable | scheduler => exact .refused _
    | flow _ | table _ =>
      dsimp only
      split
      · exact .refused _
      · rename_i cell bound
        cases delegated : execDelegate src.cap (table.epoch cell) wantRights wantNative with
        | error e => exact .refused _
        | ok narrowed =>
          obtain rfl := CapRace.exec_delegate_ok delegated
          dsimp only
          split
          · exact insert_derives found held wantRights wantNative
          · exact .refused _

theorem delegate_derives (id : CapId) (fromHolder toHolder : FlowId) (draws : CapDraws) :
    Derives table id toHolder draws (fun src => src.holder = fromHolder)
      (table.delegate id fromHolder toHolder draws) := by
  rw [delegate]
  cases table.resolve id fromHolder .NONE with
  | error e => exact .refused e
  | ok src => exact attenuate_derives id fromHolder toHolder _ _ draws

theorem reissue_for_derives (id : CapId) (newHolder : FlowId) (draws : CapDraws) :
    Derives table id newHolder draws (fun _ => True) (table.reissueFor id newHolder draws) := by
  rw [reissueFor]
  cases found : table.lookup id with
  | none => exact .refused _
  | some entry =>
    dsimp only
    by_cases live : table.isLive entry.cap = true
    · rw [if_pos live]
      exact insert_derives found trivial _ _
    · rw [if_neg live]
      exact .refused _

end Specs

end CapTable

-- A caller of the table. draws are the random ids the call may see.
inductive CapCommand where
  | bindFlow (flow : FlowId)
  | bindTable (id : UInt64)
  | grant (entry : Capability) (draws : CapDraws)
  | mint (holder target : FlowId) (rights : CapRights) (draws : CapDraws)
  | mintOrReuse (holder target : FlowId) (rights : CapRights) (draws : CapDraws)
  | attenuate (id : CapId) (fromHolder toHolder : FlowId) (wantRights : CapRights) (wantNative : Option NativeMask)
      (draws : CapDraws)
  | delegate (id : CapId) (fromHolder toHolder : FlowId) (draws : CapDraws)
  | reissueFor (id : CapId) (newHolder : FlowId) (draws : CapDraws)
  | revokeTable (id : UInt64)
  | revokeFlow (flow : FlowId)

namespace CapCommand

def apply (table : CapTable) : CapCommand → CapTable
  | .bindFlow flow => (table.bindFlow flow).1
  | .bindTable id => table.bindTable id
  | .grant entry draws => (table.grant entry draws).1
  | .mint holder target rights draws => (table.mint holder target rights draws).1
  | .mintOrReuse holder target rights draws => (table.mintOrReuse holder target rights draws).1
  | .attenuate id fromHolder toHolder wantRights wantNative draws =>
    (table.attenuate id fromHolder toHolder wantRights wantNative draws).1
  | .delegate id fromHolder toHolder draws => (table.delegate id fromHolder toHolder draws).1
  | .reissueFor id newHolder draws => (table.reissueFor id newHolder draws).1
  | .revokeTable id => table.revokeTable id
  | .revokeFlow flow => table.revokeFlow flow

def isRoot : CapCommand → Bool
  | .grant .. | .mint .. | .mintOrReuse .. => true
  | _ => false

def run (commands : List CapCommand) : CapTable := commands.foldl apply .new

def CreatedByRoot (commands : List CapCommand) (row : CapId × Capability) : Prop :=
  ∃ earlier command later, commands = earlier ++ command :: later ∧ command.isRoot = true ∧
    row ∈ (run (earlier ++ [command])).entries ∧ row ∉ (run earlier).entries

inductive Origin (table : CapTable) (command : CapCommand) (row : CapId × Capability) : Prop where
  | kept (there : row ∈ table.entries)
  | root (isRoot : command.isRoot = true) (absent : row ∉ table.entries)
  | derived (src : CapId × Capability) (there : src ∈ table.entries) (sameTarget : row.2.cap.target = src.2.cap.target)
      (within : row.2.cap.Within src.2.cap)

section Step

variable {table : CapTable} {command : CapCommand} {draws : CapDraws}

theorem inserted_origin {middle after : CapTable} {entry : Capability} {id : CapId}
    (same : middle.entries = table.entries) (inserted : CapTable.Inserted middle entry draws id after)
    (isRoot : command.isRoot = true) : ∀ row ∈ after.entries, Origin table command row := by
  intro row member
  rw [inserted.grown] at member
  rcases mem_cons.mp member with rfl | old
  · refine .root isRoot fun there => ?_
    have listed := inserted.free
    rw [lookup_eq_none_iff, same] at listed
    simpa using listed (id, entry) there
  · exact .kept (same ▸ old)

theorem insert_origin {middle : CapTable} {entry : Capability} (same : middle.entries = table.entries)
    (isRoot : command.isRoot = true) : ∀ row ∈ (middle.insert entry draws).1.entries, Origin table command row := by
  rcases insert_spec middle entry draws with ⟨e, failed⟩ | ⟨id, after, done, inserted⟩
  · rw [failed]
    exact fun row member => .kept (same ▸ member)
  · rw [done]
    exact inserted_origin same inserted isRoot

theorem derives_origin {id : CapId} {toHolder : FlowId} {allowed : Capability → Prop}
    {result : CapTable × Except CapError CapId} (derives : CapTable.Derives table id toHolder draws allowed result) :
    ∀ row ∈ result.1.entries, Origin table command row := by
  intro row member
  cases derives with
  | refused e => exact .kept member
  | derived src wantRights wantNative new after found held inserted =>
    rw [inserted.grown] at member
    rcases mem_cons.mp member with rfl | old
    · exact .derived (id, src) (lookup_mem found).2.2 rfl (Cap.attenuate_within src.cap wantRights wantNative)
    · exact .kept old

theorem apply_origin (table : CapTable) (command : CapCommand) :
    ∀ row ∈ (apply table command).entries, Origin table command row := by
  intro row member
  cases command with
  | bindFlow flow =>
    rw [apply, CapRace.bind_flow_entries] at member
    exact .kept member
  | bindTable id => exact .kept member
  | grant entry draws => exact insert_origin rfl rfl row member
  | mint holder target rights draws => exact insert_origin CapRace.bind_flow_entries rfl row member
  | mintOrReuse holder target rights draws =>
    have cleared : (table.cleared holder target).entries = table.entries := CapRace.bind_flow_entries
    rw [apply] at member
    rcases mint_or_reuse_spec table holder target rights draws with ⟨id, _, reused⟩ | ⟨e, failed⟩ | ⟨id, after, inserted, minted⟩
    · rw [reused] at member
      exact .kept member
    · rw [failed] at member
      exact .kept (cleared ▸ member)
    · rw [minted] at member
      exact inserted_origin cleared inserted rfl row member
  | attenuate id fromHolder toHolder wantRights wantNative draws =>
    exact derives_origin (attenuate_derives id fromHolder toHolder wantRights wantNative draws) row member
  | delegate id fromHolder toHolder draws =>
    exact derives_origin (delegate_derives id fromHolder toHolder draws) row member
  | reissueFor id newHolder draws => exact derives_origin (reissue_for_derives id newHolder draws) row member
  | revokeTable | revokeFlow => exact .kept (mem_of_mem_filter member)

end Step

theorem run_snoc (commands : List CapCommand) (command : CapCommand) :
    run (commands ++ [command]) = apply (run commands) command := by
  rw [run, foldl_append]
  rfl

theorem created_later {commands : List CapCommand} {row : CapId × Capability} (created : CreatedByRoot commands row)
    (command : CapCommand) : CreatedByRoot (commands ++ [command]) row := by
  obtain ⟨earlier, root, later, rfl, isRoot, added⟩ := created
  exact ⟨earlier, root, later ++ [command], by simp, isRoot, added⟩

theorem rows_from_roots (commands : List CapCommand) :
    ∀ row ∈ (run commands).entries, ∃ root, CreatedByRoot commands root ∧ row.2.cap.target = root.2.cap.target ∧
      row.2.cap.Within root.2.cap := by
  induction commands using List.reverseRecOn with
  | nil => exact forall_mem_nil _
  | append_singleton commands command ih =>
    intro row member
    have after := member
    rw [run_snoc] at member
    cases apply_origin (run commands) command row member with
    | kept there =>
      obtain ⟨root, created, target, within⟩ := ih row there
      exact ⟨root, created_later created command, target, within⟩
    | root isRoot absent => exact ⟨row, ⟨commands, command, [], rfl, isRoot, after, absent⟩, rfl, Cap.within_refl _⟩
    | derived src there sameTarget within =>
      obtain ⟨root, created, target, wider⟩ := ih src there
      exact ⟨root, created_later created command, sameTarget.trans target, Cap.within_trans _ _ _ within wider⟩

theorem capabilities_never_escalate (commands : List CapCommand) :
    (∀ id entry, (id, entry) ∈ (run commands).entries → ∃ rootId root, CreatedByRoot commands (rootId, root) ∧
      entry.cap.target = root.cap.target ∧ entry.cap.Within root.cap) ∧
    ∀ id holder need entry, (run commands).resolve id holder need = .ok entry →
      (run commands).entries.lookup id = some entry ∧ entry.holder = holder ∧ entry.cap.rights.contains need = true ∧
      ∃ cell, (run commands).cellOf entry.cap.target = some cell ∧ entry.cap.epoch = (run commands).epoch cell := by
  refine ⟨fun id entry member => ?_, fun id holder need entry resolved => ?_⟩
  · obtain ⟨⟨rootId, root⟩, created, target, within⟩ := rows_from_roots commands (id, entry) member
    exact ⟨rootId, root, created, target, within⟩
  · obtain ⟨found, held, contains, live⟩ := (resolve_ok_iff _ _ _ _).mp resolved
    exact ⟨(lookup_mem found).2.1, held, contains, (is_live_iff _).mp live⟩

end CapCommand

end Byteflow
