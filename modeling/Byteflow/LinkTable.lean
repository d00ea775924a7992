import Byteflow.CapTable
import Byteflow.IndexedRows

namespace Byteflow

open List
open IndexedRows (Agrees empty_agrees insert_agrees insert_rows remove_agrees remove_rows sweep_spec)

abbrev LinkId := Nat

def MAX_LINK_ID : Nat := 2 ^ 63 - 1

structure Link where
  a : FlowId
  b : FlowId
deriving DecidableEq, Repr

def Link.Mentions (link : Link) (flow : FlowId) : Prop := link.a = flow ∨ link.b = flow

instance (link : Link) (flow : FlowId) : Decidable (link.Mentions flow) := inferInstanceAs (Decidable (_ ∨ _))

def Link.peerOf (link : Link) (flow : FlowId) : FlowId := if link.a = flow then link.b else link.a

inductive LifecycleError where
  | noSuchFlow (flow : FlowId)
  | invalidCapability | invalidMonitor | invalidLink | notOwner | alreadyRegistered | alreadyLinked | emptyName
  | selfRelation | unavailable
  | linkLimitReached (limit : Nat)
  | monitorLimitReached (limit : Nat)
  | registryLimitReached (limit : Nat)
deriving DecidableEq, Repr

-- The keys of by_flow and of pairs.
inductive LinkName where
  | flow (flow : FlowId)
  | pair (flows : FlowId × FlowId)
deriving DecidableEq

-- The map links with by_flow and pairs. pairs holds one id for a pair:
-- has_pair refuses a second.
abbrev LinkTable := IndexedRows LinkId Link LinkName

namespace LinkTable

def new : LinkTable := .empty

abbrev links (table : LinkTable) : List (LinkId × Link) := table.rows

def pairKey (a b : FlowId) : FlowId × FlowId := if a ≤ b then (a, b) else (b, a)

def mentions (link : Link) : List LinkName := [.flow link.a, .flow link.b, .pair (pairKey link.a link.b)]

def hasPair (table : LinkTable) (a b : FlowId) : Bool := a ≠ b && (table.index (.pair (pairKey a b))).isSome

def insert (table : LinkTable) (id : LinkId) (a b : FlowId) : LinkTable := IndexedRows.insert mentions table id ⟨a, b⟩

def unlinkId (table : LinkTable) (id : LinkId) : LinkTable × Option Link := table.remove mentions id

def unlinkOwned (table : LinkTable) (owner : FlowId) (id : LinkId) : LinkTable × Except LifecycleError Unit :=
  match table.links.lookup id with
  | some link => if link.a = owner ∨ link.b = owner then ((table.unlinkId id).1, .ok ()) else (table, .error .notOwner)
  | none => (table, .error .invalidLink)

def removeLinksOf (table : LinkTable) (target : FlowId) : LinkTable × List (LinkId × FlowId) :=
  let (after, taken) := table.sweep mentions (.flow target)
  (after, (taken.map fun row => (row.1, row.2.peerOf target)).mergeSort fun row other => row.1 ≤ other.1)

structure Lockstep (table : LinkTable) : Prop where
  agrees : Agrees mentions table
  distinct : ∀ id link, (id, link) ∈ table.links → link.a ≠ link.b
  single : ∀ row ∈ table.links, ∀ other ∈ table.links, pairKey row.2.a row.2.b = pairKey other.2.a other.2.b → row = other

section Rows

variable {table : LinkTable} {link : Link}

theorem new_lockstep : Lockstep new := ⟨empty_agrees, nofun, nofun⟩

theorem Lockstep.unique (agrees : Lockstep table) : (table.links.map Prod.fst).Nodup := agrees.agrees.unique

theorem lockstep_sublist {after : LinkTable} (agrees : Lockstep table) (kept : Agrees mentions after)
    (fewer : ∀ row ∈ after.links, row ∈ table.links) : Lockstep after :=
  ⟨kept, fun id link row => agrees.distinct id link (fewer _ row),
    fun row member other there => agrees.single row (fewer row member) other (fewer other there)⟩

theorem insert_lockstep (agrees : Lockstep table) {id : LinkId} {a b : FlowId} (different : a ≠ b)
    (unlinked : table.hasPair a b = false) (fresh : ∀ link, (id, link) ∉ table.links) : Lockstep (table.insert id a b) := by
  have absent : id ∉ table.links.map Prod.fst := by
    intro member
    obtain ⟨⟨_, link⟩, row, rfl⟩ := mem_map.mp member
    exact fresh link row
  have free : table.index (.pair (pairKey a b)) = none := by simpa [hasPair, different] using unlinked
  have alone : ∀ row ∈ table.links, pairKey row.2.a row.2.b ≠ pairKey a b := by
    intro row member same
    have listed := (agrees.agrees.listed (.pair (pairKey a b)) row.1).mpr ⟨row.2, member, by simp [mentions, same]⟩
    rw [Buckets.keys, free] at listed
    cases listed
  have rows : (table.insert id a b).links = (id, ⟨a, b⟩) :: table.links := insert_rows absent
  refine ⟨insert_agrees agrees.agrees _ absent, fun other link row => ?_, fun row member other there same => ?_⟩
  · rw [rows] at row
    rcases mem_cons.mp row with new | old
    · cases new
      exact different
    · exact agrees.distinct other link old
  · rw [rows] at member there
    rcases mem_cons.mp member with rfl | old <;> rcases mem_cons.mp there with rfl | oldOther
    · rfl
    · exact absurd same.symm (alone other oldOther)
    · exact absurd same (alone row old)
    · exact agrees.single row old other oldOther same

theorem unlink_id_spec (agrees : Lockstep table) (id : LinkId) :
    Lockstep (table.unlinkId id).1 ∧
      (∀ other row, (other, row) ∈ (table.unlinkId id).1.links ↔ (other, row) ∈ table.links ∧ other ≠ id) ∧
      ((table.unlinkId id).2.isSome = true ↔ ∃ link, (id, link) ∈ table.links) := by
  have rows : (table.unlinkId id).1.links = Assoc.remove id table.links := remove_rows id
  refine ⟨lockstep_sublist agrees (remove_agrees agrees.agrees id) fun row member => ?_, fun other row => ?_, ?_⟩
  · rw [rows] at member
    exact (Assoc.mem_remove.mp member).1
  · rw [rows, Assoc.mem_remove]
  · rw [unlinkId, IndexedRows.remove]
    cases found : table.rows.lookup id with
    | none =>
      have absent := Assoc.lookup_none_absent found
      simp only [Option.isSome_none, Bool.false_eq_true, false_iff, not_exists]
      exact fun link row => absent (mem_map_of_mem row)
    | some link => simpa using ⟨link, Assoc.mem_of_lookup found⟩

theorem peer_mentions {target : FlowId} (distinct : link.a ≠ link.b) (mentions : link.Mentions target)
    {flow : FlowId} (other : flow ≠ target) : link.Mentions flow ↔ flow = link.peerOf target := by
  rcases mentions with rfl | rfl
  · simp only [Link.Mentions, Link.peerOf, if_true]
    constructor
    · rintro (same | same)
      · exact absurd same.symm other
      · exact same.symm
    · exact fun same => Or.inr same.symm
  · simp only [Link.Mentions, Link.peerOf, if_neg distinct]
    constructor
    · rintro (same | same)
      · exact same.symm
      · exact absurd same.symm other
    · exact fun same => Or.inl same.symm

theorem mem_mentions {flow : FlowId} : .flow flow ∈ mentions link ↔ link.Mentions flow := by
  simp [mentions, Link.Mentions, eq_comm]

theorem remove_links_of_rows (agrees : Lockstep table) (target : FlowId) :
    Lockstep (table.removeLinksOf target).1 ∧
      (table.removeLinksOf target).1.links = table.links.filter (fun row => ¬ row.2.Mentions target) ∧
      (table.removeLinksOf target).2.Perm
        ((table.links.filter fun row => row.2.Mentions target).map fun row => (row.1, row.2.peerOf target)) := by
  obtain ⟨kept, left, taken⟩ := sweep_spec agrees.agrees (.flow target)
  simp only [mem_mentions] at left taken
  have rows : (table.removeLinksOf target).1.links = _ := left
  refine ⟨lockstep_sublist agrees kept fun row member => ?_, rows, (mergeSort_perm _ _).trans (taken.map _)⟩
  rw [rows] at member
  exact (mem_filter.mp member).1

theorem remove_links_of_spec (agrees : Lockstep table) (target : FlowId) :
    Lockstep (table.removeLinksOf target).1 ∧
      (∀ id link, (id, link) ∈ (table.removeLinksOf target).1.links ↔ (id, link) ∈ table.links ∧ ¬ link.Mentions target) ∧
      (∀ id peer, (id, peer) ∈ (table.removeLinksOf target).2 ↔
        ∃ link, (id, link) ∈ table.links ∧ link.Mentions target ∧ peer = link.peerOf target) ∧
      ((table.removeLinksOf target).2.map Prod.fst).Nodup := by
  obtain ⟨kept, left, taken⟩ := remove_links_of_rows agrees target
  refine ⟨kept, fun id link => by simp [left], fun id peer => ?_, (taken.map Prod.fst).nodup_iff.mpr ?_⟩
  · rw [taken.mem_iff, mem_map]
    constructor
    · rintro ⟨⟨other, link⟩, member, same⟩
      cases same
      exact ⟨link, by simpa using member⟩
    · rintro ⟨link, row, named, rfl⟩
      exact ⟨(id, link), by simpa using ⟨row, named⟩, rfl⟩
  · rw [map_map]
    exact (filter_sublist.map Prod.fst).nodup agrees.unique

end Rows

end LinkTable

end Byteflow
