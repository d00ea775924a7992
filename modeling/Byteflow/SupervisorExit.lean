import Byteflow.Supervisor
import Byteflow.Assoc

namespace Byteflow

open ChildTable List

namespace ChildTable

def live (table : ChildTable) : List ChildSpec :=
  table.byId.filterMap fun row => if row.2.expectedShutdown then none else some row.2.spec

def specsOf (table : ChildTable) (ids : List FlowId) : List ChildSpec :=
  ids.filterMap fun id => (table.find id).map (·.spec)

structure Shaped (table : ChildTable) : Prop where
  keys : (table.byId.map Prod.fst).Nodup
  order : table.order.Nodup
  listed : ∀ id, id ∈ table.order ↔ id ∈ table.byId.map Prod.fst

section Rows

variable {table : ChildTable} {id : FlowId} {child : LiveChild}

theorem new_shaped : Shaped new := ⟨nodup_nil, nodup_nil, fun _ => Iff.rfl⟩

theorem insert_shaped (shaped : Shaped table) (fresh : id ∉ table.byId.map Prod.fst) (child : LiveChild) :
    Shaped (table.insert id child) where
  keys := Assoc.insert_distinct id child shaped.keys
  order := by
    refine nodup_append.mpr ⟨shaped.order, by simp, ?_⟩
    rintro other member _ (_ | ⟨_, ⟨⟩⟩) rfl
    exact fresh ((shaped.listed _).mp member)
  listed other := by
    have same : (table.insert id child).byId = (id, child) :: table.byId :=
      congrArg ((id, child) :: ·) (Assoc.remove_absent fresh)
    rw [same, map_cons, mem_cons, ← shaped.listed]
    simp [insert, or_comm]

theorem insert_live (fresh : id ∉ table.byId.map Prod.fst) (child : LiveChild) :
    (table.insert id child).live = if child.expectedShutdown then table.live else child.spec :: table.live := by
  have same : (table.insert id child).byId = (id, child) :: table.byId :=
    congrArg ((id, child) :: ·) (Assoc.remove_absent fresh)
  rw [live, same, filterMap_cons]
  cases child.expectedShutdown <;> rfl

theorem remove_shaped (shaped : Shaped table) (id : FlowId) : Shaped (table.remove id) where
  keys := Assoc.remove_distinct id shaped.keys
  order := shaped.order.filter _
  listed other := by
    simp only [remove, mem_filter, shaped.listed, mem_map, decide_eq_true_eq]
    constructor
    · rintro ⟨⟨row, member, rfl⟩, apart⟩
      exact ⟨row, ⟨member, apart⟩, rfl⟩
    · rintro ⟨row, ⟨member, apart⟩, rfl⟩
      exact ⟨⟨row, member, rfl⟩, apart⟩

theorem remove_live_none (missing : table.find id = none) : (table.remove id).live = table.live := by
  have same : (table.remove id).byId = table.byId := Assoc.remove_absent (Assoc.lookup_none_absent missing)
  rw [live, same, live]

theorem remove_find (table : ChildTable) {other : FlowId} (apart : other ≠ id) :
    (table.remove id).find other = table.find other := by
  rw [find, remove, Assoc.lookup_filter_ne, if_neg apart, find]

theorem specs_of_removed (table : ChildTable) {ids : List FlowId} (absent : id ∉ ids) :
    (table.remove id).specsOf ids = table.specsOf ids :=
  filterMap_congr fun other member => by rw [remove_find table (ne_of_mem_of_not_mem member absent)]

theorem specs_of_cons (found : table.find id = some child) (ids : List FlowId) :
    table.specsOf (id :: ids) = child.spec :: table.specsOf ids := by
  rw [specsOf, filterMap_cons, found]
  rfl

theorem specs_of_append (table : ChildTable) (front back : List FlowId) :
    table.specsOf (front ++ back) = table.specsOf front ++ table.specsOf back := filterMap_append

theorem specs_of_length {ids : List FlowId} (present : ∀ other ∈ ids, ∃ child, table.find other = some child) :
    (table.specsOf ids).length = ids.length := by
  induction ids with
  | nil => rfl
  | cons other rest ih =>
    obtain ⟨child, found⟩ := present other mem_cons_self
    rw [specs_of_cons found]
    exact congrArg (· + 1) (ih fun later member => present later (mem_cons_of_mem _ member))

theorem remove_live_some (shaped : Shaped table) (found : table.find id = some child) :
    table.live.Perm (if child.expectedShutdown then (table.remove id).live else child.spec :: (table.remove id).live) := by
  have rows := (Assoc.perm_remove shaped.keys found).filterMap fun row =>
    if row.2.expectedShutdown then none else some row.2.spec
  rw [filterMap_cons] at rows
  cases marked : child.expectedShutdown <;> simpa [live, remove, Assoc.remove, marked] using rows

theorem expect_shutdown_find (table : ChildTable) (ids : List FlowId) (id : FlowId) :
    (table.expectShutdown ids).find id =
      (table.find id).map fun child => if id ∈ ids then { child with expectedShutdown := true } else child := by
  simp only [find, expectShutdown]
  induction table.byId with
  | nil => rfl
  | cons row rest ih =>
    rw [map_cons, Assoc.lookup_cons, Assoc.lookup_cons, ih]
    by_cases same : id = row.1
    · rw [if_pos same, if_pos same, same, Option.map_some]
    · rw [if_neg same, if_neg same]

theorem expect_shutdown_keys (table : ChildTable) (ids : List FlowId) :
    (table.expectShutdown ids).byId.map Prod.fst = table.byId.map Prod.fst := by
  simp [expectShutdown, Function.comp_def]

theorem expect_shutdown_shaped (shaped : Shaped table) (ids : List FlowId) : Shaped (table.expectShutdown ids) where
  keys := by
    rw [expect_shutdown_keys]
    exact shaped.keys
  order := shaped.order
  listed id := by
    rw [expect_shutdown_keys]
    exact shaped.listed id

theorem expect_shutdown_live (shaped : Shaped table) (ids : List FlowId) (distinct : ids.Nodup)
    (unmarked : ∀ id ∈ ids, ∃ child, table.find id = some child ∧ child.expectedShutdown = false) :
    table.live.Perm ((table.expectShutdown ids).live ++ table.specsOf ids) := by
  induction ids generalizing table with
  | nil =>
    have same : table.expectShutdown [] = table := by simp [expectShutdown]
    rw [same, specsOf, filterMap_nil, append_nil]
  | cons id rest ih =>
    obtain ⟨absent, distinct⟩ := nodup_cons.mp distinct
    obtain ⟨child, found, free⟩ := unmarked id mem_cons_self
    have inner := ih (remove_shaped shaped id) distinct fun other member => by
      rw [remove_find table (ne_of_mem_of_not_mem member absent)]
      exact unmarked other (mem_cons_of_mem _ member)
    rw [specs_of_removed table absent] at inner
    have outer := remove_live_some shaped found
    rw [free, if_neg Bool.false_ne_true] at outer
    have marked : ((table.expectShutdown (id :: rest)).live).Perm ((table.remove id).expectShutdown rest).live := by
      have found : (table.expectShutdown (id :: rest)).find id = some { child with expectedShutdown := true } := by
        rw [expect_shutdown_find, found, Option.map_some, if_pos mem_cons_self]
      have gone := remove_live_some (expect_shutdown_shaped shaped (id :: rest)) found
      rw [if_pos rfl] at gone
      refine gone.trans (List.Perm.of_eq (congrArg (List.filterMap _) ?_))
      simp only [expectShutdown, remove, filter_map]
      refine map_congr_left fun row member => ?_
      have apart : row.1 ≠ id := by simpa using (mem_filter.mp member).2
      simp [apart]
    rw [specs_of_cons found]
    refine (outer.trans (inner.cons child.spec)).trans ?_
    exact perm_middle.symm.trans (marked.symm.append_right _)

end Rows

end ChildTable

namespace Supervisor

def victims (sup : Supervisor) (id : FlowId) : List FlowId :=
  match sup.strategy, sup.children.order.idxOf? id with
  | .oneForAll, _ => (sup.children.remove id).order
  | .restForOne, some i => (sup.children.remove id).order.drop i
  | _, _ => []

-- The exit of a child that is due to be started again.
def restarts (sup : Supervisor) (exit : ChildExit) : Bool :=
  (sup.children.find exit.id).any (!·.expectedShutdown) && shouldRestart exit.restart exit.outcome && !sup.intensityExceeded

-- One more restart at now is one too many.
def overLimit (sup : Supervisor) (now : Nat) : Bool :=
  decide ((pruneRestartWindow (sup.restartTimes ++ [now]) now sup.maxPeriod).length % 2 ^ 32 > sup.maxRestarts)

def isMarked (sup : Supervisor) (id : FlowId) : Bool := (sup.children.find id).any (·.expectedShutdown)

def unmarked (sup : Supervisor) (ids : List FlowId) : List ChildSpec :=
  ids.filterMap fun id => (sup.children.find id).bind fun child => if child.expectedShutdown then none else some child.spec

-- What a wave for an exit of id is due to start again: everybody under
-- OneForAll, the failed child and those started after it under RestForOne.
def dueAfter (sup : Supervisor) (id : FlowId) : List ChildSpec :=
  match sup.strategy with
  | .oneForAll => sup.unmarked sup.children.order
  | .restForOne => sup.unmarked (sup.children.order.dropWhile (· ≠ id))
  | .oneForOne => []

section Waves

variable {sup : Supervisor} {id : FlowId} {child : LiveChild} {failedIdx : Nat}

theorem order_split (shaped : sup.children.Shaped) (found : sup.children.find id = some child) :
    ∃ earlier later, sup.children.order = earlier ++ id :: later ∧ id ∉ earlier ∧ id ∉ later ∧
      sup.children.order.idxOf? id = some earlier.length ∧ (sup.children.remove id).order = earlier ++ later := by
  have member : id ∈ sup.children.order :=
    (shaped.listed id).mpr (mem_map.mpr ⟨(id, child), Assoc.mem_of_lookup found, rfl⟩)
  obtain ⟨earlier, later, split⟩ := append_of_mem member
  have distinct := shaped.order
  rw [split, nodup_append, nodup_cons] at distinct
  have before : id ∉ earlier := fun there => distinct.2.2 id there id mem_cons_self rfl
  refine ⟨earlier, later, split, before, distinct.2.1.1, ?_, ?_⟩
  · rw [split, idxOf?_eq_some_iff]
    refine ⟨by simp, by simp, fun j inside same => before ?_⟩
    rw [getElem_append_left inside] at same
    exact same ▸ getElem_mem inside
  · have apart : ∀ part : List FlowId, id ∉ part → part.filter (· ≠ id) = part := fun part absent =>
      filter_eq_self.mpr fun other member => decide_eq_true fun same => absent (same ▸ member)
    change sup.children.order.filter (· ≠ id) = earlier ++ later
    rw [split, filter_append, filter_cons_of_neg (by simp), apart earlier before, apart later distinct.2.1.1]

theorem unmarked_specs {ids : List FlowId} (free : ∀ other ∈ ids, sup.isMarked other = false) :
    sup.unmarked ids = sup.children.specsOf ids := by
  refine filterMap_congr fun other member => ?_
  have clear := free other member
  rw [isMarked] at clear
  cases held : sup.children.find other with
  | none => rfl
  | some child =>
    rw [held, Option.any_some] at clear
    simp [clear]

theorem insert_idx_append {α : Type} (front back : List α) (item : α) :
    (front ++ back).insertIdx front.length item = front ++ item :: back := by
  induction front with
  | nil => rfl
  | cons head front ih => simp [ih]

theorem find_of_order (shaped : sup.children.Shaped) {other : FlowId} (member : other ∈ sup.children.order) :
    ∃ child, sup.children.find other = some child := by
  cases found : sup.children.find other with
  | some child => exact ⟨child, rfl⟩
  | none => exact absurd ((shaped.listed other).mp member) (Assoc.lookup_none_absent found)

-- Where the failed child stands among the victims of its wave: under
-- OneForAll at its own place, under RestForOne before all of them.
structure Placed (sup : Supervisor) (id : FlowId) (failedIdx : Nat) (front later : List FlowId) : Prop where
  victims : sup.victims id = front ++ later
  due : sup.dueAfter id = sup.unmarked (front ++ id :: later)
  apart : id ∉ front ++ later
  listed : ∀ other ∈ front ++ later, other ∈ sup.children.order
  place : sup.strategy = .oneForAll ∧ failedIdx = front.length ∨ sup.strategy = .restForOne ∧ front = []

theorem wave_placed (shaped : sup.children.Shaped) (found : sup.children.find id = some child)
    (strategy : sup.strategy ≠ .oneForOne) (position : sup.children.order.idxOf? id = some failedIdx) :
    ∃ front later, Placed sup id failedIdx front later := by
  obtain ⟨earlier, later, split, notEarlier, notLater, isPosition, removed⟩ := order_split shaped found
  have isIndex : earlier.length = failedIdx := Option.some.inj (isPosition.symm.trans position)
  have listed : ∀ other ∈ earlier ++ later, other ∈ sup.children.order := fun other member => by
    rw [← removed] at member
    exact (mem_filter.mp member).1
  cases isStrategy : sup.strategy with
  | oneForOne => exact absurd isStrategy strategy
  | oneForAll =>
    refine ⟨earlier, later, ?_, ?_, by simp [notEarlier, notLater], listed, Or.inl ⟨isStrategy, isIndex.symm⟩⟩
    · rw [victims, isStrategy, removed]
    · rw [dueAfter, isStrategy, split]
  | restForOne =>
    have dropped : (earlier ++ id :: later).dropWhile (· ≠ id) = id :: later := by
      rw [dropWhile_append_of_pos, dropWhile_cons_of_neg (by simp)]
      exact fun other member => decide_eq_true fun same => notEarlier (same ▸ member)
    refine ⟨[], later, ?_, ?_, notLater, fun other member => listed other (mem_append_right _ member),
      Or.inr ⟨isStrategy, rfl⟩⟩
    · rw [victims, isStrategy, position, removed, ← isIndex]
      exact drop_left
    · simp only [dueAfter, isStrategy, split, dropped, nil_append]

theorem wave_specs_placed {front later : List FlowId} (shaped : sup.children.Shaped)
    (placed : Placed sup id failedIdx front later) (failed : ChildSpec) (times : List Nat) :
    { sup with children := sup.children.remove id, restartTimes := times }.waveSpecs failed failedIdx (sup.victims id) =
      some (sup.children.specsOf front ++ failed :: sup.children.specsOf later) := by
  have later_ : (sup.victims id).filterMap (fun other => ((sup.children.remove id).find other).map (·.spec)) =
      sup.children.specsOf front ++ sup.children.specsOf later := by
    rw [placed.victims, ← specs_of_append]
    exact specs_of_removed _ placed.apart
  simp only [waveSpecs, later_]
  rcases placed.place with ⟨strategy, isIndex⟩ | ⟨strategy, rfl⟩
  · have counts := specs_of_length fun other (member : other ∈ front) =>
      find_of_order shaped (placed.listed other (mem_append_left _ member))
    rw [strategy]
    dsimp only
    rw [if_neg (by rw [length_append, counts]; omega), isIndex, ← counts, insert_idx_append]
  · rw [strategy]
    rfl

theorem placed_due {front later : List FlowId} (placed : Placed sup id failedIdx front later)
    (found : sup.children.find id = some child) (free : child.expectedShutdown = false)
    (victims : ∀ other ∈ sup.victims id, sup.isMarked other = false) :
    sup.dueAfter id = sup.children.specsOf front ++ child.spec :: sup.children.specsOf later := by
  have clear : ∀ other ∈ front ++ id :: later, sup.isMarked other = false := by
    intro other member
    rw [placed.victims] at victims
    rcases mem_append.mp member with before | after
    · exact victims other (mem_append_left _ before)
    · rcases mem_cons.mp after with rfl | after
      · rw [isMarked, found, Option.any_some, free]
      · exact victims other (mem_append_right _ after)
  rw [placed.due, unmarked_specs clear, specs_of_append, specs_of_cons found]

theorem victims_sublist (sup : Supervisor) (id : FlowId) : (sup.victims id).Sublist (sup.children.remove id).order := by
  rw [victims]
  split
  · exact List.Sublist.refl _
  · exact drop_sublist _ _
  · exact nil_sublist _

theorem victims_found (shaped : sup.children.Shaped) {other : FlowId} (member : other ∈ sup.victims id) :
    ∃ child, (sup.children.remove id).find other = some child ∧ sup.children.find other = some child := by
  have listed := (victims_sublist sup id).subset member
  have apart : other ≠ id := by simpa using (mem_filter.mp listed).2
  obtain ⟨child, found⟩ := find_of_order shaped (mem_filter.mp listed).1
  exact ⟨child, (remove_find _ apart).trans found, found⟩

inductive Handled (sup : Supervisor) (exit : ChildExit) (now : Nat) : Supervisor → Prop where
  | unknown (missing : sup.children.find exit.id = none) :
      Handled sup exit now { sup with children := sup.children.remove exit.id }
  | expected (child : LiveChild) (found : sup.children.find exit.id = some child) (marked : child.expectedShutdown = true) :
      Handled sup exit now ({ sup with children := sup.children.remove exit.id }.onCascadeProgress exit.id)
  | left (child : LiveChild) (found : sup.children.find exit.id = some child) (free : child.expectedShutdown = false)
      (times : List Nat) (exceeded : Bool)
      (counted : times = sup.restartTimes ∧ exceeded = sup.intensityExceeded ∨ sup.restarts exit = true ∧
        times = pruneRestartWindow (sup.restartTimes ++ [now]) now sup.maxPeriod ∧ exceeded = sup.overLimit now) :
      Handled sup exit now { sup with
        children := sup.children.remove exit.id, restartTimes := times, intensityExceeded := exceeded }
  | one (child : LiveChild) (found : sup.children.find exit.id = some child) (free : child.expectedShutdown = false)
      (alone : sup.cascade = none) (due : sup.restarts exit = true) (under : sup.overLimit now = false) :
      Handled sup exit now { sup with
        children := sup.children.remove exit.id
        restartTimes := pruneRestartWindow (sup.restartTimes ++ [now]) now sup.maxPeriod
        phase := .respawnOne child.spec }
  | wave (child : LiveChild) (found : sup.children.find exit.id = some child) (free : child.expectedShutdown = false)
      (alone : sup.cascade = none) (due : sup.restarts exit = true) (under : sup.overLimit now = false)
      (strategy : sup.strategy ≠ .oneForOne) (failedIdx : Nat) (position : sup.children.order.idxOf? exit.id = some failedIdx) :
      Handled sup exit now ({ sup with
        children := sup.children.remove exit.id
        restartTimes := pruneRestartWindow (sup.restartTimes ++ [now]) now sup.maxPeriod }.startCascade
          child.spec failedIdx (sup.victims exit.id))

theorem restarts_calm {sup : Supervisor} {exit : ChildExit} (due : sup.restarts exit = true) : sup.intensityExceeded = false :=
  (Bool.not_eq_true' _).mp ((Bool.and_eq_true _ _).mp due).2

theorem handle_exit_handled (sup : Supervisor) (exit : ChildExit) (now : Nat) : Handled sup exit now (sup.handleExit exit now) := by
  rw [handleExit]
  dsimp only
  cases found : sup.children.find exit.id with
  | none => exact .unknown found
  | some child =>
    dsimp only
    cases marked : child.expectedShutdown with
    | true => exact .expected child found marked
    | false =>
      rw [if_neg Bool.false_ne_true]
      by_cases refused : shouldRestart exit.restart exit.outcome = false
      · rw [if_pos refused]
        exact .left child found marked _ _ (.inl ⟨rfl, rfl⟩)
      rw [if_neg refused]
      by_cases exceeded : sup.intensityExceeded = true
      · rw [if_pos exceeded]
        exact .left child found marked _ _ (.inl ⟨rfl, rfl⟩)
      rw [if_neg exceeded, intensityHit]
      have due : sup.restarts exit = true := by simp [restarts, found, marked, refused, exceeded]
      dsimp only
      by_cases hit : (pruneRestartWindow (sup.restartTimes ++ [now]) now sup.maxPeriod).length % 2 ^ 32 > sup.maxRestarts
      · rw [if_pos hit]
        exact .left child found marked _ true (.inr ⟨due, rfl, (decide_eq_true hit).symm⟩)
      rw [if_neg hit]
      have under : sup.overLimit now = false := decide_eq_false hit
      have counted := (Bool.eq_false_iff.mpr exceeded).trans under.symm
      dsimp only
      rw [if_neg Bool.false_ne_true]
      by_cases active : sup.cascade.isSome = true
      · rw [if_pos active]
        exact .left child found marked _ _ (.inr ⟨due, rfl, counted⟩)
      rw [if_neg active]
      have alone : sup.cascade = none := by simpa using active
      split
      · exact .one child found marked alone due under
      · exact .left child found marked _ _ (.inr ⟨due, rfl, counted⟩)
      · rename_i failedIdx position notOne
        exact .wave child found marked alone due under notOne failedIdx position

end Waves

end Supervisor

end Byteflow
