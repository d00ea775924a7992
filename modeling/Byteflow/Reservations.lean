import Byteflow.CasLoop
import Byteflow.SpawnRollback

namespace Byteflow

open CasLoop

namespace MemoryBudget

inductive Call where
  | tryCharge (bytes : Nat)
  | release (bytes : Nat)

variable (layout : Layout) (limit : Nat)

-- A call for no bytes, which reads nothing, writes back the count it loaded.
def turn : Call → Nat → Except Fault Nat
  | .tryCharge bytes, used => (tryCharge layout ⟨limit, used⟩ bytes).map (·.used)
  | .release bytes, used => .ok (release ⟨limit, used⟩ bytes).used

def charge : Call → Int
  | .tryCharge bytes => bytes
  | .release bytes => -bytes

theorem charges_never_overcommit (events : List (Event Call)) :
    Accounted (turn layout limit) charge limit (run (turn layout limit) events) := by
  refine accounted_run (fun op used written wrote within => ?_) events
  cases op with
  | tryCharge bytes => grind [turn, tryCharge, Layout.checkedAdd, charge, Except.map]
  | release bytes => grind [turn, release, charge]

end MemoryBudget

namespace FlowLimit

open Exec SpawnTables

inductive Call where
  | tryReserve | release

variable (shared : SpawnShared) (tables : SpawnTables)

-- spawn_on's calls on its counter.
def turn (call : Call) (live : Nat) : Except SpawnError Nat :=
  let made := match call with
    | .tryReserve => tryReserve shared
    | .release => release
  let (result, after) := exec made { tables with live }
  result.map fun _ => after.live

def slots : Call → Int
  | .tryReserve => 1
  | .release => -1

theorem reservations_never_overcommit (limited : shared.maxFlows ≠ 0)
    (fits : shared.maxFlows.toNat ≤ shared.layout.usizeMax) (events : List (Event Call)) :
    Accounted (turn shared tables) slots shared.maxFlows.toNat (run (turn shared tables) events) := by
  refine accounted_run (fun op live written wrote within => ?_) events
  cases op with
  | tryReserve =>
    simp only [turn, tryReserve, exec_bind, exec_get] at wrote
    grind [exec_throw, exec_set, Layout.saturatingAdd, slots, Except.map]
  | release => grind [turn, release, exec_modify, slots, Except.map]

theorem raced_reservation_refused : let loop := turn { smallShared with maxFlows := 1 } (initial 0 fun _ => [])
    Accounted loop slots 1 (run loop [.load .tryReserve, .load .tryReserve, .exchange 0 false, .load .tryReserve]) :=
  reservations_never_overcommit _ _ (by decide) (by decide) _

end FlowLimit

end Byteflow
