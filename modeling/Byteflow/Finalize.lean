import Byteflow.AskTraffic
import Byteflow.Interpreter
import Byteflow.MailboxBounds
import Byteflow.MonitorTable
import Byteflow.Supervisor

namespace Byteflow

open Function

def FlowExitReason.isAbnormal (reason : FlowExitReason) : Bool := reason ≠ .normal

structure PendingExit where
  flow : FlowBox
  outcome : FlowOutcome
  reason : FlowExitReason

def PendingExit.linked (flow : FlowBox) : PendingExit := ⟨flow, .failed "linked exit (link)", .link⟩

-- The parts of Shared that decide what an exit does to the other flows: the
-- mailboxes under their owners, the machines that move with the boxes, the
-- link, monitor and trap_exit tables, the kill signals, where each blocked
-- sender waits, the (asker, target) rows of the Ask index and the injector.
-- completed is the exits whose join was told, oldest first. Capabilities,
-- quotas, names, host awaits and metrics of the dead flow are swept too and
-- reach no other flow.
structure Shared where
  directory : FlowId → Option Mailbox
  machines : FlowId → Vm
  links : LinkTable
  monitors : MonitorTable
  trapExits : FlowId → Bool
  killSignals : FlowId → Option FlowExitReason
  waitingSendAt : FlowId → Option FlowId
  askWaits : List (FlowId × FlowId)
  injector : List FlowBox
  completed : List PendingExit

namespace Shared

def setMailbox (shared : Shared) (id : FlowId) (mailbox : Mailbox) : Shared :=
  { shared with directory := update shared.directory id (some mailbox) }

def removeAsker (shared : Shared) (asker : FlowId) : Shared :=
  { shared with askWaits := shared.askWaits.filter (·.1 ≠ asker) }

-- The source keeps the waiters of one target in a set: their order is open.
def takeWaitersOf (shared : Shared) (target : FlowId) : Shared × List FlowId :=
  ({ shared with askWaits := shared.askWaits.filter (·.2 ≠ target) },
    (shared.askWaits.filter (·.2 = target)).map Prod.fst)

-- kill_signals.take, trap_exits.clear, waiting_send_at.remove and
-- ask_waits.remove_asker of a dead flow.
def clearWaits (shared : Shared) (id : FlowId) : Shared :=
  { shared with
    killSignals := update shared.killSignals id none
    trapExits := update shared.trapExits id false
    waitingSendAt := update shared.waitingSendAt id none }.removeAsker id

section Finalization

-- display is the text of a fault. finalize is finalize_flow, which a resumption
-- that faults calls on its own stack; none is a run that did not end.
variable (layout : Layout) (display : Fault → String) (finalize : Shared → PendingExit → Option Shared)

def resumeOrFail (shared : Shared) (flow : FlowBox) (value : Value) : Option Shared :=
  match flow.lastReceiveDest with
  | some dest =>
    match Exec.exec (Vm.resumeWith dest value) (shared.machines flow.id) with
    | (.ok _, vm) =>
      some { shared with
        machines := update shared.machines flow.id vm
        injector := shared.injector ++ [flow] }
    | (.error fault, vm) =>
      finalize { shared with machines := update shared.machines flow.id vm }
        ⟨flow, .failed (display fault), .fault⟩
  | none => finalize shared ⟨flow, .failed "handoff missing dest register", .fault⟩

def resumeHandoff (shared : Shared) (parked : FlowBox) (value : Value) : Option Shared :=
  resumeOrFail display finalize (shared.removeAsker parked.id) parked value

-- The hop's serial is not in the source and is not looked at here.
def deliverSystemHop (shared : Shared) (owner : FlowId) (value : Value) : Option Shared :=
  match shared.directory owner with
  | none => some shared
  | some mailbox =>
    match mailbox.pushSystem layout ⟨value, 0⟩ with
    | (after, .handoff parked) => resumeHandoff display finalize (shared.setMailbox owner after) parked value
    | (after, _) => some (shared.setMailbox owner after)

def deliverDown (shared : Shared) (event : DownEvent) : Option Shared :=
  deliverSystemHop layout display finalize shared event.owner
    (.message (Message.down (UInt64.ofNat event.monitor) event.target event.reason.asU64))

def deliverExit (shared : Shared) (owner dead : FlowId) (reason : FlowExitReason) : Option Shared :=
  deliverSystemHop layout display finalize shared owner (.message (Message.linkedExit dead reason.asU64))

def wakeOrphan (target : FlowId) (reason : FlowExitReason) (shared : Shared) (asker : FlowId) : Option Shared :=
  match shared.directory asker with
  | none => some shared
  | some mailbox =>
    match mailbox.takeParked with
    | (after, some flow) =>
      resumeOrFail display finalize (shared.setMailbox asker after) flow (.message (Message.linkedExit target reason.asU64))
    | (after, none) => some (shared.setMailbox asker after)

def wakeOrphanedAsks (shared : Shared) (target : FlowId) (reason : FlowExitReason) : Option Shared :=
  let (shared, waiters) := shared.takeWaitersOf target
  waiters.foldlM (wakeOrphan display finalize target reason) shared

def extractForKill (shared : Shared) (id : FlowId) (reason : FlowExitReason) : Shared × Option FlowBox :=
  match shared.directory id with
  | none => (shared, none)
  | some mailbox =>
    let (taken, parked) := mailbox.takeParked
    let shared := { shared with killSignals := update shared.killSignals id (some reason) }.setMailbox id taken
    match parked with
    | some flow => (shared, some flow)
    | none =>
      match shared.waitingSendAt id with
      | none => (shared, none)
      | some target =>
        match shared.directory target with
        | none => (shared, none)
        | some blocked =>
          match blocked.takeWaitingSender id with
          | (after, some sender) =>
            ({ shared with waitingSendAt := update shared.waitingSendAt id none }.setMailbox target after,
              some sender)
          | (_, none) => (shared, none)

-- The work list of the source is a stack: its top is the head here.
def collectLinkExit (shared : Shared) (peer : FlowId) (work : List PendingExit) : Shared × List PendingExit :=
  match shared.extractForKill peer .link with
  | (shared, some flow) => (shared, .linked flow :: work)
  | (shared, none) => (shared, work)

def signalPeers (dead : FlowId) (reason : FlowExitReason) (shared : Shared) (work : List PendingExit) :
    List (LinkId × FlowId) → Option (Shared × List PendingExit)
  | [] => some (shared, work)
  | (_, peer) :: rest =>
    if shared.trapExits peer then do
      let shared ← shared.deliverExit layout display finalize peer dead reason
      signalPeers dead reason shared work rest
    else if reason.isAbnormal then
      let (shared, work) := shared.collectLinkExit peer work
      signalPeers dead reason shared work rest
    else signalPeers dead reason shared work rest

def closeMailbox (shared : Shared) (id : FlowId) (work : List PendingExit) : Shared × List PendingExit :=
  match shared.directory id with
  | none => (shared, work)
  | some mailbox =>
    let (closed, senders) := mailbox.close
    let waitingSendAt := senders.foldl (fun (index : FlowId → Option FlowId) sender => update index sender.id none) shared.waitingSendAt
    let exits := senders.map fun sender => ⟨sender, .failed s!"send target flow#{id} exited", .fault⟩
    ({ shared with waitingSendAt := waitingSendAt }.setMailbox id closed, exits.reverse ++ work)

def finalizeOne (shared : Shared) (pending : PendingExit) (work : List PendingExit) : Option (Shared × List PendingExit) := do
  let id := pending.flow.id
  let reason := pending.reason
  if id = 0 then return (shared, work)
  let (closed, work) := (shared.clearWaits id).closeMailbox id work
  let woken ← closed.wakeOrphanedAsks display finalize id reason
  let (monitors, downs) := (woken.monitors.removeOwnedBy id).notifyTargetExit id reason
  let unregistered := { woken with directory := update woken.directory id none, monitors := monitors }
  let notified ← downs.foldlM (deliverDown layout display finalize) unregistered
  let (links, peers) := notified.links.removeLinksOf id
  let (signalled, work) ← signalPeers layout display finalize id reason { notified with links := links } work peers
  return ({ signalled with completed := signalled.completed ++ [pending] }, work)

end Finalization

-- The fuel bounds the exits handled one inside another and one after another.
def finalizeFlow (layout : Layout) (display : Fault → String) : Nat → Shared → List PendingExit → Option Shared
  | _, shared, [] => some shared
  | 0, _, _ :: _ => none
  | fuel + 1, shared, pending :: work => do
    let nested := fun shared pending => finalizeFlow layout display fuel shared [pending]
    let (shared, work) ← finalizeOne layout display nested shared pending work
    finalizeFlow layout display fuel shared work

end Shared

end Byteflow
