import Byteflow.Mailbox
import Byteflow.Assoc
import Byteflow.Transition

namespace Byteflow

open Function

inductive FlowExitReason where
  | normal | shutdown | killed | fault | mailboxOverflow | supervisor | link
deriving DecidableEq, Repr

def FlowExitReason.asU64 : FlowExitReason → UInt64
  | .normal => 0
  | .shutdown => 1
  | .killed => 2
  | .fault => 3
  | .mailboxOverflow => 4
  | .supervisor => 5
  | .link => 6

-- One Receive (no target) or Ask of a flow. serial is not in the source: it
-- numbers the waits of a run, as the wait epoch numbers the parks of a mailbox.
structure Wait where
  target : Option FlowId
  requestId : UInt64
  dest : UInt8
  timed : Bool
  serial : Nat
deriving DecidableEq, Repr

-- A row of AskWaitIndex. serial is not in the source: the Ask it was made for.
structure AskRow where
  target : FlowId
  requestId : UInt64
  serial : Nat
deriving DecidableEq, Repr

-- finalize_one, by the table or mailbox its next step locks.
inductive Stage where
  | signal | index | asker | close | sweep
  | lookup (waiters : List (FlowId × Nat))
  | take (asker : FlowId) (serial : Nat) (rest : List (FlowId × Nat))
  | revoke | unregister
deriving DecidableEq, Repr

-- What the thread that holds the box of a flow does next. reply is the wait of
-- an Ask whose request is being sent, none for a Send.
inductive Point where
  | ready
  | running
  | popping (wait : Wait)
  | deliverLookup (target : FlowId) (reply : Option Wait)
  | deliverPush (target : FlowId) (reply : Option Wait)
  | sendIndex (target : FlowId) (reply : Option Wait)
  | sendLookup (target : FlowId) (reply : Option Wait)
  | sendPark (target : FlowId) (reply : Option Wait)
  | sendDelivered (reply : Option Wait)
  | admitted (reply : Option Wait)
  | withdrawing (reason : FlowExitReason)
  | inserting (wait : Wait)
  | parking (wait : Wait)
  | unasking
  | finalizing (reason : FlowExitReason) (stage : Stage)
deriving DecidableEq, Repr

-- A boxed flow has one owner: a thread, its mailbox, or the mailbox it waits to
-- send to.
inductive Place where
  | unborn
  | hand (point : Point)
  | parked (wait : Wait)
  | waiting (target : FlowId) (reply : Option Wait)
  | gone
deriving DecidableEq, Repr

-- A thread that works on a flow it does not hold: request_kill before it has
-- found the flow, and the checks a thread makes after it parked the flow.
inductive Task where
  | killLookup (id : FlowId) (reason : FlowExitReason)
  | killSet (id : FlowId) (reason : FlowExitReason)
  | killTakeParked (id : FlowId) (reason : FlowExitReason)
  | killIndex (id : FlowId) (reason : FlowExitReason)
  | killTarget (id target : FlowId) (reason : FlowExitReason)
  | killTakeSender (id target : FlowId) (reason : FlowExitReason)
  | checkKill (id : FlowId) (wait : Wait)
  | checkTake (id : FlowId) (wait : Wait) (reason : FlowExitReason)
  | checkRestore (id : FlowId) (wait : Wait) (reason : FlowExitReason)
  | sentCheck (id target : FlowId)
  | sentTake (id target : FlowId) (reason : FlowExitReason)
  | sentRestore (id : FlowId) (reason : FlowExitReason)
  | askIndex (id : FlowId) (wait : Wait) (target : FlowId)
  | askDirectory (id : FlowId) (wait : Wait) (target : FlowId) (still : Bool)
  | askGone (id : FlowId) (wait : Wait) (target : FlowId)
deriving DecidableEq, Repr

-- A synthetic TAG_SYS_EXIT hop written into a flow for the Ask numbered ask.
-- hit is the wait the flow was parked in.
structure ExitWrite where
  flow : FlowId
  ask : Nat
  hit : Wait
  dest : UInt8
  hop : Message

-- opened says which mailboxes exist and are not closed. clock and exits are the
-- history of the run.
structure Lifecycle where
  places : FlowId → Place
  directory : FlowId → Bool
  opened : FlowId → Bool
  signals : FlowId → Option FlowExitReason
  waitingSendAt : FlowId → Option FlowId
  askWaits : List (FlowId × AskRow)
  maxAskWaits : Nat
  tasks : List Task
  clock : Nat
  exits : List ExitWrite

inductive Effect where
  | yield
  | exit (reason : FlowExitReason)
  | hostAwait
  | receive (dest : UInt8) (timed : Bool)
  | send (target : FlowId)
  | ask (target : FlowId) (requestId : UInt64) (dest : UInt8) (timed : Bool)
deriving DecidableEq, Repr

-- The answer of a mailbox whose queue the model leaves open, and the failure of
-- resume_with.
inductive Answer where
  | found | empty | accepted | full | dropped | fault
deriving DecidableEq, Repr

inductive LifeEvent where
  | spawn (id : FlowId)
  | run (id : FlowId) (effect : Effect)
  | step (id : FlowId) (answer : Answer) (pick : Nat)
  | kill (id : FlowId) (reason : FlowExitReason)
  | task (index : Nat)
  | wake (id : FlowId)
  | expire (id : FlowId) (armed : Bool)
  | takeSender (id : FlowId) (fits : Bool)
deriving DecidableEq, Repr

namespace Lifecycle

def initial (maxAskWaits : Nat) : Lifecycle where
  places := fun _ => .unborn
  directory := fun _ => false
  opened := fun _ => false
  signals := fun _ => none
  waitingSendAt := fun _ => none
  askWaits := []
  maxAskWaits := maxAskWaits
  tasks := []
  clock := 0
  exits := []

def move (life : Lifecycle) (id : FlowId) (place : Place) : Lifecycle :=
  { life with places := update life.places id place }

def moveTo (life : Lifecycle) (id : FlowId) (point : Point) : Lifecycle := life.move id (.hand point)

def finalize (life : Lifecycle) (id : FlowId) (reason : FlowExitReason) : Lifecycle :=
  life.moveTo id (.finalizing reason .signal)

def setSignal (life : Lifecycle) (id : FlowId) (signal : Option FlowExitReason) : Lifecycle :=
  { life with signals := update life.signals id signal }

def setWaitingSend (life : Lifecycle) (id : FlowId) (target : Option FlowId) : Lifecycle :=
  { life with waitingSendAt := update life.waitingSendAt id target }

def removeAsker (life : Lifecycle) (id : FlowId) : Lifecycle :=
  { life with askWaits := life.askWaits.filter (·.1 ≠ id) }

def addTask (life : Lifecycle) (task : Task) : Lifecycle := { life with tasks := life.tasks ++ [task] }

-- kill_signals.take at a point where the flow is held: a pending kill is obeyed.
def obeyKill (life : Lifecycle) (id : FlowId) : Lifecycle :=
  match life.signals id with
  | some reason => (life.setSignal id none).finalize id reason
  | none => life.moveTo id .running

-- After the request of an Ask was accepted the flow waits for the reply, after
-- a Send it goes on.
def afterSend (reply : Option Wait) : Point :=
  match reply with
  | none => .running
  | some wait => .popping wait

def beginWait (life : Lifecycle) (target : Option FlowId) (requestId : UInt64) (dest : UInt8) (timed : Bool) :
    Lifecycle × Wait :=
  ({ life with clock := life.clock + 1 }, ⟨target, requestId, dest, timed, life.clock⟩)

def runEffect (life : Lifecycle) (id : FlowId) : Effect → Lifecycle
  | .yield => life.moveTo id .ready
  | .exit reason => life.finalize id reason
  | .hostAwait => life.obeyKill id
  | .receive dest timed =>
    let (life, wait) := life.beginWait none 0 dest timed
    life.moveTo id (.popping wait)
  | .send target => life.moveTo id (.deliverLookup target none)
  | .ask target requestId dest timed =>
    let (life, wait) := life.beginWait (some target) requestId dest timed
    life.moveTo id (.deliverLookup target (some wait))

-- AskWaitIndex::insert; false is Duplicate or LimitReached.
def insertAsk (life : Lifecycle) (id : FlowId) (target : FlowId) (wait : Wait) : Lifecycle × Bool :=
  if (life.askWaits.lookup id).isSome then (life, false)
  else if life.maxAskWaits ≠ 0 ∧ life.askWaits.length ≥ life.maxAskWaits then (life, false)
  else ({ life with askWaits := (id, ⟨target, wait.requestId, wait.serial⟩) :: life.askWaits }, true)

def waitersOf (life : Lifecycle) (target : FlowId) : List (FlowId × Nat) :=
  (life.askWaits.filter (·.2.target = target)).map fun row => (row.1, row.2.serial)

-- Mailbox::close hands the waiting senders to the finalizer.
def closeMailbox (life : Lifecycle) (id : FlowId) : Lifecycle :=
  { life with
    opened := update life.opened id false
    places := fun other =>
      match life.places other with
      | .waiting target reply => if target = id then .hand (.withdrawing .fault) else .waiting target reply
      | place => place }

-- take_parked of wake_orphaned_asks and the write into last_receive_dest.
def wakeOrphan (life : Lifecycle) (id asker : FlowId) (serial : Nat) (reason : FlowExitReason) (answer : Answer) :
    Lifecycle :=
  match life.places asker with
  | .parked wait =>
    let woken := { life with
      exits := ⟨asker, serial, wait, wait.dest, Message.linkedExit id reason.asU64⟩ :: life.exits }
    if answer = .fault then woken.finalize asker .fault else woken.moveTo asker .ready
  | _ => life

def finalizeOne (life : Lifecycle) (id : FlowId) (reason : FlowExitReason) (answer : Answer) (pick : Nat) :
    Stage → Option Lifecycle
  | .signal => some ((life.setSignal id none).moveTo id (.finalizing reason .index))
  | .index => some ((life.setWaitingSend id none).moveTo id (.finalizing reason .asker))
  | .asker => some ((life.removeAsker id).moveTo id (.finalizing reason .close))
  | .close =>
    let closed := if life.directory id then life.closeMailbox id else life
    some (closed.moveTo id (.finalizing reason .sweep))
  | .sweep =>
    let swept := { life with askWaits := life.askWaits.filter (·.2.target ≠ id) }
    some (swept.moveTo id (.finalizing reason (.lookup (life.waitersOf id))))
  | .lookup [] => some (life.moveTo id (.finalizing reason .revoke))
  | .lookup waiters =>
    -- The set of waiters is visited in the order of its hash table.
    match waiters[pick]? with
    | none => none
    | some (asker, serial) =>
      let rest := waiters.eraseIdx pick
      let stage := if life.directory asker then Stage.take asker serial rest else .lookup rest
      some (life.moveTo id (.finalizing reason stage))
  | .take asker serial rest =>
    some ((life.wakeOrphan id asker serial reason answer).moveTo id (.finalizing reason (.lookup rest)))
  | .revoke => some (life.moveTo id (.finalizing reason .unregister))
  | .unregister => some ({ life with directory := update life.directory id false }.move id .gone)

-- The next lock step of the thread that holds the flow.
def advance (life : Lifecycle) (id : FlowId) (answer : Answer) (pick : Nat) : Point → Option Lifecycle
  | .ready => some (if answer = .fault then life.finalize id .fault else life.obeyKill id)
  | .running => none
  | .popping wait =>
    match answer, wait.target with
    | .fault, _ => some (life.finalize id .fault)
    | .found, _ => some (life.moveTo id .running)
    | _, none => some (life.moveTo id (.parking wait))
    | _, some _ => some (life.moveTo id (.inserting wait))
  | .deliverLookup target reply =>
    some (if life.directory target then life.moveTo id (.deliverPush target reply) else life.finalize id .fault)
  | .deliverPush target reply =>
    if life.opened target = false then some (life.finalize id .fault)
    else
      match answer, reply with
      | .full, _ => some (life.moveTo id (.sendIndex target reply))
      | .dropped, some _ => some (life.finalize id .fault)
      | _, _ => some (life.moveTo id (afterSend reply))
  | .sendIndex target reply => some ((life.setWaitingSend id (some target)).moveTo id (.sendLookup target reply))
  | .sendLookup target reply =>
    some (life.moveTo id (if life.directory target then .sendPark target reply else .withdrawing .fault))
  | .sendPark target reply =>
    if life.opened target = false then some (life.moveTo id (.withdrawing .fault))
    else
      match answer with
      | .full => some ((life.move id (.waiting target reply)).addTask (.sentCheck id target))
      | .accepted => some (life.moveTo id (.sendDelivered reply))
      | _ => some (life.moveTo id (.withdrawing .fault))
  | .sendDelivered reply => some ((life.setWaitingSend id none).moveTo id (afterSend reply))
  | .admitted reply =>
    let point := match reply with
      | none => Point.ready
      | some wait => .inserting wait
    some ((life.setWaitingSend id none).moveTo id point)
  | .withdrawing reason => some ((life.setWaitingSend id none).finalize id reason)
  | .inserting wait =>
    match wait.target with
    | none => none
    | some target =>
      match life.insertAsk id target wait with
      | (_, false) => some (life.finalize id .fault)
      | (inserted, true) => some (inserted.moveTo id (.parking wait))
  | .parking wait =>
    match answer, wait.target with
    | .found, none => some (life.moveTo id .ready)
    | .fault, none => some (life.finalize id .fault)
    | .found, some _ | .fault, some _ => some (life.moveTo id .unasking)
    | _, _ => some ((life.move id (.parked wait)).addTask (.checkKill id wait))
  | .unasking =>
    let removed := life.removeAsker id
    some (if answer = .fault then removed.finalize id .fault else removed.moveTo id .ready)
  | .finalizing reason stage => life.finalizeOne id reason answer pick stage

-- park_ask goes on to its re-checks when finalize_if_killed found nothing.
def afterCheck (id : FlowId) (wait : Wait) : Option Task := wait.target.map (.askIndex id wait ·)

-- The next lock step of a task, and the task that is left.
def perform (life : Lifecycle) : Task → Lifecycle × Option Task
  | .killLookup id reason => (life, if life.directory id then some (.killSet id reason) else none)
  | .killSet id reason => (life.setSignal id (some reason), some (.killTakeParked id reason))
  | .killTakeParked id reason =>
    match life.places id with
    | .parked _ => (life.finalize id reason, none)
    | _ => (life, some (.killIndex id reason))
  | .killIndex id reason => (life, (life.waitingSendAt id).map (.killTarget id · reason))
  | .killTarget id target reason => (life, if life.directory target then some (.killTakeSender id target reason) else none)
  | .killTakeSender id target reason =>
    match life.places id with
    | .waiting current _ => if current = target then (life.moveTo id (.withdrawing reason), none) else (life, none)
    | _ => (life, none)
  | .checkKill id wait =>
    match life.signals id with
    | some reason => (life.setSignal id none, some (.checkTake id wait reason))
    | none => (life, afterCheck id wait)
  | .checkTake id wait reason =>
    match life.places id with
    | .parked _ => (life.finalize id reason, none)
    | _ => (life, some (.checkRestore id wait reason))
  | .checkRestore id wait reason => (life.setSignal id (some reason), afterCheck id wait)
  | .sentCheck id target =>
    match life.signals id with
    | some reason => (life.setSignal id none, some (.sentTake id target reason))
    | none => (life, none)
  | .sentTake id target reason =>
    match life.places id with
    | .waiting current _ =>
      if current = target then (life.moveTo id (.withdrawing reason), none) else (life, some (.sentRestore id reason))
    | _ => (life, some (.sentRestore id reason))
  | .sentRestore id reason => (life.setSignal id (some reason), none)
  | .askIndex id wait target =>
    let still := (life.askWaits.lookup id).any (·.target = target)
    (life, some (.askDirectory id wait target still))
  | .askDirectory id wait target still =>
    (life, if still && life.directory target then none else some (.askGone id wait target))
  | .askGone id wait target =>
    match life.places id with
    | .parked hit =>
      let woken := { life with exits :=
        ⟨id, wait.serial, hit, wait.dest, Message.linkedExit target FlowExitReason.fault.asU64⟩ :: life.exits }
      (woken.moveTo id .unasking, none)
    | _ => (life, none)

def putTask (tasks : List Task) (index : Nat) : Option Task → List Task
  | none => tasks.eraseIdx index
  | some task => tasks.set index task

def next (life : Lifecycle) : LifeEvent → Option Lifecycle
  | .spawn id =>
    match life.places id with
    | .unborn => some { life.moveTo id .ready with
        directory := update life.directory id true
        opened := update life.opened id true }
    | _ => none
  | .run id effect =>
    match life.places id with
    | .hand .running => some (life.runEffect id effect)
    | _ => none
  | .step id answer pick =>
    match life.places id with
    | .hand point => life.advance id answer pick point
    | _ => none
  | .kill id reason => some (life.addTask (.killLookup id reason))
  | .task index =>
    match life.tasks[index]? with
    | none => none
    | some task =>
      let (after, left) := life.perform task
      some { after with tasks := putTask after.tasks index left }
  | .wake id =>
    match life.places id with
    | .parked _ => some (life.moveTo id .unasking)
    | _ => none
  | .expire id armed =>
    match life.places id with
    | .parked wait =>
      if wait.timed then some (if armed then life.moveTo id .unasking else life.finalize id .fault) else none
    | _ => none
  | .takeSender id fits =>
    match life.places id with
    | .waiting target reply =>
      if life.opened target then some (life.moveTo id (if fits then .admitted reply else .withdrawing .fault)) else none
    | _ => none

end Lifecycle

end Byteflow
