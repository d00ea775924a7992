import Byteflow.Finalize
import Byteflow.LinkGraph

namespace Byteflow

open List Function

def exitNotice (dead : FlowId) (reason : FlowExitReason) : Value := .message (Message.linkedExit dead reason.asU64)

namespace MailboxQueue

variable {layout : Layout} {queue : MailboxQueue} {hop : Hop}

end MailboxQueue

namespace Shared

section Notices

variable {layout : Layout} {display : Fault → String} {finalize : Shared → PendingExit → Option Shared}
  {base shared after : Shared} {id : FlowId} {notices : List Value}

end Notices

-- The EXIT notices for a flow: one for each link with a flow that died, in the
-- order of the deaths.
def notices (shared : Shared) (dead : List PendingExit) (id : FlowId) : List Value :=
  if shared.trapExits id then
    dead.flatMap fun pending => (shared.links.between pending.flow.id id).map fun _ => exitNotice pending.flow.id pending.reason
  else []

-- The tables once the flows of gone are swept from them.
structure Swept (base : Shared) (flows gone : List FlowId) (shared : Shared) : Prop where
  monitors : shared.monitors = base.monitors
  askWaits : shared.askWaits = base.askWaits
  settled : ∀ id ∈ flows, shared.waitingSendAt id = none
  traps : ∀ id, id ∉ gone → shared.trapExits id = base.trapExits id
  lockstep : shared.links.Lockstep
  rows : shared.links.links.Perm (base.links.links.filter fun row => ∀ id ∈ gone, ¬ row.2.Mentions id)

section Spreading

variable {layout : Layout} {display : Fault → String} {finalize : Shared → PendingExit → Option Shared}
  {base shared after : Shared} {flows gone : List FlowId} {start : FlowId} {reason : FlowExitReason}
  {work : List PendingExit} {hops : FlowId → List Value} {cause : FlowExitReason} {dead peer id : FlowId}

def sweep (shared : Shared) (id : FlowId) : Shared :=
  { shared with
    directory := update shared.directory id none
    links := (shared.links.removeLinksOf id).1
    trapExits := update shared.trapExits id false
    killSignals := update shared.killSignals id none
    waitingSendAt := update shared.waitingSendAt id none }

end Spreading

end Shared

end Byteflow
