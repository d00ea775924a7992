import Byteflow.ExitSpread

namespace Byteflow

open LinkTable List Function

namespace Shared

section Sweeping

variable {layout : Layout} {base shared : Shared} {flows gone : List FlowId} {start : FlowId} {reason : FlowExitReason}
  {pending : PendingExit} {work : List PendingExit} {hops : FlowId → List Value}

end Sweeping

section Rounds

variable {layout : Layout} {display : Fault → String} {finalize : Shared → PendingExit → Option Shared}
  {base shared : Shared} {flows : List FlowId} {first pending : PendingExit} {told work : List PendingExit}

end Rounds

-- Flow 1 is linked to 2 and to 3, and these two to each other. 3 traps exits
-- and waits for tag 7: both notices stay in its queue.
def receiver (id : FlowId) : Mailbox :=
  { config := .DEFAULT, queue := .new 256 (2 ^ 22), parked := some { id := id, lastReceiveDest := some 0 },
    parkedFilter := if id = 3 then .tag 7 else .any }

def fault : PendingExit := ⟨{ id := 1 }, .failed "fault", .fault⟩

end Shared

end Byteflow
