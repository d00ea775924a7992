import Byteflow.LinkTable

namespace Byteflow.LinkTable

def Linked (table : LinkTable) (flow peer : FlowId) : Prop :=
  flow ≠ peer ∧ ∃ id link, (id, link) ∈ table.links ∧ link.Mentions flow ∧ link.Mentions peer

def between (table : LinkTable) (flow peer : FlowId) : List (LinkId × Link) :=
  table.links.filter fun row => row.2.Mentions flow ∧ row.2.Mentions peer

section Removal

variable {table : LinkTable} (agrees : Lockstep table) {target flow : FlowId}

include agrees

end Removal

end Byteflow.LinkTable
