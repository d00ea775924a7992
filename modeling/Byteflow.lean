import Byteflow.Confinement
import Byteflow.CapReply
import Byteflow.DeliveryOrder
import Byteflow.JitCache
import Byteflow.HeapRun
import Byteflow.FormatTrust
import Byteflow.LinkRace
import Byteflow.MonitorRace
import Byteflow.Admission
import Byteflow.Custody
import Byteflow.DedupWindow
import Byteflow.RemoteSend
import Byteflow.DeliverFrame
import Byteflow.FlowTables
import Byteflow.HostFail
import Byteflow.Outbound
import Byteflow.Immediates
import Byteflow.MailboxRing
import Byteflow.SystemHops
import Byteflow.MailboxLedger
import Byteflow.StaleDeadline
import Byteflow.TimerWheel
import Byteflow.Preemption
import Byteflow.CpuBudget
import Byteflow.ExitPropagation
import Byteflow.ValueSize
import Byteflow.BridgeAccounts
import Byteflow.NameRace
import Byteflow.HostAwaitIndex
import Byteflow.WaveSlots
import Byteflow.FusedImmediates
import Byteflow.TcpWriter
import Byteflow.TokenBucket
import Byteflow.ChunkBuilder
import Byteflow.Reservations
