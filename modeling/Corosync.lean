import Corosync.Totemsrp.CommitTraversal
import Corosync.Totemsrp.Restart
import Corosync.Totemsrp.OperationalRing
import Corosync.Cpg.ClientState
import Corosync.Cpg.Ghosts
import Corosync.Cpg.Agreement
import Corosync.Cpg.Replay
import Corosync.Votequorum.EvTracking
import Corosync.Votequorum.Loan
import Corosync.Votequorum.Cascade
import Corosync.Cfg.Consent
import Corosync.VsfQuorum
import Corosync.Cmap
import Corosync.Cfg.RekeyContinuity
import Corosync.Sam.Replies
import Corosync.Cpg.Admission
import Corosync.Totemconfig.Preconditions
import Corosync.Totemsrp.FreeBounds
import Corosync.Ipc.EventStream
import Corosync.Votequorum.TieGuard
import Corosync.Votequorum.RejectedReload
import Corosync.Totempg.Capacity
import Corosync.Totempg.Suffixes
import Corosync.Totempg.Groups
import Corosync.Sync.Abort
import Corosync.Cfg.DeletedEntries
import Corosync.Votequorum.AcceptedRequests
import Corosync.Votequorum.NodeOrder
import Corosync.Totemconfig.InterfaceDiff
import Corosync.CsQueueSlots
import Corosync.Icmap.Operations
