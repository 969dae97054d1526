import Unvmed.Lib.Run
import Unvmed.Lib.Tally
import Unvmed.Lib.Ledger
import Unvmed.Lib.Linked
import Unvmed.Lib.Bitmap
import Unvmed.Lib.CString
import Unvmed.Lib.Field
import Unvmed.Lib.Bytes
import Unvmed.Lib.Interleave
import Unvmed.Lib.Chain
import Unvmed.Lib.Layout
import Unvmed.Lib.PhaseRing
import Unvmed.Lib.Ring
import Unvmed.Lib.Scan
import Unvmed.Lib.Share
import Unvmed.Lib.Proc
import Unvmed.Lib.Rings
import Unvmed.Lib.Resources
import Unvmed.Ccan.List
import Unvmed.Ccan.Entries
import Unvmed.Basic
import Unvmed.Vcq.Pool
import Unvmed.Cmd.Cid
import Unvmed.Cmd.CidProofs
import Unvmed.Cmd.CidAlloc
import Unvmed.Cmd.Init
import Unvmed.Cmd.Race
import Unvmed.Cmd.Path
import Unvmed.Cmd.Inflight
import Unvmed.Cmd.Routing
import Unvmed.Cmd.Conflict
import Unvmed.Cmd.Timer
import Unvmed.Cmd.Freeze
import Unvmed.Cmd.Lifetime
import Unvmed.Cmd.Handover
import Unvmed.Cmd.Wait
import Unvmed.Vcq.Routing
import Unvmed.Vcq.Ring
import Unvmed.Queue.Registry
import Unvmed.Queue.Lifetime
import Unvmed.Queue.Holders
import Unvmed.Queue.Geometry
import Unvmed.Ctrl.State
import Unvmed.Ctrl.Threads
import Unvmed.Ctrl.Registry
import Unvmed.Ctrl.Namespaces
import Unvmed.Ctrl.Invalidate
import Unvmed.Ctrl.Recovery
import Unvmed.Ctrl.PciCap
import Unvmed.Ctrl.PciReset
import Unvmed.Ctrl.PciRecovery
import Unvmed.Ctrl.Irq
import Unvmed.Ctrl.Close
import Unvmed.Ctrl.Shmem
import Unvmed.Ctrl.Context
import Unvmed.Ctrl.Restore
import Unvmed.Ctrl.Hmb
import Unvmed.Ctrl.DmaBufs
import Unvmed.Ctrl.Bdf
import Unvmed.Queue.Vectors
import Unvmed.Queue.Reapers
import Unvmed.Queue.ReaperThread
import Unvmed.Queue.IrqCount
import Unvmed.Queue.Arrays
import Unvmed.Queue.Discard
import Unvmed.Queue.Drain
import Unvmed.Queue.Doorbell
import Unvmed.Queue.Cancel
import Unvmed.Queue.Bounds
import Unvmed.Ipc.Argv
import Unvmed.Daemon.Refs
import Unvmed.Daemon.Jobs
import Unvmed.Daemon.Reset
import Unvmed.Daemon.QueueCmds
import Unvmed.Daemon.ReadWrite
import Unvmed.Daemon.Handlers
import Unvmed.Daemon.ExtendedLba
import Unvmed.Fio.Pi
import Unvmed.Fio.PrpList
import Unvmed.Fio.Split
import Unvmed.Fio.Protect
import Unvmed.Fio.Blocks
import Unvmed.Fio.Regions
import Unvmed.Fio.Cmb
import Unvmed.Fio.Mems
import Unvmed.Fio.Mappings
import Unvmed.Fio.Names
import Unvmed.Cmd.Tags
import Unvmed.Fio.Queue
import Unvmed.Daemon.JobThreads
import Unvmed.Ipc.Heard
import Unvmed.Ipc.Own
