import CxlLock.Lib.Transition
import CxlLock.Types
import CxlLock.LockInterface
import CxlLock.CallRuns
import CxlLock.Mcs.GlobalLock
import CxlLock.Mcs.SeveralLocks
import CxlLock.Qspinlock.Word
import CxlLock.Qspinlock.GlobalLock
import CxlLock.Qspinlock.SeveralLocks
import CxlLock.Faa.GlobalLock
import CxlLock.Faa.Requests
import CxlLock.Faa.TicketOrder
import CxlLock.Faa.OrphanedOwner
import CxlLock.Faa.Cancel
import CxlLock.Lib.Interleaving
import CxlLock.Faa.Interleaving
import CxlLock.Mcs.Interleaving
import CxlLock.Mcs.Exclusion
import CxlLock.Mcs.ReleaseOwner
import CxlLock.Mcs.Cancel
import CxlLock.Qspinlock.Interleaving
import CxlLock.Qspinlock.Exclusion
import CxlLock.Qspinlock.ReleaseOwner
import CxlLock.Qspinlock.ReleaseFrees
import CxlLock.Qspinlock.Cancel
import CxlLock.Lib.LinkedQueue
import CxlLock.Mcs.Fifo
import CxlLock.Qspinlock.Queue
import CxlLock.Mcs.NoLostWaiter
import CxlLock.LocalLock
import CxlLock.Cas.GlobalLock
import CxlLock.Cas.Interleaving
import CxlLock.Cas.Exclusion
import CxlLock.Cas.SeveralLocks
import CxlLock.Faa.SeveralLocks
import CxlLock.DistributedLock
import CxlLock.Joining
import CxlLock.TwoTierRelease
import CxlLock.TwoTierThreads
import CxlLock.SharedMemory
import CxlLock.Lib.ByteMemory
import CxlLock.NodeRegistry
import CxlLock.NodeQueries
import CxlLock.Lib.StandardText
import CxlLock.ConfigFile
import CxlLock.ConfigRoundTrip
import CxlLock.Lib.AccessProgram
import CxlLock.Lib.CacheLines
import CxlLock.SoftwareConsistency
import CxlLock.Cas.OwnSlots
import CxlLock.Faa.Accesses
import CxlLock.Cas.Accesses
import CxlLock.Mcs.Accesses
import CxlLock.Qspinlock.Accesses
import CxlLock.AccessModel
import CxlLock.WriteBack
import CxlLock.PollVisibility
import CxlLock.PollForGrant
import CxlLock.Faa.WrapAround
import CxlLock.SystemLifecycle
import CxlLock.Cas.FailedAcquire
import CxlLock.Cas.Scan
import CxlLock.Lib.WordMixing
import CxlLock.DataHash
import CxlLock.CacheFlush
import CxlLock.LocalLockContract
import CxlLock.Mcs.SuccessorWait
import CxlLock.PollAddresses
import CxlLock.Lib.FairRun
import CxlLock.Mcs.FairService
import CxlLock.Faa.FairService
import CxlLock.Cas.FairService
import CxlLock.Lib.Simulation
import CxlLock.TwoTierExclusion
import CxlLock.Mcs.JoinOrder
import CxlLock.Qspinlock.StrandedWaiter
import CxlLock.LockManager
import CxlLock.ManagerStatistics
import CxlLock.ScanSettles
import CxlLock.FailureDetector
import CxlLock.ClusterFiles
import CxlLock.Lib.Ownership
import CxlLock.RegionResources
import CxlLock.MemoryPool
import CxlLock.Lib.SortedMap
import CxlLock.AlgorithmRegistry
