import FrameKeep.Cache.Plain
import FrameKeep.Cache.Report
import FrameKeep.Host.Op
import FrameKeep.Proofs.Arena
import FrameKeep.Proofs.SlotList
import FrameKeep.Proofs.Sequence
import FrameKeep.Proofs.Cache.Entries
import FrameKeep.Proofs.Cache.Arrangement
import FrameKeep.Proofs.Cache.Trimming
import FrameKeep.Proofs.Cache.Plain
import FrameKeep.Proofs.Cache.Refinement
import FrameKeep.Proofs.Cache.Invariant
import FrameKeep.Proofs.Cache.Access
import FrameKeep.Proofs.Cache.ReuseDistance
import FrameKeep.Proofs.Cache.Coherence
import FrameKeep.Proofs.Scheduler.Phases
import FrameKeep.Proofs.Scheduler.Interleaving
import FrameKeep.Proofs.Scheduler.Freshness
import FrameKeep.Proofs.Scheduler.Discipline
import FrameKeep.Proofs.Cache.Room
import FrameKeep.Proofs.Scheduler.Playback
import FrameKeep.Proofs.Cache.Inclusion
import FrameKeep.Proofs.Cache.Noninterference
import FrameKeep.Proofs.Cache.Accounting
import FrameKeep.Proofs.Cache.Policy
import FrameKeep.Proofs.Cache.Convergence
import FrameKeep.Proofs.Cache.Checked
import FrameKeep.Proofs.Cache.Growth
import FrameKeep.Proofs.Host.Ownership
import FrameKeep.Proofs.Host.Registry
import FrameKeep.Proofs.Host.Trace
import FrameKeep.Proofs.Host.Growth
import FrameKeep.Proofs.Cache.Batch
import FrameKeep.Proofs.Host.Nodes
import FrameKeep.Proofs.Host.Residency
import FrameKeep.Proofs.Scheduler.FirstPhase
import FrameKeep.Proofs.Scheduler.SecondPhase
import FrameKeep.Proofs.Cache.Adjustment
import FrameKeep.Proofs.Host.Naming
import FrameKeep.Proofs.Cache.Composition
import FrameKeep.Proofs.Cache.NoHistory
import FrameKeep.Proofs.Cache.Storage
import FrameKeep.Proofs.Recycling
