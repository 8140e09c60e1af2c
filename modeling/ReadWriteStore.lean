import ReadWriteStore.Transition.System
import ReadWriteStore.Transition.Tally
import ReadWriteStore.Util.Atomic
import ReadWriteStore.Header.Machine
import ReadWriteStore.Header.Proofs.ExclusionProofs
import ReadWriteStore.Header.Proofs.WakeupProofs
import ReadWriteStore.Header.Proofs.RefineProofs
import ReadWriteStore.Header.Proofs.JustifyProofs
import ReadWriteStore.Header.Publication
import ReadWriteStore.Header.Proofs.PublicationProofs
import ReadWriteStore.Bucket.Block
import ReadWriteStore.Bucket.Machine
import ReadWriteStore.Header.Exclusive
import ReadWriteStore.Store.Iter
import ReadWriteStore.Store.Program
import ReadWriteStore.Store.Machine
import ReadWriteStore.Bucket.Proofs.BlockProofs
import ReadWriteStore.Bucket.Proofs.MachineProofs
import ReadWriteStore.Bucket.Proofs.InvariantProofs
import ReadWriteStore.Header.Proofs.ServeProofs
import ReadWriteStore.Bucket.Layout
import ReadWriteStore.Bucket.Proofs.LayoutProofs
import ReadWriteStore.Header.Proofs.TimeoutProofs
import ReadWriteStore.Store.Proofs.StorageProofs
import ReadWriteStore.Store.Proofs.MachineProofs
import ReadWriteStore.Store.Foreign
import ReadWriteStore.Store.Proofs.ForeignProofs
import ReadWriteStore.Bucket.Growth
import ReadWriteStore.Bucket.Proofs.HandoutProofs
import ReadWriteStore.Bucket.Proofs.GrowthProofs
import ReadWriteStore.Bucket.Proofs.AllocProofs
import ReadWriteStore.Bucket.Proofs.CapacityProofs
import ReadWriteStore.Store.Walk
import ReadWriteStore.Store.Proofs.SizeHintProofs
import ReadWriteStore.Bucket.Proofs.SequentialProofs
import ReadWriteStore.Store.Capacity
import ReadWriteStore.Store.Proofs.CapacityProofs
import ReadWriteStore.Store.Ownership
import ReadWriteStore.Store.Proofs.LinkProofs
import ReadWriteStore.Header.Proofs.OccupancyProofs
import ReadWriteStore.Store.Proofs.RefinementProofs
import ReadWriteStore.Store.Proofs.IdentityProofs
import ReadWriteStore.Store.Block
import ReadWriteStore.Store.Proofs.BlockProofs
import ReadWriteStore.Header.Packed
import ReadWriteStore.Header.Proofs.PackedProofs
import ReadWriteStore.Bucket.Calls
import ReadWriteStore.Bucket.Proofs.CallsProofs
import ReadWriteStore.Transition.Cycle
import ReadWriteStore.Store.Balance
import ReadWriteStore.Store.Proofs.BalanceProofs
import ReadWriteStore.Header.Proofs.RetryProofs
import ReadWriteStore.Bucket.Proofs.FillProofs
import ReadWriteStore.Store.Proofs.FillProofs
import ReadWriteStore.Store.Iteration
import ReadWriteStore.Store.Proofs.IterationProofs
import ReadWriteStore.Store.Proofs.CustodyProofs
import ReadWriteStore.Header.Proofs.MissProofs
import ReadWriteStore.Store.Lifetime
import ReadWriteStore.Store.Proofs.LifetimeProofs
import ReadWriteStore.Store.Measure
import ReadWriteStore.Store.Proofs.MeasureProofs
import ReadWriteStore.Store.Peak
import ReadWriteStore.Store.Proofs.CountProofs
import ReadWriteStore.Store.Proofs.PeakProofs
import ReadWriteStore.Transition.Object
import ReadWriteStore.Header.Proofs.HoldersProofs
import ReadWriteStore.Store.Map
import ReadWriteStore.Store.Proofs.MapProofs
import ReadWriteStore.Store.Proofs.LinearizationProofs
import ReadWriteStore.Store.Guard
import ReadWriteStore.Store.Proofs.GuardProofs
import ReadWriteStore.Store.Fate
import ReadWriteStore.Store.Proofs.FateProofs
import ReadWriteStore.Store.Proofs.DropProofs
import ReadWriteStore.Store.Checks
import ReadWriteStore.Store.Proofs.ChecksProofs
import ReadWriteStore.Header.Blocking
import ReadWriteStore.Header.Proofs.BlockingProofs
import ReadWriteStore.Bucket.Blocking
import ReadWriteStore.Bucket.Proofs.BlockingProofs
import ReadWriteStore.Store.Blocking
import ReadWriteStore.Store.Proofs.BlockingProofs
import ReadWriteStore.Header.Interference
import ReadWriteStore.Header.Proofs.InterferenceProofs
import ReadWriteStore.Store.Progress
import ReadWriteStore.Store.Proofs.ProgressProofs
import ReadWriteStore.Store.Reference
import ReadWriteStore.Store.Proofs.ReadersProofs
import ReadWriteStore.Store.Proofs.ReferenceProofs
import ReadWriteStore.Store.Proofs.CrowdProofs
