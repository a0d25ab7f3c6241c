import AtomicsAndLocks.Interleaving
import AtomicsAndLocks.Usize
import AtomicsAndLocks.Lockstep
import AtomicsAndLocks.Ownership
import AtomicsAndLocks.Arc.Optimization
import AtomicsAndLocks.Arc.OptimizationInvariant
import AtomicsAndLocks.Arc.OptimizationLifetime
import AtomicsAndLocks.Arc.OptimizationGetMut
import AtomicsAndLocks.Mutex.Model
import AtomicsAndLocks.Mutex.Invariant
import AtomicsAndLocks.Mutex.Safety
import AtomicsAndLocks.Arc.WeakPointer
import AtomicsAndLocks.Arc.WeakPointerInvariant
import AtomicsAndLocks.Arc.WeakPointerLifetime
import AtomicsAndLocks.Arc.Overflow
import AtomicsAndLocks.Arc.Calls
import AtomicsAndLocks.Arc.Equivalence
import AtomicsAndLocks.Arc.ReferenceCounter
import AtomicsAndLocks.Channel.Unsafe
import AtomicsAndLocks.Channel.RuntimeChecks
import AtomicsAndLocks.Channel.SingleAtomic
import AtomicsAndLocks.Channel.Typed
import AtomicsAndLocks.Channel.Blocking
import AtomicsAndLocks.Channel.WithMutex
import AtomicsAndLocks.Ids.Issuing
import AtomicsAndLocks.Ids.WithoutOverflow
import AtomicsAndLocks.LazyInit
import AtomicsAndLocks.SpinLock
import AtomicsAndLocks.Memory.Views
import AtomicsAndLocks.Ordering.ReleaseAcquire
import AtomicsAndLocks.Ordering.Fence
import AtomicsAndLocks.Ordering.SequentiallyConsistent
import AtomicsAndLocks.Ordering.SpawnJoin
import AtomicsAndLocks.Ordering.Relaxed
import AtomicsAndLocks.Atomics.LazyKey
import AtomicsAndLocks.Atomics.Progress
import AtomicsAndLocks.Atomics.Statistics
import AtomicsAndLocks.Threads.Parking
import AtomicsAndLocks.Os.Futex
import AtomicsAndLocks.Atomics.StopFlag
import AtomicsAndLocks.Ids.WrapAround
import AtomicsAndLocks.Ordering.Experiment
