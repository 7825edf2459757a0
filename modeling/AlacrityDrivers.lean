import AlacrityDrivers.Library.Allocation
import AlacrityDrivers.Library.AtomicQueue
import AlacrityDrivers.Library.Circular
import AlacrityDrivers.Library.DoublyLinked
import AlacrityDrivers.Library.LinkedList
import AlacrityDrivers.Library.Lists
import AlacrityDrivers.Library.LockedObject
import AlacrityDrivers.Library.Simulation
import AlacrityDrivers.Library.Transition
import AlacrityDrivers.Vbus.BridgeWindow
import AlacrityDrivers.Vbus.BusHandle
import AlacrityDrivers.Vbus.ChildList
import AlacrityDrivers.Vbus.Cookie
import AlacrityDrivers.Vbus.DeviceIdentity
import AlacrityDrivers.Vbus.DrainRace
import AlacrityDrivers.Vbus.DualIndex
import AlacrityDrivers.Vbus.EventDelivery
import AlacrityDrivers.Vbus.EventDrain
import AlacrityDrivers.Vbus.EventPipeline
import AlacrityDrivers.Vbus.EventQueue
import AlacrityDrivers.Vbus.EventRing
import AlacrityDrivers.Vbus.EventWakeup
import AlacrityDrivers.Vbus.EventqInit
import AlacrityDrivers.Vbus.EventqPriming
import AlacrityDrivers.Vbus.FullRace
import AlacrityDrivers.Vbus.Handshake
import AlacrityDrivers.Vbus.Hardware
import AlacrityDrivers.Vbus.HardwareLedger
import AlacrityDrivers.Vbus.Ioq
import AlacrityDrivers.Vbus.IterBounds
import AlacrityDrivers.Vbus.Mailbox
import AlacrityDrivers.Vbus.Occupancy
import AlacrityDrivers.Vbus.PowerStates
import AlacrityDrivers.Vbus.Proxy
import AlacrityDrivers.Vbus.RingAccess
import AlacrityDrivers.Vbus.RingAtomic
import AlacrityDrivers.Vbus.RingQueue
import AlacrityDrivers.Vbus.RingRefinement
import AlacrityDrivers.Vbus.RingTransfer
import AlacrityDrivers.Vbus.RingWindow
import AlacrityDrivers.Vbus.ShmSignal
import AlacrityDrivers.Vbus.SignalInterrupt
import AlacrityDrivers.Vbus.SignalLifetime
import AlacrityDrivers.Venet.Adapter
import AlacrityDrivers.Venet.Availability
import AlacrityDrivers.Venet.Cancel
import AlacrityDrivers.Venet.CancelMatches
import AlacrityDrivers.Venet.Capacity
import AlacrityDrivers.Venet.Completion
import AlacrityDrivers.Venet.ControlStep
import AlacrityDrivers.Venet.CopyFrame
import AlacrityDrivers.Venet.Countdown
import AlacrityDrivers.Venet.DriverLedger
import AlacrityDrivers.Venet.FlagWord
import AlacrityDrivers.Venet.FrameLayout
import AlacrityDrivers.Venet.FrameTag
import AlacrityDrivers.Venet.FramesSent
import AlacrityDrivers.Venet.Initialize
import AlacrityDrivers.Venet.InitializeCleanup
import AlacrityDrivers.Venet.Ledger
import AlacrityDrivers.Venet.NblOutcome
import AlacrityDrivers.Venet.NblSteps
import AlacrityDrivers.Venet.Oid
import AlacrityDrivers.Venet.OidQuery
import AlacrityDrivers.Venet.OidSet
import AlacrityDrivers.Venet.OidStore
import AlacrityDrivers.Venet.ProcessNbl
import AlacrityDrivers.Venet.Queue
import AlacrityDrivers.Venet.QueueRefinement
import AlacrityDrivers.Venet.Quiesce
import AlacrityDrivers.Venet.Send
import AlacrityDrivers.Venet.SendInvariant
import AlacrityDrivers.Venet.SendLock
import AlacrityDrivers.Venet.SendOrder
import AlacrityDrivers.Venet.SendStep
import AlacrityDrivers.Venet.TcbAccounting
import AlacrityDrivers.Venet.TcbLifetime
import AlacrityDrivers.Venet.TcbMemory
import AlacrityDrivers.Venet.TcbRefinement
import AlacrityDrivers.Venet.WorkConservation
