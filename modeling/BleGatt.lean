import BleGatt.Connection.DeadlineArithmetic
import BleGatt.Connection.GiveUp
import BleGatt.Connection.Handle
import BleGatt.Connection.LinkAccounting
import BleGatt.Connection.PumpQueue
import BleGatt.Connection.RadioLag
import BleGatt.Connection.Redial
import BleGatt.Connection.Status
import BleGatt.Connection.UpDown
import BleGatt.Connection.WakeUp
import BleGatt.Drivers.AndroidAdvertise
import BleGatt.Drivers.AndroidGuard
import BleGatt.Drivers.AndroidScan
import BleGatt.Drivers.AndroidSession
import BleGatt.Drivers.BleGattBridge
import BleGatt.Drivers.BrokerReplies
import BleGatt.Drivers.BrokerStreams
import BleGatt.Drivers.CompletionMatch
import BleGatt.Drivers.DialLocks
import BleGatt.Drivers.ExecuteWrite
import BleGatt.Drivers.LinuxExclusion
import BleGatt.Drivers.LinuxIsolation
import BleGatt.Drivers.LinuxOwedStop
import BleGatt.Drivers.LinuxWatched
import BleGatt.Drivers.LockPerAddress
import BleGatt.Drivers.MockShutdown
import BleGatt.Drivers.MockWire
import BleGatt.Drivers.NotifyOnce
import BleGatt.Drivers.Recovery
import BleGatt.Drivers.SessionReuse
import BleGatt.Drivers.StaleHandles
import BleGatt.Drivers.StaleState
import BleGatt.Iroh.BarrierFifo
import BleGatt.Iroh.CloseLink
import BleGatt.Iroh.CloseSent
import BleGatt.Iroh.LearnedBacked
import BleGatt.Iroh.OneDial
import BleGatt.Iroh.Release
import BleGatt.Iroh.Retired
import BleGatt.Lib.CountedMutex
import BleGatt.Plugin.LazyDriver
import BleGatt.Power.Profiles
import BleGatt.Profile.Datagram.ChannelSize
import BleGatt.Profile.Datagram.ConnectionOwner
import BleGatt.Profile.Datagram.EndToEnd
import BleGatt.Profile.Datagram.GapReport
import BleGatt.Profile.Datagram.IdReuse
import BleGatt.Profile.Datagram.IdleExpiry
import BleGatt.Profile.Datagram.MessageId
import BleGatt.Profile.Datagram.ReassemblyBound
import BleGatt.Profile.Datagram.RoundTrip
import BleGatt.Profile.Datagram.ServeSession
import BleGatt.Roles.Adapter
