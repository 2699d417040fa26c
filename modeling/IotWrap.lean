import IotWrap.Lib.Machine
import IotWrap.Lib.Directory
import IotWrap.Lib.CMem
import IotWrap.Lib.Decimal
import IotWrap.Lib.Monitor
import IotWrap.Lib.Timer
import IotWrap.Lib.Heap
import IotWrap.Lib.Parcel
import IotWrap.Lib.Locks
import IotWrap.Service
import IotWrap.Registry
import IotWrap.Dispatch
import IotWrap.Shadow
import IotWrap.Push
import IotWrap.Follow
import IotWrap.Buffers
import IotWrap.Report
import IotWrap.Delivered
import IotWrap.Noticed
import IotWrap.Startup
import IotWrap.Wakeup
import IotWrap.Registered
import IotWrap.Client
import IotWrap.Binder
import IotWrap.Sessions
import IotWrap.Deaths
import IotWrap.Followers
import IotWrap.Slots
import IotWrap.Connect
import IotWrap.Reconnect
import IotWrap.Period
import IotWrap.Handle
import IotWrap.Locking
import IotWrap.Deadlock
import IotWrap.Pointers
import IotWrap.FirstAnswer
import IotWrap.Stored
import IotWrap.Changes
import IotWrap.RoundTrip
import IotWrap.Accepted
import IotWrap.Lib.CString
import IotWrap.Lib.Json
import IotWrap.Command
import IotWrap.Leftover
import IotWrap.CommandName
import IotWrap.Waiting
import IotWrap.Table
import IotWrap.Timing
import IotWrap.Atomic
import IotWrap.Settled
import IotWrap.Proxy
import IotWrap.Processes
import IotWrap.Callback
import IotWrap.Applications
import IotWrap.Agreement
import IotWrap.Objects
import IotWrap.Reached
import IotWrap.Memory
import IotWrap.Owned
import IotWrap.Represented
import IotWrap.MemorySafe
import IotWrap.Arrived
