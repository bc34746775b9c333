import Clara.Lib.KeyedList
import Clara.Lib.Bytes
import Clara.Lib.Buffer
import Clara.Lib.Prog
import Clara.Lib.Interleave
import Clara.Lib.Serve
import Clara.Lib.Ledger
import Clara.Lib.Matching
import Clara.Lib.Layout
import Clara.Lib.Heap
import Clara.Lib.Footprint
import Clara.Lib.RedBlack
import Clara.Common.Types
import Clara.Common.IdSet
import Clara.Common.Set
import Clara.Common.Rb
import Clara.Common.RbTree
import Clara.Common.SetMap
import Clara.Common.RbSet
import Clara.Common.RbCells
import Clara.Common.RbSearch
import Clara.Common.RbProbe
import Clara.Common.RbRemoval
import Clara.Common.RbWalk
import Clara.Common.RbRuns
import Clara.Common.Net
import Clara.Common.Block
import Clara.Common.Stream
import Clara.Common.Chunks
import Clara.Common.Sockets
import Clara.Common.Relay
import Clara.Common.Api
import Clara.Common.Requests
import Clara.Common.Description
import Clara.Common.Rpc
import Clara.Common.Drain
import Clara.Common.Expected
import Clara.Common.Astray
import Clara.Common.StreamSpec
import Clara.Common.Lock
import Clara.Agent.State
import Clara.Agent.Object
import Clara.Agent.Remote
import Clara.Agent.Peers
import Clara.Agent.OpenCl
import Clara.Agent.Handlers
import Clara.Agent.Turn
import Clara.Agent.Area
import Clara.Agent.Frame
import Clara.Agent.Run
import Clara.Agent.Locking
import Clara.Agent.ObjectSpec
import Clara.Agent.RefCount
import Clara.Agent.Ownership
import Clara.Agent.Phases
import Clara.Agent.Store
import Clara.Agent.Failure
import Clara.Agent.Forwarding
import Clara.Agent.Permanent
import Clara.Agent.Teardown
import Clara.Agent.Registration
import Clara.Agent.Departure
import Clara.Agent.Balance
import Clara.Agent.Routing
import Clara.Agent.Description
import Clara.Agent.Query
import Clara.Agent.Enumeration
import Clara.Agent.Pool
import Clara.Agent.Lifecycle
import Clara.Agent.Leaks
import Clara.Agent.Nesting
import Clara.Agent.Memput
import Clara.Agent.Expected
import Clara.Agent.Custody
import Clara.Agent.Rollback
import Clara.Agent.Sizes
import Clara.Agent.Intake
import Clara.Agent.Enlisting
import Clara.Provider.Description
import Clara.Provider.State
import Clara.Provider.OpenCl
import Clara.Provider.Execute
import Clara.Provider.Isolation
import Clara.Provider.Translate
import Clara.Provider.IdLists
import Clara.Provider.KernelArg
import Clara.Provider.Frame
import Clara.Provider.Main
import Clara.Provider.Turn
import Clara.Provider.Service
import Clara.Provider.Store
import Clara.Provider.Unknown
import Clara.Provider.Custody
import Clara.Provider.Sizes
import Clara.Provider.Runs
import Clara.Provider.Reverse
import Clara.Provider.Memput
import Clara.Provider.Shutdown
import Clara.Provider.Startup
import Clara.Joint.Pair
import Clara.Joint.Conversation
import Clara.Consumer.Calls
import Clara.Consumer.OpenCl
import Clara.Consumer.Custody
import Clara.Joint.Quiescence
import Clara.Joint.Session
import Clara.Joint.Transfer
import Clara.Joint.Marshalling
import Clara.Joint.Events
import Clara.Joint.RoundTrip
import Clara.Joint.Fetch
import Clara.Joint.Description
import Clara.Joint.Dispatch
import Clara.Joint.Custody
import Clara.Joint.Handles
import Clara.Joint.Availability
import Clara.Joint.Context
import Clara.Joint.Conserve
import Clara.Joint.Startup
import Clara.Joint.Enrolment
