import Cosidia.Theory.Program
import Cosidia.Theory.Heap
import Cosidia.Theory.Reachable
import Cosidia.Theory.BucketMap
import Cosidia.Core.Basic
import Cosidia.Core.Action
import Cosidia.Core.ActionList
import Cosidia.Objects.BaseObject
import Cosidia.Objects.ObjectList
import Cosidia.Core.Core
import Cosidia.Objects.Execution
import Cosidia.Core.Loop
import Cosidia.Verify.Specs
import Cosidia.Verify.Order
import Cosidia.Verify.Moments
import Cosidia.Verify.Runs
import Cosidia.Verify.Stages
import Cosidia.Verify.Stepwise
import Cosidia.Verify.Phases
import Cosidia.Verify.Ids
import Cosidia.Verify.Serial
import Cosidia.Objects.ObjectCache
import Cosidia.Verify.Cache
import Cosidia.Networking.ActiveActionTracker
import Cosidia.Networking.Runtime
import Cosidia.Networking.Router
import Cosidia.Verify.RouterTasks
import Cosidia.Verify.RouterRuns
import Cosidia.Verify.Indications
import Cosidia.Verify.Deadlines
import Cosidia.Objects.ObjectFactory
import Cosidia.Verify.Registry
import Cosidia.Verify.Relations
import Cosidia.Verify.ObjectLists
import Cosidia.Verify.Resolution
import Cosidia.Verify.Population
import Cosidia.Networking.AccessInterface
import Cosidia.Verify.Receivers
import Cosidia.Mobility.MobilityManager
import Cosidia.Mobility.VehicleObject
import Cosidia.Verify.Pending
import Cosidia.Verify.Traffic
import Cosidia.Verify.Rounds
import Cosidia.Verify.Updates
import Cosidia.Radio.Radio
import Cosidia.Verify.Broadcasts
import Cosidia.Verify.Delays
import Cosidia.Verify.Punctual
import Cosidia.Verify.Initialisation
import Cosidia.Verify.Containers
import Cosidia.Verify.Lifecycle
import Cosidia.Verify.Admission
import Cosidia.Verify.Readiness
import Cosidia.Verify.Requests
import Cosidia.Mobility.Tasks
import Cosidia.Verify.Owners
import Cosidia.Verify.Reception
import Cosidia.Theory.Calls
import Cosidia.Theory.StableQueue
import Cosidia.Verify.ActionLists
import Cosidia.Verify.ActionManagers
import Cosidia.Networking.ManualRuntime
import Cosidia.Verify.Triggers
import Cosidia.Core.SteadyClock
import Cosidia.Verify.SteadyClocks
import Cosidia.Output.SqliteBackend
import Cosidia.Verify.TimingRecords
import Cosidia.Verify.Numbering
import Cosidia.Theory.Mirrors
import Cosidia.Theory.Interleaving
import Cosidia.Objects.Fibers
import Cosidia.Verify.Interleavings
import Cosidia.Theory.BigEndian
import Cosidia.Theory.Format
import Cosidia.Traci.Storage
import Cosidia.Verify.Storages
import Cosidia.Theory.Arrivals
import Cosidia.Traci.Socket
import Cosidia.Verify.Sockets
import Cosidia.Traci.TraCIAPI
import Cosidia.Verify.Commands
import Cosidia.Theory.Assignments
import Cosidia.Verify.Answers
import Cosidia.Verify.Dialogues
import Cosidia.Theory.Moves
import Cosidia.Core.Shutdown
import Cosidia.Verify.Shutdown
import Cosidia.Traci.SumoUpdater
import Cosidia.Verify.Updaters
import Cosidia.Verify.Cycles
import Cosidia.Traci.Scopes
import Cosidia.Verify.Compounds
import Cosidia.Verify.Settings
