import SpotQueue.ActiveTickets
import SpotQueue.Atomicity
import SpotQueue.AuditTrail
import SpotQueue.Awaits.AsyncPool
import SpotQueue.Awaits.AsyncProjection
import SpotQueue.Awaits.AsyncTurns
import SpotQueue.BoundTables
import SpotQueue.CanonicalBodies
import SpotQueue.DailyNumbers
import SpotQueue.Departure
import SpotQueue.Disclosure
import SpotQueue.DistinctTables
import SpotQueue.Distribution
import SpotQueue.DuplicateTickets
import SpotQueue.DurableRows
import SpotQueue.Entity
import SpotQueue.Environment
import SpotQueue.EtaClient
import SpotQueue.FallbackEtas
import SpotQueue.Frame
import SpotQueue.FrontDoor
import SpotQueue.Guards
import SpotQueue.GuestBodies
import SpotQueue.HttpApi
import SpotQueue.Leaving
import SpotQueue.LineDuty
import SpotQueue.LineOrder
import SpotQueue.LineReplay
import SpotQueue.LineSettles
import SpotQueue.LiveRun
import SpotQueue.NoOvertaking
import SpotQueue.Occupancy
import SpotQueue.PeopleAhead
import SpotQueue.PoolIsolation
import SpotQueue.PushRetries
import SpotQueue.PushSpec
import SpotQueue.QuotedTickets
import SpotQueue.RankedLine
import SpotQueue.RenumberedLine
import SpotQueue.Reordering
import SpotQueue.Repository
import SpotQueue.Requests
import SpotQueue.RestaurantAlone
import SpotQueue.RestaurantTurns
import SpotQueue.RestaurantView
import SpotQueue.RingCount
import SpotQueue.RoomMembership
import SpotQueue.SettledLine
import SpotQueue.SettledRun
import SpotQueue.SideChannels
import SpotQueue.SocketHub
import SpotQueue.StaffIsolation
import SpotQueue.StaffLine
import SpotQueue.Stewardship
import SpotQueue.StorableEtas
import SpotQueue.Subscribers
import SpotQueue.UpstreamFailures
import SpotQueue.WaitDuration
import SpotQueue.WellFormedRows
