import RyuRooms.Foundation.Machine
import RyuRooms.Store.Change
import RyuRooms.Model.Sample
import RyuRooms.Store.History
import RyuRooms.Store.Rows
import RyuRooms.Store.RunLink
import RyuRooms.Foundation.Grants
import RyuRooms.Store.Access
import RyuRooms.Store.Capacity
import RyuRooms.Store.Invites
import RyuRooms.Store.Sessions
import RyuRooms.Store.Answers
import RyuRooms.Store.Atomicity
import RyuRooms.Store.Retries
import RyuRooms.Store.CurrentRun
import RyuRooms.Store.Unreadable
import RyuRooms.Store.ShareOrigin
import RyuRooms.Runtime.Closing
import RyuRooms.Runtime.Requests
import RyuRooms.Runtime.Revocation
import RyuRooms.Runtime.Signals
import RyuRooms.Runtime.Tended
import RyuRooms.Runtime.Terminals
import RyuRooms.Client.ModelStream
import RyuRooms.Client.Publisher
import RyuRooms.Client.StreamFrames
import RyuRooms.Crypto.Splice
import RyuRooms.Crypto.LogFaults
import RyuRooms.Crypto.LogDamage
import RyuRooms.Crypto.Cursor
import RyuRooms.Crypto.Labels
import RyuRooms.Crypto.Contexts
import RyuRooms.Crypto.KeyArrival
import RyuRooms.Crypto.Handover
import RyuRooms.Client.Dechunk
import RyuRooms.Crypto.VectorInvariants
import RyuRooms.Crypto.VectorSearch
import RyuRooms.Crypto.FirstLaunch
import RyuRooms.Crypto.SecretFile
import RyuRooms.Store.Messages
import RyuRooms.Store.GuestStream
import RyuRooms.Runtime.GuestStream
import RyuRooms.Runtime.Lives
import RyuRooms.Runtime.GuestPage
import RyuRooms.Runtime.ListRooms
import RyuRooms.Crypto.Custody
import RyuRooms.Crypto.AppKey
