import Ice.Stream.OptionalHeaders
import Ice.Classes.CycleFree
import Ice.WebSocket.Writing
import Ice.Connection.Backpressure
import Ice.Connection.Completion
import Ice.Connection.Inactivity
import Ice.Glacier2.Blobject
import Ice.SSL.TrustManager
import Ice.IceStorm.Subscriber
import Ice.Batch.Intact
import Ice.IceGrid.TwoStage
import Ice.Glacier2.RoutingTable
import Ice.Glacier2.AddressFilter
import Ice.Proxy.CommandLine
import Ice.Proxy.Base64
import Ice.Proxy.RoundTrip
import Ice.Proxy.Ordering
import Ice.IceStorm.Identities
import Ice.IceGrid.ReplicaGroup
import Ice.IceGrid.ReplicaSync
import Ice.IceGrid.ServerSync
import Ice.IceGrid.ServerSignals
import Ice.Adapter.ObjectAdapterI
import Ice.Pool.Followers
import Ice.Slice.StringConstants
import Ice.Slice.Creations
import Ice.Slice.ReadBack
