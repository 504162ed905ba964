import F4MP.ServerModel

/-!
The ENet connection of a client.  What ENet and the resolver answer comes in from
outside; what is asked of ENet is returned in order.
-/

namespace F4MP.NetClientModel

open F4MP.Types
open F4MP.Protocol
open F4MP.ServerModel

def connectTimeout : Time := 8000000000

inductive State where
  | kDisconnected
  | kConnecting
  | kConnected
deriving DecidableEq

/-- `host` and `peer` say whether the pointers of these names are set. -/
structure NetClient where
  enetReady : Bool
  host : Bool := false
  peer : Bool := false
  state : State := .kDisconnected
  connectStart : Time := 0
deriving DecidableEq

/-- What the client asks of ENet. -/
inductive Request where
  | connect (host : Bytes) (port : UInt16)
  | disconnectNow
  | peerReset
  | send (channel : Channel) (bytes : Bytes)
deriving DecidableEq

/-- How far a connection attempt gets, and when. -/
structure Dial where
  hostCreated : Bool := true
  resolved : Bool := true
  peerCreated : Bool := true
  now : Time

def reset (net : NetClient) : NetClient × List Request :=
  ({ net with peer := false, state := .kDisconnected },
    if net.peer then
      [if net.state = .kConnected then .disconnectNow else .peerReset]
    else [])

/-- `false` if the attempt could not be started. -/
def connect (net : NetClient) (dial : Dial) (host : Bytes) (port : UInt16) :
    Bool × NetClient × List Request :=
  if !net.enetReady then (false, net, [])
  else
    let (net, requests) := reset net
    let net := { net with host := net.host || dial.hostCreated }
    if !net.host || !dial.resolved || !dial.peerCreated then (false, net, requests)
    else
      (true, { net with peer := true, state := .kConnecting, connectStart := dial.now },
        requests ++ [.connect host port])

def send (net : NetClient) (channel : Channel) (bytes : Bytes) : List Request :=
  if net.state ≠ .kConnected || !net.peer then [] else [.send channel bytes]

def timedOut (net : NetClient) (now : Time) : Bool :=
  net.state = .kConnecting && connectTimeout < now - net.connectStart

end F4MP.NetClientModel
