import F4MP.ServerConsole

/-!
Whole runs of the server.  An input is an ENet event, a bot pass or a console
line, with the time it is handled at and the order in which the player map happens
to be iterated then.
-/

namespace F4MP.ServerRun

open F4MP.Types
open F4MP.Protocol
open F4MP.Arith
open F4MP.ServerModel
open F4MP.ServerConsole
open F4MP.Library.HashTable
open F4MP.Library.Runs

inductive Event where
  | connect (peer : Peer)
  | receive (peer : Peer) (bytes : Bytes)
  | disconnect (peer : Peer)
  | updateBots
  | command (line : Bytes)
deriving DecidableEq

structure Input where
  now : Time
  order : Shuffle (Sigma fun _ : Peer => Player)
  event : Event

/-- The server with its player map in another iteration order. -/
def reorder (s : Server) (order : Shuffle (Sigma fun _ : Peer => Player)) : Server :=
  { s with players := arrange order s.players }

section Step

variable [CppFloat F32] [Libm F32] [Platform]

def handle (s : Server) (now : Time) : Event → Server × List Out
  | .connect peer => handleConnect s now peer
  | .receive peer bytes => handlePacket s now peer bytes
  | .disconnect peer => handleDisconnect s peer
  | .updateBots => updateBots s now
  | .command line => executeCommand s line

def step (s : Server) (input : Input) : Server × List Out :=
  handle (reorder s input.order) input.now input.event

end Step

/-- A packet on its way to a client.  `sentAt` is when it was sent; the client never
sees it. -/
structure Sent where
  sentAt : Time
  channel : Channel
  bytes : Bytes
deriving DecidableEq

/-- What goes to one peer, in send order. -/
def sentTo (peer : Peer) (now : Time) (outs : List Out) : List Sent :=
  outs.filterMap fun out =>
    match out with
    | .send dest channel bytes => if dest = peer then some ⟨now, channel, bytes⟩ else none
    | .disconnectLater _ => none

/-- The server, all that was sent to every peer on its latest connection, and how
many ids were handed out. -/
structure Network where
  server : Server
  link : Peer → List Sent
  issued : Nat

/-- An input that opens a connection to the peer. -/
def opens (s : Server) (input : Input) (peer : Peer) : Bool :=
  input.event = .connect peer && (s.players.lookup peer).isNone

section Runs

variable [CppFloat F32] [Libm F32] [Platform]

def Network.step (net : Network) (input : Input) : Network where
  server := (ServerRun.step net.server input).1
  link peer :=
    (if opens net.server input peer then [] else net.link peer) ++
      sentTo peer input.now (ServerRun.step net.server input).2
  issued :=
    net.issued + if (ServerRun.step net.server input).1.nextId = net.server.nextId then 0 else 1

/-- A server that was just started. -/
def Network.initial (config : Config) (startTime : Time) : Network where
  server := { config, startTime }
  link _ := []
  issued := 0

/-- The network after a run of the server. -/
def Network.after (config : Config) (startTime : Time) (inputs : List Input) : Network :=
  run Network.step (Network.initial config startTime) inputs

@[simp] theorem Network.after_nil (config : Config) (startTime : Time) :
    Network.after config startTime [] = Network.initial config startTime := rfl

@[simp] theorem Network.after_concat (config : Config) (startTime : Time) (inputs : List Input)
    (input : Input) : Network.after config startTime (inputs ++ [input]) =
      (Network.after config startTime inputs).step input :=
  run_concat _ _ _ _

/-- What holds of a server just started and is preserved by the steps of a run holds
after the run.  A step may use what is known of the run before it. -/
theorem Network.after_induction {P : Network → Prop} {config : Config} {startTime : Time}
    (hstart : P (Network.initial config startTime))
    (hstep : ∀ inputs input, P (Network.after config startTime inputs) →
      P ((Network.after config startTime inputs).step input))
    (inputs : List Input) : P (Network.after config startTime inputs) :=
  run_induction (P := fun _ net => P net) hstart hstep inputs

end Runs

def twoPlayers : List Input :=
  [⟨0, .keep _, .connect 0⟩,
    ⟨0, .keep _, .receive 0 (encode { name := ascii "Ada" : HelloMsg })⟩,
    ⟨0, .keep _, .connect 1⟩,
    ⟨0, .keep _, .receive 1 (encode { name := ascii "Bob" : HelloMsg })⟩]

end F4MP.ServerRun
