import F4MP.Library.Wires
import F4MP.Transcript
import F4MP.Welcomes

/-!
The server, some clients and the wires between them as one system.  Whatever the order
in which they take their steps and the packets arrive or are lost, what either end of a
connection has is in step with the wires, so that they agree when these are calm.
-/

namespace F4MP.WorldModel

open F4MP.Types
open F4MP.Packet
open F4MP.Protocol
open F4MP.Arith
open F4MP.ServerModel
open F4MP.ServerConsole
open F4MP.ServerRun
open F4MP.ServerTraffic
open F4MP.Participants
open F4MP.Records
open F4MP.SessionModel (NetEvent Action)
open F4MP.Connection (EnetPeer Watched netEvents asked)
open F4MP.Delivery
open F4MP.SentNames
open F4MP.NameAgreement
open F4MP.Transcript
open F4MP.Welcomes
open F4MP.Library.Runs
open F4MP.Library.Wires

def isReliable (sent : Sent) : Bool := sent.channel = .kReliable

/-- A connection between a client and the server: the peer the server has for it once its
end is up, whether the client's end is, and the wires from the client and to it. -/
structure Circuit where
  peer : Option Peer := none
  clientUp : Bool := false
  up : Wire isReliable := .empty
  down : Wire isReliable := .empty

/-- What the server handled, what the clients did, and their connections with it.  A
client without one is elsewhere: it hears what ENet allows. -/
structure World (κ D : Type) where
  served : List ServerRun.Input
  party : κ → Party D
  circuit : κ → Option Circuit

variable {κ D : Type}

/-- What the server sends goes on the wire, once the server's end is up. -/
def Circuit.relay (now : Time) (outs : List Out) (circuit : Circuit) : Circuit :=
  match circuit.peer with
  | none => circuit
  | some c => { circuit with down := circuit.down.postAll (sentTo c now outs) }

def World.Free (w : World κ D) (c : Peer) : Prop :=
  ∀ k circuit, w.circuit k = some circuit → circuit.peer ≠ some c

def about : ServerRun.Event → Option Peer
  | .connect c | .receive c _ | .disconnect c => some c
  | _ => none

/-- What an ENet event does to the connection of a client. -/
inductive Hears : Option Circuit → NetEvent D → Option Circuit → Prop
  | elsewhere (event : NetEvent D) : Hears none event none
  | opened (circuit : Circuit) (playerName : Bytes) :
      Hears (some circuit) (.connect playerName) (some { circuit with clientUp := true })
  | received (circuit : Circuit) (sent : Sent) (reading : SessionModel.Reading D)
      (down : Wire isReliable) (harrives : Arrives circuit.down sent down) :
      Hears (some circuit) (.receive sent.bytes reading) (some { circuit with down })
  | lost (circuit : Circuit) : Hears (some circuit) .disconnect none

inductive HearsAll : Option Circuit → List (NetEvent D) → Option Circuit → Prop
  | nil (circuit : Option Circuit) : HearsAll circuit [] circuit
  | cons {before middle after : Option Circuit} {event : NetEvent D} {events : List (NetEvent D)}
      (hfirst : Hears before event middle) (hrest : HearsAll middle events after) :
      HearsAll before (event :: events) after

/-- What an action of a client does to its connection.  An attempt may go to this server
or elsewhere. -/
def ask (here : Bool) (circuit : Option Circuit) : Action D → Option Circuit
  | .net (.connect ..) => if here then some {} else none
  | .net .disconnectNow | .net .peerReset => none
  | .net (.send channel bytes) =>
      circuit.map fun circuit => { circuit with up := circuit.up.post ⟨0, channel, bytes⟩ }
  | _ => circuit

def next (party : Party D) (input : ClientRun.Input D) : Party D :=
  { party with inputs := party.inputs ++ [input] }

section Steps

variable [CppFloat F32] [CppFloat D] [Libm F32] [Narrow D F32] [Widen F32 D]

/-- What a client does in an event. -/
def actions (party : Party D) (input : ClientRun.Input D) : List (Action D) :=
  (SessionModel.step party.session input.event).2

variable [Platform]

/-- The server handles an input, and what it sends goes on the wires. -/
def World.serve (config : Config) (startTime : Time) (w : World κ D) (input : ServerRun.Input) :
    World κ D :=
  let server := (Network.after config startTime w.served).server
  { w with
    served := w.served ++ [input]
    circuit := fun k => (w.circuit k).map (.relay input.now (ServerRun.step server input).2) }

variable [DecidableEq κ]

def World.setCircuit (w : World κ D) (k : κ) (circuit : Option Circuit) : World κ D :=
  { w with circuit := Function.update w.circuit k circuit }

/-- One step of the world: the server's end of a connection comes up, a packet arrives
there, the server is told that it ended; the server handles something else, be it of
connections that are nobody's here; or a client has an event. -/
inductive Step (config : Config) (startTime : Time) (w : World κ D) : World κ D → Prop
  | accept (k : κ) (circuit : Circuit) (c : Peer) (input : ServerRun.Input)
      (hcircuit : w.circuit k = some circuit) (hpeer : circuit.peer = none) (hfree : w.Free c)
      (hnew : (Network.after config startTime w.served).server.players.lookup c = none)
      (hevent : input.event = .connect c) :
      Step config startTime w
        ((w.setCircuit k (some { circuit with peer := some c })).serve config startTime input)
  | take (k : κ) (circuit : Circuit) (c : Peer) (sent : Sent) (up : Wire isReliable)
      (input : ServerRun.Input) (hcircuit : w.circuit k = some circuit)
      (hpeer : circuit.peer = some c) (harrives : Arrives circuit.up sent up)
      (hevent : input.event = .receive c sent.bytes) :
      Step config startTime w
        ((w.setCircuit k (some { circuit with up })).serve config startTime input)
  | hangUp (k : κ) (circuit : Circuit) (c : Peer) (input : ServerRun.Input)
      (hcircuit : w.circuit k = some circuit) (hpeer : circuit.peer = some c)
      (hevent : input.event = .disconnect c) :
      Step config startTime w ((w.setCircuit k none).serve config startTime input)
  | pass (input : ServerRun.Input) (hfree : ∀ c, about input.event = some c → w.Free c) :
      Step config startTime w (w.serve config startTime input)
  | play (k : κ) (input : ClientRun.Input D) (here : Bool) (circuit : Option Circuit)
      (hhears : HearsAll (w.circuit k) (netEvents input.event) circuit)
      (henet : (next (w.party k) input).watched.enet ≠ none) :
      Step config startTime w
        { w with
          party := Function.update w.party k (next (w.party k) input)
          circuit := Function.update w.circuit k
            ((actions (w.party k) input).foldl (ask here) circuit) }

/-- The server and the clients were just started. -/
structure Fresh (w : World κ D) : Prop where
  served : w.served = []
  inputs : ∀ k, (w.party k).inputs = []
  circuit : ∀ k, w.circuit k = none

def Reachable (config : Config) (startTime : Time) (w : World κ D) : Prop :=
  ∃ start, Fresh start ∧ Relation.ReflTransGen (Step config startTime) start w

end Steps

/-- What a client has of its connection is in step with the wires. -/
structure Tuned (enet : Option EnetPeer) (sent : List Sent) (received : List Bytes)
    (circuit : Circuit) : Prop where
  enet : enet = some (if circuit.clientUp then .connected else .connecting)
  posted : sent = circuit.up.posted
  received : circuit.clientUp = true → received = circuit.down.arrived.map (·.bytes)
  waiting : circuit.clientUp = false → circuit.down.arrived = []

section Client

variable {peer after : EnetPeer} {sent : List Sent} {received : List Bytes}
  {before circuit : Option Circuit}

theorem tuned_hears {event : NetEvent D} (hhears : Hears before event circuit)
    (hraise : peer.raise event = some after)
    (h : ∀ c, before = some c → Tuned (some peer) sent received c) :
    ∀ c, circuit = some c → Tuned (some after) sent (taken received event) c := by
  rintro c rfl
  cases hhears with
  | opened circuit playerName =>
      obtain ⟨henet, hposted, -, hwaiting⟩ := h circuit rfl
      cases peer with
      | free | connected => cases hraise
      | connecting =>
          obtain rfl := Option.some.inj hraise
          have hup : circuit.clientUp = false := by
            by_contra hup
            simp [hup] at henet
          exact ⟨rfl, hposted, fun _ => by rw [hwaiting hup]; rfl, by rintro ⟨⟩⟩
  | received circuit packet reading down harrives =>
      obtain ⟨henet, hposted, hreceived, -⟩ := h circuit rfl
      cases peer with
      | free | connecting => cases hraise
      | connected =>
          obtain rfl := Option.some.inj hraise
          have hup : circuit.clientUp = true := by
            by_contra hup
            simp [hup] at henet
          refine ⟨henet, hposted, fun _ => ?_, fun hdown => ?_⟩
          · rw [taken, hreceived hup, harrives.arrived_eq, List.map_append]
            rfl
          · rw [hup] at hdown
            cases hdown

theorem tuned_hearsAll {events : List (NetEvent D)} (hhears : HearsAll before events circuit)
    (hraise : events.foldlM EnetPeer.raise peer = some after)
    (h : ∀ c, before = some c → Tuned (some peer) sent received c) :
    ∀ c, circuit = some c → Tuned (some after) sent (events.foldl taken received) c := by
  induction hhears generalizing peer received with
  | nil =>
      cases hraise
      exact h
  | cons hfirst _ ih =>
      rw [List.foldlM_cons] at hraise
      obtain ⟨middle, hone, hrest⟩ := Option.bind_eq_some_iff.mp hraise
      exact ih hrest (tuned_hears hfirst hone h)

theorem tuned_ask (here : Bool) (action : Action D)
    (h : ∀ c, before = some c → Tuned (some peer) sent received c) :
    ∀ c, ask here before action = some c →
      Tuned (some (peer.ask action)) (posted sent action) received c := by
  intro c hask
  cases action with
  | dial | remotes => exact h c hask
  | net request =>
      cases request with
      | connect =>
          rw [ask] at hask
          split at hask
          · obtain rfl := Option.some.inj hask
            exact ⟨rfl, rfl, by rintro ⟨⟩, fun _ => rfl⟩
          · cases hask
      | disconnectNow | peerReset => cases hask
      | send channel bytes =>
          obtain ⟨old, hold, rfl⟩ := Option.map_eq_some_iff.mp hask
          obtain ⟨henet, hposted, hreceived, hwaiting⟩ := h old hold
          exact ⟨henet, by rw [posted, hposted]; rfl, hreceived, hwaiting⟩

theorem tuned_asked (here : Bool) (actions : List (Action D))
    (h : ∀ c, before = some c → Tuned (some peer) sent received c) :
    ∀ c, actions.foldl (ask here) before = some c →
      Tuned (some (asked peer actions)) (actions.foldl posted sent) received c := by
  induction actions generalizing before peer sent with
  | nil => exact h
  | cons action actions ih => exact ih (tuned_ask here action h)

end Client

@[simp] theorem relay_peer (now : Time) (outs : List Out) (circuit : Circuit) :
    (circuit.relay now outs).peer = circuit.peer := by
  rw [Circuit.relay]
  split <;> rfl

section Server

variable [CppFloat F32] [Libm F32] [Platform] {config : Config} {startTime : Time}

/-- What the server has of a connection is in step with the wires. -/
structure Served (config : Config) (startTime : Time) (served : List ServerRun.Input)
    (circuit : Circuit) : Prop where
  up : ∀ c, circuit.peer = some c →
    arrivals c served = some (circuit.up.arrived.map (·.bytes)) ∧
      (Network.after config startTime served).link c = circuit.down.posted
  silent : circuit.peer = none → circuit.up.arrived = [] ∧ circuit.down.posted = []

variable {served : List ServerRun.Input} {input : ServerRun.Input} {circuit : Circuit} {c : Peer}

theorem link_step (hevent : input.event ≠ .connect c) :
    (Network.after config startTime (served ++ [input])).link c =
      (Network.after config startTime served).link c ++ sentTo c input.now
        (ServerRun.step (Network.after config startTime served).server input).2 := by
  have hopens : opens (Network.after config startTime served).server input c = false := by
    simp [opens, hevent]
  rw [Network.after_concat]
  change (if opens _ input c then [] else _) ++ _ = _
  rw [hopens]
  rfl

theorem Served.relay (harrivals : ∀ c, circuit.peer = some c →
      arrivals c (served ++ [input]) = some (circuit.up.arrived.map (·.bytes)) ∧
        (Network.after config startTime (served ++ [input])).link c = circuit.down.posted ++
          sentTo c input.now (ServerRun.step (Network.after config startTime served).server input).2)
    (hsilent : circuit.peer = none → circuit.up.arrived = [] ∧ circuit.down.posted = []) :
    Served config startTime (served ++ [input]) (circuit.relay input.now
      (ServerRun.step (Network.after config startTime served).server input).2) := by
  refine ⟨fun c hc => ?_, fun hnone => ?_⟩
  · rw [relay_peer] at hc
    obtain ⟨hgot, hlink⟩ := harrivals c hc
    rw [Circuit.relay, hc]
    exact ⟨hgot, by rw [hlink, Wire.posted_postAll]⟩
  · rw [relay_peer] at hnone
    rw [Circuit.relay, hnone]
    exact hsilent hnone

theorem Served.pass (h : Served config startTime served circuit)
    (hother : ∀ c, circuit.peer = some c → about input.event ≠ some c) :
    Served config startTime (served ++ [input]) (circuit.relay input.now
      (ServerRun.step (Network.after config startTime served).server input).2) := by
  refine .relay (fun c hc => ?_) h.silent
  obtain ⟨hgot, hlink⟩ := h.up c hc
  have habout := hother c hc
  refine ⟨?_, by rw [link_step (fun hevent => habout (by rw [hevent]; rfl)), hlink]⟩
  rw [arrivals_concat, hgot, track]
  cases hevent : input.event with
  | connect p | receive p bytes | disconnect p =>
      rw [hevent, about, ne_eq, Option.some.injEq] at habout
      dsimp only
      rw [if_neg habout]
  | updateBots | command => rfl

theorem Served.take (h : Served config startTime served circuit) (hpeer : circuit.peer = some c)
    {sent : Sent} {up : Wire isReliable} (harrives : Arrives circuit.up sent up)
    (hevent : input.event = .receive c sent.bytes) :
    Served config startTime (served ++ [input]) ({ circuit with up }.relay input.now
      (ServerRun.step (Network.after config startTime served).server input).2) := by
  refine .relay (fun d hd => ?_) fun hnone => ?_
  · obtain rfl := Option.some.inj (hpeer.symm.trans hd)
    obtain ⟨hgot, hlink⟩ := h.up c hpeer
    refine ⟨?_, by rw [link_step (by rw [hevent]; rintro ⟨⟩), hlink]⟩
    rw [arrivals_concat, hgot, track, hevent, harrives.arrived_eq, List.map_append]
    dsimp only
    rw [if_pos rfl]
    rfl
  · cases hpeer.symm.trans hnone

theorem Served.accept (h : Served config startTime served circuit) (hpeer : circuit.peer = none)
    (hnew : (Network.after config startTime served).server.players.lookup c = none)
    (hevent : input.event = .connect c) :
    Served config startTime (served ++ [input]) ({ circuit with peer := some c }.relay input.now
      (ServerRun.step (Network.after config startTime served).server input).2) := by
  obtain ⟨hgot, hposted⟩ := h.silent hpeer
  refine .relay (fun d hd => ?_) fun hnone => ?_
  · obtain rfl := Option.some.inj hd
    have hnone : arrivals c served = none := by
      have hrecord := signature_after config startTime served c
      rw [hnew] at hrecord
      exact Option.map_eq_none_iff.mp hrecord.symm
    have hopens : opens (Network.after config startTime served).server input c = true := by
      simp [opens, hevent, hnew]
    refine ⟨?_, ?_⟩
    · rw [arrivals_concat, hnone, track, hevent, hgot]
      dsimp only
      rw [if_pos rfl]
      rfl
    · rw [Network.after_concat, hposted]
      change (if opens _ input c then [] else _) ++ _ = _
      rw [hopens]
      rfl
  · cases hnone

theorem Served.congr {circuit' : Circuit} (h : Served config startTime served circuit)
    (hpeer : circuit'.peer = circuit.peer) (hup : circuit'.up.arrived = circuit.up.arrived)
    (hdown : circuit'.down.posted = circuit.down.posted) :
    Served config startTime served circuit' := by
  refine ⟨fun c hc => ?_, fun hnone => ?_⟩
  · rw [hup, hdown]
    exact h.up c (hpeer ▸ hc)
  · rw [hup, hdown]
    exact h.silent (hpeer ▸ hnone)

end Server

theorem Tuned.relay {enet : Option EnetPeer} {sent : List Sent} {received : List Bytes}
    {circuit : Circuit} (h : Tuned enet sent received circuit) (now : Time) (outs : List Out) :
    Tuned enet sent received (circuit.relay now outs) := by
  rw [Circuit.relay]
  split
  · exact h
  · exact ⟨h.enet, h.posted, fun hup => by rw [Wire.arrived_postAll, h.received hup],
      fun hup => by rw [Wire.arrived_postAll, h.waiting hup]⟩

/-- An end that a client has is the one it had, or one of a new connection. -/
def Kept (before : Option Circuit) (circuit : Circuit) : Prop :=
  (circuit.peer = none ∧ circuit.up.arrived = [] ∧ circuit.down.posted = []) ∨
    ∃ old, before = some old ∧ circuit.peer = old.peer ∧ circuit.up.arrived = old.up.arrived ∧
      circuit.down.posted = old.down.posted

theorem Kept.refl (circuit : Circuit) : Kept (some circuit) circuit := .inr ⟨_, rfl, rfl, rfl, rfl⟩

theorem Kept.trans {before middle : Option Circuit} {circuit : Circuit}
    (hbefore : ∀ c, middle = some c → Kept before c) (h : Kept middle circuit) :
    Kept before circuit := by
  rcases h with hnew | ⟨old, hold, hpeer, hup, hdown⟩
  · exact .inl hnew
  · rw [Kept, hpeer, hup, hdown]
    exact hbefore old hold

theorem kept_hears {before after : Option Circuit} {event : NetEvent D}
    (h : Hears before event after) : ∀ c, after = some c → Kept before c := by
  rintro c rfl
  cases h with
  | opened => exact .inr ⟨_, rfl, rfl, rfl, rfl⟩
  | received _ _ _ _ harrives => exact .inr ⟨_, rfl, rfl, rfl, harrives.posted_eq⟩

theorem kept_hearsAll {before after : Option Circuit} {events : List (NetEvent D)}
    (h : HearsAll before events after) : ∀ c, after = some c → Kept before c := by
  induction h with
  | nil =>
      rintro c rfl
      exact .refl c
  | cons hfirst _ ih => exact fun c hc => (ih c hc).trans (kept_hears hfirst)

theorem kept_ask (here : Bool) (actions : List (Action D)) (before : Option Circuit) :
    ∀ c, actions.foldl (ask here) before = some c → Kept before c := by
  induction actions generalizing before with
  | nil =>
      rintro c rfl
      exact .refl c
  | cons action actions ih =>
      refine fun c hc => (ih _ c hc).trans fun old hold => ?_
      cases action with
      | dial | remotes => exact .inr ⟨old, hold, rfl, rfl, rfl⟩
      | net request =>
          cases request with
          | connect =>
              rw [ask] at hold
              split at hold
              · obtain rfl := Option.some.inj hold
                exact .inl ⟨rfl, rfl, rfl⟩
              · cases hold
          | disconnectNow | peerReset => cases hold
          | send =>
              obtain ⟨first, hfirst, rfl⟩ := Option.map_eq_some_iff.mp hold
              exact .inr ⟨first, hfirst, rfl, rfl, rfl⟩

section Worlds

variable [CppFloat F32] [CppFloat D] [Libm F32] [Narrow D F32] [Widen F32 D] [Platform]
  {config : Config} {startTime : Time} {w w' : World κ D}

section Parties

omit [Platform]

variable (party : Party D) (input : ClientRun.Input D)

theorem next_watched : (next party input).watched = party.watched.step input :=
  run_concat _ _ _ _

theorem next_sent : (next party input).sent = (actions party input).foldl posted party.sent := by
  rw [Party.sent, next_watched]
  exact List.foldl_append

omit [CppFloat F32] [CppFloat D] [Libm F32] [Narrow D F32] [Widen F32 D] in
theorem next_received :
    (next party input).received = (netEvents input.event).foldl taken party.received := by
  simp only [Party.received, next, eventsOf, List.flatMap_append, List.foldl_append,
    List.flatMap_singleton]

end Parties

/-- No two clients have their connections at one peer. -/
def Apart (w : World κ D) : Prop :=
  ∀ j k first second c, w.circuit j = some first → w.circuit k = some second →
    first.peer = some c → second.peer = some c → j = k

/-- ENet keeps its promises to every client, and both ends of every connection are in step
with its wires. -/
structure InStep (config : Config) (startTime : Time) (w : World κ D) : Prop where
  allowed : ∀ k, (w.party k).watched.enet ≠ none
  tuned : ∀ k circuit, w.circuit k = some circuit →
    Tuned (w.party k).watched.enet (w.party k).sent (w.party k).received circuit
  served : ∀ k circuit, w.circuit k = some circuit → Served config startTime w.served circuit
  apart : Apart w

theorem inStep_fresh (h : Fresh w) : InStep config startTime w where
  allowed k := by
    rw [Party.watched, h.inputs k]
    rintro ⟨⟩
  tuned k circuit hcircuit := by
    rw [h.circuit k] at hcircuit
    cases hcircuit
  served k circuit hcircuit := by
    rw [h.circuit k] at hcircuit
    cases hcircuit
  apart j _ _ _ _ hfirst := by
    rw [h.circuit j] at hfirst
    cases hfirst

theorem inStep_serve {input : ServerRun.Input} (hallowed : ∀ k, (w.party k).watched.enet ≠ none)
    (htuned : ∀ k circuit, w.circuit k = some circuit →
      Tuned (w.party k).watched.enet (w.party k).sent (w.party k).received circuit)
    (hserved : ∀ k circuit, w.circuit k = some circuit →
      Served config startTime (w.served ++ [input]) (circuit.relay input.now
        (ServerRun.step (Network.after config startTime w.served).server input).2))
    (hapart : Apart w) : InStep config startTime (w.serve config startTime input) where
  allowed := hallowed
  tuned k circuit hcircuit := by
    obtain ⟨old, hold, rfl⟩ := Option.map_eq_some_iff.mp hcircuit
    exact (htuned k old hold).relay _ _
  served k circuit hcircuit := by
    obtain ⟨old, hold, rfl⟩ := Option.map_eq_some_iff.mp hcircuit
    exact hserved k old hold
  apart j k first second c hfirst hsecond hone htwo := by
    obtain ⟨old, hold, rfl⟩ := Option.map_eq_some_iff.mp hfirst
    obtain ⟨other, hother, rfl⟩ := Option.map_eq_some_iff.mp hsecond
    rw [relay_peer] at hone htwo
    exact hapart j k old other c hold hother hone htwo

variable [DecidableEq κ]

omit [CppFloat F32] [CppFloat D] [Libm F32] [Narrow D F32] [Widen F32 D] [Platform] in
theorem setCircuit_cases {k j : κ} {circuit : Option Circuit} {other : Circuit}
    (h : (w.setCircuit k circuit).circuit j = some other) :
    (j = k ∧ circuit = some other) ∨ (j ≠ k ∧ w.circuit j = some other) := by
  change Function.update w.circuit k circuit j = some other at h
  rw [Function.update_apply] at h
  split at h
  · rename_i hj
    exact .inl ⟨hj, h⟩
  · rename_i hj
    exact .inr ⟨hj, h⟩

omit [CppFloat F32] [CppFloat D] [Libm F32] [Narrow D F32] [Widen F32 D] [Platform] in
theorem apart_setCircuit {k : κ} {circuit : Option Circuit} (h : Apart w)
    (hnew : ∀ new c, circuit = some new → new.peer = some c →
      ∀ j other, j ≠ k → w.circuit j = some other → other.peer ≠ some c) :
    Apart (w.setCircuit k circuit) := by
  intro i j first second c hfirst hsecond hone htwo
  rcases setCircuit_cases hfirst with ⟨rfl, hset⟩ | ⟨hi, hold⟩
  · rcases setCircuit_cases hsecond with ⟨rfl, -⟩ | ⟨hj, hold'⟩
    · rfl
    · exact absurd htwo (hnew first c hset hone j second hj hold')
  · rcases setCircuit_cases hsecond with ⟨rfl, hset⟩ | ⟨-, hold'⟩
    · exact absurd hone (hnew second c hset htwo i first hi hold)
    · exact h i j first second c hold hold' hone htwo

theorem inStep_step (h : InStep config startTime w) (hstep : Step config startTime w w') :
    InStep config startTime w' := by
  cases hstep with
  | accept k circuit c input hcircuit hpeer hfree hnew hevent =>
      refine inStep_serve h.allowed (fun j other hother => ?_) (fun j other hother => ?_) ?_
      · rcases setCircuit_cases hother with ⟨rfl, hnew⟩ | ⟨-, hold⟩
        · obtain rfl := Option.some.inj hnew
          obtain ⟨henet, hposted, hreceived, hwaiting⟩ := h.tuned j circuit hcircuit
          exact ⟨henet, hposted, hreceived, hwaiting⟩
        · exact h.tuned j other hold
      · rcases setCircuit_cases hother with ⟨rfl, hset⟩ | ⟨-, hold⟩
        · obtain rfl := Option.some.inj hset
          exact (h.served j circuit hcircuit).accept hpeer hnew hevent
        · refine (h.served j other hold).pass fun d hd habout => ?_
          rw [hevent] at habout
          obtain rfl := Option.some.inj habout
          exact hfree j other hold hd
      · refine apart_setCircuit h.apart fun new d hset hd j other _ hold => ?_
        obtain rfl := Option.some.inj hset
        obtain rfl := Option.some.inj hd
        exact hfree j other hold
  | take k circuit c sent up input hcircuit hpeer harrives hevent =>
      refine inStep_serve h.allowed (fun j other hother => ?_) (fun j other hother => ?_) ?_
      · rcases setCircuit_cases hother with ⟨rfl, hset⟩ | ⟨-, hold⟩
        · obtain rfl := Option.some.inj hset
          obtain ⟨henet, hposted, hreceived, hwaiting⟩ := h.tuned j circuit hcircuit
          exact ⟨henet, hposted.trans harrives.posted_eq.symm, hreceived, hwaiting⟩
        · exact h.tuned j other hold
      · rcases setCircuit_cases hother with ⟨rfl, hset⟩ | ⟨hj, hold⟩
        · obtain rfl := Option.some.inj hset
          exact (h.served j circuit hcircuit).take hpeer harrives hevent
        · refine (h.served j other hold).pass fun d hd habout => hj ?_
          rw [hevent] at habout
          obtain rfl := Option.some.inj habout
          exact h.apart j k other circuit c hold hcircuit hd hpeer
      · refine apart_setCircuit h.apart fun new d hset hd j other hj hold hother => hj ?_
        obtain rfl := Option.some.inj hset
        exact h.apart j k other circuit d hold hcircuit hother hd
  | hangUp k circuit c input hcircuit hpeer hevent =>
      refine inStep_serve h.allowed (fun j other hother => ?_) (fun j other hother => ?_) ?_
      · rcases setCircuit_cases hother with ⟨-, hset⟩ | ⟨-, hold⟩
        · cases hset
        · exact h.tuned j other hold
      · rcases setCircuit_cases hother with ⟨-, hset⟩ | ⟨hj, hold⟩
        · cases hset
        · refine (h.served j other hold).pass fun d hd habout => hj ?_
          rw [hevent] at habout
          obtain rfl := Option.some.inj habout
          exact h.apart j k other circuit c hold hcircuit hd hpeer
      · refine apart_setCircuit h.apart fun new d hset => ?_
        cases hset
  | pass input hfree =>
      refine inStep_serve h.allowed h.tuned (fun j other hother => ?_) h.apart
      exact (h.served j other hother).pass fun d hd habout => hfree d habout j other hother hd
  | play k input here circuit hhears henet =>
      obtain ⟨peer, hpeer⟩ := Option.ne_none_iff_exists'.mp henet
      rw [next_watched] at hpeer
      obtain ⟨before, after, hbefore, hraise, rfl⟩ := Watched.raised hpeer
      -- what became of the connection of the client
      have hkept : ∀ c, (actions (w.party k) input).foldl (ask here) circuit = some c →
          Kept (w.circuit k) c := fun c hc =>
        (kept_ask here _ _ c hc).trans (kept_hearsAll hhears)
      have htuned := tuned_asked here (actions (w.party k) input)
        (tuned_hearsAll hhears hraise fun c hc => hbefore ▸ h.tuned k c hc)
      refine ⟨fun j => ?_, fun j other hother => ?_, fun j other hother => ?_, ?_⟩
      · dsimp only
        rw [Function.update_apply]
        split
        · exact henet
        · exact h.allowed j
      · rcases setCircuit_cases (w := w) hother with ⟨rfl, hset⟩ | ⟨hj, hold⟩
        · dsimp only
          rw [Function.update_self, next_watched, hpeer, next_sent, next_received]
          exact htuned other hset
        · dsimp only
          rw [Function.update_of_ne hj]
          exact h.tuned j other hold
      · rcases setCircuit_cases (w := w) hother with ⟨rfl, hset⟩ | ⟨-, hold⟩
        · rcases hkept other hset with ⟨hnone, hup, hdown⟩ | ⟨old, hold, hsame, hup, hdown⟩
          · refine ⟨fun c hc => ?_, fun _ => ⟨hup, hdown⟩⟩
            cases hnone.symm.trans hc
          · exact (h.served j old hold).congr hsame hup hdown
        · exact h.served j other hold
      · refine apart_setCircuit h.apart fun new c hset hc j other hj hother hpeer' => hj ?_
        rcases hkept new hset with ⟨hnone, -⟩ | ⟨old, hold, hsame, -⟩
        · cases hnone.symm.trans hc
        · exact h.apart j k other old c hother hold hpeer' (hsame.symm.trans hc)

theorem inStep_reachable (h : Reachable config startTime w) : InStep config startTime w := by
  obtain ⟨start, hfresh, hsteps⟩ := h
  induction hsteps with
  | refl => exact inStep_fresh hfresh
  | tail _ hstep ih => exact inStep_step ih hstep

end Worlds

/-- Nothing reliable is under way. -/
def Circuit.Calm (circuit : Circuit) : Prop := circuit.up.ordered = [] ∧ circuit.down.ordered = []

theorem delivers_of_wire (wire : Wire isReliable) : Delivers wire.posted wire.arrived where
  reliable := wire.front
  unreliable := by
    have hsame : ∀ log : List Sent, log.filter (·.channel = .kUnreliable) =
        log.filter (!isReliable ·) := fun log => List.filter_congr fun sent _ => by
      cases hchannel : sent.channel <;> simp [isReliable, hchannel]
    rw [hsame, hsame]
    exact wire.remnant

section Agreement

variable [CppFloat F32] [CppFloat D] [Libm F32] [Narrow D F32] [Widen F32 D] [Platform]
  {config : Config} {startTime : Time} {w : World κ D} {k : κ} {circuit : Circuit}

theorem clientUp_of_connected (h : InStep config startTime w) (hcircuit : w.circuit k = some circuit)
    (hconnected : (w.party k).session.net.state = .kConnected) : circuit.clientUp = true := by
  have henet := (h.tuned k circuit hcircuit).enet
  obtain ⟨account, -, hsound, -⟩ := Connection.sound_after henet
  by_contra hdown
  have hstate := hsound.state
  simp only [hdown] at hstate
  rw [show (Watched.after _ _ _ _).client.session.net.state = _ from hconnected] at hstate
  cases hstate

theorem settled_of_calm (h : InStep config startTime w) (hcircuit : w.circuit k = some circuit)
    (hconnected : (w.party k).session.net.state = .kConnected) (hcalm : circuit.Calm) :
    ∃ c, circuit.peer = some c ∧ Settled config startTime w.served c (w.party k) := by
  have htuned := h.tuned k circuit hcircuit
  have hserved := h.served k circuit hcircuit
  have hup := clientUp_of_connected h hcircuit hconnected
  have harrived : reliable circuit.up.arrived = reliable (w.party k).sent := by
    rw [htuned.posted]
    exact Wire.arrived_of_ordered hcalm.1
  cases hpeer : circuit.peer with
  | none =>
      -- the hello cannot have arrived
      have hsigned : signedBy (reliable (w.party k).sent) =
          some (sanitizeName ((w.party k).session.sentName.take maxStringBytes)) :=
        (speaks_after (h.allowed k)).signed hconnected
      rw [← harrived, (hserved.silent hpeer).1] at hsigned
      cases hsigned
  | some c =>
      obtain ⟨hgot, hlink⟩ := hserved.up c hpeer
      refine ⟨c, rfl, h.allowed k, hconnected, ⟨_, hgot, ?_, harrived⟩,
        circuit.down.arrived, htuned.received hup, ?_, ?_⟩
      · rw [htuned.posted]
        exact delivers_of_wire circuit.up
      · rw [hlink]
        exact delivers_of_wire circuit.down
      · rw [hlink]
        exact Wire.arrived_of_ordered hcalm.2

variable [DecidableEq κ]

/-- In every world that can come about, while no id was given twice: what a client that is
connected prints of its packets is the beginning of what the server meant for it; and when
nothing reliable is under way on its connection, it is welcomed under the id of the player
the server has for it, by the name it sent last; it printed all it was meant to; and every
other client of which the same holds lists it by that name. -/
theorem worlds_agree (config : Config) (startTime : Time) (w : World κ D)
    (hreachable : Reachable config startTime w)
    (hissued : (Network.after config startTime w.served).issued < 2 ^ 32 - 1) (k : κ)
    (circuit : Circuit) (hcircuit : w.circuit k = some circuit)
    (hconnected : (w.party k).session.net.state = .kConnected) :
    (∀ c, circuit.peer = some c →
      transcript (w.party k) <+: account config startTime w.served c) ∧
    (circuit.Calm → ∃ c player, circuit.peer = some c ∧
      (Network.after config startTime w.served).server.players.lookup c = some player ∧
      player.handshaked = true ∧ (w.party k).session.welcomed = true ∧
      (w.party k).session.myId = player.id ∧
      (w.party k).session.serverName = config.name.take maxStringBytes ∧
      player.name = sanitizeName ((w.party k).session.sentName.take maxStringBytes) ∧
      transcript (w.party k) = account config startTime w.served c ∧
      ∀ j, j ≠ k → ∀ other, w.circuit j = some other →
        (w.party j).session.net.state = .kConnected → other.Calm →
        ∃ entry, (w.party j).scene.find player.id = some entry ∧ entry.name = player.name) := by
  have hworld := inStep_reachable hreachable
  have hids := idsDistinct_of_earlier hissued
  have hup := clientUp_of_connected hworld hcircuit hconnected
  -- what it printed of the packets that arrived
  have hprinted : ∀ c, circuit.peer = some c → transcript (w.party k) =
      (((notes config startTime w.served c).filter (·.1.channel = .kReliable)).take
        (reliable circuit.down.arrived).length).flatMap (·.2) := by
    intro c hc
    refine transcript_of_delivers hids (hworld.allowed k)
      ((hworld.tuned k circuit hcircuit).received hup) ?_
    rw [((hworld.served k circuit hcircuit).up c hc).2]
    exact delivers_of_wire circuit.down
  refine ⟨fun c hc => by rw [hprinted c hc]; exact take_notes_front _ _ _ _ _, fun hcalm => ?_⟩
  obtain ⟨c, hc, hsettled⟩ := settled_of_calm hworld hcircuit hconnected hcalm
  obtain ⟨player, hplayer, hshake, hname⟩ := record_of_settled hsettled
  have hstanding := standing_of_settled hsettled
  refine ⟨c, player, hc, hplayer, hshake, congrArg Prod.fst hstanding,
    myId_of_settled hsettled hplayer hshake, congrArg Prod.snd hstanding, hname, ?_,
    fun j hj other hother hconnected' hcalm' => ?_⟩
  · rw [hprinted c hc]
    refine take_notes_all ?_
    rw [((hworld.served k circuit hcircuit).up c hc).2]
    exact Wire.arrived_of_ordered hcalm.2
  · obtain ⟨d, hd, hsettled'⟩ := settled_of_calm hworld hother hconnected' hcalm'
    obtain ⟨found, hfound, hfoundshake, -⟩ := record_of_settled hsettled'
    refine listed_of_drained (drained_of_settled hsettled') hids hfound hfoundshake
      (.inl ⟨c, player, ?_, hplayer, hshake, rfl, rfl⟩)
    rintro rfl
    exact hj (hworld.apart j k other circuit c hother hcircuit hd hc)

end Agreement

end F4MP.WorldModel
