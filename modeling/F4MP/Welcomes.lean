import F4MP.NameAgreement

/-!
The handshake comes to an end: a client whose connection is up is welcomed once nothing
reliable is under way, and it and the server agree on who it is and where.
-/

namespace F4MP.Welcomes

open F4MP.Types
open F4MP.Packet
open F4MP.Protocol
open F4MP.Messages
open F4MP.Arith
open F4MP.ServerModel
open F4MP.ServerConsole
open F4MP.ServerRun
open F4MP.ServerEffects
open F4MP.ServerOrigins
open F4MP.Handshake
open F4MP.Records
open F4MP.NetClientModel (NetClient State Dial timedOut)
open F4MP.RemotePlayersModel
open F4MP.SessionModel
open F4MP.SessionSteps
open F4MP.Connection
open F4MP.Delivery
open F4MP.SentNames
open F4MP.NameAgreement
open F4MP.Library.HashTable
open F4MP.Library.Runs

/-- Whether a client is welcomed, and to which server. -/
abbrev Standing := Bool × Bytes

def standing (session : Session) : Standing := (session.welcomed, session.serverName)

def usher (standing : Standing) (bytes : Bytes) : Standing :=
  match decode bytes with
  | some (.welcome msg) => (true, msg.serverName)
  | _ => standing

/-- While there is a connection, the standing of a client is what its packets made it. -/
def Stands (got : List Bytes) (session : Session) : Prop :=
  session.net.state = .kConnected → standing session = got.foldl usher (false, [])

theorem stands_of_state {got : List Bytes} {session : Session}
    (h : session.net.state ≠ .kConnected) : Stands got session :=
  fun hconnected => absurd hconnected h

theorem Stands.same {got : List Bytes} {session session' : Session} (h : Stands got session)
    (hstate : session'.net.state = .kConnected → session.net.state = .kConnected)
    (hstanding : standing session' = standing session) : Stands got session' :=
  fun hconnected => hstanding.trans (h (hstate hconnected))

/-- A client with a welcome among its packets is welcomed to the server that all of them
name. -/
theorem foldl_usher_of_mem {got : List Bytes} {name : Bytes}
    (hmem : ∃ bytes ∈ got, ∃ msg, decode bytes = some (.welcome msg))
    (hall : ∀ bytes ∈ got, ∀ msg, decode bytes = some (.welcome msg) → msg.serverName = name)
    (start : Standing) : got.foldl usher start = (true, name) := by
  induction got using List.reverseRecOn with
  | nil =>
      obtain ⟨bytes, hbytes, -⟩ := hmem
      cases hbytes
  | append_singleton got bytes ih =>
      rw [List.foldl_concat, usher]
      split
      · rename_i msg hdecode
        rw [hall bytes (by simp) msg hdecode]
      · rename_i hother
        refine ih ?_ fun earlier hearlier => hall earlier (List.mem_append_left _ hearlier)
        obtain ⟨welcome, hwelcome, msg, hdecode⟩ := hmem
        rcases List.mem_append.mp hwelcome with hold | hlast
        · exact ⟨welcome, hold, msg, hdecode⟩
        · rw [List.mem_singleton.mp hlast] at hdecode
          exact absurd hdecode (hother msg)

section Events

variable {D : Type} {peer after : EnetPeer} {account : Account} {session : Session}
  {got : List Bytes}

theorem dialled_state (net : NetClient) (dial : Dial) (host : Bytes) (port : UInt16)
    (hstate : net.state = .kDisconnected) :
    (NetClientModel.connect net dial host port).2.1.state ≠ .kConnected := by
  rw [NetClientModel.connect]
  split
  · rw [hstate]
    rintro ⟨⟩
  · dsimp only
    split <;> rintro ⟨⟩

theorem stands_connect (h : Stands got session) (manual : Bool) (dial : Dial) (now : Time) :
    Stands got (connect session manual dial now : Result D).1 := by
  rw [connect]
  split
  · exact h
  dsimp only
  split
  · exact stands_of_state (dialled_state _ _ _ _ (ClientTurns.disconnectNet_state _))
  split
  · exact h
  · rename_i hstate
    exact stands_of_state (dialled_state _ _ _ _ (not_not.mp hstate))

theorem stands_autoConnect (h : Stands got session) (dial : Dial) (now : Time) :
    Stands got (autoConnect session dial now : Result D).1 := by
  rw [autoConnect]
  split
  · have hattempt : Stands got { session with lastReconnectAttempt := now } := h.same id rfl
    exact stands_connect hattempt _ _ _
  · exact h

variable [CppFloat F32]

theorem standing_handlePacket (session : Session) (bytes : Bytes) (reading : Reading D) :
    standing (handlePacket session bytes reading).1 = usher (standing session) bytes := by
  have hother : ∀ (id : PlayerId) (op : Op F32 D),
      standing (tellOfOther session id op).1 = standing session := by
    intro id op
    rw [tellOfOther]
    split <;> rfl
  rw [SessionSteps.handlePacket_eq, usher]
  cases decode bytes with
  | none => rfl
  | some m =>
      cases m with
      | welcome msg =>
          rw [Option.elim_some, SessionSteps.hear, handleWelcome, (sendState_spec _ _ _ _).1]
          rfl
      | playerJoined | playerRenamed | playerStateUpdate => exact hother _ _
      | _ => rfl

theorem stands_events {events : List (NetEvent D)} (hsound : Sound peer account session)
    (h : Stands got session) (hraise : events.foldlM EnetPeer.raise peer = some after) :
    Stands (events.foldl taken got) (handleNetEvents session events).1 := by
  induction events generalizing peer account session got with
  | nil => exact h
  | cons event events ih =>
      rw [List.foldlM_cons] at hraise
      obtain ⟨middle, hfirst, hrest⟩ := Option.bind_eq_some_iff.mp hraise
      obtain ⟨account', -, hsound'⟩ := keeps_handleNetEvent hsound hfirst
      refine ih hsound' ?_ hrest
      cases event with
      | connect playerName =>
          cases peer with
          | free | connected => cases hfirst
          | connecting =>
              obtain ⟨⟨hwelcomed, -, hname, -⟩, -⟩ := hsound.cleared (by rintro ⟨⟩)
              intro _
              exact Prod.ext hwelcomed hname
      | receive bytes reading =>
          cases peer with
          | free | connecting => cases hfirst
          | connected =>
              intro _
              rw [taken, List.foldl_concat, ← h hsound.state]
              exact standing_handlePacket session bytes reading
      | disconnect => exact stands_of_state (by rintro ⟨⟩)

theorem stands_pump {events : List (NetEvent D)} (hsound : Sound peer account session)
    (h : Stands got session) (hraise : events.foldlM EnetPeer.raise peer = some after)
    (now : Time) : Stands (events.foldl taken got) (pump session events now).1 := by
  rw [pump]
  split
  · rename_i hhost
    cases events with
    | nil => exact h
    | cons event events =>
        -- without a host there is no peer that could raise anything
        rw [List.foldlM_cons] at hraise
        have hfree : peer ≠ .free := by
          rintro rfl
          cases hraise
        rw [hsound.host hfree] at hhost
        cases hhost
  · have hevents := stands_events hsound h hraise
    rw [Result.andThen]
    dsimp only
    split
    · exact stands_of_state (by rintro ⟨⟩)
    · exact hevents

theorem stands_play (h : Stands got session) (input : TickInput D) :
    Stands got (play input session).1 := by
  have hsession := (play_spec session input).1
  refine h.same (fun hconnected => ?_) ?_
  · rwa [hsession] at hconnected
  · rw [hsession]
    rfl

theorem stands_step {event : SessionModel.Event D} (hsound : Sound peer account session)
    (h : Stands got session) (hraise : (netEvents event).foldlM EnetPeer.raise peer = some after) :
    Stands ((netEvents event).foldl taken got) (SessionModel.step session event).1 := by
  cases event with
  | tick input =>
      have hpump := stands_pump hsound h hraise input.pumpNow
      rw [SessionModel.step, tick_eq, Result.andThen]
      dsimp only
      split
      · exact hpump
      · exact stands_play (stands_autoConnect hpump _ _) input
  | connect dial now => exact stands_connect h true dial now
  | disconnect =>
      exact stands_of_state (by
        rw [SessionModel.step, disconnect, ClientTurns.disconnectNet_state]
        rintro ⟨⟩)
  | sendChat text =>
      rw [SessionModel.step, sendChat]
      split <;> exact h
  | setServer hostPort =>
      have hkept : (setServer session hostPort).2.net = session.net ∧
          standing (setServer session hostPort).2 = standing session := by
        rw [setServer]
        repeat' split
        all_goals exact ⟨rfl, rfl⟩
      exact h.same (fun hconnected => by rw [← hkept.1]; exact hconnected) hkept.2
  | setCloneOption option on =>
      rw [SessionModel.step, setCloneOption]
      repeat' (split; · exact h)
      exact h
  | _ => exact h

end Events

theorem config_effect {now : Time} {s s' : Server} {event : ServerRun.Event} {outs : List Out}
    (h : Effect now s event s' outs) : s'.config = s.config := by
  cases h <;> rfl

theorem welcome_of_mem {now : Time} {s s' : Server} {event : ServerRun.Event} {outs : List Out}
    {c : Peer} (heffect : Effect now s event s' outs) {sent : Sent}
    (hsent : sent ∈ sentTo c now outs) {msg : WelcomeMsg}
    (hdecode : decode sent.bytes = some (.welcome msg)) :
    msg.serverName = s'.config.name.take maxStringBytes := by
  have hkind : ServerTraffic.kind sent = some .kWelcome := by
    rw [ServerTraffic.kind, hdecode]
    rfl
  cases (origin_of_mem heffect hsent).1 with
  | welcomed =>
      cases (decode_welcome _).symm.trans hdecode
      rfl
  | caughtUp _ _ _ _ _ _ hannounces | caughtUpBot _ _ _ hannounces =>
      rcases hannounces.kind_eq with hother | hother <;> cases hother.symm.trans hkind
  | _ => simp at hkind

section Runs

variable {D : Type} [CppFloat F32] [CppFloat D] [Libm F32] [Narrow D F32] [Widen F32 D]

theorem stands_after {party : Party D} (henet : party.watched.enet ≠ none) :
    Stands party.received party.session := by
  obtain ⟨config, gameVersion, enetReady, inputs⟩ := party
  induction inputs using List.reverseRecOn with
  | nil => exact stands_of_state (by rintro ⟨⟩)
  | append_singleton inputs input ih =>
      obtain ⟨before, after, account, hbefore, hsound, hraise⟩ := sound_before henet
      have hstands := ih (by rw [Party.watched, hbefore]; rintro ⟨⟩)
      have hstep := stands_step hsound hstands hraise
      rw [Party.received, eventsOf, List.flatMap_append, List.foldl_append,
        List.flatMap_singleton, ← eventsOf, Party.session, Party.watched, Watched.after, run_concat]
      exact hstep

variable [Platform]

theorem config_after (config : ServerModel.Config) (startTime : Time) (inputs : List ServerRun.Input) :
    (Network.after config startTime inputs).server.config = config :=
  Network.after_induction (P := fun net => net.server.config = config) rfl
    (fun _ input ih => (config_effect (step_effect _ input)).trans ih) inputs

theorem welcomes_after (config : ServerModel.Config) (startTime : Time) (inputs : List ServerRun.Input)
    (c : Peer) : ∀ sent ∈ (Network.after config startTime inputs).link c, ∀ msg,
      decode sent.bytes = some (.welcome msg) → msg.serverName = config.name.take maxStringBytes := by
  induction inputs using List.reverseRecOn with
  | nil => rintro _ ⟨⟩
  | append_singleton inputs input ih =>
      intro sent hsent msg hdecode
      have hconfig := config_after config startTime (inputs ++ [input])
      rw [Network.after_concat] at hsent hconfig
      rcases List.mem_append.mp hsent with hold | hnew
      · split at hold
        · cases hold
        · exact ih sent hold msg hdecode
      · rw [welcome_of_mem (step_effect _ input) hnew hdecode]
        exact congrArg (fun config : ServerModel.Config => config.name.take maxStringBytes) hconfig

end Runs

section Agreement

variable {D : Type} [CppFloat F32] [CppFloat D] [Libm F32] [Narrow D F32] [Widen F32 D] [Platform]

/-- A client whose connection to the peer `c` of the server is up and has no reliable
packet under way, in either direction. -/
structure Settled (config : ServerModel.Config) (startTime : Time) (inputs : List ServerRun.Input)
    (c : Peer) (party : Party D) : Prop where
  enet : party.watched.enet ≠ none
  connected : party.session.net.state = .kConnected
  up : ∃ arrived, arrivals c inputs = some (arrived.map (·.bytes)) ∧
    Delivers party.sent arrived ∧ reliable arrived = reliable party.sent
  down : ∃ delivered, party.received = delivered.map (·.bytes) ∧
    Delivers ((Network.after config startTime inputs).link c) delivered ∧
    reliable delivered = reliable ((Network.after config startTime inputs).link c)

variable {config : ServerModel.Config} {startTime : Time} {inputs : List ServerRun.Input} {c : Peer}
  {party : Party D}

theorem record_of_settled (h : Settled config startTime inputs c party) :
    ∃ player, (Network.after config startTime inputs).server.players.lookup c = some player ∧
      player.handshaked = true ∧
      player.name = sanitizeName (party.session.sentName.take maxStringBytes) := by
  have hspeaks := speaks_after h.enet
  obtain ⟨arrived, harrivals, hdelivers, hdrained⟩ := h.up
  have hsigned : signedBy arrived =
      some (sanitizeName (party.session.sentName.take maxStringBytes)) := by
    rw [← signedBy_reliable fun sent hsent => hspeaks.states sent (hdelivers.mem hsent), hdrained]
    exact hspeaks.signed h.connected
  have hrecord := signature_after config startTime inputs c
  rw [harrivals, Option.map_some, List.foldl_map,
    show arrived.foldl _ none = signedBy arrived from rfl, hsigned] at hrecord
  obtain ⟨player, hplayer, hsignature⟩ := Option.map_eq_some_iff.mp hrecord
  rw [signature] at hsignature
  split at hsignature
  · rename_i hshake
    exact ⟨player, hplayer, hshake, Option.some.inj hsignature⟩
  · cases hsignature

theorem welcome_received (h : Settled config startTime inputs c party) {id : PlayerId}
    (hgate : Gate ((Network.after config startTime inputs).link c) (some id)) :
    (∃ bytes ∈ party.received, ∃ msg, decode bytes = some (.welcome msg)) ∧
      ∀ bytes ∈ party.received, ∀ msg, decode bytes = some (.welcome msg) →
        msg.serverName = config.name.take maxStringBytes := by
  obtain ⟨delivered, hreceived, hdelivers, hdrained⟩ := h.down
  rw [hreceived]
  refine ⟨?_, fun bytes hbytes msg hdecode => ?_⟩
  · obtain ⟨sent, hsent, hwelcome⟩ := hgate.welcome_iff.mpr rfl
    have hreliable : sent.channel = .kReliable := by
      cases hchannel : sent.channel with
      | kReliable => rfl
      | kUnreliable =>
          rw [IsWelcome, states_after config startTime inputs c sent hsent hchannel] at hwelcome
          cases hwelcome
    have hdelivered : sent ∈ delivered := by
      have hin := mem_reliable.mpr ⟨hsent, hreliable⟩
      rw [← hdrained] at hin
      exact (mem_reliable.mp hin).1
    obtain ⟨m, hdecode, hid⟩ := Option.map_eq_some_iff.mp hwelcome
    cases m with
    | welcome msg => exact ⟨sent.bytes, List.mem_map_of_mem hdelivered, msg, hdecode⟩
    | _ => cases hid
  · obtain ⟨sent, hsent, rfl⟩ := List.mem_map.mp hbytes
    exact welcomes_after config startTime inputs c sent (hdelivers.mem hsent) msg hdecode

theorem standing_of_settled (h : Settled config startTime inputs c party) :
    standing party.session = (true, config.name.take maxStringBytes) := by
  obtain ⟨player, hplayer, hshake, -⟩ := record_of_settled h
  have hgate := (gated_after config startTime inputs c).opened hplayer hshake
  obtain ⟨hwelcome, hserver⟩ := welcome_received h hgate
  rw [stands_after h.enet h.connected, foldl_usher_of_mem hwelcome hserver]

theorem drained_of_settled (h : Settled config startTime inputs c party) :
    Drained config startTime inputs c party where
  enet := h.enet
  connected := h.connected
  welcomed := congrArg Prod.fst (standing_of_settled h)
  up := h.up
  down := h.down

theorem myId_of_settled (h : Settled config startTime inputs c party) {player : Player}
    (hplayer : (Network.after config startTime inputs).server.players.lookup c = some player)
    (hshake : player.handshaked = true) : party.session.myId = player.id := by
  obtain ⟨delivered, hreceived, hdelivers, hdrained⟩ := h.down
  have hgate := (gated_after config startTime inputs c).opened hplayer hshake
  have hknows := knows_of_drained hgate (states_after config startTime inputs c) hdelivers hdrained
  have hknown := (speaks_after h.enet).known h.connected
  rw [show (eventsOf party.inputs).foldl taken [] = _ from hreceived] at hknown
  exact (congrArg Prod.fst hknown).trans hknows.id_eq

/-- Handshakes come to an end: whenever the connection of a client is up and nothing
reliable is under way on it, the server has the client as a player under the name it sent
last, and the client is welcomed, under the player's id and to the server of this name. -/
theorem handshake_settles (config : ServerModel.Config) (startTime : Time)
    (inputs : List ServerRun.Input) (c : Peer) (party : Party D)
    (hsettled : Settled config startTime inputs c party) :
    party.session.welcomed = true ∧
      party.session.serverName = config.name.take maxStringBytes ∧ ∃ player,
      (Network.after config startTime inputs).server.players.lookup c = some player ∧
      player.handshaked = true ∧ party.session.myId = player.id ∧
      player.name = sanitizeName (party.session.sentName.take maxStringBytes) := by
  have hstanding := standing_of_settled hsettled
  obtain ⟨player, hplayer, hshake, hname⟩ := record_of_settled hsettled
  exact ⟨congrArg Prod.fst hstanding, congrArg Prod.snd hstanding, player, hplayer, hshake,
    myId_of_settled hsettled hplayer hshake, hname⟩

end Agreement

section Example

open F4MP.Native

/-- The second of two players is welcomed. -/
theorem handshake_of_second : ∃ player,
    (Network.after {} 0 twoPlayers).server.players.lookup 1 = some player ∧
      (bob twoPlayers).session.myId = player.id := by
  have hsettled : Settled {} 0 twoPlayers 1 (bob twoPlayers) :=
    ⟨by decide +kernel, by decide +kernel,
      ⟨(bob twoPlayers).sent, by decide +kernel, ⟨List.prefix_refl _, List.Sublist.refl _⟩, rfl⟩,
      ⟨(Network.after {} 0 twoPlayers).link 1, by decide +kernel,
        ⟨List.prefix_refl _, List.Sublist.refl _⟩, rfl⟩⟩
  obtain ⟨-, -, player, hplayer, -, hid, -⟩ :=
    handshake_settles {} 0 twoPlayers 1 (bob twoPlayers) hsettled
  exact ⟨player, hplayer, hid⟩

end Example

end F4MP.Welcomes
