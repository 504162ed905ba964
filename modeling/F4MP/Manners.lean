import F4MP.Rehearsal

/-!
A client minds its manners: the first thing it says on a connection is its `Hello`, and
until it is welcomed that is all.  So the server is ready for whatever comes from it.
-/

namespace F4MP.Manners

open F4MP.Types
open F4MP.Packet
open F4MP.Protocol
open F4MP.Messages
open F4MP.Arith
open F4MP.ServerModel (Peer Player Time Server Out broadcast acceptHello acceptChat acceptName
  acceptState isPlausible)
open F4MP.ServerRun (Network Sent sentTo)
open F4MP.ServerTraffic
open F4MP.Handshake
open F4MP.Records
open F4MP.NetClientModel (NetClient Dial)
open F4MP.RemotePlayersModel
open F4MP.SessionModel
open F4MP.SessionSteps
open F4MP.Connection
open F4MP.Delivery
open F4MP.SentNames
open F4MP.NameAgreement
open F4MP.Welcomes
open F4MP.WorldModel
open F4MP.Rehearsal
open F4MP.Library.Runs
open F4MP.Library.Wires

/-- What a client says besides its `Hello`. -/
inductive Talk : Sent → Prop where
  | chat (text : Bytes) : Talk ⟨0, .kReliable, encode { text : ChatMsg }⟩
  | name (name : Bytes) : Talk ⟨0, .kReliable, encode { name : SetNameMsg }⟩
  | state (state : PlayerState F32) : Talk ⟨0, .kUnreliable, encode { state : PlayerStateMsg }⟩

def greeting (gameVersion : UInt32) (name : Bytes) : Sent :=
  ⟨0, .kReliable, encode { gameVersion, name : HelloMsg }⟩

variable {D : Type}

def Mute (actions : List (Action D)) : Prop := ∀ action ∈ actions, ∃ op, action = .remotes op

def Talks (actions : List (Action D)) : Prop :=
  ∀ action ∈ actions, (∃ channel bytes, action = .net (.send channel bytes) ∧
    Talk ⟨0, channel, bytes⟩) ∨ ∃ op, action = .remotes op

theorem Talks.append {actions more : List (Action D)} (h : Talks actions) (hmore : Talks more) :
    Talks (actions ++ more) := fun action haction =>
  (List.mem_append.mp haction).elim (h action) (hmore action)

theorem Mute.talks {actions : List (Action D)} (h : Mute actions) : Talks actions :=
  fun action haction => .inr (h action haction)

theorem mute_nil : Mute ([] : List (Action D)) := by
  rintro _ ⟨⟩

theorem mute_tell (session : Session) (op : Op F32 D) : Mute (tell session op).2 :=
  fun _ haction => ⟨op, List.mem_singleton.mp haction⟩

theorem talks_send (net : NetClient) {channel : Channel} {bytes : Bytes}
    (h : Talk ⟨0, channel, bytes⟩) :
    Talks ((NetClientModel.send net channel bytes).map .net : List (Action D)) := by
  rw [NetClientModel.send]
  split
  · exact mute_nil.talks
  · intro action haction
    exact .inl ⟨channel, bytes, List.mem_singleton.mp haction, h⟩

theorem posted_mute (sent : List Sent) {actions : List (Action D)} (h : Mute actions) :
    actions.foldl posted sent = sent := by
  induction actions with
  | nil => rfl
  | cons action actions ih =>
      obtain ⟨⟨op, rfl⟩, hrest⟩ := List.forall_mem_cons.mp h
      exact ih hrest

theorem posted_talks (sent : List Sent) {actions : List (Action D)} (h : Talks actions) :
    ∃ more, actions.foldl posted sent = sent ++ more ∧ ∀ packet ∈ more, Talk packet := by
  induction actions using List.reverseRecOn with
  | nil => exact ⟨[], (List.append_nil _).symm, by rintro _ ⟨⟩⟩
  | append_singleton actions action ih =>
      obtain ⟨more, hmore, htalk⟩ := ih fun other hother => h other (List.mem_append_left _ hother)
      rw [List.foldl_concat, hmore]
      rcases h action (by simp) with ⟨channel, bytes, rfl, hpacket⟩ | ⟨op, rfl⟩
      · refine ⟨more ++ [⟨0, channel, bytes⟩], List.append_assoc _ _ _, ?_⟩
        exact List.forall_mem_append.mpr ⟨htalk, by simpa using hpacket⟩
      · exact ⟨more, rfl, htalk⟩

/-- A client opens a conversation with its `Hello`, and goes on when it is welcomed. -/
structure Mannered (sent : List Sent) (session : Session) : Prop where
  opened : session.net.state = .kConnected → ∃ gameVersion name rest,
    sent = greeting gameVersion name :: rest ∧ (∀ packet ∈ rest, Talk packet) ∧
      (rest ≠ [] → session.welcomed = true)
  silent : session.net.state = .kConnecting → sent = []

theorem mannered_closed (sent : List Sent) {session : Session}
    (hstate : session.net.state = .kDisconnected) : Mannered sent session where
  opened hconnected := by rw [hstate] at hconnected; cases hconnected
  silent hconnecting := by rw [hstate] at hconnecting; cases hconnecting

section Steps

variable {peer after : EnetPeer} {account : Account} {sent : List Sent} {session session' : Session}

theorem Mannered.same (h : Mannered sent session) (hnet : session'.net = session.net)
    (hwelcomed : session.welcomed = true → session'.welcomed = true) : Mannered sent session' where
  opened hconnected := by
    obtain ⟨gameVersion, name, rest, hsent, htalk, hafter⟩ := h.opened (hnet ▸ hconnected)
    exact ⟨gameVersion, name, rest, hsent, htalk, fun hne => hwelcomed (hafter hne)⟩
  silent hconnecting := h.silent (hnet ▸ hconnecting)

theorem Mannered.mute (h : Mannered sent session) {actions : List (Action D)}
    (hmute : Mute actions) : Mannered (actions.foldl posted sent) session := by
  rwa [posted_mute sent hmute]

theorem Mannered.talk (h : Mannered sent session) (hnet : session'.net = session.net)
    (hconnected : session.net.state = .kConnected) (hwelcomed : session'.welcomed = true)
    {actions : List (Action D)} (htalks : Talks actions) :
    Mannered (actions.foldl posted sent) session' := by
  obtain ⟨more, hmore, htalk⟩ := posted_talks sent htalks
  rw [hmore]
  refine ⟨fun _ => ?_, fun hconnecting => ?_⟩
  · obtain ⟨gameVersion, name, rest, rfl, hrest, -⟩ := h.opened hconnected
    exact ⟨gameVersion, name, rest ++ more, rfl, List.forall_mem_append.mpr ⟨hrest, htalk⟩,
      fun _ => hwelcomed⟩
  · rw [hnet, hconnected] at hconnecting
    cases hconnecting

theorem mannered_dialled (sent : List Sent) (session : Session) (manual : Bool) (dial : Dial)
    (now : Time) (host : Bytes) (port : UInt16) (hstate : session.net.state = .kDisconnected) :
    let attempt := NetClientModel.connect session.net dial host port
    let actions : List (Action D) := .dial manual now :: attempt.2.2.map .net
    Mannered (actions.foldl posted sent) { session with net := attempt.2.1 } := by
  dsimp only
  refine ⟨fun hconnected => absurd hconnected (dialled_state _ dial host port hstate), ?_⟩
  rw [NetClientModel.connect]
  split
  · intro hconnecting
    rw [hstate] at hconnecting
    cases hconnecting
  · dsimp only
    split
    · rintro ⟨⟩
    · intro _
      simp [posted]

theorem mannered_disconnectNet (sent : List Sent) (session : Session) :
    Mannered ((disconnectNet session : Result D).2.foldl posted sent)
      (disconnectNet session : Result D).1 :=
  mannered_closed _ (ClientTurns.disconnectNet_state session)

theorem mannered_connect (h : Mannered sent session) (manual : Bool) (dial : Dial) (now : Time) :
    Mannered ((connect session manual dial now : Result D).2.foldl posted sent)
      (connect session manual dial now : Result D).1 := by
  rw [connect]
  split
  · exact h
  dsimp only
  split
  · rw [Result.andThen, List.foldl_append]
    exact mannered_dialled _ _ manual dial now _ _ (ClientTurns.disconnectNet_state _)
  split
  · exact h
  · rename_i hstate
    exact mannered_dialled _ _ manual dial now _ _ (not_not.mp hstate)

theorem mannered_autoConnect (h : Mannered sent session) (dial : Dial) (now : Time) :
    Mannered ((autoConnect session dial now : Result D).2.foldl posted sent)
      (autoConnect session dial now : Result D).1 := by
  rw [autoConnect]
  split
  · have hattempt : Mannered sent { session with lastReconnectAttempt := now } :=
      h.same rfl id
    exact mannered_connect hattempt false dial now
  · exact h

variable [CppFloat F32]

theorem talks_sendState (session : Session) (force : Bool) (sample : Option (PlayerState F32))
    (now : Time) : Talks (sendState session force sample now : Result D).2 := by
  cases sample with
  | none => exact mute_nil.talks
  | some state =>
      simp only [sendState]
      split
      · exact talks_send _ (.state state)
      · exact mute_nil.talks

omit [CppFloat F32] in
theorem talks_syncName (session : Session) (playerName : Bytes) (now : Time) :
    Talks (syncName session playerName now : Result D).2 := by
  rw [syncName]
  split
  · exact mute_nil.talks
  · dsimp only
    split
    · exact mute_nil.talks
    · exact talks_send _ (.name _)

theorem mannered_handlePacket (h : Mannered sent session)
    (hconnected : session.net.state = .kConnected) (bytes : Bytes) (reading : Reading D) :
    Mannered ((handlePacket session bytes reading).2.foldl posted sent)
      (handlePacket session bytes reading).1 := by
  have hother : ∀ (id : PlayerId) (op : Op F32 D),
      Mannered ((tellOfOther session id op).2.foldl posted sent) (tellOfOther session id op).1 := by
    intro player op
    rw [tellOfOther]
    split
    · exact h.mute (mute_tell session op)
    · exact h
  rw [SessionSteps.handlePacket_eq]
  cases decode bytes with
  | none => exact h
  | some m =>
      cases m with
      | welcome msg =>
          rw [Option.elim_some, SessionSteps.hear, handleWelcome]
          refine h.talk ?_ hconnected ?_ (talks_sendState _ _ _ _)
          · rw [(sendState_spec _ _ _ _).1]
          · rw [(sendState_spec _ _ _ _).1]
      | playerJoined | playerRenamed | playerStateUpdate => exact hother _ _
      | playerLeft => exact h.mute (mute_tell session _)
      | reject | chatBroadcast | hello | playerState | chat | setName => exact h

theorem mannered_handleNetEvents {events : List (NetEvent D)} (hsound : Sound peer account session)
    (h : Mannered sent session) (hraise : events.foldlM EnetPeer.raise peer = some after) :
    Mannered ((handleNetEvents session events).2.foldl posted sent)
      (handleNetEvents session events).1 := by
  induction events generalizing peer account session sent with
  | nil => exact h
  | cons event events ih =>
      rw [List.foldlM_cons] at hraise
      obtain ⟨middle, hfirst, hrest⟩ := Option.bind_eq_some_iff.mp hraise
      obtain ⟨account', -, hsound'⟩ := keeps_handleNetEvent hsound hfirst
      rw [handleNetEvents, Result.andThen, List.foldl_append]
      refine ih hsound' ?_ hrest
      cases event with
      | connect playerName =>
          cases peer with
          | free | connected => cases hfirst
          | connecting =>
              have hpeer : session.net.peer = true := hsound.hasPeer
              have hsent := h.silent hsound.state
              subst hsent
              refine ⟨fun _ => ⟨session.gameVersion, ownName session playerName, [], ?_,
                by rintro _ ⟨⟩, fun hne => absurd rfl hne⟩, by rintro ⟨⟩⟩
              simp [handleNetEvent, onConnected, requests, NetClientModel.send, hpeer, posted,
                greeting, ownName]
      | receive bytes reading =>
          cases peer with
          | free | connecting => cases hfirst
          | connected => exact mannered_handlePacket h hsound.state bytes reading
      | disconnect => exact mannered_closed _ rfl

theorem mannered_pump {events : List (NetEvent D)} (hsound : Sound peer account session)
    (h : Mannered sent session) (hraise : events.foldlM EnetPeer.raise peer = some after)
    (now : Time) :
    Mannered ((pump session events now).2.foldl posted sent) (pump session events now).1 := by
  rw [pump]
  split
  · exact h
  · have hevents := mannered_handleNetEvents hsound h hraise
    rw [Result.andThen, List.foldl_append]
    dsimp only
    split
    · exact mannered_closed _ rfl
    · exact hevents

theorem mannered_play (h : Mannered sent session) (input : TickInput D) :
    Mannered ((play input session).2.foldl posted sent) (play input session).1 := by
  have hsession := (play_spec session input).1
  rw [play] at hsession ⊢
  split
  · rename_i hplaying
    rw [if_pos hplaying] at hsession
    rw [isConnected, Bool.and_eq_true, decide_eq_true_eq] at hplaying
    refine h.talk ?_ hplaying.1 ?_
      (((talks_sendState _ _ _ _).append (talks_syncName _ _ _)).append (mute_tell _ _).talks)
    · rw [hsession]
    · rw [hsession]
      exact hplaying.2
  · exact h

theorem mannered_step {event : SessionModel.Event D} (hsound : Sound peer account session)
    (h : Mannered sent session)
    (hraise : (netEvents event).foldlM EnetPeer.raise peer = some after) :
    Mannered ((SessionModel.step session event).2.foldl posted sent)
      (SessionModel.step session event).1 := by
  cases event with
  | tick input =>
      have hpump := mannered_pump hsound h hraise input.pumpNow
      rw [SessionModel.step, tick_eq, Result.andThen, List.foldl_append]
      dsimp only
      split
      · exact hpump
      · rw [Result.andThen, List.foldl_append]
        exact mannered_play (mannered_autoConnect hpump _ _) input
  | connect dial now => exact mannered_connect h true dial now
  | disconnect => exact mannered_disconnectNet sent _
  | sendChat text =>
      rw [SessionModel.step, sendChat]
      split
      · exact h
      · rename_i hplaying
        simp only [Bool.or_eq_true, Bool.not_eq_true', not_or, Bool.not_eq_false] at hplaying
        obtain ⟨-, hplaying⟩ := hplaying
        rw [isConnected, Bool.and_eq_true, decide_eq_true_eq] at hplaying
        exact h.talk rfl hplaying.1 hplaying.2 (talks_send _ (.chat _))
  | setServer hostPort =>
      have hkept : (setServer session hostPort).2.net = session.net ∧
          (setServer session hostPort).2.welcomed = session.welcomed := by
        rw [setServer]
        repeat' split
        all_goals exact ⟨rfl, rfl⟩
      exact h.same hkept.1 fun hwelcomed => hkept.2.trans hwelcomed
  | setCloneOption option on =>
      rw [SessionModel.step, setCloneOption]
      repeat' (split; · exact h.mute (mute_tell session _))
      exact h
  | setPlayerName => exact h.same rfl id
  | enterWorld | newGame | leaveWorld | preSave | setCloneBase | actorDeleted =>
      refine Mannered.mute (h.same ?_ ?_) (mute_tell _ _)
      · rfl
      · exact id

end Steps

theorem Talk.not_hello {packet : Sent} (h : Talk packet) (hello : HelloMsg) :
    decode packet.bytes ≠ some (.hello hello) := by
  intro hdecode
  cases h with
  | chat => cases (decode_chat _).symm.trans hdecode
  | name => cases (decode_setName _).symm.trans hdecode
  | state => cases (decode_playerState _).symm.trans hdecode

theorem hello_of_signed {got : List Bytes} (h : got.foldl sign none ≠ none) :
    ∃ bytes ∈ got, ∃ hello, decode bytes = some (.hello hello) := by
  induction got using List.reverseRecOn with
  | nil => exact absurd rfl h
  | append_singleton got bytes ih =>
      by_cases hbefore : got.foldl sign none = none
      · rw [List.foldl_concat, hbefore, sign] at h
        split at h
        · rename_i hello hdecode
          exact ⟨bytes, by simp, hello, hdecode⟩
        · exact absurd rfl h
        · exact absurd rfl h
      · obtain ⟨earlier, hearlier, hello⟩ := ih hbefore
        exact ⟨earlier, List.mem_append_left _ hearlier, hello⟩

/-- The server is ready for a packet of a connection: a `Hello` of its version comes before
the handshake, and anything else, of a kind it knows, after it. -/
def Ready (player : Player) (packet : Sent) : Prop :=
  (∃ hello, decode packet.bytes = some (.hello hello) ∧
    hello.protocolVersion = currentProtocolVersion ∧ player.handshaked = false) ∨
  (Talk packet ∧ player.handshaked = true)

/-- What the server does about a message of a connection that may send it. -/
def answer (s : Server) (now : Time) (c : Peer) (player : Player) : Message → Server × List Out
  | .hello hello => acceptHello s now c player hello
  | .playerState msg =>
      if isPlausible msg.state then acceptState s now c player msg.state else (s, [])
  | .chat msg => if msg.text.isEmpty then (s, []) else acceptChat s now c player msg.text
  | .setName msg => acceptName s c player msg.name
  | _ => (s, [])

theorem handlePacket_of_known {s : Server} {c : Peer} {player : Player} {bytes : Bytes}
    {m : Message} (hplayer : s.players.lookup c = some player) (hdecode : decode bytes = some m)
    (hgate : player.handshaked = true ∨ m.id = .kHello) (now : Time) :
    ServerModel.handlePacket s now c bytes = answer s now c player m := by
  obtain ⟨hid, hok⟩ := header_of_decode hdecode
  rw [ServerEffects.handlePacket_eq hplayer]
  dsimp only
  rw [hid, hok, hdecode, if_neg (by rintro ⟨⟩), if_neg]
  · cases m <;> rfl
  · rintro ⟨hnot, hother⟩
    exact hgate.elim (fun hshake => by rw [hnot] at hshake; cases hshake) hother

theorem not_rejected {s : Server} {c : Peer} {player : Player} {packet : Sent}
    (hplayer : s.players.lookup c = some player) (hready : Ready player packet) (now : Time) :
    ∀ sent ∈ sentTo c now (ServerModel.handlePacket s now c packet.bytes).2, ¬ IsReject sent := by
  have hbroadcast : ∀ (s : Server) (channel : Channel) (bytes : Bytes) (except : Option Peer),
      (∀ now channel, kind ⟨now, channel, bytes⟩ ≠ some .kReject) →
        ∀ sent ∈ sentTo c now (broadcast s channel bytes except), ¬ IsReject sent := by
    intro s channel bytes except hkind sent hsent
    obtain ⟨-, rfl⟩ := mem_sentTo_broadcast.mp hsent
    exact hkind _ _
  rcases hready with ⟨hello, hdecode, hversion, hshake⟩ | ⟨htalk, hshake⟩
  · rw [handlePacket_of_known hplayer hdecode (.inr rfl), answer, acceptHello,
      if_neg (not_not.mpr hversion), if_neg (by rw [hshake]; rintro ⟨⟩)]
    dsimp only
    intro sent hsent hreject
    rw [IsReject] at hreject
    rw [sentTo_greet, if_pos rfl] at hsent
    rcases List.mem_cons.mp hsent with rfl | hsent
    · rw [kind_welcome] at hreject
      cases hreject
    rcases List.mem_append.mp hsent with hcatchUp | hchat
    · rcases kind_of_mem_catchUp hcatchUp with hkind | hkind <;> cases hkind.symm.trans hreject
    · split at hchat
      · rw [List.mem_singleton.mp hchat, kind_chatBroadcast] at hreject
        cases hreject
      · cases hchat
  · cases htalk with
    | chat text =>
        obtain ⟨msg, hdecode⟩ : ∃ msg, decode (encode { text : ChatMsg }) = some (.chat msg) :=
          ⟨_, decode_chat _⟩
        rw [handlePacket_of_known hplayer hdecode (.inl hshake), answer]
        split
        · rintro _ ⟨⟩
        rw [acceptChat]
        dsimp only
        split
        · split
          · intro sent hsent
            rw [sentTo_send, if_pos rfl, List.mem_singleton] at hsent
            simp [hsent, IsReject]
          · rintro _ ⟨⟩
        · split
          · rintro _ ⟨⟩
          · exact hbroadcast _ _ _ _ (by simp)
    | name name =>
        obtain ⟨msg, hdecode⟩ :
            ∃ msg, decode (encode { name : SetNameMsg }) = some (.setName msg) :=
          ⟨_, decode_setName _⟩
        rw [handlePacket_of_known hplayer hdecode (.inl hshake), answer, acceptName]
        dsimp only
        split
        · rintro _ ⟨⟩
        · exact hbroadcast _ _ _ _ (by simp)
    | state state =>
        obtain ⟨msg, hdecode⟩ :
            ∃ msg, decode (encode { state : PlayerStateMsg }) = some (.playerState msg) :=
          ⟨_, decode_playerState _⟩
        rw [handlePacket_of_known hplayer hdecode (.inl hshake), answer]
        split
        · exact hbroadcast _ _ _ _ (by simp)
        · rintro _ ⟨⟩

theorem welcome_of_usher {got : List Bytes} {start : Standing}
    (h : (got.foldl usher start).1 = true) (hstart : start.1 = false) :
    ∃ bytes ∈ got, ∃ msg, decode bytes = some (.welcome msg) := by
  induction got using List.reverseRecOn with
  | nil => rw [List.foldl_nil, hstart] at h; cases h
  | append_singleton got bytes ih =>
      rw [List.foldl_concat, usher] at h
      split at h
      · rename_i msg hdecode
        exact ⟨bytes, by simp, msg, hdecode⟩
      · obtain ⟨earlier, hearlier, hwelcome⟩ := ih h
        exact ⟨earlier, List.mem_append_left _ hearlier, hwelcome⟩

theorem not_arrived_of_arrives {wire wire' : Wire isReliable} {first : Sent} {rest : List Sent}
    (hposted : wire.posted = first :: rest) (hreliable : isReliable first = true)
    (hother : first ∉ rest) (h : Arrives wire first wire') : first ∉ wire.arrived := by
  intro hbefore
  have htwice : [first, first].Sublist (wire'.arrived.filter isReliable) := by
    rw [h.arrived_eq, List.filter_append]
    exact (List.singleton_sublist.mpr (List.mem_filter.mpr ⟨hbefore, hreliable⟩)).append
      (by simp [hreliable] : [first].Sublist ([first].filter isReliable))
  have honce := htwice.trans wire'.front.sublist
  rw [h.posted_eq, hposted, List.filter_cons_of_pos hreliable, List.cons_sublist_cons,
    List.singleton_sublist] at honce
  exact hother (List.mem_filter.mp honce).1

section Runs

variable [CppFloat F32] [CppFloat D] [Libm F32] [Narrow D F32] [Widen F32 D]

theorem mannered_after {party : Party D} (henet : party.watched.enet ≠ none) :
    Mannered party.sent party.session := by
  obtain ⟨config, gameVersion, enetReady, inputs⟩ := party
  induction inputs using List.reverseRecOn with
  | nil => exact mannered_closed _ rfl
  | append_singleton inputs input ih =>
      obtain ⟨before, after, account, hbefore, hsound, hraise⟩ := sound_before henet
      have hmannered := ih (by rw [Party.watched, hbefore]; rintro ⟨⟩)
      have hstep := mannered_step hsound hmannered hraise
      rw [Party.sent, Party.session, Party.watched, Watched.after, run_concat]
      simp only [Watched.step, ClientRun.Client.step, List.foldl_append]
      exact hstep

variable [ServerConsole.Platform] {κ : Type} [DecidableEq κ]

/-- In every world that can come about, whatever packet of a client may come to the server
next: the server knows the connection and is ready for the packet, and does not answer it
by a rejection. -/
theorem every_packet_is_heard (config : ServerModel.Config) (startTime : Time) (w : World κ D)
    (hreachable : Reachable config startTime w) (k : κ) (circuit : Circuit)
    (hcircuit : w.circuit k = some circuit) (c : Peer) (hpeer : circuit.peer = some c)
    (packet : Sent) (up : Wire isReliable) (harrives : Arrives circuit.up packet up) :
    (∃ player, (Network.after config startTime w.served).server.players.lookup c = some player ∧
      Ready player packet) ∧
    ∀ input : ServerRun.Input, input.event = .receive c packet.bytes →
      ∀ sent ∈ sentTo c input.now
        (ServerRun.step (Network.after config startTime w.served).server input).2,
        ¬ IsReject sent := by
  suffices hready : ∃ player,
      (Network.after config startTime w.served).server.players.lookup c = some player ∧
        Ready player packet by
    refine ⟨hready, fun input hevent => ?_⟩
    obtain ⟨player, hplayer, hready⟩ := hready
    rw [ServerRun.step, hevent]
    exact not_rejected ((lookup_reorder _ _ _).trans hplayer) hready input.now
  have hworld := inStep_reachable hreachable
  have htuned := hworld.tuned k circuit hcircuit
  obtain ⟨harrivals, hlink⟩ := (hworld.served k circuit hcircuit).up c hpeer
  have hmannered := mannered_after (hworld.allowed k)
  have hrecord := signature_after config startTime w.served c
  rw [harrivals, Option.map_some] at hrecord
  obtain ⟨player, hplayer, hsignature⟩ := Option.map_eq_some_iff.mp hrecord
  refine ⟨player, hplayer, ?_⟩
  -- the packet is one of those that the client said
  have hsaid : packet ∈ (w.party k).sent := by
    have hmem : packet ∈ up.arrived := by
      rw [harrives.arrived_eq]
      simp
    rw [htuned.posted, ← harrives.posted_eq]
    exact (delivers_of_wire up).mem hmem
  obtain ⟨account, -, hsound, -⟩ := sound_after htuned.enet
  cases hup : circuit.clientUp with
  | false =>
      rw [hup] at hsound
      rw [hmannered.silent hsound.state] at hsaid
      cases hsaid
  | true =>
      rw [hup] at hsound
      obtain ⟨gameVersion, name, rest, hsent, htalk, hafter⟩ := hmannered.opened hsound.state
      have hgreeting : greeting gameVersion name ∉ rest := fun hmem =>
        (htalk _ hmem).not_hello _ (decode_hello _)
      rw [hsent] at hsaid
      rcases List.mem_cons.mp hsaid with rfl | hrest
      · refine .inl ⟨_, decode_hello _, rfl, ?_⟩
        -- it would have come before
        by_contra hshake
        rw [Bool.not_eq_false] at hshake
        have hsigned : (circuit.up.arrived.map (·.bytes)).foldl sign none ≠ none := by
          rw [← hsignature, signature, if_pos hshake]
          rintro ⟨⟩
        obtain ⟨bytes, hbytes, hello, hdecode⟩ := hello_of_signed hsigned
        obtain ⟨earlier, hearlier, rfl⟩ := List.mem_map.mp hbytes
        have hposted : circuit.up.posted = greeting gameVersion name :: rest :=
          htuned.posted.symm.trans hsent
        have hmem := (delivers_of_wire circuit.up).mem hearlier
        rw [hposted] at hmem
        rcases List.mem_cons.mp hmem with rfl | hlater
        · exact not_arrived_of_arrives hposted rfl hgreeting harrives hearlier
        · exact (htalk _ hlater).not_hello _ hdecode
      · refine .inr ⟨htalk _ hrest, ?_⟩
        -- it was said after the welcome
        have hwelcomed := hafter (List.ne_nil_of_mem hrest)
        have hstands := congrArg Prod.fst (stands_after (hworld.allowed k) hsound.state)
        obtain ⟨bytes, hbytes, msg, hdecode⟩ := welcome_of_usher (hstands.symm.trans hwelcomed) rfl
        rw [htuned.received hup] at hbytes
        obtain ⟨welcome, hwelcome, rfl⟩ := List.mem_map.mp hbytes
        obtain ⟨id, hgate, hid⟩ := gated_after config startTime w.served c
        have hmem := (delivers_of_wire circuit.down).mem hwelcome
        rw [← hlink] at hmem
        rw [hid player hplayer] at hgate
        have hsome := hgate.id_of_welcome hmem hdecode
        by_contra hshake
        rw [if_neg hshake] at hsome
        cases hsome

end Runs

section Example

open F4MP.Native

theorem knocks_go : (rehearse {} 0 knocks).isSome = true := by decide +kernel

def arrived : World Bool F64 := (rehearse {} 0 knocks).get knocks_go

/-- The `Hello` of the second of two clients finds the server ready. -/
theorem hello_is_heard : ∃ player,
    (Network.after {} 0 arrived.served).server.players.lookup 1 = some player ∧
      Ready player ⟨0, .kReliable, hello true⟩ := by
  obtain ⟨circuit, hcircuit, hnext⟩ := Option.map_eq_some_iff.mp
    (show (arrived.circuit true).map (fun circuit => (circuit.peer, circuit.up.ordered)) =
      some (some 1, [⟨0, .kReliable, hello true⟩]) by decide +kernel)
  obtain ⟨hpeer, hordered⟩ := Prod.mk.inj hnext
  exact (every_packet_is_heard {} 0 arrived (reachable_rehearse (Option.some_get _).symm) true
    circuit hcircuit 1 hpeer _ _ (.ordered hordered)).1

end Example

end F4MP.Manners
