import F4MP.ClientTurns
import F4MP.Records
import F4MP.RemoteNames

/-!
Names in a conversation: the name its packets give a connection, and the id and the
names its packets teach a client.  A client goes by the name it sent last.
-/

namespace F4MP.SentNames

open F4MP.Types
open F4MP.Packet
open F4MP.Protocol
open F4MP.Messages
open F4MP.Arith
open F4MP.ServerModel (Player Time)
open F4MP.ServerRun (Sent)
open F4MP.Records
open F4MP.NetClientModel (NetClient)
open F4MP.RemotePlayersModel
open F4MP.SessionModel
open F4MP.SessionSteps
open F4MP.ClientRun
open F4MP.Connection
open F4MP.Roster (Names)
open F4MP.Delivery
open F4MP.RemoteNames
open F4MP.ClientTurns
open F4MP.Library.Runs

/-- What a packet does to the name a connection goes by, if it goes by one. -/
def sign (signed : Option Bytes) (bytes : Bytes) : Option Bytes :=
  match decode bytes with
  | some (.hello hello) =>
      if signed = none ∧ hello.protocolVersion = currentProtocolVersion then
        some (sanitizeName hello.name)
      else signed
  | some (.setName msg) => signed.map fun _ => sanitizeName msg.name
  | _ => signed

def signature (player : Player) : Option Bytes := if player.handshaked then some player.name else none

theorem signature_heard (s : ServerModel.Server) (now : Time) (player : Player) (bytes : Bytes) :
    signature (heardRecord s now player (decode bytes)) = sign (signature player) bytes := by
  rw [sign]
  cases decode bytes with
  | none => rfl
  | some m =>
      cases m with
      | hello hello =>
          simp only [heardRecord, signature]
          by_cases hversion : hello.protocolVersion = currentProtocolVersion
          · by_cases hshake : player.handshaked = true
            · simp [hshake]
            · simp [hversion, hshake, ServerModel.welcomedPlayer]
          · simp [hversion]
      | playerState msg =>
          simp only [heardRecord, signature]
          split <;> rfl
      | chat msg =>
          simp only [heardRecord, signature]
          split
          · simp
          · rfl
      | setName msg =>
          simp only [heardRecord, signature]
          split <;> simp
      | _ => rfl

/-- What a message makes of the id of a client and of the names it has. -/
def heed (known : PlayerId × Names) : Message → PlayerId × Names
  | .welcome m => (m.id, known.2)
  | .playerJoined m =>
      if m.id ≠ known.1 then (known.1, Function.update known.2 m.id (some m.name)) else known
  | .playerRenamed m =>
      if m.id ≠ known.1 then (known.1, Function.update known.2 m.id (some m.name)) else known
  | .playerLeft m => (known.1, Function.update known.2 m.id none)
  | .playerStateUpdate m =>
      if m.id ≠ known.1 then
        (known.1, Function.update known.2 m.id (some ((known.2 m.id).getD (placeholderName m.id))))
      else known
  | _ => known

def learn (known : PlayerId × Names) (bytes : Bytes) : PlayerId × Names :=
  (decode bytes).elim known (heed known)

def stranger : PlayerId × Names := (invalidPlayerId, fun _ => none)

theorem heed_eq {D : Type} (self : PlayerId) (names : Names) (localMs : D) (m : Message) :
    heed (self, names) m = (selfAfter self m, (told self localMs m).foldl renamed names) := by
  cases m with
  | playerJoined m =>
      dsimp only [heed, told]
      split <;> rfl
  | playerRenamed m =>
      dsimp only [heed, told]
      split <;> rfl
  | playerStateUpdate m =>
      dsimp only [heed, told]
      split <;> rfl
  | _ => rfl

variable {D : Type}

/-- What a client sent since it last asked for a connection. -/
def posted (sent : List Sent) : Action D → List Sent
  | .net (.connect ..) => []
  | .net (.send channel bytes) => sent ++ [⟨0, channel, bytes⟩]
  | _ => sent

/-- What a client received since its connection was made. -/
def taken (got : List Bytes) : NetEvent D → List Bytes
  | .connect _ => []
  | .receive bytes _ => got ++ [bytes]
  | .disconnect => got

/-- The reliable packets of a log. -/
def reliable (log : List Sent) : List Sent := log.filter (·.channel = .kReliable)

def signedBy (log : List Sent) : Option Bytes := log.foldl (fun signed sent => sign signed sent.bytes) none

def IsState (sent : Sent) : Prop := ∃ msg, decode sent.bytes = some (.playerState msg)

/-- A session in step with what was sent and received on its connection. -/
structure Speaks (sent : List Sent) (got : List Bytes) (names : Names) (session : Session) : Prop where
  hasPeer : session.net.peer = decide (session.net.state ≠ .kDisconnected)
  signed : session.net.state = .kConnected →
    signedBy (reliable sent) = some (sanitizeName (session.sentName.take maxStringBytes))
  silent : session.net.state = .kConnecting → sent = []
  states : ∀ packet ∈ sent, packet.channel = .kUnreliable → IsState packet
  known : session.net.state = .kConnected → (session.myId, names) = got.foldl learn stranger
  blank : session.net.state ≠ .kConnected → (session.myId, names) = stranger

theorem signedBy_concat (log : List Sent) (sent : Sent) :
    signedBy (log ++ [sent]) = sign (signedBy log) sent.bytes :=
  List.foldl_concat ..

def Besides (sent : Sent) : Prop :=
  (sent.channel = .kReliable ∧ ∃ msg, decode sent.bytes = some (.chat msg)) ∨
    (sent.channel = .kUnreliable ∧ IsState sent)

theorem signedBy_besides {log more : List Sent} (hmore : ∀ sent ∈ more, Besides sent) :
    signedBy (reliable (log ++ more)) = signedBy (reliable log) := by
  induction more using List.reverseRecOn with
  | nil => rw [List.append_nil]
  | append_singleton more sent ih =>
      have hbefore := ih fun other hother => hmore other (List.mem_append_left _ hother)
      rw [← List.append_assoc, reliable, List.filter_append]
      rcases hmore sent (by simp) with ⟨hchannel, msg, hdecode⟩ | ⟨hchannel, -⟩
      · rw [List.filter_cons_of_pos (by simp [hchannel]), List.filter_nil, signedBy_concat, sign, hdecode]
        exact hbefore
      · rw [List.filter_cons_of_neg (by simp [hchannel]), List.filter_nil, List.append_nil]
        exact hbefore

theorem posted_plain {net : NetClient} (sent : List Sent) {actions : List (Action D)}
    (h : ∀ action ∈ actions, Plain net action) :
    ∃ more, actions.foldl posted sent = sent ++ more ∧ (∀ packet ∈ more, Besides packet) ∧
      (net.state ≠ .kConnected → more = []) := by
  induction actions using List.reverseRecOn with
  | nil => exact ⟨[], (List.append_nil _).symm, by rintro _ ⟨⟩, fun _ => rfl⟩
  | append_singleton actions action ih =>
      obtain ⟨more, hmore, hbesides, hnone⟩ := ih fun other hother =>
        h other (List.mem_append_left _ hother)
      rw [List.foldl_concat, hmore]
      have hadd : ∀ packet : Sent, net.state = .kConnected → Besides packet →
          ∃ more', sent ++ more ++ [packet] = sent ++ more' ∧ (∀ packet ∈ more', Besides packet) ∧
            (net.state ≠ .kConnected → more' = []) := by
        intro packet hconnected hpacket
        refine ⟨more ++ [packet], List.append_assoc _ _ _, fun other hother => ?_,
          fun hnot => absurd hconnected hnot⟩
        rcases List.mem_append.mp hother with hold | hlast
        · exact hbesides other hold
        · rwa [List.mem_singleton.mp hlast]
      cases h action (by simp) with
      | chat hconnected text => exact hadd _ hconnected (.inl ⟨rfl, _, decode_chat _⟩)
      | state hconnected state => exact hadd _ hconnected (.inr ⟨rfl, _, decode_playerState _⟩)
      | remotes op => exact ⟨more, rfl, hbesides, hnone⟩

theorem renamed_uninvolved {actions : List (Action D)} (h : Uninvolved actions) (names : Names) :
    (remoteOps actions).foldl renamed names = names := by
  have hkept : ∀ {op : Op F32 D}, Neutral op → renamed names op = names := by
    intro op hop
    cases op with
    | add | rename | remove | applyState | clear => exact hop.elim
    | _ => rfl
  induction actions using List.reverseRecOn with
  | nil => rfl
  | append_singleton actions action ih =>
      have hbefore := ih fun op hop => h op (List.mem_append_left _ hop)
      rw [remoteOps_concat, List.foldl_append, hbefore]
      cases action with
      | dial | net => rfl
      | remotes op => exact hkept (h op (by simp))

section Steps

variable {sent : List Sent} {got : List Bytes} {names : Names} {session : Session}

theorem Speaks.besides (h : Speaks sent got names session) {more : List Sent}
    (hmore : ∀ packet ∈ more, Besides packet) (hnone : session.net.state ≠ .kConnected → more = []) :
    Speaks (sent ++ more) got names session where
  hasPeer := h.hasPeer
  signed hconnected := (signedBy_besides hmore).trans (h.signed hconnected)
  silent hconnecting := by
    rw [h.silent hconnecting, hnone (by rw [hconnecting]; rintro ⟨⟩)]
    rfl
  states packet hpacket hchannel := by
    rcases List.mem_append.mp hpacket with hold | hnew
    · exact h.states packet hold hchannel
    · rcases hmore packet hnew with ⟨hreliable, -⟩ | ⟨-, hstate⟩
      · rw [hchannel] at hreliable
        cases hreliable
      · exact hstate
  known := h.known
  blank := h.blank

theorem Speaks.constant {session' : Session} (h : Speaks sent got names session)
    (hsession : Constant session session') : Speaks sent got names session' where
  hasPeer := by rw [hsession.net, h.hasPeer]
  signed hconnected := by
    rw [hsession.sentName]
    exact h.signed (hsession.net ▸ hconnected)
  silent hconnecting := h.silent (hsession.net ▸ hconnecting)
  states := h.states
  known hconnected := by
    rw [hsession.myId]
    exact h.known (hsession.net ▸ hconnected)
  blank hnot := by
    rw [hsession.myId]
    exact h.blank (hsession.net ▸ hnot)

theorem signed_concat {log : List Sent} {name : Bytes} (h : signedBy (reliable log) ≠ none) :
    signedBy (reliable (log ++ [⟨0, .kReliable, encode { name : SetNameMsg }⟩])) =
      some (sanitizeName (name.take maxStringBytes)) := by
  obtain ⟨old, hold⟩ := Option.ne_none_iff_exists'.mp h
  rw [reliable, List.filter_append, List.filter_cons_of_pos (by simp), List.filter_nil,
    signedBy_concat, show signedBy (log.filter _) = some old from hold, sign, decode_setName]
  rfl

theorem signed_hello (gameVersion : UInt32) (name : Bytes) :
    signedBy (reliable [⟨0, .kReliable, encode { gameVersion, name : HelloMsg }⟩]) =
      some (sanitizeName (name.take maxStringBytes)) := by
  rw [reliable, List.filter_cons_of_pos (by simp), List.filter_nil, signedBy, List.foldl_cons,
    List.foldl_nil, sign, decode_hello]
  rfl

theorem speaks_closed (h : Speaks sent got names session) {session' : Session}
    (hstate : session'.net.state = .kDisconnected) (hpeer : session'.net.peer = false)
    (hid : session'.myId = invalidPlayerId) : Speaks sent got (fun _ => none) session' where
  hasPeer := by rw [hstate, hpeer]; rfl
  signed hconnected := by rw [hstate] at hconnected; cases hconnected
  silent hconnecting := by rw [hstate] at hconnecting; cases hconnecting
  states := h.states
  known hconnected := by rw [hstate] at hconnected; cases hconnected
  blank _ := by rw [hid]; rfl

theorem speaks_dialled (h : Speaks sent got names session) (manual : Bool) (dial : NetClientModel.Dial)
    (now : Time) (host : Bytes) (port : UInt16) (hstate : session.net.state = .kDisconnected) :
    let attempt := NetClientModel.connect session.net dial host port
    let actions : List (Action D) := .dial manual now :: attempt.2.2.map .net
    Speaks (actions.foldl posted sent) got ((remoteOps actions).foldl renamed names)
      { session with net := attempt.2.1 } := by
  have hpeer : session.net.peer = false := by rw [h.hasPeer, hstate]; rfl
  have hblank := h.blank (by rw [hstate]; rintro ⟨⟩)
  -- the attempt failed, whatever became of the host
  have hfailed : ∀ net : NetClient, net.state = .kDisconnected → net.peer = false →
      Speaks sent got names { session with net } := by
    intro net hdisconnected hnone
    refine ⟨?_, ?_, ?_, h.states, ?_, fun _ => hblank⟩
    · rw [hdisconnected, hnone]
      rfl
    all_goals
      intro hother
      rw [hdisconnected] at hother
      cases hother
  simp only [NetClientModel.connect, NetClientModel.reset, hpeer]
  by_cases hready : session.net.enetReady = true
  swap
  · simp only [hready, Bool.not_false, if_true]
    exact hfailed _ hstate hpeer
  simp only [hready, Bool.not_true, Bool.false_eq_true, if_false]
  split
  · exact hfailed _ rfl rfl
  · exact ⟨rfl, by rintro ⟨⟩, fun _ => rfl, by rintro _ ⟨⟩, by rintro ⟨⟩, fun _ => hblank⟩

variable [CppFloat F32]

theorem speaks_hear (h : Speaks sent got names session) (bytes : Bytes) (reading : Reading D)
    (hconnected : session.net.state = .kConnected) :
    let result := handlePacket session bytes reading
    Speaks (result.2.foldl posted sent) (got ++ [bytes]) ((remoteOps result.2).foldl renamed names)
      result.1 := by
  intro result
  obtain ⟨more, hposted, hbesides, hnone⟩ := posted_plain sent (plain_handlePacket session bytes reading)
  have hheard := (handlePacket_spec session bytes reading).1.rest
  have hnet : (handlePacket session bytes reading).1.net = session.net := by rw [hheard]
  have hname : (handlePacket session bytes reading).1.sentName = session.sentName := by rw [hheard]
  obtain ⟨hops, hid⟩ := handlePacket_decoded session bytes reading
  have hmore := h.besides hbesides hnone
  rw [hposted]
  refine ⟨by rw [hnet, h.hasPeer], fun hstate => ?_, fun hstate => ?_, hmore.states, fun _ => ?_,
    fun hnot => absurd (hnet ▸ hconnected) hnot⟩
  · rw [hname]
    exact hmore.signed hconnected
  · rw [hnet, hconnected] at hstate
    cases hstate
  · rw [List.foldl_concat, ← h.known hconnected, hops, hid, learn]
    cases decode bytes with
    | none => rfl
    | some m => exact (heed_eq _ _ _ m).symm

theorem Speaks.turn (h : Speaks sent got names session) {events : List (NetEvent D)}
    {result : Result D} (hturn : Turn session events result) :
    Speaks (result.2.foldl posted sent) (events.foldl taken got)
      ((remoteOps result.2).foldl renamed names) result.1 := by
  cases hturn with
  | plain hsession hactions hneutral =>
      obtain ⟨more, hposted, hbesides, hnone⟩ := posted_plain sent hactions
      rw [hposted, renamed_uninvolved hneutral]
      exact (h.besides hbesides hnone).constant hsession
  | @rename session' hconnected hnet hid =>
      have hpeer : session.net.peer = true := by rw [h.hasPeer, hconnected]; rfl
      have hsends : NetClientModel.send session.net .kReliable
          (encode { name := session'.sentName : SetNameMsg }) =
            [.send .kReliable (encode { name := session'.sentName : SetNameMsg })] := by
        simp [NetClientModel.send, hconnected, hpeer]
      rw [hsends]
      refine ⟨by rw [hnet, h.hasPeer], fun _ => ?_, fun hconnecting => ?_, ?_, fun _ => ?_, ?_⟩
      · exact signed_concat (by rw [h.signed hconnected]; rintro ⟨⟩)
      · rw [hnet, hconnected] at hconnecting
        cases hconnecting
      · intro packet hpacket hchannel
        rcases List.mem_append.mp hpacket with hold | hnew
        · exact h.states packet hold hchannel
        · rw [List.mem_singleton.mp hnew] at hchannel
          cases hchannel
      · rw [hid]
        exact h.known hconnected
      · intro hnot
        exact absurd (hnet ▸ hconnected) hnot
  | hear bytes reading hconnected => exact speaks_hear h bytes reading hconnected
  | opened playerName hconnecting =>
      have hpeer : session.net.peer = true := by rw [h.hasPeer, hconnecting]; rfl
      have hsent := h.silent hconnecting
      subst hsent
      simp only [onConnected, requests, NetClientModel.send, hpeer]
      refine ⟨rfl, fun _ => signed_hello _ _, by rintro ⟨⟩, fun packet hpacket hchannel => ?_,
        fun _ => ?_, fun hnot => absurd rfl hnot⟩
      · rw [List.mem_singleton.mp hpacket] at hchannel
        cases hchannel
      · exact h.blank (by rw [hconnecting]; rintro ⟨⟩)
  | lost => exact speaks_closed h rfl rfl rfl
  | closed =>
      have hactions : ((resetNet session : Result D).andThen onDisconnected).2.foldl posted sent = sent ∧
          (remoteOps ((resetNet session : Result D).andThen onDisconnected).2).foldl renamed names =
            fun _ => none := by
        simp only [Result.andThen, resetNet, requests, NetClientModel.reset]
        split
        · split <;> exact ⟨rfl, rfl⟩
        · exact ⟨rfl, rfl⟩
      rw [hactions.1, hactions.2]
      exact speaks_closed h rfl rfl rfl
  | dialled manual dial now host port hstate => exact speaks_dialled h manual dial now host port hstate

theorem Speaks.turns {events : List (NetEvent D)} {result : Result D}
    (hturns : Turns session events result) (h : Speaks sent got names session) :
    Speaks (result.2.foldl posted sent) (events.foldl taken got)
      ((remoteOps result.2).foldl renamed names) result.1 := by
  induction hturns generalizing sent got names with
  | done => exact h
  | turn hturn _ ih =>
      have hafter := ih (h.turn hturn)
      rw [List.foldl_append, List.foldl_append]
      rwa [remoteOps, List.filterMap_append, List.foldl_append]

end Steps

section Runs

variable [CppFloat F32] [CppFloat D] [Libm F32] [Narrow D F32] [Widen F32 D]

def eventsOf (inputs : List (Input D)) : List (NetEvent D) :=
  inputs.flatMap fun input => netEvents input.event

/-- After any run a client is in step with its conversation. -/
theorem speaks_after {config : Config} {gameVersion : UInt32} {enetReady : Bool}
    {inputs : List (Input D)}
    (henet : (Watched.after config gameVersion enetReady inputs).enet ≠ none) :
    let watched := Watched.after config gameVersion enetReady inputs
    Speaks (watched.history.foldl posted []) ((eventsOf inputs).foldl taken [])
      (names watched.client.scene) watched.client.session := by
  induction inputs using List.reverseRecOn with
  | nil =>
      refine ⟨rfl, by rintro ⟨⟩, by rintro ⟨⟩, by rintro _ ⟨⟩, by rintro ⟨⟩, fun _ => ?_⟩
      change (invalidPlayerId, names (Client.initial config gameVersion enetReady : Client D).scene) =
        stranger
      rw [Client.initial, names_run, map_snd_ordered]
      rfl
  | append_singleton inputs input ih =>
      obtain ⟨before, after, account, hbefore, hsound, hraise⟩ := sound_before henet
      rw [Watched.after, run_concat, ← Watched.after]
      have hspeaks := (ih (by rw [hbefore]; rintro ⟨⟩)).turns (turns_step hsound hraise)
      rw [eventsOf, List.flatMap_append, List.foldl_append, ← eventsOf]
      simp only [Watched.step, Client.step, Client.performs, List.foldl_append, names_run,
        map_snd_ordered, List.flatMap_singleton]
      exact hspeaks

end Runs

end F4MP.SentNames
