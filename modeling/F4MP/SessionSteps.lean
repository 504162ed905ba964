import F4MP.SessionModel

/-!
What the functions of a session that neither open nor close a connection can do, said
once.
-/

namespace F4MP.SessionSteps

open F4MP.Types
open F4MP.Packet
open F4MP.Protocol
open F4MP.Messages
open F4MP.Arith
open F4MP.ServerModel (Time)
open F4MP.NetClientModel
open F4MP.RemotePlayersModel
open F4MP.SessionModel

variable {D : Type}

/-- Nothing but messages to the server and things asked of the players that leave the
connection be. -/
def Mild (actions : List (Action D)) : Prop :=
  ∀ action ∈ actions, (∃ channel bytes, action = .net (.send channel bytes)) ∨
    ∃ op, action = .remotes op ∧ op ≠ .clear

theorem mild_nil : Mild ([] : List (Action D)) := by
  rintro _ ⟨⟩

theorem Mild.append {actions more : List (Action D)} (h : Mild actions) (hmore : Mild more) :
    Mild (actions ++ more) := fun action haction =>
  (List.mem_append.mp haction).elim (h action) (hmore action)

theorem mild_tell (session : Session) {op : Op F32 D} (hop : op ≠ .clear) :
    Mild (tell session op).2 := fun _ haction =>
  .inr ⟨op, List.mem_singleton.mp haction, hop⟩

theorem mild_send (net : NetClient) (channel : Channel) (bytes : Bytes) :
    Mild ((send net channel bytes).map .net : List (Action D)) := by
  rw [send]
  split
  · exact mild_nil
  · exact fun action haction => .inl ⟨channel, bytes, List.mem_singleton.mp haction⟩

/-- What a packet can change of a session. -/
structure Heard (session session' : Session) : Prop where
  rest : session' =
    { session with
      myId := session'.myId
      serverName := session'.serverName
      welcomed := session'.welcomed
      sender := session'.sender }

theorem Heard.refl (session : Session) : Heard session session := ⟨rfl⟩

/-- What looking at the name can change of a session, and send. -/
theorem syncName_spec (session : Session) (playerName : Bytes) (now : Time) :
    (syncName session playerName now : Result D).1 =
        { session with
          sentName := (syncName session playerName now : Result D).1.sentName
          lastNameCheck := (syncName session playerName now : Result D).1.lastNameCheck } ∧
      Mild (syncName session playerName now : Result D).2 := by
  rw [syncName]
  split
  · exact ⟨rfl, mild_nil⟩
  · dsimp only
    split
    · exact ⟨rfl, mild_nil⟩
    · exact ⟨rfl, mild_send _ _ _⟩

section Steps

variable [CppFloat F32]

theorem sendState_spec (session : Session) (force : Bool) (sample : Option (PlayerState F32))
    (now : Time) :
    (sendState session force sample now : Result D).1 =
        { session with sender := (sendState session force sample now : Result D).1.sender } ∧
      Mild (sendState session force sample now : Result D).2 := by
  cases sample with
  | none => exact ⟨rfl, mild_nil⟩
  | some state =>
      simp only [sendState]
      split
      · exact ⟨rfl, mild_send _ _ _⟩
      · exact ⟨rfl, mild_nil⟩

def hear (session : Session) (reading : Reading D) : Message → Result D
  | .welcome m => handleWelcome session reading m
  | .playerJoined m => tellOfOther session m.id (.add m.id m.name)
  | .playerLeft m => tell session (.remove m.id)
  | .playerRenamed m => tellOfOther session m.id (.rename m.id m.name)
  | .playerStateUpdate m =>
      tellOfOther session m.id (.applyState m.id m.state m.timeMs reading.localMs)
  | _ => (session, [])

theorem handlePacket_eq (session : Session) (bytes : Bytes) (reading : Reading D) :
    handlePacket session bytes reading =
      (decode bytes).elim (session, []) (hear session reading) := by
  simp only [handlePacket]
  generalize hheader : readHeader { data := bytes } = header
  obtain ⟨id, r⟩ := header
  by_cases hok : r.ok = true
  swap
  · have hnone : decode bytes = none := by simp [decode, hheader, hok]
    rw [hnone]
    simp [hok]
  have hread : ∀ {T : Type} [WireMessage T] {wrap : T → Message} {handler : T → Result D},
      (∀ msg, hear session reading (wrap msg) = handler msg) →
      handleMsg session r handler =
        (if ((WireMessage.read : Read T) r).2.ok then
          some (wrap ((WireMessage.read : Read T) r).1) else none).elim (session, [])
            (hear session reading) := by
    intro T _ wrap handler hhandler
    rw [handleMsg]
    dsimp only
    split
    · exact (hhandler _).symm
    · rfl
  simp only [hok, Bool.not_true, Bool.false_eq_true, if_false]
  cases id with
  | kWelcome =>
      rw [decode_of_header welcome_summand hheader hok]
      exact hread fun _ => rfl
  | kPlayerJoined =>
      rw [decode_of_header playerJoined_summand hheader hok]
      exact hread fun _ => rfl
  | kPlayerLeft =>
      rw [decode_of_header playerLeft_summand hheader hok]
      exact hread fun _ => rfl
  | kPlayerRenamed =>
      rw [decode_of_header playerRenamed_summand hheader hok]
      exact hread fun _ => rfl
  | kPlayerStateUpdate =>
      rw [decode_of_header playerStateUpdate_summand hheader hok]
      exact hread fun _ => rfl
  | kHello =>
      rw [decode_of_header hello_summand hheader hok]
      cases ((WireMessage.read : Read HelloMsg) r).2.ok <;> rfl
  | kPlayerState =>
      rw [decode_of_header playerState_summand hheader hok]
      cases ((WireMessage.read : Read PlayerStateMsg) r).2.ok <;> rfl
  | kChat =>
      rw [decode_of_header chat_summand hheader hok]
      cases ((WireMessage.read : Read ChatMsg) r).2.ok <;> rfl
  | kSetName =>
      rw [decode_of_header setName_summand hheader hok]
      cases ((WireMessage.read : Read SetNameMsg) r).2.ok <;> rfl
  | kReject =>
      rw [decode_of_header reject_summand hheader hok]
      cases ((WireMessage.read : Read RejectMsg) r).2.ok <;> rfl
  | kChatBroadcast =>
      rw [decode_of_header chatBroadcast_summand hheader hok]
      cases ((WireMessage.read : Read ChatBroadcastMsg) r).2.ok <;> rfl
  | other code =>
      have hnone : decode bytes = none := by simp [decode, hheader, hok, readBody, pure]
      rw [hnone]
      rfl

theorem hear_spec (session : Session) (reading : Reading D) (m : Message) :
    Heard session (hear session reading m).1 ∧ Mild (hear session reading m).2 := by
  have hother : ∀ (id : PlayerId) {op : Op F32 D}, op ≠ .clear →
      Heard session (tellOfOther session id op).1 ∧ Mild (tellOfOther session id op).2 := by
    intro id op hop
    rw [tellOfOther]
    split
    · exact ⟨.refl session, mild_tell session hop⟩
    · exact ⟨.refl session, mild_nil⟩
  cases m with
  | welcome msg =>
      obtain ⟨hrest, hmild⟩ := sendState_spec
        { session with myId := msg.id, serverName := msg.serverName, welcomed := true }
        true reading.sample reading.now (D := D)
      refine ⟨⟨?_⟩, hmild⟩
      rw [hear, handleWelcome, hrest]
  | playerJoined | playerRenamed | playerStateUpdate => exact hother _ (by rintro ⟨⟩)
  | playerLeft => exact ⟨.refl session, mild_tell session (by rintro ⟨⟩)⟩
  | reject | chatBroadcast | hello | playerState | chat | setName => exact ⟨.refl session, mild_nil⟩

theorem handlePacket_spec (session : Session) (bytes : Bytes) (reading : Reading D) :
    Heard session (handlePacket session bytes reading).1 ∧
      Mild (handlePacket session bytes reading).2 := by
  rw [handlePacket_eq]
  cases decode bytes with
  | none => exact ⟨.refl session, mild_nil⟩
  | some m => exact hear_spec session reading m

/-- What a client that is connected does in a frame. -/
def play (input : TickInput D) (session : Session) : Result D :=
  if isConnected session then
    ((sendState session false input.sample input.sendNow).andThen fun session =>
      syncName session input.playerName input.nameNow).andThen fun session =>
        tell session (.update input.update)
  else (session, [])

theorem tick_eq (session : Session) (input : TickInput D) :
    tick session input = (pump session input.events input.pumpNow).andThen fun session =>
      if !session.inWorld then (session, [])
      else (autoConnect session input.dial input.reconnectNow).andThen (play input) := rfl

theorem play_spec (session : Session) (input : TickInput D) :
    ((play input session).1 =
        { session with
          sender := (play input session).1.sender
          sentName := (play input session).1.sentName
          lastNameCheck := (play input session).1.lastNameCheck }) ∧
      Mild (play input session).2 := by
  rw [play]
  split
  · obtain ⟨hsender, hstate⟩ := sendState_spec (D := D) session false input.sample input.sendNow
    obtain ⟨hname, hmild⟩ := syncName_spec (D := D)
      (sendState session false input.sample input.sendNow : Result D).1 input.playerName
      input.nameNow
    refine ⟨?_, (hstate.append hmild).append (mild_tell _ (by rintro ⟨⟩))⟩
    generalize (sendState session false input.sample input.sendNow : Result D) = sent at hsender hname
    dsimp only [Result.andThen, SessionModel.tell]
    rw [hname, hsender]
  · exact ⟨rfl, mild_nil⟩

end Steps

end F4MP.SessionSteps
