import F4MP.RemoteNames

/-!
What a session prints.  A line handed to `Print` goes to the log, and to the console
of the game unless its messages are turned off there.
-/

namespace F4MP.Printing

open F4MP.Types
open F4MP.Packet
open F4MP.Protocol
open F4MP.Messages
open F4MP.Arith
open F4MP.RemotePlayersModel
open F4MP.SessionModel
open F4MP.SessionSteps
open F4MP.Roster (Names)
open F4MP.RemoteNames

/-- `std::to_string` of an id. -/
def idText (id : PlayerId) : Bytes := ascii (toString id)

/-- `RemotePlayers::NameOf`, by the names of the players listed. -/
def nameOf (names : Names) (id : PlayerId) : Bytes := (names id).getD (placeholderName id)

def printWelcome (msg : WelcomeMsg) : List Bytes :=
  (ascii "[F4MP] Connected to " ++ msg.serverName ++ ascii " as player #" ++ idText msg.id) ::
    if msg.motd.isEmpty then [] else [ascii "[F4MP] " ++ msg.motd]

def printReject (msg : RejectMsg) : List Bytes := [ascii "[F4MP] Rejected: " ++ msg.reason]

def printRenamed (myId : PlayerId) (names : Names) (msg : PlayerRenamedMsg) : List Bytes :=
  if msg.id = myId then [ascii "[F4MP] You are now known as " ++ msg.name]
  else [ascii "[F4MP] " ++ nameOf names msg.id ++ ascii " is now known as " ++ msg.name]

def printChat (myId : PlayerId) (names : Names) (msg : ChatBroadcastMsg) : List Bytes :=
  if msg.sender = serverId then [ascii "[Server] " ++ msg.text]
  else
    let name := if msg.sender = myId then ascii "You" else nameOf names msg.sender
    [name ++ ascii ": " ++ msg.text]

/-- The lines for a read message, none if the packet was malformed. -/
def printMsg {T : Type} [WireMessage T] (r : Reader) (lines : T → List Bytes) : List Bytes :=
  let (msg, r) := (WireMessage.read : Read T) r
  if r.ok then lines msg else []

/-- What `HandlePacket` prints, while the client has the id and the names. -/
def printPacket (myId : PlayerId) (names : Names) (bytes : Bytes) : List Bytes :=
  let (id, r) := readHeader { data := bytes }
  if !r.ok then []
  else
    match id with
    | .kWelcome => printMsg r printWelcome
    | .kReject => printMsg r printReject
    | .kPlayerRenamed => printMsg r (printRenamed myId names)
    | .kChatBroadcast => printMsg r (printChat myId names)
    | _ => []

def linesOf (myId : PlayerId) (names : Names) : Message → List Bytes
  | .welcome m => printWelcome m
  | .reject m => printReject m
  | .playerRenamed m => printRenamed myId names m
  | .chatBroadcast m => printChat myId names m
  | _ => []

theorem printPacket_eq (myId : PlayerId) (names : Names) (bytes : Bytes) :
    printPacket myId names bytes = (decode bytes).elim [] (linesOf myId names) := by
  simp only [printPacket]
  generalize hheader : readHeader { data := bytes } = header
  obtain ⟨id, r⟩ := header
  by_cases hok : r.ok = true
  swap
  · have hnone : decode bytes = none := by simp [decode, hheader, hok]
    rw [hnone]
    simp [hok]
  have hread : ∀ {T : Type} [WireMessage T] {wrap : T → Message} {lines : T → List Bytes},
      (∀ msg, linesOf myId names (wrap msg) = lines msg) →
      printMsg r lines =
        (if ((WireMessage.read : Read T) r).2.ok then
          some (wrap ((WireMessage.read : Read T) r).1) else none).elim []
            (linesOf myId names) := by
    intro T _ wrap lines hlines
    rw [printMsg]
    dsimp only
    split
    · exact (hlines _).symm
    · rfl
  simp only [hok, Bool.not_true, Bool.false_eq_true, if_false]
  cases id with
  | kWelcome =>
      rw [decode_of_header welcome_summand hheader hok]
      exact hread fun _ => rfl
  | kReject =>
      rw [decode_of_header reject_summand hheader hok]
      exact hread fun _ => rfl
  | kPlayerRenamed =>
      rw [decode_of_header playerRenamed_summand hheader hok]
      exact hread fun _ => rfl
  | kChatBroadcast =>
      rw [decode_of_header chatBroadcast_summand hheader hok]
      exact hread fun _ => rfl
  | kPlayerJoined =>
      rw [decode_of_header playerJoined_summand hheader hok]
      cases ((WireMessage.read : Read PlayerJoinedMsg) r).2.ok <;> rfl
  | kPlayerLeft =>
      rw [decode_of_header playerLeft_summand hheader hok]
      cases ((WireMessage.read : Read PlayerLeftMsg) r).2.ok <;> rfl
  | kPlayerStateUpdate =>
      rw [decode_of_header playerStateUpdate_summand hheader hok]
      cases ((WireMessage.read : Read PlayerStateUpdateMsg) r).2.ok <;> rfl
  | kHello =>
      rw [decode_of_header hello_summand hheader hok]
      cases ((WireMessage.read : Read HelloMsg) r).2.ok <;> rfl
  | kPlayerState =>
      rw [decode_of_header playerState_summand hheader hok]
      cases ((WireMessage.read : Read PlayerStateMsg) r).2.ok <;> rfl
  | kChat =>
      rw [decode_of_header chat_summand hheader hok]
      cases ((WireMessage.read : Read ChatMsg) r).2.ok <;> rfl
  | kSetName =>
      rw [decode_of_header setName_summand hheader hok]
      cases ((WireMessage.read : Read SetNameMsg) r).2.ok <;> rfl
  | other code =>
      have hnone : decode bytes = none := by simp [decode, hheader, hok, readBody, pure]
      rw [hnone]
      rfl

end F4MP.Printing
