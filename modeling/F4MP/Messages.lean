import F4MP.ProtocolFormat

/-!
The messages of the protocol taken together: what decoding returns, and that the
decoder accepts encodings and nothing else.
-/

namespace F4MP.Messages

open F4MP.Types
open F4MP.Packet
open F4MP.Protocol
open F4MP.ProtocolFormat
open F4MP.Library.WireFormat

/-- A message of any of the eleven types. -/
inductive Message where
  | hello (m : HelloMsg)
  | playerState (m : PlayerStateMsg)
  | chat (m : ChatMsg)
  | setName (m : SetNameMsg)
  | welcome (m : WelcomeMsg)
  | reject (m : RejectMsg)
  | playerJoined (m : PlayerJoinedMsg)
  | playerLeft (m : PlayerLeftMsg)
  | playerStateUpdate (m : PlayerStateUpdateMsg)
  | chatBroadcast (m : ChatBroadcastMsg)
  | playerRenamed (m : PlayerRenamedMsg)
deriving DecidableEq, Repr

namespace Message

def id : Message → MsgId
  | hello _ => .kHello
  | playerState _ => .kPlayerState
  | chat _ => .kChat
  | setName _ => .kSetName
  | welcome _ => .kWelcome
  | reject _ => .kReject
  | playerJoined _ => .kPlayerJoined
  | playerLeft _ => .kPlayerLeft
  | playerStateUpdate _ => .kPlayerStateUpdate
  | chatBroadcast _ => .kChatBroadcast
  | playerRenamed _ => .kPlayerRenamed

def encode : Message → Bytes
  | hello m => Protocol.encode m
  | playerState m => Protocol.encode m
  | chat m => Protocol.encode m
  | setName m => Protocol.encode m
  | welcome m => Protocol.encode m
  | reject m => Protocol.encode m
  | playerJoined m => Protocol.encode m
  | playerLeft m => Protocol.encode m
  | playerStateUpdate m => Protocol.encode m
  | chatBroadcast m => Protocol.encode m
  | playerRenamed m => Protocol.encode m

/-- The message with each of its strings changed by `f`. -/
def mapStrings (f : Bytes → Bytes) : Message → Message
  | hello m => hello { m with name := f m.name }
  | playerState m => playerState m
  | chat m => chat { text := f m.text }
  | setName m => setName { name := f m.name }
  | welcome m => welcome { m with serverName := f m.serverName, motd := f m.motd }
  | reject m => reject { reason := f m.reason }
  | playerJoined m => playerJoined { m with name := f m.name }
  | playerLeft m => playerLeft m
  | playerStateUpdate m => playerStateUpdate m
  | chatBroadcast m => chatBroadcast { m with text := f m.text }
  | playerRenamed m => playerRenamed { m with name := f m.name }

/-- Each string cut to its first `maxStringBytes` bytes. -/
def cut (m : Message) : Message := m.mapStrings (·.take maxStringBytes)

def strings : Message → List Bytes
  | hello m => [m.name]
  | playerState _ => []
  | chat m => [m.text]
  | setName m => [m.name]
  | welcome m => [m.serverName, m.motd]
  | reject m => [m.reason]
  | playerJoined m => [m.name]
  | playerLeft _ => []
  | playerStateUpdate _ => []
  | chatBroadcast m => [m.text]
  | playerRenamed m => [m.name]

/-- No string of the message is longer than the wire carries. -/
def StringsFit (m : Message) : Prop := ∀ s ∈ m.strings, s.length ≤ maxStringBytes

theorem mapStrings_congr {f g : Bytes → Bytes} {m : Message}
    (h : ∀ s ∈ m.strings, f s = g s) : m.mapStrings f = m.mapStrings g := by
  cases m <;> simp_all [strings, mapStrings]

theorem mapStrings_self (m : Message) : (m.mapStrings fun s => s) = m := by
  cases m <;> rfl

theorem cut_of_stringsFit {m : Message} (h : m.StringsFit) : m.cut = m :=
  (mapStrings_congr fun s hs => List.take_of_length_le (h s hs)).trans m.mapStrings_self

end Message

def readAs {T : Type} [WireMessage T] (wrap : T → Message) : Read (Option Message) := do
  let m ← (WireMessage.read : Read T)
  return some (wrap m)

/-- The `Read` that goes with an id byte; there is none for an unknown id. -/
def readBody : MsgId → Read (Option Message)
  | .kHello => readAs .hello
  | .kPlayerState => readAs .playerState
  | .kChat => readAs .chat
  | .kSetName => readAs .setName
  | .kWelcome => readAs .welcome
  | .kReject => readAs .reject
  | .kPlayerJoined => readAs .playerJoined
  | .kPlayerLeft => readAs .playerLeft
  | .kPlayerStateUpdate => readAs .playerStateUpdate
  | .kChatBroadcast => readAs .chatBroadcast
  | .kPlayerRenamed => readAs .playerRenamed
  | .other _ => return none

/-- What a packet says: header and body both read successfully. -/
def decode (bytes : Bytes) : Option Message :=
  let (id, r) := readHeader { data := bytes }
  if r.ok then
    let (m, r) := readBody id r
    if r.ok then m else none
  else none

section OneType

variable {T : Type} [FormattedMessage T]

def payload (bytes : Bytes) : Reader := { data := bytes, pos := 1 }

@[simp] theorem payload_ok (bytes : Bytes) : (payload bytes).ok = true := rfl

theorem encode_eq (m : T) :
    encode m = (WireMessage.id T).code :: FormattedMessage.format.print m :=
  FormattedMessage.writes _ m

@[simp] theorem readHeader_cons (code : UInt8) (body : Bytes) :
    readHeader { data := code :: body } = (MsgId.ofCode code, payload (code :: body)) := by
  have hle : 1 ≤ ({ data := code :: body } : Reader).remaining := by simp [Reader.remaining]
  have hraw := Reader.raw_eq { data := code :: body } 1 rfl hle
  simp [readHeader, Reader.u8, hraw, Reader.unread, payload, Library.LittleEndian.leValue]

theorem readHeader_nil : (readHeader { data := [] }).2.ok = false := rfl

theorem read_encode (m : T) (rest : Bytes) :
    let found := (WireMessage.read : Read T) (payload (encode m ++ rest))
    found.1 = FormattedMessage.format.norm m ∧ found.2.ok = true ∧ found.2.unread = rest := by
  apply (FormattedMessage.reads (T := T)).accepts rfl
  rw [encode_eq]
  exact FormattedMessage.format.parse_print m rest

theorem encode_of_read {body : Bytes} {m : T} {r : Reader}
    (hread : (WireMessage.read : Read T) (payload ((WireMessage.id T).code :: body)) = (m, r))
    (hok : r.ok = true) : ((WireMessage.id T).code :: body).take r.pos = encode m := by
  have hreads := FormattedMessage.reads (T := T)
  have hdata : r.data = (WireMessage.id T).code :: body := by
    have hkept := hreads.data_eq (payload ((WireMessage.id T).code :: body))
    rwa [hread] at hkept
  cases hparse : (FormattedMessage.format : Format UInt8 T).parse body with
  | none =>
      have hfail := hreads.refuses (r := payload ((WireMessage.id T).code :: body)) rfl hparse
      rw [hread] at hfail
      exact absurd hok (Bool.eq_false_iff.mp hfail)
  | some found =>
      obtain ⟨value, rest⟩ := found
      obtain ⟨hvalue, -, hrest⟩ :=
        hreads.accepts (r := payload ((WireMessage.id T).code :: body)) rfl hparse
      rw [hread] at hvalue hrest
      rw [Reader.unread, hdata] at hrest
      refine List.append_cancel_right (?_ : _ ++ rest = _ ++ rest)
      calc
        ((WireMessage.id T).code :: body).take r.pos ++ rest
            = (WireMessage.id T).code :: body := by rw [← hrest, List.take_append_drop]
        _ = encode m ++ rest := by
          rw [encode_eq, List.cons_append, show m = value from hvalue,
            ← FormattedMessage.format.print_of_parse hparse]

theorem read_strictPrefix (m : T) {body rest : Bytes}
    (hsplit : FormattedMessage.format.print m = body ++ rest) (hrest : rest ≠ []) :
    ((WireMessage.read : Read T) (payload ((WireMessage.id T).code :: body))).2.ok = false := by
  apply (FormattedMessage.reads (T := T)).refuses rfl
  exact Format.parse_eq_none_of_strictPrefix _ hsplit hrest

end OneType

/-- How one type sits in the sum: its id selects its `Read`, and its strings are
cut as its format cuts them. -/
structure Summand (T : Type) [FormattedMessage T] (wrap : T → Message) : Prop where
  id_eq : ∀ m, (wrap m).id = WireMessage.id T
  ofCode_code : MsgId.ofCode (WireMessage.id T).code = WireMessage.id T
  readBody_eq : readBody (WireMessage.id T) = readAs wrap
  encode_eq : ∀ m, (wrap m).encode = Protocol.encode m
  cut_eq : ∀ m, (wrap m).cut = wrap (FormattedMessage.format.norm m)

theorem hello_summand : Summand HelloMsg .hello :=
  ⟨fun _ => rfl, rfl, rfl, fun _ => rfl, fun _ => rfl⟩
theorem playerState_summand : Summand PlayerStateMsg .playerState :=
  ⟨fun _ => rfl, rfl, rfl, fun _ => rfl, fun _ => rfl⟩
theorem chat_summand : Summand ChatMsg .chat :=
  ⟨fun _ => rfl, rfl, rfl, fun _ => rfl, fun _ => rfl⟩
theorem setName_summand : Summand SetNameMsg .setName :=
  ⟨fun _ => rfl, rfl, rfl, fun _ => rfl, fun _ => rfl⟩
theorem welcome_summand : Summand WelcomeMsg .welcome :=
  ⟨fun _ => rfl, rfl, rfl, fun _ => rfl, fun _ => rfl⟩
theorem reject_summand : Summand RejectMsg .reject :=
  ⟨fun _ => rfl, rfl, rfl, fun _ => rfl, fun _ => rfl⟩
theorem playerJoined_summand : Summand PlayerJoinedMsg .playerJoined :=
  ⟨fun _ => rfl, rfl, rfl, fun _ => rfl, fun _ => rfl⟩
theorem playerLeft_summand : Summand PlayerLeftMsg .playerLeft :=
  ⟨fun _ => rfl, rfl, rfl, fun _ => rfl, fun _ => rfl⟩
theorem playerStateUpdate_summand : Summand PlayerStateUpdateMsg .playerStateUpdate :=
  ⟨fun _ => rfl, rfl, rfl, fun _ => rfl, fun _ => rfl⟩
theorem chatBroadcast_summand : Summand ChatBroadcastMsg .chatBroadcast :=
  ⟨fun _ => rfl, rfl, rfl, fun _ => rfl, fun _ => rfl⟩
theorem playerRenamed_summand : Summand PlayerRenamedMsg .playerRenamed :=
  ⟨fun _ => rfl, rfl, rfl, fun _ => rfl, fun _ => rfl⟩

/-- What holds of every summand holds of every message. -/
theorem Message.summand_cases {P : Message → Prop}
    (h : ∀ (T : Type) [FormattedMessage T] (wrap : T → Message), Summand T wrap →
      ∀ m, P (wrap m)) (m : Message) : P m := by
  cases m with
  | hello m => exact h _ _ hello_summand m
  | playerState m => exact h _ _ playerState_summand m
  | chat m => exact h _ _ chat_summand m
  | setName m => exact h _ _ setName_summand m
  | welcome m => exact h _ _ welcome_summand m
  | reject m => exact h _ _ reject_summand m
  | playerJoined m => exact h _ _ playerJoined_summand m
  | playerLeft m => exact h _ _ playerLeft_summand m
  | playerStateUpdate m => exact h _ _ playerStateUpdate_summand m
  | chatBroadcast m => exact h _ _ chatBroadcast_summand m
  | playerRenamed m => exact h _ _ playerRenamed_summand m

/-- What holds of every summand's id holds of every id with a `Read`. -/
theorem readBody_cases {P : MsgId → Prop}
    (h : ∀ (T : Type) [FormattedMessage T] (wrap : T → Message), Summand T wrap →
      P (WireMessage.id T)) (hother : ∀ code, P (.other code)) (id : MsgId) : P id := by
  cases id with
  | kHello => exact h _ _ hello_summand
  | kPlayerState => exact h _ _ playerState_summand
  | kChat => exact h _ _ chat_summand
  | kSetName => exact h _ _ setName_summand
  | kWelcome => exact h _ _ welcome_summand
  | kReject => exact h _ _ reject_summand
  | kPlayerJoined => exact h _ _ playerJoined_summand
  | kPlayerLeft => exact h _ _ playerLeft_summand
  | kPlayerStateUpdate => exact h _ _ playerStateUpdate_summand
  | kChatBroadcast => exact h _ _ chatBroadcast_summand
  | kPlayerRenamed => exact h _ _ playerRenamed_summand
  | other code => exact hother code

theorem readHeader_encode (m : Message) (rest : Bytes) :
    readHeader { data := m.encode ++ rest } = (m.id, payload (m.encode ++ rest)) := by
  induction m using Message.summand_cases with
  | h T wrap hsum m =>
      rw [hsum.encode_eq, hsum.id_eq, encode_eq, List.cons_append, readHeader_cons,
        hsum.ofCode_code]

theorem readBody_encode (m : Message) (rest : Bytes) :
    let found := readBody m.id (payload (m.encode ++ rest))
    found.1 = some m.cut ∧ found.2.ok = true ∧ found.2.unread = rest := by
  induction m using Message.summand_cases with
  | h T wrap hsum m =>
      obtain ⟨hvalue, hok, hunread⟩ := read_encode m rest
      rw [hsum.encode_eq, hsum.id_eq, hsum.readBody_eq, hsum.cut_eq]
      exact ⟨congrArg (fun value => some (wrap value)) hvalue, hok, hunread⟩

/-- Reading back an encoding, whatever follows it, gives the message with its
strings cut, and nothing else encodes to the same bytes. -/
theorem decode_undoes_encode :
    (∀ (m : Message) (rest : Bytes),
      let header := readHeader { data := m.encode ++ rest }
      let body := readBody header.1 header.2
      header.1 = m.id ∧ header.2.ok = true ∧
        body.1 = some m.cut ∧ body.2.ok = true ∧ body.2.unread = rest) ∧
    (∀ m m' : Message, m.StringsFit → m'.StringsFit → m.encode = m'.encode → m = m') := by
  constructor
  · intro m rest
    rw [readHeader_encode]
    exact ⟨rfl, rfl, readBody_encode m rest⟩
  · intro m m' hfit hfit' hencode
    have hheader := readHeader_encode m []
    rw [hencode, readHeader_encode m' []] at hheader
    have hid : m'.id = m.id := congrArg Prod.fst hheader
    have hbody := (readBody_encode m []).1
    rw [hencode, ← hid, (readBody_encode m' []).1] at hbody
    rw [← Message.cut_of_stringsFit hfit, ← Message.cut_of_stringsFit hfit']
    exact (Option.some.inj hbody).symm

theorem encode_of_readBody (id : MsgId) : ∀ {body : Bytes} {m : Message},
    (readBody id (payload (id.code :: body))).1 = some m →
    (readBody id (payload (id.code :: body))).2.ok = true →
    (id.code :: body).take (readBody id (payload (id.code :: body))).2.pos = m.encode := by
  induction id using readBody_cases with
  | h T wrap hsum =>
      intro body m hbody hok
      rw [hsum.readBody_eq] at hbody hok ⊢
      rw [← Option.some.inj hbody, hsum.encode_eq]
      exact encode_of_read rfl hok
  | hother code =>
      intro body m hbody
      cases hbody

theorem readBody_strictPrefix (m : Message) {body rest : Bytes}
    (hsplit : m.encode = m.id.code :: body ++ rest) (hrest : rest ≠ []) :
    (readBody m.id (payload (m.id.code :: body))).2.ok = false := by
  induction m using Message.summand_cases with
  | h T wrap hsum m =>
      rw [hsum.encode_eq, encode_eq, hsum.id_eq] at hsplit
      rw [hsum.id_eq, hsum.readBody_eq]
      exact read_strictPrefix m (List.cons.inj hsplit).2 hrest

/-- What is read successfully was encoded: the bytes consumed are the encoding of
the message returned, so equal messages consumed equal bytes, and an encoding that
is cut short anywhere is refused. -/
theorem decoder_accepts_exactly_encodings :
    (∀ (bytes : Bytes) (m : Message),
      let header := readHeader { data := bytes }
      let body := readBody header.1 header.2
      header.2.ok = true → body.1 = some m → body.2.ok = true →
        bytes.take body.2.pos = m.encode) ∧
    (∀ (m : Message) (input rest : Bytes), m.encode = input ++ rest → rest ≠ [] →
      let header := readHeader { data := input }
      header.2.ok = false ∨ (readBody m.id header.2).2.ok = false) := by
  constructor
  · intro bytes m header body hheader hbody hok
    cases bytes with
    | nil => exact absurd hheader (by decide)
    | cons code rest =>
        simp only [body, header, readHeader_cons] at hbody hok ⊢
        have hread := @encode_of_readBody (MsgId.ofCode code) rest m
        rw [MsgId.code_ofCode] at hread
        exact hread hbody hok
  · intro m input rest hsplit hrest
    cases input with
    | nil => exact .inl rfl
    | cons code body =>
        refine .inr ?_
        have hheader := readHeader_encode m []
        rw [List.append_nil, hsplit, List.cons_append, readHeader_cons] at hheader
        have hid : MsgId.ofCode code = m.id := congrArg Prod.fst hheader
        have hcode : code = m.id.code := by rw [← hid, MsgId.code_ofCode]
        subst hcode
        rw [readHeader_cons]
        exact readBody_strictPrefix m hsplit hrest

theorem decode_encode (m : Message) : decode m.encode = some m.cut := by
  have hheader := readHeader_encode m []
  obtain ⟨hbody, hok, -⟩ := readBody_encode m []
  rw [List.append_nil] at hheader hbody hok
  simp [decode, hheader, hbody, hok]

theorem decode_of_header {T : Type} [FormattedMessage T] {wrap : T → Message}
    (hsum : Summand T wrap) {bytes : Bytes} {r : Reader}
    (hheader : readHeader { data := bytes } = (WireMessage.id T, r)) (hok : r.ok = true) :
    decode bytes =
      if ((WireMessage.read : Read T) r).2.ok then some (wrap ((WireMessage.read : Read T) r).1)
      else none := by
  simp only [decode, hheader, hok, hsum.readBody_eq, if_true]
  rfl

theorem decode_nil : decode [] = none := rfl

theorem id_of_readBody (id : MsgId) : ∀ {r : Reader} {m : Message},
    (readBody id r).1 = some m → m.id = id := by
  induction id using readBody_cases with
  | h T wrap hsum =>
      intro r m hbody
      rw [hsum.readBody_eq] at hbody
      rw [← Option.some.inj hbody, hsum.id_eq]
  | hother code =>
      intro r m hbody
      cases hbody

theorem header_of_decode {bytes : Bytes} {m : Message} (h : decode bytes = some m) :
    (readHeader { data := bytes }).1 = m.id ∧ (readHeader { data := bytes }).2.ok = true := by
  simp only [decode] at h
  split at h
  · rename_i hok
    split at h
    · exact ⟨(id_of_readBody _ h).symm, hok⟩
    · cases h
  · cases h

@[simp] theorem decode_hello (m : HelloMsg) :
    decode (encode m) = some (Message.hello m).cut :=
  decode_encode (.hello m)

@[simp] theorem decode_playerState (m : PlayerStateMsg) :
    decode (encode m) = some (.playerState m) :=
  decode_encode (.playerState m)

@[simp] theorem decode_chat (m : ChatMsg) : decode (encode m) = some (Message.chat m).cut :=
  decode_encode (.chat m)

@[simp] theorem decode_setName (m : SetNameMsg) :
    decode (encode m) = some (Message.setName m).cut :=
  decode_encode (.setName m)

@[simp] theorem decode_welcome (m : WelcomeMsg) :
    decode (encode m) = some (Message.welcome m).cut :=
  decode_encode (.welcome m)

@[simp] theorem decode_reject (m : RejectMsg) :
    decode (encode m) = some (Message.reject m).cut :=
  decode_encode (.reject m)

@[simp] theorem decode_playerJoined (m : PlayerJoinedMsg) :
    decode (encode m) = some (Message.playerJoined m).cut :=
  decode_encode (.playerJoined m)

@[simp] theorem decode_playerLeft (m : PlayerLeftMsg) :
    decode (encode m) = some (.playerLeft m) :=
  decode_encode (.playerLeft m)

@[simp] theorem decode_playerStateUpdate (m : PlayerStateUpdateMsg) :
    decode (encode m) = some (.playerStateUpdate m) :=
  decode_encode (.playerStateUpdate m)

@[simp] theorem decode_chatBroadcast (m : ChatBroadcastMsg) :
    decode (encode m) = some (Message.chatBroadcast m).cut :=
  decode_encode (.chatBroadcast m)

@[simp] theorem decode_playerRenamed (m : PlayerRenamedMsg) :
    decode (encode m) = some (Message.playerRenamed m).cut :=
  decode_encode (.playerRenamed m)

end F4MP.Messages
