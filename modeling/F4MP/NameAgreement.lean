import F4MP.FreshIds
import F4MP.SentNames

/-!
Clients and the server agree on names when nothing reliable is under way between them,
as long as no two in the game have the same id.
-/

namespace F4MP.NameAgreement

open F4MP.Types
open F4MP.Packet
open F4MP.Protocol
open F4MP.Messages
open F4MP.Arith
open F4MP.ServerModel
open F4MP.ServerConsole
open F4MP.ServerRun
open F4MP.ServerTraffic
open F4MP.ServerEffects
open F4MP.Handshake
open F4MP.Participants
open F4MP.Roster
open F4MP.Chronicle
open F4MP.Records
open F4MP.RemotePlayersModel
open F4MP.SessionModel (Session)
open F4MP.Connection
open F4MP.Delivery
open F4MP.RemoteNames
open F4MP.SentNames
open F4MP.Library.HashTable
open F4MP.Library.Runs

theorem mem_reliable {log : List Sent} {sent : Sent} :
    sent ∈ reliable log ↔ sent ∈ log ∧ sent.channel = .kReliable := by
  simp [reliable]

theorem heard_eq (log : List Sent) : heard log = (reliable log).filterMap fun sent => decode sent.bytes :=
  rfl

theorem signedBy_reliable {log : List Sent}
    (h : ∀ sent ∈ log, sent.channel = .kUnreliable → IsState sent) :
    signedBy (reliable log) = signedBy log := by
  induction log using List.reverseRecOn with
  | nil => rfl
  | append_singleton log sent ih =>
      have hbefore := ih fun other hother => h other (List.mem_append_left _ hother)
      rw [reliable, List.filter_append, signedBy_concat]
      cases hchannel : sent.channel with
      | kReliable =>
          rw [List.filter_cons_of_pos (by simp [hchannel]), List.filter_nil, signedBy_concat]
          exact congrArg (sign · sent.bytes) hbefore
      | kUnreliable =>
          obtain ⟨msg, hdecode⟩ := h sent (by simp) hchannel
          rw [List.filter_cons_of_neg (by simp [hchannel]), List.filter_nil, List.append_nil, sign,
            hdecode]
          exact hbefore

/-- A client that knows its id has everyone of a list under the name listed. -/
structure Knows (own : PlayerId) (roster : Names) (known : PlayerId × Names) : Prop where
  id_eq : known.1 = own
  names : ∀ id, id ≠ own → ∀ name, roster id = some name → known.2 id = some name

theorem Knows.heed {self : PlayerId} {roster : Names} {known : PlayerId × Names}
    (h : Knows self roster known) {m : Message} (hwelcome : m.id ≠ .kWelcome) :
    Knows self (hear self roster m) (SentNames.heed known m) := by
  obtain ⟨id, names⟩ := known
  obtain ⟨rfl, hnames⟩ := h
  dsimp only at hnames
  -- a name that is set
  have hset : ∀ (other : PlayerId) (name : Bytes) (roster' : Names),
      (∀ c, c ≠ other → roster' c = roster c) → (∀ shown, roster' other = some shown → shown = name) →
      ∀ c, c ≠ id → ∀ shown, roster' c = some shown →
        Function.update names other (some name) c = some shown := by
    intro other name roster' hothers hown c hc shown hshown
    rw [Function.update_apply]
    split
    · rename_i heq
      rw [heq] at hshown
      rw [hown shown hshown]
    · rename_i hne
      rw [hothers c hne] at hshown
      exact hnames c hc shown hshown
  cases m with
  | welcome m => exact absurd rfl hwelcome
  | playerJoined m =>
      dsimp only [SentNames.heed, hear]
      split
      · refine ⟨rfl, hset m.id m.name _ ?_ fun shown hshown => ?_⟩
        · exact fun c hc => Function.update_of_ne hc _ _
        · rw [Function.update_self] at hshown
          exact (Option.some.inj hshown).symm
      · rename_i hown
        refine ⟨rfl, fun c hc shown hshown => ?_⟩
        rw [Function.update_of_ne (by rw [not_not.mp hown]; exact hc)] at hshown
        exact hnames c hc shown hshown
  | playerRenamed m =>
      dsimp only [SentNames.heed, hear]
      by_cases hown : m.id = id
      · rw [if_neg (not_not_intro hown), if_pos hown]
        exact ⟨rfl, hnames⟩
      · rw [if_pos hown, if_neg hown]
        refine ⟨rfl, hset m.id m.name _ ?_ fun shown hshown => ?_⟩
        · exact fun c hc => Function.update_of_ne hc _ _
        · rw [Function.update_self] at hshown
          obtain ⟨_, -, rfl⟩ := Option.map_eq_some_iff.mp hshown
          rfl
  | playerLeft m =>
      refine ⟨rfl, fun c hc shown hshown => ?_⟩
      dsimp only [SentNames.heed, hear] at hshown ⊢
      rw [Function.update_apply] at hshown ⊢
      split
      · rename_i heq
        rw [if_pos heq] at hshown
        cases hshown
      · rename_i hne
        rw [if_neg hne] at hshown
        exact hnames c hc shown hshown
  | playerStateUpdate m =>
      dsimp only [SentNames.heed, hear]
      split
      · refine ⟨rfl, fun c hc shown hshown => ?_⟩
        have hknown := hnames c hc shown hshown
        dsimp only
        rw [Function.update_apply]
        split
        · rename_i heq
          rw [← heq, hknown]
          rfl
        · exact hknown
      · exact ⟨rfl, hnames⟩
  | reject | chatBroadcast | hello | playerState | chat | setName => exact ⟨rfl, hnames⟩

theorem Knows.learn {self : PlayerId} {roster : Names} {known : PlayerId × Names}
    (h : Knows self roster known) {packets : List Sent}
    (hstates : ∀ sent ∈ packets, sent.channel = .kUnreliable → kind sent = some .kPlayerStateUpdate)
    (hwelcome : ∀ sent ∈ packets, ¬ IsWelcome sent) :
    Knows self ((heard packets).foldl (hear self) roster)
      ((packets.map (·.bytes)).foldl SentNames.learn known) := by
  induction packets using List.reverseRecOn with
  | nil => exact h
  | append_singleton packets sent ih =>
      have hbefore := ih (fun other hother => hstates other (List.mem_append_left _ hother))
        fun other hother => hwelcome other (List.mem_append_left _ hother)
      rw [heard_append, List.foldl_append, List.map_append, List.foldl_append]
      generalize (heard packets).foldl (hear self) roster = roster' at hbefore
      generalize (packets.map (·.bytes)).foldl SentNames.learn known = known' at hbefore
      have hkind := hwelcome sent (by simp)
      rw [List.map_singleton, List.foldl_cons, List.foldl_nil, SentNames.learn]
      cases hdecode : decode sent.bytes with
      | none =>
          have hnone : heard [sent] = [] := by simp [heard, List.filter_cons, hdecode]
          rw [hnone]
          exact hbefore
      | some m =>
          have hother : m.id ≠ .kWelcome := by
            intro hid
            exact hkind (by rw [IsWelcome, kind, hdecode, Option.map_some, hid])
          cases hchannel : sent.channel with
          | kReliable =>
              have hone : heard [sent] = [m] := by simp [heard, hchannel, hdecode]
              rw [hone]
              exact hbefore.heed hother
          | kUnreliable =>
              have hnone : heard [sent] = [] := by simp [heard, hchannel]
              have hstate := hstates sent (by simp) hchannel
              rw [kind, hdecode, Option.map_some] at hstate
              rw [hnone]
              cases m with
              | playerStateUpdate => exact hbefore.heed hother
              | _ => cases hstate

/-- A client that got every reliable packet of a log knows its id, and the list of the
log since the welcome. -/
theorem knows_of_drained {link delivered : List Sent} {self : PlayerId}
    (hgate : Gate link (some self))
    (hstates : ∀ sent ∈ link, sent.channel = .kUnreliable → kind sent = some .kPlayerStateUpdate)
    (hdelivers : Delivers link delivered) (hdrained : reliable delivered = reliable link) :
    Knows self (rosterOf self (sinceWelcome link))
      ((delivered.map (·.bytes)).foldl learn stranger) := by
  generalize hid : some self = id at hgate
  cases hgate with
  | closed => cases hid
  | @opened rejects rest welcome msg hrejects hwelcome hrest =>
      obtain rfl := Option.some.inj hid
      have hiswelcome : IsWelcome welcome := isWelcome_of_decode hwelcome
      have hnot : ∀ sent ∈ rejects ++ welcome :: rest, sent.channel = .kUnreliable →
          ¬ IsWelcome sent := by
        intro sent hsent hchannel
        rw [IsWelcome, hstates sent hsent hchannel]
        rintro ⟨⟩
      have hreliable : welcome.channel = .kReliable := by
        cases hchannel : welcome.channel with
        | kReliable => rfl
        | kUnreliable => exact absurd hiswelcome (hnot welcome (by simp) hchannel)
      rw [sinceWelcome_rejects hrejects hiswelcome]
      -- what was delivered is cut at the welcome
      have hcut : reliable delivered = reliable rejects ++ welcome :: reliable rest := by
        rw [hdrained, reliable, List.filter_append, List.filter_cons_of_pos (by simp [hreliable])]
        rfl
      obtain ⟨early, late, rfl, -, hlate⟩ := List.filter_eq_append_iff.mp hcut
      obtain ⟨between, after, rfl, -, -, hafter⟩ := List.filter_eq_cons_iff.mp hlate
      rw [List.map_append, List.foldl_append, List.map_append, List.foldl_append, List.map_cons,
        List.foldl_cons, learn, hwelcome]
      have hheard : heard after = heard rest := by rw [heard_eq, heard_eq]; exact congrArg _ hafter
      have hmem : ∀ sent ∈ after, sent ∈ rejects ++ welcome :: rest := fun sent hsent =>
        hdelivers.mem (by simp [hsent])
      rw [rosterOf, ← hheard]
      have hfirst : ∀ names, Knows msg.id (fun _ => none) (heed names (.welcome msg)) := fun _ =>
        ⟨rfl, by rintro _ _ _ ⟨⟩⟩
      refine (hfirst _).learn (fun sent hsent => hstates sent (hmem sent hsent)) ?_
      intro sent hsent hkind
      cases hchannel : sent.channel with
      | kUnreliable => exact hnot sent (hmem sent hsent) hchannel hkind
      | kReliable =>
          have hin : sent ∈ reliable rest :=
            hafter ▸ List.mem_filter.mpr ⟨hsent, decide_eq_true hchannel⟩
          exact hrest sent (mem_reliable.mp hin).1 hkind

section Runs

variable [CppFloat F32] [Libm F32] [Platform]

/-- The server sends nothing but states unreliably. -/
theorem states_after (config : Config) (startTime : Time) (inputs : List ServerRun.Input) (c : Peer) :
    ∀ sent ∈ (Network.after config startTime inputs).link c, sent.channel = .kUnreliable →
      kind sent = some .kPlayerStateUpdate := by
  refine Network.after_induction (P := fun net => ∀ sent ∈ net.link c,
    sent.channel = .kUnreliable → kind sent = some .kPlayerStateUpdate) (by rintro _ ⟨⟩) ?_ inputs
  intro inputs input ih sent hsent
  rcases List.mem_append.mp hsent with hold | hnew
  · split at hold
    · cases hold
    · exact ih sent hold
  · exact (told_of_mem (step_effect _ input) hnew).reliable

/-- The name the server has for a connection is what its packets make it. -/
theorem signature_after (config : Config) (startTime : Time) (inputs : List ServerRun.Input)
    (c : Peer) : ((Network.after config startTime inputs).server.players.lookup c).map signature =
      (arrivals c inputs).map fun got => got.foldl sign none :=
  view_after (fun _ => rfl) signature_heard config startTime inputs c

end Runs

/-- A run of a client. -/
structure Party (D : Type) where
  config : SessionModel.Config := {}
  gameVersion : UInt32 := 0
  enetReady : Bool := true
  inputs : List (ClientRun.Input D)

section Agreement

variable {D : Type} [CppFloat F32] [CppFloat D] [Libm F32] [Narrow D F32] [Widen F32 D]

def Party.watched (party : Party D) : Watched D :=
  .after party.config party.gameVersion party.enetReady party.inputs

def Party.session (party : Party D) : Session := party.watched.client.session

def Party.scene (party : Party D) : Scene F32 D := party.watched.client.scene

/-- What it sent on its connection. -/
def Party.sent (party : Party D) : List Sent := party.watched.history.foldl posted []

/-- What it received on its connection. -/
def Party.received (party : Party D) : List Bytes := (eventsOf party.inputs).foldl taken []

variable [Platform]

/-- A client that is connected and welcomed, at the peer `c` of the server, when no
reliable packet of the connection is under way: what either got is what the other sent,
in order, but for unreliable packets that were lost or are late. -/
structure Drained (config : Config) (startTime : Time) (inputs : List ServerRun.Input) (c : Peer)
    (party : Party D) : Prop where
  enet : party.watched.enet ≠ none
  connected : party.session.net.state = .kConnected
  welcomed : party.session.welcomed = true
  up : ∃ arrived, arrivals c inputs = some (arrived.map (·.bytes)) ∧
    Delivers party.sent arrived ∧ reliable arrived = reliable party.sent
  down : ∃ delivered, party.received = delivered.map (·.bytes) ∧
    Delivers ((Network.after config startTime inputs).link c) delivered ∧
    reliable delivered = reliable ((Network.after config startTime inputs).link c)

variable {config : Config} {startTime : Time} {inputs : List ServerRun.Input} {c : Peer}
  {party : Party D}

theorem record_of_drained (h : Drained config startTime inputs c party) :
    ∃ player, (Network.after config startTime inputs).server.players.lookup c = some player ∧
      player.handshaked = true ∧
      player.name = sanitizeName (party.session.sentName.take maxStringBytes) := by
  have hspeaks := speaks_after h.enet
  obtain ⟨arrived, harrivals, hdelivers, hdrained⟩ := h.up
  have hsigned : signedBy arrived =
      some (sanitizeName (party.session.sentName.take maxStringBytes)) := by
    rw [← signedBy_reliable fun sent hsent => hspeaks.states sent (hdelivers.mem hsent), hdrained]
    exact hspeaks.signed h.connected
  have hrecord := signature_after config startTime inputs c
  rw [harrivals, Option.map_some, List.foldl_map] at hrecord
  obtain ⟨player, hplayer, hsignature⟩ := Option.map_eq_some_iff.mp hrecord
  rw [show arrived.foldl _ none = signedBy arrived from rfl, hsigned, signature] at hsignature
  refine ⟨player, hplayer, ?_⟩
  split at hsignature
  · rename_i hshake
    exact ⟨hshake, Option.some.inj hsignature⟩
  · cases hsignature

theorem listed_of_drained (h : Drained config startTime inputs c party)
    (hids : ∀ before, before <+: inputs →
      IdsDistinct (Network.after config startTime before).server) {player : Player}
    (hplayer : (Network.after config startTime inputs).server.players.lookup c = some player)
    (hshake : player.handshaked = true) {id : PlayerId} {name : Bytes}
    (hpresent : Present (Network.after config startTime inputs).server c id name) :
    ∃ entry, party.scene.find id = some entry ∧ entry.name = name := by
  have hspeaks := speaks_after h.enet
  obtain ⟨delivered, hreceived, hdelivers, hdrained⟩ := h.down
  have hgate := (gated_after config startTime inputs c).opened hplayer hshake
  have hknows := knows_of_drained hgate (states_after config startTime inputs c) hdelivers hdrained
  have hshows := (synced_of_distinct config startTime inputs c hids player hplayer hshake).1
  have hknown := hspeaks.known h.connected
  rw [show (eventsOf party.inputs).foldl taken [] = _ from hreceived] at hknown
  rw [← hknown] at hknows
  have hother : id ≠ player.id :=
    (inGame_of_present (hids inputs (List.prefix_refl _)) hplayer hshake hpresent).2
  exact Option.map_eq_some_iff.mp (hknows.names id hother name ((hshows id name).mpr hpresent))

/-- Whenever a client is connected and welcomed and nothing reliable is under way between
it and the server, the server has it under the name it sent last, sanitized, and every
other such client lists it under that name, if no two in the game ever had the same id. -/
theorem names_agree (config : Config) (startTime : Time) (inputs : List ServerRun.Input)
    (hids : ∀ before, before <+: inputs →
      IdsDistinct (Network.after config startTime before).server)
    (c : Peer) (party : Party D) (hdrained : Drained config startTime inputs c party) :
    ∃ player, (Network.after config startTime inputs).server.players.lookup c = some player ∧
      player.handshaked = true ∧
      player.name = sanitizeName (party.session.sentName.take maxStringBytes) ∧
      ∀ d, d ≠ c → ∀ other : Party D, Drained config startTime inputs d other →
        ∃ entry, other.scene.find player.id = some entry ∧ entry.name = player.name := by
  obtain ⟨player, hplayer, hshake, hname⟩ := record_of_drained hdrained
  refine ⟨player, hplayer, hshake, hname, fun d hd other hother => ?_⟩
  obtain ⟨found, hfound, hfoundshake, -⟩ := record_of_drained hother
  exact listed_of_drained hother hids hfound hfoundshake
    (.inl ⟨c, player, hd.symm, hplayer, hshake, rfl, rfl⟩)

end Agreement

section Example

open F4MP.Native

/-- A client that enters a world, connects and gets all the packets of a log at once. -/
def attends (name : Bytes) (link : List Sent) : Party F64 where
  inputs :=
    let packets := link.map fun sent =>
      .receive sent.bytes ⟨20200000000, CppFloat.ofRat 0, none⟩
    [.enterWorld, .connect { now := 20000000000 } 20000000000,
      .tick { frame [.connect name] 20100000000 with playerName := name },
      .tick { frame packets 20200000000 with playerName := name }].map fun event =>
        ⟨event, fun _ => .keep _⟩

theorem drained_of_all {config : Config} {startTime : Time} {inputs : List ServerRun.Input} {c : Peer}
    {party : Party F64} (henet : party.watched.enet ≠ none)
    (hconnected : party.session.net.state = .kConnected) (hwelcomed : party.session.welcomed = true)
    (hup : arrivals c inputs = some (party.sent.map (·.bytes)))
    (hdown : party.received = ((Network.after config startTime inputs).link c).map (·.bytes)) :
    Drained config startTime inputs c party where
  enet := henet
  connected := hconnected
  welcomed := hwelcomed
  up := ⟨_, hup, ⟨List.prefix_refl _, List.Sublist.refl _⟩, rfl⟩
  down := ⟨_, hdown, ⟨List.prefix_refl _, List.Sublist.refl _⟩, rfl⟩

def ada (inputs : List ServerRun.Input) : Party F64 :=
  attends (ascii "Ada") ((Network.after {} 0 inputs).link 0)

def bob (inputs : List ServerRun.Input) : Party F64 :=
  attends (ascii "Bob") ((Network.after {} 0 inputs).link 1)

/-- The second of two players lists the first by name. -/
theorem names_agree_of_two : ∃ player,
    (Network.after {} 0 twoPlayers).server.players.lookup 0 = some player ∧
      ∃ entry, (bob twoPlayers).scene.find player.id = some entry ∧ entry.name = player.name := by
  have hada : Drained {} 0 twoPlayers 0 (ada twoPlayers) :=
    drained_of_all (by decide +kernel) (by decide +kernel) (by decide +kernel) (by decide +kernel)
      (by decide +kernel)
  have hbob : Drained {} 0 twoPlayers 1 (bob twoPlayers) :=
    drained_of_all (by decide +kernel) (by decide +kernel) (by decide +kernel) (by decide +kernel)
      (by decide +kernel)
  obtain ⟨player, hplayer, -, -, hlisted⟩ := names_agree {} 0 twoPlayers
    (idsDistinct_of_earlier (by decide +kernel)) 0 (ada twoPlayers) hada
  exact ⟨player, hplayer, hlisted 1 (by decide) (bob twoPlayers) hbob⟩

/-- From networks with the same server the same is sent, on connections that had the same
log before or are opened. -/
theorem step_same {net net' : Network} (hserver : net.server = net'.server) (input : ServerRun.Input) :
    (net.step input).server = (net'.step input).server ∧
      ∀ c, net.link c = net'.link c ∨ opens net'.server input c = true →
        (net.step input).link c = (net'.step input).link c := by
  refine ⟨congrArg (fun s => (ServerRun.step s input).1) hserver, fun c hlink => ?_⟩
  simp only [Network.step, hserver]
  rcases hlink with hsame | hopens
  · rw [hsame]
  · rw [if_pos hopens, if_pos hopens]

theorem server_botCycles {before : List ServerRun.Input}
    (hbots : (Network.after {} 0 before).server.bots = []) (n : Nat) :
    (Network.after {} 0 (before ++ FreshIds.botCycles n)).server =
      { (Network.after {} 0 before).server with
        nextId := (Network.after {} 0 before).server.nextId + UInt32.ofNat n } := by
  induction n with
  | zero =>
      rw [FreshIds.botCycles, List.append_nil]
      generalize (Network.after {} 0 before).server = s
      simp
  | succ n ih =>
      have hcycle : ∀ s : Server, s.bots = [] →
          (ServerRun.step (ServerRun.step s FreshIds.botAdd).1 FreshIds.botRemoveAll).1 =
            { s with nextId := s.nextId + 1 } := by
        intro s hnone
        rw [FreshIds.step_botRemoveAll, FreshIds.step_botAdd, addBot, ← hnone]
        rfl
      rw [FreshIds.botCycles, ← List.append_assoc, ← List.append_assoc, Network.after_concat,
        Network.after_concat]
      have hnext := hcycle (Network.after {} 0 (before ++ FreshIds.botCycles n)).server (by
        rw [ih]
        exact hbots)
      refine Eq.trans hnext ?_
      rw [ih, UInt32.ofNat_add, ← UInt32.add_assoc]
      rfl

theorem arrivals_botCycles (c : Peer) (before : List ServerRun.Input) (n : Nat) :
    arrivals c (before ++ FreshIds.botCycles n) = arrivals c before := by
  induction n with
  | zero => rw [FreshIds.botCycles, List.append_nil]
  | succ n ih =>
      rw [FreshIds.botCycles, ← List.append_assoc, ← List.append_assoc, arrivals_concat,
        arrivals_concat, ih]
      rfl

def cidJoins : List ServerRun.Input :=
  [⟨0, .keep _, .connect 2⟩, ⟨0, .keep _, .receive 2 (encode { name := ascii "Cid" : HelloMsg })⟩]

def lateJoins : List ServerRun.Input :=
  [⟨0, .keep _, .connect 0⟩, ⟨0, .keep _, .connect 1⟩,
    ⟨0, .keep _, .receive 0 (encode { name := ascii "Ada" : HelloMsg })⟩,
    ⟨0, .keep _, .receive 1 (encode { name := ascii "Bob" : HelloMsg })⟩]

/-- The counter comes round to the id of the first before two others join. -/
def roundTrip : List ServerRun.Input :=
  cidJoins ++ FreshIds.botCycles (2 ^ 32 - 1) ++ lateJoins

def setBack : Network where
  server := { (Network.after {} 0 cidJoins).server with nextId := 1 }
  link _ := []
  issued := 0

theorem roundTrip_same :
    (Network.after {} 0 roundTrip).server = (run Network.step setBack lateJoins).server ∧
      ∀ c, c = 0 ∨ c = 1 →
        (Network.after {} 0 roundTrip).link c = (run Network.step setBack lateJoins).link c := by
  rw [roundTrip, Network.after, run_append, ← Network.after]
  have hserver : (Network.after {} 0 (cidJoins ++ FreshIds.botCycles (2 ^ 32 - 1))).server =
      setBack.server := by
    rw [server_botCycles (by decide +kernel)]
    have hnext : (Network.after {} 0 cidJoins).server.nextId + UInt32.ofNat (2 ^ 32 - 1) = 1 := by
      decide +kernel
    rw [hnext]
    rfl
  generalize Network.after {} 0 (cidJoins ++ FreshIds.botCycles (2 ^ 32 - 1)) = net at hserver
  obtain ⟨h₁, hlink₁⟩ := step_same hserver ⟨0, .keep _, .connect 0⟩
  obtain ⟨h₂, hlink₂⟩ := step_same h₁ ⟨0, .keep _, .connect 1⟩
  obtain ⟨h₃, hlink₃⟩ := step_same h₂
    ⟨0, .keep _, .receive 0 (encode { name := ascii "Ada" : HelloMsg })⟩
  obtain ⟨h₄, hlink₄⟩ := step_same h₃
    ⟨0, .keep _, .receive 1 (encode { name := ascii "Bob" : HelloMsg })⟩
  refine ⟨h₄, fun c hc => hlink₄ c (.inl (hlink₃ c (.inl ?_)))⟩
  rcases hc with rfl | rfl
  · exact hlink₂ 0 (.inl (hlink₁ 0 (.inr (by decide +kernel))))
  · exact hlink₂ 1 (.inr (by decide +kernel))

theorem roundTrip_arrivals (c : Peer) : arrivals c roundTrip =
    lateJoins.foldl (track [] (fun got bytes => got ++ [bytes]) c) (arrivals c cidJoins) := by
  rw [roundTrip, arrivals, List.foldl_append, ← arrivals, arrivals_botCycles]

/-- The last to join lists the one who joined before under the name of the first, who has
the same id. -/
theorem misnamed :
    Drained {} 0 roundTrip 0 (ada roundTrip) ∧ Drained {} 0 roundTrip 1 (bob roundTrip) ∧
      ∃ player, (Network.after {} 0 roundTrip).server.players.lookup 0 = some player ∧
        player.handshaked = true ∧ ∃ entry, (bob roundTrip).scene.find player.id = some entry ∧
          entry.name ≠ player.name := by
  obtain ⟨hserver, hlink⟩ := roundTrip_same
  have hada : ada roundTrip = attends (ascii "Ada") ((run Network.step setBack lateJoins).link 0) := by
    rw [ada, hlink 0 (.inl rfl)]
  have hbob : bob roundTrip = attends (ascii "Bob") ((run Network.step setBack lateJoins).link 1) := by
    rw [bob, hlink 1 (.inr rfl)]
  refine ⟨?_, ?_, ?_⟩
  · refine drained_of_all ?_ ?_ ?_ ?_ ?_ <;> rw [hada]
    · decide +kernel
    · decide +kernel
    · decide +kernel
    · rw [roundTrip_arrivals]
      decide +kernel
    · rw [hlink 0 (.inl rfl)]
      decide +kernel
  · refine drained_of_all ?_ ?_ ?_ ?_ ?_ <;> rw [hbob]
    · decide +kernel
    · decide +kernel
    · decide +kernel
    · rw [roundTrip_arrivals]
      decide +kernel
    · rw [hlink 1 (.inr rfl)]
      decide +kernel
  · rw [hserver, hbob]
    refine ⟨{ id := 1, name := ascii "Ada", handshaked := true }, by decide +kernel, rfl, ?_⟩
    have hlisted : ((attends (ascii "Bob") ((run Network.step setBack lateJoins).link 1)).scene.find
        1).map (·.name) = some (ascii "Cid") := by
      decide +kernel
    obtain ⟨entry, hentry, hname⟩ := Option.map_eq_some_iff.mp hlisted
    exact ⟨entry, hentry, by rw [hname]; decide⟩

end Example

end F4MP.NameAgreement
