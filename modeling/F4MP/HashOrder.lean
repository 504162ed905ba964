import F4MP.Native
import F4MP.Strangers

/-!
Two runs that differ only in the order in which the player map is iterated: the same
players, bots and ids at every time, and the same packets but for the order in which a
newcomer is told about the players already present.
-/

namespace F4MP.HashOrder

open F4MP.Types
open F4MP.Protocol
open F4MP.Messages
open F4MP.Arith
open F4MP.ServerModel
open F4MP.ServerConsole
open F4MP.ServerRun
open F4MP.ServerTraffic
open F4MP.ServerEffects
open F4MP.Handshake
open F4MP.Participants
open F4MP.ServerAlike
open F4MP.Strangers
open F4MP.Library.HashTable

/-- How a player who is present is introduced to a newcomer: its state, if there is one,
comes directly after its join. -/
def introduction (now : Time) (stamp : UInt32) (player : Player) : List Sent :=
  ⟨now, .kReliable, encode { id := player.id, name := player.name : PlayerJoinedMsg }⟩ ::
    if player.hasState then
      [⟨now, .kReliable, encode
        { id := player.id, timeMs := stamp, state := player.state : PlayerStateUpdateMsg }⟩]
    else []

/-- Two greetings that introduce the same players, in different orders perhaps, between
the welcome and what is told about bots and said in chat. -/
def SameCatchUp (greeting greeting' : List Sent) : Prop :=
  ∃ (now : Time) (stamp : UInt32) (welcome chat : Sent) (players players' : List Player)
    (bots : List Sent),
    kind welcome = some .kWelcome ∧ kind chat = some .kChatBroadcast ∧ players'.Perm players ∧
    greeting = welcome :: (players.flatMap (introduction now stamp) ++ bots ++ [chat]) ∧
    greeting' = welcome :: (players'.flatMap (introduction now stamp) ++ bots ++ [chat])

section Greetings

variable {s t : Server} {peer : Peer}

/-- Servers that differ in the order of their maps only. -/
abbrev SameServer (s t : Server) : Prop := Alike (fun _ => False) s t

theorem sentTo_seated {player : Player} (hplayer : s.players.lookup peer = some player)
    (hello : HelloMsg) (now : Time) :
    sentTo peer now (greet (seat s peer player hello) now peer (welcomedPlayer s player hello)) =
      ⟨now, .kReliable,
        encode (welcomeMsg (seat s peer player hello) (welcomedPlayer s player hello))⟩ ::
      (((told s peer).map (·.2)).flatMap (introduction now (nowMs s now)) ++
        s.bots.flatMap (fun bot => sentTo peer now
          (announce peer (nowMs s now) bot.id bot.name bot.hasState bot.state)) ++
        [⟨now, .kReliable, encode
          { text := (welcomedPlayer s player hello).name ++ ascii " joined the game" :
            ChatBroadcastMsg }⟩]) := by
  have hjoined : joined (seat s peer player hello) peer = true := by
    rw [joined_seat hplayer, if_pos rfl]
  have htold : told (seat s peer player hello) peer = told s peer :=
    told_setPlayer { s with nextId := s.nextId + 1 } peer _
  rw [sentTo_greet, if_pos rfl, sentTo_catchUp, hjoined, htold, List.flatMap_map]
  simp only [sentTo_announce, if_true]
  rfl

theorem sameCatchUp_seated (h : SameServer s t) {player : Player}
    (hplayer : s.players.lookup peer = some player) (hello : HelloMsg) (now : Time) :
    SameCatchUp
      (sentTo peer now (greet (seat s peer player hello) now peer (welcomedPlayer s player hello)))
      (sentTo peer now
        (greet (seat t peer player hello) now peer (welcomedPlayer t player hello))) := by
  have hsame : welcomedPlayer t player hello = welcomedPlayer s player hello := by
    rw [welcomedPlayer, welcomedPlayer, h.nextId_eq]
  have hwelcome : welcomeMsg (seat t peer player hello) (welcomedPlayer s player hello) =
      welcomeMsg (seat s peer player hello) (welcomedPlayer s player hello) := by
    rw [welcomeMsg, welcomeMsg, (h.seat id hplayer hello).config_eq]
  rw [sentTo_seated hplayer, sentTo_seated ((h.kept peer id).trans hplayer), hsame, hwelcome,
    h.nowMs_eq, h.bots_eq]
  exact ⟨now, nowMs s now, _, _, _, _, _, kind_welcome _ _ _, kind_chatBroadcast _ _ _,
    (h.roll_perm.filter _).map _, rfl, rfl⟩

end Greetings

/-- Two logs that differ at most in the order of one catch-up. -/
def SameLog (link link' : List Sent) : Prop :=
  link' = link ∨ ∃ before greeting greeting' after, SameCatchUp greeting greeting' ∧
    link = before ++ greeting ++ after ∧ link' = before ++ greeting' ++ after

theorem SameLog.append {link link' : List Sent} (h : SameLog link link') (more : List Sent) :
    SameLog (link ++ more) (link' ++ more) := by
  rcases h with rfl | ⟨before, greeting, greeting', after, hgreet, rfl, rfl⟩
  · exact .inl rfl
  · exact .inr ⟨before, greeting, greeting', after ++ more, hgreet, by simp, by simp⟩

/-- Two networks after the same events: but for the order of the map the servers are
equal, and every connection was sent the same. -/
structure Twins (net net' : Network) : Prop where
  server : net'.server = { net.server with players := net'.server.players }
  players : ∀ c, net'.server.players.lookup c = net.server.players.lookup c
  logs : ∀ c, SameLog (net.link c) (net'.link c)
  newcomers : ∀ c player, net.server.players.lookup c = some player → player.handshaked = false →
    net'.link c = net.link c

theorem Twins.alike {net net' : Network} (h : Twins net net') :
    SameServer net.server net'.server :=
  ⟨h.server, fun c _ => h.players c, by rintro _ ⟨⟩, by rintro _ _ ⟨⟩⟩

section Runs

variable [CppFloat F32] [Libm F32] [Platform] {net net' : Network} {input input' : Input}

theorem step_alike {s t : Server} (h : SameServer s t) (hids : IdsDistinct s)
    (hstamp : stamp input' = stamp input) :
    SameServer (step s input).1 (step t input').1 ∧
    ∀ c, sentTo c input.now (step t input').2 = sentTo c input.now (step s input).2 ∨
      (joined s c = false ∧ joined (step s input).1 c = true ∧
        SameCatchUp (sentTo c input.now (step s input).2) (sentTo c input.now (step t input').2)) := by
  have hnow : input'.now = input.now := congrArg Prod.fst hstamp
  have hevent : input'.event = input.event := congrArg Prod.snd hstamp
  have halike := h.reorder input.order input'.order
  have hfinds := SameFinds.of_distinct halike (hids.keeps (keeps_reorder s input.order))
  obtain ⟨hserver, hsent⟩ := same_handle halike hfinds input.now
    fun peer (_ : eventPeer input.event = some peer) hfalse => hfalse
  have hstep' : step t input' = handle (reorder t input'.order) input.now input.event := by
    rw [step, hnow, hevent]
  rw [hstep']
  refine ⟨hserver, fun c => (hsent c).imp id ?_⟩
  rintro ⟨hbefore, -, welcome, blocks, _, after, hwelcome, -, -, hall, -⟩
  have heffect := step_effect s input
  have heffect' := handle_effect (reorder t input'.order) input.now input.event
  -- only a handshake brings a welcome
  have hafter : joined (step s input).1 c = true := by
    by_contra hnot
    have hreject : IsReject welcome := rejects_of_unjoined heffect (Bool.eq_false_iff.mpr hnot)
      welcome (by rw [show sentTo c input.now (step s input).2 = _ from hall]; exact List.mem_cons_self)
    exact absurd (hwelcome.symm.trans hreject) (by rintro ⟨⟩)
  have hbefore' : joined (reorder t input'.order) c = false := (halike.joined_eq c).trans hbefore
  have hafter' : joined (handle (reorder t input'.order) input.now input.event).1 c = true :=
    (hserver.joined_eq c).trans hafter
  obtain ⟨player, bytes, hello, hreceive, hdecode, -, hplayer, -, -, houts⟩ :=
    welcome_answers_hello heffect hbefore hafter
  obtain ⟨player', bytes', hello', hreceive', hdecode', -, hplayer', -, -, houts'⟩ :=
    welcome_answers_hello heffect' hbefore' hafter'
  obtain rfl : bytes = bytes' := by
    have hsame := hreceive.symm.trans hreceive'
    cases hsame
    rfl
  obtain rfl : hello = hello' := by
    have hsame := hdecode.symm.trans hdecode'
    cases hsame
    rfl
  obtain rfl : player' = player :=
    Option.some.inj (hplayer'.symm.trans ((halike.kept c id).trans hplayer))
  refine ⟨by rwa [joined_reorder] at hbefore, hafter, ?_⟩
  rw [houts, houts']
  exact sameCatchUp_seated halike hplayer hello input.now

theorem Twins.step (h : Twins net net') (hids : IdsDistinct net.server)
    (hstamp : stamp input' = stamp input) : Twins (net.step input) (net'.step input') := by
  have hnow : input'.now = input.now := congrArg Prod.fst hstamp
  have hevent : input'.event = input.event := congrArg Prod.snd hstamp
  obtain ⟨hserver, hsent⟩ := step_alike h.alike hids hstamp
  have heffect := step_effect net.server input
  -- what was sent on a connection before the event, if it is still open
  have hopens : ∀ c, opens net'.server input' c = opens net.server input c := by
    intro c
    rw [opens, opens, hevent, h.players c]
  have hearlier : ∀ c,
      SameLog (if opens net.server input c then [] else net.link c)
        (if opens net'.server input' c then [] else net'.link c) := by
    intro c
    rw [hopens]
    split
    · exact .inl rfl
    · exact h.logs c
  have hfresh : ∀ c, joined net.server c = false →
      (opens net.server input c = true ∨ (net.server.players.lookup c).isSome) →
      (if opens net'.server input' c then [] else net'.link c) =
        if opens net.server input c then [] else net.link c := by
    intro c hunjoined hopen
    rw [hopens]
    rcases hopen with hnew | hlive
    · rw [if_pos hnew, if_pos hnew]
    · obtain ⟨player, hplayer⟩ := Option.isSome_iff_exists.mp hlive
      rw [h.newcomers c player hplayer ((joined_eq hplayer).symm.trans hunjoined)]
  refine ⟨hserver.rest, fun c => hserver.kept c id, fun c => ?_, fun c player hplayer hshake => ?_⟩
  · simp only [Network.step, hnow]
    rcases hsent c with heq | ⟨hbefore, hafter, hgreet⟩
    · rw [heq]
      exact (hearlier c).append _
    · obtain ⟨player, _, _, _, _, _, hplayer, _⟩ := welcome_answers_hello heffect
        ((joined_reorder ..).trans hbefore) hafter
      rw [lookup_reorder] at hplayer
      rw [hfresh c hbefore (.inr (by rw [hplayer]; rfl))]
      exact .inr ⟨_, _, _, [], hgreet, (List.append_nil _).symm, (List.append_nil _).symm⟩
  · have hafter : joined (ServerRun.step net.server input).1 c = false :=
      (joined_eq hplayer).trans hshake
    have hbefore : joined net.server c = false := by
      by_contra hnot
      obtain ⟨old, hold, holdshake⟩ := joined_iff.mp (Bool.not_eq_false _ ▸ hnot)
      have hstill := (still_joined heffect ((lookup_reorder ..).trans hold) holdshake hplayer).1
      exact absurd (hshake.symm.trans hstill) (by rintro ⟨⟩)
    have hopen : opens net.server input c = true ∨ (net.server.players.lookup c).isSome := by
      cases hlive : (net.server.players.lookup c).isSome with
      | true => exact .inr rfl
      | false =>
          refine .inl ?_
          have hnone : net.server.players.lookup c = none := by simpa using hlive
          rcases heffect.lookup_cases c with hkept | ⟨hconnect, -⟩ | ⟨-, hgone⟩ |
            ⟨_, _, _, _, hfound, -⟩ | ⟨_, _, _, _, hfound, -⟩
          · rw [lookup_reorder, hnone] at hkept
            exact absurd (hplayer.symm.trans hkept) (by rintro ⟨⟩)
          · simp [opens, hconnect, hnone]
          · exact absurd (hplayer.symm.trans hgone) (by rintro ⟨⟩)
          · rw [lookup_reorder, hnone] at hfound
            cases hfound
          · rw [lookup_reorder, hnone] at hfound
            cases hfound
    simp only [Network.step, hnow]
    rw [hfresh c hbefore hopen]
    rcases hsent c with heq | ⟨-, hjoined, -⟩
    · rw [heq]
    · exact absurd (hafter.symm.trans hjoined) (by rintro ⟨⟩)

/-- However the player map is iterated at each event, the players, the bots and the ids
after the same events are the same, and so is what each connection was sent, but for the
order of the introductions in its catch-up. -/
theorem hash_order_free (config : Config) (startTime : Time) (inputs inputs' : List Input)
    (hsame : inputs'.map stamp = inputs.map stamp)
    (hids : ∀ before, before <+: inputs →
      IdsDistinct (Network.after config startTime before).server) :
    Twins (Network.after config startTime inputs) (Network.after config startTime inputs') := by
  induction inputs using List.reverseRecOn generalizing inputs' with
  | nil =>
      obtain rfl := List.map_eq_nil_iff.mp hsame
      exact ⟨rfl, fun _ => rfl, fun _ => .inl rfl, by rintro _ _ ⟨⟩⟩
  | append_singleton inputs input ih =>
      rw [List.map_append, List.map_singleton] at hsame
      obtain ⟨before, last, rfl, hbefore, hlast⟩ := List.map_eq_append_iff.mp hsame
      obtain ⟨input', rfl, hstamp⟩ := List.map_eq_singleton_iff.mp hlast
      rw [Network.after_concat, Network.after_concat]
      refine (ih before hbefore fun earlier hinit => ?_).step ?_ hstamp
      · exact hids earlier (hinit.trans (List.prefix_append _ _))
      · exact hids inputs (List.prefix_append _ _)

end Runs

section Example

open F4MP.Native

/-- A third player joins two others, with the map in the given order. -/
def thirdJoins (order : Shuffle (Sigma fun _ : Peer => Player)) : List Input :=
  twoPlayers ++ [⟨0, .keep _, .connect 2⟩,
    ⟨0, order, .receive 2 (encode { name := ascii "Cid" : HelloMsg })⟩]

def backwards : Shuffle (Sigma fun _ : Peer => Player) := ⟨List.reverse, List.reverse_perm⟩

/-- The order does show, in the introductions. -/
example : (Network.after {} 0 (thirdJoins backwards)).link 2 ≠
    (Network.after {} 0 (thirdJoins (.keep _))).link 2 := by decide +kernel

theorem hash_order_free_of_third :
    Twins (Network.after {} 0 (thirdJoins (.keep _)))
      (Network.after {} 0 (thirdJoins backwards)) :=
  hash_order_free {} 0 (thirdJoins (.keep _)) (thirdJoins backwards) rfl
    (idsDistinct_of_earlier (by decide +kernel))

end Example

end F4MP.HashOrder
