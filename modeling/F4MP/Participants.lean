import F4MP.ServerEffects

/-!
The participants of a game, players and bots: their ids are distinct while the
counter has not wrapped, and their names fit on the wire.
-/

namespace F4MP.Participants

open F4MP.Types
open F4MP.Protocol
open F4MP.Messages
open F4MP.Arith
open F4MP.ServerModel
open F4MP.ServerConsole
open F4MP.ServerRun
open F4MP.ServerTraffic
open F4MP.ServerEffects
open F4MP.Library.HashTable
open F4MP.Library.Runs

/-- No two players or bots that are in the game share an id. -/
structure IdsDistinct (s : Server) : Prop where
  players : ∀ {c d : Peer} {a b : Player}, s.players.lookup c = some a → a.handshaked = true →
    s.players.lookup d = some b → b.handshaked = true → a.id = b.id → c = d
  bots : (s.bots.map (·.id)).Nodup
  apart : ∀ {c : Peer} {a : Player} {bot : Bot}, s.players.lookup c = some a →
    a.handshaked = true → bot ∈ s.bots → a.id ≠ bot.id

/-- The ids in use are the first ones the counter gave. -/
structure IdsIssued (s : Server) (issued : Nat) : Prop where
  nextId_eq : s.nextId.toNat = issued + 1
  player_pos : ∀ {c : Peer} {a : Player}, s.players.lookup c = some a → a.handshaked = true →
    0 < a.id.toNat ∧ a.id.toNat ≤ issued
  bot_pos : ∀ {bot : Bot}, bot ∈ s.bots → 0 < bot.id.toNat ∧ bot.id.toNat ≤ issued
  distinct : IdsDistinct s

/-- The names of everyone in the game are short enough for a packet. -/
structure NamesFit (s : Server) : Prop where
  player : ∀ {c : Peer} {a : Player}, s.players.lookup c = some a → a.handshaked = true →
    a.name.length ≤ maxPlayerName
  bot : ∀ {bot : Bot}, bot ∈ s.bots → bot.name.length ≤ maxPlayerName

/-- The ids and the names in `s'` come from `s`. -/
structure Keeps (s s' : Server) : Prop where
  nextId_eq : s'.nextId = s.nextId
  player : ∀ {c : Peer} {a' : Player}, s'.players.lookup c = some a' → a'.handshaked = true →
    ∃ a, s.players.lookup c = some a ∧ a.handshaked = true ∧ a.id = a'.id
  bots : (s'.bots.map (·.id)).Sublist (s.bots.map (·.id))

section Effects

variable {now : Time} {s s' : Server} {event : Event} {outs : List Out}

theorem Keeps.of_lookup (hnext : s'.nextId = s.nextId)
    (hlookup : ∀ c, s'.players.lookup c = s.players.lookup c)
    (hbots : (s'.bots.map (·.id)).Sublist (s.bots.map (·.id))) : Keeps s s' where
  nextId_eq := hnext
  player := by
    intro c a' ha' hshake
    exact ⟨a', (hlookup c).symm.trans ha', hshake, rfl⟩
  bots := hbots

theorem Keeps.setPlayer {peer : Peer} {player player' : Player}
    (hplayer : s.players.lookup peer = some player) (hshake : player.handshaked = true)
    (hid : player'.id = player.id) : Keeps s (setPlayer s peer player') where
  nextId_eq := rfl
  player := by
    intro c a' ha' hshake'
    rw [lookup_setPlayer hplayer] at ha'
    split at ha'
    · rename_i hc
      obtain rfl := Option.some.inj ha'
      exact ⟨player, hc ▸ hplayer, hshake, hid.symm⟩
    · exact ⟨a', ha', hshake', rfl⟩
  bots := .refl _

theorem Keeps.withoutPlayer (s : Server) (peer : Peer) :
    Keeps s { s with players := s.players.erase peer } where
  nextId_eq := rfl
  player := by
    intro c a' ha' hshake'
    rw [lookup_withoutPlayer] at ha'
    split at ha'
    · cases ha'
    · exact ⟨a', ha', hshake', rfl⟩
  bots := .refl _

/-- A step keeps the ids there are, or gives a new one to a player or to a bot. -/
theorem ids_cases (heffect : Effect now s event s' outs) :
    Keeps s s' ∨
    (∃ peer player hello, s.players.lookup peer = some player ∧ player.handshaked = false ∧
      s' = seat s peer player hello) ∨
    ∃ mode name, s' = (addBot s mode name).1 := by
  cases heffect with
  | idle | kicked | said => exact .inl (.of_lookup rfl (fun _ => rfl) (.refl _))
  | connected peer hnew =>
      refine .inl ⟨rfl, ?_, .refl _⟩
      intro c a' ha' hshake'
      rw [lookup_connected hnew] at ha'
      split at ha'
      · obtain rfl := Option.some.inj ha'
        cases hshake'
      · exact ⟨a', ha', hshake', rfl⟩
  | joined peer player bytes hello hplayer hshake =>
      exact .inr (.inl ⟨peer, player, hello, hplayer, hshake, rfl⟩)
  | stated peer player bytes msg hplayer hshake => exact .inl (.setPlayer hplayer hshake rfl)
  | chatCounted peer player bytes _ hplayer hshake | chatted peer player bytes _ hplayer hshake =>
      exact .inl (.setPlayer hplayer hshake (rollChatWindow_id player now))
  | renamed peer player bytes msg hplayer hshake => exact .inl (.setPlayer hplayer hshake rfl)
  | left peer | dropped peer => exact .inl (.withoutPlayer s peer)
  | botAdded line mode name => exact .inr (.inr ⟨mode, name, rfl⟩)
  | botsRemoved line removed kept hperm hkept =>
      exact .inl (.of_lookup rfl (fun _ => rfl) (hkept.map _))
  | botsUpdated pass hkeeps =>
      have hids : (s.bots.map fun bot => (pass bot).1).map (·.id) = s.bots.map (·.id) := by
        rw [List.map_map]
        exact List.map_congr_left fun bot _ => (hkeeps bot).1
      exact .inl (.of_lookup rfl (fun _ => rfl) (hids ▸ .refl _))

theorem IdsDistinct.keeps (h : IdsDistinct s) (hkeeps : Keeps s s') : IdsDistinct s' where
  players := by
    intro c d a b ha hshake hb hshake' hid
    obtain ⟨a₀, ha₀, hshake₀, hid₀⟩ := hkeeps.player ha hshake
    obtain ⟨b₀, hb₀, hshake₁, hid₁⟩ := hkeeps.player hb hshake'
    exact h.players ha₀ hshake₀ hb₀ hshake₁ (by rw [hid₀, hid₁, hid])
  bots := hkeeps.bots.nodup h.bots
  apart := by
    intro c a bot ha hshake hbot
    obtain ⟨a₀, ha₀, hshake₀, hid₀⟩ := hkeeps.player ha hshake
    have hmem := hkeeps.bots.subset (List.mem_map_of_mem hbot)
    obtain ⟨bot₀, hbot₀, hsame⟩ := List.mem_map.mp hmem
    rw [← hid₀, ← hsame]
    exact h.apart ha₀ hshake₀ hbot₀

theorem IdsIssued.keeps {issued : Nat} (h : IdsIssued s issued) (hkeeps : Keeps s s') :
    IdsIssued s' issued where
  nextId_eq := hkeeps.nextId_eq ▸ h.nextId_eq
  player_pos := by
    intro c a ha hshake
    obtain ⟨a₀, ha₀, hshake₀, hid₀⟩ := hkeeps.player ha hshake
    exact hid₀ ▸ h.player_pos ha₀ hshake₀
  bot_pos := by
    intro bot hbot
    obtain ⟨bot₀, hbot₀, hsame⟩ := List.mem_map.mp (hkeeps.bots.subset (List.mem_map_of_mem hbot))
    rw [← hsame]
    exact h.bot_pos hbot₀
  distinct := h.distinct.keeps hkeeps

theorem nextId_succ {issued : Nat} (h : s.nextId.toNat = issued + 1)
    (hissued : issued + 1 < 2 ^ 32 - 1) : (s.nextId + 1).toNat = issued + 2 := by
  rw [UInt32.toNat_add, h, show (1 : UInt32).toNat = 1 from rfl]
  omega

theorem IdsIssued.seat {issued : Nat} (h : IdsIssued s issued)
    (hissued : issued + 1 < 2 ^ 32 - 1) {peer : Peer} {player : Player}
    (hplayer : s.players.lookup peer = some player) (hello : HelloMsg) :
    IdsIssued (seat s peer player hello) (issued + 1) := by
  have hnew : ∀ {c : Peer} {a : Player}, (ServerEffects.seat s peer player hello).players.lookup c
      = some a → a.handshaked = true →
      (c = peer ∧ a.id = s.nextId) ∨ (c ≠ peer ∧ s.players.lookup c = some a) := by
    intro c a ha hshake
    rw [lookup_seat hplayer] at ha
    split at ha
    · rename_i hc
      obtain rfl := Option.some.inj ha
      exact .inl ⟨hc, rfl⟩
    · rename_i hc
      exact .inr ⟨hc, ha⟩
  have hfresh : ∀ {c : Peer} {a : Player}, s.players.lookup c = some a → a.handshaked = true →
      a.id ≠ s.nextId := by
    intro c a ha hshake hid
    have hle := (h.player_pos ha hshake).2
    rw [hid, h.nextId_eq] at hle
    omega
  refine ⟨nextId_succ h.nextId_eq hissued, ?_, ?_, ?_, h.distinct.bots, ?_⟩
  · intro c a ha hshake
    rcases hnew ha hshake with ⟨-, hid⟩ | ⟨-, ha₀⟩
    · rw [hid, h.nextId_eq]
      omega
    · have hpos := h.player_pos ha₀ hshake
      omega
  · intro bot hbot
    have hpos := h.bot_pos hbot
    omega
  · intro c d a b ha hshake hb hshake' hid
    rcases hnew ha hshake with ⟨rfl, hida⟩ | ⟨-, ha₀⟩
    · rcases hnew hb hshake' with ⟨rfl, -⟩ | ⟨-, hb₀⟩
      · rfl
      · exact absurd (hid.symm.trans hida) (hfresh hb₀ hshake')
    · rcases hnew hb hshake' with ⟨rfl, hidb⟩ | ⟨-, hb₀⟩
      · exact absurd (hid.trans hidb) (hfresh ha₀ hshake)
      · exact h.distinct.players ha₀ hshake hb₀ hshake' hid
  · intro c a bot ha hshake hbot
    rcases hnew ha hshake with ⟨-, hida⟩ | ⟨-, ha₀⟩
    · intro hid
      have hle := (h.bot_pos hbot).2
      rw [← hid, hida, h.nextId_eq] at hle
      omega
    · exact h.distinct.apart ha₀ hshake hbot

theorem IdsIssued.addBot {issued : Nat} (h : IdsIssued s issued)
    (hissued : issued + 1 < 2 ^ 32 - 1) (mode : BotMode) (name : Bytes) :
    IdsIssued (addBot s mode name).1 (issued + 1) := by
  have hnew : ∀ {bot : Bot}, bot ∈ (ServerModel.addBot s mode name).1.bots →
      bot.id = s.nextId ∨ bot ∈ s.bots := by
    intro bot hbot
    rcases List.mem_append.mp hbot with hold | hlast
    · exact .inr hold
    · rw [List.mem_singleton.mp hlast]
      exact .inl rfl
  have hfresh : ∀ {bot : Bot}, bot ∈ s.bots → bot.id ≠ s.nextId := by
    intro bot hbot hid
    have hle := (h.bot_pos hbot).2
    rw [hid, h.nextId_eq] at hle
    omega
  refine ⟨nextId_succ h.nextId_eq hissued, ?_, ?_, h.distinct.players, ?_, ?_⟩
  · intro c a ha hshake
    have hpos := h.player_pos ha hshake
    omega
  · intro bot hbot
    rcases hnew hbot with hid | hold
    · rw [hid, h.nextId_eq]
      omega
    · have hpos := h.bot_pos hold
      omega
  · change (s.bots ++ [_]).map _ |>.Nodup
    rw [List.map_append, List.nodup_append]
    refine ⟨h.distinct.bots, List.nodup_singleton _, ?_⟩
    intro id hid id' hid'
    obtain ⟨bot, hbot, rfl⟩ := List.mem_map.mp hid
    rw [List.mem_singleton.mp hid']
    exact hfresh hbot
  · intro c a bot ha hshake hbot
    rcases hnew hbot with hid | hold
    · intro hsame
      have hle := (h.player_pos ha hshake).2
      rw [hsame, hid, h.nextId_eq] at hle
      omega
    · exact h.distinct.apart ha hshake hold

theorem NamesFit.of_lookup (h : NamesFit s) {peer : Peer} {player : Player}
    (hname : player.handshaked = true → player.name.length ≤ maxPlayerName)
    (hlookup : ∀ c, s'.players.lookup c = if c = peer then some player else s.players.lookup c)
    (hbots : s'.bots = s.bots) : NamesFit s' where
  player := by
    intro c a ha hshake
    rw [hlookup] at ha
    split at ha
    · obtain rfl := Option.some.inj ha
      exact hname hshake
    · exact h.player ha hshake
  bot hbot := h.bot (hbots ▸ hbot)

theorem NamesFit.effect (h : NamesFit s) (heffect : Effect now s event s' outs) : NamesFit s' := by
  cases heffect with
  | idle | kicked | said => exact h
  | connected peer hnew => exact h.of_lookup (by simp) (lookup_connected hnew _) rfl
  | joined peer player bytes hello hplayer =>
      exact h.of_lookup (fun _ => length_sanitizeName _) (lookup_seat hplayer hello) rfl
  | stated peer player bytes msg hplayer hshake =>
      refine h.of_lookup ?_ (lookup_setPlayer hplayer _) rfl
      exact fun _ => show player.name.length ≤ maxPlayerName from h.player hplayer hshake
  | chatCounted peer player bytes _ hplayer hshake | chatted peer player bytes _ hplayer hshake =>
      refine h.of_lookup (fun _ => ?_) (lookup_setPlayer hplayer _) rfl
      rw [rollChatWindow_name]
      exact h.player hplayer hshake
  | renamed peer player bytes msg hplayer =>
      exact h.of_lookup (fun _ => length_sanitizeName _) (lookup_setPlayer hplayer _) rfl
  | left peer | dropped peer =>
      refine ⟨?_, h.bot⟩
      intro c a ha hshake
      rw [lookup_withoutPlayer] at ha
      split at ha
      · cases ha
      · exact h.player ha hshake
  | botAdded line mode name =>
      refine ⟨h.player, ?_⟩
      intro bot hbot
      rcases List.mem_append.mp hbot with hold | hlast
      · exact h.bot hold
      · rw [List.mem_singleton.mp hlast]
        exact length_sanitizeName _
  | botsRemoved line removed kept hperm hkept =>
      exact ⟨h.player, fun hbot => h.bot (hkept.subset hbot)⟩
  | botsUpdated pass hkeeps =>
      refine ⟨h.player, ?_⟩
      intro bot hbot
      obtain ⟨old, hold, rfl⟩ := List.mem_map.mp hbot
      rw [(hkeeps old).2]
      exact h.bot hold

end Effects

theorem keeps_reorder (s : Server) (order : Shuffle (Sigma fun _ : Peer => Player)) :
    Keeps s (reorder s order) :=
  .of_lookup rfl (lookup_reorder s order) (.refl _)

section Runs

variable [CppFloat F32] [Libm F32] [Platform]

theorem idsIssued_step {net : Network} (input : Input)
    (hissued : (net.step input).issued < 2 ^ 32 - 1) (h : IdsIssued net.server net.issued) :
    IdsIssued (net.step input).server (net.step input).issued := by
  have hreorder := h.keeps (keeps_reorder net.server input.order)
  have hmoves : net.server.nextId + 1 ≠ net.server.nextId := by simp
  rcases ids_cases (step_effect net.server input) with hkeeps | hjoin | hbot
  · have hsame : (net.step input).issued = net.issued :=
      (congrArg (net.issued + ·) (if_pos hkeeps.nextId_eq)).trans (Nat.add_zero _)
    rw [hsame]
    exact hreorder.keeps hkeeps
  · obtain ⟨peer, player, hello, hplayer, -, hserver⟩ := hjoin
    have hone : (net.step input).issued = net.issued + 1 := by
      refine congrArg (net.issued + ·) (if_neg ?_)
      rw [hserver]
      exact hmoves
    rw [hone] at hissued ⊢
    change IdsIssued (ServerRun.step net.server input).1 _
    rw [hserver]
    exact hreorder.seat hissued hplayer hello
  · obtain ⟨mode, name, hserver⟩ := hbot
    have hone : (net.step input).issued = net.issued + 1 := by
      refine congrArg (net.issued + ·) (if_neg ?_)
      rw [hserver]
      exact hmoves
    rw [hone] at hissued ⊢
    change IdsIssued (ServerRun.step net.server input).1 _
    rw [hserver]
    exact hreorder.addBot hissued mode name

/-- While fewer than `2 ^ 32 - 1` ids were handed out, no two are the same. -/
theorem idsIssued_after (config : Config) (startTime : Time) (inputs : List Input)
    (hissued : (Network.after config startTime inputs).issued < 2 ^ 32 - 1) :
    IdsIssued (Network.after config startTime inputs).server
      (Network.after config startTime inputs).issued := by
  revert hissued
  refine Network.after_induction (P := fun net => net.issued < 2 ^ 32 - 1 →
    IdsIssued net.server net.issued) ?_ ?_ inputs
  · intro _
    exact ⟨rfl, by rintro _ _ ⟨⟩, by rintro _ ⟨⟩, by rintro _ _ _ _ ⟨⟩, List.nodup_nil,
      by rintro _ _ _ ⟨⟩⟩
  · intro inputs input ih hissued
    exact idsIssued_step input hissued (ih ((Nat.le_add_right _ _).trans_lt hissued))

theorem issued_le_run (net : Network) (inputs : List Input) :
    net.issued ≤ (run Network.step net inputs).issued := by
  induction inputs generalizing net with
  | nil => exact Nat.le_refl _
  | cons input inputs ih => exact (Nat.le_add_right _ _).trans (ih (net.step input))

theorem idsDistinct_of_earlier {config : Config} {startTime : Time} {inputs : List Input}
    (hissued : (Network.after config startTime inputs).issued < 2 ^ 32 - 1) (before : List Input)
    (hinit : before <+: inputs) :
    IdsDistinct (Network.after config startTime before).server := by
  obtain ⟨more, rfl⟩ := hinit
  refine (idsIssued_after config startTime before (Nat.lt_of_le_of_lt ?_ hissued)).distinct
  rw [Network.after, Network.after, run_append]
  exact issued_le_run _ more

theorem namesFit_after (config : Config) (startTime : Time) (inputs : List Input) :
    NamesFit (Network.after config startTime inputs).server := by
  refine Network.after_induction (P := fun net => NamesFit net.server)
    ⟨by rintro _ _ ⟨⟩, by rintro _ ⟨⟩⟩ ?_ inputs
  intro inputs input h
  have hreorder : NamesFit (reorder (Network.after config startTime inputs).server input.order) :=
    ⟨fun ha => h.player (by simpa using ha), h.bot⟩
  exact hreorder.effect (step_effect _ input)

end Runs

end F4MP.Participants
