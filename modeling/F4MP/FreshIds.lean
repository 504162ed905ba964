import F4MP.Native
import F4MP.Strangers

/-!
The ids the server hands out: each is new and nobody's special one until the counter
comes to the end of its 32 bits.
-/

namespace F4MP.FreshIds

open F4MP.Types
open F4MP.Arith
open F4MP.ServerModel
open F4MP.ServerConsole
open F4MP.ServerRun
open F4MP.ServerTraffic
open F4MP.ServerEffects
open F4MP.Participants
open F4MP.Strangers
open F4MP.Library.HashTable
open F4MP.Library.Runs

/-- An id that is none of the special ones and that nobody in the game has. -/
structure Fresh (s : Server) (id : PlayerId) : Prop where
  ne_server : id ≠ serverId
  ne_invalid : id ≠ invalidPlayerId
  players : ∀ c player, s.players.lookup c = some player → player.handshaked = true →
    player.id ≠ id
  bots : ∀ bot ∈ s.bots, bot.id ≠ id

theorem fresh_nextId {s : Server} {issued : Nat} (h : IdsIssued s issued) (hissued : issued < 2 ^ 32 - 2) :
    Fresh s s.nextId := by
  have hne : ∀ id : PlayerId, id.toNat ≠ issued + 1 → s.nextId ≠ id := by
    rintro id hid rfl
    exact hid h.nextId_eq
  refine ⟨hne _ ?_, hne _ ?_, fun c player hplayer hshake hid => ?_, fun bot hbot hid => ?_⟩
  · exact (Nat.succ_ne_zero issued).symm
  · rw [show invalidPlayerId.toNat = 2 ^ 32 - 1 from rfl]
    omega
  · have hle := (h.player_pos hplayer hshake).2
    rw [hid, h.nextId_eq] at hle
    omega
  · have hle := (h.bot_pos hbot).2
    rw [hid, h.nextId_eq] at hle
    omega

section Steps

variable [CppFloat F32] [Libm F32] [Platform] {s : Server} {input : Input}

/-- The input makes someone a player, or makes a bot, with the id. -/
def HandsOut (s : Server) (input : Input) (id : PlayerId) : Prop :=
  (∃ c player, joined s c = false ∧ (step s input).1.players.lookup c = some player ∧
    player.handshaked = true ∧ player.id = id) ∨
  ∃ bot, (step s input).1.bots = s.bots ++ [bot] ∧ bot.id = id

/-- An id is handed out exactly when the counter moves on, and it is the counter's. -/
theorem handsOut_iff {id : PlayerId} :
    HandsOut s input id ↔ id = s.nextId ∧ (step s input).1.nextId ≠ s.nextId := by
  have hmoves : s.nextId + 1 ≠ s.nextId := by simp
  have hlonger : ∀ (bots : List Bot) (bot : Bot), bots.length ≤ s.bots.length →
      bots ≠ s.bots ++ [bot] := by
    rintro bots bot hlength rfl
    rw [List.length_append, List.length_singleton] at hlength
    omega
  rcases ids_cases (step_effect s input) with hkeeps |
    ⟨peer, joiner, hello, hjoiner, hshake, hserver⟩ | ⟨mode, name, hserver⟩
  · constructor
    · rintro (⟨c, player, hbefore, hplayer, hshake, -⟩ | ⟨bot, hbots, -⟩)
      · obtain ⟨old, hold, holdshake, -⟩ := hkeeps.player hplayer hshake
        rw [lookup_reorder] at hold
        rw [joined_eq hold, holdshake] at hbefore
        cases hbefore
      · have hlength := hkeeps.bots.length_le
        rw [List.length_map, List.length_map] at hlength
        exact absurd hbots (hlonger _ bot hlength)
    · exact fun h => absurd hkeeps.nextId_eq h.2
  · rw [lookup_reorder] at hjoiner
    have hlookup := lookup_seat (s := reorder s input.order) ((lookup_reorder ..).trans hjoiner) hello
    constructor
    · rintro (⟨c, player, hbefore, hplayer, hplayershake, rfl⟩ | ⟨bot, hbots, -⟩)
      · rw [hserver, hlookup] at hplayer
        split at hplayer
        · obtain rfl := Option.some.inj hplayer
          exact ⟨rfl, by rw [hserver]; exact hmoves⟩
        · rw [lookup_reorder] at hplayer
          rw [joined_eq hplayer, hplayershake] at hbefore
          cases hbefore
      · rw [hserver] at hbots
        exact absurd hbots (hlonger _ bot (Nat.le_refl _))
    · rintro ⟨rfl, -⟩
      refine .inl ⟨peer, welcomedPlayer (reorder s input.order) joiner hello, ?_, ?_, rfl, rfl⟩
      · rw [joined_eq hjoiner, hshake]
      · rw [hserver, hlookup, if_pos rfl]
  · constructor
    · rintro (⟨c, player, hbefore, hplayer, hplayershake, -⟩ | ⟨bot, hbots, rfl⟩)
      · rw [hserver] at hplayer
        have hold : s.players.lookup c = some player := (lookup_reorder ..).symm.trans hplayer
        rw [joined_eq hold, hplayershake] at hbefore
        cases hbefore
      · rw [hserver] at hbots
        obtain rfl := List.singleton_inj.mp (List.append_cancel_left hbots)
        exact ⟨rfl, by rw [hserver]; exact hmoves⟩
    · rintro ⟨rfl, -⟩
      exact .inr ⟨_, by rw [hserver]; rfl, rfl⟩

theorem issued_step (net : Network) (input : Input) : (net.step input).issued =
    net.issued + if (step net.server input).1.nextId = net.server.nextId then 0 else 1 := rfl

/-- Every id handed out in a run is fresh at that moment. -/
def AllFresh (config : Config) (startTime : Time) (inputs : List Input) : Prop :=
  ∀ before input after id, inputs = before ++ input :: after →
    HandsOut (Network.after config startTime before).server input id →
    Fresh (Network.after config startTime before).server id

variable {config : Config} {startTime : Time} {inputs : List Input}

theorem allFresh_of_few (hissued : (Network.after config startTime inputs).issued < 2 ^ 32 - 1) :
    AllFresh config startTime inputs := by
  rintro before input after id rfl hout
  obtain ⟨rfl, hmoved⟩ := handsOut_iff.mp hout
  have hsplit : Network.after config startTime (before ++ input :: after) =
      run Network.step ((Network.after config startTime before).step input) after := by
    rw [Network.after, run_append]
    rfl
  have hle := issued_le_run ((Network.after config startTime before).step input) after
  rw [issued_step, if_neg hmoved] at hle
  rw [hsplit] at hissued
  have hbefore : (Network.after config startTime before).issued < 2 ^ 32 - 2 := by omega
  exact fresh_nextId (idsIssued_after config startTime before (hbefore.trans (by decide))) hbefore

theorem invalid_handed_out
    (hissued : 2 ^ 32 - 1 ≤ (Network.after config startTime inputs).issued) :
    ∃ before input after, inputs = before ++ input :: after ∧
      HandsOut (Network.after config startTime before).server input invalidPlayerId := by
  induction inputs using List.reverseRecOn with
  | nil =>
      rw [Network.after_nil] at hissued
      exact absurd hissued (Nat.not_le_of_lt (Nat.zero_lt_succ _))
  | append_singleton inputs input ih =>
      by_cases hearlier : 2 ^ 32 - 1 ≤ (Network.after config startTime inputs).issued
      · obtain ⟨before, first, after, hsplit, hout⟩ := ih hearlier
        exact ⟨before, first, after ++ [input], by rw [hsplit]; simp, hout⟩
      · rw [Network.after_concat, issued_step] at hissued
        refine ⟨inputs, input, [], rfl, handsOut_iff.mpr ⟨?_, fun hsame => ?_⟩⟩
        · have hids := idsIssued_after config startTime inputs (Nat.lt_of_not_le hearlier)
          refine UInt32.toNat_inj.mp ?_
          rw [hids.nextId_eq, show invalidPlayerId.toNat = 2 ^ 32 - 1 from rfl]
          split at hissued <;> omega
        · rw [if_pos hsame] at hissued
          exact hearlier hissued

/-- The ids of a run are all fresh exactly if fewer than `2 ^ 32 - 1` are handed out. -/
theorem ids_fresh_iff (config : Config) (startTime : Time) (inputs : List Input) :
    AllFresh config startTime inputs ↔
      (Network.after config startTime inputs).issued < 2 ^ 32 - 1 := by
  refine ⟨fun hfresh => ?_, allFresh_of_few⟩
  by_contra hmany
  obtain ⟨before, input, after, hsplit, hout⟩ := invalid_handed_out (Nat.le_of_not_lt hmany)
  exact (hfresh before input after _ hsplit hout).ne_invalid rfl

def botAdd : Input := ⟨0, .keep _, .command (ascii "bot add")⟩

def botRemoveAll : Input := ⟨0, .keep _, .command (ascii "bot remove all")⟩

/-- A bot that is added and removed, again and again. -/
def botCycles : Nat → List Input
  | 0 => []
  | n + 1 => botCycles n ++ [botAdd] ++ [botRemoveAll]

theorem step_botAdd (s : Server) :
    step s botAdd = addBot (reorder s (.keep _)) .kMirror [] := by
  have hsplit : ServerConsole.split (ascii "bot add") = [ascii "bot", ascii "add"] := by decide
  simp only [step, botAdd, handle, executeCommand, hsplit, executeBot, executeBotAdd, if_true]

theorem step_botRemoveAll (s : Server) : (step s botRemoveAll).1 = { s with bots := [] } := by
  have hsplit : ServerConsole.split (ascii "bot remove all") =
      [ascii "bot", ascii "remove", ascii "all"] := by decide
  have hother : ascii "remove" ≠ ascii "add" := by decide
  have hstep : step s botRemoveAll =
      removeAllBots (reorder s (.keep _)).bots.length (reorder s (.keep _)) := by
    simp only [step, botRemoveAll, handle, executeCommand, hsplit, executeBot, executeBotRemove,
      if_neg hother, if_true]
  obtain ⟨_, kept, _, _, hall⟩ := removeAllBots_eq s.bots.length (reorder s (.keep _))
  have hnone := removeAllBots_bots (reorder s (.keep _))
  rw [hstep]
  rw [show (reorder s (.keep _)).bots.length = s.bots.length from rfl, hall] at hnone ⊢
  obtain rfl : kept = [] := hnone
  rfl

theorem issued_botCycles (config : Config) (startTime : Time) (n : Nat) :
    (Network.after config startTime (botCycles n)).issued = n := by
  induction n with
  | zero => rfl
  | succ n ih =>
      have hadded : ∀ s : Server, (step s botAdd).1.nextId ≠ s.nextId := by
        intro s
        rw [step_botAdd]
        exact (by simp : s.nextId + 1 ≠ s.nextId)
      rw [botCycles, Network.after_concat, issued_step, if_pos (by rw [step_botRemoveAll]),
        Network.after_concat, issued_step, if_neg (hadded _), ih]

end Steps

section Example

open F4MP.Native

/-- Enough cycles hand out the id that means nobody. -/
theorem invalid_after_cycles : ¬ AllFresh {} 0 (botCycles (2 ^ 32 - 1)) := by
  intro hfresh
  obtain ⟨before, input, after, hsplit, hout⟩ :=
    invalid_handed_out (issued_botCycles {} 0 (2 ^ 32 - 1)).ge
  exact (hfresh before input after _ hsplit hout).ne_invalid rfl

end Example

end F4MP.FreshIds
