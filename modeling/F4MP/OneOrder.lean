import F4MP.ServerEffects
import F4MP.Native

/-!
Everyone in the game is told the same, in one order: what two players are told while both
are there differs only in what is an answer to one of them, and in the states.
-/

namespace F4MP.OneOrder

open F4MP.Types
open F4MP.Protocol
open F4MP.Messages
open F4MP.Arith
open F4MP.ServerModel
open F4MP.ServerConsole
open F4MP.ServerRun
open F4MP.ServerTraffic
open F4MP.ServerEffects
open F4MP.Library.Runs

def slowDown : Bytes := encode { text := ascii "Slow down." : ChatBroadcastMsg }

/-- What is sent reliably and is no answer to the one it goes to. -/
def isPublic (sent : Sent) : Bool :=
  sent.channel = .kReliable && kind sent ≠ some .kReject && sent.bytes ≠ slowDown

/-- The part of what one peer is sent that is for everyone. -/
def publicTo (c : Peer) (now : Time) (outs : List Out) : List Sent :=
  (sentTo c now outs).filter isPublic

variable {s s' : Server} {now : Time} {event : Event} {outs : List Out} {c d : Peer}

theorem publicTo_append (c : Peer) (now : Time) (outs more : List Out) :
    publicTo c now (outs ++ more) = publicTo c now outs ++ publicTo c now more := by
  rw [publicTo, sentTo_append, List.filter_append, publicTo, publicTo]

theorem publicTo_flatMap {α : Type} (c : Peer) (now : Time) (items : List α) (f : α → List Out) :
    publicTo c now (items.flatMap f) = items.flatMap fun item => publicTo c now (f item) := by
  rw [publicTo, sentTo_flatMap, List.filter_flatMap]
  rfl

theorem publicTo_broadcast (hc : joined s c = true) (hd : joined s d = true) (channel : Channel)
    (bytes : Bytes) :
    publicTo c now (broadcast s channel bytes none) =
      publicTo d now (broadcast s channel bytes none) := by
  rw [publicTo, publicTo, sentTo_broadcast, sentTo_broadcast, hc, hd]
  rfl

theorem publicTo_serverChat (hc : joined s c = true) (hd : joined s d = true) (text : Bytes) :
    publicTo c now (serverChat s text) = publicTo d now (serverChat s text) :=
  publicTo_broadcast hc hd _ _

theorem publicTo_unreliable (c : Peer) (now : Time) (s : Server) (bytes : Bytes)
    (except : Option Peer) : publicTo c now (broadcast s .kUnreliable bytes except) = [] := by
  rw [publicTo, sentTo_broadcast]
  split <;> rfl

theorem publicTo_kick (c peer : Peer) (now : Time) (reason : Bytes) :
    publicTo c now (kick peer reason) = [] := by
  rw [publicTo, sentTo_kick]
  split
  · simp [isPublic]
  · rfl

theorem publicTo_slowDown (c peer : Peer) (now : Time) :
    publicTo c now (send peer .kReliable slowDown) = [] := by
  rw [publicTo, sentTo_send]
  split
  · simp [isPublic]
  · rfl

theorem publicTo_effect (h : Effect now s event s' outs) (hc : joined s c = true)
    (hd : joined s d = true) (hc' : joined s' c = true) (hd' : joined s' d = true) :
    publicTo c now outs = publicTo d now outs := by
  cases h with
  | idle | connected | dropped => rfl
  | kicked peer reason => rw [publicTo_kick, publicTo_kick]
  | joined peer player bytes hello hplayer hshake hdecode hversion =>
      -- the newcomer is neither of them
      have hother : ∀ e, joined s e = true → peer ≠ e := by
        rintro e he rfl
        rw [joined_eq hplayer, hshake] at he
        cases he
      rw [publicTo, publicTo, sentTo_greet, sentTo_greet, if_neg (hother c hc),
        if_neg (hother d hd), hc', hd']
  | stated peer player bytes msg hplayer hshake hdecode hok =>
      rw [acceptState, publicTo_unreliable, publicTo_unreliable]
  | chatCounted peer player bytes outs hplayer hshake houts =>
      rcases houts with rfl | rfl
      · rfl
      · rw [show encode _ = slowDown from rfl, publicTo_slowDown, publicTo_slowDown]
  | chatted | renamed => exact publicTo_broadcast hc' hd' _ _
  | left peer player hplayer hshake =>
      rw [publicTo_append, publicTo_append, publicTo_broadcast hc' hd', publicTo_serverChat hc' hd']
  | botAdded line mode name =>
      obtain ⟨bot, -, -, -, houts⟩ := addBot_spec s mode name
      rw [houts, publicTo_append, publicTo_append, publicTo_broadcast hc hd,
        publicTo_serverChat hc hd]
  | botsRemoved line removed kept hperm hkept =>
      rw [publicTo_flatMap, publicTo_flatMap]
      refine congrArg removed.flatMap (funext fun bot => ?_)
      rw [farewell, publicTo_append, publicTo_append, publicTo_broadcast hc hd,
        publicTo_serverChat hc hd]
  | said line text => exact publicTo_serverChat hc hd text
  | botsUpdated pass hkeeps houts =>
      rw [publicTo_flatMap, publicTo_flatMap]
      refine congrArg s.bots.flatMap (funext fun bot => ?_)
      rcases houts bot with hnone | ⟨msg, -, -, hsent⟩
      · rw [hnone]
        rfl
      · rw [hsent, publicTo_unreliable, publicTo_unreliable]

section Runs

variable [CppFloat F32] [Libm F32] [Platform]

/-- Both are players after every part of a run that goes on after another. -/
def StayFor (config : Config) (startTime : Time) (before during : List Input) (c d : Peer) : Prop :=
  ∀ part, part <+: during →
    joined (Network.after config startTime (before ++ part)).server c = true ∧
      joined (Network.after config startTime (before ++ part)).server d = true

omit [CppFloat F32] [Libm F32] [Platform] in
theorem opens_of_joined (hc : joined s c = true) (input : Input) : opens s input c = false := by
  obtain ⟨player, hplayer, -⟩ := joined_iff.mp hc
  cases hopens : opens s input c with
  | false => rfl
  | true => exact absurd (lookup_of_opens hopens) (by rw [hplayer]; rintro ⟨⟩)

/-- Everyone is told the same, in one order: of what two players are sent while both are
there, the part that is for everyone is the same list. -/
theorem told_in_one_order (config : Config) (startTime : Time) (before during : List Input)
    (c d : Peer) (hstay : StayFor config startTime before during c d) :
    ∃ toC toD, (Network.after config startTime (before ++ during)).link c =
        (Network.after config startTime before).link c ++ toC ∧
      (Network.after config startTime (before ++ during)).link d =
        (Network.after config startTime before).link d ++ toD ∧
      toC.filter isPublic = toD.filter isPublic := by
  induction during using List.reverseRecOn with
  | nil => exact ⟨[], [], by simp, by simp, rfl⟩
  | append_singleton during input ih =>
      obtain ⟨toC, toD, hlinkC, hlinkD, hsame⟩ :=
        ih fun part hpart => hstay part (hpart.trans (List.prefix_append _ _))
      obtain ⟨hc, hd⟩ := hstay during (List.prefix_append _ _)
      obtain ⟨hc', hd'⟩ := hstay _ List.prefix_rfl
      rw [← List.append_assoc, Network.after_concat] at hc' hd' ⊢
      have hstep := publicTo_effect (step_effect _ input)
        (by rwa [joined_reorder]) (by rwa [joined_reorder]) hc' hd'
      simp only [Network.step, opens_of_joined hc, opens_of_joined hd, hlinkC, hlinkD]
      refine ⟨_, _, List.append_assoc _ _ _, List.append_assoc _ _ _, ?_⟩
      rw [List.filter_append, List.filter_append, hsame]
      exact congrArg _ hstep

end Runs

section Example

open F4MP.Native

def spoken : List Input :=
  [⟨0, .keep _, .receive 0 (encode { text := ascii "hi" : ChatMsg })⟩,
    ⟨0, .keep _, .command (ascii "say hello")⟩]

/-- Both players are told of both, in this order. -/
theorem told_to_two : ∃ toC toD,
    (Network.after {} 0 (twoPlayers ++ spoken)).link 0 =
        (Network.after {} 0 twoPlayers).link 0 ++ toC ∧
      (Network.after {} 0 (twoPlayers ++ spoken)).link 1 =
        (Network.after {} 0 twoPlayers).link 1 ++ toD ∧
      toC.filter isPublic = toD.filter isPublic := by
  refine told_in_one_order {} 0 twoPlayers spoken 0 1 fun part hpart => ?_
  have hparts : ∀ part ∈ spoken.inits,
      joined (Network.after {} 0 (twoPlayers ++ part)).server 0 = true ∧
        joined (Network.after {} 0 (twoPlayers ++ part)).server 1 = true := by
    decide +kernel
  exact hparts part ((List.mem_inits _ _).mpr hpart)

end Example

end F4MP.OneOrder
