import F4MP.Library.FixedWindow
import F4MP.Native
import F4MP.ServerEffects

/-!
The chat flood control over whole runs: the window that each connection carries, what
one chat message does to it, and how much of what a player says is passed on in any
five seconds.
-/

namespace F4MP.ChatFlood

open F4MP.Types
open F4MP.Protocol
open F4MP.Messages
open F4MP.ServerModel
open F4MP.ServerConsole
open F4MP.Arith
open F4MP.ServerRun
open F4MP.ServerTraffic
open F4MP.ServerEffects
open F4MP.Library.FixedWindow

/-- An event that brings a chat message of the peer. -/
def isChat (peer : Peer) : Event → Bool
  | .receive sender bytes =>
      sender = peer &&
        match decode bytes with
        | some (.chat _) => true
        | _ => false
  | _ => false

theorem isChat_iff {peer : Peer} {event : Event} : isChat peer event = true ↔
    ∃ bytes msg, event = .receive peer bytes ∧ decode bytes = some (.chat msg) := by
  constructor
  · intro h
    cases event with
    | receive sender bytes =>
        simp only [isChat, Bool.and_eq_true, decide_eq_true_eq] at h
        obtain ⟨rfl, h⟩ := h
        split at h
        · rename_i msg hdecode
          exact ⟨bytes, msg, rfl, hdecode⟩
        · cases h
    | _ => cases h
  · rintro ⟨bytes, msg, rfl, hdecode⟩
    simp [isChat, hdecode]

/-- The chat messages of the peer that come within a window's length from `start`. -/
def chatsIn (peer : Peer) (start : Time) (inputs : List Input) : Nat :=
  inputs.countP fun input =>
    isChat peer input.event && start ≤ input.now && input.now < start + chatWindow

def readBroadcast (bytes : Bytes) : Option ChatBroadcastMsg :=
  match decode bytes with
  | some (.chatBroadcast msg) => some msg
  | _ => none

theorem readBroadcast_encode (msg : ChatBroadcastMsg) : ∃ text,
    readBroadcast (encode msg) = some { msg with text } := by
  rw [readBroadcast, decode_chatBroadcast]
  exact ⟨_, rfl⟩

@[simp] theorem readBroadcast_reject (msg : RejectMsg) : readBroadcast (encode msg) = none := by
  rw [readBroadcast, decode_reject]
  rfl

/-- The chat broadcasts among the packets of a step. -/
def broadcasts (outs : List Out) : List ChatBroadcastMsg :=
  outs.filterMap fun out =>
    match out with
    | .send _ _ bytes => readBroadcast bytes
    | .disconnectLater _ => none

def idOf (s : Server) (peer : Peer) : PlayerId :=
  ((s.players.lookup peer).map (·.id)).getD invalidPlayerId

def limiter (s : Server) (peer : Peer) : Limiter :=
  match s.players.lookup peer with
  | none => {}
  | some player => ⟨player.chatWindowStart, player.chatWindowCount.toNat⟩

theorem limiter_eq {s : Server} {peer : Peer} {player : Player}
    (hplayer : s.players.lookup peer = some player) :
    limiter s peer = ⟨player.chatWindowStart, player.chatWindowCount.toNat⟩ := by
  simp only [limiter, hplayer]

theorem limiter_congr {s s' : Server} {peer : Peer}
    (hsame : s'.players.lookup peer = s.players.lookup peer) : limiter s' peer = limiter s peer := by
  rw [limiter, hsame, limiter]

theorem hit_rollChatWindow {player : Player} {now : Time}
    (hcount : (Limiter.roll chatWindow
      ⟨player.chatWindowStart, player.chatWindowCount.toNat⟩ now).count + 1 < 2 ^ 32) :
    (⟨(rollChatWindow player now).chatWindowStart,
        (rollChatWindow player now).chatWindowCount.toNat⟩ : Limiter) =
      Limiter.hit chatWindow ⟨player.chatWindowStart, player.chatWindowCount.toNat⟩ now := by
  by_cases hnext : chatWindow ≤ now - player.chatWindowStart
  · rw [Limiter.hit, Limiter.roll, if_pos hnext, rollChatWindow, if_pos hnext]
    rfl
  · rw [Limiter.roll, if_neg hnext] at hcount
    rw [Limiter.hit, Limiter.roll, if_neg hnext, rollChatWindow, if_neg hnext]
    dsimp only at hcount ⊢
    rw [UInt32.toNat_add, UInt32.toNat_one, Nat.mod_eq_of_lt hcount]

@[simp] theorem broadcasts_nil : broadcasts [] = [] := rfl

@[simp] theorem broadcasts_kick (peer : Peer) (reason : Bytes) :
    broadcasts (kick peer reason) = [] := by
  simp [broadcasts, kick, send]

theorem sender_of_send {peer : Peer} {channel : Channel} {msg m : ChatBroadcastMsg}
    (hm : m ∈ broadcasts (send peer channel (encode msg))) : m.sender = msg.sender := by
  obtain ⟨text, hread⟩ := readBroadcast_encode msg
  simp only [broadcasts, send, List.filterMap_cons, hread, List.filterMap_nil,
    List.mem_singleton] at hm
  rw [hm]

theorem sender_of_broadcast {s : Server} {channel : Channel} {msg m : ChatBroadcastMsg}
    {except : Option Peer} (hm : m ∈ broadcasts (broadcast s channel (encode msg) except)) :
    m.sender = msg.sender := by
  obtain ⟨out, hout, hm⟩ := List.mem_filterMap.mp hm
  obtain ⟨entry, -, hentry⟩ := List.mem_filterMap.mp hout
  split at hentry
  · cases hentry
  · obtain rfl := Option.some.inj hentry
    obtain ⟨text, hread⟩ := readBroadcast_encode msg
    obtain rfl := Option.some.inj (hread.symm.trans hm)
    rfl

theorem acceptChat_counted {s : Server} {peer : Peer} {player : Player}
    (hplayer : s.players.lookup peer = some player) (now : Time) (text : Bytes) :
    (acceptChat s now peer player text).1.players.lookup peer = some (rollChatWindow player now) ∧
    ((∃ msg ∈ broadcasts (acceptChat s now peer player text).2,
      msg.sender = player.id ∧ msg.sender ≠ serverId) →
        (rollChatWindow player now).chatWindowCount.toNat ≤ 6) ∧
    ((∃ msg ∈ broadcasts (acceptChat s now peer player text).2,
      (msg.sender = serverId ∧ msg.sender ≠ player.id) ∧ msg.text = ascii "Slow down.") →
        (rollChatWindow player now).chatWindowCount.toNat = 7) := by
  have hlookup : (setPlayer s peer (rollChatWindow player now)).players.lookup peer =
      some (rollChatWindow player now) := by
    rw [lookup_setPlayer hplayer, if_pos rfl]
  unfold acceptChat
  dsimp only
  split
  · -- over the limit: only the server answers
    rename_i hover
    refine ⟨hlookup, ?_, ?_⟩
    · rintro ⟨msg, hmsg, -, hsender⟩
      split at hmsg
      · exact absurd (sender_of_send hmsg) hsender
      · cases hmsg
    · rintro ⟨msg, hmsg, -⟩
      split at hmsg
      · rename_i hseven
        rw [hseven]
        rfl
      · cases hmsg
  · rename_i hwithin
    have hsix : (rollChatWindow player now).chatWindowCount.toNat ≤ 6 :=
      Nat.le_of_not_lt fun hlt => hwithin (UInt32.lt_iff_toNat_lt.mpr hlt)
    split
    · exact ⟨hlookup, fun _ => hsix, by simp⟩
    · refine ⟨hlookup, fun _ => hsix, ?_⟩
      rintro ⟨msg, hmsg, ⟨-, hother⟩, -⟩
      exact absurd ((sender_of_broadcast hmsg).trans (rollChatWindow_id player now)) hother

theorem limiter_of_other {s : Server} {now : Time} {peer : Peer} {bytes : Bytes}
    (hother : isChat peer (.receive peer bytes) = false) :
    limiter (handlePacket s now peer bytes).1 peer = limiter s peer := by
  cases hplayer : s.players.lookup peer with
  | none => rw [handlePacket, hplayer]
  | some player =>
      have hset : ∀ (s' : Server) (player' : Player), s'.players.lookup peer = some player' →
          player'.chatWindowStart = player.chatWindowStart →
          player'.chatWindowCount = player.chatWindowCount → limiter s' peer = limiter s peer := by
        intro s' player' hplayer' hstart hcount
        rw [limiter_eq hplayer', limiter_eq hplayer, hstart, hcount]
      rw [handlePacket_eq hplayer]
      dsimp only
      split
      · rfl
      split
      · rfl
      cases hdecode : decode bytes with
      | none =>
          dsimp only
          split <;> rfl
      | some m =>
          cases m with
          | hello hello =>
              dsimp only [acceptHello]
              split
              · rfl
              split
              · rfl
              · exact hset _ _ (lookup_seat hplayer hello peer |>.trans (if_pos rfl)) rfl rfl
          | playerState msg =>
              dsimp only [acceptState]
              split
              · exact hset _ _ (lookup_setPlayer hplayer _ peer |>.trans (if_pos rfl)) rfl rfl
              · rfl
          | chat msg =>
              have hchat : isChat peer (.receive peer bytes) = true :=
                isChat_iff.mpr ⟨bytes, msg, rfl, hdecode⟩
              rw [hother] at hchat
              cases hchat
          | setName msg =>
              dsimp only [acceptName]
              split
              · rfl
              · exact hset _ _ (lookup_setPlayer hplayer _ peer |>.trans (if_pos rfl)) rfl rfl
          | _ => rfl

theorem limiter_of_disconnect (s : Server) (peer : Peer) :
    limiter (handleDisconnect s peer).1 peer = {} := by
  cases hplayer : s.players.lookup peer with
  | none => simp only [handleDisconnect, hplayer, limiter]
  | some player =>
      have hgone : (s.players.erase peer).lookup peer = none := AList.lookup_erase _ _
      simp only [handleDisconnect, hplayer]
      split <;> simp only [limiter, hgone]

section Step

variable [CppFloat F32] [Libm F32] [Platform]

/-- The server passes on what the player says in a chat message.  The id of the server
itself is nobody's. -/
def relayed (peer : Peer) (s : Server) (input : Input) : Bool :=
  isChat peer input.event && (broadcasts (step s input).2).any fun msg =>
    msg.sender == idOf s peer && msg.sender != serverId

/-- The server answers a chat message of the player itself. -/
def warned (peer : Peer) (s : Server) (input : Input) : Bool :=
  isChat peer input.event && (broadcasts (step s input).2).any fun msg =>
    msg.sender == serverId && msg.sender != idOf s peer && msg.text == ascii "Slow down."

theorem relayed_iff {peer : Peer} {s : Server} {input : Input} :
    relayed peer s input = true ↔ isChat peer input.event = true ∧
      ∃ msg ∈ broadcasts (step s input).2, msg.sender = idOf s peer ∧ msg.sender ≠ serverId := by
  simp [relayed]

theorem warned_iff {peer : Peer} {s : Server} {input : Input} :
    warned peer s input = true ↔ isChat peer input.event = true ∧
      ∃ msg ∈ broadcasts (step s input).2,
        (msg.sender = serverId ∧ msg.sender ≠ idOf s peer) ∧ msg.text = ascii "Slow down." := by
  simp [warned]

/-- What a chat message that counts does: it hits the window, and its number in the window
decides what becomes of it. -/
structure Counted (peer : Peer) (s : Server) (input : Input) : Prop where
  chat : isChat peer input.event = true
  hits : ((limiter s peer).roll chatWindow input.now).count + 1 < 2 ^ 32 →
    limiter (step s input).1 peer = (limiter s peer).hit chatWindow input.now
  relayed : relayed peer s input = true → (limiter (step s input).1 peer).count ≤ 6
  warned : warned peer s input = true → (limiter (step s input).1 peer).count = 7

theorem limiter_of_elsewhere {s : Server} {input : Input} {peer : Peer}
    (hstay : input.event ≠ .disconnect peer)
    (helse : ∀ bytes, input.event ≠ .receive peer bytes) :
    limiter (step s input).1 peer = limiter s peer := by
  rcases (step_effect s input).lookup_cases peer with
    hsame | ⟨-, hnew, hfresh⟩ | ⟨hgone, -⟩ | ⟨_, bytes, _, hevent, -⟩ | ⟨_, _, bytes, hevent, -⟩
  · exact limiter_congr (hsame.trans (lookup_reorder s input.order peer))
  · rw [lookup_reorder] at hnew
    rw [limiter_eq hfresh]
    simp only [limiter, hnew]
    rfl
  · exact absurd hgone hstay
  · exact absurd hevent (helse bytes)
  · exact absurd hevent (helse bytes)

/-- A step that neither counts a chat message nor answers it. -/
structure Quiet (peer : Peer) (s : Server) (input : Input) : Prop where
  same : limiter (step s input).1 peer = limiter s peer
  relayed : relayed peer s input = false
  warned : warned peer s input = false

theorem quiet_of {peer : Peer} {s : Server} {input : Input}
    (hsame : limiter (step s input).1 peer = limiter s peer)
    (h : isChat peer input.event = false ∨ broadcasts (step s input).2 = []) :
    Quiet peer s input := by
  refine ⟨hsame, ?_, ?_⟩
  · rcases h with h | h <;> simp [relayed, h]
  · rcases h with h | h <;> simp [warned, h]

theorem chat_step_of_chat {s : Server} {input : Input} {peer : Peer}
    (hchat : isChat peer input.event = true) : Quiet peer s input ∨ Counted peer s input := by
  obtain ⟨bytes, msg, hevent, hdecode⟩ := isChat_iff.mp hchat
  have hstep : step s input = handlePacket (reorder s input.order) input.now peer bytes := by
    rw [step, hevent]
    rfl
  have hunheard : ∀ outs, step s input = (reorder s input.order, outs) →
      broadcasts outs = [] → Quiet peer s input := by
    intro outs hsame hquiet
    refine quiet_of ?_ (.inr ?_)
    · rw [hsame]
      exact limiter_congr (lookup_reorder s input.order peer)
    · rw [hsame]
      exact hquiet
  cases hplayer : s.players.lookup peer with
  | none =>
      refine .inl (hunheard [] ?_ rfl)
      rw [hstep, handlePacket, lookup_reorder, hplayer]
  | some player =>
      have hplayer' : (reorder s input.order).players.lookup peer = some player := by
        rw [lookup_reorder, hplayer]
      have hid : idOf s peer = player.id := by
        simp [idOf, hplayer]
      rw [handlePacket_eq hplayer', hdecode] at hstep
      dsimp only at hstep
      split at hstep
      · exact .inl (hunheard _ hstep rfl)
      split at hstep
      · exact .inl (hunheard _ hstep (broadcasts_kick _ _))
      split at hstep
      · exact .inl (hunheard _ hstep rfl)
      obtain ⟨hlookup, hrelayed, hwarned⟩ :=
        acceptChat_counted hplayer' input.now msg.text
      rw [← hstep] at hlookup hrelayed hwarned
      refine .inr ⟨hchat, ?_, ?_, ?_⟩
      · intro hcount
        rw [limiter_eq hplayer] at hcount ⊢
        rw [limiter_eq hlookup]
        exact hit_rollChatWindow hcount
      · intro h
        rw [limiter_eq hlookup]
        exact hrelayed (hid ▸ (relayed_iff.mp h).2)
      · intro h
        rw [limiter_eq hlookup]
        exact hwarned (hid ▸ (warned_iff.mp h).2)

theorem chat_step {s : Server} {input : Input} {peer : Peer}
    (hstay : input.event ≠ .disconnect peer) : Quiet peer s input ∨ Counted peer s input := by
  cases hchat : isChat peer input.event with
  | true => exact chat_step_of_chat hchat
  | false =>
      refine .inl (quiet_of ?_ (.inl hchat))
      by_cases helse : ∃ bytes, input.event = .receive peer bytes
      · obtain ⟨bytes, hevent⟩ := helse
        rw [hevent] at hchat
        rw [step, hevent]
        exact (limiter_of_other hchat).trans (limiter_congr (lookup_reorder s input.order peer))
      · exact limiter_of_elsewhere hstay fun bytes hevent => helse ⟨bytes, hevent⟩

end Step

/-- How a window stands to the inputs so far. -/
structure Tracked (peer : Peer) (inputs : List Input) (window : Limiter) : Prop where
  begun : ∀ now, (∀ input ∈ inputs, input.now ≤ now) → window.start ≤ now
  counted : window.count ≤ chatsIn peer window.start inputs
  worn : window.Worn

theorem Tracked.fresh (peer : Peer) (inputs : List Input) : Tracked peer inputs {} :=
  ⟨fun _ _ => Nat.zero_le _, Nat.zero_le _, .inr rfl⟩

theorem Tracked.concat {peer : Peer} {inputs : List Input} {window : Limiter}
    (h : Tracked peer inputs window) (input : Input) : Tracked peer (inputs ++ [input]) window where
  begun now hlast := h.begun now fun other hother => hlast other (List.mem_append_left _ hother)
  counted := by
    rw [chatsIn, List.countP_append]
    exact Nat.le_trans h.counted (Nat.le_add_right _ _)
  worn := h.worn

theorem Tracked.hit {peer : Peer} {inputs : List Input} {window : Limiter}
    (h : Tracked peer inputs window) {input : Input}
    (hclock : (inputs ++ [input]).Pairwise fun a b => a.now ≤ b.now)
    (hchat : isChat peer input.event = true) :
    Tracked peer (inputs ++ [input]) (window.hit chatWindow input.now) := by
  have hbegun : window.start ≤ input.now := by
    apply h.begun
    intro other hother
    exact (List.pairwise_append.mp hclock).2.2 other hother input (List.mem_singleton_self _)
  have hone : ∀ start, start ≤ input.now → input.now < start + chatWindow →
      chatsIn peer start (inputs ++ [input]) = chatsIn peer start inputs + 1 := by
    intro start hstart hwithin
    simp [chatsIn, hchat, hstart, hwithin]
  refine ⟨?_, ?_, window.hit_worn input.now⟩
  · intro now hlast
    rw [Limiter.hit, Limiter.roll]
    split
    · exact hlast input (List.mem_append_right _ (List.mem_singleton_self _))
    · exact h.begun now fun other hother => hlast other (List.mem_append_left _ hother)
  · rw [Limiter.hit, Limiter.roll]
    split
    · rw [hone _ (Nat.le_refl _) (Nat.lt_add_of_pos_right (by decide))]
      exact Nat.le_add_left _ _
    · rename_i hwithin
      have hwithin' : input.now < window.start + chatWindow := by
        have hlt := Nat.lt_of_not_le hwithin
        exact (Nat.sub_lt_iff_lt_add' hbegun).mp hlt
      rw [hone _ hbegun hwithin']
      exact Nat.add_le_add_right h.counted 1

/-- The steps with the property that fall within a window's length from `start`. -/
def tally [CppFloat F32] [Libm F32] [Platform] (p : Server → Input → Bool) (start : Time) :
    Server → List Input → Nat
  | _, [] => 0
  | s, input :: inputs =>
      (if start ≤ input.now && input.now < start + chatWindow && p s input then 1 else 0) +
        tally p start (step s input).1 inputs

theorem relays_budget : Budget (fun n => decide (n ≤ 6)) fun count => 6 - count := by
  intro count
  simp only [decide_eq_true_eq]
  split <;> omega

theorem warnings_budget :
    Budget (fun n => decide (n = 7)) fun count => if count ≤ 6 then 1 else 0 := by
  intro count
  simp only [decide_eq_true_eq]
  split <;> split <;> split <;> omega

section Runs

variable [CppFloat F32] [Libm F32] [Platform]

theorem Counted.hit {peer : Peer} {s : Server} {input : Input} (h : Counted peer s input)
    {inputs : List Input} (htracked : Tracked peer inputs (limiter s peer))
    (hclock : (inputs ++ [input]).Pairwise fun a b => a.now ≤ b.now)
    (hfew : ∀ start, chatsIn peer start (inputs ++ [input]) < 2 ^ 32) :
    limiter (step s input).1 peer = (limiter s peer).hit chatWindow input.now :=
  h.hits (Nat.lt_of_le_of_lt (htracked.hit hclock h.chat).counted (hfew _))

theorem tracked_step {peer : Peer} {s : Server} {input : Input} {inputs : List Input}
    (htracked : Tracked peer inputs (limiter s peer))
    (hclock : (inputs ++ [input]).Pairwise fun a b => a.now ≤ b.now)
    (hfew : ∀ start, chatsIn peer start (inputs ++ [input]) < 2 ^ 32) :
    Tracked peer (inputs ++ [input]) (limiter (step s input).1 peer) := by
  by_cases hstay : input.event = .disconnect peer
  · rw [step, hstay]
    exact (limiter_of_disconnect _ peer).symm ▸ Tracked.fresh peer _
  · rcases chat_step hstay with hquiet | hcounted
    · rw [hquiet.same]
      exact htracked.concat input
    · rw [hcounted.hit htracked hclock hfew]
      exact htracked.hit hclock hcounted.chat

theorem tracked_after (config : Config) (startTime : Time) (peer : Peer) {inputs : List Input}
    (hclock : inputs.Pairwise fun a b => a.now ≤ b.now)
    (hfew : ∀ start, chatsIn peer start inputs < 2 ^ 32) :
    Tracked peer inputs (limiter (Network.after config startTime inputs).server peer) := by
  induction inputs using List.reverseRecOn with
  | nil => exact Tracked.fresh peer []
  | append_singleton inputs input ih =>
      rw [Network.after_concat]
      refine tracked_step (ih (List.pairwise_append.mp hclock).1 fun start => ?_) hclock hfew
      refine Nat.lt_of_le_of_lt ?_ (hfew start)
      exact List.Sublist.countP_le (List.sublist_append_left inputs [input])

/-- Only a chat message that counts can have the property, and only with a good number. -/
structure Limited (peer : Peer) (good : Nat → Bool) (p : Server → Input → Bool) : Prop where
  quiet : ∀ s input, Quiet peer s input → p s input = false
  counted : ∀ s input, Counted peer s input → p s input = true →
    good (limiter (step s input).1 peer).count = true

theorem relayed_limited (peer : Peer) : Limited peer (fun n => decide (n ≤ 6)) (relayed peer) where
  quiet _ _ h := h.relayed
  counted _ _ h hp := decide_eq_true (h.relayed hp)

theorem warned_limited (peer : Peer) : Limited peer (fun n => decide (n = 7)) (warned peer) where
  quiet _ _ h := h.warned
  counted _ _ h hp := decide_eq_true (h.warned hp)

theorem tally_le_goodHits {peer : Peer} {good : Nat → Bool} {p : Server → Input → Bool}
    (hlimited : Limited peer good p) (start : Time) {s : Server} {before inputs : List Input}
    (htracked : Tracked peer before (limiter s peer))
    (hclock : (before ++ inputs).Pairwise fun a b => a.now ≤ b.now)
    (hfew : ∀ start, chatsIn peer start (before ++ inputs) < 2 ^ 32)
    (hstay : ∀ input ∈ inputs, input.event ≠ .disconnect peer) :
    ∃ times, times.Sublist (inputs.map (·.now)) ∧
      tally p start s inputs ≤ goodHits chatWindow good start (limiter s peer) times := by
  induction inputs generalizing s before with
  | nil => exact ⟨[], .refl _, Nat.le_refl _⟩
  | cons input inputs ih =>
      have hfirst : before ++ input :: inputs = (before ++ [input]) ++ inputs := by simp
      rw [hfirst] at hclock hfew
      have hclock' := (List.pairwise_append.mp hclock).1
      have hfew' : ∀ start, chatsIn peer start (before ++ [input]) < 2 ^ 32 := by
        intro start
        refine Nat.lt_of_le_of_lt ?_ (hfew start)
        exact List.Sublist.countP_le (List.sublist_append_left _ inputs)
      obtain ⟨times, hsub, hle⟩ := ih (tracked_step htracked hclock' hfew') hclock hfew
        fun other hother => hstay other (List.mem_cons_of_mem _ hother)
      rcases chat_step (hstay input List.mem_cons_self) with hquiet | hcounted
      · refine ⟨times, hsub.cons _, ?_⟩
        rw [hquiet.same] at hle
        simpa [tally, hlimited.quiet s input hquiet] using hle
      · refine ⟨input.now :: times, hsub.cons_cons _, ?_⟩
        have hhit := hcounted.hit htracked hclock' hfew'
        rw [hhit] at hle
        rw [tally, goodHits]
        refine Nat.add_le_add ?_ hle
        cases hp : p s input with
        | false => simp
        | true =>
            have hgood := hlimited.counted s input hcounted hp
            rw [hhit] at hgood
            rw [hgood]

section Budget

variable {peer : Peer} {good : Nat → Bool} {p : Server → Input → Bool} {budget : Nat → Nat}
  {start : Time} {s : Server} {before : List Input}

theorem tally_le (h : Budget good budget) (hlimited : Limited peer good p) {inputs : List Input}
    (htracked : Tracked peer before (limiter s peer))
    (hclock : (before ++ inputs).Pairwise fun a b => a.now ≤ b.now)
    (hfew : ∀ start, chatsIn peer start (before ++ inputs) < 2 ^ 32)
    (hstay : ∀ input ∈ inputs, input.event ≠ .disconnect peer) :
    tally p start s inputs ≤ budget 0 + budget 0 ∧
      (chatWindow ≤ start → tally p start s inputs ≤ budget 1 + budget 0) := by
  obtain ⟨times, hsub, hle⟩ := tally_le_goodHits hlimited start htracked hclock hfew hstay
  have htimes : times.Pairwise (· ≤ ·) :=
    (List.pairwise_map.mpr (List.pairwise_append.mp hclock).2.1).sublist hsub
  constructor
  · exact Nat.le_trans hle (goodHits_le h (by decide) _ htimes)
  · intro hlater
    exact Nat.le_trans hle (goodHits_le_of_worn h (by decide) hlater htimes htracked.worn)

theorem tally_le_of_opened (h : Budget good budget) (hlimited : Limited peer good p)
    {input : Input} {inputs : List Input}
    (htracked : Tracked peer before (limiter s peer))
    (hclock : (before ++ input :: inputs).Pairwise fun a b => a.now ≤ b.now)
    (hfew : ∀ start, chatsIn peer start (before ++ input :: inputs) < 2 ^ 32)
    (hstay : ∀ other ∈ input :: inputs, other.event ≠ .disconnect peer)
    (hopened : start ≤ (limiter (step s input).1 peer).start) :
    tally p start s (input :: inputs) ≤ budget 0 := by
  have hfirst : before ++ input :: inputs = (before ++ [input]) ++ inputs := by simp
  rw [hfirst] at hclock hfew
  have hclock' := (List.pairwise_append.mp hclock).1
  have hfew' : ∀ start, chatsIn peer start (before ++ [input]) < 2 ^ 32 := by
    intro start
    exact Nat.lt_of_le_of_lt
      (List.Sublist.countP_le (List.sublist_append_left _ inputs)) (hfew start)
  obtain ⟨times, hsub, hle⟩ := tally_le_goodHits hlimited start
    (tracked_step htracked hclock' hfew') hclock hfew
    fun other hother => hstay other (List.mem_cons_of_mem _ hother)
  have htimes : times.Pairwise (· ≤ ·) :=
    (List.pairwise_map.mpr (List.pairwise_append.mp hclock).2.1).sublist hsub
  have hrest := Nat.le_trans hle (goodHits_le_of_opened h (by decide) htimes hopened)
  rw [tally]
  rcases chat_step (hstay input List.mem_cons_self) with hquiet | hcounted
  · rw [hlimited.quiet s input hquiet, Bool.and_false, if_neg Bool.false_ne_true, Nat.zero_add]
    exact Nat.le_trans hrest (h.antitone (Nat.zero_le _))
  · have hcount : (limiter (step s input).1 peer).count =
        ((limiter s peer).roll chatWindow input.now).count + 1 := by
      rw [hcounted.hit htracked hclock' hfew']
      rfl
    rw [hcount] at hrest
    refine Nat.le_trans (Nat.add_le_add ?_ hrest)
      (Nat.le_trans (h ((limiter s peer).roll chatWindow input.now).count)
        (h.antitone (Nat.zero_le _)))
    cases hp : p s input with
    | false => simp
    | true =>
        have hgood := hlimited.counted s input hcounted hp
        rw [hcount] at hgood
        rw [if_pos hgood]
        split <;> decide

end Budget

end Runs

section Example

open F4MP.Native

def ada : List Input :=
  [⟨0, .keep _, .connect 0⟩, ⟨0, .keep _, .receive 0 (encode { name := ascii "Ada" : HelloMsg })⟩]

/-- One message at ten seconds, six just before the window ends, seven as the next one opens. -/
def acrossWindows : List Input :=
  (10000000000 :: List.replicate 6 14900000000 ++ List.replicate 7 15000000000).map fun now =>
    ⟨now, .keep _, .receive 0 (encode { text := ascii "hi" : ChatMsg })⟩

end Example

end F4MP.ChatFlood
