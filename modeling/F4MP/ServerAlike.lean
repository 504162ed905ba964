import F4MP.Participants

/-!
Two servers that differ only in strangers, connections without a handshake: every
handler does the same to both and sends the same, but for the order in which a
newcomer is told about the players already present.
-/

namespace F4MP.ServerAlike

open F4MP.Types
open F4MP.Protocol
open F4MP.Messages
open F4MP.Arith
open F4MP.ServerModel
open F4MP.ServerConsole
open F4MP.ServerRun
open F4MP.ServerTraffic
open F4MP.ServerEffects
open F4MP.Participants
open F4MP.Library.HashTable

/-- The server `t` is `s` without its strangers. -/
structure Alike (stranger : Peer → Prop) (s t : Server) : Prop where
  rest : t = { s with players := t.players }
  kept : ∀ c, ¬ stranger c → t.players.lookup c = s.players.lookup c
  gone : ∀ c, stranger c → t.players.lookup c = none
  quiet : ∀ c player, stranger c → s.players.lookup c = some player → player.handshaked = false

def roll (s : Server) : List (Sigma fun _ : Peer => Player) :=
  s.players.entries.filter (·.2.handshaked)

section Alike

variable {stranger : Peer → Prop} {s t : Server}

theorem Alike.joined_eq (h : Alike stranger s t) (c : Peer) : joined t c = joined s c := by
  by_cases hc : stranger c
  · rw [joined_eq_false (h.gone c hc)]
    cases hplayer : s.players.lookup c with
    | none => rw [joined_eq_false hplayer]
    | some player => rw [ServerTraffic.joined_eq hplayer, h.quiet c player hc hplayer]
  · rw [joined, joined, h.kept c hc]

theorem Alike.mem_roll (h : Alike stranger s t) {entry : Sigma fun _ : Peer => Player} :
    entry ∈ roll t ↔ entry ∈ roll s := by
  obtain ⟨c, player⟩ := entry
  rw [roll, roll, List.mem_filter, List.mem_filter, mem_entries_iff, mem_entries_iff]
  by_cases hc : stranger c
  · rw [h.gone c hc]
    exact ⟨fun hmem => absurd hmem.1 (by rintro ⟨⟩), fun hmem =>
      absurd (hmem.2.symm.trans (h.quiet c player hc hmem.1)) (by rintro ⟨⟩)⟩
  · rw [h.kept c hc]

theorem nodup_roll (s : Server) : (roll s).Nodup := (List.Nodup.of_map _ s.players.nodupKeys).filter _

theorem Alike.roll_perm (h : Alike stranger s t) : (roll t).Perm (roll s) :=
  (List.perm_ext_iff_of_nodup (nodup_roll t) (nodup_roll s)).mpr fun _ => h.mem_roll

theorem Alike.bots_eq (h : Alike stranger s t) : t.bots = s.bots := by rw [h.rest]

theorem Alike.nextId_eq (h : Alike stranger s t) : t.nextId = s.nextId := by rw [h.rest]

theorem Alike.config_eq (h : Alike stranger s t) : t.config = s.config := by rw [h.rest]

theorem Alike.nowMs_eq (h : Alike stranger s t) (now : Time) : nowMs t now = nowMs s now := by
  rw [nowMs, nowMs, h.rest]

theorem Alike.lastBotUpdate_eq (h : Alike stranger s t) : t.lastBotUpdate = s.lastBotUpdate := by
  rw [h.rest]

theorem Alike.withBots (h : Alike stranger s t) (bots : List Bot) :
    Alike stranger { s with bots } { t with bots } where
  rest := congrArg (fun server : Server => { server with bots }) h.rest
  kept := h.kept
  gone := h.gone
  quiet := h.quiet

theorem Alike.withNextId (h : Alike stranger s t) (nextId : PlayerId) :
    Alike stranger { s with nextId } { t with nextId } where
  rest := congrArg (fun server : Server => { server with nextId }) h.rest
  kept := h.kept
  gone := h.gone
  quiet := h.quiet

theorem Alike.withLastBotUpdate (h : Alike stranger s t) (lastBotUpdate : Time) :
    Alike stranger { s with lastBotUpdate } { t with lastBotUpdate } where
  rest := congrArg (fun server : Server => { server with lastBotUpdate }) h.rest
  kept := h.kept
  gone := h.gone
  quiet := h.quiet

theorem Alike.reorder (h : Alike stranger s t)
    (order order' : Shuffle (Sigma fun _ : Peer => Player)) :
    Alike stranger (ServerRun.reorder s order) (ServerRun.reorder t order') where
  rest := congrArg (fun server : Server => { server with players := arrange order' t.players }) h.rest
  kept c hc := by rw [lookup_reorder, lookup_reorder, h.kept c hc]
  gone c hc := by rw [lookup_reorder, h.gone c hc]
  quiet c player hc hplayer := h.quiet c player hc (by rwa [lookup_reorder] at hplayer)

theorem Alike.setPlayer (h : Alike stranger s t) {peer : Peer} (hpeer : ¬ stranger peer)
    {old : Player} (hold : s.players.lookup peer = some old) (player : Player) :
    Alike stranger (ServerModel.setPlayer s peer player) (ServerModel.setPlayer t peer player) where
  rest := congrArg (fun server : Server =>
    { server with players := modify peer (fun _ => player) t.players }) h.rest
  kept c hc := by
    rw [lookup_setPlayer hold, lookup_setPlayer ((h.kept peer hpeer).trans hold), h.kept c hc]
  gone c hc := by
    have hne : c ≠ peer := by
      rintro rfl
      exact hpeer hc
    rw [lookup_setPlayer ((h.kept peer hpeer).trans hold), if_neg hne, h.gone c hc]
  quiet c found hc hfound := by
    have hne : c ≠ peer := by
      rintro rfl
      exact hpeer hc
    rw [lookup_setPlayer hold, if_neg hne] at hfound
    exact h.quiet c found hc hfound

theorem Alike.withoutPlayer (h : Alike stranger s t) (peer : Peer) :
    Alike stranger { s with players := s.players.erase peer }
      { t with players := t.players.erase peer } where
  rest := congrArg (fun server : Server =>
    { server with players := t.players.erase peer }) h.rest
  kept c hc := by rw [lookup_withoutPlayer, lookup_withoutPlayer, h.kept c hc]
  gone c hc := by
    rw [lookup_withoutPlayer, h.gone c hc]
    split <;> rfl
  quiet c found hc hfound := by
    rw [lookup_withoutPlayer] at hfound
    split at hfound
    · cases hfound
    · exact h.quiet c found hc hfound

theorem Alike.broadcast_eq (h : Alike stranger s t) (c : Peer) (now : Time) (channel : Channel)
    (bytes : Bytes) (except : Option Peer) :
    sentTo c now (broadcast t channel bytes except) =
      sentTo c now (broadcast s channel bytes except) := by
  rw [sentTo_broadcast, sentTo_broadcast, h.joined_eq]

theorem Alike.serverChat_eq (h : Alike stranger s t) (c : Peer) (now : Time) (text : Bytes) :
    sentTo c now (serverChat t text) = sentTo c now (serverChat s text) := by
  rw [serverChat, serverChat, h.broadcast_eq]

theorem Alike.farewell_eq (h : Alike stranger s t) (c : Peer) (now : Time) (bot : Bot) :
    sentTo c now (farewell t bot) = sentTo c now (farewell s bot) := by
  rw [farewell, farewell, sentTo_append, sentTo_append, h.broadcast_eq, h.serverChat_eq]

end Alike

/-- Two handlers' results that agree but for strangers. -/
structure SameResult (stranger : Peer → Prop) (r r' : Server × List Out) : Prop where
  alike : Alike stranger r.1 r'.1
  sent : ∀ c now, sentTo c now r'.2 = sentTo c now r.2

section Handlers

variable {stranger : Peer → Prop} {s t : Server} {now : Time} {peer : Peer} {player : Player}

theorem SameResult.refl (h : Alike stranger s t) (outs : List Out) :
    SameResult stranger (s, outs) (t, outs) := ⟨h, fun _ _ => rfl⟩

theorem same_acceptState (h : Alike stranger s t) (hpeer : ¬ stranger peer)
    (hplayer : s.players.lookup peer = some player) (state : PlayerState F32) :
    SameResult stranger (acceptState s now peer player state)
      (acceptState t now peer player state) := by
  have hset := h.setPlayer hpeer hplayer { player with state, hasState := true }
  refine ⟨hset, fun c now' => ?_⟩
  rw [acceptState, acceptState, hset.broadcast_eq, hset.nowMs_eq]

theorem same_acceptChat (h : Alike stranger s t) (hpeer : ¬ stranger peer)
    (hplayer : s.players.lookup peer = some player) (text : Bytes) :
    SameResult stranger (acceptChat s now peer player text)
      (acceptChat t now peer player text) := by
  have hset := h.setPlayer hpeer hplayer (rollChatWindow player now)
  rw [acceptChat, acceptChat]
  dsimp only
  split
  · exact .refl hset _
  · split
    · exact .refl hset _
    · exact ⟨hset, fun c now' => hset.broadcast_eq c now' _ _ _⟩

theorem same_acceptName (h : Alike stranger s t) (hpeer : ¬ stranger peer)
    (hplayer : s.players.lookup peer = some player) (name : Bytes) :
    SameResult stranger (acceptName s peer player name) (acceptName t peer player name) := by
  rw [acceptName, acceptName]
  dsimp only
  split
  · exact .refl h _
  · have hset := h.setPlayer hpeer hplayer { player with name := sanitizeName name }
    exact ⟨hset, fun c now' => hset.broadcast_eq c now' _ _ _⟩

theorem same_handleDisconnect (h : Alike stranger s t) (hpeer : ¬ stranger peer) :
    SameResult stranger (handleDisconnect s peer) (handleDisconnect t peer) := by
  rw [handleDisconnect, handleDisconnect, h.kept peer hpeer]
  have hset := h.withoutPlayer peer
  cases s.players.lookup peer with
  | none => exact .refl h _
  | some player =>
      dsimp only
      split
      · refine ⟨hset, fun c now' => ?_⟩
        rw [sentTo_append, sentTo_append, hset.broadcast_eq, hset.serverChat_eq]
      · exact .refl hset _

theorem same_addBot (h : Alike stranger s t) (mode : BotMode) (name : Bytes) :
    SameResult stranger (addBot s mode name) (addBot t mode name) := by
  rw [addBot, addBot, h.nextId_eq, h.bots_eq]
  generalize sanitizeName _ = name
  have hset := (h.withNextId (s.nextId + 1)).withBots (s.bots ++ [{ id := s.nextId, name, mode }])
  refine ⟨hset, fun c now' => ?_⟩
  rw [sentTo_append, sentTo_append, hset.broadcast_eq, hset.serverChat_eq]

theorem same_removeBot (h : Alike stranger s t) (id : PlayerId) :
    Option.Rel (SameResult stranger) (removeBot s id) (removeBot t id) := by
  rw [removeBot, removeBot, h.bots_eq]
  cases s.bots.find? (·.id == id) with
  | none => exact .none
  | some bot => exact .some ⟨h.withBots _, fun c now' => h.farewell_eq c now' bot⟩

theorem same_removeAllBots (h : Alike stranger s t) (fuel : Nat) :
    SameResult stranger (removeAllBots fuel s) (removeAllBots fuel t) := by
  induction fuel generalizing s t with
  | zero => exact .refl h _
  | succ fuel ih =>
      rw [removeAllBots, removeAllBots, h.bots_eq]
      cases s.bots.getLast? with
      | none => exact .refl h _
      | some last =>
          dsimp only
          have hone := same_removeBot h last.id
          generalize removeBot s last.id = r at hone
          generalize removeBot t last.id = r' at hone
          cases hone with
          | none => exact .refl h _
          | some hresult =>
              have hrec := ih hresult.alike
              refine ⟨hrec.alike, fun c now' => ?_⟩
              change sentTo c now' (_ ++ _) = sentTo c now' (_ ++ _)
              rw [sentTo_append, sentTo_append, hresult.sent, hrec.sent]

end Handlers

/-- The two servers find the same players, whatever the order of their maps. -/
structure SameFinds (s t : Server) : Prop where
  findPlayer : ∀ id, findPlayer t id = findPlayer s id
  first : firstPlayerWithState t = firstPlayerWithState s

theorem findPlayer_eq_roll (s : Server) (id : PlayerId) :
    findPlayer s id = (roll s).find? (·.2.id == id) := by
  rw [findPlayer, roll, List.find?_filter]
  congr 1
  funext entry
  cases entry.2.handshaked <;> simp [beq_eq_decide]

/-- The player with a state that is kept after one more player in the game. -/
def preferred (best : Option (Sigma fun _ : Peer => Player))
    (entry : Sigma fun _ : Peer => Player) : Option (Sigma fun _ : Peer => Player) :=
  match best with
  | none => if entry.2.hasState then some entry else none
  | some other => if entry.2.hasState ∧ entry.2.id < other.2.id then some entry else some other

theorem firstPlayerWithState_eq_roll (s : Server) :
    firstPlayerWithState s = (roll s).foldl preferred none := by
  rw [firstPlayerWithState, roll, List.foldl_filter]
  congr 1
  funext best entry
  cases best <;> cases entry.2.handshaked <;> simp [preferred]

theorem SameFinds.of_roll {s t : Server} (h : roll t = roll s) : SameFinds s t where
  findPlayer id := by rw [findPlayer_eq_roll, findPlayer_eq_roll, h]
  first := by rw [firstPlayerWithState_eq_roll, firstPlayerWithState_eq_roll, h]

theorem find?_eq_of_perm {α : Type} {p : α → Bool} {l l' : List α} (hperm : l'.Perm l)
    (hunique : ∀ a ∈ l, ∀ b ∈ l, p a = true → p b = true → a = b) : l'.find? p = l.find? p := by
  cases hfind : l.find? p with
  | none =>
      apply List.find?_eq_none.mpr
      exact fun a ha => List.find?_eq_none.mp hfind a (hperm.mem_iff.mp ha)
  | some a =>
      have ha := List.mem_of_find?_eq_some hfind
      have hpa := List.find?_some hfind
      cases hfind' : l'.find? p with
      | none => exact absurd hpa (List.find?_eq_none.mp hfind' a (hperm.mem_iff.mpr ha))
      | some b =>
          have hb := hperm.mem_iff.mp (List.mem_of_find?_eq_some hfind')
          rw [hunique a ha b hb hpa (List.find?_some hfind')]

theorem foldl_least {α : Type} (ok : α → Bool) (key : α → UInt32) {f : Option α → α → Option α}
    (hnone : ∀ a, f none a = if ok a then some a else none)
    (hsome : ∀ a b, f (some b) a = if ok a ∧ key a < key b then some a else some b) (l : List α)
    (best : Option α) :
    (∀ a ∈ l, ok a = true → ∃ b, l.foldl f best = some b ∧ key b ≤ key a) ∧
    (∀ b, best = some b → ∃ c, l.foldl f best = some c ∧ key c ≤ key b) ∧
    (∀ b, l.foldl f best = some b → best = some b ∨ (b ∈ l ∧ ok b = true)) := by
  induction l generalizing best with
  | nil => exact ⟨by rintro _ ⟨⟩, fun b hb => ⟨b, hb, UInt32.le_refl _⟩, fun b hb => .inl hb⟩
  | cons a l ih =>
      rw [List.foldl_cons]
      obtain ⟨hall, hkept, hfrom⟩ := ih (f best a)
      have hself : ok a = true → ∃ b, f best a = some b ∧ key b ≤ key a := by
        intro hok
        cases best with
        | none => exact ⟨a, by rw [hnone, if_pos hok], UInt32.le_refl _⟩
        | some b =>
            by_cases hlt : key a < key b
            · exact ⟨a, by rw [hsome, if_pos ⟨hok, hlt⟩], UInt32.le_refl _⟩
            · exact ⟨b, by rw [hsome, if_neg fun h => hlt h.2], UInt32.not_lt.mp hlt⟩
      have hbest : ∀ b, best = some b → ∃ c, f best a = some c ∧ key c ≤ key b := by
        rintro b rfl
        rw [hsome]
        split
        · rename_i htake
          exact ⟨a, rfl, UInt32.le_of_lt htake.2⟩
        · exact ⟨b, rfl, UInt32.le_refl _⟩
      have hcame : ∀ b, f best a = some b → best = some b ∨ (b = a ∧ ok b = true) := by
        intro b hb
        cases best with
        | none =>
            rw [hnone] at hb
            split at hb
            · rename_i hok
              obtain rfl := Option.some.inj hb
              exact .inr ⟨rfl, hok⟩
            · cases hb
        | some c =>
            rw [hsome] at hb
            split at hb
            · rename_i htake
              obtain rfl := Option.some.inj hb
              exact .inr ⟨rfl, htake.1⟩
            · exact .inl hb
      refine ⟨?_, ?_, ?_⟩
      · intro x hx hok
        rcases List.mem_cons.mp hx with rfl | hx
        · obtain ⟨b, hb, hle⟩ := hself hok
          obtain ⟨c, hc, hle'⟩ := hkept b hb
          exact ⟨c, hc, UInt32.le_trans hle' hle⟩
        · exact hall x hx hok
      · intro b hb
        obtain ⟨c, hc, hle⟩ := hbest b hb
        obtain ⟨d, hd, hle'⟩ := hkept c hc
        exact ⟨d, hd, UInt32.le_trans hle' hle⟩
      · intro b hb
        rcases hfrom b hb with hnext | ⟨hmem, hok⟩
        · rcases hcame b hnext with hold | ⟨rfl, hok⟩
          · exact .inl hold
          · exact .inr ⟨List.mem_cons_self, hok⟩
        · exact .inr ⟨List.mem_cons_of_mem _ hmem, hok⟩

/-- A player who has a state and whose id is the least. -/
theorem firstPlayerWithState_spec (s : Server) :
    (∀ entry ∈ roll s, entry.2.hasState = true →
      ∃ found, firstPlayerWithState s = some found ∧ found.2.id ≤ entry.2.id) ∧
    (∀ found, firstPlayerWithState s = some found →
      found ∈ roll s ∧ found.2.hasState = true) := by
  obtain ⟨hall, -, hfrom⟩ := foldl_least (fun entry => entry.2.hasState) (fun entry => entry.2.id)
    (f := preferred) (fun _ => rfl) (fun _ _ => rfl) (roll s) none
  rw [firstPlayerWithState_eq_roll]
  refine ⟨hall, fun found hfound => ?_⟩
  exact (hfrom found hfound).resolve_left (by rintro ⟨⟩)

theorem SameFinds.of_distinct {stranger : Peer → Prop} {s t : Server} (h : Alike stranger s t)
    (hids : IdsDistinct s) : SameFinds s t := by
  have hunique : ∀ a ∈ roll s, ∀ b ∈ roll s, a.2.id = b.2.id → a = b := by
    rintro ⟨c, a⟩ ha ⟨d, b⟩ hb hid
    obtain ⟨ha, hshake⟩ := List.mem_filter.mp ha
    obtain ⟨hb, hshake'⟩ := List.mem_filter.mp hb
    obtain rfl := hids.players (mem_entries_iff.mp ha) hshake (mem_entries_iff.mp hb) hshake' hid
    rw [Option.some.inj ((mem_entries_iff.mp ha).symm.trans (mem_entries_iff.mp hb))]
  constructor
  · intro id
    rw [findPlayer_eq_roll, findPlayer_eq_roll]
    refine find?_eq_of_perm h.roll_perm fun a ha b hb hida hidb => hunique a ha b hb ?_
    rw [beq_iff_eq.mp hida, beq_iff_eq.mp hidb]
  · obtain ⟨hall, hfrom⟩ := firstPlayerWithState_spec s
    obtain ⟨hall', hfrom'⟩ := firstPlayerWithState_spec t
    cases hfound : firstPlayerWithState s with
    | none =>
        cases hfound' : firstPlayerWithState t with
        | none => rfl
        | some b =>
            obtain ⟨hb, hstate⟩ := hfrom' b hfound'
            obtain ⟨_, hsome, -⟩ := hall b (h.mem_roll.mp hb) hstate
            rw [hfound] at hsome
            cases hsome
    | some a =>
        obtain ⟨ha, hstate⟩ := hfrom a hfound
        obtain ⟨b, hfound', hle⟩ := hall' a (h.mem_roll.mpr ha) hstate
        obtain ⟨hb, hstate'⟩ := hfrom' b hfound'
        obtain ⟨c, hagain, hle'⟩ := hall b (h.mem_roll.mp hb) hstate'
        obtain rfl := Option.some.inj (hagain.symm.trans hfound)
        rw [hfound', hunique b (h.mem_roll.mp hb) c ha (UInt32.le_antisymm hle hle')]

section Commands

variable {stranger : Peer → Prop} {s t : Server} {now : Time}

variable [Platform]

theorem same_executeBot (h : Alike stranger s t) (args : List Bytes) :
    SameResult stranger (executeBot s args) (executeBot t args) := by
  have hadd : ∀ args, SameResult stranger (executeBotAdd s args) (executeBotAdd t args) := by
    intro args
    unfold executeBotAdd
    split
    · split
      · exact same_addBot h _ _
      · split <;> exact same_addBot h _ _
    · exact same_addBot h _ _
  have hremove : ∀ arg, SameResult stranger (executeBotRemove s arg) (executeBotRemove t arg) := by
    intro arg
    rw [executeBotRemove, executeBotRemove]
    split
    · rw [h.bots_eq]
      exact same_removeAllBots h _
    · split
      · exact .refl h _
      · rename_i id _
        have hone := same_removeBot h (UInt32.ofNat id)
        generalize removeBot s (UInt32.ofNat id) = r at hone ⊢
        generalize removeBot t (UInt32.ofNat id) = r' at hone ⊢
        cases hone with
        | none => exact .refl h _
        | some hresult => exact hresult
  unfold executeBot
  split
  · split
    · exact hadd _
    · split
      · split
        · exact hremove _
        · exact .refl h _
      · exact .refl h _
  · exact .refl h _

theorem same_executeKick (h : Alike stranger s t) (hfinds : SameFinds s t) (line : Bytes)
    (args : List Bytes) :
    SameResult stranger (executeKick s line args) (executeKick t line args) := by
  unfold executeKick
  split
  · split
    · exact .refl h _
    · rename_i id _
      have hone := same_removeBot h (UInt32.ofNat id)
      rw [hfinds.findPlayer]
      generalize removeBot s (UInt32.ofNat id) = r at hone ⊢
      generalize removeBot t (UInt32.ofNat id) = r' at hone ⊢
      cases hone with
      | none =>
          dsimp only
          split
          · exact .refl h _
          · split <;> exact .refl h _
      | some hresult => exact hresult
  · exact .refl h _

theorem same_executeCommand (h : Alike stranger s t) (hfinds : SameFinds s t) (line : Bytes) :
    SameResult stranger (executeCommand s line) (executeCommand t line) := by
  rw [executeCommand, executeCommand]
  split
  · exact .refl h _
  · split
    · exact same_executeBot h _
    · split
      · rw [executeSay, executeSay]
        split
        · exact .refl h _
        · exact ⟨h, fun c now' => h.serverChat_eq c now' _⟩
      · split
        · exact same_executeKick h hfinds _ _
        · exact .refl h _

end Commands

section Bots

variable {stranger : Peer → Prop} {s t : Server} {now : Time}

variable [CppFloat F32] [Libm F32]

theorem same_updateBots (h : Alike stranger s t) (hfinds : SameFinds s t) :
    SameResult stranger (updateBots s now) (updateBots t now) := by
  rw [updateBots, updateBots, h.bots_eq, h.lastBotUpdate_eq]
  split
  · exact .refl h _
  · split
    · exact .refl h _
    · dsimp only
      generalize (if CppFloat.ofRat (1 / 4) < seconds (now - s.lastBotUpdate) then
        seconds botUpdateInterval else seconds (now - s.lastBotUpdate)) = dt
      have hset := (h.withBots s.bots).withLastBotUpdate now
      have hbot : ∀ bot,
          (updateBot { t with bots := s.bots, lastBotUpdate := now } now dt bot).1 =
            (updateBot { s with lastBotUpdate := now } now dt bot).1 ∧
          ∀ c now', sentTo c now' (updateBot { t with bots := s.bots, lastBotUpdate := now } now dt bot).2 =
            sentTo c now' (updateBot { s with lastBotUpdate := now } now dt bot).2 := by
        intro bot
        have hattach : attachBot { t with bots := s.bots, lastBotUpdate := now } bot =
            attachBot { s with lastBotUpdate := now } bot := by
          have hfind : ServerModel.findPlayer { t with bots := s.bots, lastBotUpdate := now }
              bot.follow =
              ServerModel.findPlayer { s with lastBotUpdate := now } bot.follow :=
            hfinds.findPlayer bot.follow
          have hfirst :
              firstPlayerWithState { t with bots := s.bots, lastBotUpdate := now } =
              firstPlayerWithState { s with lastBotUpdate := now } := hfinds.first
          rw [attachBot, attachBot, hfind, hfirst]
        rw [updateBot, updateBot, hattach]
        split
        · exact ⟨rfl, fun _ _ => rfl⟩
        · refine ⟨rfl, fun c now' => ?_⟩
          rw [hset.broadcast_eq, hset.nowMs_eq]
      refine ⟨?_, fun c now' => ?_⟩
      · have hbots := hset.withBots
          (s.bots.map fun bot => (updateBot { s with lastBotUpdate := now } now dt bot).1)
        simpa only [hbot] using hbots
      · rw [sentTo_flatMap, sentTo_flatMap]
        exact List.flatMap_congr fun bot _ => (hbot bot).2 c now'

end Bots

def Announcement (block : List Sent) : Prop :=
  ∃ joined states, block = joined :: states ∧ kind joined = some .kPlayerJoined ∧
    ∀ sent ∈ states, kind sent = some .kPlayerStateUpdate

/-- Two ways to greet a newcomer, which differ at most in the order in which the
players who are present are announced after the welcome. -/
def SameGreeting (link link' : List Sent) : Prop :=
  ∃ (welcome : Sent) (blocks blocks' : List (List Sent)) (after : List Sent),
    kind welcome = some .kWelcome ∧ (∀ block ∈ blocks, Announcement block) ∧
    blocks'.Perm blocks ∧
    link = welcome :: (blocks.flatten ++ after) ∧ link' = welcome :: (blocks'.flatten ++ after)

def told (s : Server) (peer : Peer) : List (Sigma fun _ : Peer => Player) :=
  (roll s).filter (·.1 ≠ peer)

theorem announcement_announce (peer : Peer) (now : Time) (stamp : UInt32) (id : PlayerId)
    (name : Bytes) (hasState : Bool) (state : PlayerState F32) :
    Announcement (sentTo peer now (announce peer stamp id name hasState state)) := by
  rw [sentTo_announce, if_pos rfl]
  refine ⟨_, _, rfl, kind_playerJoined _ _ _, ?_⟩
  cases hasState <;> simp

theorem catchUp_eq_told (s : Server) (now : Time) (peer : Peer) :
    catchUp s now peer = (told s peer).flatMap (fun entry => announce peer (nowMs s now) entry.2.id
        entry.2.name entry.2.hasState entry.2.state) ++
      s.bots.flatMap fun bot =>
        announce peer (nowMs s now) bot.id bot.name bot.hasState bot.state := by
  rw [catchUp, told, roll, List.filter_filter]
  congr 1
  induction s.players.entries with
  | nil => rfl
  | cons entry entries ih =>
      rw [List.flatMap_cons, ih, List.filter_cons]
      cases hshake : entry.2.handshaked <;> by_cases hne : entry.1 = peer <;> simp [hne]

theorem told_setPlayer (s : Server) (peer : Peer) (player : Player) :
    told (setPlayer s peer player) peer = told s peer := by
  have hmap : (setPlayer s peer player).players.entries = s.players.entries.map fun entry =>
      ⟨entry.1, if entry.1 = peer then player else entry.2⟩ := rfl
  rw [told, told, roll, roll, List.filter_filter, List.filter_filter, hmap]
  induction s.players.entries with
  | nil => rfl
  | cons entry entries ih =>
      rw [List.map_cons, List.filter_cons, List.filter_cons, ih]
      by_cases hne : entry.1 = peer <;> simp [hne]

section Greet

variable {stranger : Peer → Prop} {s t : Server} {now : Time} {peer : Peer} {player : Player}

theorem Alike.seat (h : Alike stranger s t) (hpeer : ¬ stranger peer)
    (hplayer : s.players.lookup peer = some player) (hello : HelloMsg) :
    Alike stranger (seat s peer player hello) (seat t peer player hello) := by
  have hsame : welcomedPlayer t player hello = welcomedPlayer s player hello := by
    rw [welcomedPlayer, welcomedPlayer, h.nextId_eq]
  rw [ServerEffects.seat, ServerEffects.seat, hsame, h.nextId_eq]
  exact (h.withNextId (s.nextId + 1)).setPlayer hpeer hplayer _

theorem sentTo_catchUp (s : Server) (now : Time) (peer : Peer) :
    sentTo peer now (catchUp s now peer) =
      ((told s peer).map fun entry => sentTo peer now (announce peer (nowMs s now) entry.2.id
        entry.2.name entry.2.hasState entry.2.state)).flatten ++
      s.bots.flatMap fun bot => sentTo peer now
        (announce peer (nowMs s now) bot.id bot.name bot.hasState bot.state) := by
  rw [catchUp_eq_told, sentTo_append, sentTo_flatMap, sentTo_flatMap, List.flatMap_def]

theorem same_greet (h : Alike stranger s t) (player : Player) :
    (told t peer = told s peer →
      sentTo peer now (greet t now peer player) = sentTo peer now (greet s now peer player)) ∧
    ((told t peer).Perm (told s peer) →
      SameGreeting (sentTo peer now (greet s now peer player))
        (sentTo peer now (greet t now peer player))) := by
  have hwelcome : welcomeMsg t player = welcomeMsg s player := by
    rw [welcomeMsg, welcomeMsg, h.config_eq]
  rw [sentTo_greet, sentTo_greet, if_pos rfl, if_pos rfl, sentTo_catchUp, sentTo_catchUp, hwelcome,
    h.joined_eq, h.nowMs_eq, h.bots_eq]
  constructor
  · intro htold
    rw [htold]
  · intro hperm
    rw [List.append_assoc, List.append_assoc]
    refine ⟨_, _, _, _, kind_welcome _ _ _, ?_, hperm.map _, rfl, rfl⟩
    intro block hblock
    obtain ⟨entry, -, rfl⟩ := List.mem_map.mp hblock
    exact announcement_announce _ _ _ _ _ _ _

theorem same_acceptHello (now : Time) (h : Alike stranger s t) (hpeer : ¬ stranger peer)
    (hplayer : s.players.lookup peer = some player) (hello : HelloMsg) :
    Alike stranger (acceptHello s now peer player hello).1
      (acceptHello t now peer player hello).1 ∧
    ∀ c, sentTo c now (acceptHello t now peer player hello).2 =
        sentTo c now (acceptHello s now peer player hello).2 ∨
      (c = peer ∧ player.handshaked = false ∧ roll t ≠ roll s ∧
        SameGreeting (sentTo c now (acceptHello s now peer player hello).2)
          (sentTo c now (acceptHello t now peer player hello).2)) := by
  by_cases hversion : hello.protocolVersion = currentProtocolVersion
  swap
  · rw [acceptHello, acceptHello, if_pos hversion, if_pos hversion]
    exact ⟨h, fun c => .inl rfl⟩
  cases hshake : player.handshaked with
  | true =>
      rw [acceptHello, acceptHello, hshake, if_neg (not_not_intro hversion),
        if_neg (not_not_intro hversion)]
      exact ⟨h, fun c => .inl rfl⟩
  | false =>
      have hseat := h.seat hpeer hplayer hello
      have hsame : welcomedPlayer t player hello = welcomedPlayer s player hello := by
        rw [welcomedPlayer, welcomedPlayer, h.nextId_eq]
      have hjoin : ∀ s : Server, acceptHello s now peer player hello =
          (ServerEffects.seat s peer player hello, greet (ServerEffects.seat s peer player hello)
            now peer (welcomedPlayer s player hello)) := by
        intro s
        simp [acceptHello, hversion, hshake, ServerEffects.seat]
      rw [hjoin s, hjoin t, hsame]
      refine ⟨hseat, fun c => ?_⟩
      have htold : ∀ s : Server, told (ServerEffects.seat s peer player hello) peer = told s peer :=
        fun s => told_setPlayer { s with nextId := s.nextId + 1 } peer _
      by_cases hc : peer = c
      · subst hc
        by_cases hroll : roll t = roll s
        · refine .inl ((same_greet hseat _).1 ?_)
          rw [htold, htold, told, told, hroll]
        · refine .inr ⟨rfl, rfl, hroll, (same_greet hseat _).2 ?_⟩
          rw [htold, htold]
          exact h.roll_perm.filter _
      · refine .inl ?_
        rw [sentTo_greet, sentTo_greet, if_neg hc, if_neg hc, hseat.joined_eq]

theorem same_handlePacket (h : Alike stranger s t) (hpeer : ¬ stranger peer) (bytes : Bytes) :
    Alike stranger (handlePacket s now peer bytes).1 (handlePacket t now peer bytes).1 ∧
    ∀ c, sentTo c now (handlePacket t now peer bytes).2 =
        sentTo c now (handlePacket s now peer bytes).2 ∨
      (joined s c = false ∧ roll t ≠ roll s ∧
        SameGreeting (sentTo c now (handlePacket s now peer bytes).2)
          (sentTo c now (handlePacket t now peer bytes).2)) := by
  have hsame : ∀ {r r' : Server × List Out}, SameResult stranger r r' →
      Alike stranger r.1 r'.1 ∧ ∀ c, sentTo c now r'.2 = sentTo c now r.2 ∨
        (joined s c = false ∧ roll t ≠ roll s ∧
          SameGreeting (sentTo c now r.2) (sentTo c now r'.2)) :=
    fun hresult => ⟨hresult.alike, fun c => .inl (hresult.sent c now)⟩
  cases hplayer : s.players.lookup peer with
  | none =>
      have hplayer' := (h.kept peer hpeer).trans hplayer
      simp only [handlePacket, hplayer, hplayer']
      exact ⟨h, fun c => .inl trivial⟩
  | some player =>
      rw [handlePacket_eq hplayer, handlePacket_eq ((h.kept peer hpeer).trans hplayer)]
      dsimp only
      split
      · exact hsame (.refl h _)
      split
      · exact hsame (.refl h _)
      cases decode bytes with
      | none =>
          dsimp only
          split <;> exact hsame (.refl h _)
      | some m =>
          cases m with
          | hello hello =>
              obtain ⟨halike, hsent⟩ := same_acceptHello now h hpeer hplayer hello
              refine ⟨halike, fun c => (hsent c).imp id ?_⟩
              rintro ⟨rfl, hshake, hroll, hgreet⟩
              exact ⟨by rw [joined_eq hplayer, hshake], hroll, hgreet⟩
          | playerState msg =>
              dsimp only
              split
              · exact hsame (same_acceptState h hpeer hplayer _)
              · exact hsame (.refl h _)
          | chat msg =>
              dsimp only
              split
              · exact hsame (.refl h _)
              · exact hsame (same_acceptChat h hpeer hplayer _)
          | setName msg => exact hsame (same_acceptName h hpeer hplayer _)
          | _ => exact hsame (.refl h _)

theorem same_handleConnect (h : Alike stranger s t) (hpeer : ¬ stranger peer) :
    SameResult stranger (handleConnect s now peer) (handleConnect t now peer) := by
  cases hplayer : s.players.lookup peer with
  | some player =>
      have hplayer' := (h.kept peer hpeer).trans hplayer
      rw [handleConnect, handleConnect, emplace_of_some hplayer, emplace_of_some hplayer']
      exact .refl h _
  | none =>
      have hplayer' := (h.kept peer hpeer).trans hplayer
      refine ⟨⟨?_, fun c hc => ?_, fun c hc => ?_, fun c found hc hfound => ?_⟩, fun _ _ => rfl⟩
      · exact congrArg (fun server : Server =>
          { server with players := emplace peer { joinedAt := now } t.players }) h.rest
      · rw [handleConnect, handleConnect, lookup_connected hplayer, lookup_connected hplayer',
          h.kept c hc]
      · have hne : c ≠ peer := by
          rintro rfl
          exact hpeer hc
        rw [handleConnect, lookup_connected hplayer', if_neg hne, h.gone c hc]
      · have hne : c ≠ peer := by
          rintro rfl
          exact hpeer hc
        rw [handleConnect, lookup_connected hplayer, if_neg hne] at hfound
        exact h.quiet c found hc hfound

end Greet

def eventPeer : Event → Option Peer
  | .connect peer => some peer
  | .receive peer _ => some peer
  | .disconnect peer => some peer
  | .updateBots => none
  | .command _ => none

section Step

variable {stranger : Peer → Prop} {s t : Server}

variable [CppFloat F32] [Libm F32] [Platform]

theorem same_handle (h : Alike stranger s t) (hfinds : SameFinds s t) (now : Time)
    {event : Event} (hevent : ∀ peer, eventPeer event = some peer → ¬ stranger peer) :
    Alike stranger (handle s now event).1 (handle t now event).1 ∧
    ∀ c, sentTo c now (handle t now event).2 = sentTo c now (handle s now event).2 ∨
      (joined s c = false ∧ roll t ≠ roll s ∧
        SameGreeting (sentTo c now (handle s now event).2)
          (sentTo c now (handle t now event).2)) := by
  have hsame : ∀ {r r' : Server × List Out}, SameResult stranger r r' →
      Alike stranger r.1 r'.1 ∧ ∀ c, sentTo c now r'.2 = sentTo c now r.2 ∨
        (joined s c = false ∧ roll t ≠ roll s ∧
          SameGreeting (sentTo c now r.2) (sentTo c now r'.2)) :=
    fun hresult => ⟨hresult.alike, fun c => .inl (hresult.sent c now)⟩
  cases event with
  | connect peer => exact hsame (same_handleConnect h (hevent peer rfl))
  | receive peer bytes => exact same_handlePacket h (hevent peer rfl) bytes
  | disconnect peer => exact hsame (same_handleDisconnect h (hevent peer rfl))
  | updateBots => exact hsame (same_updateBots h hfinds)
  | command line => exact hsame (same_executeCommand h hfinds line)

end Step

section Strangers

variable {stranger : Peer → Prop} {s t : Server}

/-- A `Hello` that completes a handshake. -/
def isHello (bytes : Bytes) : Bool :=
  match decode bytes with
  | some (.hello hello) => hello.protocolVersion = currentProtocolVersion
  | _ => false

theorem stranger_handlePacket (now : Time) {peer : Peer} {player : Player} {bytes : Bytes}
    (hplayer : s.players.lookup peer = some player) (hshake : player.handshaked = false)
    (hhello : isHello bytes = false) :
    (handlePacket s now peer bytes).1 = s ∧
      ∀ c, c ≠ peer → sentTo c now (handlePacket s now peer bytes).2 = [] := by
  have hkick : ∀ reason, ∀ c, c ≠ peer → sentTo c now (kick peer reason) = [] := by
    intro reason c hc
    rw [sentTo_kick, if_neg hc.symm]
  rw [handlePacket_eq hplayer]
  dsimp only
  split
  · exact ⟨rfl, fun _ _ => rfl⟩
  split
  · exact ⟨rfl, hkick _⟩
  rename_i hgate
  cases hdecode : decode bytes with
  | none =>
      dsimp only
      split
      · exact ⟨rfl, hkick _⟩
      · exact ⟨rfl, fun _ _ => rfl⟩
  | some m =>
      have hid : m.id = .kHello := by
        rw [(header_of_decode hdecode).1] at hgate
        simpa [hshake] using hgate
      cases m with
      | hello hello =>
          have hversion : hello.protocolVersion ≠ currentProtocolVersion := by
            simpa [isHello, hdecode] using hhello
          dsimp only
          rw [acceptHello, if_pos hversion]
          exact ⟨rfl, hkick _⟩
      | _ => cases hid

theorem Alike.strangerConnects (h : Alike stranger s t) {peer : Peer}
    (hnew : s.players.lookup peer = none) (now : Time) :
    Alike (fun c => c = peer ∨ stranger c) (handleConnect s now peer).1 t where
  rest := h.rest
  kept c hc := by
    rw [not_or] at hc
    rw [handleConnect, lookup_connected hnew, if_neg hc.1, h.kept c hc.2]
  gone c hc := by
    by_cases hs : stranger c
    · exact h.gone c hs
    · obtain rfl := hc.resolve_right hs
      rw [h.kept c hs, hnew]
  quiet c player hc hplayer := by
    rw [handleConnect, lookup_connected hnew] at hplayer
    split at hplayer
    · obtain rfl := Option.some.inj hplayer
      rfl
    · rename_i hne
      exact h.quiet c player (hc.resolve_left hne) hplayer

theorem Alike.strangerLeaves (h : Alike stranger s t) {peer : Peer} (hpeer : stranger peer) :
    Alike (fun c => c ≠ peer ∧ stranger c) (handleDisconnect s peer).1 t ∧
      (handleDisconnect s peer).2 = [] := by
  have hgone : ∀ {s' : Server}, s' = { s with players := s'.players } →
      (∀ c, s'.players.lookup c = if c = peer then none else s.players.lookup c) →
      Alike (fun c => c ≠ peer ∧ stranger c) s' t := by
    intro s' hrest hlookup
    refine ⟨?_, fun c hc => ?_, fun c hc => h.gone c hc.2, fun c player hc hplayer => ?_⟩
    · rw [hrest]
      exact h.rest
    · rw [hlookup]
      by_cases hne : c = peer
      · subst hne
        rw [if_pos rfl, h.gone c hpeer]
      · rw [if_neg hne, h.kept c fun hs => hc ⟨hne, hs⟩]
    · rw [hlookup, if_neg hc.1] at hplayer
      exact h.quiet c player hc.2 hplayer
  rw [handleDisconnect]
  cases hplayer : s.players.lookup peer with
  | none =>
      refine ⟨hgone rfl fun c => ?_, rfl⟩
      by_cases hc : c = peer
      · rw [hc, if_pos rfl]
        exact hplayer
      · rw [if_neg hc]
  | some player =>
      dsimp only
      rw [h.quiet peer player hpeer hplayer, if_neg (by rintro ⟨⟩)]
      exact ⟨hgone rfl (lookup_withoutPlayer s peer), rfl⟩

end Strangers

end F4MP.ServerAlike
