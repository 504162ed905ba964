import F4MP.Participants

/-!
What the server keeps of a connection is made of the packets it got there: a view of
the record that every packet changes by itself is the fold of the packets.
-/

namespace F4MP.Records

open F4MP.Types
open F4MP.Protocol
open F4MP.Messages
open F4MP.Arith
open F4MP.ServerModel
open F4MP.ServerConsole
open F4MP.ServerRun
open F4MP.ServerTraffic
open F4MP.ServerEffects
open F4MP.Library.HashTable
open F4MP.Library.Runs

/-- The record of a player after a packet of its own. -/
def heardRecord (s : Server) (now : Time) (player : Player) : Option Message → Player
  | some (.hello hello) =>
      if player.handshaked = false ∧ hello.protocolVersion = currentProtocolVersion then
        welcomedPlayer s player hello
      else player
  | some (.playerState msg) =>
      if player.handshaked = true ∧ isPlausible msg.state = true then
        { player with state := msg.state, hasState := true }
      else player
  | some (.chat msg) =>
      if player.handshaked = true ∧ msg.text.isEmpty = false then rollChatWindow player now else player
  | some (.setName msg) =>
      if player.handshaked = true then { player with name := sanitizeName msg.name } else player
  | _ => player

section Packets

variable {s : Server} {now : Time} {peer : Peer} {bytes : Bytes} {player : Player}

theorem lookup_setPlayer_self {player' : Player} (hplayer : s.players.lookup peer = some player) :
    (setPlayer s peer player').players.lookup peer = some player' := by
  rw [lookup_setPlayer hplayer, if_pos rfl]

theorem lookup_acceptHello (hplayer : s.players.lookup peer = some player) (hello : HelloMsg) :
    (acceptHello s now peer player hello).1.players.lookup peer =
      some (heardRecord s now player (some (.hello hello))) := by
  rw [acceptHello, heardRecord]
  by_cases hversion : hello.protocolVersion = currentProtocolVersion
  · rw [if_neg (not_not_intro hversion)]
    cases hshake : player.handshaked with
    | true =>
        rw [if_pos rfl, if_neg fun h => Bool.noConfusion h.1]
        exact hplayer
    | false =>
        rw [if_neg Bool.false_ne_true, if_pos ⟨rfl, hversion⟩]
        exact lookup_setPlayer_self (s := { s with nextId := s.nextId + 1 }) hplayer
  · rw [if_pos hversion, if_neg fun h => hversion h.2]
    exact hplayer

theorem lookup_acceptChat (hplayer : s.players.lookup peer = some player) (text : Bytes) :
    (acceptChat s now peer player text).1.players.lookup peer = some (rollChatWindow player now) := by
  rw [acceptChat]
  dsimp only
  split
  · exact lookup_setPlayer_self hplayer
  · split <;> exact lookup_setPlayer_self hplayer

theorem lookup_acceptName (hplayer : s.players.lookup peer = some player) (name : Bytes) :
    (acceptName s peer player name).1.players.lookup peer =
      some { player with name := sanitizeName name } := by
  rw [acceptName]
  dsimp only
  split
  · rename_i hsame
    rw [hsame]
    exact hplayer
  · exact lookup_setPlayer_self hplayer

theorem lookup_handlePacket (hplayer : s.players.lookup peer = some player) :
    (handlePacket s now peer bytes).1.players.lookup peer =
      some (heardRecord s now player (decode bytes)) := by
  rw [handlePacket_eq hplayer]
  cases hdecode : decode bytes with
  | none =>
      dsimp only [heardRecord]
      split
      · exact hplayer
      · split
        · exact hplayer
        · split <;> exact hplayer
  | some m =>
      obtain ⟨hid, hok⟩ := header_of_decode hdecode
      dsimp only
      rw [hid, hok, if_neg (by rintro ⟨⟩)]
      split
      · rename_i hgate
        -- a stranger is heard only when it says hello
        cases m with
        | hello hello => exact absurd rfl hgate.2
        | playerState | chat | setName => simpa [heardRecord, hgate.1] using hplayer
        | _ => exact hplayer
      · rename_i hgate
        cases m with
        | hello hello => exact lookup_acceptHello hplayer hello
        | playerState msg =>
            have hshake : player.handshaked = true := by simpa [Message.id] using hgate
            dsimp only [heardRecord]
            by_cases hok : isPlausible msg.state = true
            · rw [if_pos hok, if_pos ⟨hshake, hok⟩]
              exact lookup_setPlayer_self hplayer
            · rw [if_neg hok, if_neg fun h => hok h.2]
              exact hplayer
        | chat msg =>
            have hshake : player.handshaked = true := by simpa [Message.id] using hgate
            dsimp only [heardRecord]
            by_cases hempty : msg.text.isEmpty = true
            · rw [if_pos hempty, if_neg fun h => by rw [hempty] at h; exact Bool.noConfusion h.2]
              exact hplayer
            · rw [if_neg hempty, if_pos ⟨hshake, Bool.eq_false_iff.mpr hempty⟩]
              exact lookup_acceptChat hplayer _
        | setName msg =>
            have hshake : player.handshaked = true := by simpa [Message.id] using hgate
            dsimp only [heardRecord]
            rw [if_pos hshake]
            exact lookup_acceptName hplayer _
        | _ => exact hplayer

end Packets

/-- What is made of the packets of the connection at `peer`, if there is one. -/
def track {α : Type} (start : α) (hear : α → Bytes → α) (peer : Peer) (view : Option α)
    (input : Input) : Option α :=
  match input.event with
  | .connect p => if p = peer then some (view.getD start) else view
  | .disconnect p => if p = peer then none else view
  | .receive p bytes => if p = peer then view.map (hear · bytes) else view
  | _ => view

/-- The packets the server got on the connection at `peer`, if there is one. -/
def arrivals (peer : Peer) (inputs : List Input) : Option (List Bytes) :=
  inputs.foldl (track [] (fun got bytes => got ++ [bytes]) peer) none

theorem arrivals_concat (peer : Peer) (inputs : List Input) (input : Input) :
    arrivals peer (inputs ++ [input]) =
      track [] (fun got bytes => got ++ [bytes]) peer (arrivals peer inputs) input :=
  List.foldl_concat ..

theorem foldl_track {α : Type} (start : α) (hear : α → Bytes → α) (peer : Peer)
    (inputs : List Input) : inputs.foldl (track start hear peer) none =
      (arrivals peer inputs).map fun got => got.foldl hear start := by
  induction inputs using List.reverseRecOn with
  | nil => rfl
  | append_singleton inputs input ih =>
      rw [List.foldl_concat, ih, arrivals_concat]
      generalize arrivals peer inputs = got
      rw [track, track]
      cases input.event with
      | connect p =>
          dsimp only
          split
          · cases got <;> rfl
          · rfl
      | receive p bytes =>
          dsimp only
          split
          · cases got with
            | none => rfl
            | some got => exact congrArg some (List.foldl_concat ..).symm
          · rfl
      | disconnect p =>
          dsimp only
          split <;> rfl
      | updateBots | command => rfl

section Runs

variable [CppFloat F32] [Libm F32] [Platform]

theorem view_step {α : Type} {start : α} {hear : α → Bytes → α} {view : Player → α}
    (hstart : ∀ now, view { joinedAt := now } = start)
    (hheard : ∀ s now player bytes,
      view (heardRecord s now player (decode bytes)) = hear (view player) bytes)
    (s : Server) (input : Input) (peer : Peer) :
    ((step s input).1.players.lookup peer).map view =
      track start hear peer ((s.players.lookup peer).map view) input := by
  have hcases := (step_effect s input).lookup_cases peer
  rw [lookup_reorder] at hcases
  -- an event of another connection, or of none
  have hother : (∀ p bytes, input.event = .receive p bytes → p ≠ peer) →
      input.event ≠ .connect peer → input.event ≠ .disconnect peer →
      (step s input).1.players.lookup peer = s.players.lookup peer := by
    intro hreceive hconnect hdisconnect
    rcases hcases with hkept | ⟨hevent, -⟩ | ⟨hevent, -⟩ | hjoin | hheard
    · exact hkept
    · exact absurd hevent hconnect
    · exact absurd hevent hdisconnect
    · obtain ⟨-, bytes, -, hevent, -⟩ := hjoin
      exact absurd rfl (hreceive peer bytes hevent)
    · obtain ⟨-, -, bytes, hevent, -⟩ := hheard
      exact absurd rfl (hreceive peer bytes hevent)
  rw [track]
  cases hevent : input.event with
  | connect p =>
      by_cases hp : p = peer
      · subst hp
        have hstep : (step s input).1 = (handleConnect (reorder s input.order) input.now p).1 := by
          rw [step, hevent, handle]
        dsimp only
        rw [hstep, if_pos rfl, handleConnect]
        cases hplayer : s.players.lookup p with
        | none =>
            rw [lookup_connected (by rwa [lookup_reorder]), if_pos rfl]
            exact congrArg some (hstart input.now)
        | some player =>
            rw [emplace_of_some ((lookup_reorder s _ _).trans hplayer), lookup_reorder, hplayer]
            rfl
      · dsimp only
        rw [if_neg hp, hother (by simp [hevent]) (by simp [hevent, hp]) (by simp [hevent])]
  | receive p bytes =>
      by_cases hp : p = peer
      · subst hp
        have hstep : (step s input).1 =
            (handlePacket (reorder s input.order) input.now p bytes).1 := by
          rw [step, hevent, handle]
        dsimp only
        rw [hstep, if_pos rfl]
        cases hplayer : s.players.lookup p with
        | none =>
            have hnone := (lookup_reorder s input.order p).trans hplayer
            simp [handlePacket, hnone]
        | some player =>
            rw [lookup_handlePacket ((lookup_reorder s _ _).trans hplayer), Option.map_some, hheard]
            rfl
      · dsimp only
        rw [if_neg hp, hother (by simp [hevent, hp]) (by simp [hevent]) (by simp [hevent])]
  | disconnect p =>
      by_cases hp : p = peer
      · subst hp
        have hstep : (step s input).1 = (handleDisconnect (reorder s input.order) p).1 := by
          rw [step, hevent, handle]
        rw [hstep]
        dsimp only
        rw [if_pos rfl, handleDisconnect]
        split
        · rename_i hnone
          rw [hnone]
          rfl
        · dsimp only
          split <;> rw [lookup_withoutPlayer, if_pos rfl] <;> rfl
      · dsimp only
        rw [if_neg hp, hother (by simp [hevent]) (by simp [hevent]) (by simp [hevent, hp])]
  | updateBots => rw [hother (by simp [hevent]) (by simp [hevent]) (by simp [hevent])]
  | command line => rw [hother (by simp [hevent]) (by simp [hevent]) (by simp [hevent])]

/-- After a run a view of a record is what is made of the packets of the connection. -/
theorem view_after {α : Type} {start : α} {hear : α → Bytes → α} {view : Player → α}
    (hstart : ∀ now, view { joinedAt := now } = start)
    (hheard : ∀ s now player bytes,
      view (heardRecord s now player (decode bytes)) = hear (view player) bytes)
    (config : Config) (startTime : Time) (inputs : List Input) (peer : Peer) :
    ((Network.after config startTime inputs).server.players.lookup peer).map view =
      (arrivals peer inputs).map fun got => got.foldl hear start := by
  rw [← foldl_track]
  induction inputs using List.reverseRecOn with
  | nil => rfl
  | append_singleton inputs input ih =>
      rw [Network.after_concat, List.foldl_concat, ← ih]
      exact view_step hstart hheard (Network.after config startTime inputs).server input peer

end Runs

end F4MP.Records
