import F4MP.ServerOrigins

/-!
The handshake of one connection: what is sent before it, that it happens once, and
that the id it gives stays until the connection ends.
-/

namespace F4MP.Handshake

open F4MP.Types
open F4MP.Protocol
open F4MP.Messages
open F4MP.Arith
open F4MP.ServerModel
open F4MP.ServerConsole
open F4MP.ServerRun
open F4MP.ServerTraffic
open F4MP.ServerEffects
open F4MP.ServerOrigins
open F4MP.Library.Runs

def IsReject (sent : Sent) : Prop := kind sent = some .kReject

def IsWelcome (sent : Sent) : Prop := kind sent = some .kWelcome

instance (sent : Sent) : Decidable (IsWelcome sent) := inferInstanceAs (Decidable (_ = _))

/-- What was sent on a connection that was given this id, or none yet. -/
inductive Gate : List Sent → Option PlayerId → Prop where
  | closed {rejects : List Sent} (hrejects : ∀ sent ∈ rejects, IsReject sent) :
      Gate rejects none
  | opened {rejects rest : List Sent} {welcome : Sent} {msg : WelcomeMsg}
      (hrejects : ∀ sent ∈ rejects, IsReject sent)
      (hwelcome : decode welcome.bytes = some (.welcome msg))
      (hrest : ∀ sent ∈ rest, ¬ IsWelcome sent) :
      Gate (rejects ++ welcome :: rest) (some msg.id)

theorem Gate.append_rejects {link more : List Sent} {id : Option PlayerId} (h : Gate link id)
    (hmore : ∀ sent ∈ more, IsReject sent) : Gate (link ++ more) id := by
  cases h with
  | closed hrejects =>
      exact .closed fun sent hsent => (List.mem_append.mp hsent).elim (hrejects _) (hmore _)
  | opened hrejects hwelcome hrest =>
      rw [List.append_assoc, List.cons_append]
      refine .opened hrejects hwelcome fun sent hsent => ?_
      rcases List.mem_append.mp hsent with hsent | hsent
      · exact hrest sent hsent
      · have hreject : kind sent = some .kReject := hmore sent hsent
        rw [IsWelcome, hreject]
        decide

theorem Gate.append_opened {link more : List Sent} {id : PlayerId} (h : Gate link (some id))
    (hmore : ∀ sent ∈ more, ¬ IsWelcome sent) : Gate (link ++ more) (some id) := by
  generalize hgate : some id = gate at h
  cases h with
  | closed => cases hgate
  | opened hrejects hwelcome hrest =>
      rw [List.append_assoc, List.cons_append]
      exact .opened hrejects hwelcome fun sent hsent =>
        (List.mem_append.mp hsent).elim (hrest _) (hmore _)

theorem Gate.shape {link : List Sent} {id : Option PlayerId} (h : Gate link id) :
    ∃ rejects rest, link = rejects ++ rest ∧ (∀ sent ∈ rejects, IsReject sent) ∧
      (rest = [] ∨ ∃ welcome tail, rest = welcome :: tail ∧ IsWelcome welcome ∧
        ∀ sent ∈ tail, ¬ IsWelcome sent) := by
  cases h with
  | closed hrejects => exact ⟨_, [], (List.append_nil _).symm, hrejects, .inl rfl⟩
  | opened hrejects hwelcome hrest =>
      refine ⟨_, _, rfl, hrejects, .inr ⟨_, _, rfl, ?_, hrest⟩⟩
      rw [IsWelcome, kind, hwelcome]
      rfl

theorem Gate.id_of_welcome {link : List Sent} {id : Option PlayerId} (h : Gate link id)
    {sent : Sent} (hsent : sent ∈ link) {msg : WelcomeMsg}
    (hdecode : decode sent.bytes = some (.welcome msg)) : id = some msg.id := by
  have hkind : kind sent = some .kWelcome := by
    rw [kind, hdecode]
    rfl
  have hnot : ¬ IsReject sent := by
    rw [IsReject, hkind]
    decide
  cases h with
  | closed hrejects => exact absurd (hrejects sent hsent) hnot
  | opened hrejects hwelcome hrest =>
      rcases List.mem_append.mp hsent with hreject | hcons
      · exact absurd (hrejects sent hreject) hnot
      · rcases List.mem_cons.mp hcons with rfl | htail
        · rw [hdecode] at hwelcome
          cases hwelcome
          rfl
        · exact absurd hkind (hrest sent htail)

theorem Gate.welcome_iff {link : List Sent} {id : Option PlayerId} (h : Gate link id) :
    (∃ sent ∈ link, IsWelcome sent) ↔ id.isSome = true := by
  constructor
  · rintro ⟨sent, hsent, hwelcome⟩
    obtain ⟨m, hdecode, hid⟩ := Option.map_eq_some_iff.mp hwelcome
    cases m with
    | welcome msg => rw [h.id_of_welcome hsent hdecode, Option.isSome_some]
    | _ => cases hid
  · intro hsome
    cases h with
    | closed => cases hsome
    | @opened _ _ welcome _ _ hwelcome =>
        refine ⟨welcome, by simp, ?_⟩
        rw [IsWelcome, kind, hwelcome]
        rfl

section Effects

variable {now : Time} {s s' : Server} {event : Event} {outs : List Out} {c : Peer}

theorem rejects_of_unjoined (heffect : Effect now s event s' outs) (hc : joined s' c = false) :
    ∀ sent ∈ sentTo c now outs, IsReject sent := by
  intro sent hsent
  rcases (origin_of_mem heffect hsent).2 with hreject | hdest
  · exact hreject
  · exact absurd (hc.symm.trans hdest) (by rintro ⟨⟩)

theorem not_welcome_of_joined (heffect : Effect now s event s' outs) (hc : joined s c = true) :
    ∀ sent ∈ sentTo c now outs, ¬ IsWelcome sent := by
  intro sent hsent
  have horigin := (origin_of_mem heffect hsent).1
  cases horigin with
  | welcomed player hello hplayer hshake =>
      rw [joined_eq hplayer, hshake] at hc
      cases hc
  | caughtUp _ _ _ _ _ _ hannounces | caughtUpBot _ _ _ hannounces =>
      rcases hannounces.kind_eq with hkind | hkind <;> simp [IsWelcome, hkind]
  | _ => simp [IsWelcome]

theorem welcome_answers_hello (heffect : Effect now s event s' outs)
    (hbefore : joined s c = false) (hafter : joined s' c = true) :
    ∃ player bytes hello, event = .receive c bytes ∧ decode bytes = some (.hello hello) ∧
      hello.protocolVersion = currentProtocolVersion ∧ s.players.lookup c = some player ∧
      player.handshaked = false ∧ s' = seat s c player hello ∧
      outs = greet (seat s c player hello) now c (welcomedPlayer s player hello) := by
  rcases heffect.lookup_cases c with hkept | ⟨-, -, hnew⟩ | ⟨-, hleft⟩ | hjoin | hheard
  · rw [joined, hkept] at hafter
    exact absurd (hbefore.symm.trans hafter) (by rintro ⟨⟩)
  · rw [joined_eq hnew] at hafter
    cases hafter
  · rw [joined_eq_false hleft] at hafter
    cases hafter
  · obtain ⟨player, bytes, hello, hevent, hplayer, hshake, hdecode, hversion, hs', houts⟩ := hjoin
    exact ⟨player, bytes, hello, hevent, hdecode, hversion, hplayer, hshake, hs', houts⟩
  · obtain ⟨player, -, -, -, hplayer, hshake, -⟩ := hheard
    rw [joined_eq hplayer, hshake] at hbefore
    cases hbefore

theorem stays_joined (heffect : Effect now s event s' outs) {player : Player}
    (hplayer : s.players.lookup c = some player) (hshake : player.handshaked = true) :
    (event = .disconnect c ∧ s'.players.lookup c = none) ∨
      ∃ player', s'.players.lookup c = some player' ∧ player'.handshaked = true ∧
        player'.id = player.id := by
  rcases heffect.lookup_cases c with hkept | ⟨-, hnone, -⟩ | hleft | hjoin | hheard
  · exact .inr ⟨player, hkept.trans hplayer, hshake, rfl⟩
  · rw [hnone] at hplayer
    cases hplayer
  · exact .inl hleft
  · obtain ⟨old, -, -, -, hold, hfalse, -⟩ := hjoin
    obtain rfl := Option.some.inj (hold.symm.trans hplayer)
    exact absurd (hfalse.symm.trans hshake) (by rintro ⟨⟩)
  · obtain ⟨old, player', -, -, hold, -, hlookup, hshake', hid⟩ := hheard
    obtain rfl := Option.some.inj (hold.symm.trans hplayer)
    exact .inr ⟨player', hlookup, hshake', hid⟩

theorem still_joined (heffect : Effect now s event s' outs) {player player' : Player}
    (hplayer : s.players.lookup c = some player) (hshake : player.handshaked = true)
    (hplayer' : s'.players.lookup c = some player') :
    player'.handshaked = true ∧ player'.id = player.id := by
  rcases stays_joined heffect hplayer hshake with ⟨-, hleft⟩ | ⟨found, hfound, hstill⟩
  · rw [hleft] at hplayer'
    cases hplayer'
  · obtain rfl := Option.some.inj (hfound.symm.trans hplayer')
    exact hstill

theorem left_once {player : Player} (hplayer : s.players.lookup c = some player) (now : Time)
    (d : Peer) :
    (sentTo d now (handleDisconnect s c).2).filter (fun sent => kind sent = some .kPlayerLeft) =
      if player.handshaked = true ∧ d ≠ c ∧ joined s d = true then
        [⟨now, .kReliable, encode { id := player.id : PlayerLeftMsg }⟩]
      else [] := by
  simp only [handleDisconnect, hplayer]
  cases hshake : player.handshaked with
  | false => simp
  | true =>
      have hrest : joined { s with players := s.players.erase c } d =
          if d = c then false else joined s d := by
        rw [joined, lookup_withoutPlayer]
        split <;> rfl
      rw [if_pos rfl, sentTo_append, sentTo_broadcast, sentTo_serverChat, hrest]
      by_cases hd : d = c
      · simp [hd]
      · cases joined s d <;> simp [hd]

end Effects

/-- The log of a connection agrees with the record of the player. -/
def Gated (s : Server) (c : Peer) (link : List Sent) : Prop :=
  ∃ id, Gate link id ∧ ∀ player, s.players.lookup c = some player →
    id = if player.handshaked then some player.id else none

theorem Gated.opened {s : Server} {c : Peer} {link : List Sent} (h : Gated s c link)
    {player : Player} (hplayer : s.players.lookup c = some player)
    (hshake : player.handshaked = true) : Gate link (some player.id) := by
  obtain ⟨id, hgate, hid⟩ := h
  rw [hid player hplayer, if_pos hshake] at hgate
  exact hgate

theorem gate_nil : Gate [] none := .closed (by rintro _ ⟨⟩)

theorem gated_effect {now : Time} {s s' : Server} {event : Event} {outs : List Out} {c : Peer}
    {link : List Sent} (heffect : Effect now s event s' outs) (h : Gated s c link)
    (hopens : event = .connect c → s.players.lookup c = none → link = []) :
    Gated s' c (link ++ sentTo c now outs) := by
  obtain ⟨id, hgate, hid⟩ := h
  have hopened : ∀ {player : Player}, s.players.lookup c = some player → player.handshaked = true →
      Gate (link ++ sentTo c now outs) (some player.id) := by
    intro player hplayer hshake
    have hsome := hid player hplayer
    rw [if_pos hshake] at hsome
    subst hsome
    apply hgate.append_opened
    exact not_welcome_of_joined heffect (by rw [joined_eq hplayer, hshake])
  rcases heffect.lookup_cases c with hkept | ⟨hevent, hnone, hnew⟩ | ⟨-, hleft⟩ | hjoin | hheard
  · cases hc : joined s c with
    | true =>
        obtain ⟨player, hplayer, hshake⟩ := joined_iff.mp hc
        refine ⟨_, hopened hplayer hshake, fun player' hplayer' => ?_⟩
        rw [hkept, hplayer] at hplayer'
        obtain rfl := Option.some.inj hplayer'
        rw [if_pos hshake]
    | false =>
        have hc' : joined s' c = false := by rwa [joined, hkept]
        exact ⟨id, hgate.append_rejects (rejects_of_unjoined heffect hc'),
          fun player hplayer => hid player (hkept ▸ hplayer)⟩
  · rw [hopens hevent hnone]
    refine ⟨none, gate_nil.append_rejects ?_, fun player hplayer => ?_⟩
    · exact rejects_of_unjoined heffect (by rw [joined_eq hnew])
    · rw [hnew] at hplayer
      obtain rfl := Option.some.inj hplayer
      rfl
  · have hvacuous : ∀ {id : Option PlayerId} (player : Player),
        s'.players.lookup c = some player → id = if player.handshaked then some player.id else none
        := by
      intro id player hplayer
      rw [hleft] at hplayer
      cases hplayer
    cases hc : joined s c with
    | true =>
        obtain ⟨player, hplayer, hshake⟩ := joined_iff.mp hc
        exact ⟨_, hopened hplayer hshake, hvacuous⟩
    | false =>
        exact ⟨id, hgate.append_rejects (rejects_of_unjoined heffect (joined_eq_false hleft)),
          hvacuous⟩
  · obtain ⟨player, bytes, hello, -, hplayer, hshake, -, -, rfl, rfl⟩ := hjoin
    have hnone := hid player hplayer
    rw [hshake] at hnone
    cases hgate with
    | opened => cases hnone
    | closed hrejects =>
        rw [sentTo_greet, if_pos rfl]
        refine ⟨_, .opened hrejects (decode_welcome _) fun sent hsent => ?_, ?_⟩
        · rcases List.mem_append.mp hsent with hcatchUp | hchat
          · rcases kind_of_mem_catchUp hcatchUp with hkind | hkind <;> simp [IsWelcome, hkind]
          · split at hchat
            · rw [List.mem_singleton.mp hchat]
              simp [IsWelcome]
            · cases hchat
        · intro player' hplayer'
          rw [lookup_seat hplayer, if_pos rfl] at hplayer'
          obtain rfl := Option.some.inj hplayer'
          rfl
  · obtain ⟨player, player', -, -, hplayer, hshake, hplayer', hshake', hsame⟩ := hheard
    refine ⟨_, hopened hplayer hshake, fun found hfound => ?_⟩
    rw [hplayer'] at hfound
    obtain rfl := Option.some.inj hfound
    rw [if_pos hshake', hsame]

theorem Gated.opens {s : Server} {c : Peer} {link : List Sent} (h : Gated s c link)
    (input : Input) :
    Gated (reorder s input.order) c (if opens s input c then [] else link) := by
  split
  · rename_i hopens
    refine ⟨none, gate_nil, fun player hplayer => ?_⟩
    rw [lookup_reorder, lookup_of_opens hopens] at hplayer
    cases hplayer
  · obtain ⟨id, hgate, hid⟩ := h
    exact ⟨id, hgate, fun player hplayer => hid player (by simpa using hplayer)⟩

section Runs

variable [CppFloat F32] [Libm F32] [Platform]

theorem gated_step {net : Network} {c : Peer} (input : Input)
    (h : Gated net.server c (net.link c)) :
    Gated (net.step input).server c ((net.step input).link c) := by
  apply gated_effect (step_effect net.server input) (h.opens input)
  · intro hevent hnone
    rw [lookup_reorder] at hnone
    rw [if_pos (by simp [opens, hevent, hnone])]

/-- The log of every connection agrees with its record, after every run. -/
theorem gated_after (config : Config) (startTime : Time) (inputs : List Input) (c : Peer) :
    Gated (Network.after config startTime inputs).server c
      ((Network.after config startTime inputs).link c) := by
  refine Network.after_induction (P := fun net => Gated net.server c (net.link c)) ?_ ?_ inputs
  · exact ⟨none, gate_nil, by rintro _ ⟨⟩⟩
  · exact fun inputs input h => gated_step input h

theorem stays_joined_run {config : Config} {startTime : Time} {inputs more : List Input}
    {c : Peer} {player : Player}
    (hplayer : (Network.after config startTime inputs).server.players.lookup c = some player)
    (hshake : player.handshaked = true) (hmore : ∀ input ∈ more, input.event ≠ .disconnect c) :
    ∃ player', (Network.after config startTime (inputs ++ more)).server.players.lookup c =
      some player' ∧ player'.handshaked = true ∧ player'.id = player.id := by
  induction more using List.reverseRecOn with
  | nil => exact ⟨player, by simpa using hplayer, hshake, rfl⟩
  | append_singleton more input ih =>
      obtain ⟨player', hplayer', hshake', hid'⟩ :=
        ih fun input hinput => hmore input (List.mem_append_left _ hinput)
      have heffect := step_effect (Network.after config startTime (inputs ++ more)).server input
      obtain ⟨player'', hplayer'', hshake'', hid''⟩ :=
        (stays_joined heffect (c := c) (by rwa [lookup_reorder]) hshake').resolve_left fun hleft =>
          hmore input (by simp) hleft.1
      refine ⟨player'', ?_, hshake'', hid''.trans hid'⟩
      rw [← List.append_assoc, Network.after_concat]
      exact hplayer''

/-- A connection is sent rejections until its handshake, one welcome when a `Hello`
of the right version completes it, and no welcome after; the player keeps the id of
the welcome until the connection ends, and its end is announced once. -/
theorem handshake_gating (config : Config) (startTime : Time) (inputs : List Input) (c : Peer) :
    let net := Network.after config startTime inputs
    (∃ rejects rest, net.link c = rejects ++ rest ∧ (∀ sent ∈ rejects, IsReject sent) ∧
      (rest = [] ∨ ∃ welcome tail, rest = welcome :: tail ∧ IsWelcome welcome ∧
        ∀ sent ∈ tail, ¬ IsWelcome sent)) ∧
    (∀ player, net.server.players.lookup c = some player →
      ((∃ sent ∈ net.link c, IsWelcome sent) ↔ player.handshaked = true) ∧
      ∀ sent ∈ net.link c, ∀ msg, decode sent.bytes = some (.welcome msg) → msg.id = player.id) ∧
    (∀ player, net.server.players.lookup c = some player → player.handshaked = true →
      ∀ more, (∀ input ∈ more, input.event ≠ .disconnect c) →
      ∃ player', (Network.after config startTime (inputs ++ more)).server.players.lookup c =
        some player' ∧ player'.handshaked = true ∧ player'.id = player.id) ∧
    ∀ input,
      let outs := (step net.server input).2
      (∀ sent ∈ sentTo c input.now outs, IsWelcome sent →
        ∃ bytes hello, input.event = .receive c bytes ∧ decode bytes = some (.hello hello) ∧
          hello.protocolVersion = currentProtocolVersion) ∧
      (∀ player, net.server.players.lookup c = some player → input.event = .disconnect c →
        ∀ d, (sentTo d input.now outs).filter (fun sent => kind sent = some .kPlayerLeft) =
          if player.handshaked = true ∧ d ≠ c ∧ joined net.server d = true then
            [⟨input.now, .kReliable, encode { id := player.id : PlayerLeftMsg }⟩]
          else []) := by
  intro net
  obtain ⟨id, hgate, hid⟩ := gated_after config startTime inputs c
  refine ⟨?_, ?_, fun player hplayer hshake more hmore => stays_joined_run hplayer hshake hmore,
    fun input => ⟨?_, ?_⟩⟩
  · exact hgate.shape
  · intro player hplayer
    have hsame := hid player hplayer
    constructor
    · rw [hgate.welcome_iff, hsame]
      cases player.handshaked <;> simp
    · intro sent hsent msg hdecode
      rw [hgate.id_of_welcome hsent hdecode] at hsame
      split at hsame
      · exact Option.some.inj hsame
      · cases hsame
  · intro sent hsent hwelcome
    have heffect := step_effect net.server input
    cases hafter : joined (step net.server input).1 c with
    | false =>
        have hreject := rejects_of_unjoined heffect hafter sent hsent
        exact absurd (hreject.symm.trans hwelcome) (by rintro ⟨⟩)
    | true =>
        cases hbefore : joined (reorder net.server input.order) c with
        | true => exact absurd hwelcome (not_welcome_of_joined heffect hbefore sent hsent)
        | false =>
            obtain ⟨-, bytes, hello, hevent, hdecode, hversion, -⟩ :=
              welcome_answers_hello heffect hbefore hafter
            exact ⟨bytes, hello, hevent, hdecode, hversion⟩
  · intro player hplayer hevent d
    have hstep : (step net.server input).2 =
        (handleDisconnect (reorder net.server input.order) c).2 := by
      rw [step, hevent, handle]
    rw [hstep, left_once (by rwa [lookup_reorder]) input.now d, joined_reorder]

end Runs

end F4MP.Handshake
