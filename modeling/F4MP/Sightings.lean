import F4MP.Manners
import F4MP.Rehearsal
import F4MP.Relay
import F4MP.Snapshots

/-!
What is seen of a player was sent by the player: every snapshot that a client has of
another one is a state the other sent on its connection, bit for bit.
-/

namespace F4MP.Sightings

open F4MP.Types
open F4MP.Protocol
open F4MP.Messages
open F4MP.Arith
open F4MP.Interp
open F4MP.ServerRun (Sent Network)
open F4MP.GameUtil
open F4MP.RemotePlayersModel
open F4MP.SessionModel
open F4MP.Connection
open F4MP.ClientRun
open F4MP.ClientTurns
open F4MP.Clones
open F4MP.Snapshots
open F4MP.RemoteNames
open F4MP.Delivery
open F4MP.SentNames
open F4MP.NameAgreement
open F4MP.ServerModel (Peer Player Time)
open F4MP.ServerRun (reorder)
open F4MP.ServerTraffic
open F4MP.ServerEffects
open F4MP.Participants
open F4MP.Records
open F4MP.Relay
open F4MP.Chronicle
open F4MP.WorldModel
open F4MP.Rehearsal
open F4MP.Library.HashTable
open F4MP.Library.Runs
open F4MP.Library.Wires

section Operations

variable {F D : Type} {scene scene' : Scene F D}

/-- No snapshot is there that was not there before. -/
def NoneNew (scene scene' : Scene F D) : Prop :=
  ∀ id player', scene'.find id = some player' → player'.snapshots ⊆ buffer scene id

theorem noneNew_of_map {f : RemotePlayer F → RemotePlayer F}
    (hf : ∀ player, (f player).snapshots = player.snapshots)
    (hfind : ∀ id, scene'.find id = (scene.find id).map f) : NoneNew scene scene' := by
  intro id player' hplayer'
  rw [hfind] at hplayer'
  obtain ⟨player, hplayer, rfl⟩ := Option.map_eq_some_iff.mp hplayer'
  rw [hf, buffer_eq hplayer]
  exact List.Subset.refl _

theorem noneNew_of_find (hfind : ∀ id, scene'.find id = scene.find id) : NoneNew scene scene' :=
  noneNew_of_map (fun _ => rfl) fun id => by rw [hfind, Option.map_id']

theorem noneNew_of_record {id : PlayerId} {record : RemotePlayer F}
    (hfind : ∀ c, scene'.find c = if c = id then some record else scene.find c)
    (hrecord : record.snapshots = buffer scene id) :
    NoneNew scene scene' := by
  intro c player' hplayer'
  rw [hfind] at hplayer'
  split at hplayer'
  · rename_i hc
    obtain rfl := Option.some.inj hplayer'
    rw [hc, hrecord]
    exact List.Subset.refl _
  · rw [buffer_eq hplayer']
    exact List.Subset.refl _

theorem buffer_reorder (scene : Scene F D) (order : PlayerOrder F) (id : PlayerId) :
    buffer (scene.reorder order) id = buffer scene id := by
  have hfind : (scene.reorder order).find id = scene.find id := lookup_arrange order _ id
  rw [buffer, hfind, buffer]

variable [CppFloat F] [CppFloat D]

omit [CppFloat D] in
theorem noneNew_respawn (scene : Scene F D) {remotes : RemotePlayers F D}
    (hplayers : remotes.players = scene.remotes.players) :
    NoneNew scene (respawn { scene with remotes }) := by
  refine noneNew_of_map (f := fun player => { player with actor := none }.respawned)
    (fun _ => rfl) fun id => ?_
  have hdespawned : (despawnAll { scene with remotes }).find id =
      (scene.find id).map fun player => { player with actor := none } :=
    (lookup_mapValues _ _ id).trans (by rw [hplayers]; rfl)
  refine (lookup_mapValues _ _ id).trans ?_
  rw [show (despawnAll { scene with remotes }).remotes.players.lookup id = _ from hdespawned,
    Option.map_map]
  rfl

variable [Libm F] [Narrow D F] [Widen F D]

theorem noneNew_update (scene : Scene F D) (input : UpdateInput D) :
    NoneNew scene (update scene input) := by
  cases hspace : input.localSpace with
  | none =>
      rw [update, hspace]
      exact noneNew_of_find fun _ => rfl
  | some localSpace =>
      have hspec := update_spec hspace scene
      intro id player' hplayer'
      by_cases hid : id ∈ scene.remotes.players.keys
      · obtain ⟨player, hplayer, htrimmed⟩ := hspec.trimmed id hid player' hplayer'
        rw [htrimmed, buffer_eq hplayer]
        exact (trim_suffix _ _).subset
      · rw [hspec.others id hid] at hplayer'
        rw [buffer_eq hplayer']
        exact List.Subset.refl _

omit [CppFloat F] [Libm F] [Narrow D F] [Widen F D] in
theorem mem_pushSnapshot {snapshots : List (TimedState F)} {snapshot snap : TimedState F}
    (h : snap ∈ pushSnapshot snapshots snapshot) : snap ∈ snapshots ∨ snap = snapshot := by
  rw [pushSnapshot] at h
  split at h
  · split at h
    · exact .inl h
    · simpa using List.mem_of_mem_drop h
  · exact .inr (List.mem_singleton.mp h)

/-- A new snapshot is one of a state that was applied, at the time the clock makes of its
stamp. -/
theorem snapshots_perform (scene : Scene F D) (op : Op F D) {id : PlayerId}
    {player' : RemotePlayer F} (hplayer' : (scene.perform op).find id = some player')
    {snap : TimedState F} (hsnap : snap ∈ player'.snapshots) :
    snap ∈ buffer scene id ∨
      ∃ serverMs localMs, op = .applyState id snap.state serverMs localMs ∧
        snap.timeMs = (scene.remotes.serverClock.unwrap serverMs).1 := by
  have hold : NoneNew scene (scene.perform op) → snap ∈ buffer scene id :=
    fun h => h id player' hplayer' hsnap
  cases op with
  | setInterpDelay | setDrive | setMove | actorDeleted =>
      exact .inl (hold (noneNew_of_find fun _ => rfl))
  | setCloneBase | setPacify | setGhost | setDuplicate | respawn =>
      exact .inl (hold (noneNew_respawn scene rfl))
  | add c name =>
      exact .inl (hold (noneNew_of_record (find_add scene c name)
        (snapshots_getD (scene.find c) _ rfl)))
  | rename c name =>
      exact .inl (hold (noneNew_of_record (find_rename scene c name)
        (snapshots_getD (scene.find c) _ rfl)))
  | remove c =>
      change (remove scene c).find id = some player' at hplayer'
      rw [find_remove] at hplayer'
      split at hplayer'
      · cases hplayer'
      · rw [buffer_eq hplayer']
        exact .inl hsnap
  | applyState c state serverMs localMs =>
      change (applyState scene c state serverMs localMs).find id = some player' at hplayer'
      rw [find_applyState] at hplayer'
      split at hplayer'
      · rename_i hc
        obtain rfl := Option.some.inj hplayer'
        rcases mem_pushSnapshot hsnap with hbefore | rfl
        · left
          rw [hc]
          rwa [show (stateEntry scene c).snapshots = buffer scene c from
            snapshots_getD (scene.find c) _ rfl] at hbefore
        · exact .inr ⟨serverMs, localMs, by rw [hc], rfl⟩
      · rw [buffer_eq hplayer']
        exact .inl hsnap
  | update input => exact .inl (hold (noneNew_update scene input))
  | despawnAll =>
      exact .inl (hold (noneNew_of_map (f := fun player => { player with actor := none })
        (fun _ => rfl) fun id => lookup_mapValues _ _ id))
  | forgetActors =>
      exact .inl (hold (noneNew_of_map (f := (·.forgetful)) (fun _ => rfl)
        fun id => lookup_mapValues _ _ id))
  | clear => cases hplayer'

end Operations

section Clients

variable {D : Type} {got : List Bytes} {scene : Scene F32 D}

def Shown (got : List Bytes) (id : PlayerId) (state : PlayerState F32) : Prop :=
  ∃ bytes ∈ got, ∃ msg : PlayerStateUpdateMsg, decode bytes = some (.playerStateUpdate msg) ∧
    msg.id = id ∧ msg.state = state

/-- Some packet showed the player in the state, with the stamp. -/
def ShownAt (got : List Bytes) (id : PlayerId) (state : PlayerState F32) (serverMs : UInt32) :
    Prop :=
  ∃ bytes ∈ got, decode bytes =
    some (.playerStateUpdate { id, timeMs := serverMs, state : PlayerStateUpdateMsg })

theorem ShownAt.shown {id : PlayerId} {state : PlayerState F32} {serverMs : UInt32}
    (h : ShownAt got id state serverMs) : Shown got id state := by
  obtain ⟨bytes, hmem, hdecode⟩ := h
  exact ⟨bytes, hmem, _, hdecode, rfl, rfl⟩

/-- What holds of a scene and of the packets that came on the connection, as long as only
states that some packet showed are applied. -/
structure Lasting [CppFloat F32] [CppFloat D] [Libm F32] [Narrow D F32] [Widen F32 D]
    (Holds : List Bytes → Scene F32 D → Prop) : Prop where
  nobody : ∀ got scene, (∀ id, scene.find id = none) →
    scene.remotes.serverClock.started = false → Holds got scene
  more : ∀ got scene bytes, Holds got scene → Holds (got ++ [bytes]) scene
  step : ∀ got scene order op, Holds got scene →
    (∀ id state serverMs localMs, op = .applyState id state serverMs localMs →
      ShownAt got id state serverMs) → Holds got (scene.step (order, op))

theorem nobody_of_closed {sent : List Sent} {session : Session}
    (h : Speaks sent got (names scene) session) (hstate : session.net.state ≠ .kConnected)
    (id : PlayerId) : scene.find id = none := by
  have hnames : names scene id = none := congrFun (congrArg Prod.snd (h.blank hstate)) id
  exact Option.map_eq_none_iff.mp hnames

/-- Without a connection the clock has not started. -/
def Idle (session : Session) (scene : Scene F32 D) : Prop :=
  session.net.state ≠ .kConnected → scene.remotes.serverClock.started = false

variable [CppFloat F32] [CppFloat D] [Libm F32] [Narrow D F32] [Widen F32 D]
  {Holds : List Bytes → Scene F32 D → Prop}

theorem clock_perform (scene : Scene F32 D) {op : Op F32 D}
    (hop : ∀ id state serverMs localMs, op ≠ .applyState id state serverMs localMs) :
    (scene.perform op).remotes.serverClock = scene.remotes.serverClock ∨ op = .clear := by
  cases op with
  | applyState id state serverMs localMs => exact absurd rfl (hop id state serverMs localMs)
  | clear => exact .inr rfl
  | add => exact .inl rfl
  | rename id name =>
      left
      change (rename scene id name).remotes.serverClock = _
      rw [rename]
      split <;> rfl
  | remove id =>
      left
      change (remove scene id).remotes.serverClock = _
      rw [remove]
      split <;> rfl
  | _ => exact .inl (SameUnder.clock (steady_newest.perform scene (by trivial)))

theorem Idle.run {session session' : Session} (h : Idle session scene)
    (hstate : session'.net.state ≠ .kConnected → session.net.state ≠ .kConnected)
    {steps : List (PlayerOrder F32 × Op F32 D)}
    (hquiet : ∀ id state serverMs localMs,
      .applyState id state serverMs localMs ∉ steps.map (·.2)) :
    Idle session' (run Scene.step scene steps) := by
  intro hclosed
  have hstopped := h (hstate hclosed)
  clear h
  induction steps generalizing scene with
  | nil => exact hstopped
  | cons step steps ih =>
      rw [List.map_cons] at hquiet
      refine ih (fun id state serverMs localMs hmem =>
        hquiet id state serverMs localMs (List.mem_cons_of_mem _ hmem)) ?_
      rcases clock_perform (scene.reorder step.1) fun id state serverMs localMs heq =>
        hquiet id state serverMs localMs (heq ▸ List.mem_cons_self) with hclock | hclear
      · exact (congrArg ServerClock.started hclock).trans hstopped
      · rw [Scene.step, hclear]
        rfl

theorem Lasting.run (h : Lasting Holds) (hholds : Holds got scene)
    {steps : List (PlayerOrder F32 × Op F32 D)}
    (hshown : ∀ id state serverMs localMs, .applyState id state serverMs localMs ∈ steps.map (·.2) →
      ShownAt got id state serverMs) : Holds got (run Scene.step scene steps) := by
  induction steps using List.reverseRecOn with
  | nil => exact hholds
  | append_singleton steps step ih =>
      rw [run_concat]
      refine h.step _ _ _ _ (ih fun id state serverMs localMs hmem => ?_)
        fun id state serverMs localMs hop => ?_
      · refine hshown id state serverMs localMs ?_
        rw [List.map_append]
        exact List.mem_append_left _ hmem
      · exact hshown id state serverMs localMs (by simp [hop])

variable {sent : List Sent} {session : Session}

theorem idle_cleared {session' : Session} {steps : List (PlayerOrder F32 × Op F32 D)}
    (hclears : steps.map (·.2) = [.clear]) :
    Idle session' (Library.Runs.run Scene.step scene steps) := by
  obtain ⟨step, hstep, hclear⟩ := List.map_eq_singleton_iff.mp hclears
  rw [hstep]
  intro _
  change (scene.step step).remotes.serverClock.started = false
  rw [Scene.step, hclear]
  rfl

theorem Idle.turn (h : Idle session scene) {events : List (NetEvent D)} {result : Result D}
    (hturn : Turn session events result) {steps : List (PlayerOrder F32 × Op F32 D)}
    (hsteps : steps.map (·.2) = remoteOps result.2) :
    Idle result.1 (Library.Runs.run Scene.step scene steps) := by
  cases hturn with
  | plain hsession hactions hneutral =>
      refine h.run (fun hclosed => by rwa [hsession.net] at hclosed) ?_
      intro id state serverMs localMs hmem
      rw [hsteps] at hmem
      exact hneutral _ (mem_remoteOps.mp hmem)
  | rename hconnected hnet hid =>
      exact fun hclosed => absurd (hnet ▸ hconnected) hclosed
  | hear bytes reading hconnected =>
      have hnet : (handlePacket session bytes reading).1.net = session.net := by
        rw [(SessionSteps.handlePacket_spec session bytes reading).1.rest]
      exact fun hclosed => absurd (hnet ▸ hconnected) hclosed
  | opened => exact fun hclosed => absurd rfl hclosed
  | lost => exact idle_cleared hsteps
  | closed =>
      refine idle_cleared (hsteps.trans ?_)
      simp only [Result.andThen, resetNet, requests, NetClientModel.reset]
      split
      · split <;> rfl
      · rfl
  | dialled manual dial now host port hstate =>
      refine h.run (fun _ => by rw [hstate]; rintro ⟨⟩) ?_
      intro id state serverMs localMs hmem
      rw [hsteps] at hmem
      rcases List.mem_cons.mp (mem_remoteOps.mp hmem) with hdial | hrequests
      · cases hdial
      · obtain ⟨request, -, heq⟩ := List.mem_map.mp hrequests
        cases heq

theorem Lasting.turn (h : Lasting Holds) (hspeaks : Speaks sent got (names scene) session)
    (hidle : Idle session scene) (hholds : Holds got scene) {events : List (NetEvent D)}
    {result : Result D} (hturn : Turn session events result)
    {steps : List (PlayerOrder F32 × Op F32 D)}
    (hsteps : steps.map (·.2) = remoteOps result.2) :
    Holds (events.foldl taken got) (Library.Runs.run Scene.step scene steps) := by
  have hasked : ∀ id state serverMs localMs,
      .applyState id state serverMs localMs ∈ steps.map (·.2) →
        .remotes (.applyState id state serverMs localMs) ∈ result.2 := by
    intro id state serverMs localMs hmem
    rw [hsteps] at hmem
    exact mem_remoteOps.mp hmem
  have hrequest : ∀ (op : Op F32 D) (requests : List NetClientModel.Request),
      (.remotes op : Action D) ∉ requests.map .net := by
    intro op requests hmem
    obtain ⟨request, -, heq⟩ := List.mem_map.mp hmem
    cases heq
  cases hturn with
  | plain hsession hactions hneutral =>
      exact h.run hholds fun id state serverMs localMs hmem =>
        (hneutral _ (hasked _ _ _ _ hmem)).elim
  | rename hconnected hnet hid =>
      exact h.run hholds fun id state serverMs localMs hmem =>
        absurd (hasked _ _ _ _ hmem) (hrequest _ _)
  | hear bytes reading hconnected =>
      refine h.run (h.more _ _ bytes hholds) fun id state serverMs localMs hmem => ?_
      rw [hsteps, (handlePacket_decoded session bytes reading).1] at hmem
      cases hdecode : decode bytes with
      | none =>
          rw [hdecode] at hmem
          cases hmem
      | some m =>
          rw [hdecode, Option.elim_some] at hmem
          cases m with
          | playerStateUpdate msg =>
              rw [told] at hmem
              split at hmem
              · cases List.mem_singleton.mp hmem
                exact ⟨bytes, by simp, hdecode⟩
              · cases hmem
          | playerJoined | playerRenamed =>
              rw [told] at hmem
              split at hmem
              · cases List.mem_singleton.mp hmem
              · cases hmem
          | playerLeft => cases List.mem_singleton.mp hmem
          | _ => cases hmem
  | opened playerName hconnecting =>
      have hclosed : session.net.state ≠ .kConnected := by
        rw [hconnecting]
        rintro ⟨⟩
      refine h.run (h.nobody [] _ (nobody_of_closed hspeaks hclosed) (hidle hclosed)) ?_
      exact fun id state serverMs localMs hmem => absurd (hasked _ _ _ _ hmem) (hrequest _ _)
  | lost hstate =>
      exact h.run hholds fun id state serverMs localMs hmem => by
        cases List.mem_singleton.mp (hasked _ _ _ _ hmem)
  | closed hstate =>
      refine h.run hholds fun id state serverMs localMs hmem => ?_
      rcases List.mem_append.mp (hasked _ _ _ _ hmem) with hrequests | hclear
      · exact absurd hrequests (hrequest _ _)
      · cases List.mem_singleton.mp hclear
  | dialled manual dial now host port hstate =>
      refine h.run hholds fun id state serverMs localMs hmem => ?_
      rcases List.mem_cons.mp (hasked _ _ _ _ hmem) with hdial | hrequests
      · cases hdial
      · exact absurd hrequests (hrequest _ _)

theorem Lasting.turns (h : Lasting Holds) {events : List (NetEvent D)} {result : Result D}
    (hturns : Turns session events result) (hspeaks : Speaks sent got (names scene) session)
    (hidle : Idle session scene) (hholds : Holds got scene)
    {steps : List (PlayerOrder F32 × Op F32 D)} (hsteps : steps.map (·.2) = remoteOps result.2) :
    Holds (events.foldl taken got) (Library.Runs.run Scene.step scene steps) := by
  induction hturns generalizing sent got scene steps with
  | done =>
      rw [List.map_eq_nil_iff.mp hsteps]
      exact hholds
  | @turn session events more result last hturn hrest ih =>
      rw [remoteOps, List.filterMap_append] at hsteps
      obtain ⟨first, others, rfl, hfirst, hothers⟩ := List.map_eq_append_iff.mp hsteps
      have hafter := hspeaks.turn hturn
      rw [show remoteOps result.2 = _ from hfirst.symm, ← names_run] at hafter
      rw [List.foldl_append, run_append]
      exact ih hafter (hidle.turn hturn hfirst) (h.turn hspeaks hidle hholds hturn hfirst) hothers

theorem idle_after {config : Config} {gameVersion : UInt32} {enetReady : Bool}
    {inputs : List (Input D)}
    (henet : (Watched.after config gameVersion enetReady inputs).enet ≠ none) :
    let watched := Watched.after config gameVersion enetReady inputs
    Idle watched.client.session watched.client.scene := by
  obtain ⟨peer, hpeer⟩ := Option.ne_none_iff_exists'.mp henet
  obtain ⟨account, -, hsound, hunknown⟩ := sound_after hpeer
  intro watched hclosed
  refine (hunknown (hsound.cleared ?_).2).started
  rintro rfl
  exact hclosed hsound.state

theorem Lasting.after (h : Lasting Holds) {party : Party D} (henet : party.watched.enet ≠ none) :
    Holds party.received party.scene := by
  obtain ⟨config, gameVersion, enetReady, inputs⟩ := party
  induction inputs using List.reverseRecOn with
  | nil =>
      exact h.nobody _ _ (nobody_of_closed (speaks_after henet) (by rintro ⟨⟩))
        (idle_after henet (by rintro ⟨⟩))
  | append_singleton inputs input ih =>
      obtain ⟨before, after, account, hbefore, hsound, hraise⟩ := sound_before henet
      have hnone : (Watched.after config gameVersion enetReady inputs).enet ≠ none := by
        rw [hbefore]
        rintro ⟨⟩
      have hturns := turns_step hsound hraise
      have hstep := h.turns hturns (speaks_after hnone) (idle_after hnone) (ih hnone)
        (map_snd_ordered input.orders (remoteOps _))
      rw [Party.received, eventsOf, List.flatMap_append, List.foldl_append,
        List.flatMap_singleton, ← eventsOf, Party.scene, Party.watched, Watched.after, run_concat]
      exact hstep

def Seen (got : List Bytes) (scene : Scene F32 D) : Prop :=
  ∀ id player, scene.find id = some player → ∀ snap ∈ player.snapshots, Shown got id snap.state

theorem lasting_seen : Lasting (D := D) Seen where
  nobody got scene h _ id player hplayer := by
    rw [h] at hplayer
    cases hplayer
  more got scene bytes h id player hplayer snap hsnap := by
    obtain ⟨earlier, hmem, hshown⟩ := h id player hplayer snap hsnap
    exact ⟨earlier, List.mem_append_left _ hmem, hshown⟩
  step got scene order op h hop id player hplayer snap hsnap := by
    rcases snapshots_perform _ op hplayer hsnap with hold | ⟨serverMs, localMs, rfl, -⟩
    · rw [buffer_reorder] at hold
      cases hfind : scene.find id with
      | none =>
          rw [buffer, hfind] at hold
          cases hold
      | some before =>
          rw [buffer_eq hfind] at hold
          exact h id before hfind snap hold
    · exact (hop id snap.state serverMs localMs rfl).shown

end Clients

section Server

def Stated (got : List Bytes) (state : PlayerState F32) : Prop :=
  ∃ bytes ∈ got, ∃ msg : PlayerStateMsg, decode bytes = some (.playerState msg) ∧ msg.state = state

theorem Stated.mono {got got' : List Bytes} {state : PlayerState F32} (h : Stated got state)
    (hmore : got <+: got') : Stated got' state := by
  obtain ⟨bytes, hbytes, hstated⟩ := h
  exact ⟨bytes, hmore.subset hbytes, hstated⟩

theorem stated_of_trail {got : List Bytes} {state : PlayerState F32}
    (h : (got.foldl (fun trail bytes => trail.hear (decode bytes)) ({} : Trail)).state =
      some state) :
    Stated got state := by
  induction got using List.reverseRecOn with
  | nil => cases h
  | append_singleton got bytes ih =>
      rw [List.foldl_concat] at h
      have hbefore : (got.foldl (fun trail bytes => trail.hear (decode bytes)) ({} : Trail)).state =
          some state → Stated (got ++ [bytes]) state := fun hstate =>
        (ih hstate).mono (List.prefix_append _ _)
      revert h
      cases hdecode : decode bytes with
      | none => exact hbefore
      | some m =>
          cases m with
          | playerState msg =>
              rw [Trail.hear]
              split
              · intro h
                exact ⟨bytes, by simp, msg, hdecode, Option.some.inj h⟩
              · exact hbefore
          | hello hello =>
              rw [Trail.hear]
              split <;> exact hbefore
          | _ => exact hbefore

theorem arrivals_grow {peer : Peer} {inputs : List ServerRun.Input} {input : ServerRun.Input}
    {got got' : List Bytes} (hgot : arrivals peer inputs = some got)
    (hgot' : arrivals peer (inputs ++ [input]) = some got') : got <+: got' := by
  rw [arrivals_concat, hgot, track] at hgot'
  split at hgot'
  · split at hgot' <;> exact Option.some.inj hgot' ▸ List.prefix_rfl
  · split at hgot'
    · cases hgot'
    · exact Option.some.inj hgot' ▸ List.prefix_rfl
  · split at hgot'
    · exact Option.some.inj hgot' ▸ List.prefix_append _ _
    · exact Option.some.inj hgot' ▸ List.prefix_rfl
  · exact Option.some.inj hgot' ▸ List.prefix_rfl

/-- Who has finished the handshake had it finished before the step, or is given the next
id by it. -/
theorem known_or_next {now : Time} {s s' : ServerModel.Server} {event : ServerRun.Event}
    {outs : List ServerModel.Out} (heffect : Effect now s event s' outs) {peer : Peer}
    {player : Player} (hplayer : s'.players.lookup peer = some player)
    (hshake : player.handshaked = true) :
    (∃ before, s.players.lookup peer = some before ∧ before.handshaked = true ∧
      before.id = player.id) ∨
    ((∃ before, s.players.lookup peer = some before) ∧ player.id = s.nextId) := by
  rcases ids_cases heffect with hkeeps | ⟨seated, old, hello, hseated, -, rfl⟩ |
    ⟨mode, name, rfl⟩
  · exact .inl (hkeeps.player hplayer hshake)
  · rw [lookup_seat hseated] at hplayer
    split at hplayer
    · rename_i hpeer
      obtain rfl := Option.some.inj hplayer
      exact .inr ⟨⟨old, hpeer ▸ hseated⟩, rfl⟩
    · exact .inl ⟨player, hplayer, hshake, rfl⟩
  · exact .inl ⟨player, hplayer, hshake, rfl⟩

variable [CppFloat F32] [Libm F32] [ServerConsole.Platform]

theorem ne_nextId_of_told {config : ServerModel.Config} {startTime : Time}
    {inputs : List ServerRun.Input}
    (hissued : (Network.after config startTime inputs).issued < 2 ^ 32 - 1) {c : Peer} {sent : Sent}
    (hsent : sent ∈ (Network.after config startTime inputs).link c) {msg : PlayerStateUpdateMsg}
    (hdecode : decode sent.bytes = some (.playerStateUpdate msg)) :
    msg.id ≠ (Network.after config startTime inputs).server.nextId := by
  intro hid
  have hconcerns : Concerns sent msg.id := by
    rw [Concerns, hdecode]
    rfl
  have hknown := (orderly_after config startTime inputs c hissued).known sent hsent _ hconcerns
  have hnext := (idsIssued_after config startTime inputs hissued).nextId_eq
  rw [hid] at hknown
  omega

theorem arrivals_of_lookup {config : ServerModel.Config} {startTime : Time}
    {inputs : List ServerRun.Input} {peer : Peer} {player : Player}
    (hplayer : (Network.after config startTime inputs).server.players.lookup peer = some player) :
    ∃ got, arrivals peer inputs = some got := by
  have hrecord := signature_after config startTime inputs peer
  rw [hplayer, Option.map_some] at hrecord
  obtain ⟨got, hgot, -⟩ := Option.map_eq_some_iff.mp hrecord.symm
  exact ⟨got, hgot⟩

/-- Every state that anyone was told under the id of a player came in on the connection of
the player. -/
theorem stated_after {config : ServerModel.Config} {startTime : Time}
    {inputs : List ServerRun.Input}
    (hissued : (Network.after config startTime inputs).issued < 2 ^ 32 - 1) (c : Peer) :
    ∀ sent ∈ (Network.after config startTime inputs).link c, ∀ msg,
      decode sent.bytes = some (.playerStateUpdate msg) → ∀ peer player,
      (Network.after config startTime inputs).server.players.lookup peer = some player →
      player.handshaked = true → player.id = msg.id →
      ∃ got, arrivals peer inputs = some got ∧ Stated got msg.state := by
  induction inputs using List.reverseRecOn with
  | nil => rintro _ ⟨⟩
  | append_singleton inputs input ih =>
      intro sent hsent msg hdecode peer player hplayer hshake hid
      have hids' := idsDistinct_of_earlier hissued _ List.prefix_rfl
      obtain ⟨got', hgot'⟩ := arrivals_of_lookup hplayer
      refine ⟨got', hgot', ?_⟩
      rw [Network.after_concat] at hissued hsent hids'
      have heffect := step_effect (Network.after config startTime inputs).server input
      rcases List.mem_append.mp hsent with hold | hnew
      · -- it was told before
        have hbound : (Network.after config startTime inputs).issued < 2 ^ 32 - 1 :=
          lt_of_le_of_lt (issued_le_run _ [input]) hissued
        split at hold
        · cases hold
        rw [Network.after_concat] at hplayer
        rcases known_or_next heffect hplayer hshake with ⟨before, hbefore, hshaken, hsame⟩ |
          ⟨-, hnext⟩
        · obtain ⟨got, hgot, hstated⟩ := ih hbound sent hold msg hdecode peer before
            ((lookup_reorder _ _ _).symm.trans hbefore) hshaken (hsame.trans hid)
          exact hstated.mono (arrivals_grow hgot hgot')
        · exact absurd (hid.symm.trans hnext) (ne_nextId_of_told hbound hold hdecode)
      · obtain ⟨hhas, hstate⟩ := sent_state heffect hids' hnew hdecode
          (by rwa [Network.after_concat] at hplayer) hshake hid
        have htrail := trail_state hplayer hhas
        rw [trailOf, trail_step_eq, foldl_track, hgot', Option.map_some, Option.bind_some, hstate]
          at htrail
        exact stated_of_trail htrail

end Server

section Worlds

variable {κ D : Type} [CppFloat F32] [CppFloat D] [Libm F32] [Narrow D F32] [Widen F32 D]
  [ServerConsole.Platform] [DecidableEq κ]

omit [DecidableEq κ] in
theorem clientUp_of_listed {config : ServerModel.Config} {startTime : Time} {w : World κ D}
    (hworld : InStep config startTime w) {k : κ} {own : Circuit} (hown : w.circuit k = some own)
    {id : PlayerId} (hlisted : (w.party k).scene.find id ≠ none) : own.clientUp = true := by
  by_contra hdown
  obtain ⟨account, -, hsound, -⟩ := sound_after (hworld.tuned k own hown).enet
  rw [if_neg hdown] at hsound
  have hclosed : (w.party k).session.net.state ≠ .kConnected := by
    rw [show (w.party k).session.net.state = _ from hsound.state]
    rintro ⟨⟩
  exact hlisted (nobody_of_closed (speaks_after (hworld.allowed k)) hclosed id)

omit [DecidableEq κ] in
theorem sent_of_shown {config : ServerModel.Config} {startTime : Time} {w : World κ D}
    (hworld : InStep config startTime w)
    (hissued : (Network.after config startTime w.served).issued < 2 ^ 32 - 1) {j k : κ}
    {theirs own : Circuit} (htheirs : w.circuit j = some theirs) (hown : w.circuit k = some own)
    {c : Peer} (hpeer : theirs.peer = some c) {player : Player}
    (hplayer : (Network.after config startTime w.served).server.players.lookup c = some player)
    (hshake : player.handshaked = true) (hlisted : (w.party k).scene.find player.id ≠ none)
    {state : PlayerState F32} (hshown : Shown (w.party k).received player.id state) :
    ∃ packet ∈ (w.party j).sent, ∃ msg : PlayerStateMsg,
      decode packet.bytes = some (.playerState msg) ∧ msg.state = state := by
  obtain ⟨bytes, hbytes, msg, hdecode, hid, hstate⟩ := hshown
  -- it came down the wire
  rw [(hworld.tuned k own hown).received (clientUp_of_listed hworld hown hlisted)] at hbytes
  obtain ⟨update, hupdate, rfl⟩ := List.mem_map.mp hbytes
  have hposted := (delivers_of_wire own.down).mem hupdate
  have hserved := hworld.served k own hown
  cases hd : own.peer with
  | none =>
      rw [(hserved.silent hd).2] at hposted
      cases hposted
  | some d =>
      rw [← (hserved.up d hd).2] at hposted
      -- and the other one's connection had brought it to the server
      obtain ⟨got, hgot, early, hmem, stated, hstated, hsame⟩ :=
        stated_after hissued d update hposted msg hdecode c player hplayer hshake hid.symm
      rw [((hworld.served j theirs htheirs).up c hpeer).1] at hgot
      obtain rfl := Option.some.inj hgot
      obtain ⟨packet, hpacket, rfl⟩ := List.mem_map.mp hmem
      refine ⟨packet, ?_, stated, hstated, hsame.trans hstate⟩
      rw [(hworld.tuned j theirs htheirs).posted]
      exact (delivers_of_wire theirs.up).mem hpacket

/-- In every world that can come about, while no id was given twice: every snapshot that a
client has under the id of another one's player is a state the other sent itself, on the
connection it has. -/
theorem seen_was_sent (config : ServerModel.Config) (startTime : Time) (w : World κ D)
    (hreachable : Reachable config startTime w)
    (hissued : (Network.after config startTime w.served).issued < 2 ^ 32 - 1) (j k : κ)
    (theirs own : Circuit) (htheirs : w.circuit j = some theirs) (hown : w.circuit k = some own)
    (c : Peer) (hpeer : theirs.peer = some c) (player : Player)
    (hplayer : (Network.after config startTime w.served).server.players.lookup c = some player)
    (hshake : player.handshaked = true) (entry : RemotePlayer F32)
    (hentry : (w.party k).scene.find player.id = some entry) :
    ∀ snap ∈ entry.snapshots, ∃ packet ∈ (w.party j).sent, ∃ msg : PlayerStateMsg,
      decode packet.bytes = some (.playerState msg) ∧ msg.state = snap.state := by
  intro snap hsnap
  have hworld := inStep_reachable hreachable
  exact sent_of_shown hworld hissued htheirs hown hpeer hplayer hshake
    (by rw [hentry]; rintro ⟨⟩)
    (lasting_seen.after (hworld.allowed k) player.id entry hentry snap hsnap)

end Worlds

section Example

open F4MP.Native

def prowling : PlayerState F32 :=
  { PlayerState.initial F32 with
    position := ⟨CppFloat.ofRat 3, CppFloat.ofRat 4, CppFloat.ofRat 5⟩
    worldspaceId := 60
    flags := kStateSneaking ||| kStateWeaponDrawn }

def sight : Bytes := encode { id := 2, timeMs := 0, state := prowling : PlayerStateUpdateMsg }

/-- The second of two clients is welcomed and sends where it is, and the first sees it. -/
def glimpse : List (Turn Bool F64) :=
  knocks ++
    [.take false (hello false) 0,
      .take true (hello true) 0,
      frame true 20200000000 [welcome 2] (some prowling),
      .take true (encode { state := prowling : PlayerStateMsg }) 0,
      frame false 20300000000 [sight] none]

theorem glimpse_goes : (rehearse {} 0 glimpse).isSome = true := by decide +kernel

def seen : World Bool F64 := (rehearse {} 0 glimpse).get glimpse_goes

/-- What the first client has of the second is the state the second sent. -/
theorem seen_by_first : ∃ packet ∈ (seen.party true).sent, ∃ msg : PlayerStateMsg,
    decode packet.bytes = some (.playerState msg) ∧ msg.state = prowling := by
  obtain ⟨player, hplayer, hhandshake⟩ := Option.map_eq_some_iff.mp
    (show ((Network.after {} 0 seen.served).server.players.lookup 1).map
      (fun player => (player.id, player.handshaked)) = some (2, true) by decide +kernel)
  obtain ⟨hid, hshake⟩ := Prod.mk.inj hhandshake
  obtain ⟨entry, hentry, hstates⟩ := Option.map_eq_some_iff.mp
    (show ((seen.party false).scene.find 2).map (·.snapshots.map (·.state)) = some [prowling] by
      decide +kernel)
  obtain ⟨theirs, htheirs, hpeer⟩ := Option.map_eq_some_iff.mp
    (show (seen.circuit true).map (·.peer) = some (some 1) by decide +kernel)
  obtain ⟨own, hown⟩ := Option.isSome_iff_exists.mp
    (show (seen.circuit false).isSome = true by decide +kernel)
  have hmem : prowling ∈ entry.snapshots.map (·.state) := by simp [hstates]
  obtain ⟨snap, hsnap, hstate⟩ := List.mem_map.mp hmem
  rw [← hstate]
  exact seen_was_sent {} 0 seen (reachable_rehearse (Option.some_get _).symm) (by decide +kernel)
    true false theirs own htheirs hown 1 hpeer player hplayer hshake entry
    (by rw [hid]; exact hentry) snap hsnap

end Example

end F4MP.Sightings
