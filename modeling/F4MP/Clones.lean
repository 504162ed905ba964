import F4MP.CloneUpdate

/-!
Every clone that exists is held by exactly one player, whatever is done to the remote
players.
-/

namespace F4MP.Clones

open F4MP.Types
open F4MP.Arith
open F4MP.GameUtil
open F4MP.ServerModel
open F4MP.RemotePlayersModel
open F4MP.CloneUpdate
open F4MP.Library.HashTable
open F4MP.Library.Leases
open F4MP.Library.Runs

variable {F D : Type}

def Stated (scene : Scene F D) : Prop :=
  ∀ id player, scene.find id = some player → player.actor ≠ none → player.snapshots ≠ []

def Abroad (scene : Scene F D) : Prop := ∀ id, handle scene id ≠ some playerRef

/-- Every clone that exists is held by one player, who has sent a state. -/
structure Confined (scene : Scene F D) : Prop where
  sane : Sane scene.engine
  sound : (ledger scene).Sound
  stated : Stated scene
  abroad : Abroad scene

/-- What an operation may do to the books. -/
structure Evolves (scene scene' : Scene F D) : Prop where
  sane : Sane scene.engine → Sane scene'.engine
  moves : Sane scene.engine → Ledger.Moves (ledger scene) (ledger scene')
  stated : Stated scene → Stated scene'
  abroad : Sane scene.engine → Abroad scene → Abroad scene'

section Scenes

variable {scene scene' scene'' : Scene F D} {id : PlayerId} {player : RemotePlayer F}

theorem Evolves.refl (scene : Scene F D) : Evolves scene scene := ⟨id, fun _ => .refl, id, fun _ => id⟩

theorem Evolves.trans (h : Evolves scene scene') (h' : Evolves scene' scene'') :
    Evolves scene scene'' where
  sane hsane := h'.sane (h.sane hsane)
  moves hsane := (h.moves hsane).trans (h'.moves (h.sane hsane))
  stated hstated := h'.stated (h.stated hstated)
  abroad hsane habroad := h'.abroad (h.sane hsane) (h.abroad hsane habroad)

theorem Confined.evolves (h : Confined scene) (hevolves : Evolves scene scene') :
    Confined scene' where
  sane := hevolves.sane h.sane
  sound := h.sound.moves (hevolves.moves h.sane)
  stated := hevolves.stated h.stated
  abroad := hevolves.abroad h.sane h.abroad

theorem handle_eq (h : scene.find id = some player) : handle scene id = player.actor := by
  rw [handle, h]
  rfl

theorem handle_of_find (hfind : ∀ c, scene'.find c = if c = id then some player else scene.find c) :
    handle scene' = Function.update (handle scene) id player.actor := by
  funext c
  rw [handle, hfind, Function.update_apply]
  split <;> rfl

end Scenes

section Updates

variable [CppFloat F] [CppFloat D] [Narrow D F] {scene scene' : Scene F D} {frame : Frame D}

/-- The clones after the update of some players, and what they were asked. -/
structure UpdatedAll (frame : Frame D) (ids : List PlayerId) (scene scene' : Scene F D) : Prop where
  evolves : Evolves scene scene'
  others : ∀ id ∉ ids, scene'.find id = scene.find id
  nextRef_le : scene.engine.nextRef ≤ scene'.engine.nextRef
  actors : ∀ ref ∈ scene'.engine.actors,
    ref ∈ scene.engine.actors ∨ scene.engine.nextRef ≤ ref
  trimmed : ∀ id ∈ ids, ∀ player', scene'.find id = some player' → ∃ player,
    scene.find id = some player ∧ player'.snapshots = trim frame.renderMs player.snapshots
  area : Confined scene → ∀ id ∈ ids, ∀ player, scene'.find id = some player →
    scene'.engine.get player.actor ≠ none → InArea frame.localSpace player
  asked : Confined scene → Asked (fun call => driven call ≠ none → ∃ id ∈ ids, ∃ player,
    scene'.find id = some player ∧ InArea frame.localSpace player ∧
      DrivesFrom frame.renderMs player call) scene.engine scene'.engine

theorem updatedAll_nil (scene : Scene F D) : UpdatedAll frame [] scene scene :=
  ⟨.refl scene, fun _ _ => rfl, Nat.le_refl _, fun _ => .inl, by rintro _ ⟨⟩, by rintro _ _ ⟨⟩,
    fun _ => .refl _⟩

theorem UpdatedAll.cons {id : PlayerId} {ids : List PlayerId} {scene'' : Scene F D}
    (hid : id ∉ ids) (h : UpdatedAll frame [id] scene scene')
    (h' : UpdatedAll frame ids scene' scene'') : UpdatedAll frame (id :: ids) scene scene'' := by
  have hkept : scene''.find id = scene'.find id := h'.others id hid
  refine ⟨h.evolves.trans h'.evolves, ?_, h.nextRef_le.trans h'.nextRef_le, ?_, ?_, ?_, ?_⟩
  · intro c hc
    rw [List.mem_cons, not_or] at hc
    rw [h'.others c hc.2, h.others c fun heq => hc.1 (List.mem_singleton.mp heq)]
  · intro ref href
    exact (h'.actors ref href).elim (h.actors ref) fun hle => .inr (h.nextRef_le.trans hle)
  · intro c hc player' hplayer'
    rcases List.mem_cons.mp hc with rfl | hc
    · exact h.trimmed c List.mem_cons_self player' (hkept.symm.trans hplayer')
    · obtain ⟨player, hplayer, htrimmed⟩ := h'.trimmed c hc player' hplayer'
      have hne : c ∉ [id] := by
        rintro hmem
        exact hid (List.mem_singleton.mp hmem ▸ hc)
      exact ⟨player, (h.others c hne).symm.trans hplayer, htrimmed⟩
  · intro hconfined c hc player hplayer hget
    have hconfined' := hconfined.evolves h.evolves
    rcases List.mem_cons.mp hc with rfl | hc
    · rw [hkept] at hplayer
      apply h.area hconfined c List.mem_cons_self player hplayer
      -- later updates make fresh clones only, which no earlier handle leads to
      obtain ⟨ref, href⟩ := Option.ne_none_iff_exists'.mp hget
      obtain ⟨hactor, hexists⟩ := get_eq_some.mp href
      have hheld : handle scene' c = some ref := (handle_eq hplayer).trans hactor
      have hissued := hconfined'.sound.issued c ref hheld
      rcases hexists with rfl | hexists
      · exact absurd hheld (hconfined'.abroad c)
      · rcases h'.actors ref hexists with hold | hnew
        · rw [get_eq_some.mpr ⟨hactor, .inr hold⟩]
          rintro ⟨⟩
        · exact absurd (hissued.trans_le hnew) (Nat.lt_irrefl _)
    · exact h'.area hconfined' c hc player hplayer hget
  · intro hconfined
    have hconfined' := hconfined.evolves h.evolves
    refine ((h.asked hconfined).mono ?_).trans ((h'.asked hconfined').mono ?_)
    · intro call hcall hdriven
      obtain ⟨c, hc, player, hplayer, hrest⟩ := hcall hdriven
      rw [List.mem_singleton.mp hc, ← hkept] at hplayer
      exact ⟨id, List.mem_cons_self, player, hplayer, hrest⟩
    · intro call hcall hdriven
      obtain ⟨c, hc, hrest⟩ := hcall hdriven
      exact ⟨c, List.mem_cons_of_mem _ hc, hrest⟩

variable [Libm F]

theorem updatedAll_one (frame : Frame D) (scene : Scene F D) (id : PlayerId) :
    UpdatedAll frame [id] scene (updatePlayer frame scene id) := by
  cases hfind : scene.find id with
  | none =>
      rw [updatePlayer_of_none hfind]
      have hnobody : ∀ c ∈ [id], ∀ player, scene.find c ≠ some player := by
        intro c hc player hplayer
        rw [List.mem_singleton.mp hc, hfind] at hplayer
        cases hplayer
      exact ⟨.refl scene, fun _ _ => rfl, Nat.le_refl _, fun _ => .inl,
        fun c hc player hplayer => absurd hplayer (hnobody c hc player),
        fun _ c hc player hplayer => absurd hplayer (hnobody c hc player), fun _ => .refl _⟩
  | some player =>
      obtain ⟨hhandled, hidle, harea⟩ :=
        updateOne_spec scene.remotes frame (frame.answers id) player scene.engine
      obtain ⟨hengine, hfind'⟩ := updatePlayer_spec hfind frame
      generalize updatePlayer frame scene id = scene' at hengine hfind' ⊢
      generalize updateOne scene.remotes frame (frame.answers id) player scene.engine = after
        at hhandled hidle harea hengine hfind'
      obtain ⟨player', engine'⟩ := after
      dsimp only at hhandled hidle harea hengine hfind'
      subst hengine
      have hself : ∀ {c : PlayerId} {found : RemotePlayer F}, c = id →
          scene'.find c = some found → found = player' := by
        intro c found hc hfound
        rw [hfind', if_pos hc] at hfound
        exact (Option.some.inj hfound).symm
      have hinside : Confined scene → scene'.engine.get player'.actor ≠ none →
          InArea frame.localSpace player' := by
        intro hconfined hget
        obtain ⟨ref, href⟩ := Option.ne_none_iff_exists'.mp hget
        refine (harea ref href).resolve_right fun hempty => ?_
        have hactor : player.actor = none := by
          by_contra hsome
          exact hconfined.stated id player hfind hsome hempty
        rw [hidle hempty, hactor] at href
        cases href
      refine ⟨⟨hhandled.sane, ?_, ?_, ?_⟩, ?_, hhandled.nextRef_le, hhandled.actors, ?_, ?_, ?_⟩
      · intro hsane
        rw [ledger, ledger, handle_of_find hfind']
        exact hhandled.moves hsane (handle scene) id (handle_eq hfind : _ = player.actor)
      · intro hstated c found hfound hactor
        by_cases hc : c = id
        · obtain rfl := hself hc hfound
          intro hempty
          rw [hhandled.snapshots, ← List.getLast?_eq_none_iff, trim_getLast?,
            List.getLast?_eq_none_iff] at hempty
          rw [hidle hempty] at hactor
          exact hstated id player hfind hactor hempty
        · rw [hfind', if_neg hc] at hfound
          exact hstated c found hfound hactor
      · intro hsane habroad c hc
        rw [handle_of_find hfind', Function.update_apply] at hc
        split at hc
        · rcases hhandled.actor _ hc with hold | hnew
          · exact habroad id ((handle_eq hfind).trans hold)
          · exact absurd (hsane.next.trans_le hnew) (Nat.lt_irrefl _)
        · exact habroad c hc
      · intro c hc
        rw [hfind', if_neg fun heq => hc (List.mem_singleton.mpr heq)]
      · intro c hc found hfound
        obtain rfl := hself (List.mem_singleton.mp hc) hfound
        exact ⟨player, by rw [List.mem_singleton.mp hc, hfind], hhandled.snapshots⟩
      · intro hconfined c hc found hfound hget
        obtain rfl := hself (List.mem_singleton.mp hc) hfound
        exact hinside hconfined hget
      · intro hconfined
        refine hhandled.asked.mono ?_
        rintro call ⟨hdrives, hexists⟩ hdriven
        exact ⟨id, List.mem_cons_self, player', by rw [hfind', if_pos rfl],
          hinside hconfined (hexists hdriven), hdrives⟩

theorem updatedAll_foldl {ids : List PlayerId} (hids : ids.Nodup) (scene : Scene F D) :
    UpdatedAll frame ids scene (ids.foldl (updatePlayer frame) scene) := by
  induction ids generalizing scene with
  | nil => exact updatedAll_nil scene
  | cons id ids ih =>
      obtain ⟨hid, hrest⟩ := List.nodup_cons.mp hids
      exact .cons hid (updatedAll_one frame scene id) (ih hrest _)

variable [Widen F D]

/-- What one update does, when the local player is somewhere. -/
theorem update_spec {input : UpdateInput D} {localSpace : Space}
    (hspace : input.localSpace = some localSpace) (scene : Scene F D) :
    UpdatedAll (frameOf scene.remotes input localSpace) scene.remotes.players.keys scene
      (update scene input) := by
  rw [update, hspace]
  exact updatedAll_foldl scene.remotes.players.keys_nodup scene

theorem evolves_update (scene : Scene F D) (input : UpdateInput D) :
    Evolves scene (update scene input) := by
  cases hspace : input.localSpace with
  | none =>
      rw [update, hspace]
      exact .refl scene
  | some localSpace => exact (update_spec hspace scene).evolves

end Updates

/-- The handles stay as they are, and players keep their snapshots. -/
structure SameHandles (scene scene' : Scene F D) : Prop where
  still : Still scene.engine scene'.engine
  handles : handle scene' = handle scene
  stated : Stated scene → Stated scene'

theorem SameHandles.evolves {scene scene' : Scene F D} (h : SameHandles scene scene') :
    Evolves scene scene' where
  sane hsane := hsane.still h.still
  moves _ := by
    rw [ledger, ledger, h.handles, ledgerOf_still h.still]
  stated := h.stated
  abroad _ habroad id := by
    rw [h.handles]
    exact habroad id

theorem SameHandles.of_find {scene scene' : Scene F D} (hstill : Still scene.engine scene'.engine)
    (hfind : ∀ id, scene'.find id = scene.find id ∨ ∃ player', scene'.find id = some player' ∧
      player'.actor = handle scene id ∧ ∀ player, scene.find id = some player →
        player.snapshots ≠ [] → player'.snapshots ≠ []) : SameHandles scene scene' := by
  refine ⟨hstill, funext fun id => ?_, fun hstated id found hfound hactor => ?_⟩
  · rcases hfind id with hsame | ⟨player', hplayer', hactor, -⟩
    · rw [handle, handle, hsame]
    · rw [handle_eq hplayer', hactor]
  · rcases hfind id with hsame | ⟨player', hplayer', hheld, hsnapshots⟩
    · exact hstated id found (hsame.symm.trans hfound) hactor
    · obtain rfl := Option.some.inj (hplayer'.symm.trans hfound)
      rw [hheld] at hactor
      cases hplayer : scene.find id with
      | none => exact absurd (by rw [handle, hplayer]; rfl) hactor
      | some player =>
          rw [handle_eq hplayer] at hactor
          exact hsnapshots player hplayer (hstated id player hplayer hactor)

section Operations

theorem evolves_reorder (scene : Scene F D) (order : PlayerOrder F) :
    Evolves scene (scene.reorder order) := by
  have hsame : SameHandles scene (scene.reorder order) :=
    .of_find (.refl _) fun id => .inl (lookup_arrange order _ id)
  exact hsame.evolves

theorem sameHandles_setPlayer {scene : Scene F D} {id : PlayerId} {old : RemotePlayer F}
    (hold : scene.find id = some old) (player : RemotePlayer F) (hactor : player.actor = old.actor)
    (hsnapshots : player.snapshots = old.snapshots) {engine : Engine F}
    (hstill : Still scene.engine engine) :
    SameHandles scene { scene.setPlayer id player with engine } := by
  refine .of_find hstill fun c => ?_
  have hfind : ({ scene.setPlayer id player with engine } : Scene F D).find c =
      if c = id then some player else scene.find c := find_setPlayer hold player c
  by_cases hc : c = id
  · subst hc
    refine .inr ⟨player, hfind.trans (if_pos rfl), hactor.trans (handle_eq hold).symm, ?_⟩
    intro found hfound hsome
    obtain rfl := Option.some.inj (hold.symm.trans hfound)
    rwa [hsnapshots]
  · exact .inl (hfind.trans (if_neg hc))

theorem evolves_remove (scene : Scene F D) (id : PlayerId) : Evolves scene (remove scene id) := by
  cases hfind : scene.find id with
  | none =>
      rw [remove, hfind]
      exact .refl scene
  | some player =>
      have hremove : remove scene id = { scene.withPlayers (scene.remotes.players.erase id) with
          engine := despawn scene.engine player.actor } := by
        rw [remove, hfind]
      have hhandles : handle (remove scene id) = Function.update (handle scene) id none := by
        funext c
        rw [handle, find_remove, Function.update_apply]
        split <;> rfl
      have hengine : (remove scene id).engine = despawn scene.engine (handle scene id) := by
        rw [hremove, handle_eq hfind]
      refine ⟨fun hsane => ?_, fun hsane => ?_, fun hstated c found hfound => ?_,
        fun _ habroad c => ?_⟩
      · rw [hengine]
        exact hsane.despawn _
      · rw [ledger, ledger, hhandles, hengine, ledgerOf_despawn hsane]
        exact .single (.release id)
      · rw [find_remove] at hfound
        split at hfound
        · cases hfound
        · exact hstated c found hfound
      · rw [hhandles, Function.update_apply]
        split
        · rintro ⟨⟩
        · exact habroad c

variable [CppFloat F]

theorem sameHandles_add (scene : Scene F D) (id : PlayerId) (name : Bytes) :
    SameHandles scene (add scene id name) := by
  refine .of_find (still_renameCloneBase _ _ _) fun c => ?_
  rw [find_add]
  by_cases hc : c = id
  · subst hc
    rw [if_pos rfl]
    refine .inr ⟨_, rfl, ?_, fun player hplayer hsome => ?_⟩
    · rw [handle]
      cases scene.find c <;> rfl
    · rwa [hplayer]
  · exact .inl (if_neg hc)

theorem sameHandles_rename (scene : Scene F D) (id : PlayerId) (name : Bytes) :
    SameHandles scene (rename scene id name) := by
  cases hfind : scene.find id with
  | none =>
      rw [rename, hfind]
      exact sameHandles_add scene id name
  | some player =>
      have hbase := still_renameCloneBase scene.engine player.base name
      simp only [rename, hfind]
      refine sameHandles_setPlayer hfind { player with name } rfl rfl ?_
      split
      · exact hbase
      · exact hbase.trans (still_applyCloneIdentity _ _ _ _)

theorem sameHandles_applyState [CppFloat D] (scene : Scene F D) (id : PlayerId)
    (state : PlayerState F) (serverMs : UInt32) (localMs : D) :
    SameHandles scene (applyState scene id state serverMs localMs) := by
  refine .of_find ?_ fun c => ?_
  · rw [applyState]
    dsimp only
    split
    · exact .refl _
    · exact still_renameCloneBase _ _ _
  · rw [find_applyState]
    by_cases hc : c = id
    · subst hc
      rw [if_pos rfl]
      refine .inr ⟨_, rfl, ?_, fun _ _ _ => pushSnapshot_ne_nil _ _⟩
      change (stateEntry scene c).actor = handle scene c
      rw [stateEntry, handle]
      cases scene.find c <;> rfl
    · exact .inl (if_neg hc)

end Operations

theorem mem_despawn_foldl {engine : Engine F} (hsane : Sane engine)
    (entries : List (Sigma fun _ : PlayerId => RemotePlayer F)) (ref : Ref) :
    ref ∈ (entries.foldl (fun engine entry => despawn engine entry.2.actor) engine).actors ↔
      ref ∈ engine.actors ∧ ∀ entry ∈ entries, entry.2.actor ≠ some ref := by
  induction entries generalizing engine with
  | nil => simp
  | cons entry entries ih =>
      rw [List.foldl_cons, ih (hsane.despawn _), hsane.mem_despawn, List.forall_mem_cons, and_assoc]

theorem despawn_foldl_keeps (engine : Engine F)
    (entries : List (Sigma fun _ : PlayerId => RemotePlayer F)) :
    let engine' := entries.foldl (fun engine entry => despawn engine entry.2.actor) engine
    (Sane engine → Sane engine') ∧ engine'.nextRef = engine.nextRef ∧
      engine'.forgotten = engine.forgotten ∧ Asked Quiet engine engine' := by
  induction entries generalizing engine with
  | nil => exact ⟨id, rfl, rfl, .refl _⟩
  | cons entry entries ih =>
      obtain ⟨hsane, hnextRef, hforgotten, hasked⟩ := ih (despawn engine entry.2.actor)
      exact ⟨fun h => hsane (h.despawn _), hnextRef.trans (despawn_nextRef _ _),
        hforgotten.trans (despawn_forgotten _ _), (asked_despawn _ _).trans hasked⟩

theorem forall_entries_iff (scene : Scene F D) (ref : Ref) :
    (∀ entry ∈ scene.remotes.players.entries, entry.2.actor ≠ some ref) ↔
      ∀ id, handle scene id ≠ some ref := by
  constructor
  · intro hentries id hhandle
    obtain ⟨player, hplayer, hactor⟩ := Option.bind_eq_some_iff.mp hhandle
    exact hentries ⟨id, player⟩ (mem_entries_iff.mpr hplayer) hactor
  · rintro hhandles ⟨id, player⟩ hentry hactor
    exact hhandles id ((handle_eq (mem_entries_iff.mp hentry)).trans hactor)

/-- All handles are given up, and their clones are gone or forgotten. -/
structure LetGo (scene scene' : Scene F D) : Prop where
  sane : Sane scene.engine → Sane scene'.engine
  ledger_eq : Sane scene.engine → ledger scene' = (ledger scene).releaseAll
  handles : ∀ id, handle scene' id = none
  asked : Asked Quiet scene.engine scene'.engine

theorem LetGo.evolves {scene scene' : Scene F D} (h : LetGo scene scene') :
    Evolves scene scene' where
  sane := h.sane
  moves hsane := by
    rw [h.ledger_eq hsane]
    exact .single .releaseAll
  stated _ id player hplayer hactor :=
    absurd ((handle_eq hplayer).symm.trans (h.handles id)) hactor
  abroad _ _ id := by
    rw [h.handles id]
    rintro ⟨⟩

theorem LetGo.of_engine {scene scene' : Scene F D} {entries}
    (hentries : scene.remotes.players.entries = entries)
    (hengine : scene'.engine =
      entries.foldl (fun engine entry => despawn engine entry.2.actor) scene.engine)
    (hhandles : ∀ id, handle scene' id = none) : LetGo scene scene' := by
  subst hentries
  obtain ⟨hsane, hnextRef, hforgotten, hasked⟩ :=
    despawn_foldl_keeps scene.engine scene.remotes.players.entries
  rw [← hengine] at hsane hnextRef hforgotten hasked
  refine ⟨hsane, fun h => ?_, hhandles, hasked⟩
  ext1
  · exact hnextRef
  · ext ref
    have hmem := mem_despawn_foldl h scene.remotes.players.entries ref
    rw [← hengine, forall_entries_iff] at hmem
    simp only [ledger, ledgerOf, Ledger.releaseAll, Set.mem_ofPred_eq, hmem, hforgotten]
    tauto
  · exact funext hhandles

section Lifecycle

theorem letGo_despawnAll (scene : Scene F D) : LetGo scene (despawnAll scene) := by
  refine .of_engine rfl rfl fun id => ?_
  have hfind : (despawnAll scene).find id =
      (scene.find id).map fun player => { player with actor := none } := lookup_mapValues _ _ _
  rw [handle, hfind]
  cases scene.find id <;> rfl

theorem letGo_clear (scene : Scene F D) : LetGo scene (clear scene) :=
  .of_engine rfl rfl fun _ => rfl

theorem letGo_respawn [CppFloat F] (scene : Scene F D) : LetGo scene (respawn scene) := by
  refine .of_engine rfl rfl fun id => ?_
  have hfind : (respawn scene).find id =
      ((despawnAll scene).find id).map fun player => player.respawned := lookup_mapValues _ _ _
  have hnone := (letGo_despawnAll scene).handles id
  rw [handle, hfind]
  cases hplayer : (despawnAll scene).find id with
  | none => rfl
  | some player =>
      rw [handle_eq hplayer] at hnone
      exact hnone

theorem letGo_respawnWith [CppFloat F] (scene : Scene F D) {remotes : RemotePlayers F D}
    (hplayers : remotes.players = scene.remotes.players) :
    LetGo scene (respawn { scene with remotes }) := by
  have hhandle : handle { scene with remotes } = handle scene := by
    funext id
    rw [handle, handle, Scene.find, Scene.find, hplayers]
  have hrespawn := letGo_respawn { scene with remotes }
  refine ⟨hrespawn.sane, fun hsane => (hrespawn.ledger_eq hsane).trans ?_, hrespawn.handles,
    hrespawn.asked⟩
  rw [ledger, ledger, hhandle]

theorem letGo_forgetActors [CppFloat F] (scene : Scene F D) : LetGo scene (forgetActors scene) := by
  have hmem : ∀ ref, ref ∈ scene.remotes.players.entries.filterMap
      (fun entry => scene.engine.get entry.2.actor) ↔
      (¬ ∀ id, handle scene id ≠ some ref) ∧ (ref = playerRef ∨ ref ∈ scene.engine.actors) := by
    intro ref
    rw [← forall_entries_iff, List.mem_filterMap]
    simp only [get_eq_some]
    push Not
    exact ⟨fun ⟨entry, hentry, hactor, hexists⟩ => ⟨⟨entry, hentry, hactor⟩, hexists⟩,
      fun ⟨⟨entry, hentry, hactor⟩, hexists⟩ => ⟨entry, hentry, hactor, hexists⟩⟩
  have hhandles : ∀ id, handle (forgetActors scene) id = none := by
    intro id
    have hfind : (forgetActors scene).find id =
        (scene.find id).map fun player => player.forgetful := lookup_mapValues _ _ _
    rw [handle, hfind]
    cases scene.find id <;> rfl
  refine ⟨fun hsane => ⟨hsane.next, hsane.actors, fun ref href => ?_⟩, fun hsane => ?_,
    hhandles, .refl _⟩
  · rcases List.mem_append.mp href with hheld | hold
    · rcases ((hmem ref).mp hheld).2 with rfl | hexists
      · exact hsane.next
      · exact (hsane.actors ref hexists).2
    · exact hsane.forgotten ref hold
  · ext1
    · rfl
    · ext ref
      simp only [ledger, ledgerOf, Ledger.releaseAll, Set.mem_ofPred_eq, forgetActors,
        List.mem_append, hmem]
      tauto
    · exact funext hhandles

theorem evolves_actorDeleted (scene : Scene F D) (ref : Ref) :
    Evolves scene { scene with engine := { scene.engine with
      actors := scene.engine.actors.filter (· ≠ ref) } } where
  sane hsane := by
    refine ⟨hsane.next, fun other hother => ?_, hsane.forgotten⟩
    exact hsane.actors other (List.mem_filter.mp hother).1
  moves hsane := by
    have hlapse : ledger { scene with engine := { scene.engine with
        actors := scene.engine.actors.filter (· ≠ ref) } } = (ledger scene).lapse ref := by
      ext1
      · rfl
      · ext other
        simp only [ledger, ledgerOf, Ledger.lapse, Set.mem_ofPred_eq, List.mem_filter,
          decide_eq_true_eq, Set.mem_sdiff, Set.mem_singleton_iff]
        tauto
      · rfl
    rw [hlapse]
    exact .single (.lapse ref)
  stated := id
  abroad _ := id

end Lifecycle

theorem confined_initial [CppFloat F] [CppFloat D] : Confined (Scene.initial F D) where
  sane := ⟨Nat.lt_succ_self _, by rintro _ ⟨⟩, by rintro _ ⟨⟩⟩
  sound := ⟨fun _ hlive => absurd hlive.1 (by rintro ⟨⟩), by rintro _ _ ⟨⟩⟩
  stated := by rintro _ _ ⟨⟩
  abroad := by rintro _ ⟨⟩

section Runs

variable [CppFloat F] [CppFloat D] [Libm F] [Narrow D F] [Widen F D]

theorem evolves_perform (scene : Scene F D) (op : Op F D) : Evolves scene (scene.perform op) := by
  cases op with
  | setInterpDelay | setDrive | setMove =>
      exact ⟨fun h => h, fun _ => .refl, fun h => h, fun _ h => h⟩
  | setCloneBase | setPacify | setGhost | setDuplicate =>
      exact LetGo.evolves (letGo_respawnWith scene rfl)
  | respawn => exact (letGo_respawn scene).evolves
  | add id name => exact (sameHandles_add scene id name).evolves
  | rename id name => exact (sameHandles_rename scene id name).evolves
  | remove id => exact evolves_remove scene id
  | applyState id state serverMs localMs =>
      exact (sameHandles_applyState scene id state serverMs localMs).evolves
  | update input => exact evolves_update scene input
  | despawnAll => exact (letGo_despawnAll scene).evolves
  | forgetActors => exact (letGo_forgetActors scene).evolves
  | clear => exact (letGo_clear scene).evolves
  | actorDeleted ref => exact evolves_actorDeleted scene ref

theorem evolves_step (scene : Scene F D) (input : PlayerOrder F × Op F D) :
    Evolves scene (scene.step input) :=
  (evolves_reorder scene input.1).trans (evolves_perform _ input.2)

theorem confined_after (inputs : List (PlayerOrder F × Op F D)) : Confined (Scene.after inputs) :=
  run_invariant confined_initial (fun scene input h => h.evolves (evolves_step scene input)) inputs

theorem quiet_perform (scene : Scene F D) {op : Op F D} (hop : ∀ input, op ≠ .update input) :
    Asked Quiet scene.engine (scene.perform op).engine := by
  cases op with
  | setInterpDelay | setDrive | setMove => exact .refl _
  | setCloneBase | setPacify | setGhost | setDuplicate =>
      exact LetGo.asked (letGo_respawnWith scene rfl)
  | respawn => exact (letGo_respawn scene).asked
  | add id name => exact (sameHandles_add scene id name).still.asked
  | rename id name => exact (sameHandles_rename scene id name).still.asked
  | remove id =>
      rw [Scene.perform, remove]
      split
      · exact .refl _
      · exact asked_despawn _ _
  | applyState id state serverMs localMs =>
      exact (sameHandles_applyState scene id state serverMs localMs).still.asked
  | update input => exact absurd rfl (hop input)
  | despawnAll => exact (letGo_despawnAll scene).asked
  | forgetActors => exact (letGo_forgetActors scene).asked
  | clear => exact (letGo_clear scene).asked
  | actorDeleted ref => exact .refl _

end Runs

end F4MP.Clones
