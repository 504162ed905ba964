import F4MP.Delivery

/-!
The snapshot buffers over whole runs of the remote players: what each operation can do
to a buffer, the order and the bounds that every run keeps, and the trimming loop with the
indices the source uses.
-/

namespace F4MP.Snapshots

open F4MP.Types
open F4MP.Arith
open F4MP.Interp
open F4MP.RemotePlayersModel
open F4MP.CloneUpdate
open F4MP.Clones
open F4MP.Delivery
open F4MP.Library.HashTable
open F4MP.Library.Runs

section Buffers

variable {F D : Type} [CppFloat D]

/-- Oldest first, each snapshot later than the one before it. -/
def Ordered (snapshots : List (TimedState F)) : Prop :=
  snapshots.Pairwise fun a b => a.timeMs < b.timeMs

theorem trim_suffix (renderMs : D) (snapshots : List (TimedState F)) :
    trim renderMs snapshots <:+ snapshots := by
  fun_induction trim renderMs snapshots with
  | case1 first second third rest _ ih => exact ih.trans (List.suffix_cons _ _)
  | case2 | case3 => exact List.suffix_rfl

theorem two_le_trim (renderMs : D) {snapshots : List (TimedState F)}
    (htwo : 2 ≤ snapshots.length) : 2 ≤ (trim renderMs snapshots).length := by
  fun_induction trim renderMs snapshots with
  | case1 first second third rest _ ih => exact ih (by simp)
  | case2 | case3 => exact htwo

theorem trim_ne_nil (renderMs : D) {snapshots : List (TimedState F)} (hsome : snapshots ≠ []) :
    trim renderMs snapshots ≠ [] := by
  intro hnil
  apply hsome
  rw [← List.getLast?_eq_none_iff, ← trim_getLast? renderMs, hnil]
  rfl

theorem ordered_pushSnapshot {snapshots : List (TimedState F)} (h : Ordered snapshots)
    (snapshot : TimedState F) : Ordered (pushSnapshot snapshots snapshot) := by
  rw [pushSnapshot]
  cases hlast : snapshots.getLast? with
  | none => exact List.pairwise_singleton _ _
  | some last =>
      dsimp only
      split
      · exact h
      · rename_i hlater
        refine List.Pairwise.sublist (List.drop_sublist _ _) (List.pairwise_append.mpr
          ⟨h, List.pairwise_singleton _ _, fun a ha b hb => ?_⟩)
        rw [List.mem_singleton.mp hb]
        refine Int.lt_of_le_of_lt ?_ (Int.lt_of_not_ge hlater)
        -- the last one is the latest
        obtain ⟨before, hsplit⟩ := List.getLast?_eq_some_iff.mp hlast
        rw [hsplit] at h ha
        rcases List.mem_append.mp ha with ha | ha
        · exact Int.le_of_lt ((List.pairwise_append.mp h).2.2 a ha last (List.mem_singleton_self _))
        · rw [List.mem_singleton.mp ha]

theorem length_pushSnapshot {snapshots : List (TimedState F)}
    (h : snapshots.length ≤ maxSnapshots) (snapshot : TimedState F) :
    (pushSnapshot snapshots snapshot).length ≤ maxSnapshots := by
  rw [pushSnapshot]
  cases snapshots.getLast? with
  | none => exact (by decide : 1 ≤ maxSnapshots)
  | some last =>
      dsimp only
      split
      · exact h
      · rw [List.length_drop]
        omega

theorem le_length_pushSnapshot (snapshots : List (TimedState F)) (snapshot : TimedState F) :
    min snapshots.length maxSnapshots ≤ (pushSnapshot snapshots snapshot).length := by
  rw [pushSnapshot]
  cases hlast : snapshots.getLast? with
  | none =>
      rw [List.getLast?_eq_none_iff.mp hlast]
      exact Nat.le_trans (Nat.min_le_left _ _) (Nat.zero_le _)
  | some last =>
      dsimp only
      split
      · exact Nat.min_le_left _ _
      · rw [List.length_drop, List.length_append, List.length_singleton]
        omega

/-- The trimming loop with the index it counts up and its unsigned subtraction, `fuel`
rounds at most; `none` if it reads past the end of the buffer. -/
def dropLoop (snapshots : List (TimedState F)) (renderMs : D) : Nat → Nat → Option Nat
  | 0, _ => none
  | fuel + 1, drop =>
      if 2 < UInt64.ofNat snapshots.length - UInt64.ofNat drop then
        match snapshots[drop + 1]? with
        | none => none
        | some next =>
            if toDouble next.timeMs + snapshotKeepMs < renderMs then
              dropLoop snapshots renderMs fuel (drop + 1)
            else some drop
      else some drop

/-- In a buffer of a size that fits, the subtraction does not wrap. -/
theorem two_lt_sub_iff {size drop : Nat} (hsize : size < 2 ^ 64) (hdrop : drop ≤ size) :
    2 < UInt64.ofNat size - UInt64.ofNat drop ↔ 2 < size - drop := by
  have hle : UInt64.ofNat drop ≤ UInt64.ofNat size := by
    rw [UInt64.le_iff_toNat_le, UInt64.toNat_ofNat', UInt64.toNat_ofNat',
      Nat.mod_eq_of_lt hsize, Nat.mod_eq_of_lt (Nat.lt_of_le_of_lt hdrop hsize)]
    exact hdrop
  rw [UInt64.lt_iff_toNat_lt, UInt64.toNat_sub_of_le _ _ hle, UInt64.toNat_ofNat',
    UInt64.toNat_ofNat', Nat.mod_eq_of_lt hsize,
    Nat.mod_eq_of_lt (Nat.lt_of_le_of_lt hdrop hsize)]
  rfl

theorem dropLoop_eq {snapshots : List (TimedState F)} (hsize : snapshots.length < 2 ^ 64)
    (renderMs : D) {fuel drop : Nat} (hdrop : drop ≤ snapshots.length)
    (hfuel : snapshots.length - drop < fuel) :
    ∃ dropped, dropLoop snapshots renderMs fuel drop = some dropped ∧
      dropped ≤ snapshots.length ∧
      snapshots.drop dropped = trim renderMs (snapshots.drop drop) := by
  induction fuel generalizing drop with
  | zero => exact absurd hfuel (Nat.not_lt_zero _)
  | succ fuel ih =>
      rw [dropLoop]
      by_cases hmore : 2 < snapshots.length - drop
      · rw [if_pos ((two_lt_sub_iff hsize hdrop).mpr hmore)]
        obtain ⟨first, second, third, rest, hrest⟩ :
            ∃ first second third rest, snapshots.drop drop = first :: second :: third :: rest := by
          have hlength : 2 < (snapshots.drop drop).length := by rwa [List.length_drop]
          match hsplit : snapshots.drop drop, hlength with
          | first :: second :: third :: rest, _ => exact ⟨first, second, third, rest, rfl⟩
        have hnext : snapshots[drop + 1]? = some second := by
          rw [← List.getElem?_drop, hrest]
          rfl
        rw [hnext, hrest, trim]
        dsimp only
        split
        · have hdropped : snapshots.drop (drop + 1) = second :: third :: rest := by
            rw [← List.tail_drop, hrest]
            rfl
          rw [← hdropped]
          exact ih (by omega) (by omega)
        · exact ⟨drop, rfl, hdrop, hrest⟩
      · rw [if_neg fun h => hmore ((two_lt_sub_iff hsize hdrop).mp h)]
        refine ⟨drop, rfl, hdrop, ?_⟩
        have hlength : (snapshots.drop drop).length ≤ 2 := by
          rw [List.length_drop]
          omega
        match snapshots.drop drop, hlength with
        | [], _ | [_], _ | [_, _], _ => rfl

theorem sampleAt_isSome [CppFloat F] [Narrow D F] {snapshots : List (TimedState F)}
    (hsome : snapshots ≠ []) (renderMs : D) : (sampleAt snapshots renderMs).isSome := by
  rw [sampleAt.eq_def]
  split
  · exact absurd rfl hsome
  · rfl
  · split
    · rfl
    · dsimp only
      split
      · rfl
      · split <;> rfl

end Buffers

/-- What an operation can do to the snapshots of a player. -/
inductive Moved (D : Type) [CppFloat D] {F : Type} (old : List (TimedState F)) :
    List (TimedState F) → Prop where
  | same : Moved D old old
  | trimmed (renderMs : D) : Moved D old (trim renderMs old)
  | pushed (snapshot : TimedState F) : Moved D old (pushSnapshot old snapshot)

section Moved

variable {F D : Type} [CppFloat D] {old new : List (TimedState F)}

theorem Moved.ordered (h : Moved D old new) (hold : Ordered old) : Ordered new := by
  cases h with
  | same => exact hold
  | trimmed renderMs => exact hold.sublist (trim_suffix renderMs old).sublist
  | pushed snapshot => exact ordered_pushSnapshot hold snapshot

theorem Moved.length_le (h : Moved D old new) (hold : old.length ≤ maxSnapshots) :
    new.length ≤ maxSnapshots := by
  cases h with
  | same => exact hold
  | trimmed renderMs => exact Nat.le_trans (trim_suffix renderMs old).length_le hold
  | pushed snapshot => exact length_pushSnapshot hold snapshot

theorem Moved.keeps (h : Moved D old new) :
    (old ≠ [] → new ≠ []) ∧ (2 ≤ old.length → 2 ≤ new.length) := by
  cases h with
  | same => exact ⟨id, id⟩
  | trimmed renderMs => exact ⟨trim_ne_nil renderMs, two_le_trim renderMs⟩
  | pushed snapshot =>
      refine ⟨fun _ => pushSnapshot_ne_nil old snapshot, fun htwo => ?_⟩
      exact Nat.le_trans (Nat.le_min.mpr ⟨htwo, by decide⟩) (le_length_pushSnapshot old snapshot)

end Moved

section Operations

variable {F D : Type} {scene scene' : Scene F D}

/-- The snapshots of an id, none if nobody is listed under it. -/
def buffer (scene : Scene F D) (id : PlayerId) : List (TimedState F) :=
  ((scene.find id).map (·.snapshots)).getD []

theorem buffer_eq {id : PlayerId} {player : RemotePlayer F} (h : scene.find id = some player) :
    buffer scene id = player.snapshots := by
  simp [buffer, h]

/-- The offset and the timeline of the server's clock are known. -/
def Clocked (scene : Scene F D) : Prop :=
  scene.remotes.hasOffset = true ∧ scene.remotes.serverClock.started = true

variable [CppFloat D]

/-- What one operation does to the buffers and the clock of a scene. -/
structure Buffers (scene scene' : Scene F D) : Prop where
  moved : ∀ id player', scene'.find id = some player' →
    Moved D (buffer scene id) player'.snapshots
  clock : ∀ id, Listed scene' id → Clocked scene → Clocked scene'
  started : ∀ id player', scene'.find id = some player' → buffer scene id = [] →
    player'.snapshots ≠ [] → Clocked scene'

theorem Buffers.of_same (hoffset : scene'.remotes.hasOffset = scene.remotes.hasOffset)
    (hclock : scene'.remotes.serverClock = scene.remotes.serverClock)
    (hsame : ∀ id player', scene'.find id = some player' →
      player'.snapshots = buffer scene id) : Buffers scene scene' where
  moved id player' hplayer' := hsame id player' hplayer' ▸ .same
  clock _ _ := by
    rw [Clocked, Clocked, hoffset, hclock]
    exact fun h => h
  started id player' hplayer' hnone hsome := absurd ((hsame id player' hplayer').trans hnone) hsome

theorem Buffers.of_map (f : RemotePlayer F → RemotePlayer F)
    (hf : ∀ player, (f player).snapshots = player.snapshots)
    (hoffset : scene'.remotes.hasOffset = scene.remotes.hasOffset)
    (hclock : scene'.remotes.serverClock = scene.remotes.serverClock)
    (hfind : ∀ id, scene'.find id = (scene.find id).map f) : Buffers scene scene' := by
  refine .of_same hoffset hclock fun id player' hplayer' => ?_
  rw [hfind] at hplayer'
  obtain ⟨player, hplayer, rfl⟩ := Option.map_eq_some_iff.mp hplayer'
  rw [buffer_eq hplayer]
  exact hf player

theorem buffers_reorder (scene : Scene F D) (order : PlayerOrder F) :
    Buffers scene (scene.reorder order) :=
  .of_map id (fun _ => rfl) rfl rfl fun id => by
    rw [Option.map_id]
    exact lookup_arrange order _ id

theorem buffers_despawnAll (scene : Scene F D) : Buffers scene (despawnAll scene) :=
  .of_map (fun player => { player with actor := none }) (fun _ => rfl) rfl rfl
    fun id => lookup_mapValues _ _ id

theorem buffers_remove (scene : Scene F D) (id : PlayerId) : Buffers scene (remove scene id) := by
  have hsame : (remove scene id).remotes.hasOffset = scene.remotes.hasOffset ∧
      (remove scene id).remotes.serverClock = scene.remotes.serverClock := by
    rw [remove]
    split <;> exact ⟨rfl, rfl⟩
  refine .of_same hsame.1 hsame.2 fun c player' hplayer' => ?_
  rw [find_remove] at hplayer'
  split at hplayer'
  · cases hplayer'
  · rw [buffer_eq hplayer']

theorem buffers_clear (scene : Scene F D) : Buffers scene (clear scene) := by
  have hnobody : ∀ id, (clear scene).find id = none := fun _ => rfl
  refine ⟨fun id player' hplayer' => ?_, fun id hlisted => ?_, fun id player' hplayer' => ?_⟩
  · rw [hnobody] at hplayer'
    cases hplayer'
  · exact absurd (hnobody id) hlisted
  · rw [hnobody] at hplayer'
    cases hplayer'

theorem snapshots_getD (found : Option (RemotePlayer F)) (record : RemotePlayer F)
    (hrecord : record.snapshots = []) :
    (found.getD record).snapshots = (found.map (·.snapshots)).getD [] := by
  cases found with
  | none => exact hrecord
  | some player => rfl

variable [CppFloat F]

theorem buffers_add (scene : Scene F D) (id : PlayerId) (name : Bytes) :
    Buffers scene (add scene id name) := by
  refine .of_same rfl rfl fun c player' hplayer' => ?_
  rw [find_add] at hplayer'
  split at hplayer'
  · rename_i hc
    obtain rfl := Option.some.inj hplayer'
    rw [hc]
    exact snapshots_getD (scene.find id) _ rfl
  · rw [buffer_eq hplayer']

theorem buffers_rename (scene : Scene F D) (id : PlayerId) (name : Bytes) :
    Buffers scene (rename scene id name) := by
  have hsame : (rename scene id name).remotes.hasOffset = scene.remotes.hasOffset ∧
      (rename scene id name).remotes.serverClock = scene.remotes.serverClock := by
    rw [rename]
    split <;> exact ⟨rfl, rfl⟩
  refine .of_same hsame.1 hsame.2 fun c player' hplayer' => ?_
  rw [find_rename] at hplayer'
  split at hplayer'
  · rename_i hc
    obtain rfl := Option.some.inj hplayer'
    rw [hc]
    exact snapshots_getD (scene.find id) _ rfl
  · rw [buffer_eq hplayer']

theorem unwrap_starts (clock : ServerClock) (stamp : UInt32) :
    (clock.unwrap stamp).2.started = true := by
  rw [ServerClock.unwrap]
  split
  · assumption
  · rfl

theorem clocked_applyState (scene : Scene F D) (id : PlayerId) (state : PlayerState F)
    (serverMs : UInt32) (localMs : D) : Clocked (applyState scene id state serverMs localMs) := by
  rw [applyState]
  dsimp only
  refine ⟨(noteServerTime_spec _ _ localMs).2.2, ?_⟩
  rw [(noteServerTime_spec _ _ localMs).2.1]
  exact unwrap_starts _ serverMs

theorem buffers_applyState (scene : Scene F D) (id : PlayerId) (state : PlayerState F)
    (serverMs : UInt32) (localMs : D) :
    Buffers scene (applyState scene id state serverMs localMs) where
  moved c player' hplayer' := by
    rw [find_applyState] at hplayer'
    split at hplayer'
    · rename_i hc
      obtain rfl := Option.some.inj hplayer'
      have hentry : (stateEntry scene id).snapshots = buffer scene id :=
        snapshots_getD (scene.find id) _ rfl
      dsimp only
      rw [hc, hentry]
      exact .pushed _
    · rw [buffer_eq hplayer']
      exact .same
  clock _ _ _ := clocked_applyState scene id state serverMs localMs
  started _ _ _ _ _ := clocked_applyState scene id state serverMs localMs

theorem buffers_forgetActors (scene : Scene F D) : Buffers scene (forgetActors scene) :=
  .of_map (·.forgetful) (fun _ => rfl) rfl rfl fun id => lookup_mapValues _ _ id

theorem buffers_respawn (scene : Scene F D) {remotes : RemotePlayers F D}
    (hoffset : remotes.hasOffset = scene.remotes.hasOffset)
    (hclock : remotes.serverClock = scene.remotes.serverClock)
    (hplayers : remotes.players = scene.remotes.players) :
    Buffers scene (respawn { scene with remotes }) := by
  refine .of_map (fun player => { player with actor := none }.respawned)
    (fun _ => rfl) hoffset hclock fun id => ?_
  have hdespawned : (despawnAll { scene with remotes }).find id =
      (scene.find id).map fun player => { player with actor := none } :=
    (lookup_mapValues _ _ id).trans (by rw [hplayers]; rfl)
  refine (lookup_mapValues _ _ id).trans ?_
  rw [show (despawnAll { scene with remotes }).remotes.players.lookup id = _ from hdespawned,
    Option.map_map]
  rfl

variable [Libm F] [Narrow D F] [Widen F D]

theorem hasOffset_update (scene : Scene F D) (input : UpdateInput D) :
    (update scene input).remotes.hasOffset = scene.remotes.hasOffset := by
  rw [update_remotes]

theorem buffers_update (scene : Scene F D) (input : UpdateInput D) :
    Buffers scene (update scene input) := by
  cases hspace : input.localSpace with
  | none =>
      rw [update, hspace]
      exact .of_same rfl rfl fun id player hplayer => (buffer_eq hplayer).symm
  | some localSpace =>
      have hspec := update_spec hspace scene
      have hclocked : Clocked scene → Clocked (update scene input) := by
        rw [Clocked, Clocked, hasOffset_update, (steady_newest.update scene input).clock]
        exact fun h => h
      have hmoved : ∀ id player', (update scene input).find id = some player' →
          player'.snapshots = buffer scene id ∨
            ∃ renderMs : D, player'.snapshots = trim renderMs (buffer scene id) := by
        intro id player' hplayer'
        by_cases hid : id ∈ scene.remotes.players.keys
        · obtain ⟨player, hplayer, htrimmed⟩ := hspec.trimmed id hid player' hplayer'
          rw [buffer_eq hplayer]
          exact .inr ⟨_, htrimmed⟩
        · rw [hspec.others id hid] at hplayer'
          exact .inl (buffer_eq hplayer').symm
      refine ⟨fun id player' hplayer' => ?_, fun _ _ => hclocked,
        fun id player' hplayer' hnone hsome => ?_⟩
      · rcases hmoved id player' hplayer' with hsame | ⟨renderMs, htrimmed⟩
        · exact hsame ▸ .same
        · exact htrimmed ▸ .trimmed renderMs
      · refine absurd ?_ hsome
        rcases hmoved id player' hplayer' with hsame | ⟨renderMs, htrimmed⟩
        · exact hsame.trans hnone
        · rw [htrimmed, hnone]
          rfl

theorem buffers_perform (scene : Scene F D) (op : Op F D) : Buffers scene (scene.perform op) := by
  cases op with
  | setInterpDelay | setDrive | setMove | actorDeleted =>
      exact .of_same rfl rfl fun id player hplayer => (buffer_eq hplayer).symm
  | setCloneBase | setPacify | setGhost | setDuplicate => exact buffers_respawn scene rfl rfl rfl
  | respawn => exact buffers_respawn scene rfl rfl rfl
  | add id name => exact buffers_add scene id name
  | rename id name => exact buffers_rename scene id name
  | remove id => exact buffers_remove scene id
  | applyState id state serverMs localMs => exact buffers_applyState scene id state serverMs localMs
  | update input => exact buffers_update scene input
  | despawnAll => exact buffers_despawnAll scene
  | forgetActors => exact buffers_forgetActors scene
  | clear => exact buffers_clear scene

end Operations

section Runs

variable {F D : Type} [CppFloat D] {scene scene' : Scene F D}

/-- Every buffer is in order and bounded, and nobody has a snapshot before the clock is
known. -/
structure Kept (scene : Scene F D) : Prop where
  ordered : ∀ id player, scene.find id = some player → Ordered player.snapshots
  bounded : ∀ id player, scene.find id = some player → player.snapshots.length ≤ maxSnapshots
  clocked : ∀ id player, scene.find id = some player → player.snapshots ≠ [] → Clocked scene

omit [CppFloat D] in
theorem Kept.buffer (h : Kept scene) (id : PlayerId) :
    Ordered (buffer scene id) ∧ (buffer scene id).length ≤ maxSnapshots ∧
      (buffer scene id ≠ [] → Clocked scene) := by
  cases hfind : scene.find id with
  | none =>
      rw [Snapshots.buffer, hfind]
      exact ⟨.nil, Nat.zero_le _, fun hsome => absurd rfl hsome⟩
  | some player =>
      rw [buffer_eq hfind]
      exact ⟨h.ordered id player hfind, h.bounded id player hfind, h.clocked id player hfind⟩

theorem Kept.step (h : Kept scene) (hbuffers : Buffers scene scene') : Kept scene' where
  ordered id player' hplayer' := (hbuffers.moved id player' hplayer').ordered (h.buffer id).1
  bounded id player' hplayer' := (hbuffers.moved id player' hplayer').length_le (h.buffer id).2.1
  clocked id player' hplayer' hsome := by
    by_cases hnone : Snapshots.buffer scene id = []
    · exact hbuffers.started id player' hplayer' hnone hsome
    · have hlisted : Listed scene' id := by
        rw [Listed, hplayer']
        rintro ⟨⟩
      exact hbuffers.clock id hlisted ((h.buffer id).2.2 hnone)

variable [CppFloat F] [Libm F] [Narrow D F] [Widen F D]

theorem kept_after (inputs : List (PlayerOrder F × Op F D)) : Kept (Scene.after inputs) := by
  apply run_invariant (P := Kept)
  · have hnobody : ∀ id, (Scene.initial F D).find id = none := fun _ => rfl
    refine ⟨?_, ?_, ?_⟩ <;>
    · intro id player hplayer
      rw [hnobody] at hplayer
      cases hplayer
  · intro scene input h
    exact (h.step (buffers_reorder scene input.1)).step (buffers_perform _ input.2)

/-- In every run of the remote players the buffers are in order, bounded and behind a known
clock; no operation takes a player's last snapshot, or the last but one; and for a frame
at any render time the trimming loop stays in the buffer and leaves the newest state and
a sample to be had. -/
theorem snapshot_buffers (inputs : List (PlayerOrder F × Op F D)) (input : PlayerOrder F × Op F D) :
    let before := Scene.after inputs
    let after := before.step input
    Kept before ∧
    (∀ id player player', before.find id = some player → after.find id = some player' →
      (player.snapshots ≠ [] → player'.snapshots ≠ []) ∧
        (2 ≤ player.snapshots.length → 2 ≤ player'.snapshots.length)) ∧
    (∀ id player, before.find id = some player → ∀ renderMs : D,
      ∃ dropped, dropLoop player.snapshots renderMs (player.snapshots.length + 1) 0 = some dropped ∧
        dropped ≤ player.snapshots.length ∧
        player.snapshots.drop dropped = trim renderMs player.snapshots ∧
        (player.snapshots ≠ [] →
          ({ player with snapshots := trim renderMs player.snapshots }).latest.isSome ∧
          (sampleAt (trim renderMs player.snapshots) renderMs).isSome)) := by
  intro before after
  have hkept : Kept before := kept_after inputs
  refine ⟨hkept, ?_, ?_⟩
  · intro id player player' hplayer hplayer'
    have hmoved := (buffers_perform (before.reorder input.1) input.2).moved id player' hplayer'
    have hfind : (before.reorder input.1).find id = some player :=
      (lookup_arrange input.1 _ id).trans hplayer
    rw [buffer_eq hfind] at hmoved
    exact hmoved.keeps
  · intro id player hplayer renderMs
    have hsize : player.snapshots.length < 2 ^ 64 :=
      Nat.lt_of_le_of_lt (hkept.bounded id player hplayer) (by decide)
    obtain ⟨dropped, hloop, hle, hdrop⟩ :=
      dropLoop_eq hsize renderMs (Nat.zero_le _) (Nat.lt_succ_self _)
    refine ⟨dropped, hloop, hle, hdrop, fun hsome => ?_⟩
    have htrimmed := trim_ne_nil renderMs hsome
    refine ⟨?_, sampleAt_isSome htrimmed renderMs⟩
    rw [RemotePlayer.latest, Option.isSome_map, List.getLast?_isSome]
    simpa using htrimmed

end Runs

end F4MP.Snapshots
