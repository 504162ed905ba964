import F4MP.Interp

/-!
The timeline behind the stamps on the wire: what the clock of a client makes of them.
-/

namespace F4MP.Timeline

open F4MP.Interp

/-- The stamp of a server time, in milliseconds. -/
def stampOf (timeMs : Nat) : UInt32 := UInt32.ofNat timeMs

/-- One time follows another within half the range of the stamps. -/
def Near (before after : Nat) : Prop :=
  -2 ^ 31 ≤ (after : Int) - before ∧ (after : Int) - before < 2 ^ 31

instance (before after : Nat) : Decidable (Near before after) := inferInstanceAs (Decidable (_ ∧ _))

theorem toInt_stamp_sub {before after : Nat} (h : Near before after) :
    (stampOf after - stampOf before).toInt32.toInt = after - before := by
  obtain ⟨hlow, hhigh⟩ := h
  have hbits : (stampOf after - stampOf before).toInt32.toInt =
      ((stampOf after - stampOf before).toNat : Int).bmod (2 ^ 32) :=
    BitVec.toInt_eq_toNat_bmod _
  rw [hbits, UInt32.toNat_sub, stampOf, stampOf, UInt32.toNat_ofNat', UInt32.toNat_ofNat',
    Int.bmod_def]
  omega

theorem unwrap_fresh (timeMs : Nat) :
    ServerClock.unwrap {} (stampOf timeMs) =
      ((timeMs : Int) % 2 ^ 32,
        { started := true, last := stampOf timeMs, now := (timeMs : Int) % 2 ^ 32 }) := by
  simp [ServerClock.unwrap, stampOf]

theorem unwrap_started {clock : ServerClock} {before after : Nat} (hstarted : clock.started = true)
    (hlast : clock.last = stampOf before) (h : Near before after) :
    clock.unwrap (stampOf after) =
      (clock.now + (after - before),
        { started := true, last := stampOf after, now := clock.now + (after - before) }) := by
  rw [ServerClock.unwrap, if_pos hstarted, hlast, toInt_stamp_sub h]
  exact Prod.ext rfl (ServerClock.mk.injEq .. ▸ ⟨hstarted, rfl, rfl⟩)

/-- The times a clock makes of stamps, one after the other. -/
def unwrapAll (clock : ServerClock) : List UInt32 → List Int
  | [] => []
  | stamp :: stamps => (clock.unwrap stamp).1 :: unwrapAll (clock.unwrap stamp).2 stamps

theorem unwrapAll_started {clock : ServerClock} {before : Nat} {times : List Nat}
    (hstarted : clock.started = true) (hlast : clock.last = stampOf before)
    (hsteps : (before :: times).IsChain Near) :
    unwrapAll clock (times.map stampOf) =
      times.map fun timeMs : Nat => clock.now + ((timeMs : Int) - before) := by
  induction times generalizing clock before with
  | nil => rfl
  | cons after times ih =>
      obtain ⟨hnear, hrest⟩ := List.isChain_cons_cons.mp hsteps
      rw [List.map_cons, List.map_cons, unwrapAll, unwrap_started hstarted hlast hnear,
        ih rfl rfl hrest]
      refine congrArg _ (List.map_congr_left fun timeMs _ => ?_)
      change clock.now + (after - before) + (timeMs - after) = _
      omega

/-- A fresh clock follows the true times as long as none is more than half the range of
the stamps away from the one before, and no sum leaves the range of the source's type
while the true times are in it. -/
theorem unwrap_exact (first : Nat) (times : List Nat)
    (hsteps : (first :: times).IsChain Near) :
    (unwrapAll {} ((first :: times).map stampOf) =
      (first :: times).map fun timeMs : Nat => (first : Int) % 2 ^ 32 + ((timeMs : Int) - first)) ∧
    ((∀ timeMs ∈ first :: times, timeMs < 2 ^ 63) →
      ∀ now ∈ unwrapAll {} ((first :: times).map stampOf), -2 ^ 63 ≤ now ∧ now < 2 ^ 63) := by
  have hexact : unwrapAll {} ((first :: times).map stampOf) =
      (first :: times).map fun timeMs : Nat => (first : Int) % 2 ^ 32 + ((timeMs : Int) - first) := by
    rw [List.map_cons, unwrapAll, unwrap_fresh, unwrapAll_started rfl rfl hsteps, List.map_cons]
    exact congrArg (· :: _) (by omega)
  refine ⟨hexact, fun hrange now hnow => ?_⟩
  rw [hexact] at hnow
  obtain ⟨timeMs, hmem, rfl⟩ := List.mem_map.mp hnow
  have hfirst := hrange first List.mem_cons_self
  have htime := hrange timeMs hmem
  omega

/-- Across a wrap, and back. -/
theorem unwrap_across_wrap :
    unwrapAll {} ([0xFFFFFF00, 0x100000100, 0xFFFFFF80].map stampOf) =
      [0xFFFFFF00, 0x100000100, 0xFFFFFF80] :=
  (unwrap_exact 0xFFFFFF00 [0x100000100, 0xFFFFFF80] (by decide)).1

end F4MP.Timeline
