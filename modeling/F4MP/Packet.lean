import F4MP.Library.LittleEndian
import F4MP.Library.WireFormat
import F4MP.Types

/-!
The byte writer and reader every wire message goes through.  The writer appends;
the reader keeps a position and a sticky failure flag, and yields zeros once a
read has failed.
-/

namespace F4MP.Packet

open F4MP.Types
open F4MP.Library.LittleEndian
open F4MP.Library.WireFormat

def maxStringBytes : Nat := 4096

structure Writer where
  buf : Bytes := []

namespace Writer

def raw (w : Writer) (bytes : Bytes) : Writer := { buf := w.buf ++ bytes }

def u8 (w : Writer) (v : UInt8) : Writer := { buf := w.buf ++ [v] }
def u16 (w : Writer) (v : UInt16) : Writer := w.raw (leBytes 2 v.toNat)
def u32 (w : Writer) (v : UInt32) : Writer := w.raw (leBytes 4 v.toNat)
def i32 (w : Writer) (v : Int32) : Writer := w.raw (leBytes 4 v.toUInt32.toNat)
def f32 (w : Writer) (v : F32) : Writer := w.raw (leBytes 4 v.bits.toNat)
def bool (w : Writer) (v : Bool) : Writer := w.u8 (if v then 1 else 0)

/-- A `u16` length and the bytes, cut to `maxStringBytes`. -/
def str (w : Writer) (s : Bytes) : Writer :=
  let len := if s.length > maxStringBytes then maxStringBytes else s.length
  (w.u16 (UInt16.ofNat len)).raw (s.take len)

end Writer

@[ext] structure Reader where
  data : Bytes
  pos : Nat := 0
  ok : Bool := true

namespace Reader

def remaining (r : Reader) : Nat := r.data.length - r.pos

/-- Copies `n` bytes out, or zeros when they are not there or a read has failed before. -/
def raw (r : Reader) (n : Nat) : Bytes × Reader :=
  if !r.ok || n > r.remaining then
    (List.replicate n 0, { r with ok := false })
  else
    ((r.data.drop r.pos).take n, { r with pos := r.pos + n })

def u8 (r : Reader) : UInt8 × Reader :=
  let (bytes, r) := r.raw 1
  (UInt8.ofNat (leValue bytes), r)

def u16 (r : Reader) : UInt16 × Reader :=
  let (bytes, r) := r.raw 2
  (UInt16.ofNat (leValue bytes), r)

def u32 (r : Reader) : UInt32 × Reader :=
  let (bytes, r) := r.raw 4
  (UInt32.ofNat (leValue bytes), r)

def i32 (r : Reader) : Int32 × Reader :=
  let (v, r) := r.u32
  (v.toInt32, r)

def f32 (r : Reader) : F32 × Reader :=
  let (v, r) := r.u32
  (⟨v⟩, r)

def bool (r : Reader) : Bool × Reader :=
  let (v, r) := r.u8
  (v != 0, r)

def str (r : Reader) : Bytes × Reader :=
  let (len, r) := r.u16
  if !r.ok || len.toNat > maxStringBytes || len.toNat > r.remaining then
    ([], { r with ok := false })
  else
    ((r.data.drop r.pos).take len.toNat, { r with pos := r.pos + len.toNat })

/-- The bytes the reader has not consumed yet. -/
def unread (r : Reader) : Bytes := r.data.drop r.pos

@[simp] theorem length_unread (r : Reader) : r.unread.length = r.remaining := by
  simp [unread, remaining]

end Reader

/-- A computation that advances the reader, one field after the other. -/
def Read (α : Type) : Type := Reader → α × Reader

instance : Monad Read where
  pure a := fun r => (a, r)
  bind read next := fun r => next (read r).1 (read r).2

/-- A write that appends exactly the format's letters. -/
def Writes {α : Type} (write : Writer → α → Writer) (F : Format UInt8 α) : Prop :=
  ∀ w a, (write w a).buf = w.buf ++ F.print a

/-- A read that does what the format's parser does on the unread bytes, and that
never clears the failure flag. -/
structure Reads {α : Type} (read : Reader → α × Reader) (F : Format UInt8 α) : Prop where
  accepts : ∀ {r a rest}, r.ok = true → F.parse r.unread = some (a, rest) →
    (read r).1 = a ∧ (read r).2.ok = true ∧ (read r).2.unread = rest
  refuses : ∀ {r}, r.ok = true → F.parse r.unread = none → (read r).2.ok = false
  sticky : ∀ {r}, r.ok = false → (read r).2.ok = false
  data_eq : ∀ r, (read r).2.data = r.data

theorem Reads.pair {α β : Type} {first : Reader → α × Reader} {second : Reader → β × Reader}
    {F : Format UInt8 α} {G : Format UInt8 β} (hfirst : Reads first F) (hsecond : Reads second G) :
    Reads (fun r => (((first r).1, (second (first r).2).1), (second (first r).2).2))
      (F.pair G) where
  accepts := by
    intro r p rest hok hparse
    obtain ⟨⟨a, middle⟩, ha, hparse⟩ := Option.bind_eq_some_iff.mp hparse
    obtain ⟨⟨b, unread⟩, hb, hparse⟩ := Option.map_eq_some_iff.mp hparse
    obtain ⟨rfl, rfl⟩ := Prod.mk.inj hparse
    obtain ⟨hvalue, hok, hunread⟩ := hfirst.accepts hok ha
    obtain ⟨hvalue', hok', hunread'⟩ := hsecond.accepts hok (hunread ▸ hb)
    exact ⟨Prod.ext hvalue hvalue', hok', hunread'⟩
  refuses := by
    intro r hok hparse
    cases ha : F.parse r.unread with
    | none => exact hsecond.sticky (hfirst.refuses hok ha)
    | some found =>
        obtain ⟨hvalue, hok', hunread⟩ := hfirst.accepts hok ha
        apply hsecond.refuses hok'
        change (F.parse r.unread).bind _ = none at hparse
        rw [ha] at hparse
        rw [hunread]
        exact Option.map_eq_none_iff.mp hparse
  sticky hok := hsecond.sticky (hfirst.sticky hok)
  data_eq r := (hsecond.data_eq _).trans (hfirst.data_eq r)

theorem Reads.congr {α β : Type} {read : Reader → α × Reader} {F : Format UInt8 α}
    (h : Reads read F) (e : α ≃ β) :
    Reads (fun r => (e (read r).1, (read r).2)) (F.congr e) where
  accepts := by
    intro r b rest hok hparse
    obtain ⟨⟨a, unread⟩, ha, hparse⟩ := Option.map_eq_some_iff.mp hparse
    obtain ⟨rfl, rfl⟩ := Prod.mk.inj hparse
    obtain ⟨hvalue, hok', hunread⟩ := h.accepts hok ha
    exact ⟨congrArg e hvalue, hok', hunread⟩
  refuses hok hparse := h.refuses hok (Option.map_eq_none_iff.mp hparse)
  sticky := h.sticky
  data_eq := h.data_eq

theorem Writes.pair {α β : Type} {first : Writer → α → Writer} {second : Writer → β → Writer}
    {F : Format UInt8 α} {G : Format UInt8 β} (hfirst : Writes first F)
    (hsecond : Writes second G) :
    Writes (fun w p => second (first w p.1) p.2) (F.pair G) := by
  intro w p
  rw [hsecond, hfirst, List.append_assoc]
  rfl

theorem Writes.congr {α β : Type} {write : Writer → α → Writer} {F : Format UInt8 α}
    (h : Writes write F) (e : α ≃ β) :
    Writes (fun w b => write w (e.symm b)) (F.congr e) :=
  fun w b => h w (e.symm b)

/-- A field of fixed width, given by the number it stores. -/
def wordFormat {α : Type} (width : Nat) (toNat : α → Nat) (ofNat : Nat → α)
    (toNat_lt : ∀ a, toNat a < 256 ^ width) (ofNat_toNat : ∀ a, ofNat (toNat a) = a)
    (toNat_ofNat : ∀ n < 256 ^ width, toNat (ofNat n) = n) : Format UInt8 α :=
  Format.block width (fun a => leBytes width (toNat a)) (fun bytes => ofNat (leValue bytes))
    (fun a => length_leBytes width (toNat a))
    (fun a => by rw [leValue_leBytes _ _ (toNat_lt a), ofNat_toNat])
    (fun bytes hlength => by
      rw [toNat_ofNat _ (hlength ▸ leValue_lt bytes), ← hlength, leBytes_leValue])

def u8Format : Format UInt8 UInt8 :=
  wordFormat 1 UInt8.toNat UInt8.ofNat (fun a => a.toNat_lt) (fun _ => UInt8.ofNat_toNat)
    (fun _ h => UInt8.toNat_ofNat_of_lt' h)

def u16Format : Format UInt8 UInt16 :=
  wordFormat 2 UInt16.toNat UInt16.ofNat (fun a => a.toNat_lt) (fun _ => UInt16.ofNat_toNat)
    (fun _ h => UInt16.toNat_ofNat_of_lt' h)

def u32Format : Format UInt8 UInt32 :=
  wordFormat 4 UInt32.toNat UInt32.ofNat (fun a => a.toNat_lt) (fun _ => UInt32.ofNat_toNat)
    (fun _ h => UInt32.toNat_ofNat_of_lt' h)

/-- A `float` and the word of its bits. -/
def f32Bits : UInt32 ≃ F32 := ⟨F32.mk, F32.bits, fun _ => rfl, fun _ => rfl⟩

def f32Format : Format UInt8 F32 := u32Format.congr f32Bits

def strFormat : Format UInt8 Bytes :=
  Format.counted maxStringBytes u16Format UInt16.toNat UInt16.ofNat
    (fun n hn => UInt16.toNat_ofNat_of_lt' (Nat.lt_of_le_of_lt hn (by decide)))
    (fun _ => UInt16.ofNat_toNat) (fun _ _ => rfl)

theorem Reader.raw_eq (r : Reader) (n : Nat) (hok : r.ok = true) (hn : n ≤ r.remaining) :
    r.raw n = (r.unread.take n, { r with pos := r.pos + n }) := by
  simp [Reader.raw, Reader.unread, hok, Nat.not_lt.mpr hn]

theorem Reader.raw_ok_of_lt (r : Reader) (n : Nat) (hn : r.remaining < n) :
    (r.raw n).2.ok = false := by
  simp [Reader.raw, hn]

theorem Reader.raw_sticky (r : Reader) (n : Nat) (hok : r.ok = false) :
    (r.raw n).2.ok = false := by
  simp [Reader.raw, hok]

@[simp] theorem Reader.raw_data (r : Reader) (n : Nat) : (r.raw n).2.data = r.data := by
  unfold Reader.raw
  split <;> rfl

theorem reads_word {α : Type} (width : Nat) (toNat : α → Nat) (ofNat : Nat → α)
    (toNat_lt : ∀ a, toNat a < 256 ^ width) (ofNat_toNat : ∀ a, ofNat (toNat a) = a)
    (toNat_ofNat : ∀ n < 256 ^ width, toNat (ofNat n) = n) :
    Reads (fun r => (ofNat (leValue (r.raw width).1), (r.raw width).2))
      (wordFormat width toNat ofNat toNat_lt ofNat_toNat toNat_ofNat) where
  accepts := by
    intro r a rest hok hparse
    simp only [wordFormat, Format.block] at hparse
    split at hparse
    next hwidth =>
      obtain ⟨rfl, rfl⟩ := Prod.mk.inj (Option.some.inj hparse)
      rw [Reader.length_unread] at hwidth
      rw [r.raw_eq width hok hwidth]
      exact ⟨rfl, hok, by simp [Reader.unread, List.drop_drop]⟩
    next => cases hparse
  refuses := by
    intro r hok hparse
    simp only [wordFormat, Format.block, Reader.length_unread] at hparse
    split at hparse
    next => cases hparse
    next hwidth => exact r.raw_ok_of_lt width (Nat.not_le.mp hwidth)
  sticky hok := Reader.raw_sticky _ width hok
  data_eq r := r.raw_data width

theorem reads_u8 : Reads Reader.u8 u8Format := reads_word ..
theorem reads_u16 : Reads Reader.u16 u16Format := reads_word ..
theorem reads_u32 : Reads Reader.u32 u32Format := reads_word ..
theorem reads_f32 : Reads Reader.f32 f32Format := reads_u32.congr f32Bits

theorem reads_str : Reads Reader.str strFormat where
  accepts := by
    intro r s rest hok hparse
    obtain ⟨⟨len, unread⟩, hlen, hparse⟩ := Option.bind_eq_some_iff.mp hparse
    obtain ⟨hvalue, hok', hunread⟩ := reads_u16.accepts hok hlen
    split at hparse
    next hsize =>
      obtain ⟨rfl, rfl⟩ := Prod.mk.inj (Option.some.inj hparse)
      simp only at hsize hunread
      rw [← hunread, Reader.length_unread] at hsize
      have hmax := Nat.not_lt.mpr hsize.1
      have hleft := Nat.not_lt.mpr hsize.2
      simp only [Reader.str, hvalue, hok', ← hunread]
      simp [hmax, hleft, Reader.unread, List.drop_drop]
    next => cases hparse
  refuses := by
    intro r hok hparse
    cases hlen : u16Format.parse r.unread with
    | none => simp [Reader.str, reads_u16.refuses hok hlen]
    | some found =>
        obtain ⟨hvalue, hok', hunread⟩ := reads_u16.accepts hok hlen
        simp only [strFormat, Format.counted, hlen, Option.bind_some] at hparse
        split at hparse
        next => cases hparse
        next hsize =>
          rw [← hunread, Reader.length_unread, ← hvalue, not_and_or, Nat.not_le, Nat.not_le]
            at hsize
          simp [Reader.str, hok', hsize]
  sticky hok := by simp [Reader.str, reads_u16.sticky hok]
  data_eq r := by
    simp only [Reader.str]
    split <;> exact reads_u16.data_eq r

theorem writes_u8 : Writes Writer.u8 u8Format := by
  intro w v
  simp [Writer.u8, u8Format, wordFormat, Format.block, leBytes]

theorem writes_u16 : Writes Writer.u16 u16Format := fun _ _ => rfl
theorem writes_u32 : Writes Writer.u32 u32Format := fun _ _ => rfl
theorem writes_f32 : Writes Writer.f32 f32Format := fun _ _ => rfl

theorem writes_str : Writes Writer.str strFormat := by
  intro w s
  have hlen : (if s.length > maxStringBytes then maxStringBytes else s.length) =
      min s.length maxStringBytes := by
    split <;> omega
  have htake : s.take (min s.length maxStringBytes) = s.take maxStringBytes := by
    rw [Nat.min_comm, ← List.take_eq_take_min]
  simp only [Writer.str, Writer.raw, hlen, htake, List.append_assoc, writes_u16 _ _]
  rfl

end F4MP.Packet
