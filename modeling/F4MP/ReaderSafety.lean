import F4MP.Packet

/-!
The reader at the level of its pointer: memory from `_data` on, of which only the
first `_size` bytes are the buffer, `size_t` arithmetic that wraps, and a record of
the offsets copied from.  Whatever is read in whatever order, the reader stays in
its buffer, and it does what the reader over a list of bytes does.
-/

namespace F4MP.ReaderSafety

open F4MP.Types
open F4MP.Library.LittleEndian
open F4MP.Packet

/-- `touched` is no field of the source: the offsets from `_data` read so far. -/
structure MemoryReader where
  memory : Nat → UInt8
  size : UInt64
  pos : UInt64 := 0
  ok : Bool := true
  touched : List Nat := []

namespace MemoryReader

/-- `_size - _pos` on `std::size_t`, which wraps when `_pos` is the larger. -/
def remaining (r : MemoryReader) : UInt64 := r.size - r.pos

/-- `n` bytes from `_data + _pos` on, and the position after them. -/
def copy (r : MemoryReader) (n : UInt64) : Bytes × MemoryReader :=
  let offsets := (List.range n.toNat).map (r.pos.toNat + ·)
  (offsets.map r.memory, { r with pos := r.pos + n, touched := r.touched ++ offsets })

def raw (r : MemoryReader) (n : UInt64) : Bytes × MemoryReader :=
  if !r.ok || n > r.remaining then
    (List.replicate n.toNat 0, { r with ok := false })
  else
    r.copy n

def u8 (r : MemoryReader) : UInt8 × MemoryReader :=
  let (bytes, r) := r.raw 1
  (UInt8.ofNat (leValue bytes), r)

def u16 (r : MemoryReader) : UInt16 × MemoryReader :=
  let (bytes, r) := r.raw 2
  (UInt16.ofNat (leValue bytes), r)

def u32 (r : MemoryReader) : UInt32 × MemoryReader :=
  let (bytes, r) := r.raw 4
  (UInt32.ofNat (leValue bytes), r)

def i32 (r : MemoryReader) : Int32 × MemoryReader :=
  let (bytes, r) := r.raw 4
  ((UInt32.ofNat (leValue bytes)).toInt32, r)

def f32 (r : MemoryReader) : F32 × MemoryReader :=
  let (bytes, r) := r.raw 4
  (⟨UInt32.ofNat (leValue bytes)⟩, r)

def bool (r : MemoryReader) : Bool × MemoryReader :=
  let (v, r) := r.u8
  (v != 0, r)

def str (r : MemoryReader) : Bytes × MemoryReader :=
  let (len, r) := r.u16
  if !r.ok || len.toNat > maxStringBytes || len.toUInt64 > r.remaining then
    ([], { r with ok := false })
  else
    r.copy len.toUInt64

end MemoryReader

/-- The reads a decoder can make. -/
inductive Field
  | u8 | u16 | u32 | i32 | f32 | bool | str
  deriving DecidableEq

namespace Field

def Value : Field → Type
  | u8 => UInt8
  | u16 => UInt16
  | u32 => UInt32
  | i32 => Int32
  | f32 => F32
  | bool => Bool
  | str => Bytes

/-- Zero, `false` or the empty string. -/
def zero : (field : Field) → field.Value
  | u8 => (0 : UInt8)
  | u16 => (0 : UInt16)
  | u32 => (0 : UInt32)
  | i32 => (0 : Int32)
  | f32 => F32.mk 0
  | bool => false
  | str => ([] : Bytes)

/-- How many bytes the encoding of a value takes. -/
def width : (field : Field) → field.Value → Nat
  | u8, _ => 1
  | u16, _ => 2
  | u32, _ => 4
  | i32, _ => 4
  | f32, _ => 4
  | bool, _ => 1
  | str, s => 2 + List.length (α := UInt8) s

end Field

def read : (field : Field) → MemoryReader → field.Value × MemoryReader
  | .u8, r => r.u8
  | .u16, r => r.u16
  | .u32, r => r.u32
  | .i32, r => r.i32
  | .f32, r => r.f32
  | .bool, r => r.bool
  | .str, r => r.str

/-- The reader after a script of reads. -/
def readAll (script : List Field) (r : MemoryReader) : MemoryReader :=
  script.foldl (fun r field => (read field r).2) r

namespace MemoryReader

/-- The reader is in its buffer, and so is all it has touched. -/
structure Within (r : MemoryReader) : Prop where
  pos_le : r.pos.toNat ≤ r.size.toNat
  touched_lt : ∀ offset ∈ r.touched, offset < r.size.toNat

theorem Within.toNat_remaining {r : MemoryReader} (hwithin : r.Within) :
    r.remaining.toNat = r.size.toNat - r.pos.toNat :=
  UInt64.toNat_sub_of_le _ _ (UInt64.le_iff_toNat_le.mpr hwithin.pos_le)

theorem Within.toNat_pos_add {r : MemoryReader} (hwithin : r.Within) {n : UInt64}
    (hfits : n ≤ r.remaining) : (r.pos + n).toNat = r.pos.toNat + n.toNat := by
  have hle := UInt64.le_iff_toNat_le.mp hfits
  have hsize := r.size.toNat_lt
  have hpos := hwithin.pos_le
  rw [hwithin.toNat_remaining] at hle
  rw [UInt64.toNat_add, Nat.mod_eq_of_lt (by omega)]

end MemoryReader

open MemoryReader

/-- What a read leaves behind, for values with this zero and these widths. -/
structure Stepped {α : Type} (zero : α) (width : α → Nat) (r : MemoryReader)
    (out : α × MemoryReader) : Prop where
  within : out.2.Within
  size_eq : out.2.size = r.size
  memory_eq : out.2.memory = r.memory
  advances : out.2.ok = true → out.2.pos.toNat = r.pos.toNat + width out.1
  fails : out.2.ok = false → out.1 = zero
  idle : r.ok = false → out.2 = r

theorem failed_eq {r : MemoryReader} (hok : r.ok = false) : { r with ok := false } = r := by
  cases r
  cases hok
  rfl

theorem within_copy {r : MemoryReader} (hwithin : r.Within) {n : UInt64}
    (hfits : n ≤ r.remaining) : (r.copy n).2.Within where
  pos_le := by
    have hle := UInt64.le_iff_toNat_le.mp hfits
    have hpos := hwithin.pos_le
    rw [hwithin.toNat_remaining] at hle
    change (r.pos + n).toNat ≤ r.size.toNat
    rw [hwithin.toNat_pos_add hfits]
    omega
  touched_lt := by
    intro offset hoffset
    have hle := UInt64.le_iff_toNat_le.mp hfits
    rw [hwithin.toNat_remaining] at hle
    rcases List.mem_append.mp hoffset with hbefore | hnow
    · exact hwithin.touched_lt offset hbefore
    · obtain ⟨i, hi, rfl⟩ := List.mem_map.mp hnow
      have hi := List.mem_range.mp hi
      change r.pos.toNat + i < r.size.toNat
      omega

theorem stepped_raw {r : MemoryReader} (hwithin : r.Within) (n : UInt64) :
    Stepped (List.replicate n.toNat 0) (fun _ => n.toNat) r (r.raw n) := by
  unfold MemoryReader.raw
  split
  next =>
    exact {
      within := ⟨hwithin.pos_le, hwithin.touched_lt⟩
      size_eq := rfl
      memory_eq := rfl
      advances := by rintro ⟨⟩
      fails := fun _ => rfl
      idle := failed_eq }
  next hcopied =>
    simp only [Bool.or_eq_true, Bool.not_eq_true', decide_eq_true_eq, not_or,
      Bool.not_eq_false, UInt64.not_lt] at hcopied
    obtain ⟨hok, hfits⟩ := hcopied
    exact {
      within := within_copy hwithin hfits
      size_eq := rfl
      memory_eq := rfl
      advances := fun _ => hwithin.toNat_pos_add hfits
      fails := fun hfailed => absurd (hok.symm.trans hfailed) (by decide)
      idle := fun hfailed => absurd (hok.symm.trans hfailed) (by decide) }

theorem stepped_word {α : Type} {r : MemoryReader} (hwithin : r.Within) (n : UInt64)
    (g : Bytes → α) : Stepped (g (List.replicate n.toNat 0)) (fun _ => n.toNat) r
      (g (r.raw n).1, (r.raw n).2) :=
  have hraw := stepped_raw hwithin n
  { hraw with fails := fun hfailed => congrArg g (hraw.fails hfailed) }

theorem stepped_str {r : MemoryReader} (hwithin : r.Within) :
    Stepped Field.str.zero Field.str.width r r.str := by
  have hlen : Stepped (0 : UInt16) (fun _ => 2) r r.u16 :=
    stepped_word hwithin 2 (fun bytes => UInt16.ofNat (leValue bytes))
  unfold MemoryReader.str
  generalize r.u16 = out at hlen
  obtain ⟨len, after⟩ := out
  dsimp only
  split
  next =>
    exact {
      within := ⟨hlen.within.pos_le, hlen.within.touched_lt⟩
      size_eq := hlen.size_eq
      memory_eq := hlen.memory_eq
      advances := by rintro ⟨⟩
      fails := fun _ => rfl
      idle := fun hfailed => by
        have hafter : after = r := hlen.idle hfailed
        rw [hafter, failed_eq hfailed] }
  next hcopied =>
    simp only [Bool.or_eq_true, Bool.not_eq_true', decide_eq_true_eq, not_or,
      Bool.not_eq_false, UInt64.not_lt] at hcopied
    obtain ⟨⟨hok, -⟩, hfits⟩ := hcopied
    exact {
      within := within_copy hlen.within hfits
      size_eq := hlen.size_eq
      memory_eq := hlen.memory_eq
      advances := fun _ => by
        have hpos := hlen.advances hok
        have hend := hlen.within.toNat_pos_add hfits
        change (after.pos + len.toUInt64).toNat = r.pos.toNat + (2 + (after.copy _).1.length)
        rw [hend, hpos]
        simp [MemoryReader.copy, Nat.add_assoc]
      fails := fun hfailed => absurd (hok.symm.trans hfailed) (by decide)
      idle := fun hfailed => by
        have hafter : after = r := hlen.idle hfailed
        rw [hafter] at hok
        exact absurd (hok.symm.trans hfailed) (by decide) }

theorem stepped_read {r : MemoryReader} (hwithin : r.Within) (field : Field) :
    Stepped field.zero field.width r (read field r) := by
  cases field with
  | u8 => exact stepped_word hwithin 1 (fun bytes => UInt8.ofNat (leValue bytes))
  | u16 => exact stepped_word hwithin 2 (fun bytes => UInt16.ofNat (leValue bytes))
  | u32 => exact stepped_word hwithin 4 (fun bytes => UInt32.ofNat (leValue bytes))
  | i32 => exact stepped_word hwithin 4 (fun bytes => (UInt32.ofNat (leValue bytes)).toInt32)
  | f32 => exact stepped_word hwithin 4 (fun bytes => F32.mk (UInt32.ofNat (leValue bytes)))
  | bool => exact stepped_word hwithin 1 (fun bytes => UInt8.ofNat (leValue bytes) != 0)
  | str => exact stepped_str hwithin

theorem within_readAll {r : MemoryReader} (hwithin : r.Within) (script : List Field) :
    (readAll script r).Within ∧ (readAll script r).size = r.size := by
  induction script generalizing r with
  | nil => exact ⟨hwithin, rfl⟩
  | cons field script ih =>
      have hstep := stepped_read hwithin field
      obtain ⟨hafter, hsize⟩ := ih hstep.within
      exact ⟨hafter, hsize.trans hstep.size_eq⟩

theorem readAll_failed {r : MemoryReader} (hwithin : r.Within) (hfailed : r.ok = false)
    (script : List Field) : readAll script r = r := by
  induction script with
  | nil => rfl
  | cons field script ih =>
      have hidle := (stepped_read hwithin field).idle hfailed
      change readAll script (read field r).2 = r
      rw [hidle, ih]

theorem read_failed {r : MemoryReader} (hwithin : r.Within) (hfailed : r.ok = false)
    (field : Field) : (read field r).1 = field.zero := by
  have hstep := stepped_read hwithin field
  apply hstep.fails
  rw [hstep.idle hfailed]
  exact hfailed

/-- Every script on every buffer: the position and every byte touched are inside, and
`Remaining` is a true difference; a read that succeeds advances by the width of what
it returns, and after one that fails nothing moves and everything read is zero. -/
theorem reader_script_safe (memory : Nat → UInt8) (size : UInt64) (script : List Field) :
    let r := readAll script { memory := memory, size := size }
    r.pos.toNat ≤ size.toNat ∧ (∀ offset ∈ r.touched, offset < size.toNat) ∧
      r.remaining.toNat = size.toNat - r.pos.toNat ∧
      ∀ field : Field,
        let after := (read field r).2
        (after.ok = true → after.pos.toNat = r.pos.toNat + field.width (read field r).1) ∧
          (after.ok = false → (read field r).1 = field.zero ∧
            ∀ (later : List Field) (next : Field),
              (readAll later after).ok = false ∧ (readAll later after).pos = after.pos ∧
                (read next (readAll later after)).1 = next.zero) := by
  have hstart : MemoryReader.Within { memory := memory, size := size } :=
    ⟨Nat.zero_le _, by simp⟩
  obtain ⟨hwithin, hsize⟩ := within_readAll hstart script
  dsimp only at hsize ⊢
  generalize readAll script _ = r at hwithin hsize
  subst hsize
  refine ⟨hwithin.pos_le, hwithin.touched_lt, hwithin.toNat_remaining, fun field => ?_⟩
  have hstep := stepped_read hwithin field
  refine ⟨hstep.advances, fun hfailed => ⟨hstep.fails hfailed, fun later next => ?_⟩⟩
  rw [readAll_failed hstep.within hfailed later]
  exact ⟨hfailed, rfl, read_failed hstep.within hfailed next⟩

/-- The same read of the reader every decoder of this development uses. -/
def readList : (field : Field) → Reader → field.Value × Reader
  | .u8, r => r.u8
  | .u16, r => r.u16
  | .u32, r => r.u32
  | .i32, r => r.i32
  | .f32, r => r.f32
  | .bool, r => r.bool
  | .str, r => r.str

def contents (r : MemoryReader) : Bytes := (List.range r.size.toNat).map r.memory

/-- The list reader at the same place of the same buffer. -/
def listReader (r : MemoryReader) : Reader :=
  { data := contents r, pos := r.pos.toNat, ok := r.ok }

theorem remaining_listReader {r : MemoryReader} (hwithin : r.Within) :
    (listReader r).remaining = r.remaining.toNat := by
  rw [hwithin.toNat_remaining]
  simp [Reader.remaining, listReader, contents]

theorem copy_eq_take {r : MemoryReader} (hwithin : r.Within) {n : UInt64}
    (hfits : n ≤ r.remaining) :
    (r.copy n).1 = ((contents r).drop r.pos.toNat).take n.toNat := by
  have hle := UInt64.le_iff_toNat_le.mp hfits
  rw [hwithin.toNat_remaining] at hle
  apply List.ext_getElem
  · simp [MemoryReader.copy, contents, hle]
  · intro i hi hi'
    simp [MemoryReader.copy, contents]

theorem listReader_copy {r : MemoryReader} (hwithin : r.Within) {n : UInt64}
    (hfits : n ≤ r.remaining) :
    listReader (r.copy n).2 = { listReader r with pos := r.pos.toNat + n.toNat } := by
  rw [← hwithin.toNat_pos_add hfits]
  rfl

theorem raw_listReader {r : MemoryReader} (hwithin : r.Within) (n : UInt64) :
    (listReader r).raw n.toNat = ((r.raw n).1, listReader (r.raw n).2) := by
  have hgreater : decide (n.toNat > (listReader r).remaining) = decide (n > r.remaining) := by
    rw [remaining_listReader hwithin]
    exact decide_eq_decide.mpr UInt64.lt_iff_toNat_lt.symm
  unfold MemoryReader.raw Reader.raw
  rw [hgreater]
  change (if (!r.ok || _) = true then _ else _) = _
  split
  next => rfl
  next hcopied =>
    simp only [Bool.or_eq_true, Bool.not_eq_true', decide_eq_true_eq, not_or,
      UInt64.not_lt] at hcopied
    rw [listReader_copy hwithin hcopied.2, copy_eq_take hwithin hcopied.2]
    rfl

theorem u16_listReader {r : MemoryReader} (hwithin : r.Within) :
    (listReader r).u16 = (r.u16.1, listReader r.u16.2) := by
  have hraw := raw_listReader hwithin 2
  simp only [Reader.u16, MemoryReader.u16]
  rw [show (2 : Nat) = (2 : UInt64).toNat from rfl, hraw]

theorem u32_listReader {r : MemoryReader} (hwithin : r.Within) :
    (listReader r).u32 = (r.u32.1, listReader r.u32.2) := by
  have hraw := raw_listReader hwithin 4
  simp only [Reader.u32, MemoryReader.u32]
  rw [show (4 : Nat) = (4 : UInt64).toNat from rfl, hraw]

theorem u8_listReader {r : MemoryReader} (hwithin : r.Within) :
    (listReader r).u8 = (r.u8.1, listReader r.u8.2) := by
  have hraw := raw_listReader hwithin 1
  simp only [Reader.u8, MemoryReader.u8]
  rw [show (1 : Nat) = (1 : UInt64).toNat from rfl, hraw]

theorem str_listReader {r : MemoryReader} (hwithin : r.Within) :
    (listReader r).str = (r.str.1, listReader r.str.2) := by
  have hlen := u16_listReader hwithin
  have hafter : r.u16.2.Within := (stepped_read hwithin .u16).within
  unfold MemoryReader.str Reader.str
  rw [hlen]
  generalize r.u16 = out at hafter
  obtain ⟨len, after⟩ := out
  have hgreater : decide (len.toNat > (listReader after).remaining) =
      decide (len.toUInt64 > after.remaining) := by
    rw [remaining_listReader hafter, ← UInt16.toNat_toUInt64]
    exact decide_eq_decide.mpr UInt64.lt_iff_toNat_lt.symm
  dsimp only
  rw [hgreater]
  change (if (!after.ok || _ || _) = true then _ else _) = _
  split
  next => rfl
  next hcopied =>
    simp only [Bool.or_eq_true, Bool.not_eq_true', decide_eq_true_eq, not_or,
      UInt64.not_lt] at hcopied
    rw [listReader_copy hafter hcopied.2, copy_eq_take hafter hcopied.2]
    rfl

theorem readList_listReader {r : MemoryReader} (hwithin : r.Within) (field : Field) :
    readList field (listReader r) = ((read field r).1, listReader (read field r).2) := by
  cases field with
  | u8 => exact u8_listReader hwithin
  | u16 => exact u16_listReader hwithin
  | u32 => exact u32_listReader hwithin
  | i32 =>
      simp only [readList, Reader.i32]
      rw [u32_listReader hwithin]
      rfl
  | f32 =>
      simp only [readList, Reader.f32]
      rw [u32_listReader hwithin]
      rfl
  | bool =>
      simp only [readList, Reader.bool]
      rw [u8_listReader hwithin]
      rfl
  | str => exact str_listReader hwithin

theorem readAll_listReader {r : MemoryReader} (hwithin : r.Within) (script : List Field) :
    script.foldl (fun r field => (readList field r).2) (listReader r) =
      listReader (readAll script r) := by
  induction script generalizing r with
  | nil => rfl
  | cons field script ih =>
      have hstep := stepped_read hwithin field
      rw [List.foldl_cons, readList_listReader hwithin field, ih hstep.within]
      rfl

end F4MP.ReaderSafety
