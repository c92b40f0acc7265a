import PtpCore.Lib.Bytes

/-!
# `CSimpleBuffer` (`ptp_global/UtilPdu.cpp`)

The growable byte buffer under every PDU and both directions of every connection. A buffer is
the block `m_buffer` points to and the write offset into it; `m_alloc_size` is the length of
the block. Sizes are `uint32_t` in the source, so every sum is taken modulo `2 ^ 32`.

Memory that `realloc` hands out is not cleared. What it holds is the argument `fill` of the
operations that may allocate: position `i` of a fresh block holds `fill i`. Nothing below
constrains `fill`, so a statement about every `fill` is a statement about every heap.

What the buffer is *for* is `contents`, the bytes in front of the write offset. The second
half of the file says what each operation does to it, and later files use those lemmas
instead of the definitions.
-/

namespace PtpCore
namespace Global

open Lib

/-- The state of a `CSimpleBuffer`: the allocated block and `m_write_offset`. -/
structure CSimpleBuffer where
  mem : Bytes
  writeOffset : Nat
  deriving DecidableEq, Repr

namespace CSimpleBuffer

/-- The constructor: no block (`m_buffer` is `NULL`), offset 0. -/
def empty : CSimpleBuffer := ⟨[], 0⟩

/-- `realloc(m_buffer, n)`: the old bytes, then whatever the allocator's memory holds. -/
def realloc (fill : Nat → UInt8) (m : Bytes) (n : Nat) : Bytes :=
  (List.range n).map fun i => m.getD i (fill i)

def getAllocSize (b : CSimpleBuffer) : Nat := b.mem.length

def getWriteOffset (b : CSimpleBuffer) : Nat := b.writeOffset

def incWriteOffset (b : CSimpleBuffer) (len : Nat) : CSimpleBuffer :=
  { b with writeOffset := (b.writeOffset + len) % 2 ^ 32 }

def position (b : CSimpleBuffer) (offset : Nat) : CSimpleBuffer :=
  { b with writeOffset := offset }

def extend (fill : Nat → UInt8) (b : CSimpleBuffer) (len : Nat) : CSimpleBuffer :=
  let allocSize := (b.writeOffset + len) % 2 ^ 32
  let allocSize := (allocSize + allocSize >>> 2) % 2 ^ 32
  { b with mem := realloc fill b.mem allocSize }

/-- The first test of `Write`: grow if `len` more bytes would pass the end of the block. -/
def makeRoom (fill : Nat → UInt8) (b : CSimpleBuffer) (len : Nat) : CSimpleBuffer :=
  if (b.writeOffset + len) % 2 ^ 32 > b.mem.length then b.extend fill len else b

/-- `Write(buf, len)`; `none` is a `NULL` `buf`, which moves the offset and copies nothing. -/
def write (fill : Nat → UInt8) (b : CSimpleBuffer) (buf : Option Bytes) (len : Nat) :
    CSimpleBuffer :=
  let b := b.makeRoom fill len
  let mem := match buf with
    | some data => overwrite b.mem b.writeOffset (data.take len)
    | none => b.mem
  { mem := mem, writeOffset := (b.writeOffset + len) % 2 ^ 32 }

/-- `Read(buf, len)`: the bytes it copies out (when `buf` is not `NULL`), and the buffer. -/
def read (b : CSimpleBuffer) (len : Nat) : Bytes × CSimpleBuffer :=
  let len := if len > b.writeOffset then b.writeOffset else len
  let rest := b.writeOffset - len
  (b.mem.take len,
    { mem := overwrite b.mem 0 ((b.mem.drop len).take rest), writeOffset := rest })

/-! ## The queue the buffer stands for -/

/-- The stored bytes, oldest first. -/
def contents (b : CSimpleBuffer) : Bytes := b.mem.take b.writeOffset

/-- The offset is inside the block, and the block's size fits its `uint32_t`. -/
structure Ok (b : CSimpleBuffer) : Prop where
  offset_le : b.writeOffset ≤ b.mem.length
  size_lt : b.mem.length < 2 ^ 32

theorem ok_empty : empty.Ok := ⟨Nat.le_refl _, by simp [empty]⟩

@[simp] theorem contents_empty : empty.contents = [] := rfl

theorem length_contents {b : CSimpleBuffer} (hb : b.Ok) : b.contents.length = b.writeOffset := by
  rw [contents, List.length_take, Nat.min_eq_left hb.offset_le]

@[simp] theorem length_realloc (fill : Nat → UInt8) (m : Bytes) (n : Nat) :
    (realloc fill m n).length = n := by
  simp [realloc]

theorem getElem?_realloc (fill : Nat → UInt8) (m : Bytes) {n i : Nat} (hi : i < n) :
    (realloc fill m n)[i]? = some (m.getD i (fill i)) := by
  simp [realloc, hi]

/-- Growing keeps every old byte. -/
theorem take_realloc {fill : Nat → UInt8} {m : Bytes} {n k : Nat} (hk : k ≤ m.length)
    (hn : k ≤ n) : (realloc fill m n).take k = m.take k := by
  apply List.ext_getElem?
  intro i
  rw [List.getElem?_take, List.getElem?_take]
  by_cases hi : i < k
  · rw [if_pos hi, if_pos hi, getElem?_realloc fill m (by omega)]
    have him : i < m.length := by omega
    simp [him]
  · rw [if_neg hi, if_neg hi]

/-- `n` bytes can be asked of `Extend` without its `uint32_t` arithmetic wrapping. -/
def Fits (n : Nat) : Prop := n + n / 4 < 2 ^ 32

theorem fits_of_lt {n : Nat} (h : n < 3 * 2 ^ 30) : Fits n := by
  unfold Fits
  omega

theorem Fits.lt {n : Nat} (h : Fits n) : n < 2 ^ 32 := by
  unfold Fits at h
  omega

section Extend

variable (fill : Nat → UInt8) {b : CSimpleBuffer} {len : Nat}

/-- The allocation `Extend` asks for, when the requested size does not wrap. -/
theorem length_extend (h : Fits (b.writeOffset + len)) :
    (b.extend fill len).mem.length =
      b.writeOffset + len + (b.writeOffset + len) / 4 := by
  unfold Fits at h
  have hsize : (b.writeOffset + len) % 2 ^ 32 = b.writeOffset + len := by omega
  simp only [extend, length_realloc, Nat.shiftRight_eq_div_pow, hsize]
  omega

@[simp] theorem writeOffset_extend : (b.extend fill len).writeOffset = b.writeOffset := rfl

theorem ok_extend (h : Fits (b.writeOffset + len)) :
    (b.extend fill len).Ok := by
  refine ⟨?_, ?_⟩ <;> rw [length_extend fill h]
  · rw [writeOffset_extend]
    omega
  · exact h

theorem contents_extend (hb : b.Ok) (h : Fits (b.writeOffset + len)) :
    (b.extend fill len).contents = b.contents := by
  have hlen := length_extend fill h
  have hn := hb.offset_le
  simp only [extend, length_realloc] at hlen
  simp only [contents, extend]
  exact take_realloc hn (by omega)

end Extend

@[simp] theorem writeOffset_makeRoom (fill : Nat → UInt8) (b : CSimpleBuffer) (len : Nat) :
    (b.makeRoom fill len).writeOffset = b.writeOffset := by
  unfold makeRoom
  split <;> rfl

section Write

variable (fill : Nat → UInt8) {b : CSimpleBuffer} {len : Nat}

/-- The block `Write` copies into has room for `len` more bytes and starts with the old
    contents, whether it is the old block or a grown one. -/
theorem makeRoom_spec (hb : b.Ok) (h : Fits (b.writeOffset + len)) :
    (b.makeRoom fill len).Ok ∧ (b.makeRoom fill len).writeOffset = b.writeOffset ∧
      (b.makeRoom fill len).contents = b.contents ∧
      b.writeOffset + len ≤ (b.makeRoom fill len).mem.length := by
  have hlt := h.lt
  unfold makeRoom
  split
  · refine ⟨ok_extend fill h, rfl, contents_extend fill hb h, ?_⟩
    rw [length_extend fill h]
    omega
  · exact ⟨hb, rfl, rfl, by omega⟩

theorem write_spec (hb : b.Ok) {data : Bytes} (h : Fits (b.writeOffset + data.length)) :
    (b.write fill (some data) data.length).Ok ∧
      (b.write fill (some data) data.length).contents = b.contents ++ data := by
  obtain ⟨hok, hoff, hcon, hroom⟩ := makeRoom_spec fill hb h
  have hmod : (b.writeOffset + data.length) % 2 ^ 32 = b.writeOffset + data.length :=
    Nat.mod_eq_of_lt h.lt
  have hw : b.write fill (some data) data.length =
      ⟨overwrite (b.makeRoom fill data.length).mem b.writeOffset data,
        b.writeOffset + data.length⟩ := by
    simp only [write, hoff, List.take_length, hmod]
  have hlen := length_overwrite hroom
  rw [hw]
  refine ⟨⟨by rw [hlen]; exact hroom, by rw [hlen]; exact hok.size_lt⟩, ?_⟩
  rw [contents, take_overwrite_add (by omega), ← hcon, contents, hoff]

/-- `Write` looks at the first `len` bytes it is given only. -/
theorem write_take (b : CSimpleBuffer) {data : Bytes} (h : len ≤ data.length) :
    b.write fill (some data) len =
      b.write fill (some (data.take len)) (data.take len).length := by
  have hlen : (data.take len).length = len := by simpa using h
  simp only [write, hlen, List.take_take, Nat.min_self]

/-- A `NULL` write makes room in front of the offset and leaves what is there unspecified. -/
theorem writeNull_spec (hb : b.Ok) (h : Fits (b.writeOffset + len)) :
    (b.write fill none len).Ok ∧
      (b.write fill none len).writeOffset = b.writeOffset + len ∧
      (b.write fill none len).contents.take b.writeOffset = b.contents := by
  obtain ⟨hok, hoff, hcon, hroom⟩ := makeRoom_spec fill hb h
  have hmod : (b.writeOffset + len) % 2 ^ 32 = b.writeOffset + len := Nat.mod_eq_of_lt h.lt
  have hw : b.write fill none len =
      ⟨(b.makeRoom fill len).mem, b.writeOffset + len⟩ := by
    simp only [write, hoff, hmod]
  rw [hw]
  refine ⟨⟨hroom, hok.size_lt⟩, rfl, ?_⟩
  rw [contents, List.take_take, Nat.min_eq_left (Nat.le_add_right ..), ← hcon, contents, hoff]

end Write

/-- What was put behind the offset by someone else becomes part of the contents. -/
theorem incWriteOffset_spec {b : CSimpleBuffer} (hb : b.Ok) {data : Bytes} {len : Nat}
    (hlen : len ≤ data.length) (hroom : b.writeOffset + data.length ≤ b.mem.length) :
    (incWriteOffset { b with mem := overwrite b.mem b.writeOffset data } len).Ok ∧
      (incWriteOffset { b with mem := overwrite b.mem b.writeOffset data } len).contents =
        b.contents ++ data.take len ∧
      (incWriteOffset { b with mem := overwrite b.mem b.writeOffset data } len).mem.length =
        b.mem.length := by
  have hlt := hb.size_lt
  have hmod : (b.writeOffset + len) % 2 ^ 32 = b.writeOffset + len := Nat.mod_eq_of_lt (by omega)
  have hmem : (overwrite b.mem b.writeOffset data).length = b.mem.length := length_overwrite hroom
  have hold : (b.mem.take b.writeOffset).length = b.writeOffset := by
    rw [List.length_take, Nat.min_eq_left hb.offset_le]
  have htake : (overwrite b.mem b.writeOffset data).take (b.writeOffset + len) =
      b.mem.take b.writeOffset ++ data.take len := by
    rw [← Nat.min_eq_left (Nat.add_le_add_left hlen b.writeOffset), ← List.take_take,
      take_overwrite_add hb.offset_le, List.take_append, hold, Nat.add_sub_cancel_left,
      List.take_of_length_le (by omega)]
  have hend : b.writeOffset + len ≤ (overwrite b.mem b.writeOffset data).length := by omega
  simp only [incWriteOffset, hmod]
  exact ⟨⟨hend, by rw [hmem]; exact hlt⟩, htake, hmem⟩

section Read

variable {b : CSimpleBuffer}

/-- `Read` takes from the front, at most what is stored. -/
theorem read_spec (hb : b.Ok) (len : Nat) :
    (b.read len).1 = b.contents.take len ∧ (b.read len).2.Ok ∧
      (b.read len).2.contents = b.contents.drop len ∧
      (b.read len).2.mem.length = b.mem.length := by
  have hn := hb.offset_le
  obtain ⟨k, hk, hmin⟩ : ∃ k, (if len > b.writeOffset then b.writeOffset else len) = k ∧
      k = min len b.writeOffset := by
    refine ⟨_, rfl, ?_⟩
    split <;> omega
  have hmove : ((b.mem.drop k).take (b.writeOffset - k)).length = b.writeOffset - k := by
    rw [List.length_take, List.length_drop]
    omega
  have hlen : (overwrite b.mem 0 ((b.mem.drop k).take (b.writeOffset - k))).length =
      b.mem.length := length_overwrite (by omega)
  have hread : b.read len = (b.mem.take k,
      ⟨overwrite b.mem 0 ((b.mem.drop k).take (b.writeOffset - k)), b.writeOffset - k⟩) := by
    simp only [read, hk]
  rw [hread]
  refine ⟨?_, ⟨?_, by rw [hlen]; exact hb.size_lt⟩, ?_, hlen⟩
  · rw [contents, List.take_take, hmin]
  · rw [hlen]
    exact Nat.le_trans (Nat.sub_le ..) hn
  · have htake := take_overwrite_add (d := (b.mem.drop k).take (b.writeOffset - k))
      (Nat.zero_le b.mem.length)
    rw [hmove, Nat.zero_add, List.take_zero, List.nil_append] at htake
    rw [contents, contents, htake, List.drop_take]
    by_cases hc : len ≤ b.writeOffset
    · rw [hmin, Nat.min_eq_left hc]
    · rw [hmin, Nat.min_eq_right (by omega), Nat.sub_self, List.take_zero,
        Nat.sub_eq_zero_of_le (by omega), List.take_zero]

theorem ok_read (hb : b.Ok) (len : Nat) : (b.read len).2.Ok := (read_spec hb len).2.1

theorem contents_read (hb : b.Ok) (len : Nat) :
    (b.read len).2.contents = b.contents.drop len := (read_spec hb len).2.2.1

@[simp] theorem writeOffset_read (b : CSimpleBuffer) (len : Nat) :
    (b.read len).2.writeOffset = b.writeOffset - len := by
  simp only [read]
  split
  · omega
  · rfl

/-- Reading everything leaves the block as it was and the offset at 0. -/
theorem read_all (b : CSimpleBuffer) :
    (b.read b.writeOffset).2 = ⟨b.mem, 0⟩ := by
  simp [read, overwrite]

end Read

end CSimpleBuffer

end Global
end PtpCore
