import PtpCore.Global.SimpleBuffer
import PtpCore.Lib.Run

/-!
# `CSimpleBuffer` is a queue

Whatever the operations of a run were, what came in is what went out followed by what is stored
(`Fifo`). The receive loops write to the free part of the block themselves and then move the offset,
which is one operation here.

The one thing that has to be asked for is that the sizes `Extend` adds up fit into 32 bits. If they
do not, the block gets smaller, and bytes are lost.
-/

namespace PtpCore
namespace Proof
namespace Global

open Lib PtpCore.Global PtpCore.Global.CSimpleBuffer

/-- The operations. `fill` is what an allocation finds in memory. -/
inductive BufferOp
  /-- `Write(buf, len)`, with what `buf` points to. -/
  | write (fill : Nat → UInt8) (data : Bytes)
  /-- `Write(NULL, len)`. -/
  | writeNull (fill : Nat → UInt8) (len : Nat)
  | read (len : Nat)
  | extend (fill : Nat → UInt8) (len : Nat)
  /-- What a socket puts behind the offset, and `IncWriteOffset(len)`. -/
  | receive (data : Bytes) (len : Nat)

def applyOp (b : CSimpleBuffer) : BufferOp → CSimpleBuffer
  | .write fill data => b.write fill (some data) data.length
  | .writeNull fill len => b.write fill none len
  | .read len => (b.read len).2
  | .extend fill len => b.extend fill len
  | .receive data len => { b with mem := overwrite b.mem b.writeOffset data }.incWriteOffset len

/-- The bytes that come in. Those of a `NULL` write are whatever the block holds. -/
def bytesIn (b : CSimpleBuffer) : BufferOp → Bytes
  | .write _ data => data
  | .writeNull fill len => (b.write fill none len).contents.drop b.writeOffset
  | .receive data len => data.take len
  | .read _ => []
  | .extend _ _ => []

/-- The bytes that go out. -/
def bytesOut (b : CSimpleBuffer) : BufferOp → Bytes
  | .read len => (b.read len).1
  | _ => []

/-- A buffer with all that has come in and gone out. -/
structure Traced where
  buf : CSimpleBuffer
  ins : Bytes
  outs : Bytes

def Traced.start : Traced := ⟨.empty, [], []⟩

def Traced.step (t : Traced) (op : BufferOp) : Traced :=
  ⟨applyOp t.buf op, t.ins ++ bytesIn t.buf op, t.outs ++ bytesOut t.buf op⟩

/-- How the operations are called: less than `2 ^ 31` bytes are stored, `Extend` is called when
    there is not enough room, and the offset is moved over free space only. -/
def Allowed (t : Traced) : BufferOp → Prop
  | .write _ data => t.buf.contents.length + data.length < 2 ^ 31
  | .writeNull _ len => t.buf.contents.length + len < 2 ^ 31
  | .read _ => True
  | .extend _ len => t.buf.mem.length - t.buf.writeOffset < len ∧ len < 2 ^ 32
  | .receive data len => len ≤ data.length ∧
      t.buf.writeOffset + data.length ≤ t.buf.mem.length ∧ t.buf.contents.length + len < 2 ^ 31

/-- The sums of `Extend` fit. -/
def ExtendFits (t : Traced) : BufferOp → Prop
  | .extend _ len => Fits (t.buf.writeOffset + len)
  | _ => True

/-- First in, first out, and the offset is inside the block. -/
structure Fifo (t : Traced) : Prop where
  contents : t.ins = t.outs ++ t.buf.contents
  offset_le : t.buf.writeOffset ≤ t.buf.mem.length

/-- A read returns as much as it can of what is stored, and no step makes the block smaller. -/
structure KeepsBlock (t : Traced) (op : BufferOp) : Prop where
  read : ∀ len, op = .read len → bytesOut t.buf op = t.buf.contents.take len ∧
    (bytesOut t.buf op).length = min len t.buf.contents.length
  grows : t.buf.mem.length ≤ (t.step op).buf.mem.length

section

variable (fill : Nat → UInt8) {b : CSimpleBuffer} {len : Nat}

theorem length_makeRoom_ge (h : Fits (b.writeOffset + len)) :
    b.mem.length ≤ (b.makeRoom fill len).mem.length := by
  have hlt := h.lt
  unfold makeRoom
  split
  · rw [length_extend fill h]
    omega
  · exact Nat.le_refl _

theorem length_write_ge (hb : b.Ok) {data : Bytes} (h : Fits (b.writeOffset + data.length)) :
    b.mem.length ≤ (b.write fill (some data) data.length).mem.length := by
  obtain ⟨-, hoff, -, hroom⟩ := makeRoom_spec fill hb h
  change b.mem.length ≤ (overwrite (b.makeRoom fill data.length).mem
    (b.makeRoom fill data.length).writeOffset (data.take data.length)).length
  rw [List.take_length, hoff, length_overwrite hroom]
  exact length_makeRoom_ge fill h

end

/-! ## One operation -/

section

variable {t : Traced} {op : BufferOp}

/-- The invariant of a run. -/
structure Queued (t : Traced) : Prop where
  ok : t.buf.Ok
  fifo : Fifo t

theorem queued_start : Queued .start := ⟨ok_empty, rfl, Nat.le_refl _⟩

/-- What one operation does to a buffer. -/
structure OpSpec (b : CSimpleBuffer) (op : BufferOp) : Prop where
  ok : (applyOp b op).Ok
  contents : b.contents ++ bytesIn b op = bytesOut b op ++ (applyOp b op).contents
  grows : b.mem.length ≤ (applyOp b op).mem.length

theorem opSpec (hb : t.buf.Ok) (h : Allowed t op) (hfits : ExtendFits t op) :
    OpSpec t.buf op := by
  have hlen := length_contents hb
  cases op with
  | write fill data =>
    have hsize : Fits (t.buf.writeOffset + data.length) := by
      rw [← hlen]
      exact fits_of_lt (Nat.lt_trans h (by decide))
    obtain ⟨hok, hcontents⟩ := write_spec fill hb hsize
    exact ⟨hok, hcontents.symm, length_write_ge fill hb hsize⟩
  | writeNull fill len =>
    have hsize : Fits (t.buf.writeOffset + len) := by
      rw [← hlen]
      exact fits_of_lt (Nat.lt_trans h (by decide))
    obtain ⟨hok, hoff, hcontents⟩ := writeNull_spec fill hb hsize
    refine ⟨hok, ?_, length_makeRoom_ge fill hsize⟩
    -- the old contents are in front, and the rest is called what came in
    conv_lhs => rw [← hcontents]
    exact List.take_append_drop _ _
  | read len =>
    obtain ⟨hout, hok, hcontents, hmem⟩ := read_spec hb len
    refine ⟨hok, ?_, Nat.le_of_eq hmem.symm⟩
    change t.buf.contents ++ [] = (t.buf.read len).1 ++ (t.buf.read len).2.contents
    rw [hout, hcontents, List.append_nil, List.take_append_drop]
  | extend fill len =>
    have hfree : t.buf.mem.length - t.buf.writeOffset < len := h.1
    refine ⟨ok_extend fill hfits, ?_, ?_⟩
    · change t.buf.contents ++ [] = [] ++ (t.buf.extend fill len).contents
      rw [contents_extend fill hb hfits, List.append_nil, List.nil_append]
    · change t.buf.mem.length ≤ (t.buf.extend fill len).mem.length
      rw [length_extend fill hfits]
      omega
  | receive data len =>
    obtain ⟨hle, hroom, -⟩ := h
    obtain ⟨hok, hcontents, hmem⟩ := incWriteOffset_spec hb hle hroom
    exact ⟨hok, hcontents.symm, Nat.le_of_eq hmem.symm⟩

theorem Queued.step (hq : Queued t) (h : Allowed t op) (hfits : ExtendFits t op) :
    Queued (t.step op) := by
  obtain ⟨hok, hcontents, -⟩ := opSpec hq.ok h hfits
  refine ⟨hok, ?_, hok.offset_le⟩
  change t.ins ++ bytesIn t.buf op = t.outs ++ bytesOut t.buf op ++ (applyOp t.buf op).contents
  rw [hq.fifo.contents, List.append_assoc, List.append_assoc, hcontents]

theorem Queued.keepsBlock (hq : Queued t) (h : Allowed t op) (hfits : ExtendFits t op) :
    KeepsBlock t op := by
  refine ⟨?_, (opSpec hq.ok h hfits).grows⟩
  rintro len rfl
  obtain ⟨hout, -⟩ := read_spec hq.ok len
  have hread : bytesOut t.buf (.read len) = t.buf.contents.take len := hout
  exact ⟨hread, by rw [hread, List.length_take]⟩

end

/-- **A queue, at every point of a run** in which the sums of `Extend` fit. -/
theorem fifo_run {ops : List BufferOp} (hallowed : EachStep Traced.step Allowed .start ops)
    (hfits : EachStep Traced.step ExtendFits .start ops) :
    (∀ pre, pre <+: ops → Fifo (pre.foldl Traced.step .start)) ∧
      EachStep Traced.step KeepsBlock .start ops := by
  have hboth := hallowed.and hfits
  constructor
  · rintro pre ⟨post, rfl⟩
    have hpre := (eachStep_append.mp hboth).1
    exact (hpre.invariant Queued (fun t op hq h => hq.step h.1 h.2) queued_start).fifo
  · exact hboth.of_invariant Queued (fun t op hq h => hq.step h.1 h.2)
      (fun t op hq h => hq.keepsBlock h.1 h.2) queued_start

/-- Two letters in, one out, room for more, and a third. -/
def sampleOps : List BufferOp :=
  [.write (fun _ => 0) [104, 105], .read 1, .extend (fun _ => 0) 8, .receive [33, 0] 1]

theorem fifo_run_sample :
    (∀ pre, pre <+: sampleOps → Fifo (pre.foldl Traced.step .start)) ∧
      EachStep Traced.step KeepsBlock .start sampleOps := by
  apply fifo_run
  · refine ⟨?_, trivial, ?_, ?_, trivial⟩
    · unfold Allowed
      decide
    · unfold Allowed
      decide
    · unfold Allowed
      decide
  · refine ⟨trivial, trivial, ?_, trivial, trivial⟩
    unfold ExtendFits Fits
    decide

/-- A letter, and an `Extend` whose size comes out as `2 ^ 32`. -/
def lostOps : List BufferOp := [.write (fun _ => 0) [104], .extend (fun _ => 0) 3435973836]

theorem not_fifo_lost :
    EachStep Traced.step Allowed .start lostOps ∧ ¬ Fifo (lostOps.foldl Traced.step .start) := by
  refine ⟨⟨?_, ?_, trivial⟩, ?_⟩
  · unfold Allowed
    decide
  · unfold Allowed
    decide +kernel
  · intro h
    exact absurd h.offset_le (by decide +kernel)

end Global
end Proof
end PtpCore
