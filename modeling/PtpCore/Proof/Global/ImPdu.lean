import PtpCore.Lib.Run
import PtpCore.Global.ImPdu

/-!
# The two copies of a PDU header

`CImPdu` keeps the header as a struct and as bytes. This file says what each writer of the
bytes does to the header they spell (`headerOf_setVersion` and its siblings, `writeHeader_spec`),
and from that what a reader of the wire gets to see.

Two defects decide everything. `WriteHeader` writes `reversed` with `WriteUint16`, so the wire
carries its low half in the high position and two bytes of uninitialised memory below it; and
the setters do not touch the struct the getters answer from.
-/

namespace PtpCore
namespace Proof
namespace Global

open Lib
open PtpCore.Global
open PtpCore.Global.CByteStream

namespace CImPdu

open PtpCore.Global.CImPdu

/-! ## Stores into the header bytes -/

section HeaderOf

variable {b : Bytes}

theorem headerOf_setLength (hb : 16 ≤ b.length) (n : UInt32) :
    headerOf (overwrite b 0 (writeInt32 n)) = { headerOf b with length := n } := by
  have hl : 0 + (writeInt32 n).length ≤ b.length := by simp only [length_writeInt32]; omega
  have hself := slice_overwrite_self (n := 4) rfl hl
  simp (disch := first | exact hl | simp) only [headerOf, hself, slice_overwrite_disjoint,
    readUint32_writeInt32]

theorem headerOf_setVersion (hb : 16 ≤ b.length) (v : UInt16) :
    headerOf (overwrite b 4 (writeUint16 v)) = { headerOf b with version := v } := by
  have hl : 4 + (writeUint16 v).length ≤ b.length := by simp only [length_writeUint16]; omega
  have hself := slice_overwrite_self (n := 2) rfl hl
  simp (disch := first | exact hl | simp) only [headerOf, hself, slice_overwrite_disjoint,
    readUint16_writeUint16]

theorem headerOf_setFlag (hb : 16 ≤ b.length) (v : UInt16) :
    headerOf (overwrite b 6 (writeUint16 v)) = { headerOf b with flag := v } := by
  have hl : 6 + (writeUint16 v).length ≤ b.length := by simp only [length_writeUint16]; omega
  have hself := slice_overwrite_self (n := 2) rfl hl
  simp (disch := first | exact hl | simp) only [headerOf, hself, slice_overwrite_disjoint,
    readUint16_writeUint16]

/-- The store at offset 8, which `SetCommandId` and `SetError` share. -/
theorem headerOf_setCommandId (hb : 16 ≤ b.length) (v : UInt16) :
    headerOf (overwrite b 8 (writeUint16 v)) = { headerOf b with commandId := v } := by
  have hl : 8 + (writeUint16 v).length ≤ b.length := by simp only [length_writeUint16]; omega
  have hself := slice_overwrite_self (n := 2) rfl hl
  simp (disch := first | exact hl | simp) only [headerOf, hself, slice_overwrite_disjoint,
    readUint16_writeUint16]

theorem headerOf_setSeqNum (hb : 16 ≤ b.length) (v : UInt16) :
    headerOf (overwrite b 10 (writeUint16 v)) = { headerOf b with seqNum := v } := by
  have hl : 10 + (writeUint16 v).length ≤ b.length := by simp only [length_writeUint16]; omega
  have hself := slice_overwrite_self (n := 2) rfl hl
  simp (disch := first | exact hl | simp) only [headerOf, hself, slice_overwrite_disjoint,
    readUint16_writeUint16]

theorem headerOf_setReversed (hb : 16 ≤ b.length) (v : UInt32) :
    headerOf (overwrite b 12 (writeUint32 v)) = { headerOf b with reversed := v } := by
  have hl : 12 + (writeUint32 v).length ≤ b.length := by simp only [length_writeUint32]; omega
  have hself := slice_overwrite_self (n := 4) rfl hl
  simp (disch := first | exact hl | simp) only [headerOf, hself, slice_overwrite_disjoint,
    readUint32_writeUint32]

/-- The store `WriteHeader` makes for `reversed`: two bytes of four. -/
theorem headerOf_setReversed16 (hb : 16 ≤ b.length) (v : UInt16) :
    headerOf (overwrite b 12 (writeUint16 v)) =
      { headerOf b with reversed := readUint32 (writeUint16 v ++ slice b 14 2) } := by
  have hl : 12 + (writeUint16 v).length ≤ b.length := by simp only [length_writeUint16]; omega
  have hsplit : slice (overwrite b 12 (writeUint16 v)) 12 4 = writeUint16 v ++ slice b 14 2 := by
    rw [← slice_append_slice _ 12 2 2, slice_overwrite_self (n := 2) rfl hl,
      slice_overwrite_disjoint hl (by simp)]
  simp (disch := first | exact hl | simp) only [headerOf, hsplit, slice_overwrite_disjoint]

end HeaderOf

/-! ## Stores, on the whole object -/

section Poke

variable {p : PtpCore.Global.CImPdu} {i : Nat} {d : Bytes}

@[simp] theorem header_poke : (p.poke i d).header = p.header := rfl

@[simp] theorem writeOffset_poke : (p.poke i d).buf.writeOffset = p.buf.writeOffset := rfl

@[simp] theorem getLength_poke : (p.poke i d).getLength = p.getLength := rfl

theorem ok_poke (hp : p.buf.Ok) (h : i + d.length ≤ p.buf.writeOffset) : (p.poke i d).buf.Ok := by
  have hlen : (overwrite p.buf.mem i d).length = p.buf.mem.length :=
    length_overwrite (Nat.le_trans h hp.offset_le)
  exact ⟨by simp only [poke, hlen]; exact hp.offset_le, by simp only [poke, hlen]; exact hp.size_lt⟩

theorem contents_poke (hp : p.buf.Ok) (h : i + d.length ≤ p.buf.writeOffset) :
    (p.poke i d).buf.contents = overwrite p.buf.contents i d := by
  simp only [CSimpleBuffer.contents, poke]
  exact take_overwrite_comm h hp.offset_le

end Poke

/-- The block in front of the offset holds at least a header. -/
structure HasHeader (p : PtpCore.Global.CImPdu) : Prop where
  ok : p.buf.Ok
  le : 16 ≤ p.buf.writeOffset

theorem HasHeader.length_contents {p : PtpCore.Global.CImPdu} (hp : HasHeader p) :
    16 ≤ p.buf.contents.length := by
  rw [CSimpleBuffer.length_contents hp.ok]
  exact hp.le

theorem HasHeader.poke {p : PtpCore.Global.CImPdu} (hp : HasHeader p) {i : Nat} {d : Bytes}
    (h : i + d.length ≤ 16) : HasHeader (p.poke i d) :=
  ⟨ok_poke hp.ok (Nat.le_trans h hp.le), hp.le⟩

theorem HasHeader.contents_poke {p : PtpCore.Global.CImPdu} (hp : HasHeader p) {i : Nat}
    {d : Bytes} (h : i + d.length ≤ 16) :
    (p.poke i d).buf.contents = overwrite p.buf.contents i d :=
  CImPdu.contents_poke hp.ok (Nat.le_trans h hp.le)

/-- A store into the header leaves the body alone. -/
theorem HasHeader.drop_poke {p : PtpCore.Global.CImPdu} (hp : HasHeader p) {i : Nat} {d : Bytes}
    (h : i + d.length ≤ 16) :
    (p.poke i d).buf.contents.drop 16 = p.buf.contents.drop 16 := by
  rw [hp.contents_poke h, drop_overwrite h hp.length_contents]

/-- The struct as `WriteHeader` puts it on the wire: `low` is what bytes 14 and 15 held. -/
def written (h : PduHeader) (len : Nat) (low : Bytes) : PduHeader :=
  { h with
    length := UInt32.ofNat len
    reversed := readUint32 (writeUint16 h.reversed.toUInt16 ++ low) }

theorem writeHeader_spec {p : PtpCore.Global.CImPdu} (hp : HasHeader p) :
    HasHeader p.writeHeader ∧ p.writeHeader.header = p.header ∧
      p.writeHeader.getLength = p.getLength ∧
      headerOf p.writeHeader.buf.contents =
        written p.header p.getLength (slice p.buf.contents 14 2) ∧
      p.writeHeader.buf.contents.drop 16 = p.buf.contents.drop 16 := by
  -- The six stores in order; each is a store into a PDU that has a header.
  have h1 := hp.poke (i := 0) (d := writeInt32 (UInt32.ofNat p.getLength)) (by simp)
  have h2 := h1.poke (i := 4) (d := writeUint16 p.header.version) (by simp)
  have h3 := h2.poke (i := 6) (d := writeUint16 p.header.flag) (by simp)
  have h4 := h3.poke (i := 8) (d := writeUint16 p.header.commandId) (by simp)
  have h5 := h4.poke (i := 10) (d := writeUint16 p.header.seqNum) (by simp)
  have h6 := h5.poke (i := 12) (d := writeUint16 p.header.reversed.toUInt16) (by simp)
  refine ⟨h6, rfl, rfl, ?_, ?_⟩
  · have hlow : slice (((((p.poke 0 (writeInt32 (UInt32.ofNat p.getLength))).poke 4
        (writeUint16 p.header.version)).poke 6 (writeUint16 p.header.flag)).poke 8
        (writeUint16 p.header.commandId)).poke 10 (writeUint16 p.header.seqNum)).buf.contents 14 2 =
        slice p.buf.contents 14 2 := by
      rw [h4.contents_poke (by simp), slice_overwrite_disjoint
          (by have := h4.length_contents; simp; omega) (by simp),
        h3.contents_poke (by simp), slice_overwrite_disjoint
          (by have := h3.length_contents; simp; omega) (by simp),
        h2.contents_poke (by simp), slice_overwrite_disjoint
          (by have := h2.length_contents; simp; omega) (by simp),
        h1.contents_poke (by simp), slice_overwrite_disjoint
          (by have := h1.length_contents; simp; omega) (by simp),
        hp.contents_poke (by simp), slice_overwrite_disjoint
          (by have := hp.length_contents; simp; omega) (by simp)]
    simp only [writeHeader, header_poke]
    rw [h5.contents_poke (by simp), headerOf_setReversed16 h5.length_contents, hlow,
      h4.contents_poke (by simp), headerOf_setSeqNum h4.length_contents,
      h3.contents_poke (by simp), headerOf_setCommandId h3.length_contents,
      h2.contents_poke (by simp), headerOf_setFlag h2.length_contents,
      h1.contents_poke (by simp), headerOf_setVersion h1.length_contents,
      hp.contents_poke (by simp), headerOf_setLength hp.length_contents]
    rfl
  · simp only [writeHeader, header_poke]
    rw [h5.drop_poke (by simp), h4.drop_poke (by simp), h3.drop_poke (by simp),
      h2.drop_poke (by simp), h1.drop_poke (by simp), hp.drop_poke (by simp)]

/-! ## Setting a body -/

/-- What byte `i` of the block holds when `SetPBMsg` has made room for the header: the old
    byte of a block that was there, else whatever the allocator returned. -/
def stale (fill : Nat → UInt8) (p : PtpCore.Global.CImPdu) (i : Nat) : UInt8 :=
  p.buf.mem.getD i (fill i)

section SetPBMsg

variable (fill : Nat → UInt8) {p : PtpCore.Global.CImPdu} {data : Bytes}

theorem resetBody_eq (p : PtpCore.Global.CImPdu) : p.resetBody fill =
    { p with buf := (⟨p.buf.mem, 0⟩ : CSimpleBuffer).write fill none 16 } := by
  simp only [resetBody, CSimpleBuffer.getWriteOffset, CSimpleBuffer.read_all, imPduHeaderLen]

/-- Byte `i` of the block that `Write(NULL, 16)` leaves, grown or not. -/
theorem getElem?_resetBody (p : PtpCore.Global.CImPdu) {i : Nat} (hi : i < 16) :
    (p.resetBody fill).buf.mem[i]? = some (stale fill p i) := by
  rw [resetBody_eq]
  simp only [CSimpleBuffer.write, CSimpleBuffer.makeRoom, Nat.zero_add]
  split
  · rw [CSimpleBuffer.extend, CSimpleBuffer.getElem?_realloc fill _ (by simp; omega), stale]
  · have him : i < p.buf.mem.length := by omega
    simp [stale, him]

theorem getLength_resetBody (p : PtpCore.Global.CImPdu) : (p.resetBody fill).getLength = 16 := by
  change (p.resetBody fill).buf.writeOffset = 16
  rw [resetBody_eq]
  simp [CSimpleBuffer.write]

theorem le_length_resetBody (p : PtpCore.Global.CImPdu) :
    16 ≤ (p.resetBody fill).buf.mem.length := by
  have hlast := getElem?_resetBody fill p (i := 15) (by simp)
  exact (List.getElem?_eq_some_iff.mp hlast).1

/-- The length that is found there: the old one, with bytes of the heap where there was no
    block. -/
theorem readUint32_resetBody (p : PtpCore.Global.CImPdu) :
    CByteStream.readUint32 (p.resetBody fill).buf.mem =
      CByteStream.readUint32 [stale fill p 0, stale fill p 1, stale fill p 2, stale fill p 3] := by
  have hbyte : ∀ i, i < 16 → (p.resetBody fill).buf.mem.getD i 0 = stale fill p i := by
    intro i hi
    rw [List.getD_eq_getElem?_getD, getElem?_resetBody fill p hi]
    rfl
  simp only [CByteStream.readUint32, hbyte 0 (by simp), hbyte 1 (by simp), hbyte 2 (by simp),
    hbyte 3 (by simp)]
  rfl

theorem resetBody_spec (hp : p.buf.Ok) :
    HasHeader (p.resetBody fill) ∧ (p.resetBody fill).header = p.header ∧
      (p.resetBody fill).buf.writeOffset = 16 ∧
      slice (p.resetBody fill).buf.contents 14 2 = [stale fill p 14, stale fill p 15] := by
  have hfits : CSimpleBuffer.Fits ((⟨p.buf.mem, 0⟩ : CSimpleBuffer).writeOffset + 16) :=
    CSimpleBuffer.fits_of_lt (by simp)
  have hok : (⟨p.buf.mem, 0⟩ : CSimpleBuffer).Ok := ⟨Nat.zero_le _, hp.size_lt⟩
  obtain ⟨hw, hoff, -⟩ := CSimpleBuffer.writeNull_spec fill hok hfits
  have hoff' : (p.resetBody fill).buf.writeOffset = 16 := by
    rw [resetBody_eq]
    exact hoff
  refine ⟨⟨by rw [resetBody_eq]; exact hw, by rw [hoff']⟩, by rw [resetBody_eq], hoff', ?_⟩
  apply List.ext_getElem?
  intro j
  rw [getElem?_slice, CSimpleBuffer.contents, hoff']
  by_cases hj : j < 2
  · rw [if_pos hj, List.getElem?_take, if_pos (by omega), getElem?_resetBody fill p (by omega)]
    obtain rfl | rfl : j = 0 ∨ j = 1 := by omega
    all_goals rfl
  · rw [if_neg hj, List.getElem?_eq_none (Nat.le_of_not_lt hj)]

theorem setPBMsgBuf_spec (hp : p.buf.Ok) (hd : data.length < 2 ^ 31) :
    HasHeader (p.setPBMsgBuf fill data) ∧ (p.setPBMsgBuf fill data).header = p.header ∧
      (p.setPBMsgBuf fill data).getLength = 16 + data.length ∧
      headerOf (p.setPBMsgBuf fill data).buf.contents =
        written p.header (16 + data.length) [stale fill p 14, stale fill p 15] ∧
      (p.setPBMsgBuf fill data).buf.contents.drop 16 = data := by
  obtain ⟨hh, hhead, hoff, hlow⟩ := resetBody_spec fill hp
  have hfits : CSimpleBuffer.Fits ((p.resetBody fill).buf.writeOffset + data.length) := by
    rw [hoff]
    exact CSimpleBuffer.fits_of_lt (by omega)
  obtain ⟨hok, hcon⟩ := CSimpleBuffer.write_spec fill hh.ok hfits
  have hlen : ((p.resetBody fill).write fill data data.length).getLength = 16 + data.length := by
    have h := CSimpleBuffer.length_contents hok
    rw [hcon, List.length_append, CSimpleBuffer.length_contents hh.ok, hoff] at h
    exact h.symm
  have hw : HasHeader ((p.resetBody fill).write fill data data.length) :=
    ⟨hok, by change 16 ≤ PtpCore.Global.CImPdu.getLength _; rw [hlen]; exact Nat.le_add_right ..⟩
  have hc16 : (p.resetBody fill).buf.contents.length = 16 := by
    rw [CSimpleBuffer.length_contents hh.ok, hoff]
  obtain ⟨h1, h2, h3, h4, h5⟩ := writeHeader_spec hw
  refine ⟨h1, h2.trans hhead, h3.trans hlen, ?_, ?_⟩
  · have hslice : slice ((p.resetBody fill).write fill data data.length).buf.contents 14 2 =
        [stale fill p 14, stale fill p 15] := by
      simp only [write]
      rw [hcon, slice_append_left (by omega), hlow]
    have hstruct : ((p.resetBody fill).write fill data data.length).header = p.header := hhead
    rw [setPBMsgBuf, h4, hslice, hlen, hstruct]
  · rw [setPBMsgBuf, h5]
    simp only [write]
    rw [hcon, List.drop_left' hc16]

/-- The overload that takes the command id and the sequence number stores them in the struct
    first; its `Position` does not move the offset. -/
theorem setPBMsgCmd_some (hp : p.buf.Ok) (hd : data.length < 2 ^ 31) (cid seq : UInt16) :
    p.setPBMsgCmd fill (some data) cid seq =
      { p with header := { p.header with commandId := cid, seqNum := seq } }.setPBMsgBuf fill
        data := by
  obtain ⟨hh, -, hoff, -⟩ := resetBody_spec fill
    (p := { p with header := { p.header with commandId := cid, seqNum := seq } }) hp
  simp only [setPBMsgCmd, setPBMsgBuf]
  congr 1
  simp only [write, CSimpleBuffer.position, CSimpleBuffer.write]
  have hfits : CSimpleBuffer.Fits ((({ p with header := { p.header with
      commandId := cid, seqNum := seq } } : PtpCore.Global.CImPdu).resetBody fill).buf.writeOffset +
      data.length) := by
    rw [hoff]
    exact CSimpleBuffer.fits_of_lt (by omega)
  obtain ⟨-, hmk, -⟩ := CSimpleBuffer.makeRoom_spec fill hh.ok hfits
  simp only [hmk, hoff, imPduHeaderLen]
  congr 2
  omega

end SetPBMsg

theorem getBodyLength_eq {p : PtpCore.Global.CImPdu} (hp : HasHeader p) :
    p.getBodyLength = p.buf.writeOffset - 16 := by
  have h := hp.ok.offset_le
  have hlt := hp.ok.size_lt
  have hle := hp.le
  simp only [getBodyLength, CSimpleBuffer.getWriteOffset, imPduHeaderLen]
  omega

theorem body_eq {p : PtpCore.Global.CImPdu} (hp : HasHeader p) :
    p.body = p.buf.contents.drop 16 := by
  rw [body, getBodyLength_eq hp, getBodyData, CSimpleBuffer.contents, List.drop_take]
  rfl

/-- `ReadPdu` of `n` bytes that begin with the length field `n`. -/
theorem readPdu_spec (fill : Nat → UInt8) {b : Bytes} {len : Nat} (h16 : 16 ≤ len)
    (hb : len ≤ b.length) (hfits : CSimpleBuffer.Fits len)
    (hlen : (headerOf b).length.toNat = len) :
    ∃ q, readPdu fill b len = .ok (some q) ∧ HasHeader q ∧ q.header = headerOf b ∧
      q.getLength = len ∧ q.buf.contents = b.take len := by
  have hav : isPduAvailable b len = .ok (some len) := by
    rw [isPduAvailable_of_le h16 hlen, if_neg (Nat.lt_irrefl _), if_neg (by omega)]
  have htake : (b.take len).length = len := by simpa using hb
  have hw := CSimpleBuffer.write_take fill CSimpleBuffer.empty hb
  have hroom : CSimpleBuffer.Fits (CSimpleBuffer.empty.writeOffset + (b.take len).length) := by
    simpa [CSimpleBuffer.empty, htake] using hfits
  obtain ⟨hok, hcon⟩ := CSimpleBuffer.write_spec fill CSimpleBuffer.ok_empty hroom
  rw [← hw] at hok hcon
  rw [CSimpleBuffer.contents_empty, List.nil_append] at hcon
  have hoff := CSimpleBuffer.length_contents hok
  rw [hcon, htake] at hoff
  refine ⟨_, readPdu_of_available fill hav, ⟨hok, ?_⟩, rfl, hoff.symm, hcon⟩
  rw [← hoff]
  exact h16

end CImPdu

end Global
end Proof
end PtpCore
