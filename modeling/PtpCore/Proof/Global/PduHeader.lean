import PtpCore.Proof.Global.ImPdu

/-!
# What the wire says about the header, and what the getters say

Two questions about a PDU, answered from the specs of `Proof.Global.ImPdu`.

*Encoding.* A fresh PDU whose struct holds `h` is given a body with one of the three `SetPBMsg`
and decoded with `ReadPdu`. Everything comes back except `reversed`: the reader takes its high
half from where the writer put the low one, and its low half from two bytes of the heap.
`roundTrips_iff` says for which heaps this goes unnoticed.

*Coherence.* Over a run of `SetPBMsg` and setter calls on one object, the getters answer what
`ReadPdu` of the object's own buffer would. A setter keeps this only when it stores the value
that is there already (`coherent_setter`), which is what `Meets` asks of each call.
-/

namespace PtpCore
namespace Proof
namespace Global

open Lib
open PtpCore.Global
open PtpCore.Global.CByteStream

namespace CImPdu

open PtpCore.Global.CImPdu

/-- `rev` survives `WriteHeader` over the bytes `x`, `y`: its halves are equal, and the two bytes
    spell that half. -/
def Agrees (rev : UInt32) (x y : UInt8) : Prop :=
  rev.toNat / 2 ^ 16 = rev.toNat % 2 ^ 16 ∧ x.toNat * 256 + y.toNat = rev.toNat % 2 ^ 16

instance (rev : UInt32) (x y : UInt8) : Decidable (Agrees rev x y) :=
  inferInstanceAs (Decidable (_ ∧ _))

theorem readUint32_half (rev : UInt32) (x y : UInt8) :
    (readUint32 (writeUint16 rev.toUInt16 ++ [x, y])).toNat =
      rev.toNat % 2 ^ 16 * 2 ^ 16 + (x.toNat * 256 + y.toNat) := by
  have hx : x.toNat < 256 := x.toNat_lt
  have hy : y.toNat < 256 := y.toNat_lt
  have h16 : ofBE (writeUint16 rev.toUInt16) = rev.toNat % 2 ^ 16 := by
    rw [writeUint16_eq, ofBE_toBE_of_lt (by simpa using rev.toUInt16.toNat_lt)]
    simp
  have hsplit : writeUint16 rev.toUInt16 ++ [x, y] = (writeUint16 rev.toUInt16 ++ [x]) ++ [y] := by
    simp
  rw [readUint32_eq (by simp), hsplit, ofBE_append_singleton, ofBE_append_singleton, h16,
    UInt32.toNat_ofNat']
  omega

theorem agrees_iff {rev : UInt32} {x y : UInt8} :
    readUint32 (writeUint16 rev.toUInt16 ++ [x, y]) = rev ↔ Agrees rev x y := by
  have hx : x.toNat < 256 := x.toNat_lt
  have hy : y.toNat < 256 := y.toNat_lt
  have hr : rev.toNat < 2 ^ 32 := rev.toNat_lt
  rw [← UInt32.toNat_inj, readUint32_half, Agrees]
  omega

/-- The two halves of `Agrees` cannot hold of every pair of bytes. -/
theorem exists_not_agrees (rev : UInt32) : ∃ x : UInt8, ¬ Agrees rev x x := by
  by_cases h : Agrees rev 0 0
  · refine ⟨1, fun h' => ?_⟩
    have h0 := h.2
    have h1 := h'.2
    rw [← h0] at h1
    exact absurd h1 (by decide)
  · exact ⟨0, h⟩

/-! ## Encoding and decoding -/

/-- The three `SetPBMsg`. -/
inductive Overload
  | buf
  | msg
  | msgCmd
  deriving DecidableEq, Repr

/-- A fresh PDU whose `m_pdu_header` holds `h`, given the body `data`. -/
def encode (o : Overload) (heap : Nat → UInt8) (h : PduHeader) (data : Bytes) :
    PtpCore.Global.CImPdu :=
  let p := { PtpCore.Global.CImPdu.new with header := h }
  match o with
  | .buf => p.setPBMsgBuf heap data
  | .msg => p.setPBMsg heap (some data)
  | .msgCmd => p.setPBMsgCmd heap (some data) h.commandId h.seqNum

/-- `q` carries the fields of `h` and the body `data`. -/
structure Decodes (q : PtpCore.Global.CImPdu) (h : PduHeader) (data : Bytes) : Prop where
  version : q.getVersion = h.version
  flag : q.getFlag = h.flag
  commandId : q.getCommandId = h.commandId
  seqNum : q.getSeqNum = h.seqNum
  reversed : q.getReversed = h.reversed
  lengthField : q.header.length.toNat = 16 + data.length
  length : q.getLength = 16 + data.length
  body : q.body = data

/-- Decoding the encoded buffer, into whatever memory the decoder is given. -/
def RoundTrips (o : Overload) (heap : Nat → UInt8) (h : PduHeader) (data : Bytes) : Prop :=
  ∀ heap', ∃ q, readPdu heap' (encode o heap h data).buf.mem (encode o heap h data).getLength =
    .ok (some q) ∧ Decodes q h data

section Encode

variable (o : Overload) (heap : Nat → UInt8) (h : PduHeader) {data : Bytes}

theorem encode_eq (hd : data.length < 2 ^ 31) :
    encode o heap h data =
      { PtpCore.Global.CImPdu.new with header := h }.setPBMsgBuf heap data := by
  cases o with
  | buf => rfl
  | msg => rfl
  | msgCmd => exact setPBMsgCmd_some heap CSimpleBuffer.ok_empty hd h.commandId h.seqNum

theorem encode_spec (hd : data.length < 2 ^ 31) :
    HasHeader (encode o heap h data) ∧ (encode o heap h data).getLength = 16 + data.length ∧
      headerOf (encode o heap h data).buf.contents =
        written h (16 + data.length) [heap 14, heap 15] ∧
      (encode o heap h data).buf.contents.drop 16 = data := by
  rw [encode_eq o heap h hd]
  obtain ⟨h1, -, h3, h4, h5⟩ := setPBMsgBuf_spec heap
    (p := { PtpCore.Global.CImPdu.new with header := h }) CSimpleBuffer.ok_empty hd
  exact ⟨h1, h3, h4, h5⟩

/-- The decoder's result, whatever `reversed` comes out as. -/
theorem readPdu_encode (hd : data.length < 2 ^ 31) (heap' : Nat → UInt8) :
    ∃ q, readPdu heap' (encode o heap h data).buf.mem (encode o heap h data).getLength =
        .ok (some q) ∧ q.header = written h (16 + data.length) [heap 14, heap 15] ∧
      q.getLength = 16 + data.length ∧ q.body = data := by
  obtain ⟨hh, hlen, hhead, hbody⟩ := encode_spec o heap h hd
  have hmem : headerOf (encode o heap h data).buf.mem =
      written h (16 + data.length) [heap 14, heap 15] := by
    rw [← hhead]
    exact (headerOf_take hh.le).symm
  obtain ⟨q, hq, hqh, hqhead, hqlen, hqcon⟩ := readPdu_spec heap'
    (b := (encode o heap h data).buf.mem) hh.le hh.ok.offset_le
    (CSimpleBuffer.fits_of_lt (by
      have : (encode o heap h data).buf.writeOffset = 16 + data.length := hlen
      omega))
    (by
      have : (encode o heap h data).buf.writeOffset = 16 + data.length := hlen
      rw [hmem, this, written, UInt32.toNat_ofNat_of_lt' (by simp [UInt32.size]; omega)])
  refine ⟨q, hq, hqhead.trans hmem, hqlen.trans hlen, ?_⟩
  rw [body_eq hqh, hqcon]
  exact hbody

theorem roundTrips_iff (hd : data.length < 2 ^ 31 - 16) :
    RoundTrips o heap h data ↔ Agrees h.reversed (heap 14) (heap 15) := by
  have hd' : data.length < 2 ^ 31 := by omega
  rw [← agrees_iff]
  constructor
  · intro hr
    obtain ⟨q, hq, hdec⟩ := hr heap
    obtain ⟨q', hq', hhead, -⟩ := readPdu_encode o heap h hd' heap
    rw [hq] at hq'
    cases hq'
    have hrev := hdec.reversed
    rw [getReversed, hhead] at hrev
    exact hrev
  · intro hagree heap'
    obtain ⟨q, hq, hhead, hlen, hbody⟩ := readPdu_encode o heap h hd' heap'
    have hfield : q.header.length.toNat = 16 + data.length := by
      rw [hhead, written, UInt32.toNat_ofNat_of_lt' (by simp [UInt32.size]; omega)]
    refine ⟨q, hq, ⟨?_, ?_, ?_, ?_, ?_, hfield, hlen, hbody⟩⟩
    · rw [getVersion, hhead]; rfl
    · rw [getFlag, hhead]; rfl
    · rw [getCommandId, hhead]; rfl
    · rw [getSeqNum, hhead]; rfl
    · rw [getReversed, hhead]; exact hagree

/-- Bytes 14 and 15 of the encoded header are the heap's. -/
theorem encode_ne_of_heap_ne (hd : data.length < 2 ^ 31) {heap' : Nat → UInt8}
    (hne : heap 15 ≠ heap' 15) (h14 : heap 14 = heap' 14) :
    (encode o heap h data).buf.contents ≠ (encode o heap' h data).buf.contents := by
  intro heq
  obtain ⟨-, -, hhead, -⟩ := encode_spec o heap h hd
  obtain ⟨-, -, hhead', -⟩ := encode_spec o heap' h hd
  rw [heq, hhead'] at hhead
  have hrev := congrArg (fun x => x.reversed.toNat) hhead
  simp only [written, readUint32_half, h14] at hrev
  exact hne (UInt8.toNat_inj.mp (by omega))

/-- The encoder and `ReadPdu` agree on a header and a body exactly for the heaps whose two
    bytes at 14 and 15 happen to complete `reversed`. There is no header for which that is
    every heap, and no header whose encoding the heap does not show in. -/
theorem setPBMsg_readPdu (hd : data.length < 2 ^ 31 - 16) :
    (∀ heap, RoundTrips o heap h data ↔ Agrees h.reversed (heap 14) (heap 15)) ∧
      (¬ ∀ heap, RoundTrips o heap h data) ∧
      ¬ ∀ heap heap', (encode o heap h data).buf.contents =
        (encode o heap' h data).buf.contents := by
  refine ⟨fun heap => roundTrips_iff o heap h hd, ?_, ?_⟩
  · intro hall
    obtain ⟨x, hx⟩ := exists_not_agrees h.reversed
    exact hx ((roundTrips_iff o (fun _ => x) h hd).mp (hall _))
  · intro hall
    refine encode_ne_of_heap_ne o (fun _ => 0) h (by omega) ?_ ?_
      (hall (fun _ => 0) fun i => if i = 15 then 1 else 0)
    · decide
    · rfl

theorem setPBMsg_readPdu_helloBody :
    (RoundTrips .msg (fun _ => 0) ⟨0, 1, 0, 0x0101, 5, 0⟩ [104, 105] ↔ Agrees 0 0 0) ∧
      ¬ ∀ heap, RoundTrips .msg heap ⟨0, 1, 0, 0x0101, 5, 0⟩ [104, 105] := by
  have hd : ([104, 105] : Bytes).length < 2 ^ 31 - 16 := by decide
  have h := setPBMsg_readPdu .msg ⟨0, 1, 0, 0x0101, 5, 0⟩ hd
  exact ⟨h.1 _, h.2.1⟩

/-- A socket handle in `reversed`, over cleared memory: the reader sees `7 * 2 ^ 16`. -/
theorem not_roundTrips_handle :
    ¬ RoundTrips .buf (fun _ => 0) ⟨0, 1, 0, 0x0601, 5, 7⟩ [] := by
  rw [roundTrips_iff _ _ _ (by decide)]
  decide

end Encode

/-! ## Coherence over a run -/

/-- The calls on a PDU object. -/
inductive Call
  | setPBMsgBuf (fill : Nat → UInt8) (data : Bytes)
  | setPBMsg (fill : Nat → UInt8) (msg : Option Bytes)
  | setPBMsgCmd (fill : Nat → UInt8) (msg : Option Bytes) (commandId seqNum : UInt16)
  | setVersion (version : UInt16)
  | setFlag (flag : UInt16)
  | setCommandId (commandId : UInt16)
  | setError (error : UInt16)
  | setSeqNum (seqNum : UInt16)
  | setReversed (reversed : UInt32)

namespace Call

def apply (p : PtpCore.Global.CImPdu) : Call → PtpCore.Global.CImPdu
  | .setPBMsgBuf fill data => p.setPBMsgBuf fill data
  | .setPBMsg fill msg => p.setPBMsg fill msg
  | .setPBMsgCmd fill msg cid seq => p.setPBMsgCmd fill msg cid seq
  | .setVersion v => p.setVersion v
  | .setFlag v => p.setFlag v
  | .setCommandId v => p.setCommandId v
  | .setError v => p.setError v
  | .setSeqNum v => p.setSeqNum v
  | .setReversed v => p.setReversed v

/-- What a `SetPBMsg` call is given to store, if it is one; the inner `none` is a message that
    does not serialise. -/
def message : Call → Option (Option Bytes)
  | .setPBMsgBuf _ data => some (some data)
  | .setPBMsg _ msg => some msg
  | .setPBMsgCmd _ msg _ _ => some msg
  | _ => none

def IsSetPBMsg (c : Call) : Prop := c.message ≠ none

/-- Sizes are `int` in the source. -/
def Sized (c : Call) : Prop := ∀ data, c.message = some (some data) → data.length < 2 ^ 31

def Serialises (c : Call) : Prop := c.message ≠ some none

end Call

/-- A field of the header. -/
inductive Field
  | length
  | version
  | flag
  | commandId
  | seqNum
  | reversed
  deriving DecidableEq, Repr

def Field.of (h : PduHeader) : Field → Nat
  | .length => h.length.toNat
  | .version => h.version.toNat
  | .flag => h.flag.toNat
  | .commandId => h.commandId.toNat
  | .seqNum => h.seqNum.toNat
  | .reversed => h.reversed.toNat

/-- The field a setter is named after. The header has no error field. -/
def Call.own : Call → Option Field
  | .setVersion _ => some .version
  | .setFlag _ => some .flag
  | .setCommandId _ => some .commandId
  | .setSeqNum _ => some .seqNum
  | .setReversed _ => some .reversed
  | _ => none

/-- The getters answer what `ReadPdu` of the PDU's own buffer would. -/
def Coherent (p : PtpCore.Global.CImPdu) : Prop :=
  ∀ fill, ∃ q, readPdu fill p.buf.mem p.getLength = .ok (some q) ∧
    p.getVersion = q.getVersion ∧ p.getFlag = q.getFlag ∧ p.getCommandId = q.getCommandId ∧
    p.getSeqNum = q.getSeqNum ∧ p.getReversed = q.getReversed

/-- A setter leaves every field but its own alone, on the wire and in the struct. -/
def OwnFieldOnly (p : PtpCore.Global.CImPdu) (c : Call) : Prop :=
  ¬ c.IsSetPBMsg → ∀ f, c.own ≠ some f →
    f.of (headerOf (c.apply p).buf.contents) = f.of (headerOf p.buf.contents) ∧
      f.of (c.apply p).header = f.of p.header

/-- The condition on a call and the object before it: a setter stores what the struct holds,
    `SetError` the command id; a `SetPBMsg` serialises, and the two header bytes it does not
    write are right already. -/
def Meets (p : PtpCore.Global.CImPdu) : Call → Prop
  | .setPBMsgBuf fill _ => Agrees p.getReversed (stale fill p 14) (stale fill p 15)
  | .setPBMsg fill msg => msg ≠ none ∧ Agrees p.getReversed (stale fill p 14) (stale fill p 15)
  | .setPBMsgCmd fill msg _ _ =>
    msg ≠ none ∧ Agrees p.getReversed (stale fill p 14) (stale fill p 15)
  | .setVersion v => v = p.getVersion
  | .setFlag v => v = p.getFlag
  | .setCommandId v => v = p.getCommandId
  | .setError v => v = p.getCommandId
  | .setSeqNum v => v = p.getSeqNum
  | .setReversed v => v = p.getReversed

/-- The bytes in front of the offset are a header with a correct length field, and a body. -/
structure Framed (p : PtpCore.Global.CImPdu) : Prop extends HasHeader p where
  fits : CSimpleBuffer.Fits p.getLength
  length : (headerOf p.buf.contents).length.toNat = p.getLength

/-- Two headers agree on what the five getters read. -/
def SameFields (a b : PduHeader) : Prop :=
  a.version = b.version ∧ a.flag = b.flag ∧ a.commandId = b.commandId ∧ a.seqNum = b.seqNum ∧
    a.reversed = b.reversed

/-- On a framed PDU, coherence compares the struct with the header on the wire. -/
theorem Framed.coherent_iff {p : PtpCore.Global.CImPdu} (hp : Framed p) :
    Coherent p ↔ SameFields p.header (headerOf p.buf.contents) := by
  have hmem : headerOf p.buf.contents = headerOf p.buf.mem := headerOf_take hp.le
  have hread : ∀ fill, ∃ q, readPdu fill p.buf.mem p.getLength = .ok (some q) ∧
      q.header = headerOf p.buf.contents := by
    intro fill
    obtain ⟨q, hq, -, hhead, -⟩ := readPdu_spec fill hp.le hp.ok.offset_le hp.fits
      (by rw [← hmem]; exact hp.length)
    exact ⟨q, hq, hhead.trans hmem.symm⟩
  constructor
  · intro hc
    obtain ⟨q, hq, hsame⟩ := hc fun _ => 0
    obtain ⟨q', hq', hhead⟩ := hread fun _ => 0
    rw [hq] at hq'
    cases hq'
    rw [← hhead]
    exact hsame
  · intro hsame fill
    obtain ⟨q, hq, hhead⟩ := hread fill
    rw [← hhead] at hsame
    exact ⟨q, hq, hsame⟩

section Setters

variable {p : PtpCore.Global.CImPdu}

/-- What a setter's store does to the header on the wire. -/
def Call.store (h : PduHeader) : Call → PduHeader
  | .setVersion v => { h with version := v }
  | .setFlag v => { h with flag := v }
  | .setCommandId v => { h with commandId := v }
  | .setError v => { h with commandId := v }
  | .setSeqNum v => { h with seqNum := v }
  | .setReversed v => { h with reversed := v }
  | _ => h

/-- Every setter is a store behind the length field and inside the header. -/
theorem setter_spec {c : Call} (hc : ¬ c.IsSetPBMsg) (hp : HasHeader p) :
    HasHeader (c.apply p) ∧ (c.apply p).header = p.header ∧
      (c.apply p).getLength = p.getLength ∧
      headerOf (c.apply p).buf.contents = c.store (headerOf p.buf.contents) := by
  have hl := hp.length_contents
  cases c with
  | setPBMsgBuf fill data => exact absurd (Option.some_ne_none _) hc
  | setPBMsg fill msg => exact absurd (Option.some_ne_none _) hc
  | setPBMsgCmd fill msg cid seq => exact absurd (Option.some_ne_none _) hc
  | setVersion v =>
    refine ⟨hp.poke (by simp), rfl, rfl, ?_⟩
    rw [Call.apply, setVersion, hp.contents_poke (by simp), headerOf_setVersion hl, Call.store]
  | setFlag v =>
    refine ⟨hp.poke (by simp), rfl, rfl, ?_⟩
    rw [Call.apply, setFlag, hp.contents_poke (by simp), headerOf_setFlag hl, Call.store]
  | setCommandId v =>
    refine ⟨hp.poke (by simp), rfl, rfl, ?_⟩
    rw [Call.apply, setCommandId, hp.contents_poke (by simp), headerOf_setCommandId hl, Call.store]
  | setError v =>
    refine ⟨hp.poke (by simp), rfl, rfl, ?_⟩
    rw [Call.apply, setError, hp.contents_poke (by simp), headerOf_setCommandId hl, Call.store]
  | setSeqNum v =>
    refine ⟨hp.poke (by simp), rfl, rfl, ?_⟩
    rw [Call.apply, setSeqNum, hp.contents_poke (by simp), headerOf_setSeqNum hl, Call.store]
  | setReversed v =>
    refine ⟨hp.poke (by simp), rfl, rfl, ?_⟩
    rw [Call.apply, setReversed, hp.contents_poke (by simp), headerOf_setReversed hl, Call.store]

theorem framed_setter {c : Call} (hc : ¬ c.IsSetPBMsg) (hp : Framed p) : Framed (c.apply p) := by
  obtain ⟨h1, -, h3, h4⟩ := setter_spec hc hp.toHasHeader
  have hlen : (c.store (headerOf p.buf.contents)).length = (headerOf p.buf.contents).length := by
    cases c <;> rfl
  refine ⟨h1, by rw [h3]; exact hp.fits, ?_⟩
  rw [h4, h3, hlen]
  exact hp.length

/-- A setter keeps a coherent PDU coherent exactly when it stores what the struct holds. -/
theorem coherent_setter {c : Call} (hc : ¬ c.IsSetPBMsg) (hp : Framed p) (hcoh : Coherent p) :
    Coherent (c.apply p) ↔ Meets p c := by
  obtain ⟨-, h2, -, h4⟩ := setter_spec hc hp.toHasHeader
  obtain ⟨e1, e2, e3, e4, e5⟩ := hp.coherent_iff.mp hcoh
  rw [(framed_setter hc hp).coherent_iff, h2, h4, SameFields]
  cases c with
  | setPBMsgBuf fill data => exact absurd (Option.some_ne_none _) hc
  | setPBMsg fill msg => exact absurd (Option.some_ne_none _) hc
  | setPBMsgCmd fill msg cid seq => exact absurd (Option.some_ne_none _) hc
  | setVersion v => exact ⟨fun h => h.1.symm, fun h => ⟨h.symm, e2, e3, e4, e5⟩⟩
  | setFlag v => exact ⟨fun h => h.2.1.symm, fun h => ⟨e1, h.symm, e3, e4, e5⟩⟩
  | setCommandId v => exact ⟨fun h => h.2.2.1.symm, fun h => ⟨e1, e2, h.symm, e4, e5⟩⟩
  | setError v => exact ⟨fun h => h.2.2.1.symm, fun h => ⟨e1, e2, h.symm, e4, e5⟩⟩
  | setSeqNum v => exact ⟨fun h => h.2.2.2.1.symm, fun h => ⟨e1, e2, e3, h.symm, e5⟩⟩
  | setReversed v => exact ⟨fun h => h.2.2.2.2.symm, fun h => ⟨e1, e2, e3, e4, h.symm⟩⟩

theorem ownFieldOnly_setter {c : Call} (hc : ¬ c.IsSetPBMsg) (hp : Framed p) (hcoh : Coherent p)
    (hm : Meets p c) : OwnFieldOnly p c := by
  intro _ f hf
  obtain ⟨-, h2, -, h4⟩ := setter_spec hc hp.toHasHeader
  refine ⟨?_, by rw [h2]⟩
  rw [h4]
  cases c with
  | setError v =>
    -- the one setter that writes into another field; coherence makes the old value `v`
    have hv : v = (headerOf p.buf.contents).commandId :=
      Eq.trans hm (hp.coherent_iff.mp hcoh).2.2.1
    rw [hv]
    rfl
  | _ => cases f <;> first | rfl | exact absurd rfl hf

end Setters

section Messages

variable {p : PtpCore.Global.CImPdu}

/-- A `SetPBMsg` that serialises, in any of its forms: the body overload on the object with
    the struct the form leaves. -/
theorem apply_message {c : Call} {data : Bytes} (hm : c.message = some (some data))
    (hs : c.Sized) (hp : p.buf.Ok) :
    ∃ fill h, c.apply p = { p with header := h }.setPBMsgBuf fill data ∧
      h.reversed = p.header.reversed ∧
      (Meets p c ↔ Agrees p.header.reversed (stale fill p 14) (stale fill p 15)) := by
  have hd := hs data hm
  cases c with
  | setPBMsgBuf fill data' =>
    cases hm
    exact ⟨fill, p.header, rfl, rfl, Iff.rfl⟩
  | setPBMsg fill msg =>
    cases hm
    exact ⟨fill, p.header, rfl, rfl, ⟨fun h => h.2, fun h => ⟨Option.some_ne_none _, h⟩⟩⟩
  | setPBMsgCmd fill msg cid seq =>
    cases hm
    exact ⟨fill, { p.header with commandId := cid, seqNum := seq },
      setPBMsgCmd_some fill hp hd cid seq, rfl,
      ⟨fun h => h.2, fun h => ⟨Option.some_ne_none _, h⟩⟩⟩
  | _ => cases hm

theorem message_spec {c : Call} {data : Bytes} (hm : c.message = some (some data))
    (hs : c.Sized) (hp : p.buf.Ok) :
    Framed (c.apply p) ∧ (Coherent (c.apply p) ↔ Meets p c) := by
  have hd := hs data hm
  obtain ⟨fill, h, happ, hrev, hmeets⟩ := apply_message hm hs hp
  obtain ⟨h1, h2, h3, h4, -⟩ := setPBMsgBuf_spec fill (p := { p with header := h }) hp hd
  rw [← happ] at h1 h2 h3 h4
  have hframed : Framed (c.apply p) := by
    refine ⟨h1, by rw [h3]; exact CSimpleBuffer.fits_of_lt (by omega), ?_⟩
    rw [h4, h3, written, UInt32.toNat_ofNat_of_lt' (by simp [UInt32.size]; omega)]
  refine ⟨hframed, ?_⟩
  rw [hframed.coherent_iff, h2, h4, hmeets, ← agrees_iff, SameFields, written, hrev]
  constructor
  · rintro ⟨-, -, -, -, hsame⟩
    exact hsame.symm
  · intro hsame
    exact ⟨rfl, rfl, rfl, rfl, hsame.symm⟩

end Messages

/-! ### Runs -/

/-- What is asked of each call of a run: coherence afterwards, and no other field touched. -/
def Stays (p : PtpCore.Global.CImPdu) (c : Call) : Prop := Coherent (c.apply p) ∧ OwnFieldOnly p c

theorem Meets.serialises {p : PtpCore.Global.CImPdu} {c : Call} (hm : Meets p c) :
    c.Serialises := by
  intro hnone
  cases c with
  | setPBMsg fill msg => exact hm.1 (Option.some.inj hnone)
  | setPBMsgCmd fill msg cid seq => exact hm.1 (Option.some.inj hnone)
  | _ => cases hnone

theorem first_step {p : PtpCore.Global.CImPdu} {c : Call} (hp : p.buf.Ok) (hc : c.IsSetPBMsg)
    (hs : c.Sized) (hser : c.Serialises) :
    Framed (c.apply p) ∧ (Stays p c ↔ Meets p c) := by
  match hm : c.message with
  | none => exact absurd hm hc
  | some none => exact absurd hm hser
  | some (some data) =>
    obtain ⟨hframed, hiff⟩ := message_spec hm hs hp
    exact ⟨hframed, fun h => hiff.mp h.1, fun h => ⟨hiff.mpr h, fun hn => absurd hc hn⟩⟩

theorem later_step {p : PtpCore.Global.CImPdu} {c : Call} (hp : Framed p) (hcoh : Coherent p)
    (hs : c.Sized) (hser : c.Serialises) :
    Framed (c.apply p) ∧ (Stays p c ↔ Meets p c) := by
  by_cases hc : c.IsSetPBMsg
  · exact first_step hp.ok hc hs hser
  · refine ⟨framed_setter hc hp, fun h => (coherent_setter hc hp hcoh).mp h.1, fun h => ?_⟩
    exact ⟨(coherent_setter hc hp hcoh).mpr h, ownFieldOnly_setter hc hp hcoh h⟩

/-- A run of calls that begins with a `SetPBMsg` and whose calls all meet the condition keeps
    the getters and the wire together, and every setter to its field. Where all messages
    serialise, no other run does. -/
theorem headers_coherent {p : PtpCore.Global.CImPdu} {c : Call} {cs : List Call} (hp : p.buf.Ok)
    (hc : c.IsSetPBMsg) (hs : ∀ d ∈ c :: cs, d.Sized) :
    (EachStep Call.apply Meets p (c :: cs) → EachStep Call.apply Stays p (c :: cs)) ∧
      ((∀ d ∈ c :: cs, d.Serialises) → EachStep Call.apply Stays p (c :: cs) →
        EachStep Call.apply Meets p (c :: cs)) := by
  have hs0 : c.Sized := hs c (by simp)
  have hrest : EachStep Call.apply (fun _ d => d.Sized) (c.apply p) cs :=
    EachStep.of_forall_mem fun d hd => hs d (by simp [hd])
  constructor
  · rintro ⟨hm, hrun⟩
    obtain ⟨hframed, hiff⟩ := first_step hp hc hs0 hm.serialises
    refine ⟨hiff.mpr hm, EachStep.of_invariant (fun q => Framed q ∧ Coherent q)
      (R := fun q d => d.Sized ∧ Meets q d) ?_ ?_ ⟨hframed, (hiff.mpr hm).1⟩ (hrest.and hrun)⟩
    · rintro q d ⟨hq, hcoh⟩ ⟨hd, hmd⟩
      obtain ⟨hf, hi⟩ := later_step hq hcoh hd hmd.serialises
      exact ⟨hf, (hi.mpr hmd).1⟩
    · rintro q d ⟨hq, hcoh⟩ ⟨hd, hmd⟩
      exact (later_step hq hcoh hd hmd.serialises).2.mpr hmd
  · rintro hser ⟨hst, hrun⟩
    obtain ⟨hframed, hiff⟩ := first_step hp hc hs0 (hser c (by simp))
    have hserRest : EachStep Call.apply (fun _ d => d.Serialises) (c.apply p) cs :=
      EachStep.of_forall_mem fun d hd => hser d (by simp [hd])
    refine ⟨hiff.mp hst, EachStep.of_invariant (fun q => Framed q ∧ Coherent q)
      (R := fun q d => (d.Sized ∧ d.Serialises) ∧ Stays q d) ?_ ?_ ⟨hframed, hst.1⟩
      ((hrest.and hserRest).and hrun)⟩
    · rintro q d ⟨hq, hcoh⟩ ⟨⟨hd, hsd⟩, hstd⟩
      exact ⟨(later_step hq hcoh hd hsd).1, hstd.1⟩
    · rintro q d ⟨hq, hcoh⟩ ⟨⟨hd, hsd⟩, hstd⟩
      exact (later_step hq hcoh hd hsd).2.mp hstd

theorem headers_coherent_login :
    EachStep Call.apply Stays .new [.setPBMsgCmd (fun _ => 0) (some [1, 2]) 0x0101 7,
      .setCommandId 0x0101, .setError 0x0101] := by
  refine (headers_coherent CSimpleBuffer.ok_empty (by simp [Call.IsSetPBMsg, Call.message]) ?_).1 ?_
  · intro d hd data hdata
    simp only [List.mem_cons, List.not_mem_nil, or_false] at hd
    obtain rfl | rfl | rfl := hd
    · cases hdata; decide
    · cases hdata
    · cases hdata
  · exact ⟨⟨Option.some_ne_none _, by decide⟩, rfl, rfl, trivial⟩

/-- `SetPBMsg` over cleared memory, then `SetFlag(1)`: the getter still answers 0. -/
theorem not_coherent_setFlag :
    ¬ EachStep Call.apply Stays .new [.setPBMsgBuf (fun _ => 0) [], .setFlag 1] := by
  rintro ⟨h1, h2, -⟩
  have hsized : (Call.setPBMsgBuf (fun _ => 0) []).Sized := by
    intro data hdata
    cases hdata
    decide
  have hok : (PtpCore.Global.CImPdu.new).buf.Ok := CSimpleBuffer.ok_empty
  obtain ⟨hframed, -⟩ := message_spec rfl hsized hok
  have hmeets : (1 : UInt16) = 0 :=
    (coherent_setter (by simp [Call.IsSetPBMsg, Call.message]) hframed h1.1).mp h2.1
  exact absurd hmeets (by decide)

end CImPdu

end Global
end Proof
end PtpCore
