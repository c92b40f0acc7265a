import PtpCore.Proof.Global.ImPdu
import PtpCore.Server.HandleResponse

/-!
# PDUs that handlers pass on

What a handler reads from a PDU that another handler made: the command id, the sequence number and
the body. The body is what `SerializeToArray` wrote; when it wrote nothing the body is empty, and
whether the PDU is looked at at all depends on what the memory for its header held.
-/

namespace PtpCore
namespace Proof
namespace Server

open Lib Proto
open PtpCore.Global PtpCore.Server
open PtpCore.Proof.Global

/-- The PDU of a message: `msg` is what its serialisation answered. -/
def msgPdu (fill : Nat → UInt8) (msg : Option Bytes) (cid seq : UInt16) : CImPdu :=
  CImPdu.new.setPBMsgCmd fill msg cid seq

section

variable (fill : Nat → UInt8)

/-- A new PDU with its command id and sequence number set, before the message is. -/
def blankPdu (cid seq : UInt16) : CImPdu := ⟨.empty, ⟨0, imPduVersion, 0, cid, seq, 0⟩⟩

theorem ok_blankPdu (cid seq : UInt16) : (blankPdu cid seq).buf.Ok :=
  ⟨Nat.zero_le _, Nat.two_pow_pos 32⟩

theorem msgPdu_none (cid seq : UInt16) :
    msgPdu fill none cid seq = (blankPdu cid seq).resetBody fill := rfl

theorem msgPdu_some {data : Bytes} (h : data.length < 2 ^ 31) (cid seq : UInt16) :
    msgPdu fill (some data) cid seq = (blankPdu cid seq).setPBMsgBuf fill data :=
  CImPdu.setPBMsgCmd_some fill (ok_blankPdu 0 0) h cid seq

variable {msg : Option Bytes} (cid seq : UInt16)

theorem msgPdu_spec (hmsg : ∀ {b}, msg = some b → b.length < 2 ^ 31) :
    CImPdu.HasHeader (msgPdu fill msg cid seq) ∧
      (msgPdu fill msg cid seq).getCommandId = cid ∧ (msgPdu fill msg cid seq).getSeqNum = seq ∧
      (msgPdu fill msg cid seq).body = msg.getD [] := by
  cases msg with
  | none =>
    obtain ⟨hh, hhead, hoff, -⟩ := CImPdu.resetBody_spec fill (ok_blankPdu cid seq)
    rw [msgPdu_none]
    refine ⟨hh, congrArg PduHeader.commandId hhead, congrArg PduHeader.seqNum hhead, ?_⟩
    rw [CImPdu.body, CImPdu.getBodyLength_eq hh, hoff]
    rfl
  | some data =>
    obtain ⟨hh, hhead, -, -, hbody⟩ := CImPdu.setPBMsgBuf_spec fill (ok_blankPdu cid seq) (hmsg rfl)
    rw [msgPdu_some fill (hmsg rfl)]
    refine ⟨hh, congrArg PduHeader.commandId hhead, congrArg PduHeader.seqNum hhead, ?_⟩
    rw [CImPdu.body_eq hh, hbody]
    rfl

/-- `SetReversed` changes neither the command id nor the body. -/
theorem setReversed_spec {p : CImPdu} (hp : CImPdu.HasHeader p) (v : UInt32) :
    (p.setReversed v).getCommandId = p.getCommandId ∧ (p.setReversed v).body = p.body := by
  have h16 : 12 + (CByteStream.writeUint32 v).length ≤ 16 := Nat.le_refl 16
  refine ⟨rfl, ?_⟩
  change (p.poke 12 (CByteStream.writeUint32 v)).body = p.body
  rw [CImPdu.body_eq (hp.poke h16), CImPdu.body_eq hp]
  exact hp.drop_poke h16

end

/-! ## PDUs behind a socket -/

/-- `q` is `p` as the other side has it. -/
structure Delivered (p q : CImPdu) : Prop where
  header : q.header = CImPdu.headerOf p.buf.contents
  body : q.body = p.body

/-- One way to read it: with the same buffer. -/
def deliver (p : CImPdu) : CImPdu := ⟨p.buf, CImPdu.headerOf p.buf.contents⟩

theorem delivered_deliver (p : CImPdu) : Delivered p (deliver p) := ⟨rfl, rfl⟩

/-- What was set with `SetReversed` is read there. -/
theorem reversed_delivered {p q : CImPdu} (hp : CImPdu.HasHeader p) {v : UInt32}
    (h : Delivered (p.setReversed v) q) : q.getReversed = v := by
  have h16 : 12 + (CByteStream.writeUint32 v).length ≤ 16 := Nat.le_refl 16
  rw [CImPdu.getReversed, h.header]
  change (CImPdu.headerOf (p.poke 12 (CByteStream.writeUint32 v)).buf.contents).reversed = v
  rw [hp.contents_poke h16, CImPdu.headerOf_setReversed hp.length_contents]

/-- A message that was passed on is read as it was; one that was not written is read as an empty
    one. -/
theorem parse_passed {M : Type} [Message M] (codec : Codec M) (m : M) :
    codec.parse ((codec.serialize m).getD []) = (m, Message.isInitialized m) ∨
      codec.serialize m = none ∧
        codec.parse ((codec.serialize m).getD []) =
          (Message.empty, Message.isInitialized (Message.empty : M)) := by
  cases h : codec.serialize m with
  | none => exact Or.inr ⟨rfl, codec.parse_nil⟩
  | some b => exact Or.inl (codec.parse_serialize h)

/-! ## Responses -/

theorem pdu_next (fill : Nat → UInt8) (msg : Option Bytes) (cid seq : UInt16) :
    (CResponse.next fill msg cid seq).pdu = some (msgPdu fill msg cid seq) := rfl

theorem pdu_sendMsg (fill : Nat → UInt8) (msg : Option Bytes) (cid seq : UInt16) :
    (CResponse.sendMsg fill msg cid seq).pdu = some ((msgPdu fill msg cid seq).setReversed 0) := rfl

/-- A PDU with its length in it is taken for a response. -/
theorem isPduValid_of_header {r : CResponse} {p : CImPdu} (hr : r.pdu = some p)
    (hp : CImPdu.HasHeader p)
    (hlen : (CImPdu.headerOf p.buf.contents).length = UInt32.ofNat p.getLength) :
    r.isPduValid = true := by
  have hoff : 0 + 4 ≤ p.buf.writeOffset := Nat.le_trans (by simp) hp.le
  have hread : CByteStream.readUint32 p.buf.mem = UInt32.ofNat p.getLength := by
    rw [← CImPdu.readUint32_slice, ← slice_take hoff]
    exact hlen
  rw [CResponse.isPduValid, hr]
  dsimp only
  rw [hread, decide_eq_true_iff]
  exact Nat.mod_le _ _

section

variable (fill : Nat → UInt8) {data : Bytes}

/-- What a written PDU has on the wire once its `reversed` field is set, every byte of it. -/
theorem headerOf_setReversed_msgPdu (h : data.length < 2 ^ 31) (cid seq : UInt16) (v : UInt32) :
    CImPdu.headerOf ((msgPdu fill (some data) cid seq).setReversed v).buf.contents =
      ⟨UInt32.ofNat (16 + data.length), imPduVersion, 0, cid, seq, v⟩ := by
  have h16 : 12 + (CByteStream.writeUint32 v).length ≤ 16 := Nat.le_refl 16
  obtain ⟨hheader, -, -, hwire, -⟩ := CImPdu.setPBMsgBuf_spec fill (ok_blankPdu cid seq) h
  rw [← msgPdu_some fill h] at hheader hwire
  change CImPdu.headerOf ((msgPdu fill (some data) cid seq).poke 12 _).buf.contents = _
  rw [hheader.contents_poke h16, CImPdu.headerOf_setReversed hheader.length_contents, hwire]
  rfl

/-- A written PDU is no shorter than the length in it, so it is not dropped. -/
theorem isPduValid_sendMsg (h : data.length < 2 ^ 31) (cid seq : UInt16) :
    (CResponse.sendMsg fill (some data) cid seq).isPduValid = true := by
  have h16 : 12 + (CByteStream.writeUint32 0).length ≤ 16 := Nat.le_refl 16
  obtain ⟨hheader, -, hlen, -, -⟩ := CImPdu.setPBMsgBuf_spec fill (ok_blankPdu cid seq) h
  rw [← msgPdu_some fill h] at hheader hlen
  refine isPduValid_of_header (pdu_sendMsg fill (some data) cid seq) (hheader.poke h16) ?_
  rw [headerOf_setReversed_msgPdu fill h]
  change _ = UInt32.ofNat (msgPdu fill (some data) cid seq).getLength
  rw [hlen]

theorem isPduValid_next (h : data.length < 2 ^ 31) (cid seq : UInt16) :
    (CResponse.next fill (some data) cid seq).isPduValid = true := by
  obtain ⟨hheader, -, hlen, hwire, -⟩ := CImPdu.setPBMsgBuf_spec fill (ok_blankPdu cid seq) h
  rw [← msgPdu_some fill h] at hheader hlen hwire
  refine isPduValid_of_header (pdu_next fill (some data) cid seq) hheader ?_
  rw [hwire, hlen]
  rfl

/-- The length that a block shows before anything is written to it. -/
def staleLength : Nat := (CByteStream.readUint32 [fill 0, fill 1, fill 2, fill 3]).toNat

/-- A PDU that was not written is taken for a response if the memory it got says so. -/
theorem isPduValid_next_none (cid seq : UInt16) :
    (CResponse.next fill none cid seq).isPduValid = decide (staleLength fill ≤ 16) := by
  rw [CResponse.isPduValid, pdu_next, msgPdu_none]
  dsimp only
  rw [CImPdu.getLength_resetBody, CImPdu.readUint32_resetBody]
  rfl

end

section

variable (l : Libs) (env : Env) {k : Nat} {again : CImPdu → MsgServer → MsgServer × Option Fault}
  {c : ConnId} {handle : UInt32} {s : MsgServer}

/-- In synchronous mode a `Next` PDU is handled at once, or dropped. -/
theorem respond_next (fill : Nat → UInt8) (msg : Option Bytes) (cid seq : UInt16) :
    respond l env false k again c handle (.next fill msg cid seq) s = (s, none) ∨
      respond l env false k again c handle (.next fill msg cid seq) s =
        again (msgPdu fill msg cid seq) s := by
  cases hv : (CResponse.next fill msg cid seq).isPduValid with
  | false =>
    left
    rw [respond, hv]
  | true =>
    right
    rw [respond, hv, pdu_next]
    rfl

/-- In asynchronous mode it is dropped, or answered with an error, or sent to the business server
    under the descriptor of the connection. -/
theorem respond_next_async (fill : Nat → UInt8) (msg : Option Bytes) (cid seq : UInt16) :
    respond l env true k again c handle (.next fill msg cid seq) s = (s, none) ∨
      (∃ pdu, respond l env true k again c handle (.next fill msg cid seq) s =
        (s.sendPdu c pdu, none)) ∨
      respond l env true k again c handle (.next fill msg cid seq) s =
        ({ s with pending := s.pending ++
          [⟨c, handle, (msgPdu fill msg cid seq).setReversed handle⟩] }, none) := by
  cases hv : (CResponse.next fill msg cid seq).isPduValid with
  | false =>
    left
    rw [respond, hv]
  | true =>
    rw [respond, hv, pdu_next]
    cases ho : env.businessConnOpen with
    | true => exact Or.inr (Or.inr rfl)
    | false => exact Or.inr (Or.inl ⟨_, rfl⟩)

/-- A reply is sent, or dropped. -/
theorem respond_sendMsg (async : Bool) (fill : Nat → UInt8) (msg : Option Bytes)
    (cid seq : UInt16) :
    respond l env async k again c handle (.sendMsg fill msg cid seq) s = (s, none) ∨
      respond l env async k again c handle (.sendMsg fill msg cid seq) s =
        (s.sendPdu c ((msgPdu fill msg cid seq).setReversed 0), none) := by
  cases hv : (CResponse.sendMsg fill msg cid seq).isPduValid with
  | false =>
    left
    rw [respond, hv]
  | true =>
    right
    rw [respond, hv, pdu_sendMsg]
    rfl

end

end Server
end Proof
end PtpCore
