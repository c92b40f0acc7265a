import PtpCore.Proof.Server.Response
import PtpCore.Server.ProxyTask

/-!
# Messages that are not serialised

`SetPBMsg` returns in the middle when `SerializeToArray` fails: the buffer holds sixteen bytes that
nobody has written, and `isPduValid` reads the length from them. In a new PDU they are what the heap
holds. In one that has been used they are its old header, or as much of it as its block had room
for. Such a PDU is recognised just when that length is above sixteen, whatever the heap holds
(`failureDetected_iff`).
-/

namespace PtpCore
namespace Proof
namespace Server

open Lib Proto
open PtpCore.Global PtpCore.Server
open PtpCore.Proof.Global PtpCore.Proof.Global.CImPdu

/-- The first four bytes of the block that a PDU has, as a length. Bytes it does not have are
    zeros. -/
def oldLength (p : CImPdu) : Nat := (CByteStream.readUint32 p.buf.mem).toNat

/-- What becomes of `p` when a message cannot be set in it. `SendMsg` sets the last field then. -/
inductive Unwritten (p : CImPdu) : CImPdu → Prop
  | setPBMsg (fill : Nat → UInt8) : Unwritten p (p.setPBMsg fill none)
  | setPBMsgCmd (fill : Nat → UInt8) (cid seq : UInt16) :
      Unwritten p (p.setPBMsgCmd fill none cid seq)
  | setReversed {q : CImPdu} (v : UInt32) : Unwritten p q → Unwritten p (q.setReversed v)

/-- Such a PDU is no response: `HandleNextResponse` drops it, and `CProxyTask::run` has the
    connection closed instead of sending it. -/
structure FailureDetected (p : CImPdu) : Prop where
  isPduValid : ∀ q isNext, Unwritten p q → CResponse.isPduValid ⟨some q, isNext⟩ = false
  handleNextResponse : ∀ l env async k again c handle s q isNext, Unwritten p q →
    respond l env async k again c handle ⟨some q, isNext⟩ s = (s, none)
  proxyTask : ∀ l e (t : CProxyTask) action w w' q isNext, Unwritten p q →
    Action.runOn l e (e.env.heap 0) ⟨t.connUuid, t.pdu⟩ w action =
        some (w', .ok ⟨some q, isNext⟩) →
      t.runOn l e action w = some (w'.addResponsePdu t.connUuid none, none)

section

variable (fill : Nat → UInt8) (p : CImPdu)

theorem toNat_readUint32 (x y z w : UInt8) : (CByteStream.readUint32 [x, y, z, w]).toNat =
    ((x.toNat * 256 + y.toNat) * 256 + z.toNat) * 256 + w.toNat := by
  have hx : x.toNat < 256 := x.toNat_lt
  have hy : y.toNat < 256 := y.toNat_lt
  have hz : z.toNat < 256 := z.toNat_lt
  have hw : w.toNat < 256 := w.toNat_lt
  have hnum : ofBE [x, y, z, w] = ((x.toNat * 256 + y.toNat) * 256 + z.toNat) * 256 + w.toNat := by
    simp [ofBE]
  rw [CByteStream.readUint32_eq rfl, hnum, UInt32.toNat_ofNat', Nat.mod_eq_of_lt (by omega)]

/-- What the heap adds to a length only makes it larger. -/
theorem oldLength_le :
    oldLength p ≤ (CByteStream.readUint32 (p.resetBody fill).buf.mem).toNat := by
  have hbyte : ∀ i, (p.buf.mem.getD i 0).toNat ≤ (stale fill p i).toNat := by
    intro i
    unfold stale
    by_cases hi : i < p.buf.mem.length
    · simp [hi]
    · simp [hi]
  have hold : oldLength p = (CByteStream.readUint32 [p.buf.mem.getD 0 0, p.buf.mem.getD 1 0,
    p.buf.mem.getD 2 0, p.buf.mem.getD 3 0]).toNat := rfl
  have h0 := hbyte 0
  have h1 := hbyte 1
  have h2 := hbyte 2
  have h3 := hbyte 3
  rw [hold, readUint32_resetBody, toNat_readUint32, toNat_readUint32]
  omega

theorem oldLength_zeros :
    (CByteStream.readUint32 (p.resetBody fun _ => 0).buf.mem).toNat = oldLength p := by
  rw [readUint32_resetBody]
  rfl

variable {p}

/-- What is known of it: sixteen bytes, with a length that is no smaller than the old one. -/
structure KeepsLength (p q : CImPdu) : Prop where
  getLength : q.getLength = 16
  le_length : 16 ≤ q.buf.mem.length
  oldLength_le : oldLength p ≤ (CByteStream.readUint32 q.buf.mem).toNat

theorem keepsLength_resetBody : KeepsLength p (p.resetBody fill) :=
  ⟨getLength_resetBody fill p, le_length_resetBody fill p, oldLength_le fill p⟩

theorem Unwritten.keepsLength {q : CImPdu} (h : Unwritten p q) : KeepsLength p q := by
  induction h with
  | setPBMsg fill => exact keepsLength_resetBody fill
  | setPBMsgCmd fill cid seq =>
    obtain ⟨hlen, hmem, hle⟩ := keepsLength_resetBody fill
      (p := { p with header := { p.header with commandId := cid, seqNum := seq } })
    exact ⟨hlen, hmem, hle⟩
  | @setReversed q v _ ih =>
    have hroom : 12 + (CByteStream.writeUint32 v).length ≤ q.buf.mem.length := ih.le_length
    have hmem : (q.setReversed v).buf.mem =
      overwrite q.buf.mem 12 (CByteStream.writeUint32 v) := rfl
    refine ⟨ih.getLength, ?_, ?_⟩
    · rw [hmem, length_overwrite hroom]
      exact ih.le_length
    · rw [hmem, ← CImPdu.readUint32_slice,
        slice_overwrite_disjoint hroom (.inl (by decide)), CImPdu.readUint32_slice]
      exact ih.oldLength_le

/-- Its length is above sixteen too, and so it is not valid. -/
theorem Unwritten.isPduValid {q : CImPdu} (hq : Unwritten p q) (h : 16 < oldLength p)
    (isNext : Bool) : CResponse.isPduValid ⟨some q, isNext⟩ = false := by
  obtain ⟨hlen, -, hle⟩ := hq.keepsLength
  rw [CResponse.isPduValid]
  dsimp only
  rw [hlen, decide_eq_false_iff_not, Nat.not_le]
  exact Nat.lt_of_lt_of_le h hle

/-- A response that is not valid is dropped. -/
theorem respond_invalid {l : Libs} {env : Env} {async : Bool} {k : Nat}
    {again : CImPdu → MsgServer → MsgServer × Option Fault} {c : ConnId} {handle : UInt32}
    {r : CResponse} {s : MsgServer} (h : r.isPduValid = false) :
    respond l env async k again c handle r s = (s, none) := by
  rw [respond, h]

/-- In a task it closes the connection. -/
theorem runOn_invalid {l : Libs} {e : TaskEnv} {t : CProxyTask} {action : Action} {w w' : Worker}
    {r : CResponse} (h : r.isPduValid = false)
    (hrun : Action.runOn l e (e.env.heap 0) ⟨t.connUuid, t.pdu⟩ w action = some (w', .ok r)) :
    t.runOn l e action w = some (w'.addResponsePdu t.connUuid none, none) := by
  rw [CProxyTask.runOn, hrun]
  dsimp only
  rw [h]

/-- **When a failed serialisation is recognised.** -/
theorem failureDetected_iff (p : CImPdu) : FailureDetected p ↔ 16 < oldLength p := by
  constructor
  · intro h
    -- a heap of zeros leaves the old length as it is
    have hvalid := h.isPduValid _ false (.setPBMsg fun _ => 0)
    rw [CResponse.isPduValid] at hvalid
    change decide ((CByteStream.readUint32 (p.resetBody fun _ => 0).buf.mem).toNat ≤
      (p.resetBody fun _ => 0).getLength) = false at hvalid
    rw [getLength_resetBody, oldLength_zeros, decide_eq_false_iff_not, Nat.not_le] at hvalid
    exact hvalid
  · intro h
    refine ⟨?_, ?_, ?_⟩
    · intro q isNext hq
      exact hq.isPduValid h isNext
    · intro l env async k again c handle s q isNext hq
      exact respond_invalid (hq.isPduValid h isNext)
    · intro l e t action w w' q isNext hq hrun
      exact runOn_invalid (hq.isPduValid h isNext) hrun

end

/-- A new PDU on a heap of zeros, as `Next` makes it. It would be sent. -/
theorem not_failureDetected_new :
    (CResponse.next (fun _ => 0) none cidServerLoginRes 7).isPduValid = true ∧
      ¬ FailureDetected CImPdu.new := by
  have hvalid : (CResponse.next (fun _ => 0) none cidServerLoginRes 7).isPduValid = true := by
    decide +kernel
  refine ⟨hvalid, ?_⟩
  intro h
  have hinvalid := h.isPduValid _ true (.setPBMsgCmd (fun _ => 0) cidServerLoginRes 7)
  exact absurd (hinvalid.symm.trans hvalid) Bool.false_ne_true

end Server
end Proof
end PtpCore
