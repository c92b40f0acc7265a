import PtpCore.Lib.Framing
import PtpCore.Lib.Run
import PtpCore.Proof.Global.ImPdu
import PtpCore.Server.BusinessSrvConn

/-!
# The receiving direction cuts a stream into PDUs

`pduFraming` is the framing both read loops are meant to implement: a length field below the
size of a header is refused, any other says where the frame ends. Neither loop implements it,
since `IsPduAvailable` refuses only the length 0; both do on a stream with no field from 1 to 15
at a frame boundary (`NoShort`). What one turn of either loop does is said once (`Dispatches`). On
such a stream each loop refines `drive` over the bytes the buffer holds (`Dispatches.refines`), and
the two theorems about them are facts about `drive`.
-/

namespace PtpCore
namespace Proof
namespace Global

open Lib
open PtpCore.Global
open PtpCore.Global.CByteStream
open PtpCore.Server (Stop)

namespace CImConn

open PtpCore.Global.CImConn

/-! ## The framing -/

/-- An encoded PDU: a header at least, and a length field that is the number of bytes. -/
structure IsPdu (p : Bytes) : Prop where
  le : 16 ≤ p.length
  length : (CImPdu.headerOf p).length.toNat = p.length

def pduNext (b : Bytes) : Next :=
  if b.length < 16 then .more
  else if (CImPdu.headerOf b).length.toNat < 16 then .bad
  else if (CImPdu.headerOf b).length.toNat > b.length then .more
  else .frame (CImPdu.headerOf b).length.toNat

theorem pduNext_frame {b : Bytes} {n : Nat} :
    pduNext b = .frame n ↔
      16 ≤ b.length ∧ (CImPdu.headerOf b).length.toNat = n ∧ 16 ≤ n ∧ n ≤ b.length := by
  unfold pduNext
  constructor
  · intro h
    split at h
    · cases h
    · split at h
      · cases h
      · split at h
        · cases h
        · cases h
          exact ⟨by omega, rfl, by omega, by omega⟩
  · rintro ⟨h1, rfl, h3, h4⟩
    rw [if_neg (by omega), if_neg (by omega), if_neg (by omega)]

theorem pduNext_bad {b : Bytes} :
    pduNext b = .bad ↔ 16 ≤ b.length ∧ (CImPdu.headerOf b).length.toNat < 16 := by
  unfold pduNext
  constructor
  · intro h
    split at h
    · cases h
    · split at h
      · exact ⟨by omega, by assumption⟩
      · split at h <;> cases h
  · rintro ⟨h1, h2⟩
    rw [if_neg (by omega), if_pos h2]

def pduFraming : Framing UInt8 where
  next := pduNext
  frame_pos b n h := by
    obtain ⟨-, -, h3, h4⟩ := pduNext_frame.mp h
    exact ⟨by omega, h4⟩
  frame_append b n e h := by
    obtain ⟨h1, h2, h3, h4⟩ := pduNext_frame.mp h
    refine pduNext_frame.mpr ⟨?_, ?_, h3, ?_⟩
    · rw [List.length_append]; omega
    · rw [CImPdu.headerOf_append h1, h2]
    · rw [List.length_append]; omega
  bad_append b e h := by
    obtain ⟨h1, h2⟩ := pduNext_bad.mp h
    refine pduNext_bad.mpr ⟨?_, ?_⟩
    · rw [List.length_append]; omega
    · rw [CImPdu.headerOf_append h1]; exact h2

/-- The frames of `pduFraming` are the encoded PDUs. -/
theorem isPdu_take {b : Bytes} {n : Nat} (h : pduNext b = .frame n) : IsPdu (b.take n) := by
  obtain ⟨h1, h2, h3, h4⟩ := pduNext_frame.mp h
  have hlen : (b.take n).length = n := by simpa using h4
  exact ⟨by omega, by rw [CImPdu.headerOf_take h3, h2, hlen]⟩

theorem IsPdu.next {p : Bytes} (hp : IsPdu p) (e : Bytes) :
    pduNext (p ++ e) = .frame p.length := by
  refine pduNext_frame.mpr ⟨?_, ?_, hp.le, ?_⟩
  · have := hp.le
    rw [List.length_append]
    omega
  · rw [CImPdu.headerOf_append hp.le, hp.length]
  · rw [List.length_append]
    omega

/-- A proper prefix of a PDU waits for the rest. -/
theorem next_of_prefix {p t : Bytes} (hp : IsPdu p) (ht : t <+: p) (hne : t ≠ p) :
    pduNext t = .more := by
  obtain ⟨e, rfl⟩ := ht
  have he : 0 < e.length := by
    rw [List.length_pos_iff]
    rintro rfl
    exact hne (List.append_nil t).symm
  unfold pduNext
  by_cases h16 : t.length < 16
  · rw [if_pos h16]
  · have hlen := hp.length
    rw [CImPdu.headerOf_append (Nat.le_of_not_lt h16)] at hlen
    rw [if_neg h16, hlen, List.length_append, if_neg (by omega), if_pos (by omega)]

/-- Some number of PDUs into the stream `b`, a header with the length field `n` begins. -/
def AtBoundary (b : Bytes) (n : Nat) : Prop :=
  ∃ (ps : List Bytes) (rest : Bytes), (∀ p ∈ ps, IsPdu p) ∧ b = ps.flatten ++ rest ∧
    16 ≤ rest.length ∧ (CImPdu.headerOf rest).length.toNat = n

/-- No frame of the stream claims to be shorter than a header, except to be empty. -/
def NoShort (b : Bytes) : Prop := ∀ n, AtBoundary b n → ¬ (0 < n ∧ n < 16)

theorem AtBoundary.append {b : Bytes} {n : Nat} (h : AtBoundary b n) (e : Bytes) :
    AtBoundary (b ++ e) n := by
  obtain ⟨ps, rest, hps, rfl, h16, hn⟩ := h
  refine ⟨ps, rest ++ e, hps, List.append_assoc .., ?_, ?_⟩
  · rw [List.length_append]
    omega
  · rw [CImPdu.headerOf_append h16, hn]

theorem AtBoundary.behind {b : Bytes} {n : Nat} (h : AtBoundary b n) {ps : List Bytes}
    (hps : ∀ p ∈ ps, IsPdu p) : AtBoundary (ps.flatten ++ b) n := by
  obtain ⟨qs, rest, hqs, rfl, h16, hn⟩ := h
  refine ⟨ps ++ qs, rest, ?_, by simp, h16, hn⟩
  intro p hp
  cases List.mem_append.mp hp with
  | inl hp => exact hps p hp
  | inr hp => exact hqs p hp

theorem NoShort.left {b e : Bytes} (h : NoShort (b ++ e)) : NoShort b :=
  fun n hn => h n (hn.append e)

theorem NoShort.right {ps : List Bytes} {b : Bytes} (hps : ∀ p ∈ ps, IsPdu p)
    (h : NoShort (ps.flatten ++ b)) : NoShort b :=
  fun n hn => h n (hn.behind hps)

theorem noShort_frames {ps : List Bytes} {t : Bytes} (hps : ∀ p ∈ ps, IsPdu p)
    (ht : pduNext t = .more) : NoShort (ps.flatten ++ t) := by
  rintro n ⟨qs, rest, hqs, hcat, h16, hn⟩ ⟨hpos, hlt⟩
  -- follow the two decompositions together; the first frame of both is the same
  induction ps generalizing qs with
  | nil =>
    cases qs with
    | nil =>
      rw [List.flatten_nil, List.nil_append] at hcat
      rw [show t = rest from hcat] at ht
      have hbad := pduNext_bad.mpr ⟨h16, by omega⟩
      rw [ht] at hbad
      cases hbad
    | cons q qs =>
      have hq := (hqs q (by simp)).next (qs.flatten ++ rest)
      rw [← List.append_assoc, ← List.flatten_cons, ← hcat] at hq
      rw [show pduNext t = _ from hq] at ht
      cases ht
  | cons p ps ih =>
    have hp := (hps p (by simp)).next (ps.flatten ++ t)
    rw [← List.append_assoc, ← List.flatten_cons, hcat] at hp
    cases qs with
    | nil =>
      have hbad : pduNext rest = .bad := pduNext_bad.mpr ⟨h16, by omega⟩
      rw [List.flatten_nil, List.nil_append, hbad] at hp
      cases hp
    | cons q qs =>
      have hq := (hqs q (by simp)).next (qs.flatten ++ rest)
      rw [← List.append_assoc, ← List.flatten_cons, hp] at hq
      have hlen : p.length = q.length := by injection hq
      rw [List.flatten_cons, List.flatten_cons, List.append_assoc, List.append_assoc] at hcat
      obtain ⟨-, hrest⟩ := List.append_inj hcat hlen
      exact ih (fun r hr => hps r (by simp [hr])) qs (fun r hr => hqs r (by simp [hr])) hrest

/-! ## The buffer -/

section Recv

variable (fill : Nat → UInt8) {b : CSimpleBuffer}

theorem makeFree_spec (hb : b.Ok) (h : b.writeOffset + readBufSize < 3 * 2 ^ 30) :
    (makeFree fill b).Ok ∧ (makeFree fill b).contents = b.contents ∧
      (makeFree fill b).writeOffset = b.writeOffset ∧
      b.writeOffset + readBufSize ≤ (makeFree fill b).mem.length := by
  have hle := hb.offset_le
  have hlt := hb.size_lt
  have hfits := CSimpleBuffer.fits_of_lt h
  unfold makeFree CSimpleBuffer.getAllocSize CSimpleBuffer.getWriteOffset
  dsimp only
  split
  · refine ⟨CSimpleBuffer.ok_extend fill hfits, CSimpleBuffer.contents_extend fill hb hfits, rfl,
      ?_⟩
    rw [CSimpleBuffer.length_extend fill hfits]
    omega
  · exact ⟨hb, rfl, rfl, by omega⟩

theorem store_spec (c : Chunk) (hb : b.Ok) (h : b.writeOffset + readBufSize ≤ b.mem.length) :
    (store b c).Ok ∧ (store b c).contents = b.contents ++ c.data := by
  have hc := c.le
  obtain ⟨hok, hcon, -⟩ := CSimpleBuffer.incWriteOffset_spec hb (Nat.le_refl c.data.length)
    (show b.writeOffset + c.data.length ≤ b.mem.length by omega)
  rw [List.take_length] at hcon
  exact ⟨hok, hcon⟩

theorem recvChunk_spec (c : Chunk) (hb : b.Ok) (h : b.writeOffset + readBufSize < 3 * 2 ^ 30) :
    (recvChunk fill b c).Ok ∧ (recvChunk fill b c).contents = b.contents ++ c.data := by
  obtain ⟨hok, hcon, hoff, hroom⟩ := makeFree_spec fill hb h
  rw [← hoff] at hroom
  obtain ⟨hok', hcon'⟩ := store_spec c hok hroom
  rw [hcon] at hcon'
  exact ⟨hok', hcon'⟩

/-- The bytes a list of `netlib_recv` results stores. -/
def bytesOf (cs : List Chunk) : Bytes := cs.flatMap Chunk.data

theorem recvLoop_spec (cs : List Chunk) (hb : b.Ok)
    (h : b.writeOffset + (bytesOf cs).length + readBufSize < 3 * 2 ^ 30) :
    (recvLoop fill b cs).Ok ∧ (recvLoop fill b cs).contents = b.contents ++ bytesOf cs := by
  induction cs generalizing b with
  | nil =>
    obtain ⟨hok, hcon, -⟩ := makeFree_spec fill hb (by simpa [bytesOf] using h)
    refine ⟨hok, ?_⟩
    rw [bytesOf, List.flatMap_nil, List.append_nil]
    exact hcon
  | cons c cs ih =>
    rw [bytesOf, List.flatMap_cons, List.length_append] at h
    obtain ⟨hok, hcon⟩ := recvChunk_spec fill c hb (by omega)
    have hoff : (recvChunk fill b c).writeOffset = b.writeOffset + c.data.length := by
      rw [← CSimpleBuffer.length_contents hok, hcon, List.length_append,
        CSimpleBuffer.length_contents hb]
    obtain ⟨hok', hcon'⟩ := ih hok (by rw [hoff, bytesOf]; omega)
    refine ⟨hok', ?_⟩
    rw [bytesOf, List.flatMap_cons, ← List.append_assoc, ← hcon]
    exact hcon'

end Recv

/-! ## The two loops over the buffered PDUs -/

section Dispatch

variable {σ : Type}

/-- The connection after the loop ended for the reason given, if for one. -/
def statusOf : Option (Halt Stop) → ConnStatus
  | none => .live
  | some .bad => .closed
  | some (.stopped (.threw _)) => .closed
  | some (.stopped .nullDeref) => .crashed

/-- The state agrees with the outcome of `drive`; the buffer matters only while the connection
    is live. -/
structure Refines (s : In σ) (r : σ × Bytes × Option (Halt Stop)) : Prop where
  world : s.world = r.1
  status : s.status = statusOf r.2.2
  buffer : r.2.2 = none → s.inBuf.Ok ∧ s.inBuf.contents = r.2.1

/-- What `IsPduAvailable` answers on a buffer, by the verdict on its contents. -/
theorem isPduAvailable_of_next {b : CSimpleBuffer} (hb : b.Ok) (hshort : NoShort b.contents) :
    match pduNext b.contents with
    | .more => CImPdu.isPduAvailable b.mem b.getWriteOffset = .ok none
    | .bad => ∃ e, CImPdu.isPduAvailable b.mem b.getWriteOffset = .error e
    | .frame n => CImPdu.isPduAvailable b.mem b.getWriteOffset = .ok (some n) := by
  have hlen := CSimpleBuffer.length_contents hb
  have hoff : b.getWriteOffset = b.writeOffset := rfl
  by_cases h16 : b.writeOffset < 16
  · have hmore : pduNext b.contents = .more := if_pos (by omega)
    rw [hmore]
    exact if_pos h16
  · have h16' : imPduHeaderLen ≤ b.getWriteOffset := Nat.le_of_not_lt h16
    have hhead : CImPdu.headerOf b.contents = CImPdu.headerOf b.mem := CImPdu.headerOf_take h16'
    have hfield := hshort (CImPdu.headerOf b.contents).length.toNat
      ⟨[], b.contents, by simp, rfl, by omega, rfl⟩
    have hn : (CImPdu.headerOf b.mem).length.toNat = (CImPdu.headerOf b.contents).length.toNat := by
      rw [hhead]
    rw [CImPdu.isPduAvailable_of_le h16' hn]
    cases hnext : pduNext b.contents with
    | more =>
      rw [pduNext, if_neg (by omega)] at hnext
      split at hnext
      · cases hnext
      · split at hnext
        · exact if_pos (by omega)
        · cases hnext
    | bad =>
      obtain ⟨-, hlt⟩ := pduNext_bad.mp hnext
      rw [if_neg (by omega), if_pos (by omega)]
      exact ⟨_, rfl⟩
    | frame n =>
      obtain ⟨-, rfl, hge, hle⟩ := pduNext_frame.mp hnext
      dsimp only
      rw [if_neg (by omega), if_neg (by omega)]

/-- The object `ReadPdu` makes of the encoded PDU `f`. -/
def carrier (fill : Nat → UInt8) (f : Bytes) : CImPdu :=
  ⟨CSimpleBuffer.empty.write fill (some f) f.length, CImPdu.headerOf f⟩

theorem readPdu_carrier (fill : Nat → UInt8) {buf : Bytes} {len n : Nat}
    (h : CImPdu.isPduAvailable buf len = .ok (some n)) (h16 : 16 ≤ n) (hn : n ≤ buf.length) :
    CImPdu.readPdu fill buf len = .ok (some (carrier fill (buf.take n))) := by
  rw [CImPdu.readPdu_of_available fill h, CSimpleBuffer.write_take fill _ hn, carrier,
    CImPdu.headerOf_take h16]

/-- `HandlePdu` on the object made of a frame. -/
def onFrame (H : Handler σ) (w : σ) (f : Bytes) : σ × Option Stop :=
  ((H.handlePdu w (carrier (H.heap w) f)).1,
    (H.handlePdu w (carrier (H.heap w) f)).2.map Stop.threw)

/-- A consumed frame leaves a buffer that still has no short frame. -/
theorem noShort_read {b : CSimpleBuffer} (hb : b.Ok) (hshort : NoShort b.contents) {n : Nat}
    (hn : pduNext b.contents = .frame n) : NoShort (b.read n).2.contents := by
  have hframe : ∀ p ∈ [b.contents.take n], IsPdu p := by
    intro p hp
    rw [List.mem_singleton.mp hp]
    exact isPdu_take hn
  rw [CSimpleBuffer.contents_read hb]
  refine NoShort.right hframe ?_
  rw [List.flatten_singleton, List.take_append_drop]
  exact hshort

theorem dispatch_more {H : Handler σ} {s : In σ}
    (h : CImPdu.isPduAvailable s.inBuf.mem s.inBuf.getWriteOffset = .ok none) :
    dispatch H s = s := by
  have hread := CImPdu.readPdu_of_unavailable (H.heap s.world) h
  rw [dispatch]
  split
  · rename_i hr; rw [hread] at hr; cases hr
  · rfl
  · rename_i hr; rw [hread] at hr; cases hr

theorem dispatch_bad {H : Handler σ} {s : In σ} {e : CPduException}
    (h : CImPdu.isPduAvailable s.inBuf.mem s.inBuf.getWriteOffset = .error e) :
    dispatch H s = { s with status := .closed } := by
  have hread := CImPdu.readPdu_of_error (H.heap s.world) h
  rw [dispatch]
  split
  · rfl
  · rename_i hr; rw [hread] at hr; cases hr
  · rename_i hr; rw [hread] at hr; cases hr

theorem dispatch_frame {H : Handler σ} {s : In σ} {p : CImPdu}
    (h : CImPdu.readPdu (H.heap s.world) s.inBuf.mem s.inBuf.getWriteOffset = .ok (some p)) :
    dispatch H s =
      match H.handlePdu s.world p with
      | (w, some _) => { s with world := w, status := .closed }
      | (w, none) => dispatch H { s with world := w, inBuf := (s.inBuf.read p.getLength).2 } := by
  rw [dispatch]
  split
  · rename_i hr; rw [h] at hr; cases hr
  · rename_i hr; rw [h] at hr; cases hr
  · rename_i q hr
    rw [h] at hr
    cases hr
    rfl

/-- One turn of a loop over the input buffer, on the bytes of a PDU that are there. -/
structure Dispatches (loop : In σ → In σ) (f : σ → Bytes → σ × Option Stop) : Prop where
  more : ∀ {s}, CImPdu.isPduAvailable s.inBuf.mem s.inBuf.getWriteOffset = .ok none → loop s = s
  bad : ∀ {s e}, CImPdu.isPduAvailable s.inBuf.mem s.inBuf.getWriteOffset = .error e →
    loop s = { s with status := .closed }
  passed : ∀ {s n w}, CImPdu.isPduAvailable s.inBuf.mem s.inBuf.getWriteOffset = .ok (some n) →
    16 ≤ n → n ≤ s.inBuf.mem.length → f s.world (s.inBuf.mem.take n) = (w, none) →
    loop s = loop { s with world := w, inBuf := (s.inBuf.read n).2 }
  stopped : ∀ {s n w stop},
    CImPdu.isPduAvailable s.inBuf.mem s.inBuf.getWriteOffset = .ok (some n) →
    16 ≤ n → n ≤ s.inBuf.mem.length → f s.world (s.inBuf.mem.take n) = (w, some stop) →
    loop s = { s with world := w, status := statusOf (some (.stopped stop)) }

/-- Such a loop refines `drive`, over the buffered bytes. -/
theorem Dispatches.refines {loop : In σ → In σ} {f : σ → Bytes → σ × Option Stop}
    (hloop : Dispatches loop f) {s : In σ} (hlive : s.status = .live) (hb : s.inBuf.Ok)
    (hshort : NoShort s.inBuf.contents) :
    Refines (loop s) (pduFraming.drive f s.world s.inBuf.contents) := by
  induction hn : s.inBuf.writeOffset using Nat.strongRecOn generalizing s with
  | ind k ih =>
    have hav := isPduAvailable_of_next hb hshort
    cases hnext : pduNext s.inBuf.contents with
    | more =>
      rw [hnext] at hav
      rw [hloop.more hav, Framing.drive_more hnext]
      exact ⟨rfl, hlive, fun _ => ⟨hb, rfl⟩⟩
    | bad =>
      rw [hnext] at hav
      obtain ⟨e, hav⟩ := hav
      rw [hloop.bad hav, Framing.drive_bad hnext]
      exact ⟨rfl, rfl, fun h => by cases h⟩
    | frame n =>
      rw [hnext] at hav
      obtain ⟨-, -, hge, hle⟩ := pduNext_frame.mp hnext
      have hlen := CSimpleBuffer.length_contents hb
      have hmem := hb.offset_le
      have htake : s.inBuf.contents.take n = s.inBuf.mem.take n := by
        rw [CSimpleBuffer.contents, List.take_take, Nat.min_eq_left (by omega)]
      rw [Framing.drive_frame hnext, htake]
      cases hhandle : f s.world (s.inBuf.mem.take n) with
      | mk w stop =>
        cases stop with
        | some stop =>
          rw [hloop.stopped hav hge (by omega) hhandle]
          exact ⟨rfl, rfl, fun h => by cases h⟩
        | none =>
          rw [hloop.passed hav hge (by omega) hhandle]
          have hrest := ih (s.inBuf.writeOffset - n) (by omega)
            (s := { s with world := w, inBuf := (s.inBuf.read n).2 }) hlive
            (CSimpleBuffer.ok_read hb n) (noShort_read hb hshort hnext)
            (CSimpleBuffer.writeOffset_read s.inBuf n)
          rw [CSimpleBuffer.contents_read hb] at hrest
          exact hrest

/-- `CImConn::OnRead`, one turn. -/
theorem dispatches_dispatch (H : Handler σ) : Dispatches (dispatch H) (onFrame H) where
  more h := dispatch_more h
  bad h := dispatch_bad h
  passed {s n w} hav hge hle hhandle := by
    have hread := readPdu_carrier (H.heap s.world) hav hge hle
    obtain ⟨m, hav', -, hm⟩ := CImPdu.readPdu_some hread
    cases hav.symm.trans hav'
    rw [onFrame] at hhandle
    rw [dispatch_frame hread, hm]
    cases hpdu : H.handlePdu s.world (carrier (H.heap s.world) (s.inBuf.mem.take n)) with
    | mk w' e =>
      rw [hpdu] at hhandle
      cases e with
      | some e => cases hhandle
      | none =>
        cases hhandle
        rfl
  stopped {s n w stop} hav hge hle hhandle := by
    have hread := readPdu_carrier (H.heap s.world) hav hge hle
    rw [onFrame] at hhandle
    rw [dispatch_frame hread]
    cases hpdu : H.handlePdu s.world (carrier (H.heap s.world) (s.inBuf.mem.take n)) with
    | mk w' e =>
      rw [hpdu] at hhandle
      cases e with
      | some e =>
        cases hhandle
        rfl
      | none => cases hhandle

theorem dispatchBuf_more {f : σ → Bytes → σ × Option Stop} {s : In σ}
    (h : CImPdu.isPduAvailable s.inBuf.mem s.inBuf.getWriteOffset = .ok none) :
    PtpCore.Server.CBusinessSrvConn.dispatch f s = s := by
  rw [PtpCore.Server.CBusinessSrvConn.dispatch]
  split
  · rename_i hr; rw [h] at hr; cases hr
  · rfl
  · rename_i hr; rw [h] at hr; cases hr

theorem dispatchBuf_bad {f : σ → Bytes → σ × Option Stop} {s : In σ} {e : CPduException}
    (h : CImPdu.isPduAvailable s.inBuf.mem s.inBuf.getWriteOffset = .error e) :
    PtpCore.Server.CBusinessSrvConn.dispatch f s = { s with status := .closed } := by
  rw [PtpCore.Server.CBusinessSrvConn.dispatch]
  split
  · rfl
  · rename_i hr; rw [h] at hr; cases hr
  · rename_i hr; rw [h] at hr; cases hr

theorem dispatchBuf_frame {f : σ → Bytes → σ × Option Stop} {s : In σ} {n : Nat}
    (h : CImPdu.isPduAvailable s.inBuf.mem s.inBuf.getWriteOffset = .ok (some n)) :
    PtpCore.Server.CBusinessSrvConn.dispatch f s =
      match f s.world (s.inBuf.mem.take n) with
      | (w, some (.threw _)) => { s with world := w, status := .closed }
      | (w, some .nullDeref) => { s with world := w, status := .crashed }
      | (w, none) =>
        PtpCore.Server.CBusinessSrvConn.dispatch f
          { s with world := w, inBuf := (s.inBuf.read n).2 } := by
  rw [PtpCore.Server.CBusinessSrvConn.dispatch]
  split
  · rename_i hr; rw [h] at hr; cases hr
  · rename_i hr; rw [h] at hr; cases hr
  · rename_i m hr
    rw [h] at hr
    cases hr
    rfl

/-- `CBusinessSrvConn::OnRead`, one turn. -/
theorem dispatches_dispatchBuf (f : σ → Bytes → σ × Option Stop) :
    Dispatches (PtpCore.Server.CBusinessSrvConn.dispatch f) f where
  more h := dispatchBuf_more h
  bad h := dispatchBuf_bad h
  passed hav _ _ hhandle := by rw [dispatchBuf_frame hav, hhandle]
  stopped {s n w stop} hav _ _ hhandle := by
    rw [dispatchBuf_frame hav, hhandle]
    cases stop with
    | threw e => rfl
    | nullDeref => rfl

end Dispatch

/-! ## Read events -/

section Runs

variable {σ : Type} {onRead : In σ → List Chunk → In σ} {f : σ → Bytes → σ × Option Stop}

/-- The bytes held and the bytes that arrive stay in the range of the buffer's `uint32_t`. -/
def InRange (held arriving : Bytes) : Prop :=
  held.length + arriving.length + readBufSize < 3 * 2 ^ 30

/-- What is shared by the two `OnRead`: on a live connection, they handle the frames of the bytes
    held and the bytes that arrive. -/
def Reads (onRead : In σ → List Chunk → In σ) (f : σ → Bytes → σ × Option Stop) : Prop :=
  ∀ s cs, s.status = .live → s.inBuf.Ok → InRange s.inBuf.contents (bytesOf cs) →
    NoShort (s.inBuf.contents ++ bytesOf cs) →
    Refines (onRead s cs) (pduFraming.drive f s.world (s.inBuf.contents ++ bytesOf cs))

theorem reads_onRead (H : Handler σ) : Reads (CImConn.onRead H) (onFrame H) := by
  intro s cs hlive hb hrange hshort
  rw [InRange, CSimpleBuffer.length_contents hb] at hrange
  obtain ⟨hok, hcon⟩ := recvLoop_spec (H.heap s.world) cs hb hrange
  rw [← hcon] at hshort ⊢
  exact (dispatches_dispatch H).refines
    (s := { s with inBuf := recvLoop (H.heap s.world) s.inBuf cs }) hlive hok hshort

theorem reads_onReadBuf (heap : σ → Nat → UInt8) (f : σ → Bytes → σ × Option Stop) :
    Reads (PtpCore.Server.CBusinessSrvConn.onRead heap f) f := by
  intro s cs hlive hb hrange hshort
  rw [InRange, CSimpleBuffer.length_contents hb] at hrange
  obtain ⟨hok, hcon⟩ := recvLoop_spec (heap s.world) cs hb hrange
  rw [← hcon] at hshort ⊢
  exact (dispatches_dispatchBuf f).refines
    (s := { s with inBuf := recvLoop (heap s.world) s.inBuf cs }) hlive hok hshort

/-- What a loop that ends waiting for more leaves behind is shorter, has no frame at its front,
    and no short frame further on. -/
theorem rest_spec {w w' : σ} {b r e : Bytes}
    (hd : pduFraming.drive f w b = (w', r, none)) (hshort : NoShort (b ++ e)) :
    NoShort (r ++ e) ∧ pduNext r = .more ∧ r.length ≤ b.length := by
  obtain ⟨fs, rfl, hmore, hfs⟩ := Framing.drive_cut hd
  rw [List.append_assoc] at hshort
  refine ⟨NoShort.right ?_ hshort, hmore, by rw [List.length_append]; omega⟩
  intro p hp
  obtain ⟨b', n, hn, rfl⟩ := hfs p hp
  exact isPdu_take hn

theorem run_of_not_live {s : In σ} (h : s.status ≠ .live) (css : List (List Chunk)) :
    css.foldl (readEvent onRead) s = s := by
  induction css with
  | nil => rfl
  | cons cs css ih =>
    have hstay : readEvent onRead s cs = s := by
      unfold readEvent
      split
      · rename_i hl; exact absurd hl h
      · rfl
    rw [List.foldl_cons, hstay, ih]

/-- Over any number of read events, and however the bytes are cut: the frames of all of them. -/
theorem refines_run (hread : Reads onRead f) {s : In σ} (css : List (List Chunk))
    (hlive : s.status = .live) (hb : s.inBuf.Ok) (hmore : pduNext s.inBuf.contents = .more)
    (hrange : InRange s.inBuf.contents (css.flatMap bytesOf))
    (hshort : NoShort (s.inBuf.contents ++ css.flatMap bytesOf)) :
    Refines (css.foldl (readEvent onRead) s)
      (pduFraming.drive f s.world (s.inBuf.contents ++ css.flatMap bytesOf)) := by
  induction css generalizing s with
  | nil =>
    rw [List.flatMap_nil, List.append_nil, Framing.drive_more hmore]
    exact ⟨rfl, hlive, fun _ => ⟨hb, rfl⟩⟩
  | cons cs css ih =>
    rw [List.flatMap_cons, ← List.append_assoc] at hshort ⊢
    rw [InRange, List.flatMap_cons, List.length_append] at hrange
    have h1 := hread s cs hlive hb (by rw [InRange]; omega) hshort.left
    have hstep : readEvent onRead s cs = onRead s cs := by
      unfold readEvent
      rw [hlive]
    rw [List.foldl_cons, hstep, Framing.drive_append]
    cases hd : pduFraming.drive f s.world (s.inBuf.contents ++ bytesOf cs) with
    | mk w r' =>
      obtain ⟨r, h⟩ := r'
      rw [hd] at h1
      cases h with
      | none =>
        obtain ⟨hok, hcon⟩ := h1.buffer rfl
        obtain ⟨hrest, hmore', hle⟩ := rest_spec hd hshort
        have hw := h1.world
        dsimp only at hw hcon
        rw [← hcon] at hrest hmore' hle ⊢
        rw [← hw]
        rw [List.length_append] at hle
        exact ih h1.status hok hmore' (by rw [InRange]; omega) hrest
      | some h =>
        rw [run_of_not_live (by rw [h1.status]; cases h with
          | bad => simp [statusOf]
          | stopped t => cases t <;> simp [statusOf])]
        exact ⟨h1.world, h1.status, fun h => by cases h⟩

end Runs

end CImConn

end Global
end Proof
end PtpCore
