import PtpCore.Proof.Global.ImConnRead

/-!
# What the handlers get to see

The two statements about receiving, over whole runs of read events on a fresh connection.

`onRead_frames`: a stream of encoded PDUs with the beginning of a further one, cut into
`netlib_recv` results and read events in any way, reaches `HandlePdu` as those PDUs, in order,
and the beginning stays in the buffer. `HandlePduBuf` of the business server gets the same bytes.
A handler that throws ends the delivery, in both.

`handed_complete`: in a run of read events none of which meets a length field from 1 to 15 at a
frame boundary, no handler gets a PDU without a whole header, and the length 0 closes the
connection. With such a field, the first kind of connection hands over a PDU whose
`GetBodyLength` wraps, and the second one dereferences a null pointer (`not_safe_lengthOne`).
-/

namespace PtpCore
namespace Proof
namespace Global

open Lib
open PtpCore.Global
open PtpCore.Server (Stop CProxyTask)

namespace CImConn

open PtpCore.Global.CImConn
open PtpCore.Server.CBusinessSrvConn (handlePduBuf Pool)

variable {σ : Type}

/-- A connection that has received nothing, around the state `w`. -/
def fresh (w : σ) : In σ := ⟨.empty, w, .live⟩

/-! ## Exactly the PDUs that were sent -/

/-- The object holds the encoded PDU `f`, and the header `f` begins with. -/
structure Carries (p : CImPdu) (f : Bytes) : Prop where
  contents : p.buf.contents = f
  length : p.getLength = f.length
  header : p.header = CImPdu.headerOf f

theorem carries_carrier (fill : Nat → UInt8) {f : Bytes} (hf : f.length < 3 * 2 ^ 30) :
    Carries (carrier fill f) f := by
  have hfits : CSimpleBuffer.Fits (CSimpleBuffer.empty.writeOffset + f.length) := by
    rw [show CSimpleBuffer.empty.writeOffset = 0 from rfl, Nat.zero_add]
    exact CSimpleBuffer.fits_of_lt hf
  obtain ⟨hok, hcon⟩ := CSimpleBuffer.write_spec fill CSimpleBuffer.ok_empty hfits
  rw [CSimpleBuffer.contents_empty, List.nil_append] at hcon
  refine ⟨hcon, ?_, rfl⟩
  have hlen := CSimpleBuffer.length_contents hok
  rw [hcon] at hlen
  exact hlen.symm

/-- One call of `HandlePdu`. -/
def call (H : Handler σ) (w : σ) (p : CImPdu) : σ × Option Stop :=
  ((H.handlePdu w p).1, (H.handlePdu w p).2.map Stop.threw)

/-- Handling frames is calling `HandlePdu` with objects that carry them. -/
theorem deliver_carriers (H : Handler σ) (w : σ) {ps : List Bytes}
    (hps : ∀ p ∈ ps, p.length < 3 * 2 ^ 30) :
    ∃ handed, List.Forall₂ Carries handed ps ∧
      Framing.deliver (call H) w handed = Framing.deliver (onFrame H) w ps := by
  induction ps generalizing w with
  | nil => exact ⟨[], .nil, rfl⟩
  | cons p ps ih =>
    have hp := carries_carrier (H.heap w) (hps p (by simp))
    obtain ⟨handed, hcar, hdel⟩ := ih (onFrame H w p).1 fun q hq => hps q (by simp [hq])
    refine ⟨carrier (H.heap w) p :: handed, .cons hp hcar, ?_⟩
    have hcall : call H w (carrier (H.heap w) p) = onFrame H w p := rfl
    rw [Framing.deliver, Framing.deliver, hcall]
    cases hc : onFrame H w p with
    | mk w' t =>
      rw [hc] at hdel
      cases t with
      | some t => rfl
      | none => exact hdel

/-- The connection has made the calls whose outcome is `r`; if all returned, `t` is left. -/
structure EndsAs (s : In σ) (r : σ × Option Stop) (t : Bytes) : Prop where
  world : s.world = r.1
  status : s.status = statusOf (r.2.map .stopped)
  left : r.2 = none → s.inBuf.contents = t

theorem endsAs_run {onRead : In σ → List Chunk → In σ} {f : σ → Bytes → σ × Option Stop}
    (hread : Reads onRead f) (w : σ) {ps : List Bytes} {t : Bytes} {css : List (List Chunk)}
    (hps : ∀ p ∈ ps, IsPdu p) (ht : pduNext t = .more)
    (hbytes : css.flatMap bytesOf = ps.flatten ++ t) (hsize : (ps.flatten ++ t).length < 2 ^ 31) :
    EndsAs (css.foldl (readEvent onRead) (fresh w)) (Framing.deliver f w ps) t := by
  have hrange : InRange (fresh w).inBuf.contents (css.flatMap bytesOf) := by
    have hnil : (fresh w).inBuf.contents.length = 0 := rfl
    rw [InRange, hbytes, hnil, readBufSize]
    omega
  have hrun := refines_run hread (s := fresh w) css rfl CSimpleBuffer.ok_empty rfl hrange
    (by rw [hbytes]; exact noShort_frames hps ht)
  rw [hbytes, show (fresh w).inBuf.contents = [] from rfl, List.nil_append] at hrun
  obtain ⟨hall, hstop⟩ := Framing.drive_frames pduFraming f w t
    fun p hp e => (hps p hp).next e
  cases hdel : Framing.deliver f w ps with
  | mk w' x =>
    cases x with
    | none =>
      rw [show (fresh w).world = w from rfl, hall w' hdel, Framing.drive_more ht] at hrun
      exact ⟨hrun.world, hrun.status, fun _ => (hrun.buffer rfl).2⟩
    | some x =>
      obtain ⟨r, hr⟩ := hstop w' x hdel
      rw [show (fresh w).world = w from rfl, hr] at hrun
      exact ⟨hrun.world, hrun.status, fun h => by cases h⟩

theorem length_le_flatten {ps : List Bytes} {p : Bytes} (hp : p ∈ ps) :
    p.length ≤ ps.flatten.length := by
  obtain ⟨as, bs, rfl⟩ := List.append_of_mem hp
  simp only [List.flatten_append, List.flatten_cons, List.length_append]
  omega

/-- `ps` are the encoded PDUs, `t` the beginning of a further one `q`, and `css` the results of
    `netlib_recv`, by read event. -/
theorem onRead_frames (H : Handler σ) (heap : σ → Nat → UInt8) (f : σ → Bytes → σ × Option Stop)
    (w : σ) {ps : List Bytes} {q t : Bytes} {css : List (List Chunk)} (hps : ∀ p ∈ ps, IsPdu p)
    (hq : IsPdu q) (ht : t <+: q) (hne : t ≠ q) (hbytes : css.flatMap bytesOf = ps.flatten ++ t)
    (hsize : (ps.flatten ++ t).length < 2 ^ 31) :
    (∃ handed, List.Forall₂ Carries handed ps ∧
        EndsAs (css.foldl (readEvent (onRead H)) (fresh w)) (Framing.deliver (call H) w handed) t) ∧
      EndsAs (css.foldl (readEvent (PtpCore.Server.CBusinessSrvConn.onRead heap f)) (fresh w))
        (Framing.deliver f w ps) t := by
  have hmore := next_of_prefix hq ht hne
  constructor
  · have hfits : ∀ p ∈ ps, p.length < 3 * 2 ^ 30 := by
      intro p hp
      have hle := length_le_flatten hp
      rw [List.length_append] at hsize
      omega
    obtain ⟨handed, hcar, hdel⟩ := deliver_carriers H w hfits
    refine ⟨handed, hcar, ?_⟩
    rw [hdel]
    exact endsAs_run (reads_onRead H) w hps hmore hbytes hsize
  · exact endsAs_run (reads_onReadBuf heap f) w hps hmore hbytes hsize

/-- A heartbeat: a header and no body. -/
def heartbeat : Bytes := [0, 0, 0, 16, 0, 1, 0, 0, 7, 1, 0, 0, 0, 0, 0, 0]

theorem isPdu_heartbeat : IsPdu heartbeat := ⟨by decide, by decide⟩

/-- A handler that counts. -/
def counter : Handler Nat where
  heap _ _ := 0
  handlePdu w _ := (w + 1, none)

/-- A heartbeat and three bytes of the next one, cut after the tenth byte, in two read events. -/
def cutHeartbeat : List (List Chunk) :=
  [[⟨heartbeat.take 10, by decide, by decide⟩],
    [⟨heartbeat.drop 10 ++ heartbeat.take 3, by decide, by decide⟩]]

theorem onRead_frames_heartbeat :
    (cutHeartbeat.foldl (readEvent (onRead counter)) (fresh 0)).world = 1 := by
  have hps : ∀ p ∈ [heartbeat], IsPdu p := by
    intro p hp
    rw [List.mem_singleton.mp hp]
    exact isPdu_heartbeat
  have hbytes : cutHeartbeat.flatMap bytesOf = [heartbeat].flatten ++ heartbeat.take 3 := by decide
  obtain ⟨⟨handed, hcar, hend⟩, -⟩ := onRead_frames counter (fun _ _ => 0)
    (fun w _ => (w + 1, none)) 0 hps isPdu_heartbeat (List.take_prefix 3 heartbeat) (by decide)
    hbytes (by decide)
  obtain _ | ⟨-, _ | _⟩ := hcar
  exact hend.world

/-! ## Nothing shorter than a header -/

/-- `H`, with the PDUs it was called with written down. -/
def logged (H : Handler σ) : Handler (σ × List CImPdu) where
  heap w := H.heap w.1
  handlePdu w p := (((H.handlePdu w.1 p).1, w.2 ++ [p]), (H.handlePdu w.1 p).2)

/-- `HandlePduBuf`, with the byte strings it was called with written down. -/
def loggedBuf (P : Pool σ) (hasHandler : UInt16 → Bool) (uuid : UInt32) (w : σ × List Bytes)
    (f : Bytes) : (σ × List Bytes) × Option Stop :=
  (((handlePduBuf P hasHandler uuid w.1 f).1, w.2 ++ [f]),
    (handlePduBuf P hasHandler uuid w.1 f).2)

/-- The read events of the two connections, with the log. -/
def readLogged (H : Handler σ) : In (σ × List CImPdu) → List Chunk → In (σ × List CImPdu) :=
  readEvent (onRead (logged H))

def readBufLogged (P : Pool σ) (hasHandler : UInt16 → Bool) (uuid : UInt32) :
    In (σ × List Bytes) → List Chunk → In (σ × List Bytes) :=
  readEvent (PtpCore.Server.CBusinessSrvConn.onRead (fun w => P.heap w.1)
    (loggedBuf P hasHandler uuid))

/-- The condition on a read event, at the state before it: the bytes held and those that arrive
    fit the buffer, and have no length field from 1 to 15 at a frame boundary. -/
def NoShortFrame (s : In σ) (cs : List Chunk) : Prop :=
  s.status = .live → InRange s.inBuf.contents (bytesOf cs) ∧
    NoShort (s.inBuf.contents ++ bytesOf cs)

/-- A length field below 16 at a frame boundary of what there is to read closes the connection. -/
def ClosesOnShort (s : In σ) (cs : List Chunk) (s' : In σ) : Prop :=
  s.status = .live → ∀ n, n < 16 → AtBoundary (s.inBuf.contents ++ bytesOf cs) n →
    s'.status = .closed

/-- The body of every PDU in the log is what follows its header. -/
def Whole (w : σ × List CImPdu) : Prop :=
  ∀ p ∈ w.2, 16 ≤ p.getLength ∧ p.getBodyLength = p.getLength - 16

def WholeBuf (w : σ × List Bytes) : Prop := ∀ f ∈ w.2, 16 ≤ f.length

/-- A read event of a `CImConn` does no harm. -/
def Safe (H : Handler σ) (s : In (σ × List CImPdu)) (cs : List Chunk) : Prop :=
  Whole (readLogged H s cs).world ∧ (readLogged H s cs).status ≠ .crashed ∧
    ClosesOnShort s cs (readLogged H s cs)

/-- A read event of a `CBusinessSrvConn` does no harm. -/
def SafeBuf (P : Pool σ) (hasHandler : UInt16 → Bool) (uuid : UInt32) (s : In (σ × List Bytes))
    (cs : List Chunk) : Prop :=
  WholeBuf (readBufLogged P hasHandler uuid s cs).world ∧
    (readBufLogged P hasHandler uuid s cs).status ≠ .crashed ∧
    ClosesOnShort s cs (readBufLogged P hasHandler uuid s cs)

/-- The loop does not get past a refused frame. -/
theorem halts_of_atBoundary {f : σ → Bytes → σ × Option Stop} {w : σ} {b : Bytes} {n : Nat}
    (h : AtBoundary b n) (hn : n < 16) : (pduFraming.drive f w b).2.2 ≠ none := by
  obtain ⟨ps, rest, hps, rfl, h16, hfield⟩ := h
  have hbad : pduNext rest = .bad := pduNext_bad.mpr ⟨h16, by omega⟩
  obtain ⟨hall, hstop⟩ := Framing.drive_frames pduFraming f w rest
    fun p hp e => (hps p hp).next e
  cases hdel : Framing.deliver f w ps with
  | mk w' x =>
    cases x with
    | none =>
      rw [hall w' hdel, Framing.drive_bad hbad]
      exact Option.some_ne_none _
    | some x =>
      obtain ⟨r, hr⟩ := hstop w' x hdel
      rw [hr]
      exact Option.some_ne_none _

/-- One read event of either connection: what the handler keeps is kept, and if the handler
    dereferences no null pointer on an encoded PDU, the connection does not crash and short
    frames close it. -/
theorem readEvent_spec {onRead : In σ → List Chunk → In σ} {f : σ → Bytes → σ × Option Stop}
    (hread : Reads onRead f) {P : σ → Prop} (hkeep : ∀ w p, P w → IsPdu p → P (f w p).1)
    (hnull : ∀ w p, IsPdu p → (f w p).2 ≠ some .nullDeref) (s : In σ) (cs : List Chunk)
    (hb : s.status = .live → s.inBuf.Ok) (hs : s.status ≠ .crashed) (hP : P s.world)
    (hm : NoShortFrame s cs) :
    ((readEvent onRead s cs).status = .live → (readEvent onRead s cs).inBuf.Ok) ∧
      (readEvent onRead s cs).status ≠ .crashed ∧ P (readEvent onRead s cs).world ∧
      ClosesOnShort s cs (readEvent onRead s cs) := by
  cases hlive : s.status with
  | closed =>
    have hstay : readEvent onRead s cs = s := by rw [readEvent, hlive]
    rw [hstay]
    exact ⟨hb, hs, hP, fun h => by rw [hlive] at h; cases h⟩
  | crashed => exact absurd hlive hs
  | live =>
    have hstep : readEvent onRead s cs = onRead s cs := by rw [readEvent, hlive]
    obtain ⟨hrange, hshort⟩ := hm hlive
    have href := hread s cs hlive (hb hlive) hrange hshort
    have hworld : P (pduFraming.drive f s.world (s.inBuf.contents ++ bytesOf cs)).1 :=
      Framing.drive_invariant (fun w b n hw hn => hkeep w _ hw (isPdu_take hn)) hP
    have hstop : ∀ t, (pduFraming.drive f s.world (s.inBuf.contents ++ bytesOf cs)).2.2 =
        some (.stopped t) → t ≠ .nullDeref := by
      intro t ht
      obtain ⟨w, b, n, hn, hf⟩ := Framing.drive_stopped ht
      rintro rfl
      exact hnull w _ (isPdu_take hn) hf
    rw [hstep]
    generalize hd : pduFraming.drive f s.world (s.inBuf.contents ++ bytesOf cs) = r at *
    obtain ⟨w, rest, halt⟩ := r
    have hst := href.status
    dsimp only at hst hworld hstop
    refine ⟨fun hl => ?_, ?_, by rw [href.world]; exact hworld, fun _ n hn hat => ?_⟩
    · cases halt with
      | none => exact (href.buffer rfl).1
      | some h =>
        rw [hl] at hst
        cases h with
        | bad => cases hst
        | stopped t => cases t <;> cases hst
    · rw [hst]
      cases halt with
      | none => simp [statusOf]
      | some h =>
        cases h with
        | bad => simp [statusOf]
        | stopped t =>
          cases t with
          | threw e => simp [statusOf]
          | nullDeref => exact absurd rfl (hstop _ rfl)
    · have hhalt := halts_of_atBoundary (f := f) (w := s.world) hat hn
      rw [hd] at hhalt
      rw [hst]
      cases halt with
      | none => exact absurd rfl hhalt
      | some h =>
        cases h with
        | bad => rfl
        | stopped t =>
          cases t with
          | threw e => rfl
          | nullDeref => exact absurd rfl (hstop _ rfl)

/-- The same over a run. -/
theorem eachStep_readEvent {onRead : In σ → List Chunk → In σ} {f : σ → Bytes → σ × Option Stop}
    (hread : Reads onRead f) {P : σ → Prop} (hkeep : ∀ w p, P w → IsPdu p → P (f w p).1)
    (hnull : ∀ w p, IsPdu p → (f w p).2 ≠ some .nullDeref) {w : σ} (hw : P w)
    {css : List (List Chunk)} (hrun : EachStep (readEvent onRead) NoShortFrame (fresh w) css) :
    EachStep (readEvent onRead) (fun s cs => P (readEvent onRead s cs).world ∧
      (readEvent onRead s cs).status ≠ .crashed ∧ ClosesOnShort s cs (readEvent onRead s cs))
      (fresh w) css := by
  have hstep := readEvent_spec hread hkeep hnull
  refine EachStep.of_invariant
    (fun s => (s.status = .live → s.inBuf.Ok) ∧ s.status ≠ .crashed ∧ P s.world) ?_ ?_
    ⟨fun _ => CSimpleBuffer.ok_empty, by simp [fresh], hw⟩ hrun
  · intro s cs ⟨hb, hs, hP⟩ hm
    obtain ⟨h1, h2, h3, -⟩ := hstep s cs hb hs hP hm
    exact ⟨h1, h2, h3⟩
  · intro s cs ⟨hb, hs, hP⟩ hm
    obtain ⟨-, h2, h3, h4⟩ := hstep s cs hb hs hP hm
    exact ⟨h3, h2, h4⟩

theorem getLength_carrier (fill : Nat → UInt8) {f : Bytes} (hf : IsPdu f) :
    (carrier fill f).getLength = f.length := by
  have hlt : f.length < 2 ^ 32 := by
    rw [← hf.length]
    exact UInt32.toNat_lt _
  simp only [carrier, CImPdu.getLength, CSimpleBuffer.getWriteOffset, CSimpleBuffer.write,
    CSimpleBuffer.writeOffset_makeRoom, CSimpleBuffer.empty, Nat.zero_add]
  exact Nat.mod_eq_of_lt hlt

theorem logged_keeps (H : Handler σ) (w : σ × List CImPdu) (f : Bytes) (hw : Whole w)
    (hf : IsPdu f) : Whole (onFrame (logged H) w f).1 := by
  intro p hp
  cases List.mem_append.mp hp with
  | inl hp => exact hw p hp
  | inr hp =>
    rw [List.mem_singleton.mp hp]
    have hlen := getLength_carrier ((logged H).heap w) hf
    have h16 := hf.le
    have hlt : f.length < 2 ^ 32 := by
      rw [← hf.length]
      exact UInt32.toNat_lt _
    refine ⟨by rw [hlen]; exact h16, ?_⟩
    rw [CImPdu.getBodyLength, ← CImPdu.getLength, hlen, imPduHeaderLen]
    omega

theorem onFrame_ne_nullDeref (H : Handler σ) (w : σ) (f : Bytes) :
    (onFrame H w f).2 ≠ some .nullDeref := by
  intro h
  cases hc : (H.handlePdu w (carrier (H.heap w) f)).2 with
  | none => rw [onFrame, hc] at h; cases h
  | some e => rw [onFrame, hc] at h; cases h

theorem loggedBuf_keeps (P : Pool σ) (hasHandler : UInt16 → Bool) (uuid : UInt32)
    (w : σ × List Bytes) (f : Bytes) (hw : WholeBuf w) (hf : IsPdu f) :
    WholeBuf (loggedBuf P hasHandler uuid w f).1 := by
  intro g hg
  cases List.mem_append.mp hg with
  | inl hg => exact hw g hg
  | inr hg => rw [List.mem_singleton.mp hg]; exact hf.le

/-- On an encoded PDU, `HandlePduBuf` has a PDU to work with. -/
theorem loggedBuf_ne_nullDeref (P : Pool σ) (hasHandler : UInt16 → Bool) (uuid : UInt32)
    (w : σ × List Bytes) (f : Bytes) (hf : IsPdu f) :
    (loggedBuf P hasHandler uuid w f).2 ≠ some .nullDeref := by
  have hpos := hf.le
  have hav : CImPdu.isPduAvailable f f.length = .ok (some f.length) := by
    rw [CImPdu.isPduAvailable_of_le hf.le hf.length, if_neg (Nat.lt_irrefl _), if_neg (by omega)]
  rw [loggedBuf, handlePduBuf, CImPdu.readPdu_of_available _ hav]
  dsimp only
  split
  · exact fun h => by cases h
  · split <;> exact fun h => by cases h

/-- Runs of read events that meet no length field from 1 to 15 at a frame boundary, on both kinds
    of connection. -/
theorem handed_complete (H : Handler σ) (P : Pool σ) (hasHandler : UInt16 → Bool) (uuid : UInt32)
    (w : σ) (css : List (List Chunk)) :
    (EachStep (readLogged H) NoShortFrame (fresh (w, [])) css →
        EachStep (readLogged H) (Safe H) (fresh (w, [])) css) ∧
      (EachStep (readBufLogged P hasHandler uuid) NoShortFrame (fresh (w, [])) css →
        EachStep (readBufLogged P hasHandler uuid) (SafeBuf P hasHandler uuid)
          (fresh (w, [])) css) := by
  have hnil : Whole (w, []) := fun p hp => by cases hp
  have hnilBuf : WholeBuf (w, []) := fun f hf => by cases hf
  constructor
  · intro hrun
    exact eachStep_readEvent (reads_onRead (logged H)) (logged_keeps H)
      (fun w f _ => onFrame_ne_nullDeref (logged H) w f) hnil hrun
  · intro hrun
    exact eachStep_readEvent (reads_onReadBuf _ (loggedBuf P hasHandler uuid))
      (loggedBuf_keeps P hasHandler uuid) (loggedBuf_ne_nullDeref P hasHandler uuid) hnilBuf hrun

/-- A thread pool that keeps its tasks in a list. -/
def taskList : Pool (List CProxyTask) where
  heap _ _ := 0
  addTask w t := w ++ [t]

theorem handed_complete_heartbeat :
    EachStep (readLogged counter) (Safe counter) (fresh (0, []))
      [[⟨heartbeat, by decide, by decide⟩]] := by
  refine (handed_complete counter ⟨fun _ _ => 0, fun w _ => w⟩ (fun _ => true) 1 0 _).1
    ⟨fun _ => ⟨?_, ?_⟩, trivial⟩
  · have hlen : (fresh (0, ([] : List CImPdu))).inBuf.contents.length = 0 := rfl
    rw [InRange, hlen]
    decide
  · have hps : ∀ p ∈ [heartbeat], IsPdu p := fun p hp => by
      rw [List.mem_singleton.mp hp]
      exact isPdu_heartbeat
    exact noShort_frames (t := []) hps rfl

/-- A header whose length field is 1. -/
def lengthOne : Chunk := ⟨[0, 0, 0, 1, 0, 1, 0, 0, 7, 1, 0, 0, 0, 0, 0, 0], by decide, by decide⟩

theorem isPduAvailable_lengthOne {b : CSimpleBuffer} (hb : b.Ok)
    (hcon : b.contents = lengthOne.data) :
    CImPdu.isPduAvailable b.mem b.getWriteOffset = .ok (some 1) := by
  have hoff : b.getWriteOffset = 16 := by
    rw [CSimpleBuffer.getWriteOffset, ← CSimpleBuffer.length_contents hb, hcon]
    rfl
  have hhead : (CImPdu.headerOf b.mem).length.toNat = 1 := by
    rw [← CImPdu.headerOf_take (n := b.writeOffset) (Nat.le_of_eq hoff.symm)]
    change (CImPdu.headerOf b.contents).length.toNat = 1
    rw [hcon]
    rfl
  rw [CImPdu.isPduAvailable_of_le (Nat.le_of_eq hoff.symm) hhead, hoff]
  rfl

/-- `CImConn` hands that header over as a PDU of one byte. -/
theorem dispatch_lengthOne {b : CSimpleBuffer} (hb : b.Ok) (hcon : b.contents = lengthOne.data)
    (w : Nat × List CImPdu) :
    ∃ p ∈ (dispatch (logged counter) ⟨b, w, .live⟩).world.2, p.getLength = 1 := by
  have hav := isPduAvailable_lengthOne hb hcon
  have hread := CImPdu.readPdu_of_available ((logged counter).heap w) hav
  obtain ⟨n, hav', -, hlen⟩ := CImPdu.readPdu_some hread
  rw [hav] at hav'
  cases hav'
  have hoff : b.writeOffset = 16 := by
    rw [← CSimpleBuffer.length_contents hb, hcon]
    rfl
  -- after the one byte is consumed, fifteen are left, and the loop waits
  have hrest : CImPdu.isPduAvailable (b.read 1).2.mem (b.read 1).2.getWriteOffset = .ok none := by
    refine if_pos ?_
    rw [CSimpleBuffer.getWriteOffset, CSimpleBuffer.writeOffset_read, hoff, imPduHeaderLen]
    omega
  rw [dispatch_frame (s := ⟨b, w, .live⟩) hread, hlen]
  simp only [logged, counter]
  rw [dispatch_more (by exact hrest)]
  exact ⟨_, List.mem_append_right _ (List.mem_singleton.mpr rfl), hlen⟩

/-- `CBusinessSrvConn` uses the `NULL` that `ReadPdu` returns for it. -/
theorem dispatchBuf_lengthOne {b : CSimpleBuffer} (hb : b.Ok)
    (hcon : b.contents = lengthOne.data) (w : List CProxyTask × List Bytes) :
    (PtpCore.Server.CBusinessSrvConn.dispatch (loggedBuf taskList (fun _ => true) 1)
      ⟨b, w, .live⟩).status = .crashed := by
  have hav := isPduAvailable_lengthOne hb hcon
  have hnull : ∀ fill, CImPdu.readPdu fill (b.mem.take 1) (b.mem.take 1).length =
      .ok none := by
    intro fill
    refine CImPdu.readPdu_of_unavailable fill (if_pos ?_)
    rw [List.length_take, imPduHeaderLen]
    omega
  rw [dispatchBuf_frame (s := ⟨b, w, .live⟩) hav]
  simp only [loggedBuf, handlePduBuf, hnull]

/-- One read event with that header, on a fresh connection of each kind. -/
theorem not_safe_lengthOne :
    ¬ Safe counter (fresh (0, [])) [lengthOne] ∧
      ¬ SafeBuf taskList (fun _ => true) 1 (fresh ([], [])) [lengthOne] := by
  have hsize : CSimpleBuffer.empty.writeOffset + (bytesOf [lengthOne]).length + readBufSize =
      2064 := rfl
  obtain ⟨hok, hcon⟩ := recvLoop_spec (fun _ => 0) [lengthOne] CSimpleBuffer.ok_empty
    (by rw [hsize]; omega)
  have hdata : CSimpleBuffer.empty.contents ++ bytesOf [lengthOne] = lengthOne.data := rfl
  rw [hdata] at hcon
  constructor
  · rintro ⟨hwhole, -, -⟩
    have hstep : readLogged counter (fresh (0, [])) [lengthOne] =
        dispatch (logged counter) ⟨recvLoop (fun _ => 0) .empty [lengthOne], (0, []), .live⟩ := rfl
    obtain ⟨p, hp, hlen⟩ := dispatch_lengthOne hok hcon (0, [])
    rw [hstep] at hwhole
    have h16 := (hwhole p hp).1
    omega
  · rintro ⟨-, hcrash, -⟩
    exact hcrash (dispatchBuf_lengthOne hok hcon ([], []))

end CImConn

end Global
end Proof
end PtpCore
