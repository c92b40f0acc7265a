import PtpCore.Global.Link
import PtpCore.Proof.Global.ImConnSend
import PtpCore.Proof.Global.ImPdu
import PtpCore.Proof.Global.Receive

/-!
# What one end sends, the other end is handed

However the steps of the two ends fall, whatever the socket takes of each request and whatever
`netlib_recv` gives out at a time, `HandlePdu` has been called with the PDUs that were given to
`SendPdu`, in that order, from the first one on: none is lost, doubled, cut or put together from
two. And none is held up: when the socket takes what it is given, one `OnWrite` at the one end and
one `OnRead` at the other bring over everything sent so far.

The argument joins the two halves. The sender keeps accepted bytes and queue as the stream
(`Sends`); the reader has been called for the PDUs that are whole and holds the beginning of the
next (`Reader`), since what there is of a list of PDUs is some of them and the beginning of one.
The connection may live as long as it will: only one PDU, one queue and one read are bounded.
-/

namespace PtpCore
namespace Proof
namespace Global

open Lib
open PtpCore.Global

namespace CImConn

open PtpCore.Global.CImConn

variable {σ : Type}

/-! ## What is on its way -/

theorem bytesOf_chunks (avail : Bytes) (cuts : List Nat) :
    bytesOf (chunks avail cuts) <+: avail := by
  induction cuts generalizing avail with
  | nil => exact List.nil_prefix
  | cons n cuts ih =>
    rw [chunks]
    split
    · obtain ⟨rest, hrest⟩ := ih (avail.drop (min n readBufSize))
      refine ⟨rest, ?_⟩
      rw [bytesOf, List.flatMap_cons, List.append_assoc]
      exact (congrArg (avail.take (min n readBufSize) ++ ·) hrest).trans (List.take_append_drop ..)
    · exact List.nil_prefix

theorem length_bytesOf_chunks_one (avail : Bytes) :
    (bytesOf (chunks avail [1])).length = min 1 avail.length := by
  cases avail with
  | nil => rfl
  | cons x avail =>
    have hpos : 0 < ((x :: avail).take (min 1 readBufSize)).length := by
      rw [List.length_take, List.length_cons, readBufSize]
      omega
    rw [chunks, dif_pos hpos, List.length_cons, Nat.min_eq_left (Nat.le_add_left 1 _)]
    rfl

theorem sendLoop_accepted (sock : Socket) (data : Bytes) (k offset remain : Nat)
    (accepted : Bytes) :
    accepted <+: (sendLoop sock data k offset remain accepted).2.2 := by
  induction remain using Nat.strongRecOn generalizing k offset accepted with
  | ind remain ih =>
    rw [sendLoop]
    by_cases hr : remain > 0
    · rw [if_pos hr]
      dsimp only
      by_cases hret : sock.send k (sendSize remain) ≤ 0
      · simp only [if_pos hret, List.prefix_rfl]
      · rw [if_neg hret]
        exact (List.prefix_append _ _).trans (ih _ (by omega) _ _ _)
    · simp only [if_neg hr, List.prefix_rfl]

theorem send_accepted (fill : Nat → UInt8) (sock : Socket) (s : Out) (data : Bytes) :
    s.accepted <+: (send fill sock s data).accepted := by
  have hloop := sendLoop_accepted sock data 0 0 data.length s.accepted
  rw [send]
  split
  · exact List.prefix_rfl
  · dsimp only
    split <;> exact hloop

theorem writeLoop_accepted (sock : Socket) (k : Nat) (b : CSimpleBuffer) (accepted : Bytes) :
    accepted <+: (writeLoop sock k b accepted).2 := by
  induction hn : b.writeOffset using Nat.strongRecOn generalizing k b accepted with
  | ind off ih =>
    rw [writeLoop]
    by_cases hr : b.getWriteOffset > 0
    · rw [if_pos hr]
      dsimp only
      by_cases hret : sock.send k (sendSize (toInt b.getWriteOffset)) ≤ 0
      · simp only [if_pos hret, List.prefix_rfl]
      · rw [if_neg hret]
        have hoff : b.getWriteOffset = b.writeOffset := rfl
        exact (List.prefix_append _ _).trans
          (ih _ (by omega) (k + 1) _ _ (CSimpleBuffer.writeOffset_read b _))
    · simp only [if_neg hr, List.prefix_rfl]

theorem onWrite_accepted (sock : Socket) (s : Out) : s.accepted <+: (onWrite sock s).accepted := by
  rw [onWrite]
  split
  · exact List.prefix_rfl
  · exact writeLoop_accepted sock 0 s.outBuf s.accepted

/-! ## The link -/

/-- The PDUs of a run, as encoded. -/
def pdusOf (es : List LinkEvent) : List Bytes :=
  es.flatMap fun e => match e with
    | .sendPdu _ _ p => [p.buf.contents]
    | _ => []

def joined (w : σ) : Link σ := ⟨idle, 0, fresh w⟩

theorem step_read_of_not_live {H : Handler σ} {l : Link σ} (h : l.inn.status ≠ .live)
    (cuts : List Nat) : l.step H (.read cuts) = l := by
  rw [Link.step]
  split
  case h_1 hlive => exact absurd hlive h
  case h_2 => rfl

/-- The offsets stay in 32 bits: the queue of the sender, and what comes in one `OnRead`. -/
def Room (l : Link σ) : LinkEvent → Prop
  | .sendPdu _ _ p => l.out.outBuf.writeOffset + p.buf.contents.length < 2 ^ 31
  | .write _ => True
  | .read cuts => (bytesOf (chunks (l.out.accepted.drop l.taken) cuts)).length < 2 ^ 30

/-- A PDU that the receiver can hold. -/
def Short (p : Bytes) : Prop := IsPdu p ∧ p.length < 2 ^ 30

/-- What the other end has made of the bytes that it has read: it has been called with the PDUs
    that are there as a whole, and holds the beginning of the next. -/
structure Reader (H : Handler σ) (w : σ) (s : In σ) (ps : List Bytes) (read : Bytes) : Prop where
  handed : ∃ done rest t, ps = done ++ rest ∧ read = done.flatten ++ t ∧
    (pduNext t = .more ∧ t.length < 2 ^ 30) ∧ EndsAs s (Framing.deliver (onFrame H) w done) t
  ok : s.status = .live → s.inBuf.Ok

variable {H : Handler σ} {w : σ} {l : Link σ} {ps : List Bytes}

theorem Reader.append {s : In σ} {read : Bytes} (h : Reader H w s ps read) (more : List Bytes) :
    Reader H w s (ps ++ more) read := by
  obtain ⟨done, rest, t, rfl, hread, ht, hends⟩ := h.handed
  exact ⟨⟨done, rest ++ more, t, List.append_assoc .., hread, ht, hends⟩, h.ok⟩

/-- One `OnRead` of a live connection. -/
theorem Reader.onRead {s : In σ} {read : Bytes} (h : Reader H w s ps read)
    (hlive : s.status = .live) (hps : ∀ p ∈ ps, Short p) {cs : List Chunk}
    (hpre : read ++ bytesOf cs <+: ps.flatten) (hroom : (bytesOf cs).length < 2 ^ 30) :
    Reader H w (CImConn.onRead H s cs) ps (read ++ bytesOf cs) := by
  obtain ⟨done, rest, t, rfl, rfl, ⟨-, ht⟩, hends⟩ := h.handed
  rw [List.flatten_append, List.append_assoc, List.prefix_append_right_inj] at hpre
  obtain ⟨fs, gs, t', rfl, hcut, ht'⟩ := Framing.cut_of_prefix hpre
  have hpdus : ∀ p ∈ fs, IsPdu p := fun p hp => (hps p (by simp [hp])).1
  have hmore : pduNext t' = .more ∧ t'.length < 2 ^ 30 := by
    rcases ht' with rfl | ⟨q, hq, hpre, hne⟩
    · exact ⟨rfl, by decide⟩
    · have hshort := hps q (List.mem_append_right done hq)
      have hnext := next_of_prefix hshort.1 hpre hne
      exact ⟨hnext, Nat.lt_of_le_of_lt hpre.length_le hshort.2⟩
  -- no call has thrown so far
  have hgoes : (Framing.deliver (onFrame H) w done).2 = none := by
    cases hstop : (Framing.deliver (onFrame H) w done).2 with
    | none => rfl
    | some x =>
      rw [hends.status, hstop] at hlive
      cases x <;> cases hlive
  have hheld := hends.left hgoes
  have hrange : InRange s.inBuf.contents (bytesOf cs) := by
    rw [InRange, hheld, readBufSize]
    omega
  have hrefines := reads_onRead H s cs hlive (h.ok hlive) hrange (by
    rw [hheld, hcut]
    exact noShort_frames hpdus hmore.1)
  obtain ⟨hall, hstop⟩ := Framing.drive_frames pduFraming (onFrame H) s.world t'
    fun p hp e => (hpdus p hp).next e
  have hdeliver : Framing.deliver (onFrame H) w (done ++ fs) =
      Framing.deliver (onFrame H) s.world fs := by
    rw [Framing.deliver_append, hends.world]
    rcases hd : Framing.deliver (onFrame H) w done with ⟨w', _ | x⟩
    · rfl
    · rw [hd] at hgoes
      cases hgoes
  rw [hheld, hcut] at hrefines
  rw [List.append_assoc, hcut]
  refine ⟨⟨done ++ fs, gs, t', (List.append_assoc ..).symm, by simp, hmore, ?_⟩, ?_⟩
  · rw [hdeliver]
    rcases hd : Framing.deliver (onFrame H) s.world fs with ⟨w', _ | x⟩
    · rw [hall w' hd, Framing.drive_more hmore.1] at hrefines
      exact ⟨hrefines.world, hrefines.status, fun _ => (hrefines.buffer rfl).2⟩
    · obtain ⟨r, hr⟩ := hstop w' x hd
      rw [hr] at hrefines
      exact ⟨hrefines.world, hrefines.status, fun hleft => by cases hleft⟩
  · intro hstays
    rcases hd : Framing.deliver (onFrame H) s.world fs with ⟨w', _ | x⟩
    · rw [hall w' hd, Framing.drive_more hmore.1] at hrefines
      exact (hrefines.buffer rfl).1
    · obtain ⟨r, hr⟩ := hstop w' x hd
      rw [hr] at hrefines
      rw [hrefines.status] at hstays
      cases x <;> cases hstays

/-- What was sent has been accepted or is queued, and what was taken has been read. -/
structure LinkInv (H : Handler σ) (w : σ) (l : Link σ) (ps : List Bytes) : Prop where
  sends : Sends l.out ps.flatten
  taken : l.taken ≤ l.out.accepted.length
  reader : Reader H w l.inn ps (l.out.accepted.take l.taken)

theorem linkInv_joined : LinkInv H w (joined w) [] where
  sends := ⟨CSimpleBuffer.ok_empty, Nat.two_pow_pos 31, rfl, by simp [joined, idle]⟩
  taken := Nat.le_refl 0
  reader := ⟨⟨[], [], [], rfl, rfl, ⟨rfl, Nat.two_pow_pos 30⟩, rfl, rfl, fun _ => rfl⟩,
    fun _ => CSimpleBuffer.ok_empty⟩

/-- The reader does not see the sender's steps. -/
theorem LinkInv.setOut (h : LinkInv H w l ps) {out : Out} (more : List Bytes)
    (hsends : Sends out (ps ++ more).flatten) (haccepted : l.out.accepted <+: out.accepted) :
    LinkInv H w { l with out := out } (ps ++ more) where
  sends := hsends
  taken := Nat.le_trans h.taken haccepted.length_le
  reader := by
    obtain ⟨late, hlate⟩ := haccepted
    have hreader := h.reader.append more
    rwa [← List.take_append_of_le_length h.taken, hlate] at hreader

theorem LinkInv.onWrite (h : LinkInv H w l ps) (sock : Socket) :
    LinkInv H w { l with out := CImConn.onWrite sock l.out } ps := by
  have hsends := sends_onWrite sock h.sends
  have hinv := h.setOut [] (by rwa [List.append_nil]) (onWrite_accepted sock l.out)
  rwa [List.append_nil] at hinv

theorem LinkInv.read (h : LinkInv H w l ps) (hps : ∀ p ∈ ps, Short p) {cuts : List Nat}
    (hroom : Room l (.read cuts)) : LinkInv H w (l.step H (.read cuts)) ps := by
  rw [Link.step]
  split
  case h_2 => exact h
  case h_1 hlive =>
    have hpre := bytesOf_chunks (l.out.accepted.drop l.taken) cuts
    have hlen := hpre.length_le
    rw [List.length_drop] at hlen
    have htake : l.out.accepted.take (l.taken +
          (bytesOf (chunks (l.out.accepted.drop l.taken) cuts)).length) =
        l.out.accepted.take l.taken ++ bytesOf (chunks (l.out.accepted.drop l.taken) cuts) := by
      rw [List.take_add, ← List.prefix_iff_eq_take.mp hpre]
    have hstream : l.out.accepted.take l.taken ++
        bytesOf (chunks (l.out.accepted.drop l.taken) cuts) <+: ps.flatten := by
      rw [← htake, ← h.sends.stream]
      exact (List.take_prefix _ _).trans (List.prefix_append _ _)
    refine ⟨h.sends, ?_, ?_⟩
    · have htaken := h.taken
      rw [bytesOf] at hlen
      dsimp only
      omega
    · have hreader := h.reader.onRead hlive hps hstream hroom
      rwa [← htake] at hreader

theorem linkInv_run {es : List LinkEvent} (hroom : EachStep (Link.step H) Room (joined w) es)
    (hps : ∀ p ∈ pdusOf es, Short p) :
    LinkInv H w (es.foldl (Link.step H) (joined w)) (pdusOf es) := by
  induction es using List.reverseRecOn with
  | nil => exact linkInv_joined
  | append_singleton es e ih =>
    obtain ⟨hbefore, hstep, -⟩ := eachStep_append.mp hroom
    rw [pdusOf, List.flatMap_append] at hps ⊢
    have hinv := ih hbefore fun p hp => hps p (List.mem_append_left _ hp)
    rw [List.foldl_append, List.foldl_cons, List.foldl_nil]
    cases e with
    | sendPdu fill sock p =>
      refine hinv.setOut _ ?_ (send_accepted fill sock _ _)
      have hsends := sends_send fill sock hinv.sends hstep
      rw [List.flatten_append]
      simpa [sendPdu] using hsends
    | write sock =>
      rw [List.flatMap_cons, List.flatMap_nil, List.append_nil, List.append_nil]
      exact hinv.onWrite sock
    | read cuts =>
      rw [List.flatMap_cons, List.flatMap_nil, List.append_nil, List.append_nil] at hps ⊢
      exact hinv.read hps hstep

/-! ## What is sent -/

/-- A PDU that was put together with `SetPBMsg` and the setters, which store behind the length, or
    was received. -/
inductive Made : CImPdu → Prop
  | setPBMsg (fill : Nat → UInt8) {p : CImPdu} (hp : p.buf.Ok) {data : Bytes}
      (hd : data.length < 2 ^ 31) : Made (p.setPBMsgBuf fill data)
  | set {p : CImPdu} (h : Made p) {i : Nat} {d : Bytes} (hi : 4 ≤ i) (hd : i + d.length ≤ 16) :
      Made (p.poke i d)
  | received (fill : Nat → UInt8) {f : Bytes} (hf : IsPdu f) (hshort : f.length < 3 * 2 ^ 30) :
      Made (carrier fill f)

theorem Made.isPdu {p : CImPdu} (h : Made p) :
    CImPdu.HasHeader p ∧ IsPdu p.buf.contents := by
  induction h with
  | setPBMsg fill hp hd =>
    obtain ⟨hh, -, hlen, hhead, -⟩ := CImPdu.setPBMsgBuf_spec fill hp hd
    refine ⟨hh, hh.length_contents, ?_⟩
    rw [hhead, CSimpleBuffer.length_contents hh.ok]
    refine Eq.trans ?_ hlen.symm
    rw [CImPdu.written, UInt32.toNat_ofNat']
    omega
  | @set p h i d hi hd ih =>
    obtain ⟨hh, hpdu⟩ := ih
    have hfit : i + d.length ≤ p.buf.contents.length := Nat.le_trans hd hh.length_contents
    have hlen : (CImPdu.headerOf (overwrite p.buf.contents i d)).length =
        (CImPdu.headerOf p.buf.contents).length :=
      congrArg CByteStream.readUint32 (slice_overwrite_disjoint hfit (.inl hi))
    refine ⟨hh.poke hd, (hh.poke hd).length_contents, ?_⟩
    rw [hh.contents_poke hd, length_overwrite hfit, hlen]
    exact hpdu.length
  | @received fill f hf hshort =>
    have hfits : CSimpleBuffer.Fits (CSimpleBuffer.empty.writeOffset + f.length) := by
      rw [show CSimpleBuffer.empty.writeOffset = 0 from rfl, Nat.zero_add]
      exact CSimpleBuffer.fits_of_lt hshort
    obtain ⟨hok, -⟩ := CSimpleBuffer.write_spec fill CSimpleBuffer.ok_empty hfits
    have hcar := carries_carrier fill hshort
    have hoff : (carrier fill f).buf.writeOffset = f.length := hcar.length
    refine ⟨⟨hok, by rw [hoff]; exact hf.le⟩, ?_⟩
    rw [hcar.contents]
    exact hf

/-! ## Delivery -/

theorem Short.lt {p : Bytes} (h : Short p) : p.length < 3 * 2 ^ 30 := by
  have hlt := h.2
  omega

/-- The calls of `HandlePdu`, in every run. -/
theorem link_delivers (H : Handler σ) (w : σ) {es : List LinkEvent}
    (hroom : EachStep (Link.step H) Room (joined w) es) (hps : ∀ p ∈ pdusOf es, Short p) :
    ∃ done rest handed t, pdusOf es = done ++ rest ∧ List.Forall₂ Carries handed done ∧
      (es.foldl (Link.step H) (joined w)).out.accepted.take
        (es.foldl (Link.step H) (joined w)).taken = done.flatten ++ t ∧
      EndsAs (es.foldl (Link.step H) (joined w)).inn (Framing.deliver (call H) w handed) t := by
  obtain ⟨done, rest, t, hdone, hcut, -, hends⟩ := (linkInv_run hroom hps).reader.handed
  have hshort : ∀ p ∈ done, p.length < 3 * 2 ^ 30 := by
    intro p hp
    exact (hps p (by rw [hdone]; exact List.mem_append_left rest hp)).lt
  obtain ⟨handed, hcar, hdel⟩ := deliver_carriers H w hshort
  rw [← hdel] at hends
  exact ⟨done, rest, handed, t, hdone, hcar, hcut, hends⟩

/-- A PDU of three bytes, of which the socket takes one byte and the queue the rest. -/
def sampleSend : List LinkEvent :=
  [.sendPdu (fun _ => 0) oneByte (CImPdu.new.setPBMsgBuf (fun _ => 0) [1, 2, 3]), .read [1]]

theorem sampleSend_ok :
    EachStep (Link.step counter) Room (joined 0) sampleSend ∧ ∀ p ∈ pdusOf sampleSend, Short p := by
  have hlen : ([1, 2, 3] : Bytes).length < 2 ^ 31 := by decide
  obtain ⟨-, hpdu⟩ := (Made.setPBMsg (fun _ => 0) (p := .new) CSimpleBuffer.ok_empty hlen).isPdu
  have hfirst : 0 + (CImPdu.new.setPBMsgBuf (fun _ => 0) [1, 2, 3]).buf.contents.length < 2 ^ 31 := by
    decide +kernel
  refine ⟨⟨hfirst, ?_, trivial⟩, fun p hp => ?_⟩
  · rw [Room, length_bytesOf_chunks_one]
    omega
  · rw [List.mem_singleton.mp hp]
    exact ⟨hpdu, by decide +kernel⟩

theorem link_delivers_sample :
    ∃ done rest handed t, pdusOf sampleSend = done ++ rest ∧ List.Forall₂ Carries handed done ∧
      (sampleSend.foldl (Link.step counter) (joined 0)).out.accepted.take
        (sampleSend.foldl (Link.step counter) (joined 0)).taken = done.flatten ++ t ∧
      EndsAs (sampleSend.foldl (Link.step counter) (joined 0)).inn
        (Framing.deliver (call counter) 0 handed) t :=
  link_delivers counter 0 sampleSend_ok.1 sampleSend_ok.2

/-! ## Nothing is held up -/

/-- A socket that takes all it is given. -/
def taking : Socket where
  send _ size := size
  le _ _ := Int.le_refl _

theorem sendSize_pos {remain : Int} (h : 0 < remain) : 0 < sendSize remain := by
  rw [sendSize]
  split
  · decide
  · exact h

theorem writeLoop_taking (k : Nat) {b : CSimpleBuffer} (accepted : Bytes)
    (hlt : b.writeOffset < 2 ^ 31) : (writeLoop taking k b accepted).1.writeOffset = 0 := by
  induction hn : b.writeOffset using Nat.strongRecOn generalizing k b accepted with
  | ind off ih =>
    have hoff : b.getWriteOffset = b.writeOffset := rfl
    rw [writeLoop]
    by_cases hr : b.getWriteOffset > 0
    · have hint : toInt b.getWriteOffset = b.writeOffset := if_pos hlt
      have hpos : 0 < sendSize (toInt b.getWriteOffset) := sendSize_pos (by omega)
      have hret : taking.send k (sendSize (toInt b.getWriteOffset)) =
        sendSize (toInt b.getWriteOffset) := rfl
      rw [if_pos hr]
      dsimp only
      rw [hret, if_neg (by omega)]
      have hless := CSimpleBuffer.writeOffset_read b (sendSize (toInt b.getWriteOffset)).toNat
      exact ih _ (by omega) (k + 1) _ (by omega) hless
    · rw [if_neg hr]
      exact Nat.eq_zero_of_not_pos hr

theorem onWrite_taking {s : Out} {sent : Bytes} (hs : Sends s sent) :
    (onWrite taking s).accepted = sent := by
  have hs' := sends_onWrite taking hs
  have hnil : (onWrite taking s).outBuf.contents = [] := by
    cases hbusy : s.busy with
    | false =>
      have hsame : onWrite taking s = s := by
        rw [onWrite, hbusy]
        rfl
      rw [hsame]
      by_contra hne
      rw [hs.busy_iff.mpr hne] at hbusy
      exact nomatch hbusy
    | true =>
      rw [contents_eq_nil hs'.ok, onWrite, hbusy]
      exact writeLoop_taking 0 s.accepted hs.short
  have hstream := hs'.stream
  rwa [hnil, List.append_nil] at hstream

theorem LinkInv.read_one (h : LinkInv H w l ps) (hps : ∀ p ∈ ps, Short p) :
    LinkInv H w (l.step H (.read [1])) ps := by
  refine h.read hps ?_
  rw [Room, length_bytesOf_chunks_one]
  omega

/-- A live connection reads all that is on its way, if it gets a byte at a time. -/
theorem LinkInv.read_all (h : LinkInv H w l ps) (hps : ∀ p ∈ ps, Short p) :
    ∃ n, ∀ l', (List.replicate n (LinkEvent.read [1])).foldl (Link.step H) l = l' →
      LinkInv H w l' ps ∧ l'.out = l.out ∧
        (l'.inn.status = .live → l'.taken = l.out.accepted.length) := by
  induction hk : l.out.accepted.length - l.taken generalizing l with
  | zero =>
    have htaken := h.taken
    refine ⟨0, ?_⟩
    rintro _ rfl
    exact ⟨h, rfl, fun _ => by rw [List.replicate_zero, List.foldl_nil]; omega⟩
  | succ k ih =>
    by_cases hlive : l.inn.status = .live
    · have hout : (l.step H (.read [1])).out = l.out := by rw [Link.step, hlive]
      have htaken : (l.step H (.read [1])).taken = l.taken + 1 := by
        have hone := length_bytesOf_chunks_one (l.out.accepted.drop l.taken)
        rw [List.length_drop, Nat.min_eq_left (by omega)] at hone
        rw [Link.step, hlive]
        exact congrArg (l.taken + ·) hone
      obtain ⟨n, hn⟩ := ih (h.read_one hps) (by rw [hout, htaken]; omega)
      refine ⟨n + 1, ?_⟩
      rintro _ rfl
      obtain ⟨hinv, hsame, hall⟩ := hn _ rfl
      rw [hout] at hsame hall
      exact ⟨hinv, hsame, hall⟩
    · refine ⟨0, ?_⟩
      rintro _ rfl
      exact ⟨h, rfl, fun hl => absurd hl hlive⟩

/-- After every run, when the socket takes what it is given and what is on its way comes, all that
    was sent so far has been handed over, unless a call has thrown. -/
theorem link_completes (H : Handler σ) (w : σ) {es : List LinkEvent}
    (hroom : EachStep (Link.step H) Room (joined w) es) (hps : ∀ p ∈ pdusOf es, Short p) :
    ∃ n handed, List.Forall₂ Carries handed (pdusOf es) ∧
      EndsAs ((es ++ LinkEvent.write taking :: List.replicate n (LinkEvent.read [1])).foldl
        (Link.step H) (joined w)).inn (Framing.deliver (call H) w handed) [] := by
  have hshort : ∀ p ∈ pdusOf es, p.length < 3 * 2 ^ 30 := fun p hp => (hps p hp).lt
  obtain ⟨handed, hcar, hdel⟩ := deliver_carriers H w hshort
  have hinv := linkInv_run hroom hps
  obtain ⟨n, hn⟩ := (hinv.onWrite taking).read_all hps
  refine ⟨n, handed, hcar, ?_⟩
  rw [List.foldl_append, List.foldl_cons, hdel]
  obtain ⟨hlast, hout, hall⟩ := hn _ rfl
  obtain ⟨done, rest, t, hdone, hcut, ⟨hmore, -⟩, hends⟩ := hlast.reader.handed
  rw [hout] at hcut
  rcases hstop : Framing.deliver (onFrame H) w done with ⟨w', _ | x⟩
  · -- all has been read, and nothing can be left of it
    rw [hstop] at hends
    rw [hall hends.status, List.take_length, onWrite_taking hinv.sends, hdone, List.flatten_append]
      at hcut
    obtain rfl := List.append_cancel_left hcut
    have hrest : rest = [] := by
      cases rest with
      | nil => rfl
      | cons q rest =>
        have hq := (hps q (by rw [hdone]; simp)).1.next rest.flatten
        rw [List.flatten_cons] at hmore
        rw [show pduNext _ = _ from hq] at hmore
        exact nomatch hmore
    subst hrest
    rw [hdone, List.append_nil, hstop]
    exact hends
  · rw [hdone, Framing.deliver_append, hstop]
    rw [hstop] at hends
    exact ⟨hends.world, hends.status, nofun⟩

/-- The counter has been called once. -/
theorem link_completes_sample :
    ∃ n, ((sampleSend ++ LinkEvent.write taking :: List.replicate n (LinkEvent.read [1])).foldl
      (Link.step counter) (joined 0)).inn.world = 1 := by
  obtain ⟨n, handed, hcar, hends⟩ := link_completes counter 0 sampleSend_ok.1 sampleSend_ok.2
  obtain _ | ⟨-, _ | _⟩ := hcar
  exact ⟨n, hends.world⟩

end CImConn

end Global
end Proof
end PtpCore
