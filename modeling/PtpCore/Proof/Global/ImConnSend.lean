import PtpCore.Lib.Run
import PtpCore.Global.ImConn

/-!
# The sending direction is a queue

Whatever the socket takes of each request, the bytes it has accepted followed by the bytes in
`m_out_buf` are the bytes that were given to `Send`, and `m_busy` is set exactly while some of
them are queued. Each of the two loops keeps "accepted, then still to go" as one byte string
(`sendLoop_spec`, `writeLoop_spec`); the flag is what makes the fast path of `Send` safe, since
it is taken only when nothing is queued.
-/

namespace PtpCore
namespace Proof
namespace Global

open Lib
open PtpCore.Global

namespace CImConn

open PtpCore.Global.CImConn

/-- The loop of `Send` moves bytes from the front of what is left to the socket. -/
theorem sendLoop_spec (sock : Socket) (data : Bytes) (k offset remain : Nat) (accepted : Bytes)
    (h : offset + remain = data.length) :
    ∃ o r a, sendLoop sock data k offset remain accepted = (o, r, a) ∧ o + r = data.length ∧
      a ++ data.drop o = accepted ++ data.drop offset := by
  induction remain using Nat.strongRecOn generalizing k offset accepted with
  | ind remain ih =>
    rw [sendLoop]
    by_cases hr : remain > 0
    · rw [if_pos hr]
      dsimp only
      by_cases hret : sock.send k (sendSize remain) ≤ 0
      · rw [if_pos hret]
        exact ⟨_, _, _, rfl, h, rfl⟩
      · rw [if_neg hret]
        have hle := Int.le_trans (sock.le k (sendSize remain)) (sendSize_le remain)
        obtain ⟨n, hn⟩ : ∃ n : Nat, sock.send k (sendSize remain) = n :=
          Int.eq_ofNat_of_zero_le (by omega)
        rw [hn] at hle hret ⊢
        rw [Int.toNat_natCast]
        obtain ⟨o, r, a, hloop, hlen, hacc⟩ := ih (remain - n) (by omega) (k + 1) (offset + n)
          (accepted ++ slice data offset n) (by omega)
        refine ⟨o, r, a, hloop, hlen, ?_⟩
        rw [hacc, List.append_assoc, slice, ← List.drop_drop, List.take_append_drop]
    · rw [if_neg hr]
      exact ⟨_, _, _, rfl, h, rfl⟩

/-- The loop of `OnWrite` does the same to the queue. -/
theorem writeLoop_spec (sock : Socket) (k : Nat) {b : CSimpleBuffer} (accepted : Bytes)
    (hb : b.Ok) (hlt : b.writeOffset < 2 ^ 31) :
    ∃ b' a, writeLoop sock k b accepted = (b', a) ∧ b'.Ok ∧ b'.writeOffset ≤ b.writeOffset ∧
      a ++ b'.contents = accepted ++ b.contents := by
  induction hn : b.writeOffset using Nat.strongRecOn generalizing k b accepted with
  | ind off ih =>
    rw [writeLoop]
    by_cases hr : b.getWriteOffset > 0
    · rw [if_pos hr]
      dsimp only
      by_cases hret : sock.send k (sendSize (toInt b.getWriteOffset)) ≤ 0
      · rw [if_pos hret]
        exact ⟨_, _, rfl, hb, Nat.le_of_eq hn, rfl⟩
      · rw [if_neg hret]
        have hoff : b.getWriteOffset = b.writeOffset := rfl
        have hint : toInt b.getWriteOffset = b.writeOffset := if_pos hlt
        have hle := Int.le_trans (sock.le k (sendSize (toInt b.getWriteOffset)))
          (sendSize_le (toInt b.getWriteOffset))
        obtain ⟨n, hret'⟩ : ∃ n : Nat, sock.send k (sendSize (toInt b.getWriteOffset)) = n :=
          Int.eq_ofNat_of_zero_le (by omega)
        rw [hret'] at hle hret ⊢
        rw [hint] at hle
        rw [Int.toNat_natCast]
        have htake : b.mem.take n = b.contents.take n := by
          rw [CSimpleBuffer.contents, List.take_take, Nat.min_eq_left (by omega)]
        obtain ⟨b', a, hloop, hok, hless, hacc⟩ := ih (b.writeOffset - n) (by omega) (k + 1)
          (accepted ++ b.mem.take n) (CSimpleBuffer.ok_read hb n)
          (by rw [CSimpleBuffer.writeOffset_read]; omega) (CSimpleBuffer.writeOffset_read b n)
        refine ⟨b', a, hloop, hok, by omega, ?_⟩
        rw [hacc, CSimpleBuffer.contents_read hb, htake, List.append_assoc, List.take_append_drop]
    · rw [if_neg hr]
      exact ⟨_, _, rfl, hb, Nat.le_of_eq hn, rfl⟩

/-- The sending direction after `sent` has been given to `Send`. -/
structure Sends (s : Out) (sent : Bytes) : Prop where
  ok : s.outBuf.Ok
  short : s.outBuf.writeOffset < 2 ^ 31
  stream : s.accepted ++ s.outBuf.contents = sent
  busy_iff : s.busy = true ↔ s.outBuf.contents ≠ []

theorem contents_eq_nil {b : CSimpleBuffer} (hb : b.Ok) : b.contents = [] ↔ b.writeOffset = 0 := by
  rw [← CSimpleBuffer.length_contents hb, List.length_eq_zero_iff]

/-- Queueing `data` behind what is queued. -/
theorem queue_spec (fill : Nat → UInt8) {b : CSimpleBuffer} {data : Bytes} (hb : b.Ok)
    (hroom : b.writeOffset + data.length < 2 ^ 31) :
    (b.write fill (some data) data.length).Ok ∧
      (b.write fill (some data) data.length).writeOffset < 2 ^ 31 ∧
      (b.write fill (some data) data.length).contents = b.contents ++ data := by
  obtain ⟨hok, hcon⟩ := CSimpleBuffer.write_spec fill hb
    (CSimpleBuffer.fits_of_lt (n := b.writeOffset + data.length) (by omega))
  refine ⟨hok, ?_, hcon⟩
  rw [← CSimpleBuffer.length_contents hok, hcon, List.length_append,
    CSimpleBuffer.length_contents hb]
  exact hroom

theorem sends_send {s : Out} {sent data : Bytes} (fill : Nat → UInt8) (sock : Socket)
    (hs : Sends s sent) (hroom : s.outBuf.writeOffset + data.length < 2 ^ 31) :
    Sends (send fill sock s data) (sent ++ data) := by
  unfold send
  cases hbusy : s.busy with
  | true =>
    obtain ⟨hok, hlt, hcon⟩ := queue_spec fill hs.ok hroom
    have hne := hs.busy_iff.mp hbusy
    rw [if_pos rfl]
    refine ⟨hok, hlt, ?_, ?_⟩
    · rw [hcon, ← List.append_assoc, hs.stream]
    · rw [hcon]
      simp [hne]
  | false =>
    have hnil : s.outBuf.contents = [] := by
      by_contra hne
      rw [hs.busy_iff.mpr hne] at hbusy
      cases hbusy
    have hstream := hs.stream
    rw [hnil, List.append_nil] at hstream
    obtain ⟨o, r, a, hloop, hlen, hacc⟩ :=
      sendLoop_spec sock data 0 0 data.length s.accepted (Nat.zero_add _)
    rw [if_neg (by simp), hloop]
    rw [List.drop_zero, hstream] at hacc
    dsimp only
    by_cases hr : r > 0
    · have hdrop : (data.drop o).length = r := by
        rw [List.length_drop]
        omega
      have hroom' : s.outBuf.writeOffset + (data.drop o).length < 2 ^ 31 := by omega
      obtain ⟨hok, hlt, hcon⟩ := queue_spec fill hs.ok hroom'
      rw [hdrop] at hok hlt hcon
      rw [hnil, List.nil_append] at hcon
      rw [if_pos hr]
      refine ⟨hok, hlt, by rw [hcon, hacc], ?_⟩
      rw [hcon, ne_eq, ← List.length_eq_zero_iff, hdrop]
      exact ⟨fun _ => by omega, fun _ => rfl⟩
    · -- everything was taken: the queue is still empty, and the flag still clear
      have hdrop : data.drop o = [] := List.drop_eq_nil_of_le (by omega)
      rw [hdrop, List.append_nil] at hacc
      rw [if_neg hr]
      refine ⟨hs.ok, hs.short, by rw [hnil, List.append_nil, hacc], ?_⟩
      rw [hnil]
      simp

theorem sends_onWrite {s : Out} {sent : Bytes} (sock : Socket) (hs : Sends s sent) :
    Sends (onWrite sock s) sent := by
  unfold onWrite
  cases hbusy : s.busy with
  | false => exact hs
  | true =>
    obtain ⟨b, a, hloop, hok, hle, hacc⟩ := writeLoop_spec sock 0 s.accepted hs.ok hs.short
    rw [if_neg (by simp), hloop]
    refine ⟨hok, Nat.lt_of_le_of_lt hle hs.short, by rw [hacc, hs.stream], ?_⟩
    rw [ne_eq, contents_eq_nil hok]
    dsimp only
    by_cases h0 : b.getWriteOffset = 0
    · rw [if_pos h0]
      constructor
      · intro h
        cases h
      · intro h
        exact absurd h0 h
    · rw [if_neg h0]
      exact ⟨fun _ => h0, fun _ => rfl⟩

/-! ## Runs -/

inductive OutEvent
  | send (fill : Nat → UInt8) (sock : Socket) (data : Bytes)
  | write (sock : Socket)

namespace OutEvent

def apply (s : Out) : OutEvent → Out
  | .send fill sock data => CImConn.send fill sock s data
  | .write sock => onWrite sock s

/-- What the event passes to `Send`. -/
def data : OutEvent → Bytes
  | .send _ _ data => data
  | .write _ => []

/-- The queue stays below `2 ^ 31` bytes. -/
def Room (s : Out) (e : OutEvent) : Prop := s.outBuf.writeOffset + e.data.length < 2 ^ 31

end OutEvent

/-- Everything a run passes to `Send`. -/
def sentBy (es : List OutEvent) : Bytes := es.foldl (fun sent e => sent ++ e.data) []

/-- The constructor: not busy, nothing queued. -/
def idle : Out := ⟨false, .empty, []⟩

/-- After every run of `Send` and `OnWrite` calls, whatever the socket took of each request. -/
theorem send_stream {es : List OutEvent} (hroom : EachStep OutEvent.apply OutEvent.Room idle es) :
    (es.foldl OutEvent.apply idle).accepted ++ (es.foldl OutEvent.apply idle).outBuf.contents =
        sentBy es ∧
      ((es.foldl OutEvent.apply idle).busy = true ↔
        (es.foldl OutEvent.apply idle).outBuf.contents ≠ []) := by
  have hidle : Sends idle [] :=
    ⟨CSimpleBuffer.ok_empty, by simp [idle, CSimpleBuffer.empty], rfl, by simp [idle]⟩
  have hend : Sends (es.foldl OutEvent.apply idle) (sentBy es) := by
    refine EachStep.final Sends ?_ hidle hroom
    intro s sent e hs hr
    cases e with
    | send fill sock data => exact sends_send fill sock hs hr
    | write sock =>
      rw [OutEvent.data, List.append_nil]
      exact sends_onWrite sock hs
  exact ⟨hend.stream, hend.busy_iff⟩

/-- A socket that takes one byte of the first request and blocks. -/
def oneByte : Socket where
  send k size := if k = 0 then min 1 size else min 0 size
  le k size := by
    split
    · exact Int.min_le_right ..
    · exact Int.min_le_right ..

theorem send_stream_oneByte :
    ([.send (fun _ => 0) oneByte [7, 8, 9], .write oneByte].foldl OutEvent.apply idle).accepted ++
        ([.send (fun _ => 0) oneByte [7, 8, 9], .write oneByte].foldl OutEvent.apply
          idle).outBuf.contents = [7, 8, 9] := by
  have hroom : idle.outBuf.writeOffset + ([7, 8, 9] : Bytes).length < 2 ^ 31 := by decide
  have hidle : Sends idle [] := ⟨CSimpleBuffer.ok_empty, by decide, rfl, by simp [idle]⟩
  have hrun : EachStep OutEvent.apply OutEvent.Room idle
      [.send (fun _ => 0) oneByte [7, 8, 9], .write oneByte] :=
    ⟨hroom, (sends_send (fun _ => 0) oneByte hidle hroom).short, trivial⟩
  exact (send_stream hrun).1

end CImConn

end Global
end Proof
end PtpCore
