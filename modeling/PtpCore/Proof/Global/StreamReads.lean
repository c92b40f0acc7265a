import PtpCore.Global.StreamOps
import PtpCore.Lib.Run

/-!
# Where a stream reads

Both checks add a length to the position before they compare, in 32 bits. A sum that comes out
small passes (`Wraps`), and what is returned then points behind the end. Nothing else goes wrong
(`readsInside_iff`), except that a `Skip` that throws has left the position behind the end as well.

A read that throws does not end the run here; the stream can be used again.
-/

namespace PtpCore
namespace Proof
namespace Global

open Lib PtpCore.Global PtpCore.Global.CByteStream

/-- The pointers among what a read returns, with their lengths. -/
def pointers : Item → List (Nat × UInt32)
  | .scalar _ => []
  | .string offset len => [(offset, len)]
  | .data offset len => [(offset, len)]

/-- How many bytes a read has copied by `_ReadByte`. -/
def copySize : ReadOp → Nat
  | .scalar t => t.size
  | .string => 4
  | .data => 4

/-- Which bytes `_ReadByte` copies, if it does not throw. -/
def copied (s : Reader) (n : Nat) : List (Nat × Nat) :=
  if (s.pos + n) % 2 ^ 32 > s.len then [] else [(s.pos, n)]

/-- A read copies nothing from behind the end, and if it returns, then nothing that points there. -/
structure StaysInside (s : Reader) (op : ReadOp) : Prop where
  copies : ∀ r ∈ copied s (copySize op), r.1 + r.2 ≤ s.len
  returns : ∀ item, (s.get op).1 = .ok item →
    (∀ r ∈ pointers item, r.1 + r.2.toNat ≤ s.len) ∧ (s.get op).2.pos ≤ s.len

/-- The stream after a read. -/
def afterRead (s : Reader) (op : ReadOp) : Reader := (s.get op).2

/-- The position and a length add up to something that is small again. -/
def Wraps (s : Reader) (n : Nat) : Prop := 2 ^ 32 ≤ s.pos + n ∧ (s.pos + n) % 2 ^ 32 ≤ s.len

/-- The length in front of the block at the position. -/
def blockLen (s : Reader) : Nat := (readUint32 (slice s.buf s.pos 4)).toNat

/-- Neither check of a read is passed that way. -/
def NoWrap (s : Reader) : ReadOp → Prop
  | .scalar t => ¬ Wraps s t.size
  | .string | .data => ¬ Wraps s 4 ∧ (s.pos + 4 ≤ s.len → ¬ Wraps s (4 + blockLen s))

/-- And a block whose length can be read is there. -/
def BlockFits (s : Reader) : ReadOp → Prop
  | .scalar t => ¬ Wraps s t.size
  | .string | .data => ¬ Wraps s 4 ∧ (s.pos + 4 ≤ s.len → s.pos + (4 + blockLen s) ≤ s.len)

section

variable {s : Reader}

theorem copied_iff {n : Nat} (hl : s.len < 2 ^ 32) :
    (∀ r ∈ copied s n, r.1 + r.2 ≤ s.len) ↔ ¬ Wraps s n := by
  unfold copied Wraps
  split
  · simp
    omega
  · simp
    omega

/-- What `_ReadByte` does once its check cannot be fooled. -/
theorem readByte_eq {n : Nat} (hl : s.len < 2 ^ 32) (h : ¬ Wraps s n) :
    s.readByte n = if s.pos + n ≤ s.len then
      .ok (slice s.buf s.pos n, { s with pos := s.pos + n })
    else .error (.ofError errorCodeParseFailed "parase packet failed!") := by
  unfold Wraps at h
  rw [Reader.readByte]
  by_cases hle : s.pos + n ≤ s.len
  · have hmod : (s.pos + n) % 2 ^ 32 = s.pos + n := Nat.mod_eq_of_lt (by omega)
    rw [hmod, if_neg (Nat.not_lt.mpr hle), if_pos hle]
  · rw [if_pos (by omega), if_neg hle]

/-- `ReadString` and `ReadData` when the length can be read. -/
theorem readBlock_eq (hl : s.len < 2 ^ 32) (h : s.pos + 4 ≤ s.len) :
    s.readBlock =
      if (s.pos + (4 + blockLen s)) % 2 ^ 32 > s.len then
        (.error (.ofError errorCodeParseFailed "parase packet failed!"),
          { s with pos := (s.pos + (4 + blockLen s)) % 2 ^ 32 })
      else (.ok (s.pos + 4, readUint32 (slice s.buf s.pos 4)),
        { s with pos := (s.pos + (4 + blockLen s)) % 2 ^ 32 }) := by
  have hskip : Reader.skip { s with pos := s.pos + 4 } (readUint32 (slice s.buf s.pos 4)) =
      if (s.pos + (4 + blockLen s)) % 2 ^ 32 > s.len then
        (.error (.ofError errorCodeParseFailed "parase packet failed!"),
          { s with pos := (s.pos + (4 + blockLen s)) % 2 ^ 32 })
      else (.ok (), { s with pos := (s.pos + (4 + blockLen s)) % 2 ^ 32 }) := by
    rw [← Nat.add_assoc]
    rfl
  rw [Reader.readBlock, Reader.getUint32_of_le h hl]
  dsimp only
  by_cases hthrow : (s.pos + (4 + blockLen s)) % 2 ^ 32 > s.len
  · rw [hskip, if_pos hthrow, if_pos hthrow]
  · rw [hskip, if_neg hthrow, if_neg hthrow]

theorem readBlock_short (hl : s.len < 2 ^ 32) (hwrap : ¬ Wraps s 4) (h : ¬ s.pos + 4 ≤ s.len) :
    s.readBlock = (.error (.ofError errorCodeParseFailed "parase packet failed!"), s) := by
  have hread := readByte_eq hl hwrap
  rw [if_neg h] at hread
  rw [Reader.readBlock, Reader.getUint32, hread]
  rfl

/-! ## One read -/

/-- The part of `StaysInside` that is about a block. -/
def BlockInside (s : Reader) : Prop :=
  (∀ r ∈ copied s 4, r.1 + r.2 ≤ s.len) ∧
    ∀ offset len, s.readBlock.1 = .ok (offset, len) →
      offset + len.toNat ≤ s.len ∧ s.readBlock.2.pos ≤ s.len

theorem map_eq_ok {α β : Type} {f : α → β} {x : Except CPduException α} {b : β}
    (h : x.map f = .ok b) : ∃ a, x = .ok a ∧ f a = b := by
  cases x with
  | error e => cases h
  | ok a => exact ⟨a, rfl, Except.ok.inj h⟩

/-- `ReadString` and `ReadData` differ in the type of what they return. -/
theorem staysInside_block {op : ReadOp} {f : Nat × UInt32 → Item} (hsize : copySize op = 4)
    (hget : s.get op = (s.readBlock.1.map f, s.readBlock.2)) (hf : ∀ r, pointers (f r) = [r]) :
    StaysInside s op ↔ BlockInside s := by
  constructor
  · rintro ⟨hcopies, hreturns⟩
    rw [hsize] at hcopies
    refine ⟨hcopies, fun offset len hread => ?_⟩
    obtain ⟨hpointers, hpos⟩ := hreturns (f (offset, len)) (by rw [hget, hread]; rfl)
    rw [hget] at hpos
    exact ⟨hpointers (offset, len) (by simp [hf]), hpos⟩
  · rintro ⟨hcopies, hreturns⟩
    rw [← hsize] at hcopies
    refine ⟨hcopies, fun item hitem => ?_⟩
    rw [hget] at hitem ⊢
    obtain ⟨⟨offset, len⟩, hread, rfl⟩ := map_eq_ok hitem
    obtain ⟨hle, hpos⟩ := hreturns offset len hread
    exact ⟨by simpa [hf] using hle, hpos⟩

theorem blockInside_iff (hl : s.len < 2 ^ 32) : BlockInside s ↔ NoWrap s .data := by
  rw [BlockInside, copied_iff hl]
  refine and_congr_right fun hwrap => ?_
  by_cases hle : s.pos + 4 ≤ s.len
  · have hread := readBlock_eq hl hle
    have hlen : (readUint32 (slice s.buf s.pos 4)).toNat = blockLen s := rfl
    simp only [hle, true_implies]
    by_cases hthrow : (s.pos + (4 + blockLen s)) % 2 ^ 32 > s.len
    · rw [if_pos hthrow] at hread
      rw [hread]
      refine ⟨fun _ hwraps => absurd hwraps.2 (Nat.not_le.mpr hthrow), fun _ offset len hok => ?_⟩
      cases hok
    · rw [if_neg hthrow] at hread
      rw [hread]
      constructor
      · intro h hwraps
        have hend := (h _ _ rfl).1
        rw [hlen] at hend
        have hover := hwraps.1
        omega
      · intro hwraps offset len hok
        cases hok
        have hsmall : s.pos + (4 + blockLen s) < 2 ^ 32 :=
          Nat.not_le.mp fun hover => hwraps ⟨hover, Nat.not_lt.mp hthrow⟩
        rw [Nat.mod_eq_of_lt hsmall] at hthrow ⊢
        rw [hlen]
        exact ⟨by omega, Nat.not_lt.mp hthrow⟩
  · rw [readBlock_short hl hwrap hle]
    refine ⟨fun _ hle' => absurd hle' hle, fun _ offset len hok => ?_⟩
    cases hok

/-- A number is behind the old position, or was not read. -/
theorem getScalar_spec {t : ScalarType} (hl : s.len < 2 ^ 32) (hwrap : ¬ Wraps s t.size) :
    (s.getScalar t).2.pos ≤ s.len ∨
      (∃ e, (s.getScalar t).1 = .error e) ∧ (s.getScalar t).2 = s := by
  have hread := readByte_eq hl hwrap
  by_cases hle : s.pos + t.size ≤ s.len
  · rw [if_pos hle] at hread
    rw [Reader.getScalar, hread]
    exact .inl hle
  · rw [if_neg hle] at hread
    rw [Reader.getScalar, hread]
    exact .inr ⟨⟨_, rfl⟩, rfl⟩

/-- **One read stays inside** just when no check is passed by a sum that wraps around. -/
theorem staysInside_step (hl : s.len < 2 ^ 32) (op : ReadOp) :
    StaysInside s op ↔ NoWrap s op := by
  cases op with
  | scalar t =>
    rw [NoWrap, ← copied_iff hl]
    refine ⟨fun h => h.copies, fun hcopies => ⟨hcopies, fun item hitem => ?_⟩⟩
    obtain ⟨x, hx, rfl⟩ := map_eq_ok hitem
    refine ⟨by simp [pointers], ?_⟩
    rcases getScalar_spec hl ((copied_iff hl).mp hcopies) with hpos | ⟨⟨e, herror⟩, -⟩
    · exact hpos
    · rw [herror] at hx
      cases hx
  | string =>
    rw [staysInside_block rfl rfl fun _ => rfl, blockInside_iff hl]
    rfl
  | data => rw [staysInside_block rfl rfl fun _ => rfl, blockInside_iff hl]

/-- With the position where it belongs, also after a read that throws. -/
theorem staysInside_pos_step (hl : s.len < 2 ^ 32) (hpos : s.pos ≤ s.len) (op : ReadOp) :
    StaysInside s op ∧ (afterRead s op).pos ≤ s.len ↔ BlockFits s op := by
  have hblock : (¬ Wraps s 4 ∧ (s.pos + 4 ≤ s.len → ¬ Wraps s (4 + blockLen s))) ∧
      s.readBlock.2.pos ≤ s.len ↔
      ¬ Wraps s 4 ∧ (s.pos + 4 ≤ s.len → s.pos + (4 + blockLen s) ≤ s.len) := by
    rw [and_assoc]
    refine and_congr_right fun hwrap => ?_
    by_cases hle : s.pos + 4 ≤ s.len
    · -- `Skip` has been called, and the position is what it left
      have hafter : s.readBlock.2.pos = (s.pos + (4 + blockLen s)) % 2 ^ 32 := by
        rw [readBlock_eq hl hle]
        split <;> rfl
      simp only [hle, true_implies, hafter, Wraps]
      omega
    · simp [hle, readBlock_short hl hwrap hle, hpos]
  rw [staysInside_step hl]
  cases op with
  | scalar t =>
    refine and_iff_left_of_imp fun hwrap => ?_
    rcases getScalar_spec hl hwrap with hle | ⟨-, hsame⟩
    · exact hle
    · change (s.getScalar t).2.pos ≤ s.len
      rw [hsame]
      exact hpos
  | string => exact hblock
  | data => exact hblock

/-! ## Any number of reads -/

theorem len_readByte {n : Nat} {r : Bytes × Reader} (h : s.readByte n = .ok r) :
    r.2.len = s.len := by
  rw [Reader.readByte] at h
  split at h
  · cases h
  · cases h
    rfl

theorem len_skip (s : Reader) (len : UInt32) : (s.skip len).2.len = s.len := by
  rw [Reader.skip]
  dsimp only
  split <;> rfl

theorem len_readBlock (s : Reader) : s.readBlock.2.len = s.len := by
  rw [Reader.readBlock, Reader.getUint32]
  cases hread : s.readByte 4 with
  | error e => rfl
  | ok r =>
    have hskip := len_skip r.2 (readUint32 r.1)
    rw [len_readByte hread] at hskip
    dsimp only [bind, Except.bind, pure, Except.pure]
    split
    case h_1 hthrow => rw [hthrow] at hskip; exact hskip
    case h_2 hreturn => rw [hreturn] at hskip; exact hskip

/-- No read changes what the stream is over. -/
theorem len_afterRead (s : Reader) (op : ReadOp) : (afterRead s op).len = s.len := by
  cases op with
  | scalar t =>
    change (s.getScalar t).2.len = s.len
    rw [Reader.getScalar]
    cases hread : s.readByte t.size with
    | error e => rfl
    | ok r => exact len_readByte hread
  | string => exact len_readBlock s
  | data => exact len_readBlock s

end

/-- **When reads stay inside.** Both for what is returned, and for the position after every read,
    thrown or not. -/
theorem readsInside_iff (mem : Bytes) {len : Nat} (hlen : len < 2 ^ 32) (ops : List ReadOp) :
    (EachStep afterRead StaysInside (.ofBuf mem len) ops ↔
        EachStep afterRead NoWrap (.ofBuf mem len) ops) ∧
      (EachStep afterRead (fun s op => StaysInside s op ∧ (afterRead s op).pos ≤ s.len)
          (.ofBuf mem len) ops ↔
        EachStep afterRead BlockFits (.ofBuf mem len) ops) := by
  have htrue : EachStep afterRead (fun _ _ => True) (.ofBuf mem len) ops :=
    EachStep.of_forall_mem fun _ _ => trivial
  constructor
  · refine EachStep.congr_of_invariant (fun s => s.len < 2 ^ 32) ?_ ?_ hlen htrue
    · intro s op hl _ _
      rw [len_afterRead]
      exact hl
    · intro s op hl _
      exact staysInside_step hl op
  · refine EachStep.congr_of_invariant (fun s => s.len < 2 ^ 32 ∧ s.pos ≤ s.len) ?_ ?_
      ⟨hlen, Nat.zero_le _⟩ htrue
    · rintro s op ⟨hl, -⟩ - ⟨-, hpos⟩
      rw [len_afterRead]
      exact ⟨hl, hpos⟩
    · rintro s op ⟨hl, hpos⟩ -
      exact staysInside_pos_step hl hpos op

/-- What the constructor of `CPduAttachData` reads. -/
def attachReads : List ReadOp := [.scalar .uint32, .scalar .uint32, .scalar .uint32, .data]

theorem readsInside_iff_zeros :
    (EachStep afterRead StaysInside (.ofBuf (List.replicate 16 0) 16) attachReads ↔
        EachStep afterRead NoWrap (.ofBuf (List.replicate 16 0) 16) attachReads) ∧
      (EachStep afterRead (fun s op => StaysInside s op ∧ (afterRead s op).pos ≤ s.len)
          (.ofBuf (List.replicate 16 0) 16) attachReads ↔
        EachStep afterRead BlockFits (.ofBuf (List.replicate 16 0) 16) attachReads) :=
  readsInside_iff _ (by decide) _

/-- A length of `2 ^ 32 - 1` brings the position back by one. -/
theorem not_readsInside_ones :
    ¬ EachStep afterRead StaysInside
      (.ofBuf (List.replicate 12 0 ++ List.replicate 4 255) 16) attachReads := by
  rintro ⟨-, -, -, hdata, -⟩
  have hread : ((((Reader.ofBuf (List.replicate 12 0 ++ List.replicate 4 255) 16).get
      (.scalar .uint32)).2.get (.scalar .uint32)).2.get (.scalar .uint32)).2.get .data =
      (.ok (.data 16 0xFFFFFFFF),
        ⟨List.replicate 12 0 ++ List.replicate 4 255, 16, 15⟩) := by
    decide +kernel
  have hend := (hdata.returns _ (congrArg Prod.fst hread)).1 (16, 0xFFFFFFFF) (by simp [pointers])
  rw [len_afterRead, len_afterRead, len_afterRead] at hend
  exact absurd hend (by decide)

end Global
end Proof
end PtpCore
