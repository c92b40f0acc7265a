import PtpCore.Lib.Run
import PtpCore.Proof.Global.ByteStream

/-!
# Writing to a buffer of fixed size

A write that does not fit is skipped. A string is two writes, its length and its contents, and each
of them is skipped or not by itself: a length may stand there without contents, and short contents
without their length. As long as no string is cut that way, and no sum wraps around, what is in the
buffer is a sequence of whole values (`completeValues`).
-/

namespace PtpCore
namespace Proof
namespace Global

open Lib PtpCore.Global PtpCore.Global.CByteStream

/-- The memory of a stream over a plain buffer, and where it has stored to. -/
def memOf (s : Writer) : Bytes × List (Nat × Nat) :=
  match s.target with
  | .simpBuf _ => ([], [])
  | .buf mem stores => (mem, stores)

/-- In front of the position are some of the values that were written so far, whole, and nothing
    was stored behind the end of the buffer. -/
structure CompleteValues (s : Writer) (done : List Value) : Prop where
  complete : ∃ kept, kept.Sublist done ∧ (memOf s).1.take s.pos = encodeAll kept
  inside : ∀ r ∈ (memOf s).2, r.1 + r.2 ≤ s.len

/-- A block goes in with its length, or neither of the two does; and no sum wraps around. -/
def BlockWhole (s : Writer) (b : Block) : Prop :=
  s.pos + (4 + b.bytes.length) ≤ s.len ∨
    s.len < s.pos + 4 ∧ s.pos + 4 < 2 ^ 32 ∧
      (b.bytes = [] ∨ s.len < s.pos + b.bytes.length ∧ s.pos + b.bytes.length < 2 ^ 32)

def CallWhole (s : Writer) : Value → Prop
  | .scalar x => s.pos + x.bytes.length < 2 ^ 32
  | .string b => BlockWhole s b
  | .data b => BlockWhole s b

/-- A stream over a plain buffer, in the middle of a run. -/
structure Fixed (s : Writer) (done : List Value) : Prop where
  complete : CompleteValues s done
  target : s.target = .buf (memOf s).1 (memOf s).2
  pos_le : s.pos ≤ s.len
  len_le : s.len ≤ (memOf s).1.length
  len_lt : s.len < 2 ^ 32

theorem fixed_ofBuf {mem : Bytes} {len : Nat} (hmem : len ≤ mem.length) (hlen : len < 2 ^ 32) :
    Fixed (.ofBuf mem len) [] where
  complete := ⟨⟨[], List.Sublist.refl _, List.take_zero⟩, fun _ hr => absurd hr List.not_mem_nil⟩
  target := rfl
  pos_le := Nat.zero_le _
  len_le := hmem
  len_lt := hlen

section

variable (heap : Nat → Nat → UInt8) {s : Writer} {buf mem : Bytes} {stores : List (Nat × Nat)}

/-- A write that does not fit. -/
theorem writeByte_skip (ht : s.target = .buf mem stores) (h : s.len < s.pos + buf.length)
    (hwrap : s.pos + buf.length < 2 ^ 32) : s.writeByte heap buf = s := by
  rw [Writer.writeByte, ht]
  dsimp only
  rw [Nat.mod_eq_of_lt hwrap, if_pos h]

/-- A write that fits. -/
theorem writeByte_fits (ht : s.target = .buf mem stores) (hl : s.len < 2 ^ 32)
    (h : s.pos + buf.length ≤ s.len) :
    s.writeByte heap buf = ⟨.buf (overwrite mem s.pos buf) (stores ++ [(s.pos, buf.length)]), s.len,
      s.pos + buf.length⟩ := by
  have hmod : (s.pos + buf.length) % 2 ^ 32 = s.pos + buf.length := Nat.mod_eq_of_lt (by omega)
  rw [Writer.writeByte, ht]
  dsimp only
  rw [hmod, if_neg (Nat.not_lt.mpr h)]

end

section

variable (heap : Nat → Nat → UInt8) {s : Writer} {done : List Value}

/-- A call that changes nothing leaves what was there. -/
theorem Fixed.skip (hs : Fixed s done) (v : Value) : Fixed s (done ++ [v]) := by
  obtain ⟨kept, hsub, hkept⟩ := hs.complete.complete
  exact ⟨⟨⟨kept, hsub.trans (List.sublist_append_left ..), hkept⟩, hs.complete.inside⟩, hs.target,
    hs.pos_le, hs.len_le, hs.len_lt⟩

/-- A call that stores the bytes of its value adds it to what is there. -/
theorem Fixed.store (hs : Fixed s done) {v : Value} (h : s.pos + (encode v).length ≤ s.len)
    {stores : List (Nat × Nat)} (hstores : ∀ r ∈ stores, r.1 + r.2 ≤ s.len) :
    Fixed ⟨.buf (overwrite (memOf s).1 s.pos (encode v)) stores, s.len, s.pos + (encode v).length⟩
      (done ++ [v]) := by
  have hpos := hs.pos_le
  have hmem := hs.len_le
  obtain ⟨kept, hsub, hkept⟩ := hs.complete.complete
  refine ⟨⟨⟨kept ++ [v], hsub.append (List.Sublist.refl _), ?_⟩, hstores⟩, rfl, h, ?_, hs.len_lt⟩
  · change (overwrite (memOf s).1 s.pos (encode v)).take (s.pos + (encode v).length) = _
    rw [take_overwrite_add (by omega), hkept]
    simp
  · change s.len ≤ (overwrite (memOf s).1 s.pos (encode v)).length
    rw [length_overwrite (by omega)]
    exact hmem

theorem Fixed.inside_concat (hs : Fixed s done) {n : Nat} (h : s.pos + n ≤ s.len) :
    ∀ r ∈ (memOf s).2 ++ [(s.pos, n)], r.1 + r.2 ≤ s.len := by
  intro r hr
  rcases List.mem_append.mp hr with hr | hr
  · exact hs.complete.inside r hr
  · rw [List.mem_singleton.mp hr]
    exact h

/-! ## One call -/

theorem Fixed.putScalar (hs : Fixed s done) {x : Scalar} (h : s.pos + x.bytes.length < 2 ^ 32) :
    Fixed (s.putScalar heap x) (done ++ [.scalar x]) := by
  rw [Writer.putScalar]
  by_cases hfits : s.pos + x.bytes.length ≤ s.len
  · rw [writeByte_fits heap hs.target hs.len_lt hfits]
    exact hs.store (v := .scalar x) hfits (hs.inside_concat hfits)
  · rw [writeByte_skip heap hs.target (Nat.not_le.mp hfits) h]
    exact hs.skip (.scalar x)

/-- A write of no bytes stores nothing. -/
theorem Fixed.writeByte_nil (hs : Fixed s done) (v : Value) :
    Fixed (s.writeByte heap []) (done ++ [v]) := by
  have hpos := hs.pos_le
  have hmem := hs.len_le
  have hnil : overwrite (memOf s).1 s.pos [] = (memOf s).1 := by
    simp [overwrite]
  have hfits : s.pos + ([] : Bytes).length ≤ s.len := hpos
  rw [writeByte_fits heap hs.target hs.len_lt hfits, hnil]
  obtain ⟨kept, hsub, hkept⟩ := (hs.skip v).complete.complete
  exact ⟨⟨⟨kept, hsub, hkept⟩, hs.inside_concat hpos⟩, rfl, hpos, hmem, hs.len_lt⟩

theorem Fixed.writeBlock (hs : Fixed s done) {b : Block} {v : Value} (hv : encode v = blockBytes b)
    (h : BlockWhole s b) : Fixed (s.writeBlock heap b) (done ++ [v]) := by
  have h4 : (Scalar.uint32 b.len).bytes.length = 4 := rfl
  have hl := hs.len_lt
  have hmem := hs.len_le
  rw [Writer.writeBlock, Writer.putScalar]
  rcases h with hfits | ⟨hlen, hwrap, hcontents⟩
  · -- both writes fit, and together they are one
    have hwhole : s.pos + (encode v).length ≤ s.len := by
      rw [hv, length_blockBytes]
      exact hfits
    have hprefix : s.pos + (Scalar.uint32 b.len).bytes.length ≤ s.len := by omega
    have hinside : ∀ r ∈ (memOf s).2 ++ [(s.pos, 4)] ++ [(s.pos + 4, b.bytes.length)],
        r.1 + r.2 ≤ s.len := by
      intro r hr
      rcases List.mem_append.mp hr with hr | hr
      · exact hs.inside_concat hprefix r hr
      · rw [List.mem_singleton.mp hr]
        dsimp only
        omega
    have hstored := hs.store hwhole hinside
    have hone : overwrite (overwrite (memOf s).1 s.pos (Scalar.uint32 b.len).bytes)
        (s.pos + (Scalar.uint32 b.len).bytes.length) b.bytes =
        overwrite (memOf s).1 s.pos (encode v) := by
      rw [overwrite_overwrite (by omega), hv]
      rfl
    rw [hv, length_blockBytes, ← Nat.add_assoc, ← hv, ← hone] at hstored
    have hcontents : s.pos + (Scalar.uint32 b.len).bytes.length + b.bytes.length ≤ s.len := by
      omega
    rw [writeByte_fits heap hs.target hl hprefix,
      writeByte_fits heap (s := ⟨.buf _ _, _, _⟩) rfl hl hcontents]
    exact hstored
  · rw [writeByte_skip heap hs.target (by omega) (by omega)]
    rcases hcontents with hnil | ⟨hlong, hwrap'⟩
    · rw [hnil]
      exact hs.writeByte_nil heap v
    · rw [writeByte_skip heap hs.target hlong hwrap']
      exact hs.skip v

/-- A whole call keeps the values whole. -/
theorem Fixed.put (hs : Fixed s done) {v : Value} (h : CallWhole s v) :
    Fixed (s.put heap v) (done ++ [v]) := by
  cases v with
  | scalar x => exact hs.putScalar heap h
  | string b => exact hs.writeBlock heap rfl h
  | data b => exact hs.writeBlock heap rfl h

end

/-- **Whole values, at every point**, as long as each call is whole. -/
theorem completeValues (heap : Nat → Nat → UInt8) {mem : Bytes} {len : Nat}
    (hmem : len ≤ mem.length) (hlen : len < 2 ^ 32) {values : List Value}
    (hwhole : EachStep (Writer.put heap) CallWhole (.ofBuf mem len) values) :
    ∀ pre, pre <+: values → CompleteValues ((Writer.ofBuf mem len).putAll heap pre) pre := by
  rintro pre ⟨post, rfl⟩
  have hpre := (eachStep_append.mp hwhole).1
  have hkeep : ∀ s done v, Fixed s done → CallWhole s v → Fixed (s.put heap v) (done ++ [v]) :=
    fun s done v hs hv => hs.put heap hv
  have hfixed := EachStep.final Fixed hkeep (fixed_ofBuf hmem hlen) hpre
  have hdone : pre.foldl (fun done v => done ++ [v]) [] = pre := by
    rw [List.foldl_append_eq_append, List.nil_append, ← List.flatMap_def, List.flatMap_singleton']
  rw [hdone] at hfixed
  exact hfixed.complete

def hiBlock : Block := ⟨[104, 105], by decide⟩

/-- A string that fits exactly, and one that does not fit at all. -/
theorem completeValues_hi :
    CompleteValues ((Writer.ofBuf (List.replicate 8 0) 6).putAll (fun _ _ => 0)
      [.string hiBlock, .data hiBlock]) [.string hiBlock, .data hiBlock] := by
  refine completeValues (fun _ _ => 0) (by decide) (by decide) ?_ _ (List.prefix_refl _)
  refine ⟨.inl (by decide), .inr ?_, trivial⟩
  decide +kernel

/-- Three letters into six bytes: the length goes in, and the letters do not. -/
theorem not_completeValues_abc :
    ¬ CompleteValues ((Writer.ofBuf (List.replicate 6 0) 6).putAll (fun _ _ => 0)
      [.string ⟨[97, 98, 99], by decide⟩]) [.string ⟨[97, 98, 99], by decide⟩] := by
  intro h
  obtain ⟨kept, hsub, htake⟩ := h.complete
  have hlen := congrArg List.length htake
  rcases List.sublist_singleton.mp hsub with rfl | rfl
  · exact absurd hlen (by decide)
  · exact absurd hlen (by decide)

end Global
end Proof
end PtpCore
