import PtpCore.Lib.Bytes

/-!
# Hashes that eat blocks of one size

An iterated hash works on a state and on blocks of a fixed length. A message comes in pieces of
any length, so an implementation keeps what does not fill a block yet in a block of memory, and
what lies behind it there is left over from before. `Holds` says what such a memory has to do with
the bytes fed so far; there are three ways to feed some more, and one lemma for each.

Nothing here speaks of padding, of words or of how a block is mixed into the state.
-/

namespace PtpCore
namespace Lib

/-- A state, and how a block of `size` goes into it. -/
structure BlockHash (α σ : Type) where
  size : Nat
  pos : 0 < size
  compress : σ → List α → σ

namespace BlockHash

variable {α σ : Type} (B : BlockHash α σ) {s s' : σ} {buf d e : List α}

/-- The first `n` blocks of `d`. -/
def blocks (s : σ) (d : List α) (n : Nat) : σ :=
  (List.range n).foldl (fun s i => B.compress s (slice d (B.size * i) B.size)) s

/-- The blocks of `d` that are full. -/
def absorb (s : σ) (d : List α) : σ := B.blocks s d (d.length / B.size)

/-- What does not fill a block. -/
def rest (d : List α) : List α := d.drop (B.size * (d.length / B.size))

theorem blocks_succ (s : σ) (d : List α) (n : Nat) :
    B.blocks s d (n + 1) = B.compress (B.blocks s d n) (slice d (B.size * n) B.size) := by
  simp [blocks, List.range_succ]

theorem blocks_append {n : Nat} (h : B.size * n ≤ d.length) :
    B.blocks s (d ++ e) n = B.blocks s d n := by
  induction n with
  | zero => rfl
  | succ n ih =>
    rw [Nat.mul_succ] at h
    rw [blocks_succ, blocks_succ, ih (by omega), slice_append_left h]

/-- Blocks that stand behind `d` when `d` is itself made of blocks. -/
theorem blocks_append_right {k : Nat} (hd : d.length = B.size * k) (n : Nat) :
    B.blocks s (d ++ e) (k + n) = B.blocks (B.blocks s d k) e n := by
  induction n with
  | zero => exact B.blocks_append (Nat.le_of_eq hd.symm)
  | succ n ih => rw [← Nat.add_assoc, blocks_succ, ih, blocks_succ, Nat.mul_add,
      slice_append_right hd]

theorem length_rest (d : List α) : (B.rest d).length = d.length % B.size := by
  have hdiv := Nat.div_add_mod d.length B.size
  rw [rest, List.length_drop]
  omega

theorem rest_of_dvd (h : d.length % B.size = 0) : B.rest d = [] :=
  List.eq_nil_of_length_eq_zero ((B.length_rest d).trans h)

@[simp] theorem absorb_nil (s : σ) : B.absorb s [] = s := by
  simp [absorb, blocks]

/-- What is behind the full blocks of `d` only sees their state and what they left. -/
theorem absorb_append (s : σ) (d e : List α) :
    B.absorb s (d ++ e) = B.absorb (B.absorb s d) (B.rest d ++ e) := by
  let k := d.length / B.size
  have hk : B.size * k ≤ d.length := Nat.mul_div_le ..
  have hfull : (d.take (B.size * k)).length = B.size * k := by simpa using hk
  have hsplit : d ++ e = d.take (B.size * k) ++ (B.rest d ++ e) := by
    rw [rest, ← List.append_assoc, List.take_append_drop]
  have hcount : (d ++ e).length / B.size = k + (B.rest d ++ e).length / B.size := by
    rw [hsplit, List.length_append, hfull, Nat.mul_add_div B.pos]
  have hstate : B.blocks s (d.take (B.size * k)) k = B.absorb s d := by
    have happ := B.blocks_append (s := s) (e := d.drop (B.size * k)) (Nat.le_of_eq hfull.symm)
    rw [List.take_append_drop] at happ
    exact happ.symm
  rw [absorb, hcount, hsplit, B.blocks_append_right hfull, hstate]
  rfl

theorem absorb_append_of_dvd (h : d.length % B.size = 0) :
    B.absorb s (d ++ e) = B.absorb (B.absorb s d) e := by
  rw [absorb_append, B.rest_of_dvd h, List.nil_append]

theorem absorb_of_length_lt (h : d.length < B.size) : B.absorb s d = s := by
  rw [absorb, Nat.div_eq_of_lt h]
  rfl

theorem absorb_block (h : d.length = B.size) : B.absorb s d = B.compress s d := by
  rw [absorb, h, Nat.div_self B.pos, blocks_succ, Nat.mul_zero, slice, List.drop_zero,
    List.take_of_length_le (Nat.le_of_eq h)]
  rfl

theorem rest_append (d e : List α) : B.rest (d ++ e) = B.rest (B.rest d ++ e) := by
  let k := d.length / B.size
  have hk : B.size * k ≤ d.length := Nat.mul_div_le ..
  have hfull : (d.take (B.size * k)).length = B.size * k := by simpa using hk
  have hsplit : d ++ e = d.take (B.size * k) ++ (B.rest d ++ e) := by
    rw [rest, ← List.append_assoc, List.take_append_drop]
  rw [hsplit]
  generalize B.rest d ++ e = t
  rw [rest, rest, List.length_append, hfull, Nat.mul_add_div B.pos, Nat.mul_add,
    ← List.drop_drop, List.drop_left' hfull]

theorem rest_of_length_lt (h : d.length < B.size) : B.rest d = d := by
  rw [rest, Nat.div_eq_of_lt h, Nat.mul_zero, List.drop_zero]

/-- Two hashes that differ in how a state is written down. -/
theorem absorb_hom {τ : Type} {C : BlockHash α τ} (f : σ → τ) (hsize : C.size = B.size)
    (h : ∀ s b, f (B.compress s b) = C.compress (f s) b) (s : σ) (d : List α) :
    f (B.absorb s d) = C.absorb (f s) d := by
  rw [absorb, absorb, hsize]
  generalize d.length / B.size = n
  induction n with
  | zero => rfl
  | succ n ih => rw [blocks_succ, blocks_succ, h, ih, hsize]

/-! ## A block of memory for what is left over -/

/-- `s` and the memory `buf` stand for a hash that started at `s₀` and was fed `d`. -/
structure Holds (s₀ s : σ) (buf d : List α) : Prop where
  length : buf.length = B.size
  state : s = B.absorb s₀ d
  pending : buf.take (d.length % B.size) = B.rest d

variable {B} {s₀ : σ}

theorem Holds.nil (h : buf.length = B.size) : B.Holds s₀ s₀ buf [] :=
  ⟨h, (B.absorb_nil s₀).symm, by simp [rest]⟩

/-- The bytes do not fill the block: they are stored behind those that wait. -/
theorem Holds.store (h : B.Holds s₀ s buf d) (he : d.length % B.size + e.length < B.size) :
    B.Holds s₀ s (overwrite buf (d.length % B.size) e) (d ++ e) := by
  have hrest : (B.rest d ++ e).length < B.size := by rw [List.length_append, length_rest]; exact he
  have hmod : (d ++ e).length % B.size = d.length % B.size + e.length := by
    rw [List.length_append, Nat.add_mod, Nat.mod_eq_of_lt (a := e.length) (by omega),
      Nat.mod_eq_of_lt he]
  refine ⟨?_, ?_, ?_⟩
  · rw [length_overwrite (by rw [h.length]; omega), h.length]
  · rw [absorb_append, B.absorb_of_length_lt hrest, h.state]
  · have hle := Nat.mod_lt d.length B.pos
    rw [hmod, take_overwrite_add (by rw [h.length]; omega), h.pending, rest_append,
      B.rest_of_length_lt hrest]

/-- The bytes fill the block: it is mixed in, and the memory no longer matters. -/
theorem Holds.fill (h : B.Holds s₀ s buf d) (he : d.length % B.size + e.length = B.size)
    {buf' : List α} (hbuf : buf'.length = B.size) :
    B.Holds s₀ (B.compress s (overwrite buf (d.length % B.size) e)) buf' (d ++ e) ∧
      (d ++ e).length % B.size = 0 := by
  have hblock : overwrite buf (d.length % B.size) e = B.rest d ++ e := by
    have hin : d.length % B.size + e.length ≤ buf.length := by rw [h.length, he]
    rw [← h.pending, ← take_overwrite_add (by omega),
      List.take_of_length_le (by rw [length_overwrite hin, h.length, he])]
  have hlen : (B.rest d ++ e).length = B.size := by rw [List.length_append, length_rest, he]
  have hmod : (d ++ e).length % B.size = 0 := by
    rw [List.length_append, ← Nat.mod_add_mod, he, Nat.mod_self]
  refine ⟨⟨hbuf, ?_, ?_⟩, hmod⟩
  · rw [absorb_append, B.absorb_block hlen, hblock, h.state]
  · rw [hmod, List.take_zero, B.rest_of_dvd hmod]

/-- A whole block, when nothing waits. -/
theorem Holds.block (h : B.Holds s₀ s buf d) (hd : d.length % B.size = 0)
    (he : e.length = B.size) {buf' : List α} (hbuf : buf'.length = B.size) :
    B.Holds s₀ (B.compress s e) buf' (d ++ e) ∧ (d ++ e).length % B.size = 0 := by
  have hmod : (d ++ e).length % B.size = 0 := by
    rw [List.length_append, he, Nat.add_mod_right, hd]
  refine ⟨⟨hbuf, ?_, ?_⟩, hmod⟩
  · rw [B.absorb_append_of_dvd hd, B.absorb_block he, h.state]
  · rw [hmod, List.take_zero, B.rest_of_dvd hmod]

/-! ## Filling up the last block -/

section Closing

variable {τ : Type} (C : BlockHash UInt8 τ) {t : τ} {m count : Bytes}

/-- What is put behind a message of `len` bytes: a mark, zeros, and the length as `count`. -/
def closing (count : Bytes) (len : Nat) : Bytes :=
  0x80 :: (List.replicate ((2 * C.size - 1 - count.length - len % C.size) % C.size) 0 ++ count)

/-- The rest of the message, the mark and the length fit in one block. -/
theorem absorb_closing_one (h : (C.rest m).length + 1 + count.length ≤ C.size) :
    C.absorb t (m ++ C.closing count m.length) = C.compress (C.absorb t m) (C.rest m ++ 0x80 ::
      (List.replicate (C.size - count.length - ((C.rest m).length + 1)) 0 ++ count)) := by
  have hzeros : (2 * C.size - 1 - count.length - m.length % C.size) % C.size =
      C.size - count.length - ((C.rest m).length + 1) := by
    rw [length_rest] at *
    rw [show 2 * C.size - 1 - count.length - m.length % C.size =
      C.size - count.length - (m.length % C.size + 1) + C.size by omega, Nat.add_mod_right,
      Nat.mod_eq_of_lt (by omega)]
  rw [absorb_append, closing, hzeros, C.absorb_block]
  simp only [List.length_append, List.length_cons, List.length_replicate]
  omega

/-- They do not, and the length gets a block of its own. -/
theorem absorb_closing_two (hcount : count.length < C.size)
    (h : C.size < (C.rest m).length + 1 + count.length) :
    C.absorb t (m ++ C.closing count m.length) =
      C.compress (C.compress (C.absorb t m)
        (C.rest m ++ 0x80 :: List.replicate (C.size - ((C.rest m).length + 1)) 0))
        (List.replicate (C.size - count.length) 0 ++ count) := by
  have hlt : (C.rest m).length < C.size := by rw [length_rest]; exact Nat.mod_lt _ C.pos
  have hzeros : (2 * C.size - 1 - count.length - m.length % C.size) % C.size =
      C.size - ((C.rest m).length + 1) + (C.size - count.length) := by
    rw [length_rest] at *
    rw [Nat.mod_eq_of_lt (by omega)]
    omega
  have hsplit : C.rest m ++ C.closing count m.length =
      (C.rest m ++ 0x80 :: List.replicate (C.size - ((C.rest m).length + 1)) 0) ++
        (List.replicate (C.size - count.length) 0 ++ count) := by
    simp [closing, hzeros, ← List.replicate_append_replicate]
  have hfirst : (C.rest m ++ 0x80 ::
      List.replicate (C.size - ((C.rest m).length + 1)) 0).length = C.size := by
    simp only [List.length_append, List.length_cons, List.length_replicate]
    omega
  rw [absorb_append, hsplit, C.absorb_append_of_dvd (by rw [hfirst, Nat.mod_self]),
    C.absorb_block hfirst, C.absorb_block]
  simp only [List.length_append, List.length_replicate]
  omega

end Closing

end BlockHash

end Lib
end PtpCore
