import PtpCore.Crypto.CSha
import PtpCore.Proof.Crypto.Sha2

/-!
# Two implementations, one digest (`ptp_crypto/sha256.cpp`, `ptp_crypto/sha512.cpp`)

`CSHA256` and `CSHA512` give the digests of `sha256_*` and `sha512_*`. The rounds agree because eight
lines that rename the registers are eight rounds that move them, and because the words that the
last two lines leave unstored are not read again. The contexts agree by the rules of
`Lib/BlockHash.lean`, as those of `sha2.cpp` do. `CSHA512` writes only 64 bits of the length, so there it
is the digest of messages below 2^61 bytes.
-/

namespace PtpCore
namespace Crypto

open Lib

/-! ## The rounds -/

namespace Unrolled

variable {W : Type} [Add W] (R : Unrolled W)

variable {a b c d e f g h d' h' x : W} {w w' : List W} {j : Nat}

/-- A line of the source, with the registers moved instead of renamed. -/
def line (v : Vars W × List W) (j : Nat) : Vars W × List W :=
  let (⟨a, b, c, d, e, f, g, h⟩, w) := v
  let (x, w) := R.word w j
  let (d, h) := R.round a b c d e f g h (R.constant j) x
  (⟨h, a, b, c, d, e, f, g⟩, w)

theorem line_eq (hx : R.word w j = (x, w'))
    (hr : R.round a b c d e f g h (R.constant j) x = (d', h')) :
    R.line (⟨a, b, c, d, e, f, g, h⟩, w) j = (⟨h', a, b, c, d', e, f, g⟩, w') := by
  simp only [line, hx, hr]

/-- After eight lines every register has its name back. -/
theorem eightLines_eq (v : Vars W × List W) (p : Nat) :
    R.eightLines v p = (List.range 8).foldl (fun v i => R.line v (8 * p + i)) v := by
  obtain ⟨⟨a, b, c, d, e, f, g, h⟩, w⟩ := v
  rcases hx0 : R.word w (8 * p) with ⟨x0, w0⟩
  rcases hr0 : R.round a b c d e f g h (R.constant (8 * p)) x0 with ⟨d, h⟩
  rcases hx1 : R.word w0 (8 * p + 1) with ⟨x1, w1⟩
  rcases hr1 : R.round h a b c d e f g (R.constant (8 * p + 1)) x1 with ⟨c, g⟩
  rcases hx2 : R.word w1 (8 * p + 2) with ⟨x2, w2⟩
  rcases hr2 : R.round g h a b c d e f (R.constant (8 * p + 2)) x2 with ⟨b, f⟩
  rcases hx3 : R.word w2 (8 * p + 3) with ⟨x3, w3⟩
  rcases hr3 : R.round f g h a b c d e (R.constant (8 * p + 3)) x3 with ⟨a, e⟩
  rcases hx4 : R.word w3 (8 * p + 4) with ⟨x4, w4⟩
  rcases hr4 : R.round e f g h a b c d (R.constant (8 * p + 4)) x4 with ⟨h, d⟩
  rcases hx5 : R.word w4 (8 * p + 5) with ⟨x5, w5⟩
  rcases hr5 : R.round d e f g h a b c (R.constant (8 * p + 5)) x5 with ⟨g, c⟩
  rcases hx6 : R.word w5 (8 * p + 6) with ⟨x6, w6⟩
  rcases hr6 : R.round c d e f g h a b (R.constant (8 * p + 6)) x6 with ⟨f, b⟩
  rcases hx7 : R.word w6 (8 * p + 7) with ⟨x7, w7⟩
  rcases hr7 : R.round b c d e f g h a (R.constant (8 * p + 7)) x7 with ⟨e, a⟩
  have hrange : List.range 8 = [0, 1, 2, 3, 4, 5, 6, 7] := rfl
  rw [hrange]
  simp only [List.foldl_cons, List.foldl_nil, Nat.add_zero, R.line_eq hx0 hr0, R.line_eq hx1 hr1,
    R.line_eq hx2 hr2, R.line_eq hx3 hr3, R.line_eq hx4 hr4, R.line_eq hx5 hr5, R.line_eq hx6 hr6,
    R.line_eq hx7 hr7, eightLines, hx0, hr0, hx1, hr1, hx2, hr2, hx3, hr3, hx4, hr4, hx5, hr5, hx6,
    hr6, hx7, hr7]

/-- The lines in groups of eight are the lines one by one. -/
theorem foldl_eightLines (v : Vars W × List W) (n : Nat) :
    (List.range n).foldl R.eightLines v = (List.range (8 * n)).foldl R.line v := by
  induction n with
  | zero => rfl
  | succ n ih =>
    rw [List.range_succ, List.foldl_append, ih, Nat.mul_succ, List.range_add, List.foldl_append,
      List.foldl_map, List.foldl_cons, List.foldl_nil, eightLines_eq]

/-! ### The words -/

/-- The words when every line stores its own, as `sha2.cpp` keeps them. -/
def schedule (w : List W) (j : Nat) : List W :=
  if j < 16 then w
  else
    w.set (j % 16) (w.getD (j % 16) R.zero + (R.sigma1 (w.getD ((j + 14) % 16) R.zero) +
      w.getD ((j + 9) % 16) R.zero + R.sigma0 (w.getD ((j + 1) % 16) R.zero)))

/-- A round of `sha2.cpp`. -/
def rolled (v : Vars W × List W) (j : Nat) : Vars W × List W :=
  let (⟨a, b, c, d, e, f, g, h⟩, w) := v
  let w := R.schedule w j
  let (d, h) := R.round a b c d e f g h (R.constant j) (w.getD (j % 16) R.zero)
  (⟨h, a, b, c, d, e, f, g⟩, w)

theorem length_schedule (w : List W) (j : Nat) : (R.schedule w j).length = w.length := by
  rw [schedule]
  split
  · rfl
  · exact List.length_set ..

/-- Before the last two lines the words agree. -/
theorem word_eq (hw : w.length = 16) (hj : j + 2 < R.constants.length) :
    R.word w j = ((R.schedule w j).getD (j % 16) R.zero, R.schedule w j) := by
  have hlt : j % 16 < w.length := by rw [hw]; exact Nat.mod_lt _ (by decide)
  rw [word, schedule]
  split
  · rfl
  · rw [if_pos (by omega)]
    simp [List.getD_eq_getElem?_getD, hlt]

theorem line_eq_rolled {v : Vars W × List W} (hw : v.2.length = 16)
    (hj : j + 2 < R.constants.length) : R.line v j = R.rolled v j := by
  obtain ⟨⟨a, b, c, d, e, f, g, h⟩, w⟩ := v
  simp only [line, rolled, R.word_eq hw hj]

theorem length_rolled (v : Vars W × List W) (j : Nat) : (R.rolled v j).2.length = v.2.length := by
  obtain ⟨⟨a, b, c, d, e, f, g, h⟩, w⟩ := v
  exact R.length_schedule w j

theorem length_foldl_rolled (v : Vars W × List W) (n : Nat) :
    ((List.range n).foldl R.rolled v).2.length = v.2.length := by
  induction n with
  | zero => rfl
  | succ n ih =>
    rw [List.range_succ, List.foldl_append, List.foldl_cons, List.foldl_nil, length_rolled, ih]

theorem foldl_line_eq {v : Vars W × List W} (hw : v.2.length = 16) {n : Nat}
    (hn : n + 2 ≤ R.constants.length) :
    (List.range n).foldl R.line v = (List.range n).foldl R.rolled v := by
  induction n with
  | zero => rfl
  | succ n ih =>
    rw [List.range_succ, List.foldl_append, List.foldl_append, ih (by omega), List.foldl_cons,
      List.foldl_cons, List.foldl_nil, List.foldl_nil,
      R.line_eq_rolled (by rw [length_foldl_rolled, hw]) (by omega)]

/-- The last two lines do not store their words. The registers do not see that: the one word that
    the last line would read differently is not among those it reads. -/
theorem last_lines_eq (hassoc : ∀ x y z : W, x + y + z = x + (y + z)) {v : Vars W × List W}
    (hw : v.2.length = 16) {n : Nat} (hn : n + 2 = R.constants.length) (h16 : 16 ≤ n)
    (hmod : n % 16 = 14) :
    (R.line (R.line v n) (n + 1)).1 = (R.rolled (R.rolled v n) (n + 1)).1 := by
  obtain ⟨⟨a, b, c, d, e, f, g, h⟩, w⟩ := v
  have h0 : (n + 1 + 1) % 16 = 0 := by omega
  have h8 : (n + 1 + 9) % 16 = 8 := by omega
  have h13 : (n + 1 + 14) % 16 = 13 := by omega
  have h15 : (n + 1) % 16 = 15 := by omega
  have hlt : n % 16 < w.length := by rw [hw]; exact Nat.mod_lt _ (by decide)
  have hother (i : Nat) (hi : i ≠ 14) (x : W) :
      (w.set 14 x).getD i R.zero = w.getD i R.zero := by
    simp [List.getD_eq_getElem?_getD, List.getElem?_set_ne (Ne.symm hi)]
  have hself (l : List W) (i : Nat) (hi : i < l.length) (x : W) :
      (l.set i x).getD i R.zero = x := by
    simp [List.getD_eq_getElem?_getD, hi]
  have hfirst : R.word w n = ((R.schedule w n).getD (n % 16) R.zero, w) := by
    rw [word, schedule, if_neg (by omega), if_neg (by omega), if_neg (by omega), hself _ _ hlt,
      hassoc, hassoc, hassoc]
  have hsecond : R.word w (n + 1) =
      ((R.schedule (R.schedule w n) (n + 1)).getD ((n + 1) % 16) R.zero, w) := by
    rw [word, schedule, schedule, if_neg (by omega), if_neg (by omega), if_neg (by omega),
      if_neg (by omega), hself _ _ (by rw [List.length_set, hw]; omega)]
    simp only [h0, h8, h13, h15, hmod, hother 0 (by decide), hother 8 (by decide),
      hother 13 (by decide), hother 15 (by decide)]
    rw [hassoc, hassoc, hassoc]
  simp only [line, rolled, hfirst, hsecond]

/-- The unrolled transformation is the rolled one. -/
theorem foldl_eightLines_eq (hassoc : ∀ x y z : W, x + y + z = x + (y + z)) {v : Vars W × List W}
    (hw : v.2.length = 16) {n : Nat} (hn : 16 * n = R.constants.length) (hpos : 2 ≤ n) :
    ((List.range (R.constants.length / 8)).foldl R.eightLines v).1 =
      ((List.range R.constants.length).foldl R.rolled v).1 := by
  have hlen : 8 * (R.constants.length / 8) = (R.constants.length - 2) + 1 + 1 := by omega
  have hall : R.constants.length = (R.constants.length - 2) + 1 + 1 := by omega
  rw [foldl_eightLines, hlen]
  conv_rhs => rw [hall]
  rw [List.range_succ, List.range_succ, List.foldl_append, List.foldl_append, List.foldl_append,
    List.foldl_append, R.foldl_line_eq hw (by omega)]
  exact R.last_lines_eq hassoc (by rw [length_foldl_rolled, hw]) (by omega) (by omega) (by omega)

theorem transform_eq (s : Vars W) (words : List W) :
    R.transform s words =
      let v := ((List.range (R.constants.length / 8)).foldl R.eightLines (s, words)).1
      ⟨s.a + v.a, s.b + v.b, s.c + v.c, s.d + v.d, s.e + v.e, s.f + v.f, s.g + v.g, s.h + v.h⟩ := by
  rw [transform]

end Unrolled

/-! ## The transformations -/

def Vars.regs256 (v : Vars UInt32) : Sha256.Regs := ⟨v.a, v.b, v.c, v.d, v.e, v.f, v.g, v.h⟩

def Vars.regs512 (v : Vars UInt64) : Sha512.Regs := ⟨v.a, v.b, v.c, v.d, v.e, v.f, v.g, v.h⟩

/-- The choice function, written with one operation less. -/
theorem Sha256.unrolled_ch (x y z : UInt32) : unrolled.ch x y z = ch x y z := by
  apply UInt32.toBitVec_inj.mp
  simp only [unrolled, ch, UInt32.toBitVec_xor, UInt32.toBitVec_and, UInt32.toBitVec_not]
  ext i hi
  simp only [BitVec.getElem_xor, BitVec.getElem_and, BitVec.getElem_not]
  cases x.toBitVec[i] <;> cases y.toBitVec[i] <;> cases z.toBitVec[i] <;> rfl

theorem Sha256.unrolled_maj (x y z : UInt32) : unrolled.maj x y z = maj x y z := by
  apply UInt32.toBitVec_inj.mp
  simp only [unrolled, maj, UInt32.toBitVec_xor, UInt32.toBitVec_and, UInt32.toBitVec_or]
  ext i hi
  simp only [BitVec.getElem_xor, BitVec.getElem_and, BitVec.getElem_or]
  cases x.toBitVec[i] <;> cases y.toBitVec[i] <;> cases z.toBitVec[i] <;> rfl

theorem Sha512.unrolled_ch (x y z : UInt64) : unrolled.ch x y z = ch x y z := by
  apply UInt64.toBitVec_inj.mp
  simp only [unrolled, ch, UInt64.toBitVec_xor, UInt64.toBitVec_and, UInt64.toBitVec_not]
  ext i hi
  simp only [BitVec.getElem_xor, BitVec.getElem_and, BitVec.getElem_not]
  cases x.toBitVec[i] <;> cases y.toBitVec[i] <;> cases z.toBitVec[i] <;> rfl

theorem Sha512.unrolled_maj (x y z : UInt64) : unrolled.maj x y z = maj x y z := by
  apply UInt64.toBitVec_inj.mp
  simp only [unrolled, maj, UInt64.toBitVec_xor, UInt64.toBitVec_and, UInt64.toBitVec_or]
  ext i hi
  simp only [BitVec.getElem_xor, BitVec.getElem_and, BitVec.getElem_or]
  cases x.toBitVec[i] <;> cases y.toBitVec[i] <;> cases z.toBitVec[i] <;> rfl

/-- A round of `sha256_Transform`, with the words before it. -/
def Sha256.rolled (v : Regs × List UInt32) (j : Nat) : Regs × List UInt32 :=
  (round v.1 (k256.getD j 0) ((schedule v.2 j).getD (j % 16) 0), schedule v.2 j)

def Sha512.rolled (v : Regs × List UInt64) (j : Nat) : Regs × List UInt64 :=
  (round v.1 (k512.getD j 0) ((schedule v.2 j).getD (j % 16) 0), schedule v.2 j)

theorem Sha256.transformWords_eq (s : Regs) (data : List UInt32) :
    transformWords s data = Regs.mk (s.a + ((List.range 64).foldl rolled (s, data)).1.a)
      (s.b + ((List.range 64).foldl rolled (s, data)).1.b)
      (s.c + ((List.range 64).foldl rolled (s, data)).1.c)
      (s.d + ((List.range 64).foldl rolled (s, data)).1.d)
      (s.e + ((List.range 64).foldl rolled (s, data)).1.e)
      (s.f + ((List.range 64).foldl rolled (s, data)).1.f)
      (s.g + ((List.range 64).foldl rolled (s, data)).1.g)
      (s.h + ((List.range 64).foldl rolled (s, data)).1.h) := by
  have hrolled : rolled = fun (v : Regs × List UInt32) j =>
      (round v.1 (k256.getD j 0) ((schedule v.2 j).getD (j % 16) 0), schedule v.2 j) := rfl
  rw [transformWords, hrolled]

theorem Sha256.unrolled_transform (s : Vars UInt32) {words : List UInt32}
    (hwords : words.length = 16) :
    (unrolled.transform s words).regs256 = transformWords s.regs256 words := by
  have hstep (v : Vars UInt32 × List UInt32) (j : Nat) :
      rolled (v.1.regs256, v.2) j = ((unrolled.rolled v j).1.regs256, (unrolled.rolled v j).2) := by
    obtain ⟨⟨a, b, c, d, e, f, g, h⟩, w⟩ := v
    simp only [Unrolled.rolled, Unrolled.round, unrolled_ch, unrolled_maj]
    rfl
  have hfold (l : List Nat) (v : Vars UInt32 × List UInt32) :
      l.foldl rolled (v.1.regs256, v.2) =
        ((l.foldl unrolled.rolled v).1.regs256, (l.foldl unrolled.rolled v).2) := by
    induction l generalizing v with
    | nil => rfl
    | cons j l ih => rw [List.foldl_cons, hstep]; exact ih _
  have hlen : unrolled.constants.length / 8 = 8 := rfl
  have hlines : ((List.range 8).foldl unrolled.eightLines (s, words)).1 =
      ((List.range 64).foldl unrolled.rolled (s, words)).1 :=
    unrolled.foldl_eightLines_eq UInt32.add_assoc (v := (s, words)) hwords (n := 4) rfl (by decide)
  have hregs : ((List.range 64).foldl rolled (s.regs256, words)).1 =
      ((List.range 8).foldl unrolled.eightLines (s, words)).1.regs256 := by
    rw [hfold _ (s, words), hlines]
  rw [transformWords_eq, hregs, Unrolled.transform_eq, hlen]
  rfl

theorem Sha512.transform_eq (s : Regs) (data : List UInt64) :
    transform s data = Regs.mk (s.a + ((List.range 80).foldl rolled (s, data)).1.a)
      (s.b + ((List.range 80).foldl rolled (s, data)).1.b)
      (s.c + ((List.range 80).foldl rolled (s, data)).1.c)
      (s.d + ((List.range 80).foldl rolled (s, data)).1.d)
      (s.e + ((List.range 80).foldl rolled (s, data)).1.e)
      (s.f + ((List.range 80).foldl rolled (s, data)).1.f)
      (s.g + ((List.range 80).foldl rolled (s, data)).1.g)
      (s.h + ((List.range 80).foldl rolled (s, data)).1.h) := by
  have hrolled : rolled = fun (v : Regs × List UInt64) j =>
      (round v.1 (k512.getD j 0) ((schedule v.2 j).getD (j % 16) 0), schedule v.2 j) := rfl
  rw [transform, hrolled]

theorem Sha512.unrolled_transform (s : Vars UInt64) {words : List UInt64}
    (hwords : words.length = 16) :
    (unrolled.transform s words).regs512 = transform s.regs512 words := by
  have hstep (v : Vars UInt64 × List UInt64) (j : Nat) :
      rolled (v.1.regs512, v.2) j = ((unrolled.rolled v j).1.regs512, (unrolled.rolled v j).2) := by
    obtain ⟨⟨a, b, c, d, e, f, g, h⟩, w⟩ := v
    simp only [Unrolled.rolled, Unrolled.round, unrolled_ch, unrolled_maj]
    rfl
  have hfold (l : List Nat) (v : Vars UInt64 × List UInt64) :
      l.foldl rolled (v.1.regs512, v.2) =
        ((l.foldl unrolled.rolled v).1.regs512, (l.foldl unrolled.rolled v).2) := by
    induction l generalizing v with
    | nil => rfl
    | cons j l ih => rw [List.foldl_cons, hstep]; exact ih _
  have hlen : unrolled.constants.length / 8 = 10 := rfl
  have hlines : ((List.range 10).foldl unrolled.eightLines (s, words)).1 =
      ((List.range 80).foldl unrolled.rolled (s, words)).1 :=
    unrolled.foldl_eightLines_eq UInt64.add_assoc (v := (s, words)) hwords (n := 5) rfl (by decide)
  have hregs : ((List.range 80).foldl rolled (s.regs512, words)).1 =
      ((List.range 10).foldl unrolled.eightLines (s, words)).1.regs512 := by
    rw [hfold _ (s, words), hlines]
  rw [transform_eq, hregs, Unrolled.transform_eq, hlen]
  rfl

/-! ## The contexts -/

namespace CShaClass

variable {W : Type} {K : CShaClass W}

/-- The lengths of a class fit together; `n` bytes of its last block are the length. -/
structure Lawful (K : CShaClass W) (n : Nat) : Prop where
  pos : 0 < K.blockLength
  dvd : K.blockLength ∣ 2 ^ 64
  small : K.blockLength < 2 ^ 16
  length_sizedesc : ∀ bytes, (K.sizedesc bytes).length = n
  padFrom : K.padFrom = 2 * K.blockLength - 1 - n

/-- The class as a hash that eats blocks. -/
def blockHash {n : Nat} (L : K.Lawful n) : BlockHash UInt8 (Vars W) where
  size := K.blockLength
  pos := L.pos
  compress := K.transform

/-- The context stands for `d`. -/
structure Fed {n : Nat} (L : K.Lawful n) (c : CSha W) (d : Bytes) : Prop where
  holds : (blockHash L).Holds K.initial c.s c.buf d
  bytes : c.bytes.toNat = d.length % 2 ^ 64

variable {n : Nat} {L : K.Lawful n} {c : CSha W} {d e : Bytes}

theorem fed_new (L : K.Lawful n) : Fed L K.new [] where
  holds := BlockHash.Holds.nil List.length_replicate
  bytes := rfl

theorem Fed.bufsize (h : Fed L c d) : c.bytes.toNat % K.blockLength = d.length % K.blockLength := by
  rw [h.bytes, Nat.mod_mod_of_dvd _ L.dvd]

theorem bytes_add {bytes : UInt64} (h : bytes.toNat = d.length % 2 ^ 64) :
    (bytes + UInt64.ofNat e.length).toNat = (d ++ e).length % 2 ^ 64 := by
  rw [UInt64.toNat_add, UInt64.toNat_ofNat', h, List.length_append]
  omega

theorem wholeChunks_fed (k : Nat) (h : Fed L c d) (hd : d.length % K.blockLength = 0)
    (he : K.blockLength * k ≤ e.length) :
    Fed L (K.wholeChunks k c e).1 (d ++ e.take (K.blockLength * k)) ∧
      (K.wholeChunks k c e).2 = e.drop (K.blockLength * k) ∧
      (d ++ e.take (K.blockLength * k)).length % K.blockLength = 0 := by
  induction k generalizing c d e with
  | zero => simpa [wholeChunks] using ⟨h, hd⟩
  | succ k ih =>
    rw [Nat.mul_succ] at he
    have hsmall := L.small
    have hfirst : (e.take K.blockLength).length = K.blockLength := by rw [List.length_take]; omega
    obtain ⟨hholds, hmod⟩ := h.holds.block hd hfirst h.holds.length
    have hbytes := bytes_add (e := e.take K.blockLength) h.bytes
    rw [hfirst] at hbytes
    have hfed : Fed L
        ⟨K.transform c.s (e.take K.blockLength), c.buf, c.bytes + UInt64.ofNat K.blockLength⟩
        (d ++ e.take K.blockLength) := ⟨hholds, hbytes⟩
    have hrest := ih (e := e.drop K.blockLength) hfed hmod (by rw [List.length_drop]; omega)
    have htake : e.take K.blockLength ++ (e.drop K.blockLength).take (K.blockLength * k) =
        e.take (K.blockLength * (k + 1)) := by
      rw [Nat.mul_succ, Nat.add_comm, List.take_add]
    rwa [List.append_assoc, htake, List.drop_drop, Nat.add_comm K.blockLength] at hrest

/-- The second half of `Write`: nothing waits, or everything fits behind what waits. -/
theorem writeChunks_fed (h : Fed L c d)
    (hd : d.length % K.blockLength = 0 ∨ d.length % K.blockLength + e.length < K.blockLength) :
    Fed L (K.writeChunks c (d.length % K.blockLength) e) (d ++ e) := by
  have hpos := L.pos
  have hsmall := L.small
  have hchunks : ∃ m, (K.wholeChunks (e.length / K.blockLength) c e).2 = e.drop m ∧
      (e.drop m).length + d.length % K.blockLength < K.blockLength ∧
      Fed L (K.wholeChunks (e.length / K.blockLength) c e).1 (d ++ e.take m) ∧
      (d ++ e.take m).length % K.blockLength = d.length % K.blockLength := by
    rcases hd with hd | hd
    · have hle : K.blockLength * (e.length / K.blockLength) ≤ e.length := Nat.mul_div_le ..
      have hdiv := Nat.div_add_mod e.length K.blockLength
      have hlt := Nat.mod_lt e.length hpos
      obtain ⟨hfed, hleft, hmod⟩ := wholeChunks_fed (e.length / K.blockLength) h hd hle
      exact ⟨_, hleft, by rw [List.length_drop]; omega, hfed, by rw [hmod, hd]⟩
    · have hnone : e.length / K.blockLength = 0 := Nat.div_eq_of_lt (by omega)
      rw [hnone]
      refine ⟨0, rfl, by rw [List.drop_zero]; omega, ?_, ?_⟩ <;>
        rw [List.take_zero, List.append_nil]
      exact h
  obtain ⟨m, hleft, hlt, hfed, hmod⟩ := hchunks
  have hall : d ++ e.take m ++ e.drop m = d ++ e := by rw [List.append_assoc, List.take_append_drop]
  rw [writeChunks]
  simp only [hleft]
  split
  · have hstore := hfed.holds.store (e := e.drop m) (by
      change (d ++ e.take m).length % K.blockLength + _ < K.blockLength
      omega)
    have hbytes := bytes_add (e := e.drop m) hfed.bytes
    change (blockHash L).Holds _ _ (overwrite _ ((d ++ e.take m).length % K.blockLength) _) _ at hstore
    rw [hmod, hall] at hstore
    rw [hall] at hbytes
    exact ⟨hstore, hbytes⟩
  case isFalse hnil =>
    rw [List.eq_nil_of_length_eq_zero (l := List.drop m e) (by omega), List.append_nil] at hall
    rw [← hall]
    exact hfed

theorem write_fed (h : Fed L c d) (e : Bytes) : Fed L (K.write c e) (d ++ e) := by
  have hlt := Nat.mod_lt d.length L.pos
  have hsmall := L.small
  rw [write]
  simp only [h.bufsize]
  split
  case isTrue hfull =>
    have hfirst : (e.take (K.blockLength - d.length % K.blockLength)).length =
        K.blockLength - d.length % K.blockLength := by rw [List.length_take]; omega
    have hbuf : (overwrite c.buf (d.length % K.blockLength)
        (e.take (K.blockLength - d.length % K.blockLength))).length = K.blockLength := by
      have hlen : c.buf.length = K.blockLength := h.holds.length
      rw [length_overwrite (by omega), hlen]
    obtain ⟨hholds, hmod⟩ := h.holds.fill
      (e := e.take (K.blockLength - d.length % K.blockLength))
      (by change d.length % K.blockLength + _ = K.blockLength; omega) hbuf
    have hbytes := bytes_add (e := e.take (K.blockLength - d.length % K.blockLength)) h.bytes
    rw [hfirst] at hbytes
    have hfed : Fed L ⟨K.transform c.s (overwrite c.buf (d.length % K.blockLength)
        (e.take (K.blockLength - d.length % K.blockLength))), _,
        c.bytes + UInt64.ofNat (K.blockLength - d.length % K.blockLength)⟩
        (d ++ e.take (K.blockLength - d.length % K.blockLength)) := ⟨hholds, hbytes⟩
    have hrest := writeChunks_fed (e := e.drop (K.blockLength - d.length % K.blockLength)) hfed
      (.inl hmod)
    have hzero : (d ++ e.take (K.blockLength - d.length % K.blockLength)).length % K.blockLength =
      0 := hmod
    rwa [hzero, List.append_assoc, List.take_append_drop] at hrest
  case isFalse hnot => exact writeChunks_fed h (by omega)

/-- The digest is that of the whole message, with the length as `sizedesc` has it. -/
theorem finalize_fed (h : Fed L c d) :
    let v := (blockHash L).absorb K.initial
      (d ++ (blockHash L).closing (K.sizedesc c.bytes) d.length)
    K.finalize c = [v.a, v.b, v.c, v.d, v.e, v.f, v.g, v.h].flatMap K.writeBE := by
  have hpos := L.pos
  have hlen := L.length_sizedesc c.bytes
  let zeros := (K.padFrom - d.length % K.blockLength) % K.blockLength
  have hzeros : zeros < K.blockLength := Nat.mod_lt _ hpos
  have hpad : ((0x80 : UInt8) :: List.replicate (K.blockLength - 1) 0).take (1 + zeros) =
      0x80 :: List.replicate zeros 0 := by
    rw [Nat.add_comm, List.take_succ_cons, List.take_replicate, Nat.min_eq_left (by omega)]
  have hclosing : (0x80 :: List.replicate zeros 0) ++ K.sizedesc c.bytes =
      (blockHash L).closing (K.sizedesc c.bytes) d.length := by
    rw [BlockHash.closing, hlen, List.cons_append]
    change _ = 0x80 :: (List.replicate ((2 * K.blockLength - 1 - n - d.length % K.blockLength) %
      K.blockLength) 0 ++ _)
    rw [← L.padFrom]
  have hfed := write_fed (write_fed h (0x80 :: List.replicate zeros 0)) (K.sizedesc c.bytes)
  rw [List.append_assoc, hclosing] at hfed
  rw [finalize, h.bufsize, hpad]
  simp only [← hfed.holds.state]

/-! ### Whole runs -/

/-- A call of `Write` or `Reset`. -/
def step (K : CShaClass W) (c : CSha W) : HasherOp → CSha W
  | .update data => K.write c data
  | .reset => K.reset c

theorem step_fed (h : Fed L c d) (op : HasherOp) : Fed L (K.step c op) (fedSince d op) := by
  cases op with
  | update data => exact write_fed h data
  | reset => exact ⟨BlockHash.Holds.nil h.holds.length, rfl⟩

theorem foldl_step_fed (h : Fed L c d) (ops : List HasherOp) :
    Fed L (ops.foldl K.step c) (ops.foldl fedSince d) := by
  induction ops generalizing c d with
  | nil => exact h
  | cons op ops ih => exact ih (step_fed h op)

end CShaClass

/-! ## The two classes -/

open CShaClass

theorem lawful_csha256 : csha256.Lawful 8 where
  pos := by decide
  dvd := by decide
  small := by decide
  length_sizedesc _ := length_toBE ..
  padFrom := rfl

theorem lawful_csha512 : csha512.Lawful 16 where
  pos := by decide
  dvd := by decide
  small := by decide
  length_sizedesc _ := by
    change (List.replicate 8 0 ++ toBE 8 _).length = 16
    rw [List.length_append, List.length_replicate, length_toBE]
  padFrom := rfl

/-- `bytes << 3` is what fits of the number of bits. -/
theorem toNat_shiftLeft_three {bytes : UInt64} {len : Nat} (h : bytes.toNat = len % 2 ^ 64) :
    (bytes <<< 3).toNat = 8 * len % 2 ^ 64 := by
  have hshift := UInt64.toNat_shiftLeft bytes 3
  rw [hshift, h, show (3 : UInt64).toNat % 64 = 3 from rfl, Nat.shiftLeft_eq]
  omega

theorem length_words16 {W : Type} (f : Nat → W) : ((List.range 16).map f).length = 16 := by simp

theorem wordsOf_512 (b : Bytes) : sha2With512.wordsOf 16 b =
    (List.range 16).map fun i => UInt64.ofNat (ofBE (slice b (8 * i) 8)) := by
  rw [Sha2.wordsOf]
  refine List.map_congr_left fun i _ => ?_
  rw [Nat.mul_comm 8 i]
  rfl

/-- `CSHA256` after any run gives the digest of `sha256_*`. -/
theorem csha256_run (ops : List HasherOp) :
    csha256.finalize (ops.foldl csha256.step csha256.new) = sha256 (ops.foldl fedSince []) := by
  let d := ops.foldl fedSince []
  let c := ops.foldl csha256.step csha256.new
  have h : CShaClass.Fed lawful_csha256 c d := foldl_step_fed (fed_new lawful_csha256) ops
  have hdesc : csha256.sizedesc c.bytes = toBE 8 (8 * d.length) := by
    change toBE 8 (c.bytes <<< 3).toNat = _
    rw [toNat_shiftLeft_three h.bytes]
    exact toBE_mod 8 _
  have hcompress (s : Vars UInt32) (b : Bytes) :
      ((CShaClass.blockHash lawful_csha256).compress s b).regs256 =
        (Sha2.blockHash lawful256).compress s.regs256 b := by
    change (Sha256.unrolled.transform s _).regs256 =
      Sha256.transformWords s.regs256 (sha2With256.wordsOf 16 b)
    rw [wordsOf_256, Sha256.unrolled_transform _ (length_words16 _)]
  have habsorb := (CShaClass.blockHash lawful_csha256).absorb_hom
    (C := Sha2.blockHash lawful256) Vars.regs256 rfl hcompress csha256.initial
    (d ++ (CShaClass.blockHash lawful_csha256).closing (toBE 8 (8 * d.length)) d.length)
  have hfinal := finalize_fed h
  rw [hdesc] at hfinal
  have hnext : sha2With256.lengthBytes (0 + d.length) = toBE 8 (8 * d.length) := by
    rw [Nat.zero_add]; rfl
  rw [sha256_eq_hash, Sha2.hash, Sha2.hashFrom, hnext]
  refine hfinal.trans ?_
  change sha2With256.toBytes (sha2With256.words (Vars.regs256 _)) = _
  rw [habsorb]
  rfl

/-- `CSHA512` gives that of `sha512_*`, for messages whose number of bits fits in 64 bits. -/
theorem csha512_run (ops : List HasherOp) (hlen : (ops.foldl fedSince []).length < 2 ^ 61) :
    csha512.finalize (ops.foldl csha512.step csha512.new) = sha512 (ops.foldl fedSince []) := by
  let d := ops.foldl fedSince []
  let c := ops.foldl csha512.step csha512.new
  have h : CShaClass.Fed lawful_csha512 c d := foldl_step_fed (fed_new lawful_csha512) ops
  have hlt : 8 * d.length < 2 ^ 64 := by
    change (ops.foldl fedSince []).length < 2 ^ 61 at hlen
    change 8 * (ops.foldl fedSince []).length < 2 ^ 64
    omega
  have hdesc : csha512.sizedesc c.bytes = toBE 16 (8 * d.length) := by
    change List.replicate 8 (0 : UInt8) ++ toBE 8 (c.bytes <<< 3).toNat = _
    rw [toNat_shiftLeft_three h.bytes, Nat.mod_eq_of_lt hlt, toBE_add 8 8,
      Nat.div_eq_of_lt (b := 256 ^ 8) hlt]
    rfl
  have hcompress (s : Vars UInt64) (b : Bytes) :
      ((CShaClass.blockHash lawful_csha512).compress s b).regs512 =
        (Sha2.blockHash lawful512).compress s.regs512 b := by
    change (Sha512.unrolled.transform s _).regs512 =
      Sha512.transform s.regs512 (sha2With512.wordsOf 16 b)
    rw [wordsOf_512, Sha512.unrolled_transform _ (length_words16 _)]
  have habsorb := (CShaClass.blockHash lawful_csha512).absorb_hom
    (C := Sha2.blockHash lawful512) Vars.regs512 rfl hcompress csha512.initial
    (d ++ (CShaClass.blockHash lawful_csha512).closing (toBE 16 (8 * d.length)) d.length)
  have hfinal := finalize_fed h
  rw [hdesc] at hfinal
  have hnext : sha2With512.lengthBytes (0 + d.length) = toBE 16 (8 * d.length) := by
    rw [Nat.zero_add]; rfl
  rw [sha512, Sha2.hash, Sha2.hashFrom, hnext]
  refine hfinal.trans ?_
  change sha2With512.toBytes (sha2With512.words (Vars.regs512 _)) = _
  rw [habsorb]
  rfl

/-- The two implementations agree, however each was fed the message. -/
theorem classes_agree (ops : List HasherOp) (chunks : List Bytes)
    (hsame : ops.foldl fedSince [] = chunks.flatten) (hlen : chunks.flatten.length < 2 ^ 61) :
    csha256.finalize (ops.foldl csha256.step csha256.new) =
        sha256Final (chunks.foldl sha256Update sha256Init) ∧
      csha512.finalize (ops.foldl csha512.step csha512.new) =
        sha512Final (chunks.foldl sha512Update sha512Init) := by
  have h512 := Sha2.final_foldl_update lawful512 chunks
  refine ⟨?_, ?_⟩
  · rw [csha256_run, hsame, sha256Final_foldl]
  · rw [csha512_run ops (by rw [hsame]; exact hlen), hsame]
    exact h512.symm

theorem classes_agree_after_reset :
    let ops : List HasherOp := [.update [1], .reset, .update [2, 3], .update [4]]
    csha256.finalize (ops.foldl csha256.step csha256.new) =
        sha256Final ([[2], [3, 4]].foldl sha256Update sha256Init) ∧
      csha512.finalize (ops.foldl csha512.step csha512.new) =
        sha512Final ([[2], [3, 4]].foldl sha512Update sha512Init) :=
  classes_agree _ _ rfl (by decide)

end Crypto
end PtpCore
