import PtpCore.Crypto.Sha2
import PtpCore.Lib.BlockHash

/-!
# A message in pieces (`ptp_crypto/sha2.cpp`)

Whatever pieces a message is fed in, `sha256_Final` and `sha512_Final` give the digest of the whole.
The reference is the textbook one: the full blocks of the message with its padding, one after the
other. `Fed` is what a context has to do with the bytes it was fed. The 128 bits of the counter of
`sha512_*` are two words with a carry, and both counters wrap; `count` is their value.
-/

namespace PtpCore
namespace Crypto

open Lib

namespace Sha2

variable {W σ κ : Type} {A : Sha2 W σ κ}

/-- The parts of a family fit together; `count` is the number a counter stands for. -/
structure Lawful (A : Sha2 W σ κ) (count : κ → Nat) : Prop where
  wordLength_pos : 0 < A.wordLength
  ofNat_toNat : ∀ x, A.ofNat (A.toNat x) = x
  toNat_ofNat : ∀ n, n < 256 ^ A.wordLength → A.toNat (A.ofNat n) = n
  toNat_lt : ∀ x, A.toNat x < 256 ^ A.wordLength
  toNat_xor : ∀ x y, A.toNat (A.xor x y) = A.toNat x ^^^ A.toNat y
  length_words : ∀ s, (A.words s).length = 8
  count_noBits : count A.noBits = 0
  count_addBits : ∀ k n, n < 2 ^ 32 →
    count (A.addBits k n) = (count k + n) % 256 ^ (2 * A.wordLength)
  bytes : ∀ k, A.bytes k % A.blockLength = count k / 8 % A.blockLength
  length_lengthWords : ∀ k, (A.lengthWords k).length = 2
  lengthWords : ∀ k,
    (A.lengthWords k).flatMap (fun x => toBE A.wordLength (A.toNat x)) =
      toBE (2 * A.wordLength) (count k)
  dvd : 8 * A.blockLength ∣ 256 ^ (2 * A.wordLength)
  blockLength_lt : A.blockLength < 2 ^ 16

/-- The first `n` words of a message, which are big-endian. -/
def wordsOf (A : Sha2 W σ κ) (n : Nat) (b : Bytes) : List W :=
  (List.range n).map fun i => A.ofNat (ofBE (slice b (i * A.wordLength) A.wordLength))

def toBytes (A : Sha2 W σ κ) (xs : List W) : Bytes :=
  xs.flatMap fun x => toBE A.wordLength (A.toNat x)

/-! ## Words in memory -/

section Memory

variable (A) (m : Bytes)

theorem length_reverse {n : Nat} (h : n * A.wordLength ≤ m.length) :
    (A.reverse n m).length = m.length := by
  rw [reverse, List.length_append, List.length_drop,
    length_mapBlocks (fun b hb => by rw [List.length_reverse, hb]) h]
  omega

/-- The first words that were turned around are those of the message. -/
theorem map_load_reverse {n : Nat} (h : n * A.wordLength ≤ m.length) :
    (List.range n).map (A.load (A.reverse n m)) = A.wordsOf n m := by
  refine List.map_congr_left fun i hi => ?_
  have hin : (i + 1) * A.wordLength ≤ n * A.wordLength :=
    Nat.mul_le_mul_right _ (List.mem_range.mp hi)
  have hrev (b : Bytes) (hb : b.length = A.wordLength) : b.reverse.length = A.wordLength := by
    rw [List.length_reverse, hb]
  rw [Nat.succ_mul] at hin
  rw [load, reverse, slice_append_left (by rw [length_mapBlocks hrev h]; exact hin),
    slice_mapBlocks hrev h (List.mem_range.mp hi), List.reverse_reverse]

theorem loadBlock_reverse (h : m.length = A.blockLength) :
    A.loadBlock (A.reverse 16 m) = A.wordsOf 16 m :=
  A.map_load_reverse m (Nat.le_of_eq h.symm)

/-- Words that are stored turn into the bytes of a message. -/
theorem mapBlocks_storeAll (xs : List W) :
    mapBlocks A.wordLength List.reverse xs.length (A.storeAll xs) = A.toBytes xs := by
  have hlen (x : W) : (A.store x).length = A.wordLength := by simp [store]
  rw [storeAll, mapBlocks_flatMap hlen]
  simp [store, toBytes]

/-- The bytes of a message turn into words that are stored. -/
theorem mapBlocks_toBytes (xs : List W) :
    mapBlocks A.wordLength List.reverse xs.length (A.toBytes xs) = A.storeAll xs :=
  mapBlocks_flatMap (fun x => length_toBE A.wordLength (A.toNat x)) xs

@[simp] theorem length_toBytes (xs : List W) :
    (A.toBytes xs).length = xs.length * A.wordLength := by
  simp [toBytes, List.length_flatMap, List.map_const']

@[simp] theorem length_storeAll (xs : List W) :
    (A.storeAll xs).length = xs.length * A.wordLength := by
  simp [storeAll, store, List.length_flatMap, List.map_const']

/-- `memzero` behind the first `i` bytes. -/
theorem take_overwrite_zeros {i n : Nat} (h : i + n ≤ m.length) :
    (overwrite m i (List.replicate n 0)).take (i + n) = m.take i ++ List.replicate n 0 := by
  have htake := take_overwrite_add (m := m) (d := List.replicate n 0) (i := i) (by omega)
  rwa [List.length_replicate] at htake

end Memory

/-! ## The hash of a whole message -/

variable {count : κ → Nat}

theorem Lawful.blockLength_pos (L : A.Lawful count) : 0 < A.blockLength := by
  have h := L.wordLength_pos
  rw [blockLength]
  omega

/-- The family as a hash that eats blocks. -/
def blockHash (L : A.Lawful count) : BlockHash UInt8 σ where
  size := A.blockLength
  pos := L.blockLength_pos
  compress s b := A.transform s (A.wordsOf 16 b)

/-- What stands behind the zeros of the padding. -/
def lengthBytes (A : Sha2 W σ κ) (len : Nat) : Bytes := toBE (2 * A.wordLength) (8 * len)

/-- The hash value of a message behind `s`, which is the value after `done` bytes. -/
def hashFrom (L : A.Lawful count) (s : σ) (done : Nat) (d : Bytes) : σ :=
  (blockHash L).absorb s
    (d ++ (blockHash L).closing (A.lengthBytes (done + d.length)) d.length)

def hash (L : A.Lawful count) (d : Bytes) : Bytes :=
  A.toBytes (A.words (hashFrom L A.initialHashValue 0 d))

/-! ## What a context was fed -/

/-- The context stands for `d`, fed to the hash value `s₀` after `done` bytes that filled
    blocks. -/
structure Fed (L : A.Lawful count) (s₀ : σ) (done : Nat) (c : Ctx σ κ) (d : Bytes) : Prop where
  holds : (blockHash L).Holds s₀ c.state c.buffer d
  count : count c.bitcount = 8 * (done + d.length) % 256 ^ (2 * A.wordLength)
  full : done % A.blockLength = 0

section Fed

variable {L : A.Lawful count} {s₀ : σ} {done : Nat} {c : Ctx σ κ} {d e : Bytes}

theorem fed_init (L : A.Lawful count) : Fed L A.initialHashValue 0 A.init [] where
  holds := BlockHash.Holds.nil List.length_replicate
  count := by rw [init, L.count_noBits]; simp
  full := Nat.zero_mod _

/-- The counter knows how much of `buffer` is used. -/
theorem Fed.usedspace (h : Fed L s₀ done c d) :
    A.bytes c.bitcount % A.blockLength = d.length % A.blockLength := by
  obtain ⟨k, hk⟩ := L.dvd
  have hpos : 0 < 8 * A.blockLength := by have := L.blockLength_pos; omega
  have hmod (n : Nat) : 8 * n % (8 * A.blockLength * k) / 8 % A.blockLength = n % A.blockLength := by
    rw [Nat.mul_assoc, Nat.mul_mod_mul_left, Nat.mul_div_cancel_left _ (by omega),
      Nat.mod_mul_right_mod]
  rw [L.bytes, h.count, hk, hmod, Nat.add_mod, h.full, Nat.zero_add, Nat.mod_mod]

theorem count_addBits_fed (L : A.Lawful count)
    (hc : count c.bitcount = 8 * (done + d.length) % 256 ^ (2 * A.wordLength))
    (he : e.length ≤ A.blockLength) :
    count (A.addBits c.bitcount (e.length <<< 3)) =
      8 * (done + (d ++ e).length) % 256 ^ (2 * A.wordLength) := by
  have hlt := L.blockLength_lt
  rw [Nat.shiftLeft_eq, L.count_addBits _ _ (by omega), hc, Nat.mod_add_mod, List.length_append]
  congr 1
  ring

/-- The bytes stay in the block of memory. -/
theorem Fed.store (h : Fed L s₀ done c d) (he : d.length % A.blockLength + e.length < A.blockLength) :
    Fed L s₀ done
      { c with
        buffer := overwrite c.buffer (d.length % A.blockLength) e
        bitcount := A.addBits c.bitcount (e.length <<< 3) } (d ++ e) where
  holds := h.holds.store he
  count := count_addBits_fed L h.count (by omega)
  full := h.full

/-- The bytes fill it, and it goes through the transformation. -/
theorem Fed.fill (h : Fed L s₀ done c d)
    (he : d.length % A.blockLength + e.length = A.blockLength) :
    Fed L s₀ done
      { state := A.transform c.state
          (A.loadBlock (A.reverse 16 (overwrite c.buffer (d.length % A.blockLength) e)))
        bitcount := A.addBits c.bitcount (e.length <<< 3)
        buffer := A.reverse 16 (overwrite c.buffer (d.length % A.blockLength) e) } (d ++ e) ∧
      (d ++ e).length % A.blockLength = 0 := by
  have hlen : (overwrite c.buffer (d.length % A.blockLength) e).length = A.blockLength := by
    rw [length_overwrite (by rw [h.holds.length]; exact Nat.le_of_eq he), h.holds.length]
    rfl
  have hrev : (A.reverse 16 (overwrite c.buffer (d.length % A.blockLength) e)).length =
      A.blockLength := by rw [A.length_reverse _ (Nat.le_of_eq hlen.symm), hlen]
  obtain ⟨hholds, hmod⟩ := h.holds.fill he hrev
  rw [A.loadBlock_reverse _ hlen]
  exact ⟨⟨hholds, count_addBits_fed L h.count (by omega), h.full⟩, hmod⟩

theorem wholeBlocks_fed (n : Nat) (h : Fed L s₀ done c d) (hd : d.length % A.blockLength = 0)
    (he : A.blockLength * n ≤ e.length) :
    Fed L s₀ done (A.wholeBlocks n c e).1 (d ++ e.take (A.blockLength * n)) ∧
      (A.wholeBlocks n c e).2 = e.drop (A.blockLength * n) ∧
      (d ++ e.take (A.blockLength * n)).length % A.blockLength = 0 := by
  induction n generalizing c d e with
  | zero => simpa [wholeBlocks] using ⟨h, hd⟩
  | succ n ih =>
    rw [Nat.mul_succ] at he
    have hfirst : (e.take A.blockLength).length = A.blockLength := by
      rw [List.length_take]; omega
    have hstep := h.fill (e := e.take A.blockLength) (by rw [hd, hfirst, Nat.zero_add])
    rw [hd, hfirst] at hstep
    have hrest := ih (e := e.drop A.blockLength) hstep.1 hstep.2 (by rw [List.length_drop]; omega)
    have htake : e.take A.blockLength ++ (e.drop A.blockLength).take (A.blockLength * n) =
        e.take (A.blockLength * (n + 1)) := by
      rw [Nat.mul_succ, Nat.add_comm, List.take_add]
    rwa [List.append_assoc, htake, List.drop_drop, Nat.add_comm A.blockLength] at hrest

theorem updateBlocks_fed (h : Fed L s₀ done c d) (hd : d.length % A.blockLength = 0) (e : Bytes) :
    Fed L s₀ done (A.updateBlocks c e) (d ++ e) := by
  have hpos := L.blockLength_pos
  have hle : A.blockLength * (e.length / A.blockLength) ≤ e.length := Nat.mul_div_le ..
  obtain ⟨hfed, hleft, hmod⟩ := wholeBlocks_fed (e.length / A.blockLength) h hd hle
  have hall : d ++ e.take (A.blockLength * (e.length / A.blockLength)) ++
      e.drop (A.blockLength * (e.length / A.blockLength)) = d ++ e := by
    rw [List.append_assoc, List.take_append_drop]
  have hsmall : (e.drop (A.blockLength * (e.length / A.blockLength))).length < A.blockLength := by
    have hdiv := Nat.div_add_mod e.length A.blockLength
    have hlt := Nat.mod_lt e.length hpos
    rw [List.length_drop]
    omega
  rw [updateBlocks]
  simp only [hleft]
  split
  · have hstore := hfed.store (e := e.drop (A.blockLength * (e.length / A.blockLength)))
      (by rw [hmod, Nat.zero_add]; exact hsmall)
    rw [hmod, hall] at hstore
    exact hstore
  case isFalse hnil =>
    rw [List.eq_nil_of_length_eq_zero (l := List.drop _ e) (by omega), List.append_nil] at hall
    rw [← hall]
    exact hfed

/-- One update, whatever the context was fed before. -/
theorem update_fed (h : Fed L s₀ done c d) (e : Bytes) :
    Fed L s₀ done (A.update c e) (d ++ e) := by
  have hused := h.usedspace
  have hlt := Nat.mod_lt d.length L.blockLength_pos
  rw [update]
  split
  case isTrue hnil =>
    rw [List.eq_nil_of_length_eq_zero hnil, List.append_nil]
    exact h
  rw [hused]
  simp only []
  split
  case isFalse hzero => exact updateBlocks_fed h (by omega) e
  split
  case isTrue hge =>
    have hfirst : (e.take (A.blockLength - d.length % A.blockLength)).length =
        A.blockLength - d.length % A.blockLength := by rw [List.length_take]; omega
    obtain ⟨hfill, hmod⟩ := h.fill (e := e.take (A.blockLength - d.length % A.blockLength))
      (by rw [hfirst]; omega)
    rw [hfirst] at hfill
    have hrest := updateBlocks_fed hfill hmod (e.drop (A.blockLength - d.length % A.blockLength))
    rwa [List.append_assoc, List.take_append_drop] at hrest
  case isFalse hsmall => exact h.store (by omega)

/-- Any number of updates. -/
theorem foldl_update_fed (h : Fed L s₀ done c d) (chunks : List Bytes) :
    Fed L s₀ done (chunks.foldl A.update c) (d ++ chunks.flatten) := by
  induction chunks generalizing c d with
  | nil => simpa using h
  | cons e chunks ih =>
    rw [List.foldl_cons, List.flatten_cons, ← List.append_assoc]
    exact ih (update_fed h e)

/-! ## The end of a message -/

/-- The two words of the length, stored behind a block that was turned around except for them. -/
theorem lastBlock_eq (L : A.Lawful count) {buffer : Bytes} (hlen : buffer.length = A.blockLength)
    {i : Nat} (hi : i ≤ A.shortBlockLength) (s : σ) (k : κ) :
    A.lastBlock s k buffer i = A.transform s (A.wordsOf 16 (buffer.take i ++
      (List.replicate (A.shortBlockLength - i) 0 ++ toBE (2 * A.wordLength) (count k)))) := by
  have hw := L.wordLength_pos
  have hshort : A.shortBlockLength = 14 * A.wordLength := by
    rw [shortBlockLength, blockLength]; omega
  have hblock : A.blockLength = 14 * A.wordLength + 2 * A.wordLength := by
    rw [blockLength]; omega
  let zeros : Bytes := List.replicate (A.shortBlockLength - i) 0
  have htake : (overwrite buffer i zeros).take (14 * A.wordLength) = buffer.take i ++ zeros := by
    rw [← hshort, ← Nat.add_sub_cancel' hi]
    exact take_overwrite_zeros buffer (by omega)
  have hfront : (buffer.take i ++ zeros).length = 14 * A.wordLength := by
    rw [List.length_append, List.length_take, List.length_replicate]
    omega
  have hmem : (overwrite buffer i zeros).length = A.blockLength := by
    rw [length_overwrite (by rw [List.length_replicate]; omega), hlen]
  have hturned : A.reverse 14 (overwrite buffer i zeros) =
      mapBlocks A.wordLength List.reverse 14 (buffer.take i ++ zeros) ++
        (overwrite buffer i zeros).drop (14 * A.wordLength) := by
    rw [reverse, ← htake]
    congr 1
    have hlong : 14 * A.wordLength ≤
        ((overwrite buffer i zeros).take (14 * A.wordLength)).length := by rw [htake, hfront]
    have happ := @mapBlocks_append _ A.wordLength 14 List.reverse _
      ((overwrite buffer i zeros).drop (14 * A.wordLength)) hlong
    rw [← happ, List.take_append_drop]
  have hwords : (A.lengthWords k).flatMap (fun x => toBE A.wordLength (A.toNat x)) =
      A.toBytes (A.lengthWords k) := rfl
  have hwhole : overwrite (A.reverse 14 (overwrite buffer i zeros)) (14 * A.wordLength)
      (A.storeAll (A.lengthWords k)) = A.reverse 16 ((buffer.take i ++ zeros) ++
        A.toBytes (A.lengthWords k)) := by
    have hlow : (mapBlocks A.wordLength List.reverse 14 (buffer.take i ++ zeros)).length =
        14 * A.wordLength :=
      length_mapBlocks (fun b hb => by rw [List.length_reverse, hb]) (Nat.le_of_eq hfront.symm)
    have hpair := A.mapBlocks_toBytes (A.lengthWords k)
    rw [L.length_lengthWords] at hpair
    rw [hturned, overwrite, List.take_left' hlow, List.drop_of_length_le, List.append_nil, reverse,
      show (16 : Nat) = 14 + 2 from rfl, mapBlocks_add hfront, hpair, List.drop_of_length_le,
      List.append_nil]
    · rw [List.length_append, hfront, length_toBytes, L.length_lengthWords]
      omega
    · rw [List.length_append, hlow, List.length_drop, hmem, length_storeAll, L.length_lengthWords]
      omega
  rw [lastBlock, hwhole, A.loadBlock_reverse, ← L.lengthWords, hwords, List.append_assoc]
  rw [List.length_append, hfront, length_toBytes, L.length_lengthWords, hblock]

/-- The padding of the source is that of the reference. -/
theorem last_fed (h : Fed L s₀ done c d) : A.last c = hashFrom L s₀ done d := by
  have hw := L.wordLength_pos
  have hshort : A.shortBlockLength = A.blockLength - 2 * A.wordLength := rfl
  have hblock : A.blockLength = 16 * A.wordLength := rfl
  have hlt := Nat.mod_lt d.length L.blockLength_pos
  have hbuf : c.buffer.length = A.blockLength := h.holds.length
  have hrest : ((blockHash L).rest d).length = d.length % A.blockLength := (blockHash L).length_rest d
  have hmark : (overwrite c.buffer (d.length % A.blockLength) [0x80]).length = A.blockLength := by
    rw [length_overwrite (by rw [List.length_singleton]; omega), hbuf]
  have htake : (overwrite c.buffer (d.length % A.blockLength) [0x80]).take
      (d.length % A.blockLength + 1) = (blockHash L).rest d ++ [0x80] := by
    have h80 := take_overwrite_add (m := c.buffer) (d := [0x80]) (i := d.length % A.blockLength)
      (by omega)
    rw [List.length_singleton] at h80
    rw [h80]
    congr 1
    exact h.holds.pending
  have hcount : toBE (2 * A.wordLength) (count c.bitcount) =
      A.lengthBytes (done + d.length) := by
    rw [h.count, lengthBytes, toBE_mod]
  have hlen : (A.lengthBytes (done + d.length)).length = 2 * A.wordLength := length_toBE ..
  have hstate : c.state = (blockHash L).absorb s₀ d := h.holds.state
  rw [last, h.usedspace, hashFrom]
  simp only []
  split
  case isTrue htwo =>
    -- the mark and the zeros fill a block of their own
    have hpad : overwrite (overwrite c.buffer (d.length % A.blockLength) [0x80])
        (d.length % A.blockLength + 1)
        (List.replicate (A.blockLength - (d.length % A.blockLength + 1)) 0) =
        (blockHash L).rest d ++
          0x80 :: List.replicate (A.blockLength - (d.length % A.blockLength + 1)) 0 := by
      rw [overwrite, htake, List.length_replicate, List.drop_of_length_le (by omega),
        List.append_nil, List.append_assoc, List.singleton_append]
    have hpadlen : ((blockHash L).rest d ++
        0x80 :: List.replicate (A.blockLength - (d.length % A.blockLength + 1)) 0).length =
        A.blockLength := by
      rw [List.length_append, List.length_cons, List.length_replicate, hrest]
      omega
    rw [hpad, A.loadBlock_reverse _ hpadlen, lastBlock_eq L
      (by rw [A.length_reverse _ (Nat.le_of_eq hpadlen.symm), hpadlen]) (Nat.zero_le _), hcount,
      (blockHash L).absorb_closing_two (by rw [hlen]; change _ < A.blockLength; omega)
        (by rw [hlen, hrest]; change A.blockLength < _; omega), hlen, hrest, hstate, List.take_zero,
      List.nil_append]
    rfl
  case isFalse hone =>
    rw [lastBlock_eq L hmark (by omega), htake, hcount, (blockHash L).absorb_closing_one
      (by rw [hlen, hrest]; change _ ≤ A.blockLength; omega), hlen, hrest, hstate, List.append_assoc,
      List.singleton_append]
    rfl

theorem final_fed (h : Fed L s₀ done c d) :
    A.final c = A.toBytes (A.words (hashFrom L s₀ done d)) := by
  have hwords := A.mapBlocks_storeAll (A.words (A.last c))
  rw [L.length_words] at hwords
  rw [final, reverse, hwords, List.drop_of_length_le, List.append_nil, last_fed h]
  rw [length_storeAll, L.length_words]

end Fed

/-- The digest does not depend on how the message was cut. -/
theorem final_foldl_update (L : A.Lawful count) (chunks : List Bytes) :
    A.final (chunks.foldl A.update A.init) = hash L chunks.flatten :=
  final_fed (foldl_update_fed (fed_init L) chunks)

end Sha2

end Crypto
end PtpCore
