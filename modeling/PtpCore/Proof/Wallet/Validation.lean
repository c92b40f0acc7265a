import PtpCore.Proof.Wallet.Bip39
import PtpCore.Wallet.MnemonicHelper

/-!
# Which phrases validate

A phrase is a row of bits, eleven a word (`wordBits`). Bytes are rows of bits as well (`bits`). The
phrases that `validateWords` accepts are those whose bits are the bits of some bytes and, behind
them, the first bits of their hash (`validateWords_iff`), one for every three words.

The checksum takes one byte or two and its mask is in the other byte order, so the proof goes bit
by bit: bit `q` of the checksum is bit `q` of the hash (`bit_checksum`).
-/

namespace PtpCore
namespace Proof
namespace Wallet

open Lib Lib.BitPack
open PtpCore.Wallet PtpCore.Wallet.MnemonicHelper

/-! ## Rows of bits -/

/-- The bits of bytes, the most significant first. -/
def bits (b : Bytes) : List Bool := (List.range (8 * b.length)).map (bit b)

/-- The bits of the index of a word. -/
def wordBits (i : Nat) : List Bool := (List.range 11).map fun k => i.testBit (10 - k)

@[simp] theorem length_bits (b : Bytes) : (bits b).length = 8 * b.length := by simp [bits]

@[simp] theorem length_wordBits (i : Nat) : (wordBits i).length = 11 := by simp [wordBits]

theorem take_bits {b : Bytes} {m : Nat} (h : m ≤ 8 * b.length) :
    (bits b).take m = (List.range m).map (bit b) := by
  rw [bits, ← List.map_take, List.take_range, Nat.min_eq_left h]

theorem wordBits_inj {i j : Nat} (hi : i < 2 ^ 11) (hj : j < 2 ^ 11)
    (h : wordBits i = wordBits j) : i = j := by
  have hbit : ∀ k, k < 11 → i.testBit (10 - k) = j.testBit (10 - k) := by
    intro k hk
    exact List.map_inj_left.mp h k (List.mem_range.mpr hk)
  rw [← numOf_testBit hi, ← numOf_testBit hj]
  exact numOf_congr hbit

/-- The bits of a phrase determine its words. -/
theorem flatMap_wordBits_inj {is js : List Nat} (his : ∀ i ∈ is, i < 2 ^ 11)
    (hjs : ∀ j ∈ js, j < 2 ^ 11) (h : is.flatMap wordBits = js.flatMap wordBits) : is = js := by
  induction is generalizing js with
  | nil =>
    cases js with
    | nil => rfl
    | cons j js => simp [List.flatMap_cons, wordBits] at h
  | cons i is ih =>
    cases js with
    | nil => simp [List.flatMap_cons, wordBits] at h
    | cons j js =>
      rw [List.flatMap_cons, List.flatMap_cons] at h
      obtain ⟨hhead, htail⟩ := List.append_inj h (by simp)
      rw [wordBits_inj (his i List.mem_cons_self) (hjs j List.mem_cons_self) hhead,
        ih (fun k hk => his k (List.mem_cons_of_mem i hk))
          (fun k hk => hjs k (List.mem_cons_of_mem j hk)) htail]

theorem length_flatMap_wordBits (is : List Nat) :
    (is.flatMap wordBits).length = 11 * is.length := by
  induction is with
  | nil => rfl
  | cons i is ih =>
    rw [List.flatMap_cons, List.length_append, ih, length_wordBits, List.length_cons]
    omega

/-- Cut into numbers of eleven bits, bytes keep their bits. -/
theorem flatMap_extract (b : Bytes) (n : Nat) :
    ((List.range n).map (extract 11 b)).flatMap wordBits = (List.range (n * 11)).map (bit b) := by
  induction n with
  | zero => rfl
  | succ n ih =>
    have hword : wordBits (extract 11 b n) = (List.range 11).map fun k => bit b (n * 11 + k) := by
      apply List.map_congr_left
      intro k hk
      exact testBit_numOf _ (List.mem_range.mp hk)
    rw [List.range_succ, List.map_append, List.flatMap_append, ih, Nat.succ_mul, List.range_add,
      List.map_append, List.map_map]
    simp [hword, Function.comp_def]

/-! ## The checksum -/

theorem checksumPos_checksumPos {q : Nat} (h : q < 16) : checksumPos (checksumPos q) = q := by
  have hall : ∀ q, q < 16 → checksumPos (checksumPos q) = q := by decide
  exact hall q h

theorem checksumPos_lt {len q : Nat} (h : lenToMask len ≠ 0) (hq : q < len / 4) :
    q < 16 ∧ checksumPos q < 8 * checksumLen (lenToMask len) := by
  have hall : ∀ len ∈ [16, 20, 24, 28, 32, 36, 40], ∀ q, q < len / 4 →
      q < 16 ∧ checksumPos q < 8 * checksumLen (lenToMask len) := by decide
  exact hall len (admitted_cases h) q hq

/-- The two bytes of the hash that the checksum is cut from. -/
theorem bip39Checksum_eq (e : Bytes) (mask : Nat) :
    bip39Checksum e mask = storedChecksum (Crypto.sha256 e) 0 0x80ff &&& mask := by
  have htwo : (0x80ff : Nat) > 0xff := by decide
  simp only [bip39Checksum, storedChecksum, if_pos htwo, Nat.zero_add]

/-- The bits behind the entropy are the first of the hash. -/
theorem bit_checksum {e : Bytes} (he : lenToMask e.length ≠ 0) {q : Nat} (hq : q < e.length / 4) :
    bit (withChecksum e) (8 * e.length + q) = bit (Crypto.sha256 e) q := by
  obtain ⟨hq16, hpos⟩ := checksumPos_lt he hq
  have hback := checksumPos_checksumPos hq16
  have hpos16 : checksumPos q < 16 := by
    unfold checksumPos
    split <;> omega
  have hhash : (storedChecksum (Crypto.sha256 e) 0 0x80ff).testBit (checksumPos q) =
      bit (Crypto.sha256 e) q := by
    rw [testBit_storedChecksum (show checksumPos q < 8 * checksumLen 0x80ff from hpos16), hback,
      Nat.mul_zero, Nat.zero_add]
  calc bit (withChecksum e) (8 * e.length + q)
      = bit (withChecksum e) (8 * e.length + checksumPos (checksumPos q)) := by rw [hback]
    _ = (bip39Checksum e (lenToMask e.length)).testBit (checksumPos q) := by
      rw [← testBit_storedChecksum hpos, storedChecksum_withChecksum he]
    _ = bit (Crypto.sha256 e) q := by
      rw [bip39Checksum_eq, Nat.testBit_and, hhash, testBit_lenToMask he hpos16, hback,
        decide_eq_true hq, Bool.and_true]

/-- The bits of the phrase of an entropy. -/
theorem flatMap_indicesOf {e : Bytes} (he : lenToMask e.length ≠ 0) :
    (indicesOf (withChecksum e)).flatMap wordBits =
      bits e ++ (bits (Crypto.sha256 e)).take (e.length / 4) := by
  have hnum : (withChecksum e).length * 8 / 11 * 11 = 8 * e.length + e.length / 4 := by
    rw [length_withChecksum]
    exact (numbers_of_admitted he).2.2.1
  have hshort : e.length / 4 ≤ 8 * (Crypto.sha256 e).length := by
    have := (numbers_of_admitted he).2.1
    rw [Crypto.length_sha256]
    omega
  rw [indicesOf, flatMap_extract, hnum, List.range_add, List.map_append, take_bits hshort,
    List.map_map]
  congr 1
  · apply List.map_congr_left
    intro q hq
    rw [← bit_take (List.mem_range.mp hq), take_withChecksum]
  · apply List.map_congr_left
    intro q hq
    exact bit_checksum he (List.mem_range.mp hq)

/-! ## Both directions of BIP39 -/

theorem lenToMask_ne_zero {len : Nat} (h : len ∈ [16, 20, 24, 28, 32, 36, 40]) :
    lenToMask len ≠ 0 := by
  have hall : ∀ len ∈ [16, 20, 24, 28, 32, 36, 40], lenToMask len ≠ 0 := by decide
  exact hall len h

/-- **An entropy survives being written as words.** -/
theorem mnemonic_round_trip {w : Words} (hw : IsBip39 w) {e out : Bytes}
    (he : e.length ∈ [16, 20, 24, 28, 32, 36, 40]) (hout : e.length ≤ out.length) :
    ∃ output out', bip39MnemonicFromBytes w e = (.ok, some output) ∧
      bip39MnemonicToBytes w output out = (.ok, out', e.length) ∧ out'.take e.length = e := by
  have hmask := lenToMask_ne_zero he
  refine ⟨phraseOf w e, overwrite out 0 e, bip39MnemonicFromBytes_eq hmask hw, ?_, ?_⟩
  · rw [decode_encode hw hmask, if_pos hout]
  · have hdata := take_drop_overwrite (Nat.zero_le out.length) (d := e)
    rwa [List.drop_zero] at hdata

theorem mnemonic_round_trip_zeros :
    ∃ output out', bip39MnemonicFromBytes enWords (List.replicate 16 0) = (.ok, some output) ∧
      bip39MnemonicToBytes enWords output (List.replicate 42 0xff) = (.ok, out', 16) ∧
      out'.take 16 = List.replicate 16 0 :=
  @mnemonic_round_trip enWords isBip39_enWords (List.replicate 16 0) (List.replicate 42 0xff)
    (by decide) (by decide)

/-- A phrase as BIP39 has it: 12 to 30 words of the list with a space between two, and of their
    bits the last ones, one for every three words, begin the hash of the others. -/
def IsMnemonic (w : Words) (c : Bytes) : Prop :=
  ∃ is : List Nat, (∀ i ∈ is, i < 2 ^ 11) ∧ is.length ∈ [12, 15, 18, 21, 24, 27, 30] ∧
    c = phrase w is ∧ ∃ e : Bytes,
      is.flatMap wordBits = bits e ++ (bits (Crypto.sha256 e)).take (is.length / 3)

theorem isMnemonic_iff {w : Words} {c : Bytes} :
    IsMnemonic w c ↔ ∃ e, lenToMask e.length ≠ 0 ∧ c = phraseOf w e := by
  constructor
  · rintro ⟨is, his, hn, hc, e, hbits⟩
    -- the number of words gives the number of bytes
    have hlen : e.length ∈ [16, 20, 24, 28, 32, 36, 40] ∧ e.length / 4 = is.length / 3 := by
      have hcount := congrArg List.length hbits
      rw [length_flatMap_wordBits, List.length_append, length_bits, List.length_take, length_bits,
        Crypto.length_sha256] at hcount
      simp only [List.mem_cons, List.not_mem_nil, or_false] at hn ⊢
      omega
    have hmask := lenToMask_ne_zero hlen.1
    have hindices : is = indicesOf (withChecksum e) := by
      apply flatMap_wordBits_inj his (indicesOf_lt _)
      rw [hbits, flatMap_indicesOf hmask, hlen.2]
    refine ⟨e, hmask, ?_⟩
    rw [hc, hindices, phraseOf]
  · rintro ⟨e, hmask, hc⟩
    have hlen := length_indicesOf_withChecksum hmask
    have hcases := admitted_cases hmask
    refine ⟨indicesOf (withChecksum e), indicesOf_lt _, ?_, hc, e, ?_⟩
    · simp only [List.mem_cons, List.not_mem_nil, or_false] at hcases ⊢
      omega
    · have hthird : (indicesOf (withChecksum e)).length / 3 = e.length / 4 := by
        simp only [List.mem_cons, List.not_mem_nil, or_false] at hcases
        omega
      rw [flatMap_indicesOf hmask, hthird]

/-! ## The lists of the languages -/

/-- All seven lists are BIP39 lists. -/
structure WordListsOk (ls : WordLists) : Prop where
  es : IsBip39 ls.es
  fr : IsBip39 ls.fr
  it : IsBip39 ls.it
  jp : IsBip39 ls.jp
  zhs : IsBip39 ls.zhs
  zht : IsBip39 ls.zht

theorem isBip39_bip39GetWordlist {ls : WordLists} (h : WordListsOk ls) (lang : Option Bytes) :
    IsBip39 (bip39GetWordlist ls lang) := by
  have hall : ∀ entry ∈ ls.lookup, IsBip39 entry.2 := by
    simp [WordLists.lookup, isBip39_enWords, h.es, h.fr, h.it, h.jp, h.zhs, h.zht]
  cases lang with
  | none => exact isBip39_enWords
  | some lang =>
    rw [bip39GetWordlist]
    split
    · rename_i entry hfind
      exact hall entry (List.mem_of_find?_eq_some hfind)
    · exact isBip39_enWords

/-- **`validateWords` accepts the phrases of BIP39 and no others.** It is given a C string. -/
theorem validateWords_iff {ls : WordLists} (h : WordListsOk ls) (lang : Option Bytes) (s : Bytes) :
    validateWordsOf ls lang s = true ↔ IsMnemonic (bip39GetWordlist ls lang) (cString s) := by
  rw [validateWordsOf, validateWords, beq_iff_eq, isMnemonic_iff]
  exact validate_iff (isBip39_bip39GetWordlist h lang) fun x hx => ne_zero_of_mem_cString hx

theorem validateWords_iff_empty :
    validateWordsOf ⟨enWords, enWords, enWords, enWords, enWords, enWords⟩ none [] = true ↔
      IsMnemonic (bip39GetWordlist ⟨enWords, enWords, enWords, enWords, enWords, enWords⟩ none)
        (cString []) :=
  validateWords_iff ⟨isBip39_enWords, isBip39_enWords, isBip39_enWords, isBip39_enWords,
    isBip39_enWords, isBip39_enWords⟩ none []

end Wallet
end Proof
end PtpCore
