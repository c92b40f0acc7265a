import PtpCore.Crypto.Base64

/-!
# What base64 writes, it reads back

Encoder and decoder are run side by side. After any number of whole bytes either nothing is
pending on both sides, or the last byte is split between them: its high bits wait in the decoder
and its low bits in the encoder. White space and `=` signs in between do not matter.

The assertions at the end of the encoder hold for everything but the empty string, for which one of
them compares 0 with `0 - 2` (`base64RoundTrip_iff`).
-/

namespace PtpCore
namespace Proof
namespace Crypto

open Lib PtpCore.Crypto
open PtpCore.Crypto.BitCollector

/-! ## The accumulator as a number -/

theorem toNat_shiftIn (a : UInt32) {k x : Nat} (hk : k < 32) (hx : x < 2 ^ k) :
    ((a <<< UInt32.ofNat k) ||| UInt32.ofNat x).toNat = (a.toNat * 2 ^ k + x) % 2 ^ 32 := by
  have hpow : 2 ^ k * 2 ^ (32 - k) = 2 ^ 32 := by
    rw [← Nat.pow_add, Nat.add_sub_cancel' (Nat.le_of_lt hk)]
  have hx32 : x < 2 ^ 32 := by
    calc x < 2 ^ k := hx
      _ ≤ 2 ^ 32 := Nat.pow_le_pow_right (by decide) (Nat.le_of_lt hk)
  have hshift : a.toNat <<< k % 2 ^ 32 = (a.toNat % 2 ^ (32 - k)) <<< k := by
    rw [Nat.shiftLeft_eq, Nat.shiftLeft_eq, ← hpow, Nat.mul_comm, Nat.mul_mod_mul_left,
      Nat.mul_comm]
  have hsum : (a.toNat * 2 ^ k + x) % 2 ^ 32 = (a.toNat % 2 ^ (32 - k)) <<< k + x := by
    rw [← hshift, Nat.shiftLeft_eq, Nat.add_mod, Nat.mod_eq_of_lt hx32, Nat.mod_eq_of_lt]
    rw [← Nat.shiftLeft_eq, hshift, Nat.shiftLeft_eq]
    have hlt : a.toNat % 2 ^ (32 - k) < 2 ^ (32 - k) := Nat.mod_lt _ (Nat.two_pow_pos _)
    calc a.toNat % 2 ^ (32 - k) * 2 ^ k + x
        < a.toNat % 2 ^ (32 - k) * 2 ^ k + 2 ^ k := Nat.add_lt_add_left hx _
      _ = (a.toNat % 2 ^ (32 - k) + 1) * 2 ^ k := by rw [Nat.add_mul, Nat.one_mul]
      _ ≤ 2 ^ (32 - k) * 2 ^ k := Nat.mul_le_mul_right _ hlt
      _ = 2 ^ 32 := by rw [Nat.mul_comm, hpow]
  have hmod : k % 4294967296 % 32 = k := by omega
  rw [UInt32.toNat_or, UInt32.toNat_shiftLeft, UInt32.toNat_ofNat', UInt32.toNat_ofNat', hmod,
    Nat.mod_eq_of_lt hx32, hshift, hsum, Nat.shiftLeft_add_eq_or_of_lt hx]

theorem toNat_shiftOut (a : UInt32) {k m : Nat} (hk : k < 32) (hm : m ≤ 32) :
    ((a >>> UInt32.ofNat k) &&& UInt32.ofNat (2 ^ m - 1)).toNat = a.toNat / 2 ^ k % 2 ^ m := by
  have hmask : 2 ^ m - 1 < 2 ^ 32 :=
    Nat.lt_of_lt_of_le (Nat.sub_lt (Nat.two_pow_pos m) Nat.one_pos)
      (Nat.pow_le_pow_right (by decide) hm)
  have hmod : k % 4294967296 % 32 = k := by omega
  rw [UInt32.toNat_and, UInt32.toNat_shiftRight, UInt32.toNat_ofNat', UInt32.toNat_ofNat', hmod,
    Nat.mod_eq_of_lt hmask, Nat.and_two_pow_sub_one_eq_mod, Nat.shiftRight_eq_div_pow]

/-! ## Digits -/

/-- The character of a digit. -/
def b64Char (d : Nat) : UInt8 := b64Table.getD d 0

/-- The two tables are inverse to each other, and no digit is skipped. -/
theorem b64Char_spec : ∀ d : Fin 64, Toolbox.isSpace (b64Char d) = false ∧ b64Char d ≠ 0x3d ∧
    b64Char d ≠ 0 ∧ ¬ b64Char d > 127 ∧
    reverseTable.getD (b64Char d).toNat 64 = UInt8.ofNat d := by
  decide +kernel

theorem digitAt_eq (a : UInt32) {k : Nat} (hk : k < 32) :
    digitAt a k = b64Char (a.toNat / 2 ^ k % 64) := by
  have h := toNat_shiftOut a (m := 6) hk (by decide)
  exact congrArg b64Char h

section

variable {s : BitCollector}

/-- The decoder takes the character of a digit for the digit. -/
theorem decodeFrom_b64Char {d : Nat} (hd : d < 64) (rest : Bytes) :
    s.decodeFrom (b64Char d :: rest) = (s.decodeDigit (UInt8.ofNat d)).decodeFrom rest := by
  obtain ⟨hspace, heq, -, hlarge, hrev⟩ := b64Char_spec ⟨d, hd⟩
  have hsmall : ¬ UInt8.ofNat d > 63 := by
    rw [gt_iff_lt, UInt8.lt_iff_toNat_lt, UInt8.toNat_ofNat_of_lt' (Nat.lt_trans hd (by decide))]
    change ¬ 63 < d
    omega
  rw [decodeFrom, if_neg (by simp [hspace, heq]), hrev,
    if_neg (by simp only [hlarge, hsmall]; simp)]

/-- What a digit does to the decoder. -/
theorem decodeDigit_eq {d : Nat} (hd : d < 64) (hbits : s.bitsCollected < 8) :
    s.decodeDigit (UInt8.ofNat d) =
      if 2 ≤ s.bitsCollected then
        ⟨(s.accumulator <<< 6) ||| UInt32.ofNat d, s.bitsCollected - 2, s.retval ++
          [UInt8.ofNat ((s.accumulator.toNat * 64 + d) % 2 ^ 32 / 2 ^ (s.bitsCollected - 2) % 256)]⟩
      else ⟨(s.accumulator <<< 6) ||| UInt32.ofNat d, s.bitsCollected + 6, s.retval⟩ := by
  have hd8 : d < 256 := by omega
  have hnum : (UInt8.ofNat d).toUInt32 = UInt32.ofNat d := by
    apply UInt32.toNat_inj.mp
    rw [UInt8.toNat_toUInt32, UInt8.toNat_ofNat_of_lt' hd8, 
      UInt32.toNat_ofNat_of_lt' (Nat.lt_trans hd (by decide))]
  have hin := toNat_shiftIn s.accumulator (k := 6) (by decide) hd
  rw [decodeDigit, hnum]
  by_cases h2 : 2 ≤ s.bitsCollected
  · have hout := toNat_shiftOut ((s.accumulator <<< 6) ||| UInt32.ofNat d) (m := 8)
      (k := s.bitsCollected + 6 - 8) (by omega) (by decide)
    rw [if_pos (by omega), if_pos h2, show s.bitsCollected + 6 - 8 = s.bitsCollected - 2 by omega]
    rw [show s.bitsCollected + 6 - 8 = s.bitsCollected - 2 by omega] at hout
    congr 3
    apply UInt8.toNat_inj.mp
    rw [UInt32.toNat_toUInt8, UInt8.toNat_ofNat_of_lt' (Nat.mod_lt _ (by decide))]
    change UInt32.toNat _ % 256 = _
    rw [show (0xff : UInt32) = UInt32.ofNat (2 ^ 8 - 1) from rfl, hout,
      Nat.mod_mod_of_dvd _ (by decide)]
    rw [show ((s.accumulator <<< 6) ||| UInt32.ofNat d).toNat =
      (s.accumulator.toNat * 64 + d) % 2 ^ 32 from hin]
  · rw [if_neg (by omega), if_neg h2]

end

/-! ## Side by side -/

/-- The encoder `e` was given `bs`, and the decoder `d` has been given all digits of `e`. -/
structure InStep (bs : Bytes) (e d : BitCollector) : Prop where
  decodes : ∀ rest, BitCollector.start.decodeFrom (e.retval ++ rest) = d.decodeFrom rest
  length : e.retval.length * 6 + e.bitsCollected = 8 * bs.length
  pending : (e.bitsCollected = 0 ∧ d.bitsCollected = 0 ∧ d.retval = bs) ∨
    ∃ b : UInt8, bs = d.retval ++ [b] ∧
      ((e.bitsCollected = 2 ∧ d.bitsCollected = 6 ∧ d.accumulator.toNat % 64 = b.toNat / 4 ∧
          e.accumulator.toNat % 4 = b.toNat % 4) ∨
        (e.bitsCollected = 4 ∧ d.bitsCollected = 4 ∧ d.accumulator.toNat % 16 = b.toNat / 16 ∧
          e.accumulator.toNat % 16 = b.toNat % 16))

theorem inStep_start : InStep [] .start .start :=
  ⟨fun _ => rfl, rfl, .inl ⟨rfl, rfl, rfl⟩⟩

section

variable {bs : Bytes} {e d : BitCollector} {x : UInt8}

/-- The accumulator of the encoder after a byte. -/
theorem toNat_encodeByte (e : BitCollector) (x : UInt8) :
    (e.encodeByte x).accumulator.toNat = (e.accumulator.toNat * 256 + x.toNat) % 2 ^ 32 := by
  have hx : x.toUInt32 = UInt32.ofNat x.toNat := by
    apply UInt32.toNat_inj.mp
    rw [UInt8.toNat_toUInt32,
      UInt32.toNat_ofNat_of_lt' (Nat.lt_trans x.toNat_lt (by decide))]
  have h := toNat_shiftIn e.accumulator (k := 8) (by decide) x.toNat_lt
  rw [← hx] at h
  exact h

/-- What the encoder writes for a byte, by the bits that were pending. -/
theorem encodeByte_zero (he : e.bitsCollected = 0) :
    (e.encodeByte x).bitsCollected = 2 ∧ (e.encodeByte x).retval =
      e.retval ++ [b64Char ((e.encodeByte x).accumulator.toNat / 4 % 64)] := by
  rw [encodeByte, he]
  exact ⟨rfl, congrArg (e.retval ++ [·]) (digitAt_eq _ (k := 2) (by decide))⟩

theorem encodeByte_two (he : e.bitsCollected = 2) :
    (e.encodeByte x).bitsCollected = 4 ∧ (e.encodeByte x).retval =
      e.retval ++ [b64Char ((e.encodeByte x).accumulator.toNat / 16 % 64)] := by
  rw [encodeByte, he]
  exact ⟨rfl, congrArg (e.retval ++ [·]) (digitAt_eq _ (k := 4) (by decide))⟩

theorem encodeByte_four (he : e.bitsCollected = 4) :
    (e.encodeByte x).bitsCollected = 0 ∧ (e.encodeByte x).retval =
      e.retval ++ [b64Char ((e.encodeByte x).accumulator.toNat / 64 % 64)] ++
        [b64Char ((e.encodeByte x).accumulator.toNat % 64)] := by
  have h6 : digitAt (e.encodeByte x).accumulator 6 =
      b64Char ((e.encodeByte x).accumulator.toNat / 64 % 64) := digitAt_eq _ (by decide)
  have h0 : digitAt (e.encodeByte x).accumulator 0 =
      b64Char ((e.encodeByte x).accumulator.toNat % 64) := by
    rw [digitAt_eq _ (by decide), Nat.pow_zero, Nat.div_one]
  rw [← h0, ← h6, List.append_assoc, encodeByte, he]
  exact ⟨rfl, rfl⟩

/-- The decoder follows by one digit. -/
theorem decodes_concat {r : Bytes} {n : Nat} (hn : n < 64)
    (h : ∀ rest, BitCollector.start.decodeFrom (r ++ rest) = d.decodeFrom rest) (rest : Bytes) :
    BitCollector.start.decodeFrom (r ++ [b64Char n] ++ rest) =
      (d.decodeDigit (UInt8.ofNat n)).decodeFrom rest := by
  rw [List.append_assoc, h, List.singleton_append, decodeFrom_b64Char hn]

/-- A digit that completes a byte. -/
theorem decodeDigit_completes {n k : Nat} {b : UInt8} (hn : n < 64) (hk : d.bitsCollected = k + 2)
    (hk6 : k < 6) (hb : (d.accumulator.toNat * 64 + n) % 2 ^ 32 / 2 ^ k % 256 = b.toNat) :
    (d.decodeDigit (UInt8.ofNat n)).bitsCollected = k ∧
      (d.decodeDigit (UInt8.ofNat n)).retval = d.retval ++ [b] ∧
      (d.decodeDigit (UInt8.ofNat n)).accumulator.toNat =
        (d.accumulator.toNat * 64 + n) % 2 ^ 32 := by
  have hin := toNat_shiftIn d.accumulator (k := 6) (by decide) hn
  rw [decodeDigit_eq hn (by omega), if_pos (by omega), hk, Nat.add_sub_cancel, hb,
    UInt8.ofNat_toNat]
  exact ⟨rfl, rfl, hin⟩

/-- Both sides after one more byte. -/
theorem InStep.encodeByte (h : InStep bs e d) (x : UInt8) :
    ∃ d', InStep (bs ++ [x]) (e.encodeByte x) d' := by
  have hx : x.toNat < 256 := x.toNat_lt
  have hacc := toNat_encodeByte e x
  have hlen := h.length
  rcases h.pending with ⟨he, hd, hret⟩ | ⟨b, hb, ⟨he, hd, hhigh, hlow⟩ | ⟨he, hd, hhigh, hlow⟩⟩
  · -- nothing is pending: six bits of the byte go over, and two stay behind
    obtain ⟨hbits, hout⟩ := encodeByte_zero (x := x) he
    have hn : (e.encodeByte x).accumulator.toNat / 4 % 64 < 64 := Nat.mod_lt _ (by decide)
    have hin := toNat_shiftIn d.accumulator (k := 6) (by decide) hn
    refine ⟨d.decodeDigit (UInt8.ofNat ((e.encodeByte x).accumulator.toNat / 4 % 64)), ?_, ?_,
      .inr ⟨x, ?_, .inl ⟨hbits, ?_, ?_, ?_⟩⟩⟩
    · rw [hout]
      exact decodes_concat hn h.decodes
    · rw [hout, hbits]
      simp only [List.length_append, List.length_singleton]
      omega
    · rw [decodeDigit_eq hn (by omega), if_neg (by omega), hret]
    · rw [decodeDigit_eq hn (by omega), if_neg (by omega), hd]
    · rw [decodeDigit_eq hn (by omega), if_neg (by omega)]
      rw [show (6 : UInt32) = UInt32.ofNat 6 from rfl, hin, hacc]
      omega
    · rw [hacc]
      omega
  · -- six bits of the last byte are over: its last two, and four of the new one
    obtain ⟨hbits, hout⟩ := encodeByte_two (x := x) he
    have hn : (e.encodeByte x).accumulator.toNat / 16 % 64 < 64 := Nat.mod_lt _ (by decide)
    have hbyte := b.toNat_lt
    obtain ⟨hk, hret, hnum⟩ := decodeDigit_completes (k := 4) (b := b) hn hd (by decide)
      (by rw [hacc]; omega)
    refine ⟨d.decodeDigit (UInt8.ofNat ((e.encodeByte x).accumulator.toNat / 16 % 64)), ?_, ?_,
      .inr ⟨x, ?_, .inr ⟨hbits, hk, ?_, ?_⟩⟩⟩
    · rw [hout]
      exact decodes_concat hn h.decodes
    · rw [hout, hbits]
      simp only [List.length_append, List.length_singleton]
      omega
    · rw [hret, hb]
    · rw [hnum, hacc]
      omega
    · rw [hacc]
      omega
  · -- its last four and two of the new byte, and then the other six
    obtain ⟨hbits, hout⟩ := encodeByte_four (x := x) he
    have hn : (e.encodeByte x).accumulator.toNat / 64 % 64 < 64 := Nat.mod_lt _ (by decide)
    have hn' : (e.encodeByte x).accumulator.toNat % 64 < 64 := Nat.mod_lt _ (by decide)
    have hbyte := b.toNat_lt
    obtain ⟨hk, hret, hnum⟩ := decodeDigit_completes (k := 2) (b := b) hn hd (by decide)
      (by rw [hacc]; omega)
    obtain ⟨hk', hret', -⟩ := decodeDigit_completes (k := 0) (b := x) hn' hk (by decide)
      (by rw [hnum, hacc]; omega)
    refine ⟨(d.decodeDigit (UInt8.ofNat ((e.encodeByte x).accumulator.toNat / 64 % 64))).decodeDigit
      (UInt8.ofNat ((e.encodeByte x).accumulator.toNat % 64)), ?_, ?_, .inl ⟨hbits, hk', ?_⟩⟩
    · rw [hout]
      exact decodes_concat hn' (decodes_concat hn h.decodes)
    · rw [hout, hbits]
      simp only [List.length_append, List.length_singleton]
      omega
    · rw [hret', hret, hb]

theorem exists_inStep (bs : Bytes) :
    ∃ d, InStep bs (bs.foldl BitCollector.encodeByte .start) d := by
  induction bs using List.reverseRecOn with
  | nil => exact ⟨_, inStep_start⟩
  | append_singleton bs x ih =>
    obtain ⟨d, hd⟩ := ih
    rw [List.foldl_append]
    exact hd.encodeByte x

/-- The last digit, if there is one, completes the last byte. -/
theorem finish_eq {k : Nat} (hk : e.bitsCollected + k = 6) (he : 0 < e.bitsCollected) :
    e.finish = e.retval ++ [b64Char (e.accumulator.toNat * 2 ^ k % 2 ^ 32 % 64)] := by
  have hmod : k % 4294967296 % 32 = k := by omega
  rw [BitCollector.finish, if_pos he, digitAt_eq _ (by decide), Nat.pow_zero, Nat.div_one,
    show 6 - e.bitsCollected = k by omega, UInt32.toNat_shiftLeft, UInt32.toNat_ofNat', hmod,
    Nat.shiftLeft_eq]

theorem InStep.finish (h : InStep bs e d) :
    ∃ d' : BitCollector, d'.retval = bs ∧ (bs.length + 2) / 3 * 4 ≤ e.finish.length + 2 ∧
      e.finish.length ≤ (bs.length + 2) / 3 * 4 ∧
      ∀ rest, BitCollector.start.decodeFrom (e.finish ++ rest) = d'.decodeFrom rest := by
  have hlen := h.length
  rcases h.pending with ⟨he, hd, hret⟩ | ⟨b, hb, ⟨he, hd, hhigh, hlow⟩ | ⟨he, hd, hhigh, hlow⟩⟩
  · rw [BitCollector.finish, if_neg (by omega)]
    exact ⟨d, hret, by omega, by omega, h.decodes⟩
  · have hbyte := b.toNat_lt
    have hn : e.accumulator.toNat * 2 ^ 4 % 2 ^ 32 % 64 < 64 := Nat.mod_lt _ (by decide)
    obtain ⟨-, hret, -⟩ := decodeDigit_completes (k := 4) (b := b) hn hd (by decide) (by omega)
    rw [finish_eq (k := 4) (by omega) (by omega), List.length_append, List.length_singleton]
    exact ⟨_, by rw [hret, hb], by omega, by omega, decodes_concat hn h.decodes⟩
  · have hbyte := b.toNat_lt
    have hn : e.accumulator.toNat * 2 ^ 2 % 2 ^ 32 % 64 < 64 := Nat.mod_lt _ (by decide)
    obtain ⟨-, hret, -⟩ := decodeDigit_completes (k := 2) (b := b) hn hd (by decide) (by omega)
    rw [finish_eq (k := 2) (by omega) (by omega), List.length_append, List.length_singleton]
    exact ⟨_, by rw [hret, hb], by omega, by omega, decodes_concat hn h.decodes⟩

end

/-! ## Texts -/

/-- The decoder skips the `=` signs at the end. -/
theorem decodeFrom_replicate (d : BitCollector) (n : Nat) :
    d.decodeFrom (List.replicate n 0x3d) = d.retval := by
  induction n with
  | zero => rfl
  | succ n ih => rw [List.replicate_succ, decodeFrom, if_pos (.inr rfl), ih]

/-- **The round trip.** -/
theorem base64Decode_base64Encode {bs : Bytes} (h : bs.length ≤ sizeTypeMax / 4 * 3) :
    base64Decode (base64Encode bs) = bs := by
  obtain ⟨d, hd⟩ := exists_inStep bs
  obtain ⟨d', hret, -, -, hdec⟩ := hd.finish
  rw [base64Encode, if_neg (Nat.not_lt.mpr h)]
  dsimp only
  rw [base64Decode, base64Digits, hdec, decodeFrom_replicate, hret]

theorem length_base64Encode {bs : Bytes} (h : bs.length ≤ sizeTypeMax / 4 * 3) :
    (base64Encode bs).length = (bs.length + 2) / 3 * 4 := by
  obtain ⟨d, hd⟩ := exists_inStep bs
  obtain ⟨-, -, -, hle, -⟩ := hd.finish
  rw [base64Encode, if_neg (Nat.not_lt.mpr h)]
  dsimp only
  rw [List.length_append, List.length_replicate]
  exact Nat.add_sub_cancel' hle

/-! ### With white space in it -/

/-- What the decoder skips. -/
def skipped (c : UInt8) : Bool := Toolbox.isSpace c || c == 0x3d

/-- `t` is `u` with white space and `=` signs inserted. -/
inductive Inserted : Bytes → Bytes → Prop
  | nil : Inserted [] []
  | keep {u t : Bytes} (c : UInt8) : Inserted u t → Inserted (c :: u) (c :: t)
  | insert {u t : Bytes} {c : UInt8} : skipped c → Inserted u t → Inserted u (c :: t)

/-- The decoder sees the same of both. -/
theorem Inserted.decodeFrom_eq {u t : Bytes} (h : Inserted u t) (d : BitCollector) :
    d.decodeFrom t = d.decodeFrom u := by
  induction h generalizing d with
  | nil => rfl
  | keep c _ ih =>
    rw [decodeFrom, decodeFrom]
    simp only [ih]
  | insert hskip _ ih =>
    rw [decodeFrom, if_pos (by simpa [skipped] using hskip), ih]

/-- Written digits never reach over the end of `retval`, and leave at most two places. -/
theorem length_base64Digits (bs : Bytes) :
    (bs.length + 2) / 3 * 4 ≤ (base64Digits bs).length + 2 ∧
      (base64Digits bs).length ≤ (bs.length + 2) / 3 * 4 := by
  obtain ⟨d, hd⟩ := exists_inStep bs
  obtain ⟨-, -, hge, hle, -⟩ := hd.finish
  exact ⟨hge, hle⟩

/-- What the encoder and the decoder should do with a string. -/
structure Base64RoundTrip (bs : Bytes) : Prop where
  decode : ∀ t, Inserted (base64Encode bs) t → base64Decode t = bs
  length : (base64Encode bs).length = 4 * ((bs.length + 2) / 3)
  asserts : outposAsserts bs

/-- `retval.size() - 2` is what it looks like, unless there is nothing to encode. -/
theorem outposAsserts_iff {bs : Bytes} (h : bs.length ≤ sizeTypeMax / 4 * 3) :
    outposAsserts bs ↔ bs ≠ [] := by
  obtain ⟨hge, hle⟩ := length_base64Digits bs
  have hlen := length_base64Encode h
  have hmax : sizeTypeMax / 4 * 3 = 13835058055282163709 := by decide
  rw [hmax] at h
  unfold outposAsserts
  dsimp only
  rw [hlen]
  constructor
  · rintro ⟨hpos, -⟩ rfl
    exact absurd hpos (by decide)
  · intro hne
    have hpos : 0 < bs.length := List.length_pos_iff.mpr hne
    exact ⟨by omega, hle⟩

/-- **The round trip with anything inserted**, for strings that the encoder does not refuse. No
    `std::string` is as long as those. -/
theorem base64RoundTrip_iff {bs : Bytes} (h : bs.length ≤ sizeTypeMax / 4 * 3) :
    Base64RoundTrip bs ↔ bs ≠ [] := by
  constructor
  · intro hround
    exact (outposAsserts_iff h).mp hround.asserts
  · intro hne
    refine ⟨?_, ?_, (outposAsserts_iff h).mpr hne⟩
    · intro t ht
      rw [base64Decode, ht.decodeFrom_eq]
      exact base64Decode_base64Encode h
    · rw [length_base64Encode h, Nat.mul_comm]

theorem base64RoundTrip_iff_hi :
    Base64RoundTrip "hi".toUTF8.toList ↔ "hi".toUTF8.toList ≠ [] :=
  base64RoundTrip_iff (by decide +kernel)

/-- The empty string. -/
theorem not_base64RoundTrip_nil : ¬ Base64RoundTrip [] := by
  intro h
  exact absurd h.asserts (by decide)

/-! ### As C strings -/

theorem digitAt_ne_zero (a : UInt32) (k : Nat) : digitAt a k ≠ 0 := by
  have hle : ((a >>> UInt32.ofNat k) &&& 0x3f).toNat ≤ 63 := by
    rw [UInt32.toNat_and]
    exact Nat.and_le_right
  exact (b64Char_spec ⟨_, Nat.lt_succ_of_le hle⟩).2.2.1

theorem digits_ne_zero (a : UInt32) (bits : Nat) : ∀ c ∈ (digits a bits).1, c ≠ 0 := by
  fun_induction digits a bits with
  | case1 bits rest left heq ih =>
    intro c hc
    rcases List.mem_cons.mp hc with rfl | hc
    · exact digitAt_ne_zero a bits
    · exact ih c (heq ▸ hc)
  | case2 bits hbits => simp

theorem encodeByte_ne_zero {e : BitCollector} (h : ∀ c ∈ e.retval, c ≠ 0) (x : UInt8) :
    ∀ c ∈ (e.encodeByte x).retval, c ≠ 0 := by
  intro c hc
  rcases List.mem_append.mp hc with hc | hc
  · exact h c hc
  · exact digits_ne_zero ((e.accumulator <<< 8) ||| x.toUInt32) (e.bitsCollected + 8) c hc

theorem base64Digits_ne_zero (bs : Bytes) : ∀ c ∈ base64Digits bs, c ≠ 0 := by
  have hloop : ∀ c ∈ (bs.foldl BitCollector.encodeByte .start).retval, c ≠ 0 := by
    induction bs using List.reverseRecOn with
    | nil => simp [BitCollector.start]
    | append_singleton bs x ih =>
      rw [List.foldl_append]
      exact encodeByte_ne_zero ih x
  intro c hc
  rw [base64Digits, BitCollector.finish] at hc
  split at hc
  · rcases List.mem_append.mp hc with hc | hc
    · exact hloop c hc
    · rw [List.mem_singleton.mp hc]
      exact digitAt_ne_zero _ _
  · exact hloop c hc

/-- Base64 text is the same as a C string. -/
theorem cString_base64Encode (bs : Bytes) : cString (base64Encode bs) = base64Encode bs := by
  apply cString_eq_self
  intro c hc
  rw [base64Encode] at hc
  split at hc
  · cases hc
  · rcases List.mem_append.mp hc with hc | hc
    · exact base64Digits_ne_zero bs c hc
    · rw [List.eq_of_mem_replicate hc]
      decide

end Crypto
end Proof
end PtpCore
