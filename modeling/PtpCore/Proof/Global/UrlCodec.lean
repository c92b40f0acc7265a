import PtpCore.Global.UrlCodec

/-!
# Percent encoding is read back

Whatever was encoded is read back (`urlDecode_urlEncode`). Of other texts `URLDecode` makes what it
should just when every `%` it comes to has two digits behind it, and the second is no lower case
letter that its code gets wrong (`decodesAsReference_iff`). A `%` that stands for itself is never
read as such, for then too much of the text is gone.
-/

namespace PtpCore
namespace Proof
namespace Global

open Lib PtpCore.Global

theorem urlDecode_cons {x : UInt8} (h : x ≠ 0x25) (beyond : UInt8) (rest : Bytes) :
    urlDecode beyond (x :: rest) =
      (if x = 0x2b then 0x20 else x) :: urlDecode beyond rest := by
  rw [urlDecode.eq_def]
  dsimp only
  rw [if_neg h]
  split
  · rfl
  · rfl

theorem urlDecode_percent (beyond a b : UInt8) (rest : Bytes) :
    urlDecode beyond (0x25 :: a :: b :: rest) = unescape a b :: urlDecode beyond rest := rfl

/-! ## The round trip -/

/-- A letter, a digit or `%`. -/
def IsUrlChar (x : UInt8) : Prop := isAlnum x = true ∨ x = 0x25

/-- One character, in front of any rest. -/
theorem encodeBuf_spec (x : UInt8) :
    (isAlnum x = true ∧ cString (encodeBuf x) = [x] ∧ x ≠ 0x25 ∧ x ≠ 0x2b) ∨
      ∃ a b, cString (encodeBuf x) = [0x25, a, b] ∧ unescape a b = x ∧
        isAlnum a = true ∧ isAlnum b = true := by
  have hall : ∀ x, (isAlnum x = true ∧ cString (encodeBuf x) = [x] ∧ x ≠ 0x25 ∧ x ≠ 0x2b) ∨
      cString (encodeBuf x) = [0x25, toHex (x >>> 4), toHex (x % 16)] ∧
        unescape (toHex (x >>> 4)) (toHex (x % 16)) = x ∧
        isAlnum (toHex (x >>> 4)) = true ∧ isAlnum (toHex (x % 16)) = true := by
    refine forall_byte ?_
    decide +kernel
  exact (hall x).imp_right fun h => ⟨_, _, h⟩

/-- **Percent encoding is read back**, and holds nothing but letters, digits and `%`. -/
theorem urlDecode_urlEncode (beyond : UInt8) (s : Bytes) :
    urlDecode beyond (urlEncode s) = s ∧ ∀ x ∈ urlEncode s, IsUrlChar x := by
  induction s with
  | nil => exact ⟨rfl, by simp [urlEncode]⟩
  | cons x s ih =>
    obtain ⟨hread, hchars⟩ := ih
    have hcons : urlEncode (x :: s) = cString (encodeBuf x) ++ urlEncode s := rfl
    rw [hcons]
    rcases encodeBuf_spec x with ⟨halnum, hbuf, hpercent, hplus⟩ | ⟨a, b, hbuf, hbyte, ha, hb⟩
    · rw [hbuf, List.singleton_append]
      refine ⟨?_, ?_⟩
      · rw [urlDecode_cons hpercent, if_neg hplus, hread]
      · intro y hy
        rcases List.mem_cons.mp hy with rfl | hy
        · exact .inl halnum
        · exact hchars y hy
    · rw [hbuf]
      simp only [List.cons_append, List.nil_append]
      refine ⟨?_, ?_⟩
      · rw [urlDecode_percent, hbyte, hread]
      · intro y hy
        simp only [List.mem_cons] at hy
        rcases hy with rfl | rfl | rfl | hy
        · exact .inr rfl
        · exact .inl ha
        · exact .inl hb
        · exact hchars y hy

/-! ## Any text -/

/-- Percent decoding. A `%` without two digits stands for itself. -/
def percentDecode : Bytes → Bytes
  | [] => []
  | x :: rest =>
    if x = 0x25 then
      match rest with
      | a :: b :: rest' =>
        match Toolbox.digitValue a, Toolbox.digitValue b with
        | some p, some q => UInt8.ofNat (p * 16 + q) :: percentDecode rest'
        | _, _ => 0x25 :: percentDecode (a :: b :: rest')
      | rest => 0x25 :: percentDecode rest
    else (if x = 0x2b then 0x20 else x) :: percentDecode rest

/-- A character, a `%` with its two digits, and one without. -/
theorem percentDecode_spec (rest : Bytes) :
    (∀ x : UInt8, x ≠ 0x25 →
        percentDecode (x :: rest) = (if x = 0x2b then 0x20 else x) :: percentDecode rest) ∧
      ∀ a b : UInt8,
        (∀ p q, Toolbox.digitValue a = some p → Toolbox.digitValue b = some q →
            percentDecode (0x25 :: a :: b :: rest) =
              UInt8.ofNat (p * 16 + q) :: percentDecode rest) ∧
          (Toolbox.digitValue a = none ∨ Toolbox.digitValue b = none →
            percentDecode (0x25 :: a :: b :: rest) = 0x25 :: percentDecode (a :: b :: rest)) := by
  refine ⟨fun x h => ?_, fun a b => ⟨fun p q ha hb => ?_, fun h => ?_⟩⟩
  · rw [percentDecode.eq_def]
    dsimp only
    rw [if_neg h]
  · rw [percentDecode.eq_def]
    simp only [ha, hb, if_true]
  · rw [percentDecode.eq_def]
    cases ha : Toolbox.digitValue a with
    | none => simp [ha]
    | some p =>
      cases hb : Toolbox.digitValue b with
      | none => simp [hb]
      | some q => simp [ha, hb] at h

theorem percentDecode_cons {x : UInt8} (h : x ≠ 0x25) (rest : Bytes) :
    percentDecode (x :: rest) = (if x = 0x2b then 0x20 else x) :: percentDecode rest :=
  (percentDecode_spec rest).1 x h

theorem percentDecode_percent {a b : UInt8} {p q : Nat} (ha : Toolbox.digitValue a = some p)
    (hb : Toolbox.digitValue b = some q) (rest : Bytes) :
    percentDecode (0x25 :: a :: b :: rest) = UInt8.ofNat (p * 16 + q) :: percentDecode rest :=
  ((percentDecode_spec rest).2 a b).1 p q ha hb

theorem percentDecode_literal {a b : UInt8}
    (h : Toolbox.digitValue a = none ∨ Toolbox.digitValue b = none) (rest : Bytes) :
    percentDecode (0x25 :: a :: b :: rest) = 0x25 :: percentDecode (a :: b :: rest) :=
  ((percentDecode_spec rest).2 a b).2 h

/-- A `%` is the first of three characters, or stands for itself. -/
theorem percentDecode_escape_cases (a b : UInt8) (rest : Bytes) :
    percentDecode (0x25 :: a :: b :: rest) = 0x25 :: percentDecode (a :: b :: rest) ∨
      ∃ p q, Toolbox.digitValue a = some p ∧ Toolbox.digitValue b = some q ∧
        percentDecode (0x25 :: a :: b :: rest) = UInt8.ofNat (p * 16 + q) :: percentDecode rest := by
  cases ha : Toolbox.digitValue a with
  | none => exact .inl (percentDecode_literal (.inl ha) rest)
  | some p =>
    cases hb : Toolbox.digitValue b with
    | none => exact .inl (percentDecode_literal (.inr hb) rest)
    | some q => exact .inr ⟨p, q, rfl, rfl, percentDecode_percent ha hb rest⟩

/-- Every `%` that is come to has two characters behind it. -/
def Escapes : Bytes → Prop
  | [] => True
  | x :: rest =>
    if x = 0x25 then
      match rest with
      | _ :: _ :: rest => Escapes rest
      | _ => False
    else Escapes rest

/-- The second digit is read as it should be: a lower case letter has a bit too many, which does no
    harm if the first digit has it as well. -/
def ReadsSecond (p : Nat) (b : UInt8) : Prop := b < 0x61 ∨ 2 ≤ p % 4

/-- Every `%` that is come to has two digits behind it, and they are read as they should be. -/
def Decodable : Bytes → Prop
  | [] => True
  | x :: rest =>
    if x = 0x25 then
      match rest with
      | a :: b :: rest =>
        (∃ p, Toolbox.digitValue a = some p ∧ (Toolbox.digitValue b).isSome ∧ ReadsSecond p b) ∧
          Decodable rest
      | _ => False
    else Decodable rest

/-- No position outside the string is read, and the result is that of percent decoding. -/
structure DecodesAsReference (s : Bytes) : Prop where
  inside : ∀ i ∈ urlDecodeReads 0 s, i < s.length
  decodes : ∀ beyond, urlDecode beyond s = percentDecode s

/-- How a text is taken apart: an escape, a `%` that is too close to the end, or a character. -/
theorem escape_induction {P : Bytes → Prop} (nil : P [])
    (char : ∀ x rest, x ≠ 0x25 → P rest → P (x :: rest))
    (short : ∀ rest : Bytes, rest.length < 2 → P (0x25 :: rest))
    (escape : ∀ a b rest, P rest → P (0x25 :: a :: b :: rest)) : ∀ s, P s
  | [] => nil
  | [x] => by
    by_cases hx : x = 0x25
    · rw [hx]
      exact short [] (by simp)
    · exact char x [] hx nil
  | [x, a] => by
    by_cases hx : x = 0x25
    · rw [hx]
      exact short [a] (by simp)
    · exact char x [a] hx (escape_induction nil char short escape [a])
  | x :: a :: b :: rest => by
    by_cases hx : x = 0x25
    · rw [hx]
      exact escape a b rest (escape_induction nil char short escape rest)
    · exact char x _ hx (escape_induction nil char short escape (a :: b :: rest))

section

variable {x a b : UInt8} {rest : Bytes}

theorem escapes_cons (h : x ≠ 0x25) : Escapes (x :: rest) ↔ Escapes rest := by
  rw [Escapes.eq_def]
  dsimp only
  rw [if_neg h]

theorem not_escapes_short (h : rest.length < 2) : ¬ Escapes (0x25 :: rest) := by
  match rest, h with
  | [], _ => exact id
  | [_], _ => exact id

theorem decodable_cons (h : x ≠ 0x25) : Decodable (x :: rest) ↔ Decodable rest := by
  rw [Decodable.eq_def]
  dsimp only
  rw [if_neg h]

theorem not_decodable_short (h : rest.length < 2) : ¬ Decodable (0x25 :: rest) := by
  match rest, h with
  | [], _ => exact id
  | [_], _ => exact id

theorem Decodable.escapes {s : Bytes} (h : Decodable s) : Escapes s := by
  induction s using escape_induction with
  | nil => trivial
  | char x rest hx ih => exact (escapes_cons hx).mpr (ih ((decodable_cons hx).mp h))
  | short rest hshort => exact absurd h (not_decodable_short hshort)
  | escape a b rest ih => exact ih h.2

theorem urlDecodeReads_cons (h : x ≠ 0x25) (ix : Nat) :
    urlDecodeReads ix (x :: rest) = ix :: urlDecodeReads (ix + 1) rest := by
  rw [urlDecodeReads.eq_def]
  dsimp only
  rw [if_neg h]

/-- Which texts are read inside their bounds. -/
theorem reads_inside_iff {s : Bytes} (ix : Nat) :
    (∀ i ∈ urlDecodeReads ix s, i < ix + s.length) ↔ Escapes s := by
  induction s using escape_induction generalizing ix with
  | nil => simp [urlDecodeReads, Escapes]
  | char x rest hx ih =>
    rw [urlDecodeReads_cons hx, escapes_cons hx, ← ih (ix + 1), List.length_cons]
    simp only [List.mem_cons, forall_eq_or_imp]
    have hlen : ix + 1 + rest.length = ix + (rest.length + 1) := by omega
    rw [hlen]
    exact and_iff_right (by omega)
  | short rest hshort =>
    refine iff_of_false (fun h => ?_) (not_escapes_short hshort)
    have hlast := h (ix + 2) (by simp [urlDecodeReads.eq_def ix (0x25 :: rest)])
    simp only [List.length_cons] at hlast
    omega
  | escape a b rest ih =>
    have hreads : urlDecodeReads ix (0x25 :: a :: b :: rest) =
        ix :: (ix + 1) :: (ix + 2) :: urlDecodeReads (ix + 3) rest := rfl
    have hescapes : Escapes (0x25 :: a :: b :: rest) ↔ Escapes rest := Iff.rfl
    rw [hreads, hescapes, ← ih (ix + 3)]
    simp only [List.mem_cons, forall_eq_or_imp, List.length_cons]
    have hlen : ix + 3 + rest.length = ix + (rest.length + 1 + 1 + 1) := by omega
    rw [hlen]
    constructor
    · exact fun h => h.2.2.2
    · exact fun h => ⟨by omega, by omega, by omega, h⟩

/-! ### How long the results are -/

theorem digitValue_ne_none {p : Nat} (h : Toolbox.digitValue x = some p) : x ≠ 0x25 := by
  rintro rfl
  cases h

/-- A character more is at most one more, and at worst the start of an escape. -/
theorem length_percentDecode_le (x : UInt8) (rest : Bytes) :
    (percentDecode rest).length ≤ (percentDecode (x :: rest)).length + 1 := by
  by_cases hx : x = 0x25
  · subst hx
    match rest with
    | [] => simp [percentDecode]
    | [a] =>
      have hone : percentDecode [0x25, a] = 0x25 :: percentDecode [a] := rfl
      rw [hone, List.length_cons]
      omega
    | a :: b :: rest =>
      rcases percentDecode_escape_cases a b rest with hread | ⟨p, q, ha, hb, hread⟩
      · rw [hread, List.length_cons]
        omega
      · rw [hread, percentDecode_cons (digitValue_ne_none ha),
          percentDecode_cons (digitValue_ne_none hb)]
        simp
  · rw [percentDecode_cons hx, List.length_cons]
    omega

/-- Two characters in front do not make the result shorter. -/
theorem length_percentDecode_two (a b : UInt8) (rest : Bytes) :
    (percentDecode rest).length ≤ (percentDecode (a :: b :: rest)).length := by
  have hb := length_percentDecode_le b rest
  by_cases ha : a = 0x25
  · subst ha
    match rest with
    | [] =>
      simp [percentDecode]
    | c :: rest =>
      rcases percentDecode_escape_cases b c rest with hread | ⟨p, q, -, hc, hread⟩
      · rw [hread, List.length_cons]
        omega
      · rw [hread, percentDecode_cons (digitValue_ne_none hc)]
        simp
  · rw [percentDecode_cons ha, List.length_cons]
    omega

theorem length_urlDecode_le (beyond : UInt8) {s : Bytes} (h : Escapes s) :
    (urlDecode beyond s).length ≤ (percentDecode s).length := by
  induction s using escape_induction with
  | nil => exact Nat.le_refl _
  | char x rest hx ih =>
    rw [urlDecode_cons hx, percentDecode_cons hx]
    exact Nat.succ_le_succ (ih ((escapes_cons hx).mp h))
  | short rest hshort => exact absurd h (not_escapes_short hshort)
  | escape a b rest ih =>
    have hrest := ih h
    have htwo := length_percentDecode_two a b rest
    rw [urlDecode_percent, List.length_cons]
    rcases percentDecode_escape_cases a b rest with hread | ⟨p, q, -, -, hread⟩
    · rw [hread, List.length_cons]
      omega
    · rw [hread, List.length_cons]
      omega

/-! ### What becomes of an escape -/

theorem unescape_ne_percent (x : UInt8) : unescape x 0x25 ≠ 0x25 ∧ unescape 0x25 x ≠ 0x25 := by
  revert x
  refine forall_byte ?_
  decide +kernel

/-- The digits, of either case. -/
def hexChars : Bytes := "0123456789ABCDEFabcdef".toUTF8.toList

theorem mem_hexChars {p : Nat} (h : Toolbox.digitValue x = some p) : x ∈ hexChars := by
  have hall : ∀ x, (Toolbox.digitValue x).isSome → x ∈ hexChars := by
    refine forall_byte ?_
    decide +kernel
  exact hall x (by simp [h])

instance (p : Nat) (b : UInt8) : Decidable (ReadsSecond p b) :=
  inferInstanceAs (Decidable (b < 0x61 ∨ 2 ≤ p % 4))

/-- Two digits are read as they should be, but for some lower case letters. -/
theorem unescape_eq_iff {p q : Nat} (ha : Toolbox.digitValue a = some p)
    (hb : Toolbox.digitValue b = some q) :
    unescape a b = UInt8.ofNat (p * 16 + q) ↔ ReadsSecond p b := by
  have hall : ∀ a ∈ hexChars, ∀ b ∈ hexChars,
      (unescape a b = UInt8.ofNat ((Toolbox.digitValue a).getD 0 * 16 +
          (Toolbox.digitValue b).getD 0) ↔ ReadsSecond ((Toolbox.digitValue a).getD 0) b) := by
    decide +kernel
  have hab := hall a (mem_hexChars ha) b (mem_hexChars hb)
  rwa [ha, hb] at hab

/-- A `%` that stands for itself is lost, together with what is behind it. -/
theorem urlDecode_ne_literal (beyond : UInt8) (hrest : Escapes rest)
    (h : Toolbox.digitValue a = none ∨ Toolbox.digitValue b = none) :
    urlDecode beyond (0x25 :: a :: b :: rest) ≠ percentDecode (0x25 :: a :: b :: rest) := by
  rw [urlDecode_percent, percentDecode_literal h]
  intro heq
  obtain ⟨hhead, htail⟩ := List.cons.inj heq
  have ha : a ≠ 0x25 := by
    rintro rfl
    exact (unescape_ne_percent b).2 hhead
  have hb : b ≠ 0x25 := by
    rintro rfl
    exact (unescape_ne_percent a).1 hhead
  have hlen := congrArg List.length htail
  have hle := length_urlDecode_le beyond hrest
  rw [percentDecode_cons ha, percentDecode_cons hb] at hlen
  simp only [List.length_cons] at hlen
  omega

theorem urlDecode_eq_iff (beyond : UInt8) {s : Bytes} (h : Escapes s) :
    urlDecode beyond s = percentDecode s ↔ Decodable s := by
  induction s using escape_induction with
  | nil => exact iff_of_true rfl trivial
  | char x rest hx ih =>
    rw [urlDecode_cons hx, percentDecode_cons hx, decodable_cons hx,
      ← ih ((escapes_cons hx).mp h), List.cons_inj_right]
  | short rest hshort => exact absurd h (not_escapes_short hshort)
  | escape a b rest ih =>
    have hdecodable : Decodable (0x25 :: a :: b :: rest) ↔
        (∃ p, Toolbox.digitValue a = some p ∧ (Toolbox.digitValue b).isSome ∧ ReadsSecond p b) ∧
          Decodable rest := Iff.rfl
    rw [hdecodable, ← ih h]
    cases ha : Toolbox.digitValue a with
    | none =>
      refine iff_of_false (urlDecode_ne_literal beyond h (.inl ha)) ?_
      rintro ⟨⟨p, hp, -⟩, -⟩
      cases hp
    | some p =>
      cases hb : Toolbox.digitValue b with
      | none =>
        refine iff_of_false (urlDecode_ne_literal beyond h (.inr hb)) ?_
        rintro ⟨⟨-, -, hsome, -⟩, -⟩
        cases hsome
      | some q =>
        rw [urlDecode_percent, percentDecode_percent ha hb, List.cons.injEq,
          unescape_eq_iff ha hb]
        simp

end

/-- **Which texts are decoded as they should be.** -/
theorem decodesAsReference_iff (s : Bytes) : DecodesAsReference s ↔ Decodable s := by
  have hreads := reads_inside_iff (s := s) 0
  rw [Nat.zero_add] at hreads
  constructor
  · intro h
    exact (urlDecode_eq_iff 0 (hreads.mp h.inside)).mp (h.decodes 0)
  · intro h
    exact ⟨hreads.mpr h.escapes, fun beyond => (urlDecode_eq_iff beyond h.escapes).mpr h⟩

/-- A line feed, in lower case. -/
theorem not_decodesAsReference_lower :
    ¬ DecodesAsReference "%0a".toUTF8.toList ∧ ¬ DecodesAsReference "100%".toUTF8.toList := by
  constructor
  · intro h
    exact absurd (h.decodes 0) (by decide +kernel)
  · intro h
    exact absurd (h.inside 4 (by decide +kernel)) (by decide +kernel)

end Global
end Proof
end PtpCore
