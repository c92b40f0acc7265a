import PtpCore.Lib.Bytes

/-!
# The protocol buffers wire format

A message on the wire is a string of fields, each a key and a value; the key is a number and the
kind of value that follows. Two kinds are used here: numbers, as varints of seven bits a byte with
the low bits first, and byte strings behind their length. A message type reads its fields out of
the list by number, and of several with one number the last one counts.

`decode_encode` is the round trip of lists of fields; `lookup_append` and its siblings are how a
message type shows that it finds its own fields again.
-/

namespace PtpCore
namespace Lib
namespace Wire

/-! ## Varints -/

/-- A varint holds 64 bits, in at most ten bytes. -/
def maxVarint : Nat := 10

def putVarint : Nat → Nat → Bytes
  | 0, _ => []
  | k + 1, n =>
    if n < 128 then [UInt8.ofNat n]
    else UInt8.ofNat (n % 128 + 128) :: putVarint k (n / 128)

def getVarint : Nat → Bytes → Option (Nat × Bytes)
  | 0, _ => none
  | _ + 1, [] => none
  | k + 1, x :: rest =>
    if x.toNat < 128 then some (x.toNat, rest)
    else
      match getVarint k rest with
      | some (n, rest) => some (x.toNat - 128 + 128 * n, rest)
      | none => none

theorem getVarint_putVarint {k n : Nat} (h : n < 128 ^ k) (rest : Bytes) :
    getVarint k (putVarint k n ++ rest) = some (n, rest) ∨ k = 0 := by
  induction k generalizing n with
  | zero => exact Or.inr rfl
  | succ k ih =>
    left
    rw [putVarint]
    by_cases hsmall : n < 128
    · have hbyte : (UInt8.ofNat n).toNat = n := by
        rw [UInt8.toNat_ofNat']
        omega
      rw [if_pos hsmall, List.singleton_append, getVarint, hbyte, if_pos hsmall]
    · have hbyte : (UInt8.ofNat (n % 128 + 128)).toNat = n % 128 + 128 := by
        rw [UInt8.toNat_ofNat']
        omega
      have hdiv : n / 128 < 128 ^ k := by
        rw [pow_succ] at h
        omega
      have hk : k ≠ 0 := by
        rintro rfl
        rw [pow_zero] at hdiv
        omega
      rw [if_neg hsmall, List.cons_append, getVarint, hbyte, if_neg (by omega),
        (ih hdiv).resolve_right hk]
      dsimp only
      congr 2
      omega

/-- Numbers of 64 bits survive. -/
theorem getVarint_max {n : Nat} (h : n < 2 ^ 64) (rest : Bytes) :
    getVarint maxVarint (putVarint maxVarint n ++ rest) = some (n, rest) := by
  have hlt : n < 128 ^ maxVarint := Nat.lt_of_lt_of_le h (by decide)
  exact (getVarint_putVarint hlt rest).resolve_right (by decide)

theorem putVarint_ne_nil (k n : Nat) : putVarint (k + 1) n ≠ [] := by
  rw [putVarint]
  split <;> exact List.cons_ne_nil _ _

/-! ## Fields -/

inductive Value
  | varint (n : Nat)
  | bytes (b : Bytes)
  deriving DecidableEq, Repr

structure Field where
  num : Nat
  val : Value
  deriving DecidableEq, Repr

/-- What fits: the number in 29 bits, a varint in 64, a length in 31. -/
def Field.Fits (f : Field) : Prop :=
  f.num < 2 ^ 29 ∧
    match f.val with
    | .varint n => n < 2 ^ 64
    | .bytes b => b.length < 2 ^ 31

def encodeField (f : Field) : Bytes :=
  match f.val with
  | .varint n => putVarint maxVarint (f.num * 8) ++ putVarint maxVarint n
  | .bytes b => putVarint maxVarint (f.num * 8 + 2) ++ (putVarint maxVarint b.length ++ b)

def encode (fs : List Field) : Bytes := fs.flatMap encodeField

/-- One field; `none` when the input ends early or the kind is none of the two. -/
def getField (b : Bytes) : Option (Field × Bytes) :=
  match getVarint maxVarint b with
  | none => none
  | some (key, rest) =>
    match getVarint maxVarint rest with
    | none => none
    | some (n, rest) =>
      if key % 8 = 0 then some (⟨key / 8, .varint n⟩, rest)
      else if key % 8 = 2 ∧ n ≤ rest.length then
        some (⟨key / 8, .bytes (rest.take n)⟩, rest.drop n)
      else none

/-- The fields up to the end or to the first that cannot be read, and whether it was the end. -/
def getFields : Nat → Bytes → List Field × Bool
  | 0, _ => ([], false)
  | _ + 1, [] => ([], true)
  | k + 1, b =>
    match getField b with
    | none => ([], false)
    | some (f, rest) => (f :: (getFields k rest).1, (getFields k rest).2)

/-- Each field takes a byte at least, so there are no more than bytes. -/
def decode (b : Bytes) : List Field × Bool := getFields (b.length + 1) b

theorem getField_encodeField {f : Field} (h : f.Fits) (rest : Bytes) :
    getField (encodeField f ++ rest) = some (f, rest) := by
  obtain ⟨num, val⟩ := f
  obtain ⟨hnum, hval⟩ := h
  dsimp only at hnum
  cases val with
  | varint n =>
    have hkey : num * 8 < 2 ^ 64 := by omega
    rw [encodeField, List.append_assoc, getField, getVarint_max hkey]
    dsimp only
    rw [getVarint_max hval]
    dsimp only
    rw [if_pos (by omega), Nat.mul_div_cancel _ (by omega)]
  | bytes b =>
    have hkey : num * 8 + 2 < 2 ^ 64 := by omega
    have hlen : b.length < 2 ^ 64 := Nat.lt_of_lt_of_le hval (by decide)
    have hdiv : (num * 8 + 2) / 8 = num := by omega
    rw [encodeField, List.append_assoc, List.append_assoc, getField, getVarint_max hkey]
    dsimp only
    rw [getVarint_max hlen]
    dsimp only
    rw [if_neg (by omega), if_pos ⟨by omega, by rw [List.length_append]; omega⟩, List.take_left,
      List.drop_left, hdiv]

theorem encodeField_ne_nil (f : Field) : encodeField f ≠ [] := by
  obtain ⟨num, val⟩ := f
  cases val with
  | varint n => exact List.append_ne_nil_of_left_ne_nil (putVarint_ne_nil 9 _) _
  | bytes b => exact List.append_ne_nil_of_left_ne_nil (putVarint_ne_nil 9 _) _

theorem getFields_encode {fs : List Field} (h : ∀ f ∈ fs, f.Fits) {k : Nat}
    (hk : fs.length < k) : getFields k (encode fs) = (fs, true) := by
  induction fs generalizing k with
  | nil =>
    obtain ⟨k, rfl⟩ : ∃ j, k = j + 1 := ⟨k - 1, by rw [List.length_nil] at hk; omega⟩
    rfl
  | cons f fs ih =>
    obtain ⟨k, rfl⟩ : ∃ j, k = j + 1 := ⟨k - 1, by omega⟩
    have hrest := ih (fun g hg => h g (List.mem_cons_of_mem f hg))
      (k := k) (by rw [List.length_cons] at hk; omega)
    have hcons : encode (f :: fs) = encodeField f ++ encode fs := List.flatMap_cons
    have hne : encodeField f ++ encode fs ≠ [] :=
      List.append_ne_nil_of_left_ne_nil (encodeField_ne_nil f) _
    rw [hcons]
    cases hb : encodeField f ++ encode fs with
    | nil => exact absurd hb hne
    | cons x b =>
      rw [getFields, ← hb, getField_encodeField (h f List.mem_cons_self)]
      · dsimp only
        rw [hrest]
      · rintro ⟨⟩

theorem length_le_encode (fs : List Field) : fs.length ≤ (encode fs).length := by
  induction fs with
  | nil => exact Nat.le_refl 0
  | cons f fs ih =>
    have hpos : 0 < (encodeField f).length := List.length_pos_iff.mpr (encodeField_ne_nil f)
    have hcons : encode (f :: fs) = encodeField f ++ encode fs := List.flatMap_cons
    rw [hcons, List.length_append, List.length_cons]
    omega

theorem decode_encode {fs : List Field} (h : ∀ f ∈ fs, f.Fits) :
    decode (encode fs) = (fs, true) :=
  getFields_encode h (Nat.lt_succ_of_le (length_le_encode fs))

/-! ## Lengths -/

theorem length_putVarint_le (k n : Nat) : (putVarint k n).length ≤ k := by
  induction k generalizing n with
  | zero => exact Nat.le_refl 0
  | succ k ih =>
    rw [putVarint]
    split
    · exact Nat.succ_le_succ (Nat.zero_le k)
    · exact Nat.succ_le_succ (ih _)

theorem putVarint_of_lt {k n : Nat} (h : n < 128) : putVarint (k + 1) n = [UInt8.ofNat n] :=
  if_pos h

/-- A key takes ten bytes at most, and so do a number and a length. -/
theorem length_encodeField_le (f : Field) :
    (encodeField f).length ≤ 20 + match f.val with
      | .varint _ => 0
      | .bytes b => b.length := by
  obtain ⟨num, val⟩ := f
  have hmax : maxVarint = 10 := rfl
  cases val with
  | varint n =>
    have hkey := length_putVarint_le maxVarint (num * 8)
    have hnum := length_putVarint_le maxVarint n
    rw [encodeField, List.length_append]
    dsimp only
    omega
  | bytes b =>
    have hkey := length_putVarint_le maxVarint (num * 8 + 2)
    have hlen := length_putVarint_le maxVarint b.length
    rw [encodeField, List.length_append, List.length_append]
    dsimp only
    omega

theorem encode_append (a b : List Field) : encode (a ++ b) = encode a ++ encode b :=
  List.flatMap_append

/-! ## Reading fields by number -/

/-- The value of the last field with this number. -/
def lookup (num : Nat) : List Field → Option Value
  | [] => none
  | f :: fs =>
    match lookup num fs with
    | some v => some v
    | none => if f.num = num then some f.val else none

/-- A field that is there if it is set. -/
def opt (num : Nat) : Option Value → List Field
  | none => []
  | some v => [⟨num, v⟩]

theorem length_encode_opt_le (num : Nat) (v : Option Value) :
    (encode (opt num v)).length ≤ 20 + match v with
      | some (.bytes b) => b.length
      | _ => 0 := by
  cases v with
  | none => exact Nat.zero_le _
  | some v =>
    have hfield := length_encodeField_le ⟨num, v⟩
    rw [opt, encode, List.flatMap_singleton]
    cases v with
    | varint n => exact hfield
    | bytes b => exact hfield

theorem lookup_append (num : Nat) (a b : List Field) :
    lookup num (a ++ b) = (lookup num b).or (lookup num a) := by
  induction a with
  | nil => exact (Option.or_none).symm
  | cons f a ih =>
    rw [List.cons_append, lookup, ih, lookup]
    cases lookup num b <;> rfl

theorem lookup_opt (num k : Nat) (v : Option Value) :
    lookup num (opt k v) = if k = num then v else none := by
  cases v with
  | none => exact (ite_self none).symm
  | some v => rfl

/-- A number and a byte string out of a value; a value of the other kind is not one. -/
def Value.number : Value → Option Nat
  | .varint n => some n
  | .bytes _ => none

def Value.string : Value → Option Bytes
  | .varint _ => none
  | .bytes b => some b

end Wire
end Lib
end PtpCore
