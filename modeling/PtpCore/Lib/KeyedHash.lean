import PtpCore.Lib.Bytes
import Mathlib.Logic.Function.Iterate

/-!
# Hashes with a key, and keys out of passwords

The two standard constructions over a hash of byte strings: a hash with a key, and the first block of
a key that is derived from a password by repeating it. The lemmas say how exclusive or, byte
by byte, looks on the big-endian bytes of numbers, where implementations work on words.
-/

namespace PtpCore
namespace Lib

/-- Two byte strings of one length. -/
def xorBytes (a b : Bytes) : Bytes := List.zipWith (· ^^^ ·) a b

/-- One byte against each of a string. -/
def xorWith (x : UInt8) (b : Bytes) : Bytes := b.map (· ^^^ x)

@[simp] theorem length_xorWith (x : UInt8) (b : Bytes) : (xorWith x b).length = b.length :=
  List.length_map ..

theorem xorBytes_append {a a' b b' : Bytes} (h : a.length = a'.length) :
    xorBytes (a ++ b) (a' ++ b') = xorBytes a a' ++ xorBytes b b' :=
  List.zipWith_append h

theorem xorWith_eq_xorBytes (x : UInt8) (b : Bytes) :
    xorWith x b = xorBytes b (List.replicate b.length x) := by
  induction b with
  | nil => rfl
  | cons y b ih =>
    rw [xorWith, List.map_cons, List.length_cons, List.replicate_succ, xorBytes, List.zipWith_cons_cons]
    exact congrArg _ ih

/-- The second time undoes the first. -/
theorem xorWith_xorWith (x : UInt8) (b : Bytes) : xorWith x (xorWith x b) = b := by
  simp [xorWith, Function.comp_def, UInt8.xor_assoc]

theorem toBE_xor (w a b : Nat) : toBE w (a ^^^ b) = xorBytes (toBE w a) (toBE w b) := by
  induction w generalizing a b with
  | zero => rfl
  | succ w ih =>
    have hdiv : (a ^^^ b) / 256 = (a / 256) ^^^ (b / 256) := Nat.xor_div_two_pow (n := 8)
    have hbyte : UInt8.ofNat (a ^^^ b) = UInt8.ofNat a ^^^ UInt8.ofNat b := UInt8.ofNat_xor ..
    rw [toBE, hdiv, ih, hbyte, toBE, toBE, xorBytes_append (by simp)]
    rfl

section

variable (H : Bytes → Bytes) (size : Nat)

/-- The key of one block: hashed first when it is longer than that. -/
def padKey (key : Bytes) : Bytes :=
  let k := if size < key.length then H key else key
  k ++ List.replicate (size - k.length) 0

/-- `H (key ⊕ opad ‖ H (key ⊕ ipad ‖ msg))`. -/
def hmac (key msg : Bytes) : Bytes :=
  H (xorWith 0x5c (padKey H size key) ++ H (xorWith 0x36 (padKey H size key) ++ msg))

variable {H size}

theorem length_padKey (hH : ∀ b, (H b).length ≤ size) (key : Bytes) :
    (padKey H size key).length = size := by
  have hle : (if size < key.length then H key else key).length ≤ size := by
    split
    · exact hH key
    · omega
  rw [padKey, List.length_append, List.length_replicate]
  omega

end

/-- The block of number `i`: `prf` repeated `c` times over the salt, and all results against each
    other. -/
def pbkdf2Block (prf : Bytes → Bytes) (salt : Bytes) (c i : Nat) : Bytes :=
  let u := prf (salt ++ toBE 4 i)
  (List.range (c - 1)).foldl (fun f j => xorBytes f (prf^[j + 1] u)) u

theorem pbkdf2Block_one (prf : Bytes → Bytes) (salt : Bytes) (i : Nat) :
    pbkdf2Block prf salt 1 i = prf (salt ++ toBE 4 i) := rfl

theorem pbkdf2Block_succ (prf : Bytes → Bytes) (salt : Bytes) (c i : Nat) :
    pbkdf2Block prf salt (c + 2) i =
      xorBytes (pbkdf2Block prf salt (c + 1) i) (prf^[c + 1] (prf (salt ++ toBE 4 i))) := by
  simp [pbkdf2Block, List.range_succ]

end Lib
end PtpCore
