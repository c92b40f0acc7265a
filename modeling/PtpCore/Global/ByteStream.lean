import PtpCore.Global.SimpleBuffer

/-!
# `CPduException` and `CByteStream` (`ptp_global/UtilPdu.cpp`)

`CByteStream` is two things in the source. Its static functions convert 16- and 32-bit numbers
to and from two and four bytes in network order; a stream object reads or writes typed values
at a moving position. The bytes are computed by shifts and masks, as the source does it, and
`writeUint16_eq`, `readUint32_eq` and their siblings say that this is the big-endian encoding
of `Lib.Bytes`.

A reading stream (`CByteStream(buf, len)`) checks every read against `len` and throws past it.
A stream over a `CSimpleBuffer` only appends.
-/

namespace PtpCore
namespace Global

open Lib

def errorCodeParseFailed : UInt32 := 1

/-- What the source throws; the error message is kept as the bytes of the C string. -/
structure CPduException where
  serviceId : UInt32
  commandId : UInt32
  errorCode : UInt32
  errorMsg : String
  deriving DecidableEq, Repr

/-- The two-argument constructor. -/
def CPduException.ofError (errorCode : UInt32) (errorMsg : String) : CPduException :=
  ⟨0, 0, errorCode, errorMsg⟩

namespace CByteStream

/-! ## The static conversions -/

def writeUint16 (data : UInt16) : Bytes := [(data >>> 8).toUInt8, (data &&& 0xFF).toUInt8]

def writeUint32 (data : UInt32) : Bytes :=
  [(data >>> 24).toUInt8, ((data >>> 16) &&& 0xFF).toUInt8, ((data >>> 8) &&& 0xFF).toUInt8,
    (data &&& 0xFF).toUInt8]

/-- An `int32_t` is given by its bit pattern: the four bytes are those of `WriteUint32`. -/
def writeInt32 (data : UInt32) : Bytes := writeUint32 data

def readUint16 (buf : Bytes) : UInt16 :=
  ((buf.getD 0 0).toUInt16 <<< 8) ||| (buf.getD 1 0).toUInt16

def readUint32 (buf : Bytes) : UInt32 :=
  ((buf.getD 0 0).toUInt32 <<< 24) ||| ((buf.getD 1 0).toUInt32 <<< 16) |||
    ((buf.getD 2 0).toUInt32 <<< 8) ||| (buf.getD 3 0).toUInt32

@[simp] theorem length_writeUint16 (data : UInt16) : (writeUint16 data).length = 2 := rfl

@[simp] theorem length_writeUint32 (data : UInt32) : (writeUint32 data).length = 4 := rfl

@[simp] theorem length_writeInt32 (data : UInt32) : (writeInt32 data).length = 4 := rfl

/-- Masking with `0xFF` before a narrowing conversion changes nothing. -/
theorem ofNat_land_255 (n : Nat) : UInt8.ofNat (n &&& 255) = UInt8.ofNat n := by
  apply UInt8.toNat_inj.mp
  rw [UInt8.toNat_ofNat', UInt8.toNat_ofNat']
  have h : n &&& 255 = n % 256 := Nat.and_two_pow_sub_one_eq_mod n 8
  rw [h]
  omega

theorem writeUint16_eq (data : UInt16) : writeUint16 data = toBE 2 data.toNat := by
  have h1 : (data >>> 8).toUInt8 = UInt8.ofNat (data.toNat / 256) := by
    apply UInt8.toNat_inj.mp
    simp [Nat.shiftRight_eq_div_pow]
  have h2 : (data &&& 0xFF).toUInt8 = UInt8.ofNat data.toNat := by
    rw [← ofNat_land_255]
    apply UInt8.toNat_inj.mp
    simp
  simp only [writeUint16, toBE, h1, h2, List.nil_append, List.cons_append]

theorem writeUint32_eq (data : UInt32) : writeUint32 data = toBE 4 data.toNat := by
  have hbyte : ∀ k : Nat, k < 32 → ((data >>> UInt32.ofNat k) &&& 0xFF).toUInt8 =
      UInt8.ofNat (data.toNat / 2 ^ k) := by
    intro k hk
    rw [← ofNat_land_255]
    apply UInt8.toNat_inj.mp
    simp [Nat.shiftRight_eq_div_pow, Nat.mod_eq_of_lt (show k < 4294967296 by omega),
      Nat.mod_eq_of_lt hk]
  have h1 : (data >>> 24).toUInt8 = UInt8.ofNat (data.toNat / 2 ^ 24) := by
    apply UInt8.toNat_inj.mp
    simp [Nat.shiftRight_eq_div_pow]
  have h4 : (data &&& 0xFF).toUInt8 = UInt8.ofNat data.toNat := by
    rw [← ofNat_land_255]
    apply UInt8.toNat_inj.mp
    simp
  have h2 := hbyte 16 (by omega)
  have h3 := hbyte 8 (by omega)
  simp only [writeUint32, toBE, h1, h4, List.nil_append, List.cons_append, Nat.div_div_eq_div_mul]
  exact congrArg₂ _ rfl (congrArg₂ _ h2 (congrArg₂ _ h3 rfl))

/-- Putting a byte below a number that has been shifted past it is an addition. -/
theorem shiftLeft_or_byte (a : Nat) (x : UInt8) (k : Nat) :
    a * 2 ^ (k + 8) ||| x.toNat * 2 ^ k = (a * 256 + x.toNat) * 2 ^ k := by
  have hx : x.toNat < 2 ^ 8 := x.toNat_lt
  have h := Nat.two_pow_add_eq_or_of_lt hx a
  have hk : ∀ m : Nat, m * 2 ^ k = m <<< k := fun m => (Nat.shiftLeft_eq m k).symm
  have ha : a * 2 ^ (k + 8) = (2 ^ 8 * a) * 2 ^ k := by
    rw [pow_add]
    ring
  rw [ha, hk, hk, ← Nat.shiftLeft_or_distrib, ← h, ← hk]
  congr 1
  omega

theorem readUint16_eq {buf : Bytes} (h : buf.length = 2) :
    readUint16 buf = UInt16.ofNat (ofBE buf) := by
  match buf, h with
  | [x, y], _ =>
    have hx : x.toNat < 256 := x.toNat_lt
    have hy : y.toNat < 256 := y.toNat_lt
    apply UInt16.toNat_inj.mp
    have h0 := shiftLeft_or_byte x.toNat y 0
    simp only [Nat.pow_zero, Nat.mul_one, Nat.zero_add, Nat.reducePow] at h0
    simp only [readUint16, ofBE, List.getD_cons_zero, List.getD_cons_succ, UInt16.toNat_or,
      UInt16.toNat_shiftLeft, UInt8.toNat_toUInt16, UInt16.toNat_ofNat', List.foldl_cons,
      List.foldl_nil, Nat.shiftLeft_eq]
    have hs : x.toNat * 2 ^ ((8 : UInt16).toNat % 16) % 2 ^ 16 = x.toNat * 256 :=
      Nat.mod_eq_of_lt (show x.toNat * 256 < 65536 by omega)
    rw [hs, h0]
    omega

theorem readUint32_eq {buf : Bytes} (h : buf.length = 4) :
    readUint32 buf = UInt32.ofNat (ofBE buf) := by
  match buf, h with
  | [x, y, z, w], _ =>
    have hx : x.toNat < 256 := x.toNat_lt
    have hy : y.toNat < 256 := y.toNat_lt
    have hz : z.toNat < 256 := z.toNat_lt
    have hw : w.toNat < 256 := w.toNat_lt
    apply UInt32.toNat_inj.mp
    have h1 := shiftLeft_or_byte x.toNat y 16
    have h2 := shiftLeft_or_byte (x.toNat * 256 + y.toNat) z 8
    have h3 := shiftLeft_or_byte ((x.toNat * 256 + y.toNat) * 256 + z.toNat) w 0
    simp only [Nat.pow_zero, Nat.mul_one, Nat.zero_add, Nat.reduceAdd, Nat.reducePow]
      at h1 h2 h3
    simp [readUint32, ofBE, Nat.shiftLeft_eq,
      Nat.mod_eq_of_lt (show x.toNat * 16777216 < 4294967296 by omega),
      Nat.mod_eq_of_lt (show y.toNat * 65536 < 4294967296 by omega),
      Nat.mod_eq_of_lt (show z.toNat * 256 < 4294967296 by omega), h1, h2, h3]
    omega

@[simp] theorem readUint16_writeUint16 (data : UInt16) : readUint16 (writeUint16 data) = data := by
  rw [readUint16_eq (length_writeUint16 data), writeUint16_eq,
    ofBE_toBE_of_lt (by simpa using data.toNat_lt), UInt16.ofNat_toNat]

@[simp] theorem readUint32_writeUint32 (data : UInt32) : readUint32 (writeUint32 data) = data := by
  rw [readUint32_eq (length_writeUint32 data), writeUint32_eq,
    ofBE_toBE_of_lt (by simpa using data.toNat_lt), UInt32.ofNat_toNat]

@[simp] theorem readUint32_writeInt32 (data : UInt32) : readUint32 (writeInt32 data) = data :=
  readUint32_writeUint32 data

/-- `CByteStream(buf, len)`: the block, how much of it may be read, and the position. -/
structure Reader where
  buf : Bytes
  len : Nat
  pos : Nat
  deriving DecidableEq, Repr

def Reader.ofBuf (buf : Bytes) (len : Nat) : Reader := ⟨buf, len, 0⟩

/-- `_ReadByte`. -/
def Reader.readByte (s : Reader) (len : Nat) : Except CPduException (Bytes × Reader) :=
  if (s.pos + len) % 2 ^ 32 > s.len then
    .error (.ofError errorCodeParseFailed "parase packet failed!")
  else
    .ok (slice s.buf s.pos len, { s with pos := (s.pos + len) % 2 ^ 32 })

/-- `operator >> (uint16_t&)`. -/
def Reader.getUint16 (s : Reader) : Except CPduException (UInt16 × Reader) := do
  let (b, s) ← s.readByte 2
  return (readUint16 b, s)

/-- `operator >> (uint32_t&)`. -/
def Reader.getUint32 (s : Reader) : Except CPduException (UInt32 × Reader) := do
  let (b, s) ← s.readByte 4
  return (readUint32 b, s)

theorem Reader.getUint16_of_le {s : Reader} (h : s.pos + 2 ≤ s.len) (hl : s.len < 2 ^ 32) :
    s.getUint16 = .ok (readUint16 (slice s.buf s.pos 2), { s with pos := s.pos + 2 }) := by
  have hmod : (s.pos + 2) % 2 ^ 32 = s.pos + 2 := by omega
  simp only [getUint16, readByte, hmod, if_neg (show ¬ s.pos + 2 > s.len by omega)]
  rfl

theorem Reader.getUint32_of_le {s : Reader} (h : s.pos + 4 ≤ s.len) (hl : s.len < 2 ^ 32) :
    s.getUint32 = .ok (readUint32 (slice s.buf s.pos 4), { s with pos := s.pos + 4 }) := by
  have hmod : (s.pos + 4) % 2 ^ 32 = s.pos + 4 := by omega
  simp only [getUint32, readByte, hmod, if_neg (show ¬ s.pos + 4 > s.len by omega)]
  rfl

/-! ## Streams over a `CSimpleBuffer` -/

/-- `operator << (uint32_t)` on a stream over `b`: `_WriteByte` appends the four bytes. -/
def putUint32 (fill : Nat → UInt8) (b : CSimpleBuffer) (data : UInt32) : CSimpleBuffer :=
  b.write fill (some (writeUint32 data)) 4

end CByteStream

end Global
end PtpCore
