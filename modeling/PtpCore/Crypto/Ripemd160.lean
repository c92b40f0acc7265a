import PtpCore.Lib.Bytes

/-!
# RIPEMD-160 (`ptp_crypto/ripemd160.cpp`)

Two lines of 80 steps side by side over five registers. The macro `P` names the registers in a new
order at each step; here they are rotated instead, and after 80 steps each is back in its place.
`fetchFingerprint` has a call of this function that is commented out. It is here because the
format of an extended key asks for it.
-/

namespace PtpCore
namespace Crypto

open Lib

namespace Ripemd160

/-- `GET_UINT32_LE`. -/
def getUint32LE (b : Bytes) (i : Nat) : UInt32 := UInt32.ofNat (ofBE (slice b i 4).reverse)

/-- `S`. -/
def rotl (x n : UInt32) : UInt32 := (x <<< n) ||| (x >>> (32 - n))

def f1 (x y z : UInt32) : UInt32 := x ^^^ y ^^^ z

def f2 (x y z : UInt32) : UInt32 := (x &&& y) ||| (~~~x &&& z)

def f3 (x y z : UInt32) : UInt32 := (x ||| ~~~y) ^^^ z

def f4 (x y z : UInt32) : UInt32 := (x &&& z) ||| (y &&& ~~~z)

def f5 (x y z : UInt32) : UInt32 := x ^^^ (y ||| ~~~z)

/-- `F`, `K`, `Fp` and `Kp` of each group of 16 steps. -/
def groups : List ((UInt32 → UInt32 → UInt32 → UInt32) × UInt32 ×
    (UInt32 → UInt32 → UInt32 → UInt32) × UInt32) :=
  [(f1, 0x00000000, f5, 0x50A28BE6), (f2, 0x5A827999, f4, 0x5C4DD124),
    (f3, 0x6ED9EBA1, f3, 0x6D703EF3), (f4, 0x8F1BBCDC, f2, 0x7A6D76E9),
    (f5, 0xA953FD4E, f1, 0x00000000)]

/-- The last four arguments of `P2`, line by line: for each of the two lines of computation the
    word of the block and the rotation. -/
def lines : List (Nat × UInt32 × Nat × UInt32) :=
  [(0, 11, 5, 8), (1, 14, 14, 9), (2, 15, 7, 9), (3, 12, 0, 11), (4, 5, 9, 13), (5, 8, 2, 15),
    (6, 7, 11, 15), (7, 9, 4, 5), (8, 11, 13, 7), (9, 13, 6, 7), (10, 14, 15, 8),
    (11, 15, 8, 11), (12, 6, 1, 14), (13, 7, 10, 14), (14, 9, 3, 12), (15, 8, 12, 6),
    (7, 7, 6, 9), (4, 6, 11, 13), (13, 8, 3, 15), (1, 13, 7, 7), (10, 11, 0, 12), (6, 9, 13, 8),
    (15, 7, 5, 9), (3, 15, 10, 11), (12, 7, 14, 7), (0, 12, 15, 7), (9, 15, 8, 12),
    (5, 9, 12, 7), (2, 11, 4, 6), (14, 7, 9, 15), (11, 13, 1, 13), (8, 12, 2, 11),
    (3, 11, 15, 9), (10, 13, 5, 7), (14, 6, 1, 15), (4, 7, 3, 11), (9, 14, 7, 8), (15, 9, 14, 6),
    (8, 13, 6, 6), (1, 15, 9, 14), (2, 14, 11, 12), (7, 8, 8, 13), (0, 13, 12, 5), (6, 6, 2, 14),
    (13, 5, 10, 13), (11, 12, 0, 13), (5, 7, 4, 7), (12, 5, 13, 5), (1, 11, 8, 15),
    (9, 12, 6, 5), (11, 14, 4, 8), (10, 15, 1, 11), (0, 14, 3, 14), (8, 15, 11, 14),
    (12, 9, 15, 6), (4, 8, 0, 14), (13, 9, 5, 6), (3, 14, 12, 9), (7, 5, 2, 12), (15, 6, 13, 9),
    (14, 8, 9, 12), (5, 6, 7, 5), (6, 5, 10, 15), (2, 12, 14, 8), (4, 9, 12, 8), (0, 15, 15, 5),
    (5, 5, 10, 12), (9, 11, 4, 9), (7, 6, 1, 12), (12, 8, 5, 5), (2, 13, 8, 14), (10, 12, 7, 6),
    (14, 5, 6, 8), (1, 12, 2, 13), (3, 13, 13, 6), (8, 14, 14, 5), (11, 11, 0, 15),
    (6, 8, 3, 13), (15, 5, 9, 11), (13, 6, 11, 11)]

structure Regs where
  a : UInt32
  b : UInt32
  c : UInt32
  d : UInt32
  e : UInt32

/-- `P`, and the registers in the order of the next step. -/
def step (x : UInt32) (f : UInt32 → UInt32 → UInt32 → UInt32) (k s : UInt32) (r : Regs) : Regs :=
  ⟨r.e, rotl (r.a + f r.b r.c r.d + x + k) s + r.e, r.b, rotl r.c 10, r.d⟩

/-- `ripemd160_process` of a block of 64 bytes. -/
def process (state : Regs) (data : Bytes) : Regs :=
  let x := (List.range 16).map fun i => getUint32LE data (4 * i)
  let (l, r) := (List.range 80).foldl (fun (l, r) j =>
    let (f, k, fp, kp) := groups.getD (j / 16) (f1, 0, f1, 0)
    let (w, s, wp, sp) := lines.getD j (0, 0, 0, 0)
    (step (x.getD w 0) f k s l, step (x.getD wp 0) fp kp sp r)) (state, state)
  ⟨state.b + l.c + r.d, state.c + l.d + r.e, state.d + l.e + r.a, state.e + l.a + r.b,
    state.a + l.b + r.c⟩

/-- `ripemd160_Init`. -/
def init : Regs := ⟨0x67452301, 0xEFCDAB89, 0x98BADCFE, 0x10325476, 0xC3D2E1F0⟩

/-- What `ripemd160_Final` appends to a message of so many bytes. -/
def padding (len : Nat) : Bytes :=
  let last := len % 64
  let padn := if last < 56 then 56 - last else 120 - last
  0x80 :: (List.replicate (padn - 1) 0 ++ (toBE 8 (8 * len)).reverse)

end Ripemd160

def ripemd160 (msg : Bytes) : Bytes :=
  let data := msg ++ Ripemd160.padding msg.length
  let s := (List.range (data.length / 64)).foldl
    (fun s i => Ripemd160.process s (slice data (64 * i) 64)) Ripemd160.init
  [s.a, s.b, s.c, s.d, s.e].flatMap fun x => (toBE 4 x.toNat).reverse

end Crypto
end PtpCore
