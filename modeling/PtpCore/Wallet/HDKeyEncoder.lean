import PtpCore.Global.Helpers
import PtpCore.Lib.Loop
import PtpCore.Wallet.HDKey

/-!
# `HDKeyEncoder` in full (`ptp_wallet/HDKey.cpp`, `utils.cpp`, `strings::split`)

`HDKey.lean` has what an account needs of these functions: a path that is known to be well formed,
and loops that are cut off. Here a path is any text, its parts are read as the source reads them,
and what is thrown is an outcome. A key is passed by reference, so the outcome of a function that
throws has the key in it as well, with whatever was done to it before.

Both loops hash until the result will do. Within `attempts` passes they are left, or the outcome is
`none`; nothing is said about a run that goes on for longer.

`bytes_data` and `bytes_array` are blocks of bytes that are written at offsets (`overwrite`), and
`clear` fills a block with zeros.
-/

namespace PtpCore
namespace Wallet
namespace HDKeyEncoder

open Lib Global

/-! ## Reading a path -/

/-- What the standard library throws. -/
inductive StdError
  | invalidArgument
  | outOfRange
  deriving DecidableEq, Repr

/-- The digits that `strtoul` finds behind spaces and sign, and their value. -/
def magnitude : Bytes → Except StdError Nat
  | [] => .error .invalidArgument
  | x :: rest =>
    if 0x30 ≤ x ∧ x ≤ 0x39 then
      let value := atoiDigits 0 (x :: rest)
      if value < 2 ^ 64 then .ok value else .error .outOfRange
    else .error .invalidArgument

/-- `std::stoul` in base 10. A minus sign is taken, and the value is negated as an
    `unsigned long`. -/
def stoul (str : Bytes) : Except StdError Nat :=
  match str.dropWhile Toolbox.isSpace with
  | 0x2d :: rest => (magnitude rest).map fun value => (2 ^ 64 - value) % 2 ^ 64
  | 0x2b :: rest => magnitude rest
  | rest => magnitude rest

def strToUint32 (str : Bytes) : Except StdError UInt32 :=
  match stoul str with
  | .error e => .error e
  | .ok result => if result > 2 ^ 32 - 1 then .error .outOfRange else .ok (UInt32.ofNat result)

/-- `strings::split` at a character: what is in front of each, and the rest unless it is empty. -/
def split (source : Bytes) (delimiter : UInt8) : List Bytes :=
  let parts := source.splitOn delimiter
  let src := parts.getLastD []
  parts.dropLast ++ (if src.length > 0 then [src] else [])

/-- The character `/`. -/
def slash : UInt8 := 0x2f

/-- The apostrophe. -/
def apostrophe : UInt8 := 0x27

/-- The parts that `derivePath` passes over. -/
def isSkipped (bit : Bytes) : Bool := bit == [0x6d] || bit == [apostrophe]

def isHardened (bit : Bytes) : Bool :=
  decide (bit.length > 1) && bit.getLast? == some apostrophe

/-- The index of a part, before the offset of a private derivation. -/
def partIndex (bit : Bytes) : Except StdError UInt32 :=
  strToUint32 (if isHardened bit then bit.dropLast else bit)

/-- The index that `derive` is called with. -/
def childIndex (bit : Bytes) : Except StdError UInt32 :=
  (partIndex bit).map fun index => if isHardened bit then index + 0x80000000 else index

/-! ## Keys -/

/-- `HDKey::HDKey()`. -/
def newKey : HDKey where
  extPrivateKey := List.replicate 112 0
  extPublicKey := List.replicate 112 0

/-- The copy and the move constructor, which leave `publicKey64` out. -/
def copy (other : HDKey) : HDKey := { other with publicKey64 := newKey.publicKey64 }

/-- `operator=`, which leaves it out too. -/
def assign (key other : HDKey) : HDKey := { other with publicKey64 := key.publicKey64 }

section

variable (p : HDPrimitives)

/-- One pass through the loop of `derive`, with `buff` and `I`. -/
def deriveBody (chainCode : Bytes) (a : Nat) : Bytes × Bytes → Pass (Bytes × Bytes) (Nat × Bytes)
  | (buff, I) =>
    let retry :=
      let buff := overwrite (overwrite buff 0 [1]) 1 (I.drop 32)
      Pass.again (buff, p.hmacSha512 chainCode buff)
    let b := ofBE (I.take 32)
    if b < p.order then
      let b := (b + a) % p.order
      if b = 0 then retry else .leave (b, I)
    else retry

/-- `buff` in front of the loop. -/
def deriveBuff (key : HDKey) (index : UInt32) : Bytes :=
  let buff := List.replicate 37 0
  let buff :=
    if index &&& 0x80000000 ≠ 0 then overwrite (overwrite buff 0 [0]) 1 key.privateKey
    else overwrite buff 0 (key.fillPublicKey p).publicKey
  overwrite buff 33 (toBE 4 index.toNat)

def derive (key : HDKey) (index : UInt32) : Option HDKey :=
  let (fingerprint, key) := key.fetchFingerprint p
  let buff := deriveBuff p key index
  let I := p.hmacSha512 key.chainCode buff
  match outOf (deriveBody p key.chainCode (ofBE key.privateKey)) p.attempts (buff, I) with
  | none => none
  | some (b, I) =>
    some { key with
      fingerprint := fingerprint
      privateKey := toBE 32 b
      chainCode := I.drop 32
      depth := key.depth + 1
      index := index
      publicKey := List.replicate 33 0 }

/-- The loop of `derivePath` over the parts. -/
def deriveParts (priv : Bool) : HDKey → List Bytes → Option (HDKey × Option StdError)
  | key, [] => some (key, none)
  | key, bit :: rest =>
    if isSkipped bit then deriveParts priv key rest
    else
      match childIndex bit with
      | .error e => some (key, some e)
      | .ok index =>
        if isHardened bit && !priv then some (key, none)
        else if priv then
          match derive p key index with
          | none => none
          | some key => deriveParts priv key rest
        else deriveParts priv key rest

def derivePath (key : HDKey) (path : Bytes) (priv : Bool) : Option (HDKey × Option StdError) :=
  deriveParts p priv key (split path slash)

/-- `data` of `serialize`, when it is encoded. -/
def serializeData (key : HDKey) (fingerprint version : UInt32) (publicKey : Bool) : Bytes :=
  let data := List.replicate 78 0
  let data := overwrite data 0 (toBE 4 version.toNat)
  let data := overwrite data 4 [key.depth]
  let data := overwrite data 5 (toBE 4 fingerprint.toNat)
  let data := overwrite data 9 (toBE 4 key.index.toNat)
  let data := overwrite data 13 key.chainCode
  if publicKey then overwrite data 45 key.publicKey
  else overwrite (overwrite data 45 [0]) 46 key.privateKey

def serialize (key : HDKey) (fingerprint version : UInt32) (publicKey : Bool) : HDKey :=
  let outKey := overwrite (List.replicate 112 0) 0
    (p.base58EncodeCheck (serializeData key fingerprint version publicKey))
  if publicKey then { key with extPublicKey := outKey } else { key with extPrivateKey := outKey }

/-- One pass through the loop of `fromSeed`. -/
def fromSeedBody (I : Bytes) : Pass Bytes Bytes :=
  let a := ofBE (I.take 32)
  if a ≠ 0 ∧ a < p.order then .leave I else .again (p.hmacSha512 bip32Name I)

def fromSeed (seed : Bytes) : Option HDKey :=
  match outOf (fromSeedBody p) p.attempts (p.hmacSha512 bip32Name seed) with
  | none => none
  | some I => some { newKey with privateKey := I.take 32, chainCode := I.drop 32 }

/-! ## The makers -/

/-- `makeBip39Seed` of a C string. -/
def makeBip39Seed (mnemonic : Bytes) : Bytes := p.wordsToSeed (cString mnemonic)

/-- `bip32` of the networks. -/
def mainNet : UInt32 × UInt32 := (0x0488b21e, 0x0488ade4)

def testNet : UInt32 × UInt32 := (0x043587cf, 0x04358394)

/-- `makeBip32RootKey` of a seed. -/
def bip32RootKeyOf (net : UInt32 × UInt32) (seed : Bytes) : Option HDKey :=
  (fromSeed p seed).map fun key =>
    let out := assign newKey (copy key)
    let out := { out with bip32 := net }
    let out := serialize p out 0 out.bip32.2 false
    let out := out.fillPublicKey p
    copy (serialize p out 0 out.bip32.1 true)

def makeBip32RootKey (net : UInt32 × UInt32) (mnemonic : Bytes) : Option HDKey :=
  bip32RootKeyOf p net (makeBip39Seed p mnemonic)

/-- What follows a call that may throw. -/
def afterwards (f : HDKey → HDKey) (out : HDKey × Option StdError) : HDKey × Option StdError :=
  match out.2 with
  | some e => (out.1, some e)
  | none => (f out.1, none)

/-- What `makeExtendedKey` does to the key that it has derived. -/
def extend (key : HDKey) : HDKey :=
  let key := serialize p key key.fingerprint key.bip32.2 false
  let key := key.fillPublicKey p
  let key := serialize p key key.fingerprint key.bip32.1 true
  key.fillPublicKey p

def makeExtendedKey (rootKey : HDKey) (path : Bytes) : Option (HDKey × Option StdError) :=
  (derivePath p rootKey path true).map (afterwards (extend p))

/-- `makeEthRootKey` of a seed. -/
def ethRootKeyOf (seed : Bytes) : Option HDKey :=
  (fromSeed p seed).map fun key => copy (assign newKey (copy key))

def makeEthRootKey (mnemonic : Bytes) : Option HDKey := ethRootKeyOf p (makeBip39Seed p mnemonic)

/-- What `makeEthExtendedKey` does to it. -/
def extendEth (key : HDKey) : HDKey := (key.fillPublicKey p).fillPublicKey64 p

def makeEthExtendedKey (rootKey : HDKey) (path : Bytes) : Option (HDKey × Option StdError) :=
  (derivePath p rootKey path true).map (afterwards (extendEth p))

end

end HDKeyEncoder
end Wallet
end PtpCore
