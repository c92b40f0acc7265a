import PtpCore.Crypto.AesSimple
import PtpCore.Global.Helpers
import PtpCore.Net.AccountManager
import PtpCore.Net.BuffersStorage

/-!
# The entropy of an account on disk (`ptp_net/Config.cpp`, `ptp_net/AccountManager.cpp`)

`Config` keeps one file, as a length and that many bytes, and a second one while it writes the
first. The account manager keeps the entropy in it, encrypted with a key that is made from the id of
the account, and one more file for each address that an account has had. Opening, renaming, writing
and removing files is taken to work; that a buffer of the length that a file names can be allocated
too.
-/

namespace PtpCore
namespace Net

open Lib Crypto
open PtpCore.Global

/-- Contents by path. -/
abbrev FileSystem := Assoc Bytes Bytes

/-- A `uint32_t` as it is in memory. -/
def uint32Bytes (n : Nat) : Bytes := (toBE 4 n).reverse

/-! ## `Config` -/

namespace Config

def backupPath (configPath : Bytes) : Bytes := configPath ++ ".bak".toUTF8.toList

/-- The constructor: a backup that is still there takes the place of the file. -/
def new (configPath : Bytes) (fs : FileSystem) : FileSystem :=
  match fs.find (backupPath configPath) with
  | none => fs
  | some backup => ((fs.erase configPath).erase (backupPath configPath)).set configPath backup

/-- `readConfig`, into a buffer whose memory holds `heap`. A length of `2 ^ 31` and more passes the
    test, and there are not that many bytes. -/
def readConfig (heap : Nat → UInt8) (configPath : Bytes) (fs : FileSystem) :
    Option NativeByteBuffer :=
  match fs.find configPath with
  | none => none
  | some content =>
    let size := ofBE (content.take 4).reverse
    if 4 ≤ content.length ∧ 0 < size ∧ (UInt32.ofNat size).toInt32.toInt < content.length then
      if (content.drop 4).length < size then none
      else
        let buffer := NativeByteBuffer.free heap size
        some { buffer with buffer := overwrite buffer.buffer 0 ((content.drop 4).take size) }
    else none

/-- `writeConfig`. -/
def writeConfig (configPath : Bytes) (buffer : NativeByteBuffer) (fs : FileSystem) : FileSystem :=
  let content := uint32Bytes buffer.position ++ buffer.buffer.take buffer.position
  match fs.find configPath, fs.find (backupPath configPath) with
  | some old, none =>
    (((fs.erase configPath).set (backupPath configPath) old).set configPath content).erase
      (backupPath configPath)
  | some _, some _ => (fs.erase configPath).set configPath content
  | none, _ => fs.set configPath content

end Config

/-! ## The account manager -/

/-- What the files depend on. -/
structure StoreEnv where
  aes : Aes
  /-- `MD5_Final`. -/
  md5 : Bytes → Bytes
  length_md5 : ∀ b, (md5 b).length = 16
  /-- `g_configPath`. -/
  configPath : Bytes
  /-- Whether `ANDROID` is defined. -/
  android : Bool
  /-- The memory of a buffer. -/
  heap : Nat → UInt8

namespace StoreEnv

section

variable (e : StoreEnv)

/-- `CMd5::MD5_Calculate`. -/
def md5Calculate (content : Bytes) : Bytes := bytesToHexString (e.md5 content)

def getConfigPath : Bytes :=
  if e.configPath ≠ [] ∧ e.configPath.getLast? ≠ some 0x2f then e.configPath ++ [0x2f]
  else e.configPath

def getAccountAddressFile (address : Bytes) : Bytes :=
  e.getConfigPath ++ address ++ ".dat".toUTF8.toList

def getEntropyStorePathName (accountId : UInt32) : Bytes :=
  "account_".toUTF8.toList ++
    e.md5Calculate ("account_".toUTF8.toList ++ decimal accountId.toNat) ++ ".dat".toUTF8.toList

/-- `path`, in `setWords` and `upsertEntropy`. -/
def entropyPath (accountId : UInt32) : Bytes :=
  if e.android then e.getEntropyStorePathName accountId
  else e.getConfigPath ++ e.getEntropyStorePathName accountId

def getEncryptEntropyKey (accountId : UInt32) (address : Bytes) : Bytes :=
  e.md5Calculate (decimal accountId.toNat ++ address)

/-- The key, as it is always asked for. -/
def entropyKey (accountId : UInt32) : Bytes :=
  e.getEncryptEntropyKey accountId (decimal accountId.toNat)

/-- `decryptDataUseAecSimple`, and the string of that length that is made of what it leaves. The
    pointer is not read when the length is 0. -/
def decryptDataUseAecSimple (cipherData key : Bytes) : Bytes :=
  let r := (CAes.new key).decrypt e.aes cipherData
  if r.ret = 0 then r.outData.getD [] else []

/-- How `setWords` and `upsertEntropy` store an entropy. What is encrypted is never empty. -/
def save (accountId : UInt32) (entropy : Bytes) (fs : FileSystem) : FileSystem :=
  let path := e.entropyPath accountId
  let fs := Config.new path fs
  match (CAes.new (e.entropyKey accountId)).encrypt e.aes entropy with
  | .error _ => fs
  | .ok cipherData =>
    let buffer := NativeByteBuffer.free e.heap (NativeByteBuffer.stringCapacity cipherData)
    Config.writeConfig path (buffer.writeString (cString cipherData)) fs

/-- How `upsertEntropy` reads it. The constructor of `Config` moves a backup before that; every
    other one does so again, so the move is left to them. -/
def load (accountId : UInt32) (fs : FileSystem) : Option Bytes :=
  let path := e.entropyPath accountId
  (Config.readConfig e.heap path (Config.new path fs)).map fun buffer =>
    e.decryptDataUseAecSimple buffer.readString (e.entropyKey accountId)

/-- The file of an address, with `uint32_t size = 1` in it. -/
def writeAddressFile (address : Bytes) (fs : FileSystem) : FileSystem :=
  fs.set (e.getAccountAddressFile address) (uint32Bytes 1)

/-- The files of the account manager. -/
abbrev storage : Storage where
  Files := FileSystem
  save := e.save
  load := e.load
  writeAddressFile := e.writeAddressFile

end

end StoreEnv

end Net
end PtpCore
