import PtpCore.Net.EntropyStore
import PtpCore.Proof.Crypto.AesSimple
import PtpCore.Proof.Global.Helpers
import PtpCore.Proof.Net.Signing

/-!
# What an account finds on disk

The file that `save` writes is one that `load` reads, so an entropy outlives the process. Any other
file of that name is a different matter. Where it holds something that does not decrypt, or that
decrypts to nothing, `getAccountAddress` and `upsertEntropy` call each other without end: each waits
for the other to have found an entropy.
-/

namespace PtpCore
namespace Proof
namespace Net

open Lib PtpCore.Crypto PtpCore.Net PtpCore.Global PtpCore.Wallet
open PtpCore.Proof.Crypto PtpCore.Proof.Global
open PtpCore.Net.AccountManager

/-! ## Strings in buffers -/

/-- A string as it stands in a buffer. -/
def stringBlock (s : Bytes) : Bytes :=
  NativeByteBuffer.lengthBytes s.length ++ s ++
    List.replicate (NativeByteBuffer.addition s.length (if s.length ≤ 253 then 1 else 4)) 0

theorem length_stringBlock (s : Bytes) :
    (stringBlock s).length = NativeByteBuffer.stringCapacity s := by
  simp only [stringBlock, NativeByteBuffer.stringCapacity, List.length_append,
    List.length_replicate]

theorem le_length_free (heap : Nat → UInt8) (size : Nat) :
    size ≤ (NativeByteBuffer.free heap size).buffer.length := by
  rw [NativeByteBuffer.free, List.length_map, List.length_range, SizeClass.ofSize]
  split_ifs <;> simp only [Option.elim, SizeClass.byteCount] <;> omega

theorem put_eq {b : NativeByteBuffer} {d : Bytes} (h : b.position + d.length ≤ b.limit) :
    b.put d = some ⟨overwrite b.buffer b.position d, b.position + d.length, b.limit⟩ :=
  if_neg (Nat.not_lt.mpr h)

/-- A string fits into a buffer of the size that was calculated for it. -/
theorem writeString_free (heap : Nat → UInt8) (s : Bytes) :
    (NativeByteBuffer.free heap (NativeByteBuffer.stringCapacity s)).writeString s =
      { buffer := overwrite (NativeByteBuffer.free heap (NativeByteBuffer.stringCapacity s)).buffer
          0 (stringBlock s)
        position := NativeByteBuffer.stringCapacity s
        limit := NativeByteBuffer.stringCapacity s } := by
  have hroom := le_length_free heap (NativeByteBuffer.stringCapacity s)
  have hcap : NativeByteBuffer.stringCapacity s =
      (NativeByteBuffer.lengthBytes s.length).length + s.length +
        (List.replicate (NativeByteBuffer.addition s.length (if s.length ≤ 253 then 1 else 4))
          (0 : UInt8)).length := by
    rw [List.length_replicate]
    rfl
  generalize hm : (NativeByteBuffer.free heap (NativeByteBuffer.stringCapacity s)).buffer = m
    at hroom
  have hfree : NativeByteBuffer.free heap (NativeByteBuffer.stringCapacity s) =
      ⟨m, 0, NativeByteBuffer.stringCapacity s⟩ := by
    rw [← hm]
    rfl
  rw [NativeByteBuffer.writeString, hfree, put_eq (by dsimp only; omega)]
  dsimp only
  rw [put_eq (by dsimp only; omega)]
  dsimp only
  rw [put_eq (by dsimp only; omega)]
  -- the three writes are behind one another
  simp only [Nat.zero_add, Option.getD_some, NativeByteBuffer.mk.injEq]
  refine ⟨?_, hcap.symm, trivial⟩
  have h1 := overwrite_overwrite (m := m) (i := 0) (a := NativeByteBuffer.lengthBytes s.length)
    (b := s) (by omega)
  have h2 := overwrite_overwrite (m := m) (i := 0)
    (a := NativeByteBuffer.lengthBytes s.length ++ s)
    (b := List.replicate (NativeByteBuffer.addition s.length (if s.length ≤ 253 then 1 else 4)) 0)
    (by rw [List.length_append]; omega)
  rw [Nat.zero_add] at h1 h2
  rw [h1, ← List.length_append, h2]
  rfl

theorem readString_short {l : UInt8} {tail : Bytes} {limit : Nat} (hl : l.toNat ≤ 253)
    (hlimit : 1 ≤ limit) : NativeByteBuffer.readString ⟨l :: tail, 0, limit⟩ =
      if 1 + l.toNat + NativeByteBuffer.addition l.toNat 1 > limit then [] else tail.take l.toNat := by
  have hge : ¬ l.toNat ≥ 254 := by omega
  have hpos : ¬ 0 + 1 > limit := by omega
  simp only [NativeByteBuffer.readString, List.getD_cons_zero, hge, hpos, if_false, Nat.zero_add]
  rfl

theorem readString_long {a b c : UInt8} {tail : Bytes} {limit : Nat} (hlimit : 4 ≤ limit) :
    NativeByteBuffer.readString ⟨254 :: a :: b :: c :: tail, 0, limit⟩ =
      if 4 + ofBE [c, b, a] + NativeByteBuffer.addition (ofBE [c, b, a]) 4 > limit then []
      else tail.take (ofBE [c, b, a]) := by
  have hpos : ¬ 0 + 1 > limit := by omega
  have hpos' : ¬ 0 + 1 + 3 > limit := by omega
  have hge : (254 : UInt8).toNat ≥ 254 := Nat.le_refl _
  simp only [NativeByteBuffer.readString, List.getD_cons_zero, hge, hpos, hpos', if_false, if_true]
  rfl

/-- Reading stops where the string does, whatever is behind it. -/
theorem readString_stringBlock {s rest : Bytes} (hs : s.length < 2 ^ 24) :
    NativeByteBuffer.readString ⟨stringBlock s ++ rest, 0, NativeByteBuffer.stringCapacity s⟩ =
      s := by
  rw [stringBlock, NativeByteBuffer.stringCapacity, NativeByteBuffer.lengthBytes]
  by_cases hshort : s.length ≤ 253
  · have hl : (UInt8.ofNat s.length).toNat = s.length :=
      UInt8.toNat_ofNat_of_lt' (Nat.lt_of_le_of_lt hshort (by decide))
    rw [if_pos hshort, if_pos hshort, List.singleton_append, List.cons_append, List.cons_append,
      readString_short (by omega) (by rw [List.length_singleton]; omega), hl, if_neg (by simp),
      List.append_assoc, List.take_left]
  · have hbytes : ofBE [UInt8.ofNat (s.length / 2 ^ 16), UInt8.ofNat (s.length / 2 ^ 8),
        UInt8.ofNat s.length] = s.length := by
      have h := ofBE_toBE_of_lt (w := 3) (n := s.length) (by omega)
      simp only [toBE, List.nil_append, List.cons_append, Nat.div_div_eq_div_mul] at h
      exact h
    rw [if_neg hshort, if_neg hshort]
    simp only [List.cons_append, List.nil_append]
    rw [readString_long (by rw [Nat.add_assoc]; exact Nat.le_add_right 4 _), hbytes,
      if_neg (by simp), List.append_assoc, List.take_left]

/-! ## Files -/

section

variable {path : Bytes} {fs : FileSystem}

/-- The names that paths are made of. -/
theorem fileNames : ".bak".toUTF8.toList = [0x2e, 0x62, 0x61, 0x6b] ∧
    ".dat".toUTF8.toList = [0x2e, 0x64, 0x61, 0x74] ∧
    "account_".toUTF8.toList = [0x61, 0x63, 0x63, 0x6f, 0x75, 0x6e, 0x74, 0x5f] := by
  decide +kernel

theorem backupPath_ne (path : Bytes) : Config.backupPath path ≠ path := by
  intro h
  have hlen := congrArg List.length h
  rw [Config.backupPath, List.length_append] at hlen
  rw [fileNames.1, List.length_cons] at hlen
  omega

/-- What `Config` takes for the file. -/
def storedAt (path : Bytes) (fs : FileSystem) : Option Bytes :=
  match fs.find (Config.backupPath path) with
  | none => fs.find path
  | some backup => some backup

theorem find_new (path : Bytes) (fs : FileSystem) :
    (Config.new path fs).find path = storedAt path fs := by
  rw [Config.new, storedAt]
  cases fs.find (Config.backupPath path) with
  | none => rfl
  | some backup => simp

theorem find_new_backup (path : Bytes) (fs : FileSystem) :
    (Config.new path fs).find (Config.backupPath path) = none := by
  rw [Config.new]
  cases h : fs.find (Config.backupPath path) with
  | none => exact h
  | some backup => simp [Assoc.find_set_of_ne, backupPath_ne]

/-- What is found after writing, when no backup was there. -/
theorem storedAt_writeConfig (buffer : NativeByteBuffer)
    (h : fs.find (Config.backupPath path) = none) :
    storedAt path (Config.writeConfig path buffer fs) =
      some (uint32Bytes buffer.position ++ buffer.buffer.take buffer.position) := by
  have hne := backupPath_ne path
  rw [storedAt, Config.writeConfig, h]
  cases hold : fs.find path with
  | none =>
    simp only [Assoc.find_set_of_ne _ _ hne, h, Assoc.find_set_self]
  | some old =>
    simp only [Assoc.find_erase_self, Assoc.find_erase_of_ne _ hne.symm, Assoc.find_set_self]

theorem stringCapacity_bounds (s : Bytes) : 0 < NativeByteBuffer.stringCapacity s ∧
    NativeByteBuffer.stringCapacity s ≤ s.length + 7 := by
  have hadd : ∀ l sl, NativeByteBuffer.addition l sl ≤ 3 := by
    intro l sl
    rw [NativeByteBuffer.addition]
    split <;> omega
  have h := hadd s.length (if s.length ≤ 253 then 1 else 4)
  rw [NativeByteBuffer.stringCapacity, NativeByteBuffer.lengthBytes]
  split_ifs at h ⊢ <;> simp only [List.length_cons, List.length_nil] <;> omega

/-- A file that holds one string. -/
theorem readConfig_stringBlock (heap : Nat → UInt8) {s : Bytes} (hs : s.length < 2 ^ 24)
    (hfind : fs.find path =
      some (uint32Bytes (NativeByteBuffer.stringCapacity s) ++ stringBlock s)) :
    ∃ rest, Config.readConfig heap path fs =
      some ⟨stringBlock s ++ rest, 0, NativeByteBuffer.stringCapacity s⟩ := by
  obtain ⟨hpos, hsmall⟩ := stringCapacity_bounds s
  have hfour : (uint32Bytes (NativeByteBuffer.stringCapacity s)).length = 4 := by
    rw [uint32Bytes, List.length_reverse, length_toBE]
  have hsize : ofBE ((uint32Bytes (NativeByteBuffer.stringCapacity s) ++ stringBlock s).take
      4).reverse = NativeByteBuffer.stringCapacity s := by
    rw [List.take_left' hfour, uint32Bytes, List.reverse_reverse, ofBE_toBE_of_lt (by omega)]
  have hlen : (uint32Bytes (NativeByteBuffer.stringCapacity s) ++ stringBlock s).length =
      4 + NativeByteBuffer.stringCapacity s := by
    rw [List.length_append, hfour, length_stringBlock]
  have hbody : (uint32Bytes (NativeByteBuffer.stringCapacity s) ++ stringBlock s).drop 4 =
      stringBlock s := List.drop_left' hfour
  have hblock := length_stringBlock s
  rw [Config.readConfig, hfind]
  dsimp only
  rw [hsize, hlen, toInt_toInt32 (by omega), if_pos (show _ < 2 ^ 31 by omega), if_pos (by omega),
    hbody, if_neg (by omega),
    ← hblock, List.take_length, overwrite, List.take_zero, List.nil_append]
  exact ⟨_, rfl⟩

end

/-! ## What is saved is loaded -/

section

variable {e : StoreEnv} {accountId : UInt32} {fs : FileSystem}

/-- `load` sees nothing of the disk but what `Config` takes for the file. -/
theorem load_congr {fs' : FileSystem}
    (h : storedAt (e.entropyPath accountId) fs = storedAt (e.entropyPath accountId) fs') :
    e.load accountId fs = e.load accountId fs' := by
  have hread : Config.readConfig e.heap (e.entropyPath accountId)
      (Config.new (e.entropyPath accountId) fs) =
      Config.readConfig e.heap (e.entropyPath accountId)
        (Config.new (e.entropyPath accountId) fs') := by
    rw [Config.readConfig, Config.readConfig, find_new, find_new, h]
  rw [StoreEnv.load, StoreEnv.load, hread]

/-- **The entropy on disk.** -/
theorem load_save (e : StoreEnv) (accountId : UInt32) (fs : FileSystem) {entropy : Bytes}
    (hpos : 0 < entropy.length) (hle : entropy.length ≤ 2 ^ 20) :
    e.load accountId (e.save accountId entropy fs) = some entropy := by
  obtain ⟨text, henc, hc, hlen, hdec⟩ := decrypt_encrypt e.aes (CAes.new (e.entropyKey accountId))
    hpos (Nat.le_trans hle (by decide))
  obtain ⟨-, hblocks⟩ := blockCount_spec (n := entropy.length) (Nat.le_trans hle (by decide))
  have htext : text.length < 2 ^ 24 := by
    rw [hlen]
    omega
  have hroom := le_length_free e.heap (NativeByteBuffer.stringCapacity text)
  have hstored : storedAt (e.entropyPath accountId) (e.save accountId entropy fs) =
      some (uint32Bytes (NativeByteBuffer.stringCapacity text) ++ stringBlock text) := by
    rw [StoreEnv.save]
    dsimp only
    rw [henc]
    dsimp only
    rw [hc, writeString_free, storedAt_writeConfig _ (find_new_backup _ _)]
    dsimp only
    have htake := take_overwrite_add (d := stringBlock text) (i := 0)
      (m := (NativeByteBuffer.free e.heap (NativeByteBuffer.stringCapacity text)).buffer)
      (Nat.zero_le _)
    rw [Nat.zero_add, length_stringBlock, List.take_zero, List.nil_append] at htake
    rw [htake]
  rw [← find_new] at hstored
  obtain ⟨rest, hread⟩ := readConfig_stringBlock e.heap htext hstored
  rw [StoreEnv.load, hread, Option.map_some, readString_stringBlock htext,
    StoreEnv.decryptDataUseAecSimple, hdec]
  rfl

theorem slash_not_mem_bytesToHex (b : Bytes) : (0x2f : UInt8) ∉ Toolbox.bytesToHex b := by
  have hdigit : ∀ n : Fin 16, Toolbox.hexDigit n ≠ 0x2f := by decide
  intro hmem
  rw [Toolbox.bytesToHex, List.mem_append, List.mem_flatMap] at hmem
  rcases hmem with hmem | ⟨x, -, hmem⟩
  · exact absurd hmem (by decide)
  · have hx : x.toNat < 256 := x.toNat_lt
    rw [Toolbox.hexPair, List.mem_cons, List.mem_singleton] at hmem
    rcases hmem with hmem | hmem
    · exact hdigit ⟨x.toNat / 16, by omega⟩ hmem.symm
    · exact hdigit ⟨x.toNat % 16, by omega⟩ hmem.symm

theorem slash_not_mem_storePathName (e : StoreEnv) (accountId : UInt32) :
    (0x2f : UInt8) ∉ e.getEntropyStorePathName accountId := by
  obtain ⟨-, hdat, haccount⟩ := fileNames
  rw [StoreEnv.getEntropyStorePathName, hdat, haccount, List.mem_append, List.mem_append]
  rintro ((hmem | hmem) | hmem)
  · exact absurd hmem (by decide)
  · exact slash_not_mem_bytesToHex _ hmem
  · exact absurd hmem (by decide)

theorem slash_mem_getConfigPath {e : StoreEnv} (h : e.getConfigPath ≠ []) :
    (0x2f : UInt8) ∈ e.getConfigPath := by
  rw [StoreEnv.getConfigPath] at h ⊢
  by_cases hslash : e.configPath ≠ [] ∧ e.configPath.getLast? ≠ some 0x2f
  · rw [if_pos hslash]
    exact List.mem_append_right _ (List.mem_singleton.mpr rfl)
  · rw [if_neg hslash] at h ⊢
    by_cases hlast : e.configPath.getLast? = some 0x2f
    · exact List.mem_of_getLast? hlast
    · exact absurd ⟨h, hlast⟩ hslash

/-- The file of an address is none of the two that `Config` looks at: theirs begin with `account_`
    in the same directory, or have no directory. -/
theorem getAccountAddressFile_ne (e : StoreEnv) (accountId : UInt32) (b suffix : Bytes)
    (hsuffix : (0x2f : UInt8) ∉ suffix) :
    e.getAccountAddressFile (Toolbox.bytesToHex b) ≠ e.entropyPath accountId ++ suffix := by
  obtain ⟨-, hdat, haccount⟩ := fileNames
  have hhead : ∀ rest, Toolbox.bytesToHex b ++ ".dat".toUTF8.toList ≠
      e.getEntropyStorePathName accountId ++ rest := by
    intro rest h
    rw [StoreEnv.getEntropyStorePathName, haccount] at h
    exact absurd (List.cons.inj h).1 (by decide)
  intro h
  rw [StoreEnv.getAccountAddressFile, StoreEnv.entropyPath] at h
  cases hand : e.android with
  | false =>
    rw [hand, if_neg Bool.false_ne_true, List.append_assoc, List.append_assoc] at h
    exact hhead suffix (List.append_cancel_left h)
  | true =>
    rw [hand, if_pos rfl] at h
    by_cases hroot : e.getConfigPath = []
    · rw [hroot, List.nil_append] at h
      exact hhead suffix h
    · have hmem : (0x2f : UInt8) ∈ e.getEntropyStorePathName accountId ++ suffix := by
        rw [← h, List.append_assoc]
        exact List.mem_append_left _ (slash_mem_getConfigPath hroot)
      rcases List.mem_append.mp hmem with hmem | hmem
      · exact slash_not_mem_storePathName e accountId hmem
      · exact hsuffix hmem

theorem load_writeAddressFile (b : Bytes) :
    e.load accountId (e.writeAddressFile (Toolbox.bytesToHex b) fs) = e.load accountId fs := by
  have hpath := getAccountAddressFile_ne e accountId b [] (by decide)
  have hbackup := getAccountAddressFile_ne e accountId b ".bak".toUTF8.toList
    (by rw [fileNames.1]; decide)
  rw [List.append_nil] at hpath
  apply load_congr
  rw [storedAt, storedAt, StoreEnv.writeAddressFile, Assoc.find_set_of_ne _ _ hpath.symm,
    Assoc.find_set_of_ne _ _ (show Config.backupPath (e.entropyPath accountId) ≠ _ from
      hbackup.symm)]

end

/-! ## Loading -/

section

variable (k : HDKeyEncoder) (d : Storage) (u : Unspecified)

/-- An account manager that has just been made. -/
def newManager (accountId : UInt32) (files : d.Files) : AccountManager d.Files :=
  ⟨accountId, [], [], files⟩

section

variable {accountId : UInt32} {files : d.Files}

/-- What `getAccountAddress` does with a new manager. The entropy was empty when it was read. -/
theorem getAccountAddress_new (fuel : Nat) :
    getAccountAddress k d u (fuel + 1) (newManager d accountId files) =
      (upsertEntropy k d u fuel (newManager d accountId files)).bind fun s =>
        if s.address.isEmpty then
          some (getAddressByEntropy k u [], { s with address := getAddressByEntropy k u [] })
        else some (s.address, s) := by
  rw [getAccountAddress]
  rfl

/-- And `upsertEntropy`, where there is something on disk. -/
theorem upsertEntropy_load {entropy : Bytes} (h : d.load accountId files = some entropy)
    (fuel : Nat) :
    upsertEntropy k d u (fuel + 1) (newManager d accountId files) =
      (getAccountAddress k d u fuel ⟨accountId, entropy, [], files⟩).map fun r =>
        { r.2 with address := r.1 } := by
  have hload : d.load (newManager d accountId files).accountId
      (newManager d accountId files).files = some entropy := h
  have hempty : (newManager d accountId files).entropy.isEmpty = true := rfl
  rw [upsertEntropy, if_pos hempty, hload]
  dsimp only [newManager]
  cases getAccountAddress k d u fuel ⟨accountId, entropy, [], files⟩ with
  | none => rfl
  | some r => rfl

end

variable (accountId : UInt32) (files : d.Files)

/-- The two functions call each other with nothing changed in between. -/
theorem load_loops (h : d.load accountId files = some []) (fuel : Nat) :
    getAccountAddress k d u fuel (newManager d accountId files) = none ∧
      upsertEntropy k d u fuel (newManager d accountId files) = none := by
  induction fuel with
  | zero => exact ⟨rfl, rfl⟩
  | succ fuel ih =>
    obtain ⟨hget, hup⟩ := ih
    constructor
    · rw [getAccountAddress_new, hup]
      rfl
    · have hget' : getAccountAddress k d u fuel ⟨accountId, [], [], files⟩ = none := hget
      rw [upsertEntropy_load k d u h, hget']
      rfl

/-- An entropy that is found. -/
theorem upsertEntropy_found {entropy : Bytes} (h : d.load accountId files = some entropy)
    (hne : entropy ≠ []) (fuel : Nat) :
    upsertEntropy k d u (fuel + 2) (newManager d accountId files) =
      some ⟨accountId, entropy, getAddressByEntropy k u entropy, files⟩ := by
  have hget := getAccountAddress_of_entropy k d u fuel
    (s := ⟨accountId, entropy, [], files⟩) hne
  rw [upsertEntropy_load k d u h, hget]
  rfl

section

variable {accountId files}

/-- Where there is nothing on disk. -/
theorem upsertEntropy_generate (h : d.load accountId files = none) (fuel : Nat) :
    upsertEntropy k d u (fuel + 1) (newManager d accountId files) =
      let entropy := wordsToEntropyHex u (MnemonicHelper.generate u.random).raw
      (getAccountAddress k d u fuel ⟨accountId, entropy, [], d.save accountId entropy files⟩).map
        fun r => { r.2 with address := r.1, files := d.writeAddressFile r.1 r.2.files } := by
  have hload : d.load (newManager d accountId files).accountId
      (newManager d accountId files).files = none := h
  have hempty : (newManager d accountId files).entropy.isEmpty = true := rfl
  rw [upsertEntropy, if_pos hempty, hload]
  dsimp only [newManager]
  cases getAccountAddress k d u fuel
    ⟨accountId, wordsToEntropyHex u (MnemonicHelper.generate u.random).raw, [],
      d.save accountId (wordsToEntropyHex u (MnemonicHelper.generate u.random).raw) files⟩ with
  | none => rfl
  | some r => rfl

end

/-- A new one. -/
theorem upsertEntropy_new (h : d.load accountId files = none) (fuel : Nat) :
    upsertEntropy k d u (fuel + 2) (newManager d accountId files) =
      let entropy := wordsToEntropyHex u (MnemonicHelper.generate u.random).raw
      let address := getAddressByEntropy k u entropy
      some ⟨accountId, entropy, address,
        d.writeAddressFile address (d.save accountId entropy files)⟩ := by
  have hget := getAccountAddress_of_entropy k d u fuel
    (s := ⟨accountId, wordsToEntropyHex u (MnemonicHelper.generate u.random).raw, [],
      d.save accountId (wordsToEntropyHex u (MnemonicHelper.generate u.random).raw) files⟩)
    (wordsToEntropyHex_ne_nil u _)
  rw [upsertEntropy_generate k d u h]
  dsimp only
  rw [hget]
  rfl

section

variable {accountId files}

/-- A stack of one call is not enough. -/
theorem upsertEntropy_one :
    upsertEntropy k d u 1 (newManager d accountId files) = none := by
  cases hload : d.load accountId files with
  | none => rw [upsertEntropy_generate k d u hload]; rfl
  | some entropy => rw [upsertEntropy_load k d u hload]; rfl

/-- Once `upsertEntropy` has returned, the address is there too. -/
theorem getAccountAddress_of_upsert {fuel : Nat} {s : AccountManager d.Files}
    (h : upsertEntropy k d u fuel (newManager d accountId files) = some s) :
    ∃ r, getAccountAddress k d u (fuel + 1) (newManager d accountId files) = some r := by
  rw [getAccountAddress_new, h, Option.bind_some]
  split
  · exact ⟨_, rfl⟩
  · exact ⟨_, rfl⟩

end

end

section

variable (k : HDKeyEncoder) (e : StoreEnv) (u : Unspecified) (accountId : UInt32)
  (files : FileSystem)

/-- Something is on disk for the account. -/
def HasFile : Prop := storedAt (e.entropyPath accountId) files ≠ none

/-- It decrypts to an entropy. -/
def Decrypts : Prop := ∃ entropy, e.load accountId files = some entropy ∧ entropy ≠ []

/-- Neither function goes on for ever, and where there is a file that does not decrypt, neither of
    them comes up with an entropy or an address. -/
structure LoadsOrFails : Prop where
  upsertEntropy : ∃ fuel s,
    upsertEntropy k e.storage u fuel (newManager e.storage accountId files) = some s
  getAccountAddress : ∃ fuel r,
    getAccountAddress k e.storage u fuel (newManager e.storage accountId files) = some r
  fails : HasFile e accountId files → ¬ Decrypts e accountId files →
    (∀ fuel s,
      AccountManager.upsertEntropy k e.storage u fuel (newManager e.storage accountId files) =
        some s → s.entropy = [] ∧ s.address = []) ∧
    ∀ fuel r,
      AccountManager.getAccountAddress k e.storage u fuel
        (newManager e.storage accountId files) = some r → r.1 = []

theorem load_of_noFile (h : ¬ HasFile e accountId files) : e.load accountId files = none := by
  have hstored : storedAt (e.entropyPath accountId) files = none := not_not.mp h
  rw [StoreEnv.load, Config.readConfig, find_new, hstored]
  rfl

theorem loadsOrFails_iff :
    LoadsOrFails k e u accountId files ↔
      ¬ HasFile e accountId files ∨ Decrypts e accountId files := by
  constructor
  · intro h
    by_contra hnot
    rw [not_or, not_not] at hnot
    obtain ⟨hfile, hdec⟩ := hnot
    cases hload : e.load accountId files with
    | none =>
      -- the file is too short for its length: it counts as absent, and is written over
      have hnew := upsertEntropy_new k e.storage u accountId files hload 0
      exact wordsToEntropyHex_ne_nil u _ ((h.fails hfile hdec).1 _ _ hnew).1
    | some entropy =>
      by_cases hnil : entropy = []
      · obtain ⟨fuel, s, hs⟩ := h.upsertEntropy
        rw [hnil] at hload
        rw [(load_loops k e.storage u accountId files hload fuel).2] at hs
        cases hs
      · exact hdec ⟨entropy, hload, hnil⟩
  · intro h
    have hup : ∃ s, upsertEntropy k e.storage u 2 (newManager e.storage accountId files) =
        some s := by
      rcases h with hfile | ⟨entropy, hload, hne⟩
      · exact ⟨_, upsertEntropy_new k e.storage u accountId files
          (load_of_noFile e accountId files hfile) 0⟩
      · exact ⟨_, upsertEntropy_found k e.storage u accountId files hload hne 0⟩
    obtain ⟨s, hs⟩ := hup
    refine ⟨⟨2, s, hs⟩, ⟨3, getAccountAddress_of_upsert k e.storage u hs⟩, ?_⟩
    intro hfile hdec
    exact absurd h (not_or.mpr ⟨not_not.mpr hfile, hdec⟩)

end

/-! ### A file that holds one character -/

/-- What AES with 256 bits does to the blocks of the entropy of `testPhrase`, under the key of
    account 1. -/
def sampleBlocks : Equiv.Perm Bytes :=
  ((Equiv.swap (toBE 16 0x30783962373632613332393139303336)
      (toBE 16 0x6bfbaaa8aacf82227c521cd3de3f2c88)).trans
    (Equiv.swap (toBE 16 0x31356262633630653466393863613733)
      (toBE 16 0x15ea59b665c7dd9ba82a563aba893fec))).trans
    (Equiv.swap (toBE 16 0x39300000000000000000000000000022)
      (toBE 16 0x7291601ffea3e662504f379cbbb5e499))

theorem length_sampleBlocks (x : Bytes) : (sampleBlocks x).length = x.length := by
  rw [sampleBlocks, Equiv.trans_apply, Equiv.trans_apply, length_swap (by simp),
    length_swap (by simp), length_swap (by simp)]

def sampleKey : Bytes := "0x6512bd43d9caa6e02c990b0a82652d".toUTF8.toList

def sampleAes : Aes where
  encrypt := fun key block => if key = sampleKey then sampleBlocks block else block
  decrypt := fun key block => if key = sampleKey then sampleBlocks.symm block else block
  length_encrypt := by
    intro key block h
    split
    · rw [length_sampleBlocks, h]
    · exact h
  length_decrypt := by
    intro key block h
    split
    · rw [← length_sampleBlocks, Equiv.apply_symm_apply, h]
    · exact h
  decrypt_encrypt := by
    intro key block _
    split
    · exact Equiv.symm_apply_apply _ _
    · rfl

/-- The two hashes that account 1 is about. -/
def sampleMd5 (content : Bytes) : Bytes :=
  if content = "account_1".toUTF8.toList then toBE 16 0x7393561fff56c82bc2b110721e060475
  else if content = "11".toUTF8.toList then toBE 16 0x6512bd43d9caa6e02c990b0a82652dca
  else List.replicate 16 0

def sampleStore : StoreEnv where
  aes := sampleAes
  md5 := sampleMd5
  length_md5 := by
    intro b
    rw [sampleMd5]
    split_ifs
    · exact length_toBE 16 _
    · exact length_toBE 16 _
    · exact List.length_replicate
  configPath := "/home/ptp".toUTF8.toList
  android := false
  heap := fun _ => 0

/-- The string `!`, where a text in base64 should be. -/
def spoiltFiles : FileSystem :=
  [("/home/ptp/account_0x7393561fff56c82bc2b110721e060475.dat".toUTF8.toList,
    [4, 0, 0, 0, 1, 0x21, 0, 0])]

theorem spoiltFiles_spec : storedAt (sampleStore.entropyPath 1) spoiltFiles ≠ none ∧
    sampleStore.load 1 spoiltFiles = some [] := by
  decide +kernel

theorem not_loadsOrFails_spoiltFiles :
    ¬ LoadsOrFails (hdKeyEncoder sampleHD) sampleStore zeroMemory 1 spoiltFiles := by
  obtain ⟨-, hload⟩ := spoiltFiles_spec
  intro h
  obtain ⟨fuel, s, hs⟩ := h.upsertEntropy
  rw [(load_loops (hdKeyEncoder sampleHD) sampleStore.storage zeroMemory 1 spoiltFiles hload
    fuel).2] at hs
  cases hs

/-! ## Any calls, in any order -/

section

variable {p : HDPrimitives} {e : StoreEnv} {accountId : UInt32} {s s' : AccountManager FileSystem}

/-- Nothing is in memory; or an entropy is, the disk has it too, and an address is one. -/
def OnDisk (e : StoreEnv) (s : AccountManager FileSystem) : Prop :=
  s = newManager e.storage s.accountId s.files ∨
    s.entropy ≠ [] ∧ e.load s.accountId s.files = some s.entropy ∧
      (s.address = [] ∨ ∃ b, s.address = Toolbox.bytesToHex b)

theorem getAddressByEntropy_hex (p : HDPrimitives) (u : Unspecified) (entropy : Bytes) :
    ∃ b, getAddressByEntropy (hdKeyEncoder p) u entropy = Toolbox.bytesToHex b :=
  ⟨_, getAddressByEntropy_eq u entropy⟩

/-- An account as `setWords` and the first `upsertEntropy` leave it. -/
theorem onDisk_saved (u : Unspecified) (words b : Bytes) (fs : FileSystem) :
    OnDisk e ⟨accountId, wordsToEntropyHex u words, Toolbox.bytesToHex b,
      e.writeAddressFile (Toolbox.bytesToHex b)
        (e.save accountId (wordsToEntropyHex u words) fs)⟩ := by
  obtain ⟨x, hx, htext⟩ := isEntropy_wordsToEntropyHex u words
  have hlen : (wordsToEntropyHex u words).length = 34 := by
    rw [htext, length_bytesToHex, hx]
  refine .inr ⟨wordsToEntropyHex_ne_nil u words, ?_, .inr ⟨b, rfl⟩⟩
  rw [load_writeAddressFile, load_save e accountId fs (by omega) (by omega)]

/-- The first load of a manager. -/
theorem onDisk_upsert_new {u : Unspecified} {fuel : Nat} {fs : FileSystem}
    (hs : upsertEntropy (hdKeyEncoder p) e.storage u fuel (newManager e.storage accountId fs) =
      some s') : OnDisk e s' ∧ s'.accountId = accountId ∧ s'.entropy ≠ [] := by
  obtain _ | _ | fuel := fuel
  · cases hs
  · rw [Nat.zero_add, upsertEntropy_one] at hs
    cases hs
  cases hload : e.load accountId fs with
  | none =>
    rw [upsertEntropy_new _ e.storage u accountId fs hload] at hs
    cases hs
    obtain ⟨b, hb⟩ := getAddressByEntropy_hex p u
      (wordsToEntropyHex u (MnemonicHelper.generate u.random).raw)
    rw [hb]
    exact ⟨onDisk_saved u _ b fs, rfl, wordsToEntropyHex_ne_nil u _⟩
  | some entropy =>
    by_cases hnil : entropy = []
    · rw [hnil] at hload
      rw [(load_loops _ e.storage u accountId fs hload _).2] at hs
      cases hs
    · rw [upsertEntropy_found _ e.storage u accountId fs hload hnil] at hs
      cases hs
      exact ⟨.inr ⟨hnil, hload, .inr (getAddressByEntropy_hex p u entropy)⟩, rfl, hnil⟩

theorem OnDisk.upsertEntropy (h : OnDisk e s) {u : Unspecified} {fuel : Nat}
    (hs : upsertEntropy (hdKeyEncoder p) e.storage u fuel s = some s') :
    OnDisk e s' ∧ s'.accountId = s.accountId ∧ s'.entropy ≠ [] := by
  rcases h with h | ⟨hne, hload, haddr⟩
  · rw [h] at hs
    exact onDisk_upsert_new hs
  · cases fuel with
    | zero => cases hs
    | succ fuel =>
      rw [upsertEntropy_of_entropy _ e.storage u fuel hne] at hs
      cases hs
      exact ⟨.inr ⟨hne, hload, haddr⟩, rfl, hne⟩

theorem OnDisk.getAccountAddress (h : OnDisk e s) {u : Unspecified} {fuel : Nat} {address : Bytes}
    (hs : getAccountAddress (hdKeyEncoder p) e.storage u fuel s = some (address, s')) :
    OnDisk e s' ∧ s'.accountId = s.accountId := by
  cases fuel with
  | zero => cases hs
  | succ fuel =>
    rcases h with h | ⟨hne, hload, haddr⟩
    · rw [h, getAccountAddress_new] at hs
      obtain ⟨t, hup, ht⟩ := Option.bind_eq_some_iff.mp hs
      obtain ⟨htdisk, htid, htne⟩ := onDisk_upsert_new hup
      split at ht
      · cases ht
        rcases htdisk with hnew | ⟨-, htload, -⟩
        · exact absurd (congrArg AccountManager.entropy hnew) htne
        · exact ⟨.inr ⟨htne, htload, .inr (getAddressByEntropy_hex p u [])⟩, htid⟩
      · cases ht
        exact ⟨htdisk, htid⟩
    · rw [getAccountAddress_of_entropy _ e.storage u fuel hne] at hs
      cases hs
      refine ⟨.inr ⟨hne, hload, .inr ?_⟩, rfl⟩
      dsimp only
      split
      · exact getAddressByEntropy_hex p u s.entropy
      · rename_i hsome
        rcases haddr with hnil | hhex
        · rw [hnil] at hsome
          exact absurd rfl hsome
        · exact hhex

theorem OnDisk.setWords (h : OnDisk e s) {u : Unspecified} {fuel : Nat} {words : Bytes} {ok : Bool}
    (hs : setWords (hdKeyEncoder p) e.storage u fuel s words = some (ok, s')) :
    OnDisk e s' ∧ s'.accountId = s.accountId := by
  cases fuel with
  | zero => cases hs
  | succ fuel =>
    have haddr : ∃ b, (if s.address.isEmpty then getAddressByWords (hdKeyEncoder p) u words
        else s.address) = Toolbox.bytesToHex b := by
      split
      · exact getAddressByEntropy_hex p u _
      · rename_i hsome
        rcases h with hnew | ⟨-, -, hnil | hhex⟩
        · rw [hnew] at hsome
          exact absurd rfl hsome
        · rw [hnil] at hsome
          exact absurd rfl hsome
        · exact hhex
    obtain ⟨b, hb⟩ := haddr
    rw [setWords_eq _ e.storage u fuel s words] at hs
    dsimp only at hs
    rw [hb] at hs
    cases hs
    exact ⟨onDisk_saved u words b s.files, rfl⟩

/-- **One call.** -/
theorem OnDisk.walletStep (h : OnDisk e s) {fuel : Nat} {call : Unspecified × WalletCall}
    (hs : walletStep (hdKeyEncoder p) e.storage fuel (some s) call = some s') :
    OnDisk e s' ∧ s'.accountId = s.accountId := by
  obtain ⟨u, call⟩ := call
  cases call with
  | setWords words =>
    obtain ⟨⟨ok, t⟩, hset, rfl⟩ := Option.map_eq_some_iff.mp hs
    exact h.setWords hset
  | getWords =>
    obtain ⟨⟨words, t⟩, hget, rfl⟩ := Option.map_eq_some_iff.mp hs
    obtain ⟨t', hup, ht'⟩ := Option.bind_eq_some_iff.mp hget
    cases ht'
    obtain ⟨hdisk, hid, -⟩ := h.upsertEntropy hup
    exact ⟨hdisk, hid⟩
  | getAccountAddress =>
    obtain ⟨⟨address, t⟩, hget, rfl⟩ := Option.map_eq_some_iff.mp hs
    exact h.getAccountAddress hget
  | upsertEntropy =>
    obtain ⟨hdisk, hid, -⟩ := h.upsertEntropy hs
    exact ⟨hdisk, hid⟩
  | signMessage message =>
    cases hs
    exact ⟨h, rfl⟩

/-- **A run.** -/
theorem onDisk_run (fuel : Nat) (es : List (Unspecified × WalletCall)) (h : OnDisk e s)
    (hs : es.foldl (walletStep (hdKeyEncoder p) e.storage fuel) (some s) = some s') :
    OnDisk e s' ∧ s'.accountId = s.accountId := by
  induction es using List.reverseRecOn generalizing s' with
  | nil =>
    cases hs
    exact ⟨h, rfl⟩
  | append_singleton es call ih =>
    rw [List.foldl_append, List.foldl_cons, List.foldl_nil] at hs
    cases ht : es.foldl (Net.walletStep (hdKeyEncoder p) e.storage fuel) (some s) with
    | none =>
      rw [ht] at hs
      cases hs
    | some t =>
      rw [ht] at hs
      obtain ⟨hdisk, hid⟩ := ih ht
      obtain ⟨hdisk', hid'⟩ := hdisk.walletStep hs
      exact ⟨hdisk', hid'.trans hid⟩

end

section

variable (p : HDPrimitives) (e : StoreEnv)

/-- A new manager for the account gets the entropy that this one has in memory. -/
def Persists (s : AccountManager FileSystem) : Prop :=
  ∀ v fuel, ∃ t, upsertEntropy (hdKeyEncoder p) e.storage v (fuel + 2)
    (newManager e.storage s.accountId s.files) = some t ∧ t.entropy = s.entropy

theorem OnDisk.persists {s : AccountManager FileSystem} (h : OnDisk e s) (hne : s.entropy ≠ []) :
    Persists p e s := by
  intro v fuel
  rcases h with hnew | ⟨-, hload, -⟩
  · exact absurd (congrArg AccountManager.entropy hnew) hne
  · exact ⟨_, upsertEntropy_found _ e.storage v s.accountId s.files hload hne fuel, rfl⟩

/-- In whatever state an account is when it stores an entropy. -/
theorem entropy_persists (fuel fuel' : Nat) (accountId : UInt32) (files : FileSystem)
    (es : List (Unspecified × WalletCall)) (s : AccountManager FileSystem)
    (hs : es.foldl (walletStep (hdKeyEncoder p) e.storage fuel)
      (some (newManager e.storage accountId files)) = some s) :
    s.accountId = accountId ∧
      (∀ u words, ∃ s', setWords (hdKeyEncoder p) e.storage u (fuel' + 1) s words =
          some (true, s') ∧ s'.accountId = accountId ∧ s'.entropy = wordsToEntropyHex u words ∧
          Persists p e s') ∧
      ∀ u, s.entropy = [] → e.load accountId s.files = none →
        ∃ s', upsertEntropy (hdKeyEncoder p) e.storage u (fuel' + 2) s = some s' ∧
          s'.accountId = accountId ∧
          s'.entropy = wordsToEntropyHex u (MnemonicHelper.generate u.random).raw ∧
          Persists p e s' := by
  obtain ⟨hdisk, hid⟩ := onDisk_run fuel es (.inl rfl) hs
  change s.accountId = accountId at hid
  refine ⟨hid, ?_, ?_⟩
  · intro u words
    have hset := setWords_eq (hdKeyEncoder p) e.storage u fuel' s words
    obtain ⟨hdisk', hid'⟩ := hdisk.setWords hset
    exact ⟨_, hset, hid'.trans hid, rfl, hdisk'.persists p e (wordsToEntropyHex_ne_nil u words)⟩
  · intro u hnil hload
    rcases hdisk with hnew | ⟨hne, -, -⟩
    · rw [← hid] at hload
      have hup := upsertEntropy_new (hdKeyEncoder p) e.storage u s.accountId s.files hload fuel'
      rw [← hnew] at hup
      obtain ⟨hdisk', hid', hne'⟩ := OnDisk.upsertEntropy (.inl hnew) hup
      exact ⟨_, hup, hid'.trans hid, rfl, hdisk'.persists p e hne'⟩
    · exact absurd hnil hne

/-- An account that stores the phrase of the wallet test. -/
theorem entropy_persists_testPhrase :
    ∃ s', setWords (hdKeyEncoder sampleHD) sampleStore.storage zeroMemory 1
        (newManager sampleStore.storage 1 []) testPhrase = some (true, s') ∧
      s'.accountId = 1 ∧ s'.entropy = wordsToEntropyHex zeroMemory testPhrase ∧
      Persists sampleHD sampleStore s' :=
  (entropy_persists sampleHD sampleStore 3 0 1 [] [] (newManager sampleStore.storage 1 []) rfl).2.1
    zeroMemory testPhrase

/-- After new words, the address of the account and the file that was written are those of the
    entropy that was stored. -/
def Replaced (d : Storage) (u v : Unspecified) (fuel fuel' : Nat) (s : AccountManager d.Files)
    (words : Bytes) : Prop :=
  ∃ s' s'', setWords (hdKeyEncoder p) d u (fuel + 1) s words = some (true, s') ∧
    s'.files = d.writeAddressFile (getAddressByEntropy (hdKeyEncoder p) v s'.entropy)
      (d.save s.accountId s'.entropy s.files) ∧
    getAccountAddress (hdKeyEncoder p) d v (fuel' + 1) s' =
      some (getAddressByEntropy (hdKeyEncoder p) v s'.entropy, s'')

theorem replaced_iff (d : Storage) (u v : Unspecified) (fuel fuel' : Nat)
    (s : AccountManager d.Files) (words : Bytes) :
    Replaced p d u v fuel fuel' s words ↔
      s.address = [] ∨ s.address = getAddressByWords (hdKeyEncoder p) u words := by
  have hset := setWords_eq (hdKeyEncoder p) d u fuel s words
  have hsame : getAddressByEntropy (hdKeyEncoder p) v (wordsToEntropyHex u words) =
      getAddressByWords (hdKeyEncoder p) u words :=
    (isEntropy_wordsToEntropyHex u words).getAddressByEntropy v u
  have hfull : (if s.address.isEmpty then getAddressByWords (hdKeyEncoder p) u words
      else s.address).isEmpty = false := by
    split
    · exact List.isEmpty_eq_false_iff.mpr (getAddressByEntropy_ne_nil u _)
    · rename_i h
      exact Bool.eq_false_iff.mpr h
  constructor
  · rintro ⟨s', s'', hset', -, hget⟩
    rw [hset] at hset'
    cases hset'
    rw [getAccountAddress_of_entropy _ d v fuel' (wordsToEntropyHex_ne_nil u words)] at hget
    dsimp only at hget
    rw [hfull, if_neg Bool.false_ne_true, hsame] at hget
    have haddr := (Prod.mk.inj (Option.some.inj hget)).1
    split at haddr
    · rename_i h
      exact .inl (List.isEmpty_iff.mp h)
    · exact .inr haddr
  · intro h
    have haddr : (if s.address.isEmpty then getAddressByWords (hdKeyEncoder p) u words
        else s.address) = getAddressByWords (hdKeyEncoder p) u words := by
      rcases h with hnil | hown
      · rw [hnil]
        rfl
      · rw [hown, ite_self]
    have hne : ¬ (getAddressByWords (hdKeyEncoder p) u words).isEmpty = true := by
      rw [← haddr, hfull]
      exact Bool.false_ne_true
    dsimp only at hset
    rw [haddr] at hset
    obtain ⟨s', hs'⟩ : ∃ s' : AccountManager d.Files,
        s' = ⟨s.accountId, wordsToEntropyHex u words, getAddressByWords (hdKeyEncoder p) u words,
          d.writeAddressFile (getAddressByWords (hdKeyEncoder p) u words)
            (d.save s.accountId (wordsToEntropyHex u words) s.files)⟩ := ⟨_, rfl⟩
    have hent : s'.entropy = wordsToEntropyHex u words := by rw [hs']
    have hadd : s'.address = getAddressByWords (hdKeyEncoder p) u words := by rw [hs']
    rw [← hs'] at hset
    refine ⟨s', s', hset, ?_, ?_⟩
    · rw [hent, hsame, hs']
    · rw [getAccountAddress_of_entropy _ d v fuel' (hent ▸ wordsToEntropyHex_ne_nil u words), hadd,
        if_neg hne, hent, hsame, hs']

end

/-- A second phrase. The address of the first one stays. -/
theorem not_replaced_testPhrase :
    validateWords testPhrase = true ∧
      ∃ s', [(zeroMemory, WalletCall.setWords zeroPhrase)].foldl
          (walletStep (hdKeyEncoder sampleHD) plainFiles 3) (some freshAccount) = some s' ∧
        ¬ Replaced sampleHD plainFiles zeroMemory zeroMemory 0 0 s' testPhrase := by
  obtain ⟨s', hset, -, haddr⟩ :=
    setWords_spec (hdKeyEncoder sampleHD) plainFiles zeroMemory 2 freshAccount zeroPhrase
  obtain ⟨hzero, htest⟩ := getAddressByWords_sample
  refine ⟨validateWords_testPhrase, s', walletStep_setWords hset, ?_⟩
  rintro ⟨t, t', hset', -, hget⟩
  obtain ⟨t₂, hset₂, hent₂, haddr₂⟩ :=
    setWords_spec (hdKeyEncoder sampleHD) plainFiles zeroMemory 0 s' testPhrase
  rw [hset₂] at hset'
  cases hset'
  have hstays : t.address = getAddressByWords (hdKeyEncoder sampleHD) zeroMemory zeroPhrase := by
    rw [haddr₂, haddr, hzero]
    rfl
  rw [getAccountAddress_of_entropy _ _ _ _ (hent₂ ▸ wordsToEntropyHex_ne_nil _ _), hstays, hent₂,
    ← getAddressByWords, hzero, htest] at hget
  exact absurd (Prod.mk.inj (Option.some.inj hget)).1 (by decide +kernel)

end Net
end Proof
end PtpCore
