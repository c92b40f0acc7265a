import PtpCore.Net.AccountManager
import PtpCore.Proof.Wallet.Bip39

/-!
# The phrase an account shows and the phrase it was given

The entropy of an account is text, written by `bytes_to_hex` with `0x` in front and read by
`hex_to_bytes`, for which these two characters are one more pair of digits, worth a zero byte
(`hexToBytes_bytesToHex`). Sixteen bytes are read from the seventeen, so every entropy comes back
one byte to the right, with a zero in front and its last byte lost (`shown`). A phrase of more
than twelve words does not reach the sixteen-byte buffer at all, and what is shown is made of
whatever the buffer held.

So the only phrase that an account shows as it was given is the one of the zero entropy, and the
same goes for the address of a phrase.
-/

namespace PtpCore
namespace Proof
namespace Net

open Lib
open PtpCore.Wallet PtpCore.Net
open PtpCore.Proof.Wallet

/-! ## Hexadecimal text -/

open Toolbox

theorem strtol16_hexPair (x : UInt8) : UInt8.ofInt (strtol16 (cString (hexPair x))) = x := by
  revert x
  refine forall_byte ?_
  decide +kernel

theorem hexToBytes_flatMap_hexPair (b : Bytes) : hexToBytes (b.flatMap hexPair) = b := by
  induction b with
  | nil => rfl
  | cons x b ih =>
    rw [List.flatMap_cons]
    change UInt8.ofInt (strtol16 (cString (hexPair x))) :: hexToBytes (b.flatMap hexPair) = x :: b
    rw [strtol16_hexPair, ih]

/-- The two conventions do not agree: the marker is read as a byte. -/
theorem hexToBytes_bytesToHex (b : Bytes) : hexToBytes (bytesToHex b) = 0 :: b := by
  change UInt8.ofInt (strtol16 (cString [0x30, 0x78])) :: hexToBytes (b.flatMap hexPair) = 0 :: b
  rw [hexToBytes_flatMap_hexPair]
  rfl

theorem cString_bytesToHex (b : Bytes) : cString (bytesToHex b) = bytesToHex b := by
  have hdigit : ∀ n, n < 16 → hexDigit n ≠ 0 := by decide
  apply cString_eq_self
  intro x hx
  rcases List.mem_append.mp hx with hx | hx
  · rcases List.mem_cons.mp hx with rfl | hx
    · decide
    · rw [List.mem_singleton.mp hx]
      decide
  · obtain ⟨y, -, hy⟩ := List.mem_flatMap.mp hx
    have hlt := y.toNat_lt
    rcases List.mem_cons.mp hy with rfl | hy
    · exact hdigit _ (by omega)
    · rw [List.mem_singleton.mp hy]
      exact hdigit _ (by omega)

/-! ## The entropy that is read back -/

/-- The sixteen bytes that are read from the text of a sixteen byte entropy. -/
def shown (e : Bytes) : Bytes := 0 :: e.take 15

theorem length_shown {e : Bytes} (he : e.length = 16) : (shown e).length = 16 := by
  rw [shown, List.length_cons, List.length_take, he]
  rfl

theorem raw_entropyToMnemonic {e : Bytes} (he : e.length = 16) :
    (MnemonicHelper.entropyToMnemonic enWords e).raw = phraseOf enWords e := by
  have hadm : lenToMask e.length ≠ 0 := by
    rw [he]
    decide
  rw [MnemonicHelper.entropyToMnemonic, he, bip39MnemonicFromBytes_eq hadm isBip39_enWords]
  rfl

theorem raw_entropyHexToMnemonic (pastEnd : Bytes) {e : Bytes} (he : e.length = 16) :
    (MnemonicHelper.entropyHexToMnemonic pastEnd (bytesToHex e)).raw =
      phraseOf enWords (shown e) := by
  have htake : ((0 :: e) ++ pastEnd).take bip39EntropyLen128 = shown e := by
    rw [List.cons_append, bip39EntropyLen128, List.take_succ_cons,
      List.take_append_of_le_length (by omega)]
    rfl
  rw [MnemonicHelper.entropyHexToMnemonic, cString_bytesToHex, hexToBytes_bytesToHex, htake,
    raw_entropyToMnemonic (length_shown he)]

/-- Only zeros stay where they are under the shift. -/
theorem eq_zeros_of_shown {e : Bytes} (he : e.length = 16) (h : shown e = e) :
    e = List.replicate 16 0 := by
  have hget : ∀ i, i < 16 → e[i]? = some 0 := by
    intro i hi
    induction i with
    | zero =>
      rw [← h]
      rfl
    | succ i ih =>
      rw [← h, shown, List.getElem?_cons_succ, List.getElem?_take, if_pos (by omega)]
      exact ih (by omega)
  apply List.ext_getElem?
  intro i
  rw [List.getElem?_replicate]
  split
  · exact hget i ‹_›
  · exact List.getElem?_eq_none (by omega)

/-! ## The phrases that are accepted -/

open AccountManager

/-- The entropy that is kept for a phrase: its own, or for a phrase of more than twelve words what
    the stack held. -/
theorem wordsToEntropyHex_eq (u : Unspecified) {words e : Bytes} (he : lenToMask e.length ≠ 0)
    (hw : cString words = phraseOf enWords e) :
    wordsToEntropyHex u words = bytesToHex (if e.length = 16 then e else u.entropyBytes) := by
  have hlen := u.length_entropyBytes
  have hle := (numbers_of_admitted he).1
  have hroom : MnemonicHelper.validateEntropy u.entropyBytes.length = true := by
    rw [hlen]
    rfl
  rw [wordsToEntropyHex, MnemonicHelper.mnemonicWordsToEntropy, MnemonicHelper.decodeMnemonic,
    if_pos hroom, hw, decode_encode isBip39_enWords he, hlen, bip39EntropyLen128]
  congr 1
  dsimp only
  by_cases h16 : e.length = 16
  · rw [if_pos h16, if_pos (by omega), overwrite, List.take_zero, List.nil_append, Nat.zero_add,
      List.drop_eq_nil_of_le (by rw [hlen, bip39EntropyLen128]; omega), List.append_nil]
  · rw [if_neg h16, if_neg (by omega)]

/-- The phrase of sixteen zero bytes. -/
def zeroPhrase : Bytes :=
  (MnemonicHelper.entropyToMnemonic enWords (List.replicate bip39EntropyLen128 0)).raw

theorem zeroPhrase_eq : zeroPhrase = phraseOf enWords (List.replicate 16 0) :=
  raw_entropyToMnemonic rfl

example : zeroPhrase = ("abandon abandon abandon abandon abandon abandon abandon abandon " ++
    "abandon abandon abandon about").toUTF8.toList := by decide +kernel

theorem validateWords_phraseOf {e : Bytes} (he : lenToMask e.length ≠ 0) :
    validateWords (phraseOf enWords e) = true := by
  rw [validateWords, MnemonicHelper.validateWords,
    cString_eq_self (phraseOf_ne_zero isBip39_enWords e), beq_iff_eq]
  exact (validate_iff isBip39_enWords (phraseOf_ne_zero isBip39_enWords e)).mpr ⟨e, he, rfl⟩

theorem validateWords_zeroPhrase : validateWords zeroPhrase = true := by
  rw [zeroPhrase_eq]
  exact validateWords_phraseOf (by decide)

/-- The phrase of `test_wallet.cpp`, and its entropy. -/
def testPhrase : Bytes :=
  "opinion rally million case address approve upper scrub exhibit shock ostrich calm".toUTF8.toList

def testEntropy : Bytes :=
  [0x9b, 0x76, 0x2a, 0x32, 0x91, 0x90, 0x36, 0x15, 0xbb, 0xc6, 0x0e, 0x4f, 0x98, 0xca, 0x73, 0x90]

theorem testPhrase_eq : testPhrase = phraseOf enWords testEntropy := by
  have hraw : (MnemonicHelper.entropyToMnemonic enWords testEntropy).raw = testPhrase := by
    decide +kernel
  rw [← hraw, raw_entropyToMnemonic rfl]

theorem validateWords_testPhrase : validateWords testPhrase = true := by
  rw [testPhrase_eq]
  exact validateWords_phraseOf (by decide)

theorem testPhrase_ne_zeroPhrase : testPhrase ≠ zeroPhrase := by
  rw [testPhrase_eq, zeroPhrase_eq]
  intro h
  have he : testEntropy = List.replicate 16 0 :=
    phraseOf_inj isBip39_enWords (by decide) (by decide) h
  exact absurd he (by decide)

/-- What is shown for an accepted phrase, and that it is that phrase for one phrase only. -/
theorem shown_of_validateWords (u : Unspecified) (pastEnd : Bytes) {words : Bytes}
    (h : validateWords words = true) :
    ∃ e : Bytes, e.length = 16 ∧ wordsToEntropyHex u words = bytesToHex e ∧
      (MnemonicHelper.entropyHexToMnemonic pastEnd (bytesToHex e)).raw =
        phraseOf enWords (shown e) ∧
      (phraseOf enWords (shown e) = cString words ↔ cString words = zeroPhrase) := by
  have hvalid : bip39MnemonicValidate enWords (cString words) = .ok := by
    rw [validateWords, MnemonicHelper.validateWords, beq_iff_eq] at h
    exact h
  obtain ⟨e, he, hw⟩ := (validate_iff isBip39_enWords fun x => ne_zero_of_mem_cString).mp hvalid
  have hkept : (if e.length = 16 then e else u.entropyBytes).length = 16 := by
    split
    · assumption
    · exact u.length_entropyBytes
  refine ⟨_, hkept, wordsToEntropyHex_eq u he hw, raw_entropyHexToMnemonic pastEnd hkept, ?_⟩
  have hadm : lenToMask 16 ≠ 0 := by decide
  rw [hw, zeroPhrase_eq]
  constructor
  · intro heq
    have hself := phraseOf_inj isBip39_enWords (by rw [length_shown hkept]; exact hadm) he heq
    -- a phrase of more than twelve words is not shown as one of twelve
    have h16 : e.length = 16 := by rw [← hself, length_shown hkept]
    rw [if_pos h16] at hself
    rw [eq_zeros_of_shown h16 hself]
  · intro heq
    have hzero : e = List.replicate 16 0 := phraseOf_inj isBip39_enWords he hadm heq
    rw [hzero]
    rfl

/-! ## A platform to try things on -/

/-- Key functions that tell any two phrases apart. -/
def plainKeys : HDKeyEncoder where
  HDKey := Bytes
  makeEthRootKey := id
  makeEthExtendedKey := fun key _ => key
  getEthAddress := id

theorem addressOf_plainKeys (words : Bytes) : plainKeys.addressOf words = cString words := rfl

/-- One entropy file that is kept in the clear, and the addresses marked so far. -/
def plainFiles : Storage where
  Files := Option Bytes × List Bytes
  save := fun _ entropy files => (some entropy, files.2)
  load := fun _ files => files.1
  writeAddressFile := fun address files => (files.1, address :: files.2)

/-- Memory that was zero before. -/
def zeroMemory : Unspecified where
  entropyBytes := List.replicate 16 0
  length_entropyBytes := rfl
  random := List.replicate 16 0
  length_random := rfl
  pastEnd := []

/-- An account without anything stored. -/
def freshAccount : AccountManager plainFiles.Files where
  accountId := 1
  entropy := []
  address := []
  files := (none, [])

/-! ## Setting the words of an account -/

section

variable (k : HDKeyEncoder) (d : Storage)

/-- With an entropy at hand the address is found without any file. -/
theorem getAccountAddress_of_entropy (u : Unspecified) (fuel : Nat) {s : AccountManager d.Files}
    (h : s.entropy ≠ []) :
    getAccountAddress k d u (fuel + 1) s =
      let address := if s.address.isEmpty then getAddressByEntropy k u s.entropy else s.address
      some (address, { s with address := address }) := by
  have hne : s.entropy.isEmpty = false := by simpa using h
  rw [getAccountAddress]
  cases haddr : s.address.isEmpty with
  | false => rfl
  | true =>
    dsimp only
    rw [hne, if_neg Bool.false_ne_true]
    change (if s.address.isEmpty = true then _ else _) = _
    rw [haddr]
    rfl

theorem upsertEntropy_of_entropy (u : Unspecified) (fuel : Nat) {s : AccountManager d.Files}
    (h : s.entropy ≠ []) : upsertEntropy k d u (fuel + 1) s = some s := by
  have hne : s.entropy.isEmpty = false := by simpa using h
  rw [upsertEntropy, if_neg (by rw [hne]; exact Bool.false_ne_true)]

theorem wordsToEntropyHex_ne_nil (u : Unspecified) (words : Bytes) :
    wordsToEntropyHex u words ≠ [] := by
  rw [wordsToEntropyHex, bytesToHex]
  exact List.cons_ne_nil _ _

/-- `setWords` succeeds on every phrase. An address that was there before stays, and gets the
    file. -/
theorem setWords_eq (u : Unspecified) (fuel : Nat) (s : AccountManager d.Files) (words : Bytes) :
    setWords k d u (fuel + 1) s words =
      let entropy := wordsToEntropyHex u words
      let address := if s.address.isEmpty then getAddressByWords k u words else s.address
      some (true, ⟨s.accountId, entropy, address,
        d.writeAddressFile address (d.save s.accountId entropy s.files)⟩) := by
  have hne : ({ s with
      files := d.save s.accountId (wordsToEntropyHex u words) s.files
      entropy := wordsToEntropyHex u words } : AccountManager d.Files).entropy ≠ [] :=
    wordsToEntropyHex_ne_nil u words
  have haddr := getAccountAddress_of_entropy k d u fuel hne
  rw [setWords]
  dsimp only
  rw [haddr]
  rfl

theorem setWords_spec (u : Unspecified) (fuel : Nat) (s : AccountManager d.Files) (words : Bytes) :
    ∃ s', setWords k d u (fuel + 1) s words = some (true, s') ∧
      s'.entropy = wordsToEntropyHex u words ∧
      s'.address = if s.address.isEmpty then getAddressByWords k u words else s.address :=
  ⟨_, setWords_eq k d u fuel s words, rfl, rfl⟩

/-- What an account answers after it was given an accepted phrase. -/
theorem getWords_after_setWords (u v : Unspecified) (fuel fuel' : Nat)
    (s : AccountManager d.Files) {words : Bytes} (h : validateWords words = true) :
    ∃ s' e, setWords k d u (fuel + 1) s words = some (true, s') ∧
      getWords k d v (fuel' + 1) s' = some (phraseOf enWords e, s') ∧
      (phraseOf enWords e = cString words ↔ cString words = zeroPhrase) := by
  obtain ⟨s', hset, hentropy, -⟩ := setWords_spec k d u fuel s words
  obtain ⟨e, -, hhex, hraw, hiff⟩ := shown_of_validateWords u v.pastEnd h
  have hne : s'.entropy ≠ [] := by
    rw [hentropy]
    exact wordsToEntropyHex_ne_nil u words
  refine ⟨s', shown e, hset, ?_, hiff⟩
  rw [getWords, upsertEntropy_of_entropy k d v fuel' hne]
  change some ((MnemonicHelper.entropyHexToMnemonic v.pastEnd s'.entropy).raw, s') = _
  rw [hentropy, hhex, hraw]

theorem cString_phraseOf (e : Bytes) : cString (phraseOf enWords e) = phraseOf enWords e :=
  cString_eq_self (phraseOf_ne_zero isBip39_enWords e)

theorem setWords_getWords (u v : Unspecified) (fuel fuel' : Nat) (s : AccountManager d.Files)
    (words : Bytes) (h : validateWords words = true) :
    ∃ s' r, setWords k d u (fuel + 1) s words = some (true, s') ∧
      getWords k d v (fuel' + 1) s' = some (r, s') ∧ (r = words ↔ words = zeroPhrase) := by
  obtain ⟨s', e, hset, hget, hiff⟩ := getWords_after_setWords k d u v fuel fuel' s h
  refine ⟨s', phraseOf enWords e, hset, hget, ?_⟩
  -- both phrases are C strings, so comparing them with what C sees of `words` is enough
  constructor
  · intro heq
    rw [← heq, cString_phraseOf] at hiff
    rw [← heq]
    exact hiff.mp rfl
  · intro heq
    rw [heq, zeroPhrase_eq, cString_phraseOf] at hiff
    rw [heq, zeroPhrase_eq]
    exact hiff.mpr rfl

end

theorem setWords_getWords_zeroPhrase :
    ∃ s', setWords plainKeys plainFiles zeroMemory 1 freshAccount zeroPhrase = some (true, s') ∧
      getWords plainKeys plainFiles zeroMemory 1 s' = some (zeroPhrase, s') := by
  obtain ⟨s', r, hset, hget, hiff⟩ := setWords_getWords plainKeys plainFiles zeroMemory zeroMemory
    0 0 freshAccount zeroPhrase validateWords_zeroPhrase
  have hr : r = zeroPhrase := hiff.mpr rfl
  rw [hr] at hget
  exact ⟨s', hset, hget⟩

theorem not_restored_testPhrase :
    validateWords testPhrase = true ∧
      ¬ ∃ s' s'', setWords plainKeys plainFiles zeroMemory 1 freshAccount testPhrase =
          some (true, s') ∧
        getWords plainKeys plainFiles zeroMemory 1 s' = some (testPhrase, s'') := by
  refine ⟨validateWords_testPhrase, ?_⟩
  rintro ⟨s', s'', hset, hget⟩
  obtain ⟨t, e, hset', hget', hiff⟩ := getWords_after_setWords plainKeys plainFiles zeroMemory
    zeroMemory 0 0 freshAccount validateWords_testPhrase
  have hst : s' = t := (Prod.mk.inj (Option.some.inj (hset.symm.trans hset'))).2
  rw [hst] at hget
  have hphrase := (Prod.mk.inj (Option.some.inj (hget.symm.trans hget'))).1
  have hself : cString testPhrase = testPhrase := by
    rw [testPhrase_eq, cString_phraseOf]
  rw [hself] at hiff
  exact testPhrase_ne_zeroPhrase (hiff.mp hphrase.symm)

/-! ## The address of a phrase -/

theorem getAddressByWords_eq (k : HDKeyEncoder) (u : Unspecified) {words e : Bytes}
    (he : e.length = 16) (h : wordsToEntropyHex u words = bytesToHex e) :
    getAddressByWords k u words = k.addressOf (phraseOf enWords (shown e)) := by
  rw [getAddressByWords, getAddressByEntropy, h, raw_entropyHexToMnemonic u.pastEnd he]

theorem getAddressByWords_iff (u : Unspecified) (words : Bytes) (h : validateWords words = true) :
    (∀ k : HDKeyEncoder, getAddressByWords k u words = k.addressOf words) ↔
      cString words = zeroPhrase := by
  obtain ⟨e, he, hhex, -, hiff⟩ := shown_of_validateWords u [] h
  constructor
  · intro hall
    have heq := hall plainKeys
    rw [getAddressByWords_eq plainKeys u he hhex, addressOf_plainKeys, addressOf_plainKeys,
      cString_phraseOf] at heq
    exact hiff.mp heq
  · intro hzero k
    rw [getAddressByWords_eq k u he hhex, HDKeyEncoder.addressOf, HDKeyEncoder.addressOf,
      cString_phraseOf, hiff.mpr hzero]

theorem getAddressByWords_iff_zeroPhrase :
    validateWords zeroPhrase = true ∧
      ∀ k : HDKeyEncoder, getAddressByWords k zeroMemory zeroPhrase = k.addressOf zeroPhrase := by
  refine ⟨validateWords_zeroPhrase, ?_⟩
  apply (getAddressByWords_iff zeroMemory zeroPhrase validateWords_zeroPhrase).mpr
  rw [zeroPhrase_eq, cString_phraseOf]

theorem not_address_testPhrase :
    validateWords testPhrase = true ∧
      getAddressByWords plainKeys zeroMemory testPhrase ≠ plainKeys.addressOf testPhrase := by
  refine ⟨validateWords_testPhrase, ?_⟩
  intro heq
  obtain ⟨e, he, hhex, -, hiff⟩ := shown_of_validateWords zeroMemory [] validateWords_testPhrase
  have hself : cString testPhrase = testPhrase := by
    rw [testPhrase_eq, cString_phraseOf]
  rw [getAddressByWords_eq plainKeys zeroMemory he hhex, addressOf_plainKeys, addressOf_plainKeys,
    cString_phraseOf] at heq
  rw [heq, hself] at hiff
  exact testPhrase_ne_zeroPhrase (hiff.mp rfl)

end Net
end Proof
end PtpCore
