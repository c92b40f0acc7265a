import PtpCore.Crypto.Secp256k1
import PtpCore.Net.AccountManager
import PtpCore.Wallet.HDKey

/-!
# The key of an account (`ptp_net/AccountManager.cpp`)

`signMessage` and `createShareKey` take the entropy that is in memory, whether or not one has been
loaded, and make the key with the Bitcoin pair of functions. `getAccountAddress` makes it with the
Ethereum pair, and keeps the address.
-/

namespace PtpCore
namespace Net

open Lib Wallet Crypto

/-- The functions that an address needs, as `HDKey.cpp` has them. -/
def hdKeyEncoder (p : HDPrimitives) : HDKeyEncoder where
  HDKey := HDKey
  makeEthRootKey := HDKey.makeEthRootKey p
  makeEthExtendedKey := HDKey.makeEthExtendedKey p
  getEthAddress := HDKey.getEthAddress p

namespace AccountManager

section

variable (c : Secp256k1) (p : HDPrimitives) (u : Unspecified) {Files : Type}

/-- How `signMessage` and `createShareKey` begin. -/
def hdKeyOf (entropy : Bytes) : HDKey :=
  let mnemonicRes := MnemonicHelper.entropyHexToMnemonic u.pastEnd entropy
  (HDKey.makeBip32RootKey p (cString mnemonicRes.raw)).makeExtendedKey p ptpHdPath

def signMessage (s : AccountManager Files) (message : Bytes) : Bytes :=
  ecdsaSignRecoverable c (formatSignMsgData message .ptp) (hdKeyOf p u s.entropy).privateKey

/-- `verifyMessageRecoverAddress`. The hash is over 64 bytes from where the key begins, also when
    there is none; `beyond` is what follows. -/
def verifyMessageRecoverAddress (beyond sig65 message : Bytes) : Bytes :=
  let msgData := formatSignMsgData message .ptp
  let pubKeyRec := recoverPubKeyFromSig64 c (sig65.take 64) (sig65.getD 64 0) msgData
  addressToHex (pubKeyToAddress c ((pubKeyRec ++ 0 :: beyond).take 64))

def createShareKey (s : AccountManager Files) (pubKey : c.PubKey) : Option Bytes :=
  c.ecdh pubKey (hdKeyOf p u s.entropy).privateKey

end

end AccountManager
end Net
end PtpCore
