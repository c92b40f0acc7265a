import PtpCore.Net.AccountKeys
import PtpCore.Wallet.HDKeyEncoder

/-!
# Signing for a group (`AccountManager::signGroupMessage`)

The number of a group is put behind the path of the group keys, and in front of the message. The
path already ends in a digit.

`format_sign_msg_data` is in the program twice, and the text of an Ethereum message three times:
besides the helper of `Secp256k1.lean` there are the ones below.
-/

namespace PtpCore
namespace Crypto

open Lib Global

/-- `format_eth_msg_data` of `crypto_helpers.cpp`. -/
def formatEthMsgData (message : Bytes) : Bytes :=
  0x19 :: ("Ethereum Signed Message:\n".toUTF8.toList ++ (decimal message.length ++ message))

end Crypto

namespace Wallet

open Lib Global

/-- `HDKeyEncoder::formatEthMsgData`. -/
def HDKeyEncoder.formatEthMsgData (message : Bytes) : Bytes :=
  0x19 :: ("Ethereum Signed Message:\n".toUTF8.toList ++ (decimal message.length ++ message))

end Wallet

namespace Net

open Lib Global Wallet Crypto

/-- `PTP_GROUP_HD_PATH`. -/
def ptpGroupHdPath : String := "m/44'/60'/0'/1/1"

namespace AccountManager

/-- `AccountManager::format_sign_msg_data`. -/
protected def formatSignMsgData (message : Bytes) (signMsgType : SignMsgType) : Bytes :=
  if signMsgType = .ptp then
    0x19 :: ("PTP Signed Message:\n".toUTF8.toList ++ (decimal message.length ++ message))
  else if signMsgType = .ptpGroup then
    0x19 :: ("PTP GROUP Signed Message:\n".toUTF8.toList ++ (decimal message.length ++ message))
  else formatEthMsgData message

/-- `groupIdxStr`: an `int32_t` that is passed as an `uint32_t`. -/
def groupIdxStr (groupIdx : Int32) : Bytes := int2string groupIdx.toUInt32

/-- `msg_data` of `signGroupMessage`, which is hashed and signed. -/
def groupMsgData (groupIdx : Int32) (message : Bytes) : Bytes :=
  AccountManager.formatSignMsgData (groupIdxStr groupIdx ++ message) .ptpGroup

/-- `signGroupMessage`; `none` when a loop of the derivation goes on. -/
def signGroupMessage (c : Secp256k1) (p : HDPrimitives) (u : Unspecified) {Files : Type}
    (s : AccountManager Files) (message : Bytes) (groupIdx : Int32) :
    Option (Except HDKeyEncoder.StdError Bytes) :=
  let mnemonicRes := MnemonicHelper.entropyHexToMnemonic u.pastEnd s.entropy
  match HDKeyEncoder.makeBip32RootKey p HDKeyEncoder.mainNet mnemonicRes.raw with
  | none => none
  | some hdKey =>
    let path := ptpGroupHdPath.toUTF8.toList ++ groupIdxStr groupIdx
    match HDKeyEncoder.makeExtendedKey p hdKey path with
    | none => none
    | some (_, some thrown) => some (.error thrown)
    | some (hdKey, none) =>
      some (.ok (ecdsaSignRecoverable c (groupMsgData groupIdx message) hdKey.privateKey))

end AccountManager
end Net
end PtpCore
