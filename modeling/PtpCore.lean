import PtpCore.Lib.Bytes
import PtpCore.Lib.Run
import PtpCore.Lib.Framing
import PtpCore.Lib.BitPack
import PtpCore.Crypto.Sha256
import PtpCore.Crypto.AesGcm
import PtpCore.Wallet.WordList
import PtpCore.Wallet.English
import PtpCore.Wallet.Bip39
import PtpCore.Toolbox.Data
import PtpCore.Wallet.MnemonicHelper
import PtpCore.Global.SimpleBuffer
import PtpCore.Global.ByteStream
import PtpCore.Global.ImPdu
import PtpCore.Global.ImConn
import PtpCore.Server.BusinessSrvConn
import PtpCore.Wallet.HDKey
import PtpCore.Net.AccountManager
import PtpCore.Net.AccountKeys
import PtpCore.Net.AccountPdu
import PtpCore.Lib.Wire
import PtpCore.Proto.Messages
import PtpCore.Global.Helpers
import PtpCore.Global.AttachData
import PtpCore.Crypto.Secp256k1
import PtpCore.Lib.Assoc
import PtpCore.Lib.Prog
import PtpCore.Lib.Registry
import PtpCore.Server.ImUser
import PtpCore.Server.MsgSrvConn
import PtpCore.Server.InterLogin
import PtpCore.Server.CachePool
import PtpCore.Server.ServerLogin
import PtpCore.Server.Redis
import PtpCore.Server.AuthAction
import PtpCore.Server.HandleResponse
import PtpCore.Server.ProxyTask
import PtpCore.Proof.Wallet.WordList
import PtpCore.Proof.Wallet.Bip39
import PtpCore.Proof.Wallet.Validation
import PtpCore.Proof.Net.AccountManager
import PtpCore.Proof.Net.Signing
import PtpCore.Proof.Global.Helpers
import PtpCore.Proof.Global.ImPdu
import PtpCore.Proof.Global.PduHeader
import PtpCore.Proof.Global.ImConnSend
import PtpCore.Proof.Global.ImConnRead
import PtpCore.Proof.Global.Receive
import PtpCore.Proof.Server.Response
import PtpCore.Proof.Server.AuthAction
import PtpCore.Proof.Server.HandleResponse
import PtpCore.Proof.Server.ServerLogin
import PtpCore.Proof.Server.Login
import PtpCore.Proof.Server.LoginCalls
import PtpCore.Proof.Proto.WireLibrary
import PtpCore.Proof.Server.LoginError
import PtpCore.Proof.Server.Routing
import PtpCore.Proof.Crypto.AesGcm
import PtpCore.Proof.Net.Channel
import PtpCore.Proof.Server.UserIds
import PtpCore.Proof.Server.ProxyTask
import PtpCore.Net.Session
import PtpCore.Proof.Server.KeyExchange
import PtpCore.Proof.Net.ClientKeys
import PtpCore.Proof.Net.Session
import PtpCore.Server.CacheConn
import PtpCore.Proof.Server.CacheConn
import PtpCore.Lib.Lending
import PtpCore.Server.ConnPool
import PtpCore.Lib.Loop
import PtpCore.Net.ClientConn
import PtpCore.Proof.Server.ConnPool
import PtpCore.Proof.Net.MapScans
import PtpCore.Proof.Net.AccountMaps
import PtpCore.Proof.Net.Reconnect
import PtpCore.Proof.Server.BusinessServer
import PtpCore.Server.SyncResponse
import PtpCore.Proof.Server.OneReply
import PtpCore.Server.AsyncLogin
import PtpCore.Proof.Server.AsyncLogin
import PtpCore.Crypto.Base64
import PtpCore.Crypto.AesSimple
import PtpCore.Proof.Crypto.AesSimple
import PtpCore.Net.BuffersStorage
import PtpCore.Net.Notify
import PtpCore.Net.EntropyStore
import PtpCore.Proof.Net.EntropyStore
import PtpCore.Proof.Net.EncryptBounds
import PtpCore.Proof.Net.CaptchaAnswer
import PtpCore.Net.ClientSystem
import PtpCore.Proof.Net.Heartbeat
import PtpCore.Proof.Server.ServInfo
import PtpCore.Proof.Net.Notify
import PtpCore.Lib.Counted
import PtpCore.Server.EventDispatch
import PtpCore.Proof.Server.EventDispatch
import PtpCore.Proof.Server.UserTable
import PtpCore.Proof.Server.LoginAttempt
import PtpCore.Proof.Server.FailedLogin
import PtpCore.Crypto.Ripemd160
import PtpCore.Proof.Wallet.DerivePath
import PtpCore.Proof.Wallet.KeyDerivation
import PtpCore.Proof.Wallet.ExtendedKey
import PtpCore.Net.GroupKeys
import PtpCore.Proof.Crypto.SignedPayload
import PtpCore.Proof.Net.GroupKeys
import PtpCore.Crypto.Recovery
import PtpCore.Proof.Crypto.Recovery
import PtpCore.Proof.Wallet.HDKey
import PtpCore.Proof.Net.FailedRecovery
import PtpCore.Proof.Global.ByteStream
import PtpCore.Proof.Global.StreamReads
import PtpCore.Proof.Global.StreamWrites
import PtpCore.Proof.Global.SimpleBuffer
import PtpCore.Proof.Server.BusinessSelect
import PtpCore.Proof.Server.FailedSerialize
import PtpCore.Proof.Global.UrlCodec
import PtpCore.Proof.Global.StrExplode
import PtpCore.Proof.Server.Backoff
import PtpCore.Proof.Net.ClientBackoff
import PtpCore.Global.Timers
import PtpCore.Proof.Global.Timers
import PtpCore.Global.ConfigFile
import PtpCore.Proof.Global.ConfigFile
import PtpCore.Proof.Global.ConfigUpdate
import PtpCore.Global.Uri
import PtpCore.Lib.Cut
import PtpCore.Proof.Global.UriPieces
import PtpCore.Proof.Global.Uri
import PtpCore.Proof.Global.UriParse
import PtpCore.Global.ReplaceMark
import PtpCore.Proof.Global.ReplaceMark
import PtpCore.Lib.Bisect
import PtpCore.Proof.Wallet.WordLookup
import PtpCore.Crypto.Sha2
import PtpCore.Lib.BlockHash
import PtpCore.Proof.Crypto.Sha2
import PtpCore.Crypto.Base58Decode
import PtpCore.Crypto.CSha
import PtpCore.Crypto.Hmac
import PtpCore.Lib.KeyedHash
import PtpCore.Lib.Positional
import PtpCore.Proof.Crypto.Base58
import PtpCore.Proof.Crypto.Base58Decode
import PtpCore.Proof.Crypto.CSha
import PtpCore.Proof.Crypto.Hmac
import PtpCore.Lib.Crash
import PtpCore.Net.ConfigFiles
import PtpCore.Proof.Net.ConfigFiles
import PtpCore.Global.ThreadPool
import PtpCore.Proof.Global.ThreadPool
import PtpCore.Proof.Server.WorkerThread
import PtpCore.Global.Link
import PtpCore.Proof.Global.Link
import PtpCore.Net.ByteBuffer
import PtpCore.Proof.Net.ByteBuffer
