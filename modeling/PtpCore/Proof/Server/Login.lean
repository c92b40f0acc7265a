import PtpCore.Lib.Run
import PtpCore.Proof.Proto.WireLibrary
import PtpCore.Proof.Server.HandleResponse

/-!
# Who is logged in

A connection is opened for an address only after a captcha was issued on it and a signature over
that captcha was accepted that recovers to the address. This holds in every run in which the client
keeps to the command ids of clients. The two internal ones have their handlers in the same table,
and `ServerLoginRes` believes what it is told, so a client that sends one is opened for any address
it has claimed.
-/

namespace PtpCore
namespace Proof
namespace Server

open Lib Proto PtpCore.Crypto
open PtpCore.Global PtpCore.Server PtpCore.Net

/-- What a run on connection `c` is made of: a PDU of its client, with what handling it meets, and
    whatever happens on other connections in between. -/
inductive ClientStep
  | pdu (env : Env) (p : CImPdu)
  | others (t : MsgServer)

def clientStep (l : Libs) (c : ConnId) (s : MsgServer) : ClientStep → MsgServer
  | .pdu env p => (handlePdu l env false c p s).1
  | .others t =>
    -- everything may change but the object of `c`, the way to it, and the log of this run
    match s.conns.find c with
    | none => s
    | some conn =>
      { t with
        conns := t.conns.set c conn
        msgConnMap := t.msgConnMap.set conn.handle c
        log := s.log }

/-- The client does not send what only the business server may send. -/
def ClientStep.External : ClientStep → Prop
  | .pdu _ p => p.getCommandId ≠ cidServerLoginReq ∧ p.getCommandId ≠ cidServerLoginRes
  | .others _ => True

/-- What must have happened before the connection `c` is opened for `a`. -/
def Entitled (l : Libs) (c : ConnId) (log : List Event) (a : Bytes) : Prop :=
  ∃ captcha sig pubKey33, .issued c captcha ∈ log ∧ .accepted captcha sig a ∈ log ∧
    sig.length = 65 ∧
    recoverPubKeyAndAddressFromSig l.secp sig (formatSignMsgData captcha .ptp) = some (pubKey33, a)

/-- Whenever `c` is opened, it is for an address it is entitled to, and that it has itself. -/
def Authenticated (l : Libs) (c : ConnId) (log : List Event) : Prop :=
  Justified (fun before e => ∀ a b, e = .opened c a b → Entitled l c before a ∧ b = a) log

/-! ## The invariant -/

/-- What the log knows of the connection. -/
structure Recorded (c : ConnId) (conn : CMsgSrvConn) (log : List Event) : Prop where
  issued : conn.captcha ≠ [] → .issued c conn.captcha ∈ log
  opened : conn.isOpen = true → ∃ a b, .opened c a b ∈ log

structure LoginInv (l : Libs) (c : ConnId) (conn : CMsgSrvConn) (s : MsgServer) : Prop where
  live : Live s c conn
  recorded : Recorded c conn s.log
  authenticated : Authenticated l c s.log

section

variable {l : Libs} {c : ConnId} {conn : CMsgSrvConn} {s t : MsgServer}

theorem Recorded.mono {log : List Event} (h : Recorded c conn log) (e : Event) :
    Recorded c conn (log ++ [e]) where
  issued hne := List.mem_append_left _ (h.issued hne)
  opened hopen :=
    let ⟨a, b, hmem⟩ := h.opened hopen
    ⟨a, b, List.mem_append_left _ hmem⟩

/-- Any event may be recorded, but for an opening one that nothing entitles to. -/
theorem LoginInv.record (h : LoginInv l c conn s) {e : Event}
    (he : ∀ a b, e = .opened c a b → Entitled l c s.log a ∧ b = a) :
    LoginInv l c conn (s.record e) :=
  ⟨h.live.record e, h.recorded.mono e, h.authenticated.concat he⟩

theorem LoginInv.replied (h : LoginInv l c conn s) (hr : Replied s c t) : LoginInv l c conn t := by
  rcases hr with rfl | ⟨pdu, rfl⟩
  · exact h
  · exact h.record nofun

/-! ## What keeps it -/

/-- Opening the connection for an address it is entitled to. -/
theorem LoginInv.openConn (h : LoginInv l c conn s) {info : UserInfo}
    (hent : Entitled l c s.log (info.address.getD []))
    (hconn : conn.address = info.address.getD []) (user : UserRef) (sharedSecret : Bytes) :
    ∃ conn', LoginInv l c conn' (openConn s c conn user conn.handle info sharedSecret) := by
  refine ⟨openedConn conn info sharedSecret, ⟨Assoc.find_set_self _ _ _, h.live.map⟩, ⟨?_, ?_⟩, ?_⟩
  · intro hne
    exact List.mem_append_left _ (h.recorded.issued hne)
  · intro _
    exact ⟨_, _, List.mem_append_right _ (List.mem_singleton.mpr rfl)⟩
  · apply h.authenticated.concat
    intro a b heq
    cases heq
    exact ⟨hent, hconn⟩

theorem LoginInv.outcome {m : ServerLoginReq} (h : LoginInv l c conn s)
    (hissued : .issued c (m.captcha.getD []) ∈ s.log) (hconn : conn.address = m.address.getD [])
    (ho : Outcome l m s c conn t) : ∃ conn', LoginInv l c conn' t := by
  cases ho with
  | nothing ht => exact ⟨conn, ht ▸ h⟩
  | refused e he hlost =>
    have hrefused : LoginInv l c conn (s.record (.refused e)) := h.record nofun
    refine ⟨conn, hrefused.replied ?_⟩
    rcases hlost with ht | ⟨pdu, ht, -⟩
    · exact Or.inl ht
    · exact Or.inr ⟨pdu, ht⟩
  | accepted sig hsig hreplied =>
    have hacc : LoginInv l c conn (acceptedState s m sig) := h.record nofun
    exact ⟨conn, hacc.replied hreplied⟩
  | opened sig hsig info user secret hinfo hreplied =>
    obtain ⟨hlen, pubKey33, hrecover⟩ := hsig
    have hent : Entitled l c (acceptedState s m sig).log (info.address.getD []) := by
      rw [hinfo]
      exact ⟨m.captcha.getD [], sig, pubKey33, List.mem_append_left _ hissued,
        List.mem_append_right _ (List.mem_singleton.mpr rfl), hlen, hrecover⟩
    have hacc : LoginInv l c conn (acceptedState s m sig) := h.record nofun
    obtain ⟨conn', hopen⟩ := hacc.openConn hent (hconn.trans hinfo.symm) user secret
    exact ⟨conn', hopen.replied hreplied⟩

theorem LoginInv.captcha (h : LoginInv l c conn s) {conn' : CMsgSrvConn} {captcha : Bytes}
    (hsame : SameLogin conn conn') (hcaptcha : conn'.captcha = captcha) :
    LoginInv l c conn' ((s.setConn c conn').record (.issued c captcha)) := by
  have hlive := (live_setConn h.live hsame.handle).record (.issued c captcha)
  refine ⟨hlive, ⟨?_, ?_⟩, h.authenticated.concat nofun⟩
  · intro _
    rw [hcaptcha]
    exact List.mem_append_right _ (List.mem_singleton.mpr rfl)
  · intro hopen
    rw [hsame.isOpen] at hopen
    obtain ⟨a, b, hmem⟩ := h.recorded.opened hopen
    exact ⟨a, b, List.mem_append_left _ hmem⟩

theorem LoginInv.claimed (h : LoginInv l c conn s) (env : Env) (msg : AuthLoginReq) :
    LoginInv l c (claimedConn env conn msg) (claimed env s c conn msg) :=
  ⟨live_claimed env h.live msg, ⟨fun hne => absurd rfl hne, h.recorded.opened⟩, h.authenticated⟩

/-- One step of the client keeps the invariant. -/
theorem LoginInv.step (h : LoginInv l c conn s) {e : ClientStep} (he : e.External) :
    ∃ conn', LoginInv l c conn' (clientStep l c s e) := by
  cases e with
  | others u =>
    rw [clientStep, h.live.object]
    exact ⟨conn, ⟨Assoc.find_set_self _ _ _, Assoc.find_set_self _ _ _⟩, h.recorded,
      h.authenticated⟩
  | pdu env p =>
    rw [clientStep]
    by_cases hcap : p.getCommandId = cidAuthCaptchaReq
    · rcases handlePdu_captcha l env h.live hcap with hr | ⟨conn', hsame, -, hcaptcha, hr⟩
      · exact ⟨conn, h.replied hr⟩
      · exact ⟨conn', (h.captcha hsame hcaptcha).replied hr⟩
    by_cases hlogin : p.getCommandId = cidAuthLoginReq
    · rcases handlePdu_login l env h.live hlogin with hr | ⟨msg, hne, heq, ho⟩
      · exact ⟨conn, h.replied hr⟩
      · refine (h.claimed env msg).outcome ?_ rfl ho
        have hissued := h.recorded.issued hne
        rw [← heq] at hissued
        exact hissued
    · exact ⟨conn, h.replied (handlePdu_other l env h.live.object hcap hlogin he.1 he.2)⟩

/-- A connection that was just made, at the beginning of a log. -/
structure Fresh (s : MsgServer) (c : ConnId) (handle : UInt32) : Prop where
  live : Live s c { handle := handle }
  log : s.log = []

theorem Fresh.loginInv {handle : UInt32} (h : Fresh s c handle) :
    LoginInv l c { handle := handle } s := by
  refine ⟨h.live, ⟨fun hne => absurd rfl hne, nofun⟩, ?_⟩
  rw [Authenticated, h.log]
  exact justified_nil

theorem authenticated_of_external (l : Libs) (c : ConnId) (handle : UInt32) (s : MsgServer)
    (es : List ClientStep) (hfresh : Fresh s c handle) (he : ∀ e ∈ es, e.External) :
    Authenticated l c (es.foldl (clientStep l c) s).log ∧
      ∃ conn, (es.foldl (clientStep l c) s).conns.find c = some conn ∧
        (conn.isOpen = true → ∃ a, .opened c a a ∈ (es.foldl (clientStep l c) s).log) := by
  have hrun : EachStep (clientStep l c) (fun _ e => e.External) s es := EachStep.of_forall_mem he
  obtain ⟨conn, hinv⟩ := EachStep.invariant (fun s => ∃ conn, LoginInv l c conn s)
    (fun s e ⟨conn, h⟩ hext => h.step hext) ⟨_, hfresh.loginInv⟩ hrun
  refine ⟨hinv.authenticated, conn, hinv.live.object, ?_⟩
  intro hopen
  obtain ⟨a, b, hmem⟩ := hinv.recorded.opened hopen
  obtain ⟨pre, post, heq⟩ := List.append_of_mem hmem
  obtain ⟨-, hb⟩ := hinv.authenticated pre _ post heq a b rfl
  rw [hb] at hmem
  exact ⟨a, hmem⟩

end

/-! ## A login, and a forged one

The server draws sixteen zero bytes for its key, so its mnemonic is the first one there is, and the
client has the private key 1. The hashes, signatures and points are those of the curve. -/

def hexBytes (text : String) : Bytes := (hexToString text.toUTF8.toList).getD []

def serverPhrase : Bytes :=
  ("abandon abandon abandon abandon abandon abandon abandon abandon " ++
    "abandon abandon abandon about").toUTF8.toList

def serverPrvKey : Bytes :=
  hexBytes "dcea9371bd9641a066ad61b6542ffa3eb2835cababbf202ce2250c726ce736b3"

def serverAddress : Bytes := "0x399db6ed32539fbdf44c3e7678b5b428e378f666".toUTF8.toList

def clientKey : Bytes :=
  hexBytes "0279be667ef9dcbbac55a06295ce870b07029bfcdb2dce28d959f2815b16f81798"

def clientKey64 : Bytes :=
  hexBytes ("79be667ef9dcbbac55a06295ce870b07029bfcdb2dce28d959f2815b16f81798" ++
    "483ada7726a3c4655da4fbfc0e1108a8fd17b448a68554199c47d08ffb10d4b8")

def clientAddress : Bytes := "0x7e5f4552091a69125d5dfcb7b8c2659029395bdf".toUTF8.toList

/-- The address of somebody else. -/
def otherAddress : Bytes := "0x9858effd232b4033e47d90003d41ec34ecaeda94".toUTF8.toList

def sampleCaptcha : Bytes := "a1B2c3".toUTF8.toList

def captchaHash : Bytes :=
  hexBytes "ed7678bce132efee20a480f4b8b4ca107f2565d4ab6966a017afdac7989545af"

def clientSig64 : Bytes :=
  hexBytes ("54baf322e0cf34f506f727e5193d57cbeaccecf573b43afe751dba7ed7f30cdb" ++
    "6174209acd84f65af1cc30b965db17f3c052612775743db34b9ca3bdec41e3f5")

def serverSig64 : Bytes :=
  hexBytes ("bddf5edaaf9069a867b4eb4777ae5dfb3b6f9cd4519aa5659c24c5df4084a8a3" ++
    "316b5e34e92327b02248140574edea22d1e837f474de4ec5588f8f4002024e32")

def sampleSecp : Secp256k1 where
  PubKey := Bytes
  keccak256 b :=
    if b = clientKey64 then
      hexBytes "c0a6c424ac7157ae408398df7e5f4552091a69125d5dfcb7b8c2659029395bdf"
    else if b = formatSignMsgData sampleCaptcha .ptp then captchaHash
    else List.replicate 32 0
  recover sig64 recId hash :=
    if sig64 = clientSig64 ∧ recId = 0 ∧ hash = captchaHash then some clientKey else none
  serializeUncompressed _ := 0x04 :: clientKey64
  serializeCompressed key := key
  parse b := if b = clientKey then some b else none
  ecdh key prvKey :=
    if key = clientKey ∧ prvKey = serverPrvKey then
      some (hexBytes "0b103d935a96304098531cafb9d27ed024d0bcbb5f65d6f8de75ee7bbfbeb363")
    else none
  sign hash prvKey :=
    if hash = captchaHash ∧ prvKey = serverPrvKey then (serverSig64, 0)
    else (List.replicate 64 0, 0)

def sampleKeys : HDKeyEncoder where
  HDKey := Bytes
  makeEthRootKey := id
  makeEthExtendedKey := fun key _ => key
  getEthAddress := fun (key : Bytes) => if key = serverPhrase then serverAddress else []

def sampleLibs : Libs where
  proto := Runtime.wireLibrary
  secp := sampleSecp
  keys := sampleKeys
  privateKey := fun (key : Bytes) => if key = serverPhrase then serverPrvKey else []

/-- A cache without any user; the next id is 7. -/
def sampleEnv : Env where
  heap _ _ := 0
  captcha := sampleCaptcha
  iv := List.replicate 16 1
  aad := List.replicate 16 2
  random := List.replicate 16 0
  now := 1700000000
  cache := ⟨true, fun _ => [], fun _ => 7, fun _ _ => 7, fun _ => List.replicate 8 []⟩
  beyond := List.replicate 65 0
  length_beyond := Nat.le_refl 65
  loginConnOpen := true
  businessConnOpen := true

/-- One connection, with descriptor 5. -/
def sampleServer : MsgServer := MsgServer.empty.onConnect 5

theorem fresh_sampleServer : Fresh sampleServer 0 5 := ⟨⟨rfl, rfl⟩, rfl⟩

def captchaPdu : CImPdu :=
  msgPdu (fun _ => 0) (sampleLibs.proto.authCaptchaReq.serialize {}) cidAuthCaptchaReq 1

def loginPdu (address sign : Bytes) : CImPdu :=
  msgPdu (fun _ => 0) (sampleLibs.proto.authLoginReq.serialize
    { address := some address
      captcha := some sampleCaptcha
      clientType := some .ios
      sign := some sign }) cidAuthLoginReq 2

theorem getCommandId_captchaPdu : captchaPdu.getCommandId = cidAuthCaptchaReq :=
  (msgPdu_spec _ _ _ fun h => sampleLibs.proto.authCaptchaReq.length_lt h).2.1

theorem getCommandId_loginPdu (address sign : Bytes) :
    (loginPdu address sign).getCommandId = cidAuthLoginReq :=
  (msgPdu_spec _ _ _ fun h => sampleLibs.proto.authLoginReq.length_lt h).2.1

/-- A `ServerLoginRes` that a client has made: the user it names has the key of the client. -/
def forgedPdu (address : Bytes) : CImPdu :=
  msgPdu (fun _ => 0) (sampleLibs.proto.serverLoginRes.serialize
    { error := some .noError
      userInfo := some
        { address := some address
          pubKey := some clientKey
          avatar := some []
          status := some 0
          uid := some 7 }
      attachData := some (List.replicate 12 0) }) cidServerLoginRes 3

/-- The constants as numbers: they are evaluated faster than texts. -/
theorem sample_bytes :
    serverPhrase =
      toBE 93 ((0x6162616e646f6e206162616e646f6e206162616e646f6e206162616e64 * 2 ^ 256 +
        0x6f6e206162616e646f6e206162616e646f6e206162616e646f6e206162616e64) * 2 ^ 256 +
        0x6f6e206162616e646f6e206162616e646f6e206162616e646f6e2061626f7574) ∧
    serverPrvKey = toBE 32 0xdcea9371bd9641a066ad61b6542ffa3eb2835cababbf202ce2250c726ce736b3 ∧
    clientKey = toBE 33 0x0279be667ef9dcbbac55a06295ce870b07029bfcdb2dce28d959f2815b16f81798 ∧
    clientKey64 =
      toBE 64 (0x79be667ef9dcbbac55a06295ce870b07029bfcdb2dce28d959f2815b16f81798 * 2 ^ 256 +
        0x483ada7726a3c4655da4fbfc0e1108a8fd17b448a68554199c47d08ffb10d4b8) ∧
    clientAddress =
      toBE 42 0x307837653566343535323039316136393132356435646663623762386332363539303239333935626466 ∧
    otherAddress =
      toBE 42 0x307839383538656666643233326234303333653437643930303033643431656333346563616564613934 ∧
    sampleCaptcha = toBE 6 0x613142326333 ∧
    captchaHash = toBE 32 0xed7678bce132efee20a480f4b8b4ca107f2565d4ab6966a017afdac7989545af ∧
    clientSig64 =
      toBE 64 (0x54baf322e0cf34f506f727e5193d57cbeaccecf573b43afe751dba7ed7f30cdb * 2 ^ 256 +
        0x6174209acd84f65af1cc30b965db17f3c052612775743db34b9ca3bdec41e3f5) ∧
    serverSig64 =
      toBE 64 (0xbddf5edaaf9069a867b4eb4777ae5dfb3b6f9cd4519aa5659c24c5df4084a8a3 * 2 ^ 256 +
        0x316b5e34e92327b02248140574edea22d1e837f474de4ec5588f8f4002024e32) ∧
    hexBytes "c0a6c424ac7157ae408398df7e5f4552091a69125d5dfcb7b8c2659029395bdf" =
      toBE 32 0xc0a6c424ac7157ae408398df7e5f4552091a69125d5dfcb7b8c2659029395bdf ∧
    hexBytes "0b103d935a96304098531cafb9d27ed024d0bcbb5f65d6f8de75ee7bbfbeb363" =
      toBE 32 0x0b103d935a96304098531cafb9d27ed024d0bcbb5f65d6f8de75ee7bbfbeb363 := by
  and_intros <;> decide +kernel

def loginRun : List ClientStep :=
  [.pdu sampleEnv captchaPdu, .pdu sampleEnv (loginPdu clientAddress (clientSig64 ++ [0]))]

theorem authenticated_loginRun :
    Authenticated sampleLibs 0 (loginRun.foldl (clientStep sampleLibs 0) sampleServer).log ∧
      .opened 0 clientAddress clientAddress ∈
        (loginRun.foldl (clientStep sampleLibs 0) sampleServer).log := by
  have hext : ∀ e ∈ loginRun, e.External := by
    intro e he
    rcases List.mem_cons.mp he with rfl | he
    · rw [ClientStep.External, getCommandId_captchaPdu]
      exact ⟨by decide, by decide⟩
    · cases List.mem_singleton.mp he
      rw [ClientStep.External, getCommandId_loginPdu]
      exact ⟨by decide, by decide⟩
  refine ⟨(authenticated_of_external sampleLibs 0 5 sampleServer loginRun fresh_sampleServer
    hext).1, ?_⟩
  simp only [loginRun, captchaPdu, loginPdu, sampleLibs, sampleSecp, sampleKeys, sample_bytes,
    toBE_eq_consBE]
  decide +kernel

/-- The client claims an address that is not its own with a signature that is none, and answers
    its own request. -/
def forgedRun : List ClientStep :=
  [.pdu sampleEnv captchaPdu, .pdu sampleEnv (loginPdu otherAddress (List.replicate 65 0)),
    .pdu sampleEnv (forgedPdu otherAddress)]

theorem not_authenticated_forged :
    Fresh sampleServer 0 5 ∧
      ¬ Authenticated sampleLibs 0
        (forgedRun.foldl (clientStep sampleLibs 0) sampleServer).log := by
  refine ⟨fresh_sampleServer, ?_⟩
  intro h
  have hrun : .opened 0 otherAddress otherAddress ∈
        (forgedRun.foldl (clientStep sampleLibs 0) sampleServer).log ∧
      ∀ e ∈ (forgedRun.foldl (clientStep sampleLibs 0) sampleServer).log,
        (match e with | .accepted _ _ _ => false | _ => true) = true := by
    simp only [forgedRun, captchaPdu, loginPdu, forgedPdu, sampleLibs, sampleSecp, sampleKeys,
      sample_bytes, toBE_eq_consBE]
    decide +kernel
  obtain ⟨hopened, hnone⟩ := hrun
  obtain ⟨pre, post, heq⟩ := List.append_of_mem hopened
  obtain ⟨⟨captcha, sig, pubKey33, -, haccepted, -⟩, -⟩ := h pre _ post heq _ _ rfl
  have hmem := List.mem_append_left (.opened 0 otherAddress otherAddress :: post) haccepted
  rw [← heq] at hmem
  cases hnone _ hmem

end Server
end Proof
end PtpCore
