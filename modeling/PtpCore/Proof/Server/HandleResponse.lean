import PtpCore.Proof.Server.AuthAction

/-!
# A login from its request to its reply

The three handlers of a login, composed as `HandleNextResponse` composes them. Each lemma follows
one PDU: the last one first, since the others end in it.
-/

namespace PtpCore
namespace Proof
namespace Server

open Lib Proto PtpCore.Crypto
open PtpCore.Global PtpCore.Server

/-- `t` is `s` after at most one PDU to `c`. -/
def Replied (s : MsgServer) (c : ConnId) (t : MsgServer) : Prop :=
  t = s ∨ ∃ pdu, t = s.sendPdu c pdu

theorem pending_replied {s t : MsgServer} {c : ConnId} (h : Replied s c t) :
    t.pending = s.pending := by
  rcases h with rfl | ⟨pdu, rfl⟩
  · rfl
  · rfl

/-- What the log of `t` has behind that of `s`. -/
def newEvents (s t : MsgServer) : List Event := t.log.drop s.log.length

theorem newEvents_of_log {s t : MsgServer} {es : List Event} (h : t.log = s.log ++ es) :
    newEvents s t = es := by
  rw [newEvents, h, List.drop_left]

theorem newEvents_sendPdu {s u : MsgServer} {es : List Event} (h : u.log = s.log ++ es) (c : ConnId)
    (pdu : CImPdu) : newEvents s (u.sendPdu c pdu) = es ++ [.sent c pdu] := by
  apply newEvents_of_log
  rw [← List.append_assoc, ← h]
  rfl

/-- The client reads the error `e` in this PDU. -/
def Carries (l : Libs) (e : ERR) (pdu : CImPdu) : Prop :=
  pdu.getCommandId = cidAuthLoginRes ∧ (l.proto.authLoginRes.parse pdu.body).1.error = some e

section

variable (l : Libs) (env : Env) {async : Bool} {k : Nat} {c : ConnId} {conn : CMsgSrvConn}
  {q : CImPdu} {s : MsgServer}

theorem replied_sendMsg {again : CImPdu → MsgServer → MsgServer × Option Fault} {handle : UInt32}
    (fill : Nat → UInt8) (msg : Option Bytes) (cid seq : UInt16) :
    (respond l env async k again c handle (.sendMsg fill msg cid seq) s).2 ≠ some .nullConn ∧
      Replied s c (respond l env async k again c handle (.sendMsg fill msg cid seq) s).1 := by
  rcases respond_sendMsg l env async fill msg cid seq with h | h
  · rw [h]
    exact ⟨nofun, Or.inl rfl⟩
  · rw [h]
    exact ⟨nofun, Or.inr ⟨_, rfl⟩⟩

/-- The handler runs, unless a login is turned away for want of a business server. -/
theorem handleNext_of_handler {action : Action} (hconn : s.conns.find c = some conn)
    (haction : getHandler q.getCommandId = some action)
    (hopen : async = true → q.getCommandId = cidAuthLoginReq → env.loginConnOpen = true) :
    handleNextResponse l env async (k + 1) c q s =
      match action.run l env (env.heap (2 * k)) ⟨conn.handle, q⟩ s with
      | (s, .error fault) => (s, some fault)
      | (s, .ok response) =>
        respond l env async k (handleNextResponse l env async k c) c conn.handle response s := by
  have hno : ¬ (async = true ∧ q.getCommandId = cidAuthLoginReq ∧ env.loginConnOpen = false) := by
    rintro ⟨hasync, hcid, hclosed⟩
    rw [hopen hasync hcid] at hclosed
    cases hclosed
  rw [handleNextResponse, hconn]
  dsimp only
  rw [haction]
  exact if_neg hno

/-! ## The result of a login -/

theorem getHandler_serverLoginRes (hcid : q.getCommandId = cidServerLoginRes) :
    getHandler q.getCommandId = some .serverLoginRes := by
  rw [hcid]
  rfl

theorem handleNext_result (async : Bool) (k : Nat) (hlive : Live s c conn)
    (hcid : q.getCommandId = cidServerLoginRes) :
    (handleNextResponse l env async (k + 1) c q s).2 ≠ some .nullConn ∧
    (Replied s c (handleNextResponse l env async (k + 1) c q s).1 ∨
      ∃ msg user sharedSecret, l.proto.serverLoginRes.parse q.body = (msg, true) ∧
        Replied (openConn s c conn user conn.handle (msg.userInfo.getD {}) sharedSecret) c
          (handleNextResponse l env async (k + 1) c q s).1) := by
  rw [handleNext_of_handler l env hlive.object (getHandler_serverLoginRes hcid)
    fun _ h => absurd (hcid.symm.trans h) (by decide)]
  rw [Action.run]
  rcases serverLoginRes_cases l env (env.heap (2 * k)) conn.handle q s with
    ⟨msgRsp, h⟩ | ⟨fault, h, hnull⟩ | ⟨msg, c', conn', user, secret, msgRsp, hparse, hfind, h⟩
  · rw [h]
    obtain ⟨hnone, hreplied⟩ := replied_sendMsg l env _ _ _ _
    exact ⟨hnone, Or.inl hreplied⟩
  · rw [h]
    refine ⟨?_, Or.inl (Or.inl rfl)⟩
    intro heq
    rw [hlive.find] at hnull
    cases hnull (Option.some.inj heq)
  · rw [hlive.find] at hfind
    cases hfind
    rw [h]
    obtain ⟨hnone, hreplied⟩ := replied_sendMsg l env _ _ _ _
    exact ⟨hnone, Or.inr ⟨msg, user, secret, hparse, hreplied⟩⟩

/-- A reply about an error that the handler found itself. -/
theorem not_carries {e : ERR} (he : e ≠ .ePbParseError) (fill : Nat → UInt8) (seq : UInt16) :
    ¬ Carries l e ((msgPdu fill (l.proto.authLoginRes.serialize { error := some .ePbParseError })
      cidAuthLoginRes seq).setReversed 0) := by
  rintro ⟨-, herror⟩
  obtain ⟨hheader, -, -, hbody⟩ := msgPdu_spec fill cidAuthLoginRes seq
    (fun {b} h => l.proto.authLoginRes.length_lt h)
  rw [(setReversed_spec hheader 0).2, hbody] at herror
  rcases parse_passed l.proto.authLoginRes { error := some .ePbParseError } with h | ⟨-, h⟩
  · rw [h] at herror
    exact he (Option.some.inj herror).symm
  · rw [h] at herror
    cases herror

/-- `t` is `s` after at most one PDU to `c`, which does not carry `e`. -/
def Lost (e : ERR) (s : MsgServer) (c : ConnId) (t : MsgServer) : Prop :=
  t = s ∨ ∃ pdu, t = s.sendPdu c pdu ∧ ¬ Carries l e pdu

/-- A result that cannot be parsed ends in a reply that says so, and not what was wrong. -/
theorem handleNext_unparsed (hconn : s.conns.find c = some conn)
    (hcid : q.getCommandId = cidServerLoginRes) {m : ServerLoginRes}
    (hparse : l.proto.serverLoginRes.parse q.body = (m, false)) {e : ERR}
    (he : e ≠ .ePbParseError) :
    Lost l e s c (handleNextResponse l env async (k + 1) c q s).1 := by
  rw [handleNext_of_handler l env hconn (getHandler_serverLoginRes hcid)
    fun _ h => absurd (hcid.symm.trans h) (by decide)]
  rw [Action.run, serverLoginRes_of_parse l env (env.heap (2 * k)) conn.handle q s hparse]
  rcases respond_sendMsg l env async (env.heap (2 * k))
    (l.proto.authLoginRes.serialize { error := some .ePbParseError }) cidAuthLoginRes
    q.getSeqNum with h | h
  · exact Or.inl (congrArg Prod.fst h)
  · exact Or.inr ⟨_, congrArg Prod.fst h, not_carries l he _ _⟩

/-- A result without attached data throws. -/
theorem handleNext_unattached (hconn : s.conns.find c = some conn)
    (hcid : q.getCommandId = cidServerLoginRes) {m : ServerLoginRes}
    (hparse : l.proto.serverLoginRes.parse q.body = (m, true))
    (hattach : m.attachData.getD [] = []) :
    (handleNextResponse l env async (k + 1) c q s).1 = s := by
  rw [handleNext_of_handler l env hconn (getHandler_serverLoginRes hcid)
    fun _ h => absurd (hcid.symm.trans h) (by decide)]
  obtain ⟨e, he⟩ := serverLoginRes_of_attach l env (env.heap (2 * k)) conn.handle q s hparse hattach
  rw [Action.run, he]

/-- An answer of the business server is handled on the connection that its descriptor leads to, or
    not at all. -/
theorem handleBusinessPdu_eq (s : MsgServer) (hcid : q.getCommandId = cidServerLoginRes) :
    (s.findMsgSrvConnByHandle q.getReversed = none ∧ handleBusinessPdu l env q s = (s, none)) ∨
      ∃ c conn, s.findMsgSrvConnByHandle q.getReversed = some (c, conn) ∧
        handleBusinessPdu l env q s = handleNextResponse l env true 3 c q s := by
  rw [handleBusinessPdu, getHandler_serverLoginRes hcid]
  dsimp only
  cases hfind : s.findMsgSrvConnByHandle q.getReversed with
  | none => exact Or.inl ⟨rfl, rfl⟩
  | some found => exact Or.inr ⟨found.1, found.2, rfl, rfl⟩

/-! ## The request of a login -/

/-- `sig` over the captcha of `m` recovers to the address that `m` claims. -/
def Proves (m : ServerLoginReq) (sig : Bytes) : Prop :=
  sig.length = 65 ∧ ∃ pubKey33, recoverPubKeyAndAddressFromSig l.secp sig
    (formatSignMsgData (m.captcha.getD []) .ptp) = some (pubKey33, m.address.getD [])

/-- `s` when `ServerLogin` has accepted `sig`. -/
def acceptedState (s : MsgServer) (m : ServerLoginReq) (sig : Bytes) : MsgServer :=
  s.record (.accepted (m.captcha.getD []) sig (m.address.getD []))

/-- What can become of the login request `m` on the connection `c`. -/
inductive Outcome (m : ServerLoginReq) (s : MsgServer) (c : ConnId) (conn : CMsgSrvConn)
    (t : MsgServer) : Prop
  | nothing (h : t = s)
  | refused (e : ERR) (he : e ≠ .noError) (h : Lost l e (s.record (.refused e)) c t)
  | accepted (sig : Bytes) (hsig : Proves l m sig) (h : Replied (acceptedState s m sig) c t)
  | opened (sig : Bytes) (hsig : Proves l m sig) (info : UserInfo) (user : UserRef)
      (sharedSecret : Bytes) (hinfo : info.address.getD [] = m.address.getD [])
      (h : Replied (openConn (acceptedState s m sig) c conn user conn.handle info sharedSecret) c t)

theorem Live.record (hlive : Live s c conn) (e : Event) : Live (s.record e) c conn :=
  ⟨hlive.object, hlive.map⟩

/-- The PDU with the result of a login, as the next handler reads it. -/
theorem resultPdu_spec (fill : Nat → UInt8) (m : ServerLoginRes) (seq : UInt16) :
    (msgPdu fill (l.proto.serverLoginRes.serialize m) cidServerLoginRes seq).getCommandId =
        cidServerLoginRes ∧
      (msgPdu fill (l.proto.serverLoginRes.serialize m) cidServerLoginRes seq).body =
        (l.proto.serverLoginRes.serialize m).getD [] := by
  obtain ⟨-, hcid, -, hbody⟩ := msgPdu_spec fill cidServerLoginRes seq
    (fun {b} h => l.proto.serverLoginRes.length_lt h)
  exact ⟨hcid, hbody⟩

/-- A user that was not filled in makes the result one that cannot be parsed. -/
theorem parse_unfilled (attach : Option Bytes) (e : ERR) :
    ∃ m, l.proto.serverLoginRes.parse ((l.proto.serverLoginRes.serialize
      { attachData := attach, error := some e, userInfo := some {} }).getD []) = (m, false) := by
  rcases parse_passed l.proto.serverLoginRes
    { attachData := attach, error := some e, userInfo := some {} } with h | ⟨-, h⟩
  · exact ⟨_, h⟩
  · exact ⟨_, h⟩

/-- The result for a request that was not parsed is five bytes long, and arrives. -/
theorem parse_refusal :
    l.proto.serverLoginRes.parse ((l.proto.serverLoginRes.serialize
      { attachData := some [], error := some .ePbParseError }).getD []) =
      ({ attachData := some [], error := some .ePbParseError }, true) := by
  have h := l.proto.serverLoginRes.serialize_eq
    (m := { attachData := some [], error := some .ePbParseError }) rfl (by decide)
  rw [h]
  exact l.proto.serverLoginRes.parse_serialize h

/-- In synchronous mode a result is handled at once, or dropped. -/
theorem respond_result {msgRsp : ServerLoginRes} {P : MsgServer → Prop} (hdrop : P s)
    (hnext : ∀ q', q'.getCommandId = cidServerLoginRes →
      q'.body = (l.proto.serverLoginRes.serialize msgRsp).getD [] →
      P (handleNextResponse l env false (k + 1) c q' s).1) (fill : Nat → UInt8) (handle : UInt32) :
    P (respond l env false (k + 1) (handleNextResponse l env false (k + 1) c) c handle
      (loginResult l fill q msgRsp) s).1 := by
  rw [loginResult]
  rcases respond_next l env fill (l.proto.serverLoginRes.serialize msgRsp) cidServerLoginRes
    q.getSeqNum with h | h
  · rw [h]
    exact hdrop
  · rw [h]
    obtain ⟨hcid, hbody⟩ := resultPdu_spec l fill msgRsp q.getSeqNum
    exact hnext _ hcid hbody

/-- An accepted login is opened for the address that was proved, if it is opened. -/
theorem outcome_accepted (hlive : Live s c conn) {m : ServerLoginReq} {sig : Bytes}
    (hsig : Proves l m sig) {user : UserInfo} (huser : user.address = some (m.address.getD []))
    (attach : Option Bytes) (fill : Nat → UInt8) (handle : UInt32) :
    Outcome l m s c conn (respond l env false (k + 1) (handleNextResponse l env false (k + 1) c) c
      handle (loginResult l fill q
        { attachData := attach, error := some .noError, userInfo := some user })
      (acceptedState s m sig)).1 := by
  refine respond_result l env (Outcome.accepted sig hsig (Or.inl rfl)) ?_ fill handle
  intro q' hcid hbody
  rcases (handleNext_result l env false k (hlive.record _) hcid).2 with
    hreplied | ⟨msg, ref, secret, hparse, hreplied⟩
  · exact Outcome.accepted sig hsig hreplied
  · refine Outcome.opened sig hsig _ ref secret ?_ hreplied
    rw [hbody] at hparse
    rcases parse_passed l.proto.serverLoginRes
      { attachData := attach, error := some .noError, userInfo := some user } with
      hread | ⟨-, hread⟩
    · have hmsg := congrArg Prod.fst (hparse.symm.trans hread)
      dsimp only at hmsg
      rw [hmsg]
      change user.address.getD [] = m.address.getD []
      rw [huser]
      rfl
    · cases hparse.symm.trans hread

/-- A login that `ServerLogin` refused: the user was not filled in. -/
theorem outcome_refused (hlive : Live s c conn) (m : ServerLoginReq) {e : ERR}
    (he : e = .eLoginError ∨ e = .eSystem) (attach : Option Bytes) (fill : Nat → UInt8)
    (handle : UInt32) :
    Outcome l m s c conn (respond l env false (k + 1) (handleNextResponse l env false (k + 1) c) c
      handle (loginResult l fill q { attachData := attach, error := some e, userInfo := some {} })
      (s.record (.refused e))).1 := by
  have hne : e ≠ .noError ∧ e ≠ .ePbParseError := by
    rcases he with rfl | rfl
    · exact ⟨nofun, nofun⟩
    · exact ⟨nofun, nofun⟩
  refine Outcome.refused e hne.1 ?_
  refine respond_result l env (Or.inl rfl) ?_ fill handle
  intro q' hcid hbody
  obtain ⟨m', hparse⟩ := parse_unfilled l attach e
  rw [← hbody] at hparse
  exact handleNext_unparsed l env (hlive.record _).object hcid hparse hne.2

theorem loginEvent_refused {m : ServerLoginReq} {e : ERR} (he : e = .eLoginError ∨ e = .eSystem) :
    loginEvent env m e = .refused e := by
  rcases he with rfl | rfl
  · rfl
  · rfl

theorem handleNext_request (hlive : Live s c conn) (hcid : q.getCommandId = cidServerLoginReq)
    {m : ServerLoginReq} (hm : Message.isInitialized m = true)
    (hbody : q.body = (l.proto.serverLoginReq.serialize m).getD []) :
    Outcome l m s c conn (handleNextResponse l env false (k + 2) c q s).1 := by
  have haction : getHandler q.getCommandId = some .serverLoginReq := by
    rw [hcid]
    rfl
  have hread := parse_passed l.proto.serverLoginReq m
  rw [← hbody, hm] at hread
  have hopen : false = true → q.getCommandId = cidAuthLoginReq → env.loginConnOpen = true := nofun
  rw [handleNext_of_handler l env hlive.object haction hopen, Action.run]
  rcases serverLoginReq_cases l env (env.heap (2 * (k + 1))) conn.handle q s with
    ⟨msg, hparse, h⟩ | ⟨fault, h⟩ | ⟨msg, login, hparse, hlogin, h⟩
  · -- only a request that was not written is not parsed, so nothing is attached to the result
    have hmsg : msg.attachData.getD [] = [] := by
      rcases hread with hread | ⟨-, hread⟩
      · cases hparse.symm.trans hread
      · cases hparse.symm.trans hread
        rfl
    rw [h, hmsg]
    refine Outcome.refused .ePbParseError nofun ?_
    refine respond_result l env (Or.inl rfl) ?_ _ _
    intro q' hcid' hbody'
    have hparse' := parse_refusal l
    rw [← hbody'] at hparse'
    exact Or.inl (handleNext_unattached l env (hlive.record _).object hcid' hparse' rfl)
  · rw [h]
    exact Outcome.nothing rfl
  · have hmsg : msg = m := by
      rcases hread with hread | ⟨-, hread⟩
      · exact congrArg Prod.fst (hparse.symm.trans hread)
      · cases hparse.symm.trans hread
    rw [h]
    rw [hmsg] at hlogin ⊢
    rcases serverLogin_ok l.secp env.cache env.now hlogin with
      ⟨herror, huser, hrecover⟩ | ⟨herror, huser⟩
    · rw [herror]
      exact outcome_accepted l env hlive ⟨length_signAt _ env.length_beyond, hrecover⟩ huser _ _ _
    · rw [loginEvent_refused env herror, huser]
      exact outcome_refused l env hlive m herror _ _ _

/-! ## What a client can do -/

theorem live_setConn (hlive : Live s c conn) {conn' : CMsgSrvConn}
    (h : conn'.handle = conn.handle) : Live (s.setConn c conn') c conn' := by
  refine ⟨Assoc.find_set_self _ _ _, ?_⟩
  rw [h]
  exact hlive.map

theorem live_claimed (hlive : Live s c conn) (msg : AuthLoginReq) :
    Live (claimed env s c conn msg) c (claimedConn env conn msg) := by
  have h : Live (s.setConn c (claimedConn env conn msg)) c (claimedConn env conn msg) :=
    live_setConn hlive rfl
  exact ⟨h.object, h.map⟩

/-- The request that a claim makes, as the next handler reads it. -/
theorem requestPdu_spec (fill : Nat → UInt8) (m : ServerLoginReq) (seq : UInt16) :
    (msgPdu fill (l.proto.serverLoginReq.serialize m) cidServerLoginReq seq).getCommandId =
        cidServerLoginReq ∧
      (msgPdu fill (l.proto.serverLoginReq.serialize m) cidServerLoginReq seq).body =
        (l.proto.serverLoginReq.serialize m).getD [] := by
  obtain ⟨-, hcid, -, hbody⟩ := msgPdu_spec fill cidServerLoginReq seq
    (fun {b} h => l.proto.serverLoginReq.length_lt h)
  exact ⟨hcid, hbody⟩

/-- `AuthLoginReq` in synchronous mode. -/
theorem handlePdu_login (hlive : Live s c conn) (hcid : q.getCommandId = cidAuthLoginReq) :
    Replied s c (handlePdu l env false c q s).1 ∨
    ∃ msg, conn.captcha ≠ [] ∧ msg.captcha.getD [] = conn.captcha ∧
      Outcome l (loginRequest conn msg) (claimed env s c conn msg) c (claimedConn env conn msg)
        (handlePdu l env false c q s).1 := by
  have haction : getHandler q.getCommandId = some .authLoginReq := by
    rw [hcid]
    rfl
  have hopen : false = true → q.getCommandId = cidAuthLoginReq → env.loginConnOpen = true := nofun
  rw [handlePdu, handleNext_of_handler l env hlive.object haction hopen, Action.run]
  rcases authLoginReq_cases l env (env.heap (2 * 2)) q hlive with
    ⟨msgRsp, h⟩ | ⟨msg, -, hcaptcha, heq, h⟩
  · rw [h]
    exact Or.inl (replied_sendMsg l env _ _ _ _).2
  · right
    refine ⟨msg, hcaptcha, heq, ?_⟩
    rw [h]
    dsimp only
    rcases respond_next l env (env.heap (2 * 2))
      (l.proto.serverLoginReq.serialize (loginRequest conn msg)) cidServerLoginReq
      q.getSeqNum with h | h
    · rw [h]
      exact Outcome.nothing rfl
    · rw [h]
      obtain ⟨hcid', hbody'⟩ := requestPdu_spec l (env.heap (2 * 2)) (loginRequest conn msg)
        q.getSeqNum
      exact handleNext_request l env (live_claimed env hlive msg) hcid' rfl hbody'

/-- The state when a claim waits for the business server. -/
def waiting (s : MsgServer) (c : ConnId) (handle : UInt32) (pdu : CImPdu) : MsgServer :=
  { s with pending := s.pending ++ [⟨c, handle, pdu⟩] }

/-- `AuthLoginReq` in asynchronous mode. -/
theorem handlePdu_login_async (hlive : Live s c conn) (hcid : q.getCommandId = cidAuthLoginReq) :
    Replied s c (handlePdu l env true c q s).1 ∨
    ∃ msg, Replied (claimed env s c conn msg) c (handlePdu l env true c q s).1 ∨
      (handlePdu l env true c q s).1 = waiting (claimed env s c conn msg) c conn.handle
        ((msgPdu (env.heap (2 * 2)) (l.proto.serverLoginReq.serialize (loginRequest conn msg))
          cidServerLoginReq q.getSeqNum).setReversed conn.handle) := by
  have haction : getHandler q.getCommandId = some .authLoginReq := by
    rw [hcid]
    rfl
  cases hopen : env.loginConnOpen with
  | false =>
    left
    rw [handlePdu, handleNextResponse, hlive.object]
    dsimp only
    rw [haction]
    dsimp only
    rw [if_pos ⟨rfl, hcid, hopen⟩]
    exact Or.inr ⟨_, rfl⟩
  | true =>
    rw [handlePdu, handleNext_of_handler l env hlive.object haction fun _ _ => hopen, Action.run]
    rcases authLoginReq_cases l env (env.heap (2 * 2)) q hlive with
      ⟨msgRsp, h⟩ | ⟨msg, -, -, -, h⟩
    · rw [h]
      exact Or.inl (replied_sendMsg l env _ _ _ _).2
    · right
      refine ⟨msg, ?_⟩
      rw [h]
      dsimp only
      rcases respond_next_async l env (env.heap (2 * 2))
        (l.proto.serverLoginReq.serialize (loginRequest conn msg)) cidServerLoginReq
        q.getSeqNum with h | ⟨pdu, h⟩ | h
      · rw [h]
        exact Or.inl (Or.inl rfl)
      · rw [h]
        exact Or.inl (Or.inr ⟨pdu, rfl⟩)
      · rw [h]
        exact Or.inr rfl

/-- `AuthCaptchaReq`, in both modes. -/
theorem handlePdu_captcha (hlive : Live s c conn) (hcid : q.getCommandId = cidAuthCaptchaReq) :
    Replied s c (handlePdu l env async c q s).1 ∨
    ∃ conn', SameLogin conn conn' ∧ conn'.address = conn.address ∧ conn'.captcha = env.captcha ∧
      Replied ((s.setConn c conn').record (.issued c env.captcha)) c
        (handlePdu l env async c q s).1 := by
  have haction : getHandler q.getCommandId = some .authCaptchaReq := by
    rw [hcid]
    rfl
  have hopen : async = true → q.getCommandId = cidAuthLoginReq → env.loginConnOpen = true :=
    fun _ h => absurd (hcid.symm.trans h) (by decide)
  rw [handlePdu, handleNext_of_handler l env hlive.object haction hopen, Action.run]
  rcases authCaptchaReq_cases l env (env.heap (2 * 2)) q hlive with
    ⟨msg, h⟩ | ⟨conn', r, hsame, haddress, hcaptcha, h, hr⟩
  · rw [h]
    exact Or.inl (replied_sendMsg l env _ _ _ _).2
  · rw [h]
    refine Or.inr ⟨conn', hsame, haddress, hcaptcha, ?_⟩
    rcases hr with hr | ⟨msg, hr⟩
    · rw [hr]
      exact Or.inl rfl
    · rw [hr]
      exact (replied_sendMsg l env _ _ _ _).2

/-- A PDU of any other command id that is not one of the two internal ones. -/
theorem handlePdu_other (hconn : s.conns.find c = some conn)
    (hcaptcha : q.getCommandId ≠ cidAuthCaptchaReq) (hlogin : q.getCommandId ≠ cidAuthLoginReq)
    (hreq : q.getCommandId ≠ cidServerLoginReq) (hres : q.getCommandId ≠ cidServerLoginRes) :
    Replied s c (handlePdu l env async c q s).1 := by
  have hhandler : getHandler q.getCommandId = none ∨
      getHandler q.getCommandId = some .heartBeatNotify := by
    rw [getHandler, if_neg hcaptcha, if_neg hlogin, if_neg hreq, if_neg hres]
    split
    · exact Or.inr rfl
    · exact Or.inl rfl
  rcases hhandler with h | h
  · rw [handlePdu, handleNextResponse, hconn]
    dsimp only
    rw [h]
    exact Or.inr ⟨q, rfl⟩
  · have hopen : async = true → q.getCommandId = cidAuthLoginReq → env.loginConnOpen = true :=
      fun _ h => absurd h hlogin
    rw [handlePdu, handleNext_of_handler l env hconn h hopen, Action.run]
    exact Or.inl rfl

end

end Server
end Proof
end PtpCore
