import PtpCore.Proof.Server.AsyncLogin
import PtpCore.Proof.Server.UserTable

/-!
# Attempts to log in (`ptp_server/actions/AuthAction.cpp`)

One login from its request to its last reply, in either mode. `AuthLoginReq` refuses it, and nothing
has changed then; or it gives the connection its address, puts it into the map of a user, and passes
the login on. Whoever finds later that it must fail says so and takes nothing of this back.
-/

namespace PtpCore
namespace Proof
namespace Server

open Lib Proto PtpCore.Crypto
open PtpCore.Global PtpCore.Server
open PtpCore.Proof.Global

namespace FailedLogin

open UserTable

/-! ### Logins -/

/-- How a login is handled: by the message server itself, or by way of a business server, with
    nothing in between. -/
inductive Means
  | sync (env : Env)
  | async (a : AsyncEnv) (connUuid : UInt32) (b : Worker)

def Means.env : Means → Env
  | .sync env => env
  | .async a _ _ => a.forward

def Means.isAsync : Means → Bool
  | .sync _ => false
  | .async _ _ _ => true

/-- There is no business server to pass the login on to. -/
def Means.Closed (m : Means) : Prop := m.isAsync = true ∧ m.env.loginConnOpen = false

/-- The state when a login has been handled, if that ends. -/
def Means.login (m : Means) (l : Libs) (c : ConnId) (p : CImPdu) (s : MsgServer) :
    Option MsgServer :=
  match m with
  | .sync env => some (handlePdu l env false c p s).1
  | .async a connUuid b => (asyncLogin l a connUuid c p b s).map Prod.fst

/-- The client of `c` is told `e` on the way from `s` to `t`. -/
def Told (l : Libs) (e : ERR) (c : ConnId) (s t : MsgServer) : Prop :=
  ∃ x ∈ sentSince s t, x.1 = c ∧ Carries l e x.2

/-! ### Replies -/

section

variable {l : Libs} {e : ERR} {c d : ConnId} {s t u : MsgServer}

theorem not_told_of_silent (h : Silent s t) : ¬ Told l e c s t := by
  rintro ⟨x, hx, -⟩
  rw [h.sentSince] at hx
  cases hx

theorem told_sendPdu_iff (h : Silent s t) {pdu : CImPdu} :
    Told l e c s (t.sendPdu d pdu) ↔ d = c ∧ Carries l e pdu := by
  rw [Told, h.sentSince_sendPdu]
  constructor
  · rintro ⟨x, hx, hc, hcarries⟩
    cases List.mem_singleton.mp hx
    exact ⟨hc, hcarries⟩
  · rintro ⟨hd, hcarries⟩
    exact ⟨(d, pdu), List.mem_singleton_self _, hd, hcarries⟩

variable {fill : Nat → UInt8} {cid seq : UInt16}

theorem commandId_of_carries {M : Type} [Message M] {codec : Codec M} {m : M}
    (h : Carries l e ((msgPdu fill (codec.serialize m) cid seq).setReversed 0)) :
    cid = cidAuthLoginRes := by
  obtain ⟨hheader, hcid, -, -⟩ := msgPdu_spec fill cid seq (fun {b} h => codec.length_lt h)
  rw [← h.1, (setReversed_spec hheader 0).1, hcid]

/-- The client reads in a reply what was put into it. -/
theorem error_of_carries {msgRsp : AuthLoginRes} {error : ERR} (herror : msgRsp.error = some error)
    (h : Carries l e
      ((msgPdu fill (l.proto.authLoginRes.serialize msgRsp) cid seq).setReversed 0)) :
    e = error := by
  obtain ⟨hheader, -, -, hbody⟩ := msgPdu_spec fill cid seq
    (fun {b} h => l.proto.authLoginRes.length_lt h)
  have hread := h.2
  rw [(setReversed_spec hheader 0).2, hbody] at hread
  rcases parse_passed l.proto.authLoginRes msgRsp with hparse | ⟨-, hparse⟩
  · rw [hparse, herror] at hread
    exact (Option.some.inj hread).symm
  · rw [hparse] at hread
    cases hread

end

/-! ### Handlers -/

/-- The users are those of `s`, and the login of `c` is the one of `conn`. -/
structure LoginKept (c : ConnId) (conn : CMsgSrvConn) (s t : MsgServer) : Prop where
  users : t.users = s.users
  conn : ∃ conn', Live t c conn' ∧ conn'.address = conn.address ∧ SameLogin conn conn'

/-- The response is a reply, if it is anything, and does not say that there was no error. -/
structure Unwelcome (l : Libs) (response : CResponse) : Prop where
  isNext : response.isNext = false
  pdu : ∀ pdu, response.pdu = some pdu → ¬ Carries l .noError pdu

/-- What a handler can do with a PDU of `c`. -/
inductive Ran (l : Libs) (env : Env) (fill : Nat → UInt8) (c : ConnId) (conn : CMsgSrvConn)
    (p : CImPdu) (s : MsgServer) : HandlerResult → Prop
  | fails {u : MsgServer} {fault : Fault} (hkept : LoginKept c conn s u) (hsilent : Silent s u) :
      Ran l env fill c conn p s (u, .error fault)
  | refuses {u : MsgServer} {r : CResponse} (hkept : LoginKept c conn s u) (hsilent : Silent s u)
      (hr : Unwelcome l r) : Ran l env fill c conn p s (u, .ok r)
  | claims {msg : AuthLoginReq} (haway : ¬ TurnedAway l conn p) :
      Ran l env fill c conn p s (claimed env s c conn msg, .ok (.next fill
        (l.proto.serverLoginReq.serialize (loginRequest conn msg)) cidServerLoginReq p.getSeqNum))
  | asks {event : Event} {msgRsp : ServerLoginRes} (hevent : sentPdu event = none) :
      Ran l env fill c conn p s (s.record event, .ok (loginResult l fill p msgRsp))
  | opens {user : UserRef} {info : UserInfo} {sharedSecret : Bytes}
      (ho : Opens l env ⟨conn.handle, p⟩ s c conn user info sharedSecret) :
      Ran l env fill c conn p s (openConn s c conn user conn.handle info sharedSecret,
        .ok (authLoginRes l fill { error := some .noError, userInfo := some (replyUser info) }
          ⟨conn.handle, p⟩))

section

variable {l : Libs} {env : Env} {fill : Nat → UInt8} {c : ConnId} {conn : CMsgSrvConn} {p : CImPdu}
  {s t u : MsgServer}

theorem loginKept_refl (hlive : Live s c conn) : LoginKept c conn s s :=
  ⟨rfl, conn, hlive, rfl, SameLogin.refl conn⟩

theorem LoginKept.sendPdu (h : LoginKept c conn s t) (pdu : CImPdu) :
    LoginKept c conn s (t.sendPdu c pdu) := by
  obtain ⟨conn', hlive, haddress, hsame⟩ := h.conn
  exact ⟨h.users, conn', ⟨hlive.object, hlive.map⟩, haddress, hsame⟩

theorem unwelcome_error {e : ERR} (he : e ≠ .noError) {msgRsp : AuthLoginRes}
    (herror : msgRsp.error = some e) (request : CRequest) :
    Unwelcome l (authLoginRes l fill msgRsp request) := by
  refine ⟨rfl, fun pdu hpdu hcarries => ?_⟩
  cases hpdu
  exact he (error_of_carries herror hcarries).symm

theorem unwelcome_captcha (msgRsp : AuthCaptchaRes) (seq : UInt16) : Unwelcome l
    (.sendMsg fill (l.proto.authCaptchaRes.serialize msgRsp) cidAuthCaptchaRes seq) := by
  refine ⟨rfl, fun pdu hpdu hcarries => ?_⟩
  cases hpdu
  exact absurd (commandId_of_carries hcarries) (by decide)

/-- **What a handler can do.** -/
theorem ran (hlive : Live s c conn) (action : Action) :
    Ran l env fill c conn p s (action.run l env fill ⟨conn.handle, p⟩ s) := by
  have hissued {conn' : CMsgSrvConn} (hhandle : conn'.handle = conn.handle)
      (haddress : conn'.address = conn.address) (hsame : SameLogin conn conn') :
      LoginKept c conn s ((s.setConn c conn').record (.issued c env.captcha)) := by
    have hlive' := live_setConn hlive hhandle
    exact ⟨rfl, conn', ⟨hlive'.object, hlive'.map⟩, haddress, hsame⟩
  cases action with
  | authCaptchaReq =>
    rw [Action.run]
    rcases authCaptchaReq_spec l env fill p hlive with
      ⟨msgRsp, -, heq⟩ | ⟨-, heq⟩ | ⟨msgRsp, heq⟩
    · rw [heq]
      exact .refuses (loginKept_refl hlive) (silent_refl s) (unwelcome_captcha msgRsp _)
    · rw [heq]
      exact .fails (hissued rfl rfl ⟨rfl, rfl, rfl, rfl⟩) ⟨_, rfl, rfl⟩
    · rw [heq]
      exact .refuses (hissued rfl rfl ⟨rfl, rfl, rfl, rfl⟩) ⟨_, rfl, rfl⟩
        (unwelcome_captcha msgRsp _)
  | authLoginReq =>
    rw [Action.run]
    by_cases haway : TurnedAway l conn p
    · obtain ⟨e, he, heq⟩ := authLoginReq_turnedAway l p hlive haway
      rw [heq]
      exact .refuses (loginKept_refl hlive) (silent_refl s) (unwelcome_error he rfl _)
    · obtain ⟨-, -, msg, -, -, heq⟩ := authLoginReq_passed l env fill p hlive haway
      rw [heq]
      exact .claims haway
  | serverLoginReq =>
    rw [Action.run]
    rcases serverLoginReq_cases l env fill conn.handle p s with
      ⟨msg, -, heq⟩ | ⟨fault, heq⟩ | ⟨msg, login, -, -, heq⟩
    · rw [heq]
      exact .asks rfl
    · rw [heq]
      exact .fails (loginKept_refl hlive) (silent_refl s)
    · rw [heq]
      refine .asks ?_
      cases login.error <;> rfl
  | serverLoginRes =>
    rw [Action.run]
    rcases serverLoginRes_spec l env fill ⟨conn.handle, p⟩ s with
      ⟨fault, heq⟩ | ⟨e, msgRsp, he, herror, heq⟩ | ⟨d, other, user, info, secret, ho, heq⟩
    · rw [heq]
      exact .fails (loginKept_refl hlive) (silent_refl s)
    · rw [heq]
      exact .refuses (loginKept_refl hlive) (silent_refl s) (unwelcome_error he herror _)
    · rw [heq]
      cases hlive.find.symm.trans ho.found
      exact .opens ho
  | heartBeatNotify =>
    refine .refuses (loginKept_refl hlive) (silent_refl s) ⟨rfl, fun pdu hpdu => ?_⟩
    cases hpdu

end

/-! ### Passing on -/

/-- The login of `c` is as it was in `s` and no success is reported since `s₀`, or nothing else
    is. -/
def Settled (l : Libs) (c : ConnId) (conn : CMsgSrvConn) (s₀ s t : MsgServer) : Prop :=
  (LoginKept c conn s t ∧ ¬ Told l .noError c s₀ t) ∨ ∀ e, Told l e c s₀ t → e = .noError

section

variable {l : Libs} {env : Env} {fill : Nat → UInt8} {c d : ConnId} {conn : CMsgSrvConn}
  {p : CImPdu} {s₀ s t : MsgServer} {async : Bool} {k : Nat}

theorem Ran.silent {r : HandlerResult} (h : Ran l env fill c conn p s r) : Silent s r.1 := by
  cases h with
  | fails _ hsilent => exact hsilent
  | refuses _ hsilent _ => exact hsilent
  | claims _ => exact silent_refl s
  | asks hevent => exact silent_record hevent
  | opens _ => exact ⟨_, rfl, rfl⟩

/-- What can become of a response. -/
theorem respond_spec (l : Libs) (env : Env) (async : Bool) (k : Nat)
    (again : CImPdu → MsgServer → MsgServer × Option Fault) (c : ConnId) (handle : UInt32)
    (response : CResponse) (s : MsgServer) :
    respond l env async k again c handle response s = (s, none) ∨
    (∃ pdu, response.pdu = some pdu ∧ response.isNext = false ∧
      respond l env async k again c handle response s = (s.sendPdu c pdu, none)) ∨
    (response.isNext = true ∧ async = true ∧ ∃ pdu, response.pdu = some pdu ∧
      respond l env async k again c handle response s =
        ({ s with pending := s.pending ++ [⟨c, handle, pdu.setReversed handle⟩] }, none)) ∨
    (response.isNext = true ∧ async = true ∧ ∃ pdu, response.pdu = some pdu ∧
      respond l env async k again c handle response s = (s.sendPdu c ((msgPdu (env.heap (2 * k + 1))
        (l.proto.heartBeatNotify.serialize {}) pdu.getCommandId pdu.getSeqNum).setFlag
          (UInt16.ofNat ERR.eReasonNoDbServer.code)), none)) ∨
    (response.isNext = true ∧ async = false ∧ ∃ pdu, response.pdu = some pdu ∧
      respond l env async k again c handle response s = again pdu s) := by
  rw [respond]
  split
  · rename_i pdu hvalid hpdu
    split
    · rename_i hnext
      cases async with
      | true =>
        rw [if_pos rfl]
        split
        · exact .inr (.inr (.inl ⟨hnext, rfl, pdu, hpdu, rfl⟩))
        · exact .inr (.inr (.inr (.inl ⟨hnext, rfl, pdu, hpdu, rfl⟩)))
      | false => exact .inr (.inr (.inr (.inr ⟨hnext, rfl, pdu, hpdu, rfl⟩)))
    · rename_i hnext
      exact .inr (.inl ⟨pdu, hpdu, by simpa using hnext, rfl⟩)
  · exact .inl rfl

/-- A PDU that is handled on `d` is answered on `d`. -/
theorem sentSince_handleNext (hpaired : Paired s) (hs : Silent s₀ s) :
    ∀ x ∈ sentSince s₀ (handleNextResponse l env async k d p s).1, x.1 = d := by
  have hnothing {u : MsgServer} (hu : Silent s₀ u) : ∀ x ∈ sentSince s₀ u, x.1 = d := by
    rw [hu.sentSince]
    exact fun x hx => by cases hx
  have hsent {u : MsgServer} (hu : Silent s₀ u) (pdu : CImPdu) :
      ∀ x ∈ sentSince s₀ (u.sendPdu d pdu), x.1 = d := by
    intro x hx
    rw [hu.sentSince_sendPdu] at hx
    rw [List.mem_singleton.mp hx]
  induction k generalizing s p with
  | zero => exact hnothing hs
  | succ k ih =>
    rw [handleNextResponse]
    split
    · exact hnothing hs
    rename_i conn hconn
    split
    · exact hsent hs p
    rename_i action haction
    split
    · exact hsent hs _
    have hlive := hpaired.live hconn
    have hran : Silent s (action.run l env (env.heap (2 * k)) ⟨conn.handle, p⟩ s).1 :=
      (ran hlive action).silent
    have htouched := hpaired.touched hconn
      (touches_run l env (env.heap (2 * k)) p action hlive).1
    split
    · rename_i u fault heq
      rw [heq] at hran
      exact hnothing (hs.trans hran)
    · rename_i u response heq
      rw [heq] at hran htouched
      have hu := hs.trans hran
      rcases respond_spec l env async k (handleNextResponse l env async k d) d conn.handle
        response u with
        h | ⟨pdu, -, -, h⟩ | ⟨-, -, pdu, -, h⟩ | ⟨-, -, pdu, -, h⟩ | ⟨-, -, pdu, -, h⟩
      · rw [h]
        exact hnothing hu
      · rw [h]
        exact hsent hu pdu
      · rw [h]
        exact hnothing (u := { u with pending := _ }) hu
      · rw [h]
        exact hsent hu _
      · rw [h]
        exact ih htouched hu

theorem not_told_handleNext (hpaired : Paired s) (hs : Silent s₀ s) (hd : d ≠ c) (e : ERR) :
    ¬ Told l e c s₀ (handleNextResponse l env async k d p s).1 := by
  rintro ⟨x, hx, hc, -⟩
  exact hd ((sentSince_handleNext hpaired hs x hx).symm.trans hc)

theorem settled_of_silent (hkept : LoginKept c conn s t) (ht : Silent s₀ t) :
    Settled l c conn s₀ s t := .inl ⟨hkept, not_told_of_silent ht⟩

theorem Settled.of_users {u : MsgServer} (h : Settled l c conn s₀ u t) (hu : u.users = s.users) :
    Settled l c conn s₀ s t := by
  rcases h with ⟨hkept, htold⟩ | htold
  · exact .inl ⟨⟨hkept.users.trans hu, hkept.conn⟩, htold⟩
  · exact .inr htold

/-- A reply that reports no success. -/
theorem settled_sendPdu (hkept : LoginKept c conn s t) (ht : Silent s₀ t) {pdu : CImPdu}
    (hpdu : ¬ Carries l .noError pdu) : Settled l c conn s₀ s (t.sendPdu c pdu) := by
  refine .inl ⟨hkept.sendPdu pdu, ?_⟩
  rw [told_sendPdu_iff ht]
  exact fun h => hpdu h.2

/-- What is sent in place of a request that cannot be passed on is no reply to a login. -/
theorem not_carries_heartBeat {cid seq flag : UInt16} (hcid : cid ≠ cidAuthLoginRes) (e : ERR) :
    ¬ Carries l e ((msgPdu fill (l.proto.heartBeatNotify.serialize {}) cid seq).setFlag flag) := by
  rintro ⟨h, -⟩
  obtain ⟨-, hpdu, -, -⟩ := msgPdu_spec fill cid seq
    (fun {b} h => l.proto.heartBeatNotify.length_lt h)
  exact hcid (hpdu.symm.trans h)

/-- There is no business server for a login. -/
theorem not_carries_closed {seq : UInt16} : ¬ Carries l .noError (msgPdu fill
    (l.proto.authLoginRes.serialize { error := some .eReasonNoDbServer }) cidAuthLoginRes seq) := by
  rintro ⟨-, h⟩
  obtain ⟨-, -, -, hbody⟩ := msgPdu_spec fill cidAuthLoginRes seq
    (fun {b} h => l.proto.authLoginRes.length_lt h)
  rw [hbody] at h
  rcases parse_passed l.proto.authLoginRes { error := some .eReasonNoDbServer } with
    hparse | ⟨-, hparse⟩
  · rw [hparse] at h
    cases h
  · rw [hparse] at h
    cases h

section

variable {again : CImPdu → MsgServer → MsgServer × Option Fault} {handle : UInt32}

theorem settled_refused (hkept : LoginKept c conn s t) (ht : Silent s₀ t) {r : CResponse}
    (hr : Unwelcome l r) :
    Settled l c conn s₀ s (respond l env async k again c handle r t).1 := by
  rcases respond_spec l env async k again c handle r t with
    h | ⟨pdu, hpdu, -, h⟩ | ⟨hnext, -⟩ | ⟨hnext, -⟩ | ⟨hnext, -⟩
  · rw [h]
    exact settled_of_silent hkept ht
  · rw [h]
    exact settled_sendPdu hkept ht (hr.pdu pdu hpdu)
  all_goals exact absurd (hr.isNext.symm.trans hnext) (by simp)

/-- The answer of a business server goes on to the next handler. -/
theorem settled_asked (hlive : Live t c conn) (husers : t.users = s.users) (ht : Silent s₀ t)
    {msgRsp : ServerLoginRes}
    (hagain : ∀ pdu, pdu.getCommandId = cidServerLoginRes →
      Settled l c conn s₀ s (again pdu t).1) :
    Settled l c conn s₀ s
      (respond l env async k again c handle (loginResult l fill p msgRsp) t).1 := by
  have hkept : LoginKept c conn s t := ⟨husers, conn, hlive, rfl, SameLogin.refl conn⟩
  have hcid : ∀ pdu, (loginResult l fill p msgRsp).pdu = some pdu →
      pdu.getCommandId = cidServerLoginRes := by
    intro pdu hpdu
    cases hpdu
    exact (resultPdu_spec l _ msgRsp _).1
  rcases respond_spec l env async k again c handle (loginResult l fill p msgRsp) t with
    h | ⟨pdu, -, hnext, -⟩ | ⟨-, -, pdu, -, h⟩ | ⟨-, -, pdu, hpdu, h⟩ | ⟨-, -, pdu, hpdu, h⟩
  · rw [h]
    exact settled_of_silent hkept ht
  · cases hnext
  · rw [h]
    exact settled_of_silent
      ⟨husers, conn, ⟨hlive.object, hlive.map⟩, rfl, SameLogin.refl conn⟩ ht
  · rw [h, hcid pdu hpdu]
    exact settled_sendPdu hkept ht (not_carries_heartBeat (by decide) .noError)
  · rw [h]
    exact hagain pdu (hcid pdu hpdu)

/-- The reply to a login that succeeded is that there was no error. -/
theorem settled_opened (ht : Silent s₀ t) {msgRsp : AuthLoginRes}
    (herror : msgRsp.error = some .noError) {ctx : CRequest} :
    Settled l c conn s₀ s
      (respond l env async k again c handle (authLoginRes l fill msgRsp ctx) t).1 := by
  right
  intro e htold
  rcases respond_spec l env async k again c handle (authLoginRes l fill msgRsp ctx) t with
    h | ⟨pdu, hpdu, -, h⟩ | ⟨hnext, -⟩ | ⟨hnext, -⟩ | ⟨hnext, -⟩
  · rw [h] at htold
    exact absurd htold (not_told_of_silent ht)
  · cases hpdu
    rw [h, told_sendPdu_iff ht] at htold
    exact error_of_carries herror htold.2
  all_goals cases hnext

end

/-- **Handling a PDU** on a connection without a captcha. No login can be claimed there, so a login
    fails without a trace or succeeds. -/
theorem handled (hlive : Live s c conn) (hcaptcha : conn.captcha = [])
    (haction : getHandler p.getCommandId ≠ none) (hs : Silent s₀ s) :
    Settled l c conn s₀ s (handleNextResponse l env async k c p s).1 := by
  induction k generalizing s p with
  | zero => exact settled_of_silent (loginKept_refl hlive) hs
  | succ k ih =>
    rw [handleNextResponse, hlive.object]
    dsimp only
    split
    · rename_i hnone
      exact absurd hnone haction
    rename_i action _
    split
    · exact settled_sendPdu (loginKept_refl hlive) hs not_carries_closed
    have hran : Ran l env (env.heap (2 * k)) c conn p s
      (action.run l env (env.heap (2 * k)) ⟨conn.handle, p⟩ s) := ran hlive action
    generalize action.run l env (env.heap (2 * k)) ⟨conn.handle, p⟩ s = result at hran ⊢
    cases hran with
    | fails hkept hsilent => exact settled_of_silent hkept (hs.trans hsilent)
    | refuses hkept hsilent hr => exact settled_refused hkept (hs.trans hsilent) hr
    | claims haway => exact absurd (.inr (.inl hcaptcha)) haway
    | @asks event msgRsp hevent =>
      have hu := hs.trans (silent_record hevent)
      have husers : (s.record event).users = s.users := rfl
      refine settled_asked (hlive.record event) husers hu fun pdu hcid => ?_
      refine (ih (hlive.record event) ?_ hu).of_users rfl
      rw [hcid]
      decide
    | opens ho => exact settled_opened (hs.trans ⟨_, rfl, rfl⟩) rfl

end

/-! ### Attempts -/

/-- A request that the message server passes on has no part in what it does with the answer. -/
theorem runRequest_spec (l : Libs) (a : AsyncEnv) (connUuid : UInt32) (request : CImPdu)
    (b : Worker) :
    (∀ s, runRequest l a connUuid request b s = none) ∨
    (∃ fault, ∀ s, runRequest l a connUuid request b s = some (s, fault)) ∨
    ∃ q, ∀ s, runRequest l a connUuid request b s = some (handleBusinessPdu l a.back q s) := by
  simp only [runRequest]
  split
  · exact .inr (.inl ⟨none, fun s => rfl⟩)
  split
  · exact .inr (.inl ⟨none, fun s => rfl⟩)
  split
  · exact .inl fun s => rfl
  · rename_i fault _
    exact .inr (.inl ⟨some fault, fun s => rfl⟩)
  · simp only [returnResponse]
    split
    · exact .inr (.inl ⟨none, fun s => rfl⟩)
    · rename_i q _
      exact .inr (.inr ⟨q, fun s => rfl⟩)

/-- The response when a claim was noted. -/
def loginNext (l : Libs) (env : Env) (conn : CMsgSrvConn) (p : CImPdu) (msg : AuthLoginReq) :
    CResponse :=
  .next (env.heap (2 * 2)) (l.proto.serverLoginReq.serialize (loginRequest conn msg))
    cidServerLoginReq p.getSeqNum

/-- The request in it. -/
def loginNextPdu (l : Libs) (env : Env) (conn : CMsgSrvConn) (p : CImPdu) (msg : AuthLoginReq) :
    CImPdu :=
  msgPdu (env.heap (2 * 2)) (l.proto.serverLoginReq.serialize (loginRequest conn msg))
    cidServerLoginReq p.getSeqNum

section

variable {l : Libs} {env : Env} {c : ConnId} {conn : CMsgSrvConn} {p : CImPdu} {s₀ s t : MsgServer}
  {async : Bool} {m : Means}

theorem pdu_loginNext (l : Libs) (env : Env) (conn : CMsgSrvConn) (p : CImPdu)
    (msg : AuthLoginReq) :
    (loginNext l env conn p msg).pdu = some (loginNextPdu l env conn p msg) := rfl

theorem commandId_loginNextPdu (l : Libs) (env : Env) (conn : CMsgSrvConn) (p : CImPdu)
    (msg : AuthLoginReq) : (loginNextPdu l env conn p msg).getCommandId = cidServerLoginReq :=
  (requestPdu_spec l _ _ _).1

theorem getHandler_authLoginReq (hcid : p.getCommandId = cidAuthLoginReq) :
    getHandler p.getCommandId = some .authLoginReq := by
  rw [hcid]
  rfl

/-- The handler of a login is called. -/
theorem open_of_not_closed (h : ¬ (async = true ∧ env.loginConnOpen = false)) :
    async = true → p.getCommandId = cidAuthLoginReq → env.loginConnOpen = true := by
  intro hasync _
  rw [← Bool.not_eq_false]
  exact fun hclosed => h ⟨hasync, hclosed⟩

/-- A login that is refused before anything was written. -/
theorem login_refused (env : Env) (async : Bool) (hlive : Live s c conn)
    (hcid : p.getCommandId = cidAuthLoginReq)
    (h : TurnedAway l conn p ∨ (async = true ∧ env.loginConnOpen = false)) :
    ∃ t, handlePdu l env async c p s = (t, none) ∧ LoginKept c conn s t ∧
      ¬ Told l .noError c s t ∧ t.pending = s.pending := by
  have hkept := loginKept_refl hlive
  have hsent {pdu : CImPdu} (hpdu : ¬ Carries l .noError pdu) :
      LoginKept c conn s (s.sendPdu c pdu) ∧ ¬ Told l .noError c s (s.sendPdu c pdu) ∧
        (s.sendPdu c pdu).pending = s.pending := by
    refine ⟨hkept.sendPdu pdu, ?_, rfl⟩
    rw [told_sendPdu_iff (silent_refl s)]
    exact fun h => hpdu h.2
  by_cases hclosed : async = true ∧ env.loginConnOpen = false
  · rw [handlePdu, handleNextResponse, hlive.object]
    dsimp only
    rw [getHandler_authLoginReq hcid]
    dsimp only
    rw [if_pos ⟨hclosed.1, hcid, hclosed.2⟩]
    exact ⟨_, rfl, hsent not_carries_closed⟩
  · have haway := h.resolve_right hclosed
    obtain ⟨e, he, heq⟩ := authLoginReq_turnedAway l p hlive haway
    rw [handlePdu, handleNext_of_handler l env hlive.object (getHandler_authLoginReq hcid)
      (open_of_not_closed hclosed), Action.run, heq]
    dsimp only
    rw [authLoginRes]
    rcases respond_sendMsg l env async (env.heap (2 * 2))
      (l.proto.authLoginRes.serialize { error := some e }) cidAuthLoginRes p.getSeqNum with
      hrespond | hrespond
    · rw [hrespond]
      exact ⟨s, rfl, hkept, not_told_of_silent (silent_refl s), rfl⟩
    · rw [hrespond]
      refine ⟨_, rfl, hsent fun hcarries => ?_⟩
      exact he (error_of_carries rfl hcarries).symm

/-- A login that is not: the claim is noted, and the request passed on. -/
theorem login_claimed (hlive : Live s c conn) (hcid : p.getCommandId = cidAuthLoginReq)
    (haway : ¬ TurnedAway l conn p) (hopen : ¬ (async = true ∧ env.loginConnOpen = false)) :
    ∃ msg, l.proto.authLoginReq.parse p.body = (msg, true) ∧
      handlePdu l env async c p s = respond l env async 2 (handleNextResponse l env async 2 c) c
        conn.handle (loginNext l env conn p msg) (claimed env s c conn msg) := by
  obtain ⟨-, -, msg, hparse, -, heq⟩ := authLoginReq_passed l env (env.heap (2 * 2)) p hlive haway
  refine ⟨msg, hparse, ?_⟩
  rw [handlePdu, handleNext_of_handler l env hlive.object (getHandler_authLoginReq hcid)
    (open_of_not_closed hopen), Action.run, heq]
  rfl

/-- The answer to a request of `c` may go to another connection, if it is not one of this server. -/
theorem settled_handleBusinessPdu (hpaired : Paired s) (hlive : Live s c conn)
    (hcaptcha : conn.captcha = []) (hs : Silent s₀ s) (q : CImPdu) :
    Settled l c conn s₀ s (handleBusinessPdu l env q s).1 := by
  rw [handleBusinessPdu]
  split
  · exact settled_of_silent (loginKept_refl hlive) hs
  rename_i action haction
  split
  · exact settled_of_silent (loginKept_refl hlive) hs
  rename_i d other hfind
  by_cases hd : d = c
  · subst hd
    refine handled hlive hcaptcha ?_ hs
    rw [haction]
    exact Option.some_ne_none _
  · exact .inr fun e htold => absurd htold (not_told_handleNext hpaired hs hd e)

theorem paired_claimed (hpaired : Paired s) (hconn : s.conns.find c = some conn)
    (msg : AuthLoginReq) : Paired (claimed env s c conn msg) :=
  hpaired.touched hconn ⟨rfl, rfl, .inr ⟨claimedConn env conn msg, rfl, rfl⟩⟩

/-- A claim that was noted, in synchronous mode. -/
theorem settled_claimed_sync (hlive : Live s c conn) (hcid : p.getCommandId = cidAuthLoginReq)
    (haway : ¬ TurnedAway l conn p) :
    ∃ msg, l.proto.authLoginReq.parse p.body = (msg, true) ∧
      Settled l c (claimedConn env conn msg) s (claimed env s c conn msg)
        (handlePdu l env false c p s).1 := by
  have hopen : ¬ (false = true ∧ env.loginConnOpen = false) := by simp
  obtain ⟨msg, hparse, heq⟩ := login_claimed hlive hcid haway hopen
  have hclaimed := live_claimed env hlive msg
  refine ⟨msg, hparse, ?_⟩
  rw [heq]
  rcases respond_spec l env false 2 (handleNextResponse l env false 2 c) c conn.handle
      (loginNext l env conn p msg) (claimed env s c conn msg) with
    h | ⟨pdu, -, hnext, -⟩ | ⟨-, hasync, -⟩ | ⟨-, hasync, -⟩ | ⟨-, -, pdu, hpdu, h⟩
  · rw [h]
    exact settled_of_silent (loginKept_refl hclaimed) (silent_refl s)
  · cases hnext
  · cases hasync
  · cases hasync
  · rw [h]
    refine handled hclaimed rfl ?_ (silent_refl s)
    cases (pdu_loginNext l env conn p msg).symm.trans hpdu
    rw [commandId_loginNextPdu]
    decide

section

variable {a : AsyncEnv} {connUuid : UInt32} {b : Worker} {msg : AuthLoginReq}

/-- The login ends in the message server when nothing was passed on. -/
theorem asyncLogin_of_handled (h : handlePdu l a.forward true c p s = (t, none))
    (hpending : t.pending = s.pending) : asyncLogin l a connUuid c p b s = some (t, none) := by
  have hnone : t.pending[s.pending.length]? = none := by
    rw [hpending]
    exact List.getElem?_eq_none (Nat.le_refl _)
  rw [asyncLogin, h]
  dsimp only
  rw [hnone]

variable (heq : handlePdu l a.forward true c p s = respond l a.forward true 2
    (handleNextResponse l a.forward true 2 c) c conn.handle (loginNext l a.forward conn p msg)
    (claimed a.forward s c conn msg))
include heq

/-- The request reaches the business server. -/
theorem asyncLogin_forwarded (hvalid : (loginNext l a.forward conn p msg).isPduValid = true)
    (hopen : a.forward.businessConnOpen = true) :
    asyncLogin l a connUuid c p b s = runRequest l a connUuid
      ((loginNextPdu l a.forward conn p msg).setReversed conn.handle) b
      (claimed a.forward s c conn msg) := by
  have hrespond : handlePdu l a.forward true c p s = ({ claimed a.forward s c conn msg with
      pending := s.pending ++ [⟨c, conn.handle,
        (loginNextPdu l a.forward conn p msg).setReversed conn.handle⟩] }, none) := by
    rw [heq, respond, hvalid, pdu_loginNext, hopen]
    rfl
  rw [asyncLogin, hrespond]
  dsimp only
  rw [List.getElem?_concat_length]
  rfl

/-- Or it does not, and nothing is said about the login. -/
theorem asyncLogin_dropped (h : ¬ ((loginNext l a.forward conn p msg).isPduValid = true ∧
      a.forward.businessConnOpen = true)) :
    ∃ t, asyncLogin l a connUuid c p b s = some (t, none) ∧ ∀ e, ¬ Told l e c s t := by
  cases hvalid : (loginNext l a.forward conn p msg).isPduValid with
  | false =>
    rw [respond, hvalid] at heq
    exact ⟨_, asyncLogin_of_handled heq rfl, fun e => not_told_of_silent (silent_refl s)⟩
  | true =>
    have hclosed : a.forward.businessConnOpen = false := by
      rw [← Bool.not_eq_true]
      exact fun hopen => h ⟨hvalid, hopen⟩
    rw [respond, hvalid, pdu_loginNext, hclosed] at heq
    refine ⟨_, asyncLogin_of_handled heq rfl, fun e => ?_⟩
    have hsilent : Silent s (claimed a.forward s c conn msg) := silent_refl s
    rw [told_sendPdu_iff hsilent, commandId_loginNextPdu]
    exact fun htold => not_carries_heartBeat (by decide) e htold.2

end

/-- And by way of a business server. -/
theorem settled_claimed_async (hpaired : Paired s) (hlive : Live s c conn)
    (hcid : p.getCommandId = cidAuthLoginReq) (haway : ¬ TurnedAway l conn p) {a : AsyncEnv}
    (hopen : ¬ a.forward.loginConnOpen = false) {connUuid : UInt32} {b : Worker}
    {fault : Option Fault} (hlogin : asyncLogin l a connUuid c p b s = some (t, fault)) :
    ∃ msg, l.proto.authLoginReq.parse p.body = (msg, true) ∧
      Settled l c (claimedConn a.forward conn msg) s (claimed a.forward s c conn msg) t := by
  have hopen' : ¬ (true = true ∧ a.forward.loginConnOpen = false) := fun h => hopen h.2
  obtain ⟨msg, hparse, heq⟩ := login_claimed hlive hcid haway hopen'
  have hclaimed := live_claimed a.forward hlive msg
  refine ⟨msg, hparse, ?_⟩
  by_cases hforward : (loginNext l a.forward conn p msg).isPduValid = true ∧
      a.forward.businessConnOpen = true
  · rw [asyncLogin_forwarded heq hforward.1 hforward.2] at hlogin
    rcases runRequest_spec l a connUuid ((loginNextPdu l a.forward conn p msg).setReversed
      conn.handle) b with hrun | ⟨fault', hrun⟩ | ⟨q, hrun⟩
    · rw [hrun] at hlogin
      cases hlogin
    · rw [hrun] at hlogin
      cases hlogin
      exact settled_of_silent (loginKept_refl hclaimed) (silent_refl s)
    · rw [hrun] at hlogin
      have ht : (handleBusinessPdu l a.back q (claimed a.forward s c conn msg)).1 = t :=
        congrArg Prod.fst (Option.some.inj hlogin)
      rw [← ht]
      exact settled_handleBusinessPdu (paired_claimed hpaired hlive.object msg) hclaimed rfl
        (silent_refl s) q
  · obtain ⟨u, hdropped, hsilent⟩ := asyncLogin_dropped heq hforward
    cases hdropped.symm.trans hlogin
    exact .inr fun e htold => absurd htold (hsilent e)

/-- A login that `AuthLoginReq` refuses, or that there is no business server for. -/
theorem refused_spec (hlive : Live s c conn) (hcid : p.getCommandId = cidAuthLoginReq)
    (h : TurnedAway l conn p ∨ m.Closed) (hlogin : m.login l c p s = some t) :
    LoginKept c conn s t ∧ ¬ Told l .noError c s t := by
  cases m with
  | sync env =>
    obtain ⟨u, heq, hkept, htold, -⟩ := login_refused env false hlive hcid h
    rw [Means.login, heq] at hlogin
    cases hlogin
    exact ⟨hkept, htold⟩
  | async a connUuid b =>
    obtain ⟨u, heq, hkept, htold, hpending⟩ := login_refused a.forward true hlive hcid h
    rw [Means.login, asyncLogin_of_handled heq hpending] at hlogin
    cases hlogin
    exact ⟨hkept, htold⟩

/-- Any other login leaves the claim, whatever comes of it. -/
theorem claimed_spec (hpaired : Paired s) (hlive : Live s c conn)
    (hcid : p.getCommandId = cidAuthLoginReq) (haway : ¬ TurnedAway l conn p) (hopen : ¬ m.Closed)
    (hlogin : m.login l c p s = some t) :
    ∃ msg, l.proto.authLoginReq.parse p.body = (msg, true) ∧
      Settled l c (claimedConn m.env conn msg) s (claimed m.env s c conn msg) t := by
  cases m with
  | sync env =>
    cases hlogin
    exact settled_claimed_sync hlive hcid haway
  | async a connUuid b =>
    obtain ⟨⟨u, fault⟩, hasync, hu⟩ := Option.map_eq_some_iff.mp hlogin
    cases hu
    exact settled_claimed_async hpaired hlive hcid haway (fun h => hopen ⟨rfl, h⟩) hasync

end

end FailedLogin

end Server
end Proof
end PtpCore
