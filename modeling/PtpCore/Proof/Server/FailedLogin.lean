import PtpCore.Proof.Server.LoginAttempt

/-!
# A login that fails (`ptp_server/actions/AuthAction.cpp`)

What a login that fails leaves behind: the connection has an address, and every login on it is
refused from then on. Nothing is left behind just when there was nothing to do: `AuthLoginReq`
refused the login itself, or what it wrote was there before. The next login is compared with the
same login on a connection that is new.
-/

namespace PtpCore
namespace Proof
namespace Server

open Lib Proto PtpCore.Crypto
open PtpCore.Global PtpCore.Server
open PtpCore.Proof.Global

namespace FailedLogin

open UserTable

/-! ### What is wanted -/

/-- What a login that fails is to leave as it was. -/
structure Intact (c : ConnId) (s t : MsgServer) : Prop where
  conn : ∀ conn, s.conns.find c = some conn → ∃ conn', t.conns.find c = some conn' ∧
    conn'.address = conn.address ∧ SameLogin conn conn'
  byId : ∀ userId, t.users.getImUserById userId = s.users.getImUserById userId
  byAddress : ∀ address, t.users.getImUserByAddress address = s.users.getImUserByAddress address
  connMaps : ∀ user handle, (t.users.users.find user).map (fun u => u.connMap.find handle) =
    (s.users.users.find user).map fun u => u.connMap.find handle

/-- A captcha is asked for, and then a login made. -/
structure Relogin where
  env : Env
  captcha : CImPdu
  means : Means
  login : CImPdu

def Relogin.issued (r : Relogin) (l : Libs) (c : ConnId) (s : MsgServer) : MsgServer :=
  (handlePdu l r.env r.means.isAsync c r.captcha s).1

def Relogin.Succeeds (r : Relogin) (l : Libs) (c : ConnId) (s : MsgServer) : Prop :=
  ∃ t, r.means.login l c r.login (r.issued l c s) = some t ∧
    Told l .noError c (r.issued l c s) t

/-- The captcha is given, and the login succeeds on a connection that is new. -/
structure Relogin.Valid (r : Relogin) (l : Libs) (handle : UInt32) : Prop where
  captchaId : r.captcha.getCommandId = cidAuthCaptchaReq
  parsed : (l.proto.authCaptchaReq.parse r.captcha.body).2 = true
  keyed : hexToString ((captchaKey l r.env).2.drop 2) ≠ none
  loginId : r.login.getCommandId = cidAuthLoginReq
  succeeds : r.Succeeds l 0 (MsgServer.empty.onConnect handle)

/-- The user of the address has the connection already. -/
def Joined (s : MsgServer) (c : ConnId) (handle : UInt32) (address : Bytes) : Prop :=
  ∃ user u, s.users.getImUserByAddress address = some user ∧ s.users.users.find user = some u ∧
    u.connMap.find handle = some c

/-- There is nothing to take back. The connection has no address, and `AuthLoginReq` refuses the
    login itself; or the empty address is claimed and the user of that address has the connection. -/
structure NothingDone (l : Libs) (m : Means) (c : ConnId) (conn : CMsgSrvConn) (p : CImPdu)
    (s : MsgServer) : Prop where
  address : conn.address = []
  refused : TurnedAway l conn p ∨ m.Closed ∨
    ∃ msg, l.proto.authLoginReq.parse p.body = (msg, true) ∧ msg.address.getD [] = [] ∧
      Joined s c conn.handle []

/-! ### Two servers -/

/-- The connection `c` of `s` has what a login asks for just as `c₀` of `s₀` does, and a user that
    `s₀` finds is found in `s` too. -/
structure Alike (c₀ : ConnId) (conn₀ : CMsgSrvConn) (s₀ : MsgServer) (c : ConnId)
    (conn : CMsgSrvConn) (s : MsgServer) : Prop where
  live₀ : Live s₀ c₀ conn₀
  live : Live s c conn
  handle : conn.handle = conn₀.handle
  address : conn.address = conn₀.address
  captcha : conn.captcha = conn₀.captcha
  prvKey : conn.prvKey = conn₀.prvKey
  users : ∀ address, s.users.getImUserByAddress address = none →
    s₀.users.getImUserByAddress address = none

theorem imUserAddressMap_modify (m : CImUserManager) (user : UserRef) (f : CImUser → CImUser) :
    (m.modify user f).imUserAddressMap = m.imUserAddressMap := by
  rw [CImUserManager.modify]
  split
  · rfl
  · rfl

theorem imUserAddressMap_addImUserById (m : CImUserManager) (userId : UInt32) (user : UserRef) :
    (m.addImUserById userId user).imUserAddressMap = m.imUserAddressMap := by
  rw [CImUserManager.addImUserById]
  split
  · rfl
  · rfl

/-- After a claim the users are those there were, and the one of the address. -/
theorem getImUserByAddress_loginUser {m : CImUserManager} {c : ConnId} {handle : UInt32}
    {address a : Bytes} : (loginUser m c handle address).getImUserByAddress a = none ↔
      a ≠ address ∧ m.getImUserByAddress a = none := by
  cases hfind : m.imUserAddressMap.find address with
  | none =>
    rw [loginUser_new hfind]
    by_cases ha : a = address
    · subst ha
      rw [CImUserManager.getImUserByAddress, Assoc.find_set_self]
      simp
    · rw [CImUserManager.getImUserByAddress, Assoc.find_set_of_ne _ _ ha]
      exact ⟨fun h => ⟨ha, h⟩, fun h => h.2⟩
  | some user =>
    have hmap : (loginUser m c handle address).imUserAddressMap = m.imUserAddressMap := by
      rw [loginUser, CImUserManager.getImUserByAddress, hfind]
      exact imUserAddressMap_modify m user _
    rw [CImUserManager.getImUserByAddress, hmap]
    refine ⟨fun h => ⟨?_, h⟩, fun h => h.2⟩
    rintro rfl
    rw [hfind] at h
    cases h

section

variable {l : Libs} {env : Env} {fill : Nat → UInt8} {c₀ c : ConnId} {conn₀ conn : CMsgSrvConn}
  {s₀ s b₀ b : MsgServer} {p : CImPdu} {async : Bool} {k : Nat}

theorem Alike.claimed (h : Alike c₀ conn₀ s₀ c conn s) (msg : AuthLoginReq) :
    Alike c₀ (claimedConn env conn₀ msg) (claimed env s₀ c₀ conn₀ msg) c
      (claimedConn env conn msg) (claimed env s c conn msg) where
  live₀ := live_claimed env h.live₀ msg
  live := live_claimed env h.live msg
  handle := h.handle
  address := rfl
  captcha := rfl
  prvKey := h.prvKey
  users address hnone := by
    obtain ⟨hne, hnone⟩ := getImUserByAddress_loginUser.mp hnone
    exact getImUserByAddress_loginUser.mpr ⟨hne, h.users address hnone⟩

theorem Alike.record (h : Alike c₀ conn₀ s₀ c conn s) (event : Event) :
    Alike c₀ conn₀ (s₀.record event) c conn (s.record event) :=
  ⟨h.live₀.record event, h.live.record event, h.handle, h.address, h.captcha, h.prvKey, h.users⟩

theorem Alike.openConn (h : Alike c₀ conn₀ s₀ c conn s) (user₀ user : UserRef) (info : UserInfo)
    (secret : Bytes) :
    Alike c₀ (openedConn conn₀ info secret)
      (openConn s₀ c₀ conn₀ user₀ conn₀.handle info secret) c (openedConn conn info secret)
      (openConn s c conn user conn.handle info secret) := by
  have hlive₀ : Live (s₀.setConn c₀ (openedConn conn₀ info secret)) c₀ _ := live_setConn h.live₀ rfl
  have hlive : Live (s.setConn c (openedConn conn info secret)) c _ := live_setConn h.live rfl
  refine ⟨⟨hlive₀.object, hlive₀.map⟩, ⟨hlive.object, hlive.map⟩, h.handle, h.address, h.captcha,
    h.prvKey, fun address hnone => ?_⟩
  have hmap (s : MsgServer) (d : ConnId) (other : CMsgSrvConn) (r : UserRef) :
      (Server.openConn s d other r other.handle info secret).users.imUserAddressMap =
        s.users.imUserAddressMap :=
    (imUserAddressMap_addImUserById _ _ _).trans (imUserAddressMap_modify _ _ _)
  rw [CImUserManager.getImUserByAddress, hmap] at hnone ⊢
  exact h.users address hnone

theorem Alike.turnedAway (h : Alike c₀ conn₀ s₀ c conn s) :
    TurnedAway l conn p ↔ TurnedAway l conn₀ p := by
  rw [TurnedAway, TurnedAway, h.address, h.captcha]

theorem Alike.loginRequest (h : Alike c₀ conn₀ s₀ c conn s) (msg : AuthLoginReq) :
    loginRequest conn msg = loginRequest conn₀ msg := by
  rw [Server.loginRequest, Server.loginRequest, h.handle]

/-- `ServerLoginReq` does not look at the connections and the users. -/
theorem serverLoginReq_spec (l : Libs) (env : Env) (fill : Nat → UInt8) (p : CImPdu) :
    (∃ fault, ∀ handle s, serverLoginReq l env fill ⟨handle, p⟩ s = (s, .error fault)) ∨
    ∃ event msgRsp, sentPdu event = none ∧ ∀ handle s, serverLoginReq l env fill ⟨handle, p⟩ s =
      (s.record event, .ok (loginResult l fill p msgRsp)) := by
  simp only [serverLoginReq]
  split
  · exact .inr ⟨_, _, rfl, fun _ _ => rfl⟩
  split
  · exact .inl ⟨_, fun _ _ => rfl⟩
  · rename_i login _
    refine .inr ⟨_, _, ?_, fun _ _ => rfl⟩
    cases login.error <;> rfl

/-- `ServerLoginRes` opens a connection that it can. -/
theorem serverLoginRes_of_opens {request : CRequest} {user : UserRef} {info : UserInfo}
    {secret : Bytes} (ho : Opens l env request s c conn user info secret) :
    serverLoginRes l env fill request s =
      (Server.openConn s c conn user request.handle info secret, .ok (authLoginRes l fill
        { error := some .noError, userInfo := some (replyUser info) } request)) := by
  obtain ⟨msg, hparse, hinfo, d, hdecode⟩ := ho.message
  obtain ⟨pubKeyRaw, hpub, hsecret⟩ := ho.agreed
  have hnamed := ho.named
  subst hinfo
  rw [serverLoginRes]
  dsimp only
  rw [hparse]
  dsimp only
  rw [hdecode]
  dsimp only
  rw [hnamed]
  dsimp only
  rw [ho.found]
  dsimp only
  rw [ho.keyed, if_neg Bool.false_ne_true, hpub]
  dsimp only
  rw [hsecret]

/-- **One handler.** On `c₀` it reports no success, or it gives the same response on both. -/
theorem Alike.run (h : Alike c₀ conn₀ s₀ c conn s) (action : Action) :
    (∃ u fault, action.run l env fill ⟨conn₀.handle, p⟩ s₀ = (u, .error fault) ∧ Silent s₀ u) ∨
    (∃ u r, action.run l env fill ⟨conn₀.handle, p⟩ s₀ = (u, .ok r) ∧ Silent s₀ u ∧
      Unwelcome l r) ∨
    ∃ u₀ u conn₀' conn' r, action.run l env fill ⟨conn₀.handle, p⟩ s₀ = (u₀, .ok r) ∧
      action.run l env fill ⟨conn.handle, p⟩ s = (u, .ok r) ∧ Silent s₀ u₀ ∧ Silent s u ∧
      Alike c₀ conn₀' u₀ c conn' u := by
  cases action with
  | authCaptchaReq =>
    simp only [Action.run]
    rcases authCaptchaReq_spec l env fill p h.live₀ with
      ⟨msgRsp, -, heq⟩ | ⟨-, heq⟩ | ⟨msgRsp, heq⟩
    · exact .inr (.inl ⟨_, _, heq, silent_refl s₀, unwelcome_captcha msgRsp _⟩)
    · exact .inl ⟨_, _, heq, ⟨_, rfl, rfl⟩⟩
    · exact .inr (.inl ⟨_, _, heq, ⟨_, rfl, rfl⟩, unwelcome_captcha msgRsp _⟩)
  | authLoginReq =>
    simp only [Action.run]
    by_cases haway : TurnedAway l conn₀ p
    · obtain ⟨e, he, heq⟩ := authLoginReq_turnedAway l p h.live₀ haway
      exact .inr (.inl ⟨_, _, heq env fill, silent_refl s₀, unwelcome_error he rfl _⟩)
    · obtain ⟨-, -, msg, hparse, -, heq₀⟩ := authLoginReq_passed l env fill p h.live₀ haway
      obtain ⟨-, -, msg', hparse', -, heq⟩ := authLoginReq_passed l env fill p h.live
        (fun haway' => haway (h.turnedAway.mp haway'))
      cases hparse.symm.trans hparse'
      rw [h.loginRequest] at heq
      exact .inr (.inr ⟨_, _, _, _, _, heq₀, heq, silent_refl s₀, silent_refl s, h.claimed msg⟩)
  | serverLoginReq =>
    simp only [Action.run]
    rcases serverLoginReq_spec l env fill p with ⟨fault, heq⟩ | ⟨event, msgRsp, hevent, heq⟩
    · exact .inl ⟨_, fault, heq _ s₀, silent_refl s₀⟩
    · exact .inr (.inr ⟨_, _, _, _, _, heq _ s₀, heq _ s, silent_record hevent,
        silent_record hevent, h.record event⟩)
  | serverLoginRes =>
    simp only [Action.run]
    rcases serverLoginRes_spec l env fill ⟨conn₀.handle, p⟩ s₀ with
      ⟨fault, heq⟩ | ⟨e, msgRsp, he, herror, heq⟩ | ⟨d, other, user₀, info, secret, ho, heq⟩
    · exact .inl ⟨_, fault, heq, silent_refl s₀⟩
    · exact .inr (.inl ⟨_, _, heq, silent_refl s₀, unwelcome_error he herror _⟩)
    · cases h.live₀.find.symm.trans ho.found
      have hknown : s.users.getImUserByAddress (info.address.getD []) ≠ none := by
        intro hnone
        cases (h.users _ hnone).symm.trans ho.named
      obtain ⟨user, huser⟩ := Option.ne_none_iff_exists'.mp hknown
      have ho' : Opens l env ⟨conn.handle, p⟩ s c conn user info secret :=
        ⟨ho.message, huser, h.live.find, h.prvKey ▸ ho.keyed, h.prvKey ▸ ho.agreed⟩
      exact .inr (.inr ⟨_, _, _, _, _, heq, serverLoginRes_of_opens ho', ⟨_, rfl, rfl⟩,
        ⟨_, rfl, rfl⟩, h.openConn user₀ user info secret⟩)
  | heartBeatNotify =>
    refine .inr (.inl ⟨s₀, {}, rfl, silent_refl s₀, rfl, fun pdu hpdu => ?_⟩)
    cases hpdu

/-- Of a response that reports no success the client hears of none. -/
theorem not_told_respond {again : CImPdu → MsgServer → MsgServer × Option Fault} {handle : UInt32}
    {r : CResponse} (hs : Silent b s) (hr : Unwelcome l r) :
    ¬ Told l .noError c b (respond l env async k again c handle r s).1 := by
  rcases respond_spec l env async k again c handle r s with
    h | ⟨pdu, hpdu, -, h⟩ | ⟨hnext, -⟩ | ⟨hnext, -⟩ | ⟨hnext, -⟩
  · rw [h]
    exact not_told_of_silent hs
  · rw [h, told_sendPdu_iff hs]
    exact fun htold => hr.pdu pdu hpdu htold.2
  all_goals exact absurd (hr.isNext.symm.trans hnext) (by simp)

theorem told_sendPdu (hs₀ : Silent b₀ s₀) (hs : Silent b s) {pdu : CImPdu}
    (htold : Told l .noError c₀ b₀ (s₀.sendPdu c₀ pdu)) : Told l .noError c b (s.sendPdu c pdu) :=
  (told_sendPdu_iff hs).mpr ⟨rfl, ((told_sendPdu_iff hs₀).mp htold).2⟩

/-- The same response is the same success, if what is passed on is. -/
theorem told_respond {again₀ again : CImPdu → MsgServer → MsgServer × Option Fault}
    {handle₀ handle : UInt32} {r : CResponse} (hs₀ : Silent b₀ s₀) (hs : Silent b s)
    (hagain : ∀ pdu, Told l .noError c₀ b₀ (again₀ pdu s₀).1 → Told l .noError c b (again pdu s).1)
    (htold : Told l .noError c₀ b₀ (respond l env async k again₀ c₀ handle₀ r s₀).1) :
    Told l .noError c b (respond l env async k again c handle r s).1 := by
  rw [respond] at htold ⊢
  split at htold
  · rename_i pdu hvalid hpdu
    split at htold
    · rename_i hnext
      rw [if_pos hnext]
      split at htold
      · rename_i hasync
        rw [if_pos hasync]
        split at htold
        · exact absurd htold (not_told_of_silent (t := { s₀ with pending := _ }) hs₀)
        · rename_i hopen
          rw [if_neg hopen]
          exact told_sendPdu hs₀ hs htold
      · rename_i hasync
        rw [if_neg hasync]
        exact hagain pdu htold
    · rename_i hnext
      rw [if_neg hnext]
      exact told_sendPdu hs₀ hs htold
  · exact absurd htold (not_told_of_silent hs₀)

/-- **One PDU**: what succeeds on `c₀` succeeds on `c`. -/
theorem Alike.told (h : Alike c₀ conn₀ s₀ c conn s) (hs₀ : Silent b₀ s₀) (hs : Silent b s)
    (htold : Told l .noError c₀ b₀ (handleNextResponse l env async k c₀ p s₀).1) :
    Told l .noError c b (handleNextResponse l env async k c p s).1 := by
  induction k generalizing p conn₀ s₀ conn s with
  | zero => exact absurd htold (not_told_of_silent hs₀)
  | succ k ih =>
    rw [handleNextResponse, h.live₀.object] at htold
    rw [handleNextResponse, h.live.object]
    dsimp only at htold ⊢
    cases haction : getHandler p.getCommandId with
    | none =>
      rw [haction] at htold
      exact told_sendPdu hs₀ hs htold
    | some action =>
      rw [haction] at htold
      dsimp only at htold ⊢
      by_cases hclosed : async = true ∧ p.getCommandId = cidAuthLoginReq ∧ env.loginConnOpen = false
      · rw [if_pos hclosed] at htold ⊢
        exact told_sendPdu hs₀ hs htold
      · rw [if_neg hclosed] at htold ⊢
        rcases h.run action with
          ⟨u, fault, heq, hsilent⟩ | ⟨u, r, heq, hsilent, hr⟩ |
          ⟨u₀, u, conn₀', conn', r, heq₀, heq, hsilent₀, hsilent, halike⟩
        · rw [heq] at htold
          exact absurd htold (not_told_of_silent (hs₀.trans hsilent))
        · rw [heq] at htold
          exact absurd htold (not_told_respond (hs₀.trans hsilent) hr)
        · rw [heq₀] at htold
          rw [heq]
          refine told_respond (hs₀.trans hsilent₀) (hs.trans hsilent) (fun pdu => ?_) htold
          exact ih halike (hs₀.trans hsilent₀) (hs.trans hsilent)

/-- An answer of a business server, where `c₀` is the only connection. -/
theorem Alike.told_handleBusinessPdu (h : Alike c₀ conn₀ s₀ c conn s)
    (honly : ∀ handle d, s₀.msgConnMap.find handle = some d → handle = conn₀.handle)
    (hs₀ : Silent b₀ s₀) (hs : Silent b s) {q : CImPdu}
    (htold : Told l .noError c₀ b₀ (handleBusinessPdu l env q s₀).1) :
    Told l .noError c b (handleBusinessPdu l env q s).1 := by
  rw [handleBusinessPdu] at htold ⊢
  split at htold
  · exact absurd htold (not_told_of_silent hs₀)
  split at htold
  · exact absurd htold (not_told_of_silent hs₀)
  rename_i d other hfind
  have hhandle := honly q.getReversed d (find_eq_some hfind).1
  rw [hhandle] at hfind
  cases h.live₀.find.symm.trans hfind
  rw [hhandle, ← h.handle, h.live.find]
  exact h.told hs₀ hs htold

/-- **One login.** A server that has only the connection `c₀` is taken for the other. -/
theorem Alike.login (h : Alike c₀ conn₀ s₀ c conn s)
    (honly : ∀ handle d, s₀.msgConnMap.find handle = some d → handle = conn₀.handle)
    (hcid : p.getCommandId = cidAuthLoginReq) {m : Means} {t₀ : MsgServer}
    (hlogin : m.login l c₀ p s₀ = some t₀) (htold : Told l .noError c₀ s₀ t₀) :
    ∃ t, m.login l c p s = some t ∧ Told l .noError c s t := by
  cases m with
  | sync env =>
    cases hlogin
    exact ⟨_, rfl, h.told (silent_refl s₀) (silent_refl s) htold⟩
  | async a connUuid b =>
    obtain ⟨⟨u₀, fault⟩, hasync, hu₀⟩ := Option.map_eq_some_iff.mp hlogin
    cases hu₀
    by_cases hrefused : TurnedAway l conn₀ p ∨ (true = true ∧ a.forward.loginConnOpen = false)
    · obtain ⟨t, heq, -, hnot, hpending⟩ := login_refused a.forward true h.live₀ hcid hrefused
      cases (asyncLogin_of_handled heq hpending).symm.trans hasync
      exact absurd htold hnot
    have haway₀ : ¬ TurnedAway l conn₀ p := fun haway => hrefused (.inl haway)
    have haway : ¬ TurnedAway l conn p := fun haway => haway₀ (h.turnedAway.mp haway)
    have hopen : ¬ (true = true ∧ a.forward.loginConnOpen = false) := fun h => hrefused (.inr h)
    obtain ⟨msg, hparse, heq₀⟩ := login_claimed h.live₀ hcid haway₀ hopen
    obtain ⟨msg', hparse', heq⟩ := login_claimed h.live hcid haway hopen
    cases hparse.symm.trans hparse'
    have hnext : loginNext l a.forward conn p msg = loginNext l a.forward conn₀ p msg := by
      rw [loginNext, loginNext, h.loginRequest]
    have hpdu : loginNextPdu l a.forward conn p msg = loginNextPdu l a.forward conn₀ p msg := by
      rw [loginNextPdu, loginNextPdu, h.loginRequest]
    by_cases hforward : (loginNext l a.forward conn₀ p msg).isPduValid = true ∧
        a.forward.businessConnOpen = true
    · rw [asyncLogin_forwarded heq₀ hforward.1 hforward.2] at hasync
      have hrequest : asyncLogin l a connUuid c p b s = _ :=
        asyncLogin_forwarded heq (hnext ▸ hforward.1) hforward.2
      rw [hpdu, h.handle] at hrequest
      rcases runRequest_spec l a connUuid ((loginNextPdu l a.forward conn₀ p msg).setReversed
        conn₀.handle) b with hrun | ⟨fault', hrun⟩ | ⟨q, hrun⟩
      · rw [hrun] at hasync
        cases hasync
      · rw [hrun] at hasync
        cases hasync
        exact absurd htold (not_told_of_silent (silent_refl s₀))
      · rw [hrun] at hasync
        have hu₀ : (handleBusinessPdu l a.back q (Server.claimed a.forward s₀ c₀ conn₀ msg)).1 =
          u₀ := congrArg Prod.fst (Option.some.inj hasync)
        rw [← hu₀] at htold
        refine ⟨_, ?_, (h.claimed msg).told_handleBusinessPdu honly (silent_refl s₀)
          (silent_refl s) htold⟩
        rw [Means.login, hrequest, hrun]
        rfl
    · obtain ⟨u, hdropped, hsilent⟩ := asyncLogin_dropped heq₀ hforward
      cases hdropped.symm.trans hasync
      exact absurd htold (hsilent .noError)

end

/-! ### Logging in again -/

section

variable {l : Libs} {c : ConnId} {conn : CMsgSrvConn} {s : MsgServer} {r : Relogin}

/-- A captcha is issued, on any connection. -/
theorem issued_spec {handle : UInt32} (hvalid : r.Valid l handle) (hlive : Live s c conn) :
    Live (r.issued l c s) c (issuedConn l r.env conn) ∧ (r.issued l c s).users = s.users ∧
      (r.issued l c s).msgConnMap = s.msgConnMap := by
  have haction : getHandler r.captcha.getCommandId = some .authCaptchaReq := by
    rw [hvalid.captchaId]
    rfl
  have hset : Live (s.setConn c (issuedConn l r.env conn)) c _ := live_setConn hlive rfl
  rw [Relogin.issued, handlePdu, handleNext_of_handler l r.env hlive.object haction
    fun _ h => absurd (hvalid.captchaId.symm.trans h) (by decide), Action.run]
  rcases authCaptchaReq_spec l r.env (r.env.heap (2 * 2)) r.captcha hlive with
    ⟨msgRsp, hparse, -⟩ | ⟨hkey, -⟩ | ⟨msgRsp, heq⟩
  · rw [hvalid.parsed] at hparse
    cases hparse
  · exact absurd hkey hvalid.keyed
  · rw [heq]
    dsimp only
    rcases respond_sendMsg l r.env r.means.isAsync (r.env.heap (2 * 2))
      (l.proto.authCaptchaRes.serialize msgRsp) cidAuthCaptchaRes r.captcha.getSeqNum with h | h
    · rw [h]
      exact ⟨⟨hset.object, hset.map⟩, rfl, rfl⟩
    · rw [h]
      exact ⟨⟨hset.object, hset.map⟩, rfl, rfl⟩

theorem succeeds_of_valid (hlive : Live s c conn) (haddress : conn.address = [])
    (hvalid : r.Valid l conn.handle) : r.Succeeds l c s := by
  have hnew : Live (MsgServer.empty.onConnect conn.handle) 0 { handle := conn.handle } :=
    ⟨Assoc.find_set_self _ _ _, Assoc.find_insert_self (k := conn.handle) [] 0 rfl⟩
  obtain ⟨hlive₀, husers₀, hmap₀⟩ := issued_spec hvalid hnew
  obtain ⟨hlive', -, -⟩ := issued_spec hvalid hlive
  have halike : Alike 0 (issuedConn l r.env { handle := conn.handle })
      (r.issued l 0 (MsgServer.empty.onConnect conn.handle)) c (issuedConn l r.env conn)
      (r.issued l c s) := by
    refine ⟨hlive₀, hlive', rfl, haddress, rfl, rfl, fun address _ => ?_⟩
    rw [husers₀]
    rfl
  obtain ⟨t₀, hlogin, htold⟩ := hvalid.succeeds
  refine halike.login (fun handle d hfind => ?_) hvalid.loginId hlogin htold
  have hnone : MsgServer.empty.msgConnMap.find conn.handle = none := rfl
  rw [hmap₀, MsgServer.onConnect] at hfind
  rcases (Assoc.find_insert_iff hnone).mp hfind with ⟨hhandle, -⟩ | hempty
  · exact hhandle
  · cases hempty

theorem not_succeeds_of_address (hlive : Live s c conn) (haddress : conn.address ≠ [])
    (hvalid : r.Valid l conn.handle) : ¬ r.Succeeds l c s := by
  rintro ⟨t, hlogin, htold⟩
  exact (refused_spec (issued_spec hvalid hlive).1 hvalid.loginId (.inl (.inl haddress)) hlogin).2
    htold

end

/-! ### Failing -/

section

variable {l : Libs} {c : ConnId} {conn : CMsgSrvConn} {s t : MsgServer} {m : Means} {p : CImPdu}

theorem LoginKept.intact (h : LoginKept c conn s t) (hlive : Live s c conn) : Intact c s t := by
  obtain ⟨conn', hlive', haddress, hsame⟩ := h.conn
  refine ⟨fun other hother => ?_, fun userId => ?_, fun address => ?_, fun user handle => ?_⟩
  · cases hlive.object.symm.trans hother
    exact ⟨conn', hlive'.object, haddress, hsame⟩
  · rw [h.users]
  · rw [h.users]
  · rw [h.users]

/-- A claim that is kept goes unnoticed just when the address and the entry were there before. -/
theorem intact_claimed_iff (hinv : ServerInv s) (hlive : Live s c conn) {env : Env}
    {msg : AuthLoginReq} (h : LoginKept c (claimedConn env conn msg) (claimed env s c conn msg) t) :
    Intact c s t ↔ msg.address.getD [] = conn.address ∧
      Joined s c conn.handle (msg.address.getD []) := by
  obtain ⟨conn', hlive', haddress, hsame⟩ := h.conn
  have husers : t.users = loginUser s.users c conn.handle (msg.address.getD []) := h.users
  have haddress : conn'.address = msg.address.getD [] := haddress
  have hsame : SameLogin conn conn' := ⟨hsame.handle, hsame.userId, hsame.isOpen, hsame.shareKey⟩
  constructor
  · intro hintact
    obtain ⟨other, hother, hkept, -⟩ := hintact.conn conn hlive.object
    cases hlive'.object.symm.trans hother
    refine ⟨haddress.symm.trans hkept, ?_⟩
    have hsome : s.users.getImUserByAddress (msg.address.getD []) ≠ none := by
      intro hnone
      have hnone' := (hintact.byAddress (msg.address.getD [])).trans hnone
      rw [husers] at hnone'
      exact (getImUserByAddress_loginUser.mp hnone').1 rfl
    obtain ⟨user, huser⟩ := Option.ne_none_iff_exists'.mp hsome
    obtain ⟨u, hu, -⟩ := hinv.users.byAddress _ user huser
    refine ⟨user, u, huser, hu, ?_⟩
    have hmaps := hintact.connMaps user conn.handle
    rw [husers, loginUser_old huser hu, hu] at hmaps
    simp only [Assoc.find_set_self, Option.map_some, Option.some.injEq, CImUser.addMsgConn] at hmaps
    exact hmaps.symm
  · rintro ⟨hsameAddress, user, u, huser, hu, hentry⟩
    rw [loginUser_old huser hu] at husers
    refine ⟨fun other hother => ?_, fun userId => ?_, fun address => ?_, fun r handle => ?_⟩
    · cases hlive.object.symm.trans hother
      exact ⟨conn', hlive'.object, haddress.trans hsameAddress, hsame⟩
    · rw [husers]
      rfl
    · rw [husers]
      rfl
    · rw [husers]
      by_cases hr : r = user
      · subst hr
        rw [Assoc.find_set_self, hu, Option.map_some, Option.map_some, CImUser.addMsgConn]
        by_cases hhandle : handle = conn.handle
        · rw [hhandle, hentry, Assoc.find_set_self]
        · rw [Assoc.find_set_of_ne _ _ hhandle]
      · rw [Assoc.find_set_of_ne _ _ hr]

/-- **A login that fails leaves the state as it was, and the next one succeeds, just when there was
    nothing to take back.** -/
theorem intact_iff (l : Libs) (run : List UserStep)
    (hpossible : EachStep (userStep l) UserStep.Possible .empty run) (m : Means) (c : ConnId)
    (conn : CMsgSrvConn) (hconn : (run.foldl (userStep l) .empty).conns.find c = some conn)
    (p : CImPdu) (hcid : p.getCommandId = cidAuthLoginReq) (t : MsgServer)
    (hlogin : m.login l c p (run.foldl (userStep l) .empty) = some t) (e : ERR) (he : e ≠ .noError)
    (htold : Told l e c (run.foldl (userStep l) .empty) t) (r : Relogin)
    (hvalid : r.Valid l conn.handle) :
    (Intact c (run.foldl (userStep l) .empty) t ∧ r.Succeeds l c t) ↔
      NothingDone l m c conn p (run.foldl (userStep l) .empty) := by
  have hinv := serverInv_of_possible l hpossible
  generalize run.foldl (userStep l) .empty = s at hconn hlogin htold hinv ⊢
  have hlive := hinv.paired.live hconn
  have hagain {conn' : CMsgSrvConn} (hlive' : Live t c conn')
      (hhandle : conn'.handle = conn.handle) : r.Succeeds l c t ↔ conn'.address = [] := by
    rw [← hhandle] at hvalid
    exact ⟨fun h => by_contra fun hne => not_succeeds_of_address hlive' hne hvalid h,
      fun h => succeeds_of_valid hlive' h hvalid⟩
  by_cases hrefused : TurnedAway l conn p ∨ m.Closed
  · obtain ⟨hkept, -⟩ := refused_spec hlive hcid hrefused hlogin
    obtain ⟨conn', hlive', haddress, hsame⟩ := hkept.conn
    rw [hagain hlive' hsame.handle, haddress]
    constructor
    · rintro ⟨-, hempty⟩
      exact ⟨hempty, hrefused.imp_right .inl⟩
    · intro h
      exact ⟨hkept.intact hlive, h.address⟩
  · have haway : ¬ TurnedAway l conn p := fun h => hrefused (.inl h)
    have hopen : ¬ m.Closed := fun h => hrefused (.inr h)
    obtain ⟨msg, hparse, hsettled⟩ := claimed_spec hinv.paired hlive hcid haway hopen hlogin
    have hkept := (hsettled.resolve_right fun h => he (h e htold)).1
    obtain ⟨conn', hlive', haddress, hsame⟩ := hkept.conn
    have hempty : conn.address = [] := by_contra fun h => haway (.inl h)
    rw [hagain hlive' hsame.handle, haddress, intact_claimed_iff hinv hlive hkept]
    constructor
    · rintro ⟨⟨-, hjoined⟩, hclaim⟩
      have hclaim : msg.address.getD [] = [] := hclaim
      rw [hclaim] at hjoined
      exact ⟨hempty, .inr (.inr ⟨msg, hparse, hclaim, hjoined⟩)⟩
    · rintro ⟨-, hdone⟩
      obtain ⟨msg', hparse', hclaim, hjoined⟩ := (hdone.resolve_left haway).resolve_left hopen
      cases hparse.symm.trans hparse'
      rw [← hclaim] at hjoined
      exact ⟨⟨hclaim.trans hempty.symm, hjoined⟩, hclaim⟩

end

instance (l : Libs) (e : ERR) (pdu : CImPdu) : Decidable (Carries l e pdu) :=
  inferInstanceAs (Decidable (_ ∧ _))

instance (l : Libs) (e : ERR) (c : ConnId) (s t : MsgServer) : Decidable (Told l e c s t) :=
  inferInstanceAs (Decidable (∃ x ∈ sentSince s t, x.1 = c ∧ Carries l e x.2))

/-- The login of the client with its own signature. -/
def sampleRelogin : Relogin :=
  ⟨sampleEnv, captchaPdu, .sync sampleEnv, loginPdu clientAddress (clientSig64 ++ [0])⟩

theorem valid_sampleRelogin : sampleRelogin.Valid sampleLibs 5 := by
  have hrun : captchaPdu.getCommandId = cidAuthCaptchaReq ∧
      (sampleLibs.proto.authCaptchaReq.parse captchaPdu.body).2 = true ∧
      hexToString ((captchaKey sampleLibs sampleEnv).2.drop 2) ≠ none ∧
      (loginPdu clientAddress (clientSig64 ++ [0])).getCommandId = cidAuthLoginReq ∧
      Told sampleLibs .noError 0 (sampleRelogin.issued sampleLibs 0 sampleServer)
        (handlePdu sampleLibs sampleEnv false 0 (loginPdu clientAddress (clientSig64 ++ [0]))
          (sampleRelogin.issued sampleLibs 0 sampleServer)).1 := by
    simp only [sampleRelogin, captchaPdu, loginPdu, sampleLibs, sampleSecp, sampleKeys,
      sample_bytes, toBE_eq_consBE]
    decide +kernel
  obtain ⟨hcaptcha, hparse, hkey, hlogin, htold⟩ := hrun
  exact ⟨hcaptcha, hparse, hkey, hlogin, _, rfl, htold⟩

/-- A client that logs in before it has a captcha. -/
theorem intact_iff_sampleServer :
    Intact 0 sampleServer (handlePdu sampleLibs sampleEnv false 0 wrongPdu sampleServer).1 ∧
      sampleRelogin.Succeeds sampleLibs 0
        (handlePdu sampleLibs sampleEnv false 0 wrongPdu sampleServer).1 := by
  have htold : Told sampleLibs .eLoginError 0 sampleServer
      (handlePdu sampleLibs sampleEnv false 0 wrongPdu sampleServer).1 := by
    decide +kernel
  exact (intact_iff sampleLibs [.connect 5] ⟨rfl, trivial⟩ (.sync sampleEnv) 0 { handle := 5 } rfl
    wrongPdu getCommandId_wrongPdu _ rfl .eLoginError (by simp) htold sampleRelogin
    valid_sampleRelogin).mpr ⟨rfl, .inl (.inr (.inl rfl))⟩

/-- The client gets a captcha, and has nothing to sign it with. -/
def claimRun : List UserStep := [.connect 5, .recv false 0 sampleEnv captchaPdu]

/-- It is told that the login failed, and cannot log in any more. -/
theorem not_intact_wrongPdu :
    EachStep (userStep sampleLibs) UserStep.Possible .empty claimRun ∧
      wrongPdu.getCommandId = cidAuthLoginReq ∧
      Told sampleLibs .ePbParseError 0 (claimRun.foldl (userStep sampleLibs) .empty)
        (handlePdu sampleLibs sampleEnv false 0 wrongPdu
          (claimRun.foldl (userStep sampleLibs) .empty)).1 ∧
      ¬ Intact 0 (claimRun.foldl (userStep sampleLibs) .empty)
        (handlePdu sampleLibs sampleEnv false 0 wrongPdu
          (claimRun.foldl (userStep sampleLibs) .empty)).1 ∧
      sampleRelogin.Valid sampleLibs 5 ∧
      ¬ sampleRelogin.Succeeds sampleLibs 0 (handlePdu sampleLibs sampleEnv false 0 wrongPdu
        (claimRun.foldl (userStep sampleLibs) .empty)).1 := by
  have hrun : Told sampleLibs .ePbParseError 0 (claimRun.foldl (userStep sampleLibs) .empty)
        (handlePdu sampleLibs sampleEnv false 0 wrongPdu
          (claimRun.foldl (userStep sampleLibs) .empty)).1 ∧
      ((claimRun.foldl (userStep sampleLibs) .empty).conns.find 0).map CMsgSrvConn.address =
        some [] ∧
      ((handlePdu sampleLibs sampleEnv false 0 wrongPdu
        (claimRun.foldl (userStep sampleLibs) .empty)).1.conns.find 0).map
          (fun conn => (conn.handle, conn.address)) = some (5, clientAddress) ∧
      (handlePdu sampleLibs sampleEnv false 0 wrongPdu
        (claimRun.foldl (userStep sampleLibs) .empty)).1.msgConnMap.find 5 = some 0 ∧
      clientAddress ≠ [] := by
    simp only [claimRun, wrongPdu, captchaPdu, loginPdu, sampleLibs, sampleSecp, sampleKeys,
      sample_bytes, toBE_eq_consBE]
    decide +kernel
  obtain ⟨htold, hbefore, hafter, hmap, hne⟩ := hrun
  obtain ⟨conn, hconn, haddress⟩ := Option.map_eq_some_iff.mp hbefore
  obtain ⟨conn', hconn', hpair⟩ := Option.map_eq_some_iff.mp hafter
  obtain ⟨hhandle', haddress'⟩ := Prod.mk.inj hpair
  have hlive' : Live _ 0 conn' := ⟨hconn', hhandle' ▸ hmap⟩
  refine ⟨⟨rfl, trivial, trivial⟩, getCommandId_wrongPdu, htold, fun hintact => ?_,
    valid_sampleRelogin, not_succeeds_of_address hlive' (haddress' ▸ hne)
      (hhandle'.symm ▸ valid_sampleRelogin)⟩
  obtain ⟨other, hother, hsame, -⟩ := hintact.conn conn hconn
  cases hconn'.symm.trans hother
  exact hne (haddress'.symm.trans (hsame.trans haddress))

end FailedLogin

end Server
end Proof
end PtpCore
