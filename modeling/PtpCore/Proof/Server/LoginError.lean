import PtpCore.Proof.Server.Login

/-!
# What becomes of an error

`ServerLoginReq` puts the error of a login into its result, and a user beside it that nothing has
filled in. Such a message is not initialised and is not parsed at the other end, whether that is
the next handler or the message server behind a socket: the error is lost, and the client is told
that parsing failed.
-/

namespace PtpCore
namespace Proof
namespace Server

open Lib Proto
open PtpCore.Global PtpCore.Server
open PtpCore.Proof.Global

/-- A login for which `ServerLogin`, or the parser before it, has set the error `e`, and which has
    brought the message server from `s` to `t`. -/
inductive LoginAttempt (l : Libs) (e : ERR) : MsgServer → MsgServer → Prop
  | sync {env : Env} {s : MsgServer} {c : ConnId} {conn : CMsgSrvConn} {p : CImPdu}
      (hlive : Live s c conn) (hcid : p.getCommandId = cidAuthLoginReq)
      (herror : .refused e ∈ newEvents s (handlePdu l env false c p s).1) :
      LoginAttempt l e s (handlePdu l env false c p s).1
  | async {env : Env} {s : MsgServer} {c : ConnId} {conn : CMsgSrvConn} {p pdu : CImPdu}
      (hlive : Live s c conn) (hcid : p.getCommandId = cidAuthLoginReq)
      (hpending : (handlePdu l env true c p s).1.pending = s.pending ++ [⟨c, conn.handle, pdu⟩])
      -- the business server gets the request, from its own state `b`
      {env' : Env} {b b' : MsgServer} {uuid : UInt32} {request result : CImPdu}
      (hrequest : Delivered pdu request)
      (hrun : CProxyTask.run l env' ⟨uuid, request⟩ .serverLoginReq b = (b', .ok (some result)))
      (herror : .refused e ∈ newEvents b b')
      -- and the message server its answer, whatever has happened there by then
      {env'' : Env} {t : MsgServer} {response : CImPdu} (hresponse : Delivered result response)
      (hres : response.getCommandId = cidServerLoginRes) :
      LoginAttempt l e t (handleBusinessPdu l env'' response t).1

section

variable {l : Libs} {e : ERR} {s t : MsgServer} {c : ConnId} {conn : CMsgSrvConn}

/-! ## States that show nothing of it -/

/-- Nothing that was sent carries `e`, nothing was opened, and no login was stored. -/
structure Unreported (l : Libs) (e : ERR) (s t : MsgServer) : Prop where
  sent : ∀ c pdu, .sent c pdu ∈ newEvents s t → ¬ Carries l e pdu
  opened : ∀ c a b, .opened c a b ∉ newEvents s t
  conns : ∀ c conn, s.conns.find c = some conn →
    ∃ conn', t.conns.find c = some conn' ∧ SameLogin conn conn'

theorem unreported_of_events
    (h : ∀ event ∈ newEvents s t, (∃ error, event = .refused error) ∨
      ∃ c pdu, event = .sent c pdu ∧ ¬ Carries l e pdu)
    (hconns : ∀ c conn, s.conns.find c = some conn →
      ∃ conn', t.conns.find c = some conn' ∧ SameLogin conn conn') : Unreported l e s t := by
  refine ⟨?_, ?_, hconns⟩
  · intro c pdu hmem
    rcases h _ hmem with ⟨error, heq⟩ | ⟨c', pdu', heq, hcarries⟩
    · cases heq
    · cases heq
      exact hcarries
  · intro c a b hmem
    rcases h _ hmem with ⟨error, heq⟩ | ⟨c', pdu', heq, -⟩
    · cases heq
    · cases heq

theorem SameLogin.refl (conn : CMsgSrvConn) : SameLogin conn conn := ⟨rfl, rfl, rfl, rfl⟩

/-- Setting one object keeps the logins if it keeps its own. -/
theorem sameLogin_set (hconn : s.conns.find c = some conn) {conn' : CMsgSrvConn}
    (hsame : SameLogin conn conn') (d : ConnId) (other : CMsgSrvConn)
    (hother : s.conns.find d = some other) :
    ∃ other', (s.conns.set c conn').find d = some other' ∧ SameLogin other other' := by
  by_cases hd : d = c
  · rw [hd, hconn] at hother
    cases hother
    rw [hd]
    exact ⟨conn', Assoc.find_set_self _ _ _, hsame⟩
  · refine ⟨other, ?_, SameLogin.refl other⟩
    rw [Assoc.find_set_of_ne _ _ hd]
    exact hother

/-- A step that ends in a reply without `e`. -/
theorem unreported_of_lost {u : MsgServer} {es : List Event} (hlost : Lost l e u c t)
    (hlog : u.log = s.log ++ es) (hes : ∀ event ∈ es, ∃ error, event = .refused error)
    (hconns : ∀ c conn, s.conns.find c = some conn →
      ∃ conn', u.conns.find c = some conn' ∧ SameLogin conn conn') : Unreported l e s t := by
  rcases hlost with rfl | ⟨pdu, rfl, hcarries⟩
  · refine unreported_of_events ?_ hconns
    intro event hmem
    rw [newEvents_of_log hlog] at hmem
    exact Or.inl (hes event hmem)
  · refine unreported_of_events ?_ hconns
    intro event hmem
    rw [newEvents_sendPdu hlog] at hmem
    rcases List.mem_append.mp hmem with hmem | hmem
    · exact Or.inl (hes event hmem)
    · exact Or.inr ⟨c, pdu, List.mem_singleton.mp hmem, hcarries⟩

/-- A reply, and nothing else, records no error. -/
theorem refused_not_mem {u : MsgServer} {es : List Event} (hreplied : Replied u c t)
    (hlog : u.log = s.log ++ es) (hes : .refused e ∉ es) : .refused e ∉ newEvents s t := by
  rcases hreplied with rfl | ⟨pdu, rfl⟩
  · rw [newEvents_of_log hlog]
    exact hes
  · rw [newEvents_sendPdu hlog]
    intro hmem
    rcases List.mem_append.mp hmem with hmem | hmem
    · exact hes hmem
    · cases List.mem_singleton.mp hmem

/-! ## In synchronous mode -/

theorem unreported_outcome {m : ServerLoginReq} {u : MsgServer} (hlog : u.log = s.log)
    (hconns : ∀ c conn, s.conns.find c = some conn →
      ∃ conn', u.conns.find c = some conn' ∧ SameLogin conn conn')
    (ho : Outcome l m u c conn t) (herror : .refused e ∈ newEvents s t) : Unreported l e s t := by
  have hnil : u.log = s.log ++ [] := by rw [hlog, List.append_nil]
  cases ho with
  | nothing h => exact absurd herror (refused_not_mem (c := c) (Or.inl h) hnil List.not_mem_nil)
  | refused e' he' hlost =>
    have hlog' : (u.record (.refused e')).log = s.log ++ [.refused e'] := by
      rw [log_record, hlog]
    -- it is this error, since the reply records none
    have heq : e = e' := by
      by_contra hne
      have hreplied : Replied (u.record (.refused e')) c t := by
        rcases hlost with h | ⟨pdu, h, -⟩
        · exact Or.inl h
        · exact Or.inr ⟨pdu, h⟩
      refine refused_not_mem hreplied hlog' ?_ herror
      intro hmem
      cases List.mem_singleton.mp hmem
      exact hne rfl
    rw [heq]
    refine unreported_of_lost hlost hlog' ?_ hconns
    intro event hmem
    exact ⟨e', List.mem_singleton.mp hmem⟩
  | accepted sig hsig hreplied =>
    have hlog' : (acceptedState u m sig).log = s.log ++
        [.accepted (m.captcha.getD []) sig (m.address.getD [])] := by
      rw [acceptedState, log_record, hlog]
    refine absurd herror (refused_not_mem hreplied hlog' ?_)
    intro hmem
    cases List.mem_singleton.mp hmem
  | opened sig hsig info user secret hinfo hreplied =>
    have hlog' : (openConn (acceptedState u m sig) c conn user conn.handle info secret).log =
        s.log ++ [.accepted (m.captcha.getD []) sig (m.address.getD []),
          .opened c (info.address.getD []) conn.address] := by
      rw [← hlog]
      exact List.append_assoc _ _ _
    refine absurd herror (refused_not_mem hreplied hlog' ?_)
    intro hmem
    rcases List.mem_cons.mp hmem with hmem | hmem
    · cases hmem
    · cases List.mem_singleton.mp hmem

theorem unreported_sync {env : Env} {p : CImPdu} (hlive : Live s c conn)
    (hcid : p.getCommandId = cidAuthLoginReq)
    (herror : .refused e ∈ newEvents s (handlePdu l env false c p s).1) :
    Unreported l e s (handlePdu l env false c p s).1 := by
  rcases handlePdu_login l env hlive hcid with hreplied | ⟨msg, -, -, ho⟩
  · exact absurd herror (refused_not_mem hreplied (List.append_nil _).symm List.not_mem_nil)
  · have hlog : (claimed env s c conn msg).log = s.log := rfl
    have hsame : SameLogin conn (claimedConn env conn msg) := ⟨rfl, rfl, rfl, rfl⟩
    exact unreported_outcome hlog (sameLogin_set hlive.object hsame) ho herror

/-! ## In asynchronous mode -/

/-- What waits for the business server is the request of the claim. -/
theorem request_of_pending {env : Env} {p pdu : CImPdu} (hlive : Live s c conn)
    (hcid : p.getCommandId = cidAuthLoginReq)
    (hpending : (handlePdu l env true c p s).1.pending = s.pending ++ [⟨c, conn.handle, pdu⟩]) :
    ∃ m, Message.isInitialized m = true ∧
      pdu.body = (l.proto.serverLoginReq.serialize m).getD [] := by
  have hnot : s.pending ≠ s.pending ++ [⟨c, conn.handle, pdu⟩] := by
    intro h
    cases List.append_right_eq_self.mp h.symm
  rcases handlePdu_login_async l env hlive hcid with hreplied | ⟨msg, hreplied | hwaiting⟩
  · rw [pending_replied hreplied] at hpending
    exact absurd hpending hnot
  · rw [pending_replied hreplied] at hpending
    exact absurd hpending hnot
  · rw [hwaiting] at hpending
    have hpdu := List.append_cancel_left hpending
    cases hpdu
    obtain ⟨hheader, -, -, hbody⟩ := msgPdu_spec (env.heap (2 * 2)) cidServerLoginReq p.getSeqNum
      (fun {b} h => l.proto.serverLoginReq.length_lt (m := loginRequest conn msg) h)
    refine ⟨loginRequest conn msg, rfl, ?_⟩
    rw [(setReversed_spec hheader conn.handle).2, hbody]

/-- The answer of the business server: the result of its handler, with the number that came with
    the request. -/
def answerPdu (l : Libs) (env : Env) (q : CImPdu) (reply : ServerLoginRes) : CImPdu :=
  (msgPdu (env.heap 0) (l.proto.serverLoginRes.serialize reply) cidServerLoginRes
    q.getSeqNum).setReversed q.getReversed

theorem run_loginResult {env : Env} {b b' u : MsgServer} {uuid : UInt32} {q r : CImPdu}
    {reply : ServerLoginRes}
    (hhandler : serverLoginReq l env (env.heap 0) ⟨uuid, q⟩ b =
      (u, .ok (loginResult l (env.heap 0) q reply)))
    (hrun : CProxyTask.run l env ⟨uuid, q⟩ .serverLoginReq b = (b', .ok (some r))) :
    b' = u ∧ r = answerPdu l env q reply := by
  rw [CProxyTask.run, Action.run, hhandler] at hrun
  dsimp only at hrun
  split at hrun
  · rename_i pdu hpdu
    cases hpdu
    cases hrun
    exact ⟨rfl, rfl⟩
  · cases hrun

theorem hasHeader_resultPdu (env : Env) (q : CImPdu) (reply : ServerLoginRes) :
    CImPdu.HasHeader (msgPdu (env.heap 0) (l.proto.serverLoginRes.serialize reply)
      cidServerLoginRes q.getSeqNum) :=
  (msgPdu_spec _ _ _ fun h => l.proto.serverLoginRes.length_lt h).1

theorem body_answerPdu (env : Env) (q : CImPdu) (reply : ServerLoginRes) :
    (answerPdu l env q reply).body = (l.proto.serverLoginRes.serialize reply).getD [] := by
  rw [answerPdu, (setReversed_spec (hasHeader_resultPdu env q reply) _).2]
  exact (resultPdu_spec l _ reply _).2

/-- A result with an error cannot be parsed, or has nothing attached to it. -/
theorem result_of_refused {env : Env} {b b' : MsgServer} {uuid : UInt32} {q r : CImPdu}
    {m : ServerLoginReq} (hm : Message.isInitialized m = true)
    (hbody : q.body = (l.proto.serverLoginReq.serialize m).getD [])
    (hrun : CProxyTask.run l env ⟨uuid, q⟩ .serverLoginReq b = (b', .ok (some r)))
    (herror : .refused e ∈ newEvents b b') :
    (e ≠ .ePbParseError ∧ ∃ m', l.proto.serverLoginRes.parse r.body = (m', false)) ∨
      ∃ m', l.proto.serverLoginRes.parse r.body = (m', true) ∧ m'.attachData.getD [] = [] := by
  have hread := parse_passed l.proto.serverLoginReq m
  rw [← hbody, hm] at hread
  rcases serverLoginReq_cases l env (env.heap 0) uuid q b with
    ⟨msg, hparse, h⟩ | ⟨fault, h⟩ | ⟨msg, login, hparse, hlogin, h⟩
  · obtain ⟨-, rfl⟩ := run_loginResult h hrun
    rw [body_answerPdu]
    have hmsg : msg.attachData.getD [] = [] := by
      rcases hread with hread | ⟨-, hread⟩
      · cases hparse.symm.trans hread
      · cases hparse.symm.trans hread
        rfl
    rw [hmsg]
    exact Or.inr ⟨_, parse_refusal l, rfl⟩
  · rw [CProxyTask.run, Action.run, h] at hrun
    cases hrun
  · obtain ⟨hb, rfl⟩ := run_loginResult h hrun
    rw [body_answerPdu]
    rw [hb, newEvents_of_log (log_record b _)] at herror
    have hevent := List.mem_singleton.mp herror
    rcases serverLogin_ok l.secp env.cache env.now hlogin with ⟨hok, -, -⟩ | ⟨hfail, huser⟩
    · rw [hok] at hevent
      cases hevent
    · rw [loginEvent_refused env hfail] at hevent
      cases hevent
      rw [huser]
      refine Or.inl ⟨?_, parse_unfilled l (some (msg.attachData.getD [])) login.error⟩
      rcases hfail with hfail | hfail
      · rw [hfail]
        exact ERR.noConfusion
      · rw [hfail]
        exact ERR.noConfusion

theorem unreported_async {env : Env} {q r : CImPdu} (hr : Delivered r q)
    (hcid : q.getCommandId = cidServerLoginRes)
    (hresult : (e ≠ .ePbParseError ∧ ∃ m', l.proto.serverLoginRes.parse r.body = (m', false)) ∨
      ∃ m', l.proto.serverLoginRes.parse r.body = (m', true) ∧ m'.attachData.getD [] = []) :
    Unreported l e s (handleBusinessPdu l env q s).1 := by
  have hlost : ∃ c, Lost l e s c (handleBusinessPdu l env q s).1 := by
    rcases handleBusinessPdu_eq l env s hcid with ⟨-, h⟩ | ⟨c, conn, hfind, h⟩
    · rw [h]
      exact ⟨0, Or.inl rfl⟩
    · have hconn := (find_eq_some hfind).2
      rw [h]
      rw [← hr.body] at hresult
      rcases hresult with ⟨he, m', hparse⟩ | ⟨m', hparse, hattach⟩
      · exact ⟨c, handleNext_unparsed l env hconn hcid hparse he⟩
      · exact ⟨c, Or.inl (handleNext_unattached l env hconn hcid hparse hattach)⟩
  obtain ⟨c, hlost⟩ := hlost
  exact unreported_of_lost hlost (List.append_nil _).symm nofun
    fun d other hother => ⟨other, hother, SameLogin.refl other⟩

theorem unreported_of_attempt (h : LoginAttempt l e s t) : Unreported l e s t := by
  cases h with
  | sync hlive hcid herror => exact unreported_sync hlive hcid herror
  | async hlive hcid hpending hrequest hrun herror hresponse hres =>
    obtain ⟨m, hm, hbody⟩ := request_of_pending hlive hcid hpending
    rw [← hrequest.body] at hbody
    exact unreported_async hresponse hres (result_of_refused hm hbody hrun herror)

end

theorem refused_never_carried (l : Libs) (e : ERR) (s t : MsgServer) (h : LoginAttempt l e s t) :
    (¬ ∃ c pdu, .sent c pdu ∈ newEvents s t ∧ Carries l e pdu) ∧
      (∀ c a b, .opened c a b ∉ newEvents s t) ∧
      ∀ c conn, s.conns.find c = some conn →
        ∃ conn', t.conns.find c = some conn' ∧ SameLogin conn conn' := by
  have hun := unreported_of_attempt h
  refine ⟨?_, hun.opened, hun.conns⟩
  rintro ⟨c, pdu, hsent, hcarries⟩
  exact hun.sent c pdu hsent hcarries

/-! ## A login with a wrong signature -/

/-- The server when it has issued its captcha. -/
def claimServer : MsgServer :=
  sampleServer.setConn 0
    { handle := 5, captcha := sampleCaptcha, prvKey := Toolbox.bytesToHex serverPrvKey }

theorem live_claimServer : Live claimServer 0
    { handle := 5, captcha := sampleCaptcha, prvKey := Toolbox.bytesToHex serverPrvKey } :=
  ⟨rfl, rfl⟩

/-- The signature is all zeros, and `ServerLogin` says `E_LOGIN_ERROR`. -/
def wrongPdu : CImPdu := loginPdu clientAddress (List.replicate 65 0)

theorem getCommandId_wrongPdu : wrongPdu.getCommandId = cidAuthLoginReq :=
  getCommandId_loginPdu _ _

def wrongServer : MsgServer := (handlePdu sampleLibs sampleEnv false 0 wrongPdu claimServer).1

theorem attempt_wrongServer : LoginAttempt sampleLibs .eLoginError claimServer wrongServer :=
  .sync live_claimServer getCommandId_wrongPdu (by decide +kernel)

/-- The same login in asynchronous mode: the message server with the request that waits, what the
    business server makes of it, and its answer. -/
def asyncServer : MsgServer := (handlePdu sampleLibs sampleEnv true 0 wrongPdu claimServer).1

def asyncRequest : CImPdu := (asyncServer.pending.map Pending.pdu).headD .new

def asyncRun : MsgServer × Except Fault (Option CImPdu) :=
  CProxyTask.run sampleLibs sampleEnv ⟨1, deliver asyncRequest⟩ .serverLoginReq .empty

/-- The PDU that is sent back, if there is one. -/
def sentBack (r : MsgServer × Except Fault (Option CImPdu)) : Option CImPdu :=
  match r.2 with
  | .ok result => result
  | .error _ => none

theorem eq_of_sentBack {r : MsgServer × Except Fault (Option CImPdu)}
    (h : (sentBack r).isSome = true) : r = (r.1, .ok (some ((sentBack r).getD .new))) := by
  obtain ⟨b, fault | _ | result⟩ := r
  · cases h
  · cases h
  · rfl

def asyncResult : CImPdu := (sentBack asyncRun).getD .new

def asyncAnswered : MsgServer :=
  (handleBusinessPdu sampleLibs sampleEnv (deliver asyncResult) asyncServer).1

theorem attempt_asyncServer : LoginAttempt sampleLibs .eLoginError asyncServer asyncAnswered := by
  have hpending : (handlePdu sampleLibs sampleEnv true 0 wrongPdu claimServer).1.pending =
      claimServer.pending ++ [⟨0, 5, asyncRequest⟩] := by
    decide +kernel
  have hrun : asyncRun = (asyncRun.1, .ok (some asyncResult)) := eq_of_sentBack (by decide +kernel)
  have hanswer : .refused .eLoginError ∈ newEvents .empty asyncRun.1 ∧
      (deliver asyncResult).getCommandId = cidServerLoginRes := by
    decide +kernel
  exact LoginAttempt.async live_claimServer getCommandId_wrongPdu hpending
    (delivered_deliver asyncRequest) hrun hanswer.1 (delivered_deliver asyncResult) hanswer.2

theorem refused_never_carried_wrongPdu :
    (LoginAttempt sampleLibs .eLoginError claimServer wrongServer ∧
      ¬ ∃ c pdu, .sent c pdu ∈ newEvents claimServer wrongServer ∧
        Carries sampleLibs .eLoginError pdu) ∧
      LoginAttempt sampleLibs .eLoginError asyncServer asyncAnswered ∧
      ¬ ∃ c pdu, .sent c pdu ∈ newEvents asyncServer asyncAnswered ∧
        Carries sampleLibs .eLoginError pdu :=
  ⟨⟨attempt_wrongServer,
    (refused_never_carried sampleLibs .eLoginError _ _ attempt_wrongServer).1⟩,
    attempt_asyncServer,
    (refused_never_carried sampleLibs .eLoginError _ _ attempt_asyncServer).1⟩

/-- A PDU that was sent carries `e`. -/
def reports (l : Libs) (e : ERR) : Event → Bool
  | .sent _ pdu => pdu.getCommandId = cidAuthLoginRes ∧
      (l.proto.authLoginRes.parse pdu.body).1.error = some e
  | _ => true

theorem reports_sent {l : Libs} {e : ERR} {c : ConnId} {pdu : CImPdu} :
    reports l e (.sent c pdu) = true ↔ Carries l e pdu := decide_eq_true_iff

theorem wrongServer_parseError :
    .refused .eLoginError ∈ newEvents claimServer wrongServer ∧
      (∀ c pdu, .sent c pdu ∈ newEvents claimServer wrongServer →
        Carries sampleLibs .ePbParseError pdu) ∧
      ¬ ∃ pdu, .sent 0 pdu ∈ newEvents claimServer wrongServer ∧
        Carries sampleLibs .eLoginError pdu := by
  have hrun : .refused .eLoginError ∈ newEvents claimServer wrongServer ∧
      ∀ event ∈ newEvents claimServer wrongServer,
        reports sampleLibs .ePbParseError event = true := by
    decide +kernel
  have hsent : ∀ c pdu, .sent c pdu ∈ newEvents claimServer wrongServer →
      Carries sampleLibs .ePbParseError pdu := by
    intro c pdu hmem
    exact reports_sent.mp (hrun.2 _ hmem)
  refine ⟨hrun.1, hsent, ?_⟩
  rintro ⟨pdu, hmem, hcarries⟩
  cases (hsent 0 pdu hmem).2.symm.trans hcarries.2

end Server
end Proof
end PtpCore
