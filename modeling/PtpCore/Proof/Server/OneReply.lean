import PtpCore.Proof.Server.KeyExchange
import PtpCore.Proof.Server.ProxyTask
import PtpCore.Proof.Server.Routing
import PtpCore.Server.SyncResponse

/-!
# One reply for a request

Without a business server the handlers of a login run one after the other, and one of them is to
reply. Protocol buffers are taken to write a message just when its required fields are set. Two
messages lack some: the answer to a captcha request that cannot be parsed, and the result of a login
that is refused. The first never reaches the client in a form that it can read; the second is
dropped, unless the memory that its PDU got happens to look like a length.
-/

namespace PtpCore
namespace Proof
namespace Server

open Lib Proto PtpCore.Crypto
open PtpCore.Global PtpCore.Server PtpCore.Wallet PtpCore.Net
open PtpCore.Proof.Global PtpCore.Proof.Net

/-! ## States that are reached -/

section

variable {s t u : MsgServer} {c : ConnId} {conn conn' : CMsgSrvConn}

theorem Touches.live (h : Touches c conn s t) (hlive : Live s c conn) :
    ∃ conn', conn'.handle = conn.handle ∧ Live t c conn' := by
  rcases h.conns with heq | ⟨conn', hhandle, heq⟩
  · refine ⟨conn, rfl, ?_, ?_⟩
    · rw [heq]
      exact hlive.object
    · rw [h.map]
      exact hlive.map
  · refine ⟨conn', hhandle, ?_, ?_⟩
    · rw [heq, Assoc.find_set_self]
    · rw [h.map, hhandle]
      exact hlive.map

theorem Touches.trans (h : Touches c conn s t) (hhandle : conn'.handle = conn.handle)
    (h' : Touches c conn' t u) : Touches c conn s u where
  map := h'.map.trans h.map
  next := h'.next.trans h.next
  conns := by
    rcases h'.conns with heq' | ⟨last, hlast, heq'⟩
    · rw [heq']
      exact h.conns
    · refine .inr ⟨last, hlast.trans hhandle, ?_⟩
      rcases h.conns with heq | ⟨first, -, heq⟩
      · rw [heq', heq]
      · rw [heq', heq, Assoc.set_set]

/-- A handler touches the connection it is called for. -/
theorem touches_run (l : Libs) (env : Env) (fill : Nat → UInt8) (p : CImPdu) (action : Action)
    (hlive : Live s c conn) :
    Touches c conn s (action.run l env fill ⟨conn.handle, p⟩ s).1 ∧
      (action.run l env fill ⟨conn.handle, p⟩ s).1.pending = s.pending := by
  cases action with
  | authCaptchaReq =>
    rw [Action.run]
    rcases authCaptchaReq_cases l env fill p hlive with
      ⟨msg, heq⟩ | ⟨conn', r, hsame, -, -, heq, -⟩
    · rw [heq]
      exact ⟨touches_refl s, rfl⟩
    · rw [heq]
      exact ⟨⟨rfl, rfl, .inr ⟨conn', hsame.handle, rfl⟩⟩, rfl⟩
  | authLoginReq =>
    rw [Action.run]
    rcases authLoginReq_cases l env fill p hlive with ⟨msgRsp, heq⟩ | ⟨msg, -, -, -, heq⟩
    · rw [heq]
      exact ⟨touches_refl s, rfl⟩
    · rw [heq]
      exact ⟨⟨rfl, rfl, .inr ⟨claimedConn env conn msg, rfl, rfl⟩⟩, rfl⟩
  | serverLoginReq =>
    rw [Action.run]
    rcases serverLoginReq_cases l env fill conn.handle p s with
      ⟨msg, -, heq⟩ | ⟨fault, heq⟩ | ⟨msg, login, -, -, heq⟩
    · rw [heq]
      exact ⟨⟨rfl, rfl, .inl rfl⟩, rfl⟩
    · rw [heq]
      exact ⟨touches_refl s, rfl⟩
    · rw [heq]
      exact ⟨⟨rfl, rfl, .inl rfl⟩, rfl⟩
  | serverLoginRes =>
    rw [Action.run]
    rcases serverLoginRes_cases l env fill conn.handle p s with
      ⟨msgRsp, heq⟩ | ⟨fault, heq, -⟩ | ⟨msg, d, other, user, secret, msgRsp, -, hfind, heq⟩
    · rw [heq]
      exact ⟨touches_refl s, rfl⟩
    · rw [heq]
      exact ⟨touches_refl s, rfl⟩
    · rw [hlive.find] at hfind
      cases hfind
      rw [heq]
      exact ⟨⟨rfl, rfl, .inr ⟨openedConn conn (msg.userInfo.getD {}) secret, rfl, rfl⟩⟩, rfl⟩
  | heartBeatNotify => exact ⟨touches_refl s, rfl⟩

end

/-- From `s` to `t` no connection but `c` was touched, no request waits that did not, and the keys
    are still in hexadecimal. -/
structure Steps (c : ConnId) (conn : CMsgSrvConn) (s t : MsgServer) : Prop where
  touches : Touches c conn s t
  pending : t.pending = s.pending
  keyed : Keyed s → Keyed t

section

variable {l : Libs} {e : TaskEnv} {w w' : Worker} {c : ConnId} {conn conn' : CMsgSrvConn}
  {p : CImPdu} {s t u : MsgServer}

theorem steps_refl (s : MsgServer) : Steps c conn s s := ⟨touches_refl s, rfl, id⟩

theorem Steps.trans (h : Steps c conn s t) (hhandle : conn'.handle = conn.handle)
    (h' : Steps c conn' t u) : Steps c conn s u :=
  ⟨h.touches.trans hhandle h'.touches, h'.pending.trans h.pending, fun hs => h'.keyed (h.keyed hs)⟩

theorem steps_sendPdu (s : MsgServer) (pdu : CImPdu) : Steps c conn s (s.sendPdu c pdu) :=
  ⟨⟨rfl, rfl, .inl rfl⟩, rfl, id⟩

theorem steps_runOn (hlive : Live w.server c conn) {action : Action} {fill : Nat → UInt8}
    {r : Except Fault CResponse}
    (h : action.runOn l e fill ⟨conn.handle, p⟩ w = some (w', r)) :
    Steps c conn w.server w'.server := by
  obtain ⟨available, hrun⟩ := run_of_action_runOn h
  obtain ⟨htouches, hpending⟩ :=
    touches_run l (TaskEnv.envOf e available) fill p action hlive
  refine ⟨?_, ?_, ?_⟩
  · rw [hrun] at htouches
    exact htouches
  · rw [hrun] at hpending
    exact hpending
  · intro hkeyed
    have hkeep := hkeyed.run l (TaskEnv.envOf e available) fill conn.handle p action
    rw [hrun] at hkeep
    exact hkeep

/-- Passing a PDU on touches no other connection, as often as it is passed on. -/
theorem steps_handleNext {k : Nat} (hlive : Live w.server c conn) {fault : Option Fault}
    (h : w.handleNextResponse l e k c p = some (w', fault)) :
    Steps c conn w.server w'.server := by
  induction k generalizing w p conn with
  | zero =>
    cases h
    exact steps_refl _
  | succ k ih =>
    rw [Worker.handleNextResponse, hlive.object] at h
    dsimp only at h
    split at h
    · cases h
      exact steps_sendPdu _ _
    rename_i action haction
    split at h
    · cases h
    · rename_i w₁ fault' hrun
      cases h
      exact steps_runOn hlive hrun
    · rename_i w₁ response hrun
      have hsteps := steps_runOn hlive hrun
      rw [Worker.respond] at h
      split at h
      · split at h
        · obtain ⟨conn₁, hhandle, hlive₁⟩ := hsteps.touches.live hlive
          exact hsteps.trans hhandle (ih hlive₁ h)
        · cases h
          exact hsteps.trans rfl (steps_sendPdu _ _)
      · cases h
        exact hsteps

end

/-- What holds in every state that the server reaches. -/
structure SyncInv (w : Worker) : Prop where
  routing : RoutingInv w.server
  pending : w.server.pending = []
  keyed : Keyed w.server

theorem pending_close (s : MsgServer) (c : ConnId) : (s.close c).pending = s.pending := by
  rw [MsgServer.close]
  split
  · rfl
  · rfl

theorem syncInv_of_reached {l : Libs} {w : Worker} (h : w.Reached l) : SyncInv w := by
  induction h with
  | start pool => exact ⟨routingInv_empty, rfl, keyed_empty⟩
  | @step w w' event _ hpossible hstep ih =>
    cases event with
    | connect handle =>
      cases hstep
      refine ⟨ih.routing.connect hpossible ?_, ih.pending, ih.keyed.onConnect handle⟩
      intro request hmem
      rw [ih.pending] at hmem
      cases hmem
    | close c =>
      cases hstep
      exact ⟨ih.routing.close c, (pending_close _ c).trans ih.pending, ih.keyed.close c⟩
    | recv e c p =>
      rw [Worker.syncStep] at hstep
      split at hstep
      · rename_i w'' hrun
        cases hstep
        cases hconn : w.server.conns.find c with
        | none =>
          rw [Worker.handlePdu, Worker.handleNextResponse, hconn] at hrun
          cases hrun
        | some conn =>
          have hsteps := steps_handleNext (ih.routing.live c conn hconn) hrun
          refine ⟨ih.routing.touches hconn hsteps.touches ?_, hsteps.pending.trans ih.pending,
            hsteps.keyed ih.keyed⟩
          intro request hmem
          rw [hsteps.pending] at hmem
          exact .inl hmem
      · cases hstep

/-! ## Replies -/

def sentPdu : Event → Option (ConnId × CImPdu)
  | .sent c pdu => some (c, pdu)
  | _ => none

/-- What was sent from `s` to `t`, in order. -/
def sentSince (s t : MsgServer) : List (ConnId × CImPdu) := (newEvents s t).filterMap sentPdu

/-- Nothing was sent from `s` to `t`. -/
def Silent (s t : MsgServer) : Prop := ∃ es, t.log = s.log ++ es ∧ es.filterMap sentPdu = []

/-- The client finds this command id and sequence number in the bytes of the PDU, and can read the
    message. -/
structure IsReply {M : Type} [Message M] (codec : Codec M) (cid seq : UInt16) (p : CImPdu) :
    Prop where
  commandId : (CImPdu.headerOf p.buf.contents).commandId = cid
  seqNum : (CImPdu.headerOf p.buf.contents).seqNum = seq
  parses : (codec.parse p.body).2 = true

/-- It ends, and one PDU was sent since `s`: the reply to `c`. -/
def Replies {M : Type} [Message M] (codec : Codec M) (cid seq : UInt16) (c : ConnId)
    (s : MsgServer) (r : Option (Worker × Option Fault)) : Prop :=
  ∃ w' reply, r = some (w', none) ∧ sentSince s w'.server = [(c, reply)] ∧
    IsReply codec cid seq reply

/-- Handling `p` on `c` ends with one reply. -/
def OneReply {M : Type} [Message M] (codec : Codec M) (cid : UInt16) (l : Libs) (e : TaskEnv)
    (c : ConnId) (p : CImPdu) (w : Worker) : Prop :=
  Replies codec cid p.getSeqNum c w.server (w.handlePdu l e c p)

/-- `SerializeToArray` fails on `m` just when a required field of `m` is not set. -/
def Exact {M : Type} [Message M] (codec : Codec M) (m : M) : Prop :=
  codec.serialize m = none ↔ Message.isInitialized m = false

section

variable {M : Type} [Message M] {codec : Codec M} {m : M} {s t u : MsgServer} {c : ConnId}

theorem Exact.unwritten (h : Exact codec m) (hinit : Message.isInitialized m = false) :
    codec.serialize m = none := h.mpr hinit

/-- What was written is read back. -/
theorem written_of_ne (hinit : Message.isInitialized m = true) (h : codec.serialize m ≠ none) :
    ∃ data, codec.serialize m = some data ∧ data.length < 2 ^ 31 ∧
      codec.parse data = (m, true) := by
  obtain ⟨data, hdata⟩ := Option.ne_none_iff_exists'.mp h
  exact ⟨data, hdata, codec.length_lt hdata, hinit ▸ codec.parse_serialize hdata⟩

theorem Exact.ne_none (h : Exact codec m) (hinit : Message.isInitialized m = true) :
    codec.serialize m ≠ none := by
  intro hnone
  rw [h.mp hnone] at hinit
  cases hinit

/-- A reply that is about an error alone is never too long. -/
theorem serialize_error_ne (codec : Codec AuthLoginRes) (e : ERR) :
    codec.serialize { error := some e } ≠ none := by
  rw [codec.serialize_eq rfl (length_error_lt e)]
  exact Option.some_ne_none _

theorem silent_refl (s : MsgServer) : Silent s s := ⟨[], (List.append_nil _).symm, rfl⟩

theorem silent_record {event : Event} (h : sentPdu event = none) : Silent s (s.record event) :=
  ⟨[event], rfl, by simp [h]⟩

theorem Silent.trans (h : Silent s t) (h' : Silent t u) : Silent s u := by
  obtain ⟨es, hlog, hes⟩ := h
  obtain ⟨es', hlog', hes'⟩ := h'
  refine ⟨es ++ es', by rw [hlog', hlog, List.append_assoc], ?_⟩
  rw [List.filterMap_append, hes, hes']
  rfl

theorem Silent.sentSince (h : Silent s t) : Server.sentSince s t = [] := by
  obtain ⟨es, hlog, hes⟩ := h
  rw [Server.sentSince, newEvents_of_log hlog, hes]

theorem Silent.sentSince_sendPdu (h : Silent s t) (pdu : CImPdu) :
    Server.sentSince s (t.sendPdu c pdu) = [(c, pdu)] := by
  obtain ⟨es, hlog, hes⟩ := h
  rw [Server.sentSince, newEvents_sendPdu hlog, List.filterMap_append, hes]
  rfl

/-- A reply that was written is one that the client can read. -/
theorem isReply_sendMsg (fill : Nat → UInt8) {data : Bytes} (hlen : data.length < 2 ^ 31)
    (hparse : codec.parse data = (m, true)) (cid seq : UInt16) :
    IsReply codec cid seq ((msgPdu fill (some data) cid seq).setReversed 0) := by
  have hwrote := (wrote_msgPdu fill hlen cid seq).setReversed 0
  refine ⟨hwrote.wireId, ?_, ?_⟩
  · rw [headerOf_setReversed_msgPdu fill hlen]
  · rw [hwrote.body, hparse]

/-- One that was not written is none, since its body is empty. -/
theorem not_isReply_unwritten (hempty : Message.isInitialized (Message.empty : M) = false)
    (fill : Nat → UInt8) (cid seq cid' seq' : UInt16) :
    ¬ IsReply codec cid seq ((msgPdu fill none cid' seq').setReversed 0) := by
  intro h
  obtain ⟨hheader, -, -, hbody⟩ := msgPdu_spec fill cid' seq'
    (fun {b} (hb : (none : Option Bytes) = some b) => by cases hb)
  have hparse := h.parses
  rw [(setReversed_spec hheader 0).2, hbody, Option.getD_none, codec.parse_nil, hempty] at hparse
  cases hparse

end

/-! ## What `HandleNextResponse` does with a response -/

section

variable {l : Libs} {e : TaskEnv} {w w' : Worker} {c : ConnId} {conn : CMsgSrvConn} {p : CImPdu}
  {again : CImPdu → Worker → Option (Worker × Option Fault)} {fill : Nat → UInt8} {data : Bytes}
  {cid seq : UInt16}

theorem handleNext_of_runOn {k : Nat} {action : Action} {r : CResponse}
    (hconn : w.server.conns.find c = some conn)
    (haction : getHandler p.getCommandId = some action)
    (hrun : action.runOn l e (e.env.heap (2 * k)) ⟨conn.handle, p⟩ w = some (w', .ok r)) :
    w.handleNextResponse l e (k + 1) c p = w'.respond (Worker.handleNextResponse l e k c) c r := by
  rw [Worker.handleNextResponse, hconn]
  dsimp only
  rw [haction]
  dsimp only
  rw [hrun]

theorem respond_written (h : data.length < 2 ^ 31) :
    w.respond again c (.sendMsg fill (some data) cid seq) =
      some (w.sendPdu c ((msgPdu fill (some data) cid seq).setReversed 0), none) := by
  rw [Worker.respond, isPduValid_sendMsg fill h, pdu_sendMsg]
  rfl

theorem respond_unwritten : w.respond again c (.sendMsg fill none cid seq) = some (w, none) ∨
    w.respond again c (.sendMsg fill none cid seq) =
      some (w.sendPdu c ((msgPdu fill none cid seq).setReversed 0), none) := by
  rw [Worker.respond]
  cases (CResponse.sendMsg fill none cid seq).isPduValid with
  | false => exact .inl rfl
  | true => exact .inr rfl

theorem respond_next_written (h : data.length < 2 ^ 31) :
    w.respond again c (.next fill (some data) cid seq) = again (msgPdu fill (some data) cid seq) w
    := by
  rw [Worker.respond, isPduValid_next fill h, pdu_next]
  rfl

theorem respond_next_unwritten : w.respond again c (.next fill none cid seq) =
    if staleLength fill ≤ 16 then again (msgPdu fill none cid seq) w else some (w, none) := by
  rw [Worker.respond, isPduValid_next_none, pdu_next]
  by_cases h : staleLength fill ≤ 16
  · rw [if_pos h, decide_eq_true h]
    rfl
  · rw [if_neg h, decide_eq_false h]

end

section

variable {M : Type} [Message M] {codec : Codec M} {m : M} {w : Worker} {s : MsgServer} {c : ConnId}
  {again : CImPdu → Worker → Option (Worker × Option Fault)} {fill : Nat → UInt8}

theorem replies_sendMsg (hs : Silent s w.server) (hinit : Message.isInitialized m = true)
    (hwritten : codec.serialize m ≠ none) (cid seq : UInt16) :
    Replies codec cid seq c s (w.respond again c (.sendMsg fill (codec.serialize m) cid seq)) := by
  obtain ⟨data, hdata, hlen, hparse⟩ := written_of_ne hinit hwritten
  rw [hdata, respond_written hlen]
  exact ⟨_, _, rfl, hs.sentSince_sendPdu _, isReply_sendMsg fill hlen hparse cid seq⟩

end

/-! ## Captcha requests -/

section

variable {proto : Library} {secp : Secp256k1} {hd : HDPrimitives} {e : TaskEnv} {w : Worker}
  {c : ConnId} {conn : CMsgSrvConn} {p : CImPdu}

theorem oneReply_captcha_iff (hlive : Live w.server c conn)
    (hcid : p.getCommandId = cidAuthCaptchaReq)
    (hres : Exact proto.authCaptchaRes
      (captchaRes secp hd (captchaPhrase e.env) e.env.captcha e.env.iv e.env.aad))
    (herror : Exact proto.authCaptchaRes { error := some .ePbParseError }) :
    OneReply proto.authCaptchaRes cidAuthCaptchaRes (.ofHD proto secp hd) e c p w ↔
      (proto.authCaptchaReq.parse p.body).2 = true := by
  have haction : getHandler p.getCommandId = some .authCaptchaReq := by
    rw [hcid]
    rfl
  by_cases hparse : (proto.authCaptchaReq.parse p.body).2 = true
  · refine ⟨fun _ => hparse, fun _ => ?_⟩
    have hrun : Action.authCaptchaReq.run (.ofHD proto secp hd) e.env (e.env.heap (2 * 2))
        ⟨conn.handle, p⟩ w.server = _ := authCaptchaReq_parsed hlive hparse _
    rw [OneReply, Worker.handlePdu,
      handleNext_of_runOn hlive.object haction (runOn_of_run (by simp) hrun)]
    exact replies_sendMsg (silent_record rfl) rfl (hres.ne_none rfl) _ _
  · refine ⟨?_, fun h => absurd h hparse⟩
    -- the reply lacks all but its error, and is not written
    have hrun : Action.authCaptchaReq.run (.ofHD proto secp hd) e.env (e.env.heap (2 * 2))
        ⟨conn.handle, p⟩ w.server = (w.server, .ok (.sendMsg (e.env.heap (2 * 2))
          (proto.authCaptchaRes.serialize { error := some .ePbParseError }) cidAuthCaptchaRes
          p.getSeqNum)) := by
      rw [Action.run, authCaptchaReq]
      dsimp only
      rw [hlive.find]
      exact if_neg hparse
    rw [herror.unwritten rfl] at hrun
    rw [OneReply, Worker.handlePdu,
      handleNext_of_runOn hlive.object haction (runOn_of_run (by simp) hrun)]
    rintro ⟨w', reply, heq, hsent, hreply⟩
    rcases respond_unwritten with hr | hr
    · cases hr.symm.trans heq
      cases (silent_refl w.server).sentSince.symm.trans hsent
    · cases hr.symm.trans heq
      have hone := (silent_refl w.server).sentSince_sendPdu (c := c)
        ((msgPdu (e.env.heap (2 * 2)) none cidAuthCaptchaRes p.getSeqNum).setReversed 0)
      cases hone.symm.trans hsent
      exact absurd hreply (not_isReply_unwritten rfl _ _ _ _ _)

end

/-! ## The result of a login -/

section

variable {l : Libs} {e : TaskEnv} {handle : UInt32} {q : CImPdu} {s : MsgServer} {w : Worker}
  {c : ConnId} {conn : CMsgSrvConn}

/-- What `ServerLoginRes` replies: an error, or an error with the user that the result names. -/
inductive ResultReply (l : Libs) (q : CImPdu) : AuthLoginRes → Prop
  | error (e : ERR) : ResultReply l q { error := some e }
  | user (e : ERR) {msg : ServerLoginRes}
      (hparse : l.proto.serverLoginRes.parse q.body = (msg, true)) :
      ResultReply l q { error := some e, userInfo := some (replyUser (msg.userInfo.getD {})) }

theorem ResultReply.isInitialized {msgRsp : AuthLoginRes} (h : ResultReply l q msgRsp) :
    Message.isInitialized msgRsp = true := by
  cases h with
  | error e => rfl
  | user e hparse => rfl

/-- It replies whatever it is given, if it returns. -/
theorem serverLoginRes_replies (env : Env) (fill : Nat → UInt8) (hkeyed : Keyed s)
    (h : ∀ msg, l.proto.serverLoginRes.parse q.body = (msg, true) → ResultSafe s handle msg) :
    ∃ s' msgRsp, Silent s s' ∧ ResultReply l q msgRsp ∧
      serverLoginRes l env fill ⟨handle, q⟩ s =
        (s', .ok (authLoginRes l fill msgRsp ⟨handle, q⟩)) := by
  obtain ⟨s', r, hreturns⟩ : ∃ s' r, serverLoginRes l env fill ⟨handle, q⟩ s = (s', .ok r) :=
    serverLoginRes_returns hkeyed h
  rw [hreturns]
  rw [serverLoginRes] at hreturns
  dsimp only at hreturns
  split at hreturns
  · cases hreturns
    exact ⟨_, _, silent_refl s, .error _, rfl⟩
  rename_i msg hparse
  split at hreturns
  · cases hreturns
  split at hreturns
  · cases hreturns
    exact ⟨_, _, silent_refl s, .error _, rfl⟩
  split at hreturns
  · cases hreturns
  split at hreturns
  · cases hreturns
    exact ⟨_, _, silent_refl s, .user _ hparse, rfl⟩
  split at hreturns
  · cases hreturns
    exact ⟨_, _, silent_refl s, .user _ hparse, rfl⟩
  split at hreturns
  · cases hreturns
  · cases hreturns
    exact ⟨_, _, silent_refl s, .user _ hparse, rfl⟩
  · cases hreturns
    exact ⟨_, _, ⟨_, rfl, rfl⟩, .user _ hparse, rfl⟩

theorem replies_result {k : Nat} (hs : Silent s w.server) (hlive : Live w.server c conn)
    (hkeyed : Keyed w.server) (hcid : q.getCommandId = cidServerLoginRes)
    (hattach : ∀ msg, l.proto.serverLoginRes.parse q.body = (msg, true) →
      12 ≤ (msg.attachData.getD []).length)
    (hwritten : ∀ msgRsp, ResultReply l q msgRsp → l.proto.authLoginRes.serialize msgRsp ≠ none) :
    Replies l.proto.authLoginRes cidAuthLoginRes q.getSeqNum c s
      (w.handleNextResponse l e (k + 1) c q) := by
  have hsafe : ∀ msg, l.proto.serverLoginRes.parse q.body = (msg, true) →
      ResultSafe w.server conn.handle msg := by
    intro msg hparse
    refine ⟨hattach msg hparse, fun _ _ hnone => ?_⟩
    rw [hlive.find] at hnone
    cases hnone
  obtain ⟨s', msgRsp, hsilent, hmsg, heq⟩ :=
    serverLoginRes_replies e.env (e.env.heap (2 * k)) hkeyed hsafe
  have hrun : Action.serverLoginRes.run l e.env (e.env.heap (2 * k)) ⟨conn.handle, q⟩ w.server =
      _ := heq
  rw [handleNext_of_runOn hlive.object (getHandler_serverLoginRes hcid)
    (runOn_of_run (by simp) hrun)]
  exact replies_sendMsg (hs.trans hsilent) hmsg.isInitialized (hwritten msgRsp hmsg) _ _

/-- A result that was not written is read as an empty one, and the reply says that parsing failed. -/
theorem replies_emptyResult {k : Nat} (hs : Silent s w.server) (hlive : Live w.server c conn)
    (fill : Nat → UInt8) (seq : UInt16) :
    Replies l.proto.authLoginRes cidAuthLoginRes seq c s
      (w.handleNextResponse l e (k + 1) c (msgPdu fill none cidServerLoginRes seq)) := by
  obtain ⟨-, hcid, hseq, hbody⟩ := msgPdu_spec fill cidServerLoginRes seq
    (fun {b} (hb : (none : Option Bytes) = some b) => by cases hb)
  have hparse : l.proto.serverLoginRes.parse (msgPdu fill none cidServerLoginRes seq).body =
      (Message.empty, false) := by
    rw [hbody]
    exact l.proto.serverLoginRes.parse_nil
  have hrun : Action.serverLoginRes.run l e.env (e.env.heap (2 * k)) ⟨conn.handle, msgPdu fill none
      cidServerLoginRes seq⟩ w.server = _ := serverLoginRes_of_parse l e.env _ _ _ _ hparse
  rw [handleNext_of_runOn hlive.object (getHandler_serverLoginRes hcid)
    (runOn_of_run (by simp) hrun), authLoginRes, hseq]
  exact replies_sendMsg hs rfl (serialize_error_ne _ _) _ _

end

/-! ## The request of a login -/

section

variable {secp : Secp256k1} {env : LoginEnv} {now : UInt32} {msg : ServerLoginReq}
  {pool pool' : CachePool} {login : LoginResult}

/-- The cache has a connection, and the signature is that of the address. -/
def LoginAccepted (secp : Secp256k1) (env : LoginEnv) (pool : CachePool) (msg : ServerLoginReq) :
    Prop :=
  Lends env.initOk pool ∧ ∃ pubKey33, Accepted secp env.beyond msg pubKey33

/-- What `ServerLogin` says when it does not accept: the cache has no connection, or the signature is
    wrong. -/
theorem login_refused (h : env.run secp now msg pool = some (.ok login, pool'))
    (hno : ¬ LoginAccepted secp env pool msg) :
    (Lends env.initOk pool ∧ login = ⟨.eLoginError, {}, none⟩) ∨
      (¬ Lends env.initOk pool ∧ login = ⟨.eSystem, {}, none⟩) := by
  by_cases hlends : Lends env.initOk pool
  · have hrefused : ∀ pubKey33, ¬ Accepted secp env.beyond msg pubKey33 :=
      fun pubKey33 haccepted => hno ⟨hlends, pubKey33, haccepted⟩
    refine .inl ⟨hlends, ?_⟩
    obtain ⟨conn, pool₁, hconn⟩ := hlends
    rw [run_eq, hconn] at h
    dsimp only at h
    rw [serverLogin_of_refused hrefused] at h
    split at h
    · cases h
      rfl
    · cases h
  · refine .inr ⟨hlends, ?_⟩
    rcases run_of_not_lends hlends with hr | hr
    · rw [hr] at h
      cases h
    · rw [hr] at h
      cases h
      rfl

/-- When it accepts it fills the user in. -/
theorem login_accepted (h : env.run secp now msg pool = some (.ok login, pool'))
    (haccepted : LoginAccepted secp env pool msg) : Message.isInitialized login.user = true := by
  obtain ⟨⟨conn, pool₁, hconn⟩, pubKey33, haccepted⟩ := haccepted
  rw [run_eq, hconn] at h
  dsimp only at h
  rw [serverLogin_of_accepted haccepted 0] at h
  split at h
  · split at h
    · rename_i r hr
      cases h
      split at hr
      · cases hr
      · rename_i user huser
        cases hr
        exact isInitialized_userOfList huser
    · cases h
  · cases h

theorem login_user (h : env.run secp now msg pool = some (.ok login, pool'))
    (hno : ¬ LoginAccepted secp env pool msg) : login.user = {} := by
  rcases login_refused h hno with ⟨-, rfl⟩ | ⟨-, rfl⟩
  · rfl
  · rfl

end

/-- The result that `ServerLoginReq` passes on. -/
def resultOf (conn : CMsgSrvConn) (login : LoginResult) : ServerLoginRes :=
  { attachData := some (CDbAttachData.encode ⟨attachTypeHandle, conn.handle, 0⟩)
    error := some login.error
    userInfo := some login.user }

section

variable {l : Libs} {e : TaskEnv} {w : Worker} {c : ConnId} {conn conn' : CMsgSrvConn}
  {q : CImPdu} {msg : AuthLoginReq} {k : Nat}

/-- What handling the request of a login comes to, by what `ServerLogin` returns. -/
theorem handleNext_loginRequest (hconn : w.server.conns.find c = some conn')
    (hcid : q.getCommandId = cidServerLoginReq)
    (hparse : l.proto.serverLoginReq.parse q.body = (loginRequest conn msg, true)) :
    w.handleNextResponse l e (k + 1) c q =
      match e.login.run l.secp e.env.now (loginRequest conn msg) w.pool with
      | none => none
      | some (.error fault, pool) => some (w.setPool pool, some fault)
      | some (.ok login, pool) =>
        ((w.setPool pool).setServer
          (w.server.record (loginEvent e.env (loginRequest conn msg) login.error))).respond
          (Worker.handleNextResponse l e k c) c
          (loginResult l (e.env.heap (2 * k)) q (resultOf conn login)) := by
  have haction : getHandler q.getCommandId = some .serverLoginReq := by
    rw [hcid]
    rfl
  rw [Worker.handleNextResponse, hconn]
  dsimp only
  rw [haction]
  dsimp only
  rw [Action.runOn, Worker.serverLoginReq]
  dsimp only
  rw [hparse]
  dsimp only
  cases e.login.run l.secp e.env.now (loginRequest conn msg) w.pool with
  | none => rfl
  | some res =>
    obtain ⟨r, pool⟩ := res
    cases r with
    | error fault => rfl
    | ok login => rfl

/-- A login that `AuthLoginReq` does not refuse, by what `ServerLogin` returns. -/
theorem handlePdu_passed {p : CImPdu} (hlive : Live w.server c conn)
    (hcid : p.getCommandId = cidAuthLoginReq) (haway : ¬ TurnedAway l conn p)
    (hparse : l.proto.authLoginReq.parse p.body = (msg, true))
    (hwritten : l.proto.serverLoginReq.serialize (loginRequest conn msg) ≠ none) :
    w.handlePdu l e c p =
      match e.login.run l.secp e.env.now (loginRequest conn msg) w.pool with
      | none => none
      | some (.error fault, pool) =>
        some ((w.setServer (claimed e.env w.server c conn msg)).setPool pool, some fault)
      | some (.ok login, pool) =>
        ((w.setPool pool).setServer ((claimed e.env w.server c conn msg).record
          (loginEvent e.env (loginRequest conn msg) login.error))).respond
          (Worker.handleNextResponse l e 1 c) c
          (loginResult l (e.env.heap (2 * 1)) p (resultOf conn login)) := by
  have haction : getHandler p.getCommandId = some .authLoginReq := by
    rw [hcid]
    rfl
  obtain ⟨-, -, msg', hparse', -, heq⟩ :=
    authLoginReq_passed l e.env (e.env.heap (2 * 2)) p hlive haway
  cases hparse.symm.trans hparse'
  obtain ⟨data, hdata, hlen, hread⟩ := written_of_ne rfl hwritten
  obtain ⟨-, hcid', hseq', hbody'⟩ := msgPdu_spec (e.env.heap (2 * 2)) cidServerLoginReq
    p.getSeqNum (fun {b} (hb : some data = some b) => Option.some.inj hb ▸ hlen)
  have hrequest : l.proto.serverLoginReq.parse (msgPdu (e.env.heap (2 * 2)) (some data)
      cidServerLoginReq p.getSeqNum).body = (loginRequest conn msg, true) := by
    rw [hbody']
    exact hread
  have hresult : ∀ fill msgRsp, loginResult l fill (msgPdu (e.env.heap (2 * 2)) (some data)
      cidServerLoginReq p.getSeqNum) msgRsp = loginResult l fill p msgRsp := by
    intro fill msgRsp
    rw [loginResult, hseq', loginResult]
  rw [hdata] at heq
  have hrun : Action.authLoginReq.run l e.env (e.env.heap (2 * 2)) ⟨conn.handle, p⟩ w.server = _ :=
    heq
  rw [Worker.handlePdu, handleNext_of_runOn hlive.object haction (runOn_of_run (by simp) hrun),
    respond_next_written hlen, handleNext_loginRequest (w := w.setServer
      (claimed e.env w.server c conn msg)) (live_claimed e.env hlive msg).object hcid' hrequest]
  simp only [hresult]
  rfl

theorem sentPdu_loginEvent (env : Env) (m : ServerLoginReq) (error : ERR) :
    sentPdu (loginEvent env m error) = none := by
  unfold loginEvent
  split
  · rfl
  · rfl

/-- Nothing is sent up to what `ServerLogin` says. -/
theorem silent_claimed (env env' : Env) (s : MsgServer) (m : ServerLoginReq) (error : ERR) :
    Silent s ((claimed env s c conn msg).record (loginEvent env' m error)) :=
  ⟨[loginEvent env' m error], rfl, by simp [sentPdu_loginEvent]⟩

end

/-! ## Requests -/

section

variable (proto : Library) (secp : Secp256k1) (hd : HDPrimitives) (e : TaskEnv)
  (conn : CMsgSrvConn) (p : CImPdu) (pool : CachePool)

/-- Serialisation fails just when a required field is not set, on every message that comes up while
    `p` is handled. -/
structure ExactFor : Prop where
  captcha : Exact proto.authCaptchaRes
    (captchaRes secp hd (captchaPhrase e.env) e.env.captcha e.env.iv e.env.aad)
  captchaError : Exact proto.authCaptchaRes { error := some .ePbParseError }
  request : ∀ {msg}, proto.authLoginReq.parse p.body = (msg, true) →
    Exact proto.serverLoginReq (loginRequest conn msg)
  result : ∀ {msg login pool'}, proto.authLoginReq.parse p.body = (msg, true) →
    e.login.run secp e.env.now (loginRequest conn msg) pool = some (.ok login, pool') →
    Exact proto.serverLoginRes (resultOf conn login)
  user : ∀ {msg login pool'} error, proto.authLoginReq.parse p.body = (msg, true) →
    e.login.run secp e.env.now (loginRequest conn msg) pool = some (.ok login, pool') →
    Exact proto.authLoginRes { error := some error, userInfo := some (replyUser login.user) }

/-- A login request that is answered: `AuthLoginReq` refuses it, or `ServerLogin` returns and accepts
    it. If it returns and refuses, then the memory that the PDU of the result gets has to look like
    a length. -/
def LoginAnswered : Prop :=
  TurnedAway (.ofHD proto secp hd) conn p ∨
    ∃ msg, proto.authLoginReq.parse p.body = (msg, true) ∧
      LoginSafe secp e.login pool (loginRequest conn msg) ∧
      (LoginAccepted secp e.login pool (loginRequest conn msg) ∨
        staleLength (e.env.heap (2 * 1)) ≤ 16)

variable {proto secp hd e conn p pool} {w : Worker} {c : ConnId} {s : MsgServer}

/-- The next handler answers the result of a login that was written. -/
theorem replies_resultOf {msg : AuthLoginReq} {login : LoginResult} {pool' : CachePool}
    (hexact : ExactFor proto secp hd e conn p pool)
    (hparse : proto.authLoginReq.parse p.body = (msg, true))
    (hlogin : e.login.run secp e.env.now (loginRequest conn msg) pool = some (.ok login, pool'))
    (hs : Silent s w.server) {conn' : CMsgSrvConn} (hlive : Live w.server c conn')
    (hkeyed : Keyed w.server) (fill : Nat → UInt8) (seq : UInt16) {data : Bytes}
    (hlen : data.length < 2 ^ 31)
    (hread : proto.serverLoginRes.parse data = (resultOf conn login, true)) :
    Replies proto.authLoginRes cidAuthLoginRes seq c s
      (w.handleNextResponse (.ofHD proto secp hd) e 1 c
        (msgPdu fill (some data) cidServerLoginRes seq)) := by
  obtain ⟨-, hcid, hseq, hbody⟩ := msgPdu_spec fill cidServerLoginRes seq
    (fun {b} (hb : some data = some b) => Option.some.inj hb ▸ hlen)
  have hresult : ∀ m, proto.serverLoginRes.parse (msgPdu fill (some data) cidServerLoginRes
      seq).body = (m, true) → m = resultOf conn login := by
    intro m hm
    rw [hbody] at hm
    exact (Prod.mk.inj (hm.symm.trans hread)).1
  have hreplies := replies_result (l := .ofHD proto secp hd) (e := e) (k := 0) hs hlive hkeyed hcid
    (fun m hm => by rw [hresult m hm]; exact Nat.le_of_eq (length_encode_attach _).symm) ?_
  · rw [hseq] at hreplies
    exact hreplies
  · intro msgRsp hmsg
    cases hmsg with
    | error err => exact serialize_error_ne _ err
    | user err hm =>
      rw [hresult _ hm]
      exact (hexact.user err hparse hlogin).ne_none rfl

/-- The result of a login is passed on and answered, or it is not written. -/
theorem replies_loginResult_iff {msg : AuthLoginReq} {login : LoginResult} {pool' : CachePool}
    (hexact : ExactFor proto secp hd e conn p pool)
    (hparse : proto.authLoginReq.parse p.body = (msg, true))
    (hlogin : e.login.run secp e.env.now (loginRequest conn msg) pool = some (.ok login, pool'))
    (hs : Silent s w.server) {conn' : CMsgSrvConn} (hlive : Live w.server c conn')
    (hkeyed : Keyed w.server) (q : CImPdu) :
    Replies proto.authLoginRes cidAuthLoginRes q.getSeqNum c s
        (w.respond (Worker.handleNextResponse (.ofHD proto secp hd) e 1 c) c
          (loginResult (.ofHD proto secp hd) (e.env.heap (2 * 1)) q (resultOf conn login))) ↔
      LoginAccepted secp e.login pool (loginRequest conn msg) ∨
        staleLength (e.env.heap (2 * 1)) ≤ 16 := by
  have hres := hexact.result hparse hlogin
  change Replies _ _ _ _ _ (w.respond _ c (.next _ (proto.serverLoginRes.serialize _) _ _)) ↔ _
  by_cases haccepted : LoginAccepted secp e.login pool (loginRequest conn msg)
  · refine ⟨fun _ => .inl haccepted, fun _ => ?_⟩
    have hinit : Message.isInitialized (resultOf conn login) = true :=
      login_accepted hlogin haccepted
    obtain ⟨data, hdata, hlen, hread⟩ := written_of_ne hinit (hres.ne_none hinit)
    rw [hdata, respond_next_written hlen]
    exact replies_resultOf hexact hparse hlogin hs hlive hkeyed _ _ hlen hread
  · -- the user of the result is empty, and the result is not written
    have hnone : proto.serverLoginRes.serialize (resultOf conn login) = none := by
      apply hres.unwritten
      rw [resultOf, login_user hlogin haccepted]
      rfl
    rw [hnone, respond_next_unwritten]
    by_cases hstale : staleLength (e.env.heap (2 * 1)) ≤ 16
    · refine ⟨fun _ => .inr hstale, fun _ => ?_⟩
      rw [if_pos hstale]
      exact replies_emptyResult (l := .ofHD proto secp hd) hs hlive _ _
    · rw [if_neg hstale]
      refine ⟨?_, fun h => absurd h (not_or.mpr ⟨haccepted, hstale⟩)⟩
      rintro ⟨w', reply, heq, hsent, -⟩
      cases heq
      cases hs.sentSince.symm.trans hsent

theorem oneReply_login_iff (hexact : ExactFor proto secp hd e conn p w.pool)
    (hlive : Live w.server c conn) (hkeyed : Keyed w.server)
    (hcid : p.getCommandId = cidAuthLoginReq) :
    OneReply proto.authLoginRes cidAuthLoginRes (.ofHD proto secp hd) e c p w ↔
      LoginAnswered proto secp hd e conn p w.pool := by
  have haction : getHandler p.getCommandId = some .authLoginReq := by
    rw [hcid]
    rfl
  by_cases haway : TurnedAway (.ofHD proto secp hd) conn p
  · refine ⟨fun _ => .inl haway, fun _ => ?_⟩
    obtain ⟨err, -, heq⟩ := authLoginReq_turnedAway (.ofHD proto secp hd) p hlive haway
    have hrun : Action.authLoginReq.run (.ofHD proto secp hd) e.env (e.env.heap (2 * 2))
        ⟨conn.handle, p⟩ w.server = _ := heq e.env (e.env.heap (2 * 2))
    rw [OneReply, Worker.handlePdu,
      handleNext_of_runOn hlive.object haction (runOn_of_run (by simp) hrun)]
    exact replies_sendMsg (silent_refl _) rfl (serialize_error_ne _ err) _ _
  · obtain ⟨-, -, msg, hparse, -⟩ := authLoginReq_passed (.ofHD proto secp hd) e.env
      (e.env.heap (2 * 2)) p hlive haway
    have hparse : proto.authLoginReq.parse p.body = (msg, true) := hparse
    have hclaimed := live_claimed e.env hlive msg
    have hkeyed' : Keyed (claimed e.env w.server c conn msg) :=
      Keyed.setConn hkeyed (hkeyed c conn hlive.object)
    rw [OneReply, handlePdu_passed hlive hcid haway hparse ((hexact.request hparse).ne_none rfl)]
    have hiff : LoginAnswered proto secp hd e conn p w.pool ↔
        LoginSafe secp e.login w.pool (loginRequest conn msg) ∧
          (LoginAccepted secp e.login w.pool (loginRequest conn msg) ∨
            staleLength (e.env.heap (2 * 1)) ≤ 16) := by
      constructor
      · rintro (h | ⟨msg', hparse', h⟩)
        · exact absurd h haway
        · cases hparse.symm.trans hparse'
          exact h
      · intro h
        exact .inr ⟨msg, hparse, h⟩
    rw [hiff]
    by_cases hsafe : LoginSafe secp e.login w.pool (loginRequest conn msg)
    · obtain ⟨login, pool', hlogin⟩ := (run_returns_iff e.env.now).mpr hsafe
      have hlogin' : e.login.run (Libs.ofHD proto secp hd).secp e.env.now (loginRequest conn msg)
          w.pool = some (.ok login, pool') := hlogin
      rw [hlogin']
      exact (replies_loginResult_iff hexact hparse hlogin (silent_claimed _ _ _ _ _)
        (hclaimed.record _) hkeyed' _).trans (and_iff_right hsafe).symm
    · refine ⟨?_, fun h => absurd h.1 hsafe⟩
      rintro ⟨w', reply, heq, -⟩
      refine absurd ((run_returns_iff e.env.now).mp ?_) hsafe
      split at heq
      · cases heq
      · cases heq
      · rename_i login pool' hlogin
        exact ⟨login, pool', hlogin⟩

end

theorem oneReply_iff_answered (proto : Library) (secp : Secp256k1) (hd : HDPrimitives) (e : TaskEnv)
    (w : Worker) (c : ConnId) (conn : CMsgSrvConn) (p : CImPdu)
    (hreached : w.Reached (.ofHD proto secp hd)) (hconn : w.server.conns.find c = some conn)
    (hexact : ExactFor proto secp hd e conn p w.pool) :
    (p.getCommandId = cidAuthCaptchaReq →
      (OneReply proto.authCaptchaRes cidAuthCaptchaRes (.ofHD proto secp hd) e c p w ↔
        (proto.authCaptchaReq.parse p.body).2 = true)) ∧
    (p.getCommandId = cidAuthLoginReq →
      (OneReply proto.authLoginRes cidAuthLoginRes (.ofHD proto secp hd) e c p w ↔
        LoginAnswered proto secp hd e conn p w.pool)) := by
  have hinv := syncInv_of_reached hreached
  have hlive := hinv.routing.live c conn hconn
  refine ⟨?_, ?_⟩
  · intro hcid
    exact oneReply_captcha_iff hlive hcid hexact.captcha hexact.captchaError
  · intro hcid
    exact oneReply_login_iff hexact hlive hinv.keyed hcid

/-! ## A login that is refused -/

theorem exact_strictCodec {M : Type} [Message M] [Runtime.Readable M] {m : M}
    (h : (Wire.encode (Message.fields m)).length < 2 ^ 31) :
    Exact (Runtime.strictCodec : Codec M) m := by
  cases hinit : Message.isInitialized m with
  | false =>
    refine ⟨fun _ => hinit, fun _ => ?_⟩
    change (if Message.isInitialized m = true then _ else none) = none
    rw [hinit]
    rfl
  | true =>
    have hdata := (Runtime.strictCodec : Codec M).serialize_eq hinit h
    rw [Exact, hdata, hinit]
    exact ⟨nofun, nofun⟩

def strictLibs : Libs := .ofHD Runtime.strictLibrary sampleSecp Net.sampleHD

/-- The connection of a client that has its captcha. -/
def captchaHolder : CMsgSrvConn :=
  captchaConn Net.sampleHD sampleEnv { handle := 5 } (captchaPhrase sampleEnv)

theorem length_sign_sampleSecp (hash prvKey : Bytes) :
    (sampleSecp.sign hash prvKey).1.length = 64 := by
  have hsig : serverSig64.length = 64 := by
    simp only [sample_bytes, length_toBE]
  dsimp only [sampleSecp]
  split
  · exact hsig
  · exact List.length_replicate

theorem exact_captchaAnswer : Exact Runtime.strictLibrary.authCaptchaRes (captchaRes sampleSecp
    Net.sampleHD (captchaPhrase sampleEnv) sampleEnv.captcha sampleEnv.iv sampleEnv.aad) := by
  have hcaptcha : sampleEnv.captcha.length = 6 ∧ ∀ x ∈ sampleEnv.captcha, x ≠ 0 := by
    decide +kernel
  apply exact_strictCodec
  apply length_captchaRes_of_drawn ⟨hcaptcha.1, hcaptcha.2, rfl, rfl⟩
  · exact length_ecdsaSignRecoverable (length_sign_sampleSecp _ _)
  · rw [HDKey.ecdsaGetPublicAddress, List.length_drop, Net.length_keccak256_sampleHD]

/-- A client is connected. -/
def joinedWorker : Worker := idleWorker.setServer (MsgServer.empty.onConnect 5)

/-- Its captcha has been sent. -/
def captchaWorker : Worker :=
  (joinedWorker.setServer ((joinedWorker.server.setConn 0 captchaHolder).record
    (.issued 0 sampleEnv.captcha))).sendPdu 0
      ((msgPdu (sampleEnv.heap (2 * 2)) (Runtime.strictLibrary.authCaptchaRes.serialize
        (captchaRes sampleSecp Net.sampleHD (captchaPhrase sampleEnv) sampleEnv.captcha sampleEnv.iv
          sampleEnv.aad)) cidAuthCaptchaRes captchaPdu.getSeqNum).setReversed 0)

theorem parse_captchaPdu :
    (Runtime.strictLibrary.authCaptchaReq.parse captchaPdu.body).2 = true := by
  decide +kernel

theorem reached_captchaWorker : captchaWorker.Reached strictLibs := by
  have hconnect : idleWorker.syncStep strictLibs (.connect 5) = some joinedWorker := rfl
  have hfree : SyncEvent.Possible idleWorker (.connect 5) := rfl
  have hjoined : joinedWorker.Reached strictLibs := .step (.start samplePool) hfree hconnect
  have hlive : Live joinedWorker.server 0 { handle := 5 } := ⟨rfl, rfl⟩
  have haction : getHandler captchaPdu.getCommandId = some .authCaptchaReq := by
    rw [getCommandId_captchaPdu]
    rfl
  obtain ⟨data, hdata, hlen, -⟩ := written_of_ne rfl (exact_captchaAnswer.ne_none rfl)
  have hrun : Action.authCaptchaReq.run strictLibs sampleTaskEnv.env
      (sampleTaskEnv.env.heap (2 * 2)) ⟨5, captchaPdu⟩ joinedWorker.server =
      ((joinedWorker.server.setConn 0 captchaHolder).record (.issued 0 sampleEnv.captcha),
        .ok (.sendMsg (sampleEnv.heap (2 * 2)) (some data) cidAuthCaptchaRes
          captchaPdu.getSeqNum)) := by
    rw [← hdata]
    exact authCaptchaReq_parsed hlive parse_captchaPdu _
  have hhandled : joinedWorker.handlePdu strictLibs sampleTaskEnv 0 captchaPdu =
      some (captchaWorker, none) := by
    rw [Worker.handlePdu, handleNext_of_runOn hlive.object haction (runOn_of_run (by simp) hrun),
      captchaWorker, hdata]
    exact respond_written hlen
  have hrecv : joinedWorker.syncStep strictLibs (.recv sampleTaskEnv 0 captchaPdu) =
      some captchaWorker := by
    rw [Worker.syncStep, hhandled]
  have hclient : SyncEvent.Possible joinedWorker (.recv sampleTaskEnv 0 captchaPdu) := trivial
  exact .step hjoined hclient hrecv

/-- The login request of the sample with this signature, as `AuthLoginReq` reads it. -/
def sampleLogin (sign : Bytes) : AuthLoginReq :=
  { address := some clientAddress
    captcha := some sampleCaptcha
    clientType := some .ios
    sign := some sign }

/-- What `ServerLogin` says of zeros for a signature, and how long the messages are. -/
theorem zeros_refused :
    recoverPubKeyAndAddressFromSig sampleSecp (signAt (List.replicate 65 0) sampleEnv.beyond)
        (formatSignMsgData sampleCaptcha .ptp) = none ∧
      Admissible (signAt (List.replicate 65 0) sampleEnv.beyond) ∧
      (Wire.encode (Message.fields (loginRequest captchaHolder
        (sampleLogin (List.replicate 65 0))))).length < 2 ^ 31 ∧
      Runtime.strictLibrary.authLoginReq.parse wrongPdu.body =
        (sampleLogin (List.replicate 65 0), true) ∧
      captchaHolder.captcha = sampleCaptcha ∧ sampleCaptcha ≠ [] := by
  decide +kernel

/-- The environment of the login; `fill` is what the memory for responses holds. -/
def filledEnv (fill : UInt8) : TaskEnv :=
  ⟨{ sampleEnv with heap := fun _ _ => fill }, true, workingReplies⟩

theorem not_accepted_zeros (fill : UInt8) (pool : CachePool) : ¬ LoginAccepted sampleSecp
    (filledEnv fill).login pool (loginRequest captchaHolder (sampleLogin (List.replicate 65 0))) := by
  rintro ⟨-, pubKey33, haccepted⟩
  cases zeros_refused.1.symm.trans haccepted

theorem exactFor_wrongPdu (fill : UInt8) (pool : CachePool) : ExactFor Runtime.strictLibrary
    sampleSecp Net.sampleHD (filledEnv fill) captchaHolder wrongPdu pool := by
  obtain ⟨-, -, hrequest, hparse, -⟩ := zeros_refused
  -- the user is empty, since the signature is refused
  have hempty : ∀ {login pool'}, (filledEnv fill).login.run sampleSecp (filledEnv fill).env.now
      (loginRequest captchaHolder (sampleLogin (List.replicate 65 0))) pool =
        some (.ok login, pool') → userLength login.user < 2 ^ 30 := by
    intro login pool' hlogin
    rw [login_user hlogin (not_accepted_zeros fill pool)]
    decide
  refine ⟨exact_captchaAnswer, exact_strictCodec (by decide), ?_, ?_, ?_⟩
  · intro msg hmsg
    cases hparse.symm.trans hmsg
    exact exact_strictCodec hrequest
  · intro msg login pool' hmsg hlogin
    cases hparse.symm.trans hmsg
    exact exact_strictCodec (length_serverLoginRes_le _ (hempty hlogin)
      (Nat.le_of_eq (length_encode_attach _)))
  · intro msg login pool' error hmsg hlogin
    cases hparse.symm.trans hmsg
    exact exact_strictCodec (length_authLoginRes_le error (hempty hlogin))

theorem not_turnedAway_wrongPdu : ¬ TurnedAway strictLibs captchaHolder wrongPdu := by
  obtain ⟨-, -, -, hparse, hcaptcha, hne⟩ := zeros_refused
  rintro (haddress | hnil | hother)
  · exact haddress rfl
  · exact hne (hcaptcha.symm.trans hnil)
  · exact hother _ hparse hcaptcha.symm

/-- The memory is empty, and the client hears that parsing failed. -/
theorem oneReply_wrongPdu : OneReply Runtime.strictLibrary.authLoginRes cidAuthLoginRes strictLibs
    (filledEnv 0) 0 wrongPdu captchaWorker := by
  obtain ⟨-, hadm, -, hparse, -⟩ := zeros_refused
  apply ((oneReply_iff_answered Runtime.strictLibrary sampleSecp Net.sampleHD (filledEnv 0)
    captchaWorker 0 captchaHolder wrongPdu reached_captchaWorker rfl
    (exactFor_wrongPdu 0 samplePool)).2 getCommandId_wrongPdu).mpr
  refine .inr ⟨_, hparse, ⟨?_, fun _ => ⟨hadm, fun _ _ => by decide⟩⟩, .inr (by decide)⟩
  simp [captchaWorker, joinedWorker, idleWorker, samplePool, CachePool.getCacheConn,
    Worker.sendPdu, Worker.setServer]

/-- The memory is full of ones, and the client hears nothing. -/
theorem not_oneReply_wrongPdu :
    captchaWorker.Reached strictLibs ∧ captchaWorker.server.conns.find 0 = some captchaHolder ∧
      wrongPdu.getCommandId = cidAuthLoginReq ∧
      ExactFor Runtime.strictLibrary sampleSecp Net.sampleHD (filledEnv 255) captchaHolder wrongPdu
        captchaWorker.pool ∧
      ¬ OneReply Runtime.strictLibrary.authLoginRes cidAuthLoginRes strictLibs (filledEnv 255) 0
        wrongPdu captchaWorker := by
  have hlive : Live captchaWorker.server 0 captchaHolder := ⟨rfl, rfl⟩
  have hexact : ExactFor Runtime.strictLibrary sampleSecp Net.sampleHD (filledEnv 255) captchaHolder
      wrongPdu captchaWorker.pool := exactFor_wrongPdu 255 samplePool
  refine ⟨reached_captchaWorker, hlive.object, getCommandId_wrongPdu, hexact, ?_⟩
  intro h
  have hkeyed := (syncInv_of_reached reached_captchaWorker).keyed
  rcases (oneReply_login_iff hexact hlive hkeyed getCommandId_wrongPdu).mp h with
    haway | ⟨msg, hparse, -, haccepted | hstale⟩
  · exact not_turnedAway_wrongPdu haway
  · cases zeros_refused.2.2.2.1.symm.trans hparse
    exact not_accepted_zeros 255 _ haccepted
  · exact absurd hstale (by decide)

end Server
end Proof
end PtpCore
