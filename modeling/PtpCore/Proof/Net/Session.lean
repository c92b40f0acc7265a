import PtpCore.Lib.Run
import PtpCore.Proof.Net.ClientKeys

/-!
# Whether both ends have the same keys

The client stores what the answer to a captcha request says, and the server computes its shared key
when a login succeeds, from the key it has then. While the connection is not open, the last captcha
decides for both: once its answer has arrived, the client has what the connection has (`InStep`).
A captcha request on an open connection replaces the key under the shared key, and the client
follows it.
-/

namespace PtpCore
namespace Proof
namespace Net

open Lib PtpCore.Proto PtpCore.Crypto
open PtpCore.Global PtpCore.Server PtpCore.Wallet PtpCore.Net
open PtpCore.Proof.Global PtpCore.Proof.Server PtpCore.Proof.Wallet
open Toolbox AccountManager

/-! ## Agreement -/

section

variable {l : ClientLibs} (c : ConnId)

/-- Nothing is on its way, also not to or from the business server. -/
structure Settled (s : Session l) : Prop where
  toServer : s.toServer = []
  toClient : s.toClient = []
  pending : s.server.pending = []

/-- If the connection is open and nothing is on its way, both ends have the same three strings. -/
def Agreed (s : Session l) : Prop :=
  ∀ conn, s.server.conns.find c = some conn → conn.isOpen = true → Settled s →
    s.account.channel = ⟨conn.shareKey, conn.iv, conn.aad⟩

/-- What can happen: each side reads the first PDU on its way to it, and the business server
    answers a request that waits. -/
def Possible (s : Session l) : SessionStep → Prop
  | .requestCaptcha _ _ => True
  | .requestLogin env captcha => 2 < env.depth ∧ captcha.length ≤ 6
  | .serve env q => Drawn env ∧ ∃ p rest, s.toServer = p :: rest ∧ Delivered p q
  | .receive env q => 2 < env.depth ∧ ∃ p rest, s.toClient = p :: rest ∧ Delivered p q
  | .answer k turn _ p => ∃ request b r, s.server.pending[k]? = some request ∧
      Delivered request.pdu turn.task.pdu ∧
      CProxyTask.run l.server turn.env turn.task .serverLoginReq turn.server = (b, .ok (some r)) ∧
      Delivered r p
  | .others _ => True

/-- No captcha request is handled on an open connection, and what the cache has of a user is short
    enough for a reply. -/
def Orderly (s : Session l) : SessionStep → Prop
  | .serve env q => CacheFits env.cache ∧ ∀ conn, s.server.conns.find c = some conn →
      conn.isOpen = true → q.getCommandId ≠ cidAuthCaptchaReq
  | .answer _ turn _ _ => CacheFits turn.env.cache
  | _ => True

end

/-! ## The invariant -/

section

variable {l : ClientLibs} (pub : Bytes → l.secp.PubKey) (m : Bytes)

/-- The client has what the connection has. -/
structure Knows (ch : Channel) (conn : CMsgSrvConn) : Prop where
  iv : ch.ivHex = conn.iv
  aad : ch.aadHex = conn.aad
  key : ∀ m' secret, conn.prvKey = bytesToHexString (phraseKey l.hd m') →
    l.secp.ecdh (pub (phraseKey l.hd m)) (phraseKey l.hd m') = some secret →
    ch.sharedKeyHex = bytesToHexString secret

/-- The client has what the connection has, or the PDU that tells it so is on its way, and none
    behind that tells it anything else. -/
def InStep (conn : CMsgSrvConn) (pdus : List CImPdu) (ch : Channel) : Prop :=
  ((∀ p ∈ pdus, Quiet p) ∧ (conn.prvKey = [] ∨ Knows pub m ch conn)) ∨
    ∃ pre p post draw m', pdus = pre ++ p :: post ∧ CarriesKeys l.secp l.hd conn draw m' p ∧
      ∀ x ∈ post, Quiet x

variable (c : ConnId)

structure SessionInv (conn : CMsgSrvConn) (s : Session l) : Prop where
  toServer : ∀ p ∈ s.toServer, FromClient l.proto l.secp l.hd m p
  live : Live s.server c conn
  key : HasKey l.hd conn
  shares : Shares pub l.hd m conn
  inStep : InStep pub m conn s.toClient s.account.channel
  pending : ∀ request ∈ s.server.pending, OwnPending l.proto l.secp l.hd m conn.handle request

/-- An account in order, and the invariant for the phrase it has; for every phrase if it has none
    yet. -/
def SessionOk (s : Session l) : Prop :=
  (Fresh l.storage s.account.manager ∨ Loaded (hdKeyEncoder l.hd) l.storage s.account.manager) ∧
    ∀ m, MayHave l.hd l.storage s.account.manager m → ∃ conn, SessionInv pub m c conn s

variable {pub m c} {conn conn' : CMsgSrvConn} {pdus more : List CImPdu} {ch : Channel}

theorem Knows.congr (h : Knows pub m ch conn) (hkey : conn'.prvKey = conn.prvKey)
    (hiv : conn'.iv = conn.iv) (haad : conn'.aad = conn.aad) : Knows pub m ch conn' where
  iv := h.iv.trans hiv.symm
  aad := h.aad.trans haad.symm
  key := fun m' secret hm' => h.key m' secret (hkey ▸ hm')

/-- Quiet PDUs may follow. -/
theorem InStep.append (h : InStep pub m conn pdus ch) (hkey : conn'.prvKey = conn.prvKey)
    (hiv : conn'.iv = conn.iv) (haad : conn'.aad = conn.aad) (hmore : ∀ p ∈ more, Quiet p) :
    InStep pub m conn' (pdus ++ more) ch := by
  rcases h with ⟨hquiet, hknows⟩ | ⟨pre, p, post, draw, m', rfl, hp, hpost⟩
  · left
    refine ⟨?_, ?_⟩
    · intro p hp
      rcases List.mem_append.mp hp with hp | hp
      · exact hquiet p hp
      · exact hmore p hp
    · rcases hknows with hnil | hknows
      · exact .inl (hkey.trans hnil)
      · exact .inr (hknows.congr hkey hiv haad)
  · right
    refine ⟨pre, p, post ++ more, draw, m', by simp, ?_, ?_⟩
    · exact ⟨hp.drawn, hkey.trans hp.prvKey, hiv.trans hp.iv, haad.trans hp.aad, hp.wrote,
        hp.reversed⟩
    · intro x hx
      rcases List.mem_append.mp hx with hx | hx
      · exact hpost x hx
      · exact hmore x hx

/-- An answer to a captcha request goes out last. -/
theorem inStep_concat {draw : Env} {m' : Bytes} {p : CImPdu}
    (h : CarriesKeys l.secp l.hd conn draw m' p) : InStep pub m conn (pdus ++ [p]) ch :=
  .inr ⟨pdus, p, [], draw, m', rfl, h, nofun⟩

/-- A settled client has what an open connection has. -/
theorem InStep.agreed (h : InStep pub m conn [] ch) (hshares : Shares pub l.hd m conn)
    (hopen : conn.isOpen = true) : ch = ⟨conn.shareKey, conn.iv, conn.aad⟩ := by
  obtain ⟨m', secret, hprv, hsecret, hshare⟩ := hshares hopen
  rcases h with ⟨-, hnil | hknows⟩ | ⟨pre, p, post, draw, m', hnil, -⟩
  · rw [hprv] at hnil
    cases hnil
  · obtain ⟨sharedKeyHex, ivHex, aadHex⟩ := ch
    have hkey := hknows.key m' secret hprv hsecret
    have hiv := hknows.iv
    have haad := hknows.aad
    dsimp only at hkey hiv haad
    rw [hkey, hiv, haad, hshare]
  · exact absurd hnil.symm (by simp)

theorem SessionOk.agreed {s : Session l} (h : SessionOk pub c s) : Agreed c s := by
  intro conn hfind hopen hsettled
  obtain ⟨m, hm⟩ := exists_mayHave h.1
  obtain ⟨conn', hinv⟩ := h.2 m hm
  cases hinv.live.object.symm.trans hfind
  have hstep := hinv.inStep
  rw [hsettled.toClient] at hstep
  exact hstep.agreed hinv.shares hopen

end

/-! ## Steps of the client -/

section

variable {l : ClientLibs} {pub : Bytes → l.secp.PubKey} {c : ConnId} {m : Bytes}
  {conn : CMsgSrvConn} {s : Session l}

/-- The answer that the connection sent last has arrived. -/
theorem knows_handlePdu (hlaws : KeyLaws l.secp l.hd pub) {env : ClientEnv} {draw : Env}
    {m' : Bytes} {p q : CImPdu} (hp : CarriesKeys l.secp l.hd conn draw m' p) (hq : Delivered p q)
    {a : Account l.storage.Files}
    (ha : Fresh l.storage a.manager ∨ Loaded (hdKeyEncoder l.hd) l.storage a.manager)
    (hdepth : 2 < env.depth) (hm : MayHave l.hd l.storage (a.handlePdu l env q).1.manager m) :
    Knows pub m (a.handlePdu l env q).1.channel conn := by
  obtain ⟨address, manager, hget, -, hloaded, -⟩ :=
    getAccountAddress_loads hlaws ha env.memory hdepth
  obtain ⟨hcid, hbody⟩ := hp.wrote.delivered hq
  have hreversed : ¬ q.getReversed = 1 := by
    rw [hp.reversed q hq]
    decide
  have hhandle : a.handlePdu l env q = a.handleCaptcha l env q := by
    rw [Account.handlePdu, if_neg hreversed]
    exact if_pos hcid
  rw [hhandle, (handleCaptcha_request (q := q) hget).1] at hm
  rw [hhandle, handleCaptcha_own hlaws hp.drawn (takenApart hlaws hp.drawn hbody) hget
    (hm.hasPhrase hloaded)]
  refine ⟨hp.iv.symm, hp.aad.symm, ?_⟩
  intro m'' secret hprv hsecret
  -- keys with the same text are the same key, so both sides multiply the same two
  have hsame : phraseKey l.hd m' = phraseKey l.hd m'' :=
    bytesToHex_injective (hp.prvKey.symm.trans hprv)
  rw [hlaws.ecdh_comm, ← hsame] at hsecret
  change bytesToHex _ = bytesToHex _
  rw [hsecret, Option.getD_some]

/-- What the client makes of the first PDU on its way to it. -/
theorem InStep.receive (hlaws : KeyLaws l.secp l.hd pub) {env : ClientEnv} {p q : CImPdu}
    {rest : List CImPdu} {a : Account l.storage.Files}
    (h : InStep pub m conn (p :: rest) a.channel) (hq : Delivered p q)
    (ha : Fresh l.storage a.manager ∨ Loaded (hdKeyEncoder l.hd) l.storage a.manager)
    (hdepth : 2 < env.depth) (hm : MayHave l.hd l.storage (a.handlePdu l env q).1.manager m) :
    InStep pub m conn rest (a.handlePdu l env q).1.channel := by
  rcases h with ⟨hquiet, hknows⟩ | ⟨pre, p', post, draw, m', heq, hp', hpost⟩
  · have hne : q.getCommandId ≠ cidAuthCaptchaRes := by
      rw [CImPdu.getCommandId, hq.header]
      exact hquiet p List.mem_cons_self
    have hchannel : (a.handlePdu l env q).1.channel = a.channel := (handlePdu_quiet hne).2.1
    left
    rw [hchannel]
    exact ⟨fun x hx => hquiet x (List.mem_cons_of_mem p hx), hknows⟩
  · cases pre with
    | nil =>
      cases heq
      exact .inl ⟨hpost, .inr (knows_handlePdu hlaws hp' hq ha hdepth hm)⟩
    | cons x pre =>
      -- an older answer, which the one behind it makes up for
      cases heq
      exact .inr ⟨pre, p', post, draw, m', rfl, hp', hpost⟩

theorem SessionInv.clientAt (h : SessionInv pub m c conn s) {a : Account l.storage.Files}
    {pdus : List CImPdu} (hstep : InStep pub m conn pdus a.channel)
    {sent : Except NetFault (Option CImPdu)}
    (hsent : ∀ pdu, sent = .ok (some pdu) → FromClient l.proto l.secp l.hd m pdu) :
    SessionInv pub m c conn ((s.setToClient pdus).clientAt a sent) where
  toServer := by
    intro p hp
    rcases List.mem_append.mp hp with hp | hp
    · exact h.toServer p hp
    · match sent, hsent, hp with
      | .ok (some pdu), hsent, hp =>
        cases List.mem_singleton.mp hp
        exact hsent _ rfl
  live := h.live
  key := h.key
  shares := h.shares
  inStep := hstep
  pending := h.pending

/-- A call of the client, which leaves the channel in step with what is still on its way. -/
theorem SessionOk.clientAt (h : SessionOk pub c s) {pdus : List CImPdu}
    {r : Account l.storage.Files × Except NetFault (Option CImPdu)} (hcall : OwnCall s.account r)
    (hstep : ∀ m conn, MayHave l.hd l.storage r.1.manager m →
      InStep pub m conn s.toClient s.account.channel → InStep pub m conn pdus r.1.channel) :
    SessionOk pub c ((s.setToClient pdus).clientAt r.1 r.2) := by
  refine ⟨hcall.ok, ?_⟩
  intro m hm
  -- a phrase that the account has after the call is one it may have had before it
  obtain ⟨conn, hinv⟩ := h.2 m (hcall.phrase m hm)
  exact ⟨conn, hinv.clientAt (hstep m conn hm hinv.inStep) (hcall.sent m hm)⟩

theorem SessionOk.requestCaptcha (h : SessionOk pub c s) (async : Bool) (heap : Nat → UInt8)
    (seqNum : UInt16) : SessionOk pub c (sessionStep async c s (.requestCaptcha heap seqNum)) := by
  refine ⟨h.1, ?_⟩
  intro m hm
  obtain ⟨conn, hinv⟩ := h.2 m hm
  have hsent : ∀ pdu, (.ok (some (CImPdu.new.setPBMsgCmd heap (l.proto.authCaptchaReq.serialize {})
      cidAuthCaptchaReq seqNum)) : Except NetFault (Option CImPdu)) = .ok (some pdu) →
      FromClient l.proto l.secp l.hd m pdu := by
    intro pdu hpdu
    cases hpdu
    exact fromClient_captcha l.proto heap seqNum
  exact ⟨conn, hinv.clientAt hinv.inStep hsent⟩

theorem SessionOk.requestLogin (hlaws : KeyLaws l.secp l.hd pub) (h : SessionOk pub c s)
    (async : Bool) {env : ClientEnv} {captcha : Bytes}
    (hstep : Possible s (.requestLogin env captcha)) :
    SessionOk pub c (sessionStep async c s (.requestLogin env captcha)) := by
  obtain ⟨hcall, hchannel⟩ := ownCall_requestLogin hlaws h.1 hstep.1 hstep.2
  have hin : ∀ m conn, MayHave l.hd l.storage (s.account.requestLogin env captcha).1.manager m →
      InStep pub m conn s.toClient s.account.channel →
      InStep pub m conn s.toClient (s.account.requestLogin env captcha).1.channel := by
    intro m conn _ hin
    rw [hchannel]
    exact hin
  exact h.clientAt hcall hin

theorem SessionOk.receive (hlaws : KeyLaws l.secp l.hd pub) (h : SessionOk pub c s)
    (async : Bool) {env : ClientEnv} {q : CImPdu} (hstep : Possible s (.receive env q)) :
    SessionOk pub c (sessionStep async c s (.receive env q)) := by
  obtain ⟨hdepth, p, rest, htoClient, hq⟩ := hstep
  have hin : ∀ m conn, MayHave l.hd l.storage (s.account.handlePdu l env q).1.manager m →
      InStep pub m conn s.toClient s.account.channel →
      InStep pub m conn s.toClient.tail (s.account.handlePdu l env q).1.channel := by
    intro m conn hm hin
    rw [htoClient] at hin ⊢
    exact hin.receive hlaws hq h.1 hdepth hm
  exact h.clientAt (ownCall_handlePdu hlaws h.1 hdepth q) hin

end

/-! ## Steps of the server -/

theorem mem_sentTo {c : ConnId} {es : List Event} {p : CImPdu} (h : p ∈ sentTo c es) :
    .sent c p ∈ es := by
  obtain ⟨e, he, heq⟩ := List.mem_filterMap.mp h
  cases e with
  | sent d pdu =>
    dsimp only at heq
    split at heq
    · rename_i hd
      cases heq
      exact hd ▸ he
    · cases heq
  | issued => cases heq
  | accepted => cases heq
  | refused => cases heq
  | opened => cases heq

section

variable {l : ClientLibs} {pub : Bytes → l.secp.PubKey} {c : ConnId} {m : Bytes}
  {conn conn' : CMsgSrvConn} {s : Session l}

theorem SessionInv.setToServer (h : SessionInv pub m c conn s) {pdus : List CImPdu}
    (hpdus : ∀ p ∈ pdus, p ∈ s.toServer) : SessionInv pub m c conn (s.setToServer pdus) :=
  ⟨fun p hp => h.toServer p (hpdus p hp), h.live, h.key, h.shares, h.inStep, h.pending⟩

/-- The server does something that the client hears nothing of. -/
theorem SessionInv.quietly (h : SessionInv pub m c conn s) {s₀ t : MsgServer}
    (hlog : s₀.log = s.server.log)
    (hpending : ∀ request ∈ s₀.pending, OwnPending l.proto l.secp l.hd m conn.handle request)
    (hq : Quietly l.proto pub l.hd m c conn s₀ conn' t) :
    SessionInv pub m c conn' (s.serverAt c t) := by
  obtain ⟨es, hes, hquiet⟩ := hq.log
  obtain ⟨ps, hps, hown⟩ := hq.pending
  have hdrop : t.log.drop s.server.log.length = es := by
    rw [hes, hlog, List.drop_left]
  refine ⟨h.toServer, hq.live, ?_, hq.shares h.shares, ?_, ?_⟩
  · rw [HasKey, hq.prvKey]
    exact h.key
  · change InStep pub m conn' (s.toClient ++ sentTo c (t.log.drop s.server.log.length)) _
    rw [hdrop]
    exact h.inStep.append hq.prvKey hq.iv hq.aad fun p hp => hquiet p (mem_sentTo hp)
  · intro request hmem
    change request ∈ t.pending at hmem
    rw [hps] at hmem
    rw [hq.handle]
    rcases List.mem_append.mp hmem with hmem | hmem
    · exact hpending request hmem
    · exact hown request hmem

/-- A captcha request on a connection that is not open. -/
theorem SessionInv.captcha (hlaws : KeyLaws l.secp l.hd pub) (h : SessionInv pub m c conn s)
    {env : Env} (henv : Drawn env) {async : Bool} {q : CImPdu}
    (hcid : q.getCommandId = cidAuthCaptchaReq)
    (hparse : (l.proto.authCaptchaReq.parse q.body).2 = true) (hclosed : conn.isOpen = false) :
    ∃ conn', SessionInv pub m c conn'
      (s.serverAt c (handlePdu l.server env async c q s.server).1) := by
  have hanswer : ∃ conn' m' p, CarriesKeys l.secp l.hd conn' env m' p ∧
      conn'.handle = conn.handle ∧ conn'.isOpen = conn.isOpen ∧
      (handlePdu l.server env async c q s.server).1 =
        ((s.server.setConn c conn').record (.issued c env.captcha)).sendPdu c p :=
    handlePdu_captcha_own hlaws henv h.live hcid hparse
  obtain ⟨conn', m', p, hp, hhandle, hopen, heq⟩ := hanswer
  refine ⟨conn', ?_⟩
  rw [heq]
  refine ⟨h.toServer, ⟨?_, ?_⟩, .inr ⟨m', hp.prvKey⟩, ?_, ?_, ?_⟩
  · exact Assoc.find_set_self _ _ _
  · rw [hhandle]
    exact h.live.map
  · -- there is no shared key yet that this could leave behind
    intro hno
    rw [hopen, hclosed] at hno
    cases hno
  · have hdrop : ((s.server.log ++ [Event.issued c env.captcha]) ++ [Event.sent c p]).drop
        s.server.log.length = [.issued c env.captcha, .sent c p] := by
      rw [List.append_assoc, List.drop_left]
      rfl
    change InStep pub m conn' (s.toClient ++ sentTo c (((s.server.log ++
      [Event.issued c env.captcha]) ++ [Event.sent c p]).drop s.server.log.length)) _
    have hsent : sentTo c [.issued c env.captcha, .sent c p] = [p] := by simp [sentTo]
    rw [hdrop, hsent]
    exact inStep_concat hp
  · rw [hhandle]
    exact h.pending

theorem SessionOk.serve (hlaws : KeyLaws l.secp l.hd pub) (h : SessionOk pub c s) (async : Bool)
    {env : Env} {q : CImPdu} (hstep : Possible s (.serve env q))
    (horderly : Orderly c s (.serve env q)) :
    SessionOk pub c (sessionStep async c s (.serve env q)) := by
  obtain ⟨hdrawn, p, rest, htoServer, hq⟩ := hstep
  obtain ⟨hfits, hopen⟩ := horderly
  refine ⟨h.1, ?_⟩
  intro m hm
  obtain ⟨conn, hinv⟩ := h.2 m hm
  have hset : SessionInv pub m c conn (s.setToServer s.toServer.tail) :=
    hinv.setToServer fun p hp => List.mem_of_mem_tail hp
  rcases hinv.toServer p (htoServer ▸ List.mem_cons_self) q hq with ⟨hcid, hparse⟩ | hown
  · have hclosed : conn.isOpen = false := by
      by_contra hno
      exact hopen conn hinv.live.object (Bool.not_eq_false _ ▸ hno) hcid
    exact hset.captcha hlaws hdrawn hcid hparse hclosed
  · have hquietly : ∃ conn', Quietly l.proto pub l.hd m c conn s.server conn'
        (handlePdu l.server env async c q s.server).1 :=
      quietly_login hlaws hfits hinv.live hinv.key hown
    obtain ⟨conn', hquietly⟩ := hquietly
    exact ⟨conn', hset.quietly rfl hinv.pending hquietly⟩

theorem SessionOk.answer (hlaws : KeyLaws l.secp l.hd pub) (hwrites : WritesPartial l.proto)
    (h : SessionOk pub c s) (async : Bool) {k : Nat} {turn : BusinessTurn} {env : Env} {p : CImPdu}
    (hstep : Possible s (.answer k turn env p)) (horderly : Orderly c s (.answer k turn env p)) :
    SessionOk pub c (sessionStep async c s (.answer k turn env p)) := by
  obtain ⟨request, b, r, hrequest, hq, hrun, hp⟩ := hstep
  refine ⟨h.1, ?_⟩
  intro m hm
  obtain ⟨conn, hinv⟩ := h.2 m hm
  -- the request leaves the list before its answer is handled
  have hown := hinv.pending request (List.mem_of_getElem? hrequest)
  have hrest : ∀ other ∈ s.server.pending.eraseIdx k,
      OwnPending l.proto l.secp l.hd m conn.handle other :=
    fun other hmem => hinv.pending other (List.mem_of_mem_eraseIdx hmem)
  have hlive : Live { s.server with pending := s.server.pending.eraseIdx k } c conn :=
    ⟨hinv.live.object, hinv.live.map⟩
  have hquietly : ∃ conn', Quietly l.proto pub l.hd m c conn
      { s.server with pending := s.server.pending.eraseIdx k } conn'
      (handleBusinessPdu l.server env p
        { s.server with pending := s.server.pending.eraseIdx k }).1 :=
    quietly_answer hlaws hwrites horderly hlive hinv.key hown hq hrun hp
  obtain ⟨conn', hquietly⟩ := hquietly
  have hlog : ({ s.server with pending := s.server.pending.eraseIdx k } : MsgServer).log =
      s.server.log := rfl
  exact ⟨conn', hinv.quietly hlog hrest hquietly⟩

theorem SessionOk.others (h : SessionOk pub c s) (async : Bool) (t : MsgServer) :
    SessionOk pub c (sessionStep async c s (.others t)) := by
  cases hconn : s.server.conns.find c with
  | none =>
    rw [sessionStep, hconn]
    exact h
  | some conn =>
    rw [sessionStep, hconn]
    refine ⟨h.1, ?_⟩
    intro m hm
    obtain ⟨conn', hinv⟩ := h.2 m hm
    cases hinv.live.object.symm.trans hconn
    have hnone : ∀ p, Event.sent c p ∈ ([] : List Event) → Quiet p := nofun
    refine ⟨conn, hinv.quietly rfl hinv.pending (quietly_same ?_ rfl ?_ hnone)⟩
    · exact ⟨Assoc.find_set_self _ _ _, Assoc.find_set_self _ _ _⟩
    · exact (List.append_nil _).symm

/-- **One step.** -/
theorem SessionOk.step (hlaws : KeyLaws l.secp l.hd pub) (hwrites : WritesPartial l.proto)
    (h : SessionOk pub c s) (async : Bool) {e : SessionStep} (hstep : Possible s e)
    (horderly : Orderly c s e) : SessionOk pub c (sessionStep async c s e) := by
  cases e with
  | requestCaptcha heap seqNum => exact h.requestCaptcha async heap seqNum
  | requestLogin env captcha => exact h.requestLogin hlaws async hstep
  | serve env q => exact h.serve hlaws async hstep horderly
  | receive env q => exact h.receive hlaws async hstep
  | answer k turn env p => exact h.answer hlaws hwrites async hstep horderly
  | others t => exact h.others async t

theorem sessionOk_new {account : Account l.storage.Files} {server : MsgServer} {handle : UInt32}
    (haccount : Fresh l.storage account.manager ∨
      Loaded (hdKeyEncoder l.hd) l.storage account.manager)
    (hserver : Live server c { handle := handle }) (hpending : server.pending = []) :
    SessionOk pub c ⟨account, server, [], []⟩ := by
  refine ⟨haccount, fun m _ => ⟨_, nofun, hserver, .inl rfl, nofun, ?_, ?_⟩⟩
  · exact .inl ⟨nofun, .inl rfl⟩
  · rw [hpending]
    exact nofun

variable (l pub c)

/-- A client and a connection that was just made, and any requests in any order. As long as no
    captcha request is handled on the open connection, both ends have the same shared key, iv and
    associated data whenever the connection is open and nothing is on its way. -/
theorem agreed_of_orderly (hlaws : KeyLaws l.secp l.hd pub) (hwrites : WritesPartial l.proto)
    (async : Bool) (account : Account l.storage.Files) (server : MsgServer) (handle : UInt32)
    (haccount : Fresh l.storage account.manager ∨
      Loaded (hdKeyEncoder l.hd) l.storage account.manager)
    (hserver : Live server c { handle := handle }) (hpending : server.pending = [])
    (es : List SessionStep)
    (hrun : EachStep (sessionStep async c) (fun s e => Possible s e ∧ Orderly c s e)
      ⟨account, server, [], []⟩ es) :
    Agreed c (es.foldl (sessionStep async c) ⟨account, server, [], []⟩) := by
  have hok : SessionOk pub c (es.foldl (sessionStep async c) ⟨account, server, [], []⟩) :=
    EachStep.invariant (SessionOk pub c)
      (fun s e h he => h.step hlaws hwrites async he.1 he.2)
      (sessionOk_new haccount hserver hpending) hrun
  exact hok.agreed

end

/-! ## Two captchas

The server draws sixteen zero bytes for its first key and sixteen bytes 255 for its second. As
before, the seeds, hashes, keys and points of the phrases are given, as they are. -/

def zooPhrase : Bytes := "zoo zoo zoo zoo zoo zoo zoo zoo zoo zoo zoo wrong".toUTF8.toList

def zooSeed : Bytes :=
  toBE 64 (0xb6a6d8921942dd9806607ebc2750416b289adea669198769f2e15ed926c3aa92 * 2 ^ 256 +
    0xbf88ece232317b4ea463e84b0fcd3b53577812ee449ccc448eb45e6f544e25b6)

def zooBlocks : List Bytes := [
  toBE 64 (0xf1897f8c5fd5e11814f80c63eb21cc0c63d1623008f895e83c0e9a770fb66544 * 2 ^ 256 +
    0x216e77e7c2472af47b5849cd4d02e41ab62f7d62626aafcbdcda4cc4aeb7da7d),
  toBE 64 (0x6b09932ca39a9b710b9730a76552b68ac0ae567f66c2bf0bae4848c60c9333c3 * 2 ^ 256 +
    0xc9bc3f8f45862778f93584bd292faea4ae529cbceda7ae51cd32172283f482f9),
  toBE 64 (0x383f71fd81697004389359b64c6e4856e66a30765acd31c0144fa4631643ac47 * 2 ^ 256 +
    0xadf7d37678030948f39798994ce8ae8f4232104a28d503c0c8ab62dfdd4d9b46),
  toBE 64 (0xaf8760986222c05c9bb912fcc55704efbefae041c8bf4bdc79af20f1f49aceb8 * 2 ^ 256 +
    0x191857b80a7eda0e937ed9d251c6486dcc41ea9ba3502c98137da1223e46f26b),
  toBE 64 (0x1f59097a4b4e38220159b9b37e94993e4e630d5ec2bdc728f6569a9b4e911f52 * 2 ^ 256 +
    0xccb0b19f1a60b19b6f05573817fb9ba77b941d18649f2b0b375f15bc2eeaba33),
  toBE 64 (0x50015744a26d7e534640582e10e14491ffbd02844fdf19abb115d92e94782a4a * 2 ^ 256 +
    0xadcbd0886ed3d10e96175db065a277350db822ea81fedc20be2c6f0a0c1b350f)]

def zooPoints : Assoc Bytes Bytes := [
  (toBE 32 0xf1897f8c5fd5e11814f80c63eb21cc0c63d1623008f895e83c0e9a770fb66544,
    0x02 :: toBE 32 0xe01aa32243f6744a2607466304e326adc7cb77e67363341967bf4700be45391d),
  (toBE 32 0x5c9312b903707c89208f3d0b5074829869d0dbc8c072b4b82a8484b04c1357c6,
    0x02 :: toBE 32 0x84774d40b188e6c6063446829c34bbf3f6d88d2139c4df171e46dc831a37a8cf),
  (toBE 32 0x94d284b684d9ec8d592296c19ce2caef503b0c3f1b3fe6783ed429136257040d,
    0x03 :: toBE 32 0x7d81e2df0a2964132cc714558971a1d5096fe252cfb0e1bfdfceccf788787b15),
  (toBE 32 0x4459e54ee6fcace9f4dba9be6239cfe054870f9a34b69218f8b0eb7886bb9184,
    0x02 :: toBE 32 0xa146feb8e196de849674523b503685101836297099259e10d45e85b6269896f6),
  (toBE 32 0x63b2eec9324ae50bf6356371e0ce691ea2ea1cf8f7745941ef078613d54cb0d6,
    0x02 :: toBE 32 0x7596c3eb0c809e6bd3e91eb3cbdf999ac2ac67d81a11fee13bccf7e6d1a070f1),
  (toBE 32 0xb3b4460dd4b8635f3c75bb9ff1afadb0a2a71f7d475372eda01d5f4269c4db20,
    0x03 :: toBE 32 0xc50bdff37a803c6a0a69b7d154fe88e345962c73907e2abc0249fb9e5beb1bad)]

def zooKey : Bytes := toBE 32 0xb3b4460dd4b8635f3c75bb9ff1afadb0a2a71f7d475372eda01d5f4269c4db20

def zooKey64 : Bytes :=
  toBE 64 (0xc50bdff37a803c6a0a69b7d154fe88e345962c73907e2abc0249fb9e5beb1bad * 2 ^ 256 +
    0x4502b0899beb252fcc4808f885c02a860dde92671f8f3b70f31579b8329a7403)

def zooSig64 : Bytes :=
  toBE 64 (0xde4f64d745122a28a6b7e9b88ed78d376b99d6157444ee866106f93fcfc84db7 * 2 ^ 256 +
    0x6c4b384852a4cac338ee42a66fb65c548f695c4f776d534ffa562c53d0c7491e)

def nextTestSig64 : Bytes :=
  toBE 64 (0x7688ffafd6bebdc8d0d2cb705d2cadac41a03d405b983111d1894bea8f04ae90 * 2 ^ 256 +
    0x401e5f5af98bd3566b0bd2a500e3876369e2f7c9a9ae6bba7da8c0e51a5ee686)

def nextCaptcha : Bytes := "d4E5f6".toUTF8.toList

def nextHash : Bytes := toBE 32 0xa4ee3690d0f3bc76112190c9c235b0708ab1998724047a0ef7f1663de76b10d9

def sessionHD : HDPrimitives where
  wordsToSeed mnemonic := if mnemonic = zooPhrase then zooSeed else sampleHD.wordsToSeed mnemonic
  hmacSha512 key data :=
    (Assoc.find (hmacRows zooSeed zooBlocks) (if key = bip32Name then data else key)).getD
      (sampleHD.hmacSha512 key data)
  order := sampleHD.order
  attempts := sampleHD.attempts
  publicKey33 key := (Assoc.find zooPoints key).getD (sampleHD.publicKey33 key)
  publicKey64 key := if key = zooKey then zooKey64 else samplePublicKey64 key
  keccak256 b :=
    if b = zooKey64 then
      toBE 32 0xaf815337e9d2f365aeb6fa84532df340c6b6c20f3413d652db13043791988a4a
    else if b = formatSignMsgData nextCaptcha .ptp then nextHash
    else sampleHD.keccak256 b
  base58EncodeCheck := sampleHD.base58EncodeCheck

def sessionCurve : Secp256k1 where
  PubKey := Bytes
  keccak256 := sessionHD.keccak256
  recover sig64 recId hash :=
    if sig64 = zooSig64 ∧ recId = 0 ∧ hash = nextHash then some zooKey
    else if sig64 = nextTestSig64 ∧ recId = 0 ∧ hash = nextHash then some testKey
    else sampleCurve.recover sig64 recId hash
  serializeUncompressed key := 0x04 :: sessionHD.publicKey64 key
  serializeCompressed key := sessionHD.publicKey33 key
  parse b :=
    match zooPoints.find? (·.2 = b) with
    | some row => some row.1
    | none => sampleCurve.parse b
  ecdh key prvKey :=
    if key = testKey ∧ prvKey = zooKey ∨ key = zooKey ∧ prvKey = testKey then
      some (toBE 32 0x632d579a64ef1d844c466fe1aeef8350d94aeb1cba4361578531d47395b54d74)
    else sampleCurve.ecdh key prvKey
  sign hash prvKey :=
    if hash = nextHash ∧ prvKey = zooKey then (zooSig64, 0)
    else if hash = nextHash ∧ prvKey = testKey then (nextTestSig64, 0)
    else sampleCurve.sign hash prvKey

instance : DecidableEq sessionCurve.PubKey := inferInstanceAs (DecidableEq Bytes)

/-- The point of a private key. -/
def sessionPoint (key : Bytes) : sessionCurve.PubKey := key

theorem phraseKey_congr {p : HDPrimitives} {m m' : Bytes} (h : p.wordsToSeed m = p.wordsToSeed m') :
    phraseKey p m = phraseKey p m' := by
  unfold phraseKey HDKey.makeBip32RootKey
  rw [h]

/-- Every phrase has one of the three keys. -/
theorem mem_phraseKey (m : Bytes) : phraseKey sessionHD m ∈ [zooKey, testKey, zeroKey] := by
  have hkeys : phraseKey sessionHD zooPhrase = zooKey ∧ phraseKey sessionHD shownPhrase = testKey ∧
      phraseKey sessionHD [] = zeroKey := by
    simp only [sessionHD, zooSeed, zooBlocks, zooPoints, zooKey, sampleHD, zeroSeed, zeroBlocks,
      zeroPoints, zeroKey, testSeed, testBlocks, testPoints, testKey, toBE_eq_consBE]
    decide +kernel
  obtain ⟨hzoo, htest, hzero⟩ := hkeys
  by_cases hm : m = zooPhrase
  · rw [hm, hzoo]
    exact List.mem_cons_self
  by_cases hm' : m = shownPhrase
  · rw [hm', htest]
    exact List.mem_cons_of_mem _ List.mem_cons_self
  · have hnil : ([] : Bytes) ≠ zooPhrase ∧ ([] : Bytes) ≠ shownPhrase := by decide +kernel
    have hseed : sessionHD.wordsToSeed m = sessionHD.wordsToSeed [] := by
      change (if m = zooPhrase then _ else if m = shownPhrase then _ else _) =
        (if [] = zooPhrase then _ else if [] = shownPhrase then _ else _)
      rw [if_neg hm, if_neg hm', if_neg hnil.1, if_neg hnil.2]
    rw [phraseKey_congr hseed, hzero]
    exact List.mem_cons_of_mem _ (List.mem_cons_of_mem _ List.mem_cons_self)

/-- With a hash that is none of the two, a signature is the key and zeros. -/
theorem recover_sign_other {hash key : Bytes} (hkey : key.length = 32) (hnext : hash ≠ nextHash)
    (hsigned : hash ≠ signedHash) :
    sessionCurve.sign hash key = (key ++ List.replicate 32 0, 0) ∧
      sessionCurve.recover (key ++ List.replicate 32 0) 0 hash = some key := by
  have hdrop : (key ++ List.replicate 32 0).drop 32 = List.replicate 32 0 := List.drop_left' hkey
  dsimp only [sessionCurve, sampleCurve]
  constructor
  · rw [if_neg fun h => hnext h.1, if_neg fun h => hnext h.1, if_neg fun h => hsigned h.1,
      if_neg fun h => hsigned h.1]
  · rw [if_neg fun h => hnext h.2.2, if_neg fun h => hnext h.2.2, if_neg fun h => hsigned h.2.2,
      if_neg fun h => hsigned h.2.2, if_pos hdrop, List.take_left' hkey]

/-- The six signatures over the two hashes. -/
theorem recover_sign_hashes :
    ∀ key ∈ [zooKey, testKey, zeroKey], ∀ hash ∈ [nextHash, signedHash],
      (sessionCurve.sign hash key).1.length = 64 ∧ (sessionCurve.sign hash key).2 = 0 ∧
        sessionCurve.recover (sessionCurve.sign hash key).1 0 hash = some (sessionPoint key) := by
  decide +kernel

theorem recover_sign_session (m hash : Bytes) :
    (sessionCurve.sign hash (phraseKey sessionHD m)).1.length = 64 ∧
      (sessionCurve.sign hash (phraseKey sessionHD m)).2 = 0 ∧
      sessionCurve.recover (sessionCurve.sign hash (phraseKey sessionHD m)).1 0 hash =
        some (sessionPoint (phraseKey sessionHD m)) := by
  have hlen := length_phraseKey sessionHD m
  have hmem := mem_phraseKey m
  by_cases hnext : hash = nextHash
  · exact recover_sign_hashes _ hmem _ (hnext ▸ List.mem_cons_self)
  by_cases hsigned : hash = signedHash
  · exact recover_sign_hashes _ hmem _ (hsigned ▸ List.mem_cons_of_mem _ List.mem_cons_self)
  obtain ⟨hsign, hrecover⟩ := recover_sign_other hlen hnext hsigned
  rw [hsign]
  refine ⟨?_, rfl, hrecover⟩
  rw [List.length_append, hlen, List.length_replicate]

theorem ite_pair_comm {α : Type} {a b x y : Bytes} (r s : α) :
    (if a = x ∧ b = y ∨ a = y ∧ b = x then r else s) =
      if b = x ∧ a = y ∨ b = y ∧ a = x then r else s := by
  refine if_congr ?_ rfl rfl
  rw [or_comm, and_comm, and_comm (a := a = x)]

theorem ecdh_comm_session (a b : Bytes) : sessionCurve.ecdh a b = sessionCurve.ecdh b a := by
  dsimp only [sessionCurve, sampleCurve]
  rw [List.zipWith_comm_of_comm fun x y => UInt8.xor_comm x y,
    ite_pair_comm (x := testKey) (y := zooKey), ite_pair_comm (x := testKey) (y := zeroKey)]

/-- Compressed keys are read back. -/
theorem parse_compressed_session :
    ∀ key ∈ [zooKey, testKey, zeroKey],
      (sessionCurve.serializeCompressed (sessionPoint key)).length = 33 ∧
        sessionCurve.parse (sessionCurve.serializeCompressed (sessionPoint key)) =
          some (sessionPoint key) := by
  decide +kernel

theorem keyLaws_session : KeyLaws sessionCurve sessionHD sessionPoint where
  keccak256 := rfl
  length_keccak256 b := by
    change (if _ then _ else if _ then _ else sampleHD.keccak256 b : Bytes).length = 32
    split
    · rfl
    split
    · rfl
    · exact length_keccak256_sampleHD b
  uncompressed m := rfl
  length_compressed m := (parse_compressed_session _ (mem_phraseKey m)).1
  parse_compressed m := (parse_compressed_session _ (mem_phraseKey m)).2
  length_sign m hash := (recover_sign_session m hash).1
  recId_sign m hash := by
    rw [(recover_sign_session m hash).2.1]
    decide
  recover_sign m hash := by
    rw [(recover_sign_session m hash).2.1]
    exact (recover_sign_session m hash).2.2
  ecdh_comm m m' := ecdh_comm_session _ _

/-! ### The two runs -/

def sessionClient : ClientLibs :=
  { sampleClient with secp := sessionCurve, hd := sessionHD }

/-- What the application and the two sides do in turn, each with what is first on its way to it. -/
inductive Turn
  | ask
  | serve (env : Env)
  | receive

def Turn.step (s : Session sessionClient) : Turn → SessionStep
  | .ask => .requestCaptcha (fun _ => 0) 1
  | .serve env => .serve env (deliver (s.toServer.headD .new))
  | .receive => .receive sampleClientEnv (deliver (s.toClient.headD .new))

def Turn.Draws : Turn → Prop
  | .serve env => Drawn env ∧ CacheFits env.cache
  | _ => True

/-- Something is on its way where it has to be. -/
def Turn.ready (s : Session sessionClient) : Turn → Bool
  | .ask => true
  | .serve _ => !s.toServer.isEmpty
  | .receive => !s.toClient.isEmpty

/-- No captcha request for a connection that is open. -/
def Turn.orderly (s : Session sessionClient) : Turn → Bool
  | .serve _ => (s.server.conns.find 0).all (!·.isOpen) ||
      (deliver (s.toServer.headD .new)).getCommandId != cidAuthCaptchaReq
  | _ => true

theorem Turn.possible (s : Session sessionClient) (t : Turn) (hdraws : t.Draws)
    (hready : t.ready s = true) : Possible s (t.step s) := by
  cases t with
  | ask => trivial
  | serve env =>
    cases hpdus : s.toServer with
    | nil =>
      rw [Turn.ready, hpdus] at hready
      cases hready
    | cons p rest =>
      refine ⟨hdraws.1, p, rest, hpdus, ?_⟩
      rw [hpdus]
      exact delivered_deliver p
  | receive =>
    cases hpdus : s.toClient with
    | nil =>
      rw [Turn.ready, hpdus] at hready
      cases hready
    | cons p rest =>
      refine ⟨by decide, p, rest, hpdus, ?_⟩
      rw [hpdus]
      exact delivered_deliver p

theorem Turn.orderly_step (s : Session sessionClient) (t : Turn) (hdraws : t.Draws)
    (horderly : t.orderly s = true) : Orderly 0 s (t.step s) := by
  cases t with
  | ask => trivial
  | serve env =>
    refine ⟨hdraws.2, ?_⟩
    intro conn hconn hopen
    rw [Turn.orderly, hconn, Option.all_some, hopen] at horderly
    simpa using horderly
  | receive => trivial

/-- The steps of these turns, and the state after them. -/
def turns : List Turn → Session sessionClient → List SessionStep
  | [], _ => []
  | t :: ts, s => t.step s :: turns ts (sessionStep false 0 s (t.step s))

def play : List Turn → Session sessionClient → Session sessionClient
  | [], s => s
  | t :: ts, s => play ts (sessionStep false 0 s (t.step s))

/-- Whether each turn passes a test, in the state before it. -/
def eachTurn (ok : Session sessionClient → Turn → Bool) :
    List Turn → Session sessionClient → Bool
  | [], _ => true
  | t :: ts, s => ok s t && eachTurn ok ts (sessionStep false 0 s (t.step s))

theorem foldl_turns (ts : List Turn) (s : Session sessionClient) :
    (turns ts s).foldl (sessionStep false 0) s = play ts s := by
  induction ts generalizing s with
  | nil => rfl
  | cons t ts ih => exact ih _

theorem eachStep_turns {R : Session sessionClient → SessionStep → Prop}
    {ok : Session sessionClient → Turn → Bool}
    (hok : ∀ s t, t.Draws → ok s t = true → R s (t.step s)) {ts : List Turn}
    {s : Session sessionClient} (hdraws : ∀ t ∈ ts, t.Draws) (h : eachTurn ok ts s = true) :
    EachStep (sessionStep false 0) R s (turns ts s) := by
  induction ts generalizing s with
  | nil => trivial
  | cons t ts ih =>
    obtain ⟨ht, hts⟩ := Bool.and_eq_true_iff.mp h
    exact ⟨hok s t (hdraws t List.mem_cons_self) ht,
      ih (fun t' ht' => hdraws t' (List.mem_cons_of_mem t ht')) hts⟩

/-- The account has stored its entropy before, and loads it when it needs it. -/
def storedAccount : Account sessionClient.storage.Files where
  manager := { freshAccount with files := (some (bytesToHex testEntropy), []) }
  channel := {}
  connectionState := .connected

def newSession : Session sessionClient := ⟨storedAccount, sampleServer, [], []⟩

/-- A captcha, and the login that the client makes of it. -/
def loginTurns (env : Env) : List Turn :=
  [.ask, .serve env, .receive, .serve env, .receive]

def nextEnv : Env :=
  { sampleEnv with captcha := nextCaptcha, random := List.replicate 16 255 }

def afterLogin : Session sessionClient := play (loginTurns sampleEnv) newSession

def afterNext : Session sessionClient := play (loginTurns nextEnv) afterLogin

/-- What the connection has, if it is open. -/
def openStrings (s : Session sessionClient) : Option Channel :=
  ((s.server.conns.find 0).filter (·.isOpen)).map fun conn => ⟨conn.shareKey, conn.iv, conn.aad⟩

theorem openStrings_eq_some {s : Session sessionClient} {ch : Channel}
    (h : openStrings s = some ch) :
    ∃ conn, s.server.conns.find 0 = some conn ∧ conn.isOpen = true ∧
      ch = ⟨conn.shareKey, conn.iv, conn.aad⟩ := by
  obtain ⟨conn, hconn, heq⟩ := Option.map_eq_some_iff.mp h
  obtain ⟨hfind, hopen⟩ := Option.filter_eq_some_iff.mp hconn
  exact ⟨conn, hfind, hopen, heq.symm⟩

def settled (s : Session sessionClient) : Bool :=
  s.toServer.isEmpty && s.toClient.isEmpty && s.server.pending.isEmpty

/-- The strings with the secret of the client and the first key, or of the client and the second. -/
def sessionStrings (secret : Bytes) : Channel where
  sharedKeyHex := bytesToHex secret
  ivHex := bytesToHex (List.replicate 16 1)
  aadHex := bytesToHex (List.replicate 16 2)

def firstSecret : Bytes :=
  toBE 32 0x90e6b698af76897e319bb1b6c08e5a5352e01cb8696b77723c0082e0766d9b38

def nextSecret : Bytes :=
  toBE 32 0x632d579a64ef1d844c466fe1aeef8350d94aeb1cba4361578531d47395b54d74

theorem play_spec :
    (eachTurn Turn.ready (loginTurns sampleEnv) newSession = true ∧
        eachTurn Turn.orderly (loginTurns sampleEnv) newSession = true ∧
        settled afterLogin = true ∧
        openStrings afterLogin = some (sessionStrings firstSecret)) ∧
      eachTurn Turn.ready (loginTurns nextEnv) afterLogin = true ∧ settled afterNext = true ∧
        openStrings afterNext = some (sessionStrings firstSecret) ∧
        afterNext.account.channel = sessionStrings nextSecret := by
  decide +kernel

theorem settled_of_isEmpty {s : Session sessionClient} (h : settled s = true) : Settled s := by
  simp only [settled, Bool.and_eq_true, List.isEmpty_iff] at h
  exact ⟨h.1.1, h.1.2, h.2⟩

theorem draws_loginTurns {env : Env} (hdrawn : Drawn env) (hfits : CacheFits env.cache) :
    ∀ t ∈ loginTurns env, t.Draws := by
  intro t ht
  simp only [loginTurns, List.mem_cons, List.not_mem_nil, or_false] at ht
  rcases ht with rfl | rfl | rfl | rfl | rfl
  · trivial
  · exact ⟨hdrawn, hfits⟩
  · trivial
  · exact ⟨hdrawn, hfits⟩
  · trivial

theorem cacheFits_sampleEnv : CacheFits sampleEnv.cache := by
  intro args
  change ((List.replicate 8 ([] : Bytes)).map List.length).sum < 2 ^ 29
  decide

/-- Six characters, and no zero among them. -/
theorem text_captchas :
    ∀ captcha ∈ [sampleEnv.captcha, nextEnv.captcha],
      captcha.length = 6 ∧ ∀ x ∈ captcha, x ≠ 0 := by
  decide +kernel

theorem drawn_sampleEnv : Drawn sampleEnv :=
  have h := text_captchas _ List.mem_cons_self
  ⟨h.1, h.2, rfl, rfl⟩

theorem drawn_nextEnv : Drawn nextEnv :=
  have h := text_captchas _ (List.mem_cons_of_mem _ List.mem_cons_self)
  ⟨h.1, h.2, rfl, rfl⟩

theorem fresh_storedAccount : Fresh sessionClient.storage storedAccount.manager := by
  refine ⟨rfl, rfl, ?_⟩
  intro entropy hload
  cases hload
  exact ⟨testEntropy, by decide +kernel, rfl⟩

theorem writesPartial_wireLibrary : WritesPartial Runtime.wireLibrary := by
  intro msgRsp hlen
  exact if_pos hlen

/-- The first login: it is a run of the theorem, and ends open and settled. -/
theorem agreed_afterLogin :
    Agreed 0 afterLogin ∧ Settled afterLogin ∧
      ∃ conn, afterLogin.server.conns.find 0 = some conn ∧ conn.isOpen = true := by
  obtain ⟨⟨hready, horderly, hsettled, hopened⟩, -⟩ := play_spec
  have hdraws := draws_loginTurns drawn_sampleEnv cacheFits_sampleEnv
  refine ⟨?_, settled_of_isEmpty hsettled, ?_⟩
  · rw [afterLogin, ← foldl_turns]
    exact agreed_of_orderly sessionClient sessionPoint 0 keyLaws_session writesPartial_wireLibrary
      false storedAccount sampleServer 5 (.inl fresh_storedAccount) ⟨rfl, rfl⟩ rfl _
      ((eachStep_turns Turn.possible hdraws hready).and
        (eachStep_turns Turn.orderly_step hdraws horderly))
  · obtain ⟨conn, hconn, hopen, -⟩ := openStrings_eq_some hopened
    exact ⟨conn, hconn, hopen⟩

/-- The client asks for another captcha after that. The server answers with its second key and keeps
    the shared key of the first; the login that the client makes of it is a duplicate. -/
theorem not_agreed_afterNext :
    KeyLaws sessionCurve sessionHD sessionPoint ∧
      EachStep (sessionStep false 0) Possible newSession
        (turns (loginTurns sampleEnv) newSession ++ turns (loginTurns nextEnv) afterLogin) ∧
      ¬ Agreed 0 ((turns (loginTurns sampleEnv) newSession ++
        turns (loginTurns nextEnv) afterLogin).foldl (sessionStep false 0) newSession) := by
  obtain ⟨⟨hready, -⟩, hready', hsettled, hopened, hchannel⟩ := play_spec
  refine ⟨keyLaws_session, ?_, ?_⟩
  · rw [eachStep_append, foldl_turns]
    exact ⟨eachStep_turns Turn.possible (draws_loginTurns drawn_sampleEnv cacheFits_sampleEnv)
        hready,
      eachStep_turns Turn.possible (draws_loginTurns drawn_nextEnv cacheFits_sampleEnv) hready'⟩
  · rw [List.foldl_append, foldl_turns, ← afterLogin, foldl_turns, ← afterNext]
    intro hagreed
    obtain ⟨conn, hconn, hopen, hstrings⟩ := openStrings_eq_some hopened
    have hsame := hagreed conn hconn hopen (settled_of_isEmpty hsettled)
    rw [← hstrings, hchannel] at hsame
    exact absurd hsame (by decide +kernel)

end Net
end Proof
end PtpCore
