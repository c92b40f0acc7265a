import PtpCore.Proof.Server.LoginError

/-!
# Answers find their connection

In asynchronous mode an answer of the business server is matched with a connection by the
descriptor that went out with the request. The system gives a descriptor again once it is closed,
so an answer that comes late can find another connection under its number. It cannot if no
descriptor is given again while a request under it waits, and then an answer changes nothing but
the connection that asked; if that one is closed, it changes nothing.
-/

namespace PtpCore
namespace Proof
namespace Server

open Lib Proto
open PtpCore.Global PtpCore.Server

/-! ## The system -/

inductive RoutingStep
  /-- A client connects, and the system gives this descriptor. -/
  | connect (handle : UInt32)
  | close (c : ConnId)
  /-- A PDU of a client, and what handling it meets. -/
  | recv (c : ConnId) (env : Env) (p : CImPdu)
  /-- The answer to a request that waits; they come in any order. -/
  | answer (k : Nat) (env : Env) (p : CImPdu)
  /-- A request that is never answered. -/
  | lose (k : Nat)

section

variable (l : Libs)

/-- The request is not waiting any more when its answer is handled. -/
def answered (s : MsgServer) (k : Nat) : MsgServer := { s with pending := s.pending.eraseIdx k }

def routingStep (s : MsgServer) : RoutingStep → MsgServer
  | .connect handle => s.onConnect handle
  | .close c => s.close c
  | .recv c env p => (handlePdu l env true c p s).1
  | .answer k env p => (handleBusinessPdu l env p (answered s k)).1
  | .lose k => answered s k

/-- What the outside keeps to: the system gives no descriptor that is open, PDUs come from clients
    that are connected, and an answer has the number of its request. -/
def Possible (s : MsgServer) : RoutingStep → Prop
  | .connect handle => s.msgConnMap.find handle = none
  | .close _ => True
  | .recv c _ p => (∃ conn, s.conns.find c = some conn) ∧
      p.getCommandId ≠ cidServerLoginReq ∧ p.getCommandId ≠ cidServerLoginRes
  | .answer k _ p => p.getCommandId = cidServerLoginRes ∧
      ∃ request, s.pending[k]? = some request ∧ p.getReversed = request.handle
  | .lose _ => True

/-- No descriptor is given again while a request under it waits. -/
def Unused (s : MsgServer) : RoutingStep → Prop
  | .connect handle => ∀ request ∈ s.pending, request.handle ≠ handle
  | _ => True

/-- What happened to `c` alone. -/
def Event.On (c : ConnId) : Event → Prop
  | .sent d _ => d = c
  | .opened d _ _ => d = c
  | _ => False

/-- The answer to a request of `c`, handled in `s` with the result `r`. -/
structure RoutedTo (c : ConnId) (s : MsgServer) (r : MsgServer × Option Fault) : Prop where
  conns : ∀ d, d ≠ c → r.1.conns.find d = s.conns.find d
  events : ∀ event ∈ newEvents s r.1, Event.On c event
  closed : s.conns.find c = none →
    r.1.conns = s.conns ∧ r.1.users = s.users ∧ newEvents s r.1 = []
  fault : r.2 ≠ some .nullConn

def Routed (s : MsgServer) : RoutingStep → Prop
  | .answer k env p => ∀ request, s.pending[k]? = some request →
      RoutedTo request.origin s (handleBusinessPdu l env p (answered s k))
  | _ => True

end

/-! ## The invariant -/

/-- Whoever reads the request reads the descriptor it belongs to. -/
def Numbered (request : Pending) : Prop :=
  ∀ q, Delivered request.pdu q → q.getReversed = request.handle

/-- Objects and descriptors belong together, and a request that waits belongs to its connection or
    to no connection at all. -/
structure RoutingInv (s : MsgServer) : Prop where
  live : ∀ c conn, s.conns.find c = some conn → Live s c conn
  object : ∀ handle c, s.msgConnMap.find handle = some c →
    ∃ conn, s.conns.find c = some conn ∧ conn.handle = handle
  fresh : ∀ c, s.nextConn ≤ c → s.conns.find c = none
  pending : ∀ request ∈ s.pending, request.origin < s.nextConn ∧
    ((∃ conn, s.conns.find request.origin = some conn ∧ conn.handle = request.handle) ∨
      (s.conns.find request.origin = none ∧ s.msgConnMap.find request.handle = none))
  numbered : ∀ request ∈ s.pending, Numbered request

theorem routingInv_empty : RoutingInv .empty := ⟨nofun, nofun, fun _ _ => rfl, nofun, nofun⟩

section

variable {s t : MsgServer} {c : ConnId} {conn : CMsgSrvConn}

theorem RoutingInv.connect (h : RoutingInv s) {handle : UInt32}
    (hfree : s.msgConnMap.find handle = none)
    (hunused : ∀ request ∈ s.pending, request.handle ≠ handle) :
    RoutingInv (s.onConnect handle) where
  live d other hother := by
    by_cases hd : d = s.nextConn
    · rw [hd] at hother
      cases (Assoc.find_set_self _ _ _).symm.trans hother
      refine ⟨hd ▸ Assoc.find_set_self _ _ _, ?_⟩
      rw [hd]
      exact Assoc.find_insert_self _ _ hfree
    · have hold := (Assoc.find_set_of_ne _ _ hd).symm.trans hother
      have hlive := h.live d other hold
      -- an open descriptor is not the one that was given
      have hne : other.handle ≠ handle := by
        intro heq
        cases hfree.symm.trans (heq ▸ hlive.map)
      exact ⟨hother, (Assoc.find_insert_of_ne _ _ hne).trans hlive.map⟩
  object fd d hmap := by
    by_cases hfd : fd = handle
    · rw [hfd] at hmap ⊢
      cases (Assoc.find_insert_self _ _ hfree).symm.trans hmap
      exact ⟨_, Assoc.find_set_self _ _ _, rfl⟩
    · have hold := (Assoc.find_insert_of_ne _ _ hfd).symm.trans hmap
      obtain ⟨other, hother, hhandle⟩ := h.object fd d hold
      have hd : d ≠ s.nextConn := by
        intro heq
        cases (h.fresh d (heq ▸ Nat.le_refl _)).symm.trans hother
      exact ⟨other, (Assoc.find_set_of_ne _ _ hd).trans hother, hhandle⟩
  fresh d hle := by
    have hd : d ≠ s.nextConn := Nat.ne_of_gt hle
    exact (Assoc.find_set_of_ne _ _ hd).trans (h.fresh d (Nat.le_of_succ_le hle))
  pending request hmem := by
    obtain ⟨hlt, hcase⟩ := h.pending request hmem
    have hd : request.origin ≠ s.nextConn := Nat.ne_of_lt hlt
    refine ⟨Nat.lt_succ_of_lt hlt, ?_⟩
    rcases hcase with ⟨other, hother, hhandle⟩ | ⟨hnone, hmap⟩
    · exact Or.inl ⟨other, (Assoc.find_set_of_ne _ _ hd).trans hother, hhandle⟩
    · exact Or.inr ⟨(Assoc.find_set_of_ne _ _ hd).trans hnone,
        (Assoc.find_insert_of_ne _ _ (hunused request hmem)).trans hmap⟩
  numbered := h.numbered

theorem RoutingInv.close (h : RoutingInv s) (c : ConnId) : RoutingInv (s.close c) := by
  rw [MsgServer.close]
  cases hconn : s.conns.find c with
  | none => exact h
  | some conn =>
    have hlive := h.live c conn hconn
    -- another object has another descriptor
    have hother : ∀ d other, d ≠ c → s.conns.find d = some other → other.handle ≠ conn.handle := by
      intro d other hd hfind heq
      have hmap := (h.live d other hfind).map
      rw [heq, hlive.map] at hmap
      exact hd (Option.some.inj hmap).symm
    refine ⟨?_, ?_, ?_, ?_, h.numbered⟩
    · intro d other hfind
      by_cases hd : d = c
      · rw [hd] at hfind
        cases (Assoc.find_erase_self _ _).symm.trans hfind
      · have hold := (Assoc.find_erase_of_ne _ hd).symm.trans hfind
        refine ⟨hfind, ?_⟩
        exact (Assoc.find_erase_of_ne _ (hother d other hd hold)).trans (h.live d other hold).map
    · intro fd d hmap
      by_cases hfd : fd = conn.handle
      · rw [hfd] at hmap
        cases (Assoc.find_erase_self _ _).symm.trans hmap
      · have hold := (Assoc.find_erase_of_ne _ hfd).symm.trans hmap
        obtain ⟨other, hfind, hhandle⟩ := h.object fd d hold
        have hd : d ≠ c := by
          intro heq
          rw [heq, hconn] at hfind
          cases hfind
          exact hfd hhandle.symm
        exact ⟨other, (Assoc.find_erase_of_ne _ hd).trans hfind, hhandle⟩
    · intro d hle
      exact Assoc.find_erase_of_none _ _ (h.fresh d hle)
    · intro request hmem
      obtain ⟨hlt, hcase⟩ := h.pending request hmem
      refine ⟨hlt, ?_⟩
      rcases hcase with ⟨other, hfind, hhandle⟩ | ⟨hnone, hmap⟩
      · by_cases hd : request.origin = c
        · rw [hd, hconn] at hfind
          cases hfind
          right
          rw [hd, ← hhandle]
          exact ⟨Assoc.find_erase_self _ _, Assoc.find_erase_self _ _⟩
        · exact Or.inl ⟨other, (Assoc.find_erase_of_ne _ hd).trans hfind, hhandle⟩
      · exact Or.inr ⟨Assoc.find_erase_of_none _ _ hnone, Assoc.find_erase_of_none _ _ hmap⟩

/-! ## Steps that touch one connection -/

/-- `t` is `s` but for the object of `c`, which keeps its descriptor. -/
structure Touches (c : ConnId) (conn : CMsgSrvConn) (s t : MsgServer) : Prop where
  map : t.msgConnMap = s.msgConnMap
  next : t.nextConn = s.nextConn
  conns : t.conns = s.conns ∨
    ∃ conn', conn'.handle = conn.handle ∧ t.conns = s.conns.set c conn'

theorem touches_refl (s : MsgServer) : Touches c conn s s := ⟨rfl, rfl, Or.inl rfl⟩

theorem Touches.replied {u : MsgServer} (h : Touches c conn s u) (hr : Replied u c t) :
    Touches c conn s t := by
  rcases hr with rfl | ⟨pdu, rfl⟩
  · exact h
  · exact ⟨h.map, h.next, h.conns⟩

/-- A reply is an event of its connection. -/
theorem on_replied {u : MsgServer} {es : List Event} (hr : Replied u c t)
    (hlog : u.log = s.log ++ es) (hes : ∀ event ∈ es, Event.On c event) :
    ∀ event ∈ newEvents s t, Event.On c event := by
  rcases hr with rfl | ⟨pdu, rfl⟩
  · rw [newEvents_of_log hlog]
    exact hes
  · rw [newEvents_sendPdu hlog]
    intro event hmem
    rcases List.mem_append.mp hmem with hmem | hmem
    · exact hes event hmem
    · cases List.mem_singleton.mp hmem
      rfl

theorem Touches.find_of_ne (h : Touches c conn s t) {d : ConnId} (hd : d ≠ c) :
    t.conns.find d = s.conns.find d := by
  rcases h.conns with heq | ⟨conn', -, heq⟩
  · rw [heq]
  · rw [heq, Assoc.find_set_of_ne _ _ hd]

/-- Objects keep their descriptors. -/
theorem Touches.handle (h : Touches c conn s t) (hconn : s.conns.find c = some conn) (d : ConnId) :
    (s.conns.find d).map CMsgSrvConn.handle = (t.conns.find d).map CMsgSrvConn.handle := by
  by_cases hd : d = c
  · rw [hd, hconn]
    rcases h.conns with heq | ⟨conn', hhandle, heq⟩
    · rw [heq, hconn]
    · rw [heq, Assoc.find_set_self]
      exact congrArg some hhandle.symm
  · rw [h.find_of_ne hd]

theorem find_iff_handle {d : ConnId} {handle : UInt32} :
    (∃ other, s.conns.find d = some other ∧ other.handle = handle) ↔
      (s.conns.find d).map CMsgSrvConn.handle = some handle := Option.map_eq_some_iff.symm

theorem RoutingInv.touches (h : RoutingInv s) (hconn : s.conns.find c = some conn)
    (ht : Touches c conn s t)
    (hpending : ∀ request ∈ t.pending, request ∈ s.pending ∨
      request.origin = c ∧ request.handle = conn.handle ∧ Numbered request) : RoutingInv t where
  live d other hother := by
    have hhandle : (s.conns.find d).map CMsgSrvConn.handle = some other.handle := by
      rw [ht.handle hconn d, hother]
      rfl
    obtain ⟨old, hold, heq⟩ := find_iff_handle.mpr hhandle
    refine ⟨hother, ?_⟩
    rw [ht.map, ← heq]
    exact (h.live d old hold).map
  object fd d hmap := by
    rw [ht.map] at hmap
    rw [find_iff_handle, ← ht.handle hconn d]
    exact find_iff_handle.mp (h.object fd d hmap)
  fresh d hle := by
    rw [ht.next] at hle
    rw [← Option.map_eq_none_iff (f := CMsgSrvConn.handle), ← ht.handle hconn d, h.fresh d hle]
    rfl
  pending request hmem := by
    rw [ht.next, ht.map, find_iff_handle, ← ht.handle hconn request.origin]
    rcases hpending request hmem with hold | ⟨horigin, hhandle, -⟩
    · obtain ⟨hlt, hcase⟩ := h.pending request hold
      refine ⟨hlt, ?_⟩
      rcases hcase with hlive | ⟨hnone, hmap⟩
      · exact Or.inl (find_iff_handle.mp hlive)
      · refine Or.inr ⟨?_, hmap⟩
        rw [← Option.map_eq_none_iff (f := CMsgSrvConn.handle), ← ht.handle hconn, hnone]
        rfl
    · rw [horigin, hhandle, hconn]
      refine ⟨?_, Or.inl rfl⟩
      by_contra hge
      cases (h.fresh c (Nat.le_of_not_lt hge)).symm.trans hconn
  numbered request hmem := by
    rcases hpending request hmem with hold | ⟨-, -, hnumbered⟩
    · exact h.numbered request hold
    · exact hnumbered

variable (l : Libs)

/-- A PDU of a client touches its own connection, and what waits after it waited before or is a
    request of this connection. -/
theorem touches_recv (env : Env) {p : CImPdu} (hlive : Live s c conn)
    (hreq : p.getCommandId ≠ cidServerLoginReq) (hres : p.getCommandId ≠ cidServerLoginRes) :
    Touches c conn s (handlePdu l env true c p s).1 ∧
      ∀ request ∈ (handlePdu l env true c p s).1.pending, request ∈ s.pending ∨
        request.origin = c ∧ request.handle = conn.handle ∧ Numbered request := by
  by_cases hcaptcha : p.getCommandId = cidAuthCaptchaReq
  · rcases handlePdu_captcha l env hlive hcaptcha with hr | ⟨conn', hsame, -, -, hr⟩
    · refine ⟨(touches_refl s).replied hr, ?_⟩
      rw [pending_replied hr]
      exact fun request hmem => Or.inl hmem
    · have ht : Touches c conn s ((s.setConn c conn').record (.issued c env.captcha)) :=
        ⟨rfl, rfl, Or.inr ⟨conn', hsame.handle, rfl⟩⟩
      refine ⟨ht.replied hr, ?_⟩
      rw [pending_replied hr]
      exact fun request hmem => Or.inl hmem
  by_cases hlogin : p.getCommandId = cidAuthLoginReq
  · rcases handlePdu_login_async l env hlive hlogin with hr | ⟨msg, hr⟩
    · refine ⟨(touches_refl s).replied hr, ?_⟩
      rw [pending_replied hr]
      exact fun request hmem => Or.inl hmem
    · have ht : Touches c conn s (claimed env s c conn msg) :=
        ⟨rfl, rfl, Or.inr ⟨claimedConn env conn msg, rfl, rfl⟩⟩
      rcases hr with hr | hr
      · refine ⟨ht.replied hr, ?_⟩
        rw [pending_replied hr]
        exact fun request hmem => Or.inl hmem
      · rw [hr]
        refine ⟨⟨ht.map, ht.next, ht.conns⟩, ?_⟩
        intro request hmem
        rcases List.mem_append.mp hmem with hmem | hmem
        · exact Or.inl hmem
        · cases List.mem_singleton.mp hmem
          refine Or.inr ⟨rfl, rfl, ?_⟩
          intro q hq
          have hheader := msgPdu_spec (env.heap (2 * 2)) cidServerLoginReq p.getSeqNum
            (fun {b} h => l.proto.serverLoginReq.length_lt (m := loginRequest conn msg) h)
          exact reversed_delivered hheader.1 hq
  · have hr : Replied s c (handlePdu l env true c p s).1 :=
      handlePdu_other l env hlive.object hcaptcha hlogin hreq hres
    refine ⟨(touches_refl s).replied hr, ?_⟩
    rw [pending_replied hr]
    exact fun request hmem => Or.inl hmem

theorem RoutingInv.forget (h : RoutingInv s) (k : Nat) : RoutingInv (answered s k) where
  live d other hother := ⟨hother, (h.live d other hother).map⟩
  object := h.object
  fresh := h.fresh
  pending request hmem := h.pending request (List.mem_of_mem_eraseIdx hmem)
  numbered request hmem := h.numbered request (List.mem_of_mem_eraseIdx hmem)

/-- An answer touches the connection it finds, and only that one hears of it. -/
theorem touches_answer (env : Env) {p : CImPdu} (hcid : p.getCommandId = cidServerLoginRes)
    (hlive : Live s c conn) (hp : p.getReversed = conn.handle) :
    Touches c conn s (handleBusinessPdu l env p s).1 ∧
      (handleBusinessPdu l env p s).1.pending = s.pending ∧
      (∀ event ∈ newEvents s (handleBusinessPdu l env p s).1, Event.On c event) ∧
      (handleBusinessPdu l env p s).2 ≠ some .nullConn := by
  have hfind : s.findMsgSrvConnByHandle p.getReversed = some (c, conn) := by
    rw [hp]
    exact hlive.find
  rcases handleBusinessPdu_eq l env s hcid with ⟨hnone, -⟩ | ⟨d, other, hsome, h⟩
  · cases hfind.symm.trans hnone
  · cases hfind.symm.trans hsome
    rw [h]
    obtain ⟨hfault, hresult⟩ := handleNext_result l env true 2 hlive hcid
    rcases hresult with hr | ⟨msg, user, secret, -, hr⟩
    · refine ⟨(touches_refl s).replied hr, pending_replied hr, ?_, hfault⟩
      exact on_replied hr (List.append_nil _).symm nofun
    · have ht : Touches c conn s
          (openConn s c conn user conn.handle (msg.userInfo.getD {}) secret) :=
        ⟨rfl, rfl, Or.inr ⟨openedConn conn (msg.userInfo.getD {}) secret, rfl, rfl⟩⟩
      refine ⟨ht.replied hr, (pending_replied hr).trans rfl, ?_, hfault⟩
      refine on_replied hr rfl ?_
      intro event hmem
      cases List.mem_singleton.mp hmem
      rfl

/-- The descriptor of an answer leads to the connection that asked, or to none. -/
theorem RoutingInv.answer_cases (h : RoutingInv s) (k : Nat) {request : Pending}
    (hmem : request ∈ s.pending) {p : CImPdu} (hp : p.getReversed = request.handle) :
    (∃ conn, Live (answered s k) request.origin conn ∧ p.getReversed = conn.handle) ∨
      (s.conns.find request.origin = none ∧
        (answered s k).findMsgSrvConnByHandle p.getReversed = none) := by
  rcases (h.pending request hmem).2 with ⟨conn, hconn, hhandle⟩ | ⟨hnone, hmap⟩
  · exact Or.inl ⟨conn, (h.forget k).live _ conn hconn, hp.trans hhandle.symm⟩
  · refine Or.inr ⟨hnone, ?_⟩
    have hfind : (answered s k).msgConnMap.find request.handle = none := hmap
    rw [hp, MsgServer.findMsgSrvConnByHandle, hfind]

/-- An answer whose descriptor leads nowhere is dropped. -/
theorem handleBusinessPdu_unfound (env : Env) {p : CImPdu}
    (hcid : p.getCommandId = cidServerLoginRes)
    (hfind : s.findMsgSrvConnByHandle p.getReversed = none) :
    handleBusinessPdu l env p s = (s, none) := by
  rcases handleBusinessPdu_eq l env s hcid with ⟨-, h⟩ | ⟨d, other, hsome, -⟩
  · exact h
  · cases hfind.symm.trans hsome

/-- The answers that the business server gives are the possible ones. -/
theorem RoutingInv.possible_answer (h : RoutingInv s) {k : Nat} {request : Pending}
    (hk : s.pending[k]? = some request) {env env' : Env} {b b' : MsgServer} {uuid : UInt32}
    {q r p : CImPdu} (hq : Delivered request.pdu q)
    (hrun : CProxyTask.run l env ⟨uuid, q⟩ .serverLoginReq b = (b', .ok (some r)))
    (hp : Delivered r p) (hcid : p.getCommandId = cidServerLoginRes) :
    Possible s (.answer k env' p) := by
  refine ⟨hcid, request, hk, ?_⟩
  have hnumber := h.numbered request (List.mem_of_getElem? hk) q hq
  rcases serverLoginReq_cases l env (env.heap 0) uuid q b with
    ⟨msg, -, hcase⟩ | ⟨fault, hcase⟩ | ⟨msg, login, -, -, hcase⟩
  · obtain ⟨-, rfl⟩ := run_loginResult hcase hrun
    exact (reversed_delivered (hasHeader_resultPdu env q _) hp).trans hnumber
  · rw [CProxyTask.run, Action.run, hcase] at hrun
    cases hrun
  · obtain ⟨-, rfl⟩ := run_loginResult hcase hrun
    exact (reversed_delivered (hasHeader_resultPdu env q _) hp).trans hnumber

theorem RoutingInv.step (h : RoutingInv s) {e : RoutingStep} (hpossible : Possible s e)
    (hunused : Unused s e) : RoutingInv (routingStep l s e) := by
  cases e with
  | connect handle => exact h.connect hpossible hunused
  | close c => exact h.close c
  | recv c env p =>
    obtain ⟨⟨conn, hconn⟩, hreq, hres⟩ := hpossible
    obtain ⟨ht, hpending⟩ := touches_recv l env (h.live c conn hconn) hreq hres
    exact h.touches hconn ht hpending
  | answer k env p =>
    obtain ⟨hcid, request, hk, hp⟩ := hpossible
    rw [routingStep]
    rcases h.answer_cases k (List.mem_of_getElem? hk) hp with ⟨conn, hlive, hhandle⟩ | ⟨-, hfind⟩
    · obtain ⟨ht, hpending, -, -⟩ := touches_answer l env hcid hlive hhandle
      refine (h.forget k).touches hlive.object ht ?_
      rw [hpending]
      exact fun request hmem => Or.inl hmem
    · rw [handleBusinessPdu_unfound l env hcid hfind]
      exact h.forget k
  | lose k => exact h.forget k

theorem RoutingInv.routed (h : RoutingInv s) {e : RoutingStep} (hpossible : Possible s e) :
    Routed l s e := by
  cases e with
  | answer k env p =>
    obtain ⟨hcid, request, hk, hp⟩ := hpossible
    intro request' hk'
    cases hk.symm.trans hk'
    rcases h.answer_cases k (List.mem_of_getElem? hk) hp with
      ⟨conn, hlive, hhandle⟩ | ⟨hnone, hfind⟩
    · obtain ⟨ht, -, hevents, hfault⟩ := touches_answer l env hcid hlive hhandle
      refine ⟨fun d hd => ht.find_of_ne hd, hevents, ?_, hfault⟩
      intro hclosed
      cases hclosed.symm.trans hlive.object
    · rw [handleBusinessPdu_unfound l env hcid hfind]
      have hlog : newEvents s (answered s k) = [] := newEvents_of_log (List.append_nil _).symm
      refine ⟨fun _ _ => rfl, ?_, fun _ => ⟨rfl, rfl, hlog⟩, nofun⟩
      rw [hlog]
      exact nofun
  | connect handle => trivial
  | close c => trivial
  | recv c env p => trivial
  | lose k => trivial

end

theorem routed_of_unused (l : Libs) (es : List RoutingStep)
    (h : EachStep (routingStep l) (fun s e => Possible s e ∧ Unused s e) .empty es) :
    EachStep (routingStep l) (Routed l) .empty es :=
  EachStep.of_invariant RoutingInv (fun _ _ hinv hr => hinv.step l hr.1 hr.2)
    (fun _ _ hinv hr => hinv.routed l hr.1) routingInv_empty h

/-! ## A descriptor that is given again -/

/-- An answer that accepts the login of the client, under a descriptor. -/
def acceptingPdu (handle : UInt32) : CImPdu :=
  deliver ((forgedPdu clientAddress).setReversed handle)

theorem getReversed_acceptingPdu (handle : UInt32) :
    (acceptingPdu handle).getReversed = handle :=
  reversed_delivered (msgPdu_spec _ _ _ fun h => sampleLibs.proto.serverLoginRes.length_lt h).1
    (delivered_deliver _)

/-- A client connects and asks to log in. -/
def askingRun : List RoutingStep :=
  [.connect 5, .recv 0 sampleEnv captchaPdu,
    .recv 0 sampleEnv (loginPdu clientAddress (clientSig64 ++ [0]))]

def askingServer : MsgServer := askingRun.foldl (routingStep sampleLibs) .empty

/-- It leaves, and another client gets its descriptor. -/
def reusedRun : List RoutingStep := askingRun ++ [.close 0, .connect 5]

def reusedServer : MsgServer := reusedRun.foldl (routingStep sampleLibs) .empty

/-- A PDU was sent to this connection. -/
def hears (c : ConnId) : Event → Bool
  | .sent d _ => d = c
  | _ => false

theorem asking_facts :
    ((routingStep sampleLibs sampleServer (.recv 0 sampleEnv captchaPdu)).conns.find 0).isSome ∧
      askingServer.pending.map (fun r => (r.origin, r.handle)) = [(0, 5)] ∧
      (acceptingPdu 5).getCommandId = cidServerLoginRes ∧
      ((routingStep sampleLibs askingServer (.answer 0 sampleEnv (acceptingPdu 5))).conns.find
        0).map CMsgSrvConn.isOpen = some true ∧
      (askingServer.close 0).msgConnMap.find 5 = none ∧
      reusedServer.pending.map (fun r => (r.origin, r.handle)) = [(0, 5)] ∧
      (newEvents reusedServer (handleBusinessPdu sampleLibs sampleEnv (acceptingPdu 5)
        (answered reusedServer 0)).1).any (hears 1) = true := by
  simp only [askingServer, reusedServer, reusedRun, askingRun, captchaPdu, loginPdu, sampleLibs,
    sampleSecp, sampleKeys, sample_bytes, toBE_eq_consBE]
  decide +kernel

theorem possible_askingRun :
    EachStep (routingStep sampleLibs) (fun s e => Possible s e ∧ Unused s e) .empty askingRun := by
  obtain ⟨hconn, -⟩ := asking_facts
  refine ⟨⟨rfl, nofun⟩, ⟨⟨⟨_, rfl⟩, ?_⟩, trivial⟩, ⟨⟨?_, ?_⟩, trivial⟩, trivial⟩
  · rw [getCommandId_captchaPdu]
    exact ⟨by decide, by decide⟩
  · exact Option.isSome_iff_exists.mp hconn
  · rw [getCommandId_loginPdu]
    exact ⟨by decide, by decide⟩

theorem possible_accepting {s : MsgServer}
    (hpending : s.pending.map (fun r => (r.origin, r.handle)) = [(0, 5)]) :
    ∃ request, s.pending[0]? = some request ∧ request.origin = 0 ∧
      (acceptingPdu 5).getReversed = request.handle := by
  cases h : s.pending with
  | nil =>
    rw [h] at hpending
    cases hpending
  | cons request rest =>
    rw [h] at hpending
    have hhead := (List.cons.inj hpending).1
    refine ⟨request, rfl, congrArg Prod.fst hhead, ?_⟩
    rw [getReversed_acceptingPdu]
    exact (congrArg Prod.snd hhead).symm

theorem routed_of_unused_asking :
    EachStep (routingStep sampleLibs) (Routed sampleLibs) .empty
      (askingRun ++ [.answer 0 sampleEnv (acceptingPdu 5)]) ∧
      ((routingStep sampleLibs askingServer (.answer 0 sampleEnv (acceptingPdu 5))).conns.find
        0).map CMsgSrvConn.isOpen = some true := by
  obtain ⟨-, hpending, hcid, hopen, -⟩ := asking_facts
  obtain ⟨request, hk, -, hp⟩ := possible_accepting hpending
  refine ⟨routed_of_unused sampleLibs _ ?_, hopen⟩
  exact eachStep_append.mpr ⟨possible_askingRun, ⟨⟨hcid, request, hk, hp⟩, trivial⟩, trivial⟩

theorem possible_reusedRun : EachStep (routingStep sampleLibs) Possible .empty reusedRun := by
  obtain ⟨-, -, -, -, hfree, -⟩ := asking_facts
  have hasking : EachStep (routingStep sampleLibs) Possible .empty askingRun :=
    EachStep.of_invariant (fun _ => True) (fun _ _ _ _ => trivial) (fun _ _ _ h => h.1) trivial
      possible_askingRun
  exact eachStep_append.mpr ⟨hasking, trivial, hfree, trivial⟩

/-- The answer to the client that has left goes to the client that has its descriptor. -/
theorem not_routed_reused :
    EachStep (routingStep sampleLibs) Possible .empty
      (reusedRun ++ [.answer 0 sampleEnv (acceptingPdu 5)]) ∧
      ¬ EachStep (routingStep sampleLibs) (Routed sampleLibs) .empty
        (reusedRun ++ [.answer 0 sampleEnv (acceptingPdu 5)]) := by
  obtain ⟨-, -, hcid, -, -, hpending, hheard⟩ := asking_facts
  obtain ⟨request, hk, horigin, hp⟩ := possible_accepting hpending
  constructor
  · exact eachStep_append.mpr ⟨possible_reusedRun, ⟨hcid, request, hk, hp⟩, trivial⟩
  · intro hrouted
    obtain ⟨-, hanswer, -⟩ := eachStep_append.mp hrouted
    obtain ⟨event, hmem, hhears⟩ := List.any_eq_true.mp hheard
    have hon := (hanswer request hk).events event hmem
    rw [horigin] at hon
    cases event with
    | sent d pdu =>
      have hd : d = 1 := of_decide_eq_true hhears
      cases hd.symm.trans hon
    | issued d captcha => cases hhears
    | accepted captcha sig address => cases hhears
    | refused e => cases hhears
    | opened d a b => cases hhears

end Server
end Proof
end PtpCore
