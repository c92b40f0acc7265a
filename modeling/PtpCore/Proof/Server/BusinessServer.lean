import PtpCore.Lib.Lending
import PtpCore.Lib.Run
import PtpCore.Proof.Server.ProxyTask
import PtpCore.Server.BusinessServer

/-!
# The way of a response through the business server

A connection is known by a number that is never given again while fewer than `2 ^ 32` connections
are made. A task keeps the number of its connection, and so does the entry that comes out of it, so
what the main thread finds under it is the connection of the request, or nothing.
-/

namespace PtpCore
namespace Proof
namespace Server

open Lib Proto
open PtpCore.Global PtpCore.Server
open PtpCore.Proof.Global

/-! ## What a handler answers with -/

section

variable {l : Libs} {fill : Nat → UInt8}

/-- The PDU of a response, if there is one, has a header. -/
def Headed (result : Except Fault CResponse) : Prop :=
  ∀ r p, result = .ok r → r.pdu = some p → CImPdu.HasHeader p

theorem headed_error (fault : Fault) : Headed (.error fault) := by
  intro r p hr
  cases hr

theorem headed_empty : Headed (.ok {}) := by
  intro r p hr hp
  cases hr
  cases hp

theorem headed_next {M : Type} [Message M] (codec : Codec M) (m : M) (cid seq : UInt16) :
    Headed (.ok (.next fill (codec.serialize m) cid seq)) := by
  intro r p hr hp
  cases hr
  cases hp
  exact (msgPdu_spec fill cid seq codec.length_lt).1

theorem headed_sendMsg {M : Type} [Message M] (codec : Codec M) (m : M) (cid seq : UInt16) :
    Headed (.ok (.sendMsg fill (codec.serialize m) cid seq)) := by
  intro r p hr hp
  cases hr
  cases hp
  exact (msgPdu_spec fill cid seq codec.length_lt).1.poke (Nat.le_refl 16)

variable (env : Env) (request : CRequest) (s : MsgServer)

theorem headed_authCaptchaReq : Headed (authCaptchaReq l env fill request s).2 := by
  rw [authCaptchaReq]
  dsimp only
  split
  · exact headed_empty
  · split
    · split
      · exact headed_error _
      · exact headed_sendMsg _ _ _ _
    · exact headed_sendMsg _ _ _ _

theorem headed_authLoginReq : Headed (authLoginReq l env fill request s).2 := by
  rw [authLoginReq]
  dsimp only
  split
  · exact headed_empty
  · split
    · exact headed_sendMsg _ _ _ _
    · split
      · exact headed_sendMsg _ _ _ _
      · split
        · exact headed_sendMsg _ _ _ _
        · split
          · exact headed_sendMsg _ _ _ _
          · exact headed_next _ _ _ _

theorem headed_serverLoginRes : Headed (serverLoginRes l env fill request s).2 := by
  rw [serverLoginRes]
  dsimp only
  split
  · exact headed_sendMsg _ _ _ _
  · split
    · exact headed_error _
    · split
      · exact headed_sendMsg _ _ _ _
      · split
        · exact headed_error _
        · split
          · exact headed_sendMsg _ _ _ _
          · split
            · exact headed_sendMsg _ _ _ _
            · split
              · exact headed_error _
              · exact headed_sendMsg _ _ _ _
              · exact headed_sendMsg _ _ _ _

end

section

variable {l : Libs} {e : TaskEnv} {t : CProxyTask} {w w' : Worker}

theorem headed_runOn {action : Action} {fill : Nat → UInt8} {request : CRequest}
    {result : Except Fault CResponse} (h : action.runOn l e fill request w = some (w', result)) :
    Headed result := by
  cases action with
  | serverLoginReq =>
    rw [Action.runOn, Worker.serverLoginReq] at h
    dsimp only at h
    split at h
    · cases h
      exact headed_next _ _ _ _
    · split at h
      · cases h
      · cases h
        exact headed_error _
      · cases h
        exact headed_next _ _ _ _
  | authCaptchaReq =>
    cases h
    exact headed_authCaptchaReq _ _ _
  | authLoginReq =>
    cases h
    exact headed_authLoginReq _ _ _
  | serverLoginRes =>
    cases h
    exact headed_serverLoginRes _ _ _
  | heartBeatNotify =>
    cases h
    exact headed_empty

/-- `reversed` as it stands in the header on the wire. -/
def wireReversed (p : CImPdu) : UInt32 := (CImPdu.headerOf p.buf.contents).reversed

/-- A task that has been run leaves one entry for its connection, and a PDU in it has the number the
    request came with. -/
theorem runOn_entry {action : Action} (h : t.runOn l e action w = some (w', none)) :
    ∃ pdu, w'.responsePduList = w.responsePduList ++ [⟨t.connUuid, pdu⟩] ∧
      ∀ p, pdu = some p → wireReversed p = t.pdu.getReversed := by
  rw [CProxyTask.runOn] at h
  split at h
  · cases h
  · cases h
  · rename_i w'' r hrun
    have hlist := responsePduList_runOn hrun
    split at h
    · rename_i pdu _ hpdu
      cases h
      refine ⟨_, congrArg (· ++ _) hlist, ?_⟩
      intro p hp
      cases hp
      exact reversed_delivered (headed_runOn hrun r pdu rfl hpdu) (delivered_deliver _)
    · cases h
      refine ⟨none, congrArg (· ++ _) hlist, ?_⟩
      intro p hp
      cases hp

end

/-! ## The invariant -/

variable {s : BusinessServer} {c : BusinessConnRef} {p : CImPdu} {uuid : UInt32} {request : Nat}

/-- The tasks of a thread, the running one first. -/
def held (w : CWorkerThread) : List QueuedTask := w.running.toList ++ w.taskList

/-- The entries that are not done with. -/
def unsent (s : BusinessServer) : List QueuedResponse := s.resp.toList ++ s.responsePduList

/-- The numbers of all requests that are somewhere. -/
def numbers (s : BusinessServer) : List Nat :=
  s.sent.map (·.request) ++ ((unsent s).map (·.request) ++ (s.workers.flatMap held).map (·.request))

/-- A task or an entry with this number and this request is the one of connection `c`. -/
structure Belongs (requests : List (BusinessConnRef × CImPdu)) (nextConn : Nat)
    (uuid : UInt32) (request : Nat) (c : BusinessConnRef) (p : CImPdu) : Prop where
  asked : requests[request]? = some (c, p)
  made : c < nextConn
  number : uuid.toNat = c + 1

structure BusinessInv (s : BusinessServer) : Prop where
  alloc : s.uuidAlloctor.toNat = s.nextConn
  conn : ∀ c conn, s.conns.find c = some conn →
    c < s.nextConn ∧ conn.uuid.toNat = c + 1 ∧ conn.handle ≠ -1
  uuid : ∀ u c, s.uuidConnMap.find u = some c ↔ ∃ conn, s.conns.find c = some conn ∧ conn.uuid = u
  task : ∀ t ∈ s.workers.flatMap held, ∃ c,
    Belongs s.requests s.nextConn t.task.connUuid t.request c t.task.pdu
  response : ∀ r ∈ unsent s, ∃ c p,
    Belongs s.requests s.nextConn r.response.connUuid r.request c p ∧
      ∀ pdu, r.response.pdu = some pdu → wireReversed pdu = p.getReversed
  sent : ∀ x ∈ s.sent, ∃ p, s.requests[x.request]? = some (x.conn, p) ∧
    wireReversed x.pdu = p.getReversed
  nodup : (numbers s).Nodup

theorem businessInv_start (workerSize : Nat) (server : MsgServer) (pool : CachePool) :
    BusinessInv (.start workerSize server pool) := by
  have hidle : (List.replicate workerSize (⟨[], none⟩ : CWorkerThread)).flatMap held = [] := by
    simp [held]
  refine ⟨rfl, ?_, ?_, ?_, ?_, ?_, ?_⟩
  · intro c conn hfind
    cases hfind
  · intro u c
    constructor
    · intro hfind
      cases hfind
    · rintro ⟨conn, hfind, _⟩
      cases hfind
  · intro t ht
    change t ∈ (List.replicate workerSize _).flatMap held at ht
    rw [hidle] at ht
    cases ht
  · intro r hr
    cases hr
  · intro x hx
    cases hx
  · change ([] ++ ([] ++ ((List.replicate workerSize _).flatMap held).map _)).Nodup
    rw [hidle]
    exact List.nodup_nil

/-- Requests are only added, and so are connections. -/
theorem Belongs.mono {requests new : List (BusinessConnRef × CImPdu)}
    {nextConn nextConn' : Nat} (h : Belongs requests nextConn uuid request c p)
    (hnext : nextConn ≤ nextConn') : Belongs (requests ++ new) nextConn' uuid request c p := by
  have hlt : request < requests.length := (List.getElem?_eq_some_iff.mp h.asked).1
  exact ⟨(List.getElem?_append_left hlt).trans h.asked, h.made.trans_le hnext, h.number⟩

/-- What is found under the number of a connection: that connection, or nothing. -/
theorem BusinessInv.lookup (h : BusinessInv s)
    (hb : Belongs s.requests s.nextConn uuid request c p) :
    (s.conns.find c = none ∧ s.getProxyConnByUuid uuid = none) ∨
      (s.conns.find c ≠ none ∧ s.getProxyConnByUuid uuid = some c) := by
  cases hfind : s.conns.find c with
  | some conn =>
    have huuid : conn.uuid = uuid :=
      UInt32.toNat_inj.mp ((h.conn c conn hfind).2.1.trans hb.number.symm)
    exact .inr ⟨Option.some_ne_none _, (h.uuid uuid c).mpr ⟨conn, hfind, huuid⟩⟩
  | none =>
    refine .inl ⟨rfl, ?_⟩
    cases hlookup : s.getProxyConnByUuid uuid with
    | none => rfl
    | some c' =>
      obtain ⟨conn, hconn, huuid⟩ := (h.uuid uuid c').mp hlookup
      have hnumber := (h.conn c' conn hconn).2.1
      rw [huuid, hb.number] at hnumber
      cases Nat.succ.inj hnumber
      rw [hfind] at hconn
      cases hconn

/-! ## Connections -/

theorem toNat_allocUuid {u : UInt32} (h : u.toNat + 1 < 2 ^ 32) :
    (BusinessServer.allocUuid u).toNat = u.toNat + 1 := by
  have hadd : (u + 1).toNat = u.toNat + 1 := by
    rw [UInt32.toNat_add]
    exact Nat.mod_eq_of_lt h
  have hne : u + 1 ≠ 0 := by
    intro h0
    rw [h0] at hadd
    exact Nat.succ_ne_zero _ hadd.symm
  rw [BusinessServer.allocUuid, if_neg hne, hadd]

theorem BusinessInv.onConnect (h : BusinessInv s) (handle : Nat) (hfew : s.nextConn + 1 < 2 ^ 32) :
    BusinessInv (s.onConnect handle) := by
  generalize huuid : BusinessServer.allocUuid s.uuidAlloctor = uuid
  have hnew : uuid.toNat = s.nextConn + 1 := by
    rw [← huuid, toNat_allocUuid (h.alloc ▸ hfew), h.alloc]
  have hconns : (s.onConnect handle).conns = s.conns.set s.nextConn ⟨uuid, handle⟩ := by
    rw [← huuid]
    rfl
  have hmap : (s.onConnect handle).uuidConnMap = s.uuidConnMap.insert uuid s.nextConn := by
    rw [← huuid]
    rfl
  -- the number is larger than that of any connection there is
  have hunused : s.uuidConnMap.find uuid = none := by
    cases hfind : s.uuidConnMap.find uuid with
    | none => rfl
    | some c =>
      obtain ⟨conn, hconn, rfl⟩ := (h.uuid uuid c).mp hfind
      obtain ⟨hlt, hnumber, -⟩ := h.conn c conn hconn
      rw [hnew] at hnumber
      cases Nat.succ.inj hnumber
      exact absurd hlt (Nat.lt_irrefl _)
  have hmono {uuid : UInt32} {request : Nat} {c : BusinessConnRef} {p : CImPdu}
      (hb : Belongs s.requests s.nextConn uuid request c p) :
      Belongs s.requests (s.nextConn + 1) uuid request c p :=
    ⟨hb.asked, Nat.lt_succ_of_lt hb.made, hb.number⟩
  refine ⟨(congrArg UInt32.toNat huuid).trans hnew, ?_, ?_, ?_, ?_, h.sent, h.nodup⟩
  · intro c conn hfind
    rw [hconns, Assoc.find_set_iff] at hfind
    rcases hfind with ⟨rfl, rfl⟩ | ⟨-, hold⟩
    · exact ⟨Nat.lt_succ_self _, hnew, by simp⟩
    · obtain ⟨hlt, hrest⟩ := h.conn c conn hold
      exact ⟨Nat.lt_succ_of_lt hlt, hrest⟩
  · intro u c
    rw [hmap, hconns, Assoc.find_insert_iff hunused, h.uuid]
    simp only [Assoc.find_set_iff]
    constructor
    · rintro (⟨rfl, rfl⟩ | ⟨conn, hold, rfl⟩)
      · exact ⟨_, .inl ⟨rfl, rfl⟩, rfl⟩
      · exact ⟨conn, .inr ⟨(h.conn c conn hold).1.ne, hold⟩, rfl⟩
    · rintro ⟨conn, ⟨rfl, rfl⟩ | ⟨-, hold⟩, rfl⟩
      · exact .inl ⟨rfl, rfl⟩
      · exact .inr ⟨conn, hold, rfl⟩
  · intro t ht
    obtain ⟨c, hb⟩ := h.task t ht
    exact ⟨c, hmono hb⟩
  · intro r hr
    obtain ⟨c, p, hb, hrev⟩ := h.response r hr
    exact ⟨c, p, hmono hb, hrev⟩

theorem BusinessInv.close_eq (h : BusinessInv s) {conn : CBusinessSrvConn}
    (hconn : s.conns.find c = some conn) :
    s.close c = { s with
      proxyConnMap := s.proxyConnMap.erase conn.handle
      uuidConnMap := s.uuidConnMap.erase conn.uuid
      conns := s.conns.erase c } := by
  rw [BusinessServer.close, hconn]
  exact if_pos (h.conn c conn hconn).2.2

theorem BusinessInv.close (h : BusinessInv s) (c : BusinessConnRef) : BusinessInv (s.close c) := by
  cases hconn : s.conns.find c with
  | none =>
    rw [BusinessServer.close, hconn]
    exact h
  | some conn =>
    rw [h.close_eq hconn]
    refine ⟨h.alloc, ?_, ?_, h.task, h.response, h.sent, h.nodup⟩
    · intro c' conn' hfind
      exact h.conn c' conn' (Assoc.find_erase_iff.mp hfind).2
    · intro u c'
      simp only [Assoc.find_erase_iff, h.uuid]
      -- another number is the number of another connection
      constructor
      · rintro ⟨hne, conn', hconn', huuid⟩
        refine ⟨conn', ⟨?_, hconn'⟩, huuid⟩
        rintro rfl
        rw [hconn] at hconn'
        cases hconn'
        exact hne huuid.symm
      · rintro ⟨conn', ⟨hne, hconn'⟩, rfl⟩
        refine ⟨fun huuid => hne ?_, conn', hconn', rfl⟩
        have hnumber' := (h.conn c' conn' hconn').2.1
        rw [huuid, (h.conn c conn hconn).2.1] at hnumber'
        exact (Nat.succ.inj hnumber').symm

/-- `Close` forgets the connection, and no other. -/
theorem find_conns_close_iff {c' : BusinessConnRef} {conn : CBusinessSrvConn} :
    (s.close c).conns.find c' = some conn ↔ c' ≠ c ∧ s.conns.find c' = some conn := by
  rw [BusinessServer.close]
  cases hconn : s.conns.find c with
  | none =>
    refine ⟨fun hfind => ⟨?_, hfind⟩, And.right⟩
    rintro rfl
    rw [hconn] at hfind
    cases hfind
  | some conn' =>
    dsimp only
    split
    · exact Assoc.find_erase_iff
    · exact Assoc.find_erase_iff

/-! ## Tasks -/

theorem BusinessInv.numbers_lt (h : BusinessInv s) {k : Nat} (hk : k ∈ numbers s) :
    k < s.requests.length := by
  have hlt {x : BusinessConnRef × CImPdu} {k : Nat} (hx : s.requests[k]? = some x) :
      k < s.requests.length := (List.getElem?_eq_some_iff.mp hx).1
  simp only [numbers, List.mem_append, List.mem_map] at hk
  rcases hk with ⟨x, hx, rfl⟩ | ⟨r, hr, rfl⟩ | ⟨t, ht, rfl⟩
  · obtain ⟨p, hasked, -⟩ := h.sent x hx
    exact hlt hasked
  · obtain ⟨c, p, hb, -⟩ := h.response r hr
    exact hlt hb.asked
  · obtain ⟨c, hb⟩ := h.task t ht
    exact hlt hb.asked

/-- Tasks change hands, or go. -/
theorem BusinessInv.workers (h : BusinessInv s) {workers : List CWorkerThread}
    {gone : List QueuedTask}
    (hperm : (workers.flatMap held ++ gone).Perm (s.workers.flatMap held)) :
    BusinessInv { s with workers := workers } := by
  refine ⟨h.alloc, h.conn, h.uuid, ?_, h.response, h.sent, ?_⟩
  · intro t ht
    exact h.task t (hperm.mem_iff.mp (List.mem_append_left _ ht))
  · have hnumbers : (numbers { s with workers := workers } ++ gone.map (·.request)).Perm
        (numbers s) := by
      have hmap := hperm.map (·.request)
      rw [List.map_append] at hmap
      have hall := (hmap.append_left ((unsent s).map (·.request))).append_left
        (s.sent.map (·.request))
      simpa [numbers, unsent] using hall
    exact (List.nodup_append.mp (hnumbers.nodup_iff.mpr h.nodup)).1

/-- The running task of a thread is taken from it. -/
theorem perm_held_done {i : Nat} {taskList : List QueuedTask} {t : QueuedTask}
    (hi : s.workers[i]? = some ⟨taskList, some t⟩) :
    ((s.workers.set i ⟨taskList, none⟩).flatMap held ++ [t]).Perm (s.workers.flatMap held) := by
  have hset := perm_flatMap_set held hi ⟨taskList, none⟩
  refine (List.perm_append_right_iff taskList).mp ?_
  rw [List.append_assoc]
  exact hset

theorem BusinessInv.take (h : BusinessInv s) (i : Nat) : BusinessInv (s.take i) := by
  rw [BusinessServer.take]
  split
  · rename_i t taskList hi
    have hset := perm_flatMap_set held hi ⟨taskList, some t⟩
    have hsame : ((s.workers.set i ⟨taskList, some t⟩).flatMap held ++ []).Perm
        (s.workers.flatMap held) := by
      rw [List.append_nil]
      exact (List.perm_append_right_iff _).mp hset
    exact h.workers hsame
  · exact h

theorem BusinessInv.addTask (h : BusinessInv s) {t : CProxyTask} {conn : CBusinessSrvConn}
    (hconn : s.conns.find c = some conn) (ht : t.connUuid = conn.uuid) (random : Nat) :
    BusinessInv (s.addTask c random t) := by
  rw [BusinessServer.addTask]
  dsimp only
  split
  · exact ⟨h.alloc, h.conn, h.uuid, h.task, h.response, h.sent, h.nodup⟩
  · rename_i w hi
    generalize hnew : (⟨s.requests.length, t⟩ : QueuedTask) = new
    -- the new task is there besides the others, under a number of its own
    have hheld : ((s.workers.set (random % s.workers.length)
        { w with taskList := w.taskList ++ [new] }).flatMap held).Perm
        (s.workers.flatMap held ++ [new]) := by
      have hset := perm_flatMap_set held hi { w with taskList := w.taskList ++ [new] }
      have hw : held { w with taskList := w.taskList ++ [new] } = held w ++ [new] := by
        simp [held]
      rw [hw] at hset
      refine (List.perm_append_right_iff (held w)).mp (hset.trans ?_)
      rw [List.append_assoc]
      exact List.perm_append_comm.append_left _
    have hmono {uuid : UInt32} {request : Nat} {c' : BusinessConnRef} {p : CImPdu}
        (hb : Belongs s.requests s.nextConn uuid request c' p) :
        Belongs (s.requests ++ [(c, t.pdu)]) s.nextConn uuid request c' p :=
      hb.mono (Nat.le_refl _)
    refine ⟨h.alloc, h.conn, h.uuid, ?_, ?_, ?_, ?_⟩
    · intro t' ht'
      rcases List.mem_append.mp (hheld.mem_iff.mp ht') with hold | hlast
      · obtain ⟨c', hb⟩ := h.task t' hold
        exact ⟨c', hmono hb⟩
      · cases List.mem_singleton.mp hlast
        obtain ⟨hlt, hnumber, -⟩ := h.conn c conn hconn
        rw [← hnew]
        exact ⟨c, by simp, hlt, ht ▸ hnumber⟩
    · intro r hr
      obtain ⟨c', p, hb, hrev⟩ := h.response r hr
      exact ⟨c', p, hmono hb, hrev⟩
    · intro x hx
      obtain ⟨p, hasked, hrev⟩ := h.sent x hx
      have hlt : x.request < s.requests.length := (List.getElem?_eq_some_iff.mp hasked).1
      exact ⟨p, (List.getElem?_append_left hlt).trans hasked, hrev⟩
    · have hnumbers := ((hheld.map (·.request)).append_left ((unsent s).map (·.request))).append_left
        (s.sent.map (·.request))
      have hlast : s.sent.map (·.request) ++ ((unsent s).map (·.request) ++
          (s.workers.flatMap held ++ [new]).map (·.request)) = numbers s ++ [s.requests.length] := by
        simp [numbers, ← hnew]
      rw [hlast] at hnumbers
      refine hnumbers.nodup_iff.mpr (List.nodup_append.mpr ⟨h.nodup, by simp, ?_⟩)
      intro k hk k' hk' heq
      cases List.mem_singleton.mp hk'
      exact absurd (h.numbers_lt hk) (heq ▸ Nat.lt_irrefl _)

theorem BusinessInv.halt (h : BusinessInv s) : BusinessInv s.halt :=
  ⟨h.alloc, h.conn, h.uuid, h.task, h.response, h.sent, h.nodup⟩

/-- What `HandlePduBuf` can do: nothing, make a task, close its connection, or end the process. -/
theorem handlePduBuf_cases (c : BusinessConnRef) (pduBuf : Bytes) (heap : Nat → UInt8)
    (random : Nat) :
    s.handlePduBuf c pduBuf heap random = s ∨
    (∃ conn p, s.conns.find c = some conn ∧
      s.handlePduBuf c pduBuf heap random = s.addTask c random ⟨conn.uuid, p⟩) ∨
    s.handlePduBuf c pduBuf heap random = s.close c ∨
    s.handlePduBuf c pduBuf heap random = s.halt := by
  rw [BusinessServer.handlePduBuf]
  cases hconn : s.conns.find c with
  | none => exact .inl rfl
  | some conn =>
    dsimp only
    rw [CBusinessSrvConn.handlePduBuf]
    cases CImPdu.readPdu heap pduBuf pduBuf.length with
    | error e => exact .inr (.inr (.inl rfl))
    | ok pdu? =>
      cases pdu? with
      | none => exact .inr (.inr (.inr rfl))
      | some p =>
        dsimp only
        by_cases hbeat : p.getCommandId = cidHeartBeatNotify
        · rw [if_pos hbeat]
          exact .inl rfl
        rw [if_neg hbeat]
        by_cases hhandler : (getHandler p.getCommandId).isSome = true
        · rw [if_pos hhandler]
          exact .inr (.inl ⟨conn, p, rfl, rfl⟩)
        · rw [if_neg hhandler]
          exact .inl rfl

theorem BusinessInv.handlePduBuf (h : BusinessInv s) (c : BusinessConnRef) (pduBuf : Bytes)
    (heap : Nat → UInt8) (random : Nat) :
    BusinessInv (s.handlePduBuf c pduBuf heap random) := by
  rcases handlePduBuf_cases (s := s) c pduBuf heap random with
    heq | ⟨conn, p, hconn, heq⟩ | heq | heq
  · rw [heq]
    exact h
  · rw [heq]
    exact h.addTask hconn rfl random
  · rw [heq]
    exact h.close c
  · rw [heq]
    exact h.halt

/-- A task that has been run makes way for its entry. -/
theorem BusinessInv.finish (h : BusinessInv s) {i : Nat} {taskList : List QueuedTask}
    {t : QueuedTask} (hi : s.workers[i]? = some ⟨taskList, some t⟩) {r : Worker}
    {pdu : Option CImPdu} (hentry : r.responsePduList = [⟨t.task.connUuid, pdu⟩])
    (hrev : ∀ p, pdu = some p → wireReversed p = t.task.pdu.getReversed) :
    BusinessInv (s.finish i ⟨taskList, some t⟩ t.request (r, none)) := by
  rw [BusinessServer.finish, hentry]
  generalize hnew : (⟨t.request, ⟨t.task.connUuid, pdu⟩⟩ : QueuedResponse) = new
  have hlist : ([⟨t.task.connUuid, pdu⟩] : List ResponsePdu).map (QueuedResponse.mk t.request) =
      [new] := by
    rw [← hnew]
    rfl
  rw [hlist]
  have hheld := perm_held_done hi
  have hunsent (r' : QueuedResponse) :
      r' ∈ s.resp.toList ++ (s.responsePduList ++ [new]) ↔ r' ∈ unsent s ∨ r' = new := by
    simp [unsent, or_assoc]
  refine ⟨h.alloc, h.conn, h.uuid, ?_, ?_, h.sent, ?_⟩
  · intro t' ht'
    exact h.task t' (hheld.mem_iff.mp (List.mem_append_left _ ht'))
  · intro r' hr'
    rcases (hunsent r').mp hr' with hold | rfl
    · exact h.response r' hold
    · obtain ⟨c, hb⟩ := h.task t (hheld.mem_iff.mp (by simp))
      rw [← hnew]
      exact ⟨c, t.task.pdu, hb, hrev⟩
  · have hnumbers : (s.sent.map (·.request) ++
        ((s.resp.toList ++ (s.responsePduList ++ [new])).map (·.request) ++
          ((s.workers.set i ⟨taskList, none⟩).flatMap held).map (·.request))).Perm (numbers s) := by
      have hrequest : new.request = t.request := by rw [← hnew]
      refine List.Perm.append_left _ ?_
      rw [← List.append_assoc s.resp.toList, List.map_append, List.append_assoc]
      refine List.Perm.append_left _ ?_
      refine List.perm_append_comm.trans ?_
      have hmap := hheld.map (·.request)
      rw [List.map_append] at hmap
      simpa [hrequest] using hmap
    exact hnumbers.nodup_iff.mpr h.nodup

theorem BusinessInv.run (h : BusinessInv s) (l : Libs) (e : TaskEnv) (i : Nat) :
    BusinessInv (s.run l e i) := by
  rw [BusinessServer.run]
  split
  · rename_i taskList t hi
    split
    · exact h.workers (perm_held_done hi)
    · rename_i action haction
      split
      · exact h
      · rename_i result hrun
        obtain ⟨r, fault⟩ := result
        cases fault with
        | some fault => exact h.halt
        | none =>
          obtain ⟨pdu, hentry, hrev⟩ := runOn_entry hrun
          exact h.finish hi hentry hrev
  · exact h

/-! ## Responses -/

theorem BusinessInv.popResponse (h : BusinessInv s) : BusinessInv s.popResponse := by
  rw [BusinessServer.popResponse]
  split
  · rename_i r rest hresp hlist
    have hunsent : unsent { s with resp := some r, responsePduList := rest } = unsent s := by
      rw [unsent, unsent, hresp, hlist]
      rfl
    refine ⟨h.alloc, h.conn, h.uuid, h.task, ?_, h.sent, ?_⟩
    · intro r' hr'
      rw [hunsent] at hr'
      exact h.response r' hr'
    · rw [numbers, hunsent]
      exact h.nodup
  · exact h

/-- The entry in hand is done with; its number is free for the log, once. -/
theorem BusinessInv.done (h : BusinessInv s) {r : QueuedResponse} (hresp : s.resp = some r)
    {sent : List SentResponse} (hsent : sent = s.sent ∨ ∃ c p pdu,
      sent = s.sent ++ [⟨r.request, c, pdu⟩] ∧ s.requests[r.request]? = some (c, p) ∧
        wireReversed pdu = p.getReversed) :
    BusinessInv { s with resp := none, sent := sent } := by
  have hunsent : unsent s = r :: s.responsePduList := by
    rw [unsent, hresp]
    rfl
  have hrest : unsent { s with resp := none, sent := sent } = s.responsePduList := rfl
  have hnodup := h.nodup
  rw [numbers, hunsent] at hnodup
  refine ⟨h.alloc, h.conn, h.uuid, h.task, ?_, ?_, ?_⟩
  · intro r' hr'
    rw [hrest] at hr'
    exact h.response r' (hunsent ▸ List.mem_cons_of_mem _ hr')
  · rcases hsent with rfl | ⟨c, p, pdu, rfl, hasked, hrev⟩
    · exact h.sent
    · intro x hx
      rcases List.mem_append.mp hx with hold | hnew
      · exact h.sent x hold
      · cases List.mem_singleton.mp hnew
        exact ⟨p, hasked, hrev⟩
  · rw [numbers, hrest]
    rcases hsent with rfl | ⟨c, p, pdu, rfl, -, -⟩
    · refine hnodup.sublist ?_
      simp
    · simpa using hnodup

/-- What becomes of the entry in hand, whose request came from `c`. -/
inductive Handled (s s' : BusinessServer) (r : QueuedResponse) (c : BusinessConnRef) : Prop
  | sent (pdu : CImPdu) (hpdu : r.response.pdu = some pdu) (hlive : s.conns.find c ≠ none)
      (h : s' = (s.sendPdu r.request c pdu).done)
  /-- `c` is closed, and no other connection. -/
  | closed (hpdu : r.response.pdu = none) (hlive : s.conns.find c ≠ none)
      (h : s' = (s.close c).done)
      (honly : ∀ c' conn, s'.conns.find c' = some conn ↔ c' ≠ c ∧ s.conns.find c' = some conn)
  | dropped (hgone : s.conns.find c = none) (h : s' = s.done)

theorem BusinessInv.handled (h : BusinessInv s) {r : QueuedResponse} (hresp : s.resp = some r) :
    ∃ c p, s.requests[r.request]? = some (c, p) ∧ Handled s s.sendResponse r c ∧
      ∀ pdu, r.response.pdu = some pdu → wireReversed pdu = p.getReversed := by
  obtain ⟨c, p, hb, hrev⟩ := h.response r (by simp [unsent, hresp])
  refine ⟨c, p, hb.asked, ?_, hrev⟩
  rw [BusinessServer.sendResponse, hresp]
  dsimp only
  rcases h.lookup hb with ⟨hgone, hlookup⟩ | ⟨hlive, hlookup⟩
  · rw [hlookup]
    exact .dropped hgone rfl
  · rw [hlookup]
    dsimp only
    cases hpdu : r.response.pdu with
    | some pdu => exact .sent pdu hpdu hlive rfl
    | none => exact .closed hpdu hlive rfl fun c' conn => find_conns_close_iff

theorem resp_close : (s.close c).resp = s.resp := by
  rw [BusinessServer.close]
  split
  · rfl
  · split
    · rfl
    · rfl

theorem BusinessInv.sendResponse (h : BusinessInv s) : BusinessInv s.sendResponse := by
  cases hresp : s.resp with
  | none =>
    rw [BusinessServer.sendResponse, hresp]
    exact h
  | some r =>
    obtain ⟨c, p, hasked, hhandled, hrev⟩ := h.handled hresp
    cases hhandled with
    | sent pdu hpdu hlive heq =>
      rw [heq]
      exact h.done hresp (.inr ⟨c, p, pdu, rfl, hasked, hrev pdu hpdu⟩)
    | closed hpdu hlive heq honly =>
      rw [heq]
      exact (h.close c).done (resp_close.trans hresp) (.inl rfl)
    | dropped hgone heq =>
      rw [heq]
      exact h.done hresp (.inl rfl)

/-! ## Steps and runs -/

/-- Nothing is sent, and no connection is made. -/
structure Keeps (s s' : BusinessServer) : Prop where
  nextConn : s'.nextConn = s.nextConn
  sent : s'.sent = s.sent

theorem Keeps.refl (s : BusinessServer) : Keeps s s := ⟨rfl, rfl⟩

theorem keeps_close : Keeps s (s.close c) := by
  rw [BusinessServer.close]
  split
  · exact .refl s
  · split
    · exact ⟨rfl, rfl⟩
    · exact ⟨rfl, rfl⟩

theorem keeps_addTask (c : BusinessConnRef) (random : Nat) (t : CProxyTask) :
    Keeps s (s.addTask c random t) := by
  rw [BusinessServer.addTask]
  dsimp only
  split
  · exact ⟨rfl, rfl⟩
  · exact ⟨rfl, rfl⟩

theorem keeps_handlePduBuf (c : BusinessConnRef) (pduBuf : Bytes) (heap : Nat → UInt8)
    (random : Nat) : Keeps s (s.handlePduBuf c pduBuf heap random) := by
  rcases handlePduBuf_cases (s := s) c pduBuf heap random with
    heq | ⟨conn, p, hconn, heq⟩ | heq | heq
  · rw [heq]
    exact .refl s
  · rw [heq]
    exact keeps_addTask c random _
  · rw [heq]
    exact keeps_close
  · rw [heq]
    exact ⟨rfl, rfl⟩

theorem keeps_run (l : Libs) (e : TaskEnv) (i : Nat) : Keeps s (s.run l e i) := by
  rw [BusinessServer.run]
  split
  · split
    · exact ⟨rfl, rfl⟩
    · split
      · exact .refl s
      · rename_i result _
        obtain ⟨r, fault⟩ := result
        cases fault with
        | none => exact ⟨rfl, rfl⟩
        | some fault => exact ⟨rfl, rfl⟩
  · exact .refl s

/-- Everything but a new connection and the sending of a response. -/
theorem keeps_step (l : Libs) {e : BusinessEvent} (hconnect : ∀ handle, e ≠ .connect handle)
    (hsend : e ≠ .sendResponse) : Keeps s (businessStep l s e) := by
  by_cases hhalted : s.halted = true
  · have hstep : businessStep l s e = s := if_pos hhalted
    rw [hstep]
    exact .refl s
  have hstep : businessStep l s e = _ := if_neg hhalted
  rw [hstep]
  cases e with
  | connect handle => exact absurd rfl (hconnect handle)
  | sendResponse => exact absurd rfl hsend
  | close c => exact keeps_close
  | pdu c pduBuf heap random => exact keeps_handlePduBuf c pduBuf heap random
  | run i e => exact keeps_run l e i
  | elsewhere server pool => exact ⟨rfl, rfl⟩
  | take i =>
    dsimp only
    rw [BusinessServer.take]
    split
    · exact ⟨rfl, rfl⟩
    · exact .refl s
  | popResponse =>
    dsimp only
    rw [BusinessServer.popResponse]
    split
    · exact ⟨rfl, rfl⟩
    · exact .refl s

theorem nextConn_sendResponse : s.sendResponse.nextConn = s.nextConn := by
  rw [BusinessServer.sendResponse]
  split
  · rfl
  · split
    · rfl
    · split
      · rfl
      · exact keeps_close.nextConn

def isConnect : BusinessEvent → Bool
  | .connect _ => true
  | _ => false

theorem nextConn_step (l : Libs) (s : BusinessServer) (e : BusinessEvent) :
    (businessStep l s e).nextConn ≤ s.nextConn + if isConnect e then 1 else 0 := by
  by_cases hhalted : s.halted = true
  · have hstep : businessStep l s e = s := if_pos hhalted
    rw [hstep]
    exact Nat.le_add_right _ _
  have hstep : businessStep l s e = _ := if_neg hhalted
  cases e with
  | connect handle =>
    rw [hstep]
    exact Nat.le_refl _
  | sendResponse =>
    rw [hstep]
    exact nextConn_sendResponse.le
  | _ => exact (keeps_step l (by simp) (by simp)).nextConn.le

/-- The numbers do not run out: each connection takes one. -/
theorem few_connects (l : Libs) {es : List BusinessEvent}
    (hfew : s.nextConn + es.countP isConnect < 2 ^ 32) :
    EachStep (businessStep l) (fun s e => isConnect e = true → s.nextConn + 1 < 2 ^ 32) s es := by
  induction es generalizing s with
  | nil => trivial
  | cons e es ih =>
    have hstep := nextConn_step l s e
    rw [List.countP_cons] at hfew
    refine ⟨fun he => ?_, ih ?_⟩
    · rw [if_pos he] at hfew
      omega
    · omega

theorem BusinessInv.step (h : BusinessInv s) (l : Libs) {e : BusinessEvent}
    (hfew : isConnect e = true → s.nextConn + 1 < 2 ^ 32) : BusinessInv (businessStep l s e) := by
  by_cases hhalted : s.halted = true
  · have hstep : businessStep l s e = s := if_pos hhalted
    rw [hstep]
    exact h
  have hstep : businessStep l s e = _ := if_neg hhalted
  rw [hstep]
  cases e with
  | connect handle => exact h.onConnect handle (hfew rfl)
  | close c => exact h.close c
  | pdu c pduBuf heap random => exact h.handlePduBuf c pduBuf heap random
  | take i => exact h.take i
  | run i e => exact h.run l e i
  | popResponse => exact h.popResponse
  | sendResponse => exact h.sendResponse
  | elsewhere server pool =>
    exact ⟨h.alloc, h.conn, h.uuid, h.task, h.response, h.sent, h.nodup⟩

/-- A step hands the entry that it takes up to the connection of its request, and sends nothing
    otherwise. -/
def RoutesStep (l : Libs) (s : BusinessServer) : BusinessEvent → Prop
  | .sendResponse => s.halted = false → ∀ r, s.resp = some r →
    ∃ c p, s.requests[r.request]? = some (c, p) ∧ Handled s (businessStep l s .sendResponse) r c
  | e => (businessStep l s e).sent = s.sent

theorem BusinessInv.routesStep (h : BusinessInv s) (l : Libs) (e : BusinessEvent) :
    RoutesStep l s e := by
  cases e with
  | sendResponse =>
    intro halive r hresp
    have hstep : businessStep l s .sendResponse = s.sendResponse := if_neg (by simp [halive])
    obtain ⟨c, p, hasked, hhandled, -⟩ := h.handled hresp
    exact ⟨c, p, hasked, hstep.symm ▸ hhandled⟩
  | connect handle =>
    change (businessStep l s (.connect handle)).sent = s.sent
    rw [businessStep.eq_def]
    split
    · rfl
    · rfl
  | _ => exact (keeps_step l (by simp) (by simp)).sent

/-- What was sent went to the connection of its request, with the number the request came with, and
    once. -/
def ResponsesRouted (s : BusinessServer) : Prop :=
  (∀ x ∈ s.sent, ∃ p, s.requests[x.request]? = some (x.conn, p) ∧
    wireReversed x.pdu = p.getReversed) ∧
  (s.sent.map (·.request)).Nodup

/-- **Responses.** In every run of the business server in which fewer than `2 ^ 32` connections are
    made, a response goes to the connection its request came from or to none. -/
theorem responses_routed (l : Libs) (workerSize : Nat) (server : MsgServer) (pool : CachePool)
    (es : List BusinessEvent) (hfew : es.countP isConnect < 2 ^ 32) :
    EachStep (businessStep l) (RoutesStep l) (.start workerSize server pool) es ∧
      ∀ pre, pre <+: es → ResponsesRouted (pre.foldl (businessStep l) (.start workerSize server pool)) := by
  have h0 := businessInv_start workerSize server pool
  have hsteps : EachStep (businessStep l) _ (.start workerSize server pool) es :=
    few_connects l (by rwa [← Nat.zero_add (es.countP isConnect)] at hfew)
  have hkeep (s : BusinessServer) (e : BusinessEvent) (h : BusinessInv s)
      (hfew : isConnect e = true → s.nextConn + 1 < 2 ^ 32) : BusinessInv (businessStep l s e) :=
    h.step l hfew
  refine ⟨EachStep.of_invariant BusinessInv hkeep (fun s e h _ => h.routesStep l e) h0 hsteps, ?_⟩
  rintro pre ⟨rest, rfl⟩
  have hinv := (eachStep_append.mp hsteps).1.invariant BusinessInv hkeep h0
  exact ⟨hinv.sent, (List.nodup_append.mp hinv.nodup).1⟩

/-- A result without a body, from the connection with number 1; it came with 7. -/
def barePdu : Bytes := [0, 0, 0, 16, 0, 1, 0, 0, 6, 2, 0, 3, 0, 0, 0, 7]

def answeredRun : List BusinessEvent :=
  [.connect 5, .connect 6, .pdu 0 barePdu (fun _ => 0) 0, .take 0, .run 0 sampleTaskEnv,
    .popResponse, .sendResponse]

theorem routed_answeredRun :
    (answeredRun.foldl (businessStep hdLibs) (.start 1 .empty samplePool)).sent.map
        (fun x => (x.request, x.conn, wireReversed x.pdu)) = [(0, 0, 7)] ∧
      ResponsesRouted (answeredRun.foldl (businessStep hdLibs) (.start 1 .empty samplePool)) := by
  have hrouted := responses_routed hdLibs 1 .empty samplePool answeredRun (by decide)
  exact ⟨by decide +kernel, hrouted.2 _ (List.prefix_refl _)⟩

end Server
end Proof
end PtpCore
