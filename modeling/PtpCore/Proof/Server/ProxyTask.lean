import PtpCore.Proof.Global.Helpers
import PtpCore.Proof.Net.Signing
import PtpCore.Proof.Server.LoginCalls
import PtpCore.Server.ProxyTask

/-!
# Tasks and what they can throw

What one task of the business server comes to. `AuthCaptchaReq` and `AuthLoginReq` return whatever
they are given. `ServerLoginReq` returns unless `ServerLogin` does not, and `ServerLoginRes` unless
the attached data is short, or the user it names is there and the connection is not.
-/

namespace PtpCore
namespace Proof
namespace Server

open Lib Proto PtpCore.Crypto
open PtpCore.Global PtpCore.Server PtpCore.Wallet PtpCore.Net
open PtpCore.Proof.Global
open CByteStream

/-! ## Attached data -/

theorem getUint32_attach (data : Bytes) {k : Nat} (hk : k ≤ 8) :
    Reader.getUint32 ⟨data, data.length, k⟩ =
      if data.length < k + 4 then .error (.ofError errorCodeParseFailed "parase packet failed!")
      else .ok (readUint32 (slice data k 4), ⟨data, data.length, k + 4⟩) := by
  have hmod : (k + 4) % 2 ^ 32 = k + 4 := Nat.mod_eq_of_lt (by omega)
  rw [Reader.getUint32, Reader.readByte]
  dsimp only
  rw [hmod]
  split
  · rfl
  · rfl

/-- The constructor throws when there are fewer than twelve bytes. -/
theorem decode_ok_iff (data : Bytes) :
    (∃ attach, CDbAttachData.decode data = .ok attach) ↔ 12 ≤ data.length := by
  have h0 := getUint32_attach data (k := 0) (by simp)
  have h4 := getUint32_attach data (k := 4) (by simp)
  have h8 := getUint32_attach data (k := 8) (by simp)
  simp only [CDbAttachData.decode, Reader.ofBuf, bind, Except.bind, h0]
  by_cases hlen : 12 ≤ data.length
  · rw [if_neg (by omega)]
    dsimp only
    rw [h4, if_neg (by omega)]
    dsimp only
    rw [h8, if_neg (by omega)]
    exact ⟨fun _ => hlen, fun _ => ⟨_, rfl⟩⟩
  · refine ⟨?_, fun h => absurd h hlen⟩
    rintro ⟨attach, hattach⟩
    split at hattach
    · cases hattach
    · rename_i h1
      split at h1
      · cases h1
      · cases h1
        dsimp only at hattach
        rw [h4] at hattach
        split at hattach
        · cases hattach
        · rename_i h2
          split at h2
          · cases h2
          · cases h2
            dsimp only at hattach
            rw [h8, if_pos (by omega)] at hattach
            cases hattach

/-! ## Keys of connections -/

/-- Only `AuthCaptchaReq` writes the key of a connection, in hexadecimal. -/
def Keyed (s : MsgServer) : Prop :=
  ∀ c conn, s.conns.find c = some conn → conn.prvKey = [] ∨ ∃ key, conn.prvKey = bytesToHexString key

section

variable {s : MsgServer} {c : ConnId} {conn conn' : CMsgSrvConn}

theorem keyed_empty : Keyed .empty := by
  intro c conn h
  cases h

theorem Keyed.setConn (h : Keyed s)
    (hkey : conn'.prvKey = [] ∨ ∃ key, conn'.prvKey = bytesToHexString key) :
    Keyed (s.setConn c conn') := by
  intro d object hfind
  rw [conns_setConn] at hfind
  by_cases hd : d = c
  · rw [hd, Assoc.find_set_self] at hfind
    cases hfind
    exact hkey
  · rw [Assoc.find_set_of_ne _ _ hd] at hfind
    exact h d object hfind

theorem Keyed.onConnect (h : Keyed s) (handle : UInt32) : Keyed (s.onConnect handle) := by
  intro d object hfind
  change (s.conns.set s.nextConn _).find d = _ at hfind
  by_cases hd : d = s.nextConn
  · rw [hd, Assoc.find_set_self] at hfind
    cases hfind
    exact .inl rfl
  · rw [Assoc.find_set_of_ne _ _ hd] at hfind
    exact h d object hfind

theorem Keyed.close (h : Keyed s) (c : ConnId) : Keyed (s.close c) := by
  rw [MsgServer.close]
  split
  · exact h
  · intro d object hfind
    change (s.conns.erase c).find d = _ at hfind
    by_cases hd : d = c
    · rw [hd, Assoc.find_erase_self] at hfind
      cases hfind
    · rw [Assoc.find_erase_of_ne _ hd] at hfind
      exact h d object hfind

theorem Keyed.key (h : Keyed s) {handle : UInt32}
    (hfind : s.findMsgSrvConnByHandle handle = some (c, conn)) :
    conn.prvKey = [] ∨ ∃ key, conn.prvKey = bytesToHexString key :=
  h c conn (find_eq_some hfind).2

end

/-! ## The handlers -/

section

variable {proto : Library} {secp : Secp256k1} {hd : HDPrimitives} {l : Libs} {env : Env}
  {fill : Nat → UInt8} {handle : UInt32} {p : CImPdu} {s : MsgServer}

/-- The address that goes into the answer is hexadecimal, and can be read. -/
theorem authCaptchaReq_returns :
    ∃ s' r, authCaptchaReq (.ofHD proto secp hd) env fill ⟨handle, p⟩ s = (s', .ok r) := by
  rw [authCaptchaReq]
  dsimp only
  split
  · exact ⟨_, _, rfl⟩
  · split
    · have haddress : hexToString ((captchaKey (.ofHD proto secp hd) env).2.drop 2) = some _ :=
        hexToString_drop_bytesToHex _
      rw [haddress]
      exact ⟨_, _, rfl⟩
    · exact ⟨_, _, rfl⟩

theorem authLoginReq_returns :
    ∃ s' r, authLoginReq l env fill ⟨handle, p⟩ s = (s', .ok r) := by
  rw [authLoginReq]
  dsimp only
  split
  · exact ⟨_, _, rfl⟩
  split
  · exact ⟨_, _, rfl⟩
  split
  · exact ⟨_, _, rfl⟩
  split
  · exact ⟨_, _, rfl⟩
  split
  · exact ⟨_, _, rfl⟩
  · exact ⟨_, _, rfl⟩

/-- Every handler keeps the keys as they are, or writes one. -/
theorem Keyed.run (h : Keyed s) (l : Libs) (env : Env) (fill : Nat → UInt8) (handle : UInt32)
    (p : CImPdu) (action : Action) :
    Keyed (action.run l env fill ⟨handle, p⟩ s).1 := by
  cases action with
  | authCaptchaReq =>
    rw [Action.run, authCaptchaReq]
    dsimp only
    split
    · exact h
    rename_i c conn hfind
    have hkey := h.key hfind
    split
    · split
      · exact Keyed.setConn h hkey
      · rw [setConn_record_setConn]
        exact Keyed.setConn h (.inr ⟨_, rfl⟩)
    · exact h
  | authLoginReq =>
    rw [Action.run, authLoginReq]
    dsimp only
    split
    · exact h
    rename_i c conn hfind
    have hkey := h.key hfind
    split
    · exact h
    split
    · exact h
    split
    · exact h
    split
    · exact h
    · exact Keyed.setConn h hkey
  | serverLoginReq =>
    rcases serverLoginReq_cases l env fill handle p s with
      ⟨msg, -, heq⟩ | ⟨fault, heq⟩ | ⟨msg, login, -, -, heq⟩
    · rw [Action.run, heq]
      exact h
    · rw [Action.run, heq]
      exact h
    · rw [Action.run, heq]
      exact h
  | serverLoginRes =>
    rcases serverLoginRes_cases l env fill handle p s with
      ⟨msgRsp, heq⟩ | ⟨fault, heq, -⟩ | ⟨msg, c, conn, user, secret, msgRsp, -, hfind, heq⟩
    · rw [Action.run, heq]
      exact h
    · rw [Action.run, heq]
      exact h
    · have hkey := h.key hfind
      rw [Action.run, heq]
      exact Keyed.setConn h hkey
  | heartBeatNotify => exact h

/-- The result of a login that can be handled: the attached data is whole, and if its user is there
    then so is the connection. -/
def ResultSafe (s : MsgServer) (handle : UInt32) (msg : ServerLoginRes) : Prop :=
  12 ≤ (msg.attachData.getD []).length ∧
    ∀ user, s.users.getImUserByAddress ((msg.userInfo.getD {}).address.getD []) = some user →
      s.findMsgSrvConnByHandle handle ≠ none

theorem serverLoginRes_returns (hkeyed : Keyed s)
    (h : ∀ msg, l.proto.serverLoginRes.parse p.body = (msg, true) → ResultSafe s handle msg) :
    ∃ s' r, serverLoginRes l env fill ⟨handle, p⟩ s = (s', .ok r) := by
  rw [serverLoginRes]
  dsimp only
  split
  · exact ⟨_, _, rfl⟩
  rename_i msg hparse
  obtain ⟨hlen, hconn⟩ := h msg hparse
  obtain ⟨attach, hattach⟩ := (decode_ok_iff _).mpr hlen
  rw [hattach]
  dsimp only
  split
  · exact ⟨_, _, rfl⟩
  rename_i user huser
  split
  · rename_i hfind
    exact absurd hfind (hconn user huser)
  rename_i c conn hfind
  split
  · exact ⟨_, _, rfl⟩
  rename_i hne
  split
  · exact ⟨_, _, rfl⟩
  rename_i pubKeyRaw hpub
  obtain hnil | ⟨key, hkey⟩ := hkeyed.key hfind
  · rw [hnil] at hne
    exact absurd rfl hne
  · have hhex : hexToString (conn.prvKey.drop 2) = some key := by
      rw [hkey]
      exact hexToString_drop_bytesToHex key
    rw [ecdhCreateShareKey, hhex, Option.map_some]
    split
    · rename_i heq
      cases heq
    · exact ⟨_, _, rfl⟩
    · exact ⟨_, _, rfl⟩

theorem serverLoginRes_not_returns (env : Env) (fill : Nat → UInt8) {msg : ServerLoginRes}
    (hparse : l.proto.serverLoginRes.parse p.body = (msg, true)) (h : ¬ ResultSafe s handle msg) :
    ∃ s' fault, serverLoginRes l env fill ⟨handle, p⟩ s = (s', .error fault) := by
  rw [serverLoginRes]
  dsimp only
  rw [hparse]
  dsimp only
  split
  · exact ⟨_, _, rfl⟩
  rename_i attach hattach
  have hlen := (decode_ok_iff _).mp ⟨attach, hattach⟩
  split
  · rename_i hnone
    refine absurd ⟨hlen, ?_⟩ h
    intro user huser
    rw [hnone] at huser
    cases huser
  split
  · exact ⟨_, _, rfl⟩
  rename_i c conn hfind
  refine absurd ⟨hlen, ?_⟩ h
  intro user huser hnone
  rw [hfind] at hnone
  cases hnone

end

/-! ## Tasks -/

section

variable {secp : Secp256k1} {env : LoginEnv} (now : UInt32) {pool : CachePool}
  {msg : ServerLoginReq}

/-- `ServerLogin` does not wait for a connection, libsecp256k1 takes the recovery id, and a login
    that is accepted reads a user from the cache. -/
def LoginSafe (secp : Secp256k1) (env : LoginEnv) (pool : CachePool) (msg : ServerLoginReq) :
    Prop :=
  pool.getCacheConn env.initOk ≠ none ∧
    (Lends env.initOk pool → Admissible (signAt (msg.sign.getD []) env.beyond) ∧
      ∀ pubKey33, Accepted secp env.beyond msg pubKey33 →
        8 ≤ (CacheConn.exec env.replies.mget).length)

/-- With a connection and a recovery id: it returns unless it reads past the end of the list. -/
theorem serverLogin_returns_iff :
    (∃ r, Server.serverLogin secp (cacheOf env.replies true) env.beyond now msg = .ok r) ↔
      ∀ pubKey33, Accepted secp env.beyond msg pubKey33 →
        8 ≤ (CacheConn.exec env.replies.mget).length := by
  by_cases hacc : ∃ pubKey33, Accepted secp env.beyond msg pubKey33
  · obtain ⟨pubKey33, hacc⟩ := hacc
    rw [serverLogin_of_accepted hacc 0]
    cases huser : userOfList _ _ (CacheConn.exec env.replies.mget) with
    | none =>
      have hlen := (userOfList_eq_none_iff _ _ _).mp huser
      refine ⟨?_, fun h => absurd hlen (Nat.not_lt.mpr (h pubKey33 hacc))⟩
      rintro ⟨r, h⟩
      cases h
    | some user =>
      refine ⟨fun _ _ _ => ?_, fun _ => ⟨_, rfl⟩⟩
      by_contra hlt
      rw [(userOfList_eq_none_iff _ _ _).mpr (Nat.not_le.mp hlt)] at huser
      cases huser
  · have hrefused := not_exists.mp hacc
    rw [serverLogin_of_refused hrefused]
    exact ⟨fun _ k hk => absurd hk (hrefused k), fun _ => ⟨_, rfl⟩⟩

/-- What the program returns, the function returns with the same replies. -/
theorem serverLogin_of_run {x : Except Fault LoginResult} {pool' : CachePool}
    (h : env.run secp now msg pool = some (x, pool')) :
    ∃ available,
      Server.serverLogin secp (cacheOf env.replies available) env.beyond now msg = x := by
  rw [run_eq] at h
  split at h
  · cases h
  · cases h
    exact ⟨false, rfl⟩
  · split at h
    · refine ⟨true, ?_⟩
      split at h
      · rename_i r hr
        cases h
        exact hr
      · rename_i fault hfault
        cases h
        exact hfault
    · cases h

theorem run_returns_iff : (∃ r pool', env.run secp now msg pool = some (.ok r, pool')) ↔
    LoginSafe secp env pool msg := by
  by_cases hlends : Lends env.initOk pool
  · obtain ⟨conn, pool', hconn⟩ := hlends
    have hne : pool.getCacheConn env.initOk ≠ none := by simp [hconn]
    by_cases hadm : Admissible (signAt (msg.sign.getD []) env.beyond)
    · rw [run_of_lends hconn hadm]
      constructor
      · rintro ⟨r, pool'', h⟩
        refine ⟨hne, fun _ => ⟨hadm, ?_⟩⟩
        apply (serverLogin_returns_iff now).mp
        split at h
        · rename_i r' hr'
          exact ⟨r', hr'⟩
        · cases h
      · intro h
        obtain ⟨r, hr⟩ := (serverLogin_returns_iff now).mpr (h.2 ⟨conn, pool', hconn⟩).2
        rw [hr]
        exact ⟨_, _, rfl⟩
    · rw [run_eq, hconn]
      dsimp only
      rw [if_neg hadm]
      refine ⟨?_, fun h => absurd (h.2 ⟨conn, pool', hconn⟩).1 hadm⟩
      rintro ⟨r, pool'', h⟩
      cases h
  · constructor
    · rintro ⟨r, pool', h⟩
      refine ⟨?_, fun h => absurd h hlends⟩
      intro hnone
      rw [run_eq, hnone] at h
      cases h
    · rintro ⟨hne, -⟩
      rw [run_eq]
      cases hconn : pool.getCacheConn env.initOk with
      | none => exact absurd hconn hne
      | some res =>
        obtain ⟨conn, pool'⟩ := res
        cases conn with
        | none => exact ⟨_, _, rfl⟩
        | some conn => exact absurd ⟨conn, pool', hconn⟩ hlends

end

section

variable {l : Libs} {e : TaskEnv} {t : CProxyTask} {w : Worker}

/-- The handler of the task returns, nothing was thrown and no null pointer dereferenced, and there
    is one entry more for the connection of the task. -/
def Contained (l : Libs) (e : TaskEnv) (t : CProxyTask) (w : Worker) : Prop :=
  ∀ action, getHandler t.pdu.getCommandId = some action →
    ∃ w' pdu, t.runOn l e action w = some (w', none) ∧
      w'.responsePduList = w.responsePduList ++ [⟨t.connUuid, pdu⟩]

/-- What a task may not ask for. -/
structure TaskSafe (l : Libs) (e : TaskEnv) (t : CProxyTask) (w : Worker) : Prop where
  login : getHandler t.pdu.getCommandId = some .serverLoginReq →
    ∀ msg, l.proto.serverLoginReq.parse t.pdu.body = (msg, true) →
      LoginSafe l.secp e.login w.pool msg
  result : getHandler t.pdu.getCommandId = some .serverLoginRes →
    ∀ msg, l.proto.serverLoginRes.parse t.pdu.body = (msg, true) →
      ResultSafe w.server t.connUuid msg

/-- Every handler but one works on the state of the message server alone. -/
theorem runOn_of_run {action : Action} (hne : action ≠ .serverLoginReq) {fill : Nat → UInt8}
    {request : CRequest} {s : MsgServer} {r : Except Fault CResponse}
    (h : action.run l e.env fill request w.server = (s, r)) :
    action.runOn l e fill request w = some (w.setServer s, r) := by
  cases action with
  | serverLoginReq => exact absurd rfl hne
  | authCaptchaReq => simp [Action.runOn, h]
  | authLoginReq => simp [Action.runOn, h]
  | serverLoginRes => simp [Action.runOn, h]
  | heartBeatNotify => simp [Action.runOn, h]

/-- A handler that returned leaves one entry. -/
theorem runOn_of_ok {action : Action} {w' : Worker} {r : CResponse}
    (h : action.runOn l e (e.env.heap 0) ⟨t.connUuid, t.pdu⟩ w = some (w', .ok r)) :
    ∃ pdu, t.runOn l e action w = some (w'.addResponsePdu t.connUuid pdu, none) := by
  rw [CProxyTask.runOn, h]
  dsimp only
  split
  · exact ⟨_, rfl⟩
  · exact ⟨_, rfl⟩

theorem Contained.ok {action : Action} (h : Contained l e t w)
    (haction : getHandler t.pdu.getCommandId = some action) :
    ∃ w' r, action.runOn l e (e.env.heap 0) ⟨t.connUuid, t.pdu⟩ w = some (w', .ok r) := by
  obtain ⟨w', pdu, hrun, -⟩ := h action haction
  rw [CProxyTask.runOn] at hrun
  split at hrun
  · cases hrun
  · cases hrun
  · rename_i w'' r heq
    exact ⟨w'', r, heq⟩

theorem responsePduList_runOn {action : Action} {fill : Nat → UInt8} {request : CRequest}
    {w' : Worker} {r : Except Fault CResponse}
    (h : action.runOn l e fill request w = some (w', r)) :
    w'.responsePduList = w.responsePduList := by
  cases action with
  | serverLoginReq =>
    rw [Action.runOn, Worker.serverLoginReq] at h
    dsimp only at h
    split at h
    · cases h
      rfl
    · split at h
      · cases h
      · cases h
        rfl
      · cases h
        rfl
  | authCaptchaReq =>
    cases h
    rfl
  | authLoginReq =>
    cases h
    rfl
  | serverLoginRes =>
    cases h
    rfl
  | heartBeatNotify =>
    cases h
    rfl

theorem runOn_serverLoginReq_iff {fill : Nat → UInt8} :
    (∃ w' r, Action.serverLoginReq.runOn l e fill ⟨t.connUuid, t.pdu⟩ w = some (w', .ok r)) ↔
      ∀ msg, l.proto.serverLoginReq.parse t.pdu.body = (msg, true) →
        LoginSafe l.secp e.login w.pool msg := by
  rw [Action.runOn, Worker.serverLoginReq]
  dsimp only
  split
  · rename_i msg hparse
    refine ⟨fun _ msg' h => ?_, fun _ => ⟨_, _, rfl⟩⟩
    rw [hparse] at h
    cases h
  · rename_i msg hparse
    constructor
    · rintro ⟨w', r, h⟩ msg' hmsg'
      rw [hparse] at hmsg'
      cases hmsg'
      apply (run_returns_iff e.env.now).mp
      split at h
      · cases h
      · cases h
      · rename_i login pool hrun
        exact ⟨login, pool, hrun⟩
    · intro h
      obtain ⟨login, pool, hrun⟩ := (run_returns_iff e.env.now).mpr (h msg hparse)
      rw [hrun]
      exact ⟨_, _, rfl⟩

/-- What the task meets, as `CProxyTask.run` takes it. -/
def TaskEnv.envOf (e : TaskEnv) (available : Bool) : Env :=
  { e.env with cache := cacheOf e.replies available }

theorem serverLogin_envOf {msg : ServerLoginReq} {p p' : CachePool} {r : Except Fault LoginResult}
    (h : e.login.run l.secp e.env.now msg p = some (r, p')) :
    ∃ available, Server.serverLogin l.secp (TaskEnv.envOf e available).cache
      (TaskEnv.envOf e available).beyond (TaskEnv.envOf e available).now msg = r :=
  serverLogin_of_run e.env.now h

/-- A handler that ends on a worker ends as it does with the replies at hand. -/
theorem run_of_action_runOn {action : Action} {fill : Nat → UInt8} {request : CRequest}
    {w' : Worker} {r : Except Fault CResponse}
    (h : action.runOn l e fill request w = some (w', r)) :
    ∃ available,
      action.run l (TaskEnv.envOf e available) fill request w.server = (w'.server, r) := by
  cases action with
  | serverLoginReq =>
    rw [Action.runOn, Worker.serverLoginReq] at h
    dsimp only at h
    obtain ⟨⟨msg, ok⟩, hparse⟩ : ∃ x, l.proto.serverLoginReq.parse request.pdu.body = x := ⟨_, rfl⟩
    simp only [Action.run, serverLoginReq, hparse]
    rw [hparse] at h
    cases ok with
    | false =>
      cases h
      exact ⟨true, rfl⟩
    | true =>
      dsimp only at h
      split at h
      · cases h
      · rename_i fault pool hrun
        obtain ⟨available, hlogin⟩ := serverLogin_envOf hrun
        cases h
        refine ⟨available, ?_⟩
        dsimp only
        rw [hlogin]
        rfl
      · rename_i login pool hrun
        obtain ⟨available, hlogin⟩ := serverLogin_envOf hrun
        cases h
        refine ⟨available, ?_⟩
        dsimp only
        rw [hlogin]
        rfl
  | authCaptchaReq =>
    cases h
    exact ⟨true, rfl⟩
  | authLoginReq =>
    cases h
    exact ⟨true, rfl⟩
  | serverLoginRes =>
    cases h
    exact ⟨true, rfl⟩
  | heartBeatNotify =>
    cases h
    exact ⟨true, rfl⟩

/-- **A task.** What `run` comes to on a worker is what it comes to with the replies at hand, and
    the list has what is sent back. -/
theorem run_of_runOn {action : Action} {w' : Worker} {fault : Option Fault}
    (h : t.runOn l e action w = some (w', fault)) :
    ∃ available result, t.run l (TaskEnv.envOf e available) action w.server = (w'.server, result) ∧
      match result with
      | .error f => fault = some f ∧ w'.responsePduList = w.responsePduList
      | .ok pdu =>
        fault = none ∧ w'.responsePduList = w.responsePduList ++ [⟨t.connUuid, pdu⟩] := by
  rw [CProxyTask.runOn] at h
  split at h
  · cases h
  · rename_i w'' f hrun
    obtain ⟨available, haction⟩ := run_of_action_runOn hrun
    cases h
    refine ⟨available, .error f, ?_, rfl, responsePduList_runOn hrun⟩
    rw [CProxyTask.run]
    have hheap : (TaskEnv.envOf e available).heap = e.env.heap := rfl
    rw [hheap, haction]
  · rename_i w'' response hrun
    obtain ⟨available, haction⟩ := run_of_action_runOn hrun
    have hheap : (TaskEnv.envOf e available).heap = e.env.heap := rfl
    have hlist := responsePduList_runOn hrun
    split at h
    · rename_i pdu hvalid hpdu
      cases h
      refine ⟨available, .ok (some (pdu.setReversed t.pdu.getReversed)), ?_, rfl, ?_⟩
      · rw [CProxyTask.run, hheap, haction]
        dsimp only
        rw [hvalid, hpdu]
        rfl
      · rw [Worker.addResponsePdu, hlist]
    · rename_i hnot
      cases h
      refine ⟨available, .ok none, ?_, rfl, ?_⟩
      · rw [CProxyTask.run, hheap, haction]
        dsimp only
        split
        · rename_i pdu hvalid hpdu
          exact absurd hpdu (hnot pdu hvalid)
        · rfl
      · rw [Worker.addResponsePdu, hlist]

theorem Keyed.runOn (hkeyed : Keyed w.server) {action : Action} {w' : Worker}
    {fault : Option Fault} (h : t.runOn l e action w = some (w', fault)) : Keyed w'.server := by
  have hkeep {w'' : Worker} {r : Except Fault CResponse}
      (hrun : action.runOn l e (e.env.heap 0) ⟨t.connUuid, t.pdu⟩ w = some (w'', r)) :
      Keyed w''.server := by
    obtain ⟨available, haction⟩ := run_of_action_runOn hrun
    have hstate := hkeyed.run l (TaskEnv.envOf e available) (e.env.heap 0) t.connUuid t.pdu action
    rw [haction] at hstate
    exact hstate
  rw [CProxyTask.runOn] at h
  split at h
  · cases h
  · rename_i hrun
    cases h
    exact hkeep hrun
  · rename_i hrun
    have hserver := hkeep hrun
    split at h
    · cases h
      exact hserver
    · cases h
      exact hserver

end

section

variable (proto : Library) (secp : Secp256k1) (hd : HDPrimitives) (e : TaskEnv) (t : CProxyTask)
  (w : Worker)

theorem contained_iff_taskSafe (hkeyed : Keyed w.server) :
    Contained (.ofHD proto secp hd) e t w ↔ TaskSafe (.ofHD proto secp hd) e t w := by
  constructor
  · intro h
    refine ⟨?_, ?_⟩
    · intro haction
      exact runOn_serverLoginReq_iff.mp (h.ok haction)
    · intro haction msg hparse
      obtain ⟨w', r, hrun⟩ := h.ok haction
      by_contra hsafe
      obtain ⟨s', fault, hfault⟩ := serverLoginRes_not_returns e.env (e.env.heap 0) hparse hsafe
      simp [Action.runOn, Action.run, hfault] at hrun
  · intro h action haction
    have hok : ∃ w' r, action.runOn (.ofHD proto secp hd) e (e.env.heap 0)
        ⟨t.connUuid, t.pdu⟩ w = some (w', .ok r) := by
      cases action with
      | authCaptchaReq =>
        obtain ⟨s', r, hrun⟩ := authCaptchaReq_returns
        exact ⟨_, r, runOn_of_run (by simp) hrun⟩
      | authLoginReq =>
        obtain ⟨s', r, hrun⟩ := authLoginReq_returns
        exact ⟨_, r, runOn_of_run (by simp) hrun⟩
      | serverLoginReq => exact runOn_serverLoginReq_iff.mpr (h.login haction)
      | serverLoginRes =>
        obtain ⟨s', r, hrun⟩ := serverLoginRes_returns hkeyed (h.result haction)
        exact ⟨_, r, runOn_of_run (by simp) hrun⟩
      | heartBeatNotify => exact ⟨_, {}, runOn_of_run (by simp) rfl⟩
    obtain ⟨w', r, hrun⟩ := hok
    obtain ⟨pdu, htask⟩ := runOn_of_ok hrun
    refine ⟨_, pdu, htask, ?_⟩
    rw [Worker.addResponsePdu, responsePduList_runOn hrun]

end

/-! ## A login, and a result without attached data -/

def sampleTaskEnv : TaskEnv := ⟨sampleEnv, true, workingReplies⟩

/-- No client is connected. -/
def idleWorker : Worker := ⟨.empty, samplePool, []⟩

def hdLibs : Libs := .ofHD Runtime.wireLibrary sampleSecp Net.sampleHD

def loginTask : CProxyTask where
  connUuid := 1
  pdu := msgPdu (fun _ => 0) (hdLibs.proto.serverLoginReq.serialize
    (loginReq (clientSig64 ++ [0]))) cidServerLoginReq 3

theorem contained_loginTask : Contained hdLibs sampleTaskEnv loginTask idleWorker := by
  apply (contained_iff_taskSafe Runtime.wireLibrary sampleSecp Net.sampleHD sampleTaskEnv loginTask
    idleWorker keyed_empty).mpr
  have hparse : hdLibs.proto.serverLoginReq.parse loginTask.pdu.body =
      (loginReq (clientSig64 ++ [0]), true) ∧ Admissible (signAt (clientSig64 ++ [0])
        sampleTaskEnv.login.beyond) ∧
      getHandler loginTask.pdu.getCommandId = some .serverLoginReq := by
    decide +kernel
  refine ⟨?_, ?_⟩
  · intro _ msg hmsg
    have hmsg := hparse.1.symm.trans hmsg
    cases hmsg
    refine ⟨by simp [idleWorker, samplePool, CachePool.getCacheConn], fun _ => ⟨hparse.2.1, ?_⟩⟩
    intro _ _
    decide
  · intro hresult
    rw [hparse.2.2] at hresult
    cases hresult

/-- A result that says nothing but `NO_ERROR`. -/
def bareResultTask : CProxyTask where
  connUuid := 1
  pdu := msgPdu (fun _ => 0) (hdLibs.proto.serverLoginRes.serialize { error := some .noError })
    cidServerLoginRes 3

theorem not_contained_bareResultTask :
    (bareResultTask.runOn hdLibs sampleTaskEnv .serverLoginRes idleWorker).map Prod.snd =
        some (some (.threw (.ofError errorCodeParseFailed "parase packet failed!"))) ∧
      ¬ Contained hdLibs sampleTaskEnv bareResultTask idleWorker := by
  have hrun : getHandler bareResultTask.pdu.getCommandId = some .serverLoginRes ∧
      (bareResultTask.runOn hdLibs sampleTaskEnv .serverLoginRes idleWorker).map Prod.snd =
        some (some (.threw (.ofError errorCodeParseFailed "parase packet failed!"))) := by
    decide +kernel
  refine ⟨hrun.2, ?_⟩
  intro h
  obtain ⟨w', pdu, hok, -⟩ := h _ hrun.1
  rw [hok] at hrun
  cases hrun.2

end Server
end Proof
end PtpCore
