import PtpCore.Server.ServerLogin

/-!
# One login, call by call

The program of `ServerLogin` returns what the function returns that has all replies at hand
(`run_eq`), unless it waits for a connection or libsecp256k1 ends the process. The reads of the
signature and the calls of libsecp256k1 all come before the first command (`calls_spec`).
-/

namespace PtpCore
namespace Proof
namespace Server

open Lib Proto
open PtpCore.Global PtpCore.Server PtpCore.Crypto
open CInterLoginStrategy

/-! ## The pool -/

section

variable {p p' : CachePool} {initOk : Bool} {conn : CacheConnRef}

theorem getCacheConn_null (h : p.getCacheConn initOk = some (none, p')) : p' = p := by
  unfold CachePool.getCacheConn at h
  split at h
  · cases h
  · split at h
    · cases h
    · split at h
      · cases h
      · cases h
        rfl

/-- A connection that was handed out is not free. -/
theorem getCacheConn_some (h : p.getCacheConn initOk = some (some conn, p')) :
    p'.lent = p.lent + 1 ∧ conn ∉ p'.freeList ∧ conn < p'.nextConn := by
  unfold CachePool.getCacheConn at h
  split at h
  · rename_i first rest hfree
    cases h
    have hnodup := p.nodup
    have hlt := p.lt_nextConn conn
    rw [hfree] at hnodup hlt
    refine ⟨?_, (List.nodup_cons.mp hnodup).1, hlt List.mem_cons_self⟩
    have hlen : p.freeList.length = rest.length + 1 := by rw [hfree, List.length_cons]
    change (p.curConnCnt : Int) - rest.length = p.curConnCnt - p.freeList.length + 1
    omega
  · rename_i hfree
    split at h
    · cases h
    · split at h
      · cases h
        refine ⟨?_, List.not_mem_nil, Nat.lt_succ_self _⟩
        change ((p.curConnCnt + 1 : Nat) : Int) - 0 = p.curConnCnt - p.freeList.length + 1
        rw [hfree, List.length_nil]
        omega
      · cases h

theorem lent_relCacheConn (hfree : conn ∉ p.freeList) (hlt : conn < p.nextConn) :
    (p.relCacheConn conn).lent = p.lent - 1 := by
  rw [CachePool.relCacheConn, dif_neg (by simp [hfree, hlt])]
  change (p.curConnCnt : Int) - (p.freeList ++ [conn]).length = p.curConnCnt - p.freeList.length - 1
  rw [List.length_append, List.length_singleton]
  omega

end

/-! ## The program and the function -/

theorem userOfList_eq_none_iff (o : LoginOf) (userId : UInt32) (list : List Bytes) :
    userOfList o userId list = none ↔ list.length < 8 := by
  rcases list with
    _ | ⟨_, _ | ⟨_, _ | ⟨_, _ | ⟨_, _ | ⟨_, _ | ⟨_, _ | ⟨_, _ | ⟨_, _⟩⟩⟩⟩⟩⟩⟩⟩ <;>
    simp [userOfList]

theorem userOfList_spec {o : LoginOf} {userId : UInt32} {list : List Bytes} {user : UserInfo}
    (h : userOfList o userId list = some user) :
    user.uid = some userId ∧ user.address = some o.address := by
  unfold userOfList at h
  split at h
  · cases h
    exact ⟨rfl, rfl⟩
  · cases h

/-- Nothing that a reply needs is missing in it. -/
theorem isInitialized_userOfList {o : LoginOf} {userId : UInt32} {list : List Bytes}
    {user : UserInfo} (h : userOfList o userId list = some user) :
    Message.isInitialized user = true := by
  unfold userOfList at h
  split at h
  · cases h
    rfl
  · cases h

/-- The replies as the function takes them. -/
def cacheOf (r : LoginReplies) (available : Bool) : Cache where
  available := available
  get _ := CacheConn.get r.get
  incr _ := CacheConn.incr r.incr
  incrBy _ _ := CacheConn.incr r.incrBy
  exec args := CacheConn.exec (r.answer (.argv args))

/-- The id and the `MSET`, if there is one. -/
def userIdOf (r : LoginReplies) (o : LoginOf) : UInt32 × Option (List Bytes) :=
  loginUserId (cacheOf r true) o.now o.pubKey33 o.address

/-- The number that `INCR`, or `INCRBY` after it, gave. -/
def newIdOf (r : LoginReplies) : Int :=
  if CacheConn.incr r.incr = 1 then CacheConn.incr r.incrBy else CacheConn.incr r.incr

theorem userIdOf_new {r : LoginReplies} (h : (CacheConn.get r.get).isEmpty = true) (o : LoginOf) :
    userIdOf r o = (string2int (int2string (UInt32.ofInt (newIdOf r))),
      some (loginMset o (int2string (UInt32.ofInt (newIdOf r))))) := if_pos h

theorem userIdOf_stored {r : LoginReplies} (h : ¬ (CacheConn.get r.get).isEmpty = true)
    (o : LoginOf) : userIdOf r o = (string2int (CacheConn.get r.get), none) := if_neg h

section

variable {c : Secp256k1} {env : LoginEnv} {sign : Bytes} {p : CachePool}

theorem handler_readSign : env.handler c sign (.readSign 65) p = some (signAt sign env.beyond, p) :=
  rfl

theorem handler_getCacheConn :
    env.handler c sign .getCacheConn p = p.getCacheConn env.initOk := rfl

theorem handler_redis (cmd : RedisCmd) :
    env.handler c sign (.redis cmd) p = some (env.replies.answer cmd, p) := rfl

theorem answer_get (r : LoginReplies) (key : Bytes) : r.answer (.get key) = r.get := rfl

theorem answer_incr (r : LoginReplies) (key : Bytes) : r.answer (.incr key) = r.incr := rfl

theorem answer_incrBy (r : LoginReplies) (key : Bytes) (value : Int) :
    r.answer (.incrBy key value) = r.incrBy := rfl

theorem head_loginMset (o : LoginOf) (userIdStr : Bytes) :
    (loginMset o userIdStr).head? = some "MSET".toUTF8.toList := rfl

theorem head_loginMget (userId : UInt32) :
    ¬ (loginMget userId).head? = some "MSET".toUTF8.toList := by
  change ¬ some "MGET".toUTF8.toList = some "MSET".toUTF8.toList
  decide +kernel

theorem answer_mget (r : LoginReplies) (userId : UInt32) :
    r.answer (.argv (loginMget userId)) = r.mget := if_neg (head_loginMget userId)

theorem answer_mset (r : LoginReplies) (o : LoginOf) (userIdStr : Bytes) :
    r.answer (.argv (loginMset o userIdStr)) = r.mset := if_pos (head_loginMset o userIdStr)

theorem run_readUser (o : LoginOf) (userId : UInt32) (mset : Option (List Bytes)) :
    (readUser c o userId mset).run (env.handler c sign) p =
      match userOfList o userId (CacheConn.exec env.replies.mget) with
      | none => some (.error .listEnd, p)
      | some user => some (.ok ⟨.noError, user, mset⟩, p.relCacheConn o.conn) := by
  rw [readUser, Prog.run_call (handler_redis _), answer_mget]
  cases userOfList o userId (CacheConn.exec env.replies.mget) with
  | none => rfl
  | some user => rfl

theorem run_findUserId (o : LoginOf) :
    (findUserId c o).run (env.handler c sign) p =
      (readUser c o (userIdOf env.replies o).1 (userIdOf env.replies o).2).run
        (env.handler c sign) p := by
  rw [findUserId, Prog.run_call (handler_redis _), answer_get]
  by_cases hget : (CacheConn.get env.replies.get).isEmpty = true
  · rw [if_pos hget, userIdOf_new hget, newUserId, Prog.run_call (handler_redis _), answer_incr,
      newIdOf]
    by_cases hone : CacheConn.incr env.replies.incr = 1
    · rw [if_pos hone, if_pos hone, raiseUserId, Prog.run_call (handler_redis _), answer_incrBy]
      rfl
    · rw [if_neg hone, if_neg hone]
      rfl
  · rw [if_neg hget, userIdOf_stored hget]

/-- The signature is that of the address in the request. -/
def Accepted (c : Secp256k1) (beyond : Bytes) (msg : ServerLoginReq) (pubKey33 : Bytes) : Prop :=
  recoverPubKeyAndAddressFromSig c (signAt (msg.sign.getD []) beyond)
    (formatSignMsgData (msg.captcha.getD []) .ptp) = some (pubKey33, msg.address.getD [])

section

variable {now : UInt32} {msg : ServerLoginReq}

theorem serverLogin_of_accepted {pubKey33 : Bytes} (h : Accepted c env.beyond msg pubKey33)
    (conn : CacheConnRef) :
    Server.serverLogin c (cacheOf env.replies true) env.beyond now msg =
      match userOfList ⟨conn, now, pubKey33, msg.address.getD []⟩
        (userIdOf env.replies ⟨conn, now, pubKey33, msg.address.getD []⟩).1
        (CacheConn.exec env.replies.mget) with
      | none => .error .listEnd
      | some user => .ok ⟨.noError, user,
          (userIdOf env.replies ⟨conn, now, pubKey33, msg.address.getD []⟩).2⟩ := by
  have hexec (userId : UInt32) : (cacheOf env.replies true).exec (loginMget userId) =
      CacheConn.exec env.replies.mget := congrArg CacheConn.exec (answer_mget _ _)
  unfold Accepted at h
  unfold Server.serverLogin
  dsimp only
  rw [if_pos (show (cacheOf env.replies true).available = true from rfl), h]
  dsimp only
  rw [if_neg (not_not.mpr rfl), hexec]
  generalize CacheConn.exec env.replies.mget = list
  rcases list with
    _ | ⟨_, _ | ⟨_, _ | ⟨_, _ | ⟨_, _ | ⟨_, _ | ⟨_, _ | ⟨_, _ | ⟨_, _⟩⟩⟩⟩⟩⟩⟩⟩ <;> rfl

theorem serverLogin_of_refused (h : ∀ pubKey33, ¬ Accepted c env.beyond msg pubKey33) :
    Server.serverLogin c (cacheOf env.replies true) env.beyond now msg =
      .ok ⟨.eLoginError, {}, none⟩ := by
  unfold Server.serverLogin
  dsimp only
  rw [if_pos (show (cacheOf env.replies true).available = true from rfl)]
  cases hrec : recoverPubKeyAndAddressFromSig c (signAt (msg.sign.getD []) env.beyond)
      (formatSignMsgData (msg.captcha.getD []) .ptp) with
  | none => rfl
  | some r =>
    obtain ⟨pubKey33, address⟩ := r
    dsimp only
    rw [if_pos]
    rintro rfl
    exact h pubKey33 hrec

/-- `parse_compact` takes the recovery id of this signature. -/
def Admissible (sig65 : Bytes) : Prop :=
  0 ≤ recoveryId (sig65.getD 64 0) ∧ recoveryId (sig65.getD 64 0) ≤ 3

instance (sig65 : Bytes) : Decidable (Admissible sig65) := inferInstanceAs (Decidable (_ ∧ _))

/-- With the point at hand: what the function returns, and the connection is given back if that is
    a success. -/
theorem run_checkAddress (conn : CacheConnRef) :
    (checkAddress c conn now msg (c.recover ((signAt (msg.sign.getD []) env.beyond).take 64)
        (recoveryId ((signAt (msg.sign.getD []) env.beyond).getD 64 0))
        (c.keccak256 (formatSignMsgData (msg.captcha.getD []) .ptp)))).run (env.handler c sign) p =
      match Server.serverLogin c (cacheOf env.replies true) env.beyond now msg with
      | .ok r => some (.ok r, if r.error = .noError then p.relCacheConn conn else p)
      | .error fault => some (.error fault, p) := by
  cases hrec : c.recover ((signAt (msg.sign.getD []) env.beyond).take 64)
      (recoveryId ((signAt (msg.sign.getD []) env.beyond).getD 64 0))
      (c.keccak256 (formatSignMsgData (msg.captcha.getD []) .ptp)) with
  | none =>
    rw [serverLogin_of_refused]
    · rfl
    · intro pubKey33 h
      rw [Accepted, recoverPubKeyAndAddressFromSig, hrec] at h
      cases h
  | some rawPubkey =>
    by_cases haddr : addressOfPubKey c rawPubkey = msg.address.getD []
    · have hacc : Accepted c env.beyond msg (c.serializeCompressed rawPubkey) := by
        rw [Accepted, recoverPubKeyAndAddressFromSig, hrec, ← haddr]
        rfl
      rw [serverLogin_of_accepted hacc conn, checkAddress, if_neg (not_not.mpr haddr),
        run_findUserId, run_readUser, haddr]
      dsimp only
      split
      · rfl
      · rfl
    · rw [serverLogin_of_refused]
      · rw [checkAddress, if_pos haddr]
        rfl
      · intro pubKey33 h
        rw [Accepted, recoverPubKeyAndAddressFromSig, hrec] at h
        exact haddr (Prod.mk.inj (Option.some.inj h)).2

/-- **One login.** -/
theorem run_eq : env.run c now msg p =
    match p.getCacheConn env.initOk with
    | none => none
    | some (none, p) => some (.ok ⟨.eSystem, {}, none⟩, p)
    | some (some conn, p) =>
      if Admissible (signAt (msg.sign.getD []) env.beyond) then
        match Server.serverLogin c (cacheOf env.replies true) env.beyond now msg with
        | .ok r => some (.ok r, if r.error = .noError then p.relCacheConn conn else p)
        | .error fault => some (.error fault, p)
      else none := by
  unfold LoginEnv.run CInterLoginStrategy.serverLogin
  rw [Prog.run_call handler_readSign]
  cases hconn : p.getCacheConn env.initOk with
  | none => exact Prog.run_call_none (handler_getCacheConn.trans hconn)
  | some r =>
    obtain ⟨conn, p'⟩ := r
    rw [Prog.run_call (handler_getCacheConn.trans hconn)]
    cases conn with
    | none => rfl
    | some conn =>
      dsimp only
      rw [checkSign, Prog.run_call handler_readSign]
      by_cases hadm : Admissible (signAt (msg.sign.getD []) env.beyond)
      · rw [if_pos hadm, ← run_checkAddress]
        exact Prog.run_call (if_pos hadm)
      · rw [if_neg hadm]
        exact Prog.run_call_none (if_neg hadm)

/-- Neither a read of the signature nor a call of the curve library. -/
def OfStore : LoginCall → Prop
  | .redis _ => True
  | .relCacheConn _ => True
  | _ => False

theorem all_ofStore_readUser (o : LoginOf) (userId : UInt32) (mset : Option (List Bytes)) :
    (readUser c o userId mset).All OfStore := by
  refine ⟨trivial, fun reply => ?_⟩
  dsimp only
  split
  · trivial
  · exact ⟨trivial, fun _ => trivial⟩

theorem all_ofStore_checkAddress (conn : CacheConnRef) (r : Option c.PubKey) :
    (checkAddress c conn now msg r).All OfStore := by
  have hstore (o : LoginOf) (userIdLong : Int) : (storeUser c o userIdLong).All OfStore :=
    ⟨trivial, fun _ => all_ofStore_readUser o _ _⟩
  unfold checkAddress
  split
  · trivial
  · split
    · trivial
    · refine ⟨trivial, fun reply => ?_⟩
      dsimp only
      split
      · refine ⟨trivial, fun reply => ?_⟩
        dsimp only
        split
        · exact ⟨trivial, fun reply => hstore _ _⟩
        · exact hstore _ _
      · exact all_ofStore_readUser _ _ _

theorem calls_checkSign (conn : CacheConnRef) : ∃ tail,
    (checkSign c conn now msg).calls (env.handler c sign) p =
      .readSign 65 :: .recover ((signAt sign env.beyond).take 64)
        (recoveryId ((signAt sign env.beyond).getD 64 0))
        (c.keccak256 (formatSignMsgData (msg.captcha.getD []) .ptp)) :: tail ∧
      ∀ call ∈ tail, OfStore call := by
  rw [checkSign, Prog.calls_call handler_readSign, Prog.calls]
  refine ⟨_, rfl, ?_⟩
  intro call hcall
  split at hcall
  · cases hcall
  · exact (all_ofStore_checkAddress conn _).of_mem_calls _ _ call hcall

theorem readSign_mem_calls_checkSign {conn : CacheConnRef} {n : Nat} :
    .readSign n ∈ (checkSign c conn now msg).calls (env.handler c sign) p ↔ n = 65 := by
  obtain ⟨tail, hcalls, htail⟩ : ∃ tail,
      (checkSign c conn now msg).calls (env.handler c sign) p = _ :: _ :: tail ∧
      ∀ call ∈ tail, OfStore call := calls_checkSign conn
  have hread : .readSign n ∉ tail := fun h => htail _ h
  rw [hcalls]
  simp [hread]

theorem recover_mem_calls_checkSign {conn : CacheConnRef} {sig64 : Bytes} {v : Int}
    {msgHash : Bytes} :
    .recover sig64 v msgHash ∈ (checkSign c conn now msg).calls (env.handler c sign) p ↔
      sig64 = (signAt sign env.beyond).take 64 ∧
        v = recoveryId ((signAt sign env.beyond).getD 64 0) ∧
        msgHash = c.keccak256 (formatSignMsgData (msg.captcha.getD []) .ptp) := by
  obtain ⟨tail, hcalls, htail⟩ : ∃ tail,
      (checkSign c conn now msg).calls (env.handler c sign) p = _ :: _ :: tail ∧
      ∀ call ∈ tail, OfStore call := calls_checkSign conn
  have hrec : .recover sig64 v msgHash ∉ tail := fun h => htail _ h
  rw [hcalls]
  simp [hrec]

/-- The calls behind `GetCacheConn` are those of `checkSign`. -/
theorem mem_calls_iff {call : LoginCall} : call ∈ env.calls c now msg p ↔
    call = .readSign 65 ∨ call = .getCacheConn ∨
      ∃ conn p', p.getCacheConn env.initOk = some (some conn, p') ∧
        call ∈ (checkSign c conn now msg).calls (env.handler c (msg.sign.getD [])) p' := by
  unfold LoginEnv.calls CInterLoginStrategy.serverLogin
  rw [Prog.calls_call handler_readSign, List.mem_cons]
  cases hconn : p.getCacheConn env.initOk with
  | none =>
    rw [Prog.calls_call_none (handler_getCacheConn.trans hconn)]
    simp
  | some r =>
    obtain ⟨conn, p'⟩ := r
    rw [Prog.calls_call (handler_getCacheConn.trans hconn), List.mem_cons]
    cases conn with
    | none => simp
    | some conn => simp

variable (c env now msg p) in
/-- The reads of the signature, and the recovery ids, of a run. -/
theorem calls_spec : .readSign 65 ∈ env.calls c now msg p ∧
    (∀ n, .readSign n ∈ env.calls c now msg p → n = 65) ∧
    ∀ v, (∃ sig64 msgHash, .recover sig64 v msgHash ∈ env.calls c now msg p) ↔
      v = recoveryId ((signAt (msg.sign.getD []) env.beyond).getD 64 0) ∧
        ∃ conn p', p.getCacheConn env.initOk = some (some conn, p') := by
  refine ⟨mem_calls_iff.mpr (Or.inl rfl), ?_, ?_⟩
  · intro n hn
    rcases mem_calls_iff.mp hn with hn | hn | ⟨conn, p', -, hn⟩
    · cases hn
      rfl
    · cases hn
    · exact readSign_mem_calls_checkSign.mp hn
  · intro v
    constructor
    · rintro ⟨sig64, msgHash, hv⟩
      rcases mem_calls_iff.mp hv with hv | hv | ⟨conn, p', hconn, hv⟩
      · cases hv
      · cases hv
      · exact ⟨(recover_mem_calls_checkSign.mp hv).2.1, conn, p', hconn⟩
    · rintro ⟨hv, conn, p', hconn⟩
      exact ⟨_, _, mem_calls_iff.mpr (Or.inr (Or.inr
        ⟨conn, p', hconn, recover_mem_calls_checkSign.mpr ⟨rfl, hv, rfl⟩⟩))⟩

end

end

end Server
end Proof
end PtpCore
