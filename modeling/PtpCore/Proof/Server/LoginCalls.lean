import PtpCore.Lib.Run
import PtpCore.Proof.Server.Login
import PtpCore.Proof.Server.ServerLogin

/-!
# What a login does to others

Three things that can be said of one login by looking at the calls it makes: what it does with a
signature that is none, whether it gives its connection back, and what it makes of commands that
fail. A login is in one of three situations. There is no connection for it; it refuses the
signature, and keeps the connection; or it comes to Redis (`Reaches`), and then it ends without an
error, or reads past the end of a list.
-/

namespace PtpCore
namespace Proof
namespace Server

open Lib Proto
open PtpCore.Global PtpCore.Server PtpCore.Crypto
open CInterLoginStrategy

/-! ## Signatures that are none -/

/-- 65 bytes, and the last of them gives a recovery id. -/
def IsSignature (sign : Bytes) : Prop := sign.length = 65 ∧ Admissible sign

section

variable (c : Secp256k1) (env : LoginEnv) (now : UInt32) (msg : ServerLoginReq) (p : CachePool)

/-- Nothing but the bytes of the string is read, libsecp256k1 sees no number that is no recovery
    id, and a string that is no signature ends in `E_LOGIN_ERROR`. -/
structure SignatureSafe : Prop where
  reads : ∀ n, .readSign n ∈ env.calls c now msg p → n ≤ (msg.sign.getD []).length
  recIds : ∀ sig64 v msgHash, .recover sig64 v msgHash ∈ env.calls c now msg p → 0 ≤ v ∧ v ≤ 3
  refused : ¬ IsSignature (msg.sign.getD []) →
    ∃ r p', env.run c now msg p = some (.ok r, p') ∧ r.error = .eLoginError

/-- A connection is handed out. -/
def Lends (initOk : Bool) (p : CachePool) : Prop :=
  ∃ conn p', p.getCacheConn initOk = some (some conn, p')

variable {c env now msg p}

theorem admissible_signAt {sign : Bytes} (h : 65 ≤ sign.length) (beyond : Bytes) :
    Admissible (signAt sign beyond) ↔ Admissible sign := by
  have hlast : (signAt sign beyond).getD 64 0 = sign.getD 64 0 := by
    rw [signAt, List.take_append_of_le_length h, List.getD_eq_getElem?_getD,
      List.getD_eq_getElem?_getD, List.getElem?_take_of_lt (by decide)]
  rw [Admissible, Admissible, hlast]

/-- With an accepted signature there is no error, if the login ends at all. -/
theorem serverLogin_accepted_ne {pubKey33 : Bytes} (h : Accepted c env.beyond msg pubKey33)
    {r : LoginResult}
    (hr : Server.serverLogin c (cacheOf env.replies true) env.beyond now msg = .ok r) :
    r.error = .noError := by
  rw [serverLogin_of_accepted h 0] at hr
  split at hr
  · cases hr
  · cases hr
    rfl

/-- A run that was handed a connection. -/
theorem run_of_lends {conn : CacheConnRef} {p' : CachePool}
    (h : p.getCacheConn env.initOk = some (some conn, p'))
    (hadm : Admissible (signAt (msg.sign.getD []) env.beyond)) : env.run c now msg p =
      match Server.serverLogin c (cacheOf env.replies true) env.beyond now msg with
      | .ok r => some (.ok r, if r.error = .noError then p'.relCacheConn conn else p')
      | .error fault => some (.error fault, p') := by
  rw [run_eq, h]
  exact if_pos hadm

theorem run_of_not_lends (h : ¬ Lends env.initOk p) : env.run c now msg p = none ∨
    env.run c now msg p = some (.ok ⟨.eSystem, {}, none⟩, p) := by
  rw [run_eq]
  cases hconn : p.getCacheConn env.initOk with
  | none => exact .inl rfl
  | some r =>
    obtain ⟨conn, p'⟩ := r
    cases conn with
    | some conn => exact absurd ⟨conn, p', hconn⟩ h
    | none =>
      rw [getCacheConn_null hconn]
      exact .inr rfl

variable (c env now msg p)

theorem signatureSafe_iff : SignatureSafe c env now msg p ↔
    (Lends env.initOk p ∧ 65 ≤ (msg.sign.getD []).length ∧ Admissible (msg.sign.getD []) ∧
      ((msg.sign.getD []).length = 65 ∨ ∀ pubKey33, ¬ Accepted c env.beyond msg pubKey33)) ∨
    (¬ Lends env.initOk p ∧ IsSignature (msg.sign.getD [])) := by
  obtain ⟨hread, hreads, hrecs⟩ := calls_spec c env p now msg
  constructor
  · intro h
    have hlen : 65 ≤ (msg.sign.getD []).length := h.reads 65 hread
    by_cases hl : Lends env.initOk p
    · obtain ⟨sig64, msgHash, hmem⟩ := (hrecs _).mpr ⟨rfl, hl⟩
      have hadm : Admissible (signAt (msg.sign.getD []) env.beyond) := h.recIds _ _ _ hmem
      refine .inl ⟨hl, hlen, (admissible_signAt hlen _).mp hadm, ?_⟩
      -- a longer string whose first 65 bytes are accepted is a login
      by_contra hboth
      obtain ⟨hne, hacc⟩ := not_or.mp hboth
      obtain ⟨pubKey33, hacc⟩ := not_forall_not.mp hacc
      obtain ⟨r, p', hrun, herr⟩ := h.refused fun hs => hne hs.1
      obtain ⟨conn, p'', hconn⟩ := hl
      rw [run_of_lends hconn hadm] at hrun
      split at hrun
      · rename_i r' hr'
        cases hrun
        rw [serverLogin_accepted_ne hacc hr'] at herr
        cases herr
      · cases hrun
    · refine .inr ⟨hl, ?_⟩
      by_contra hs
      obtain ⟨r, p', hrun, herr⟩ := h.refused hs
      rcases (run_of_not_lends hl : env.run c now msg p = none ∨ _) with hnone | hsys
      · rw [hnone] at hrun
        cases hrun
      · rw [hsys] at hrun
        cases hrun
        cases herr
  · rintro (⟨hl, hlen, hadm, hrest⟩ | ⟨hl, hlen, hadm⟩)
    · have hadm' := (admissible_signAt hlen env.beyond).mpr hadm
      refine ⟨fun n hn => hreads n hn ▸ hlen, ?_, ?_⟩
      · intro sig64 v msgHash hmem
        obtain ⟨rfl, -⟩ := (hrecs v).mp ⟨sig64, msgHash, hmem⟩
        exact hadm'
      · intro hs
        have hacc := hrest.resolve_left fun h65 => hs ⟨h65, hadm⟩
        obtain ⟨conn, p', hconn⟩ := hl
        rw [run_of_lends hconn hadm', serverLogin_of_refused hacc]
        exact ⟨_, _, rfl, rfl⟩
    · refine ⟨fun n hn => hreads n hn ▸ Nat.le_of_eq hlen.symm, ?_,
        fun hs => absurd ⟨hlen, hadm⟩ hs⟩
      intro sig64 v msgHash hmem
      exact absurd ((hrecs v).mp ⟨sig64, msgHash, hmem⟩).2 hl

end

/-- A login of the sample client, with these bytes for a signature. -/
def loginReq (sign : Bytes) : ServerLoginReq where
  address := some clientAddress
  captcha := some sampleCaptcha
  sign := some sign

/-- Two connections have been made, and are free. -/
def samplePool : CachePool where
  freeList := [0, 1]
  curConnCnt := 2
  maxConnCnt := 3
  nextConn := 2
  nodup := by decide
  lt_nextConn := by decide

/-- A store in which every command works: nobody is known, and the next id is 100007. -/
def workingReplies : LoginReplies where
  get := .nil
  incr := .integer 100007
  incrBy := .integer 200006
  mset := .status
  mget := .array (List.replicate 8 none)

def workingEnv : LoginEnv := ⟨List.replicate 65 0, true, workingReplies⟩

/-- The last byte is 4, and libsecp256k1 ends the process. -/
theorem not_signatureSafe_four :
    workingEnv.run sampleSecp 0 (loginReq (clientSig64 ++ [4])) samplePool = none ∧
      ¬ SignatureSafe sampleSecp workingEnv 0 (loginReq (clientSig64 ++ [4])) samplePool := by
  have hadm : ¬ Admissible (signAt (clientSig64 ++ [4]) workingEnv.beyond) ∧
      ¬ IsSignature (clientSig64 ++ [4]) := by
    unfold IsSignature
    decide +kernel
  have hrun : workingEnv.run sampleSecp 0 (loginReq (clientSig64 ++ [4])) samplePool = none := by
    rw [run_eq]
    exact if_neg hadm.1
  refine ⟨hrun, fun h => ?_⟩
  obtain ⟨r, p', hr, -⟩ := h.refused hadm.2
  rw [hrun] at hr
  cases hr

/-! ## Connections that are given back -/

/-- One login after the other; `none` once one of them has not returned. -/
def loginStep (c : Secp256k1) (o : Option CachePool) (e : LoginEnv × UInt32 × ServerLoginReq) :
    Option CachePool :=
  o.bind fun p => (e.1.run c e.2.1 e.2.2 p).map Prod.snd

/-- There is no connection to give back, or the login gets to where it gives it back: its
    signature is accepted, and the `MGET` answered with all of the user. -/
def Releases (c : Secp256k1) (p : CachePool) (e : LoginEnv × UInt32 × ServerLoginReq) : Prop :=
  (∃ p', p.getCacheConn e.1.initOk = some (none, p')) ∨
    Lends e.1.initOk p ∧ Admissible (signAt (e.2.2.sign.getD []) e.1.beyond) ∧
      (∃ pubKey33, Accepted c e.1.beyond e.2.2 pubKey33) ∧
      8 ≤ (CacheConn.exec e.1.replies.mget).length

section

variable {c : Secp256k1} {p q : CachePool} {e : LoginEnv × UInt32 × ServerLoginReq}

theorem Releases.returns (h : Releases c p e) : ∃ q, loginStep c (some p) e = some q := by
  obtain ⟨env, now, msg⟩ := e
  change ∃ q, (env.run c now msg p).map Prod.snd = some q
  rcases h with ⟨p', hnull⟩ | ⟨⟨conn, p', hconn⟩, hadm, ⟨pubKey33, hacc⟩, hlist⟩
  · rw [run_eq, hnull]
    exact ⟨_, rfl⟩
  · rw [run_of_lends hconn hadm, serverLogin_of_accepted hacc conn]
    split
    · exact ⟨_, rfl⟩
    · exact ⟨_, rfl⟩

/-- **One login.** It never gives back more than it took, and exactly that if it releases. -/
theorem lent_loginStep (h : loginStep c (some p) e = some q) :
    p.lent ≤ q.lent ∧ (q.lent = p.lent ↔ Releases c p e) := by
  obtain ⟨env, now, msg⟩ := e
  change (env.run c now msg p).map Prod.snd = some q at h
  obtain ⟨⟨r, q⟩, hrun, rfl⟩ := Option.map_eq_some_iff.mp h
  dsimp only
  rw [run_eq] at hrun
  split at hrun
  · cases hrun
  · rename_i p' hnull
    cases hrun
    obtain rfl := getCacheConn_null hnull
    exact ⟨Int.le_refl _, fun _ => .inl ⟨_, hnull⟩, fun _ => rfl⟩
  · rename_i conn p' hconn
    obtain ⟨hlent, hfree, hlt⟩ := getCacheConn_some hconn
    have hback := lent_relCacheConn hfree hlt
    -- a connection was handed out, so the pool is back where it was only if it was given back
    have hnot (h : ¬ ((∃ pubKey33, Accepted c env.beyond msg pubKey33) ∧
        8 ≤ (CacheConn.exec env.replies.mget).length)) :
        p.lent ≤ p'.lent ∧ (p'.lent = p.lent ↔ Releases c p (env, now, msg)) := by
      refine ⟨by omega, fun heq => absurd heq (by omega), ?_⟩
      rintro (⟨p'', hnull⟩ | ⟨-, -, hacc, hlist⟩)
      · rw [hconn] at hnull
        cases hnull
      · exact absurd ⟨hacc, hlist⟩ h
    split at hrun
    · rename_i hadm
      by_cases hacc : ∃ pubKey33, Accepted c env.beyond msg pubKey33
      · obtain ⟨pubKey33, hacc⟩ := hacc
        rw [serverLogin_of_accepted hacc conn] at hrun
        cases huser : userOfList ⟨conn, now, pubKey33, msg.address.getD []⟩
            (userIdOf env.replies ⟨conn, now, pubKey33, msg.address.getD []⟩).1
            (CacheConn.exec env.replies.mget) with
        | none =>
          rw [huser] at hrun
          cases hrun
          exact hnot fun h => absurd h.2 (Nat.not_le.mpr ((userOfList_eq_none_iff _ _ _).mp huser))
        | some user =>
          rw [huser] at hrun
          cases hrun
          rw [if_pos rfl, hback]
          refine ⟨by omega, fun _ => .inr ⟨⟨conn, p', hconn⟩, hadm, ⟨pubKey33, hacc⟩, ?_⟩,
            fun _ => by omega⟩
          by_contra hlist
          rw [(userOfList_eq_none_iff _ _ _).mpr (Nat.not_le.mp hlist)] at huser
          cases huser
      · rw [serverLogin_of_refused fun pubKey33 h => hacc ⟨pubKey33, h⟩] at hrun
        cases hrun
        exact hnot fun h => hacc h.1
    · cases hrun

theorem foldl_loginStep_none (es : List (LoginEnv × UInt32 × ServerLoginReq)) :
    es.foldl (loginStep c) none = none := by
  induction es with
  | nil => rfl
  | cons e es ih => exact ih

theorem lent_le_of_logins {es : List (LoginEnv × UInt32 × ServerLoginReq)}
    (h : es.foldl (loginStep c) (some p) = some q) : p.lent ≤ q.lent := by
  induction es generalizing p with
  | nil =>
    cases h
    exact Int.le_refl _
  | cons e es ih =>
    rw [List.foldl_cons] at h
    cases hstep : loginStep c (some p) e with
    | none =>
      rw [hstep, foldl_loginStep_none] at h
      cases h
    | some p' =>
      rw [hstep] at h
      exact Int.le_trans (lent_loginStep hstep).1 (ih h)

variable (c p)

/-- Any logins one after the other: all return, and as many connections are lent as before,
    exactly if every one of them gives its connection back. -/
theorem lent_logins_iff (es : List (LoginEnv × UInt32 × ServerLoginReq)) :
    (∃ q, es.foldl (loginStep c) (some p) = some q ∧ q.lent = p.lent) ↔
      EachStep (loginStep c) (fun o e => ∃ p' ∈ o, Releases c p' e) (some p) es := by
  induction es generalizing p with
  | nil => exact ⟨fun _ => trivial, fun _ => ⟨p, rfl, rfl⟩⟩
  | cons e es ih =>
    rw [List.foldl_cons, eachStep_cons]
    cases hstep : loginStep c (some p) e with
    | none =>
      rw [foldl_loginStep_none]
      constructor
      · rintro ⟨q, hq, -⟩
        cases hq
      · rintro ⟨⟨_, ⟨rfl⟩, hrel⟩, -⟩
        obtain ⟨q, hq⟩ := hrel.returns
        rw [hstep] at hq
        cases hq
    | some p' =>
      obtain ⟨hle, hiff⟩ := lent_loginStep hstep
      rw [← ih p']
      constructor
      · rintro ⟨q, hq, hlent⟩
        have hle' := lent_le_of_logins hq
        have heq : p'.lent = p.lent := by omega
        exact ⟨⟨p, rfl, hiff.mp heq⟩, q, hq, by omega⟩
      · rintro ⟨⟨_, ⟨rfl⟩, hrel⟩, q, hq, hlent⟩
        exact ⟨q, hq, hlent.trans (hiff.mpr hrel)⟩

end

/-- A login whose signature is 65 zeros. -/
def refusedLogin : LoginEnv × UInt32 × ServerLoginReq :=
  (workingEnv, 0, loginReq (List.replicate 65 0))

/-- It keeps its connection, and the fourth such login waits for ever. -/
theorem refusedLogin_exhausts :
    ([refusedLogin].foldl (loginStep sampleSecp) (some samplePool)).map CachePool.lent =
        some (samplePool.lent + 1) ∧
      ([refusedLogin, refusedLogin, refusedLogin, refusedLogin].foldl (loginStep sampleSecp)
        (some samplePool)).isNone = true := by
  decide +kernel

/-! ## Commands that fail -/

/-- The reply is not what the command answers when it works. -/
def Fails : RedisCmd → RedisReply → Prop
  | .get _, reply => ¬ (reply = .nil ∨ ∃ s, reply = .string s)
  | .incr _, reply => ¬ ∃ n, reply = .integer n
  | .incrBy _ _, reply => ¬ ∃ n, reply = .integer n
  | .argv args, reply =>
    if args.head? = some "MSET".toUTF8.toList then reply ≠ .status
    else ¬ ∃ elements, reply = .array elements ∧ 8 ≤ elements.length

/-- The login looks at the reply. That of `MSET` it does not look at; `msetCounts` asks for it all
    the same. -/
def UsesReply (msetCounts : Bool) : RedisCmd → Prop
  | .argv args => args.head? = some "MSET".toUTF8.toList → msetCounts = true
  | _ => True

/-- The commands of a login whose signature is accepted. -/
def loginCmds (r : LoginReplies) (o : LoginOf) : List RedisCmd :=
  .get (cacheUserAdrIdPrefix ++ o.address) ::
    ((if (CacheConn.get r.get).isEmpty then
        .incr cacheIncrUserId ::
          ((if CacheConn.incr r.incr = 1 then [.incrBy cacheIncrUserId 99999] else []) ++
            [.argv (loginMset o (int2string (UInt32.ofInt (newIdOf r))))])
      else []) ++ [.argv (loginMget (userIdOf r o).1)])

section

variable {c : Secp256k1} {env : LoginEnv} {sign : Bytes} {p : CachePool}

theorem redis_mem_calls_readUser (o : LoginOf) (userId : UInt32) (mset : Option (List Bytes))
    (cmd : RedisCmd) : .redis cmd ∈ (readUser c o userId mset).calls (env.handler c sign) p ↔
      cmd = .argv (loginMget userId) := by
  rw [readUser, Prog.calls_call (handler_redis _)]
  split
  · simp
  · rw [Prog.calls]
    split <;> simp

theorem redis_mem_calls_findUserId (o : LoginOf) (cmd : RedisCmd) :
    .redis cmd ∈ (findUserId c o).calls (env.handler c sign) p ↔ cmd ∈ loginCmds env.replies o := by
  have hstore (userIdLong : Int) :
      .redis cmd ∈ (storeUser c o userIdLong).calls (env.handler c sign) p ↔
        cmd = .argv (loginMset o (int2string (UInt32.ofInt userIdLong))) ∨
          cmd = .argv (loginMget (string2int (int2string (UInt32.ofInt userIdLong)))) := by
    rw [storeUser, Prog.calls_call (handler_redis _), List.mem_cons, redis_mem_calls_readUser]
    simp
  rw [findUserId, Prog.calls_call (handler_redis _), answer_get, loginCmds]
  by_cases hget : (CacheConn.get env.replies.get).isEmpty = true
  · rw [if_pos hget, if_pos hget, userIdOf_new hget, newUserId,
      Prog.calls_call (handler_redis _), answer_incr, newIdOf]
    by_cases hone : CacheConn.incr env.replies.incr = 1
    · rw [if_pos hone, if_pos hone, if_pos hone, raiseUserId, Prog.calls_call (handler_redis _),
        answer_incrBy]
      simp [hstore]
    · rw [if_neg hone, if_neg hone, if_neg hone]
      simp [hstore]
  · rw [if_neg hget, if_neg hget, userIdOf_stored hget]
    simp [redis_mem_calls_readUser]

/-- A login comes to Redis with a connection and an accepted signature. -/
def Reaches (c : Secp256k1) (env : LoginEnv) (now : UInt32) (msg : ServerLoginReq) (p : CachePool)
    (o : LoginOf) : Prop :=
  (∃ p', p.getCacheConn env.initOk = some (some o.conn, p')) ∧ o.now = now ∧
    Admissible (signAt (msg.sign.getD []) env.beyond) ∧ Accepted c env.beyond msg o.pubKey33 ∧
    o.address = msg.address.getD []

variable {now : UInt32} {msg : ServerLoginReq}

theorem redis_mem_calls_checkAddress (conn : CacheConnRef) (cmd : RedisCmd) :
    .redis cmd ∈ (checkAddress c conn now msg
        (c.recover ((signAt (msg.sign.getD []) env.beyond).take 64)
        (recoveryId ((signAt (msg.sign.getD []) env.beyond).getD 64 0))
        (c.keccak256 (formatSignMsgData (msg.captcha.getD []) .ptp)))).calls (env.handler c sign) p ↔
      ∃ pubKey33, Accepted c env.beyond msg pubKey33 ∧
        cmd ∈ loginCmds env.replies ⟨conn, now, pubKey33, msg.address.getD []⟩ := by
  unfold Accepted recoverPubKeyAndAddressFromSig
  cases c.recover ((signAt (msg.sign.getD []) env.beyond).take 64)
      (recoveryId ((signAt (msg.sign.getD []) env.beyond).getD 64 0))
      (c.keccak256 (formatSignMsgData (msg.captcha.getD []) .ptp)) with
  | none => simp [checkAddress]
  | some rawPubkey =>
    change .redis cmd ∈ (if addressOfPubKey c rawPubkey ≠ msg.address.getD [] then _ else _ :
      LoginProg c).calls _ _ ↔ ∃ pubKey33, some (_, addressOfPubKey c rawPubkey) = _ ∧ _
    by_cases haddr : addressOfPubKey c rawPubkey = msg.address.getD []
    · rw [if_neg (not_not.mpr haddr), redis_mem_calls_findUserId, haddr]
      simp
    · rw [if_pos haddr]
      simp [haddr]

theorem redis_mem_calls (cmd : RedisCmd) : .redis cmd ∈ env.calls c now msg p ↔
    ∃ o, Reaches c env now msg p o ∧ cmd ∈ loginCmds env.replies o := by
  rw [mem_calls_iff]
  simp only [reduceCtorEq, false_or, Reaches]
  constructor
  · rintro ⟨conn, p', hconn, hmem⟩
    rw [checkSign, Prog.calls_call handler_readSign] at hmem
    by_cases hadm : Admissible (signAt (msg.sign.getD []) env.beyond)
    · rw [Prog.calls_call (if_pos hadm)] at hmem
      simp only [List.mem_cons, redis_mem_calls_checkAddress, reduceCtorEq, false_or] at hmem
      obtain ⟨pubKey33, hacc, hcmd⟩ := hmem
      exact ⟨_, ⟨⟨p', hconn⟩, rfl, hadm, hacc, rfl⟩, hcmd⟩
    · rw [Prog.calls_call_none (if_neg hadm)] at hmem
      simp at hmem
  · rintro ⟨⟨conn, now', pubKey33, address⟩, ⟨⟨p', hconn⟩, rfl, hadm, hacc, rfl⟩, hcmd⟩
    refine ⟨conn, p', hconn, ?_⟩
    rw [checkSign, Prog.calls_call handler_readSign, Prog.calls_call (if_pos hadm)]
    simp only [List.mem_cons, redis_mem_calls_checkAddress, reduceCtorEq, false_or]
    exact ⟨pubKey33, hacc, hcmd⟩

theorem run_of_reaches {o : LoginOf} (h : Reaches c env now msg p o) : ∃ p',
    env.run c now msg p =
      match userOfList o (userIdOf env.replies o).1 (CacheConn.exec env.replies.mget) with
      | none => some (.error .listEnd, p')
      | some user => some (.ok ⟨.noError, user, (userIdOf env.replies o).2⟩,
          p'.relCacheConn o.conn) := by
  obtain ⟨conn, now', pubKey33, address⟩ := o
  obtain ⟨⟨p', hconn⟩, rfl, hadm, hacc, rfl⟩ := h
  refine ⟨p', ?_⟩
  rw [run_of_lends hconn hadm, serverLogin_of_accepted hacc conn]
  cases userOfList ⟨conn, now', pubKey33, msg.address.getD []⟩
      (userIdOf env.replies ⟨conn, now', pubKey33, msg.address.getD []⟩).1
      (CacheConn.exec env.replies.mget) with
  | none => rfl
  | some user => rfl

/-- Without Redis there is no list to read past the end of. -/
theorem run_ne_listEnd (h : ∀ o, ¬ Reaches c env now msg p o) (p' : CachePool) :
    env.run c now msg p ≠ some (.error .listEnd, p') := by
  intro hrun
  by_cases hl : Lends env.initOk p
  · obtain ⟨conn, p'', hconn⟩ := hl
    by_cases hadm : Admissible (signAt (msg.sign.getD []) env.beyond)
    · have hacc (pubKey33 : Bytes) : ¬ Accepted c env.beyond msg pubKey33 := fun hacc =>
        h ⟨conn, now, pubKey33, _⟩ ⟨⟨p'', hconn⟩, rfl, hadm, hacc, rfl⟩
      rw [run_of_lends hconn hadm, serverLogin_of_refused hacc] at hrun
      cases hrun
    · rw [run_eq, hconn] at hrun
      dsimp only at hrun
      rw [if_neg hadm] at hrun
      cases hrun
  · rcases (run_of_not_lends hl : env.run c now msg p = none ∨ _) with hnone | hsys
    · rw [hnone] at hrun
      cases hrun
    · rw [hsys] at hrun
      cases hrun

/-- The replies that a login uses are those of commands that worked. -/
structure StoreWorks (msetCounts : Bool) (r : LoginReplies) : Prop where
  get : r.get = .nil ∨ ∃ s, r.get = .string s
  incr : (CacheConn.get r.get).isEmpty = true → ∃ n, r.incr = .integer n
  incrBy : (CacheConn.get r.get).isEmpty = true → r.incr = .integer 1 → ∃ n, r.incrBy = .integer n
  mset : (CacheConn.get r.get).isEmpty = true → msetCounts = true → r.mset = .status
  mget : ∃ elements, r.mget = .array elements ∧ 8 ≤ elements.length

theorem incr_eq_one_iff {reply : RedisReply} : CacheConn.incr reply = 1 ↔ reply = .integer 1 := by
  cases reply <;> simp [CacheConn.incr]

theorem mem_loginCmds {r : LoginReplies} {o : LoginOf} {cmd : RedisCmd} :
    cmd ∈ loginCmds r o ↔ cmd = .get (cacheUserAdrIdPrefix ++ o.address) ∨
      (CacheConn.get r.get).isEmpty = true ∧ cmd = .incr cacheIncrUserId ∨
      (CacheConn.get r.get).isEmpty = true ∧ r.incr = .integer 1 ∧
        cmd = .incrBy cacheIncrUserId 99999 ∨
      (CacheConn.get r.get).isEmpty = true ∧
        cmd = .argv (loginMset o (int2string (UInt32.ofInt (newIdOf r)))) ∨
      cmd = .argv (loginMget (userIdOf r o).1) := by
  rw [loginCmds, ← incr_eq_one_iff]
  by_cases hget : (CacheConn.get r.get).isEmpty = true
  · rw [if_pos hget]
    by_cases hone : CacheConn.incr r.incr = 1
    · simp [hget, hone]
    · simp [hget, hone]
  · rw [if_neg hget]
    simp [hget]

theorem storeWorks_iff {msetCounts : Bool} {r : LoginReplies} {o : LoginOf} :
    StoreWorks msetCounts r ↔
      ∀ cmd ∈ loginCmds r o, UsesReply msetCounts cmd → ¬ Fails cmd (r.answer cmd) := by
  have hmset (userIdStr : Bytes) : Fails (.argv (loginMset o userIdStr))
      (r.answer (.argv (loginMset o userIdStr))) ↔ r.mset ≠ .status := by
    rw [answer_mset, Fails, if_pos (head_loginMset o userIdStr)]
  have hmget (userId : UInt32) : UsesReply msetCounts (.argv (loginMget userId)) ∧
      (Fails (.argv (loginMget userId)) (r.answer (.argv (loginMget userId))) ↔
        ¬ ∃ elements, r.mget = .array elements ∧ 8 ≤ elements.length) := by
    rw [answer_mget, Fails, if_neg (head_loginMget userId)]
    exact ⟨fun h => absurd h (head_loginMget userId), Iff.rfl⟩
  simp only [mem_loginCmds]
  constructor
  · rintro h cmd (rfl | ⟨hnew, rfl⟩ | ⟨hnew, hone, rfl⟩ | ⟨hnew, rfl⟩ | rfl) huses
    · exact not_not.mpr h.get
    · exact not_not.mpr (h.incr hnew)
    · exact not_not.mpr (h.incrBy hnew hone)
    · rw [hmset]
      exact not_not.mpr (h.mset hnew (huses rfl))
    · rw [(hmget _).2]
      exact not_not.mpr h.mget
  · intro h
    refine ⟨?_, ?_, ?_, ?_, ?_⟩
    · exact not_not.mp (h _ (.inl rfl) trivial)
    · intro hnew
      exact not_not.mp (h _ (.inr (.inl ⟨hnew, rfl⟩)) trivial)
    · intro hnew hone
      exact not_not.mp (h _ (.inr (.inr (.inl ⟨hnew, hone, rfl⟩))) trivial)
    · intro hnew hcounts
      have hok := h _ (.inr (.inr (.inr (.inl ⟨hnew, rfl⟩)))) fun _ => hcounts
      rw [hmset] at hok
      exact not_not.mp hok
    · have hok := h _ (.inr (.inr (.inr (.inr rfl)))) (hmget _).1
      rw [(hmget _).2] at hok
      exact not_not.mp hok

/-- What is asked of a login for the commands it issues: a failed one whose reply it uses ends it
    with an error, no id of a failed `INCR` is stored or returned, and no list is read past its
    end. -/
structure NoSuccessOnFailure (msetCounts : Bool) (c : Secp256k1) (env : LoginEnv) (now : UInt32)
    (msg : ServerLoginReq) (p : CachePool) : Prop where
  fails : ∀ cmd, .redis cmd ∈ env.calls c now msg p → UsesReply msetCounts cmd →
    Fails cmd (env.replies.answer cmd) →
    ∃ r p', env.run c now msg p = some (.ok r, p') ∧ r.error ≠ .noError
  incr : ∀ cmd, .redis cmd ∈ env.calls c now msg p →
    (cmd = .incr cacheIncrUserId ∨ cmd = .incrBy cacheIncrUserId 99999) →
    Fails cmd (env.replies.answer cmd) →
    (∀ args, .redis (.argv args) ∈ env.calls c now msg p →
      args.head? ≠ some "MSET".toUTF8.toList) ∧
    ∀ r p', env.run c now msg p = some (.ok r, p') → r.user.uid = none
  listEnd : ∀ p', env.run c now msg p ≠ some (.error .listEnd, p')

variable (c env now msg p)

/-- A login that comes to Redis meets this exactly if every command works. -/
theorem noSuccessOnFailure_iff (msetCounts : Bool) :
    NoSuccessOnFailure msetCounts c env now msg p ↔
      (∀ o, ¬ Reaches c env now msg p o) ∨ StoreWorks msetCounts env.replies := by
  constructor
  · intro h
    by_cases hreach : ∃ o, Reaches c env now msg p o
    · obtain ⟨o, ho⟩ := hreach
      refine .inr (storeWorks_iff (o := o) |>.mpr ?_)
      intro cmd hcmd huses hfails
      obtain ⟨r, p', hrun, herr⟩ :=
        h.fails cmd ((redis_mem_calls cmd).mpr ⟨o, ho, hcmd⟩) huses hfails
      -- past the signature a login ends without an error, or not at all
      obtain ⟨p'', hrun'⟩ := run_of_reaches ho
      rw [hrun] at hrun'
      split at hrun'
      · cases hrun'
      · cases hrun'
        exact herr rfl
    · exact .inl fun o ho => hreach ⟨o, ho⟩
  · rintro (hnone | hworks)
    · have hcalls (cmd : RedisCmd) : .redis cmd ∉ env.calls c now msg p := by
        intro hmem
        obtain ⟨o, ho, -⟩ := (redis_mem_calls cmd).mp hmem
        exact hnone o ho
      exact ⟨fun cmd hmem => absurd hmem (hcalls cmd), fun cmd hmem => absurd hmem (hcalls cmd),
        run_ne_listEnd hnone⟩
    · have hcalls (cmd : RedisCmd) (hmem : .redis cmd ∈ env.calls c now msg p)
          (huses : UsesReply msetCounts cmd) : ¬ Fails cmd (env.replies.answer cmd) := by
        obtain ⟨o, -, hcmd⟩ := (redis_mem_calls cmd).mp hmem
        exact storeWorks_iff.mp hworks cmd hcmd huses
      refine ⟨fun cmd hmem huses hfails => absurd hfails (hcalls cmd hmem huses), ?_, ?_⟩
      · rintro cmd hmem (rfl | rfl) hfails
        · exact absurd hfails (hcalls _ hmem trivial)
        · exact absurd hfails (hcalls _ hmem trivial)
      · intro p' hrun
        by_cases hreach : ∃ o, Reaches c env now msg p o
        · obtain ⟨o, ho⟩ := hreach
          obtain ⟨p'', hrun'⟩ := run_of_reaches ho
          obtain ⟨elements, hmget, hlen⟩ := hworks.mget
          rw [hrun] at hrun'
          split at hrun'
          · rename_i huser
            rw [userOfList_eq_none_iff, hmget, CacheConn.exec, List.length_map] at huser
            exact absurd hlen (Nat.not_le.mpr huser)
          · cases hrun'
        · exact run_ne_listEnd (fun o ho => hreach ⟨o, ho⟩) p' hrun

end

/-- Redis does not answer the `GET`, and the user is given a new id. -/
def silentGetEnv : LoginEnv := ⟨List.replicate 65 0, true, { workingReplies with get := .null }⟩

theorem not_noSuccessOnFailure_silentGet :
    (silentGetEnv.run sampleSecp 0 (loginReq (clientSig64 ++ [0])) samplePool).map
        (fun r => r.1.toOption.map fun r => (r.error, r.user.uid)) =
        some (some (.noError, some 100007)) ∧
      ∀ msetCounts, ¬ NoSuccessOnFailure msetCounts sampleSecp silentGetEnv 0
        (loginReq (clientSig64 ++ [0])) samplePool := by
  have hrun : (silentGetEnv.run sampleSecp 0 (loginReq (clientSig64 ++ [0])) samplePool).map
        (fun r => r.1.toOption.map fun r => (r.error, r.user.uid)) =
        some (some (.noError, some 100007)) ∧
      .redis (.get (cacheUserAdrIdPrefix ++ clientAddress)) ∈
        silentGetEnv.calls sampleSecp 0 (loginReq (clientSig64 ++ [0])) samplePool := by
    simp only [loginReq, sampleSecp, sample_bytes, toBE_eq_consBE]
    decide +kernel
  refine ⟨hrun.1, fun msetCounts h => ?_⟩
  have hfails : Fails (.get (cacheUserAdrIdPrefix ++ clientAddress)) .null := by
    rintro (h | ⟨s, h⟩) <;> cases h
  obtain ⟨r, p', hr, herr⟩ := h.fails _ hrun.2 trivial hfails
  have hok := hrun.1
  rw [hr] at hok
  exact herr (Prod.mk.inj (Option.some.inj (Option.some.inj hok))).1

end Server
end Proof
end PtpCore
