import PtpCore.Lib.Registry
import PtpCore.Lib.Run
import PtpCore.Proof.Global.Helpers
import PtpCore.Proof.Server.LoginCalls
import PtpCore.Server.Redis

/-!
# User ids

Any number of logins at once, each command of theirs in one step, on a Redis that works. What a
login does to the database is what a thread of a `Registry` does: it looks the address up, counts,
and stores the number. `Sim` says which thread is where, and that the database holds the registry.

The registry gives an address one number and no number twice, as long as its guards are met. Here
they are conditions on the state before a step (`Guarded`), and nothing in the code sees to them.
-/

namespace PtpCore
namespace Proof
namespace Server

open Lib Proto
open PtpCore.Global PtpCore.Server PtpCore.Crypto
open PtpCore.Proof.Global
open CInterLoginStrategy

/-! ## Keys -/

/-- Keys under prefixes that differ in their first nine characters. -/
theorem key_ne {p q : Bytes} (hp : 9 ≤ p.length) (hq : 9 ≤ q.length) (h : p.take 9 ≠ q.take 9)
    (x y : Bytes) : p ++ x ≠ q ++ y := by
  intro heq
  have htake := congrArg (List.take 9) heq
  rw [List.take_append_of_le_length hp, List.take_append_of_le_length hq] at htake
  exact h htake

/-- The key of the counter, and the prefixes of the keys of a user. -/
def userKeys : List Bytes :=
  [cacheIncrUserId, cacheUserAdrIdPrefix, cacheUserIdPubKeyPrefix, cacheUserIdAdrPrefix,
    cacheUserIdLoginTimePrefix]

/-- No key under one of them is a key under another. -/
theorem pairwise_userKeys : userKeys.Pairwise fun p q => ∀ x y, p ++ x ≠ q ++ y := by
  have hnine : userKeys.Pairwise fun p q =>
      9 ≤ p.length ∧ 9 ≤ q.length ∧ p.take 9 ≠ q.take 9 := by decide +kernel
  exact hnine.imp fun h => key_ne h.1 h.2.1 h.2.2

theorem userKeys_ne {i j : Nat} (hij : i < j) (hj : j < 5) (x y : Bytes) :
    userKeys.get ⟨i, hij.trans hj⟩ ++ x ≠ userKeys.get ⟨j, hj⟩ ++ y :=
  List.pairwise_iff_getElem.mp pairwise_userKeys i j (hij.trans hj) hj hij x y

theorem adrId_ne_pubKey (x y : Bytes) :
    cacheUserAdrIdPrefix ++ x ≠ cacheUserIdPubKeyPrefix ++ y :=
  userKeys_ne (i := 1) (j := 2) (by decide) (by decide) x y

theorem adrId_ne_idAdr (x y : Bytes) : cacheUserAdrIdPrefix ++ x ≠ cacheUserIdAdrPrefix ++ y :=
  userKeys_ne (i := 1) (j := 3) (by decide) (by decide) x y

theorem adrId_ne_loginTime (x y : Bytes) :
    cacheUserAdrIdPrefix ++ x ≠ cacheUserIdLoginTimePrefix ++ y :=
  userKeys_ne (i := 1) (j := 4) (by decide) (by decide) x y

theorem idAdr_ne_pubKey (x y : Bytes) :
    cacheUserIdAdrPrefix ++ x ≠ cacheUserIdPubKeyPrefix ++ y :=
  (userKeys_ne (i := 2) (j := 3) (by decide) (by decide) y x).symm

theorem idAdr_ne_loginTime (x y : Bytes) :
    cacheUserIdAdrPrefix ++ x ≠ cacheUserIdLoginTimePrefix ++ y :=
  userKeys_ne (i := 3) (j := 4) (by decide) (by decide) x y

/-- The key of the counter is none of them. -/
theorem incrUserId_ne {j : Nat} (h0 : 0 < j) (hj : j < 5) (x : Bytes) :
    cacheIncrUserId ≠ userKeys.get ⟨j, hj⟩ ++ x := by
  have hne := userKeys_ne h0 hj [] x
  rwa [List.append_nil] at hne

theorem incrUserId_ne_adrId (x : Bytes) : cacheIncrUserId ≠ cacheUserAdrIdPrefix ++ x :=
  incrUserId_ne (j := 1) (by decide) (by decide) x

theorem incrUserId_ne_pubKey (x : Bytes) : cacheIncrUserId ≠ cacheUserIdPubKeyPrefix ++ x :=
  incrUserId_ne (j := 2) (by decide) (by decide) x

theorem incrUserId_ne_idAdr (x : Bytes) : cacheIncrUserId ≠ cacheUserIdAdrPrefix ++ x :=
  incrUserId_ne (j := 3) (by decide) (by decide) x

theorem incrUserId_ne_loginTime (x : Bytes) : cacheIncrUserId ≠ cacheUserIdLoginTimePrefix ++ x :=
  incrUserId_ne (j := 4) (by decide) (by decide) x

/-! ## The commands of a login -/

section

variable (db : Redis) (o : LoginOf)

theorem exec_mset (userIdStr : Bytes) :
    ∃ db', Redis.exec (.argv (loginMset o userIdStr)) db = (.status, db') ∧
      db'.find cacheIncrUserId = db.find cacheIncrUserId ∧
      (∀ a, db'.find (cacheUserAdrIdPrefix ++ a) =
        if a = o.address then some userIdStr else db.find (cacheUserAdrIdPrefix ++ a)) ∧
      ∀ t, db'.find (cacheUserIdAdrPrefix ++ t) =
        if t = userIdStr then some o.address else db.find (cacheUserIdAdrPrefix ++ t) := by
  refine ⟨_, (if_pos rfl).trans (if_pos (by simp)), ?_, ?_, ?_⟩
  · simp only [Redis.mset]
    rw [Assoc.find_set_of_ne _ _ (incrUserId_ne_loginTime _),
      Assoc.find_set_of_ne _ _ (incrUserId_ne_idAdr _),
      Assoc.find_set_of_ne _ _ (incrUserId_ne_pubKey _),
      Assoc.find_set_of_ne _ _ (incrUserId_ne_adrId _)]
  · intro a
    simp only [Redis.mset]
    rw [Assoc.find_set_of_ne _ _ (adrId_ne_loginTime _ _),
      Assoc.find_set_of_ne _ _ (adrId_ne_idAdr _ _), Assoc.find_set_of_ne _ _ (adrId_ne_pubKey _ _)]
    by_cases ha : a = o.address
    · rw [if_pos ha, ha, Assoc.find_set_self]
    · rw [if_neg ha, Assoc.find_set_of_ne _ _ fun h => ha (List.append_cancel_left h)]
  · intro t
    simp only [Redis.mset]
    rw [Assoc.find_set_of_ne _ _ (idAdr_ne_loginTime _ _)]
    by_cases ht : t = userIdStr
    · rw [if_pos ht, ht, Assoc.find_set_self]
    · rw [if_neg ht, Assoc.find_set_of_ne _ _ fun h => ht (List.append_cancel_left h),
        Assoc.find_set_of_ne _ _ (idAdr_ne_pubKey _ _),
        Assoc.find_set_of_ne _ _ fun h => adrId_ne_idAdr _ _ h.symm]

theorem exec_mget (userId : UInt32) :
    ∃ elements, Redis.exec (.argv (loginMget userId)) db = (.array elements, db) ∧
      elements.length = 8 := by
  have hne : ¬ "MGET".toUTF8.toList = "MSET".toUTF8.toList := by decide +kernel
  refine ⟨_, (if_neg hne).trans (if_pos rfl), ?_⟩
  simp

end

theorem textInt_decimal {n : Nat} (h : n < 2 ^ 63) :
    Redis.textInt (decimal n) = some (n : Int) := by
  obtain ⟨x, xs, hx⟩ := List.exists_cons_of_ne_nil (decimal_ne_nil n)
  obtain ⟨-, hminus, -⟩ := (isDigit_of_mem_decimal n x (by simp [hx])).ne
  have hread := atoiDigits_decimal n
  have htext : Redis.intText n = decimal n := rfl
  rw [hx] at hread htext
  unfold Redis.textInt
  rw [hx]
  dsimp only
  split
  · rename_i heq
    exact absurd (List.cons.inj heq).1 hminus
  · rw [hread]
    exact if_pos ⟨htext, by omega, by omega⟩

theorem incrBy_of_none {db : Redis} {key : Bytes} (h : db.find key = none) :
    Redis.incrBy key 1 db = (.integer 1, db.set key (decimal 1)) := by
  simp [Redis.incrBy, h, Redis.intText]

/-- The counter as it is stored goes from `n` to `n + k`. -/
theorem incrBy_of_some {db : Redis} {key : Bytes} {n k : Nat} (h : db.find key = some (decimal n))
    (hlt : n + k < 2 ^ 63) :
    Redis.incrBy key k db = (.integer (n + k : Nat), db.set key (decimal (n + k))) := by
  have hn : n < 2 ^ 63 := by omega
  unfold Redis.incrBy
  rw [h, Option.elim_some, textInt_decimal hn]
  dsimp only
  rw [if_pos (by omega), ← Int.natCast_add]
  rfl

/-! ## Where a login is -/

section

variable (c : Secp256k1)

/-- Before the first command: the login refuses, or goes on to look its address up. -/
def Before : LoginProg c → Prop
  | .ret r => ∀ r', r = .ok r' → r'.error ≠ .noError
  | .call call k => (∀ cmd, call ≠ .redis cmd) ∧ ∀ x, Before (k x) ∨ ∃ o, k x = findUserId c o

/-- After the last write: the login is about to answer with this address and this id. -/
inductive Answering (a : Bytes) (userId : UInt32) : LoginProg c → Prop
  | read (o : LoginOf) (mset : Option (List Bytes)) (ha : o.address = a) :
    Answering a userId (readUser c o userId mset)
  | release (conn : CacheConnRef) (r : LoginResult) (hr : r.error = .noError)
    (ha : r.user.address = some a) (hid : r.user.uid = some userId) :
    Answering a userId (.call (.relCacheConn conn) fun _ => .ret (.ok r))
  | answered (r : LoginResult) (hr : r.error = .noError) (ha : r.user.address = some a)
    (hid : r.user.uid = some userId) : Answering a userId (.ret (.ok r))

/-- The thread of a login with this claim. -/
def At : Claim Bytes → LoginProg c → Prop
  | .out, p => Before c p
  | .seeks a, p => ∃ o, o.address = a ∧ p = findUserId c o
  | .missed a, p => ∃ o, o.address = a ∧ p = newUserId c o
  | .first a, p => ∃ o, o.address = a ∧ p = raiseUserId c o
  | .holds a n, p => ∃ o, o.address = a ∧ p = storeUser c o n
  | .has a n, p => Answering c a (UInt32.ofNat n) p

/-- The login is between its look-up, which found nothing, and the store. -/
def Allocating (a : Bytes) (p : LoginProg c) : Prop :=
  ∃ o, o.address = a ∧ (p = newUserId c o ∨ p = raiseUserId c o ∨ ∃ n, p = storeUser c o n)

variable {c}

theorem At.allocating {x : Claim Bytes} {p : LoginProg c} (h : At c x p) {a : Bytes}
    (hx : x.Allocates a) : Allocating c a p := by
  cases x with
  | out => exact absurd hx nofun
  | seeks b => exact absurd hx nofun
  | missed b =>
    obtain ⟨o, ho, rfl⟩ := h
    exact ⟨o, ho.trans hx, .inl rfl⟩
  | first b =>
    obtain ⟨o, ho, rfl⟩ := h
    exact ⟨o, ho.trans hx, .inr (.inl rfl)⟩
  | holds b n =>
    obtain ⟨o, ho, rfl⟩ := h
    exact ⟨o, ho.trans hx, .inr (.inr ⟨n, rfl⟩)⟩
  | has b n => exact absurd hx nofun

end

/-! ## The database and the registry -/

section

variable {ι : Type} {c : Secp256k1}

/-- The database holds the registry, and every login is where its claim says. -/
structure Sim (t : LoginThreads (ι := ι) c) (r : Registry ι Bytes) : Prop where
  counter : t.shared.find cacheIncrUserId = if r.counter = 0 then none else some (decimal r.counter)
  small : r.counter < 2 ^ 32
  number : ∀ a, t.shared.find (cacheUserAdrIdPrefix ++ a) = (r.number a).map decimal
  name : ∀ text a, t.shared.find (cacheUserIdAdrPrefix ++ text) = some a ↔
    (r.number a).map decimal = some text
  here : ∀ i, At c (r.claim i) (t.thread i)

variable [DecidableEq ι] {t : LoginThreads (ι := ι) c} {r : Registry ι Bytes} {i : ι}

theorem Sim.here_update (h : Sim t r) {x : Claim Bytes} {p : LoginProg c} (hp : At c x p) (j : ι) :
    At c (Function.update r.claim i x j) (Function.update t.thread i p j) := by
  by_cases hji : j = i
  · subst hji
    simpa using hp
  · simpa [hji] using h.here j

/-- A login moves and the database stays. -/
theorem Sim.move (h : Sim t r) {x : Claim Bytes} {p : LoginProg c} (hp : At c x p) :
    Sim (c := c) ⟨Function.update t.thread i p, t.shared⟩ (r.setClaim i x) :=
  ⟨h.counter, h.small, h.number, h.name, h.here_update hp⟩

/-- A login moves and stays where its claim says. -/
theorem Sim.stay (h : Sim t r) {p : LoginProg c} (hp : At c (r.claim i) p) :
    Sim (c := c) ⟨Function.update t.thread i p, t.shared⟩ r := by
  have hmove := h.move (i := i) hp
  rwa [Registry.setClaim, Function.update_eq_self] at hmove

/-- The counter is set. -/
theorem Sim.count (h : Sim t r) {x : Claim Bytes} {p : LoginProg c} (hp : At c x p) {n : Nat}
    (hpos : n ≠ 0) (hlt : n < 2 ^ 32) :
    Sim (c := c) ⟨Function.update t.thread i p, t.shared.set cacheIncrUserId (decimal n)⟩
      ((r.setClaim i x).setCounter n) where
  counter := by
    rw [Assoc.find_set_self]
    exact (if_neg hpos).symm
  small := hlt
  number a := by
    rw [Assoc.find_set_of_ne _ _ fun h => incrUserId_ne_adrId a h.symm]
    exact h.number a
  name text a := by
    rw [Assoc.find_set_of_ne _ _ fun h => incrUserId_ne_idAdr text h.symm]
    exact h.name text a
  here := h.here_update hp

/-- The number of an address that has none, and that nobody else has, is stored. -/
theorem Sim.store (h : Sim t r) {a : Bytes} {n : Nat} {p : LoginProg c} (hp : At c (.has a n) p)
    (hnone : r.number a = none) (hfree : ∀ b, r.number b ≠ some n) {db : Redis}
    (hcounter : db.find cacheIncrUserId = t.shared.find cacheIncrUserId)
    (hnumber : ∀ b, db.find (cacheUserAdrIdPrefix ++ b) =
      if b = a then some (decimal n) else t.shared.find (cacheUserAdrIdPrefix ++ b))
    (hname : ∀ text, db.find (cacheUserIdAdrPrefix ++ text) =
      if text = decimal n then some a else t.shared.find (cacheUserIdAdrPrefix ++ text)) :
    Sim (c := c) ⟨Function.update t.thread i p, db⟩ ((r.setClaim i (.has a n)).setNumber a n) where
  counter := hcounter.trans h.counter
  small := h.small
  number b := by
    rw [hnumber b]
    by_cases hb : b = a
    · subst hb
      simp [Registry.setNumber]
    · rw [if_neg hb, h.number b]
      simp [Registry.setNumber, Registry.setClaim, hb]
  name text b := by
    rw [hname]
    by_cases htext : text = decimal n
    · subst htext
      rw [if_pos rfl]
      by_cases hb : b = a
      · subst hb
        simp [Registry.setNumber]
      · have hother : (r.number b).map decimal ≠ some (decimal n) := by
          intro hmap
          obtain ⟨m, hm, hmn⟩ := Option.map_eq_some_iff.mp hmap
          exact hfree b (decimal_injective hmn ▸ hm)
        simp [Registry.setNumber, Registry.setClaim, hb, Ne.symm hb] at hother ⊢
        exact hother
    · rw [if_neg htext, h.name text b]
      by_cases hb : b = a
      · subst hb
        simp [Registry.setNumber, hnone, Ne.symm htext]
      · simp [Registry.setNumber, Registry.setClaim, hb]
  here := h.here_update hp

variable (logins : ι → Login)

/-- What a step of login `i` comes to. -/
def Moves (t : LoginThreads (ι := ι) c) (r : Registry ι Bytes) (i : ι) : Prop :=
  ∃ r', Sim (LoginThreads.step c logins t i) r' ∧ (r' = r ∨ Registry.Step 100000 i r r')

theorem step_redis {cmd : RedisCmd} {k : RedisReply → LoginProg c}
    (hi : t.thread i = .call (.redis cmd) k) {reply : RedisReply} {db : Redis}
    (hx : Redis.exec cmd t.shared = (reply, db)) :
    LoginThreads.step c logins t i = ⟨Function.update t.thread i (k reply), db⟩ :=
  Threads.step_call hi (congrArg some hx)

variable {logins}

/-- Before the first command the database stays as it is. -/
theorem handler_shared {call : LoginCall} (hcall : ∀ cmd, call ≠ .redis cmd) {login : Login}
    {db db' : Redis} {x : call.Answer c} (h : login.handler c call db = some (x, db')) :
    db' = db := by
  cases call with
  | redis cmd => exact absurd rfl (hcall cmd)
  | recover sig64 v msgHash =>
    change (if 0 ≤ v ∧ v ≤ 3 then some (c.recover sig64 v msgHash, db) else none) = _ at h
    split at h
    · cases h
      rfl
    · cases h
  | readSign n =>
    cases h
    rfl
  | getCacheConn =>
    cases h
    rfl
  | relCacheConn conn =>
    cases h
    rfl

theorem moves_out (h : Sim t r) (hi : r.claim i = .out) : Moves logins t r i := by
  have hbefore := h.here i
  rw [hi] at hbefore
  cases hp : t.thread i with
  | ret a =>
    refine ⟨r, ?_, .inl rfl⟩
    rw [LoginThreads.step, Threads.step_ret hp]
    exact h
  | call call k =>
    rw [hp] at hbefore
    obtain ⟨hcall, hk⟩ := hbefore
    cases hx : (logins i).handler c call t.shared with
    | none =>
      refine ⟨r, ?_, .inl rfl⟩
      rw [LoginThreads.step, Threads.step_call_none hp hx]
      exact h
    | some res =>
      obtain ⟨x, db⟩ := res
      have hdb := handler_shared hcall hx
      subst hdb
      unfold Moves
      rw [LoginThreads.step, Threads.step_call hp hx]
      rcases hk x with hbefore | ⟨o, ho⟩
      · exact ⟨r, h.stay (hi ▸ hbefore), .inl rfl⟩
      · exact ⟨_, h.move (x := .seeks o.address) ⟨o, rfl, ho⟩, .inr (.seek o.address hi)⟩

/-- A look-up, while nobody is giving the address a number. -/
theorem moves_seeks (h : Sim t r) (hinv : Registry.Inv 100000 r) {a : Bytes}
    (hi : r.claim i = .seeks a) (hfree : ∀ j, ¬ Allocating c a (t.thread j)) :
    Moves logins t r i := by
  have hat := h.here i
  rw [hi] at hat
  obtain ⟨o, rfl, hp⟩ := hat
  have hfind := h.number o.address
  cases hn : r.number o.address with
  | none =>
    have hexec : Redis.exec (.get (cacheUserAdrIdPrefix ++ o.address)) t.shared =
        (.nil, t.shared) := by
      rw [Redis.exec, hfind, hn]
      rfl
    refine ⟨r.setClaim i (.missed o.address), ?_, .inr (.miss hi hn ?_)⟩
    · rw [step_redis logins hp hexec]
      exact h.move ⟨o, rfl, rfl⟩
    · intro j hj
      exact hfree j ((h.here j).allocating hj)
  | some n =>
    have hexec : Redis.exec (.get (cacheUserAdrIdPrefix ++ o.address)) t.shared =
        (.string (decimal n), t.shared) := by
      rw [Redis.exec, hfind, hn]
      rfl
    have hlt : n < 2 ^ 32 := Nat.lt_of_le_of_lt (hinv.bounds _ _ (.inl hn)).2 h.small
    have hid : string2int (decimal n) = UInt32.ofNat n := by
      rw [← int2string_ofNat hlt, string2int_int2string]
    refine ⟨r.setClaim i (.has o.address n), ?_, .inr (.found hi hn)⟩
    rw [step_redis logins hp hexec]
    apply h.move
    change Answering c o.address (UInt32.ofNat n) (if (decimal n).isEmpty = true then _ else _)
    rw [if_neg (by simp [decimal_ne_nil]), ← hid]
    exact .read o none rfl

/-- The counter goes up by one, while nobody has the first number. -/
theorem moves_missed (h : Sim t r) {a : Bytes} (hi : r.claim i = .missed a)
    (hone : r.counter ≠ 1) (hlt : r.counter + 1 < 2 ^ 32) : Moves logins t r i := by
  have hat := h.here i
  rw [hi] at hat
  obtain ⟨o, rfl, hp⟩ := hat
  have hfind := h.counter
  by_cases hzero : r.counter = 0
  · have hexec : Redis.exec (.incr cacheIncrUserId) t.shared =
        (.integer 1, t.shared.set cacheIncrUserId (decimal 1)) := by
      rw [if_pos hzero] at hfind
      exact incrBy_of_none hfind
    refine ⟨_, ?_, .inr (.countFirst hi hzero)⟩
    rw [step_redis logins hp hexec]
    apply h.count
    · exact ⟨o, rfl, if_pos rfl⟩
    · simp
    · simp
  · have hexec : Redis.exec (.incr cacheIncrUserId) t.shared = (.integer (r.counter + 1 : Nat),
        t.shared.set cacheIncrUserId (decimal (r.counter + 1))) := by
      rw [if_neg hzero] at hfind
      exact incrBy_of_some (k := 1) hfind (by omega)
    have hne : ¬ CacheConn.incr (.integer (r.counter + 1 : Nat)) = 1 := by
      change ¬ ((r.counter + 1 : Nat) : Int) = 1
      omega
    refine ⟨_, ?_, .inr (.count hi hzero hone)⟩
    rw [step_redis logins hp hexec]
    apply h.count
    · exact ⟨o, rfl, if_neg hne⟩
    · simp
    · exact hlt

theorem moves_first (h : Sim t r) (hinv : Registry.Inv 100000 r) {a : Bytes}
    (hi : r.claim i = .first a) : Moves logins t r i := by
  have hat := h.here i
  rw [hi] at hat
  obtain ⟨o, rfl, hp⟩ := hat
  have hone := hinv.first i o.address hi
  have hfind := h.counter
  rw [hone, if_neg (by simp)] at hfind
  have hexec : Redis.exec (.incrBy cacheIncrUserId 99999) t.shared = (.integer (1 + 99999 : Nat),
      t.shared.set cacheIncrUserId (decimal (1 + 99999))) :=
    incrBy_of_some (k := 99999) hfind (by simp)
  refine ⟨_, ?_, .inr (.raise hi)⟩
  rw [step_redis logins hp hexec]
  apply h.count
  · exact ⟨o, rfl, rfl⟩
  · simp
  · simp

theorem moves_holds (h : Sim t r) (hinv : Registry.Inv 100000 r) {a : Bytes} {n : Nat}
    (hi : r.claim i = .holds a n) : Moves logins t r i := by
  have hat := h.here i
  rw [hi] at hat
  obtain ⟨o, rfl, hp⟩ := hat
  have hgiven : r.Given o.address n := .inr ⟨i, hi⟩
  have hlt : n < 2 ^ 32 := Nat.lt_of_le_of_lt (hinv.bounds _ _ hgiven).2 h.small
  have hnone : r.number o.address = none := by
    apply hinv.unstored i
    rw [hi]
    exact rfl
  have hfree : ∀ b, r.number b ≠ some n := by
    intro b hb
    have hba := hinv.inj b o.address n (.inl hb) hgiven
    rw [hba, hnone] at hb
    cases hb
  have hid : UInt32.ofInt (n : Int) = UInt32.ofNat n := by
    rw [← UInt32.toNat_inj, toNat_ofInt hlt, UInt32.toNat_ofNat_of_lt' hlt]
  have htext : int2string (UInt32.ofInt (n : Int)) = decimal n := by
    rw [hid, int2string_ofNat hlt]
  obtain ⟨db, hexec, hcounter, hnumber, hname⟩ := exec_mset t.shared o (decimal n)
  rw [storeUser, htext] at hp
  refine ⟨_, ?_, .inr (.store hi)⟩
  rw [step_redis logins hp hexec]
  refine h.store ?_ hnone hfree hcounter hnumber hname
  change Answering c o.address (UInt32.ofNat n) (readUser c o (string2int (decimal n)) _)
  rw [← int2string_ofNat hlt, string2int_int2string]
  exact .read o _ rfl

theorem moves_has (h : Sim t r) {a : Bytes} {n : Nat} (hi : r.claim i = .has a n) :
    Moves logins t r i := by
  have hat := h.here i
  rw [hi] at hat
  change Answering c a (UInt32.ofNat n) (t.thread i) at hat
  generalize hp : t.thread i = p at hat
  cases hat with
  | read o mset ha =>
    obtain ⟨elements, hexec, hlen⟩ := exec_mget t.shared (UInt32.ofNat n)
    refine ⟨r, ?_, .inl rfl⟩
    rw [step_redis logins hp hexec]
    apply h.stay
    rw [hi]
    cases huser : userOfList o (UInt32.ofNat n) (CacheConn.exec (.array elements)) with
    | none =>
      rw [userOfList_eq_none_iff, CacheConn.exec, List.length_map, hlen] at huser
      simp at huser
    | some user =>
      obtain ⟨huid, haddr⟩ := userOfList_spec huser
      exact .release o.conn _ rfl (haddr.trans (congrArg some ha)) huid
  | release conn res hr ha hid =>
    refine ⟨r, ?_, .inl rfl⟩
    rw [LoginThreads.step, Threads.step_call hp rfl]
    exact h.stay (hi ▸ .answered res hr ha hid)
  | answered res hr ha hid =>
    refine ⟨r, ?_, .inl rfl⟩
    rw [LoginThreads.step, Threads.step_ret hp]
    exact h

/-- What is asked of a step: nobody looks an address up that another login is storing an id for,
    and nobody counts while the first number is out, or at the end of the numbers. -/
structure Guarded (t : LoginThreads (ι := ι) c) (i : ι) : Prop where
  get : ∀ o, t.thread i = findUserId c o → ∀ j, ¬ Allocating c o.address (t.thread j)
  incr : ∀ o, t.thread i = newUserId c o → ∀ n,
    t.shared.find cacheIncrUserId = some (decimal n) → n ≠ 1 ∧ n + 1 < 2 ^ 32

/-- **One step.** -/
theorem Sim.step (h : Sim t r) (hinv : Registry.Inv 100000 r) (hg : Guarded t i) :
    Moves logins t r i := by
  have hat := h.here i
  cases hi : r.claim i with
  | out => exact moves_out h hi
  | seeks a =>
    rw [hi] at hat
    obtain ⟨o, rfl, hp⟩ := hat
    exact moves_seeks h hinv hi (hg.get o hp)
  | missed a =>
    rw [hi] at hat
    obtain ⟨o, rfl, hp⟩ := hat
    by_cases hzero : r.counter = 0
    · exact moves_missed h hi (by omega) (by omega)
    · have hfind := h.counter
      rw [if_neg hzero] at hfind
      obtain ⟨hone, hlt⟩ := hg.incr o hp r.counter hfind
      exact moves_missed h hi hone hlt
  | first a => exact moves_first h hinv hi
  | holds a n => exact moves_holds h hinv hi
  | has a n => exact moves_has h hi

end

/-! ## One after the other, and both at once -/

end Server
end Proof
end PtpCore
