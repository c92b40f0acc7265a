import PtpCore.Lib.Lending
import PtpCore.Lib.Run
import PtpCore.Server.ConnPool

/-!
# The pools lend each connection once

Both pools are a `Lending`: the free list, and what the threads have. A turn of `Get` takes the
first free connection, or makes one and takes it; `Rel` gives one back. The count goes up with each
connection that is made, and `Get` makes none once it has reached the maximum.
-/

namespace PtpCore
namespace Proof
namespace Server

open Lib
open PtpCore.Server

variable {ι : Type} {s : PoolState ι} {p : ConnPool} {i : ι} {ret : Int}
  {conn : PoolConnRef}

def lending (s : PoolState ι) : Lending ι PoolConnRef := ⟨s.pool.freeList, s.lent⟩

/-- The functions of the two classes do the same, but for what a failed `Init` returns. -/
theorem ops_eq {ops : PoolOps} (h : ops ∈ [CachePool.ops, CDBPool.ops]) :
    (∀ max, ops.newPool max = .new 2 max) ∧
      (∃ code : Int → Int, (∀ r, r ≠ 0 → code r ≠ 0) ∧
        ∀ ret p, ops.initPool ret p = p.init code ret) ∧
      ops.get = ConnPool.get ∧ ops.rel = ConnPool.rel := by
  simp only [List.mem_cons, List.not_mem_nil, or_false] at h
  rcases h with rfl | rfl
  · exact ⟨fun _ => rfl, ⟨_, fun _ _ => Int.one_ne_zero, fun _ _ => rfl⟩, rfl, rfl⟩
  · exact ⟨fun _ => rfl, ⟨_, fun _ hr => hr, fun _ _ => rfl⟩, rfl, rfl⟩

/-! ## What a turn does -/

theorem get_cases (ret : Int) (p : ConnPool) :
    (∃ conn rest, p.freeList = conn :: rest ∧
        p.get ret = (.conn conn, { p with freeList := rest })) ∨
      (p.freeList = [] ∧ p.curConnCnt < p.maxConnCnt ∧
        p.get ret = (.conn p.nextConn,
          { p with freeList := [], curConnCnt := p.curConnCnt + 1, nextConn := p.nextConn + 1 })) ∨
      (p.get ret = (.null, p) ∨ p.get ret = (.waits, p)) := by
  rw [ConnPool.get]
  cases hfree : p.freeList with
  | cons conn rest => exact .inl ⟨conn, rest, rfl, rfl⟩
  | nil =>
    dsimp only
    by_cases hmax : p.curConnCnt ≥ p.maxConnCnt
    · rw [if_pos hmax]
      exact .inr (.inr (.inr rfl))
    · rw [if_neg hmax]
      by_cases hret : ret ≠ 0
      · rw [if_pos hret]
        exact .inr (.inr (.inl rfl))
      · rw [if_neg hret]
        exact .inr (.inl ⟨rfl, Int.not_le.mp hmax, rfl⟩)

/-! ## `Init` -/

theorem initLoop_ok {code : Int → Int} (hcode : ∀ r, r ≠ 0 → code r ≠ 0) {rets : Nat → Int} {n : Nat}
    {p : ConnPool} (h : (p.initLoop code rets n).1 = 0) :
    (p.initLoop code rets n).2 =
      { p with
        freeList := p.freeList ++ List.range' p.nextConn n
        nextConn := p.nextConn + n } := by
  induction n generalizing p with
  | zero => simp [ConnPool.initLoop]
  | succ n ih =>
    rw [ConnPool.initLoop] at h ⊢
    by_cases hret : rets n ≠ 0
    · rw [if_pos hret] at h
      exact absurd h (hcode _ hret)
    · rw [if_neg hret] at h ⊢
      rw [ih h]
      simp [ConnPool.push, List.range'_succ, Nat.add_comm, Nat.add_left_comm]

/-! ## The invariant -/

structure PoolInv (limit : Int) (s : PoolState ι) : Prop where
  lending : Lending.Inv s.pool.curConnCnt.toNat (lending s)
  /-- What is there was made before. -/
  made : ∀ conn ∈ (Server.lending s).all, conn < s.pool.nextConn
  nonneg : 0 ≤ s.pool.curConnCnt
  maximum : s.pool.maxConnCnt = limit
  bound : s.pool.curConnCnt ≤ max 2 limit

variable {limit : Int} {ops : PoolOps}

theorem poolInv_init {code : Int → Int} (hcode : ∀ r, r ≠ 0 → code r ≠ 0) {rets : Nat → Int}
    (h : ((ConnPool.new 2 limit).init code rets).1 = 0) :
    PoolInv limit (⟨((ConnPool.new 2 limit).init code rets).2, [], []⟩ : PoolState ι) := by
  rw [ConnPool.init] at h ⊢
  rw [initLoop_ok hcode h]
  refine ⟨⟨?_, ?_⟩, ?_, ?_, rfl, ?_⟩
  · simp [Lending.all, lending, ConnPool.new, List.nodup_range']
  · simp [Lending.all, lending, ConnPool.new]
  · intro conn hconn
    simpa [Lending.all, lending, ConnPool.new] using hconn
  · simp [ConnPool.new]
  · exact Int.le_max_left 2 limit

/-- What holds between any two turns. -/
structure LentOnce (limit : Int) (s : PoolState ι) : Prop where
  nodup_free : s.pool.freeList.Nodup
  not_free : ∀ i conn, (i, conn) ∈ s.lent → conn ∉ s.pool.freeList
  /-- No connection is lent to two. -/
  nodup_lent : (s.lent.map Prod.snd).Nodup
  count : (s.pool.freeList.length + s.lent.length : Int) = s.pool.curConnCnt
  bound : s.pool.curConnCnt ≤ max 2 limit

theorem PoolInv.lentOnce (h : PoolInv limit s) : LentOnce limit s where
  nodup_free := h.lending.nodup_free
  not_free := fun _ _ hmem => h.lending.not_mem_free hmem
  nodup_lent := h.lending.nodup_lent
  count := by
    have hlen : ((s.pool.freeList.length + s.lent.length : Nat) : Int) =
        (s.pool.curConnCnt.toNat : Int) := congrArg Nat.cast h.lending.length_add
    rw [Int.toNat_of_nonneg h.nonneg] at hlen
    exact_mod_cast hlen
  bound := h.bound

/-- The invariant does not see who waits. -/
theorem PoolInv.setWaiting (h : PoolInv limit s) (waiting : List ι) :
    PoolInv limit { s with waiting := waiting } :=
  ⟨h.lending, h.made, h.nonneg, h.maximum, h.bound⟩

theorem PoolInv.getTurn (hget : ops.get = ConnPool.get) (h : PoolInv limit s) (i : ι) (ret : Int) :
    PoolInv limit (getTurn ops s i ret) := by
  rw [Server.getTurn, hget]
  rcases get_cases ret s.pool with ⟨conn, rest, hfree, hturn⟩ | ⟨hfree, hlt, hturn⟩ | hturn | hturn
  · rw [hturn]
    refine ⟨h.lending.take i hfree, ?_, h.nonneg, h.maximum, h.bound⟩
    intro conn' hconn'
    exact h.made conn' ((Lending.all_take hfree).mem_iff.mp hconn')
  · rw [hturn]
    -- made, and taken at once
    have hnew : s.pool.nextConn ∉ (Server.lending s).all := fun hmem => Nat.lt_irrefl _ (h.made _ hmem)
    have hone : ((Server.lending s).make s.pool.nextConn).free = s.pool.nextConn :: [] := by
      simp [Lending.make, Server.lending, hfree]
    have hmade := (h.lending.make hnew).take i hone
    refine ⟨?_, ?_, ?_, h.maximum, ?_⟩
    · have hcount : (s.pool.curConnCnt + 1).toNat = s.pool.curConnCnt.toNat + 1 :=
        Int.toNat_add h.nonneg Int.one_nonneg
      rw [hcount]
      exact hmade
    · intro conn hconn
      simp only [Server.lending, Lending.all, List.nil_append, List.map_cons, List.mem_cons] at hconn
      rcases hconn with rfl | hconn
      · exact Nat.lt_succ_self _
      · exact (h.made conn (List.mem_append_right _ hconn)).trans (Nat.lt_succ_self _)
    · exact Int.add_nonneg h.nonneg Int.one_nonneg
    · rw [h.maximum] at hlt
      exact (Int.add_one_le_of_lt hlt).trans (Int.le_max_right 2 limit)
  · rw [hturn]
    exact h
  · rw [hturn]
    exact h.setWaiting _

variable [DecidableEq ι]

theorem PoolInv.rel (hrel : ops.rel = ConnPool.rel) (h : PoolInv limit s)
    (hmem : (i, conn) ∈ s.lent) :
    PoolInv limit { s with pool := ops.rel conn s.pool, lent := s.lent.erase (i, conn) } := by
  have hfree : conn ∉ s.pool.freeList := h.lending.not_mem_free hmem
  rw [hrel, ConnPool.rel, if_neg hfree]
  refine ⟨h.lending.giveBack hmem, ?_, h.nonneg, h.maximum, h.bound⟩
  intro conn' hconn'
  exact h.made conn' ((Lending.all_giveBack hmem).mem_iff.mp hconn')

theorem PoolInv.step (hget : ops.get = ConnPool.get) (hrel : ops.rel = ConnPool.rel)
    (h : PoolInv limit s) (e : PoolEvent ι) : PoolInv limit (poolStep ops s e) := by
  cases e with
  | get i ret =>
    rw [poolStep]
    split
    · exact h
    · exact h.getTurn hget i ret
  | wake i ret =>
    rw [poolStep]
    split
    · exact (h.setWaiting _).getTurn hget i ret
    · exact h
  | rel i conn =>
    rw [poolStep]
    split
    · rename_i hmem
      exact h.rel hrel hmem
    · exact h

/-- **The pools.** After a successful `Init`, and whatever the threads do, each connection is free or
    lent, and there once; a connection that cannot be made changes nothing. -/
theorem lentOnce_of_init (ops : PoolOps) (hops : ops ∈ [CachePool.ops, CDBPool.ops]) (limit : Int)
    (rets : Nat → Int) (hinit : (ops.initPool rets (ops.newPool limit)).1 = 0)
    (es : List (PoolEvent ι)) :
    LentOnce limit
        (es.foldl (poolStep ops) ⟨(ops.initPool rets (ops.newPool limit)).2, [], []⟩) ∧
      ∀ (p : ConnPool) (ret : Int), (ops.get ret p).1 = .null → (ops.get ret p).2 = p := by
  obtain ⟨hnew, ⟨code, hcode, hinitPool⟩, hget, hrel⟩ := ops_eq hops
  rw [hnew, hinitPool] at hinit ⊢
  refine ⟨PoolInv.lentOnce ?_, ?_⟩
  · have hsteps : EachStep (poolStep ops) (fun _ _ => True)
        (⟨((ConnPool.new 2 limit).init code rets).2, [], []⟩ : PoolState ι) es :=
      EachStep.of_forall_mem fun _ _ => trivial
    exact hsteps.invariant (PoolInv limit) (fun s e h _ => h.step hget hrel e)
      (poolInv_init hcode hinit)
  · intro p ret hnull
    rw [hget] at hnull ⊢
    rcases get_cases ret p with ⟨conn, rest, -, hturn⟩ | ⟨-, -, hturn⟩ | hturn | hturn
    · rw [hturn] at hnull
      cases hnull
    · rw [hturn] at hnull
      cases hnull
    · rw [hturn]
    · rw [hturn]

/-- Three connections are asked for, where two were made and three may be; the last one cannot be
    had at first. One is given back, and taken again. -/
def borrowEvents : List (PoolEvent Bool) :=
  [.get true 0, .get false 0, .get true 1, .get true 0, .get false 0, .rel true 0, .wake false 0]

theorem lentOnce_borrowEvents :
    (CachePool.ops.initPool (fun _ => 0) (CachePool.ops.newPool 3)).1 = 0 ∧
      LentOnce 3 (borrowEvents.foldl (poolStep CachePool.ops)
        ⟨(CachePool.ops.initPool (fun _ => 0) (CachePool.ops.newPool 3)).2, [], []⟩) := by
  refine ⟨rfl, ?_⟩
  exact (lentOnce_of_init CachePool.ops List.mem_cons_self 3 (fun _ => 0) rfl borrowEvents).1

example : (borrowEvents.foldl (poolStep CDBPool.ops)
    ⟨(CDBPool.ops.initPool (fun _ => 0) (CDBPool.ops.newPool 3)).2, [], []⟩).lent =
      [(false, 0), (true, 2), (false, 1)] := rfl

/-! ## The pool as a login sees it -/

/-- The pool of `CachePool`, whose fields carry their invariant, as a plain one. -/
def toConnPool (p : CachePool) : ConnPool := ⟨p.freeList, p.curConnCnt, p.maxConnCnt, p.nextConn⟩

/-- `GetCacheConn` in one step is a turn that does not wait. -/
theorem getCacheConn_eq_some {initOk : Bool} {p p' : CachePool} {r : Option CacheConnRef}
    (h : p.getCacheConn initOk = some (r, p')) :
    CachePool.getCacheConnTurn (if initOk then 0 else 1) (toConnPool p) =
      (r.elim .null .conn, toConnPool p') := by
  rw [CachePool.getCacheConn] at h
  rw [CachePool.getCacheConnTurn, ConnPool.get]
  split at h
  · rename_i conn rest hfree
    have hfields : (toConnPool p).freeList = conn :: rest := hfree
    cases h
    rw [hfields]
    rfl
  · rename_i hfree
    have hfields : (toConnPool p).freeList = [] := hfree
    rw [hfields]
    dsimp only
    have hmax : (toConnPool p).curConnCnt ≥ (toConnPool p).maxConnCnt ↔
        p.curConnCnt ≥ p.maxConnCnt := Int.ofNat_le
    split at h
    · cases h
    · rename_i hlt
      rw [if_neg (hmax.not.mpr hlt)]
      cases initOk with
      | true =>
        cases h
        rfl
      | false =>
        cases h
        rfl

/-- It waits where the turn does. -/
theorem getCacheConn_eq_none {initOk : Bool} {p : CachePool} (h : p.getCacheConn initOk = none) :
    CachePool.getCacheConnTurn (if initOk then 0 else 1) (toConnPool p) =
      (.waits, toConnPool p) := by
  rw [CachePool.getCacheConn] at h
  split at h
  · cases h
  · rename_i hfree
    split at h
    · rename_i hmax
      have hfields : (toConnPool p).freeList = [] := hfree
      have hge : (toConnPool p).curConnCnt ≥ (toConnPool p).maxConnCnt := Int.ofNat_le.mpr hmax
      rw [CachePool.getCacheConnTurn, ConnPool.get, hfields]
      exact if_pos hge
    · cases initOk with
      | true => cases h
      | false => cases h

end Server
end Proof
end PtpCore
