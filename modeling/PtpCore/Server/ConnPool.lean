import PtpCore.Server.CachePool

/-!
# The two pools (`ptp_server/CachePool.cpp`, `ptp_server/DBPool.cpp`)

`CachePool` and `CDBPool` are written alike. A lock guards the list of free connections and the
count of those that were made; `Get` waits on a condition while there is none to have, and looks
again when it wakes, for whatever reason. What happens between taking the lock and leaving it, or
waiting, is one step here. `new` hands out a pointer that nothing in the program has: a number that
was not used.
-/

namespace PtpCore
namespace Server

/-- A pointer to a connection of a pool. -/
abbrev PoolConnRef := Nat

structure ConnPool where
  freeList : List PoolConnRef
  curConnCnt : Int
  maxConnCnt : Int
  nextConn : PoolConnRef
  deriving DecidableEq, Repr

/-- How a turn of `Get` at the lock ends. -/
inductive GetTurn
  | conn (conn : PoolConnRef)
  | null
  | waits
  deriving DecidableEq, Repr

namespace ConnPool

/-- The constructor of a pool, with its `MIN_..._CONN_CNT`. -/
def new (minConnCnt maxConnCnt : Int) : ConnPool := ⟨[], minConnCnt, maxConnCnt, 0⟩

/-- A new connection, put into the list. -/
def push (p : ConnPool) : ConnPool :=
  { p with freeList := p.freeList ++ [p.nextConn], nextConn := p.nextConn + 1 }

/-- The loop of `Init`; `ret` says what `Init` of each connection answers, and `code` what is
    returned for it. -/
def initLoop (code : Int → Int) (ret : Nat → Int) : Nat → ConnPool → Int × ConnPool
  | 0, p => (0, p)
  | n + 1, p => if ret n ≠ 0 then (code (ret n), p) else initLoop code ret n p.push

def init (code : Int → Int) (ret : Nat → Int) (p : ConnPool) : Int × ConnPool :=
  initLoop code ret p.curConnCnt.toNat p

/-- The loop of `Get` from the lock, or from waking, to the unlock, or to waiting; `ret` is what
    `Init` of a new connection answers. A new connection goes into the list, and the loop ends. -/
def get (ret : Int) (p : ConnPool) : GetTurn × ConnPool :=
  match p.freeList with
  | conn :: rest => (.conn conn, { p with freeList := rest })
  | [] =>
    if p.curConnCnt ≥ p.maxConnCnt then (.waits, p)
    else if ret ≠ 0 then (.null, p)
    else (.conn p.nextConn,
      { p with freeList := [], curConnCnt := p.curConnCnt + 1, nextConn := p.nextConn + 1 })

def rel (conn : PoolConnRef) (p : ConnPool) : ConnPool :=
  if conn ∈ p.freeList then p else { p with freeList := p.freeList ++ [conn] }

end ConnPool

/-! ## The functions of the two classes -/

namespace CachePool

/-- `MIN_CACHE_CONN_CNT`. -/
def minCacheConnCnt : Int := 2

def newPool (maxConnCnt : Int) : ConnPool := .new minCacheConnCnt maxConnCnt

/-- `CachePool::Init`. -/
def initPool (ret : Nat → Int) (p : ConnPool) : Int × ConnPool := p.init (fun _ => 1) ret

/-- A turn of `CachePool::GetCacheConn`. -/
def getCacheConnTurn (ret : Int) (p : ConnPool) : GetTurn × ConnPool := p.get ret

/-- `CachePool::RelCacheConn`. -/
def relCacheConnTurn (conn : PoolConnRef) (p : ConnPool) : ConnPool := p.rel conn

end CachePool

namespace CDBPool

/-- `MIN_DB_CONN_CNT`. -/
def minDBConnCnt : Int := 2

def newPool (maxConnCnt : Int) : ConnPool := .new minDBConnCnt maxConnCnt

/-- `CDBPool::Init`, which returns what the connection answered. -/
def initPool (ret : Nat → Int) (p : ConnPool) : Int × ConnPool := p.init id ret

/-- A turn of `CDBPool::GetDBConn`. -/
def getDBConnTurn (ret : Int) (p : ConnPool) : GetTurn × ConnPool := p.get ret

/-- `CDBPool::RelDBConn`. -/
def relDBConnTurn (conn : PoolConnRef) (p : ConnPool) : ConnPool := p.rel conn

end CDBPool

/-- What a pool offers. -/
structure PoolOps where
  newPool : Int → ConnPool
  initPool : (Nat → Int) → ConnPool → Int × ConnPool
  get : Int → ConnPool → GetTurn × ConnPool
  rel : PoolConnRef → ConnPool → ConnPool

def CachePool.ops : PoolOps :=
  ⟨CachePool.newPool, CachePool.initPool, CachePool.getCacheConnTurn, CachePool.relCacheConnTurn⟩

def CDBPool.ops : PoolOps :=
  ⟨CDBPool.newPool, CDBPool.initPool, CDBPool.getDBConnTurn, CDBPool.relDBConnTurn⟩

/-! ## Threads -/

/-- The pool among threads: which connection went to whom and has not been released, and who waits
    inside `Get`. -/
structure PoolState (ι : Type) where
  pool : ConnPool
  lent : List (ι × PoolConnRef)
  waiting : List ι

inductive PoolEvent (ι : Type)
  /-- `Get` is called. -/
  | get (i : ι) (ret : Int)
  /-- A thread that waits in `Get` wakes, signalled or not. -/
  | wake (i : ι) (ret : Int)
  /-- What `i` got is released, by whoever has it now. -/
  | rel (i : ι) (conn : PoolConnRef)

section

variable {ι : Type} [DecidableEq ι] (ops : PoolOps)

/-- A turn of `Get` of thread `i`. -/
def getTurn (s : PoolState ι) (i : ι) (ret : Int) : PoolState ι :=
  match ops.get ret s.pool with
  | (.conn conn, pool) => ⟨pool, (i, conn) :: s.lent, s.waiting⟩
  | (.null, pool) => ⟨pool, s.lent, s.waiting⟩
  | (.waits, pool) => ⟨pool, s.lent, i :: s.waiting⟩

/-- A thread inside `Get` calls nothing else, and what is not lent is not released. -/
def poolStep (s : PoolState ι) : PoolEvent ι → PoolState ι
  | .get i ret => if i ∈ s.waiting then s else getTurn ops s i ret
  | .wake i ret =>
    if i ∈ s.waiting then getTurn ops { s with waiting := s.waiting.erase i } i ret else s
  | .rel i conn =>
    if (i, conn) ∈ s.lent then
      { s with pool := ops.rel conn s.pool, lent := s.lent.erase (i, conn) }
    else s

end

end Server
end PtpCore
