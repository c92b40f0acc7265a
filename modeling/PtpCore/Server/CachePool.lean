import Mathlib.Data.List.Nodup
import PtpCore.Lib.Bytes

/-!
# Connections to Redis (`ptp_server/CachePool.cpp`)

A command can fail in several ways, and each member function of `CacheConn` has its own way of not
saying so: `get` answers an empty string, `incr` and `incrBy` -1 or 0, and `exec` leaves its list
as it was. What a command answers depends on the reply alone, so these are functions of it.

A pool lends connections. `GetCacheConn` waits when as many have been made as there may be and none
is back; the caller gives a connection back with `RelCacheConn`.
-/

namespace PtpCore
namespace Server

open Lib

/-- The commands, as they go to Redis. -/
inductive RedisCmd
  | get (key : Bytes)
  | incr (key : Bytes)
  | incrBy (key : Bytes) (value : Int)
  /-- `redisCommandArgv`. -/
  | argv (args : List Bytes)
  deriving DecidableEq, Repr

/-- What comes of a command. -/
inductive RedisReply
  /-- `Init` found no connection, and there was no command. -/
  | initFailed
  /-- `redisCommand` returned a null pointer. -/
  | null
  | error
  | nil
  | status
  | string (s : Bytes)
  | integer (n : Int)
  | array (elements : List (Option Bytes))
  deriving DecidableEq, Repr

namespace CacheConn

def get : RedisReply → Bytes
  | .string s => s
  | _ => []

/-- `incr`, and `incrBy`. `reply->integer` is 0 in a reply that is no integer. -/
def incr : RedisReply → Int
  | .initFailed => -1
  | .null => -1
  | .integer n => n
  | _ => 0

/-- The list that `exec` fills. -/
def exec : RedisReply → List Bytes
  | .array elements => elements.map (·.getD [])
  | _ => []

end CacheConn

/-- A pointer to a `CacheConn`. -/
abbrev CacheConnRef := Nat

/-- `nextConn` counts the connections that were ever made. What is free was made, and is free
    once. -/
structure CachePool where
  freeList : List CacheConnRef
  curConnCnt : Nat
  maxConnCnt : Nat
  nextConn : CacheConnRef
  nodup : freeList.Nodup
  lt_nextConn : ∀ conn ∈ freeList, conn < nextConn

namespace CachePool

/-- How many connections are in somebody's hands. -/
def lent (p : CachePool) : Int := p.curConnCnt - p.freeList.length

/-- The first free connection. -/
def pop (p : CachePool) (conn : CacheConnRef) (rest : List CacheConnRef)
    (h : p.freeList = conn :: rest) : CachePool where
  freeList := rest
  curConnCnt := p.curConnCnt
  maxConnCnt := p.maxConnCnt
  nextConn := p.nextConn
  nodup := (List.nodup_cons.mp (h ▸ p.nodup)).2
  lt_nextConn := fun x hx => p.lt_nextConn x (h ▸ List.mem_cons_of_mem conn hx)

/-- A connection that was just made, and is handed out. -/
def grow (p : CachePool) : CachePool where
  freeList := []
  curConnCnt := p.curConnCnt + 1
  maxConnCnt := p.maxConnCnt
  nextConn := p.nextConn + 1
  nodup := List.nodup_nil
  lt_nextConn := nofun

/-- `GetCacheConn`; `initOk` says whether `Init` of a new connection succeeds. It is `none` while
    it waits, and the connection is `none` when it returns a null pointer. -/
def getCacheConn (initOk : Bool) (p : CachePool) : Option (Option CacheConnRef × CachePool) :=
  match h : p.freeList with
  | conn :: rest => some (some conn, p.pop conn rest h)
  | [] =>
    if p.curConnCnt ≥ p.maxConnCnt then none
    else if initOk then some (some p.nextConn, p.grow)
    else some (none, p)

/-- `RelCacheConn`. Only a connection that was made can be given back. -/
def relCacheConn (conn : CacheConnRef) (p : CachePool) : CachePool :=
  if h : conn ∈ p.freeList ∨ ¬ conn < p.nextConn then p
  else
    { p with
      freeList := p.freeList ++ [conn]
      nodup := by
        obtain ⟨hmem, -⟩ := not_or.mp h
        rw [List.nodup_append]
        refine ⟨p.nodup, List.nodup_singleton conn, ?_⟩
        rintro a ha b hb rfl
        exact hmem (List.mem_singleton.mp hb ▸ ha)
      lt_nextConn := by
        obtain ⟨-, hlt⟩ := not_or.mp h
        intro x hx
        rcases List.mem_append.mp hx with hx | hx
        · exact p.lt_nextConn x hx
        · rw [List.mem_singleton.mp hx]
          exact not_not.mp hlt }

end CachePool

end Server
end PtpCore
