import PtpCore.Global.Helpers
import PtpCore.Server.ServInfo

/-!
# Choosing a business server (`ptp_server/BusinessClientConn.cpp`, `ptp_global/ServInfo.cpp`)

The configuration lists the business servers, and says how many connections each of them gets. The
slots of half of the servers are for logins, and the others for everything else. A request takes a
connection from its own half, at random among those that are open, and from the other half if there
is none.

The random loop ends when it hits an open connection. It is run on the numbers that `rand` returns.
-/

namespace PtpCore
namespace Server

open Lib Global ServInfo

/-! ## The configuration -/

/-- `m_config_map`. -/
abbrev ConfigMap := Assoc Bytes Bytes

/-- `sprintf` of a `uint32_t` with `%d`. -/
def printInt (n : UInt32) : Bytes :=
  if n.toNat < 2 ^ 31 then decimal n.toNat else 0x2d :: decimal (2 ^ 32 - n.toNat)

/-- `server_ip` and `server_port` of a `serv_info_t`. -/
structure ServerAddr where
  ip : Bytes
  port : UInt16
  deriving DecidableEq, Repr

section

variable (config : ConfigMap) (ipFormat portFormat : Bytes)

/-- The texts of server `n`, if both are there. -/
def serverTexts (n : UInt32) : Option (Bytes × Bytes) :=
  match config.find (ipFormat ++ printInt n), config.find (portFormat ++ printInt n) with
  | some ip, some port => some (ip, port)
  | _, _ => none

/-- The loop that counts, for at most `fuel` rounds. -/
def countServers : (fuel : Nat) → (serverCount : UInt32) → UInt32
  | 0, serverCount => serverCount
  | fuel + 1, serverCount =>
    if (serverTexts config ipFormat portFormat (serverCount + 1)).isSome then
      countServers fuel (serverCount + 1)
    else serverCount

/-- `read_server_config`. There are no more servers than there are entries. -/
def readServerConfig : List ServerAddr :=
  let serverCount := countServers config ipFormat portFormat (config.length + 1) 0
  (List.range serverCount.toNat).map fun i =>
    match serverTexts config ipFormat portFormat (UInt32.ofNat (i + 1)) with
    | some (ip, port) => ⟨cString ip, UInt16.ofInt (atoi (cString port))⟩
    | none => ⟨[], 0⟩

end

/-! ## The two ranges -/

/-- `g_db_server_count` and `g_db_server_login_count`, and the addresses of the slots. -/
structure BusinessServers where
  addrs : List ServerAddr
  serverCount : UInt32
  loginCount : UInt32
  deriving DecidableEq, Repr

/-- Before, and without, `init_business_serv_conn`. -/
def BusinessServers.unset : BusinessServers := ⟨[], 0, 0⟩

/-- An unsigned division by zero. -/
structure DivisionByZero where
  deriving DecidableEq, Repr

/-- What `init_business_serv_conn` computes before `serv_init`. -/
def initBusinessServConn (serverList : List ServerAddr) (serverCount concurConnCnt : UInt32) :
    Except DivisionByZero BusinessServers :=
  if concurConnCnt = 0 then .error {}
  else
    let totalDbInstance := serverCount / concurConnCnt
    .ok ⟨serverList, serverCount, totalDbInstance / 2 * concurConnCnt⟩

/-- `DEFAULT_CONCURRENT_DB_CONN_CNT`. -/
def defaultConcurrentDbConnCnt : UInt32 := 2

section

variable (config : ConfigMap)

/-- The servers that are configured. -/
def dbServers : List ServerAddr :=
  readServerConfig config "MSG_DBServerIP".toUTF8.toList "MSG_DBServerPort".toUTF8.toList

def dbServerCount : UInt32 := UInt32.ofNat (dbServers config).length

/-- How many connections each of them gets. -/
def concurrentDbConnCnt : UInt32 :=
  match config.find "MSG_ConcurrentDBConnCnt".toUTF8.toList with
  | none => defaultConcurrentDbConnCnt
  | some text => string2int text

/-- `db_server_count2`, a product of 32 bits. -/
def slotCount : UInt32 := dbServerCount config * concurrentDbConnCnt config

/-- The business client part of `run_ptp_server_msg`. -/
def setupBusiness : Except DivisionByZero BusinessServers :=
  let serverList2 := (List.range (slotCount config).toNat).map fun i =>
    (dbServers config).getD (i / (concurrentDbConnCnt config).toNat) ⟨[], 0⟩
  if dbServerCount config > 0 then
    initBusinessServConn serverList2 (slotCount config) (concurrentDbConnCnt config)
  else .ok .unset

end

/-! ## Selection -/

/-- A result of `rand`, from 0 to `RAND_MAX`. -/
abbrev Rand := Fin (2 ^ 31)

/-- The connection in slot `i`, if there is one and it is open. -/
def openAt (s : BusinessConns) (i : Nat) : Option ConnRef :=
  match s.serverList[i]? with
  | none => none
  | some slot => slot.servConn.filter fun c => (s.conns.find c).any CBusinessClientConn.isOpen

/-- What a search in a range comes to. -/
inductive Found
  | null
  | conn (c : ConnRef)
  /-- The index is an `int`, and was negative. -/
  | outside
  deriving DecidableEq, Repr

/-- Where the loop stops that looks whether there is an open connection at all. -/
def scanRange (s : BusinessConns) (startPos stopPos : Nat) : Nat :=
  ((List.range' startPos (stopPos - startPos)).find? fun i => (openAt s i).isSome).getD
    (max startPos stopPos)

/-- The random loop, and the numbers that are left; `none` when they do not suffice. -/
def pickRandom (s : BusinessConns) (startPos stopPos : Nat) : List Rand → Option (Found × List Rand)
  | [] => none
  | r :: draws =>
    let i := r.val % (stopPos - startPos) + startPos
    if 2 ^ 31 ≤ i then some (.outside, draws)
    else
      match openAt s i with
      | some c => some (.conn c, draws)
      | none => pickRandom s startPos stopPos draws

/-- `get_business_server_conn_in_range`. -/
def getBusinessServerConnInRange (s : BusinessConns) (startPos stopPos : Nat) (draws : List Rand) :
    Option (Found × List Rand) :=
  if scanRange s startPos stopPos = stopPos then some (.null, draws)
  else pickRandom s startPos stopPos draws

/-- Two ranges, the second if nothing is in the first. -/
def searchRanges (s : BusinessConns) (first second : Nat × Nat) (draws : List Rand) :
    Option Found :=
  match getBusinessServerConnInRange s first.1 first.2 draws with
  | some (.null, draws) =>
    (getBusinessServerConnInRange s second.1 second.2 draws).map Prod.fst
  | result => result.map Prod.fst

/-- What the callers get. `fresh` is `new CBusinessClientConn()`, which is not open. -/
inductive Selected
  | registered (c : ConnRef)
  | fresh
  | outside
  deriving DecidableEq, Repr

def Selected.ofFound : Found → Selected
  | .null => .fresh
  | .conn c => .registered c
  | .outside => .outside

section

variable (g : BusinessServers) (s : BusinessConns) (draws : List Rand)

def loginRange : Nat × Nat := (0, g.loginCount.toNat)

def otherRange : Nat × Nat := (g.loginCount.toNat, g.serverCount.toNat)

def getBusinessServConnForLogin : Option Selected :=
  (searchRanges s (loginRange g) (otherRange g) draws).map .ofFound

def getBusinessServConn : Option Selected :=
  (searchRanges s (otherRange g) (loginRange g) draws).map .ofFound

end

end Server
end PtpCore
