import PtpCore.Net.ClientConn

/-!
# Accounts and their connections (`ptp_net/AccountManager.cpp`, `ptp_net/ClientConn.cpp`)

The whole of a client. An account has a state of its connection, which its `handlePdu` sets to
`ConnectionLogged`; `ClientConn.cpp` has another one, for all connections, which it never does.
What an account sends goes to the connection that `get_conn` finds, and leaves the time there.
-/

namespace PtpCore
namespace Net

open Lib
open PtpCore.Global

/-- The globals of `ClientConn.cpp`, and what `AccountManager::getInstance` answers. -/
structure ClientSystem (l : ClientLibs) where
  client : ClientState
  accounts : UInt32 → Account l.storage.Files

inductive SystemEvent
  | client (e : ClientEvent)
  /-- `OnRead` of the connection with this descriptor, with the PDUs that it finds. -/
  | read (handle : Int) (now : UInt64) (pdus : List (ClientEnv × CImPdu))
  /-- `AccountManager::SendPdu`. -/
  | send (accountId : UInt32) (now : UInt64) (env : ClientEnv) (pdu : CImPdu)
  /-- `AccountManager::onConnectionStateChanged`. -/
  | setConnectionState (accountId : UInt32) (state : ConnectionState)

section

variable {l : ClientLibs}

namespace ClientSystem

/-- Nothing is connected, and every account is closed. -/
def start (managers : UInt32 → AccountManager l.storage.Files) : ClientSystem l :=
  ⟨.start, fun accountId => ⟨managers accountId, {}, .closed⟩⟩

def setAccount (s : ClientSystem l) (accountId : UInt32) (a : Account l.storage.Files) :
    ClientSystem l :=
  { s with accounts := fun other => if other = accountId then a else s.accounts other }

/-- `_SendPdu`, as far as the timer sees it: `Send` keeps the time. -/
def sendOn (s : ClientSystem l) (accountId : UInt32) (now : UInt64) : ClientSystem l :=
  match s.client.getConn accountId with
  | none => s
  | some c =>
    match s.client.conns.find c with
    | none => s
    | some conn => { s with client := s.client.setConn c { conn with lastSendTick := now } }

/-- `AccountManager::handlePdu`, and the login request if it sends one. It has ended the process if
    there is no state after it. -/
def handlePdu (accountId : UInt32) (now : UInt64) (s : Option (ClientSystem l))
    (pdu : ClientEnv × CImPdu) : Option (ClientSystem l) :=
  s.bind fun s =>
    match (s.accounts accountId).handlePdu l pdu.1 pdu.2 with
    | (_, .error _) => none
    | (a, .ok none) => some (s.setAccount accountId a)
    | (a, .ok (some _)) => some ((s.setAccount accountId a).sendOn accountId now)

end ClientSystem

open ClientSystem

/-- One event. The loops over the maps make at most `n` passes. -/
def systemStep (n : Nat) (s : ClientSystem l) : SystemEvent → Option (ClientSystem l)
  | .client e => (clientStep n s.client e).map fun client => { s with client := client }
  | .read handle now pdus =>
    match s.client.msgConnMap.find handle with
    | none => some s
    | some c =>
      match s.client.conns.find c with
      | none => some s
      | some conn =>
        pdus.foldl (handlePdu conn.accountId now) (some { s with client := s.client.onRead c now })
  | .send accountId now env pdu =>
    match ((s.accounts accountId).sendPdu l.gcm env pdu).2 with
    | .error _ => none
    | .ok _ => some (s.sendOn accountId now)
  | .setConnectionState accountId state =>
    some (s.setAccount accountId { s.accounts accountId with connectionState := state })

/-- A run. -/
def systemRun (n : Nat) (s : ClientSystem l) (es : List SystemEvent) : Option (ClientSystem l) :=
  es.foldl (fun s e => s.bind fun s => systemStep n s e) (some s)

end

end Net
end PtpCore
