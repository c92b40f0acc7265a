import PtpCore.Lib.Assoc
import PtpCore.Lib.Bytes

/-!
# Users (`ptp_server/ImUser.cpp`)

A `CImUser` is a user with at least one connection that has asked to log in, whether or not it
has. The manager finds users by address and, after a login, by id. Users are allocated, and the
maps hold pointers: `users` is the heap, and a `UserRef` a pointer into it.
-/

namespace PtpCore
namespace Server

open Lib

/-- A pointer to a `CMsgSrvConn`. -/
abbrev ConnId := Nat

/-- A pointer to a `CImUser`. -/
abbrev UserRef := Nat

structure CImUser where
  userId : UInt32
  address : Bytes
  handle : UInt32
  connMap : Assoc UInt32 ConnId
  deriving DecidableEq, Repr

namespace CImUser

def new (address : Bytes) : CImUser := ⟨0, address, 0, []⟩

def addMsgConn (u : CImUser) (handle : UInt32) (conn : ConnId) : CImUser :=
  { u with connMap := u.connMap.set handle conn }

def delMsgConn (u : CImUser) (handle : UInt32) : CImUser :=
  { u with connMap := u.connMap.erase handle }

def isMsgConnEmpty (u : CImUser) : Bool := u.connMap.isEmpty

end CImUser

structure CImUserManager where
  imUserIdMap : Assoc UInt32 UserRef
  imUserAddressMap : Assoc Bytes UserRef
  users : Assoc UserRef CImUser
  nextUser : UserRef
  deriving DecidableEq, Repr

namespace CImUserManager

def empty : CImUserManager := ⟨[], [], [], 0⟩

def getImUserById (m : CImUserManager) (userId : UInt32) : Option UserRef :=
  m.imUserIdMap.find userId

def getImUserByAddress (m : CImUserManager) (address : Bytes) : Option UserRef :=
  m.imUserAddressMap.find address

/-- `new CImUser(address)`. -/
def newImUser (m : CImUserManager) (address : Bytes) : UserRef × CImUserManager :=
  (m.nextUser, { m with
    users := m.users.set m.nextUser (CImUser.new address)
    nextUser := m.nextUser + 1 })

/-- A member function called through a pointer. -/
def modify (m : CImUserManager) (user : UserRef) (f : CImUser → CImUser) : CImUserManager :=
  match m.users.find user with
  | some u => { m with users := m.users.set user (f u) }
  | none => m

def addImUserById (m : CImUserManager) (userId : UInt32) (user : UserRef) : CImUserManager :=
  match m.getImUserById userId with
  | some _ => m
  | none => { m with imUserIdMap := m.imUserIdMap.set userId user }

def addImUserByAddress (m : CImUserManager) (address : Bytes) (user : UserRef) : CImUserManager :=
  match m.getImUserByAddress address with
  | some _ => m
  | none => { m with imUserAddressMap := m.imUserAddressMap.set address user }

/-- `RemoveImUser`: out of both maps, under the id and the address it has now, and deleted. -/
def removeImUser (m : CImUserManager) (user : UserRef) : CImUserManager :=
  match m.users.find user with
  | some u => { m with
      imUserIdMap := m.imUserIdMap.erase u.userId
      imUserAddressMap := m.imUserAddressMap.erase u.address
      users := m.users.erase user }
  | none => m

end CImUserManager

end Server
end PtpCore
