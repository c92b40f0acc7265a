import PtpCore.Proof.Server.OneReply

/-!
# The table of users (`ptp_server/ImUser.cpp`, `ptp_server/actions/AuthAction.cpp`)

A user is found by its address, and after a login by its id; it has a map of its connections. The
address of a user never changes, but its id is set by each login that succeeds, and its connections
are known by an address that a login sets. Two things go wrong. A connection that has claimed the
empty address may claim again, and stays in the map of the user it had; and a user that is in the
map of ids under one id can be given another. The table is in order as long as neither happens.
-/

namespace PtpCore
namespace Proof
namespace Server

open Lib Proto
open PtpCore.Global PtpCore.Server

namespace UserTable

/-! ### What is wanted -/

/-- Users that can be found are there, under the keys they have, and their connections are open and
    have their address. -/
structure InOrder (s : MsgServer) : Prop where
  byId : ∀ userId user, s.users.imUserIdMap.find userId = some user → ∃ u,
    s.users.users.find user = some u ∧ u.userId = userId ∧
    s.users.imUserAddressMap.find u.address = some user
  byAddress : ∀ address user, s.users.imUserAddressMap.find address = some user → ∃ u,
    s.users.users.find user = some u ∧ u.address = address
  conns : ∀ user u handle c, s.users.users.find user = some u →
    u.connMap.find handle = some c → ∃ conn, s.conns.find c = some conn ∧
      s.msgConnMap.find handle = some c ∧ conn.handle = handle ∧ conn.address = u.address

/-! ### The invariant -/

/-- The map of addresses has every user, and no others. -/
structure Known (m : CImUserManager) : Prop where
  byAddress : ∀ address user, m.imUserAddressMap.find address = some user → ∃ u,
    m.users.find user = some u ∧ u.address = address
  known : ∀ user u, m.users.find user = some u → m.imUserAddressMap.find u.address = some user
  fresh : ∀ user, m.nextUser ≤ user → m.users.find user = none

/-- A user has the id it can be found by, and a connection is in the map of a user only if it has
    the address of that user. -/
structure Table (conns : Assoc ConnId CMsgSrvConn) (m : CImUserManager) : Prop extends Known m where
  byId : ∀ userId user, m.imUserIdMap.find userId = some user → ∃ u,
    m.users.find user = some u ∧ u.userId = userId
  conns : ∀ user u handle c, m.users.find user = some u → u.connMap.find handle = some c →
    ∃ conn, conns.find c = some conn ∧ conn.handle = handle ∧ conn.address = u.address

/-- Objects and descriptors belong together. What waits for the business server has no part in it. -/
def Paired (s : MsgServer) : Prop := RoutingInv { s with pending := [] }

/-- What holds whatever the clients do. -/
structure ServerInv (s : MsgServer) : Prop where
  paired : Paired s
  users : Known s.users

structure UserInv (s : MsgServer) : Prop where
  paired : Paired s
  table : Table s.conns s.users

theorem UserInv.inOrder {s : MsgServer} (h : UserInv s) : InOrder s := by
  refine ⟨?_, h.table.byAddress, ?_⟩
  · intro userId user hfind
    obtain ⟨u, hu, hid⟩ := h.table.byId userId user hfind
    exact ⟨u, hu, hid, h.table.known user u hu⟩
  · intro user u handle c hu hc
    obtain ⟨conn, hconn, rfl, haddress⟩ := h.table.conns user u handle c hu hc
    exact ⟨conn, hconn, (h.paired.live c conn hconn).map, rfl, haddress⟩

section

variable {conns conns' : Assoc ConnId CMsgSrvConn} {m : CImUserManager} {user : UserRef}
  {u : CImUser}

/-- Connections keep their descriptors and addresses. -/
theorem Table.mono (h : Table conns m)
    (hconns : ∀ c conn, conns.find c = some conn → ∃ conn', conns'.find c = some conn' ∧
      conn'.handle = conn.handle ∧ conn'.address = conn.address) : Table conns' m := by
  refine ⟨h.toKnown, h.byId, ?_⟩
  intro user u handle c hu hc
  obtain ⟨conn, hconn, hhandle, haddress⟩ := h.conns user u handle c hu hc
  obtain ⟨conn', hconn', hhandle', haddress'⟩ := hconns c conn hconn
  exact ⟨conn', hconn', hhandle'.trans hhandle, haddress'.trans haddress⟩

theorem modify_eq (f : CImUser → CImUser) (hu : m.users.find user = some u) :
    m.modify user f = { m with users := m.users.set user (f u) } := by
  rw [CImUserManager.modify, hu]

/-- A user changes, but for its address. -/
theorem Known.setUser (h : Known m) (hu : m.users.find user = some u) {u' : CImUser}
    (haddress : u'.address = u.address) : Known { m with users := m.users.set user u' } := by
  refine ⟨?_, ?_, ?_⟩
  · intro a r hr
    obtain ⟨x, hx, ha⟩ := h.byAddress a r hr
    by_cases hru : r = user
    · subst hru
      cases hu.symm.trans hx
      exact ⟨u', Assoc.find_set_self _ _ _, haddress.trans ha⟩
    · exact ⟨x, (Assoc.find_set_of_ne _ _ hru).trans hx, ha⟩
  · intro r x hx
    rcases Assoc.find_set_iff.mp hx with ⟨rfl, rfl⟩ | ⟨-, hx⟩
    · rw [haddress]
      exact h.known r u hu
    · exact h.known r x hx
  · intro r hr
    have hnone := h.fresh r hr
    have hne : r ≠ user := by
      rintro rfl
      rw [hu] at hnone
      cases hnone
    exact (Assoc.find_set_of_ne _ _ hne).trans hnone

theorem Table.setUser (h : Table conns m) (hu : m.users.find user = some u) {u' : CImUser}
    (haddress : u'.address = u.address)
    (hid : ∀ userId, m.imUserIdMap.find userId = some user → u'.userId = userId)
    (hself : ∀ handle c, u'.connMap.find handle = some c → ∃ conn, conns'.find c = some conn ∧
      conn.handle = handle ∧ conn.address = u.address)
    (hothers : ∀ r x handle c, r ≠ user → m.users.find r = some x →
      x.connMap.find handle = some c → ∃ conn, conns'.find c = some conn ∧
        conn.handle = handle ∧ conn.address = x.address) :
    Table conns' { m with users := m.users.set user u' } := by
  refine ⟨h.toKnown.setUser hu haddress, ?_, ?_⟩
  · intro userId r hr
    by_cases hru : r = user
    · subst hru
      exact ⟨u', Assoc.find_set_self _ _ _, hid userId hr⟩
    · obtain ⟨x, hx, hxid⟩ := h.byId userId r hr
      exact ⟨x, (Assoc.find_set_of_ne _ _ hru).trans hx, hxid⟩
  · intro r x handle d hx hd
    rcases Assoc.find_set_iff.mp hx with ⟨rfl, rfl⟩ | ⟨hru, hx⟩
    · rw [haddress]
      exact hself handle d hd
    · exact hothers r x handle d hru hx hd

theorem Table.userId_eq (h : Table conns m) (hu : m.users.find user = some u) {userId : UInt32}
    (hfind : m.imUserIdMap.find userId = some user) : u.userId = userId := by
  obtain ⟨x, hx, hid⟩ := h.byId userId user hfind
  cases hu.symm.trans hx
  exact hid

/-! ### Closing -/

/-- The user loses the connection, which is closed then. -/
theorem Table.delMsgConn (h : Table conns m) {c : ConnId} {conn : CMsgSrvConn}
    (hconn : conns.find c = some conn) (hu : m.users.find user = some u)
    (huser : m.imUserAddressMap.find conn.address = some user) :
    Table (conns.erase c) { m with users := m.users.set user (u.delMsgConn conn.handle) } := by
  have hkept : ∀ d other, d ≠ c → conns.find d = some other →
      (conns.erase c).find d = some other :=
    fun d other hd hother => (Assoc.find_erase_of_ne _ hd).trans hother
  refine h.setUser hu rfl (fun userId => h.userId_eq hu) ?_ ?_
  · intro handle d hd
    obtain ⟨hne, hd⟩ := Assoc.find_erase_iff.mp hd
    obtain ⟨other, hother, hhandle, haddress⟩ := h.conns user u handle d hu hd
    refine ⟨other, hkept d other ?_ hother, hhandle, haddress⟩
    rintro rfl
    cases hconn.symm.trans hother
    exact hne hhandle.symm
  · intro r x handle d hr hx hd
    obtain ⟨other, hother, hhandle, haddress⟩ := h.conns r x handle d hx hd
    refine ⟨other, hkept d other ?_ hother, hhandle, haddress⟩
    rintro rfl
    -- It would have the address of two users.
    cases hconn.symm.trans hother
    have hknown := h.known r x hx
    rw [← haddress, huser] at hknown
    exact hr (Option.some.inj hknown).symm

/-- A connection that no user has is closed. -/
theorem Table.eraseConn (h : Table conns m) {c : ConnId} {conn : CMsgSrvConn}
    (hconn : conns.find c = some conn) (huser : m.imUserAddressMap.find conn.address = none) :
    Table (conns.erase c) m := by
  refine ⟨h.toKnown, h.byId, ?_⟩
  intro r x handle d hx hd
  obtain ⟨other, hother, hhandle, haddress⟩ := h.conns r x handle d hx hd
  have hdc : d ≠ c := by
    rintro rfl
    cases hconn.symm.trans hother
    have hknown := h.known r x hx
    rw [← haddress, huser] at hknown
    cases hknown
  exact ⟨other, (Assoc.find_erase_of_ne _ hdc).trans hother, hhandle, haddress⟩

/-- `RemoveImUser`. -/
theorem Known.removeImUser (h : Known m) (hu : m.users.find user = some u) :
    Known (m.removeImUser user) := by
  rw [CImUserManager.removeImUser, hu]
  refine ⟨?_, ?_, ?_⟩
  · intro address r hr
    obtain ⟨hne, hr⟩ := Assoc.find_erase_iff.mp hr
    obtain ⟨x, hx, haddress⟩ := h.byAddress address r hr
    refine ⟨x, (Assoc.find_erase_of_ne _ ?_).trans hx, haddress⟩
    rintro rfl
    cases hu.symm.trans hx
    exact hne haddress.symm
  · intro r x hx
    obtain ⟨hr, hx⟩ := Assoc.find_erase_iff.mp hx
    have hknown := h.known r x hx
    refine Assoc.find_erase_iff.mpr ⟨?_, hknown⟩
    intro hsame
    rw [hsame, h.known user u hu] at hknown
    exact hr (Option.some.inj hknown).symm
  · intro r hr
    exact Assoc.find_erase_of_none _ _ (h.fresh r hr)

theorem Table.removeImUser (h : Table conns m) (hu : m.users.find user = some u) :
    Table conns (m.removeImUser user) := by
  refine ⟨h.toKnown.removeImUser hu, ?_, ?_⟩
  · rw [CImUserManager.removeImUser, hu]
    intro userId r hr
    obtain ⟨hne, hr⟩ := Assoc.find_erase_iff.mp hr
    obtain ⟨x, hx, hid⟩ := h.byId userId r hr
    refine ⟨x, (Assoc.find_erase_of_ne _ ?_).trans hx, hid⟩
    rintro rfl
    cases hu.symm.trans hx
    exact hne hid.symm
  · rw [CImUserManager.removeImUser, hu]
    intro r x handle d hx hd
    exact h.conns r x handle d (Assoc.find_erase_iff.mp hx).2 hd

theorem Known.closeUser (h : Known m) (conn : CMsgSrvConn) : Known (MsgServer.closeUser m conn) := by
  unfold MsgServer.closeUser
  split
  next => exact h
  next user huser =>
    obtain ⟨u, hu, -⟩ := h.byAddress conn.address user huser
    have hdel : Known { m with users := m.users.set user (u.delMsgConn conn.handle) } :=
      h.setUser hu rfl
    rw [modify_eq _ hu]
    simp only [Assoc.find_set_self]
    split
    next => exact hdel.removeImUser (Assoc.find_set_self _ _ _)
    next => exact hdel

theorem Table.close (h : Table conns m) {c : ConnId} {conn : CMsgSrvConn}
    (hconn : conns.find c = some conn) :
    Table (conns.erase c) (MsgServer.closeUser m conn) := by
  unfold MsgServer.closeUser
  split
  next hnone => exact h.eraseConn hconn hnone
  next user huser =>
    obtain ⟨u, hu, -⟩ := h.byAddress conn.address user huser
    have hdel := h.delMsgConn hconn hu huser
    rw [modify_eq _ hu]
    simp only [Assoc.find_set_self]
    split
    next => exact hdel.removeImUser (Assoc.find_set_self _ _ _)
    next => exact hdel

/-! ### Logging in -/

theorem Known.find_new (h : Known m) (u' : CImUser) {x : CImUser} {r : UserRef}
    (hx : m.users.find r = some x) : (m.users.set m.nextUser u').find r = some x := by
  have hr : r ≠ m.nextUser := by
    rintro rfl
    rw [h.fresh _ (Nat.le_refl _)] at hx
    cases hx
  exact (Assoc.find_set_of_ne _ _ hr).trans hx

/-- `new CImUser(address)` and `AddImUserByAddress`. -/
theorem Known.newImUser (h : Known m) {address : Bytes}
    (hnone : m.imUserAddressMap.find address = none) :
    Known { m with
      imUserAddressMap := m.imUserAddressMap.set address m.nextUser
      users := m.users.set m.nextUser (.new address)
      nextUser := m.nextUser + 1 } := by
  refine ⟨?_, ?_, ?_⟩
  · intro a r hr
    rcases Assoc.find_set_iff.mp hr with ⟨rfl, rfl⟩ | ⟨-, hr⟩
    · exact ⟨_, Assoc.find_set_self _ _ _, rfl⟩
    · obtain ⟨x, hx, haddress⟩ := h.byAddress a r hr
      exact ⟨x, h.find_new _ hx, haddress⟩
  · intro r x hx
    rcases Assoc.find_set_iff.mp hx with ⟨rfl, rfl⟩ | ⟨-, hx⟩
    · exact Assoc.find_set_self _ _ _
    · have hknown := h.known r x hx
      refine (Assoc.find_set_of_ne _ _ ?_).trans hknown
      intro hsame
      rw [hsame, hnone] at hknown
      cases hknown
  · intro r hr
    have hne : r ≠ m.nextUser := Nat.ne_of_gt hr
    exact (Assoc.find_set_of_ne _ _ hne).trans (h.fresh r (Nat.le_of_succ_le hr))

theorem Table.newImUser (h : Table conns m) {address : Bytes}
    (hnone : m.imUserAddressMap.find address = none) :
    Table conns { m with
      imUserAddressMap := m.imUserAddressMap.set address m.nextUser
      users := m.users.set m.nextUser (.new address)
      nextUser := m.nextUser + 1 } := by
  refine ⟨h.toKnown.newImUser hnone, ?_, ?_⟩
  · intro userId r hr
    obtain ⟨x, hx, hid⟩ := h.byId userId r hr
    exact ⟨x, h.find_new _ hx, hid⟩
  · intro r x handle d hx hd
    rcases Assoc.find_set_iff.mp hx with ⟨rfl, rfl⟩ | ⟨-, hx⟩
    · cases hd
    · exact h.conns r x handle d hx hd

/-- A user that is made is the one that the map of addresses gets. -/
theorem loginUser_new {c : ConnId} {handle : UInt32} {address : Bytes}
    (hnone : m.imUserAddressMap.find address = none) :
    loginUser m c handle address = { m with
      imUserAddressMap := m.imUserAddressMap.set address m.nextUser
      users := (m.users.set m.nextUser (.new address)).set m.nextUser
        ((CImUser.new address).addMsgConn handle c)
      nextUser := m.nextUser + 1 } := by
  have hnone' : (m.newImUser address).2.getImUserByAddress address = none := hnone
  have hadd : (m.newImUser address).2.addImUserByAddress address m.nextUser =
      { m with
        imUserAddressMap := m.imUserAddressMap.set address m.nextUser
        users := m.users.set m.nextUser (.new address)
        nextUser := m.nextUser + 1 } := by
    rw [CImUserManager.addImUserByAddress, hnone']
    rfl
  have hu : (m.users.set m.nextUser (.new address)).find m.nextUser = some (.new address) :=
    Assoc.find_set_self _ _ _
  rw [loginUser, CImUserManager.getImUserByAddress, hnone]
  change ((m.newImUser address).2.addImUserByAddress address m.nextUser).modify m.nextUser _ = _
  rw [hadd]
  exact modify_eq _ hu

theorem loginUser_old {c : ConnId} {handle : UInt32} {address : Bytes}
    (huser : m.imUserAddressMap.find address = some user) (hu : m.users.find user = some u) :
    loginUser m c handle address = { m with users := m.users.set user (u.addMsgConn handle c) } := by
  rw [loginUser, CImUserManager.getImUserByAddress, huser]
  exact modify_eq _ hu

theorem Known.loginUser (h : Known m) (c : ConnId) (handle : UInt32) (address : Bytes) :
    Known (loginUser m c handle address) := by
  cases huser : m.imUserAddressMap.find address with
  | none =>
    rw [loginUser_new huser]
    exact (h.newImUser huser).setUser (Assoc.find_set_self _ _ _) rfl
  | some user =>
    obtain ⟨u, hu, -⟩ := h.byAddress _ user huser
    rw [loginUser_old huser hu]
    exact h.setUser hu rfl

/-- The connection gets the address of a user, who gets the connection. Nobody else has it. -/
theorem Table.addMsgConn (h : Table conns m) {c : ConnId} {conn conn' : CMsgSrvConn}
    (hconn : conns.find c = some conn) (hhandle : conn'.handle = conn.handle)
    (hu : m.users.find user = some u) (haddress : conn'.address = u.address)
    (hfree : ∀ r x handle, m.users.find r = some x → x.connMap.find handle = some c →
      x.address = u.address) :
    Table (conns.set c conn') { m with users := m.users.set user (u.addMsgConn conn.handle c) } := by
  -- An entry that was there before.
  have hold : ∀ r x handle d, m.users.find r = some x → x.connMap.find handle = some d →
      ∃ other, (conns.set c conn').find d = some other ∧ other.handle = handle ∧
        other.address = x.address := by
    intro r x handle d hx hd
    obtain ⟨other, hother, hhandle', haddress'⟩ := h.conns r x handle d hx hd
    by_cases hdc : d = c
    · subst hdc
      cases hconn.symm.trans hother
      exact ⟨conn', Assoc.find_set_self _ _ _, hhandle.trans hhandle',
        haddress.trans (hfree r x handle hx hd).symm⟩
    · exact ⟨other, (Assoc.find_set_of_ne _ _ hdc).trans hother, hhandle', haddress'⟩
  refine h.setUser hu rfl (fun userId => h.userId_eq hu) ?_ fun r x handle d _ => hold r x handle d
  intro handle d hd
  rcases Assoc.find_set_iff.mp hd with ⟨rfl, rfl⟩ | ⟨-, hd⟩
  · exact ⟨conn', Assoc.find_set_self _ _ _, hhandle, haddress⟩
  · exact hold user u handle d hu hd

theorem Table.loginUser (h : Table conns m) {c : ConnId} {conn conn' : CMsgSrvConn}
    (hconn : conns.find c = some conn) (hhandle : conn'.handle = conn.handle)
    (hfree : ∀ r x handle, m.users.find r = some x → x.connMap.find handle = some c →
      x.address = conn'.address) :
    Table (conns.set c conn') (loginUser m c conn.handle conn'.address) := by
  cases huser : m.imUserAddressMap.find conn'.address with
  | some user =>
    obtain ⟨u, hu, haddress⟩ := h.byAddress _ user huser
    rw [loginUser_old huser hu]
    refine h.addMsgConn hconn hhandle hu haddress.symm fun r x handle hx hc => ?_
    rw [haddress]
    exact hfree r x handle hx hc
  | none =>
    rw [loginUser_new huser]
    refine (h.newImUser huser).addMsgConn hconn hhandle (Assoc.find_set_self _ _ _) rfl ?_
    intro r x handle hx hc
    rcases Assoc.find_set_iff.mp hx with ⟨rfl, rfl⟩ | ⟨-, hx⟩
    · rfl
    · exact hfree r x handle hx hc

theorem Known.setUserId (h : Known m) (hu : m.users.find user = some u) (userId handle : UInt32) :
    Known ((m.modify user fun u =>
      { u with userId := userId, handle := handle }).addImUserById userId user) := by
  rw [modify_eq _ hu]
  have hset : Known { m with
      users := m.users.set user { u with userId := userId, handle := handle } } :=
    h.setUser hu rfl
  unfold CImUserManager.addImUserById
  split
  next => exact hset
  next => exact ⟨hset.byAddress, hset.known, hset.fresh⟩

/-- The user of a login that succeeds gets an id, and is in the map of ids then unless that id is
    taken. -/
theorem Table.setUserId (h : Table conns m) (hu : m.users.find user = some u) (userId handle : UInt32)
    (hkept : ∀ k, m.imUserIdMap.find k = some user → k = userId) :
    Table conns ((m.modify user fun u =>
      { u with userId := userId, handle := handle }).addImUserById userId user) := by
  rw [modify_eq _ hu]
  have hset : Table conns { m with
      users := m.users.set user { u with userId := userId, handle := handle } } := by
    refine h.setUser hu rfl (fun k hk => (hkept k hk).symm) ?_ ?_
    · exact fun fd d hd => h.conns user u fd d hu hd
    · exact fun r x fd d _ hx hd => h.conns r x fd d hx hd
  unfold CImUserManager.addImUserById
  split
  next => exact hset
  next =>
    refine ⟨⟨hset.byAddress, hset.known, hset.fresh⟩, ?_, hset.conns⟩
    intro k r hr
    rcases Assoc.find_set_iff.mp hr with ⟨rfl, rfl⟩ | ⟨-, hr⟩
    · exact ⟨_, Assoc.find_set_self _ _ _, rfl⟩
    · exact hset.byId k r hr

end

/-! ### Handlers -/

/-- `ServerLoginRes` opens the connection for this user, with what the message says of it. -/
structure Opens (l : Libs) (env : Env) (request : CRequest) (s : MsgServer) (c : ConnId)
    (conn : CMsgSrvConn) (user : UserRef) (info : UserInfo) (sharedSecret : Bytes) : Prop where
  message : ∃ msg, l.proto.serverLoginRes.parse request.pdu.body = (msg, true) ∧
    info = msg.userInfo.getD {} ∧ ∃ d, CDbAttachData.decode (msg.attachData.getD []) = .ok d
  named : s.users.getImUserByAddress (info.address.getD []) = some user
  found : s.findMsgSrvConnByHandle request.handle = some (c, conn)
  keyed : conn.prvKey.isEmpty = false
  agreed : ∃ pubKeyRaw, l.secp.parse ((info.pubKey.getD [] ++ 0 :: env.beyond).take 33) =
      some pubKeyRaw ∧
    Crypto.ecdhCreateShareKey l.secp pubKeyRaw conn.prvKey = some (some sharedSecret)

/-- What `ServerLoginRes` can do: end with a fault, or reply with an error, or open a connection and
    say so. -/
theorem serverLoginRes_spec (l : Libs) (env : Env) (fill : Nat → UInt8) (request : CRequest)
    (s : MsgServer) :
    (∃ fault, serverLoginRes l env fill request s = (s, .error fault)) ∨
    (∃ e msgRsp, e ≠ .noError ∧ msgRsp.error = some e ∧
      serverLoginRes l env fill request s = (s, .ok (authLoginRes l fill msgRsp request))) ∨
    ∃ c conn user info sharedSecret, Opens l env request s c conn user info sharedSecret ∧
      serverLoginRes l env fill request s =
        (openConn s c conn user request.handle info sharedSecret, .ok (authLoginRes l fill
          { error := some .noError, userInfo := some (replyUser info) } request)) := by
  have hfail {e : ERR} (he : e ≠ .noError) (userInfo : Option UserInfo) :
      (∃ e' msgRsp, e' ≠ .noError ∧ msgRsp.error = some e' ∧
        ((s, .ok (authLoginRes l fill { error := some e, userInfo := userInfo } request)) :
          HandlerResult) = (s, .ok (authLoginRes l fill msgRsp request))) :=
    ⟨e, _, he, rfl, rfl⟩
  rw [serverLoginRes]
  dsimp only
  split
  · exact .inr (.inl (hfail (by simp) none))
  rename_i msg hparse
  split
  · exact .inl ⟨_, rfl⟩
  rename_i d hdecode
  split
  · exact .inr (.inl (hfail (by simp) none))
  rename_i user huser
  split
  · exact .inl ⟨_, rfl⟩
  rename_i c conn hfind
  split
  · exact .inr (.inl (hfail (by simp) _))
  rename_i hkey
  split
  · exact .inr (.inl (hfail (by simp) _))
  rename_i pubKeyRaw hpub
  split
  · exact .inl ⟨_, rfl⟩
  · exact .inr (.inl (hfail (by simp) _))
  rename_i sharedSecret hsecret
  exact .inr (.inr ⟨c, conn, user, msg.userInfo.getD {}, sharedSecret, ⟨⟨msg, hparse, rfl, d, hdecode⟩,
    huser, hfind, by simpa using hkey, pubKeyRaw, hpub, hsecret⟩, rfl⟩)

/-- What keeps the table in order. A connection that claims an address is not one of the user with
    the empty address, or claims that address again; and a user that is in the map of ids is opened
    with the id it has there. -/
def Kept (l : Libs) (env : Env) (s : MsgServer) (request : CRequest) : Action → Prop
  | .authLoginReq => ∀ c conn msg, s.findMsgSrvConnByHandle request.handle = some (c, conn) →
      ¬ TurnedAway l conn request.pdu →
      l.proto.authLoginReq.parse request.pdu.body = (msg, true) →
      ∀ user u, s.users.getImUserByAddress [] = some user → s.users.users.find user = some u →
        u.connMap.find conn.handle = some c → msg.address.getD [] = []
  | .serverLoginRes => ∀ c conn user info sharedSecret,
      Opens l env request s c conn user info sharedSecret →
      ∀ userId, s.users.getImUserById userId = some user → userId = info.uid.getD 0
  | _ => True

section

variable {l : Libs} {env : Env} {s t : MsgServer} {c : ConnId} {conn : CMsgSrvConn} {p : CImPdu}

theorem Paired.live (h : Paired s) (hconn : s.conns.find c = some conn) : Live s c conn :=
  ⟨hconn, (RoutingInv.live h c conn hconn).map⟩

/-- The objects after a step that touches one connection. -/
theorem Paired.touched (h : Paired s) (hconn : s.conns.find c = some conn)
    (ht : Touches c conn s t) : Paired t := by
  have ht' : Touches c conn { s with pending := [] } { t with pending := [] } :=
    ⟨ht.map, ht.next, ht.conns⟩
  refine RoutingInv.touches h hconn ht' ?_
  intro request hmem
  cases hmem

theorem Paired.connect (h : Paired s) {handle : UInt32} (hfree : s.msgConnMap.find handle = none) :
    Paired (s.onConnect handle) := by
  refine RoutingInv.connect h hfree ?_
  intro request hmem
  cases hmem

theorem Paired.close (h : Paired s) (c : ConnId) : Paired (s.close c) := by
  have hclose := RoutingInv.close h c
  rw [MsgServer.close] at hclose
  rw [Paired, MsgServer.close]
  dsimp only at hclose
  cases hconn : s.conns.find c with
  | none => exact h
  | some conn =>
    rw [hconn] at hclose
    exact hclose

theorem Paired.sendPdu (h : Paired s) (pdu : CImPdu) : Paired (s.sendPdu c pdu) := by
  have h' : RoutingInv { s with pending := [] } := h
  exact ⟨fun d other hother => ⟨hother, (h'.live d other hother).map⟩, h'.object, h'.fresh,
    h'.pending, h'.numbered⟩

/-- **One handler**, whatever it is given. -/
theorem ServerInv.run (h : ServerInv s) (hlive : Live s c conn) (fill : Nat → UInt8)
    (action : Action) : ServerInv (action.run l env fill ⟨conn.handle, p⟩ s).1 := by
  refine ⟨h.paired.touched hlive.object (touches_run l env fill p action hlive).1, ?_⟩
  cases action with
  | authCaptchaReq =>
    rw [Action.run]
    rcases authCaptchaReq_cases l env fill p hlive with ⟨msg, heq⟩ | ⟨conn', r, -, -, -, heq, -⟩
    · rw [heq]
      exact h.users
    · rw [heq]
      exact h.users
  | authLoginReq =>
    rw [Action.run]
    rcases authLoginReq_cases l env fill p hlive with ⟨msg, heq⟩ | ⟨msg, -, -, -, heq⟩
    · rw [heq]
      exact h.users
    · rw [heq]
      exact h.users.loginUser _ _ _
  | serverLoginReq =>
    rw [Action.run]
    rcases serverLoginReq_cases l env fill conn.handle p s with
      ⟨msg, -, heq⟩ | ⟨fault, heq⟩ | ⟨msg, login, -, -, heq⟩
    · rw [heq]
      exact h.users
    · rw [heq]
      exact h.users
    · rw [heq]
      exact h.users
  | serverLoginRes =>
    rw [Action.run]
    rcases serverLoginRes_spec l env fill ⟨conn.handle, p⟩ s with
      ⟨fault, heq⟩ | ⟨e, msgRsp, -, -, heq⟩ | ⟨d, other, user, info, secret, ho, heq⟩
    · rw [heq]
      exact h.users
    · rw [heq]
      exact h.users
    · rw [heq]
      obtain ⟨u, hu, -⟩ := h.users.byAddress _ user ho.named
      exact h.users.setUserId hu _ _
  | heartBeatNotify => exact h.users

/-- A setter that leaves descriptor and address alone. -/
theorem Table.setConn {conns : Assoc ConnId CMsgSrvConn} {m : CImUserManager} {conn' : CMsgSrvConn}
    (h : Table conns m) (hconn : conns.find c = some conn) (hhandle : conn'.handle = conn.handle)
    (haddress : conn'.address = conn.address) : Table (conns.set c conn') m := by
  refine h.mono fun d other hother => ?_
  by_cases hd : d = c
  · subst hd
    cases hconn.symm.trans hother
    exact ⟨conn', Assoc.find_set_self _ _ _, hhandle, haddress⟩
  · exact ⟨other, (Assoc.find_set_of_ne _ _ hd).trans hother, rfl, rfl⟩

/-- A connection in the map of a user is one of the user with its address. -/
theorem UserInv.authLoginReq (h : UserInv s) (hlive : Live s c conn) (fill : Nat → UInt8)
    (hkept : Kept l env s ⟨conn.handle, p⟩ .authLoginReq) :
    Table (authLoginReq l env fill ⟨conn.handle, p⟩ s).1.conns
      (authLoginReq l env fill ⟨conn.handle, p⟩ s).1.users := by
  by_cases haway : TurnedAway l conn p
  · obtain ⟨e, -, heq⟩ := authLoginReq_turnedAway l p hlive haway
    rw [heq]
    exact h.table
  · obtain ⟨haddress, -, msg, hparse, -, heq⟩ := authLoginReq_passed l env fill p hlive haway
    rw [heq]
    have hfree : ∀ r x handle, s.users.users.find r = some x → x.connMap.find handle = some c →
        x.address = (claimedConn env conn msg).address := by
      intro r x handle hx hc
      obtain ⟨other, hother, rfl, hsame⟩ := h.table.conns r x handle c hx hc
      cases hlive.object.symm.trans hother
      have hknown := h.table.known r x hx
      rw [← hsame, haddress] at hknown
      rw [← hsame, haddress]
      exact (hkept c conn msg hlive.find haway hparse r x hknown hx hc).symm
    exact h.table.loginUser hlive.object rfl hfree

theorem UserInv.serverLoginRes (h : UserInv s) (fill : Nat → UInt8) {request : CRequest}
    (hkept : Kept l env s request .serverLoginRes) :
    Table (serverLoginRes l env fill request s).1.conns
      (serverLoginRes l env fill request s).1.users := by
  rcases serverLoginRes_spec l env fill request s with
    ⟨fault, heq⟩ | ⟨e, msgRsp, -, -, heq⟩ | ⟨d, other, user, info, secret, ho, heq⟩
  · rw [heq]
    exact h.table
  · rw [heq]
    exact h.table
  · rw [heq]
    have hother := (find_eq_some ho.found).2
    obtain ⟨u, hu, -⟩ := h.table.byAddress _ user ho.named
    have hset : Table (s.conns.set d (openedConn other info secret)) s.users :=
      h.table.setConn hother rfl rfl
    exact hset.setUserId hu _ _ (hkept d other user info secret ho)

/-- **One handler** that keeps the table. -/
theorem UserInv.run (h : UserInv s) (hlive : Live s c conn) (fill : Nat → UInt8) (action : Action)
    (hkept : Kept l env s ⟨conn.handle, p⟩ action) :
    UserInv (action.run l env fill ⟨conn.handle, p⟩ s).1 := by
  refine ⟨h.paired.touched hlive.object (touches_run l env fill p action hlive).1, ?_⟩
  cases action with
  | authCaptchaReq =>
    rw [Action.run]
    rcases authCaptchaReq_cases l env fill p hlive with
      ⟨msg, heq⟩ | ⟨conn', r, hsame, haddress, -, heq, -⟩
    · rw [heq]
      exact h.table
    · rw [heq]
      exact h.table.setConn hlive.object hsame.handle haddress
  | authLoginReq => exact h.authLoginReq hlive fill hkept
  | serverLoginReq =>
    rw [Action.run]
    rcases serverLoginReq_cases l env fill conn.handle p s with
      ⟨msg, -, heq⟩ | ⟨fault, heq⟩ | ⟨msg, login, -, -, heq⟩
    · rw [heq]
      exact h.table
    · rw [heq]
      exact h.table
    · rw [heq]
      exact h.table
  | serverLoginRes => exact h.serverLoginRes fill hkept
  | heartBeatNotify => exact h.table

end

/-! ### PDUs -/

/-- The calls of handlers for one PDU, each with the state it is made in. -/
def handlerCalls (l : Libs) (env : Env) (async : Bool) :
    Nat → ConnId → CImPdu → MsgServer → List (MsgServer × CRequest × Action)
  | 0, _, _, _ => []
  | k + 1, c, pdu, s =>
    match s.conns.find c, getHandler pdu.getCommandId with
    | some conn, some action =>
      if async ∧ pdu.getCommandId = cidAuthLoginReq ∧ env.loginConnOpen = false then []
      else
        (s, ⟨conn.handle, pdu⟩, action) ::
          match action.run l env (env.heap (2 * k)) ⟨conn.handle, pdu⟩ s with
          | (_, .error _) => []
          | (s, .ok response) =>
            match async, response.isPduValid, response.isNext, response.pdu with
            | false, true, true, some pdu => handlerCalls l env async k c pdu s
            | _, _, _, _ => []
    | _, _ => []

/-! ### Runs -/

inductive UserStep
  /-- A client connects, and the system gives this descriptor. -/
  | connect (handle : UInt32)
  | close (c : ConnId)
  /-- A PDU of a client; the server has business servers or handles requests itself. -/
  | recv (async : Bool) (c : ConnId) (env : Env) (p : CImPdu)
  /-- A PDU of a business server. -/
  | answer (env : Env) (p : CImPdu)

section

variable (l : Libs)

def userStep (s : MsgServer) : UserStep → MsgServer
  | .connect handle => s.onConnect handle
  | .close c => s.close c
  | .recv async c env p => (handlePdu l env async c p s).1
  | .answer env p => (handleBusinessPdu l env p s).1

/-- The system gives no descriptor that is open. -/
def UserStep.Possible (s : MsgServer) : UserStep → Prop
  | .connect handle => s.msgConnMap.find handle = none
  | _ => True

/-- `Q` is true of every call of a handler in this step. -/
def UserStep.Calls (Q : Env → MsgServer → CRequest → Action → Prop) (s : MsgServer) :
    UserStep → Prop
  | .recv async c env p => ∀ call ∈ handlerCalls l env async 3 c p s, Q env call.1 call.2.1 call.2.2
  | .answer env p => ∀ c conn, s.findMsgSrvConnByHandle p.getReversed = some (c, conn) →
      ∀ call ∈ handlerCalls l env true 3 c p s, Q env call.1 call.2.1 call.2.2
  | _ => True

/-- `P` is an invariant of the server, if `Q` is true of every call of a handler. -/
structure Keeps (P : MsgServer → Prop) (Q : Env → MsgServer → CRequest → Action → Prop) : Prop where
  paired : ∀ {s}, P s → Paired s
  connect : ∀ {s handle}, P s → s.msgConnMap.find handle = none → P (s.onConnect handle)
  close : ∀ {s} c, P s → P (s.close c)
  sendPdu : ∀ {s} c pdu, P s → P (s.sendPdu c pdu)
  wait : ∀ {s} pending, P s → P { s with pending := pending }
  run : ∀ {s c conn env p action} fill, P s → Live s c conn → Q env s ⟨conn.handle, p⟩ action →
    P (action.run l env fill ⟨conn.handle, p⟩ s).1

end

section

variable {l : Libs} {env : Env} {s : MsgServer} {c : ConnId} {conn : CMsgSrvConn} {p : CImPdu}
  {P : MsgServer → Prop} {Q : Env → MsgServer → CRequest → Action → Prop}

/-- **One PDU**, handled on `c` as often as it is passed on. -/
theorem Keeps.handleNext (keeps : Keeps l P Q) (async : Bool) (k : Nat) (h : P s)
    (hcalls : ∀ call ∈ handlerCalls l env async k c p s, Q env call.1 call.2.1 call.2.2) :
    P (handleNextResponse l env async k c p s).1 := by
  induction k generalizing s p with
  | zero => exact h
  | succ k ih =>
    rw [handlerCalls] at hcalls
    rw [handleNextResponse]
    cases hconn : s.conns.find c with
    | none => exact h
    | some conn =>
      rw [hconn] at hcalls
      dsimp only
      cases haction : getHandler p.getCommandId with
      | none => exact keeps.sendPdu c p h
      | some action =>
        rw [haction] at hcalls
        dsimp only at hcalls ⊢
        split
        next => exact keeps.sendPdu c _ h
        next hopen =>
          rw [if_neg hopen] at hcalls
          have hlive := (keeps.paired h).live hconn
          have hrun := keeps.run (env.heap (2 * k)) h hlive (hcalls _ List.mem_cons_self)
          split
          next s' fault heq =>
            rw [heq] at hrun
            exact hrun
          next s' response heq =>
            rw [heq] at hrun hcalls
            rw [respond]
            split
            next pdu hvalid hpdu =>
              split
              next hnext =>
                cases async with
                | true =>
                  rw [if_pos rfl]
                  split
                  next => exact keeps.wait _ hrun
                  next => exact keeps.sendPdu c _ hrun
                | false =>
                  refine ih hrun fun call hcall => hcalls call (List.mem_cons_of_mem _ ?_)
                  simp only [hvalid, hnext, hpdu]
                  exact hcall
              next => exact keeps.sendPdu c _ hrun
            next => exact hrun

/-- **One step.** -/
theorem Keeps.step (keeps : Keeps l P Q) (e : UserStep) (h : P s) (hpossible : e.Possible s)
    (hcalls : e.Calls l Q s) : P (userStep l s e) := by
  cases e with
  | connect handle => exact keeps.connect h hpossible
  | close c => exact keeps.close c h
  | recv async c env p => exact keeps.handleNext async 3 h hcalls
  | answer env p =>
    rw [userStep, handleBusinessPdu]
    split
    next => exact h
    next =>
      split
      next => exact h
      next c conn hfind => exact keeps.handleNext true 3 h (hcalls c conn hfind)

theorem ServerInv.keeps : Keeps l ServerInv fun _ _ _ _ => True where
  paired h := h.paired
  connect h hfree := ⟨h.paired.connect hfree, h.users⟩
  close {s} c h := by
    refine ⟨h.paired.close c, ?_⟩
    rw [MsgServer.close]
    split
    next => exact h.users
    next conn hconn => exact h.users.closeUser conn
  sendPdu c pdu h := ⟨h.paired.sendPdu pdu, h.users⟩
  wait pending h := ⟨h.paired, h.users⟩
  run fill h hlive _ := h.run hlive fill _

theorem UserInv.keeps : Keeps l UserInv (Kept l) where
  paired h := h.paired
  connect {s handle} h hfree := by
    refine ⟨h.paired.connect hfree, h.table.mono fun d other hother => ?_⟩
    have hd : d ≠ s.nextConn := by
      rintro rfl
      cases (RoutingInv.fresh h.paired _ (Nat.le_refl _)).symm.trans hother
    exact ⟨other, (Assoc.find_set_of_ne _ _ hd).trans hother, rfl, rfl⟩
  close {s} c h := by
    refine ⟨h.paired.close c, ?_⟩
    rw [MsgServer.close]
    split
    next => exact h.table
    next conn hconn => exact h.table.close hconn
  sendPdu c pdu h := ⟨h.paired.sendPdu pdu, h.table⟩
  wait pending h := ⟨h.paired, h.table⟩
  run fill h hlive hkept := h.run hlive fill _ hkept

end

theorem known_empty : Known .empty := ⟨nofun, nofun, fun _ _ => rfl⟩

theorem serverInv_empty : ServerInv .empty := ⟨routingInv_empty, known_empty⟩

theorem userInv_empty : UserInv .empty := ⟨routingInv_empty, known_empty, nofun, nofun⟩

/-- What the server keeps to holds in every state it reaches. -/
theorem serverInv_of_possible (l : Libs) {run : List UserStep}
    (hpossible : EachStep (userStep l) UserStep.Possible .empty run) :
    ServerInv (run.foldl (userStep l) .empty) := by
  refine EachStep.invariant ServerInv (fun s e hinv he => ?_) serverInv_empty hpossible
  refine ServerInv.keeps.step e hinv he ?_
  cases e with
  | recv async c env p => exact fun _ _ => trivial
  | answer env p => exact fun _ _ _ _ _ => trivial
  | _ => trivial

/-- Every call of a handler in this step keeps the table in order. -/
def UserStep.Kept (l : Libs) (s : MsgServer) (e : UserStep) : Prop := e.Calls l (UserTable.Kept l) s

/-- **The table of users is in order** in every state of a run whose steps keep it so. -/
theorem inOrder_of_kept (l : Libs) (run : List UserStep)
    (hpossible : EachStep (userStep l) UserStep.Possible .empty run)
    (hkept : EachStep (userStep l) (UserStep.Kept l) .empty run) :
    InOrder (run.foldl (userStep l) .empty) :=
  (EachStep.invariant UserInv (fun _ e hinv he => UserInv.keeps.step e hinv he.1 he.2) userInv_empty
    (hpossible.and hkept)).inOrder

/-- Nothing can go wrong before there is a user with an id or with the empty address. -/
theorem kept_of_unnamed {l : Libs} {env : Env} {s : MsgServer} {request : CRequest} {action : Action}
    (h : s.users.imUserIdMap.isEmpty && (s.users.imUserAddressMap.find []).isNone) :
    Kept l env s request action := by
  obtain ⟨hid, haddress⟩ := Bool.and_eq_true_iff.mp h
  cases action with
  | authLoginReq =>
    intro c conn msg _ _ _ user u huser
    rw [CImUserManager.getImUserByAddress, Option.isNone_iff_eq_none.mp haddress] at huser
    cases huser
  | serverLoginRes =>
    intro c conn user info secret _ userId huser
    rw [CImUserManager.getImUserById, List.isEmpty_iff.mp hid] at huser
    cases huser
  | _ => trivial

def joinRun : List UserStep :=
  [.connect 5, .recv false 0 sampleEnv captchaPdu,
    .recv false 0 sampleEnv (loginPdu clientAddress (clientSig64 ++ [0]))]

theorem inOrder_joinRun : InOrder (joinRun.foldl (userStep sampleLibs) .empty) ∧
    (joinRun.foldl (userStep sampleLibs) .empty).users.getImUserById 7 = some 0 := by
  have hrun : ((handlerCalls sampleLibs sampleEnv false 3 0 captchaPdu sampleServer).all
        fun call => call.1.users.imUserIdMap.isEmpty &&
          (call.1.users.imUserAddressMap.find []).isNone) ∧
      ((handlerCalls sampleLibs sampleEnv false 3 0 (loginPdu clientAddress (clientSig64 ++ [0]))
          (userStep sampleLibs sampleServer (.recv false 0 sampleEnv captchaPdu))).all
        fun call => call.1.users.imUserIdMap.isEmpty &&
          (call.1.users.imUserAddressMap.find []).isNone) ∧
      (joinRun.foldl (userStep sampleLibs) .empty).users.getImUserById 7 = some 0 := by
    simp only [joinRun, captchaPdu, loginPdu, sampleLibs, sampleSecp, sampleKeys, sample_bytes,
      toBE_eq_consBE]
    decide +kernel
  obtain ⟨hfirst, hsecond, hid⟩ := hrun
  refine ⟨inOrder_of_kept sampleLibs joinRun ⟨rfl, trivial, trivial, trivial⟩
    ⟨trivial, fun call hcall => ?_, fun call hcall => ?_, trivial⟩, hid⟩
  · exact kept_of_unnamed (List.all_eq_true.mp hfirst call hcall)
  · exact kept_of_unnamed (List.all_eq_true.mp hsecond call hcall)

/-- The client claims the empty address, then another one, and closes the connection. -/
def twiceRun : List UserStep :=
  [.connect 5, .recv true 0 sampleEnv captchaPdu,
    .recv true 0 sampleEnv (loginPdu [] (List.replicate 65 0)),
    .recv true 0 sampleEnv captchaPdu,
    .recv true 0 sampleEnv (loginPdu clientAddress (clientSig64 ++ [0])), .close 0]

/-- The user of the empty address is left with a connection that is gone. -/
theorem not_inOrder_twiceRun :
    EachStep (userStep sampleLibs) UserStep.Possible .empty twiceRun ∧
      ¬ InOrder (twiceRun.foldl (userStep sampleLibs) .empty) := by
  refine ⟨⟨rfl, trivial, trivial, trivial, trivial, trivial, trivial⟩, ?_⟩
  intro h
  have hleft : ((twiceRun.foldl (userStep sampleLibs) .empty).users.users.find 0).map
        (fun u => u.connMap.find 5) = some (some 0) ∧
      (twiceRun.foldl (userStep sampleLibs) .empty).conns = [] := by
    simp only [twiceRun, captchaPdu, loginPdu, sampleLibs, sampleSecp, sampleKeys, sample_bytes,
      toBE_eq_consBE]
    decide +kernel
  obtain ⟨hheld, hgone⟩ := hleft
  obtain ⟨u, hu, hconn⟩ := Option.map_eq_some_iff.mp hheld
  obtain ⟨conn, hfind, -⟩ := h.conns 0 u 5 0 hu hconn
  rw [hgone] at hfind
  cases hfind

end UserTable

end Server
end Proof
end PtpCore
