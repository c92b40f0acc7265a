import PtpCore.Lib.Run
import PtpCore.Proof.Net.ClientConn

/-!
# The two maps of the client's connections

`Connect` enters a connection under its descriptor and under its account, and overwrites neither
entry; `Close` erases the entry of the account, whoever it belongs to. The maps stay right as long
as an account has one registered connection at a time, which nothing in `Connect` sees to.
-/

namespace PtpCore
namespace Proof
namespace Net

open Lib
open PtpCore.Net

/-! ## Runs -/

/-- What is called on connections. -/
inductive ConnCall
  | new (now : UInt64)
  | connect (c : ClientConnRef) (handle : Int) (accountId : UInt32)
  | close (c : ClientConnRef)

/-- The client, and the connections in the order in which they got a descriptor. -/
structure Connects where
  client : ClientState
  order : List ClientConnRef

def Connects.start : Connects := ⟨.start, []⟩

def connStep (s : Connects) : ConnCall → Connects
  | .new now => { s with client := (s.client.newConn now).2 }
  | .connect c handle accountId =>
    ⟨s.client.connect c handle accountId,
      if handle ≠ netlibInvalidHandle then s.order ++ [c] else s.order⟩
  | .close c => { s with client := s.client.close c }

/-- A member function is called on an object that exists, and the system hands out no descriptor
    that is in use. -/
def Callable (s : Connects) : ConnCall → Prop
  | .new _ => True
  | .connect c handle _ => s.client.conns.find c ≠ none ∧ s.client.msgConnMap.find handle = none
  | .close c => s.client.conns.find c ≠ none

/-- `Connect` is called on an object that is not registered, and gets a descriptor only for an
    account that has no registered connection. -/
def OneEach (s : Connects) : ConnCall → Prop
  | .connect c handle accountId =>
    ∀ c' conn, Registered s.client c' conn →
      c' ≠ c ∧ (handle ≠ netlibInvalidHandle → conn.accountId ≠ accountId)
  | _ => True

/-- A registered connection of this account. -/
def isOf (s : ClientState) (accountId : UInt32) (c : ClientConnRef) : Bool :=
  (s.conns.find c).any fun conn =>
    conn.accountId = accountId ∧ s.msgConnMap.find conn.handle = some c

theorem isOf_iff {s : ClientState} {accountId : UInt32} {c : ClientConnRef} :
    isOf s accountId c = true ↔ ∃ conn, Registered s c conn ∧ conn.accountId = accountId := by
  rw [isOf]
  constructor
  · intro h
    cases hconn : s.conns.find c with
    | none => simp [hconn] at h
    | some conn =>
      simp only [hconn, Option.any_some, decide_eq_true_eq] at h
      exact ⟨conn, ⟨hconn, h.2⟩, h.1⟩
  · rintro ⟨conn, hreg, haccount⟩
    simp [hreg.1, hreg.2, haccount]

/-- The registered connection of an account that was connected last. -/
def latest (s : Connects) (accountId : UInt32) : Option ClientConnRef :=
  s.order.reverse.find? (isOf s.client accountId)

structure AccountMaps (s : Connects) : Prop where
  /-- An entry is a live connection of that account, and registered. -/
  entry : ∀ accountId c, s.client.accountMsgConnMap.find accountId = some c →
    ∃ conn, Registered s.client c conn ∧ conn.accountId = accountId
  hasEntry : ∀ c conn, Registered s.client c conn →
    s.client.accountMsgConnMap.find conn.accountId ≠ none
  latest : ∀ accountId, s.client.getConn accountId = latest s accountId
  /-- `Close` leaves the entries of others. -/
  close : ∀ c accountId c', s.client.accountMsgConnMap.find accountId = some c' → c' ≠ c →
    (s.client.close c).accountMsgConnMap.find accountId = some c'

/-! ## The invariant -/

structure MapsInv (s : Connects) : Prop where
  /-- A descriptor is the one of its connection. -/
  handle : ∀ h c, s.client.msgConnMap.find h = some c →
    h ≠ netlibInvalidHandle ∧ ∃ conn, s.client.conns.find c = some conn ∧ conn.handle = h
  /-- A connection with a descriptor has its entries in both maps. -/
  entered : ∀ c conn, s.client.conns.find c = some conn → conn.handle ≠ netlibInvalidHandle →
    s.client.msgConnMap.find conn.handle = some c ∧
      s.client.accountMsgConnMap.find conn.accountId = some c ∧ c ∈ s.order
  entry : ∀ accountId c, s.client.accountMsgConnMap.find accountId = some c →
    ∃ conn, Registered s.client c conn ∧ conn.accountId = accountId
  fresh : ∀ c, s.client.conns.find c ≠ none → c < s.client.nextConn

variable {s : Connects} {c : ClientConnRef} {conn : CClientConn}

theorem MapsInv.registered_iff (h : MapsInv s) :
    Registered s.client c conn ↔
      s.client.conns.find c = some conn ∧ conn.handle ≠ netlibInvalidHandle :=
  ⟨fun hreg => ⟨hreg.1, (h.handle _ _ hreg.2).1⟩,
    fun hconn => ⟨hconn.1, (h.entered c conn hconn.1 hconn.2).1⟩⟩

theorem MapsInv.find_account (h : MapsInv s) (hreg : Registered s.client c conn) :
    s.client.accountMsgConnMap.find conn.accountId = some c :=
  have hconn := h.registered_iff.mp hreg
  (h.entered c conn hconn.1 hconn.2).2.1

theorem MapsInv.latest (h : MapsInv s) (accountId : UInt32) :
    s.client.getConn accountId = latest s accountId := by
  -- whatever is found is registered for the account, and so is its one entry
  have hone {c : ClientConnRef} (hc : isOf s.client accountId c = true) :
      s.client.accountMsgConnMap.find accountId = some c := by
    obtain ⟨conn, hreg, haccount⟩ := isOf_iff.mp hc
    exact haccount ▸ h.find_account hreg
  rw [ClientState.getConn, Net.latest]
  cases hlatest : s.order.reverse.find? (isOf s.client accountId) with
  | some c => exact hone (List.find?_some hlatest)
  | none =>
    rw [List.find?_eq_none] at hlatest
    cases hentry : s.client.accountMsgConnMap.find accountId with
    | none => rfl
    | some c =>
      obtain ⟨conn, hreg, haccount⟩ := h.entry accountId c hentry
      obtain ⟨hconn, hvalid⟩ := h.registered_iff.mp hreg
      have hmem : c ∈ s.order.reverse := List.mem_reverse.mpr (h.entered c conn hconn hvalid).2.2
      exact absurd (isOf_iff.mpr ⟨conn, hreg, haccount⟩) (hlatest c hmem)

/-! ## `Close`

The objects and both maps forget the connection that is closed, and nothing else. -/

section

variable (h : MapsInv s) (hconn : s.client.conns.find c = some conn)

include h hconn

omit h in
theorem find_conns_close {c' : ClientConnRef} {conn' : CClientConn} :
    (s.client.close c).conns.find c' = some conn' ↔
      c' ≠ c ∧ s.client.conns.find c' = some conn' := by
  rw [(afterClose hconn).conns, Assoc.find_erase]
  by_cases hc : c' = c
  · simp [hc]
  · simp [hc]

theorem MapsInv.find_msg_close {handle : Int} {c' : ClientConnRef} :
    (s.client.close c).msgConnMap.find handle = some c' ↔
      c' ≠ c ∧ s.client.msgConnMap.find handle = some c' := by
  -- an entry of the map is under the descriptor of its connection
  have hother (hne : handle ≠ conn.handle) (hfind : s.client.msgConnMap.find handle = some c') :
      c' ≠ c := by
    rintro rfl
    obtain ⟨-, conn', hconn', hhandle⟩ := h.handle handle c' hfind
    cases hconn.symm.trans hconn'
    exact hne hhandle.symm
  rw [(afterClose hconn).msgConnMap]
  by_cases hvalid : conn.handle ≠ netlibInvalidHandle
  · rw [if_pos hvalid, Assoc.find_erase]
    by_cases hhandle : handle = conn.handle
    · rw [if_pos hhandle, hhandle, (h.entered c conn hconn hvalid).1]
      simp [eq_comm]
    · rw [if_neg hhandle]
      exact ⟨fun hfind => ⟨hother hhandle hfind, hfind⟩, And.right⟩
  · rw [if_neg hvalid]
    refine ⟨fun hfind => ⟨hother ?_ hfind, hfind⟩, And.right⟩
    exact fun heq => (h.handle handle c' hfind).1 (heq.trans (not_not.mp hvalid))

theorem MapsInv.find_account_close {accountId : UInt32} {c' : ClientConnRef} :
    (s.client.close c).accountMsgConnMap.find accountId = some c' ↔
      c' ≠ c ∧ s.client.accountMsgConnMap.find accountId = some c' := by
  rw [(afterClose hconn).accountMsgConnMap]
  by_cases hvalid : conn.handle ≠ netlibInvalidHandle
  · rw [if_pos hvalid, Assoc.find_erase]
    by_cases haccount : accountId = conn.accountId
    · rw [if_pos haccount, haccount, (h.entered c conn hconn hvalid).2.1]
      simp [eq_comm]
    · rw [if_neg haccount]
      refine ⟨fun hfind => ⟨?_, hfind⟩, And.right⟩
      rintro rfl
      obtain ⟨conn', hreg, hacc⟩ := h.entry accountId c' hfind
      cases hconn.symm.trans hreg.1
      exact haccount hacc.symm
  · rw [if_neg hvalid]
    refine ⟨fun hfind => ⟨?_, hfind⟩, And.right⟩
    rintro rfl
    obtain ⟨conn', hreg, -⟩ := h.entry accountId c' hfind
    cases hconn.symm.trans hreg.1
    exact hvalid (h.registered_iff.mp hreg).2

theorem MapsInv.close : MapsInv (connStep s (.close c)) := by
  refine ⟨?_, ?_, ?_, ?_⟩
  · intro handle c' hfind
    obtain ⟨hne, hold⟩ := (h.find_msg_close hconn).mp hfind
    obtain ⟨hvalid, conn', hconn', hhandle⟩ := h.handle handle c' hold
    exact ⟨hvalid, conn', (find_conns_close hconn).mpr ⟨hne, hconn'⟩, hhandle⟩
  · intro c' conn' hfind hvalid
    obtain ⟨hne, hold⟩ := (find_conns_close hconn).mp hfind
    obtain ⟨hm, ha, horder⟩ := h.entered c' conn' hold hvalid
    exact ⟨(h.find_msg_close hconn).mpr ⟨hne, hm⟩, (h.find_account_close hconn).mpr ⟨hne, ha⟩,
      horder⟩
  · intro accountId c' hfind
    obtain ⟨hne, hold⟩ := (h.find_account_close hconn).mp hfind
    obtain ⟨conn', hreg, haccount⟩ := h.entry accountId c' hold
    exact ⟨conn', ⟨(find_conns_close hconn).mpr ⟨hne, hreg.1⟩,
      (h.find_msg_close hconn).mpr ⟨hne, hreg.2⟩⟩, haccount⟩
  · intro c' hfind
    obtain ⟨conn', hconn'⟩ := Option.ne_none_iff_exists'.mp hfind
    have hlt := h.fresh c' (by simp [((find_conns_close hconn).mp hconn').2])
    exact hlt.trans_eq (afterClose hconn).nextConn.symm

end

theorem MapsInv.accountMaps (h : MapsInv s) : AccountMaps s where
  entry := h.entry
  hasEntry := fun c conn hreg hnone => by
    rw [h.find_account hreg] at hnone
    cases hnone
  latest := h.latest
  close := fun c accountId c' hentry hne => by
    cases hconn : s.client.conns.find c with
    | none =>
      rw [ClientState.close, hconn]
      exact hentry
    | some conn => exact (h.find_account_close hconn).mpr ⟨hne, hentry⟩

/-! ## `new` and `Connect` -/

theorem mapsInv_start : MapsInv Connects.start := by
  refine ⟨?_, ?_, ?_, ?_⟩
  · intro h c hfind
    cases hfind
  · intro c conn hfind
    cases hfind
  · intro accountId c hfind
    cases hfind
  · intro c hfind
    exact absurd rfl hfind

/-- A new object has no descriptor, and changes nothing for the others. -/
theorem MapsInv.new (h : MapsInv s) (now : UInt64) : MapsInv (connStep s (.new now)) := by
  have hold {c : ClientConnRef} {conn : CClientConn} (hconn : s.client.conns.find c = some conn) :
      (connStep s (.new now)).client.conns.find c = some conn := by
    have hlt := h.fresh c (by simp [hconn])
    exact (Assoc.find_set_of_ne _ _ (Nat.ne_of_lt hlt)).trans hconn
  refine ⟨?_, ?_, ?_, ?_⟩
  · intro handle c hfind
    obtain ⟨hvalid, conn, hconn, hhandle⟩ := h.handle handle c hfind
    exact ⟨hvalid, conn, hold hconn, hhandle⟩
  · intro c conn hconn hvalid
    by_cases hc : c = s.client.nextConn
    · subst hc
      have hnew := (Assoc.find_set_self s.client.conns s.client.nextConn _).symm.trans hconn
      cases hnew
      exact absurd rfl hvalid
    · exact h.entered c conn ((Assoc.find_set_of_ne _ _ hc).symm.trans hconn) hvalid
  · intro accountId c hentry
    obtain ⟨conn, hreg, haccount⟩ := h.entry accountId c hentry
    exact ⟨conn, ⟨hold hreg.1, hreg.2⟩, haccount⟩
  · intro c hfind
    by_cases hc : c = s.client.nextConn
    · exact hc ▸ Nat.lt_succ_self _
    · have hfound : s.client.conns.find c ≠ none := by
        intro hnone
        exact hfind ((Assoc.find_set_of_ne _ _ hc).trans hnone)
      exact (h.fresh c hfound).trans (Nat.lt_succ_self _)

theorem find_conns_connect (hconn : s.client.conns.find c = some conn) {handle : Int}
    {accountId : UInt32} {c' : ClientConnRef} {conn' : CClientConn} :
    (s.client.connect c handle accountId).conns.find c' = some conn' ↔
      c' = c ∧ conn' = dialled conn handle accountId ∨
        c' ≠ c ∧ s.client.conns.find c' = some conn' := by
  rw [(afterConnect hconn).conns]
  by_cases hc : c' = c
  · subst hc
    simp [eq_comm]
  · rw [Assoc.find_set_of_ne _ _ hc]
    simp [hc]

section

variable {handle : Int} {accountId : UInt32}

theorem MapsInv.fresh_connect (h : MapsInv s) (hlive : s.client.conns.find c ≠ none)
    (c' : ClientConnRef) (hfind : (s.client.connect c handle accountId).conns.find c' ≠ none) :
    c' < (s.client.connect c handle accountId).nextConn := by
  obtain ⟨conn, hconn⟩ := Option.ne_none_iff_exists'.mp hlive
  obtain ⟨conn', hconn'⟩ := Option.ne_none_iff_exists'.mp hfind
  rw [(afterConnect hconn).nextConn]
  rcases (find_conns_connect hconn).mp hconn' with ⟨rfl, -⟩ | ⟨-, hold⟩
  · exact h.fresh c' hlive
  · exact h.fresh c' (by simp [hold])

/-- `Connect` on an object that is not registered leaves the registered ones. -/
theorem OneEach.find_conns (hone : OneEach s (.connect c handle accountId))
    (hlive : s.client.conns.find c ≠ none) {c' : ClientConnRef} {conn' : CClientConn}
    (hreg : Registered s.client c' conn') :
    (s.client.connect c handle accountId).conns.find c' = some conn' := by
  obtain ⟨conn, hconn⟩ := Option.ne_none_iff_exists'.mp hlive
  exact (find_conns_connect hconn).mpr (.inr ⟨(hone c' conn' hreg).1, hreg.1⟩)

/-- It is entered in both maps, where there was nothing. -/
theorem MapsInv.connect_valid (h : MapsInv s) (hvalid : handle ≠ netlibInvalidHandle)
    (hcall : Callable s (.connect c handle accountId))
    (hone : OneEach s (.connect c handle accountId)) :
    MapsInv (connStep s (.connect c handle accountId)) := by
  obtain ⟨hlive, hunused⟩ := hcall
  obtain ⟨conn, hconn⟩ := Option.ne_none_iff_exists'.mp hlive
  have hafter : AfterConnect s.client (s.client.connect c handle accountId) c conn handle accountId :=
    afterConnect hconn
  have hnone : s.client.accountMsgConnMap.find accountId = none := by
    rw [Option.eq_none_iff_forall_ne_some]
    intro c' hentry
    obtain ⟨conn', hreg, haccount⟩ := h.entry accountId c' hentry
    exact (hone c' conn' hreg).2 hvalid haccount
  have hmsg {handle' : Int} {c' : ClientConnRef} :
      (s.client.connect c handle accountId).msgConnMap.find handle' = some c' ↔
        handle' = handle ∧ c' = c ∨ s.client.msgConnMap.find handle' = some c' := by
    rw [hafter.msgConnMap, if_pos hvalid]
    exact Assoc.find_insert_iff hunused
  have hacc {account : UInt32} {c' : ClientConnRef} :
      (s.client.connect c handle accountId).accountMsgConnMap.find account = some c' ↔
        account = accountId ∧ c' = c ∨ s.client.accountMsgConnMap.find account = some c' := by
    rw [hafter.accountMsgConnMap, if_pos hvalid]
    exact Assoc.find_insert_iff hnone
  refine ⟨?_, ?_, ?_, h.fresh_connect hlive⟩
  · intro handle' c' hfind
    rcases hmsg.mp hfind with ⟨rfl, rfl⟩ | hold
    · exact ⟨hvalid, _, (find_conns_connect hconn).mpr (.inl ⟨rfl, rfl⟩), rfl⟩
    · obtain ⟨hv, conn', hconn', rfl⟩ := h.handle handle' c' hold
      exact ⟨hv, conn', hone.find_conns hlive ⟨hconn', hold⟩, rfl⟩
  · intro c' conn' hfind hv
    have horder : (connStep s (.connect c handle accountId)).order = s.order ++ [c] :=
      if_pos hvalid
    rw [horder]
    rcases (find_conns_connect hconn).mp hfind with ⟨rfl, rfl⟩ | ⟨-, hold⟩
    · exact ⟨hmsg.mpr (.inl ⟨rfl, rfl⟩), hacc.mpr (.inl ⟨rfl, rfl⟩), by simp⟩
    · obtain ⟨hm, ha, hmem⟩ := h.entered c' conn' hold hv
      exact ⟨hmsg.mpr (.inr hm), hacc.mpr (.inr ha), List.mem_append_left _ hmem⟩
  · intro account c' hfind
    rcases hacc.mp hfind with ⟨rfl, rfl⟩ | hold
    · exact ⟨_, ⟨(find_conns_connect hconn).mpr (.inl ⟨rfl, rfl⟩), hmsg.mpr (.inl ⟨rfl, rfl⟩)⟩, rfl⟩
    · obtain ⟨conn', hreg, haccount⟩ := h.entry account c' hold
      exact ⟨conn', ⟨hone.find_conns hlive hreg, hmsg.mpr (.inr hreg.2)⟩, haccount⟩

/-- `netlib_connect` failed, and nothing is entered. -/
theorem MapsInv.connect_invalid (h : MapsInv s) (hinvalid : ¬ handle ≠ netlibInvalidHandle)
    (hlive : s.client.conns.find c ≠ none) (hone : OneEach s (.connect c handle accountId)) :
    MapsInv (connStep s (.connect c handle accountId)) := by
  obtain ⟨conn, hconn⟩ := Option.ne_none_iff_exists'.mp hlive
  have hafter : AfterConnect s.client (s.client.connect c handle accountId) c conn handle accountId :=
    afterConnect hconn
  have hmsg := hafter.msgConnMap
  have hacc := hafter.accountMsgConnMap
  rw [if_neg hinvalid] at hmsg hacc
  refine ⟨?_, ?_, ?_, h.fresh_connect hlive⟩
  · intro handle' c' hfind
    have hold : s.client.msgConnMap.find handle' = some c' := hmsg ▸ hfind
    obtain ⟨hv, conn', hconn', rfl⟩ := h.handle handle' c' hold
    exact ⟨hv, conn', hone.find_conns hlive ⟨hconn', hold⟩, rfl⟩
  · intro c' conn' hfind hv
    have horder : (connStep s (.connect c handle accountId)).order = s.order := if_neg hinvalid
    rcases (find_conns_connect hconn).mp hfind with ⟨rfl, rfl⟩ | ⟨-, hold⟩
    · exact absurd hv hinvalid
    · obtain ⟨hm, ha, hmem⟩ := h.entered c' conn' hold hv
      exact ⟨hmsg ▸ hm, hacc ▸ ha, horder ▸ hmem⟩
  · intro account c' hfind
    obtain ⟨conn', hreg, haccount⟩ := h.entry account c' (hacc ▸ hfind)
    exact ⟨conn', ⟨hone.find_conns hlive hreg, hmsg ▸ hreg.2⟩, haccount⟩

/-- `Connect` on an object that is not registered, for an account that has no connection. -/
theorem MapsInv.connect (h : MapsInv s) (hcall : Callable s (.connect c handle accountId))
    (hone : OneEach s (.connect c handle accountId)) :
    MapsInv (connStep s (.connect c handle accountId)) := by
  by_cases hvalid : handle ≠ netlibInvalidHandle
  · exact h.connect_valid hvalid hcall hone
  · exact h.connect_invalid hvalid hcall.1 hone

end

theorem MapsInv.step (h : MapsInv s) {e : ConnCall} (hcall : Callable s e) (hone : OneEach s e) :
    MapsInv (connStep s e) := by
  cases e with
  | new now => exact h.new now
  | connect c handle accountId => exact h.connect hcall hone
  | close c =>
    obtain ⟨conn, hconn⟩ := Option.ne_none_iff_exists'.mp hcall
    exact h.close hconn

/-- **The maps.** As long as an account has one registered connection at a time, both maps are right
    after every call. -/
theorem accountMaps_of_oneEach (es : List ConnCall)
    (hcall : EachStep connStep Callable Connects.start es)
    (hone : EachStep connStep OneEach Connects.start es) :
    ∀ pre, pre <+: es → AccountMaps (pre.foldl connStep Connects.start) := by
  intro pre hpre
  obtain ⟨post, rfl⟩ := hpre
  have hsteps := (eachStep_append.mp (hcall.and hone)).1
  have hkeep : ∀ s e, MapsInv s → Callable s e ∧ OneEach s e → MapsInv (connStep s e) :=
    fun s e h he => h.step he.1 he.2
  exact (hsteps.invariant MapsInv hkeep mapsInv_start).accountMaps

/-- The condition, read off the map by descriptor. -/
theorem oneEach_of_forall {handle : Int} {accountId : UInt32}
    (h : ∀ entry ∈ s.client.msgConnMap, entry.2 ≠ c ∧
      (s.client.conns.find entry.2).all (·.accountId ≠ accountId)) :
    OneEach s (.connect c handle accountId) := by
  intro c' conn hreg
  obtain ⟨hne, hall⟩ := h _ (Assoc.mem_of_find hreg.2)
  rw [hreg.1] at hall
  exact ⟨hne, fun _ => by simpa using hall⟩

/-- Two accounts connect, and the first closes. -/
def twoConnects : List ConnCall := [.new 0, .connect 0 5 1, .new 0, .connect 1 6 2, .close 0]

theorem accountMaps_twoConnects :
    (twoConnects.foldl connStep Connects.start).client.getConn 2 = some 1 ∧
      AccountMaps (twoConnects.foldl connStep Connects.start) := by
  refine ⟨rfl, accountMaps_of_oneEach twoConnects ?_ ?_ _ (List.prefix_refl _)⟩
  · exact ⟨trivial, ⟨by decide, rfl⟩, trivial, ⟨by decide, rfl⟩, Option.some_ne_none _, trivial⟩
  · exact ⟨trivial, oneEach_of_forall (by decide), trivial, oneEach_of_forall (by decide), trivial,
      trivial⟩

/-- One account connects again while its first connection is registered, and the second closes. -/
def reconnects : List ConnCall := [.new 0, .connect 0 5 1, .new 0, .connect 1 6 1, .close 1]

theorem not_accountMaps_reconnects :
    EachStep connStep Callable Connects.start reconnects ∧
      ¬ AccountMaps ((reconnects.take 4).foldl connStep Connects.start) ∧
      ¬ AccountMaps (reconnects.foldl connStep Connects.start) := by
  refine ⟨⟨trivial, ⟨by decide, rfl⟩, trivial, ⟨by decide, rfl⟩, Option.some_ne_none _, trivial⟩, ?_, ?_⟩
  · intro h
    have hlatest := h.latest 1
    exact absurd hlatest (by decide)
  · intro h
    exact h.hasEntry 0 _ ⟨rfl, rfl⟩ rfl

end Net
end Proof
end PtpCore
