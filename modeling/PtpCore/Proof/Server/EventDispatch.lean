import PtpCore.Server.EventDispatch

/-!
# A connection is closed once (`ptp_global/ImConn.cpp`, `ptp_global/EventDispatch.cpp`)

`Close` does not ask whether it was called before, and it does not clear `m_handle`. It is called
once all the same, because whoever calls it has found the connection in a map, and the first thing
it does is to take the connection out of all of them. The reference that `imconn_callback` holds
keeps the object until the callback is back.
-/

namespace PtpCore
namespace Proof
namespace Server

open PtpCore.Server PtpCore.Server.Dispatch PtpCore.Lib PtpCore.Global

namespace Dispatch

section

variable {σ : Type} {C : Code σ} {s : Process σ} {c : ConnRef} {conn : Conn}

/-! ### What a state is judged by -/

/-- The connection is in its map. -/
def Registered (s : Process σ) (c : ConnRef) : Prop :=
  ∃ conn, s.conns.find c = some conn ∧ (s.connMap conn.kind).find conn.handle = some c

/-- The process as far as objects and references go. -/
def life (s : Process σ) : Counted ConnRef where
  count c := (s.conns.find c).elim 0 Conn.refCount
  registered := Registered s
  running := s.running
  log := s.log

/-- The maps lead to objects, and to sockets that are open. -/
structure Tables (s : Process σ) : Prop where
  keys : ∀ kind, ((s.connMap kind).map Prod.fst).Nodup
  mapped : ∀ kind fd c, (s.connMap kind).find fd = some c → ∃ conn, s.conns.find c = some conn ∧
    conn.kind = kind ∧ conn.handle = fd ∧ s.socketMap.find fd ≠ none
  apart : ∀ kind kind' fd c c', (s.connMap kind).find fd = some c →
    (s.connMap kind').find fd = some c' → kind = kind'
  uuids : ∀ uuid c, s.uuidConnMap.find uuid = some c → ∃ conn, s.conns.find c = some conn ∧
    conn.kind = .business ∧ conn.uuid = uuid ∧ (s.connMap .business).find conn.handle = some c
  sockets : ∀ fd sock, s.socketMap.find fd = some sock → ∃ socket,
    s.sockets.find sock = some socket ∧ socket.socket = fd
  objects : ∀ c conn, s.conns.find c = some conn →
    c < s.nextConn ∧ conn.handle ≠ netlibInvalidHandle ∧ 0 < conn.refCount
  places : ∀ sock socket, s.sockets.find sock = some socket → sock < s.nextSocket

/-- The stacks of the thread. -/
inductive Shape (s : Process σ) : List Frame → Prop
  | idle : Shape s []
  | events (rest : List (Int × EpollEvents)) : Shape s [.events rest]
  | calls (sock : SocketRef) (cs : List SocketCall) (rest : List (Int × EpollEvents)) :
      Shape s [.calls sock cs, .events rest]
  | callback (msg : Msg) (c : ConnRef) (sock : SocketRef) (cs : List SocketCall)
      (rest : List (Int × EpollEvents)) (h : Registered s c) :
      Shape s [.callback msg c, .releaseRef c, .calls sock cs, .events rest]
  | close (c : ConnRef) (sock : SocketRef) (cs : List SocketCall)
      (rest : List (Int × EpollEvents)) (h : Registered s c) :
      Shape s [.close c, .releaseRef c, .calls sock cs, .events rest]
  | release (c : ConnRef) (sock : SocketRef) (cs : List SocketCall)
      (rest : List (Int × EpollEvents)) (conn : Conn) (h : s.conns.find c = some conn) :
      Shape s [.releaseRef c, .calls sock cs, .events rest]
  | timer (kind : Kind) (currTick : UInt64) (rest : List Int) (hnodup : rest.Nodup)
      (hrest : ∀ fd ∈ rest, ∃ c, (s.connMap kind).find fd = some c) :
      Shape s [.timer kind currTick rest]
  | timerClose (c : ConnRef) (kind : Kind) (currTick : UInt64) (rest : List Int)
      (h : Registered s c) (hnodup : rest.Nodup)
      (hrest : ∀ fd ∈ rest, ∃ d, d ≠ c ∧ (s.connMap kind).find fd = some d) :
      Shape s [.close c, .timer kind currTick rest]
  | responses : Shape s [.sendResponsePduList]
  | responseClose (c : ConnRef) (h : Registered s c) : Shape s [.close c, .sendResponsePduList]

structure Inv (s : Process σ) : Prop where
  tables : Tables s
  shape : Shape s s.stack
  counted : (life s).Inv
  used : ∀ c, .closed c ∈ s.log → c < s.nextConn
  /-- A crash is a crash of `OnRead`. -/
  alive : s.status = .running ∨
    s.status = .crashed ∧ ∃ c rest, s.stack = .callback .read c :: rest

/-! ### Steps that no count depends on -/

/-- A change behind the tables. -/
theorem Tables.rest (h : Tables s) (responses : List (UInt32 × Bool)) (world : σ)
    (stack : List Frame) (status : Status) (log : List (Life ConnRef)) :
    Tables { s with
      responsePduList := responses, world := world, stack := stack, status := status, log := log } :=
  ⟨h.keys, h.mapped, h.apart, h.uuids, h.sockets, h.objects, h.places⟩

theorem Tables.registered (h : Tables s) {kind : Kind} {fd : Int}
    (hfind : (s.connMap kind).find fd = some c) : Registered s c := by
  obtain ⟨conn, hconn, rfl, rfl, -⟩ := h.mapped kind fd c hfind
  exact ⟨conn, hconn, hfind⟩

theorem Tables.registered_uuid (h : Tables s) {uuid : UInt32}
    (hfind : s.uuidConnMap.find uuid = some c) : Registered s c := by
  obtain ⟨conn, hconn, hkind, -, hmap⟩ := h.uuids uuid c hfind
  exact ⟨conn, hconn, by rw [hkind]; exact hmap⟩

theorem Shape.mono {s' : Process σ} {stack : List Frame} (h : Shape s stack)
    (hregistered : ∀ c, Registered s c → Registered s' c)
    (hconns : ∀ c conn, s.conns.find c = some conn → ∃ conn', s'.conns.find c = some conn')
    (hmap : ∀ kind fd c, (s.connMap kind).find fd = some c → (s'.connMap kind).find fd = some c) :
    Shape s' stack := by
  cases h with
  | idle => exact .idle
  | events rest => exact .events rest
  | calls sock cs rest => exact .calls sock cs rest
  | callback msg c sock cs rest hc => exact .callback msg c sock cs rest (hregistered c hc)
  | close c sock cs rest hc => exact .close c sock cs rest (hregistered c hc)
  | release c sock cs rest conn hc =>
    obtain ⟨conn', hconn'⟩ := hconns c conn hc
    exact .release c sock cs rest conn' hconn'
  | timer kind currTick rest hnodup hrest =>
    refine .timer kind currTick rest hnodup fun fd hfd => ?_
    obtain ⟨d, hd⟩ := hrest fd hfd
    exact ⟨d, hmap kind fd d hd⟩
  | timerClose c kind currTick rest hc hnodup hrest =>
    refine .timerClose c kind currTick rest (hregistered c hc) hnodup fun fd hfd => ?_
    obtain ⟨d, hne, hd⟩ := hrest fd hfd
    exact ⟨d, hne, hmap kind fd d hd⟩
  | responses => exact .responses
  | responseClose c hc => exact .responseClose c (hregistered c hc)

/-- Objects, maps and references stay. -/
theorem Inv.quiet (h : Inv s) {s' : Process σ} (htables : Tables s') (hconns : s'.conns = s.conns)
    (hmap : s'.connMap = s.connMap) (hnext : s'.nextConn = s.nextConn) (hlog : s'.log = s.log)
    (hrun : s'.status = .running) (hshape : Shape s s'.stack)
    (hcount : ∀ c, s'.running c = s.running c) : Inv s' := by
  have hregistered : ∀ c, Registered s' c ↔ Registered s c := by
    intro c
    rw [Registered, Registered, hconns, hmap]
  refine ⟨htables, ?_, ?_, ?_, .inl hrun⟩
  · refine hshape.mono (fun c => (hregistered c).mpr) ?_ ?_
    · intro c conn hconn
      exact ⟨conn, hconns ▸ hconn⟩
    · intro kind fd c hfind
      exact hmap ▸ hfind
  · refine h.counted.step (.same ?_ hregistered hcount hlog)
    intro c
    exact congrArg (fun m : Assoc ConnRef Conn => (m.find c).elim 0 Conn.refCount) hconns
  · rw [hlog, hnext]
    exact h.used

/-- Only the stack moves, and no reference with it. -/
theorem Inv.move (h : Inv s) (hrun : s.status = .running) {stack : List Frame}
    (hshape : Shape s stack) (hcount : ∀ c, stack.count (.releaseRef c) = s.running c) :
    Inv { s with stack := stack } :=
  h.quiet (h.tables.rest _ _ _ _ _) rfl rfl rfl rfl hrun hshape hcount

/-! ### An object changes -/

/-- The same connection, whatever it has read and whoever holds it. -/
structure SameConn (conn conn' : Conn) : Prop where
  kind : conn'.kind = conn.kind
  handle : conn'.handle = conn.handle
  uuid : conn'.uuid = conn.uuid

theorem find_setConn {conn' : Conn} (hconn : s.conns.find c = some conn)
    (hsame : SameConn conn conn') {d : ConnRef} {x : Conn} (hd : s.conns.find d = some x) :
    ∃ x', (s.conns.set c conn').find d = some x' ∧ SameConn x x' := by
  by_cases hdc : d = c
  · subst hdc
    cases hconn.symm.trans hd
    exact ⟨conn', Assoc.find_set_self _ _ _, hsame⟩
  · exact ⟨x, (Assoc.find_set_of_ne _ _ hdc).trans hd, rfl, rfl, rfl⟩

theorem registered_setConn {conn' : Conn} (hconn : s.conns.find c = some conn)
    (hsame : SameConn conn conn') (d : ConnRef) :
    Registered { s with conns := s.conns.set c conn' } d ↔ Registered s d := by
  constructor
  · rintro ⟨x, hx, hmap⟩
    rcases Assoc.find_set_iff.mp hx with ⟨rfl, rfl⟩ | ⟨-, hx⟩
    · exact ⟨conn, hconn, by rw [← hsame.kind, ← hsame.handle]; exact hmap⟩
    · exact ⟨x, hx, hmap⟩
  · rintro ⟨x, hx, hmap⟩
    obtain ⟨x', hx', hsame'⟩ := find_setConn hconn hsame hx
    exact ⟨x', hx', by rw [hsame'.kind, hsame'.handle]; exact hmap⟩

theorem Tables.setConn (h : Tables s) {conn' : Conn} (hconn : s.conns.find c = some conn)
    (hsame : SameConn conn conn') (hpos : 0 < conn'.refCount) :
    Tables { s with conns := s.conns.set c conn' } := by
  refine ⟨h.keys, ?_, h.apart, ?_, h.sockets, ?_, h.places⟩
  · intro kind fd d hfind
    obtain ⟨x, hx, hkind, hhandle, hsocket⟩ := h.mapped kind fd d hfind
    obtain ⟨x', hx', hsame'⟩ := find_setConn hconn hsame hx
    exact ⟨x', hx', hsame'.kind.trans hkind, hsame'.handle.trans hhandle, hsocket⟩
  · intro uuid d hfind
    obtain ⟨x, hx, hkind, huuid, hmap⟩ := h.uuids uuid d hfind
    obtain ⟨x', hx', hsame'⟩ := find_setConn hconn hsame hx
    exact ⟨x', hx', hsame'.kind.trans hkind, hsame'.uuid.trans huuid, by rw [hsame'.handle]; exact hmap⟩
  · intro d x hx
    rcases Assoc.find_set_iff.mp hx with ⟨rfl, rfl⟩ | ⟨-, hx⟩
    · obtain ⟨hlt, hvalid, -⟩ := h.objects d conn hconn
      exact ⟨hlt, by rw [hsame.handle]; exact hvalid, hpos⟩
    · exact h.objects d x hx

/-- `OnRead` has moved data. -/
theorem Inv.setConn (h : Inv s) (hrun : s.status = .running) {conn' : Conn}
    (hconn : s.conns.find c = some conn) (hsame : SameConn conn conn')
    (hcount : conn'.refCount = conn.refCount) :
    Inv { s with conns := s.conns.set c conn' } := by
  have hpos := (h.tables.objects c conn hconn).2.2
  refine ⟨h.tables.setConn hconn hsame (hcount ▸ hpos), ?_, ?_, h.used, .inl hrun⟩
  · refine h.shape.mono (fun d => (registered_setConn hconn hsame d).mpr) ?_ fun _ _ _ hd => hd
    intro d x hx
    obtain ⟨x', hx', -⟩ := find_setConn hconn hsame hx
    exact ⟨x', hx'⟩
  · refine h.counted.step (.same ?_ (registered_setConn hconn hsame) (fun _ => rfl) rfl)
    intro d
    by_cases hd : d = c
    · subst hd
      simp [life, hconn, hcount]
    · simp [life, Assoc.find_set_of_ne _ _ hd]

/-- `imconn_callback` finds the connection. -/
theorem Inv.deliver (h : Inv s) (hrun : s.status = .running) {kind : Kind} {fd : Int} (msg : Msg)
    {sock : SocketRef} {cs : List SocketCall} {rest : List (Int × EpollEvents)}
    (hstack : s.stack = [.calls sock cs, .events rest])
    (hfind : (s.connMap kind).find fd = some c) :
    Inv ((((s.addRef c).push (.releaseRef c)).push (.callback msg c)).record (.delivered c)) := by
  have hreg := h.tables.registered hfind
  obtain ⟨conn, hconn, hmap⟩ := id hreg
  have hsame : SameConn conn { conn with refCount := conn.refCount + 1 } := ⟨rfl, rfl, rfl⟩
  have hreg' := registered_setConn hconn hsame
  rw [Process.addRef, hconn]
  refine ⟨(h.tables.setConn hconn hsame (Nat.succ_pos _)).rest _ _ _ _ _, ?_, ?_, ?_, .inl hrun⟩
  · have hshape := Shape.callback msg c sock cs rest ((hreg' c).mpr hreg)
    rw [← hstack] at hshape
    exact hshape.mono (fun _ hd => hd) (fun _ x hx => ⟨x, hx⟩) fun _ _ _ hd => hd
  · refine h.counted.step (.enter c ?_ ⟨hreg, (hreg' c).mpr hreg⟩ ?_ ⟨?_, ?_, ?_⟩ rfl)
    · simp [life, Process.push, Process.record, hconn]
    · simp [life, Process.running, Process.push, Process.record]
    · intro d hd
      simp [life, Process.push, Process.record, Assoc.find_set_of_ne _ _ hd]
    · intro d _
      exact hreg' d
    · intro d hd
      simp [life, Process.running, Process.push, Process.record, Ne.symm hd]
  · intro d hd
    refine h.used d ?_
    simpa [Process.push, Process.record] using hd

/-- A timer or a response finds the connection. -/
theorem Inv.touch (h : Inv s) (hrun : s.status = .running) (hreg : Registered s c) :
    Inv (s.record (.delivered c)) := by
  refine ⟨h.tables.rest _ _ _ _ _, ?_, ?_, ?_, .inl hrun⟩
  · exact h.shape.mono (fun _ hd => hd) (fun _ x hx => ⟨x, hx⟩) fun _ _ _ hd => hd
  · exact h.counted.step (.touch c rfl ⟨hreg, hreg⟩ rfl
      ⟨fun _ _ => rfl, fun _ _ => Iff.rfl, fun _ _ => rfl⟩ rfl)
  · intro d hd
    refine h.used d ?_
    simpa [Process.record] using hd

/-! ### References are given up -/

theorem Tables.eraseConn (h : Tables s) (hnot : ¬ Registered s c) :
    Tables { s with conns := s.conns.erase c } := by
  have hother : ∀ d x, d ≠ c → s.conns.find d = some x → (s.conns.erase c).find d = some x :=
    fun d x hd hx => (Assoc.find_erase_of_ne _ hd).trans hx
  refine ⟨h.keys, ?_, h.apart, ?_, h.sockets, ?_, h.places⟩
  · intro kind fd d hfind
    obtain ⟨x, hx, hrest⟩ := h.mapped kind fd d hfind
    refine ⟨x, hother d x ?_ hx, hrest⟩
    rintro rfl
    exact hnot (h.registered hfind)
  · intro uuid d hfind
    obtain ⟨x, hx, hrest⟩ := h.uuids uuid d hfind
    refine ⟨x, hother d x ?_ hx, hrest⟩
    rintro rfl
    exact hnot (h.registered_uuid hfind)
  · intro d x hx
    exact h.objects d x (Assoc.find_erase_iff.mp hx).2

theorem registered_eraseConn (hnot : ¬ Registered s c) (d : ConnRef) :
    Registered { s with conns := s.conns.erase c } d ↔ Registered s d := by
  constructor
  · rintro ⟨x, hx, hmap⟩
    exact ⟨x, (Assoc.find_erase_iff.mp hx).2, hmap⟩
  · intro hd
    have hne : d ≠ c := by
      rintro rfl
      exact hnot hd
    obtain ⟨x, hx, hmap⟩ := hd
    exact ⟨x, (Assoc.find_erase_of_ne _ hne).trans hx, hmap⟩

/-- What `ReleaseRef` does to an object, and that the last one is not for a registered object. -/
structure Released (s s' : Process σ) (c : ConnRef) (conn : Conn) : Prop where
  tables : Tables s'
  registered : ∀ d, Registered s' d ↔ Registered s d
  connMap : s'.connMap = s.connMap
  nextConn : s'.nextConn = s.nextConn
  stack : s'.stack = s.stack
  status : s'.status = s.status
  log : s'.log = s.log ++ if conn.refCount = 1 then [.zero c] else []
  conn : if conn.refCount = 1 then s'.conns.find c = none else
    s'.conns.find c = some { conn with refCount := conn.refCount - 1 }
  others : ∀ d, d ≠ c → s'.conns.find d = s.conns.find d

theorem released (h : Tables s) (hconn : s.conns.find c = some conn)
    (hlast : conn.refCount = 1 → ¬ Registered s c) : Released s (s.releaseRef c) c conn := by
  have hpos := (h.objects c conn hconn).2.2
  rw [Process.releaseRef, hconn]
  by_cases hone : conn.refCount = 1
  · have hnot := hlast hone
    simp only [hone, Nat.sub_self, if_true]
    refine ⟨(h.eraseConn hnot).rest _ _ _ _ _, registered_eraseConn hnot, rfl, rfl, rfl, rfl, ?_, ?_,
      fun d hd => Assoc.find_erase_of_ne _ hd⟩
    · rw [if_pos hone]
      rfl
    · rw [if_pos hone]
      exact Assoc.find_erase_self _ _
  · have hne : conn.refCount - 1 ≠ 0 := by omega
    have hsame : SameConn conn { conn with refCount := conn.refCount - 1 } := ⟨rfl, rfl, rfl⟩
    simp only [if_neg hne]
    refine ⟨h.setConn hconn hsame (Nat.pos_of_ne_zero hne), registered_setConn hconn hsame, rfl, rfl,
      rfl, rfl, ?_, ?_, fun d hd => Assoc.find_set_of_ne _ _ hd⟩
    · rw [if_neg hone, List.append_nil]
    · rw [if_neg hone]
      exact Assoc.find_set_self _ _ _

theorem Released.count {s' : Process σ} (h : Released s s' c conn) :
    (life s').count c = conn.refCount - 1 := by
  have hconn := h.conn
  by_cases hone : conn.refCount = 1
  · rw [if_pos hone] at hconn
    simp [life, hconn, hone]
  · rw [if_neg hone] at hconn
    simp [life, hconn]

theorem Released.closed_mem {s' : Process σ} (h : Released s s' c conn) {d : ConnRef} :
    .closed d ∈ s'.log ↔ .closed d ∈ s.log := by
  rw [h.log, List.mem_append]
  split <;> simp

/-- The end of `imconn_callback`. -/
theorem Inv.release (h : Inv s) (hrun : s.status = .running) {sock : SocketRef}
    {cs : List SocketCall} {rest : List (Int × EpollEvents)}
    (hstack : s.stack = [.releaseRef c, .calls sock cs, .events rest])
    (hconn : s.conns.find c = some conn) :
    Inv ({ s with stack := [.calls sock cs, .events rest] }.releaseRef c) := by
  have hone : s.running c = 1 := by simp [Process.running, hstack]
  have hcount : (life s).count c = conn.refCount := by simp [life, hconn]
  have hlast : conn.refCount = 1 → ¬ Registered s c := by
    intro heq hreg
    have hheld := ((h.counted.ok c).held hreg).1
    rw [hcount, heq] at hheld
    change 1 = s.running c + 1 at hheld
    omega
  have hr := released (s := { s with stack := [.calls sock cs, .events rest] })
    (h.tables.rest _ _ _ _ _) hconn hlast
  refine ⟨hr.tables, ?_, ?_, ?_, .inl (hr.status.trans hrun)⟩
  · rw [hr.stack]
    exact .calls sock cs rest
  · refine h.counted.step (.leave c (hr.count.trans (by rw [hcount])) (hr.registered c) ?_
      ⟨?_, fun d _ => hr.registered d, ?_⟩ ?_)
    · change s.running c = Process.running _ c + 1
      simp [Process.running, hr.stack, hstack]
    · intro d hd
      simp only [life, hr.others d hd]
    · intro d hd
      change Process.running _ d = s.running d
      simp [Process.running, hr.stack, hstack, Ne.symm hd]
    · rw [hcount]
      exact hr.log
  · intro d hd
    rw [hr.nextConn]
    exact h.used d (hr.closed_mem.mp hd)

/-! ### Closing -/

theorem netlibClose_eq (h : Tables s) {fd : Int} (hfd : s.socketMap.find fd ≠ none) :
    s.netlibClose fd = { s with socketMap := s.socketMap.erase fd } := by
  cases hfind : s.socketMap.find fd with
  | none => exact absurd hfind hfd
  | some sock =>
    obtain ⟨socket, hsocket, rfl⟩ := h.sockets fd sock hfind
    simp only [Process.netlibClose, hfind, hsocket]

/-- The connection is out of every map, and the others are where they were. -/
structure Unregistered (s u : Process σ) (c : ConnRef) : Prop where
  tables : Tables u
  gone : ¬ Registered u c
  others : ∀ d, d ≠ c → (Registered u d ↔ Registered s d)
  connMap : ∀ kind fd d, d ≠ c → (s.connMap kind).find fd = some d →
    (u.connMap kind).find fd = some d
  conns : u.conns = s.conns
  nextConn : u.nextConn = s.nextConn
  stack : u.stack = s.stack
  status : u.status = s.status
  log : u.log = s.log ++ [.closed c]

/-- The maps without a connection. -/
def withoutConn (s : Process σ) (conn : Conn) : Process σ := { s with
  socketMap := s.socketMap.erase conn.handle
  connMap := fun k =>
    if k = conn.kind then (s.connMap conn.kind).erase conn.handle else s.connMap k
  uuidConnMap :=
    if conn.kind = .business then s.uuidConnMap.erase conn.uuid else s.uuidConnMap }

theorem unregister_eq (h : Tables s) (hconn : s.conns.find c = some conn)
    (hmap : (s.connMap conn.kind).find conn.handle = some c) :
    ∃ world, s.unregister C c conn =
      { withoutConn s conn with world := world, log := s.log ++ [.closed c] } := by
  obtain ⟨-, hvalid, -⟩ := h.objects c conn hconn
  obtain ⟨-, -, -, -, hsocket⟩ := h.mapped _ _ c hmap
  have hclose := netlibClose_eq (s := s.record (.closed c)) (h.rest _ _ _ _ _) hsocket
  simp only [Process.unregister, withoutConn, if_pos hvalid, hclose]
  cases hkind : conn.kind with
  | msg => exact ⟨_, rfl⟩
  | business => exact ⟨_, rfl⟩

/-- An entry that is left is an old one, of another connection. -/
theorem Tables.of_connMap_withoutConn (h : Tables s) (hconn : s.conns.find c = some conn)
    {kind : Kind} {fd : Int} {d : ConnRef}
    (hfind : ((withoutConn s conn).connMap kind).find fd = some d) :
    (s.connMap kind).find fd = some d ∧ d ≠ c := by
  dsimp only [withoutConn] at hfind
  by_cases hkind : kind = conn.kind
  · rw [if_pos hkind, ← hkind] at hfind
    obtain ⟨hne, hfind⟩ := Assoc.find_erase_iff.mp hfind
    refine ⟨hfind, ?_⟩
    rintro rfl
    obtain ⟨x, hx, -, rfl, -⟩ := h.mapped kind fd d hfind
    cases hconn.symm.trans hx
    exact hne rfl
  · rw [if_neg hkind] at hfind
    refine ⟨hfind, ?_⟩
    rintro rfl
    obtain ⟨x, hx, rfl, -⟩ := h.mapped kind fd d hfind
    cases hconn.symm.trans hx
    exact hkind rfl

theorem Tables.of_uuidConnMap_withoutConn (h : Tables s) (hconn : s.conns.find c = some conn)
    {uuid : UInt32} {d : ConnRef} (hfind : (withoutConn s conn).uuidConnMap.find uuid = some d) :
    s.uuidConnMap.find uuid = some d ∧ d ≠ c := by
  dsimp only [withoutConn] at hfind
  by_cases hkind : conn.kind = .business
  · rw [if_pos hkind] at hfind
    obtain ⟨hne, hfind⟩ := Assoc.find_erase_iff.mp hfind
    refine ⟨hfind, ?_⟩
    rintro rfl
    obtain ⟨x, hx, -, rfl, -⟩ := h.uuids uuid d hfind
    cases hconn.symm.trans hx
    exact hne rfl
  · rw [if_neg hkind] at hfind
    refine ⟨hfind, ?_⟩
    rintro rfl
    obtain ⟨x, hx, hx', -⟩ := h.uuids uuid d hfind
    cases hconn.symm.trans hx
    exact hkind hx'

/-- The other entries stay. -/
theorem connMap_withoutConn (hmap : (s.connMap conn.kind).find conn.handle = some c) {kind : Kind}
    {fd : Int} {d : ConnRef} (hd : d ≠ c) (hfind : (s.connMap kind).find fd = some d) :
    ((withoutConn s conn).connMap kind).find fd = some d := by
  dsimp only [withoutConn]
  by_cases hkind : kind = conn.kind
  · subst hkind
    rw [if_pos rfl, Assoc.find_erase_iff]
    refine ⟨?_, hfind⟩
    rintro rfl
    exact hd (Option.some.inj (hfind.symm.trans hmap))
  · rw [if_neg hkind]
    exact hfind

theorem Tables.withoutConn (h : Tables s) (hconn : s.conns.find c = some conn)
    (hmap : (s.connMap conn.kind).find conn.handle = some c) : Tables (withoutConn s conn) := by
  refine ⟨?_, ?_, ?_, ?_, ?_, h.objects, h.places⟩
  · intro kind
    dsimp only [Dispatch.withoutConn]
    split
    · exact Assoc.nodup_keys_erase _ (h.keys _)
    · exact h.keys kind
  · intro kind fd d hfind
    obtain ⟨hfind, hd⟩ := h.of_connMap_withoutConn hconn hfind
    obtain ⟨x, hx, hkind, rfl, hsocket⟩ := h.mapped kind fd d hfind
    refine ⟨x, hx, hkind, rfl, ?_⟩
    dsimp only [Dispatch.withoutConn]
    rw [Assoc.find_erase_of_ne]
    · exact hsocket
    · intro hsame
      have hkinds := h.apart kind conn.kind conn.handle d c (hsame ▸ hfind) hmap
      rw [hsame, hkinds, hmap] at hfind
      exact hd (Option.some.inj hfind).symm
  · intro kind kind' fd d d' hfind hfind'
    exact h.apart kind kind' fd d d' (h.of_connMap_withoutConn hconn hfind).1
      (h.of_connMap_withoutConn hconn hfind').1
  · intro uuid d hfind
    obtain ⟨hold, hd⟩ := h.of_uuidConnMap_withoutConn hconn hfind
    obtain ⟨x, hx, hkind, huuid, hfd⟩ := h.uuids uuid d hold
    exact ⟨x, hx, hkind, huuid, connMap_withoutConn hmap hd hfd⟩
  · intro fd sock hfind
    exact h.sockets fd sock (Assoc.find_erase_iff.mp hfind).2

theorem Tables.registered_withoutConn_iff (h : Tables s) (hconn : s.conns.find c = some conn)
    (hmap : (s.connMap conn.kind).find conn.handle = some c) (d : ConnRef) :
    Registered (Dispatch.withoutConn s conn) d ↔ Registered s d ∧ d ≠ c := by
  constructor
  · rintro ⟨x, hx, hfd⟩
    obtain ⟨hold, hd⟩ := h.of_connMap_withoutConn hconn hfd
    exact ⟨⟨x, hx, hold⟩, hd⟩
  · rintro ⟨⟨x, hx, hfd⟩, hd⟩
    exact ⟨x, hx, connMap_withoutConn hmap hd hfd⟩

theorem unregistered (h : Tables s) (hconn : s.conns.find c = some conn)
    (hmap : (s.connMap conn.kind).find conn.handle = some c) :
    Unregistered s (s.unregister C c conn) c := by
  obtain ⟨world, heq⟩ := unregister_eq (C := C) h hconn hmap
  have hreg := h.registered_withoutConn_iff hconn hmap
  rw [heq]
  refine ⟨?_, ?_, ?_, ?_, rfl, rfl, rfl, rfl, rfl⟩
  · exact (h.withoutConn hconn hmap).rest s.responsePduList world s.stack s.status _
  · exact fun hgone => ((hreg c).mp hgone).2 rfl
  · intro d hd
    exact (hreg d).trans (and_iff_left hd)
  · intro kind fd d hd hfind
    exact connMap_withoutConn hmap hd hfind

/-- **`Close`.** The object stays exactly if a callback runs on it. -/
theorem Inv.close (h : Inv s) (hrun : s.status = .running) {rest : List Frame}
    (hstack : s.stack = .close c :: rest) (hreg : Registered s c) {s' : Process σ}
    (heq : { s with stack := rest }.close C c = s')
    (hshape : (∀ kind fd d, d ≠ c → (s.connMap kind).find fd = some d →
        (s'.connMap kind).find fd = some d) →
      (0 < s.running c → ∃ conn, s'.conns.find c = some conn) → Shape s' rest) : Inv s' := by
  obtain ⟨conn, hconn, hmap⟩ := id hreg
  have hu := unregistered (C := C) (s := { s with stack := rest }) (h.tables.rest _ _ _ _ _) hconn hmap
  have hr := released hu.tables (hu.conns ▸ hconn) fun _ => hu.gone
  have hs' : ({ s with stack := rest }.unregister C c conn).releaseRef c = s' := by
    rw [← heq, Process.close, hconn]
  rw [hs'] at hr
  have hcount : (life s).count c = conn.refCount := by simp [life, hconn]
  have hheld := ((h.counted.ok c).held hreg).1
  rw [hcount] at hheld
  change conn.refCount = s.running c + 1 at hheld
  have hrest : ∀ d, s'.running d = s.running d := by
    intro d
    simp [Process.running, hr.stack, hu.stack, hstack]
  refine ⟨hr.tables, ?_, ?_, ?_, .inl (hr.status.trans (hu.status.trans hrun))⟩
  · rw [hr.stack, hu.stack]
    refine hshape ?_ ?_
    · intro kind fd d hd hfind
      rw [hr.connMap]
      exact hu.connMap kind fd d hd hfind
    · intro hpos
      have hconn' := hr.conn
      rw [if_neg (by omega)] at hconn'
      exact ⟨_, hconn'⟩
  · refine h.counted.step (.close c (hr.count.trans (by rw [hcount])) ⟨hreg, ?_⟩ (hrest c)
      ⟨?_, ?_, fun d _ => hrest d⟩ ?_)
    · exact fun hc => hu.gone ((hr.registered c).mp hc)
    · intro d hd
      simp only [life, hr.others d hd, hu.conns]
    · intro d hd
      exact (hr.registered d).trans (hu.others d hd)
    · rw [hcount]
      exact hr.log.trans (congrArg (· ++ _) hu.log)
  · intro d hd
    rw [hr.nextConn, hu.nextConn]
    have hd' := hr.closed_mem.mp hd
    rw [hu.log, List.mem_append] at hd'
    rcases hd' with hd' | hd'
    · exact h.used d hd'
    · cases List.mem_singleton.mp hd'
      exact (h.tables.objects c conn hconn).1

/-! ### Connecting -/

theorem Tables.addBaseSocket (h : Tables s) {socket : CBaseSocket}
    (hfree : s.socketMap.find socket.socket = none) : Tables (s.addBaseSocket socket) := by
  have hold : ∀ sock x, s.sockets.find sock = some x →
      (s.sockets.set s.nextSocket socket).find sock = some x := by
    intro sock x hx
    have hlt := h.places sock x hx
    exact (Assoc.find_set_of_ne _ _ (Nat.ne_of_lt hlt)).trans hx
  refine ⟨h.keys, ?_, h.apart, h.uuids, ?_, h.objects, ?_⟩
  · intro kind fd c hfind
    obtain ⟨conn, hconn, hkind, hhandle, hsocket⟩ := h.mapped kind fd c hfind
    refine ⟨conn, hconn, hkind, hhandle, ?_⟩
    have hne : fd ≠ socket.socket := by
      rintro rfl
      exact hsocket hfree
    exact fun hnone => hsocket ((Assoc.find_insert_of_ne _ _ hne).symm.trans hnone)
  · intro fd sock hfind
    rcases (Assoc.find_insert_iff hfree).mp hfind with ⟨rfl, rfl⟩ | hfind
    · exact ⟨socket, Assoc.find_set_self _ _ _, rfl⟩
    · obtain ⟨x, hx, hfd⟩ := h.sockets fd sock hfind
      exact ⟨x, hold sock x hx, hfd⟩
  · intro sock x hx
    rcases Assoc.find_set_iff.mp hx with ⟨rfl, -⟩ | ⟨-, hx⟩
    · exact Nat.lt_succ_self _
    · exact Nat.lt_succ_of_lt (h.places sock x hx)

theorem Inv.addBaseSocket (h : Inv s) (hrun : s.status = .running) {socket : CBaseSocket}
    (hfree : s.socketMap.find socket.socket = none) : Inv (s.addBaseSocket socket) :=
  h.quiet (h.tables.addBaseSocket hfree) rfl rfl rfl rfl hrun h.shape fun _ => rfl

/-- A socket keeps its descriptor. -/
theorem Tables.setSocket (h : Tables s) {sock : SocketRef} {socket socket' : CBaseSocket}
    (hsocket : s.sockets.find sock = some socket) (hsame : socket'.socket = socket.socket) :
    Tables { s with sockets := s.sockets.set sock socket' } := by
  refine ⟨h.keys, h.mapped, h.apart, h.uuids, ?_, h.objects, ?_⟩
  · intro fd sock' hfind
    obtain ⟨x, hx, hfd⟩ := h.sockets fd sock' hfind
    by_cases hs : sock' = sock
    · subst hs
      cases hsocket.symm.trans hx
      exact ⟨socket', Assoc.find_set_self _ _ _, hsame.trans hfd⟩
    · exact ⟨x, (Assoc.find_set_of_ne _ _ hs).trans hx, hfd⟩
  · intro sock' x hx
    rcases Assoc.find_set_iff.mp hx with ⟨rfl, -⟩ | ⟨-, hx⟩
    · exact h.places sock' socket hsocket
    · exact h.places sock' x hx

theorem Inv.setCallback (h : Inv s) (hrun : s.status = .running) (fd : Int) (callback : Callback) :
    Inv (s.setCallback fd callback) := by
  unfold Process.setCallback
  split
  next => exact h
  next sock hsock =>
    split
    next => exact h
    next socket hsocket =>
      exact h.quiet (h.tables.setSocket hsocket rfl) rfl rfl rfl rfl hrun h.shape fun _ => rfl

/-- A new object, in the maps, before its socket knows of it. -/
def withConn (s : Process σ) (conn : Conn) (uuidConnMap : Assoc UInt32 ConnRef)
    (uuidAlloctor : UInt32) : Process σ := { s with
  nextConn := s.nextConn + 1
  conns := s.conns.set s.nextConn conn
  connMap := fun k =>
    if k = conn.kind then (s.connMap conn.kind).insert conn.handle s.nextConn else s.connMap k
  uuidConnMap := uuidConnMap
  uuidAlloctor := uuidAlloctor }

/-- Only a business connection gets a number. -/
def UuidEntry (s : Process σ) (conn : Conn) (uuidConnMap : Assoc UInt32 ConnRef) : Prop :=
  uuidConnMap = s.uuidConnMap ∨
    conn.kind = .business ∧ uuidConnMap = s.uuidConnMap.insert conn.uuid s.nextConn

theorem onConnect_eq (s : Process σ) (kind : Kind) (fd : Int) (now : UInt64) :
    ∃ conn uuidConnMap uuidAlloctor,
      conn.kind = kind ∧ conn.handle = fd ∧ conn.refCount = 1 ∧ UuidEntry s conn uuidConnMap ∧
      s.onConnect kind fd now =
        (withConn s conn uuidConnMap uuidAlloctor).setCallback fd (.imconn kind) := by
  cases kind with
  | msg => exact ⟨⟨.msg, fd, _, 1, .empty, now, now⟩, _, _, rfl, rfl, rfl, .inl rfl, rfl⟩
  | business =>
    exact ⟨⟨.business, fd, _, 1, .empty, now, now⟩, _, _, rfl, rfl, rfl, .inr ⟨rfl, rfl⟩, rfl⟩

section

variable {uuidConnMap : Assoc UInt32 ConnRef} {uuidAlloctor : UInt32} {k : Kind} {fd : Int}
  {d : ConnRef}

theorem Tables.conns_nextConn (h : Tables s) : s.conns.find s.nextConn = none := by
  cases hfind : s.conns.find s.nextConn with
  | none => rfl
  | some x => exact absurd (h.objects _ x hfind).1 (Nat.lt_irrefl _)

theorem Tables.conns_withConn (h : Tables s) {x : Conn} (hx : s.conns.find d = some x) :
    (withConn s conn uuidConnMap uuidAlloctor).conns.find d = some x :=
  (Assoc.find_set_of_ne _ _ (Nat.ne_of_lt (h.objects d x hx).1)).trans hx

theorem conns_withConn_new :
    (withConn s conn uuidConnMap uuidAlloctor).conns.find s.nextConn = some conn :=
  Assoc.find_set_self _ _ _

theorem connMap_withConn (hfree : (s.connMap conn.kind).find conn.handle = none)
    (hfind : (s.connMap k).find fd = some d) :
    ((withConn s conn uuidConnMap uuidAlloctor).connMap k).find fd = some d := by
  dsimp only [withConn]
  split
  next hk =>
    subst hk
    exact (Assoc.find_insert_iff hfree).mpr (.inr hfind)
  next => exact hfind

theorem connMap_withConn_new (hfree : (s.connMap conn.kind).find conn.handle = none) :
    ((withConn s conn uuidConnMap uuidAlloctor).connMap conn.kind).find conn.handle =
      some s.nextConn := by
  dsimp only [withConn]
  rw [if_pos rfl]
  exact Assoc.find_insert_self _ _ hfree

/-- An entry afterwards is the new one or an old one. -/
theorem of_connMap_withConn
    (hfind : ((withConn s conn uuidConnMap uuidAlloctor).connMap k).find fd = some d) :
    k = conn.kind ∧ fd = conn.handle ∧ d = s.nextConn ∨ (s.connMap k).find fd = some d := by
  dsimp only [withConn] at hfind
  split at hfind
  next hk =>
    subst hk
    exact (Assoc.find_of_find_insert hfind).imp_left fun hnew => ⟨rfl, hnew⟩
  next => exact .inr hfind

theorem registered_withConn_new (hfree : (s.connMap conn.kind).find conn.handle = none) :
    Registered (withConn s conn uuidConnMap uuidAlloctor) s.nextConn :=
  ⟨conn, conns_withConn_new, connMap_withConn_new hfree⟩

/-- The others are registered as before. -/
theorem Tables.registered_withConn_iff (h : Tables s)
    (hfree : (s.connMap conn.kind).find conn.handle = none) (hd : d ≠ s.nextConn) :
    Registered (withConn s conn uuidConnMap uuidAlloctor) d ↔ Registered s d := by
  constructor
  · rintro ⟨x, hx, hmap⟩
    rcases Assoc.find_set_iff.mp hx with ⟨hd', -⟩ | ⟨-, hx⟩
    · exact absurd hd' hd
    · rcases of_connMap_withConn hmap with ⟨-, -, hd'⟩ | hmap
      · exact absurd hd' hd
      · exact ⟨x, hx, hmap⟩
  · rintro ⟨x, hx, hmap⟩
    exact ⟨x, h.conns_withConn hx, connMap_withConn hfree hmap⟩

theorem Tables.withConn (h : Tables s) (hvalid : conn.handle ≠ netlibInvalidHandle)
    (hcount : 0 < conn.refCount) (hopen : s.socketMap.find conn.handle ≠ none)
    (hfree : ∀ kind, (s.connMap kind).find conn.handle = none)
    (huuids : UuidEntry s conn uuidConnMap) :
    Tables (Dispatch.withConn s conn uuidConnMap uuidAlloctor) := by
  refine ⟨?_, ?_, ?_, ?_, h.sockets, ?_, h.places⟩
  · intro k
    dsimp only [Dispatch.withConn]
    split
    · exact Assoc.nodup_keys_insert _ _ (h.keys _)
    · exact h.keys k
  · intro k fd d hfind
    rcases of_connMap_withConn hfind with ⟨rfl, rfl, rfl⟩ | hfind
    · exact ⟨conn, conns_withConn_new, rfl, rfl, hopen⟩
    · obtain ⟨x, hx, hrest⟩ := h.mapped k fd d hfind
      exact ⟨x, h.conns_withConn hx, hrest⟩
  · intro k k' fd d d' hfind hfind'
    rcases of_connMap_withConn hfind with ⟨rfl, rfl, rfl⟩ | hd
    · rcases of_connMap_withConn hfind' with ⟨rfl, -, -⟩ | hd'
      · rfl
      · rw [hfree k'] at hd'
        cases hd'
    · rcases of_connMap_withConn hfind' with ⟨rfl, rfl, rfl⟩ | hd'
      · rw [hfree k] at hd
        cases hd
      · exact h.apart k k' fd d d' hd hd'
  · have hold : ∀ uuid d, s.uuidConnMap.find uuid = some d → ∃ x,
        (Dispatch.withConn s conn uuidConnMap uuidAlloctor).conns.find d = some x ∧
        x.kind = .business ∧ x.uuid = uuid ∧
        ((Dispatch.withConn s conn uuidConnMap uuidAlloctor).connMap .business).find x.handle =
          some d := by
      intro uuid d hfind
      obtain ⟨x, hx, hk, hu, hfd⟩ := h.uuids uuid d hfind
      exact ⟨x, h.conns_withConn hx, hk, hu, connMap_withConn (hfree _) hfd⟩
    intro uuid d hfind
    rcases huuids with rfl | ⟨hbusiness, rfl⟩
    · exact hold uuid d hfind
    · rcases Assoc.find_of_find_insert hfind with ⟨rfl, rfl⟩ | hfind
      · refine ⟨conn, conns_withConn_new, hbusiness, rfl, ?_⟩
        rw [← hbusiness]
        exact connMap_withConn_new (hfree _)
      · exact hold uuid d hfind
  · intro d x hx
    rcases Assoc.find_set_iff.mp hx with ⟨rfl, rfl⟩ | ⟨-, hx⟩
    · exact ⟨Nat.lt_succ_self _, hvalid, hcount⟩
    · obtain ⟨hlt, hrest⟩ := h.objects d x hx
      exact ⟨Nat.lt_succ_of_lt hlt, hrest⟩

theorem Inv.withConn (h : Inv s) (hrun : s.status = .running)
    (hvalid : conn.handle ≠ netlibInvalidHandle) (hone : conn.refCount = 1)
    (hopen : s.socketMap.find conn.handle ≠ none)
    (hfree : ∀ kind, (s.connMap kind).find conn.handle = none)
    (huuids : UuidEntry s conn uuidConnMap) :
    Inv (Dispatch.withConn s conn uuidConnMap uuidAlloctor) := by
  have hnone := h.tables.conns_nextConn
  have hnot : ¬ Registered s s.nextConn := by
    rintro ⟨x, hx, -⟩
    rw [hnone] at hx
    cases hx
  have hothers : ∀ d, d ≠ s.nextConn →
      (Registered (Dispatch.withConn s conn uuidConnMap uuidAlloctor) d ↔ Registered s d) :=
    fun d hd => h.tables.registered_withConn_iff (hfree _) hd
  refine ⟨h.tables.withConn hvalid (hone ▸ Nat.one_pos) hopen hfree huuids, ?_, ?_, ?_, .inl hrun⟩
  · refine h.shape.mono ?_ (fun d x hx => ⟨x, h.tables.conns_withConn hx⟩)
      fun k fd d hfind => connMap_withConn (hfree _) hfind
    intro d hd
    exact (hothers d (fun heq => hnot (heq ▸ hd))).mpr hd
  · refine h.counted.step (.create s.nextConn ⟨?_, ?_⟩ ⟨hnot, registered_withConn_new (hfree _)⟩
      rfl ?_ ⟨?_, hothers, fun _ _ => rfl⟩ rfl)
    · simp [life, hnone]
    · simp [life, conns_withConn_new, hone]
    · exact fun hclosed => absurd (h.used _ hclosed) (Nat.lt_irrefl _)
    · intro d hd
      simp [life, Dispatch.withConn, Assoc.find_set_of_ne _ _ hd]
  · intro d hd
    exact Nat.lt_succ_of_lt (h.used d hd)

end

theorem Inv.onConnect (h : Inv s) (hrun : s.status = .running) (kind : Kind) {fd : Int}
    (now : UInt64) (hvalid : fd ≠ netlibInvalidHandle) (hopen : s.socketMap.find fd ≠ none)
    (hfree : ∀ kind, (s.connMap kind).find fd = none) : Inv (s.onConnect kind fd now) := by
  obtain ⟨conn, uuidConnMap, uuidAlloctor, rfl, rfl, hone, huuids, heq⟩ :=
    onConnect_eq s kind fd now
  rw [heq]
  exact (h.withConn hrun hvalid hone hopen hfree huuids).setCallback hrun conn.handle _

theorem Inv.acceptNewSocket (h : Inv s) (hrun : s.status = .running) (callback : Callback) {fd : Int}
    (now : UInt64) (hvalid : fd ≠ netlibInvalidHandle) (hfree : s.socketMap.find fd = none) :
    Inv (s.acceptNewSocket callback fd now) := by
  have hsocket : Inv (s.addBaseSocket ⟨fd, .connected, callback⟩) := h.addBaseSocket hrun hfree
  cases callback with
  | imconn kind => exact hsocket
  | listener kind =>
    refine hsocket.onConnect hrun kind now hvalid ?_ ?_
    · have hfind : (s.socketMap.insert fd s.nextSocket).find fd = some s.nextSocket :=
        Assoc.find_insert_self _ _ hfree
      exact fun hnone => absurd (hfind.symm.trans hnone) (Option.some_ne_none _)
    · intro k
      -- A connection under this descriptor would have an open socket.
      cases hfind : (s.connMap k).find fd with
      | none => exact hfind
      | some c =>
        obtain ⟨-, -, -, -, hopen⟩ := h.tables.mapped k fd c hfind
        exact absurd hfree hopen

/-! ### One step of the thread -/

theorem Inv.mCallback (h : Inv s) (hrun : s.status = .running) (socket : CBaseSocket) (msg : Msg)
    {sock : SocketRef} {cs : List SocketCall} {rest : List (Int × EpollEvents)}
    (hstack : s.stack = [.calls sock cs, .events rest]) : Inv (s.mCallback socket msg) := by
  unfold Process.mCallback
  split
  next => exact h
  next kind =>
    split
    next => exact h
    next c hfind => exact h.deliver hrun msg hstack hfind

/-- A descriptor that the system may return: it is valid, and not open. -/
def Fresh (s : Process σ) (fd : Int) : Prop :=
  fd ≠ netlibInvalidHandle ∧ s.socketMap.find fd = none

variable {input : Input}

theorem Inv.socketCall (h : Inv s) (hrun : s.status = .running)
    (hfresh : ∀ fd, input.accepted = some fd → Fresh s fd) {sock : SocketRef} {call : SocketCall}
    {cs : List SocketCall} {rest : List (Int × EpollEvents)}
    (hstack : s.stack = [.calls sock (call :: cs), .events rest]) :
    Inv ({ s with stack := [.events rest] }.socketCall input sock call cs) := by
  have hquiet : ∀ cs', Inv { s with stack := [.calls sock cs', .events rest] } := by
    intro cs'
    refine h.move hrun (.calls sock cs' rest) fun c => ?_
    simp [Process.running, hstack]
  unfold Process.socketCall
  split
  next =>
    refine h.move hrun (.events rest) fun c => ?_
    simp [Process.running, hstack]
  next socket hsocket =>
    cases call with
    | onClose =>
      have hfd : { socket with state := .closing }.socket = socket.socket := rfl
      have hclosing := (hquiet cs).quiet ((hquiet cs).tables.setSocket hsocket hfd) rfl rfl rfl rfl
        hrun (.calls sock cs rest) fun _ => rfl
      exact hclosing.mCallback hrun socket .close rfl
    | onRead =>
      simp only
      split
      next =>
        split
        next fd hfd =>
          obtain ⟨hvalid, hfree⟩ := hfresh fd hfd
          exact (hquiet (.onRead :: cs)).acceptNewSocket hrun socket.callback input.now hvalid hfree
        next => exact hquiet cs
      next => exact (hquiet cs).mCallback hrun socket _ rfl
    | onWrite => exact (hquiet cs).mCallback hrun socket .write rfl

theorem Inv.connCallback (h : Inv s) (hrun : s.status = .running) {msg : Msg} {sock : SocketRef}
    {cs : List SocketCall} {rest : List (Int × EpollEvents)}
    (hstack : s.stack = [.callback msg c, .releaseRef c, .calls sock cs, .events rest])
    (hreg : Registered s c) :
    Inv ({ s with stack := [.releaseRef c, .calls sock cs, .events rest] }.connCallback
      C input msg c) := by
  obtain ⟨conn, hconn, hmap⟩ := id hreg
  simp only [Process.connCallback, hconn]
  cases msg with
  | read =>
    have hsame : SameConn conn { conn with
        inBuf := (Process.connOnRead C conn c s.world input.chunks).inBuf
        lastRecvTick := if input.chunks = [] then conn.lastRecvTick else input.now } :=
      ⟨rfl, rfl, rfl⟩
    have hread := h.setConn hrun hconn hsame rfl
    have hreg' := (registered_setConn hconn hsame c).mpr hreg
    simp only
    split
    next =>
      refine hread.quiet (hread.tables.rest _ _ _ _ _) rfl rfl rfl rfl hrun
        (.release c sock cs rest _ (Assoc.find_set_self _ _ _)) fun d => ?_
      simp [Process.running, hstack]
    next =>
      refine hread.quiet (hread.tables.rest _ _ _ _ _) rfl rfl rfl rfl hrun
        (.close c sock cs rest hreg') fun d => ?_
      simp [Process.running, Process.push, hstack]
    next =>
      -- The stack is as it was: `OnRead` has not come back.
      refine ⟨hread.tables.rest _ _ _ _ _, ?_, hread.counted.step (.same (fun _ => rfl)
        (fun _ => Iff.rfl) (fun d => ?_) rfl), h.used, .inr ⟨rfl, c, _, rfl⟩⟩
      · exact .callback .read c sock cs rest hreg'
      · simp [life, Process.running, Process.push, hstack]
  | write =>
    refine h.move hrun (.release c sock cs rest conn hconn) fun d => ?_
    simp [Process.running, hstack]
  | close =>
    refine h.move hrun (.close c sock cs rest hreg) fun d => ?_
    simp [Process.running, hstack]

theorem Inv.onTimer (h : Inv s) (hrun : s.status = .running) {kind : Kind} {currTick : UInt64}
    {fd : Int} {rest : List Int} (hstack : s.stack = [.timer kind currTick rest])
    (hnodup : (fd :: rest).Nodup)
    (hrest : ∀ fd' ∈ fd :: rest, ∃ c, (s.connMap kind).find fd' = some c) :
    Inv (s.onTimer C kind currTick fd) := by
  obtain ⟨c, hfind⟩ := hrest fd List.mem_cons_self
  have hreg := h.tables.registered hfind
  obtain ⟨conn, hconn, -, rfl, -⟩ := h.tables.mapped kind fd c hfind
  rw [List.nodup_cons] at hnodup
  have htouched := h.touch hrun hreg
  unfold Process.onTimer
  simp only [hfind, hconn]
  split
  next =>
    have hstack' : (s.record (.delivered c)).stack = [.timer kind currTick rest] := hstack
    rw [Process.push, hstack']
    refine htouched.move hrun (.timerClose c kind currTick rest hreg hnodup.2 fun fd' hfd' => ?_)
      fun d => ?_
    · obtain ⟨d, hd⟩ := hrest fd' (List.mem_cons_of_mem _ hfd')
      refine ⟨d, ?_, hd⟩
      rintro rfl
      obtain ⟨x, hx, -, rfl, -⟩ := h.tables.mapped kind fd' d hd
      cases hconn.symm.trans hx
      exact hnodup.1 hfd'
    · simp [Process.running, hstack']
  next => exact htouched

theorem Inv.sendResponsePdu (h : Inv s) (hrun : s.status = .running)
    (hstack : s.stack = [.sendResponsePduList]) (uuid : UInt32) (pdu : Bool) :
    Inv (s.sendResponsePdu uuid pdu) := by
  unfold Process.sendResponsePdu
  split
  next => exact h
  next c hfind =>
    have hreg := h.tables.registered_uuid hfind
    obtain ⟨conn, hconn, -⟩ := id hreg
    have htouched := h.touch hrun hreg
    simp only [hconn]
    split
    next => exact htouched
    next =>
      have hstack' : (s.record (.delivered c)).stack = [.sendResponsePduList] := hstack
      rw [Process.push, hstack']
      refine htouched.move hrun (.responseClose c hreg) fun d => ?_
      simp [Process.running, hstack']

theorem Inv.next (h : Inv s) (hrun : s.status = .running)
    (hfresh : ∀ fd, input.accepted = some fd → Fresh s fd) {f : Frame} {rest : List Frame}
    (hstack : s.stack = f :: rest) : Inv ({ s with stack := rest }.runFrame C input f) := by
  have hshape := h.shape
  rw [hstack] at hshape
  cases hshape with
  | events evs =>
    cases evs with
    | nil =>
      refine h.move hrun .idle fun d => ?_
      simp [Process.running, hstack]
    | cons e evs =>
      obtain ⟨fd, e⟩ := e
      simp only [Process.runFrame, Process.push]
      split
      next =>
        refine h.move hrun (.events evs) fun d => ?_
        simp [Process.running, hstack]
      next sock hsock =>
        refine h.move hrun (.calls sock e.calls evs) fun d => ?_
        simp [Process.running, hstack]
  | calls sock cs evs =>
    cases cs with
    | nil =>
      refine h.move hrun (.events evs) fun d => ?_
      simp [Process.running, hstack]
    | cons call cs => exact h.socketCall hrun hfresh hstack
  | callback msg c sock cs evs hreg => exact h.connCallback hrun hstack hreg
  | close c sock cs evs hreg =>
    refine h.close hrun hstack hreg rfl fun _ hkept => ?_
    obtain ⟨conn, hconn⟩ := hkept (by simp [Process.running, hstack])
    exact .release c sock cs evs conn hconn
  | release c sock cs evs conn hconn => exact h.release hrun hstack hconn
  | timer kind currTick fds hnodup hfds =>
    cases fds with
    | nil =>
      refine h.move hrun .idle fun d => ?_
      simp [Process.running, hstack]
    | cons fd fds =>
      have hmoved : Inv { s with stack := [.timer kind currTick fds] } := by
        refine h.move hrun (.timer kind currTick fds hnodup.of_cons fun fd' hfd' => ?_) fun d => ?_
        · exact hfds fd' (List.mem_cons_of_mem _ hfd')
        · simp [Process.running, hstack]
      exact hmoved.onTimer hrun rfl hnodup hfds
  | timerClose c kind currTick fds hreg hnodup hfds =>
    refine h.close hrun hstack hreg rfl fun hkept _ => ?_
    refine .timer kind currTick fds hnodup fun fd hfd => ?_
    obtain ⟨d, hne, hd⟩ := hfds fd hfd
    exact ⟨d, hkept kind fd d hne hd⟩
  | responses =>
    simp only [Process.runFrame]
    split
    next =>
      refine h.move hrun .idle fun d => ?_
      simp [Process.running, hstack]
    next uuid pdu responses hresponses =>
      have hmoved : Inv { s with
          responsePduList := responses, stack := [.sendResponsePduList] } := by
        refine h.quiet (h.tables.rest _ _ _ _ _) rfl rfl rfl rfl hrun .responses fun d => ?_
        simp [Process.running, hstack]
      exact hmoved.sendResponsePdu hrun rfl uuid pdu
  | responseClose c hreg => exact h.close hrun hstack hreg rfl fun _ _ => .responses

/-! ### Runs -/

/-- What the system does: `socket` and `accept` return descriptors that are not open. -/
def Possible (s : Process σ) : Step σ → Prop
  | .listen fd _ => Fresh s fd
  | .next input => ∀ fd, input.accepted = some fd → Fresh s fd
  | _ => True

theorem Inv.begin (h : Inv s) (hrun : s.status = .running) {f : Frame} (hshape : Shape s [f])
    (hf : ∀ c, f ≠ .releaseRef c) : Inv (s.begin f) := by
  unfold Process.begin
  split
  next hidle =>
    rw [Process.push, hidle]
    refine h.move hrun hshape fun c => ?_
    simp [Process.running, hidle, hf c]
  next => exact h

/-- **One step.** -/
theorem Inv.step (h : Inv s) {e : Step σ} (he : Possible s e) : Inv (step C s e) := by
  unfold Dispatch.step
  split
  next => exact h
  next => exact h
  next hrun =>
    cases e with
    | listen fd kind => exact h.addBaseSocket hrun he.2
    | epollWait events => exact h.begin hrun (.events events) (by simp)
    | checkTimer kind currTick =>
      refine h.begin hrun (.timer kind currTick _ (h.tables.keys kind) fun fd hfd => ?_) (by simp)
      exact Assoc.exists_find_of_mem_keys hfd
    | checkLoop => exact h.begin hrun .responses (by simp)
    | next input =>
      simp only
      split
      next => exact h
      next f rest hstack => exact h.next hrun he hstack
    | addResponsePdu uuid pdu =>
      exact h.quiet (h.tables.rest _ _ _ _ _) rfl rfl rfl rfl hrun h.shape fun _ => rfl
    | elsewhere world =>
      exact h.quiet (h.tables.rest _ _ _ _ _) rfl rfl rfl rfl hrun h.shape fun _ => rfl

theorem inv_start (world : σ) : Inv (.start world) := by
  refine ⟨⟨fun _ => List.nodup_nil, ?_, ?_, ?_, ?_, ?_, ?_⟩, .idle, ⟨?_, justified_nil⟩, ?_, .inl rfl⟩
  · intro kind fd c hfind
    cases hfind
  · intro kind kind' fd c c' hfind
    cases hfind
  · intro uuid c hfind
    cases hfind
  · intro fd sock hfind
    cases hfind
  · intro c conn hfind
    cases hfind
  · intro sock socket hfind
    cases hfind
  · intro c
    refine ⟨?_, fun _ => ⟨rfl, fun hpos => absurd hpos (Nat.lt_irrefl 0)⟩, ?_⟩
    · rintro ⟨conn, hconn, -⟩
      cases hconn
    · intro hclosed
      cases hclosed
  · intro c hclosed
    cases hclosed

/-- A closed connection whose count is not zero has a callback that is about to give up its
    reference. -/
theorem Inv.closed_cases (h : Inv s) (hclosed : .closed c ∈ s.log) :
    .zero c ∈ s.log ∨ s.status = .running ∧ s.running c = 1 ∧ ∃ conn rest,
      s.conns.find c = some conn ∧ conn.refCount = 1 ∧ s.stack = .releaseRef c :: rest := by
  by_cases hzero : .zero c ∈ s.log
  · exact .inl hzero
  · refine .inr ?_
    have hnot : ¬ Registered s c := fun hreg => ((h.counted.ok c).held hreg).2 hclosed
    have hcount : (life s).count c ≠ 0 :=
      fun hnone => hzero (((h.counted.ok c).zero hclosed).mpr hnone)
    have hleft : (life s).count c = s.running c := ((h.counted.ok c).left hnot).1
    obtain ⟨conn, hconn⟩ : ∃ conn, s.conns.find c = some conn := by
      cases hfind : s.conns.find c with
      | none => exact absurd (by simp [life, hfind]) hcount
      | some conn => exact ⟨conn, rfl⟩
    have hrefs : conn.refCount = s.running c := by
      rw [← hleft]
      simp [life, hconn]
    have hmem : Frame.releaseRef c ∈ s.stack := by
      refine List.count_pos_iff.mp (Nat.pos_of_ne_zero ?_)
      rw [hleft] at hcount
      exact hcount
    have hshape := h.shape
    generalize hstack : s.stack = stack at hshape hmem
    cases hshape with
    | callback msg d sock cs rest hd =>
      have heq : c = d := by simpa using hmem
      exact absurd (heq ▸ hd) hnot
    | close d sock cs rest hd =>
      have heq : c = d := by simpa using hmem
      exact absurd (heq ▸ hd) hnot
    | release d sock cs rest x hx =>
      have heq : c = d := by simpa using hmem
      subst heq
      have hone : s.running c = 1 := by simp [Process.running, hstack]
      refine ⟨?_, hone, conn, _, hconn, hrefs.trans hone, rfl⟩
      rcases h.alive with hrun | ⟨-, d, rest', hstack'⟩
      · exact hrun
      · rw [hstack] at hstack'
        cases hstack'
    | idle | events | calls | timer | timerClose | responses | responseClose => simp at hmem

/-- What is wanted of every state. -/
structure Lives (C : Code σ) (s : Process σ) : Prop where
  noFault : s.status ≠ .fault
  closedOnce : ∀ c, s.log.count (.closed c) ≤ 1
  counted : ∀ kind fd c, (s.connMap kind).find fd = some c →
    .closed c ∉ s.log ∧ ∃ conn, s.conns.find c = some conn ∧ conn.refCount = 1 + s.running c
  /-- Every object is registered until it is closed. -/
  registered : ∀ c conn, s.conns.find c = some conn → .closed c ∉ s.log →
    ∃ kind fd, (s.connMap kind).find fd = some c
  zeroOnce : ∀ c, s.log.count (.zero c) ≤ 1
  zeroAfterClose : ∀ pre c post, s.log = pre ++ .zero c :: post → .closed c ∈ pre
  /-- After `Close` the count is zero, or it is at the next step. -/
  reachesZero : ∀ c, .closed c ∈ s.log →
    .zero c ∈ s.log ∨ s.running c = 1 ∧ ∀ input, .zero c ∈ (step C s (.next input)).log
  quiet : ∀ pre c post, s.log = pre ++ .delivered c :: post → .closed c ∉ pre

theorem Inv.lives (h : Inv s) : Lives C s := by
  refine ⟨?_, h.counted.count_closed_le, ?_, ?_, h.counted.count_zero_le, ?_, ?_, ?_⟩
  · rcases h.alive with hrun | ⟨hcrashed, -⟩
    · simp [hrun]
    · simp [hcrashed]
  · intro kind fd c hfind
    obtain ⟨conn, hconn, -⟩ := h.tables.mapped kind fd c hfind
    obtain ⟨hheld, hopen⟩ := (h.counted.ok c).held (h.tables.registered hfind)
    refine ⟨hopen, conn, hconn, ?_⟩
    have hcount : (life s).count c = conn.refCount := by simp [life, hconn]
    rw [← hcount, hheld, Nat.add_comm]
    rfl
  · intro c conn hconn hopen
    by_contra hnone
    have hnot : ¬ Registered s c := by
      rintro ⟨x, -, hmap⟩
      exact hnone ⟨_, _, hmap⟩
    refine hopen (((h.counted.ok c).left hnot).2 ?_)
    have hpos := (h.tables.objects c conn hconn).2.2
    simpa [life, hconn] using hpos
  · intro pre c post heq
    exact (h.counted.justified pre _ post heq).1
  · intro c hclosed
    rcases h.closed_cases hclosed with hzero | ⟨hrun, hone, conn, rest, hconn, hrefs, hstack⟩
    · exact .inl hzero
    · refine .inr ⟨hone, fun input => ?_⟩
      simp [Dispatch.step, hrun, hstack, Process.runFrame, Process.releaseRef, hconn, hrefs,
        Process.record]
  · intro pre c post heq
    exact h.counted.justified pre _ post heq

end

/-- **Lives of connections.** In every state of every run of the thread and the workers, a connection
    is closed at most once, is counted right while it is registered, and is quiet afterwards. -/
theorem lives_of_possible {σ : Type} (C : Code σ) (world : σ) (es : List (Step σ))
    (hes : EachStep (step C) Possible (.start world) es) :
    Lives C (es.foldl (step C) (.start world)) := by
  have hinv := EachStep.invariant Inv (fun s e h he => h.step he) (inv_start world) hes
  exact hinv.lives

/-! ### One connection -/

/-- Handlers that do nothing. -/
def idleCode : Code Unit where
  handler _ := ⟨fun _ _ => 0, fun w _ => (w, none)⟩
  pool := ⟨fun _ _ => 0, fun w _ => w⟩
  hasHandler _ := false
  isMobile _ _ := false
  isOpen _ _ := false
  leaveUser w _ := w

/-- A client connects. Later its socket can be read and written and has an error, all at once, and
    there is nothing to read. -/
def threeBits : List (Step Unit) :=
  [.listen 3 .msg, .epollWait [(3, { input := true })], .next {}, .next { accepted := some 5 },
    .next {}, .next {}, .next {},
    .epollWait [(5, { input := true, output := true, excep := true })], .next {},
    .next { avail := false }, .next {}, .next {}, .next {}, .next {}, .next {}]

theorem lives_threeBits :
    (threeBits.foldl (step idleCode) (.start ())).log = [.delivered 0, .closed 0, .zero 0] ∧
      Lives idleCode (threeBits.foldl (step idleCode) (.start ())) := by
  have hnone : ∀ (s : Process Unit) (input : Input), input.accepted = none →
      Possible s (.next input) := by
    intro s input hnone fd hfd
    rw [hnone] at hfd
    cases hfd
  refine ⟨rfl, lives_of_possible idleCode () threeBits ?_⟩
  refine ⟨⟨by decide, rfl⟩, trivial, hnone _ _ rfl, ?_, hnone _ _ rfl, hnone _ _ rfl, hnone _ _ rfl,
    trivial, hnone _ _ rfl, hnone _ _ rfl, hnone _ _ rfl, hnone _ _ rfl, hnone _ _ rfl,
    hnone _ _ rfl, hnone _ _ rfl, trivial⟩
  intro fd hfd
  cases hfd
  exact ⟨by decide, rfl⟩

end Dispatch

end Server
end Proof
end PtpCore
