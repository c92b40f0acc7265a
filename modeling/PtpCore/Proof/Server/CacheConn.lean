import PtpCore.Lib.Run
import PtpCore.Server.CacheConn

/-!
# Commands on contexts that are ready

A command belongs on a context on which `AUTH` and `SELECT` have succeeded, and which has not been
freed since. `Init` takes any context that is kept for one: it leaves a context where it is when
`AUTH` or `SELECT` fails, and `isExists` leaves one that it has freed. These two are the only ways
to a context that is not ready (`Sound`), and each of them is one.
-/

namespace PtpCore
namespace Proof
namespace Server

open Lib
open PtpCore.Server

/-! ## Readiness -/

def contextOf : ContextEvent → ContextRef
  | .auth context _ => context
  | .select context _ _ => context
  | .command context _ => context
  | .free context => context

/-- By what the log says, both succeeded on this context, and it is not freed. -/
structure Ready (dbNum : Int) (log : List ContextEvent) (context : ContextRef) : Prop where
  auth : .auth context true ∈ log
  select : .select context dbNum true ∈ log
  kept : .free context ∉ log

/-- A command needs a context that is ready. -/
def Needs (dbNum : Int) (before : List ContextEvent) (e : ContextEvent) : Prop :=
  ∀ context cmd, e = .command context cmd → Ready dbNum before context

/-- `Init` answers 0 for no other context. -/
def InitReady (dbNum : Int) (conn : CacheConn) : Prop :=
  ∀ env, (conn.init dbNum env).1 = 0 →
    ∃ context, (conn.init dbNum env).2.context = some context ∧
      Ready dbNum (conn.init dbNum env).2.log context

/-- `Init` makes a new context here. -/
def Connects (conn : CacheConn) (env : CacheEnv) : Prop :=
  conn.context = none ∧ ¬ env.now < conn.lastConnectTime + 4 ∧ env.connect = .ok

/-- A new context is logged in, and `isExists` gets a reply. -/
structure Sound (conn : CacheConn) (e : CacheCall × CacheEnv) : Prop where
  login : Connects conn e.2 → Reply.isOk e.2.auth = true ∧ Reply.isOk e.2.select = true
  isExists : conn.context ≠ none ∨ Connects conn e.2 → ∀ key, e.1 = .isExists key →
    e.2.reply ≠ none

section

variable {dbNum : Int} {log : List ContextEvent} {context : ContextRef} {conn : CacheConn}
  {env : CacheEnv} {call : CacheCall}

theorem Ready.concat (h : Ready dbNum log context) {e : ContextEvent} (he : e ≠ .free context) :
    Ready dbNum (log ++ [e]) context where
  auth := List.mem_append_left _ h.auth
  select := List.mem_append_left _ h.select
  kept := by
    intro hmem
    rcases List.mem_append.mp hmem with hmem | hmem
    · exact h.kept hmem
    · exact he (List.mem_singleton.mp hmem).symm

/-! ## The log -/

structure LogInv (dbNum : Int) (conn : CacheConn) : Prop where
  /-- The next number is new. -/
  fresh : ∀ e ∈ conn.log, contextOf e < conn.nextContext
  justified : Justified (Needs dbNum) conn.log

theorem LogInv.record (h : LogInv dbNum conn) {e : ContextEvent}
    (he : contextOf e < conn.nextContext) (hneeds : Needs dbNum conn.log e) :
    LogInv dbNum (conn.record e) := by
  refine ⟨?_, h.justified.concat hneeds⟩
  intro e' he'
  rcases List.mem_append.mp he' with he' | he'
  · exact h.fresh e' he'
  · cases List.mem_singleton.mp he'
    exact he

/-- What is no command needs nothing. -/
theorem needs_of_ne {e : ContextEvent} (he : ∀ context cmd, e ≠ .command context cmd) :
    Needs dbNum log e :=
  fun context cmd h => absurd h (he context cmd)

theorem LogInv.setTime (h : LogInv dbNum conn) (now : UInt64) : LogInv dbNum (conn.setTime now) :=
  ⟨h.fresh, h.justified⟩

theorem LogInv.newContext (h : LogInv dbNum conn) : LogInv dbNum conn.newContext :=
  ⟨fun e he => (h.fresh e he).trans (Nat.lt_succ_self _), h.justified⟩

theorem LogInv.forget (h : LogInv dbNum conn) : LogInv dbNum conn.forget :=
  ⟨h.fresh, h.justified⟩

theorem LogInv.free (h : LogInv dbNum conn) (hlt : context < conn.nextContext) :
    LogInv dbNum (conn.record (.free context)) :=
  h.record hlt (needs_of_ne (by simp))

theorem LogInv.login (h : LogInv dbNum conn) (hlt : context < conn.nextContext) :
    LogInv dbNum (conn.login dbNum env context).2 := by
  have hauth : LogInv dbNum (conn.record (.auth context (Reply.isOk env.auth))) :=
    h.record hlt (needs_of_ne (by simp))
  have hselect := hauth.record (e := .select context dbNum (Reply.isOk env.select)) hlt
    (needs_of_ne (by simp))
  rw [CacheConn.login]
  split
  · split
    · exact hselect
    · exact hselect
  · exact hauth

/-- A number that is not in the log yet is in none of its events. -/
theorem LogInv.not_mem (h : LogInv dbNum conn) {e : ContextEvent}
    (he : contextOf e = conn.nextContext) : e ∉ conn.log :=
  fun hmem => absurd (he ▸ h.fresh e hmem) (Nat.lt_irrefl _)

/-! ## `Init` -/

theorem init_of_context (h : conn.context = some context) : conn.init dbNum env = (0, conn) := by
  rw [CacheConn.init, h]

theorem init_of_connects (h : Connects conn env) :
    conn.init dbNum env =
      (conn.setTime env.now).newContext.login dbNum env conn.nextContext := by
  obtain ⟨hnone, hnow, hconnect⟩ := h
  rw [CacheConn.init, hnone]
  dsimp only
  rw [if_neg hnow, hconnect]
  rfl

theorem init_of_not_connects (hinv : LogInv dbNum conn) (h : conn.context = none)
    (hnot : ¬ Connects conn env) :
    ∃ conn', conn.init dbNum env = (1, conn') ∧ conn'.context = none ∧ LogInv dbNum conn' := by
  rw [CacheConn.init, h]
  by_cases hnow : env.now < conn.lastConnectTime + 4
  · exact ⟨conn, if_pos hnow, h, hinv⟩
  · dsimp only
    rw [if_neg hnow]
    cases hconnect : env.connect with
    | null => exact ⟨_, rfl, h, hinv.setTime _⟩
    | err =>
      refine ⟨_, rfl, rfl, LogInv.forget (LogInv.free ?_ (Nat.lt_succ_self _))⟩
      exact (hinv.setTime _).newContext
    | ok => exact absurd ⟨h, hnow, hconnect⟩ hnot

/-- A new context stays, whatever `AUTH` and `SELECT` answer. -/
theorem context_login (conn : CacheConn) :
    (conn.login dbNum env context).2.context = conn.context := by
  rw [CacheConn.login]
  split
  · split
    · rfl
    · rfl
  · rfl

theorem fst_login (conn : CacheConn) :
    (conn.login dbNum env context).1 = 0 ↔
      Reply.isOk env.auth = true ∧ Reply.isOk env.select = true := by
  rw [CacheConn.login]
  cases Reply.isOk env.auth with
  | false => simp
  | true =>
    cases Reply.isOk env.select with
    | false => simp
    | true => simp

theorem ready_login_iff (hinv : LogInv dbNum conn) (now : UInt64) :
    Ready dbNum ((conn.setTime now).newContext.login dbNum env conn.nextContext).2.log
        conn.nextContext ↔
      Reply.isOk env.auth = true ∧ Reply.isOk env.select = true := by
  have hauth : ContextEvent.auth conn.nextContext true ∉ conn.log := hinv.not_mem rfl
  have hselect : ContextEvent.select conn.nextContext dbNum true ∉ conn.log := hinv.not_mem rfl
  have hfree : ContextEvent.free conn.nextContext ∉ conn.log := hinv.not_mem rfl
  rw [CacheConn.login]
  constructor
  · intro h
    have ha := h.auth
    have hs := h.select
    cases hok : Reply.isOk env.auth with
    | false => simp [hok, CacheConn.record, CacheConn.newContext, CacheConn.setTime, hauth] at ha
    | true =>
      cases hok' : Reply.isOk env.select with
      | false =>
        simp [hok, hok', CacheConn.record, CacheConn.newContext, CacheConn.setTime, hselect] at hs
      | true => exact ⟨rfl, rfl⟩
  · rintro ⟨hok, hok'⟩
    rw [hok, hok']
    refine ⟨?_, ?_, ?_⟩
    · simp [CacheConn.record]
    · simp [CacheConn.record]
    · simp [CacheConn.record, CacheConn.newContext, CacheConn.setTime, hfree]

/-! ## The invariant -/

structure ConnInv (dbNum : Int) (conn : CacheConn) : Prop extends LogInv dbNum conn where
  kept : ∀ context, conn.context = some context → Ready dbNum conn.log context

theorem connInv_new : ConnInv dbNum CacheConn.new := by
  refine ⟨⟨?_, justified_nil⟩, ?_⟩
  · intro e he
    simp [CacheConn.new] at he
  · intro context h
    simp [CacheConn.new] at h

theorem ConnInv.lt_next (h : ConnInv dbNum conn) (hcontext : conn.context = some context) :
    context < conn.nextContext :=
  h.fresh _ (h.kept context hcontext).auth

/-- `Init` as far as a call goes on from it. -/
theorem ConnInv.init (h : ConnInv dbNum conn)
    (hlogin : Connects conn env → Reply.isOk env.auth = true ∧ Reply.isOk env.select = true) :
    ConnInv dbNum (conn.init dbNum env).2 ∧
      ((conn.init dbNum env).1 = 0 ↔ (conn.init dbNum env).2.context ≠ none) ∧
      ((conn.init dbNum env).1 = 0 ↔ conn.context ≠ none ∨ Connects conn env) := by
  cases hcontext : conn.context with
  | some context =>
    rw [init_of_context hcontext]
    simp [h, hcontext]
  | none =>
    by_cases hconnects : Connects conn env
    · have hok := hlogin hconnects
      rw [init_of_connects hconnects]
      have hlog : LogInv dbNum (conn.setTime env.now).newContext :=
        (h.toLogInv.setTime _).newContext
      refine ⟨⟨hlog.login (Nat.lt_succ_self _), ?_⟩, ?_, ?_⟩
      · intro context hkept
        rw [context_login] at hkept
        cases hkept
        exact (ready_login_iff h.toLogInv env.now).mpr hok
      · rw [context_login]
        simp [fst_login, hok, CacheConn.newContext]
      · simp [fst_login, hok, hconnects]
    · obtain ⟨conn', heq, hnone, hlog⟩ := init_of_not_connects h.toLogInv hcontext hconnects
      rw [heq]
      refine ⟨⟨hlog, ?_⟩, ?_, ?_⟩
      · intro context hkept
        rw [hnone] at hkept
        cases hkept
      · simp [hnone]
      · simp [hconnects]

/-! ## The commands -/

theorem lost_of_ne (hne : ∀ key, call ≠ .isExists key) :
    conn.lost context call = (conn.record (.free context)).forget := by
  cases call with
  | isExists key => exact absurd rfl (hne key)
  | _ => rfl

theorem ConnInv.send (h : ConnInv dbNum conn) (hcontext : conn.context = some context)
    (hexists : ∀ key, call = .isExists key → env.reply ≠ none) :
    ConnInv dbNum (conn.send env call context).2 := by
  have hready := h.kept context hcontext
  have hlt := h.lt_next hcontext
  rw [CacheConn.send]
  cases call.cmdOf with
  | none => exact h
  | some cmd =>
    have hlog : LogInv dbNum (conn.record (.command context cmd)) := by
      refine h.toLogInv.record hlt ?_
      intro context' cmd' heq
      cases heq
      exact hready
    cases hreply : env.reply with
    | some reply =>
      refine ⟨hlog, ?_⟩
      intro context' hkept
      exact (h.kept context' hkept).concat (by simp)
    | none =>
      dsimp only
      rw [lost_of_ne fun key heq => hexists key heq hreply]
      refine ⟨(hlog.free hlt).forget, ?_⟩
      intro context' hkept
      cases hkept

theorem step_of_init_ne {e : CacheCall × CacheEnv} (h : (conn.init dbNum e.2).1 ≠ 0) :
    conn.step dbNum e = (conn.init dbNum e.2).2 := by
  rw [CacheConn.step, CacheConn.run]
  dsimp only
  rw [if_pos h]

theorem step_of_init {e : CacheCall × CacheEnv} (h : (conn.init dbNum e.2).1 = 0)
    (hcontext : (conn.init dbNum e.2).2.context = some context) :
    conn.step dbNum e = ((conn.init dbNum e.2).2.send e.2 e.1 context).2 := by
  rw [CacheConn.step, CacheConn.run]
  dsimp only
  rw [if_neg (not_not.mpr h), hcontext]

theorem ConnInv.step (h : ConnInv dbNum conn) {e : CacheCall × CacheEnv} (he : Sound conn e) :
    ConnInv dbNum (conn.step dbNum e) := by
  obtain ⟨hinit, hkept, hsends⟩ := h.init he.login
  by_cases hret : (conn.init dbNum e.2).1 = 0
  · obtain ⟨context, hcontext⟩ := Option.ne_none_iff_exists'.mp (hkept.mp hret)
    rw [step_of_init hret hcontext]
    exact hinit.send hcontext (he.isExists (hsends.mp hret))
  · rw [step_of_init_ne hret]
    exact hinit

theorem ConnInv.initReady (h : ConnInv dbNum conn) : InitReady dbNum conn := by
  intro env hret
  cases hcontext : conn.context with
  | some context =>
    rw [init_of_context hcontext]
    exact ⟨context, hcontext, h.kept context hcontext⟩
  | none =>
    by_cases hconnects : Connects conn env
    · rw [init_of_connects hconnects] at hret ⊢
      refine ⟨conn.nextContext, ?_, ?_⟩
      · rw [context_login]
        rfl
      · exact (ready_login_iff h.toLogInv env.now).mpr ((fst_login _).mp hret)
    · obtain ⟨conn', heq, -⟩ := init_of_not_connects h.toLogInv hcontext hconnects
      rw [heq] at hret
      cases hret

/-- A context that is kept and not ready is taken for one that is. -/
theorem not_initReady (hcontext : conn.context = some context)
    (hnot : ¬ Ready dbNum conn.log context) : ¬ InitReady dbNum conn := by
  intro h
  have hinit (env : CacheEnv) : conn.init dbNum env = (0, conn) := init_of_context hcontext
  obtain ⟨context', hkept, hready⟩ := h ⟨0, .null, none, none, none⟩ (by rw [hinit])
  rw [hinit] at hkept hready
  cases hcontext.symm.trans hkept
  exact hnot hready

/-- After a step that is not sound such a context is kept. -/
theorem ConnInv.not_initReady_step (h : ConnInv dbNum conn) {e : CacheCall × CacheEnv}
    (he : ¬ Sound conn e) : ¬ InitReady dbNum (conn.step dbNum e) := by
  by_cases hlogin : Connects conn e.2 →
      Reply.isOk e.2.auth = true ∧ Reply.isOk e.2.select = true
  · obtain ⟨hinit, hkept, hsends⟩ := h.init hlogin
    have hexists : ¬ (conn.context ≠ none ∨ Connects conn e.2 → ∀ key, e.1 = .isExists key →
        e.2.reply ≠ none) := fun hexists => he ⟨hlogin, hexists⟩
    push Not at hexists
    obtain ⟨hsend, key, hcall, hreply⟩ := hexists
    have hret := hsends.mpr hsend
    obtain ⟨context, hcontext⟩ := Option.ne_none_iff_exists'.mp (hkept.mp hret)
    rw [step_of_init hret hcontext, hcall, CacheConn.send, CacheCall.cmdOf, hreply]
    refine not_initReady hcontext fun hready => hready.kept ?_
    simp [CacheConn.lost, CacheConn.record]
  · push Not at hlogin
    obtain ⟨hconnects, hbad⟩ := hlogin
    have hnot : ¬ (Reply.isOk e.2.auth = true ∧ Reply.isOk e.2.select = true) :=
      fun hok => hbad hok.1 hok.2
    have hret : (conn.init dbNum e.2).1 ≠ 0 := by
      rw [init_of_connects hconnects]
      exact fun h0 => hnot ((fst_login _).mp h0)
    rw [step_of_init_ne hret, init_of_connects hconnects]
    exact not_initReady (context_login _)
      fun hready => hnot ((ready_login_iff h.toLogInv e.2.now).mp hready)

end

/-! ## Runs -/

/-- **Readiness.** After every call `Init` answers 0 for ready contexts only, just when no new
    context fails `AUTH` or `SELECT` and no `isExists` goes without a reply; and every command of
    such a run is sent on a context that is ready. -/
theorem initReady_iff_sound (dbNum : Int) (calls : List (CacheCall × CacheEnv)) :
    ((∀ pre, pre <+: calls →
        InitReady dbNum (pre.foldl (CacheConn.step dbNum) CacheConn.new)) ↔
      EachStep (CacheConn.step dbNum) Sound CacheConn.new calls) ∧
    (EachStep (CacheConn.step dbNum) Sound CacheConn.new calls →
      Justified (Needs dbNum) (calls.foldl (CacheConn.step dbNum) CacheConn.new).log) := by
  have hkeep : ∀ conn e, ConnInv dbNum conn → Sound conn e → ConnInv dbNum (conn.step dbNum e) :=
    fun conn e h he => h.step he
  constructor
  · exact eachStep_iff_forall_prefix (ConnInv dbNum) hkeep (fun conn h => h.initReady)
      (fun conn e h he => h.not_initReady_step he) connInv_new
  · intro hsound
    exact (hsound.invariant (ConnInv dbNum) hkeep connInv_new).justified

def okText : Bytes := "OK".toUTF8.toList

/-- Two calls on a server that answers. -/
def answeredCalls : List (CacheCall × CacheEnv) :=
  [(.get [0x61], ⟨10, .ok, some (.status okText), some (.status okText), some .nil⟩),
    (.isExists [0x61], ⟨11, .null, none, none, some (.integer 0)⟩)]

theorem ready_answeredCalls :
    (answeredCalls.foldl (CacheConn.step 0) CacheConn.new).log.length = 4 ∧
      Justified (Needs 0) (answeredCalls.foldl (CacheConn.step 0) CacheConn.new).log := by
  have heval : Reply.isOk (some (.status okText)) = true ∧
      (answeredCalls.foldl (CacheConn.step 0) CacheConn.new).log.length = 4 := by decide +kernel
  refine ⟨heval.2, (initReady_iff_sound 0 answeredCalls).2 ⟨⟨?_, ?_⟩, ⟨?_, ?_⟩, trivial⟩⟩
  · intro _
    exact ⟨heval.1, heval.1⟩
  · intro _ key h
    cases h
  · intro h
    cases h.2.2
  · intro _ key _
    simp

/-- `AUTH` is refused, and the next call is a `GET`. -/
def refusedCalls : List (CacheCall × CacheEnv) :=
  [(.get [0x61], ⟨10, .ok, some (.error []), none, none⟩),
    (.get [0x61], ⟨11, .null, none, none, some .nil⟩)]

theorem not_ready_refusedCalls :
    ¬ InitReady 0 ((refusedCalls.take 1).foldl (CacheConn.step 0) CacheConn.new) ∧
      ¬ Justified (Needs 0) (refusedCalls.foldl (CacheConn.step 0) CacheConn.new).log := by
  have hlog : ((refusedCalls.take 1).foldl (CacheConn.step 0) CacheConn.new).context = some 0 ∧
      ((refusedCalls.take 1).foldl (CacheConn.step 0) CacheConn.new).log = [.auth 0 false] ∧
      ∃ cmd, (refusedCalls.foldl (CacheConn.step 0) CacheConn.new).log =
        [.auth 0 false] ++ [.command 0 cmd] := ⟨rfl, rfl, _, rfl⟩
  obtain ⟨hcontext, hfirst, cmd, hsecond⟩ := hlog
  have hnot : ¬ Ready 0 [.auth 0 false] 0 := fun h => by simpa using h.auth
  refine ⟨not_initReady hcontext (hfirst ▸ hnot), ?_⟩
  intro h
  exact hnot (h _ _ [] hsecond 0 cmd rfl)

end Server
end Proof
end PtpCore
