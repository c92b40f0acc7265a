import Mathlib.Logic.Function.Basic

/-!
# Programs that make calls

Code that talks to the outside in the middle of what it does: to a store, to a pool of
connections, to a library that may end the process. A program makes a call and goes on with what it
is answered. Who answers is left open, so one program can be run against any answers (`run`),
judged by the calls it makes (`calls`), or be one of many threads that share a state and take
turns (`Threads`).
-/

namespace PtpCore
namespace Lib

/-- `A c` is what the call `c` is answered with. -/
inductive Prog {C : Type} (A : C → Type) (α : Type) : Type
  | ret (a : α)
  | call (c : C) (k : A c → Prog A α)

namespace Prog

variable {C : Type} {A : C → Type} {α σ : Type}

/-- Who answers; `none` where a call does not return. -/
abbrev Handler (A : C → Type) (σ : Type) := (c : C) → σ → Option (A c × σ)

def run (h : Handler A σ) : Prog A α → σ → Option (α × σ)
  | ret a, s => some (a, s)
  | call c k, s =>
    match h c s with
    | none => none
    | some (x, s) => (k x).run h s

/-- The calls of a run, of which the last may not have returned. -/
def calls (h : Handler A σ) : Prog A α → σ → List C
  | ret _, _ => []
  | call c k, s =>
    c :: match h c s with
      | none => []
      | some (x, s) => (k x).calls h s

variable {h : Handler A σ} {s s' : σ} {c : C} {k : A c → Prog A α} {x : A c}

@[simp] theorem run_ret (a : α) : (ret a : Prog A α).run h s = some (a, s) := rfl

@[simp] theorem calls_ret (a : α) : (ret a : Prog A α).calls h s = [] := rfl

/-- A call, and the rest of the run if it returns. -/
theorem run_spec (h : Handler A σ) (s : σ) (c : C) (k : A c → Prog A α) :
    (∀ x s', h c s = some (x, s') → (call c k).run h s = (k x).run h s') ∧
      (h c s = none → (call c k).run h s = none) := by
  refine ⟨fun x s' hx => ?_, fun hx => ?_⟩
  · rw [run, hx]
  · rw [run, hx]

theorem run_call (hx : h c s = some (x, s')) : (call c k).run h s = (k x).run h s' :=
  (run_spec h s c k).1 x s' hx

theorem run_call_none (hx : h c s = none) : (call c k).run h s = none :=
  (run_spec h s c k).2 hx

theorem calls_spec (h : Handler A σ) (s : σ) (c : C) (k : A c → Prog A α) :
    (∀ x s', h c s = some (x, s') → (call c k).calls h s = c :: (k x).calls h s') ∧
      (h c s = none → (call c k).calls h s = [c]) := by
  refine ⟨fun x s' hx => ?_, fun hx => ?_⟩
  · rw [calls, hx]
  · rw [calls, hx]

theorem calls_call (hx : h c s = some (x, s')) :
    (call c k).calls h s = c :: (k x).calls h s' :=
  (calls_spec h s c k).1 x s' hx

theorem calls_call_none (hx : h c s = none) : (call c k).calls h s = [c] :=
  (calls_spec h s c k).2 hx

/-- Whatever it is answered, a program makes only calls that satisfy `P`. -/
def All (P : C → Prop) : Prog A α → Prop
  | ret _ => True
  | call c k => P c ∧ ∀ x, (k x).All P

theorem All.of_mem_calls {P : C → Prop} {p : Prog A α} (hp : p.All P) (h : Handler A σ) (s : σ) :
    ∀ c ∈ p.calls h s, P c := by
  induction p generalizing s with
  | ret a => exact nofun
  | call c k ih =>
    obtain ⟨hc, hk⟩ := hp
    intro c' hc'
    cases hx : h c s with
    | none =>
      rw [calls_call_none hx] at hc'
      rw [List.mem_singleton.mp hc']
      exact hc
    | some answer =>
      obtain ⟨x, s'⟩ := answer
      rw [calls_call hx] at hc'
      rcases List.mem_cons.mp hc' with rfl | hc'
      · exact hc
      · exact ih x (hk x) s' c' hc'

end Prog

/-! ## Threads that share a state -/

structure Threads {C : Type} (A : C → Type) (ι α σ : Type) where
  thread : ι → Prog A α
  shared : σ

namespace Threads

variable {C : Type} {A : C → Type} {ι α σ : Type} [DecidableEq ι]

/-- Thread `i` makes its next call, which is answered for it. One that has ended, or whose call does
    not return, stays where it is. -/
def step (h : ι → Prog.Handler A σ) (t : Threads A ι α σ) (i : ι) : Threads A ι α σ :=
  match t.thread i with
  | .ret _ => t
  | .call c k =>
    match h i c t.shared with
    | none => t
    | some (x, s) => ⟨Function.update t.thread i (k x), s⟩

/-- What thread `i` can do: it has ended, its call returns, or its call does not. -/
theorem step_spec (h : ι → Prog.Handler A σ) (t : Threads A ι α σ) (i : ι) :
    (∀ a, t.thread i = .ret a → t.step h i = t) ∧
      ∀ (c : C) (k : A c → Prog A α), t.thread i = .call c k →
        (∀ x s, h i c t.shared = some (x, s) →
            t.step h i = ⟨Function.update t.thread i (k x), s⟩) ∧
          (h i c t.shared = none → t.step h i = t) := by
  rw [step]
  refine ⟨fun a hi => ?_, fun c k hi => ⟨fun x s hx => ?_, fun hx => ?_⟩⟩
  · rw [hi]
  · rw [hi]
    dsimp only
    rw [hx]
  · rw [hi]
    dsimp only
    rw [hx]

theorem step_ret {h : ι → Prog.Handler A σ} {t : Threads A ι α σ} {i : ι} {a : α}
    (hi : t.thread i = .ret a) : t.step h i = t :=
  (step_spec h t i).1 a hi

theorem step_call {h : ι → Prog.Handler A σ} {t : Threads A ι α σ} {i : ι} {c : C}
    {k : A c → Prog A α} (hi : t.thread i = .call c k) {x : A c} {s : σ}
    (hx : h i c t.shared = some (x, s)) : t.step h i = ⟨Function.update t.thread i (k x), s⟩ :=
  ((step_spec h t i).2 c k hi).1 x s hx

theorem step_call_none {h : ι → Prog.Handler A σ} {t : Threads A ι α σ} {i : ι} {c : C}
    {k : A c → Prog A α} (hi : t.thread i = .call c k) (hx : h i c t.shared = none) :
    t.step h i = t :=
  ((step_spec h t i).2 c k hi).2 hx

end Threads

end Lib
end PtpCore
