import Mathlib.Data.List.Basic

/-!
# Runs of a state machine

A machine is a step function on states and events; a run is a list of events folded over a
start state. Two things are said about runs in this development: that an invariant holds at the
end (`EachStep.final`), and that some relation holds at *each* step of the run, whatever came
before it (`EachStep`). Both are proved the same way: an invariant that each admissible step
keeps, carried by one induction over the list of events. A machine that keeps a log can be asked
more: that each entry was entitled to by what the log held before (`Justified`).
-/

namespace PtpCore
namespace Lib

section

variable {σ ε : Type} {step : σ → ε → σ}

/-- Along the run from `s`, every step satisfies `R`, read at the state before the step. -/
def EachStep (step : σ → ε → σ) (R : σ → ε → Prop) : σ → List ε → Prop
  | _, [] => True
  | s, e :: es => R s e ∧ EachStep step R (step s e) es

@[simp] theorem eachStep_nil {R : σ → ε → Prop} {s : σ} : EachStep step R s [] := trivial

@[simp] theorem eachStep_cons {R : σ → ε → Prop} {s : σ} {e : ε} {es : List ε} :
    EachStep step R s (e :: es) ↔ R s e ∧ EachStep step R (step s e) es := Iff.rfl

theorem eachStep_append {R : σ → ε → Prop} {s : σ} {es fs : List ε} :
    EachStep step R s (es ++ fs) ↔ EachStep step R s es ∧ EachStep step R (es.foldl step s) fs := by
  induction es generalizing s with
  | nil => exact (true_and _).symm ▸ Iff.rfl
  | cons e es ih =>
    rw [List.cons_append, eachStep_cons, eachStep_cons, List.foldl_cons, ih, and_assoc]

/-- **The invariant rule.** If admissible steps keep `Inv`, and `Inv` makes an admissible step
    a `Q` step, then a run of admissible steps is a run of `Q` steps. -/
theorem EachStep.of_invariant (Inv : σ → Prop) {R Q : σ → ε → Prop}
    (hkeep : ∀ s e, Inv s → R s e → Inv (step s e))
    (hq : ∀ s e, Inv s → R s e → Q s e) {s : σ} {es : List ε} (h0 : Inv s)
    (hr : EachStep step R s es) : EachStep step Q s es := by
  induction es generalizing s with
  | nil => trivial
  | cons e es ih => exact ⟨hq s e h0 hr.1, ih (hkeep s e h0 hr.1) hr.2⟩

/-- The invariant at the end of a run of admissible steps. It may speak of a ghost value `g`
    that the events accumulate, such as what was sent so far. -/
theorem EachStep.final {γ : Type} (Inv : σ → γ → Prop) {R : σ → ε → Prop} {acc : γ → ε → γ}
    (hkeep : ∀ s g e, Inv s g → R s e → Inv (step s e) (acc g e)) {s : σ} {g : γ} {es : List ε}
    (h0 : Inv s g) (hr : EachStep step R s es) : Inv (es.foldl step s) (es.foldl acc g) := by
  induction es generalizing s g with
  | nil => exact h0
  | cons e es ih => exact ih (hkeep s g e h0 hr.1) hr.2

/-- The same without a ghost value. -/
theorem EachStep.invariant (Inv : σ → Prop) {R : σ → ε → Prop}
    (hkeep : ∀ s e, Inv s → R s e → Inv (step s e)) {s : σ} {es : List ε} (h0 : Inv s)
    (hr : EachStep step R s es) : Inv (es.foldl step s) := by
  induction es generalizing s with
  | nil => exact h0
  | cons e es ih => exact ih (hkeep s e h0 hr.1) hr.2

theorem EachStep.and {R Q : σ → ε → Prop} {s : σ} {es : List ε} (hr : EachStep step R s es)
    (hq : EachStep step Q s es) : EachStep step (fun s e => R s e ∧ Q s e) s es := by
  induction es generalizing s with
  | nil => trivial
  | cons e es ih => exact ⟨⟨hr.1, hq.1⟩, ih hr.2 hq.2⟩

/-- **Exact conditions.** Admissible steps keep `Inv`, which gives `P`, and after a step that is not
    admissible `P` is lost. Then `P` holds in every state of a run just when its steps are
    admissible. -/
theorem eachStep_iff_forall_prefix (Inv : σ → Prop) {P : σ → Prop} {R : σ → ε → Prop}
    (hkeep : ∀ s e, Inv s → R s e → Inv (step s e)) (hP : ∀ s, Inv s → P s)
    (hlost : ∀ s e, Inv s → ¬ R s e → ¬ P (step s e)) {s : σ} {es : List ε} (h0 : Inv s) :
    (∀ pre, pre <+: es → P (pre.foldl step s)) ↔ EachStep step R s es := by
  induction es generalizing s with
  | nil =>
    refine ⟨fun _ => trivial, fun _ pre hpre => ?_⟩
    rw [List.prefix_nil.mp hpre]
    exact hP s h0
  | cons e es ih =>
    constructor
    · intro h
      have hr : R s e := by
        by_contra hr
        exact hlost s e h0 hr (h [e] (List.prefix_append [e] es))
      refine ⟨hr, (ih (hkeep s e h0 hr)).mp fun pre hpre => ?_⟩
      exact h (e :: pre) (List.cons_prefix_cons.mpr ⟨rfl, hpre⟩)
    · rintro ⟨hr, hes⟩ pre hpre
      cases pre with
      | nil => exact hP s h0
      | cons e' pre =>
        obtain ⟨rfl, hrest⟩ := List.cons_prefix_cons.mp hpre
        exact (ih (hkeep s e' h0 hr)).mpr hes pre hrest

/-- **Exact conditions, step by step.** While `Inv` lasts, a step is a `P` step just when it is a
    `Q` step, and `P` steps keep `Inv`. Then the runs of `P` steps are the runs of `Q` steps. -/
theorem EachStep.congr_of_invariant (Inv : σ → Prop) {R P Q : σ → ε → Prop}
    (hkeep : ∀ s e, Inv s → R s e → P s e → Inv (step s e))
    (hiff : ∀ s e, Inv s → R s e → (P s e ↔ Q s e)) {s : σ} {es : List ε} (h0 : Inv s)
    (hr : EachStep step R s es) : EachStep step P s es ↔ EachStep step Q s es := by
  induction es generalizing s with
  | nil => rfl
  | cons e es ih =>
    rw [eachStep_cons, eachStep_cons, ← hiff s e h0 hr.1]
    exact and_congr_right fun hp => ih (hkeep s e h0 hr.1 hp) hr.2

/-- A condition on the events alone holds at each step. -/
theorem EachStep.of_forall_mem {R : ε → Prop} {s : σ} {es : List ε} (h : ∀ e ∈ es, R e) :
    EachStep step (fun _ e => R e) s es := by
  induction es generalizing s with
  | nil => trivial
  | cons e es ih => exact ⟨h e (by simp), ih fun e' he' => h e' (by simp [he'])⟩

end

/-! ## Logs -/

section

variable {ε : Type} {N : List ε → ε → Prop} {log : List ε}

/-- Every entry of a log has what it needs among the entries before it. -/
def Justified (N : List ε → ε → Prop) (log : List ε) : Prop :=
  ∀ pre e post, log = pre ++ e :: post → N pre e

theorem justified_nil : Justified N ([] : List ε) := by
  intro pre e post h
  cases pre with
  | nil => cases h
  | cons x pre => cases h

theorem Justified.concat (h : Justified N log) {e : ε} (he : N log e) :
    Justified N (log ++ [e]) := by
  intro pre x post heq
  rcases List.eq_nil_or_concat post with rfl | ⟨post, y, rfl⟩
  · obtain ⟨rfl, hxe⟩ := List.append_inj' heq rfl
    cases hxe
    exact he
  · rw [List.concat_eq_append, ← List.cons_append, ← List.append_assoc] at heq
    exact h pre x post (List.append_inj' heq rfl).1

/-- An entry that needs not to have been there is there once. -/
theorem Justified.count_le_one [DecidableEq ε] (h : Justified N log) {e : ε}
    (he : ∀ pre, N pre e → e ∉ pre) : log.count e ≤ 1 := by
  by_cases hmem : e ∈ log
  · obtain ⟨pre, post, rfl, hpre⟩ := List.eq_append_cons_of_mem hmem
    have hpost : e ∉ post := by
      intro hmem'
      obtain ⟨mid, last, rfl⟩ := List.append_of_mem hmem'
      have hnot := he _ (h (pre ++ e :: mid) e last (by simp))
      exact hnot (by simp)
    have hcount : (pre ++ e :: post).count e = 1 := by
      rw [List.count_append, List.count_cons_self, List.count_eq_zero_of_not_mem hpre,
        List.count_eq_zero_of_not_mem hpost]
    exact Nat.le_of_eq hcount
  · rw [List.count_eq_zero_of_not_mem hmem]
    exact Nat.zero_le 1

end

end Lib
end PtpCore
