import PtpCore.Lib.Prog

/-!
# Programs that may be cut off

A program whose calls may be answered in more than one way, and that may be stopped in front of any
of them: the power fails, the process is killed. What is not yet safe is lost then. `Outcome` is how
a program may end, `Safe` how one shows that every end is as it should be, call by call.

What runs of such programs do to a store is a relation with labels. One that is simulated, step by
step, by a relation over what a reader sees is simulated in every run (`Star.simulates`).
-/

namespace PtpCore
namespace Lib
namespace Prog

section

variable {C : Type} {A : C → Type} {α σ : Type} {does : (c : C) → σ → A c → σ → Prop}
  {loses : σ → σ → Prop} {post : α → σ → Prop} {left : σ → Prop}

/-- How a program may end: with a result, or cut off. -/
inductive Outcome (does : (c : C) → σ → A c → σ → Prop) (loses : σ → σ → Prop) :
    Prog A α → σ → Option α → σ → Prop
  | ret (a : α) (s : σ) : Outcome does loses (.ret a) s (some a) s
  | cut {p : Prog A α} {s s' : σ} : loses s s' → Outcome does loses p s none s'
  | call {c : C} {k : A c → Prog A α} {s s' s'' : σ} {x : A c} {r : Option α} :
      does c s x s' → Outcome does loses (k x) s' r s'' → Outcome does loses (.call c k) s r s''

theorem Outcome.ret_of_eq {a : α} {s s' : σ} (h : s = s') :
    Outcome does loses (.ret a) s (some a) s' := h ▸ .ret a s

/-- Every end satisfies `post`, and what is left when the program is cut off satisfies `left`. -/
def Safe (does : (c : C) → σ → A c → σ → Prop) (loses : σ → σ → Prop) (post : α → σ → Prop)
    (left : σ → Prop) : Prog A α → σ → Prop
  | .ret a, s => (∀ s', loses s s' → left s') ∧ post a s
  | .call c k, s => (∀ s', loses s s' → left s') ∧
      ∀ x s', does c s x s' → Safe does loses post left (k x) s'

theorem Safe.left_of_loses {p : Prog A α} {s s' : σ} (h : Safe does loses post left p s)
    (hlose : loses s s') : left s' := by
  cases p with
  | ret a => exact h.1 s' hlose
  | call c k => exact h.1 s' hlose

theorem Safe.outcome {p : Prog A α} {s s' : σ} {r : Option α}
    (h : Safe does loses post left p s) (hrun : Outcome does loses p s r s') :
    r.elim (left s') fun a => post a s' := by
  induction hrun with
  | ret a s => exact h.2
  | cut hlose => exact h.left_of_loses hlose
  | call hdoes _ ih => exact ih (h.2 _ _ hdoes)

/-- What every call of a kind keeps, a program of such calls keeps. -/
theorem Outcome.invariant {P : C → Prop} {Inv : σ → Prop}
    (hdoes : ∀ c s x s', P c → Inv s → does c s x s' → Inv s')
    (hlose : ∀ s s', Inv s → loses s s' → Inv s') {p : Prog A α} (hp : p.All P) {s s' : σ}
    {r : Option α} (h0 : Inv s) (hrun : Outcome does loses p s r s') : Inv s' := by
  induction hrun with
  | ret a s => exact h0
  | cut hcut => exact hlose _ _ h0 hcut
  | call hcall _ ih => exact ih (hp.2 _) (hdoes _ _ _ _ hp.1 h0 hcall)

/-- Nothing is asked that does not hold. -/
theorem safe_iff {p : Prog A α} {s : σ} : Safe does loses post left p s ↔
    ∀ r s', Outcome does loses p s r s' → r.elim (left s') fun a => post a s' := by
  constructor
  · exact fun h r s' hrun => h.outcome hrun
  · intro h
    induction p generalizing s with
    | ret a =>
      exact ⟨fun s' hlose => h none s' (.cut hlose), h (some a) s (.ret a s)⟩
    | call c k ih =>
      refine ⟨fun s' hlose => h none s' (.cut hlose), fun x s' hdoes => ih x fun r s'' hrun => ?_⟩
      exact h r s'' (.call hdoes hrun)

end

end Prog

/-! ## Runs with labels -/

section

variable {σ τ ε : Type} {step : σ → ε → σ → Prop} {step' : τ → ε → τ → Prop}

inductive Star (step : σ → ε → σ → Prop) : σ → List ε → σ → Prop
  | nil (s : σ) : Star step s [] s
  | cons {s s' s'' : σ} {e : ε} {es : List ε} :
      step s e s' → Star step s' es s'' → Star step s (e :: es) s''

/-- What every step of a kind keeps, a run of such steps keeps. -/
theorem Star.invariant (Inv : σ → Prop) {P : ε → Prop}
    (hstep : ∀ s e s', P e → Inv s → step s e s' → Inv s') {s s' : σ} {es : List ε}
    (hes : ∀ e ∈ es, P e) (h0 : Inv s) (hrun : Star step s es s') : Inv s' := by
  induction hrun with
  | nil s => exact h0
  | cons hone _ ih =>
    obtain ⟨he, hrest⟩ := List.forall_mem_cons.mp hes
    exact ih hrest (hstep _ _ _ he h0 hone)

/-- An abstract relation goes along with every run. -/
theorem Star.simulates (f : σ → τ) (Inv : σ → Prop)
    (hstep : ∀ s e s', Inv s → step s e s' → Inv s' ∧ step' (f s) e (f s')) {s s' : σ}
    {es : List ε} (h0 : Inv s) (hrun : Star step s es s') :
    Inv s' ∧ Star step' (f s) es (f s') := by
  induction hrun with
  | nil s => exact ⟨h0, .nil (f s)⟩
  | cons hone _ ih =>
    obtain ⟨hinv, habs⟩ := hstep _ _ _ h0 hone
    obtain ⟨hend, hrest⟩ := ih hinv
    exact ⟨hend, .cons habs hrest⟩

end

end Lib
end PtpCore
