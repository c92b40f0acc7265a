import PtpCore.Lib.Assoc
import Mathlib.Logic.Function.Iterate

/-!
# Loops that may not end

A loop whose body says, each time, whether it goes on and from where, or is left. It may go on for
ever, or use what is no longer there; it ends when some number of passes gets out of it (`Ends`).

`scan` is the loop of C++ over a map, `for (it = begin; it != end; )`, where moving the iterator is
up to the body. The iterator stands at a key. Once that key is erased there is nothing it can be
used for, not even the comparison with the end.
-/

namespace PtpCore
namespace Lib

/-- What one pass through a loop comes to. -/
inductive Pass (σ ρ : Type)
  | again (s : σ)
  | leave (r : ρ)
  /-- An iterator was used whose element is erased. -/
  | invalid
  deriving DecidableEq, Repr

section

variable {σ ρ : Type}

/-- At most so many passes. -/
def loop (body : σ → Pass σ ρ) : Nat → σ → Pass σ ρ
  | 0, s => .again s
  | n + 1, s =>
    match body s with
    | .again s' => loop body n s'
    | .leave r => .leave r
    | .invalid => .invalid

/-- The loop is left, in order. -/
def Ends (body : σ → Pass σ ρ) (s : σ) : Prop := ∃ n r, loop body n s = .leave r

/-- Where the loop leads within so many passes. -/
def outOf (body : σ → Pass σ ρ) (n : Nat) (s : σ) : Option ρ :=
  match loop body n s with
  | .leave r => some r
  | _ => none

variable {body : σ → Pass σ ρ} {s : σ} {r : ρ}

theorem outOf_eq_some_iff {n : Nat} : outOf body n s = some r ↔ loop body n s = .leave r := by
  rw [outOf]
  cases loop body n s with
  | again s' => simp
  | leave r' => simp
  | invalid => simp

theorem exists_outOf_iff : (∃ n r, outOf body n s = some r) ↔ Ends body s := by
  simp only [outOf_eq_some_iff]
  rfl

theorem loop_zero (s : σ) : loop body 0 s = .again s := rfl

/-- What the first pass says about the rest. -/
theorem loop_pass (n : Nat) :
    (∀ s', body s = .again s' → loop body (n + 1) s = loop body n s') ∧
      (∀ r, body s = .leave r → loop body (n + 1) s = .leave r) ∧
        (body s = .invalid → loop body (n + 1) s = .invalid) := by
  refine ⟨fun s' h => ?_, fun r h => ?_, fun h => ?_⟩
  · rw [loop, h]
  · rw [loop, h]
  · rw [loop, h]

theorem loop_of_goes {s' : σ} (h : body s = .again s') (n : Nat) :
    loop body (n + 1) s = loop body n s' :=
  (loop_pass n).1 s' h

theorem loop_of_leave (h : body s = .leave r) (n : Nat) : loop body (n + 1) s = .leave r :=
  (loop_pass n).2.1 r h

theorem loop_of_invalid (h : body s = .invalid) (n : Nat) : loop body (n + 1) s = .invalid :=
  (loop_pass n).2.2 h

theorem ends_of_leave (h : body s = .leave r) : Ends body s := ⟨1, r, loop_of_leave h 0⟩

/-- A pass that changes nothing is made for ever. -/
theorem loop_of_again (h : body s = .again s) (n : Nat) : loop body n s = .again s := by
  induction n with
  | zero => rfl
  | succ n ih =>
    rw [loop_of_goes h]
    exact ih

theorem not_ends_of_again (h : body s = .again s) : ¬ Ends body s := by
  rintro ⟨n, r, hn⟩
  rw [loop_of_again h] at hn
  cases hn

theorem not_ends_of_invalid (h : body s = .invalid) : ¬ Ends body s := by
  rintro ⟨n, r, hn⟩
  cases n with
  | zero => cases hn
  | succ n =>
    rw [loop_of_invalid h] at hn
    cases hn

/-- One pass changes nothing about whether the loop ends. -/
theorem ends_of_again_iff {s' : σ} (h : body s = .again s') : Ends body s ↔ Ends body s' := by
  constructor
  · rintro ⟨n, r, hn⟩
    cases n with
    | zero => cases hn
    | succ n =>
      rw [loop_of_goes h] at hn
      exact ⟨n, r, hn⟩
  · rintro ⟨n, r, hn⟩
    refine ⟨n + 1, r, ?_⟩
    rw [loop_of_goes h]
    exact hn

/-- A loop that goes on from where it has got to. -/
theorem loop_add_of_again {n : Nat} {s₁ : σ} (h : loop body n s = .again s₁) (m : Nat) :
    loop body (n + m) s = loop body m s₁ := by
  induction n generalizing s with
  | zero =>
    cases h
    rw [Nat.zero_add]
  | succ n ih =>
    rw [Nat.succ_add]
    cases hbody : body s with
    | again s' =>
      rw [loop_of_goes hbody] at h ⊢
      exact ih h
    | leave r =>
      rw [loop_of_leave hbody] at h
      cases h
    | invalid =>
      rw [loop_of_invalid hbody] at h
      cases h

/-- The state after one more pass. -/
theorem loop_succ_eq_again_iff {n : Nat} {s' : σ} :
    loop body (n + 1) s = .again s' ↔ ∃ s₁, loop body n s = .again s₁ ∧ body s₁ = .again s' := by
  induction n generalizing s with
  | zero =>
    cases hbody : body s with
    | again s₁ => simp [loop_zero, loop_of_goes hbody, hbody]
    | leave r => simp [loop_zero, loop_of_leave hbody, hbody]
    | invalid => simp [loop_zero, loop_of_invalid hbody, hbody]
  | succ n ih =>
    cases hbody : body s with
    | again s₁ =>
      rw [loop_of_goes hbody, loop_of_goes hbody]
      exact ih
    | leave r => simp [loop_of_leave hbody]
    | invalid => simp [loop_of_invalid hbody]

/-- The pass with which a loop stops. -/
theorem exists_last_pass {n : Nat} {p : Pass σ ρ} (h : loop body n s = p)
    (hp : ∀ s', p ≠ .again s') : ∃ m s₁, loop body m s = .again s₁ ∧ body s₁ = p := by
  induction n generalizing s with
  | zero => exact absurd h.symm (hp s)
  | succ n ih =>
    cases hbody : body s with
    | again s₁ =>
      rw [loop_of_goes hbody] at h
      obtain ⟨m, s₂, hm, hlast⟩ := ih h
      refine ⟨m + 1, s₂, ?_, hlast⟩
      rw [loop_of_goes hbody]
      exact hm
    | leave r =>
      rw [loop_of_leave hbody] at h
      exact ⟨0, s, rfl, hbody.trans h⟩
    | invalid =>
      rw [loop_of_invalid hbody] at h
      exact ⟨0, s, rfl, hbody.trans h⟩

/-- **The invariant rule for loops.** `Inv n` is said of the state after `n` passes. -/
theorem loop_invariant (Inv : Nat → σ → Prop) (h0 : Inv 0 s)
    (hpass : ∀ n s₁ s₂, loop body n s = .again s₁ → Inv n s₁ → body s₁ = .again s₂ →
      Inv (n + 1) s₂) {n : Nat} {s' : σ} (h : loop body n s = .again s') : Inv n s' := by
  induction n generalizing s' with
  | zero =>
    cases h
    exact h0
  | succ n ih =>
    obtain ⟨s₁, hloop, hbody⟩ := loop_succ_eq_again_iff.mp h
    exact hpass n s₁ s' hloop (ih hloop) hbody

/-- **A loop that looks for something.** It is left at the first state that will do. -/
theorem leave_at_first (next : σ → σ) (good : σ → Prop) (out : σ → ρ)
    (hleave : ∀ s, good s → body s = .leave (out s))
    (hagain : ∀ s, ¬ good s → body s = .again (next s)) {n : Nat} (h : outOf body n s = some r) :
    ∃ k, k < n ∧ (∀ j, j < k → ¬ good (next^[j] s)) ∧ good (next^[k] s) ∧ r = out (next^[k] s) := by
  rw [outOf_eq_some_iff] at h
  induction n generalizing s with
  | zero => cases h
  | succ n ih =>
    by_cases hgood : good s
    · rw [loop_of_leave (hleave s hgood)] at h
      cases h
      exact ⟨0, Nat.succ_pos n, fun j hj => absurd hj (Nat.not_lt_zero j), hgood, rfl⟩
    · rw [loop_of_goes (hagain s hgood)] at h
      obtain ⟨k, hk, hbad, hgood', hr⟩ := ih h
      refine ⟨k + 1, Nat.succ_lt_succ hk, ?_, hgood', hr⟩
      intro j hj
      cases j with
      | zero => exact hgood
      | succ j => exact hbad j (Nat.lt_of_succ_lt_succ hj)

/-- And if there is such a state, enough passes get there. -/
theorem outOf_of_first (next : σ → σ) (good : σ → Prop) (out : σ → ρ)
    (hleave : ∀ s, good s → body s = .leave (out s))
    (hagain : ∀ s, ¬ good s → body s = .again (next s)) {n k : Nat} (hk : k < n)
    (hbad : ∀ j, j < k → ¬ good (next^[j] s)) (hgood : good (next^[k] s)) :
    outOf body n s = some (out (next^[k] s)) := by
  rw [outOf_eq_some_iff]
  induction k generalizing n s with
  | zero =>
    obtain ⟨n, rfl⟩ := Nat.exists_eq_add_of_lt hk
    exact loop_of_leave (hleave s hgood) _
  | succ k ih =>
    obtain ⟨n, rfl⟩ := Nat.exists_eq_add_of_lt hk
    rw [loop_of_goes (hagain s (hbad 0 (Nat.succ_pos k)))]
    exact ih (by omega) (fun j hj => hbad (j + 1) (Nat.succ_lt_succ hj)) hgood

end

section

variable {ω κ ν : Type}

/-- One pass of the loop over a map that is part of `ω`; the iterator is at a key, or at the end. -/
def scan (find : ω → κ → Option ν) (visit : ω → κ → ν → Pass (ω × Option κ) ω) :
    ω × Option κ → Pass (ω × Option κ) ω
  | (w, none) => .leave w
  | (w, some k) =>
    match find w k with
    | none => .invalid
    | some v => visit w k v

variable {find : ω → κ → Option ν} {visit : ω → κ → ν → Pass (ω × Option κ) ω} {w : ω} {k : κ}
  {v : ν}

@[simp] theorem scan_end : scan find visit (w, none) = .leave w := rfl

theorem scan_at (h : find w k = some v) : scan find visit (w, some k) = visit w k v := by
  rw [scan, h]

theorem scan_erased (h : find w k = none) : scan find visit (w, some k) = .invalid := by
  rw [scan, h]

/-- **A loop that does not move its iterator.** It breaks at the entries with `P`; it ends at the
    first entry, or never. -/
theorem ends_scan_iff [DecidableEq κ] {m : Assoc κ ν} {P : κ → ν → Prop}
    (hfind : ∀ k, find w k = m.find k)
    (hleave : ∀ k v, P k v → ∃ r, visit w k v = .leave r)
    (hstay : ∀ k v, ¬ P k v → visit w k v = .again (w, some k)) :
    Ends (scan find visit) (w, m.head?.map Prod.fst) ↔
      m = [] ∨ ∃ k v rest, m = (k, v) :: rest ∧ P k v := by
  cases m with
  | nil =>
    have hend : scan find visit (w, none) = .leave w := scan_end
    exact ⟨fun _ => .inl rfl, fun _ => ends_of_leave hend⟩
  | cons entry rest =>
    obtain ⟨k, v⟩ := entry
    have hat : scan find visit (w, some k) = visit w k v := by
      apply scan_at
      rw [hfind, Assoc.find, if_pos rfl]
    change Ends (scan find visit) (w, some k) ↔ _
    by_cases hp : P k v
    · obtain ⟨r, hr⟩ := hleave k v hp
      exact ⟨fun _ => .inr ⟨k, v, rest, rfl, hp⟩, fun _ => ends_of_leave (hat.trans hr)⟩
    · refine ⟨fun h => absurd h (not_ends_of_again (hat.trans (hstay k v hp))), ?_⟩
      rintro (h | ⟨k', v', rest', heq, hp'⟩)
      · cases h
      · cases heq
        exact absurd hp' hp

/-- The way out of such a loop, if it is found. -/
theorem leave_of_outOf [DecidableEq κ] {m : Assoc κ ν} (hfind : ∀ k, find w k = m.find k)
    (hvisit : ∀ k v, (∃ r, visit w k v = .leave r) ∨ visit w k v = .again (w, some k)) {n : Nat}
    {r : ω} (h : outOf (scan find visit) n (w, m.head?.map Prod.fst) = some r) :
    r = w ∨ ∃ k v, m.find k = some v ∧ visit w k v = .leave r := by
  rw [outOf_eq_some_iff] at h
  cases n with
  | zero => cases h
  | succ n =>
    cases m with
    | nil =>
      cases h
      exact .inl rfl
    | cons entry rest =>
      obtain ⟨k, v⟩ := entry
      have hfirst : Assoc.find ((k, v) :: rest) k = some v := if_pos rfl
      have hat : scan find visit (w, some k) = visit w k v := scan_at ((hfind k).trans hfirst)
      change loop (scan find visit) (n + 1) (w, some k) = .leave r at h
      rcases hvisit k v with ⟨r', hr'⟩ | hagain
      · rw [loop_of_leave (hat.trans hr')] at h
        cases h
        exact .inr ⟨k, v, hfirst, hr'⟩
      · rw [loop_of_again (hat.trans hagain)] at h
        cases h

end

end Lib
end PtpCore
