import Mathlib.Logic.Basic
import PtpCore.Lib.Run

/-!
# Objects that are counted

Objects that can be found while they are registered. Who finds one holds a reference while he works
on it, and another one stands for the registration; closing an object takes both away from the
registration. An object is deleted when its count reaches zero.

The rules (`Step`) say who may do what: only a registered object is entered, touched or closed. What
follows (`Inv`) is that the count is what it is meant to be, and that a life is closed once, then
reaches zero once, and is quiet after it was closed.
-/

namespace PtpCore
namespace Lib

inductive Life (κ : Type)
  /-- Somebody found the object, and calls it. -/
  | delivered (k : κ)
  | closed (k : κ)
  | zero (k : κ)
  deriving DecidableEq, Repr

structure Counted (κ : Type) where
  /-- Zero for what is not there. -/
  count : κ → Nat
  registered : κ → Prop
  running : κ → Nat
  log : List (Life κ)

namespace Counted

section

variable {κ : Type}

/-- Everything but `k` is as it was. -/
structure Else (l l' : Counted κ) (k : κ) : Prop where
  count : ∀ j, j ≠ k → l'.count j = l.count j
  registered : ∀ j, j ≠ k → (l'.registered j ↔ l.registered j)
  running : ∀ j, j ≠ k → l'.running j = l.running j

inductive Step (l l' : Counted κ) : Prop
  | same (hcount : ∀ k, l'.count k = l.count k)
      (hregistered : ∀ k, l'.registered k ↔ l.registered k)
      (hrunning : ∀ k, l'.running k = l.running k) (hlog : l'.log = l.log)
  | create (k : κ) (hcount : l.count k = 0 ∧ l'.count k = 1)
      (hregistered : ¬ l.registered k ∧ l'.registered k) (hrunning : l'.running k = l.running k)
      (hnew : .closed k ∉ l.log) (helse : Else l l' k) (hlog : l'.log = l.log)
  | enter (k : κ) (hcount : l'.count k = l.count k + 1)
      (hregistered : l.registered k ∧ l'.registered k)
      (hrunning : l'.running k = l.running k + 1) (helse : Else l l' k)
      (hlog : l'.log = l.log ++ [.delivered k])
  | touch (k : κ) (hcount : l'.count k = l.count k)
      (hregistered : l.registered k ∧ l'.registered k) (hrunning : l'.running k = l.running k)
      (helse : Else l l' k) (hlog : l'.log = l.log ++ [.delivered k])
  | close (k : κ) (hcount : l'.count k = l.count k - 1)
      (hregistered : l.registered k ∧ ¬ l'.registered k) (hrunning : l'.running k = l.running k)
      (helse : Else l l' k)
      (hlog : l'.log = (l.log ++ [.closed k]) ++ if l.count k = 1 then [.zero k] else [])
  | leave (k : κ) (hcount : l'.count k = l.count k - 1)
      (hregistered : l'.registered k ↔ l.registered k)
      (hrunning : l.running k = l'.running k + 1) (helse : Else l l' k)
      (hlog : l'.log = l.log ++ if l.count k = 1 then [.zero k] else [])

/-- What an entry needs to have happened, and not to have happened. -/
def Needs (pre : List (Life κ)) : Life κ → Prop
  | .delivered k => .closed k ∉ pre
  | .closed k => .closed k ∉ pre
  | .zero k => .closed k ∈ pre ∧ .zero k ∉ pre

/-- Where one object is. -/
structure Ok (l : Counted κ) (k : κ) : Prop where
  held : l.registered k → l.count k = l.running k + 1 ∧ .closed k ∉ l.log
  left : ¬ l.registered k → l.count k = l.running k ∧ (0 < l.count k → .closed k ∈ l.log)
  zero : .closed k ∈ l.log → (.zero k ∈ l.log ↔ l.count k = 0)

structure Inv (l : Counted κ) : Prop where
  ok : ∀ k, Ok l k
  justified : Justified Needs l.log

variable {l l' : Counted κ} {k : κ}

theorem Inv.closed_of_zero (h : Inv l) (hz : .zero k ∈ l.log) : .closed k ∈ l.log := by
  obtain ⟨pre, post, heq⟩ := List.append_of_mem hz
  have hneeds := h.justified pre _ post heq
  rw [heq]
  exact List.mem_append_left _ hneeds.1

/-- An object that nothing has happened to. -/
theorem Ok.of_same (h : Ok l k) (hcount : l'.count k = l.count k)
    (hregistered : l'.registered k ↔ l.registered k) (hrunning : l'.running k = l.running k)
    (hclosed : .closed k ∈ l'.log ↔ .closed k ∈ l.log)
    (hzero : .zero k ∈ l'.log ↔ .zero k ∈ l.log) : Ok l' k := by
  refine ⟨?_, ?_, ?_⟩
  · rw [hregistered, hcount, hrunning, hclosed]
    exact h.held
  · rw [hregistered, hcount, hrunning, hclosed]
    exact h.left
  · rw [hclosed, hzero, hcount]
    exact h.zero

/-- The others, when the log goes on with entries about `k`. -/
theorem Else.ok (helse : Else l l' k) {es : List (Life κ)} (hlog : l'.log = l.log ++ es)
    (hes : ∀ j, j ≠ k → .closed j ∉ es ∧ .zero j ∉ es) {j : κ} (hj : j ≠ k) (h : Ok l j) :
    Ok l' j := by
  obtain ⟨hclosed, hzero⟩ := hes j hj
  refine h.of_same (helse.count j hj) (helse.registered j hj) (helse.running j hj) ?_ ?_
  · rw [hlog, List.mem_append]
    exact or_iff_left hclosed
  · rw [hlog, List.mem_append]
    exact or_iff_left hzero

/-- A delivery, to an object that is registered before and after. -/
theorem Inv.deliver (h : Inv l) (hcount : l'.count k + l.running k = l.count k + l'.running k)
    (hregistered : l.registered k ∧ l'.registered k) (helse : Else l l' k)
    (hlog : l'.log = l.log ++ [.delivered k]) : Inv l' := by
  obtain ⟨hheld, hopen⟩ := (h.ok k).held hregistered.1
  have hopen' : Life.closed k ∉ l'.log := by
    rw [hlog]
    simp [hopen]
  refine ⟨?_, ?_⟩
  · intro j
    by_cases hj : j = k
    · subst hj
      refine ⟨?_, fun hnot => absurd hregistered.2 hnot, fun hclosed => absurd hclosed hopen'⟩
      intro _
      refine ⟨?_, hopen'⟩
      omega
    · exact helse.ok hlog (by simp) hj (h.ok j)
  · rw [hlog]
    exact h.justified.concat hopen

theorem Inv.close (h : Inv l) (hcount : l'.count k = l.count k - 1)
    (hregistered : l.registered k ∧ ¬ l'.registered k) (hrunning : l'.running k = l.running k)
    (helse : Else l l' k)
    (hlog : l'.log = (l.log ++ [.closed k]) ++ if l.count k = 1 then [.zero k] else []) :
    Inv l' := by
  obtain ⟨hheld, hopen⟩ := (h.ok k).held hregistered.1
  have hzero : Life.zero k ∉ l.log := fun hz => hopen (h.closed_of_zero hz)
  have hclosed : Justified Needs (l.log ++ [.closed k]) := h.justified.concat hopen
  refine ⟨?_, ?_⟩
  · intro j
    by_cases hj : j = k
    · subst hj
      have hmem : Life.closed j ∈ l'.log := by
        rw [hlog]
        simp
      refine ⟨fun hreg => absurd hreg hregistered.2, ?_, ?_⟩
      · intro _
        refine ⟨?_, fun _ => hmem⟩
        omega
      · intro _
        rw [hlog, hcount]
        by_cases hone : l.count j = 1
        · simp [hone]
        · rw [if_neg hone]
          simp [hzero]
          omega
    · refine helse.ok (hlog.trans (List.append_assoc _ _ _)) ?_ hj (h.ok j)
      intro i hi
      split <;> simp [hi]
  · rw [hlog]
    split
    · exact hclosed.concat ⟨by simp, by simp [hzero]⟩
    · rw [List.append_nil]
      exact hclosed

theorem Inv.leave (h : Inv l) (hcount : l'.count k = l.count k - 1)
    (hregistered : l'.registered k ↔ l.registered k)
    (hrunning : l.running k = l'.running k + 1) (helse : Else l l' k)
    (hlog : l'.log = l.log ++ if l.count k = 1 then [.zero k] else []) : Inv l' := by
  have hnot : l.count k = 1 → ¬ l.registered k := by
    intro hone hreg
    have hheld := ((h.ok k).held hreg).1
    omega
  have hclosed : .closed k ∈ l'.log ↔ .closed k ∈ l.log := by
    rw [hlog]
    split <;> simp
  -- It reaches zero only now.
  have hzero : .closed k ∈ l.log → Life.zero k ∉ l.log := by
    intro hc hz
    have hnone := ((h.ok k).zero hc).mp hz
    by_cases hreg : l.registered k
    · exact ((h.ok k).held hreg).2 hc
    · have hleft := ((h.ok k).left hreg).1
      omega
  refine ⟨?_, ?_⟩
  · intro j
    by_cases hj : j = k
    · subst hj
      refine ⟨?_, ?_, ?_⟩
      · intro hreg
        obtain ⟨hheld, hopen⟩ := (h.ok j).held (hregistered.mp hreg)
        rw [hclosed]
        refine ⟨?_, hopen⟩
        omega
      · intro hreg
        obtain ⟨hleft, hmem⟩ := (h.ok j).left fun hr => hreg (hregistered.mpr hr)
        rw [hclosed]
        refine ⟨?_, fun _ => hmem ?_⟩
        · omega
        · omega
      · intro hc
        have hc := hclosed.mp hc
        rw [hlog, hcount]
        by_cases hone : l.count j = 1
        · simp [hone]
        · have hsome : l.count j ≠ 0 := fun hnone => hzero hc (((h.ok j).zero hc).mpr hnone)
          rw [if_neg hone]
          simp [hzero hc]
          omega
    · refine helse.ok hlog ?_ hj (h.ok j)
      intro i hi
      split <;> simp [hi]
  · rw [hlog]
    split
    next hone =>
      have hc := ((h.ok k).left (hnot hone)).2 (by omega)
      exact h.justified.concat ⟨hc, hzero hc⟩
    next =>
      rw [List.append_nil]
      exact h.justified

theorem Inv.step (h : Inv l) (hs : Step l l') : Inv l' := by
  cases hs with
  | same hcount hregistered hrunning hlog =>
    refine ⟨?_, hlog ▸ h.justified⟩
    intro k
    exact (h.ok k).of_same (hcount k) (hregistered k) (hrunning k) (by rw [hlog]) (by rw [hlog])
  | create k hcount hregistered hrunning hnew helse hlog =>
    refine ⟨?_, hlog ▸ h.justified⟩
    intro j
    by_cases hj : j = k
    · subst hj
      have hleft := ((h.ok j).left hregistered.1).1
      refine ⟨fun _ => ?_, fun hnot => absurd hregistered.2 hnot, ?_⟩
      · rw [hlog]
        refine ⟨?_, hnew⟩
        omega
      · rw [hlog]
        exact fun hc => absurd hc hnew
    · exact helse.ok (hlog.trans (List.append_nil _).symm) (by simp) hj (h.ok j)
  | enter k hcount hregistered hrunning helse hlog =>
    exact h.deliver (by omega) hregistered helse hlog
  | touch k hcount hregistered hrunning helse hlog =>
    exact h.deliver (by omega) hregistered helse hlog
  | close k hcount hregistered hrunning helse hlog =>
    exact h.close hcount hregistered hrunning helse hlog
  | leave k hcount hregistered hrunning helse hlog =>
    exact h.leave hcount hregistered hrunning helse hlog

end

variable {κ : Type} [DecidableEq κ] {l : Counted κ}

theorem Inv.count_closed_le (h : Inv l) (k : κ) : l.log.count (.closed k) ≤ 1 :=
  h.justified.count_le_one fun _ hneeds => hneeds

theorem Inv.count_zero_le (h : Inv l) (k : κ) : l.log.count (.zero k) ≤ 1 :=
  h.justified.count_le_one fun _ hneeds => hneeds.2

end Counted

end Lib
end PtpCore
