import Mathlib.Order.Basic

/-!
# Bisection

The loop of a binary search: it halves a range of positions by asking at the middle whether the
boundary is behind it. Where everything in front of the boundary says so, and nothing behind it, the
loop ends at the boundary (`bisect_eq`).
-/

namespace PtpCore
namespace Lib

/-- The positions from `first` on, `len` of them; `below i` sends the search behind `i`. -/
def bisect (below : Nat → Bool) (first len : Nat) : Nat :=
  if len > 0 then
    let half := len / 2
    let mid := first + half
    if below mid then bisect below (mid + 1) (len - half - 1)
    else bisect below first half
  else first
termination_by len

variable {below : Nat → Bool} {first len p : Nat}

/-- `p` is where `below` ends, in this range. -/
structure Boundary (below : Nat → Bool) (first len p : Nat) : Prop where
  first_le : first ≤ p
  le_last : p ≤ first + len
  before : ∀ i, first ≤ i → i < p → below i = true
  behind : ∀ i, p ≤ i → i < first + len → below i = false

/-- **The loop ends at the boundary.** -/
theorem bisect_eq (h : Boundary below first len p) : bisect below first len = p := by
  induction hn : len using Nat.strongRecOn generalizing first len with
  | ind n ih =>
    subst hn
    have hfirst := h.first_le
    have hlast := h.le_last
    rw [bisect]
    by_cases hlen : len > 0
    · rw [if_pos hlen]
      dsimp only
      by_cases hmid : below (first + len / 2) = true
      · -- the boundary is behind the middle
        have hp : first + len / 2 < p := by
          by_contra hle
          have hfalse := h.behind (first + len / 2) (by omega) (by omega)
          rw [hmid] at hfalse
          cases hfalse
        rw [if_pos hmid]
        refine ih (len - len / 2 - 1) (by omega) ⟨hp, by omega, ?_, ?_⟩ rfl
        · intro i hi hip
          exact h.before i (by omega) hip
        · intro i hpi hi
          exact h.behind i hpi (by omega)
      · have hp : p ≤ first + len / 2 := by
          by_contra hlt
          exact hmid (h.before (first + len / 2) (by omega) (by omega))
        rw [if_neg hmid]
        refine ih (len / 2) (by omega) ⟨hfirst, hp, h.before, ?_⟩ rfl
        intro i hpi hi
        exact h.behind i hpi (by omega)
    · rw [if_neg hlen]
      omega

end Lib
end PtpCore
