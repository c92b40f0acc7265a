import Mathlib.Data.List.TakeWhile

/-!
# Cutting a list at an element

`before c l` is what is in front of the first `c` in a list, and `onward c l` the rest, which begins
with that `c`. Where there is none, all of the list is in front.
-/

namespace PtpCore
namespace Lib

section

variable {α : Type} [DecidableEq α] {c : α} {l a r : List α}

def before (c : α) (l : List α) : List α := l.takeWhile (· != c)

def onward (c : α) (l : List α) : List α := l.dropWhile (· != c)

/-- A list that is empty or begins with `c`. -/
def StartsAt (c : α) (r : List α) : Prop := r = [] ∨ r.head? = some c

theorem before_append_onward (c : α) (l : List α) : before c l ++ onward c l = l :=
  List.takeWhile_append_dropWhile

theorem length_before_le (c : α) (l : List α) : (before c l).length ≤ l.length :=
  (List.takeWhile_sublist _).length_le

theorem not_mem_before (c : α) (l : List α) : c ∉ before c l := by
  intro h
  simpa using List.mem_takeWhile_imp h

theorem startsAt_onward (c : α) (l : List α) : StartsAt c (onward c l) := by
  cases h : onward c l with
  | nil => exact Or.inl rfl
  | cons x r =>
    have hhead := List.head?_dropWhile_not (· != c) l
    rw [← onward, h] at hhead
    have hx : x = c := by simpa using hhead
    exact Or.inr (congrArg some hx)

theorem before_append_of_not_mem (h : c ∉ a) : before c (a ++ r) = a ++ before c r := by
  refine List.takeWhile_append_of_pos ?_
  intro x hx
  have hne : x ≠ c := fun he => h (he ▸ hx)
  simpa using hne

/-- There is no other cut. -/
theorem cut_unique (ha : c ∉ a) (hr : StartsAt c r) :
    before c (a ++ r) = a ∧ onward c (a ++ r) = r := by
  have hnil : before c r = [] := by
    rcases hr with rfl | hr
    · rfl
    · cases r with
      | nil => rfl
      | cons x r =>
        cases hr
        exact List.takeWhile_cons_of_neg (by simp)
  have hbefore : before c (a ++ r) = a := by
    rw [before_append_of_not_mem ha, hnil, List.append_nil]
  have happend := before_append_onward c (a ++ r)
  rw [hbefore] at happend
  exact ⟨hbefore, List.append_cancel_left happend⟩

theorem cut_of_not_mem (h : c ∉ l) : before c l = l ∧ onward c l = [] := by
  have hcut := cut_unique h (Or.inl rfl)
  rwa [List.append_nil] at hcut

theorem exists_onward_eq_cons (h : c ∈ l) : ∃ r, onward c l = c :: r := by
  have happend := before_append_onward c l
  rcases startsAt_onward c l with hnil | hhead
  · rw [hnil, List.append_nil] at happend
    exact absurd (happend.symm ▸ h) (not_mem_before c l)
  · exact List.head?_eq_some_iff.mp hhead

/-- A cut in the first part does not see the second. -/
theorem cut_append_of_mem (h : c ∈ a) :
    before c (a ++ r) = before c a ∧ onward c (a ++ r) = onward c a ++ r := by
  obtain ⟨r', hr'⟩ := exists_onward_eq_cons h
  have hsplit : a ++ r = before c a ++ (onward c a ++ r) := by
    rw [← List.append_assoc, before_append_onward]
  rw [hsplit]
  refine cut_unique (not_mem_before c a) ?_
  rw [hr']
  exact Or.inr rfl

/-! ## The position -/

theorem take_length_before (c : α) (l : List α) : l.take (before c l).length = before c l := by
  have h : (before c l ++ onward c l).take (before c l).length = before c l := List.take_left
  rwa [before_append_onward] at h

theorem drop_length_before (c : α) (l : List α) : l.drop (before c l).length = onward c l := by
  have h : (before c l ++ onward c l).drop (before c l).length = onward c l := List.drop_left
  rwa [before_append_onward] at h

theorem length_before_eq_iff : (before c l).length = l.length ↔ c ∉ l := by
  constructor
  · intro hlen hmem
    have htake := take_length_before c l
    rw [hlen, List.take_length] at htake
    exact not_mem_before c l (htake ▸ hmem)
  · intro h
    rw [(cut_of_not_mem h).1]

theorem findIdx?_eq_before (c : α) (l : List α) : l.findIdx? (· == c) =
    if c ∈ l then some (before c l).length else none := by
  induction l with
  | nil => rfl
  | cons x l ih =>
    rw [List.findIdx?_cons, ih]
    by_cases hx : x = c
    · simp [hx, before]
    · have hbefore : before c (x :: l) = x :: before c l :=
        List.takeWhile_cons_of_pos (by simpa using hx)
      by_cases hmem : c ∈ l
      · simp [hx, hmem, hbefore]
      · simp [hx, Ne.symm hx, hmem]

end

end Lib
end PtpCore
