import Mathlib.Logic.Function.Basic
import Mathlib.Order.Basic

/-!
# Handing out numbers from a shared counter

Threads that each want the number of a name. A thread looks the name up; if it has no number, it
takes the next one from the counter and then stores it under the name, in a step of its own. The
very first number is not used: who gets it raises the counter to `base`.

Between the look-up and the store others may move. A name is given one number only, and no number
twice, if nobody looks up a name that is being given a number, and nobody counts while the counter
has not been raised yet. These are the guards of `Step`; `Registry.Inv` is what follows.
-/

namespace PtpCore
namespace Lib

/-- Where a thread is with its name. -/
inductive Claim (α : Type)
  | out
  /-- About to look up. -/
  | seeks (a : α)
  /-- Looked up, and not found. -/
  | missed (a : α)
  /-- Has the very first number. -/
  | first (a : α)
  | holds (a : α) (n : Nat)
  | has (a : α) (n : Nat)

namespace Claim

variable {α : Type}

/-- The name is being given a number. -/
def Allocates (a : α) : Claim α → Prop
  | missed b => b = a
  | first b => b = a
  | holds b _ => b = a
  | _ => False

theorem not_allocates_has {a b : α} {n : Nat} : ¬ (has b n).Allocates a := nofun

end Claim

structure Registry (ι α : Type) where
  counter : Nat
  number : α → Option Nat
  claim : ι → Claim α

namespace Registry

variable {ι α : Type}

/-- Nothing is stored, and nobody has begun. -/
def empty : Registry ι α := ⟨0, fun _ => none, fun _ => .out⟩

/-- A number that somebody has stored or is about to store. -/
def Given (r : Registry ι α) (a : α) (n : Nat) : Prop :=
  r.number a = some n ∨ ∃ i, r.claim i = .holds a n

structure Inv (base : Nat) (r : Registry ι α) : Prop where
  /-- Numbers are given from `base` on, and no further than the counter. -/
  bounds : ∀ a n, r.Given a n → base ≤ n ∧ n ≤ r.counter
  inj : ∀ a b n, r.Given a n → r.Given b n → a = b
  one : ∀ a m n, r.Given a m → r.Given a n → m = n
  /-- A name that is being given a number has none, and one thread does it. -/
  unstored : ∀ i a, (r.claim i).Allocates a → r.number a = none
  alone : ∀ i j a, (r.claim i).Allocates a → (r.claim j).Allocates a → i = j
  has : ∀ i a n, r.claim i = .has a n → r.number a = some n
  /-- The first number is out exactly while the counter is 1. -/
  first : ∀ i a, r.claim i = .first a → r.counter = 1
  alone_first : ∀ i j a b, r.claim i = .first a → r.claim j = .first b → i = j
  counter : r.counter = 0 ∨ r.counter = 1 ∨ base ≤ r.counter

section

variable [DecidableEq ι]

def setClaim (r : Registry ι α) (i : ι) (x : Claim α) : Registry ι α :=
  { r with claim := Function.update r.claim i x }

def setCounter (r : Registry ι α) (c : Nat) : Registry ι α := { r with counter := c }

def setNumber [DecidableEq α] (r : Registry ι α) (a : α) (n : Nat) : Registry ι α :=
  { r with number := Function.update r.number a (some n) }

/-- What thread `i` can do. -/
inductive Step [DecidableEq α] (base : Nat) (i : ι) (r : Registry ι α) : Registry ι α → Prop
  | seek (a : α) (h : r.claim i = .out) : Step base i r (r.setClaim i (.seeks a))
  | found {a : α} {n : Nat} (h : r.claim i = .seeks a) (hn : r.number a = some n) :
    Step base i r (r.setClaim i (.has a n))
  | miss {a : α} (h : r.claim i = .seeks a) (hn : r.number a = none)
    (hfree : ∀ j, ¬ (r.claim j).Allocates a) : Step base i r (r.setClaim i (.missed a))
  | countFirst {a : α} (h : r.claim i = .missed a) (h0 : r.counter = 0) :
    Step base i r ((r.setClaim i (.first a)).setCounter 1)
  | count {a : α} (h : r.claim i = .missed a) (h0 : r.counter ≠ 0) (h1 : r.counter ≠ 1) :
    Step base i r ((r.setClaim i (.holds a (r.counter + 1))).setCounter (r.counter + 1))
  | raise {a : α} (h : r.claim i = .first a) :
    Step base i r ((r.setClaim i (.holds a base)).setCounter base)
  | store {a : α} {n : Nat} (h : r.claim i = .holds a n) :
    Step base i r ((r.setClaim i (.has a n)).setNumber a n)

variable {base : Nat} {r : Registry ι α} {i j : ι} {x : Claim α}

/-- What is true of a claim after a step was true of it before, unless it is the new one. -/
theorem setClaim_cases {P : Claim α → Prop} (h : P ((r.setClaim i x).claim j)) :
    j = i ∧ P x ∨ j ≠ i ∧ P (r.claim j) := by
  by_cases hji : j = i
  · subst hji
    left
    simpa [setClaim] using h
  · right
    simpa [setClaim, hji] using h

/-- The claim `x` may take the place of that of `i`, and the counter go to `c`, when no number is
    involved. -/
structure Quiet (r : Registry ι α) (i : ι) (x : Claim α) (c : Nat) : Prop where
  is : ∀ a n, x ≠ .holds a n
  unstored : ∀ a, x.Allocates a → r.number a = none
  alone : ∀ a, x.Allocates a → ∀ j, j ≠ i → ¬ (r.claim j).Allocates a
  has : ∀ a n, x = .has a n → r.number a = some n
  le : r.counter ≤ c
  first : ∀ a, x = .first a → c = 1 ∧ r.counter = 0
  others : r.counter = 1 → c = 1

theorem Inv.quiet (h : Inv base r) {c : Nat} (hx : Quiet r i x c)
    (hc : c = 0 ∨ c = 1 ∨ base ≤ c) : Inv base ((r.setClaim i x).setCounter c) := by
  have hgiven : ∀ a n, Given ((r.setClaim i x).setCounter c) a n → r.Given a n := by
    rintro a n (hn | ⟨j, hj⟩)
    · exact .inl hn
    · rcases setClaim_cases (P := fun y => y = .holds a n) hj with ⟨-, hj⟩ | ⟨-, hj⟩
      · exact absurd hj (hx.is a n)
      · exact .inr ⟨j, hj⟩
  have hfirst : ∀ j a, j ≠ i → r.claim j = .first a → ∀ b, x ≠ .first b := by
    intro j a _ hj b hb
    have h1 := h.first j a hj
    have h0 := (hx.first b hb).2
    omega
  refine ⟨?_, ?_, ?_, ?_, ?_, ?_, ?_, ?_, hc⟩
  · intro a n hn
    obtain ⟨hlo, hhi⟩ := h.bounds a n (hgiven a n hn)
    exact ⟨hlo, Nat.le_trans hhi hx.le⟩
  · intro a b n ha hb
    exact h.inj a b n (hgiven a n ha) (hgiven b n hb)
  · intro a m n hm hn
    exact h.one a m n (hgiven a m hm) (hgiven a n hn)
  · intro j a hj
    rcases setClaim_cases hj with ⟨-, hj⟩ | ⟨-, hj⟩
    · exact hx.unstored a hj
    · exact h.unstored j a hj
  · intro j k a hj hk
    rcases setClaim_cases hj with ⟨hji, hj⟩ | ⟨hji, hj⟩ <;>
      rcases setClaim_cases hk with ⟨hki, hk⟩ | ⟨hki, hk⟩
    · rw [hji, hki]
    · exact absurd hk (hx.alone a hj k hki)
    · exact absurd hj (hx.alone a hk j hji)
    · exact h.alone j k a hj hk
  · intro j a n hj
    rcases setClaim_cases (P := fun y => y = .has a n) hj with ⟨-, hj⟩ | ⟨-, hj⟩
    · exact hx.has a n hj
    · exact h.has j a n hj
  · intro j a hj
    rcases setClaim_cases (P := fun y => y = .first a) hj with ⟨-, hj⟩ | ⟨-, hj⟩
    · exact (hx.first a hj).1
    · exact hx.others (h.first j a hj)
  · intro j k a b hj hk
    rcases setClaim_cases (P := fun y => y = .first a) hj with ⟨hji, hj⟩ | ⟨hji, hj⟩ <;>
      rcases setClaim_cases (P := fun y => y = .first b) hk with ⟨hki, hk⟩ | ⟨hki, hk⟩
    · rw [hji, hki]
    · exact absurd hj (hfirst k b hki hk a)
    · exact absurd hk (hfirst j a hji hj b)
    · exact h.alone_first j k a b hj hk

/-- The thread `i` takes the number `n` for the name `a` that it is giving a number. -/
theorem Inv.take (h : Inv base r) {a : α} {n : Nat} (hi : (r.claim i).Allocates a)
    (hold : ∀ b m, r.claim i ≠ .holds b m) (hbase : base ≤ n)
    (hn : r.counter < n ∨ r.counter < base)
    (hfirst : ∀ j b, j ≠ i → r.claim j ≠ .first b) :
    Inv base ((r.setClaim i (.holds a n)).setCounter n) := by
  -- the name had no number, and every number that was given is below
  have hnone : ∀ m, ¬ r.Given a m := by
    rintro m (hm | ⟨j, hj⟩)
    · rw [h.unstored i a hi] at hm
      cases hm
    · have hji : j = i := h.alone j i a (by rw [hj]; exact rfl) hi
      exact hold a m (hji ▸ hj)
  have hlt : ∀ b m, r.Given b m → m < n := by
    intro b m hm
    obtain ⟨hlo, hhi⟩ := h.bounds b m hm
    omega
  have hgiven : ∀ b m, Given ((r.setClaim i (.holds a n)).setCounter n) b m →
      r.Given b m ∨ b = a ∧ m = n := by
    rintro b m (hm | ⟨j, hj⟩)
    · exact .inl (.inl hm)
    · rcases setClaim_cases (P := fun y => y = .holds b m) hj with ⟨-, hj⟩ | ⟨-, hj⟩
      · cases hj
        exact .inr ⟨rfl, rfl⟩
      · exact .inl (.inr ⟨j, hj⟩)
  refine ⟨?_, ?_, ?_, ?_, ?_, ?_, ?_, ?_, .inr (.inr hbase)⟩
  · intro b m hm
    rcases hgiven b m hm with hm | ⟨-, rfl⟩
    · exact ⟨(h.bounds b m hm).1, Nat.le_of_lt (hlt b m hm)⟩
    · exact ⟨hbase, Nat.le_refl m⟩
  · intro b b' m hb hb'
    rcases hgiven b m hb with hold | ⟨hba, hmn⟩ <;>
      rcases hgiven b' m hb' with hold' | ⟨hba', hmn'⟩
    · exact h.inj b b' m hold hold'
    · exact absurd hmn' (Nat.ne_of_lt (hlt b m hold))
    · exact absurd hmn (Nat.ne_of_lt (hlt b' m hold'))
    · rw [hba, hba']
  · intro b m m' hm hm'
    rcases hgiven b m hm with hold | ⟨hba, hmn⟩ <;>
      rcases hgiven b m' hm' with hold' | ⟨hba', hmn'⟩
    · exact h.one b m m' hold hold'
    · exact absurd (hba' ▸ hold) (hnone m)
    · exact absurd (hba ▸ hold') (hnone m')
    · rw [hmn, hmn']
  · intro j b hj
    rcases setClaim_cases hj with ⟨-, hj⟩ | ⟨-, hj⟩
    · exact hj ▸ h.unstored i a hi
    · exact h.unstored j b hj
  · intro j k b hj hk
    rcases setClaim_cases hj with ⟨hji, hj⟩ | ⟨hji, hj⟩ <;>
      rcases setClaim_cases hk with ⟨hki, hk⟩ | ⟨hki, hk⟩
    · rw [hji, hki]
    · exact absurd (h.alone k i b hk (hj ▸ hi)) hki
    · exact absurd (h.alone j i b hj (hk ▸ hi)) hji
    · exact h.alone j k b hj hk
  · intro j b m hj
    rcases setClaim_cases (P := fun y => y = .has b m) hj with ⟨-, hj⟩ | ⟨-, hj⟩
    · cases hj
    · exact h.has j b m hj
  · intro j b hj
    rcases setClaim_cases (P := fun y => y = .first b) hj with ⟨-, hj⟩ | ⟨hji, hj⟩
    · cases hj
    · exact absurd hj (hfirst j b hji)
  · intro j k b b' hj hk
    rcases setClaim_cases (P := fun y => y = .first b) hj with ⟨-, hj⟩ | ⟨hji, hj⟩
    · cases hj
    · exact absurd hj (hfirst j b hji)

variable [DecidableEq α]

theorem Inv.store (h : Inv base r) {a : α} {n : Nat} (hi : r.claim i = .holds a n) :
    Inv base ((r.setClaim i (.has a n)).setNumber a n) := by
  have hown : r.Given a n := .inr ⟨i, hi⟩
  have halloc : (r.claim i).Allocates a := by
    rw [hi]
    exact rfl
  have hgiven : ∀ b m, Given ((r.setClaim i (.has a n)).setNumber a n) b m → r.Given b m := by
    rintro b m (hm | ⟨j, hj⟩)
    · change Function.update r.number a (some n) b = some m at hm
      by_cases hb : b = a
      · subst hb
        rw [Function.update_self] at hm
        cases hm
        exact hown
      · rw [Function.update_of_ne hb] at hm
        exact .inl hm
    · rcases setClaim_cases (P := fun y => y = .holds b m) hj with ⟨-, hj⟩ | ⟨-, hj⟩
      · cases hj
      · exact .inr ⟨j, hj⟩
  refine ⟨?_, ?_, ?_, ?_, ?_, ?_, ?_, ?_, h.counter⟩
  · intro b m hm
    exact h.bounds b m (hgiven b m hm)
  · intro b b' m hb hb'
    exact h.inj b b' m (hgiven b m hb) (hgiven b' m hb')
  · intro b m m' hm hm'
    exact h.one b m m' (hgiven b m hm) (hgiven b m' hm')
  · intro j b hj
    rcases setClaim_cases hj with ⟨-, hj⟩ | ⟨hji, hj⟩
    · exact absurd hj Claim.not_allocates_has
    · have hb : b ≠ a := by
        intro hb
        exact hji (h.alone j i a (hb ▸ hj) halloc)
      exact (Function.update_of_ne hb (some n) r.number).trans (h.unstored j b hj)
  · intro j k b hj hk
    rcases setClaim_cases hj with ⟨-, hj⟩ | ⟨-, hj⟩
    · exact absurd hj Claim.not_allocates_has
    · rcases setClaim_cases hk with ⟨-, hk⟩ | ⟨-, hk⟩
      · exact absurd hk Claim.not_allocates_has
      · exact h.alone j k b hj hk
  · intro j b m hj
    rcases setClaim_cases (P := fun y => y = .has b m) hj with ⟨-, hj⟩ | ⟨-, hj⟩
    · cases hj
      exact Function.update_self ..
    · have hstored := h.has j b m hj
      have hb : b ≠ a := by
        rintro rfl
        rw [h.unstored i b halloc] at hstored
        cases hstored
      exact (Function.update_of_ne hb (some n) r.number).trans hstored
  · intro j b hj
    rcases setClaim_cases (P := fun y => y = .first b) hj with ⟨-, hj⟩ | ⟨-, hj⟩
    · cases hj
    · exact h.first j b hj
  · intro j k b b' hj hk
    rcases setClaim_cases (P := fun y => y = .first b) hj with ⟨-, hj⟩ | ⟨-, hj⟩
    · cases hj
    · rcases setClaim_cases (P := fun y => y = .first b') hk with ⟨-, hk⟩ | ⟨-, hk⟩
      · cases hk
      · exact h.alone_first j k b b' hj hk

/-- **One step.** -/
theorem Inv.step (h : Inv base r) (hbase : 2 ≤ base) {r' : Registry ι α} (hs : Step base i r r') :
    Inv base r' := by
  cases hs with
  | seek a hi =>
    refine h.quiet ⟨nofun, nofun, nofun, nofun, Nat.le_refl _, nofun, id⟩ h.counter
  | @found a n hi hn =>
    refine h.quiet ⟨nofun, nofun, nofun, ?_, Nat.le_refl _, nofun, id⟩ h.counter
    rintro _ _ ⟨⟩
    exact hn
  | @miss a hi hn hfree =>
    refine h.quiet ⟨nofun, ?_, ?_, nofun, Nat.le_refl _, nofun, id⟩ h.counter
    · rintro _ rfl
      exact hn
    · rintro _ rfl j -
      exact hfree j
  | @countFirst a hi h0 =>
    have hmissed : (r.claim i).Allocates a := by
      rw [hi]
      exact rfl
    refine h.quiet ⟨nofun, ?_, ?_, nofun, by omega, fun _ _ => ⟨rfl, h0⟩, fun _ => rfl⟩
      (.inr (.inl rfl))
    · rintro _ rfl
      exact h.unstored i _ hmissed
    · rintro _ rfl j hji hj
      exact hji (h.alone j i _ hj hmissed)
  | @count a hi h0 h1 =>
    have hcounter : base ≤ r.counter := by
      rcases h.counter with h | h | h
      · exact absurd h h0
      · exact absurd h h1
      · exact h
    refine h.take ?_ ?_ (by omega) (.inl (Nat.lt_succ_self _)) ?_
    · rw [hi]
      exact rfl
    · rw [hi]
      nofun
    · intro j b _ hj
      exact h1 (h.first j b hj)
  | @raise a hi =>
    have hone := h.first i a hi
    refine h.take ?_ ?_ (Nat.le_refl _) (.inr (by omega)) ?_
    · rw [hi]
      exact rfl
    · rw [hi]
      nofun
    · intro j b hji hj
      exact hji (h.alone_first j i b a hj hi)
  | @store a n hi => exact h.store hi

end

end Registry

end Lib
end PtpCore
