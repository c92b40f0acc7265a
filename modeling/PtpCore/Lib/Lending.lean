import Mathlib.Data.List.Nodup
import Mathlib.Data.List.Perm.Basic

/-!
# Things that are lent

A stock of things. Some are free, and the others are in somebody's hands. Taking the first free
one and giving one back move a thing between the two; a new thing may be added. Whatever moves,
each thing is there once (`Inv`), so nothing is free and lent at the same time, or lent twice.
-/

namespace PtpCore
namespace Lib

structure Lending (ι κ : Type) where
  free : List κ
  lent : List (ι × κ)
  deriving DecidableEq, Repr

namespace Lending

variable {ι κ : Type} {l : Lending ι κ} {i : ι} {k : κ} {rest : List κ} {n : Nat}

def all (l : Lending ι κ) : List κ := l.free ++ l.lent.map Prod.snd

/-- The first free one goes to `i`. -/
def take (l : Lending ι κ) (i : ι) (k : κ) (rest : List κ) : Lending ι κ :=
  ⟨rest, (i, k) :: l.lent⟩

def make (l : Lending ι κ) (k : κ) : Lending ι κ := ⟨l.free ++ [k], l.lent⟩

def giveBack [DecidableEq ι] [DecidableEq κ] (l : Lending ι κ) (i : ι) (k : κ) : Lending ι κ :=
  ⟨l.free ++ [k], l.lent.erase (i, k)⟩

theorem all_take (h : l.free = k :: rest) : (l.take i k rest).all.Perm l.all := by
  simp [all, take, h]

theorem all_make : (l.make k).all.Perm (k :: l.all) := by
  simp [all, make, List.perm_middle]

theorem all_giveBack [DecidableEq ι] [DecidableEq κ] (h : (i, k) ∈ l.lent) :
    (l.giveBack i k).all.Perm l.all := by
  have hlent : (l.lent.map Prod.snd).Perm (k :: (l.lent.erase (i, k)).map Prod.snd) :=
    (List.perm_cons_erase h).map Prod.snd
  simp only [all, giveBack, List.append_assoc, List.singleton_append]
  exact List.Perm.append_left l.free hlent.symm

/-- There are `n` things, and each is there once. -/
structure Inv (n : Nat) (l : Lending ι κ) : Prop where
  nodup : l.all.Nodup
  length : l.all.length = n

namespace Inv

theorem of_perm {l' : Lending ι κ} (h : Inv n l) (hperm : l'.all.Perm l.all) : Inv n l' :=
  ⟨hperm.nodup_iff.mpr h.nodup, hperm.length_eq.trans h.length⟩

theorem take (h : Inv n l) (i : ι) (hfree : l.free = k :: rest) : Inv n (l.take i k rest) :=
  h.of_perm (all_take hfree)

theorem make (h : Inv n l) (hk : k ∉ l.all) : Inv (n + 1) (l.make k) :=
  ⟨all_make.nodup_iff.mpr (List.nodup_cons.mpr ⟨hk, h.nodup⟩),
    all_make.length_eq.trans (congrArg Nat.succ h.length)⟩

theorem giveBack [DecidableEq ι] [DecidableEq κ] (h : Inv n l) (hmem : (i, k) ∈ l.lent) :
    Inv n (l.giveBack i k) :=
  h.of_perm (all_giveBack hmem)

theorem nodup_free (h : Inv n l) : l.free.Nodup := (List.nodup_append.mp h.nodup).1

/-- Nobody has two hands on a thing, and no two have it. -/
theorem nodup_lent (h : Inv n l) : (l.lent.map Prod.snd).Nodup := (List.nodup_append.mp h.nodup).2.1

theorem not_mem_free (h : Inv n l) (hmem : (i, k) ∈ l.lent) : k ∉ l.free := by
  intro hfree
  exact (List.nodup_append.mp h.nodup).2.2 k hfree k (List.mem_map_of_mem hmem) rfl

theorem length_add (h : Inv n l) : l.free.length + l.lent.length = n := by
  have hlen := h.length
  simpa [all] using hlen

end Inv

end Lending

/-! ## Things in several places -/

/-- One place is changed: what it held makes room for what it holds now. -/
theorem perm_flatMap_set {α β : Type} (f : α → List β) {as : List α} {i : Nat} {a : α}
    (h : as[i]? = some a) (a' : α) :
    ((as.set i a').flatMap f ++ f a).Perm (as.flatMap f ++ f a') := by
  induction as generalizing i with
  | nil => cases h
  | cons b as ih =>
    cases i with
    | zero =>
      cases h
      rw [List.set_cons_zero, List.flatMap_cons, List.flatMap_cons, List.append_assoc _ _ (f a')]
      exact List.perm_append_comm.trans (List.perm_append_comm.append_left _)
    | succ i =>
      simp only [List.set_cons_succ, List.flatMap_cons, List.append_assoc]
      exact (ih h).append_left _

end Lib
end PtpCore
