import Mathlib.Data.List.Basic

/-!
# Finite maps as lists of pairs

`std::map` and `std::unordered_map`: looking a key up, `m[k] = v`, `insert`, which leaves a key
alone that is there, and `erase`. What is said of an operation is what a lookup answers after it, and, for
code that goes through a map, that no key comes to be there twice.
-/

namespace PtpCore
namespace Lib

abbrev Assoc (K V : Type) := List (K × V)

namespace Assoc

variable {K V : Type} [DecidableEq K]

def find (m : Assoc K V) (k : K) : Option V :=
  match m with
  | [] => none
  | (k', v) :: m => if k' = k then some v else find m k

def erase (m : Assoc K V) (k : K) : Assoc K V := m.filter fun p => p.1 ≠ k

/-- `m[k] = v`. -/
def set (m : Assoc K V) (k : K) (v : V) : Assoc K V := (k, v) :: m.erase k

/-- `m.insert(make_pair(k, v))`. -/
def insert (m : Assoc K V) (k : K) (v : V) : Assoc K V :=
  match m.find k with
  | some _ => m
  | none => m.set k v

theorem find_erase (m : Assoc K V) (k k' : K) :
    (m.erase k).find k' = if k' = k then none else m.find k' := by
  induction m with
  | nil => exact (ite_self none).symm
  | cons p m ih =>
    obtain ⟨j, v⟩ := p
    rw [erase, List.filter_cons]
    by_cases hj : j = k
    · rw [if_neg (by simpa using hj)]
      change (erase m k).find k' = _
      rw [ih, find]
      by_cases hk : k' = k
      · rw [if_pos hk, if_pos hk]
      · rw [if_neg hk, if_neg hk, if_neg fun h : j = k' => hk (h.symm.trans hj)]
    · rw [if_pos (by simpa using hj)]
      change find ((j, v) :: erase m k) k' = _
      rw [find, find, ih]
      by_cases hjk : j = k'
      · rw [if_pos hjk, if_pos hjk, if_neg fun h => hj (hjk.trans h)]
      · rw [if_neg hjk, if_neg hjk]

@[simp] theorem find_erase_self (m : Assoc K V) (k : K) : (m.erase k).find k = none := by
  rw [find_erase, if_pos rfl]

theorem find_erase_of_ne (m : Assoc K V) {k k' : K} (h : k' ≠ k) :
    (m.erase k).find k' = m.find k' := by
  rw [find_erase, if_neg h]

theorem find_erase_of_none (m : Assoc K V) (k : K) {k' : K} (h : m.find k' = none) :
    (m.erase k).find k' = none := by
  rw [find_erase]
  split
  · rfl
  · exact h

@[simp] theorem find_set_self (m : Assoc K V) (k : K) (v : V) : (m.set k v).find k = some v := by
  rw [set, find, if_pos rfl]

theorem find_set_of_ne (m : Assoc K V) {k k' : K} (v : V) (h : k' ≠ k) :
    (m.set k v).find k' = m.find k' := by
  rw [set, find, if_neg fun hk => h hk.symm, find_erase_of_ne m h]

theorem set_set (m : Assoc K V) (k : K) (v w : V) : (m.set k v).set k w = m.set k w := by
  have herase : (m.erase k).erase k = m.erase k := by
    rw [erase, erase, List.filter_filter]
    exact congrArg (List.filter · m) (funext fun p => Bool.and_self _)
  rw [set, set, set, erase, List.filter_cons_of_neg (by simp)]
  exact congrArg _ herase

theorem find_insert_of_ne (m : Assoc K V) {k k' : K} (v : V) (h : k' ≠ k) :
    (m.insert k v).find k' = m.find k' := by
  rw [insert]
  cases m.find k with
  | some _ => rfl
  | none => exact find_set_of_ne m v h

theorem find_insert_self (m : Assoc K V) {k : K} (v : V) (h : m.find k = none) :
    (m.insert k v).find k = some v := by
  rw [insert, h]
  exact find_set_self m k v

/-! What an operation leaves in a map. -/

theorem find_set_iff {m : Assoc K V} {k k' : K} {v v' : V} :
    (m.set k v).find k' = some v' ↔ k' = k ∧ v' = v ∨ k' ≠ k ∧ m.find k' = some v' := by
  by_cases hk : k' = k
  · subst hk
    simp [eq_comm]
  · rw [find_set_of_ne _ _ hk]
    simp [hk]

/-- After `insert` under a new key. -/
theorem find_insert_iff {m : Assoc K V} {k k' : K} {v v' : V} (hnone : m.find k = none) :
    (m.insert k v).find k' = some v' ↔ k' = k ∧ v' = v ∨ m.find k' = some v' := by
  by_cases hk : k' = k
  · subst hk
    rw [find_insert_self _ _ hnone, hnone]
    simp [eq_comm]
  · rw [find_insert_of_ne _ _ hk]
    simp [hk]

theorem find_of_find_insert {m : Assoc K V} {k k' : K} {v v' : V}
    (h : (m.insert k v).find k' = some v') : k' = k ∧ v' = v ∨ m.find k' = some v' := by
  cases hfind : m.find k with
  | some w =>
    rw [insert, hfind] at h
    exact .inr h
  | none => exact (find_insert_iff hfind).mp h

theorem find_erase_iff {m : Assoc K V} {k k' : K} {v : V} :
    (m.erase k).find k' = some v ↔ k' ≠ k ∧ m.find k' = some v := by
  rw [find_erase]
  by_cases hk : k' = k
  · simp [hk]
  · simp [hk]

theorem mem_of_find {m : Assoc K V} {k : K} {v : V} (h : m.find k = some v) : (k, v) ∈ m := by
  induction m with
  | nil => cases h
  | cons entry m ih =>
    obtain ⟨k', v'⟩ := entry
    rw [find] at h
    split at h
    · rename_i hk
      cases h
      exact hk ▸ List.mem_cons_self
    · exact List.mem_cons_of_mem _ (ih h)

theorem find_append (m m' : Assoc K V) (k : K) :
    find (m ++ m') k = (m.find k).or (m'.find k) := by
  induction m with
  | nil => rfl
  | cons entry m ih =>
    rw [List.cons_append, find, find]
    split
    · rfl
    · exact ih

/-! The keys, in some order. -/

theorem exists_find_of_mem_keys {m : Assoc K V} {k : K} (h : k ∈ m.map Prod.fst) :
    ∃ v, m.find k = some v := by
  induction m with
  | nil => cases h
  | cons entry m ih =>
    obtain ⟨k', v'⟩ := entry
    by_cases hk : k' = k
    · exact ⟨v', if_pos hk⟩
    · rw [List.map_cons, List.mem_cons] at h
      obtain ⟨v, hv⟩ := ih (h.resolve_left fun heq => hk heq.symm)
      exact ⟨v, (if_neg hk).trans hv⟩

theorem nodup_keys_erase {m : Assoc K V} (k : K) (h : (m.map Prod.fst).Nodup) :
    ((m.erase k).map Prod.fst).Nodup :=
  h.sublist (List.filter_sublist.map Prod.fst)

theorem nodup_keys_set {m : Assoc K V} (k : K) (v : V) (h : (m.map Prod.fst).Nodup) :
    ((m.set k v).map Prod.fst).Nodup := by
  rw [set, List.map_cons, List.nodup_cons]
  refine ⟨?_, nodup_keys_erase k h⟩
  intro hmem
  obtain ⟨v', hv'⟩ := exists_find_of_mem_keys hmem
  rw [find_erase_self] at hv'
  cases hv'

theorem nodup_keys_insert {m : Assoc K V} (k : K) (v : V) (h : (m.map Prod.fst).Nodup) :
    ((m.insert k v).map Prod.fst).Nodup := by
  rw [insert]
  cases m.find k with
  | some _ => exact h
  | none => exact nodup_keys_set k v h

end Assoc

end Lib
end PtpCore
