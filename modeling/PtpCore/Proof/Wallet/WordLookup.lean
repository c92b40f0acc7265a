import PtpCore.Lib.Bisect
import PtpCore.Proof.Wallet.WordList

/-!
# Where the binary search arrives

In a list that is sorted, the binary search arrives at the first occurrence of a word
(`searchHit_of_sorted`), the last word of the list apart, and `wordlist_init` says of a list whether
it is. The lookup is right about every list if that position, as an `int`, is still one of the word
(`looksUp_iff_reaches`): in a list of more than two thousand million words it may not be.
-/

namespace PtpCore
namespace Proof
namespace Wallet

open Lib
open PtpCore.Wallet

section

variable {w : Words} {word : Bytes} {v : List Bytes} {k : Nat}

/-! ## Sorted lists -/

theorem isSorted_iff (ws : List Bytes) : isSorted ws = true ↔ ws.Pairwise (· ≤ ·) := by
  have hchain : isSorted ws = true ↔ ws.IsChain (· ≤ ·) := by
    induction ws with
    | nil => simp [isSorted]
    | cons a ws ih =>
      cases ws with
      | nil => simp [isSorted]
      | cons b ws =>
        rw [isSorted, Bool.and_eq_true, ih, List.isChain_cons_cons, decide_eq_true_iff]
        exact Iff.rfl
  rw [hchain]
  have htrans : IsTrans Bytes (· ≤ ·) := ⟨fun _ _ _ => List.le_trans⟩
  exact List.isChain_iff_pairwise

theorem lowerBound_eq_bisect (v : List Bytes) (data : Bytes) (first len : Nat) :
    lowerBound v data first len = bisect (fun i => v.getD i [] < data) first len := by
  induction len using Nat.strongRecOn generalizing first with
  | ind len ih =>
    rw [lowerBound, bisect]
    by_cases hlen : len > 0
    · have hbehind := ih (len - len / 2 - 1) (by omega) (first + len / 2 + 1)
      have hfront := ih (len / 2) (by omega) first
      simp only [if_pos hlen, hbehind, hfront, decide_eq_true_eq]
    · rw [if_neg hlen, if_neg hlen]

/-- The first occurrence of a word in a sorted list. -/
theorem lowerBound_of_sorted (hsorted : v.Pairwise (· ≤ ·)) (hget : v[k]? = some word)
    (hfirst : ∀ i, i < k → v[i]? ≠ some word) : lowerBound v word 0 v.length = k := by
  obtain ⟨hk, rfl⟩ := List.getElem?_eq_some_iff.mp hget
  have hpair := List.pairwise_iff_getElem.mp hsorted
  rw [lowerBound_eq_bisect]
  refine bisect_eq ⟨Nat.zero_le k, by omega, ?_, ?_⟩
  · intro i _ hi
    have hlt : i < v.length := by omega
    have hne : v[i] ≠ v[k] := by
      intro heq
      refine hfirst i hi ?_
      rw [List.getElem?_eq_getElem hlt, heq]
    have hless := Std.lt_of_le_of_ne (hpair i k hlt hk hi) hne
    rw [List.getD_eq_getElem?_getD, List.getElem?_eq_getElem hlt, Option.getD_some]
    simpa using hless
  · intro i hki hi
    have hlt : i < v.length := by omega
    rw [List.getD_eq_getElem?_getD, List.getElem?_eq_getElem hlt, Option.getD_some]
    rcases Nat.lt_or_eq_of_le hki with hki | rfl
    · simpa using hpair k i hk hlt hki
    · simp

theorem searchHit_of_sorted (hflag : w.sorted = true) (hsorted : w.indices.Pairwise (· ≤ ·))
    (hget : w.indices[k]? = some word) (hlast : k < w.len - 1)
    (hfirst : ∀ i, i < k → w.indices[i]? ≠ some word) : searchHit w word = some k := by
  have htake : ∀ i, i ≤ k → (w.indices.take (w.len - 1))[i]? = w.indices[i]? := by
    intro i hi
    rw [List.getElem?_take, if_pos (by omega)]
  have hget' := (htake k (Nat.le_refl k)).trans hget
  have hbound : lowerBound (w.indices.take (w.len - 1)) word 0
      (w.indices.take (w.len - 1)).length = k := by
    refine lowerBound_of_sorted (hsorted.sublist (List.take_sublist _ _)) hget' ?_
    intro i hi
    rw [htake i (Nat.le_of_lt hi)]
    exact hfirst i hi
  rw [searchHit, hbound, if_pos ⟨hflag, hget'⟩]

/-- **A list that `wordlist_init` calls sorted.** The search for what was left out or is not there
    begins again; no other. -/
theorem searchHit_wordlistInitWords {words : Bytes}
    (hflag : (wordlistInitWords words).sorted = true)
    (hget : (wordlistInitWords words).indices[k]? = some word)
    (hlast : k < (wordlistInitWords words).len - 1)
    (hfirst : ∀ i, i < k → (wordlistInitWords words).indices[i]? ≠ some word) :
    searchHit (wordlistInitWords words) word = some k :=
  searchHit_of_sorted hflag ((isSorted_iff _).mp hflag) hget hlast hfirst

/-! ## Every list -/

/-- **`wordlist_lookup_word`.** -/
theorem looksUp_iff_reaches (w : Words) {word : Bytes} (h : ∀ x ∈ word, x ≠ 0) :
    LooksUp w word (wordlistLookupWord w word) ↔ Reaches w word := by
  constructor
  · intro hlooks k hk
    by_cases hne : Int32.ofNat k = -1
    · exact Or.inl hne
    · rw [wordlistLookupWord_of_searchHit hk hne] at hlooks
      have hmem := List.mem_of_getElem? (getElem?_of_searchHit hk).1
      obtain ⟨i, hi, hget⟩ := hlooks.present hmem
      cases Nat.succ.inj hi
      exact Or.inr hget
  · exact looksUp_of_reaches h

/-- A position that becomes one behind the end. -/
theorem not_looksUp_of_far (h : searchHit w word = some k) (hne : Int32.ofNat k ≠ -1)
    (hfar : w.len ≤ toSizeT (Int32.ofNat k).toInt) :
    ¬ LooksUp w word (wordlistLookupWord w word) := by
  intro hlooks
  rw [wordlistLookupWord_of_searchHit h hne] at hlooks
  obtain ⟨i, hi, hget⟩ := hlooks.present (List.mem_of_getElem? (getElem?_of_searchHit h).1)
  have hlt : i < w.len := (List.getElem?_eq_some_iff.mp hget).1
  omega

end

/-! ### A short list and a long one -/

/-- Two words in the wrong order, called sorted. -/
def wrongOrder : Words := ⟨[[2], [1]], 1, true⟩

theorem looksUp_wrongOrder : LooksUp wrongOrder [2] (wordlistLookupWord wrongOrder [2]) ∧
    LooksUp wrongOrder [1] (wordlistLookupWord wrongOrder [1]) := by
  have hshort : ∀ word, Reaches wrongOrder word := fun word => reaches_of_len_le (by decide)
  exact ⟨(looksUp_iff_reaches wrongOrder (by simp)).mpr (hshort [2]),
    (looksUp_iff_reaches wrongOrder (by simp)).mpr (hshort [1])⟩

/-- `n` times the same word, and two more. -/
def longList (n : Nat) : Words := ⟨List.replicate n [1] ++ [[2], [3]], getBits (n + 2), true⟩

theorem len_longList (n : Nat) : (longList n).len = n + 2 := by
  rw [Words.len, longList, List.length_append, List.length_replicate]
  rfl

theorem searchHit_longList (n : Nat) : searchHit (longList n) [2] = some n := by
  have hlen := len_longList n
  refine searchHit_of_sorted rfl ?_ ?_ (by omega) ?_
  · rw [longList, List.pairwise_append]
    refine ⟨List.pairwise_replicate.mpr (Or.inr (by decide)), by decide, ?_⟩
    intro a ha b hb
    rw [List.eq_of_mem_replicate ha]
    revert b
    decide
  · rw [longList, List.getElem?_append_right (by rw [List.length_replicate]),
      List.length_replicate, Nat.sub_self]
    rfl
  · intro i hi hget
    rw [longList, List.getElem?_append_left (by rw [List.length_replicate]; exact hi),
      List.getElem?_replicate, if_pos hi] at hget
    cases hget

/-- The position `2 ^ 31` is no `int`. -/
theorem not_looksUp_longList : (∀ x ∈ ([2] : Bytes), x ≠ 0) ∧
    ¬ LooksUp (longList (2 ^ 31)) [2] (wordlistLookupWord (longList (2 ^ 31)) [2]) := by
  have hneg : Int32.ofNat (2 ^ 31) ≠ -1 ∧
      toSizeT (Int32.ofNat (2 ^ 31)).toInt = 2 ^ 64 - 2 ^ 31 := by
    decide +kernel
  have hlen := len_longList (2 ^ 31)
  exact ⟨by simp, not_looksUp_of_far (searchHit_longList (2 ^ 31)) hneg.1 (by omega)⟩

end Wallet
end Proof
end PtpCore
