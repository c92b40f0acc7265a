import PtpCore.Wallet.English
import Mathlib.Data.List.Chain
import Mathlib.Data.List.Nodup

/-!
# Words, phrases, and looking a word up

A phrase is cut at its spaces (`wordlistInit_eq_splitOn`), so cutting undoes joining and joining
undoes cutting. A word of a list of distinct words is found at its own place, whatever the order
of the list and whatever its `sorted` flag says: the binary search is only believed when it hits,
and its answer is an `int` (`looksUp_of_reaches`).
-/

namespace PtpCore
namespace Proof
namespace Wallet

open Lib
open PtpCore.Wallet

/-! ## Cutting a phrase -/

private theorem ne_space_of_not_mem {p : Bytes} (h : space ∉ p) :
    ∀ x ∈ p, (x != space) = true := by
  intro x hx
  simpa using fun hxs : x = space => h (hxs ▸ hx)

theorem wordlistInit_eq_splitOn (p : Bytes) : wordlistInit p = p.splitOn space := by
  rw [wordlistInit, wordlistCount, Nat.add_comm]
  -- on the number of spaces; the part behind the first space has one fewer
  generalize hn : p.count space = n
  induction n generalizing p with
  | zero =>
    have hmem : space ∉ p := List.count_eq_zero.mp hn
    have htake : p.takeWhile (· != space) = p :=
      List.takeWhile_eq_self_iff.mpr (ne_space_of_not_mem hmem)
    rw [List.splitOn_eq_singleton hmem, tokenise, htake]
    rfl
  | succ n ih =>
    have hmem : space ∈ p := List.count_pos_iff.mp (by omega)
    obtain ⟨a, b, rfl, ha⟩ := List.eq_append_cons_of_mem hmem
    have hb : b.count space = n := by
      rw [List.count_append, List.count_eq_zero.mpr ha, List.count_cons_self] at hn
      omega
    have hne := ne_space_of_not_mem ha
    rw [List.splitOn_append_cons_self_of_not_mem ha, ← ih b hb, tokenise,
      List.takeWhile_append_of_pos hne, List.dropWhile_append_of_pos hne]
    simp

theorem intercalate_wordlistInit (p : Bytes) : [space].intercalate (wordlistInit p) = p := by
  rw [wordlistInit_eq_splitOn, List.intercalate_splitOn]

theorem wordlistInit_intercalate {ws : List Bytes} (h : ∀ x ∈ ws, space ∉ x) (hne : ws ≠ []) :
    wordlistInit ([space].intercalate ws) = ws := by
  rw [wordlistInit_eq_splitOn, List.splitOn_intercalate space h hne]

theorem wordlistInit_ne_nil (p : Bytes) : wordlistInit p ≠ [] := by
  rw [wordlistInit_eq_splitOn]
  exact List.splitOn_ne_nil space p

theorem mem_of_mem_wordlistInit {p x : Bytes} {y : UInt8} (hx : x ∈ wordlistInit p) (hy : y ∈ x) :
    y ∈ p := by
  have hmem : ∀ ws : List Bytes, x ∈ ws → y ∈ [space].intercalate ws := by
    intro ws hws
    induction ws with
    | nil => cases hws
    | cons z ws ih =>
      cases ws with
      | nil =>
        rw [List.mem_singleton.mp hws] at hy
        simpa using hy
      | cons z' ws =>
        have hsplit : [space].intercalate (z :: z' :: ws) =
            z ++ ([space] ++ [space].intercalate (z' :: ws)) := by simp [List.intercalate]
        rw [hsplit]
        rcases List.mem_cons.mp hws with rfl | hws
        · exact List.mem_append_left _ hy
        · exact List.mem_append_right _ (List.mem_append_right _ (ih hws))
  rw [← intercalate_wordlistInit p]
  exact hmem _ hx

/-! ## Looking a word up -/

/-- What a lookup should answer. -/
structure LooksUp (w : Words) (word : Bytes) (res : Nat) : Prop where
  absent : word ∉ w.indices → res = 0
  present : word ∈ w.indices → ∃ i, res = i + 1 ∧ w.indices[i]? = some word
  unique : w.indices.Nodup → ∀ i, w.indices[i]? = some word → res = i + 1

/-- Where the binary search arrives, if the word is there. -/
def searchHit (w : Words) (word : Bytes) : Option Nat :=
  let v := w.indices.take (w.len - 1)
  let it := lowerBound v word 0 v.length
  if w.sorted = true ∧ v[it]? = some word then some it else none

section

variable {w : Words} {word : Bytes} {i k : Nat}

theorem looksUp_of_getElem? (h : w.indices[i]? = some word) : LooksUp w word (i + 1) where
  absent hno := absurd (List.mem_of_getElem? h) hno
  present _ := ⟨i, rfl, h⟩
  unique hnodup j hj := by
    have hlt : j < w.indices.length := (List.getElem?_eq_some_iff.mp hj).1
    rw [(List.getElem?_inj hlt hnodup).mp (hj.trans h.symm)]

theorem looksUp_zero (h : word ∉ w.indices) : LooksUp w word 0 where
  absent _ := rfl
  present hmem := absurd hmem h
  unique _ _ hi := absurd (List.mem_of_getElem? hi) h

theorem getElem?_of_searchHit (h : searchHit w word = some k) :
    w.indices[k]? = some word ∧ k < w.len - 1 := by
  rw [searchHit, Option.ite_none_right_eq_some, Option.some.injEq] at h
  obtain ⟨⟨-, hget⟩, rfl⟩ := h
  rw [List.getElem?_take] at hget
  split at hget
  · rename_i hlt
    exact ⟨hget, hlt⟩
  · cases hget

/-- The binary search did not find the word, or says so. -/
theorem wordlistLookupWord_of_linear (h : ∀ x ∈ word, x ≠ 0)
    (hmiss : ∀ k, searchHit w word = some k → Int32.ofNat k = -1) :
    LooksUp w word (wordlistLookupWord w word) := by
  have hidx : (if w.sorted then binarySearchFindIndex (w.indices.take (w.len - 1)) word
      else -1) = -1 := by
    by_cases hsorted : w.sorted = true
    · rw [if_pos hsorted, binarySearchFindIndex]
      split
      · rename_i hget
        exact hmiss _ (if_pos ⟨hsorted, hget⟩)
      · rfl
    · rw [if_neg hsorted]
  rw [wordlistLookupWord, hidx, cString_eq_self h, if_neg (not_not.mpr rfl)]
  cases hlin : w.indices.findIdx? (· == word) with
  | none =>
    refine looksUp_zero ?_
    intro hmem
    simpa using List.findIdx?_eq_none_iff.mp hlin word hmem
  | some i =>
    obtain ⟨hi, hx, -⟩ := List.findIdx?_eq_some_iff_getElem.mp hlin
    refine looksUp_of_getElem? ?_
    rw [List.getElem?_eq_getElem hi, beq_iff_eq.mp hx]

/-- A position as an `int`, and that as a `size_t`. -/
theorem wordlistLookupWord_of_searchHit (h : searchHit w word = some k)
    (hne : Int32.ofNat k ≠ -1) :
    wordlistLookupWord w word = toSizeT (Int32.ofNat k).toInt + 1 := by
  rw [searchHit, Option.ite_none_right_eq_some, Option.some.injEq] at h
  obtain ⟨⟨hsorted, hget⟩, rfl⟩ := h
  have hidx : binarySearchFindIndex (w.indices.take (w.len - 1)) word = Int32.ofNat
      (lowerBound (w.indices.take (w.len - 1)) word 0 (w.indices.take (w.len - 1)).length) :=
    if_pos hget
  rw [wordlistLookupWord, if_pos hsorted, hidx, if_pos hne]
  generalize Int32.ofNat _ = idx at hne
  have hneg : idx.toInt ≠ -1 := fun heq => hne (Int32.toInt_inj.mp heq)
  dsimp only [toSizeT]
  by_cases hpos : 0 ≤ idx.toInt
  · rw [if_pos hpos, if_pos (by omega)]
    omega
  · have hlow := idx.le_toInt
    rw [if_neg hpos, if_neg (by omega)]
    omega

theorem toSizeT_ofNat (hk : k < 2 ^ 31) : toSizeT (Int32.ofNat k).toInt = k := by
  rw [Int32.toInt_ofNat_of_lt hk, toSizeT, if_pos (Int.natCast_nonneg k), Int.toNat_natCast]

/-- The position at which the binary search finds the word becomes -1, which says that it has found
    nothing, or one at which the word stands. -/
def Reaches (w : Words) (word : Bytes) : Prop :=
  ∀ k, searchHit w word = some k →
    Int32.ofNat k = -1 ∨ w.indices[toSizeT (Int32.ofNat k).toInt]? = some word

theorem looksUp_of_reaches (h : ∀ x ∈ word, x ≠ 0) (hreaches : Reaches w word) :
    LooksUp w word (wordlistLookupWord w word) := by
  by_cases hhit : ∃ k, searchHit w word = some k ∧ Int32.ofNat k ≠ -1
  · obtain ⟨k, hk, hne⟩ := hhit
    rw [wordlistLookupWord_of_searchHit hk hne]
    exact looksUp_of_getElem? ((hreaches k hk).resolve_left hne)
  · refine wordlistLookupWord_of_linear h ?_
    intro k hk
    by_contra hne
    exact hhit ⟨k, hk, hne⟩

/-- A list that is not too long. -/
theorem reaches_of_len_le (hlen : w.len ≤ 2 ^ 31 + 1) : Reaches w word := by
  intro k hk
  obtain ⟨hget, hlt⟩ := getElem?_of_searchHit hk
  rw [toSizeT_ofNat (by omega)]
  exact Or.inr hget

end

/-! ## Word lists for BIP39 -/

/-- A list of 2048 distinct words, each a C string without spaces. -/
structure IsBip39 (w : Words) : Prop where
  bits : w.bits = 11
  len : w.indices.length = 2 ^ 11
  nodup : w.indices.Nodup
  ne_nil : ∀ x ∈ w.indices, x ≠ []
  no_space : ∀ x ∈ w.indices, space ∉ x
  no_zero : ∀ x ∈ w.indices, ∀ y ∈ x, y ≠ 0

/-- The `i`-th word. -/
def wordAt (w : Words) (i : Nat) : Bytes := w.indices.getD i []

/-- The phrase whose words have these indices. -/
def phrase (w : Words) (is : List Nat) : Bytes := [space].intercalate (is.map (wordAt w))

namespace IsBip39

variable {w : Words} (hw : IsBip39 w)
include hw

theorem getElem?_wordAt {i : Nat} (hi : i < 2 ^ 11) : w.indices[i]? = some (wordAt w i) := by
  have hlt : i < w.indices.length := by rw [hw.len]; exact hi
  rw [wordAt, List.getD_eq_getElem?_getD, List.getElem?_eq_getElem hlt]
  rfl

theorem wordAt_mem {i : Nat} (hi : i < 2 ^ 11) : wordAt w i ∈ w.indices :=
  List.mem_of_getElem? (hw.getElem?_wordAt hi)

theorem looksUp {word : Bytes} (h : ∀ x ∈ word, x ≠ 0) :
    LooksUp w word (wordlistLookupWord w word) := by
  refine looksUp_of_reaches h (reaches_of_len_le ?_)
  rw [Words.len, hw.len]
  decide

theorem lookup_wordAt {i : Nat} (hi : i < 2 ^ 11) :
    wordlistLookupWord w (wordAt w i) = i + 1 :=
  (hw.looksUp (hw.no_zero _ (hw.wordAt_mem hi))).unique hw.nodup i (hw.getElem?_wordAt hi)

/-- A hit is a word of the list, and says where. -/
theorem eq_wordAt_of_lookup {word : Bytes} (h : ∀ x ∈ word, x ≠ 0) {i : Nat}
    (hi : wordlistLookupWord w word = i + 1) : i < 2 ^ 11 ∧ word = wordAt w i := by
  have hlooks := hw.looksUp h
  by_cases hmem : word ∈ w.indices
  · obtain ⟨j, hj, hget⟩ := hlooks.present hmem
    have hij : j = i := by omega
    subst hij
    have hjlt : j < w.indices.length := (List.getElem?_eq_some_iff.mp hget).1
    rw [hw.len] at hjlt
    rw [hw.getElem?_wordAt hjlt] at hget
    exact ⟨hjlt, (Option.some.inj hget).symm⟩
  · rw [hlooks.absent hmem] at hi
    exact absurd hi (Nat.succ_ne_zero i).symm

/-! ### Phrases -/

theorem wordlistInit_phrase {is : List Nat} (his : ∀ i ∈ is, i < 2 ^ 11) (hne : is ≠ []) :
    wordlistInit (phrase w is) = is.map (wordAt w) := by
  apply wordlistInit_intercalate
  · intro x hx
    obtain ⟨i, hi, rfl⟩ := List.mem_map.mp hx
    exact hw.no_space _ (hw.wordAt_mem (his i hi))
  · simpa using hne

theorem phrase_ne_zero {is : List Nat} (his : ∀ i ∈ is, i < 2 ^ 11) :
    ∀ x ∈ phrase w is, x ≠ 0 := by
  induction is with
  | nil => simp [phrase]
  | cons i is ih =>
    intro x hx
    have hi := his i List.mem_cons_self
    have ih := ih fun j hj => his j (List.mem_cons_of_mem i hj)
    cases is with
    | nil =>
      have hx : x ∈ wordAt w i := by simpa [phrase] using hx
      exact hw.no_zero _ (hw.wordAt_mem hi) x hx
    | cons j js =>
      have hx : x ∈ wordAt w i ∨ x = space ∨ x ∈ phrase w (j :: js) := by
        simpa [phrase, List.intercalate] using hx
      rcases hx with hx | rfl | hx
      · exact hw.no_zero _ (hw.wordAt_mem hi) x hx
      · decide
      · exact ih x hx

end IsBip39

/-! ## The English list -/

/-- `n` is the code of a word of at most `k` lower case letters. -/
def isWord : Nat → Nat → Bool
  | 0, n => n.beq 0
  | k + 1, n =>
    n.beq 0 || (Nat.ble 97 (n % 256) && Nat.ble (n % 256) 122 && isWord k (n / 256))

/-- The code moved to the left, so that codes compare as words do. -/
def padCode : Nat → Nat → Nat
  | 0, n => n
  | k + 1, n => if Nat.ble (256 ^ 7) n then n else padCode k (n * 256)

theorem ofBE_spell {k n : Nat} (h : n < 256 ^ k) : ofBE (spell k n) = n := by
  induction k generalizing n with
  | zero =>
    have hn : n = 0 := by simpa using h
    rw [hn]
    rfl
  | succ k ih =>
    rw [spell]
    by_cases hn : n = 0
    · rw [if_pos hn, hn]
      rfl
    · have hdiv : n / 256 < 256 ^ k := Nat.div_lt_of_lt_mul (by rw [pow_succ] at h; omega)
      have hlow : (UInt8.ofNat n).toNat = n % 256 := UInt8.toNat_ofNat'
      rw [if_neg hn, ofBE_append_singleton, ih hdiv, hlow]
      omega

theorem isWord_spec {k n : Nat} (h : isWord k n = true) :
    n < 256 ^ k ∧ ∀ x ∈ spell k n, 97 ≤ x.toNat := by
  induction k generalizing n with
  | zero =>
    have hn : n = 0 := Nat.eq_of_beq_eq_true h
    exact ⟨by rw [hn]; exact Nat.one_pos, fun x hx => nomatch hx⟩
  | succ k ih =>
    rw [isWord, Bool.or_eq_true, Bool.and_eq_true, Bool.and_eq_true] at h
    rw [spell]
    rcases h with hn | ⟨⟨hlo, -⟩, hrest⟩
    · have hn : n = 0 := Nat.eq_of_beq_eq_true hn
      refine ⟨?_, ?_⟩
      · rw [hn]
        exact Nat.pow_pos (by omega)
      · rw [if_pos hn]
        exact fun x hx => nomatch hx
    · obtain ⟨hlt, hletters⟩ := ih hrest
      refine ⟨?_, ?_⟩
      · rw [pow_succ]
        omega
      · intro x hx
        split at hx
        · cases hx
        · rcases List.mem_append.mp hx with hx | hx
          · exact hletters x hx
          · have hlo := Nat.le_of_ble_eq_true hlo
            rw [List.mem_singleton.mp hx, UInt8.toNat_ofNat']
            exact hlo

set_option maxRecDepth 10000 in
theorem length_enCodes : enCodes.length = 2 ^ 11 := by decide +kernel

set_option maxRecDepth 10000 in
theorem isWord_enCodes : enCodes.all (fun c => !c.beq 0 && isWord 8 c) = true := by
  decide +kernel

set_option maxRecDepth 10000 in
theorem isChain_enCodes : (enCodes.map (padCode 8)).IsChain (· < ·) := by decide +kernel

theorem nodup_enCodes : enCodes.Nodup := by
  have hpair := List.isChain_iff_pairwise.mp isChain_enCodes
  exact List.Nodup.of_map (padCode 8) (hpair.imp Nat.ne_of_lt)

theorem enCodes_spec {c : Nat} (hc : c ∈ enCodes) :
    c ≠ 0 ∧ c < 256 ^ 8 ∧ ∀ x ∈ spell 8 c, 97 ≤ x.toNat := by
  have h := List.all_eq_true.mp isWord_enCodes c hc
  rw [Bool.and_eq_true] at h
  refine ⟨?_, isWord_spec h.2⟩
  rintro rfl
  cases h.1

theorem isBip39_enWords : IsBip39 enWords where
  bits := rfl
  len := by rw [enWords, List.length_map, length_enCodes]
  nodup := by
    apply List.Nodup.map_on _ nodup_enCodes
    intro a ha b hb hab
    rw [← ofBE_spell (enCodes_spec ha).2.1, ← ofBE_spell (enCodes_spec hb).2.1, hab]
  ne_nil := by
    intro x hx
    obtain ⟨c, hc, rfl⟩ := List.mem_map.mp hx
    intro hnil
    have hval := ofBE_spell (enCodes_spec hc).2.1
    rw [hnil] at hval
    exact (enCodes_spec hc).1 hval.symm
  no_space := by
    intro x hx hmem
    obtain ⟨c, hc, rfl⟩ := List.mem_map.mp hx
    exact absurd ((enCodes_spec hc).2.2 _ hmem) (by decide)
  no_zero := by
    intro x hx y hy
    obtain ⟨c, hc, rfl⟩ := List.mem_map.mp hx
    rintro rfl
    exact absurd ((enCodes_spec hc).2.2 _ hy) (by decide)

end Wallet
end Proof
end PtpCore
