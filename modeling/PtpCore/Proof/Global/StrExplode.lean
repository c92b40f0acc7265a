import PtpCore.Global.StrExplode

/-!
# What a string is split into

The items of `CStrExplode` are the fields of the string just when no field is empty, and none is so
long that a `uint32_t` does not hold its length (`explodes_iff`). Each separator that is kept in an
item leaves one place of the list unset.
-/

namespace PtpCore
namespace Proof
namespace Global

open Lib PtpCore.Global PtpCore.Global.CStrExplode

/-- The items are the fields, none is left out, and they make up the string again. -/
structure Explodes (str : Bytes) (sep : UInt8) : Prop where
  inside : (explode str sep).outside = false
  items : (explode str sep).itemList = ((cString str).splitOn sep).map some
  joined : [sep].intercalate ((explode str sep).itemList.map (·.getD [])) = cString str

section

variable {s : CStrExplode} {sep : UInt8} {idx : Nat} {field : Bytes}

/-! ### What a store does -/

theorem store_of_lt (hidx : idx < 2 ^ 31) (hroom : idx < s.itemList.length)
    (hlen : field.length + 1 < 2 ^ 32) :
    s.store idx field = { s with itemList := s.itemList.set idx (some field) } := by
  have hmod : field.length % 2 ^ 32 = field.length := Nat.mod_eq_of_lt (by omega)
  rw [store, hmod, if_pos ⟨hidx, hroom, hlen⟩, List.take_length]

theorem outside_store (h : (s.store idx field).outside = false) :
    s.outside = false ∧ idx < 2 ^ 31 ∧ idx < s.itemList.length ∧
      field.length % 2 ^ 32 + 1 < 2 ^ 32 ∧
      (s.store idx field).itemList =
        s.itemList.set idx (some (field.take (field.length % 2 ^ 32))) := by
  rw [store] at h ⊢
  split at h
  · rename_i hstored
    rw [if_pos hstored]
    exact ⟨h, hstored.1, hstored.2.1, hstored.2.2, rfl⟩
  · cases h

theorem length_store : (s.store idx field).itemList.length = s.itemList.length := by
  rw [store]
  split
  · exact List.length_set
  · rfl

theorem getElem?_store {j : Nat} (h : j ≠ idx) :
    (s.store idx field).itemList[j]? = s.itemList[j]? := by
  rw [store]
  split
  · exact List.getElem?_set_ne h.symm
  · rfl

/-! ### What the loop leaves -/

/-- Nothing is taken back. -/
theorem outside_cut {rest : Bytes} (h : (cut sep s idx field rest).outside = false) :
    s.outside = false := by
  induction rest generalizing s idx field with
  | nil =>
    rw [cut] at h
    split at h
    · exact (outside_store h).1
    · exact h
  | cons c rest ih =>
    rw [cut] at h
    split at h
    · exact (outside_store (ih h)).1
    · exact ih h

/-- Each separator takes the loop on by at most one item. -/
theorem getElem?_cut {rest : Bytes} {j : Nat} (h : j < idx ∨ idx + rest.count sep < j) :
    (cut sep s idx field rest).itemList[j]? = s.itemList[j]? := by
  induction rest generalizing s idx field with
  | nil =>
    have hj : j ≠ idx := by
      rw [List.count_nil] at h
      omega
    rw [cut]
    split
    · exact getElem?_store hj
    · rfl
  | cons c rest ih =>
    rw [cut]
    split
    · rename_i hcut
      rw [hcut.2, List.count_cons_self] at h
      rw [ih (by omega), getElem?_store (by omega)]
    · have hle : rest.count sep ≤ (c :: rest).count sep := List.count_le_count_cons
      exact ih (by omega)

/-! ### The fields -/

/-- Not empty, and with a length that a `uint32_t` holds, the zero behind it included. -/
def FieldFits (f : Bytes) : Prop := f ≠ [] ∧ f.length + 1 < 2 ^ 32

theorem length_splitOn (sep : UInt8) (str : Bytes) :
    (str.splitOn sep).length = str.count sep + 1 := by
  induction str with
  | nil => rfl
  | cons c str ih =>
    rw [List.splitOn_cons_eq_if_modifyHead]
    by_cases hc : c = sep
    · simp [hc, ih]
    · simp [hc, ih]

/-- Where the loop cuts, and where it goes on. -/
theorem splitOn_cut (hfield : sep ∉ field) (rest : Bytes) :
    (field ++ sep :: rest).splitOn sep = field :: rest.splitOn sep :=
  List.splitOn_append_cons_self_of_not_mem hfield rest

theorem splitOn_extend (c : UInt8) (rest : Bytes) :
    (field ++ c :: rest).splitOn sep = ((field ++ [c]) ++ rest).splitOn sep := by
  rw [List.append_assoc, List.singleton_append]

theorem not_mem_extend {c : UInt8} (hfield : sep ∉ field) (hc : c ≠ sep) : sep ∉ field ++ [c] := by
  rw [List.mem_append, List.mem_singleton]
  rintro (h | h)
  · exact hfield h
  · exact hc h.symm

/-- **Fields that fit** are stored one after the other. -/
theorem cut_of_fits {rest : Bytes} (hfield : sep ∉ field)
    (hfits : ∀ f ∈ (field ++ rest).splitOn sep, FieldFits f)
    (hlen : s.itemList.length = idx + ((field ++ rest).splitOn sep).length)
    (hidx : idx + ((field ++ rest).splitOn sep).length ≤ 2 ^ 31) :
    cut sep s idx field rest = { s with
      itemList := s.itemList.take idx ++ ((field ++ rest).splitOn sep).map some } := by
  induction rest generalizing s idx field with
  | nil =>
    rw [List.append_nil, List.splitOn_eq_singleton hfield] at hfits hlen hidx ⊢
    obtain ⟨hne, hshort⟩ := hfits field (List.mem_singleton_self _)
    rw [List.length_singleton] at hlen hidx
    have hmod : field.length % 2 ^ 32 = field.length := Nat.mod_eq_of_lt (by omega)
    have hpos : field.length ≠ 0 := fun h => hne (List.length_eq_zero_iff.mp h)
    rw [cut, hmod, if_pos hpos, store_of_lt (by omega) (by omega) hshort]
    congr 1
    rw [List.set_eq_take_append_cons_drop, if_pos (by omega), List.drop_eq_nil_of_le (by omega)]
    rfl
  | cons c rest ih =>
    by_cases hc : c = sep
    · subst hc
      rw [splitOn_cut hfield] at hfits hlen hidx ⊢
      obtain ⟨hne, hshort⟩ := hfits field List.mem_cons_self
      rw [List.length_cons] at hlen hidx
      rw [cut, if_pos ⟨hne, rfl⟩, store_of_lt (by omega) (by omega) hshort,
        ih List.not_mem_nil (fun f hf => hfits f (List.mem_cons_of_mem _ hf))
          (by simp only [List.length_set, List.nil_append]; omega)
          (by simp only [List.nil_append]; omega)]
      congr 1
      have hlt : idx < (s.itemList.set idx (some field)).length := by
        rw [List.length_set]
        omega
      rw [List.take_succ_eq_append_getElem hlt, List.getElem_set_self,
        List.take_set_of_le (Nat.le_refl _)]
      simp
    · rw [splitOn_extend] at hfits hlen hidx ⊢
      rw [cut, if_neg fun h => hc h.2]
      exact ih (not_mem_extend hfield hc) hfits hlen hidx

/-- An item that is right was stored in whole. -/
theorem fits_of_store (hin : (s.store idx field).outside = false)
    (hitem : (s.store idx field).itemList[idx]? = some (some field)) :
    idx < 2 ^ 31 ∧ field.length + 1 < 2 ^ 32 := by
  obtain ⟨-, hidx, hroom, hshort, hlist⟩ := outside_store hin
  rw [hlist, List.getElem?_set_self hroom, Option.some.injEq, Option.some.injEq] at hitem
  have hwhole := congrArg List.length hitem
  rw [List.length_take] at hwhole
  exact ⟨hidx, by omega⟩

/-- **Fields that are found again** fit. -/
theorem fits_of_cut {rest : Bytes} (hfield : sep ∉ field)
    (hblank : ∀ j f, idx ≤ j → s.itemList[j]? ≠ some (some f))
    (hin : (cut sep s idx field rest).outside = false)
    (hitems : ∀ j, (cut sep s idx field rest).itemList[idx + j]? =
      (((field ++ rest).splitOn sep).map some)[j]?) :
    (∀ f ∈ (field ++ rest).splitOn sep, FieldFits f) ∧
      idx + ((field ++ rest).splitOn sep).length ≤ 2 ^ 31 := by
  induction rest generalizing s idx field with
  | nil =>
    rw [List.append_nil, List.splitOn_eq_singleton hfield] at hitems ⊢
    have hitem : (cut sep s idx field []).itemList[idx]? = some (some field) := hitems 0
    rw [cut] at hin hitem
    by_cases hlen : field.length % 2 ^ 32 ≠ 0
    · rw [if_pos hlen] at hin hitem
      obtain ⟨hidx, hshort⟩ := fits_of_store hin hitem
      have hne : field ≠ [] := by
        rintro rfl
        exact hlen rfl
      refine ⟨?_, hidx⟩
      intro f hf
      rw [List.mem_singleton.mp hf]
      exact ⟨hne, hshort⟩
    · rw [if_neg hlen] at hitem
      exact absurd hitem (hblank idx field (Nat.le_refl _))
  | cons c rest ih =>
    by_cases hc : c = sep
    · subst hc
      by_cases hne : field = []
      · -- the separator is kept, and the last place stays blank
        subst hne
        rw [cut, if_neg fun h => h.1 rfl] at hitems
        have hlast := hitems (rest.count c + 1)
        have hlt : rest.count c + 1 < (([] ++ c :: rest).splitOn c).length := by
          rw [splitOn_cut hfield, List.length_cons, length_splitOn]
          omega
        rw [getElem?_cut (.inr (by omega)), List.getElem?_map,
          List.getElem?_eq_getElem hlt] at hlast
        exact absurd hlast (hblank _ _ (by omega))
      · rw [splitOn_cut hfield] at hitems ⊢
        rw [cut, if_pos ⟨hne, rfl⟩] at hin hitems
        have hitem : (s.store idx field).itemList[idx]? = some (some field) := by
          rw [← getElem?_cut (.inl (Nat.lt_succ_self idx))]
          exact hitems 0
        obtain ⟨-, hshort⟩ := fits_of_store (outside_cut hin) hitem
        have hblank' : ∀ j f, idx + 1 ≤ j → (s.store idx field).itemList[j]? ≠ some (some f) := by
          intro j f hj
          rw [getElem?_store (by omega)]
          exact hblank j f (by omega)
        have hitems' : ∀ j, (cut c (s.store idx field) (idx + 1) [] rest).itemList[idx + 1 + j]? =
            ((([] ++ rest).splitOn c).map some)[j]? := by
          intro j
          rw [Nat.add_assoc, Nat.add_comm 1 j]
          exact hitems (j + 1)
        obtain ⟨hfits, hidx⟩ := ih List.not_mem_nil hblank' hin hitems'
        rw [List.nil_append] at hfits hidx
        refine ⟨?_, ?_⟩
        · intro f hf
          rcases List.mem_cons.mp hf with rfl | hf
          · exact ⟨hne, hshort⟩
          · exact hfits f hf
        · rw [List.length_cons]
          omega
    · rw [splitOn_extend] at hitems ⊢
      rw [cut, if_neg fun h => hc h.2] at hin hitems
      exact ih (not_mem_extend hfield hc) hblank hin hitems

end

theorem toNat_countItems (sep : UInt8) (str : Bytes) :
    (countItems sep str).toNat = (str.splitOn sep).length % 2 ^ 32 := by
  have hfold : ∀ (str : Bytes) (n : UInt32),
      (str.foldl (fun itemCnt c => if c = sep then itemCnt + 1 else itemCnt) n).toNat =
        (n.toNat + str.count sep) % 2 ^ 32 := by
    intro str
    induction str with
    | nil =>
      intro n
      have hn := n.toNat_lt
      simp only [List.foldl_nil, List.count_nil]
      omega
    | cons c str ih =>
      intro n
      rw [List.foldl_cons, ih]
      by_cases hc : c = sep
      · rw [if_pos hc, hc, List.count_cons_self, UInt32.toNat_add]
        simp only [UInt32.reduceToNat]
        omega
      · rw [if_neg hc, List.count_cons_of_ne hc]
  rw [countItems, hfold, length_splitOn]
  simp only [UInt32.reduceToNat]
  omega

/-- **When a string is split into its fields.** -/
theorem explodes_iff (str : Bytes) (sep : UInt8) :
    Explodes str sep ↔ (∀ f ∈ (cString str).splitOn sep, FieldFits f) ∧
      ((cString str).splitOn sep).length ≤ 2 ^ 31 := by
  have hcount := toNat_countItems sep (cString str)
  constructor
  · rintro ⟨hin, hitems, -⟩
    rw [explode] at hin hitems
    have hblank : ∀ (n j : Nat) (f : Bytes), (List.replicate n none)[j]? ≠ some (some f) := by
      intro n j f h
      rw [List.getElem?_replicate] at h
      split at h
      · cases h
      · cases h
    have hfits := fits_of_cut List.not_mem_nil (fun j f _ => hblank _ j f) hin
      (fun j => by rw [hitems, Nat.zero_add]; rfl)
    simpa using hfits
  · rintro ⟨hfits, hlen⟩
    rw [Nat.mod_eq_of_lt (by omega)] at hcount
    have hcut : explode str sep = ⟨countItems sep (cString str),
        ((cString str).splitOn sep).map some, false⟩ := by
      have hall : cut sep ⟨countItems sep (cString str),
          List.replicate (countItems sep (cString str)).toNat none, false⟩ 0 [] (cString str) = _ :=
        cut_of_fits List.not_mem_nil hfits (by simp [hcount]) (by simpa using hlen)
      simpa [explode] using hall
    refine ⟨?_, ?_, ?_⟩
    · rw [hcut]
    · rw [hcut]
    · rw [hcut, List.map_map]
      change [sep].intercalate (((cString str).splitOn sep).map id) = cString str
      rw [List.map_id, List.intercalate_splitOn]

/-- Two separators in a row, as in a list of addresses: one of three places is never set. -/
theorem not_explodes_twice :
    (explode "a;;b".toUTF8.toList 0x3b).itemList =
        [some "a".toUTF8.toList, some ";b".toUTF8.toList, none] ∧
      ¬ Explodes "a;;b".toUTF8.toList 0x3b := by
  have hlist : (explode "a;;b".toUTF8.toList 0x3b).itemList =
      [some "a".toUTF8.toList, some ";b".toUTF8.toList, none] := by
    decide +kernel
  refine ⟨hlist, ?_⟩
  intro h
  have hlast := congrArg (fun l => l[2]?) (hlist.symm.trans h.items)
  rw [List.getElem?_map] at hlast
  revert hlast
  cases (List.splitOn 0x3b (cString "a;;b".toUTF8.toList))[2]? with
  | none => exact nofun
  | some f => exact nofun

end Global
end Proof
end PtpCore
