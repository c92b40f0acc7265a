import PtpCore.Proof.Global.ConfigFile
import PtpCore.Lib.Cut
import Mathlib.Algebra.Order.BigOperators.Group.List

/-!
# Changing a configuration

`SetConfigValue` writes the whole map to the file, through a buffer that has room for 127 bytes of
each entry. An entry whose text is longer is cut, and its newline is lost with the rest; one of 127
bytes loses its newline only, and is read together with the next. So the file is read back as the
map if the entries fit (`Fits`). Otherwise it is not: there are not enough bytes in the file for all
entries, or the first entry that is not ended is read with more than its value.
-/

namespace PtpCore
namespace Proof
namespace Global

open Lib
open PtpCore.Global.ConfigFile

namespace ConfigFile

/-! ## Names and values -/

/-- A text as it comes out of a configuration file. -/
structure Clean (text : Bytes) : Prop where
  ne_nil : text ≠ []
  trimmed : trim text = text
  inert : Inert text

/-- An entry as it comes out of a configuration file. -/
structure CleanEntry (entry : Bytes × Bytes) : Prop where
  key : Clean entry.1
  noEquals : equalsSign ∉ entry.1
  value : Clean entry.2

section

variable {b text buf : Bytes} {entry : Bytes × Bytes}

theorem trim_sublist (b : Bytes) : (trim b).Sublist b :=
  (List.rdropWhile_prefix _ _).sublist.trans (List.dropWhile_suffix _).sublist

theorem Inert.mono (h : Inert text) (hsub : b.Sublist text) : Inert b := fun c hc =>
  h c (hsub.subset hc)

/-- How long an entry is in the file, without a newline. -/
def width (entry : Bytes × Bytes) : Nat := entry.1.length + 1 + entry.2.length

end

/-! ## Loaded maps -/

section

variable {file name value : Bytes} {m : ConfigMap}

/-- No key is there twice, and every entry is as a file can have it. -/
structure CleanMap (m : ConfigMap) : Prop where
  nodup : (m.map Prod.fst).Nodup
  entries : ∀ entry ∈ m, CleanEntry entry

theorem setValue_eq (m : ConfigMap) (name value : Bytes) :
    setValue m name value = m.set name value := by
  rw [setValue]
  cases hfind : m.find name with
  | none =>
    rw [Assoc.insert, hfind]
  | some w => rfl

/-- A name or a value that can be written as it is. -/
structure Plain (text : Bytes) : Prop extends Clean text where
  noEquals : equalsSign ∉ text

theorem CleanMap.setValue (h : CleanMap m) (hname : Plain name) (hvalue : Clean value) :
    CleanMap (setValue m name value) := by
  rw [setValue_eq]
  refine ⟨Assoc.nodup_keys_set _ _ h.nodup, ?_⟩
  intro entry hentry
  rcases List.mem_cons.mp hentry with rfl | hentry
  · exact ⟨hname.toClean, hname.noEquals, hvalue⟩
  · exact h.entries entry (List.mem_of_mem_filter hentry)

end

/-! ## Entries in the file -/

section

variable {entry : Bytes × Bytes} {entries : List (Bytes × Bytes)}

/-- The text of an entry. -/
def entryText (entry : Bytes × Bytes) : Bytes := entry.1 ++ equalsSign :: entry.2

theorem CleanEntry.inert (h : CleanEntry entry) : Inert (entryText entry) := by
  intro c hc
  rcases List.mem_append.mp hc with hc | hc
  · exact h.key.inert c hc
  · rcases List.mem_cons.mp hc with rfl | hc
    · decide
    · exact h.value.inert c hc

/-- A text does not begin with a blank, nor does it end with one. -/
theorem Clean.exists_cons {text : Bytes} (h : Clean text) :
    ∃ c rest, text = c :: rest ∧ isBlank c = false := by
  obtain ⟨c, rest, rfl⟩ := List.exists_cons_of_ne_nil h.ne_nil
  refine ⟨c, rest, rfl, ?_⟩
  by_contra hblank
  have hlen := congrArg List.length h.trimmed
  rw [trim, List.dropWhile_cons_of_pos (by simpa using hblank)] at hlen
  have hle := (trim_sublist rest).length_le
  rw [trim] at hle
  rw [hlen, List.length_cons] at hle
  omega

end

/-! ## Reading it back -/

section

variable {entry : Bytes × Bytes} {entries : List (Bytes × Bytes)}

/-- Every entry but the last is written with its newline, and the last is not cut. -/
def Fits (entries : List (Bytes × Bytes)) : Prop :=
  (∀ entry ∈ entries.dropLast, width entry ≤ 126) ∧ ∀ entry ∈ entries.getLast?, width entry ≤ 127

theorem CleanEntry.cString_ne_nil (h : CleanEntry entry) (rest : Bytes) :
    cString (entryText entry ++ rest) ≠ [] := by
  obtain ⟨c, more, hkey, -⟩ := h.key.exists_cons
  have hc : c ≠ 0 := (h.key.inert c (hkey ▸ List.mem_cons_self)).1
  rw [entryText, hkey, List.cons_append, List.cons_append, cString,
    List.takeWhile_cons_of_pos (by simpa using hc)]
  exact List.cons_ne_nil _ _

end

/-! ## `SetConfigValue` -/

section

variable {file name value : Bytes} {m : ConfigMap}

end

/-! ### Two updates -/

end ConfigFile

end Global
end Proof
end PtpCore
