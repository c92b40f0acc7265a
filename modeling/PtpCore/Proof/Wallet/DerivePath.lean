import Mathlib.Logic.Relation
import PtpCore.Proof.Global.Helpers
import PtpCore.Wallet.HDKeyEncoder

/-!
# What a derivation path denotes, and what is derived

`denotes` is the grammar: an `m`, then numbers below `2 ^ 31` with or without an apostrophe. A path
of this form is followed exactly (`derivePath_of_denotes`). Of the others `derivePath` refuses only
some, and only a refusal at the first part it reads leaves the key as it was: `follows_iff` says
which paths these are.

What goes through besides the grammar: a path that does not begin with `m`, or has it further on; a
part that is only an apostrophe; a slash at the end; spaces and a sign in front of a number and
anything behind it; numbers from `2 ^ 31` on, where an apostrophe takes the offset away again.
-/

namespace PtpCore
namespace Proof
namespace Wallet

open Lib PtpCore.Global Proof.Global
open PtpCore.Wallet PtpCore.Wallet.HDKeyEncoder

/-! ## The grammar -/

/-- The index that a part of a path stands for. -/
def component (bit : Bytes) : Option UInt32 :=
  let hardened := bit.getLast? == some apostrophe
  let digits := if hardened then bit.dropLast else bit
  if digits ≠ [] ∧ digits.all (fun x => 0x30 ≤ x ∧ x ≤ 0x39) ∧ atoiDigits 0 digits < 2 ^ 31 then
    some (UInt32.ofNat (atoiDigits 0 digits + if hardened then 2 ^ 31 else 0))
  else none

/-- The indices that a path stands for. -/
def denotes (path : Bytes) : Option (List UInt32) :=
  match path.splitOn slash with
  | [] => none
  | first :: parts => if first = [0x6d] then parts.mapM component else none

/-- One derivation after the other. -/
def deriveAll (p : HDPrimitives) (key : HDKey) (is : List UInt32) : Option HDKey :=
  is.foldlM (derive p) key

/-- What `derivePath` ought to do: derive what the path stands for, or throw and leave the key. -/
def Follows (path : Bytes) : Prop :=
  ∀ p key,
    (∀ is, denotes path = some is →
      derivePath p key path true = (deriveAll p key is).map fun key => (key, none)) ∧
    (denotes path = none → ∃ e, derivePath p key path true = some (key, some e))

/-! ## Reading a number -/

theorem magnitude_digits {digits : Bytes} (hne : digits ≠ []) (hd : ∀ x ∈ digits, IsDigit x)
    (hv : atoiDigits 0 digits < 2 ^ 64) : magnitude digits = .ok (atoiDigits 0 digits) := by
  obtain ⟨x, rest, rfl⟩ := List.exists_cons_of_ne_nil hne
  have hx : 0x30 ≤ x ∧ x ≤ 0x39 := hd x List.mem_cons_self
  rw [magnitude, if_pos hx]
  exact if_pos hv

theorem stoul_digits {digits : Bytes} (hne : digits ≠ []) (hd : ∀ x ∈ digits, IsDigit x)
    (hv : atoiDigits 0 digits < 2 ^ 64) : stoul digits = .ok (atoiDigits 0 digits) := by
  have hread := magnitude_digits hne hd hv
  obtain ⟨x, rest, rfl⟩ := List.exists_cons_of_ne_nil hne
  obtain ⟨-, hminus, hplus, hspace⟩ := (hd x List.mem_cons_self).ne
  rw [stoul, List.dropWhile_cons_of_neg (by simp [hspace])]
  split
  · rename_i heq
    exact absurd (List.cons.inj heq).1 hminus
  · rename_i heq
    exact absurd (List.cons.inj heq).1 hplus
  · exact hread

theorem strToUint32_digits {digits : Bytes} (hne : digits ≠ []) (hd : ∀ x ∈ digits, IsDigit x)
    (hv : atoiDigits 0 digits < 2 ^ 32) :
    strToUint32 digits = .ok (UInt32.ofNat (atoiDigits 0 digits)) := by
  have hsmall : ¬ atoiDigits 0 digits > 2 ^ 32 - 1 := by omega
  rw [strToUint32, stoul_digits hne hd (by omega)]
  exact if_neg hsmall

theorem isSkipped_eq_false {bit : Bytes} (hm : bit ≠ [0x6d]) (ha : bit ≠ [apostrophe]) :
    isSkipped bit = false := by
  simp [isSkipped, hm, ha]

/-- A part of the grammar is digits, with an apostrophe or without. -/
theorem component_cases {bit : Bytes} {i : UInt32} (h : component bit = some i) :
    (bit.getLast? = some apostrophe ∧ 1 < bit.length ∧
      (∀ x ∈ bit.dropLast, 0x30 ≤ x ∧ x ≤ 0x39) ∧ atoiDigits 0 bit.dropLast < 2 ^ 31 ∧
      i = UInt32.ofNat (atoiDigits 0 bit.dropLast) + 0x80000000) ∨
    (bit.getLast? ≠ some apostrophe ∧ bit ≠ [] ∧ (∀ x ∈ bit, 0x30 ≤ x ∧ x ≤ 0x39) ∧
      atoiDigits 0 bit < 2 ^ 31 ∧ i = UInt32.ofNat (atoiDigits 0 bit)) := by
  rw [component] at h
  by_cases hlast : bit.getLast? = some apostrophe
  · have hb : (bit.getLast? == some apostrophe) = true := by simp [hlast]
    simp only [hb, if_true] at h
    split at h
    · rename_i hok
      obtain ⟨hne, hd, hv⟩ := hok
      have hlong := List.length_pos_iff.mpr hne
      rw [List.length_dropLast] at hlong
      rw [List.all_eq_true] at hd
      refine .inl ⟨hlast, Nat.lt_of_sub_pos hlong, fun x hx => of_decide_eq_true (hd x hx), hv, ?_⟩
      rw [← Option.some.inj h, UInt32.ofNat_add]
      rfl
    · cases h
  · have hb : (bit.getLast? == some apostrophe) = false := by simp [hlast]
    simp only [hb, Bool.false_eq_true, if_false] at h
    split at h
    · rename_i hok
      obtain ⟨hne, hd, hv⟩ := hok
      rw [List.all_eq_true] at hd
      exact .inr ⟨hlast, hne, fun x hx => of_decide_eq_true (hd x hx), hv,
        (Option.some.inj h).symm⟩
    · cases h

/-- It is read as the grammar says. -/
theorem component_spec {bit : Bytes} {i : UInt32} (h : component bit = some i) :
    bit ≠ [] ∧ isSkipped bit = false ∧ childIndex bit = .ok i := by
  rcases component_cases h with ⟨hlast, hlong, hd, hv, rfl⟩ | ⟨hlast, hne, hd, hv, rfl⟩
  · have hne : bit.dropLast ≠ [] := by
      rw [← List.length_pos_iff, List.length_dropLast]
      exact Nat.sub_pos_of_lt hlong
    have hread := strToUint32_digits hne hd (by omega)
    have hhard : isHardened bit = true := by simp [isHardened, hlong, hlast]
    refine ⟨?_, ?_, ?_⟩
    · rintro rfl
      cases hlong
    · apply isSkipped_eq_false
      · rintro rfl
        exact absurd hlong (by decide)
      · rintro rfl
        exact absurd hlong (by decide)
    · rw [childIndex, partIndex, hhard, if_pos rfl, hread]
      rfl
  · have hread := strToUint32_digits hne hd (by omega)
    have hhard : isHardened bit = false := by simp [isHardened, hlast]
    refine ⟨hne, ?_, ?_⟩
    · apply isSkipped_eq_false
      · rintro rfl
        exact absurd (hd 0x6d (by simp)) (by decide)
      · rintro rfl
        exact hlast rfl
    · rw [childIndex, partIndex, hhard, if_neg (by decide), hread]
      rfl

/-! ## Following a path -/

section

variable {p : HDPrimitives} {key : HDKey}

theorem mapM_component_cons {bit : Bytes} {rest : List Bytes} {is : List UInt32}
    (h : (bit :: rest).mapM component = some is) :
    ∃ i js, component bit = some i ∧ rest.mapM component = some js ∧ is = i :: js := by
  rw [List.mapM_cons] at h
  cases hbit : component bit with
  | none =>
    rw [hbit] at h
    cases h
  | some i =>
    cases hrest : rest.mapM component with
    | none =>
      rw [hbit, hrest] at h
      cases h
    | some js =>
      rw [hbit, hrest] at h
      cases h
      exact ⟨i, js, rfl, rfl, rfl⟩

theorem ne_nil_of_component {parts : List Bytes} {is : List UInt32}
    (h : parts.mapM component = some is) : ∀ bit ∈ parts, bit ≠ [] := by
  induction parts generalizing is with
  | nil => simp
  | cons bit rest ih =>
    obtain ⟨i, js, hbit, hrest, -⟩ := mapM_component_cons h
    intro x hx
    rcases List.mem_cons.mp hx with rfl | hx
    · exact (component_spec hbit).1
    · exact ih hrest x hx

/-- Parts of the grammar in front of others. -/
theorem deriveParts_append {parts : List Bytes} {is : List UInt32}
    (h : parts.mapM component = some is) (rest : List Bytes) :
    deriveParts p true key (parts ++ rest) =
      (deriveAll p key is).bind fun key => deriveParts p true key rest := by
  induction parts generalizing key is with
  | nil =>
    cases h
    rfl
  | cons bit parts ih =>
    obtain ⟨i, js, hbit, hparts, rfl⟩ := mapM_component_cons h
    obtain ⟨-, hskip, hindex⟩ := component_spec hbit
    rw [List.cons_append, deriveParts, hskip, if_neg (by decide), hindex]
    dsimp only
    rw [deriveAll, List.foldlM_cons]
    cases hd : derive p key i with
    | none => simp
    | some key' => simpa [deriveAll] using ih hparts

theorem deriveParts_components {parts : List Bytes} {is : List UInt32}
    (h : parts.mapM component = some is) :
    deriveParts p true key parts = (deriveAll p key is).map fun key => (key, none) := by
  rw [← List.append_nil parts, deriveParts_append h]
  cases deriveAll p key is with
  | none => rfl
  | some key' => rfl

theorem split_of_getLastD {source : Bytes} {delimiter : UInt8}
    (h : (source.splitOn delimiter).getLastD [] ≠ []) :
    split source delimiter = source.splitOn delimiter := by
  have hne := List.splitOn_ne_nil delimiter source
  have hpos := List.length_pos_iff.mpr h
  rw [split, if_pos hpos, List.getLastD_eq_getLast?, List.getLast?_eq_some_getLast hne,
    Option.getD_some, List.dropLast_append_getLast]

/-- The parts of a path of the grammar, and that the last is not empty. -/
theorem split_of_denotes {path : Bytes} {is : List UInt32} (h : denotes path = some is) :
    ∃ parts, split path slash = [0x6d] :: parts ∧ parts.mapM component = some is := by
  unfold denotes at h
  split at h
  · cases h
  · rename_i first parts hsplit
    split at h
    · rename_i hfirst
      subst hfirst
      refine ⟨parts, ?_, h⟩
      rw [← hsplit]
      apply split_of_getLastD
      rw [hsplit]
      have hall : ∀ bit ∈ [0x6d] :: parts, bit ≠ [] := by
        intro bit hbit
        rcases List.mem_cons.mp hbit with rfl | hbit
        · decide
        · exact ne_nil_of_component h bit hbit
      rw [List.getLastD_eq_getLast?, List.getLast?_eq_some_getLast (List.cons_ne_nil _ _)]
      exact hall _ (List.getLast_mem _)
    · cases h

/-- **A path of the grammar is followed.** -/
theorem derivePath_of_denotes {path : Bytes} {is : List UInt32} (h : denotes path = some is) :
    derivePath p key path true = (deriveAll p key is).map fun key => (key, none) := by
  obtain ⟨parts, hsplit, hparts⟩ := split_of_denotes h
  rw [derivePath, hsplit, deriveParts, if_pos (by decide)]
  exact deriveParts_components hparts

/-! ## The other paths -/

/-- The first part that is read. -/
def firstPart (path : Bytes) : Option Bytes := (split path slash).find? fun bit => !isSkipped bit

/-- It is refused. -/
def Refused (path : Bytes) : Prop := ∃ bit e, firstPart path = some bit ∧ partIndex bit = .error e

theorem childIndex_error {bit : Bytes} {e : StdError} :
    childIndex bit = .error e ↔ partIndex bit = .error e := by
  rw [childIndex]
  cases partIndex bit with
  | error e' => simp [Except.map]
  | ok i => simp [Except.map]

/-- The parts in front of the first that is read do nothing. -/
theorem deriveParts_find (p : HDPrimitives) (key : HDKey) (parts : List Bytes) :
    (parts.find? (fun bit => !isSkipped bit) = none →
      deriveParts p true key parts = some (key, none)) ∧
    ∀ bit, parts.find? (fun bit => !isSkipped bit) = some bit →
      (∀ e, childIndex bit = .error e → deriveParts p true key parts = some (key, some e)) ∧
      ∀ i, childIndex bit = .ok i → ∃ rest, deriveParts p true key parts =
        (derive p key i).bind fun key => deriveParts p true key rest := by
  induction parts with
  | nil => simp [deriveParts]
  | cons part rest ih =>
    by_cases hskip : isSkipped part = true
    · rw [List.find?_cons_of_neg (by simp [hskip]), deriveParts, if_pos hskip]
      exact ih
    · rw [List.find?_cons_of_pos (by simpa using hskip)]
      refine ⟨fun hno => absurd hno (Option.some_ne_none part), ?_⟩
      intro bit hbit
      obtain rfl := Option.some.inj hbit
      refine ⟨?_, ?_⟩
      · intro e he
        rw [deriveParts, if_neg hskip, he]
      · intro i hi
        refine ⟨rest, ?_⟩
        rw [deriveParts, if_neg hskip, hi]
        simp only [Bool.not_true, Bool.and_false, Bool.false_eq_true, if_false, if_true]
        cases derive p key i with
        | none => rfl
        | some key' => rfl

/-- A derivation forgets the public key. -/
theorem publicKey_of_derive {i : UInt32} {key' : HDKey} (h : derive p key i = some key') :
    key'.publicKey = List.replicate 33 0 := by
  unfold derive at h
  dsimp only at h
  split at h
  · cases h
  · cases h
    rfl

/-- Any number of derivations. -/
def Steps (p : HDPrimitives) : HDKey → HDKey → Prop :=
  Relation.ReflTransGen fun a b => ∃ i, derive p a i = some b

/-- Whatever the path, and wherever it is given up, nothing else is done to a key. -/
theorem steps_of_deriveParts {priv : Bool} {parts : List Bytes} {key' : HDKey}
    {thrown : Option StdError} (h : deriveParts p priv key parts = some (key', thrown)) :
    Steps p key key' := by
  induction parts generalizing key with
  | nil =>
    cases h
    exact .refl
  | cons bit rest ih =>
    rw [deriveParts] at h
    split at h
    · exact ih h
    · split at h
      · cases h
        exact .refl
      · rename_i i hi
        split at h
        · cases h
          exact .refl
        · split at h
          · split at h
            · cases h
            · rename_i key1 hd
              exact .head ⟨i, hd⟩ (ih h)
          · exact ih h

theorem publicKey_of_steps {key' : HDKey} (h : Steps p key key')
    (hkey : key.publicKey = List.replicate 33 0) : key'.publicKey = List.replicate 33 0 := by
  induction h with
  | refl => exact hkey
  | tail _ hstep _ =>
    obtain ⟨i, hi⟩ := hstep
    exact publicKey_of_derive hi

/-- A refusal at the first part that is read leaves the key alone. -/
theorem derivePath_of_refused {path : Bytes} (h : Refused path) :
    ∃ e, derivePath p key path true = some (key, some e) := by
  obtain ⟨bit, e, hfirst, he⟩ := h
  obtain ⟨-, hparts⟩ := deriveParts_find p key (split path slash)
  exact ⟨e, (hparts bit hfirst).1 e (childIndex_error.mpr he)⟩

end

/-- Of the paths outside the grammar, the others are not thrown at, or only when a key has been
    derived. -/
theorem not_follows {path : Bytes} (hpath : denotes path = none) (h : ¬ Refused path) :
    ¬ Follows path := by
  intro hfollows
  -- any functions will do, and a key whose public key is in sight
  let p : HDPrimitives := ⟨id, fun _ data => data, 0, 0, id, id, id, id⟩
  let key : HDKey := { publicKey := [] }
  obtain ⟨e, he⟩ := (hfollows p key).2 hpath
  obtain ⟨hnothing, hparts⟩ := deriveParts_find p key (split path slash)
  rw [derivePath] at he
  cases hfirst : (split path slash).find? fun bit => !isSkipped bit with
  | none =>
    rw [hnothing hfirst] at he
    cases he
  | some bit =>
    cases hindex : childIndex bit with
    | error e' => exact h ⟨bit, e', hfirst, childIndex_error.mp hindex⟩
    | ok i =>
      obtain ⟨rest, hrest⟩ := (hparts bit hfirst).2 i hindex
      rw [hrest] at he
      cases hd : derive p key i with
      | none =>
        rw [hd] at he
        cases he
      | some key' =>
        rw [hd] at he
        have hzero := publicKey_of_steps (steps_of_deriveParts he) (publicKey_of_derive hd)
        cases hzero

/-- **Which paths are followed.** Those of the grammar, and of the others those whose first part
    besides `m` and `'` is not a number. -/
theorem follows_iff (path : Bytes) : Follows path ↔ denotes path ≠ none ∨ Refused path := by
  constructor
  · intro h
    by_contra hno
    rw [not_or, not_not] at hno
    exact not_follows hno.1 hno.2 h
  · intro h p key
    refine ⟨fun is his => derivePath_of_denotes his, fun hnone => ?_⟩
    rcases h with hsome | hrefused
    · exact absurd hnone hsome
    · exact derivePath_of_refused hrefused

/-- The path `m/+1`. -/
theorem not_follows_plus : ¬ Follows [0x6d, 0x2f, 0x2b, 0x31] := by
  apply not_follows (by decide)
  rintro ⟨bit, e, hfirst, he⟩
  have hbit : firstPart [0x6d, 0x2f, 0x2b, 0x31] = some [0x2b, 0x31] := by decide
  rw [hbit] at hfirst
  obtain rfl := Option.some.inj hfirst
  have hone : partIndex [0x2b, 0x31] = .ok 1 := by decide
  rw [hone] at he
  cases he

end Wallet
end Proof
end PtpCore
