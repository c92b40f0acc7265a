import PtpCore.Lib.Cut
import PtpCore.Global.ReplaceMark

/-!
# A template and its values

Everything in front of `begin_pos` is finished, and what is behind it is the template as it was
(`replaceAt_append`). So one call after the other fills the marks of the template in their order
(`replaceMarks_eq_fill`), whatever the values hold, as long as `begin_pos` does not wrap.
-/

namespace PtpCore
namespace Proof
namespace Global

open Lib
open PtpCore.Global

namespace ReplaceMark

inductive Value
  | text (s : Bytes)
  | number (n : UInt32)
  deriving DecidableEq, Repr

/-- What stands in the place of a mark: a string in quotes, or the digits of a number. -/
def Value.print : Value → Bytes
  | .text s => [quote] ++ s ++ [quote]
  | .number n => int2string n

/-- A template with its marks replaced by these texts, in order. -/
def fill : Bytes → List Bytes → Bytes
  | template, [] => template
  | [], _ => []
  | c :: template, text :: texts =>
    if c = markChar then text ++ fill template texts else c :: fill template (text :: texts)

/-- One call, of the overload that the value chooses. -/
def call (s : Bytes × UInt32) : Value → Bytes × UInt32
  | .text newValue => replaceMarkString s.1 newValue s.2
  | .number newValue => replaceMarkInt s.1 newValue s.2

/-- The calls of `replace_mark` for one value after the other. -/
def replaceMarks (template : Bytes) (values : List Value) : Bytes × UInt32 :=
  values.foldl call (template, 0)

/-! ## The template -/

section

variable {template : Bytes} {texts : List Bytes}

/-- Up to a mark, nothing changes. -/
theorem fill_append_of_not_mem (rest : Bytes) (texts : List Bytes) (h : markChar ∉ template) :
    fill (template ++ rest) texts = template ++ fill rest texts := by
  cases texts with
  | nil => rw [fill, fill]
  | cons text texts =>
    induction template with
    | nil => rfl
    | cons c template ih =>
      rw [List.mem_cons, not_or] at h
      rw [List.cons_append, fill, if_neg (Ne.symm h.1), ih h.2, List.cons_append]

theorem fill_of_not_mem (h : markChar ∉ template) : fill template texts = template := by
  have hend : fill [] texts = [] := by
    cases texts with
    | nil => rfl
    | cons text texts => rfl
  have happend := fill_append_of_not_mem [] texts h
  rwa [hend, List.append_nil] at happend

theorem fill_cons (text : Bytes) (texts : List Bytes) :
    fill (markChar :: template) (text :: texts) = text ++ fill template texts :=
  if_pos rfl

end

/-! ## One call -/

section

variable {finished rest text : Bytes}

/-- The search leaves out what is finished. -/
theorem findFrom_append (finished rest : Bytes) (c : UInt8) :
    findFrom (finished ++ rest) c finished.length =
      if c ∈ rest then some (finished.length + (before c rest).length) else none := by
  rw [findFrom, List.drop_left, findIdx?_eq_before]
  split
  · rfl
  · rfl

/-- **One call.** -/
theorem replaceAt_append (hpos : finished.length < 2 ^ 32) :
    replaceAt (finished ++ rest) text (UInt32.ofNat finished.length) =
      if markChar ∈ rest then
        (finished ++ before markChar rest ++ text ++ (onward markChar rest).tail,
          UInt32.ofNat (finished ++ before markChar rest ++ text).length)
      else (finished ++ rest, UInt32.ofNat finished.length) := by
  have hto : (UInt32.ofNat finished.length).toNat = finished.length :=
    UInt32.toNat_ofNat_of_lt' hpos
  rw [replaceAt, hto, findFrom_append]
  by_cases hmark : markChar ∈ rest
  · rw [if_pos hmark, if_pos hmark]
    dsimp only
    have htake : (finished ++ rest).take (finished.length + (before markChar rest).length) =
        finished ++ before markChar rest := by
      rw [List.take_length_add_append, take_length_before]
    have hdrop : (finished ++ rest).drop (finished.length + (before markChar rest).length + 1) =
        (onward markChar rest).tail := by
      rw [← List.drop_drop, List.drop_length_add_append, drop_length_before, List.drop_one]
    rw [htake, hdrop, List.length_append, List.length_append]
  · rw [if_neg hmark, if_neg hmark]

theorem call_eq (s : Bytes × UInt32) (value : Value) :
    call s value = replaceAt s.1 value.print s.2 := by
  cases value with
  | text newValue => rfl
  | number newValue => rfl

end

/-! ## All calls -/

theorem foldl_call (finished rest : Bytes) (values : List Value)
    (h : (finished ++ fill rest (values.map Value.print)).length < 2 ^ 32) :
    (values.foldl call (finished ++ rest, UInt32.ofNat finished.length)).1 =
      finished ++ fill rest (values.map Value.print) := by
  induction values generalizing finished rest with
  | nil => rw [List.map_nil, fill, List.foldl_nil]
  | cons value values ih =>
    rw [List.map_cons] at h ⊢
    have hpos : finished.length < 2 ^ 32 := by
      rw [List.length_append] at h
      omega
    rw [List.foldl_cons, call_eq, replaceAt_append hpos]
    by_cases hmark : markChar ∈ rest
    · -- up to the mark, the text and what is behind it
      obtain ⟨tail, htail⟩ := exists_onward_eq_cons hmark
      have hrest : before markChar rest ++ markChar :: tail = rest := by
        rw [← htail, before_append_onward]
      have hfill : finished ++ fill rest (value.print :: values.map Value.print) =
          finished ++ before markChar rest ++ value.print ++
            fill tail (values.map Value.print) := by
        rw [← hrest, fill_append_of_not_mem _ _ (not_mem_before markChar rest), fill_cons, hrest]
        simp only [List.append_assoc]
      rw [hfill] at h ⊢
      rw [if_pos hmark, htail, List.tail_cons]
      exact ih _ tail h
    · -- nothing is left to fill in
      rw [fill_of_not_mem hmark] at h
      rw [if_neg hmark, fill_of_not_mem hmark]
      have hnone := ih finished rest
      rw [fill_of_not_mem hmark] at hnone
      exact hnone h

/-- **`replace_mark`.** The calls fill the template in, whatever the values hold. -/
theorem replaceMarks_eq_fill (template : Bytes) (values : List Value)
    (h : (fill template (values.map Value.print)).length < 2 ^ 32) :
    (replaceMarks template values).1 = fill template (values.map Value.print) :=
  foldl_call [] template values h

/-- `?,?` with `?` and 7. -/
theorem replaceMarks_quoted :
    (replaceMarks [markChar, 0x2c, markChar] [.text [markChar], .number 7]).1 =
      [quote, markChar, quote, 0x2c, 0x37] :=
  replaceMarks_eq_fill [markChar, 0x2c, markChar] [.text [markChar], .number 7] (by decide)

end ReplaceMark

end Global
end Proof
end PtpCore
