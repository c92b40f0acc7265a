import PtpCore.Proof.Global.UriPieces
import PtpCore.Proof.Global.Helpers

/-!
# What `Uri::Parse` comes to

Behind the protocol that it has found, `Parse` cuts the uri where it should, unless the query begins
in front of the first `/` (`parse_append`).
-/

namespace PtpCore
namespace Proof
namespace Global

open Lib
open PtpCore.Global
open PtpCore.Global.Uri

namespace Uri

/-! ## Numbers -/

/-- The number that digits are. -/
def digitsValue (text : Bytes) : Nat := text.foldl (fun n x => n * 10 + (x.toNat - 0x30)) 0

def IsDecimal (text : Bytes) : Prop := text ≠ [] ∧ ∀ x ∈ text, IsDigit x

def IsPort (text : Bytes) : Prop := IsDecimal text ∧ digitsValue text < 2 ^ 16

section

variable {text more : Bytes} {c : UInt8}

theorem atoiDigits_eq_foldl (h : ∀ x ∈ text, IsDigit x) (acc : Nat) :
    atoiDigits acc text = text.foldl (fun n x => n * 10 + (x.toNat - 0x30)) acc := by
  induction text generalizing acc with
  | nil => rfl
  | cons x text ih =>
    have hx : 0x30 ≤ x ∧ x ≤ 0x39 := h x (by simp)
    rw [atoiDigits, if_pos hx, List.foldl_cons]
    exact ih (fun y hy => h y (by simp [hy])) _

theorem IsPort.stoi_eq (h : IsPort text) : stoi text = some (digitsValue text : Int) := by
  obtain ⟨⟨hne, hdigits⟩, hlt⟩ := h
  have hvalue : atoiDigits 0 text = digitsValue text := atoiDigits_eq_foldl hdigits 0
  have hself : cString text = text := cString_eq_self fun x hx => (hdigits x hx).ne.1
  have hatoi : atoi text = digitsValue text := by
    rw [atoi_of_digits hne hdigits (by omega), hvalue]
  have hbegins : beginsNumber text = true := by
    obtain ⟨x, xs, rfl⟩ := List.exists_cons_of_ne_nil hne
    have hx : IsDigit x := hdigits x (by simp)
    have hchar : isDigitChar x = true := by
      simp only [isDigitChar, Bool.and_eq_true, decide_eq_true_eq]
      exact hx
    obtain ⟨-, hminus, hplus, hspace⟩ := hx.ne
    rw [beginsNumber, List.dropWhile_cons_of_neg (by simp [hspace]), unsigned]
    simp [hminus, hplus, hchar]
  rw [stoi, hself, hatoi]
  exact if_pos ⟨hbegins, by omega, by omega⟩

/-- What a number cannot be continued with. -/
def EndsNumber (c : UInt8) : Prop :=
  Toolbox.isSpace c = false ∧ c ≠ 0x2d ∧ c ≠ 0x2b ∧ isDigitChar c = false

theorem atoiDigits_append (hc : EndsNumber c) (text more : Bytes) (acc : Nat) :
    atoiDigits acc (text ++ c :: more) = atoiDigits acc text := by
  induction text generalizing acc with
  | nil =>
    have hdigit : ¬ (0x30 ≤ c ∧ c ≤ 0x39) := by simpa [isDigitChar] using hc.2.2.2
    exact if_neg hdigit
  | cons x text ih =>
    rw [List.cons_append, atoiDigits, atoiDigits, ih]

theorem dropWhile_isSpace_append (hc : EndsNumber c) (text more : Bytes) :
    (text ++ c :: more).dropWhile Toolbox.isSpace =
      text.dropWhile Toolbox.isSpace ++ c :: more := by
  rw [List.dropWhile_append]
  split
  · rename_i hnil
    rw [List.isEmpty_iff.mp hnil, List.dropWhile_cons_of_neg (by simp [hc.1])]
    rfl
  · rfl

theorem beginsNumber_append (hc : EndsNumber c) :
    beginsNumber (text ++ c :: more) = beginsNumber text := by
  rw [beginsNumber, beginsNumber, dropWhile_isSpace_append hc]
  cases text.dropWhile Toolbox.isSpace with
  | nil => simp [unsigned, hc.2.1, hc.2.2.1, hc.2.2.2]
  | cons x b =>
    rw [List.cons_append, unsigned, unsigned]
    split
    · cases b with
      | nil => simp [hc.2.2.2]
      | cons y b => rfl
    · rfl

theorem atoi_append (hc : EndsNumber c) : atoi (text ++ c :: more) = atoi text := by
  have hdrop := dropWhile_isSpace_append hc text more
  cases htext : text.dropWhile Toolbox.isSpace with
  | nil =>
    rw [htext, List.nil_append] at hdrop
    have hnone := atoiDigits_append hc [] more 0
    rw [atoi_eq hdrop hc.2.1 hc.2.2.1, atoi, htext, ← List.nil_append (c :: more), hnone]
  | cons x b =>
    rw [htext, List.cons_append] at hdrop
    by_cases hminus : x = 0x2d
    · rw [atoi, atoi, hdrop, htext, hminus]
      simp only [atoiDigits_append hc]
    · by_cases hplus : x = 0x2b
      · rw [atoi, atoi, hdrop, htext, hplus]
        simp only [atoiDigits_append hc]
      · rw [atoi_eq hdrop hminus hplus, atoi_eq htext hminus hplus, ← List.cons_append,
          atoiDigits_append hc]

/-- A number is read up to what ends it. -/
theorem stoi_append (hc : EndsNumber c) (hzero : c ≠ 0) : stoi (text ++ c :: more) = stoi text := by
  have hcases : cString (text ++ c :: more) = cString text ∨
      ∃ more', cString (text ++ c :: more) = cString text ++ c :: more' := by
    by_cases hmem : 0 ∈ text
    · exact Or.inl (cut_append_of_mem hmem).1
    · refine Or.inr ⟨cString more, ?_⟩
      have happend : cString (text ++ c :: more) = text ++ cString (c :: more) :=
        before_append_of_not_mem hmem
      have hself : cString text = text := (cut_of_not_mem hmem).1
      rw [happend, hself, cString, List.takeWhile_cons_of_pos (by simpa using hzero)]
      rfl
  rcases hcases with heq | ⟨more', heq⟩
  · rw [stoi, stoi, heq]
  · rw [stoi, stoi, heq, atoi_append hc, beginsNumber_append hc]

end

/-! ## The protocol -/

theorem ok_bind {α β : Type} (a : α) (f : α → Except ParseError β) : (.ok a >>= f) = f a := rfl

theorem error_bind {α β : Type} (e : ParseError) (f : α → Except ParseError β) :
    (.error e >>= f) = .error e := rfl

/-- A protocol that `Parse` finds. What it looks at is a C string, which has to go on. -/
structure Seen (uri a r : Bytes) : Prop where
  uri_eq : uri = a ++ mark ++ r
  noColon : colon ∉ a
  goesOn : r.headD 0 ≠ 0

section

variable {uri a r : Bytes}

theorem find_all (uri : Bytes) (c : UInt8) :
    find uri 0 uri.length c = .ok (before c uri).length := by
  simp [find, before]

theorem Seen.onward_eq (h : Seen uri a r) :
    before colon uri = a ∧ onward colon uri = mark ++ r := by
  rw [h.uri_eq, List.append_assoc]
  exact cut_unique h.noColon (Or.inr rfl)

theorem cString_mark (h : r.headD 0 ≠ 0) :
    (cString (mark ++ r)).length > 3 ∧ (cString (mark ++ r)).take 3 = mark := by
  cases r with
  | nil => exact absurd rfl h
  | cons x r =>
    have hx : x ≠ 0 := h
    simp [cString, mark, colon, slash, hx]

theorem parseProtocol_of_seen (h : Seen uri a r) :
    parseProtocol uri = .ok (a, (a ++ mark).length) := by
  obtain ⟨hbefore, honward⟩ := h.onward_eq
  have hdrop := drop_length_before colon uri
  have hlen : (before colon uri).length ≠ uri.length := by
    rw [Ne, length_before_eq_iff, not_not, h.uri_eq]
    simp [mark]
  have htake := take_length_before colon uri
  rw [parseProtocol, find_all, ok_bind]
  dsimp only
  rw [hdrop, honward, if_pos ⟨hlen, cString_mark h.goesOn⟩, substring, if_pos (Nat.zero_le _),
    htake, hbefore, ok_bind, List.length_append]
  rfl

theorem parseProtocol_of_not_seen (h : ∀ a r, ¬ Seen uri a r) :
    parseProtocol uri = .ok ([], 0) := by
  have hdrop := drop_length_before colon uri
  rw [parseProtocol, find_all, ok_bind]
  dsimp only
  rw [hdrop, if_neg]
  · rfl
  · rintro ⟨-, hlen, htake⟩
    obtain ⟨rest, hrest⟩ : cString (onward colon uri) <+: onward colon uri :=
      List.takeWhile_prefix _
    have hprot := List.take_append_drop 3 (cString (onward colon uri))
    rw [htake] at hprot
    cases hmore : (cString (onward colon uri)).drop 3 with
    | nil =>
      have hle := List.drop_eq_nil_iff.mp hmore
      omega
    | cons x more =>
      rw [hmore] at hprot
      have hx : x ≠ 0 := by
        apply ne_zero_of_mem_cString (b := onward colon uri)
        rw [← hprot]
        simp
      refine h (before colon uri) (x :: more ++ rest) ⟨?_, not_mem_before colon uri, hx⟩
      have hmark : mark ++ (x :: more ++ rest) = onward colon uri := by
        rw [← List.append_assoc]
        exact hprot.symm ▸ hrest
      rw [List.append_assoc, hmark, before_append_onward]

end

/-! ## Behind the protocol -/

/-- Where `Parse` looks for the host and the port. -/
def within (after : Bytes) : Bytes :=
  if slash ∈ after then before slash after else before questionMark after

def readPort (b : Bytes) : Except ParseError (Option UInt16) :=
  (portOf b).elim (.ok none) fun text =>
    (stoi text).elim (.error .badPort) fun value => .ok (some (UInt16.ofInt value))

/-- What becomes of the uri behind its protocol. -/
def parseBehind (protocol after : Bytes) : Except ParseError PtpCore.Global.Uri := do
  let port ← readPort (within after)
  if slash ∈ after ∧ slash ∉ before questionMark after then throw .badRange
  else
    return ⟨onward questionMark after, onward slash (before questionMark after), protocol,
      before colon (within after), port⟩

section

variable {uri pre b more after protocol : Bytes} {c : UInt8}

theorem find_mid (pre b more : Bytes) (c : UInt8) :
    find (pre ++ (b ++ more)) pre.length (pre.length + b.length) c =
      .ok (pre.length + (before c b).length) := by
  have hmid : ((pre ++ (b ++ more)).take (pre.length + b.length)).drop pre.length = b := by
    simp [List.take_length_add_append]
  rw [find, if_pos (Nat.le_add_right _ _), hmid]
  rfl

theorem substring_mid (pre more : Bytes) {i j : Nat} (hij : i ≤ j) (h : j ≤ b.length) :
    substring (pre ++ (b ++ more)) (pre.length + i) (pre.length + j) =
      .ok ((b.take j).drop i) := by
  rw [substring, if_pos (by omega), List.take_length_add_append, List.drop_length_add_append,
    List.take_append_of_le_length h]

/-- Behind what it looks at, there is no `:`. -/
theorem exists_within_append (after : Bytes) :
    ∃ more, after = within after ++ more ∧ more.head? ≠ some colon := by
  have hhead : ∀ c : UInt8, c ≠ colon → (onward c after).head? ≠ some colon := by
    intro c hc hcolon
    rcases startsAt_onward c after with hnil | hstart
    · rw [hnil] at hcolon
      cases hcolon
    · rw [hstart, Option.some.injEq] at hcolon
      exact hc hcolon
  by_cases hslash : slash ∈ after
  · refine ⟨onward slash after, ?_, hhead slash (by decide)⟩
    rw [within, if_pos hslash, before_append_onward]
  · refine ⟨onward questionMark after, ?_, hhead questionMark (by decide)⟩
    rw [within, if_neg hslash, before_append_onward]

theorem parsePort_mid (pre b : Bytes) (hmore : more.head? ≠ some colon) :
    parsePort (pre ++ (b ++ more)) (pre.length + (before colon b).length)
      (pre.length + b.length) = readPort b := by
  have hget : (pre ++ (b ++ more))[pre.length + (before colon b).length]? =
      (onward colon b ++ more).head? := by
    rw [List.getElem?_append_right (Nat.le_add_right _ _), Nat.add_sub_cancel_left,
      List.head?_eq_getElem?]
    have hb : b ++ more = before colon b ++ (onward colon b ++ more) := by
      rw [← List.append_assoc, before_append_onward]
    rw [hb, List.getElem?_append_right (Nat.le_refl _), Nat.sub_self]
  rw [parsePort, readPort, portOf, hget]
  by_cases hcolon : colon ∈ b
  · obtain ⟨text, htext⟩ := exists_onward_eq_cons hcolon
    have hlen : (before colon b).length + (text.length + 1) = b.length := by
      have happend := congrArg List.length (before_append_onward colon b)
      rwa [htext, List.length_append, List.length_cons] at happend
    have hdrop : b.drop ((before colon b).length + 1) = text := by
      rw [← List.drop_drop, drop_length_before, htext]
      rfl
    have hne : pre.length + (before colon b).length ≠ (pre ++ (b ++ more)).length := by
      simp only [List.length_append]
      omega
    have htail : (onward colon b).tail = text := by rw [htext]; rfl
    have hhead : (onward colon b ++ more).head? = some colon := by rw [htext]; rfl
    rw [if_pos ⟨hne, hhead⟩, if_pos hcolon, htail, Nat.add_assoc,
      substring_mid pre more (by omega) (Nat.le_refl _), List.take_length, hdrop]
    rw [Option.elim_some, ok_bind]
    cases stoi text with
    | none => rfl
    | some value => rfl
  · have hhead : ¬ (onward colon b ++ more).head? = some colon := by
      rwa [(cut_of_not_mem hcolon).2, List.nil_append]
    rw [if_neg (fun h => hhead h.2), if_neg hcolon]
    rfl

/-- The first `/` is in front of the first `?`. -/
theorem length_before_le_iff (h : slash ∈ after) :
    (before slash after).length ≤ (before questionMark after).length ↔
      slash ∈ before questionMark after := by
  have hsplit := before_append_onward questionMark after
  constructor
  · intro hle
    by_contra hslash
    have hbefore : before slash after = before questionMark after ++
        before slash (onward questionMark after) := by
      rw [← before_append_of_not_mem hslash, hsplit]
    rw [← hsplit, List.mem_append] at h
    rcases startsAt_onward questionMark after with hnil | hhead
    · rw [hnil] at h
      exact h.elim hslash (fun h => (nomatch h))
    · obtain ⟨rest, hrest⟩ := List.head?_eq_some_iff.mp hhead
      have hcons : before slash (questionMark :: rest) = questionMark :: before slash rest :=
        List.takeWhile_cons_of_pos (by decide)
      rw [hbefore, hrest, hcons, List.length_append, List.length_cons] at hle
      omega
  · intro hslash
    have hbefore := (cut_append_of_mem (r := onward questionMark after) hslash).1
    rw [hsplit] at hbefore
    rw [hbefore]
    exact length_before_le slash _

theorem path_eq (pre after : Bytes) :
    tailPiece (pre ++ after) (pre.length + (before slash after).length)
        (pre.length + (before questionMark after).length) =
      if slash ∈ after ∧ slash ∉ before questionMark after then .error .badRange
      else .ok (onward slash (before questionMark after)) := by
  rw [tailPiece]
  have hlen : pre.length + (before slash after).length ≠ (pre ++ after).length ↔ slash ∈ after := by
    rw [List.length_append, Ne, Nat.add_left_cancel_iff, length_before_eq_iff, not_not]
  by_cases hslash : slash ∈ after
  · rw [if_pos (hlen.mpr hslash)]
    by_cases hfront : slash ∈ before questionMark after
    · have hle := (length_before_le_iff hslash).mpr hfront
      have hsplit := before_append_onward questionMark after
      have hbefore := (cut_append_of_mem (r := onward questionMark after) hfront).1
      have hmid := substring_mid pre (onward questionMark after) hle (Nat.le_refl _)
      rw [hsplit] at hbefore hmid
      rw [if_neg (fun h => h.2 hfront), hmid, List.take_length, hbefore, drop_length_before]
    · have hlt : ¬ pre.length + (before slash after).length ≤
          pre.length + (before questionMark after).length := by
        rw [Nat.add_le_add_iff_left, length_before_le_iff hslash]
        exact hfront
      rw [substring, if_neg hlt, if_pos ⟨hslash, hfront⟩]
  · have hfront : slash ∉ before questionMark after := fun h =>
      hslash ((List.takeWhile_sublist _).subset h)
    rw [if_neg (fun h => hslash (hlen.mp h)), if_neg (fun h => hslash h.1),
      (cut_of_not_mem hfront).2]

theorem query_eq (pre after : Bytes) :
    tailPiece (pre ++ after) (pre.length + (before questionMark after).length)
      (pre ++ after).length = .ok (onward questionMark after) := by
  rw [tailPiece]
  split
  · have hle := length_before_le questionMark after
    rw [substring, if_pos (by simpa using hle), List.take_length, List.drop_length_add_append,
      drop_length_before]
  · rename_i hlen
    rw [not_not, List.length_append, Nat.add_left_cancel_iff, length_before_eq_iff] at hlen
    rw [(cut_of_not_mem hlen).2]

theorem parse_append (hne : pre ++ after ≠ [])
    (hprotocol : parseProtocol (pre ++ after) = .ok (protocol, pre.length))
    (hquestion : questionMark ∉ pre) : parse (pre ++ after) = parseBehind protocol after := by
  obtain ⟨more, hafter, hmore⟩ := exists_within_append after
  have hquery : find (pre ++ after) 0 (pre ++ after).length questionMark =
      .ok (pre.length + (before questionMark after).length) := by
    rw [find_all, before_append_of_not_mem hquestion, List.length_append]
  have hpath : find (pre ++ after) pre.length (pre ++ after).length slash =
      .ok (pre.length + (before slash after).length) := by
    have hmid := find_mid pre after [] slash
    rwa [List.append_nil, ← List.length_append] at hmid
  have hend : (if pre.length + (before slash after).length ≠ (pre ++ after).length then
      pre.length + (before slash after).length
      else pre.length + (before questionMark after).length) =
      pre.length + (within after).length := by
    rw [List.length_append, within]
    by_cases hslash : slash ∈ after
    · rw [if_pos hslash, if_pos]
      rw [Ne, Nat.add_left_cancel_iff, length_before_eq_iff, not_not]
      exact hslash
    · rw [if_neg hslash, if_neg]
      rw [not_not, Nat.add_left_cancel_iff, length_before_eq_iff]
      exact hslash
  have hhostEnd := find_mid pre (within after) more colon
  have hhost := substring_mid pre more (Nat.zero_le _) (length_before_le colon (within after))
  have hport := parsePort_mid pre (within after) hmore
  rw [← hafter] at hhostEnd hhost hport
  rw [Nat.add_zero, take_length_before, List.drop_zero] at hhost
  have hlen : ¬ (pre ++ after).length = 0 := fun h => hne (List.length_eq_zero_iff.mp h)
  rw [parse, if_neg hlen, hquery, ok_bind, hprotocol, ok_bind]
  dsimp only
  rw [hpath, ok_bind, hend, hhostEnd, ok_bind, hhost, ok_bind, hport, parseBehind, path_eq,
    query_eq]
  cases readPort (within after) with
  | error e => rfl
  | ok port =>
    rw [ok_bind, ok_bind]
    split
    · rfl
    · rfl

end

end Uri

end Global
end Proof
end PtpCore
