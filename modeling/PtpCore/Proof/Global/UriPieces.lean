import PtpCore.Lib.Cut
import PtpCore.Global.Uri
import Mathlib.Data.List.Infix

/-!
# The pieces of a uri

What `Uri::Parse` is for: the query is cut off at the first `?`, the protocol at the first `://` of
what is left, the path at the first `/` behind that, and the port at the first `:`. These pieces and
what separates them are the uri (`SplitAs`), and there is one way to split it (`splitAs_iff`).
-/

namespace PtpCore
namespace Proof
namespace Global

open Lib
open PtpCore.Global.Uri

namespace Uri

/-- `://` -/
def mark : Bytes := [colon, slash, slash]

structure Pieces where
  protocol : Option Bytes
  host : Bytes
  port : Option Bytes
  path : Bytes
  query : Bytes

namespace Pieces

def authority (p : Pieces) : Bytes := p.host ++ p.port.elim [] (colon :: ·)

/-- What is between the protocol and the query. -/
def behind (p : Pieces) : Bytes := p.authority ++ p.path

/-- What is in front of the query. -/
def front (p : Pieces) : Bytes := p.protocol.elim [] (· ++ mark) ++ p.behind

end Pieces

/-- The pieces, with what separates them, make up the uri, and each ends where the next one can
    begin. -/
structure SplitAs (uri : Bytes) (p : Pieces) : Prop where
  join : p.front ++ p.query = uri
  query : questionMark ∉ p.front ∧ StartsAt questionMark p.query
  protocol : ∀ b, p.protocol = some b → ¬ mark <:+: b
  noProtocol : p.protocol = none → ¬ mark <:+: p.front
  path : slash ∉ p.authority ∧ StartsAt slash p.path
  host : colon ∉ p.host

/-! ## The protocol -/

/-- What is in front of the first `://`, and what is behind it. -/
def splitMark : Bytes → Option (Bytes × Bytes)
  | [] => none
  | c :: b =>
    if mark <+: c :: b then some ([], b.drop 2)
    else (splitMark b).map fun s => (c :: s.1, s.2)

section

variable {a b r : Bytes} {c : UInt8}

theorem splitMark_eq_none_iff : splitMark b = none ↔ ¬ mark <:+: b := by
  induction b with
  | nil => simp [splitMark, mark]
  | cons c b ih =>
    rw [splitMark, List.infix_cons_iff, not_or, ← ih]
    split
    · rename_i hmark
      exact ⟨fun h => (nomatch h), fun h => absurd hmark h.1⟩
    · rename_i hmark
      rw [Option.map_eq_none_iff]
      exact ⟨fun h => ⟨hmark, h⟩, fun h => h.2⟩

/-- A mark that ends in the first mark is that mark. -/
theorem mark_isPrefix_append : mark <+: a ++ mark ++ r → a = [] ∨ mark <+: a := by
  intro h
  match a with
  | [] => exact Or.inl rfl
  | [x] => simp [mark, colon, slash] at h
  | [x, y] => simp [mark, colon, slash] at h
  | x :: y :: z :: a =>
    refine Or.inr ?_
    simpa [mark, List.cons_prefix_cons] using h

theorem splitMark_append (h : ¬ mark <:+: a) : splitMark (a ++ mark ++ r) = some (a, r) := by
  induction a with
  | nil => rfl
  | cons c a ih =>
    rw [List.infix_cons_iff, not_or] at h
    have hmark : ¬ mark <+: c :: (a ++ mark ++ r) := by
      intro hm
      rcases mark_isPrefix_append (a := c :: a) hm with hnil | hbegins
      · cases hnil
      · exact h.1 hbegins
    rw [List.cons_append, List.cons_append, splitMark, if_neg hmark, ih h.2]
    rfl

theorem of_splitMark (h : splitMark b = some (a, r)) : b = a ++ mark ++ r ∧ ¬ mark <:+: a := by
  induction b generalizing a with
  | nil => cases h
  | cons c b ih =>
    rw [splitMark] at h
    split at h
    · rename_i hmark
      obtain ⟨r', hr'⟩ := hmark
      cases h
      refine ⟨?_, by decide⟩
      rw [List.nil_append, ← hr']
      cases hr'
      rfl
    · rename_i hmark
      obtain ⟨s, hs, hsr⟩ := Option.map_eq_some_iff.mp h
      cases hsr
      obtain ⟨hb, ha⟩ := ih hs
      refine ⟨?_, ?_⟩
      · rw [List.cons_append, List.cons_append, ← hb]
      · rw [List.infix_cons_iff, not_or]
        refine ⟨?_, ha⟩
        intro hm
        refine hmark (hm.trans ?_)
        rw [hb, List.append_assoc]
        exact List.prefix_append _ _

end

/-! ## The other pieces -/

/-- What is behind the first `:`, if there is one. -/
def portOf (b : Bytes) : Option Bytes := if colon ∈ b then some (onward colon b).tail else none

/-- What is between the protocol and the query, in its pieces. -/
def cutBehind (protocol : Option Bytes) (behind query : Bytes) : Pieces where
  protocol := protocol
  host := before colon (before slash behind)
  port := portOf (before slash behind)
  path := onward slash behind
  query := query

def piecesOf (uri : Bytes) : Pieces :=
  match splitMark (before questionMark uri) with
  | some (protocol, behind) => cutBehind (some protocol) behind (onward questionMark uri)
  | none => cutBehind none (before questionMark uri) (onward questionMark uri)

section

variable {uri b behind query : Bytes} {protocol : Option Bytes} {p : Pieces}

theorem host_append_port (b : Bytes) :
    before colon b ++ (portOf b).elim [] (colon :: ·) = b := by
  rw [portOf]
  split
  · rename_i hmem
    obtain ⟨text, htext⟩ := exists_onward_eq_cons hmem
    simpa [htext] using before_append_onward colon b
  · rename_i hmem
    simp [cut_of_not_mem hmem]

theorem portOf_append {host : Bytes} (port : Option Bytes) (h : colon ∉ host) :
    portOf (host ++ port.elim [] (colon :: ·)) = port := by
  cases port with
  | none => simp [portOf, h]
  | some text =>
    have hcut := (cut_unique h (Or.inr rfl : StartsAt colon (colon :: text))).2
    simp [portOf, hcut]

@[simp] theorem authority_cutBehind : (cutBehind protocol behind query).authority =
    before slash behind :=
  host_append_port _

@[simp] theorem behind_cutBehind : (cutBehind protocol behind query).behind = behind := by
  rw [Pieces.behind, authority_cutBehind]
  exact before_append_onward slash behind

theorem splitAs_cutBehind
    (hjoin : protocol.elim [] (· ++ mark) ++ behind ++ query = uri)
    (hquery : questionMark ∉ protocol.elim [] (· ++ mark) ++ behind ∧ StartsAt questionMark query)
    (hprotocol : ∀ b, protocol = some b → ¬ mark <:+: b)
    (hnone : protocol = none → ¬ mark <:+: behind) :
    SplitAs uri (cutBehind protocol behind query) where
  join := by rw [Pieces.front, behind_cutBehind]; exact hjoin
  query := by rw [Pieces.front, behind_cutBehind]; exact hquery
  protocol := hprotocol
  noProtocol := by
    intro h
    have h' : protocol = none := h
    rw [Pieces.front, behind_cutBehind, h, Option.elim_none, List.nil_append]
    exact hnone h'
  path := by
    rw [authority_cutBehind]
    exact ⟨not_mem_before slash behind, startsAt_onward slash behind⟩
  host := not_mem_before colon _

theorem splitAs_piecesOf (uri : Bytes) : SplitAs uri (piecesOf uri) := by
  have hjoin := before_append_onward questionMark uri
  have hquery := not_mem_before questionMark uri
  have hstarts := startsAt_onward questionMark uri
  rw [piecesOf]
  split
  · rename_i protocol behind hsplit
    obtain ⟨hfront, hmark⟩ := of_splitMark hsplit
    rw [hfront] at hjoin hquery
    refine splitAs_cutBehind hjoin ⟨hquery, hstarts⟩ ?_ (fun h => (nomatch h))
    intro b hb
    cases hb
    exact hmark
  · rename_i hsplit
    exact splitAs_cutBehind hjoin ⟨hquery, hstarts⟩ (fun _ h => (nomatch h))
      (fun _ => splitMark_eq_none_iff.mp hsplit)

theorem SplitAs.cutBehind_eq (h : SplitAs uri p) :
    cutBehind p.protocol p.behind p.query = p := by
  obtain ⟨hauthority, hpath⟩ := cut_unique h.path.1 h.path.2
  obtain ⟨protocol, host, port, path, query⟩ := p
  have hhost : before colon (host ++ port.elim [] (colon :: ·)) = host := by
    cases port with
    | none => simpa using (cut_of_not_mem h.host).1
    | some text => exact (cut_unique h.host (Or.inr rfl)).1
  have hport := portOf_append port h.host
  simp only [Pieces.authority] at hauthority hpath
  simp only [cutBehind, Pieces.behind, Pieces.authority, hauthority, hpath, hhost, hport]

/-- There is one way to split a uri. -/
theorem splitAs_iff : SplitAs uri p ↔ p = piecesOf uri := by
  constructor
  · intro h
    obtain ⟨hfront, hquery⟩ := cut_unique h.query.1 h.query.2
    rw [h.join] at hfront hquery
    have hcut := h.cutBehind_eq
    rw [piecesOf, hfront, hquery]
    cases hprotocol : p.protocol with
    | none =>
      have hbehind : p.front = p.behind := by rw [Pieces.front, hprotocol]; rfl
      rw [hprotocol] at hcut
      rw [splitMark_eq_none_iff.mpr (h.noProtocol hprotocol), hbehind]
      exact hcut.symm
    | some a =>
      have hbehind : p.front = a ++ mark ++ p.behind := by rw [Pieces.front, hprotocol]; rfl
      rw [hprotocol] at hcut
      rw [hbehind, splitMark_append (h.protocol a hprotocol)]
      exact hcut.symm
  · rintro rfl
    exact splitAs_piecesOf uri

end

end Uri

end Global
end Proof
end PtpCore
