import PtpCore.Proof.Global.Uri

/-!
# When `Uri::Parse` is right

`Parse` is right about a uri that has a port, if the port is a number of 16 bits and the first `/`
is not in the query; it is also right to throw if the port is no such number, but it only does so if
`stoi` does. The port is never set if there is none. A protocol that has a `:` in it, or a zero
behind it, is taken for a host and a port.
-/

namespace PtpCore
namespace Proof
namespace Global

open Lib
open PtpCore.Global
open PtpCore.Global.Uri

namespace Uri

/-- Every field is set, to its piece. -/
structure Filled (p : Pieces) (u : PtpCore.Global.Uri) : Prop where
  protocol : u.protocol = p.protocol.getD []
  host : u.host = p.host
  port : ∃ n, u.port = some n ∧
    ∀ text, p.port = some text → IsDecimal text ∧ digitsValue text = n.toNat
  path : u.path = p.path
  query : u.queryString = p.query

/-- What `Parse` may come to. -/
def Meant (p : Pieces) : Except ParseError PtpCore.Global.Uri → Prop
  | .error .badRange => False
  | .error .badPort => ∃ text, p.port = some text ∧ ¬ IsPort text
  | .ok u => Filled p u

def ParsesAs (uri : Bytes) : Prop := ∃ p, SplitAs uri p ∧ Meant p (parse uri)

/-- A protocol that `Parse` does not find. -/
def Missed (p : Pieces) : Prop :=
  ∃ a, p.protocol = some a ∧ (colon ∈ a ∨ (p.behind ++ p.query).headD 0 = 0)

/-- What is found for the port is refused. -/
def Refused (port : Option Bytes) : Prop := ∃ text, port = some text ∧ stoi text = none

/-- Where the protocol is found, or there is none. -/
def FitBehind (p : Pieces) : Prop :=
  ∃ text, p.port = some text ∧
    (IsPort text ∧ (p.path = [] → slash ∉ p.query) ∨ ¬ IsPort text ∧ stoi text = none)

/-- What a uri has to be for `Parse`. -/
def Fit (p : Pieces) : Prop :=
  ¬ Missed p ∧ FitBehind p ∨
    Missed p ∧ (∃ text, p.port = some text ∧ ¬ IsPort text) ∧
      Refused (portOf (before slash p.front))

/-! ## Behind the protocol -/

section

variable {uri after protocol b text more : Bytes} {p : Pieces} {u : PtpCore.Global.Uri}

theorem readPort_none (h : portOf b = none) : readPort b = .ok none := by
  rw [readPort, h]
  rfl

theorem readPort_refused (h : portOf b = some text) (hstoi : stoi text = none) :
    readPort b = .error .badPort := by
  rw [readPort, h, Option.elim_some, hstoi]
  rfl

theorem readPort_some {value : Int} (h : portOf b = some text) (hstoi : stoi text = some value) :
    readPort b = .ok (some (UInt16.ofInt value)) := by
  rw [readPort, h, Option.elim_some, hstoi]
  rfl

theorem not_isPort_of_stoi (h : stoi text = none) : ¬ IsPort text := by
  intro hport
  rw [hport.stoi_eq] at h
  cases h

theorem toNat_ofInt16 {n : Nat} (h : n < 2 ^ 16) : (UInt16.ofInt n).toNat = n := by
  have hmod : ((n : Int) % 2 ^ 16).toNat = n := by omega
  rw [UInt16.ofInt, hmod]
  exact UInt16.toNat_ofNat_of_lt' h

/-- A number that is not reduced. -/
theorem isPort_iff_of_stoi {value : Int} (h : stoi text = some value) :
    IsDecimal text ∧ digitsValue text = (UInt16.ofInt value).toNat ↔ IsPort text := by
  constructor
  · rintro ⟨hdecimal, hvalue⟩
    refine ⟨hdecimal, ?_⟩
    rw [hvalue]
    exact UInt16.toNat_lt _
  · intro hport
    rw [hport.stoi_eq, Option.some.injEq] at h
    rw [← h, toNat_ofInt16 hport.2]
    exact ⟨hport.1, rfl⟩

theorem portOf_append_end (more : Bytes) (h : portOf b = some text) :
    portOf (b ++ questionMark :: more) = some (text ++ questionMark :: more) := by
  rw [portOf, Option.ite_none_right_eq_some, Option.some.injEq] at h
  obtain ⟨hcolon, htext⟩ := h
  obtain ⟨rest, hrest⟩ := exists_onward_eq_cons hcolon
  rw [hrest, List.tail_cons] at htext
  have honward := (cut_append_of_mem (r := questionMark :: more) hcolon).2
  rw [portOf, if_pos (List.mem_append_left _ hcolon), honward, hrest, htext]
  rfl

/-- The first `/` is not in the query. -/
theorem parseBehind_of_regular (protocol : Bytes)
    (h : slash ∈ after → slash ∈ before questionMark after) :
    parseBehind protocol after = do
      let port ← readPort (before slash (before questionMark after))
      return ⟨onward questionMark after, onward slash (before questionMark after), protocol,
        before colon (before slash (before questionMark after)), port⟩ := by
  have hwithin : within after = before slash (before questionMark after) := by
    rw [within]
    split
    · rename_i hslash
      have hcut := (cut_append_of_mem (r := onward questionMark after) (h hslash)).1
      rwa [before_append_onward] at hcut
    · rename_i hslash
      have hfront : slash ∉ before questionMark after := fun hmem =>
        hslash ((List.takeWhile_sublist _).subset hmem)
      rw [(cut_of_not_mem hfront).1]
  rw [parseBehind, hwithin]
  simp only [if_neg (fun hbad => hbad.2 (h hbad.1) :
    ¬ (slash ∈ after ∧ slash ∉ before questionMark after))]

/-- The first `/` is in the query: the port is read with what is in front of that `/`. -/
theorem parseBehind_of_not_regular (protocol : Bytes) (hslash : slash ∈ after)
    (hfront : slash ∉ before questionMark after) :
    ∃ more, parseBehind protocol after =
      readPort (before questionMark after ++ questionMark :: more) >>= fun _ =>
        .error .badRange := by
  have hsplit := before_append_onward questionMark after
  have hmem : slash ∈ onward questionMark after := by
    rw [← hsplit, List.mem_append] at hslash
    exact hslash.resolve_left hfront
  have hwithin : within after = before questionMark after ++
      before slash (onward questionMark after) := by
    rw [within, if_pos hslash, ← before_append_of_not_mem hfront, hsplit]
  rcases startsAt_onward questionMark after with hnil | hhead
  · rw [hnil] at hmem
    cases hmem
  · obtain ⟨rest, hrest⟩ := List.head?_eq_some_iff.mp hhead
    have hcons : before slash (questionMark :: rest) = questionMark :: before slash rest :=
      List.takeWhile_cons_of_pos (by decide)
    refine ⟨before slash rest, ?_⟩
    rw [parseBehind, hwithin, hrest, hcons]
    simp only [if_pos (⟨hslash, hfront⟩ : slash ∈ after ∧ slash ∉ before questionMark after)]
    rfl

/-- The pieces behind the protocol, as `Parse` should find them. -/
def piecesBehind (protocol : Option Bytes) (after : Bytes) : Pieces :=
  cutBehind protocol (before questionMark after) (onward questionMark after)

theorem meant_of_regular (protocol : Option Bytes)
    (h : slash ∈ after → slash ∈ before questionMark after) :
    Meant (piecesBehind protocol after) (parseBehind (protocol.getD []) after) ↔
      FitBehind (piecesBehind protocol after) := by
  have hpath : (piecesBehind protocol after).path = [] →
      slash ∉ (piecesBehind protocol after).query := by
    intro hnil hmem
    have hsplit := before_append_onward questionMark after
    obtain ⟨rest, hrest⟩ := exists_onward_eq_cons (h (hsplit ▸ List.mem_append_right _ hmem))
    cases hnil.symm.trans hrest
  have hpiece : (piecesBehind protocol after).port =
      portOf (before slash (before questionMark after)) := rfl
  rw [parseBehind_of_regular _ h]
  cases hport : portOf (before slash (before questionMark after)) with
  | none =>
    rw [hport] at hpiece
    rw [readPort_none hport]
    constructor
    · intro hmeant
      obtain ⟨n, hn, -⟩ := hmeant.port
      cases hn
    · rintro ⟨text, htext, -⟩
      cases hpiece.symm.trans htext
  | some text =>
    rw [hport] at hpiece
    cases hstoi : stoi text with
    | none =>
      rw [readPort_refused hport hstoi]
      exact ⟨fun _ => ⟨text, hpiece, Or.inr ⟨not_isPort_of_stoi hstoi, hstoi⟩⟩,
        fun _ => ⟨text, hpiece, not_isPort_of_stoi hstoi⟩⟩
    | some value =>
      rw [readPort_some hport hstoi]
      constructor
      · intro hmeant
        obtain ⟨n, hn, htext⟩ := hmeant.port
        cases hn
        exact ⟨text, hpiece, Or.inl ⟨(isPort_iff_of_stoi hstoi).mp (htext text hpiece), hpath⟩⟩
      · rintro ⟨text', htext', hfit⟩
        cases hpiece.symm.trans htext'
        rcases hfit with hfit | hfit
        · refine ⟨rfl, rfl, ⟨_, rfl, ?_⟩, rfl, rfl⟩
          intro text' htext'
          cases hpiece.symm.trans htext'
          exact (isPort_iff_of_stoi hstoi).mpr hfit.1
        · cases hstoi.symm.trans hfit.2

theorem meant_of_not_regular (protocol : Option Bytes) (hslash : slash ∈ after)
    (hfront : slash ∉ before questionMark after) :
    Meant (piecesBehind protocol after) (parseBehind (protocol.getD []) after) ↔
      FitBehind (piecesBehind protocol after) := by
  have hsplit := before_append_onward questionMark after
  have hmem : slash ∈ (piecesBehind protocol after).query := by
    rw [← hsplit, List.mem_append] at hslash
    exact hslash.resolve_left hfront
  obtain ⟨hhead, hpath⟩ := cut_of_not_mem hfront
  have hpiece : (piecesBehind protocol after).port = portOf (before questionMark after) :=
    congrArg portOf hhead
  obtain ⟨more, hparse⟩ := parseBehind_of_not_regular (protocol.getD []) hslash hfront
  rw [hparse]
  cases hport : portOf (before questionMark after) with
  | none =>
    rw [hport] at hpiece
    constructor
    · intro hmeant
      exfalso
      cases hread : readPort (before questionMark after ++ questionMark :: more) with
      | ok port =>
        rw [hread] at hmeant
        exact hmeant
      | error e =>
        rw [hread] at hmeant
        cases e with
        | badRange => exact hmeant
        | badPort =>
          obtain ⟨text, htext, -⟩ := hmeant
          cases hpiece.symm.trans htext
    · rintro ⟨text, htext, -⟩
      cases hpiece.symm.trans htext
  | some text =>
    rw [hport] at hpiece
    have hread := portOf_append_end more hport
    have hsame : stoi (text ++ questionMark :: more) = stoi text :=
      stoi_append ⟨by decide, by decide, by decide, by decide⟩ (by decide)
    cases hstoi : stoi text with
    | none =>
      rw [readPort_refused hread (hsame.trans hstoi)]
      exact ⟨fun _ => ⟨text, hpiece, Or.inr ⟨not_isPort_of_stoi hstoi, hstoi⟩⟩,
        fun _ => ⟨text, hpiece, not_isPort_of_stoi hstoi⟩⟩
    | some value =>
      rw [readPort_some hread (hsame.trans hstoi)]
      constructor
      · intro hmeant
        exact hmeant.elim
      · rintro ⟨text', htext', hfit⟩
        cases hpiece.symm.trans htext'
        rcases hfit with hfit | hfit
        · exact absurd hmem (hfit.2 hpath)
        · cases hstoi.symm.trans hfit.2

/-- Where the protocol is found, or there is none. -/
theorem meant_parseBehind_iff (protocol : Option Bytes) (after : Bytes) :
    Meant (piecesBehind protocol after) (parseBehind (protocol.getD []) after) ↔
      FitBehind (piecesBehind protocol after) := by
  by_cases h : slash ∈ after → slash ∈ before questionMark after
  · exact meant_of_regular protocol h
  · rw [Classical.not_imp] at h
    exact meant_of_not_regular protocol h.1 h.2

/-! ## The protocol -/

theorem bind_eq_ok_iff {α β : Type} {x : Except ParseError α} {f : α → Except ParseError β}
    {y : β} : (x >>= f) = .ok y ↔ ∃ a, x = .ok a ∧ f a = .ok y := by
  cases x with
  | ok a => simp [ok_bind]
  | error e => simp [error_bind]

/-- A protocol stays as it was found. -/
theorem protocol_of_parse {a : Bytes} {n : Nat} (hne : uri ≠ [])
    (hprotocol : parseProtocol uri = .ok (a, n)) (h : parse uri = .ok u) : u.protocol = a := by
  have hlen : ¬ uri.length = 0 := fun hnil => hne (List.length_eq_zero_iff.mp hnil)
  rw [parse, if_neg hlen, find_all, ok_bind, hprotocol, ok_bind] at h
  simp only [bind_eq_ok_iff] at h
  obtain ⟨_, -, _, -, _, -, _, -, _, -, _, -, h⟩ := h
  cases h
  rfl

/-- There is a `?` in what is found for the protocol. -/
theorem not_meant_of_mem {a r : Bytes} (hseen : Seen uri a r) (hquestion : questionMark ∈ a)
    (hsplit : SplitAs uri p) : p.port = none ∧ p.protocol = none ∧ ¬ Meant p (parse uri) := by
  have hfront : p.front = before questionMark a := by
    have hcut := cut_unique hsplit.query.1 hsplit.query.2
    rw [hsplit.join, hseen.uri_eq, List.append_assoc, (cut_append_of_mem hquestion).1] at hcut
    exact hcut.1.symm
  have hcolon : colon ∉ p.front := by
    intro hmem
    rw [hfront] at hmem
    exact hseen.noColon ((List.takeWhile_sublist _).subset hmem)
  have hprotocol : p.protocol = none := by
    cases hp : p.protocol with
    | none => rfl
    | some b =>
      refine absurd ?_ hcolon
      rw [Pieces.front, hp]
      simp [mark]
  have hport : p.port = none := by
    cases hp : p.port with
    | none => rfl
    | some text =>
      refine absurd ?_ hcolon
      rw [Pieces.front, Pieces.behind, Pieces.authority, hp]
      simp
  refine ⟨hport, hprotocol, ?_⟩
  have hne : uri ≠ [] := by
    rw [hseen.uri_eq]
    simp [mark]
  intro hmeant
  cases hparse : parse uri with
  | ok u =>
    rw [hparse] at hmeant
    have ha : a = [] := by
      rw [← protocol_of_parse hne (parseProtocol_of_seen hseen) hparse, hmeant.protocol, hprotocol]
      rfl
    rw [ha] at hquestion
    cases hquestion
  | error e =>
    rw [hparse] at hmeant
    cases e with
    | badRange => exact hmeant
    | badPort =>
      obtain ⟨text, htext, -⟩ := hmeant
      cases hport.symm.trans htext

theorem parse_of_not_seen (h : ∀ a r, ¬ Seen uri a r) : parse uri = parseBehind [] uri := by
  by_cases hnil : uri = []
  · rw [hnil]
    rfl
  · have hparse : parse ([] ++ uri) = parseBehind [] uri :=
      parse_append hnil (parseProtocol_of_not_seen h) List.not_mem_nil
    exact hparse

/-- A protocol that is found is one of the pieces. -/
theorem meant_of_seen {a r : Bytes} (hseen : Seen uri a r) (hquestion : questionMark ∉ a)
    (hsplit : SplitAs uri p) : ¬ Missed p ∧ (Meant p (parse uri) ↔ FitBehind p) := by
  have hmark : questionMark ∉ a ++ mark := by
    rw [List.mem_append, not_or]
    exact ⟨hquestion, by decide⟩
  have hpieces : SplitAs uri (piecesBehind (some a) r) := by
    have hcut := before_append_onward questionMark r
    refine splitAs_cutBehind ?_ ⟨?_, startsAt_onward questionMark r⟩ ?_ (fun h => (nomatch h))
    · rw [List.append_assoc, hcut]
      exact hseen.uri_eq.symm
    · rw [List.mem_append, not_or]
      exact ⟨hmark, not_mem_before questionMark r⟩
    · intro b hb hinside
      cases hb
      exact hseen.noColon (hinside.subset (by simp [mark]))
  have hp : p = piecesBehind (some a) r :=
    (splitAs_iff.mp hsplit).trans (splitAs_iff.mp hpieces).symm
  have hbehind : (piecesBehind (some a) r).behind ++ (piecesBehind (some a) r).query = r := by
    rw [piecesBehind, behind_cutBehind]
    exact before_append_onward questionMark r
  have hne : a ++ mark ++ r ≠ [] := by simp [mark]
  have hprotocol := parseProtocol_of_seen hseen
  have hparse : parse uri = parseBehind a r := by
    rw [hseen.uri_eq] at hprotocol ⊢
    exact parse_append hne hprotocol hmark
  rw [hp, hparse]
  refine ⟨?_, meant_parseBehind_iff (some a) r⟩
  rintro ⟨a', ha', hmissed⟩
  cases ha'
  rw [hbehind] at hmissed
  exact hmissed.elim hseen.noColon hseen.goesOn

/-- Without a protocol, the pieces are the uri behind nothing. -/
theorem meant_of_noProtocol (hseen : ∀ a r, ¬ Seen uri a r) (hsplit : SplitAs uri p)
    (hprotocol : p.protocol = none) : Meant p (parse uri) ↔ FitBehind p := by
  have hfront : p.front = p.behind := by
    rw [Pieces.front, hprotocol]
    rfl
  obtain ⟨hbefore, honward⟩ := cut_unique hsplit.query.1 hsplit.query.2
  rw [hsplit.join, hfront] at hbefore
  rw [hsplit.join] at honward
  have hp : p = piecesBehind none uri := by
    rw [piecesBehind, hbefore, honward, ← hprotocol, hsplit.cutBehind_eq]
  rw [parse_of_not_seen hseen, hp]
  exact meant_parseBehind_iff none uri

/-- A protocol that is not found is taken for a host and a port. -/
theorem meant_of_missed {a : Bytes} (hseen : ∀ a r, ¬ Seen uri a r) (hsplit : SplitAs uri p)
    (hprotocol : p.protocol = some a) :
    Meant p (parse uri) ↔ (∃ text, p.port = some text ∧ ¬ IsPort text) ∧
      Refused (portOf (before slash p.front)) := by
  have hfront : p.front = a ++ mark ++ p.behind := by
    rw [Pieces.front, hprotocol]
    rfl
  obtain ⟨hbefore, -⟩ := cut_unique hsplit.query.1 hsplit.query.2
  rw [hsplit.join] at hbefore
  have hregular : slash ∈ uri → slash ∈ before questionMark uri := by
    intro _
    rw [hbefore, hfront]
    simp [mark]
  rw [parse_of_not_seen hseen, parseBehind_of_regular [] hregular, hbefore]
  cases hport : portOf (before slash p.front) with
  | none =>
    rw [readPort_none hport]
    constructor
    · intro hmeant
      obtain ⟨n, hn, -⟩ := hmeant.port
      cases hn
    · rintro ⟨-, text, htext, -⟩
      cases htext
  | some text =>
    cases hstoi : stoi text with
    | none =>
      rw [readPort_refused hport hstoi]
      exact ⟨fun h => ⟨h, text, rfl, hstoi⟩, fun h => h.1⟩
    | some value =>
      rw [readPort_some hport hstoi]
      constructor
      · intro hmeant
        have hnil : [] = a := by
          have hfilled := hmeant.protocol
          rwa [hprotocol] at hfilled
        -- nothing in front of the mark: what is found for the port is empty
        have hempty : portOf (before slash p.front) = some [] := by
          rw [hfront, ← hnil]
          rfl
        cases hempty.symm.trans hport
        cases hstoi
      · rintro ⟨-, text', htext', hrefused⟩
        cases htext'
        cases hstoi.symm.trans hrefused

/-- **`Uri::Parse`** is right about the uris that are fit for it, and no others. -/
theorem parsesAs_iff_fit (uri : Bytes) : ParsesAs uri ↔ Fit (piecesOf uri) := by
  have hsplit := splitAs_piecesOf uri
  have hmeant : ParsesAs uri ↔ Meant (piecesOf uri) (parse uri) := by
    constructor
    · rintro ⟨p, hp, h⟩
      rwa [splitAs_iff.mp hp] at h
    · intro h
      exact ⟨piecesOf uri, hsplit, h⟩
  rw [hmeant, Fit]
  by_cases hseen : ∃ a r, Seen uri a r
  · obtain ⟨a, r, hseen⟩ := hseen
    by_cases hquestion : questionMark ∈ a
    · obtain ⟨hport, hprotocol, hnot⟩ := not_meant_of_mem hseen hquestion hsplit
      refine iff_of_false hnot ?_
      rintro (⟨-, text, htext, -⟩ | ⟨⟨a', ha', -⟩, -⟩)
      · cases hport.symm.trans htext
      · cases hprotocol.symm.trans ha'
    · obtain ⟨hfound, hiff⟩ := meant_of_seen hseen hquestion hsplit
      rw [hiff]
      simp [hfound]
  · have hnot : ∀ a r, ¬ Seen uri a r := fun a r h => hseen ⟨a, r, h⟩
    cases hprotocol : (piecesOf uri).protocol with
    | none =>
      have hfound : ¬ Missed (piecesOf uri) := by
        rintro ⟨a, ha, -⟩
        cases hprotocol.symm.trans ha
      rw [meant_of_noProtocol hnot hsplit hprotocol]
      simp [hfound]
    | some a =>
      have hmissed : Missed (piecesOf uri) := by
        refine ⟨a, hprotocol, ?_⟩
        by_contra hgood
        rw [not_or] at hgood
        refine hnot a _ ⟨?_, hgood.1, hgood.2⟩
        have hjoin := hsplit.join
        rw [Pieces.front, hprotocol, List.append_assoc] at hjoin
        exact hjoin.symm
      rw [meant_of_missed hnot hsplit hprotocol]
      simp [hmissed]

end

example : parse "http://www.google.com:443/www/sss/".toUTF8.toList =
    .ok ⟨[], "/www/sss/".toUTF8.toList, "http".toUTF8.toList, "www.google.com".toUTF8.toList,
      some 443⟩ := by
  decide +kernel

/-! ### Uris that are not fit -/

/-- `http://h` -/
def noPort : Bytes := [0x68, 0x74, 0x74, 0x70, colon, slash, slash, 0x68]

/-- `http://h:65537/` -/
def bigPort : Bytes := noPort ++ [colon, 0x36, 0x35, 0x35, 0x33, 0x37, slash]

/-- `http://h:80?u=/` -/
def slashInQuery : Bytes :=
  noPort ++ [colon, 0x38, 0x30, questionMark, 0x75, 0x3d, slash]

/-- `Parse` does not set the port, reduces it, and cuts the path out of a range that is none. -/
theorem not_parsesAs_bigPort :
    ¬ ParsesAs noPort ∧ ¬ ParsesAs bigPort ∧ ¬ ParsesAs slashInQuery := by
  have hcode : parse noPort = .ok ⟨[], [], noPort.take 4, [0x68], none⟩ ∧
      parse bigPort = .ok ⟨[], [slash], noPort.take 4, [0x68], some 1⟩ ∧
      parse slashInQuery = .error .badRange ∧
      (piecesOf bigPort).port = some [0x36, 0x35, 0x35, 0x33, 0x37] ∧
      digitsValue [0x36, 0x35, 0x35, 0x33, 0x37] = 65537 := by
    decide +kernel
  obtain ⟨hno, hbig, hslash, hport, hvalue⟩ := hcode
  refine ⟨?_, ?_, ?_⟩
  · rintro ⟨p, -, h⟩
    rw [hno] at h
    obtain ⟨n, hn, -⟩ := h.port
    cases hn
  · rintro ⟨p, hp, h⟩
    rw [hbig] at h
    rw [← splitAs_iff.mp hp] at hport
    obtain ⟨n, hn, htext⟩ := h.port
    cases hn
    have hone := (htext _ hport).2
    rw [hvalue] at hone
    cases hone
  · rintro ⟨p, -, h⟩
    rw [hslash] at h
    exact h

end Uri

end Global
end Proof
end PtpCore
