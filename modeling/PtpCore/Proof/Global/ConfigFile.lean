import PtpCore.Global.ConfigFile
import Mathlib.Data.List.DropRight

/-!
# Loading a configuration

A line of the file is read as it should be when it is read as a whole: then `entryOf` says what
becomes of it, and the first entry for a key is kept. Two things come between. A line of more than
255 bytes is read in pieces, each as if it were a line; and a zero ends a line, or takes the code
out of its buffer when it stands at the beginning.
-/

namespace PtpCore
namespace Proof
namespace Global

open Lib
open PtpCore.Global.ConfigFile

namespace ConfigFile

/-! ## What a file should be read as -/

def trim (b : Bytes) : Bytes := (b.dropWhile isBlank).rdropWhile isBlank

/-- A text that has no comment. -/
def entryOfText (text : Bytes) : Option (Bytes × Bytes) :=
  let key := trim (text.takeWhile (· != equalsSign))
  let value := trim ((text.dropWhile (· != equalsSign)).drop 1)
  if equalsSign ∈ text ∧ key ≠ [] ∧ value ≠ [] then some (key, value) else none

def entryOf (line : Bytes) : Option (Bytes × Bytes) :=
  entryOfText (line.takeWhile (· != numberSign))

def linesOf (file : Bytes) : List Bytes := file.splitOn newline

def entriesOf (file : Bytes) : List (Bytes × Bytes) := (linesOf file).filterMap entryOf

/-- The file is read inside the buffer, and the first entry for each key is what is found. -/
def LoadsAs (file : Bytes) : Prop :=
  ∃ m, loadFile file = some m ∧ ∀ key, m.find key = Assoc.find (entriesOf file) key

/-! ## `_TrimSpace` -/

section

variable {name pre mid post : Bytes} {c : UInt8}

/-- The loop stops at the last byte that is not blank. -/
theorem trimEnd_eq (hc : isBlank c = false) (hpost : ∀ x ∈ post, isBlank x = true) :
    trimEnd (pre ++ c :: post) (pre.length + 1 + post.length) = some (pre.length + 1) := by
  have hstop : ∀ n, n ≤ post.length →
      trimEnd (pre ++ c :: post) (pre.length + 1 + n) = some (pre.length + 1) := by
    intro n
    induction n with
    | zero =>
      intro _
      have hget : (pre ++ c :: post).getD pre.length 0 = c := by simp
      rw [Nat.add_zero, trimEnd, hget, hc]
      rfl
    | succ n ih =>
      intro hn
      have hget : (pre ++ c :: post).getD (pre.length + 1 + n) 0 = post[n] := by
        have hidx : pre.length + 1 + n - pre.length = n + 1 := by omega
        rw [List.getD_eq_getElem?_getD, List.getElem?_append_right (by omega), hidx,
          List.getElem?_cons_succ, List.getElem?_eq_getElem hn, Option.getD_some]
      have hblank : isBlank post[n] = true := hpost _ (List.getElem_mem _)
      rw [← Nat.add_assoc, trimEnd, hget, hblank]
      exact ih (Nat.le_of_succ_le hn)
  exact hstop post.length (Nat.le_refl _)

/-- A text that is not blank, cut where it is trimmed. -/
theorem exists_trim (h : name.dropWhile isBlank ≠ []) :
    ∃ mid c post, name = name.takeWhile isBlank ++ (mid ++ c :: post) ∧ isBlank c = false ∧
      (∀ x ∈ post, isBlank x = true) ∧ trim name = mid ++ [c] := by
  have hhead := List.head_dropWhile_not isBlank h
  have hne : trim name ≠ [] := by
    intro hnil
    rw [trim, List.rdropWhile_eq_nil_iff] at hnil
    rw [hnil _ (List.head_mem h)] at hhead
    cases hhead
  have hlast := List.rdropWhile_last_not isBlank (name.dropWhile isBlank) hne
  have hsplit : trim name ++ (name.dropWhile isBlank).rtakeWhile isBlank = name.dropWhile isBlank :=
    List.rdropWhile_append_rtakeWhile
  refine ⟨(trim name).dropLast, (trim name).getLast hne,
    (name.dropWhile isBlank).rtakeWhile isBlank, ?_, ?_, ?_, ?_⟩
  · rw [List.append_cons, List.dropLast_append_getLast hne, hsplit,
      List.takeWhile_append_dropWhile]
  · exact Bool.eq_false_of_not_eq_true hlast
  · intro x hx
    exact List.mem_rtakeWhile_imp hx
  · exact (List.dropLast_append_getLast hne).symm

/-- **`_TrimSpace`** stays inside its text. -/
theorem trimSpace_eq (name : Bytes) :
    trimSpace name = some (if trim name = [] then none else some (trim name)) := by
  have hdrop : name.drop (name.takeWhile isBlank).length = name.dropWhile isBlank := by
    have hleft : (name.takeWhile isBlank ++ name.dropWhile isBlank).drop
        (name.takeWhile isBlank).length = name.dropWhile isBlank := List.drop_left
    rwa [List.takeWhile_append_dropWhile] at hleft
  rw [trimSpace, hdrop]
  by_cases hblank : name.dropWhile isBlank = []
  · have htrim : trim name = [] := by rw [trim, hblank, List.rdropWhile_nil]
    rw [if_pos hblank, if_pos htrim]
  · obtain ⟨mid, c, post, hname, hc, hpost, htrim⟩ := exists_trim hblank
    rw [if_neg hblank, htrim, if_neg (by simp)]
    generalize name.takeWhile isBlank = blanks at hname
    have hend : trimEnd name name.length = some (blanks.length + mid.length + 1) := by
      have hstop : trimEnd (blanks ++ mid ++ c :: post)
          ((blanks ++ mid).length + 1 + post.length) = some ((blanks ++ mid).length + 1) :=
        trimEnd_eq hc hpost
      rw [List.append_assoc, ← hname, List.length_append] at hstop
      rw [← hstop, hname]
      congr 1
      simp only [List.length_append, List.length_cons]
      omega
    have htake : (name.take (blanks.length + mid.length + 1)).drop blanks.length = mid ++ [c] := by
      have hsplit : name = (blanks ++ (mid ++ [c])) ++ post := by
        rw [hname, List.append_assoc, List.append_assoc]
        rfl
      have hlen : blanks.length + mid.length + 1 = (blanks ++ (mid ++ [c])).length := by
        simp only [List.length_append, List.length_singleton]
        omega
      rw [hlen, hsplit, List.take_left, List.drop_left]
    have hpos : ¬ ((blanks.length + mid.length + 1 : Nat) : Int) - blanks.length ≤ 0 := by omega
    rw [hend]
    dsimp only
    rw [if_neg hpos, htake]

/-! ## `_ParseLine` and the buffer -/

/-- The map after an entry, if there is one. -/
def insertEntry (m : ConfigMap) (entry : Option (Bytes × Bytes)) : ConfigMap :=
  match entry with
  | some (key, value) => m.insert key value
  | none => m

theorem parseLine_eq (m : ConfigMap) (line : Bytes) :
    parseLine m line = some (insertEntry m (entryOfText line)) := by
  rw [parseLine, entryOfText, trimSpace_eq, trimSpace_eq]
  generalize trim (line.takeWhile (· != equalsSign)) = key
  generalize trim ((line.dropWhile (· != equalsSign)).drop 1) = value
  by_cases hequals : equalsSign ∈ line
  · rw [if_pos hequals]
    by_cases hkey : key = []
    · by_cases hvalue : value = []
      · simp [hkey, hvalue, insertEntry]
      · simp [hkey, hvalue, insertEntry]
    · by_cases hvalue : value = []
      · simp [hkey, hvalue, insertEntry]
      · simp [hequals, hkey, hvalue, insertEntry]
  · rw [if_neg hequals, if_neg fun h => hequals h.1]
    rfl

/-- **The body of the loop.** -/
theorem readBuf_eq (m : ConfigMap) (buf : Bytes) :
    readBuf m buf =
      if cString buf = [] then none else some (insertEntry m (entryOfText (textOf buf))) := by
  rw [readBuf, parseLine_eq]
  by_cases hzero : cString buf = []
  · rw [if_pos hzero, if_pos hzero]
  · rw [if_neg hzero, if_neg hzero]
    by_cases htext : textOf buf = []
    · rw [if_pos htext, htext]
      rfl
    · rw [if_neg htext]

/-- The entries of the pieces, if all are inside the buffer. -/
def pieceEntries (ps : List Bytes) : List (Bytes × Bytes) :=
  ps.filterMap fun buf => entryOfText (textOf buf)

theorem pieceEntries_cons (buf : Bytes) (ps : List Bytes) :
    pieceEntries (buf :: ps) = (entryOfText (textOf buf)).toList ++ pieceEntries ps := by
  rw [pieceEntries, List.filterMap_cons]
  cases entryOfText (textOf buf) with
  | none => rfl
  | some e => rfl

theorem find_insertEntry (m : ConfigMap) (entry : Option (Bytes × Bytes)) (key : Bytes) :
    (insertEntry m entry).find key = (m.find key).or (Assoc.find entry.toList key) := by
  cases entry with
  | none => exact (Option.or_none).symm
  | some e =>
    obtain ⟨k, v⟩ := e
    change (m.insert k v).find key = (m.find key).or (if k = key then some v else none)
    by_cases hk : k = key
    · subst hk
      rw [if_pos rfl]
      cases hfind : m.find k with
      | none => exact Assoc.find_insert_self m v hfind
      | some w =>
        rw [Assoc.insert, hfind]
        exact hfind
    · rw [if_neg hk, Assoc.find_insert_of_ne m v (Ne.symm hk), Option.or_none]

/-- A piece that is read inside the buffer. -/
def insertPiece (m : ConfigMap) (buf : Bytes) : ConfigMap :=
  insertEntry m (entryOfText (textOf buf))

theorem foldlM_readBuf_eq_some_iff {ps : List Bytes} {m m' : ConfigMap} :
    ps.foldlM readBuf m = some m' ↔
      (∀ buf ∈ ps, cString buf ≠ []) ∧ m' = ps.foldl insertPiece m := by
  induction ps generalizing m with
  | nil =>
    constructor
    · intro h
      cases h
      exact ⟨fun _ h => (nomatch h), rfl⟩
    · rintro ⟨-, rfl⟩
      rfl
  | cons buf ps ih =>
    rw [List.foldlM_cons, readBuf_eq, List.forall_mem_cons, List.foldl_cons]
    by_cases hzero : cString buf = []
    · rw [if_pos hzero]
      exact iff_of_false (by simp) fun h => h.1.1 hzero
    · rw [if_neg hzero]
      exact ih.trans (by simp [hzero, insertPiece])

theorem find_foldl_insertPiece (ps : List Bytes) (m : ConfigMap) (key : Bytes) :
    (ps.foldl insertPiece m).find key =
      (m.find key).or (Assoc.find (pieceEntries ps) key) := by
  induction ps generalizing m with
  | nil => exact Option.or_none.symm
  | cons buf ps ih =>
    rw [List.foldl_cons, ih, insertPiece, find_insertEntry, Option.or_assoc, ← Assoc.find_append,
      pieceEntries_cons]

end

/-! ## `fgets` -/

section

variable {n : Nat} {line rest file : Bytes}

/-- It goes on over what is no newline. -/
theorem fgets_append_of_not_mem (hline : newline ∉ line) (n : Nat) (rest : Bytes) :
    fgets (line.length + n) (line ++ rest) = (line ++ (fgets n rest).1, (fgets n rest).2) := by
  induction line with
  | nil => rw [List.length_nil, Nat.zero_add, List.nil_append, List.nil_append]
  | cons c line ih =>
    rw [List.mem_cons, not_or] at hline
    have hlen : (c :: line).length + n = line.length + n + 1 := by
      rw [List.length_cons]
      omega
    rw [hlen, List.cons_append, fgets, if_neg (Ne.symm hline.1), ih hline.2, List.cons_append]

/-- A line that fits. -/
theorem fgets_line (hline : newline ∉ line) (hn : line.length < n) :
    fgets n (line ++ newline :: rest) = (line ++ [newline], rest) := by
  obtain ⟨k, rfl⟩ := Nat.exists_eq_add_of_lt hn
  have hnewline : fgets (k + 1) (newline :: rest) = ([newline], rest) := if_pos rfl
  rw [Nat.add_assoc, fgets_append_of_not_mem hline, hnewline]

/-- The end of the file. -/
theorem fgets_end (hline : newline ∉ line) (hn : line.length ≤ n) : fgets n line = (line, []) := by
  obtain ⟨k, rfl⟩ := Nat.exists_eq_add_of_le hn
  have hread := fgets_append_of_not_mem hline k []
  have hend : fgets k [] = ([], []) := by
    cases k with
    | zero => rfl
    | succ k => rfl
  rwa [hend, List.append_nil] at hread

theorem fgets_append (n : Nat) (file : Bytes) : (fgets n file).1 ++ (fgets n file).2 = file := by
  induction n generalizing file with
  | zero => rfl
  | succ n ih =>
    cases file with
    | nil => rfl
    | cons c file =>
      rw [fgets]
      split
      · rfl
      · rw [List.cons_append, ih]

/-- Something is read, unless the file has ended. -/
theorem length_fgets_lt (n : Nat) (h : file ≠ []) :
    (fgets (n + 1) file).2.length < file.length := by
  cases file with
  | nil => exact absurd rfl h
  | cons c file =>
    have hlen := congrArg List.length (fgets_append n file)
    rw [List.length_append] at hlen
    rw [fgets, List.length_cons]
    split
    · exact Nat.lt_succ_self _
    · change (fgets n file).2.length < file.length + 1
      omega

/-- Enough calls are enough. -/
theorem pieces_eq {k : Nat} (hn : file.length ≤ n) (hk : file.length ≤ k) :
    pieces n file = pieces k file := by
  induction n generalizing k file with
  | zero =>
    rw [List.length_eq_zero_iff.mp (Nat.le_zero.mp hn)]
    cases k with
    | zero => rfl
    | succ k => rfl
  | succ n ih =>
    cases file with
    | nil =>
      cases k with
      | zero => rfl
      | succ k => rfl
    | cons c file =>
      obtain ⟨k, rfl⟩ : ∃ j, k = j + 1 := ⟨k - 1, by simp at hk; omega⟩
      have hlt : (fgets 255 (c :: file)).2.length < (c :: file).length :=
        length_fgets_lt 254 (List.cons_ne_nil c file)
      have hrest : pieces n (fgets 255 (c :: file)).2 = pieces k (fgets 255 (c :: file)).2 :=
        ih (by omega) (by omega)
      exact congrArg _ hrest

/-- The pieces of a file: the first, and those of the rest. -/
def allPieces (file : Bytes) : List Bytes := pieces file.length file

theorem allPieces_nil : allPieces [] = [] := rfl

theorem allPieces_of_fgets {buf : Bytes} (h : file ≠ []) (hread : fgets 255 file = (buf, rest)) :
    allPieces file = buf :: allPieces rest := by
  obtain ⟨c, cs, rfl⟩ := List.exists_cons_of_ne_nil h
  have hlt := length_fgets_lt 254 h
  rw [hread] at hlt
  have hrest : pieces cs.length rest = pieces rest.length rest :=
    pieces_eq (Nat.le_of_lt_succ hlt) (Nat.le_refl _)
  change (fgets 255 (c :: cs)).1 :: pieces cs.length (fgets 255 (c :: cs)).2 = _
  rw [hread]
  exact congrArg _ hrest

/-- **`_LoadFile`.** -/
theorem loadFile_eq_some_iff {file : Bytes} {m : ConfigMap} :
    loadFile file = some m ↔ (∀ buf ∈ allPieces file, cString buf ≠ []) ∧
      m = (allPieces file).foldl insertPiece [] :=
  foldlM_readBuf_eq_some_iff

theorem find_of_loadFile {file : Bytes} {m : ConfigMap} (h : loadFile file = some m)
    (key : Bytes) : m.find key = Assoc.find (pieceEntries (allPieces file)) key := by
  rw [(loadFile_eq_some_iff.mp h).2, find_foldl_insertPiece]
  rfl

end

/-! ## Lines -/

section

variable {line text rest file : Bytes}

/-- What the code looks for is not in the text. -/
def Inert (text : Bytes) : Prop := ∀ c ∈ text, c ≠ 0 ∧ c ≠ newline ∧ c ≠ numberSign

instance : DecidablePred Inert := fun text =>
  inferInstanceAs (Decidable (∀ c ∈ text, c ≠ 0 ∧ c ≠ newline ∧ c ≠ numberSign))

/-- Such a text is read as it is. -/
theorem textOf_append (h : Inert text) (rest : Bytes) :
    textOf (text ++ rest) = text ++ textOf rest := by
  have hstring : cString (text ++ rest) = text ++ cString rest := by
    rw [cString, List.takeWhile_append_of_pos (by simpa using fun c hc => (h c hc).1)]
    rfl
  have htake : ∀ b : Bytes, (text ++ b).takeWhile (· != numberSign) =
      text ++ b.takeWhile (· != numberSign) := fun b =>
    List.takeWhile_append_of_pos (by simpa using fun c hc => (h c hc).2.2)
  rw [textOf, textOf, hstring]
  cases hrest : cString rest with
  | nil =>
    have hlast : ¬ (text ++ []).getLast? = some newline := by
      intro hlast
      rw [List.append_nil] at hlast
      exact (h _ (List.mem_of_getLast? hlast)).2.1 rfl
    rw [if_neg hlast, htake]
    rfl
  | cons c cs =>
    have hlast : (text ++ c :: cs).getLast? = (c :: cs).getLast? := by
      rw [List.getLast?_append_of_ne_nil _ (List.cons_ne_nil c cs)]
    rw [hlast, List.dropLast_append_of_ne_nil (List.cons_ne_nil c cs)]
    split
    · exact htake _
    · exact htake _

theorem textOf_comment (rest : Bytes) : textOf (numberSign :: rest) = [] := by
  have hstring : cString (numberSign :: rest) = numberSign :: cString rest :=
    List.takeWhile_cons_of_pos (by decide)
  rw [textOf, hstring]
  cases cString rest with
  | nil => decide
  | cons c cs =>
    rw [List.dropLast_cons_of_ne_nil (List.cons_ne_nil c cs)]
    split
    · exact List.takeWhile_cons_of_neg (by decide)
    · exact List.takeWhile_cons_of_neg (by decide)

theorem textOf_newline : textOf [newline] = [] := by decide

/-- It fits the buffer, and has no zero in front of its comment. -/
def Readable (line : Bytes) : Prop :=
  line.length ≤ 255 ∧ ∀ c ∈ line.takeWhile (· != numberSign), c ≠ 0

instance : DecidablePred Readable := fun _ => inferInstanceAs (Decidable (_ ∧ _))

/-- A line in the buffer, with its newline or without. -/
theorem Readable.textOf_eq (h : Readable line) (hnewline : newline ∉ line) :
    textOf line = line.takeWhile (· != numberSign) ∧
      textOf (line ++ [newline]) = line.takeWhile (· != numberSign) := by
  have hsplit : line.takeWhile (· != numberSign) ++ line.dropWhile (· != numberSign) = line :=
    List.takeWhile_append_dropWhile
  have hinert : Inert (line.takeWhile (· != numberSign)) := by
    intro c hc
    refine ⟨h.2 c hc, ?_, by simpa using List.mem_takeWhile_imp hc⟩
    rintro rfl
    exact hnewline ((List.takeWhile_prefix _).subset hc)
  have htext : ∀ rest, textOf (line ++ rest) = line.takeWhile (· != numberSign) ++
      textOf (line.dropWhile (· != numberSign) ++ rest) := by
    intro rest
    rw [← textOf_append hinert, ← List.append_assoc, hsplit]
  have hend := htext []
  rw [List.append_nil, List.append_nil] at hend
  rw [hend, htext [newline]]
  cases hdrop : line.dropWhile (· != numberSign) with
  | nil =>
    rw [List.nil_append, textOf_newline, List.append_nil]
    exact ⟨List.append_nil _, rfl⟩
  | cons c rest =>
    have hc : c = numberSign := by
      have hhead := List.head?_dropWhile_not (· != numberSign) line
      rw [hdrop] at hhead
      simpa using hhead
    rw [hc, List.cons_append, textOf_comment, textOf_comment]
    exact ⟨List.append_nil _, List.append_nil _⟩

theorem Readable.cString_ne_nil (h : Readable line) :
    (line ≠ [] → cString line ≠ []) ∧ cString (line ++ [newline]) ≠ [] := by
  have hcons : ∀ c rest, c ≠ 0 → cString (c :: rest) ≠ [] := by
    intro c rest hc
    rw [cString, List.takeWhile_cons_of_pos (by simpa using hc)]
    exact List.cons_ne_nil _ _
  cases line with
  | nil => exact ⟨fun hne => absurd rfl hne, by decide⟩
  | cons c line =>
    have hc : c ≠ 0 := by
      by_cases hsign : c = numberSign
      · rw [hsign]
        decide
      · apply h.2
        rw [List.takeWhile_cons_of_pos (by simpa using hsign)]
        exact List.mem_cons_self
    exact ⟨fun _ => hcons c line hc, hcons c (line ++ [newline]) hc⟩

/-- The first line of a file. -/
theorem exists_line (h : newline ∈ file) :
    ∃ line rest, file = line ++ newline :: rest ∧ newline ∉ line ∧
      linesOf file = line :: linesOf rest := by
  obtain ⟨line, rest, rfl, hline⟩ := List.eq_append_cons_of_mem h
  exact ⟨line, rest, rfl, hline, List.splitOn_append_cons_self_of_not_mem hline rest⟩

theorem allPieces_line (hnewline : newline ∉ line) (hlen : line.length ≤ 254) (rest : Bytes) :
    allPieces (line ++ newline :: rest) = (line ++ [newline]) :: allPieces rest :=
  allPieces_of_fgets (by simp) (fgets_line hnewline (Nat.lt_succ_of_le hlen))

/-- A line of 255 bytes leaves its newline for the next call, which reads nothing else. -/
theorem allPieces_full_line (hnewline : newline ∉ line) (hlen : line.length = 255) (rest : Bytes) :
    allPieces (line ++ newline :: rest) = line :: [newline] :: allPieces rest := by
  have hpart : fgets 255 (line ++ newline :: rest) = (line, newline :: rest) := by
    have hread := fgets_append_of_not_mem hnewline 0 (newline :: rest)
    rwa [Nat.add_zero, hlen, fgets, List.append_nil] at hread
  rw [allPieces_of_fgets (by simp) hpart]
  exact congrArg _ (allPieces_line List.not_mem_nil (Nat.zero_le _) rest)

theorem entriesOf_line (hlines : linesOf file = line :: linesOf rest) :
    entriesOf file = (entryOf line).toList ++ entriesOf rest := by
  rw [entriesOf, hlines, List.filterMap_cons]
  cases entryOf line with
  | none => rfl
  | some e => rfl

/-- **Every line is read as it should be.** -/
theorem entries_of_readable (h : ∀ line ∈ linesOf file, Readable line) :
    (∀ buf ∈ allPieces file, cString buf ≠ []) ∧
      pieceEntries (allPieces file) = entriesOf file := by
  induction hlen : file.length using Nat.strongRecOn generalizing file with
  | ind n ih =>
    by_cases hnewline : newline ∈ file
    · obtain ⟨line, rest, hfile, hline, hlines⟩ := exists_line hnewline
      rw [hlines, List.forall_mem_cons] at h
      obtain ⟨hread, hrest⟩ := h
      have hshorter : rest.length < n := by
        rw [← hlen, hfile, List.length_append, List.length_cons]
        omega
      obtain ⟨hbufs, hentries⟩ := ih rest.length hshorter hrest rfl
      have hstrings := hread.cString_ne_nil
      have htexts := hread.textOf_eq hline
      rw [entriesOf_line hlines, ← hentries, hfile, entryOf]
      by_cases hfull : line.length = 255
      · rw [allPieces_full_line hline hfull, pieceEntries_cons, pieceEntries_cons, htexts.1]
        refine ⟨?_, rfl⟩
        rw [List.forall_mem_cons, List.forall_mem_cons]
        have hne : line ≠ [] := List.ne_nil_of_length_eq_add_one hfull
        exact ⟨hstrings.1 hne, by decide, hbufs⟩
      · have hfits : line.length ≤ 254 := by
          have hle := hread.1
          omega
        rw [allPieces_line hline hfits, pieceEntries_cons, htexts.2]
        refine ⟨?_, rfl⟩
        rw [List.forall_mem_cons]
        exact ⟨hstrings.2, hbufs⟩
    · have hlines : linesOf file = [file] := List.splitOn_eq_singleton hnewline
      rw [hlines, List.forall_mem_singleton] at h
      rw [entriesOf, hlines]
      by_cases hnil : file = []
      · rw [hnil]
        exact ⟨fun _ hbuf => (nomatch hbuf), rfl⟩
      · rw [allPieces_of_fgets hnil (fgets_end hnewline h.1), allPieces_nil, pieceEntries_cons,
          (h.textOf_eq hnewline).1]
        refine ⟨?_, ?_⟩
        · rw [List.forall_mem_singleton]
          exact h.cString_ne_nil.1 hnil
        · rw [List.filterMap_cons, entryOf]
          cases entryOfText (file.takeWhile (· != numberSign)) with
          | none => rfl
          | some e => rfl

/-- A file is loaded as it should be if each of its lines fits the buffer, and has no zero in front
    of its comment. -/
theorem loadsAs_of_readable (file : Bytes) (h : ∀ line ∈ linesOf file, Readable line) :
    LoadsAs file := by
  obtain ⟨hbufs, hentries⟩ := entries_of_readable h
  have hload := loadFile_eq_some_iff.mpr ⟨hbufs, rfl⟩
  refine ⟨_, hload, ?_⟩
  intro key
  rw [find_of_loadFile hload, hentries]

end

/-- `a = b # c` -/
def oneLine : Bytes := [0x61, 0x20, equalsSign, 0x20, 0x62, 0x20, numberSign, 0x20, 0x63, newline]

theorem loadsAs_oneLine : entriesOf oneLine = [([0x61], [0x62])] ∧ LoadsAs oneLine := by
  refine ⟨by decide +kernel, loadsAs_of_readable oneLine ?_⟩
  decide +kernel

/-- A comment of 258 bytes that ends with `k=v`. -/
def longComment : Bytes :=
  numberSign :: (List.replicate 254 0x78 ++ [0x6b, equalsSign, 0x76, newline])

/-- The end of the comment is read as an entry; and a line that begins with a zero is read outside
    the buffer. -/
theorem not_loadsAs_longComment : ¬ LoadsAs longComment ∧ ¬ LoadsAs [0, newline] := by
  constructor
  · rintro ⟨m, hload, hfind⟩
    have hcode : (loadFile longComment).bind (·.find [0x6b]) = some [0x76] ∧
        Assoc.find (entriesOf longComment) [0x6b] = none := by
      decide +kernel
    rw [hload, Option.bind_some, hfind, hcode.2] at hcode
    cases hcode.1
  · rintro ⟨m, hload, -⟩
    cases hload

end ConfigFile

end Global
end Proof
end PtpCore
