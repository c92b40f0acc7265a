import PtpCore.Net.ConfigFiles
import PtpCore.Proof.Net.EntropyStore

/-!
# What survives a crash

Whatever calls fail and wherever the process is stopped, the next start finds what was there before
or all of what was being written, and never a part of it. So the two files are a register that is
written at once or not at all. What is written stays when no call fails. When one does, a backup may
be left behind, and a later write that works in every step is then undone by the next start.
-/

namespace PtpCore
namespace Proof
namespace Net

open Lib PtpCore.Net PtpCore.Net.ConfigFiles

/-! ## Reading -/

/-- A file that was written in full. -/
def written (v : Bytes) : Bytes := uint32Bytes v.length ++ v

theorem length_uint32Bytes (n : Nat) : (uint32Bytes n).length = 4 := by
  rw [uint32Bytes, List.length_reverse, length_toBE]

theorem ofBE_uint32Bytes {n : Nat} (h : n < 2 ^ 32) : ofBE (uint32Bytes n).reverse = n := by
  rw [uint32Bytes, List.reverse_reverse]
  exact ofBE_toBE_of_lt h

/-- The test of the length lets every file pass that is long enough. -/
theorem toInt_lt_of_le {n m : Nat} (hn : n < 2 ^ 32) (h : n < m) :
    (UInt32.ofNat n).toInt32.toInt < (m : Int) := by
  have hto : (UInt32.ofNat n).toInt32.toInt = (UInt32.ofNat n).toBitVec.toInt := rfl
  have hnat : (UInt32.ofNat n).toBitVec.toNat = n := UInt32.toNat_ofNat_of_lt' hn
  rw [hto, BitVec.toInt_eq_toNat_cond, hnat]
  split <;> omega

theorem readContent_header (v : Payload) (k : Nat) :
    readContent (uint32Bytes v.bytes.length ++ v.bytes.take k) =
      if v.bytes.length ≤ k then v.value else none := by
  have hhead : (uint32Bytes v.bytes.length ++ v.bytes.take k).take 4 =
      uint32Bytes v.bytes.length := List.take_left' (length_uint32Bytes _)
  have hdata : (uint32Bytes v.bytes.length ++ v.bytes.take k).drop 4 = v.bytes.take k :=
    List.drop_left' (length_uint32Bytes _)
  rw [readContent, hhead, hdata, ofBE_uint32Bytes v.length_lt, List.length_append,
    length_uint32Bytes]
  by_cases hk : v.bytes.length ≤ k
  · rw [if_pos hk, List.take_of_length_le hk, if_neg (Nat.lt_irrefl _), List.take_length,
      Payload.value]
    by_cases hempty : v.bytes = []
    · simp [hempty]
    · have hpos := List.length_pos_of_ne_nil hempty
      rw [if_neg hempty, if_pos ⟨Nat.le_add_right 4 _, hpos, toInt_lt_of_le v.length_lt (by omega)⟩]
  · rw [if_neg hk, List.length_take, Nat.min_eq_left (Nat.le_of_not_le hk),
      if_pos (Nat.lt_of_not_le hk), ite_self]

/-- The beginning of a file is read as nothing, unless it is the whole file. -/
theorem readContent_take (v : Payload) (n : Nat) :
    readContent ((written v.bytes).take n) = none ∨
      readContent ((written v.bytes).take n) = v.value := by
  by_cases hn : n < 4
  · refine .inl (if_neg fun h => ?_)
    have hlength := h.1
    rw [List.length_take] at hlength
    omega
  · have hhead : (uint32Bytes v.bytes.length).take n = uint32Bytes v.bytes.length :=
      List.take_of_length_le (by rw [length_uint32Bytes]; omega)
    rw [written, List.take_append, hhead, readContent_header]
    split
    · exact .inr rfl
    · exact .inl rfl

theorem readContent_written (v : Payload) : readContent (written v.bytes) = v.value := by
  have h := readContent_header v v.bytes.length
  rwa [List.take_length, if_pos (Nat.le_refl _)] at h

theorem readContent_nil : readContent [] = none := rfl

/-! ## Writing -/

section

variable {faulty hasBackupFile error : Bool} {x : Option Bytes} {v : Payload} {d d' : Disk}

/-- The old value or the new one would be found. -/
def Either (x : Option Bytes) (v : Payload) (d : Disk) : Prop :=
  recovered d = x ∨ recovered d = v.value

/-- What a write leaves that is cut off. -/
def Left (x : Option Bytes) (v : Payload) (d : Disk) : Prop := d.writing = false ∧ Either x v d

/-- What a write leaves that is carried out. -/
structure Done (faulty : Bool) (x : Option Bytes) (v : Payload) (d : Disk) : Prop where
  closed : d.writing = false
  value : recovered d = v.value ∨ faulty = true ∧ recovered d = x
  backup : faulty = false → d.content .backup = none

/-- The file holds the beginning of what is written, and the old value is in the backup. -/
structure Partial (x : Option Bytes) (v : Payload) (d : Disk) : Prop where
  text : ∃ n, d.content .config = some ((written v.bytes).take n)
  old : (d.content .backup).bind readContent = x

/-- What `writeConfig` knows while the file is open. -/
structure Filling (faulty hasBackupFile error : Bool) (x : Option Bytes) (v : Payload) (d : Disk) :
    Prop extends Partial x v d where
  full : error = false → d.content .config = some (written v.bytes)
  backup : faulty = false → (d.content .backup).isSome = hasBackupFile
  error : faulty = false → error = false

theorem recovered_of_some {c : Bytes} (h : d.content .backup = some c) :
    recovered d = readContent c := by
  rw [recovered, h]
  rfl

theorem recovered_of_none (h : d.content .backup = none) :
    recovered d = (d.content .config).bind readContent := by
  rw [recovered, h]
  rfl

theorem Partial.either (h : Partial x v d) : Either x v d := by
  obtain ⟨⟨n, hn⟩, hold⟩ := h
  cases hbackup : d.content .backup with
  | some c =>
    rw [hbackup] at hold
    exact .inl ((recovered_of_some hbackup).trans hold)
  | none =>
    rw [hbackup] at hold
    obtain rfl : none = x := hold
    rw [Either, recovered_of_none hbackup, hn]
    exact readContent_take v n

theorem Partial.truncated (h : Partial x v d) (ht : d.Truncated d') : Partial x v d' := by
  obtain ⟨⟨n, hn⟩, hold⟩ := h
  refine ⟨?_, by rw [ht.backup]; exact hold⟩
  rcases ht.config with hsame | ⟨-, c, m, hc, hcut⟩
  · exact ⟨n, hsame.trans hn⟩
  · rw [hn] at hc
    obtain rfl := Option.some.inj hc
    exact ⟨min m n, by rw [hcut, List.take_take]⟩

theorem Partial.left_of_loses (h : Partial x v d) (hlose : Loses d d') : Left x v d' :=
  ⟨hlose.2, (h.truncated hlose.1).either⟩

/-- Behind a call that failed. -/
theorem Partial.failed (h : Partial x v d) (hfaulty : faulty = true) :
    Filling faulty hasBackupFile true x v d where
  toPartial := h
  full := nofun
  backup hnot := nomatch hfaulty.symm.trans hnot
  error hnot := nomatch hfaulty.symm.trans hnot

theorem Partial.done (h : Partial x v d) (hfaulty : faulty = true) (hclosed : d.writing = false) :
    Done faulty x v d where
  closed := hclosed
  value := h.either.symm.imp_right fun hx => ⟨hfaulty, hx⟩
  backup hnot := nomatch hfaulty.symm.trans hnot

/-- A disk whose files are closed is not changed by a crash. -/
theorem eq_of_loses (h : Loses d d') (hclosed : d.writing = false) : d' = d := by
  obtain ⟨⟨hbackup, hconfig⟩, hwriting⟩ := h
  have hsame : d'.content .config = d.content .config :=
    hconfig.resolve_right fun hopen => nomatch hclosed.symm.trans hopen.1
  exact Disk.eq_of_files (hwriting.trans hclosed.symm) hsame hbackup

theorem Done.ret (h : Done faulty x v d) :
    Prog.Safe (Does faulty) Loses (fun _ => Done faulty x v) (Left x v) (.ret () : Program) d := by
  refine ⟨fun d' hlose => ?_, h⟩
  obtain rfl := eq_of_loses hlose h.closed
  exact ⟨h.closed, h.value.symm.imp_left And.right⟩

theorem Filling.finish (h : Filling faulty hasBackupFile error x v d) (hclosed : d.writing = false) :
    Prog.Safe (Does faulty) Loses (fun _ => Done faulty x v) (Left x v)
      (finish hasBackupFile error) d := by
  have hleft (d' : Disk) (hlose : Loses d d') : Left x v d' := h.toPartial.left_of_loses hlose
  cases error with
  | true =>
    have hfaulty : faulty = true := by
      by_contra hnot
      exact nomatch h.error (Bool.eq_false_iff.mpr hnot)
    refine ⟨hleft, fun r d' hdoes => ?_⟩
    cases hdoes with
    | remove hthere =>
      have hrec : recovered (d.set .config none) = x := by
        rw [← h.old, recovered, Disk.backup_set_config, Disk.content_set_self]
        cases d.content .backup with
        | none => rfl
        | some c => rfl
      exact Done.ret ⟨hclosed, .inr ⟨hfaulty, hrec⟩, fun hnot => nomatch hfaulty.symm.trans hnot⟩
    | removeFails _ => exact (h.toPartial.done hfaulty hclosed).ret
  | false =>
    have hfull := h.full rfl
    have hnew {d' : Disk} (hbackup : d'.content .backup = none)
        (hconfig : d'.content .config = d.content .config) : recovered d' = v.value := by
      rw [recovered_of_none hbackup, hconfig, hfull]
      exact readContent_written v
    have hkept (hfaulty : faulty = true) : Done faulty x v d := h.toPartial.done hfaulty hclosed
    cases hasBackupFile with
    | true =>
      refine ⟨hleft, fun r d' hdoes => ?_⟩
      cases hdoes with
      | remove _ =>
        exact Done.ret ⟨hclosed, .inl (hnew (Disk.content_set_self ..) (Disk.config_set_backup ..)),
          fun _ => Disk.content_set_self ..⟩
      | removeFails hwhy =>
        cases faulty with
        | true => exact (hkept rfl).ret
        | false =>
          have hthere := h.backup rfl
          rw [hwhy.resolve_left nofun] at hthere
          exact nomatch hthere
    | false =>
      cases faulty with
      | true => exact (hkept rfl).ret
      | false =>
        have hnone : d.content .backup = none := Option.isSome_eq_false_iff.mp (h.backup rfl) |>
          Option.isNone_iff_eq_none.mp
        exact Done.ret ⟨hclosed, .inl (hnew hnone rfl), fun _ => hnone⟩

/-- The calls that end a write leave the files alone when they work. -/
theorem Filling.step {c : FileCall} {ok : Bool} (h : Filling faulty hasBackupFile error x v d)
    (hc : c = .fflush ∨ c = .fileno ∨ c = .fsync ∨ c = .fclose) (hdoes : Does faulty c d ok d') :
    Filling faulty hasBackupFile (error || !ok) x v d' := by
  have hworks (hcontent : d'.content = d.content) :
      Filling faulty hasBackupFile (error || !true) x v d' := by
    have hsame : (error || !true) = error := Bool.or_false error
    rw [hsame]
    exact ⟨⟨hcontent ▸ h.text, hcontent ▸ h.old⟩, hcontent ▸ h.full, hcontent ▸ h.backup, h.error⟩
  have hfails (hfaulty : faulty = true) (ht : Partial x v d') :
      Filling faulty hasBackupFile (error || !false) x v d' := by
    have htrue : (error || !false) = true := Bool.or_true error
    rw [htrue]
    exact ht.failed hfaulty
  rcases hc with rfl | rfl | rfl | rfl
  · cases hdoes with
    | fflush => exact hworks rfl
    | fflushFails hfaulty ht _ => exact hfails hfaulty (h.toPartial.truncated ht)
  · cases hdoes with
    | fileno => exact hworks rfl
    | filenoFails hfaulty => exact hfails hfaulty h.toPartial
  · cases hdoes with
    | fsync => exact hworks rfl
    | fsyncFails hfaulty ht _ => exact hfails hfaulty (h.toPartial.truncated ht)
  · cases hdoes with
    | fclose => exact hworks rfl
    | fcloseFails hfaulty ht _ => exact hfails hfaulty (h.toPartial.truncated ht)

theorem closed_of_fclose {ok : Bool} (hdoes : Does faulty .fclose d ok d') : d'.writing = false := by
  cases hdoes with
  | fclose => rfl
  | fcloseFails _ _ hclosed => exact hclosed

theorem Filling.close (h : Filling faulty hasBackupFile error x v d) :
    Prog.Safe (Does faulty) Loses (fun _ => Done faulty x v) (Left x v)
      (closeFile hasBackupFile error) d := by
  have hleft {error : Bool} {d d' : Disk} (h : Filling faulty hasBackupFile error x v d)
      (hlose : Loses d d') : Left x v d' := h.toPartial.left_of_loses hlose
  refine ⟨fun d' => hleft h, fun flushed d1 hflush => ?_⟩
  have h1 := h.step (.inl rfl) hflush
  refine ⟨fun d' => hleft h1, fun known d2 hfileno => ?_⟩
  have h2 := h1.step (.inr (.inl rfl)) hfileno
  cases known with
  | true =>
    rw [Bool.not_true, Bool.or_false] at h2
    refine ⟨fun d' => hleft h2, fun synced d3 hfsync => ?_⟩
    have h3 := h2.step (.inr (.inr (.inl rfl))) hfsync
    refine ⟨fun d' => hleft h3, fun closed d4 hfclose => ?_⟩
    exact (h3.step (.inr (.inr (.inr rfl))) hfclose).finish (closed_of_fclose hfclose)
  | false =>
    rw [Bool.not_false, Bool.or_true] at h2
    refine ⟨fun d' => hleft h2, fun closed d3 hfclose => ?_⟩
    have h3 := h2.step (.inr (.inr (.inr rfl))) hfclose
    exact h3.finish (closed_of_fclose hfclose)

/-- Before the file is opened there is nothing in it that counts. -/
structure Ready (faulty hasBackupFile : Bool) (x : Option Bytes) (d : Disk) : Prop where
  closed : d.writing = false
  recovered : recovered d = x
  /-- The file is gone, or there is a backup that comes first. -/
  hidden : (d.content .backup).bind readContent = x
  backup : faulty = false → (d.content .backup).isSome = hasBackupFile

theorem Ready.left_of_loses (h : Ready faulty hasBackupFile x d) (hlose : Loses d d') :
    Left x v d' := by
  obtain rfl := eq_of_loses hlose h.closed
  exact ⟨h.closed, .inl h.recovered⟩

theorem Ready.partial_of (h : Ready faulty hasBackupFile x d)
    (hbackup : d'.content .backup = d.content .backup) {n : Nat}
    (hconfig : d'.content .config = some ((written v.bytes).take n)) : Partial x v d' :=
  ⟨⟨n, hconfig⟩, hbackup ▸ h.hidden⟩

/-- What `fwrite` adds to the file. -/
theorem fwrite_cases {y c : Bytes} {ok : Bool} (hdoes : Does faulty (.fwrite y) d ok d')
    (hc : d.content .config = some c) :
    d'.content .backup = d.content .backup ∧
      (ok = true ∧ d'.content .config = some (c ++ y) ∨
        ok = false ∧ faulty = true ∧ ∃ n, d'.content .config = some (c ++ y.take n)) := by
  cases hdoes with
  | fwrite hc' =>
    obtain rfl := Option.some.inj (hc.symm.trans hc')
    exact ⟨rfl, .inl ⟨rfl, Disk.content_set_self ..⟩⟩
  | fwriteFails n hfaulty hc' =>
    obtain rfl := Option.some.inj (hc.symm.trans hc')
    exact ⟨rfl, .inr ⟨rfl, hfaulty, n, Disk.content_set_self ..⟩⟩

theorem take_written (v : Bytes) : (written v).take 4 = uint32Bytes v.length :=
  List.take_left' (length_uint32Bytes _)

theorem take_written_add (v : Bytes) (n : Nat) :
    (written v).take (4 + n) = uint32Bytes v.length ++ v.take n := by
  rw [written, List.take_append, length_uint32Bytes, Nat.add_sub_cancel_left,
    List.take_of_length_le (by rw [length_uint32Bytes]; omega)]

theorem Ready.write (h : Ready faulty hasBackupFile x d) :
    Prog.Safe (Does faulty) Loses (fun _ => Done faulty x v) (Left x v)
      (writeFile v.bytes hasBackupFile) d := by
  refine ⟨fun d' hlose => h.left_of_loses hlose, fun opened d1 hopen => ?_⟩
  cases hopen with
  | openWriteFails hfaulty =>
    exact Done.ret ⟨h.closed, .inr ⟨hfaulty, h.recovered⟩,
      fun hnot => nomatch hfaulty.symm.trans hnot⟩
  | openWrite =>
    generalize hd1 : ({ d.set .config (some []) with writing := true } : Disk) = d1
    have hbackup1 : d1.content .backup = d.content .backup := by rw [← hd1]; rfl
    have hconfig1 : d1.content .config = some [] := by rw [← hd1]; rfl
    have h1 : Partial x v d1 := h.partial_of hbackup1 (n := 0) hconfig1
    refine ⟨fun d' hlose => h1.left_of_loses hlose, fun size d2 hsize => ?_⟩
    obtain ⟨hbackup2, hsize⟩ := fwrite_cases hsize hconfig1
    rw [hbackup1] at hbackup2
    rcases hsize with ⟨rfl, hconfig2⟩ | ⟨rfl, hfaulty, n, hconfig2⟩
    case inr =>
      have h2 : Partial x v d2 := h.partial_of hbackup2 (n := min n 4) (by
        rw [hconfig2, ← List.take_take, take_written]
        rfl)
      exact (h2.failed hfaulty).close
    rw [List.nil_append, ← take_written] at hconfig2
    have h2 : Partial x v d2 := h.partial_of hbackup2 hconfig2
    refine ⟨fun d' hlose => h2.left_of_loses hlose, fun data d3 hdata => ?_⟩
    obtain ⟨hbackup3, hdata⟩ := fwrite_cases hdata hconfig2
    rw [hbackup2] at hbackup3
    rw [take_written] at hdata
    rcases hdata with ⟨rfl, hconfig3⟩ | ⟨rfl, hfaulty, n, hconfig3⟩
    case inr =>
      rw [← take_written_add] at hconfig3
      exact ((h.partial_of hbackup3 hconfig3).failed hfaulty).close
    have hall : (written v.bytes).take (written v.bytes).length = written v.bytes :=
      List.take_length
    have h3 : Filling faulty hasBackupFile false x v d3 :=
      ⟨h.partial_of hbackup3 (hconfig3.trans (congrArg some hall.symm)), fun _ => hconfig3,
        hbackup3 ▸ h.backup, fun _ => rfl⟩
    exact h3.close

/-! ## The two programs -/

theorem loses_closed (h : Loses d d') (hclosed : d.writing = false) :
    d'.writing = false ∧ recovered d' = recovered d := by
  obtain rfl := eq_of_loses h hclosed
  exact ⟨hclosed, rfl⟩

/-- A write is carried out or not, whatever fails. It is carried out when nothing fails and no
    backup is in the way. -/
theorem safe_writeConfig (v : Payload) (hclosed : d.writing = false)
    (hbackup : faulty = false → d.content .backup = none) :
    Prog.Safe (Does faulty) Loses (fun _ => Done faulty (recovered d) v) (Left (recovered d) v)
      (writeConfig v.bytes) d := by
  have hleft (d' : Disk) (hlose : Loses d d') : Left (recovered d) v d' :=
    (loses_closed hlose hclosed).imp_right .inl
  have hnone (hnot : faulty = false) : (d.content .backup).isSome = false := by
    rw [hbackup hnot]
    rfl
  refine ⟨hleft, fun file d1 hopen => ?_⟩
  cases hopen with | openRead => ?_
  refine ⟨hleft, fun backup d2 hopen => ?_⟩
  cases hopen with | openRead => ?_
  cases hconfig : d.content .config with
  | none =>
    have hhidden : (d.content .backup).bind readContent = recovered d := by
      rw [recovered, hconfig]
      cases d.content .backup with
      | none => rfl
      | some g => rfl
    exact Ready.write ⟨hclosed, rfl, hhidden, hnone⟩
  | some c =>
    cases hthere : d.content .backup with
    | some g =>
      have hfaulty : faulty = true := by
        by_contra hnot
        exact nomatch hthere.symm.trans (hbackup (Bool.eq_false_iff.mpr hnot))
      refine ⟨hleft, fun removed d3 hremove => ?_⟩
      have hhidden : (d.content .backup).bind readContent = recovered d := by
        rw [recovered_of_some hthere, hthere]
        rfl
      cases hremove with
      | remove _ =>
        have hrec : recovered (d.set .config none) = recovered d := by
          rw [recovered_of_some hthere]
          exact recovered_of_some hthere
        exact Ready.write ⟨hclosed, hrec, hhidden, hnone⟩
      | removeFails _ => exact Ready.write ⟨hclosed, rfl, hhidden, hnone⟩
    | none =>
      refine ⟨hleft, fun renamed d3 hrename => ?_⟩
      have hold : recovered d = readContent c := by
        rw [recovered_of_none hthere, hconfig]
        rfl
      cases hrename with
      | rename hc =>
        obtain rfl := Option.some.inj (hconfig.symm.trans hc)
        have hmoved : ((d.set .config none).set .backup (some c)).content .backup = some c := rfl
        refine Ready.write ⟨hclosed, (recovered_of_some hmoved).trans hold.symm, hold.symm,
          fun _ => rfl⟩
      | renameFails hwhy =>
        have hfaulty : faulty = true := hwhy.resolve_right (by rw [hconfig]; exact nofun)
        exact Done.ret ⟨hclosed, .inr ⟨hfaulty, rfl⟩, fun hnot => nomatch hfaulty.symm.trans hnot⟩

/-- The constructor changes nothing that would be found. -/
theorem safe_new (hclosed : d.writing = false) :
    Prog.Safe (Does faulty) Loses
      (fun _ d' => (d'.writing = false ∧ recovered d' = recovered d) ∧
        (faulty = false → d'.content .backup = none))
      (fun d' => d'.writing = false ∧ recovered d' = recovered d) new d := by
  have hleft {d1 : Disk} (hsame : d1.writing = false ∧ recovered d1 = recovered d) (d' : Disk)
      (hlose : Loses d1 d') : d'.writing = false ∧ recovered d' = recovered d :=
    (loses_closed hlose hsame.1).imp_right fun h => h.trans hsame.2
  refine ⟨hleft ⟨hclosed, rfl⟩, fun backup d1 hopen => ?_⟩
  cases hopen with | openRead => ?_
  cases hthere : d.content .backup with
  | none => exact ⟨hleft ⟨hclosed, rfl⟩, ⟨hclosed, rfl⟩, fun _ => hthere⟩
  | some g =>
    refine ⟨hleft ⟨hclosed, rfl⟩, fun removed d2 hremove => ?_⟩
    have h2 : (d2.writing = false ∧ recovered d2 = recovered d) ∧ d2.content .backup = some g := by
      cases hremove with
      | remove _ =>
        refine ⟨⟨hclosed, ?_⟩, hthere⟩
        rw [recovered_of_some hthere]
        exact recovered_of_some hthere
      | removeFails _ => exact ⟨⟨hclosed, rfl⟩, hthere⟩
    refine ⟨hleft h2.1, fun renamed d3 hrename => ?_⟩
    cases hrename with
    | rename hc =>
      obtain rfl := Option.some.inj (h2.2.symm.trans hc)
      have hmoved : ((d2.set .backup none).set .config (some g)).content .backup = none := rfl
      have hrec : recovered ((d2.set .backup none).set .config (some g)) = recovered d := by
        rw [recovered_of_none hmoved, ← h2.1.2, recovered_of_some h2.2]
        rfl
      exact ⟨hleft ⟨h2.1.1, hrec⟩, ⟨h2.1.1, hrec⟩, fun _ => hmoved⟩
    | renameFails hwhy =>
      have hfaulty : faulty = true := hwhy.resolve_right (by rw [h2.2]; exact nofun)
      exact ⟨hleft h2.1, h2.1, fun hnot => nomatch hfaulty.symm.trans hnot⟩

end

/-! ## Whole runs -/

/-- The files are closed, and while there is a `Config` there is no backup, unless calls fail. -/
structure Clean (faulty : Bool) (s : System) : Prop where
  closed : s.disk.writing = false
  backup : faulty = false → s.up = true → s.disk.content .backup = none

theorem step_register {faulty : Bool} {s s' : System} {e : Event × Bool} (hs : Clean faulty s)
    (hstep : Step faulty s e s') :
    Clean faulty s' ∧ Register faulty (recovered s.disk) e (recovered s'.disk) := by
  obtain ⟨hup, hrun⟩ := hstep
  rename_i event r d
  cases event with
  | construct =>
    have hend := (safe_new hs.closed).outcome hrun
    cases r with
    | none => exact ⟨⟨hend.1, fun _ => nofun⟩, hend.2 ▸ .construct _ _⟩
    | some u => exact ⟨⟨hend.1.1, fun hnot _ => hend.2 hnot⟩, hend.1.2 ▸ .construct _ _⟩
  | write v =>
    have hend := (safe_writeConfig v hs.closed fun hnot => hs.backup hnot (hup v rfl)).outcome hrun
    cases r with
    | none =>
      obtain ⟨hclosed, hvalue⟩ := hend
      refine ⟨⟨hclosed, fun _ => nofun⟩, ?_⟩
      rcases hvalue with hold | hnew
      · exact hold ▸ .lost _ v _ (.inr rfl)
      · exact hnew ▸ .written _ v _
    | some u =>
      refine ⟨⟨hend.closed, fun hnot _ => hend.backup hnot⟩, ?_⟩
      rcases hend.value with hnew | ⟨hfaulty, hold⟩
      · exact hnew ▸ .written _ v _
      · exact hold ▸ .lost _ v _ (.inl hfaulty)

/-! ## A backup that is left behind -/

/-- Calls that do not touch the backup. -/
def SparesBackup : FileCall → Prop
  | .rename _ _ => False
  | .remove f => f = .config
  | _ => True

/-- The backup holds `g`, and comes first at the next start. -/
def Kept (g : Bytes) (d : Disk) : Prop := d.content .backup = some g

theorem Kept.does {faulty : Bool} {g : Bytes} {c : FileCall} {d d' : Disk} {ok : Bool}
    (hc : SparesBackup c) (h : Kept g d) (hdoes : Does faulty c d ok d') : Kept g d' := by
  cases hdoes with
  | rename _ => exact hc.elim
  | renameFails _ => exact h
  | remove _ =>
    obtain rfl := hc
    exact h
  | fflushFails _ ht _ => exact ht.backup.trans h
  | fsyncFails _ ht _ => exact ht.backup.trans h
  | fcloseFails _ ht _ => exact ht.backup.trans h
  | _ => exact h

theorem writeFile_spares (v : Bytes) : (writeFile v false).All SparesBackup := by
  have hfinish (error : Bool) : (finish false error).All SparesBackup := by
    cases error with
    | true => exact ⟨rfl, fun _ => trivial⟩
    | false => exact trivial
  have hclose (error : Bool) : (closeFile false error).All SparesBackup := by
    refine ⟨trivial, fun _ => ⟨trivial, fun known => ?_⟩⟩
    cases known with
    | true => exact ⟨trivial, fun _ => ⟨trivial, fun _ => hfinish _⟩⟩
    | false => exact ⟨trivial, fun _ => hfinish _⟩
  refine ⟨trivial, fun file => ?_⟩
  cases file with
  | true =>
    refine ⟨trivial, fun size => ?_⟩
    cases size with
    | true => exact ⟨trivial, fun _ => hclose _⟩
    | false => exact hclose _
  | false => exact trivial

theorem kept_of_writeConfig {faulty : Bool} {g v : Bytes} {d d' : Disk} {r : Option Unit}
    (h : Kept g d) (hrun : (writeConfig v).Outcome (Does faulty) Loses d r d') : Kept g d' := by
  have hlose (d d' : Disk) (h : Kept g d) (hlose : Loses d d') : Kept g d' :=
    hlose.1.backup.trans h
  have hrest (d : Disk) (h : Kept g d) {p : Program} (hp : p.All SparesBackup)
      (hrun : p.Outcome (Does faulty) Loses d r d') : Kept g d' :=
    hrun.invariant (fun _ _ _ _ hc hk hdoes => hk.does hc hdoes) hlose hp h
  rw [writeConfig] at hrun
  cases hrun with
  | cut hcut => exact hlose _ _ h hcut
  | call hopen hrun =>
    cases hopen with | openRead => ?_
    cases hrun with
    | cut hcut => exact hlose _ _ h hcut
    | call hopen hrun =>
      cases hopen with | openRead => ?_
      rw [show d.content .backup = some g from h] at hrun
      cases hfile : (d.content .config).isSome with
      | true =>
        rw [hfile] at hrun
        have hremove : (.call (.remove .config) fun _ => writeFile v false : Program).All
            SparesBackup := ⟨rfl, fun _ => writeFile_spares v⟩
        exact hrest d h hremove hrun
      | false =>
        rw [hfile] at hrun
        exact hrest d h (writeFile_spares v) hrun

/-! ## The functions of an account -/

/-- The two files of a path. -/
def diskOf (path : Bytes) (fs : FileSystem) : Disk where
  content
    | .config => fs.find path
    | .backup => fs.find (Config.backupPath path)
  writing := false

/-- The constructor, when every call works. -/
theorem outcome_new (faulty : Bool) (path : Bytes) (fs : FileSystem) :
    new.Outcome (Does faulty) Loses (diskOf path fs) (some ())
      (diskOf path (Config.new path fs)) := by
  have hne := backupPath_ne path
  have hfound := find_new path fs
  have hnone := find_new_backup path fs
  rw [storedAt] at hfound
  refine .call (.openRead .backup _) ?_
  cases hbackup : fs.find (Config.backupPath path) with
  | none =>
    rw [hbackup] at hfound
    have hsame : diskOf path (Config.new path fs) = diskOf path fs :=
      Disk.eq_of_files rfl hfound (hnone.trans hbackup.symm)
    have hcold : ((diskOf path fs).content .backup).isSome = false := by
      rw [show (diskOf path fs).content .backup = none from hbackup]
      rfl
    rw [hcold, hsame]
    exact .ret () _
  | some g =>
    rw [hbackup] at hfound
    have hthere : (diskOf path fs).content .backup = some g := hbackup
    rw [hthere]
    have hend (d : Disk) (hclosed : d.writing = false) (hkept : d.content .backup = some g) :
        (.call (.rename .backup .config) fun _ => .ret () : Program).Outcome (Does faulty) Loses d
          (some ()) (diskOf path (Config.new path fs)) := by
      have hmoved : (d.set .backup none).set .config (some g) = diskOf path (Config.new path fs) :=
        Disk.eq_of_files hclosed hfound.symm hnone.symm
      rw [← hmoved]
      exact .call (.rename hkept) (.ret () _)
    cases hconfig : fs.find path with
    | none =>
      have hgone : (diskOf path fs).content .config = none := hconfig
      exact .call (.removeFails (.inr hgone)) (hend _ rfl hthere)
    | some c =>
      have hold : (diskOf path fs).content .config ≠ none := by
        rw [show (diskOf path fs).content .config = some c from hconfig]
        exact Option.some_ne_none c
      exact .call (.remove hold) (hend _ rfl hthere)

/-- The end of a write, when every call works. -/
theorem outcome_writeFile (faulty : Bool) {hasBackupFile : Bool} {v : Bytes} {d d' : Disk}
    (hclosed : d'.writing = false) (hconfig : d'.content .config = some (written v))
    (hbackup : d'.content .backup = if hasBackupFile then none else d.content .backup)
    (hthere : hasBackupFile = true → d.content .backup ≠ none) :
    (writeFile v hasBackupFile).Outcome (Does faulty) Loses d (some ()) d' := by
  refine .call (.openWrite d) (.call (.fwrite rfl) (.call (.fwrite rfl) (.call (.fflush _)
    (.call (.fileno _) (.call (.fsync _) (.call (.fclose _) ?_))))))
  cases hasBackupFile with
  | true =>
    exact .call (.remove (hthere rfl))
      (.ret_of_eq (Disk.eq_of_files hclosed.symm hconfig.symm hbackup.symm))
  | false => exact .ret_of_eq (Disk.eq_of_files hclosed.symm hconfig.symm hbackup.symm)

/-- `writeConfig`, when every call works. -/
theorem outcome_writeConfig (faulty : Bool) (path : Bytes) (fs : FileSystem)
    {b : NativeByteBuffer} (hb : b.position ≤ b.buffer.length) :
    (writeConfig (b.buffer.take b.position)).Outcome (Does faulty) Loses (diskOf path fs) (some ())
      (diskOf path (Config.writeConfig path b fs)) := by
  have hne := backupPath_ne path
  have hcontent : uint32Bytes b.position ++ b.buffer.take b.position =
      written (b.buffer.take b.position) := by
    rw [written, List.length_take, Nat.min_eq_left hb]
  refine .call (.openRead .config _) (.call (.openRead .backup _) ?_)
  have hconfig : (diskOf path fs).content .config = fs.find path := rfl
  have hbackup : (diskOf path fs).content .backup = fs.find (Config.backupPath path) := rfl
  rw [hconfig, hbackup, Config.writeConfig, hcontent]
  cases hold : fs.find path with
  | none =>
    refine outcome_writeFile faulty rfl (Assoc.find_set_self ..) ?_ fun hthere => ?_
    · exact Assoc.find_set_of_ne _ _ hne
    · cases hthere
  | some old =>
    cases hthere : fs.find (Config.backupPath path) with
    | some g =>
      have hremove : (diskOf path fs).content .config ≠ none := by
        rw [hconfig, hold]
        exact Option.some_ne_none old
      refine .call (.remove hremove)
        (outcome_writeFile faulty rfl (Assoc.find_set_self ..) ?_ fun hthere => ?_)
      · exact (Assoc.find_set_of_ne _ _ hne).trans (Assoc.find_erase_of_ne _ hne)
      · cases hthere
    | none =>
      refine .call (.rename (hconfig.trans hold)) (outcome_writeFile faulty rfl ?_ ?_ ?_)
      · exact (Assoc.find_erase_of_ne _ hne.symm).trans (Assoc.find_set_self ..)
      · exact Assoc.find_erase_self ..
      · exact fun _ => Option.some_ne_none old

theorem readConfig_eq (heap : Nat → UInt8) (path : Bytes) (fs : FileSystem) :
    (Config.readConfig heap path fs).map (fun b => b.buffer.take b.limit) =
      (fs.find path).bind readContent := by
  rw [Config.readConfig]
  cases fs.find path with
  | none => rfl
  | some content =>
    have hsize := le_length_free heap (ofBE (content.take 4).reverse)
    rw [Option.bind_some, readContent]
    dsimp only
    split
    case isFalse => rfl
    case isTrue =>
      split
      case isTrue => rfl
      case isFalse hlong =>
        have hlimit : (NativeByteBuffer.free heap (ofBE (content.take 4).reverse)).limit =
            ofBE (content.take 4).reverse := rfl
        have hdata : ((content.drop 4).take (ofBE (content.take 4).reverse)).length =
            ofBE (content.take 4).reverse := by
          rw [List.length_take, Nat.min_eq_left (Nat.le_of_not_lt hlong)]
        rw [Option.map_some, overwrite, List.take_zero, List.nil_append, hlimit,
          List.take_left' hdata]

/-- What is found is what the constructor and `readConfig` give. -/
theorem recovered_diskOf (heap : Nat → UInt8) (path : Bytes) (fs : FileSystem) :
    recovered (diskOf path fs) =
      (Config.readConfig heap path (Config.new path fs)).map fun b => b.buffer.take b.limit := by
  rw [readConfig_eq, find_new, storedAt, recovered]
  change ((fs.find (Config.backupPath path)).orElse fun _ => fs.find path).bind readContent = _
  cases fs.find (Config.backupPath path) with
  | none => rfl
  | some g => rfl

/-- While a backup is left from before, no write takes place, even where every call works: the next
    start finds what it would have found without. -/
theorem writes_undone (faulty : Bool) {g : Bytes} {s s' : System} {es : List (Event × Bool)}
    (hbackup : s.disk.content .backup = some g) (hwrites : ∀ e ∈ es, e.1 ≠ .construct)
    (hrun : Star (Step faulty) s es s') : recovered s'.disk = readContent g := by
  have hkept : Kept g s'.disk := by
    refine hrun.invariant (fun s : System => Kept g s.disk) (fun s e s' he hk hstep => ?_) hwrites hbackup
    obtain ⟨hup, hrun⟩ := hstep
    rename_i event r d
    cases event with
    | construct => exact absurd rfl he
    | write v => exact kept_of_writeConfig hk hrun
  exact recovered_of_some hkept

/-- One more write after a write that failed. -/
theorem writes_undone_second :
    recovered (diskOf [0x61] (Config.writeConfig [0x61] ⟨[2], 1, 1⟩
      [(Config.backupPath [0x61], written [1])])) = readContent (written [1]) := by
  let fs : FileSystem := [(Config.backupPath [0x61], written [1])]
  let b : NativeByteBuffer := ⟨[2], 1, 1⟩
  have hbackup : (diskOf [0x61] fs).content .backup = some (written [1]) := by decide +kernel
  have hwrite : Step false ⟨diskOf [0x61] fs, true⟩ (.write ⟨[2], by decide⟩, true)
      ⟨diskOf [0x61] (Config.writeConfig [0x61] b fs), true⟩ :=
    .step (e := .write ⟨[2], by decide⟩) (r := some ()) (fun _ _ => rfl)
      (outcome_writeConfig false [0x61] fs (b := b) (Nat.le_refl 1))
  exact writes_undone false hbackup (fun e he => by
    rw [List.mem_singleton.mp he]
    exact nofun) (.cons hwrite (.nil _))

/-- From any two files, whatever they hold, and over any number of starts, writes and crashes: what
    the next start would find is a register that is written as a whole or not at all. -/
theorem config_is_register (faulty : Bool) {d : Disk} {es : List (Event × Bool)} {s : System}
    (hclosed : d.writing = false) (hrun : Star (Step faulty) ⟨d, false⟩ es s) :
    Star (Register faulty) (recovered d) es (recovered s.disk) :=
  (hrun.simulates (fun s => recovered s.disk) (Clean faulty)
    (fun _ _ _ hs hstep => step_register hs hstep)
    ⟨hclosed, fun _ hup => absurd hup Bool.false_ne_true⟩).2

/-- The start of an account without a file, and its first write. -/
theorem config_is_register_first :
    Star (Register false) none [(.construct, true), (.write ⟨[1], by decide⟩, true)] (some [1]) := by
  let b : NativeByteBuffer := ⟨[1], 1, 1⟩
  let fs := Config.new [0x61] []
  have hstart : recovered (diskOf [0x61] []) = none := by decide +kernel
  have hend : recovered (diskOf [0x61] (Config.writeConfig [0x61] b fs)) = some [1] := by
    decide +kernel
  let v : Payload := ⟨[1], by decide⟩
  have hnew : Step false ⟨diskOf [0x61] [], false⟩ (.construct, true) ⟨diskOf [0x61] fs, true⟩ :=
    .step (e := .construct) (r := some ()) (fun v hv => nomatch hv) (outcome_new false [0x61] [])
  have hwrite : Step false ⟨diskOf [0x61] fs, true⟩ (.write v, true)
      ⟨diskOf [0x61] (Config.writeConfig [0x61] b fs), true⟩ :=
    .step (e := .write v) (r := some ()) (fun _ _ => rfl)
      (outcome_writeConfig false [0x61] fs (b := b) (Nat.le_refl 1))
  have h := config_is_register false rfl (.cons hnew (.cons hwrite (.nil _)))
  rwa [hstart, hend] at h

end Net
end Proof
end PtpCore
