import Mathlib.Data.List.Basic
import PtpCore.Lib.Crash
import PtpCore.Net.EntropyStore

/-!
# `Config` call by call (`ptp_net/Config.cpp`)

`EntropyStore.lean` has `Config` as it is when every call works. Here each call on a file is a step
that may fail, and the process may be stopped in front of any of them. What was written to a file
that is still open is not safe before it is closed: any part of it at the end may be missing then.
A file that is there can be opened for reading, and replaced by renaming as POSIX says.

The calls of `chmod` and the close of a file that was read have no result that anything depends on
and are left out.
-/

namespace PtpCore
namespace Net
namespace ConfigFiles

open Lib

/-- `configPath` and `backupPath`. -/
inductive File
  | config
  | backup
  deriving DecidableEq, Repr

/-- The calls of the C library, each of which is answered with whether it worked. -/
inductive FileCall
  /-- `fopen(.., "rb")`. -/
  | openRead (f : File)
  | rename (f g : File)
  | remove (f : File)
  /-- `fopen(configPath, "wb")`. -/
  | openWrite
  | fwrite (d : Bytes)
  | fflush
  | fileno
  | fsync
  | fclose

abbrev Program := Prog (fun _ : FileCall => Bool) Unit

/-- The constructor. -/
def new : Program :=
  .call (.openRead .backup) fun backup =>
    if backup then
      .call (.remove .config) fun _ => .call (.rename .backup .config) fun _ => .ret ()
    else .ret ()

/-- The end of `writeConfig`. -/
def finish (hasBackupFile error : Bool) : Program :=
  if error then .call (.remove .config) fun _ => .ret ()
  else if hasBackupFile then .call (.remove .backup) fun _ => .ret ()
  else .ret ()

/-- `writeConfig` from `fflush` on. -/
def closeFile (hasBackupFile error : Bool) : Program :=
  .call .fflush fun flushed =>
  .call .fileno fun known =>
    if known then
      .call .fsync fun synced => .call .fclose fun closed =>
        finish hasBackupFile (error || !flushed || !synced || !closed)
    else .call .fclose fun _ => finish hasBackupFile true

/-- `writeConfig` from the second `fopen` on. -/
def writeFile (v : Bytes) (hasBackupFile : Bool) : Program :=
  .call .openWrite fun file =>
    if file then
      .call (.fwrite (uint32Bytes v.length)) fun size =>
        if size then .call (.fwrite v) fun data => closeFile hasBackupFile (!data)
        else closeFile hasBackupFile true
    else .ret ()

/-- `writeConfig` of the bytes in front of the position. -/
def writeConfig (v : Bytes) : Program :=
  .call (.openRead .config) fun file =>
  .call (.openRead .backup) fun backup =>
    if file then
      if backup then .call (.remove .config) fun _ => writeFile v false
      else
        .call (.rename .config .backup) fun renamed =>
          if renamed then writeFile v true else .ret ()
    else writeFile v false

/-- What `readConfig` makes of a file. -/
def readContent (content : Bytes) : Option Bytes :=
  let size := ofBE (content.take 4).reverse
  if 4 ≤ content.length ∧ 0 < size ∧ (UInt32.ofNat size).toInt32.toInt < content.length then
    if (content.drop 4).length < size then none else some ((content.drop 4).take size)
  else none

/-! ## Files -/

structure Disk where
  content : File → Option Bytes
  /-- `configPath` is open for writing. -/
  writing : Bool

namespace Disk

def set (d : Disk) (f : File) (c : Option Bytes) : Disk :=
  { d with content := Function.update d.content f c }

theorem eq_of_files {d d' : Disk} (hwriting : d.writing = d'.writing)
    (hconfig : d.content .config = d'.content .config)
    (hbackup : d.content .backup = d'.content .backup) : d = d' := by
  obtain ⟨content, writing⟩ := d
  obtain ⟨content', writing'⟩ := d'
  rw [Disk.mk.injEq]
  refine ⟨funext fun f => ?_, hwriting⟩
  cases f with
  | config => exact hconfig
  | backup => exact hbackup

@[simp] theorem content_set_self (d : Disk) (f : File) (c : Option Bytes) :
    (d.set f c).content f = c := Function.update_self ..

@[simp] theorem backup_set_config (d : Disk) (c : Option Bytes) :
    (d.set .config c).content .backup = d.content .backup := rfl

@[simp] theorem config_set_backup (d : Disk) (c : Option Bytes) :
    (d.set .backup c).content .config = d.content .config := rfl

@[simp] theorem writing_set (d : Disk) (f : File) (c : Option Bytes) :
    (d.set f c).writing = d.writing := rfl

/-- `d'` is `d`, where the end of the file that is being written may be missing. -/
structure Truncated (d d' : Disk) : Prop where
  backup : d'.content .backup = d.content .backup
  config : d'.content .config = d.content .config ∨
    d.writing = true ∧ ∃ c n, d.content .config = some c ∧ d'.content .config = some (c.take n)

end Disk

/-- What a call may do, on a disk whose calls can fail or not. -/
inductive Does (faulty : Bool) : FileCall → Disk → Bool → Disk → Prop
  | openRead (f : File) (d : Disk) : Does faulty (.openRead f) d (d.content f).isSome d
  | rename {f g : File} {d : Disk} {c : Bytes} : d.content f = some c →
      Does faulty (.rename f g) d true ((d.set f none).set g (some c))
  | renameFails {f g : File} {d : Disk} : faulty = true ∨ d.content f = none →
      Does faulty (.rename f g) d false d
  | remove {f : File} {d : Disk} : d.content f ≠ none →
      Does faulty (.remove f) d true (d.set f none)
  | removeFails {f : File} {d : Disk} : faulty = true ∨ d.content f = none →
      Does faulty (.remove f) d false d
  | openWrite (d : Disk) : Does faulty .openWrite d true { d.set .config (some []) with writing := true }
  | openWriteFails {d : Disk} : faulty = true → Does faulty .openWrite d false d
  | fwrite {d : Disk} {c x : Bytes} : d.content .config = some c →
      Does faulty (.fwrite x) d true (d.set .config (some (c ++ x)))
  | fwriteFails {d : Disk} {c x : Bytes} (n : Nat) : faulty = true → d.content .config = some c →
      Does faulty (.fwrite x) d false (d.set .config (some (c ++ x.take n)))
  | fflush (d : Disk) : Does faulty .fflush d true d
  | fflushFails {d d' : Disk} : faulty = true → d.Truncated d' → d'.writing = d.writing →
      Does faulty .fflush d false d'
  | fileno (d : Disk) : Does faulty .fileno d true d
  | filenoFails {d : Disk} : faulty = true → Does faulty .fileno d false d
  | fsync (d : Disk) : Does faulty .fsync d true d
  | fsyncFails {d d' : Disk} : faulty = true → d.Truncated d' → d'.writing = d.writing →
      Does faulty .fsync d false d'
  | fclose (d : Disk) : Does faulty .fclose d true { d with writing := false }
  | fcloseFails {d d' : Disk} : faulty = true → d.Truncated d' → d'.writing = false →
      Does faulty .fclose d false d'

/-- What is left when the process is stopped. -/
def Loses (d d' : Disk) : Prop := d.Truncated d' ∧ d'.writing = false

/-! ## Runs -/

/-- What `writeConfig` is called with; `_position` is a `uint32_t`. -/
structure Payload where
  bytes : Bytes
  length_lt : bytes.length < 2 ^ 32

inductive Event
  | construct
  | write (v : Payload)

def program : Event → Program
  | .construct => new
  | .write v => writeConfig v.bytes

/-- The files, and whether there is a `Config` for them. -/
structure System where
  disk : Disk
  up : Bool

/-- An event that is carried out, or cut off with the whole process. Nothing is written before the
    constructor has run. -/
inductive Step (faulty : Bool) : System → Event × Bool → System → Prop
  | step {s : System} {e : Event} {r : Option Unit} {d : Disk} : (∀ v, e = .write v → s.up = true) →
      (program e).Outcome (Does faulty) Loses s.disk r d →
      Step faulty s (e, r.isSome) ⟨d, r.isSome⟩

/-! ## What a store is for -/

/-- What the constructor and `readConfig` find on a disk. -/
def recovered (d : Disk) : Option Bytes :=
  ((d.content .backup).orElse fun _ => d.content .config).bind readContent

/-- What a payload reads back as: nothing is read where there is nothing. -/
def Payload.value (v : Payload) : Option Bytes := if v.bytes = [] then none else some v.bytes

/-- A register that is written as a whole or not at all. A write that is carried out takes place,
    unless calls may fail. -/
inductive Register (faulty : Bool) : Option Bytes → Event × Bool → Option Bytes → Prop
  | construct (x : Option Bytes) (done : Bool) : Register faulty x (.construct, done) x
  | written (x : Option Bytes) (v : Payload) (done : Bool) : Register faulty x (.write v, done) v.value
  | lost (x : Option Bytes) (v : Payload) (done : Bool) : faulty = true ∨ done = false →
      Register faulty x (.write v, done) x

end ConfigFiles
end Net
end PtpCore
