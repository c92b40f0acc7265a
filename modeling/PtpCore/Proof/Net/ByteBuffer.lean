import PtpCore.Net.ByteBuffer
import PtpCore.Proof.Net.EntropyStore

/-!
# Written twice, read once

The size that the first pass calculates is the size of what the second pass writes: it fits exactly,
and what is read back with the same kinds is what was written. A buffer that is smaller is noticed.

No call leaves the memory of its buffer as long as a position and the bytes asked for stay below
`2 ^ 32`. A length read from the buffer itself is below `2 ^ 24`, so this is a matter of what the
writers are given. `writeBytes` adds before it compares and can be led astray; `readBytes` subtracts.
-/

namespace PtpCore
namespace Proof
namespace Net

open Lib PtpCore.Net PtpCore.Net.ByteBuffer

namespace ByteBuffer

/-! ## Bytes of a value -/

/-- A value as it stands in a buffer. -/
def encode : Value → Bytes
  | .int32 x => toLE 4 x.toNat
  | .int64 x => toLE 8 x.toNat
  | .bool value => toLE 4 (if value then boolTrue else boolFalse).toNat
  | .byte i => [i]
  | .bytes d => d
  | .string s => stringBlock s
  | .byteArray d => stringBlock d

def encodeAll (vs : List Value) : Bytes := vs.flatMap encode

/-- The length of a string has three bytes. -/
def Fits : Value → Prop
  | .string s => s.length < 2 ^ 24
  | .byteArray d => d.length < 2 ^ 24
  | _ => True

@[simp] theorem length_toLE (w n : Nat) : (toLE w n).length = w := by
  rw [toLE, List.length_reverse, length_toBE]

theorem ofLE_toLE (w n : Nat) : ofLE (toLE w n) = n % 256 ^ w := by
  rw [ofLE, toLE, List.reverse_reverse, ofBE_toBE]

theorem word_of_lt {n : Nat} (h : n < 2 ^ 32) : word n = n := Nat.mod_eq_of_lt h

theorem length_le_stringBlock (d : Bytes) : d.length ≤ (stringBlock d).length := by
  rw [length_stringBlock, NativeByteBuffer.stringCapacity]
  omega

/-! ## One field -/

/-- A buffer that is written and read. -/
structure Ok (b : ByteBuffer) : Prop where
  plain : b.calculateSizeOnly = false
  position : b.position ≤ b.limit
  limit : b.limit ≤ b.capacity
  capacity : b.capacity = b.buffer.length
  small : b.buffer.length < 2 ^ 32

variable {b : ByteBuffer} {d e : Bytes} {n : Nat}

theorem length_new (heap : Nat → UInt8) (size : Nat) : (new heap size).buffer.length = size := by
  rw [new, List.length_map, List.length_range]

theorem ok_new (heap : Nat → UInt8) {size : Nat} (h : size < 2 ^ 32) : Ok (new heap size) := by
  have hlen := length_new heap size
  exact ⟨rfl, Nat.zero_le _, Nat.le_refl _, hlen.symm, by rw [hlen]; exact h⟩

theorem Ok.limit_le (hb : Ok b) : b.limit ≤ b.buffer.length :=
  Nat.le_trans hb.limit (Nat.le_of_eq hb.capacity)

theorem Ok.fail (hb : Ok b) : Ok b.fail := ⟨hb.plain, hb.position, hb.limit, hb.capacity, hb.small⟩

theorem Ok.setPosition (hb : Ok b) {p : Nat} (hp : p ≤ b.limit) : Ok { b with position := p } :=
  ⟨hb.plain, hp, hb.limit, hb.capacity, hb.small⟩

theorem Ok.flip (hb : Ok b) : Ok b.flip :=
  ⟨hb.plain, Nat.zero_le _, Nat.le_trans hb.position hb.limit, hb.capacity, hb.small⟩

theorem past_iff (h : b.position + n < 2 ^ 32) : b.Past n ↔ b.limit < b.position + n := by
  rw [Past, word_of_lt h]

theorem load_eq (h : b.position + n ≤ b.buffer.length) :
    b.load n = some ((b.buffer.drop b.position).take n) := if_pos h

/-- The bytes have been written. -/
def wrote (b : ByteBuffer) (d : Bytes) : ByteBuffer :=
  { b with buffer := overwrite b.buffer b.position d, position := b.position + d.length }

theorem length_wrote (hb : Ok b) (h : b.position + d.length ≤ b.limit) :
    (wrote b d).buffer.length = b.buffer.length :=
  length_overwrite (Nat.le_trans h hb.limit_le)

theorem Ok.wrote (hb : Ok b) (h : b.position + d.length ≤ b.limit) : Ok (wrote b d) := by
  have hlen := length_wrote hb h
  exact ⟨hb.plain, h, hb.limit, hb.capacity.trans hlen.symm, by rw [hlen]; exact hb.small⟩

theorem wrote_wrote (hb : Ok b) (h : b.position + (d ++ e).length ≤ b.limit) :
    wrote (wrote b d) e = wrote b (d ++ e) := by
  have hfit := Nat.le_trans h hb.limit_le
  rw [List.length_append, ← Nat.add_assoc] at hfit
  rw [wrote, wrote, wrote, List.length_append, ← Nat.add_assoc, overwrite_overwrite (by omega)]

theorem take_wrote (hb : Ok b) (h : b.position + d.length ≤ b.limit) :
    (wrote b d).buffer.take (wrote b d).position = b.buffer.take b.position ++ d :=
  take_overwrite_add (Nat.le_trans (Nat.le_trans (Nat.le_add_right ..) h) hb.limit_le)

theorem field_fits (hb : Ok b) (h : b.position + d.length ≤ b.limit) :
    b.field d = some (wrote b d, true) := by
  have hle := Nat.le_trans h hb.limit_le
  have hlt := Nat.lt_of_le_of_lt hle hb.small
  rw [field, hb.plain, if_neg Bool.false_ne_true, if_neg (by rw [past_iff hlt]; omega), store,
    if_pos hle, word_of_lt hlt]
  rfl

theorem field_fails (hb : Ok b) (hlt : b.position + d.length < 2 ^ 32)
    (h : b.limit < b.position + d.length) : b.field d = some (b.fail, false) := by
  rw [field, hb.plain, if_neg Bool.false_ne_true, if_pos ((past_iff hlt).mpr h)]

/-- The bytes have been counted. -/
def counted (b : ByteBuffer) (n : Nat) : ByteBuffer :=
  { b with capacity := word (b.capacity + n) }

theorem counted_counted (m : Nat) : counted (counted b m) n = counted b (m + n) := by
  simp only [counted, word, Nat.mod_add_mod, Nat.add_assoc]

theorem field_calculate (hb : b.calculateSizeOnly = true) :
    b.field d = some (counted b d.length, true) := by
  rw [field, if_pos hb]
  rfl

/-! ## Writing -/

/-- What a write has done: all of it, or the flag is set. -/
structure Writes (b b' : ByteBuffer) (d : Bytes) : Prop where
  ok : Ok b'
  length : b'.buffer.length = b.buffer.length
  limit : b'.limit = b.limit
  done : b.position + d.length ≤ b.limit → b' = wrote b d
  failed : b.limit < b.position + d.length → b'.error = true
  sticky : b.error = true → b'.error = true

theorem writes_wrote (hb : Ok b) (h : b.position + d.length ≤ b.limit) : Writes b (wrote b d) d where
  ok := hb.wrote h
  length := length_wrote hb h
  limit := rfl
  done _ := rfl
  failed h' := absurd h (Nat.not_le.mpr h')
  sticky herror := herror

theorem writes_fail (hb : Ok b) (h : b.limit < b.position + d.length) : Writes b b.fail d where
  ok := hb.fail
  length := rfl
  limit := rfl
  done h' := absurd h' (Nat.not_le.mpr h)
  failed _ := rfl
  sticky _ := rfl

theorem writes_field (hb : Ok b) (hlt : b.position + d.length < 2 ^ 32) :
    ∃ b', (b.field d).map Prod.fst = some b' ∧ Writes b b' d := by
  by_cases h : b.position + d.length ≤ b.limit
  · exact ⟨_, congrArg (Option.map Prod.fst) (field_fits hb h), writes_wrote hb h⟩
  · exact ⟨_, congrArg (Option.map Prod.fst) (field_fails hb hlt (Nat.not_le.mp h)),
      writes_fail hb (Nat.not_le.mp h)⟩

/-- A field and what is written behind it if there was room for it. -/
theorem Writes.wrote {b' : ByteBuffer} (hb : Ok b) (h : b.position + d.length ≤ b.limit)
    (hw : Writes (wrote b d) b' e) : Writes b b' (d ++ e) where
  ok := hw.ok
  length := hw.length.trans (length_wrote hb h)
  limit := hw.limit
  done hfit := by
    rw [← wrote_wrote hb hfit]
    rw [List.length_append, ← Nat.add_assoc] at hfit
    exact hw.done hfit
  failed hfail := by
    rw [List.length_append, ← Nat.add_assoc] at hfail
    exact hw.failed hfail
  sticky := hw.sticky

theorem writes_byteArray (hb : Ok b) (hlt : b.position + (stringBlock d).length < 2 ^ 32) :
    ∃ b', b.writeByteArray d = some b' ∧ Writes b b' (stringBlock d) := by
  rw [stringBlock, List.append_assoc] at hlt ⊢
  rw [List.length_append, List.length_append, ← Nat.add_assoc, ← Nat.add_assoc] at hlt
  rw [writeByteArray]
  by_cases hhead : b.position + (NativeByteBuffer.lengthBytes d.length).length ≤ b.limit
  · have hok := hb.wrote hhead
    rw [field_fits hb hhead]
    by_cases hbody : (wrote b (NativeByteBuffer.lengthBytes d.length)).position + d.length ≤ b.limit
    · obtain ⟨b', hb', hw⟩ := writes_field (hok.wrote hbody) (d := List.replicate
        (NativeByteBuffer.addition d.length (if d.length ≤ 253 then 1 else 4)) 0) hlt
      dsimp only
      rw [field_fits hok hbody]
      exact ⟨b', hb', (hw.wrote hok hbody).wrote hb hhead⟩
    · have hfail := Nat.not_le.mp hbody
      dsimp only
      rw [field_fails hok (by rw [ByteBuffer.wrote]; dsimp only; omega) hfail]
      refine ⟨_, rfl, Writes.wrote hb hhead (writes_fail hok ?_)⟩
      rw [List.length_append]
      have hsame : (wrote b (NativeByteBuffer.lengthBytes d.length)).limit = b.limit := rfl
      omega
  · have hfail := Nat.not_le.mp hhead
    rw [field_fails hb (by omega) hfail]
    refine ⟨_, rfl, writes_fail hb ?_⟩
    rw [List.length_append]
    omega

theorem writes_write (hb : Ok b) (v : Value) (hlt : b.position + (encode v).length < 2 ^ 32) :
    ∃ b', b.write v = some b' ∧ Writes b b' (encode v) := by
  cases v with
  | int32 x | int64 x | byte i | bytes d => exact writes_field hb hlt
  | bool value => exact writes_field hb hlt
  | string s =>
    have hlen := length_le_stringBlock s
    have hword : word s.length = s.length := word_of_lt (by rw [encode] at hlt; omega)
    rw [write, writeString, hword, List.take_length]
    exact writes_byteArray hb hlt
  | byteArray d => exact writes_byteArray hb hlt

theorem calculate_byteArray (hb : b.calculateSizeOnly = true) :
    b.writeByteArray d = some (counted b (stringBlock d).length) := by
  have hhead : (counted b (NativeByteBuffer.lengthBytes d.length).length).calculateSizeOnly = true :=
    hb
  rw [writeByteArray, field_calculate hb]
  dsimp only
  rw [field_calculate hhead]
  dsimp only
  rw [field_calculate (b := counted (counted b _) _) hhead, counted_counted, counted_counted, Option.map_some,
    stringBlock, List.length_append, List.length_append, Nat.add_assoc]

/-- The first pass counts what the second one writes. -/
theorem calculate_write (hb : b.calculateSizeOnly = true) {v : Value}
    (hlt : (encode v).length < 2 ^ 32) :
    b.write v = some (counted b (encode v).length) := by
  cases v with
  | int32 x | int64 x | byte i | bytes d =>
    exact congrArg (Option.map Prod.fst) (field_calculate hb)
  | bool value => exact congrArg (Option.map Prod.fst) (field_calculate hb)
  | string s =>
    have hlen := length_le_stringBlock s
    have hword : word s.length = s.length := word_of_lt (by rw [encode] at hlt; omega)
    rw [write, writeString, hword, List.take_length]
    exact calculate_byteArray hb
  | byteArray d => exact calculate_byteArray hb

/-! ## Reading -/

/-- The position after a read. -/
def adv (b : ByteBuffer) (n : Nat) : ByteBuffer := { b with position := b.position + n }

theorem Ok.adv (hb : Ok b) (h : b.position + n ≤ b.limit) : Ok (adv b n) := hb.setPosition h

/-- The next bytes of the buffer, in front of its limit. -/
structure Next (b : ByteBuffer) (d : Bytes) : Prop where
  ok : Ok b
  fits : b.position + d.length ≤ b.limit
  bytes : ∃ rest, b.buffer.drop b.position = d ++ rest

theorem Next.left (h : Next b (d ++ e)) : Next b d := by
  obtain ⟨rest, hrest⟩ := h.bytes
  have hfits := h.fits
  rw [List.length_append] at hfits
  exact ⟨h.ok, by omega, e ++ rest, by rw [hrest, List.append_assoc]⟩

theorem Next.right (h : Next b (d ++ e)) : Next (adv b d.length) e := by
  obtain ⟨rest, hrest⟩ := h.bytes
  have hfits := h.fits
  rw [List.length_append, ← Nat.add_assoc] at hfits
  refine ⟨h.ok.adv (by omega), hfits, rest, ?_⟩
  rw [adv, ← List.drop_drop, hrest, List.append_assoc, List.drop_left]

theorem Next.lt (h : Next b d) : b.position + d.length < 2 ^ 32 :=
  Nat.lt_of_le_of_lt (Nat.le_trans h.fits h.ok.limit_le) h.ok.small

theorem Next.not_past (h : Next b d) : ¬b.Past d.length := by
  rw [past_iff h.lt]
  exact Nat.not_lt.mpr h.fits

theorem Next.load (h : Next b d) : b.load d.length = some d := by
  obtain ⟨rest, hrest⟩ := h.bytes
  rw [load_eq (Nat.le_trans h.fits h.ok.limit_le), hrest, List.take_left]

theorem readFixed_next (h : Next b d) : b.readFixed d.length = some (ofLE d, adv b d.length) := by
  rw [readFixed, if_neg h.not_past, h.load, word_of_lt h.lt]
  rfl

theorem readFixed_toLE {w : Nat} (h : Next b (toLE w n)) :
    b.readFixed w = some (n % 256 ^ w, adv b w) := by
  have hread := readFixed_next h
  rwa [length_toLE, ofLE_toLE] at hread

theorem remaining_eq (hb : Ok b) : b.remaining = b.limit - b.position := by
  have hpos := hb.position
  have hlim := hb.limit_le
  have hsmall := hb.small
  rw [remaining, word]
  omega

theorem readBytes_next (h : Next b d) :
    b.readBytes d.length = some (some d, adv b d.length) := by
  have hfits := h.fits
  rw [readBytes, remaining_eq h.ok, if_neg (by omega), h.load, word_of_lt h.lt]
  rfl

/-- The end of a string, with its length known. -/
theorem readBody_next {sl : Nat}
    (h : Next b (d ++ List.replicate (NativeByteBuffer.addition d.length sl) 0)) :
    b.readBody d.length sl =
      some (some d, adv b (d.length + NativeByteBuffer.addition d.length sl)) := by
  have hpast := h.not_past
  have hlt := h.lt
  rw [List.length_append, List.length_replicate] at hpast hlt
  rw [readBody, if_neg hpast, h.left.load, word_of_lt hlt]
  rfl

theorem adv_adv (m n : Nat) : adv (adv b m) n = adv b (m + n) := by
  rw [adv, adv, adv, Nat.add_assoc]

theorem lengthBytes_long (h : ¬n ≤ 253) :
    NativeByteBuffer.lengthBytes n = [254] ++ toLE 3 n := by
  rw [NativeByteBuffer.lengthBytes, if_neg h]
  simp only [toLE, toBE, List.nil_append, List.cons_append, Nat.div_div_eq_div_mul,
    List.reverse_cons, List.reverse_nil]
  rfl

theorem readByteArray_next (h : Next b (stringBlock d)) (hd : d.length < 2 ^ 24) :
    b.readByteArray = some (some d, adv b (stringBlock d).length) := by
  rw [stringBlock, List.append_assoc] at h
  have hhead := h.left
  have hbody := h.right
  have hlen : (stringBlock d).length = (NativeByteBuffer.lengthBytes d.length).length +
      (d.length + NativeByteBuffer.addition d.length (if d.length ≤ 253 then 1 else 4)) := by
    rw [stringBlock, List.length_append, List.length_append, List.length_replicate, Nat.add_assoc]
  rw [hlen, ← adv_adv, readByteArray]
  by_cases hshort : d.length ≤ 253
  · have hbytes : NativeByteBuffer.lengthBytes d.length = [UInt8.ofNat d.length] := if_pos hshort
    rw [hbytes] at hhead hbody ⊢
    have hl : ofLE [UInt8.ofNat d.length] = d.length := by
      have hbyte : ofLE (toLE 1 d.length) = d.length := by
        rw [ofLE_toLE]
        omega
      exact hbyte
    rw [if_pos hshort] at hbody ⊢
    have hpast : ¬b.Past 1 := hhead.not_past
    have hload : b.load 1 = some [UInt8.ofNat d.length] := hhead.load
    have hword : word (b.position + 1) = b.position + 1 := word_of_lt hhead.lt
    rw [if_neg hpast, hload]
    dsimp only
    rw [hl, hword, if_neg (by omega)]
    exact readBody_next hbody
  · rw [lengthBytes_long hshort] at hhead hbody ⊢
    have hfirst := hhead.left
    have hthree := hhead.right
    have hl : ofLE (toLE 3 d.length) = d.length := by
      rw [ofLE_toLE]
      omega
    rw [if_neg hshort] at hbody ⊢
    have hpast : ¬b.Past 1 := hfirst.not_past
    have hload : b.load 1 = some [254] := hfirst.load
    have hword : word (b.position + 1) = b.position + 1 := word_of_lt hfirst.lt
    have hpast' : ¬(adv b 1).Past 3 := hthree.not_past
    have hload' : (adv b 1).load 3 = some (toLE 3 d.length) := hthree.load
    have hword' : word (b.position + 1 + 3) = b.position + 1 + 3 := word_of_lt hthree.lt
    rw [if_neg hpast, hload]
    dsimp only
    dsimp only [adv] at hpast' hload'
    rw [hword, if_pos (by decide), if_neg hpast', hload', hword']
    dsimp only
    rw [hl]
    exact readBody_next hbody

theorem readInt32_next {x : UInt32} (h : Next b (toLE 4 x.toNat)) :
    b.readInt32 = some (x, adv b 4) := by
  have hlt := x.toNat_lt
  rw [readInt32, readFixed_toLE h, Nat.mod_eq_of_lt (by omega), Option.map_some]
  dsimp only
  rw [UInt32.ofNat_toNat]

theorem readInt64_next {x : UInt64} (h : Next b (toLE 8 x.toNat)) :
    b.readInt64 = some (x, adv b 8) := by
  have hlt := x.toNat_lt
  rw [readInt64, readFixed_toLE h, Nat.mod_eq_of_lt (by omega), Option.map_some]
  dsimp only
  rw [UInt64.ofNat_toNat]

theorem readByte_next {i : UInt8} (h : Next b [i]) : b.readByte = some (i, adv b 1) := by
  have hread : b.readFixed 1 = some (ofLE [i], adv b 1) := readFixed_next h
  have hi : ofLE [i] = i.toNat := by simp [ofLE, ofBE]
  rw [readByte, hread, hi, Option.map_some]
  dsimp only
  rw [UInt8.ofNat_toNat]

/-- What was written as a value is read as one. -/
theorem read_next {v : Value} (h : Next b (encode v)) (hv : Fits v) :
    b.read v.kind = some (some v, adv b (encode v).length) := by
  cases v with
  | int32 x =>
    rw [Value.kind, ByteBuffer.read, readInt32_next h, encode, length_toLE]
    rfl
  | int64 x =>
    rw [Value.kind, ByteBuffer.read, readInt64_next h, encode, length_toLE]
    rfl
  | bool value =>
    rw [Value.kind, ByteBuffer.read, readBool, readInt32_next h, encode, length_toLE]
    cases value <;> rfl
  | byte i =>
    rw [Value.kind, ByteBuffer.read, readByte_next h]
    rfl
  | bytes d =>
    have hread := readBytes_next h
    rw [Value.kind, ByteBuffer.read, show b.readBytes d.length = _ from hread]
    rfl
  | string s =>
    rw [Value.kind, ByteBuffer.read, readString, readByteArray_next h hv]
    rfl
  | byteArray d =>
    rw [Value.kind, ByteBuffer.read, readByteArray_next h hv]
    rfl

/-! ## Both passes, and back -/

theorem encodeAll_cons (v : Value) (vs : List Value) :
    encodeAll (v :: vs) = encode v ++ encodeAll vs := List.flatMap_cons

theorem calculate_writeAll (hb : b.calculateSizeOnly = true) {vs : List Value}
    (hlt : b.capacity + (encodeAll vs).length < 2 ^ 32) :
    b.writeAll vs = some (counted b (encodeAll vs).length) := by
  induction vs generalizing b with
  | nil =>
    rw [writeAll, encodeAll, List.flatMap_nil, List.length_nil, counted, Nat.add_zero,
      word_of_lt (by simpa [encodeAll] using hlt)]
  | cons v vs ih =>
    rw [encodeAll_cons, List.length_append] at hlt ⊢
    have hword : word (b.capacity + (encode v).length) = b.capacity + (encode v).length :=
      word_of_lt (by omega)
    have hcap : (counted b (encode v).length).capacity = b.capacity + (encode v).length := hword
    have hrest := @ih (counted b (encode v).length) hb (by omega)
    rw [writeAll, calculate_write hb (by omega), Option.bind_some, hrest, counted_counted]

theorem writeAll_fits (hb : Ok b) {vs : List Value}
    (hfit : b.position + (encodeAll vs).length ≤ b.limit) :
    b.writeAll vs = some (wrote b (encodeAll vs)) := by
  induction vs generalizing b with
  | nil =>
    have hnil : wrote b [] = b := by
      rw [wrote, overwrite, List.nil_append, List.length_nil, Nat.add_zero, List.take_append_drop]
    rw [writeAll, encodeAll, List.flatMap_nil, hnil]
  | cons v vs ih =>
    rw [encodeAll_cons] at hfit ⊢
    have hsmall := Nat.lt_of_le_of_lt (Nat.le_trans hfit hb.limit_le) hb.small
    have hassoc := hfit
    rw [List.length_append] at hassoc hsmall
    obtain ⟨b', hb', hw⟩ := writes_write hb v (by omega)
    obtain rfl := hw.done (by omega)
    rw [writeAll, hb', Option.bind_some, ← wrote_wrote hb hfit]
    refine ih hw.ok ?_
    rw [← Nat.add_assoc] at hassoc
    exact hassoc

/-- A buffer that is too small sets the flag. -/
theorem writeAll_fails (hb : Ok b) {vs : List Value}
    (hlt : ∀ v ∈ vs, b.buffer.length + (encode v).length < 2 ^ 32)
    (hfail : b.error = true ∨ b.limit < b.position + (encodeAll vs).length) :
    ∃ b', b.writeAll vs = some b' ∧ b'.error = true := by
  induction vs generalizing b with
  | nil =>
    have hpos := hb.position
    rcases hfail with herror | hfail
    · exact ⟨b, rfl, herror⟩
    · rw [encodeAll, List.flatMap_nil, List.length_nil] at hfail
      omega
  | cons v vs ih =>
    have hv := hlt v List.mem_cons_self
    have hpos := Nat.le_trans hb.position hb.limit_le
    obtain ⟨b', hb', hw⟩ := writes_write hb v (by omega)
    have hrest : b'.error = true ∨ b'.limit < b'.position + (encodeAll vs).length := by
      rcases hfail with herror | hfail
      · exact .inl (hw.sticky herror)
      · by_cases hfit : b.position + (encode v).length ≤ b.limit
        · rw [hw.limit, hw.done hfit]
          rw [encodeAll_cons, List.length_append, ← Nat.add_assoc] at hfail
          exact .inr hfail
        · exact .inl (hw.failed (Nat.not_le.mp hfit))
    obtain ⟨b'', hb'', herror⟩ := ih hw.ok (fun u hu => by
      rw [hw.length]
      exact hlt u (List.mem_cons_of_mem v hu)) hrest
    exact ⟨b'', by rw [writeAll, hb', Option.bind_some, hb''], herror⟩

theorem readAll_next {vs : List Value} (h : Next b (encodeAll vs)) (hvs : ∀ v ∈ vs, Fits v) :
    b.readAll (vs.map Value.kind) = some (vs.map some, adv b (encodeAll vs).length) := by
  induction vs generalizing b with
  | nil => rfl
  | cons v vs ih =>
    rw [encodeAll_cons] at h
    have hrest := ih h.right fun u hu => hvs u (List.mem_cons_of_mem v hu)
    rw [List.map_cons, readAll, read_next h.left (hvs v List.mem_cons_self), Option.bind_some]
    dsimp only
    rw [hrest, Option.map_some, adv_adv, encodeAll_cons, List.length_append, List.map_cons]

/-- The first pass calculates the size with which the second one succeeds, the values are read back
    from its bytes, and a buffer of any other size is just big enough or sets the flag. -/
theorem two_passes (heap : Nat → UInt8) {vs : List Value} (hvs : ∀ v ∈ vs, Fits v)
    (hsize : (encodeAll vs).length < 2 ^ 32) :
    calculate.writeAll vs = some { calculate with capacity := (encodeAll vs).length } ∧
      (∃ b, (new heap (encodeAll vs).length).writeAll vs = some b ∧ b.error = false ∧
        b.buffer = encodeAll vs ∧ b.position = b.limit ∧
        b.flip.readAll (vs.map Value.kind) =
          some (vs.map some, adv b.flip (encodeAll vs).length)) ∧
      ∀ size, (∀ v ∈ vs, size + (encode v).length < 2 ^ 32) → size < 2 ^ 32 →
        ∃ b, (new heap size).writeAll vs = some b ∧
          (b.error = false ↔ (encodeAll vs).length ≤ size) := by
  have hempty : calculate.capacity + (encodeAll vs).length = (encodeAll vs).length :=
    Nat.zero_add _
  refine ⟨?_, ?_, ?_⟩
  · rw [calculate_writeAll rfl (by omega), counted, hempty, word_of_lt hsize]
  · have hok := ok_new heap hsize
    have hlen := length_new heap (encodeAll vs).length
    have hfit : (new heap (encodeAll vs).length).position + (encodeAll vs).length ≤
        (new heap (encodeAll vs).length).limit := Nat.le_of_eq (Nat.zero_add _)
    have hall : (wrote (new heap (encodeAll vs).length) (encodeAll vs)).buffer = encodeAll vs := by
      have hdrop : (new heap (encodeAll vs).length).buffer.drop (0 + (encodeAll vs).length) = [] :=
        List.drop_eq_nil_of_le (by omega)
      have hover : (wrote (new heap (encodeAll vs).length) (encodeAll vs)).buffer =
          encodeAll vs ++ (new heap (encodeAll vs).length).buffer.drop
            (0 + (encodeAll vs).length) := rfl
      rw [hover, hdrop, List.append_nil]
    refine ⟨_, writeAll_fits hok hfit, rfl, hall, Nat.zero_add _, ?_⟩
    refine readAll_next ⟨(hok.wrote hfit).flip, Nat.le_refl _, [], ?_⟩ hvs
    rw [List.append_nil]
    exact hall
  · intro size hlt hsmall
    have hok := ok_new heap hsmall
    by_cases hfit : (encodeAll vs).length ≤ size
    · have hroom : (new heap size).position + (encodeAll vs).length ≤ (new heap size).limit := by
        rw [show (new heap size).position = 0 from rfl, Nat.zero_add]
        exact hfit
      exact ⟨_, writeAll_fits hok hroom, fun _ => hfit, fun _ => rfl⟩
    · have hover : (new heap size).limit < (new heap size).position + (encodeAll vs).length := by
        rw [show (new heap size).position = 0 from rfl, Nat.zero_add]
        exact Nat.not_le.mp hfit
      obtain ⟨b, hb, herror⟩ := writeAll_fails hok (by rwa [length_new]) (.inr hover)
      refine ⟨b, hb, fun hnone => ?_, fun hle => absurd hle hfit⟩
      rw [herror] at hnone
      exact nomatch hnone

/-! ## Inside of the memory -/

/-- A read that stays inside, whatever the bytes are. -/
def Reads {α : Type} (b : ByteBuffer) (r : Option (α × ByteBuffer)) : Prop :=
  ∃ x b', r = some (x, b') ∧ Ok b' ∧ b'.buffer.length = b.buffer.length

theorem Reads.map {α β : Type} {r : Option (α × ByteBuffer)} (h : Reads b r)
    {f : α × ByteBuffer → β × ByteBuffer} (hf : ∀ x b', Ok b' →
      Ok (f (x, b')).2 ∧ (f (x, b')).2.buffer.length = b'.buffer.length) : Reads b (r.map f) := by
  obtain ⟨x, b', rfl, hok, hlen⟩ := h
  obtain ⟨hok', hlen'⟩ := hf x b' hok
  exact ⟨_, _, rfl, hok', hlen'.trans hlen⟩

theorem reads_fail {α : Type} (hb : Ok b) (x : α) : Reads b (some (x, b.fail)) :=
  ⟨x, b.fail, rfl, hb.fail, rfl⟩

/-- A test for `n` bytes, and a read of some of them. -/
theorem reads_load {α : Type} (hb : Ok b) (hlt : b.position + n < 2 ^ 32) {m : Nat} (hm : m ≤ n)
    (x : α) (f : Bytes → α) :
    Reads b (if b.Past n then some (x, b.fail)
      else (b.load m).map fun d => (f d, { b with position := word (b.position + n) })) := by
  by_cases hpast : b.Past n
  · rw [if_pos hpast]
    exact reads_fail hb x
  · rw [past_iff hlt] at hpast
    have hlim := hb.limit_le
    rw [if_neg (by rwa [past_iff hlt]), load_eq (by omega), word_of_lt hlt]
    exact ⟨_, _, rfl, hb.setPosition (Nat.not_lt.mp hpast), rfl⟩

theorem addition_lt (l sl : Nat) : NativeByteBuffer.addition l sl < 4 := by
  rw [NativeByteBuffer.addition]
  split <;> omega

theorem reads_readBody (hb : Ok b) {l sl : Nat} (hlt : b.position + l + 4 < 2 ^ 32) :
    Reads b (b.readBody l sl) := by
  have hadd := addition_lt l sl
  exact reads_load hb (by omega) (Nat.le_add_right ..) none some

/-- The room that a length in the buffer can ask for. -/
def Roomy (b : ByteBuffer) : Prop := b.buffer.length + 2 ^ 24 + 8 < 2 ^ 32

theorem Reads.of_length {α : Type} {b' : ByteBuffer} {r : Option (α × ByteBuffer)}
    (h : Reads b' r) (hlen : b'.buffer.length = b.buffer.length) : Reads b r := by
  obtain ⟨x, b'', hr, hok, hlen'⟩ := h
  exact ⟨x, b'', hr, hok, hlen'.trans hlen⟩

theorem ofLE_lt (d : Bytes) : ofLE d < 256 ^ d.length := by
  have hlt := ofBE_lt d.reverse
  rwa [List.length_reverse] at hlt

theorem reads_readByteArray (hb : Ok b) (hroom : Roomy b) : Reads b b.readByteArray := by
  have hpos := Nat.le_trans hb.position hb.limit_le
  rw [Roomy] at hroom
  have hlt : b.position + 1 < 2 ^ 32 := by omega
  rw [readByteArray]
  by_cases hpast : b.Past 1
  · rw [if_pos hpast]
    exact reads_fail hb none
  rw [if_neg hpast]
  rw [past_iff hlt, Nat.not_lt] at hpast
  have hlim := hb.limit_le
  have hok : Ok { b with position := b.position + 1 } := hb.setPosition hpast
  rw [load_eq (by omega), word_of_lt hlt]
  dsimp only
  split
  · have hlt' : b.position + 1 + 3 < 2 ^ 32 := by omega
    split
    · exact reads_fail hok none
    rename_i hpast'
    have hfit : b.position + 1 + 3 ≤ b.limit :=
      Nat.not_lt.mp ((past_iff (b := adv b 1) hlt').not.mp hpast')
    rw [load_eq (by dsimp only; omega), word_of_lt hlt']
    dsimp only
    have hl := ofLE_lt ((b.buffer.drop (b.position + 1)).take 3)
    have hthree := List.length_take_le 3 (b.buffer.drop (b.position + 1))
    have hpow : 256 ^ ((b.buffer.drop (b.position + 1)).take 3).length ≤ 256 ^ 3 :=
      Nat.pow_le_pow_right (by decide) hthree
    refine (reads_readBody (hb.setPosition hfit) ?_).of_length rfl
    dsimp only
    omega
  · refine (reads_readBody hok ?_).of_length rfl
    dsimp only
    omega

theorem reads_readBytes (hb : Ok b) (n : Nat) : Reads b (b.readBytes n) := by
  rw [readBytes, remaining_eq hb]
  have hlim := hb.limit_le
  have hpos := hb.position
  have hsmall := hb.small
  split
  · exact reads_fail hb none
  · rw [load_eq (by omega), word_of_lt (by omega)]
    exact ⟨_, _, rfl, hb.setPosition (by omega), rfl⟩

theorem reads_read (hb : Ok b) (hroom : Roomy b) (k : Kind) : Reads b (b.read k) := by
  have hpos := Nat.le_trans hb.position hb.limit_le
  have hfixed : ∀ n, n ≤ 8 → Reads b (b.readFixed n) := by
    intro n hn
    rw [Roomy] at hroom
    exact reads_load hb (by omega) (Nat.le_refl n) 0 ofLE
  have hsame : ∀ {α β : Type} (f : α → β) (x : α) (b' : ByteBuffer), Ok b' →
      Ok (f x, b').2 ∧ (f x, b').2.buffer.length = b'.buffer.length :=
    fun f x b' hok => ⟨hok, rfl⟩
  cases k with
  | int32 => exact ((hfixed 4 (by decide)).map (hsame UInt32.ofNat)).map (hsame _)
  | int64 => exact ((hfixed 8 (by decide)).map (hsame UInt64.ofNat)).map (hsame _)
  | bool =>
    refine (((hfixed 4 (by decide)).map (hsame UInt32.ofNat)).map fun x b' hok => ?_).map (hsame _)
    dsimp only
    split
    · exact ⟨hok, rfl⟩
    · split
      · exact ⟨hok, rfl⟩
      · exact ⟨hok.fail, rfl⟩
  | byte => exact ((hfixed 1 (by decide)).map (hsame UInt8.ofNat)).map (hsame _)
  | bytes length => exact (reads_readBytes hb length).map (hsame _)
  | string => exact ((reads_readByteArray hb hroom).map (hsame fun d => d.getD [])).map (hsame _)
  | byteArray => exact (reads_readByteArray hb hroom).map (hsame _)

/-- Lengths that callers choose stay in 32 bits. -/
def Modest (size : Nat) : Op → Prop
  | .skip length => size + length < 2 ^ 32
  | .write v => size + (encode v).length < 2 ^ 32
  | .writeBuffer src => Ok src ∧ size + src.remaining < 2 ^ 32
  | _ => True

theorem apply_inside (hb : Ok b) (hroom : Roomy b) {op : Op} (hop : Modest b.buffer.length op) :
    ∃ b', b.apply op = some b' ∧ Ok b' ∧ b'.buffer.length = b.buffer.length := by
  have hpos := hb.position
  have hlim := hb.limit_le
  have hsmall := hb.small
  cases op with
  | setPosition p =>
    refine ⟨_, rfl, ?_⟩
    rw [ByteBuffer.setPosition]
    split
    · exact ⟨hb, rfl⟩
    · exact ⟨hb.setPosition (Nat.not_lt.mp ‹_›), rfl⟩
  | setLimit l =>
    refine ⟨_, rfl, ?_⟩
    rw [setLimit]
    split
    · exact ⟨hb, rfl⟩
    · refine ⟨⟨hb.plain, ?_, Nat.not_lt.mp ‹_›, hb.capacity, hb.small⟩, rfl⟩
      dsimp only
      split <;> omega
  | clearCapacity =>
    refine ⟨b, ?_, hb, rfl⟩
    rw [apply, clearCapacity, hb.plain]
    rfl
  | flip => exact ⟨_, rfl, hb.flip, rfl⟩
  | clear => exact ⟨_, rfl, ⟨hb.plain, Nat.zero_le _, Nat.le_refl _, hb.capacity, hb.small⟩, rfl⟩
  | rewind => exact ⟨_, rfl, hb.setPosition (Nat.zero_le _), rfl⟩
  | skip n =>
    have hlt : b.position + n < 2 ^ 32 := by
      rw [Modest] at hop
      omega
    refine ⟨_, rfl, ?_⟩
    rw [skip, if_neg (by rw [hb.plain]; exact Bool.false_ne_true), word_of_lt hlt]
    split
    · exact ⟨hb, rfl⟩
    · rename_i hpast
      rw [past_iff hlt, Nat.not_lt] at hpast
      exact ⟨hb.setPosition hpast, rfl⟩
  | compact =>
    rw [apply, compact]
    split
    · exact ⟨b, rfl, hb, rfl⟩
    · rw [remaining_eq hb, load_eq (by omega)]
      have hlen : ((b.buffer.drop b.position).take (b.limit - b.position)).length =
          b.limit - b.position := by
        rw [List.length_take, List.length_drop]
        omega
      have hsame : (overwrite b.buffer 0
          ((b.buffer.drop b.position).take (b.limit - b.position))).length = b.buffer.length :=
        length_overwrite (by omega)
      have hcap := hb.capacity
      refine ⟨_, rfl, ⟨hb.plain, ?_, Nat.le_refl _, hcap.trans hsame.symm, ?_⟩, hsame⟩
      · dsimp only
        omega
      · rw [hsame]
        exact hsmall
  | write v =>
    rw [Modest] at hop
    obtain ⟨b', hb', hw⟩ := writes_write hb v (by omega)
    exact ⟨b', hb', hw.ok, hw.length⟩
  | writeBuffer src =>
    obtain ⟨hsrc, hlt⟩ := hop
    have hrem := remaining_eq hsrc
    have hle := hsrc.limit_le
    have hsp := hsrc.position
    rw [apply, writeBytesBuffer]
    split
    · exact ⟨b, rfl, hb, rfl⟩
    · have hload : src.load src.remaining =
          some ((src.buffer.drop src.position).take src.remaining) := load_eq (by omega)
      have hlen : ((src.buffer.drop src.position).take src.remaining).length = src.remaining := by
        rw [List.length_take, List.length_drop]
        omega
      rw [hb.plain, if_neg Bool.false_ne_true, hload, Option.bind_some]
      by_cases hpast : b.Past src.remaining
      · rw [if_pos hpast]
        exact ⟨_, rfl, hb.fail, rfl⟩
      · rw [if_neg hpast]
        rw [past_iff (by omega), Nat.not_lt] at hpast
        rw [store, if_pos (by omega), word_of_lt (by omega)]
        have hfit : b.position +
            ((src.buffer.drop src.position).take src.remaining).length ≤ b.limit := by omega
        exact ⟨_, rfl, hb.wrote hfit, length_wrote hb hfit⟩
  | read k =>
    obtain ⟨x, b', hr, hok, hlen⟩ := reads_read hb hroom k
    exact ⟨b', by rw [apply, hr]; rfl, hok, hlen⟩
  | readBigInt32 =>
    rw [Roomy] at hroom
    obtain ⟨x, b', hr, hok, hlen⟩ := reads_load hb (n := 4) (by omega) (Nat.le_refl 4) (0 : UInt32)
      fun d => UInt32.ofNat (ofBE d)
    exact ⟨b', by rw [apply, readBigInt32, hr]; rfl, hok, hlen⟩

/-- No run of calls on a buffer reads or writes outside of its memory, whatever it holds. -/
theorem run_inside (heap : Nat → UInt8) {size : Nat} (hsize : size + 2 ^ 24 + 8 < 2 ^ 32)
    {ops : List Op} (hops : ∀ op ∈ ops, Modest size op) :
    ∃ b, (new heap size).applyAll ops = some b ∧ Ok b ∧ b.buffer.length = size := by
  have hrun : ∀ b : ByteBuffer, Ok b → b.buffer.length = size →
      ∃ b', b.applyAll ops = some b' ∧ Ok b' ∧ b'.buffer.length = size := by
    induction ops with
    | nil => exact fun b hb hlen => ⟨b, rfl, hb, hlen⟩
    | cons op ops ih =>
      intro b hb hlen
      have hop := hops op List.mem_cons_self
      rw [← hlen] at hop
      obtain ⟨b', hb', hok, hlen'⟩ := apply_inside hb (by rw [Roomy, hlen]; exact hsize) hop
      obtain ⟨b'', hb'', hlast⟩ := ih (fun op' hop' => hops op' (List.mem_cons_of_mem op hop')) b' hok
        (hlen'.trans hlen)
      exact ⟨b'', by rw [applyAll, hb', Option.bind_some, hb''], hlast⟩
  exact hrun _ (ok_new heap (by omega)) (length_new heap size)

/-- `writeBytes` leaves the memory of its buffer just when position and length together pass
    `2 ^ 32` and come out again in front of the limit. `readBytes`, which subtracts, never does. -/
theorem writeBytes_outside_iff (hb : Ok b) (hd : d.length < 2 ^ 32) :
    (b.writeBytes d = none ↔
      2 ^ 32 ≤ b.position + d.length ∧ b.position + d.length - 2 ^ 32 ≤ b.limit) ∧
    ∀ n, b.readBytes n ≠ none := by
  have hlim := hb.limit_le
  have hsmall := hb.small
  have hpos := hb.position
  refine ⟨?_, fun n hnone => ?_⟩
  · by_cases hlt : b.position + d.length < 2 ^ 32
    · obtain ⟨b', hb', -⟩ := writes_field hb hlt
      rw [writeBytes, hb']
      exact ⟨nofun, fun h => absurd hlt (Nat.not_lt.mpr h.1)⟩
    · have hword : word (b.position + d.length) = b.position + d.length - 2 ^ 32 := by
        rw [word]
        omega
      rw [writeBytes, field, hb.plain, if_neg Bool.false_ne_true]
      by_cases hpast : b.Past d.length
      · rw [if_pos hpast]
        rw [Past, hword] at hpast
        exact ⟨nofun, fun h => absurd h.2 (Nat.not_le.mpr hpast)⟩
      · rw [if_neg hpast, store, if_neg (by omega)]
        rw [Past, hword, Nat.not_lt] at hpast
        exact ⟨fun _ => ⟨Nat.not_lt.mp hlt, hpast⟩, fun _ => rfl⟩
  · obtain ⟨x, b', hr, -⟩ := reads_readBytes hb n
    rw [hr] at hnone
    exact nomatch hnone

end ByteBuffer

end Net
end Proof
end PtpCore
