import PtpCore.Proto.Messages

/-!
# A library that keeps the laws

`Library` asks four things of each codec. Here they are kept by the obvious implementation, which
writes the fields of a message in the wire format, initialised or not, and reads them back by
number; and by one that writes initialised messages only.
-/

namespace PtpCore
namespace Proof
namespace Runtime

open Lib Lib.Wire
open PtpCore.Proto

/-! ## Fields that fit -/

/-- What of `Fits` does not depend on how long a message is. -/
def Small (f : Field) : Prop := f.num < 2 ^ 29 ∧ ∀ n, f.val = .varint n → n < 2 ^ 64

theorem length_le_encode_of_mem {fs : List Field} {f : Field} (hf : f ∈ fs) {b : Bytes}
    (hb : f.val = .bytes b) : b.length ≤ (encode fs).length := by
  have hfield : b.length ≤ (encodeField f).length := by
    rw [encodeField, hb]
    dsimp only
    rw [List.length_append, List.length_append]
    omega
  obtain ⟨pre, post, rfl⟩ := List.append_of_mem hf
  rw [encode, List.flatMap_append, List.flatMap_cons, List.length_append, List.length_append]
  omega

theorem fits_of_small {fs : List Field} (hs : ∀ f ∈ fs, Small f)
    (h : (encode fs).length < 2 ^ 31) : ∀ f ∈ fs, f.Fits := by
  intro f hf
  refine ⟨(hs f hf).1, ?_⟩
  cases hval : f.val with
  | varint n => exact (hs f hf).2 n hval
  | bytes b => exact Nat.lt_of_le_of_lt (length_le_encode_of_mem hf hval) h

section

variable {num : Nat}

theorem small_opt (hnum : num < 2 ^ 29) {v : Option Value}
    (hv : ∀ n, v = some (.varint n) → n < 2 ^ 64) : ∀ f ∈ opt num v, Small f := by
  intro f hf
  cases v with
  | none => cases hf
  | some v =>
    cases List.mem_singleton.mp hf
    refine ⟨hnum, ?_⟩
    intro n hn
    exact hv n (congrArg some hn)

theorem small_stringField (hnum : num < 2 ^ 29) (v : Option Bytes) :
    ∀ f ∈ stringField num v, Small f := by
  apply small_opt hnum
  intro n hn
  cases v with
  | none => cases hn
  | some b => cases hn

theorem small_numberField (hnum : num < 2 ^ 29) {v : Option Nat} (hv : ∀ n ∈ v, n < 2 ^ 64) :
    ∀ f ∈ numberField num v, Small f := by
  apply small_opt hnum
  intro n hn
  cases v with
  | none => cases hn
  | some k =>
    cases hn
    exact hv n rfl

theorem small_messageField {M : Type} [Message M] (hnum : num < 2 ^ 29) (v : Option M) :
    ∀ f ∈ messageField num v, Small f := by
  apply small_opt hnum
  intro n hn
  cases v with
  | none => cases hn
  | some m => cases hn

end

theorem small_append {a b : List Field} (ha : ∀ f ∈ a, Small f) (hb : ∀ f ∈ b, Small f) :
    ∀ f ∈ a ++ b, Small f := by
  intro f hf
  rcases List.mem_append.mp hf with hf | hf
  · exact ha f hf
  · exact hb f hf

/-! ## Reading fields -/

def readString (num : Nat) (fs : List Field) : Option Bytes := (lookup num fs).bind Value.string

def readNumber (num : Nat) (fs : List Field) : Option Nat := (lookup num fs).bind Value.number

/-- How a message is read from its fields. -/
class Readable (M : Type) [Message M] where
  read : List Field → M
  read_nil : read [] = Message.empty
  small : ∀ m : M, ∀ f ∈ Message.fields m, Small f
  read_fields : ∀ m : M, (encode (Message.fields m)).length < 2 ^ 31 →
    read (Message.fields m) = m

section

variable {M : Type} [Message M] [Readable M]

def readMessage (b : Bytes) : M := Readable.read (decode b).1

theorem readMessage_encode {m : M} (h : (encode (Message.fields m)).length < 2 ^ 31) :
    readMessage (encode (Message.fields m)) = m := by
  rw [readMessage, decode_encode (fits_of_small (Readable.small m) h)]
  exact Readable.read_fields m h

/-- The codec of a message type. -/
def wireCodec : Codec M where
  serialize m :=
    if (encode (Message.fields m)).length < 2 ^ 31 then some (encode (Message.fields m)) else none
  parse b := (readMessage b, (decode b).2 && Message.isInitialized (readMessage b : M))
  serialize_eq := by
    intro m _ h
    rw [if_pos h]
  length_lt := by
    intro m b h
    split at h
    · cases h
      assumption
    · cases h
  parse_serialize := by
    intro m b h
    split at h
    · rename_i hlen
      cases h
      rw [readMessage_encode hlen, decode_encode (fits_of_small (Readable.small m) hlen)]
      rfl
    · cases h
  parse_nil := by
    have hread : (readMessage [] : M) = Message.empty := Readable.read_nil
    rw [hread]
    rfl

/-- The same, but for a message that is not initialised: it is not written. -/
def strictCodec : Codec M where
  serialize m := if Message.isInitialized m then wireCodec.serialize m else none
  parse := (wireCodec : Codec M).parse
  serialize_eq := by
    intro m hinit h
    rw [if_pos hinit]
    exact wireCodec.serialize_eq hinit h
  length_lt := by
    intro m b h
    split at h
    · exact wireCodec.length_lt h
    · cases h
  parse_serialize := by
    intro m b h
    split at h
    · exact wireCodec.parse_serialize h
    · cases h
  parse_nil := wireCodec.parse_nil

end

/-! ## The messages -/

@[simp] theorem lookup_stringField (num k : Nat) (v : Option Bytes) :
    lookup num (stringField k v) = if k = num then v.map .bytes else none := lookup_opt num k _

@[simp] theorem lookup_numberField (num k : Nat) (v : Option Nat) :
    lookup num (numberField k v) = if k = num then v.map .varint else none := lookup_opt num k _

@[simp] theorem lookup_messageField {M : Type} [Message M] (num k : Nat) (v : Option M) :
    lookup num (messageField k v) =
      if k = num then v.map fun m => .bytes (encode (Message.fields m)) else none :=
  lookup_opt num k _

@[simp] theorem map_bytes_string (v : Option Bytes) : (v.map .bytes).bind Value.string = v := by
  cases v <;> rfl

@[simp] theorem map_varint_number (v : Option Nat) : (v.map .varint).bind Value.number = v := by
  cases v <;> rfl

@[simp] theorem map_toNat_ofNat (v : Option UInt32) :
    (v.map UInt32.toNat).map UInt32.ofNat = v := by
  cases v with
  | none => rfl
  | some n => simp

@[simp] theorem map_boolToNat (v : Option Bool) : (v.map Bool.toNat).map (· != 0) = v := by
  cases v with
  | none => rfl
  | some b => cases b <;> rfl

theorem lt_of_mem_map_toNat (v : Option UInt32) : ∀ n ∈ v.map UInt32.toNat, n < 2 ^ 64 := by
  intro n hn
  cases v with
  | none => cases hn
  | some k =>
    cases hn
    exact Nat.lt_of_lt_of_le k.toNat_lt (by decide)

theorem lt_of_mem_map_boolToNat (v : Option Bool) : ∀ n ∈ v.map Bool.toNat, n < 2 ^ 64 := by
  intro n hn
  cases v with
  | none => cases hn
  | some b =>
    cases hn
    cases b <;> decide

instance : Readable UserInfo where
  read fs :=
    { address := readString 1 fs
      pubKey := readString 2 fs
      avatar := readString 3 fs
      status := (readNumber 4 fs).map UInt32.ofNat
      userName := readString 5 fs
      nickName := readString 6 fs
      signInfo := readString 7 fs
      uid := (readNumber 8 fs).map UInt32.ofNat
      firstName := readString 9 fs
      lastName := readString 10 fs
      loginTime := (readNumber 11 fs).map UInt32.ofNat
      isOnline := (readNumber 12 fs).map (· != 0) }
  read_nil := rfl
  small m := by
    repeat' apply small_append
    all_goals
      first
        | exact small_stringField (by decide) _
        | exact small_numberField (by decide) (lt_of_mem_map_toNat _)
        | exact small_numberField (by decide) (lt_of_mem_map_boolToNat _)
  read_fields m _ := by
    simp only [Message.fields, readString, readNumber, lookup_append, lookup_stringField,
      lookup_numberField, map_bytes_string, map_varint_number, map_toNat_ofNat, map_boolToNat,
      Nat.reduceEqDiff, reduceIte, Option.none_or, Option.or_none]

/-- Enumerations are read by number; a number that is none of them leaves the field unset. -/
def readERR (n : Nat) : Option ERR :=
  [ERR.noError, .eSystem, .eGroupCreatePairGroupMemberSieInvalid, .eGroupCreatePairGroupNoRegUser,
    .eGroupHasCreated, .eReasonNoRouteServer, .eReasonNoLoginServer, .eReasonNoDbServer,
    .eLoginError, .ePbParseError, .eSwitchUserNoOnline, .eUsernameExists, .eUsernameInvalid,
    .eClient, .eClientTimeout, .eServerNotFound].find? fun e => e.code = n

def readClientType (n : Nat) : Option ClientType :=
  [ClientType.web, .pc, .mac, .ios, .android].find? fun t => t.code = n

@[simp] theorem map_code_readERR (v : Option ERR) : (v.map ERR.code).bind readERR = v := by
  cases v with
  | none => rfl
  | some e => cases e <;> rfl

@[simp] theorem map_code_readClientType (v : Option ClientType) :
    (v.map ClientType.code).bind readClientType = v := by
  cases v with
  | none => rfl
  | some t => cases t <;> rfl

theorem lt_of_mem_map_code (v : Option ERR) : ∀ n ∈ v.map ERR.code, n < 2 ^ 64 := by
  intro n hn
  cases v with
  | none => cases hn
  | some e =>
    cases hn
    cases e <;> decide

theorem lt_of_mem_map_clientCode (v : Option ClientType) :
    ∀ n ∈ v.map ClientType.code, n < 2 ^ 64 := by
  intro n hn
  cases v with
  | none => cases hn
  | some t =>
    cases hn
    cases t <;> decide

/-- A message inside a message that is not too long is read back. -/
theorem map_readMessage {M : Type} [Message M] [Readable M] {v : Option M} {num : Nat}
    {fs : List Field} (hsub : messageField num v ⊆ fs) (h : (encode fs).length < 2 ^ 31) :
    ((v.map fun m => Value.bytes (encode (Message.fields m))).bind Value.string).map readMessage =
      v := by
  cases v with
  | none => rfl
  | some m =>
    have hmem := hsub (List.mem_singleton.mpr rfl)
    exact congrArg some
      (readMessage_encode (Nat.lt_of_le_of_lt (length_le_encode_of_mem hmem rfl) h))

instance : Readable AuthCaptchaReq where
  read _ := {}
  read_nil := rfl
  small _ := nofun
  read_fields _ _ := rfl

instance : Readable HeartBeatNotify where
  read _ := {}
  read_nil := rfl
  small _ := nofun
  read_fields _ _ := rfl

instance : Readable AuthCaptchaRes where
  read fs :=
    { captcha := readString 1 fs
      address := readString 2 fs
      iv := readString 3 fs
      aad := readString 4 fs
      sign := readString 5 fs
      error := (readNumber 6 fs).bind readERR }
  read_nil := rfl
  small m := by
    repeat' apply small_append
    all_goals
      first
        | exact small_stringField (by decide) _
        | exact small_numberField (by decide) (lt_of_mem_map_code _)
  read_fields m _ := by
    simp only [Message.fields, readString, readNumber, lookup_append, lookup_stringField,
      lookup_numberField, map_bytes_string, map_varint_number, map_code_readERR, Nat.reduceEqDiff,
      reduceIte, Option.none_or, Option.or_none]

instance : Readable AuthLoginReq where
  read fs :=
    { address := readString 1 fs
      captcha := readString 2 fs
      clientType := (readNumber 3 fs).bind readClientType
      clientVersion := readString 5 fs
      sign := readString 6 fs }
  read_nil := rfl
  small m := by
    repeat' apply small_append
    all_goals
      first
        | exact small_stringField (by decide) _
        | exact small_numberField (by decide) (lt_of_mem_map_clientCode _)
  read_fields m _ := by
    simp only [Message.fields, readString, readNumber, lookup_append, lookup_stringField,
      lookup_numberField, map_bytes_string, map_varint_number, map_code_readClientType,
      Nat.reduceEqDiff, reduceIte, Option.none_or, Option.or_none]

instance : Readable AuthLoginRes where
  read fs :=
    { error := (readNumber 2 fs).bind readERR
      userInfo := (readString 5 fs).map readMessage }
  read_nil := rfl
  small m := small_append (small_numberField (by decide) (lt_of_mem_map_code _))
    (small_messageField (by decide) _)
  read_fields m h := by
    have hfields : Message.fields m =
        numberField 2 (m.error.map ERR.code) ++ messageField 5 m.userInfo := rfl
    rw [hfields] at h ⊢
    simp only [readString, readNumber, lookup_append, lookup_numberField, lookup_messageField,
      map_varint_number, map_code_readERR, Nat.reduceEqDiff, reduceIte, Option.none_or,
      Option.or_none]
    rw [map_readMessage (List.subset_append_right _ _) h]

instance : Readable ServerLoginReq where
  read fs :=
    { address := readString 1 fs
      captcha := readString 2 fs
      sign := readString 3 fs
      attachData := readString 4 fs }
  read_nil := rfl
  small m := by
    repeat' apply small_append
    all_goals exact small_stringField (by decide) _
  read_fields m _ := by
    simp only [Message.fields, readString, lookup_append, lookup_stringField, map_bytes_string,
      Nat.reduceEqDiff, reduceIte, Option.none_or, Option.or_none]

instance : Readable ServerLoginRes where
  read fs :=
    { error := (readNumber 1 fs).bind readERR
      userInfo := (readString 2 fs).map readMessage
      attachData := readString 20 fs }
  read_nil := rfl
  small m := small_append (small_append (small_numberField (by decide) (lt_of_mem_map_code _))
    (small_messageField (by decide) _)) (small_stringField (by decide) _)
  read_fields m h := by
    have hfields : Message.fields m = numberField 1 (m.error.map ERR.code) ++
        messageField 2 m.userInfo ++ stringField 20 m.attachData := rfl
    have hsub := List.subset_append_of_subset_left (stringField 20 m.attachData)
      (List.subset_append_right (numberField 1 (m.error.map ERR.code)) (messageField 2 m.userInfo))
    rw [hfields] at h ⊢
    simp only [readString, readNumber, lookup_append, lookup_numberField, lookup_messageField,
      lookup_stringField, map_bytes_string, map_varint_number, map_code_readERR, Nat.reduceEqDiff,
      reduceIte, Option.none_or, Option.or_none]
    rw [map_readMessage hsub h]

def wireLibrary : Library where
  authCaptchaReq := wireCodec
  authCaptchaRes := wireCodec
  authLoginReq := wireCodec
  authLoginRes := wireCodec
  serverLoginReq := wireCodec
  serverLoginRes := wireCodec
  heartBeatNotify := wireCodec

def strictLibrary : Library where
  authCaptchaReq := strictCodec
  authCaptchaRes := strictCodec
  authLoginReq := strictCodec
  authLoginRes := strictCodec
  serverLoginReq := strictCodec
  serverLoginRes := strictCodec
  heartBeatNotify := strictCodec

end Runtime
end Proof
end PtpCore
