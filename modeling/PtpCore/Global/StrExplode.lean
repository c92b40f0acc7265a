import PtpCore.Lib.Bytes

/-!
# Splitting a string (`ptp_global/Utils.cpp`)

`CStrExplode` counts the separators first, and makes room for one item more than that. The second
loop cuts the string at a separator only when there is something in front of it, and keeps the
separator otherwise. Items that it does not come to are never set.

Lengths and the count are `uint32_t`, and the index of an item is an `int`.
-/

namespace PtpCore
namespace Global

open Lib

/-- `m_item_list` has `m_item_cnt` places; `none` is one that was never set. -/
structure CStrExplode where
  itemCnt : UInt32
  itemList : List (Option Bytes)
  /-- Something was written outside the list or outside an item. -/
  outside : Bool
  deriving DecidableEq, Repr

namespace CStrExplode

/-- The loop that counts. -/
def countItems (seperator : UInt8) (str : Bytes) : UInt32 :=
  str.foldl (fun itemCnt c => if c = seperator then itemCnt + 1 else itemCnt) 1

/-- `m_item_list[idx]` gets a copy of what is between `start` and `pos`. -/
def store (s : CStrExplode) (idx : Nat) (field : Bytes) : CStrExplode :=
  let len := field.length % 2 ^ 32
  if idx < 2 ^ 31 ∧ idx < s.itemList.length ∧ len + 1 < 2 ^ 32 then
    { s with itemList := s.itemList.set idx (some (field.take len)) }
  else { s with outside := true }

/-- The second loop. `field` is what is between `start` and `pos`. -/
def cut (seperator : UInt8) (s : CStrExplode) (idx : Nat) (field : Bytes) : Bytes → CStrExplode
  | [] => if field.length % 2 ^ 32 ≠ 0 then s.store idx field else s
  | c :: rest =>
    if field ≠ [] ∧ c = seperator then cut seperator (s.store idx field) (idx + 1) [] rest
    else cut seperator s idx (field ++ [c]) rest

/-- The constructor. -/
def explode (str : Bytes) (seperator : UInt8) : CStrExplode :=
  let str := cString str
  let itemCnt := countItems seperator str
  cut seperator ⟨itemCnt, List.replicate itemCnt.toNat none, false⟩ 0 [] str

end CStrExplode

end Global
end PtpCore
