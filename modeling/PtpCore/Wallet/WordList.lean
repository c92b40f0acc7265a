import PtpCore.Lib.Bytes

/-!
# Word lists (`ptp_wallet/word_list.cpp`)

`struct words` is a parsed list of words: the seven BIP39 lists are such constants, and
`wordlist_init` makes one of a phrase by cutting it at spaces. Words are byte strings without
zeros, as C strings are.
-/

namespace PtpCore
namespace Wallet

open Lib

/-- `struct words`; `len` is the length of `indices`. -/
structure Words where
  indices : List Bytes
  bits : Nat
  sorted : Bool

namespace Words

def len (w : Words) : Nat := w.indices.length

end Words

/-- The separator. -/
def space : UInt8 := 0x20

/-- `wordlist_count`, of a string without its terminating zero. -/
def wordlistCount (words : Bytes) : Nat := 1 + words.count space

/-- The loop of `wordlist_init`: `n` times, up to the next space and over it. -/
def tokenise : Nat → Bytes → List Bytes
  | 0, _ => []
  | n + 1, p => p.takeWhile (· != space) :: tokenise n ((p.dropWhile (· != space)).drop 1)

/-- The words `wordlist_init` finds in a phrase. -/
def wordlistInit (words : Bytes) : List Bytes := tokenise (wordlistCount words) words

/-- `get_bits`: how often a number can be halved. -/
def getBits (n : Nat) : Nat := Nat.log2 n

/-- The loop that sets `sorted`: no word is greater than the one behind it. -/
def isSorted : List Bytes → Bool
  | [] => true
  | [_] => true
  | a :: b :: ws => ¬ b < a && isSorted (b :: ws)

/-- `wordlist_init`, with all that it sets. -/
def wordlistInitWords (words : Bytes) : Words :=
  let indices := wordlistInit words
  ⟨indices, getBits indices.length, isSorted indices⟩

/-- `std::lower_bound` over the positions `first` to `first + len` of `v`. -/
def lowerBound (v : List Bytes) (data : Bytes) (first len : Nat) : Nat :=
  if len > 0 then
    let half := len / 2
    let mid := first + half
    if v.getD mid [] < data then lowerBound v data (mid + 1) (len - half - 1)
    else lowerBound v data first half
  else first
termination_by len

/-- `binary_search_find_index`. The position is returned as an `int`. -/
def binarySearchFindIndex (v : List Bytes) (data : Bytes) : Int32 :=
  let it := lowerBound v data 0 v.length
  if v[it]? = some data then Int32.ofNat it else -1

/-- A distance between pointers as a `size_t`. -/
def toSizeT (n : Int) : Nat := if 0 ≤ n then n.toNat else (n + 2 ^ 64).toNat

/-- `wordlist_lookup_word`, of a list that is not empty: one more than the position of `word`, or 0.
    The binary search of a sorted list leaves out the last word; whatever it does not find is
    searched for again. `found` is a distance from the first word. -/
def wordlistLookupWord (w : Words) (word : Bytes) : Nat :=
  let idx := if w.sorted then binarySearchFindIndex (w.indices.take (w.len - 1)) word else -1
  let found :=
    if idx ≠ -1 then some idx.toInt
    else (w.indices.findIdx? (· == cString word)).map Int.ofNat
  match found with
  | some found => toSizeT (found + 1)
  | none => 0

end Wallet
end PtpCore
