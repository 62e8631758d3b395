import Mathlib.Data.List.Sort
import Busker.FixedFinal.GenericPath

/-! The order Clojure's maps iterate in: array maps in insertion order up to eight
entries, hash maps along the hashes of their keys. -/
namespace Busker.FixedFinal

/-- `String.hashCode` -/
def hashCode (value : JavaString) : UInt32 :=
  value.foldl (fun hash character => 31 * hash + character.toUInt32) 0

def rotateLeft (word distance : UInt32) : UInt32 :=
  (word <<< distance) ||| (word >>> (32 - distance))

/-- Murmur3 over one word, Clojure's hash of a string's `hashCode`. -/
def hashInt (input : UInt32) : UInt32 :=
  if input = 0 then 0
  else
    let k := rotateLeft (input * 0xCC9E2D51) 15 * 0x1B873593
    let h := (rotateLeft k 13 * 5 + 0xE6546B64) ^^^ 4
    let h := (h ^^^ (h >>> 16)) * 0x85EBCA6B
    let h := (h ^^^ (h >>> 13)) * 0xC2B2AE35
    h ^^^ (h >>> 16)

/-- The path of a key in the hash trie, five bits a level from the low end, as a number. -/
def hashRank (name : JavaString) : ℕ :=
  let hash := (hashInt (hashCode name)).toNat
  (List.range 7).foldl (fun rank level => rank * 32 + hash / 32 ^ level % 32) 0

def hashOrder (headers : Headers) : Headers :=
  headers.insertionSort fun a b => hashRank a.1 ≤ hashRank b.1

/-- A ninth entry turns an array map into a hash map. -/
def clojureOrder : MapOrder where
  assoc headers name value :=
    if headers.length < 8 then headers ++ [(name, value)]
    else hashOrder (headers ++ [(name, value)])
  into headers := if headers.length ≤ 8 then headers else hashOrder headers
  assoc_perm headers name value _ := by
    have front : (headers ++ [(name, value)]).Perm ((name, value) :: headers) :=
      List.perm_append_comm
    split
    · exact front
    · exact (List.perm_insertionSort _ _).trans front
  into_perm headers _ := by
    split
    · exact List.Perm.refl headers
    · exact List.perm_insertionSort _ _

end Busker.FixedFinal
