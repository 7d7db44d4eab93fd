import Umber.Lib.Wire

/-! Literal lookup tables of a format image: byte keys with their targets, found by linear
probing. -/

set_option autoImplicit false

namespace Umber.FrozenLookup

open Wire

/-- `panicked` is an index out of range, `unfinished` a loop that has used up the rounds the
model grants it. -/
inductive LookupError where
  | duplicateKey
  | entryCapacity
  | capacityOverflow
  | sizeOverflow
  | keyOffset
  | keyLength
  | incompatibleHeader
  | invalidCapacity
  | range
  | truncated
  | invalidBucketEntry
  | missingBucketEntry
  | invalidEntry
  | duplicateTarget
  | keyRange
  | nonCanonicalKeys
  | missingTarget
  | nonCanonicalStructure
  | panicked
  | unfinished
deriving DecidableEq

abbrev Looking (α : Type) := Except LookupError α

abbrev Key := List UInt8

/-! ## Numbers of the machine -/

def algorithm : Nat := 1

def version : Nat := 1

def seed : UInt64 := 0xcbf29ce484222325

def emptyWord : Nat := 4294967295

def headerLen : Nat := 32

def entryLen : Nat := 16

def fnvPrime : UInt64 := 0x100000001b3

def maxWord : Nat := 4294967295

def checkedSize (value : Nat) (error : LookupError) : Looking Nat :=
  if value < 18446744073709551616 then .ok value else .error error

def checkedWord (value : Nat) (error : LookupError) : Looking Nat :=
  if value ≤ maxWord then .ok value else .error error

def hashByte (value : UInt64) (byte : UInt8) : UInt64 := (value ^^^ byte.toUInt64) * fnvPrime

def hash (bytes : Key) : UInt64 := bytes.foldl hashByte seed

/-! ## Tables -/

/-- A bucket is free or holds the index of an entry. -/
abbrev Buckets := List (Option Nat)

structure FrozenLookup where
  buckets : Buckets
  targets : List Nat
  keys : List Key

def bucketCountFrom (entryCount : Nat) : Nat → Nat → Looking Nat
  | 0, _ => .error .unfinished
  | rounds + 1, buckets => do
    let scaled ← checkedSize (entryCount * 4) .capacityOverflow
    if buckets * 3 < scaled then do
      let doubled ← checkedSize (buckets * 2) .capacityOverflow
      bucketCountFrom entryCount rounds doubled
    else .ok buckets

def bucketCount (entryCount : Nat) : Looking Nat := bucketCountFrom entryCount 64 8

/-! ## Lookup -/

def keyMatches (tag : UInt8) (spelling key : Key) : Bool :=
  key.head? = some tag && key.tail = spelling

def findFrom (table : FrozenLookup) (tag : UInt8) (spelling : Key) :
    Nat → Nat → Looking (Option Nat)
  | 0, _ => .ok none
  | rounds + 1, bucket =>
    match table.buckets[bucket]? with
    | none => .error .panicked
    | some none => .ok none
    | some (some entry) =>
      match table.keys[entry]?, table.targets[entry]? with
      | some key, some target =>
        if keyMatches tag spelling key then .ok (some target)
        else findFrom table tag spelling rounds ((bucket + 1) &&& (table.buckets.length - 1))
      | _, _ => .error .panicked

def getPrefixed (table : FrozenLookup) (tag : UInt8) (spelling : Key) : Looking (Option Nat) :=
  let value := spelling.foldl hashByte (hashByte seed tag)
  findFrom table tag spelling table.buckets.length
    (value.toNat &&& (table.buckets.length - 1))

/-! ## Encoding -/

def keyLe : Key → Key → Bool
  | [], _ => true
  | _ :: _, [] => false
  | left :: leftRest, right :: rightRest =>
    if left.toNat < right.toNat then true
    else if right.toNat < left.toNat then false
    else keyLe leftRest rightRest

def sortEntries (entries : List (Key × Nat)) : List (Key × Nat) :=
  entries.mergeSort fun left right => keyLe left.1 right.1

def anyNeighbours {α : Type} (related : α → α → Bool) : List α → Bool
  | [] => false
  | [_] => false
  | first :: second :: rest => related first second || anyNeighbours related (second :: rest)

def freeBucket (buckets : Buckets) : Nat → Nat → Looking Nat
  | 0, _ => .error .unfinished
  | rounds + 1, bucket =>
    match buckets[bucket]? with
    | none => .error .panicked
    | some none => .ok bucket
    | some (some _) => freeBucket buckets rounds ((bucket + 1) &&& (buckets.length - 1))

structure Filling where
  buckets : Buckets
  maximumProbe : Nat

def placeKeys (filling : Filling) (entry : Nat) : List Key → Looking Filling
  | [] => .ok filling
  | key :: rest => do
    let count := filling.buckets.length
    let initial := (hash key).toNat &&& (count - 1)
    let bucket ← freeBucket filling.buckets count initial
    let distance := ((bucket + count - initial) &&& (count - 1)) % 4294967296
    placeKeys
      { buckets := filling.buckets.set bucket (some entry)
        maximumProbe := max filling.maximumProbe distance }
      (entry + 1) rest

def bucketWord (bucket : Option Nat) : Nat := bucket.getD emptyWord

def bucketBytes (bucket : Option Nat) : List UInt8 := leBytes 4 (bucketWord bucket)

def headerBytes (bucketCount entryCount maximumProbe : Nat) : List UInt8 :=
  fieldsBytes
    [(4, algorithm), (4, version), (8, seed.toNat), (4, bucketCount), (4, entryCount),
      (4, emptyWord), (4, maximumProbe)]

structure Record where
  start : Nat
  length : Nat
  target : Nat
deriving DecidableEq

def Record.bytes (record : Record) : List UInt8 :=
  fieldsBytes [(4, record.start), (4, record.length), (4, record.target), (4, 0)]

def records (keyCursor : Nat) : List (Key × Nat) → Looking (List Record)
  | [] => .ok []
  | (key, target) :: rest => do
    let start ← checkedWord keyCursor .keyOffset
    let length ← checkedWord key.length .keyLength
    let later ← records (keyCursor + key.length) rest
    .ok (⟨start, length, target⟩ :: later)

def keysLength (total : Nat) : List (Key × Nat) → Looking Nat
  | [] => .ok total
  | (key, _) :: rest => do
    let total ← checkedSize (total + key.length) .sizeOverflow
    keysLength total rest

def encode (entries : List (Key × Nat)) : Looking (List UInt8) :=
  let entries := sortEntries entries
  if anyNeighbours (fun left right => left.1 = right.1) entries then .error .duplicateKey
  else do
    let count ← checkedWord entries.length .entryCapacity
    let buckets ← bucketCount entries.length
    let filling ← placeKeys ⟨List.replicate buckets none, 0⟩ 0 (entries.map Prod.fst)
    let bucketsLen ← checkedSize (buckets * 4) .sizeOverflow
    let entriesLen ← checkedSize (entries.length * entryLen) .sizeOverflow
    let keysLen ← keysLength 0 entries
    let entriesOffset ← checkedSize (headerLen + bucketsLen) .sizeOverflow
    let keysOffset ← checkedSize (entriesOffset + entriesLen) .sizeOverflow
    let _ ← checkedSize (keysOffset + keysLen) .sizeOverflow
    let records ← records 0 entries
    .ok
      (headerBytes buckets count filling.maximumProbe ++ filling.buckets.flatMap bucketBytes ++
        records.flatMap Record.bytes ++ entries.flatMap Prod.fst)

/-! ## Decoding -/

def readField (bytes : List UInt8) (offset width : Nat) : Looking Nat :=
  match field bytes offset width with
  | some value => .ok value
  | none => .error .panicked

def readU32 (bytes : List UInt8) (offset : Nat) : Looking Nat := readField bytes offset 4

def headerCompatible (bytes : List UInt8) : Looking Bool :=
  if bytes.length < headerLen then .ok false
  else do
    let foundAlgorithm ← readU32 bytes 0
    let foundVersion ← readU32 bytes 4
    let foundSeed ← readField bytes 8 8
    let foundEmpty ← readU32 bytes 24
    .ok (foundAlgorithm = algorithm && foundVersion = version && foundSeed = seed.toNat &&
      foundEmpty = emptyWord)

def bucketOf (entryCount : Nat) (seen : List Nat) (word : Nat) : Looking (Option Nat) :=
  if word = emptyWord then .ok none
  else if entryCount ≤ word ∨ word ∈ seen then .error .invalidBucketEntry
  else .ok (some word)

def readBuckets (bytes : List UInt8) (entryCount : Nat) : Nat → Nat → List Nat → Looking Buckets
  | 0, _, seen =>
    if (List.range entryCount).all fun entry => entry ∈ seen then .ok []
    else .error .missingBucketEntry
  | count + 1, index, seen => do
    let word ← readU32 bytes (headerLen + index * 4)
    let bucket ← bucketOf entryCount seen word
    let later ← readBuckets bytes entryCount count (index + 1) (bucket.toList ++ seen)
    .ok (bucket :: later)

structure Entries where
  keys : List Key
  targets : List Nat
  cursor : Nat

def sliceChecked (bytes : List UInt8) (start stop : Nat) : Looking (List UInt8) :=
  if start ≤ stop ∧ stop ≤ bytes.length then .ok (slice bytes start stop) else .error .panicked

def readEntries (bytes : List UInt8) (entriesOffset keysOffset targetCount : Nat) :
    Nat → Nat → Nat → List Nat → Looking Entries
  | 0, _, cursor, _ => .ok ⟨[], [], cursor⟩
  | count + 1, index, cursor, seenTargets => do
    let record := entriesOffset + index * entryLen
    let start ← readU32 bytes record
    let length ← readU32 bytes (record + 4)
    let target ← readU32 bytes (record + 8)
    let reserved ← readU32 bytes (record + 12)
    if start ≠ cursor ∨ targetCount ≤ target ∨ reserved ≠ 0 then .error .invalidEntry
    else if target ∈ seenTargets then .error .duplicateTarget
    else do
      let cursor ← checkedSize (start + length) .keyRange
      let stop ← checkedSize (keysOffset + cursor) .keyRange
      if bytes.length < stop then .error .keyRange
      else do
        let key ← sliceChecked bytes (keysOffset + start) stop
        let later ← readEntries bytes entriesOffset keysOffset targetCount count (index + 1)
          cursor (target :: seenTargets)
        .ok { later with keys := key :: later.keys, targets := target :: later.targets }

def decode (bytes : List UInt8) (targetCount : Nat) : Looking FrozenLookup := do
  let compatible ← headerCompatible bytes
  if compatible = false then .error .incompatibleHeader
  else do
    let buckets ← readU32 bytes 16
    let entryCount ← readU32 bytes 20
    if buckets < 8 ∨ ¬ buckets.isPowerOfTwo then .error .invalidCapacity
    else do
      let expectedCount ← bucketCount entryCount
      if buckets ≠ expectedCount ∨ entryCount ≠ targetCount then .error .invalidCapacity
      else do
        let bucketsLen ← checkedSize (buckets * 4) .range
        let entriesOffset ← checkedSize (headerLen + bucketsLen) .range
        let entriesLen ← checkedSize (entryCount * entryLen) .range
        let keysOffset ← checkedSize (entriesOffset + entriesLen) .range
        if bytes.length < keysOffset then .error .truncated
        else do
          let table ← readBuckets bytes entryCount buckets 0 []
          let entries ← readEntries bytes entriesOffset keysOffset targetCount entryCount 0 0 []
          if keysOffset + entries.cursor ≠ bytes.length ∨
              anyNeighbours (fun left right => keyLe right left) entries.keys then
            .error .nonCanonicalKeys
          else if (List.range targetCount).all fun target => target ∈ entries.targets then do
            let expected ← encode (entries.keys.zip entries.targets)
            if expected ≠ bytes then .error .nonCanonicalStructure
            else .ok ⟨table, entries.targets, entries.keys⟩
          else .error .missingTarget

end Umber.FrozenLookup
