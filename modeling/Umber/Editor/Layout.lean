import Umber.Lib.Except

/-! Editor layouts: a document as pieces of immutable source fragments. -/

set_option autoImplicit false

namespace Umber.Editor

/-! ## Fragments -/

structure FragmentId where
  lineage : Nat
  slot : Nat
deriving DecidableEq

structure SourceFragment where
  id : FragmentId
  regionStart : Nat
  byteLen : Nat
  mintedRevision : Nat

structure FragmentSource where
  fragment : SourceFragment
  bytes : Option (List UInt8)

structure FragmentStore where
  sources : List (FragmentId × FragmentSource)
  appendLineage : Nat
  nextSlot : Nat

inductive SourceMapError where
  | logicalPositionExhausted

namespace FragmentStore

def new (lineage : Nat) : FragmentStore :=
  { sources := [], appendLineage := lineage, nextSlot := 0 }

def clone (store : FragmentStore) (lineage : Nat) : FragmentStore :=
  { store with appendLineage := lineage }

def source (store : FragmentStore) (id : FragmentId) : Option FragmentSource :=
  store.sources.lookup id

def get (store : FragmentStore) (id : FragmentId) : Option SourceFragment :=
  (store.source id).map FragmentSource.fragment

def bytes (store : FragmentStore) (id : FragmentId) : Option (List UInt8) :=
  (store.source id).bind FragmentSource.bytes

/-- Append a fragment at the logical position that is reserved for it, if there is one. -/
def append (store : FragmentStore) (bytes : List UInt8) (mintedRevision : Nat)
    (reserved : Option Nat) : Except SourceMapError (FragmentId × FragmentStore) :=
  match reserved with
  | none => .error .logicalPositionExhausted
  | some regionStart =>
    if store.nextSlot + 1 < 4294967296 then
      let id := { lineage := store.appendLineage, slot := store.nextSlot }
      let fragment := { id, regionStart, byteLen := bytes.length, mintedRevision }
      .ok
        (id,
          { store with
            sources := (id, { fragment, bytes := some bytes }) :: store.sources
            nextSlot := store.nextSlot + 1 })
    else .error .logicalPositionExhausted

end FragmentStore

/-! ## Layouts -/

/-- A view of the bytes `[start, stop)` of a fragment. -/
structure Piece where
  fragment : FragmentId
  start : Nat
  stop : Nat

inductive EditorLayoutError where
  | unknownFragment
  | invalidPieceRange
  | documentTooLarge

structure EditorLayout where
  path : String
  generation : Nat
  pieces : List Piece
  docStarts : List Nat
  byteLen : Nat

def toU32 (value : Nat) : Except EditorLayoutError Nat :=
  if value < 4294967296 then .ok value else .error .documentTooLarge

def toU64 (value : Nat) : Except EditorLayoutError Nat :=
  if value < 18446744073709551616 then .ok value else .error .documentTooLarge

def Piece.checkedLength (piece : Piece) (fragments : FragmentStore) :
    Except EditorLayoutError Nat :=
  match fragments.get piece.fragment with
  | none => .error .unknownFragment
  | some fragment =>
    if piece.stop < piece.start ∨ fragment.byteLen < piece.stop then .error .invalidPieceRange
    else .ok (piece.stop - piece.start)

def placePieces (fragments : FragmentStore) (byteLen : Nat) :
    List Piece → Except EditorLayoutError (List Nat × Nat)
  | [] => .ok ([], byteLen)
  | piece :: rest => do
    let length ← piece.checkedLength fragments
    let next ← toU64 (byteLen + length)
    let later ← placePieces fragments next rest
    pure (byteLen :: later.1, later.2)

def EditorLayout.new (path : String) (generation : Nat) (pieces : List Piece)
    (fragments : FragmentStore) : Except EditorLayoutError EditorLayout := do
  let placed ← placePieces fragments 0 pieces
  pure { path, generation, pieces, docStarts := placed.1, byteLen := placed.2 }

def cloneLayout (layout : EditorLayout) (fragments : FragmentStore) :
    Except EditorLayoutError EditorLayout :=
  EditorLayout.new layout.path layout.generation layout.pieces fragments

/-! ## Line expansion -/

def newline : UInt8 := 10

def rposition (test : UInt8 → Bool) (bytes : List UInt8) : Option Nat :=
  (bytes.reverse.findIdx? test).map fun behind => bytes.length - 1 - behind

def position (test : UInt8 → Bool) (bytes : List UInt8) : Option Nat := bytes.findIdx? test

/-- A replacement of the bytes `[start, stop)` of a document. -/
structure Replacement where
  start : Nat
  stop : Nat
  bytes : List UInt8

def Replacement.apply (replacement : Replacement) (source : List UInt8) : List UInt8 :=
  source.take replacement.start ++ replacement.bytes ++ source.drop replacement.stop

def expandedStart (old : List UInt8) (start : Nat) : Nat :=
  match rposition (· = newline) (old.take start) with
  | none => 0
  | some position => position + 1

/-- The end of the line of the end of a range, unless the range takes its newline already. -/
def expandedStop (old : List UInt8) (start stop : Nat) : Nat :=
  if start ≠ stop ∧ old[stop - 1]? = some newline then stop
  else
    match position (· = newline) (old.drop stop) with
    | none => old.length
    | some position => stop + position + 1

def lineExpandedReplacement (old : List UInt8) (edit : Replacement) : Replacement :=
  let start := expandedStart old edit.start
  let stop := expandedStop old edit.start edit.stop
  { start
    stop
    bytes :=
      (old.drop start).take (edit.start - start) ++ edit.bytes ++
        (old.drop edit.stop).take (stop - edit.stop) }

/-! ## Replacing a range -/

def leftPart (piece : Piece) (docStart replacedStart : Nat) :
    Except EditorLayoutError (List Piece) :=
  if docStart < replacedStart then do
    let length ← toU32 (replacedStart - docStart)
    pure [{ piece with stop := piece.start + length }]
  else .ok []

def rightPart (piece : Piece) (docStart replacedEnd : Nat) :
    Except EditorLayoutError (List Piece) :=
  if replacedEnd < docStart + (piece.stop - piece.start) then do
    let length ← toU32 (replacedEnd - docStart)
    pure [{ piece with start := piece.start + length }]
  else .ok []

/-- The pieces around a replaced range, with the new piece in its place once. -/
def replacePieces (replacedStart replacedEnd : Nat) (replacement : Piece) (inserted : Bool) :
    List (Piece × Nat) → Except EditorLayoutError (List Piece)
  | [] => .ok (if inserted then [] else [replacement])
  | (piece, docStart) :: rest =>
    if piece.start = piece.stop then
      replacePieces replacedStart replacedEnd replacement inserted rest
    else if docStart + (piece.stop - piece.start) ≤ replacedStart then do
      let later ← replacePieces replacedStart replacedEnd replacement inserted rest
      pure (piece :: later)
    else if replacedEnd ≤ docStart then do
      let later ← replacePieces replacedStart replacedEnd replacement true rest
      pure ((if inserted then [] else [replacement]) ++ piece :: later)
    else do
      let left ← leftPart piece docStart replacedStart
      let right ← rightPart piece docStart replacedEnd
      let later ← replacePieces replacedStart replacedEnd replacement true rest
      pure (left ++ (if inserted then [] else [replacement]) ++ right ++ later)

def replaceLayoutRange (old : EditorLayout) (fragments : FragmentStore)
    (replacedStart replacedEnd : Nat) (replacement : FragmentId) (replacementLen generation : Nat) :
    Except EditorLayoutError EditorLayout := do
  let replacedStart ← toU64 replacedStart
  let replacedEnd ← toU64 replacedEnd
  let replacementLen ← toU32 replacementLen
  let pieces ← replacePieces replacedStart replacedEnd
    { fragment := replacement, start := 0, stop := replacementLen } false
    (old.pieces.zip old.docStarts)
  EditorLayout.new old.path generation pieces fragments

/-! ## Meaning -/

namespace Piece

def coordinates (piece : Piece) : List (FragmentId × Nat) :=
  (List.range' piece.start (piece.stop - piece.start)).map fun offset => (piece.fragment, offset)

def text (piece : Piece) (fragments : FragmentStore) : List UInt8 :=
  (((fragments.bytes piece.fragment).getD []).take piece.stop).drop piece.start

end Piece

namespace EditorLayout

def coordinates (layout : EditorLayout) : List (FragmentId × Nat) :=
  layout.pieces.flatMap Piece.coordinates

def text (layout : EditorLayout) (fragments : FragmentStore) : List UInt8 :=
  layout.pieces.flatMap fun piece => piece.text fragments

end EditorLayout

end Umber.Editor
