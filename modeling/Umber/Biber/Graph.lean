import Umber.Biber.Sorting
import Umber.Lib.Hierarchy

/-! Relationships of a section: which entries an entry inherits from, and resolving what it
inherits with a memo, a stack and limits. -/

set_option autoImplicit false

namespace Umber.Biber

/-- Field values of drafts: lists of keys, and values that no relationship reads. -/
inductive DraftValue (Value : Type) where
  | keyList (keys : List Text)
  | other (value : Value)

inductive FieldValueStage where
  | rawDecoded
  | normalized
  | derived
  | computed

inductive FieldProvenance (Location : Type) where
  | datasource (source : Location)
  | transformed (source : Location) (transformation : Text)
  | inherited (source : Location) (parentEntry parentField : Text)
  | computed

structure DraftField (Location Value : Type) where
  id : Text
  value : DraftValue Value
  stage : FieldValueStage
  provenance : FieldProvenance Location

structure DraftEntry (Location Value : Type) where
  id : Text
  fields : List (DraftField Location Value)
  source : Location

structure GraphLimits where
  maxInheritanceDepth : Nat
  maxDiagnostics : Nat

inductive GraphError where
  | duplicateEntry (id : Text)
  | limit (message : String)
  /-- A position beyond the entries. -/
  | panicked

inductive BibSeverity where
  | warning
  | error

structure BibDiagnostic where
  code : String
  severity : BibSeverity
  message : Text
  entry : Option Text
  field : Option Text

variable {Location Value : Type}

namespace DraftEntry

def field (entry : DraftEntry Location Value) (id : Text) : Option (DraftValue Value) :=
  (entry.fields.find? fun field => field.id = id).map DraftField.value

def pushField (entry : DraftEntry Location Value) (field : DraftField Location Value) :
    DraftEntry Location Value :=
  { entry with fields := entry.fields ++ [field] }

def keys (entry : DraftEntry Location Value) (name : Text) : List Text :=
  match entry.field name with
  | some (.keyList keys) => keys
  | _ => []

end DraftEntry

def relationshipNames : List Text :=
  ["xdata".toList, "crossref".toList, "xref".toList, "related".toList, "entryset".toList]

def isRelationship (id : Text) : Bool :=
  relationshipNames.contains id

def provenanceSource (field : DraftField Location Value) (parent : DraftEntry Location Value) :
    Location :=
  match field.provenance with
  | .datasource source => source
  | .transformed source _ => source
  | .inherited source _ _ => source
  | .computed => parent.source

def indexFrom (lowercase : Text → Text) :
    Nat → List (DraftEntry Location Value) → List (Text × Nat) →
      Except GraphError (List (Text × Nat))
  | _, [], index => .ok index
  | position, entry :: entries, index =>
    if (index.lookup (lowercase entry.id)).isSome then .error (.duplicateEntry entry.id)
    else indexFrom lowercase (position + 1) entries ((lowercase entry.id, position) :: index)

structure Graph (Location Value : Type) where
  lowercase : Text → Text
  entries : List (DraftEntry Location Value)
  index : List (Text × Nat)
  aliases : List (Text × Text)
  inheritXref : Bool
  limits : GraphLimits
  indexed : indexFrom lowercase 0 entries [] = .ok index

structure Inheritance (Location Value : Type) where
  memo : List (Nat × DraftEntry Location Value)
  stack : List Nat
  diagnostics : List BibDiagnostic

abbrev Outcome (Location Value α : Type) := Except GraphError α × Inheritance Location Value

/-- The position of the entry that a key names, also through an alias. -/
def Graph.resolveId (graph : Graph Location Value) (id : Text) : Option Nat :=
  match graph.index.lookup (graph.lowercase id) with
  | some position => some position
  | none =>
    match graph.aliases.lookup (graph.lowercase id) with
    | some target => graph.index.lookup (graph.lowercase target)
    | none => none

def Graph.relationshipOrder (graph : Graph Location Value) : List Text :=
  if graph.inheritXref then ["xdata".toList, "crossref".toList, "xref".toList]
  else ["xdata".toList, "crossref".toList]

/-- The relationships of an entry with the keys they name, in the order of inheritance. -/
def Graph.parentsOf (graph : Graph Location Value) (child : DraftEntry Location Value) :
    List (Text × Text) :=
  graph.relationshipOrder.flatMap fun relationship =>
    (child.keys relationship).map fun parent => (relationship, parent)

def Inheritance.pushDiagnostic (state : Inheritance Location Value) (limits : GraphLimits)
    (diagnostic : BibDiagnostic) : Outcome Location Value Unit :=
  if state.diagnostics.length ≥ limits.maxDiagnostics then
    (.error (.limit "diagnostic limit exceeded"), state)
  else (.ok (), { state with diagnostics := state.diagnostics ++ [diagnostic] })

def missingParent (child : DraftEntry Location Value) (relationship parent : Text) :
    BibDiagnostic :=
  { code := "MISSING_PARENT"
    severity := .warning
    message := "entry `".toList ++ child.id ++ "` inherits from missing `".toList ++ parent ++
      "`".toList
    entry := some child.id
    field := some relationship }

/-- The entries of a cycle: those of the stack from where it starts, and this one again. -/
def circular (ids : List Text) (entry : Text) : BibDiagnostic :=
  { code := "CIRCULAR_INHERITANCE"
    severity := .error
    message := "circular inheritance: ".toList ++ " -> ".toList.intercalate (ids ++ [entry])
    entry := some entry
    field := none }

def inheritField (parent result : DraftEntry Location Value)
    (inherited : DraftField Location Value) : DraftEntry Location Value :=
  if isRelationship inherited.id ∨ (result.field inherited.id).isSome then result
  else
    result.pushField
      { id := inherited.id
        value := inherited.value
        stage := .derived
        provenance := .inherited (provenanceSource inherited parent) parent.id inherited.id }

def inheritFrom (parent result : DraftEntry Location Value) : DraftEntry Location Value :=
  parent.fields.foldl (inheritField parent) result

def Graph.resolveParents (graph : Graph Location Value)
    (resolveAt : Nat → Inheritance Location Value →
      Outcome Location Value (DraftEntry Location Value))
    (child : DraftEntry Location Value) :
    List (Text × Text) → DraftEntry Location Value → Inheritance Location Value →
      Outcome Location Value (DraftEntry Location Value)
  | [], result, state => (.ok result, state)
  | (relationship, parent) :: parents, result, state =>
    match graph.resolveId parent with
    | none =>
      match state.pushDiagnostic graph.limits (missingParent child relationship parent) with
      | (.error problem, state) => (.error problem, state)
      | (.ok (), state) => graph.resolveParents resolveAt child parents result state
    | some position =>
      match resolveAt position state with
      | (.error problem, state) => (.error problem, state)
      | (.ok parent, state) =>
        graph.resolveParents resolveAt child parents (inheritFrom parent result) state

def Graph.ids (graph : Graph Location Value) (positions : List Nat) : List Text :=
  positions.filterMap fun position => (graph.entries[position]?).map DraftEntry.id

/-- The entry of a position with what it inherits. The first argument is the room that the depth
limit leaves on the stack: each entry of the stack takes one from it. -/
def Graph.resolve (graph : Graph Location Value) :
    Nat → Nat → Inheritance Location Value → Outcome Location Value (DraftEntry Location Value)
  | 0, position, state =>
    match state.memo.lookup position with
    | some entry => (.ok entry, state)
    | none => (.error (.limit "inheritance depth limit exceeded"), state)
  | room + 1, position, state =>
    match state.memo.lookup position with
    | some entry => (.ok entry, state)
    | none =>
      match graph.entries[position]? with
      | none => (.error .panicked, state)
      | some entry =>
        if position ∈ state.stack then
          match state.pushDiagnostic graph.limits (circular
              (graph.ids (state.stack.dropWhile fun other => other ≠ position))
              entry.id) with
          | (.error problem, state) => (.error problem, state)
          | (.ok (), state) => (.ok entry, state)
        else
          match graph.resolveParents (graph.resolve room) entry (graph.parentsOf entry) entry
              { state with stack := state.stack ++ [position] } with
          | (.error problem, state) => (.error problem, state)
          | (.ok result, state) =>
            (.ok result,
              { state with
                stack := state.stack.dropLast
                memo := (position, result) :: state.memo })

def Graph.resolveEntry (graph : Graph Location Value) (position : Nat)
    (state : Inheritance Location Value) :
    Outcome Location Value (DraftEntry Location Value) :=
  graph.resolve graph.limits.maxInheritanceDepth position state

def Inheritance.new (diagnostics : List BibDiagnostic) : Inheritance Location Value :=
  { memo := [], stack := [], diagnostics }

end Umber.Biber
