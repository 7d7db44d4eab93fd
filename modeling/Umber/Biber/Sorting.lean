import Umber.Lib.Comparator

/-! Data lists: which entries of a section appear in a list, the keys a sort template computes
for them, and how keys are compared. -/

set_option autoImplicit false

namespace Umber.Biber

abbrev Text := List Char

inductive OptionValue where
  | boolean (value : Bool)
  | integer (value : Int)
  | string (value : Text)
  | strings (values : List Text)
  deriving DecidableEq

structure NamePartValue where
  value : Text
  initials : List Text

structure Name where
  family : Option NamePartValue
  given : Option NamePartValue
  prefix_ : Option NamePartValue
  suffix : Option NamePartValue
  usePrefix : Option Bool

inductive FieldValue where
  | literal (value : Text)
  | verbatim (value : Text)
  | integer (value : Int)
  | boolean (value : Bool)
  | nameList (names : List Name)
  | literalList (values : List Text)
  | keyList
  | uriList
  | rangeList
  | date

structure Entry where
  id : Text
  entryType : Text
  fields : List (Text × FieldValue)
  /-- The option layers, the weakest first. -/
  options : List (List (Text × OptionValue))

def Entry.field (entry : Entry) (field : Text) : Option FieldValue :=
  (entry.fields.find? fun candidate => candidate.1 = field).map Prod.snd

def Entry.option (entry : Entry) (id : Text) : Option OptionValue :=
  entry.options.reverse.findSome? fun layer =>
    (layer.find? fun candidate => candidate.1 = id).map Prod.snd

inductive EntryDisposition where
  | normal
  | skipBibliography
  | skipLabels
  | dataOnly
  deriving DecidableEq

def optionIsTrue (entry : Entry) (name : Text) : Bool :=
  entry.option name = some (.boolean true)

def EntryDisposition.fromEntry (entry : Entry) : EntryDisposition :=
  if optionIsTrue entry "dataonly".toList then .dataOnly
  else if optionIsTrue entry "skipbib".toList then .skipBibliography
  else if optionIsTrue entry "skiplab".toList then .skipLabels
  else .normal

def EntryDisposition.appearsInList (disposition : EntryDisposition) : Bool :=
  disposition ≠ .skipBibliography ∧ disposition ≠ .dataOnly

def nameSeparator : Char := Char.ofNat 0x10FFFD

def join (texts : List Text) : Text :=
  List.intercalate [nameSeparator] texts

inductive NameKeyPart where
  | prefix_
  | family
  | given
  | suffix

structure NameKeyTemplate where
  parts : List NameKeyPart := [.prefix_, .family, .given, .suffix]
  usePrefix : Bool := true
  initialsOnly : Bool := false

def Name.part (name : Name) (template : NameKeyTemplate) : NameKeyPart → Option NamePartValue
  | .prefix_ =>
    if ¬ template.usePrefix ∨ name.usePrefix = some false then none else name.prefix_
  | .family => name.family
  | .given => name.given
  | .suffix => name.suffix

def nameSortKey (name : Name) (template : NameKeyTemplate) : Text :=
  join (template.parts.filterMap fun part =>
    (name.part template part).map fun value =>
      if template.initialsOnly then
        if value.initials.flatten.isEmpty then value.value.take 1 else value.initials.flatten
      else value.value)

def fieldText : FieldValue → Option Text
  | .literal value => some value
  | .verbatim value => some value
  | .integer value => some (toString value).toList
  | .boolean value => some (toString value).toList
  | .literalList values => some (join values)
  | .nameList names => some (join (names.map fun name => nameSortKey name {}))
  | .keyList | .uriList | .rangeList | .date => none

inductive DataListFilter where
  | all
  | entryType (value : Text)
  | hasField (field : Text)
  | fieldEquals (field value : Text)
  | entryIds (ids : List Text)
  | not (filter : DataListFilter)
  | and (filters : List DataListFilter)
  | or (filters : List DataListFilter)

mutual

def DataListFilter.matches_ (entry : Entry) : DataListFilter → Bool
  | .all => true
  | .entryType value => entry.entryType = value
  | .hasField field => (entry.field field).isSome
  | .fieldEquals field value =>
    ((entry.field field).bind fieldText).any fun actual => actual = value
  | .entryIds ids => ids.contains entry.id
  | .not filter => !filter.matches_ entry
  | .and filters => DataListFilter.allMatch entry filters
  | .or filters => DataListFilter.anyMatch entry filters

def DataListFilter.allMatch (entry : Entry) : List DataListFilter → Bool
  | [] => true
  | filter :: filters => filter.matches_ entry && DataListFilter.allMatch entry filters

def DataListFilter.anyMatch (entry : Entry) : List DataListFilter → Bool
  | [] => false
  | filter :: filters => filter.matches_ entry || DataListFilter.anyMatch entry filters

end

structure DataListLimits where
  maximumEntries : Nat := 1000000
  maximumSortComponents : Nat := 64
  maximumKeyChars : Nat := 1048576

inductive Locale where
  | root
  | swedish
  | spanish
  deriving DecidableEq

inductive CaseOrder where
  | folded
  | upperFirst
  | lowerFirst

inductive SortDirection where
  | ascending
  | descending

inductive MissingOrder where
  | first
  | last

inductive PadDirection where
  | left
  | right

inductive SortField where
  | field (field : Text)
  | entryId
  | entryType
  | citeOrder
  | constant (value : Text)

structure SortOptions where
  direction : SortDirection := .ascending
  missing : MissingOrder := .last
  finalValue : Bool := false
  numeric : Bool := false
  padWidth : Option Nat := none
  padDirection : PadDirection := .left
  padChar : Char := '0'
  substring : Option (Nat × Nat) := none
  locale : Locale := .root
  caseOrder : CaseOrder := .folded

structure SortComponent where
  field : SortField
  options : SortOptions

structure SortTemplate where
  components : List SortComponent
  nonempty : components ≠ []

inductive SortError where
  | emptyTemplate
  | tooManyEntries
  | tooManyComponents
  | keyTooLong
  | duplicateEntry

def SortTemplate.new (components : List SortComponent) : Except SortError SortTemplate :=
  if nonempty : components ≠ [] then .ok { components, nonempty } else .error .emptyTemplate

def pad (value : Text) (width : Nat) (direction : PadDirection) (padChar : Char) : Text :=
  let padding := List.replicate (width - value.length) padChar
  match direction with
  | .left => padding ++ value
  | .right => value ++ padding

def componentValue (entry : Entry) (component : SortComponent) (citeOrder : Nat) : Option Text :=
  let value :=
    match component.field with
    | .field field => (entry.field field).bind fieldText
    | .entryId => some entry.id
    | .entryType => some entry.entryType
    | .citeOrder => some (toString citeOrder).toList
    | .constant value => some value
  value.map fun value =>
    let value :=
      match component.options.substring with
      | some (offset, length) => (value.drop offset).take length
      | none => value
    match component.options.padWidth with
    | some width => pad value width component.options.padDirection component.options.padChar
    | none => value

structure UnicodeTables where
  nfkd : Text → Text
  isCombiningMark : Char → Bool
  toLowercase : Char → Text
  isLowercase : Char → Bool
  isUppercase : Char → Bool

variable (tables : UnicodeTables)

def rootKey (value : Text) : List Nat :=
  (((tables.nfkd value).flatMap tables.toLowercase).filter
    fun character => !tables.isCombiningMark character).map Char.toNat

def localeWeights (value : Text) (locale : Locale) : List Nat :=
  (value.flatMap tables.toLowercase).flatMap fun character =>
    match locale, character with
    | .swedish, 'å' => ['z'.toNat + 1]
    | .swedish, 'ä' => ['z'.toNat + 2]
    | .swedish, 'ö' => ['z'.toNat + 3]
    | .spanish, 'ñ' => ['n'.toNat, (UInt32.size - 1) / 2]
    | _, _ => rootKey tables [character]

def collationKey (value : Text) (options : SortOptions) : List Nat × List Nat :=
  let primary :=
    if options.locale = .root then rootKey tables value
    else localeWeights tables value options.locale
  let case_ := value.map fun character =>
    match options.caseOrder with
    | .folded => 0
    | .upperFirst => (tables.isLowercase character).toNat
    | .lowerFirst => (tables.isUppercase character).toNat
  (primary, case_)

def compareNat (left right : Nat) : Ordering :=
  instOrdNat.compare left right

def compareInt (left right : Int) : Ordering :=
  instOrdInt.compare left right

def compareCollation (left right : List Nat × List Nat) : Ordering :=
  (List.compareLex compareNat left.1 right.1).then (List.compareLex compareNat left.2 right.2)

def parseDigits : Text → Nat → Option Nat
  | [], value => some value
  | digit :: digits, value =>
    if '0'.toNat ≤ digit.toNat ∧ digit.toNat ≤ '9'.toNat then
      parseDigits digits (value * 10 + (digit.toNat - '0'.toNat))
    else none

def i128Bound : Nat := 170141183460469231731687303715884105728

def parseI128 : Text → Option Int
  | [] => none
  | '-' :: digits =>
    if digits.isEmpty then none
    else (parseDigits digits 0).bind fun value =>
      if value ≤ i128Bound then some (-(value : Int)) else none
  | '+' :: digits =>
    if digits.isEmpty then none
    else (parseDigits digits 0).bind fun value =>
      if value < i128Bound then some (value : Int) else none
  | digits =>
    (parseDigits digits 0).bind fun value =>
      if value < i128Bound then some (value : Int) else none

def compareTexts (options : SortOptions) (left right : Text) : Ordering :=
  compareCollation (collationKey tables left options) (collationKey tables right options)

def compareComponent (left right : Option Text) (options : SortOptions) : Ordering :=
  let order :=
    match left, right with
    | none, none => .eq
    | none, some _ =>
      match options.missing with
      | .first => .lt
      | .last => .gt
    | some _, none =>
      match options.missing with
      | .first => .gt
      | .last => .lt
    | some left, some right =>
      if options.numeric then
        match parseI128 left, parseI128 right with
        | some left, some right => compareInt left right
        | _, _ => compareTexts tables options left right
      else compareTexts tables options left right
  match options.direction with
  | .descending => order.swap
  | .ascending => order

structure KeyedEntry where
  sourceOrder : Nat
  entry : Entry
  keys : List (Option Text)

/-- The components in order. A value present on both sides of a final component ends them. -/
def compareKeys (tie : Ordering) :
    List SortComponent → List (Option Text) → List (Option Text) → Ordering
  | component :: components, left :: lefts, right :: rights =>
    let order := compareComponent tables left right component.options
    if order ≠ .eq then order
    else if component.options.finalValue ∧ left.isSome ∧ right.isSome then tie
    else compareKeys tie components lefts rights
  | _, _, _ => tie

def compareKeyed (components : List SortComponent) (left right : KeyedEntry) : Ordering :=
  compareKeys tables (compareNat left.sourceOrder right.sourceOrder) components left.keys right.keys

structure DataListBuilder where
  entries : List Entry
  filter : DataListFilter := .all
  template : SortTemplate
  limits : DataListLimits := {}
  includeSkipped : Bool := false

structure SortedEntry where
  id : Text
  keys : List (Option Text)

def DataListBuilder.appearing (self : DataListBuilder) : List Entry :=
  self.entries.filter fun entry =>
    self.filter.matches_ entry &&
      (self.includeSkipped || (EntryDisposition.fromEntry entry).appearsInList)

def DataListBuilder.keyed (self : DataListBuilder) : List KeyedEntry :=
  self.appearing.mapIdx fun sourceOrder entry =>
    { sourceOrder
      entry
      keys := self.template.components.map fun component =>
        componentValue entry component sourceOrder }

def KeyedEntry.keyChars (keyed : KeyedEntry) : Nat :=
  (keyed.keys.filterMap id).foldl (fun chars key => chars + key.length) 0

def DataListBuilder.sortedEntries (self : DataListBuilder) :
    Except SortError (List SortedEntry) :=
  if self.template.components.length > self.limits.maximumSortComponents then
    .error .tooManyComponents
  else if self.appearing.length > self.limits.maximumEntries then
    .error .tooManyEntries
  else if self.keyed.any fun keyed => keyed.keyChars > self.limits.maximumKeyChars then
    .error .keyTooLong
  else
    .ok ((Comparator.sortBy (compareKeyed tables self.template.components) self.keyed).map
      fun keyed => { id := keyed.entry.id, keys := keyed.keys })

end Umber.Biber
