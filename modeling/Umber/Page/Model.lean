import Umber.Lib.Bytes
import Umber.Lib.Utf8

/-! Detached page artifacts: the shipped node tree with the fonts, effects and
math events of one page. -/

set_option autoImplicit false

namespace Umber.Page

abbrev Scaled := Int32

structure Text where
  bytes : List UInt8
  valid : Utf8.Valid bytes
deriving DecidableEq

structure Fixed (α : Type) (length : Nat) where
  items : List α
  length_items : items.length = length
deriving DecidableEq

abbrev Identity := Fixed UInt8 8

structure GlueSetRatio where
  numerator : Int32
  denominator : Int32
  positive : 0 < denominator.toInt
  representable : -2147483647 ≤ numerator.toInt
  reduced : numerator.toInt.natAbs.gcd denominator.toInt.natAbs = 1

/-! ## Fonts -/

inductive FontLayoutPolicy where
  | openTypePreferred
  | classicTfmExact

inductive FontMappingFallbackPolicy where
  | error
  | classicTfmExact

inductive FontContainer where
  | openType
  | trueType
  | collection
  | woff2

structure OpenTypeTag where
  bytes : Fixed UInt8 4

def OpenTypeTag.isValid (tag : OpenTypeTag) : Bool :=
  tag.bytes.items.all fun byte => 0x20 ≤ byte.toNat && byte.toNat ≤ 0x7e

def OpenTypeTag.before (left right : OpenTypeTag) : Bool :=
  Bytes.ofBe left.bytes.items < Bytes.ofBe right.bytes.items

structure VariationCoordinate where
  tag : OpenTypeTag
  value : Int32

inductive VariationInstance where
  | default
  | named (subfamilyNameId : UInt16)
  | coordinates

def maxVariationAxes : Nat := 64

/-- Selected coordinates are those `VariationSelection::new` returns; the
coordinates of a named instance stand in the order of the axes of its font. -/
def VariationInstance.Admits (kind : VariationInstance)
    (coordinates : List VariationCoordinate) : Prop :=
  match kind with
  | .default => coordinates = []
  | .named _ =>
    (coordinates.map fun coordinate => coordinate.tag).Nodup ∧
      coordinates.length ≤ maxVariationAxes
  | .coordinates =>
    coordinates ≠ [] ∧ (∀ coordinate ∈ coordinates, coordinate.tag.isValid) ∧
      coordinates.Pairwise (fun left right => left.tag.before right.tag) ∧
      coordinates.length ≤ maxVariationAxes

structure VariationSelection where
  kind : VariationInstance
  coordinates : List VariationCoordinate
  admitted : kind.Admits coordinates

structure FeatureSetting where
  tag : OpenTypeTag
  value : UInt32

def maxFeatures : Nat := 256

structure FontFeaturePolicy where
  settings : List FeatureSetting
  validTags : ∀ setting ∈ settings, setting.tag.isValid
  sorted : settings.Pairwise fun left right => left.tag.before right.tag
  bounded : settings.length ≤ maxFeatures

inductive WritingDirection where
  | leftToRight
  | rightToLeft

/-- The bytes a language tag keeps: lowercase ASCII letters, digits and hyphens. -/
def isLanguageByte (byte : UInt8) : Bool :=
  (0x61 ≤ byte.toNat && byte.toNat ≤ 0x7a) || (0x30 ≤ byte.toNat && byte.toNat ≤ 0x39) ||
    byte == 0x2d

structure FontLanguage where
  value : List UInt8
  nonempty : value ≠ []
  bounded : value.length ≤ 63
  leading : value.head? ≠ some 0x2d
  trailing : value.getLast? ≠ some 0x2d
  canonical : ∀ byte ∈ value, isLanguageByte byte

structure OpenTypeFontResource where
  programIdentity : Identity
  objectIdentity : Identity
  instanceIdentity : Identity
  container : FontContainer
  faceIndex : UInt32
  variation : VariationSelection
  features : FontFeaturePolicy
  direction : WritingDirection
  script : Option OpenTypeTag
  language : Option FontLanguage
  encodingMapVersion : Option UInt8
  encodingMapIdentity : Option Identity
  fontdimenSynthesisVersion : Option UInt8

inductive FontResourceConstruction where
  | loaded
  | copied (sourceFontId : UInt32) (sourceIdentity : Identity)
  | letterspaced (sourceFontId : UInt32) (sourceIdentity : Identity) (amount : Int16)
      (noLigatures : Bool)
  | expanded (sourceFontId : UInt32) (sourceIdentity : Identity) (ratio : Int16)

structure FontResource where
  fontId : UInt32
  name : Text
  tfmContentHash : Identity
  tfmChecksum : UInt32
  designSize : Scaled
  atSize : Scaled
  layoutPolicy : FontLayoutPolicy
  mappingFallback : Option FontMappingFallbackPolicy
  opentype : Option OpenTypeFontResource
  semanticIdentity : Identity
  construction : FontResourceConstruction

/-! ## Nodes -/

inductive GlueOrder where
  | normal
  | fil
  | fill
  | filll
deriving DecidableEq

inductive GlueSign where
  | normal
  | stretching
  | shrinking
deriving DecidableEq

inductive KernKind where
  | explicit
  | font
  | auto
  | accent
  | leftMargin
  | rightMargin
deriving DecidableEq

inductive MarginKernSide where
  | left
  | right

inductive GlueKind where
  | normal
  | baselineSkip
  | lineSkip
  | leftSkip
  | rightSkip
  | parFillSkip
  | leaders
  | cleaders
  | xleaders

inductive DiscKind where
  | discretionary
  | explicitHyphen
  | automaticHyphen

inductive TokenCatcode where
  | escape
  | beginGroup
  | endGroup
  | mathShift
  | alignmentTab
  | endLine
  | parameter
  | superscript
  | subscript
  | ignored
  | space
  | letter
  | other
  | active
  | comment
  | invalid

inductive PageToken where
  | char (ch : UInt32) (cat : TokenCatcode)
  | controlSequence (name : Text)
  | activeControlSequence (ch : UInt32)
  | param (slot : UInt8)

structure GlueSpec where
  width : Scaled
  stretch : Scaled
  stretchOrder : GlueOrder
  shrink : Scaled
  shrinkOrder : GlueOrder
deriving DecidableEq

/-- A box without its children. A positive shift moves down in a horizontal
list and right in a vertical one. -/
structure BoxFields where
  width : Scaled
  height : Scaled
  depth : Scaled
  shift : Scaled
  glueSet : GlueSetRatio
  glueSign : GlueSign
  glueOrder : GlueOrder

/-- A shipped node. Glue stands under one constructor for each kind of leader
it may carry, and `box` is a horizontal or vertical list. -/
inductive PageNode where
  | char (fontId ch : UInt32) (width : Scaled)
  | lig (fontId ch : UInt32) (source : List UInt32) (width : Scaled)
  | kern (amount : Scaled) (kind : KernKind)
  | marginKern (amount : Scaled) (side : MarginKernSide) (fontId : UInt32) (ch : UInt8)
  | glue (spec : GlueSpec) (kind : GlueKind)
  | ruleLeader (spec : GlueSpec) (kind : GlueKind) (width height depth : Option Scaled)
  | boxLeader (spec : GlueSpec) (kind : GlueKind) (vertical : Bool) (fields : BoxFields)
      (children : List PageNode)
  | penalty (value : Int32)
  | rule (width height depth : Option Scaled)
  | box (vertical : Bool) (fields : BoxFields) (children : List PageNode)
  | disc (kind : DiscKind) (pre post replace : List PageNode)
  | mark (markClass : UInt16) (tokens : List PageToken)
  | insert (insertClass : UInt16) (content : List PageNode)
  | whatsitAnchor (effectIndex : UInt32)
  | mathOn (width : Scaled)
  | mathOff (width : Scaled)
  | adjust (content : List PageNode)

/-! ## Effects -/

inductive EffectSink where
  | terminal
  | log
  | terminalAndLog
  | stream (stream : UInt8)

inductive PdfAccessibilityEffect where
  | interwordSpaceOn
  | interwordSpaceOff
  | fakeSpace

inductive PdfAnnotationEffect where
  | annotation (object : UInt32)
  | linkStart (object : UInt32)
  | linkEnd (object : UInt32)
  | runningLink (enabled : Bool)

inductive PdfLiteralMode where
  | origin
  | page
  | direct

inductive PdfDestinationIdentifier where
  | name (name : List UInt8)
  | number (number : UInt32)

inductive PdfDestinationKind where
  | xyz (zoom : Option Int32)
  | fitBoundingBoxHorizontal
  | fitBoundingBoxVertical
  | fitBoundingBox
  | fitHorizontal
  | fitVertical
  | fitRectangle (width height depth : Option Scaled)
  | fit

structure PdfDestinationEffect where
  object : UInt32
  identifier : PdfDestinationIdentifier
  structureObject : Option UInt32
  kind : PdfDestinationKind
  margin : Scaled

structure PdfThreadEffect where
  threadObject : UInt32
  beadObject : UInt32
  rectangleObject : UInt32
  identifier : PdfDestinationIdentifier
  width : Option Scaled
  height : Option Scaled
  depth : Option Scaled
  attributes : List UInt8
  margin : Scaled

inductive PageEffect where
  | openOut (stream : UInt8) (path : Text)
  | closeOut (stream : UInt8)
  | write (sink : EffectSink) (text : Text)
  | special (specialClass : Text) (payload : List UInt8)
  | pdfAccessibility (control : PdfAccessibilityEffect)
  | pdfAnnotation (marker : PdfAnnotationEffect)
  | pdfLiteral (mode : PdfLiteralMode) (payload : List UInt8)
  | pdfSetMatrix (payload : List UInt8)
  | pdfSave
  | pdfRestore
  | pdfColorStack (mode : PdfLiteralMode) (payload : List UInt8) (pageStart : Bool)
  | pdfSavePosition
  | pdfSnapState (x y : Scaled)
  | pdfSnapRefPoint
  | pdfSnapY (spec : GlueSpec)
  | pdfSnapYComp (ratio : UInt16)
  | pdfRefXForm (object : UInt32) (width height depth : Scaled)
  | pdfRefXImage (object : UInt32) (width height depth : Scaled)
  | pdfDestination (marker : PdfDestinationEffect)
  | pdfThread (marker : PdfThreadEffect)
  | pdfStartThread (marker : PdfThreadEffect)
  | pdfEndThread

/-! ## Errors of the codec and of validation -/

inductive CodecLimitKind where
  | bytes
  | nodes
  | collectionLength
  | collectionItems
  | depth

inductive ArtifactValidationError where
  | rootNotBox
  | tooManyFonts (count limit : Nat)
  | tooManyEffects (count limit : Nat)
  | tooManyMathEvents (count limit : Nat)
  | tooManyNodes (count limit : Nat)
  | nestingTooDeep (depth limit : Nat)
  | duplicateFont (fontId : UInt32)
  | emptyFontName (fontId : UInt32)
  | invalidFontSize (fontId : UInt32)
  | invalidFontLayoutIdentity (fontId : UInt32)
  | missingFont (fontId : UInt32)
  | missingFontSource (fontId sourceFontId : UInt32)
  | realizedFontIdentityMismatch (fontId sourceFontId : UInt32)
  | missingEffect (effectIndex : UInt32)
  | characterOutOfRange (ch : UInt32)
  | invalidLigatureSourceLength (count : Nat)
  | invalidTokenScalar (ch : UInt32)
  | invalidStream (stream : UInt8)
  | invalidMathEventSequence
  | duplicateMathId (id : UInt32)
  | missingMathFontInstance
  | invalidMathCmapScalar (scalar : UInt32)
  | invalidMathSsty (level : UInt8)
  | invalidMathDimensions

inductive ParseError where
  | invalidMagic
  | unsupportedVersion (version : UInt8)
  | unexpectedEof
  | trailingBytes (offset len : Nat)
  | invalidUtf8
  | lengthOverflow
  | invalidTag (kind : String) (tag : UInt8)
  | invalidGlueSetRatio (numerator denominator : Int32)
  | limitExceeded (kind : CodecLimitKind) (actual limit : Nat)
  | validation (error : ArtifactValidationError)

end Umber.Page
