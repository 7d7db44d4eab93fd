import Mathlib.Data.List.AList
import Umber.Lib.Bytes
import Umber.Page.Geometry

/-! The page compiler: the state of one DVI page body in the making and the
operations the page traversal drives. -/

set_option autoImplicit false

namespace Umber.Dvi

open Umber.Page

/-! ## Movement stacks -/

inductive MovementInfo where
  | yHere
  | zHere
  | yzOk
  | yOk
  | zOk
  | dFixed
deriving DecidableEq

inductive MovementState where
  | none
  | y
  | z

structure MovementEntry where
  width : Int32
  location : Nat
  info : MovementInfo

structure MovementStack where
  entries : List MovementEntry

def y0Offset : UInt8 := 161 - 157
def z0Offset : UInt8 := 166 - 157
def y1Offset : UInt8 := 162 - 157
def z1Offset : UInt8 := 167 - 157

def threeByteMin : Int := -8388608
def threeByteMax : Int := 8388607

def MovementStack.empty : MovementStack :=
  { entries := [] }

def MovementStack.pruneMovements (stack : MovementStack) (saveLoc : Nat) : MovementStack :=
  { entries := stack.entries.dropWhile fun entry => saveLoc ≤ entry.location }

/-- The entry a search stops at, with the entries on both sides of it and the
bytes as the search leaves them. -/
structure MovementHit where
  newer : List MovementEntry
  entry : MovementEntry
  older : List MovementEntry
  bytes : List UInt8

def MovementHit.pass (entry : MovementEntry) (hit : MovementHit) : MovementHit :=
  { hit with newer := entry :: hit.newer }

inductive Reuse where
  | storeY
  | storeZ
  | recall
  | skip

def reuseAt : MovementState → MovementInfo → Reuse
  | .none, .yzOk | .none, .yOk | .z, .yzOk | .z, .yOk => .storeY
  | .none, .zOk | .y, .yzOk | .y, .zOk => .storeZ
  | .none, .yHere | .none, .zHere | .y, .zHere | .z, .yHere => .recall
  | _, _ => .skip

/-- The state of a search behind an entry of another amount, unless it ends there. -/
def stateBehind : MovementState → MovementInfo → Option MovementState
  | .none, .yHere => some .y
  | .none, .zHere => some .z
  | .y, .zHere | .z, .yHere => none
  | mstate, _ => some mstate

def findHit (width : Int32) (bytes : List UInt8) :
    MovementState → List MovementEntry → Option MovementHit
  | _, [] => none
  | mstate, entry :: older =>
    if entry.width = width then
      match reuseAt mstate entry.info with
      | .storeY =>
        some {
          newer := []
          entry := { entry with info := .yHere }
          older
          bytes := bytes.modify entry.location (· + y1Offset) }
      | .storeZ =>
        some {
          newer := []
          entry := { entry with info := .zHere }
          older
          bytes := bytes.modify entry.location (· + z1Offset) }
      | .recall => some { newer := [], entry, older, bytes }
      | .skip => (findHit width bytes mstate older).map (.pass entry)
    else
      match stateBehind mstate entry.info with
      | some next => (findHit width bytes next older).map (.pass entry)
      | none => none

def restrictInterveningY (entry : MovementEntry) : MovementEntry :=
  match entry.info with
  | .yzOk => { entry with info := .zOk }
  | .yOk => { entry with info := .dFixed }
  | _ => entry

def restrictInterveningZ (entry : MovementEntry) : MovementEntry :=
  match entry.info with
  | .yzOk => { entry with info := .yOk }
  | .zOk => { entry with info := .dFixed }
  | _ => entry

/-- The low `width` bytes of an amount, most significant first. -/
def lowBytes (width : Nat) (amount : Int32) : List UInt8 :=
  Bytes.be width (Bytes.unsigned width amount.toInt)

def emitExplicitMovement (bytes : List UInt8) (w : Int32) (o : UInt8) : List UInt8 :=
  if -128 ≤ w.toInt ∧ w.toInt ≤ 127 then bytes ++ o :: lowBytes 1 w
  else if -32768 ≤ w.toInt ∧ w.toInt ≤ 32767 then bytes ++ (o + 1) :: lowBytes 2 w
  else if threeByteMin ≤ w.toInt ∧ w.toInt ≤ threeByteMax then bytes ++ (o + 2) :: lowBytes 3 w
  else bytes ++ (o + 3) :: lowBytes 4 w

def MovementStack.movement (stack : MovementStack) (bytes : List UInt8) (w : Int32) (o : UInt8) :
    MovementStack × List UInt8 :=
  match findHit w bytes .none stack.entries with
  | some hit =>
    let entry := { width := w, location := bytes.length, info := hit.entry.info }
    if hit.entry.info = .yHere then
      ({ entries := entry :: (hit.newer.map restrictInterveningY ++ hit.entry :: hit.older) },
        hit.bytes ++ [o + y0Offset])
    else
      ({ entries := entry :: (hit.newer.map restrictInterveningZ ++ hit.entry :: hit.older) },
        hit.bytes ++ [o + z0Offset])
  | none =>
    ({ entries := { width := w, location := bytes.length, info := .yzOk } :: stack.entries },
      emitExplicitMovement bytes w o)

/-! ## Errors -/

inductive ArtifactFault where
  | unbalancedBoxEvents
  | parse (error : ParseError)

inductive DviError where
  | noPages
  | emptyFontName (fontId : UInt32)
  | fieldTooLong (field : String) (len : Nat)
  | missingFont (fontId : UInt32)
  | missingEffect (effectIndex : UInt32)
  | characterOutOfRange (ch : UInt32)
  | inconsistentJobInfo
  | tooManyPages (pages : Nat)
  | specialTooLong (len : Nat)
  | offsetOverflow (offset : Nat)
  | positionOverflow
  | inconsistentFontResource (fontId : UInt32)
  | artifact (fault : ArtifactFault)
  | poisoned

/-- A reported error, or an internal expectation that does not hold and stops
the process. -/
inductive DviFailure where
  | error (error : DviError)
  | expectation (message : String)

def expect {α : Type} (value : Option α) (message : String) : Except DviFailure α :=
  match value with
  | some value => .ok value
  | none => .error (.expectation message)

def orError {α : Type} (value : Option α) (error : DviError) : Except DviFailure α :=
  match value with
  | some value => .ok value
  | none => .error (.error error)

def addScaled (left right : Scaled) : Except DviFailure Scaled :=
  orError (Scaled.checkedAdd left right) .positionOverflow

def subScaled (left right : Scaled) : Except DviFailure Scaled :=
  orError (Scaled.checkedSub left right) .positionOverflow

def ofGeometry {α : Type} : Except GeometryError α → Except DviFailure α
  | .ok value => .ok value
  | .error (.missingEffect effectIndex) => .error (.error (.missingEffect effectIndex))
  | .error .positionOverflow => .error (.error .positionOverflow)

/-! ## State -/

namespace Opcode

def set1 : UInt8 := 128
def setRule : UInt8 := 132
def putRule : UInt8 := 137
def push : UInt8 := 141
def pop : UInt8 := 142
def right1 : UInt8 := 143
def down1 : UInt8 := 157
def fntNum0 : UInt8 := 171
def fnt1 : UInt8 := 235
def fnt2 : UInt8 := 236
def fnt3 : UInt8 := 237
def fnt4 : UInt8 := 238
def xxx1 : UInt8 := 239
def xxx4 : UInt8 := 242
def fntDef1 : UInt8 := 243
def fntDef2 : UInt8 := 244
def fntDef3 : UInt8 := 245
def fntDef4 : UInt8 := 246

end Opcode

structure FontKey where
  fontId : UInt32
  name : Text
  tfmChecksum : UInt32
  designSize : Scaled
  atSize : Scaled
  realizedIdentity : Identity
deriving DecidableEq

def FontKey.ofResource (font : FontResource) : FontKey :=
  { fontId := font.fontId
    name := font.name
    tfmChecksum := font.tfmChecksum
    designSize := font.designSize
    atSize := font.atSize
    realizedIdentity := font.semanticIdentity }

structure DefinedFont where
  number : UInt32
  font : FontResource

structure FontDefinitionSite where
  fontId : UInt32
  start : Nat
  finish : Nat

structure DviPopSite where
  popOffset : Nat

structure DviBodyCompiler where
  bytes : List UInt8
  fonts : AList fun _ : FontKey => DefinedFont
  fontsByNumber : AList fun _ : UInt32 => FontKey
  pageFonts : AList fun _ : UInt32 => FontResource
  maxStackDepth : Nat
  rightStack : MovementStack
  downStack : MovementStack
  dviH : Scaled
  dviV : Scaled
  curH : Scaled
  curV : Scaled
  dviF : Option UInt32
  curS : Int
  fontDefinitionSites : Option (List FontDefinitionSite)
  dviPopSaveLocs : List Nat
  dviPopSites : List DviPopSite
  snapReference : Scaled × Scaled

def DviBodyCompiler.new : DviBodyCompiler :=
  { bytes := []
    fonts := ∅
    fontsByNumber := ∅
    pageFonts := ∅
    maxStackDepth := 0
    rightStack := .empty
    downStack := .empty
    dviH := 0
    dviV := 0
    curH := 0
    curV := 0
    dviF := none
    curS := -1
    fontDefinitionSites := none
    dviPopSaveLocs := []
    dviPopSites := []
    snapReference := (0, 0) }

namespace DviBodyCompiler

/-! ## Bytes -/

def raw (self : DviBodyCompiler) (bytes : List UInt8) : DviBodyCompiler :=
  { self with bytes := self.bytes ++ bytes }

def u8 (self : DviBodyCompiler) (value : UInt8) : DviBodyCompiler :=
  self.raw [value]

def u16 (self : DviBodyCompiler) (value : Nat) : DviBodyCompiler :=
  self.raw (Bytes.be 2 value)

def u24 (self : DviBodyCompiler) (value : UInt32) : DviBodyCompiler :=
  self.raw (Bytes.be 3 value.toNat)

def u32 (self : DviBodyCompiler) (value : UInt32) : DviBodyCompiler :=
  self.raw (Bytes.be 4 value.toNat)

def i32 (self : DviBodyCompiler) (value : Int32) : DviBodyCompiler :=
  self.raw (lowBytes 4 value)

def scaled (self : DviBodyCompiler) (value : Scaled) : DviBodyCompiler :=
  self.i32 value

end DviBodyCompiler

def splitFontName (name : List UInt8) : List UInt8 × List UInt8 :=
  ((name.reverse.dropWhile (· ≠ 0x2f)).reverse, (name.reverse.takeWhile (· ≠ 0x2f)).reverse)

def limitedBytes (field : String) (bytes : List UInt8) : Except DviFailure (List UInt8) :=
  if bytes.length > 255 then .error (.error (.fieldTooLong field bytes.length)) else .ok bytes

namespace DviBodyCompiler

def fntDef (self : DviBodyCompiler) (number : UInt32) (font : FontResource) :
    Except DviFailure DviBodyCompiler := do
  let (area, name) := splitFontName font.name.bytes
  let area ← limitedBytes "font area" area
  let name ← limitedBytes "font name" name
  if name.isEmpty then .error (.error (.emptyFontName font.fontId))
  else
    let self :=
      if number.toNat ≤ 0xff then (self.u8 Opcode.fntDef1).u8 number.toUInt8
      else if number.toNat ≤ 0xffff then (self.u8 Opcode.fntDef2).u16 number.toNat
      else if number.toNat ≤ 0xffffff then (self.u8 Opcode.fntDef3).u24 number
      else (self.u8 Opcode.fntDef4).u32 number
    let self := self.u32 font.tfmChecksum
    let self := self.scaled font.atSize
    let self := self.scaled font.designSize
    let self := self.u8 (UInt8.ofNat area.length)
    let self := self.u8 (UInt8.ofNat name.length)
    let self := self.raw area
    pure (self.raw name)

def ensureFontDefined (self : DviBodyCompiler) (font : FontResource) :
    Except DviFailure (UInt32 × DviBodyCompiler) := do
  let key := FontKey.ofResource font
  match self.fonts.lookup key with
  | some defined => pure (defined.number, self)
  | none =>
    let number := font.fontId
    let definitionStart := self.bytes.length
    let self ← self.fntDef number font
    let site := { fontId := number, start := definitionStart, finish := self.bytes.length }
    pure (number,
      { self with
        fontDefinitionSites := self.fontDefinitionSites.map (· ++ [site])
        fonts := self.fonts.insert key { number, font } })

def changeFont (self : DviBodyCompiler) (fontId : UInt32) : Except DviFailure DviBodyCompiler :=
  if self.dviF = some fontId then .ok self
  else do
    let font ← orError (self.pageFonts.lookup fontId) (.missingFont fontId)
    let (number, self) ← self.ensureFontDefined font
    let self :=
      if number.toNat ≤ 63 then self.u8 (Opcode.fntNum0 + number.toUInt8)
      else if number.toNat ≤ 0xff then (self.u8 Opcode.fnt1).u8 number.toUInt8
      else if number.toNat ≤ 0xffff then (self.u8 Opcode.fnt2).u16 number.toNat
      else if number.toNat ≤ 0xffffff then (self.u8 Opcode.fnt3).u24 number
      else (self.u8 Opcode.fnt4).u32 number
    pure { self with dviF := some number }

def setChar (self : DviBodyCompiler) (ch : UInt32) : Except DviFailure DviBodyCompiler :=
  if ch.toNat ≤ 255 then
    if ch.toNat < Opcode.set1.toNat then .ok (self.u8 ch.toUInt8)
    else .ok ((self.u8 Opcode.set1).u8 ch.toUInt8)
  else .error (.error (.characterOutOfRange ch))

/-! ## Positions -/

def synchH (self : DviBodyCompiler) : Except DviFailure DviBodyCompiler :=
  if self.curH ≠ self.dviH then do
    let movement ← subScaled self.curH self.dviH
    let (rightStack, bytes) := self.rightStack.movement self.bytes movement Opcode.right1
    pure { self with rightStack, bytes, dviH := self.curH }
  else .ok self

def synchV (self : DviBodyCompiler) : Except DviFailure DviBodyCompiler :=
  if self.curV ≠ self.dviV then do
    let movement ← subScaled self.curV self.dviV
    let (downStack, bytes) := self.downStack.movement self.bytes movement Opcode.down1
    pure { self with downStack, bytes, dviV := self.curV }
  else .ok self

def pruneMovements (self : DviBodyCompiler) (saveLoc : Nat) : DviBodyCompiler :=
  { self with
    downStack := self.downStack.pruneMovements saveLoc
    rightStack := self.rightStack.pruneMovements saveLoc }

def dviPop (self : DviBodyCompiler) : DviBodyCompiler :=
  let dviPopSites := self.dviPopSites ++ [{ popOffset := self.bytes.length }]
  { self with dviPopSites }.u8 Opcode.pop

def enterBox (self : DviBodyCompiler) : DviBodyCompiler :=
  let curS := self.curS + 1
  { self with
    curS
    maxStackDepth :=
      if 0 ≤ curS ∧ curS ≤ 65535 then max self.maxStackDepth curS.toNat else self.maxStackDepth }

/-! ## Rules and specials -/

def outputRuleInHlist (self : DviBodyCompiler) (ruleHt ruleDp ruleWd baseLine : Scaled) :
    Except DviFailure DviBodyCompiler := do
  let total ← addScaled ruleHt ruleDp
  if 0 < total.toInt ∧ 0 < ruleWd.toInt then do
    let self ← self.synchH
    let curV ← addScaled baseLine ruleDp
    let self := { self with curV }
    let self ← self.synchV
    let self := self.u8 Opcode.setRule
    let self := self.scaled total
    let self := self.scaled ruleWd
    let dviH ← addScaled self.dviH ruleWd
    pure { self with curV := baseLine, dviH }
  else pure self

def outputRuleInVlist (self : DviBodyCompiler) (ruleHt ruleWd : Scaled) :
    Except DviFailure DviBodyCompiler := do
  let curV ← addScaled self.curV ruleHt
  let self := { self with curV }
  if 0 < ruleHt.toInt ∧ 0 < ruleWd.toInt then do
    let self ← self.synchH
    let self ← self.synchV
    let self := self.u8 Opcode.putRule
    let self := self.scaled ruleHt
    pure (self.scaled ruleWd)
  else pure self

def specialOut (self : DviBodyCompiler) (payload : List UInt8) :
    Except DviFailure DviBodyCompiler := do
  let self ← self.synchH
  let self ← self.synchV
  if payload.length < 256 then
    let self := self.u8 Opcode.xxx1
    let self := self.u8 (UInt8.ofNat payload.length)
    pure (self.raw payload)
  else if payload.length ≤ 2147483647 then
    let self := self.u8 Opcode.xxx4
    let self := self.raw (Bytes.be 4 payload.length)
    pure (self.raw payload)
  else .error (.error (.specialTooLong payload.length))

def outWhat (self : DviBodyCompiler) (effects : List PageEffect) (effectIndex : UInt32) :
    Except DviFailure DviBodyCompiler := do
  let effect ← orError effects[effectIndex.toNat]? (.missingEffect effectIndex)
  match effect with
  | .special _ payload => self.specialOut payload
  | _ => pure self

def outWhatV (self : DviBodyCompiler) (effects : List PageEffect) (effectIndex : UInt32)
    (following : List PageNode) (thisBox : BoxFields) (totals : GlueTotals) :
    Except DviFailure DviBodyCompiler := do
  let effect ← orError effects[effectIndex.toNat]? (.missingEffect effectIndex)
  match effect with
  | .pdfSnapRefPoint => pure { self with snapReference := (self.curH, self.curV) }
  | .pdfSnapY spec =>
    match correction self.curV self.snapReference.2 spec with
    | some delta => do
      let curV ← addScaled self.curV delta
      pure { self with curV }
    | none => pure self
  | .pdfSnapYComp ratio => do
    let predicted ← ofGeometry (predictSnapCorrection effects thisBox following self.curV
      self.snapReference.2 totals)
    match predicted with
    | some delta => do
      let delta ← expect (compensate delta ratio) "clamped snapping compensation fits i32"
      let curV ← addScaled self.curV delta
      pure { self with curV }
    | none => pure self
  | _ => self.outWhat effects effectIndex

end DviBodyCompiler

end Umber.Dvi
