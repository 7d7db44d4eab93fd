import Umber.State.FontRuntime

/-! The cells of the dense state, and reading, writing and exchanging them. -/

set_option autoImplicit false

namespace Umber.State

inductive CodeTableKind where
  | catcode
  | lccode
  | uccode
  | sfcode
  | mathcode
  | delcode
deriving DecidableEq

inductive StateCell where
  | meaning (index : UInt32)
  | count (index : UInt16)
  | dimension (index : UInt16)
  | tokenRegister (index : UInt16)
  | glueRegister (index : UInt16)
  | boxRegister (index : UInt16)
  | muGlueRegister (index : UInt16)
  | integerParameter (index : UInt16)
  | dimensionParameter (index : UInt16)
  | tokenParameter (index : UInt16)
  | glueParameter (index : UInt16)
  | currentFont
  | mathFamilyFont (index : UInt8)
  | code (kind : CodeTableKind) (index : UInt32)
  | fontRuntime (cell : FontRuntimeCell)
deriving DecidableEq

structure References where
  Meaning : Type
  TokenList : Type
  Glue : Type

inductive StateWord (R : References) where
  | meaning (value : R.Meaning)
  | integer (value : Int32)
  | dimension (value : Scaled)
  | tokenList (value : Option R.TokenList)
  | glue (value : Option R.Glue)
  | font (value : UInt32)
  | code (value : Int64)

inductive GroupKind where
  | simple
  | hBox
  | adjustedHBox
  | vBox
  | vTop
  | semiSimple
  | mathShift
  | align
  | noAlign
  | output
  | math
  | disc
  | insert
  | vCenter
  | mathChoice
  | mathLeft
deriving DecidableEq

inductive StateError where
  | bank (error : BankError)
  | cellKindMismatch
  | checkpointIneligible
  | checkpointEpochExhausted
  | invalidCursor
  | groupDepthExhausted
  | groupLineageExhausted
  | groupMismatch (expected : GroupKind) (actual : Option GroupKind)
  /-- A failed assertion, which stops the engine. -/
  | assertion

def StateError.ofBank {α : Type} : Except BankError α → Except StateError α
  | .ok value => .ok value
  | .error error => .error (.bank error)

def isExtendedRegisterCell : StateCell → Bool
  | .count index => 255 < index.toNat
  | .dimension index => 255 < index.toNat
  | .tokenRegister index => 255 < index.toNat
  | .glueRegister index => 255 < index.toNat
  | .boxRegister index => 255 < index.toNat
  | .muGlueRegister index => 255 < index.toNat
  | _ => false

def wordMatches {R : References} : StateCell → StateWord R → Bool
  | .meaning _, .meaning _ => true
  | .count _, .integer _ => true
  | .dimension _, .dimension _ => true
  | .tokenRegister _, .tokenList _ => true
  | .glueRegister _, .glue _ => true
  | .muGlueRegister _, .glue _ => true
  | .integerParameter _, .integer _ => true
  | .dimensionParameter _, .dimension _ => true
  | .tokenParameter _, .tokenList _ => true
  | .glueParameter _, .glue _ => true
  | .currentFont, .font _ => true
  | .mathFamilyFont _, .font _ => true
  | .code _ _, .code _ => true
  | .fontRuntime _, .integer _ => true
  | .fontRuntime _, .dimension _ => true
  | _, _ => false

structure Banks (R : References) where
  meanings : MeaningBank R.Meaning
  counts : RegisterBank Int32
  dimensions : RegisterBank Scaled
  tokenRegisters : RegisterBank (Option R.TokenList)
  glueRegisters : RegisterBank (Option R.Glue)
  muGlueRegisters : RegisterBank (Option R.Glue)
  integerParameters : DenseBank Int32
  dimensionParameters : DenseBank Scaled
  tokenParameters : DenseBank (Option R.TokenList)
  glueParameters : DenseBank (Option R.Glue)
  currentFont : BankCell UInt32
  mathFamilyFonts : DenseBank UInt32
  codes : CodeTableKind → PagedDenseBank Int64
  fontRuntime : FontRuntimeBank

namespace Banks

variable {R : References}

def wrap {α : Type} (read : Except BankError (BankCell α)) (word : α → StateWord R) :
    Except StateError (BankCell (StateWord R)) :=
  match read with
  | .ok cell => .ok (cell.map word)
  | .error error => .error (.bank error)

def readCell (banks : Banks R) : StateCell → Except StateError (BankCell (StateWord R))
  | .meaning index => wrap (banks.meanings.rows.get index.toNat) .meaning
  | .count index => wrap (banks.counts.get index.toNat) .integer
  | .dimension index => wrap (banks.dimensions.get index.toNat) .dimension
  | .tokenRegister index => wrap (banks.tokenRegisters.get index.toNat) .tokenList
  | .glueRegister index => wrap (banks.glueRegisters.get index.toNat) .glue
  | .boxRegister _ => .error .cellKindMismatch
  | .muGlueRegister index => wrap (banks.muGlueRegisters.get index.toNat) .glue
  | .integerParameter index => wrap (banks.integerParameters.get index.toNat) .integer
  | .dimensionParameter index => wrap (banks.dimensionParameters.get index.toNat) .dimension
  | .tokenParameter index => wrap (banks.tokenParameters.get index.toNat) .tokenList
  | .glueParameter index => wrap (banks.glueParameters.get index.toNat) .glue
  | .currentFont => .ok (banks.currentFont.map .font)
  | .mathFamilyFont index => wrap (banks.mathFamilyFonts.get index.toNat) .font
  | .code kind index => wrap ((banks.codes kind).get index.toNat) .code
  | .fontRuntime cell =>
    match banks.fontRuntime.read cell with
    | .ok (.integer value) => .ok (value.map .integer)
    | .ok (.dimension value) => .ok (value.map .dimension)
    | .error error => .error (.bank error)

def writeCell (banks : Banks R) (cell : StateCell) (content : BankCell (StateWord R)) :
    Except StateError (Banks R) :=
  let level := content.level
  let saveSerial := content.saveSerial
  match cell, content.value with
  | .meaning index, .meaning value => do
    let rows ← StateError.ofBank (banks.meanings.rows.write index.toNat { value, level, saveSerial })
    pure { banks with meanings := { banks.meanings with rows } }
  | .count index, .integer value => do
    let counts ← StateError.ofBank (banks.counts.write index.toNat { value, level, saveSerial })
    pure { banks with counts }
  | .dimension index, .dimension value => do
    let dimensions ← StateError.ofBank (banks.dimensions.write index.toNat { value, level, saveSerial })
    pure { banks with dimensions }
  | .tokenRegister index, .tokenList value => do
    let tokenRegisters ←
      StateError.ofBank (banks.tokenRegisters.write index.toNat { value, level, saveSerial })
    pure { banks with tokenRegisters }
  | .glueRegister index, .glue value => do
    let glueRegisters ←
      StateError.ofBank (banks.glueRegisters.write index.toNat { value, level, saveSerial })
    pure { banks with glueRegisters }
  | .muGlueRegister index, .glue value => do
    let muGlueRegisters ←
      StateError.ofBank (banks.muGlueRegisters.write index.toNat { value, level, saveSerial })
    pure { banks with muGlueRegisters }
  | .integerParameter index, .integer value => do
    let integerParameters ←
      StateError.ofBank (banks.integerParameters.write index.toNat { value, level, saveSerial })
    pure { banks with integerParameters }
  | .dimensionParameter index, .dimension value => do
    let dimensionParameters ←
      StateError.ofBank (banks.dimensionParameters.write index.toNat { value, level, saveSerial })
    pure { banks with dimensionParameters }
  | .tokenParameter index, .tokenList value => do
    let tokenParameters ←
      StateError.ofBank (banks.tokenParameters.write index.toNat { value, level, saveSerial })
    pure { banks with tokenParameters }
  | .glueParameter index, .glue value => do
    let glueParameters ←
      StateError.ofBank (banks.glueParameters.write index.toNat { value, level, saveSerial })
    pure { banks with glueParameters }
  | .currentFont, .font value => .ok { banks with currentFont := { value, level, saveSerial } }
  | .mathFamilyFont index, .font value => do
    let mathFamilyFonts ←
      StateError.ofBank (banks.mathFamilyFonts.write index.toNat { value, level, saveSerial })
    pure { banks with mathFamilyFonts }
  | .code kind index, .code value => do
    let bank ← StateError.ofBank ((banks.codes kind).write index.toNat { value, level, saveSerial })
    pure { banks with codes := setAt banks.codes kind bank }
  | .fontRuntime cell, .integer value => do
    let fontRuntime ←
      StateError.ofBank (banks.fontRuntime.write cell (.integer { value, level, saveSerial }))
    pure { banks with fontRuntime }
  | .fontRuntime cell, .dimension value => do
    let fontRuntime ←
      StateError.ofBank (banks.fontRuntime.write cell (.dimension { value, level, saveSerial }))
    pure { banks with fontRuntime }
  | _, _ => .error .cellKindMismatch

def exchange {α β : Type} (swapped : Except BankError (BankCell α × β)) (word : α → StateWord R)
    (install : β → Banks R) : Except StateError (BankCell (StateWord R) × Banks R) :=
  match swapped with
  | .ok (displaced, bank) => .ok (displaced.map word, install bank)
  | .error error => .error (.bank error)

def swapCell (banks : Banks R) (cell : StateCell) (content : BankCell (StateWord R)) :
    Except StateError (BankCell (StateWord R) × Banks R) :=
  let level := content.level
  let saveSerial := content.saveSerial
  match cell, content.value with
  | .meaning index, .meaning value =>
    exchange (banks.meanings.rows.swap index.toNat { value, level, saveSerial }) .meaning
      fun rows => { banks with meanings := { banks.meanings with rows } }
  | .count index, .integer value =>
    exchange (banks.counts.swap index.toNat { value, level, saveSerial }) .integer
      fun counts => { banks with counts }
  | .dimension index, .dimension value =>
    exchange (banks.dimensions.swap index.toNat { value, level, saveSerial }) .dimension
      fun dimensions => { banks with dimensions }
  | .tokenRegister index, .tokenList value =>
    exchange (banks.tokenRegisters.swap index.toNat { value, level, saveSerial }) .tokenList
      fun tokenRegisters => { banks with tokenRegisters }
  | .glueRegister index, .glue value =>
    exchange (banks.glueRegisters.swap index.toNat { value, level, saveSerial }) .glue
      fun glueRegisters => { banks with glueRegisters }
  | .muGlueRegister index, .glue value =>
    exchange (banks.muGlueRegisters.swap index.toNat { value, level, saveSerial }) .glue
      fun muGlueRegisters => { banks with muGlueRegisters }
  | .integerParameter index, .integer value =>
    exchange (banks.integerParameters.swap index.toNat { value, level, saveSerial }) .integer
      fun integerParameters => { banks with integerParameters }
  | .dimensionParameter index, .dimension value =>
    exchange (banks.dimensionParameters.swap index.toNat { value, level, saveSerial })
      .dimension fun dimensionParameters => { banks with dimensionParameters }
  | .tokenParameter index, .tokenList value =>
    exchange (banks.tokenParameters.swap index.toNat { value, level, saveSerial }) .tokenList
      fun tokenParameters => { banks with tokenParameters }
  | .glueParameter index, .glue value =>
    exchange (banks.glueParameters.swap index.toNat { value, level, saveSerial }) .glue
      fun glueParameters => { banks with glueParameters }
  | .currentFont, .font value =>
    .ok (banks.currentFont.map .font,
      { banks with currentFont := { value, level, saveSerial } })
  | .mathFamilyFont index, .font value =>
    exchange (banks.mathFamilyFonts.swap index.toNat { value, level, saveSerial }) .font
      fun mathFamilyFonts => { banks with mathFamilyFonts }
  | .code kind index, .code value =>
    exchange ((banks.codes kind).swap index.toNat { value, level, saveSerial }) .code
      fun bank => { banks with codes := setAt banks.codes kind bank }
  | .fontRuntime cell, .integer value =>
    match banks.fontRuntime.swap cell (.integer { value, level, saveSerial }) with
    | .ok (.integer displaced, fontRuntime) =>
      .ok (displaced.map .integer, { banks with fontRuntime })
    | .ok (.dimension _, _) => .error (.bank .indexOutOfBounds)
    | .error error => .error (.bank error)
  | .fontRuntime cell, .dimension value =>
    match banks.fontRuntime.swap cell (.dimension { value, level, saveSerial }) with
    | .ok (.dimension displaced, fontRuntime) =>
      .ok (displaced.map .dimension, { banks with fontRuntime })
    | .ok (.integer _, _) => .error (.bank .indexOutOfBounds)
    | .error error => .error (.bank error)
  | _, _ => .error .cellKindMismatch

end Banks

end Umber.State
