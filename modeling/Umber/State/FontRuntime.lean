import Umber.State.Bank

/-! The mutable state of the loaded fonts, one row for each font. -/

set_option autoImplicit false

namespace Umber.State

abbrev Scaled := Int32

inductive FontRuntimeCell where
  | parameterCount (font : UInt32)
  | dimen (font number : UInt32)
  | hyphenChar (font : UInt32)
  | skewChar (font : UInt32)
  | pdfCode (table : UInt8) (font : UInt32) (code : UInt8)
  | ligaturesDisabled (font : UInt32)
deriving DecidableEq

def FontRuntimeCell.font : FontRuntimeCell → UInt32
  | .parameterCount font => font
  | .dimen font _ => font
  | .hyphenChar font => font
  | .skewChar font => font
  | .pdfCode _ font _ => font
  | .ligaturesDisabled font => font

inductive BankCellValue where
  | integer (cell : BankCell Int32)
  | dimension (cell : BankCell Scaled)

structure FontRuntimeRow where
  parameterCount : BankCell Int32
  parameters : List (BankCell Scaled)
  hyphenChar : BankCell Int32
  skewChar : BankCell Int32
  pdfCodes : UInt8 → Option (UInt8 → BankCell Int32)
  ligaturesDisabled : BankCell Int32

structure PreparedFontRuntime where
  parameters : List Scaled
  hyphenChar : Int32
  skewChar : Int32
  pdfCodes : UInt8 → Option (UInt8 → Int32)
  ligaturesDisabled : Int32

def storedCount (count : Nat) : Int32 :=
  if count ≤ 2147483647 then Int32.ofNat count else 2147483647

def PreparedFontRuntime.row (prepared : PreparedFontRuntime) : FontRuntimeRow :=
  { parameterCount := .ofLevelOne (storedCount prepared.parameters.length)
    parameters := prepared.parameters.map .ofLevelOne
    hyphenChar := .ofLevelOne prepared.hyphenChar
    skewChar := .ofLevelOne prepared.skewChar
    pdfCodes := fun table => (prepared.pdfCodes table).map fun codes code => .ofLevelOne (codes code)
    ligaturesDisabled := .ofLevelOne prepared.ligaturesDisabled }

namespace FontRuntimeRow

def parameter (row : FontRuntimeRow) (number : Nat) : Except BankError (BankCell Scaled) :=
  match number with
  | 0 => .error .indexOutOfBounds
  | index + 1 =>
    match row.parameters[index]? with
    | some cell => .ok cell
    | none => .error .indexOutOfBounds

def setParameter (row : FontRuntimeRow) (number : Nat) (cell : BankCell Scaled) :
    Except BankError FontRuntimeRow :=
  match number with
  | 0 => .error .indexOutOfBounds
  | index + 1 =>
    if index < row.parameters.length then
      .ok { row with parameters := row.parameters.set index cell }
    else .error .indexOutOfBounds

def read (row : FontRuntimeRow) : FontRuntimeCell → Except BankError BankCellValue
  | .parameterCount _ => .ok (.integer row.parameterCount)
  | .dimen _ number => do
    let cell ← row.parameter number.toNat
    pure (.dimension cell)
  | .hyphenChar _ => .ok (.integer row.hyphenChar)
  | .skewChar _ => .ok (.integer row.skewChar)
  | .pdfCode table _ code =>
    match row.pdfCodes table with
    | some codes => .ok (.integer (codes code))
    | none => .error .indexOutOfBounds
  | .ligaturesDisabled _ => .ok (.integer row.ligaturesDisabled)

def write (row : FontRuntimeRow) : FontRuntimeCell → BankCellValue → Except BankError FontRuntimeRow
  | .parameterCount _, .integer value => .ok { row with parameterCount := value }
  | .dimen _ number, .dimension value => row.setParameter number.toNat value
  | .hyphenChar _, .integer value => .ok { row with hyphenChar := value }
  | .skewChar _, .integer value => .ok { row with skewChar := value }
  | .pdfCode table _ code, .integer value =>
    match row.pdfCodes table with
    | some codes =>
      .ok { row with pdfCodes := setAt row.pdfCodes table (some (setAt codes code value)) }
    | none => .error .indexOutOfBounds
  | .ligaturesDisabled _, .integer value => .ok { row with ligaturesDisabled := value }
  | _, _ => .error .indexOutOfBounds

end FontRuntimeRow

structure FontRuntimeBank where
  rows : List FontRuntimeRow

namespace FontRuntimeBank

def new : FontRuntimeBank := { rows := [] }

def row (bank : FontRuntimeBank) (font : UInt32) : Except BankError FontRuntimeRow :=
  match bank.rows[font.toNat]? with
  | some row => .ok row
  | none => .error .indexOutOfBounds

def setRow (bank : FontRuntimeBank) (font : UInt32) (row : FontRuntimeRow) : FontRuntimeBank :=
  { rows := bank.rows.set font.toNat row }

def prepare (parameters : List Scaled) (hyphenChar skewChar : Int32) : PreparedFontRuntime :=
  { parameters, hyphenChar, skewChar, pdfCodes := fun _ => none, ligaturesDisabled := 0 }

def install (bank : FontRuntimeBank) (font : UInt32) (prepared : PreparedFontRuntime) :
    Except BankError FontRuntimeBank :=
  if font.toNat ≠ bank.rows.length then .error .indexOutOfBounds
  else .ok { rows := bank.rows ++ [prepared.row] }

def cursor (bank : FontRuntimeBank) : Nat := bank.rows.length

def truncate (bank : FontRuntimeBank) (cursor : Nat) : FontRuntimeBank :=
  { rows := bank.rows.take cursor }

def prepareDimenGrowth (bank : FontRuntimeBank) (font number : UInt32) :
    Except BankError FontRuntimeBank := do
  let row ← bank.row font
  let missing := number.toNat - row.parameters.length
  let fresh := List.replicate missing (BankCell.ofLevelOne (0 : Scaled))
  pure (bank.setRow font { row with parameters := row.parameters ++ fresh })

def ensurePdfTable (bank : FontRuntimeBank) (font : UInt32) (table : UInt8)
    (defaults : UInt8 → Int32) : Except BankError FontRuntimeBank := do
  let row ← bank.row font
  match row.pdfCodes table with
  | some _ => pure bank
  | none =>
    let codes := fun code => BankCell.ofLevelOne (defaults code)
    pure (bank.setRow font { row with pdfCodes := setAt row.pdfCodes table (some codes) })

def read (bank : FontRuntimeBank) (cell : FontRuntimeCell) : Except BankError BankCellValue := do
  let row ← bank.row cell.font
  row.read cell

def write (bank : FontRuntimeBank) (cell : FontRuntimeCell) (value : BankCellValue) :
    Except BankError FontRuntimeBank := do
  let row ← bank.row cell.font
  let row ← row.write cell value
  pure (bank.setRow cell.font row)

def swap (bank : FontRuntimeBank) (cell : FontRuntimeCell) (value : BankCellValue) :
    Except BankError (BankCellValue × FontRuntimeBank) := do
  let displaced ← bank.read cell
  let bank ← bank.write cell value
  pure (displaced, bank)

def parameterCount (bank : FontRuntimeBank) (font : UInt32) : Except BankError Nat := do
  let row ← bank.row font
  if 0 ≤ row.parameterCount.value.toInt then pure row.parameterCount.value.toInt.toNat
  else .error .indexOutOfBounds

end FontRuntimeBank

end Umber.State
