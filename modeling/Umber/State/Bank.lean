/-! Banks of mutable cells: every cell carries its assignment level and the
serial of the checkpoint interval that wrote it last. -/

set_option autoImplicit false

namespace Umber.State

structure BankCell (α : Type) where
  value : α
  level : Nat
  saveSerial : Nat

def levelZero : Nat := 0

def levelOne : Nat := 1

def BankCell.ofLevelOne {α : Type} (value : α) : BankCell α :=
  { value, level := levelOne, saveSerial := 0 }

def BankCell.map {α β : Type} (cell : BankCell α) (wrap : α → β) : BankCell β :=
  { value := wrap cell.value, level := cell.level, saveSerial := cell.saveSerial }

inductive BankError where
  | indexOutOfBounds

def setAt {κ α : Type} [DecidableEq κ] (cells : κ → α) (index : κ) (cell : α) : κ → α :=
  fun other => if other = index then cell else cells other

@[simp] theorem setAt_same {κ α : Type} [DecidableEq κ] (cells : κ → α) (index : κ) (cell : α) :
    setAt cells index cell index = cell := if_pos rfl

theorem setAt_other {κ α : Type} [DecidableEq κ] (cells : κ → α) {index other : κ} (cell : α)
    (apart : other ≠ index) : setAt cells index cell other = cells other := if_neg apart

/-! ## Contiguous banks -/

structure DenseBank (α : Type) where
  len : Nat
  cells : Nat → BankCell α

namespace DenseBank

variable {α : Type}

def fixed (len : Nat) (default : α) (level : Nat) : DenseBank α :=
  { len, cells := fun _ => { value := default, level, saveSerial := 0 } }

def get (bank : DenseBank α) (index : Nat) : Except BankError (BankCell α) :=
  if index < bank.len then .ok (bank.cells index) else .error .indexOutOfBounds

def write (bank : DenseBank α) (index : Nat) (cell : BankCell α) :
    Except BankError (DenseBank α) :=
  if index < bank.len then .ok { bank with cells := setAt bank.cells index cell }
  else .error .indexOutOfBounds

def swap (bank : DenseBank α) (index : Nat) (cell : BankCell α) :
    Except BankError (BankCell α × DenseBank α) :=
  if index < bank.len then
    .ok (bank.cells index, { bank with cells := setAt bank.cells index cell })
  else .error .indexOutOfBounds

end DenseBank

/-! ## Paged banks -/

structure PagedDenseBank (α : Type) where
  pages : Nat → Option (Nat → BankCell α)
  len : Nat
  default : Nat → α
  defaultLevel : Nat

namespace PagedDenseBank

variable {α : Type}

def new (len : Nat) (default : Nat → α) (defaultLevel : Nat) : PagedDenseBank α :=
  { pages := fun _ => none, len, default, defaultLevel }

def defaultCell (bank : PagedDenseBank α) (index : Nat) : BankCell α :=
  { value := bank.default index, level := bank.defaultLevel, saveSerial := 0 }

def get (bank : PagedDenseBank α) (index : Nat) : Except BankError (BankCell α) :=
  if index < bank.len then
    match bank.pages (index / 256) with
    | some values => .ok (values (index % 256))
    | none => .ok (bank.defaultCell index)
  else .error .indexOutOfBounds

/-- The page of an index, installed with its defaults when it is absent. -/
def installedPage (bank : PagedDenseBank α) (index : Nat) : Nat → BankCell α :=
  match bank.pages (index / 256) with
  | some values => values
  | none => fun slot => bank.defaultCell (index / 256 * 256 + slot)

def write (bank : PagedDenseBank α) (index : Nat) (cell : BankCell α) :
    Except BankError (PagedDenseBank α) :=
  if index < bank.len then
    let values := setAt (bank.installedPage index) (index % 256) cell
    .ok { bank with pages := setAt bank.pages (index / 256) (some values) }
  else .error .indexOutOfBounds

def swap (bank : PagedDenseBank α) (index : Nat) (cell : BankCell α) :
    Except BankError (BankCell α × PagedDenseBank α) :=
  if index < bank.len then
    match bank.pages (index / 256) with
    | some values =>
      let changed := setAt values (index % 256) cell
      .ok (values (index % 256),
        { bank with pages := setAt bank.pages (index / 256) (some changed) })
    | none => .error .indexOutOfBounds
  else .error .indexOutOfBounds

end PagedDenseBank

/-! ## Register banks -/

structure RegisterBank (α : Type) where
  dense : Nat → BankCell α
  overflow : PagedDenseBank α

namespace RegisterBank

variable {α : Type}

def new (default : Nat → α) : RegisterBank α :=
  { dense := fun _ => .ofLevelOne (default 0)
    overflow := .new 65536 default levelOne }

def get (bank : RegisterBank α) (index : Nat) : Except BankError (BankCell α) :=
  if index < 256 then .ok (bank.dense index) else bank.overflow.get index

def write (bank : RegisterBank α) (index : Nat) (cell : BankCell α) :
    Except BankError (RegisterBank α) :=
  if index < 256 then .ok { bank with dense := setAt bank.dense index cell }
  else do
    let overflow ← bank.overflow.write index cell
    pure { bank with overflow }

def swap (bank : RegisterBank α) (index : Nat) (cell : BankCell α) :
    Except BankError (BankCell α × RegisterBank α) :=
  if index < 256 then
    .ok (bank.dense index, { bank with dense := setAt bank.dense index cell })
  else do
    let (displaced, overflow) ← bank.overflow.swap index cell
    pure (displaced, { bank with overflow })

end RegisterBank

/-! ## Meanings -/

structure MeaningBank (α : Type) where
  rows : DenseBank α
  capacity : Nat
  default : α

namespace MeaningBank

variable {α : Type}

def new (capacity : Nat) (default : α) : MeaningBank α :=
  { rows := .fixed 0 default levelZero, capacity, default }

def admitThrough (bank : MeaningBank α) (index : Nat) : Except BankError (MeaningBank α) :=
  let required := index + 1
  if required > bank.capacity then .error .indexOutOfBounds
  else if required ≤ bank.rows.len then .ok bank
  else
    let fresh := { value := bank.default, level := levelZero, saveSerial := 0 : BankCell α }
    let cells := fun row => if row < bank.rows.len then bank.rows.cells row else fresh
    .ok { bank with rows := { len := required, cells } }

end MeaningBank

end Umber.State
