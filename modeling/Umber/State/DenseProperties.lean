import Umber.State.CellProperties
import Umber.State.Dense
import Umber.State.JournalProperties

/-! What one operation does to the banks and to the journal of a dense state. -/

set_option autoImplicit false

namespace Umber.State

open ExceptLib

/-! ## Contents of the banks -/

namespace Banks

variable {R : References} {banks next : Banks R} {cell : StateCell}
  {content : BankCell (StateWord R)}

def contents (banks : Banks R) (cell : StateCell) : Option (BankCell (StateWord R)) :=
  match banks.readCell cell with
  | .ok content => some content
  | .error _ => none

theorem contents_eq_some : banks.contents cell = some content ↔ banks.readCell cell = .ok content := by
  unfold contents
  cases banks.readCell cell with
  | error error => simp
  | ok found => simp

theorem contents_congr {other : StateCell} (same : next.readCell other = banks.readCell other) :
    next.contents other = banks.contents other := by
  unfold contents
  rw [same]

theorem Written.contents (written : Written banks next cell content) :
    next.contents = setAt banks.contents cell (some content) := by
  funext other
  by_cases same : other = cell
  · subst same
    rw [setAt_same]
    exact contents_eq_some.mpr written.same
  rw [setAt_other _ _ same]
  exact contents_congr (written.others other same)

/-- The banks grew: every cell keeps its content, and a new cell is global and
has not been written. -/
structure Grown (banks next : Banks R) : Prop where
  kept : ∀ cell content, banks.contents cell = some content → next.contents cell = some content
  fresh : ∀ cell content, banks.contents cell = none → next.contents cell = some content →
    content.level ≤ levelOne ∧ content.saveSerial = 0
  installed : ∀ cell, banks.Installed cell → next.Installed cell
  rows : banks.fontRuntime.rows.length ≤ next.fontRuntime.rows.length

end Banks

namespace Banks

variable {R : References}

theorem register_new {α : Type} {default : Nat → α} {index : Nat} {cell : BankCell α}
    (found : (RegisterBank.new default).get index = .ok cell) :
    cell.level ≤ levelOne ∧ cell.saveSerial = 0 := by
  unfold RegisterBank.get at found
  split at found
  · cases found
    exact ⟨Nat.le_refl _, rfl⟩
  change (if index < 65536 then Except.ok _ else _) = _ at found
  split at found
  · cases found
    exact ⟨Nat.le_refl _, rfl⟩
  · cases found

theorem fixed_new {α : Type} {len level : Nat} {default : α} {index : Nat} {cell : BankCell α}
    (global : level ≤ levelOne) (found : (DenseBank.fixed len default level).get index = .ok cell) :
    cell.level ≤ levelOne ∧ cell.saveSerial = 0 := by
  unfold DenseBank.get at found
  split at found
  · cases found
    exact ⟨global, rfl⟩
  · cases found

/-- The cells of fresh banks are global and have not been written. -/
theorem contents_new {meaningCapacity : Nat} {undefined : R.Meaning} {cell : StateCell}
    {content : BankCell (StateWord R)}
    (found : (Banks.new meaningCapacity undefined).contents cell = some content) :
    content.level ≤ levelOne ∧ content.saveSerial = 0 := by
  have found := contents_eq_some.mp found
  generalize made : Banks.new meaningCapacity undefined = banks at found
  cases cell with
  | meaning index =>
    obtain ⟨cell, reading, rfl⟩ := wrap_eq_ok.mp found
    subst made
    have fresh := fixed_new (Nat.zero_le _) reading
    exact fresh
  | count index | dimension index | tokenRegister index | glueRegister index
  | muGlueRegister index =>
    obtain ⟨cell, reading, rfl⟩ := wrap_eq_ok.mp found
    subst made
    have fresh := register_new reading
    exact fresh
  | boxRegister index => cases found
  | integerParameter index | dimensionParameter index | tokenParameter index | glueParameter index
  | mathFamilyFont index =>
    obtain ⟨cell, reading, rfl⟩ := wrap_eq_ok.mp found
    subst made
    have fresh := fixed_new (Nat.le_refl _) reading
    exact fresh
  | currentFont =>
    subst made
    cases found
    exact ⟨Nat.le_refl _, rfl⟩
  | code kind index =>
    obtain ⟨cell, reading, rfl⟩ := wrap_eq_ok.mp found
    subst made
    change (if index.toNat < unicodeScalarCount then Except.ok _ else _) = _ at reading
    split at reading
    · cases reading
      exact ⟨Nat.le_refl _, rfl⟩
    · cases reading
  | fontRuntime font => ?_
  subst made
  unfold readCell FontRuntimeBank.read FontRuntimeBank.row at found
  simp [Banks.new, FontRuntimeBank.new, error_bind] at found

end Banks

/-! ## Growth of the banks -/

def BankCellValue.Fresh : BankCellValue → Prop
  | .integer cell => cell.level ≤ levelOne ∧ cell.saveSerial = 0
  | .dimension cell => cell.level ≤ levelOne ∧ cell.saveSerial = 0

/-- Reads that succeed stay, and those that begin to succeed find fresh cells. -/
def ReadsGrow {ι : Type} (before after : ι → Except BankError BankCellValue) : Prop :=
  ∀ cell value, after cell = .ok value → before cell = .ok value ∨
    (∃ error, before cell = .error error) ∧ value.Fresh

def ReadsKeep {ι : Type} (before after : ι → Except BankError BankCellValue) : Prop :=
  ∀ cell value, before cell = .ok value → after cell = .ok value

namespace FontRuntimeRow

variable {row : FontRuntimeRow}

theorem read_row_fresh (prepared : PreparedFontRuntime) {cell : FontRuntimeCell}
    {value : BankCellValue} (found : prepared.row.read cell = .ok value) : value.Fresh := by
  have level : (1 : Nat) ≤ levelOne := Nat.le_refl 1
  cases cell with
  | dimen font number =>
    obtain ⟨content, finding, found⟩ := bind_eq_ok.mp found
    cases pure_eq_ok.mp found
    unfold parameter at finding
    split at finding
    · cases finding
    split at finding
    · rename_i index content position
      cases finding
      obtain ⟨scaled, _, rfl⟩ := List.mem_map.mp (List.mem_of_getElem? position)
      exact ⟨level, rfl⟩
    · cases finding
  | pdfCode table font code =>
    unfold read at found
    dsimp only at found
    split at found
    · rename_i codes lookup
      cases found
      obtain ⟨values, _, rfl⟩ := Option.map_eq_some_iff.mp lookup
      exact ⟨level, rfl⟩
    · cases found
  | _ =>
    cases found
    exact ⟨level, rfl⟩

theorem read_growParameters (missing : Nat) :
    let grown := { row with
      parameters := row.parameters ++ List.replicate missing (BankCell.ofLevelOne (0 : Scaled)) }
    ReadsKeep row.read grown.read ∧ ReadsGrow row.read grown.read := by
  have parameters : ∀ number content,
      ({ row with
        parameters := row.parameters ++ List.replicate missing (BankCell.ofLevelOne (0 : Scaled)) } :
          FontRuntimeRow).parameter number = .ok content →
      row.parameter number = .ok content ∨
        (∃ error, row.parameter number = .error error) ∧ content = .ofLevelOne 0 := by
    intro number content found
    cases number with
    | zero => cases found
    | succ index => ?_
    simp only [parameter] at found ⊢
    by_cases inside : index < row.parameters.length
    · rw [List.getElem?_append_left inside] at found
      exact .inl found
    have outside : row.parameters.length ≤ index := Nat.le_of_not_lt inside
    rw [List.getElem?_append_right outside] at found
    rw [List.getElem?_eq_none outside]
    split at found
    · rename_i position
      cases found
      have member := List.mem_of_getElem? position
      exact .inr ⟨⟨_, rfl⟩, List.eq_of_mem_replicate member⟩
    · cases found
  refine ⟨fun cell value found => ?_, fun cell value found => ?_⟩
  · cases cell with
    | dimen font number =>
      obtain ⟨content, finding, found⟩ := bind_eq_ok.mp found
      cases pure_eq_ok.mp found
      have kept : ({ row with
          parameters :=
            row.parameters ++ List.replicate missing (BankCell.ofLevelOne (0 : Scaled)) } :
          FontRuntimeRow).parameter number.toNat = .ok content := by
        unfold parameter at finding ⊢
        split at finding
        · cases finding
        rename_i index
        split at finding
        · rename_i cell position
          obtain ⟨inside, _⟩ := List.getElem?_eq_some_iff.mp position
          simp only [List.getElem?_append_left inside, position]
          exact finding
        · cases finding
      rw [read, kept, ok_bind]
      rfl
    | _ => exact found
  cases cell with
  | dimen font number =>
    obtain ⟨content, finding, found⟩ := bind_eq_ok.mp found
    cases pure_eq_ok.mp found
    rcases parameters _ _ finding with kept | ⟨⟨error, missed⟩, rfl⟩
    · exact .inl (by rw [read, kept, ok_bind]; rfl)
    · exact .inr ⟨⟨error, by rw [read, missed, error_bind]⟩, Nat.le_refl 1, rfl⟩
  | _ => exact .inl found

theorem read_growPdfTable {table : UInt8} (absent : row.pdfCodes table = none)
    (defaults : UInt8 → Int32) :
    let grown := { row with
      pdfCodes := setAt row.pdfCodes table (some fun code => .ofLevelOne (defaults code)) }
    ReadsKeep row.read grown.read ∧ ReadsGrow row.read grown.read := by
  refine ⟨fun cell value found => ?_, fun cell value found => ?_⟩
  · cases cell with
    | pdfCode other font code =>
      by_cases same : other = table
      · subst same
        simp only [read, absent] at found
        cases found
      · simpa only [read, setAt_other _ _ same] using found
    | _ => exact found
  cases cell with
  | pdfCode other font code =>
    by_cases same : other = table
    · subst same
      simp only [read, setAt_same] at found
      cases found
      exact .inr ⟨⟨.indexOutOfBounds, by simp only [read, absent]⟩, Nat.le_refl 1, rfl⟩
    · exact .inl (by simpa only [read, setAt_other _ _ same] using found)
  | _ => exact .inl found

end FontRuntimeRow

namespace FontRuntimeBank

variable {bank next : FontRuntimeBank}

theorem read_setRow {font : UInt32} {old row : FontRuntimeRow} (found : bank.row font = .ok old)
    (grow : ReadsKeep old.read row.read ∧ ReadsGrow old.read row.read) :
    ReadsKeep bank.read (bank.setRow font row).read ∧
      ReadsGrow bank.read (bank.setRow font row).read := by
  obtain ⟨same, others⟩ := @row_setRow bank font old row found
  refine ⟨fun cell value reading => ?_, fun cell value reading => ?_⟩
  · by_cases fonts : cell.font = font
    · subst fonts
      rw [read, found, ok_bind] at reading
      rw [read, same, ok_bind]
      exact grow.1 cell value reading
    rw [read, others cell.font fonts, ← read]
    exact reading
  by_cases fonts : cell.font = font
  · subst fonts
    rw [read, same, ok_bind] at reading
    rw [read, found, ok_bind]
    exact grow.2 cell value reading
  rw [read, others cell.font fonts, ← read] at reading
  exact .inl reading

theorem read_install {font : UInt32} {prepared : PreparedFontRuntime}
    (installed : bank.install font prepared = .ok next) :
    (ReadsKeep bank.read next.read ∧ ReadsGrow bank.read next.read) ∧
      bank.rows.length ≤ next.rows.length := by
  unfold install at installed
  split at installed
  · cases installed
  rename_i last
  cases installed
  have kept : ∀ cell value, bank.read cell = .ok value →
      ({ rows := bank.rows ++ [prepared.row] } : FontRuntimeBank).read cell = .ok value := by
    intro cell value found
    obtain ⟨row, located, reading⟩ := bind_eq_ok.mp found
    unfold FontRuntimeBank.row at located
    split at located
    · rename_i content position
      cases located
      obtain ⟨inside, _⟩ := List.getElem?_eq_some_iff.mp position
      simp only [read, FontRuntimeBank.row, List.getElem?_append_left inside, position]
      exact reading
    · cases located
  refine ⟨⟨kept, fun cell value found => ?_⟩, by simp⟩
  cases before : bank.read cell with
  | ok content =>
    rw [kept cell content before] at found
    exact .inl found
  | error error => ?_
  refine .inr ⟨⟨error, rfl⟩, ?_⟩
  obtain ⟨row, located, reading⟩ := bind_eq_ok.mp found
  unfold FontRuntimeBank.row at located
  split at located
  · rename_i content position
    cases located
    by_cases inside : cell.font.toNat < bank.rows.length
    · rw [List.getElem?_append_left inside] at position
      simp only [read, FontRuntimeBank.row, position, ok_bind] at before
      rw [reading] at before
      cases before
    rw [List.getElem?_append_right (Nat.le_of_not_lt inside)] at position
    have member := List.mem_of_getElem? position
    rw [List.mem_singleton] at member
    subst member
    exact FontRuntimeRow.read_row_fresh prepared reading
  · cases located

end FontRuntimeBank

namespace Banks

variable {R : References} {banks : Banks R}

theorem grown_fontRuntime {fontRuntime : FontRuntimeBank}
    (grow : ReadsKeep banks.fontRuntime.read fontRuntime.read ∧
      ReadsGrow banks.fontRuntime.read fontRuntime.read)
    (rows : banks.fontRuntime.rows.length ≤ fontRuntime.rows.length) :
    Grown banks { banks with fontRuntime } := by
  refine ⟨fun cell content found => ?_, fun cell content absent found => ?_, fun cell held => ?_,
    rows⟩
  · cases cell with
    | fontRuntime font =>
      have found := contents_eq_some.mp found
      apply contents_eq_some.mpr
      unfold readCell at found ⊢
      dsimp only at found ⊢
      split at found
      · rename_i value reading
        rw [grow.1 font _ reading]
        exact found
      · rename_i value reading
        rw [grow.1 font _ reading]
        exact found
      · cases found
    | _ => exact found
  · cases cell with
    | fontRuntime font =>
      have found := contents_eq_some.mp found
      unfold readCell at found
      dsimp only at found
      split at found
      · rename_i value reading
        cases found
        rcases grow.2 font _ reading with before | ⟨_, fresh⟩
        · simp [contents, readCell, before] at absent
        · exact fresh
      · rename_i value reading
        cases found
        rcases grow.2 font _ reading with before | ⟨_, fresh⟩
        · simp [contents, readCell, before] at absent
        · exact fresh
      · cases found
    | _ => cases absent.symm.trans found
  · cases cell <;> exact held

theorem grown_meanings {meanings : MeaningBank R.Meaning} {index : Nat}
    (admitted : banks.meanings.admitThrough index = .ok meanings) :
    Grown banks { banks with meanings } := by
  unfold MeaningBank.admitThrough at admitted
  dsimp only at admitted
  split at admitted
  · cases admitted
  split at admitted
  · cases admitted
    exact ⟨fun _ _ found => found, fun _ _ absent found => (nomatch absent.symm.trans found),
      fun _ held => held, Nat.le_refl _⟩
  rename_i bounded beyond
  cases admitted
  refine ⟨fun cell content found => ?_, fun cell content absent found => ?_,
    fun cell held => by cases cell <;> exact held, Nat.le_refl _⟩
  · cases cell with
    | meaning slot =>
      obtain ⟨value, reading, rfl⟩ := wrap_eq_ok.mp (contents_eq_some.mp found)
      apply contents_eq_some.mpr
      apply wrap_eq_ok.mpr
      unfold DenseBank.get at reading ⊢
      dsimp only
      split at reading
      · rename_i inside
        cases reading
        exact ⟨_, by rw [if_pos (by omega), if_pos inside], rfl⟩
      · cases reading
    | _ => exact found
  cases cell with
  | meaning slot =>
    obtain ⟨value, reading, rfl⟩ := wrap_eq_ok.mp (contents_eq_some.mp found)
    unfold DenseBank.get at reading
    dsimp only at reading
    split at reading
    · cases reading
      by_cases inside : slot.toNat < banks.meanings.rows.len
      · simp [contents, readCell, DenseBank.get, inside, wrap] at absent
      rw [if_neg inside]
      exact ⟨Nat.zero_le _, rfl⟩
    · cases reading
  | _ => cases absent.symm.trans found

end Banks

namespace DenseState

variable {R : References} {state next : DenseState R}

inductive Grows : DenseState R → DenseState R → Prop
  | symbol {state next : DenseState R} {symbol : UInt32} :
      state.admitSymbol symbol = .ok next → Grows state next
  | font {state next : DenseState R} {font : UInt32} {prepared : PreparedFontRuntime} :
      state.installFontRuntime font prepared = .ok next → Grows state next
  | pdfTable {state next : DenseState R} {font : UInt32} {table : UInt8} {defaults : UInt8 → Int32} :
      state.ensurePdfTable font table defaults = .ok next → Grows state next
  | parameters {state next : DenseState R} {font number : UInt32} :
      state.prepareDimenGrowth font number = .ok next → Grows state next

theorem Grows.grown (grows : Grows state next) :
    ∃ banks, next = { state with banks } ∧ Banks.Grown state.banks banks := by
  cases grows with
  | symbol admitted =>
    obtain ⟨meanings, admitting, admitted⟩ := bind_eq_ok.mp admitted
    cases pure_eq_ok.mp admitted
    exact ⟨_, rfl, Banks.grown_meanings (StateError.ofBank_eq_ok.mp admitting)⟩
  | font installed =>
    obtain ⟨fontRuntime, installing, installed⟩ := bind_eq_ok.mp installed
    cases pure_eq_ok.mp installed
    obtain ⟨grow, rows⟩ := FontRuntimeBank.read_install (StateError.ofBank_eq_ok.mp installing)
    exact ⟨_, rfl, Banks.grown_fontRuntime grow rows⟩
  | @pdfTable font table defaults ensured =>
    obtain ⟨fontRuntime, ensuring, ensured⟩ := bind_eq_ok.mp ensured
    cases pure_eq_ok.mp ensured
    obtain ⟨row, located, ensuring⟩ := bind_eq_ok.mp (StateError.ofBank_eq_ok.mp ensuring)
    split at ensuring
    · cases pure_eq_ok.mp ensuring
      refine ⟨_, rfl, Banks.grown_fontRuntime ⟨fun _ _ found => found, fun _ _ found => ?_⟩
        (Nat.le_refl _)⟩
      exact .inl found
    rename_i absent
    cases pure_eq_ok.mp ensuring
    have grow := FontRuntimeBank.read_setRow located (FontRuntimeRow.read_growPdfTable absent defaults)
    exact ⟨_, rfl, Banks.grown_fontRuntime grow (by simp [FontRuntimeBank.setRow])⟩
  | @parameters font number prepared => ?_
  obtain ⟨fontRuntime, preparing, prepared⟩ := bind_eq_ok.mp prepared
  cases pure_eq_ok.mp prepared
  obtain ⟨row, located, preparing⟩ := bind_eq_ok.mp (StateError.ofBank_eq_ok.mp preparing)
  cases pure_eq_ok.mp preparing
  have grow := FontRuntimeBank.read_setRow located 
    (FontRuntimeRow.read_growParameters (number.toNat - row.parameters.length))
  exact ⟨_, rfl, Banks.grown_fontRuntime grow (by simp [FontRuntimeBank.setRow])⟩

/-! ## Assignments -/

def assignedLevel (state : DenseState R) : AssignmentScope → Nat
  | .global => levelOne
  | .local => state.currentLevel

def savedLevel (state : DenseState R) (scope : AssignmentScope) (beforeLevel : Nat) : Option Nat :=
  if scope = .local && state.currentLevel ≠ levelOne && beforeLevel ≠ state.currentLevel then
    some state.currentLevel
  else none

def assignedJournal (state : DenseState R) (cell : StateCell) (scope : AssignmentScope)
    (before : BankCell (StateWord R)) : SaveJournal R :=
  let savedAt := state.savedLevel scope before.level
  if state.journal.needsMutation before.saveSerial savedAt then
    state.journal.recordMutation (.new cell before savedAt)
  else state.journal

theorem assign_eq_ok {cell : StateCell} {value : StateWord R} {scope : AssignmentScope}
    (assigned : state.assign cell value scope = .ok next) :
    ∃ before banks,
      state.banks.contents cell = some before ∧
      Banks.Written state.banks banks cell
        { value, level := state.assignedLevel scope, saveSerial := state.journal.saveSerial } ∧
      next = { state with banks, journal := state.assignedJournal cell scope before } := by
  obtain ⟨before, reading, assigned⟩ := bind_eq_ok.mp assigned
  split at assigned
  · cases assigned
  obtain ⟨written, writing, assigned⟩ := bind_eq_ok.mp assigned
  obtain ⟨banks, storing, writing⟩ := bind_eq_ok.mp writing
  cases pure_eq_ok.mp writing
  refine ⟨before, banks, Banks.contents_eq_some.mpr reading, ?_, ?_⟩
  · have stored := Banks.writeCell_written storing
    cases scope <;> exact stored
  change (if state.journal.needsMutation before.saveSerial (state.savedLevel scope before.level)
    then pure _ else pure _) = _ at assigned
  unfold assignedJournal
  by_cases needed :
      state.journal.needsMutation before.saveSerial (state.savedLevel scope before.level)
  · rw [if_pos needed] at assigned
    cases pure_eq_ok.mp assigned
    simp only [if_pos needed]
    rfl
  rw [if_neg needed] at assigned
  cases pure_eq_ok.mp assigned
  simp only [if_neg needed]

/-- A cell that exists takes an assignment of every word that fits it. -/
theorem assign_of_contents {cell : StateCell} {value : StateWord R} {before : BankCell (StateWord R)}
    (found : state.banks.contents cell = some before) (fits : wordFits cell value = true)
    (scope : AssignmentScope) : ∃ next, state.assign cell value scope = .ok next := by
  have reading := Banks.contents_eq_some.mp found
  have matching := wordMatches_of_wordFits fits
  obtain ⟨banks, writing, _⟩ := @Banks.writeCell_of_read R state.banks cell before
    { value, level := state.assignedLevel scope, saveSerial := state.journal.saveSerial } reading fits
  have written : state.writeCell cell
      { value, level := state.assignedLevel scope, saveSerial := state.journal.saveSerial } =
        .ok { state with banks } := by
    rw [writeCell, writing]
    rfl
  unfold assign readCell
  simp only [reading, ok_bind, matching, Bool.not_true, Bool.false_eq_true, if_false]
  cases scope with
  | global =>
    unfold assignedLevel at written
    simp only [written, ok_bind]
    exact exists_ok_ite _ _ _
  | «local» => ?_
  unfold assignedLevel at written
  simp only [written, ok_bind]
  exact exists_ok_ite _ _ _

/-! ## Groups -/

theorem beginGroup_eq_ok {kind : GroupKind} {line : Nat}
    (begun : state.beginGroup kind line = .ok next) :
    ∃ frame : GroupFrame,
      frame.kind = kind ∧
      frame.level = state.groups.length + 2 ∧
      frame.journalStart = state.journal.activeSequence.length + 1 ∧
      next = { state with
        journal := state.journal.recordGroupEnter frame
        groups := frame :: state.groups
        nextGroupLineage := state.nextGroupLineage + 1 } := by
  unfold beginGroup at begun
  dsimp only at begun
  split at begun
  · cases begun
  split at begun
  · cases begun
  split at begun
  · cases begun
  cases begun
  exact ⟨_, rfl, rfl, rfl, rfl⟩

end DenseState

/-! ## Two fonts -/

abbrev plainReferences : References := { Meaning := Unit, TokenList := Unit, Glue := Unit }

namespace DenseState

theorem FontRuntimeRow.read_prepared_dimen (font number : UInt32) (count index : Nat)
    (numbered : number.toNat = index + 1) (inside : index < count) :
    (FontRuntimeBank.prepare (List.replicate count 0) 0 0).row.read (.dimen font number) =
      .ok (.dimension (.ofLevelOne 0)) := by
  have found : ((List.replicate count (0 : Scaled)).map BankCell.ofLevelOne)[index]? =
      some (.ofLevelOne 0) := by
    rw [List.map_replicate, List.getElem?_replicate, if_pos inside]
  unfold FontRuntimeRow.read FontRuntimeRow.parameter
  simp only [numbered, FontRuntimeBank.prepare, PreparedFontRuntime.row, found, ok_bind]
  rfl

/-- Two fonts: the first one has 262145 parameters, the second one has one. -/
def twoFonts : Except StateError (DenseState plainReferences) := do
  let state ← (new 16 () : DenseState plainReferences).installFontRuntime 0
    (FontRuntimeBank.prepare (List.replicate 262145 0) 0 0)
  state.installFontRuntime 1 (FontRuntimeBank.prepare [0] 0 0)

theorem row_of_installed {first start : DenseState plainReferences}
    (installing : (new 16 () : DenseState plainReferences).installFontRuntime 0
      (FontRuntimeBank.prepare (List.replicate 262145 0) 0 0) = .ok first)
    (adding : first.installFontRuntime 1 (FontRuntimeBank.prepare [0] 0 0) = .ok start) :
    start.banks.fontRuntime.row 0 =
      .ok (FontRuntimeBank.prepare (List.replicate 262145 0) 0 0).row := by
  have rows : start.banks.fontRuntime.rows =
      [(FontRuntimeBank.prepare (List.replicate 262145 0) 0 0).row,
        (FontRuntimeBank.prepare [0] 0 0).row] := by
    cases installing
    cases adding
    rfl
  rw [FontRuntimeBank.row, rows]
  rfl

theorem twoFonts_ok : ∃ first start, twoFonts = .ok start ∧
      (new 16 () : DenseState plainReferences).installFontRuntime 0
        (FontRuntimeBank.prepare (List.replicate 262145 0) 0 0) = .ok first ∧
      first.installFontRuntime 1 (FontRuntimeBank.prepare [0] 0 0) = .ok start ∧
      start.banks.contents (.fontRuntime (.dimen 0 262145)) = some (.ofLevelOne (.dimension 0)) ∧
      start.banks.contents (.fontRuntime (.dimen 1 1)) = some (.ofLevelOne (.dimension 0)) := by
  obtain ⟨first, installing⟩ : ∃ first, (new 16 () : DenseState plainReferences).installFontRuntime 0
      (FontRuntimeBank.prepare (List.replicate 262145 0) 0 0) = .ok first := ⟨_, rfl⟩
  obtain ⟨start, adding⟩ : ∃ start,
      first.installFontRuntime 1 (FontRuntimeBank.prepare [0] 0 0) = .ok start := by
    cases installing
    exact ⟨_, rfl⟩
  have located := row_of_installed installing adding
  have reading : start.banks.fontRuntime.read (.dimen 0 262145) =
      .ok (.dimension (.ofLevelOne 0)) := by
    rw [FontRuntimeBank.read, FontRuntimeCell.font, located, ok_bind]
    exact FontRuntimeRow.read_prepared_dimen 0 262145 262145 262144 rfl (by omega)
  have wide : start.banks.contents (.fontRuntime (.dimen 0 262145)) =
      some (.ofLevelOne (.dimension 0)) := by
    rw [Banks.contents, Banks.readCell, reading]
    rfl
  have narrow : start.banks.contents (.fontRuntime (.dimen 1 1)) =
      some (.ofLevelOne (.dimension 0)) := by
    cases installing
    cases adding
    rfl
  refine ⟨first, start, ?_, installing, adding, wide, narrow⟩
  rw [twoFonts, installing]
  exact adding

/-- Parameter 262145 of the first font is assigned, and packs like the first parameter of the
second one. -/
theorem wide_parameter_is_not_lossless :
    ∃ start assigned : DenseState plainReferences, twoFonts = .ok start ∧
      start.assignFontDimen 0 262145 5 .global = .ok assigned ∧
      (JournalCell.pack (.fontRuntime (.dimen 0 262145))).unpack = .fontRuntime (.dimen 1 1) ∧
      JournalCell.pack (.fontRuntime (.dimen 0 262145)) =
        JournalCell.pack (.fontRuntime (.dimen 1 1)) := by
  obtain ⟨first, start, fonts, installing, adding, wide, _⟩ := twoFonts_ok
  have located := row_of_installed installing adding
  have stored : (FontRuntimeBank.prepare (List.replicate 262145 0) 0 0).row.parameterCount.value =
      262145 := by
    unfold FontRuntimeBank.prepare PreparedFontRuntime.row
    simp only [List.length_replicate, BankCell.ofLevelOne]
    decide
  have counted : start.banks.fontRuntime.parameterCount 0 = .ok 262145 := by
    rw [FontRuntimeBank.parameterCount, located, ok_bind, stored]
    rfl
  obtain ⟨grown, growing⟩ : ∃ grown, start.prepareDimenGrowth 0 262145 = .ok grown := by
    unfold prepareDimenGrowth FontRuntimeBank.prepareDimenGrowth
    rw [located]
    exact ⟨_, rfl⟩
  obtain ⟨banks, rfl, more⟩ := (Grows.parameters growing).grown
  have kept := more.kept _ _ wide
  obtain ⟨assigned, assigning⟩ := @assign_of_contents plainReferences { start with banks } _
    (.dimension 5) _ kept rfl .global
  refine ⟨start, assigned, fonts, ?_, by decide, by decide⟩
  unfold assignFontDimen
  rw [counted, growing]
  exact assigning

end DenseState

end Umber.State
