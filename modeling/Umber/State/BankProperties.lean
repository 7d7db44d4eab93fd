import Umber.Lib.Except
import Umber.State.FontRuntime

/-! What reading a bank gives behind a write, and when a live cell can be
exchanged. -/

set_option autoImplicit false

namespace Umber.State

open ExceptLib

/-! ## Contiguous banks -/

namespace DenseBank

variable {α : Type} {bank next : DenseBank α} {index : Nat} {cell : BankCell α}

theorem get_write (written : bank.write index cell = .ok next) :
    next.get index = .ok cell ∧ ∀ other ≠ index, next.get other = bank.get other := by
  unfold write at written
  split at written
  · rename_i inside
    cases written
    refine ⟨?_, fun other apart => ?_⟩
    · simp only [get, if_pos inside, setAt_same]
    · simp only [get, setAt_other _ _ apart]
  · cases written

theorem write_of_get {old : BankCell α} (found : bank.get index = .ok old) (cell : BankCell α) :
    ∃ next, bank.write index cell = .ok next ∧ bank.swap index cell = .ok (old, next) := by
  unfold get at found
  split at found
  · rename_i inside
    cases found
    exact ⟨_, by rw [write, if_pos inside], by rw [swap, if_pos inside]⟩
  · cases found

end DenseBank

/-! ## Paged banks -/

namespace PagedDenseBank

variable {α : Type} {bank next : PagedDenseBank α} {index : Nat} {cell : BankCell α}

def Installed (bank : PagedDenseBank α) (index : Nat) : Prop :=
  (bank.pages (index / 256)).isSome

theorem installedPage_slot (bank : PagedDenseBank α) {index other : Nat}
    (inside : other < bank.len) (page : other / 256 = index / 256) :
    bank.get other = .ok (bank.installedPage index (other % 256)) := by
  unfold get installedPage
  rw [if_pos inside, page]
  cases bank.pages (index / 256) with
  | some values => rfl
  | none => ?_
  have position : index / 256 * 256 + other % 256 = other := by
    rw [← page]
    exact Nat.div_add_mod' other 256
  simp only [position]

theorem get_write (written : bank.write index cell = .ok next) :
    next.get index = .ok cell ∧ ∀ other ≠ index, next.get other = bank.get other := by
  unfold write at written
  split at written
  · rename_i inside
    cases written
    refine ⟨?_, fun other apart => ?_⟩
    · simp only [get, if_pos inside, setAt_same]
    by_cases bounded : other < bank.len
    · by_cases page : other / 256 = index / 256
      · have slot : other % 256 ≠ index % 256 := by omega
        rw [installedPage_slot bank bounded page]
        simp only [get, if_pos bounded, page, setAt_same, setAt_other _ _ slot]
      simp only [get, setAt_other _ _ page]
      rfl
    · simp only [get, if_neg bounded]
  · cases written

theorem installed_write (written : bank.write index cell = .ok next) :
    next.Installed index ∧ ∀ other, bank.Installed other → next.Installed other := by
  unfold write at written
  split at written
  · cases written
    refine ⟨?_, fun other installed => ?_⟩
    · simp [Installed]
    by_cases page : other / 256 = index / 256
    · simp [Installed, page]
    · simpa [Installed, setAt_other _ _ page] using installed
  · cases written

theorem write_of_get {old : BankCell α} (found : bank.get index = .ok old) (cell : BankCell α) :
    ∃ next, bank.write index cell = .ok next := by
  unfold get at found
  split at found
  · rename_i inside
    exact ⟨_, by rw [write, if_pos inside]⟩
  · cases found

theorem swap_of_installed {old : BankCell α} (found : bank.get index = .ok old)
    (installed : bank.Installed index) (written : bank.write index cell = .ok next) :
    bank.swap index cell = .ok (old, next) := by
  unfold Installed at installed
  unfold write at written
  unfold get at found
  unfold swap
  split at written
  · rename_i inside
    rw [if_pos inside] at found ⊢
    cases page : bank.pages (index / 256) with
    | none => simp [page] at installed
    | some values => ?_
    simp only [page] at found
    cases found
    cases written
    simp only [installedPage, page]
  · cases written

end PagedDenseBank

/-! ## Register banks -/

namespace RegisterBank

variable {α : Type} {bank next : RegisterBank α} {index : Nat} {cell : BankCell α}

def Installed (bank : RegisterBank α) (index : Nat) : Prop :=
  index < 256 ∨ bank.overflow.Installed index

theorem get_write (written : bank.write index cell = .ok next) :
    next.get index = .ok cell ∧ ∀ other ≠ index, next.get other = bank.get other := by
  unfold write at written
  split at written
  · rename_i inside
    cases written
    refine ⟨?_, fun other apart => ?_⟩
    · simp [get, inside]
    · simp only [get, setAt_other _ _ apart]
  rename_i outside
  obtain ⟨overflow, writing, written⟩ := bind_eq_ok.mp written
  cases pure_eq_ok.mp written
  obtain ⟨same, others⟩ := PagedDenseBank.get_write writing
  refine ⟨?_, fun other apart => ?_⟩
  · rw [get, if_neg outside, same]
  · simp only [get, others other apart]

theorem installed_write (written : bank.write index cell = .ok next) :
    next.Installed index ∧ ∀ other, bank.Installed other → next.Installed other := by
  unfold write at written
  split at written
  · rename_i inside
    cases written
    exact ⟨.inl inside, fun _ installed => installed⟩
  obtain ⟨overflow, writing, written⟩ := bind_eq_ok.mp written
  cases pure_eq_ok.mp written
  obtain ⟨same, others⟩ := PagedDenseBank.installed_write writing
  exact ⟨.inr same, fun other => Or.imp_right (others other)⟩

theorem write_of_get {old : BankCell α} (found : bank.get index = .ok old) (cell : BankCell α) :
    ∃ next, bank.write index cell = .ok next := by
  unfold get at found
  unfold write
  split
  · exact ⟨_, rfl⟩
  rename_i outside
  rw [if_neg outside] at found
  obtain ⟨overflow, writing⟩ := PagedDenseBank.write_of_get found cell
  exact ⟨_, by rw [writing, ok_bind]; rfl⟩

theorem swap_of_installed {old : BankCell α} (found : bank.get index = .ok old)
    (installed : bank.Installed index) (written : bank.write index cell = .ok next) :
    bank.swap index cell = .ok (old, next) := by
  unfold get at found
  unfold write at written
  unfold swap
  split at written
  · rename_i inside
    rw [if_pos inside] at found ⊢
    cases found
    cases written
    rfl
  rename_i outside
  rw [if_neg outside] at found ⊢
  obtain ⟨overflow, writing, written⟩ := bind_eq_ok.mp written
  cases pure_eq_ok.mp written
  have paged := installed.resolve_left outside
  rw [PagedDenseBank.swap_of_installed found paged writing, ok_bind]
  rfl

end RegisterBank

/-! ## Font rows -/

namespace FontRuntimeRow

variable {row next : FontRuntimeRow} {cell : FontRuntimeCell} {value : BankCellValue}

theorem parameter_setParameter {number : Nat} {content : BankCell Scaled}
    (set : row.setParameter number content = .ok next) : next.parameter number = .ok content ∧
      (∀ other ≠ number, next.parameter other = row.parameter other) ∧
      ∃ parameters, next = { row with parameters } := by
  cases number with
  | zero => cases set
  | succ index => ?_
  unfold setParameter at set
  dsimp only at set
  split at set
  · rename_i inside
    cases set
    refine ⟨?_, ?_, _, rfl⟩
    · simp [parameter, inside]
    intro other apart
    cases other with
    | zero => rfl
    | succ position =>
      have distinct : index ≠ position := fun same => apart (by rw [same])
      simp only [parameter, List.getElem?_set_ne distinct]
  · cases set

def Takes : FontRuntimeCell → BankCellValue → Prop
  | .dimen .., .dimension _ => True
  | .dimen .., .integer _ => False
  | _, .integer _ => True
  | _, .dimension _ => False

theorem read_takes (found : row.read cell = .ok value) : Takes cell value := by
  cases cell with
  | dimen font number =>
    obtain ⟨content, _, found⟩ := bind_eq_ok.mp found
    cases pure_eq_ok.mp found
    trivial
  | pdfCode table font code =>
    unfold read at found
    dsimp only at found
    split at found
    · cases found
      trivial
    · cases found
  | _ =>
    cases found
    trivial

theorem write_takes (written : row.write cell value = .ok next) : Takes cell value := by
  cases cell <;> cases value <;> first | trivial | cases written

theorem read_write (written : row.write cell value = .ok next) : next.read cell = .ok value ∧
      ∀ other, other.font = cell.font → other ≠ cell → next.read other = row.read other := by
  cases cell with
  | dimen font number =>
    cases value with
    | integer content => cases written
    | dimension content => ?_
    obtain ⟨same, others, parameters, shape⟩ := parameter_setParameter written
    refine ⟨by rw [read, same, ok_bind]; rfl, fun other fonts apart => ?_⟩
    cases other with
    | dimen otherFont otherNumber =>
      have numbers : otherNumber.toNat ≠ number.toNat := by
        intro equal
        have fonts : otherFont = font := fonts
        exact apart (by rw [fonts, UInt32.toNat_inj.mp equal])
      simp only [read, others _ numbers]
    | _ =>
      rw [shape]
      rfl
  | pdfCode table font code =>
    cases value with
    | dimension content => cases written
    | integer content => ?_
    unfold write at written
    dsimp only at written
    split at written
    · rename_i codes found
      cases written
      refine ⟨by simp [read], fun other fonts apart => ?_⟩
      cases other with
      | pdfCode otherTable otherFont otherCode =>
        by_cases tables : otherTable = table
        · have coded : otherCode ≠ code := by
            intro equal
            have fonts : otherFont = font := fonts
            exact apart (by rw [fonts, tables, equal])
          simp [read, tables, found, setAt_other _ _ coded]
        · simp only [read, setAt_other _ _ tables]
      | _ => rfl
    · cases written
  | _ =>
    cases value with
    | dimension content => cases written
    | integer content => ?_
    cases written
    refine ⟨rfl, fun other fonts apart => ?_⟩
    cases other <;> first
      | rfl
      | (dsimp only [FontRuntimeCell.font] at fonts
         exact absurd (by rw [fonts]) apart)

theorem write_of_read {old : BankCellValue} (found : row.read cell = .ok old)
    (takes : Takes cell value) : ∃ next, row.write cell value = .ok next := by
  cases cell with
  | dimen font number =>
    cases value with
    | integer content => exact takes.elim
    | dimension content => ?_
    obtain ⟨content, finding, _⟩ := bind_eq_ok.mp found
    unfold parameter at finding
    unfold write setParameter
    cases numbered : number.toNat with
    | zero =>
      rw [numbered] at finding
      cases finding
    | succ index => ?_
    rw [numbered] at finding
    dsimp only at finding ⊢
    split at finding
    · rename_i cell position
      obtain ⟨inside, _⟩ := List.getElem?_eq_some_iff.mp position
      exact ⟨_, by rw [numbered]; exact if_pos inside⟩
    · cases finding
  | pdfCode table font code =>
    cases value with
    | dimension content => exact takes.elim
    | integer content => ?_
    unfold read at found
    unfold write
    dsimp only at found ⊢
    split at found
    · rename_i codes lookup
      exact ⟨_, rfl⟩
    · cases found
  | _ =>
    cases value with
    | dimension content => exact takes.elim
    | integer content => exact ⟨_, rfl⟩

end FontRuntimeRow

namespace FontRuntimeBank

variable {bank next : FontRuntimeBank} {cell : FontRuntimeCell} {value : BankCellValue}

theorem row_setRow {font : UInt32} {old row : FontRuntimeRow} (found : bank.row font = .ok old) :
    (bank.setRow font row).row font = .ok row ∧
      ∀ other ≠ font, (bank.setRow font row).row other = bank.row other := by
  unfold FontRuntimeBank.row at found
  split at found
  · rename_i content position
    obtain ⟨inside, _⟩ := List.getElem?_eq_some_iff.mp position
    refine ⟨by simp [FontRuntimeBank.row, setRow, inside], fun other apart => ?_⟩
    have numbers : font.toNat ≠ other.toNat := fun same => apart (UInt32.toNat_inj.mp same).symm
    simp only [FontRuntimeBank.row, setRow, List.getElem?_set_ne numbers]
  · cases found

theorem read_takes (found : bank.read cell = .ok value) : FontRuntimeRow.Takes cell value := by
  obtain ⟨row, _, reading⟩ := bind_eq_ok.mp found
  exact FontRuntimeRow.read_takes reading

theorem write_takes (written : bank.write cell value = .ok next) :
    FontRuntimeRow.Takes cell value := by
  obtain ⟨row, _, written⟩ := bind_eq_ok.mp written
  obtain ⟨changed, changing, _⟩ := bind_eq_ok.mp written
  exact FontRuntimeRow.write_takes changing

theorem read_write (written : bank.write cell value = .ok next) :
    next.read cell = .ok value ∧ ∀ other ≠ cell, next.read other = bank.read other := by
  obtain ⟨row, found, written⟩ := bind_eq_ok.mp written
  obtain ⟨changed, changing, written⟩ := bind_eq_ok.mp written
  cases pure_eq_ok.mp written
  obtain ⟨same, others⟩ := @row_setRow bank cell.font row changed found
  obtain ⟨here, elsewhere⟩ := FontRuntimeRow.read_write changing
  refine ⟨by rw [read, same, ok_bind, here], fun other apart => ?_⟩
  by_cases fonts : other.font = cell.font
  · rw [read, fonts, same, ok_bind, elsewhere other fonts apart, read, fonts, found, ok_bind]
  · rw [read, others other.font fonts, read]

theorem write_of_read {old : BankCellValue} (found : bank.read cell = .ok old)
    (takes : FontRuntimeRow.Takes cell value) :
    ∃ next, bank.write cell value = .ok next ∧ bank.swap cell value = .ok (old, next) := by
  obtain ⟨row, located, reading⟩ := bind_eq_ok.mp found
  obtain ⟨changed, changing⟩ := FontRuntimeRow.write_of_read reading takes
  have written : bank.write cell value = .ok (bank.setRow cell.font changed) := by
    rw [write, located, ok_bind, changing, ok_bind]
    rfl
  refine ⟨_, written, ?_⟩
  rw [swap, found, ok_bind, written, ok_bind]
  rfl

theorem length_write (written : bank.write cell value = .ok next) :
    next.rows.length = bank.rows.length := by
  obtain ⟨row, _, written⟩ := bind_eq_ok.mp written
  obtain ⟨changed, _, written⟩ := bind_eq_ok.mp written
  cases pure_eq_ok.mp written
  exact List.length_set

end FontRuntimeBank

end Umber.State
