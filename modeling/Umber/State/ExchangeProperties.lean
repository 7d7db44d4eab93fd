import Umber.Lib.UndoLog
import Umber.State.DenseProperties

/-! Exchanging retained values with the live cells follows the undo log. -/

set_option autoImplicit false

namespace Umber.State

open ExceptLib UndoLog

variable {R : References} {banks : Banks R}

def Chunk.entry (chunk : Chunk R) : StateCell × BankCell (StateWord R) :=
  (chunk.delta.cell, chunk.delta.alternate)

def entriesOf (chunks : List (Chunk R)) : List (StateCell × BankCell (StateWord R)) :=
  chunks.map Chunk.entry

variable {cell : StateCell}

theorem named_entriesOf {chunks : List (Chunk R)} : (∃ entry ∈ entriesOf chunks, entry.1 = cell) ↔
      ∃ chunk ∈ chunks, chunk.delta.cell = cell := by
  constructor
  · rintro ⟨entry, member, same⟩
    obtain ⟨chunk, held, rfl⟩ := List.mem_map.mp member
    exact ⟨chunk, held, same⟩
  rintro ⟨chunk, member, same⟩
  exact ⟨chunk.entry, List.mem_map_of_mem member, same⟩

structure Exchangeable (banks : Banks R) (chunk : Chunk R) : Prop where
  found : ∃ content, banks.contents chunk.delta.cell = some content
  installed : banks.Installed chunk.delta.cell
  fits : wordFits chunk.delta.cell chunk.delta.alternate.value = true

structure SameShape (banks next : Banks R) : Prop where
  exist : ∀ cell, (next.contents cell).isSome = (banks.contents cell).isSome
  installed : ∀ cell, banks.Installed cell → next.Installed cell
  rows : next.fontRuntime.rows.length = banks.fontRuntime.rows.length

theorem SameShape.refl (banks : Banks R) : SameShape banks banks :=
  ⟨fun _ => rfl, fun _ held => held, rfl⟩

theorem SameShape.trans {first second third : Banks R} (before : SameShape first second)
    (behind : SameShape second third) : SameShape first third :=
  ⟨fun cell => (behind.exist cell).trans (before.exist cell),
    fun cell held => behind.installed cell (before.installed cell held),
    behind.rows.trans before.rows⟩

variable {next : Banks R} {content : BankCell (StateWord R)}

theorem Banks.Written.put (written : Banks.Written banks next cell content) :
    next.contents = put banks.contents cell content := by
  rw [written.contents]
  rfl

theorem Banks.Written.sameShape {before : BankCell (StateWord R)}
    (written : Banks.Written banks next cell content) (found : banks.contents cell = some before) :
    SameShape banks next := by
  refine ⟨fun other => ?_, written.kept, written.rows⟩
  rw [written.contents]
  by_cases same : other = cell
  · rw [same, setAt_same, found]
    rfl
  · rw [setAt_other _ _ same]

theorem Exchangeable.sameShape {chunk : Chunk R} (shape : SameShape banks next)
    (exchangeable : Exchangeable banks chunk) : Exchangeable next chunk := by
  obtain ⟨content, found⟩ := exchangeable.found
  have exist := shape.exist chunk.delta.cell
  rw [found] at exist
  exact ⟨Option.isSome_iff_exists.mp exist, shape.installed _ exchangeable.installed,
    exchangeable.fits⟩

namespace DenseState

theorem swapChunk_ok {chunk : Chunk R} (exchangeable : Exchangeable banks chunk) :
    ∃ displaced next, banks.contents chunk.delta.cell = some displaced ∧
      swapChunk banks chunk =
        .ok ({ chunk with delta := { chunk.delta with alternate := displaced } }, next) ∧
      next.contents = put banks.contents chunk.delta.cell chunk.delta.alternate ∧
      SameShape banks next ∧
      wordFits chunk.delta.cell displaced.value = true := by
  obtain ⟨displaced, found⟩ := exchangeable.found
  have reading := Banks.contents_eq_some.mp found
  obtain ⟨next, writing, swapping⟩ := Banks.writeCell_of_read reading exchangeable.fits
  have written := Banks.writeCell_written writing
  refine ⟨displaced, next, found, ?_, written.put, written.sameShape found,
    Banks.readCell_fits reading⟩
  rw [swapChunk, swapping exchangeable.installed, ok_bind]
  rfl

theorem rewind_rewinds {chunks : List (Chunk R)}
    (exchangeable : ∀ chunk ∈ chunks, Exchangeable banks chunk) :
    ∃ displaced next, rewind banks chunks = .ok (displaced, next) ∧
      Rewinds banks.contents (entriesOf chunks) (entriesOf displaced) next.contents ∧
      displaced.map (·.key) = chunks.map (·.key) ∧ SameShape banks next ∧
      ∀ chunk ∈ displaced, Exchangeable next chunk := by
  induction chunks with
  | nil => exact ⟨[], banks, rfl, .nil, rfl, .refl banks, nofun⟩
  | cons chunk later ih => ?_
  obtain ⟨displacedLater, between, rewinding, rewinds, keys, shape, ready⟩ :=
    ih fun other member => exchangeable other (List.mem_cons_of_mem _ member)
  obtain ⟨displaced, next, found, swapping, contents, kept, fits⟩ := swapChunk_ok
    ((exchangeable chunk List.mem_cons_self).sameShape shape)
  refine ⟨{ chunk with delta := { chunk.delta with alternate := displaced } } :: displacedLater,
    next, ?_, ?_, ?_, shape.trans kept, fun other member => ?_⟩
  · rw [rewind, rewinding, ok_bind]
    simp only [swapping, ok_bind]
    rfl
  · rw [contents]
    exact .cons rewinds found
  · rw [List.map_cons, List.map_cons, keys]
  rcases List.mem_cons.mp member with rfl | earlier
  · have same := (exchangeable chunk List.mem_cons_self).sameShape (shape.trans kept)
    exact ⟨same.found, same.installed, fits⟩
  · exact (ready other earlier).sameShape kept

theorem redo_redoes {chunks : List (Chunk R)} {displaced : List (StateCell × BankCell (StateWord R))}
    {final : StateCell → Option (BankCell (StateWord R))}
    (redoes : Redoes banks.contents (entriesOf chunks) displaced final)
    (exchangeable : ∀ chunk ∈ chunks, Exchangeable banks chunk) :
    ∃ restored next, redo banks chunks = .ok (restored, next) ∧ entriesOf restored = displaced ∧
      next.contents = final ∧ restored.map (·.key) = chunks.map (·.key) ∧ SameShape banks next := by
  induction chunks generalizing banks displaced with
  | nil =>
    cases redoes
    exact ⟨[], banks, rfl, rfl, rfl, rfl, .refl banks⟩
  | cons chunk later ih => ?_
  cases redoes with
  | cons found rest => ?_
  obtain ⟨previous, between, same, swapping, contents, kept, _⟩ :=
    swapChunk_ok (exchangeable chunk List.mem_cons_self)
  obtain rfl : previous = _ := Option.some.inj (same.symm.trans found)
  rw [← contents] at rest
  obtain ⟨restored, next, redoing, entries, final, keys, shape⟩ := ih rest
    fun other member =>
      (exchangeable other (List.mem_cons_of_mem _ member)).sameShape kept
  refine ⟨{ chunk with delta := { chunk.delta with alternate := previous } } :: restored,
    next, ?_, ?_, final, ?_, kept.trans shape⟩
  · rw [redo, swapping, ok_bind]
    simp only [redoing, ok_bind]
    rfl
  · rw [← entries]
    rfl
  · rw [List.map_cons, List.map_cons, keys]

end DenseState

end Umber.State
