import Umber.State.BankProperties
import Umber.State.Cell

/-! Reading a cell of the dense state behind a write, and exchanging it. -/

set_option autoImplicit false

namespace Umber.State

open ExceptLib FontRuntimeBank StateError

theorem StateError.ofBank_eq_ok {α : Type} {result : Except BankError α} {value : α} :
    ofBank result = .ok value ↔ result = .ok value := by
  cases result with
  | error error => simp [ofBank]
  | ok found => simp [ofBank]

def wordFits {R : References} : StateCell → StateWord R → Bool
  | .fontRuntime (.dimen ..), .dimension _ => true
  | .fontRuntime (.dimen ..), _ => false
  | .fontRuntime _, .integer _ => true
  | .fontRuntime _, _ => false
  | cell, word => wordMatches cell word

theorem wordMatches_of_wordFits {R : References} {cell : StateCell} {word : StateWord R}
    (fits : wordFits cell word = true) : wordMatches cell word = true := by
  cases cell with
  | fontRuntime font => cases font <;> cases word <;> first | rfl | cases fits
  | _ => exact fits

namespace Banks

variable {R : References} {banks next : Banks R} {cell : StateCell}
  {old content : BankCell (StateWord R)}

def Installed (banks : Banks R) : StateCell → Prop
  | .count index => banks.counts.Installed index.toNat
  | .dimension index => banks.dimensions.Installed index.toNat
  | .tokenRegister index => banks.tokenRegisters.Installed index.toNat
  | .glueRegister index => banks.glueRegisters.Installed index.toNat
  | .muGlueRegister index => banks.muGlueRegisters.Installed index.toNat
  | .code kind index => (banks.codes kind).Installed index.toNat
  | _ => True

variable {α : Type} {word : α → StateWord R}

theorem wrap_eq_ok {read : Except BankError (BankCell α)} :
    wrap read word = .ok old ↔ ∃ found, read = .ok found ∧ found.map word = old := by
  cases read with
  | error error => simp [wrap]
  | ok found => simp [wrap]

theorem readCell_fits (found : banks.readCell cell = .ok old) : wordFits cell old.value = true := by
  cases cell with
  | boxRegister index => cases found
  | currentFont =>
    cases found
    rfl
  | fontRuntime font =>
    unfold readCell at found
    dsimp only at found
    split at found
    · rename_i value reading
      cases found
      have takes := read_takes reading
      cases font <;> first | rfl | exact takes.elim
    · rename_i value reading
      cases found
      have takes := read_takes reading
      cases font <;> first | rfl | exact takes.elim
    · cases found
  | _ =>
    obtain ⟨content, _, rfl⟩ := wrap_eq_ok.mp found
    rfl

structure Written (banks next : Banks R) (cell : StateCell) (content : BankCell (StateWord R)) :
    Prop where
  fits : wordFits cell content.value = true
  same : next.readCell cell = .ok content
  others : ∀ other ≠ cell, next.readCell other = banks.readCell other
  installed : next.Installed cell
  kept : ∀ other, banks.Installed other → next.Installed other
  rows : next.fontRuntime.rows.length = banks.fontRuntime.rows.length

/-- One slot of one bank written: the reads and the installed pages before and
behind the write. -/
structure SlotWrite {ι α : Type} (before after : ι → Except BankError (BankCell α))
    (heldBefore heldAfter : ι → Prop) (index : ι) (value : BankCell α) : Prop where
  same : after index = .ok value
  others : ∀ slot ≠ index, after slot = before slot
  installed : heldAfter index
  kept : ∀ slot, heldBefore slot → heldAfter slot

variable {ι : Type} {index : ι} {value : BankCell α}
  {before : ι → Except BankError (BankCell α)} {heldBefore : ι → Prop}

theorem SlotWrite.written {after : ι → Except BankError (BankCell α)} {heldAfter : ι → Prop}
    (slots : SlotWrite before after heldBefore heldAfter index value) (place : ι → StateCell)
    (word : α → StateWord R) (fits : wordFits (place index) (word value.value) = true)
    (reads : ∀ slot, next.readCell (place slot) = wrap (after slot) word ∧
      banks.readCell (place slot) = wrap (before slot) word)
    (pages : ∀ slot, next.Installed (place slot) = heldAfter slot ∧
      banks.Installed (place slot) = heldBefore slot)
    (elsewhere : ∀ other, (∀ slot, other ≠ place slot) →
      next.readCell other = banks.readCell other ∧ next.Installed other = banks.Installed other)
    (rows : next.fontRuntime.rows.length = banks.fontRuntime.rows.length) :
    Written banks next (place index) (value.map word) := by
  refine ⟨fits, ?_, fun other apart => ?_, ?_, fun other held => ?_, rows⟩
  · rw [(reads index).1, slots.same]
    rfl
  · by_cases placed : ∃ slot, other = place slot
    · obtain ⟨slot, rfl⟩ := placed
      have distinct : slot ≠ index := fun equal => apart (by rw [equal])
      rw [(reads slot).1, (reads slot).2, slots.others slot distinct]
    · exact (elsewhere other fun slot equal => placed ⟨slot, equal⟩).1
  · rw [(pages index).1]
    exact slots.installed
  by_cases placed : ∃ slot, other = place slot
  · obtain ⟨slot, rfl⟩ := placed
    rw [(pages slot).2] at held
    rw [(pages slot).1]
    exact slots.kept slot held
  rw [(elsewhere other fun slot equal => placed ⟨slot, equal⟩).2]
  exact held

variable {bank : RegisterBank α}

theorem slotWrite_register {changed : RegisterBank α} {index : UInt16}
    (written : ofBank (bank.write index.toNat value) = .ok changed) :
    SlotWrite (fun slot : UInt16 => bank.get slot.toNat) (fun slot => changed.get slot.toNat)
      (fun slot => bank.Installed slot.toNat) (fun slot => changed.Installed slot.toNat)
      index value := by
  have written := ofBank_eq_ok.mp written
  obtain ⟨same, others⟩ := RegisterBank.get_write written
  obtain ⟨installed, kept⟩ := RegisterBank.installed_write written
  exact ⟨same, fun slot apart => others _ fun equal => apart (UInt16.toNat_inj.mp equal),
    installed, fun slot => kept _⟩

theorem slotWrite_dense {number : ι → Nat}
    (injective : ∀ left right, number left = number right → left = right)
    {bank changed : DenseBank α}
    (written : ofBank (bank.write (number index) value) = .ok changed) :
    SlotWrite (fun slot => bank.get (number slot)) (fun slot => changed.get (number slot))
      (fun _ => True) (fun _ => True) index value := by
  obtain ⟨same, others⟩ := DenseBank.get_write (ofBank_eq_ok.mp written)
  exact ⟨same, fun slot apart => others _ fun equal => apart (injective _ _ equal),
    trivial, fun _ _ => trivial⟩

theorem slotWrite_paged {bank changed : PagedDenseBank α} {index : UInt32}
    (written : ofBank (bank.write index.toNat value) = .ok changed) :
    SlotWrite (fun slot : UInt32 => bank.get slot.toNat) (fun slot => changed.get slot.toNat)
      (fun slot => bank.Installed slot.toNat) (fun slot => changed.Installed slot.toNat)
      index value := by
  have written := ofBank_eq_ok.mp written
  obtain ⟨same, others⟩ := PagedDenseBank.get_write written
  obtain ⟨installed, kept⟩ := PagedDenseBank.installed_write written
  exact ⟨same, fun slot apart => others _ fun equal => apart (UInt32.toNat_inj.mp equal),
    installed, fun slot => kept _⟩

variable {font : FontRuntimeCell}

theorem writeCell_fontRuntime (written : banks.writeCell (.fontRuntime font) content = .ok next) :
    Written banks next (.fontRuntime font) content := by
  obtain ⟨word, level, saveSerial⟩ := content
  have elsewhere : ∀ (fontRuntime : FontRuntimeBank) (other : StateCell),
      (∀ slot, other ≠ .fontRuntime slot) →
        ({ banks with fontRuntime } : Banks R).readCell other = banks.readCell other := by
    intro fontRuntime other apart
    cases other <;> first | rfl | exact absurd rfl (apart _)
  have settles : ∀ value (word : StateWord R),
      (do
        let fontRuntime ← ofBank (banks.fontRuntime.write font value)
        pure { banks with fontRuntime }) = .ok next →
      (FontRuntimeRow.Takes font value → wordFits (.fontRuntime font) word = true) →
      (next.fontRuntime.read font = .ok value →
        next.readCell (.fontRuntime font) = .ok ⟨word, level, saveSerial⟩) →
      Written banks next (.fontRuntime font) ⟨word, level, saveSerial⟩ := by
    intro value word written fits reads
    obtain ⟨bank, writing, written⟩ := bind_eq_ok.mp written
    have writing := ofBank_eq_ok.mp writing
    cases pure_eq_ok.mp written
    obtain ⟨same, others⟩ := read_write writing
    refine ⟨fits (write_takes writing), reads same, fun other apart => ?_, trivial,
      fun other held => by cases other <;> exact held, length_write writing⟩
    by_cases placed : ∃ slot, other = .fontRuntime slot
    · obtain ⟨slot, rfl⟩ := placed
      have distinct : slot ≠ font := fun equal => apart (by rw [equal])
      simp only [readCell, others slot distinct]
    · exact elsewhere bank other fun slot equal => placed ⟨slot, equal⟩
  cases word with
  | integer value | dimension value =>
    refine settles _ _ written (fun takes => ?_) fun same => ?_
    · cases font <;> first | rfl | exact takes.elim
    simp only [readCell, same]
    rfl
  | _ => cases written

theorem SlotWrite.written_install {β : Type} {write : Except StateError β} {install : β → Banks R}
    {after : β → ι → Except BankError (BankCell α)} {heldAfter : β → ι → Prop}
    (written : (write >>= fun bank => pure (install bank)) = .ok next)
    (slots : ∀ bank, write = .ok bank →
      SlotWrite before (after bank) heldBefore (heldAfter bank) index value) (place : ι → StateCell)
    (word : α → StateWord R) (fits : wordFits (place index) (word value.value) = true)
    (reads : ∀ bank slot, (install bank).readCell (place slot) = wrap (after bank slot) word ∧
      banks.readCell (place slot) = wrap (before slot) word)
    (pages : ∀ bank slot, (install bank).Installed (place slot) = heldAfter bank slot ∧
      banks.Installed (place slot) = heldBefore slot)
    (elsewhere : ∀ bank other, (∀ slot, other ≠ place slot) →
      (install bank).readCell other = banks.readCell other ∧
        (install bank).Installed other = banks.Installed other)
    (rows : ∀ bank, (install bank).fontRuntime.rows.length = banks.fontRuntime.rows.length) :
    Written banks next (place index) (value.map word) := by
  obtain ⟨bank, writing, written⟩ := bind_eq_ok.mp written
  cases pure_eq_ok.mp written
  exact (slots bank writing).written place word fits (reads bank) (pages bank) (elsewhere bank)
    (rows bank)

theorem writeCell_written (written : banks.writeCell cell content = .ok next) :
    Written banks next cell content := by
  obtain ⟨word, level, saveSerial⟩ := content
  cases cell with
  | fontRuntime font => exact writeCell_fontRuntime written
  | boxRegister index => cases word <;> cases written
  | count index =>
    cases word with
    | integer value =>
      exact SlotWrite.written_install written (fun _ => slotWrite_register) .count .integer rfl
        (fun _ _ => ⟨rfl, rfl⟩) (fun _ _ => ⟨rfl, rfl⟩)
        (fun _ other apart => by
          cases other <;> first | exact ⟨rfl, rfl⟩ | exact absurd rfl (apart _)) fun _ => rfl
    | _ => cases written
  | dimension index =>
    cases word with
    | dimension value =>
      exact SlotWrite.written_install written (fun _ => slotWrite_register) .dimension .dimension rfl
        (fun _ _ => ⟨rfl, rfl⟩) (fun _ _ => ⟨rfl, rfl⟩)
        (fun _ other apart => by
          cases other <;> first | exact ⟨rfl, rfl⟩ | exact absurd rfl (apart _)) fun _ => rfl
    | _ => cases written
  | tokenRegister index =>
    cases word with
    | tokenList value =>
      exact SlotWrite.written_install written (fun _ => slotWrite_register) .tokenRegister .tokenList rfl
        (fun _ _ => ⟨rfl, rfl⟩) (fun _ _ => ⟨rfl, rfl⟩)
        (fun _ other apart => by
          cases other <;> first | exact ⟨rfl, rfl⟩ | exact absurd rfl (apart _)) fun _ => rfl
    | _ => cases written
  | glueRegister index =>
    cases word with
    | glue value =>
      exact SlotWrite.written_install written (fun _ => slotWrite_register) .glueRegister .glue rfl
        (fun _ _ => ⟨rfl, rfl⟩) (fun _ _ => ⟨rfl, rfl⟩)
        (fun _ other apart => by
          cases other <;> first | exact ⟨rfl, rfl⟩ | exact absurd rfl (apart _)) fun _ => rfl
    | _ => cases written
  | muGlueRegister index =>
    cases word with
    | glue value =>
      exact SlotWrite.written_install written (fun _ => slotWrite_register) .muGlueRegister .glue rfl
        (fun _ _ => ⟨rfl, rfl⟩) (fun _ _ => ⟨rfl, rfl⟩)
        (fun _ other apart => by
          cases other <;> first | exact ⟨rfl, rfl⟩ | exact absurd rfl (apart _)) fun _ => rfl
    | _ => cases written
  | integerParameter index =>
    cases word with
    | integer value =>
      exact SlotWrite.written_install written (fun _ => slotWrite_dense fun _ _ => UInt16.toNat_inj.mp) .integerParameter .integer rfl
        (fun _ _ => ⟨rfl, rfl⟩) (fun _ _ => ⟨rfl, rfl⟩)
        (fun _ other apart => by
          cases other <;> first | exact ⟨rfl, rfl⟩ | exact absurd rfl (apart _)) fun _ => rfl
    | _ => cases written
  | dimensionParameter index =>
    cases word with
    | dimension value =>
      exact SlotWrite.written_install written (fun _ => slotWrite_dense fun _ _ => UInt16.toNat_inj.mp) .dimensionParameter .dimension rfl
        (fun _ _ => ⟨rfl, rfl⟩) (fun _ _ => ⟨rfl, rfl⟩)
        (fun _ other apart => by
          cases other <;> first | exact ⟨rfl, rfl⟩ | exact absurd rfl (apart _)) fun _ => rfl
    | _ => cases written
  | tokenParameter index =>
    cases word with
    | tokenList value =>
      exact SlotWrite.written_install written (fun _ => slotWrite_dense fun _ _ => UInt16.toNat_inj.mp) .tokenParameter .tokenList rfl
        (fun _ _ => ⟨rfl, rfl⟩) (fun _ _ => ⟨rfl, rfl⟩)
        (fun _ other apart => by
          cases other <;> first | exact ⟨rfl, rfl⟩ | exact absurd rfl (apart _)) fun _ => rfl
    | _ => cases written
  | glueParameter index =>
    cases word with
    | glue value =>
      exact SlotWrite.written_install written (fun _ => slotWrite_dense fun _ _ => UInt16.toNat_inj.mp) .glueParameter .glue rfl
        (fun _ _ => ⟨rfl, rfl⟩) (fun _ _ => ⟨rfl, rfl⟩)
        (fun _ other apart => by
          cases other <;> first | exact ⟨rfl, rfl⟩ | exact absurd rfl (apart _)) fun _ => rfl
    | _ => cases written
  | meaning index =>
    cases word with
    | meaning value =>
      exact SlotWrite.written_install written (fun _ => slotWrite_dense fun _ _ => UInt32.toNat_inj.mp) .meaning .meaning rfl
        (fun _ _ => ⟨rfl, rfl⟩) (fun _ _ => ⟨rfl, rfl⟩)
        (fun _ other apart => by
          cases other <;> first | exact ⟨rfl, rfl⟩ | exact absurd rfl (apart _)) fun _ => rfl
    | _ => cases written
  | mathFamilyFont index =>
    cases word with
    | font value =>
      exact SlotWrite.written_install written (fun _ => slotWrite_dense fun _ _ => UInt8.toNat_inj.mp) .mathFamilyFont .font rfl
        (fun _ _ => ⟨rfl, rfl⟩) (fun _ _ => ⟨rfl, rfl⟩)
        (fun _ other apart => by
          cases other <;> first | exact ⟨rfl, rfl⟩ | exact absurd rfl (apart _)) fun _ => rfl
    | _ => cases written
  | currentFont =>
    cases word with
    | font value =>
      cases written
      exact ⟨rfl, rfl, fun other apart => by cases other <;> first | rfl | exact absurd rfl apart,
        trivial, fun other held => by cases other <;> exact held, rfl⟩
    | _ => cases written
  | code kind index => ?_
  cases word with
  | code value =>
    obtain ⟨bank, writing, written⟩ := bind_eq_ok.mp written
    cases pure_eq_ok.mp written
    refine (slotWrite_paged writing).written (.code kind) .code rfl (fun _ => ?_)
      (fun _ => ?_) (fun other apart => ?_) rfl
    · simp [readCell]
    · simp [Installed]
    cases other with
    | code otherKind slot =>
      have kinds : otherKind ≠ kind := fun equal => apart slot (by rw [equal])
      simp [readCell, Installed, setAt_other _ _ kinds]
    | _ => exact ⟨rfl, rfl⟩
  | _ => cases written

theorem writeCell_of_read_fontRuntime (found : banks.readCell (.fontRuntime font) = .ok old)
    (fits : wordFits (.fontRuntime font) content.value = true) :
    ∃ next, banks.writeCell (.fontRuntime font) content = .ok next ∧
      banks.swapCell (.fontRuntime font) content = .ok (old, next) := by
  obtain ⟨word, level, saveSerial⟩ := content
  unfold readCell at found
  dsimp only at found
  cases word with
  | integer value =>
    have takes : FontRuntimeRow.Takes font (.integer { value, level, saveSerial }) := by
      cases font <;> first | trivial | cases fits
    split at found
    · rename_i displaced reading
      cases found
      obtain ⟨bank, writing, swapping⟩ := write_of_read reading takes
      exact ⟨{ banks with fontRuntime := bank }, by simp only [writeCell, writing]; rfl,
        by simp only [swapCell, swapping]⟩
    · rename_i displaced reading
      have kept := read_takes reading
      cases font <;> first | exact kept.elim | cases fits
    · cases found
  | dimension value =>
    have takes : FontRuntimeRow.Takes font (.dimension { value, level, saveSerial }) := by
      cases font <;> first | trivial | cases fits
    split at found
    · rename_i displaced reading
      have kept := read_takes reading
      cases font <;> first | exact kept.elim | cases fits
    · rename_i displaced reading
      cases found
      obtain ⟨bank, writing, swapping⟩ := write_of_read reading takes
      exact ⟨{ banks with fontRuntime := bank }, by simp only [writeCell, writing]; rfl,
        by simp only [swapCell, swapping]⟩
    · cases found
  | _ => cases font <;> cases fits

variable {slot : Nat}

theorem register_exchange {install : RegisterBank α → Banks R}
    (found : wrap (bank.get slot) word = .ok old) (value : BankCell α) :
    ∃ next, (ofBank (bank.write slot value) >>= fun bank => pure (install bank)) =
        .ok next ∧
      (bank.Installed slot → exchange (bank.swap slot value) word install = .ok (old, next)) := by
  obtain ⟨displaced, reading, rfl⟩ := wrap_eq_ok.mp found
  obtain ⟨changed, writing⟩ := RegisterBank.write_of_get reading value
  refine ⟨install changed, by rw [writing]; rfl, fun installed => ?_⟩
  rw [RegisterBank.swap_of_installed reading installed writing]
  rfl

theorem dense_exchange {bank : DenseBank α} {install : DenseBank α → Banks R}
    (found : wrap (bank.get slot) word = .ok old) (value : BankCell α) :
    ∃ next, (ofBank (bank.write slot value) >>= fun bank => pure (install bank)) =
        .ok next ∧ (True → exchange (bank.swap slot value) word install = .ok (old, next)) := by
  obtain ⟨displaced, reading, rfl⟩ := wrap_eq_ok.mp found
  obtain ⟨changed, writing, swapping⟩ := DenseBank.write_of_get reading value
  refine ⟨install changed, by rw [writing]; rfl, fun _ => ?_⟩
  rw [swapping]
  rfl

/-- A cell that reads takes every word that fits it, and can be exchanged once
its page is installed. -/
theorem writeCell_of_read (found : banks.readCell cell = .ok old)
    (fits : wordFits cell content.value = true) : ∃ next, banks.writeCell cell content = .ok next ∧
      (banks.Installed cell → banks.swapCell cell content = .ok (old, next)) := by
  obtain ⟨word, level, saveSerial⟩ := content
  cases cell with
  | fontRuntime font =>
    obtain ⟨next, writing, swapping⟩ := writeCell_of_read_fontRuntime found fits
    exact ⟨next, writing, fun _ => swapping⟩
  | boxRegister index => cases found
  | count index =>
    cases word with
    | integer value => exact register_exchange found _
    | _ => cases fits
  | dimension index =>
    cases word with
    | dimension value => exact register_exchange found _
    | _ => cases fits
  | tokenRegister index =>
    cases word with
    | tokenList value => exact register_exchange found _
    | _ => cases fits
  | glueRegister index =>
    cases word with
    | glue value => exact register_exchange found _
    | _ => cases fits
  | muGlueRegister index =>
    cases word with
    | glue value => exact register_exchange found _
    | _ => cases fits
  | integerParameter index =>
    cases word with
    | integer value => exact dense_exchange found _
    | _ => cases fits
  | dimensionParameter index =>
    cases word with
    | dimension value => exact dense_exchange found _
    | _ => cases fits
  | tokenParameter index =>
    cases word with
    | tokenList value => exact dense_exchange found _
    | _ => cases fits
  | glueParameter index =>
    cases word with
    | glue value => exact dense_exchange found _
    | _ => cases fits
  | meaning index =>
    cases word with
    | meaning value => exact dense_exchange found _
    | _ => cases fits
  | mathFamilyFont index =>
    cases word with
    | font value => exact dense_exchange found _
    | _ => cases fits
  | currentFont =>
    cases word with
    | font value =>
      cases found
      exact ⟨_, rfl, fun _ => rfl⟩
    | _ => cases fits
  | code kind index => ?_
  cases word with
  | code value =>
    obtain ⟨displaced, reading, rfl⟩ := wrap_eq_ok.mp found
    obtain ⟨bank, writing⟩ := PagedDenseBank.write_of_get reading { value, level, saveSerial }
    refine ⟨_, by simp only [writeCell, writing]; rfl, fun installed => ?_⟩
    simp only [swapCell, PagedDenseBank.swap_of_installed reading installed writing]
    rfl
  | _ => cases fits

end Banks

end Umber.State
