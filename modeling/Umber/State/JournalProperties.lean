import Umber.State.Journal

/-! Which cells a packed coordinate names. -/

set_option autoImplicit false

namespace Umber.State

/-- The journal can name the cell: a font parameter has 18 bits for its number. -/
def StateCell.Representable : StateCell → Prop
  | .fontRuntime (.dimen _ number) => number.toNat < 262144
  | _ => True

namespace JournalCell

theorem shiftLeft_or {low width size : Nat} (high : Nat) (sized : 1 <<< width = size)
    (bounded : low < size) : high <<< width ||| low = high * size + low := by
  subst sized
  rw [Nat.one_shiftLeft] at bounded ⊢
  rw [← Nat.shiftLeft_add_eq_or_of_lt bounded, Nat.shiftLeft_eq]

theorem shiftRight_eq {value width size : Nat} (sized : 1 <<< width = size) :
    value >>> width = value / size := by
  subst sized
  rw [Nat.one_shiftLeft, Nat.shiftRight_eq_div_pow]

theorem and_mask {value width size : Nat} (sized : 1 <<< width = size) :
    value &&& (1 <<< width) - 1 = value % size := by
  subst sized
  rw [Nat.one_shiftLeft, Nat.and_two_pow_sub_one_eq_mod]

theorem dimen_fields (font number : UInt32) (small : number.toNat < 262144) :
    (fields (.fontRuntime (.dimen font number))).2 = font.toNat * 262144 + number.toNat :=
  shiftLeft_or _ rfl small

theorem pdfCode_fields (table : UInt8) (font : UInt32) (code : UInt8) :
    (fields (.fontRuntime (.pdfCode table font code))).2 =
      table.toNat * 1099511627776 + (font.toNat * 256 + code.toNat) := by
  have fonts := font.toNat_lt
  have codes := code.toNat_lt
  change table.toNat <<< 40 ||| font.toNat <<< 8 ||| code.toNat = _
  rw [Nat.or_assoc, @shiftLeft_or code.toNat 8 256 _ rfl codes,
    @shiftLeft_or _ 40 1099511627776 _ rfl (by omega)]

theorem code_fields (kind : CodeTableKind) (index : UInt32) :
    (fields (.code kind index)).2 = kind.tag * 4294967296 + index.toNat :=
  shiftLeft_or _ rfl index.toNat_lt

theorem tag_le (kind : CodeTableKind) : kind.tag ≤ 5 := by
  cases kind <;> decide

variable {cell : StateCell}

theorem fields_snd_lt (representable : cell.Representable) :
    (fields cell).2 < 288230376151711744 := by
  cases cell with
  | fontRuntime font =>
    cases font with
    | dimen font number =>
      have fonts := font.toNat_lt
      have small : number.toNat < 262144 := representable
      rw [dimen_fields font number small]
      omega
    | pdfCode table font code =>
      have tables := table.toNat_lt
      have fonts := font.toNat_lt
      have codes := code.toNat_lt
      rw [pdfCode_fields]
      omega
    | parameterCount font | hyphenChar font | skewChar font | ligaturesDisabled font =>
      exact Nat.lt_trans font.toNat_lt (by decide)
  | code kind index =>
    have indices := index.toNat_lt
    have kinds := tag_le kind
    rw [code_fields]
    omega
  | currentFont => exact Nat.zero_lt_succ _
  | _ index => exact Nat.lt_trans index.toNat_lt (by decide)

theorem ofFields_fields (representable : cell.Representable) :
    ofFields (fields cell).1 (fields cell).2 = cell := by
  cases cell with
  | fontRuntime font =>
    cases font with
    | dimen font number =>
      have small : number.toNat < 262144 := representable
      rw [dimen_fields font number small]
      change StateCell.fontRuntime (.dimen (UInt32.ofNat (_ >>> 18)) (UInt32.ofNat (_ &&& _))) = _
      rw [@shiftRight_eq _ 18 262144 rfl, @and_mask _ 18 262144 rfl]
      have upper : (font.toNat * 262144 + number.toNat) / 262144 = font.toNat := by omega
      have lower : (font.toNat * 262144 + number.toNat) % 262144 = number.toNat := by omega
      rw [upper, lower, UInt32.ofNat_toNat, UInt32.ofNat_toNat]
    | pdfCode table font code =>
      have fonts := font.toNat_lt
      have codes := code.toNat_lt
      rw [pdfCode_fields]
      change StateCell.fontRuntime
        (.pdfCode (UInt8.ofNat (_ >>> 40)) (UInt32.ofNat (_ >>> 8)) (UInt8.ofNat _)) = _
      rw [@shiftRight_eq _ 40 1099511627776 rfl, @shiftRight_eq _ 8 256 rfl]
      congr 2
      · have upper :
            (table.toNat * 1099511627776 + (font.toNat * 256 + code.toNat)) / 1099511627776 =
              table.toNat := by omega
        rw [upper, UInt8.ofNat_toNat]
      · apply UInt32.toNat_inj.mp
        rw [UInt32.toNat_ofNat']
        omega
      apply UInt8.toNat_inj.mp
      rw [UInt8.toNat_ofNat']
      omega
    | _ => simp [fields, ofFields]
  | code kind index =>
    have bounded := index.toNat_lt
    have kinds := tag_le kind
    rw [code_fields]
    change StateCell.code (codeTableKind (_ >>> 32 % 256)) (UInt32.ofNat _) = _
    rw [@shiftRight_eq _ 32 4294967296 rfl]
    have tagged : (kind.tag * 4294967296 + index.toNat) / 4294967296 % 256 = kind.tag := by omega
    have indexed : UInt32.ofNat (kind.tag * 4294967296 + index.toNat) = index := by
      apply UInt32.toNat_inj.mp
      rw [UInt32.toNat_ofNat']
      omega
    rw [tagged, indexed]
    cases kind <;> rfl
  | currentFont => rfl
  | _ index => simp [fields, ofFields]

theorem unpack_pack (representable : cell.Representable) : (pack cell).unpack = cell := by
  have bounded := fields_snd_lt representable
  have packed : (pack cell).bits = (fields cell).1 * 288230376151711744 + (fields cell).2 :=
    shiftLeft_or _ rfl bounded
  unfold unpack payloadMask
  rw [packed, @shiftRight_eq _ tagShift 288230376151711744 rfl,
    @and_mask _ tagShift 288230376151711744 rfl]
  have tagged :
      ((fields cell).1 * 288230376151711744 + (fields cell).2) / 288230376151711744 =
        (fields cell).1 := by omega
  have masked :
      ((fields cell).1 * 288230376151711744 + (fields cell).2) % 288230376151711744 =
        (fields cell).2 := by omega
  rw [tagged, masked]
  exact ofFields_fields representable

/-- Whatever was packed, the cell that comes back can be packed again. -/
theorem unpack_representable (packed : JournalCell) : packed.unpack.Representable := by
  unfold unpack ofFields
  dsimp only
  split
  case h_16 =>
    change (UInt32.ofNat _).toNat < 262144
    rw [UInt32.toNat_ofNat', @and_mask _ 18 262144 rfl]
    omega
  all_goals trivial

theorem dimen_payload_lt (font number : UInt32) :
    (fields (.fontRuntime (.dimen font number))).2 < 1 <<< 50 := by
  have fonts := font.toNat_lt
  have numbers := number.toNat_lt
  have high : font.toNat <<< 18 < 1 <<< 50 := by
    rw [Nat.shiftLeft_eq, Nat.one_shiftLeft]
    omega
  have low : number.toNat < 1 <<< 50 := by
    rw [Nat.one_shiftLeft]
    omega
  rw [Nat.one_shiftLeft] at high low ⊢
  exact Nat.or_lt_two_pow high low

/-- A font parameter whose number is too wide packs like the parameter that comes back. -/
theorem pack_unpack_dimen (font number : UInt32) :
    pack (pack (.fontRuntime (.dimen font number))).unpack =
      pack (.fontRuntime (.dimen font number)) := by
  have payload : ∃ payload, (fields (.fontRuntime (.dimen font number))).2 = payload ∧
      payload < 1125899906842624 := ⟨_, rfl, dimen_payload_lt font number⟩
  obtain ⟨payload, same, bounded⟩ := payload
  have tag : (fields (.fontRuntime (.dimen font number))).1 = 15 := rfl
  have bits : (pack (.fontRuntime (.dimen font number))).bits =
      15 * 288230376151711744 + payload := by
    unfold pack
    rw [tag, same]
    exact shiftLeft_or _ rfl (by omega)
  have upper : (15 * 288230376151711744 + payload) / 288230376151711744 = 15 := by omega
  have lower : (15 * 288230376151711744 + payload) % 288230376151711744 = payload := by omega
  have back : (pack (.fontRuntime (.dimen font number))).unpack =
      .fontRuntime (.dimen (UInt32.ofNat (payload / 262144)) (UInt32.ofNat (payload % 262144))) := by
    unfold unpack payloadMask
    rw [bits, @shiftRight_eq _ tagShift 288230376151711744 rfl,
      @and_mask _ tagShift 288230376151711744 rfl, upper, lower]
    change StateCell.fontRuntime (.dimen (UInt32.ofNat (_ >>> 18)) (UInt32.ofNat (_ &&& _))) = _
    rw [@shiftRight_eq _ 18 262144 rfl, @and_mask _ 18 262144 rfl]
  have fonts : (UInt32.ofNat (payload / 262144)).toNat = payload / 262144 := by
    rw [UInt32.toNat_ofNat']
    omega
  have numbers : (UInt32.ofNat (payload % 262144)).toNat = payload % 262144 := by
    rw [UInt32.toNat_ofNat']
    omega
  have again : (fields (.fontRuntime (.dimen (UInt32.ofNat (payload / 262144))
      (UInt32.ofNat (payload % 262144))))).2 = payload := by
    rw [dimen_fields _ _ (by omega), fonts, numbers]
    omega
  rw [back]
  unfold pack
  rw [again, same]
  rfl

theorem pack_unpack_pack (cell : StateCell) : pack (pack cell).unpack = pack cell := by
  by_cases representable : cell.Representable
  · rw [unpack_pack representable]
  cases cell with
  | fontRuntime font =>
    cases font with
    | dimen font number => exact pack_unpack_dimen font number
    | _ => exact absurd trivial representable
  | _ => exact absurd trivial representable

/-- A cell comes back just when the journal can name it, and no other cell it can name packs
alike. -/
theorem pack_lossless_iff (cell : StateCell) : ((pack cell).unpack = cell ↔ cell.Representable) ∧
      ((∀ other : StateCell, other.Representable → pack other = pack cell → other = cell) ↔
        cell.Representable) := by
  have back : (pack cell).unpack = cell ↔ cell.Representable := by
    constructor
    · intro same
      rw [← same]
      exact unpack_representable _
    · exact unpack_pack
  refine ⟨back, fun only => ?_, fun representable other named alike => ?_⟩
  · exact back.mp (only _ (unpack_representable _) (pack_unpack_pack cell))
  · rw [← unpack_pack named, alike, unpack_pack representable]

end JournalCell

theorem Mutation.cell_representable {R : References} (mutation : Mutation R) :
    mutation.cell.Representable :=
  JournalCell.unpack_representable mutation.packed

theorem Mutation.cell_new {R : References} {cell : StateCell} (representable : cell.Representable)
    (before : BankCell (StateWord R)) (savedAt : Option Nat) :
    (Mutation.new cell before savedAt).cell = cell :=
  JournalCell.unpack_pack representable

namespace SaveJournal

variable {R : References} (journal : SaveJournal R) (mutation : Mutation R)

/-! ## What one record changes -/

@[simp] theorem retainDelta_activeSequence :
    (journal.retainDelta mutation).activeSequence = journal.activeSequence := by
  unfold retainDelta
  split <;> rfl

@[simp] theorem retainDelta_activeGroups :
    (journal.retainDelta mutation).activeGroups = journal.activeGroups := by
  unfold retainDelta
  split <;> rfl

@[simp] theorem retainDelta_transactionDepth :
    (journal.retainDelta mutation).transactionDepth = journal.transactionDepth := by
  unfold retainDelta
  split <;> rfl

@[simp] theorem retainDelta_transactionEntries :
    (journal.retainDelta mutation).transactionEntries = journal.transactionEntries := by
  unfold retainDelta
  split <;> rfl

@[simp] theorem retainDelta_saveSerial :
    (journal.retainDelta mutation).saveSerial = journal.saveSerial := by
  unfold retainDelta
  split <;> rfl

@[simp] theorem retainDelta_checkpointFork :
    (journal.retainDelta mutation).checkpointFork = journal.checkpointFork := by
  unfold retainDelta
  split <;> rfl

theorem retainOperation_eq :
    ∃ transactionEntries, journal.retainOperation mutation = { journal with transactionEntries } := by
  unfold retainOperation
  split
  · exact ⟨_, rfl⟩
  · exact ⟨_, rfl⟩

@[simp] theorem recordMutation_checkpointArena :
    (journal.recordMutation mutation).checkpointArena = (journal.retainDelta mutation).checkpointArena := by
  unfold recordMutation retainSave retainOperation
  split <;> split <;> rfl

@[simp] theorem recordMutation_checkpointEntries :
    (journal.recordMutation mutation).checkpointEntries = (journal.retainDelta mutation).checkpointEntries := by
  unfold recordMutation retainSave retainOperation
  split <;> split <;> rfl

@[simp] theorem recordMutation_saveSerial :
    (journal.recordMutation mutation).saveSerial = (journal.retainDelta mutation).saveSerial := by
  unfold recordMutation retainSave retainOperation
  split <;> split <;> rfl

@[simp] theorem recordMutation_transactionDepth :
    (journal.recordMutation mutation).transactionDepth = (journal.retainDelta mutation).transactionDepth := by
  unfold recordMutation retainSave retainOperation
  split <;> split <;> rfl

@[simp] theorem recordMutation_transactionEntries :
    (journal.recordMutation mutation).transactionEntries =
      ((journal.retainDelta mutation).retainOperation mutation).transactionEntries := by
  unfold recordMutation retainSave
  split <;> rfl

theorem recordMutation_unsaved (unsaved : mutation.savedAt = none) :
    (journal.recordMutation mutation).activeSequence = journal.activeSequence ∧
      (journal.recordMutation mutation).activeGroups = journal.activeGroups := by
  obtain ⟨entries, operation⟩ := retainOperation_eq (journal.retainDelta mutation) mutation
  simp [recordMutation, retainSave, unsaved, operation]

theorem recordMutation_saved {level : Nat} (saved : mutation.savedAt = some level) :
    (journal.recordMutation mutation).activeSequence =
        journal.activeSequence ++ [.mutation mutation] ∧
      (journal.recordMutation mutation).activeGroups =
        countEntry journal.activeGroups journal.activeSequence.length mutation.cell := by
  obtain ⟨entries, operation⟩ := retainOperation_eq (journal.retainDelta mutation) mutation
  simp [recordMutation, retainSave, saved, operation]

end SaveJournal

end Umber.State
