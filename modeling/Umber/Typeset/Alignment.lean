import Mathlib.Order.Bounds.Basic
import Umber.Lib.Except

/-! The widths of alignment columns. A cell that spans columns is passed on to the
next column until only its last column is left. -/

set_option autoImplicit false

namespace Umber.Typeset

structure AlignmentWidthRequirement where
  firstColumn : Nat
  span : Nat
  width : Int

structure AlignmentWidthPlan where
  columns : List Int
  zeroTabskipBoundaries : List Nat

/-- `unfinished` marks a loop that has used up the rounds the model grants it. -/
inductive AlignmentPlanError where
  | arithmeticOverflow
  | missingTabskipBoundary (boundary : Nat)
  | unfinished

structure ColumnRecord where
  width : Option Int
  spans : List (Nat × Int)

def ColumnRecord.default : ColumnRecord := ⟨none, []⟩

def ensureColumns (records : List ColumnRecord) (columns : Nat) : List ColumnRecord :=
  records ++ List.replicate (columns - records.length) .default

def mergeSpan (span : Nat) (width : Int) : List (Nat × Int) → List (Nat × Int)
  | [] => [(span, width)]
  | entry :: rest =>
    if span < entry.1 then (span, width) :: entry :: rest
    else if span = entry.1 then (span, max entry.2 width) :: rest
    else entry :: mergeSpan span width rest

def mergeWidth (record : ColumnRecord) (span : Nat) (width : Int) : ColumnRecord :=
  if span ≤ 1 then
    if record.width.all fun old => old < width then { record with width := some width }
    else record
  else { record with spans := mergeSpan span width record.spans }

/-- A value that a `Scaled` can hold. -/
def planScaled (value : Int) : Except AlignmentPlanError Int :=
  if -2147483648 ≤ value ∧ value ≤ 2147483647 then .ok value else .error .arithmeticOverflow

def AlignmentWidthRequirement.columnSpan (requirement : AlignmentWidthRequirement) : Nat :=
  max requirement.span 1

def placeRequirement (records : List ColumnRecord) (requirement : AlignmentWidthRequirement) :
    List ColumnRecord :=
  (ensureColumns records (requirement.firstColumn + requirement.columnSpan)).modify
    requirement.firstColumn fun record =>
      mergeWidth record requirement.columnSpan requirement.width

/-- The tabskip behind a column; it is forced to zero behind an empty one. -/
def tabskipBehind (tabskipWidths : List Int) (index : Nat) (record : ColumnRecord) :
    Except AlignmentPlanError Int :=
  if record.width.isNone then .ok 0
  else
    match tabskipWidths[index + 1]? with
    | some tabskip => .ok tabskip
    | none => .error (.missingTabskipBoundary (index + 1))

def passSpan (reduction : Int) (next : ColumnRecord) (entry : Nat × Int) :
    Except AlignmentPlanError ColumnRecord := do
  let reduced ← planScaled (entry.2 - reduction)
  .ok (mergeWidth next (entry.1 - 1) reduced)

def passSpans (tabskipWidths : List Int) (index : Nat) (record : ColumnRecord)
    (rest : List ColumnRecord) : Except AlignmentPlanError (List ColumnRecord) :=
  if record.spans.isEmpty then .ok rest
  else do
    let tabskip ← tabskipBehind tabskipWidths index record
    let reduction ← planScaled (record.width.getD 0 + tabskip)
    let next ← record.spans.foldlM (passSpan reduction) (rest.headD .default)
    .ok (next :: rest.tail)

/-- The columns from `index` on. -/
def planFrom (tabskipWidths : List Int) : Nat → Nat → List ColumnRecord →
    Except AlignmentPlanError AlignmentWidthPlan
  | _, _, [] => .ok ⟨[], []⟩
  | 0, _, _ :: _ => .error .unfinished
  | fuel + 1, index, record :: rest => do
    let rest ← passSpans tabskipWidths index record rest
    let later ← planFrom tabskipWidths fuel (index + 1) rest
    .ok
      { columns := record.width.getD 0 :: later.columns
        zeroTabskipBoundaries :=
          (if record.width.isNone then [index + 1] else []) ++ later.zeroTabskipBoundaries }

def planAlignmentWidths (declaredColumns : Nat) (tabskipWidths : List Int)
    (requirements : List AlignmentWidthRequirement) :
    Except AlignmentPlanError AlignmentWidthPlan :=
  let records := requirements.foldl placeRequirement (List.replicate declaredColumns .default)
  planFrom tabskipWidths records.length 0 records

/-! ## Laws -/

open ExceptLib

/-! ## Records -/

/-- What waits at a column: a cell with `distance` columns still behind this one
needs `width`. -/
abbrev Waiting := Nat → Int → Prop

structure RecordHolds (waiting : Waiting) (record : ColumnRecord) : Prop where
  fits : ∀ width, waiting 0 width → ∃ kept, record.width = some kept ∧ width ≤ kept
  tight : ∀ kept, record.width = some kept → waiting 0 kept
  spanned : ∀ entry ∈ record.spans, 2 ≤ entry.1 ∧ waiting (entry.1 - 1) entry.2
  covers : ∀ distance width, waiting (distance + 1) width →
    ∃ kept, (distance + 2, kept) ∈ record.spans ∧ width ≤ kept

theorem recordHolds_default : RecordHolds (fun _ _ => False) .default where
  fits := fun _ impossible => impossible.elim
  tight := nofun
  spanned := nofun
  covers := fun _ _ impossible => impossible.elim

variable {waiting : Waiting} {record : ColumnRecord}

/-- Cells that a wider one of the same distance covers do not change a record. -/
theorem RecordHolds.widen {more : Waiting} (holds : RecordHolds waiting record)
    (within : ∀ distance width, waiting distance width → more distance width)
    (covered : ∀ distance width, more distance width →
      ∃ kept, waiting distance kept ∧ width ≤ kept) :
    RecordHolds more record where
  fits := by
    intro width cell
    obtain ⟨wider, older, bound⟩ := covered 0 width cell
    obtain ⟨kept, present, above⟩ := holds.fits wider older
    exact ⟨kept, present, Int.le_trans bound above⟩
  tight := fun kept present => within 0 kept (holds.tight kept present)
  spanned := fun entry member =>
    ⟨(holds.spanned entry member).1, within _ _ (holds.spanned entry member).2⟩
  covers := by
    intro distance width cell
    obtain ⟨wider, older, bound⟩ := covered (distance + 1) width cell
    obtain ⟨kept, present, above⟩ := holds.covers distance wider older
    exact ⟨kept, present, Int.le_trans bound above⟩

variable {span : Nat}

theorem mem_mergeSpan {width : Int} {entries : List (Nat × Int)} {entry : Nat × Int}
    (member : entry ∈ mergeSpan span width entries) : entry ∈ entries ∨ entry = (span, width) := by
  induction entries with
  | nil => exact .inr (List.mem_singleton.mp member)
  | cons first rest ih => ?_
  simp only [mergeSpan] at member
  split at member
  next =>
    rcases List.mem_cons.mp member with rfl | older
    · exact .inr rfl
    · exact .inl older
  split at member
  next same =>
    rcases List.mem_cons.mp member with rfl | older
    · rcases Int.le_total first.2 width with below | above
      · exact .inr (by rw [Int.max_eq_right below])
      · exact .inl (by rw [Int.max_eq_left above, same]; exact List.mem_cons_self)
    · exact .inl (List.mem_cons_of_mem _ older)
  rcases List.mem_cons.mp member with rfl | older
  · exact .inl List.mem_cons_self
  rcases ih older with kept | new
  · exact .inl (List.mem_cons_of_mem _ kept)
  · exact .inr new

/-- Every entry is still covered, and so is the new one. -/
theorem mergeSpan_covers {span : Nat} {width : Int} {entries : List (Nat × Int)}
    {entry : Nat × Int} (member : entry ∈ entries ∨ entry = (span, width)) :
    ∃ kept, (entry.1, kept) ∈ mergeSpan span width entries ∧ entry.2 ≤ kept := by
  induction entries with
  | nil =>
    rcases member with older | rfl
    · cases older
    · exact ⟨width, List.mem_singleton.mpr rfl, Int.le_refl _⟩
  | cons first rest ih => ?_
  simp only [mergeSpan]
  split
  next =>
    rcases member with older | rfl
    · exact ⟨entry.2, List.mem_cons_of_mem _ older, Int.le_refl _⟩
    · exact ⟨width, List.mem_cons_self, Int.le_refl _⟩
  split
  next same =>
    rcases member with older | rfl
    · rcases List.mem_cons.mp older with rfl | later
      · exact ⟨max entry.2 width, by rw [same]; exact List.mem_cons_self,
          Int.le_max_left _ _⟩
      · exact ⟨entry.2, List.mem_cons_of_mem _ later, Int.le_refl _⟩
    · exact ⟨max first.2 width, List.mem_cons_self, Int.le_max_right _ _⟩
  rcases member with older | new
  · rcases List.mem_cons.mp older with rfl | later
    · exact ⟨entry.2, List.mem_cons_self, Int.le_refl _⟩
    obtain ⟨kept, present, above⟩ := ih (.inl later)
    exact ⟨kept, List.mem_cons_of_mem _ present, above⟩
  obtain ⟨kept, present, above⟩ := ih (.inr new)
  exact ⟨kept, List.mem_cons_of_mem _ present, above⟩

/-- A further cell waits, its span counted from this column. -/
theorem RecordHolds.merge (holds : RecordHolds waiting record) (width : Int) (positive : 1 ≤ span) :
    RecordHolds (fun distance needed => waiting distance needed ∨
      (distance + 1 = span ∧ needed = width)) (mergeWidth record span width) := by
  unfold mergeWidth
  by_cases single : span ≤ 1
  · have one : span = 1 := by omega
    subst one
    rw [if_pos single]
    have spanned : ∀ entry ∈ record.spans, 2 ≤ entry.1 ∧
        (waiting (entry.1 - 1) entry.2 ∨ (entry.1 - 1 + 1 = 1 ∧ entry.2 = width)) :=
      fun entry member => ⟨(holds.spanned entry member).1, .inl (holds.spanned entry member).2⟩
    have covers : ∀ distance needed,
        (waiting (distance + 1) needed ∨ (distance + 1 + 1 = 1 ∧ needed = width)) →
        ∃ kept, (distance + 2, kept) ∈ record.spans ∧ needed ≤ kept := by
      intro distance needed cell
      rcases cell with older | ⟨impossible, _⟩
      · exact holds.covers distance needed older
      · omega
    cases present : record.width with
    | none =>
      simp only [Option.all_none, if_true]
      refine ⟨?_, ?_, spanned, covers⟩
      · rintro needed (older | ⟨_, rfl⟩)
        · obtain ⟨kept, found, _⟩ := holds.fits needed older
          rw [present] at found
          cases found
        · exact ⟨needed, rfl, Int.le_refl _⟩
      intro kept found
      cases found
      exact .inr ⟨rfl, rfl⟩
    | some old => ?_
    by_cases wider : old < width
    · rw [if_pos (by simpa using wider)]
      refine ⟨?_, ?_, spanned, covers⟩
      · rintro needed (older | ⟨_, rfl⟩)
        · obtain ⟨kept, found, above⟩ := holds.fits needed older
          rw [present] at found
          cases found
          exact ⟨width, rfl, Int.le_trans above (Int.le_of_lt wider)⟩
        · exact ⟨needed, rfl, Int.le_refl _⟩
      intro kept found
      cases found
      exact .inr ⟨rfl, rfl⟩
    rw [if_neg (by simpa using wider)]
    refine ⟨?_, fun kept found => .inl (holds.tight kept found), spanned, covers⟩
    rintro needed (older | ⟨_, rfl⟩)
    · exact holds.fits needed older
    · exact ⟨old, present, Int.not_lt.mp wider⟩
  rw [if_neg single]
  refine ⟨?_, fun kept found => .inl (holds.tight kept found), ?_, ?_⟩
  · rintro needed (older | ⟨impossible, _⟩)
    · exact holds.fits needed older
    · omega
  · intro entry member
    rcases mem_mergeSpan member with older | rfl
    · exact ⟨(holds.spanned entry older).1, .inl (holds.spanned entry older).2⟩
    · exact ⟨by omega, .inr ⟨by simp only; omega, rfl⟩⟩
  rintro distance needed (older | ⟨same, rfl⟩)
  · obtain ⟨kept, found, above⟩ := holds.covers distance needed older
    obtain ⟨later, present, higher⟩ := mergeSpan_covers (.inl found)
    exact ⟨later, present, Int.le_trans above higher⟩
  obtain ⟨later, present, higher⟩ :=
    @mergeSpan_covers span needed record.spans (span, needed) (.inr rfl)
  exact ⟨later, by simpa [← same] using present, higher⟩

/-! ## The columns still to plan -/

/-- What waits at every column, by the number of the column. -/
abbrev Pending := Nat → Waiting

structure RecordsHold (pending : Pending) (index : Nat) (records : List ColumnRecord) : Prop where
  each : ∀ offset record, records[offset]? = some record →
    RecordHolds (pending (index + offset)) record
  room : ∀ column distance width, index ≤ column → pending column distance width →
    column + distance < index + records.length

theorem recordsHold_replicate (columns : Nat) :
    RecordsHold (fun _ _ _ => False) 0 (List.replicate columns .default) where
  each := by
    intro offset record found
    obtain ⟨_, rfl⟩ := List.mem_replicate.mp (List.mem_of_getElem? found)
    exact recordHolds_default
  room := fun _ _ _ _ impossible => impossible.elim

variable {pending : Pending} {index : Nat} {records : List ColumnRecord}

/-- Nothing waits at a column behind the last one. -/
theorem RecordsHold.beyond (hold : RecordsHold pending index records) {offset : Nat}
    (behind : records.length ≤ offset) (distance : Nat) (width : Int) :
    ¬ pending (index + offset) distance width := by
  intro cell
  have inside := hold.room _ _ _ (Nat.le_add_right index offset) cell
  omega

theorem length_ensureColumns (records : List ColumnRecord) (columns : Nat) :
    (ensureColumns records columns).length = max records.length columns := by
  simp only [ensureColumns, List.length_append, List.length_replicate]
  omega

theorem RecordsHold.ensure (hold : RecordsHold pending index records) (columns : Nat) :
    RecordsHold pending index (ensureColumns records columns) where
  each := by
    intro offset record found
    by_cases inside : offset < records.length
    · rw [ensureColumns, List.getElem?_append_left inside] at found
      exact hold.each offset record found
    have behind : records.length ≤ offset := Nat.not_lt.mp inside
    rw [ensureColumns, List.getElem?_append_right behind] at found
    obtain ⟨_, rfl⟩ := List.mem_replicate.mp (List.mem_of_getElem? found)
    exact recordHolds_default.widen (fun _ _ impossible => impossible.elim)
      fun distance width cell => (hold.beyond behind distance width cell).elim
  room := by
    intro column distance width above cell
    have inside := hold.room column distance width above cell
    rw [length_ensureColumns]
    omega

def Pending.with (pending : Pending) (requirement : AlignmentWidthRequirement) : Pending :=
  fun column distance width => pending column distance width ∨
    (column = requirement.firstColumn ∧ distance + 1 = requirement.columnSpan ∧
      width = requirement.width)

theorem columnSpan_pos (requirement : AlignmentWidthRequirement) : 1 ≤ requirement.columnSpan :=
  Nat.le_max_right _ _

theorem length_placeRequirement (records : List ColumnRecord)
    (requirement : AlignmentWidthRequirement) : (placeRequirement records requirement).length =
      max records.length (requirement.firstColumn + requirement.columnSpan) := by
  rw [placeRequirement, List.length_modify, length_ensureColumns]

theorem RecordsHold.place (hold : RecordsHold pending 0 records)
    (requirement : AlignmentWidthRequirement) :
    RecordsHold (pending.with requirement) 0 (placeRequirement records requirement) where
  each := by
    intro offset record found
    have ensured := hold.ensure (requirement.firstColumn + requirement.columnSpan)
    rw [placeRequirement, List.getElem?_modify] at found
    obtain ⟨older, present, rfl⟩ := Option.map_eq_some_iff.mp found
    have holds := ensured.each offset older present
    by_cases here : requirement.firstColumn = offset
    · rw [if_pos here]
      refine (holds.merge requirement.width (columnSpan_pos requirement)).widen ?_ ?_
      · rintro distance width (cell | ⟨same, rfl⟩)
        · exact .inl cell
        · exact .inr ⟨by omega, same, rfl⟩
      rintro distance width (cell | ⟨_, same, rfl⟩)
      · exact ⟨width, .inl cell, Int.le_refl _⟩
      · exact ⟨requirement.width, .inr ⟨same, rfl⟩, Int.le_refl _⟩
    rw [if_neg here]
    refine holds.widen (fun distance width cell => .inl cell) ?_
    rintro distance width (cell | ⟨same, _, _⟩)
    · exact ⟨width, cell, Int.le_refl _⟩
    · omega
  room := by
    rintro column distance width above (cell | ⟨rfl, same, _⟩)
    · have inside := hold.room column distance width above cell
      rw [length_placeRequirement]
      omega
    rw [length_placeRequirement]
    omega

def Cells (requirements : List AlignmentWidthRequirement) : Pending :=
  fun column distance width => ∃ requirement ∈ requirements, column = requirement.firstColumn ∧
    distance + 1 = requirement.columnSpan ∧ width = requirement.width

theorem RecordsHold.congr {pending other : Pending} {index : Nat} {records : List ColumnRecord}
    (hold : RecordsHold pending index records) (same : ∀ column distance width, index ≤ column →
      (pending column distance width ↔ other column distance width)) :
    RecordsHold other index records where
  each := fun offset record found =>
    (hold.each offset record found).widen
      (fun distance width => (same _ distance width (Nat.le_add_right _ _)).mp)
      fun distance width cell =>
        ⟨width, (same _ distance width (Nat.le_add_right _ _)).mpr cell, Int.le_refl _⟩
  room := fun column distance width above cell =>
    hold.room column distance width above ((same column distance width above).mpr cell)

theorem RecordsHold.placeAll (hold : RecordsHold pending 0 records)
    (requirements : List AlignmentWidthRequirement) :
    RecordsHold (fun column distance width => pending column distance width ∨
      Cells requirements column distance width) 0
      (requirements.foldl placeRequirement records) := by
  induction requirements generalizing pending records with
  | nil =>
    refine hold.congr fun column distance width _ => ?_
    simp [Cells]
  | cons requirement requirements ih =>
    refine (ih (hold.place requirement)).congr fun column distance width _ => ?_
    simp only [Pending.with, Cells, List.mem_cons, exists_eq_or_imp, or_assoc]

/-! ## Passing the spans on -/

theorem planScaled_cases (value : Int) :
    planScaled value = .error .arithmeticOverflow ∨ planScaled value = .ok value := by
  unfold planScaled
  split
  next => exact .inr rfl
  next => exact .inl rfl

theorem passAll_holds (reduction : Int) (entries : List (Nat × Int)) {next : ColumnRecord}
    (spanned : ∀ entry ∈ entries, 2 ≤ entry.1) (holds : RecordHolds waiting next) :
    entries.foldlM (passSpan reduction) next = .error .arithmeticOverflow ∨
      ∃ passed, entries.foldlM (passSpan reduction) next = .ok passed ∧
        RecordHolds (fun distance needed => waiting distance needed ∨
          ∃ entry ∈ entries, distance + 2 = entry.1 ∧ needed = entry.2 - reduction) passed := by
  induction entries generalizing waiting next with
  | nil =>
    refine .inr ⟨next, rfl, holds.widen (fun _ _ => .inl) ?_⟩
    rintro distance needed (cell | ⟨entry, impossible, _⟩)
    · exact ⟨needed, cell, Int.le_refl _⟩
    · cases impossible
  | cons entry entries ih => ?_
  rw [List.foldlM_cons]
  have wide := spanned entry List.mem_cons_self
  rcases planScaled_cases (entry.2 - reduction) with overflow | fine
  · refine .inl ?_
    simp only [passSpan, overflow, error_bind]
  have merged := holds.merge (entry.2 - reduction) (show 1 ≤ entry.1 - 1 by omega)
  have step : passSpan reduction next entry =
      .ok (mergeWidth next (entry.1 - 1) (entry.2 - reduction)) := by
    simp only [passSpan, fine, ok_bind]
  rw [step, ok_bind]
  rcases ih (fun later member => spanned later (List.mem_cons_of_mem _ member)) merged with
    overflow | ⟨passed, done, kept⟩
  · exact .inl overflow
  refine .inr ⟨passed, done, kept.widen ?_ ?_⟩
  · rintro distance needed ((cell | ⟨same, rfl⟩) | ⟨later, member, same, rfl⟩)
    · exact .inl cell
    · exact .inr ⟨entry, List.mem_cons_self, by omega, rfl⟩
    · exact .inr ⟨later, List.mem_cons_of_mem _ member, same, rfl⟩
  rintro distance needed (cell | ⟨later, member, same, rfl⟩)
  · exact ⟨needed, .inl (.inl cell), Int.le_refl _⟩
  rcases List.mem_cons.mp member with rfl | behind
  · exact ⟨_, .inl (.inr ⟨by omega, rfl⟩), Int.le_refl _⟩
  · exact ⟨_, .inr ⟨later, behind, same, rfl⟩, Int.le_refl _⟩

/-- A cell that spans further waits behind the column with what the column leaves it. -/
def Pending.pass (pending : Pending) (index : Nat) (reduction : Int) : Pending :=
  fun column distance width => pending column distance width ∨
    (column = index + 1 ∧ ∃ needed, pending index (distance + 1) needed ∧
      width = needed - reduction)

def forcedTabskip (tabskipWidths : List Int) (index : Nat) (record : ColumnRecord) : Int :=
  if record.width.isNone then 0 else tabskipWidths.getD (index + 1) 0

variable {tabskipWidths : List Int}

theorem tabskipBehind_eq (covered : index + 1 < tabskipWidths.length) (record : ColumnRecord) :
    tabskipBehind tabskipWidths index record = .ok (forcedTabskip tabskipWidths index record) := by
  unfold tabskipBehind forcedTabskip
  split
  next => rfl
  rw [List.getD_eq_getElem?_getD, List.getElem?_eq_getElem covered]
  rfl

variable {rest : List ColumnRecord}

theorem RecordsHold.tail (hold : RecordsHold pending index (record :: rest)) :
    RecordsHold pending (index + 1) rest where
  each := by
    intro offset later found
    have holds := hold.each (offset + 1) later (by rw [List.getElem?_cons_succ]; exact found)
    rwa [Nat.add_comm offset 1, ← Nat.add_assoc] at holds
  room := by
    intro column distance width above cell
    have inside := hold.room column distance width (Nat.le_of_succ_le above) cell
    rw [List.length_cons] at inside
    omega

theorem passSpans_holds (hold : RecordsHold pending index (record :: rest))
    (covered : index + rest.length < tabskipWidths.length) :
    passSpans tabskipWidths index record rest = .error .arithmeticOverflow ∨
      ∃ passed, passSpans tabskipWidths index record rest = .ok passed ∧
        passed.length = rest.length ∧ RecordsHold (pending.pass index
          (record.width.getD 0 + forcedTabskip tabskipWidths index record)) (index + 1) passed := by
  have holds : RecordHolds (pending index) record := hold.each 0 record rfl
  unfold passSpans
  by_cases none : record.spans = []
  · rw [if_pos (by rw [none]; rfl)]
    refine .inr ⟨rest, rfl, rfl, hold.tail.congr fun column distance width above => ?_⟩
    constructor
    · exact .inl
    rintro (cell | ⟨rfl, needed, waits, _⟩)
    · exact cell
    obtain ⟨kept, present, _⟩ := holds.covers distance needed waits
    rw [none] at present
    cases present
  obtain ⟨entry, others, spans⟩ := List.exists_cons_of_ne_nil none
  have spanned := holds.spanned entry (by rw [spans]; exact List.mem_cons_self)
  have inside := hold.room index _ _ (Nat.le_refl _) spanned.2
  rw [List.length_cons] at inside
  cases rest with
  | nil =>
    rw [List.length_nil] at inside
    omega
  | cons next rest => ?_
  rw [List.length_cons] at covered
  rw [if_neg (by rw [spans]; exact nofun), tabskipBehind_eq (by omega), ok_bind]
  rcases planScaled_cases
    (record.width.getD 0 + forcedTabskip tabskipWidths index record) with overflow | fine
  · refine .inl ?_
    simp only [overflow, error_bind]
  rw [fine, ok_bind, List.headD_cons, List.tail_cons]
  rcases passAll_holds (record.width.getD 0 + forcedTabskip tabskipWidths index record)
    record.spans (fun later member => (holds.spanned later member).1)
    (hold.tail.each 0 next rfl) with overflow | ⟨passed, done, kept⟩
  · refine .inl ?_
    simp only [overflow, error_bind]
  refine .inr ⟨passed :: rest, by rw [done, ok_bind], rfl, ?_, ?_⟩
  · intro offset later found
    cases offset with
    | zero =>
      cases found
      refine kept.widen ?_ ?_
      · rintro distance needed (cell | ⟨wide, member, same, rfl⟩)
        · exact .inl cell
        refine .inr ⟨rfl, wide.2, ?_, rfl⟩
        have waits := (holds.spanned wide member).2
        rwa [← same] at waits
      rintro distance needed (cell | ⟨_, wider, waits, rfl⟩)
      · exact ⟨needed, .inl cell, Int.le_refl _⟩
      obtain ⟨top, present, above⟩ := holds.covers distance wider waits
      exact ⟨_, .inr ⟨_, present, rfl, rfl⟩, Int.sub_le_sub_right above _⟩
    | succ offset => ?_
    refine (hold.tail.each (offset + 1) later found).widen (fun _ _ => .inl) ?_
    rintro distance needed (cell | ⟨same, _⟩)
    · exact ⟨needed, cell, Int.le_refl _⟩
    · omega
  rintro column distance width above (cell | ⟨rfl, needed, waits, _⟩)
  · exact hold.tail.room column distance width above cell
  have bound := hold.room index _ _ (Nat.le_refl _) waits
  simp only [List.length_cons] at bound ⊢
  omega

/-! ## The planned columns -/

/-- The columns from `first` on with the tabskips behind them, `distance` of them. -/
def stretch (advance : Nat → Int) (first : Nat) : Nat → Int
  | 0 => 0
  | distance + 1 => advance first + stretch advance (first + 1) distance

def Left (pending : Pending) (advance : Nat → Int) (index column : Nat) : Set Int :=
  { left | ∃ first distance width, index ≤ first ∧ pending first distance width ∧
      first + distance = column ∧ left = width - stretch advance first distance }

def advanceOf (tabskipWidths : List Int) (zeros : List Nat) (widths : Nat → Int)
    (column : Nat) : Int :=
  widths column + if column + 1 ∈ zeros then 0 else tabskipWidths.getD (column + 1) 0

structure Planned (tabskipWidths : List Int) (pending : Pending) (index : Nat) (count : Nat)
    (plan : AlignmentWidthPlan) : Prop where
  length : plan.columns.length = count
  ascending : plan.zeroTabskipBoundaries.Pairwise (· < ·)
  within : ∀ boundary ∈ plan.zeroTabskipBoundaries, index < boundary ∧ boundary ≤ index + count
  column : ∀ (widths advance : Nat → Int),
    (∀ offset, offset < count → plan.columns[offset]? = some (widths (index + offset))) →
    (∀ column, index ≤ column →
      advance column = advanceOf tabskipWidths plan.zeroTabskipBoundaries widths column) →
    ∀ column, index ≤ column → column < index + count →
      (column + 1 ∉ plan.zeroTabskipBoundaries ∧
        IsGreatest (Left pending advance index column) (widths column)) ∨
      (column + 1 ∈ plan.zeroTabskipBoundaries ∧ widths column = 0 ∧
        Left pending advance index column = ∅)

/-- Passing the cells of a column on does not change what they leave for the later ones. -/
theorem left_pass (pending : Pending) {advance : Nat → Int} {column : Nat}
    (above : index + 1 ≤ column) :
    Left (pending.pass index (advance index)) advance (index + 1) column =
      Left pending advance index column := by
  ext left
  constructor
  · rintro ⟨first, distance, width, behind, cell | ⟨rfl, needed, cell, rfl⟩, ends, rfl⟩
    · exact ⟨first, distance, width, Nat.le_of_succ_le behind, cell, ends, rfl⟩
    refine ⟨index, distance + 1, needed, Nat.le_refl _, cell, by omega, ?_⟩
    rw [stretch]
    omega
  rintro ⟨first, distance, width, behind, cell, ends, rfl⟩
  by_cases here : first = index
  · subst here
    cases distance with
    | zero => omega
    | succ distance => ?_
    refine ⟨first + 1, distance, width - advance first, Nat.le_refl _,
      .inr ⟨rfl, width, cell, rfl⟩, by omega, ?_⟩
    rw [stretch]
    omega
  · exact ⟨first, distance, width, by omega, .inl cell, ends, rfl⟩

theorem left_here (pending : Pending) (advance : Nat → Int) (index : Nat) :
    Left pending advance index index = { width | pending index 0 width } := by
  ext left
  constructor
  · rintro ⟨first, distance, width, behind, cell, ends, rfl⟩
    have here : first = index := by omega
    have single : distance = 0 := by omega
    subst here single
    rw [stretch, Int.sub_zero]
    exact cell
  intro cell
  exact ⟨index, 0, left, Nat.le_refl _, cell, rfl, by rw [stretch, Int.sub_zero]⟩

theorem planned_nil (tabskipWidths : List Int) (pending : Pending) (index : Nat) :
    Planned tabskipWidths pending index 0 ⟨[], []⟩ where
  length := rfl
  ascending := .nil
  within := nofun
  column := by
    intro _ _ _ _ column above below
    omega

variable {plan : AlignmentWidthPlan}

theorem planned_cons {count : Nat} (hold : RecordsHold pending index (record :: rest))
    (same : count = rest.length) (planned : Planned tabskipWidths (pending.pass index
      (record.width.getD 0 + forcedTabskip tabskipWidths index record)) (index + 1) count plan) :
    Planned tabskipWidths pending index (record :: rest).length
      { columns := record.width.getD 0 :: plan.columns
        zeroTabskipBoundaries :=
          (if record.width.isNone then [index + 1] else []) ++ plan.zeroTabskipBoundaries } := by
  have holds : RecordHolds (pending index) record := hold.each 0 record rfl
  have later : ∀ boundary ∈ plan.zeroTabskipBoundaries, index + 1 < boundary :=
    fun boundary member => (planned.within boundary member).1
  have first : ∀ boundary, boundary ∈ (if record.width.isNone then [index + 1] else []) ↔
      boundary = index + 1 ∧ record.width = none := by
    intro boundary
    cases record.width with
    | none => simp
    | some width => simp
  have behind : ∀ column, index < column →
      (column + 1 ∈ (if record.width.isNone then [index + 1] else []) ++
        plan.zeroTabskipBoundaries ↔ column + 1 ∈ plan.zeroTabskipBoundaries) := by
    intro column above
    rw [List.mem_append, first]
    constructor
    · rintro (⟨impossible, _⟩ | member)
      · omega
      · exact member
    · exact .inr
  have here : index + 1 ∈ (if record.width.isNone then [index + 1] else []) ++
      plan.zeroTabskipBoundaries ↔ record.width = none := by
    rw [List.mem_append, first]
    constructor
    · rintro (⟨_, none⟩ | member)
      · exact none
      · exact absurd (later _ member) (Nat.lt_irrefl _)
    · exact fun none => .inl ⟨rfl, none⟩
  refine ⟨?_, ?_, ?_, ?_⟩
  · rw [List.length_cons, List.length_cons, planned.length, same]
  · refine List.pairwise_append.mpr ⟨?_, planned.ascending, ?_⟩
    · split
      · exact List.pairwise_singleton _ _
      · exact .nil
    intro boundary member other present
    rw [((first boundary).mp member).1]
    exact later other present
  · intro boundary member
    rw [List.length_cons, ← same]
    rcases List.mem_append.mp member with new | older
    · have := ((first boundary).mp new).1
      omega
    have := planned.within boundary older
    omega
  intro widths advance columns advances column above below
  rw [List.length_cons, ← same] at below
  have headWidth : record.width.getD 0 = widths index := by
    have head := columns 0 (Nat.succ_pos _)
    exact Option.some.inj head
  have reduction : record.width.getD 0 + forcedTabskip tabskipWidths index record =
      advance index := by
    rw [advances index (Nat.le_refl _), advanceOf, headWidth, forcedTabskip]
    exact congrArg _ (if_congr (Option.isNone_iff_eq_none.trans here.symm) rfl rfl)
  rw [reduction] at planned
  by_cases current : column = index
  · subst current
    rw [left_here, here, ← headWidth]
    cases width : record.width with
    | none =>
      refine .inr ⟨rfl, rfl, Set.eq_empty_iff_forall_notMem.mpr fun needed cell => ?_⟩
      obtain ⟨kept, present, _⟩ := holds.fits needed cell
      rw [width] at present
      cases present
    | some kept => ?_
    refine .inl ⟨fun impossible => (nomatch impossible), holds.tight kept width, ?_⟩
    intro needed cell
    obtain ⟨top, present, bound⟩ := holds.fits needed cell
    rw [width] at present
    cases present
    exact bound
  have past : index + 1 ≤ column := by omega
  have settled := planned.column widths advance ?tailColumns ?tailAdvance column past (by omega)
  · rw [left_pass pending past] at settled
    rw [behind column past]
    exact settled
  case tailColumns =>
    intro offset inside
    have found := columns (offset + 1) (by rw [List.length_cons, ← same]; omega)
    rw [List.getElem?_cons_succ] at found
    rw [found]
    congr 2
    omega
  case tailAdvance =>
    intro column past
    rw [advances column (by omega), advanceOf, advanceOf]
    congr 1
    exact if_congr (behind column past) rfl rfl

theorem planFrom_planned (tabskipWidths : List Int) (fuel index : Nat) (records : List ColumnRecord)
    (hold : RecordsHold pending index records) (enough : records.length ≤ fuel)
    (covered : index + records.length ≤ tabskipWidths.length) :
    planFrom tabskipWidths fuel index records = .error .arithmeticOverflow ∨
      ∃ plan, planFrom tabskipWidths fuel index records = .ok plan ∧
        Planned tabskipWidths pending index records.length plan := by
  induction fuel generalizing index records pending with
  | zero =>
    cases records with
    | nil =>
      exact .inr ⟨_, rfl, planned_nil tabskipWidths pending index⟩
    | cons record rest => exact absurd enough (Nat.not_succ_le_zero _)
  | succ fuel ih => ?_
  cases records with
  | nil =>
    exact .inr ⟨_, rfl, planned_nil tabskipWidths pending index⟩
  | cons record rest => ?_
  rw [List.length_cons] at enough covered
  have holds : RecordHolds (pending index) record := hold.each 0 record rfl
  rw [planFrom]
  have inside : index + rest.length < tabskipWidths.length := by omega
  rcases passSpans_holds hold inside with overflow | ⟨passed, done, same, later⟩
  · exact .inl (by rw [overflow, error_bind])
  rw [done, ok_bind]
  rcases ih (index + 1) passed later (by omega) (by omega) with
    overflow | ⟨plan, planned, spec⟩
  · exact .inl (by rw [overflow, error_bind])
  refine .inr ⟨_, by rw [planned, ok_bind], ?_⟩
  exact planned_cons hold same spec

/-! ## The order of the requirements -/

theorem mergeSpan_comm (span : Nat) (width : Int) (other : Nat) (wide : Int)
    (entries : List (Nat × Int)) : mergeSpan span width (mergeSpan other wide entries) =
      mergeSpan other wide (mergeSpan span width entries) := by
  induction entries with
  | nil =>
    simp only [mergeSpan]
    grind
  | cons entry rest ih =>
    simp only [mergeSpan]
    grind [mergeSpan]

theorem mergeWidth_comm (record : ColumnRecord) (span : Nat) (width : Int) (other : Nat)
    (wide : Int) : mergeWidth (mergeWidth record span width) other wide =
      mergeWidth (mergeWidth record other wide) span width := by
  obtain ⟨current, entries⟩ := record
  have spans := mergeSpan_comm span width other wide entries
  unfold mergeWidth
  cases current with
  | none => grind
  | some old => grind

theorem getElem?_ensureColumns (records : List ColumnRecord) (columns offset : Nat) :
    (ensureColumns records columns)[offset]? =
      if offset < max records.length columns then some (records.getD offset .default)
      else none := by
  by_cases inside : offset < records.length
  · rw [ensureColumns, List.getElem?_append_left inside, if_pos (by omega),
      List.getD_eq_getElem?_getD, List.getElem?_eq_getElem inside, Option.getD_some]
  have behind : records.length ≤ offset := Nat.not_lt.mp inside
  rw [ensureColumns, List.getElem?_append_right behind, List.getElem?_replicate,
    List.getD_eq_getElem?_getD, List.getElem?_eq_none behind, Option.getD_none]
  exact if_congr (by omega) rfl rfl

def placed (requirement : AlignmentWidthRequirement) (column : Nat) (record : ColumnRecord) :
    ColumnRecord :=
  if requirement.firstColumn = column then
    mergeWidth record requirement.columnSpan requirement.width
  else record

theorem placed_comm (requirement other : AlignmentWidthRequirement) (column : Nat)
    (record : ColumnRecord) : placed requirement column (placed other column record) =
      placed other column (placed requirement column record) := by
  unfold placed
  split
  next =>
    split
    next => exact mergeWidth_comm _ _ _ _ _
    next => rfl
  next => rfl

theorem getElem?_placeRequirement (records : List ColumnRecord)
    (requirement : AlignmentWidthRequirement) (column : Nat) :
    (placeRequirement records requirement)[column]? =
      if column < max records.length (requirement.firstColumn + requirement.columnSpan) then
        some (placed requirement column (records.getD column .default)) else none := by
  rw [placeRequirement, List.getElem?_modify, getElem?_ensureColumns]
  unfold placed
  split
  next => split <;> rfl
  next => exact id_map _

theorem getD_placeRequirement (records : List ColumnRecord)
    (requirement : AlignmentWidthRequirement) (column : Nat) :
    (placeRequirement records requirement).getD column .default =
      placed requirement column (records.getD column .default) := by
  rw [List.getD_eq_getElem?_getD, getElem?_placeRequirement]
  by_cases inside :
    column < max records.length (requirement.firstColumn + requirement.columnSpan)
  · rw [if_pos inside, Option.getD_some]
  have span := columnSpan_pos requirement
  have elsewhere : requirement.firstColumn ≠ column := by omega
  have beyond : records.length ≤ column := by omega
  rw [if_neg inside, placed, if_neg elsewhere, List.getD_eq_getElem?_getD,
    List.getElem?_eq_none beyond]

theorem placeRequirement_comm (records : List ColumnRecord)
    (requirement other : AlignmentWidthRequirement) :
    placeRequirement (placeRequirement records requirement) other =
      placeRequirement (placeRequirement records other) requirement := by
  refine List.ext_getElem? fun column => ?_
  rw [getElem?_placeRequirement, getElem?_placeRequirement, getD_placeRequirement,
    getD_placeRequirement, length_placeRequirement, length_placeRequirement, placed_comm]
  exact if_congr (by omega) rfl rfl

variable {requirements : List AlignmentWidthRequirement}

theorem foldl_placeRequirement_perm {other : List AlignmentWidthRequirement}
    (perm : requirements.Perm other) (records : List ColumnRecord) :
    requirements.foldl placeRequirement records = other.foldl placeRequirement records :=
  perm.foldl_eq' (fun requirement _ another _ found =>
    placeRequirement_comm found requirement another) records

/-! ## The plan -/

def AlignmentWidthRequirement.lastColumn (requirement : AlignmentWidthRequirement) : Nat :=
  requirement.firstColumn + (requirement.columnSpan - 1)

def columnCount (declaredColumns : Nat) (requirements : List AlignmentWidthRequirement) : Nat :=
  requirements.foldl (fun count requirement => max count (requirement.lastColumn + 1))
    declaredColumns

def AlignmentWidthPlan.width (plan : AlignmentWidthPlan) (column : Nat) : Int :=
  plan.columns.getD column 0

def AlignmentWidthPlan.tabskip (plan : AlignmentWidthPlan) (tabskipWidths : List Int)
    (boundary : Nat) : Int :=
  if boundary ∈ plan.zeroTabskipBoundaries then 0 else tabskipWidths.getD boundary 0

def AlignmentWidthPlan.advance (plan : AlignmentWidthPlan) (tabskipWidths : List Int)
    (column : Nat) : Int :=
  plan.width column + plan.tabskip tabskipWidths (column + 1)

/-- The columns before the last one of a cell, with the tabskips behind them. -/
def AlignmentWidthPlan.before (plan : AlignmentWidthPlan) (tabskipWidths : List Int)
    (requirement : AlignmentWidthRequirement) : Int :=
  stretch (plan.advance tabskipWidths) requirement.firstColumn (requirement.columnSpan - 1)

structure MinimalWidths (declaredColumns : Nat) (tabskipWidths : List Int)
    (requirements : List AlignmentWidthRequirement) (plan : AlignmentWidthPlan) : Prop where
  length : plan.columns.length = columnCount declaredColumns requirements
  widest : ∀ column, (∃ requirement ∈ requirements, requirement.lastColumn = column) →
    IsGreatest { left | ∃ requirement ∈ requirements, requirement.lastColumn = column ∧
      left = requirement.width - plan.before tabskipWidths requirement } (plan.width column)
  empty : ∀ column, (∀ requirement ∈ requirements, requirement.lastColumn ≠ column) →
    plan.width column = 0
  ascending : plan.zeroTabskipBoundaries.Pairwise (· < ·)
  boundaries : ∀ boundary, boundary ∈ plan.zeroTabskipBoundaries ↔
    ∃ column < columnCount declaredColumns requirements, boundary = column + 1 ∧
      ∀ requirement ∈ requirements, requirement.lastColumn ≠ column
  fits : ∀ requirement ∈ requirements, requirement.width ≤
    plan.before tabskipWidths requirement + plan.width requirement.lastColumn
  tight : ∀ column, (∃ requirement ∈ requirements, requirement.lastColumn = column) →
    ∃ requirement ∈ requirements, requirement.lastColumn = column ∧
      requirement.width = plan.before tabskipWidths requirement + plan.width column

theorem length_foldl_placeRequirement (requirements : List AlignmentWidthRequirement)
    (records : List ColumnRecord) : (requirements.foldl placeRequirement records).length =
      columnCount records.length requirements := by
  induction requirements generalizing records with
  | nil => rfl
  | cons requirement requirements ih => ?_
  rw [List.foldl_cons, ih, length_placeRequirement]
  unfold columnCount
  rw [List.foldl_cons]
  congr 1
  have := columnSpan_pos requirement
  unfold AlignmentWidthRequirement.lastColumn
  omega

theorem lastColumn_lt_columnCount {requirement : AlignmentWidthRequirement}
    (member : requirement ∈ requirements) (declaredColumns : Nat) :
    requirement.lastColumn < columnCount declaredColumns requirements := by
  have hold := (recordsHold_replicate declaredColumns).placeAll requirements
  have inside := hold.room requirement.firstColumn (requirement.columnSpan - 1) requirement.width
    (Nat.zero_le _) (.inr ⟨requirement, member, rfl,
      Nat.sub_add_cancel (columnSpan_pos requirement), rfl⟩)
  rw [length_foldl_placeRequirement, List.length_replicate, Nat.zero_add] at inside
  exact inside

/-- The cells that end in a column are the requirements with this last column. -/
theorem left_cells (requirements : List AlignmentWidthRequirement) (tabskipWidths : List Int)
    (plan : AlignmentWidthPlan) (column : Nat) :
    Left (fun column distance width => False ∨ Cells requirements column distance width)
        (plan.advance tabskipWidths) 0 column =
      { left | ∃ requirement ∈ requirements, requirement.lastColumn = column ∧
        left = requirement.width - plan.before tabskipWidths requirement } := by
  ext left
  constructor
  · rintro ⟨first, distance, width, _, impossible | ⟨requirement, member, rfl, span, rfl⟩, ends, rfl⟩
    · exact impossible.elim
    have same : distance = requirement.columnSpan - 1 := by omega
    subst same
    exact ⟨requirement, member, ends, rfl⟩
  rintro ⟨requirement, member, ends, rfl⟩
  exact ⟨requirement.firstColumn, requirement.columnSpan - 1, requirement.width,
    Nat.zero_le _, .inr ⟨requirement, member, rfl,
      Nat.sub_add_cancel (columnSpan_pos requirement), rfl⟩, ends, rfl⟩

theorem Planned.minimal {declaredColumns : Nat} (planned : Planned tabskipWidths
      (fun column distance width => False ∨ Cells requirements column distance width) 0
      (columnCount declaredColumns requirements) plan) :
    MinimalWidths declaredColumns tabskipWidths requirements plan := by
  have settled : ∀ column, column < columnCount declaredColumns requirements → _ :=
    fun column below => planned.column plan.width (plan.advance tabskipWidths)
      (fun offset inside => by
        rw [Nat.zero_add, AlignmentWidthPlan.width, List.getD_eq_getElem?_getD,
          List.getElem?_eq_getElem (by rw [planned.length]; exact inside), Option.getD_some])
      (fun _ _ => rfl) column (Nat.zero_le _) (by rw [Nat.zero_add]; exact below)
  simp only [left_cells] at settled
  have ended : ∀ column, (∃ requirement ∈ requirements, requirement.lastColumn = column) →
      column + 1 ∉ plan.zeroTabskipBoundaries ∧
        IsGreatest { left | ∃ requirement ∈ requirements, requirement.lastColumn = column ∧
          left = requirement.width - plan.before tabskipWidths requirement }
          (plan.width column) := by
    rintro column ⟨requirement, member, ends⟩
    rcases settled column (ends ▸ lastColumn_lt_columnCount member declaredColumns) with
      greatest | ⟨_, _, none⟩
    · exact greatest
    · exact (Set.eq_empty_iff_forall_notMem.mp none _ ⟨requirement, member, ends, rfl⟩).elim
  have unended : ∀ column, column < columnCount declaredColumns requirements →
      (∀ requirement ∈ requirements, requirement.lastColumn ≠ column) →
      column + 1 ∈ plan.zeroTabskipBoundaries ∧ plan.width column = 0 := by
    intro column below apart
    rcases settled column below with ⟨_, ⟨requirement, member, ends, _⟩, _⟩ | ⟨zero, width, _⟩
    · exact absurd ends (apart requirement member)
    · exact ⟨zero, width⟩
  refine ⟨planned.length, fun column ends => (ended column ends).2, ?_, planned.ascending,
    ?_, ?_, ?_⟩
  · intro column apart
    by_cases below : column < columnCount declaredColumns requirements
    · exact (unended column below apart).2
    rw [AlignmentWidthPlan.width, List.getD_eq_getElem?_getD,
      List.getElem?_eq_none (by rw [planned.length]; omega), Option.getD_none]
  · intro boundary
    constructor
    · intro member
      obtain ⟨above, below⟩ := planned.within boundary member
      have same : boundary = boundary - 1 + 1 := by omega
      refine ⟨boundary - 1, by omega, same, fun requirement present ends => ?_⟩
      exact (ended (boundary - 1) ⟨requirement, present, ends⟩).1 (same ▸ member)
    rintro ⟨column, below, rfl, apart⟩
    exact (unended column below apart).1
  · intro requirement member
    have bound := (ended _ ⟨requirement, member, rfl⟩).2.2 ⟨requirement, member, rfl, rfl⟩
    omega
  intro column ends
  obtain ⟨requirement, member, last, same⟩ := (ended column ends).2.1
  exact ⟨requirement, member, last, by omega⟩

/-- The planned columns are the narrowest that hold every cell, in whatever order the
requirements come. -/
theorem planAlignmentWidths_minimal (declaredColumns : Nat) (tabskipWidths : List Int)
    (requirements : List AlignmentWidthRequirement)
    (covered : columnCount declaredColumns requirements ≤ tabskipWidths.length) :
    (planAlignmentWidths declaredColumns tabskipWidths requirements = .error .arithmeticOverflow ∨
      ∃ plan, planAlignmentWidths declaredColumns tabskipWidths requirements = .ok plan ∧
        MinimalWidths declaredColumns tabskipWidths requirements plan) ∧
    ∀ other, requirements.Perm other → planAlignmentWidths declaredColumns tabskipWidths other =
        planAlignmentWidths declaredColumns tabskipWidths requirements := by
  refine ⟨?_, fun other perm => ?_⟩
  · have hold := (recordsHold_replicate declaredColumns).placeAll requirements
    have count := length_foldl_placeRequirement requirements
      (List.replicate declaredColumns .default)
    rw [List.length_replicate] at count
    have planned := planFrom_planned tabskipWidths _ 0 _ hold (Nat.le_refl _)
      (by rw [count, Nat.zero_add]; exact covered)
    rw [count] at planned
    simp only [planAlignmentWidths, count]
    rcases planned with overflow | ⟨plan, done, spec⟩
    · exact .inl overflow
    · exact .inr ⟨plan, done, spec.minimal⟩
  unfold planAlignmentWidths
  rw [foldl_placeRequirement_perm perm]

def spanningRequirements : List AlignmentWidthRequirement := [⟨0, 2, 90⟩, ⟨2, 1, -5⟩, ⟨0, 1, 30⟩]

theorem planAlignmentWidths_minimal_spanning : columnCount 4 spanningRequirements ≤ 5 ∧
    ∃ plan, planAlignmentWidths 4 [0, 7, 8, 9, 10] spanningRequirements = .ok plan ∧
      MinimalWidths 4 [0, 7, 8, 9, 10] spanningRequirements plan := by
  refine ⟨by decide, ?_⟩
  rcases (planAlignmentWidths_minimal 4 [0, 7, 8, 9, 10] spanningRequirements (by decide)).1 with
    overflow | planned
  · have fine : (planAlignmentWidths 4 [0, 7, 8, 9, 10] spanningRequirements).toOption ≠ none := by
      decide +kernel
    rw [overflow] at fine
    exact absurd rfl fine
  · exact planned

end Umber.Typeset
