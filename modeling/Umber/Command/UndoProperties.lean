import Umber.Command.JournalProperties
import Umber.Command.LogicalStack
import Umber.Lib.UndoLog

/-! Undo records as a log of displaced rows: a record stands for the whole row it brings
back, and exchanging records exchanges rows. -/

set_option autoImplicit false

namespace Umber.Command

open UndoLog

open UndoLog (put rewound Rewinds Redoes)

variable {α σ κ : Type}

def ElementUndo.index : ElementUndo σ → Nat
  | .inlineState index _ => index
  | .replacement index _ => index

def ElementUndo.payload? : ElementUndo σ → Option PayloadHandle
  | .inlineState _ _ => none
  | .replacement _ payload => some payload

def handlesOf (records : List (ElementUndo σ)) : List PayloadHandle :=
  records.filterMap ElementUndo.payload?

theorem handlesOf_append (first second : List (ElementUndo σ)) :
    handlesOf (first ++ second) = handlesOf first ++ handlesOf second :=
  List.filterMap_append

def rowsAt (rows : List α) : Nat → Option α :=
  fun index => rows[index]?

theorem rowsAt_set {rows : List α} {index : Nat} {old : α} (found : rows[index]? = some old)
    (value : α) : rowsAt (rows.set index value) = put (rowsAt rows) index value := by
  have inside := (List.getElem?_eq_some_iff.mp found).1
  funext other
  unfold rowsAt put
  by_cases same : other = index
  · rw [if_pos same, same, List.getElem?_set_self inside]
  · rw [if_neg same, List.getElem?_set_ne (Ne.symm same)]

/-- The mutable state is all that callers change in place: a row with the same kept part
gets back what was captured. -/
def Covers [LogicalStackElement α σ] (keeps : α → κ) : Prop :=
  ∀ captured row : α, keeps captured = keeps row →
    swapState row (captureState captured) = (captured, captureState row)

section Stand

variable [LogicalStackElement α σ]

/-- A record that brings back a value of a row, where the row is another. -/
def Stands (keeps : α → κ) (displaced : SlotMap α) (row : α) (record : ElementUndo σ)
    (entry : Nat × α) : Prop :=
  match record with
  | .inlineState index state =>
    index = entry.1 ∧ state = captureState entry.2 ∧ keeps entry.2 = keeps row
  | .replacement index payload => index = entry.1 ∧ displaced.view payload = some entry.2

inductive Undoes (keeps : α → κ) (displaced : SlotMap α) (live : Nat → Option α) :
    List (ElementUndo σ) → List (Nat × α) → Prop
  | nil : Undoes keeps displaced live [] []
  | cons {record : ElementUndo σ} {later : List (ElementUndo σ)} {entry : Nat × α}
      {entries : List (Nat × α)} {row : α} :
      Undoes keeps displaced live later entries → rewound entries live entry.1 = some row →
        Stands keeps displaced row record entry →
        Undoes keeps displaced live (record :: later) (entry :: entries)

inductive Redone (keeps : α → κ) (displaced : SlotMap α) :
    (Nat → Option α) → List (ElementUndo σ) → List (Nat × α) → Prop
  | nil {live : Nat → Option α} : Redone keeps displaced live [] []
  | cons {live : Nat → Option α} {record : ElementUndo σ} {later : List (ElementUndo σ)}
      {entry : Nat × α} {entries : List (Nat × α)} {row : α} :
      live entry.1 = some row → Stands keeps displaced row record entry →
        Redone keeps displaced (put live entry.1 entry.2) later entries →
        Redone keeps displaced live (record :: later) (entry :: entries)

end Stand

section Stands

variable [LogicalStackElement α σ] {keeps : α → κ} {displaced other : SlotMap α} {row : α}
  {record : ElementUndo σ} {entry : Nat × α}

section

variable (stands : Stands keeps displaced row record entry)
include stands

theorem Stands.index : record.index = entry.1 := by
  cases record with
  | inlineState index state => exact stands.1
  | replacement index payload => exact stands.1

theorem Stands.frame
    (same : ∀ payload ∈ record.payload?, other.view payload = displaced.view payload) :
    Stands keeps other row record entry := by
  cases record with
  | inlineState index state => exact stands
  | replacement index payload => exact ⟨stands.1, (same payload rfl).trans stands.2⟩

/-- A record stands for its value whatever became of the mutable state of the row. -/
theorem Stands.mutate {mutated : α}
    (kept : keeps mutated = keeps row) : Stands keeps displaced mutated record entry := by
  cases record with
  | inlineState index state => exact ⟨stands.1, stands.2.1, stands.2.2.trans kept.symm⟩
  | replacement index payload => exact stands

end

/-- One exchange brings the value back and keeps the row it displaces. -/
theorem Stands.swap (covers : Covers keeps) (stands : Stands keeps displaced row record entry)
    {rows : List α} (found : rows[entry.1]? = some row) :
    ∃ swapped after, record.swap (rows, displaced) =
        some (swapped, rows.set entry.1 entry.2, after) ∧ swapped.payload? = record.payload? ∧
      Stands keeps after entry.2 swapped (entry.1, row) ∧
      (∀ payload, record.payload? ≠ some payload → after.view payload = displaced.view payload) ∧
      (∀ names, displaced.Holds names → after.Holds names) := by
  cases record with
  | inlineState index state =>
    obtain ⟨rfl, rfl, kept⟩ := stands
    refine ⟨.inlineState entry.1 (captureState row), displaced, ?_, rfl, ⟨rfl, rfl, kept.symm⟩,
      fun _ _ => rfl, fun _ holds => holds⟩
    unfold ElementUndo.swap
    dsimp only
    rw [found]
    dsimp only
    rw [covers _ _ kept]
  | replacement index payload => ?_
  obtain ⟨rfl, stored⟩ := stands
  have live : (displaced.view payload).isSome = true := by
    rw [stored]
    rfl
  refine ⟨.replacement entry.1 payload, displaced.update payload row, ?_, rfl, ⟨rfl, ?_⟩, ?_,
    fun _ holds => holds.update live row⟩
  · unfold ElementUndo.swap
    dsimp only
    rw [found, stored]
  · rw [SlotMap.view_update live, if_pos rfl]
  intro handle apart
  rw [SlotMap.view_update live, if_neg]
  rintro rfl
  exact apart rfl

end Stands

section Logs

variable [LogicalStackElement α σ] {keeps : α → κ} {displaced other : SlotMap α}
  {live : Nat → Option α} {records : List (ElementUndo σ)} {entries : List (Nat × α)}

theorem Undoes.length (undoes : Undoes keeps displaced live records entries) :
    records.length = entries.length := by
  induction undoes with
  | nil => rfl
  | cons _ _ _ ih => rw [List.length_cons, List.length_cons, ih]

theorem Undoes.indexes (undoes : Undoes keeps displaced live records entries) :
    records.map ElementUndo.index = entries.map Prod.fst := by
  induction undoes with
  | nil => rfl
  | cons _ _ stands ih => rw [List.map_cons, List.map_cons, ih, stands.index]

variable {payload : PayloadHandle} {record : ElementUndo σ}

theorem payload_mem (member : record ∈ records)
    (found : payload ∈ record.payload?) : payload ∈ handlesOf records :=
  List.mem_filterMap.mpr ⟨record, member, found⟩

theorem Undoes.frame (undoes : Undoes keeps displaced live records entries)
    (same : ∀ payload ∈ handlesOf records, other.view payload = displaced.view payload) :
    Undoes keeps other live records entries := by
  induction undoes with
  | nil => exact .nil
  | @cons record later entry entries row _ found stands ih => ?_
  refine .cons (ih ?_) found (stands.frame ?_)
  · intro payload member
    obtain ⟨inner, innerMember, has⟩ := List.mem_filterMap.mp member
    exact same payload (payload_mem (List.mem_cons_of_mem _ innerMember) has)
  · exact fun payload has => same payload (payload_mem List.mem_cons_self has)

theorem Redone.frame (redone : Redone keeps displaced live records entries)
    (same : ∀ payload ∈ handlesOf records, other.view payload = displaced.view payload) :
    Redone keeps other live records entries := by
  induction redone with
  | nil => exact .nil
  | @cons live record later entry entries row found stands _ ih => ?_
  refine .cons found (stands.frame ?_) (ih ?_)
  · exact fun payload has => same payload (payload_mem List.mem_cons_self has)
  intro payload member
  obtain ⟨inner, innerMember, has⟩ := List.mem_filterMap.mp member
  exact same payload (payload_mem (List.mem_cons_of_mem _ innerMember) has)

/-- Records redo another map that has the same rows where the log names them. -/
theorem Redone.congr {inside : Nat → Prop} (redone : Redone keeps displaced live records entries)
    (named : ∀ entry ∈ entries, inside entry.1) {same : Nat → Option α}
    (agree : ∀ cell, inside cell → same cell = live cell) :
    Redone keeps displaced same records entries := by
  induction redone generalizing same with
  | nil => exact .nil
  | @cons live record later entry entries row found stands _ ih => ?_
  have here := named entry List.mem_cons_self
  refine .cons ((agree _ here).trans found) stands
    (ih (fun inner member => named inner (List.mem_cons_of_mem _ member)) ?_)
  intro cell held
  by_cases apart : cell = entry.1
  · rw [apart, put_same, put_same]
  · rw [put_other _ _ apart, put_other _ _ apart, agree cell held]

variable {first second : List (ElementUndo σ)}

theorem Undoes.append {older newer : List (Nat × α)}
    (firstUndoes : Undoes keeps displaced (rewound newer live) first older)
    (secondUndoes : Undoes keeps displaced live second newer) :
    Undoes keeps displaced live (first ++ second) (older ++ newer) := by
  generalize start : rewound newer live = between at firstUndoes
  induction firstUndoes with
  | nil => exact secondUndoes
  | cons _ found stands ih => ?_
  refine .cons ih ?_ stands
  show rewound (_ ++ newer) live _ = _
  rw [rewound_append, start]
  exact found

theorem Undoes.cut (undoes : Undoes keeps displaced live (first ++ second) entries) :
    ∃ older newer, entries = older ++ newer ∧ first.length = older.length ∧
      Undoes keeps displaced live second newer ∧
      Undoes keeps displaced (rewound newer live) first older := by
  induction first generalizing entries with
  | nil => exact ⟨[], entries, rfl, rfl, undoes, .nil⟩
  | cons record first ih => ?_
  cases undoes with
  | @cons _ _ entry rest row restUndoes found stands => ?_
  obtain ⟨older, newer, rfl, size, second_, first_⟩ := ih restUndoes
  refine ⟨entry :: older, newer, rfl, congrArg (· + 1) size, second_, .cons first_ ?_ stands⟩
  rw [rewound_append] at found
  exact found

variable {rows : List α}

theorem Undoes.inside (undoes : Undoes keeps displaced (rowsAt rows) records entries) :
    ∀ entry ∈ entries, entry.1 < rows.length := by
  induction undoes with
  | nil => exact nofun
  | @cons record later entry entries row _ found _ ih => ?_
  intro named member
  rcases List.mem_cons.mp member with rfl | inner
  · apply Nat.lt_of_not_le
    intro beyond
    rw [rewound_unnamed] at found
    · unfold rowsAt at found
      rw [List.getElem?_eq_none beyond] at found
      cases found
    intro earlier earlierMember same
    have := ih earlier earlierMember
    omega
  · exact ih named inner

theorem Undoes.mono {grown : Nat → Option α} (undoes : Undoes keeps displaced live records entries)
    (extends_ : ∀ cell value, live cell = some value → grown cell = some value) :
    Undoes keeps displaced grown records entries := by
  induction undoes with
  | nil => exact .nil
  | cons _ found stands ih =>
    exact .cons ih (rewound_mono (extends_ _ _) found) stands

variable {cell : Nat}

theorem Undoes.mutate {row mutated : α} (undoes : Undoes keeps displaced live records entries)
    (here : live cell = some row) (kept : keeps mutated = keeps row) :
    Undoes keeps displaced (put live cell mutated) records entries := by
  induction undoes with
  | nil => exact .nil
  | @cons record later entry entries old _ found stands ih => ?_
  by_cases apart : entry.1 = cell
  · by_cases named : ∃ inner ∈ entries, inner.1 = cell
    · refine .cons ih ?_ stands
      rw [rewound_put_named named]
      exact found
    have unnamed : ∀ inner ∈ entries, inner.1 ≠ entry.1 := fun inner member same =>
      named ⟨inner, member, same.trans apart⟩
    rw [rewound_unnamed _ unnamed, apart, here] at found
    cases found
    refine .cons ih ?_ (stands.mutate kept)
    rw [rewound_unnamed _ unnamed, apart, put_same]
  refine .cons ih ?_ stands
  rw [rewound_put_other _ _ _ apart]
  exact found

/-- The last record of a row, if there is one, brings the whole row back. -/
def Shielded (cell : Nat) : List (ElementUndo σ) → Prop
  | [] => True
  | record :: later =>
    Shielded cell later ∧
      (record.index = cell → record.payload? = none → ∃ inner ∈ later, inner.index = cell)

theorem Undoes.overwrite {fresh : α} (undoes : Undoes keeps displaced live records entries)
    (shielded : Shielded cell records) :
    Undoes keeps displaced (put live cell fresh) records entries := by
  induction undoes with
  | nil => exact .nil
  | @cons record later entry entries old rest found stands ih => ?_
  obtain ⟨laterShielded, covered⟩ := shielded
  by_cases apart : entry.1 = cell
  · by_cases named : ∃ inner ∈ entries, inner.1 = cell
    · refine .cons (ih laterShielded) ?_ stands
      rw [rewound_put_named named]
      exact found
    have unnamed : ∀ inner ∈ entries, inner.1 ≠ entry.1 := fun inner member same =>
      named ⟨inner, member, same.trans apart⟩
    refine @Undoes.cons _ _ _ _ _ _ _ _ _ _ _ fresh (ih laterShielded) ?_ ?_
    · rw [rewound_unnamed _ unnamed, apart, put_same]
    cases record with
    | inlineState index state =>
      obtain ⟨inner, member, same⟩ := covered (stands.1.trans apart) rfl
      have mapped := List.mem_map_of_mem (f := ElementUndo.index) member
      rw [rest.indexes] at mapped
      obtain ⟨named_, namedMember, sameCell⟩ := List.mem_map.mp mapped
      exact absurd ⟨named_, namedMember, sameCell.trans same⟩ named
    | replacement index payload => exact stands
  refine .cons (ih laterShielded) ?_ stands
  rw [rewound_put_other _ _ _ apart]
  exact found

omit [LogicalStackElement α σ] in
theorem shielded_of_unnamed (unnamed : ∀ record ∈ records, record.index ≠ cell) :
    Shielded cell records := by
  induction records with
  | nil => exact trivial
  | cons record later ih =>
    refine ⟨ih fun inner member => unnamed inner (List.mem_cons_of_mem _ member), ?_⟩
    exact fun same => absurd same (unnamed record List.mem_cons_self)

omit [LogicalStackElement α σ] in
theorem Shielded.concat {cell : Nat} {record : ElementUndo σ} (shielded : Shielded cell records)
    (apart : record.index ≠ cell) : Shielded cell (records ++ [record]) := by
  induction records with
  | nil => exact ⟨trivial, fun same => absurd same apart⟩
  | cons first later ih => ?_
  refine ⟨ih shielded.1, fun same inline => ?_⟩
  obtain ⟨inner, member, innerSame⟩ := shielded.2 same inline
  exact ⟨inner, List.mem_append_left _ member, innerSame⟩

omit [LogicalStackElement α σ] in
theorem shielded_concat_replacement (records : List (ElementUndo σ)) (cell : Nat)
    (payload : PayloadHandle) : Shielded cell (records ++ [.replacement cell payload]) := by
  induction records with
  | nil => exact ⟨trivial, nofun⟩
  | cons first later ih =>
    exact ⟨ih, fun _ _ => ⟨.replacement cell payload, List.mem_append_right _ List.mem_cons_self,
      rfl⟩⟩

omit [LogicalStackElement α σ] in
theorem payload_apart (distinct : (handlesOf (record :: records)).Nodup) :
    (∀ payload ∈ record.payload?, payload ∉ handlesOf records) ∧ (handlesOf records).Nodup := by
  refine ⟨?_, ((List.sublist_cons_self record records).filterMap _).nodup distinct⟩
  intro payload has
  unfold handlesOf at distinct
  rw [List.filterMap_cons, Option.mem_def.mp has] at distinct
  exact (List.nodup_cons.mp distinct).1

omit [LogicalStackElement α σ] in
theorem payload_outside (outside : payload ∉ handlesOf (record :: records)) :
     record.payload? ≠ some payload ∧ payload ∉ handlesOf records := by
  constructor
  · exact fun same => outside (payload_mem List.mem_cons_self same)
  intro member
  obtain ⟨inner, innerMember, has⟩ := List.mem_filterMap.mp member
  exact outside (payload_mem (List.mem_cons_of_mem _ innerMember) has)

/-- Records exchanged backwards rewind the rows, and keep what redoes them. -/
theorem Undoes.swapReverse (covers : Covers keeps)
    (undoes : Undoes keeps displaced (rowsAt rows) records entries)
    (distinct : (handlesOf records).Nodup) :
    ∃ swapped rowsAfter after back, PackedJournal.swapReverse ElementUndo.swap records
        (rows, displaced) = some (swapped, rowsAfter, after) ∧
      rowsAfter.length = rows.length ∧ handlesOf swapped = handlesOf records ∧
      (∀ payload, payload ∉ handlesOf records → after.view payload = displaced.view payload) ∧
      (∀ names, displaced.Holds names → after.Holds names) ∧
      Rewinds (rowsAt rows) entries back (rowsAt rowsAfter) ∧
      Redone keeps after (rowsAt rowsAfter) swapped back := by
  induction undoes with
  | nil => exact ⟨[], rows, displaced, [], rfl, rfl, rfl, fun _ _ => rfl, fun _ holds => holds,
      .nil, .nil⟩
  | @cons record later entry entries row rest found stands ih => ?_
  obtain ⟨apart, laterDistinct⟩ := payload_apart distinct
  obtain ⟨swappedLater, rowsBetween, between, backLater, ranLater, length, handles, frame,
    holdsBetween, rewinds, redone⟩ := ih laterDistinct
  have here : rowsBetween[entry.1]? = some row := by
    have final := congrFun rewinds.final_eq entry.1
    rw [found] at final
    exact final
  have standsBetween : Stands keeps between row record entry :=
    stands.frame fun payload has => frame payload (apart payload has)
  obtain ⟨swapped, after, ran, payload, standsBack, frameHere, holdsAfter⟩ :=
    standsBetween.swap covers here
  refine ⟨swapped :: swappedLater, rowsBetween.set entry.1 entry.2, after,
    (entry.1, row) :: backLater, ?_, ?_, ?_, ?_, fun names holds =>
      holdsAfter names (holdsBetween names holds), ?_, ?_⟩
  · unfold PackedJournal.swapReverse
    rw [ranLater]
    dsimp only
    rw [ran]
  · rw [List.length_set, length]
  · unfold handlesOf at handles ⊢
    rw [List.filterMap_cons, List.filterMap_cons, payload, handles]
  · intro handle outside
    obtain ⟨notHere, notLater⟩ := payload_outside outside
    rw [frameHere handle notHere, frame handle notLater]
  · rw [rowsAt_set here]
    exact .cons rewinds here
  rw [rowsAt_set here]
  refine .cons (put_same ..) standsBack ?_
  rw [put_put_self (show rowsAt rowsBetween entry.1 = some row from here)]
  refine redone.frame fun handle member => ?_
  rw [handles] at member
  apply frameHere
  intro same
  exact apart handle same member

/-- Records exchanged forwards redo the rows, and keep what undoes them. -/
theorem Redone.swapForward (covers : Covers keeps)
    (redone : Redone keeps displaced (rowsAt rows) records entries)
    (distinct : (handlesOf records).Nodup) :
    ∃ swapped rowsAfter after back, PackedJournal.swapForward ElementUndo.swap records
        (rows, displaced) = some (swapped, rowsAfter, after) ∧
      rowsAfter.length = rows.length ∧ handlesOf swapped = handlesOf records ∧
      (∀ payload, payload ∉ handlesOf records → after.view payload = displaced.view payload) ∧
      (∀ names, displaced.Holds names → after.Holds names) ∧
      Redoes (rowsAt rows) entries back (rowsAt rowsAfter) ∧
      Undoes keeps after (rowsAt rowsAfter) swapped back := by
  induction records generalizing displaced rows entries with
  | nil =>
    cases redone
    exact ⟨[], rows, displaced, [], rfl, rfl, rfl, fun _ _ => rfl, fun _ holds => holds, .nil, .nil⟩
  | cons record later ih => ?_
  cases redone with
  | @cons _ _ _ entry entries row found stands rest => ?_
  have here : rows[entry.1]? = some row := found
  obtain ⟨apart, laterDistinct⟩ := payload_apart distinct
  obtain ⟨swapped, between, ran, payload, standsBack, frameHere, holdsBetween⟩ :=
    stands.swap covers here
  rw [← rowsAt_set here] at rest
  have restBetween : Redone keeps between (rowsAt (rows.set entry.1 entry.2)) later
      entries := by
    refine rest.frame fun handle member => frameHere handle ?_
    intro same
    exact apart handle same member
  obtain ⟨swappedLater, rowsAfter, after, backLater, ranLater, length, handles, frame,
    holdsAfter, redoes, undoes⟩ := ih restBetween laterDistinct
  refine ⟨swapped :: swappedLater, rowsAfter, after, (entry.1, row) :: backLater, ?_, ?_,
    ?_, ?_, fun names holds => holdsAfter names (holdsBetween names holds), ?_, ?_⟩
  · unfold PackedJournal.swapForward
    rw [ran]
    dsimp only
    rw [ranLater]
  · rw [length, List.length_set]
  · unfold handlesOf at handles ⊢
    rw [List.filterMap_cons, List.filterMap_cons, payload, handles]
  · intro handle outside
    obtain ⟨notHere, notLater⟩ := payload_outside outside
    rw [frame handle notLater, frameHere handle notHere]
  · rw [rowsAt_set here] at redoes
    exact .cons found redoes
  refine .cons undoes ?_ (standsBack.frame ?_)
  · rw [redoes.rewound]
    rw [rowsAt_set here]
    exact put_same ..
  intro handle has
  rw [payload] at has
  exact frame handle (apart handle has)

end Logs

end Umber.Command
