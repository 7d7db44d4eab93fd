import Umber.Editor.LayoutProperties
import Umber.Editor.Session

/-! In every run of an editor session the layouts spell the texts they belong to. -/

set_option autoImplicit false

namespace Umber.Editor

open ExceptLib

variable {η : Type}

/-! ## Fragment stores -/

def FragmentStore.Sound (store : FragmentStore) (bound : Nat) : Prop :=
  ∀ id held, store.source id = some held → id.lineage < bound ∧
    ∃ bytes, held.bytes = some bytes ∧ held.fragment.byteLen = bytes.length

namespace FragmentStore

variable {store next : FragmentStore} {bound lineage : Nat} {id : FragmentId} {bytes : List UInt8}

theorem Sound.mono (sound : store.Sound bound) {more : Nat} (le : bound ≤ more) :
    store.Sound more := by
  intro id held found
  obtain ⟨below, stored⟩ := sound id held found
  exact ⟨Nat.lt_of_lt_of_le below le, stored⟩

theorem append_eq_ok {revision : Nat} {reserved : Option Nat}
    (appended : store.append bytes revision reserved = .ok (id, next)) :
    id.lineage = store.appendLineage ∧ next.bytes id = some bytes ∧
      (∃ fragment : SourceFragment, fragment.byteLen = bytes.length ∧
        next.source id = some { fragment, bytes := some bytes }) ∧
      ∀ other, other ≠ id → next.source other = store.source other := by
  unfold append at appended
  split at appended
  · cases appended
  split at appended
  · cases appended
    refine ⟨rfl, ?_, ?_, fun other apart => ?_⟩
    · unfold FragmentStore.bytes source
      rw [List.lookup_cons_self]
      rfl
    · unfold source
      rw [List.lookup_cons_self]
      exact ⟨_, rfl, rfl⟩
    unfold source
    rw [List.lookup_cons, beq_eq_false_iff_ne.mpr apart]
  · cases appended

theorem Sound.append (sound : store.Sound bound) {revision : Nat} {reserved : Option Nat}
    (appended : (store.clone bound).append bytes revision reserved = .ok (id, next)) :
    next.Sound (bound + 1) ∧ ∀ other held, store.source other = some held →
      other ≠ id ∧ next.source other = some held := by
  obtain ⟨lineage, _, ⟨fragment, length, here⟩, others⟩ := append_eq_ok appended
  have kept : ∀ other held, store.source other = some held → other ≠ id := by
    intro other held found same
    rw [same] at found
    have below := (sound id held found).1
    rw [lineage] at below
    exact absurd below (Nat.lt_irrefl _)
  constructor
  · intro other held found
    by_cases same : other = id
    · rw [same] at found ⊢
      cases here.symm.trans found
      rw [lineage]
      exact ⟨Nat.lt_succ_self _, bytes, rfl, length⟩
    rw [others other same] at found
    obtain ⟨below, stored⟩ := sound other held found
    exact ⟨Nat.lt_succ_of_lt below, stored⟩
  intro other held found
  have apart := kept other held found
  exact ⟨apart, (others other apart).trans found⟩

theorem Sound.inside (sound : store.Sound bound) {piece : Piece}
    (ordered : piece.start ≤ piece.stop)
    {fragment : SourceFragment} (found : store.get piece.fragment = some fragment)
    (within : piece.stop ≤ fragment.byteLen) : piece.Inside store := by
  obtain ⟨held, source, rfl⟩ := Option.map_eq_some_iff.mp found
  obtain ⟨_, bytes, stored, length⟩ := sound piece.fragment held source
  refine ⟨ordered, bytes, ?_, length ▸ within⟩
  unfold FragmentStore.bytes
  rw [source]
  exact stored

end FragmentStore

/-! ## Layouts that spell a text -/

structure Spells (source : List UInt8) (fragments : FragmentStore) (layout : EditorLayout)
    (bound : Nat) : Prop where
  sound : fragments.Sound bound
  starts : layout.docStarts = startsFrom 0 layout.pieces
  inside : ∀ piece ∈ layout.pieces, piece.Inside fragments
  text : layout.text fragments = source

namespace Spells

variable {source : List UInt8} {fragments : FragmentStore} {layout : EditorLayout}
  {bound : Nat}

section

variable (spells : Spells source fragments layout bound)
include spells

theorem mono {more : Nat} (le : bound ≤ more) : Spells source fragments layout more :=
  ⟨spells.sound.mono le, spells.starts, spells.inside, spells.text⟩

theorem byteAt : layout.coordinates.map fragments.byteAt = source.map some := by
  rw [← spells.text]
  exact (text_eq_byteAt spells.inside).symm

theorem coordinates_length : layout.coordinates.length = source.length := by
  have lengths := congrArg List.length spells.byteAt
  rw [List.length_map, List.length_map] at lengths
  exact lengths

/-- The coordinates of a layout name stored fragments. -/
theorem stored {coordinate : FragmentId × Nat} (member : coordinate ∈ layout.coordinates) :
    ∃ held, fragments.source coordinate.1 = some held := by
  obtain ⟨piece, listed, inner⟩ := List.mem_flatMap.mp member
  obtain ⟨offset, _, rfl⟩ := List.mem_map.mp inner
  obtain ⟨_, bytes, found, _⟩ := spells.inside piece listed
  obtain ⟨held, source, _⟩ := Option.bind_eq_some_iff.mp found
  exact ⟨held, source⟩

end

/-- A new layout spells what its coordinates name. -/
theorem of_new {path : String} {generation : Nat} {pieces : List Piece}
    (sound : fragments.Sound bound)
    (built : EditorLayout.new path generation pieces fragments = .ok layout)
    (bytes : layout.coordinates.map fragments.byteAt = source.map some) :
    Spells source fragments layout bound := by
  obtain ⟨same, starts, valid⟩ := new_eq_ok built
  have inside : ∀ piece ∈ layout.pieces, piece.Inside fragments := by
    intro piece member
    rw [same] at member
    obtain ⟨ordered, fragment, found, within⟩ := valid piece member
    exact sound.inside ordered found within
  refine ⟨sound, by rw [starts, same], inside, ?_⟩
  have spelled : (layout.text fragments).map some = source.map some :=
    (text_eq_byteAt inside).trans bytes
  exact (List.map_inj_right fun _ _ => Option.some.inj).mp spelled

end Spells

theorem mapError_eq_ok {ε ε' α : Type} {wrap : ε → ε'} {computation : Except ε α} {value : α}
    (mapped : mapError wrap computation = .ok value) : computation = .ok value := by
  unfold mapError at mapped
  split at mapped
  · cases mapped
    rfl
  · cases mapped

/-! ## Steps -/

def Session.Spelled (session : Session η) (bound : Nat) : Prop :=
  Spells session.source session.fragments session.layout bound

def CandidatePlan.Spelled (plan : CandidatePlan) (bound : Nat) : Prop :=
  Spells plan.source plan.fragments plan.layout bound

/-- What an edit makes of a layout: the text with the edit, and around the expanded range the
same fragments and offsets. -/
structure Edited (source : List UInt8) (layout : EditorLayout) (edit : Replacement)
    (plan : CandidatePlan) : Prop where
  edited : plan.source = edit.apply source
  text : plan.layout.text plan.fragments = edit.apply source
  before : ∀ offset, offset < (lineExpandedReplacement source edit).start →
    plan.layout.coordinates[offset]? = layout.coordinates[offset]?
  behind : ∀ offset, (lineExpandedReplacement source edit).stop ≤ offset →
    plan.layout.coordinates[(lineExpandedReplacement source edit).start +
        (lineExpandedReplacement source edit).bytes.length +
        (offset - (lineExpandedReplacement source edit).stop)]? =
      layout.coordinates[offset]?
  lineStart : AtLineStart source (lineExpandedReplacement source edit).start
  lineEnd : AtLineEnd source (lineExpandedReplacement source edit).stop
  contains : (lineExpandedReplacement source edit).start ≤ edit.start ∧
    edit.stop ≤ (lineExpandedReplacement source edit).stop

namespace Session

variable {contentHash : List UInt8 → η} {session : Session η} {bound lineage : Nat}
  {reserved : Option Nat} {plan : CandidatePlan}

theorem validateEdit_range [DecidableEq η] {nextRevision : Nat} {edit : Edit η}
    (valid : session.validateEdit nextRevision edit = .ok ()) :
    edit.start ≤ edit.stop ∧ edit.stop ≤ session.source.length := by
  unfold validateEdit at valid
  split at valid
  · cases valid
  split at valid
  · cases valid
  split at valid
  · cases valid
  split at valid
  · cases valid
  rename_i range
  simp only [not_or, Nat.not_lt] at range
  exact ⟨range.1, range.2.1⟩

theorem byteAt_appended {next : FragmentStore} {id : FragmentId} {bytes : List UInt8}
    (found : next.bytes id = some bytes) :
    ((List.range bytes.length).map fun offset => (id, offset)).map next.byteAt =
      bytes.map some := by
  rw [List.map_map]
  refine List.ext_getElem? fun index => ?_
  rw [List.getElem?_map, List.getElem?_map]
  by_cases inside : index < bytes.length
  · rw [List.getElem?_range inside, List.getElem?_eq_getElem inside]
    simp [FragmentStore.byteAt, found, inside]
  have outside := Nat.not_lt.mp inside
  rw [List.getElem?_eq_none outside, List.getElem?_eq_none (by simpa using outside)]
  rfl

section Spliced

variable {α : Type} {values more : List α} {start stop offset : Nat}

theorem getElem?_spliced_before (inside : start ≤ values.length) (before : offset < start) :
    (values.take start ++ more ++ values.drop stop)[offset]? = values[offset]? := by
  rw [List.append_assoc, List.getElem?_append_left, List.getElem?_take, if_pos before]
  rw [List.length_take, Nat.min_eq_left inside]
  exact before

theorem getElem?_spliced_behind (inside : start ≤ values.length) (behind : stop ≤ offset) :
    (values.take start ++ more ++ values.drop stop)[start + more.length + (offset - stop)]? =
      values[offset]? := by
  have front : (values.take start ++ more).length = start + more.length := by
    rw [List.length_append, List.length_take, Nat.min_eq_left inside]
  rw [List.getElem?_append_right (by rw [front]; exact Nat.le_add_right _ _), front,
    Nat.add_sub_cancel_left, List.getElem?_drop, Nat.add_sub_cancel' behind]

end Spliced

theorem startAdvanceCandidate_spelled [DecidableEq η] {nextRevision : Nat} {edit : Edit η}
    (spelled : session.Spelled bound)
    (advanced : session.startAdvanceCandidate bound reserved nextRevision edit = .ok plan) :
    plan.Spelled (bound + 1) ∧ Edited session.source session.layout edit.asReplacement plan := by
  obtain ⟨_, valid, advanced⟩ := bind_eq_ok.mp advanced
  obtain ⟨range, inside⟩ := validateEdit_range valid
  obtain ⟨⟨id, next⟩, appending, advanced⟩ := bind_eq_ok.mp advanced
  obtain ⟨layout, replacing, advanced⟩ := bind_eq_ok.mp advanced
  cases pure_eq_ok.mp advanced
  have appended := mapError_eq_ok appending
  have replaced := mapError_eq_ok replacing
  obtain ⟨lineStarts, lineStart⟩ := expandedStart_spec session.source edit.start
  obtain ⟨lineEnds, endInside, lineEnd⟩ := expandedStop_spec range inside
  obtain ⟨sound, kept⟩ := spelled.sound.append appended
  obtain ⟨_, stored, _, _⟩ := FragmentStore.append_eq_ok appended
  have coordinates : layout.coordinates =
      session.layout.coordinates.take
          (lineExpandedReplacement session.source edit.asReplacement).start ++
        (List.range (lineExpandedReplacement session.source edit.asReplacement).bytes.length).map
          (fun offset => (id, offset)) ++
        session.layout.coordinates.drop
          (lineExpandedReplacement session.source edit.asReplacement).stop :=
    replaceLayoutRange_coordinates spelled.starts
      (fun piece member => (spelled.inside piece member).1)
      (Nat.le_trans lineStarts (Nat.le_trans range lineEnds)) replaced
  have applied := @lineExpandedReplacement_apply session.source edit.asReplacement range inside
  have length := Spells.coordinates_length spelled
  have starts : (lineExpandedReplacement session.source edit.asReplacement).start ≤
      session.layout.coordinates.length := by
    rw [length]
    exact Nat.le_trans lineStarts (Nat.le_trans range inside)
  have same : ∀ coordinate ∈ session.layout.coordinates,
      next.byteAt coordinate = session.fragments.byteAt coordinate := by
    intro coordinate member
    obtain ⟨held, source⟩ := Spells.stored spelled member
    unfold FragmentStore.byteAt FragmentStore.bytes
    rw [source, (kept coordinate.1 held source).2]
  have bytes : layout.coordinates.map next.byteAt =
      (edit.asReplacement.apply session.source).map some := by
    have older : session.layout.coordinates.map next.byteAt = session.source.map some :=
      (List.map_congr_left same).trans (Spells.byteAt spelled)
    rw [coordinates, List.map_append, List.map_append, List.map_take, List.map_drop, older,
      byteAt_appended stored, ← applied]
    unfold Replacement.apply
    rw [List.map_append, List.map_append, List.map_take, List.map_drop]
  obtain ⟨pieces, built⟩ := replaceLayoutRange_built replaced
  have spells := Spells.of_new sound built bytes
  refine ⟨spells, ?_⟩
  constructor
  case edited => rfl
  case text => exact spells.text
  case before =>
    intro offset below
    rw [coordinates]
    exact getElem?_spliced_before starts below
  case behind =>
    intro offset above
    have behind := @getElem?_spliced_behind _ session.layout.coordinates
      ((List.range (lineExpandedReplacement session.source
        edit.asReplacement).bytes.length).map fun offset => (id, offset)) _ _ offset starts above
    rw [List.length_map, List.length_range] at behind
    rw [coordinates]
    exact behind
  case lineStart => exact lineStart
  case lineEnd => exact lineEnd
  case contains => exact ⟨lineStarts, lineEnds⟩

theorem startUnchangedCandidate_spelled (spelled : session.Spelled bound)
    (started : session.startUnchangedCandidate bound = .ok plan) : plan.Spelled (bound + 1) := by
  obtain ⟨layout, cloning, started⟩ := bind_eq_ok.mp started
  cases pure_eq_ok.mp started
  have cloned := mapError_eq_ok cloning
  obtain ⟨same, starts, _⟩ := new_eq_ok cloned
  refine ⟨FragmentStore.Sound.mono spelled.sound (Nat.le_succ _), by rw [starts, same], ?_, ?_⟩
  · rw [same]
    exact spelled.inside
  unfold EditorLayout.text
  rw [same]
  exact spelled.text

theorem start_spelled {path : String} {revision : Nat} {source : List UInt8}
    (started : Session.start contentHash path revision source lineage reserved = .ok session) :
    session.Spelled (lineage + 1) := by
  obtain ⟨⟨id, next⟩, appending, started⟩ := bind_eq_ok.mp started
  obtain ⟨length, converting, started⟩ := bind_eq_ok.mp started
  obtain ⟨layout, laying, started⟩ := bind_eq_ok.mp started
  cases pure_eq_ok.mp started
  cases converted_eq (mapError_eq_ok converting)
  have none_ : (FragmentStore.new lineage).Sound lineage := nofun
  have appended := mapError_eq_ok appending
  have built := mapError_eq_ok laying
  obtain ⟨_, stored, _, _⟩ := FragmentStore.append_eq_ok appended
  refine Spells.of_new (none_.append appended).1 built ?_
  have coordinates : layout.coordinates =
      (List.range source.length).map fun offset => (id, offset) := by
    unfold EditorLayout.coordinates
    rw [(new_eq_ok built).1, List.flatMap_singleton, List.range_eq_range']
    rfl
  rw [coordinates, byteAt_appended stored]

end Session

/-! ## Runs -/

structure World.Spelled (world : World η) : Prop where
  session : world.session.Spelled world.nextLineage
  candidate : ∀ plan, world.candidate = some plan → plan.Spelled world.nextLineage

theorem Step.spelled [DecidableEq η] {contentHash : List UInt8 → η} {world next : World η}
    (stepped : Step contentHash world next) (spelled : world.Spelled) : next.Spelled := by
  cases stepped with
  | elsewhere later =>
    exact ⟨Spells.mono spelled.session later,
      fun plan held => Spells.mono (spelled.candidate plan held) later⟩
  | startAdvance _ advanced =>
    refine ⟨Spells.mono spelled.session (Nat.le_succ _), fun plan held => ?_⟩
    cases held
    exact (Session.startAdvanceCandidate_spelled spelled.session advanced).1
  | startUnchanged _ started =>
    refine ⟨Spells.mono spelled.session (Nat.le_succ _), fun plan held => ?_⟩
    cases held
    exact Session.startUnchangedCandidate_spelled spelled.session started
  | drop => exact ⟨spelled.session, nofun⟩
  | accept held =>
    exact ⟨spelled.candidate _ held, nofun⟩

theorem Reached.spelled [DecidableEq η] {contentHash : List UInt8 → η} {world : World η}
    (reached : Reached contentHash world) : world.Spelled := by
  induction reached with
  | start started => exact ⟨Session.start_spelled started, nofun⟩
  | step _ stepped ih => exact stepped.spelled ih

/-- The session that a candidate becomes. -/
structure Session.Adopts (session : Session η) (contentHash : List UInt8 → η)
    (plan : CandidatePlan) : Prop where
  revision : session.revision = plan.revision
  contentHash : session.contentHash = contentHash plan.source
  source : session.source = plan.source
  fragments : session.fragments = plan.fragments
  layout : session.layout = plan.layout

/-- In every run the layout of the session, and that of its candidate, spells the source; a
candidate can be accepted and then is the session; and every edit that becomes a candidate
keeps the coordinates around the lines it expands to. -/
theorem Reached.layout_spells_source [DecidableEq η] {contentHash : List UInt8 → η}
    {world : World η} (reached : Reached contentHash world) :
    world.session.layout.text world.session.fragments = world.session.source ∧
      (∀ plan, world.candidate = some plan → plan.layout.text plan.fragments = plan.source ∧
        ∃ next, Step contentHash world next ∧ next.candidate = none ∧
          next.session.Adopts contentHash plan) ∧
      ∀ reserved nextRevision edit plan,
        world.session.startAdvanceCandidate world.nextLineage reserved nextRevision edit =
          .ok plan → Edited world.session.source world.session.layout edit.asReplacement plan := by
  refine ⟨reached.spelled.session.text, ?_, ?_⟩
  · intro plan held
    exact ⟨(reached.spelled.candidate plan held).text, _, .accept held, rfl,
      ⟨rfl, rfl, rfl, rfl, rfl⟩⟩
  intro reserved nextRevision edit plan advanced
  exact (Session.startAdvanceCandidate_spelled reached.spelled.session advanced).2

def joiningEdit : Edit (List UInt8) :=
  { baseRevision := 1
    expectedHash := [97, 10, 98, 10]
    start := 1
    stop := 2
    replacement := [99, 10, 100] }

def cuttingEdit : Edit (List UInt8) :=
  { baseRevision := 2
    expectedHash := [97, 99, 10, 100, 98, 10]
    start := 2
    stop := 4
    replacement := [] }

/-- The second edit is made in the session the first one was accepted into. -/
theorem layout_spells_source_joining : ∃ world plan, @Reached (List UInt8) _ id world ∧
      world.session.source = [97, 99, 10, 100, 98, 10] ∧
      world.session.layout.text world.session.fragments = world.session.source ∧
      world.session.startAdvanceCandidate world.nextLineage (some 12) 3 cuttingEdit = .ok plan ∧
      plan.source = [97, 99, 98, 10] ∧
      Edited world.session.source world.session.layout cuttingEdit.asReplacement plan := by
  have evaluated : ((Session.start id "job.tex" 1 [97, 10, 98, 10] 0 (some 0)).toOption.any
      fun session => (session.startAdvanceCandidate 1 (some 9) 2 joiningEdit).toOption.any
        fun first => decide (first.source = [97, 99, 10, 100, 98, 10]) &&
          ((Session.acceptRevision id first).startAdvanceCandidate 2 (some 12) 3
            cuttingEdit).toOption.any fun plan =>
              decide (plan.source = [97, 99, 98, 10])) = true := by
    decide +kernel
  obtain ⟨session, started, advancing⟩ := exists_of_toOption_any evaluated
  obtain ⟨first, advanced, checked⟩ := exists_of_toOption_any advancing
  obtain ⟨source, cutting⟩ := (Bool.and_eq_true ..).mp checked
  obtain ⟨plan, cut, shorter⟩ := exists_of_toOption_any cutting
  have candidate : Reached id { nextLineage := 2, session, candidate := some first } :=
    (Reached.start started).step (.startAdvance rfl advanced)
  have reached := candidate.step (.accept rfl)
  obtain ⟨text, _, edited⟩ := Reached.layout_spells_source reached
  exact ⟨_, plan, reached, of_decide_eq_true source, text, cut, of_decide_eq_true shorter,
    edited _ _ _ _ cut⟩

end Umber.Editor
