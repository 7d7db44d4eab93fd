import Mathlib.Data.List.Nodup
import Umber.Incr.EarlyStop
import Umber.Incr.LaneProperties
import Umber.Incr.Suspension

/-! Declined resources against the uninterrupted run. -/

set_option autoImplicit false

namespace Umber.Incr

open LiveHistoryState LiveHistorySink

section Lane

variable {Identity Runtime : Type}

theorem find?_eraseP_of_disjoint {α : Type} {values : List α} {erased sought : α → Bool}
    (disjoint : ∀ value, erased value = true → sought value = false) :
    (values.eraseP erased).find? sought = values.find? sought := by
  induction values with
  | nil => rfl
  | cons value values ih => ?_
  by_cases erase : erased value = true
  · simp [erase, disjoint value erase]
  by_cases found : sought value = true
  · simp [erase, found]
  · simp [erase, found, ih]

namespace BoundaryLane

def Numbered (lane : BoundaryLane Identity Runtime) : Prop :=
  ∀ cell ∈ lane.visible, cell.record < lane.nextRecord

theorem removeVisible_sublist (lane : BoundaryLane Identity Runtime) (record : Nat) :
    (lane.removeVisible record).visible.Sublist lane.visible := by
  simp only [visible, removeVisible]
  cases lane.ownership with
  | accepted rows => exact List.eraseP_sublist
  | forked kept detachedPrior current => ?_
  by_cases present : (kept.any fun cell => cell.record = record) = true
  · simp only [present, if_true]
    exact List.eraseP_sublist.append (List.Sublist.refl _)
  simp only [present, Bool.false_eq_true, if_false]
  exact (List.Sublist.refl _).append List.eraseP_sublist

theorem rootAt_removeVisible (lane : BoundaryLane Identity Runtime) {record other : Nat}
    (apart : other ≠ record) : (lane.removeVisible record).rootAt other = lane.rootAt other := by
  have disjoint : ∀ cell : BoundaryCell Identity Runtime, decide (cell.record = record) = true →
      decide (cell.record = other) = false := by
    intro cell same
    have named : cell.record = record := by simpa using same
    simpa [named] using fun equal => apart equal.symm
  simp only [rootAt, findVisible, visible, removeVisible]
  cases lane.ownership with
  | accepted rows => simp only [find?_eraseP_of_disjoint disjoint]
  | forked kept detachedPrior current => ?_
  by_cases present : (kept.any fun cell => cell.record = record) = true
  · simp only [present, if_true, List.find?_append, find?_eraseP_of_disjoint disjoint]
  simp only [present, Bool.false_eq_true, if_false, List.find?_append,
    find?_eraseP_of_disjoint disjoint]

variable {lane : BoundaryLane Identity Runtime}

theorem releaseKey_removes {released : BoundaryLane Identity Runtime} {record : Nat}
    (done : lane.releaseKey record = .ok released) : released = lane.removeVisible record := by
  simp only [releaseKey] at done
  split at done
  next => contradiction
  split at done
  next => contradiction
  cases done
  rfl

theorem numbered_appendCell (numbered : lane.Numbered)
    (checkpoint : Option (EngineCheckpoint Identity Runtime))
    (evidence : RetainedBoundaryEvidence Identity) :
    (lane.appendCell checkpoint evidence).2.Numbered := by
  intro cell member
  rw [visible_appendCell] at member
  change cell.record < lane.nextRecord + 1
  rcases List.mem_append.mp member with old | new
  · have below := numbered cell old
    omega
  obtain rfl := List.mem_singleton.mp new
  exact Nat.lt_succ_self _

theorem rootAt_appendCell_old {record : Nat} {root : EngineCheckpoint Identity Runtime}
    (held : lane.rootAt record = some root)
    (checkpoint : Option (EngineCheckpoint Identity Runtime))
    (evidence : RetainedBoundaryEvidence Identity) :
    (lane.appendCell checkpoint evidence).2.rootAt record = some root := by
  obtain ⟨cell, found, captured⟩ := Option.bind_eq_some_iff.mp held
  simp only [findVisible] at found
  simp [rootAt, findVisible, visible_appendCell, List.find?_append, found, captured]

theorem rootAt_appendCell_new (numbered : lane.Numbered) (root : EngineCheckpoint Identity Runtime)
    (evidence : RetainedBoundaryEvidence Identity) :
    (lane.appendCell (some root) evidence).2.rootAt lane.nextRecord = some root := by
  have absent : lane.visible.find? (fun cell => cell.record = lane.nextRecord) = none := by
    rw [List.find?_eq_none]
    intro cell member same
    have below := numbered cell member
    simp only [decide_eq_true_eq] at same
    omega
  simp [rootAt, findVisible, visible_appendCell, List.find?_append, absent]

end BoundaryLane

end Lane

section History

variable {Identity Runtime : Type}

structure SameHistory (left right : LiveHistoryState Identity) : Prop where
  records : left.records = right.records
  paragraphs : left.paragraphs = right.paragraphs
  convergence : left.convergence = right.convergence
  revision : left.revision = right.revision
  ordinals : ∀ place, nextOrdinal left.occurrences place =
    nextOrdinal right.occurrences place

variable {left right : LiveHistoryState Identity}

theorem SameHistory.of_sameRows (rows : LiveHistorySink.SameRows left right) :
    SameHistory left right :=
  ⟨rows.records, rows.paragraphs, rows.convergence, rows.revision,
    fun place => by rw [rows.occurrences]⟩

theorem SameHistory.symm (same : SameHistory left right) : SameHistory right left :=
  ⟨same.records.symm, same.paragraphs.symm, same.convergence.symm, same.revision.symm,
    fun place => (same.ordinals place).symm⟩

theorem SameHistory.trans {first second third : LiveHistoryState Identity}
    (left : SameHistory first second) (right : SameHistory second third) :
    SameHistory first third :=
  ⟨left.records.trans right.records, left.paragraphs.trans right.paragraphs,
    left.convergence.trans right.convergence, left.revision.trans right.revision,
    fun place => (left.ordinals place).trans (right.ordinals place)⟩

/-- The same row numbers, matched roots and occurrence counters give the same
published row. -/
theorem SameHistory.publishedState [DecidableEq Identity]
    (definitionsMatch : Runtime → Runtime → Bool) {left right : LiveHistorySink Identity Runtime}
    (same : SameHistory left.state right.state)
    (detached : ∀ key, left.retained.detachedCheckpointAt key =
      right.retained.detachedCheckpointAt key) (captured : EngineCheckpoint Identity Runtime) :
    SameHistory (left.publishedState definitionsMatch captured)
      (right.publishedState definitionsMatch captured) := by
  have key : left.state.publishedKey captured = right.state.publishedKey captured := by
    simp only [publishedKey, same.ordinals]
  have source : left.directSource definitionsMatch captured =
      right.directSource definitionsMatch captured := by
    simp only [LiveHistorySink.directSource, LiveHistorySink.matchPrior,
      comparedWith, key, same.records, same.convergence, detached]
  refine ⟨?_, ?_, ?_, same.revision, ?_⟩
  · simp only [LiveHistorySink.publishedState, LiveHistorySink.publishedRecord, same.records,
      same.revision, key, source]
  · simp only [LiveHistorySink.publishedState, same.paragraphs]
  · simp only [LiveHistorySink.publishedState, convergenceBehind, key, source,
      same.records, same.convergence]
  intro place
  simp only [LiveHistorySink.publishedState, nextOrdinal_setOrdinal, key, same.ordinals]

def LiveConvergence.base (comparison : LiveConvergence Identity) : MatchBase Identity where
  history := comparison.accepted
  start := comparison.initialNextOld
  edit := comparison.edit
  restart := comparison.restart

structure LiveHistoryState.Initial (state : LiveHistoryState Identity) : Prop where
  ordinals : ∀ place, nextOrdinal state.occurrences place =
    nextOrdinal (occurrencesOf state.records) place
  paragraphs : state.paragraphs = paragraphCount state.records
  unmatched : ∀ record ∈ state.records, record.directConvergenceSource = none
  matcher : ∀ comparison, state.convergence = some comparison →
    state.records = [] ∧ comparison.nextOld = comparison.initialNextOld ∧
      comparison.matched = none ∧ comparison.scheduleDiverged = false

theorem LiveHistoryState.Initial.congr {left right : LiveHistoryState Identity}
    (initial : right.Initial) (rows : LiveHistorySink.SameRows left right) : left.Initial := by
  obtain ⟨ordinals, paragraphs, unmatched, matcher⟩ := initial
  refine ⟨?_, ?_, ?_, ?_⟩
  · rwa [rows.occurrences, rows.records]
  · rwa [rows.paragraphs, rows.records]
  · rwa [rows.records]
  · rwa [rows.convergence, rows.records]

structure LiveHistoryState.Reaches (start state : LiveHistoryState Identity) : Prop where
  extended : start.records <+: state.records
  revision : state.revision = start.revision
  ordinals : ∀ place, nextOrdinal state.occurrences place =
    nextOrdinal (occurrencesOf state.records) place
  paragraphs : state.paragraphs = paragraphCount state.records
  unmatched : state.convergenceMatch = none →
    ∀ record ∈ state.records, record.directConvergenceSource = none
  silent : start.convergence = none → state.convergence = none
  matcher : ∀ comparison, start.convergence = some comparison →
    ∃ current, state.convergence = some current ∧ comparison.base.Compares current ∧
      (comparedRows comparison.restart state.records = [] → current = comparison)

theorem LiveHistoryState.Initial.reaches {state : LiveHistoryState Identity}
    (initial : state.Initial) : state.Reaches state :=
  ⟨List.prefix_rfl, rfl, initial.ordinals, initial.paragraphs, fun _ => initial.unmatched, id,
    fun comparison live => ⟨comparison, live, ⟨rfl, rfl, rfl, rfl⟩, fun _ => rfl⟩⟩

theorem LiveHistoryState.occurrencesOf_concat (records : List (BoundaryRecord Identity))
    (record : BoundaryRecord Identity) (place : Nat × EngineBoundary) :
    nextOrdinal (occurrencesOf (records ++ [record])) place =
      if place = (record.key.position, record.key.boundary) then
        max (nextOrdinal (occurrencesOf records) place) (record.key.ordinal + 1)
      else nextOrdinal (occurrencesOf records) place := by
  simp only [occurrencesOf, List.foldl_append, List.foldl_cons, List.foldl_nil,
    nextOrdinal_setOrdinal]
  split
  next same => rw [same]
  next => rfl

theorem paragraphCount_concat (records : List (BoundaryRecord Identity))
    (record : BoundaryRecord Identity) : paragraphCount (records ++ [record]) =
      if record.key.boundary = .outerParagraphEnd then paragraphCount records + 1
      else paragraphCount records := by
  by_cases paragraph : record.key.boundary = .outerParagraphEnd
  · simp [paragraphCount, paragraph]
  · simp [paragraphCount, paragraph]

/-- A boundary that leaves the matcher unmatched has no source. -/
theorem directSource_of_unmatched [DecidableEq Identity]
    {definitionsMatch : Runtime → Runtime → Bool} {sink : LiveHistorySink Identity Runtime}
    {captured : EngineCheckpoint Identity Runtime}
    (unmatched : (sink.publishedState definitionsMatch captured).convergenceMatch = none) :
    sink.directSource definitionsMatch captured = none := by
  cases source : sink.directSource definitionsMatch captured with
  | none => rfl
  | some old => ?_
  obtain ⟨compared, _⟩ := directSource_some source
  simp only [comparedWith, Option.bind_eq_some_iff] at compared
  obtain ⟨comparison, live, _⟩ := compared
  simp [LiveHistorySink.publishedState, convergenceMatch,
    convergenceBehind, live, source] at unmatched

/-- A first row at the restart leaves the matcher as it was. -/
theorem LiveConvergence.target_restart (comparison : LiveConvergence Identity) :
    comparison.target true comparison.restart = (none, comparison) := by
  simp [LiveConvergence.target]

variable {start : LiveHistoryState Identity}

theorem LiveHistoryState.Reaches.publish [DecidableEq Identity]
    (definitionsMatch : Runtime → Runtime → Bool) {sink : LiveHistorySink Identity Runtime}
    {captured : EngineCheckpoint Identity Runtime} (reaches : start.Reaches sink.state)
    (running : sink.stopRequested = false) :
    start.Reaches (sink.publishedState definitionsMatch captured) := by
  have unstopped : sink.state.convergenceMatch = none := by
    simpa [LiveHistorySink.stopRequested] using running
  refine ⟨?_, reaches.revision, ?_, ?_, ?_, ?_, ?_⟩
  · exact reaches.extended.trans (List.prefix_append _ _)
  · intro place
    simp only [LiveHistorySink.publishedState, occurrencesOf_concat, nextOrdinal_setOrdinal,
      LiveHistorySink.publishedRecord, publishedKey]
    split
    next same =>
      rw [same, ← reaches.ordinals]
      omega
    next => exact reaches.ordinals place
  · simp only [LiveHistorySink.publishedState, paragraphCount_concat,
      LiveHistorySink.publishedRecord, publishedKey, reaches.paragraphs]
  · intro unmatched record member
    simp only [LiveHistorySink.publishedState] at member
    rcases List.mem_append.mp member with old | new
    · exact reaches.unmatched unstopped record old
    obtain rfl := List.mem_singleton.mp new
    exact directSource_of_unmatched unmatched
  · intro silent
    simp [LiveHistorySink.publishedState, convergenceBehind, reaches.silent silent]
  intro comparison live
  obtain ⟨current, present, compares, unmoved⟩ := reaches.matcher comparison live
  have walking : current.matched = none := by simpa [convergenceMatch, present] using unstopped
  have walks := LiveConvergence.target_walks walking sink.state.records.isEmpty
    (sink.state.publishedKey captured)
  have walked := compares.walk walks
  cases source : sink.directSource definitionsMatch captured with
  | none =>
    refine ⟨_, by simp [LiveHistorySink.publishedState, convergenceBehind,
      present, source], walked, ?_⟩
    intro uncompared
    simp only [LiveHistorySink.publishedState] at uncompared
    by_cases restarts : sink.state.records = [] ∧
        sink.state.publishedKey captured = comparison.restart
    · have still : current = comparison := unmoved (by rw [restarts.1]; rfl)
      simp [still, restarts.1, restarts.2, LiveConvergence.target_restart]
    rw [comparedRows_concat fun empty same => restarts ⟨empty, same⟩] at uncompared
    simp at uncompared
  | some old => ?_
  refine ⟨{ (current.target sink.state.records.isEmpty (sink.state.publishedKey captured)).2 with
      matched := some (old, sink.state.publishedKey captured) },
    by simp [LiveHistorySink.publishedState, convergenceBehind, present,
      source],
    ⟨walked.accepted, walked.initial, walked.edit, walked.restart⟩, ?_⟩
  intro uncompared
  simp only [LiveHistorySink.publishedState] at uncompared
  have compared : sink.state.records = [] →
      (sink.publishedRecord definitionsMatch captured).key ≠ comparison.restart := by
    intro empty same
    have atRestart : sink.state.publishedKey captured = comparison.restart := same
    have still : current = comparison := unmoved (by rw [empty]; rfl)
    obtain ⟨target, _⟩ := directSource_some source
    simp [comparedWith, present, still, empty, atRestart, LiveConvergence.target_restart] at target
  rw [comparedRows_concat compared] at uncompared
  simp at uncompared

theorem LiveHistoryState.Reaches.congr {start left right : LiveHistoryState Identity}
    (rows : SameHistory left right) (reaches : start.Reaches right) : start.Reaches left := by
  obtain ⟨extended, revision, ordinals, paragraphs, unmatched, silent, matcher⟩ := reaches
  refine ⟨?_, ?_, ?_, ?_, ?_, ?_, ?_⟩
  · rwa [rows.records]
  · rwa [rows.revision]
  · intro place
    rw [rows.ordinals, rows.records]
    exact ordinals place
  · rwa [rows.paragraphs, rows.records]
  · rwa [convergenceMatch, rows.convergence, rows.records]
  · rwa [rows.convergence]
  · rwa [rows.convergence, rows.records]

/-- A rewind that keeps no compared row brings an uninterrupted history back to
where it was behind those rows. -/
theorem LiveHistoryState.Reaches.rewound {earlier : LiveHistoryState Identity}
    {sink : LiveHistorySink Identity Runtime} {slot : ReplayAnchorSlot} (initial : start.Initial)
    (reaches : start.Reaches earlier) (current : start.Reaches sink.state)
    (running : sink.stopRequested = false)
    (records : earlier.records = sink.state.records.take (sink.state.keptRecords slot))
    (uncompared : ∀ comparison, start.convergence = some comparison →
      comparedRows comparison.restart earlier.records = []) :
    SameHistory (sink.rewindAfterAnchor slot).state earlier := by
  have rows := SameHistory.of_sameRows (sameRows_rewindAfterAnchor sink slot)
  have unstopped : sink.state.convergenceMatch = none := by
    simpa [LiveHistorySink.stopRequested] using running
  refine rows.trans ⟨records.symm, ?_, ?_, ?_, ?_⟩
  · rw [reaches.paragraphs, records]
  · rw [rewindSource_eq_none (current.unmatched unstopped)]
    cases live : start.convergence with
    | none => simp [current.silent live, reaches.silent live]
    | some comparison => ?_
    obtain ⟨_, nextOld, matched, diverged⟩ := initial.matcher comparison live
    obtain ⟨moved, present, compares, _⟩ := current.matcher comparison live
    obtain ⟨still, same, _, unmoved⟩ := reaches.matcher comparison live
    rw [present, same, unmoved (uncompared comparison live)]
    simp only [Option.map_some, rewindConvergence, Option.bind_none, Option.some.injEq]
    obtain ⟨accepted, initialOld, edit, restart⟩ := compares
    cases comparison
    cases moved
    simp_all [LiveConvergence.base]
  · exact current.revision.trans reaches.revision.symm
  intro place
  rw [reaches.ordinals, records]

end History

section Roots

variable {Identity Runtime : Type}

/-- Every replay anchor of a history resolves to a root from which the rows up to
it have been reached. `Reached` names the rows and runtimes of the uninterrupted
run. -/
structure Rooted (Reached : List (BoundaryRecord Identity) → Runtime → Prop)
    (sink : LiveHistorySink Identity Runtime) : Prop where
  numbered : sink.retained.Numbered
  distinct : ∀ left right key : Nat, sink.state.checkpointKeys[left]? = some (some key) →
    sink.state.checkpointKeys[right]? = some (some key) → left = right
  apart : ∀ index key : Nat, sink.state.checkpointKeys[index]? = some (some key) →
    sink.state.currentCandidateReplayAnchor ≠ some key ∧
      sink.state.jobStartReplayAnchor ≠ some key
  below : ∀ key : Nat, some key ∈ sink.state.checkpointKeys ∨
      sink.state.currentCandidateReplayAnchor = some key ∨
      sink.state.jobStartReplayAnchor = some key →
    key < sink.retained.nextRecord
  history : ∀ index key : Nat, sink.state.checkpointKeys[index]? = some (some key) →
    ∃ root, sink.retained.rootAt key = some root ∧
      Reached (sink.state.records.take (index + 1)) root.runtime
  current : ∀ key : Nat, sink.state.currentCandidateReplayAnchor = some key →
    ∃ root, sink.retained.rootAt key = some root ∧ Reached [] root.runtime
  jobStart : sink.state.currentCandidateReplayAnchor = none →
    ∀ key : Nat, sink.state.jobStartReplayAnchor = some key →
    ∃ root, sink.retained.rootAt key = some root ∧
      Reached (sink.state.records.take 1) root.runtime ∧
      ∃ first, sink.state.records.head? = some first ∧ first.key.boundary = .jobStart

namespace Rooted

variable {Reached : List (BoundaryRecord Identity) → Runtime → Prop}

/-- The lane behind a release: unchanged, or without the released row. -/
theorem released_lane (sink : LiveHistorySink Identity Runtime) (victim : Nat) :
    (sink.releaseRestart victim).retained = sink.retained ∨
      ∃ key, sink.state.checkpointKeys[victim]? = some (some key) ∧
        (sink.releaseRestart victim).retained = sink.retained.removeVisible key := by
  simp only [LiveHistorySink.releaseRestart]
  cases held : (sink.state.checkpointKeys[victim]?).join with
  | none => exact .inl rfl
  | some key => ?_
  simp only
  cases release : sink.retained.releaseKey key with
  | error error => exact .inl rfl
  | ok lane =>
    refine .inr ⟨key, Option.join_eq_some_iff.mp held, ?_⟩
    simp only [BoundaryLane.releaseKey_removes release]

variable {victim : Nat}

theorem rootAt_released {sink : LiveHistorySink Identity Runtime} {other : Nat}
    (apart : sink.state.checkpointKeys[victim]? ≠ some (some other)) :
    (sink.releaseRestart victim).retained.rootAt other = sink.retained.rootAt other := by
  rcases released_lane sink victim with same | ⟨key, held, removed⟩
  · rw [same]
  rw [removed, BoundaryLane.rootAt_removeVisible]
  rintro rfl
  exact apart held

variable {keys : List (Option Nat)} {index key : Nat}

theorem getElem?_set_none (held : (keys.set victim none)[index]? = some (some key)) :
    keys[index]? = some (some key) ∧ index ≠ victim := by
  rw [List.getElem?_set] at held
  split at held
  next same =>
    split at held
    · simp at held
    · simp at held
  next apart => exact ⟨held, fun same => apart same.symm⟩

theorem releaseRestart {sink : LiveHistorySink Identity Runtime} (rooted : Rooted Reached sink)
    (victim : Nat) : Rooted Reached (sink.releaseRestart victim) := by
  obtain ⟨numbered, distinct, apart, below, history, current, jobStart⟩ := rooted
  have counter : (sink.releaseRestart victim).retained.nextRecord = sink.retained.nextRecord := by
    rcases released_lane sink victim with same | ⟨_, _, removed⟩
    · rw [same]
    rw [removed]
    rfl
  have rows : (sink.releaseRestart victim).retained.visible.Sublist sink.retained.visible := by
    rcases released_lane sink victim with same | ⟨key, _, removed⟩
    · exact congrArg BoundaryLane.visible same ▸ List.Sublist.refl _
    rw [removed]
    exact BoundaryLane.removeVisible_sublist _ key
  refine ⟨?_, ?_, ?_, ?_, ?_, ?_, ?_⟩
  · intro cell member
    rw [counter]
    exact numbered cell (rows.subset member)
  · intro left right key atLeft atRight
    exact distinct left right key (getElem?_set_none atLeft).1 (getElem?_set_none atRight).1
  · intro index key held
    exact apart index key (getElem?_set_none held).1
  · intro key held
    rw [counter]
    refine below key (held.imp_left fun member => ?_)
    obtain ⟨index, reached⟩ := List.mem_iff_getElem?.mp member
    exact List.mem_of_getElem? (getElem?_set_none reached).1
  · intro index key held
    obtain ⟨kept, notVictim⟩ := getElem?_set_none held
    rw [rootAt_released fun same => notVictim (distinct index victim key kept same)]
    exact history index key kept
  · intro key held
    rw [rootAt_released fun same => (apart victim key same).1 held]
    exact current key held
  intro noCurrent key held
  rw [rootAt_released fun same => (apart victim key same).2 held]
  exact jobStart noCurrent key held

/-- The replay anchors behind one publication, before any release. -/
theorem checkpoint_anchors [DecidableEq Identity] (definitionsMatch : Runtime → Runtime → Bool)
    (sink : LiveHistorySink Identity Runtime) (captured : EngineCheckpoint Identity Runtime) :
    (∃ evidence, (sink.checkpoint definitionsMatch captured).retained =
        (sink.retained.appendCell (some captured) evidence).2) ∧
      (sink.checkpoint definitionsMatch captured).state.currentCandidateReplayAnchor =
        sink.state.currentCandidateReplayAnchor ∧ (captured.boundary = .jobStart ∧
          (sink.checkpoint definitionsMatch captured).state.checkpointKeys =
            sink.state.checkpointKeys ++ [none] ∧
          (sink.checkpoint definitionsMatch captured).state.jobStartReplayAnchor =
            some sink.retained.nextRecord ∨ captured.boundary ≠ .jobStart ∧
          (sink.checkpoint definitionsMatch captured).state.checkpointKeys =
            sink.state.checkpointKeys ++ [some sink.retained.nextRecord] ∧
          (sink.checkpoint definitionsMatch captured).state.jobStartReplayAnchor =
            sink.state.jobStartReplayAnchor) := by
  simp only [LiveHistorySink.checkpoint, convergenceTarget_eq]
  by_cases start : captured.boundary = .jobStart
  · simp only [start, if_true]
    refine ⟨⟨_, rfl⟩, ?_, .inl ⟨trivial, ?_, rfl⟩⟩
    · split <;> rfl
    · split <;> rfl
  simp only [start, if_false]
  refine ⟨⟨_, rfl⟩, ?_, .inr ⟨start, ?_, ?_⟩⟩
  · split <;> rfl
  · split <;> rfl
  · split <;> rfl

theorem getElem?_concat {last : Option Nat} (held : (keys ++ [last])[index]? = some (some key)) :
    keys[index]? = some (some key) ∨ index = keys.length ∧ last = some key := by
  rcases Nat.lt_trichotomy index keys.length with inside | same | outside
  · rw [List.getElem?_append_left inside] at held
    exact .inl held
  · subst same
    simp only [List.getElem?_append_right (Nat.le_refl _), Nat.sub_self] at held
    exact .inr ⟨rfl, by simpa using held⟩
  rw [List.getElem?_eq_none (by simp; omega)] at held
  contradiction

/-- What a publication does to the lane and the rows. -/
structure Publication (sink next : LiveHistorySink Identity Runtime)
    (captured : EngineCheckpoint Identity Runtime) (record : BoundaryRecord Identity) : Prop where
  numbered : next.retained.Numbered
  counter : next.retained.nextRecord = sink.retained.nextRecord + 1
  old : ∀ key root, sink.retained.rootAt key = some root → next.retained.rootAt key = some root
  new : next.retained.rootAt sink.retained.nextRecord = some captured
  records : next.state.records = sink.state.records ++ [record]
  current : next.state.currentCandidateReplayAnchor = sink.state.currentCandidateReplayAnchor

variable {sink next : LiveHistorySink Identity Runtime}
  {captured : EngineCheckpoint Identity Runtime} {record : BoundaryRecord Identity}

theorem checkpoint_publication [DecidableEq Identity] (definitionsMatch : Runtime → Runtime → Bool)
    (numbered : sink.retained.Numbered) (captured : EngineCheckpoint Identity Runtime) :
    Publication sink (sink.checkpoint definitionsMatch captured) captured
      (sink.publishedRecord definitionsMatch captured) := by
  obtain ⟨⟨evidence, lane⟩, sameCurrent, _⟩ := checkpoint_anchors definitionsMatch sink captured
  refine ⟨?_, ?_, ?_, ?_, (sink.sameRows_checkpoint definitionsMatch captured).records, sameCurrent⟩
  · rw [lane]
    exact BoundaryLane.numbered_appendCell numbered _ _
  · rw [lane]
    rfl
  · intro key root held
    rw [lane]
    exact BoundaryLane.rootAt_appendCell_old held _ _
  rw [lane]
  exact BoundaryLane.rootAt_appendCell_new numbered _ _

section

variable (publication : Publication sink next captured record)
include publication

theorem Publication.currentRooted (rooted : Rooted Reached sink) (key : Nat)
    (held : next.state.currentCandidateReplayAnchor = some key) :
    ∃ root, next.retained.rootAt key = some root ∧ Reached [] root.runtime := by
  rw [publication.current] at held
  obtain ⟨root, present, back⟩ := rooted.current key held
  exact ⟨root, publication.old key root present, back⟩

/-- A job start is published into an empty history and holds no key in it. -/
theorem Publication.rooted_jobStart (rooted : Rooted Reached sink) (first : sink.state.records = [])
    (keys : next.state.checkpointKeys = [none])
    (anchor : next.state.jobStartReplayAnchor = some sink.retained.nextRecord)
    (isStart : record.key.boundary = .jobStart) (reached : Reached [record] captured.runtime) :
    Rooted Reached next := by
  have records : next.state.records = [record] := by
    rw [publication.records, first, List.nil_append]
  have unheld : ∀ index key : Nat, next.state.checkpointKeys[index]? ≠ some (some key) := by
    intro index key held
    rw [keys] at held
    have member := List.mem_of_getElem? held
    simp at member
  refine ⟨publication.numbered, ?_, ?_, ?_, ?_, publication.currentRooted rooted, ?_⟩
  · intro left right key held
    exact absurd held (unheld left key)
  · intro index key held
    exact absurd held (unheld index key)
  · intro key held
    rw [publication.counter]
    rw [keys, publication.current, anchor] at held
    rcases held with held | held | held
    · simp at held
    · have := rooted.below key (.inr (.inl held))
      omega
    cases held
    exact Nat.lt_succ_self _
  · intro index key held
    exact absurd held (unheld index key)
  intro _ key held
  rw [anchor] at held
  cases held
  rw [records]
  exact ⟨captured, publication.new, reached, record, rfl, isStart⟩

/-- The key of a paragraph end is the last one. -/
theorem Publication.rooted_paragraph (rooted : Rooted Reached sink)
    (paired : sink.state.checkpointKeys.length = sink.state.records.length)
    (keys : next.state.checkpointKeys =
      sink.state.checkpointKeys ++ [some sink.retained.nextRecord])
    (anchor : next.state.jobStartReplayAnchor = sink.state.jobStartReplayAnchor)
    (reached : Reached (sink.state.records ++ [record]) captured.runtime) :
    Rooted Reached next := by
  have heldCases : ∀ {index key : Nat}, next.state.checkpointKeys[index]? = some (some key) →
      sink.state.checkpointKeys[index]? = some (some key) ∨
        index = sink.state.checkpointKeys.length ∧ key = sink.retained.nextRecord := by
    intro index key held
    rw [keys] at held
    exact (getElem?_concat held).imp_right fun last => ⟨last.1, (Option.some.inj last.2).symm⟩
  have taken : ∀ {index}, index < sink.state.records.length →
      next.state.records.take (index + 1) = sink.state.records.take (index + 1) := by
    intro index inside
    rw [publication.records, List.take_append_of_le_length (by omega)]
  refine ⟨publication.numbered, ?_, ?_, ?_, ?_, publication.currentRooted rooted, ?_⟩
  · intro left right key atLeft atRight
    rcases heldCases atLeft with atLeft | ⟨rfl, rfl⟩
    · rcases heldCases atRight with atRight | ⟨rfl, rfl⟩
      · exact rooted.distinct left right key atLeft atRight
      have := rooted.below _ (.inl (List.mem_of_getElem? atLeft))
      omega
    rcases heldCases atRight with atRight | ⟨rfl, _⟩
    · have := rooted.below _ (.inl (List.mem_of_getElem? atRight))
      omega
    · rfl
  · intro index key held
    rw [publication.current, anchor]
    rcases heldCases held with held | ⟨_, rfl⟩
    · exact rooted.apart index key held
    constructor
    · intro same
      have := rooted.below _ (.inr (.inl same))
      omega
    intro same
    have := rooted.below _ (.inr (.inr same))
    omega
  · intro key held
    rw [publication.counter]
    rw [keys, publication.current, anchor, List.mem_append, List.mem_singleton] at held
    rcases held with (held | held) | held
    · have := rooted.below key (.inl held)
      omega
    · cases held
      exact Nat.lt_succ_self _
    have := rooted.below key (.inr held)
    omega
  · intro index key held
    rcases heldCases held with held | ⟨rfl, rfl⟩
    · obtain ⟨root, present, back⟩ := rooted.history index key held
      refine ⟨root, publication.old key root present, ?_⟩
      rw [taken (paired ▸ (List.getElem?_eq_some_iff.mp held).1)]
      exact back
    refine ⟨captured, publication.new, ?_⟩
    rw [publication.records, paired, List.take_of_length_le (by simp)]
    exact reached
  intro noCurrent key held
  rw [publication.current] at noCurrent
  rw [anchor] at held
  obtain ⟨root, present, back, first, head, boundary⟩ := rooted.jobStart noCurrent key held
  refine ⟨root, publication.old key root present, ?_, first, ?_, boundary⟩
  · rw [taken (List.length_pos_of_mem (List.mem_of_mem_head? head))]
    exact back
  rw [publication.records]
  simp [List.head?_append, head]

end

theorem publish [DecidableEq Identity] {definitionsMatch : Runtime → Runtime → Bool}
    (rooted : Rooted Reached sink)
    (paired : sink.state.checkpointKeys.length = sink.state.records.length)
    (reached : Reached (sink.publishedState definitionsMatch captured).records captured.runtime)
    (jobStartFirst : captured.boundary = .jobStart → sink.state.records = []) :
    Rooted Reached (sink.checkpoint definitionsMatch captured) := by
  obtain ⟨_, _, keys⟩ := checkpoint_anchors definitionsMatch sink captured
  have publication := checkpoint_publication definitionsMatch rooted.numbered captured
  rcases keys with ⟨isStart, keys, anchor⟩ | ⟨_, keys, anchor⟩
  · have first := jobStartFirst isStart
    have empty : sink.state.checkpointKeys = [] := by
      rw [← List.length_eq_zero_iff, paired, first]
      rfl
    rw [empty, List.nil_append] at keys
    simp only [LiveHistorySink.publishedState, first, List.nil_append] at reached
    exact publication.rooted_jobStart rooted first keys anchor isStart reached
  · exact publication.rooted_paragraph rooted paired keys anchor reached

theorem releaseAll {sink : LiveHistorySink Identity Runtime} (rooted : Rooted Reached sink)
    (spared : LiveHistorySink.EvidenceSpared sink) : Rooted Reached sink.releaseAll := by
  obtain ⟨numbered, distinct, apart, below, history, current, jobStart⟩ :=
    spared.rounds_induction (fun _ victim rooted => rooted.releaseRestart victim) rooted
      sink.releaseFuel
  exact ⟨numbered, distinct, apart, below, history, current, jobStart⟩

/-- Rooted histories stay rooted when they keep fewer keys. -/
theorem dropKeys {sink : LiveHistorySink Identity Runtime} (rooted : Rooted Reached sink) :
    Rooted Reached
      { sink with
        state :=
          { sink.state with
            checkpointKeys := sink.state.checkpointKeys.dropLast
            checkpointRetentions := sink.state.checkpointRetentions.dropLast } } := by
  obtain ⟨numbered, distinct, apart, below, history, current, jobStart⟩ := rooted
  have kept : ∀ {index key : Nat}, sink.state.checkpointKeys.dropLast[index]? = some (some key) →
      sink.state.checkpointKeys[index]? = some (some key) := by
    intro index key held
    rw [List.getElem?_dropLast] at held
    split at held
    · exact held
    · contradiction
  refine ⟨numbered, ?_, ?_, ?_, ?_, current, jobStart⟩
  · exact fun left right key atLeft atRight => distinct left right key (kept atLeft) (kept atRight)
  · exact fun index key held => apart index key (kept held)
  · exact fun key held => below key (held.imp_left fun member => List.dropLast_subset _ member)
  · exact fun index key held => history index key (kept held)

theorem releaseSuffix {sink : LiveHistorySink Identity Runtime} (rooted : Rooted Reached sink)
    (count : Nat) : Rooted Reached (sink.releaseSuffix count) := by
  induction count generalizing sink with
  | zero => exact rooted
  | succ count ih => exact ih (rooted.releaseRestart _).dropKeys

theorem checkpointKeys_releaseSuffix (sink : LiveHistorySink Identity Runtime) (count : Nat) :
    (sink.releaseSuffix count).state.checkpointKeys =
      sink.state.checkpointKeys.take (sink.state.checkpointKeys.length - count) := by
  induction count generalizing sink with
  | zero => simp [LiveHistorySink.releaseSuffix]
  | succ count ih => ?_
  simp only [LiveHistorySink.releaseSuffix]
  rw [ih]
  simp only [LiveHistorySink.releaseRestart, List.length_set, List.dropLast_eq_take,
    List.take_take, List.length_take]
  rw [List.take_set_of_le (by omega)]
  congr 1
  omega

theorem releaseSuffix_anchors (sink : LiveHistorySink Identity Runtime) (count : Nat) :
    (sink.releaseSuffix count).state.currentCandidateReplayAnchor =
        sink.state.currentCandidateReplayAnchor ∧
      (sink.releaseSuffix count).state.jobStartReplayAnchor = sink.state.jobStartReplayAnchor := by
  induction count generalizing sink with
  | zero => exact ⟨rfl, rfl⟩
  | succ count ih => exact ih _

theorem rewind {sink : LiveHistorySink Identity Runtime} (rooted : Rooted Reached sink)
    (paired : sink.state.checkpointKeys.length = sink.state.records.length)
    {slot : ReplayAnchorSlot} (within : sink.state.keptRecords slot ≤ sink.state.records.length)
    (start : sink.state.currentCandidateReplayAnchor = none → 0 < sink.state.keptRecords slot) :
    Rooted Reached (sink.rewindAfterAnchor slot) ∧
      (sink.rewindAfterAnchor slot).state.checkpointKeys.length =
        (sink.rewindAfterAnchor slot).state.records.length := by
  have rows := sameRows_releaseSuffix
    (sink.state.checkpointKeys.length - sink.state.keptRecords slot) sink
  have keys := checkpointKeys_releaseSuffix sink
    (sink.state.checkpointKeys.length - sink.state.keptRecords slot)
  have cut : sink.state.checkpointKeys.length -
      (sink.state.checkpointKeys.length - sink.state.keptRecords slot) =
        sink.state.keptRecords slot := by
    omega
  rw [cut] at keys
  obtain ⟨sameCurrent, _⟩ := releaseSuffix_anchors sink
    (sink.state.checkpointKeys.length - sink.state.keptRecords slot)
  obtain ⟨numbered, distinct, apart, below, history, current, jobStart⟩ := rooted.releaseSuffix
    (sink.state.checkpointKeys.length - sink.state.keptRecords slot)
  constructor
  · refine ⟨numbered, distinct, apart, below, ?_, current, ?_⟩
    · intro index key held
      obtain ⟨root, present, back⟩ := history index key held
      refine ⟨root, present, ?_⟩
      have inside : index < sink.state.keptRecords slot := by
        change (sink.releaseSuffix _).state.checkpointKeys[index]? = _ at held
        rw [keys] at held
        have := (List.getElem?_eq_some_iff.mp held).1
        rw [List.length_take] at this
        omega
      change Reached (((sink.releaseSuffix _).state.records.take _).take (index + 1)) _
      rw [List.take_take, Nat.min_eq_left (by omega)]
      exact back
    intro noCurrent key held
    obtain ⟨root, present, back, first, head, boundary⟩ := jobStart noCurrent key held
    have nonempty := start (sameCurrent ▸ noCurrent)
    refine ⟨root, present, ?_, first, ?_, boundary⟩
    · change Reached (((sink.releaseSuffix _).state.records.take _).take 1) _
      rw [List.take_take, Nat.min_eq_left (by omega)]
      exact back
    change ((sink.releaseSuffix _).state.records.take _).head? = _
    rw [List.head?_take, if_neg (by omega)]
    exact head
  change (sink.releaseSuffix _).state.checkpointKeys.length =
    ((sink.releaseSuffix _).state.records.take _).length
  rw [keys, rows.records, List.length_take, List.length_take, paired]

end Rooted

end Roots

theorem LiveHistoryState.latestReplayAnchor_cases {Identity : Type}
    {state : LiveHistoryState Identity} {anchor : ReplayAnchorLease}
    (latest : state.latestReplayAnchor = some anchor) : (∃ index, anchor.slot = .history index ∧
        state.checkpointKeys[index]? = some (some anchor.key)) ∨
      (anchor.slot = .currentCandidate ∧ state.currentCandidateReplayAnchor = some anchor.key) ∨
      (anchor.slot = .jobStart ∧ state.currentCandidateReplayAnchor = none ∧
        state.jobStartReplayAnchor = some anchor.key) := by
  simp only [latestReplayAnchor] at latest
  split at latest
  next lease found =>
    cases latest
    obtain ⟨entry, member, chosen⟩ := List.exists_of_findSome?_eq_some found
    obtain ⟨key, held, rfl⟩ := Option.map_eq_some_iff.mp chosen
    refine .inl ⟨entry.2, rfl, ?_⟩
    rw [List.mem_reverse, List.mem_zipIdx_iff_getElem?] at member
    rw [member, held]
  split at latest
  next key held =>
    cases latest
    exact .inr (.inl ⟨rfl, held⟩)
  next noCurrent =>
    obtain ⟨key, held, rfl⟩ := Option.map_eq_some_iff.mp latest
    exact .inr (.inr ⟨rfl, noCurrent, held⟩)

section Schedules

variable {Identity Runtime : Type} [DecidableEq Identity]
variable (next : Runtime → Option (EngineCheckpoint Identity Runtime))
variable (definitionsMatch : Runtime → Runtime → Bool)

namespace Running

def Spared (start : Running Identity Runtime) : Prop :=
  ∀ count base captured, uninterrupted next definitionsMatch start count = some base →
    base.sink.stopRequested = false → next base.runtime = some captured →
    LiveHistorySink.EvidenceSpared (base.sink.checkpoint definitionsMatch captured)

def JobStartFirst (start : Running Identity Runtime) : Prop :=
  ∀ count base captured, uninterrupted next definitionsMatch start count = some base →
    next base.runtime = some captured → captured.boundary = .jobStart →
    base.sink.state.records = []

def Reached (start : Running Identity Runtime) (records : List (BoundaryRecord Identity))
    (runtime : Runtime) : Prop :=
  ∃ count base, uninterrupted next definitionsMatch start count = some base ∧
    base.sink.state.records = records ∧ base.runtime = runtime

structure Prepared (start : Running Identity Runtime) : Prop where
  initial : start.sink.state.Initial
  rooted : Rooted (Reached next definitionsMatch start) start.sink
  paired : start.sink.state.checkpointKeys.length = start.sink.state.records.length
  jobStartFirst : JobStartFirst next definitionsMatch start

structure Corresponds (start running base : Running Identity Runtime) : Prop where
  reached : ∃ count, uninterrupted next definitionsMatch start count = some base
  runtime : running.runtime = base.runtime
  history : SameHistory running.sink.state base.sink.state
  reaches : start.sink.state.Reaches base.sink.state
  detached : ∀ key, running.sink.retained.detachedCheckpointAt key =
    start.sink.retained.detachedCheckpointAt key
  baseDetached : ∀ key, base.sink.retained.detachedCheckpointAt key =
    start.sink.retained.detachedCheckpointAt key
  rooted : Rooted (Reached next definitionsMatch start) running.sink
  paired : running.sink.state.checkpointKeys.length = running.sink.state.records.length

variable {next definitionsMatch}

variable {running : Running Identity Runtime}

theorem proceed_eq_some {after : Running Identity Runtime}
    (step : proceed next definitionsMatch running = some after) :
    running.sink.stopRequested = false ∧ ∃ captured, next running.runtime = some captured ∧
      after = { runtime := captured.runtime
                sink := running.sink.publish definitionsMatch captured } := by
  simp only [proceed] at step
  split at step
  next => contradiction
  next running =>
    obtain ⟨captured, ran, rfl⟩ := Option.map_eq_some_iff.mp step
    exact ⟨by simpa using running, captured, ran, rfl⟩

theorem paired_publish {sink : LiveHistorySink Identity Runtime}
    {captured : EngineCheckpoint Identity Runtime}
    (paired : sink.state.checkpointKeys.length = sink.state.records.length)
    (spared : LiveHistorySink.EvidenceSpared (sink.checkpoint definitionsMatch captured)) :
    (sink.publish definitionsMatch captured).state.checkpointKeys.length =
      (sink.publish definitionsMatch captured).state.records.length := by
  have published : (sink.checkpoint definitionsMatch captured).state.checkpointKeys.length =
      (sink.checkpoint definitionsMatch captured).state.records.length := by
    rw [(sink.sameRows_checkpoint definitionsMatch captured).records]
    obtain ⟨_, _, ⟨_, keys, _⟩ | ⟨_, keys, _⟩⟩ :=
      Rooted.checkpoint_anchors definitionsMatch sink captured
    · simp [keys, LiveHistorySink.publishedState, paired]
    · simp [keys, LiveHistorySink.publishedState, paired]
  exact @LiveHistorySink.EvidenceSpared.rounds_induction _ _
    (fun next => next.state.checkpointKeys.length = next.state.records.length)
    (fun next victim same => by simpa [LiveHistorySink.releaseRestart] using same) _ spared
    published _

theorem Corresponds.proceed {start running base after : Running Identity Runtime}
    (prepared : Prepared next definitionsMatch start) (spared : Spared next definitionsMatch start)
    (corresponds : Corresponds next definitionsMatch start running base)
    (step : Running.proceed next definitionsMatch running = some after)
    (sparedHere : ∀ captured, next running.runtime = some captured →
      LiveHistorySink.EvidenceSpared (running.sink.checkpoint definitionsMatch captured)) :
    ∃ follower, Corresponds next definitionsMatch start after follower := by
  obtain ⟨unstopped, captured, ran, rfl⟩ := proceed_eq_some step
  obtain ⟨⟨count, reached⟩, runtime, history, reaches, detached, baseDetached, rooted, paired⟩ :=
    corresponds
  have baseUnstopped : base.sink.stopRequested = false := by
    simpa [LiveHistorySink.stopRequested, convergenceMatch, history.convergence] using unstopped
  have baseRan : next base.runtime = some captured := by rw [← runtime, ran]
  have here := sparedHere captured ran
  have there := spared count base captured reached baseUnstopped baseRan
  have hereRows := SameHistory.of_sameRows
    (here.sameRows_releaseAll.trans (running.sink.sameRows_checkpoint definitionsMatch captured))
  have thereRows := SameHistory.of_sameRows
    (there.sameRows_releaseAll.trans (base.sink.sameRows_checkpoint definitionsMatch captured))
  have published := history.publishedState definitionsMatch
    (fun key => (detached key).trans (baseDetached key).symm) captured
  have follows : uninterrupted next definitionsMatch start (count + 1) =
      some { runtime := captured.runtime, sink := base.sink.publish definitionsMatch captured } := by
    simp [uninterrupted, reached, Running.proceed, baseUnstopped, baseRan]
  refine ⟨{ runtime := captured.runtime, sink := base.sink.publish definitionsMatch captured },
    ⟨count + 1, follows⟩, rfl, ?_, ?_, ?_, ?_, ?_, ?_⟩
  · exact (hereRows.trans published).trans thereRows.symm
  · exact LiveHistoryState.Reaches.congr thereRows (reaches.publish definitionsMatch baseUnstopped)
  · intro key
    rw [detached_publish, detached]
  · intro key
    rw [detached_publish, baseDetached]
  · have first : captured.boundary = .jobStart → running.sink.state.records = [] := by
      intro isStart
      rw [history.records]
      exact prepared.jobStartFirst count base captured reached baseRan isStart
    refine (rooted.publish paired ?_ first).releaseAll here
    refine ⟨count + 1, _, follows, ?_, rfl⟩
    exact thereRows.records.trans published.records.symm
  · exact paired_publish paired here

variable {start : Running Identity Runtime}

theorem Prepared.corresponds (prepared : Prepared next definitionsMatch start) :
    Corresponds next definitionsMatch start start start :=
  ⟨⟨0, rfl⟩, rfl, .of_sameRows (.refl _), prepared.initial.reaches, fun _ => rfl, fun _ => rfl,
    prepared.rooted, prepared.paired⟩

variable {count : Nat} {base : Running Identity Runtime}

theorem Prepared.uninterrupted_corresponds (prepared : Prepared next definitionsMatch start)
    (spared : Spared next definitionsMatch start)
    (reached : uninterrupted next definitionsMatch start count = some base) :
    Corresponds next definitionsMatch start base base := by
  induction count generalizing base with
  | zero =>
    cases reached
    exact prepared.corresponds
  | succ count ih => ?_
  obtain ⟨before, earlier, step⟩ := Option.bind_eq_some_iff.mp reached
  have here : ∀ captured, next before.runtime = some captured →
      LiveHistorySink.EvidenceSpared (before.sink.checkpoint definitionsMatch captured) :=
    fun captured ran =>
      spared count before captured earlier (proceed_eq_some step).1 ran
  obtain ⟨follower, ⟨_, _, history, reaches, detached, _, rooted, paired⟩⟩ :=
    (ih earlier).proceed prepared spared step here
  exact ⟨⟨count + 1, reached⟩, rfl, .of_sameRows (.refl _), reaches.congr history,
    detached, detached, rooted, paired⟩

/-- A declined resource brings the run back to a state of the uninterrupted run
when no compared row is kept. -/
theorem Corresponds.decline {start running base after : Running Identity Runtime}
    (prepared : Prepared next definitionsMatch start) (spared : Spared next definitionsMatch start)
    (corresponds : Corresponds next definitionsMatch start running base)
    (unstopped : running.sink.stopRequested = false) (step : running.decline = some after)
    (uncompared : ∀ comparison anchor, start.sink.state.convergence = some comparison →
      running.sink.state.latestReplayAnchor = some anchor → comparedRows comparison.restart
        (running.sink.state.records.take (running.sink.state.keptRecords anchor.slot)) = []) :
    ∃ earlier, Corresponds next definitionsMatch start after earlier := by
  obtain ⟨_, _, history, reaches, detached, _, rooted, paired⟩ := corresponds
  simp only [Running.decline, Option.bind_eq_bind, Option.bind_eq_some_iff] at step
  obtain ⟨anchor, latest, root, held, result⟩ := step
  cases result
  have returns : running.sink.state.keptRecords anchor.slot ≤ running.sink.state.records.length ∧
      (running.sink.state.currentCandidateReplayAnchor = none →
        0 < running.sink.state.keptRecords anchor.slot) ∧
      Reached next definitionsMatch start
        (running.sink.state.records.take (running.sink.state.keptRecords anchor.slot))
        root.runtime := by
    rcases latestReplayAnchor_cases latest with
      ⟨index, slot, key⟩ | ⟨slot, key⟩ | ⟨slot, noCurrent, key⟩
    · have inside : index < running.sink.state.records.length := by
        rw [← paired]
        exact (List.getElem?_eq_some_iff.mp key).1
      obtain ⟨found, present, back⟩ := rooted.history index anchor.key key
      obtain rfl : found = root := by simpa [present] using held
      simp only [slot, keptRecords, Nat.min_eq_left (Nat.succ_le_of_lt inside)]
      exact ⟨inside, fun _ => Nat.succ_pos index, back⟩
    · obtain ⟨found, present, back⟩ := rooted.current anchor.key key
      obtain rfl : found = root := by simpa [present] using held
      simp only [slot, keptRecords, List.take_zero]
      exact ⟨Nat.zero_le _, fun none => by simp [none] at key, back⟩
    obtain ⟨found, present, back, first, head, boundary⟩ :=
      rooted.jobStart noCurrent anchor.key key
    obtain rfl : found = root := by simpa [present] using held
    cases rows : running.sink.state.records with
    | nil => simp [rows] at head
    | cons row later => ?_
    obtain rfl : row = first := by simpa [rows] using head
    have kept : running.sink.state.keptRecords anchor.slot = 1 := by
      simp [slot, keptRecords, rows, List.findIdx?_cons, boundary]
    rw [kept, ← rows]
    exact ⟨by simp [rows], fun _ => Nat.one_pos, back⟩
  obtain ⟨within, nonempty, count, earlier, reached, rows, runtime⟩ := returns
  have there := prepared.uninterrupted_corresponds spared reached
  have current : start.sink.state.Reaches running.sink.state := reaches.congr history
  have again : SameHistory (running.sink.rewindAfterAnchor anchor.slot).state earlier.sink.state :=
    there.reaches.rewound prepared.initial current unstopped rows fun comparison live => by
      rw [rows]
      exact uncompared comparison anchor live latest
  obtain ⟨rewound, rewoundPaired⟩ := rooted.rewind paired within nonempty
  refine ⟨earlier, ⟨count, reached⟩, runtime.symm, again, there.reaches, ?_, there.baseDetached,
    rewound, rewoundPaired⟩
  intro key
  rw [detached_rewindAfterAnchor, detached]

variable (next definitionsMatch) in
/-- The condition on one step under which a schedule stays transparent. It asks
for nothing as long as no resource was declined. -/
def Transparent (start : Running Identity Runtime) (events : List ScheduleEvent)
    (running : Running Identity Runtime) (event : ScheduleEvent) : Prop :=
  .decline ∈ events ++ [event] →
    Spared next definitionsMatch start ∧
      match event with
      | .proceed =>
        ∀ captured, next running.runtime = some captured →
          LiveHistorySink.EvidenceSpared (running.sink.checkpoint definitionsMatch captured)
      | .decline =>
        ∀ comparison anchor, start.sink.state.convergence = some comparison →
          running.sink.state.latestReplayAnchor = some anchor →
          comparedRows comparison.restart
            (running.sink.state.records.take (running.sink.state.keptRecords anchor.slot)) = []

variable {events : List ScheduleEvent}

/-- In a run of transparent steps every state agrees with a state of the
uninterrupted run. -/
theorem Scheduled.tracks (prepared : Prepared next definitionsMatch start)
    (run : Scheduled next definitionsMatch (Transparent next definitionsMatch start) start events
      running) : (.decline ∉ events ∧
        ∃ count, uninterrupted next definitionsMatch start count = some running) ∨
      (.decline ∈ events ∧ Spared next definitionsMatch start ∧
        ∃ base, Corresponds next definitionsMatch start running base) := by
  induction run with
  | start => exact .inl ⟨by simp, 0, rfl⟩
  | @proceed events running after _ safe step ih =>
    rcases ih with ⟨undeclined, count, reached⟩ | ⟨declined, spared, base, corresponds⟩
    · refine .inl ⟨by simpa using undeclined, count + 1, ?_⟩
      simp [uninterrupted, reached, step]
    exact .inr ⟨by simp [declined], spared, corresponds.proceed prepared spared step
      (safe (by simp [declined])).2⟩
  | @decline events running after _ safe unstopped step ih => ?_
  obtain ⟨spared, uncompared⟩ := safe (by simp)
  have agrees : ∃ base, Corresponds next definitionsMatch start running base := by
    rcases ih with ⟨_, count, reached⟩ | ⟨_, _, base, corresponds⟩
    · exact ⟨running, prepared.uninterrupted_corresponds spared reached⟩
    · exact ⟨base, corresponds⟩
  obtain ⟨base, corresponds⟩ := agrees
  exact .inr ⟨by simp, spared, corresponds.decline prepared spared unstopped step uncompared⟩

/-- Two runs that stand at the same place: the same runtime, rows, counters and
convergence cursor. -/
structure Agrees (running base : Running Identity Runtime) : Prop where
  runtime : running.runtime = base.runtime
  history : SameHistory running.sink.state base.sink.state

theorem Agrees.finished (agrees : Agrees running base)
    (ended : finished next definitionsMatch running) : finished next definitionsMatch base := by
  have stopped : base.sink.stopRequested = running.sink.stopRequested := by
    simp [LiveHistorySink.stopRequested, convergenceMatch, agrees.history.convergence]
  simp only [Running.finished, Running.proceed, stopped, ← agrees.runtime] at ended ⊢
  split at ended
  next stop => rw [if_pos stop]
  next unstopped =>
    rw [if_neg unstopped]
    simpa using ended

theorem uninterrupted_none_of_finished
    (reached : uninterrupted next definitionsMatch start count = some base)
    (ended : finished next definitionsMatch base) (further : Nat) :
    uninterrupted next definitionsMatch start (count + 1 + further) = none := by
  induction further with
  | zero =>
    have stuck : Running.proceed next definitionsMatch base = none := ended
    simp [uninterrupted, reached, stuck]
  | succ further ih =>
    rw [← Nat.add_assoc, uninterrupted, ih]
    rfl

theorem uninterrupted_end_unique {base other : Running Identity Runtime} {otherCount : Nat}
    (reached : uninterrupted next definitionsMatch start count = some base)
    (ended : finished next definitionsMatch base)
    (otherReached : uninterrupted next definitionsMatch start otherCount = some other)
    (otherEnded : finished next definitionsMatch other) : base = other := by
  rcases Nat.lt_trichotomy count otherCount with before | same | after
  · have gone := uninterrupted_none_of_finished reached ended (otherCount - (count + 1))
    rw [show count + 1 + (otherCount - (count + 1)) = otherCount by omega, otherReached] at gone
    contradiction
  · subst same
    simpa [reached] using otherReached
  have gone := uninterrupted_none_of_finished otherReached otherEnded (count - (otherCount + 1))
  rw [show otherCount + 1 + (count - (otherCount + 1)) = count by omega, reached] at gone
  contradiction

theorem Scheduled.agrees (prepared : Prepared next definitionsMatch start)
    (run : Scheduled next definitionsMatch (Transparent next definitionsMatch start) start events
      running) : ∃ count base, uninterrupted next definitionsMatch start count = some base ∧
      Agrees running base := by
  rcases run.tracks prepared with ⟨_, count, reached⟩ | ⟨_, _, base, corresponds⟩
  · exact ⟨count, running, reached, rfl, .of_sameRows (.refl _)⟩
  obtain ⟨count, reached⟩ := corresponds.reached
  exact ⟨count, base, reached, corresponds.runtime, corresponds.history⟩

end Running

end Schedules

end Umber.Incr
