import Umber.Incr.Session
import Umber.Incr.HistoryProperties

/-! What publication, budget releases and rewinds do to the rows of a live
history. -/

set_option autoImplicit false

namespace Umber.Incr

open LiveHistoryState

namespace LiveHistorySink

variable {Identity Runtime : Type}

structure SameRows (left right : LiveHistoryState Identity) : Prop where
  records : left.records = right.records
  occurrences : left.occurrences = right.occurrences
  paragraphs : left.paragraphs = right.paragraphs
  convergence : left.convergence = right.convergence
  revision : left.revision = right.revision

theorem SameRows.refl (state : LiveHistoryState Identity) : SameRows state state :=
  ⟨rfl, rfl, rfl, rfl, rfl⟩

theorem SameRows.trans {first second third : LiveHistoryState Identity}
    (left : SameRows first second) (right : SameRows second third) : SameRows first third :=
  ⟨left.records.trans right.records, left.occurrences.trans right.occurrences,
    left.paragraphs.trans right.paragraphs, left.convergence.trans right.convergence,
    left.revision.trans right.revision⟩

theorem sameRows_releaseRestart (sink : LiveHistorySink Identity Runtime) (victim : Nat) :
    SameRows (sink.releaseRestart victim).state sink.state :=
  ⟨rfl, rfl, rfl, rfl, rfl⟩

/-- Releases leave the rows set aside by the fork as they are. -/
theorem detached_releaseKey {lane next : BoundaryLane Identity Runtime} {record : Nat}
    (released : lane.releaseKey record = .ok next) (key : BoundaryKey) :
    next.detachedCheckpointAt key = lane.detachedCheckpointAt key := by
  simp only [BoundaryLane.releaseKey] at released
  split at released
  next => contradiction
  split at released
  next => contradiction
  cases released
  simp only [BoundaryLane.detachedCheckpointAt, BoundaryLane.removeVisible]
  cases lane.ownership with
  | accepted rows => rfl
  | forked kept detachedPrior current =>
    cases present : kept.any fun cell => cell.record = record <;> simp [present]

theorem detached_releaseRestart (sink : LiveHistorySink Identity Runtime) (victim : Nat)
    (key : BoundaryKey) : (sink.releaseRestart victim).retained.detachedCheckpointAt key =
      sink.retained.detachedCheckpointAt key := by
  simp only [releaseRestart]
  split
  next record =>
    split
    next lane released => exact detached_releaseKey released key
    next => rfl
  next => rfl

/-- Dropping restart roots alone meets the budget, or no more than two rows are
held. -/
inductive EvidenceSpared : LiveHistorySink Identity Runtime → Prop where
  | met {sink : LiveHistorySink Identity Runtime} :
      sink.state.retainedBytes ≤ sink.state.checkpointBudget → EvidenceSpared sink
  | few {sink : LiveHistorySink Identity Runtime} :
      sink.state.restartVictim = none → sink.state.records.length ≤ 2 → EvidenceSpared sink
  | release {sink : LiveHistorySink Identity Runtime} {victim : Nat} :
      sink.state.restartVictim = some victim → EvidenceSpared (sink.releaseRestart victim) →
      EvidenceSpared sink

/-- What dropping a restart root keeps, the release loop keeps when it spares the
evidence rows. -/
theorem EvidenceSpared.rounds_induction {motive : LiveHistorySink Identity Runtime → Prop}
    (restart : ∀ sink victim, motive sink → motive (sink.releaseRestart victim))
    {sink : LiveHistorySink Identity Runtime} (spared : EvidenceSpared sink) (holds : motive sink)
    (fuel : Nat) : motive (releaseRounds fuel sink) := by
  induction spared generalizing fuel with
  | @met sink within =>
    cases fuel with
    | zero => exact holds
    | succ fuel => ?_
    have done : sink.releaseRound = none := by simp [releaseRound, Nat.not_lt.mpr within]
    simpa only [releaseRounds, done] using holds
  | @few sink noVictim few =>
    cases fuel with
    | zero => exact holds
    | succ fuel => ?_
    have done : sink.releaseRound = none := by simp [releaseRound, noVictim, evidenceVictim, few]
    simpa only [releaseRounds, done] using holds
  | @release sink victim chosen _ ih => ?_
  cases fuel with
  | zero => exact holds
  | succ fuel => ?_
  simp only [releaseRounds, releaseRound, chosen]
  by_cases exceeds : sink.state.checkpointBudget < sink.state.retainedBytes
  · simp only [exceeds, if_true]
    exact ih (restart sink victim holds) fuel
  · simpa only [exceeds, if_false] using holds

theorem EvidenceSpared.sameRows_releaseAll {sink : LiveHistorySink Identity Runtime}
    (spared : EvidenceSpared sink) : SameRows sink.releaseAll.state sink.state := by
  obtain ⟨records, occurrences, paragraphs, convergence, revision⟩ :=
    @EvidenceSpared.rounds_induction _ _ (fun next => SameRows next.state sink.state)
      (fun next victim same => (sameRows_releaseRestart next victim).trans same) sink spared
      (.refl _) sink.releaseFuel
  exact ⟨records, occurrences, paragraphs, convergence, revision⟩

/-- The first release of a candidate finds nothing to release. -/
theorem evidenceSpared_inherit (revision recordBytes checkpointBudget : Nat)
    (convergence : Option (LiveConvergence Identity)) (inherited : InheritedBoundary Identity)
    (lane : BoundaryLane Identity Runtime) :
    EvidenceSpared
      { state := (new revision recordBytes checkpointBudget
          convergence).inheritBoundary inherited
        retained := lane } := by
  refine .few ?_ ?_
  · simp only [restartVictim, firstFrom,
      inheritBoundary, new]
    split <;> simp
  simp only [inheritBoundary, new]
  split <;> simp

/-- A round drops one restart root or one evidence row. -/
theorem releaseRound_some {sink next : LiveHistorySink Identity Runtime}
    (round : sink.releaseRound = some next) :
    ∃ victim, next = sink.releaseRestart victim ∨ next = sink.pruneEvidence victim := by
  simp only [releaseRound] at round
  split at round
  next =>
    split at round
    next victim _ => exact ⟨victim, .inl (Option.some.inj round).symm⟩
    obtain ⟨victim, _, rfl⟩ := Option.map_eq_some_iff.mp round
    exact ⟨victim, .inr rfl⟩
  next => contradiction

/-- What every single release keeps, the whole release loop keeps. -/
theorem releaseRounds_induction {motive : LiveHistorySink Identity Runtime → Prop}
    (restart : ∀ sink victim, motive sink → motive (sink.releaseRestart victim))
    (evidence : ∀ sink victim, motive sink → motive (sink.pruneEvidence victim))
    (fuel : Nat) {sink : LiveHistorySink Identity Runtime} (holds : motive sink) :
    motive (releaseRounds fuel sink) := by
  induction fuel generalizing sink with
  | zero => exact holds
  | succ fuel ih => ?_
  simp only [releaseRounds]
  split
  next => exact holds
  next next round =>
    obtain ⟨victim, rfl | rfl⟩ := releaseRound_some round
    · exact ih (restart sink victim holds)
    · exact ih (evidence sink victim holds)

theorem detached_releaseRounds (fuel : Nat) (sink : LiveHistorySink Identity Runtime)
    (key : BoundaryKey) : (releaseRounds fuel sink).retained.detachedCheckpointAt key =
      sink.retained.detachedCheckpointAt key := by
  refine @releaseRounds_induction _ _ (fun next =>
    next.retained.detachedCheckpointAt key = sink.retained.detachedCheckpointAt key)
    ?_ ?_ fuel sink rfl
  · intro next victim same
    rw [detached_releaseRestart, same]
  intro next victim same
  exact same

theorem convergence_releaseAll (sink : LiveHistorySink Identity Runtime) :
    sink.releaseAll.state.convergence = sink.state.convergence :=
  @releaseRounds_induction _ _ (fun next => next.state.convergence = sink.state.convergence)
    (fun _ _ same => same) (fun _ _ same => same) sink.releaseFuel sink rfl

theorem detached_releaseSuffix (count : Nat) (sink : LiveHistorySink Identity Runtime)
    (key : BoundaryKey) : (sink.releaseSuffix count).retained.detachedCheckpointAt key =
      sink.retained.detachedCheckpointAt key := by
  induction count generalizing sink with
  | zero => rfl
  | succ count ih => ?_
  simp only [releaseSuffix]
  rw [ih]
  exact detached_releaseRestart sink _ key

theorem sameRows_releaseSuffix (count : Nat) (sink : LiveHistorySink Identity Runtime) :
    SameRows (sink.releaseSuffix count).state sink.state := by
  induction count generalizing sink with
  | zero => exact .refl _
  | succ count ih => exact (ih _).trans ⟨rfl, rfl, rfl, rfl, rfl⟩

theorem sameRows_rewindAfterAnchor (sink : LiveHistorySink Identity Runtime)
    (slot : ReplayAnchorSlot) :
    SameRows (sink.rewindAfterAnchor slot).state
      { sink.state with
        records := sink.state.records.take (sink.state.keptRecords slot)
        paragraphs := paragraphCount (sink.state.records.take (sink.state.keptRecords slot))
        occurrences := occurrencesOf
          (sink.state.records.take (sink.state.keptRecords slot))
        convergence := sink.state.convergence.map fun comparison =>
          rewindConvergence comparison (rewindSource sink.state slot) } := by
  obtain ⟨records, _, _, convergence, revision⟩ := sameRows_releaseSuffix
    (sink.state.checkpointKeys.length - sink.state.keptRecords slot) sink
  simp only [rewindAfterAnchor]
  exact ⟨by simp only [records], by simp only [records], by simp only [records],
    by simp only [convergence], revision⟩

theorem rewindSource_eq_none {state : LiveHistoryState Identity}
    (unmatched : ∀ record ∈ state.records, record.directConvergenceSource = none)
    (slot : ReplayAnchorSlot) : rewindSource state slot = none := by
  cases slot with
  | jobStart => rfl
  | currentCandidate => rfl
  | history index => ?_
  simp only [rewindSource]
  cases present : state.records[index]? with
  | none => rfl
  | some record => exact unmatched record (List.mem_of_getElem? present)

theorem detached_rewindAfterAnchor (sink : LiveHistorySink Identity Runtime)
    (slot : ReplayAnchorSlot) (key : BoundaryKey) :
    (sink.rewindAfterAnchor slot).retained.detachedCheckpointAt key =
      sink.retained.detachedCheckpointAt key := by
  simp only [rewindAfterAnchor]
  exact detached_releaseSuffix _ sink key

end LiveHistorySink

variable {Identity Runtime : Type}

namespace LiveHistoryState

theorem nextOrdinal_setOrdinal (occurrences : List ((Nat × EngineBoundary) × Nat))
    (place other : Nat × EngineBoundary) (next : Nat) :
    nextOrdinal (setOrdinal occurrences place next) other =
      if other = place then next else nextOrdinal occurrences other := by
  by_cases same : other = place
  · simp [nextOrdinal, setOrdinal, same]
  have apart : (other == place) = false := by simpa using same
  simp only [nextOrdinal, setOrdinal, List.lookup_cons, apart, same, if_false]
  congr 1
  induction occurrences with
  | nil => rfl
  | cons entry occurrences ih => ?_
  obtain ⟨listed, ordinal⟩ := entry
  by_cases dropped : listed = place
  · rw [List.filter_cons_of_neg (by simp [dropped]), ih, List.lookup_cons, dropped, apart]
  · rw [List.filter_cons_of_pos (by simp [dropped]), List.lookup_cons, List.lookup_cons, ih]

/-- Every recorded key has an ordinal below the next one of its place. -/
def Numbered (occurrences : List ((Nat × EngineBoundary) × Nat))
    (records : List (BoundaryRecord Identity)) : Prop :=
  ∀ record ∈ records,
    record.key.ordinal < nextOrdinal occurrences (record.key.position, record.key.boundary)

theorem numbered_occurrencesOf (records : List (BoundaryRecord Identity)) :
    Numbered (occurrencesOf records) records := by
  suffices general : ∀ occurrences : List ((Nat × EngineBoundary) × Nat),
      ∀ earlier later : List (BoundaryRecord Identity), Numbered occurrences earlier →
      Numbered (later.foldl
        (fun occurrences record =>
          let place := (record.key.position, record.key.boundary)
          setOrdinal occurrences place
            (max (nextOrdinal occurrences place) (record.key.ordinal + 1)))
        occurrences) (earlier ++ later) by
    simpa [occurrencesOf] using general [] [] records (by simp [Numbered])
  intro occurrences earlier later numbered
  induction later generalizing occurrences earlier with
  | nil => simpa using numbered
  | cons first later ih => ?_
  have joined : earlier ++ first :: later = (earlier ++ [first]) ++ later := by simp
  rw [joined, List.foldl_cons]
  apply ih
  intro record member
  rw [nextOrdinal_setOrdinal]
  rcases List.mem_append.mp member with old | new
  · have below := numbered record old
    split
    next same =>
      rw [same] at below
      omega
    next => exact below
  obtain rfl := List.mem_singleton.mp new
  rw [if_pos rfl]
  omega

end LiveHistoryState

def LiveHistoryState.publishedKey (state : LiveHistoryState Identity)
    (captured : EngineCheckpoint Identity Runtime) : BoundaryKey where
  position := captured.rootAnchor
  boundary := captured.boundary
  ordinal := nextOrdinal state.occurrences (captured.rootAnchor, captured.boundary)

/-- One step of the live matcher: the accepted key it compares with, and the
matcher behind it. -/
def LiveConvergence.target (comparison : LiveConvergence Identity) (fresh : Bool)
    (key : BoundaryKey) : Option BoundaryKey × LiveConvergence Identity :=
  if comparison.matched.isSome || comparison.scheduleDiverged then (none, comparison)
  else if fresh && key == comparison.restart then (none, comparison)
  else
    match comparison.accepted[comparison.nextOld]? with
    | none => (none, { comparison with scheduleDiverged := true })
    | some old =>
      if mappedKey comparison.edit old.key = some key then
        (some old.key, { comparison with nextOld := comparison.nextOld + 1 })
      else (none, { comparison with scheduleDiverged := true })

def LiveHistoryState.comparedWith (state : LiveHistoryState Identity) (key : BoundaryKey) :
    Option BoundaryKey :=
  state.convergence.bind fun comparison => (comparison.target state.records.isEmpty key).1

/-- The matcher once a boundary was compared and, with a source, matched. -/
def LiveHistoryState.convergenceBehind (state : LiveHistoryState Identity) (key : BoundaryKey)
    (source : Option BoundaryKey) : Option (LiveConvergence Identity) :=
  state.convergence.map fun comparison =>
    let walked := (comparison.target state.records.isEmpty key).2
    match source with
    | some old => { walked with matched := some (old, key) }
    | none => walked

inductive LiveConvergence.Walks (comparison : LiveConvergence Identity) (fresh : Bool)
    (key : BoundaryKey) : Option BoundaryKey → LiveConvergence Identity → Prop where
  | stuck : comparison.scheduleDiverged = true → Walks comparison fresh key none comparison
  | restart : fresh = true → key = comparison.restart → Walks comparison fresh key none comparison
  | diverges : Walks comparison fresh key none { comparison with scheduleDiverged := true }
  | advances {old : BoundaryRecord Identity} :
      (fresh = true → key ≠ comparison.restart) → comparison.scheduleDiverged = false →
      comparison.accepted[comparison.nextOld]? = some old →
      mappedKey comparison.edit old.key = some key →
      Walks comparison fresh key (some old.key)
        { comparison with nextOld := comparison.nextOld + 1 }

theorem LiveConvergence.target_walks {comparison : LiveConvergence Identity}
    (running : comparison.matched = none) (fresh : Bool) (key : BoundaryKey) :
    comparison.Walks fresh key (comparison.target fresh key).1 (comparison.target fresh key).2 := by
  unfold LiveConvergence.target
  by_cases stuck : comparison.scheduleDiverged = true
  · rw [if_pos (by simp [stuck])]
    exact .stuck stuck
  rw [if_neg (by simp [running, stuck])]
  by_cases atRestart : fresh = true ∧ key = comparison.restart
  · rw [if_pos (by simp [atRestart.1, atRestart.2])]
    exact .restart atRestart.1 atRestart.2
  rw [if_neg (by simpa using atRestart)]
  cases accepted : comparison.accepted[comparison.nextOld]? with
  | none => exact .diverges
  | some old => ?_
  by_cases mapped : mappedKey comparison.edit old.key = some key
  · simp only [mapped, if_true]
    exact .advances (fun isFresh same => atRestart ⟨isFresh, same⟩) (by simpa using stuck)
      accepted mapped
  simp only [mapped, if_false]
  exact .diverges

theorem convergenceTarget_eq (state : LiveHistoryState Identity)
    (record : BoundaryRecord Identity) : state.convergenceTarget record =
      (state.comparedWith record.key,
        { state with convergence := state.convergenceBehind record.key none }) := by
  unfold convergenceTarget comparedWith convergenceBehind
  cases present : state.convergence with
  | none =>
    cases state
    simp only at present
    subst present
    rfl
  | some comparison => ?_
  simp only [LiveConvergence.target, Option.bind_some, Option.map_some]
  split
  next => simp [← present]
  split
  next => simp [← present]
  cases comparison.accepted[comparison.nextOld]? with
  | none => rfl
  | some old => ?_
  cases mapped : mappedKey comparison.edit old.key with
  | none => simp [mapped]
  | some key => ?_
  by_cases same : key = record.key
  · simp [mapped, same]
  · simp [mapped, same]

/-- The root set aside under the key of the accepted row that is compared next is
the root of that row. -/
def LiveHistorySink.ComparesOwnRoot (sink : LiveHistorySink Identity Runtime) : Prop :=
  ∀ comparison old prior, sink.state.convergence = some comparison →
    comparison.accepted[comparison.nextOld]? = some old →
    sink.retained.detachedCheckpointAt old.key = some prior →
    prior.reachableStateIdentity = old.reachableStateIdentity

namespace LiveHistorySink

variable [DecidableEq Identity]

def directSource (definitionsMatch : Runtime → Runtime → Bool)
    (sink : LiveHistorySink Identity Runtime) (captured : EngineCheckpoint Identity Runtime) :
    Option BoundaryKey :=
  matchPrior definitionsMatch sink captured
    (sink.state.comparedWith (sink.state.publishedKey captured))

variable {sink : LiveHistorySink Identity Runtime}

theorem directSource_some {definitionsMatch : Runtime → Runtime → Bool}
    {captured : EngineCheckpoint Identity Runtime} {old : BoundaryKey}
    (source : sink.directSource definitionsMatch captured = some old) :
    sink.state.comparedWith (sink.state.publishedKey captured) = some old ∧
      ∃ prior : EngineCheckpoint Identity Runtime,
        sink.retained.detachedCheckpointAt old = some prior ∧
          captured.reachableStateIdentity = prior.reachableStateIdentity ∧
          captured.reachableStateIdentity.isSome = true := by
  simp only [directSource, matchPrior, Option.filter_eq_some_iff, Option.any_eq_true] at source
  obtain ⟨compared, prior, root, matched⟩ := source
  simp only [reachableStateMatches, Bool.and_eq_true, beq_iff_eq] at matched
  exact ⟨compared, prior, root, matched.1.2, matched.1.1⟩

def publishedRecord (definitionsMatch : Runtime → Runtime → Bool)
    (sink : LiveHistorySink Identity Runtime) (captured : EngineCheckpoint Identity Runtime) :
    BoundaryRecord Identity where
  revision := sink.state.revision
  key := sink.state.publishedKey captured
  effectPrefix := captured.effectPrefixLen
  artifactPrefix := captured.artifactPrefixLen
  reachableStateIdentity := captured.reachableStateIdentity
  directConvergenceSource := sink.directSource definitionsMatch captured

def publishedState (definitionsMatch : Runtime → Runtime → Bool)
    (sink : LiveHistorySink Identity Runtime) (captured : EngineCheckpoint Identity Runtime) :
    LiveHistoryState Identity :=
  let key := sink.state.publishedKey captured
  { sink.state with
    records := sink.state.records ++ [sink.publishedRecord definitionsMatch captured]
    occurrences :=
      setOrdinal sink.state.occurrences (key.position, key.boundary)
        (key.ordinal + 1)
    paragraphs :=
      if captured.boundary = .outerParagraphEnd then sink.state.paragraphs + 1
      else sink.state.paragraphs
    convergence :=
      sink.state.convergenceBehind key (sink.directSource definitionsMatch captured) }

omit [DecidableEq Identity] in
theorem publishedKey_notMem
    (numbered : LiveHistoryState.Numbered sink.state.occurrences sink.state.records)
    (captured : EngineCheckpoint Identity Runtime) :
    sink.state.publishedKey captured ∉ sink.state.records.map (·.key) := by
  intro member
  obtain ⟨record, present, same⟩ := List.mem_map.mp member
  have below := numbered record present
  simp only [same, publishedKey] at below
  omega

variable (definitionsMatch : Runtime → Runtime → Bool)
include definitionsMatch

theorem numbered_publishedState
    (numbered : LiveHistoryState.Numbered sink.state.occurrences sink.state.records)
    (captured : EngineCheckpoint Identity Runtime) :
    LiveHistoryState.Numbered (sink.publishedState definitionsMatch captured).occurrences
      (sink.publishedState definitionsMatch captured).records := by
  intro record member
  simp only [publishedState] at member ⊢
  rw [nextOrdinal_setOrdinal]
  rcases List.mem_append.mp member with old | new
  · have below := numbered record old
    split
    next same =>
      rw [same] at below
      exact Nat.lt_succ_of_lt below
    next => exact below
  obtain rfl := List.mem_singleton.mp new
  rw [if_pos (by rfl)]
  exact Nat.lt_succ_self _

theorem sameRows_checkpoint
    (sink : LiveHistorySink Identity Runtime) (captured : EngineCheckpoint Identity Runtime) :
    SameRows (sink.checkpoint definitionsMatch captured).state
      (sink.publishedState definitionsMatch captured) := by
  simp only [checkpoint, convergenceTarget_eq]
  cases source : sink.directSource definitionsMatch captured with
  | none =>
    have unmatched := source
    simp only [directSource, publishedKey] at unmatched
    simp only [unmatched, publishedState, publishedRecord, source]
    split
    next => exact ⟨rfl, rfl, rfl, rfl, rfl⟩
    next => exact ⟨rfl, rfl, rfl, rfl, rfl⟩
  | some old => ?_
  have matched := source
  simp only [directSource, publishedKey] at matched
  have behind : (Option.map (fun comparison : LiveConvergence Identity =>
        { comparison with matched := some (old, sink.state.publishedKey captured) })
      (sink.state.convergenceBehind (sink.state.publishedKey captured) none)) =
      sink.state.convergenceBehind (sink.state.publishedKey captured) (some old) := by
    simp [convergenceBehind, Function.comp_def]
  simp only [matched, publishedState, publishedRecord, source]
  split
  next => exact ⟨rfl, rfl, rfl, behind, rfl⟩
  next => exact ⟨rfl, rfl, rfl, behind, rfl⟩

theorem detached_checkpoint
    (sink : LiveHistorySink Identity Runtime) (captured : EngineCheckpoint Identity Runtime)
    (key : BoundaryKey) :
    (sink.checkpoint definitionsMatch captured).retained.detachedCheckpointAt key =
      sink.retained.detachedCheckpointAt key := by
  have appended (evidence : RetainedBoundaryEvidence Identity) :
      (sink.retained.appendCell (some captured) evidence).2.detachedCheckpointAt key =
        sink.retained.detachedCheckpointAt key := by
    simp only [BoundaryLane.detachedCheckpointAt, BoundaryLane.appendCell]
    cases sink.retained.ownership <;> rfl
  simp only [checkpoint]
  split
  next => exact appended _
  next => exact appended _

theorem detached_publish
    (sink : LiveHistorySink Identity Runtime) (captured : EngineCheckpoint Identity Runtime)
    (key : BoundaryKey) :
    (sink.publish definitionsMatch captured).retained.detachedCheckpointAt key =
      sink.retained.detachedCheckpointAt key := by
  simp only [publish, releaseAll]
  rw [detached_releaseRounds, detached_checkpoint]

end LiveHistorySink

end Umber.Incr
