import Umber.Incr.SuspensionProperties

/-! Candidates of a session under declined resources. The accepted generations a
session comes to hold have well numbered rows, so a candidate of it starts
prepared. -/

set_option autoImplicit false

namespace Umber.Incr

open LiveHistoryState Running

section Lanes

variable {Identity Runtime : Type} {sink : LiveHistorySink Identity Runtime}

namespace LiveHistorySink

theorem reachable_releaseRestart (sink : LiveHistorySink Identity Runtime) (victim : Nat)
    (reached : sink.retained.Reachable) : (sink.releaseRestart victim).retained.Reachable := by
  simp only [releaseRestart]
  split
  next key _ =>
    split
    next lane released => exact reached.release key released
    next => exact reached
  next => exact reached

theorem reachable_releaseAll (reached : sink.retained.Reachable) :
    sink.releaseAll.retained.Reachable :=
  @releaseRounds_induction _ _ (fun next => next.retained.Reachable)
    reachable_releaseRestart (fun _ _ reached => reached) sink.releaseFuel sink reached

theorem reachable_releaseSuffix (count : Nat) {sink : LiveHistorySink Identity Runtime}
    (reached : sink.retained.Reachable) : (sink.releaseSuffix count).retained.Reachable := by
  induction count generalizing sink with
  | zero => exact reached
  | succ count ih => exact ih (reachable_releaseRestart sink _ reached)

variable [DecidableEq Identity]

theorem reachable_publish (reached : sink.retained.Reachable)
    (definitionsMatch : Runtime → Runtime → Bool) (captured : EngineCheckpoint Identity Runtime) :
    (sink.publish definitionsMatch captured).retained.Reachable := by
  obtain ⟨⟨evidence, lane⟩, _⟩ := Rooted.checkpoint_anchors definitionsMatch sink captured
  refine reachable_releaseAll ?_
  rw [lane]
  exact reached.append _ evidence

end LiveHistorySink

variable [DecidableEq Identity]

theorem CandidateRun.reachable {definitionsMatch : Runtime → Runtime → Bool}
    {condition : LiveHistorySink Identity Runtime → CandidateEvent Identity Runtime → Prop}
    {start : LiveHistorySink Identity Runtime} {events : List (CandidateEvent Identity Runtime)}
    (initially : start.retained.Reachable)
    (run : CandidateRun definitionsMatch condition start events sink) :
    sink.retained.Reachable := by
  induction run with
  | start => exact initially
  | step _ _ stepped ih => ?_
  cases stepped with
  | publish _ => exact LiveHistorySink.reachable_publish ih definitionsMatch _
  | suspend _ _ => exact LiveHistorySink.reachable_releaseSuffix _ ih

end Lanes

namespace Session

variable {Identity Runtime Effect Page : Type}

def GenerationReached (session : Session Identity Runtime Effect Page) : Prop :=
  ∀ prior, session.priorGeneration = some prior → prior.Reachable

variable {session next : Session Identity Runtime Effect Page} {plan : CandidatePlan}
  {transaction : RevisionTransaction Identity Runtime Effect Page}
  {candidate : RevisionCandidate Identity Runtime} {output : AcceptedOutput Effect Page}
  {selected : BoundaryCell Identity Runtime} {root : EngineCheckpoint Identity Runtime}
  {forked : BoundaryLane Identity Runtime} {inherited : InheritedBoundary Identity}
  {convergence : Option (LiveConvergence Identity)}

theorem GenerationReached.startSink
    (reached : session.GenerationReached) (plan : CandidatePlan) (recordBytes budget : Nat) :
    ((session.candidate plan).startSink recordBytes budget).retained.Reachable := by
  have lane : (session.candidate plan).lane.Reachable := by
    unfold candidate
    cases selection : session.selectRestart plan with
    | none => exact .empty
    | some found => ?_
    obtain ⟨selected, root, forked⟩ := found
    simp only [selectRestart, Option.bind_eq_bind, Option.bind_eq_some_iff] at selection
    obtain ⟨prior, generation, _, _, _, _, _, _, begun⟩ := selection
    split at begun
    next fork begins =>
      cases begun
      exact (reached prior generation).fork _ begins
    next => contradiction
  unfold RevisionCandidate.startSink
  split
  next => exact LiveHistorySink.reachable_releaseAll lane
  next => exact lane

theorem GenerationReached.acceptConverged
    {prior : BoundaryLane Identity Runtime} {convergence : BoundaryKey}
    (reached : prior.Reachable) (lane : transaction.lane.Reachable)
    (accepted : session.acceptConverged transaction prior convergence = .ok next) :
    next.GenerationReached := by
  have rejected : (rejectCandidateLane prior transaction.lane).Reachable := by
    unfold rejectCandidateLane
    split
    next => exact lane.reject
    next => exact reached
  simp only [Session.acceptConverged] at accepted
  obtain ⟨edit, _, accepted⟩ := ExceptLib.bind_eq_ok.mp accepted
  obtain ⟨restart, _, accepted⟩ := ExceptLib.bind_eq_ok.mp accepted
  obtain ⟨oldConvergence, _, accepted⟩ := ExceptLib.bind_eq_ok.mp accepted
  obtain ⟨newRecord, _, accepted⟩ := ExceptLib.bind_eq_ok.mp accepted
  split at accepted
  next => contradiction
  rename_i moved rehomed
  obtain ⟨history, _, accepted⟩ := ExceptLib.bind_eq_ok.mp accepted
  cases accepted
  intro generation held
  cases held
  exact rejected.rehome _ rehomed

theorem GenerationReached.accept (reached : session.GenerationReached)
    (lane : transaction.lane.Reachable)
    (accepted : session.acceptRevision transaction = .ok (next, output)) :
    next.GenerationReached := by
  simp only [acceptRevision] at accepted
  split at accepted
  next => contradiction
  split at accepted
  next => contradiction
  split at accepted
  next convergence prior converged held =>
    obtain ⟨rehomed, done, accepted⟩ := ExceptLib.bind_eq_ok.mp accepted
    cases accepted
    exact .acceptConverged (reached prior held) lane done
  cases accepted
  intro generation held
  cases held
  exact lane.accept

/-- The rows of the accepted generation have distinct numbers below the
counter. -/
def RowsNumbered (session : Session Identity Runtime Effect Page) : Prop :=
  ∀ prior : BoundaryLane Identity Runtime, session.priorGeneration = some prior →
    prior.Numbered ∧ (prior.visible.map (·.record)).Nodup

variable {lane : BoundaryLane Identity Runtime}

theorem latestRestartAtOrBefore_mem {position : Nat}
    (latest : lane.latestRestartAtOrBefore position = some selected) :
    selected ∈ lane.visible ∧ selected.evidence.position ≤ position := by
  suffices general : ∀ (rows : List (BoundaryCell Identity Runtime))
      (before : Option (BoundaryCell Identity Runtime)),
      rows.foldl
        (fun selected cell =>
          if cell.checkpoint.isSome && cell.evidence.position ≤ position then some cell
          else selected) before = some selected →
      before = some selected ∨ selected ∈ rows ∧ selected.evidence.position ≤ position by
    simpa using general lane.visible none latest
  intro rows
  induction rows with
  | nil => exact fun before same => .inl same
  | cons cell rows ih => ?_
  intro before folded
  rcases ih _ folded with now | ⟨later, within⟩
  · simp only at now
    split at now
    next accepted =>
      obtain rfl := Option.some.inj now
      simp only [Bool.and_eq_true, decide_eq_true_eq] at accepted
      exact .inr ⟨List.mem_cons_self, accepted.2⟩
    next => exact .inl now
  · exact .inr ⟨List.mem_cons_of_mem _ later, within⟩

/-- A fork keeps the selected root under its number. -/
theorem selectRestart_lane (numbered : session.RowsNumbered)
    (selection : session.selectRestart plan = some (selected, root, forked)) :
    forked.Numbered ∧ forked.rootAt selected.record = some root ∧
      selected.record < forked.nextRecord := by
  simp only [selectRestart, Option.bind_eq_bind, Option.bind_eq_some_iff] at selection
  obtain ⟨prior, generation, limit, _, cell, latest, checkpoint, held, begun⟩ := selection
  obtain ⟨below, distinct⟩ := numbered prior generation
  have member := (latestRestartAtOrBefore_mem latest).1
  split at begun
  next fork begins =>
    cases begun
    simp only [BoundaryLane.begin] at begins
    split at begins
    next => contradiction
    rename_i rows ownership
    have visible : prior.visible = rows := by simp [BoundaryLane.visible, ownership]
    rw [visible] at distinct member
    split at begins
    next => contradiction
    rename_i index found
    cases begins
    obtain ⟨inside, named, first⟩ := List.findIdx?_eq_some_iff_getElem.mp found
    have row : rows[index] = selected :=
      List.inj_on_of_nodup_map distinct (List.getElem_mem inside) member (by simpa using named)
    refine ⟨?_, ?_, below selected (visible ▸ member)⟩
    · intro other present
      refine below other ?_
      rw [visible]
      simp only [BoundaryLane.visible, List.append_nil] at present
      exact List.mem_of_mem_take present
    have sought : (rows.take (index + 1)).find? (fun cell => cell.record = selected.record) =
        some selected := by
      rw [List.find?_eq_some_iff_getElem]
      refine ⟨by simp, index, by rw [List.length_take]; omega, by simp [row], ?_⟩
      intro earlier before
      simpa using first earlier before
    simp [BoundaryLane.rootAt, BoundaryLane.findVisible, BoundaryLane.visible, sought, held]
  next => contradiction

theorem candidate_inherits
    (selection : session.selectRestart plan = some (selected, root, forked)) :
    ∃ inherited, (session.candidate plan).inheritedBoundary = some inherited ∧
      inherited.key = selected.record ∧ (session.candidate plan).checkpoint = some root ∧
      (session.candidate plan).lane = forked ∧
      (inherited.publishRecord = true → (session.candidate plan).liveConvergence = none) := by
  have candidate : (session.candidate plan).lane = forked ∧
      (session.candidate plan).checkpoint = some root ∧
      ∃ inherited, (session.candidate plan).inheritedBoundary = some inherited ∧
        inherited.key = selected.record := by
    simp [candidate, selection]
  obtain ⟨lane, restored, inherited, inherits, key⟩ := candidate
  refine ⟨inherited, inherits, key, restored, lane, ?_⟩
  intro published
  cases started : (session.candidate plan).comparisonStart with
  | none => simp [RevisionCandidate.liveConvergence, started]
  | some place => ?_
  obtain ⟨_, _, _, _, _, _, other, same, unpublished⟩ := candidate_rooted started
  rw [inherits] at same
  cases same
  simp [unpublished] at published

theorem startSink_unrooted
    (unrooted : candidate.inheritedBoundary = none) (unmatched : candidate.liveConvergence = none)
    (recordBytes checkpointBudget : Nat) :
    (candidate.startSink recordBytes checkpointBudget).state.Initial := by
  simp only [RevisionCandidate.startSink, unrooted, new, unmatched]
  exact ⟨fun _ => rfl, rfl, by simp, by simp⟩

theorem liveConvergence_initial
    {comparison : LiveConvergence Identity} (live : candidate.liveConvergence = some comparison) :
    comparison.nextOld = comparison.initialNextOld ∧ comparison.matched = none ∧
      comparison.scheduleDiverged = false := by
  simp only [RevisionCandidate.liveConvergence] at live
  split at live
  next =>
    cases live
    exact ⟨rfl, rfl, rfl⟩
  next => contradiction

theorem inherit_initial (unpublished : inherited.publishRecord = true →
      inherited.evidence.boundary ≠ .outerParagraphEnd)
    (fresh : ∀ comparison, convergence = some comparison →
      inherited.publishRecord = false ∧ comparison.nextOld = comparison.initialNextOld ∧
        comparison.matched = none ∧ comparison.scheduleDiverged = false)
    (revision recordBytes checkpointBudget : Nat) :
    ((new revision recordBytes checkpointBudget convergence).inheritBoundary
      inherited).Initial := by
  cases published : inherited.publishRecord with
  | false =>
    simp only [inheritBoundary, published, new]
    exact ⟨fun _ => rfl, rfl, by simp, fun comparison live => ⟨rfl, (fresh comparison live).2⟩⟩
  | true => ?_
  have boundary : inherited.evidence.key.boundary ≠ .outerParagraphEnd := unpublished published
  simp only [inheritBoundary, published, new, if_true, List.nil_append]
  refine ⟨?_, ?_, by simp, ?_⟩
  · intro place
    simp only [occurrencesOf, List.foldl_cons, List.foldl_nil,
      nextOrdinal_setOrdinal]
    simp [nextOrdinal, RetainedBoundaryEvidence.key]
  · simp [paragraphCount, boundary]
  intro comparison live
  have refused := (fresh comparison live).1
  simp [published] at refused

theorem inherit_rooted {Reached : List (BoundaryRecord Identity) → Runtime → Prop}
    {revision recordBytes checkpointBudget : Nat} (numbered : lane.Numbered)
    (held : lane.rootAt inherited.key = some root) (below : inherited.key < lane.nextRecord)
    (reached : Reached ((new revision recordBytes checkpointBudget
      convergence).inheritBoundary inherited).records root.runtime) :
    Rooted Reached
      { state := (new revision recordBytes checkpointBudget
          convergence).inheritBoundary inherited
        retained := lane } := by
  cases published : inherited.publishRecord with
  | false =>
    simp only [inheritBoundary, published, new, Bool.false_eq_true, if_false] at reached ⊢
    refine ⟨numbered, by simp, by simp, ?_, by simp, ?_, by simp⟩
    · rintro key (member | same | same)
      · simp at member
      · cases same
        exact below
      · simp at same
    intro key same
    cases same
    exact ⟨root, held, reached⟩
  | true => ?_
  simp only [inheritBoundary, published, new, if_true, List.nil_append] at reached ⊢
  have only : ∀ {index key : Nat}, [some inherited.key][index]? = some (some key) →
      index = 0 ∧ key = inherited.key := by
    intro index key stands
    cases index with
    | zero => exact ⟨rfl, by simpa using stands.symm⟩
    | succ index => simp at stands
  refine ⟨numbered, ?_, by simp, ?_, ?_, by simp, by simp⟩
  · exact fun left right key atLeft atRight => (only atLeft).1.trans (only atRight).1.symm
  · rintro key (member | same | same)
    · cases List.mem_singleton.mp member
      exact below
    · simp at same
    · simp at same
  intro index key stands
  obtain ⟨rfl, rfl⟩ := only stands
  exact ⟨root, held, reached⟩

variable [DecidableEq Identity]

/-- The sessions the operations build: one that holds no generation yet, and the
accepted one behind a candidate that was run and prepared. -/
inductive Built : Session Identity Runtime Effect Page → Prop where
  | opened {session : Session Identity Runtime Effect Page} :
      session.priorGeneration = none → Built session
  | accepted {session next : Session Identity Runtime Effect Page} {plan : CandidatePlan}
      {definitionsMatch : Runtime → Runtime → Bool}
      {condition : LiveHistorySink Identity Runtime → CandidateEvent Identity Runtime → Prop}
      {events : List (CandidateEvent Identity Runtime)} {sink : LiveHistorySink Identity Runtime}
      {completion : DetachedEngineCompletion Effect Page}
      {transaction : RevisionTransaction Identity Runtime Effect Page}
      {output : AcceptedOutput Effect Page} :
      Built session →
      CandidateRun definitionsMatch condition
        ((session.candidate plan).startSink session.recordBytes session.checkpointBudget) events
        sink →
      session.prepareRevisionCandidate (session.candidate plan)
        ⟨completion, sink.state.records⟩ sink.retained = .ok transaction →
      session.acceptRevision transaction = .ok (next, output) → Built next

/-- Preparation hands the lane of the candidate over as it is. -/
theorem prepareRevisionCandidate_lane {completed : CandidateCompletion Identity Effect Page}
    (prepared : session.prepareRevisionCandidate candidate completed lane = .ok transaction) :
    transaction.lane = lane := by
  simp only [prepareRevisionCandidate] at prepared
  split at prepared
  next =>
    cases prepared
    rfl
  split at prepared
  next =>
    cases prepared
    rfl
  split at prepared
  next => contradiction
  cases prepared
  rfl

theorem Built.generationReached (built : session.Built) : session.GenerationReached := by
  induction built with
  | opened fresh =>
    intro prior held
    rw [fresh] at held
    cases held
  | accepted _ run prepared accepted ih => ?_
  refine ih.accept ?_ accepted
  rw [prepareRevisionCandidate_lane prepared]
  exact run.reachable (ih.startSink _ _ _)

theorem Built.rowsNumbered (built : session.Built) : session.RowsNumbered := by
  intro prior held
  have numbered := (built.generationReached prior held).wellNumbered
  exact ⟨fun cell member => numbered.below cell (prior.visible_sublist.subset member),
    numbered.distinct.sublist (prior.visible_sublist.map _)⟩

/-- A candidate of a session starts its run prepared. -/
theorem candidate_prepared (numbered : session.RowsNumbered) (jobStart : Runtime)
    (next : Runtime → Option (EngineCheckpoint Identity Runtime))
    (definitionsMatch : Runtime → Runtime → Bool)
    (unpublished : ∀ inherited, (session.candidate plan).inheritedBoundary = some inherited →
      inherited.publishRecord = true → inherited.evidence.boundary ≠ .outerParagraphEnd)
    (first : Running.JobStartFirst next definitionsMatch
      ((session.candidate plan).startRunning jobStart session.recordBytes
        session.checkpointBudget)) : Running.Prepared next definitionsMatch
      ((session.candidate plan).startRunning jobStart session.recordBytes
        session.checkpointBudget) := by
  cases selection : session.selectRestart plan with
  | none =>
    have candidate : (session.candidate plan).inheritedBoundary = none ∧
        (session.candidate plan).liveConvergence = none ∧
        (session.candidate plan).lane = .empty := by
      simp [candidate, selection, RevisionCandidate.liveConvergence]
    obtain ⟨unrooted, unmatched, lane⟩ := candidate
    have sink : ((session.candidate plan).startRunning jobStart session.recordBytes
        session.checkpointBudget).sink =
          { state := new (session.candidate plan).plan.revision
              session.recordBytes session.checkpointBudget none
            retained := .empty } := by
      simp [RevisionCandidate.startRunning, RevisionCandidate.startSink, unrooted, unmatched, lane]
    refine ⟨startSink_unrooted unrooted unmatched _ _, ?_, ?_, first⟩
    · rw [sink]
      constructor <;> simp [new, BoundaryLane.Numbered, BoundaryLane.visible,
        BoundaryLane.empty]
    rw [sink]
    rfl
  | some found => ?_
  obtain ⟨selected, root, forked⟩ := found
  obtain ⟨rows, held, below⟩ := selectRestart_lane numbered selection
  obtain ⟨inherited, inherits, key, restored, lane, unlive⟩ := candidate_inherits selection
  have spared := LiveHistorySink.evidenceSpared_inherit (session.candidate plan).plan.revision
    session.recordBytes session.checkpointBudget (session.candidate plan).liveConvergence
    inherited (session.candidate plan).lane
  have sink : ((session.candidate plan).startRunning jobStart session.recordBytes
      session.checkpointBudget).sink = LiveHistorySink.releaseAll
        { state := (new (session.candidate plan).plan.revision
            session.recordBytes session.checkpointBudget
            (session.candidate plan).liveConvergence).inheritBoundary inherited
          retained := (session.candidate plan).lane } := by
    simp [RevisionCandidate.startRunning, RevisionCandidate.startSink, inherits]
  have runtime : ((session.candidate plan).startRunning jobStart session.recordBytes
      session.checkpointBudget).runtime = root.runtime := by
    simp [RevisionCandidate.startRunning, restored]
  have rowsKept := spared.sameRows_releaseAll
  have reached : Running.Reached next definitionsMatch
      ((session.candidate plan).startRunning jobStart session.recordBytes
        session.checkpointBudget)
      ((new (session.candidate plan).plan.revision session.recordBytes
        session.checkpointBudget (session.candidate plan).liveConvergence).inheritBoundary
          inherited).records root.runtime :=
    ⟨0, _, rfl, by rw [sink]; exact rowsKept.records, runtime⟩
  refine ⟨?_, ?_, ?_, first⟩
  · rw [sink]
    exact (inherit_initial (unpublished inherited inherits)
      (fun comparison live => by
        constructor
        · cases published : inherited.publishRecord with
          | false => rfl
          | true => simp [unlive published] at live
        · exact liveConvergence_initial live) _ _ _).congr rowsKept
  · rw [sink]
    rw [← lane] at held below rows
    rw [← key] at held below
    exact (inherit_rooted rows held below reached).releaseAll spared
  rw [sink]
  exact @LiveHistorySink.EvidenceSpared.rounds_induction _ _
    (fun next => next.state.checkpointKeys.length = next.state.records.length)
    (fun next victim same => by simpa [LiveHistorySink.releaseRestart] using same) _ spared
    (by simp only [inheritBoundary, new]; split <;> rfl) _

/-- Two finished runs complete their candidate alike: the same rows, output and
convergence decision. -/
structure SameOutcome (session : Session Identity Runtime Effect Page)
    (candidate : RevisionCandidate Identity Runtime)
    (output : Runtime → DetachedEngineCompletion Effect Page)
    (running final : Running Identity Runtime) : Prop where
  records : running.sink.state.records = final.sink.state.records
  completion : output running.runtime = output final.runtime
  decision : session.decideConvergence candidate (running.completed output) =
    session.decideConvergence candidate (final.completed output)

/-- In a run of transparent steps, declined resources leave no trace: every state
agrees with one of the uninterrupted run, and the finished candidate is the one of
the uninterrupted run. -/
theorem suspension_transparent {session : Session Identity Runtime Effect Page}
    {plan : CandidatePlan} (numbered : session.RowsNumbered) (jobStart : Runtime)
    (next : Runtime → Option (EngineCheckpoint Identity Runtime))
    (definitionsMatch : Runtime → Runtime → Bool)
    (output : Runtime → DetachedEngineCompletion Effect Page)
    (unpublished : ∀ inherited, (session.candidate plan).inheritedBoundary = some inherited →
      inherited.publishRecord = true → inherited.evidence.boundary ≠ .outerParagraphEnd)
    (first : Running.JobStartFirst next definitionsMatch
      ((session.candidate plan).startRunning jobStart session.recordBytes session.checkpointBudget))
    {events : List ScheduleEvent} {running : Running Identity Runtime}
    (run : Running.Scheduled next definitionsMatch (Running.Transparent next definitionsMatch
        ((session.candidate plan).startRunning jobStart session.recordBytes
          session.checkpointBudget))
      ((session.candidate plan).startRunning jobStart session.recordBytes
        session.checkpointBudget) events running) :
    (∃ count base, uninterrupted next definitionsMatch
        ((session.candidate plan).startRunning jobStart session.recordBytes
          session.checkpointBudget) count = some base ∧ Running.Agrees running base ∧
        (finished next definitionsMatch running →
          finished next definitionsMatch base)) ∧
      (finished next definitionsMatch running →
        ∀ count final, uninterrupted next definitionsMatch
            ((session.candidate plan).startRunning jobStart session.recordBytes
              session.checkpointBudget) count = some final →
          finished next definitionsMatch final →
          session.SameOutcome (session.candidate plan) output running final) := by
  have prepared := candidate_prepared numbered jobStart next definitionsMatch unpublished first
  obtain ⟨count, base, reached, agrees⟩ := run.agrees prepared
  refine ⟨⟨count, base, reached, agrees, agrees.finished⟩, ?_⟩
  intro ended otherCount final finalReached finalEnded
  obtain rfl := uninterrupted_end_unique reached (agrees.finished ended) finalReached finalEnded
  have completed : running.completed output = base.completed output := by
    simp [completed, agrees.runtime, agrees.history.records]
  exact ⟨agrees.history.records, by rw [agrees.runtime], by rw [completed]⟩

/-- The boundaries of a rerun behind the first of four paragraphs, given by the
states it reaches them in. -/
def rerun (second third fourth : Nat) : Nat → Option (EngineCheckpoint Nat Nat)
  | 5 => some (paragraphEnd 10 2 second)
  | 10 => some (paragraphEnd 15 3 third)
  | 15 => some (paragraphEnd 20 4 fourth)
  | _ => none

theorem rerun_paragraph {second third fourth place : Nat} {captured : EngineCheckpoint Nat Nat}
    (ran : rerun second third fourth place = some captured) :
    captured.boundary = .outerParagraphEnd := by
  unfold rerun at ran
  split at ran <;> cases ran <;> rfl

def rerunStart : Running Nat Nat :=
  secondParagraphCandidate.startRunning 0 1 4

def unopened : Session Nat Nat Nat Nat :=
  { fourParagraphs with
    revision := 0
    source := []
    history := []
    priorGeneration := none
    acceptedCompletion := none }

def firstRevision : CandidatePlan where
  baseRevision := 0
  baseSource := []
  revision := 1
  source := fourParagraphs.source
  executionPath := .cold
  restartLimit := none
  editMap := none
  restartBoundary := none

def firstRun : LiveHistorySink Nat Nat :=
  [paragraphEnd 5 1 10, paragraphEnd 10 2 20, paragraphEnd 15 3 30, paragraphEnd 20 4 40].foldl
    (LiveHistorySink.publish fun _ _ => true)
    ((unopened.candidate firstRevision).startSink 1 4)

/-- The four paragraphs are what a first run of them builds. -/
theorem fourParagraphs_built : fourParagraphs.Built := by
  have run : CandidateRun (fun _ _ => true) (fun _ _ => True)
      ((unopened.candidate firstRevision).startSink 1 4) _ firstRun :=
    (((CandidateRun.start.publish (paragraphEnd 5 1 10) trivial rfl).publish
      (paragraphEnd 10 2 20) trivial rfl).publish (paragraphEnd 15 3 30) trivial rfl).publish
      (paragraphEnd 20 4 40) trivial rfl
  have opened : unopened.Built := .opened rfl
  obtain ⟨transaction, output, prepared, accepted⟩ : ∃ transaction output,
      unopened.prepareRevisionCandidate (unopened.candidate firstRevision)
        ⟨⟨0, [0, 1, 2, 3, 4], [0, 1, 2, 3, 4].map fun page => ⟨page, []⟩⟩, firstRun.state.records⟩
        firstRun.retained = .ok transaction ∧
      unopened.acceptRevision transaction = .ok (fourParagraphs, output) :=
    ⟨_, _, rfl, rfl⟩
  exact opened.accepted run prepared accepted

/-- A resource declined before the first boundary of the rerun leaves no trace: the
rerun stops at the third paragraph as the uninterrupted one does. -/
theorem suspension_transparent_before_first_boundary :
    ∃ running, running.sink.stopRequested = true ∧
      ∃ count base, uninterrupted (rerun 21 30 40) (fun _ _ => true) rerunStart count =
          some base ∧ Running.Agrees running base := by
  have first : Running.JobStartFirst (rerun 21 30 40) (fun _ _ => true) rerunStart := by
    intro count base captured _ ran isStart
    rw [rerun_paragraph ran] at isStart
    contradiction
  have spared : Running.Spared (rerun 21 30 40) (fun _ _ => true) rerunStart := by
    intro count base captured reached unstopped ran
    rcases count with _ | _ | _ | further
    · cases reached
      cases ran
      exact .met (by decide)
    · cases reached
      cases ran
      exact .met (by decide)
    · cases reached
      exact absurd unstopped (by decide)
    have stopped : ∃ last, uninterrupted (rerun 21 30 40) (fun _ _ => true) rerunStart
        2 = some last ∧ finished (rerun 21 30 40) (fun _ _ => true) last :=
      ⟨_, rfl, rfl⟩
    obtain ⟨last, stands, ended⟩ := stopped
    have gone := uninterrupted_none_of_finished stands ended further
    rw [show further + 3 = 2 + 1 + further by omega, gone] at reached
    contradiction
  have unpublished : ∀ inherited, secondParagraphCandidate.inheritedBoundary =
      some inherited → inherited.publishRecord = true →
      inherited.evidence.boundary ≠ .outerParagraphEnd := by
    intro inherited inherits published
    cases inherits
    exact absurd published (by decide)
  obtain ⟨⟨count, base, reached, agrees, _⟩, _⟩ := suspension_transparent
    fourParagraphs_built.rowsNumbered 0
    (rerun 21 30 40) (fun _ _ => true) (fun _ => ⟨0, [], []⟩) unpublished first
    (.proceed (.proceed (.decline .start
      (fun _ => ⟨spared, by intro comparison anchor live latest; cases live; cases latest; rfl⟩)
        rfl rfl)
      (fun _ => ⟨spared, by intro captured ran; cases ran; exact .met (by decide)⟩) rfl)
      (fun _ => ⟨spared, by intro captured ran; cases ran; exact .met (by decide)⟩) rfl)
  exact ⟨_, rfl, count, base, reached, agrees⟩

/-- A resource declined behind the first compared paragraph disables reuse: the
uninterrupted rerun stops at the fourth paragraph, the interrupted one runs to the
end of the text and converges nowhere. -/
theorem suspension_disables_reuse : ∃ events running final,
      Running.Scheduled (rerun 21 31 40) (fun _ _ => true) (fun _ _ _ => True) rerunStart events
        running ∧
      uninterrupted (rerun 21 31 40) (fun _ _ => true) rerunStart 3 = some final ∧
      finished (rerun 21 31 40) (fun _ _ => true) running ∧
      finished (rerun 21 31 40) (fun _ _ => true) final ∧
      running.sink.state.records ≠ final.sink.state.records ∧ ∀ output,
        (fourParagraphs.decideConvergence secondParagraphCandidate
            (final.completed output)).convergenceBoundary = some ⟨20, .outerParagraphEnd, 0⟩ ∧
        (fourParagraphs.decideConvergence secondParagraphCandidate
            (running.completed output)).convergenceBoundary = none := by
  refine ⟨_, _, _, .proceed (.proceed (.decline (.proceed .start trivial rfl) trivial rfl rfl)
    trivial rfl) trivial rfl, rfl, rfl, rfl, by decide, fun output => ⟨rfl, rfl⟩⟩

end Session

end Umber.Incr
