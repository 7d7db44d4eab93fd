import Umber.Incr.SessionProperties
import Umber.Incr.LiveProperties

/-! A candidate that stops early at a live match: whether the comparison of the
finished histories finds that match again. -/

set_option autoImplicit false

namespace Umber.Incr

open LiveHistoryState RevisionCandidate LiveHistorySink

section

variable {Identity : Type}

/-- The rows of a candidate that a comparison looks at: a leading row at the
restart is not compared. -/
def comparedRows (restart : BoundaryKey) (records : List (BoundaryRecord Identity)) :
    List (BoundaryRecord Identity) :=
  records.drop (if records.head?.any fun record => record.key = restart then 1 else 0)

theorem comparedRows_nil (restart : BoundaryKey) :
    comparedRows restart ([] : List (BoundaryRecord Identity)) = [] := rfl

theorem comparedRows_concat {restart : BoundaryKey} {records : List (BoundaryRecord Identity)}
    {record : BoundaryRecord Identity} (compared : records = [] → record.key ≠ restart) :
    comparedRows restart (records ++ [record]) = comparedRows restart records ++ [record] := by
  cases records with
  | nil => simp [comparedRows, compared rfl]
  | cons first records => ?_
  by_cases atRestart : first.key = restart
  · simp [comparedRows, atRestart]
  · simp [comparedRows, atRestart]

theorem mem_of_mem_comparedRows {restart : BoundaryKey}
    {records : List (BoundaryRecord Identity)} {record : BoundaryRecord Identity}
    (member : record ∈ comparedRows restart records) : record ∈ records :=
  List.mem_of_mem_drop member

def Follows (edit : Option RevisionEditMap) (olds news : List (BoundaryRecord Identity)) : Prop :=
  (alignedPairs edit olds news).map (·.2) = news

theorem Follows.nil (edit : Option RevisionEditMap) (olds : List (BoundaryRecord Identity)) :
    Follows edit olds [] := by
  cases olds <;> rfl

variable {edit : Option RevisionEditMap} {olds news : List (BoundaryRecord Identity)}

theorem alignedPairs_concat {old new : BoundaryRecord Identity} (follows : Follows edit olds news)
    (reached : olds[news.length]? = some old) (mapped : mappedKey edit old.key = some new.key) :
    alignedPairs edit olds (news ++ [new]) = alignedPairs edit olds news ++ [(old, new)] := by
  induction news generalizing olds with
  | nil =>
    cases olds with
    | nil => simp at reached
    | cons first olds =>
      obtain rfl : first = old := by simpa using reached
      cases olds <;> simp [alignedPairs, mapped]
  | cons next news ih => ?_
  cases olds with
  | nil => simp at reached
  | cons first olds => ?_
  by_cases same : mappedKey edit first.key = some next.key
  · have rest : Follows edit olds news := by
      simpa [Follows, alignedPairs, same] using follows
    simp [alignedPairs, same, ih rest (by simpa using reached)]
  · simp [Follows, alignedPairs, same] at follows

theorem Follows.concat {edit : Option RevisionEditMap}
    {olds news : List (BoundaryRecord Identity)} {old new : BoundaryRecord Identity}
    (follows : Follows edit olds news) (reached : olds[news.length]? = some old)
    (mapped : mappedKey edit old.key = some new.key) : Follows edit olds (news ++ [new]) := by
  have pairs : (alignedPairs edit olds news).map (·.2) = news := follows
  simp [Follows, alignedPairs_concat follows reached mapped, pairs]

theorem mem_alignedPairs {pair : BoundaryRecord Identity × BoundaryRecord Identity}
    (member : pair ∈ alignedPairs edit olds news) : pair.2 ∈ news := by
  induction olds generalizing news with
  | nil => simp [alignedPairs] at member
  | cons first olds ih => ?_
  cases news with
  | nil => simp [alignedPairs] at member
  | cons next news => ?_
  simp only [alignedPairs] at member
  split at member
  next =>
    rcases List.mem_cons.mp member with rfl | later
    · exact List.mem_cons_self
    · exact List.mem_cons_of_mem _ (ih later)
  next => simp at member

end

/-- The accepted rows a live matcher walks, the row it starts at, and the map
between the texts. -/
structure MatchBase (Identity : Type) where
  history : List (BoundaryRecord Identity)
  start : Nat
  edit : Option RevisionEditMap
  restart : BoundaryKey

namespace MatchBase

variable {Identity Runtime : Type}

/-- An accepted row that a convergence at `key` may be taken for. -/
def Candidate (base : MatchBase Identity) (key : BoundaryKey) (identity : Option Identity)
    (old : BoundaryRecord Identity) : Prop :=
  mappedKey base.edit old.key = some key ∧
    (base.restart = key ∨ old.reachableStateIdentity = identity)

/-- At most one accepted row can be taken for a convergence at `key`. -/
def Unambiguous (base : MatchBase Identity) (key : BoundaryKey) (identity : Option Identity) :
    Prop :=
  ∀ left right : Nat, ∀ old other : BoundaryRecord Identity,
    base.history[left]? = some old → base.history[right]? = some other →
    base.Candidate key identity old → base.Candidate key identity other → left = right

/-- The accepted row that stands where the comparison begins belongs to the
first compared row. -/
def FirstAligned (base : MatchBase Identity) (records : List (BoundaryRecord Identity)) : Prop :=
  ∃ first old : BoundaryRecord Identity, (comparedRows base.restart records).head? = some first ∧
    base.history[base.start]? = some old ∧ mappedKey base.edit old.key = some first.key

structure Matched (base : MatchBase Identity) (records earlier : List (BoundaryRecord Identity))
    (old new : BoundaryRecord Identity) : Prop where
  rows : comparedRows base.restart records = earlier ++ [new]
  follows : Follows base.edit (base.history.drop base.start) earlier
  accepted : base.history[base.start + earlier.length]? = some old
  mapped : mappedKey base.edit old.key = some new.key
  source : new.directConvergenceSource = some old.key
  identity : new.reachableStateIdentity = old.reachableStateIdentity
  captured : old.reachableStateIdentity.isSome
  unmatched : ∀ record ∈ earlier, record.directConvergenceSource = none
  unambiguous : base.Unambiguous new.key new.reachableStateIdentity

/-- Where the live matcher stands with respect to the rows published so far. -/
inductive Cursor (base : MatchBase Identity) (comparison : LiveConvergence Identity)
    (records : List (BoundaryRecord Identity)) : Prop where
  | diverged :
      comparison.matched = none → comparison.scheduleDiverged = true →
      (∀ record ∈ records, record.directConvergenceSource = none) →
      Cursor base comparison records
  | following :
      comparison.matched = none →
      comparison.nextOld = base.start + (comparedRows base.restart records).length →
      Follows base.edit (base.history.drop base.start) (comparedRows base.restart records) →
      (∀ record ∈ records, record.directConvergenceSource = none) →
      Cursor base comparison records
  | stale :
      comparison.matched = none → comparison.nextOld = base.start →
      base.FirstAligned records →
      (∀ record ∈ records, record.directConvergenceSource = none) →
      Cursor base comparison records
  | matched {earlier : List (BoundaryRecord Identity)} {old new : BoundaryRecord Identity} :
      comparison.matched = some (old.key, new.key) → base.Matched records earlier old new →
      Cursor base comparison records

variable {base : MatchBase Identity} {comparison : LiveConvergence Identity}
  {records : List (BoundaryRecord Identity)}

theorem Cursor.unmatched (cursor : base.Cursor comparison records)
    (running : comparison.matched = none) :
    ∀ record ∈ records, record.directConvergenceSource = none := by
  cases cursor with
  | diverged _ _ none => exact none
  | following _ _ _ none => exact none
  | stale _ _ _ none => exact none
  | matched found => simp [running] at found

structure Compares (base : MatchBase Identity) (comparison : LiveConvergence Identity) : Prop where
  accepted : comparison.accepted = base.history
  initial : comparison.initialNextOld = base.start
  edit : comparison.edit = base.edit
  restart : comparison.restart = base.restart

variable {walked : LiveConvergence Identity} {target : Option BoundaryKey}

theorem Compares.walk {fresh : Bool} {key : BoundaryKey} (compares : base.Compares comparison)
    (walks : comparison.Walks fresh key target walked) : base.Compares walked := by
  cases walks with
  | stuck _ => exact compares
  | restart _ _ => exact compares
  | diverges => exact ⟨compares.accepted, compares.initial, compares.edit, compares.restart⟩
  | advances _ _ _ _ => exact ⟨compares.accepted, compares.initial, compares.edit, compares.restart⟩

structure Invariant (base : MatchBase Identity) (sink : LiveHistorySink Identity Runtime) :
    Prop where
  numbered : LiveHistoryState.Numbered sink.state.occurrences sink.state.records
  distinct : (sink.state.records.map (·.key)).Nodup
  comparison : ∃ comparison : LiveConvergence Identity, sink.state.convergence = some comparison ∧
    base.Compares comparison ∧ base.Cursor comparison sink.state.records

variable {new : BoundaryRecord Identity}

/-- A matcher that advances over a row published for the first time follows the
accepted rows. -/
theorem Cursor.advance {old : BoundaryRecord Identity} (compares : base.Compares comparison)
    (cursor : base.Cursor comparison records) (running : comparison.matched = none)
    (fresh : new.key ∉ records.map (·.key))
    (compared : records.isEmpty = true → new.key ≠ comparison.restart)
    (walking : comparison.scheduleDiverged = false)
    (accepted : comparison.accepted[comparison.nextOld]? = some old)
    (mapped : mappedKey comparison.edit old.key = some new.key) :
    comparedRows base.restart (records ++ [new]) = comparedRows base.restart records ++ [new] ∧
      comparison.nextOld = base.start + (comparedRows base.restart records).length ∧
      Follows base.edit (base.history.drop base.start) (comparedRows base.restart records) := by
  rw [compares.accepted] at accepted
  rw [compares.edit] at mapped
  have rows : comparedRows base.restart (records ++ [new]) =
      comparedRows base.restart records ++ [new] := by
    apply comparedRows_concat
    intro empty
    rw [← compares.restart]
    exact compared (by simp [empty])
  cases cursor with
  | diverged _ stuck _ => simp [walking] at stuck
  | following _ next follows _ => exact ⟨rows, next, follows⟩
  | stale _ next aligned _ =>
    obtain ⟨first, other, head, reached, same⟩ := aligned
    obtain rfl : other = old := by
      rw [next] at accepted
      simpa [accepted] using reached.symm
    have present : first ∈ records := mem_of_mem_comparedRows (List.mem_of_mem_head? head)
    have clash : first.key = new.key := by simpa [mapped] using same.symm
    exact absurd (List.mem_map.mpr ⟨first, present, clash⟩) fresh
  | matched found => simp [running] at found

/-- One step of the matcher over a newly published row. -/
theorem Cursor.walk (compares : base.Compares comparison) (cursor : base.Cursor comparison records)
    (running : comparison.matched = none) (fresh : new.key ∉ records.map (·.key))
    (unmatched : new.directConvergenceSource = none)
    (walks : comparison.Walks records.isEmpty new.key target walked) :
    base.Cursor walked (records ++ [new]) := by
  have sources : ∀ record ∈ records ++ [new], record.directConvergenceSource = none := by
    intro record member
    rcases List.mem_append.mp member with old | last
    · exact cursor.unmatched running record old
    obtain rfl := List.mem_singleton.mp last
    exact unmatched
  cases walks with
  | stuck stuck => exact .diverged running stuck sources
  | diverges => exact .diverged running rfl sources
  | restart empty atRestart =>
    obtain rfl : records = [] := by simpa using empty
    have uncompared : comparedRows base.restart ([] ++ [new]) = [] := by
      simp [comparedRows, atRestart, compares.restart]
    cases cursor with
    | diverged _ stuck _ => exact .diverged running stuck sources
    | following _ next _ _ =>
      refine .following running ?_ ?_ sources
      · rw [uncompared]
        simpa [comparedRows_nil] using next
      rw [uncompared]
      exact .nil _ _
    | stale _ _ aligned _ =>
      obtain ⟨first, _, head, _⟩ := aligned
      simp [comparedRows_nil] at head
    | matched found => simp [running] at found
  | @advances old compared walking accepted mapped => ?_
  obtain ⟨rows, next, follows⟩ :=
    cursor.advance compares running fresh compared walking accepted mapped
  rw [compares.accepted] at accepted
  rw [compares.edit] at mapped
  refine .following running ?_ ?_ sources
  · simp only [rows, List.length_append, List.length_singleton, next]
    omega
  rw [rows]
  refine follows.concat ?_ mapped
  rw [List.getElem?_drop, ← next, accepted]

theorem Cursor.meet {base : MatchBase Identity} {comparison walked : LiveConvergence Identity}
    {records : List (BoundaryRecord Identity)} {new : BoundaryRecord Identity}
    {target : BoundaryKey} (compares : base.Compares comparison)
    (cursor : base.Cursor comparison records) (running : comparison.matched = none)
    (fresh : new.key ∉ records.map (·.key)) (source : new.directConvergenceSource = some target)
    (identity : ∀ old, comparison.accepted[comparison.nextOld]? = some old → old.key = target →
      old.reachableStateIdentity.isSome ∧ new.reachableStateIdentity = old.reachableStateIdentity)
    (unambiguous : base.Unambiguous new.key new.reachableStateIdentity)
    (walks : comparison.Walks records.isEmpty new.key (some target) walked) :
    ∃ earlier : List (BoundaryRecord Identity), ∃ old : BoundaryRecord Identity,
      old.key = target ∧ base.Matched (records ++ [new]) earlier old new := by
  cases walks with
  | @advances old compared walking accepted mapped => ?_
  obtain ⟨rows, next, follows⟩ :=
    cursor.advance compares running fresh compared walking accepted mapped
  obtain ⟨present, same⟩ := identity old accepted rfl
  rw [compares.edit] at mapped
  rw [compares.accepted, next] at accepted
  have unmatched : ∀ record ∈ comparedRows base.restart records,
      record.directConvergenceSource = none :=
    fun record member => cursor.unmatched running record (mem_of_mem_comparedRows member)
  exact ⟨_, old, rfl,
    ⟨rows, follows, accepted, mapped, source, same, present, unmatched, unambiguous⟩⟩

variable [DecidableEq Identity]

variable {sink : LiveHistorySink Identity Runtime}

/-- Publication keeps the invariant when the budget takes no evidence row, the
accepted row it may be joined with is unique, and the root it is compared with is
that of the accepted row. -/
theorem Invariant.publish (definitionsMatch : Runtime → Runtime → Bool)
    {captured : EngineCheckpoint Identity Runtime} (invariant : base.Invariant sink)
    (running : sink.stopRequested = false)
    (spared : LiveHistorySink.EvidenceSpared (sink.checkpoint definitionsMatch captured))
    (unambiguous : base.Unambiguous (sink.state.publishedKey captured)
      captured.reachableStateIdentity)
    (own : sink.ComparesOwnRoot) : base.Invariant (sink.publish definitionsMatch captured) := by
  obtain ⟨numbered, distinct, comparison, live, compares, cursor⟩ := invariant
  have rows := spared.sameRows_releaseAll.trans (sink.sameRows_checkpoint definitionsMatch captured)
  have unstopped : comparison.matched = none := by
    simpa [LiveHistorySink.stopRequested, convergenceMatch, live] using running
  have fresh := publishedKey_notMem numbered captured
  have walks := LiveConvergence.target_walks unstopped sink.state.records.isEmpty
    (sink.state.publishedKey captured)
  refine ⟨?_, ?_, ?_⟩
  · rw [LiveHistorySink.publish, rows.occurrences, rows.records]
    exact numbered_publishedState definitionsMatch numbered captured
  · rw [LiveHistorySink.publish, rows.records]
    simp only [LiveHistorySink.publishedState, List.map_append, List.map_singleton]
    refine List.nodup_append.mpr ⟨distinct, by simp, ?_⟩
    intro key member other last same
    obtain rfl := List.mem_singleton.mp last
    rw [same] at member
    exact fresh member
  rw [LiveHistorySink.publish, rows.convergence, rows.records]
  simp only [LiveHistorySink.publishedState, convergenceBehind, live, Option.map_some]
  cases source : sink.directSource definitionsMatch captured with
  | none =>
    refine ⟨_, rfl, compares.walk walks, ?_⟩
    exact cursor.walk compares unstopped fresh source walks
  | some target => ?_
  obtain ⟨compared, prior, root, identity, present⟩ := directSource_some source
  simp only [comparedWith, live, Option.bind_some] at compared
  rw [compared] at walks
  have agrees : ∀ old, comparison.accepted[comparison.nextOld]? = some old →
      old.key = target → old.reachableStateIdentity.isSome ∧
        captured.reachableStateIdentity = old.reachableStateIdentity := by
    intro old reached named
    have same := own comparison old prior live reached (by rw [named, root])
    exact ⟨by rw [← same, ← identity, present], by rw [identity, same]⟩
  obtain ⟨earlier, old, named, found⟩ := @Cursor.meet _ base comparison _ _
    (sink.publishedRecord definitionsMatch captured) target compares cursor unstopped fresh
    source agrees unambiguous walks
  refine ⟨_, rfl, ⟨(compares.walk walks).accepted, (compares.walk walks).initial,
    (compares.walk walks).edit, (compares.walk walks).restart⟩, ?_⟩
  exact .matched (by rw [named]; rfl) found

omit [DecidableEq Identity] in
/-- A rewind keeps the invariant when it keeps no compared row, or rows the
first of which is aligned. -/
theorem Invariant.rewind (invariant : base.Invariant sink) (running : sink.stopRequested = false)
    {slot : ReplayAnchorSlot}
    (kept : comparedRows base.restart (sink.state.records.take (sink.state.keptRecords slot)) = [] ∨
      base.FirstAligned (sink.state.records.take (sink.state.keptRecords slot))) :
    base.Invariant (sink.rewindAfterAnchor slot) := by
  obtain ⟨numbered, distinct, comparison, live, compares, cursor⟩ := invariant
  have rows := sameRows_rewindAfterAnchor sink slot
  have unstopped : comparison.matched = none := by
    simpa [LiveHistorySink.stopRequested, convergenceMatch, live] using running
  have unmatched := cursor.unmatched unstopped
  refine ⟨?_, ?_, ?_⟩
  · rw [rows.occurrences, rows.records]
    exact numbered_occurrencesOf _
  · rw [rows.records, List.map_take]
    exact distinct.sublist (List.take_sublist _ _)
  rw [rows.convergence, rows.records]
  simp only [live, Option.map_some, rewindSource_eq_none unmatched]
  have keptUnmatched : ∀ record ∈ sink.state.records.take (sink.state.keptRecords slot),
      record.directConvergenceSource = none :=
    fun record member => unmatched record (List.mem_of_mem_take member)
  refine ⟨_, rfl, ⟨compares.accepted, compares.initial, compares.edit, compares.restart⟩, ?_⟩
  rcases kept with uncompared | aligned
  · refine .following rfl ?_ ?_ keptUnmatched
    · rw [uncompared]
      exact compares.initial
    rw [uncompared]
    exact .nil _ _
  · exact .stale rfl compares.initial aligned keptUnmatched

end MatchBase

/-- A search that only one place of a list satisfies ends there. -/
theorem find?_zipIdx_unique {α : Type} {values : List α} {accepts : α × Nat → Bool} {index : Nat}
    {value : α} (reached : values[index]? = some value) (accepted : accepts (value, index) = true)
    (unique : ∀ place other, values[place]? = some other → accepts (other, place) = true →
      place = index) : values.zipIdx.find? accepts = some (value, index) := by
  have member : (value, index) ∈ values.zipIdx := List.mem_zipIdx_iff_getElem?.mpr reached
  cases found : values.zipIdx.find? accepts with
  | none =>
    have refused := List.find?_eq_none.mp found (value, index) member
    simp [accepted] at refused
  | some entry => ?_
  obtain ⟨other, place⟩ := entry
  have present := List.mem_zipIdx_iff_getElem?.mp (List.mem_of_find?_eq_some found)
  obtain rfl := unique place other present (List.find?_some found)
  simp_all

theorem find?_key_of_nodup {Identity : Type} {records : List (BoundaryRecord Identity)}
    {record : BoundaryRecord Identity} (distinct : (records.map (·.key)).Nodup)
    (member : record ∈ records) :
    records.find? (fun other => other.key = record.key) = some record := by
  induction records with
  | nil => simp at member
  | cons first records ih => ?_
  rw [List.map_cons] at distinct
  obtain ⟨absent, rest⟩ := List.nodup_cons.mp distinct
  rcases List.mem_cons.mp member with rfl | later
  · simp
  have differ : first.key ≠ record.key := by
    intro same
    exact absent (same ▸ List.mem_map.mpr ⟨record, later, rfl⟩)
  simpa [differ] using ih rest later

variable {Identity Runtime Effect Page : Type} [DecidableEq Identity]
  {earlier : List (BoundaryRecord Identity)} {old new : BoundaryRecord Identity}

/-- The comparison of the finished rows finds the live match. -/
theorem MatchBase.Matched.compared {base : MatchBase Identity}
    {records : List (BoundaryRecord Identity)} (found : base.Matched records earlier old new) :
    convergedPair base.edit (base.history.drop base.start) (comparedRows base.restart records) =
      some (old, new) := by
  have reached : (base.history.drop base.start)[earlier.length]? = some old := by
    rw [List.getElem?_drop]
    exact found.accepted
  rw [convergedPair, found.rows, alignedPairs_concat found.follows reached found.mapped,
    List.find?_append]
  have skipped : (alignedPairs base.edit (base.history.drop base.start) earlier).find?
      (fun pair => recordsConverge pair.1 pair.2) = none := by
    rw [List.find?_eq_none]
    intro pair member
    simp [recordsConverge, found.unmatched pair.2 (mem_alignedPairs member)]
  have converges : recordsConverge old new = true := by
    simp [recordsConverge, found.captured, found.identity, found.source]
  simp [skipped, converges]

namespace Session

/-- The output a prepared transaction has when `old` and `new` are joined. -/
def splicedCompletion (session : Session Identity Runtime Effect Page)
    (completion : DetachedEngineCompletion Effect Page) (old new : BoundaryRecord Identity) :
    Except EngineCompletionError (DetachedEngineCompletion Effect Page) :=
  match session.acceptedCompletion with
  | none => .ok completion
  | some accepted =>
    completion.spliceRetainedSuffix accepted new.effectPrefix old.effectPrefix
      new.artifactPrefix old.artifactPrefix

/-- The preparation of a run that published `records` joins its row `new` with
the accepted row `old` and keeps the accepted pages behind it. -/
structure Joins (session : Session Identity Runtime Effect Page)
    (candidate : RevisionCandidate Identity Runtime)
    (completed : CandidateCompletion Identity Effect Page)
    (old new : BoundaryRecord Identity) : Prop where
  accepted : old ∈ session.history
  published : new ∈ completed.history
  failed : ∀ lane failure,
    session.prepareRevisionCandidate candidate completed lane = .error failure →
    ∃ error, session.splicedCompletion completed.completion old new = .error error ∧
      failure = .error (.completion error)
  prepared : ∀ lane transaction,
    session.prepareRevisionCandidate candidate completed lane = .ok transaction →
    transaction.convergenceSourceBoundary = some old.key ∧
      transaction.reuse.convergenceBoundary = some new.key ∧
      session.splicedCompletion completed.completion old new = .ok transaction.completion
  pages : ∀ lane transaction accepted,
    session.prepareRevisionCandidate candidate completed lane = .ok transaction →
    session.acceptedCompletion = some accepted →
    transaction.completion.pages.map (·.artifact) =
      (completed.completion.pages.take new.artifactPrefix ++
        accepted.pages.drop old.artifactPrefix).map (·.artifact)

/-- An early stop is completed: the comparison reports the boundary at which the
live matcher stopped, and preparation joins the output with the accepted suffix
behind the matched row. -/
def StopCompleted (session : Session Identity Runtime Effect Page)
    (candidate : RevisionCandidate Identity Runtime) (sink : LiveHistorySink Identity Runtime) :
    Prop :=
  ∀ old new : BoundaryKey, sink.state.convergenceMatch = some (old, new) →
    ∀ completion : DetachedEngineCompletion Effect Page,
      (session.compareCandidate candidate ⟨completion, sink.state.records⟩).convergenceBoundary =
          some new ∧
        ∃ oldRecord newRecord : BoundaryRecord Identity, oldRecord.key = old ∧ newRecord.key = new ∧
          session.Joins candidate ⟨completion, sink.state.records⟩ oldRecord newRecord

/-- What preparation does with a convergence pair. -/
theorem joins_of_convergencePair {session : Session Identity Runtime Effect Page}
    {candidate : RevisionCandidate Identity Runtime}
    {completed : CandidateCompletion Identity Effect Page} {old new : BoundaryRecord Identity}
    {index : Nat} (accepted : old ∈ session.history) (published : new ∈ completed.history)
    (converged : (session.decideConvergence candidate completed).convergenceBoundary = some new.key)
    (pair : session.convergencePair candidate.plan completed
      (session.decideConvergence candidate completed) = some (new, index, old)) :
    session.Joins candidate completed old new := by
  have prepared : ∀ lane transaction,
      session.prepareRevisionCandidate candidate completed lane = .ok transaction →
      transaction.convergenceSourceBoundary = some old.key ∧
        transaction.reuse.convergenceBoundary = some new.key ∧
        session.splicedCompletion completed.completion old new = .ok transaction.completion := by
    intro lane transaction prepared
    simp only [prepareRevisionCandidate, pair] at prepared
    cases output : session.acceptedCompletion with
    | none =>
      simp only [output] at prepared
      cases prepared
      exact ⟨rfl, converged, by simp [splicedCompletion, output]⟩
    | some previous => ?_
    simp only [output] at prepared
    split at prepared
    next => contradiction
    next spliced joined =>
      cases prepared
      exact ⟨rfl, converged, by simp [splicedCompletion, output, joined]⟩
  refine ⟨accepted, published, ?_, prepared, ?_⟩
  · intro lane failure failed
    simp only [prepareRevisionCandidate, pair] at failed
    cases output : session.acceptedCompletion with
    | none =>
      simp only [output] at failed
      cases failed
    | some previous => ?_
    simp only [output] at failed
    split at failed
    next error refused =>
      cases failed
      exact ⟨error, by simp [splicedCompletion, output, refused], rfl⟩
    next => cases failed
  intro lane transaction previous ready output
  obtain ⟨_, _, spliced⟩ := prepared lane transaction ready
  simp only [splicedCompletion, output] at spliced
  exact (spliceRetainedSuffix_rows spliced).2.2

end Session

def RevisionCandidate.matchBase (candidate : RevisionCandidate Identity Runtime) (start : Nat)
    (restart : BoundaryKey) : MatchBase Identity where
  history := candidate.comparisonHistory
  start := start
  edit := candidate.plan.editMap
  restart := restart

variable {candidate : RevisionCandidate Identity Runtime} {restart : BoundaryKey}

/-- A match of the live matcher is a convergence pair of the finished candidate. -/
theorem MatchBase.Matched.joins {session : Session Identity Runtime Effect Page} {start : Nat}
    {records : List (BoundaryRecord Identity)} (completion : DetachedEngineCompletion Effect Page)
    (history : candidate.comparisonHistory = session.history)
    (warm : candidate.plan.executionPath ≠ .cold) (started : candidate.comparisonStart = some start)
    (restarted : candidate.plan.restartBoundary = some restart)
    (distinct : (records.map (·.key)).Nodup)
    (found : (candidate.matchBase start restart).Matched records earlier old new) :
    (session.compareCandidate candidate ⟨completion, records⟩).convergenceBoundary = some new.key ∧
      session.Joins candidate ⟨completion, records⟩ old new := by
  have pair := found.compared
  simp only [matchBase, history] at pair
  obtain ⟨boundary, attempts⟩ := @compareHistories_eq Identity _
    { executionPath := candidate.plan.executionPath
      old := session.history.drop start
      new := comparedRows restart records
      edit := candidate.plan.editMap
      pagesRetyped := completion.pages.length } warm
  have compared : session.compareCandidate candidate ⟨completion, records⟩ =
      compareHistories
        { executionPath := candidate.plan.executionPath
          old := session.history.drop start
          new := comparedRows restart records
          edit := candidate.plan.editMap
          pagesRetyped := completion.pages.length } := by
    simp [Session.compareCandidate, started, restarted, comparedRows]
  rw [← compared] at boundary attempts
  have converged : (session.compareCandidate candidate ⟨completion, records⟩).convergenceBoundary =
      some new.key := by
    rw [boundary]
    simp [pair]
  have attempted : (session.compareCandidate candidate ⟨completion, records⟩).sameHistoryAttempts ≠
      0 := by
    rw [attempts]
    intro zero
    have nothing := List.length_eq_zero_iff.mp zero
    simp [convergedPair, nothing] at pair
  have decided : session.decideConvergence candidate ⟨completion, records⟩ =
      session.compareCandidate candidate ⟨completion, records⟩ := by
    simp [Session.decideConvergence, Session.unchangedContentConvergence, attempted]
  have published : new ∈ records := by
    apply @mem_of_mem_comparedRows _ restart
    have rows : comparedRows restart records = earlier ++ [new] := found.rows
    simp [rows]
  have accepted := found.accepted
  have unambiguous := found.unambiguous
  simp only [MatchBase.Unambiguous, MatchBase.Candidate, matchBase, history] at accepted unambiguous
  have mapped : mappedKey candidate.plan.editMap old.key = some new.key := found.mapped
  have source : session.convergenceSource candidate.plan new.key new =
      some (start + earlier.length, old) := by
    rw [Session.convergenceSource, find?_zipIdx_unique accepted]
    · rfl
    · simp [mapped, found.identity]
    intro place other reached accepts
    simp only [restarted, Bool.and_eq_true, Bool.or_eq_true, beq_iff_eq,
      Option.some.injEq] at accepts
    exact unambiguous _ _ _ _ reached accepted accepts ⟨mapped, .inr found.identity.symm⟩
  have joined : session.convergencePair candidate.plan ⟨completion, records⟩
      (session.decideConvergence candidate ⟨completion, records⟩) =
        some (new, start + earlier.length, old) := by
    rw [decided, Session.convergencePair, converged]
    simp [find?_key_of_nodup distinct published, source]
  exact ⟨converged, Session.joins_of_convergencePair (List.mem_of_getElem? accepted) published
    (by rw [decided, converged]) joined⟩

/-- The condition on one step of a candidate under which an early stop stays
completed. A publication leaves all evidence rows in the history, at most one
accepted row can be taken for the new one, and the root it is compared with is that
of the accepted row. A rewind keeps no compared row, or rows the first of which is
aligned with the accepted row behind the restart. -/
def RevisionCandidate.StopSafe (candidate : RevisionCandidate Identity Runtime)
    (definitionsMatch : Runtime → Runtime → Bool) (sink : LiveHistorySink Identity Runtime)
    (event : CandidateEvent Identity Runtime) : Prop :=
  match event with
  | .publish captured =>
    LiveHistorySink.EvidenceSpared (sink.checkpoint definitionsMatch captured) ∧
      sink.ComparesOwnRoot ∧ ∀ start restart, candidate.comparisonStart = some start →
        candidate.plan.restartBoundary = some restart →
        (candidate.matchBase start restart).Unambiguous (sink.state.publishedKey captured)
          captured.reachableStateIdentity
  | .suspend =>
    ∀ start restart anchor, candidate.comparisonStart = some start →
      candidate.plan.restartBoundary = some restart →
      sink.state.latestReplayAnchor = some anchor →
      comparedRows restart (sink.state.records.take (sink.state.keptRecords anchor.slot)) = [] ∨
        (candidate.matchBase start restart).FirstAligned
          (sink.state.records.take (sink.state.keptRecords anchor.slot))

variable {definitionsMatch : Runtime → Runtime → Bool}
  {start sink : LiveHistorySink Identity Runtime} {events : List (CandidateEvent Identity Runtime)}

/-- A run of safe steps keeps the matcher's invariant. -/
theorem CandidateRun.invariant {first : Nat} (started : candidate.comparisonStart = some first)
    (restarted : candidate.plan.restartBoundary = some restart)
    (initially : (candidate.matchBase first restart).Invariant start)
    (run : CandidateRun definitionsMatch (candidate.StopSafe definitionsMatch) start events sink) :
    (candidate.matchBase first restart).Invariant sink := by
  induction run with
  | start => exact initially
  | step _ safe stepped ih => ?_
  cases stepped with
  | publish running =>
    exact ih.publish definitionsMatch running safe.1 (safe.2.2 first restart started restarted)
      safe.2.1
  | suspend running anchored =>
    exact ih.rewind running (safe first restart _ started restarted anchored)

namespace Session

omit [DecidableEq Identity] in
theorem startSink_invariant {session : Session Identity Runtime Effect Page} {plan : CandidatePlan}
    {first : Nat} {restart : BoundaryKey}
    (started : (session.candidate plan).comparisonStart = some first)
    (restarted : (session.candidate plan).plan.restartBoundary = some restart)
    (recordBytes checkpointBudget : Nat) :
    ((session.candidate plan).matchBase first restart).Invariant
      ((session.candidate plan).startSink recordBytes checkpointBudget) := by
  obtain ⟨_, _, _, _, _, _, inherited, inherits, unpublished⟩ := candidate_rooted started
  have rows := (evidenceSpared_inherit (session.candidate plan).plan.revision
    recordBytes checkpointBudget (session.candidate plan).liveConvergence inherited
    (session.candidate plan).lane).sameRows_releaseAll
  simp only [startSink, inherits]
  refine ⟨?_, ?_, ?_⟩
  · rw [rows.occurrences, rows.records]
    simp [inheritBoundary, unpublished, new, LiveHistoryState.Numbered]
  · rw [rows.records]
    simp [inheritBoundary, unpublished, new]
  rw [rows.convergence, rows.records]
  simp only [inheritBoundary, unpublished, new, liveConvergence, started, restarted]
  refine ⟨_, rfl, ⟨rfl, rfl, rfl, rfl⟩, .following rfl rfl ?_ (by simp)⟩
  simp only [Bool.false_eq_true, if_false, comparedRows_nil]
  exact .nil _ _

end Session

/-- Without accepted rows to compare with, the live matcher stays silent. -/
theorem CandidateRun.silent
    {condition : LiveHistorySink Identity Runtime → CandidateEvent Identity Runtime → Prop}
    (initially : start.state.convergence = none)
    (run : CandidateRun definitionsMatch condition start events sink) :
    sink.state.convergence = none := by
  induction run with
  | start => exact initially
  | step _ _ stepped ih => ?_
  cases stepped with
  | publish _ =>
    rw [LiveHistorySink.publish, convergence_releaseAll, (sameRows_checkpoint _ _ _).convergence]
    simp [LiveHistorySink.publishedState, convergenceBehind, ih]
  | suspend _ _ =>
    rw [(sameRows_rewindAfterAnchor _ _).convergence]
    simp [ih]

omit [DecidableEq Identity] in
theorem RevisionCandidate.startSink_convergence (candidate : RevisionCandidate Identity Runtime)
    (recordBytes checkpointBudget : Nat) :
    (candidate.startSink recordBytes checkpointBudget).state.convergence =
      candidate.liveConvergence := by
  unfold startSink
  cases candidate.inheritedBoundary with
  | none => rfl
  | some inherited =>
    simp only [convergence_releaseAll, inheritBoundary]
    split <;> rfl

/-- In a run of safe steps every early stop is completed. -/
theorem early_stop_completed {session : Session Identity Runtime Effect Page}
    (nextRevision : Nat) (edit : Edit) (path : RevisionExecutionPath)
    (definitionsMatch : Runtime → Runtime → Bool)
    {events : List (CandidateEvent Identity Runtime)} {sink : LiveHistorySink Identity Runtime}
    (run : CandidateRun definitionsMatch
      ((session.candidate (session.advancePlan nextRevision edit path)).StopSafe definitionsMatch)
      ((session.candidate (session.advancePlan nextRevision edit path)).startSink
        session.recordBytes session.checkpointBudget) events sink) :
    session.StopCompleted (session.candidate (session.advancePlan nextRevision edit path)) sink := by
  intro old new stopped completion
  generalize planned : session.advancePlan nextRevision edit path = plan at run ⊢
  cases started : (session.candidate plan).comparisonStart with
  | none =>
    have silent := run.silent (by
      rw [startSink_convergence]
      simp [liveConvergence, started])
    simp [convergenceMatch, silent] at stopped
  | some first => ?_
  obtain ⟨selected, _, _, selection, restarted, _⟩ := Session.candidate_rooted started
  have warm : (session.candidate plan).plan.executionPath ≠ .cold := by
    rw [(Session.candidate_plan_fields session plan).1, ← planned]
    rw [← planned] at selection
    exact Session.advancePlan_warm selection
  have invariant := run.invariant started restarted
    (Session.startSink_invariant started restarted _ _)
  obtain ⟨_, distinct, comparison, live, _, cursor⟩ := invariant
  simp only [convergenceMatch, live, Option.bind_some] at stopped
  cases cursor with
  | diverged unmatched => simp [unmatched] at stopped
  | following unmatched => simp [unmatched] at stopped
  | stale unmatched => simp [unmatched] at stopped
  | @matched earlier oldRecord newRecord matched found => ?_
  rw [matched] at stopped
  cases stopped
  have history := Session.candidate_comparisonHistory session plan
  obtain ⟨converged, joins⟩ :=
    found.joins completion history warm started restarted distinct
  exact ⟨converged, oldRecord, newRecord, rfl, rfl, joins⟩

section Runs

/-- A captured paragraph end without retention cost; the runtime is the place in
the text. -/
def paragraphEnd (anchor outputs identity : Nat) : EngineCheckpoint Nat Nat where
  boundary := .outerParagraphEnd
  rootAnchor := anchor
  effectPrefixLen := outputs
  artifactPrefixLen := outputs
  reachableStateIdentity := some identity
  retention := { sharedOwners := [], checkpointMetadataBytes := 0 }
  runtime := anchor

def acceptedRow (captured : EngineCheckpoint Nat Nat) : BoundaryRecord Nat where
  revision := 1
  key := { position := captured.rootAnchor, boundary := captured.boundary, ordinal := 0 }
  effectPrefix := captured.effectPrefixLen
  artifactPrefix := captured.artifactPrefixLen
  reachableStateIdentity := captured.reachableStateIdentity
  directConvergenceSource := none

def acceptedCell (record : Nat) (captured : EngineCheckpoint Nat Nat) : BoundaryCell Nat Nat where
  record := record
  evidence :=
    { revision := 1
      position := captured.rootAnchor
      boundary := captured.boundary
      ordinal := 0
      effectPrefix := captured.effectPrefixLen
      artifactPrefix := captured.artifactPrefixLen
      reachableStateIdentity := captured.reachableStateIdentity }
  checkpoint := some captured

/-- Four paragraphs of five bytes each, with one effect and one page a paragraph
and a last page at the end. The budget holds the four rows. -/
def fourParagraphs : Session Nat Nat Nat Nat :=
  let captures := [paragraphEnd 5 1 10, paragraphEnd 10 2 20, paragraphEnd 15 3 30,
    paragraphEnd 20 4 40]
  { revision := 1
    source := List.replicate 20 65
    registeredInputs := []
    recordBytes := 1
    checkpointBudget := 4
    history := captures.map acceptedRow
    priorGeneration := some
      { nextRecord := 4
        ownership := .accepted (captures.zipIdx.map fun entry => acceptedCell entry.2 entry.1)
        protectedRecord := none }
    acceptedCompletion := some
      { effectBase := 0
        effects := [0, 1, 2, 3, 4]
        pages := [0, 1, 2, 3, 4].map fun page => { artifact := page, openOutOccurrences := [] } } }

def secondParagraphEdit : Edit where
  start := 6
  stop := 7
  replacement := [66]
  ordered := by decide

def secondParagraphCandidate : RevisionCandidate Nat Nat :=
  fourParagraphs.candidate (fourParagraphs.advancePlan 2 secondParagraphEdit .slowEdit)

def secondParagraphStart : LiveHistorySink Nat Nat :=
  secondParagraphCandidate.startSink 1 4

/-- A rerun whose first paragraph differs and whose second one meets the
accepted state again stops there and is completed. -/
theorem early_stop_completed_third_paragraph : ∃ sink, sink.state.convergenceMatch =
        some (⟨15, .outerParagraphEnd, 0⟩, ⟨15, .outerParagraphEnd, 0⟩) ∧
      fourParagraphs.StopCompleted secondParagraphCandidate sink := by
  have distinct : ∀ left < 4, ∀ right < 4,
      (fourParagraphs.history.map (mappedKey secondParagraphEdit.map ·.key))[left]? =
        (fourParagraphs.history.map (mappedKey secondParagraphEdit.map ·.key))[right]? →
      left = right := by
    decide
  have unambiguous : ∀ start restart key identity,
      (secondParagraphCandidate.matchBase start restart).Unambiguous key identity := by
    intro start restart key identity left right old other leftRow rightRow leftKey rightKey
    refine distinct left (List.getElem?_eq_some_iff.mp leftRow).1 right
      (List.getElem?_eq_some_iff.mp rightRow).1 ?_
    have leftPlace : fourParagraphs.history[left]? = some old := leftRow
    have rightPlace : fourParagraphs.history[right]? = some other := rightRow
    rw [List.getElem?_map, List.getElem?_map, leftPlace, rightPlace]
    exact congrArg some (leftKey.1.trans rightKey.1.symm)
  refine ⟨_, ?_, early_stop_completed 2 secondParagraphEdit .slowEdit (fun _ _ => true)
    ((CandidateRun.start.publish (paragraphEnd 10 2 21) ?_ rfl).publish
      (paragraphEnd 15 3 30) ?_ rfl)⟩
  · rfl
  · refine ⟨.met (by decide), ?_, fun start restart _ _ => unambiguous start restart _ _⟩
    intro comparison old prior live reached root
    cases live
    cases reached
    cases root
    rfl
  refine ⟨.met (by decide), ?_, fun start restart _ _ => unambiguous start restart _ _⟩
  intro comparison old prior live reached root
  cases live
  cases reached
  cases root
  rfl

/-- A paragraph end whose root holds more than the budget. -/
def heavyParagraphEnd (anchor outputs identity : Nat) : EngineCheckpoint Nat Nat :=
  { paragraphEnd anchor outputs identity with retention := ⟨[⟨0, .page, 10⟩], 0⟩ }

/-- The root of the first new row alone exceeds the budget, so the row between it
and the match is pruned: the run stops at the fourth paragraph, and it is accepted
without the last page. -/
theorem early_stop_lost_after_pruning :
    ∃ events sink, CandidateRun (fun _ _ => true) (fun _ _ => True) secondParagraphStart
        events sink ∧
      sink.stopRequested = true ∧
      ¬ fourParagraphs.StopCompleted secondParagraphCandidate sink ∧
      (do
        let transaction ← fourParagraphs.prepareRevisionCandidate secondParagraphCandidate
          { completion :=
              { effectBase := 0
                effects := [0, 11, 12, 3]
                pages := [0, 11, 12, 3].map fun page => ⟨page, []⟩ }
            history := sink.state.records } sink.retained
        let (_, output) ← fourParagraphs.acceptRevision transaction
        return output.completion.pages.map DetachedPreparedPage.artifact) = .ok [0, 11, 12, 3] := by
  refine ⟨_, _, ((CandidateRun.start.publish (heavyParagraphEnd 10 2 21) trivial rfl).publish
    (paragraphEnd 15 3 31) trivial rfl).publish (paragraphEnd 20 4 40) trivial rfl, rfl, ?_, rfl⟩
  intro completed
  obtain ⟨converged, _⟩ := completed ⟨20, .outerParagraphEnd, 0⟩ ⟨20, .outerParagraphEnd, 0⟩ rfl
    { effectBase := 0, effects := [], pages := [] }
  revert converged
  decide

end Runs

end Umber.Incr
