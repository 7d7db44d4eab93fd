import Umber.Incr.BudgetProperties

/-! Runs of a live history: publications, budget calls, and anchors that are
taken, rewound to and restored. -/

set_option autoImplicit false

namespace Umber.Incr

open ExceptLib LiveHistoryState

variable {Identity Runtime : Type}

section Rewind

variable {sink : LiveHistorySink Identity Runtime} {leases : List ReplayAnchorLease}
  {released : List Nat}

theorem getLast?_join {α : Type} (rows : List (Option α)) :
    rows.getLast?.join = (rows[rows.length - 1]?).join := by
  rw [List.getLast?_eq_getElem?]

theorem chargesOfRows_dropLast (retentions : List (Option CheckpointRetention))
    (key : Nat × CheckpointOwnerFamily) :
    chargesOfRows retentions key = chargesOfRows retentions.dropLast key +
      ((retentions.getLast?.join).map fun retention => retention.chargesOf key).getD 0 := by
  rcases List.eq_nil_or_concat retentions with rfl | ⟨front, last, rfl⟩
  · rfl
  rw [List.concat_eq_append, List.dropLast_concat, List.getLast?_concat]
  cases last with
  | none => simp [chargesOfRows_append_none]
  | some retention => simp [chargesOfRows_append_some]

theorem dropLast_set_last {α : Type} (rows : List α) (value : α) :
    (rows.set (rows.length - 1) value).dropLast = rows.dropLast := by
  rcases List.eq_nil_or_concat rows with rfl | ⟨front, last, rfl⟩
  · rfl
  · simp [List.concat_eq_append]

/-- One row of the suffix leaves. An anchor is out, and the row is not its. -/
theorem Balanced.popRow [DecidableEq Identity] (balanced : Balanced sink leases released) (out : leases ≠ [])
    (rows : 0 < sink.state.checkpointKeys.length)
    (behind : ∀ index key, { slot := .history index, key := key } ∈ leases →
      index + 1 < sink.state.checkpointKeys.length) :
    ∃ popped next, sink.popRow = .ok (popped, next) ∧
      Balanced next leases (released ++ popped.toList) ∧
      next.state.checkpointKeys = sink.state.checkpointKeys.dropLast ∧
      next.state.records = sink.state.records ∧
      next = (sink.releaseRestart (sink.state.checkpointKeys.length - 1)).dropLastRow := by
  have notLeased : ∀ index key, { slot := .history index, key := key } ∈ leases →
      index + 1 ≠ sink.state.checkpointKeys.length :=
    fun index key member => Nat.ne_of_lt (behind index key member)
  have lengths := balanced.rooted.lengths
  have families : ∀ retention, some retention ∈ sink.state.checkpointRetentions.dropLast →
      retention.FamiliesDistinct :=
    fun retention member => balanced.families retention ((List.dropLast_sublist _).subset member)
  have dropped : (sink.state.checkpointRetentions.set (sink.state.checkpointKeys.length - 1)
      none).dropLast = sink.state.checkpointRetentions.dropLast :=
    lengths ▸ dropLast_set_last _ _
  simp only [LiveHistorySink.popRow, getLast?_join, lengths]
  cases last : (sink.state.checkpointKeys[sink.state.checkpointKeys.length - 1]?).join with
  | none =>
    have noRoot : (sink.state.checkpointRetentions[sink.state.checkpointKeys.length - 1]?).join =
        none := by
      rw [← Option.not_isSome_iff_eq_none, balanced.rooted.described]
      rintro ⟨key, present | leased⟩
      · rw [last] at present
        cases present
      have apart := notLeased _ key leased
      omega
    refine ⟨none, sink.dropLastRow, rfl, ?_, rfl, rfl, ?_⟩
    · exact
        { rooted := balanced.rooted.pop (fun index key holds _ =>
            balanced.rooted.live index key holds) notLeased rfl
          charged := balanced.charged.congr fun owner => by
            have split := chargesOfRows_dropLast sink.state.checkpointRetentions owner
            rw [getLast?_join, lengths, noRoot] at split
            exact split.symm
          families := families
          vacated := balanced.vacated
          numbered := balanced.numbered
          dead := by
            rw [Option.toList_none, List.append_nil]
            exact balanced.dead
          once := by
            rw [Option.toList_none, List.append_nil]
            exact balanced.once }
    simp only [LiveHistorySink.dropLastRow, LiveHistorySink.releaseRestart, last, noRoot,
      dropLast_set_last, dropped]
  | some key => ?_
  have holds : HoldsRoot sink.state.checkpointKeys leases
      (sink.state.checkpointKeys.length - 1) key := .inl last
  have alive := balanced.rooted.live _ key holds
  have unguarded : sink.retained.protectedRecord ≠ some key := by
    intro protects
    obtain ⟨zero, history⟩ := balanced.rooted.guarded _ key holds protects
    obtain ⟨lease, member⟩ := List.exists_mem_of_ne_nil leases out
    obtain ⟨row, slot⟩ := history lease member
    obtain ⟨leaseSlot, leaseKey⟩ := lease
    cases slot
    have before := behind row leaseKey member
    omega
  obtain ⟨retention, joined⟩ :=
    Option.isSome_iff_exists.mp ((balanced.rooted.described _).mpr ⟨key, holds⟩)
  obtain ⟨charges, releasedOwners, charged⟩ := releaseOwners_eq_ok balanced.charged
    (chargesOf_le_rows (Option.join_eq_some_iff.mp joined))
  obtain ⟨dead, once⟩ := balanced.dead_append holds
  refine ⟨some key, ?next, ?popped, ?kept, ?keys, ?records, ?same⟩
  case popped =>
    simp only [BoundaryLane.releaseKey_eq_ok alive unguarded, joined, releasedOwners]
    rfl
  case keys => rfl
  case records => rfl
  case same =>
    simp only [LiveHistorySink.dropLastRow, LiveHistorySink.releaseRestart, last, joined,
      BoundaryLane.releaseKey_eq_ok alive unguarded, releaseOwners_agrees releasedOwners,
      dropLast_set_last, dropped]
  case kept =>
    exact
      { rooted := balanced.rooted.pop (fun index other held apart => by
            have distinct : other ≠ key := by
              rintro rfl
              have same := balanced.rooted.unique _ _ other held holds
              omega
            exact (BoundaryLane.live_removeVisible_ne distinct).mpr
              (balanced.rooted.live index other held)) notLeased rfl
        charged := charged.congr fun owner => by
          have split := chargesOfRows_dropLast sink.state.checkpointRetentions owner
          rw [getLast?_join, lengths, joined] at split
          simp only [Option.map_some, Option.getD_some] at split
          show chargesOfRows sink.state.checkpointRetentions.dropLast owner = _
          omega
        families := families
        vacated := balanced.vacated
        numbered := balanced.numbered.removeVisible key
        dead := dead
        once := once }

theorem Balanced.popRows [DecidableEq Identity] (count : Nat) {sink : LiveHistorySink Identity Runtime}
    {released : List Nat} (balanced : Balanced sink leases released) (out : leases ≠ [])
    (rows : count ≤ sink.state.checkpointKeys.length)
    (behind : ∀ index key, { slot := .history index, key := key } ∈ leases →
      index + count < sink.state.checkpointKeys.length) :
    ∃ popped next, sink.popRows count = .ok (popped, next) ∧
      Balanced next leases (released ++ popped) ∧
      next.state.checkpointKeys.length + count = sink.state.checkpointKeys.length ∧
      next.state.records = sink.state.records ∧ next = sink.releaseSuffix count := by
  induction count generalizing sink released with
  | zero => exact ⟨[], sink, rfl, by simpa using balanced, rfl, rfl, rfl⟩
  | succ count ih => ?_
  obtain ⟨first, middle, popped, kept, keys, records, once⟩ := balanced.popRow out (by omega)
    fun index key member => by
      have before := behind index key member
      omega
  have length : middle.state.checkpointKeys.length =
      sink.state.checkpointKeys.length - 1 := by
    rw [keys, List.length_dropLast]
  obtain ⟨rest, next, finished, settled, size, same, suffix⟩ := ih kept (by omega)
    fun index key member => by
      have before := behind index key member
      omega
  refine ⟨first.toList ++ rest, next, ?_, ?_, by omega, same.trans records, ?_⟩
  · simp only [LiveHistorySink.popRows, popped, ok_bind, finished]
  · simpa [List.append_assoc] using settled
  rw [suffix, once]
  rfl

theorem keptRecords_le (state : LiveHistoryState Identity) (slot : ReplayAnchorSlot) :
    state.keptRecords slot ≤ state.records.length := by
  cases slot with
  | jobStart =>
    simp only [keptRecords]
    split
    next index found => exact (List.findIdx?_eq_some_iff_findIdx_eq.mp found).1
    next => exact Nat.zero_le _
  | currentCandidate => exact Nat.zero_le _
  | history index => exact Nat.min_le_right _ _

/-- A rewind to an anchor that is out goes through, and agrees with the one that
ignores the panics. -/
theorem Balanced.rewindReleasing [DecidableEq Identity] {lease : ReplayAnchorLease}
    (balanced : Balanced sink leases released) (sized : sink.state.Sized)
    (member : lease ∈ leases) :
    ∃ popped next, sink.rewindReleasing lease.slot = .ok (popped, next) ∧
      Balanced next leases (released ++ popped) ∧ next.state.Sized ∧
      next.state.records = sink.state.records.take (sink.state.keptRecords lease.slot) ∧
      next = sink.rewindAfterAnchor lease.slot := by
  have kept := keptRecords_le sink.state lease.slot
  have size : sink.state.checkpointKeys.length = sink.state.records.length := sized
  have alone : ∀ other ∈ leases, other = lease := by
    intro other included
    have single := balanced.rooted.single
    cases leases with
    | nil => cases included
    | cons first rest => ?_
    cases rest with
    | nil => exact (List.mem_singleton.mp included).trans (List.mem_singleton.mp member).symm
    | cons second rest => simp at single
  obtain ⟨popped, next, finished, settled, length, records, suffix⟩ :=
    balanced.popRows (sink.state.checkpointKeys.length - sink.state.keptRecords lease.slot)
      (List.ne_nil_of_mem member) (Nat.sub_le _ _) fun index key included => by
        have bound := (List.getElem?_eq_some_iff.mp (balanced.rooted.leased index key included)).1
        cases alone _ included
        simp only [keptRecords]
        omega
  refine ⟨popped, next.truncateRecords (sink.state.keptRecords lease.slot)
    (LiveHistorySink.rewindSource sink.state lease.slot), ?_, ?_, ?_, ?_, ?_⟩
  · simp only [LiveHistorySink.rewindReleasing, finished, ok_bind]
  · exact
      { rooted := settled.rooted, charged := settled.charged, families := settled.families
        vacated := settled.vacated, numbered := settled.numbered, dead := settled.dead
        once := settled.once }
  · show next.state.checkpointKeys.length = (next.state.records.take _).length
    rw [records, List.length_take]
    omega
  · show next.state.records.take _ = _
    rw [records]
  rw [suffix]
  rfl

end Rewind

section Anchors

variable {sink : LiveHistorySink Identity Runtime} {lease : ReplayAnchorLease}
  {released : List Nat}

theorem latestReplayAnchor_some {state : LiveHistoryState Identity}
    (latest : state.latestReplayAnchor = some lease) :
    (∃ index, lease.slot = .history index ∧ state.checkpointKeys[index]? = some (some lease.key)) ∨
      ((∀ index, lease.slot ≠ .history index) ∧
        ∀ index : Nat, (state.checkpointKeys[index]?).join = none) := by
  unfold latestReplayAnchor at latest
  split at latest
  next found chosen =>
    cases latest
    obtain ⟨entry, member, same⟩ := List.exists_of_findSome?_eq_some chosen
    obtain ⟨key, present, rfl⟩ := Option.map_eq_some_iff.mp same
    obtain ⟨root, index⟩ := entry
    have row := List.mk_mem_zipIdx_iff_getElem?.mp (List.mem_reverse.mp member)
    cases present
    exact .inl ⟨index, rfl, row⟩
  rename_i rootless
  refine .inr ⟨?_, ?_⟩
  · intro index
    split at latest
    next =>
      cases latest
      exact nofun
    obtain ⟨key, _, rfl⟩ := Option.map_eq_some_iff.mp latest
    exact nofun
  intro index
  cases found : state.checkpointKeys[index]? with
  | none => rfl
  | some root => ?_
  have rejected := List.findSome?_eq_none_iff.mp rootless (root, index)
    (List.mem_reverse.mpr (List.mk_mem_zipIdx_iff_getElem?.mpr found))
  exact Option.map_eq_none_iff.mp rejected

/-- The key of the latest anchor leaves the history. -/
theorem Balanced.take (balanced : Balanced sink [] released)
    (latest : sink.state.latestReplayAnchor = some lease) :
    Balanced { sink with state := sink.state.clearAnchor lease.slot } [lease] released := by
  obtain ⟨slot, key⟩ := lease
  rcases latestReplayAnchor_some latest with ⟨index, rfl, row⟩ | ⟨other, bare⟩
  · exact
      { rooted := balanced.rooted.lend row
        charged := balanced.charged
        families := balanced.families
        vacated := by
          intro lease member
          cases List.mem_singleton.mp member
          exact ⟨nofun, nofun⟩
        numbered := balanced.numbered
        dead := balanced.dead
        once := balanced.once }
  have lent := balanced.rooted.lend_other other bare
  cases slot with
  | history index => exact absurd rfl (other index)
  | jobStart =>
    exact
      { rooted := lent, charged := balanced.charged, families := balanced.families
        vacated := by
          intro lease member
          cases List.mem_singleton.mp member
          exact ⟨fun _ => rfl, nofun⟩
        numbered := balanced.numbered, dead := balanced.dead, once := balanced.once }
  | currentCandidate => ?_
  exact
    { rooted := lent, charged := balanced.charged, families := balanced.families
      vacated := by
        intro lease member
        cases List.mem_singleton.mp member
        exact ⟨nofun, fun _ => rfl⟩
      numbered := balanced.numbered, dead := balanced.dead, once := balanced.once }

theorem Balanced.restore (balanced : Balanced sink [lease] released) :
    ∃ state, sink.state.restoreReplayAnchor lease = .ok state ∧
      Balanced { sink with state := state } [] released ∧ state.records = sink.state.records ∧
      state.checkpointKeys.length = sink.state.checkpointKeys.length := by
  obtain ⟨vacantStart, vacantCandidate⟩ := balanced.vacated lease (List.mem_singleton.mpr rfl)
  obtain ⟨slot, key⟩ := lease
  cases slot with
  | jobStart =>
    refine ⟨?stateStart, ?restoredStart, ?keptStart, ?recordsStart, ?keysStart⟩
    case restoredStart =>
      simp only [restoreReplayAnchor, vacantStart rfl]
      rfl
    case recordsStart => rfl
    case keysStart => rfl
    case keptStart =>
      exact
      { rooted := balanced.rooted.restore_other nofun
        charged := balanced.charged, families := balanced.families
        vacated := nofun
        numbered := balanced.numbered, dead := balanced.dead, once := balanced.once }
  | currentCandidate =>
    refine ⟨?stateCandidate, ?restoredCandidate, ?keptCandidate, ?recordsCandidate, ?keysCandidate⟩
    case restoredCandidate =>
      simp only [restoreReplayAnchor, vacantCandidate rfl]
      rfl
    case recordsCandidate => rfl
    case keysCandidate => rfl
    case keptCandidate =>
      exact
      { rooted := balanced.rooted.restore_other nofun
        charged := balanced.charged, families := balanced.families
        vacated := nofun
        numbered := balanced.numbered, dead := balanced.dead, once := balanced.once }
  | history index => ?_
  have row := balanced.rooted.leased index key (List.mem_singleton.mpr rfl)
  refine ⟨?stateRow, ?restoredRow, ?keptRow, ?recordsRow, ?keysRow⟩
  case restoredRow =>
    simp only [restoreReplayAnchor, row]
    rfl
  case recordsRow => rfl
  case keysRow => exact List.length_set
  case keptRow =>
    exact
      { rooted := balanced.rooted.restore
        charged := balanced.charged, families := balanced.families
        vacated := nofun
        numbered := balanced.numbered, dead := balanced.dead, once := balanced.once }

end Anchors

section Publications

variable [DecidableEq Identity] {sink : LiveHistorySink Identity Runtime}
  {leases : List ReplayAnchorLease} {released : List Nat}

theorem checkpoint_rows (definitionsMatch : Runtime → Runtime → Bool)
    (sink : LiveHistorySink Identity Runtime) (captured : EngineCheckpoint Identity Runtime) :
    ∃ record evidence,
      (sink.checkpoint definitionsMatch captured).state.records = sink.state.records ++ [record] ∧
      (sink.checkpoint definitionsMatch captured).retained =
        (sink.retained.appendCell (some captured) evidence).2 ∧
      (sink.checkpoint definitionsMatch captured).state.currentCandidateReplayAnchor =
        sink.state.currentCandidateReplayAnchor ∧ if captured.boundary = .jobStart then
        (sink.checkpoint definitionsMatch captured).state.checkpointKeys =
          sink.state.checkpointKeys ++ [none] ∧
        (sink.checkpoint definitionsMatch captured).state.checkpointRetentions =
          sink.state.checkpointRetentions ++ [none] ∧
        (sink.checkpoint definitionsMatch captured).state.sharedOwnerCharges =
          sink.state.sharedOwnerCharges else
        (sink.checkpoint definitionsMatch captured).state.checkpointKeys =
          sink.state.checkpointKeys ++ [some sink.retained.nextRecord] ∧
        (sink.checkpoint definitionsMatch captured).state.checkpointRetentions =
          sink.state.checkpointRetentions ++ [some captured.retention] ∧
        (sink.checkpoint definitionsMatch captured).state.sharedOwnerCharges =
          observeSharedOwners sink.state.sharedOwnerCharges captured.retention ∧
        (sink.checkpoint definitionsMatch captured).state.jobStartReplayAnchor =
          sink.state.jobStartReplayAnchor := by
  simp only [LiveHistorySink.checkpoint, convergenceTarget_eq]
  cases matched : LiveHistorySink.matchPrior definitionsMatch sink captured
      (sink.state.comparedWith (sink.state.publishedKey captured)) with
  | none =>
    simp only [publishedKey] at matched
    simp only [matched]
    split
    next => exact ⟨_, _, rfl, rfl, rfl, rfl, rfl, rfl⟩
    next => exact ⟨_, _, rfl, rfl, rfl, rfl, rfl, rfl, rfl⟩
  | some old => ?_
  simp only [publishedKey] at matched
  simp only [matched]
  split
  next => exact ⟨_, _, rfl, rfl, rfl, rfl, rfl, rfl⟩
  next => exact ⟨_, _, rfl, rfl, rfl, rfl, rfl, rfl, rfl⟩

theorem Balanced.publish (balanced : Balanced sink leases released) (sized : sink.state.Sized)
    (definitionsMatch : Runtime → Runtime → Bool) {captured : EngineCheckpoint Identity Runtime}
    (families : captured.retention.FamiliesDistinct)
    (alone : captured.boundary = .jobStart → leases = []) :
    Balanced (sink.checkpoint definitionsMatch captured) leases released ∧
      (sink.checkpoint definitionsMatch captured).state.Sized := by
  obtain ⟨record, evidence, records, lane, candidate, rows⟩ :=
    checkpoint_rows definitionsMatch sink captured
  have stays : ∀ key, sink.retained.Live key →
      (sink.checkpoint definitionsMatch captured).retained.Live key :=
    fun key live => lane ▸ live.appendCell (some captured) evidence
  have guard : ∀ key, sink.retained.Live key →
      (sink.checkpoint definitionsMatch captured).retained.protectedRecord = some key →
      sink.retained.protectedRecord = some key := by
    intro key live protects
    rw [lane] at protects
    rcases BoundaryLane.protectedRecord_appendCell _ _ _ protects with older | ⟨rfl, _⟩
    · exact older
    · exact absurd (live.lt_nextRecord balanced.numbered) (Nat.lt_irrefl _)
  have numbered : (sink.checkpoint definitionsMatch captured).retained.WellNumbered :=
    lane ▸ balanced.numbered.appendCell (some captured) evidence
  have dead : ∀ key ∈ released,
      ¬ (sink.checkpoint definitionsMatch captured).retained.Live key ∧
        key < (sink.checkpoint definitionsMatch captured).retained.nextRecord := by
    intro key member
    obtain ⟨gone, below⟩ := balanced.dead key member
    rw [lane]
    exact ⟨fun live => gone (live.of_appendCell below), Nat.lt_succ_of_lt below⟩
  by_cases start : captured.boundary = .jobStart
  · rw [if_pos start] at rows
    obtain ⟨keys, retentions, charges⟩ := rows
    refine ⟨?_, by simpa [LiveHistoryState.Sized, keys, records] using sized⟩
    exact
      { rooted := by
          rw [keys, retentions]
          exact balanced.rooted.push_none stays guard
        charged := by
          rw [charges, retentions]
          exact balanced.charged.congr fun key => chargesOfRows_append_none _ key
        families := by
          intro retention member
          rw [retentions] at member
          exact balanced.families retention (by simpa using member)
        vacated := by
          intro lease member
          rw [alone start] at member
          cases member
        numbered := numbered, dead := dead, once := balanced.once }
  rw [if_neg start] at rows
  obtain ⟨keys, retentions, charges, anchor⟩ := rows
  refine ⟨?_, by simpa [LiveHistoryState.Sized, keys, records] using sized⟩
  exact
    { rooted := by
        rw [keys, retentions]
        refine balanced.rooted.push_some captured.retention ?_ ?_ stays guard ?_
        · intro index holds
          have live := balanced.rooted.live index _ holds
          exact absurd (live.lt_nextRecord balanced.numbered) (Nat.lt_irrefl _)
        · exact lane ▸ BoundaryLane.live_appendCell balanced.numbered captured evidence
        intro protects
        rw [lane] at protects
        rcases BoundaryLane.protectedRecord_appendCell _ _ _ protects with
          older | ⟨_, other, same, first⟩
        · exact absurd (balanced.numbered.protectedBelow _ older) (Nat.lt_irrefl _)
        cases same
        exact absurd first start
      charged := by
        rw [charges, retentions]
        exact (ownersCharged_observe balanced.charged captured.retention).congr
          fun key => chargesOfRows_append_some _ _ key
      families := by
        intro retention member
        rw [retentions] at member
        rcases List.mem_append.mp member with older | newer
        · exact balanced.families retention older
        cases List.mem_singleton.mp newer
        exact families
      vacated := by
        intro lease member
        rw [anchor, candidate]
        exact balanced.vacated lease member
      numbered := numbered, dead := dead, once := balanced.once }

omit [DecidableEq Identity] in
theorem Balanced.inherit (balanced : Balanced sink [] released) (sized : sink.state.Sized)
    (fresh : sink.state.records = []) {inherited : InheritedBoundary Identity}
    (promised : inherited.publishRecord = true →
      sink.retained.Live inherited.key ∧ inherited.retention.FamiliesDistinct) :
    Balanced { sink with state := sink.state.inheritBoundary inherited } [] released ∧
      (sink.state.inheritBoundary inherited).Sized := by
  have noKeys : sink.state.checkpointKeys = [] :=
    List.length_eq_zero_iff.mp (sized.trans (congrArg List.length fresh))
  cases published : inherited.publishRecord with
  | false =>
    simp only [inheritBoundary, published, Bool.false_eq_true, if_false]
    refine ⟨?_, sized⟩
    exact
      { rooted := balanced.rooted, charged := balanced.charged, families := balanced.families
        vacated := fun _ member => absurd member List.not_mem_nil
        numbered := balanced.numbered, dead := balanced.dead, once := balanced.once }
  | true => ?_
  obtain ⟨live, families⟩ := promised published
  simp only [inheritBoundary, published, if_true]
  refine ⟨?_, by simpa [LiveHistoryState.Sized] using sized⟩
  exact
    { rooted := by
        refine balanced.rooted.push_some inherited.retention ?_ live (fun _ live => live)
          (fun _ _ protects => protects) (fun _ => ⟨noKeys, rfl⟩)
        intro index holds
        have bound := holds.lt_length balanced.rooted
        rw [noKeys] at bound
        exact absurd bound (Nat.not_lt_zero _)
      charged := (ownersCharged_observe balanced.charged inherited.retention).congr
        fun key => chargesOfRows_append_some _ _ key
      families := by
        intro retention member
        rcases List.mem_append.mp member with older | newer
        · exact balanced.families retention older
        cases List.mem_singleton.mp newer
        exact families
      vacated := fun _ member => absurd member List.not_mem_nil
      numbered := balanced.numbered, dead := balanced.dead, once := balanced.once }

end Publications

namespace BudgetRun

variable [DecidableEq Identity]

/-- What the driver keeps to. The budget is enforced, and an anchor is taken,
while no anchor is out; a boundary is inherited by an empty history, and under a
live key; a checkpoint charges an owner at most once. -/
def Permitted (run : BudgetRun Identity Runtime) : BudgetEvent Identity Runtime → Prop
  | .inherit inherited =>
    run.leases = [] ∧ run.sink.state.records = [] ∧
      (inherited.publishRecord = true →
        run.sink.retained.Live inherited.key ∧ inherited.retention.FamiliesDistinct)
  | .publish captured =>
    captured.retention.FamiliesDistinct ∧ (captured.boundary = .jobStart → run.leases = [])
  | .release => run.leases = []
  | .take => run.leases = []
  | .rewind _ => True
  | .restore _ => True

section Runs

variable (definitionsMatch : Runtime → Runtime → Bool)

def Disciplined : BudgetRun Identity Runtime → List (BudgetEvent Identity Runtime) → Prop
  | _, [] => True
  | run, event :: events =>
    run.Permitted event ∧
      ∀ next, run.step definitionsMatch event = .ok next → Disciplined next events

structure Sound (run : BudgetRun Identity Runtime) : Prop where
  keys : run.sink.state.checkpointKeys.length = run.sink.state.records.length
  retentions : run.sink.state.checkpointRetentions.length = run.sink.state.records.length
  described : ∀ index, (run.sink.state.checkpointRetentions[index]?).join.isSome ↔
    ∃ key, HoldsRoot run.sink.state.checkpointKeys run.leases index key
  counted : ∀ entry ∈ run.sink.state.sharedOwnerCharges,
    entry.restartRoots = rootsCharging run.sink.state.checkpointRetentions entry.key
  observed : ∀ key, 0 < rootsCharging run.sink.state.checkpointRetentions key ↔
    ∃ entry ∈ run.sink.state.sharedOwnerCharges, entry.key = key
  releasedOnce : run.released.Nodup
  releasedDead : ∀ key ∈ run.released, ¬ run.sink.retained.Live key

/-- A call of the budget takes a live root that was not released before, or ends
with the budget met or nothing left to release. -/
def CallEnds (run : BudgetRun Identity Runtime) : Prop :=
  ∃ handed next, run.sink.takeBudgetRelease = .ok (handed, next) ∧
    next.state.records.head? = run.sink.state.records.head? ∧
    next.state.records.getLast? = run.sink.state.records.getLast? ∧
    next.state.records.Sublist run.sink.state.records ∧
    (∀ key, handed = some key → run.sink.retained.Live key ∧ key ∉ run.released) ∧
    (handed = none → next.state.retainedBytes ≤ next.state.checkpointBudget ∨ next.Bare)

def CallsEnd (run : BudgetRun Identity Runtime) : Prop :=
  ∃ drained settled, run.sink.drainBudget = .ok (drained, settled) ∧
    (run.released ++ drained).Nodup ∧
    settled.state.records.head? = run.sink.state.records.head? ∧
    settled.state.records.getLast? = run.sink.state.records.getLast? ∧
    (settled.state.retainedBytes ≤ settled.state.checkpointBudget ∨ settled.Bare)

def RewindEnds (run : BudgetRun Identity Runtime) (lease : ReplayAnchorLease) : Prop :=
  ∃ popped next, run.sink.rewindReleasing lease.slot = .ok (popped, next) ∧
    (run.released ++ popped).Nodup ∧
    next.state.records = run.sink.state.records.take (run.sink.state.keptRecords lease.slot)

variable {definitionsMatch} {run : BudgetRun Identity Runtime}

theorem step_balanced (balanced : Balanced run.sink run.leases run.released)
    (sized : run.sink.state.Sized) {event : BudgetEvent Identity Runtime}
    (permitted : run.Permitted event) : ∃ next, run.step definitionsMatch event = .ok next ∧
      Balanced next.sink next.leases next.released ∧ next.sink.state.Sized := by
  obtain ⟨sink, leases, released⟩ := run
  cases event with
  | inherit inherited =>
    obtain ⟨rfl, fresh, promised⟩ := permitted
    obtain ⟨kept, size⟩ := balanced.inherit sized fresh promised
    refine ⟨⟨{ sink with state := sink.state.inheritBoundary inherited }, [], released⟩, ?_, kept,
      size⟩
    simp only at fresh
    simp [step, fresh]
  | publish captured =>
    obtain ⟨families, alone⟩ := permitted
    obtain ⟨kept, size⟩ := balanced.publish sized definitionsMatch families alone
    exact ⟨_, rfl, kept, size⟩
  | release =>
    cases permitted
    obtain ⟨handed, next, taken, call⟩ := balanced.takeBudgetRelease sized
    refine ⟨⟨next, [], released ++ handed.toList⟩, ?_, call.balanced, call.sized⟩
    simp only [step, taken]
    rfl
  | take =>
    cases permitted
    cases latest : sink.state.latestReplayAnchor with
    | none =>
      refine ⟨_, ?_, balanced, sized⟩
      simp only [step, takeLatestReplayAnchor, latest, Option.map_none]
    | some lease => ?_
    refine ⟨⟨{ sink with state := sink.state.clearAnchor lease.slot }, [lease], released⟩, ?_,
      balanced.take latest, ?_⟩
    · simp only [step, takeLatestReplayAnchor, latest, Option.map_some]
    unfold clearAnchor LiveHistoryState.Sized
    split
    next => exact List.length_set.trans sized
    next => exact sized
    next => exact sized
  | rewind lease =>
    by_cases member : lease ∈ leases
    · obtain ⟨popped, next, rewound, kept, size, _, _⟩ := balanced.rewindReleasing sized member
      refine ⟨⟨next, leases, released ++ popped⟩, ?_, kept, size⟩
      simp only [step, member, if_true, rewound]
      rfl
    refine ⟨_, ?_, balanced, sized⟩
    simp only [step, member, if_false]
  | restore lease => ?_
  by_cases member : lease ∈ leases
  · have alone : leases = [lease] := by
      have single := balanced.rooted.single
      cases leases with
      | nil => cases member
      | cons first rest => ?_
      cases rest with
      | nil => rw [List.mem_singleton.mp member]
      | cons second rest => simp at single
    subst alone
    obtain ⟨state, restored, kept, records, keys⟩ := balanced.restore
    refine ⟨⟨{ sink with state := state }, [], released⟩, ?_, kept, ?_⟩
    · simp only [step, member, if_true, restored, List.erase_cons_head]
      rfl
    · exact keys.trans (sized.trans (congrArg List.length records).symm)
  refine ⟨_, ?_, balanced, sized⟩
  simp only [step, member, if_false]

theorem steps_balanced (events : List (BudgetEvent Identity Runtime))
    {run : BudgetRun Identity Runtime} (balanced : Balanced run.sink run.leases run.released)
    (sized : run.sink.state.Sized) (disciplined : run.Disciplined definitionsMatch events) :
    ∃ final, run.steps definitionsMatch events = .ok final ∧
      Balanced final.sink final.leases final.released ∧ final.sink.state.Sized := by
  induction events generalizing run with
  | nil => exact ⟨run, rfl, balanced, sized⟩
  | cons event events ih => ?_
  obtain ⟨permitted, later⟩ := disciplined
  obtain ⟨next, stepped, kept, size⟩ :=
    @step_balanced _ _ _ definitionsMatch _ balanced sized _ permitted
  obtain ⟨final, finished, settled⟩ := ih kept size (later next stepped)
  refine ⟨final, ?_, settled⟩
  simp only [steps, List.foldlM_cons, stepped, ok_bind]
  exact finished

omit [DecidableEq Identity] in
theorem start_balanced (revision recordBytes checkpointBudget : Nat)
    (convergence : Option (LiveConvergence Identity)) {lane : BoundaryLane Identity Runtime}
    (numbered : lane.WellNumbered) :
    Balanced (start revision recordBytes checkpointBudget convergence lane).sink [] [] where
  rooted :=
    { lengths := rfl
      single := Nat.zero_le _
      leased := fun _ _ member => absurd member List.not_mem_nil
      described := by
        intro index
        simp [start, new, HoldsRoot]
      unique := by
        intro index other key holds
        simp [start, new, HoldsRoot] at holds
      live := by
        intro index key holds
        simp [start, new, HoldsRoot] at holds
      guarded := by
        intro index key holds
        simp [start, new, HoldsRoot] at holds }
  charged := .empty fun _ => rfl
  families := fun _ member => absurd member List.not_mem_nil
  vacated := fun _ member => absurd member List.not_mem_nil
  numbered := numbered
  dead := fun _ member => absurd member List.not_mem_nil
  once := .nil

omit [DecidableEq Identity] in
theorem Sound.of_balanced (balanced : Balanced run.sink run.leases run.released)
    (sized : run.sink.state.Sized) : run.Sound where
  keys := sized
  retentions := balanced.rooted.lengths.trans sized
  described := balanced.rooted.described
  counted := by
    intro entry member
    rw [balanced.charged.counted entry member, chargesOfRows_eq_rootsCharging balanced.families]
  observed := by
    intro key
    rw [← chargesOfRows_eq_rootsCharging balanced.families]
    constructor
    · exact balanced.charged.complete key
    rintro ⟨entry, member, rfl⟩
    exact balanced.charged.counted entry member ▸ balanced.charged.positive entry member
  releasedOnce := balanced.once
  releasedDead := fun key member => (balanced.dead key member).1

/-- Every disciplined run goes through without a fault and keeps its books, and
in every state it reaches the budget calls and the rewinds end. -/
theorem budget_sound (definitionsMatch : Runtime → Runtime → Bool)
    (revision recordBytes checkpointBudget : Nat)
    (convergence : Option (LiveConvergence Identity)) {lane : BoundaryLane Identity Runtime}
    (reached : lane.Reachable) (events : List (BudgetEvent Identity Runtime))
    (disciplined : (start revision recordBytes checkpointBudget convergence lane).Disciplined
      definitionsMatch events) :
    ∃ run, (start revision recordBytes checkpointBudget convergence lane).steps
        definitionsMatch events = .ok run ∧
      run.Sound ∧ (run.leases = [] → run.CallEnds ∧ run.CallsEnd) ∧
      ∀ lease ∈ run.leases, run.RewindEnds lease := by
  obtain ⟨run, finished, balanced, sized⟩ := steps_balanced events
    (start_balanced revision recordBytes checkpointBudget convergence reached.wellNumbered) rfl
    disciplined
  refine ⟨run, finished, .of_balanced balanced sized, ?_, ?_⟩
  · intro settled
    rw [settled] at balanced
    obtain ⟨handed, next, taken, call⟩ := balanced.takeBudgetRelease sized
    obtain ⟨drained, rest, drainedAll, kept, _, first, newest, exits⟩ :=
      balanced.drainRounds _ sized (Nat.lt_succ_self _)
    refine ⟨⟨handed, next, taken, call.first, call.newest, call.fewer, ?_, call.settled⟩,
      drained, rest, drainedAll, kept.once, first, newest, exits⟩
    intro key given
    have alive := (call.handedOut key given).1
    exact ⟨alive, fun member => (balanced.dead key member).1 alive⟩
  intro lease member
  obtain ⟨popped, next, rewound, kept, _, records, _⟩ := balanced.rewindReleasing sized member
  exact ⟨popped, next, rewound, kept.once, records⟩

end Runs

section Samples

def sampleBoundary (boundary : EngineBoundary) (position : Nat) : EngineCheckpoint Nat Unit where
  boundary := boundary
  rootAnchor := position
  effectPrefixLen := 0
  artifactPrefixLen := 0
  reachableStateIdentity := none
  retention := ⟨[⟨position, .command, 10⟩, ⟨7, .core, 20⟩], 5⟩
  runtime := ()

def sampleStart : BudgetRun Nat Unit := start 1 1 0 none .empty

def inheritedEvidence : RetainedBoundaryEvidence Nat where
  revision := 0
  position := 0
  boundary := .outerParagraphEnd
  ordinal := 0
  effectPrefix := 0
  artifactPrefix := 0
  reachableStateIdentity := none

/-- The lane of a candidate forked at its only row. -/
def inheritedLane : BoundaryLane Nat Unit where
  nextRecord := 1
  ownership := .forked [⟨0, inheritedEvidence, some (sampleBoundary .outerParagraphEnd 0)⟩] [] []
  protectedRecord := none

def inheritedStart : BudgetRun Nat Unit := start 1 1 0 none inheritedLane

/-- A budget that nothing fits: the root of the first paragraph behind an inherited
row is released, the second paragraph is rewound and its root handed out, and the
inherited root comes back. -/
def sampleEvents : List (BudgetEvent Nat Unit) :=
  [.inherit ⟨0, inheritedEvidence, (sampleBoundary .outerParagraphEnd 0).retention, true⟩,
    .publish (sampleBoundary .outerParagraphEnd 1), .release, .take,
    .publish (sampleBoundary .outerParagraphEnd 2), .rewind ⟨.history 0, 0⟩,
    .restore ⟨.history 0, 0⟩, .release]

theorem inheritedLane_reachable : inheritedLane.Reachable :=
  .fork (.append .empty (some (sampleBoundary .outerParagraphEnd 0)) inheritedEvidence) 0 rfl

theorem sampleBoundary_families (boundary : EngineBoundary) (position : Nat) :
    (sampleBoundary boundary position).retention.FamiliesDistinct := by
  show [CheckpointOwnerFamily.command, .core].Nodup
  decide

theorem sampleEvents_disciplined : inheritedStart.Disciplined (fun _ _ => true) sampleEvents := by
  refine ⟨⟨rfl, rfl, fun _ => ⟨rfl, sampleBoundary_families .outerParagraphEnd 0⟩⟩, fun _ inherited => ?_⟩
  cases inherited
  refine ⟨⟨sampleBoundary_families _ _, nofun⟩, fun _ published => ?_⟩
  cases published
  refine ⟨rfl, fun _ released => ?_⟩
  cases released
  refine ⟨rfl, fun _ taken => ?_⟩
  cases taken
  refine ⟨⟨sampleBoundary_families _ _, nofun⟩, fun _ published => ?_⟩
  cases published
  refine ⟨trivial, fun _ rewound => ?_⟩
  cases rewound
  refine ⟨trivial, fun _ restored => ?_⟩
  cases restored
  exact ⟨rfl, fun _ _ => trivial⟩

theorem budget_sound_sample : ∃ run,
    inheritedStart.steps (fun _ _ => true) sampleEvents = .ok run ∧
      run.released = [1, 2] ∧ run.sink.state.checkpointKeys = [some 0] ∧ run.Sound ∧
      (run.leases = [] → run.CallEnds ∧ run.CallsEnd) ∧
      ∀ lease ∈ run.leases, run.RewindEnds lease := by
  obtain ⟨run, finished, sound, ends, rewinds⟩ := budget_sound (fun _ _ => true) 1 1 0 none
    inheritedLane_reachable sampleEvents sampleEvents_disciplined
  refine ⟨run, finished, ?_, ?_, sound, ends, rewinds⟩
  · cases finished
    rfl
  cases finished
  rfl

/-- An anchor is out while the budget is enforced, and its row is pruned. -/
def interleavedEvents : List (BudgetEvent Nat Unit) :=
  [.publish (sampleBoundary .jobStart 0), .publish (sampleBoundary .outerParagraphEnd 1), .take,
    .publish (sampleBoundary .outerParagraphEnd 2), .release, .release]

def rewoundEvents : List (BudgetEvent Nat Unit) :=
  [.publish (sampleBoundary .jobStart 0), .publish (sampleBoundary .outerParagraphEnd 1),
    .release, .release, .take, .rewind ⟨.jobStart, 0⟩, .restore ⟨.jobStart, 0⟩]

def faultOf (result : Except BudgetFault (BudgetRun Nat Unit)) : Option BudgetFault :=
  match result with
  | .ok _ => none
  | .error fault => some fault

theorem anchor_out_while_pruning : faultOf (sampleStart.steps (fun _ _ => true) interleavedEvents) =
      some .prunedRowHasRetention ∧
    ((sampleStart.steps (fun _ _ => true) (rewoundEvents.take 4)).toOption.map fun run =>
      run.sink.state.records.length) = some 2 ∧
    ((sampleStart.steps (fun _ _ => true) rewoundEvents).toOption.map fun run =>
      run.sink.state.records.length) = some 1 := by
  decide +kernel

end Samples

end BudgetRun

end Umber.Incr
