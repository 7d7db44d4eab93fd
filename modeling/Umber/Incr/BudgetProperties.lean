import Umber.Incr.BudgetRows
import Umber.Incr.LiveProperties

/-! What the calls of the checkpoint budget preserve. -/

set_option autoImplicit false

namespace Umber.Incr

open ExceptLib

variable {Identity Runtime : Type}

/-- The roots of a history and the owners they charge are in step, and a key
that was released is dead. -/
structure Balanced (sink : LiveHistorySink Identity Runtime) (leases : List ReplayAnchorLease)
    (released : List Nat) : Prop where
  rooted : RowsRooted sink.state.checkpointKeys sink.state.checkpointRetentions leases sink.retained
  charged : OwnersCharged sink.state.sharedOwnerCharges
    (chargesOfRows sink.state.checkpointRetentions)
  families : ∀ retention, some retention ∈ sink.state.checkpointRetentions →
    retention.FamiliesDistinct
  vacated : ∀ lease ∈ leases, (lease.slot = .jobStart → sink.state.jobStartReplayAnchor = none) ∧
    (lease.slot = .currentCandidate → sink.state.currentCandidateReplayAnchor = none)
  numbered : sink.retained.WellNumbered
  dead : ∀ key ∈ released, ¬ sink.retained.Live key ∧ key < sink.retained.nextRecord
  once : released.Nodup

def LiveHistoryState.Sized (state : LiveHistoryState Identity) : Prop :=
  state.checkpointKeys.length = state.records.length

namespace LiveHistoryState

variable {state : LiveHistoryState Identity} {victim : Nat}
  {accepted : Nat → BoundaryRecord Identity → Option Nat → Bool}

theorem firstFrom_some (found : state.firstFrom accepted = some victim) :
    victim ≠ 0 ∧ ∃ record key, state.records[victim]? = some record ∧
      state.checkpointKeys[victim]? = some key ∧ accepted victim record key = true := by
  obtain ⟨entry, first, rfl⟩ := Option.map_eq_some_iff.mp found
  obtain ⟨⟨record, key⟩, index⟩ := entry
  have member := List.mem_zipIdx' (List.mem_of_find?_eq_some first)
  have chosen := List.find?_some first
  simp only [Bool.and_eq_true, bne_iff_ne] at chosen
  obtain ⟨bound, same⟩ := member
  have both := List.getElem?_zip_eq_some.mp (List.getElem?_eq_some_iff.mpr ⟨bound, same.symm⟩)
  exact ⟨chosen.1, record, key, both.1, both.2, chosen.2⟩

theorem firstFrom_none (found : state.firstFrom accepted = none) {index : Nat} (behind : index ≠ 0)
    {record : BoundaryRecord Identity} {key : Option Nat}
    (row : state.records[index]? = some record) (root : state.checkpointKeys[index]? = some key) :
    accepted index record key = false := by
  have rejected := List.find?_eq_none.mp (Option.map_eq_none_iff.mp found) ((record, key), index)
    (List.mk_mem_zipIdx_iff_getElem?.mpr (List.getElem?_zip_eq_some.mpr ⟨row, root⟩))
  simpa [behind] using rejected

theorem restartVictim_some (chosen : state.restartVictim = some victim) :
    victim ≠ 0 ∧ ∃ key, state.checkpointKeys[victim]? = some (some key) := by
  unfold restartVictim at chosen
  simp only [Option.orElse_eq_orElse, Option.orElse_eq_or] at chosen
  rcases Option.or_eq_some_iff.mp chosen with paragraph | ⟨_, any⟩
  · obtain ⟨behind, record, key, _, root, accepted⟩ := firstFrom_some paragraph
    cases key with
    | none => simp at accepted
    | some key => exact ⟨behind, key, root⟩
  obtain ⟨behind, record, key, _, root, accepted⟩ := firstFrom_some any
  cases key with
  | none => simp at accepted
  | some key => exact ⟨behind, key, root⟩

theorem restartVictim_none (sized : state.Sized) (none : state.restartVictim = none) {index : Nat}
    (behind : index ≠ 0) : (state.checkpointKeys[index]?).join = Option.none := by
  unfold restartVictim at none
  simp only [Option.orElse_eq_orElse, Option.orElse_eq_or] at none
  obtain ⟨_, any⟩ := Option.or_eq_none_iff.mp none
  cases root : state.checkpointKeys[index]? with
  | none => rfl
  | some key => ?_
  have bound := (List.getElem?_eq_some_iff.mp root).1
  have rejected := firstFrom_none any behind (List.getElem?_eq_getElem (sized ▸ bound)) root
  cases key with
  | none => rfl
  | some key => simp at rejected

theorem evidenceVictim_some (chosen : state.evidenceVictim = some victim) :
    victim ≠ 0 ∧ victim + 1 ≠ state.records.length ∧ victim < state.records.length ∧
      victim < state.checkpointKeys.length := by
  unfold evidenceVictim at chosen
  split at chosen
  next => cases chosen
  rename_i many
  have within : ∀ accepted : Nat → BoundaryRecord Identity → Option Nat → Bool,
      state.firstFrom accepted = some victim →
      (∀ record key, accepted victim record key = true → victim ≠ state.records.length - 1) →
      victim ≠ 0 ∧ victim + 1 ≠ state.records.length ∧ victim < state.records.length ∧
        victim < state.checkpointKeys.length := by
    intro accepted found apart
    obtain ⟨behind, record, key, row, root, holds⟩ := firstFrom_some found
    have inner := apart record key holds
    exact ⟨behind, by omega, (List.getElem?_eq_some_iff.mp row).1,
      (List.getElem?_eq_some_iff.mp root).1⟩
  simp only [Option.orElse_eq_orElse, Option.orElse_eq_or] at chosen
  rcases Option.or_eq_some_iff.mp chosen with paragraph | ⟨_, any⟩
  · exact within _ paragraph fun record key holds => by
      simp only [Bool.and_eq_true, bne_iff_ne] at holds
      exact holds.1
  · exact within _ any fun record key holds => by simpa using holds

theorem evidenceVictim_none (sized : state.Sized) (none : state.evidenceVictim = none) :
    state.records.length ≤ 2 := by
  unfold evidenceVictim at none
  split at none
  next few => exact few
  rename_i many
  simp only [Option.orElse_eq_orElse, Option.orElse_eq_or] at none
  obtain ⟨_, any⟩ := Option.or_eq_none_iff.mp none
  have row : 1 < state.records.length := by omega
  have rejected := firstFrom_none any (by decide : 1 ≠ 0) (List.getElem?_eq_getElem row)
    (List.getElem?_eq_getElem (sized ▸ row))
  simp at rejected
  omega

end LiveHistoryState

namespace LiveHistorySink

def Bare (sink : LiveHistorySink Identity Runtime) : Prop :=
  (∀ index, index ≠ 0 → (sink.state.checkpointKeys[index]?).join = none) ∧
    sink.state.records.length ≤ 2

end LiveHistorySink

section Release

variable {sink next : LiveHistorySink Identity Runtime} {leases : List ReplayAnchorLease}
  {released : List Nat} {retentions : List (Option CheckpointRetention)} {index : Nat}
  {retention : CheckpointRetention}

theorem chargesOf_le_rows (found : retentions[index]? = some (some retention))
    (key : Nat × CheckpointOwnerFamily) :
    retention.chargesOf key ≤ chargesOfRows retentions key := by
  have split := chargesOfRows_set_none found key
  omega

theorem mem_set_none (member : some retention ∈ retentions.set index none) :
    some retention ∈ retentions := by
  rcases List.mem_or_eq_of_mem_set member with older | same
  · exact older
  · cases same

variable {key : Nat}

/-- Releasing a held root that is not the protected one. -/
theorem Balanced.dead_append (balanced : Balanced sink leases released)
    (holds : HoldsRoot sink.state.checkpointKeys leases index key) :
    (∀ other ∈ released ++ [key], ¬ (sink.retained.removeVisible key).Live other ∧
      other < (sink.retained.removeVisible key).nextRecord) ∧ (released ++ [key]).Nodup := by
  have alive := balanced.rooted.live index key holds
  constructor
  · intro other member
    rcases List.mem_append.mp member with older | newer
    · obtain ⟨gone, below⟩ := balanced.dead other older
      have apart : other ≠ key := fun same => gone (same ▸ alive)
      exact ⟨fun live => gone ((BoundaryLane.live_removeVisible_ne apart).mp live), below⟩
    cases List.mem_singleton.mp newer
    exact ⟨BoundaryLane.not_live_removeVisible balanced.numbered,
      alive.lt_nextRecord balanced.numbered⟩
  rw [List.nodup_append]
  refine ⟨balanced.once, by simp, ?_⟩
  intro other member newer single same
  cases List.mem_singleton.mp single
  exact (balanced.dead other member).1 (same ▸ alive)

/-- The restart arm goes through: the root is released, and so are its owners. -/
theorem Balanced.takeVictim (balanced : Balanced sink [] released) {victim : Nat}
    (behind : victim ≠ 0) (found : sink.state.checkpointKeys[victim]? = some (some key)) :
    ∃ next, sink.takeVictim victim = .ok (key, next) ∧ Balanced next [] (released ++ [key]) ∧
      next.state.records = sink.state.records ∧ sink.retained.Live key ∧
      next.state.checkpointKeys = sink.state.checkpointKeys.set victim none := by
  have holds : HoldsRoot sink.state.checkpointKeys [] victim key := .inl (by rw [found]; rfl)
  have alive := balanced.rooted.live victim key holds
  have unguarded : sink.retained.protectedRecord ≠ some key :=
    fun protects => behind (balanced.rooted.guarded victim key holds protects).1
  have described := (balanced.rooted.described victim).mpr ⟨key, holds⟩
  obtain ⟨retention, joined⟩ := Option.isSome_iff_exists.mp described
  have root := Option.join_eq_some_iff.mp joined
  obtain ⟨charges, releasedOwners, charged⟩ :=
    releaseOwners_eq_ok balanced.charged (chargesOf_le_rows root)
  obtain ⟨dead, once⟩ := balanced.dead_append holds
  refine ⟨?next, ?taken, ?kept, ?records, alive, ?keys⟩
  case taken =>
    simp only [LiveHistorySink.takeVictim, found, Option.join_some,
      BoundaryLane.releaseKey_eq_ok alive unguarded, joined, releasedOwners]
    rfl
  case records => rfl
  case keys => rfl
  case kept =>
    exact
      { rooted := balanced.rooted.release found
        charged := charged.congr fun owner => by
          have split := chargesOfRows_set_none root owner
          show chargesOfRows (sink.state.checkpointRetentions.set victim none) owner = _
          omega
        families := fun retention member => balanced.families retention (mem_set_none member)
        vacated := nofun
        numbered := balanced.numbered.removeVisible key
        dead := dead
        once := once }

/-- The evidence arm goes through: a row without a root leaves. -/
theorem Balanced.removeVictim (balanced : Balanced sink [] released) {victim : Nat}
    (bare : (sink.state.checkpointKeys[victim]?).join = none)
    (bound : victim < sink.state.checkpointKeys.length) :
    sink.removeVictim victim = .ok (sink.pruneEvidence victim) ∧
      Balanced (sink.pruneEvidence victim) [] released := by
  have noKey : sink.state.checkpointKeys[victim]? = some none := by
    cases found : sink.state.checkpointKeys[victim]? with
    | none => exact absurd (List.getElem?_eq_none_iff.mp found) (by omega)
    | some key => ?_
    cases key with
    | none => rfl
    | some key => simp [found] at bare
  have noRoot : sink.state.checkpointRetentions[victim]? = some none := by
    cases found : sink.state.checkpointRetentions[victim]? with
    | none =>
      have lengths := balanced.rooted.lengths
      exact absurd (List.getElem?_eq_none_iff.mp found) (by omega)
    | some root => ?_
    cases root with
    | none => rfl
    | some retention => ?_
    obtain ⟨key, holds⟩ := (balanced.rooted.described victim).mp (by simp [found])
    rcases holds with present | out
    · rw [bare] at present
      cases present
    · cases out
  constructor
  · simp only [LiveHistorySink.removeVictim, noKey, noRoot]
  exact
    { rooted := balanced.rooted.remove victim bound
      charged := balanced.charged.congr fun owner => chargesOfRows_eraseIdx_none noRoot owner
      families := fun retention member =>
        balanced.families retention (List.mem_of_mem_eraseIdx member)
      vacated := nofun
      numbered := balanced.numbered
      dead := balanced.dead
      once := balanced.once }

structure BudgetCall (sink : LiveHistorySink Identity Runtime) (released : List Nat)
    (handed : Option Nat) (next : LiveHistorySink Identity Runtime) : Prop where
  balanced : Balanced next [] (released ++ handed.toList)
  sized : next.state.Sized
  first : next.state.records.head? = sink.state.records.head?
  newest : next.state.records.getLast? = sink.state.records.getLast?
  fewer : next.state.records.Sublist sink.state.records
  handedOut : ∀ key, handed = some key → sink.retained.Live key ∧
    next.state.checkpointKeys.countP (·.isSome) <
      sink.state.checkpointKeys.countP (·.isSome)
  settled : handed = none → next.state.retainedBytes ≤ next.state.checkpointBudget ∨ next.Bare

theorem countP_set_none {keys : List (Option Nat)} (found : keys[index]? = some (some key)) :
    (keys.set index none).countP (·.isSome) < keys.countP (·.isSome) := by
  obtain ⟨bound, _⟩ := List.getElem?_eq_some_iff.mp found
  have whole : keys.countP (·.isSome) = _ := congrArg (List.countP (·.isSome)) (split_at found)
  rw [whole, List.set_eq_take_append_cons_drop, if_pos bound]
  simp

theorem countP_eraseIdx (keys : List (Option Nat)) (index : Nat) :
    (keys.eraseIdx index).countP (·.isSome) ≤ keys.countP (·.isSome) :=
  (List.eraseIdx_sublist keys index).countP_le

variable {α : Type} {rows : List α}

theorem head?_eraseIdx (behind : index ≠ 0) : (rows.eraseIdx index).head? = rows.head? := by
  cases rows with
  | nil => simp
  | cons row rows => ?_
  cases index with
  | zero => exact absurd rfl behind
  | succ index => rfl

theorem getLast?_eraseIdx (bound : index < rows.length) (inner : index + 1 ≠ rows.length) :
    (rows.eraseIdx index).getLast? = rows.getLast? := by
  rw [List.getLast?_eq_getElem?, List.getLast?_eq_getElem?, List.getElem?_eraseIdx,
    List.length_eraseIdx_of_lt bound, if_neg (by omega)]
  congr 1
  omega

/-- Every call of the budget ends, with a live root or with nothing left to
release. -/
theorem Balanced.budgetRounds (fuel : Nat) {sink : LiveHistorySink Identity Runtime}
    (balanced : Balanced sink [] released) (sized : sink.state.Sized)
    (enough : sink.state.records.length < fuel) :
    ∃ handed next, sink.budgetRounds fuel = .ok (handed, next) ∧
      BudgetCall sink released handed next := by
  induction fuel generalizing sink with
  | zero => exact absurd enough (Nat.not_lt_zero _)
  | succ fuel ih => ?_
  simp only [LiveHistorySink.budgetRounds]
  have stop : (sink.state.retainedBytes ≤ sink.state.checkpointBudget ∨ sink.Bare) →
      BudgetCall sink released none { sink with state := sink.state.settleOverage } := by
    intro settled
    exact
      { balanced :=
          { rooted := balanced.rooted, charged := balanced.charged
            families := balanced.families, vacated := balanced.vacated
            numbered := balanced.numbered
            dead := by simpa using balanced.dead
            once := by simpa using balanced.once }
        sized := sized
        first := rfl
        newest := rfl
        fewer := .refl _
        handedOut := nofun
        settled := fun _ => settled }
  by_cases above : sink.state.checkpointBudget < sink.state.retainedBytes
  · rw [if_pos above]
    cases root : sink.state.restartVictim with
    | some victim =>
      obtain ⟨behind, key, found⟩ := LiveHistoryState.restartVictim_some root
      obtain ⟨next, taken, kept, records, alive, keys⟩ := balanced.takeVictim behind found
      refine ⟨some key, next, by simp [taken, Except.map], ?_⟩
      exact
        { balanced := kept
          sized := by
            have length := congrArg List.length keys
            rw [List.length_set] at length
            exact length.trans (sized.trans (congrArg List.length records).symm)
          first := by rw [records]
          newest := by rw [records]
          fewer := records ▸ .refl _
          handedOut := by
            intro handed given
            cases given
            exact ⟨alive, keys ▸ countP_set_none found⟩
          settled := nofun }
    | none => ?_
    have rootless := fun index behind =>
      @LiveHistoryState.restartVictim_none _ _ sized root index behind
    cases evidence : sink.state.evidenceVictim with
    | none =>
      exact ⟨none, _, rfl,
        stop (.inr ⟨rootless, LiveHistoryState.evidenceVictim_none sized evidence⟩)⟩
    | some victim => ?_
    obtain ⟨behind, inner, row, bound⟩ := LiveHistoryState.evidenceVictim_some evidence
    obtain ⟨removed, kept⟩ := balanced.removeVictim (rootless victim behind) bound
    have shorter : (sink.pruneEvidence victim).state.records.length + 1 =
        sink.state.records.length := by
      have length := List.length_eraseIdx_of_lt row
      show (sink.state.records.eraseIdx victim).length + 1 = _
      omega
    have keptSize : (sink.pruneEvidence victim).state.Sized := by
      show (sink.state.checkpointKeys.eraseIdx victim).length =
        (sink.state.records.eraseIdx victim).length
      rw [List.length_eraseIdx_of_lt bound, List.length_eraseIdx_of_lt row, sized]
    obtain ⟨handed, next, finished, call⟩ := ih kept keptSize (by omega)
    refine ⟨handed, next, ?_, ?_⟩
    · simp only [removed, ok_bind]
      exact finished
    exact
      { balanced := call.balanced
        sized := call.sized
        first := call.first.trans (head?_eraseIdx behind)
        newest := call.newest.trans (getLast?_eraseIdx row inner)
        fewer := call.fewer.trans (List.eraseIdx_sublist _ _)
        handedOut := by
          intro key given
          obtain ⟨alive, less⟩ := call.handedOut key given
          exact ⟨alive, Nat.lt_of_lt_of_le less (countP_eraseIdx sink.state.checkpointKeys victim)⟩
        settled := call.settled }
  rw [if_neg above]
  exact ⟨none, _, rfl, stop (.inl (Nat.le_of_not_lt above))⟩

theorem Balanced.takeBudgetRelease {sink : LiveHistorySink Identity Runtime}
    (balanced : Balanced sink [] released) (sized : sink.state.Sized) :
    ∃ handed next, sink.takeBudgetRelease = .ok (handed, next) ∧
      BudgetCall sink released handed next :=
  balanced.budgetRounds _ sized (Nat.lt_succ_self _)

/-- The calls end, each but the last with another live root. -/
theorem Balanced.drainRounds (fuel : Nat) {sink : LiveHistorySink Identity Runtime}
    (balanced : Balanced sink [] released) (sized : sink.state.Sized)
    (enough : sink.state.checkpointKeys.countP (·.isSome) < fuel) :
    ∃ drained settled, sink.drainRounds fuel = .ok (drained, settled) ∧
      Balanced settled [] (released ++ drained) ∧ settled.state.Sized ∧
      settled.state.records.head? = sink.state.records.head? ∧
      settled.state.records.getLast? = sink.state.records.getLast? ∧
      (settled.state.retainedBytes ≤ settled.state.checkpointBudget ∨ settled.Bare) := by
  induction fuel generalizing sink released with
  | zero => exact absurd enough (Nat.not_lt_zero _)
  | succ fuel ih => ?_
  obtain ⟨handed, next, taken, call⟩ := balanced.takeBudgetRelease sized
  cases handed with
  | none =>
    refine ⟨[], next, by simp only [LiveHistorySink.drainRounds, taken], call.balanced,
      call.sized, call.first, call.newest, call.settled rfl⟩
  | some key => ?_
  have less := (call.handedOut key rfl).2
  obtain ⟨drained, settled, finished, kept, size, first, newest, exits⟩ :=
    ih call.balanced call.sized (by omega)
  refine ⟨key :: drained, settled, ?_, ?_, size, first.trans call.first,
    newest.trans call.newest, exits⟩
  · simp only [LiveHistorySink.drainRounds, taken, finished]
    rfl
  · simpa using kept

end Release

end Umber.Incr
