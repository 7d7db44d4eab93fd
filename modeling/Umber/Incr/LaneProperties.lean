import Umber.Incr.Lane

/-! Record numbers of a boundary lane. A row keeps its number for as long as it
lives, and a number is never used twice. -/

set_option autoImplicit false

namespace Umber.Incr.BoundaryLane

variable {Identity Runtime : Type} {lane next : BoundaryLane Identity Runtime}

def allRows (lane : BoundaryLane Identity Runtime) : List (BoundaryCell Identity Runtime) :=
  match lane.ownership with
  | .accepted rows => rows
  | .forked kept detachedPrior current => kept ++ detachedPrior ++ current

structure WellNumbered (lane : BoundaryLane Identity Runtime) : Prop where
  below : ∀ cell ∈ lane.allRows, cell.record < lane.nextRecord
  distinct : (lane.allRows.map BoundaryCell.record).Nodup
  protectedBelow : ∀ record, lane.protectedRecord = some record → record < lane.nextRecord

def Live (lane : BoundaryLane Identity Runtime) (record : Nat) : Prop :=
  ((lane.findVisible record).bind (·.checkpoint)).isSome

theorem wellNumbered_empty : (empty : BoundaryLane Identity Runtime).WellNumbered where
  below := nofun
  distinct := .nil
  protectedBelow := nofun

theorem visible_sublist (lane : BoundaryLane Identity Runtime) :
    lane.visible.Sublist lane.allRows := by
  unfold visible allRows
  cases lane.ownership with
  | accepted rows => exact .refl _
  | forked kept detachedPrior current =>
    exact (List.sublist_append_left _ _).append (.refl _)

/-- A lane whose rows come from those of a well numbered lane. -/
theorem WellNumbered.narrow (numbered : lane.WellNumbered)
    (rows : (next.allRows.map BoundaryCell.record).Sublist (lane.allRows.map BoundaryCell.record))
    (counter : next.nextRecord = lane.nextRecord)
    (guarded : next.protectedRecord = lane.protectedRecord ∨ next.protectedRecord = none) :
    next.WellNumbered where
  below := by
    intro cell member
    obtain ⟨older, included, same⟩ :=
      List.mem_map.mp (rows.subset (List.mem_map_of_mem member))
    have bound := numbered.below older included
    omega
  distinct := numbered.distinct.sublist rows
  protectedBelow := by
    intro record holds
    rcases guarded with kept | dropped
    · rw [counter]
      exact numbered.protectedBelow record (kept ▸ holds)
    rw [dropped] at holds
    cases holds

theorem allRows_appendCell (lane : BoundaryLane Identity Runtime)
    (checkpoint : Option (EngineCheckpoint Identity Runtime))
    (evidence : RetainedBoundaryEvidence Identity) :
    (lane.appendCell checkpoint evidence).2.allRows =
      lane.allRows ++ [⟨lane.nextRecord, evidence, checkpoint⟩] := by
  unfold appendCell allRows
  cases lane.ownership with
  | accepted rows => rfl
  | forked kept detachedPrior current => simp

theorem visible_appendCell (lane : BoundaryLane Identity Runtime)
    (checkpoint : Option (EngineCheckpoint Identity Runtime))
    (evidence : RetainedBoundaryEvidence Identity) :
    (lane.appendCell checkpoint evidence).2.visible =
      lane.visible ++ [⟨lane.nextRecord, evidence, checkpoint⟩] := by
  unfold appendCell visible
  cases lane.ownership with
  | accepted rows => rfl
  | forked kept detachedPrior current => simp

theorem protectedRecord_appendCell (lane : BoundaryLane Identity Runtime)
    (checkpoint : Option (EngineCheckpoint Identity Runtime))
    (evidence : RetainedBoundaryEvidence Identity) {record : Nat}
    (guarded : (lane.appendCell checkpoint evidence).2.protectedRecord = some record) :
    lane.protectedRecord = some record ∨
      (record = lane.nextRecord ∧ ∃ captured, checkpoint = some captured ∧
        captured.boundary = .jobStart) := by
  simp only [appendCell] at guarded
  split at guarded
  next protects =>
    cases guarded
    simp only [Bool.and_eq_true, Option.any_eq_true, decide_eq_true_eq] at protects
    obtain ⟨_, captured, given, start⟩ := protects
    exact .inr ⟨rfl, captured, given, start⟩
  next => exact .inl guarded

theorem WellNumbered.appendCell (numbered : lane.WellNumbered)
    (checkpoint : Option (EngineCheckpoint Identity Runtime))
    (evidence : RetainedBoundaryEvidence Identity) :
    (lane.appendCell checkpoint evidence).2.WellNumbered where
  below := by
    intro cell member
    rw [allRows_appendCell] at member
    rcases List.mem_append.mp member with older | newer
    · exact Nat.lt_succ_of_lt (numbered.below cell older)
    cases List.mem_singleton.mp newer
    exact Nat.lt_succ_self _
  distinct := by
    rw [allRows_appendCell, List.map_append, List.nodup_append]
    refine ⟨numbered.distinct, by simp, ?_⟩
    intro record member other single same
    obtain ⟨cell, included, rfl⟩ := List.mem_map.mp member
    simp only [List.map_cons, List.map_nil, List.mem_singleton] at single
    exact absurd (numbered.below cell included) (by omega)
  protectedBelow := by
    intro record guarded
    rcases protectedRecord_appendCell lane checkpoint evidence guarded with older | ⟨rfl, _⟩
    · exact Nat.lt_succ_of_lt (numbered.protectedBelow record older)
    · exact Nat.lt_succ_self _

theorem Live.appendCell {record : Nat} (live : lane.Live record)
    (checkpoint : Option (EngineCheckpoint Identity Runtime))
    (evidence : RetainedBoundaryEvidence Identity) :
    (lane.appendCell checkpoint evidence).2.Live record := by
  unfold Live findVisible at *
  rw [visible_appendCell, List.find?_append]
  cases found : lane.visible.find? fun cell => cell.record = record with
  | none => simp [found] at live
  | some cell => simpa [found] using live

theorem Live.of_appendCell {record : Nat} {checkpoint : Option (EngineCheckpoint Identity Runtime)}
    {evidence : RetainedBoundaryEvidence Identity}
    (live : (lane.appendCell checkpoint evidence).2.Live record) (older : record < lane.nextRecord) :
    lane.Live record := by
  unfold Live findVisible at *
  rw [visible_appendCell, List.find?_append] at live
  cases found : lane.visible.find? fun cell => cell.record = record with
  | none => simp [found, Nat.ne_of_gt older] at live
  | some cell => simpa [found] using live

theorem Live.lt_nextRecord (numbered : lane.WellNumbered) {record : Nat}
    (live : lane.Live record) : record < lane.nextRecord := by
  unfold Live findVisible at live
  cases found : lane.visible.find? fun cell => cell.record = record with
  | none => simp [found] at live
  | some cell =>
    have same : cell.record = record := by simpa using List.find?_some found
    exact same ▸ numbered.below cell (lane.visible_sublist.subset (List.mem_of_find?_eq_some found))

/-- A retained checkpoint is live under the record it was given. -/
theorem live_appendCell (numbered : lane.WellNumbered)
    (checkpoint : EngineCheckpoint Identity Runtime)
    (evidence : RetainedBoundaryEvidence Identity) :
    (lane.appendCell (some checkpoint) evidence).2.Live lane.nextRecord := by
  have unused : (lane.visible.find? fun cell => cell.record = lane.nextRecord) = none := by
    rw [List.find?_eq_none]
    intro cell member
    have bound := numbered.below cell (lane.visible_sublist.subset member)
    simpa using Nat.ne_of_lt bound
  unfold Live findVisible
  rw [visible_appendCell, List.find?_append, unused]
  simp

section Release

variable {record : Nat}

theorem visible_removeVisible (lane : BoundaryLane Identity Runtime) (record : Nat) :
    (lane.removeVisible record).visible = lane.visible.eraseP fun cell => cell.record = record := by
  unfold removeVisible visible
  cases lane.ownership with
  | accepted rows => rfl
  | forked kept detachedPrior current => ?_
  rw [List.eraseP_append]
  cases present : kept.any fun cell => cell.record = record with
  | true => simp only [present, if_true]
  | false => simp only [present, Bool.false_eq_true, if_false]

theorem allRows_removeVisible (lane : BoundaryLane Identity Runtime) (record : Nat) :
    (lane.removeVisible record).allRows.Sublist lane.allRows := by
  unfold removeVisible allRows
  cases lane.ownership with
  | accepted rows => exact List.eraseP_sublist
  | forked kept detachedPrior current => ?_
  cases present : kept.any fun cell => cell.record = record with
  | true =>
    simp only [present, if_true]
    exact (List.eraseP_sublist.append (.refl _)).append (.refl _)
  | false =>
    simp only [present, Bool.false_eq_true, if_false]
    exact (List.Sublist.refl _).append List.eraseP_sublist

theorem WellNumbered.removeVisible (numbered : lane.WellNumbered) (record : Nat) :
    (lane.removeVisible record).WellNumbered :=
  numbered.narrow ((allRows_removeVisible lane record).map _) rfl (.inl rfl)

/-- The release of a live row that is not the protected one goes through. -/
theorem releaseKey_eq_ok (live : lane.Live record)
    (unguarded : lane.protectedRecord ≠ some record) :
    lane.releaseKey record = .ok (lane.removeVisible record) := by
  unfold Live at live
  unfold releaseKey
  cases found : (lane.findVisible record).bind (·.checkpoint) with
  | none => simp [found] at live
  | some checkpoint => simp [unguarded]

theorem find?_eraseP_ne (rows : List (BoundaryCell Identity Runtime)) {other : Nat}
    (apart : other ≠ record) :
    ((rows.eraseP fun cell => cell.record = record).find? fun cell => cell.record = other) =
      rows.find? fun cell => cell.record = other := by
  induction rows with
  | nil => rfl
  | cons cell rows ih => ?_
  by_cases same : cell.record = record
  · have skipped : cell.record ≠ other := by omega
    simp [same, Ne.symm apart]
  by_cases found : cell.record = other
  · simp [found, apart]
  · simp [same, found, ih]

theorem live_removeVisible_ne {other : Nat} (apart : other ≠ record) :
    (lane.removeVisible record).Live other ↔ lane.Live other := by
  unfold Live findVisible
  rw [visible_removeVisible, find?_eraseP_ne lane.visible apart]

theorem not_live_removeVisible (numbered : lane.WellNumbered) :
    ¬ (lane.removeVisible record).Live record := by
  intro live
  have distinct : (lane.visible.map BoundaryCell.record).Nodup :=
    numbered.distinct.sublist (lane.visible_sublist.map _)
  unfold Live findVisible at live
  rw [visible_removeVisible] at live
  have gone : ∀ rows : List (BoundaryCell Identity Runtime),
      (rows.map BoundaryCell.record).Nodup →
      ((rows.eraseP fun cell => cell.record = record).find? fun cell => cell.record = record) =
        none := by
    intro rows
    induction rows with
    | nil => exact fun _ => rfl
    | cons cell rows ih => ?_
    intro distinct
    rw [List.map_cons, List.nodup_cons] at distinct
    by_cases same : cell.record = record
    · rw [List.eraseP_cons_of_pos (by simpa using same), List.find?_eq_none]
      intro other member
      have apart : other.record ≠ record :=
        fun equal => distinct.1 (same ▸ equal ▸ List.mem_map_of_mem member)
      simpa using apart
    rw [List.eraseP_cons_of_neg (by simpa using same)]
    simpa [same] using ih distinct.2
  rw [gone _ distinct] at live
  simp at live

end Release

section Lifetime

/-- The lanes a generation can hold: rows are appended and released, and a
candidate forks the lane, is accepted or rejected and is moved to another text. -/
inductive Reachable : BoundaryLane Identity Runtime → Prop where
  | empty : Reachable empty
  | append {lane : BoundaryLane Identity Runtime} (reached : Reachable lane)
      (checkpoint : Option (EngineCheckpoint Identity Runtime))
      (evidence : RetainedBoundaryEvidence Identity) :
      Reachable (lane.appendCell checkpoint evidence).2
  | release {lane next : BoundaryLane Identity Runtime} (reached : Reachable lane) (record : Nat) :
      lane.releaseKey record = .ok next → Reachable next
  | releaseJobStart {lane next : BoundaryLane Identity Runtime} (reached : Reachable lane)
      (record : Nat) : lane.releaseJobStart record = .ok next → Reachable next
  | fork {lane next : BoundaryLane Identity Runtime} (reached : Reachable lane) (record : Nat) :
      lane.begin record = .ok next → Reachable next
  | accept {lane : BoundaryLane Identity Runtime} (reached : Reachable lane) :
      Reachable lane.accept
  | reject {lane : BoundaryLane Identity Runtime} (reached : Reachable lane) :
      Reachable lane.reject
  | rehome {lane next : BoundaryLane Identity Runtime} (reached : Reachable lane)
      (plan : RetainedEditorRevisionRehomePlan) :
      lane.rehomeRevisionSuffix plan = .ok next → Reachable next

theorem map_record_dropCheckpoint (rows : List (BoundaryCell Identity Runtime)) (record : Nat) :
    (rows.map (dropCheckpoint record)).map BoundaryCell.record = rows.map BoundaryCell.record := by
  rw [List.map_map]
  apply List.map_congr_left
  intro cell _
  simp only [Function.comp_apply, dropCheckpoint]
  split <;> rfl

theorem rehomeRows_sublist (plan : RetainedEditorRevisionRehomePlan)
    (rows : List (BoundaryCell Identity Runtime)) (afterRestart : Bool)
    (adopting : Option (Nat × Nat)) :
    ((rehomeRows plan rows afterRestart adopting).map BoundaryCell.record).Sublist
      (rows.map BoundaryCell.record) := by
  induction rows generalizing afterRestart adopting with
  | nil => exact .slnil
  | cons cell rows ih => ?_
  simp only [rehomeRows]
  split
  next => exact (ih _ _).cons_cons _
  split
  next => exact (ih _ _).cons _
  next => exact (ih _ _).cons_cons _

section

variable (numbered : lane.WellNumbered)
include numbered

theorem WellNumbered.releaseKey {record : Nat}
    (released : lane.releaseKey record = .ok next) : next.WellNumbered := by
  simp only [BoundaryLane.releaseKey] at released
  split at released
  next => cases released
  split at released
  next => cases released
  cases released
  exact numbered.removeVisible record

theorem WellNumbered.releaseJobStart {record : Nat}
    (released : lane.releaseJobStart record = .ok next) : next.WellNumbered := by
  simp only [BoundaryLane.releaseJobStart] at released
  split at released
  next => cases released
  split at released
  next =>
    cases released
    refine numbered.narrow ?_ rfl (.inr rfl)
    unfold allRows
    cases lane.ownership with
    | accepted rows =>
      simp only [map_record_dropCheckpoint]
      exact .refl _
    | forked kept detachedPrior current =>
      simp only [List.map_append, map_record_dropCheckpoint]
      exact .refl _
  next => cases released

theorem WellNumbered.begin {record : Nat}
    (forked : lane.begin record = .ok next) : next.WellNumbered := by
  simp only [BoundaryLane.begin] at forked
  split at forked
  next => cases forked
  rename_i rows owned
  split at forked
  next => cases forked
  next index found =>
    cases forked
    refine numbered.narrow ?_ rfl (.inl rfl)
    simp [allRows, owned]

theorem WellNumbered.accept : lane.accept.WellNumbered := by
  unfold BoundaryLane.accept
  split
  next => exact numbered
  next kept detachedPrior current owned =>
    refine numbered.narrow ?_ rfl (.inl rfl)
    simp only [allRows, owned]
    exact ((List.sublist_append_left _ _).append (.refl _)).map _

theorem WellNumbered.reject : lane.reject.WellNumbered := by
  unfold BoundaryLane.reject
  split
  next => exact numbered
  next kept detachedPrior current owned =>
    refine numbered.narrow ?_ rfl (.inl rfl)
    simp only [allRows, owned]
    exact (List.sublist_append_left _ _).map _

theorem WellNumbered.rehomeRevisionSuffix {plan : RetainedEditorRevisionRehomePlan} (moved : lane.rehomeRevisionSuffix plan = .ok next) :
    next.WellNumbered := by
  simp only [BoundaryLane.rehomeRevisionSuffix] at moved
  split at moved
  next => cases moved
  rename_i rows owned
  split at moved
  next =>
    cases moved
    refine numbered.narrow ?_ rfl (.inl rfl)
    simp only [allRows, owned]
    exact rehomeRows_sublist plan rows false none
  next => cases moved

end

theorem Reachable.wellNumbered (reached : lane.Reachable) : lane.WellNumbered := by
  induction reached with
  | empty => exact wellNumbered_empty
  | append _ checkpoint evidence ih => exact ih.appendCell checkpoint evidence
  | release _ record released ih => exact ih.releaseKey released
  | releaseJobStart _ record released ih => exact ih.releaseJobStart released
  | fork _ record forked ih => exact ih.begin forked
  | accept _ ih => exact ih.accept
  | reject _ ih => exact ih.reject
  | rehome _ plan moved ih => exact ih.rehomeRevisionSuffix moved

end Lifetime

end Umber.Incr.BoundaryLane
