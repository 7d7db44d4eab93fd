import Umber.Command.StackCandidate

/-! Runs of a reversible stack: it is a persistent stack of values. -/

set_option autoImplicit false

namespace Umber.Command

variable {α σ κ : Type} [LogicalStackElement α σ] {keeps : α → κ}

/-- One operation on a stack, with the marks that lie on the lineage afterwards. Rows are
written in place only in the part that is captured, and only marks that were made are
named. -/
inductive StackStep (keeps : α → κ) (stack : LogicalStack α σ) (lineage : Lineage α) :
    LogicalStack α σ → Lineage α → Prop
  | push (value : α) : StackStep keeps stack lineage (stack.push value) lineage
  | popProject : StackStep keeps stack lineage stack.popProject.2 lineage
  | truncateTop (top : Nat) : StackStep keeps stack lineage (stack.truncateTop top).2 lineage
  | indexMut {index : Nat} {old : α} (value : α) :
      stack.rows[index]? = some old → keeps value = keeps old →
        StackStep keeps stack lineage (stack.indexMut index value) lineage
  | getMut {index : Nat} {old : α} (value : α) :
      stack.rows[index]? = some old → keeps value = keeps old →
        StackStep keeps stack lineage (stack.getMut index value) lineage
  | lastMut {old : α} (value : α) :
      stack.asSlice.getLast? = some old → keeps value = keeps old →
        StackStep keeps stack lineage (stack.lastMut value) lineage
  | mark {mark : LogicalStackMark} {next : LogicalStack α σ} :
      stack.mark = (some mark, next) →
        StackStep keeps stack lineage next (lineage.mark mark stack.asSlice)
  | markFull {next : LogicalStack α σ} :
      stack.mark = (none, next) → StackStep keeps stack lineage next lineage
  | restore {mark : LogicalStackMark} {next : LogicalStack α σ} :
      mark ∈ lineage.issued → stack.restore mark = some (true, next) →
        StackStep keeps stack lineage next
          { lineage with marks := Lineage.upTo lineage.marks mark }
  | restoreRefused {mark : LogicalStackMark} {next : LogicalStack α σ} :
      mark ∈ lineage.issued → stack.restore mark = some (false, next) →
        StackStep keeps stack lineage next lineage
  | restoreCurrent {mark : LogicalStackMark} {next : LogicalStack α σ} :
      mark ∈ lineage.issued → stack.restoreCurrent mark = some (true, next) →
        StackStep keeps stack lineage next
          { lineage with marks := Lineage.upTo lineage.marks mark }
  | restoreCurrentRefused {mark : LogicalStackMark} {next : LogicalStack α σ} :
      mark ∈ lineage.issued → stack.restoreCurrent mark = some (false, next) →
        StackStep keeps stack lineage next lineage
  | releasePrefix {mark : LogicalStackMark} {count : Nat} {next : LogicalStack α σ} :
      mark ∈ lineage.issued → stack.releasePrefix mark = some (some count, next) →
        StackStep keeps stack lineage next
          { lineage with marks := Lineage.since lineage.marks mark }
  | releasePrefixRefused {mark : LogicalStackMark} {next : LogicalStack α σ} :
      mark ∈ lineage.issued → stack.releasePrefix mark = some (none, next) →
        StackStep keeps stack lineage next lineage
  | beginCandidate {mark : LogicalStackMark} {next : LogicalStack α σ} :
      mark ∈ lineage.issued → stack.beginCheckpointCandidate mark = some next →
        StackStep keeps stack lineage next
          { lineage with
            marks := Lineage.upTo lineage.marks mark
            accepted := some (stack.asSlice, lineage.marks) }
  | rejectCandidate {accepted : List α × List (LogicalStackMark × List α)}
      {next : LogicalStack α σ} :
      lineage.accepted = some accepted → stack.rejectCheckpointCandidate = some next →
        StackStep keeps stack lineage next
          { lineage with marks := accepted.2, accepted := none }
  | acceptCandidate {next : LogicalStack α σ} :
      stack.acceptCheckpointCandidate = some next →
        StackStep keeps stack lineage next { lineage with accepted := none }

inductive StackReached (keeps : α → κ) : LogicalStack α σ → Lineage α → Prop
  | empty : StackReached keeps .empty .empty
  | step {stack next : LogicalStack α σ} {lineage after : Lineage α} :
      StackReached keeps stack lineage → StackStep keeps stack lineage next after →
        StackReached keeps next after

variable {stack next : LogicalStack α σ} {lineage after : Lineage α} {mark : LogicalStackMark}

theorem Inv.recording (inv : Inv keeps stack lineage) (issued : mark ∈ lineage.issued) :
    stack.recording = true := by
  obtain ⟨_, _, _, kept⟩ := inv
  exact kept.recording_of_issued issued

theorem Inv.recording_of_fork (inv : Inv keeps stack lineage) {accepted :
    List α × List (LogicalStackMark × List α)} (some_ : lineage.accepted = some accepted) :
    stack.recording = true := by
  obtain ⟨_, _, _, kept⟩ := inv
  cases recording : stack.recording with
  | true => rfl
  | false =>
    rw [(kept.idle recording).2.2.2.2] at some_
    cases some_

variable {seen : List α}

section

variable (inv : Inv keeps stack lineage)
include inv

theorem Inv.recording_of_mark (member : (mark, seen) ∈ lineage.marks) : stack.recording = true := by
  obtain ⟨_, _, _, kept⟩ := inv
  cases recording : stack.recording with
  | true => rfl
  | false =>
    rw [(kept.idle recording).2.2.2.1] at member
    cases member

theorem Inv.fork_iff : stack.fork = none ↔ lineage.accepted = none := by
  obtain ⟨_, _, _, kept⟩ := inv
  exact kept.fork_eq_none.1

theorem Inv.bounded : stack.top ≤ stack.rows.length := by
  obtain ⟨_, _, _, kept⟩ := inv
  exact kept.bounded

theorem lastMut_inv {old value : α}
    (found : stack.asSlice.getLast? = some old) (same : keeps value = keeps old) :
    Inv keeps (stack.lastMut value) lineage := by
  have bounded := inv.bounded
  unfold LogicalStack.lastMut
  cases top : stack.top with
  | zero => exact inv
  | succ index => ?_
  apply indexMut_inv inv _ same
  rw [List.getLast?_eq_getElem?, asSlice_length bounded, top, asSlice_getElem? (by omega)] at found
  exact found

end

theorem StackStep.inv (covers : Covers keeps) (inv : Inv keeps stack lineage)
    (step : StackStep keeps stack lineage next after) : Inv keeps next after := by
  cases step with
  | push value => exact push_inv inv value
  | popProject => exact popProject_inv inv
  | truncateTop top => exact truncateTop_inv inv top
  | indexMut value found same => exact indexMut_inv inv found same
  | getMut value found same =>
    unfold LogicalStack.getMut
    split
    · exact inv
    · exact indexMut_inv inv found same
  | lastMut value found same => exact lastMut_inv inv found same
  | mark marked =>
    have marking := mark_inv inv
    rw [marked] at marking
    exact marking
  | markFull marked =>
    have marking := mark_inv inv
    rw [marked] at marking
    exact marking
  | @restore mark _ issued ran =>
    obtain ⟨_, _, result, _, kept, _⟩ :=
      @restore_inv _ _ _ _ _ _ _ covers inv mark (inv.recording issued)
    cases ran.symm.trans result
    exact kept rfl
  | @restoreRefused mark _ issued ran =>
    obtain ⟨_, _, result, same, _, _⟩ :=
      @restore_inv _ _ _ _ _ _ _ covers inv mark (inv.recording issued)
    cases ran.symm.trans result
    exact same rfl ▸ inv
  | @restoreCurrent mark _ issued ran =>
    obtain ⟨_, _, result, _, kept, _⟩ :=
      @restoreCurrent_inv _ _ _ _ _ _ _ covers inv mark (inv.recording issued)
    cases ran.symm.trans result
    exact kept rfl
  | @restoreCurrentRefused mark _ issued ran =>
    obtain ⟨_, _, result, same, _, _⟩ :=
      @restoreCurrent_inv _ _ _ _ _ _ _ covers inv mark (inv.recording issued)
    cases ran.symm.trans result
    exact same rfl ▸ inv
  | @releasePrefix mark count _ issued ran =>
    obtain ⟨_, _, result, _, _, kept⟩ :=
      @releasePrefix_inv _ _ _ _ _ _ _ inv mark (inv.recording issued)
    cases ran.symm.trans result
    exact kept nofun
  | @releasePrefixRefused mark _ issued ran =>
    obtain ⟨_, _, result, _, same, _⟩ :=
      @releasePrefix_inv _ _ _ _ _ _ _ inv mark (inv.recording issued)
    cases ran.symm.trans result
    exact same rfl ▸ inv
  | @beginCandidate mark _ issued ran =>
    have allowed : stack.fork = none ∧ stack.validates mark = true := by
      unfold LogicalStack.beginCheckpointCandidate at ran
      split at ran
      next => cases ran
      next accepted =>
        rw [not_or] at accepted
        exact ⟨Option.not_isSome_iff_eq_none.mp accepted.1, (Bool.not_eq_false _).mp accepted.2⟩
    obtain ⟨_, result, kept, _⟩ := begin_inv covers inv (inv.recording issued) allowed.1 allowed.2
    cases ran.symm.trans result
    exact kept
  | rejectCandidate some_ ran =>
    obtain ⟨_, result, _, kept⟩ := reject_inv covers inv (inv.recording_of_fork some_) some_
    cases ran.symm.trans result
    exact kept
  | acceptCandidate ran => ?_
  cases some_ : lineage.accepted with
  | none =>
    have unforked := inv.fork_iff.mpr some_
    unfold LogicalStack.acceptCheckpointCandidate at ran
    rw [unforked] at ran
    cases ran
  | some accepted => ?_
  obtain ⟨_, result, _, kept⟩ := accept_inv inv (inv.recording_of_fork some_) some_
  cases ran.symm.trans result
  exact kept

theorem StackReached.inv (covers : Covers keeps) (reached : StackReached keeps stack lineage) :
    Inv keeps stack lineage := by
  induction reached with
  | empty => exact inv_empty keeps
  | step _ step ih => exact step.inv covers ih

theorem Inv.validates (inv : Inv keeps stack lineage) (member : (mark, seen) ∈ lineage.marks) :
    stack.validates mark = true := by
  obtain ⟨_, _, _, kept⟩ := inv
  obtain ⟨boundary, _, within, remembers⟩ := kept.marks _ member
  unfold LogicalStack.validates
  rw [Bool.and_eq_true, decide_eq_true_iff, remembers.top]
  exact ⟨Nat.le_trans within kept.floored, (PackedJournal.validates_iff kept.sound).mpr boundary.cuts⟩

theorem Inv.restores (covers : Covers keeps) (inv : Inv keeps stack lineage)
    (member : (mark, seen) ∈ lineage.marks) (unforked : stack.fork = none) :
    ∃ restored, stack.restore mark = some (true, restored) ∧ restored.asSlice = seen := by
  obtain ⟨restored, next, ran, _, _, gives⟩ :=
    @restore_inv _ _ _ _ _ _ _ covers inv mark (inv.recording_of_mark member)
  obtain ⟨rfl, shown⟩ := gives seen member unforked
  exact ⟨next, ran, shown⟩

/-! ## The stack as a list -/

omit [LogicalStackElement α σ] in
theorem push_asSlice (bounded : stack.top ≤ stack.rows.length) (value : α) :
    (stack.push value).asSlice = stack.asSlice ++ [value] := by
  have reused : ∀ rows : List α, rows[stack.top]? = some value →
      rows.take stack.top = stack.rows.take stack.top →
      rows.take (stack.top + 1) = stack.rows.take stack.top ++ [value] := by
    intro rows found front
    obtain ⟨inside, same⟩ := List.getElem?_eq_some_iff.mp found
    rw [List.take_succ_eq_append_getElem inside, front, same]
  unfold LogicalStack.push
  by_cases full : stack.top = stack.rows.length
  · rw [if_pos full]
    apply reused
    · rw [full, List.getElem?_append_right (Nat.le_refl _), Nat.sub_self]
      rfl
    · exact List.take_append_of_le_length bounded
  rw [if_neg full]
  have inside : stack.top < stack.rows.length := Nat.lt_of_le_of_ne bounded full
  have written := reused (stack.rows.set stack.top value)
    (List.getElem?_set_self inside) (List.take_set_of_le (Nat.le_refl _))
  dsimp only
  cases stack.displacesTop with
  | true =>
    cases stack.rows[stack.top]? with
    | none => exact written
    | some old => exact written
  | false => exact written

omit [LogicalStackElement α σ] in
theorem popProject_asSlice (bounded : stack.top ≤ stack.rows.length) :
    stack.popProject.1 = stack.asSlice.getLast? ∧
      stack.popProject.2.asSlice = stack.asSlice.dropLast := by
  unfold LogicalStack.popProject
  cases top : stack.top with
  | zero =>
    have none_ : stack.asSlice = [] := by
      unfold LogicalStack.asSlice
      rw [top, List.take_zero]
    rw [none_]
    exact ⟨rfl, rfl⟩
  | succ index => ?_
  have size := asSlice_length bounded
  have shorter : stack.asSlice.dropLast = stack.rows.take index := by
    rw [List.dropLast_eq_take, size, top, Nat.add_sub_cancel]
    unfold LogicalStack.asSlice
    rw [List.take_take, top, Nat.min_eq_left (Nat.le_succ _)]
  refine ⟨?_, ?_⟩
  · rw [List.getLast?_eq_getElem?, size, top, Nat.add_sub_cancel,
      asSlice_getElem? (by omega)]
    rfl
  rw [shorter]
  dsimp only
  split
  · rfl
  show stack.rows.dropLast.take index = _
  rw [List.dropLast_eq_take, List.take_take, Nat.min_eq_left (by omega)]

omit [LogicalStackElement α σ] in
theorem truncateTop_asSlice {top : Nat} (within : top ≤ stack.top) :
    (stack.truncateTop top).2.asSlice = stack.asSlice.take top := by
  have same : stack.asSlice.take top = stack.rows.take top := by
    unfold LogicalStack.asSlice
    rw [List.take_take, Nat.min_eq_left within]
  unfold LogicalStack.truncateTop
  rw [if_neg (by omega), same]
  dsimp only
  split
  · rfl
  show (stack.rows.take top).take top = _
  rw [List.take_take, Nat.min_self]

theorem indexMut_asSlice {index : Nat} (value : α) :
    (stack.indexMut index value).asSlice = stack.asSlice.set index value := by
  have recorded : (stack.record index).rows = stack.rows ∧
      (stack.record index).top = stack.top := by
    unfold LogicalStack.record
    split
    · exact ⟨rfl, rfl⟩
    · split <;> exact ⟨rfl, rfl⟩
  unfold LogicalStack.indexMut LogicalStack.asSlice
  dsimp only
  rw [recorded.1, recorded.2, List.take_set]

/-- The stack is a persistent list. Its operations are those of a list; every mark on the
lineage gives back what it saw; a rejected candidate leaves the accepted list with its
marks, an accepted one keeps its own; and the payloads set aside are exactly those that
live undo records name, each once. -/
theorem logicalStack_persistent (covers : Covers keeps)
    (reached : StackReached keeps stack lineage) :
    (∀ value, (stack.push value).asSlice = stack.asSlice ++ [value]) ∧
    (stack.popProject.1 = stack.asSlice.getLast? ∧
      stack.popProject.2.asSlice = stack.asSlice.dropLast) ∧
    (∀ top, top ≤ stack.top → (stack.truncateTop top).2.asSlice = stack.asSlice.take top) ∧
    (∀ index value, (stack.indexMut index value).asSlice = stack.asSlice.set index value) ∧
    (∀ mark seen, (mark, seen) ∈ lineage.marks →
      (stack.fork = none → ∃ restored, stack.restore mark = some (true, restored) ∧
        restored.asSlice = seen) ∧
      (stack.fork = none → ∃ candidate, stack.beginCheckpointCandidate mark = some candidate ∧
        candidate.asSlice = seen) ∧
      (∀ fork, stack.undo.fork = some fork → fork.selected.chunks ≤ mark.undo.chunks →
        ∃ restored, stack.restoreCurrent mark = some (true, restored) ∧ restored.asSlice = seen)) ∧
    (∀ sequence marks, lineage.accepted = some (sequence, marks) →
      (∃ rejected, stack.rejectCheckpointCandidate = some rejected ∧ rejected.asSlice = sequence ∧
        ∀ mark seen, (mark, seen) ∈ marks → ∃ restored,
          rejected.restore mark = some (true, restored) ∧ restored.asSlice = seen) ∧
      (∃ accepted, stack.acceptCheckpointCandidate = some accepted ∧
        accepted.asSlice = stack.asSlice ∧ ∀ mark seen, (mark, seen) ∈ lineage.marks → ∃ restored,
          accepted.restore mark = some (true, restored) ∧ restored.asSlice = seen)) ∧
    (∀ mark ∈ lineage.issued, (stack.restore mark).isSome = true ∧
      (stack.restoreCurrent mark).isSome = true ∧ (stack.releasePrefix mark).isSome = true) ∧
    stack.displaced.Holds
      (handlesOf (recordsOf stack.undo.current) ++ handlesOf (recordsOf stack.undo.detached)) := by
  have inv := reached.inv covers
  have bounded := inv.bounded
  refine ⟨fun value => push_asSlice bounded value, popProject_asSlice bounded,
    fun top within => truncateTop_asSlice within, fun index value => indexMut_asSlice value,
    ?_, ?_, ?_, ?_⟩
  · intro mark seen member
    have recording := inv.recording_of_mark member
    refine ⟨?_, ?_, ?_⟩
    · intro unforked
      exact inv.restores covers member unforked
    · intro unforked
      obtain ⟨candidate, began, _, shown⟩ :=
        begin_inv covers inv recording unforked (inv.validates member)
      exact ⟨candidate, began, shown seen member⟩
    intro fork forked ordered
    obtain ⟨restored, next, ran, _, _, gives⟩ :=
      @restoreCurrent_inv _ _ _ _ _ _ _ covers inv mark recording
    obtain ⟨rfl, shown⟩ := gives seen fork member forked ordered
    exact ⟨next, ran, shown⟩
  · intro sequence marks some_
    have recording := inv.recording_of_fork some_
    constructor
    · obtain ⟨rejected, ran, shown, kept⟩ := reject_inv covers inv recording some_
      refine ⟨rejected, ran, shown, fun mark seen member => ?_⟩
      exact kept.restores covers member (kept.fork_iff.mpr rfl)
    obtain ⟨accepted, ran, shown, kept⟩ := accept_inv inv recording some_
    refine ⟨accepted, ran, shown, fun mark seen member => ?_⟩
    exact kept.restores covers member (kept.fork_iff.mpr rfl)
  · intro mark issued
    have recording := inv.recording issued
    obtain ⟨_, _, restoring, _⟩ := @restore_inv _ _ _ _ _ _ _ covers inv mark recording
    obtain ⟨_, _, current, _⟩ := @restoreCurrent_inv _ _ _ _ _ _ _ covers inv mark recording
    obtain ⟨_, _, released, _⟩ := @releasePrefix_inv _ _ _ _ _ _ _ inv mark recording
    rw [restoring, current, released]
    exact ⟨rfl, rfl, rfl⟩
  obtain ⟨_, _, _, kept⟩ := inv
  exact kept.payloads

theorem covers_int : Covers (fun _ : Int => ()) :=
  fun _ _ _ => rfl

def replacedTop : LogicalStack Int Int :=
  ((LogicalStack.empty.push 1).push 2).mark.2.popProject.2.push 3

theorem logicalStack_persistent_replacedTop :
    ∃ restored, replacedTop.restore { top := 2, undo := { tail := none, chunks := 0, records := 0 } } =
        some (true, restored) ∧ restored.asSlice = [1, 2] := by
  have reached : StackReached (fun _ : Int => ()) replacedTop
      ((Lineage.empty : Lineage Int).mark
        { top := 2, undo := { tail := none, chunks := 0, records := 0 } } [1, 2]) := by
    refine .step (.step (.step (.step (.step .empty (.push 1)) (.push 2)) ?_) .popProject) (.push 3)
    exact .mark rfl
  exact ((logicalStack_persistent covers_int reached).2.2.2.2.1 _ _ List.mem_cons_self).1 rfl

end Umber.Command
