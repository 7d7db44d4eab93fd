import Umber.Dvi.Compiler
import Umber.Dvi.Traversal
import Umber.Lib.Except
import Umber.Lib.Turns

/-! Where the copies of a leader box go. -/

set_option autoImplicit false

namespace Umber.Dvi

open Umber.Page
open ExceptLib Turns
open ExceptLib

/-! ## Arithmetic -/

theorem scaledOfInt_eq_some {value : Int} {result : Scaled}
    (computed : scaledOfInt value = some result) : result.toInt = value := by
  unfold scaledOfInt at computed
  split at computed
  · rename_i bounds
    rw [← Option.some.inj computed]
    exact Int32.toInt_ofInt_of_le (by omega) (by omega)
  · cases computed

variable {α : Type} {value : Option α} {result : α}

theorem orError_eq_ok {error : DviError} :
    orError value error = .ok result ↔ value = some result := by
  cases value <;> simp [orError]

variable {left right : Scaled}

theorem addScaled_eq_ok {sum : Scaled} (added : addScaled left right = .ok sum) :
    sum.toInt = left.toInt + right.toInt :=
  scaledOfInt_eq_some (orError_eq_ok.mp added)

theorem subScaled_eq_ok {difference : Scaled} (subtracted : subScaled left right = .ok difference) :
    difference.toInt = left.toInt - right.toInt :=
  scaledOfInt_eq_some (orError_eq_ok.mp subtracted)

/-! ## What a list leaves open -/

def DirectAxis.withTotals (axis : DirectAxis) (totals : GlueTotals) : DirectAxis :=
  match axis with
  | .h baseLine leftEdge _ => .h baseLine leftEdge totals
  | .v leftEdge topEdge _ => .v leftEdge topEdge totals

/-- A frame that differs from another one in the glue totals of its axis at most. -/
def DirectFrame.Reglued (frame after : DirectFrame) : Prop :=
  ∃ totals, after = { frame with axis := frame.axis.withTotals totals }

theorem DirectFrame.Reglued.refl (frame : DirectFrame) : frame.Reglued frame := by
  cases frame with
  | mk fields saveLoc axis continuation => ?_
  cases axis with
  | h baseLine leftEdge totals => exact ⟨totals, rfl⟩
  | v leftEdge topEdge totals => exact ⟨totals, rfl⟩

theorem DirectFrame.Reglued.trans {first second third : DirectFrame}
    (left : first.Reglued second) (right : second.Reglued third) : first.Reglued third := by
  obtain ⟨_, rfl⟩ := left
  obtain ⟨totals, rfl⟩ := right
  refine ⟨totals, ?_⟩
  cases first with
  | mk fields saveLoc axis continuation => cases axis <;> rfl

/-- A walk ends in the boxes it began in, with other glue totals at most. -/
def KeepsBoxes (walk : DviBodyCompiler → DirectStreamState → Walk) : Prop :=
  ∀ (self next : DviBodyCompiler) (frame : DirectFrame) (outer : List DirectFrame)
    (state : DirectStreamState), walk self { frames := frame :: outer } = .ok (next, state) →
      ∃ after, frame.Reglued after ∧ state = { frames := after :: outer }

def KeepsState (walk : DviBodyCompiler → DirectStreamState → Walk) : Prop :=
  ∀ (self next : DviBodyCompiler) (state after : DirectStreamState),
    walk self state = .ok (next, after) → after = state

theorem KeepsState.boxes {walk other : DviBodyCompiler → DirectStreamState → Walk}
    (keeps : KeepsState walk) (same : ∀ self state, other self state = walk self state) :
    KeepsBoxes other :=
  fun self next frame _ state walked =>
    ⟨frame, .refl frame, keeps self next _ state ((same self _).symm.trans walked)⟩

theorem skip_keeps : KeepsState fun self state => pure (self, state) :=
  fun _ _ _ _ walked => (Prod.mk.inj (pure_eq_ok.mp walked)).2.symm

namespace DviBodyCompiler

theorem directChar_keeps (fontId ch : UInt32) (width : Scaled) :
    KeepsState fun self state => self.directChar state fontId ch width := by
  intro self next state after walked
  simp only [directChar, bind_eq_ok] at walked
  obtain ⟨frame, _, walked⟩ := walked
  split at walked <;> simp only [bind_eq_ok, pure_eq_ok] at walked <;> grind

theorem directKern_keeps (amount : Scaled) :
    KeepsState fun self state => self.directKern state amount := by
  intro self next state after walked
  simp only [directKern, bind_eq_ok] at walked
  obtain ⟨frame, _, walked⟩ := walked
  split at walked <;> simp only [bind_eq_ok, pure_eq_ok] at walked <;> grind

theorem directMath_keeps (amount : Scaled) :
    KeepsState fun self state => self.directMath state amount := by
  intro self next state after walked
  simp only [directMath, bind_eq_ok] at walked
  obtain ⟨frame, _, walked⟩ := walked
  split at walked <;> simp only [bind_eq_ok, pure_eq_ok] at walked <;> grind

theorem directRule_keeps (width height depth : Option Scaled) :
    KeepsState fun self state => self.directRule state width height depth := by
  intro self next state after walked
  simp only [directRule, bind_eq_ok] at walked
  obtain ⟨frame, _, walked⟩ := walked
  split at walked <;> simp only [bind_eq_ok, pure_eq_ok] at walked <;> grind

theorem directWhatsit_keeps (effects : List PageEffect) (effectIndex : UInt32) :
    KeepsState fun self state => self.directWhatsit state effects effectIndex := by
  intro self next state after walked
  simp only [directWhatsit, bind_eq_ok] at walked
  obtain ⟨output, _, frame, _, walked⟩ := walked
  split at walked <;> simp only [pure_eq_ok] at walked <;> grind

variable {frame : DirectFrame} {outer : List DirectFrame} {state : DirectStreamState}

theorem setGlue_keeps {spec : GlueSpec} {totals : GlueTotals} {size : Scaled}
    (set : setGlue frame outer spec totals = .ok (size, state)) :
    ∃ after, frame.Reglued after ∧ state = { frames := after :: outer } := by
  obtain ⟨⟨width, adjusted⟩, _, set⟩ := bind_eq_ok.mp set
  cases pure_eq_ok.mp set
  exact ⟨_, ⟨adjusted, rfl⟩, rfl⟩

theorem directGlue_keeps (spec : GlueSpec) :
    KeepsBoxes fun self state => self.directGlue state spec := by
  intro self next frame outer state walked
  simp only [directGlue, bind_eq_ok] at walked
  obtain ⟨current, last, walked⟩ := walked
  cases Except.ok.inj last
  split at walked
  · obtain ⟨⟨size, glued⟩, set, walked⟩ := bind_eq_ok.mp walked
    obtain ⟨curH, _, walked⟩ := bind_eq_ok.mp walked
    cases pure_eq_ok.mp walked
    exact setGlue_keeps set
  obtain ⟨⟨size, glued⟩, set, walked⟩ := bind_eq_ok.mp walked
  obtain ⟨curV, _, walked⟩ := bind_eq_ok.mp walked
  cases pure_eq_ok.mp walked
  exact setGlue_keeps set

/-! ## Boxes -/

variable {next : DviBodyCompiler} {after : DirectStreamState} {continuation : DirectContinuation}

theorem enterDirectFrame_opens {self : DviBodyCompiler} {fields : BoxFields} {vertical : Bool}
    (entered : self.enterDirectFrame state fields vertical continuation = .ok (next, after)) :
    ∃ frame, frame.continuation = continuation ∧ after = { frames := frame :: state.frames } := by
  simp only [enterDirectFrame] at entered
  split at entered
  · obtain ⟨curV, _, entered⟩ := bind_eq_ok.mp entered
    cases pure_eq_ok.mp entered
    exact ⟨_, rfl, rfl⟩
  cases pure_eq_ok.mp entered
  exact ⟨_, rfl, rfl⟩

theorem directEndBox_closes {self : DviBodyCompiler}
    (ended : self.directEndBox { frames := frame :: outer } = .ok (next, state)) :
    state = { frames := outer } ∧
      (∀ saveH saveV baseLine width extra,
        frame.continuation = .hLeader saveH saveV baseLine width extra →
          next.curH.toInt = saveH.toInt + width.toInt + extra.toInt) ∧
      ∀ saveH saveV leftEdge height depth extra,
        frame.continuation = .vLeader saveH saveV leftEdge height depth extra →
          next.curV.toInt = saveV.toInt + depth.toInt + extra.toInt := by
  simp only [directEndBox] at ended
  split at ended
  next continues =>
    cases pure_eq_ok.mp ended
    simp [continues]
  next continues =>
    obtain ⟨curH, _, ended⟩ := bind_eq_ok.mp ended
    cases pure_eq_ok.mp ended
    simp [continues]
  next continues =>
    obtain ⟨curV, _, ended⟩ := bind_eq_ok.mp ended
    cases pure_eq_ok.mp ended
    simp [continues]
  next saveH saveV baseLine width extra continues =>
    obtain ⟨right, across, ended⟩ := bind_eq_ok.mp ended
    obtain ⟨curH, spaced, ended⟩ := bind_eq_ok.mp ended
    cases pure_eq_ok.mp ended
    have across := addScaled_eq_ok across
    have spaced := addScaled_eq_ok spaced
    refine ⟨rfl, ?_, by simp [continues]⟩
    intro _ _ _ _ _ same
    cases continues.symm.trans same
    change curH.toInt = _
    omega
  rename_i saveH saveV leftEdge height depth extra continues
  obtain ⟨top, above, ended⟩ := bind_eq_ok.mp ended
  obtain ⟨size, extent, ended⟩ := bind_eq_ok.mp ended
  obtain ⟨body, spaced, ended⟩ := bind_eq_ok.mp ended
  obtain ⟨curV, below, ended⟩ := bind_eq_ok.mp ended
  cases pure_eq_ok.mp ended
  have above := subScaled_eq_ok above
  have extent := addScaled_eq_ok extent
  have spaced := addScaled_eq_ok spaced
  have below := addScaled_eq_ok below
  refine ⟨rfl, by simp [continues], ?_⟩
  intro _ _ _ _ _ _ same
  cases continues.symm.trans same
  change curV.toInt = _
  omega

theorem closes_entered {walk : DviBodyCompiler → DirectStreamState → Walk} (keeps : KeepsBoxes walk)
    {self opened inner : DviBodyCompiler} {openedState innerState : DirectStreamState}
    {fields : BoxFields} {vertical : Bool}
    (entered : self.enterDirectFrame state fields vertical continuation =
      .ok (opened, openedState)) (walked : walk opened openedState = .ok (inner, innerState))
    (ended : inner.directEndBox innerState = .ok (next, after)) :
    after = state ∧ ∃ frame : DirectFrame, frame.continuation = continuation ∧
      inner.directEndBox { frames := frame :: state.frames } = .ok (next, after) := by
  obtain ⟨frame, continues, rfl⟩ := enterDirectFrame_opens entered
  obtain ⟨_, ⟨_, rfl⟩, rfl⟩ := keeps _ _ _ _ _ walked
  exact ⟨(directEndBox_closes ended).1, _, continues, ended⟩

/-! ## Turns -/

abbrev Place := DviBodyCompiler × DirectStreamState

def hLeaderSynch (copies : HLeaderRepeat) (self : DviBodyCompiler) :
    Except DviFailure DviBodyCompiler := do
  let curV ← addScaled copies.baseLine copies.fields.shift
  let self ← { self with curV }.synchV
  self.synchH

def vLeaderSynch (copies : VLeaderRepeat) (self : DviBodyCompiler) :
    Except DviFailure DviBodyCompiler := do
  let curH ← addScaled copies.leftEdge copies.fields.shift
  let self ← { self with curH }.synchH
  let curV ← addScaled self.curV copies.fields.height
  { self with curV }.synchV

def hLeaderTurn (walk : DviBodyCompiler → DirectStreamState → Walk) (copies : HLeaderRepeat)
    (place : Place) : Except DviFailure (Turn Place) := do
  let self := place.1
  let width := copies.fields.width
  let right ← addScaled self.curH width
  if copies.edge.toInt < right.toInt then do
    let curH ← subScaled copies.edge leaderRoundingCompensation
    pure (.leave ({ self with curH }, place.2))
  else do
    let self ← hLeaderSynch copies self
    let (self, state) ← self.enterDirectFrame place.2 copies.fields copies.vertical
      (.hLeader self.dviH self.dviV copies.baseLine width copies.extra)
    let (self, state) ← walk self state
    let next ← self.directEndBox state
    pure (.again next)

def vLeaderTurn (walk : DviBodyCompiler → DirectStreamState → Walk) (copies : VLeaderRepeat)
    (place : Place) : Except DviFailure (Turn Place) := do
  let self := place.1
  let height := copies.fields.height
  let depth := copies.fields.depth
  let size ← addScaled height depth
  let bottom ← addScaled self.curV size
  if copies.edge.toInt < bottom.toInt then do
    let curV ← subScaled copies.edge leaderRoundingCompensation
    pure (.leave ({ self with curV }, place.2))
  else do
    let self ← vLeaderSynch copies self
    let (self, state) ← self.enterDirectFrame place.2 copies.fields copies.vertical
      (.vLeader self.dviH self.dviV copies.leftEdge height depth copies.extra)
    let (self, state) ← walk self state
    let next ← self.directEndBox state
    pure (.again next)

section Loops

variable {walk : DviBodyCompiler → DirectStreamState → Walk} {next : DviBodyCompiler}

theorem synchH_at {self : DviBodyCompiler} (synched : self.synchH = .ok next) :
    next.dviH = self.curH ∧ next.curV = self.curV ∧ next.dviV = self.dviV := by
  unfold synchH at synched
  split at synched
  next =>
    obtain ⟨movement, _, synched⟩ := bind_eq_ok.mp synched
    cases pure_eq_ok.mp synched
    exact ⟨rfl, rfl, rfl⟩
  next there =>
    cases synched
    exact ⟨(Decidable.not_not.mp there).symm, rfl, rfl⟩

theorem synchV_at {self : DviBodyCompiler} (synched : self.synchV = .ok next) :
    next.dviV = self.curV ∧ next.curH = self.curH ∧ next.dviH = self.dviH := by
  unfold synchV at synched
  split at synched
  next =>
    obtain ⟨movement, _, synched⟩ := bind_eq_ok.mp synched
    cases pure_eq_ok.mp synched
    exact ⟨rfl, rfl, rfl⟩
  next there =>
    cases synched
    exact ⟨(Decidable.not_not.mp there).symm, rfl, rfl⟩

theorem hLeaderSynch_at {copies : HLeaderRepeat} {self : DviBodyCompiler}
    (synched : hLeaderSynch copies self = .ok next) : next.dviH = self.curH ∧
      next.dviV.toInt = copies.baseLine.toInt + copies.fields.shift.toInt := by
  obtain ⟨curV, down, synched⟩ := bind_eq_ok.mp synched
  obtain ⟨between, synchedV, synchedH⟩ := bind_eq_ok.mp synched
  obtain ⟨across, _, kept⟩ := synchH_at synchedH
  obtain ⟨there, same, _⟩ := synchV_at synchedV
  rw [across, same, kept, there]
  exact ⟨rfl, addScaled_eq_ok down⟩

theorem vLeaderSynch_at {copies : VLeaderRepeat} {self : DviBodyCompiler}
    (synched : vLeaderSynch copies self = .ok next) :
    next.dviH.toInt = copies.leftEdge.toInt + copies.fields.shift.toInt ∧
      next.dviV.toInt = self.curV.toInt + copies.fields.height.toInt := by
  obtain ⟨curH, across, synched⟩ := bind_eq_ok.mp synched
  obtain ⟨between, synchedH, synched⟩ := bind_eq_ok.mp synched
  obtain ⟨curV, down, synchedV⟩ := bind_eq_ok.mp synched
  obtain ⟨there, same, _⟩ := synchH_at synchedH
  obtain ⟨below, _, kept⟩ := synchV_at synchedV
  have down := addScaled_eq_ok down
  rw [same] at down
  rw [kept, below]
  exact ⟨(congrArg Int32.toInt there).trans (addScaled_eq_ok across), down⟩

theorem repeatHLeader_unfolds (copies : HLeaderRepeat) (fuel : Nat) (place : Place) :
    repeatHLeader walk copies (fuel + 1) place.1 place.2 = hLeaderTurn walk copies place >>=
        Turn.proceed fun next => repeatHLeader walk copies fuel next.1 next.2 := by
  simp only [repeatHLeader, hLeaderTurn, hLeaderSynch, bind_assoc]
  congr 1
  funext right
  split
  · simp only [bind_assoc, pure_bind]
    rfl
  simp only [bind_assoc, pure_bind]
  refine bind_congr fun curV => bind_congr fun down => bind_congr_ok fun across synched => ?_
  rw [(synchH_at synched).2.2]
  rfl

theorem repeatVLeader_unfolds (copies : VLeaderRepeat) (fuel : Nat) (place : Place) :
    repeatVLeader walk copies (fuel + 1) place.1 place.2 = vLeaderTurn walk copies place >>=
        Turn.proceed fun next => repeatVLeader walk copies fuel next.1 next.2 := by
  simp only [repeatVLeader, vLeaderTurn, vLeaderSynch, bind_assoc]
  congr 1
  funext size
  congr 1
  funext bottom
  split
  · simp only [bind_assoc, pure_bind]
    rfl
  simp only [bind_assoc, pure_bind]
  refine bind_congr fun curH => bind_congr fun across => bind_congr fun curV =>
    bind_congr_ok fun down synched => ?_
  rw [(synchV_at synched).2.2]
  rfl

variable {copies : HLeaderRepeat} {place : Place}

theorem hLeaderTurn_again (keeps : KeepsBoxes walk) {next : Place}
    (turned : hLeaderTurn walk copies place = .ok (.again next)) :
    (place.1.curH.toInt + copies.fields.width.toInt ≤ copies.edge.toInt ∧ next.1.curH.toInt =
        place.1.curH.toInt + copies.fields.width.toInt + copies.extra.toInt) ∧
      next.2 = place.2 ∧ ∃ synched, hLeaderSynch copies place.1 = .ok synched := by
  obtain ⟨right, reach, turned⟩ := bind_eq_ok.mp turned
  have reach := addScaled_eq_ok reach
  split at turned
  next =>
    obtain ⟨curH, _, turned⟩ := bind_eq_ok.mp turned
    cases pure_eq_ok.mp turned
  rename_i within
  obtain ⟨across, synched, turned⟩ := bind_eq_ok.mp turned
  obtain ⟨⟨opened, openedState⟩, entered, turned⟩ := bind_eq_ok.mp turned
  obtain ⟨⟨inner, innerState⟩, walked, turned⟩ := bind_eq_ok.mp turned
  obtain ⟨⟨closed, closedState⟩, ended, turned⟩ := bind_eq_ok.mp turned
  cases pure_eq_ok.mp turned
  obtain ⟨left, frame, continues, ended⟩ := closes_entered keeps entered walked ended
  have moved := (directEndBox_closes ended).2.1 _ _ _ _ _ continues
  rw [(hLeaderSynch_at synched).1] at moved
  exact ⟨⟨by omega, moved⟩, left, across, synched⟩

variable {last : Place}

theorem hLeaderTurn_leave (turned : hLeaderTurn walk copies place = .ok (.leave last)) :
    (copies.edge.toInt < place.1.curH.toInt + copies.fields.width.toInt ∧
      last.1.curH.toInt = copies.edge.toInt - 10) ∧ last.2 = place.2 := by
  obtain ⟨right, reach, turned⟩ := bind_eq_ok.mp turned
  have reach := addScaled_eq_ok reach
  split at turned
  next beyond =>
    obtain ⟨curH, resumed, turned⟩ := bind_eq_ok.mp turned
    cases pure_eq_ok.mp turned
    exact ⟨⟨by omega, subScaled_eq_ok resumed⟩, rfl⟩
  obtain ⟨across, _, turned⟩ := bind_eq_ok.mp turned
  obtain ⟨opened, _, turned⟩ := bind_eq_ok.mp turned
  obtain ⟨inner, _, turned⟩ := bind_eq_ok.mp turned
  obtain ⟨closed, _, turned⟩ := bind_eq_ok.mp turned
  cases pure_eq_ok.mp turned

theorem vLeaderTurn_again (keeps : KeepsBoxes walk) {copies : VLeaderRepeat} {next : Place}
    (turned : vLeaderTurn walk copies place = .ok (.again next)) :
    (place.1.curV.toInt + (copies.fields.height.toInt + copies.fields.depth.toInt) ≤
        copies.edge.toInt ∧ next.1.curV.toInt = place.1.curV.toInt +
        (copies.fields.height.toInt + copies.fields.depth.toInt) + copies.extra.toInt) ∧
      next.2 = place.2 ∧ ∃ synched, vLeaderSynch copies place.1 = .ok synched := by
  obtain ⟨size, extent, turned⟩ := bind_eq_ok.mp turned
  obtain ⟨bottom, reach, turned⟩ := bind_eq_ok.mp turned
  have extent := addScaled_eq_ok extent
  have reach := addScaled_eq_ok reach
  split at turned
  next =>
    obtain ⟨curV, _, turned⟩ := bind_eq_ok.mp turned
    cases pure_eq_ok.mp turned
  rename_i within
  obtain ⟨down, synched, turned⟩ := bind_eq_ok.mp turned
  obtain ⟨⟨opened, openedState⟩, entered, turned⟩ := bind_eq_ok.mp turned
  obtain ⟨⟨inner, innerState⟩, walked, turned⟩ := bind_eq_ok.mp turned
  obtain ⟨⟨closed, closedState⟩, ended, turned⟩ := bind_eq_ok.mp turned
  cases pure_eq_ok.mp turned
  obtain ⟨left, frame, continues, ended⟩ := closes_entered keeps entered walked ended
  have moved := (directEndBox_closes ended).2.2 _ _ _ _ _ _ continues
  have below := (vLeaderSynch_at synched).2
  refine ⟨⟨by omega, ?_⟩, left, down, synched⟩
  change closed.curV.toInt = _
  omega

theorem vLeaderTurn_leave {copies : VLeaderRepeat}
    (turned : vLeaderTurn walk copies place = .ok (.leave last)) : (copies.edge.toInt <
        place.1.curV.toInt + (copies.fields.height.toInt + copies.fields.depth.toInt) ∧
      last.1.curV.toInt = copies.edge.toInt - 10) ∧ last.2 = place.2 := by
  obtain ⟨size, extent, turned⟩ := bind_eq_ok.mp turned
  obtain ⟨bottom, reach, turned⟩ := bind_eq_ok.mp turned
  have extent := addScaled_eq_ok extent
  have reach := addScaled_eq_ok reach
  split at turned
  next beyond =>
    obtain ⟨curV, resumed, turned⟩ := bind_eq_ok.mp turned
    cases pure_eq_ok.mp turned
    exact ⟨⟨by omega, subScaled_eq_ok resumed⟩, rfl⟩
  obtain ⟨down, _, turned⟩ := bind_eq_ok.mp turned
  obtain ⟨opened, _, turned⟩ := bind_eq_ok.mp turned
  obtain ⟨inner, _, turned⟩ := bind_eq_ok.mp turned
  obtain ⟨closed, _, turned⟩ := bind_eq_ok.mp turned
  cases pure_eq_ok.mp turned

variable (keeps : KeepsBoxes walk)
include keeps

theorem hLeaderTurn_walks (copies : HLeaderRepeat) :
    Walks (hLeaderTurn walk copies) (fun place => place.1.curH.toInt) copies.fields.width.toInt
      copies.extra.toInt copies.edge.toInt (copies.edge.toInt - 10) where
  again _ _ turned := (hLeaderTurn_again keeps turned).1
  leave _ _ turned := (hLeaderTurn_leave turned).1

theorem vLeaderTurn_walks (copies : VLeaderRepeat) :
    Walks (vLeaderTurn walk copies) (fun place => place.1.curV.toInt)
      (copies.fields.height.toInt + copies.fields.depth.toInt) copies.extra.toInt
      copies.edge.toInt (copies.edge.toInt - 10) where
  again _ _ turned := (vLeaderTurn_again keeps turned).1
  leave _ _ turned := (vLeaderTurn_leave turned).1

theorem repeatHLeader_keeps (copies : HLeaderRepeat) (fuel : Nat) :
    KeepsState (repeatHLeader walk copies fuel) := by
  intro self next state after repeated
  exact @loop_induct Place DviFailure _ (fun place last => last.2 = place.2)
    (fun fuel place => repeatHLeader walk copies fuel place.1 place.2)
    (repeatHLeader_unfolds copies) nofun
    (fun _ _ _ turned kept => kept.trans (hLeaderTurn_again keeps turned).2.1)
    (fun _ _ turned => (hLeaderTurn_leave turned).2) fuel (self, state) (next, after)
    repeated

theorem repeatVLeader_keeps (copies : VLeaderRepeat) (fuel : Nat) :
    KeepsState (repeatVLeader walk copies fuel) := by
  intro self next state after repeated
  exact @loop_induct Place DviFailure _ (fun place last => last.2 = place.2)
    (fun fuel place => repeatVLeader walk copies fuel place.1 place.2)
    (repeatVLeader_unfolds copies) nofun
    (fun _ _ _ turned kept => kept.trans (vLeaderTurn_again keeps turned).2.1)
    (fun _ _ turned => (vLeaderTurn_leave turned).2) fuel (self, state) (next, after)
    repeated

end Loops

/-! ## Lists -/

theorem directOwnedLeader_keeps {walk : DviBodyCompiler → DirectStreamState → Walk}
    (keeps : KeepsBoxes walk) (spec : GlueSpec) (kind : GlueKind) (leader : Leader) :
    KeepsBoxes (directOwnedLeader walk spec kind leader) := by
  intro self next frame outer state walked
  simp only [directOwnedLeader, bind_eq_ok] at walked
  obtain ⟨current, last, walked⟩ := walked
  cases Except.ok.inj last
  split at walked
  · obtain ⟨⟨size, glued⟩, set, walked⟩ := bind_eq_ok.mp walked
    obtain ⟨⟨moved, copies⟩, _, walked⟩ := bind_eq_ok.mp walked
    obtain ⟨glue, reglued, rfl⟩ := setGlue_keeps set
    cases copies with
    | none =>
      cases pure_eq_ok.mp walked
      exact ⟨glue, reglued, rfl⟩
    | some copies => exact ⟨glue, reglued, repeatHLeader_keeps keeps _ _ _ _ _ _ walked⟩
  obtain ⟨⟨size, glued⟩, set, walked⟩ := bind_eq_ok.mp walked
  obtain ⟨⟨moved, copies⟩, _, walked⟩ := bind_eq_ok.mp walked
  obtain ⟨glue, reglued, rfl⟩ := setGlue_keeps set
  cases copies with
  | none =>
    cases pure_eq_ok.mp walked
    exact ⟨glue, reglued, rfl⟩
  | some copies => exact ⟨glue, reglued, repeatVLeader_keeps keeps _ _ _ _ _ _ walked⟩

theorem box_keeps {walk : DviBodyCompiler → DirectStreamState → Walk} (keeps : KeepsBoxes walk)
    {self entered : DviBodyCompiler} {inside : DirectStreamState} {fields : BoxFields}
    {vertical empty opened : Bool}
    (began : self.directBeginBox state fields vertical empty = .ok (opened, entered, inside))
    (walked : (if opened = true then do
        let (self, state) ← walk entered inside
        self.directEndBox state
      else pure (entered, inside) : Walk) = .ok (next, after)) : after = state := by
  simp only [directBeginBox, bind_eq_ok] at began
  obtain ⟨parent, _, began⟩ := began
  have outside {self : DviBodyCompiler} {continuation : DirectContinuation}
      (enters : self.enterDirectFrame state fields vertical continuation = .ok (entered, inside))
      (walks : (do
        let (self, state) ← walk entered inside
        self.directEndBox state : Walk) = .ok (next, after)) : after = state := by
    obtain ⟨⟨inner, innerState⟩, walks, ended⟩ := bind_eq_ok.mp walks
    exact (closes_entered keeps enters walks ended).1
  split at began
  · split at began
    · obtain ⟨curH, _, began⟩ := bind_eq_ok.mp began
      cases pure_eq_ok.mp began
      exact (Prod.mk.inj (pure_eq_ok.mp walked)).2.symm
    obtain ⟨below, _, began⟩ := bind_eq_ok.mp began
    obtain ⟨curV, _, began⟩ := bind_eq_ok.mp began
    cases pure_eq_ok.mp began
    exact (Prod.mk.inj (pure_eq_ok.mp walked)).2.symm
  split at began
  · obtain ⟨curV, _, began⟩ := bind_eq_ok.mp began
    obtain ⟨⟨inner, innerState⟩, enters, began⟩ := bind_eq_ok.mp began
    cases pure_eq_ok.mp began
    exact outside enters walked
  obtain ⟨curV, _, began⟩ := bind_eq_ok.mp began
  obtain ⟨synched, _, began⟩ := bind_eq_ok.mp began
  obtain ⟨curH, _, began⟩ := bind_eq_ok.mp began
  obtain ⟨⟨inner, innerState⟩, enters, began⟩ := bind_eq_ok.mp began
  cases pure_eq_ok.mp began
  exact outside enters walked

mutual

theorem directOwnedList_keeps (effects : List PageEffect) :
    ∀ nodes : List PageNode, KeepsBoxes (directOwnedList effects nodes)
  | [] => by
    intro self next frame outer state walked
    rw [directOwnedList] at walked
    cases pure_eq_ok.mp walked
    exact ⟨frame, .refl frame, rfl⟩
  | node :: following => by
    intro self next frame outer state walked
    rw [directOwnedList] at walked
    obtain ⟨⟨middle, middleState⟩, first, walked⟩ := bind_eq_ok.mp walked
    obtain ⟨between, glued, rfl⟩ := directOwnedNode_keeps effects following node _ _ _ _ _ first
    obtain ⟨after, reglued, same⟩ :=
      directOwnedList_keeps effects following middle next between outer state walked
    exact ⟨after, glued.trans reglued, same⟩

theorem directOwnedNode_keeps (effects : List PageEffect) (following : List PageNode) :
    ∀ node : PageNode, KeepsBoxes (directOwnedNode effects following node)
  | .whatsitAnchor effectIndex => by
    intro self next frame outer state walked
    simp only [directOwnedNode, bind_eq_ok] at walked
    obtain ⟨current, last, walked⟩ := walked
    cases Except.ok.inj last
    split at walked
    · obtain ⟨output, _, walked⟩ := bind_eq_ok.mp walked
      cases pure_eq_ok.mp walked
      exact ⟨frame, .refl frame, rfl⟩
    · exact ⟨frame, .refl frame, directWhatsit_keeps effects effectIndex _ _ _ _ walked⟩
  | .box vertical fields children => by
    intro self next frame outer state walked
    rw [directOwnedNode] at walked
    obtain ⟨⟨opened, entered, inside⟩, began, walked⟩ := bind_eq_ok.mp walked
    exact ⟨frame, .refl frame, box_keeps (directOwnedList_keeps effects children) began walked⟩
  | .ruleLeader spec kind width height depth => by
    intro self next frame outer state walked
    rw [directOwnedNode] at walked
    exact directOwnedLeader_keeps (skip_keeps.boxes fun _ _ => rfl) _ _ _ _ _ _ _ _ walked
  | .boxLeader spec kind vertical fields children => by
    intro self next frame outer state walked
    rw [directOwnedNode] at walked
    exact directOwnedLeader_keeps (directOwnedList_keeps effects children) _ _ _ _ _ _ _ _ walked
  | .glue spec _ => by
    intro self next frame outer state walked
    rw [directOwnedNode] at walked
    exact directGlue_keeps spec _ _ frame _ _ walked
  | .char .. => (directChar_keeps _ _ _).boxes fun _ _ => by rw [directOwnedNode]
  | .lig .. => (directChar_keeps _ _ _).boxes fun _ _ => by rw [directOwnedNode]
  | .kern .. => (directKern_keeps _).boxes fun _ _ => by rw [directOwnedNode]
  | .marginKern .. => (directKern_keeps _).boxes fun _ _ => by rw [directOwnedNode]
  | .rule .. => (directRule_keeps _ _ _).boxes fun _ _ => by rw [directOwnedNode]
  | .mathOn _ => (directMath_keeps _).boxes fun _ _ => by rw [directOwnedNode]
  | .mathOff _ => (directMath_keeps _).boxes fun _ _ => by rw [directOwnedNode]
  | .penalty _ => skip_keeps.boxes fun _ _ => by rw [directOwnedNode]
  | .disc .. => skip_keeps.boxes fun _ _ => by rw [directOwnedNode]
  | .mark .. => skip_keeps.boxes fun _ _ => by rw [directOwnedNode]
  | .insert .. => skip_keeps.boxes fun _ _ => by rw [directOwnedNode]
  | .adjust _ => skip_keeps.boxes fun _ _ => by rw [directOwnedNode]

end

theorem directOwnedList_frames (effects : List PageEffect) (nodes : List PageNode)
    (self : DviBodyCompiler) (frame : DirectFrame) (outer : List DirectFrame) :
    Ensures (directOwnedList effects nodes self ⟨frame :: outer⟩) fun walk => ∃ totals,
      walk.2 = ⟨{ frame with axis := frame.axis.withTotals totals } :: outer⟩ := by
  intro walk walked
  obtain ⟨_, ⟨totals, rfl⟩, same⟩ := directOwnedList_keeps effects nodes _ walk.1 _ _ walk.2 walked
  exact ⟨totals, same⟩

end DviBodyCompiler

/-! ## Starts -/

structure Starts (mode : LeaderMode) (cur origin available size start gap : Int) : Prop where
  ahead : cur ≤ start
  gapNonneg : 0 ≤ gap
  aligned : mode = .aligned → gap = 0 ∧ ∃ count : Int, start = origin + count * size
  margin : mode ≠ .aligned →
    start - cur ≤ available % size - (available / size - 1) * gap

theorem add_eq_ok {left right sum : Scaled} (added : Page.add left right = .ok sum) :
    sum.toInt = left.toInt + right.toInt := by
  unfold Page.add at added
  split at added
  next found =>
    cases added
    exact scaledOfInt_eq_some found
  next => cases added

theorem scaled_eq_ok {value : Int} {result : Scaled} (computed : Page.scaled value = .ok result) :
    result.toInt = value := by
  unfold Page.scaled at computed
  split at computed
  next found =>
    cases computed
    exact scaledOfInt_eq_some found
  next => cases computed

variable {cur origin available size start gap : Scaled}

theorem aligned_starts (positive : 0 < size.toInt)
    (started : leaderStart .aligned cur origin available size = .ok (start, gap)) :
    Starts .aligned cur.toInt origin.toInt available.toInt size.toInt start.toInt gap.toInt := by
  simp only [leaderStart] at started
  obtain ⟨base, based, started⟩ := bind_eq_ok.mp started
  have based := scaled_eq_ok based
  have near : cur.toInt < origin.toInt + size.toInt * (cur.toInt - origin.toInt).tdiv size.toInt +
      size.toInt := by
    by_cases behind : 0 ≤ cur.toInt - origin.toInt
    · have less := Int.lt_mul_ediv_self_add (x := cur.toInt - origin.toInt) positive
      rw [Int.tdiv_eq_ediv_of_nonneg behind]
      omega
    have whole := Int.mul_ediv_self_le (x := -(cur.toInt - origin.toInt))
      (k := size.toInt) (by omega)
    rw [← Int.neg_neg (cur.toInt - origin.toInt), Int.neg_tdiv,
      Int.tdiv_eq_ediv_of_nonneg (by omega), Int.mul_neg]
    omega
  split at started
  next behind =>
    obtain ⟨next, stepped, started⟩ := bind_eq_ok.mp started
    cases pure_eq_ok.mp started
    have stepped := add_eq_ok stepped
    refine ⟨by omega, Int.le_refl _, fun _ => ⟨rfl, ?_⟩, fun other => absurd rfl other⟩
    refine ⟨(cur.toInt - origin.toInt).tdiv size.toInt + 1, ?_⟩
    rw [stepped, based, Int.add_mul, Int.one_mul, Int.mul_comm size.toInt, Int.add_assoc]
  next there =>
    cases pure_eq_ok.mp started
    refine ⟨by omega, Int.le_refl _, fun _ => ⟨rfl, ?_⟩, fun other => absurd rfl other⟩
    exact ⟨_, by rw [based, Int.mul_comm size.toInt]⟩

theorem centered_starts (positive : 0 < size.toInt) (roomy : 0 < available.toInt)
    (started : leaderStart .centered cur origin available size = .ok (start, gap)) :
    Starts .centered cur.toInt origin.toInt available.toInt size.toInt start.toInt gap.toInt := by
  simp only [leaderStart] at started
  obtain ⟨first, moved, started⟩ := bind_eq_ok.mp started
  cases pure_eq_ok.mp started
  have moved := add_eq_ok moved
  have remainder : 0 ≤ available.toInt % size.toInt := Int.emod_nonneg _ (by omega)
  have less : available.toInt % size.toInt < size.toInt := Int.emod_lt_of_pos _ positive
  have width := Int32.toInt_lt size
  rw [Int.tmod_eq_emod_of_nonneg (by omega), Int.tdiv_eq_ediv_of_nonneg remainder,
    Int32.toInt_ofInt_of_le (by omega) (by omega)] at moved
  refine ⟨by omega, Int.le_refl _, nofun, fun _ => ?_⟩
  rw [Int32.toInt_zero, Int.mul_zero, Int.sub_zero]
  omega

theorem expanded_starts (positive : 0 < size.toInt) (roomy : 0 < available.toInt)
    (started : leaderStart .expanded cur origin available size = .ok (start, gap)) :
    Starts .expanded cur.toInt origin.toInt available.toInt size.toInt start.toInt gap.toInt := by
  simp only [leaderStart] at started
  obtain ⟨margin, halved, started⟩ := bind_eq_ok.mp started
  obtain ⟨first, moved, started⟩ := bind_eq_ok.mp started
  obtain ⟨extra, spread, started⟩ := bind_eq_ok.mp started
  cases pure_eq_ok.mp started
  have halved := scaled_eq_ok halved
  have moved := add_eq_ok moved
  have spread := scaled_eq_ok spread
  have remainder : 0 ≤ available.toInt % size.toInt := Int.emod_nonneg _ (by omega)
  have count : 0 ≤ available.toInt / size.toInt := Int.ediv_nonneg (by omega) (by omega)
  rw [Int.tmod_eq_emod_of_nonneg (by omega),
    Int.tdiv_eq_ediv_of_nonneg (by omega : 0 ≤ available.toInt),
    Int.tdiv_eq_ediv_of_nonneg remainder] at halved spread
  have shared := Int.mul_ediv_self_le (x := available.toInt % size.toInt)
    (k := available.toInt / size.toInt + 1) (by omega)
  have gapNonneg : 0 ≤ available.toInt % size.toInt / (available.toInt / size.toInt + 1) :=
    Int.ediv_nonneg remainder (by omega)
  rw [← spread] at halved shared gapNonneg
  rw [Int.add_mul] at shared
  have rest : 0 ≤ available.toInt % size.toInt -
      (available.toInt / size.toInt - 1) * gap.toInt := by
    rw [Int.sub_mul]
    omega
  rw [Int.tdiv_eq_ediv_of_nonneg rest] at halved
  exact ⟨by omega, gapNonneg, nofun, fun _ => by omega⟩

/-! ## Copies -/

/-- The copies of a leader box between `cur` and `cur + available`. -/
structure CopiesPlaced (mode : LeaderMode) (cur origin available size : Int)
    (positions : List Int) (resume : Int) : Prop where
  inside : ∀ position ∈ positions, cur ≤ position ∧ position + size ≤ cur + available
  apart : positions.Pairwise fun left right => left + size ≤ right
  aligned : mode = .aligned →
    ∀ position ∈ positions, ∃ count : Int, position = origin + count * size
  counted : mode ≠ .aligned → (positions.length : Int) = available / size
  resumes : resume = cur + available - 10

variable {edge : Int} {mode : LeaderMode}

theorem Starts.placed {cur origin available size start gap : Int}
    {positions : List Int} (starts : Starts mode cur origin available size start gap)
    (row : Row start size gap edge positions) (positive : 0 < size) (roomy : 0 < available)
    (reach : edge = cur + available) :
    CopiesPlaced mode cur origin available size positions (edge - 10) := by
  have wide : 0 ≤ size + gap := by
    have := starts.gapNonneg
    omega
  refine ⟨fun position member => ?_, row.apart, fun same position member => ?_, fun other => ?_, ?_⟩
  · obtain ⟨index, found⟩ := List.mem_iff_getElem?.mp member
    have there := row.placed index position found
    have fits := row.fits position member
    have ahead := starts.ahead
    have further : 0 ≤ (index : Int) * (size + gap) :=
      Int.mul_nonneg (Int.natCast_nonneg _) wide
    omega
  · obtain ⟨index, found⟩ := List.mem_iff_getElem?.mp member
    obtain ⟨noGap, count, start⟩ := starts.aligned same
    refine ⟨count + index, ?_⟩
    rw [row.placed index position found, start, noGap, Int.add_zero, Int.add_mul, Int.add_assoc]
  · refine row.count starts.gapNonneg positive (Int.ediv_nonneg (by omega) (by omega))
      (Int.emod_lt_of_pos _ positive) ?_ starts.ahead (starts.margin other)
    rw [reach, Int.mul_comm, Int.mul_ediv_add_emod]
  · rw [reach]

theorem leaderStart_starts (positive : 0 < size.toInt) (roomy : 0 < available.toInt)
    (started : leaderStart mode cur origin available size = .ok (start, gap)) :
    Starts mode cur.toInt origin.toInt available.toInt size.toInt start.toInt gap.toInt := by
  cases mode with
  | aligned => exact aligned_starts positive started
  | centered => exact centered_starts positive roomy started
  | expanded => exact expanded_starts positive roomy started

open DviBodyCompiler

/-- The loop over the copies ends with the fuel it has, and the output has been moved to where each
copy goes; the copies are placed where the loop does not fail. -/
def CopiesSettle (turn : Place → Except DviFailure (Turn Place))
    (synch : DviBodyCompiler → Except DviFailure DviBodyCompiler) (loop : Walk)
    (position : Place → Int) (goal : DviBodyCompiler → Int × Int) (mode : LeaderMode)
    (cur origin available size : Int) (place : Place) : Prop :=
  ∃ visited, Run turn place visited loop ∧
    (∀ copy ∈ visited, ∃ synched, synch copy.1 = .ok synched ∧
      (synched.dviH.toInt, synched.dviV.toInt) = goal copy.1) ∧
    ∀ last, loop = .ok last →
      CopiesPlaced mode cur origin available size (visited.map position) (position last)

def HLeaderRepeat.goal (copies : HLeaderRepeat) (self : DviBodyCompiler) : Int × Int :=
  (self.curH.toInt, copies.baseLine.toInt + copies.fields.shift.toInt)

def VLeaderRepeat.goal (copies : VLeaderRepeat) (self : DviBodyCompiler) : Int × Int :=
  (copies.leftEdge.toInt + copies.fields.shift.toInt,
    self.curV.toInt + copies.fields.height.toInt)

theorem Starts.settle {turn : Place → Except DviFailure (Turn Place)}
    {synch : DviBodyCompiler → Except DviFailure DviBodyCompiler} (position : Place → Int)
    (goal : DviBodyCompiler → Int × Int) (place : Place) {cur origin available size gap : Int}
    (starts : Starts mode cur origin available size (position place) gap)
    (walks : Walks turn position size gap edge (edge - 10)) (loop : Nat → Place → Walk)
    (unfolds : ∀ fuel place, loop (fuel + 1) place = turn place >>= Turn.proceed (loop fuel))
    (moves : ∀ copy next, turn copy = .ok (.again next) → ∃ synched,
      synch copy.1 = .ok synched ∧ (synched.dviH.toInt, synched.dviV.toInt) = goal copy.1)
    (positive : 0 < size) (roomy : 0 < available) (reach : edge = cur + available) :
    CopiesSettle turn synch (loop ((edge - position place).toNat + 1) place) position goal mode cur
      origin available size place := by
  obtain ⟨visited, outcome, run, short⟩ := walks.exists_run positive starts.gapNonneg place
  rw [run.loop_eq loop unfolds (Nat.lt_succ_of_le short)]
  refine ⟨visited, run, fun copy member => ?_, fun last finished => ?_⟩
  · obtain ⟨next, goes⟩ := run.goes_again member
    exact moves copy next goes
  subst finished
  obtain ⟨row, resumes⟩ := walks.row positive starts.gapNonneg run
  rw [resumes]
  exact starts.placed row positive roomy reach

theorem ofGeometry_eq_ok {α : Type} {computed : Except GeometryError α} {value : α}
    (found : ofGeometry computed = .ok value) : computed = .ok value := by
  unfold ofGeometry at found
  split at found
  next =>
    cases found
    rfl
  next => cases found
  next => cases found

section Settled

variable {self moved : DviBodyCompiler} {thisBox fields : BoxFields} {kind : GlueKind}
  {mode : LeaderMode} {vertical : Bool} {walk : DviBodyCompiler → DirectStreamState → Walk}
  {leftEdge : Scaled}

theorem hLeaders_settle (keeps : KeepsBoxes walk) (leads : LeaderMode.fromGlue kind = some mode)
    (state : DirectStreamState) {ruleWd baseLine : Scaled} {copies : Option HLeaderRepeat}
    (wide : 0 < ruleWd.toInt) (positive : 0 < fields.width.toInt)
    (moves : self.moveRightOrOutputLeaders thisBox kind (.box vertical fields) ruleWd leftEdge
      baseLine = .ok (moved, copies)) :
    ∃ repeats, copies = some repeats ∧
      CopiesSettle (hLeaderTurn walk repeats) (hLeaderSynch repeats)
        (repeatHLeader walk repeats ((repeats.edge.toInt - moved.curH.toInt).toNat + 1)
          { moved with curV := baseLine } state)
        (fun place => place.1.curH.toInt) repeats.goal mode self.curH.toInt leftEdge.toInt
        (ruleWd.toInt + 10) fields.width.toInt ({ moved with curV := baseLine }, state) := by
  simp only [moveRightOrOutputLeaders, leads] at moves
  rw [if_pos ⟨positive, wide⟩] at moves
  obtain ⟨space, widens, moves⟩ := bind_eq_ok.mp moves
  obtain ⟨edge, reach, moves⟩ := bind_eq_ok.mp moves
  obtain ⟨⟨start, gap⟩, started, moves⟩ := bind_eq_ok.mp moves
  cases pure_eq_ok.mp moves
  have room : space.toInt = ruleWd.toInt + 10 := addScaled_eq_ok widens
  have reach := addScaled_eq_ok reach
  have starts := leaderStart_starts positive (by omega) (ofGeometry_eq_ok started)
  rw [room] at starts reach
  let copies : HLeaderRepeat := { vertical, fields, edge, extra := gap, baseLine }
  refine ⟨copies, rfl, Starts.settle (fun place => place.1.curH.toInt) copies.goal
    ({ self with curH := start, curV := baseLine }, state) starts (hLeaderTurn_walks keeps copies)
    (fun fuel place => repeatHLeader walk copies fuel place.1 place.2)
    (repeatHLeader_unfolds copies) (fun copy next goes => ?_) positive (by omega) reach⟩
  obtain ⟨synched, moved⟩ := (hLeaderTurn_again keeps goes).2.2
  obtain ⟨across, down⟩ := hLeaderSynch_at moved
  exact ⟨synched, moved, Prod.ext (congrArg Int32.toInt across) down⟩

theorem vLeaders_settle (keeps : KeepsBoxes walk) (leads : LeaderMode.fromGlue kind = some mode)
    (state : DirectStreamState) {ruleHt topEdge : Scaled} {copies : Option VLeaderRepeat}
    (high : 0 < ruleHt.toInt) (positive : 0 < fields.height.toInt + fields.depth.toInt)
    (moves : self.moveDownOrOutputLeaders thisBox kind (.box vertical fields) ruleHt leftEdge
      topEdge = .ok (moved, copies)) : ∃ repeats, copies = some repeats ∧
      CopiesSettle (vLeaderTurn walk repeats) (vLeaderSynch repeats)
        (repeatVLeader walk repeats ((repeats.edge.toInt - moved.curV.toInt).toNat + 1) moved state)
        (fun place => place.1.curV.toInt) repeats.goal mode self.curV.toInt topEdge.toInt
        (ruleHt.toInt + 10) (fields.height.toInt + fields.depth.toInt) (moved, state) := by
  simp only [moveDownOrOutputLeaders, leads] at moves
  obtain ⟨size, extent, moves⟩ := bind_eq_ok.mp moves
  have total := addScaled_eq_ok extent
  rw [if_pos ⟨by omega, high⟩] at moves
  obtain ⟨space, widens, moves⟩ := bind_eq_ok.mp moves
  obtain ⟨edge, reach, moves⟩ := bind_eq_ok.mp moves
  obtain ⟨⟨start, gap⟩, started, moves⟩ := bind_eq_ok.mp moves
  cases pure_eq_ok.mp moves
  have room : space.toInt = ruleHt.toInt + 10 := addScaled_eq_ok widens
  have reach := addScaled_eq_ok reach
  have starts := leaderStart_starts (by omega) (by omega) (ofGeometry_eq_ok started)
  rw [room, total] at starts
  rw [room] at reach
  let copies : VLeaderRepeat := { vertical, fields, edge, extra := gap, leftEdge }
  refine ⟨copies, rfl, Starts.settle (fun place => place.1.curV.toInt) copies.goal
    ({ self with curV := start }, state) starts (vLeaderTurn_walks keeps copies)
    (fun fuel place => repeatVLeader walk copies fuel place.1 place.2)
    (repeatVLeader_unfolds copies) (fun copy next goes => ?_) positive (by omega) reach⟩
  obtain ⟨synched, moved⟩ := (vLeaderTurn_again keeps goes).2.2
  obtain ⟨across, down⟩ := vLeaderSynch_at moved
  exact ⟨synched, moved, Prod.ext across down⟩

end Settled

/-- The copies of a leader box stand inside their glue, in both kinds of lists. -/
theorem leaders_settle (effects : List PageEffect) (children : List PageNode)
    (self : DviBodyCompiler) (state : DirectStreamState) (thisBox fields : BoxFields)
    (kind : GlueKind) (mode : LeaderMode) (vertical : Bool) (room leftEdge edge : Scaled)
    (leads : LeaderMode.fromGlue kind = some mode) (wide : 0 < room.toInt) :
    (∀ (moved : DviBodyCompiler) (copies : Option HLeaderRepeat), 0 < fields.width.toInt →
      self.moveRightOrOutputLeaders thisBox kind (.box vertical fields) room leftEdge edge =
        .ok (moved, copies) →
      ∃ repeats, copies = some repeats ∧
        CopiesSettle (hLeaderTurn (directOwnedList effects children) repeats)
          (hLeaderSynch repeats) (repeatHLeader (directOwnedList effects children) repeats
            ((repeats.edge.toInt - moved.curH.toInt).toNat + 1) { moved with curV := edge } state)
          (fun place => place.1.curH.toInt) repeats.goal mode self.curH.toInt leftEdge.toInt
          (room.toInt + 10) fields.width.toInt ({ moved with curV := edge }, state)) ∧
      ∀ (moved : DviBodyCompiler) (copies : Option VLeaderRepeat),
        0 < fields.height.toInt + fields.depth.toInt →
        self.moveDownOrOutputLeaders thisBox kind (.box vertical fields) room leftEdge edge =
          .ok (moved, copies) →
        ∃ repeats, copies = some repeats ∧
          CopiesSettle (vLeaderTurn (directOwnedList effects children) repeats)
            (vLeaderSynch repeats) (repeatVLeader (directOwnedList effects children) repeats
              ((repeats.edge.toInt - moved.curV.toInt).toNat + 1) moved state)
            (fun place => place.1.curV.toInt) repeats.goal mode self.curV.toInt edge.toInt
            (room.toInt + 10) (fields.height.toInt + fields.depth.toInt) (moved, state) :=
  ⟨fun _ _ positive moves => hLeaders_settle (directOwnedList_keeps effects children) leads state
      wide positive moves,
    fun _ _ positive moves => vLeaders_settle (directOwnedList_keeps effects children) leads state
      wide positive moves⟩

def narrowBox : BoxFields where
  width := 3
  height := 2
  depth := 1
  shift := 0
  glueSet := ⟨0, 1, by decide, by decide, by decide⟩
  glueSign := .normal
  glueOrder := .normal

/-- Five copies, and the loop over them does not fail. -/
theorem leaders_settle_narrow :
    ∃ moved repeats last, DviBodyCompiler.new.moveRightOrOutputLeaders narrowBox .xleaders
        (.box false narrowBox) 5 0 0 = .ok (moved, some repeats) ∧
      repeatHLeader (directOwnedList [] []) repeats
        ((repeats.edge.toInt - moved.curH.toInt).toNat + 1) { moved with curV := 0 }
        { frames := [] } = .ok last ∧
      CopiesSettle (hLeaderTurn (directOwnedList [] []) repeats) (hLeaderSynch repeats)
        (repeatHLeader (directOwnedList [] []) repeats
          ((repeats.edge.toInt - moved.curH.toInt).toNat + 1) { moved with curV := 0 }
          { frames := [] })
        (fun place => place.1.curH.toInt) repeats.goal .expanded 0 0 15 3
        ({ moved with curV := 0 }, { frames := [] }) := by
  obtain ⟨across, down⟩ := leaders_settle [] [] .new { frames := [] } narrowBox narrowBox
    .xleaders .expanded false 5 0 0 rfl (by decide)
  have evaluated : (DviBodyCompiler.new.moveRightOrOutputLeaders narrowBox .xleaders
      (.box false narrowBox) 5 0 0).toOption.any (fun found => found.2.any fun repeats =>
        (repeatHLeader (directOwnedList [] []) repeats
          ((repeats.edge.toInt - found.1.curH.toInt).toNat + 1) { found.1 with curV := 0 }
          { frames := [] }).isOk) = true := by
    decide +kernel
  obtain ⟨⟨moved, copies⟩, moves, ends⟩ := exists_of_toOption_any evaluated
  obtain ⟨repeats, rfl, settled⟩ := across moved copies (by decide) moves
  obtain ⟨last, ended⟩ := exists_of_isOk ends
  exact ⟨moved, repeats, last, moves, ended, settled⟩

end Umber.Dvi
