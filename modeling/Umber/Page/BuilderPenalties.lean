import Umber.Lib.Except
import Umber.Page.BuilderRounds
import Umber.Typeset.LinePenalty

/-! The sums of penalties and of sizes that abort the program, and when they do. -/

set_option autoImplicit false

namespace Umber.PageBuilder

open Umber.Typeset ExceptLib

/-! ## Computations that fail with an error -/

def Tame {α : Type} (computation : Building α) : Prop :=
  ∀ error, computation = .error error → error = .arithmeticOverflow

variable {α : Type}

theorem tame_ok (value : α) : Tame (.ok value : Building α) :=
  nofun

theorem tame_overflow : Tame (.error .arithmeticOverflow : Building α) :=
  fun _ same => (Except.error.inj same).symm

variable {computation : Building α}

theorem Tame.bind {β : Type} {next : α → Building β} (tame : Tame computation)
    (later : ∀ value, Tame (next value)) : Tame (computation >>= next) := by
  cases computation with
  | error error =>
    cases tame error rfl
    exact tame_overflow
  | ok value => exact later value

theorem Tame.ite {condition : Prop} [Decidable condition] {left right : Building α}
    (leftTame : Tame left) (rightTame : Tame right) : Tame (if condition then left else right) := by
  split
  · exact leftTame
  · exact rightTame

theorem tame_stored (value : Int) : Tame (stored value) :=
  Tame.ite (tame_ok _) tame_overflow

theorem tame_add (left right : Int) : Tame (add left right) := tame_stored _

theorem tame_sub (left right : Int) : Tame (sub left right) := tame_stored _

theorem tame_xOverN (x n : Int) : Tame (xOverN x n) :=
  Tame.ite tame_overflow
    ((tame_stored _).bind fun _ => (tame_stored _).bind fun _ => tame_ok _)

theorem tame_nxPlusY (n x y : Int) : Tame (nxPlusY n x y) :=
  Tame.ite (tame_ok _) (Tame.ite (tame_stored _) tame_overflow)

theorem tame_scaledInsertionSize (size count : Int) : Tame (scaledInsertionSize size count) :=
  Tame.ite (tame_ok _) ((tame_xOverN _ _).bind fun _ => tame_nxPlusY _ _ _)

theorem tame_inverseScaledInsertionCapacity (size count : Int) :
    Tame (inverseScaledInsertionCapacity size count) :=
  Tame.ite (tame_ok _) ((tame_xOverN _ _).bind fun _ => tame_nxPlusY _ _ _)

theorem tame_addGlueStretch (state : PageState) (spec : GlueSpec) :
    Tame (addGlueStretch state spec) :=
  (tame_add _ _).bind fun _ => tame_ok _

theorem tame_addRoom (state : PageState) (width depth : Int) : Tame (addRoom state width depth) :=
  (tame_add _ _).bind fun _ => (tame_add _ _).bind fun _ => tame_ok _

theorem tame_updateGlueOrKern (state : PageState) (node : PageNode) :
    Tame (updateGlueOrKern state node) := by
  cases node with
  | kern amount => exact (tame_addRoom _ _ _).bind fun _ => tame_ok _
  | glue spec topSkip =>
    exact (tame_addGlueStretch _ _).bind fun _ => (tame_add _ _).bind fun _ =>
      (tame_addRoom _ _ _).bind fun _ => tame_ok _
  | hlist | vlist | rule | penalty | ins | whatsit | mark | other => exact tame_ok _

theorem tame_contributeFrontAs (state : PageState) (node : PageNode) :
    Tame (contributeFrontAs state node) :=
  (Tame.ite ((tame_sub _ _).bind fun _ => (tame_add _ _).bind fun _ => tame_ok _)
    (tame_ok _)).bind fun _ => tame_ok _

theorem tame_pageBadness (totals : PageTotals) : Tame (pageBadness totals) :=
  Tame.ite (Tame.ite (tame_ok _) ((tame_sub _ _).bind fun _ => tame_ok _))
    ((tame_sub _ _).bind fun _ => Tame.ite (tame_ok _) (tame_ok _))

theorem tame_breakCost (badness penalty insertPenalties : Int) :
    Tame (breakCost badness penalty insertPenalties) :=
  Tame.ite (Tame.ite (tame_ok _)
    (Tame.ite ((tame_add _ _).bind fun _ => tame_add _ _) (tame_ok _))) (tame_ok _)

theorem tame_checkBreak (state : PageState) (penalty : Int) : Tame (checkBreak state penalty) :=
  Tame.ite (tame_ok _)
    ((tame_pageBadness _).bind fun _ => (tame_breakCost _ _ _).bind fun _ => tame_ok _)

theorem tame_contributeRoom (state : PageState) (node : PageNode) (legal : Bool) :
    Tame (contributeRoom state node legal) :=
  (Tame.ite (tame_checkBreak _ _) (tame_ok _)).bind fun _ =>
    Tame.ite (tame_ok _)
      ((tame_updateGlueOrKern _ _).bind fun _ => tame_contributeFrontAs _ _)

theorem tame_insertionBoxSize (params : PageParams) (state : PageState) (insertClass : Nat) :
    Tame (insertionBoxSize params state insertClass) := by
  refine Tame.ite (tame_ok _) ?_
  split
  next => exact tame_ok _
  next => exact tame_ok _
  next => exact (tame_add _ _).bind fun _ => tame_ok _

theorem tame_createPageInsertion (params : PageParams) (state : PageState) (insertClass : Nat) :
    Tame (createPageInsertion params state insertClass) :=
  (tame_insertionBoxSize _ _ _).bind fun _ => (tame_scaledInsertionSize _ _).bind fun _ =>
    (tame_sub _ _).bind fun _ => (tame_sub _ _).bind fun _ =>
      (tame_addGlueStretch _ _).bind fun _ => (tame_add _ _).bind fun _ => tame_ok _

theorem tame_pageInsertionFor (params : PageParams) (state : PageState) (insertClass : Nat) :
    Tame (pageInsertionFor params state insertClass) := by
  unfold pageInsertionFor
  split
  next => exact tame_ok _
  next => exact tame_createPageInsertion _ _ _

theorem tame_raised (breaking : Breaking VerticalBreak) : Tame (raised breaking) := by
  cases breaking with
  | ok split => exact tame_ok _
  | error error => exact tame_overflow

theorem tame_splitCapacity (params : PageParams) (totals : PageTotals) (insertClass : Nat)
    (height : Int) : Tame (splitCapacity params totals insertClass height) :=
  (Tame.ite (tame_ok _) ((tame_sub _ _).bind fun _ => (tame_sub _ _).bind fun _ =>
    tame_inverseScaledInsertionCapacity _ _)).bind fun _ => (tame_sub _ _).bind fun _ => tame_ok _

theorem tame_insertionDelta (totals : PageTotals) : Tame (insertionDelta totals) :=
  (tame_sub _ _).bind fun _ => (tame_sub _ _).bind fun _ => tame_add _ _

theorem tame_insertionFits (params : PageParams) (record : PageInsertion) (insertion : Insertion)
    (delta scaled : Int) : Tame (insertionFits params record insertion delta scaled) :=
  Tame.ite ((tame_add _ _).bind fun _ => tame_ok _) (tame_ok _)

/-! ## Insertions before their penalty is added -/

structure Settled where
  state : PageState
  replacement : Option Insertion
  charge : Option Int

def Settled.pay (settled : Settled) : Building (PageState × Option Insertion) :=
  match settled.charge with
  | none => .ok (settled.state, settled.replacement)
  | some penalty => do
    let state ← addInsertPenalty settled.state penalty
    pure (state, settled.replacement)

def settleSplit (params : PageParams) (state : PageState) (record : PageInsertion)
    (insertion : Insertion) : Building Settled := do
  let capacity ← splitCapacity params state.totals insertion.insertClass record.height
  let split ← raised (vertBreak insertion.content capacity insertion.splitMaxDepth)
  let replacement := normalizeInsertContentShrink insertion split.infiniteShrinkGlue
  let height ← add record.height split.bestHeightPlusDepth
  let scaled ← scaledInsertionSize split.bestHeightPlusDepth (params.count insertion.insertClass)
  let goal ← sub state.totals.goal scaled
  let record :=
    { record with height, status := .splitUp state.currentPage.length split.breakIndex }
  pure ⟨(state.setGoal goal).upsertPageInsertion record, replacement,
    some (splitPenalty insertion.content split.breakIndex)⟩

def settleInsertion (params : PageParams) (state : PageState) (insertion : Insertion) :
    Building Settled := do
  let (state, record) ← pageInsertionFor params state insertion.insertClass
  match record.status with
  | .splitUp _ _ =>
    pure ⟨state.upsertPageInsertion record, none, some insertion.floatingPenalty⟩
  | .inserting => do
    let record := { record with lastInsIndex := some state.currentPage.length }
    let delta ← insertionDelta state.totals
    let scaled ← scaledInsertionSize insertion.size (params.count insertion.insertClass)
    let fits ← insertionFits params record insertion delta scaled
    if fits = true then do
      let goal ← sub state.totals.goal scaled
      let height ← add record.height insertion.size
      pure ⟨(state.setGoal goal).upsertPageInsertion { record with height }, none, none⟩
    else settleSplit params state record insertion

theorem addInsertPenalty_of_fits {state : PageState} {penalty : Int}
    (fits : fitsScaled (state.insertPenalties + penalty) = true) :
    addInsertPenalty state penalty =
      .ok { state with insertPenalties := state.insertPenalties + penalty } := if_pos fits

theorem addInsertPenalty_of_beyond {state : PageState} {penalty : Int}
    (beyond : ¬ fitsScaled (state.insertPenalties + penalty) = true) :
    addInsertPenalty state penalty = .error .insertPenaltyOverflow := if_neg beyond

theorem pay_split (state : PageState) (record : PageInsertion) (replacement : Option Insertion)
    (penalty : Int) : (addInsertPenalty state penalty >>= fun paid =>
      (pure (paid.upsertPageInsertion record, replacement) :
        Building (PageState × Option Insertion))) =
      Settled.pay ⟨state.upsertPageInsertion record, replacement, some penalty⟩ := by
  by_cases fits : fitsScaled (state.insertPenalties + penalty) = true
  · have paid := @addInsertPenalty_of_fits (state.upsertPageInsertion record) penalty fits
    simp only [Settled.pay, addInsertPenalty_of_fits fits, paid, ok_bind]
    rfl
  have paid := @addInsertPenalty_of_beyond (state.upsertPageInsertion record) penalty fits
  simp only [Settled.pay, addInsertPenalty_of_beyond fits, paid, error_bind]

section

variable (params : PageParams)
include params

theorem prepareSplit_eq (state : PageState) (record : PageInsertion)
    (insertion : Insertion) : (splitPageInsertion params state record insertion >>= fun settled =>
      (pure (settled.1.upsertPageInsertion settled.2.1, settled.2.2) :
        Building (PageState × Option Insertion))) =
      settleSplit params state record insertion >>= Settled.pay := by
  simp only [splitPageInsertion, settleSplit, bind_assoc, pure_bind]
  refine bind_congr fun capacity => bind_congr fun split => bind_congr fun height =>
    bind_congr fun scaled => bind_congr fun goal => ?_
  exact pay_split _ _ _ _

/-- An insertion is prepared by settling it and adding the penalty that is due. -/
theorem prepareInsertion_eq (state : PageState) (insertion : Insertion) :
    prepareInsertion params state insertion =
      settleInsertion params state insertion >>= Settled.pay := by
  simp only [prepareInsertion, settleInsertion, bind_assoc]
  refine bind_congr fun found => ?_
  obtain ⟨state, record⟩ := found
  cases status : record.status with
  | splitUp brokenInsIndex brokenAt =>
    simp only [pure_bind]
    exact pay_split _ _ _ _
  | inserting => ?_
  simp only [bind_assoc]
  refine bind_congr fun delta => bind_congr fun scaled => bind_congr fun fits => ?_
  cases fits with
  | true =>
    simp only [if_true, bind_assoc]
    exact bind_congr fun goal => bind_congr fun height => rfl
  | false => exact prepareSplit_eq _ _ _ _

theorem tame_settleSplit (state : PageState) (record : PageInsertion)
    (insertion : Insertion) : Tame (settleSplit params state record insertion) :=
  (tame_splitCapacity _ _ _ _).bind fun _ => (tame_raised _).bind fun _ =>
    (tame_add _ _).bind fun _ => (tame_scaledInsertionSize _ _).bind fun _ =>
      (tame_sub _ _).bind fun _ => tame_ok _

theorem tame_settleInsertion (state : PageState) (insertion : Insertion) :
    Tame (settleInsertion params state insertion) := by
  refine (tame_pageInsertionFor _ _ _).bind fun found => ?_
  obtain ⟨state, record⟩ := found
  cases status : record.status with
  | splitUp brokenInsIndex brokenAt =>
    simp only [status]
    exact tame_ok _
  | inserting => ?_
  simp only [status]
  refine (tame_insertionDelta _).bind fun _ => (tame_scaledInsertionSize _ _).bind fun _ =>
    (tame_insertionFits _ _ _ _ _).bind fun _ => ?_
  exact Tame.ite ((tame_sub _ _).bind fun _ => (tame_add _ _).bind fun _ => tame_ok _)
    (tame_settleSplit _ _ _ _)

end

/-! ## Settling leaves the penalties alone -/

variable {state : PageState}

theorem addGlueStretch_insertPenalties {next : PageState} {spec : GlueSpec}
    (added : addGlueStretch state spec = .ok next) :
    next.insertPenalties = state.insertPenalties := by
  obtain ⟨_, _, same⟩ := bind_eq_ok.mp added
  cases same
  rfl

variable {params : PageParams} {insertClass : Nat}

theorem insertionBoxSize_insertPenalties {found : PageState × Int}
    (sized : insertionBoxSize params state insertClass = .ok found) :
    found.1.insertPenalties = state.insertPenalties := by
  unfold insertionBoxSize at sized
  split at sized
  next =>
    cases sized
    rfl
  split at sized
  next =>
    cases sized
    rfl
  next =>
    cases sized
    rfl
  obtain ⟨_, _, same⟩ := bind_eq_ok.mp sized
  cases same
  rfl

variable {found : PageState × PageInsertion}

theorem createPageInsertion_insertPenalties
    (created : createPageInsertion params state insertClass = .ok found) :
    found.1.insertPenalties = state.insertPenalties := by
  obtain ⟨boxed, sized, created⟩ := bind_eq_ok.mp created
  obtain ⟨scaled, _, created⟩ := bind_eq_ok.mp created
  obtain ⟨reduced, _, created⟩ := bind_eq_ok.mp created
  obtain ⟨goal, _, created⟩ := bind_eq_ok.mp created
  obtain ⟨stretched, added, created⟩ := bind_eq_ok.mp created
  obtain ⟨shrink, _, same⟩ := bind_eq_ok.mp created
  cases same
  rw [PageState.setShrink_insertPenalties, addGlueStretch_insertPenalties added,
    PageState.setGoal_insertPenalties, insertionBoxSize_insertPenalties sized]

theorem pageInsertionFor_insertPenalties
    (known : pageInsertionFor params state insertClass = .ok found) :
    found.1.insertPenalties = state.insertPenalties := by
  unfold pageInsertionFor at known
  split at known
  next =>
    cases known
    rfl
  next => exact createPageInsertion_insertPenalties known

variable {insertion : Insertion} {settled : Settled}

theorem settleSplit_insertPenalties {record : PageInsertion}
    (done : settleSplit params state record insertion = .ok settled) :
    settled.state.insertPenalties = state.insertPenalties := by
  obtain ⟨capacity, _, done⟩ := bind_eq_ok.mp done
  obtain ⟨split, _, done⟩ := bind_eq_ok.mp done
  obtain ⟨height, _, done⟩ := bind_eq_ok.mp done
  obtain ⟨scaled, _, done⟩ := bind_eq_ok.mp done
  obtain ⟨goal, _, same⟩ := bind_eq_ok.mp done
  cases same
  rfl

theorem settleInsertion_insertPenalties
    (done : settleInsertion params state insertion = .ok settled) :
    settled.state.insertPenalties = state.insertPenalties := by
  obtain ⟨⟨found, record⟩, known, done⟩ := bind_eq_ok.mp done
  have kept : found.insertPenalties = state.insertPenalties :=
    pageInsertionFor_insertPenalties known
  cases status : record.status with
  | splitUp brokenInsIndex brokenAt =>
    simp only [status] at done
    cases done
    exact kept
  | inserting => ?_
  simp only [status] at done
  obtain ⟨delta, _, done⟩ := bind_eq_ok.mp done
  obtain ⟨scaled, _, done⟩ := bind_eq_ok.mp done
  obtain ⟨fits, _, done⟩ := bind_eq_ok.mp done
  cases fits with
  | true =>
    obtain ⟨goal, _, done⟩ := bind_eq_ok.mp done
    obtain ⟨height, _, same⟩ := bind_eq_ok.mp done
    cases same
    exact kept
  | false => exact (settleSplit_insertPenalties done).trans kept

/-! ## Penalties that fit -/

/-- The penalty that an insertion charges the page with leaves the sum in range. -/
def ChargeFits (params : PageParams) (state : PageState) (insertion : Insertion) : Prop :=
  ∀ settled penalty, settleInsertion params state insertion = .ok settled →
    settled.charge = some penalty → fitsScaled (state.insertPenalties + penalty) = true

theorem pay_aborts_iff (settled : Settled) : settled.pay = .error .insertPenaltyOverflow ↔
      ∃ penalty, settled.charge = some penalty ∧
        ¬ fitsScaled (settled.state.insertPenalties + penalty) = true := by
  unfold Settled.pay
  cases settled.charge with
  | none => exact iff_of_false nofun fun due => nomatch due.choose_spec.1
  | some penalty => ?_
  by_cases fits : fitsScaled (settled.state.insertPenalties + penalty) = true
  · simp only [addInsertPenalty_of_fits fits, ok_bind]
    refine iff_of_false nofun ?_
    rintro ⟨_, same, beyond⟩
    cases same
    exact beyond fits
  simp only [addInsertPenalty_of_beyond fits, error_bind]
  exact iff_of_true trivial ⟨penalty, rfl, fits⟩

theorem prepareInsertion_aborts_iff (params : PageParams) (state : PageState)
    (insertion : Insertion) :
    prepareInsertion params state insertion = .error .insertPenaltyOverflow ↔
      ¬ ChargeFits params state insertion := by
  rw [prepareInsertion_eq]
  cases found : settleInsertion params state insertion with
  | error error =>
    cases tame_settleInsertion params state insertion error found
    refine iff_of_false nofun fun beyond => beyond ?_
    intro settled penalty other
    rw [found] at other
    cases other
  | ok settled => ?_
  rw [ok_bind, pay_aborts_iff, settleInsertion_insertPenalties found]
  constructor
  · rintro ⟨penalty, due, beyond⟩ fits
    exact beyond (fits settled penalty found due)
  intro beyond
  refine Classical.byContradiction fun none => beyond fun other penalty same due => ?_
  rw [found] at same
  cases same
  exact Classical.byContradiction fun beyond => none ⟨penalty, due, beyond⟩

def PageState.forInsertion (params : PageParams) (state : PageState) : PageState :=
  if state.contents = .empty then state.freezePageSpecs params .insertsOnly else state

def RoundFits (params : PageParams) (state : PageState) (node : PageNode) : Prop :=
  ∀ insertion, node = .ins insertion → ChargeFits params (state.forInsertion params) insertion

theorem Tame.not_abort (tame : Tame computation) : computation ≠ .error .insertPenaltyOverflow :=
  fun same => nomatch tame _ same

theorem Tame.finishes (tame : Tame computation) : computation ≠ .error .unfinished :=
  fun same => nomatch tame _ same

theorem tame_buildNode {node : PageNode} {second : Option PageNode}
    (plain : ∀ insertion, node ≠ .ins insertion) (known : node ≠ .other) :
    Tame (buildNode params state node second) := by
  have boxed : Tame (if state.hasBox = false then
        .ok ⟨initializePageWithTopskip params state node, false⟩
      else prepareBoxOrRule state node >>= fun state =>
        contributeFrontAs state node >>= fun state => pure ⟨state, false⟩ : Building Round) :=
    Tame.ite (tame_ok _) ((tame_addRoom _ _ _).bind fun _ =>
      (tame_contributeFrontAs _ _).bind fun _ => tame_ok _)
  cases node with
  | hlist height depth => exact boxed
  | vlist height depth => exact boxed
  | rule height depth => exact boxed
  | glue spec topSkip =>
    exact Tame.ite (tame_ok _) ((tame_contributeRoom _ _ _).bind fun _ => tame_ok _)
  | kern amount =>
    refine Tame.ite (tame_ok _) ?_
    cases second with
    | none => exact tame_ok _
    | some next => exact (tame_contributeRoom _ _ _).bind fun _ => tame_ok _
  | penalty value =>
    exact Tame.ite (tame_ok _) ((tame_checkBreak _ _).bind fun _ => Tame.ite (tame_ok _)
      ((tame_contributeFrontAs _ _).bind fun _ => tame_ok _))
  | ins insertion => exact absurd rfl (plain insertion)
  | whatsit pdfSnapY =>
    exact Tame.ite (tame_ok _) ((tame_contributeFrontAs _ _).bind fun _ => tame_ok _)
  | mark => exact (tame_contributeFrontAs _ _).bind fun _ => tame_ok _
  | other => exact absurd rfl known

theorem buildNode_aborts_iff (params : PageParams) (state : PageState) (node : PageNode)
    (second : Option PageNode) :
    buildNode params state node second = .error .insertPenaltyOverflow ↔
      ¬ RoundFits params state node := by
  by_cases inserted : ∃ insertion, node = .ins insertion
  · obtain ⟨insertion, rfl⟩ := inserted
    have only : RoundFits params state (.ins insertion) ↔
        ChargeFits params (state.forInsertion params) insertion := by
      constructor
      · exact fun fits => fits insertion rfl
      intro fits other same
      cases same
      exact fits
    rw [only, ← prepareInsertion_aborts_iff]
    show (prepareInsertion params (state.forInsertion params) insertion >>= _) = _ ↔ _
    cases prepared : prepareInsertion params (state.forInsertion params) insertion with
    | error error =>
      rw [error_bind, Except.error.injEq, Except.error.injEq]
    | ok settled => ?_
    rw [ok_bind]
    refine iff_of_false ?_ nofun
    exact Tame.not_abort ((tame_contributeFrontAs _ _).bind fun _ => tame_ok _)
  have plain : ∀ insertion, node ≠ .ins insertion := fun insertion same =>
    inserted ⟨insertion, same⟩
  refine iff_of_false ?_ fun beyond => beyond fun insertion same => absurd same (plain insertion)
  by_cases unknown : node = .other
  · subst unknown
    exact nofun
  · exact Tame.not_abort (tame_buildNode plain unknown)

theorem prepareInsertion_finishes (params : PageParams) (state : PageState)
    (insertion : Insertion) : prepareInsertion params state insertion ≠ .error .unfinished := by
  rw [prepareInsertion_eq]
  cases found : settleInsertion params state insertion with
  | error error =>
    cases tame_settleInsertion params state insertion error found
    exact nofun
  | ok settled => ?_
  rw [ok_bind]
  unfold Settled.pay
  cases settled.charge with
  | none => exact nofun
  | some penalty => ?_
  by_cases fits : fitsScaled (settled.state.insertPenalties + penalty) = true
  · simp only [addInsertPenalty_of_fits fits, ok_bind]
    exact nofun
  simp only [addInsertPenalty_of_beyond fits, error_bind]
  exact nofun

theorem buildNode_finishes (params : PageParams) (state : PageState) (node : PageNode)
    (second : Option PageNode) : buildNode params state node second ≠ .error .unfinished := by
  by_cases inserted : ∃ insertion, node = .ins insertion
  · obtain ⟨insertion, rfl⟩ := inserted
    show (prepareInsertion params (state.forInsertion params) insertion >>= _) ≠ _
    have finishes := prepareInsertion_finishes params (state.forInsertion params) insertion
    cases prepared : prepareInsertion params (state.forInsertion params) insertion with
    | error error =>
      rw [error_bind]
      exact fun same => finishes (prepared.trans (congrArg _ (Except.error.inj same)))
    | ok settled =>
      rw [ok_bind]
      exact Tame.finishes ((tame_contributeFrontAs _ _).bind fun _ => tame_ok _)
  by_cases unknown : node = .other
  · subst unknown
    exact nofun
  · exact Tame.finishes (tame_buildNode (fun insertion same => inserted ⟨insertion, same⟩) unknown)

theorem buildLoop_finishes {fuel : Nat} {state : PageState} (enough : state.roundsLeft ≤ fuel)
    (quiet : state.fireUp = none) : buildLoop params fuel state ≠ .error .unfinished := by
  induction fuel generalizing state with
  | zero =>
    unfold PageState.roundsLeft at enough
    have nothing : state.contribution = [] := List.length_eq_zero_iff.mp (by omega)
    rw [buildLoop, nothing]
    exact nofun
  | succ fuel ih => ?_
  cases front : state.contribution with
  | nil =>
    rw [buildLoop, front]
    exact nofun
  | cons node rest => ?_
  rw [buildLoop, front]
  have finishes := buildNode_finishes params state node rest.head?
  cases built : buildNode params state node rest.head? with
  | error error =>
    simp only [built, error_bind]
    exact fun same => finishes (built.trans (congrArg _ (Except.error.inj same)))
  | ok round => ?_
  have turned := buildNode_turned front quiet round built
  simp only [built, ok_bind]
  cases stopped : round.stopped with
  | true => exact nofun
  | false => ?_
  rw [if_neg Bool.false_ne_true]
  exact ih (Nat.le_of_lt_succ (Nat.lt_of_lt_of_le (turned.fewer stopped) enough))
    (turned.calm stopped)

/-- The rounds that a call is granted are enough for it. -/
theorem buildPage_finishes (params : PageParams) (state : PageState) :
    buildPage params state ≠ .error .unfinished := by
  unfold buildPage
  cases fired : state.fireUp with
  | some fireUp => exact nofun
  | none => ?_
  refine buildLoop_finishes ?_ fired
  unfold PageState.roundsLeft
  split
  all_goals omega

/-- In every round the penalty that is charged leaves the sum in range. -/
def PenaltiesFit (params : PageParams) : Nat → PageState → Prop
  | 0, _ => True
  | fuel + 1, state => ∀ node rest, state.contribution = node :: rest →
      RoundFits params state node ∧
        ∀ round, buildNode params state node rest.head? = .ok round → round.stopped = false →
          PenaltiesFit params fuel round.state

theorem buildLoop_aborts_iff (params : PageParams) (fuel : Nat) (state : PageState) :
    buildLoop params fuel state = .error .insertPenaltyOverflow ↔
      ¬ PenaltiesFit params fuel state := by
  induction fuel generalizing state with
  | zero =>
    refine iff_of_false ?_ fun beyond => beyond trivial
    unfold buildLoop
    split <;> simp
  | succ fuel ih => ?_
  cases front : state.contribution with
  | nil =>
    rw [buildLoop, front]
    refine iff_of_false (by simp) fun beyond => beyond ?_
    intro node rest same
    rw [front] at same
    cases same
  | cons node rest => ?_
  have fits : PenaltiesFit params (fuel + 1) state ↔ RoundFits params state node ∧
      ∀ round, buildNode params state node rest.head? = .ok round →
        round.stopped = false → PenaltiesFit params fuel round.state := by
    constructor
    · exact fun every => every node rest front
    intro here first later same
    rw [front] at same
    cases same
    exact here
  rw [buildLoop, front, fits]
  have aborts := buildNode_aborts_iff params state node rest.head?
  cases built : buildNode params state node rest.head? with
  | error error =>
    rw [built] at aborts
    simp only [built, error_bind]
    constructor
    · intro same both
      cases same
      exact aborts.mp rfl both.1
    intro beyond
    have charged : ¬ RoundFits params state node := by
      refine fun charged => beyond ⟨charged, fun round impossible => ?_⟩
      cases impossible
    exact congrArg _ (Except.error.inj (aborts.mpr charged))
  | ok round => ?_
  rw [built] at aborts
  have charged : RoundFits params state node :=
    Classical.byContradiction fun beyond => by cases aborts.mpr beyond
  simp only [built, ok_bind]
  cases stopped : round.stopped with
  | true =>
    refine iff_of_false (by intro same; cases same) fun beyond =>
      beyond ⟨charged, fun other same going => ?_⟩
    cases same
    rw [stopped] at going
    cases going
  | false => ?_
  rw [if_neg Bool.false_ne_true, ih]
  constructor
  · exact fun beyond both => beyond (both.2 round rfl stopped)
  intro beyond later
  refine beyond ⟨charged, fun other same _ => ?_⟩
  cases same
  exact later

/-- A call of the page builder aborts if and only if a penalty leaves the range on its way. -/
theorem buildPage_aborts_iff (params : PageParams) (state : PageState) :
    buildPage params state = .error .insertPenaltyOverflow ↔
      state.fireUp = none ∧ ¬ PenaltiesFit params (state.contribution.length + 2) state := by
  unfold buildPage
  cases fired : state.fireUp with
  | some fireUp => exact iff_of_false nofun fun both => nomatch both.1
  | none =>
    rw [if_neg (by decide), buildLoop_aborts_iff]
    exact (and_iff_right rfl).symm

/-! ## The sums of the program -/

/-- Each of the sums returns if and only if its parts stay in range. -/
theorem arithmetic_returns_iff (lineNo breakCount : Nat) (hyphenated : Bool)
    (lines : LinePenaltyParams) (params : PageParams) (state : PageState)
    (delimiters : DelimiterParams) (size : MathFontSize) (maxHeight maxDepth : Int) :
    ((∃ penalty, linePenaltyAfter lineNo breakCount hyphenated lines = .ok penalty) ↔
      LinePenaltiesFit lineNo breakCount hyphenated lines) ∧
    buildPage params state ≠ .error .unfinished ∧
    (buildPage params state ≠ .error .insertPenaltyOverflow ↔
      (state.fireUp = none → PenaltiesFit params (state.contribution.length + 2) state)) ∧
    ((∃ target, leftRightDelimiterTarget delimiters size maxHeight maxDepth = .ok target) ↔
      DelimiterFits delimiters size maxHeight maxDepth) := by
  refine ⟨linePenaltyAfter_returns_iff _ _ _ _, buildPage_finishes _ _, ?_,
    leftRightDelimiterTarget_returns_iff _ _ _ _⟩
  rw [ne_eq, buildPage_aborts_iff]
  constructor
  · exact fun fine waiting => Classical.byContradiction fun beyond => fine ⟨waiting, beyond⟩
  · exact fun fits both => both.2 (fits both.1)

def noWidows : WidowPenalties := ⟨.ordinary, ⟨[], 0⟩, ⟨[], 0⟩⟩

/-- Penalties of the largest TeX integer between lines and behind the first line. -/
def largestPenalties : LinePenaltyParams :=
  { interlinePenalty := 2147483647, clubPenalty := 2147483647, widowPenalties := noWidows
    brokenPenalty := 0, prevGraf := 0, interlinePenalties := [], clubPenalties := [] }

def floatParams : PageParams :=
  { vsize := 1000, maxDepth := 0, topSkip := .zero, savingVDiscards := 0
    count := fun _ => 1000, dimen := fun _ => 0, skip := fun _ => .zero, box := fun _ => none }

/-- An insertion of a box, or of nothing, that costs the largest TeX integer to float. -/
def float (size : Int) (content : List VerticalNode) : PageNode :=
  .ins ⟨1, size, .zero, 0, 2147483647, content⟩

def highAxis : DelimiterParams :=
  { axisHeight := fun _ => 1073741823, delimiterFactor := 901, delimiterShortfall := 0 }

/-- Two of the largest penalties, two floats of the largest penalty behind a split insertion,
and the largest axis around a formula of the largest depth: each aborts. -/
theorem arithmetic_aborts : linePenaltyAfter 0 2 false largestPenalties = .error .scaledOverflow ∧
    buildPage floatParams (.new [float 10 [.hlist 10 0], float 0 [], float 0 []]) =
      .error .insertPenaltyOverflow ∧
    leftRightDelimiterTarget highAxis .text 0 1073741823 = .error .scaledOverflow :=
  ⟨rfl, rfl, rfl⟩

end Umber.PageBuilder
