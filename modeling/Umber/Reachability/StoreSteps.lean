import Umber.Reachability.StoreProperties

/-! The operations on a store as one step relation: what each of them does to the generations
that keys name, to the transaction and to the record of settlements. -/

set_option autoImplicit false

namespace Umber.Reachability

open ReachabilityStorage

variable {Generation Result : Type}

inductive Operation (Generation : Type) where
  | insert (generation : Generation)
  | insertFork (source : ReachabilityGenerationKey) (generation : Generation)
  | insertIndependent (source : ReachabilityGenerationKey) (generation : Generation)
  | withMut (key : ReachabilityGenerationKey) (operation : Generation → Generation)
  | take (key : ReachabilityGenerationKey)
  | prepareAccept (source candidate : ReachabilityGenerationKey)
  | finishAccept (source candidate : ReachabilityGenerationKey)
  | prepareReject (candidate : ReachabilityGenerationKey)
  | finishReject (candidate : ReachabilityGenerationKey)
  | drop (key : ReachabilityGenerationKey)

inductive Reply (Generation : Type) where
  | key (key : ReachabilityGenerationKey)
  | generation (generation : Generation)
  | done

def Outcome.map {Other : Type} (change : Result → Other) :
    Outcome Generation Result → Outcome Generation Other
  | (.ok result, after) => (.ok (change result), after)
  | (.error stop, after) => (.error stop, after)

def Operation.apply (owners : GenerationOwners Generation)
    (before : ReachabilityStorage Generation) :
    Operation Generation → Outcome Generation (Reply Generation)
  | .insert value => Outcome.map .key (before.insertGeneration value)
  | .insertFork source value => Outcome.map .key (before.insertForkGeneration source value)
  | .insertIndependent source value =>
    Outcome.map .key (before.insertIndependentCandidateGeneration source value)
  | .withMut key operation =>
    Outcome.map (fun _ => .done)
      (before.withGenerationMut key fun value => ((), operation value))
  | .take key => Outcome.map .generation (before.takeGeneration key)
  | .prepareAccept source candidate =>
    Outcome.map (fun _ => .done) (before.prepareCandidateAccept owners source candidate)
  | .finishAccept source candidate =>
    Outcome.map (fun _ => .done) (before.finishCandidateAccept source candidate)
  | .prepareReject candidate =>
    Outcome.map (fun _ => .done) (before.prepareCandidateReject owners candidate)
  | .finishReject candidate => Outcome.map (fun _ => .done) (before.finishCandidateReject candidate)
  | .drop key => Outcome.map (fun _ => .done) (before.dropGeneration owners key)

inductive Settlement where
  | accepted
  | rejected

/-- The keys handed out, the candidates transactions were opened for, and how transactions were
settled and closed, all in order. -/
structure SettlementLog where
  issued : List ReachabilityGenerationKey := []
  opened : List ReachabilityGenerationKey := []
  settled : List (ReachabilityGenerationKey × Settlement) := []
  closed : List (ReachabilityGenerationKey × Settlement) := []

namespace SettlementLog

def issue (log : SettlementLog) (key : ReachabilityGenerationKey) : SettlementLog :=
  { log with issued := log.issued ++ [key] }

def open_ (log : SettlementLog) (key : ReachabilityGenerationKey) : SettlementLog :=
  { log with opened := log.opened ++ [key] }

def settle (log : SettlementLog) (key : ReachabilityGenerationKey) (settlement : Settlement) :
    SettlementLog :=
  { log with settled := log.settled ++ [(key, settlement)] }

def close (log : SettlementLog) (key : ReachabilityGenerationKey) (settlement : Settlement) :
    SettlementLog :=
  { log with closed := log.closed ++ [(key, settlement)] }

end SettlementLog

def Outcome.note (outcome : Outcome Generation Result)
    (entry : Result → SettlementLog → SettlementLog) (log : SettlementLog) : SettlementLog :=
  match outcome.1 with
  | .ok result => entry result log
  | .error _ => log

/-- The record after an operation: preparing settles a transaction, finishing closes it, and a
drop makes the calls that reject the transaction that is open. -/
def Operation.note (owners : GenerationOwners Generation)
    (before : ReachabilityStorage Generation) (log : SettlementLog) :
    Operation Generation → SettlementLog
  | .insert value => (before.insertGeneration value).note (fun key log => log.issue key) log
  | .insertFork source value =>
    (before.insertForkGeneration source value).note
      (fun key log => (log.issue key).open_ key) log
  | .insertIndependent source value =>
    (before.insertIndependentCandidateGeneration source value).note
      (fun key log => (log.issue key).open_ key) log
  | .withMut _ _ => log
  | .take _ => log
  | .prepareAccept source candidate =>
    (before.prepareCandidateAccept owners source candidate).note
      (fun _ log => log.settle candidate .accepted) log
  | .finishAccept source candidate =>
    (before.finishCandidateAccept source candidate).note
      (fun _ log => log.close candidate .accepted) log
  | .prepareReject candidate =>
    (before.prepareCandidateReject owners candidate).note
      (fun _ log => log.settle candidate .rejected) log
  | .finishReject candidate =>
    (before.finishCandidateReject candidate).note
      (fun _ log => log.close candidate .rejected) log
  | .drop _ =>
    match before.candidateTransaction with
    | none => log
    | some transaction =>
      let prepared := before.prepareCandidateReject owners transaction.candidate
      (prepared.2.finishCandidateReject transaction.candidate).note
        (fun _ log => log.close transaction.candidate .rejected)
        (prepared.note (fun _ log => log.settle transaction.candidate .rejected) log)

def Operation.names : Operation Generation → ReachabilityGenerationKey → Prop
  | .insert _, _ => False
  | .insertFork source _, key => key = source
  | .insertIndependent source _, key => key = source
  | .withMut named _, key => key = named
  | .take named, key => key = named
  | .prepareAccept source candidate, key => key = source ∨ key = candidate
  | .finishAccept source candidate, key => key = source ∨ key = candidate
  | .prepareReject candidate, key => key = candidate
  | .finishReject candidate, key => key = candidate
  | .drop named, key => key = named

/-- The keys whose generations an operation may change: those it is called with, and when it
rejects a transaction those of the transaction. -/
def Operation.reaches (before : ReachabilityStorage Generation)
    (operation : Operation Generation) (key : ReachabilityGenerationKey) : Prop :=
  operation.names key ∨
    (∃ transaction, before.candidateTransaction = some transaction ∧
      (key = transaction.source ∨ key = transaction.candidate) ∧
      ∃ named, operation.names named ∧
        (named = transaction.source ∨ named = transaction.candidate) ∧
        (operation = .drop named ∨ operation = .prepareReject named))

def ReachabilityStorage.HasRoom (self : ReachabilityStorage Generation) : Prop :=
  self.freeSlot ≠ none ∧ self.nextSerial + 1 < UInt64.size

/-- A candidate is inserted beside a current source; a drop while a transaction is open names
the source or the candidate of a transaction whose acceptance is not committed, or is stale
while one is. -/
def Operation.Meets (before : ReachabilityStorage Generation) : Operation Generation → Prop
  | .insertFork source _ => before.HasRoom → (before.generation source).isSome
  | .insertIndependent source _ => before.HasRoom → (before.generation source).isSome
  | .drop key =>
    ∀ transaction, before.candidateTransaction = some transaction →
      ((before.generation key).isSome ↔ transaction.phase ≠ .destinationAcceptCommitted)
  | _ => True

/-- What preparing a settlement leaves: the transaction in another phase, between the same two
keys, which still name generations. -/
structure Prepared (before after : ReachabilityStorage Generation)
    (transaction : CandidateTransactionSlots) (phase : CandidateTransactionPhase) : Prop where
  next : after.nextSerial = before.nextSerial
  entered : after.candidateTransaction = some { transaction with phase }
  source : (after.generation transaction.source).isSome
  candidate : (after.generation transaction.candidate).isSome
  others : ∀ other, other ≠ transaction.source → other ≠ transaction.candidate →
    after.generation other = before.generation other

/-- What one operation does: how it ends, the storage afterwards, and what it adds to the
record of settlements. -/
inductive Transition (before : ReachabilityStorage Generation) :
    Operation Generation → Except Stop (Reply Generation) → ReachabilityStorage Generation →
    (SettlementLog → SettlementLog) → Prop
  | refused {operation : Operation Generation} (problem : ReachabilityStoreError) :
      (∀ key, operation ≠ .drop key) →
      Transition before operation (.error (.error problem)) before id
  | inserted {operation : Operation Generation} {key : ReachabilityGenerationKey}
      {value : Generation} {after : ReachabilityStorage Generation} :
      operation = .insert value → before.freeSlot = some key.slot →
      key.serial = before.nextSerial → after.nextSerial = before.nextSerial + 1 →
      after.candidateTransaction = before.candidateTransaction →
      (∀ other, after.generation other =
        if other = key then some value else before.generation other) →
      Transition before operation (.ok (.key key)) after fun log => log.issue key
  | began {operation : Operation Generation} {source key : ReachabilityGenerationKey}
      {value : Generation} {origin : CandidateTransactionOrigin}
      {after : ReachabilityStorage Generation} :
      operation = .insertFork source value ∨ operation = .insertIndependent source value →
      before.freeSlot = some key.slot → before.candidateTransaction = none →
      (before.generation source).isSome → key.serial = before.nextSerial →
      after.nextSerial = before.nextSerial + 1 →
      after.candidateTransaction =
        some { source, candidate := key, origin, phase := .candidateLive } →
      (∀ other, after.generation other =
        if other = key then some value else before.generation other) →
      Transition before operation (.ok (.key key)) after fun log => (log.issue key).open_ key
  | mutated {key : ReachabilityGenerationKey} {change : Generation → Generation}
      {value : Generation} {after : ReachabilityStorage Generation} :
      (∀ transaction, before.candidateTransaction = some transaction → transaction.source ≠ key) →
      before.generation key = some value → after.nextSerial = before.nextSerial →
      after.candidateTransaction = before.candidateTransaction →
      (∀ other, after.generation other =
        if other = key then some (change value) else before.generation other) →
      Transition before (.withMut key change) (.ok .done) after id
  | taken {operation : Operation Generation} {key : ReachabilityGenerationKey}
      {value : Generation} {reply : Reply Generation} {after : ReachabilityStorage Generation} :
      operation = .take key ∨ operation = .drop key ∧ before.candidateTransaction = none →
      (∀ transaction, before.candidateTransaction = some transaction →
        transaction.source ≠ key ∧ transaction.candidate ≠ key) →
      before.generation key = some value → after.nextSerial = before.nextSerial →
      after.candidateTransaction = before.candidateTransaction → after.held key.slot = none →
      (∀ other, after.generation other =
        if other = key then none else before.generation other) →
      Transition before operation (.ok reply) after id
  | settled {operation : Operation Generation} {transaction : CandidateTransactionSlots}
      {settlement : Settlement} {phase : CandidateTransactionPhase}
      {after : ReachabilityStorage Generation} :
      before.candidateTransaction = some transaction → transaction.phase = .candidateLive →
      (operation = .prepareAccept transaction.source transaction.candidate ∧
          settlement = .accepted ∧ phase = .destinationAcceptCommitted ∧
          after.generation transaction.source = before.generation transaction.source ∨
        operation = .prepareReject transaction.candidate ∧ settlement = .rejected ∧
          phase = .destinationRejectReturned) →
      Prepared before after transaction phase →
      Transition before operation (.ok .done) after fun log =>
        log.settle transaction.candidate settlement
  | closed {operation : Operation Generation} {transaction : CandidateTransactionSlots}
      {settlement : Settlement} :
      before.candidateTransaction = some transaction →
      (operation = .finishAccept transaction.source transaction.candidate ∧
          settlement = .accepted ∧ transaction.phase = .destinationAcceptCommitted ∨
        operation = .finishReject transaction.candidate ∧ settlement = .rejected ∧
          transaction.phase = .destinationRejectReturned) →
      Transition before operation (.ok .done) { before with candidateTransaction := none }
        fun log => log.close transaction.candidate settlement
  | idle {key : ReachabilityGenerationKey} :
      before.generation key = none → Transition before (.drop key) (.ok .done) before id
  | dropped {key partner : ReachabilityGenerationKey} {transaction : CandidateTransactionSlots}
      {after : ReachabilityStorage Generation} {note : SettlementLog → SettlementLog} :
      before.candidateTransaction = some transaction →
      (key = transaction.source ∧ partner = transaction.candidate ∨
        key = transaction.candidate ∧ partner = transaction.source) →
      (transaction.phase = .candidateLive ∧
          (note = fun log =>
            (log.settle transaction.candidate .rejected).close transaction.candidate .rejected) ∨
        transaction.phase = .destinationRejectReturned ∧
          note = fun log => log.close transaction.candidate .rejected) →
      after.nextSerial = before.nextSerial → after.candidateTransaction = none →
      after.held key.slot = none → after.generation key = none →
      (after.generation partner).isSome →
      (∀ other, other ≠ key → other ≠ partner →
        after.generation other = before.generation other) →
      Transition before (.drop key) (.ok .done) after note

def Operation.Takes (owners : GenerationOwners Generation)
    (before : ReachabilityStorage Generation) (operation : Operation Generation) : Prop :=
  ∃ note, (∀ log, operation.note owners before log = note log) ∧
    Transition before operation (operation.apply owners before).1
      (operation.apply owners before).2 note

variable {owners : GenerationOwners Generation} {before : ReachabilityStorage Generation}

theorem insert_takes (value : Generation) : (Operation.insert value).Takes owners before := by
  dsimp only [Operation.Takes, Operation.note, Operation.apply]
  have inserting := before.insertGeneration_inv value
  generalize before.insertGeneration value = outcome at inserting
  cases inserting with
  | full => exact ⟨id, fun _ => rfl, .refused _ fun _ same => by cases same⟩
  | exhausted => exact ⟨id, fun _ => rfl, .refused _ fun _ same => by cases same⟩
  | inserted free room serial next kept named =>
    exact ⟨_, fun _ => rfl, .inserted rfl free serial next kept named⟩

theorem insertCandidate_takes (coherent : before.Coherent) {source : ReachabilityGenerationKey}
    {value : Generation} {origin : CandidateTransactionOrigin} {operation : Operation Generation}
    (either : operation = .insertFork source value ∨ operation = .insertIndependent source value)
    (current : before.HasRoom → (before.generation source).isSome)
    (noted : ∀ log, operation.note owners before log =
      (before.insertCandidate source value origin).note (fun key log => (log.issue key).open_ key)
        log) (applied : operation.apply owners before =
      Outcome.map .key (before.insertCandidate source value origin)) :
    operation.Takes owners before := by
  unfold Operation.Takes
  rw [applied]
  simp only [noted]
  have notDrop : ∀ key, operation ≠ .drop key := by
    rintro key rfl
    rcases either with same | same <;> cases same
  unfold insertCandidate
  have inserting := before.insertGeneration_inv value
  generalize before.insertGeneration value = outcome at inserting
  cases inserting with
  | full => exact ⟨id, fun _ => rfl, .refused _ notDrop⟩
  | exhausted => exact ⟨id, fun _ => rfl, .refused _ notDrop⟩
  | @inserted key after free room serial next kept named => ?_
  have some_ : before.freeSlot ≠ none := by
    rw [free]
    exact Option.some_ne_none _
  cases active : before.candidateTransaction with
  | some transaction => exact absurd (coherent.freeSlot active) some_
  | none => ?_
  dsimp only
  rw [kept, active]
  exact ⟨_, fun _ => rfl, .began either free active (current ⟨some_, room⟩) serial next rfl named⟩

section

variable (key : ReachabilityGenerationKey)
include key

theorem withMut_takes (change : Generation → Generation) :
    (Operation.withMut key change).Takes owners before := by
  dsimp only [Operation.Takes, Operation.note, Operation.apply]
  unfold withGenerationMut
  by_cases guarded :
      before.candidateTransaction.any (fun transaction => transaction.source = key) = true
  · rw [if_pos guarded]
    exact ⟨id, fun _ => rfl, .refused _ fun _ same => by cases same⟩
  rw [if_neg guarded]
  cases named : before.generation key with
  | none => exact ⟨id, fun _ => rfl, .refused _ fun _ same => by cases same⟩
  | some value => ?_
  have present : (before.generation key).isSome := by rw [named]; rfl
  refine ⟨id, fun _ => rfl, .mutated ?_ named (before.fill_nextSerial _ _)
    (before.fill_candidateTransaction _ _) (generation_fill present _)⟩
  intro transaction active same
  rw [active] at guarded
  exact guarded (decide_eq_true same)

/-- Taking a generation that no transaction names. -/
theorem takeGeneration_cases :
    (∃ problem, before.takeGeneration key = refused problem before ∧
      (before.candidateTransaction = none → before.generation key = none)) ∨
    ∃ value after, before.takeGeneration key = (.ok value, after) ∧
      (∀ transaction, before.candidateTransaction = some transaction →
        transaction.source ≠ key ∧ transaction.candidate ≠ key) ∧
      before.generation key = some value ∧ after.nextSerial = before.nextSerial ∧
      after.candidateTransaction = before.candidateTransaction ∧ after.held key.slot = none ∧
      ∀ other, after.generation other = if other = key then none else before.generation other := by
  unfold takeGeneration
  by_cases guarded : before.candidateTransaction.any
      (fun transaction => transaction.source = key ∨ transaction.candidate = key) = true
  · rw [if_pos guarded]
    refine .inl ⟨_, rfl, fun closed => ?_⟩
    rw [closed] at guarded
    cases guarded
  rw [if_neg guarded]
  cases named : before.generation key with
  | none => exact .inl ⟨_, rfl, fun _ => rfl⟩
  | some value => ?_
  have present : (before.generation key).isSome := by rw [named]; rfl
  refine .inr ⟨value, _, rfl, ?_, rfl, before.fill_nextSerial _ _,
    before.fill_candidateTransaction _ _, held_fill present _,
    generation_fill present _⟩
  intro transaction active
  rw [active] at guarded
  have neither := of_decide_eq_false (Bool.eq_false_iff.mpr guarded)
  exact ⟨fun same => neither (.inl same), fun same => neither (.inr same)⟩

theorem take_takes : (Operation.take key).Takes owners before := by
  dsimp only [Operation.Takes, Operation.note, Operation.apply]
  rcases @takeGeneration_cases _ before key with ⟨problem, stopped, _⟩ |
    ⟨value, after, taken, free, named, next, kept, empty, others⟩
  · rw [stopped]
    exact ⟨id, fun _ => rfl, .refused _ fun _ same => by cases same⟩
  rw [taken]
  exact ⟨id, fun _ => rfl, .taken (.inl rfl) free named next kept empty others⟩

end

theorem filter_cases {α : Type} (found : Option α) (test : α → Bool) : found.filter test = none ∨
      ∃ value, found = some value ∧ test value = true ∧ found.filter test = some value := by
  cases filtered : found.filter test with
  | none => exact .inl rfl
  | some value =>
    obtain ⟨present, passes⟩ := Option.filter_eq_some_iff.mp filtered
    exact .inr ⟨value, present, passes, rfl⟩

@[simp] theorem ReachabilityStorage.enter_generation (storage : ReachabilityStorage Generation)
    (transaction : CandidateTransactionSlots) (phase : CandidateTransactionPhase)
    (key : ReachabilityGenerationKey) :
    (storage.enter transaction phase).generation key = storage.generation key := rfl

variable {transaction : CandidateTransactionSlots}

section

variable (coherent : before.Coherent)
include coherent

section

variable (active : before.candidateTransaction = some transaction)
  (phase : CandidateTransactionPhase)
include active phase

theorem Prepared.of_same : Prepared before (before.enter transaction phase) transaction phase :=
  { next := rfl
    entered := rfl
    source := coherent.source _ active
    candidate := coherent.candidate _ active
    others := fun _ _ _ => rfl }

theorem Prepared.of_candidate (value : Generation) : Prepared before
      ((before.fill transaction.candidate.slot (some value)).enter transaction phase)
      transaction phase :=
  { next := before.fill_nextSerial _ _
    entered := rfl
    source := by
      rw [enter_generation,
        generation_fill (coherent.candidate _ active),
        if_neg (coherent.source_ne_candidate active)]
      exact coherent.source _ active
    candidate := by
      rw [enter_generation, generation_fill (coherent.candidate _ active), if_pos rfl]
      rfl
    others := by
      intro other _ notCandidate
      rw [enter_generation, generation_fill (coherent.candidate _ active), if_neg notCandidate] }

theorem Prepared.of_both (source candidate : Generation) : Prepared before
      (((before.fill transaction.source.slot (some source)).fill transaction.candidate.slot
        (some candidate)).enter transaction phase) transaction phase := by
  have apart := coherent.source_ne_candidate active
  have first := generation_fill (coherent.source _ active) (some source)
  have still : ((before.fill transaction.source.slot (some source)).generation
      transaction.candidate).isSome := by
    rw [first, if_neg apart.symm]
    exact coherent.candidate _ active
  have second := generation_fill still (some candidate)
  exact
    { next := by
        rw [enter, fill_nextSerial, fill_nextSerial]
      entered := rfl
      source := by
        rw [enter_generation, second, if_neg apart, first, if_pos rfl]
        rfl
      candidate := by
        rw [enter_generation, second, if_pos rfl]
        rfl
      others := by
        intro other notSource notCandidate
        rw [enter_generation, second, if_neg notCandidate, first, if_neg notSource] }

end

theorem prepareCandidateAccept_cases (source candidate : ReachabilityGenerationKey) :
    (∃ problem, before.prepareCandidateAccept owners source candidate = refused problem before) ∨
    ∃ transaction after, before.candidateTransaction = some transaction ∧
      transaction.source = source ∧ transaction.candidate = candidate ∧
      transaction.phase = .candidateLive ∧
      before.prepareCandidateAccept owners source candidate = (.ok (), after) ∧
      after.generation source = before.generation source ∧
      Prepared before after transaction .destinationAcceptCommitted := by
  unfold prepareCandidateAccept
  rcases filter_cases before.candidateTransaction
      (fun transaction => transaction.source = source ∧ transaction.candidate = candidate)
    with missing | ⟨transaction, active, named, found⟩
  · rw [missing]
    exact .inl ⟨_, rfl⟩
  rw [found]
  obtain ⟨rfl, rfl⟩ := of_decide_eq_true named
  dsimp only
  by_cases live : transaction.phase = .candidateLive
  · rw [if_neg (not_not_intro live)]
    cases origin : transaction.origin with
    | independent =>
      exact .inr ⟨transaction, _, active, rfl, rfl, live, rfl, rfl, .of_same coherent active _⟩
    | forked => ?_
    obtain ⟨value, content⟩ := Option.isSome_iff_exists.mp (coherent.candidate _ active)
    rw [slot_of_generation content]
    refine .inr ⟨transaction, _, active, rfl, rfl, live, rfl, ?_, .of_candidate coherent active _ _⟩
    rw [enter_generation,
      generation_fill (coherent.candidate _ active),
      if_neg (coherent.source_ne_candidate active)]
  rw [if_pos live]
  exact .inl ⟨_, rfl⟩

theorem prepareCandidateReject_cases (candidate : ReachabilityGenerationKey) :
    (∃ problem, before.prepareCandidateReject owners candidate = refused problem before ∧
      ∀ transaction, before.candidateTransaction = some transaction →
        transaction.candidate = candidate → transaction.phase ≠ .candidateLive) ∨
    ∃ transaction after, before.candidateTransaction = some transaction ∧
      transaction.candidate = candidate ∧ transaction.phase = .candidateLive ∧
      before.prepareCandidateReject owners candidate = (.ok (), after) ∧
      Prepared before after transaction .destinationRejectReturned := by
  unfold prepareCandidateReject
  rcases filter_cases before.candidateTransaction
      (fun transaction => transaction.candidate = candidate)
    with missing | ⟨transaction, active, named, found⟩
  · rw [missing]
    refine .inl ⟨_, rfl, fun transaction active same => ?_⟩
    rw [active, Option.filter_some, if_pos (decide_eq_true same)] at missing
    cases missing
  rw [found]
  obtain rfl := of_decide_eq_true named
  dsimp only
  by_cases live : transaction.phase = .candidateLive
  · rw [if_neg (not_not_intro live)]
    obtain ⟨value, content⟩ := Option.isSome_iff_exists.mp (coherent.candidate _ active)
    cases origin : transaction.origin with
    | independent =>
      dsimp only
      unfold clearCandidate
      rw [slot_of_generation content]
      exact .inr ⟨transaction, _, active, rfl, live, rfl, .of_candidate coherent active _ _⟩
    | forked => ?_
    obtain ⟨source, original⟩ := Option.isSome_iff_exists.mp (coherent.source _ active)
    dsimp only
    unfold returnOwners
    rw [if_neg (coherent.apart _ active), slot_of_generation original, slot_of_generation content]
    exact .inr ⟨transaction, _, active, rfl, live, rfl, .of_both coherent active _ _ _⟩
  rw [if_pos live]
  refine .inl ⟨_, rfl, fun other same _ => ?_⟩
  rw [active] at same
  cases same
  exact live

end

theorem finishCandidateAccept_cases (source candidate : ReachabilityGenerationKey) :
    (∃ problem, before.finishCandidateAccept source candidate = refused problem before) ∨
    ∃ transaction, before.candidateTransaction = some transaction ∧
      transaction.source = source ∧ transaction.candidate = candidate ∧
      transaction.phase = .destinationAcceptCommitted ∧
      before.finishCandidateAccept source candidate =
        (.ok (), { before with candidateTransaction := none }) := by
  unfold finishCandidateAccept
  rcases filter_cases before.candidateTransaction
      (fun transaction => transaction.source = source ∧ transaction.candidate = candidate)
    with missing | ⟨transaction, active, named, found⟩
  · rw [missing]
    exact .inl ⟨_, rfl⟩
  rw [found]
  obtain ⟨rfl, rfl⟩ := of_decide_eq_true named
  dsimp only
  by_cases committed : transaction.phase = .destinationAcceptCommitted
  · rw [if_neg (not_not_intro committed)]
    exact .inr ⟨transaction, active, rfl, rfl, committed, rfl⟩
  rw [if_pos committed]
  exact .inl ⟨_, rfl⟩

theorem finishCandidateReject_cases (candidate : ReachabilityGenerationKey) :
    (∃ problem, before.finishCandidateReject candidate = refused problem before ∧
      ∀ transaction, before.candidateTransaction = some transaction →
        transaction.candidate = candidate → transaction.phase ≠ .destinationRejectReturned) ∨
    ∃ transaction, before.candidateTransaction = some transaction ∧
      transaction.candidate = candidate ∧ transaction.phase = .destinationRejectReturned ∧
      before.finishCandidateReject candidate =
        (.ok (), { before with candidateTransaction := none }) := by
  unfold finishCandidateReject
  rcases filter_cases before.candidateTransaction
      (fun transaction => transaction.candidate = candidate)
    with missing | ⟨transaction, active, named, found⟩
  · rw [missing]
    refine .inl ⟨_, rfl, fun transaction active same => ?_⟩
    rw [active, Option.filter_some, if_pos (decide_eq_true same)] at missing
    cases missing
  rw [found]
  obtain rfl := of_decide_eq_true named
  dsimp only
  by_cases returned : transaction.phase = .destinationRejectReturned
  · rw [if_neg (not_not_intro returned)]
    exact .inr ⟨transaction, active, rfl, returned, rfl⟩
  rw [if_pos returned]
  refine .inl ⟨_, rfl, fun other same _ => ?_⟩
  rw [active] at same
  cases same
  exact returned

theorem prepareAccept_takes (coherent : before.Coherent)
    (source candidate : ReachabilityGenerationKey) :
    (Operation.prepareAccept source candidate).Takes owners before := by
  dsimp only [Operation.Takes, Operation.note, Operation.apply]
  rcases @prepareCandidateAccept_cases _ owners _ coherent source candidate with
    ⟨problem, stopped⟩ | ⟨transaction, after, active, rfl, rfl, live, ran, untouched, prepared⟩
  · rw [stopped]
    exact ⟨id, fun _ => rfl, .refused _ fun _ same => by cases same⟩
  rw [ran]
  exact ⟨_, fun _ => rfl, .settled active live (.inl ⟨rfl, rfl, rfl, untouched⟩) prepared⟩

theorem prepareReject_takes (coherent : before.Coherent) (candidate : ReachabilityGenerationKey) :
    (Operation.prepareReject candidate).Takes owners before := by
  dsimp only [Operation.Takes, Operation.note, Operation.apply]
  rcases @prepareCandidateReject_cases _ owners _ coherent candidate with
    ⟨problem, stopped, _⟩ | ⟨transaction, after, active, rfl, live, ran, prepared⟩
  · rw [stopped]
    exact ⟨id, fun _ => rfl, .refused _ fun _ same => by cases same⟩
  rw [ran]
  exact ⟨_, fun _ => rfl, .settled active live (.inr ⟨rfl, rfl, rfl⟩) prepared⟩

theorem finishAccept_takes (source candidate : ReachabilityGenerationKey) :
    (Operation.finishAccept source candidate).Takes owners before := by
  dsimp only [Operation.Takes, Operation.note, Operation.apply]
  rcases @finishCandidateAccept_cases _ before source candidate with
    ⟨problem, stopped⟩ | ⟨transaction, active, rfl, rfl, committed, ran⟩
  · rw [stopped]
    exact ⟨id, fun _ => rfl, .refused _ fun _ same => by cases same⟩
  rw [ran]
  exact ⟨_, fun _ => rfl, .closed active (.inl ⟨rfl, rfl, committed⟩)⟩

theorem finishReject_takes (candidate : ReachabilityGenerationKey) :
    (Operation.finishReject candidate).Takes owners before := by
  dsimp only [Operation.Takes, Operation.note, Operation.apply]
  rcases @finishCandidateReject_cases _ before candidate with
    ⟨problem, stopped, _⟩ | ⟨transaction, active, rfl, returned, ran⟩
  · rw [stopped]
    exact ⟨id, fun _ => rfl, .refused _ fun _ same => by cases same⟩
  rw [ran]
  exact ⟨_, fun _ => rfl, .closed active (.inr ⟨rfl, rfl, returned⟩)⟩

/-- Dropping the source or the candidate of a transaction that was just rejected. -/
theorem drop_returned {rejected : ReachabilityStorage Generation} {key : ReachabilityGenerationKey}
    {note : SettlementLog → SettlementLog} (coherent : before.Coherent)
    (active : before.candidateTransaction = some transaction)
    (named : key = transaction.source ∨ key = transaction.candidate)
    (how : transaction.phase = .candidateLive ∧
        (note = fun log =>
          (log.settle transaction.candidate .rejected).close transaction.candidate .rejected) ∨
      transaction.phase = .destinationRejectReturned ∧
        note = fun log => log.close transaction.candidate .rejected)
    (prepared : Prepared before rejected transaction .destinationRejectReturned) :
    Transition before (.drop key) (.ok .done)
      (({ rejected with candidateTransaction := none } :
        ReachabilityStorage Generation).takeGeneration key).2 note := by
  have apart := coherent.source_ne_candidate active
  have present : (rejected.generation key).isSome := by
    rcases named with rfl | rfl
    · exact prepared.source
    · exact prepared.candidate
  rcases @takeGeneration_cases _ { rejected with candidateTransaction := none } key with
    ⟨problem, stopped, missing⟩ | ⟨value, after, taken, _, _, next, kept, empty, others⟩
  · have gone : rejected.generation key = none := missing rfl
    rw [gone] at present
    cases present
  rw [taken]
  have rest : ∀ other, after.generation other =
      if other = key then none else rejected.generation other := others
  have removed : after.generation key = none := by rw [rest, if_pos rfl]
  rcases named with rfl | rfl
  · refine .dropped active (.inl ⟨rfl, rfl⟩) how (next.trans prepared.next) kept empty removed ?_ ?_
    · rw [rest, if_neg apart.symm]
      exact prepared.candidate
    intro other notKey notPartner
    rw [rest, if_neg notKey]
    exact prepared.others other notKey notPartner
  refine .dropped active (.inr ⟨rfl, rfl⟩) how (next.trans prepared.next) kept empty removed ?_ ?_
  · rw [rest, if_neg apart]
    exact prepared.source
  intro other notKey notPartner
  rw [rest, if_neg notKey]
  exact prepared.others other notPartner notKey

theorem drop_takes (coherent : before.Coherent) (key : ReachabilityGenerationKey)
    (meets : ∀ transaction, before.candidateTransaction = some transaction →
      ((before.generation key).isSome ↔ transaction.phase ≠ .destinationAcceptCommitted)) :
    (Operation.drop key).Takes owners before := by
  dsimp only [Operation.Takes, Operation.note, Operation.apply]
  unfold dropGeneration
  cases active : before.candidateTransaction with
  | none =>
    dsimp only
    rcases @takeGeneration_cases _ before key with ⟨problem, stopped, missing⟩ |
      ⟨value, after, taken, free, named, next, kept, empty, others⟩
    · rw [stopped]
      exact ⟨id, fun _ => rfl, .idle (missing active)⟩
    rw [taken]
    exact ⟨id, fun _ => rfl, .taken (.inr ⟨rfl, active⟩) free named next kept empty others⟩
  | some transaction => ?_
  dsimp only
  unfold dropTransaction
  have current := meets transaction active
  by_cases live : transaction.phase = .candidateLive
  · rw [if_pos live]
    rcases @prepareCandidateReject_cases _ owners _ coherent transaction.candidate with
      ⟨problem, _, other⟩ | ⟨same, rejected, found, _, _, ran, prepared⟩
    · exact absurd live (other transaction active rfl)
    rw [active] at found
    cases found
    rcases @finishCandidateReject_cases _ rejected transaction.candidate with
      ⟨problem, _, other⟩ | ⟨_, _, _, _, finished⟩
    · exact absurd rfl (other _ prepared.entered rfl)
    rw [ran]
    dsimp only
    rw [finished]
    have named := coherent.key_of_current active (current.mpr (by rw [live]; decide))
    exact ⟨_, fun _ => rfl, drop_returned coherent active named (.inl ⟨live, rfl⟩) prepared⟩
  rw [if_neg live]
  rcases @prepareCandidateReject_cases _ owners _ coherent transaction.candidate with
    ⟨problem, stopped, _⟩ | ⟨same, rejected, found, _, alive, _, _⟩
  · rw [stopped]
    dsimp only [refused]
    rcases @finishCandidateReject_cases _ before transaction.candidate with
      ⟨problem, unfinished, other⟩ | ⟨same, found, _, returned, finished⟩
    · rw [unfinished]
      have committed : transaction.phase = .destinationAcceptCommitted := by
        cases phase : transaction.phase with
        | acceptedRewound => exact absurd phase (coherent.rewound _ active)
        | candidateLive => exact absurd phase live
        | destinationAcceptCommitted => rfl
        | destinationRejectReturned => exact absurd phase (other _ active rfl)
      have stale : before.generation key = none := by
        cases named : before.generation key with
        | none => rfl
        | some value =>
          rw [named] at current
          exact absurd committed (current.mp rfl)
      dsimp only [refused]
      rcases @takeGeneration_cases _ before key with ⟨problem, stopped, _⟩ |
        ⟨value, after, _, _, named, _⟩
      · rw [stopped]
        exact ⟨id, fun _ => rfl, .idle stale⟩
      rw [stale] at named
      cases named
    rw [active] at found
    cases found
    rw [finished]
    have named := coherent.key_of_current active (current.mpr (by rw [returned]; decide))
    have prepared : Prepared before before transaction .destinationRejectReturned :=
      { next := rfl
        entered := by rw [active, ← returned]
        source := coherent.source _ active
        candidate := coherent.candidate _ active
        others := fun _ _ _ => rfl }
    exact ⟨_, fun _ => rfl, drop_returned coherent active named (.inr ⟨returned, rfl⟩) prepared⟩
  rw [active] at found
  cases found
  exact absurd alive live

/-- Every operation that meets the condition takes a transition. -/
theorem Operation.takes (coherent : before.Coherent) (operation : Operation Generation)
    (meets : operation.Meets before) : operation.Takes owners before := by
  cases operation with
  | insert value => exact insert_takes value
  | insertFork source value =>
    exact insertCandidate_takes coherent (.inl rfl) meets (fun _ => rfl) rfl
  | insertIndependent source value =>
    exact insertCandidate_takes coherent (.inr rfl) meets (fun _ => rfl) rfl
  | withMut key change => exact withMut_takes key change
  | take key => exact take_takes key
  | prepareAccept source candidate => exact prepareAccept_takes coherent source candidate
  | finishAccept source candidate => exact finishAccept_takes source candidate
  | prepareReject candidate => exact prepareReject_takes coherent candidate
  | finishReject candidate => exact finishReject_takes candidate
  | drop key => exact drop_takes coherent key meets

end Umber.Reachability
