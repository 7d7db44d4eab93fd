import Umber.Reachability.StoreSteps

/-! Runs of operations on a store of generations: no generation is stranded as long as every
candidate is inserted beside a current source and no drop meets a transaction that it does not
settle. -/

set_option autoImplicit false

namespace Umber.Reachability

open ReachabilityStorage SettlementLog

variable {Generation : Type}

structure Audit (Generation : Type) where
  storage : ReachabilityStorage Generation
  log : SettlementLog

def Audit.step (owners : GenerationOwners Generation) (audit : Audit Generation)
    (operation : Operation Generation) : Audit Generation :=
  { storage := (operation.apply owners audit.storage).2
    log := operation.note owners audit.storage audit.log }

def Audit.run (owners : GenerationOwners Generation) (operations : List (Operation Generation)) :
    Audit Generation :=
  operations.foldl (Audit.step owners) { storage := .new, log := {} }

def ReachabilityStorage.openCandidate (storage : ReachabilityStorage Generation) :
    List ReachabilityGenerationKey :=
  storage.candidateTransaction.toList.map CandidateTransactionSlots.candidate

def ReachabilityStorage.openSettlement (storage : ReachabilityStorage Generation) :
    List (ReachabilityGenerationKey × Settlement) :=
  match storage.candidateTransaction with
  | none => []
  | some transaction =>
    match transaction.phase with
    | .destinationAcceptCommitted => [(transaction.candidate, .accepted)]
    | .destinationRejectReturned => [(transaction.candidate, .rejected)]
    | .acceptedRewound | .candidateLive => []

/-- Every transaction that was opened is settled once, accepted or rejected, and closed after
that; the one that is open is settled at most once. -/
structure Audit.SettlesOnce (audit : Audit Generation) : Prop where
  issued : audit.log.issued.Nodup
  opened : audit.log.opened.Nodup
  closed : audit.log.opened =
    audit.log.closed.map Prod.fst ++ audit.storage.openCandidate
  settled : audit.log.settled = audit.log.closed ++ audit.storage.openSettlement

structure Upheld (before : ReachabilityStorage Generation) (operation : Operation Generation)
    (outcome : Except Stop (Reply Generation)) (after : ReachabilityStorage Generation) :
    Prop where
  returns : outcome ≠ .error .panicked
  /-- An operation that returns an error changes nothing. -/
  unchanged : ∀ problem, outcome = .error (.error problem) → after = before
  /-- The accepted source is not handed out while the transaction is open. -/
  guarded : ∀ transaction change, before.candidateTransaction = some transaction →
    operation = .withMut transaction.source change →
    ∃ problem, outcome = .error (.error problem)
  /-- Until it is dropped or its owners come back to it, the source stays as it is. -/
  lent : ∀ transaction, before.candidateTransaction = some transaction →
    operation ≠ .prepareReject transaction.candidate → (∀ key, operation ≠ .drop key) →
    after.generation transaction.source = before.generation transaction.source
  /-- A generation is lost only when it is taken or dropped. -/
  kept : ∀ key, (before.generation key).isSome → operation ≠ .take key →
    operation ≠ .drop key → (after.generation key).isSome
  /-- Generations that the operation does not reach stay as they are. -/
  apart : ∀ key, (before.generation key).isSome → ¬ operation.reaches before key →
    after.generation key = before.generation key
  /-- A stale key reaches nothing, neither a generation nor the transaction. -/
  stale : ∀ key, operation.names key → before.generation key = none → after = before
  /-- No transaction names a key that was dropped, and its slot is free again. -/
  dropped : ∀ key, operation = .drop key →
    (∀ transaction, after.candidateTransaction = some transaction →
      transaction.source ≠ key ∧ transaction.candidate ≠ key) ∧
    after.generation key = none ∧
    ((before.generation key).isSome → after.held key.slot = none ∧
      (after.nextSerial + 1 < UInt64.size →
        ∀ value, ∃ fresh next, after.insertGeneration value = (.ok fresh, next)))

structure NeverStrands (owners : GenerationOwners Generation)
    (operations : List (Operation Generation)) : Prop where
  /-- The transaction stands between two distinct occupied slots. -/
  distinct : ∀ earlier later, operations = earlier ++ later → ∀ transaction,
    (Audit.run owners earlier).storage.candidateTransaction = some transaction →
    transaction.source.slot ≠ transaction.candidate.slot ∧
      ((Audit.run owners earlier).storage.generation transaction.source).isSome ∧
      ((Audit.run owners earlier).storage.generation transaction.candidate).isSome
  settles : ∀ earlier later, operations = earlier ++ later →
    (Audit.run owners earlier).SettlesOnce
  upheld : ∀ earlier operation later, operations = earlier ++ operation :: later →
    Upheld (Audit.run owners earlier).storage operation
      (operation.apply owners (Audit.run owners earlier).storage).1
      (operation.apply owners (Audit.run owners earlier).storage).2

/-- Every operation of a run meets the condition in the state it finds. -/
def AllMeet (owners : GenerationOwners Generation) (operations : List (Operation Generation)) :
    Prop :=
  ∀ earlier operation later, operations = earlier ++ operation :: later →
    operation.Meets (Audit.run owners earlier).storage

section

variable {owners : GenerationOwners Generation} {before after : ReachabilityStorage Generation}
  {operation : Operation Generation} {outcome : Except Stop (Reply Generation)}
  {note : SettlementLog → SettlementLog}

/-- A slot that holds nothing takes the next generation, while serials last. -/
theorem inserts_of_free {slot : Nat} (inside : slot < 2) (free : before.held slot = none)
    (room : before.nextSerial + 1 < UInt64.size) (value : Generation) :
    ∃ fresh next, before.insertGeneration value = (.ok fresh, next) := by
  have inserting := before.insertGeneration_inv value
  generalize before.insertGeneration value = inserted at inserting
  cases inserting with
  | full full =>
    have present := freeSlot_none.mp full slot inside
    rw [free] at present
    cases present
  | exhausted exhausted => exact absurd room exhausted
  | inserted => exact ⟨_, _, rfl⟩

variable {key other : ReachabilityGenerationKey}

/-- A key of a slot that was free named no generation. -/
theorem ne_of_free (free : before.freeSlot = some key.slot)
    (present : (before.generation other).isSome) : other ≠ key := by
  rintro rfl
  have empty := (freeSlot_spec free).2
  rw [generation_of_held_none empty] at present
  cases present

theorem Transition.coherent (coherent : before.Coherent)
    (transition : Transition before operation outcome after note) : after.Coherent := by
  cases transition with
  | refused => exact coherent
  | inserted _ free _ _ kept named =>
    cases active : before.candidateTransaction with
    | none => exact .idle (kept.trans active)
    | some transaction => exact absurd (coherent.freeSlot active) (by rw [free]; simp)
  | @began _ source key value origin _ either free closed current _ _ entered named =>
    have different := ne_of_free free current
    have inside := slot_lt_of_generation current
    constructor
    · intro transaction active
      rw [entered] at active
      cases active
      intro same
      have present := current
      rw [generation_of_held_none (by rw [same]; exact (freeSlot_spec free).2)] at present
      cases present
    · intro transaction active
      rw [entered] at active
      cases active
      rw [named, if_neg different]
      exact current
    · intro transaction active
      rw [entered] at active
      cases active
      rw [named, if_pos rfl]
      rfl
    intro transaction active
    rw [entered] at active
    cases active
    exact fun same => by cases same
  | @mutated key change value _ guarded found _ kept named =>
    cases active : before.candidateTransaction with
    | none => exact .idle (kept.trans active)
    | some transaction => ?_
    have present : ∀ other, (before.generation other).isSome →
        (after.generation other).isSome := by
      intro other held
      rw [named]
      by_cases same : other = key
      · rw [if_pos same]
        rfl
      rw [if_neg same]
      exact held
    exact coherent.follow active (kept.trans active) rfl rfl (coherent.rewound _ active)
      (present _ (coherent.source _ active)) (present _ (coherent.candidate _ active))
  | @taken _ key value reply _ either free found _ kept empty named =>
    cases active : before.candidateTransaction with
    | none => exact .idle (kept.trans active)
    | some transaction => ?_
    obtain ⟨notSource, notCandidate⟩ := free transaction active
    rcases coherent.key_of_current active (by rw [found]; rfl) with same | same
    · exact absurd same.symm notSource
    · exact absurd same.symm notCandidate
  | settled active live how prepared =>
    refine coherent.follow active prepared.entered rfl rfl ?_ prepared.source prepared.candidate
    rcases how with ⟨_, _, rfl, _⟩ | ⟨_, _, rfl⟩ <;> exact fun same => by cases same
  | closed => exact .idle rfl
  | idle => exact coherent
  | dropped _ _ _ _ closed => exact .idle closed

variable {value : Generation}

/-- An operation that keeps every generation that was there. -/
theorem isSome_of_update (named : ∀ other, after.generation other =
      if other = key then some value else before.generation other)
    (present : (before.generation other).isSome) : (after.generation other).isSome := by
  rw [named]
  by_cases same : other = key
  · rw [if_pos same]
    rfl
  rw [if_neg same]
  exact present

/-- What insertions keep: the storage differs only in a key that named nothing. -/
theorem Upheld.of_fresh (notDrop : ∀ other, operation ≠ .drop other)
    (notMut : ∀ other change, operation ≠ .withMut other change)
    (current : ∀ other, operation.names other → (before.generation other).isSome)
    (coherent : before.Coherent) (free : before.freeSlot = some key.slot)
    (named : ∀ other, after.generation other =
      if other = key then some value else before.generation other) :
    Upheld before operation (.ok (.key key)) after :=
  { returns := fun same => by cases same
    unchanged := fun _ same => by cases same
    guarded := fun transaction change _ same => absurd same (notMut _ _)
    lent := by
      intro transaction active _ _
      rw [named, if_neg (ne_of_free free (coherent.source _ active))]
    kept := fun other present _ _ => isSome_of_update named present
    apart := by
      intro other present _
      rw [named, if_neg (ne_of_free free present)]
    stale := by
      intro other names missing
      have present := current other names
      rw [missing] at present
      cases present
    dropped := fun other same => absurd same (notDrop other) }

variable {reply : Reply Generation}

/-- What an operation keeps that leaves the generations alone and is called with current keys. -/
theorem Upheld.of_same (notDrop : ∀ other, operation ≠ .drop other)
    (notMut : ∀ other change, operation ≠ .withMut other change)
    (current : ∀ other, operation.names other → (before.generation other).isSome)
    (same : ∀ other, after.generation other = before.generation other) :
    Upheld before operation (.ok reply) after :=
  { returns := fun same => by cases same
    unchanged := fun _ same => by cases same
    guarded := fun transaction change _ same => absurd same (notMut _ _)
    lent := fun transaction _ _ _ => same _
    kept := by
      intro other present _ _
      rw [same]
      exact present
    apart := fun other _ _ => same other
    stale := by
      intro other names missing
      have present := current other names
      rw [missing] at present
      cases present
    dropped := fun other same => absurd same (notDrop other) }

theorem Upheld.of_refused (problem : ReachabilityStoreError)
    (notDrop : ∀ key, operation ≠ .drop key) :
    Upheld before operation (.error (.error problem)) before :=
  { returns := fun same => by cases same
    unchanged := fun _ _ => rfl
    guarded := fun _ _ _ _ => ⟨problem, rfl⟩
    lent := fun _ _ _ _ => rfl
    kept := fun _ present _ _ => present
    apart := fun _ _ _ => rfl
    stale := fun _ _ _ => rfl
    dropped := fun key same => absurd same (notDrop key) }

theorem Upheld.of_taken
    (either : operation = .take key ∨ operation = .drop key ∧ before.candidateTransaction = none)
    (free : ∀ transaction, before.candidateTransaction = some transaction →
      transaction.source ≠ key ∧ transaction.candidate ≠ key)
    (found : before.generation key = some value)
    (kept : after.candidateTransaction = before.candidateTransaction)
    (empty : after.held key.slot = none) (named : ∀ other, after.generation other =
      if other = key then none else before.generation other) :
    Upheld before operation (.ok reply) after := by
  have present : (before.generation key).isSome := by rw [found]; rfl
  have names : ∀ other, operation.names other → other = key := by
    intro other names
    rcases either with rfl | ⟨rfl, _⟩
    · exact names
    · exact names
  constructor
  case returns => exact fun same => by cases same
  case unchanged => exact fun _ same => by cases same
  case guarded =>
    rintro transaction change _ rfl
    rcases either with same | ⟨same, _⟩ <;> cases same
  case lent =>
    intro transaction active _ _
    rw [named, if_neg (free transaction active).1]
  case kept =>
    intro other held notTake notDrop
    rw [named, if_neg]
    · exact held
    rintro rfl
    rcases either with same | ⟨same, _⟩
    · exact notTake same
    · exact notDrop same
  case apart =>
    intro other _ outside
    rw [named, if_neg]
    rintro rfl
    refine outside (.inl ?_)
    rcases either with rfl | ⟨rfl, _⟩ <;> exact rfl
  case stale =>
    intro other called missing
    rw [names other called, found] at missing
    cases missing
  case dropped =>
    intro other same
    obtain rfl : other = key := names other (by rw [same]; exact rfl)
    refine ⟨?_, ?_, fun _ => ⟨empty, fun room =>
      inserts_of_free (slot_lt_of_generation present) empty room⟩⟩
    · intro transaction active
      rw [kept] at active
      exact free transaction active
    · rw [named, if_pos rfl]

variable {transaction : CandidateTransactionSlots}

section

variable (coherent : before.Coherent)
include coherent

theorem Upheld.of_settled {settlement : Settlement} {phase : CandidateTransactionPhase}
    (active : before.candidateTransaction = some transaction)
    (how : operation = .prepareAccept transaction.source transaction.candidate ∧
          settlement = .accepted ∧ phase = .destinationAcceptCommitted ∧
          after.generation transaction.source = before.generation transaction.source ∨
        operation = .prepareReject transaction.candidate ∧ settlement = .rejected ∧
          phase = .destinationRejectReturned) (prepared : Prepared before after transaction phase) :
    Upheld before operation (.ok .done) after := by
  have either : operation = .prepareAccept transaction.source transaction.candidate ∨
      operation = .prepareReject transaction.candidate := by
    rcases how with ⟨same, _⟩ | ⟨same, _⟩
    · exact .inl same
    · exact .inr same
  constructor
  case returns => exact fun same => by cases same
  case unchanged => exact fun _ same => by cases same
  case guarded =>
    rintro other change _ rfl
    rcases either with same | same <;> cases same
  case lent =>
    intro other found notReject _
    rw [active] at found
    cases found
    rcases how with ⟨_, _, _, untouched⟩ | ⟨same, _⟩
    · exact untouched
    · exact absurd same notReject
  case kept =>
    intro other held _ _
    rcases coherent.key_of_current active held with rfl | rfl
    · exact prepared.source
    · exact prepared.candidate
  case apart =>
    intro other held outside
    have inside := coherent.key_of_current active held
    refine absurd ?_ outside
    rcases either with rfl | rfl
    · exact .inl inside
    · exact .inr ⟨transaction, active, inside, transaction.candidate, rfl, .inr rfl, .inr rfl⟩
  case stale =>
    intro other called missing
    have present : (before.generation other).isSome := by
      rcases either with rfl | rfl
      · rcases called with rfl | rfl
        · exact coherent.source _ active
        · exact coherent.candidate _ active
      obtain rfl : other = transaction.candidate := called
      exact coherent.candidate _ active
    rw [missing] at present
    cases present
  case dropped =>
    rintro other rfl
    rcases either with same | same <;> cases same

theorem Upheld.of_idle (missing : before.generation key = none) :
    Upheld before (.drop key) (.ok .done) before := by
  have absent : ¬ (before.generation key).isSome := by
    rw [missing]
    exact fun present => by cases present
  constructor
  case returns => exact fun same => by cases same
  case unchanged => exact fun _ same => by cases same
  case guarded => exact fun _ _ _ same => by cases same
  case lent => exact fun _ _ _ _ => rfl
  case kept => exact fun _ held _ _ => held
  case apart => exact fun _ _ _ => rfl
  case stale => exact fun _ _ _ => rfl
  case dropped =>
    rintro other same
    cases same
    refine ⟨fun transaction active => ⟨?_, ?_⟩, missing, fun present => absurd present absent⟩
    · rintro rfl
      exact absent (coherent.source _ active)
    rintro rfl
    exact absent (coherent.candidate _ active)

theorem Upheld.of_dropped {partner : ReachabilityGenerationKey}
    (active : before.candidateTransaction = some transaction)
    (pair : key = transaction.source ∧ partner = transaction.candidate ∨
      key = transaction.candidate ∧ partner = transaction.source)
    (closed : after.candidateTransaction = none) (empty : after.held key.slot = none)
    (gone : after.generation key = none) (partnerKept : (after.generation partner).isSome) :
    Upheld before (.drop key) (.ok .done) after := by
  have either : ∀ other, (before.generation other).isSome → other = key ∨ other = partner := by
    intro other held
    rcases coherent.key_of_current active held with rfl | rfl <;>
      rcases pair with ⟨rfl, rfl⟩ | ⟨rfl, rfl⟩ <;> simp
  have named : key = transaction.source ∨ key = transaction.candidate := by
    rcases pair with ⟨same, _⟩ | ⟨same, _⟩
    · exact .inl same
    · exact .inr same
  have present : (before.generation key).isSome := by
    rcases named with rfl | rfl
    · exact coherent.source _ active
    · exact coherent.candidate _ active
  constructor
  case returns => exact fun same => by cases same
  case unchanged => exact fun _ same => by cases same
  case guarded => exact fun _ _ _ same => by cases same
  case lent => exact fun _ _ _ notDrop => absurd rfl (notDrop key)
  case kept =>
    intro other held _ notDrop
    rcases either other held with rfl | rfl
    · exact absurd rfl notDrop
    · exact partnerKept
  case apart =>
    intro other held outside
    exact absurd (.inr ⟨transaction, active, coherent.key_of_current active held, key, rfl, named,
      .inl rfl⟩) outside
  case stale =>
    intro other called missing
    obtain rfl : other = key := called
    rw [missing] at present
    cases present
  case dropped =>
    rintro other same
    cases same
    refine ⟨fun other found => ?_, gone, fun _ => ⟨empty, fun room =>
      inserts_of_free (slot_lt_of_generation present) empty room⟩⟩
    rw [closed] at found
    cases found

theorem Transition.upheld (transition : Transition before operation outcome after note) :
    Upheld before operation outcome after := by
  cases transition with
  | refused problem notDrop => exact .of_refused problem notDrop
  | inserted same free _ _ _ named =>
    subst same
    exact .of_fresh (fun _ same => by cases same) (fun _ _ same => by cases same)
      (fun _ names => names.elim) coherent free named
  | began either free _ current _ _ _ named =>
    refine .of_fresh ?_ ?_ ?_ coherent free named
    · rintro other rfl
      rcases either with same | same <;> cases same
    · rintro other change rfl
      rcases either with same | same <;> cases same
    intro other names
    rcases either with rfl | rfl
    · rw [show other = _ from names]
      exact current
    rw [show other = _ from names]
    exact current
  | @mutated key change value _ guarded found _ kept named =>
    constructor
    case returns => exact fun same => by cases same
    case unchanged => exact fun _ same => by cases same
    case guarded =>
      intro transaction other active same
      cases same
      exact absurd rfl (guarded transaction active)
    case lent =>
      intro transaction active _ _
      rw [named, if_neg (guarded transaction active)]
    case kept => exact fun other present _ _ => isSome_of_update named present
    case apart =>
      intro other _ outside
      have different : other ≠ key := fun same => outside (.inl same)
      rw [named, if_neg different]
    case stale =>
      intro other called missing
      rw [show other = key from called, found] at missing
      cases missing
    case dropped => exact fun _ same => by cases same
  | taken either free found _ kept empty named => exact .of_taken either free found kept empty named
  | settled active _ how prepared => exact .of_settled coherent active how prepared
  | @closed _ transaction settlement active how =>
    have either : operation = .finishAccept transaction.source transaction.candidate ∨
        operation = .finishReject transaction.candidate := by
      rcases how with ⟨same, _⟩ | ⟨same, _⟩
      · exact .inl same
      · exact .inr same
    refine .of_same ?_ ?_ ?_ fun _ => rfl
    · rintro other rfl
      rcases either with same | same <;> cases same
    · rintro other change rfl
      rcases either with same | same <;> cases same
    intro other called
    rcases either with rfl | rfl
    · rcases called with rfl | rfl
      · exact coherent.source _ active
      · exact coherent.candidate _ active
    obtain rfl : other = transaction.candidate := called
    exact coherent.candidate _ active
  | idle missing => exact .of_idle coherent missing
  | dropped active pair _ _ closed empty gone partner _ =>
    exact .of_dropped coherent active pair closed empty gone partner

end

structure Audit.Sound (audit : Audit Generation) : Prop where
  coherent : audit.storage.Coherent
  issuedBelow : ∀ key ∈ audit.log.issued, key.serial < audit.storage.nextSerial
  openedBelow : ∀ key ∈ audit.log.opened, key.serial < audit.storage.nextSerial
  settles : audit.SettlesOnce

variable {keys : List ReachabilityGenerationKey} {serial : Nat}

theorem nodup_concat (distinct : keys.Nodup) (below : ∀ other ∈ keys, other.serial < serial)
    (fresh : key.serial = serial) : (keys ++ [key]).Nodup := by
  refine List.nodup_append.mpr ⟨distinct, List.pairwise_singleton _ _, ?_⟩
  intro other member last same
  rw [List.mem_singleton.mp same]
  rintro rfl
  exact absurd (below other member) (by rw [fresh]; exact Nat.lt_irrefl _)

theorem below_concat (below : ∀ other ∈ keys, other.serial < serial) (fresh : key.serial = serial) :
    ∀ other ∈ keys ++ [key], other.serial < serial + 1 := by
  intro other member
  rcases List.mem_append.mp member with earlier | last
  · exact Nat.lt_succ_of_lt (below other earlier)
  rw [List.mem_singleton.mp last, fresh]
  exact Nat.lt_succ_self _

variable {storage : ReachabilityStorage Generation}

theorem openCandidate_of (active : storage.candidateTransaction = some transaction) :
    storage.openCandidate = [transaction.candidate] := by
  rw [openCandidate, active]
  rfl

theorem openCandidate_none (closed : storage.candidateTransaction = none) :
    storage.openCandidate = [] := by
  rw [openCandidate, closed]
  rfl

theorem openSettlement_none (closed : storage.candidateTransaction = none) :
    storage.openSettlement = [] := by
  rw [openSettlement, closed]

section

variable (active : storage.candidateTransaction = some transaction)
include active

theorem openSettlement_live
    (live : transaction.phase = .candidateLive) : storage.openSettlement = [] := by
  rw [openSettlement, active]
  dsimp only
  rw [live]

theorem openSettlement_committed (committed : transaction.phase = .destinationAcceptCommitted) :
    storage.openSettlement = [(transaction.candidate, .accepted)] := by
  rw [openSettlement, active]
  dsimp only
  rw [committed]

theorem openSettlement_returned (returned : transaction.phase = .destinationRejectReturned) :
    storage.openSettlement = [(transaction.candidate, .rejected)] := by
  rw [openSettlement, active]
  dsimp only
  rw [returned]

end

variable {log : SettlementLog}

/-- The record stays as it is while the transaction does. -/
theorem Audit.Sound.keep (sound : ({ storage := before, log } : Audit Generation).Sound)
    (coherent : after.Coherent) (next : after.nextSerial = before.nextSerial)
    (kept : after.candidateTransaction = before.candidateTransaction) :
    ({ storage := after, log } : Audit Generation).Sound := by
  obtain ⟨_, issuedBelow, openedBelow, settles⟩ := sound
  refine ⟨coherent, ?_, ?_, settles.issued, settles.opened, ?_, ?_⟩
  · dsimp only
    rw [next]
    exact issuedBelow
  · dsimp only
    rw [next]
    exact openedBelow
  · rw [openCandidate, kept]
    exact settles.closed
  rw [openSettlement, kept]
  exact settles.settled

theorem Transition.sound (sound : ({ storage := before, log } : Audit Generation).Sound)
    (transition : Transition before operation outcome after note) :
    ({ storage := after, log := note log } : Audit Generation).Sound := by
  have coherent := transition.coherent sound.coherent
  obtain ⟨was, issuedBelow, openedBelow, issued, opened, closed, settled⟩ := id sound
  dsimp only at issuedBelow openedBelow issued opened closed settled
  cases transition with
  | refused => exact sound
  | inserted _ free serial next kept _ =>
    refine ⟨coherent, ?_, ?_, nodup_concat issued issuedBelow serial, opened, ?_, ?_⟩
    · dsimp only
      rw [next]
      exact below_concat issuedBelow serial
    · dsimp only
      rw [next]
      exact fun key member => Nat.lt_succ_of_lt (openedBelow key member)
    · rw [openCandidate, kept]
      exact closed
    rw [openSettlement, kept]
    exact settled
  | began _ free idle _ serial next entered _ =>
    rw [openCandidate_none idle, List.append_nil] at closed
    rw [openSettlement_none idle, List.append_nil] at settled
    refine ⟨coherent, ?_, ?_, nodup_concat issued issuedBelow serial,
      nodup_concat opened openedBelow serial, ?_, ?_⟩
    · dsimp only
      rw [next]
      exact below_concat issuedBelow serial
    · dsimp only
      rw [next]
      exact below_concat openedBelow serial
    · dsimp only [open_, issue]
      rw [openCandidate_of entered, closed]
    dsimp only [open_, issue]
    rw [openSettlement_live entered rfl, settled, List.append_nil]
  | mutated _ _ next kept _ => exact sound.keep coherent next kept
  | taken _ _ _ next kept _ _ => exact sound.keep coherent next kept
  | @settled _ transaction settlement phase _ active live how prepared =>
    rw [openCandidate_of active] at closed
    rw [openSettlement_live active live, List.append_nil] at settled
    refine ⟨coherent, ?_, ?_, issued, opened, ?_, ?_⟩
    · dsimp only
      rw [prepared.next]
      exact issuedBelow
    · dsimp only
      rw [prepared.next]
      exact openedBelow
    · dsimp only [settle]
      rw [openCandidate_of prepared.entered, closed]
    dsimp only [settle]
    rcases how with ⟨_, rfl, rfl, _⟩ | ⟨_, rfl, rfl⟩
    · rw [openSettlement_committed prepared.entered rfl, settled]
    · rw [openSettlement_returned prepared.entered rfl, settled]
  | @closed _ transaction settlement active how =>
    rw [openCandidate_of active] at closed
    refine ⟨coherent, issuedBelow, openedBelow, issued, opened, ?_, ?_⟩
    · dsimp only [close]
      rw [openCandidate_none rfl, closed, List.map_append, List.append_nil]
      rfl
    dsimp only [close]
    rw [openSettlement_none rfl, settled, List.append_nil]
    rcases how with ⟨_, rfl, committed⟩ | ⟨_, rfl, returned⟩
    · rw [openSettlement_committed active committed]
    · rw [openSettlement_returned active returned]
  | idle => exact sound
  | @dropped key partner transaction _ _ active _ how next idle _ _ _ _ => ?_
  rw [openCandidate_of active] at closed
  rcases how with ⟨live, rfl⟩ | ⟨returned, rfl⟩
  · rw [openSettlement_live active live, List.append_nil] at settled
    refine ⟨coherent, ?_, ?_, issued, opened, ?_, ?_⟩
    · dsimp only [close, settle]
      rw [next]
      exact issuedBelow
    · dsimp only [close, settle]
      rw [next]
      exact openedBelow
    · dsimp only [close, settle]
      rw [openCandidate_none idle, closed, List.map_append, List.append_nil]
      rfl
    dsimp only [close, settle]
    rw [openSettlement_none idle, settled, List.append_nil]
  refine ⟨coherent, ?_, ?_, issued, opened, ?_, ?_⟩
  · dsimp only [close]
    rw [next]
    exact issuedBelow
  · dsimp only [close]
    rw [next]
    exact openedBelow
  · dsimp only [close]
    rw [openCandidate_none idle, closed, List.map_append, List.append_nil]
    rfl
  dsimp only [close]
  rw [openSettlement_none idle, settled, List.append_nil, openSettlement_returned active returned]

theorem Audit.new_sound : ({ storage := .new, log := {} } : Audit Generation).Sound :=
  { coherent := .idle rfl
    issuedBelow := fun _ member => by cases member
    openedBelow := fun _ member => by cases member
    settles :=
      { issued := List.nodup_nil
        opened := List.nodup_nil
        closed := rfl
        settled := rfl } }

theorem Audit.run_concat (operations : List (Operation Generation))
    (operation : Operation Generation) : Audit.run owners (operations ++ [operation]) =
      (Audit.run owners operations).step owners operation := by
  rw [Audit.run, List.foldl_append]
  rfl

theorem Audit.Sound.step {audit : Audit Generation} (sound : audit.Sound)
    (meets : operation.Meets audit.storage) : (audit.step owners operation).Sound ∧
      Upheld audit.storage operation (operation.apply owners audit.storage).1
        (operation.apply owners audit.storage).2 := by
  obtain ⟨note, noted, transition⟩ :=
    @Operation.takes _ owners _ sound.coherent operation meets
  refine ⟨?_, transition.upheld sound.coherent⟩
  unfold Audit.step
  rw [noted]
  exact transition.sound sound

/-- A run whose operations meet the condition stays sound. -/
theorem Audit.Sound.fold {audit : Audit Generation} (sound : audit.Sound)
    (operations : List (Operation Generation))
    (meet : ∀ earlier operation later, operations = earlier ++ operation :: later →
      operation.Meets (earlier.foldl (Audit.step owners) audit).storage) :
    (operations.foldl (Audit.step owners) audit).Sound := by
  induction operations generalizing audit with
  | nil => exact sound
  | cons operation rest smaller => ?_
  refine smaller (sound.step (meet [] operation rest rfl)).1 ?_
  intro earlier other later split
  exact meet (operation :: earlier) other later (by rw [split]; rfl)

variable {earlier later : List (Operation Generation)}

theorem AllMeet.front (meet : AllMeet owners (earlier ++ later)) : AllMeet owners earlier := by
  intro front operation back split
  exact meet front operation (back ++ later) (by rw [split, List.append_assoc]; rfl)

theorem AllMeet.sound (meet : AllMeet owners (earlier ++ later)) :
    (Audit.run owners earlier).Sound :=
  Audit.new_sound.fold earlier meet.front

variable {operations : List (Operation Generation)}

theorem AllMeet.neverStrands (meet : AllMeet owners operations) :
    NeverStrands owners operations := by
  constructor
  case distinct =>
    rintro earlier later rfl transaction active
    have coherent := meet.sound.coherent
    exact ⟨coherent.apart _ active, coherent.source _ active, coherent.candidate _ active⟩
  case settles =>
    rintro earlier later rfl
    exact meet.sound.settles
  case upheld =>
    rintro earlier operation later rfl
    exact (meet.sound.step (meet earlier operation later rfl)).2

/-- A candidate beside a stale source stands alone. -/
theorem began_stale (coherent : before.Coherent) {source : ReachabilityGenerationKey}
    {value : Generation} {origin : CandidateTransactionOrigin} (room : before.HasRoom)
    (missing : before.generation source = none) :
    ∃ transaction, (before.insertCandidate source value origin).2.candidateTransaction =
        some transaction ∧ (transaction.source.slot = transaction.candidate.slot ∨
        (before.insertCandidate source value origin).2.generation transaction.source = none) := by
  unfold insertCandidate
  have inserting := before.insertGeneration_inv value
  generalize before.insertGeneration value = inserted at inserting
  cases inserting with
  | full full => exact absurd full room.1
  | exhausted exhausted => exact absurd room.2 exhausted
  | @inserted key after free _ _ _ kept named => ?_
  cases active : before.candidateTransaction with
  | some transaction => exact absurd (coherent.freeSlot active) (by rw [free]; simp)
  | none => ?_
  dsimp only
  rw [kept, active]
  refine ⟨_, rfl, ?_⟩
  by_cases same : source = key
  · exact .inl (by rw [same])
  refine .inr ?_
  have still : after.generation source = none := by rw [named, if_neg same, missing]
  exact still

/-- A drop that does not meet the condition strands its key, or reaches a transaction that has
nothing to do with it. -/
theorem drop_strands (coherent : before.Coherent)
    (active : before.candidateTransaction = some transaction)
    (fails : ¬ ((before.generation key).isSome ↔
      transaction.phase ≠ .destinationAcceptCommitted)) (upheld : Upheld before (.drop key)
      ((Operation.drop key).apply owners before).1 ((Operation.drop key).apply owners before).2) :
    False := by
  by_cases committed : transaction.phase = .destinationAcceptCommitted
  · have current : (before.generation key).isSome := by
      cases named : before.generation key with
      | none => exact absurd ⟨fun same => (by rw [named] at same; cases same), fun apart =>
        absurd committed apart⟩ fails
      | some value => rfl
    -- Nothing rejects a transaction whose acceptance is committed, and its keys stay taken.
    have same : ((Operation.drop key).apply owners before).2.candidateTransaction =
        some transaction := by
      dsimp only [Operation.apply]
      unfold dropGeneration dropTransaction
      rw [active]
      dsimp only
      rw [if_neg (by rw [committed]; exact fun same => by cases same)]
      dsimp only
      rcases @finishCandidateReject_cases _ before transaction.candidate with
        ⟨problem, unfinished, _⟩ | ⟨other, found, _, returned, _⟩
      · rw [unfinished]
        dsimp only [refused]
        rcases @takeGeneration_cases _ before key with ⟨problem, stopped, _⟩ |
          ⟨value, after, taken, _, _, _, kept, _⟩
        · rw [stopped]
          exact active
        rw [taken]
        exact kept.trans active
      rw [active] at found
      cases found
      rw [committed] at returned
      cases returned
    have named := coherent.key_of_current active current
    obtain ⟨free, _⟩ := upheld.dropped key rfl
    obtain ⟨notSource, notCandidate⟩ := free transaction same
    rcases named with rfl | rfl
    · exact notSource rfl
    · exact notCandidate rfl
  have missing : before.generation key = none := by
    cases named : before.generation key with
    | none => rfl
    | some value => exact absurd ⟨fun _ => committed, fun _ => (by rw [named]; rfl)⟩ fails
  have same := upheld.stale key rfl missing
  have closed : ((Operation.drop key).apply owners before).2.candidateTransaction = none := by
    dsimp only [Operation.apply]
    unfold dropGeneration dropTransaction
    rw [active]
    dsimp only
    have finished : ∀ rejected : ReachabilityStorage Generation, ∀ phase,
        rejected.candidateTransaction = some { transaction with phase } →
        phase = .destinationRejectReturned →
        ((rejected.finishCandidateReject transaction.candidate).2.takeGeneration
          key).2.candidateTransaction = none := by
      rintro rejected phase entered rfl
      rcases @finishCandidateReject_cases _ rejected transaction.candidate with
        ⟨problem, _, other⟩ | ⟨_, _, _, _, finished⟩
      · exact absurd rfl (other _ entered rfl)
      rw [finished]
      rcases @takeGeneration_cases _ { rejected with candidateTransaction := none } key with
        ⟨problem, stopped, _⟩ | ⟨value, after, taken, _, _, _, kept, _⟩
      · rw [stopped]
        rfl
      rw [taken]
      exact kept
    by_cases live : transaction.phase = .candidateLive
    · rw [if_pos live]
      rcases @prepareCandidateReject_cases _ owners _ coherent transaction.candidate with
        ⟨problem, _, other⟩ | ⟨same, rejected, found, _, _, ran, prepared⟩
      · exact absurd live (other transaction active rfl)
      rw [active] at found
      cases found
      rw [ran]
      exact finished rejected _ prepared.entered rfl
    rw [if_neg live]
    refine finished before transaction.phase active ?_
    cases phase : transaction.phase with
    | acceptedRewound => exact absurd phase (coherent.rewound _ active)
    | candidateLive => exact absurd phase live
    | destinationAcceptCommitted => exact absurd phase committed
    | destinationRejectReturned => rfl
  rw [same, active] at closed
  cases closed

theorem Outcome.map_snd {Result Other : Type} (change : Result → Other)
    (outcome : Outcome Generation Result) : (Outcome.map change outcome).2 = outcome.2 := by
  obtain ⟨ended, after⟩ := outcome
  cases ended with
  | error stop => rfl
  | ok result => rfl

/-- The first operation that does not meet the condition strands something. -/
theorem NeverStrands.meets (never : NeverStrands owners operations)
    (split : operations = earlier ++ operation :: later) (sound : (Audit.run owners earlier).Sound) :
     operation.Meets (Audit.run owners earlier).storage := by
  have beside : ∀ source value origin,
      (operation.apply owners (Audit.run owners earlier).storage).2 =
        ((Audit.run owners earlier).storage.insertCandidate source value origin).2 →
      (Audit.run owners earlier).storage.HasRoom →
      ((Audit.run owners earlier).storage.generation source).isSome := by
    intro source value origin applied room
    cases missing : (Audit.run owners earlier).storage.generation source with
    | some found => rfl
    | none => ?_
    obtain ⟨transaction, active, alone⟩ := @began_stale _ _ sound.coherent source value origin
      room missing
    have distinct := never.distinct (earlier ++ [operation]) later
      (by rw [split, List.append_assoc]; rfl) transaction
    rw [Audit.run_concat, Audit.step, applied] at distinct
    obtain ⟨apart, present, _⟩ := distinct active
    rcases alone with same | gone
    · exact absurd same apart
    rw [gone] at present
    cases present
  cases operation with
  | insertFork source value => exact beside source value .forked (Outcome.map_snd _ _)
  | insertIndependent source value =>
    exact beside source value .independent (Outcome.map_snd _ _)
  | drop key =>
    intro transaction active
    by_cases meets : ((Audit.run owners earlier).storage.generation key).isSome ↔
        transaction.phase ≠ .destinationAcceptCommitted
    · exact meets
    exact (drop_strands sound.coherent active meets
      (never.upheld earlier (.drop key) later split)).elim
  | insert | withMut | take | prepareAccept | finishAccept | prepareReject | finishReject =>
    trivial

theorem NeverStrands.allMeet (never : NeverStrands owners operations) :
    AllMeet owners operations := by
  -- Up to each operation the run is sound, since the operations before it meet the condition.
  have bySize : ∀ (size : Nat) (earlier : List (Operation Generation)) operation later,
      earlier.length < size → operations = earlier ++ operation :: later →
      operation.Meets (Audit.run owners earlier).storage := by
    intro size
    induction size with
    | zero => exact fun _ _ _ short => absurd short (Nat.not_lt_zero _)
    | succ size smaller => ?_
    intro earlier operation later short split
    refine never.meets split (Audit.new_sound.fold earlier ?_)
    rintro front other back rfl
    refine smaller front other (back ++ operation :: later) ?_ ?_
    · rw [List.length_append, List.length_cons] at short
      omega
    rw [split, List.append_assoc]
    rfl
  intro earlier operation later split
  exact bySize (earlier.length + 1) earlier operation later (Nat.lt_succ_self _) split

/-- A run strands nothing exactly when all of its operations meet the condition. -/
theorem neverStrands_iff (owners : GenerationOwners Generation)
    (operations : List (Operation Generation)) :
    NeverStrands owners operations ↔ AllMeet owners operations :=
  ⟨NeverStrands.allMeet, AllMeet.neverStrands⟩

end

def plainOwners : GenerationOwners Nat :=
  { acceptCheckpointCandidate := id
    clearAttachment := id
    rejectCheckpointCandidate := fun source candidate => (source, candidate) }

/-- A candidate that is dropped between the two halves of its acceptance stays in its slot, and
its transaction stays open. -/
theorem dropped_candidate_stranded :
    ¬ NeverStrands plainOwners
      [.insert 0, .insertFork { slot := 0, serial := 1 } 1,
        .prepareAccept { slot := 0, serial := 1 } { slot := 1, serial := 2 },
        .drop { slot := 1, serial := 2 }] := by
  intro never
  have upheld := never.upheld
    [.insert 0, .insertFork { slot := 0, serial := 1 } 1,
      .prepareAccept { slot := 0, serial := 1 } { slot := 1, serial := 2 }]
    (.drop { slot := 1, serial := 2 }) [] rfl
  obtain ⟨free, _⟩ := upheld.dropped { slot := 1, serial := 2 } rfl
  exact (free
    { source := { slot := 0, serial := 1 }
      candidate := { slot := 1, serial := 2 }
      origin := .forked
      phase := .destinationAcceptCommitted } (by decide +kernel)).2 rfl

end Umber.Reachability
