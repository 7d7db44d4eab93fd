/-! The store of retained revision generations: two slots, keys that name a slot and the serial
it was filled with, and the one transaction between an accepted and a candidate generation. -/

set_option autoImplicit false

namespace Umber.Reachability

variable {Generation Result : Type}

structure ReachabilityGenerationKey where
  slot : Nat
  serial : Nat
  deriving DecidableEq

structure ReachabilitySlot (Generation : Type) where
  serial : Nat := 0
  generation : Option Generation := none

inductive CandidateTransactionOrigin where
  | forked
  | independent
  deriving DecidableEq

inductive CandidateTransactionPhase where
  | acceptedRewound
  | candidateLive
  | destinationAcceptCommitted
  | destinationRejectReturned
  deriving DecidableEq

structure CandidateTransactionSlots where
  source : ReachabilityGenerationKey
  candidate : ReachabilityGenerationKey
  origin : CandidateTransactionOrigin
  phase : CandidateTransactionPhase
  deriving DecidableEq

structure ReachabilityStorage (Generation : Type) where
  nextSerial : Nat
  slots : Vector (ReachabilitySlot Generation) 2
  candidateTransaction : Option CandidateTransactionSlots

inductive ReachabilityStoreError where
  | generationSlotsExhausted
  | generationIdentityExhausted
  | staleGeneration
  | candidateTransactionActive
  | candidateTransactionMismatch
  deriving DecidableEq

inductive Stop where
  | error (problem : ReachabilityStoreError)
  | panicked
  deriving DecidableEq

structure GenerationOwners (Generation : Type) where
  acceptCheckpointCandidate : Generation → Generation
  clearAttachment : Generation → Generation
  /-- The accepted source and the candidate, after the source has its owners back. -/
  rejectCheckpointCandidate : Generation → Generation → Generation × Generation

/-- A result, or how the operation ended without one, with the storage afterwards. -/
abbrev Outcome (Generation Result : Type) : Type :=
  Except Stop Result × ReachabilityStorage Generation

def refused (problem : ReachabilityStoreError) (storage : ReachabilityStorage Generation) :
    Outcome Generation Result :=
  (.error (.error problem), storage)

def panicked (storage : ReachabilityStorage Generation) : Outcome Generation Result :=
  (.error .panicked, storage)

namespace ReachabilityStorage

def new : ReachabilityStorage Generation :=
  { nextSerial := 1, slots := Vector.replicate 2 {}, candidateTransaction := none }

def held (self : ReachabilityStorage Generation) (slot : Nat) : Option Generation :=
  self.slots[slot]?.bind ReachabilitySlot.generation

def generation (self : ReachabilityStorage Generation) (key : ReachabilityGenerationKey) :
    Option Generation :=
  match self.slots[key.slot]? with
  | some slot => if slot.serial = key.serial then slot.generation else none
  | none => none

def fill (self : ReachabilityStorage Generation) (slot : Nat) (generation : Option Generation) :
    ReachabilityStorage Generation :=
  match self.slots[slot]? with
  | some current =>
    { self with slots := self.slots.setIfInBounds slot { current with generation } }
  | none => self

def freeSlot (self : ReachabilityStorage Generation) : Option Nat :=
  self.slots.toList.findIdx? fun slot => slot.generation.isNone

def insertGeneration (self : ReachabilityStorage Generation) (generation : Generation) :
    Outcome Generation ReachabilityGenerationKey :=
  match self.freeSlot with
  | none => refused .generationSlotsExhausted self
  | some slot =>
    let serial := self.nextSerial
    if serial + 1 < UInt64.size then
      (.ok { slot, serial },
        { self with
          nextSerial := serial + 1
          slots := self.slots.setIfInBounds slot { serial, generation := some generation } })
    else
      refused .generationIdentityExhausted self

/-- Insert a candidate beside a source. A transaction that is open already is asserted away. -/
def insertCandidate (self : ReachabilityStorage Generation) (source : ReachabilityGenerationKey)
    (generation : Generation) (origin : CandidateTransactionOrigin) :
    Outcome Generation ReachabilityGenerationKey :=
  match self.insertGeneration generation with
  | (.error stop, after) => (.error stop, after)
  | (.ok candidate, after) =>
    match after.candidateTransaction with
    | some _ => panicked after
    | none =>
      (.ok candidate,
        { after with
          candidateTransaction := some { source, candidate, origin, phase := .candidateLive } })

def insertForkGeneration (self : ReachabilityStorage Generation)
    (source : ReachabilityGenerationKey) (generation : Generation) :
    Outcome Generation ReachabilityGenerationKey :=
  self.insertCandidate source generation .forked

def insertIndependentCandidateGeneration (self : ReachabilityStorage Generation)
    (source : ReachabilityGenerationKey) (generation : Generation) :
    Outcome Generation ReachabilityGenerationKey :=
  self.insertCandidate source generation .independent

def withGenerationMut (self : ReachabilityStorage Generation) (key : ReachabilityGenerationKey)
    (operation : Generation → Result × Generation) : Outcome Generation Result :=
  if self.candidateTransaction.any (fun transaction => transaction.source = key) then
    refused .candidateTransactionActive self
  else
    match self.generation key with
    | none => refused .staleGeneration self
    | some generation =>
      (.ok (operation generation).1, self.fill key.slot (some (operation generation).2))

def takeGeneration (self : ReachabilityStorage Generation) (key : ReachabilityGenerationKey) :
    Outcome Generation Generation :=
  if self.candidateTransaction.any
      (fun transaction => transaction.source = key ∨ transaction.candidate = key) then
    refused .candidateTransactionActive self
  else
    match self.generation key with
    | none => refused .staleGeneration self
    | some generation => (.ok generation, self.fill key.slot none)

def enter (self : ReachabilityStorage Generation) (transaction : CandidateTransactionSlots)
    (phase : CandidateTransactionPhase) : ReachabilityStorage Generation :=
  { self with candidateTransaction := some { transaction with phase } }

def prepareCandidateAccept (owners : GenerationOwners Generation)
    (self : ReachabilityStorage Generation) (sourceKey candidateKey : ReachabilityGenerationKey) :
    Outcome Generation Unit :=
  match self.candidateTransaction.filter
      (fun transaction => transaction.source = sourceKey ∧ transaction.candidate = candidateKey) with
  | none => refused .candidateTransactionMismatch self
  | some transaction =>
    if transaction.phase ≠ .candidateLive then
      refused .candidateTransactionMismatch self
    else
      match transaction.origin with
      | .independent => (.ok (), self.enter transaction .destinationAcceptCommitted)
      | .forked =>
        match self.slots[transaction.candidate.slot]? with
        | none => panicked self
        | some slot =>
          match slot.generation with
          | none => refused .staleGeneration self
          | some candidate =>
            (.ok (),
              (self.fill transaction.candidate.slot
                (some (owners.acceptCheckpointCandidate candidate))).enter
                transaction .destinationAcceptCommitted)

def finishCandidateAccept (self : ReachabilityStorage Generation)
    (sourceKey candidateKey : ReachabilityGenerationKey) : Outcome Generation Unit :=
  match self.candidateTransaction.filter
      (fun transaction => transaction.source = sourceKey ∧ transaction.candidate = candidateKey) with
  | none => refused .candidateTransactionMismatch self
  | some transaction =>
    if transaction.phase ≠ .destinationAcceptCommitted then
      refused .candidateTransactionMismatch self
    else
      (.ok (), { self with candidateTransaction := none })

/-- The owners a fork borrowed go back to the source; both slots are borrowed at once, which
panics for one slot and for a slot out of bounds. -/
def returnOwners (owners : GenerationOwners Generation) (self : ReachabilityStorage Generation)
    (transaction : CandidateTransactionSlots) : Outcome Generation Unit :=
  if transaction.source.slot = transaction.candidate.slot then
    panicked self
  else
    match self.slots[transaction.source.slot]?, self.slots[transaction.candidate.slot]? with
    | some sourceSlot, some candidateSlot =>
      match sourceSlot.generation, candidateSlot.generation with
      | some source, some candidate =>
        let returned :=
          owners.rejectCheckpointCandidate source (owners.clearAttachment candidate)
        (.ok (),
          (self.fill transaction.source.slot (some returned.1)).fill
            transaction.candidate.slot (some returned.2))
      | _, _ => refused .staleGeneration self
    | _, _ => panicked self

def clearCandidate (owners : GenerationOwners Generation) (self : ReachabilityStorage Generation)
    (transaction : CandidateTransactionSlots) : Outcome Generation Unit :=
  match self.slots[transaction.candidate.slot]? with
  | none => panicked self
  | some slot =>
    match slot.generation with
    | none => refused .staleGeneration self
    | some candidate =>
      (.ok (), self.fill transaction.candidate.slot (some (owners.clearAttachment candidate)))

def prepareCandidateReject (owners : GenerationOwners Generation)
    (self : ReachabilityStorage Generation) (candidateKey : ReachabilityGenerationKey) :
    Outcome Generation Unit :=
  match self.candidateTransaction.filter
      (fun transaction => transaction.candidate = candidateKey) with
  | none => refused .candidateTransactionMismatch self
  | some transaction =>
    if transaction.phase ≠ .candidateLive then
      refused .candidateTransactionMismatch self
    else
      let settled :=
        match transaction.origin with
        | .forked => self.returnOwners owners transaction
        | .independent => self.clearCandidate owners transaction
      match settled with
      | (.error stop, after) => (.error stop, after)
      | (.ok (), after) => (.ok (), after.enter transaction .destinationRejectReturned)

def finishCandidateReject (self : ReachabilityStorage Generation)
    (candidateKey : ReachabilityGenerationKey) : Outcome Generation Unit :=
  match self.candidateTransaction.filter
      (fun transaction => transaction.candidate = candidateKey) with
  | none => refused .candidateTransactionMismatch self
  | some transaction =>
    if transaction.phase ≠ .destinationRejectReturned then
      refused .candidateTransactionMismatch self
    else
      (.ok (), { self with candidateTransaction := none })

/-- Reject the transaction that is open, whichever key is dropped. The results of the steps are
ignored; a panic inside them is not. -/
def dropTransaction (owners : GenerationOwners Generation)
    (self : ReachabilityStorage Generation) (transaction : CandidateTransactionSlots) :
    Outcome Generation Unit :=
  let prepared :=
    if transaction.phase = .candidateLive then
      self.prepareCandidateReject owners transaction.candidate
    else
      (.ok (), self)
  match prepared with
  | (.error .panicked, after) => panicked after
  | (_, after) => ((.ok ()), (after.finishCandidateReject transaction.candidate).2)

def dropGeneration (owners : GenerationOwners Generation)
    (self : ReachabilityStorage Generation) (key : ReachabilityGenerationKey) :
    Outcome Generation Unit :=
  match self.candidateTransaction with
  | none => (.ok (), (self.takeGeneration key).2)
  | some transaction =>
    match self.dropTransaction owners transaction with
    | (.error stop, after) => (.error stop, after)
    | (.ok (), after) => (.ok (), (after.takeGeneration key).2)

end ReachabilityStorage

end Umber.Reachability
