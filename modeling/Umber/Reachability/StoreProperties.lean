import Umber.Reachability.Store

/-! What the slots of a store hold and what each operation does to the generations that keys
name. -/

set_option autoImplicit false

namespace Umber.Reachability

variable {Generation : Type}

namespace ReachabilityStorage

structure Coherent (storage : ReachabilityStorage Generation) : Prop where
  apart : ∀ transaction, storage.candidateTransaction = some transaction →
    transaction.source.slot ≠ transaction.candidate.slot
  source : ∀ transaction, storage.candidateTransaction = some transaction →
    (storage.generation transaction.source).isSome
  candidate : ∀ transaction, storage.candidateTransaction = some transaction →
    (storage.generation transaction.candidate).isSome
  rewound : ∀ transaction, storage.candidateTransaction = some transaction →
    transaction.phase ≠ .acceptedRewound

variable {self : ReachabilityStorage Generation} {key : ReachabilityGenerationKey}

theorem generation_of_held_none (free : self.held key.slot = none) :
    self.generation key = none := by
  unfold held at free
  unfold generation
  cases found : self.slots[key.slot]? with
  | none => rfl
  | some slot =>
    rw [found] at free
    exact ite_eq_right_iff.mpr fun _ => free

variable {value : Generation}

/-- A key that names a generation names the slot it is held in, and its serial. -/
theorem slot_of_generation (named : self.generation key = some value) :
    self.slots[key.slot]? = some { serial := key.serial, generation := some value } := by
  unfold generation at named
  cases found : self.slots[key.slot]? with
  | none =>
    rw [found] at named
    cases named
  | some slot => ?_
  rw [found] at named
  obtain ⟨same, content⟩ := Option.ite_none_right_eq_some.mp named
  rw [← same, ← content]

theorem held_of_generation (named : self.generation key = some value) :
    self.held key.slot = some value := by
  rw [held, slot_of_generation named]
  rfl

theorem slot_lt_of_generation (named : (self.generation key).isSome) : key.slot < 2 := by
  obtain ⟨value, content⟩ := Option.isSome_iff_exists.mp named
  exact (Vector.getElem?_eq_some_iff.mp (slot_of_generation content)).1

/-- Two keys that name generations in one slot are one key. -/
theorem key_unique {first second : ReachabilityGenerationKey}
    (firstNamed : (self.generation first).isSome) (secondNamed : (self.generation second).isSome)
    (same : first.slot = second.slot) : first = second := by
  obtain ⟨value, content⟩ := Option.isSome_iff_exists.mp firstNamed
  obtain ⟨other, otherContent⟩ := Option.isSome_iff_exists.mp secondNamed
  have here := slot_of_generation content
  have there := slot_of_generation otherContent
  rw [same, there] at here
  cases first
  cases second
  cases here
  cases same
  rfl

/-- A slot that a key names keeps its serial when it is filled. -/
theorem generation_fill (named : (self.generation key).isSome) (content : Option Generation)
    (other : ReachabilityGenerationKey) : (self.fill key.slot content).generation other =
      if other = key then content else self.generation other := by
  obtain ⟨value, present⟩ := Option.isSome_iff_exists.mp named
  have slot := slot_of_generation present
  have inside := slot_lt_of_generation named
  unfold fill
  rw [slot]
  dsimp only
  by_cases same : key.slot = other.slot
  · have here : self.generation other =
        if key.serial = other.serial then some value else none := by
      unfold generation
      rw [← same, slot]
    rw [here]
    unfold generation
    dsimp only
    rw [← same, Vector.getElem?_setIfInBounds_self_of_lt inside]
    dsimp only
    by_cases serial : key.serial = other.serial
    · have equal : other = key := by
        cases key
        cases other
        cases same
        cases serial
        rfl
      rw [if_pos serial, if_pos equal]
    have different : other ≠ key := fun equal => serial (by rw [equal])
    rw [if_neg serial, if_neg different, if_neg serial]
  have different : other ≠ key := fun equal => same (by rw [equal])
  rw [if_neg different]
  unfold generation
  dsimp only
  rw [Vector.getElem?_setIfInBounds_ne same]

theorem held_fill (named : (self.generation key).isSome) (content : Option Generation) :
    (self.fill key.slot content).held key.slot = content := by
  obtain ⟨value, present⟩ := Option.isSome_iff_exists.mp named
  unfold fill held
  rw [slot_of_generation present]
  dsimp only
  rw [Vector.getElem?_setIfInBounds_self_of_lt (slot_lt_of_generation named)]
  rfl

@[simp] theorem fill_candidateTransaction (self : ReachabilityStorage Generation) (slot : Nat)
    (content : Option Generation) :
    (self.fill slot content).candidateTransaction = self.candidateTransaction := by
  unfold fill
  cases self.slots[slot]? with
  | none => rfl
  | some current => rfl

@[simp] theorem fill_nextSerial (self : ReachabilityStorage Generation) (slot : Nat)
    (content : Option Generation) : (self.fill slot content).nextSerial = self.nextSerial := by
  unfold fill
  cases self.slots[slot]? with
  | none => rfl
  | some current => rfl

theorem freeSlot_spec {slot : Nat} (found : self.freeSlot = some slot) :
    slot < 2 ∧ self.held slot = none := by
  obtain ⟨inside, empty, _⟩ := List.findIdx?_eq_some_iff_getElem.mp found
  rw [Vector.length_toList] at inside
  refine ⟨inside, ?_⟩
  rw [held, Vector.getElem?_eq_getElem inside]
  exact Option.isNone_iff_eq_none.mp empty

theorem freeSlot_none : self.freeSlot = none ↔ ∀ slot, slot < 2 → (self.held slot).isSome := by
  rw [freeSlot, List.findIdx?_eq_none_iff]
  constructor
  · intro full slot inside
    have member : self.slots[slot] ∈ self.slots.toList := by simp
    rw [held, Vector.getElem?_eq_getElem inside]
    simpa using full _ member
  intro full slot member
  obtain ⟨index, inside, rfl⟩ := List.getElem_of_mem member
  rw [Vector.length_toList] at inside
  have present := full index inside
  rw [held, Vector.getElem?_eq_getElem inside] at present
  simpa using present

variable {transaction : CandidateTransactionSlots}

/-- While a transaction is open both slots are held, and only its keys are current. -/
theorem Coherent.freeSlot (coherent : self.Coherent)
    (active : self.candidateTransaction = some transaction) : self.freeSlot = none := by
  obtain ⟨source, sourceNamed⟩ := Option.isSome_iff_exists.mp (coherent.source _ active)
  obtain ⟨candidate, candidateNamed⟩ := Option.isSome_iff_exists.mp (coherent.candidate _ active)
  have sourceInside := slot_lt_of_generation (coherent.source _ active)
  have candidateInside := slot_lt_of_generation (coherent.candidate _ active)
  have apart := coherent.apart _ active
  refine freeSlot_none.mpr fun slot inside => ?_
  have either : slot = transaction.source.slot ∨ slot = transaction.candidate.slot := by omega
  rcases either with rfl | rfl
  · rw [held_of_generation sourceNamed]
    rfl
  rw [held_of_generation candidateNamed]
  rfl

theorem Coherent.key_of_current (coherent : self.Coherent)
    (active : self.candidateTransaction = some transaction) (current : (self.generation key).isSome) :
     key = transaction.source ∨ key = transaction.candidate := by
  have inside := slot_lt_of_generation current
  have sourceInside := slot_lt_of_generation (coherent.source _ active)
  have candidateInside := slot_lt_of_generation (coherent.candidate _ active)
  have apart := coherent.apart _ active
  have either : key.slot = transaction.source.slot ∨ key.slot = transaction.candidate.slot := by
    omega
  rcases either with same | same
  · exact .inl (key_unique current (coherent.source _ active) same)
  · exact .inr (key_unique current (coherent.candidate _ active) same)

theorem Coherent.source_ne_candidate (coherent : self.Coherent)
    (active : self.candidateTransaction = some transaction) :
    transaction.source ≠ transaction.candidate :=
  fun same => coherent.apart _ active (by rw [same])

theorem Coherent.idle (closed : self.candidateTransaction = none) : self.Coherent := by
  constructor
  all_goals
    intro transaction active
    rw [closed] at active
    cases active

/-- A storage whose transaction is one of another storage, perhaps in another phase, and still
stands between two generations. -/
theorem Coherent.follow {before after : ReachabilityStorage Generation} (coherent : before.Coherent)
    {next : CandidateTransactionSlots} (active : before.candidateTransaction = some transaction)
    (then_ : after.candidateTransaction = some next) (source : next.source = transaction.source)
    (candidate : next.candidate = transaction.candidate) (phase : next.phase ≠ .acceptedRewound)
    (sourceNamed : (after.generation transaction.source).isSome)
    (candidateNamed : (after.generation transaction.candidate).isSome) : after.Coherent := by
  constructor
  · intro other found
    rw [then_] at found
    cases found
    rw [source, candidate]
    exact coherent.apart _ active
  · intro other found
    rw [then_] at found
    cases found
    rw [source]
    exact sourceNamed
  · intro other found
    rw [then_] at found
    cases found
    rw [candidate]
    exact candidateNamed
  intro other found
  rw [then_] at found
  cases found
  exact phase

inductive Insertion (before : ReachabilityStorage Generation) (value : Generation) :
    Outcome Generation ReachabilityGenerationKey → Prop
  | full : before.freeSlot = none → Insertion before value (refused .generationSlotsExhausted before)
  | exhausted : ¬ before.nextSerial + 1 < UInt64.size →
      Insertion before value (refused .generationIdentityExhausted before)
  | inserted {key : ReachabilityGenerationKey} {after : ReachabilityStorage Generation} :
      before.freeSlot = some key.slot → before.nextSerial + 1 < UInt64.size →
      key.serial = before.nextSerial → after.nextSerial = before.nextSerial + 1 →
      after.candidateTransaction = before.candidateTransaction →
      (∀ other, after.generation other =
        if other = key then some value else before.generation other) →
      Insertion before value (.ok key, after)

theorem insertGeneration_inv (self : ReachabilityStorage Generation) (value : Generation) :
    Insertion self value (self.insertGeneration value) := by
  unfold insertGeneration
  cases found : self.freeSlot with
  | none => exact .full found
  | some slot => ?_
  obtain ⟨inside, free⟩ := freeSlot_spec found
  dsimp only
  by_cases room : self.nextSerial + 1 < UInt64.size
  · rw [if_pos room]
    refine .inserted found room rfl rfl rfl fun other => ?_
    unfold generation
    dsimp only
    by_cases same : slot = other.slot
    · rw [← same, Vector.getElem?_setIfInBounds_self_of_lt inside]
      dsimp only
      have nothing : self.generation other = none :=
        generation_of_held_none (by rw [← same]; exact free)
      unfold generation at nothing
      rw [← same] at nothing
      by_cases serial : self.nextSerial = other.serial
      · have equal : other = { slot, serial := self.nextSerial } := by
          cases other
          cases same
          cases serial
          rfl
        rw [if_pos serial, if_pos equal]
      have different : other ≠ { slot, serial := self.nextSerial } :=
        fun equal => serial (by rw [equal])
      rw [if_neg serial, if_neg different, nothing]
    have different : other ≠ { slot, serial := self.nextSerial } :=
      fun equal => same (by rw [equal])
    rw [if_neg different, Vector.getElem?_setIfInBounds_ne same]
  rw [if_neg room]
  exact .exhausted room

end ReachabilityStorage

end Umber.Reachability
