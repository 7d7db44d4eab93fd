import Umber.Lib.OrderedMap

/-! The canonical lifecycle of semantic resource keys: requests are outstanding until
they are admitted to a value or bound to their absence. -/

set_option autoImplicit false

namespace Umber.Vfs

open OrderedMap

inductive RequestIntent where
  | prefetchHint
  | probe
  | required
deriving Ord

def RequestIntent.isBlocking : RequestIntent → Bool
  | .prefetchHint => false
  | .probe | .required => true

inductive AdmissionState (ν : Type) where
  | outstanding (intent : RequestIntent)
  | admitted (value : ν)
  | unavailable

inductive AdmissionError (κ : Type) where
  | unexpected (key : κ)
  | availabilityConflict (key : κ)
  | bindingConflict (key : κ)
  | negativeHint (key : κ)

namespace AdmissionState

variable {ν : Type}

def isOutstanding : AdmissionState ν → Bool
  | .outstanding _ => true
  | .admitted _ | .unavailable => false

/-- What an immutable binding holds: a value, or nothing for an absence. -/
def binding : AdmissionState ν → Option (Option ν)
  | .outstanding _ => none
  | .admitted value => some (some value)
  | .unavailable => some none

def bindings (state : AdmissionState ν) : Nat :=
  if state.isOutstanding = true then 0 else 1

end AdmissionState

structure ResourceLifecycle (κ ν : Type) where
  states : OrderedMap κ (AdmissionState ν)

namespace ResourceLifecycle

variable {κ ν : Type} [DecidableEq κ] [Ord κ]

def empty : ResourceLifecycle κ ν :=
  ⟨.empty⟩

def cancelOutstanding (lifecycle : ResourceLifecycle κ ν) : ResourceLifecycle κ ν :=
  ⟨lifecycle.states.retain fun _ state => !state.isOutstanding⟩

def promote (intent : RequestIntent) (lifecycle : ResourceLifecycle κ ν) (key : κ) :
    ResourceLifecycle κ ν :=
  match lifecycle.states.get? key with
  | none => ⟨lifecycle.states.insert key (.outstanding intent)⟩
  | some (.outstanding existing) =>
    if compare existing intent = .lt then ⟨lifecycle.states.insert key (.outstanding intent)⟩
    else lifecycle
  | some (.admitted _) | some .unavailable => lifecycle

def beginBatch (lifecycle : ResourceLifecycle κ ν) (required probes hints : List κ) :
    ResourceLifecycle κ ν :=
  let hinted := hints.foldl (promote .prefetchHint) lifecycle.cancelOutstanding
  let probed := probes.foldl (promote .probe) hinted
  required.foldl (promote .required) probed

def authorizeHint (lifecycle : ResourceLifecycle κ ν) (key : κ) : ResourceLifecycle κ ν :=
  match lifecycle.states.get? key with
  | none => ⟨lifecycle.states.insert key (.outstanding .prefetchHint)⟩
  | some _ => lifecycle

def authorizeHints (lifecycle : ResourceLifecycle κ ν) (keys : List κ) : ResourceLifecycle κ ν :=
  keys.foldl authorizeHint lifecycle

def authorizeBlocking (lifecycle : ResourceLifecycle κ ν) (key : κ) (intent : RequestIntent) :
    ResourceLifecycle κ ν :=
  promote intent lifecycle key

def admit_ [DecidableEq ν] (lifecycle : ResourceLifecycle κ ν) (key : κ) (value : ν) :
    ResourceLifecycle κ ν × Except (AdmissionError κ) Bool :=
  match lifecycle.states.get? key with
  | some (.outstanding _) => (⟨lifecycle.states.insert key (.admitted value)⟩, .ok true)
  | some (.admitted existing) =>
    if existing = value then (lifecycle, .ok false)
    else (lifecycle, .error (.bindingConflict key))
  | some .unavailable => (lifecycle, .error (.availabilityConflict key))
  | none => (lifecycle, .error (.unexpected key))

def admitUnavailable (lifecycle : ResourceLifecycle κ ν) (key : κ) :
    ResourceLifecycle κ ν × Except (AdmissionError κ) Bool :=
  match lifecycle.states.get? key with
  | some (.outstanding intent) =>
    if intent.isBlocking = true then
      (⟨lifecycle.states.insert key .unavailable⟩, .ok true)
    else (lifecycle, .error (.negativeHint key))
  | some .unavailable => (lifecycle, .ok false)
  | some (.admitted _) => (lifecycle, .error (.availabilityConflict key))
  | none => (lifecycle, .error (.unexpected key))

def restore [DecidableEq ν] (lifecycle : ResourceLifecycle κ ν) (key : κ) (value : ν) :
    ResourceLifecycle κ ν × Except (AdmissionError κ) Bool :=
  match lifecycle.states.get? key with
  | some (.admitted existing) =>
    if existing = value then (lifecycle, .ok false)
    else (lifecycle, .error (.bindingConflict key))
  | some .unavailable => (lifecycle, .error (.availabilityConflict key))
  | some (.outstanding _) | none =>
    (⟨lifecycle.states.insert key (.admitted value)⟩, .ok true)

def admitted (lifecycle : ResourceLifecycle κ ν) (key : κ) : Option ν :=
  match lifecycle.states.get? key with
  | some (.admitted value) => some value
  | _ => none

def isUnavailable (lifecycle : ResourceLifecycle κ ν) (key : κ) : Bool :=
  match lifecycle.states.get? key with
  | some .unavailable => true
  | _ => false

def isBound (lifecycle : ResourceLifecycle κ ν) (key : κ) : Bool :=
  match lifecycle.states.get? key with
  | some (.admitted _) | some .unavailable => true
  | _ => false

def isOutstanding (lifecycle : ResourceLifecycle κ ν) (key : κ) : Bool :=
  match lifecycle.states.get? key with
  | some (.outstanding _) => true
  | _ => false

def outstanding (lifecycle : ResourceLifecycle κ ν) : List (κ × RequestIntent) :=
  lifecycle.states.entries.filterMap fun entry =>
    match entry.2 with
    | .outstanding intent => some (entry.1, intent)
    | .admitted _ | .unavailable => none

def admittedEntries (lifecycle : ResourceLifecycle κ ν) : List (κ × ν) :=
  lifecycle.states.entries.filterMap fun entry =>
    match entry.2 with
    | .admitted value => some (entry.1, value)
    | .outstanding _ | .unavailable => none

def unavailableKeys (lifecycle : ResourceLifecycle κ ν) : List κ :=
  lifecycle.states.entries.filterMap fun entry =>
    match entry.2 with
    | .unavailable => some entry.1
    | .outstanding _ | .admitted _ => none

def bindingCount (lifecycle : ResourceLifecycle κ ν) : Nat :=
  lifecycle.states.total AdmissionState.bindings

def bound (lifecycle : ResourceLifecycle κ ν) (key : κ) : Option (Option ν) :=
  (lifecycle.states.get? key).bind AdmissionState.binding

variable {lifecycle : ResourceLifecycle κ ν} {key : κ} {value : ν}

omit [Ord κ] in
theorem admitted_iff : lifecycle.admitted key = some value ↔
    lifecycle.bound key = some (some value) := by
  unfold admitted bound
  cases lifecycle.states.get? key with
  | none => simp
  | some state => cases state <;> simp [AdmissionState.binding]

omit [Ord κ] in
theorem isUnavailable_iff : lifecycle.isUnavailable key = true ↔
    lifecycle.bound key = some none := by
  unfold isUnavailable bound
  cases lifecycle.states.get? key with
  | none => simp
  | some state => cases state <;> simp [AdmissionState.binding]

omit [Ord κ] in
theorem isBound_iff : lifecycle.isBound key = true ↔ lifecycle.bound key ≠ none := by
  unfold isBound bound
  cases lifecycle.states.get? key with
  | none => simp
  | some state => cases state <;> simp [AdmissionState.binding]

omit [Ord κ] in
theorem bound_eq_none_of (unadmitted : lifecycle.admitted key = none)
    (available : lifecycle.isUnavailable key = false) : lifecycle.bound key = none := by
  unfold admitted at unadmitted
  unfold isUnavailable at available
  unfold bound
  cases found : lifecycle.states.get? key with
  | none => rfl
  | some state => ?_
  rw [found] at unadmitted available
  cases state with
  | outstanding intent => rfl
  | admitted value => cases unadmitted
  | unavailable => cases available

omit [Ord κ] in
theorem mem_admittedEntries : (key, value) ∈ lifecycle.admittedEntries ↔
    lifecycle.admitted key = some value := by
  unfold admittedEntries admitted
  rw [List.mem_filterMap]
  constructor
  · rintro ⟨⟨other, state⟩, member, mapped⟩
    cases state with
    | outstanding intent => cases mapped
    | unavailable => cases mapped
    | admitted stored =>
      cases mapped
      rw [get?_eq_some_iff.mpr member]
  intro found
  cases state : lifecycle.states.get? key with
  | none =>
    rw [state] at found
    cases found
  | some held => ?_
  rw [state] at found
  cases held with
  | outstanding intent => cases found
  | unavailable => cases found
  | admitted stored =>
    cases found
    exact ⟨(key, .admitted value), get?_eq_some_iff.mp state, rfl⟩

omit [Ord κ] in
theorem mem_unavailableKeys : key ∈ lifecycle.unavailableKeys ↔
    lifecycle.isUnavailable key = true := by
  unfold unavailableKeys isUnavailable
  rw [List.mem_filterMap]
  constructor
  · rintro ⟨⟨other, state⟩, member, mapped⟩
    cases state with
    | outstanding intent => cases mapped
    | admitted stored => cases mapped
    | unavailable =>
      cases mapped
      rw [get?_eq_some_iff.mpr member]
  intro found
  cases state : lifecycle.states.get? key with
  | none =>
    rw [state] at found
    cases found
  | some held => ?_
  rw [state] at found
  cases held with
  | outstanding intent => cases found
  | admitted stored => cases found
  | unavailable => exact ⟨(key, .unavailable), get?_eq_some_iff.mp state, rfl⟩

structure SameBindings (before after : ResourceLifecycle κ ν) : Prop where
  bound : ∀ key, after.bound key = before.bound key
  count : after.bindingCount = before.bindingCount

namespace SameBindings

variable {before middle after : ResourceLifecycle κ ν}

omit [Ord κ] in
theorem refl (lifecycle : ResourceLifecycle κ ν) : SameBindings lifecycle lifecycle :=
  ⟨fun _ => rfl, rfl⟩

omit [Ord κ] in
theorem trans (first : SameBindings before middle) (second : SameBindings middle after) :
    SameBindings before after :=
  ⟨fun key => (second.bound key).trans (first.bound key), second.count.trans first.count⟩

omit [Ord κ] in
theorem foldl {operation : ResourceLifecycle κ ν → κ → ResourceLifecycle κ ν}
    (keeps : ∀ lifecycle key, SameBindings lifecycle (operation lifecycle key))
    (keys : List κ) (lifecycle : ResourceLifecycle κ ν) :
    SameBindings lifecycle (keys.foldl operation lifecycle) := by
  induction keys generalizing lifecycle with
  | nil => exact .refl lifecycle
  | cons key rest ih => exact (keeps lifecycle key).trans (ih (operation lifecycle key))

end SameBindings

theorem bound_insert_self (state : AdmissionState ν) :
    (⟨lifecycle.states.insert key state⟩ : ResourceLifecycle κ ν).bound key = state.binding := by
  unfold bound
  rw [get?_insert_self]
  rfl

theorem bound_insert_other {other : κ} (state : AdmissionState ν) (apart : key ≠ other) :
    (⟨lifecycle.states.insert key state⟩ : ResourceLifecycle κ ν).bound other =
      lifecycle.bound other := by
  unfold bound
  rw [get?_insert_other _ _ apart]

/-- A request placed over no binding adds the bindings of its new state. -/
theorem bindingCount_insert (state : AdmissionState ν) (unbound : lifecycle.bound key = none) :
    (⟨lifecycle.states.insert key state⟩ : ResourceLifecycle κ ν).bindingCount =
      lifecycle.bindingCount + state.bindings := by
  unfold bound at unbound
  unfold bindingCount
  cases found : lifecycle.states.get? key with
  | none => exact total_insert_fresh AdmissionState.bindings state found
  | some held => ?_
  rw [found] at unbound
  have replaced := total_insert_replaced AdmissionState.bindings state found
  cases held with
  | outstanding intent => exact replaced
  | admitted stored => cases unbound
  | unavailable => cases unbound

theorem sameBindings_insert_outstanding (intent : RequestIntent)
    (unbound : lifecycle.bound key = none) :
    SameBindings lifecycle ⟨lifecycle.states.insert key (.outstanding intent)⟩ := by
  constructor
  · intro other
    by_cases same : key = other
    · subst same
      rw [bound_insert_self, unbound]
      rfl
    · exact bound_insert_other _ same
  · exact bindingCount_insert (.outstanding intent) unbound

theorem promote_sameBindings (intent : RequestIntent) (lifecycle : ResourceLifecycle κ ν)
    (key : κ) : SameBindings lifecycle (promote intent lifecycle key) := by
  unfold promote
  split
  next absent =>
    apply sameBindings_insert_outstanding
    unfold bound
    rw [absent]
    rfl
  next existing found =>
    split
    · apply sameBindings_insert_outstanding
      unfold bound
      rw [found]
      rfl
    · exact .refl lifecycle
  next => exact .refl lifecycle
  next => exact .refl lifecycle

theorem authorizeHint_sameBindings (lifecycle : ResourceLifecycle κ ν) (key : κ) :
    SameBindings lifecycle (lifecycle.authorizeHint key) := by
  unfold authorizeHint
  split
  next absent =>
    apply sameBindings_insert_outstanding
    unfold bound
    rw [absent]
    rfl
  next => exact .refl lifecycle

omit [DecidableEq κ] [Ord κ] in
theorem sumOf_cancel (entries : List (κ × AdmissionState ν)) :
    sumOf AdmissionState.bindings (entries.filter fun entry => !entry.2.isOutstanding) =
      sumOf AdmissionState.bindings entries := by
  induction entries with
  | nil => rfl
  | cons entry rest ih => ?_
  obtain ⟨key, state⟩ := entry
  cases state with
  | outstanding intent => exact ih.trans (Nat.zero_add _).symm
  | admitted value => exact congrArg (1 + ·) ih
  | unavailable => exact congrArg (1 + ·) ih

omit [Ord κ] in
theorem cancelOutstanding_sameBindings (lifecycle : ResourceLifecycle κ ν) :
    SameBindings lifecycle lifecycle.cancelOutstanding := by
  constructor
  · intro key
    unfold cancelOutstanding bound
    rw [get?_retain]
    cases lifecycle.states.get? key with
    | none => rfl
    | some state => cases state <;> rfl
  · exact sumOf_cancel lifecycle.states.entries

theorem beginBatch_sameBindings (lifecycle : ResourceLifecycle κ ν)
    (required probes hints : List κ) :
    SameBindings lifecycle (lifecycle.beginBatch required probes hints) := by
  unfold beginBatch
  have cancelled := cancelOutstanding_sameBindings lifecycle
  have hinted := SameBindings.foldl (promote_sameBindings .prefetchHint) hints
    lifecycle.cancelOutstanding
  have probed := SameBindings.foldl (promote_sameBindings .probe) probes
    (hints.foldl (promote .prefetchHint) lifecycle.cancelOutstanding)
  have demanded := SameBindings.foldl (promote_sameBindings .required) required
    (probes.foldl (promote .probe)
      (hints.foldl (promote .prefetchHint) lifecycle.cancelOutstanding))
  exact ((cancelled.trans hinted).trans probed).trans demanded

theorem authorizeHints_sameBindings (lifecycle : ResourceLifecycle κ ν) (keys : List κ) :
    SameBindings lifecycle (lifecycle.authorizeHints keys) :=
  SameBindings.foldl authorizeHint_sameBindings keys lifecycle

theorem admit_of_isOutstanding [DecidableEq ν] (value : ν)
    (outstanding : lifecycle.isOutstanding key = true) :
    lifecycle.admit_ key value = (⟨lifecycle.states.insert key (.admitted value)⟩, .ok true) := by
  unfold isOutstanding at outstanding
  unfold admit_
  cases found : lifecycle.states.get? key with
  | none =>
    rw [found] at outstanding
    cases outstanding
  | some state => ?_
  rw [found] at outstanding
  cases state with
  | outstanding intent => rfl
  | admitted stored => cases outstanding
  | unavailable => cases outstanding

theorem restore_of_unbound [DecidableEq ν] (value : ν) (unbound : lifecycle.bound key = none) :
    lifecycle.restore key value = (⟨lifecycle.states.insert key (.admitted value)⟩, .ok true) := by
  unfold bound at unbound
  unfold restore
  cases found : lifecycle.states.get? key with
  | none => rfl
  | some state => ?_
  rw [found] at unbound
  cases state with
  | outstanding intent => rfl
  | admitted stored => cases unbound
  | unavailable => cases unbound

end ResourceLifecycle

end Umber.Vfs
