/-! Computations over a state that look at limits, and those among them whose limits do not
matter as long as the state they end in stays within them. -/

set_option autoImplicit false

def Metered (Limits State α : Type) : Type :=
  Limits → State → α × State

namespace Metered

variable {Limits State Inner α β : Type}

instance : Monad (Metered Limits State) where
  pure value := fun _ state => (value, state)
  bind first next := fun limits state =>
    match first limits state with
    | (value, after) => next value limits after

def read (view : State → α) : Metered Limits State α :=
  fun _ state => (view state, state)

def modify (change : State → State) : Metered Limits State Unit :=
  fun _ state => ((), change state)

def branch (exceeded : Limits → State → Bool) (beyond within : Metered Limits State α) :
    Metered Limits State α :=
  fun limits state => if exceeded limits state = true then beyond limits state else within limits state

def zoom (get : State → Inner) (set : State → Inner → State) (inner : Metered Limits Inner α) :
    Metered Limits State α :=
  fun limits state =>
    match inner limits (get state) with
    | (value, after) => (value, set state after)

/-! ## Courses -/

structure Course (State : Type) where
  leads : State → State → Prop
  refl : ∀ state, leads state state
  trans : ∀ {first next last}, leads first next → leads next last → leads first last

def Keeps (course : Course State) (computation : Metered Limits State α) : Prop :=
  ∀ limits state, course.leads state (computation limits state).2

variable {course : Course State}

theorem bind_run (first : Metered Limits State α) (next : α → Metered Limits State β)
    (limits : Limits) (state : State) :
    (first >>= next) limits state = next (first limits state).1 limits (first limits state).2 :=
  rfl

theorem ite_run {test : Prop} [Decidable test] (first second : Metered Limits State α)
    (limits : Limits) (state : State) : (if test then first else second) limits state =
      if test then first limits state else second limits state := by
  by_cases holds : test
  · rw [if_pos holds, if_pos holds]
  · rw [if_neg holds, if_neg holds]

theorem Keeps.pure (value : α) : Keeps course (pure value : Metered Limits State α) :=
  fun _ state => course.refl state

theorem Keeps.weaken {weaker : Course State} {computation : Metered Limits State α}
    (leads : ∀ {first next}, course.leads first next → weaker.leads first next)
    (keeps : Keeps course computation) : Keeps weaker computation :=
  fun limits state => leads (keeps limits state)

theorem Keeps.read (view : State → α) : Keeps course (Metered.read view : Metered Limits State α) :=
  fun _ state => course.refl state

theorem Keeps.modify {change : State → State} (leads : ∀ state, course.leads state (change state)) :
    Keeps course (Metered.modify change : Metered Limits State Unit) :=
  fun _ state => leads state

theorem Keeps.bind {first : Metered Limits State α} {next : α → Metered Limits State β}
    (firstKeeps : Keeps course first) (nextKeeps : ∀ value, Keeps course (next value)) :
    Keeps course (first >>= next) :=
  fun limits state => course.trans (firstKeeps limits state) (nextKeeps _ limits _)

theorem Keeps.branch {exceeded : Limits → State → Bool}
    {beyond within : Metered Limits State α} (beyondKeeps : Keeps course beyond)
    (withinKeeps : Keeps course within) : Keeps course (branch exceeded beyond within) := by
  intro limits state
  unfold Metered.branch
  by_cases exceeds : exceeded limits state = true
  · rw [if_pos exceeds]
    exact beyondKeeps limits state
  rw [if_neg exceeds]
  exact withinKeeps limits state

theorem Keeps.ite {test : Prop} [Decidable test] {first second : Metered Limits State α}
    (firstKeeps : Keeps course first) (secondKeeps : Keeps course second) :
    Keeps course (if test then first else second) := by
  by_cases holds : test
  · rw [if_pos holds]
    exact firstKeeps
  rw [if_neg holds]
  exact secondKeeps

theorem Keeps.zoom {inside : Course Inner} {get : State → Inner} {set : State → Inner → State}
    {computation : Metered Limits Inner α} (keeps : Keeps inside computation)
    (leads : ∀ state after, inside.leads (get state) after → course.leads state (set state after)) :
    Keeps course (Metered.zoom get set computation) :=
  fun limits state => leads state _ (keeps limits (get state))

end Metered
