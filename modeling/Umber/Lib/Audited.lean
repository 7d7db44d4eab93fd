/-! Computations that record every check they make, and the programs that keep
only a flag for a failed one. -/

set_option autoImplicit false

structure Audited (χ α : Type) where
  value : α
  checks : List χ

namespace Audited

variable {χ α β γ δ : Type}

instance : Monad (Audited χ) where
  pure value := ⟨value, []⟩
  bind audited next :=
    ⟨(next audited.value).value, audited.checks ++ (next audited.value).checks⟩

def failed (passes : χ → Bool) (audited : Audited χ α) : Bool :=
  audited.checks.any fun check => !passes check

variable {passes : χ → Bool}

@[simp] theorem value_pure (value : α) : (pure value : Audited χ α).value = value := rfl

@[simp] theorem value_bind (audited : Audited χ α) (next : α → Audited χ β) :
    (audited >>= next).value = (next audited.value).value := rfl

@[simp] theorem failed_pure (value : α) : (pure value : Audited χ α).failed passes = false := rfl

@[simp] theorem failed_bind (audited : Audited χ α) (next : α → Audited χ β) :
    (audited >>= next).failed passes =
      (audited.failed passes || (next audited.value).failed passes) :=
  List.any_append

theorem failed_iff (audited : Audited χ α) :
    audited.failed passes = true ↔ ∃ check ∈ audited.checks, passes check = false := by
  unfold failed
  simp

/-- The program computes the value, and raises its flag when a check fails. -/
def Realises (passes : χ → Bool) (present : α → β) (program : StateT Bool Option β)
    (audited : Audited χ α) : Prop :=
  ∀ flag, program.run flag = some (present audited.value, flag || audited.failed passes)

theorem Realises.pure {present : α → β} (value : α) :
    Realises passes present (Pure.pure (present value)) (Pure.pure value : Audited χ α) := by
  intro flag
  rw [failed_pure, Bool.or_false]
  rfl

theorem Realises.bind {present : α → β} {presentNext : γ → δ} {program : StateT Bool Option β}
    {audited : Audited χ α} {continuation : β → StateT Bool Option δ}
    {next : α → Audited χ γ} (first : Realises passes present program audited)
    (second : Realises passes presentNext (continuation (present audited.value))
      (next audited.value)) :
    Realises passes presentNext (program >>= continuation) (audited >>= next) := by
  intro flag
  rw [StateT.run_bind, first flag, failed_bind, ← Bool.or_assoc]
  exact second (flag || audited.failed passes)

theorem Realises.present {present : α → β} {program : StateT Bool Option β}
    {audited : Audited χ α} (realised : Realises passes present program audited) (view : β → δ) :
    Realises passes (fun value => view (present value))
      (program >>= fun value => Pure.pure (view value)) audited := by
  intro flag
  rw [StateT.run_bind, realised flag]
  rfl

end Audited
