/-! Ledgers: events that open and close the entries of owners, each of them once. -/

set_option autoImplicit false

namespace Ledger

variable {ε ω : Type} [DecidableEq ω]

def history (owner : ε → ω) (events : List ε) (held : ω) : List ε :=
  events.filter fun event => owner event = held

section History

variable {owner : ε → ω} {events more : List ε} {event : ε} {held : ω}

theorem history_append :
    history owner (events ++ more) held = history owner events held ++ history owner more held :=
  List.filter_append ..

theorem history_eq_nil : history owner events held = [] ↔ held ∉ events.map owner := by
  unfold history
  rw [List.filter_eq_nil_iff]
  constructor
  · intro apart member
    obtain ⟨event, listed, same⟩ := List.mem_map.mp member
    exact apart event listed (decide_eq_true same)
  intro absent event listed same
  exact absent (List.mem_map.mpr ⟨event, listed, of_decide_eq_true same⟩)

theorem history_concat_self (same : owner event = held) :
    history owner (events ++ [event]) held = history owner events held ++ [event] := by
  rw [history_append]
  congr 1
  exact List.filter_cons_of_pos (decide_eq_true same)

theorem history_concat_other (apart : owner event ≠ held) :
    history owner (events ++ [event]) held = history owner events held := by
  have none_ : history owner [event] held = [] :=
    history_eq_nil.mpr fun member => apart (List.mem_singleton.mp member).symm
  rw [history_append, none_, List.append_nil]

end History

structure Kept (owner : ε → ω) (opens : ε → Bool) (events : List ε) (live : ω → Prop) : Prop where
  opened : ∀ held, live held → (history owner events held).map opens = [true]
  others : ∀ held, ¬ live held →
    history owner events held = [] ∨ (history owner events held).map opens = [true, false]

namespace Kept

variable {owner : ε → ω} {opens : ε → Bool} {events more : List ε} {live other : ω → Prop}
  {event : ε}

theorem nil : Kept owner opens [] fun _ => False :=
  ⟨fun _ absurd_ => absurd_.elim, fun _ _ => .inl rfl⟩

variable (kept : Kept owner opens events live)
include kept

theorem congr (same : ∀ held, live held ↔ other held) : Kept owner opens events other :=
  ⟨fun held member => kept.opened held ((same held).mpr member),
    fun held absent => kept.others held fun member => absent ((same held).mp member)⟩

theorem open_
    (fresh : history owner events (owner event) = []) (opening : opens event = true) :
    Kept owner opens (events ++ [event]) fun held => live held ∨ held = owner event := by
  constructor
  · intro held member
    by_cases same : owner event = held
    · subst same
      rw [history_concat_self rfl, fresh]
      exact congrArg (fun first => [first]) opening
    rw [history_concat_other same]
    exact kept.opened held (member.resolve_right fun equal => same equal.symm)
  intro held absent
  rw [history_concat_other fun same => absent (.inr same.symm)]
  exact kept.others held fun member => absent (.inl member)

theorem close (member : live (owner event))
    (closing : opens event = false) :
    Kept owner opens (events ++ [event]) fun held => live held ∧ held ≠ owner event := by
  constructor
  · intro held both
    rw [history_concat_other fun same => both.2 same.symm]
    exact kept.opened held both.1
  intro held absent
  by_cases same : owner event = held
  · subst same
    rw [history_concat_self rfl, List.map_append, kept.opened _ member]
    exact .inr (congrArg (fun last => [true, last]) closing)
  rw [history_concat_other same]
  exact kept.others held fun alive => absent ⟨alive, fun equal => same equal.symm⟩

theorem openAll (distinct : (more.map owner).Nodup)
    (fresh : ∀ event ∈ more, history owner events (owner event) = [])
    (opening : ∀ event ∈ more, opens event = true) :
    Kept owner opens (events ++ more) fun held => live held ∨ held ∈ more.map owner := by
  induction more generalizing events live with
  | nil =>
    rw [List.append_nil]
    exact kept.congr fun held => ⟨.inl, fun either => either.resolve_right List.not_mem_nil⟩
  | cons first rest ih => ?_
  obtain ⟨apart, distinct⟩ := List.nodup_cons.mp distinct
  have opened := kept.open_ (fresh first List.mem_cons_self) (opening first List.mem_cons_self)
  have later : ∀ event ∈ rest, history owner (events ++ [first]) (owner event) = [] := by
    intro event member
    rw [history_concat_other]
    · exact fresh event (List.mem_cons_of_mem _ member)
    intro same
    rw [same] at apart
    exact apart (List.mem_map_of_mem member)
  have all := ih opened distinct later fun event member =>
    opening event (List.mem_cons_of_mem _ member)
  rw [List.append_assoc] at all
  refine all.congr fun held => ?_
  rw [List.map_cons, List.mem_cons, or_assoc]

theorem closeAll (distinct : (more.map owner).Nodup)
    (members : ∀ event ∈ more, live (owner event)) (closing : ∀ event ∈ more, opens event = false) :
    Kept owner opens (events ++ more) fun held => live held ∧ held ∉ more.map owner := by
  induction more generalizing events live with
  | nil =>
    rw [List.append_nil]
    exact kept.congr fun held => ⟨fun alive => ⟨alive, List.not_mem_nil⟩, And.left⟩
  | cons first rest ih => ?_
  obtain ⟨apart, distinct⟩ := List.nodup_cons.mp distinct
  have closed := kept.close (members first List.mem_cons_self) (closing first List.mem_cons_self)
  have later : ∀ event ∈ rest, live (owner event) ∧ owner event ≠ owner first := by
    intro event member
    refine ⟨members event (List.mem_cons_of_mem _ member), fun same => ?_⟩
    rw [← same] at apart
    exact apart (List.mem_map_of_mem member)
  have all := ih closed distinct later fun event member =>
    closing event (List.mem_cons_of_mem _ member)
  rw [List.append_assoc] at all
  refine all.congr fun held => ?_
  rw [List.map_cons, List.mem_cons, not_or, and_assoc]

end Kept

end Ledger
