import Umber.Incr.Budget
import Umber.Incr.LaneProperties
import Umber.Lib.Tally

/-! The three parallel vectors of a live history and the owners their rows
charge. -/

set_option autoImplicit false

namespace Umber.Incr

open ExceptLib

section Charges

def CheckpointRetention.chargesOf (retention : CheckpointRetention)
    (key : Nat × CheckpointOwnerFamily) : Nat :=
  retention.sharedOwners.countP fun charge => charge.key = key

def chargesOfRows (retentions : List (Option CheckpointRetention))
    (key : Nat × CheckpointOwnerFamily) : Nat :=
  ((retentions.filterMap id).flatMap CheckpointRetention.sharedOwners).countP fun charge =>
    charge.key = key

abbrev OwnersCharged (charges : List SharedOwnerRetention)
    (holders : Nat × CheckpointOwnerFamily → Nat) : Prop :=
  Tally SharedOwnerRetention.key SharedOwnerRetention.restartRoots charges holders

theorem same_owner_iff (entry : SharedOwnerRetention) (charge : CheckpointOwnerCharge) :
    (entry.owner = charge.owner ∧ entry.family = charge.family) ↔ entry.key = charge.key := by
  simp [SharedOwnerRetention.key, CheckpointOwnerCharge.key]

variable {charges : List SharedOwnerRetention} {holders : Nat × CheckpointOwnerFamily → Nat}

theorem ownersCharged_observe (charged : OwnersCharged charges holders)
    (retention : CheckpointRetention) :
    OwnersCharged (LiveHistoryState.observeSharedOwners charges retention)
      (fun key => holders key + retention.chargesOf key) := by
  unfold LiveHistoryState.observeSharedOwners CheckpointRetention.chargesOf
  simp only [same_owner_iff]
  induction retention.sharedOwners generalizing charges holders with
  | nil => exact charged.congr fun _ => rfl
  | cons charge owners ih => ?_
  simp only [List.foldl_cons]
  by_cases present : charges.any fun entry => entry.key = charge.key
  · rw [if_pos present]
    obtain ⟨entry, member, same⟩ := List.any_eq_true.mp present
    have raised := @Tally.raise _ _ _ _ _ _ _ (fun entry : SharedOwnerRetention =>
      { entry with
        bytes := max entry.bytes charge.bytes
        restartRoots := entry.restartRoots + 1 }) charge.key charged
      (fun _ => rfl) (fun _ => rfl) ⟨entry, member, by simpa using same⟩
    refine (ih raised).congr fun key => ?_
    rw [List.countP_cons]
    simp only [decide_eq_true_eq]
    omega
  rw [if_neg present]
  have entered := @Tally.enter _ _ _ _ _ _ _ charged
    { owner := charge.owner, family := charge.family, bytes := charge.bytes, restartRoots := 1 }
    rfl (by
      intro other member same
      exact present (List.any_eq_true.mpr ⟨other, member, decide_eq_true same⟩))
  refine (ih entered).congr fun key => ?_
  rw [List.countP_cons]
  simp only [decide_eq_true_eq]
  show _ = holders key + (if charge.key = key then 1 else 0) + _
  omega

theorem releaseOwner_eq_ok (charged : OwnersCharged charges holders)
    {charge : CheckpointOwnerCharge} (held : 0 < holders charge.key) :
    ∃ remaining, releaseOwner charges charge = .ok remaining ∧ OwnersCharged remaining
        (fun key => holders key - if charge.key = key then 1 else 0) := by
  refine ⟨LiveHistoryState.releaseSharedOwners charges ⟨[charge], 0⟩, ?_, ?_⟩
  · obtain ⟨entry, member, same⟩ := charged.complete charge.key held
    unfold releaseOwner
    cases found : charges.find? fun entry => entry.key = charge.key with
    | none =>
      have missing := List.find?_eq_none.mp found entry member
      simp [same] at missing
    | some first =>
      have positive := charged.positive first (List.mem_of_find?_eq_some found)
      simp [Nat.ne_of_gt positive]
  have lowered := @Tally.lower _ _ _ _ _ _ _ (fun entry : SharedOwnerRetention =>
    { entry with restartRoots := entry.restartRoots - 1 }) charge.key charged
    (fun _ => rfl) (fun _ => rfl)
  simpa only [LiveHistoryState.releaseSharedOwners, List.foldl_cons, List.foldl_nil,
    ← and_assoc, same_owner_iff, Tally.updated] using lowered

variable {retention : CheckpointRetention}

/-- The release of a charged retention finds every owner it needs. -/
theorem releaseOwners_eq_ok (charged : OwnersCharged charges holders)
    (held : ∀ key, retention.chargesOf key ≤ holders key) :
    ∃ remaining, releaseOwners charges retention = .ok remaining ∧
      OwnersCharged remaining (fun key => holders key - retention.chargesOf key) := by
  obtain ⟨owners, metadata⟩ := retention
  simp only [releaseOwners, CheckpointRetention.chargesOf] at held ⊢
  induction owners generalizing charges holders with
  | nil => exact ⟨charges, rfl, charged.congr fun _ => rfl⟩
  | cons charge owners ih => ?_
  have first : 0 < holders charge.key := by
    have enough := held charge.key
    rw [List.countP_cons_of_pos (by simp)] at enough
    omega
  obtain ⟨rest, released, restCharged⟩ := releaseOwner_eq_ok charged first
  have enough : ∀ key, owners.countP (fun charge => charge.key = key) ≤
      holders key - if charge.key = key then 1 else 0 := by
    intro key
    have bound := held key
    rw [List.countP_cons] at bound
    simp only [decide_eq_true_eq] at bound
    omega
  obtain ⟨remaining, finished, charged⟩ := ih restCharged enough
  refine ⟨remaining, ?_, charged.congr fun key => ?_⟩
  · rw [List.foldlM_cons, released]
    exact finished
  rw [List.countP_cons]
  simp only [decide_eq_true_eq]
  omega

/-- The checked release agrees with the one that ignores the panics. -/
theorem releaseOwners_agrees {remaining : List SharedOwnerRetention}
    (released : releaseOwners charges retention = .ok remaining) :
    remaining = LiveHistoryState.releaseSharedOwners charges retention := by
  obtain ⟨owners, metadata⟩ := retention
  simp only [releaseOwners] at released
  simp only [LiveHistoryState.releaseSharedOwners]
  induction owners generalizing charges with
  | nil =>
    cases released
    rfl
  | cons charge owners ih => ?_
  rw [List.foldlM_cons] at released
  obtain ⟨next, first, rest⟩ := bind_eq_ok.mp released
  have same : next = LiveHistoryState.releaseSharedOwners charges ⟨[charge], 0⟩ := by
    unfold releaseOwner at first
    split at first
    next => cases first
    split at first
    next => cases first
    next => exact (Except.ok.inj first).symm
  rw [ih rest, same]
  rfl

theorem chargesOfRows_append_none (retentions : List (Option CheckpointRetention))
    (key : Nat × CheckpointOwnerFamily) :
    chargesOfRows (retentions ++ [none]) key = chargesOfRows retentions key := by
  simp [chargesOfRows]

theorem chargesOfRows_append_some (retentions : List (Option CheckpointRetention))
    (retention : CheckpointRetention) (key : Nat × CheckpointOwnerFamily) :
    chargesOfRows (retentions ++ [some retention]) key =
      chargesOfRows retentions key + retention.chargesOf key := by
  simp [chargesOfRows, CheckpointRetention.chargesOf, List.countP_append]

theorem chargesOfRows_append (front back : List (Option CheckpointRetention))
    (key : Nat × CheckpointOwnerFamily) :
    chargesOfRows (front ++ back) key = chargesOfRows front key + chargesOfRows back key := by
  simp [chargesOfRows, List.countP_append]

theorem chargesOfRows_cons_none (retentions : List (Option CheckpointRetention))
    (key : Nat × CheckpointOwnerFamily) :
    chargesOfRows (none :: retentions) key = chargesOfRows retentions key := by
  simp [chargesOfRows]

theorem chargesOfRows_cons_some (retention : CheckpointRetention)
    (retentions : List (Option CheckpointRetention)) (key : Nat × CheckpointOwnerFamily) :
    chargesOfRows (some retention :: retentions) key =
      retention.chargesOf key + chargesOfRows retentions key := by
  simp [chargesOfRows, CheckpointRetention.chargesOf, List.countP_append]

variable {index : Nat}

theorem split_at {α : Type} {rows : List α} {value : α} (found : rows[index]? = some value) :
    rows = rows.take index ++ value :: rows.drop (index + 1) := by
  obtain ⟨bound, same⟩ := List.getElem?_eq_some_iff.mp found
  rw [← same, List.getElem_cons_drop bound, List.take_append_drop]

variable {retentions : List (Option CheckpointRetention)}

theorem chargesOfRows_set_none
    (found : retentions[index]? = some (some retention)) (key : Nat × CheckpointOwnerFamily) :
    chargesOfRows (retentions.set index none) key + retention.chargesOf key =
      chargesOfRows retentions key := by
  obtain ⟨bound, _⟩ := List.getElem?_eq_some_iff.mp found
  have whole : chargesOfRows retentions key = _ :=
    congrArg (chargesOfRows · key) (split_at found)
  rw [whole, List.set_eq_take_append_cons_drop, if_pos bound, chargesOfRows_append,
    chargesOfRows_append, chargesOfRows_cons_none, chargesOfRows_cons_some]
  omega

theorem chargesOfRows_eraseIdx_none
    (found : retentions[index]? = some none) (key : Nat × CheckpointOwnerFamily) :
    chargesOfRows (retentions.eraseIdx index) key = chargesOfRows retentions key := by
  have whole : chargesOfRows retentions key = _ :=
    congrArg (chargesOfRows · key) (split_at found)
  rw [whole, List.eraseIdx_eq_take_drop_succ, chargesOfRows_append, chargesOfRows_append,
    chargesOfRows_cons_none]

/-- No owner is charged twice by one checkpoint: its nine charges are of nine
families. -/
def CheckpointRetention.FamiliesDistinct (retention : CheckpointRetention) : Prop :=
  (retention.sharedOwners.map CheckpointOwnerCharge.family).Nodup

def rootsCharging (retentions : List (Option CheckpointRetention))
    (key : Nat × CheckpointOwnerFamily) : Nat :=
  retentions.countP fun root =>
    root.any fun retention => retention.sharedOwners.any fun charge => charge.key = key

theorem chargesOf_eq_ite (distinct : retention.FamiliesDistinct) (key : Nat × CheckpointOwnerFamily) :
     retention.chargesOf key =
      if retention.sharedOwners.any (fun charge => charge.key = key) then 1 else 0 := by
  obtain ⟨owners, metadata⟩ := retention
  simp only [CheckpointRetention.FamiliesDistinct] at distinct
  simp only [CheckpointRetention.chargesOf]
  induction owners with
  | nil => rfl
  | cons charge owners ih => ?_
  rw [List.map_cons, List.nodup_cons] at distinct
  by_cases same : charge.key = key
  · have alone : owners.countP (fun charge => charge.key = key) = 0 := by
      rw [List.countP_eq_zero]
      intro other member equal
      have family : other.family = charge.family :=
        congrArg Prod.snd ((of_decide_eq_true equal).trans same.symm)
      exact distinct.1 (family ▸ List.mem_map_of_mem member)
    simp [same, alone]
  · simpa [same] using ih distinct.2

theorem chargesOfRows_eq_rootsCharging
    (distinct : ∀ retention, some retention ∈ retentions → retention.FamiliesDistinct)
    (key : Nat × CheckpointOwnerFamily) :
    chargesOfRows retentions key = rootsCharging retentions key := by
  induction retentions with
  | nil => rfl
  | cons root retentions ih => ?_
  have rest := ih fun retention member => distinct retention (List.mem_cons_of_mem _ member)
  cases root with
  | none =>
    rw [chargesOfRows_cons_none, rest]
    simp [rootsCharging]
  | some retention => ?_
  rw [chargesOfRows_cons_some, rest, chargesOf_eq_ite (distinct retention (by simp))]
  simp only [rootsCharging, List.countP_cons, Option.any_some]
  omega

end Charges

section Rows

/-- Row `index` owns the restart root `key`; the key itself may be out. -/
def HoldsRoot (keys : List (Option Nat)) (leases : List ReplayAnchorLease) (index key : Nat) : Prop :=
  (keys[index]?).join = some key ∨ { slot := .history index, key := key } ∈ leases

structure RowsRooted {Identity Runtime : Type} (keys : List (Option Nat))
    (retentions : List (Option CheckpointRetention)) (leases : List ReplayAnchorLease)
    (lane : BoundaryLane Identity Runtime) : Prop where
  lengths : retentions.length = keys.length
  single : leases.length ≤ 1
  leased : ∀ index key, { slot := .history index, key := key } ∈ leases → keys[index]? = some none
  described : ∀ index, (retentions[index]?).join.isSome ↔ ∃ key, HoldsRoot keys leases index key
  unique : ∀ index other key, HoldsRoot keys leases index key → HoldsRoot keys leases other key →
    index = other
  live : ∀ index key, HoldsRoot keys leases index key → lane.Live key
  guarded : ∀ index key, HoldsRoot keys leases index key → lane.protectedRecord = some key →
    index = 0 ∧ ∀ lease ∈ leases, ∃ row, lease.slot = .history row

variable {Identity Runtime : Type} {keys : List (Option Nat)}
  {retentions : List (Option CheckpointRetention)} {leases : List ReplayAnchorLease}
  {lane next : BoundaryLane Identity Runtime} {α : Type}

section

variable (rows : List (Option α))
include rows

theorem join_append_single (row : Option α) (index : Nat) :
    ((rows ++ [row])[index]?).join = if index = rows.length then row else (rows[index]?).join := by
  rcases Nat.lt_trichotomy index rows.length with before | same | behind
  · rw [List.getElem?_append_left before, if_neg (Nat.ne_of_lt before)]
  · simp [same]
  rw [if_neg (Nat.ne_of_gt behind), List.getElem?_eq_none (by simp; omega),
    List.getElem?_eq_none (by omega)]

theorem join_set (row : Option α) (target index : Nat) (bound : target < rows.length) :
    ((rows.set target row)[index]?).join = if index = target then row else (rows[index]?).join := by
  by_cases same : index = target
  · subst same
    simp [bound]
  · rw [if_neg same, List.getElem?_set_ne (Ne.symm same)]

theorem join_dropLast (index : Nat) : ((rows.dropLast)[index]?).join =
      if index + 1 = rows.length then none else (rows[index]?).join := by
  rw [List.getElem?_dropLast]
  by_cases before : index < rows.length - 1
  · rw [if_pos before, if_neg (by omega)]
  rw [if_neg before]
  by_cases last : index + 1 = rows.length
  · rw [if_pos last]
    rfl
  · rw [if_neg last, List.getElem?_eq_none (by omega)]

theorem join_eraseIdx (target index : Nat) :
    ((rows.eraseIdx target)[index]?).join =
      (rows[if index < target then index else index + 1]?).join := by
  rw [List.getElem?_eraseIdx]
  split <;> rfl

end

variable {index key : Nat}

section

variable (rooted : RowsRooted keys retentions leases lane)
include rooted

theorem HoldsRoot.lt_length (holds : HoldsRoot keys leases index key) : index < keys.length := by
  rcases holds with present | out
  · cases found : keys[index]? with
    | none => simp [found] at present
    | some row => exact (List.getElem?_eq_some_iff.mp found).1
  · exact (List.getElem?_eq_some_iff.mp (rooted.leased index key out)).1

/-- A change that adds no root keeps the roots apart and guarded. -/
theorem RowsRooted.narrow {laterKeys : List (Option Nat)}
    {laterRetentions : List (Option CheckpointRetention)} {laterLeases : List ReplayAnchorLease}
    (lengths : laterRetentions.length = laterKeys.length)
    (fewer : ∀ lease ∈ laterLeases, lease ∈ leases ∨ ∃ row, lease.slot = .history row)
    (single : laterLeases.length ≤ 1)
    (leased : ∀ index key, { slot := .history index, key := key } ∈ laterLeases →
      laterKeys[index]? = some none)
    (described : ∀ index, (laterRetentions[index]?).join.isSome ↔
      ∃ key, HoldsRoot laterKeys laterLeases index key)
    (kept : ∀ index key, HoldsRoot laterKeys laterLeases index key →
      HoldsRoot keys leases index key ∧ next.Live key)
    (guard : next.protectedRecord = lane.protectedRecord) :
    RowsRooted laterKeys laterRetentions laterLeases next where
  lengths := lengths
  single := single
  leased := leased
  described := described
  unique := fun index other key left right =>
    rooted.unique index other key (kept index key left).1 (kept other key right).1
  live := fun index key holds => (kept index key holds).2
  guarded := by
    intro index key holds protects
    obtain ⟨zero, history⟩ := rooted.guarded index key (kept index key holds).1 (guard ▸ protects)
    exact ⟨zero, fun lease member => (fewer lease member).elim (history lease) id⟩

/-- A change that leaves every root with its row. -/
theorem RowsRooted.rehold {laterKeys : List (Option Nat)} {laterLeases : List ReplayAnchorLease}
    (length : laterKeys.length = keys.length)
    (fewer : ∀ lease ∈ laterLeases, lease ∈ leases ∨ ∃ row, lease.slot = .history row)
    (single : laterLeases.length ≤ 1)
    (leased : ∀ index key, { slot := .history index, key := key } ∈ laterLeases →
      laterKeys[index]? = some none)
    (holds : ∀ index key,
      HoldsRoot laterKeys laterLeases index key ↔ HoldsRoot keys leases index key) :
    RowsRooted laterKeys retentions laterLeases lane := by
  refine rooted.narrow (rooted.lengths.trans length.symm) fewer single leased ?_ ?_ rfl
  · intro index
    simp only [holds]
    exact rooted.described index
  intro index key later
  have older := (holds index key).mp later
  exact ⟨older, rooted.live index key older⟩

end

theorem holdsRoot_append_none :
    HoldsRoot (keys ++ [none]) leases index key ↔ HoldsRoot keys leases index key := by
  unfold HoldsRoot
  rw [join_append_single]
  by_cases last : index = keys.length
  · simp [last]
  · simp [last]

theorem RowsRooted.push_none (rooted : RowsRooted keys retentions leases lane)
    (stays : ∀ key, lane.Live key → next.Live key)
    (guard : ∀ key, lane.Live key → next.protectedRecord = some key →
      lane.protectedRecord = some key) :
    RowsRooted (keys ++ [none]) (retentions ++ [none]) leases next where
  lengths := by simp [rooted.lengths]
  single := rooted.single
  leased := by
    intro index key out
    have row := rooted.leased index key out
    rw [List.getElem?_append_left (List.getElem?_eq_some_iff.mp row).1]
    exact row
  described := by
    intro index
    simp only [holdsRoot_append_none]
    rw [join_append_single, ← rooted.described index]
    by_cases last : index = retentions.length
    · simp [last]
    · simp [last]
  unique := by
    intro index other key left right
    exact rooted.unique index other key (holdsRoot_append_none.mp left)
      (holdsRoot_append_none.mp right)
  live := fun index key holds => stays key (rooted.live index key (holdsRoot_append_none.mp holds))
  guarded := by
    intro index key holds protects
    have older := holdsRoot_append_none.mp holds
    exact rooted.guarded index key older (guard key (rooted.live index key older) protects)

variable {fresh : Nat}

section

variable (rooted : RowsRooted keys retentions leases lane)
include rooted

theorem holdsRoot_append_some :
    HoldsRoot (keys ++ [some fresh]) leases index key ↔
      HoldsRoot keys leases index key ∨ (index = keys.length ∧ key = fresh) := by
  unfold HoldsRoot
  rw [join_append_single]
  by_cases last : index = keys.length
  · have notOut : { slot := .history index, key := key } ∉ leases := by
      intro out
      have bound := (List.getElem?_eq_some_iff.mp (rooted.leased index key out)).1
      omega
    subst last
    simp [notOut, eq_comm]
  · simp [last]

theorem RowsRooted.push_some
    (retention : CheckpointRetention) (unheld : ∀ index, ¬ HoldsRoot keys leases index fresh)
    (alive : next.Live fresh) (stays : ∀ key, lane.Live key → next.Live key)
    (guard : ∀ key, lane.Live key → next.protectedRecord = some key →
      lane.protectedRecord = some key)
    (unguarded : next.protectedRecord = some fresh → keys = [] ∧ leases = []) :
    RowsRooted (keys ++ [some fresh]) (retentions ++ [some retention]) leases next where
  lengths := by simp [rooted.lengths]
  single := rooted.single
  leased := by
    intro index key out
    have row := rooted.leased index key out
    rw [List.getElem?_append_left (List.getElem?_eq_some_iff.mp row).1]
    exact row
  described := by
    intro index
    simp only [holdsRoot_append_some rooted]
    rw [join_append_single]
    by_cases last : index = keys.length
    · rw [if_pos (by rw [rooted.lengths]; exact last)]
      simp [last]
    rw [if_neg (by rw [rooted.lengths]; exact last)]
    simp [last, rooted.described index]
  unique := by
    intro index other key left right
    rcases (holdsRoot_append_some rooted).mp left with leftOld | ⟨leftLast, rfl⟩
    · rcases (holdsRoot_append_some rooted).mp right with rightOld | ⟨_, rfl⟩
      · exact rooted.unique index other key leftOld rightOld
      · exact absurd leftOld (unheld index)
    rcases (holdsRoot_append_some rooted).mp right with rightOld | ⟨rightLast, _⟩
    · exact absurd rightOld (unheld other)
    · omega
  live := by
    intro index key holds
    rcases (holdsRoot_append_some rooted).mp holds with older | ⟨_, rfl⟩
    · exact stays key (rooted.live index key older)
    · exact alive
  guarded := by
    intro index key holds protects
    rcases (holdsRoot_append_some rooted).mp holds with older | ⟨last, rfl⟩
    · exact rooted.guarded index key older (guard key (rooted.live index key older) protects)
    obtain ⟨rfl, rfl⟩ := unguarded protects
    exact ⟨last, nofun⟩

theorem RowsRooted.not_leased {other : Nat} (found : keys[index]? = some (some key)) :
    { slot := .history index, key := other } ∉ leases := by
  intro out
  have row := rooted.leased index other out
  rw [found] at row
  cases row

/-- The root of a row is released and its record dies. -/
theorem RowsRooted.release {index key : Nat} (found : keys[index]? = some (some key)) :
    RowsRooted (keys.set index none) (retentions.set index none) leases (lane.removeVisible key) := by
  have bound := (List.getElem?_eq_some_iff.mp found).1
  have holder : HoldsRoot keys leases index key := .inl (by rw [found]; rfl)
  have holds : ∀ other held, HoldsRoot (keys.set index none) leases other held ↔
      HoldsRoot keys leases other held ∧ other ≠ index := by
    intro other held
    unfold HoldsRoot
    rw [join_set keys none index other bound]
    by_cases same : other = index
    · subst same
      simp [rooted.not_leased found]
    · simp [same]
  refine rooted.narrow (by simp [rooted.lengths]) (fun _ => .inl) rooted.single ?_ ?_ ?_ rfl
  · intro other held out
    have row := rooted.leased other held out
    have apart : index ≠ other := by
      rintro rfl
      rw [found] at row
      cases row
    rw [List.getElem?_set_ne apart]
    exact row
  · intro other
    simp only [holds]
    rw [join_set retentions none index other (rooted.lengths ▸ bound)]
    by_cases same : other = index
    · simp [same]
    · simp [same, rooted.described other]
  intro other held later
  obtain ⟨older, apart⟩ := (holds other held).mp later
  have distinct : held ≠ key := by
    rintro rfl
    exact apart (rooted.unique other index held older holder)
  exact ⟨older, (BoundaryLane.live_removeVisible_ne distinct).mpr (rooted.live other held older)⟩

/-- The last row leaves; its root, if it has one, was released. -/
theorem RowsRooted.pop
    (kept : ∀ index key, HoldsRoot keys leases index key → index + 1 ≠ keys.length →
      next.Live key)
    (notLeased : ∀ index key, { slot := .history index, key := key } ∈ leases →
      index + 1 ≠ keys.length)
    (guard : next.protectedRecord = lane.protectedRecord) :
    RowsRooted keys.dropLast retentions.dropLast leases next := by
  have holds : ∀ index key, HoldsRoot keys.dropLast leases index key ↔
      HoldsRoot keys leases index key ∧ index + 1 ≠ keys.length := by
    intro index key
    unfold HoldsRoot
    rw [join_dropLast]
    by_cases last : index + 1 = keys.length
    · have notOut : { slot := .history index, key := key } ∉ leases :=
        fun out => notLeased index key out last
      simp [last, notOut]
    · simp [last]
  refine rooted.narrow (by simp [rooted.lengths]) (fun _ => .inl) rooted.single ?_ ?_ ?_ guard
  · intro index key out
    have row := rooted.leased index key out
    have bound := (List.getElem?_eq_some_iff.mp row).1
    have apart := notLeased index key out
    rw [List.getElem?_dropLast, if_pos (by omega)]
    exact row
  · intro index
    simp only [holds]
    rw [join_dropLast, rooted.lengths]
    by_cases last : index + 1 = keys.length
    · simp [last]
    · simp [last, rooted.described index]
  intro index key later
  obtain ⟨older, apart⟩ := (holds index key).mp later
  exact ⟨older, kept index key older apart⟩

end

/-- A row without a root is removed while no anchor is out. -/
theorem RowsRooted.remove (rooted : RowsRooted keys retentions [] lane) (index : Nat)
    (bound : index < keys.length) :
    RowsRooted (keys.eraseIdx index) (retentions.eraseIdx index) [] lane where
  lengths := by
    rw [List.length_eraseIdx_of_lt bound, List.length_eraseIdx_of_lt (rooted.lengths ▸ bound),
      rooted.lengths]
  single := Nat.zero_le _
  leased := nofun
  described := by
    intro other
    have same := rooted.described (if other < index then other else other + 1)
    simpa [HoldsRoot, join_eraseIdx] using same
  unique := by
    intro left right key leftHolds rightHolds
    simp only [HoldsRoot, join_eraseIdx, List.not_mem_nil, or_false] at leftHolds rightHolds
    have same := rooted.unique _ _ key (.inl leftHolds) (.inl rightHolds)
    split at same <;> split at same <;> omega
  live := by
    intro other key holds
    simp only [HoldsRoot, join_eraseIdx, List.not_mem_nil, or_false] at holds
    exact rooted.live _ key (.inl holds)
  guarded := by
    intro other key holds protects
    simp only [HoldsRoot, join_eraseIdx, List.not_mem_nil, or_false] at holds
    obtain ⟨zero, history⟩ := rooted.guarded _ key (.inl holds) protects
    refine ⟨?_, history⟩
    split at zero <;> omega

theorem RowsRooted.lend (rooted : RowsRooted keys retentions [] lane)
    (found : keys[index]? = some (some key)) :
    RowsRooted (keys.set index none) retentions [{ slot := .history index, key := key }] lane := by
  have bound := (List.getElem?_eq_some_iff.mp found).1
  have holds : ∀ other held,
      HoldsRoot (keys.set index none) [{ slot := .history index, key := key }] other held ↔
        HoldsRoot keys [] other held := by
    intro other held
    unfold HoldsRoot
    rw [join_set keys none index other bound]
    by_cases same : other = index
    · subst same
      simp [found, eq_comm]
    · simp [same]
  refine rooted.rehold (by simp) (fun lease member => .inr ⟨index, ?_⟩) (Nat.le_refl 1) ?_ holds
  · rw [List.mem_singleton.mp member]
  intro other held out
  cases List.mem_singleton.mp out
  simp [bound]

variable {lease : ReplayAnchorLease}

/-- An anchor that is not a row leaves while no row has a root. -/
theorem RowsRooted.lend_other (rooted : RowsRooted keys retentions [] lane)
    (other : ∀ index, lease.slot ≠ .history index)
    (bare : ∀ index : Nat, (keys[index]?).join = none) :
    RowsRooted keys retentions [lease] lane := by
  have nothing : ∀ index key, ¬ HoldsRoot keys [lease] index key := by
    intro index key holds
    rcases holds with present | out
    · rw [bare index] at present
      cases present
    cases List.mem_singleton.mp out
    exact other index rfl
  constructor
  case lengths => exact rooted.lengths
  case single => exact Nat.le_refl 1
  case leased =>
    intro index key out
    exact absurd (.inr out) (nothing index key)
  case described =>
    intro index
    rw [rooted.described index]
    apply iff_of_false
    · simp [HoldsRoot, bare index]
    rintro ⟨key, holds⟩
    exact nothing index key holds
  case unique => exact fun index _ key holds => absurd holds (nothing index key)
  case live => exact fun index key holds => absurd holds (nothing index key)
  case guarded => exact fun index key holds => absurd holds (nothing index key)

theorem RowsRooted.restore {index key : Nat}
    (rooted : RowsRooted keys retentions [{ slot := .history index, key := key }] lane) :
    RowsRooted (keys.set index (some key)) retentions [] lane := by
  have row := rooted.leased index key (List.mem_singleton.mpr rfl)
  have bound := (List.getElem?_eq_some_iff.mp row).1
  have holds : ∀ other held, HoldsRoot (keys.set index (some key)) [] other held ↔
      HoldsRoot keys [{ slot := .history index, key := key }] other held := by
    intro other held
    unfold HoldsRoot
    rw [join_set keys (some key) index other bound]
    by_cases same : other = index
    · subst same
      simp [row, eq_comm]
    · simp [same]
  exact rooted.rehold (by simp) nofun (Nat.zero_le 1) nofun holds

theorem RowsRooted.restore_other (rooted : RowsRooted keys retentions [lease] lane)
    (other : ∀ index, lease.slot ≠ .history index) : RowsRooted keys retentions [] lane := by
  have holds : ∀ index key, HoldsRoot keys [] index key ↔ HoldsRoot keys [lease] index key := by
    intro index key
    have notOut : { slot := .history index, key := key } ∉ [lease] := by
      intro out
      cases List.mem_singleton.mp out
      exact other index rfl
    simp [HoldsRoot] at notOut ⊢
    simp [notOut]
  exact rooted.rehold rfl nofun (Nat.zero_le 1) nofun holds

end Rows

end Umber.Incr
