import Mathlib.Data.List.Nodup
import Umber.Lib.Ledger
import Umber.Typeset.ClassProperties

/-! The memory of a pass: each route is allocated once before it is freed once. -/

set_option autoImplicit false

namespace Umber.Typeset

open ExceptLib BreakMemoryEvent

namespace BreakMemoryEvent

def owner : BreakMemoryEvent → BreakMemoryOwner
  | .allocate owner _ => owner
  | .free owner => owner

def allocates : BreakMemoryEvent → Bool
  | .allocate _ _ => true
  | .free _ => false

end BreakMemoryEvent

namespace Pass

variable {pass : Pass} {index : Nat} {site : Breakpoint} {search next : SearchState}

def freed (route : Candidate) : BreakMemoryEvent := .free (.active route.serial)

/-! ## Sweeps -/

structure Numbered (first : Nat) (sweep : Sweep) : Prop where
  above : first ≤ sweep.nextSerial
  distinct : (sweep.winners.map Candidate.serial).Nodup
  within : ∀ winner ∈ sweep.winners, first ≤ winner.serial ∧ winner.serial < sweep.nextSerial

variable {first : Nat} {active : Candidate} {sweep : Sweep}

theorem Numbered.admit {score : LineScore} {artificial : Bool} {admitted : Sweep}
    (numbered : Numbered first sweep)
    (admitting : pass.admitCandidate index site active score artificial sweep = .ok admitted) :
    Numbered first admitted ∧ admitted.search = sweep.search := by
  unfold admitCandidate at admitting
  split at admitting
  case isFalse =>
    cases admitting
    exact ⟨numbered, rfl⟩
  obtain ⟨candidate, making, admitting⟩ := bind_eq_ok.mp admitting
  cases pure_eq_ok.mp admitting
  obtain ⟨_, _, _, _, rfl⟩ := newCandidate_eq_ok making
  refine ⟨⟨Nat.le_succ_of_le numbered.above, ?_, fun winner held => ?_⟩, rfl⟩
  · refine Champion.record_nodup numbered.distinct fun member => ?_
    obtain ⟨winner, held, same⟩ := List.mem_map.mp member
    exact absurd same (Nat.ne_of_lt (numbered.within winner held).2)
  rcases Champion.mem_record held with earlier | rfl
  · obtain ⟨above, below⟩ := numbered.within winner earlier
    exact ⟨above, Nat.lt_succ_of_lt below⟩
  · exact ⟨numbered.above, Nat.lt_succ_self _⟩

variable {result : Sweep}

theorem Numbered.visit {isLast : Bool} (numbered : Numbered first sweep)
    (visited : pass.visit index site isLast active sweep = .ok result) : Numbered first result ∧
      result.search = sweep.search ++ ([active].filter (pass.endsAt site)).map freed := by
  rcases Nat.lt_or_ge active.position site.position with before | behind
  case inr =>
    rw [visit_behind behind] at visited
    cases visited
    simp only [List.filter_cons, List.filter_nil, endsAt_behind behind]
    exact ⟨⟨numbered.above, numbered.distinct, numbered.within⟩, (List.append_nil _).symm⟩
  obtain ⟨score, admitted, scoring, admitting, rfl⟩ := visit_eq_ok before visited
  obtain ⟨numbered, search⟩ := numbered.admit admitting
  simp only [List.filter_cons, List.filter_nil, endsAt_of_score before scoring]
  unfold settle
  cases decide (infBad < score.badness) || forced site with
  | true => exact ⟨⟨numbered.above, numbered.distinct, numbered.within⟩, by rw [search]; rfl⟩
  | false =>
    exact ⟨⟨numbered.above, numbered.distinct, numbered.within⟩, by simp [search]⟩

theorem Numbered.visitAll {active : List Candidate} (numbered : Numbered first sweep)
    (visited : pass.visitAll index site sweep active = .ok result) : Numbered first result ∧
      result.search = sweep.search ++ (active.filter (pass.endsAt site)).map freed := by
  induction active generalizing sweep with
  | nil =>
    cases visited
    exact ⟨numbered, (List.append_nil _).symm⟩
  | cons route rest ih => ?_
  obtain ⟨between, visiting, visited⟩ := bind_eq_ok.mp visited
  obtain ⟨numbered, firstSearch⟩ := numbered.visit visiting
  obtain ⟨numbered, search⟩ := ih numbered visited
  refine ⟨numbered, ?_⟩
  rw [search, firstSearch, List.append_assoc, ← List.map_append, ← List.filter_append]
  rfl

/-! ## Allocations -/

/-- The events of new active routes and of the passive ones behind them. -/
def allocations (first : Nat) : List Candidate → List BreakMemoryEvent
  | [] => []
  | winner :: rest =>
    .allocate (.passive first) 2 :: .allocate (.active winner.serial) 3 ::
      allocations (first + 1) rest

theorem recordPassive_events (nodeCount : Nat) (passive : List PassiveRoute)
    (search : List BreakMemoryEvent) (winners : List Candidate) :
    (recordPassive nodeCount passive search winners).2.2 =
      search ++ allocations passive.length winners := by
  induction winners generalizing passive search with
  | nil => exact (List.append_nil _).symm
  | cons winner rest ih => ?_
  unfold recordPassive allocations
  dsimp only
  rw [ih, List.append_assoc, List.length_append]
  rfl

theorem recordPassive_serials (nodeCount : Nat) (passive : List PassiveRoute)
    (search : List BreakMemoryEvent) (winners : List Candidate) :
    (recordPassive nodeCount passive search winners).1.map Candidate.serial =
      winners.map Candidate.serial := by
  induction winners generalizing passive search with
  | nil => rfl
  | cons winner rest ih => ?_
  unfold recordPassive
  dsimp only
  rw [List.map_cons, ih, List.map_cons]

variable {winners : List Candidate} {held : BreakMemoryOwner}

theorem mem_allocations_owner : held ∈ (allocations first winners).map owner ↔
      (∃ id, held = .passive id ∧ first ≤ id ∧ id < first + winners.length) ∨
        ∃ serial ∈ winners.map Candidate.serial, held = .active serial := by
  induction winners generalizing first with
  | nil =>
    refine ⟨fun member => (nomatch member), fun either => ?_⟩
    rcases either with ⟨id, _, above, below⟩ | ⟨_, member, _⟩
    · exact absurd below (Nat.not_lt.mpr above)
    · cases member
  | cons winner rest ih => ?_
  unfold allocations
  rw [List.map_cons, List.map_cons, List.mem_cons, List.mem_cons, ih, List.length_cons,
    List.map_cons]
  constructor
  · rintro (rfl | rfl | ⟨id, rfl, above, below⟩ | ⟨serial, member, rfl⟩)
    · exact .inl ⟨first, rfl, Nat.le_refl _, by omega⟩
    · exact .inr ⟨winner.serial, List.mem_cons_self, rfl⟩
    · exact .inl ⟨id, rfl, by omega, by omega⟩
    · exact .inr ⟨serial, List.mem_cons_of_mem _ member, rfl⟩
  rintro (⟨id, rfl, above, below⟩ | ⟨serial, member, rfl⟩)
  · rcases Nat.eq_or_lt_of_le above with rfl | later
    · exact .inl rfl
    · exact .inr (.inr (.inl ⟨id, rfl, later, by omega⟩))
  rcases List.mem_cons.mp member with rfl | later
  · exact .inr (.inl rfl)
  · exact .inr (.inr (.inr ⟨serial, later, rfl⟩))

theorem allocations_nodup (distinct : (winners.map Candidate.serial).Nodup) :
    ((allocations first winners).map owner).Nodup := by
  induction winners generalizing first with
  | nil => exact List.nodup_nil
  | cons winner rest ih => ?_
  obtain ⟨apart, distinct⟩ := List.nodup_cons.mp distinct
  unfold allocations
  rw [List.map_cons, List.map_cons]
  refine List.nodup_cons.mpr ⟨fun member => ?_, List.nodup_cons.mpr ⟨fun member => ?_, ih distinct⟩⟩
  · rcases List.mem_cons.mp member with same | later
    · cases same
    rcases mem_allocations_owner.mp later with ⟨id, same, above, _⟩ | ⟨_, _, same⟩
    · cases same
      exact absurd above (Nat.not_succ_le_self _)
    · cases same
  rcases mem_allocations_owner.mp member with ⟨_, same, _⟩ | ⟨serial, listed, same⟩
  · cases same
  cases same
  exact apart listed

theorem allocates_of_mem {event : BreakMemoryEvent} (member : event ∈ allocations first winners) :
    event.allocates = true := by
  induction winners generalizing first with
  | nil => cases member
  | cons winner rest ih => ?_
  unfold allocations at member
  rcases List.mem_cons.mp member with rfl | member
  · rfl
  rcases List.mem_cons.mp member with rfl | later
  · rfl
  · exact ih later

/-! ## Searches -/

def Held (search : SearchState) : BreakMemoryOwner → Prop
  | .active serial => serial ∈ search.active.map Candidate.serial
  | .passive id => id < search.passive.length

def Known (search : SearchState) : BreakMemoryOwner → Prop
  | .active serial => serial < search.nextSerial
  | .passive id => id < search.passive.length

structure Booked (search : SearchState) : Prop where
  distinct : (search.active.map Candidate.serial).Nodup
  numbered : ∀ route ∈ search.active, route.serial < search.nextSerial
  kept : Ledger.Kept owner allocates search.search (Held search)
  fresh : ∀ held, ¬ Known search held →
    Ledger.history owner search.search held = []

theorem booked_initial : Booked .initial := by
  have kept : Ledger.Kept owner allocates
      [.allocate (.active 0) 3] fun held => False ∨ held = .active 0 :=
    Ledger.Kept.nil.open_ rfl rfl
  refine ⟨by decide, by decide, kept.congr fun held => ?_, fun held unknown => ?_⟩
  · cases held with
    | active serial =>
      change False ∨ BreakMemoryOwner.active serial = .active 0 ↔ serial ∈ [0]
      simp
    | passive id =>
      change False ∨ BreakMemoryOwner.passive id = .active 0 ↔ id < 0
      simp
  refine Ledger.history_eq_nil.mpr fun member => unknown ?_
  rw [List.mem_singleton.mp member]
  exact Nat.zero_lt_one

variable {routes : List Candidate}

theorem mem_freed_owner : held ∈ (routes.map freed).map owner ↔
      ∃ serial ∈ routes.map Candidate.serial, held = .active serial := by
  constructor
  · intro member
    obtain ⟨_, mapped, rfl⟩ := List.mem_map.mp member
    obtain ⟨route, listed, rfl⟩ := List.mem_map.mp mapped
    exact ⟨route.serial, List.mem_map_of_mem listed, rfl⟩
  rintro ⟨_, mapped, rfl⟩
  obtain ⟨route, listed, rfl⟩ := List.mem_map.mp mapped
  exact List.mem_map.mpr ⟨freed route, List.mem_map_of_mem listed, rfl⟩

theorem freed_nodup (distinct : (routes.map Candidate.serial).Nodup) :
    ((routes.map freed).map owner).Nodup := by
  rw [List.map_map]
  refine List.pairwise_map.mpr ((List.pairwise_map.mp distinct).imp fun apart same => apart ?_)
  exact BreakMemoryOwner.active.inj same

theorem freed_allocates : ∀ event ∈ routes.map freed, event.allocates = false := by
  intro event member
  obtain ⟨route, _, rfl⟩ := List.mem_map.mp member
  rfl

theorem freed_held (listed : routes ⊆ search.active) :
    ∀ event ∈ routes.map freed, Held search event.owner := by
  intro event member
  obtain ⟨route, mapped, rfl⟩ := List.mem_map.mp member
  exact List.mem_map_of_mem (listed mapped)

theorem mem_kept_serials {active : List Candidate} {gone : Candidate → Bool} {serial : Nat}
    (distinct : (active.map Candidate.serial).Nodup) :
    serial ∈ active.map Candidate.serial ∧ serial ∉ (active.filter gone).map Candidate.serial ↔
      serial ∈ (active.filter fun route => !gone route).map Candidate.serial := by
  constructor
  · rintro ⟨member, absent⟩
    obtain ⟨route, listed, rfl⟩ := List.mem_map.mp member
    refine List.mem_map_of_mem (List.mem_filter.mpr ⟨listed, ?_⟩)
    cases left : gone route with
    | false => rfl
    | true => exact absurd (List.mem_map_of_mem (List.mem_filter.mpr ⟨listed, left⟩)) absent
  intro member
  obtain ⟨route, kept, rfl⟩ := List.mem_map.mp member
  obtain ⟨listed, stays⟩ := List.mem_filter.mp kept
  refine ⟨List.mem_map_of_mem listed, fun given => ?_⟩
  obtain ⟨other, gone_, same⟩ := List.mem_map.mp given
  obtain ⟨otherListed, left⟩ := List.mem_filter.mp gone_
  cases List.inj_on_of_nodup_map distinct otherListed listed same
  rw [left] at stays
  cases stays

/-- What a breakpoint changes: some routes end there, and new ones begin with a passive one each. -/
structure Recorded (pass : Pass) (site : Breakpoint) (search next : SearchState)
    (winners : List Candidate) : Prop where
  events : next.search = search.search ++ ((search.active.filter (pass.endsAt site)).map freed ++
    allocations search.passive.length winners)
  passive : next.passive.length = search.passive.length + winners.length
  active : (next.active.map Candidate.serial).Perm
    ((search.active.filter fun route => !pass.endsAt site route).map Candidate.serial ++
      winners.map Candidate.serial)
  distinct : (winners.map Candidate.serial).Nodup
  within : ∀ serial ∈ winners.map Candidate.serial,
    search.nextSerial ≤ serial ∧ serial < next.nextSerial
  above : search.nextSerial ≤ next.nextSerial

theorem breakAt_recorded (broken : pass.breakAt index site search = .ok next) :
    ∃ winners, pass.Recorded site search next winners := by
  obtain ⟨sweep, visited, broken⟩ := bind_eq_ok.mp broken
  cases pure_eq_ok.mp broken
  have start : Numbered search.nextSerial
      { survivors := [], winners := [], nextSerial := search.nextSerial, search := search.search } :=
    ⟨Nat.le_refl _, List.nodup_nil, fun _ absent => absurd absent List.not_mem_nil⟩
  obtain ⟨numbered, events⟩ := start.visitAll visited
  have survivors := (visitAll_left visited).1
  rw [List.nil_append] at survivors
  refine ⟨retainCompetitiveRoutes pass.params.adjDemerits pass.easyLine sweep.winners, ?_, ?_, ?_,
    ?_, fun serial member => ?_, numbered.above⟩
  · dsimp only
    rw [recordPassive_events, events, List.append_assoc]
  · dsimp only
    rw [recordPassive_passive, List.length_append, List.length_map]
  · refine ((mergeActiveCandidates_perm ..).map _).trans ?_
    rw [List.map_append, recordPassive_serials, survivors]
  · exact ((Merge.sort_perm _).map _).nodup_iff.mpr
      (numbered.distinct.sublist (List.filter_sublist.map _))
  obtain ⟨winner, held, rfl⟩ := List.mem_map.mp member
  exact numbered.within winner (mem_retainCompetitiveRoutes.mp held).1

theorem Booked.breakAt (booked : Booked search)
    (broken : pass.breakAt index site search = .ok next) : Booked next := by
  obtain ⟨winners, recorded⟩ := breakAt_recorded broken
  have within := recorded.within
  have earlier : ∀ serial ∈ search.active.map Candidate.serial, serial < search.nextSerial := by
    intro serial member
    obtain ⟨route, listed, rfl⟩ := List.mem_map.mp member
    exact booked.numbered route listed
  have kept : ∀ serial ∈ (search.active.filter fun route => !pass.endsAt site route).map
      Candidate.serial, serial ∈ search.active.map Candidate.serial := fun serial member =>
    ((mem_kept_serials booked.distinct).mpr member).1
  have unknown : ∀ held ∈ (allocations search.passive.length winners).map owner,
      ¬ Known search held := by
    intro held member
    rcases mem_allocations_owner.mp member with ⟨id, rfl, above, _⟩ | ⟨serial, listed, rfl⟩
    · exact Nat.not_lt.mpr above
    · exact Nat.not_lt.mpr (within serial listed).1
  have unfreed : ∀ held, ¬ Known search held →
      held ∉ ((search.active.filter (pass.endsAt site)).map freed).map owner := by
    intro held absent member
    obtain ⟨serial, listed, rfl⟩ := mem_freed_owner.mp member
    exact absent (earlier serial ((List.filter_sublist.map _).subset listed))
  have blank : ∀ held, ¬ Known search held → Ledger.history owner
      (search.search ++ (search.active.filter (pass.endsAt site)).map freed) held = [] := by
    intro held absent
    rw [Ledger.history_append, booked.fresh held absent, List.nil_append]
    exact Ledger.history_eq_nil.mpr (unfreed held absent)
  have gone : (search.active.filter (pass.endsAt site)).Sublist search.active :=
    List.filter_sublist
  have closed := booked.kept.closeAll (freed_nodup (booked.distinct.sublist (gone.map _)))
    (freed_held gone.subset) freed_allocates
  have opened := closed.openAll (allocations_nodup recorded.distinct)
    (fun event member => blank _ (unknown _ (List.mem_map_of_mem member)))
    (fun event member => allocates_of_mem member)
  constructor
  case distinct =>
    refine recorded.active.nodup_iff.mpr (List.nodup_append.mpr ⟨?_, recorded.distinct, ?_⟩)
    · exact booked.distinct.sublist (List.filter_sublist.map _)
    rintro serial member _ listed rfl
    exact absurd (earlier serial (kept serial member)) (Nat.not_lt.mpr (within serial listed).1)
  case numbered =>
    intro route listed
    have member := recorded.active.mem_iff.mp (List.mem_map_of_mem listed)
    rcases List.mem_append.mp member with older | newer
    · exact Nat.lt_of_lt_of_le (earlier _ (kept _ older)) recorded.above
    · exact (within _ newer).2
  case kept =>
    rw [recorded.events, ← List.append_assoc]
    refine opened.congr fun held => ?_
    rw [mem_allocations_owner, mem_freed_owner]
    cases held with
    | active serial =>
      change _ ↔ serial ∈ List.map _ _
      rw [recorded.active.mem_iff, List.mem_append, ← mem_kept_serials booked.distinct]
      simp [Held]
    | passive id => ?_
    change _ ↔ id < List.length _
    rw [recorded.passive]
    simp only [Held, reduceCtorEq, and_false, exists_false, not_false_eq_true, and_true,
      or_false, BreakMemoryOwner.passive.injEq, exists_eq_left']
    omega
  case fresh =>
    intro held absent
    have absentEarlier : ¬ Known search held := by
      intro known
      refine absent ?_
      cases held with
      | active serial => exact Nat.lt_of_lt_of_le known recorded.above
      | passive id => ?_
      change id < List.length _
      rw [recorded.passive]
      exact Nat.lt_add_right _ known
    rw [recorded.events, ← List.append_assoc, Ledger.history_append, blank held absentEarlier,
      List.nil_append]
    refine Ledger.history_eq_nil.mpr fun member => absent ?_
    rcases mem_allocations_owner.mp member with ⟨id, rfl, _, below⟩ | ⟨serial, listed, rfl⟩
    · change id < List.length _
      rw [recorded.passive]
      exact below
    · exact (within serial listed).2

theorem Arrives.booked (arrived : pass.Arrives index search) : Booked search := by
  induction arrived with
  | start => exact booked_initial
  | step _ _ broken ih => exact ih.breakAt broken

/-! ## Owners -/

/-- A route that was active, or a passive one that was recorded, behind some breakpoint. -/
def Created (pass : Pass) (held : BreakMemoryOwner) : Prop :=
  ∃ index search, pass.Arrives index search ∧ Held search held

theorem Booked.mem_owner (booked : Booked search) (live : Held search held) :
    held ∈ search.search.map owner := by
  by_contra absent
  have opened := booked.kept.opened held live
  rw [Ledger.history_eq_nil.mpr absent] at opened
  cases opened

/-- The events of a pass are about the routes it creates. -/
theorem Arrives.created (arrived : pass.Arrives index search) :
    ∀ event ∈ search.search, pass.Created event.owner := by
  induction arrived with
  | start =>
    intro event member
    cases List.mem_singleton.mp member
    exact ⟨0, .initial, .start, List.mem_cons_self⟩
  | @step _ _ next _ arrived found broken ih => ?_
  obtain ⟨winners, recorded⟩ := breakAt_recorded broken
  have later := arrived.step found broken
  rw [recorded.events]
  intro event member
  rcases List.mem_append.mp member with before | member
  · exact ih event before
  rcases List.mem_append.mp member with ended | member
  · exact ⟨_, _, arrived, freed_held List.filter_sublist.subset event ended⟩
  refine ⟨_, next, later, ?_⟩
  rcases mem_allocations_owner.mp (List.mem_map_of_mem member) with
    ⟨id, same, _, below⟩ | ⟨serial, listed, same⟩
  · rw [same]
    exact Nat.lt_of_lt_of_eq below recorded.passive.symm
  rw [same]
  exact recorded.active.mem_iff.mpr (List.mem_append_right _ listed)

theorem breakSites_extends {sites : List Breakpoint} {last : SearchState}
    (finished : pass.breakSites index search sites = .ok last) :
    ∃ more, last.search = search.search ++ more := by
  induction sites generalizing index search with
  | nil =>
    cases finished
    exact ⟨[], (List.append_nil _).symm⟩
  | cons site rest ih => ?_
  obtain ⟨between, broken, finished⟩ := bind_eq_ok.mp finished
  obtain ⟨winners, recorded⟩ := breakAt_recorded broken
  obtain ⟨more, extended⟩ := ih finished
  exact ⟨_, by rw [extended, recorded.events, List.append_assoc]⟩

theorem Created.mem_owner {last : SearchState} (created : pass.Created held)
    (finished : pass.breakSites 0 .initial pass.tape.breakSites = .ok last) :
    held ∈ last.search.map owner := by
  obtain ⟨index, search, arrived, live⟩ := created
  obtain ⟨more, extended⟩ := breakSites_extends (arrived.breakSites finished)
  rw [extended, List.map_append]
  exact List.mem_append_left _ (arrived.booked.mem_owner live)

theorem Booked.cleaned (booked : Booked search) :
    Ledger.Kept owner allocates
      (search.search ++ (search.active.map freed ++
        (List.range search.passive.length).reverse.map fun id => .free (.passive id)))
      fun _ => False := by
  have routes := booked.kept.closeAll (freed_nodup booked.distinct)
    (freed_held fun _ member => member) freed_allocates
  have distinct : (((List.range search.passive.length).reverse.map fun id =>
      free (.passive id)).map owner).Nodup := by
    rw [List.map_map]
    have ids := (List.reverse_perm (List.range search.passive.length)).nodup_iff.mpr
      List.nodup_range
    refine List.pairwise_map.mpr (ids.imp fun apart same => apart ?_)
    exact BreakMemoryOwner.passive.inj same
  have all := routes.closeAll distinct
    (fun event member => by
      obtain ⟨id, listed, rfl⟩ := List.mem_map.mp member
      refine ⟨List.mem_range.mp (List.mem_reverse.mp listed), fun given => ?_⟩
      obtain ⟨_, _, same⟩ := mem_freed_owner.mp given
      cases same)
    (fun event member => by
      obtain ⟨id, _, rfl⟩ := List.mem_map.mp member
      rfl)
  rw [List.append_assoc] at all
  refine all.congr fun held => ⟨fun both => ?_, False.elim⟩
  obtain ⟨⟨member, unfreed⟩, left⟩ := both
  cases held with
  | active serial => exact unfreed (mem_freed_owner.mpr ⟨serial, member, rfl⟩)
  | passive id =>
    have listed := List.mem_reverse.mpr (List.mem_range.mpr member)
    exact left (List.mem_map.mpr ⟨.free (.passive id), List.mem_map_of_mem listed, rfl⟩)

end Pass

end Umber.Typeset
