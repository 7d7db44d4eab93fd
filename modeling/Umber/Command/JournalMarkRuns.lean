import Umber.Command.JournalMarks

/-! Which marks a journal accepts, in every run: those whose records are still where
the mark left them, and those at the coordinates of the base. -/

set_option autoImplicit false

namespace Umber.Command

open JournalRun.Reached JournalRun

variable {ρ γ : Type}

/-! ## Chunks of a lane -/

variable {lane : List (JournalChunk ρ)}

theorem split_unique {front rest otherFront otherRest : List (JournalChunk ρ)}
    {chunk other : JournalChunk ρ} (distinct : (keysOf lane).Nodup)
    (one : lane = front ++ chunk :: rest) (two : lane = otherFront ++ other :: otherRest)
    (same : chunk.key = other.key) : front = otherFront ∧ chunk = other ∧ rest = otherRest := by
  subst one
  induction front generalizing otherFront with
  | nil =>
    cases otherFront with
    | nil =>
      cases two
      exact ⟨rfl, rfl, rfl⟩
    | cons head otherFront => ?_
    cases two
    refine absurd ?_ (List.nodup_cons.mp distinct).1
    show chunk.key ∈ keysOf (otherFront ++ other :: otherRest)
    rw [same]
    exact List.mem_map_of_mem (by simp)
  | cons head front ih => ?_
  cases otherFront with
  | nil =>
    cases two
    refine absurd ?_ (List.nodup_cons.mp distinct).1
    show other.key ∈ keysOf (front ++ chunk :: rest)
    rw [← same]
    exact List.mem_map_of_mem (by simp)
  | cons otherHead otherFront => ?_
  obtain ⟨rfl, tails⟩ := List.cons.inj two
  obtain ⟨rfl, sameChunk, sameRest⟩ := ih (List.nodup_cons.mp distinct).2 tails
  exact ⟨rfl, sameChunk, sameRest⟩

theorem key_apart {lane later : List (JournalChunk ρ)} {chunk other : JournalChunk ρ}
    (distinct : (keysOf lane ++ keysOf later).Nodup) (member : chunk ∈ lane)
    (otherMember : other ∈ later) : chunk.key ≠ other.key :=
  (List.nodup_append.mp distinct).2.2 _ (List.mem_map_of_mem member) _
    (List.mem_map_of_mem otherMember)

variable {journal : PackedJournal ρ}

theorem PackedJournal.Lane.sublist (here : journal.Lane lane) :
    lane.Sublist (journal.current ++ journal.detached) := by
  rcases here with rfl | ⟨fork, before, after, -, cuts, rfl⟩
  · exact List.sublist_append_left _ _
  rw [cuts.split]
  exact List.Sublist.append_right (List.sublist_append_left _ _) _

theorem PackedJournal.Lane.keys_nodup (sound : Sound journal) (here : journal.Lane lane) :
    (keysOf lane).Nodup := by
  have keys := sound.keys.nodup
  unfold keysOf at keys ⊢
  rw [← List.map_append] at keys
  exact keys.sublist (here.sublist.map _)

/-- A lane that contains the tail of the current lane begins with the whole of it. -/
theorem PackedJournal.Lane.of_tail {init : List (JournalChunk ρ)} {last : JournalChunk ρ}
    (sound : Sound journal) (here : journal.Lane lane) (joined : journal.current = init ++ [last])
    (member : last ∈ lane) : ∃ later, lane = init ++ last :: later := by
  have keys := sound.keys.nodup
  have lastMember : last ∈ journal.current := by
    rw [joined]
    exact List.mem_append_right _ List.mem_cons_self
  rcases here with same | ⟨fork, before, after, -, cuts, rfl⟩
  · exact ⟨[], same.trans joined⟩
  have inFront : last ∈ before := (List.mem_append.mp member).resolve_right fun aside =>
    key_apart keys lastMember aside rfl
  have cut : init ++ [last] = before ++ after := joined.symm.trans cuts.split
  rcases List.eq_nil_or_concat after with none_ | ⟨afterInit, afterLast, behind⟩
  · rw [none_, List.append_nil] at cut
    exact ⟨journal.detached, by rw [← cut, List.append_assoc]; rfl⟩
  rw [List.concat_eq_append] at behind
  rw [behind, ← List.append_assoc] at cut
  obtain ⟨-, lastSame⟩ := List.append_inj' cut rfl
  cases lastSame
  have distinct := (List.nodup_append.mp keys).1
  rw [cuts.split, keysOf, List.map_append] at distinct
  refine absurd rfl (@key_apart _ _ _ last last distinct inFront ?_)
  rw [behind]
  exact List.mem_append_right _ List.mem_cons_self

theorem numbersOf_cons (chunk : JournalChunk (Nat × ρ)) (later : List (JournalChunk (Nat × ρ))) :
    numbersOf (chunk :: later) = chunk.values.map Prod.fst ++ numbersOf later := by
  unfold numbersOf
  rw [recordsOf_cons, List.map_append]

variable {chunks : List (JournalChunk (Nat × ρ))} {number : Nat}

theorem mem_numbersOf :
    number ∈ numbersOf chunks ↔ ∃ chunk ∈ chunks, number ∈ chunk.values.map Prod.fst := by
  induction chunks with
  | nil => simp [numbersOf]
  | cons chunk later ih =>
    rw [numbersOf_cons, List.mem_append, ih]
    simp only [List.mem_cons, exists_eq_or_imp]

/-- A number has one place in chunks of distinct numbers. -/
theorem chunk_of_number {chunk other : JournalChunk (Nat × ρ)} (distinct : (numbersOf chunks).Nodup)
    (member : chunk ∈ chunks) (otherMember : other ∈ chunks)
    (inside : number ∈ chunk.values.map Prod.fst) (otherInside : number ∈ other.values.map Prod.fst) :
    chunk = other := by
  induction chunks with
  | nil => cases member
  | cons head later ih => ?_
  rw [numbersOf_cons, List.nodup_append] at distinct
  obtain ⟨-, laterDistinct, apart⟩ := distinct
  rcases List.mem_cons.mp member with rfl | below
  · rcases List.mem_cons.mp otherMember with rfl | otherBelow
    · rfl
    exact absurd rfl (apart number inside number (mem_numbersOf.mpr ⟨_, otherBelow, otherInside⟩))
  rcases List.mem_cons.mp otherMember with rfl | otherBelow
  · exact absurd rfl
      (apart number otherInside number (mem_numbersOf.mpr ⟨_, below, inside⟩))
  · exact ih laterDistinct below otherBelow

theorem length_numbersOf (chunks : List (JournalChunk (Nat × ρ))) :
    (numbersOf chunks).length = (recordsOf chunks).length :=
  List.length_map _

variable {baseChunks baseRecords : Nat} {otherBefore otherAfter : List (JournalChunk ρ)}

theorem cuts_unique {mark : PackedJournalMark} {before after : List (JournalChunk ρ)}
    (cuts : Cuts baseChunks baseRecords mark before after lane)
    (otherCuts : Cuts baseChunks baseRecords mark otherBefore otherAfter lane) :
    before = otherBefore ∧ after = otherAfter := by
  obtain ⟨middle, joined, rest, spans⟩ := PackedJournal.cuts_nested cuts otherCuts (Nat.le_refl _)
  have count := spans.chunks_eq
  obtain rfl : middle = [] := List.length_eq_zero_iff.mp (by omega)
  rw [List.append_nil] at joined
  exact ⟨joined, rest.symm⟩

theorem cuts_chunks_of_records {mark other : PackedJournalMark}
    {before after : List (JournalChunk ρ)}
    (cuts : Cuts baseChunks baseRecords mark before after lane)
    (otherCuts : Cuts baseChunks baseRecords other otherBefore otherAfter lane)
    (same : mark.records = other.records) : mark.chunks = other.chunks := by
  have empty : ∀ {first second records : Nat} {middle : List (JournalChunk ρ)},
      Spans first records middle second records → second = first := by
    intro first second records middle spans
    by_cases none_ : middle = []
    · rw [spans.chunks_eq, none_]
      rfl
    · exact absurd (spans.records_lt none_) (Nat.lt_irrefl _)
  rcases Nat.le_total other.chunks mark.chunks with below | below
  · obtain ⟨middle, -, -, spans⟩ := PackedJournal.cuts_nested cuts otherCuts below
    rw [same] at spans
    exact empty spans
  obtain ⟨middle, -, -, spans⟩ := PackedJournal.cuts_nested otherCuts cuts below
  rw [same] at spans
  exact (empty spans).symm

/-! ## Accepted marks -/

namespace Coherent

variable {run : JournalRun ρ} {mark : PackedJournalMark} {denoted : List Nat}
  {before after : List (JournalChunk (Nat × ρ))}

/-- A mark that cuts the lane behind its base denotes the records before the cut. -/
theorem denoted_of_cuts (known : MarkKnown run.journal run.released run.next mark denoted)
    (cuts : Cuts run.journal.baseChunks run.journal.baseRecords mark before after
      run.journal.current) (nonempty : before ≠ []) :
    denoted = run.released ++ numbersOf before := by
  obtain ⟨init, chunk, rfl⟩ := (List.eq_nil_or_concat before).resolve_left nonempty
  have tail := cuts.tail nonempty
  rw [List.concat_eq_append, List.getLast?_concat] at tail
  have split_ := cuts.split
  rw [List.concat_eq_append, List.append_assoc] at split_
  rw [List.concat_eq_append]
  exact (known.placed _ init chunk after (Or.inl rfl) split_ tail).1

/-- A mark whose records are a prefix of the lineage cuts the lane. -/
theorem cuts_of_prefix (coherent : Coherent run)
    (known : MarkKnown run.journal run.released run.next mark denoted)
    (leading : denoted <+: run.lineage) (long : run.released.length ≤ denoted.length) :
    ∃ before after, Cuts run.journal.baseChunks run.journal.baseRecords mark before after
      run.journal.current ∧ denoted = run.released ++ numbersOf before := by
  obtain ⟨extra, rfl⟩ : run.released <+: denoted :=
    List.prefix_of_prefix_length_le (List.prefix_append _ _) leading long
  by_cases none_ : extra = []
  · subst none_
    rw [List.append_nil] at known ⊢
    refine ⟨[], run.journal.current, ⟨rfl, ?_, fun some_ => absurd rfl some_⟩, ?_⟩
    · rw [known.base rfl, known.count, coherent.base]
      exact .nil
    · exact (List.append_nil _).symm
  have inCurrent : extra <+: numbersOf run.journal.current :=
    (List.prefix_append_right_inj _).mp leading
  obtain ⟨init, number, rfl⟩ := (List.eq_nil_or_concat extra).resolve_left none_
  rw [List.concat_eq_append] at known inCurrent leading ⊢
  have last : (run.released ++ (init ++ [number])).getLast? = some number := by
    rw [← List.append_assoc, List.getLast?_concat]
  have found : number ∈ numbersOf run.journal.current := inCurrent.subset (by simp)
  obtain ⟨chunk, member, inside⟩ := mem_numbersOf.mp found
  have tailed : mark.tail ≠ none := by
    intro none_
    have short := (known.behind none_).length_le
    rw [List.length_append, List.length_append, List.length_singleton] at short
    omega
  have tail := known.last number chunk tailed last (List.mem_append_left _ member) inside
  obtain ⟨front, rest, split_⟩ := List.append_of_mem member
  obtain ⟨numbers, chunks⟩ := known.placed _ front chunk rest (Or.inl rfl) split_ tail
  have joined : run.journal.current = (front ++ [chunk]) ++ rest := by
    rw [split_, List.append_assoc]
    rfl
  have spans := coherent.sound.spans
  rw [joined] at spans
  obtain ⟨middleChunks, middleRecords, first, -⟩ := spans.cut
  have position := first.records_eq
  obtain ⟨-, depth, -, -, -⟩ := first.of_concat
  refine ⟨front ++ [chunk], rest, ⟨joined, ?_, ?_⟩, numbers⟩
  · have records : mark.records = middleRecords := by
      rw [known.count, numbers, List.length_append, coherent.base, length_numbersOf, position]
    rw [chunks, depth, records]
    exact first
  intro _
  rw [List.getLast?_concat]
  exact tail

/-- The accepted marks are those whose records are a prefix of the lineage not
shorter than the base, and those at the coordinates of the base. -/
theorem validates_iff (coherent : Coherent run)
    (known : MarkKnown run.journal run.released run.next mark denoted) :
    run.journal.validates mark = true ↔
      (denoted <+: run.lineage ∧ run.released.length ≤ denoted.length) ∨
        run.journal.isBase mark = true := by
  rw [PackedJournal.validates_iff coherent.sound]
  constructor
  · rintro ⟨before, after, cuts⟩
    by_cases none_ : before = []
    · exact Or.inr ((PackedJournal.isBase_iff cuts).mpr none_)
    have numbers := denoted_of_cuts known cuts none_
    refine Or.inl ⟨?_, ?_⟩
    · rw [numbers, lineage, cuts.split, numbersOf_append, ← List.append_assoc]
      exact List.prefix_append _ _
    rw [numbers, List.length_append]
    exact Nat.le_add_right _ _
  rintro (⟨leading, long⟩ | base)
  · obtain ⟨before, after, cuts, -⟩ := coherent.cuts_of_prefix known leading long
    exact ⟨before, after, cuts⟩
  unfold PackedJournal.isBase at base
  rw [Bool.and_eq_true, beq_iff_eq, beq_iff_eq] at base
  exact ⟨[], run.journal.current, rfl, base.1 ▸ base.2 ▸ .nil, fun some_ => absurd rfl some_⟩

/-! ## Steps -/

theorem lineage_take (coherent : Coherent run) :
    run.lineage.take run.journal.baseRecords = run.released := by
  rw [lineage, ← coherent.base, List.take_left]

variable {changed : PackedJournal (Nat × ρ)}

section

variable (coherent : Coherent run)
include coherent

theorem shorten (shorter : PackedJournal.Shortens run.journal changed)
    (sound : Sound changed) (base : changed.baseRecords = run.journal.baseRecords) :
    Coherent (run.change changed) where
  sound := sound
  base := by
    unfold change
    dsimp only
    rw [base, coherent.lineage_take, coherent.base]
  earlier := by
    unfold change
    dsimp only
    rw [base, coherent.lineage_take]
    intro number member
    refine coherent.earlier number ?_
    rcases List.mem_append.mp member with old | here
    · exact List.mem_append_left _ old
    · exact List.mem_append_right _ (shorter.numbers.subset here)
  distinct := coherent.distinct.sublist shorter.numbers
  remembers := by
    intro mark denoted member
    unfold change at member ⊢
    dsimp only at member ⊢
    rw [base, coherent.lineage_take]
    exact shorter.remembers (coherent.remembers mark denoted member)

theorem unchanged : Coherent (run.change run.journal) := by
  have same : run.change run.journal = run := by rw [change, coherent.lineage_take]
  rw [same]
  exact coherent

/-- The release of a prefix moves the base along the lineage. -/
theorem release {slots : SlotMap Unit} (unforked : run.journal.fork = none)
    (cuts : Cuts run.journal.baseChunks run.journal.baseRecords mark before after
      run.journal.current)
    (holds : slots.Holds (keysOf after))
    (kept : ∀ key, run.journal.slots.Issued key → slots.Issued key) :
    Coherent (run.change { run.journal with
      slots, current := after, baseChunks := mark.chunks, baseRecords := mark.records
      intervalTailOpen := false }) := by
  have position := cuts.spans.records_eq
  have released : run.lineage.take mark.records = run.released ++ numbersOf before := by
    have length : mark.records = (run.released ++ numbersOf before).length := by
      rw [List.length_append, length_numbersOf, coherent.base, position]
    rw [lineage, cuts.split, numbersOf_append, ← List.append_assoc, length, List.take_left]
  have detached := coherent.sound.unforked unforked
  unfold change
  dsimp only
  rw [released]
  refine ⟨PackedJournal.released_sound coherent.sound unforked cuts holds, ?_, ?_, ?_, ?_⟩
  · dsimp only
    rw [List.length_append, length_numbersOf, coherent.base, position]
  · intro number member
    refine coherent.earlier number ?_
    rw [cuts.split, numbersOf_append, numbersOf_append, List.append_assoc, ← List.append_assoc]
    rw [numbersOf_append] at member
    exact member
  · refine coherent.distinct.sublist ?_
    dsimp only
    rw [cuts.split, numbersOf_append, numbersOf_append, numbersOf_append]
    exact List.Sublist.append_right (List.sublist_append_right _ _) _
  intro other denoted member
  have known := coherent.remembers other denoted member
  refine ⟨known.count, known.earlier, ?_, ?_, ?_, ?_, ?_, ?_⟩
  · intro same
    have leading : denoted <+: run.lineage := by
      rw [same, lineage, cuts.split, numbersOf_append, ← List.append_assoc]
      exact List.prefix_append _ _
    have long : run.released.length ≤ denoted.length := by
      rw [same, List.length_append]
      exact Nat.le_add_right _ _
    obtain ⟨otherBefore, otherAfter, otherCuts, -⟩ :=
      coherent.cuts_of_prefix known leading long
    refine cuts_chunks_of_records otherCuts cuts ?_
    rw [known.count, same, List.length_append, length_numbersOf, coherent.base, position]
  · intro none_
    exact (known.behind none_).trans (List.prefix_append _ _)
  · intro key tail
    exact kept key (known.issued key tail)
  · intro lane front chunk rest here split_ tail
    obtain rfl : lane = after := by
      rcases here with same | ⟨fork, _, _, forked, _⟩
      · exact same
      · exact absurd (forked.symm.trans unforked) (by simp)
    have whole : run.journal.current = (before ++ front) ++ chunk :: rest := by
      rw [cuts.split, split_, List.append_assoc]
    obtain ⟨numbers, chunks⟩ := known.placed _ _ chunk rest (Or.inl rfl) whole tail
    rw [List.append_assoc, numbersOf_append, ← List.append_assoc] at numbers
    exact ⟨numbers, chunks⟩
  · intro number chunk tail last member inside
    refine known.last number chunk tail last ?_ inside
    rw [cuts.split, List.append_assoc]
    exact List.mem_append_right _ member
  intro front chunk open_
  cases open_

theorem change (changes : PackedJournal.Changes run.journal changed) :
    Coherent (run.change changed) := by
  have sound := changes.sound coherent.sound
  cases changes with
  | unchanged => exact coherent.unchanged
  | rewound cuts _ _ kept =>
    exact coherent.shorten (PackedJournal.rewound_shortens cuts kept) sound rfl
  | released unforked cuts holds kept => exact coherent.release unforked cuts holds kept
  | forked unforked cuts trace =>
    exact coherent.shorten (PackedJournal.forked_shortens cuts trace) sound rfl
  | accepted _ kept =>
    exact coherent.shorten (PackedJournal.accepted_shortens kept) sound rfl
  | rejoined forked cuts trace _ kept =>
    exact coherent.shorten (PackedJournal.rejoined_shortens forked cuts trace kept) sound rfl

theorem remembers_new :
    MarkKnown run.journal.mark.2 run.released run.next run.journal.mark.1 run.lineage := by
  have spans := coherent.sound.spans
  have position := spans.records_eq
  rcases List.eq_nil_or_concat run.journal.current with none_ | ⟨init, last, joined⟩
  · have tail : run.journal.mark.1.tail = none := by
      show run.journal.current.getLast?.map JournalChunk.key = none
      rw [none_]
      rfl
    have lineage : run.lineage = run.released := by
      rw [lineage, none_]
      exact List.append_nil _
    rw [none_] at spans
    refine ⟨?_, ?_, ?_, ?_, ?_, ?_, ?_, ?_⟩
    · rw [lineage, coherent.base]
      exact spans.records_eq
    · intro number member
      rw [lineage] at member
      exact coherent.earlier number (List.mem_append_left _ member)
    · exact fun _ => spans.chunks_eq
    · intro _
      exact ⟨[], by rw [List.append_nil, lineage]⟩
    · intro key some_
      rw [tail] at some_
      cases some_
    · intro _ _ chunk _ _ _ some_
      rw [tail] at some_
      cases some_
    · intro _ _ some_
      exact absurd tail some_
    intro _ _ open_
    cases open_
  rw [List.concat_eq_append] at joined
  have tail : run.journal.mark.1.tail = some last.key := by
    show run.journal.current.getLast?.map JournalChunk.key = _
    rw [joined, List.getLast?_concat]
    rfl
  have lastMember : last ∈ run.journal.current := by
    rw [joined]
    exact List.mem_append_right _ List.mem_cons_self
  rw [joined] at spans
  obtain ⟨-, depth, -, filled, -⟩ := spans.of_concat
  refine ⟨?_, ?_, ?_, ?_, ?_, ?_, ?_, ?_⟩
  · rw [lineage, List.length_append, length_numbersOf, coherent.base]
    exact position
  · intro number member
    refine coherent.earlier number ?_
    rw [numbersOf_append, ← List.append_assoc]
    exact List.mem_append_left _ member
  · intro same
    have longer := spans.records_lt (by simp)
    have length := congrArg List.length same
    rw [lineage, List.length_append, length_numbersOf] at length
    omega
  · intro none_
    rw [tail] at none_
    cases none_
  · intro key some_
    rw [tail] at some_
    cases some_
    exact SlotMap.issued_of_live
      (coherent.sound.keys.live (List.mem_append_left _ (List.mem_map_of_mem lastMember)))
  · intro lane front chunk rest here split_ some_
    rw [tail] at some_
    have same : last.key = chunk.key := Option.some.inj some_
    have here : run.journal.Lane lane := here
    have inLane : chunk ∈ lane := by
      rw [split_]
      simp
    have distinct := coherent.sound.keys.nodup
    unfold keysOf at distinct
    rw [← List.map_append] at distinct
    obtain ⟨lead, behind, place⟩ := List.append_of_mem (here.sublist.subset inLane)
    obtain ⟨lastLead, lastBehind, lastPlace⟩ :=
      List.append_of_mem (List.mem_append_left run.journal.detached lastMember)
    obtain ⟨-, rfl, -⟩ := split_unique distinct place lastPlace same.symm
    obtain ⟨later, whole⟩ := here.of_tail coherent.sound joined inLane
    obtain ⟨rfl, -, -⟩ := split_unique (here.keys_nodup coherent.sound) whole split_ rfl
    exact ⟨by rw [lineage, joined], depth.symm⟩
  · intro number chunk _ ended member inside
    have lastNumbers : ∃ values number, last.values.map Prod.fst = values ++ [number] := by
      rcases List.eq_nil_or_concat (last.values.map Prod.fst) with none_ | ⟨values, n, split_⟩
      · exact absurd (List.map_eq_nil_iff.mp none_) filled
      · exact ⟨values, n, split_.trans List.concat_eq_append⟩
    obtain ⟨values, lastNumber, numbers⟩ := lastNumbers
    have same : lastNumber = number := by
      rw [lineage, joined, numbersOf_append, numbersOf_cons, numbers,
        show numbersOf ([] : List (JournalChunk (Nat × ρ))) = [] from rfl, List.append_nil,
        ← List.append_assoc, ← List.append_assoc, List.getLast?_concat] at ended
      exact Option.some.inj ended
    subst same
    rw [tail]
    refine congrArg (fun chunk => some chunk.key) (chunk_of_number coherent.distinct
      (List.mem_append_left _ lastMember) member ?_ inside)
    rw [numbers]
    simp
  intro front chunk open_
  cases open_

theorem capture :
    Coherent { run with
      journal := run.journal.mark.2
      marks := (run.journal.mark.1, run.lineage) :: run.marks } where
  sound := PackedJournal.mark_sound coherent.sound
  base := coherent.base
  earlier := coherent.earlier
  distinct := coherent.distinct
  remembers := by
    intro mark denoted member
    rcases List.mem_cons.mp member with new | old
    · cases new
      exact coherent.remembers_new
    exact (PackedJournal.mark_shortens run.journal).remembers (coherent.remembers mark denoted old)

end

/-- Where an appended record stands: in a new chunk at the end, or at the end of
the open tail. -/
theorem append_lane {journal : PackedJournal (Nat × ρ)} {number : Nat} {value : ρ}
    (sound : Sound journal) {lane : List (JournalChunk (Nat × ρ))}
    (here : (journal.append (number, value)).Lane lane) :
    journal.Lane lane ∨ lane = (journal.append (number, value)).current := by
  rcases here with same | ⟨fork, before, after, forked, cuts, rfl⟩
  · exact Or.inr same
  rw [PackedJournal.append_fork] at forked
  obtain ⟨boundary, -⟩ := sound.forked fork forked
  obtain ⟨front, rest, old⟩ := boundary.cuts
  obtain ⟨⟨later, grown⟩, -⟩ :=
    PackedJournal.append_cuts sound old boundary.closed (number, value)
  rw [PackedJournal.append_baseChunks, PackedJournal.append_baseRecords] at cuts
  obtain ⟨rfl, -⟩ := cuts_unique cuts grown
  rw [PackedJournal.append_detached]
  exact Or.inl (Or.inr ⟨fork, before, rest, forked, old, rfl⟩)

theorem append_remembers (coherent : Coherent run) (value : ρ)
    (known : MarkKnown run.journal run.released run.next mark denoted) :
    MarkKnown (run.journal.append (run.next, value)) run.released (run.next + 1) mark denoted := by
  have later : ∀ number ∈ denoted, number < run.next + 1 :=
    fun number member => Nat.lt_succ_of_lt (known.earlier number member)
  have base : denoted = run.released →
      mark.chunks = (run.journal.append (run.next, value)).baseChunks := by
    rw [PackedJournal.append_baseChunks]
    exact known.base
  have fresh : ∀ number, denoted.getLast? = some number → number ≠ run.next := by
    intro number ended same
    exact absurd (known.earlier number (List.mem_of_getLast? ended)) (same ▸ Nat.lt_irrefl _)
  rcases PackedJournal.append_cases run.journal (run.next, value) with
    same | ⟨open_, lane, chunk, snoc, same⟩
  · have laned := fun lane => @append_lane _ run.journal run.next value coherent.sound lane
    rw [same] at base laned ⊢
    dsimp only at laned
    have unissued : ∀ key, mark.tail = some key → key ≠ run.journal.slots.nextId :=
      fun key tail => (known.issued key tail).ne_nextId
    refine ⟨known.count, later, base, known.behind,
      fun key tail => (known.issued key tail).insert (), ?_, ?_, ?_⟩
    · intro lane front chunk rest here split_ tail
      rcases laned lane here with old | rfl
      · exact known.placed lane front chunk rest old split_ tail
      rcases List.eq_nil_or_concat rest with none_ | ⟨init, last, joined⟩
      · rw [none_] at split_
        obtain ⟨-, ended⟩ := List.append_inj' split_ rfl
        cases ended
        exact absurd rfl (unissued _ tail)
      rw [joined, List.concat_eq_append, ← List.cons_append, ← List.append_assoc] at split_
      obtain ⟨old, -⟩ := List.append_inj' split_ rfl
      exact known.placed _ front chunk init (Or.inl rfl) old tail
    · intro number chunk tail ended member inside
      dsimp only at member
      rw [List.append_assoc] at member
      rcases List.mem_append.mp member with old | behind
      · exact known.last number chunk tail ended (List.mem_append_left _ old) inside
      rcases List.mem_cons.mp behind with rfl | aside
      · exact absurd (List.mem_singleton.mp inside) (fresh number ended)
      · exact known.last number chunk tail ended (List.mem_append_right _ aside) inside
    intro front chunk _ split_ tail
    obtain ⟨-, ended⟩ := List.append_inj' split_ rfl
    cases ended
    exact absurd rfl (unissued _ tail)
  have laned := fun lane => @append_lane _ run.journal run.next value coherent.sound lane
  have closed := known.closed lane chunk open_ snoc
  rw [same] at base laned ⊢
  dsimp only at laned
  refine ⟨known.count, later, base, known.behind, known.issued, ?_, ?_, ?_⟩
  · intro whole front other rest here split_ tail
    rcases laned whole here with old | rfl
    · exact known.placed whole front other rest old split_ tail
    rcases List.eq_nil_or_concat rest with none_ | ⟨init, last, joined⟩
    · rw [none_] at split_
      obtain ⟨-, ended⟩ := List.append_inj' split_ rfl
      cases ended
      exact absurd tail closed
    rw [joined, List.concat_eq_append, ← List.cons_append, ← List.append_assoc] at split_
    obtain ⟨old, -⟩ := List.append_inj' split_ rfl
    refine known.placed _ front other (init ++ [chunk]) (Or.inl rfl) ?_ tail
    rw [snoc, old, List.append_assoc]
    rfl
  · intro number other tail ended member inside
    dsimp only at member
    rw [List.append_assoc] at member
    rcases List.mem_append.mp member with old | behind
    · refine known.last number other tail ended (List.mem_append_left _ ?_) inside
      rw [snoc]
      exact List.mem_append_left _ old
    rcases List.mem_cons.mp behind with rfl | aside
    · rw [List.map_append, List.mem_append] at inside
      have within := inside.resolve_right fun new =>
        fresh number ended (List.mem_singleton.mp new)
      refine known.last number chunk tail ended (List.mem_append_left _ ?_) within
      rw [snoc]
      exact List.mem_append_right _ List.mem_cons_self
    · exact known.last number other tail ended (List.mem_append_right _ aside) inside
  intro front other _ split_ tail
  obtain ⟨-, ended⟩ := List.append_inj' split_ rfl
  cases ended
  exact absurd tail closed

theorem append (coherent : Coherent run) (value : ρ) :
    Coherent { run with
      journal := run.journal.append (run.next, value)
      next := run.next + 1 } := by
  have numbers : numbersOf (run.journal.append (run.next, value)).current =
      numbersOf run.journal.current ++ [run.next] := by
    unfold numbersOf
    rw [PackedJournal.recordsOf_append_current, List.map_append]
    rfl
  have mixed : (numbersOf ((run.journal.append (run.next, value)).current ++
      (run.journal.append (run.next, value)).detached)).Perm
        (run.next :: numbersOf (run.journal.current ++ run.journal.detached)) := by
    rw [numbersOf_append, numbersOf_append, numbers, PackedJournal.append_detached,
      List.append_assoc]
    exact List.perm_middle
  refine ⟨PackedJournal.append_sound coherent.sound _, ?_, ?_, ?_, ?_⟩
  · dsimp only
    rw [PackedJournal.append_baseRecords]
    exact coherent.base
  · intro number member
    dsimp only at member ⊢
    rcases List.mem_append.mp member with old | here
    · exact Nat.lt_succ_of_lt (coherent.earlier number (List.mem_append_left _ old))
    rcases List.mem_cons.mp (mixed.subset here) with rfl | old
    · exact Nat.lt_succ_self _
    · exact Nat.lt_succ_of_lt (coherent.earlier number (List.mem_append_right _ old))
  · refine mixed.nodup_iff.mpr (List.nodup_cons.mpr ⟨?_, coherent.distinct⟩)
    intro member
    exact absurd (coherent.earlier _ (List.mem_append_right _ member)) (Nat.lt_irrefl _)
  intro mark denoted member
  exact coherent.append_remembers value (coherent.remembers mark denoted member)

theorem step {next : JournalRun ρ} (coherent : Coherent run) (stepped : JournalRun.Step run next) :
    Coherent next := by
  have sound := coherent.sound
  cases stepped with
  | append value => exact coherent.append value
  | mark => exact coherent.capture
  | restore ran => exact coherent.change (PackedJournal.restoreWith_changes sound ran)
  | restoreCurrent ran => exact coherent.change (PackedJournal.restoreCurrentWith_changes sound ran)
  | release ran => exact coherent.change (PackedJournal.releasePrefix_changes sound ran)
  | begin ran => exact coherent.change (PackedJournal.beginCheckpointCandidate_changes sound ran)
  | accept ran =>
    exact coherent.change (PackedJournal.acceptCheckpointCandidateWith_changes sound ran)
  | reject ran =>
    exact coherent.change (PackedJournal.rejectCheckpointCandidateWith_changes sound ran)

end Coherent

theorem coherent_start (recordsPerChunk : Nat) :
    Coherent (start recordsPerChunk : JournalRun ρ) where
  sound := PackedJournal.sound_empty _
  base := rfl
  earlier := fun _ member => absurd member List.not_mem_nil
  distinct := .nil
  remembers := fun _ _ member => absurd member List.not_mem_nil

theorem coherent_of_reached {run : JournalRun ρ} (reached : run.Reached) : Coherent run := by
  induction reached with
  | start recordsPerChunk => exact coherent_start recordsPerChunk
  | step _ stepped ih => exact ih.step stepped

/-- In every run the journal accepts a captured mark exactly when the records it
denoted are a prefix of the lineage not shorter than the released base, or when it
stands at the coordinates of the base. -/
theorem validates_exactly {run : JournalRun ρ} (reached : run.Reached)
    {mark : PackedJournalMark} {denoted : List Nat} (captured : (mark, denoted) ∈ run.marks) :
    run.journal.validates mark = true ↔
      (denoted <+: run.lineage ∧ run.released.length ≤ denoted.length) ∨
        run.journal.isBase mark = true :=
  let coherent := coherent_of_reached reached
  coherent.validates_iff (coherent.remembers mark denoted captured)

def keepRecord (record : Unit) (context : Unit) : Option (Unit × Unit) := some (record, context)

def dropRecord (_ : Unit) (context : Unit) : Option Unit := some context

/-- A journal restored behind its first mark, whose second one is stale then. -/
theorem validates_exactly_stale : ∃ run : JournalRun Unit, run.Reached ∧ run.lineage = [1] ∧
    ∃ mark denoted, (mark, denoted) ∈ run.marks ∧ denoted = [0] ∧
      (run.journal.validates mark = true ↔
        (denoted <+: run.lineage ∧ run.released.length ≤ denoted.length) ∨
          run.journal.isBase mark = true) := by
  have marked := step (@start Unit 8) .mark
  have stale := step (step marked (.append ())) .mark
  have restored := step stale
    (@JournalRun.Step.restore Unit _ Unit ⟨none, 0, 0⟩ keepRecord dropRecord () () true _ rfl)
  have again := step (step restored (.append ())) .mark
  refine ⟨_, again, by decide, ⟨some ⟨0, 1⟩, 1, 1⟩, [0], by decide, rfl, ?_⟩
  exact validates_exactly again (by decide)

/-- A mark on an abandoned suffix is accepted again once a later mark with the same
coordinates has become the base. -/
theorem stale_mark_at_base : ∃ run : JournalRun Unit, run.Reached ∧ ∃ mark denoted,
    (mark, denoted) ∈ run.marks ∧ run.journal.validates mark = true ∧ ¬denoted <+: run.lineage := by
  have marked := step (@start Unit 8) .mark
  have stale := step (step marked (.append ())) .mark
  have restored := step stale
    (@JournalRun.Step.restore Unit _ Unit ⟨none, 0, 0⟩ keepRecord dropRecord () () true _ rfl)
  have again := step (step restored (.append ())) .mark
  have released := step again
    (@JournalRun.Step.release Unit _ Unit ⟨some ⟨0, 2⟩, 1, 1⟩ dropRecord () () (some 1) _ rfl)
  refine ⟨_, released, ⟨some ⟨0, 1⟩, 1, 1⟩, [0], ?_, ?_, ?_⟩
  · decide
  · decide
  · decide

end Umber.Command
