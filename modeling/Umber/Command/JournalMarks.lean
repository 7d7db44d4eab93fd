import Umber.Command.JournalRuns

/-! What a journal still knows of its marks: a live key stands where it stood when
the mark was captured, and a key given up never comes back. -/

set_option autoImplicit false

namespace Umber.Command

variable {ρ : Type}

namespace PackedJournal

/-- A lane of the journal: the current one, or the one a fork set aside. -/
def Lane (journal : PackedJournal ρ) (lane : List (JournalChunk ρ)) : Prop :=
  lane = journal.current ∨ ∃ fork before after, journal.fork = some fork ∧
    Cuts journal.baseChunks journal.baseRecords fork.selected before after journal.current ∧
    lane = before ++ journal.detached

end PackedJournal

structure MarkKnown (journal : PackedJournal (Nat × ρ)) (released : List Nat) (next : Nat)
    (mark : PackedJournalMark) (denoted : List Nat) : Prop where
  count : mark.records = denoted.length
  earlier : ∀ number ∈ denoted, number < next
  base : denoted = released → mark.chunks = journal.baseChunks
  behind : mark.tail = none → denoted <+: released
  issued : ∀ key, mark.tail = some key → journal.slots.Issued key
  placed : ∀ lane front chunk rest, journal.Lane lane → lane = front ++ chunk :: rest →
    mark.tail = some chunk.key →
    denoted = released ++ numbersOf (front ++ [chunk]) ∧ mark.chunks = chunk.depth
  last : ∀ number chunk, mark.tail ≠ none → denoted.getLast? = some number →
    chunk ∈ journal.current ++ journal.detached → number ∈ chunk.values.map Prod.fst →
    mark.tail = some chunk.key
  closed : ∀ front chunk, journal.intervalTailOpen = true →
    journal.current = front ++ [chunk] → mark.tail ≠ some chunk.key

/-- A run whose journal is sound, whose numbers are distinct and in the past, and
whose marks are known. -/
structure Coherent (run : JournalRun ρ) : Prop where
  sound : Sound run.journal
  base : run.released.length = run.journal.baseRecords
  earlier : ∀ number ∈ run.released ++
    numbersOf (run.journal.current ++ run.journal.detached), number < run.next
  distinct : (numbersOf (run.journal.current ++ run.journal.detached)).Nodup
  remembers : ∀ mark denoted, (mark, denoted) ∈ run.marks →
    MarkKnown run.journal run.released run.next mark denoted

theorem numbersOf_append (before after : List (JournalChunk (Nat × ρ))) :
    numbersOf (before ++ after) = numbersOf before ++ numbersOf after := by
  unfold numbersOf
  rw [recordsOf_append, List.map_append]

theorem Cuts.extend {baseChunks baseRecords : Nat} {before after lane : List (JournalChunk ρ)}
    {mark : PackedJournalMark} (cuts : Cuts baseChunks baseRecords mark before after lane)
    (later : List (JournalChunk ρ)) :
    Cuts baseChunks baseRecords mark before (after ++ later) (lane ++ later) :=
  ⟨by rw [cuts.split, List.append_assoc], cuts.spans, cuts.tail⟩

variable {chunk : JournalChunk (Nat × ρ)}

theorem SameTrace.mem {chunks others : List (JournalChunk (Nat × ρ))}
    (same : SameTrace chunks others) (member : chunk ∈ chunks) :
    ∃ old ∈ others, traceOf chunk = traceOf old := by
  have traced : traceOf chunk ∈ others.map traceOf := by
    rw [← same]
    exact List.mem_map_of_mem member
  obtain ⟨old, oldMember, found⟩ := List.mem_map.mp traced
  exact ⟨old, oldMember, found.symm⟩

theorem SameTrace.locate {front rest whole : List (JournalChunk (Nat × ρ))}
    (same : SameTrace (front ++ chunk :: rest) whole) :
    ∃ oldFront old oldRest, whole = oldFront ++ old :: oldRest ∧
      SameTrace (front ++ [chunk]) (oldFront ++ [old]) ∧ traceOf chunk = traceOf old := by
  unfold SameTrace at same
  rw [List.map_append, List.map_cons] at same
  obtain ⟨oldFront, tail, split_, frontSame, tailSame⟩ := List.map_eq_append_iff.mp same.symm
  obtain ⟨old, oldRest, rfl, oldSame, -⟩ := List.map_eq_cons_iff.mp tailSame
  refine ⟨oldFront, old, oldRest, split_, ?_, oldSame.symm⟩
  unfold SameTrace
  rw [List.map_append, List.map_append, List.map_singleton, List.map_singleton, frontSame, oldSame]

namespace PackedJournal

variable {journal changed : PackedJournal (Nat × ρ)} {released : List Nat} {next : Nat}
  {mark : PackedJournalMark} {denoted : List Nat}

structure Shortens (journal changed : PackedJournal (Nat × ρ)) : Prop where
  base : changed.baseChunks = journal.baseChunks
  closed : changed.intervalTailOpen = false
  issued : ∀ key, journal.slots.Issued key → changed.slots.Issued key
  lanes : ∀ lane, changed.Lane lane →
    ∃ whole rest, journal.Lane whole ∧ SameTrace (lane ++ rest) whole
  chunks : ∀ chunk ∈ changed.current ++ changed.detached,
    ∃ old ∈ journal.current ++ journal.detached, traceOf chunk = traceOf old
  numbers : (numbersOf (changed.current ++ changed.detached)).Sublist
    (numbersOf (journal.current ++ journal.detached))

theorem Shortens.remembers (shorter : Shortens journal changed)
    (known : MarkKnown journal released next mark denoted) :
    MarkKnown changed released next mark denoted where
  count := known.count
  earlier := known.earlier
  base := fun same => (known.base same).trans shorter.base.symm
  behind := known.behind
  issued := fun key tail => shorter.issued key (known.issued key tail)
  placed := by
    intro lane front chunk rest here split_ tail
    obtain ⟨whole, later, wholeHere, same⟩ := shorter.lanes lane here
    rw [split_, List.append_assoc, List.cons_append] at same
    obtain ⟨oldFront, old, oldRest, oldSplit, frontSame, chunkSame⟩ := same.locate
    have key : chunk.key = old.key := congrArg Prod.fst chunkSame
    have depth : chunk.depth = old.depth := congrArg (fun trace => trace.2.1) chunkSame
    rw [key] at tail
    obtain ⟨numbers, chunks⟩ := known.placed whole oldFront old oldRest wholeHere oldSplit tail
    rw [frontSame.numbers, depth]
    exact ⟨numbers, chunks⟩
  last := by
    intro number chunk tail last member inside
    obtain ⟨old, oldMember, same⟩ := shorter.chunks chunk member
    have key : chunk.key = old.key := congrArg Prod.fst same
    have numbers : chunk.values.map Prod.fst = old.values.map Prod.fst :=
      congrArg (fun trace => trace.2.2.2) same
    rw [numbers] at inside
    rw [key]
    exact known.last number old tail last oldMember inside
  closed := by
    intro front chunk open_
    rw [shorter.closed] at open_
    cases open_

variable {before after : List (JournalChunk (Nat × ρ))} {slots : SlotMap Unit}

theorem rewound_shortens
    (cuts : Cuts journal.baseChunks journal.baseRecords mark before after journal.current)
    (kept : ∀ key, journal.slots.Issued key → slots.Issued key) :
    Shortens journal (journal.rewound mark before slots) where
  base := rfl
  closed := rfl
  issued := kept
  lanes := by
    rintro lane (rfl | ⟨fork, front, middle, forked, selected, rfl⟩)
    · exact ⟨journal.current, after, Or.inl rfl, congrArg (List.map traceOf) cuts.split.symm⟩
    have extended := selected.extend after
    rw [show (journal.rewound mark before slots).current ++ after = journal.current from
      cuts.split.symm] at extended
    exact ⟨_, [], Or.inr ⟨fork, front, middle ++ after, forked, extended, rfl⟩,
      by rw [List.append_nil]; rfl⟩
  chunks := by
    intro chunk member
    refine ⟨chunk, ?_, rfl⟩
    rw [cuts.split, List.append_assoc]
    exact (List.mem_append.mp member).elim (fun here => List.mem_append_left _ here)
      fun aside => List.mem_append_right _ (List.mem_append_right _ aside)
  numbers := by
    rw [cuts.split, List.append_assoc, numbersOf_append, numbersOf_append, numbersOf_append]
    exact List.Sublist.append_left (List.sublist_append_right _ _) _

variable {visited : List (JournalChunk (Nat × ρ))}

theorem forked_shortens
    (cuts : Cuts journal.baseChunks journal.baseRecords mark before after journal.current)
    (trace : SameTrace visited after) :
    Shortens journal { journal with
      current := before, detached := visited, chunks := mark.chunks, records := mark.records
      fork := some
        { selected := mark, priorChunks := journal.chunks, priorRecords := journal.records }
      intervalTailOpen := false } where
  base := rfl
  closed := rfl
  issued := fun _ issued => issued
  lanes := by
    rintro lane (rfl | ⟨fork, front, middle, forked, selected, rfl⟩)
    · exact ⟨journal.current, after, Or.inl rfl, congrArg (List.map traceOf) cuts.split.symm⟩
    cases forked
    have split_ : before = front ++ middle := selected.split
    have count := selected.spans.chunks_eq
    have counted := cuts.spans.chunks_eq
    dsimp only at count
    have none_ : middle = [] := by
      rw [split_, List.length_append] at counted
      exact List.length_eq_zero_iff.mp (by omega)
    refine ⟨journal.current, [], Or.inl rfl, ?_⟩
    rw [List.append_nil, cuts.split, split_, none_, List.append_nil]
    exact SameTrace.append rfl trace
  chunks := by
    intro chunk member
    rcases List.mem_append.mp member with here | aside
    · refine ⟨chunk, List.mem_append_left _ ?_, rfl⟩
      rw [cuts.split]
      exact List.mem_append_left _ here
    obtain ⟨old, oldMember, same⟩ := trace.mem aside
    refine ⟨old, List.mem_append_left _ ?_, same⟩
    rw [cuts.split]
    exact List.mem_append_right _ oldMember
  numbers := by
    dsimp only
    rw [cuts.split, numbersOf_append, numbersOf_append, numbersOf_append, trace.numbers]
    exact List.sublist_append_left _ _

theorem accepted_shortens (kept : ∀ key, journal.slots.Issued key → slots.Issued key) :
    Shortens journal { journal with
      slots, detached := [], fork := none, intervalTailOpen := false } where
  base := rfl
  closed := rfl
  issued := kept
  lanes := by
    rintro lane (rfl | ⟨fork, front, middle, forked, selected, rfl⟩)
    · exact ⟨journal.current, [], Or.inl rfl, by rw [List.append_nil]; rfl⟩
    · cases forked
  chunks := by
    intro chunk member
    rw [List.append_nil] at member
    exact ⟨chunk, List.mem_append_left _ member, rfl⟩
  numbers := by
    dsimp only
    rw [List.append_nil, numbersOf_append]
    exact List.sublist_append_left _ _

theorem rejoined_shortens {fork : JournalFork} (forked : journal.fork = some fork)
    (cuts : Cuts journal.baseChunks journal.baseRecords fork.selected before after
      journal.current) (trace : SameTrace visited journal.detached)
    (kept : ∀ key, journal.slots.Issued key → slots.Issued key) :
    Shortens journal { journal with
      slots, current := before ++ visited, detached := [], chunks := fork.priorChunks
      records := fork.priorRecords, fork := none, intervalTailOpen := false } where
  base := rfl
  closed := rfl
  issued := kept
  lanes := by
    rintro lane (rfl | ⟨other, front, middle, found, selected, rfl⟩)
    · refine ⟨before ++ journal.detached, [],
        Or.inr ⟨fork, before, after, forked, cuts, rfl⟩, ?_⟩
      rw [List.append_nil]
      exact SameTrace.append rfl trace
    · cases found
  chunks := by
    intro chunk member
    rw [List.append_nil] at member
    rcases List.mem_append.mp member with here | aside
    · refine ⟨chunk, List.mem_append_left _ ?_, rfl⟩
      rw [cuts.split]
      exact List.mem_append_left _ here
    obtain ⟨old, oldMember, same⟩ := trace.mem aside
    exact ⟨old, List.mem_append_right _ oldMember, same⟩
  numbers := by
    dsimp only
    rw [List.append_nil, cuts.split, numbersOf_append, numbersOf_append, numbersOf_append,
      trace.numbers]
    exact List.Sublist.append_right (List.sublist_append_left _ _) _

theorem mark_shortens (journal : PackedJournal (Nat × ρ)) : Shortens journal journal.mark.2 where
  base := rfl
  closed := rfl
  issued := fun _ issued => issued
  lanes := fun lane here => ⟨lane, [], here, by rw [List.append_nil]; rfl⟩
  chunks := fun chunk member => ⟨chunk, member, rfl⟩
  numbers := List.Sublist.refl _

end PackedJournal

end Umber.Command
