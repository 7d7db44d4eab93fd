import Umber.Bib.TextProperties

/-! The moves of the reader: it never goes back behind the place a value starts at, stands at
boundaries as long as it has work left, and leaves the records alone while it reads values. -/

set_option autoImplicit false

namespace Umber.Bib

/-! ## Moves -/

namespace Parser

variable {source : RawSource} {first next last : Parser}

def AtBoundary (source : RawSource) (parser : Parser) : Prop :=
  isCharBoundary source.input parser.at_ = true

structure Forward (source : RawSource) (first next : Parser) : Prop where
  records : next.records = first.records
  le : first.at_ ≤ next.at_
  bound : next.at_ ≤ source.input.length

structure Settles (source : RawSource) (first next : Parser) : Prop
    extends Forward source first next where
  boundary : next.AtBoundary source

structure Halts (source : RawSource) (first next : Parser) : Prop
    extends Forward source first next where
  standing : next.AtBoundary source ∨ source.limits.maxWork ≤ next.work

theorem Forward.trans (left : first.Forward source next) (right : next.Forward source last) :
    first.Forward source last :=
  ⟨right.records.trans left.records, Nat.le_trans left.le right.le, right.bound⟩

theorem Settles.refl (boundary : first.AtBoundary source) : first.Settles source first :=
  ⟨⟨rfl, Nat.le_refl _, isCharBoundary_le boundary⟩, boundary⟩

theorem Settles.trans (left : first.Settles source next) (right : next.Settles source last) :
    first.Settles source last :=
  ⟨left.toForward.trans right.toForward, right.boundary⟩

theorem Settles.halts (settles : first.Settles source next) : first.Halts source next :=
  ⟨settles.toForward, .inl settles.boundary⟩

theorem Settles.trans_halts (left : first.Settles source next)
    (right : next.Halts source last) : first.Halts source last :=
  ⟨left.toForward.trans right.toForward, right.standing⟩

section Error

variable (parser : Parser) (kind : BibTexDiagnosticKind) (offset : Nat)
  (message : BibTexMessage)

@[simp] theorem error_at : (parser.error source kind offset message).at_ = parser.at_ := by
  unfold error
  split <;> rfl

@[simp] theorem error_work : (parser.error source kind offset message).work = parser.work := by
  unfold error
  split <;> rfl

@[simp] theorem error_records :
    (parser.error source kind offset message).records = parser.records := by
  unfold error
  split <;> rfl

end Error

theorem Halts.error (halts : first.Halts source next) (kind : BibTexDiagnosticKind)
    (offset : Nat) (message : BibTexMessage) :
    first.Halts source (next.error source kind offset message) := by
  refine ⟨⟨?_, ?_, ?_⟩, ?_⟩
  · rw [error_records, halts.records]
  · rw [error_at]
    exact halts.le
  · rw [error_at]
    exact halts.bound
  rw [AtBoundary, error_at, error_work]
  exact halts.standing

theorem Settles.error (settles : first.Settles source next) (kind : BibTexDiagnosticKind)
    (offset : Nat) (message : BibTexMessage) :
    first.Settles source (next.error source kind offset message) := by
  refine ⟨(settles.halts.error kind offset message).toForward, ?_⟩
  rw [AtBoundary, error_at]
  exact settles.boundary

variable {byte : UInt8}

theorem isAsciiWhitespace_ascii (white : isAsciiWhitespace byte = true) : byte.toNat < 0x80 := by
  simp only [isAsciiWhitespace, Bool.or_eq_true, beq_iff_eq] at white
  rcases white with (((rfl | rfl) | rfl) | rfl) | rfl <;> decide

theorem isAsciiDigit_ascii (digit : isAsciiDigit byte = true) : byte.toNat < 0x80 := by
  simp only [isAsciiDigit, Bool.and_eq_true, decide_eq_true_eq] at digit
  omega

theorem isIdentifierByte_ascii (stops : isIdentifierByte byte = false) : byte.toNat < 0x80 := by
  simp only [isIdentifierByte, Bool.and_eq_false_iff, Bool.not_eq_false', Bool.or_eq_true,
    beq_iff_eq] at stops
  rcases stops with white | ((((((((rfl | rfl) | rfl) | rfl) | rfl) | rfl) | rfl) | rfl) | rfl)
  · exact isAsciiWhitespace_ascii white
  all_goals decide

theorem space_settles (separated : Separated source.input) (boundary : first.AtBoundary source) :
    first.Settles source (first.space source) :=
  ⟨⟨rfl, source.le_advanceWhile _ _, source.advanceWhile_le _ (isCharBoundary_le boundary)⟩,
    source.advanceWhile_boundary_ascii separated boundary fun _ => isAsciiWhitespace_ascii⟩

theorem peek_settles (separated : Separated source.input)
    (found : first.peek source = some byte) (ascii : byte.toNat < 0x80) :
    first.Settles source { first with at_ := first.at_ + 1 } :=
  ⟨⟨rfl, Nat.le_succ _, (List.getElem?_eq_some_iff.mp found).1⟩,
    separated.after found ascii⟩

/-- Eating takes the byte at the place of the parser, or nothing. -/
theorem eat_cases (source : RawSource) (first : Parser) (byte : UInt8) :
    (first.peek source = some byte ∧
        first.eat source byte = (true, { first with at_ := first.at_ + 1 })) ∨
      (first.peek source ≠ some byte ∧ first.eat source byte = (false, first)) := by
  by_cases found : first.peek source = some byte
  · exact .inl ⟨found, if_pos found⟩
  · exact .inr ⟨found, if_neg found⟩

theorem identifier_ok (boundary : first.AtBoundary source) :
    ∃ text next, first.identifier source = .ok (text, next) ∧ first.Settles source next := by
  have bound := isCharBoundary_le boundary
  have stop : isCharBoundary source.input (source.advanceWhile isIdentifierByte first.at_) =
      true :=
    source.advanceWhile_boundary bound fun _ => isIdentifierByte_ascii
  unfold identifier
  dsimp only
  rw [slice_ok (source.le_advanceWhile _ _) boundary stop]
  exact ⟨_, _, rfl, ⟨rfl, source.le_advanceWhile _ _, source.advanceWhile_le _ bound⟩, stop⟩

/-! ## Values -/

/-- The text of a braced or quoted part stands between its delimiters. -/
def PartSound (source : RawSource) : RawBibValuePart → Prop
  | .braced text => source.Between true 0x7B 0x7D text
  | .quoted text => source.Between false 0x22 0x22 text
  | .number _ | .macro_ _ => True

/-- What a reading function yields: something sound at a boundary, or nothing, standing. -/
def Reads {α : Type} (source : RawSource) (first : Parser) (sound : α → Prop)
    (result : Option α × Parser) : Prop :=
  match result with
  | (some value, next) => sound value ∧ first.Settles source next
  | (none, next) => first.Halts source next

section

variable (separated : Separated source.input)
include separated

theorem number_meets (boundary : first.AtBoundary source) :
    (first.number source).Meets source.Miscut fun result =>
      first.Settles source result.2 := by
  have bound := isCharBoundary_le boundary
  have stop : isCharBoundary source.input (source.advanceWhile isAsciiDigit first.at_) = true :=
    source.advanceWhile_boundary_ascii separated boundary fun _ => isAsciiDigit_ascii
  unfold number
  dsimp only
  rcases (RawSource.rawText_meets separated (source.le_advanceWhile _ _) boundary stop).cases_
    with ⟨_, stopped, at_, control, -⟩ | ⟨text, ran, -⟩
  · have digit := List.mem_of_getElem? control.backslash
    rw [RawSource.advanceWhile, Nat.add_sub_cancel_left, ← List.prefix_iff_eq_take.mp
      (List.takeWhile_prefix isAsciiDigit)] at digit
    exact absurd (List.all_eq_true.mp List.all_takeWhile _ digit) (by decide)
  rw [ran]
  exact ⟨⟨rfl, source.le_advanceWhile _ _, source.advanceWhile_le _ bound⟩, stop⟩

/-- The end of a scan is the end of a part: a text between its delimiters, or a place to
recover from. -/
theorem finishText_meets {strict : Bool}
    {opener closer : UInt8} (found : first.peek source = some opener)
    (ends_ : (opener, closer) ∈ RawSource.delimiters) (openerAscii : opener.toNat < 0x80)
    (closerAscii : closer.toNat < 0x80) {scan : TextScan}
    (ends : source.ScanEnds strict closer (first.at_ + 1) (first.at_ + 1) false 0 scan)
    (deep missing : String) : (first.finishText source scan (first.at_ + 1) deep missing).Meets
      source.Miscut (first.Reads source (source.Between strict opener closer)) := by
  have le : first.at_ ≤ scan.at_ := Nat.le_of_succ_le ends.le
  unfold finishText
  cases ending : scan.ending with
  | closed =>
    obtain ⟨text, length, split, nested⟩ := ends.closed ending
    have closes : source.input[scan.at_ - 1]? = some closer := by
      rw [show scan.at_ - 1 = first.at_ + 1 + text.length by omega, ← List.getElem?_drop, split,
        List.getElem?_append_right (Nat.le_refl _), Nat.sub_self]
      rfl
    have cut := RawSource.rawText_meets separated (by omega : first.at_ + 1 ≤ scan.at_ - 1)
      (separated.after found openerAscii) (RawSource.boundary_of_ascii closes closerAscii)
    dsimp only
    rcases cut.cases_ with ⟨_, stopped, cuts⟩ | ⟨cutText, ran, isSlice⟩
    · rw [stopped]
      exact ⟨first.at_, scan.at_ - 1, ⟨by omega, _, ends_, found, closes⟩, cuts⟩
    rw [ran]
    refine ⟨⟨first.at_, scan.at_ - 1, by omega, found, closes, isSlice, ?_⟩,
      ⟨rfl, le, ends.bound⟩, ?_⟩
    · rw [isSlice.1, show scan.at_ - 1 - (first.at_ + 1) = text.length by omega, split,
        List.take_left]
      exact nested
    have behind := separated.after closes closerAscii
    rwa [show scan.at_ - 1 + 1 = scan.at_ by omega] at behind
  | outOfWork =>
    exact ⟨⟨rfl, le, ends.bound⟩, .inr (ends.outOfWork ending)⟩
  | tooDeep =>
    refine Halts.error ?_ _ _ _
    exact ⟨⟨rfl, le, ends.bound⟩, .inl (ends.tooDeep ending)⟩
  | unterminated => ?_
  refine Halts.error ?_ _ _ _
  cases recovery : scan.recovery with
  | none =>
    refine ⟨⟨rfl, le, ends.bound⟩, .inl ?_⟩
    exact ends.unterminated ending ▸ isCharBoundary_length _
  | some offset =>
    obtain ⟨later, bound, boundary⟩ := ends.recovery offset recovery
    exact ⟨⟨rfl, Nat.le_of_succ_le later, bound⟩, .inl boundary⟩

theorem braced_meets (depth : Nat) (found : first.peek source = some 0x7B) :
    (first.braced source depth).Meets source.Miscut
      (first.Reads source (source.Between true 0x7B 0x7D)) := by
  have inside : first.at_ < source.input.length := (List.getElem?_eq_some_iff.mp found).1
  have scanned : (source.bracedLoop depth (source.input.drop (first.at_ + 1)) (first.at_ + 1)
      first.work (0 + 1) false none).Meets source.Miscut
        (source.ScanEnds true 0x7D (first.at_ + 1) (first.at_ + 1) false 0) :=
    RawSource.bracedLoop_ends separated depth rfl inside (Nat.le_refl _) .none
  unfold braced
  dsimp only
  rcases scanned.cases_ with ⟨_, stopped, miscut⟩ | ⟨scan, ran, ends⟩
  · rw [Nat.zero_add] at stopped
    rw [stopped]
    exact miscut
  rw [Nat.zero_add] at ran
  rw [ran]
  exact finishText_meets separated found (by decide) (by decide) (by decide) ends _ _

theorem quoted_meets (depth : Nat) (found : first.peek source = some 0x22) :
    (first.quoted source depth).Meets source.Miscut
      (first.Reads source (source.Between false 0x22 0x22)) := by
  have inside : first.at_ < source.input.length := (List.getElem?_eq_some_iff.mp found).1
  have scanned : (source.quotedLoop depth (source.input.drop (first.at_ + 1)) (first.at_ + 1)
      first.work 0 false none).Meets source.Miscut
        (source.ScanEnds false 0x22 (first.at_ + 1) (first.at_ + 1) false 0) :=
    RawSource.quotedLoop_ends separated depth rfl inside (Nat.le_refl _) .none
  unfold quoted
  dsimp only
  rcases scanned.cases_ with ⟨_, stopped, miscut⟩ | ⟨scan, ran, ends⟩
  · rw [stopped]
    exact miscut
  rw [ran]
  exact finishText_meets separated found (by decide) (by decide) (by decide) ends _ _

end

theorem Reads.map {α β : Type} {sound : α → Prop} {mapped : β → Prop} {f : α → β}
    {text : Option α} (reads : first.Reads source sound (text, next))
    (maps : ∀ value, sound value → mapped (f value)) :
    first.Reads source mapped (text.map f, next) := by
  cases text with
  | none => exact reads
  | some value => exact ⟨maps value reads.1, reads.2⟩

variable (separated : Separated source.input)
include separated

theorem valuePart_meets (depth : Nat) (boundary : first.AtBoundary source) :
    (first.valuePart source depth).Meets source.Miscut
      (first.Reads source (PartSound source)) := by
  unfold valuePart
  cases found : first.peek source with
  | none => exact (Settles.refl boundary).halts
  | some byte => ?_
  dsimp only
  by_cases opens : byte = 0x7B
  · rw [if_pos opens]
    rw [opens] at found
    rcases (braced_meets separated (depth + 1) found).cases_ with
      ⟨_, stopped, miscut⟩ | ⟨⟨text, next⟩, ran, reads⟩
    · rw [stopped]
      exact miscut
    rw [ran]
    exact reads.map fun _ between => between
  rw [if_neg opens]
  by_cases quotes : byte = 0x22
  · rw [if_pos quotes]
    rw [quotes] at found
    rcases (quoted_meets separated (depth + 1) found).cases_ with
      ⟨_, stopped, miscut⟩ | ⟨⟨text, next⟩, ran, reads⟩
    · rw [stopped]
      exact miscut
    rw [ran]
    exact reads.map fun _ between => between
  rw [if_neg quotes]
  by_cases digit : isAsciiDigit byte = true
  · rw [if_pos digit]
    rcases (number_meets separated boundary).cases_ with
      ⟨_, stopped, miscut⟩ | ⟨⟨text, next⟩, ran, settles⟩
    · rw [stopped]
      exact miscut
    rw [ran]
    exact ⟨trivial, settles⟩
  rw [if_neg digit]
  obtain ⟨name, next, ran, settles⟩ := identifier_ok boundary
  rw [ran]
  dsimp only
  by_cases empty : name = []
  · rw [if_pos empty]
    exact settles.halts.error _ _ _
  rw [if_neg empty]
  exact ⟨trivial, settles⟩

/-- Every part adds its `#` to the place of the parser, so the fuel lasts. -/
theorem valueParts_meets (depth : Nat) {fuel : Nat}
    {parts : List RawBibValuePart} (sound : ∀ part ∈ parts, PartSound source part) (size : Nat)
    (boundary : first.AtBoundary source) (enough : source.input.length < fuel + first.at_) :
    (valueParts source depth fuel first parts size).Meets source.Miscut
      (first.Reads source fun parts => ∀ part ∈ parts, PartSound source part) := by
  induction fuel generalizing first parts size with
  | zero =>
    have := isCharBoundary_le boundary
    omega
  | succ fuel ih => ?_
  have spaced := space_settles separated boundary
  rw [valueParts]
  rcases (valuePart_meets separated depth spaced.boundary).cases_ with
    ⟨_, stopped, miscut⟩ | ⟨⟨part, after⟩, ran, reads⟩
  · rw [stopped]
    exact miscut
  rw [ran]
  cases part with
  | none => exact spaced.trans_halts reads
  | some part => ?_
  obtain ⟨partSound, settles⟩ := reads
  have read := spaced.trans settles
  have grown : ∀ other ∈ parts ++ [part], PartSound source other := by
    intro other member
    rcases List.mem_append.mp member with old | new
    · exact sound other old
    · exact List.mem_singleton.mp new ▸ partSound
  dsimp only
  by_cases large : source.limits.maxValueBytes < size + part.size
  · rw [if_pos large]
    exact read.halts.error _ _ _
  rw [if_neg large]
  have behind := read.trans (space_settles separated read.boundary)
  rcases eat_cases source (after.space source) 0x23 with ⟨joined, eaten⟩ | ⟨-, eaten⟩
  · rw [eaten]
    have stepped := behind.trans (peek_settles separated joined (by decide))
    have later := behind.le
    refine (ih grown (size + part.size) stepped.boundary ?_).imp ?_
    · show _ < fuel + ((after.space source).at_ + 1)
      omega
    intro result reads
    match result, reads with
    | (some _, _), ⟨allSound, settles⟩ => exact ⟨allSound, stepped.trans settles⟩
    | (none, _), halts => exact stepped.trans_halts halts
  rw [eaten]
  exact ⟨grown, behind⟩

theorem value_meets (close : UInt8) (depth : Nat) (boundary : first.AtBoundary source) :
    (first.value source close depth).Meets source.Miscut
      (first.Reads source fun value => ∀ part ∈ value.parts, PartSound source part) := by
  unfold value
  by_cases deep : source.limits.maxNesting < depth
  · rw [if_pos deep]
    exact (Settles.refl boundary).halts.error _ _ _
  rw [if_neg deep]
  have spaced := space_settles separated boundary
  dsimp only
  have none_ : ∀ part ∈ ([] : List RawBibValuePart), PartSound source part := nofun
  rcases (valueParts_meets separated depth none_ 0 spaced.boundary
    (Nat.lt_add_right _ (Nat.lt_succ_self _))).cases_ with
    ⟨_, stopped, miscut⟩ | ⟨⟨parts, after⟩, ran, reads⟩
  · rw [stopped]
    exact miscut
  rw [ran]
  cases parts with
  | none => exact spaced.trans_halts reads
  | some parts => ?_
  have read := spaced.trans reads.2
  dsimp only
  by_cases ended : after.peek source = some close ∨ after.peek source = some 0x2C
  · rw [if_pos ended]
    exact ⟨reads.1, read⟩
  rw [if_neg ended]
  exact read.halts.error _ _ _

end Parser

end Umber.Bib
