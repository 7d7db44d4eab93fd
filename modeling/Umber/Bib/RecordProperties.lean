import Umber.Bib.ValueProperties

/-! Every record of a source is read or skipped: the reader adds one record for each `@` it
finds, and stands behind that `@` afterwards. -/

set_option autoImplicit false

namespace Umber.Bib

namespace RawSource

variable {source : RawSource} {rest : List UInt8} {at_ work : Nat}

def StopsAt (source : RawSource) (at_ : Nat) (ended : Nat × Nat) : Prop :=
  at_ ≤ ended.1 ∧ ended.1 ≤ source.input.length ∧
    (isCharBoundary source.input ended.1 = true ∨ source.limits.maxWork ≤ ended.2)

theorem StopsAt.of_succ {ended : Nat × Nat} (stops : source.StopsAt (at_ + 1) ended) :
    source.StopsAt at_ ended :=
  ⟨Nat.le_of_succ_le stops.1, stops.2⟩

variable {close : UInt8}

theorem recoverLoop_ok (separated : Separated source.input) (closeAscii : close.toNat < 0x80)
    (dropped : source.input.drop at_ = rest) (bound : at_ ≤ source.input.length) (braces : Nat)
    (quoted escaped : Bool) :
    ∃ ended, source.recoverLoop close rest at_ work braces quoted escaped = .ok ended ∧
      source.StopsAt at_ ended := by
  induction rest generalizing at_ work braces quoted escaped with
  | nil =>
    have atEnd := at_end_of_drop dropped bound
    exact ⟨_, rfl, Nat.le_refl _, bound, .inl (atEnd ▸ isCharBoundary_length _)⟩
  | cons byte rest ih => ?_
  have found := found_of_drop dropped
  have inside := lt_of_drop dropped
  have step : ∀ braces quoted escaped, ∃ ended,
      source.recoverLoop close rest (at_ + 1) (work + 1) braces quoted escaped = .ok ended ∧
        source.StopsAt at_ ended := by
    intro braces quoted escaped
    obtain ⟨ended, ran, stops⟩ := ih (drop_succ_of_drop dropped) inside braces quoted escaped
    exact ⟨ended, ran, stops.of_succ⟩
  rw [recoverLoop]
  by_cases isEscaped : escaped = true
  · rw [if_pos isEscaped]
    exact step _ _ _
  rw [if_neg isEscaped]
  by_cases backslash : byte = 0x5C
  · rw [if_pos backslash]
    exact step _ _ _
  rw [if_neg backslash]
  by_cases quotes : byte = 0x22
  · rw [if_pos quotes]
    exact step _ _ _
  rw [if_neg quotes]
  by_cases isQuoted : quoted = true
  · rw [if_pos isQuoted]
    exact step _ _ _
  rw [if_neg isQuoted]
  dsimp only
  generalize (if byte = 0x7D ∧ 0 < (if byte = 0x7B then braces + 1 else braces) then
    (if byte = 0x7B then braces + 1 else braces) - 1
    else if byte = 0x7B then braces + 1 else braces) = nesting
  have checked : ∃ boundary : Bool,
      (if byte = 0x40 then source.isLineRecordBoundary at_ else .ok false) = .ok boundary ∧
        (boundary = true → byte = 0x40) := by
    by_cases opens : byte = 0x40
    · obtain ⟨answer, answered⟩ := isLineRecordBoundary_ok
        (boundary_of_ascii found (by rw [opens]; decide))
      exact ⟨answer, by rw [if_pos opens, answered], fun _ => opens⟩
    · exact ⟨false, if_neg opens, nofun⟩
  obtain ⟨boundary, answered, isAt⟩ := checked
  rw [answered]
  dsimp only
  by_cases stops : (nesting = 0 ∧ byte = close) ∨ boundary = true
  · rw [if_pos stops]
    refine ⟨_, rfl, ?_⟩
    by_cases opens : byte = 0x40
    · rw [if_pos opens]
      exact ⟨Nat.le_refl _, bound, .inl (boundary_of_ascii found (by rw [opens]; decide))⟩
    rw [if_neg opens]
    have closes : byte = close := stops.elim And.right fun line => absurd (isAt line) opens
    exact ⟨Nat.le_succ _, inside, .inl (separated.after found (closes ▸ closeAscii))⟩
  rw [if_neg stops]
  by_cases spent : source.limits.maxWork ≤ work + 1
  · rw [if_pos spent]
    exact ⟨_, rfl, Nat.le_succ _, inside, .inr spent⟩
  rw [if_neg spent]
  exact step _ _ _

variable {later ended : Nat}

/-- Behind the seek stands the byte behind an `@`. -/
theorem seekLoop_found (limit : Nat) {comment : Bool} (dropped : source.input.drop at_ = rest)
    (found : seekLoop limit rest comment at_ work = (true, later, ended)) :
    at_ < later ∧ source.input[later - 1]? = some 0x40 := by
  induction rest generalizing at_ work comment with
  | nil => cases found
  | cons byte rest ih => ?_
  have step : ∀ comment, seekLoop limit rest comment (at_ + 1) (work + 1) =
      (true, later, ended) → at_ < later ∧ source.input[later - 1]? = some 0x40 := by
    intro comment found
    obtain ⟨lt, opens⟩ := ih (drop_succ_of_drop dropped) found
    exact ⟨Nat.lt_of_succ_lt lt, opens⟩
  rw [seekLoop] at found
  by_cases inComment : comment = true
  · rw [if_pos inComment] at found
    by_cases ends : byte = 0x0A ∨ limit ≤ work + 1
    · rw [if_pos ends] at found
      by_cases spent : limit ≤ work + 1
      · rw [if_pos spent] at found
        cases found
      rw [if_neg spent] at found
      exact step _ found
    rw [if_neg ends] at found
    exact step _ found
  rw [if_neg inComment] at found
  by_cases percent : byte = 0x25
  · rw [if_pos percent] at found
    exact step _ found
  rw [if_neg percent] at found
  by_cases opens : byte = 0x40
  · rw [if_pos opens] at found
    cases found
    exact ⟨Nat.lt_succ_self _, opens ▸ found_of_drop dropped⟩
  rw [if_neg opens] at found
  by_cases spent : limit ≤ work + 1
  · rw [if_pos spent] at found
    cases found
  rw [if_neg spent] at found
  exact step _ found

theorem skipLoop_ends {open_ : UInt8} {nesting : Nat} {last : Option Nat}
    (dropped : source.input.drop at_ = rest) (bound : at_ ≤ source.input.length)
    (skipped : skipLoop source.limits.maxWork open_ close rest at_ work nesting =
      (last, later, ended)) : (last = none ∧ source.StopsAt at_ (later, ended)) ∨
      ∃ closing, at_ ≤ closing ∧ last = some (closing + 1) ∧ later = closing + 1 ∧
        source.input[closing]? = some close := by
  induction rest generalizing at_ work nesting with
  | nil =>
    cases skipped
    have atEnd := at_end_of_drop dropped bound
    exact .inl ⟨rfl, Nat.le_refl _, bound, .inl (atEnd ▸ isCharBoundary_length _)⟩
  | cons byte rest ih => ?_
  have inside := lt_of_drop dropped
  rw [skipLoop] at skipped
  generalize (if byte = open_ then nesting + 1 else nesting) = deeper at skipped
  generalize (if byte = close then deeper - 1 else deeper) = after at skipped
  by_cases closes : byte = close ∧ after = 0
  · rw [if_pos closes] at skipped
    cases skipped
    exact .inr ⟨at_, Nat.le_refl _, rfl, rfl, closes.1 ▸ found_of_drop dropped⟩
  rw [if_neg closes] at skipped
  by_cases spent : source.limits.maxWork ≤ work + 1
  · rw [if_pos spent] at skipped
    cases skipped
    exact .inl ⟨rfl, Nat.le_succ _, inside, .inr spent⟩
  rw [if_neg spent] at skipped
  rcases ih (drop_succ_of_drop dropped) inside skipped with
    ⟨missing, stops⟩ | ⟨closing, le, ended⟩
  · exact .inl ⟨missing, stops.of_succ⟩
  · exact .inr ⟨closing, Nat.le_of_succ_le le, ended⟩

end RawSource

namespace Parser

variable {source : RawSource} {first next : Parser}

/-! ## One record -/

def Standing (source : RawSource) (parser : Parser) : Prop :=
  parser.AtBoundary source ∨ source.limits.maxWork ≤ parser.work

structure Records (source : RawSource) (start : Nat) (first next : Parser) : Prop where
  grown : ∃ record, next.records = first.records ++ [record] ∧
    record.location = source.location start next.at_ ∧
      ∀ part ∈ record.parts, PartSound source part
  le : first.at_ ≤ next.at_
  bound : next.at_ ≤ source.input.length
  standing : next.Standing source

variable {start : Nat}

theorem Records.of_forward {last : Parser} (forward : first.Forward source next)
    (records : next.Records source start last) : first.Records source start last := by
  obtain ⟨record, grown, facts⟩ := records.grown
  exact ⟨⟨record, forward.records ▸ grown, facts⟩, Nat.le_trans forward.le records.le,
    records.bound, records.standing⟩

/-- A record pushed at a parser that has moved on. -/
theorem Settles.push {record : RawBibRecord} (settles : first.Settles source next)
    (placed : record.location = source.location start next.at_)
    (sound : ∀ part ∈ record.parts, PartSound source part) :
    first.Records source start (next.push record) :=
  ⟨⟨record, by rw [Parser.push, settles.records], placed, sound⟩, settles.le, settles.bound,
    .inl settles.boundary⟩

variable {close : UInt8}

theorem recover_records (separated : Separated source.input) (closeAscii : close.toNat < 0x80)
    (halts : first.Halts source next) (behind : start ≤ next.at_) :
    ∃ last, next.recover source close start = .ok last ∧ first.Records source start last := by
  obtain ⟨ended, ran, le, bound, standing⟩ : ∃ ended,
      source.recoverLoop close (next.rest source) next.at_ next.work 0 false false =
        .ok ended ∧ source.StopsAt next.at_ ended :=
    RawSource.recoverLoop_ok separated closeAscii rfl halts.bound 0 false false
  unfold recover
  rw [ran]
  refine ⟨_, rfl, .of_forward halts.toForward ⟨⟨_, rfl, ?_, nofun⟩, le, bound, standing⟩⟩
  rw [RawBibRecord.location, Nat.min_eq_left behind]
  rfl

/-- A recovery after an error makes the record of a failed read. -/
theorem recover_meets (separated : Separated source.input) {bad : Stop → Prop}
    (closeAscii : close.toNat < 0x80) (halts : first.Halts source next) (behind : start ≤ first.at_) :
     (next.recover source close start).Meets bad (first.Records source start) := by
  obtain ⟨last, ran, records⟩ :=
    recover_records separated closeAscii halts (Nat.le_trans behind halts.le)
  rw [ran]
  exact records

/-- What the end of a record leaves: it was closed here, or the parser went on behind it. -/
def Finished (first : Parser) (source : RawSource) (start : Nat) : Option Nat × Parser → Prop
  | (some last, next) => last = next.at_ ∧ first.Settles source next
  | (none, next) => first.Records source start next

def closeRecord (separated : Parser) (source : RawSource) (close : UInt8) (start : Nat) :
    Checked (Option Nat × Parser) :=
  match separated.eat source close with
  | (true, after) => .ok (some after.at_, after)
  | (false, after) =>
    match (after.error source .syntax_ start (.text "record has trailing content")).recover
        source close start with
    | .error problem => .error problem
    | .ok recovered => .ok (none, recovered)

theorem closeRecord_meets (bad : Stop → Prop) (separated : Separated source.input)
    (closeAscii : close.toNat < 0x80) (behind : start ≤ first.at_) {after : Parser}
    (settles : first.Settles source after) :
    (after.closeRecord source close start).Meets bad (first.Finished source start) := by
  unfold closeRecord
  rcases eat_cases source after close with ⟨closed, eaten⟩ | ⟨-, eaten⟩
  · rw [eaten]
    exact ⟨rfl, settles.trans (peek_settles separated closed closeAscii)⟩
  rw [eaten]
  have halts := settles.halts.error .syntax_ start (.text "record has trailing content")
  obtain ⟨last, ran, records⟩ :=
    recover_records separated closeAscii halts (Nat.le_trans behind halts.le)
  dsimp only
  rw [ran]
  exact records

theorem finishRecord_meets (bad : Stop → Prop) (separated : Separated source.input)
    (closeAscii : close.toNat < 0x80) (boundary : first.AtBoundary source)
    (behind : start ≤ first.at_) :
    (first.finishRecord source close start).Meets bad (first.Finished source start) := by
  have spaced := space_settles separated boundary
  unfold finishRecord
  dsimp only
  rcases eat_cases source (first.space source) 0x2C with ⟨comma, eaten⟩ | ⟨-, eaten⟩
  · rw [eaten]
    have stepped := spaced.trans (peek_settles separated comma (by decide))
    exact closeRecord_meets bad separated closeAscii behind
      (stepped.trans (space_settles separated stepped.boundary))
  rw [eaten]
  exact closeRecord_meets bad separated closeAscii behind spaced

/-- The parser is behind the opening delimiter of a record. -/
def Opened (source : RawSource) (close : UInt8) (first : Parser) : Prop :=
  ∃ before opener, first.at_ = before + 1 ∧ (opener, close) ∈ RawSource.delimiters ∧
    source.input[before]? = some opener

theorem parseComment_meets (separated : Separated source.input) (closeAscii : close.toNat < 0x80)
    (boundary : first.AtBoundary source) (opened : first.Opened source close)
    (behind : start ≤ first.at_) :
    (first.parseComment source start close).Meets source.Miscut
      (first.Records source start) := by
  have bound := isCharBoundary_le boundary
  unfold parseComment skipBalanced
  dsimp only
  generalize skipped : RawSource.skipLoop source.limits.maxWork
    (if close = 0x7D then 0x7B else 0x28) close (first.rest source) first.at_ first.work 1 = ended
  obtain ⟨last, later, work⟩ := ended
  rcases RawSource.skipLoop_ends rfl bound skipped with
    ⟨rfl, le, later_le, standing⟩ | ⟨closing, le, rfl, rfl, closes⟩
  · have halts : first.Halts source { first with at_ := later, work := work } :=
      ⟨⟨rfl, le, later_le⟩, standing⟩
    exact recover_meets separated closeAscii (halts.error _ _ _) behind
  have settles : first.Settles source { first with at_ := closing + 1, work := work } :=
    ⟨⟨rfl, Nat.le_succ_of_le le, (List.getElem?_eq_some_iff.mp closes).1⟩,
      separated.after closes closeAscii⟩
  have cut := RawSource.rawText_meets separated le boundary
    (RawSource.boundary_of_ascii closes closeAscii)
  dsimp only
  rw [Nat.add_sub_cancel]
  rcases cut.cases_ with ⟨_, stopped, cuts⟩ | ⟨text, ran, -⟩
  · obtain ⟨before, opener, after, ends, opens⟩ := opened
    rw [stopped]
    rw [after] at cuts le
    exact ⟨before, closing, ⟨le, _, ends, opens, closes⟩, cuts⟩
  rw [ran]
  exact settles.push rfl nofun

theorem parsePreamble_meets (separated : Separated source.input) (closeAscii : close.toNat < 0x80)
    (boundary : first.AtBoundary source) (behind : start ≤ first.at_) :
    (first.parsePreamble source start close).Meets source.Miscut
      (first.Records source start) := by
  unfold parsePreamble
  rcases (value_meets separated close 0 boundary).cases_ with
    ⟨_, stopped, miscut⟩ | ⟨⟨value, valued⟩, ran, reads⟩
  · rw [stopped]
    exact miscut
  rw [ran]
  cases value with
  | none => exact recover_meets separated closeAscii reads behind
  | some value => ?_
  obtain ⟨sound, settles⟩ := reads
  have later := Nat.le_trans behind settles.le
  dsimp only
  rcases (finishRecord_meets source.Miscut separated closeAscii
    settles.boundary later).cases_ with
    ⟨_, stopped, miscut⟩ | ⟨⟨last, finished⟩, ended, ends⟩
  · rw [stopped]
    exact miscut
  rw [ended]
  cases last with
  | none => exact .of_forward settles.toForward ends
  | some last =>
    obtain ⟨rfl, finishes⟩ := ends
    exact (settles.trans finishes).push rfl sound

/-- A byte is eaten unless nothing was read in front of it. -/
theorem eatUnless_cases (text : Text) (byte : UInt8) (separated : Separated source.input)
    (ascii : byte.toNat < 0x80) (boundary : first.AtBoundary source) :
    ∃ eaten after, (if text = [] then (false, first) else first.eat source byte) =
      (eaten, after) ∧ first.Settles source after := by
  by_cases empty : text = []
  · exact ⟨false, first, if_pos empty, .refl boundary⟩
  rw [if_neg empty]
  rcases eat_cases source first byte with ⟨found, eaten⟩ | ⟨-, eaten⟩
  · exact ⟨true, _, eaten, peek_settles separated found ascii⟩
  · exact ⟨false, _, eaten, .refl boundary⟩

theorem parseString_meets (separated : Separated source.input) (closeAscii : close.toNat < 0x80)
    (boundary : first.AtBoundary source) (behind : start ≤ first.at_) :
    (first.parseString source start close).Meets source.Miscut
      (first.Records source start) := by
  have spaced := space_settles separated boundary
  obtain ⟨text, named, ran, names⟩ := identifier_ok spaced.boundary
  have opened := (spaced.trans names).trans (space_settles separated names.boundary)
  obtain ⟨eaten, after, matched, eats⟩ := eatUnless_cases text 0x3D
    separated (by decide) opened.boundary
  have reached := opened.trans eats
  unfold parseString
  dsimp only
  rw [ran]
  dsimp only
  rw [matched]
  cases eaten with
  | false => exact recover_meets separated closeAscii (reached.halts.error _ _ _) behind
  | true => ?_
  dsimp only
  by_cases full : source.limits.maxMacros ≤
      (after.records.filter RawBibRecord.isString).length + 12
  · rw [if_pos full]
    exact recover_meets separated closeAscii (reached.halts.error _ _ _) behind
  rw [if_neg full]
  rcases (value_meets separated close 0 reached.boundary).cases_ with
    ⟨_, stopped, miscut⟩ | ⟨⟨value, valued⟩, valueRan, reads⟩
  · rw [stopped]
    exact miscut
  rw [valueRan]
  cases value with
  | none => exact recover_meets separated closeAscii (reached.trans_halts reads) behind
  | some value => ?_
  obtain ⟨sound, settles⟩ := reads
  have read := reached.trans settles
  dsimp only
  rcases (finishRecord_meets source.Miscut separated closeAscii
    read.boundary (Nat.le_trans behind read.le)).cases_ with
    ⟨_, stopped, miscut⟩ | ⟨⟨last, finished⟩, ended, ends⟩
  · rw [stopped]
    exact miscut
  rw [ended]
  cases last with
  | none => exact .of_forward read.toForward ends
  | some last =>
    obtain ⟨rfl, finishes⟩ := ends
    exact (read.trans finishes).push rfl sound

/-! ## Entries -/

def FieldsSound (source : RawSource) (fields : List RawBibField) : Prop :=
  ∀ field ∈ fields, ∀ part ∈ field.value.parts, PartSound source part

def StepSound (source : RawSource) (first : Parser) : FieldStep → Prop
  | .done fields next => FieldsSound source fields ∧ first.Settles source next
  | .more fields next =>
    FieldsSound source fields ∧ first.Settles source next ∧ first.at_ < next.at_
  | .failed next => first.Halts source next

theorem entryKey_ok (closeAscii : close.toNat < 0x80) (boundary : first.AtBoundary source) :
    ∃ key next, first.entryKey source close = .ok (key, next) ∧ first.Settles source next := by
  have bound := isCharBoundary_le boundary
  have stop : isCharBoundary source.input
      (source.advanceWhile (fun byte => byte != 0x2C && byte != close) first.at_) = true := by
    refine source.advanceWhile_boundary bound fun byte stops => ?_
    simp only [Bool.and_eq_false_iff, bne_eq_false_iff_eq] at stops
    rcases stops with rfl | rfl
    · decide
    · exact closeAscii
  unfold entryKey
  dsimp only
  rw [slice_ok (source.le_advanceWhile _ _) boundary stop]
  exact ⟨_, _, rfl, ⟨rfl, source.le_advanceWhile _ _, source.advanceWhile_le _ bound⟩, stop⟩

theorem Settles.noteKey (settles : first.Settles source next) (key : RawBibIdentifier)
    (offset : Nat) : first.Settles source (next.noteKey source key offset) := by
  unfold Parser.noteKey
  split
  · exact settles.error _ _ _
  · exact ⟨⟨settles.records, settles.le, settles.bound⟩, settles.boundary⟩

variable {fields : List RawBibField}

theorem entryField_meets (separated : Separated source.input) (closeAscii : close.toNat < 0x80)
    (key : RawBibIdentifier) (sound : FieldsSound source fields)
    (boundary : first.AtBoundary source) :
    (entryField source close key first fields).Meets source.Miscut
      (StepSound source first) := by
  obtain ⟨text, named, ran, names⟩ := identifier_ok boundary
  have opened := names.trans (space_settles separated names.boundary)
  obtain ⟨eaten, after, matched, eats⟩ := eatUnless_cases text 0x3D
    separated (by decide) opened.boundary
  have reached := opened.trans eats
  unfold entryField
  dsimp only
  rw [ran]
  dsimp only
  rw [matched]
  cases eaten with
  | false => exact reached.halts.error _ _ _
  | true => ?_
  dsimp only
  by_cases full : source.limits.maxFieldsPerEntry ≤ fields.length
  · rw [if_pos full]
    exact reached.halts.error _ _ _
  rw [if_neg full]
  rcases (value_meets separated close 0 reached.boundary).cases_ with
    ⟨_, stopped, miscut⟩ | ⟨⟨value, valued⟩, valueRan, reads⟩
  · rw [stopped]
    exact miscut
  rw [valueRan]
  cases value with
  | none => exact reached.trans_halts reads
  | some value => ?_
  obtain ⟨valueSound, settles⟩ := reads
  have read := reached.trans settles
  dsimp only
  generalize noting : (if fields.any (fun field =>
      field.name.folded == (source.identifierAt first.at_ named.at_ text).folded) = true
    then valued.error source .duplicateField first.at_
      (.duplicateField (source.identifierAt first.at_ named.at_ text).source key.source)
    else valued) = noted
  have notes : first.Settles source noted := by
    rw [← noting]
    split
    · exact read.error _ _ _
    · exact read
  generalize grows : fields ++ [{
    name := source.identifierAt first.at_ named.at_ text
    value := value
    location := source.location first.at_ noted.at_ : RawBibField }] = grown
  have grownSound : FieldsSound source grown := by
    intro field member part partMember
    rw [← grows] at member
    rcases List.mem_append.mp member with old | new
    · exact sound field old part partMember
    rw [List.mem_singleton.mp new] at partMember
    exact valueSound part partMember
  have behind := notes.trans (space_settles separated notes.boundary)
  rcases eat_cases source (noted.space source) close with ⟨closed, eaten⟩ | ⟨-, eaten⟩
  · rw [eaten]
    exact ⟨grownSound, behind.trans (peek_settles separated closed closeAscii)⟩
  rw [eaten]
  dsimp only
  rcases eat_cases source (noted.space source) 0x2C with ⟨comma, eaten⟩ | ⟨-, eaten⟩
  · rw [eaten]
    exact ⟨grownSound, behind.trans (peek_settles separated comma (by decide)),
      Nat.lt_succ_of_le behind.le⟩
  rw [eaten]
  exact behind.halts.error _ _ _

variable {fuel : Nat}

section

variable (separated : Separated source.input)
include separated

/-- Every round of the fields takes a comma, so the fuel lasts. -/
theorem entryFields_meets (closeAscii : close.toNat < 0x80)
    (key : RawBibIdentifier) (sound : FieldsSound source fields)
    (boundary : first.AtBoundary source) (enough : source.input.length < fuel + first.at_) :
    (entryFields source close key fuel first fields).Meets source.Miscut
      (first.Reads source (FieldsSound source)) := by
  induction fuel generalizing first fields with
  | zero =>
    have := isCharBoundary_le boundary
    omega
  | succ fuel ih => ?_
  have spaced := space_settles separated boundary
  have again : ∀ next grown, FieldsSound source grown → first.Settles source next →
      first.at_ < next.at_ →
      (entryFields source close key fuel next grown).Meets source.Miscut
        (first.Reads source (FieldsSound source)) := by
    intro next grown grownSound settles later
    refine (ih grownSound settles.boundary (by omega)).imp ?_
    intro result reads
    match result, reads with
    | (some _, _), ⟨allSound, rest⟩ => exact ⟨allSound, settles.trans rest⟩
    | (none, _), halts => exact settles.trans_halts halts
  rw [entryFields]
  rcases eat_cases source (first.space source) close with ⟨closed, eaten⟩ | ⟨-, eaten⟩
  · rw [eaten]
    exact ⟨sound, spaced.trans (peek_settles separated closed closeAscii)⟩
  rw [eaten]
  dsimp only
  rcases eat_cases source (first.space source) 0x2C with ⟨comma, eaten⟩ | ⟨-, eaten⟩
  · rw [eaten]
    exact again _ _ sound (spaced.trans (peek_settles separated comma (by decide)))
      (Nat.lt_succ_of_le spaced.le)
  rw [eaten]
  dsimp only
  rcases (entryField_meets separated closeAscii key sound spaced.boundary).cases_ with
    ⟨_, stopped, miscut⟩ | ⟨step, ran, stepSound⟩
  · rw [stopped]
    exact miscut
  rw [ran]
  cases step with
  | done grown closed => exact ⟨stepSound.1, spaced.trans stepSound.2⟩
  | more grown next =>
    exact again _ _ stepSound.1 (spaced.trans stepSound.2.1)
      (Nat.lt_of_le_of_lt spaced.le stepSound.2.2)
  | failed stuck => exact spaced.trans_halts stepSound

theorem parseEntry_meets (closeAscii : close.toNat < 0x80)
    (entryType : RawBibIdentifier) (boundary : first.AtBoundary source) (behind : start ≤ first.at_) :
     (first.parseEntry source start close entryType).Meets source.Miscut
      (first.Records source start) := by
  unfold parseEntry
  by_cases full : source.limits.maxEntries ≤
      (first.records.filter RawBibRecord.isEntry).length
  · rw [if_pos full]
    exact recover_meets separated closeAscii ((Settles.refl boundary).halts.error _ _ _) behind
  rw [if_neg full]
  have spaced := space_settles separated boundary
  obtain ⟨key, keyed, keyRan, keys⟩ := entryKey_ok closeAscii spaced.boundary
  obtain ⟨eaten, after, matched, eats⟩ := eatUnless_cases key.source 0x2C
    separated (by decide) keys.boundary
  have reached := (spaced.trans keys).trans eats
  dsimp only
  rw [keyRan]
  dsimp only
  rw [matched]
  cases eaten with
  | false => exact recover_meets separated closeAscii (reached.halts.error _ _ _) behind
  | true => ?_
  have noted := reached.noteKey key (first.space source).at_
  dsimp only
  have none_ : FieldsSound source [] := nofun
  rcases (entryFields_meets separated closeAscii key none_ noted.boundary
    (Nat.lt_add_right _ (Nat.lt_succ_self _))).cases_ with
    ⟨_, stopped, miscut⟩ | ⟨⟨fields, closed⟩, ran, reads⟩
  · rw [stopped]
    exact miscut
  rw [ran]
  cases fields with
  | none => exact recover_meets separated closeAscii (noted.trans_halts reads) behind
  | some fields => ?_
  refine (noted.trans reads.2).push rfl ?_
  intro part member
  obtain ⟨field, fieldMember, partMember⟩ := List.mem_flatMap.mp member
  exact reads.1 field fieldMember part partMember

/-! ## All records -/

theorem parseBody_meets (closeAscii : close.toNat < 0x80)
    (start : Nat) (kind : RawBibIdentifier) (boundary : first.AtBoundary source)
    (opened : first.Opened source close) (behind : start ≤ first.at_) :
    (first.parseBody source start close kind).Meets source.Miscut
      (first.Records source start) := by
  unfold parseBody
  split
  · exact parseComment_meets separated closeAscii boundary opened behind
  split
  · exact parsePreamble_meets separated closeAscii boundary behind
  split
  · exact parseString_meets separated closeAscii boundary behind
  split
  · exact recover_meets separated closeAscii (Settles.refl boundary).halts behind
  · exact parseEntry_meets separated closeAscii kind boundary behind

theorem parseRecord_meets (boundary : first.AtBoundary source) :
    (first.parseRecord source).Meets source.Miscut fun
      | (true, next) => first.Records source (first.at_ - 1) next
      | (false, next) => first.Settles source next := by
  have spaced := space_settles separated boundary
  obtain ⟨text, named, ran, names⟩ := identifier_ok spaced.boundary
  have opened := (spaced.trans names).trans (space_settles separated names.boundary)
  unfold parseRecord
  dsimp only
  rw [ran]
  dsimp only
  cases found : (named.space source).peek source with
  | none => exact opened
  | some open_ => ?_
  dsimp only
  by_cases other : open_ ≠ 0x7B ∧ open_ ≠ 0x28
  · rw [if_pos other]
    exact (opened.error _ _ _).push rfl nofun
  rw [if_neg other]
  have ends : open_.toNat < 0x80 ∧
      (open_, if open_ = 0x7B then (0x7D : UInt8) else 0x29) ∈ RawSource.delimiters := by
    by_cases brace : open_ = 0x7B
    · rw [brace]
      decide
    rw [Classical.not_not.mp fun parenthesis => other ⟨brace, parenthesis⟩]
    decide
  obtain ⟨ascii, ends⟩ := ends
  have entered := opened.trans (peek_settles separated found ascii)
  have closeAscii : (if open_ = 0x7B then (0x7D : UInt8) else 0x29).toNat < 0x80 := by
    split <;> decide
  rcases (parseBody_meets separated closeAscii (first.at_ - 1)
    (source.identifierAt (first.space source).at_ named.at_ text) entered.boundary
    ⟨_, open_, rfl, ends, found⟩ (Nat.le_trans (Nat.sub_le _ _) entered.le)).cases_ with
    ⟨_, stopped, miscut⟩ | ⟨next, parsed, records⟩
  · rw [stopped]
    exact miscut
  rw [parsed]
  exact .of_forward entered.toForward records

end

structure RecordsSound (source : RawSource) (parser : Parser) : Prop where
  within : ∀ record ∈ parser.records, record.location.byteStart < record.location.byteEnd ∧
    record.location.byteEnd ≤ source.rawOffset parser.at_
  ordered : parser.records.Pairwise fun earlier later =>
    earlier.location.byteEnd ≤ later.location.byteStart
  parts : ∀ record ∈ parser.records, ∀ part ∈ record.parts, PartSound source part

/-- A record that starts at an `@` behind all records read so far is sound too. -/
theorem RecordsSound.grown
    (monotone : ∀ left right, left ≤ right → source.rawOffset left ≤ source.rawOffset right)
    (occupied : source.rawOffset start < source.rawOffset (start + 1))
    (sound : first.RecordsSound source) {found : Parser} (kept : found.records = first.records)
    (behind : first.at_ ≤ start) (inside : start < found.at_)
    (records : found.Records source start next) : next.RecordsSound source := by
  obtain ⟨record, grown, placed, parts⟩ := records.grown
  have started : record.location.byteStart = source.rawOffset start := by
    rw [placed]
    rfl
  have ended : record.location.byteEnd = source.rawOffset next.at_ := by
    rw [placed]
    rfl
  have startsBehind : source.rawOffset first.at_ ≤ source.rawOffset start :=
    monotone _ _ behind
  have endsBehind : source.rawOffset (start + 1) ≤ source.rawOffset next.at_ :=
    monotone _ _ (Nat.le_trans inside records.le)
  rw [kept] at grown
  refine ⟨?_, ?_, ?_⟩
  · intro other member
    rw [grown] at member
    rcases List.mem_append.mp member with old | new
    · have within := sound.within other old
      omega
    rw [List.mem_singleton.mp new]
    omega
  · rw [grown]
    refine List.pairwise_append.mpr ⟨sound.ordered, List.pairwise_singleton _ _, ?_⟩
    intro earlier old later new
    have within := sound.within earlier old
    rw [List.mem_singleton.mp new]
    omega
  intro other member
  rw [grown] at member
  rcases List.mem_append.mp member with old | new
  · exact sound.parts other old
  rw [List.mem_singleton.mp new]
  exact parts

/-- Every round of the main loop leaves an `@` behind it, so the fuel lasts. -/
theorem parseLoop_meets (separated : Separated source.input)
    (monotone : ∀ left right, left ≤ right → source.rawOffset left ≤ source.rawOffset right)
    (occupied : ∀ place, source.input[place]? = some 0x40 →
      source.rawOffset place < source.rawOffset (place + 1)) (sound : first.RecordsSound source)
    (enough : source.input.length < fuel + first.at_) (bound : first.at_ ≤ source.input.length) :
    (parseLoop source fuel first).Meets source.Miscut fun last =>
      ∃ reached : Parser, last.records = reached.records ∧ reached.RecordsSound source := by
  induction fuel generalizing first with
  | zero => omega
  | succ fuel ih => ?_
  rw [parseLoop]
  by_cases goesOn : first.at_ < source.input.length ∧ first.work < source.limits.maxWork
  · rw [if_pos goesOn]
    unfold seekRecord
    generalize sought : RawSource.seekLoop source.limits.maxWork (first.rest source) false
      first.at_ first.work = ended
    obtain ⟨found, later, work⟩ := ended
    cases found with
    | false => exact ⟨first, rfl, sound⟩
    | true => ?_
    obtain ⟨lt, opens⟩ := RawSource.seekLoop_found _ rfl sought
    have boundary := separated.after opens (by decide)
    have place : later - 1 + 1 = later := by omega
    rw [place] at boundary
    dsimp only
    have here : AtBoundary source { first with at_ := later, work := work } := boundary
    rcases (parseRecord_meets separated here).cases_ with
      ⟨_, stopped, miscut⟩ | ⟨⟨goes, next⟩, ran, read⟩
    · rw [stopped]
      exact miscut
    rw [ran]
    cases goes with
    | false => exact ⟨first, read.records, sound⟩
    | true => ?_
    have kept : ({ first with at_ := later, work := work } : Parser).records =
        first.records := rfl
    have grown := sound.grown monotone (occupied _ opens) kept
      (Nat.le_sub_one_of_lt lt) (Nat.sub_one_lt_of_lt lt) read
    have le : later ≤ next.at_ := read.le
    exact ih grown (by omega) read.bound
  rw [if_neg goesOn]
  exact ⟨first, rfl, sound⟩

end Parser

end Umber.Bib
