import Mathlib.Data.List.TakeWhile
import Umber.Input.Lines

/-! What a source delivers, line by line: a loaded line gives its decoded
characters and its end-of-line character, and then hands over to the next line. -/

set_option autoImplicit false

namespace Umber.Input

open LineTerminator

def WellFormed (mode : CharacterMode) (bytes : List UInt8) : Prop :=
  mode = .unicodeExtended → Utf8.Valid bytes

theorem mode_decode_nil (mode : CharacterMode) : mode.decode [] = none := by
  cases mode <;> rfl

@[simp] theorem decodeText_nil (mode : CharacterMode) : decodeText mode [] = [] := rfl

def LineTerminator.bytes : LineTerminator → List UInt8
  | .missing => []
  | .lf => [lineFeed]
  | .cr => [carriageReturn]
  | .crLf => [carriageReturn, lineFeed]

variable {controls : LineControls} {cursor : SourceCursor} {mode : CharacterMode}
  {bytes : List UInt8} {kind : LineTerminator}

/-- The first character of a well-formed run lies inside the run, whatever
follows it. -/
theorem decode_of_wellFormed (wellFormed : WellFormed mode bytes) (nonempty : bytes ≠ []) :
    ∃ code width, 0 < width ∧ width ≤ bytes.length ∧
      (∀ rest, mode.decode (bytes ++ rest) = some (code, width)) ∧
      WellFormed mode (bytes.drop width) := by
  cases mode with
  | eightBitExact =>
    cases bytes with
    | nil => contradiction
    | cons byte tail =>
      refine ⟨.byte byte.toNat, 1, by simp, by simp, fun rest => rfl, ?_⟩
      simp [WellFormed]
  | unicodeExtended => ?_
  cases wellFormed rfl with
  | nil => contradiction
  | @step _ scalar width decoded tailValid => ?_
  obtain ⟨encoded, tail, rfl, length, positive, stable, _⟩ :=
    Utf8.decode_eq_some decoded
  refine ⟨.scalar scalar, width, positive, by simp [← length], ?_, fun _ => tailValid⟩
  intro rest
  simp [CharacterMode.decode, List.append_assoc, stable]

theorem decodeWithin_fuel {left right : Nat}
    (wellFormed : WellFormed mode bytes) (leftEnough : bytes.length ≤ left)
    (rightEnough : bytes.length ≤ right) :
    decodeWithin mode left bytes = decodeWithin mode right bytes := by
  induction left generalizing right bytes with
  | zero =>
    have : bytes = [] := List.eq_nil_of_length_eq_zero (by omega)
    subst this
    cases right <;> simp [decodeWithin, mode_decode_nil]
  | succ left ih => ?_
  by_cases nonempty : bytes = []
  · subst nonempty
    cases right <;> simp [decodeWithin, mode_decode_nil]
  obtain ⟨code, width, positive, within, decoded, tail⟩ :=
    decode_of_wellFormed wellFormed nonempty
  have first : mode.decode bytes = some (code, width) := by simpa using decoded []
  cases right with
  | zero => omega
  | succ right => ?_
  simp only [decodeWithin, first]
  rw [@ih _ right tail]
  · rw [List.length_drop]
    omega
  rw [List.length_drop]
  omega

theorem decodeText_step {code : CharacterCode}
    {width : Nat} (decoded : mode.decode bytes = some (code, width)) (positive : 0 < width)
    (within : width ≤ bytes.length) (tail : WellFormed mode (bytes.drop width)) :
    decodeText mode bytes = code :: decodeText mode (bytes.drop width) := by
  obtain ⟨smaller, length⟩ : ∃ smaller, bytes.length = smaller + 1 :=
    ⟨bytes.length - 1, by omega⟩
  simp only [decodeText, length, decodeWithin, decoded]
  rw [decodeWithin_fuel tail]
  · rw [List.length_drop]
    omega
  · simp [length]

/-- The first physical line of a tail: its content, its terminator and what is
left behind it. -/
structure FirstLine (tail content : List UInt8) (kind : LineTerminator) (rest : List UInt8) :
    Prop where
  split : tail = content ++ kind.bytes ++ rest
  plain : ∀ byte ∈ content, isTerminatorByte byte = false
  missing : kind = .missing → rest = []
  loneCr : kind = .cr → rest.head? ≠ some lineFeed

theorem takeWhile_plain {content : List UInt8} (byte : UInt8) (rest : List UInt8)
    (plain : ∀ byte ∈ content, isTerminatorByte byte = false)
    (stop : isTerminatorByte byte = true) :
    (content ++ byte :: rest).takeWhile (!isTerminatorByte ·) = content := by
  rw [List.takeWhile_append_of_pos (by simpa using plain)]
  simp [stop]

theorem FirstLine.splitTail_eq {tail content : List UInt8}
    {rest : List UInt8} (line : FirstLine tail content kind rest) :
    splitTail tail = (content, kind, kind.bytes.length) := by
  obtain ⟨rfl, plain, missing, loneCr⟩ := line
  cases kind with
  | missing =>
    have whole : content.takeWhile (!isTerminatorByte ·) = content :=
      List.takeWhile_eq_self_iff.mpr (by simpa using plain)
    simp [LineTerminator.bytes, splitTail, missing rfl, whole]
  | lf =>
    have whole := takeWhile_plain lineFeed rest plain (by decide)
    simp only [LineTerminator.bytes, List.append_assoc, List.singleton_append, splitTail, whole,
      List.drop_left]
    rfl
  | cr =>
    have whole := takeWhile_plain carriageReturn rest plain (by decide)
    simp only [LineTerminator.bytes, List.append_assoc, List.singleton_append, splitTail, whole,
      List.drop_left, if_neg (loneCr rfl), if_pos, List.length_singleton]
  | crLf =>
    have whole := takeWhile_plain carriageReturn (lineFeed :: rest) plain (by decide)
    simp [LineTerminator.bytes, splitTail, whole]

theorem exists_firstLine (tail : List UInt8) :
    ∃ content kind rest, FirstLine tail content kind rest := by
  induction tail with
  | nil => exact ⟨[], .missing, [], by simp [LineTerminator.bytes], by simp, by simp, by simp⟩
  | cons byte tail ih => ?_
  by_cases feed : byte = lineFeed
  · exact ⟨[], .lf, tail, by simp [LineTerminator.bytes, feed], by simp, by simp, by simp⟩
  by_cases carriage : byte = carriageReturn
  · by_cases crLf : tail.head? = some lineFeed
    · obtain ⟨rest, rfl⟩ := List.head?_eq_some_iff.mp crLf
      exact ⟨[], .crLf, rest, by simp [LineTerminator.bytes, carriage], by simp, by simp, by simp⟩
    exact ⟨[], .cr, tail, by simp [LineTerminator.bytes, carriage], by simp, by simp,
      by simpa using crLf⟩
  obtain ⟨content, kind, rest, split, plain, missing, loneCr⟩ := ih
  refine ⟨byte :: content, kind, rest, by simp [split], ?_, missing, loneCr⟩
  intro other member
  rcases List.mem_cons.mp member with rfl | member
  · simp [isTerminatorByte, feed, carriage]
  · exact plain other member

theorem FirstLine.width_pos {tail content rest : List UInt8}
    (line : FirstLine tail content kind rest) (nonempty : tail ≠ []) :
    0 < content.length + kind.bytes.length := by
  have length := congrArg List.length line.split
  have positive := List.length_pos_iff.mpr nonempty
  cases kind with
  | missing =>
    simp only [line.missing rfl, LineTerminator.bytes, List.append_nil] at length ⊢
    simp only [List.length_nil]
    omega
  | lf | cr | crLf => simp [LineTerminator.bytes]

theorem terminator_ascii {byte : UInt8} (member : byte ∈ kind.bytes) : byte.toNat < 0x80 := by
  cases kind <;> simp only [LineTerminator.bytes, List.mem_cons, List.not_mem_nil, or_false] at member
  · subst member
    decide
  · subst member
    decide
  · rcases member with rfl | rfl <;> decide

/-- The text behind a line is well formed when the line itself is. -/
theorem FirstLine.wellFormed_rest {tail content rest : List UInt8}
    (line : FirstLine tail content kind rest)
    (wellFormed : WellFormed mode tail) : WellFormed mode rest := by
  intro unicode
  have valid := wellFormed unicode
  rw [line.split] at valid
  by_cases unterminated : kind.bytes = []
  · have missing : kind = .missing := by
      cases kind <;> simp [LineTerminator.bytes] at unterminated ⊢
    rw [line.missing missing]
    exact .nil
  · exact valid.after_asciis unterminated fun _ member => terminator_ascii member

theorem stripSpaces_length_le (content : List UInt8) :
    (stripSpaces content).length ≤ content.length :=
  (List.rdropWhile_prefix _ content).length_le

theorem stripSpaces_split (content : List UInt8) :
    ∃ spaces, content = stripSpaces content ++ spaces ∧ ∀ byte ∈ spaces, byte = space := by
  refine ⟨content.rtakeWhile (· == space), ?_, ?_⟩
  · simp [stripSpaces]
  intro byte member
  simpa using List.mem_rtakeWhile_imp member

/-- The retained part of a line is well formed when the line is. -/
theorem FirstLine.wellFormed_stripped {tail content rest : List UInt8}
    (line : FirstLine tail content kind rest)
    (wellFormed : WellFormed mode tail) : WellFormed mode (stripSpaces content) := by
  intro unicode
  have valid := wellFormed unicode
  obtain ⟨spaces, split, onlySpaces⟩ := stripSpaces_split content
  rw [line.split, split, List.append_assoc, List.append_assoc] at valid
  apply valid.cut
  intro byte member
  cases spaces with
  | cons first others =>
    simp only [List.cons_append, List.head?_cons, Option.mem_some_iff] at member
    subst member
    rw [onlySpaces first (by simp)]
    decide
  | nil => ?_
  cases terminator : kind.bytes with
  | cons first others =>
    simp only [terminator, List.nil_append, List.cons_append, List.head?_cons,
      Option.mem_some_iff] at member
    subst member
    exact terminator_ascii (by rw [terminator]; simp)
  | nil => ?_
  have missing : kind = .missing := by
    cases kind <;> simp [LineTerminator.bytes] at terminator ⊢
  simp [terminator, line.missing missing] at member

theorem mode_decode_pos {code : CharacterCode}
    {width : Nat} (decoded : mode.decode bytes = some (code, width)) : 0 < width := by
  cases mode with
  | eightBitExact =>
    simp only [CharacterMode.decode, Option.map_eq_some_iff, Prod.mk.injEq] at decoded
    obtain ⟨_, _, _, rfl⟩ := decoded
    exact Nat.one_pos
  | unicodeExtended => ?_
  simp only [CharacterMode.decode, Option.map_eq_some_iff, Prod.mk.injEq] at decoded
  obtain ⟨⟨scalar, _⟩, scalarDecoded, _, rfl⟩ := decoded
  obtain ⟨_, _, _, _, positive, _⟩ := Utf8.decode_eq_some scalarDecoded
  exact positive

namespace SourceLineState

/-- A line delivers either its next decoded character or, once, its
end-of-line character. -/
theorem nextCharacter_some {line next : SourceLineState} {character : SourceCharacter}
    (delivered : line.nextCharacter mode bytes = (some character, next)) :
    character.scalarOffset = line.cursor.scalarCursor ∧
    ((line.cursor.byteCursor < line.retainedEnd ∧
      ∃ width, mode.decode (bytes.drop line.cursor.byteCursor) = some (character.code, width) ∧
        next = { line with cursor := { line.cursor with
          byteCursor := line.cursor.byteCursor + width
          scalarCursor := line.cursor.scalarCursor + 1 } }) ∨
    (line.retainedEnd ≤ line.cursor.byteCursor ∧ line.cursor.endlineDelivered = false ∧
      line.endline = some character.code ∧
        next = { line with cursor := { line.cursor with
          endlineDelivered := true
          scalarCursor := line.cursor.scalarCursor + 1 } })) := by
  simp only [nextCharacter, nextCharacterFrom] at delivered
  split at delivered
  next inside =>
    split at delivered
    next => simp at delivered
    next code width decoded =>
      cases delivered
      exact ⟨rfl, .inl ⟨inside, width, decoded, rfl⟩⟩
  rename_i outside
  split at delivered
  next => simp at delivered
  rename_i fresh
  split at delivered
  next => simp at delivered
  next code endline =>
    cases delivered
    exact ⟨rfl, .inr ⟨Nat.not_lt.mp outside, by simpa using fresh, endline, rfl⟩⟩

def segment (line : SourceLineState) (bytes : List UInt8) : List UInt8 :=
  (bytes.take line.retainedEnd).drop line.cursor.byteCursor

def rest (line : SourceLineState) (mode : CharacterMode) (bytes : List UInt8) :
    List CharacterCode :=
  decodeText mode (line.segment bytes) ++
    (if line.cursor.endlineDelivered then [] else line.endline.toList)

structure Readable (line : SourceLineState) (mode : CharacterMode) (bytes : List UInt8) :
    Prop where
  cursorLe : line.cursor.byteCursor ≤ line.retainedEnd
  retainedLe : line.retainedEnd ≤ bytes.length
  wellFormed : WellFormed mode (line.segment bytes)

variable {line : SourceLineState}

theorem segment_length (retainedLe : line.retainedEnd ≤ bytes.length) :
    (line.segment bytes).length = line.retainedEnd - line.cursor.byteCursor := by
  simp only [segment, List.length_drop, List.length_take]
  omega

theorem drop_eq_segment_append (cursorLe : line.cursor.byteCursor ≤ line.retainedEnd)
    (retainedLe : line.retainedEnd ≤ bytes.length) : bytes.drop line.cursor.byteCursor =
      line.segment bytes ++ bytes.drop line.retainedEnd := by
  have whole := List.take_append_drop line.retainedEnd bytes
  have within : line.cursor.byteCursor ≤ (bytes.take line.retainedEnd).length := by
    simp only [List.length_take]
    omega
  calc
    bytes.drop line.cursor.byteCursor =
        (bytes.take line.retainedEnd ++ bytes.drop line.retainedEnd).drop line.cursor.byteCursor := by
      rw [whole]
    _ = line.segment bytes ++ bytes.drop line.retainedEnd :=
      List.drop_append_of_le_length within

/-- A readable line with bytes left decodes a character inside its segment. -/
theorem Readable.decode
    (readable : line.Readable mode bytes) (inside : line.cursor.byteCursor < line.retainedEnd) :
    ∃ code width, mode.decode (bytes.drop line.cursor.byteCursor) = some (code, width) ∧
      line.cursor.byteCursor + width ≤ line.retainedEnd ∧
      WellFormed mode ((line.segment bytes).drop width) ∧ decodeText mode (line.segment bytes) =
        code :: decodeText mode ((line.segment bytes).drop width) := by
  have length := segment_length readable.retainedLe
  have nonempty : line.segment bytes ≠ [] := by
    intro empty
    rw [empty, List.length_nil] at length
    omega
  obtain ⟨code, width, positive, within, decoded, tail⟩ :=
    decode_of_wellFormed readable.wellFormed nonempty
  refine ⟨code, width, ?_, by omega, tail, ?_⟩
  · rw [drop_eq_segment_append readable.cursorLe readable.retainedLe]
    exact decoded _
  · exact decodeText_step (by simpa using decoded []) positive within tail

theorem Readable.next {line next : SourceLineState}
    {character : SourceCharacter} (readable : line.Readable mode bytes)
    (delivered : line.nextCharacter mode bytes = (some character, next)) :
    next.Readable mode bytes ∧ line.rest mode bytes = character.code :: next.rest mode bytes := by
  rcases (nextCharacter_some delivered).2 with
    ⟨inside, width, decoded, rfl⟩ | ⟨outside, fresh, endline, rfl⟩
  · obtain ⟨code, otherWidth, otherDecoded, within, tail, text⟩ := readable.decode inside
    rw [decoded] at otherDecoded
    cases otherDecoded
    have segment_eq : ({ line with cursor := { line.cursor with
        byteCursor := line.cursor.byteCursor + width
        scalarCursor := line.cursor.scalarCursor + 1 } } : SourceLineState).segment bytes =
          (line.segment bytes).drop width := by
      simp [segment, List.drop_drop, Nat.add_comm]
    refine ⟨⟨within, readable.retainedLe, segment_eq ▸ tail⟩, ?_⟩
    simp only [rest, segment_eq, text, List.cons_append]
  have empty : (bytes.take line.retainedEnd).drop line.cursor.byteCursor = [] := by
    have := segment_length readable.retainedLe
    exact List.eq_nil_of_length_eq_zero (by simp only [segment] at this; omega)
  refine ⟨⟨readable.cursorLe, readable.retainedLe, readable.wellFormed⟩, ?_⟩
  simp [rest, segment, empty, fresh, endline]

theorem Readable.exhausted {line next : SourceLineState} (readable : line.Readable mode bytes)
    (ended : line.nextCharacter mode bytes = (none, next)) : line.rest mode bytes = [] := by
  simp only [nextCharacter, nextCharacterFrom] at ended
  split at ended
  next inside =>
    obtain ⟨code, width, decoded, _⟩ := readable.decode inside
    simp [decoded] at ended
  rename_i outside
  have empty : line.segment bytes = [] := by
    have := segment_length readable.retainedLe
    exact List.eq_nil_of_length_eq_zero (by omega)
  split at ended
  next delivered => simp [rest, empty, delivered]
  split at ended
  next endline => simp [rest, empty, endline]
  next => simp at ended

/-- The characters of a line that the tokenizer still takes. -/
def remaining (controls : LineControls) (line : SourceLineState) (mode : CharacterMode)
    (bytes : List UInt8) : List CharacterCode :=
  (line.rest mode bytes).take (controls.leaves line.physical.number (line.characters mode bytes) -
    line.cursor.scalarCursor + 1)

theorem rest_skipRestOfLine (mode : CharacterMode) (bytes : List UInt8) :
    line.skipRestOfLine.rest mode bytes = [] := by
  simp [rest, segment, skipRestOfLine]

/-- What a line loses with the character it delivers. -/
theorem Readable.take {line next : SourceLineState} {character : SourceCharacter}
    (readable : line.Readable mode bytes)
    (delivered : line.takeCharacter controls mode bytes = (some character, next)) :
    next.Readable mode bytes ∧ next.physical = line.physical ∧
      next.retainedEnd = line.retainedEnd ∧
      line.remaining controls mode bytes =
        character.code :: next.remaining controls mode bytes := by
  rw [takeCharacter] at delivered
  split at delivered
  next => cases delivered
  rename_i _ follows single
  cases delivered
  obtain ⟨followsReadable, rest⟩ := readable.next single
  obtain ⟨offset, shape⟩ := nextCharacter_some single
  have fixed : follows.physical = line.physical ∧ follows.retainedEnd = line.retainedEnd ∧
      follows.endline = line.endline ∧
      follows.cursor.scalarCursor = line.cursor.scalarCursor + 1 := by
    rcases shape with ⟨_, _, _, rfl⟩ | ⟨_, _, _, rfl⟩ <;> exact ⟨rfl, rfl, rfl, rfl⟩
  obtain ⟨physical, retained, endline, scalars⟩ := fixed
  by_cases leaves : controls.leaves line.physical.number (line.characters mode bytes) ≤
      character.scalarOffset
  · rw [if_pos leaves]
    refine ⟨⟨Nat.le_refl _, followsReadable.retainedLe, ?_⟩, physical, retained, ?_⟩
    · intro unicode
      have empty : follows.skipRestOfLine.segment bytes = [] := by simp [segment, skipRestOfLine]
      rw [empty]
      exact .nil
    rw [remaining, remaining, rest_skipRestOfLine, rest, offset] at *
    rw [Nat.sub_eq_zero_of_le leaves]
    rfl
  rw [if_neg leaves]
  refine ⟨followsReadable, physical, retained, ?_⟩
  have same : follows.characters mode bytes = line.characters mode bytes := by
    rw [characters, characters, physical, retained, endline]
  rw [remaining, remaining, rest, same, physical, scalars, List.take_succ_cons]
  congr 2
  omega

theorem Readable.left {line next : SourceLineState} (readable : line.Readable mode bytes)
    (ended : line.takeCharacter controls mode bytes = (none, next)) :
    line.remaining controls mode bytes = [] := by
  rw [takeCharacter] at ended
  split at ended
  next single => rw [remaining, readable.exhausted single, List.take_nil]
  next => cases ended

end SourceLineState

/-- The characters that the tokenizer takes of a line: of its retained text and
its end-of-line character, those up to the one with which it leaves the line. -/
def lineCharacters (controls : LineControls) (mode : CharacterMode) (number : Nat)
    (content : List UInt8) : List CharacterCode :=
  let characters := decodeText mode (stripSpaces content) ++
    (endlineCharacter mode (controls.endlinechar number)).toList
  characters.take (controls.leaves number characters + 1)

namespace SourceCursor

variable {next : SourceCursor} {event : SourceEvent}

theorem needLine_budget (loaded : needLine controls cursor = some (event, next)) :
    next.budget < cursor.budget := by
  simp only [needLine, loadNextLine, Option.isSome_none, Bool.false_eq_true, if_false,
    Option.map_eq_some_iff] at loaded
  obtain ⟨_, produced, equal⟩ := loaded
  cases equal
  split at produced
  next => contradiction
  rename_i available
  obtain ⟨content, kind, rest, line⟩ :=
    exists_firstLine (cursor.backing.bytes.drop cursor.nextPhysicalOffset)
  rw [line.splitTail_eq] at produced
  cases produced
  have length := congrArg List.length line.split
  simp only [List.length_drop, List.length_append] at length
  have stripped := stripSpaces_length_le content
  simp only [budget, lineBudget, Bool.false_eq_true, if_false]
  by_cases pending : cursor.pendingAcquiredLine = true
  · simp only [pending, if_true]
    omega
  have nonempty : cursor.backing.bytes.drop cursor.nextPhysicalOffset ≠ [] := by
    simp only [ne_eq, List.drop_eq_nil_iff]
    simp only [Bool.not_eq_true] at pending
    simpa [pending] using available
  have := line.width_pos nonempty
  simp only [pending]
  omega

theorem pull_budget
    (pulled : cursor.pull controls = some (event, next)) : next.budget < cursor.budget := by
  simp only [pull] at pulled
  split at pulled
  next => exact needLine_budget pulled
  rename_i line loaded
  split at pulled
  next character following delivered =>
    cases pulled
    rw [SourceLineState.takeCharacter] at delivered
    split at delivered
    next => cases delivered
    rename_i _ follows single
    cases delivered
    rcases (SourceLineState.nextCharacter_some single).2 with
      ⟨inside, width, decoded, rfl⟩ | ⟨_, fresh, _, rfl⟩
    · have := mode_decode_pos decoded
      split
      all_goals
        simp only [budget, lineBudget, loaded, SourceLineState.skipRestOfLine, if_true]
        omega
    split
    all_goals
      simp only [budget, lineBudget, loaded, fresh, SourceLineState.skipRestOfLine,
        Bool.false_eq_true, if_false, if_true]
      omega
  split at pulled
  next => contradiction
  next => exact needLine_budget pulled

theorem drain_fuel {left right : Nat}
    (leftEnough : cursor.budget < left) (rightEnough : cursor.budget < right) :
    cursor.drain controls left = cursor.drain controls right := by
  induction left generalizing right cursor with
  | zero => omega
  | succ left ih => ?_
  cases right with
  | zero => omega
  | succ right => ?_
  simp only [drain]
  split
  next => rfl
  next event next pulled =>
    have := pull_budget pulled
    rw [@ih next right (by omega) (by omega)]

theorem deliver_of_pull (pulled : cursor.pull controls = some (event, next)) :
    cursor.deliver controls = event :: next.deliver controls := by
  have smaller := pull_budget pulled
  rw [deliver, drain, pulled]
  exact congrArg (event :: ·) (drain_fuel smaller (Nat.lt_succ_self _))

theorem deliver_of_end (ended : cursor.pull controls = none) : cursor.deliver controls = [] := by
  simp [deliver, drain, ended]

def afterLine (controls : LineControls) (cursor : SourceCursor) (number : Nat) :
    List SourceEvent :=
  if controls.forceEof number || (cursor.endAfterLine && !cursor.pendingAcquiredLine) then
    []
  else ({ cursor with line := none } : SourceCursor).deliver controls

theorem deliver_line {line : SourceLineState} (loaded : cursor.line = some line)
    (readable : line.Readable cursor.backing.mode cursor.backing.bytes) : cursor.deliver controls =
      (line.remaining controls cursor.backing.mode cursor.backing.bytes).map .character ++
        cursor.afterLine controls line.physical.number := by
  induction measure : cursor.budget using Nat.strongRecOn generalizing cursor line with
  | ind budget ih => ?_
  cases outcome : line.takeCharacter controls cursor.backing.mode cursor.backing.bytes with
  | mk character following => ?_
  cases character with
  | some character =>
    have pulled : cursor.pull controls =
        some (.character character.code, { cursor with line := some following }) := by
      simp [pull, loaded, outcome]
    obtain ⟨nextReadable, physical, _, remaining⟩ := readable.take outcome
    have smaller := pull_budget pulled
    rw [measure] at smaller
    have tail := @ih _ smaller { cursor with line := some following } following rfl
      nextReadable rfl
    rw [deliver_of_pull pulled, tail, remaining, physical]
    rfl
  | none => ?_
  rw [readable.left outcome, List.map_nil, List.nil_append, afterLine]
  split
  next stop => exact deliver_of_end (by simp [pull, loaded, outcome, stop])
  rename_i go
  have same : cursor.pull controls =
      ({ cursor with line := none } : SourceCursor).pull controls := by
    simp [pull, loaded, outcome, go, needLine]
  cases pulled : cursor.pull controls with
  | none => rw [deliver_of_end pulled, deliver_of_end (same.symm.trans pulled)]
  | some step =>
    obtain ⟨event, next⟩ := step
    rw [deliver_of_pull pulled, deliver_of_pull (same.symm.trans pulled)]

def startingAt (backing : RegisteredSource) (start number : Nat) : SourceCursor where
  backing := backing
  pendingAcquiredLine := false
  nextPhysicalOffset := start
  nextLineNumber := number
  line := none
  endAfterLine := false

theorem deliver_released (settled : cursor.pendingAcquiredLine = false) :
    ({ cursor with line := none } : SourceCursor).deliver controls =
      (startingAt cursor.backing cursor.nextPhysicalOffset cursor.nextLineNumber).deliver
        controls := by
  have same : ({ cursor with line := none } : SourceCursor).pull controls =
      (startingAt cursor.backing cursor.nextPhysicalOffset cursor.nextLineNumber).pull controls := by
    simp [pull, needLine, loadNextLine, startingAt, settled]
  cases pulled : ({ cursor with line := none } : SourceCursor).pull controls with
  | none => rw [deliver_of_end pulled, deliver_of_end (same.symm.trans pulled)]
  | some step =>
    obtain ⟨event, next⟩ := step
    rw [deliver_of_pull pulled, deliver_of_pull (same.symm.trans pulled)]

/-- The line loaded by `loadNextLine` at a given offset. -/
def loadedLine (controls : LineControls) (mode : CharacterMode) (start number : Nat)
    (content : List UInt8) (kind : LineTerminator) : SourceLineState where
  physical :=
    { number := number
      contentStart := start
      contentEnd := start + content.length
      terminatorEnd := start + content.length + kind.bytes.length
      terminatorKind := kind }
  retainedEnd := start + (stripSpaces content).length
  endline := endlineCharacter mode (controls.endlinechar number)
  cursor :=
    { byteCursor := start
      scalarCursor := 0
      lexerState := .newLine
      endlineDelivered := false }

def loadedAt (controls : LineControls) (backing : RegisteredSource) (start number : Nat)
    (content : List UInt8) (kind : LineTerminator) (rest : List UInt8) : SourceCursor where
  backing := backing
  pendingAcquiredLine := false
  nextPhysicalOffset := start + content.length + kind.bytes.length
  nextLineNumber := number + 1
  line := some (loadedLine controls backing.mode start number content kind)
  endAfterLine := rest.isEmpty

theorem needLine_of_firstLine {content rest : List UInt8} {kind : LineTerminator}
    (settled : cursor.pendingAcquiredLine = false)
    (available : cursor.nextPhysicalOffset < cursor.backing.bytes.length)
    (line : FirstLine (cursor.backing.bytes.drop cursor.nextPhysicalOffset) content kind rest) :
    needLine controls cursor = some (.line cursor.nextLineNumber,
        loadedAt controls cursor.backing cursor.nextPhysicalOffset cursor.nextLineNumber content
          kind rest) := by
  have length := congrArg List.length line.split
  simp only [List.length_drop, List.length_append] at length
  have last : (cursor.nextPhysicalOffset + content.length + kind.bytes.length ==
      cursor.backing.bytes.length) = rest.isEmpty := by
    rw [Bool.eq_iff_iff, beq_iff_eq, List.isEmpty_iff, ← List.length_eq_zero_iff]
    omega
  have exhausted : ¬ (cursor.backing.bytes.length ≤ cursor.nextPhysicalOffset) := by omega
  simp [needLine, loadNextLine, settled, exhausted, line.splitTail_eq, loadedAt, loadedLine, last]

theorem segment_loadedLine {backing : RegisteredSource}
    {start number : Nat} {content rest : List UInt8} {kind : LineTerminator}
    (line : FirstLine (backing.bytes.drop start) content kind rest) :
    (loadedLine controls backing.mode start number content kind).segment backing.bytes =
      stripSpaces content := by
  obtain ⟨spaces, split, _⟩ := stripSpaces_split content
  rw [SourceLineState.segment, loadedLine, List.drop_take, line.split, split, List.append_assoc,
    List.append_assoc, ← split]
  simp

variable {backing : RegisteredSource} {content rest : List UInt8} {start number : Nat}

theorem readable_loadedLine (line : FirstLine (backing.bytes.drop start) content kind rest)
    (available : start < backing.bytes.length)
    (wellFormed : WellFormed backing.mode (backing.bytes.drop start)) :
    (loadedLine controls backing.mode start number content kind).Readable backing.mode
      backing.bytes := by
  have length := congrArg List.length line.split
  simp only [List.length_drop, List.length_append] at length
  have stripped := stripSpaces_length_le content
  refine ⟨by simp [loadedLine], by simp only [loadedLine]; omega, ?_⟩
  rw [segment_loadedLine line]
  exact line.wellFormed_stripped wellFormed

theorem remaining_loadedLine (line : FirstLine (backing.bytes.drop start) content kind rest) :
    (loadedLine controls backing.mode start number content kind).remaining controls backing.mode
      backing.bytes = lineCharacters controls backing.mode number content := by
  have segment := @segment_loadedLine controls _ _ number _ _ _ line
  have whole : (loadedLine controls backing.mode start number content kind).characters
      backing.mode backing.bytes = decodeText backing.mode (stripSpaces content) ++
        (endlineCharacter backing.mode (controls.endlinechar number)).toList := by
    rw [← segment]
    rfl
  rw [SourceLineState.remaining, SourceLineState.rest, segment, whole]
  rfl

theorem deliver_startingAt (line : FirstLine (backing.bytes.drop start) content kind rest)
    (available : start < backing.bytes.length)
    (wellFormed : WellFormed backing.mode (backing.bytes.drop start)) :
    (startingAt backing start number).deliver controls =
      .line number :: ((lineCharacters controls backing.mode number content).map .character ++
        (if controls.forceEof number || rest.isEmpty then []
          else (startingAt backing (start + content.length + kind.bytes.length)
            (number + 1)).deliver controls)) := by
  have pulled : (startingAt backing start number).pull controls =
      some (.line number, loadedAt controls backing start number content kind rest) := by
    have loaded := @needLine_of_firstLine controls (startingAt backing start number) content rest
      kind rfl available line
    simpa [pull, startingAt] using loaded
  have loadedText : (loadedAt controls backing start number content kind rest).deliver controls =
      (lineCharacters controls backing.mode number content).map .character ++
        (loadedAt controls backing start number content kind rest).afterLine controls number :=
    (deliver_line rfl (readable_loadedLine line available wellFormed)).trans
      (congrArg (fun text => List.map SourceEvent.character text ++ _) (remaining_loadedLine line))
  rw [deliver_of_pull pulled, loadedText]
  congr 2
  simp only [afterLine, loadedAt, loadedLine, Bool.not_false, Bool.and_true]
  split
  next => rfl
  exact @deliver_released controls (loadedAt controls backing start number content kind rest) rfl

theorem needLine_eq_none (settled : cursor.pendingAcquiredLine = false)
    (exhausted : cursor.backing.bytes.length ≤ cursor.nextPhysicalOffset) :
    needLine controls cursor = none := by
  simp [needLine, loadNextLine, settled, exhausted]

end SourceCursor

end Umber.Input
