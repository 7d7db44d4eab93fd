import Umber.Incr.History
import Umber.Input.LinesProperties

/-! Rebinding a restored source cursor to the text of an edited revision. -/

set_option autoImplicit false

namespace Umber.Input

open Umber.Incr SourceCursor

inductive SourceRegistrationError where
  | restartPrefixMismatch (anchor : Nat)
  | malformedUnicode

def RegisteredSource.rebindGenerated (source : RegisteredSource) (bytes : List UInt8) :
    Except SourceRegistrationError RegisteredSource :=
  match mode : source.mode with
  | .eightBitExact =>
    .ok { mode := .eightBitExact, bytes := bytes, wellFormed := by simp }
  | .unicodeExtended =>
    if valid : Utf8.Valid bytes then
      .ok { mode := .unicodeExtended, bytes := bytes, wellFormed := fun _ => valid }
    else .error .malformedUnicode

/-- Replaces the physical backing of a live cursor. The loaded line, the next
physical offset and the end-of-file fact stay as they were derived from the
accepted bytes. -/
def SourceCursor.rebindGeneratedSource (cursor : SourceCursor) (bytes : List UInt8)
    (unchangedPrefix : Nat) : Except SourceRegistrationError SourceCursor :=
  let accepted := cursor.backing
  if accepted.bytes.length < unchangedPrefix || bytes.length < unchangedPrefix ||
      accepted.bytes.take unchangedPrefix != bytes.take unchangedPrefix then
    .error (.restartPrefixMismatch unchangedPrefix)
  else do
    let replacement ← accepted.rebindGenerated bytes
    return { cursor with backing := replacement }

/-- Whether the text behind the anchor leaves the loaded line and the end-of-file
fact of a restored cursor true, as far as the tokenizer looks at the line. -/
def restartSafe (controls : LineControls) (mode : CharacterMode) (number : Nat)
    (content : List UInt8) (kind : LineTerminator) (endAfterLine : Bool) (tail : List UInt8) :
    Bool :=
  match kind with
  | .missing =>
    let (more, _, width) := splitTail tail
    lineCharacters controls mode number (content ++ more) ==
        lineCharacters controls mode number content &&
      (controls.forceEof number || tail.length == more.length + width)
  | .lf | .crLf => controls.forceEof number || !endAfterLine || tail.isEmpty
  | .cr =>
    controls.forceEof number ||
      (if endAfterLine then tail.isEmpty || tail == [lineFeed]
        else tail.head? != some lineFeed)

/-! ## Laws -/

open Umber.Incr

/-- Two runs had the same controls while the lines up to `number` were read. -/
def LineControls.AgreeThrough (left right : LineControls) (number : Nat) : Prop :=
  ∀ line, line ≤ number →
    left.endlinechar line = right.endlinechar line ∧ left.forceEof line = right.forceEof line ∧
      left.leaves line = right.leaves line

variable {bytes : List UInt8} {kind : LineTerminator} {start : Nat} {content rest : List UInt8}

theorem FirstLine.drop_eq (line : FirstLine (bytes.drop start) content kind rest) :
    bytes.drop (start + content.length + kind.bytes.length) = rest := by
  rw [Nat.add_assoc, ← List.drop_drop, line.split, ← List.length_append, List.drop_left]

theorem FirstLine.transfer {other content rest : List UInt8}
    (line : FirstLine (bytes.drop start) content kind rest) (available : start < bytes.length)
    (more : rest ≠ []) (agree : other.take (start + content.length + kind.bytes.length + 1) =
      bytes.take (start + content.length + kind.bytes.length + 1)) :
    FirstLine (other.drop start) content kind
        (other.drop (start + content.length + kind.bytes.length)) ∧
      start + content.length + kind.bytes.length < other.length := by
  cases rest with
  | nil => contradiction
  | cons first others => ?_
  have startLength : (bytes.take start).length = start := by
    rw [List.length_take]
    omega
  have whole : bytes = bytes.take start ++ content ++ kind.bytes ++ first :: others := by
    rw [List.append_assoc, List.append_assoc, ← List.append_assoc content, ← line.split,
      List.take_append_drop]
  generalize bytes.take start = before at startLength whole
  subst startLength
  have taken : bytes.take (before.length + content.length + kind.bytes.length + 1) =
      before ++ content ++ kind.bytes ++ [first] := by
    rw [whole, ← List.length_append, ← List.length_append, List.take_length_add_append]
    rfl
  have otherWhole := List.take_append_drop
    (before.length + content.length + kind.bytes.length + 1) other
  rw [agree, taken] at otherWhole
  generalize other.drop (before.length + content.length + kind.bytes.length + 1) = tail
    at otherWhole
  have dropped : other.drop (before.length + content.length + kind.bytes.length) =
      first :: tail := by
    rw [← otherWhole, List.append_assoc, ← List.length_append, ← List.length_append, List.drop_left]
    rfl
  rw [dropped]
  refine ⟨⟨?_, line.plain, ?_, fun loneCr => line.loneCr loneCr⟩, ?_⟩
  · rw [← otherWhole]
    simp
  · intro missing
    exact absurd (line.missing missing) (by simp)
  rw [← otherWhole]
  simp
  omega

/-- A cursor inside a loaded line: where the line lies in the accepted bytes,
what of it was delivered, and that any text with the same beginning is read the
same way up to the start of the line. -/
structure AtLine (controls : LineControls) (backing : RegisteredSource)
    (events : List SourceEvent) (cursor : SourceCursor) (line : SourceLineState)
    (content rest : List UInt8) (before : List SourceEvent) (consumed : List CharacterCode) :
    Prop where
  loaded : cursor.line = some line
  source : cursor.backing = backing
  settled : cursor.pendingAcquiredLine = false
  available : line.physical.contentStart < backing.bytes.length
  firstLine : FirstLine (backing.bytes.drop line.physical.contentStart) content
    line.physical.terminatorKind rest
  contentEnd : line.physical.contentEnd = line.physical.contentStart + content.length
  nextOffset : cursor.nextPhysicalOffset = line.physical.contentStart + content.length +
    line.physical.terminatorKind.bytes.length
  nextNumber : cursor.nextLineNumber = line.physical.number + 1
  endOfFile : cursor.endAfterLine = rest.isEmpty
  retained : line.retainedEnd = line.physical.contentStart + (stripSpaces content).length
  readable : line.Readable backing.mode backing.bytes
  delivered : events = before ++ .line line.physical.number :: consumed.map .character
  characters : consumed ++ line.remaining controls backing.mode backing.bytes =
    lineCharacters controls backing.mode line.physical.number content
  cold : ∀ (later : LineControls) (other : RegisteredSource), other.mode = backing.mode →
    other.bytes.take (line.physical.contentStart + 1) =
      backing.bytes.take (line.physical.contentStart + 1) →
    later.AgreeThrough controls line.physical.number →
    WellFormed other.mode (other.bytes.drop line.physical.contentStart) ∧
      (SourceCursor.new other).deliver later =
        before ++ (SourceCursor.startingAt other line.physical.contentStart
          line.physical.number).deliver later

variable {left right : LineControls}

theorem AgreeThrough.mono {low high : Nat} (agree : left.AgreeThrough right high)
    (ordered : low ≤ high) : left.AgreeThrough right low :=
  fun line within => agree line (within.trans ordered)

variable {number : Nat}

theorem lineCharacters_congr (agree : left.AgreeThrough right number) (mode : CharacterMode)
    (content : List UInt8) :
    lineCharacters left mode number content = lineCharacters right mode number content := by
  rw [lineCharacters, lineCharacters, (agree number (Nat.le_refl _)).1,
    (agree number (Nat.le_refl _)).2.2]

theorem atLine_loadedAt {controls : LineControls} {backing : RegisteredSource}
    {before : List SourceEvent} (line : FirstLine (backing.bytes.drop start) content kind rest)
    (available : start < backing.bytes.length)
    (cold : ∀ (later : LineControls) (other : RegisteredSource), other.mode = backing.mode →
      other.bytes.take (start + 1) = backing.bytes.take (start + 1) →
      later.AgreeThrough controls number →
      WellFormed other.mode (other.bytes.drop start) ∧
        (SourceCursor.new other).deliver later =
          before ++ (SourceCursor.startingAt other start number).deliver later) :
    AtLine controls backing (before ++ [.line number])
      (SourceCursor.loadedAt controls backing start number content kind rest)
      (SourceCursor.loadedLine controls backing.mode start number content kind) content rest
      before [] where
  loaded := rfl
  source := rfl
  settled := rfl
  available := available
  firstLine := line
  contentEnd := rfl
  nextOffset := rfl
  nextNumber := rfl
  endOfFile := rfl
  retained := rfl
  readable := readable_loadedLine line available
    (cold controls backing rfl rfl fun _ _ => ⟨rfl, rfl, rfl⟩).1
  delivered := by simp [SourceCursor.loadedLine]
  characters := remaining_loadedLine line
  cold := cold

variable {cursor : SourceCursor} {events before : List SourceEvent} {consumed : List CharacterCode}

/-- Delivering a character stays inside the loaded line. -/
theorem AtLine.character {controls : LineControls} {backing : RegisteredSource}
    {line next : SourceLineState} {character : SourceCharacter}
    (inLine : AtLine controls backing events cursor line content rest before consumed)
    (delivered : line.takeCharacter controls backing.mode backing.bytes =
      (some character, next)) :
    AtLine controls backing (events ++ [.character character.code])
      { cursor with line := some next } next content rest before
      (consumed ++ [character.code]) := by
  obtain ⟨readable, physical, retained, text⟩ := inLine.readable.take delivered
  refine
    { loaded := rfl
      source := inLine.source
      settled := inLine.settled
      available := physical ▸ inLine.available
      firstLine := physical ▸ inLine.firstLine
      contentEnd := physical ▸ inLine.contentEnd
      nextOffset := physical ▸ inLine.nextOffset
      nextNumber := physical ▸ inLine.nextNumber
      endOfFile := inLine.endOfFile
      retained := by rw [physical, retained, inLine.retained]
      readable := readable
      delivered := ?_
      characters := ?_
      cold := by rw [physical]; exact inLine.cold }
  · rw [physical, inLine.delivered]
    simp
  · rw [physical, ← inLine.characters, text, List.append_assoc, List.singleton_append]

variable {line : SourceLineState}

/-- An exhausted line hands over to the line behind it. -/
theorem AtLine.nextLine {controls : LineControls} {backing : RegisteredSource}
    (inLine : AtLine controls backing events cursor line content rest before consumed)
    (exhausted : line.remaining controls backing.mode backing.bytes = [])
    (continues : controls.forceEof line.physical.number = false) (more : rest ≠ []) :
    ∃ nextContent nextKind nextRest, SourceCursor.needLine controls cursor =
        some (.line (line.physical.number + 1),
          SourceCursor.loadedAt controls backing cursor.nextPhysicalOffset
            (line.physical.number + 1) nextContent nextKind nextRest) ∧
      AtLine controls backing (events ++ [.line (line.physical.number + 1)])
        (SourceCursor.loadedAt controls backing cursor.nextPhysicalOffset
          (line.physical.number + 1) nextContent nextKind nextRest)
        (SourceCursor.loadedLine controls backing.mode cursor.nextPhysicalOffset
          (line.physical.number + 1) nextContent nextKind) nextContent nextRest events [] := by
  have dropped : backing.bytes.drop cursor.nextPhysicalOffset = rest := by
    rw [inLine.nextOffset, inLine.firstLine.drop_eq]
  have available : cursor.nextPhysicalOffset < backing.bytes.length := by
    rw [← dropped] at more
    simpa using more
  obtain ⟨nextContent, nextKind, nextRest, nextLine⟩ :=
    exists_firstLine (backing.bytes.drop cursor.nextPhysicalOffset)
  refine ⟨nextContent, nextKind, nextRest, ?_, ?_⟩
  · have loaded := @needLine_of_firstLine controls cursor _ _ _ inLine.settled
      (inLine.source ▸ available) (inLine.source ▸ nextLine)
    rwa [inLine.nextNumber, inLine.source] at loaded
  apply atLine_loadedAt nextLine available
  intro later other mode agree controlsAgree
  have agreeStart := congrArg (List.take (line.physical.contentStart + 1)) agree
  rw [List.take_take, List.take_take, inLine.nextOffset, Nat.min_eq_left (by omega)] at agreeStart
  have agreeThrough := AgreeThrough.mono controlsAgree (Nat.le_succ _)
  obtain ⟨wellFormed, cold⟩ := inLine.cold later other mode agreeStart agreeThrough
  rw [inLine.nextOffset] at agree
  obtain ⟨otherLine, longer⟩ := inLine.firstLine.transfer inLine.available more agree
  have stays : later.forceEof line.physical.number = false :=
    (agreeThrough _ (Nat.le_refl _)).2.1.trans continues
  have nonempty : (other.bytes.drop (line.physical.contentStart + content.length +
      line.physical.terminatorKind.bytes.length)).isEmpty = false := by
    simpa using longer
  have whole : consumed = lineCharacters later other.mode line.physical.number content := by
    rw [mode, lineCharacters_congr agreeThrough, ← inLine.characters, exhausted, List.append_nil]
  refine ⟨inLine.nextOffset ▸ otherLine.wellFormed_rest wellFormed, ?_⟩
  rw [cold, deliver_startingAt otherLine (by omega) wellFormed, stays, nonempty,
    inLine.delivered, ← whole, ← inLine.nextOffset]
  simp

/-- Every state a source passes through is its initial one or lies inside a
loaded line. -/
theorem Reads.atLine {controls : LineControls} {backing : RegisteredSource}
    {events : List SourceEvent} (reads : Reads controls backing events cursor) :
    (events = [] ∧ cursor = SourceCursor.new backing) ∨ ∃ line content rest before consumed,
        AtLine controls backing events cursor line content rest before consumed := by
  induction reads with
  | start => exact .inl ⟨rfl, rfl⟩
  | @pull events event cursor next _ pulled ih => ?_
  right
  rcases ih with ⟨rfl, rfl⟩ | ⟨line, content, rest, before, consumed, inLine⟩
  · by_cases available : 0 < backing.bytes.length
    · obtain ⟨content, kind, rest, line⟩ := exists_firstLine (backing.bytes.drop 0)
      have loaded := @needLine_of_firstLine controls (SourceCursor.new backing)
        content rest kind rfl available line
      simp only [SourceCursor.pull, SourceCursor.new] at pulled loaded
      rw [loaded] at pulled
      cases pulled
      refine ⟨_, _, _, [], _, atLine_loadedAt line available ?_⟩
      intro later other _ _ _
      exact ⟨other.wellFormed, rfl⟩
    have ended := @needLine_eq_none controls (SourceCursor.new backing) rfl
      (Nat.not_lt.mp available)
    simp only [SourceCursor.pull, SourceCursor.new] at pulled ended
    rw [ended] at pulled
    contradiction
  simp only [SourceCursor.pull, inLine.loaded] at pulled
  split at pulled
  next character following delivered =>
    cases pulled
    rw [inLine.source] at delivered
    exact ⟨_, _, _, _, _, inLine.character delivered⟩
  rename_i _ ended
  rw [inLine.source] at ended
  split at pulled
  next => contradiction
  rename_i continues
  simp only [Bool.or_eq_true, Bool.and_eq_true, not_or, Bool.not_eq_true,
    inLine.settled, inLine.endOfFile] at continues
  obtain ⟨stays, more⟩ := continues
  obtain ⟨nextContent, nextKind, nextRest, loaded, nextInLine⟩ :=
    inLine.nextLine (inLine.readable.left ended) stays (by simpa using more)
  rw [loaded] at pulled
  cases pulled
  exact ⟨_, _, _, _, _, nextInLine⟩

def SourceEvent.isLine : SourceEvent → Bool
  | .line _ => true
  | .character _ => false

theorem countP_characters (characters : List CharacterCode) :
    (characters.map SourceEvent.character).countP SourceEvent.isLine = 0 := by
  simp [List.countP_map, List.countP_eq_zero, SourceEvent.isLine]

/-- With no forced end ahead, the number of lines delivered does not depend on
how the lines are numbered. -/
theorem countP_isLine_deliver {controls : LineControls} {backing : RegisteredSource}
    {start left right : Nat} (wellFormed : WellFormed backing.mode (backing.bytes.drop start))
    (leftFree : ∀ number, left ≤ number → controls.forceEof number = false)
    (rightFree : ∀ number, right ≤ number → controls.forceEof number = false) :
    ((SourceCursor.startingAt backing start left).deliver controls).countP SourceEvent.isLine =
      ((SourceCursor.startingAt backing start right).deliver controls).countP
        SourceEvent.isLine := by
  induction measure : backing.bytes.length - start using Nat.strongRecOn
    generalizing start left right with
  | ind size ih => ?_
  by_cases available : start < backing.bytes.length
  · obtain ⟨content, kind, rest, line⟩ := exists_firstLine (backing.bytes.drop start)
    rw [deliver_startingAt line available wellFormed,
      deliver_startingAt line available wellFormed, leftFree left (Nat.le_refl _),
      rightFree right (Nat.le_refl _)]
    simp only [List.countP_cons, List.countP_append, countP_characters, SourceEvent.isLine]
    by_cases last : rest.isEmpty = true
    · simp [last]
    have width := line.width_pos (by simpa using available)
    have tail := @ih _ (by omega) (start + content.length + kind.bytes.length) (left + 1)
      (right + 1) (line.drop_eq ▸ line.wellFormed_rest wellFormed)
      (fun number bound => leftFree number (by omega))
      (fun number bound => rightFree number (by omega)) rfl
    simp only [last, Bool.or_false, Bool.false_eq_true, if_false, tail]
  have ended : ∀ number, (SourceCursor.startingAt backing start number).pull controls = none :=
    fun number => needLine_eq_none rfl (Nat.not_lt.mp available)
  rw [deliver_of_end (ended left), deliver_of_end (ended right)]

/-- Both streams of a restart, from the start of the loaded line on. -/
theorem AtLine.restored_iff {controls later : LineControls} {backing other : RegisteredSource}
    {content rest otherContent otherRest : List UInt8} {otherKind : LineTerminator}
    (inLine : AtLine controls backing events cursor line content rest before consumed)
    (mode : other.mode = backing.mode) (agree : other.bytes.take cursor.nextPhysicalOffset =
      backing.bytes.take cursor.nextPhysicalOffset)
    (within : cursor.nextPhysicalOffset ≤ other.bytes.length)
    (controlsAgree : later.AgreeThrough controls line.physical.number)
    (otherLine : FirstLine (other.bytes.drop line.physical.contentStart) otherContent otherKind
      otherRest) :
    events ++ ({ cursor with backing := other } : SourceCursor).deliver later =
        (SourceCursor.new other).deliver later ↔
      (lineCharacters later other.mode line.physical.number content).map SourceEvent.character ++
          (if controls.forceEof line.physical.number || rest.isEmpty then []
            else (SourceCursor.startingAt other cursor.nextPhysicalOffset
              (line.physical.number + 1)).deliver later) =
        (lineCharacters later other.mode line.physical.number otherContent).map
            SourceEvent.character ++
          (if controls.forceEof line.physical.number || otherRest.isEmpty then []
            else (SourceCursor.startingAt other (line.physical.contentStart +
              otherContent.length + otherKind.bytes.length)
                (line.physical.number + 1)).deliver later) := by
  have positive := inLine.firstLine.width_pos (by simpa using inLine.available)
  have stripped := stripSpaces_length_le content
  have offset := inLine.nextOffset
  have agreeStart := congrArg (List.take (line.physical.contentStart + 1)) agree
  rw [List.take_take, List.take_take, inLine.nextOffset, Nat.min_eq_left (by omega)] at agreeStart
  obtain ⟨wellFormed, cold⟩ := inLine.cold later other mode agreeStart controlsAgree
  have agreeRetained := congrArg (List.take line.retainedEnd) agree
  rw [List.take_take, List.take_take, inLine.nextOffset, inLine.retained,
    Nat.min_eq_left (by omega), ← inLine.retained] at agreeRetained
  have segment : line.segment other.bytes = line.segment backing.bytes := by
    rw [SourceLineState.segment, SourceLineState.segment, agreeRetained]
  obtain ⟨_, force, leaves⟩ := controlsAgree line.physical.number (Nat.le_refl _)
  have readable : line.Readable other.mode other.bytes := by
    refine ⟨inLine.readable.cursorLe, ?_, ?_⟩
    · rw [inLine.retained]
      omega
    rw [segment, mode]
    exact inLine.readable.wellFormed
  have characters : consumed ++ line.remaining later other.mode other.bytes =
      lineCharacters later other.mode line.physical.number content := by
    rw [SourceLineState.remaining, SourceLineState.rest, SourceLineState.characters, segment, mode,
      agreeRetained, leaves, lineCharacters_congr controlsAgree, ← inLine.characters]
    rfl
  have released := @deliver_released later
    ({ cursor with backing := other } : SourceCursor) inLine.settled
  have restored := @deliver_line later
    ({ cursor with backing := other } : SourceCursor) line inLine.loaded readable
  have after : ({ cursor with backing := other } : SourceCursor).afterLine later
      line.physical.number =
        if controls.forceEof line.physical.number || rest.isEmpty then []
        else (SourceCursor.startingAt other cursor.nextPhysicalOffset
          (line.physical.number + 1)).deliver later := by
    rw [SourceCursor.afterLine, released, force, inLine.nextNumber]
    simp only [inLine.settled, inLine.endOfFile, Bool.not_false, Bool.and_true]
  rw [restored, after, cold, deliver_startingAt otherLine (by omega) wellFormed,
    inLine.delivered, force, ← characters]
  simp

/-- The loaded line as it lies in another text with the same beginning. -/
theorem AtLine.otherTail {controls : LineControls} {backing other : RegisteredSource}
    (inLine : AtLine controls backing events cursor line content rest before consumed)
    (agree : other.bytes.take cursor.nextPhysicalOffset =
      backing.bytes.take cursor.nextPhysicalOffset) : other.bytes.drop line.physical.contentStart =
      content ++ line.physical.terminatorKind.bytes ++
        other.bytes.drop cursor.nextPhysicalOffset := by
  have offset := inLine.nextOffset
  have head : (backing.bytes.drop line.physical.contentStart).take
      (content ++ line.physical.terminatorKind.bytes).length =
        content ++ line.physical.terminatorKind.bytes := by
    rw [inLine.firstLine.split, List.take_left]
  have width : cursor.nextPhysicalOffset - line.physical.contentStart =
      (content ++ line.physical.terminatorKind.bytes).length := by
    rw [List.length_append]
    omega
  calc
    other.bytes.drop line.physical.contentStart =
        (other.bytes.drop line.physical.contentStart).take
            (cursor.nextPhysicalOffset - line.physical.contentStart) ++
          (other.bytes.drop line.physical.contentStart).drop
            (cursor.nextPhysicalOffset - line.physical.contentStart) :=
      (List.take_append_drop _ _).symm
    _ = (other.bytes.take cursor.nextPhysicalOffset).drop line.physical.contentStart ++
          other.bytes.drop cursor.nextPhysicalOffset := by
      rw [List.drop_take, List.drop_drop]
      congr 2
      omega
    _ = content ++ line.physical.terminatorKind.bytes ++
          other.bytes.drop cursor.nextPhysicalOffset := by
      rw [agree, List.drop_take, width, head]

theorem AtLine.otherWellFormed {controls : LineControls} {backing other : RegisteredSource}
    (inLine : AtLine controls backing events cursor line content rest before consumed)
    (mode : other.mode = backing.mode) (agree : other.bytes.take cursor.nextPhysicalOffset =
      backing.bytes.take cursor.nextPhysicalOffset) :
    WellFormed other.mode (other.bytes.drop line.physical.contentStart) := by
  have positive := inLine.firstLine.width_pos (by simpa using inLine.available)
  have offset := inLine.nextOffset
  have agreeStart := congrArg (List.take (line.physical.contentStart + 1)) agree
  rw [List.take_take, List.take_take, Nat.min_eq_left (by omega)] at agreeStart
  exact (inLine.cold controls other mode agreeStart fun _ _ => ⟨rfl, rfl, rfl⟩).1

theorem deliver_startingAt_eq_nil {controls : LineControls} {backing : RegisteredSource}
    (exhausted : backing.bytes.drop start = []) :
    (SourceCursor.startingAt backing start number).deliver controls = [] := by
  apply deliver_of_end
  exact needLine_eq_none rfl (List.drop_eq_nil_iff.mp exhausted)

theorem countP_deliver_startingAt_pos {controls : LineControls} {backing : RegisteredSource}
    {start number : Nat} (wellFormed : WellFormed backing.mode (backing.bytes.drop start))
    (available : backing.bytes.drop start ≠ []) :
    0 < ((SourceCursor.startingAt backing start number).deliver controls).countP
      SourceEvent.isLine := by
  obtain ⟨content, kind, rest, line⟩ := exists_firstLine (backing.bytes.drop start)
  rw [deliver_startingAt line (by simpa using available) wellFormed]
  simp [SourceEvent.isLine]

def LineControls.openAfter (controls : LineControls) (number : Nat) : LineControls where
  endlinechar := controls.endlinechar
  forceEof line := decide (line ≤ number) && controls.forceEof line
  leaves := controls.leaves

theorem LineControls.agreeThrough_openAfter (controls : LineControls) (number : Nat) :
    (controls.openAfter number).AgreeThrough controls number :=
  fun line within => ⟨rfl, by simp [openAfter, within], rfl⟩

theorem LineControls.forceEof_openAfter (controls : LineControls) {line : Nat}
    (after : number < line) : (controls.openAfter number).forceEof line = false := by
  simp [openAfter, Nat.not_le.mpr after]

theorem stripSpaces_append_spaces {content spaces : List UInt8}
    (onlySpaces : ∀ byte ∈ spaces, byte = space) :
    stripSpaces (content ++ spaces) = stripSpaces content := by
  rw [stripSpaces, stripSpaces, List.rdropWhile, List.reverse_append,
    List.dropWhile_append_of_pos (by simpa using onlySpaces)]
  rfl

/-- Spaces behind an unterminated line do not change what the tokenizer takes of it. -/
theorem lineCharacters_append_spaces {controls : LineControls} {mode : CharacterMode}
    {content spaces : List UInt8} (onlySpaces : ∀ byte ∈ spaces, byte = space) :
    lineCharacters controls mode number (content ++ spaces) =
      lineCharacters controls mode number content := by
  rw [lineCharacters, lineCharacters, stripSpaces_append_spaces onlySpaces]

section Restart

variable {controls : LineControls} {backing other : RegisteredSource}
  {events before : List SourceEvent} {cursor : SourceCursor} {line : SourceLineState}
  {content rest : List UInt8} {consumed : List CharacterCode}

/-- The restored cursor reads on exactly as a cold read of the other text,
whatever the engine does with the lines that follow. -/
def ReadsAsCold (controls : LineControls) (events : List SourceEvent) (cursor : SourceCursor)
    (number : Nat) (other : RegisteredSource) : Prop :=
  ∀ later : LineControls, later.AgreeThrough controls number →
    events ++ ({ cursor with backing := other } : SourceCursor).deliver later =
      (SourceCursor.new other).deliver later

variable (inLine : AtLine controls backing events cursor line content rest before consumed)
  (mode : other.mode = backing.mode) (agree : other.bytes.take cursor.nextPhysicalOffset =
    backing.bytes.take cursor.nextPhysicalOffset)
  (within : cursor.nextPhysicalOffset ≤ other.bytes.length)
include inLine mode agree within

/-- The loaded line lies in the other text as it was: only the end-of-file fact
can be wrong. -/
theorem AtLine.readsAsCold_kept
    (otherLine : FirstLine (other.bytes.drop line.physical.contentStart) content
      line.physical.terminatorKind (other.bytes.drop cursor.nextPhysicalOffset)) :
    ReadsAsCold controls events cursor line.physical.number other ↔
      (controls.forceEof line.physical.number || !rest.isEmpty ||
        (other.bytes.drop cursor.nextPhysicalOffset).isEmpty) = true := by
  constructor
  · intro readsAsCold
    by_contra stale
    simp only [Bool.or_eq_true, not_or, Bool.not_eq_true, Bool.not_eq_eq_eq_not,
      Bool.not_true] at stale
    obtain ⟨⟨free, last⟩, more⟩ := stale
    have equal := (inLine.restored_iff mode agree within (fun _ _ => ⟨rfl, rfl, rfl⟩) otherLine).mp
      (readsAsCold controls fun _ _ => ⟨rfl, rfl, rfl⟩)
    have lines := congrArg (List.countP SourceEvent.isLine) equal
    rw [← inLine.nextOffset] at lines
    simp only [free, last, more, List.countP_append, countP_characters, Bool.or_self,
      Bool.or_true, Bool.false_eq_true, if_true, if_false, List.countP_nil] at lines
    have wellFormed := otherLine.wellFormed_rest (inLine.otherWellFormed mode agree)
    have := @countP_deliver_startingAt_pos controls other _ (line.physical.number + 1) wellFormed
      (by simpa using more)
    omega
  intro safe later controlsAgree
  rw [inLine.restored_iff mode agree within controlsAgree otherLine, ← inLine.nextOffset]
  congr 1
  cases force : controls.forceEof line.physical.number with
  | true => simp
  | false => ?_
  by_cases ended : other.bytes.drop cursor.nextPhysicalOffset = []
  · simp [ended, deliver_startingAt_eq_nil ended]
  have more : rest.isEmpty = false := by simpa [force, ended] using safe
  simp [more, ended]

/-- A lone carriage return that the other text continues with a line feed. -/
theorem AtLine.readsAsCold_joined (cr : line.physical.terminatorKind = .cr) {tail : List UInt8}
    (joined : other.bytes.drop cursor.nextPhysicalOffset = lineFeed :: tail) :
    ReadsAsCold controls events cursor line.physical.number other ↔
      (controls.forceEof line.physical.number || (rest.isEmpty && tail.isEmpty)) = true := by
  have offset := inLine.nextOffset
  have whole := inLine.otherTail agree
  rw [cr, joined] at whole
  have otherLine : FirstLine (other.bytes.drop line.physical.contentStart) content .crLf tail :=
    ⟨by rw [whole]; simp [LineTerminator.bytes], inLine.firstLine.plain, by simp, by simp⟩
  have tailOffset : line.physical.contentStart + content.length +
      LineTerminator.crLf.bytes.length = cursor.nextPhysicalOffset + 1 := by
    rw [offset, cr]
    rfl
  have wellFormed := inLine.otherWellFormed mode agree
  constructor
  · intro readsAsCold
    by_contra stale
    simp only [Bool.or_eq_true, not_or, Bool.not_eq_true, Bool.and_eq_false_iff] at stale
    obtain ⟨free, more⟩ := stale
    have controlsAgree := controls.agreeThrough_openAfter line.physical.number
    have equal := (inLine.restored_iff mode agree within controlsAgree otherLine).mp
      (readsAsCold _ controlsAgree)
    have lines := congrArg (List.countP SourceEvent.isLine) equal
    have tailFormed := otherLine.wellFormed_rest wellFormed
    rw [tailOffset] at lines
    have tailDrop : other.bytes.drop (cursor.nextPhysicalOffset + 1) = tail := by
      rw [← tailOffset, otherLine.drop_eq]
    have emptyLine : FirstLine (other.bytes.drop cursor.nextPhysicalOffset) [] .lf tail :=
      ⟨by rw [joined]; rfl, by simp, by simp, by simp⟩
    have available : cursor.nextPhysicalOffset < other.bytes.length := by
      have := congrArg List.length joined
      simp only [List.length_drop, List.length_cons] at this
      omega
    have joinedFormed : WellFormed other.mode (other.bytes.drop cursor.nextPhysicalOffset) := by
      intro unicode
      rw [joined]
      exact .step (rfl : Utf8.decode (lineFeed :: tail) = some (10, 1)) (tailFormed unicode)
    have nextFree := controls.forceEof_openAfter (Nat.lt_succ_self line.physical.number)
    have renumbered := @countP_isLine_deliver (controls.openAfter line.physical.number) other
      (cursor.nextPhysicalOffset + 1) (line.physical.number + 1) (line.physical.number + 1 + 1)
      (tailDrop ▸ tailFormed) (fun _ bound => controls.forceEof_openAfter bound)
      (fun _ bound => controls.forceEof_openAfter (by omega))
    by_cases last : rest.isEmpty = true
    · have tailMore : tail.isEmpty = false := by simpa [last] using more
      have positive := @countP_deliver_startingAt_pos (controls.openAfter line.physical.number)
        other (cursor.nextPhysicalOffset + 1) (line.physical.number + 1) (tailDrop ▸ tailFormed)
        (by simpa [tailDrop] using tailMore)
      simp only [free, last, tailMore, List.countP_append, countP_characters, Bool.or_self,
        Bool.or_true, Bool.false_eq_true, if_true, if_false, List.countP_nil] at lines
      omega
    rw [deliver_startingAt emptyLine available joinedFormed] at lines
    by_cases ended : tail.isEmpty = true
    · simp [free, last, ended, SourceEvent.isLine] at lines
    simp only [free, last, ended, nextFree, LineTerminator.bytes, List.length_nil,
      List.length_singleton, Nat.add_zero, List.countP_append, List.countP_cons,
      countP_characters, SourceEvent.isLine, renumbered, Bool.or_self, Bool.false_eq_true,
      if_true, if_false] at lines
    omega
  intro safe later controlsAgree
  rw [inLine.restored_iff mode agree within controlsAgree otherLine]
  congr 1
  cases force : controls.forceEof line.physical.number with
  | true => simp
  | false =>
    obtain ⟨last, ended⟩ : rest = [] ∧ tail = [] := by simpa [force] using safe
    simp [last, ended]

/-- An unterminated last line that the other text continues. -/
theorem AtLine.readsAsCold_continued (missing : line.physical.terminatorKind = .missing) :
    ReadsAsCold controls events cursor line.physical.number other ↔
      restartSafe controls backing.mode line.physical.number content .missing cursor.endAfterLine
        (other.bytes.drop cursor.nextPhysicalOffset) = true := by
  have whole := inLine.otherTail agree
  rw [missing] at whole
  obtain ⟨more, kind, behind, moreLine⟩ :=
    exists_firstLine (other.bytes.drop cursor.nextPhysicalOffset)
  have otherLine : FirstLine (other.bytes.drop line.physical.contentStart) (content ++ more) kind
      behind := by
    refine ⟨?_, ?_, moreLine.missing, moreLine.loneCr⟩
    · rw [whole, moreLine.split]
      simp [LineTerminator.bytes]
    intro byte member
    rcases List.mem_append.mp member with member | member
    · exact inLine.firstLine.plain byte member
    · exact moreLine.plain byte member
  have last := inLine.firstLine.missing missing
  have wellFormed := inLine.otherWellFormed mode agree
  have ends : ((other.bytes.drop cursor.nextPhysicalOffset).length ==
      more.length + kind.bytes.length) = behind.isEmpty := by
    have length := congrArg List.length moreLine.split
    simp only [List.length_append] at length
    rw [Bool.eq_iff_iff, beq_iff_eq, List.isEmpty_iff, ← List.length_eq_zero_iff]
    omega
  have condition : restartSafe controls backing.mode line.physical.number content .missing
      cursor.endAfterLine (other.bytes.drop cursor.nextPhysicalOffset) = true ↔
      lineCharacters controls backing.mode line.physical.number (content ++ more) =
          lineCharacters controls backing.mode line.physical.number content ∧
        (controls.forceEof line.physical.number || behind.isEmpty) = true := by
    rw [restartSafe, moreLine.splitTail_eq]
    simp only [ends, Bool.and_eq_true, beq_iff_eq]
  rw [condition]
  constructor
  · intro readsAsCold
    have equal := (inLine.restored_iff mode agree within (fun _ _ => ⟨rfl, rfl, rfl⟩)
      otherLine).mp (readsAsCold controls fun _ _ => ⟨rfl, rfl, rfl⟩)
    simp only [last, List.isEmpty_nil, Bool.or_true, if_true, List.append_nil] at equal
    have stops : (controls.forceEof line.physical.number || behind.isEmpty) = true := by
      by_contra stops
      simp only [Bool.not_eq_true] at stops
      have lines := congrArg (List.countP SourceEvent.isLine) equal
      have positive := @countP_deliver_startingAt_pos controls other
        (line.physical.contentStart + (content ++ more).length + kind.bytes.length)
        (line.physical.number + 1) (otherLine.drop_eq ▸ otherLine.wellFormed_rest wellFormed)
        (by rw [otherLine.drop_eq]; intro empty; simp [empty] at stops)
      simp only [stops, List.countP_append, countP_characters, Bool.false_eq_true,
        if_false] at lines
      omega
    rw [stops, if_pos rfl, List.append_nil, mode] at equal
    refine ⟨(List.map_injective_iff.mpr ?_ equal).symm, stops⟩
    exact fun left right same => SourceEvent.character.inj same
  rintro ⟨same, stops⟩ later controlsAgree
  rw [inLine.restored_iff mode agree within controlsAgree otherLine, stops, last, mode,
    lineCharacters_congr controlsAgree, lineCharacters_congr controlsAgree, same]
  simp

theorem AtLine.readsAsCold_iff :
    ReadsAsCold controls events cursor line.physical.number other ↔
      restartSafe controls backing.mode line.physical.number content line.physical.terminatorKind
        cursor.endAfterLine (other.bytes.drop cursor.nextPhysicalOffset) = true := by
  have whole := inLine.otherTail agree
  have plain := inLine.firstLine.plain
  cases kind : line.physical.terminatorKind with
  | missing => exact inLine.readsAsCold_continued mode agree within kind
  | lf =>
    rw [inLine.readsAsCold_kept mode agree within ⟨whole, plain, by simp [kind], by simp [kind]⟩,
      inLine.endOfFile]
    rfl
  | crLf =>
    rw [inLine.readsAsCold_kept mode agree within ⟨whole, plain, by simp [kind], by simp [kind]⟩,
      inLine.endOfFile]
    rfl
  | cr => ?_
  by_cases joined : (other.bytes.drop cursor.nextPhysicalOffset).head? = some lineFeed
  · obtain ⟨tail, split⟩ := List.head?_eq_some_iff.mp joined
    rw [inLine.readsAsCold_joined mode agree within kind split, split, restartSafe,
      inLine.endOfFile]
    cases rest <;> simp
  rw [inLine.readsAsCold_kept mode agree within
    ⟨whole, plain, by simp [kind], fun _ => joined⟩, restartSafe, inLine.endOfFile]
  have notFeed : other.bytes.drop cursor.nextPhysicalOffset ≠ [lineFeed] := by
    intro single
    simp [single] at joined
  generalize other.bytes.drop cursor.nextPhysicalOffset = tail at joined notFeed ⊢
  cases rest <;> simp [joined, notFeed]

end Restart

theorem rebindGenerated_ok {source replacement : RegisteredSource}
    (rebound : source.rebindGenerated bytes = .ok replacement) :
    replacement.mode = source.mode ∧ replacement.bytes = bytes := by
  unfold RegisteredSource.rebindGenerated at rebound
  split at rebound
  next mode =>
    cases rebound
    exact ⟨mode.symm, rfl⟩
  rename_i mode
  split at rebound
  · cases rebound
    exact ⟨mode.symm, rfl⟩
  · contradiction

/-- A successful rebinding replaces the backing and nothing else. -/
theorem rebindGeneratedSource_ok {cursor restored : SourceCursor} {unchangedPrefix : Nat}
    (rebound : cursor.rebindGeneratedSource bytes unchangedPrefix = .ok restored) :
    restored = { cursor with backing := restored.backing } ∧
      restored.backing.mode = cursor.backing.mode ∧ restored.backing.bytes = bytes ∧
      bytes.take unchangedPrefix = cursor.backing.bytes.take unchangedPrefix ∧
      unchangedPrefix ≤ bytes.length := by
  simp only [SourceCursor.rebindGeneratedSource] at rebound
  split at rebound
  next => contradiction
  rename_i accepted
  simp only [Bool.or_eq_true, decide_eq_true_eq, bne_iff_ne, ne_eq, not_or, Nat.not_lt,
    not_not] at accepted
  cases replaced : cursor.backing.rebindGenerated bytes with
  | error => simp [replaced, bind, Except.bind] at rebound
  | ok replacement => ?_
  simp only [replaced, bind, Except.bind, pure, Except.pure, Except.ok.injEq] at rebound
  subst rebound
  obtain ⟨mode, sameBytes⟩ := rebindGenerated_ok replaced
  exact ⟨rfl, mode, sameBytes, accepted.2.symm, accepted.1.2⟩

/-- Rebinding succeeds for every edit behind the anchor. -/
theorem rebindGeneratedSource_edit {edit : Edit} {anchor : Nat}
    (below : anchor ≤ edit.start) (inside : edit.stop ≤ cursor.backing.bytes.length)
    (wellFormed : WellFormed cursor.backing.mode (edit.apply cursor.backing.bytes)) :
    ∃ restored, cursor.rebindGeneratedSource (edit.apply cursor.backing.bytes) anchor =
      .ok restored := by
  have startInside := edit.ordered.trans inside
  have unchanged := Edit.take_apply below startInside
  have longEnough : anchor ≤ (edit.apply cursor.backing.bytes).length := by
    simp only [Edit.apply, List.length_append, List.length_take]
    omega
  have accepted : ¬ (cursor.backing.bytes.length < anchor) := by omega
  simp only [SourceCursor.rebindGeneratedSource, accepted, Nat.not_lt.mpr longEnough, unchanged,
    decide_false, bne_self_eq_false, Bool.or_self, Bool.false_eq_true, if_false]
  unfold RegisteredSource.rebindGenerated
  split
  next => exact ⟨_, rfl⟩
  next mode =>
    rw [dif_pos (wellFormed mode)]
    exact ⟨_, rfl⟩

/-- A checkpoint restored below an edit reads on as a cold run of the edited
text exactly when the text behind the anchor leaves the loaded line and the
end-of-file fact of the restored cursor true. -/
theorem restored_reads_as_cold_iff {controls : LineControls} {backing : RegisteredSource}
    {events : List SourceEvent} {cursor : SourceCursor} {line : SourceLineState} {edit : Edit}
    (reads : Reads controls backing events cursor) (loaded : cursor.line = some line)
    (below : cursor.nextPhysicalOffset ≤ edit.start) (inside : edit.stop ≤ backing.bytes.length)
    (wellFormed : WellFormed backing.mode (edit.apply backing.bytes)) : ∃ restored,
      cursor.rebindGeneratedSource (edit.apply backing.bytes) cursor.nextPhysicalOffset =
        .ok restored ∧ ((∀ later : LineControls, later.AgreeThrough controls line.physical.number →
          events ++ restored.deliver later = (SourceCursor.new restored.backing).deliver later) ↔
        restartSafe controls backing.mode line.physical.number
          ((backing.bytes.take line.physical.contentEnd).drop line.physical.contentStart)
          line.physical.terminatorKind cursor.endAfterLine
          ((edit.apply backing.bytes).drop cursor.nextPhysicalOffset) = true) := by
  rcases reads.atLine with ⟨_, rfl⟩ | ⟨_, content, rest, before, consumed, inLine⟩
  · simp [SourceCursor.new] at loaded
  have sameLine := inLine.loaded
  rw [loaded] at sameLine
  cases sameLine
  have source := inLine.source
  subst source
  obtain ⟨restored, rebound⟩ := rebindGeneratedSource_edit below inside wellFormed
  refine ⟨restored, rebound, ?_⟩
  obtain ⟨shape, mode, bytes, agree, within⟩ := rebindGeneratedSource_ok rebound
  have loadedContent : (cursor.backing.bytes.take line.physical.contentEnd).drop
      line.physical.contentStart = content := by
    rw [inLine.contentEnd, List.drop_take, inLine.firstLine.split, List.append_assoc,
      Nat.add_sub_cancel_left, List.take_left]
  rw [loadedContent]
  have decided := inLine.readsAsCold_iff mode (bytes ▸ agree) (bytes ▸ within)
  rw [bytes] at decided
  rw [← decided, ReadsAsCold, ← shape]

/-- The carriage return ends every line, and the percent sign starts a comment. -/
def plainControls : LineControls where
  endlinechar _ := 13
  forceEof _ := false
  leaves _ characters := characters.idxOf (.byte 37)

theorem eightBit_wellFormed (bytes : List UInt8) :
    CharacterMode.eightBitExact = .unicodeExtended → Utf8.Valid bytes := by
  intro extended
  cases extended

def eightBitSource (bytes : List UInt8) : RegisteredSource where
  mode := .eightBitExact
  bytes := bytes
  wellFormed := eightBit_wellFormed bytes

/-- Text appended to a last line that ends in a comment. -/
theorem restored_reads_as_cold_comment : ∃ cursor restored,
      Reads plainControls (eightBitSource [65, 37]) [.line 1, .character (.byte 65),
        .character (.byte 37)] cursor ∧
      cursor.rebindGeneratedSource [65, 37, 66] 2 = .ok restored ∧
      [.line 1, .character (.byte 65), .character (.byte 37)] ++
          restored.deliver plainControls =
        (SourceCursor.new restored.backing).deliver plainControls := by
  have reads : Reads plainControls (eightBitSource [65, 37])
      [.line 1, .character (.byte 65), .character (.byte 37)] _ :=
    .pull (.pull (.pull .start rfl) rfl) rfl
  obtain ⟨restored, rebound, decided⟩ :=
    @restored_reads_as_cold_iff _ _ _ _ _ ⟨2, 2, [66], by decide⟩ reads rfl (by decide)
      (by decide) (by simp [WellFormed, eightBitSource])
  exact ⟨_, restored, reads, rebound,
    decided.mpr (by decide) plainControls fun _ _ => ⟨rfl, rfl, rfl⟩⟩

/-- Text appended to an unterminated last line is lost by a restart behind it. -/
theorem restored_loses_appended_text : ∃ cursor restored, Reads plainControls (eightBitSource [65])
        [.line 1, .character (.byte 65), .character (.byte 13)] cursor ∧
      cursor.nextPhysicalOffset = 1 ∧ cursor.rebindGeneratedSource [65, 66] 1 = .ok restored ∧
      [.line 1, .character (.byte 65), .character (.byte 13)] ++ restored.deliver plainControls ≠
        (SourceCursor.new restored.backing).deliver plainControls :=
  ⟨_, _, .pull (.pull (.pull .start rfl) rfl) rfl, rfl, rfl, by decide⟩

end Umber.Input
