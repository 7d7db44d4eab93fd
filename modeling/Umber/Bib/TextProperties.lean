import Umber.Bib.SourceProperties

/-! What the texts of values are: the braces of a text nest outside backslash escapes, and the
scan of a value ends behind its delimiter or where the reader may go on. -/

set_option autoImplicit false

namespace Umber.Bib

/-! ## Nested braces -/

/-- The depth behind a text. A right brace at depth zero is refused, or is plain text. -/
def nesting (strict : Bool) : Text → Bool → Nat → Option Nat
  | [], _, depth => some depth
  | byte :: rest, escaped, depth =>
    if escaped = true then nesting strict rest false depth
    else if byte = 0x5C then nesting strict rest true depth
    else if byte = 0x7B then nesting strict rest false (depth + 1)
    else if byte = 0x7D then
      if 0 < depth then nesting strict rest false (depth - 1)
      else if strict = true then none
      else nesting strict rest false depth
    else nesting strict rest false depth

/-- Every brace of a text outside escapes has its partner in the text. -/
def Balanced (text : Text) : Prop :=
  nesting true text false 0 = some 0

/-- Every left brace of a text outside escapes has its partner in the text. -/
def Closed (text : Text) : Prop :=
  nesting false text false 0 = some 0

instance (text : Text) : Decidable (Balanced text) :=
  inferInstanceAs (Decidable (nesting true text false 0 = some 0))

namespace RawSource

variable {source : RawSource}

theorem found_of_drop {at_ : Nat} {byte : UInt8} {rest : List UInt8}
    (dropped : source.input.drop at_ = byte :: rest) : source.input[at_]? = some byte := by
  rw [← Nat.add_zero at_, ← List.getElem?_drop, dropped]
  rfl

theorem drop_succ_of_drop {at_ : Nat} {byte : UInt8} {rest : List UInt8}
    (dropped : source.input.drop at_ = byte :: rest) : source.input.drop (at_ + 1) = rest := by
  rw [← List.drop_drop, dropped]
  rfl

theorem lt_of_drop {at_ : Nat} {byte : UInt8} {rest : List UInt8}
    (dropped : source.input.drop at_ = byte :: rest) : at_ < source.input.length :=
  (List.getElem?_eq_some_iff.mp (found_of_drop dropped)).1

theorem at_end_of_drop {at_ : Nat} (dropped : source.input.drop at_ = [])
    (bound : at_ ≤ source.input.length) : at_ = source.input.length :=
  Nat.le_antisymm bound (List.drop_eq_nil_iff.mp dropped)

theorem boundary_of_ascii {at_ : Nat} {byte : UInt8} (found : source.input[at_]? = some byte)
    (ascii : byte.toNat < 0x80) : isCharBoundary source.input at_ = true :=
  isCharBoundary_of_get found (isContinuation_ascii ascii)

/-! ## The scan of a value -/

def RecoversIn (source : RawSource) (first : Nat) (recovery : Option Nat) : Prop :=
  ∀ offset ∈ recovery, first ≤ offset ∧ offset ≤ source.input.length ∧
    isCharBoundary source.input offset = true

theorem RecoversIn.none {first : Nat} : source.RecoversIn first Option.none :=
  nofun

structure ScanEnds (source : RawSource) (strict : Bool) (closer : UInt8) (first at_ : Nat)
    (escaped : Bool) (depth : Nat) (scan : TextScan) : Prop where
  le : at_ ≤ scan.at_
  bound : scan.at_ ≤ source.input.length
  recovery : source.RecoversIn first scan.recovery
  closed : scan.ending = .closed → ∃ text, at_ + text.length + 1 = scan.at_ ∧
    source.input.drop at_ = text ++ closer :: source.input.drop scan.at_ ∧
      nesting strict text escaped depth = some 0
  outOfWork : scan.ending = .outOfWork → source.limits.maxWork ≤ scan.work
  tooDeep : scan.ending = .tooDeep → isCharBoundary source.input scan.at_ = true
  unterminated : scan.ending = .unterminated → scan.at_ = source.input.length

variable {strict : Bool} {closer byte : UInt8} {first at_ work : Nat} {rest : List UInt8}
  {escaped laterEscaped : Bool} {depth laterDepth : Nat} {recovery : Option Nat}

theorem ScanEnds.step {scan : TextScan}
    (later : source.ScanEnds strict closer first (at_ + 1) laterEscaped laterDepth scan)
    (dropped : source.input.drop at_ = byte :: rest)
    (nests : ∀ text, nesting strict (byte :: text) escaped depth =
      nesting strict text laterEscaped laterDepth) :
    source.ScanEnds strict closer first at_ escaped depth scan := by
  refine ⟨Nat.le_of_succ_le later.le, later.bound, later.recovery,
    ?_, later.outOfWork, later.tooDeep, later.unterminated⟩
  intro closed
  obtain ⟨text, length, split, nested⟩ := later.closed closed
  refine ⟨byte :: text, ?_, ?_, (nests text).trans nested⟩
  · rw [List.length_cons]
    omega
  rw [drop_succ_of_drop dropped] at split
  rw [dropped, split, List.cons_append]

variable {bad : Stop → Prop}

theorem ScanEnds.step_meets {result : Checked TextScan} (later : result.Meets bad
      (source.ScanEnds strict closer first (at_ + 1) laterEscaped laterDepth))
    (dropped : source.input.drop at_ = byte :: rest)
    (nests : ∀ text, nesting strict (byte :: text) escaped depth =
      nesting strict text laterEscaped laterDepth) :
    result.Meets bad (source.ScanEnds strict closer first at_ escaped depth) :=
  later.imp fun _ ends => ends.step dropped nests

theorem isLineRecordBoundary_ok {offset : Nat}
    (boundary : isCharBoundary source.input offset = true) :
    ∃ answer, source.isLineRecordBoundary offset = .ok answer := by
  unfold isLineRecordBoundary
  rw [slice_ok (Nat.zero_le _) (isCharBoundary_zero _) boundary]
  dsimp only
  split
  · exact ⟨_, rfl⟩
  · exact ⟨_, rfl⟩

/-- Line starts are looked for at an `@` only, which is always a boundary. -/
theorem noteRecovery_ok (found : source.input[at_]? = some byte) (le : first ≤ at_)
    (recovers : source.RecoversIn first recovery) :
    ∃ noted, source.noteRecovery byte at_ recovery = .ok noted ∧ source.RecoversIn first noted := by
  unfold noteRecovery
  by_cases opens : byte = 0x40
  · have boundary := boundary_of_ascii found (by rw [opens]; decide)
    obtain ⟨answer, answered⟩ := isLineRecordBoundary_ok boundary
    rw [if_pos opens, answered]
    refine ⟨_, rfl, ?_⟩
    cases answer with
    | false => exact recovers
    | true => ?_
    intro offset member
    cases member
    exact ⟨le, Nat.le_of_lt (List.getElem?_eq_some_iff.mp found).1, boundary⟩
  rw [if_neg opens]
  exact ⟨recovery, rfl, recovers⟩

theorem bracedLoop_ends (separated : Separated source.input) (limit : Nat)
    (dropped : source.input.drop at_ = rest) (bound : at_ ≤ source.input.length) (le : first ≤ at_)
    (recovers : source.RecoversIn first recovery) :
    (source.bracedLoop limit rest at_ work (depth + 1) escaped recovery).Meets bad
      (source.ScanEnds true 0x7D first at_ escaped depth) := by
  induction rest generalizing at_ work depth escaped recovery with
  | nil =>
    exact ⟨Nat.le_refl _, bound, recovers, nofun, nofun, nofun,
      fun _ => at_end_of_drop dropped bound⟩
  | cons byte rest ih => ?_
  have found := found_of_drop dropped
  have inside := lt_of_drop dropped
  have later := drop_succ_of_drop dropped
  obtain ⟨noted, noting, notedRecovers⟩ := noteRecovery_ok found le recovers
  rw [bracedLoop, noting]
  dsimp only
  by_cases spent : source.limits.maxWork ≤ work + 1
  · rw [if_pos spent]
    exact ⟨Nat.le_refl _, bound, notedRecovers, nofun, fun _ => spent, nofun, nofun⟩
  rw [if_neg spent]
  by_cases isEscaped : escaped = true
  · rw [if_pos isEscaped]
    refine ScanEnds.step_meets (ih later inside (by omega) notedRecovers) dropped ?_
    simp [nesting, isEscaped]
  rw [if_neg isEscaped]
  by_cases backslash : byte = 0x5C
  · rw [if_pos backslash]
    refine ScanEnds.step_meets (ih later inside (by omega) notedRecovers) dropped ?_
    simp [nesting, isEscaped, backslash]
  rw [if_neg backslash]
  by_cases opens : byte = 0x7B
  · rw [if_pos opens]
    by_cases deep : source.limits.maxNesting < limit + (depth + 1 + 1)
    · rw [if_pos deep]
      refine ⟨Nat.le_succ _, inside, notedRecovers, nofun, nofun, fun _ => ?_, nofun⟩
      exact separated.after found (by rw [opens]; decide)
    rw [if_neg deep]
    refine ScanEnds.step_meets (ih later inside (by omega) notedRecovers) dropped ?_
    simp [nesting, isEscaped, opens]
  rw [if_neg opens]
  by_cases closes : byte = 0x7D
  · rw [if_pos closes]
    cases depth with
    | zero =>
      rw [if_pos (by rfl)]
      refine ⟨Nat.le_succ _, inside, notedRecovers, fun _ => ?_, nofun, nofun, nofun⟩
      exact ⟨[], rfl, by rw [dropped, closes, later]; rfl, rfl⟩
    | succ depth => ?_
    rw [if_neg (by omega)]
    refine ScanEnds.step_meets (ih later inside (by omega) notedRecovers) dropped ?_
    simp [nesting, isEscaped, closes]
  rw [if_neg closes]
  refine ScanEnds.step_meets (ih later inside (by omega) notedRecovers) dropped ?_
  simp [nesting, isEscaped, backslash, opens, closes]

theorem quotedLoop_ends (separated : Separated source.input) (limit : Nat)
    (dropped : source.input.drop at_ = rest) (bound : at_ ≤ source.input.length)
    (le : first ≤ at_) (recovers : source.RecoversIn first recovery) :
    (source.quotedLoop limit rest at_ work depth escaped recovery).Meets bad
      (source.ScanEnds false 0x22 first at_ escaped depth) := by
  induction rest generalizing at_ work depth escaped recovery with
  | nil =>
    exact ⟨Nat.le_refl _, bound, recovers, nofun, nofun, nofun,
      fun _ => at_end_of_drop dropped bound⟩
  | cons byte rest ih => ?_
  have found := found_of_drop dropped
  have inside := lt_of_drop dropped
  have later := drop_succ_of_drop dropped
  obtain ⟨noted, noting, notedRecovers⟩ := noteRecovery_ok found le recovers
  rw [quotedLoop, noting]
  dsimp only
  by_cases isEscaped : escaped = true
  · rw [if_pos isEscaped]
    refine ScanEnds.step_meets (ih later inside (by omega) notedRecovers) dropped ?_
    simp [nesting, isEscaped]
  rw [if_neg isEscaped]
  by_cases backslash : byte = 0x5C
  · rw [if_pos backslash]
    refine ScanEnds.step_meets (ih later inside (by omega) notedRecovers) dropped ?_
    simp [nesting, isEscaped, backslash]
  rw [if_neg backslash]
  by_cases opens : byte = 0x7B
  · rw [if_pos opens]
    by_cases deep : source.limits.maxNesting < limit + (depth + 1)
    · rw [if_pos deep]
      refine ⟨Nat.le_succ _, inside, notedRecovers, nofun, nofun, fun _ => ?_, nofun⟩
      exact separated.after found (by rw [opens]; decide)
    rw [if_neg deep]
    refine ScanEnds.step_meets (ih later inside (by omega) notedRecovers) dropped ?_
    simp [nesting, isEscaped, opens]
  rw [if_neg opens]
  by_cases closes : byte = 0x7D ∧ 0 < depth
  · rw [if_pos closes]
    refine ScanEnds.step_meets (ih later inside (by omega) notedRecovers) dropped ?_
    simp [nesting, isEscaped, closes.1, closes.2]
  rw [if_neg closes]
  by_cases quotes : byte = 0x22 ∧ depth = 0
  · rw [if_pos quotes]
    refine ⟨Nat.le_succ _, inside, notedRecovers, fun _ => ?_, nofun, nofun, nofun⟩
    exact ⟨[], rfl, by rw [dropped, quotes.1, later]; rfl, by simp [nesting, quotes.2]⟩
  rw [if_neg quotes]
  refine ScanEnds.step_meets (ih later inside (by omega) notedRecovers) dropped ?_
  intro text
  by_cases right : byte = 0x7D
  · -- A right brace at depth zero is plain text here.
    have atZero : ¬0 < depth := fun positive => closes ⟨right, positive⟩
    simp [nesting, isEscaped, right, atZero]
  · simp [nesting, isEscaped, backslash, opens, right]

/-! ## Control sequences -/

theorem controlEnd_lt (text : Text) (at_ : Nat) : at_ < controlEnd text at_ := by
  unfold controlEnd
  split
  · omega
  · split <;> omega

theorem controlEnd_le {text : Text} {at_ : Nat} (inside : at_ < text.length) :
    controlEnd text at_ ≤ text.length := by
  unfold controlEnd
  cases next : text[at_ + 1]? with
  | none => exact inside
  | some byte => ?_
  have nextInside := (List.getElem?_eq_some_iff.mp next).1
  have run := (List.takeWhile_sublist isAsciiAlphabetic (l := text.drop (at_ + 1))).length_le
  rw [List.length_drop] at run
  dsimp only
  split <;> omega

theorem isAsciiAlphabetic_ascii {byte : UInt8} (letter : isAsciiAlphabetic byte = true) :
    byte.toNat < 0x80 := by
  simp only [isAsciiAlphabetic, isAsciiUppercase, Bool.or_eq_true, Bool.and_eq_true,
    decide_eq_true_eq] at letter
  omega

/-- The places where the control sequences of a text are looked for. -/
inductive Scanned (text : Text) : Nat → Prop where
  | start : Scanned text 0
  | plain {at_ : Nat} (scanned : Scanned text at_) (other : text[at_]? ≠ some 0x5C) :
      Scanned text (at_ + 1)
  | control {at_ : Nat} (scanned : Scanned text at_) (found : text[at_]? = some 0x5C) :
      Scanned text (controlEnd text at_)

/-- A control sequence of a scalar that is not ASCII: it would be cut behind one byte of it. -/
structure WideControl (text : Text) (at_ : Nat) : Prop where
  scanned : Scanned text at_
  backslash : text[at_]? = some 0x5C
  wide : ∃ byte, text[at_ + 1]? = some byte ∧ 0x80 ≤ byte.toNat

def CutsWide (text : Text) (problem : Stop) : Prop :=
  ∃ at_, WideControl text at_ ∧ problem = .badSlice text at_ (at_ + 2)

theorem controlEnd_boundary {text : Text} (separated : Separated text) {at_ : Nat}
    (found : text[at_]? = some 0x5C) : isCharBoundary text (controlEnd text at_) = true ∨
      (∃ byte, text[at_ + 1]? = some byte ∧ 0x80 ≤ byte.toNat) ∧
        controlEnd text at_ = at_ + 2 := by
  have behind := separated.after found (by decide)
  unfold controlEnd
  cases next : text[at_ + 1]? with
  | none => exact .inl behind
  | some byte => ?_
  dsimp only
  by_cases letter : isAsciiAlphabetic byte = true
  · rw [if_pos letter]
    exact .inl (separated.run behind fun _ => isAsciiAlphabetic_ascii)
  rw [if_neg letter]
  rcases Nat.lt_or_ge byte.toNat 0x80 with ascii | wide
  · exact .inl (separated.after next ascii)
  · exact .inr ⟨⟨byte, rfl, wide⟩, rfl⟩

/-- Control sequences are cut badly only behind a backslash in front of a wide scalar. -/
theorem controlSequences_meets {text : Text} (separated : Separated text) (start : Nat)
    {fuel at_ : Nat} (scanned : Scanned text at_) (bound : at_ ≤ text.length)
    (enough : text.length < fuel + at_) :
    (source.controlSequences start text fuel at_).Meets (CutsWide text) fun _ => True := by
  induction fuel generalizing at_ with
  | zero => omega
  | succ fuel ih => ?_
  rw [controlSequences]
  cases found : text[at_]? with
  | none => trivial
  | some byte => ?_
  have inside := (List.getElem?_eq_some_iff.mp found).1
  dsimp only
  by_cases backslash : byte ≠ 0x5C
  · rw [if_pos backslash]
    exact ih (scanned.plain fun same => backslash (Option.some.inj (found.symm.trans same)))
      inside (by omega)
  rw [if_neg backslash]
  have isBackslash : byte = 0x5C := Classical.not_not.mp backslash
  rw [isBackslash] at found
  have later := controlEnd_lt text at_
  by_cases boundary : isCharBoundary text (controlEnd text at_) = true
  · rw [slice_ok (Nat.le_of_lt later)
      (isCharBoundary_of_get found (isContinuation_ascii (by decide))) boundary]
    rcases (ih (scanned.control found) (controlEnd_le inside) (by omega)).cases_ with
      ⟨_, stopped, cuts⟩ | ⟨controls, ran, -⟩
    · rw [stopped]
      exact cuts
    rw [ran]
    trivial
  obtain ⟨wide, two⟩ := (controlEnd_boundary separated found).resolve_left boundary
  rw [slice, if_neg (fun all => boundary all.2.2), two]
  exact ⟨at_, ⟨scanned, found, wide⟩, rfl⟩

def IsSlice (source : RawSource) (first last : Nat) (text : RawBibText) : Prop :=
  text.source = (source.input.drop first).take (last - first) ∧
    text.location = source.location first last

theorem rawText_meets (separated : Separated source.input) {first last : Nat}
    (ordered : first ≤ last) (firstBoundary : isCharBoundary source.input first = true)
    (lastBoundary : isCharBoundary source.input last = true) :
    (source.rawText first last).Meets
      (CutsWide ((source.input.drop first).take (last - first))) (source.IsSlice first last) := by
  unfold rawText
  rw [slice_ok ordered firstBoundary lastBoundary]
  dsimp only
  generalize cut : (source.input.drop first).take (last - first) = text
  have textSeparated : Separated text := cut ▸ separated.slice first last
  rcases (controlSequences_meets textSeparated first .start (Nat.zero_le _)
    (Nat.lt_succ_self _)).cases_ with ⟨_, stopped, cuts⟩ | ⟨controls, ran, -⟩
  · rw [stopped]
    exact cuts
  rw [ran]
  exact ⟨cut.symm, rfl⟩

/-! ## Delimited texts -/

def delimiters : List (UInt8 × UInt8) := [(0x7B, 0x7D), (0x22, 0x22), (0x28, 0x29)]

/-- There are a left and a right delimiter at two places. -/
def Delimited (source : RawSource) (first last : Nat) : Prop :=
  first < last ∧ ∃ ends ∈ delimiters,
    source.input[first]? = some ends.1 ∧ source.input[last]? = some ends.2

def inside (source : RawSource) (first last : Nat) : Text :=
  (source.input.drop (first + 1)).take (last - (first + 1))

/-- The reader has stopped inside a delimited text, at a control sequence of a wide scalar. -/
def Miscut (source : RawSource) (problem : Stop) : Prop :=
  ∃ first last, source.Delimited first last ∧ CutsWide (source.inside first last) problem

def ControlsNarrow (source : RawSource) : Prop :=
  ∀ first last at_, source.Delimited first last → ¬WideControl (source.inside first last) at_

/-! ## The text of a value -/

def Between (source : RawSource) (strict : Bool) (opener closer : UInt8) (text : RawBibText) :
    Prop :=
  ∃ first last, first + 1 ≤ last ∧ source.input[first]? = some opener ∧
    source.input[last]? = some closer ∧ source.IsSlice (first + 1) last text ∧
      nesting strict text.source false 0 = some 0

end RawSource

end Umber.Bib
