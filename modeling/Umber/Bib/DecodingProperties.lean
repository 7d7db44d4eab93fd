import Umber.Bib.SourceProperties

/-! Decoding keeps the bytes of a source apart: each byte is spelled by one scalar, and the
place of a scalar is the place of its byte. -/

set_option autoImplicit false

namespace Umber.Bib

/-- An encoding of single bytes: ASCII bytes spell themselves, every other byte spells one
scalar that is not ASCII, or nothing. -/
structure SingleByte (decodeByte : UInt8 → Option Text) : Prop where
  ascii : ∀ byte spelled, decodeByte byte = some spelled → byte.toNat < 0x80 →
    spelled = [byte]
  wide : ∀ byte spelled, decodeByte byte = some spelled → 0x80 ≤ byte.toNat →
    ∃ scalar, Utf8.decode spelled = some (scalar, spelled.length) ∧ 0x80 ≤ scalar

def spelling (codec : ByteCodec) (encoding : LegacyEncoding) (byte : UInt8) : Text :=
  if encoding = .utf8 then [byte] else (codec encoding byte).getD []

structure Spelled (source : RawSource) (bytes : List UInt8) (spell : UInt8 → Text) : Prop where
  input : source.input = bytes.flatMap spell
  monotone : ∀ first last, first ≤ last → source.rawOffset first ≤ source.rawOffset last
  bounded : ∀ offset, source.rawOffset offset ≤ bytes.length
  aligned : ∀ offset, isCharBoundary source.input offset = true →
    offset = ((bytes.take (source.rawOffset offset)).flatMap spell).length
  ascii : ∀ byte ∈ bytes, byte.toNat < 0x80 → spell byte = [byte]
  wide : ∀ byte ∈ bytes, 0x80 ≤ byte.toNat →
    ∃ first others, spell byte = first :: others ∧ 0x80 ≤ first.toNat

variable {first last : Nat}

theorem take_split {α : Type} (list : List α) (ordered : first ≤ last) :
    list.take last = list.take first ++ (list.take last).drop first := by
  have whole := List.take_append_drop first (list.take last)
  rw [List.take_take, Nat.min_eq_left ordered] at whole
  exact whole.symm

namespace Spelled

variable {source : RawSource} {bytes : List UInt8} {spell : UInt8 → Text} {offset : Nat}

theorem drop_input (spelled : Spelled source bytes spell)
    (boundary : isCharBoundary source.input offset = true) :
    source.input.drop offset = (bytes.drop (source.rawOffset offset)).flatMap spell := by
  have place := spelled.aligned offset boundary
  have split : source.input =
      (bytes.take (source.rawOffset offset)).flatMap spell ++
        (bytes.drop (source.rawOffset offset)).flatMap spell := by
    rw [← List.flatMap_append, List.take_append_drop, spelled.input]
  rw [split, List.drop_left' place.symm]

theorem take_input (spelled : Spelled source bytes spell)
    (boundary : isCharBoundary source.input offset = true) :
    source.input.take offset = (bytes.take (source.rawOffset offset)).flatMap spell := by
  have place := spelled.aligned offset boundary
  have split : source.input =
      (bytes.take (source.rawOffset offset)).flatMap spell ++
        (bytes.drop (source.rawOffset offset)).flatMap spell := by
    rw [← List.flatMap_append, List.take_append_drop, spelled.input]
  rw [split, List.take_left' place.symm]

variable {byte : UInt8}

section

variable (spelled : Spelled source bytes spell)
include spelled

/-- A byte at a boundary of the text starts the spelling of a byte of the source. -/
theorem byte_at (boundary : isCharBoundary source.input offset = true)
    (found : source.input[offset]? = some byte) :
    ∃ raw, bytes[source.rawOffset offset]? = some raw ∧
      (raw.toNat < 0x80 → raw = byte) ∧ (0x80 ≤ raw.toNat → 0x80 ≤ byte.toNat) := by
  rw [← Nat.add_zero offset, ← List.getElem?_drop, spelled.drop_input boundary] at found
  cases following : bytes.drop (source.rawOffset offset) with
  | nil => simp [following] at found
  | cons raw rest => ?_
  have rawAt : bytes[source.rawOffset offset]? = some raw := by
    rw [← Nat.add_zero (source.rawOffset offset), ← List.getElem?_drop, following]
    rfl
  rw [following, List.flatMap_cons] at found
  refine ⟨raw, rawAt, fun ascii => ?_, fun wide => ?_⟩
  · rw [spelled.ascii raw (List.mem_of_getElem? rawAt) ascii] at found
    simpa using found
  obtain ⟨first, others, shape, nonascii⟩ :=
    spelled.wide raw (List.mem_of_getElem? rawAt) wide
  rw [shape] at found
  simp only [List.cons_append, List.getElem?_cons_zero, Option.some.injEq] at found
  exact found ▸ nonascii

theorem ascii_at (found : source.input[offset]? = some byte)
    (ascii : byte.toNat < 0x80) : bytes[source.rawOffset offset]? = some byte := by
  obtain ⟨raw, rawAt, narrow, wide⟩ :=
    spelled.byte_at (isCharBoundary_of_get found (isContinuation_ascii ascii)) found
  by_cases rawAscii : raw.toNat < 0x80
  · exact narrow rawAscii ▸ rawAt
  have := wide (by omega)
  omega

theorem spell_pos (member : byte ∈ bytes) : 0 < (spell byte).length := by
  by_cases ascii : byte.toNat < 0x80
  · simp [spelled.ascii byte member ascii]
  obtain ⟨first, others, shape, -⟩ := spelled.wide byte member (by omega)
  simp [shape]

end

variable {first last : Nat} (spelled : Spelled source bytes spell)
include spelled

/-- Two places in the bytes with spellings of one length in front of them are one place. -/
theorem place_unique (bound : last ≤ bytes.length)
    (lengths : ((bytes.take last).flatMap spell).length ≤
      ((bytes.take first).flatMap spell).length) : last ≤ first := by
  by_cases later : first < last
  · have split := take_split bytes (Nat.le_of_lt later)
    cases between : (bytes.take last).drop first with
    | nil =>
      have empty := congrArg List.length between
      simp only [List.length_drop, List.length_take, List.length_nil] at empty
      omega
    | cons byte rest => ?_
    have member : byte ∈ bytes := by
      have inside : byte ∈ (bytes.take last).drop first := by simp [between]
      exact List.mem_of_mem_take (List.mem_of_mem_drop inside)
    have positive := spelled.spell_pos member
    rw [split, between, List.flatMap_append, List.flatMap_cons, List.length_append,
      List.length_append] at lengths
    omega
  · omega

/-- The place behind an ASCII byte of the text is the place behind it in the bytes. -/
theorem rawOffset_succ (separated : Separated source.input)
    (found : source.input[offset]? = some byte) (ascii : byte.toNat < 0x80) :
    source.rawOffset (offset + 1) = source.rawOffset offset + 1 := by
  have rawAt := spelled.ascii_at found ascii
  have inside := (List.getElem?_eq_some_iff.mp rawAt).1
  have here := spelled.aligned offset (isCharBoundary_of_get found (isContinuation_ascii ascii))
  have behind := spelled.aligned (offset + 1) (separated.after found ascii)
  have grown : ((bytes.take (source.rawOffset offset + 1)).flatMap spell).length =
      offset + 1 := by
    rw [List.take_add_one, rawAt, List.flatMap_append, List.length_append, ← here]
    simp [spelled.ascii byte (List.mem_of_getElem? rawAt) ascii]
  have atMost := spelled.place_unique (spelled.bounded (offset + 1))
    (Nat.le_of_eq (behind.symm.trans grown.symm))
  have atLeast := spelled.place_unique (Nat.succ_le_of_lt inside)
    (Nat.le_of_eq (grown.trans behind))
  omega

/-- A slice of the text is the spelling of the bytes between its places. -/
theorem slice_eq (ordered : first ≤ last) (firstBoundary : isCharBoundary source.input first = true)
    (lastBoundary : isCharBoundary source.input last = true) :
    (source.input.drop first).take (last - first) = ((bytes.drop (source.rawOffset first)).take
        (source.rawOffset last - source.rawOffset first)).flatMap spell := by
  have offsets := spelled.monotone first last ordered
  have place := spelled.aligned first firstBoundary
  rw [← List.drop_take, spelled.take_input lastBoundary, take_split bytes offsets,
    List.flatMap_append, List.drop_left' place.symm, List.drop_take]

end Spelled

/-! ## Decoding -/

theorem decode_whole {spelled : Text} {scalar : Nat}
    (decoded : Utf8.decode spelled = some (scalar, spelled.length)) (following : Text) :
    Utf8.decode (spelled ++ following) = some (scalar, spelled.length) := by
  obtain ⟨encoded, rest, split, length, -, stable, -⟩ := Utf8.decode_eq_some decoded
  have empty : rest = [] := by
    have lengths := congrArg List.length split
    rw [List.length_append, length] at lengths
    exact List.eq_nil_of_length_eq_zero (by omega)
  rw [empty, List.append_nil] at split
  exact split ▸ stable following

section Legacy

variable {codec : ByteCodec} {encoding : LegacyEncoding}

/-- What a byte spells in an encoding of single bytes. -/
theorem SingleByte.shape (single : SingleByte (codec encoding)) {byte : UInt8} {spelled : Text}
    (spells : codec encoding byte = some spelled) : ∃ first others, spelled = first :: others ∧
      (∀ other ∈ others, Utf8.isContinuation other = true) ∧
      (0x80 ≤ byte.toNat → 0x80 ≤ first.toNat) ∧
      ∃ scalar, Utf8.decode spelled = some (scalar, spelled.length) := by
  by_cases ascii : byte.toNat < 0x80
  · have shape := single.ascii byte spelled spells ascii
    subst shape
    refine ⟨byte, [], rfl, by simp, fun wide => wide, byte.toNat, ?_⟩
    simp [Utf8.decode, ascii]
  obtain ⟨scalar, decoded, nonascii⟩ := single.wide byte spelled spells (by omega)
  obtain ⟨first, others, taken, -, continuations, wide⟩ := Utf8.decode_shape decoded
  rw [List.take_length] at taken
  exact ⟨first, others, taken, continuations, fun _ => wide nonascii, scalar, decoded⟩

structure DecodedFrom (codec : ByteCodec) (encoding : LegacyEncoding) (place : Nat)
    (bytes : List UInt8) (text : Text) (offsets : List Nat) : Prop where
  text_eq : text = bytes.flatMap (spelling codec encoding)
  length : offsets.length = text.length
  range : ∀ raw ∈ offsets, place ≤ raw ∧ raw < place + bytes.length
  sorted : offsets.Pairwise (· ≤ ·)
  aligned : ∀ index raw, offsets[index]? = some raw → isCharBoundary text index = true →
    index = ((bytes.take (raw - place)).flatMap (spelling codec encoding)).length
  valid : Utf8.Valid text
  spells : ∀ byte ∈ bytes, ∃ spelled, codec encoding byte = some spelled

theorem isCharBoundary_append_right {front back : Text} {index : Nat}
    (boundary : isCharBoundary (front ++ back) (front.length + index) = true) :
    isCharBoundary back index = true := by
  simp only [isCharBoundary, List.length_append,
    List.getElem?_append_right (Nat.le_add_right _ _), Nat.add_sub_cancel_left] at boundary ⊢
  cases index with
  | zero => simp
  | succ index => ?_
  cases found : back[index + 1]? with
  | none =>
    simp only [found, Bool.or_eq_true, beq_iff_eq] at boundary ⊢
    omega
  | some byte =>
    simp only [found, Bool.or_eq_true, beq_iff_eq] at boundary ⊢
    exact boundary.imp_left (by omega)

theorem decodeBytes_decodedFrom (legacy : encoding ≠ .utf8)
    (single : SingleByte (codec encoding)) {bytes : List UInt8} {place : Nat} {text : Text}
    {offsets : List Nat} (decoded : decodeBytes codec encoding place bytes = some (text, offsets)) :
    DecodedFrom codec encoding place bytes text offsets := by
  induction bytes generalizing place text offsets with
  | nil =>
    cases decoded
    exact ⟨rfl, rfl, by simp, .nil, by simp, .nil, by simp⟩
  | cons byte rest ih => ?_
  rw [decodeBytes] at decoded
  cases spells : codec encoding byte with
  | none => simp [spells] at decoded
  | some spelled => ?_
  simp only [spells] at decoded
  cases later : decodeBytes codec encoding (place + 1) rest with
  | none => simp [later] at decoded
  | some decodedRest => ?_
  obtain ⟨laterText, laterOffsets⟩ := decodedRest
  simp only [later, Option.some.injEq, Prod.mk.injEq] at decoded
  obtain ⟨rfl, rfl⟩ := decoded
  have tail := ih later
  obtain ⟨first, others, shape, continuations, -, scalar, whole⟩ :=
    single.shape spells
  have spelledAs : spelling codec encoding byte = spelled := by simp [spelling, legacy, spells]
  refine ⟨?_, ?_, ?_, ?_, ?_, ?_, ?_⟩
  · rw [List.flatMap_cons, spelledAs, tail.text_eq]
  · simp [tail.length]
  · intro raw member
    rcases List.mem_append.mp member with here | behind
    · rw [List.mem_replicate] at here
      simp [here.2]
    have := tail.range raw behind
    rw [List.length_cons]
    omega
  · refine List.pairwise_append.mpr ⟨?_, tail.sorted, ?_⟩
    · exact List.pairwise_replicate.mpr (.inr (Nat.le_refl _))
    intro left here right behind
    have := tail.range right behind
    rw [List.mem_replicate] at here
    omega
  · intro index raw found boundary
    by_cases inside : index < spelled.length
    · have rawIs : raw = place := by
        rw [List.getElem?_append_left (by simpa using inside),
          List.getElem?_replicate, if_pos inside] at found
        exact (Option.some.inj found).symm
      -- Inside the spelling only its first byte is a boundary.
      have atFirst : index = 0 := by
        cases index with
        | zero => rfl
        | succ index => ?_
        have continuation : ∃ other ∈ others,
            (spelled ++ laterText)[index + 1]? = some other := by
          subst shape
          rw [List.length_cons] at inside
          refine ⟨others[index], List.getElem_mem (by omega), ?_⟩
          rw [List.getElem?_append_left (by simpa using inside)]
          simp
        obtain ⟨other, member, otherAt⟩ := continuation
        simp [isCharBoundary, otherAt, continuations other member] at boundary
      rw [rawIs, atFirst]
      simp
    have index_eq : index = spelled.length + (index - spelled.length) := by omega
    rw [List.getElem?_append_right (by simpa using Nat.le_of_not_lt inside),
      List.length_replicate] at found
    rw [index_eq] at boundary
    have place_eq := tail.aligned _ raw found (isCharBoundary_append_right boundary)
    have range := tail.range raw (List.mem_of_getElem? found)
    have step : raw - place = (raw - (place + 1)) + 1 := by omega
    rw [step, List.take_succ_cons, List.flatMap_cons, List.length_append, spelledAs, ← place_eq]
    exact index_eq
  · refine .step (decode_whole whole laterText) ?_
    rw [List.drop_left]
    exact tail.valid
  intro other member
  rcases List.mem_cons.mp member with rfl | behind
  · exact ⟨spelled, spells⟩
  · exact tail.spells other behind

end Legacy

theorem getElem?_le_of_sorted {offsets : List Nat} (sorted : offsets.Pairwise (· ≤ ·))
    {left right : Nat} (ordered : first ≤ last) (leftAt : offsets[first]? = some left)
    (rightAt : offsets[last]? = some right) : left ≤ right := by
  obtain ⟨leftInside, rfl⟩ := List.getElem?_eq_some_iff.mp leftAt
  obtain ⟨rightInside, rfl⟩ := List.getElem?_eq_some_iff.mp rightAt
  rcases Nat.lt_or_eq_of_le ordered with before | rfl
  · exact List.pairwise_iff_getElem.mp sorted first last leftInside rightInside before
  · exact Nat.le_refl _

section Sources

variable {options : BibTexOptions} {bytes : List UInt8} {source : RawSource}

theorem rawOffset_range (offsetsAre : source.offsets = List.range (bytes.length + 1))
    (offset : Nat) : source.rawOffset offset = min offset bytes.length := by
  simp only [RawSource.rawOffset, offsetsAre, List.getLast_range]
  by_cases inside : offset < bytes.length + 1
  · rw [List.getElem?_range inside]
    exact (Nat.min_eq_left (Nat.le_of_lt_succ inside)).symm
  rw [List.getElem?_eq_none (by simpa using inside)]
  exact (Nat.min_eq_right (by simpa using Nat.le_of_lt (Nat.not_lt.mp inside))).symm

theorem Spelled.of_utf8 {spell : UInt8 → Text} (inputIs : source.input = bytes)
    (offsetsAre : source.offsets = List.range (bytes.length + 1))
    (spells : ∀ byte, spell byte = [byte]) : Spelled source bytes spell := by
  have whole : ∀ list : List UInt8, list.flatMap spell = list := by
    intro list
    induction list with
    | nil => rfl
    | cons byte rest ih => rw [List.flatMap_cons, spells, ih]; rfl
  refine ⟨inputIs.trans (whole bytes).symm, ?_, ?_, ?_, fun byte _ _ => spells byte, ?_⟩
  · intro first last ordered
    rw [rawOffset_range offsetsAre, rawOffset_range offsetsAre]
    omega
  · intro offset
    rw [rawOffset_range offsetsAre]
    omega
  · intro offset boundary
    have bound := isCharBoundary_le boundary
    rw [inputIs] at bound
    rw [rawOffset_range offsetsAre, whole, List.length_take]
    omega
  intro byte _ wide
  exact ⟨byte, [], spells byte, wide⟩

variable {offsets : List Nat} {offset : Nat}

theorem rawOffset_inside (offsetsAre : source.offsets = offsets ++ [bytes.length]) {raw : Nat}
    (found : offsets[offset]? = some raw) : source.rawOffset offset = raw := by
  have inside := (List.getElem?_eq_some_iff.mp found).1
  simp only [RawSource.rawOffset, offsetsAre, List.getElem?_append_left inside, found]

theorem rawOffset_behind (offsetsAre : source.offsets = offsets ++ [bytes.length])
    (missing : offsets[offset]? = none) : source.rawOffset offset = bytes.length := by
  have behind := List.getElem?_eq_none_iff.mp missing
  simp only [RawSource.rawOffset, offsetsAre, List.getElem?_append_right behind]
  cases offset - offsets.length with
  | zero => simp
  | succ later => simp

theorem Spelled.of_decodedFrom {codec : ByteCodec} {encoding : LegacyEncoding}
    (legacy : encoding ≠ .utf8) (single : SingleByte (codec encoding))
    (from_ : DecodedFrom codec encoding 0 bytes source.input offsets)
    (offsetsAre : source.offsets = offsets ++ [bytes.length]) :
    Spelled source bytes (spelling codec encoding) := by
  have rawBound : ∀ offset raw : Nat, offsets[offset]? = some raw → raw ≤ bytes.length := by
    intro offset raw found
    have := from_.range raw (List.mem_of_getElem? found)
    omega
  refine ⟨from_.text_eq, ?_, ?_, ?_, ?_, ?_⟩
  · intro first last ordered
    cases lastAt : offsets[last]? with
    | none =>
      rw [rawOffset_behind offsetsAre lastAt]
      cases firstAt : offsets[first]? with
      | none => exact Nat.le_of_eq (rawOffset_behind offsetsAre firstAt)
      | some raw => exact rawOffset_inside offsetsAre firstAt ▸ rawBound first raw firstAt
    | some right => ?_
    have inside := (List.getElem?_eq_some_iff.mp lastAt).1
    have firstAt := List.getElem?_eq_getElem (l := offsets) (i := first) (by omega)
    rw [rawOffset_inside offsetsAre lastAt, rawOffset_inside offsetsAre firstAt]
    exact getElem?_le_of_sorted from_.sorted ordered firstAt lastAt
  · intro offset
    cases found : offsets[offset]? with
    | none => exact Nat.le_of_eq (rawOffset_behind offsetsAre found)
    | some raw => exact rawOffset_inside offsetsAre found ▸ rawBound offset raw found
  · intro offset boundary
    cases found : offsets[offset]? with
    | none =>
      have bound := isCharBoundary_le boundary
      have behind := List.getElem?_eq_none_iff.mp found
      have lengths := from_.length
      rw [rawOffset_behind offsetsAre found, List.take_length, ← from_.text_eq]
      omega
    | some raw =>
      rw [rawOffset_inside offsetsAre found]
      exact from_.aligned offset raw found boundary
  · intro byte member ascii
    obtain ⟨spelled, spells⟩ := from_.spells byte member
    have := single.ascii byte spelled spells ascii
    simp [spelling, legacy, spells, this]
  intro byte member wide
  obtain ⟨spelled, spells⟩ := from_.spells byte member
  obtain ⟨first, others, shape, -, nonascii, -⟩ := single.shape spells
  exact ⟨first, others, by simp [spelling, legacy, spells, shape], nonascii wide⟩

/-- Decoding spells the bytes and yields a text of whole scalars. -/
theorem decodedSource_spelled {codec : ByteCodec}
    (single : options.encoding ≠ .utf8 → SingleByte (codec options.encoding))
    (decoded : decodedSource codec bytes options = some source) :
    Spelled source bytes (spelling codec options.encoding) ∧ Separated source.input := by
  unfold decodedSource at decoded
  by_cases utf8 : options.encoding = .utf8
  · rw [if_pos utf8] at decoded
    by_cases valid : Utf8.isValid bytes = true
    · rw [if_pos valid] at decoded
      cases decoded
      exact ⟨.of_utf8 rfl rfl (by simp [spelling, utf8]), .of_valid (Utf8.isValid_iff.mp valid)⟩
    rw [if_neg valid] at decoded
    cases decoded
  rw [if_neg utf8] at decoded
  cases run : decodeBytes codec options.encoding 0 bytes with
  | none => simp [run] at decoded
  | some pair => ?_
  obtain ⟨text, offsets⟩ := pair
  simp only [run, Option.some.injEq] at decoded
  subst decoded
  have from_ := decodeBytes_decodedFrom utf8 (single utf8) run
  exact ⟨.of_decodedFrom utf8 (single utf8) from_ rfl, .of_valid from_.valid⟩

end Sources

end Umber.Bib
