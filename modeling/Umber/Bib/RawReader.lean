import Umber.Lib.Except
import Umber.Bib.DecodingProperties
import Umber.Bib.RecordProperties

/-! The reader of raw databases is total: it stops on every byte string, and what it returns
covers the bytes in order, each value being the text between its delimiters. -/

set_option autoImplicit false

namespace Umber.Bib

structure StandsBetween (spell : UInt8 → Text) (bytes : List UInt8) (opener closer : UInt8)
    (text : RawBibText) : Prop where
  positive : 0 < text.location.byteStart
  ordered : text.location.byteStart ≤ text.location.byteEnd
  opens : bytes[text.location.byteStart - 1]? = some opener
  closes : bytes[text.location.byteEnd]? = some closer
  source : text.source = ((bytes.drop text.location.byteStart).take
    (text.location.byteEnd - text.location.byteStart)).flatMap spell

def RawBibValuePart.StandsIn (spell : UInt8 → Text) (bytes : List UInt8) :
    RawBibValuePart → Prop
  | .braced text => StandsBetween spell bytes 0x7B 0x7D text ∧ Balanced text.source
  | .quoted text => StandsBetween spell bytes 0x22 0x22 text ∧ Closed text.source
  | .number _ | .macro_ _ => True

structure RawBibDatabase.Covers (spell : UInt8 → Text) (bytes : List UInt8)
    (database : RawBibDatabase) : Prop where
  within : ∀ record ∈ database.records, record.location.byteStart < record.location.byteEnd ∧
    record.location.byteEnd ≤ bytes.length
  ordered : database.records.Pairwise fun earlier later =>
    earlier.location.byteEnd ≤ later.location.byteStart
  parts : ∀ record ∈ database.records, ∀ part ∈ record.parts, part.StandsIn spell bytes

section

variable {source : RawSource} {bytes : List UInt8} {spell : UInt8 → Text}

theorem RawSource.Between.stands (spelled : Spelled source bytes spell)
    (separated : Separated source.input) {strict : Bool} {opener closer : UInt8}
    (openerAscii : opener.toNat < 0x80) (closerAscii : closer.toNat < 0x80) {text : RawBibText}
    (between : source.Between strict opener closer text) :
    StandsBetween spell bytes opener closer text ∧ nesting strict text.source false 0 = some 0 := by
  obtain ⟨first, last, ordered, opens, closes, ⟨cut, placed⟩, nested⟩ := between
  have behind := spelled.rawOffset_succ separated opens openerAscii
  have starts : text.location.byteStart = source.rawOffset (first + 1) := by
    rw [placed]
    rfl
  have ends : text.location.byteEnd = source.rawOffset last := by
    rw [placed]
    rfl
  refine ⟨⟨?_, ?_, ?_, ?_, ?_⟩, nested⟩
  · omega
  · rw [starts, ends]
    exact spelled.monotone _ _ ordered
  · rw [starts, behind]
    exact spelled.ascii_at opens openerAscii
  · rw [ends]
    exact spelled.ascii_at closes closerAscii
  rw [cut, starts, ends]
  exact spelled.slice_eq ordered (separated.after opens openerAscii)
    (RawSource.boundary_of_ascii closes closerAscii)

theorem Parser.PartSound.stands (spelled : Spelled source bytes spell)
    (separated : Separated source.input) {part : RawBibValuePart}
    (sound : PartSound source part) : part.StandsIn spell bytes := by
  cases part with
  | braced text => exact RawSource.Between.stands spelled separated (by decide) (by decide) sound
  | quoted text => exact RawSource.Between.stands spelled separated (by decide) (by decide) sound
  | number text => trivial
  | macro_ name => trivial

theorem Parser.RecordsSound.start : Parser.start.RecordsSound source :=
  ⟨nofun, .nil, nofun⟩

theorem Parser.database_records (parser : Parser) :
    (parser.database source).records = parser.records := by
  unfold Parser.database
  dsimp only
  split
  · exact Parser.error_records _ _ _ _
  · rfl

/-- The records of a run over a decoded source cover its bytes. -/
theorem parseLoop_covers (spelled : Spelled source bytes spell)
    (separated : Separated source.input) :
    (Parser.parseLoop source (source.input.length + 1) .start).Meets source.Miscut
      fun parser => (parser.database source).Covers spell bytes := by
  have occupied : ∀ place, source.input[place]? = some 0x40 →
      source.rawOffset place < source.rawOffset (place + 1) := by
    intro place found
    rw [spelled.rawOffset_succ separated found (by decide)]
    exact Nat.lt_succ_self _
  refine (Parser.parseLoop_meets separated spelled.monotone occupied .start
    (Nat.lt_succ_self _) (Nat.zero_le _)).imp ?_
  rintro parser ⟨reached, records, sound⟩
  refine ⟨?_, ?_, ?_⟩
  · rw [Parser.database_records, records]
    intro record member
    have within := sound.within record member
    exact ⟨within.1, Nat.le_trans within.2 (spelled.bounded _)⟩
  · rw [Parser.database_records, records]
    exact sound.ordered
  rw [Parser.database_records, records]
  exact fun record member part partMember =>
    (sound.parts record member part partMember).stands spelled separated

end

theorem covers_nothing (spell : UInt8 → Text) (bytes : List UInt8)
    (diagnostics : List BibTexDiagnostic) (options : BibTexOptions) :
    RawBibDatabase.Covers spell bytes
      { records := [], diagnostics := diagnostics, options := options } :=
  ⟨nofun, .nil, nofun⟩

theorem parseRawBibtexBytes_meets (codec : ByteCodec) (bytes : List UInt8) (options : BibTexOptions)
    (single : options.encoding ≠ .utf8 → SingleByte (codec options.encoding)) :
    (parseRawBibtexBytes codec bytes options).Meets
      (fun problem => ∃ source, decodedSource codec bytes options = some source ∧
        source.Miscut problem)
      (RawBibDatabase.Covers (spelling codec options.encoding) bytes) := by
  unfold parseRawBibtexBytes
  by_cases large : options.limits.maxBytes < bytes.length
  · rw [if_pos large]
    exact covers_nothing _ _ _ _
  rw [if_neg large]
  cases decoded : decodedSource codec bytes options with
  | none => exact covers_nothing _ _ _ _
  | some source => ?_
  obtain ⟨spelled, separated⟩ := decodedSource_spelled single decoded
  dsimp only
  rcases (parseLoop_covers spelled separated).cases_ with
    ⟨_, stopped, miscut⟩ | ⟨parser, ran, covers⟩
  · rw [stopped]
    exact ⟨source, rfl, miscut⟩
  rw [ran]
  exact covers

def latin1Spelling (byte : UInt8) : Option Text :=
  if byte.toNat < 0x80 then some [byte]
  else if byte.toNat < 0xA0 then none
  else if byte.toNat < 0xC0 then some [0xC2, byte]
  else some [0xC3, byte - 0x40]

def latin1Codec : ByteCodec
  | .latin1, byte => latin1Spelling byte
  | .utf8, _ | .latin2, _ | .latin3, _ | .macRoman, _ => none

theorem latin1Spelling_single : SingleByte latin1Spelling := by
  constructor
  · intro byte spelled spells ascii
    simp only [latin1Spelling, if_pos ascii, Option.some.injEq] at spells
    exact spells.symm
  intro byte spelled spells wide
  rw [latin1Spelling, if_neg (Nat.not_lt.mpr wide)] at spells
  by_cases control : byte.toNat < 0xA0
  · simp [control] at spells
  rw [if_neg control] at spells
  by_cases low : byte.toNat < 0xC0
  · rw [if_pos low] at spells
    cases spells
    have continuation : Utf8.isContinuation byte = true := by
      simp [Utf8.isContinuation]
      omega
    refine ⟨(0xC2 - 0xC0) * 64 + (byte.toNat - 0x80), ?_, by omega⟩
    simp [Utf8.decode, continuation]
  rw [if_neg low] at spells
  cases spells
  have shifted : (byte - 0x40).toNat = byte.toNat - 0x40 := by
    refine UInt8.toNat_sub_of_le byte 0x40 ?_
    rw [UInt8.le_iff_toNat_le]
    exact Nat.le_trans (by decide) (Nat.not_lt.mp control)
  have bound := byte.toNat_lt
  have continuation : Utf8.isContinuation (byte - 0x40) = true := by
    simp only [Utf8.isContinuation, shifted, Bool.and_eq_true, decide_eq_true_eq]
    omega
  refine ⟨(0xC3 - 0xC0) * 64 + ((byte - 0x40).toNat - 0x80), ?_, by omega⟩
  simp [Utf8.decode, continuation]

def RawBibValuePart.BalancedSource : RawBibValuePart → Prop
  | .braced text | .quoted text => Balanced text.source
  | .number _ | .macro_ _ => True

instance : (part : RawBibValuePart) → Decidable part.BalancedSource
  | .braced text => inferInstanceAs (Decidable (Balanced text.source))
  | .quoted text => inferInstanceAs (Decidable (Balanced text.source))
  | .number _ => inferInstanceAs (Decidable True)
  | .macro_ _ => inferInstanceAs (Decidable True)

end Umber.Bib
