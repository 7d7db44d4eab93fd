import Umber.Classic.Names
import Umber.Classic.TextProperties

/-! Formatting a name copies a format outside of its groups, as far as it is ASCII. -/

set_option autoImplicit false

namespace Umber.Classic

/-- A format as characters to copy, and groups with what stands behind them. -/
inductive FormatPiece where
  | copy (character : Char)
  | group (pattern following : List Char)
  deriving DecidableEq

def formatPieces : Nat → List Char → List FormatPiece
  | _, [] => []
  | skipped + 1, _ :: rest => formatPieces skipped rest
  | 0, character :: rest =>
    if character ≠ '{' then .copy character :: formatPieces 0 rest
    else
      match matchingCloseBrace (character :: rest) with
      | none => .copy '{' :: formatPieces 0 rest
      | some close =>
        .group (rest.take (close - 1)) (rest.drop close) :: formatPieces close rest

/-- What a piece should give: characters outside of groups are copied. -/
def FormatPiece.text (parts : BibName) : FormatPiece → List Char
  | .copy character => [character]
  | .group pattern following => formatGroup parts pattern following

def FormatPiece.copied (parts : BibName) : FormatPiece → List Char
  | .copy character => bytesAsChars character
  | .group pattern following => formatGroup parts pattern following

def FormatMeets (name format : List Char) : Prop :=
  formatBibName name format = (formatPieces 0 format).flatMap (FormatPiece.text (.parse name))

theorem formatFrom_eq_pieces (parts : BibName) (skipped : Nat) (format : List Char) :
    formatFrom parts skipped format = (formatPieces skipped format).flatMap (FormatPiece.copied parts) := by
  induction format generalizing skipped with
  | nil => cases skipped <;> rfl
  | cons character rest smaller => ?_
  cases skipped with
  | succ skipped => exact smaller skipped
  | zero => ?_
  rw [formatFrom, formatPieces]
  by_cases brace : character ≠ '{'
  · rw [if_pos brace, if_pos brace, smaller 0, List.flatMap_cons]
    rfl
  rw [if_neg brace, if_neg brace]
  cases matchingCloseBrace (character :: rest) with
  | none =>
    dsimp only
    rw [smaller 0, List.flatMap_cons]
    rfl
  | some close => ?_
  dsimp only
  rw [smaller close, List.flatMap_cons]
  rfl

theorem bytesAsChars_length (character : Char) :
    (bytesAsChars character).length = character.utf8Size := by
  rw [bytesAsChars, List.length_map, String.length_utf8EncodeChar]

/-- The bytes of a character are the character exactly in ASCII. -/
theorem bytesAsChars_eq_iff (character : Char) :
    bytesAsChars character = [character] ↔ character.toNat < 128 := by
  constructor
  · intro same
    have size := bytesAsChars_length character
    rw [same] at size
    exact Nat.lt_succ_of_le (Char.utf8Size_eq_one_iff.mp size.symm)
  intro ascii
  have size : character.utf8Size = 1 :=
    Char.utf8Size_eq_one_iff.mpr (Nat.le_of_lt_succ ascii)
  have byte : character.val.toUInt8.toNat = character.toNat := by
    rw [UInt32.toNat_toUInt8]
    exact Nat.mod_eq_of_lt (Nat.lt_trans ascii (by decide))
  rw [bytesAsChars, String.utf8EncodeChar_eq_singleton size, List.map_singleton, byte,
    Char.ofNat_toNat]

/-- Where each element gives at least as much by one function as by another, both give the same
for a list exactly when they do for each element. -/
theorem flatMap_eq_flatMap_iff {Piece Part : Type} {more less : Piece → List Part}
    (longer : ∀ piece, (less piece).length ≤ (more piece).length) (pieces : List Piece) :
    pieces.flatMap more = pieces.flatMap less ↔ ∀ piece ∈ pieces, more piece = less piece := by
  have total : ∀ pieces : List Piece,
      (pieces.flatMap less).length ≤ (pieces.flatMap more).length := by
    intro pieces
    induction pieces with
    | nil => exact Nat.le_refl _
    | cons piece pieces smaller =>
      rw [List.flatMap_cons, List.flatMap_cons, List.length_append, List.length_append]
      exact Nat.add_le_add (longer piece) smaller
  induction pieces with
  | nil => exact iff_of_true rfl fun piece member => absurd member List.not_mem_nil
  | cons piece pieces smaller => ?_
  rw [List.flatMap_cons, List.flatMap_cons, List.forall_mem_cons]
  refine Iff.trans ⟨fun same => ?_, ?_⟩ (and_congr_right fun _ => smaller)
  · have lengths := congrArg List.length same
    rw [List.length_append, List.length_append] at lengths
    have here := longer piece
    have rest := total pieces
    exact List.append_inj same (by omega)
  rintro ⟨here, rest⟩
  rw [here, rest]

theorem formatMeets_iff (name format : List Char) : FormatMeets name format ↔
      ∀ character, .copy character ∈ formatPieces 0 format → character.toNat < 128 := by
  have longer : ∀ piece, (FormatPiece.text (.parse name) piece).length ≤
      (FormatPiece.copied (.parse name) piece).length := by
    intro piece
    cases piece with
    | copy character =>
      rw [FormatPiece.copied, bytesAsChars_length]
      exact Char.utf8Size_pos character
    | group pattern following => exact Nat.le_refl _
  rw [FormatMeets, formatBibName, formatFrom_eq_pieces, flatMap_eq_flatMap_iff longer]
  constructor
  · intro same character member
    exact (bytesAsChars_eq_iff character).mp (same _ member)
  intro ascii piece member
  cases piece with
  | copy character => exact (bytesAsChars_eq_iff character).mpr (ascii character member)
  | group pattern following => rfl

/-- What is said of the text functions holds exactly when the text has no control sequence at the
front of a group in an ordinary group, and the format is ASCII outside of its groups. -/
theorem textFunctions_meet_iff {value : List Char} (fits : value.length < 9223372036854775808)
    (count start width : Int64) (name format : List Char) :
    (classicTextUnits value = topUnits value ∧ PrefixMeets value count ∧
        SliceMeets value start width ∧ FormatMeets name format) ↔
      controlsOnTop (.plain 0) value = true ∧
        ∀ character, .copy character ∈ formatPieces 0 format → character.toNat < 128 := by
  have units : classicTextUnits value = topUnits value ↔
      controlsOnTop (.plain 0) value = true := textUnits_eq_top_iff (.plain 0) 0 value
  rw [units, formatMeets_iff]
  constructor
  · rintro ⟨top, _, _, ascii⟩
    exact ⟨top, ascii⟩
  rintro ⟨top, ascii⟩
  exact ⟨top, classicTextPrefix_meets value count, classicSubstring_meets fits start width, ascii⟩

theorem textFunctions_meet_iff_accent :
    let value := "\x7b\\'e\x7dt\x7be\x7d".toList
    classicTextUnits value = topUnits value ∧ PrefixMeets value 2 ∧ SliceMeets value (-2) 3 ∧
      FormatMeets "Jane Doe".toList "\x7bf\x7d. \x7bll\x7d".toList := by
  have ascii : ∀ character,
      .copy character ∈ formatPieces 0 "\x7bf\x7d. \x7bll\x7d".toList →
        character.toNat < 128 := by
    intro character member
    have pieces : formatPieces 0 "\x7bf\x7d. \x7bll\x7d".toList =
        [.group ['f'] ". \x7bll\x7d".toList, .copy '.', .copy ' ', .group "ll".toList []] := by
      decide
    rw [pieces] at member
    simp at member
    rcases member with rfl | rfl <;> decide
  exact (textFunctions_meet_iff (by decide) 2 (-2) 3 "Jane Doe".toList _).mpr ⟨by decide, ascii⟩

/-- A control sequence two groups deep is one unit, and a dash of a format is spelled by its
bytes. -/
theorem inner_control_one_unit : classicTextUnits "\x7ba\x7b\\b\x7d\x7d".toList ≠
        topUnits "\x7ba\x7b\\b\x7d\x7d".toList ∧
      ¬FormatMeets "Jane Doe".toList "\x7bf\x7d–\x7bll\x7d".toList := by
  constructor
  · decide +kernel
  unfold FormatMeets
  decide +kernel

end Umber.Classic
