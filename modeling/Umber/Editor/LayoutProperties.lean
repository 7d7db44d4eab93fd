import Umber.Editor.Layout

/-! Replacing the lines around an edit: the layout keeps the coordinates of all other bytes and
spells the new text. -/

set_option autoImplicit false

namespace Umber.Editor

open ExceptLib

variable {fragments : FragmentStore} {piece replacement : Piece} {pieces : List Piece}
  {docStart replacedStart replacedEnd : Nat}

/-! ## Pieces -/

def startsFrom (docStart : Nat) : List Piece → List Nat
  | [] => []
  | piece :: rest => docStart :: startsFrom (docStart + (piece.stop - piece.start)) rest

def Piece.Inside (piece : Piece) (fragments : FragmentStore) : Prop :=
  piece.start ≤ piece.stop ∧
    ∃ bytes, fragments.bytes piece.fragment = some bytes ∧ piece.stop ≤ bytes.length

def FragmentStore.byteAt (fragments : FragmentStore) (coordinate : FragmentId × Nat) :
    Option UInt8 :=
  (fragments.bytes coordinate.1).bind fun bytes => bytes[coordinate.2]?

theorem Piece.coordinates_length : piece.coordinates.length = piece.stop - piece.start := by
  unfold coordinates
  rw [List.length_map, List.length_range']

theorem Piece.Inside.text_eq (inside : piece.Inside fragments) :
    (piece.text fragments).map some = piece.coordinates.map fragments.byteAt := by
  obtain ⟨ordered, bytes, found, bound⟩ := inside
  have here : fragments.byteAt ∘ (fun offset => (piece.fragment, offset)) = fun offset =>
      bytes[offset]? := by
    funext offset
    simp [FragmentStore.byteAt, found]
  unfold text coordinates
  rw [found, Option.getD_some, List.map_map, here]
  refine List.ext_getElem? fun index => ?_
  rw [List.getElem?_map, List.getElem?_map, List.getElem?_drop, List.getElem?_take]
  by_cases listed : index < piece.stop - piece.start
  · have below : piece.start + index < piece.stop := by omega
    have within : piece.start + index < bytes.length := by omega
    rw [List.getElem?_range' listed, if_pos below]
    simp [List.getElem?_eq_getElem within]
  have above : ¬ piece.start + index < piece.stop := by omega
  have none_ : (List.range' piece.start (piece.stop - piece.start))[index]? = none := by
    rw [List.getElem?_eq_none_iff, List.length_range']
    exact Nat.not_lt.mp listed
  rw [none_, if_neg above]
  rfl

/-- Pieces inside their fragments spell the bytes at their coordinates. -/
theorem text_eq_byteAt (inside : ∀ piece ∈ pieces, piece.Inside fragments) :
    (pieces.flatMap fun piece => piece.text fragments).map some =
      (pieces.flatMap Piece.coordinates).map fragments.byteAt := by
  induction pieces with
  | nil => rfl
  | cons piece rest ih => ?_
  obtain ⟨first, others⟩ := List.forall_mem_cons.mp inside
  rw [List.flatMap_cons, List.flatMap_cons, List.map_append, List.map_append, first.text_eq,
    ih others]

variable {length : Nat}

/-- The part of a piece between two of its offsets. -/
theorem coordinates_left (inside : length ≤ piece.stop - piece.start) :
    ({ piece with stop := piece.start + length } : Piece).coordinates =
      piece.coordinates.take length := by
  unfold Piece.coordinates
  dsimp only
  rw [← List.map_take, List.take_range'_of_length_ge inside, Nat.add_sub_cancel_left]

theorem coordinates_right :
    ({ piece with start := piece.start + length } : Piece).coordinates =
      piece.coordinates.drop length := by
  unfold Piece.coordinates
  dsimp only
  rw [← List.map_drop, List.drop_range', Nat.sub_add_eq, Nat.mul_one]

/-! ## Replacing -/

variable {value result : Nat}

theorem converted_eq {bounded : Prop} [Decidable bounded] {error : EditorLayoutError}
    (converted : (if bounded then .ok value else .error error) = Except.ok result) :
    result = value := by
  split at converted
  · cases converted
    rfl
  · cases converted

theorem leftPart_coordinates {left : List Piece}
    (inside : replacedStart < docStart + (piece.stop - piece.start))
    (parted : leftPart piece docStart replacedStart = .ok left) :
    left.flatMap Piece.coordinates = piece.coordinates.take (replacedStart - docStart) := by
  unfold leftPart at parted
  split at parted
  · obtain ⟨length, converted, parted⟩ := bind_eq_ok.mp parted
    cases pure_eq_ok.mp parted
    cases converted_eq converted
    rw [List.flatMap_singleton, coordinates_left (by omega)]
  cases parted
  rw [show replacedStart - docStart = 0 by omega]
  rfl

theorem rightPart_coordinates {right : List Piece}
    (parted : rightPart piece docStart replacedEnd = .ok right) :
    right.flatMap Piece.coordinates = piece.coordinates.drop (replacedEnd - docStart) := by
  unfold rightPart at parted
  split at parted
  · obtain ⟨length, converted, parted⟩ := bind_eq_ok.mp parted
    cases pure_eq_ok.mp parted
    cases converted_eq converted
    rw [List.flatMap_singleton, coordinates_right]
  cases parted
  refine (List.drop_eq_nil_of_le ?_).symm
  rw [Piece.coordinates_length]
  omega

/-- What is left of the pieces: once the new piece is there, those behind the replaced range;
otherwise also those in front of it and the new piece. -/
theorem replacePieces_coordinates {inserted : Bool} {result : List Piece}
    (ordered : ∀ piece ∈ pieces, piece.start ≤ piece.stop) (range : replacedStart ≤ replacedEnd)
    (placed : if inserted then replacedStart ≤ docStart else docStart ≤ replacedStart)
    (replaced : replacePieces replacedStart replacedEnd replacement inserted
      (pieces.zip (startsFrom docStart pieces)) = .ok result) : result.flatMap Piece.coordinates =
      (if inserted then []
        else (pieces.flatMap Piece.coordinates).take (replacedStart - docStart) ++
          replacement.coordinates) ++
        (pieces.flatMap Piece.coordinates).drop (replacedEnd - docStart) := by
  induction pieces generalizing docStart inserted result with
  | nil =>
    cases replaced
    cases inserted with
    | true => simp
    | false => simp
  | cons piece rest ih => ?_
  obtain ⟨first, others⟩ := List.forall_mem_cons.mp ordered
  unfold startsFrom at replaced
  rw [List.zip_cons_cons] at replaced
  unfold replacePieces at replaced
  have length := @Piece.coordinates_length piece
  rw [List.flatMap_cons, List.take_append, List.drop_append, length]
  split at replaced
  case isTrue empty =>
    have none_ : piece.coordinates = [] := List.length_eq_zero_iff.mp (by omega)
    have same : docStart + (piece.stop - piece.start) = docStart := by omega
    rw [same] at replaced
    rw [none_, List.take_nil, List.drop_nil, List.nil_append, List.nil_append,
      show piece.stop - piece.start = 0 by omega]
    exact ih others placed replaced
  case isFalse some_ =>
  split at replaced
  case isTrue before =>
    obtain ⟨later, running, same⟩ := bind_eq_ok.mp replaced
    cases pure_eq_ok.mp same
    cases inserted with
    | true =>
      have here : replacedStart ≤ docStart := placed
      omega
    | false => ?_
    have behind := @ih (docStart + (piece.stop - piece.start)) false later others before running
    have taken : piece.coordinates.take (replacedStart - docStart) = piece.coordinates :=
      List.take_of_length_le (by omega)
    have dropped : piece.coordinates.drop (replacedEnd - docStart) = [] :=
      List.drop_of_length_le (by omega)
    rw [List.flatMap_cons, behind, Nat.sub_add_eq, Nat.sub_add_eq, taken, dropped]
    simp
  case isFalse reaches =>
  split at replaced
  case isTrue behind =>
    obtain ⟨later, running, same⟩ := bind_eq_ok.mp replaced
    cases pure_eq_ok.mp same
    have last := @ih (docStart + (piece.stop - piece.start)) true later others
      (show replacedStart ≤ _ by omega) running
    rw [show replacedEnd - (docStart + (piece.stop - piece.start)) = 0 by omega,
      List.drop_zero, if_pos rfl, List.nil_append] at last
    rw [List.flatMap_append, List.flatMap_cons, last, show replacedEnd - docStart = 0 by omega]
    cases inserted with
    | true => simp
    | false => ?_
    have here : docStart ≤ replacedStart := placed
    rw [show replacedStart - docStart = 0 by omega]
    simp
  case isFalse overlaps =>
    obtain ⟨left, lefting, parted⟩ := bind_eq_ok.mp replaced
    obtain ⟨right, righting, parted⟩ := bind_eq_ok.mp parted
    obtain ⟨later, running, same⟩ := bind_eq_ok.mp parted
    cases pure_eq_ok.mp same
    have last := @ih (docStart + (piece.stop - piece.start)) true later others
      (show replacedStart ≤ _ by omega) running
    rw [if_pos rfl, List.nil_append] at last
    rw [List.flatMap_append, List.flatMap_append, List.flatMap_append, last,
      leftPart_coordinates (by omega) lefting, rightPart_coordinates righting, Nat.sub_add_eq,
      show replacedStart - docStart - (piece.stop - piece.start) = 0 by omega, List.take_zero]
    cases inserted with
    | true =>
      have here : replacedStart ≤ docStart := placed
      rw [show replacedStart - docStart = 0 by omega]
      simp
    | false => simp

/-! ## New layouts -/

theorem checkedLength_eq_ok (checked : piece.checkedLength fragments = .ok length) :
    length = piece.stop - piece.start ∧ piece.start ≤ piece.stop ∧
      ∃ fragment, fragments.get piece.fragment = some fragment ∧ piece.stop ≤ fragment.byteLen := by
  unfold Piece.checkedLength at checked
  split at checked
  · cases checked
  rename_i fragment found
  split at checked
  · cases checked
  rename_i valid
  cases checked
  rw [not_or, Nat.not_lt, Nat.not_lt] at valid
  exact ⟨rfl, valid.1, fragment, found, valid.2⟩

/-- Pieces that a layout takes lie inside their fragments and follow each other. -/
theorem placePieces_eq_ok {placed : List Nat × Nat}
    (placing : placePieces fragments docStart pieces = .ok placed) :
    placed.1 = startsFrom docStart pieces ∧ ∀ piece ∈ pieces, piece.start ≤ piece.stop ∧
        ∃ fragment, fragments.get piece.fragment = some fragment ∧
          piece.stop ≤ fragment.byteLen := by
  induction pieces generalizing docStart placed with
  | nil =>
    cases placing
    exact ⟨rfl, fun _ absent => absurd absent List.not_mem_nil⟩
  | cons piece rest ih => ?_
  obtain ⟨length, checked, placing⟩ := bind_eq_ok.mp placing
  obtain ⟨next, converted, placing⟩ := bind_eq_ok.mp placing
  obtain ⟨later, placingRest, placing⟩ := bind_eq_ok.mp placing
  cases pure_eq_ok.mp placing
  cases converted_eq converted
  obtain ⟨rfl, valid⟩ := checkedLength_eq_ok checked
  obtain ⟨starts, others⟩ := ih placingRest
  exact ⟨congrArg (docStart :: ·) starts, List.forall_mem_cons.mpr ⟨valid, others⟩⟩

variable {generation : Nat} {layout : EditorLayout}

theorem new_eq_ok {path : String}
    (built : EditorLayout.new path generation pieces fragments = .ok layout) :
    layout.pieces = pieces ∧ layout.docStarts = startsFrom 0 pieces ∧
      ∀ piece ∈ pieces, piece.start ≤ piece.stop ∧
        ∃ fragment, fragments.get piece.fragment = some fragment ∧
          piece.stop ≤ fragment.byteLen := by
  obtain ⟨placed, placing, built⟩ := bind_eq_ok.mp built
  cases pure_eq_ok.mp built
  obtain ⟨starts, valid⟩ := placePieces_eq_ok placing
  exact ⟨rfl, starts, valid⟩

variable {old : EditorLayout} {id : FragmentId}

/-- A replaced range leaves the coordinates around it as they are. -/
theorem replaceLayoutRange_coordinates (starts : old.docStarts = startsFrom 0 old.pieces)
    (ordered : ∀ piece ∈ old.pieces, piece.start ≤ piece.stop) (range : replacedStart ≤ replacedEnd)
    (replaced : replaceLayoutRange old fragments replacedStart replacedEnd id length generation =
      .ok layout) : layout.coordinates = old.coordinates.take replacedStart ++
      (List.range length).map (fun offset => (id, offset)) ++ old.coordinates.drop replacedEnd := by
  obtain ⟨start, startConverted, replaced⟩ := bind_eq_ok.mp replaced
  obtain ⟨stop, stopConverted, replaced⟩ := bind_eq_ok.mp replaced
  obtain ⟨converted, lengthConverted, replaced⟩ := bind_eq_ok.mp replaced
  obtain ⟨pieces, replacing, built⟩ := bind_eq_ok.mp replaced
  cases converted_eq startConverted
  cases converted_eq stopConverted
  cases converted_eq lengthConverted
  rw [starts] at replacing
  have coordinates := replacePieces_coordinates ordered range
    (show if false = true then _ else 0 ≤ replacedStart from Nat.zero_le _) replacing
  obtain ⟨same, _⟩ := new_eq_ok built
  unfold EditorLayout.coordinates
  rw [same, coordinates, if_neg Bool.false_ne_true, Nat.sub_zero, Nat.sub_zero,
    List.range_eq_range']
  rfl

theorem replaceLayoutRange_built
    (replaced : replaceLayoutRange old fragments replacedStart replacedEnd id length generation =
      .ok layout) :
    ∃ pieces, EditorLayout.new old.path generation pieces fragments = .ok layout := by
  obtain ⟨_, _, replaced⟩ := bind_eq_ok.mp replaced
  obtain ⟨_, _, replaced⟩ := bind_eq_ok.mp replaced
  obtain ⟨_, _, replaced⟩ := bind_eq_ok.mp replaced
  obtain ⟨pieces, _, built⟩ := bind_eq_ok.mp replaced
  exact ⟨pieces, built⟩

/-! ## Line expansion -/

variable {test : UInt8 → Bool} {bytes : List UInt8} {found : Nat}

theorem rposition_eq_some (finding : rposition test bytes = some found) :
    ∃ byte, bytes[found]? = some byte ∧ test byte = true := by
  obtain ⟨behind, searched, rfl⟩ := Option.map_eq_some_iff.mp finding
  obtain ⟨inside, passes, _⟩ := List.findIdx?_eq_some_iff_getElem.mp searched
  rw [List.length_reverse] at inside
  rw [List.getElem_reverse] at passes
  exact ⟨_, List.getElem?_eq_getElem (by omega), passes⟩

theorem position_eq_some (finding : position test bytes = some found) :
    ∃ byte, bytes[found]? = some byte ∧ test byte = true := by
  obtain ⟨inside, passes, _⟩ := List.findIdx?_eq_some_iff_getElem.mp finding
  exact ⟨_, List.getElem?_eq_getElem inside, passes⟩

def AtLineStart (source : List UInt8) (offset : Nat) : Prop :=
  offset = 0 ∨ 0 < offset ∧ source[offset - 1]? = some newline

def AtLineEnd (source : List UInt8) (offset : Nat) : Prop :=
  offset = source.length ∨ 0 < offset ∧ source[offset - 1]? = some newline

theorem expandedStart_spec (old : List UInt8) (start : Nat) :
    expandedStart old start ≤ start ∧ AtLineStart old (expandedStart old start) := by
  unfold expandedStart
  split
  · exact ⟨Nat.zero_le _, .inl rfl⟩
  rename_i found finding
  obtain ⟨byte, here, passes⟩ := rposition_eq_some finding
  cases of_decide_eq_true passes
  rw [List.getElem?_take] at here
  split at here
  · rename_i below
    exact ⟨below, .inr ⟨Nat.succ_pos _, here⟩⟩
  · cases here

theorem expandedStop_spec {old : List UInt8} {start stop : Nat} (range : start ≤ stop)
    (inside : stop ≤ old.length) :
    stop ≤ expandedStop old start stop ∧ expandedStop old start stop ≤ old.length ∧
      AtLineEnd old (expandedStop old start stop) := by
  unfold expandedStop
  split
  · rename_i taken
    exact ⟨Nat.le_refl _, inside, .inr ⟨by omega, taken.2⟩⟩
  split
  · exact ⟨inside, Nat.le_refl _, .inl rfl⟩
  rename_i found finding
  obtain ⟨byte, here, passes⟩ := position_eq_some finding
  cases of_decide_eq_true passes
  rw [List.getElem?_drop] at here
  have below := (List.getElem?_eq_some_iff.mp here).1
  exact ⟨by omega, by omega, .inr ⟨Nat.succ_pos _, here⟩⟩

/-- Replacing the lines around an edit is making the edit. -/
theorem lineExpandedReplacement_apply {old : List UInt8} {edit : Replacement}
    (range : edit.start ≤ edit.stop) (inside : edit.stop ≤ old.length) :
    (lineExpandedReplacement old edit).apply old = edit.apply old := by
  have front := (expandedStart_spec old edit.start).1
  obtain ⟨behind, _, _⟩ := expandedStop_spec range inside
  unfold Replacement.apply lineExpandedReplacement
  dsimp only
  have before : old.take (expandedStart old edit.start) ++
      (old.drop (expandedStart old edit.start)).take
        (edit.start - expandedStart old edit.start) = old.take edit.start := by
    rw [← List.take_add, Nat.add_sub_cancel' front]
  have after : (old.drop edit.stop).take (expandedStop old edit.start edit.stop - edit.stop) ++
      old.drop (expandedStop old edit.start edit.stop) = old.drop edit.stop := by
    have rest : old.drop (expandedStop old edit.start edit.stop) =
        (old.drop edit.stop).drop (expandedStop old edit.start edit.stop - edit.stop) := by
      rw [List.drop_drop, Nat.add_sub_cancel' behind]
    rw [rest, List.take_append_drop]
  rw [List.append_assoc, List.append_assoc, List.append_assoc, after, ← List.append_assoc,
    ← List.append_assoc, before, List.append_assoc]

end Umber.Editor
