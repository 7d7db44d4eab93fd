import Umber.State.FrozenLookupRoundTrip

/-! The lookup table is an exact dictionary, and nothing else is accepted as one. -/

set_option autoImplicit false

namespace Umber.FrozenLookup

open ExceptLib LinearProbing Wire

/-! ## Every byte string is answered -/

structure Harmless {α : Type} (computation : Looking α) : Prop where
  inRange : computation ≠ .error .panicked
  finished : computation ≠ .error .unfinished

variable {α : Type}

theorem harmless_ok (value : α) : Harmless (.ok value : Looking α) :=
  ⟨nofun, nofun⟩

variable {error : LookupError}

theorem harmless_error (inRange : error ≠ .panicked) (finished : error ≠ .unfinished) :
    Harmless (.error error : Looking α) :=
  ⟨fun same => inRange (Except.error.inj same), fun same => finished (Except.error.inj same)⟩

theorem Harmless.bind {β : Type} {computation : Looking α} {next : α → Looking β}
    (first : Harmless computation)
    (later : ∀ value, computation = .ok value → Harmless (next value)) :
    Harmless (computation >>= next) := by
  cases result : computation with
  | error error =>
    rw [error_bind]
    rw [result] at first
    exact harmless_error (fun same => first.inRange (by rw [same]))
      (fun same => first.finished (by rw [same]))
  | ok value =>
    rw [ok_bind]
    exact later value result

theorem harmless_ite {condition : Prop} [Decidable condition] {left right : Looking α}
    (yes : condition → Harmless left) (no : ¬ condition → Harmless right) :
    Harmless (if condition then left else right) := by
  split
  next holds => exact yes holds
  next fails => exact no fails

theorem harmless_checkedSize (value : Nat) (inRange : error ≠ .panicked)
    (finished : error ≠ .unfinished) : Harmless (checkedSize value error) :=
  harmless_ite (fun _ => harmless_ok value) fun _ => harmless_error inRange finished

theorem harmless_checkedWord (value : Nat) (inRange : error ≠ .panicked)
    (finished : error ≠ .unfinished) : Harmless (checkedWord value error) :=
  harmless_ite (fun _ => harmless_ok value) fun _ => harmless_error inRange finished

theorem harmless_bucketCount {entryCount : Nat} (small : entryCount ≤ maxWord) :
    Harmless (bucketCount entryCount) := by
  obtain ⟨count, counted, _⟩ := bucketCount_ok small
  rw [counted]
  exact harmless_ok count

theorem harmless_keysLength (total : Nat) (entries : List (Key × Nat)) :
    Harmless (keysLength total entries) := by
  induction entries generalizing total with
  | nil => exact harmless_ok total
  | cons entry rest ih =>
    rw [keysLength]
    exact (harmless_checkedSize _ (by decide) (by decide)).bind fun longer _ => ih longer

theorem harmless_records (cursor : Nat) (entries : List (Key × Nat)) :
    Harmless (records cursor entries) := by
  induction entries generalizing cursor with
  | nil => exact harmless_ok []
  | cons entry rest ih => ?_
  rw [records]
  refine (harmless_checkedWord _ (by decide) (by decide)).bind fun start _ => ?_
  refine (harmless_checkedWord _ (by decide) (by decide)).bind fun length _ => ?_
  exact (ih _).bind fun later _ => harmless_ok _

theorem harmless_encode (entries : List (Key × Nat)) : Harmless (encode entries) := by
  unfold encode
  dsimp only
  refine harmless_ite (fun _ => harmless_error (by decide) (by decide)) fun _ => ?_
  by_cases small : (sortEntries entries).length ≤ maxWord
  · obtain ⟨size, sized, enough, _⟩ := bucketCount_ok small
    obtain ⟨filling, filled, _⟩ := @placeKeys_empty ((sortEntries entries).map Prod.fst) size
      enough.power (by rw [List.length_map]; exact room_of_enough enough)
    rw [checkedWord, if_pos small, ok_bind, sized, ok_bind, filled, ok_bind]
    refine (harmless_checkedSize _ (by decide) (by decide)).bind fun _ _ => ?_
    refine (harmless_checkedSize _ (by decide) (by decide)).bind fun _ _ => ?_
    refine (harmless_keysLength _ _).bind fun _ _ => ?_
    refine (harmless_checkedSize _ (by decide) (by decide)).bind fun _ _ => ?_
    refine (harmless_checkedSize _ (by decide) (by decide)).bind fun _ _ => ?_
    refine (harmless_checkedSize _ (by decide) (by decide)).bind fun _ _ => ?_
    exact (harmless_records _ _).bind fun _ _ => harmless_ok _
  rw [checkedWord, if_neg small, error_bind]
  exact harmless_error (by decide) (by decide)

variable {bytes : List UInt8} {offset : Nat}

theorem harmless_readField {width : Nat} (inside : offset + width ≤ bytes.length) :
    Harmless (readField bytes offset width) := by
  rw [readField_ok (field_eq_some inside)]
  exact harmless_ok _

theorem readU32_le {value : Nat} (read : readU32 bytes offset = .ok value) : value ≤ maxWord := by
  unfold readU32 readField at read
  cases found : field bytes offset 4 with
  | none =>
    rw [found] at read
    cases read
  | some word => ?_
  rw [found] at read
  cases read
  exact Nat.le_of_lt_succ (field_lt found)

theorem harmless_headerCompatible (bytes : List UInt8) : Harmless (headerCompatible bytes) := by
  refine harmless_ite (fun _ => harmless_ok false) fun long => ?_
  have room : 32 ≤ bytes.length := Nat.not_lt.mp long
  refine (harmless_readField (by omega)).bind fun _ _ => ?_
  refine (harmless_readField (by omega)).bind fun _ _ => ?_
  refine (harmless_readField (by omega)).bind fun _ _ => ?_
  exact (harmless_readField (by omega)).bind fun _ _ => harmless_ok _

theorem headerLen_le_of_compatible (compatible : headerCompatible bytes = .ok true) :
    headerLen ≤ bytes.length := by
  unfold headerCompatible at compatible
  split at compatible
  next => cases compatible
  next long => exact Nat.not_lt.mp long

variable {count index : Nat}

theorem harmless_readBuckets (entryCount : Nat)
    (room : headerLen + (index + count) * 4 ≤ bytes.length) (seen : List Nat) :
    Harmless (readBuckets bytes entryCount count index seen) := by
  induction count generalizing index seen with
  | zero =>
    exact harmless_ite (fun _ => harmless_ok []) fun _ => harmless_error (by decide) (by decide)
  | succ count ih => ?_
  rw [readBuckets]
  refine (harmless_readField (by omega)).bind fun word _ => ?_
  have bucket : Harmless (bucketOf entryCount seen word) :=
    harmless_ite (fun _ => harmless_ok none) fun _ =>
      harmless_ite (fun _ => harmless_error (by decide) (by decide)) fun _ => harmless_ok _
  refine bucket.bind fun bucket _ => ?_
  exact (ih (by omega) _).bind fun _ _ => harmless_ok _

variable {entriesOffset keysOffset : Nat}

theorem harmless_readEntries (targetCount : Nat)
    (room : entriesOffset + (index + count) * 16 ≤ bytes.length) (cursor : Nat) (seen : List Nat) :
    Harmless (readEntries bytes entriesOffset keysOffset targetCount count index cursor seen) := by
  induction count generalizing index cursor seen with
  | zero => exact harmless_ok _
  | succ count ih => ?_
  have width : index * entryLen = index * 16 := rfl
  rw [readEntries]
  refine (harmless_readField (by omega)).bind fun start _ => ?_
  refine (harmless_readField (by omega)).bind fun length _ => ?_
  refine (harmless_readField (by omega)).bind fun target _ => ?_
  refine (harmless_readField (by omega)).bind fun reserved _ => ?_
  refine harmless_ite (fun _ => harmless_error (by decide) (by decide)) fun _ => ?_
  refine harmless_ite (fun _ => harmless_error (by decide) (by decide)) fun _ => ?_
  refine (harmless_checkedSize _ (by decide) (by decide)).bind fun next checked => ?_
  refine (harmless_checkedSize _ (by decide) (by decide)).bind fun stop stopped => ?_
  refine harmless_ite (fun _ => harmless_error (by decide) (by decide)) fun inside => ?_
  obtain ⟨rfl, _⟩ := checkedSize_eq checked
  obtain ⟨rfl, _⟩ := checkedSize_eq stopped
  rw [sliceChecked, if_pos (by omega), ok_bind]
  exact (ih (by omega) _ _).bind fun _ _ => harmless_ok _

theorem harmless_decode (bytes : List UInt8) (targetCount : Nat) :
    Harmless (decode bytes targetCount) := by
  unfold decode
  refine (harmless_headerCompatible bytes).bind fun compatible checked => ?_
  refine harmless_ite (fun _ => harmless_error (by decide) (by decide)) fun accepted => ?_
  have room : 32 ≤ bytes.length := by
    cases compatible with
    | false => exact absurd rfl accepted
    | true => exact headerLen_le_of_compatible checked
  refine (harmless_readField (by omega)).bind fun size _ => ?_
  refine (harmless_readField (by omega)).bind fun entryCount counted => ?_
  refine harmless_ite (fun _ => harmless_error (by decide) (by decide)) fun _ => ?_
  refine (harmless_bucketCount (readU32_le counted)).bind fun expected _ => ?_
  refine harmless_ite (fun _ => harmless_error (by decide) (by decide)) fun _ => ?_
  refine (harmless_checkedSize _ (by decide) (by decide)).bind fun bucketsLen buckets => ?_
  refine (harmless_checkedSize _ (by decide) (by decide)).bind fun entriesOffset offset => ?_
  refine (harmless_checkedSize _ (by decide) (by decide)).bind fun entriesLen entries => ?_
  refine (harmless_checkedSize _ (by decide) (by decide)).bind fun keysOffset keys => ?_
  refine harmless_ite (fun _ => harmless_error (by decide) (by decide)) fun long => ?_
  obtain ⟨rfl, _⟩ := checkedSize_eq buckets
  obtain ⟨rfl, _⟩ := checkedSize_eq offset
  obtain ⟨rfl, _⟩ := checkedSize_eq entries
  obtain ⟨rfl, _⟩ := checkedSize_eq keys
  have width : entryCount * entryLen = entryCount * 16 := rfl
  refine (harmless_readBuckets entryCount (by omega) []).bind fun table _ => ?_
  refine (harmless_readEntries targetCount (by omega) 0 []).bind fun found _ => ?_
  refine harmless_ite (fun _ => harmless_error (by decide) (by decide)) fun _ => ?_
  refine harmless_ite (fun _ => ?_) fun _ => harmless_error (by decide) (by decide)
  refine (harmless_encode _).bind fun expected _ => ?_
  exact harmless_ite (fun _ => harmless_error (by decide) (by decide)) fun _ => harmless_ok _

/-! ## Only images are accepted -/

variable {targetCount : Nat}

theorem readEntries_found {cursor : Nat} {seen : List Nat} {entries : Entries}
    (read : readEntries bytes entriesOffset keysOffset targetCount count index cursor seen =
      .ok entries) :
    entries.keys.length = count ∧ entries.targets.length = count ∧ entries.targets.Nodup ∧
      ∀ target ∈ entries.targets, target < targetCount ∧ target ∉ seen := by
  induction count generalizing index cursor seen entries with
  | zero =>
    cases read
    exact ⟨rfl, rfl, List.nodup_nil, nofun⟩
  | succ count ih => ?_
  rw [readEntries] at read
  obtain ⟨start, _, read⟩ := bind_eq_ok.mp read
  obtain ⟨length, _, read⟩ := bind_eq_ok.mp read
  obtain ⟨target, _, read⟩ := bind_eq_ok.mp read
  obtain ⟨reserved, _, read⟩ := bind_eq_ok.mp read
  split at read
  next => cases read
  rename_i valid
  split at read
  next => cases read
  rename_i fresh
  obtain ⟨next, _, read⟩ := bind_eq_ok.mp read
  obtain ⟨stop, _, read⟩ := bind_eq_ok.mp read
  split at read
  next => cases read
  obtain ⟨key, _, read⟩ := bind_eq_ok.mp read
  obtain ⟨later, rest, read⟩ := bind_eq_ok.mp read
  cases read
  obtain ⟨keys, targets, nodup, bounds⟩ := ih rest
  refine ⟨by rw [List.length_cons, keys], by rw [List.length_cons, targets], ?_, ?_⟩
  · refine List.nodup_cons.mpr ⟨fun again => ?_, nodup⟩
    exact (bounds target again).2 List.mem_cons_self
  intro other member
  rcases List.mem_cons.mp member with rfl | behind
  · exact ⟨by omega, fresh⟩
  obtain ⟨below, apart⟩ := bounds other behind
  exact ⟨below, fun older => apart (List.mem_cons_of_mem _ older)⟩

variable {table : FrozenLookup}

/-- An accepted byte string is the image of the entries of its table. -/
theorem encode_of_decode (decoded : decode bytes targetCount = .ok table) :
    encode (table.keys.zip table.targets) = .ok bytes ∧ table.keys.length = targetCount ∧
      table.targets.length = targetCount ∧ table.targets.Perm (List.range targetCount) := by
  unfold decode at decoded
  obtain ⟨compatible, _, decoded⟩ := bind_eq_ok.mp decoded
  split at decoded
  next => cases decoded
  obtain ⟨size, _, decoded⟩ := bind_eq_ok.mp decoded
  obtain ⟨entryCount, _, decoded⟩ := bind_eq_ok.mp decoded
  split at decoded
  next => cases decoded
  obtain ⟨expectedCount, _, decoded⟩ := bind_eq_ok.mp decoded
  split at decoded
  next => cases decoded
  rename_i capacity
  obtain ⟨bucketsLen, _, decoded⟩ := bind_eq_ok.mp decoded
  obtain ⟨entriesOffset, _, decoded⟩ := bind_eq_ok.mp decoded
  obtain ⟨entriesLen, _, decoded⟩ := bind_eq_ok.mp decoded
  obtain ⟨keysOffset, _, decoded⟩ := bind_eq_ok.mp decoded
  split at decoded
  next => cases decoded
  obtain ⟨buckets, _, decoded⟩ := bind_eq_ok.mp decoded
  obtain ⟨entries, read, decoded⟩ := bind_eq_ok.mp decoded
  split at decoded
  next => cases decoded
  split at decoded
  next every =>
    obtain ⟨expected, encoded, decoded⟩ := bind_eq_ok.mp decoded
    split at decoded
    next => cases decoded
    rename_i canonical
    cases decoded
    have same : entryCount = targetCount := by omega
    have image : expected = bytes := Decidable.not_not.mp canonical
    obtain ⟨keys, targets, nodup, bounds⟩ := readEntries_found read
    rw [same] at keys targets
    rw [image] at encoded
    refine ⟨encoded, keys, targets, ?_⟩
    refine (List.perm_ext_iff_of_nodup nodup List.nodup_range).mpr fun target => ?_
    constructor
    · intro member
      exact List.mem_range.mpr (bounds target member).1
    intro member
    exact of_decide_eq_true (List.all_eq_true.mp every target member)
  next => cases decoded

/-! ## The dictionary -/

variable {entries : List (Key × Nat)}

theorem Finds.perm {others : List (Key × Nat)} (same : entries.Perm others)
    (finds : Finds entries table) : Finds others table where
  present := fun tag spelling target member =>
    finds.present tag spelling target (same.mem_iff.mpr member)
  absent := fun tag spelling missing =>
    finds.absent tag spelling fun target member => missing target (same.mem_iff.mp member)

/-- The image of entries is decoded to a table that finds them. -/
theorem decode_of_encode (encoded : encode entries = .ok bytes)
    (targets : (entries.map Prod.snd).Perm (List.range entries.length)) :
    (entries.map Prod.fst).Nodup ∧ ∃ table, decode bytes entries.length = .ok table ∧
      Finds entries table := by
  obtain ⟨size, filling, found, image⟩ := image_of_encode encoded
  have permuted := sortEntries_perm entries
  have length := permuted.length_eq
  have sortedTargets : ((sortEntries entries).map Prod.snd).Perm
      (List.range (sortEntries entries).length) := by
    rw [length]
    exact (permuted.map _).trans targets
  have decoded := image.decodes image.size_fits sortedTargets
    (by rw [encode_sortEntries]; exact encoded)
  rw [length] at decoded
  exact ⟨(permuted.map _).nodup_iff.mp image.nodup, _, decoded, image.tableOf.finds.perm permuted⟩

/-- Distinct keys with targets counted from zero are encoded, decoded and found, and nothing
but such an image is accepted. -/
theorem frozen_lookup_exact : (∀ entries : List (Key × Nat), (entries.map Prod.fst).Nodup →
      (entries.map Prod.snd).Perm (List.range entries.length) → FitsLimits entries →
      ∃ bytes table, encode entries = .ok bytes ∧ decode bytes entries.length = .ok table ∧
        Finds entries table) ∧
    (∀ (bytes : List UInt8) (targetCount : Nat), Harmless (decode bytes targetCount) ∧
      ∀ table, decode bytes targetCount = .ok table →
        ∃ entries : List (Key × Nat), (entries.map Prod.fst).Nodup ∧
          (entries.map Prod.snd).Perm (List.range targetCount) ∧
          encode entries = .ok bytes ∧ Finds entries table) := by
  constructor
  · intro entries nodup targets limits
    obtain ⟨bytes, encoded⟩ := encode_ok nodup limits
    obtain ⟨_, table, decoded, finds⟩ := decode_of_encode encoded targets
    exact ⟨bytes, table, encoded, decoded, finds⟩
  intro bytes targetCount
  refine ⟨harmless_decode bytes targetCount, fun table decoded => ?_⟩
  obtain ⟨encoded, keys, targets, permuted⟩ := encode_of_decode decoded
  have projected : (table.keys.zip table.targets).map Prod.snd = table.targets :=
    List.map_snd_zip (by omega)
  have length : (table.keys.zip table.targets).length = targetCount := by
    rw [List.length_zip]
    omega
  rw [← projected] at permuted
  obtain ⟨nodup, again, decodedAgain, finds⟩ :=
    decode_of_encode encoded (by rw [length]; exact permuted)
  rw [length, decoded] at decodedAgain
  cases decodedAgain
  exact ⟨_, nodup, permuted, encoded, finds⟩

theorem frozen_lookup_exact_two : FitsLimits [([97], 1), ([97, 98], 0)] ∧
      ∃ bytes table, encode [([97], 1), ([97, 98], 0)] = .ok bytes ∧ decode bytes 2 = .ok table ∧
        Finds [([97], 1), ([97, 98], 0)] table := by
  have sorted : sortEntries [([97], 1), ([97, 98], 0)] = [([97], 1), ([97, 98], 0)] :=
    sortEntries_of_sorted (by decide)
  have limits : FitsLimits [([97], 1), ([97, 98], 0)] :=
    ⟨by decide, by rw [sorted]; decide, by decide⟩
  exact ⟨limits, frozen_lookup_exact.1 _ (by decide) (List.Perm.swap 0 1 []) limits⟩

end Umber.FrozenLookup
