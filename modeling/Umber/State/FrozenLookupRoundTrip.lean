import Umber.State.FrozenLookupProperties

/-! Entries within the limits are encoded, and their image is read back as their table. -/

set_option autoImplicit false

namespace Umber.FrozenLookup

open ExceptLib LinearProbing Wire

/-! ## Reading an image -/

theorem record_fields {record : Record} (start : record.start ≤ maxWord)
    (length : record.length ≤ maxWord) (target : record.target ≤ maxWord) :
    field record.bytes 0 4 = some record.start ∧ field record.bytes 4 4 = some record.length ∧
      field record.bytes 8 4 = some record.target ∧ field record.bytes 12 4 = some 0 := by
  have bytes : record.bytes = [] ++ record.bytes ++ [] := (List.append_nil _).symm
  rw [bytes]
  refine ⟨?_, ?_, ?_, ?_⟩
  · exact @field_fieldsBytes _ [] _ 4 record.start rfl (lt_capacity_of_le start) [] [] 0 rfl
  · exact @field_fieldsBytes _ [(4, record.start)] _ 4 record.length rfl
      (lt_capacity_of_le length) [] [] 4 rfl
  · exact @field_fieldsBytes _ [(4, record.start), (4, record.length)] _ 4 record.target rfl
      (lt_capacity_of_le target) [] [] 8 rfl
  exact @field_fieldsBytes _ [(4, record.start), (4, record.length), (4, record.target)] _ 4 0
    rfl (by decide) [] [] 12 rfl

variable {entries : List (Key × Nat)} {bytes : List UInt8} {size : Nat} {filling : Filling}
  {found : List Record}

section

variable (image : Image entries bytes size filling found)
include image

theorem Image.bucket_inside (slot entry : Nat)
    (here : filling.buckets[slot]? = some (some entry)) : entry < entries.length :=
  List.mem_range.mp (image.placed.members slot entry here)

theorem Image.reads_bucket (index : Nat)
    (bucket : Option Nat) (here : filling.buckets[index]? = some bucket) :
    readU32 bytes (headerLen + index * 4) = .ok (bucketWord bucket) := by
  have fits : bucketWord bucket ≤ maxWord := by
    cases bucket with
    | none => exact Nat.le_refl _
    | some entry => ?_
    have inside := image.bucket_inside index entry here
    have count := image.count
    have word : bucketWord (some entry) = entry := rfl
    omega
  have same := @field_record _ _ _ length_bucketBytes _ _ _ here
    (headerBytes size entries.length filling.maximumProbe)
    (found.flatMap Record.bytes ++ entries.flatMap Prod.fst) headerLen 0 4
    (length_headerBytes _ _ _).symm (Nat.le_refl 4)
  rw [← List.append_assoc, ← image.written, Nat.add_zero] at same
  have word : field (bucketBytes bucket) 0 4 = some (readLe (bucketBytes bucket)) := by
    have alone := @field_leBytes [] [] 0 4 (bucketWord bucket) rfl
    rwa [List.nil_append, List.append_nil] at alone
  refine readField_ok ?_
  rw [same, word, bucketBytes, readLe_leBytes (lt_capacity_of_le fits)]

theorem Image.length_front :
    (headerBytes size entries.length filling.maximumProbe ++
      filling.buckets.flatMap bucketBytes).length = headerLen + size * 4 := by
  rw [List.length_append, length_headerBytes, length_flatMap_record length_bucketBytes, image.whole]

theorem Image.length_records :
    (headerBytes size entries.length filling.maximumProbe ++
      filling.buckets.flatMap bucketBytes ++ found.flatMap Record.bytes).length =
      headerLen + size * 4 + entries.length * entryLen := by
  rw [List.length_append, image.length_front, length_flatMap_record length_record,
    (records_ok_iff image.recorded).1]

theorem Image.length_bytes :
    bytes.length = headerLen + size * 4 + entries.length * entryLen + keyBytes entries := by
  rw [image.written, List.length_append, image.length_records]
  rfl

theorem Image.reads_entry
    (inside : ∀ entry ∈ entries, entry.2 < entries.length) {done : List (Key × Nat)}
    {entry : Key × Nat} {rest : List (Key × Nat)} (whole : entries = done ++ entry :: rest) :
    EntryReads bytes (headerLen + size * 4) (headerLen + size * 4 + entries.length * entryLen)
      entries done entry := by
  obtain ⟨here, low, short⟩ := (records_ok_iff image.recorded).2 done entry rest whole
  rw [Nat.zero_add] at here low
  have below := inside entry (by rw [whole]; exact List.mem_append_right _ List.mem_cons_self)
  have count := image.count
  have reads : ∀ {offset value : Nat}, offset + 4 ≤ entryLen →
      field (Record.bytes ⟨keyBytes done, entry.1.length, entry.2⟩) offset 4 = some value →
      readU32 bytes (headerLen + size * 4 + done.length * entryLen + offset) = .ok value := by
    intro offset value within found
    have part := @field_record _ _ _ length_record _ _ _ here _ (entries.flatMap Prod.fst)
      _ offset 4 image.length_front.symm within
    rw [← image.written, found] at part
    exact readField_ok part
  obtain ⟨start, length, target, reserved⟩ := @record_fields
    ⟨keyBytes done, entry.1.length, entry.2⟩ low short (by show entry.2 ≤ maxWord; omega)
  have split : entries.flatMap Prod.fst =
      done.flatMap Prod.fst ++ entry.1 ++ rest.flatMap Prod.fst := by
    rw [whole, List.flatMap_append, List.flatMap_cons, List.append_assoc]
  have stops : keyBytes (done ++ [entry]) = keyBytes done + entry.1.length := by
    rw [keyBytes_append, keyBytes_singleton]
  have total : keyBytes entries = keyBytes done + entry.1.length + keyBytes rest := by
    rw [keyBytes, split, List.length_append, List.length_append]
    rfl
  refine ⟨?_, ?_, ?_, ?_, ?_, ?_⟩
  · exact reads (by decide) start
  · exact reads (by decide) length
  · exact reads (by decide) target
  · exact reads (by decide) reserved
  · rw [image.length_bytes, stops, total]
    omega
  have written := image.written
  rw [split, ← List.append_assoc, ← List.append_assoc] at written
  rw [written]
  refine slice_middle ?_ ?_
  · rw [List.length_append, image.length_records]
    rfl
  rw [List.length_append, image.length_records, stops, ← Nat.add_assoc]
  rfl

theorem Image.reads_buckets : readBuckets bytes entries.length size 0 [] = .ok filling.buckets := by
  have every : ∀ entry, entry < entries.length → some entry ∈ filling.buckets := by
    intro entry below
    obtain ⟨_, _, here, _⟩ := image.placed.placed entry (List.mem_range.mpr below)
    exact List.mem_of_getElem? here
  have reads := @readBuckets_ok bytes entries.length filling.buckets [] filling.buckets [] rfl
    image.count image.reads_bucket image.bucket_inside image.placed.unique every
    (fun _ => iff_of_false List.not_mem_nil List.not_mem_nil)
  rwa [image.whole] at reads

theorem Image.reads_entries (targets : (entries.map Prod.snd).Perm (List.range entries.length)) :
    readEntries bytes (headerLen + size * 4) (headerLen + size * 4 + entries.length * entryLen)
        entries.length entries.length 0 0 [] =
      .ok ⟨entries.map Prod.fst, entries.map Prod.snd, keyBytes entries⟩ := by
  have inside : ∀ entry ∈ entries, entry.2 < entries.length := by
    intro entry member
    exact List.mem_range.mp (targets.mem_iff.mp (List.mem_map_of_mem member))
  have bounded : bytes.length < 18446744073709551616 := by
    rw [image.length_bytes]
    exact image.addressable
  exact @readEntries_ok bytes _ _ entries.length entries [] entries [] rfl bounded
    (fun _ _ _ whole => image.reads_entry inside whole) inside
    (targets.nodup_iff.mpr List.nodup_range) (fun _ => Iff.rfl)

end

/-- In a sorted list of distinct keys every key is above the one before. -/
theorem increasing_of_sorted {entries : List (Key × Nat)}
    (sorted : entries.Pairwise fun left right => keyLe left.1 right.1 = true)
    (nodup : (entries.map Prod.fst).Nodup) :
    anyNeighbours (fun left right => keyLe right left) (entries.map Prod.fst) = false := by
  induction entries with
  | nil => rfl
  | cons first rest ih => ?_
  obtain ⟨below, sortedRest⟩ := List.pairwise_cons.mp sorted
  obtain ⟨fresh, nodupRest⟩ := List.nodup_cons.mp nodup
  cases rest with
  | nil => rfl
  | cons second later => ?_
  have tail := ih sortedRest nodupRest
  rw [List.map_cons] at tail
  rw [List.map_cons, List.map_cons, anyNeighbours, tail, Bool.or_false]
  refine Bool.eq_false_iff.mpr fun above => fresh ?_
  have low := below second List.mem_cons_self
  have same : first.1 = second.1 := keyLe_antisymm low above
  exact List.mem_map.mpr ⟨second, List.mem_cons_self, same.symm⟩

theorem encode_sortEntries (entries : List (Key × Nat)) :
    encode (sortEntries entries) = encode entries := by
  unfold encode
  rw [sortEntries_of_sorted (sortEntries_sorted entries)]

/-- An image with few enough buckets is read back as a table of its entries. -/
theorem Image.decodes (image : Image entries bytes size filling found) (fits : size ≤ maxWord)
    (targets : (entries.map Prod.snd).Perm (List.range entries.length))
    (encoded : encode entries = .ok bytes) : decode bytes entries.length =
      .ok ⟨filling.buckets, entries.map Prod.snd, entries.map Prod.fst⟩ := by
  have written := image.written
  rw [List.append_assoc, List.append_assoc] at written
  have compatible : headerCompatible bytes = .ok true := by
    rw [written]
    exact header_compatible _
  have counts : readU32 bytes 16 = .ok size ∧ readU32 bytes 20 = .ok entries.length := by
    rw [written]
    exact header_counts _ fits image.count
  have length := image.length_bytes
  have bound := image.addressable
  have valid : ¬ (size < 8 ∨ ¬ size.isPowerOfTwo) := by
    rintro (few | odd)
    · exact absurd image.enough.least (Nat.not_le.mpr few)
    · exact odd image.enough.power
  have expected : ¬ (size ≠ size ∨ entries.length ≠ entries.length) := by
    rintro (differs | differs)
    · exact differs rfl
    · exact differs rfl
  have canonical : ¬ (headerLen + size * 4 + entries.length * entryLen + keyBytes entries ≠
      bytes.length ∨ anyNeighbours (fun left right => keyLe right left)
        (entries.map Prod.fst) = true) := by
    rintro (short | unordered)
    · exact short length.symm
    rw [increasing_of_sorted image.sorted image.nodup] at unordered
    cases unordered
  have every : ((List.range entries.length).all fun target =>
      target ∈ entries.map Prod.snd) = true :=
    List.all_eq_true.mpr fun target member => decide_eq_true (targets.mem_iff.mpr member)
  have again : encode ((entries.map Prod.fst).zip (entries.map Prod.snd)) = .ok bytes := by
    have pairs : entries = (entries.map Prod.fst).zip (entries.map Prod.snd) :=
      List.zip_of_prod rfl rfl
    rw [← pairs]
    exact encoded
  rw [decode, compatible, ok_bind, if_neg (by decide), counts.1, ok_bind, counts.2, ok_bind,
    if_neg valid, image.sized, ok_bind, if_neg expected, checkedSize, if_pos (by omega), ok_bind,
    checkedSize, if_pos (by omega), ok_bind, checkedSize, if_pos (by omega), ok_bind,
    checkedSize, if_pos (by omega), ok_bind, if_neg (by omega), image.reads_buckets, ok_bind,
    image.reads_entries targets, ok_bind, if_neg canonical, if_pos every, again, ok_bind,
    if_neg (fun differs => differs rfl)]

theorem Image.tableOf (image : Image entries bytes size filling found) :
    TableOf entries ⟨filling.buckets, entries.map Prod.snd, entries.map Prod.fst⟩ where
  keys := rfl
  targets := rfl
  nodup := image.nodup
  power := by
    show filling.buckets.length.isPowerOfTwo
    rw [image.whole]
    exact image.enough.power
  placed := by
    show Placed (homeOf _ filling.buckets.length) _ _
    rw [image.whole]
    exact image.placed

/-! ## Limits -/

structure FitsLimits (entries : List (Key × Nat)) : Prop where
  count : entries.length ≤ maxWord
  starts : ∀ index, index < entries.length →
    keyBytes ((sortEntries entries).take index) ≤ maxWord
  lengths : ∀ entry ∈ entries, entry.1.length ≤ maxWord

theorem keyBytes_eq_flatten (entries : List (Key × Nat)) :
    keyBytes entries = (entries.map Prod.fst).flatten.length := by
  rw [keyBytes, List.flatMap_def]

theorem count_of_starts {entries : List (Key × Nat)} (nodup : (entries.map Prod.fst).Nodup)
    (last : keyBytes (entries.take (entries.length - 1)) ≤ maxWord) :
    entries.length ≤ 1090584833 := by
  have front : ((entries.take (entries.length - 1)).map Prod.fst).Nodup :=
    nodup.sublist ((List.take_sublist _ _).map _)
  have long := length_mul_le ((entries.take (entries.length - 1)).map Prod.fst) 3
  have short := length_short_le front 3
  have most : rankBound 3 + 1 = 16843009 := by decide
  have word : maxWord = 4294967295 := rfl
  rw [← keyBytes_eq_flatten, List.length_map, List.length_take] at long
  omega

theorem bucketCount_le {entryCount size : Nat} (few : entryCount ≤ 1090584833)
    (sized : bucketCount entryCount = .ok size) : size ≤ maxWord := by
  have word : maxWord = 4294967295 := rfl
  obtain ⟨count, found, _, last⟩ := @bucketCount_ok entryCount (by omega)
  rw [sized] at found
  cases found
  omega

theorem Image.size_fits (image : Image entries bytes size filling found) : size ≤ maxWord := by
  refine bucketCount_le (count_of_starts image.nodup ?_) image.sized
  by_cases empty : entries = []
  · rw [empty]
    exact Nat.zero_le _
  have whole := (List.dropLast_concat_getLast empty).symm
  have starts := ((records_ok_iff image.recorded).2 _ _ [] whole).2.1
  rw [List.dropLast_eq_take, Nat.zero_add] at starts
  exact starts

theorem records_ok {cursor : Nat} {entries : List (Key × Nat)}
    (starts : ∀ index, index < entries.length → cursor + keyBytes (entries.take index) ≤ maxWord)
    (lengths : ∀ entry ∈ entries, entry.1.length ≤ maxWord) :
    ∃ found, records cursor entries = .ok found := by
  induction entries generalizing cursor with
  | nil => exact ⟨[], rfl⟩
  | cons entry rest ih => ?_
  have start : cursor ≤ maxWord := starts 0 (Nat.succ_pos _)
  have later : ∀ index, index < rest.length →
      cursor + entry.1.length + keyBytes (rest.take index) ≤ maxWord := by
    intro index below
    have here := starts (index + 1) (Nat.succ_lt_succ below)
    rw [List.take_succ_cons, keyBytes, List.flatMap_cons, List.length_append,
      ← Nat.add_assoc] at here
    exact here
  obtain ⟨found, recorded⟩ :=
    ih later fun other member => lengths other (List.mem_cons_of_mem _ member)
  rw [records, checkedWord, if_pos start, ok_bind, checkedWord,
    if_pos (lengths entry List.mem_cons_self), ok_bind, recorded]
  exact ⟨_, rfl⟩

theorem keysLength_ok {total : Nat} {entries : List (Key × Nat)}
    (fits : total + keyBytes entries < 18446744073709551616) :
    keysLength total entries = .ok (total + keyBytes entries) := by
  induction entries generalizing total with
  | nil => rfl
  | cons entry rest ih => ?_
  have split : keyBytes (entry :: rest) = entry.1.length + keyBytes rest := by
    rw [keyBytes, List.flatMap_cons, List.length_append]
    rfl
  rw [split, ← Nat.add_assoc] at fits ⊢
  rw [keysLength, checkedSize, if_pos (by omega), ok_bind]
  exact ih fits

theorem encode_ok {entries : List (Key × Nat)} (nodup : (entries.map Prod.fst).Nodup)
    (limits : FitsLimits entries) : ∃ bytes, encode entries = .ok bytes := by
  have permuted := sortEntries_perm entries
  have sortedNodup : ((sortEntries entries).map Prod.fst).Nodup :=
    (permuted.map _).nodup_iff.mpr nodup
  have length := permuted.length_eq
  have count := limits.count
  have starts := limits.starts
  rw [← length] at count starts
  have lengths : ∀ entry ∈ sortEntries entries, entry.1.length ≤ maxWord :=
    fun entry member => limits.lengths entry (permuted.mem_iff.mp member)
  have word : maxWord = 4294967295 := rfl
  have total : keyBytes (sortEntries entries) ≤ maxWord + maxWord := by
    by_cases empty : sortEntries entries = []
    · rw [empty]
      exact Nat.zero_le _
    have positive := List.length_pos_iff.mpr empty
    have front := starts ((sortEntries entries).length - 1) (by omega)
    have back := lengths _ (List.getLast_mem empty)
    have whole := List.dropLast_concat_getLast empty
    rw [List.dropLast_eq_take] at whole
    rw [← whole, keyBytes_append, keyBytes_singleton]
    omega
  obtain ⟨size, sized, enough, last⟩ := bucketCount_ok count
  obtain ⟨filling, filled, _⟩ := @placeKeys_empty ((sortEntries entries).map Prod.fst) size
    enough.power (by rw [List.length_map]; exact room_of_enough enough)
  have least := enough.least
  obtain ⟨found, recorded⟩ := @records_ok 0 (sortEntries entries)
    (fun index below => by rw [Nat.zero_add]; exact starts index below) lengths
  have keys := @keysLength_ok 0 (sortEntries entries) (by omega)
  have header : headerLen = 32 := rfl
  have width : (sortEntries entries).length * entryLen = (sortEntries entries).length * 16 := rfl
  unfold encode
  dsimp only
  rw [if_neg (by rw [no_neighbours_of_nodup sortedNodup]; exact Bool.false_ne_true),
    checkedWord, if_pos count, ok_bind, sized, ok_bind, filled, ok_bind, checkedSize,
    if_pos (by omega), ok_bind, checkedSize, if_pos (by omega), ok_bind, keys, ok_bind,
    checkedSize, if_pos (by omega), ok_bind, checkedSize, if_pos (by omega), ok_bind,
    checkedSize, if_pos (by omega), ok_bind, recorded, ok_bind]
  exact ⟨_, rfl⟩

end Umber.FrozenLookup
