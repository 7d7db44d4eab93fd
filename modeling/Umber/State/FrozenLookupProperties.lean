import Umber.State.FrozenLookupPlacement

/-! A decoded table is the image of its entries, and finds each of them. -/

set_option autoImplicit false

namespace Umber.FrozenLookup

open ExceptLib LinearProbing Wire

/-! ## Fields -/

theorem length_headerBytes (buckets count probe : Nat) :
    (headerBytes buckets count probe).length = headerLen := length_fieldsBytes _

theorem length_record (record : Record) : record.bytes.length = entryLen := length_fieldsBytes _

theorem length_bucketBytes (bucket : Option Nat) : (bucketBytes bucket).length = 4 :=
  length_leBytes _ _

variable {bytes : List UInt8} {offset width value : Nat}

theorem readField_ok (found : field bytes offset width = some value) :
    readField bytes offset width = .ok value := by
  rw [readField, found]

theorem capacity_long : capacity 8 = 18446744073709551616 := by decide

theorem lt_capacity_of_le (fits : value ≤ maxWord) : value < capacity 4 :=
  Nat.lt_succ_of_le fits

/-! ## The header -/

theorem header_field {buckets count probe : Nat} {before after : List (Nat × Nat)}
    {width value offset : Nat} (rest : List UInt8)
    (whole : [(4, algorithm), (4, version), (8, seed.toNat), (4, buckets), (4, count),
      (4, emptyWord), (4, probe)] = before ++ (width, value) :: after)
    (fits : value < capacity width) (starts : offset = 0 + fieldsWidth before) :
    readField (headerBytes buckets count probe ++ rest) offset width = .ok value := by
  have found := @field_fieldsBytes _ before after width value whole fits [] rest offset starts
  rw [List.nil_append] at found
  unfold headerBytes
  exact readField_ok found

variable {buckets count probe : Nat}

theorem header_compatible (rest : List UInt8) :
    headerCompatible (headerBytes buckets count probe ++ rest) = .ok true := by
  have length := length_headerBytes buckets count probe
  have long : ¬ (headerBytes buckets count probe ++ rest).length < headerLen := by
    rw [List.length_append, length]
    omega
  have algorithmAt : readU32 (headerBytes buckets count probe ++ rest) 0 = .ok algorithm :=
    @header_field buckets count probe [] _ 4 algorithm 0 rest rfl (by decide) rfl
  have versionAt : readU32 (headerBytes buckets count probe ++ rest) 4 = .ok version :=
    @header_field buckets count probe [(4, algorithm)] _ 4 version 4 rest rfl (by decide) rfl
  have seedAt : readField (headerBytes buckets count probe ++ rest) 8 8 = .ok seed.toNat :=
    @header_field buckets count probe [(4, algorithm), (4, version)] _ 8 seed.toNat 8 rest rfl
      (by rw [capacity_long]; exact seed.toNat_lt) rfl
  have emptyAt : readU32 (headerBytes buckets count probe ++ rest) 24 = .ok emptyWord :=
    @header_field buckets count probe [(4, algorithm), (4, version), (8, seed.toNat),
      (4, buckets), (4, count)] _ 4 emptyWord 24 rest rfl (by decide) rfl
  simp only [headerCompatible, if_neg long, algorithmAt, versionAt, seedAt, emptyAt, ok_bind]
  simp

theorem header_counts (rest : List UInt8) (bucketsFit : buckets ≤ maxWord)
    (countFit : count ≤ maxWord) :
    readU32 (headerBytes buckets count probe ++ rest) 16 = .ok buckets ∧
      readU32 (headerBytes buckets count probe ++ rest) 20 = .ok count := by
  constructor
  · exact @header_field buckets count probe [(4, algorithm), (4, version), (8, seed.toNat)] _
      4 buckets 16 rest rfl (lt_capacity_of_le bucketsFit) rfl
  exact @header_field buckets count probe [(4, algorithm), (4, version), (8, seed.toNat),
    (4, buckets)] _ 4 count 20 rest rfl (lt_capacity_of_le countFit) rfl

/-! ## Buckets and records -/

/-- The buckets of a filled table are read as they were written. -/
theorem readBuckets_ok {bytes : List UInt8} {entryCount : Nat} {buckets done rest : Buckets}
    {seen : List Nat} (whole : buckets = done ++ rest) (small : entryCount ≤ maxWord)
    (reads : ∀ (index : Nat) bucket, buckets[index]? = some bucket →
      readU32 bytes (headerLen + index * 4) = .ok (bucketWord bucket))
    (inside : ∀ (slot : Nat) entry, buckets[slot]? = some (some entry) → entry < entryCount)
    (unique : ∀ (slot other : Nat) entry, buckets[slot]? = some (some entry) →
      buckets[other]? = some (some entry) → slot = other)
    (every : ∀ entry, entry < entryCount → some entry ∈ buckets)
    (recorded : ∀ entry, entry ∈ seen ↔ some entry ∈ done) :
    readBuckets bytes entryCount rest.length done.length seen = .ok rest := by
  induction rest generalizing done seen with
  | nil =>
    rw [List.append_nil] at whole
    subst whole
    have all : ((List.range entryCount).all fun entry => entry ∈ seen) = true := by
      refine List.all_eq_true.mpr fun entry member => decide_eq_true ?_
      exact (recorded entry).mpr (every entry (List.mem_range.mp member))
    rw [List.length_nil, readBuckets, if_pos all]
  | cons bucket rest ih => ?_
  have here : buckets[done.length]? = some bucket := by
    rw [whole, List.getElem?_append_right (Nat.le_refl _), Nat.sub_self]
    rfl
  have decoded : bucketOf entryCount seen (bucketWord bucket) = .ok bucket := by
    cases bucket with
    | none => exact if_pos rfl
    | some entry => ?_
    have below := inside done.length entry here
    have fresh : entry ∉ seen := by
      intro older
      obtain ⟨slot, earlier, found⟩ := List.mem_iff_getElem.mp ((recorded entry).mp older)
      have there : buckets[slot]? = some (some entry) := by
        rw [whole, List.getElem?_append_left earlier]
        exact List.getElem?_eq_some_iff.mpr ⟨earlier, found⟩
      have same := unique _ _ _ there here
      omega
    have word : bucketWord (some entry) = entry := rfl
    have notEmpty : entry ≠ emptyWord := by
      have most : maxWord = emptyWord := rfl
      omega
    rw [bucketOf, word, if_neg notEmpty, if_neg (by
      rintro (beyond | older)
      · omega
      · exact fresh older)]
  rw [List.length_cons, readBuckets, reads _ _ here, ok_bind, decoded, ok_bind]
  have longer : done.length + 1 = (done ++ [bucket]).length := by
    rw [List.length_append]
    rfl
  have later : readBuckets bytes entryCount rest.length (done.length + 1)
      (bucket.toList ++ seen) = .ok rest := by
    rw [longer]
    refine ih (by rw [whole, List.append_assoc]; rfl) fun entry => ?_
    rw [List.mem_append, List.mem_append, recorded, Option.mem_toList, List.mem_singleton, or_comm]
    exact or_congr_right eq_comm
  rw [later, ok_bind]

def keyBytes (entries : List (Key × Nat)) : Nat := (entries.flatMap Prod.fst).length

theorem keyBytes_append (entries others : List (Key × Nat)) :
    keyBytes (entries ++ others) = keyBytes entries + keyBytes others := by
  rw [keyBytes, List.flatMap_append, List.length_append]
  rfl

theorem keyBytes_singleton (entry : Key × Nat) : keyBytes [entry] = entry.1.length := by
  rw [keyBytes, List.flatMap_cons, List.flatMap_nil, List.append_nil]

structure EntryReads (bytes : List UInt8) (entriesOffset keysOffset : Nat)
    (entries : List (Key × Nat)) (done : List (Key × Nat)) (entry : Key × Nat) : Prop where
  start : readU32 bytes (entriesOffset + done.length * entryLen) = .ok (keyBytes done)
  length : readU32 bytes (entriesOffset + done.length * entryLen + 4) = .ok entry.1.length
  target : readU32 bytes (entriesOffset + done.length * entryLen + 8) = .ok entry.2
  reserved : readU32 bytes (entriesOffset + done.length * entryLen + 12) = .ok 0
  inside : keysOffset + keyBytes (done ++ [entry]) ≤ bytes.length
  key : slice bytes (keysOffset + keyBytes done) (keysOffset + keyBytes (done ++ [entry])) = entry.1

theorem readEntries_ok {bytes : List UInt8} {entriesOffset keysOffset targetCount : Nat}
    {entries done rest : List (Key × Nat)} {seen : List Nat} (whole : entries = done ++ rest)
    (addressable : bytes.length < 18446744073709551616)
    (reads : ∀ done entry rest, entries = done ++ entry :: rest →
      EntryReads bytes entriesOffset keysOffset entries done entry)
    (inside : ∀ entry ∈ entries, entry.2 < targetCount) (nodup : (entries.map Prod.snd).Nodup)
    (recorded : ∀ target, target ∈ seen ↔ target ∈ done.map Prod.snd) :
    readEntries bytes entriesOffset keysOffset targetCount rest.length done.length (keyBytes done)
        seen = .ok ⟨rest.map Prod.fst, rest.map Prod.snd, keyBytes entries⟩ := by
  induction rest generalizing done seen with
  | nil =>
    rw [List.append_nil] at whole
    subst whole
    rfl
  | cons entry rest ih => ?_
  have read := reads done entry rest whole
  have below : entry.2 < targetCount :=
    inside entry (by rw [whole]; exact List.mem_append_right _ List.mem_cons_self)
  have fresh : entry.2 ∉ seen := by
    intro older
    rw [whole, List.map_append, List.map_cons] at nodup
    have apart := (List.nodup_append.mp nodup).2.2 _ ((recorded _).mp older) _ List.mem_cons_self
    exact apart rfl
  have cursor : keyBytes done + entry.1.length = keyBytes (done ++ [entry]) := by
    rw [keyBytes_append, keyBytes_singleton]
  have bound := read.inside
  have more : keyBytes done ≤ keyBytes (done ++ [entry]) := by
    rw [keyBytes_append]
    omega
  have ordered : keysOffset + keyBytes done ≤ keysOffset + keyBytes (done ++ [entry]) ∧
      keysOffset + keyBytes (done ++ [entry]) ≤ bytes.length := by omega
  rw [List.length_cons, readEntries, read.start, ok_bind, read.length, ok_bind, read.target,
    ok_bind, read.reserved, ok_bind, if_neg (by omega), if_neg fresh, cursor, checkedSize,
    if_pos (by omega), ok_bind, checkedSize, if_pos (by omega), ok_bind,
    if_neg (Nat.not_lt.mpr bound), sliceChecked, if_pos ordered, ok_bind, read.key]
  have longer : done.length + 1 = (done ++ [entry]).length := by
    rw [List.length_append]
    rfl
  have later := @ih (done ++ [entry]) (entry.2 :: seen)
    (by rw [whole, List.append_assoc]; rfl) (by
      intro target
      rw [List.mem_cons, recorded, List.map_append, List.mem_append, List.map_singleton,
        List.mem_singleton, or_comm])
  rw [longer, later, ok_bind]
  rfl

/-! ## Encoding -/

variable {entries : List (Key × Nat)}

theorem records_ok_iff {cursor : Nat} {found : List Record} : records cursor entries = .ok found →
      found.length = entries.length ∧ ∀ done entry rest, entries = done ++ entry :: rest →
        found[done.length]? = some ⟨cursor + keyBytes done, entry.1.length, entry.2⟩ ∧
          cursor + keyBytes done ≤ maxWord ∧ entry.1.length ≤ maxWord := by
  induction entries generalizing cursor found with
  | nil =>
    intro same
    cases same
    refine ⟨rfl, fun done entry rest whole => ?_⟩
    have length := congrArg List.length whole
    rw [List.length_append, List.length_cons, List.length_nil] at length
    omega
  | cons first others ih => ?_
  obtain ⟨key, target⟩ := first
  intro same
  simp only [records] at same
  obtain ⟨start, started, same⟩ := bind_eq_ok.mp same
  obtain ⟨length, measured, same⟩ := bind_eq_ok.mp same
  obtain ⟨later, rest, same⟩ := bind_eq_ok.mp same
  cases same
  obtain ⟨count, each⟩ := ih rest
  have starts : cursor ≤ maxWord ∧ start = cursor := by
    unfold checkedWord at started
    split at started
    next fits =>
      cases started
      exact ⟨fits, rfl⟩
    next => cases started
  have measures : key.length ≤ maxWord ∧ length = key.length := by
    unfold checkedWord at measured
    split at measured
    next fits =>
      cases measured
      exact ⟨fits, rfl⟩
    next => cases measured
  refine ⟨by rw [List.length_cons, List.length_cons, count], fun done entry tail whole => ?_⟩
  cases done with
  | nil =>
    cases whole
    refine ⟨?_, starts.1, measures.1⟩
    rw [starts.2, measures.2]
    rfl
  | cons head done => ?_
  cases whole
  obtain ⟨found, low, short⟩ := each done entry tail rfl
  have shifted : cursor + keyBytes ((key, target) :: done) =
      cursor + key.length + keyBytes done := by
    rw [keyBytes, List.flatMap_cons, List.length_append, Nat.add_assoc]
    rfl
  rw [shifted]
  exact ⟨found, low, short⟩

variable {found : Nat}

theorem keysLength_eq {total : Nat} (measured : keysLength total entries = .ok found) :
    found = total + keyBytes entries := by
  induction entries generalizing total with
  | nil =>
    cases measured
    rfl
  | cons first rest ih => ?_
  simp only [keysLength] at measured
  obtain ⟨longer, checked, later⟩ := bind_eq_ok.mp measured
  unfold checkedSize at checked
  split at checked
  next =>
    cases checked
    rw [ih later, keyBytes, keyBytes, List.flatMap_cons, List.length_append, Nat.add_assoc]
  next => cases checked

theorem checkedSize_eq {error : LookupError} (checked : checkedSize value error = .ok found) :
    found = value ∧ value < 18446744073709551616 := by
  unfold checkedSize at checked
  split at checked
  next fits =>
    cases checked
    exact ⟨rfl, fits⟩
  next => cases checked

structure Image (entries : List (Key × Nat)) (bytes : List UInt8) (size : Nat) (filling : Filling)
    (found : List Record) : Prop where
  nodup : (entries.map Prod.fst).Nodup
  sorted : entries.Pairwise fun left right => keyLe left.1 right.1 = true
  count : entries.length ≤ maxWord
  sized : bucketCount entries.length = .ok size
  enough : EnoughBuckets entries.length size
  whole : filling.buckets.length = size
  placed : Placed (homeOf (entries.map Prod.fst) size) (List.range entries.length) filling.buckets
  recorded : records 0 entries = .ok found
  written : bytes = headerBytes size entries.length filling.maximumProbe ++
    filling.buckets.flatMap bucketBytes ++ found.flatMap Record.bytes ++
    entries.flatMap Prod.fst
  addressable : headerLen + size * 4 + entries.length * entryLen + keyBytes entries <
    18446744073709551616

theorem room_of_enough {entryCount size : Nat} (enough : EnoughBuckets entryCount size) :
    entryCount < size := by
  have least := enough.least
  have room := enough.room
  omega

theorem image_of_encode (encoded : encode entries = .ok bytes) :
    ∃ size filling found, Image (sortEntries entries) bytes size filling found := by
  unfold encode at encoded
  extract_lets sorted at encoded
  have order := sortEntries_sorted entries
  cases distinct : anyNeighbours (fun left right => left.1 = right.1) sorted with
  | true =>
    rw [if_pos distinct] at encoded
    cases encoded
  | false => ?_
  rw [if_neg (by rw [distinct]; exact Bool.false_ne_true)] at encoded
  obtain ⟨count, counted, encoded⟩ := bind_eq_ok.mp encoded
  obtain ⟨size, sized, encoded⟩ := bind_eq_ok.mp encoded
  obtain ⟨filling, placed, encoded⟩ := bind_eq_ok.mp encoded
  obtain ⟨bucketsLen, bucketsSize, encoded⟩ := bind_eq_ok.mp encoded
  obtain ⟨entriesLen, entriesSize, encoded⟩ := bind_eq_ok.mp encoded
  obtain ⟨keysLen, keysSize, encoded⟩ := bind_eq_ok.mp encoded
  obtain ⟨entriesOffset, entriesStart, encoded⟩ := bind_eq_ok.mp encoded
  obtain ⟨keysOffset, keysStart, encoded⟩ := bind_eq_ok.mp encoded
  obtain ⟨total, totalSize, encoded⟩ := bind_eq_ok.mp encoded
  obtain ⟨found, recorded, encoded⟩ := bind_eq_ok.mp encoded
  have written := Except.ok.inj encoded
  have counts : sorted.length ≤ maxWord ∧ count = sorted.length := by
    unfold checkedWord at counted
    split at counted
    next fits =>
      cases counted
      exact ⟨fits, rfl⟩
    next => cases counted
  obtain ⟨exactSize, sizeFound, enough, _⟩ := bucketCount_ok counts.1
  rw [sized] at sizeFound
  cases sizeFound
  obtain ⟨filled, fills, length, table⟩ := @placeKeys_empty (sorted.map Prod.fst) size
    enough.power (by rw [List.length_map]; exact room_of_enough enough)
  rw [placed] at fills
  cases fills
  rw [List.length_map] at table
  have keys := keysLength_eq keysSize
  obtain ⟨rfl, _⟩ := checkedSize_eq bucketsSize
  obtain ⟨rfl, _⟩ := checkedSize_eq entriesSize
  obtain ⟨rfl, _⟩ := checkedSize_eq entriesStart
  obtain ⟨rfl, _⟩ := checkedSize_eq keysStart
  obtain ⟨_, addressable⟩ := checkedSize_eq totalSize
  refine ⟨size, filling, found, nodup_of_no_neighbours order distinct, order, counts.1, sized,
    enough, length, table, recorded, ?_, ?_⟩
  · rw [← written, counts.2]
  rw [keys, Nat.zero_add] at addressable
  exact addressable

end Umber.FrozenLookup
