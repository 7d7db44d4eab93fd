/-! Little-endian fields of byte strings, and the parts of byte strings. -/

set_option autoImplicit false

namespace Wire

/-- The `count` low bytes of a number. -/
def leBytes : Nat → Nat → List UInt8
  | 0, _ => []
  | count + 1, value => UInt8.ofNat value :: leBytes count (value / 256)

def readLe : List UInt8 → Nat
  | [] => 0
  | byte :: rest => byte.toNat + 256 * readLe rest

def capacity : Nat → Nat
  | 0 => 1
  | count + 1 => 256 * capacity count

def slice (bytes : List UInt8) (start stop : Nat) : List UInt8 :=
  (bytes.drop start).take (stop - start)

@[simp] theorem length_leBytes (count value : Nat) : (leBytes count value).length = count := by
  induction count generalizing value with
  | zero => rfl
  | succ count ih => rw [leBytes, List.length_cons, ih]

variable {value : Nat}

theorem readLe_leBytes {count : Nat} (fits : value < capacity count) :
    readLe (leBytes count value) = value := by
  induction count generalizing value with
  | zero =>
    rw [capacity] at fits
    rw [leBytes, readLe]
    omega
  | succ count ih => ?_
  rw [capacity] at fits
  have rest : value / 256 < capacity count := by omega
  have low : (UInt8.ofNat value).toNat = value % 256 := UInt8.toNat_ofNat'
  rw [leBytes, readLe, ih rest, low]
  omega

theorem readLe_lt (bytes : List UInt8) : readLe bytes < capacity bytes.length := by
  induction bytes with
  | nil => exact Nat.zero_lt_one
  | cons byte rest ih => ?_
  have small := byte.toNat_lt
  rw [readLe, List.length_cons, capacity]
  omega

variable {bytes : List UInt8} {start stop : Nat}

theorem length_slice (inside : stop ≤ bytes.length) :
    (slice bytes start stop).length = stop - start := by
  rw [slice, List.length_take, List.length_drop]
  omega

theorem slice_middle {front part back : List UInt8} {start stop : Nat}
    (starts : start = front.length) (stops : stop = front.length + part.length) :
    slice (front ++ part ++ back) start stop = part := by
  subst starts stops
  rw [slice, List.append_assoc, List.drop_left, Nat.add_sub_cancel_left, List.take_left]

variable {front back : List UInt8}

theorem slice_append_left (inside : stop ≤ front.length) :
    slice (front ++ back) start stop = slice front start stop := by
  by_cases empty : stop ≤ start
  · rw [slice, slice, Nat.sub_eq_zero_of_le empty, List.take_zero, List.take_zero]
  rw [slice, slice, List.drop_append_of_le_length (by omega), List.take_append_of_le_length]
  rw [List.length_drop]
  omega

theorem slice_append_right (behind : front.length ≤ start) : slice (front ++ back) start stop =
      slice back (start - front.length) (stop - front.length) := by
  have gone : front.drop start = [] := List.drop_eq_nil_of_le behind
  have width : stop - front.length - (start - front.length) = stop - start := by omega
  rw [slice, slice, List.drop_append, gone, List.nil_append, width]

theorem slice_slice {lower upper : Nat} (inside : start + upper ≤ stop) :
    slice (slice bytes start stop) lower upper = slice bytes (start + lower) (start + upper) := by
  rw [slice, slice, slice, List.drop_take, List.drop_drop, List.take_take]
  congr 1
  omega

variable {α : Type} {record : α → List UInt8} {width : Nat}

/-- Records of one width stand one behind the other. -/
theorem slice_flatMap (fixed : ∀ item, (record item).length = width) {items : List α} {index : Nat}
    {item : α} (found : items[index]? = some item) :
    slice (items.flatMap record) (index * width) (index * width + width) = record item := by
  induction items generalizing index with
  | nil => cases found
  | cons first rest ih => ?_
  rw [List.flatMap_cons]
  cases index with
  | zero =>
    cases found
    have whole := @slice_middle [] (record item) (rest.flatMap record) 0 width rfl
      (by rw [List.length_nil, fixed, Nat.zero_add])
    rw [Nat.zero_mul, Nat.zero_add]
    exact whole
  | succ index => ?_
  have width_first := fixed first
  have offset : (index + 1) * width = index * width + width := Nat.succ_mul index width
  rw [slice_append_right (by omega), offset, width_first, Nat.add_sub_cancel, Nat.add_sub_cancel]
  exact ih found

theorem length_flatMap_record (fixed : ∀ item, (record item).length = width) (items : List α) :
    (items.flatMap record).length = items.length * width := by
  induction items with
  | nil => rw [List.flatMap_nil, List.length_nil, List.length_nil, Nat.zero_mul]
  | cons first rest ih =>
    rw [List.flatMap_cons, List.length_append, fixed, ih, List.length_cons, Nat.succ_mul,
      Nat.add_comm]

/-! ## Fields -/

def field (bytes : List UInt8) (offset width : Nat) : Option Nat :=
  if offset + width ≤ bytes.length then some (readLe (slice bytes offset (offset + width)))
  else none

variable {offset : Nat}

theorem field_eq_some (inside : offset + width ≤ bytes.length) :
    field bytes offset width = some (readLe (slice bytes offset (offset + width))) :=
  if_pos inside

theorem field_lt (found : field bytes offset width = some value) : value < capacity width := by
  unfold field at found
  split at found
  next inside =>
    cases found
    have bound := readLe_lt (slice bytes offset (offset + width))
    rwa [length_slice inside, Nat.add_sub_cancel_left] at bound
  next => cases found

theorem field_part {front part back : List UInt8} {start offset width : Nat}
    (starts : start = front.length) (inside : offset + width ≤ part.length) :
    field (front ++ part ++ back) (start + offset) width = field part offset width := by
  subst starts
  have within : front.length + offset + width ≤ (front ++ part ++ back).length := by
    rw [List.length_append, List.length_append]
    omega
  have same : slice (front ++ part ++ back) (front.length + offset)
      (front.length + offset + width) = slice part offset (offset + width) := by
    rw [slice_append_left (by rw [List.length_append]; omega),
      slice_append_right (by omega), Nat.add_sub_cancel_left, Nat.add_assoc,
      Nat.add_sub_cancel_left]
  rw [field_eq_some within, field_eq_some inside, same]

theorem field_leBytes {front back : List UInt8} {offset width value : Nat}
    (starts : offset = front.length) : field (front ++ leBytes width value ++ back) offset width =
      some (readLe (leBytes width value)) := by
  have here := @field_part front (leBytes width value) back offset 0 width starts
    (by rw [length_leBytes]; omega)
  rw [Nat.add_zero] at here
  have whole : slice (leBytes width value) 0 (0 + width) = leBytes width value := by
    have all := @slice_middle [] (leBytes width value) [] 0 (0 + width) rfl
      (by rw [List.length_nil, length_leBytes])
    rwa [List.append_nil] at all
  rw [here, field_eq_some (by rw [length_leBytes]; omega), whole]

/-- A field of a record among records of one width. -/
theorem field_record {α : Type} {record : α → List UInt8} {recordWidth : Nat}
    (fixed : ∀ item, (record item).length = recordWidth) {items : List α} {index : Nat} {item : α}
    (found : items[index]? = some item) {front back : List UInt8} {start offset width : Nat}
    (starts : start = front.length) (inside : offset + width ≤ recordWidth) :
    field (front ++ items.flatMap record ++ back) (start + index * recordWidth + offset) width =
      field (record item) offset width := by
  have below := (List.getElem?_eq_some_iff.mp found).1
  have room : index * recordWidth + recordWidth ≤ items.length * recordWidth := by
    rw [← Nat.succ_mul]
    exact Nat.mul_le_mul_right _ below
  have total := length_flatMap_record fixed items
  have part : slice (items.flatMap record) (index * recordWidth + offset)
      (index * recordWidth + offset + width) = slice (record item) offset (offset + width) := by
    rw [← slice_flatMap fixed found, slice_slice (by omega), Nat.add_assoc]
  rw [Nat.add_assoc, field_part starts (by omega), field_eq_some (by omega), part,
    field_eq_some (by rw [fixed]; exact inside)]

def fieldsBytes : List (Nat × Nat) → List UInt8
  | [] => []
  | (width, value) :: rest => leBytes width value ++ fieldsBytes rest

def fieldsWidth : List (Nat × Nat) → Nat
  | [] => 0
  | (width, _) :: rest => width + fieldsWidth rest

theorem length_fieldsBytes (fields : List (Nat × Nat)) :
    (fieldsBytes fields).length = fieldsWidth fields := by
  induction fields with
  | nil => rfl
  | cons first rest ih =>
    obtain ⟨width, value⟩ := first
    rw [fieldsBytes, fieldsWidth, List.length_append, length_leBytes, ih]

theorem fieldsBytes_append (fields others : List (Nat × Nat)) :
    fieldsBytes (fields ++ others) = fieldsBytes fields ++ fieldsBytes others := by
  induction fields with
  | nil => rfl
  | cons first rest ih =>
    obtain ⟨width, value⟩ := first
    rw [List.cons_append, fieldsBytes, fieldsBytes, ih, List.append_assoc]

/-- Each field of a sequence is read as its number. -/
theorem field_fieldsBytes {fields before after : List (Nat × Nat)} {width value : Nat}
    (whole : fields = before ++ (width, value) :: after) (fits : value < capacity width)
    {front : List UInt8} (back : List UInt8) {offset : Nat}
    (starts : offset = front.length + fieldsWidth before) :
    field (front ++ fieldsBytes fields ++ back) offset width = some value := by
  have parts : front ++ fieldsBytes fields ++ back =
      front ++ fieldsBytes before ++ leBytes width value ++ (fieldsBytes after ++ back) := by
    rw [whole, fieldsBytes_append, fieldsBytes]
    simp only [List.append_assoc]
  rw [parts, field_leBytes (by rw [starts, List.length_append, length_fieldsBytes]),
    readLe_leBytes fits]

/-! ## Counting byte strings -/

def rank : List UInt8 → Nat
  | [] => 0
  | byte :: rest => byte.toNat + 1 + 256 * rank rest

def rankBound : Nat → Nat
  | 0 => 0
  | length + 1 => 256 + 256 * rankBound length

theorem rank_injective {left right : List UInt8} (same : rank left = rank right) :
    left = right := by
  induction left generalizing right with
  | nil =>
    cases right with
    | nil => rfl
    | cons byte rest =>
      rw [rank, rank] at same
      omega
  | cons byte rest ih => ?_
  cases right with
  | nil =>
    rw [rank, rank] at same
    omega
  | cons other others => ?_
  rw [rank, rank] at same
  have small := byte.toNat_lt
  have little := other.toNat_lt
  have low : byte = other := UInt8.toNat_inj.mp (by omega)
  have tails : rest = others := ih (by omega)
  rw [low, tails]

theorem rank_le {limit : Nat} (short : bytes.length ≤ limit) : rank bytes ≤ rankBound limit := by
  induction bytes generalizing limit with
  | nil => exact Nat.zero_le _
  | cons byte rest ih => ?_
  cases limit with
  | zero => cases short
  | succ limit => ?_
  have small := byte.toNat_lt
  have below := ih (Nat.le_of_succ_le_succ short)
  rw [rank, rankBound]
  omega

theorem length_short_le {strings : List (List UInt8)} (nodup : strings.Nodup) (limit : Nat) :
    (strings.filter fun bytes => bytes.length ≤ limit).length ≤ rankBound limit + 1 := by
  have ranks : ((strings.filter fun bytes => bytes.length ≤ limit).map rank).Nodup :=
    List.pairwise_map.mpr
      ((nodup.sublist List.filter_sublist).imp fun apart same => apart (rank_injective same))
  have among : (strings.filter fun bytes => bytes.length ≤ limit).map rank ⊆
      List.range (rankBound limit + 1) := by
    intro number member
    obtain ⟨bytes, short, rfl⟩ := List.mem_map.mp member
    have bound := of_decide_eq_true (List.mem_filter.mp short).2
    exact List.mem_range.mpr (Nat.lt_succ_of_le (rank_le bound))
  have count := ranks.length_le_of_subset among
  rwa [List.length_map, List.length_range] at count

/-- Byte strings that are not short take their bytes. -/
theorem length_mul_le (strings : List (List UInt8)) (limit : Nat) :
    strings.length * (limit + 1) ≤ strings.flatten.length +
      (strings.filter fun bytes => bytes.length ≤ limit).length * (limit + 1) := by
  induction strings with
  | nil =>
    rw [List.length_nil, Nat.zero_mul]
    exact Nat.zero_le _
  | cons bytes rest ih => ?_
  rw [List.length_cons, Nat.succ_mul, List.flatten_cons, List.length_append, List.filter_cons]
  by_cases short : bytes.length ≤ limit
  · rw [if_pos (decide_eq_true short), List.length_cons, Nat.succ_mul]
    omega
  rw [if_neg (by rw [decide_eq_true_iff]; exact short)]
  omega

end Wire
