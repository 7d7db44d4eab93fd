import Umber.Lib.Except
import Umber.Lib.LinearProbing
import Umber.State.FrozenLookup

/-! Keys find their buckets, and are found again. -/

set_option autoImplicit false

namespace Umber.FrozenLookup

open ExceptLib LinearProbing

/-! ## The order of keys -/

theorem keyLe_total (left right : Key) : keyLe left right = true ∨ keyLe right left = true := by
  induction left generalizing right with
  | nil => exact .inl rfl
  | cons byte rest ih => ?_
  cases right with
  | nil => exact .inr rfl
  | cons other others => ?_
  rcases Nat.lt_trichotomy byte.toNat other.toNat with less | same | more
  · exact .inl (if_pos less)
  · simp only [keyLe, same, Nat.lt_irrefl, if_false]
    exact ih others
  · exact .inr (if_pos more)

theorem keyLe_trans {first second third : Key} (low : keyLe first second = true)
    (high : keyLe second third = true) : keyLe first third = true := by
  induction first generalizing second third with
  | nil => rfl
  | cons byte rest ih => ?_
  cases second with
  | nil => cases low
  | cons other others => ?_
  cases third with
  | nil => cases high
  | cons last lasts =>
    simp only [keyLe] at low high ⊢
    grind

theorem keyLe_antisymm {left right : Key} (low : keyLe left right = true)
    (high : keyLe right left = true) : left = right := by
  induction left generalizing right with
  | nil =>
    cases right with
    | nil => rfl
    | cons other others => cases high
  | cons byte rest ih => ?_
  cases right with
  | nil => cases low
  | cons other others => ?_
  simp only [keyLe] at low high
  by_cases less : byte.toNat < other.toNat
  · rw [if_neg (by omega), if_pos less] at high
    cases high
  rw [if_neg less] at low
  by_cases more : other.toNat < byte.toNat
  · rw [if_pos more] at low
    cases low
  rw [if_neg more] at low
  rw [if_neg more, if_neg less] at high
  have bytes : byte = other := UInt8.toNat_inj.mp (by omega)
  rw [bytes, ih low high]

theorem sortEntries_perm (entries : List (Key × Nat)) : (sortEntries entries).Perm entries :=
  List.mergeSort_perm _ _

theorem sortEntries_sorted (entries : List (Key × Nat)) :
    (sortEntries entries).Pairwise fun left right => keyLe left.1 right.1 = true := by
  have transitive : ∀ first second third : Key × Nat, keyLe first.1 second.1 = true →
      keyLe second.1 third.1 = true → keyLe first.1 third.1 = true :=
    fun _ _ _ => keyLe_trans
  have total : ∀ left right : Key × Nat,
      (keyLe left.1 right.1 || keyLe right.1 left.1) = true :=
    fun left right => (Bool.or_eq_true ..).mpr (keyLe_total left.1 right.1)
  exact List.pairwise_mergeSort transitive total entries

variable {entries : List (Key × Nat)}

theorem sortEntries_of_sorted
    (sorted : entries.Pairwise fun left right => keyLe left.1 right.1 = true) :
    sortEntries entries = entries :=
  List.mergeSort_of_pairwise sorted

theorem nodup_of_no_neighbours
    (sorted : entries.Pairwise fun left right => keyLe left.1 right.1 = true)
    (distinct : anyNeighbours (fun left right => left.1 = right.1) entries = false) :
    (entries.map Prod.fst).Nodup := by
  induction entries with
  | nil => exact List.nodup_nil
  | cons first rest ih => ?_
  obtain ⟨below, sortedRest⟩ := List.pairwise_cons.mp sorted
  cases rest with
  | nil => exact List.nodup_cons.mpr ⟨List.not_mem_nil, List.nodup_nil⟩
  | cons second later => ?_
  simp only [anyNeighbours, Bool.or_eq_false_iff, decide_eq_false_iff_not] at distinct
  refine List.nodup_cons.mpr ⟨fun member => ?_, ih sortedRest distinct.2⟩
  obtain ⟨other, present, same⟩ := List.mem_map.mp member
  have low := below second List.mem_cons_self
  rcases List.mem_cons.mp present with rfl | behind
  · exact distinct.1 same.symm
  have high := (List.pairwise_cons.mp sortedRest).1 other behind
  rw [same] at high
  exact distinct.1 (keyLe_antisymm low high)

theorem no_neighbours_of_nodup (nodup : (entries.map Prod.fst).Nodup) :
    anyNeighbours (fun left right => left.1 = right.1) entries = false := by
  induction entries with
  | nil => rfl
  | cons first rest ih => ?_
  obtain ⟨fresh, nodupRest⟩ := List.nodup_cons.mp nodup
  cases rest with
  | nil => rfl
  | cons second later => ?_
  rw [anyNeighbours, ih nodupRest, Bool.or_false]
  refine decide_eq_false fun same => fresh ?_
  exact List.mem_map.mpr ⟨second, List.mem_cons_self, same.symm⟩

/-! ## The number of buckets -/

theorem and_mask {size : Nat} (power : size.isPowerOfTwo) (value : Nat) :
    value &&& (size - 1) = value % size := by
  obtain ⟨exponent, rfl⟩ := power
  exact Nat.and_two_pow_sub_one_eq_mod value exponent

variable {size : Nat}

theorem isPowerOfTwo_double (power : size.isPowerOfTwo) : (size * 2).isPowerOfTwo :=
  Nat.isPowerOfTwo_mul_two_of_isPowerOfTwo power

def doubled : Nat → Nat → Nat
  | 0, buckets => buckets
  | rounds + 1, buckets => doubled rounds (buckets * 2)

structure EnoughBuckets (entryCount buckets : Nat) : Prop where
  power : buckets.isPowerOfTwo
  least : 8 ≤ buckets
  room : entryCount * 4 ≤ buckets * 3

variable {rounds : Nat}

theorem bucketCountFrom_ok {entryCount buckets : Nat} (small : entryCount ≤ 4294967295)
    (power : buckets.isPowerOfTwo) (least : 8 ≤ buckets) (bounded : buckets ≤ 17179869184)
    (enough : entryCount * 4 ≤ doubled rounds buckets * 3) :
    ∃ count, bucketCountFrom entryCount (rounds + 1) buckets = .ok count ∧
      EnoughBuckets entryCount count ∧ (count = buckets ∨ count * 3 < entryCount * 8) := by
  induction rounds generalizing buckets with
  | zero =>
    rw [doubled] at enough
    rw [bucketCountFrom, checkedSize, if_pos (by omega), ok_bind, if_neg (by omega)]
    exact ⟨buckets, rfl, ⟨power, least, enough⟩, .inl rfl⟩
  | succ rounds ih => ?_
  rw [bucketCountFrom, checkedSize, if_pos (by omega), ok_bind]
  by_cases few : buckets * 3 < entryCount * 4
  · rw [if_pos few, checkedSize, if_pos (by omega), ok_bind]
    obtain ⟨count, found, spec, last⟩ :=
      ih (isPowerOfTwo_double power) (by omega) (by omega) enough
    refine ⟨count, found, spec, .inr ?_⟩
    rcases last with rfl | less
    · omega
    · exact less
  rw [if_neg few]
  exact ⟨buckets, rfl, ⟨power, least, Nat.not_lt.mp few⟩, .inl rfl⟩

theorem bucketCount_ok {entryCount : Nat} (small : entryCount ≤ 4294967295) :
    ∃ count, bucketCount entryCount = .ok count ∧ EnoughBuckets entryCount count ∧
      (count = 8 ∨ count * 3 < entryCount * 8) := by
  have most : doubled 63 8 = 73786976294838206464 := by decide
  exact bucketCountFrom_ok small ⟨3, rfl⟩ (Nat.le_refl 8) (by decide) (by rw [most]; omega)

/-! ## Placing keys -/

def homeOf (keys : List Key) (size entry : Nat) : Nat := (hash (keys.getD entry [])).toNat % size

theorem homeOf_lt (positive : 0 < size) (keys : List Key) (entry : Nat) :
    homeOf keys size entry < size := Nat.mod_lt _ positive

variable {buckets : Buckets} {bucket : Nat}

theorem freeBucket_eq (power : buckets.length.isPowerOfTwo) {slot : Nat}
    (inside : bucket < buckets.length)
    (found : probe Option.isNone buckets rounds bucket = some slot) :
    freeBucket buckets rounds bucket = .ok slot := by
  have positive : 0 < buckets.length := Nat.pos_of_isPowerOfTwo power
  induction rounds generalizing bucket with
  | zero => cases found
  | succ rounds ih => ?_
  rw [probe] at found
  unfold freeBucket
  cases present : buckets[bucket]? with
  | none => exact absurd (List.getElem?_eq_none_iff.mp present) (Nat.not_le.mpr inside)
  | some bucketItem => ?_
  rw [present] at found
  cases bucketItem with
  | none =>
    rw [Option.any_some, Option.isNone_none, if_pos rfl] at found
    cases found
    rfl
  | some entry => ?_
  rw [Option.any_some, Option.isNone_some, if_neg Bool.false_ne_true] at found
  simp only [and_mask power]
  exact ih (Nat.mod_lt _ positive) found

/-- The next entry finds a free bucket behind filled ones. -/
theorem place_next {keys : List Key} {count : Nat} (power : buckets.length.isPowerOfTwo)
    (placed : Placed (homeOf keys buckets.length) (List.range count) buckets)
    (room : count < buckets.length) :
    ∃ slot, freeBucket buckets buckets.length (homeOf keys buckets.length count) = .ok slot ∧
      Placed (homeOf keys buckets.length) (List.range (count + 1))
        (buckets.set slot (some count)) := by
  have positive : 0 < buckets.length := Nat.pos_of_isPowerOfTwo power
  have inside := homeOf_lt positive keys count
  obtain ⟨free, empty⟩ := placed.exists_free (by rw [List.length_range]; exact room)
  obtain ⟨distance, near, found, here, behind⟩ := probe_free inside empty
  refine ⟨_, freeBucket_eq power inside found, ?_⟩
  rw [List.range_succ]
  refine placed.insert ?_ near here behind
  exact fun member => absurd (List.mem_range.mp member) (Nat.lt_irrefl count)

theorem placeKeys_ok {keys done rest : List Key} {filling : Filling} {size : Nat}
    (whole : keys = done ++ rest) (length : filling.buckets.length = size)
    (power : size.isPowerOfTwo) (room : keys.length < size)
    (placed : Placed (homeOf keys size) (List.range done.length) filling.buckets) :
    ∃ filled, placeKeys filling done.length rest = .ok filled ∧ filled.buckets.length = size ∧
      Placed (homeOf keys size) (List.range keys.length) filled.buckets := by
  induction rest generalizing done filling with
  | nil =>
    rw [List.append_nil] at whole
    subst whole
    exact ⟨filling, rfl, length, placed⟩
  | cons key rest ih => ?_
  subst length
  have member : keys.getD done.length [] = key := by
    rw [whole, List.getD_eq_getElem?_getD, List.getElem?_append_right (Nat.le_refl _), Nat.sub_self]
    rfl
  have home : (hash key).toNat &&& (filling.buckets.length - 1) =
      homeOf keys filling.buckets.length done.length := by
    rw [and_mask power, homeOf, member]
  have some : done.length < filling.buckets.length := by
    have count := congrArg List.length whole
    rw [List.length_append, List.length_cons] at count
    omega
  obtain ⟨slot, found, next⟩ := place_next power placed some
  have longer : done.length + 1 = (done ++ [key]).length := by
    rw [List.length_append]
    rfl
  simp only [placeKeys, home, found, ok_bind]
  rw [longer] at next ⊢
  refine ih ?_ (List.length_set ..) next
  rw [whole, List.append_assoc]
  rfl

theorem placeKeys_empty {keys : List Key} {size : Nat} (power : size.isPowerOfTwo)
    (room : keys.length < size) :
    ∃ filled, placeKeys ⟨List.replicate size none, 0⟩ 0 keys = .ok filled ∧
      filled.buckets.length = size ∧
      Placed (homeOf keys size) (List.range keys.length) filled.buckets :=
  @placeKeys_ok keys [] keys ⟨List.replicate size none, 0⟩ size rfl List.length_replicate power
    room (placed_empty _ size)

/-! ## Finding keys -/

theorem keyMatches_iff (tag : UInt8) (spelling key : Key) :
    keyMatches tag spelling key = true ↔ key = tag :: spelling := by
  unfold keyMatches
  rw [Bool.and_eq_true, decide_eq_true_iff, decide_eq_true_iff]
  constructor
  · rintro ⟨head, tail⟩
    cases key with
    | nil => cases head
    | cons byte rest => ?_
    cases head
    rw [← tail]
    rfl
  rintro rfl
  exact ⟨rfl, rfl⟩

variable {table : FrozenLookup}

theorem findFrom_eq (power : table.buckets.length.isPowerOfTwo)
    (inTable : ∀ (slot : Nat) entry, table.buckets[slot]? = some (some entry) →
      ∃ key target, table.keys[entry]? = some key ∧ table.targets[entry]? = some target)
    (tag : UInt8) (spelling : Key) (inside : bucket < table.buckets.length) :
    findFrom table tag spelling rounds bucket = .ok ((probe (fun bucket => bucket.all fun entry =>
          keyMatches tag spelling (table.keys.getD entry [])) table.buckets rounds bucket).bind
        fun slot => (table.buckets[slot]?.join).bind fun entry => table.targets[entry]?) := by
  have positive : 0 < table.buckets.length := Nat.pos_of_isPowerOfTwo power
  induction rounds generalizing bucket with
  | zero => rfl
  | succ rounds ih => ?_
  unfold findFrom
  rw [probe]
  cases present : table.buckets[bucket]? with
  | none => exact absurd (List.getElem?_eq_none_iff.mp present) (Nat.not_le.mpr inside)
  | some item => ?_
  cases item with
  | none =>
    rw [Option.any_some, Option.all_none, if_pos rfl, Option.bind_some, present]
    rfl
  | some entry => ?_
  obtain ⟨key, target, keyAt, targetAt⟩ := inTable bucket entry present
  have keyed : table.keys.getD entry [] = key := by
    rw [List.getD_eq_getElem?_getD, keyAt]
    rfl
  simp only [keyAt, targetAt, Option.any_some, Option.all_some, keyed]
  by_cases same : keyMatches tag spelling key = true
  · rw [if_pos same, if_pos same, Option.bind_some, present]
    exact congrArg _ targetAt.symm
  rw [if_neg same, if_neg same, and_mask power]
  exact ih (Nat.mod_lt _ positive)

structure TableOf (entries : List (Key × Nat)) (table : FrozenLookup) : Prop where
  keys : table.keys = entries.map Prod.fst
  targets : table.targets = entries.map Prod.snd
  nodup : (entries.map Prod.fst).Nodup
  power : table.buckets.length.isPowerOfTwo
  placed : Placed (homeOf table.keys table.buckets.length) (List.range entries.length)
    table.buckets

structure Finds (entries : List (Key × Nat)) (table : FrozenLookup) : Prop where
  present : ∀ tag spelling target, (tag :: spelling, target) ∈ entries →
    getPrefixed table tag spelling = .ok (some target)
  absent : ∀ tag spelling, (∀ target, (tag :: spelling, target) ∉ entries) →
    getPrefixed table tag spelling = .ok none

theorem TableOf.entry (holds : TableOf entries table) {index : Nat} {key : Key} {target : Nat}
    (found : entries[index]? = some (key, target)) :
    table.keys[index]? = some key ∧ table.targets[index]? = some target := by
  rw [holds.keys, holds.targets, List.getElem?_map, List.getElem?_map, found]
  exact ⟨rfl, rfl⟩

theorem TableOf.inTable (holds : TableOf entries table) (slot entry : Nat)
    (found : table.buckets[slot]? = some (some entry)) :
    ∃ key target, table.keys[entry]? = some key ∧ table.targets[entry]? = some target := by
  have below := List.mem_range.mp (holds.placed.members slot entry found)
  have here := List.getElem?_eq_getElem below
  exact ⟨_, _, holds.entry here⟩

theorem TableOf.getPrefixed_eq (holds : TableOf entries table) (tag : UInt8) (spelling : Key) :
    getPrefixed table tag spelling = .ok ((probe (fun bucket => bucket.all fun entry =>
          keyMatches tag spelling (table.keys.getD entry [])) table.buckets table.buckets.length
          ((hash (tag :: spelling)).toNat % table.buckets.length)).bind
        fun slot => (table.buckets[slot]?.join).bind fun entry => table.targets[entry]?) := by
  have positive : 0 < table.buckets.length := Nat.pos_of_isPowerOfTwo holds.power
  have same : (hash (tag :: spelling)).toNat % table.buckets.length =
      (hash (tag :: spelling)).toNat &&& (table.buckets.length - 1) :=
    (and_mask holds.power _).symm
  have inside : (hash (tag :: spelling)).toNat &&& (table.buckets.length - 1) <
      table.buckets.length := by
    rw [and_mask holds.power]
    exact Nat.mod_lt _ positive
  rw [same]
  exact findFrom_eq holds.power holds.inTable tag spelling inside

theorem TableOf.finds (holds : TableOf entries table) : Finds entries table where
  present := by
    intro tag spelling target member
    have positive : 0 < table.buckets.length := Nat.pos_of_isPowerOfTwo holds.power
    obtain ⟨index, found⟩ := List.getElem?_of_mem member
    obtain ⟨keyAt, targetAt⟩ := holds.entry found
    have keyed : table.keys.getD index [] = tag :: spelling := by
      rw [List.getD_eq_getElem?_getD, keyAt]
      rfl
    have below : index < entries.length := (List.getElem?_eq_some_iff.mp found).1
    have only : ∀ other ∈ List.range entries.length,
        keyMatches tag spelling (table.keys.getD other []) = true → other = index := by
      intro other inside same
      have bound := List.mem_range.mp inside
      have there := List.getElem?_eq_getElem bound
      have otherKey := (holds.entry there).1
      rw [List.getD_eq_getElem?_getD, otherKey, Option.getD_some, keyMatches_iff] at same
      rw [same] at otherKey
      rw [holds.keys] at otherKey keyAt
      exact (List.getElem?_inj (by rw [List.length_map]; exact bound) holds.nodup).mp
        (otherKey.trans keyAt.symm)
    obtain ⟨slot, stops, here⟩ := holds.placed.probe_item (List.mem_range.mpr below)
      ((keyMatches_iff _ _ _).mpr keyed) only (homeOf_lt positive _ _)
    rw [homeOf, keyed] at stops
    rw [holds.getPrefixed_eq, stops, Option.bind_some, here]
    exact congrArg _ targetAt
  absent := by
    intro tag spelling missing
    have none : ∀ entry ∈ List.range entries.length,
        keyMatches tag spelling (table.keys.getD entry []) = false := by
      intro entry inside
      have below := List.mem_range.mp inside
      have here := List.getElem?_eq_getElem below
      have keyAt := (holds.entry here).1
      rw [List.getD_eq_getElem?_getD, keyAt, Option.getD_some]
      refine Bool.eq_false_iff.mpr fun same => ?_
      have key := (keyMatches_iff _ _ _).mp same
      refine missing entries[entry].2 ?_
      rw [← key]
      exact List.mem_of_getElem? here
    rw [holds.getPrefixed_eq]
    cases stops : probe (fun bucket => bucket.all fun entry =>
      keyMatches tag spelling (table.keys.getD entry [])) table.buckets table.buckets.length
      ((hash (tag :: spelling)).toNat % table.buckets.length) with
    | none => rfl
    | some slot => ?_
    have free := holds.placed.probe_missing none _ _ stops
    rw [Option.bind_some, free]
    rfl

end Umber.FrozenLookup
