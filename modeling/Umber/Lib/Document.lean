/-! Documents that include others: reading one in place, and taking its parts level by level. -/

set_option autoImplicit false

/-- A document, as a list of its entries and of the documents included between them. -/
inductive Document (Name Entry : Type) where
  | done
  | entry (part : Entry) (rest : Document Name Entry)
  | included (name : Name) (inside rest : Document Name Entry)

namespace Document

variable {Name Entry : Type}

/-- The entries with their depths, in the order in which reading in place meets them. -/
def inPlace (depth : Nat) : Document Name Entry → List (Nat × Entry)
  | .done => []
  | .entry part rest => (depth, part) :: rest.inPlace depth
  | .included _ inside rest => inside.inPlace (depth + 1) ++ rest.inPlace depth

def names : Document Name Entry → List Name
  | .done => []
  | .entry _ rest => rest.names
  | .included name inside rest => name :: (inside.names ++ rest.names)

def own : Document Name Entry → List Entry
  | .done => []
  | .entry part rest => part :: rest.own
  | .included _ _ rest => rest.own

def children : Document Name Entry → List (Name × Document Name Entry)
  | .done => []
  | .entry _ rest => rest.children
  | .included name inside rest => (name, inside) :: rest.children

def level : Nat → Document Name Entry → List Entry
  | 0, document => document.own
  | _ + 1, .done => []
  | depth + 1, .entry _ rest => level (depth + 1) rest
  | depth + 1, .included _ inside rest => level depth inside ++ level (depth + 1) rest

def height : Document Name Entry → Nat
  | .done => 1
  | .entry _ rest => rest.height
  | .included _ inside rest => max (inside.height + 1) rest.height

theorem level_zero : level 0 = (own : Document Name Entry → List Entry) := by
  funext document
  cases document <;> rfl

theorem level_succ (depth : Nat) (document : Document Name Entry) :
    document.level (depth + 1) = document.children.flatMap fun child => child.2.level depth := by
  induction document with
  | done => rfl
  | entry part rest smaller => exact smaller
  | included name inside rest _ smaller =>
    rw [level, children, List.flatMap_cons, smaller]

variable {depth : Nat} {document : Document Name Entry} {occurrence : Nat × Entry}

theorem inPlace_depth (member : occurrence ∈ document.inPlace depth) : depth ≤ occurrence.1 := by
  induction document generalizing depth with
  | done => cases member
  | entry part rest smaller =>
    rcases List.mem_cons.mp member with rfl | later
    · exact Nat.le_refl _
    · exact smaller later
  | included name inside rest first smaller => ?_
  rcases List.mem_append.mp member with inner | later
  · exact Nat.le_of_succ_le (first inner)
  · exact smaller later

/-- The entries of one depth, in reading order, are the level at this depth. -/
theorem inPlace_filter (start depth : Nat) (document : Document Name Entry) :
    ((document.inPlace start).filter fun occurrence => occurrence.1 = start + depth).map Prod.snd =
      document.level depth := by
  induction document generalizing start depth with
  | done => cases depth <;> rfl
  | entry part rest smaller =>
    rw [inPlace, List.filter_cons]
    cases depth with
    | zero =>
      have here : decide ((start, part).1 = start + 0) = true := decide_eq_true rfl
      rw [if_pos here, List.map_cons, smaller start 0, level_zero]
      rfl
    | succ depth => ?_
    have apart : ¬ start = start + (depth + 1) := by omega
    rw [if_neg (fun same => apart (of_decide_eq_true same)), smaller start (depth + 1)]
    rfl
  | included name inside rest first smaller => ?_
  rw [inPlace, List.filter_append, List.map_append, smaller start depth]
  cases depth with
  | zero =>
    have none_ : (inside.inPlace (start + 1)).filter
        (fun occurrence => occurrence.1 = start + 0) = [] := by
      refine List.filter_eq_nil_iff.mpr fun occurrence member same => ?_
      have deep := inPlace_depth member
      have equal : occurrence.1 = start + 0 := of_decide_eq_true same
      omega
    rw [none_, level_zero]
    rfl
  | succ depth => ?_
  have shifted := first (start + 1) depth
  rw [Nat.add_right_comm] at shifted
  rw [Nat.add_assoc] at shifted
  rw [shifted]
  rfl

def levels (bound : Nat) (forest : List (Document Name Entry)) : List Entry :=
  (List.range bound).flatMap fun depth => forest.flatMap (level depth)

theorem levels_succ (bound : Nat) (forest : List (Document Name Entry)) :
    levels (bound + 1) forest = forest.flatMap own ++ levels bound (forest.flatMap fun document =>
        document.children.map Prod.snd) := by
  have below : ∀ depth, forest.flatMap (level (depth + 1)) =
      (forest.flatMap fun document => document.children.map Prod.snd).flatMap (level depth) := by
    intro depth
    rw [List.flatMap_assoc]
    refine congrArg (fun step => List.flatMap step forest) ?_
    funext document
    rw [level_succ, List.flatMap_map]
  rw [levels, List.range_succ_eq_map, List.flatMap_cons, List.flatMap_map, level_zero]
  exact congrArg (forest.flatMap own ++ List.flatMap · (List.range bound)) (funext below)

theorem levels_one (bound : Nat) (document : Document Name Entry) :
    levels bound [document] = (List.range bound).flatMap fun depth => document.level depth := by
  unfold levels
  refine congrArg (List.flatMap · (List.range bound)) ?_
  funext depth
  exact List.flatMap_singleton _ _

theorem height_pos (document : Document Name Entry) : 0 < document.height := by
  induction document with
  | done => exact Nat.one_pos
  | entry _ _ smaller => exact smaller
  | included _ _ _ _ smaller => exact Nat.lt_of_lt_of_le smaller (Nat.le_max_right _ _)

theorem inPlace_height (member : occurrence ∈ document.inPlace depth) :
    occurrence.1 < depth + document.height := by
  induction document generalizing depth with
  | done => cases member
  | entry part rest smaller =>
    rcases List.mem_cons.mp member with rfl | later
    · exact Nat.lt_add_of_pos_right (height_pos rest)
    · exact smaller later
  | included name inside rest first smaller => ?_
  rw [height]
  rcases List.mem_append.mp member with inner | later
  · have deep := first inner
    omega
  have deep := smaller later
  omega

/-! ## Sorting by depth -/

def byDepth (bound : Nat) (occurrences : List (Nat × Entry)) : List (Nat × Entry) :=
  (List.range bound).flatMap fun depth =>
    occurrences.filter fun occurrence => occurrence.1 = depth

def Descends (occurrences : List (Nat × Entry)) : Prop :=
  occurrences.Pairwise fun earlier later => earlier.1 ≤ later.1

variable {bound : Nat} {occurrences : List (Nat × Entry)}

theorem mem_byDepth (member : occurrence ∈ byDepth bound occurrences) :
    occurrence ∈ occurrences := by
  obtain ⟨depth, _, found⟩ := List.mem_flatMap.mp member
  exact (List.mem_filter.mp found).1

theorem byDepth_descends (bound : Nat) (occurrences : List (Nat × Entry)) :
    Descends (byDepth bound occurrences) := by
  refine List.pairwise_flatMap.mpr ⟨fun depth _ => ?_, ?_⟩
  · refine List.pairwise_of_forall_mem_list fun earlier first later second => ?_
    have left := of_decide_eq_true (List.mem_filter.mp first).2
    have right := of_decide_eq_true (List.mem_filter.mp second).2
    exact Nat.le_of_eq (left.trans right.symm)
  refine List.pairwise_lt_range.imp fun {low high} below earlier first later second => ?_
  rw [of_decide_eq_true (List.mem_filter.mp first).2,
    of_decide_eq_true (List.mem_filter.mp second).2]
  exact Nat.le_of_lt below

theorem filter_here {first : Nat × Entry} {depth : Nat} (same : first.1 = depth)
    (rest : List (Nat × Entry)) : ((first :: rest).filter fun occurrence => occurrence.1 = depth) =
      first :: rest.filter fun occurrence => occurrence.1 = depth := by
  rw [List.filter_cons, if_pos (decide_eq_true same)]

theorem filter_apart {first : Nat × Entry} {depth : Nat} (apart : first.1 ≠ depth)
    (rest : List (Nat × Entry)) : ((first :: rest).filter fun occurrence => occurrence.1 = depth) =
      rest.filter fun occurrence => occurrence.1 = depth := by
  rw [List.filter_cons, if_neg fun same => apart (of_decide_eq_true same)]

/-- A first occurrence that none is above of stays the first one. -/
theorem flatMap_filter_cons {depths : List Nat} (ascending : depths.Pairwise (· < ·))
    {first : Nat × Entry} {rest : List (Nat × Entry)} (listed : first.1 ∈ depths)
    (least : ∀ later ∈ rest, first.1 ≤ later.1) :
    (depths.flatMap fun depth => (first :: rest).filter fun occurrence => occurrence.1 = depth) =
      first :: depths.flatMap fun depth => rest.filter fun occurrence => occurrence.1 = depth := by
  induction depths with
  | nil => cases listed
  | cons depth depths smaller => ?_
  obtain ⟨below, ascends⟩ := List.pairwise_cons.mp ascending
  rw [List.flatMap_cons, List.flatMap_cons]
  by_cases here : first.1 = depth
  · have elsewhere : (depths.flatMap fun depth =>
        (first :: rest).filter fun occurrence => occurrence.1 = depth) =
        depths.flatMap fun depth => rest.filter fun occurrence => occurrence.1 = depth := by
      refine congrArg List.flatten (List.map_congr_left fun other member => ?_)
      have apart : first.1 ≠ other := Nat.ne_of_lt (here ▸ below other member)
      exact filter_apart apart rest
    rw [elsewhere, filter_here here rest]
    rfl
  have later : first.1 ∈ depths := by
    rcases List.mem_cons.mp listed with same | later
    · exact absurd same here
    · exact later
  have empty : rest.filter (fun occurrence => occurrence.1 = depth) = [] := by
    refine List.filter_eq_nil_iff.mpr fun occurrence member same => ?_
    have equal : occurrence.1 = depth := of_decide_eq_true same
    have bound := least occurrence member
    have less := below first.1 later
    omega
  rw [filter_apart here rest, empty, List.nil_append, List.nil_append, smaller ascends later]

theorem byDepth_of_descends (within : ∀ occurrence ∈ occurrences, occurrence.1 < bound)
    (descends : Descends occurrences) : byDepth bound occurrences = occurrences := by
  induction occurrences with
  | nil => exact List.flatMap_eq_nil_iff.mpr fun _ _ => rfl
  | cons first rest smaller => ?_
  obtain ⟨least, ordered⟩ := List.pairwise_cons.mp descends
  rw [byDepth, flatMap_filter_cons List.pairwise_lt_range
    (List.mem_range.mpr (within first List.mem_cons_self)) least]
  exact congrArg (first :: ·)
    (smaller (fun occurrence member => within occurrence (List.mem_cons_of_mem _ member))
      ordered)

/-- Where entries are told apart by what a function gives for them, sorting by depth leaves that
as it is only if depths never decrease. -/
theorem descends_of_map_byDepth {Key : Type} {key : Nat × Entry → Key}
    (distinct : (occurrences.map key).Nodup)
    (same : (byDepth bound occurrences).map key = occurrences.map key) : Descends occurrences := by
  have injective : ∀ (index : Nat) (one other : Nat × Entry), occurrences[index]? = some other →
      one ∈ occurrences → key one = key other → one = other := by
    intro index one other found member equal
    obtain ⟨place, inside, located⟩ := List.getElem_of_mem member
    have keys : (occurrences.map key)[place]? = (occurrences.map key)[index]? := by
      rw [List.getElem?_map, List.getElem?_map, found, List.getElem?_eq_getElem inside, located,
        Option.map_some, Option.map_some, equal]
    have places := (List.getElem?_inj (by rw [List.length_map]; exact inside) distinct).mp keys
    rw [← places, List.getElem?_eq_getElem inside, located] at found
    cases found
    rfl
  have whole : byDepth bound occurrences = occurrences := by
    refine List.ext_getElem? fun index => ?_
    have keys : ((byDepth bound occurrences).map key)[index]? = (occurrences.map key)[index]? := by
      rw [same]
    rw [List.getElem?_map, List.getElem?_map] at keys
    cases sorted : (byDepth bound occurrences)[index]? with
    | none =>
      rw [sorted] at keys
      exact (Option.map_eq_none_iff.mp keys.symm).symm
    | some one => ?_
    rw [sorted] at keys
    obtain ⟨other, found, equal⟩ := Option.map_eq_some_iff.mp keys.symm
    rw [found, injective index one other found
      (mem_byDepth (List.mem_of_getElem? sorted)) equal.symm]
  rw [← whole]
  exact byDepth_descends bound occurrences

def Settled (bound : Nat) (occurrences : List (Nat × Entry)) : Prop :=
  (byDepth bound occurrences).map Prod.snd = occurrences.map Prod.snd

theorem settled_iff_descends (within : ∀ occurrence ∈ occurrences, occurrence.1 < bound)
    (distinct : (occurrences.map Prod.snd).Nodup) :
    Settled bound occurrences ↔ Descends occurrences := by
  constructor
  · exact descends_of_map_byDepth distinct
  intro descends
  rw [Settled, byDepth_of_descends within descends]

theorem levels_eq_byDepth (document : Document Name Entry) : levels document.height [document] =
      (byDepth document.height (document.inPlace 0)).map Prod.snd := by
  rw [levels_one, byDepth, List.map_flatMap]
  refine congrArg (List.flatMap · (List.range document.height)) ?_
  funext depth
  have level := inPlace_filter 0 depth document
  rw [Nat.zero_add] at level
  exact level.symm

/-! ## Picking from entries -/

section

variable {Key : Type} (pick : Entry → Option Key)

def picked (occurrences : List (Nat × Entry)) : List (Nat × Key) :=
  occurrences.filterMap fun occurrence => (pick occurrence.2).map (Prod.mk occurrence.1)

theorem picked_cons (first : Nat × Entry) (rest : List (Nat × Entry)) :
    picked pick (first :: rest) =
      ((pick first.2).map (Prod.mk first.1)).toList ++ picked pick rest := by
  unfold picked
  rw [List.filterMap_cons]
  cases pick first.2 <;> rfl

theorem picked_snd (occurrences : List (Nat × Entry)) :
    (picked pick occurrences).map Prod.snd = (occurrences.map Prod.snd).filterMap pick := by
  induction occurrences with
  | nil => rfl
  | cons first rest smaller =>
    rw [picked_cons, List.map_append, smaller, List.map_cons, List.filterMap_cons]
    cases pick first.2 <;> rfl

theorem picked_within {bound : Nat} {occurrences : List (Nat × Entry)}
    (within : ∀ occurrence ∈ occurrences, occurrence.1 < bound) :
    ∀ occurrence ∈ picked pick occurrences, occurrence.1 < bound := by
  intro occurrence member
  obtain ⟨whole, listed, taken⟩ := List.mem_filterMap.mp member
  obtain ⟨key, _, rfl⟩ := Option.map_eq_some_iff.mp taken
  exact within whole listed

theorem picked_filter (depth : Nat) (occurrences : List (Nat × Entry)) :
    picked pick (occurrences.filter fun occurrence => occurrence.1 = depth) =
      (picked pick occurrences).filter fun occurrence => occurrence.1 = depth := by
  induction occurrences with
  | nil => rfl
  | cons first rest smaller => ?_
  rw [picked_cons, List.filter_append]
  by_cases here : first.1 = depth
  · rw [filter_here here, picked_cons, smaller]
    cases pick first.2 with
    | none => rfl
    | some key =>
      exact congrArg (· ++ _) (@filter_here _ (first.1, key) _ here []).symm
  rw [filter_apart here, smaller]
  cases pick first.2 with
  | none => rfl
  | some key =>
    exact congrArg (· ++ _) (@filter_apart _ (first.1, key) _ here []).symm

theorem byDepth_picked (bound : Nat) (occurrences : List (Nat × Entry)) :
    byDepth bound (picked pick occurrences) = picked pick (byDepth bound occurrences) := by
  have gathered : picked pick (byDepth bound occurrences) =
      (List.range bound).flatMap fun depth =>
        picked pick (occurrences.filter fun occurrence => occurrence.1 = depth) := by
    rw [picked, byDepth, List.filterMap_flatMap]
    rfl
  rw [gathered]
  exact congrArg List.flatten
    (List.map_congr_left fun depth _ => (picked_filter pick depth occurrences).symm)

end

/-! ## Taking documents from a queue -/

def allNames (forest : List (Name × Document Name Entry)) : List Name :=
  forest.flatMap fun named => named.1 :: named.2.names

theorem allNames_children (document : Document Name Entry) :
    allNames document.children = document.names := by
  induction document with
  | done => rfl
  | entry part rest smaller => exact smaller
  | included name inside rest _ smaller =>
    rw [allNames, children, List.flatMap_cons, names]
    exact congrArg (fun rest => name :: (inside.names ++ rest)) smaller

theorem allNames_append (one other : List (Name × Document Name Entry)) :
    allNames (one ++ other) = allNames one ++ allNames other :=
  List.flatMap_append

/-- With the first document of a queue taken, and those it includes behind the others, the same
names are there but its own. -/
theorem allNames_cons_perm (named : Name × Document Name Entry)
    (queue : List (Name × Document Name Entry)) :
    (allNames (named :: queue)).Perm (named.1 :: allNames (queue ++ named.2.children)) := by
  rw [allNames_append, allNames_children, allNames, List.flatMap_cons, List.cons_append]
  exact List.Perm.cons _ List.perm_append_comm

/-- The entries of documents taken from a queue that their included documents go to the end of. -/
def queued : Nat → List (Name × Document Name Entry) → List Entry
  | 0, _ => []
  | _ + 1, [] => []
  | fuel + 1, (_, document) :: queue =>
    document.own ++ queued fuel (queue ++ document.children)

theorem children_height : ∀ child ∈ document.children, child.2.height + 1 ≤ document.height := by
  induction document with
  | done => exact fun child member => by cases member
  | entry part rest smaller => exact smaller
  | included name inside rest _ smaller => ?_
  intro child member
  rw [height]
  rcases List.mem_cons.mp member with rfl | later
  · exact Nat.le_max_left _ _
  · exact Nat.le_trans (smaller child later) (Nat.le_max_right _ _)

theorem queued_eq_levels {fuel bound : Nat} {here next : List (Name × Document Name Entry)}
    (enough : (allNames (here ++ next)).length ≤ fuel)
    (heights : ∀ named ∈ here, named.2.height ≤ bound + 1)
    (nextHeights : ∀ named ∈ next, named.2.height ≤ bound) : queued fuel (here ++ next) =
      (here.flatMap fun named => named.2.own) ++
        levels bound ((next ++ here.flatMap fun named => named.2.children).map Prod.snd) := by
  induction fuel generalizing bound here next with
  | zero =>
    cases here with
    | cons first here => exact absurd enough (Nat.not_succ_le_zero _)
    | nil => ?_
    cases next with
    | cons first next => exact absurd enough (Nat.not_succ_le_zero _)
    | nil => exact (List.flatMap_eq_nil_iff.mpr fun _ _ => rfl).symm
  | succ fuel smaller => ?_
  have less : ∀ (named : Name × Document Name Entry)
      (queue : List (Name × Document Name Entry)),
      (allNames (named :: queue)).length ≤ fuel + 1 →
        (allNames (queue ++ named.2.children)).length ≤ fuel := by
    intro named queue within
    rw [(allNames_cons_perm named queue).length_eq] at within
    exact Nat.le_of_succ_le_succ within
  cases here with
  | cons first here =>
    have rest := @smaller bound here (next ++ first.2.children)
      (by rw [← List.append_assoc]; exact less first (here ++ next) enough)
      (fun named member => heights named (List.mem_cons_of_mem _ member))
      (fun named member => by
        rcases List.mem_append.mp member with earlier | child
        · exact nextHeights named earlier
        have deep := children_height named child
        have whole := heights first List.mem_cons_self
        omega)
    rw [List.cons_append, queued, List.append_assoc, rest, List.flatMap_cons,
      List.flatMap_cons, List.append_assoc, List.append_assoc]
  | nil => ?_
  cases next with
  | nil => exact (List.flatMap_eq_nil_iff.mpr fun _ _ => rfl).symm
  | cons first next => ?_
  cases bound with
  | zero =>
    exact absurd (nextHeights first List.mem_cons_self) (Nat.not_le.mpr (height_pos first.2))
  | succ bound => ?_
  have rest := @smaller bound next first.2.children (less first next enough)
    (fun named member => nextHeights named (List.mem_cons_of_mem _ member))
    (fun named child => by
      have deep := children_height named child
      have whole := nextHeights first List.mem_cons_self
      omega)
  rw [List.nil_append, queued, rest, List.flatMap_nil, List.nil_append,
    List.flatMap_nil, List.append_nil, levels_succ, List.map_cons,
    List.flatMap_cons, List.flatMap_cons, List.append_assoc, List.map_append,
    List.map_flatMap, List.flatMap_map, List.flatMap_map]

end Document
