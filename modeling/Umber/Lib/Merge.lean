/-! Merging and sorting by structural recursion, so that closed lists evaluate. -/

set_option autoImplicit false

namespace Merge

variable {α : Type}

/-- Merge a list that starts with `head` into another one. -/
def mergeHead (le : α → α → Bool) (head : α) (mergeTail : List α → List α) : List α → List α
  | [] => head :: mergeTail []
  | other :: rest =>
    if le head other then head :: mergeTail (other :: rest)
    else other :: mergeHead le head mergeTail rest

def merge (le : α → α → Bool) : List α → List α → List α
  | [] => id
  | head :: tail => mergeHead le head (merge le tail)

def sort (le : α → α → Bool) (values : List α) : List α :=
  values.foldr (fun value sorted => merge le [value] sorted) []

variable {le : α → α → Bool} {value : α}
  {head : α} {tail others : List α} {mergeTail : List α → List α}

theorem mem_mergeHead
    (tailMerged : ∀ others, value ∈ mergeTail others ↔ value ∈ tail ∨ value ∈ others) :
    value ∈ mergeHead le head mergeTail others ↔ value ∈ head :: tail ∨ value ∈ others := by
  induction others with
  | nil =>
    unfold mergeHead
    rw [List.mem_cons, List.mem_cons, tailMerged]
    simp only [List.not_mem_nil, or_false]
  | cons other rest ih => ?_
  unfold mergeHead
  split
  · rw [List.mem_cons, tailMerged, List.mem_cons (l := tail), or_assoc]
  rw [List.mem_cons, ih, List.mem_cons, List.mem_cons]
  exact or_left_comm

theorem mem_merge {left right : List α} :
    value ∈ merge le left right ↔ value ∈ left ∨ value ∈ right := by
  induction left generalizing right with
  | nil => simp [merge]
  | cons head tail ih => exact mem_mergeHead fun _ => ih

theorem mem_sort {values : List α} : value ∈ sort le values ↔ value ∈ values := by
  induction values with
  | nil => rfl
  | cons head tail ih =>
    unfold sort at ih ⊢
    rw [List.foldr_cons, mem_merge, ih, List.mem_singleton, List.mem_cons]

theorem mergeHead_perm (merged : ∀ others, (mergeTail others).Perm (tail ++ others)) :
    (mergeHead le head mergeTail others).Perm (head :: (tail ++ others)) := by
  induction others with
  | nil => exact (merged []).cons head
  | cons other rest ih => ?_
  unfold mergeHead
  split
  · exact (merged (other :: rest)).cons head
  · exact (ih.cons other).trans (@List.perm_middle _ other (head :: tail) rest).symm

theorem merge_perm (left right : List α) : (merge le left right).Perm (left ++ right) := by
  induction left generalizing right with
  | nil => exact .refl right
  | cons head tail ih => exact mergeHead_perm ih

theorem sort_perm (values : List α) : (sort le values).Perm values := by
  induction values with
  | nil => exact .refl []
  | cons head tail ih => exact (merge_perm [head] (sort le tail)).trans (ih.cons head)

section Ordered

variable {r : α → α → Prop}

/-- Merging keeps lists in an order that the test decides. -/
theorem pairwise_merge (trans : ∀ a b c, r a b → r b c → r a c)
    (below : ∀ a b, le a b = true → r a b) (above : ∀ a b, le a b = false → r b a)
    {left right : List α} (first : left.Pairwise r) (second : right.Pairwise r) :
    (merge le left right).Pairwise r := by
  induction left generalizing right with
  | nil => exact second
  | cons head tail ih => ?_
  obtain ⟨heads, tails⟩ := List.pairwise_cons.mp first
  induction right with
  | nil =>
    refine List.pairwise_cons.mpr ⟨fun other member => ?_, ih tails second⟩
    rcases mem_merge.mp member with inside | absent
    · exact heads other inside
    · cases absent
  | cons other rest behind => ?_
  obtain ⟨others, rests⟩ := List.pairwise_cons.mp second
  change (mergeHead le head (merge le tail) (other :: rest)).Pairwise r
  unfold mergeHead
  split
  · rename_i less
    have near := below _ _ less
    refine List.pairwise_cons.mpr ⟨fun value member => ?_, ih tails second⟩
    rcases mem_merge.mp member with inside | later
    · exact heads value inside
    rcases List.mem_cons.mp later with rfl | last
    · exact near
    · exact trans _ _ _ near (others value last)
  rename_i notLess
  have near := above _ _ (Bool.eq_false_iff.mpr notLess)
  refine List.pairwise_cons.mpr ⟨fun value member => ?_, behind rests⟩
  have member : value ∈ merge le (head :: tail) rest := member
  rcases mem_merge.mp member with inside | later
  · rcases List.mem_cons.mp inside with rfl | last
    · exact near
    · exact trans _ _ _ near (heads value last)
  · exact others value later

theorem pairwise_sort (trans : ∀ a b c, r a b → r b c → r a c)
    (below : ∀ a b, le a b = true → r a b) (above : ∀ a b, le a b = false → r b a)
    (values : List α) : (sort le values).Pairwise r := by
  induction values with
  | nil => exact .nil
  | cons head tail ih =>
    exact pairwise_merge trans below above (List.pairwise_singleton _ _) ih

end Ordered

end Merge
