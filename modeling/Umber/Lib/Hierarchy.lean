/-! Nodes that inherit from others: each has values of its own, and for the fields that pass on it
takes the first value that one of its parents has. -/

set_option autoImplicit false

structure Hierarchy (Node Field Value : Type) where
  parents : Node → List Node
  own : Node → Field → Option Value
  passes : Field → Bool

namespace Hierarchy

variable {Node Other Field Value : Type}

/-- The paths to ancestors of a node are no longer than a depth, which counts nodes. -/
inductive Within (hierarchy : Hierarchy Node Field Value) : Nat → Node → Prop where
  | node {depth : Nat} {node : Node}
      (parents : ∀ parent ∈ hierarchy.parents node, Within hierarchy depth parent) :
      Within hierarchy (depth + 1) node

/-- What values have to be: a node's own one, or the first among its parents. -/
def Inherits (hierarchy : Hierarchy Node Field Value)
    (values : Node → Field → Option Value) : Prop :=
  ∀ node field, values node field =
    (hierarchy.own node field).or
      (if hierarchy.passes field = true then
        (hierarchy.parents node).findSome? fun parent => values parent field
      else none)

def value (hierarchy : Hierarchy Node Field Value) : Nat → Node → Field → Option Value
  | 0, _, _ => none
  | depth + 1, node, field =>
    (hierarchy.own node field).or
      (if hierarchy.passes field = true then
        (hierarchy.parents node).findSome? fun parent => value hierarchy depth parent field
      else none)

variable {hierarchy : Hierarchy Node Field Value}

theorem findSome?_congr_mem {first second : Node → Option Value} {nodes : List Node}
    (same : ∀ node ∈ nodes, first node = second node) :
    nodes.findSome? first = nodes.findSome? second := by
  induction nodes with
  | nil => rfl
  | cons node nodes smaller =>
    rw [List.findSome?_cons, List.findSome?_cons, same node List.mem_cons_self,
      smaller fun other member => same other (List.mem_cons_of_mem _ member)]

variable {node : Node}

theorem Within.mono {low high : Nat} (le : low ≤ high) (within : hierarchy.Within low node) :
    hierarchy.Within high node := by
  induction within generalizing high with
  | @node depth node _ smaller => ?_
  cases high with
  | zero => exact absurd le (Nat.not_succ_le_zero _)
  | succ high =>
    exact .node fun parent member => smaller parent member (Nat.le_of_succ_le_succ le)

variable {depth : Nat}

theorem value_stable (within : hierarchy.Within depth node) (field : Field) :
    hierarchy.value (depth + 1) node field = hierarchy.value depth node field := by
  induction within with
  | @node depth node parents smaller => ?_
  rw [value, value]
  by_cases passes : hierarchy.passes field = true
  · rw [if_pos passes, if_pos passes,
      findSome?_congr_mem fun parent member => smaller parent member]
  · rw [if_neg passes, if_neg passes]

/-- Where no path is longer than a depth there are inherited values. -/
theorem inherits_value (within : ∀ node, hierarchy.Within depth node) :
    hierarchy.Inherits (hierarchy.value depth) := by
  intro node field
  rw [← value_stable (within node) field]
  rfl

variable {image : Hierarchy Other Field Value} {valid : Node → Prop}

/-- A map between hierarchies that commutes with parents keeps the lengths of paths. -/
theorem Within.map {map : Node → Other}
    (closed : ∀ node, valid node → ∀ parent ∈ hierarchy.parents node, valid parent)
    (parents : ∀ node, valid node → image.parents (map node) = (hierarchy.parents node).map map)
    (within : hierarchy.Within depth node) (starts : valid node) :
    image.Within depth (map node) := by
  induction within with
  | @node depth node _ smaller => ?_
  refine .node fun parent member => ?_
  rw [parents node starts] at member
  obtain ⟨origin, listed, rfl⟩ := List.mem_map.mp member
  exact smaller origin listed (closed node starts origin listed)

/-- A map between hierarchies that commutes with parents and own values takes inherited values to
inherited values. -/
theorem Inherits.eq_map {map : Node → Other} {values : Node → Field → Option Value}
    {imageValues : Other → Field → Option Value} (inherits : hierarchy.Inherits values)
    (imageInherits : image.Inherits imageValues)
    (closed : ∀ node, valid node → ∀ parent ∈ hierarchy.parents node, valid parent)
    (parents : ∀ node, valid node → image.parents (map node) = (hierarchy.parents node).map map)
    (own : ∀ node, valid node → image.own (map node) = hierarchy.own node)
    (passes : image.passes = hierarchy.passes) (within : hierarchy.Within depth node)
    (starts : valid node) (field : Field) : imageValues (map node) field = values node field := by
  induction within with
  | @node depth node _ smaller => ?_
  rw [inherits node field, imageInherits (map node) field, own node starts, passes,
    parents node starts, List.findSome?_map]
  by_cases passing : hierarchy.passes field = true
  · rw [if_pos passing, if_pos passing]
    exact congrArg _ (findSome?_congr_mem fun parent member =>
      smaller parent member (closed node starts parent member))
  · rw [if_neg passing, if_neg passing]

def Parent (hierarchy : Hierarchy Node Field Value) (parent node : Node) : Prop :=
  parent ∈ hierarchy.parents node

theorem Within.acc (within : hierarchy.Within depth node) : Acc hierarchy.Parent node := by
  induction within with
  | node _ smaller => exact ⟨_, smaller⟩

/-- No path from an accessible node upwards comes to a cycle. -/
theorem not_cycle_of_acc (accessible : Acc hierarchy.Parent node) :
    ¬Relation.TransGen hierarchy.Parent node node := by
  induction accessible with
  | intro node _ smaller => ?_
  intro cycle
  cases cycle with
  | single parent => exact smaller node parent (.single parent)
  | tail before last => exact smaller _ last (.trans (.single last) before)

end Hierarchy
