import Mathlib

/-!
# Syntax trees

Nodes with a kind and children in named fields, as `ast` has them, and the walk over all nodes of a tree.
-/
namespace AgentSystem.SyntaxTree

variable {K : Type}

mutual

inductive Node (K : Type)
  | mk (kind : K) (children : Children K)

/-- The children with their fields, in order; a list is a field that comes again. -/
inductive Children (K : Type)
  | nil
  | cons (field : String) (child : Node K) (rest : Children K)

end

def Children.toList : Children K → List (String × Node K)
  | .nil => []
  | .cons field child rest => (field, child) :: rest.toList

def Children.ofList : List (String × Node K) → Children K
  | [] => .nil
  | (field, child) :: rest => .cons field child (ofList rest)

@[simp] lemma Children.toList_ofList (items : List (String × Node K)) : (ofList items).toList = items := by
  induction items with
  | nil => rfl
  | cons item items ih => rw [ofList, toList, ih]

mutual

def Node.height : Node K → ℕ
  | .mk _ children => children.height + 1

def Children.height : Children K → ℕ
  | .nil => 0
  | .cons _ child rest => max child.height rest.height

end

namespace Node

def kind : Node K → K
  | .mk kind _ => kind

def children : Node K → List (String × Node K)
  | .mk _ children => children.toList

/-- `ast.iter_child_nodes`. -/
def childNodes (node : Node K) : List (Node K) := node.children.map Prod.snd

/-- The elements of a field. -/
def fields (node : Node K) (name : String) : List (Node K) :=
  (node.children.filter fun item => item.1 = name).map Prod.snd

/-- The only element of a field, or its first one. -/
def field (node : Node K) (name : String) : Option (Node K) := (node.fields name).head?

def node (kind : K) (items : List (String × Node K)) : Node K := .mk kind (.ofList items)

@[simp] lemma childNodes_node (kind : K) (items : List (String × Node K)) :
    (node kind items).childNodes = items.map Prod.snd := by
  rw [childNodes, node, children, Children.toList_ofList]

end Node

/-- The nodes level by level, at most so many levels. -/
def levels : ℕ → List (Node K) → List (Node K)
  | 0, _ => []
  | n + 1, nodes => nodes ++ levels n (nodes.flatMap Node.childNodes)

/-- `ast.walk`. -/
def walk (root : Node K) : List (Node K) := levels root.height [root]

/-! ## The nodes of a walk -/

lemma height_of_mem_toList : ∀ {children : Children K} {item : String × Node K},
    item ∈ children.toList → item.2.height ≤ children.height
  | .nil, _, h => absurd h List.not_mem_nil
  | .cons field child rest, item, h => by
    rw [Children.height]
    rcases List.mem_cons.mp h with rfl | hrest
    · exact le_max_left _ _
    · exact (height_of_mem_toList hrest).trans (le_max_right _ _)

lemma height_childNodes {node child : Node K} (h : child ∈ node.childNodes) : child.height < node.height := by
  cases node with
  | mk kind children =>
    obtain ⟨item, hitem, rfl⟩ := List.mem_map.mp h
    exact Nat.lt_succ_of_le (height_of_mem_toList hitem)

lemma height_pos (node : Node K) : 0 < node.height := by
  cases node with
  | mk kind children => exact Nat.succ_pos _

lemma mem_levels_of_mem {n : ℕ} {nodes : List (Node K)} (hheight : ∀ node ∈ nodes, node.height ≤ n)
    {node : Node K} (h : node ∈ nodes) : node ∈ levels n nodes := by
  cases n with
  | zero => exact absurd (height_pos node) (Nat.not_lt.mpr (hheight node h))
  | succ n => exact List.mem_append_left _ h

/-- The next level is lower. -/
lemma height_flatMap {n : ℕ} {nodes : List (Node K)} (hheight : ∀ node ∈ nodes, node.height ≤ n + 1) :
    ∀ child ∈ nodes.flatMap Node.childNodes, child.height ≤ n := by
  intro child hchild
  obtain ⟨node, hnode, hmem⟩ := List.mem_flatMap.mp hchild
  exact Nat.le_of_lt_succ ((height_childNodes hmem).trans_le (hheight node hnode))

lemma levels_child {n : ℕ} {nodes : List (Node K)} (hheight : ∀ node ∈ nodes, node.height ≤ n)
    {node child : Node K} (hnode : node ∈ levels n nodes) (hchild : child ∈ node.childNodes) :
    child ∈ levels n nodes := by
  induction n generalizing nodes with
  | zero => cases hnode
  | succ n ih =>
    rw [levels] at hnode ⊢
    apply List.mem_append_right
    rcases List.mem_append.mp hnode with hlevel | hbelow
    · exact mem_levels_of_mem (height_flatMap hheight) (List.mem_flatMap.mpr ⟨node, hlevel, hchild⟩)
    · exact ih (height_flatMap hheight) hbelow

lemma levels_parent {n : ℕ} {nodes : List (Node K)} {node : Node K} (h : node ∈ levels n nodes) :
    node ∈ nodes ∨ ∃ parent ∈ levels n nodes, node ∈ parent.childNodes := by
  induction n generalizing nodes with
  | zero => cases h
  | succ n ih =>
    rw [levels] at h ⊢
    rcases List.mem_append.mp h with hlevel | hbelow
    · exact .inl hlevel
    · rcases ih hbelow with hnext | ⟨parent, hparent, hchild⟩
      · obtain ⟨parent, hparent, hchild⟩ := List.mem_flatMap.mp hnext
        exact .inr ⟨parent, List.mem_append_left _ hparent, hchild⟩
      · exact .inr ⟨parent, List.mem_append_right _ hparent, hchild⟩

variable {root node child : Node K}

lemma root_mem_walk (root : Node K) : root ∈ walk root :=
  mem_levels_of_mem (by simp) (List.mem_singleton_self root)

/-- A walk comes to the children of every node it comes to. -/
lemma mem_walk_child (hnode : node ∈ walk root) (hchild : child ∈ node.childNodes) : child ∈ walk root :=
  levels_child (by simp) hnode hchild

/-- Every node but the root is a child of one the walk comes to. -/
lemma exists_parent (h : node ∈ walk root) (hne : node ≠ root) :
    ∃ parent ∈ walk root, node ∈ parent.childNodes :=
  (levels_parent h).resolve_left fun hroot => hne (List.mem_singleton.mp hroot)

end AgentSystem.SyntaxTree
