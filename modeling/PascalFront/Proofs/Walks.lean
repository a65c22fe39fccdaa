-- Walking through a tree. A walk keeps a stack of the trees that are still to
-- come. Each turn takes the top one away and puts its children in its place, so
-- the stack loses one node with each turn, and what is seen in the end is fixed
-- from the start: the root, and then the walks of its children in their order.
import PascalFront.Proofs.Uses
import Mathlib.Data.List.Basic

namespace PascalFront

/-! ## Rows of trees -/

namespace Node

theorem sizeAll_reverse (ns : List Node) : sizeAll ns.reverse = sizeAll ns := by
  induction ns with
  | nil => rfl
  | cons n ns ih =>
    rw [List.reverse_cons, sizeAll_append, ih, sizeAll, sizeAll, sizeAll, Nat.add_zero,
      Nat.add_comm]

theorem walkStack_eq_flatMap (ns : List Node) : walkStack ns = ns.flatMap walk := by
  induction ns with
  | nil => rw [walkStack, List.flatMap_nil]
  | cons n ns ih => rw [List.flatMap_cons, ← ih, walk, ← walkStack_append, List.singleton_append]

end Node

/-! ## A walk in turns -/

/-- A walk on its way: the nodes that are seen, and the stack with its top at the end. -/
structure Walk where
  seen : List Node
  stack : List Node

namespace Walk

open Node

/-- The next turn: the top of the stack is seen, and its children are put on the stack, the last
one first. With an empty stack the walk is over. -/
def turn? (w : Walk) : Option Walk :=
  w.stack.getLast?.map fun n => ⟨w.seen ++ [n], w.stack.dropLast ++ n.children.reverse⟩

/-- So many turns, one after the other. -/
def turns : Nat → Walk → Option Walk
  | 0, w => some w
  | k + 1, w => w.turn?.bind (turns k)

/-- All that is seen when the walk is over. -/
def result (w : Walk) : List Node := w.seen ++ walkStack w.stack.reverse

theorem turn?_top (seen stack : List Node) (n : Node) :
    turn? ⟨seen, stack ++ [n]⟩ = some ⟨seen ++ [n], stack ++ n.children.reverse⟩ := by
  rw [turn?, List.getLast?_concat, Option.map_some, List.dropLast_concat]

/-- The top of the stack is one node more than its children. -/
theorem sizeAll_top (stack : List Node) (n : Node) :
    sizeAll (stack ++ [n]) = sizeAll (stack ++ n.children.reverse) + 1 := by
  rw [sizeAll_append, sizeAll_append, sizeAll_reverse, sizeAll, sizeAll, size_eq]
  omega

/-- A turn changes nothing of what is seen in the end. -/
theorem result_top (seen stack : List Node) (n : Node) :
    result ⟨seen ++ [n], stack ++ n.children.reverse⟩ = result ⟨seen, stack ++ [n]⟩ := by
  simp only [result, List.reverse_append, List.reverse_reverse, List.reverse_singleton,
    List.singleton_append, List.append_assoc]
  rw [walkStack]

/-- A walk is over after as many turns as there are nodes below its stack. -/
theorem turns_to_end (w : Walk) : w.turns (sizeAll w.stack) = some ⟨w.result, []⟩ := by
  obtain ⟨seen, stack⟩ := w
  generalize hk : sizeAll stack = k
  induction k generalizing seen stack with
  | zero =>
    rcases List.eq_nil_or_concat' stack with rfl | ⟨rest, n, rfl⟩
    · rw [turns, result, List.reverse_nil, walkStack, List.append_nil]
    · rw [sizeAll_top] at hk
      cases hk
  | succ k ih =>
    rcases List.eq_nil_or_concat' stack with rfl | ⟨rest, n, rfl⟩
    · cases hk
    · rw [sizeAll_top] at hk
      rw [turns, turn?_top, Option.bind_some, ih _ _ (Nat.succ.inj hk), result_top]

end Walk

namespace Node

/-! ## Addresses -/

/-- The node at an address, which says at each step which child to go to. -/
def nodeAt? : Node → List Nat → Option Node
  | n, [] => some n
  | n, i :: address => n.children[i]?.bind (nodeAt? · address)

mutual
/-- The nodes of a tree with their addresses, each before those below it. -/
def located : Node → List (List Nat × Node)
  | ⟨kind, line, id, value, children⟩ =>
    ([], ⟨kind, line, id, value, children⟩) :: locatedFrom 0 children

/-- The nodes of some trees with their addresses, where the trees are numbered from `i` on. -/
def locatedFrom (i : Nat) : List Node → List (List Nat × Node)
  | [] => []
  | n :: rest => (located n).map (fun p => (i :: p.1, p.2)) ++ locatedFrom (i + 1) rest
end

-- The proofs go along with the way the nodes are located: one for a tree, and one for some trees.
mutual
theorem map_located : ∀ n : Node, n.located.map Prod.snd = n.walk
  | ⟨kind, line, id, value, children⟩ => by
    rw [located, List.map_cons, map_locatedFrom 0 children, walk_eq]

theorem map_locatedFrom (i : Nat) : ∀ ns : List Node,
    (locatedFrom i ns).map Prod.snd = walkStack ns
  | [] => by rw [locatedFrom, walkStack, List.map_nil]
  | n :: rest => by
    rw [locatedFrom, List.map_append, List.map_map, map_locatedFrom (i + 1) rest,
      ← List.singleton_append, walkStack_append]
    exact congrArg (· ++ walkStack rest) (map_located n)
end

mutual
theorem mem_located {address : List Nat} {m : Node} : ∀ n : Node,
    (address, m) ∈ n.located ↔ n.nodeAt? address = some m
  | ⟨kind, line, id, value, children⟩ => by
    rw [located, List.mem_cons, mem_locatedFrom 0 children]
    cases address with
    | nil => simp [nodeAt?, eq_comm]
    | cons i below => simp [nodeAt?, Option.bind_eq_some_iff]

theorem mem_locatedFrom {address : List Nat} {m : Node} (i : Nat) : ∀ ns : List Node,
    (address, m) ∈ locatedFrom i ns ↔
      ∃ j below c, address = (i + j) :: below ∧ ns[j]? = some c ∧ c.nodeAt? below = some m
  | [] => by simp [locatedFrom]
  | n :: rest => by
    have hnext (j : Nat) : i + 1 + j = i + (j + 1) := by omega
    rw [locatedFrom, List.mem_append, mem_locatedFrom (i + 1) rest, List.mem_map]
    constructor
    · rintro (⟨⟨below, m'⟩, hm, heq⟩ | ⟨j, below, c, rfl, hc, hm⟩)
      · cases heq
        exact ⟨0, below, n, rfl, rfl, (mem_located n).mp hm⟩
      · exact ⟨j + 1, below, c, by rw [hnext], hc, hm⟩
    · rintro ⟨_ | j, below, c, rfl, hc, hm⟩
      · cases hc
        exact .inl ⟨(below, m), (mem_located n).mpr hm, rfl⟩
      · exact .inr ⟨j, below, c, by rw [hnext], hc, hm⟩
end

-- A node below one child is not above a node below another child, as their addresses start apart.
mutual
theorem pairwise_located : ∀ n : Node, n.located.Pairwise fun p q => ¬ q.1 <+: p.1
  | ⟨kind, line, id, value, children⟩ => by
    rw [located, List.pairwise_cons]
    refine ⟨?_, pairwise_locatedFrom 0 children⟩
    rintro ⟨address, m⟩ hm hprefix
    obtain ⟨j, below, c, rfl, -⟩ := (mem_locatedFrom 0 children).mp hm
    exact absurd (List.prefix_nil.mp hprefix) (List.cons_ne_nil _ _)

theorem pairwise_locatedFrom (i : Nat) : ∀ ns : List Node,
    (locatedFrom i ns).Pairwise fun p q => ¬ q.1 <+: p.1
  | [] => by
    rw [locatedFrom]
    exact .nil
  | n :: rest => by
    rw [locatedFrom, List.pairwise_append, List.pairwise_map]
    refine ⟨(pairwise_located n).imp fun hpq hprefix => ?_, pairwise_locatedFrom (i + 1) rest, ?_⟩
    · exact hpq (List.cons_prefix_cons.mp hprefix).2
    · rintro p hp ⟨address, m⟩ hm hprefix
      obtain ⟨q, -, rfl⟩ := List.mem_map.mp hp
      obtain ⟨j, below, c, rfl, -⟩ := (mem_locatedFrom (i + 1) rest).mp hm
      have hfirst := (List.cons_prefix_cons.mp hprefix).1
      omega
end

/-! ## Counting -/

mutual
/-- The nodes of a kind in a tree, counted from the leaves up. -/
def occurrences (kind : NodeKind) : Node → Nat
  | ⟨k, _, _, _, children⟩ => (if k = kind then 1 else 0) + occurrencesAll kind children

/-- The nodes of a kind in some trees. -/
def occurrencesAll (kind : NodeKind) : List Node → Nat
  | [] => 0
  | n :: rest => occurrences kind n + occurrencesAll kind rest
end

mutual
theorem count_eq_occurrences (kind : NodeKind) : ∀ n : Node, n.count kind = n.occurrences kind
  | ⟨k, line, id, value, children⟩ => by
    rw [count, walk_eq, List.countP_cons, countP_walkStack kind children, occurrences, Nat.add_comm]
    simp only [beq_iff_eq]

theorem countP_walkStack (kind : NodeKind) : ∀ ns : List Node,
    (walkStack ns).countP (·.kind == kind) = occurrencesAll kind ns
  | [] => by rw [walkStack, List.countP_nil, occurrencesAll]
  | n :: rest => by
    rw [← List.singleton_append, walkStack_append, List.countP_append,
      countP_walkStack kind rest, List.singleton_append, occurrencesAll]
    exact congrArg (· + occurrencesAll kind rest) (count_eq_occurrences kind n)
end

/-! ## The law -/

/-- The walk of a tree ends after one turn for each of its nodes, and has given the root and then
the walks of its children in their order. Every node of the tree is in it once, as its addresses
show: no node comes behind itself or behind a node below it. So a kind has as many nodes in the walk
as in the tree. -/
theorem walk_is_preorder (n : Node) :
    Walk.turns n.size ⟨[], [n]⟩ = some ⟨n.walk, []⟩ ∧
    n.walk = n :: n.children.flatMap walk ∧
    n.located.map Prod.snd = n.walk ∧
    (∀ address m, (address, m) ∈ n.located ↔ n.nodeAt? address = some m) ∧
    n.located.Pairwise (fun p q => ¬ q.1 <+: p.1) ∧
    ∀ kind, n.count kind = n.occurrences kind := by
  refine ⟨?_, ?_, map_located n, fun _ _ => mem_located n, pairwise_located n,
    fun kind => count_eq_occurrences kind n⟩
  · exact Walk.turns_to_end ⟨[], [n]⟩
  · rw [walk_eq, walkStack_eq_flatMap]

end Node

end PascalFront
