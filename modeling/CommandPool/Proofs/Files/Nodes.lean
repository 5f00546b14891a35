import CommandPool.Files.FileSystem

/-!
# Nodes of a tree

What is at a place after a node was put or erased, whatever else is in the tree.
-/

namespace CommandPool.Files.Tree

/-- Nodes with another one at a place where one is. -/
theorem lookup_replace (nodes : List (Place × Node)) (p q : Place) (n : Node)
    (present : (nodes.lookup p).isSome = true) :
    (nodes.map fun e => if e.1 = p then (p, n) else e).lookup q =
      if q = p then some n else nodes.lookup q := by
  have other : q ≠ p → ∀ nodes : List (Place × Node),
      (nodes.map fun e => if e.1 = p then (p, n) else e).lookup q = nodes.lookup q := by
    intro different nodes
    induction nodes with
    | nil => rfl
    | cons e nodes ih =>
      rw [List.map_cons, List.lookup_cons, List.lookup_cons, ih]
      by_cases here : e.1 = p
      · simp [here, beq_eq_false_iff_ne.mpr different]
      · simp [here]
  split
  next same =>
    subst same
    induction nodes with
    | nil => cases present
    | cons e nodes ih =>
      rw [List.map_cons, List.lookup_cons]
      by_cases here : e.1 = q
      · simp [here]
      · have skip : (q == e.1) = false := beq_eq_false_iff_ne.mpr (Ne.symm here)
        rw [List.lookup_cons, skip] at present
        simp [here, skip, ih present]
  next different => exact other different nodes

theorem find?_put (t : Tree) (p q : Place) (n : Node) :
    (t.put p n).find? q = if q = p ∧ p ≠ [] then some n else t.find? q := by
  unfold find? put
  by_cases root : q = []
  · subst root
    by_cases atRoot : p = []
    · simp [atRoot]
    · simp [Ne.symm atRoot]
  · rw [if_neg root, if_neg root]
    by_cases present : (t.nodes.lookup p).isSome = true
    · simp only [if_pos present, lookup_replace _ _ _ _ present]
      by_cases same : q = p
      · simp [same, same ▸ root]
      · simp [same]
    · have absent : t.nodes.lookup p = none := Option.not_isSome_iff_eq_none.mp present
      simp only [if_neg present, List.lookup_append]
      by_cases same : q = p
      · subst same
        simp [absent, root]
      · simp [same, List.lookup_cons, beq_eq_false_iff_ne.mpr same]

/-- Of two nodes put at a place the second one is there. -/
theorem put_put (t : Tree) (p : Place) (m n : Node) : (t.put p m).put p n = t.put p n := by
  by_cases present : (t.nodes.lookup p).isSome = true
  · have still : ((t.nodes.map fun e => if e.1 = p then (p, m) else e).lookup p).isSome = true := by
      rw [lookup_replace _ _ _ _ present, if_pos rfl]
      rfl
    simp only [put, if_pos present, if_pos still, List.map_map]
    congr 2
    funext e
    by_cases here : e.1 = p <;> simp [here]
  · have absent : t.nodes.lookup p = none := Option.not_isSome_iff_eq_none.mp present
    have there : ((t.nodes ++ [(p, m)]).lookup p).isSome = true := by
      simp [List.lookup_append, absent]
    have others : (t.nodes.map fun e => if e.1 = p then (p, n) else e) = t.nodes := by
      have apart := List.lookup_eq_none_iff.mp absent
      refine (List.map_congr_left fun e member => if_neg ?_).trans (List.map_id t.nodes)
      exact Ne.symm (bne_iff_ne.mp (apart e member))
    simp only [put, if_neg present, if_pos there, List.map_append, others]
    simp

/-- Nodes without those at another place. -/
theorem lookup_filter_ne (nodes : List (Place × Node)) {p q : Place} (different : q ≠ p) :
    (nodes.filter fun e => e.1 ≠ p).lookup q = nodes.lookup q := by
  induction nodes with
  | nil => rfl
  | cons e nodes ih =>
    rw [List.filter_cons, List.lookup_cons]
    by_cases here : e.1 = p
    · rw [if_neg (by simpa using here), ih, here, beq_eq_false_iff_ne.mpr different]
    · rw [if_pos (by simpa using here), List.lookup_cons, ih]

theorem find?_erase (t : Tree) (p q : Place) :
    (t.erase p).find? q = if q = p ∧ p ≠ [] then none else t.find? q := by
  unfold find? erase
  by_cases root : q = []
  · subst root
    by_cases atRoot : p = []
    · simp [atRoot]
    · rw [if_pos rfl, if_pos rfl, if_neg fun both => atRoot both.1.symm]
  · rw [if_neg root, if_neg root]
    by_cases same : q = p
    · subst same
      rw [if_pos ⟨rfl, root⟩, List.lookup_eq_none_iff]
      intro e member
      have kept := of_decide_eq_true (List.mem_filter.mp member).2
      exact bne_iff_ne.mpr (Ne.symm kept)
    · rw [if_neg fun both => same both.1]
      exact lookup_filter_ne t.nodes same

end CommandPool.Files.Tree
