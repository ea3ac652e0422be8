import OptimizerHints.Proofs.JoinTree.Soundness

/-! A join sequence goes down right inputs only. With each of its joins followed by what the left input expands to, all
joins of a tree come up, and none of them twice. -/

namespace OptimizerHints

lemma perm_cons_append {α : Type} (x : α) (xs ys : List α) : (ys ++ x :: xs).Perm (x :: (xs ++ ys)) :=
  List.perm_middle.trans (List.perm_append_comm.cons x)

namespace JoinNode

def left? : JoinNode → Option JoinNode
  | base _ _ => none
  | join l _ _ _ => some l

def expansion : JoinNode → List JoinNode
  | base _ _ => []
  | join l r i ts => r.expansion ++ join l r i ts :: l.expansion

lemma expansion_eq (n : JoinNode) : n.expansion = n.joinSequence.flatMap fun j => j :: j.left?.elim [] expansion := by
  induction n with
  | base t i => rfl
  | join l r i ts _ ihr =>
    rw [expansion, joinSequence_join, List.flatMap_append, List.flatMap_singleton, ← ihr]
    rfl

theorem expansion_perm_joins (n : JoinNode) : n.expansion.Perm n.joins := by
  induction n with
  | base t i => exact .refl _
  | join l r i ts ihl ihr => exact (ihr.append (ihl.cons _)).trans (perm_cons_append _ l.joins r.joins)

end JoinNode

end OptimizerHints
