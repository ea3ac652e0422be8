import OptimizerHints.Proofs.JoinTree.Mirror

/-! Plans put together from scans of tables, joins of two inputs, and nodes that pass rows on: their joins, and the
tree that mirrors them. -/

namespace OptimizerHints

namespace Plan

inductive Built : Plan → Prop
  | scan (t : TableRef) (op : Option ScanOperator) (cost rows : Float) : Built (scan t op cost rows)
  | join {outer inner : Plan} (op : Option JoinOperator) (cost rows : Float) :
    Built outer → Built inner → Built (join op outer inner cost rows)
  | passing {c : Plan} (nodeType : String) : Built c → Built (passing nodeType c)

def joinNodes (p : Plan) : List Plan :=
  if p.isScan then []
  else if p.isJoin then p :: p.children.flatMap fun c => c.joinNodes
  else p.children.flatMap fun c => c.joinNodes
  termination_by p.size
  decreasing_by all_goals exact size_lt_of_mem_children (by assumption)

section Constructors

variable (t : TableRef) (sop : Option ScanOperator) (jop : Option JoinOperator) (o i c : Plan) (cost rows : Float)
  (nodeType : String)

@[simp] lemma unwrapped_scan : (scan t sop cost rows).unwrapped = scan t sop cost rows :=
  unwrapped_of_not_passed rfl

@[simp] lemma unwrapped_join : (join jop o i cost rows).unwrapped = join jop o i cost rows :=
  unwrapped_of_not_passed rfl

@[simp] lemma unwrapped_passing : (passing nodeType c).unwrapped = c.unwrapped := unwrapped_of_passed rfl

@[simp] lemma scanned_scan : (scan t sop cost rows).scanned = [t] := by
  rw [scanned]
  rfl

@[simp] lemma scanned_join : (join jop o i cost rows).scanned = o.scanned ++ i.scanned := by
  rw [scanned]
  simp [join]

@[simp] lemma scanned_passing : (passing nodeType c).scanned = c.scanned := scanned_of_passed rfl

@[simp] lemma joinNodes_scan : (scan t sop cost rows).joinNodes = [] := by
  rw [joinNodes]
  rfl

@[simp] lemma joinNodes_join :
    (join jop o i cost rows).joinNodes = join jop o i cost rows :: (o.joinNodes ++ i.joinNodes) := by
  rw [joinNodes]
  simp [join]

@[simp] lemma joinNodes_passing : (passing nodeType c).joinNodes = c.joinNodes := by
  rw [joinNodes]
  simp [passing]

@[simp] lemma joinSequence_join :
    (join jop o i cost rows).joinSequence = do return (← i.joinSequence) ++ [join jop o i cost rows] :=
  joinSequence_of_isJoin rfl rfl rfl

@[simp] lemma joinSequence_passing : (passing nodeType c).joinSequence = c.joinSequence := joinSequence_of_passed rfl

end Constructors

@[simp] lemma joinNodes_unwrapped (p : Plan) : p.unwrapped.joinNodes = p.joinNodes := by
  refine of_unwrapped joinNodes (fun p c h => ?_) p
  obtain ⟨hjoin, hscan, hchildren⟩ := passed?_eq_some_iff.1 h
  rw [joinNodes]
  simp [hjoin, hscan, hchildren]

lemma joinNodes_of_isScan {p : Plan} (h : p.unwrapped.isScan = true) : p.joinNodes = [] := by
  rw [← joinNodes_unwrapped, joinNodes, if_pos h]

lemma joinNodes_of_isJoin {p : Plan} (hscan : p.isScan = false) (hjoin : p.isJoin = true) :
    p.joinNodes = p :: p.children.flatMap fun c => c.joinNodes := by
  rw [joinNodes, if_neg (Bool.eq_false_iff.1 hscan), if_pos hjoin]

lemma Built.unwrapped_cases {p : Plan} (h : p.Built) :
    p.unwrapped.isScan = true ∧ (∃ t, p.unwrapped.scanTable? = some t) ∨
      p.unwrapped.isScan = false ∧ p.unwrapped.isJoin = true := by
  induction h with
  | scan t op cost rows =>
    rw [unwrapped_scan]
    exact .inl ⟨rfl, t, rfl⟩
  | join =>
    rw [unwrapped_join]
    exact .inr ⟨rfl, rfl⟩
  | passing nodeType _ ih =>
    rw [unwrapped_passing]
    exact ih

end Plan

namespace JoinNode

open Plan

variable {n : JoinNode}

lemma mirrors_scan_iff {t : TableRef} {op : Option ScanOperator} {cost rows : Float} :
    n.Mirrors (.scan t op cost rows) ↔ n = .base t { operator := op.map .scan, upperBound := some rows } := by
  constructor
  · intro h
    cases h with
    | scan hscan ht =>
      rw [unwrapped_scan] at ht ⊢
      obtain rfl := Option.some.inj ht
      rfl
    | join hscan =>
      rw [unwrapped_scan] at hscan
      cases hscan
  · rintro rfl
    have hself := unwrapped_scan t op cost rows
    have h := Mirrors.scan (p := .scan t op cost rows) (t := t) (by rw [hself]; rfl) (by rw [hself]; rfl)
    rw [hself] at h
    exact h

lemma mirrors_join_iff {op : Option JoinOperator} {o i : Plan} {cost rows : Float} :
    n.Mirrors (.join op o i cost rows) ↔ ∃ l r, l.Mirrors o ∧ r.Mirrors i ∧
      n = .join l r { operator := op.map .join, upperBound := some rows, inner := some .right }
        (l.tables ∪ r.tables) := by
  constructor
  · intro h
    cases h with
    | scan hscan =>
      rw [unwrapped_join] at hscan
      cases hscan
    | join _ _ ho hi hl hr =>
      rw [unwrapped_join] at ho hi ⊢
      obtain rfl := Option.some.inj ho
      obtain rfl := Option.some.inj hi
      exact ⟨_, _, hl, hr, rfl⟩
  · rintro ⟨l, r, hl, hr, rfl⟩
    have hself := unwrapped_join op o i cost rows
    have h := Mirrors.join (p := .join op o i cost rows) (by rw [hself]; rfl) (by rw [hself]; rfl) (by rw [hself]; rfl)
      (by rw [hself]; rfl) hl hr
    rw [hself] at h
    exact h

lemma mirrors_passing_iff {nodeType : String} {c : Plan} : n.Mirrors (.passing nodeType c) ↔ n.Mirrors c :=
  ⟨fun h => h.of_unwrapped_eq (unwrapped_passing ..), fun h => h.of_unwrapped_eq (unwrapped_passing ..).symm⟩

end JoinNode

namespace Plan

open JoinNode

theorem Built.mirrored {p : Plan} (h : p.Built) : ∃ n : JoinNode, n.Mirrors p := by
  induction h with
  | scan => exact ⟨_, mirrors_scan_iff.2 rfl⟩
  | join op cost rows _ _ iho ihi =>
    obtain ⟨l, hl⟩ := iho
    obtain ⟨r, hr⟩ := ihi
    exact ⟨_, mirrors_join_iff.2 ⟨l, r, hl, hr, rfl⟩⟩
  | passing nodeType _ ih =>
    obtain ⟨n, hn⟩ := ih
    exact ⟨n, mirrors_passing_iff.2 hn⟩

lemma Built.leaves_eq {p : Plan} (h : p.Built) {n : JoinNode} (hn : n.Mirrors p) : n.leaves = p.scanned := by
  induction h generalizing n with
  | scan =>
    obtain rfl := mirrors_scan_iff.1 hn
    rw [leaves, scanned_scan]
  | join op cost rows _ _ iho ihi =>
    obtain ⟨l, r, hl, hr, rfl⟩ := mirrors_join_iff.1 hn
    rw [leaves, scanned_join, iho hl, ihi hr]
  | passing nodeType _ ih => rw [scanned_passing, ih (mirrors_passing_iff.1 hn)]

lemma Built.tables_eq {p : Plan} (h : p.Built) {n : JoinNode} (hn : n.Mirrors p) : n.tables = p.tables := by
  rw [hn.summed.tables_eq, h.leaves_eq hn, tables]

end Plan

end OptimizerHints
