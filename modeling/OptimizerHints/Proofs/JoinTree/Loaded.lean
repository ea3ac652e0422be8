import OptimizerHints.Proofs.JoinTree.Representation

namespace OptimizerHints

def Plan.Loadable (p : Plan) : Prop :=
  p.isScan = true ∧ (∃ t, p.table = some t) ∨
    p.isScan = false ∧ p.isJoin = true ∧ (∃ o, p.outer? = some o) ∧ ∃ i, p.inner? = some i

def Plan.ScansOnce (p : Plan) : Prop :=
  ∀ path path' q q' t, p.Reaches path q → p.Reaches path' q' → q.scanTable? = some t → q'.scanTable? = some t →
    path = path'

namespace JoinNode

def at? : JoinNode → List Side → Option JoinNode
  | n, [] => some n
  | base _ _, _ :: _ => none
  | join l _ _ _, .left :: path => l.at? path
  | join _ r _ _, .right :: path => r.at? path

def Shows : JoinNode → Plan → Prop
  | base t i, q => q.isScan = true ∧ q.table = some t ∧ i = { operator := q.operator, upperBound := some q.rows }
  | join _ _ i _, q => q.isScan = false ∧ q.isJoin = true ∧
    i = { operator := q.operator, upperBound := some q.rows, inner := some .right }

variable {n j m : JoinNode} {p q : Plan} {path : List Side} {t : TableRef}

lemma exists_at?_of_mem_joins (h : j ∈ n.joins) : ∃ path, n.at? path = some j := by
  induction n with
  | base t i => cases h
  | join l r i ts ihl ihr =>
    rcases List.mem_cons.1 h with rfl | h
    · exact ⟨[], rfl⟩
    rcases List.mem_append.1 h with hl | hr
    · obtain ⟨path, hpath⟩ := ihl hl
      exact ⟨.left :: path, hpath⟩
    · obtain ⟨path, hpath⟩ := ihr hr
      exact ⟨.right :: path, hpath⟩

theorem Mirrors.shown (h : n.Mirrors p) (hq : p.Reaches path q) : ∃ m, n.at? path = some m ∧ m.Shows q := by
  induction h generalizing path with
  | scan hscan ht =>
    obtain ⟨rfl, rfl⟩ := hq.of_isScan hscan
    exact ⟨_, rfl, hscan, ht, rfl⟩
  | join hscan hjoin ho hi _ _ ihl ihr =>
    obtain ⟨rfl, rfl⟩ | ⟨path', rfl, hin⟩ | ⟨path', rfl, hin⟩ := hq.of_inputs ho hi
    · exact ⟨_, rfl, hscan, hjoin, rfl⟩
    · exact ihl hin
    · exact ihr hin

theorem Mirrors.reached (h : n.Mirrors p) (hm : n.at? path = some m) : ∃ q, p.Reaches path q ∧ m.Shows q := by
  induction h generalizing path with
  | scan hscan ht =>
    cases path with
    | nil =>
      obtain rfl := Option.some.inj hm
      exact ⟨_, .here _, hscan, ht, rfl⟩
    | cons side path => cases hm
  | join hscan hjoin ho hi _ _ ihl ihr =>
    cases path with
    | nil =>
      obtain rfl := Option.some.inj hm
      exact ⟨_, .here _, hscan, hjoin, rfl⟩
    | cons side path =>
      cases side with
      | left =>
        obtain ⟨q, hq, hshows⟩ := ihl hm
        exact ⟨q, .outer hscan hjoin ho hq, hshows⟩
      | right =>
        obtain ⟨q, hq, hshows⟩ := ihr hm
        exact ⟨q, .inner hscan hjoin hi hq, hshows⟩

lemma Mirrors.exists_join {l r : JoinNode} {i : NodeInfo} {ts : TableSet} (h : n.Mirrors p)
    (hj : .join l r i ts ∈ n.joins) :
    ∃ path q, p.Reaches path q ∧ q.isJoin = true ∧ q.operator = i.operator := by
  obtain ⟨path, hpath⟩ := exists_at?_of_mem_joins hj
  obtain ⟨q, hq, -, hjoin, rfl⟩ := h.reached hpath
  exact ⟨path, q, hq, hjoin, rfl⟩

lemma Mirrors.exists_scan (h : n.Mirrors p) (ht : t ∈ n.leaves) :
    ∃ path q, p.Reaches path q ∧ q.scanTable? = some t := by
  induction h with
  | @scan p t' hscan htable =>
    obtain rfl := List.mem_singleton.1 ht
    exact ⟨[], _, .here p, by rw [Plan.scanTable?, if_pos hscan, htable]⟩
  | join hscan hjoin ho hi _ _ ihl ihr =>
    rcases List.mem_append.1 ht with hl | hr
    · obtain ⟨path, q, hq, hscanned⟩ := ihl hl
      exact ⟨.left :: path, q, .outer hscan hjoin ho hq, hscanned⟩
    · obtain ⟨path, q, hq, hscanned⟩ := ihr hr
      exact ⟨.right :: path, q, .inner hscan hjoin hi hq, hscanned⟩

lemma Mirrors.loadable (h : n.Mirrors p) (hq : p.Reaches path q) : q.Loadable := by
  induction h generalizing path with
  | scan hscan ht =>
    obtain ⟨-, rfl⟩ := hq.of_isScan hscan
    exact .inl ⟨hscan, _, ht⟩
  | join hscan hjoin ho hi _ _ ihl ihr =>
    obtain ⟨-, rfl⟩ | ⟨path', -, hq⟩ | ⟨path', -, hq⟩ := hq.of_inputs ho hi
    · exact .inr ⟨hscan, hjoin, ⟨_, ho⟩, _, hi⟩
    · exact ihl hq
    · exact ihr hq

lemma exists_mirrors (p : Plan) (h : ∀ path q, p.Reaches path q → q.Loadable) : ∃ n : JoinNode, n.Mirrors p := by
  rcases h [] _ (.here p) with ⟨hscan, t, ht⟩ | ⟨hscan, hjoin, ⟨o, ho⟩, i, hi⟩
  · exact ⟨_, .scan hscan ht⟩
  · have hsize := p.size_unwrapped_le
    have hltl := (Plan.size_lt_of_outer ho).trans_le hsize
    have hltr := (Plan.size_lt_of_inner hi).trans_le hsize
    obtain ⟨l, hl⟩ := exists_mirrors o fun path q hq => h (.left :: path) q (.outer hscan hjoin ho hq)
    obtain ⟨r, hr⟩ := exists_mirrors i fun path q hq => h (.right :: path) q (.inner hscan hjoin hi hq)
    exact ⟨_, .join hscan hjoin ho hi hl hr⟩
  termination_by p.size

theorem exists_mirrors_iff : (∃ n : JoinNode, n.Mirrors p) ↔ ∀ path q, p.Reaches path q → q.Loadable :=
  ⟨fun ⟨_, h⟩ _ _ hq => h.loadable hq, exists_mirrors p⟩

theorem Mirrors.nodup_leaves_iff (h : n.Mirrors p) : n.leaves.Nodup ↔ p.ScansOnce := by
  refine ⟨fun hnodup path path' q q' t hq hq' => h.path_unique hnodup hq hq', fun honce => ?_⟩
  induction h with
  | scan => exact List.nodup_singleton _
  | join hscan hjoin ho hi hl hr ihl ihr =>
    refine List.nodup_append.2 ⟨ihl ?_, ihr ?_, ?_⟩
    · intro path path' q q' t hq hq' ht ht'
      exact (List.cons.inj (honce _ _ q q' t (.outer hscan hjoin ho hq) (.outer hscan hjoin ho hq') ht ht')).2
    · intro path path' q q' t hq hq' ht ht'
      exact (List.cons.inj (honce _ _ q q' t (.inner hscan hjoin hi hq) (.inner hscan hjoin hi hq') ht ht')).2
    · rintro t htl t' htr rfl
      obtain ⟨path, q, hq, ht⟩ := hl.exists_scan htl
      obtain ⟨path', q', hq', ht'⟩ := hr.exists_scan htr
      -- the two scans are on different sides of the join
      cases honce _ _ q q' t (.outer hscan hjoin ho hq) (.inner hscan hjoin hi hq') ht ht'

theorem exists_ofPlan_iff :
    (∃ n, ofPlan p = .ok n) ↔ (∀ path q, p.Reaches path q → q.Loadable) ∧ p.ScansOnce := by
  rw [← exists_mirrors_iff]
  constructor
  · rintro ⟨n, hn⟩
    obtain ⟨hmirrors, hsound⟩ := ofPlan_ok_iff.1 hn
    exact ⟨⟨n, hmirrors⟩, hmirrors.nodup_leaves_iff.1 hsound.nodup_leaves⟩
  · rintro ⟨⟨n, hmirrors⟩, honce⟩
    have hsound := hmirrors.summed.sound_iff.2 (hmirrors.nodup_leaves_iff.2 honce)
    exact ⟨n, ofPlan_ok_iff.2 ⟨hmirrors, hsound⟩⟩

end JoinNode

end OptimizerHints
