import OptimizerHints.Proofs.Synopsis.Advice
import OptimizerHints.Proofs.Synopsis.Log
import OptimizerHints.Proofs.Synopsis.PlanVisits
import OptimizerHints.Proofs.Synopsis.Spelling

/-! What a recommendation rests on: joins that were observed over the same outer inputs, though not always with the
same innermost table. -/

namespace OptimizerHints

namespace Plan

variable {p : Plan} {view : View} {e : List Step × Observation Float}

lemma Built.exists_joinNode (h : p.Built) (he : e ∈ p.observations view) :
    ∃ j ∈ p.joinNodes, j.operator = some (.join e.2.operator) ∧ j.tables = e.2.tables := by
  obtain ⟨vs, hvs, he⟩ := mem_observations_iff.1 he
  have hmem : some e.2 ∈ ((Visit.placesAll view [] vs).map Prod.snd).map some :=
    List.mem_map_of_mem (List.mem_map_of_mem he)
  rw [(h.visits_perm hvs view []).mem_iff] at hmem
  obtain ⟨j, hj, htold⟩ := List.mem_map.1 hmem
  obtain ⟨hop, htables, -⟩ := told?_eq_some_iff.1 htold
  exact ⟨j, hj, hop, htables⟩

lemma Built.observation_fits (h : p.Built) (he : e ∈ p.observations view) :
    (Spelling.ofPath e.1).Fits p.scanned.Nodup e.2.tables := by
  obtain ⟨vs, hvs, he⟩ := mem_observations_iff.1 he
  obtain ⟨n, hn⟩ := h.mirrored
  have hmem : (e.1, e.2.tables) ∈ Visit.placesAll view [] n.visits := by
    rw [← h.relabel_visits hn hvs, Visit.placesAll_relabelAll]
    exact List.mem_map_of_mem he
  apply (hn.summed.places_fit hmem).mono
  intro hscanned
  rwa [hn.summed.sound_iff, h.leaves_eq hn]

end Plan

namespace Synopsis

variable {s : Synopsis} {calls : List (Query × Plan)}

def Observed (s : Synopsis) (calls : List (Query × Plan)) (op : JoinOperator) (ts : TableSet) : Prop :=
  ∃ before q p after, calls = before ++ (q, p) :: after ∧ ((s.run before).integrate q p).1 = .ok () ∧
    ∃ j ∈ p.joinNodes, j.operator = some (.join op) ∧ j.tables = ts

lemma observed_of_mem_log {e : List Step × Observation Float} (hcalls : ∀ c ∈ calls, c.2.Built)
    (h : e ∈ s.log calls) : s.Observed calls e.2.operator e.2.tables := by
  obtain ⟨before, q, p, after, rfl, hok, he⟩ := mem_log h
  have hp : p.Built := hcalls (q, p) (List.mem_append_right _ List.mem_cons_self)
  exact ⟨before, q, p, after, rfl, hok, hp.exists_joinNode he⟩

lemma fits_of_mem_log {e : List Step × Observation Float} (hcalls : ∀ c ∈ calls, c.2.Built) (h : e ∈ s.log calls) :
    (Spelling.ofPath e.1).Fits (∀ c ∈ calls, c.2.scanned.Nodup) e.2.tables := by
  obtain ⟨before, q, p, after, rfl, -, he⟩ := mem_log h
  have hmem : (q, p) ∈ before ++ (q, p) :: after := List.mem_append_right _ List.mem_cons_self
  exact ((hcalls _ hmem).observation_fits he).mono fun hscanned => hscanned _ hmem

lemma advice?_run (config : SynopsisConfig) (calls : List (Query × Plan)) (path : List Step) :
    let s : Synopsis := { config }
    (s.run calls).root.advice? path = (Node.ledgerOf config.gamma (s.log calls) path).recommendation? := by
  intro s
  have hroot : (s.run calls).root = Node.noteAll config.gamma (s.log calls) Node.empty := root_run s calls
  have hledger := Node.ledgerAt?_noteAll config.gamma (s.log calls) path
  have hadvice : (s.run calls).root.advice? path = ((s.run calls).root.ledgerAt? path).bind (·.recommendation?) := by
    rw [Node.advice?, Node.ledgerAt?, Option.bind_map]
    rfl
  rw [hadvice, hroot, hledger]
  split
  · rfl
  · next hknown =>
    rw [Node.ledgerOf_eq_nil config.gamma hknown]
    rfl

lemma exists_ne_of_changed {gamma : Float} {noted : List (List Step × Observation Float)} {ts : TableSet}
    {before after : Option JoinChoice} {choice : JoinChoice}
    (hafter : after =
      match (Ledger.ofList gamma (noted.map fun e => (e.2.operator, e.2.cost))).recommendation? with
      | some op => some ⟨op, ts, before.bind (·.inner)⟩
      | none => before)
    (hfound : after = some choice) (hdiffers : before.map (·.operator) ≠ some choice.operator) :
    ∃ e ∈ noted, ∃ e' ∈ noted, e.2.operator = choice.operator ∧ e'.2.operator ≠ choice.operator := by
  have hmem : ∀ op, op ∈ (Ledger.ofList gamma (noted.map fun e => (e.2.operator, e.2.cost))).map Prod.fst →
      ∃ e ∈ noted, e.2.operator = op := by
    simp [Ledger.map_fst_ofList]
  split at hafter
  · next op hop =>
    obtain rfl := Option.some.inj (hafter.symm.trans hfound)
    obtain ⟨hop, op', hop', hne⟩ := Ledger.exists_ne_of_recommendation? (Ledger.nodup_map_fst_ofList ..) hop
    obtain ⟨e, he, rfl⟩ := hmem op hop
    obtain ⟨e', he', rfl⟩ := hmem op' hop'
    exact ⟨e, he, e', he', rfl, hne⟩
  · rw [← hafter, hfound] at hdiffers
    exact (hdiffers rfl).elim

/-- Advice on a join of a tree rests on all that successful calls noted at the end of the path to the join, and on
nothing else. If it changes the operator of the join, two operators were noted there. The joins that were noted have
the tables of the outer inputs on the path and one more, as the join itself has. They have just its tables if it is an
outer input and no plan scans a table twice. -/
theorem advice_rests_on_same_outers (config : SynopsisConfig) {calls : List (Query × Plan)}
    (hcalls : ∀ c ∈ calls, c.2.Built) (q : Query) {t : JoinTree} (ht : t.Built) :
    let s : Synopsis := { config }
    ∃ seed advice, t.operators = .ok seed ∧ (s.run calls).recommend q t = .ok advice ∧
      ∀ j ∈ t.joins, ∃ path, JoinNode.Leads (.ofQuery config.filterAware q) [] t.joinSequence path j ∧
        (Spelling.ofPath path).Fits True j.tables ∧
        let noted := (s.log calls).filter (·.1 = path)
        (advice.joinFor? j.tables =
          match (Ledger.ofList config.gamma (noted.map fun e => (e.2.operator, e.2.cost))).recommendation? with
          | some op => some ⟨op, j.tables, (seed.joinFor? j.tables).bind (·.inner)⟩
          | none => seed.joinFor? j.tables) ∧
        (∀ choice, advice.joinFor? j.tables = some choice →
          (seed.joinFor? j.tables).map (·.operator) ≠ some choice.operator →
            ∃ e ∈ noted, ∃ e' ∈ noted, e.2.operator = choice.operator ∧ e'.2.operator ≠ choice.operator) ∧
        ∀ e ∈ noted, s.Observed calls e.2.operator e.2.tables ∧
          (Spelling.ofPath path).Fits (∀ c ∈ calls, c.2.scanned.Nodup) e.2.tables ∧
          ((∀ c ∈ calls, c.2.scanned.Nodup) → (∃ r i ts, .join j r i ts ∈ t.joins) → e.2.tables = j.tables) := by
  intro s
  have hsound := ht.sound
  obtain ⟨seed, hseed, hvalid, -⟩ := hsound.operators
  obtain ⟨_ | n⟩ := t
  · obtain rfl := Except.ok.inj hseed
    exact ⟨.empty, .empty, rfl, (s.run calls).recommend_empty q, nofun⟩
  have hn : n.Sound := hsound n rfl
  obtain ⟨hadvice, -⟩ := recommend_of_sound hn (s.run calls) q hseed hvalid
  rw [config_run] at hadvice
  have hperm := n.map_snd_places_perm (.ofQuery config.filterAware q) []
  have hnodup := hperm.nodup_iff.2 hn.nodup_joinSets
  refine ⟨seed, _, hseed, hadvice, fun j hj => ?_⟩
  obtain ⟨path, hpath⟩ := JoinNode.exists_leads (.ofQuery config.filterAware q) hj []
  have hmem := hpath.mem_places
  rw [← JoinNode.visits_eq_filterMap] at hmem
  have hfits := (hn.summed.places_fit hmem).mono fun _ : True => hn
  have hchoice := Node.joinFor?_followAll (n := (s.run calls).root) (a := seed) hnodup hmem
  rw [advice?_run, Node.ledgerOf] at hchoice
  refine ⟨path, hpath, hfits, hchoice, fun choice hfound hdiffers => ?_, fun e he => ?_⟩
  · exact exists_ne_of_changed hchoice hfound hdiffers
  obtain ⟨hlog, hend⟩ := List.mem_filter.1 he
  obtain rfl := of_decide_eq_true hend
  have hnoted := fits_of_mem_log hcalls hlog
  refine ⟨observed_of_mem_log hcalls hlog, hnoted, fun hscanned hinput => ?_⟩
  obtain ⟨r, i, ts, hinput⟩ := hinput
  obtain ⟨path', hmem', hwithin⟩ := JoinNode.exists_place_of_outer (JoinNode.joins_ne_nil hj) hinput []
  obtain rfl : path' = e.1 := congrArg Prod.fst (List.inj_on_of_nodup_map hnodup hmem' hmem rfl)
  exact (hnoted.mono fun _ => hscanned).eq_within hfits hwithin

theorem advice_rests_on_same_outers_inside :
    let table (name : String) : TableRef := ⟨name, none, none⟩
    let scan (name : String) : Plan := .scan (table name) none 1 1
    let plan (op : JoinOperator) (cost : Float) : Plan :=
      .join (some .hash) (.join (some op) (scan "r") (.passing "Hash" (scan "s")) cost 1) (scan "u") 60 1
    let s : Synopsis := { config := {} }
    let q : Query := { select := "*", sources := [table "r", table "s", table "u"] }
    let calls := [(q, plan .hash 50), (q, plan .nestedLoop 10)]
    let rs : TableSet := .ofList [table "r", table "s"]
    let below : JoinNode := .join (.ofTable (table "r")) (.ofTable (table "s")) {} rs
    let t : JoinTree := ⟨some (.join below (.ofTable (table "u")) {} (.ofList [table "r", table "s", table "u"]))⟩
    (∀ c ∈ calls, c.2.Built) ∧ t.Built ∧ ∃ advice, (s.run calls).recommend q t = .ok advice ∧
      advice.joinFor? rs = some ⟨.nestedLoop, rs, none⟩ ∧
      s.Observed calls .nestedLoop rs ∧ ∃ op, op ≠ .nestedLoop ∧ s.Observed calls op rs := by
  intro table scan plan s q calls rs below t
  have hscan : ∀ name, (scan name).Built := fun name => .scan (table name) none 1 1
  have hplan : ∀ op cost, (plan op cost).Built :=
    fun op cost => .join _ _ _ (.join _ _ _ (hscan "r") (.passing "Hash" (hscan "s"))) (hscan "u")
  have hcalls : ∀ c ∈ calls, c.2.Built := by
    simp only [calls, List.forall_mem_cons, List.not_mem_nil, false_implies, implies_true, and_true]
    exact ⟨hplan .hash 50, hplan .nestedLoop 10⟩
  have hscanned : ∀ c ∈ calls, c.2.scanned.Nodup := by decide +kernel
  have ht : t.Built := by
    apply JoinTree.Built.of_tables [table "r", table "s", table "u"]
    decide +kernel
  obtain ⟨seed, advice, hseed, hadvice, hjoins⟩ := advice_rests_on_same_outers {} hcalls q ht
  have hempty : t.operators = .ok .empty := by decide +kernel
  obtain rfl := Except.ok.inj (hempty.symm.trans hseed)
  have hchoice : ((s.run calls).recommend q t).map (·.joinFor? rs) = .ok (some ⟨.nestedLoop, rs, none⟩) := by
    decide +kernel
  rw [hadvice] at hchoice
  have hchoice : advice.joinFor? rs = some ⟨.nestedLoop, rs, none⟩ := Except.ok.inj hchoice
  obtain ⟨path, -, -, -, hdiffers, hnoted⟩ := hjoins below (.tail _ (.head _))
  obtain ⟨e, he, e', he', hop, hop'⟩ := hdiffers _ hchoice nofun
  have hinput : ∃ r i ts, JoinNode.join below r i ts ∈ t.joins := ⟨_, _, _, List.mem_cons_self⟩
  obtain ⟨hobserved, -, htables⟩ := hnoted e he
  obtain ⟨hobserved', -, htables'⟩ := hnoted e' he'
  rw [htables hscanned hinput, hop] at hobserved
  rw [htables' hscanned hinput] at hobserved'
  exact ⟨hcalls, ht, advice, hadvice, hchoice, hobserved, _, hop', hobserved'⟩

/-- A hash join of `r` and `s` was observed, and a cheaper nested loop of `r` and `u`. Both are known by their outer
input `r` only, so that a nested loop is advised for `r` and `s`, though none was observed. -/
theorem advice_mixes_inner_inputs :
    let table (name : String) : TableRef := ⟨name, none, none⟩
    let scan (name : String) : Plan := .scan (table name) none 1 10
    let plan (inner : String) (op : JoinOperator) (cost : Float) : Plan :=
      .join (some op) (scan "r") (scan inner) cost 10
    let s : Synopsis := { config := {} }
    let q : Query := { select := "*", sources := [table "r", table "s", table "u"] }
    let calls := [(q, plan "s" .hash 50), (q, plan "u" .nestedLoop 10)]
    let rs : TableSet := .ofList [table "r", table "s"]
    let j : JoinNode := .join (.ofTable (table "r")) (.ofTable (table "s")) {} rs
    (∀ c ∈ calls, c.2.Built) ∧ JoinTree.Built ⟨some j⟩ ∧ JoinTree.operators ⟨some j⟩ = .ok .empty ∧
      (∃ advice, (s.run calls).recommend q ⟨some j⟩ = .ok advice ∧
        advice.joinFor? rs = some ⟨.nestedLoop, rs, none⟩) ∧
      ¬∃ op op', op ≠ op' ∧ s.Observed calls op rs ∧ s.Observed calls op' rs := by
  intro table scan plan s q calls rs j
  have hplan : ∀ inner op cost, (plan inner op cost).Built :=
    fun inner op cost => .join _ _ _ (.scan (table "r") none 1 10) (.scan (table inner) none 1 10)
  have hcalls : ∀ c ∈ calls, c.2.Built := by
    simp only [calls, List.forall_mem_cons, List.not_mem_nil, false_implies, implies_true, and_true]
    exact ⟨hplan "s" .hash 50, hplan "u" .nestedLoop 10⟩
  have ht : JoinTree.Built ⟨some j⟩ :=
    .joining (.ofTable (table "r")) (.ofTable (table "s")) (by decide +kernel)
  have hadvice : ∃ advice, (s.run calls).recommend q ⟨some j⟩ = .ok advice ∧
      advice.joinFor? rs = some ⟨.nestedLoop, rs, none⟩ := by
    have hchoice : ((s.run calls).recommend q ⟨some j⟩).map (·.joinFor? rs) =
        .ok (some ⟨.nestedLoop, rs, none⟩) := by
      decide +kernel
    exact Outcome.mapped_ok_iff.1 hchoice
  have honly : ∀ op, s.Observed calls op rs → op = .hash := by
    rintro op ⟨before, q', p, after, hsplit, -, k, hk, hop, htables⟩
    have hmem : (q', p) ∈ calls := hsplit ▸ List.mem_append_right _ List.mem_cons_self
    have hnodes : ∀ inner op cost, (plan inner op cost).joinNodes = [plan inner op cost] := by
      simp [plan, scan]
    simp only [calls, List.mem_cons, Prod.mk.injEq, List.not_mem_nil, or_false] at hmem
    obtain ⟨-, rfl⟩ | ⟨-, rfl⟩ := hmem
    · rw [hnodes, List.mem_singleton] at hk
      obtain rfl := hk
      cases hop
      rfl
    · rw [hnodes, List.mem_singleton] at hk
      obtain rfl := hk
      have hother : (plan "u" .nestedLoop 10).tables ≠ rs := by decide +kernel
      exact (hother htables).elim
  refine ⟨hcalls, ht, by decide +kernel, hadvice, ?_⟩
  rintro ⟨op, op', hne, hop, hop'⟩
  exact hne ((honly op hop).trans (honly op' hop').symm)

end Synopsis

end OptimizerHints
