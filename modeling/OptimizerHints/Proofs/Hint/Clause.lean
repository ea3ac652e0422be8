import OptimizerHints.Hint.Parts
import OptimizerHints.Proofs.Text.Lines

namespace OptimizerHints.HintParts

open Text

def OfLines (p : HintParts) : Prop := (∀ s ∈ p.settings, IsLine s) ∧ ∀ h ∈ p.hints, IsLine h

instance : DecidablePred OfLines := fun _ => inferInstanceAs (Decidable (_ ∧ _))

def blockLines (hints : List String) : List String :=
  if hints = [] then [] else "/*+" :: hints.map ("  " ++ ·) ++ ["*/"]

variable {p q : HintParts} {c : HintClause} {hints hints' : List String}

lemma blockLines_of_ne_nil (h : hints ≠ []) : blockLines hints = "/*+" :: hints.map ("  " ++ ·) ++ ["*/"] := if_neg h

lemma blockLines_eq_nil_iff : blockLines hints = [] ↔ hints = [] := by
  by_cases h : hints = []
  · exact iff_of_true (if_pos h) h
  · rw [blockLines_of_ne_nil h]
    exact iff_of_false (List.cons_ne_nil _ _) h

lemma blockLines_injective (h : blockLines hints = blockLines hints') : hints = hints' := by
  have hnil : hints = [] ↔ hints' = [] := by rw [← blockLines_eq_nil_iff, h, blockLines_eq_nil_iff]
  by_cases hhints : hints = []
  · rw [hhints, hnil.1 hhints]
  · rw [blockLines_of_ne_nil hhints, blockLines_of_ne_nil (mt hnil.2 hhints)] at h
    have hindented := List.append_cancel_right (List.cons.inj h).2
    exact (List.map_inj_right fun s t => (String.append_right_inj "  ").1).1 hindented

lemma isLine_of_mem_blockLines (h : ∀ s ∈ hints, IsLine s) : ∀ l ∈ blockLines hints, IsLine l := by
  by_cases hnil : hints = []
  · rw [blockLines, if_pos hnil]
    nofun
  · rw [blockLines_of_ne_nil hnil, List.cons_append, List.forall_mem_cons, List.forall_mem_append, List.forall_mem_map,
      List.forall_mem_singleton]
    exact ⟨by decide, fun s hs => (h s hs).append_left (by decide), by decide⟩

lemma block_eq (hints : List String) : block hints = "\n".intercalate (blockLines hints) := by
  by_cases h : hints = []
  · rw [h]
    rfl
  · have hended := join_ended_append ("/*+" :: hints.map ("  " ++ ·)) "*/"
    have hopened : "/*+\n" = "/*+" ++ "\n" := rfl
    rw [block, List.isEmpty_eq_false_iff.2 h, blockLines_of_ne_nil h, ← hended, List.map_cons, String.join_cons,
      List.map_map, hopened]
    rfl

lemma clause?_eq_none_iff : p.clause? = none ↔ p = empty := by
  obtain ⟨settings, hints⟩ := p
  cases settings <;> cases hints <;> simp [clause?, isEmpty, empty]

lemma eq_of_clause?_eq_some (h : p.clause? = some c) :
    c = ⟨"\n".intercalate p.settings, "\n".intercalate (blockLines p.hints)⟩ := by
  rw [clause?] at h
  split at h
  · cases h
  · rw [← block_eq]
    exact (Option.some.inj h).symm

lemma OfLines.lines_preparation (hp : p.OfLines) (h : p.clause? = some c) : lines c.preparation = p.settings := by
  obtain rfl := eq_of_clause?_eq_some h
  exact lines_intercalate hp.1

lemma OfLines.lines_hints (hp : p.OfLines) (h : p.clause? = some c) : lines c.hints = blockLines p.hints := by
  obtain rfl := eq_of_clause?_eq_some h
  exact lines_intercalate (isLine_of_mem_blockLines hp.2)

lemma render_intercalate {ks ls : List String} (hks : ∀ k ∈ ks, IsLine k) (hls : ∀ l ∈ ls, IsLine l) :
    HintClause.render ⟨"\n".intercalate ks, "\n".intercalate ls⟩ = "\n".intercalate (ks ++ ls) := by
  have hshown {ls : List String} (hnil : ls ≠ []) (hls : ∀ l ∈ ls, IsLine l) : ("\n".intercalate ls).isEmpty = false :=
    String.isEmpty_eq_false_iff.2 (intercalate_ne_empty hnil fun l hl => (hls l hl).1)
  rw [HintClause.render]
  by_cases hk : ks = [] <;> by_cases hl : ls = []
  · rw [hk, hl]
    rfl
  · simp [hk, hshown hl hls]
  · simp [hl, hshown hk hks]
  · simp [hshown hk hks, hshown hl hls, intercalate_append "\n" hk hl, String.append_assoc]

lemma OfLines.lines_render (hp : p.OfLines) (h : p.clause? = some c) :
    lines c.render = lines c.preparation ++ lines c.hints := by
  have hblock := isLine_of_mem_blockLines hp.2
  rw [hp.lines_preparation h, hp.lines_hints h, eq_of_clause?_eq_some h, render_intercalate hp.1 hblock]
  exact lines_intercalate (List.forall_mem_append.2 ⟨hp.1, hblock⟩)

lemma OfLines.eq_of_clause?_eq (hp : p.OfLines) (hq : q.OfLines) (h : p.clause? = q.clause?) : p = q := by
  cases hc : p.clause? with
  | none => rw [clause?_eq_none_iff.1 hc, clause?_eq_none_iff.1 (h.symm.trans hc)]
  | some c =>
    have hc' := h.symm.trans hc
    have hsettings : p.settings = q.settings := (hp.lines_preparation hc).symm.trans (hq.lines_preparation hc')
    have hhints : p.hints = q.hints := blockLines_injective ((hp.lines_hints hc).symm.trans (hq.lines_hints hc'))
    cases p
    cases q
    cases hsettings
    cases hhints
    rfl

/-- Parts without a clause are empty, and the clause determines the parts. The lines of its statements are the settings,
those of its comment the hints, indented, between two of its own, and its text has the ones and then the others. -/
theorem clause_loses_nothing (hp : p.OfLines) :
    (p.clause? = none ↔ p = empty) ∧ (∀ q : HintParts, q.OfLines → p.clause? = q.clause? → p = q) ∧
    ∀ c, p.clause? = some c →
      lines c.preparation = p.settings ∧ (c.hints = "" ↔ p.hints = []) ∧
      (p.hints ≠ [] → lines c.hints = "/*+" :: p.hints.map ("  " ++ ·) ++ ["*/"]) ∧
      lines c.render = lines c.preparation ++ lines c.hints := by
  refine ⟨clause?_eq_none_iff, fun q hq => hp.eq_of_clause?_eq hq, fun c hc => ?_⟩
  have hhints := hp.lines_hints hc
  refine ⟨hp.lines_preparation hc, ⟨fun hempty => ?_, fun hnil => ?_⟩, fun hne => ?_, hp.lines_render hc⟩
  · rw [hempty] at hhints
    exact blockLines_eq_nil_iff.1 hhints.symm
  · rw [eq_of_clause?_eq_some hc, hnil]
    rfl
  · rw [hhints, blockLines_of_ne_nil hne]

theorem clause_loses_nothing_both :
    let p : HintParts := ⟨["SET a;", "SET b;"], ["SeqScan(r)", "HashJoin(r s)"]⟩
    let q : HintParts := ⟨["SET a;", "SET b;"], []⟩
    let c : HintClause := ⟨"SET a;\nSET b;", "/*+\n  SeqScan(r)\n  HashJoin(r s)\n*/"⟩
    p.OfLines ∧ q.OfLines ∧ p.clause? = some c ∧ p.clause? ≠ q.clause? ∧ lines c.preparation = p.settings ∧
      lines c.hints = ["/*+", "  SeqScan(r)", "  HashJoin(r s)", "*/"] := by
  intro p q c
  have hp : p.OfLines := by decide +kernel
  have hq : q.OfLines := by decide +kernel
  have hc : p.clause? = some c := by decide +kernel
  obtain ⟨-, hdetermines, hlines⟩ := clause_loses_nothing hp
  obtain ⟨hpreparation, -, hhints, -⟩ := hlines c hc
  exact ⟨hp, hq, hc, fun h => absurd (hdetermines q hq h) (by decide), hpreparation, hhints (by decide)⟩

end OptimizerHints.HintParts
