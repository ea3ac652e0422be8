import OptimizerHints.Proofs.Hint.DirectedOrder
import OptimizerHints.Proofs.Hint.Request

/-! Hints are compiled exactly if all decisions can be expressed, and then each decision is among them. -/

namespace OptimizerHints

open Outcome

def Dialect.forced? (d : Dialect) (op : Operator) (tables : String) : Option String :=
  (d.operatorHint? op).map fun name => name ++ "(" ++ tables ++ ")"

namespace Hint

variable {d : Dialect} {t : JoinTree} {a : Assignment} {p : Parameters}

section Lookup

variable {op : Operator} {text : String}

lemma settingStatement_ok_iff {s : Setting} :
    settingStatement d op s = .ok text ↔ d.settingStatement? op s = some text := by
  rw [settingStatement]
  cases d.settingStatement? op s <;> simp

lemma operatorHint_ok_iff {tables : String} :
    operatorHint d op tables = .ok text ↔ d.forced? op tables = some text := by
  rw [operatorHint, Dialect.forced?]
  cases d.operatorHint? op <;> simp

lemma indexHint_ok_iff {table : Option TableRef} {names : List String} :
    indexHint d table names = .ok text ↔ d.indexHint? table names = some text := by
  rw [indexHint]
  cases d.indexHint? table names <;> simp

lemma rowsHint_ok_iff {ts : TableSet} {n : Nat} : rowsHint d ts n = .ok text ↔ d.rowsHint? ts n = some text := by
  rw [rowsHint]
  cases d.rowsHint? ts n <;> simp

lemma joinOrderHint_eq (ts : List TableRef) : joinOrderHint d ts = .ok (d.tableOrder ts) := by
  cases d <;> rfl

end Lookup

structure Wording where
  order : Option DirectedOrder
  settings : List String
  scans : List String
  joins : List String
  indexes : List String
  rows : List String

namespace Wording

structure Covers (w : Wording) (d : Dialect) (t : JoinTree) (a : Assignment) (p : Parameters) : Prop where
  order : DirectedOrder.ofTree t (some a) = .ok w.order
  settings : a.settings.entries.map (fun e => d.settingStatement? e.1 e.2) = w.settings.map some
  scans : a.scans.entries.map (fun e => d.forced? (.scan e.2.operator) e.1.identifier) = w.scans.map some
  joins : a.joins.entries.map (fun e => d.forced? (.join e.2.operator) (e.1.joinIdentifiers d.separator)) =
    w.joins.map some
  indexes : (p.indexes.entries.filter fun e => !e.2.isEmpty).map (fun e => d.indexHint? e.1 e.2) = w.indexes.map some
  rows : p.rows.entries.map (fun e => d.rowsHint? e.1 e.2) = w.rows.map some

def directives (w : Wording) (d : Dialect) : List String := (w.order.map (·.hint d)).toList ++ (w.scans ++ w.joins)

def hints (w : Wording) (d : Dialect) (p : Parameters) : List String :=
  HintParts.extend (w.directives d) (w.indexes ++ p.joinOrders.map d.tableOrder ++ w.rows)

end Wording

lemma operatorParts_ok_iff {parts : HintParts} :
    operatorParts d a = .ok parts ↔ ∃ settings scans joins,
      a.settings.entries.map (fun e => d.settingStatement? e.1 e.2) = settings.map some ∧
      a.scans.entries.map (fun e => d.forced? (.scan e.2.operator) e.1.identifier) = scans.map some ∧
      a.joins.entries.map (fun e => d.forced? (.join e.2.operator) (e.1.joinIdentifiers d.separator)) = joins.map some ∧
      ⟨settings, scans ++ joins⟩ = parts := by
  have hsettings := lookups_ok_iff (f := fun e => settingStatement d e.1 e.2) (fun _ _ => settingStatement_ok_iff)
    a.settings.entries
  have hscans := lookups_ok_iff (f := fun e => operatorHint d (.scan e.2.operator) e.1.identifier)
    (fun _ _ => operatorHint_ok_iff) a.scans.entries
  have hjoins := lookups_ok_iff
    (f := fun e => operatorHint d (.join e.2.operator) (e.1.joinIdentifiers d.separator))
    (fun _ _ => operatorHint_ok_iff) a.joins.entries
  rw [operatorParts]
  simp only [then_ok_iff, done_ok_iff, hsettings, hscans, hjoins, exists_and_left]

lemma parameterParts_ok_iff {parts : HintParts} :
    parameterParts d p = .ok parts ↔ ∃ indexes rows,
      (p.indexes.entries.filter fun e => !e.2.isEmpty).map (fun e => d.indexHint? e.1 e.2) = indexes.map some ∧
      p.rows.entries.map (fun e => d.rowsHint? e.1 e.2) = rows.map some ∧
      ⟨[], indexes ++ p.joinOrders.map d.tableOrder ++ rows⟩ = parts := by
  have hindexes := lookups_ok_iff (f := fun e => indexHint d e.1 e.2) (fun _ _ => indexHint_ok_iff)
    (p.indexes.entries.filter fun e => !e.2.isEmpty)
  have horders : p.joinOrders.mapM (joinOrderHint d) = .ok (p.joinOrders.map d.tableOrder) := by
    rw [collected_ok_iff, List.map_map]
    exact List.map_congr_left fun ts _ => joinOrderHint_eq ts
  have hrows := lookups_ok_iff (f := fun e => rowsHint d e.1 e.2) (fun _ _ => rowsHint_ok_iff) p.rows.entries
  rw [parameterParts, horders]
  simp only [then_ok_iff, done_ok_iff, hindexes, hrows, Except.ok.injEq, exists_eq_left', exists_and_left]

lemma orderParts_ok_iff {ops : Option Assignment} {parts : HintParts} :
    orderParts d t ops = .ok parts ↔
      ∃ order, DirectedOrder.ofTree t ops = .ok order ∧ ⟨[], (order.map (·.hint d)).toList⟩ = parts := by
  rw [orderParts, then_ok_iff]
  refine exists_congr fun order => and_congr_right fun _ => ?_
  cases order <;> exact done_ok_iff

lemma forced?_ne_hint {op : Operator} {tables text : String} (h : d.forced? op tables = some text)
    (order : DirectedOrder) : order.hint d ≠ text := by
  obtain ⟨name, hname, rfl⟩ := Option.map_eq_some_iff.1 h
  intro heq
  -- no hint for an operator starts with the letter that the directive for the order starts with
  have hhead := congrArg (fun s => s.toList.head?) heq
  cases d <;> rcases op with (_ | _ | _ | _) | (_ | _ | _ | _ | _ | _ | _ | _) <;> cases hname <;>
    simp [DirectedOrder.hint, Dialect.tableOrder, String.toList_append] at hhead

lemma extend_nil (ys : List String) : HintParts.extend [] ys = ys := by
  simp [HintParts.extend]

lemma extend_of_not_mem {xs ys : List String} (h : ∀ y ∈ ys, y ∉ xs) : HintParts.extend xs ys = xs ++ ys := by
  rw [HintParts.extend, List.filter_eq_self.2 fun y hy => decide_eq_true (h y hy)]

lemma Wording.Covers.extend_order {w : Wording} (h : w.Covers d t a p) :
    HintParts.extend (w.order.map (·.hint d)).toList (w.scans ++ w.joins) = w.directives d := by
  refine extend_of_not_mem fun text htext hmem => ?_
  obtain ⟨order, -, rfl⟩ := Option.map_eq_some_iff.1 (Option.mem_toList.1 hmem)
  rcases List.mem_append.1 htext with hscan | hjoin
  · obtain ⟨e, -, he⟩ := exists_of_found h.scans hscan
    exact forced?_ne_hint he order rfl
  · obtain ⟨e, -, he⟩ := exists_of_found h.joins hjoin
    exact forced?_ne_hint he order rfl

lemma Wording.Covers.merge_eq {w : Wording} (h : w.Covers d t a p) :
    ((HintParts.empty.merge ⟨[], (w.order.map (·.hint d)).toList⟩).merge ⟨w.settings, w.scans ++ w.joins⟩).merge
      ⟨[], w.indexes ++ p.joinOrders.map d.tableOrder ++ w.rows⟩ = ⟨w.settings, w.hints d p⟩ := by
  simp only [HintParts.merge, HintParts.empty, extend_nil, h.extend_order]
  rw [HintParts.extend, List.filter_nil, List.append_nil]
  rfl

theorem parts_ok_iff {r : Request} {parts : HintParts} :
    Hint.parts d r = .ok parts ↔
      r.decidedOperators.Valid ∧ r.decidedOperators.checkAgainst r.decidedTree = .ok () ∧
        ∃ w : Wording, w.Covers d r.decidedTree r.decidedOperators r.decidedParameters ∧
          ⟨w.settings, w.hints d r.decidedParameters⟩ = parts := by
  rw [parts_eq, both_ok_iff, both_ok_iff, renamed_ok_iff, renamed_ok_iff, Assignment.validate_ok_iff]
  refine and_congr_right fun _ => and_congr_right fun _ => ?_
  simp only [then_ok_iff, done_ok_iff, orderParts_ok_iff, operatorParts_ok_iff, parameterParts_ok_iff]
  constructor
  · rintro ⟨_, ⟨order, horder, rfl⟩, _, ⟨settings, scans, joins, hsettings, hscans, hjoins, rfl⟩, _,
      ⟨indexes, rows, hindexes, hrows, rfl⟩, rfl⟩
    have hcovers : Wording.Covers ⟨order, settings, scans, joins, indexes, rows⟩ d r.decidedTree r.decidedOperators
        r.decidedParameters := ⟨horder, hsettings, hscans, hjoins, hindexes, hrows⟩
    exact ⟨_, hcovers, hcovers.merge_eq.symm⟩
  · rintro ⟨w, hw, rfl⟩
    exact ⟨_, ⟨w.order, hw.order, rfl⟩, _, ⟨w.settings, w.scans, w.joins, hw.settings, hw.scans, hw.joins, rfl⟩, _,
      ⟨w.indexes, w.rows, hw.indexes, hw.rows, rfl⟩, hw.merge_eq⟩

structure Expressible (d : Dialect) (t : JoinTree) (a : Assignment) (p : Parameters) : Prop where
  valid : a.Valid
  known : t.isEmpty = false → ∀ ts c, a.joinFor? ts = some c → ts ∈ t.subtrees
  directed : ∀ l r i ts, .join l r i ts ∈ t.joins → DirectedOrder.Directable a l r ts
  settings : ∀ e ∈ a.settings.entries, (d.settingStatement? e.1 e.2).isSome = true
  scans : ∀ e ∈ a.scans.entries, (d.operatorHint? (.scan e.2.operator)).isSome = true
  joins : ∀ e ∈ a.joins.entries, (d.operatorHint? (.join e.2.operator)).isSome = true
  indexes : d = .postgres → ∀ names, p.indexes.get? none = some names → names = []
  rows : d = .mysql → p.rows.entries = []

lemma indexes_found_iff :
    (∀ e ∈ p.indexes.entries.filter fun e => !e.2.isEmpty, (d.indexHint? e.1 e.2).isSome = true) ↔
      (d = .postgres → ∀ names, p.indexes.get? none = some names → names = []) := by
  simp only [List.mem_filter, Bool.not_eq_true', List.isEmpty_eq_false_iff, Prod.forall, and_imp,
    ← SortedMap.mem_entries_iff]
  cases d with
  | mysql => exact iff_of_true (fun table names _ _ => by cases table <;> rfl) nofun
  | postgres =>
    constructor
    · intro h _ names hnames
      by_contra hne
      exact absurd (h none names hnames hne) (by simp [Dialect.indexHint?])
    · intro h table names hnames hne
      cases table with
      | none => exact absurd (h rfl names hnames) hne
      | some table => rfl

lemma rows_found_iff :
    (∀ e ∈ p.rows.entries, (d.rowsHint? e.1 e.2).isSome = true) ↔ (d = .mysql → p.rows.entries = []) := by
  cases d with
  | postgres => exact iff_of_true (fun _ _ => rfl) nofun
  | mysql => simp [Dialect.rowsHint?, List.eq_nil_iff_forall_not_mem]

lemma isSome_forced? (op : Operator) (tables : String) : (d.forced? op tables).isSome = (d.operatorHint? op).isSome :=
  Option.isSome_map

theorem expressible_iff (h : t.Sound) :
    Expressible d t a p ↔ a.Valid ∧ a.checkAgainst t = .ok () ∧ ∃ w : Wording, w.Covers d t a p := by
  rw [Assignment.checkAgainst_ok_iff]
  constructor
  · intro he
    obtain ⟨order, horder⟩ := (DirectedOrder.ofTree_ok_iff h).2 he.directed
    obtain ⟨settings, hsettings⟩ := (exists_found_iff a.settings.entries).2 he.settings
    obtain ⟨scans, hscans⟩ := (exists_found_iff a.scans.entries).2 fun e hmem =>
      (isSome_forced? (.scan e.2.operator) e.1.identifier).trans (he.scans e hmem)
    obtain ⟨joins, hjoins⟩ := (exists_found_iff a.joins.entries).2 fun e hmem =>
      (isSome_forced? (.join e.2.operator) (e.1.joinIdentifiers d.separator)).trans (he.joins e hmem)
    obtain ⟨indexes, hindexes⟩ := (exists_found_iff _).2 (indexes_found_iff.2 he.indexes)
    obtain ⟨rows, hrows⟩ := (exists_found_iff _).2 (rows_found_iff.2 he.rows)
    exact ⟨he.valid, he.known, ⟨order, settings, scans, joins, indexes, rows⟩,
      ⟨horder, hsettings, hscans, hjoins, hindexes, hrows⟩⟩
  · rintro ⟨hvalid, hknown, w, hw⟩
    have hscans := (exists_found_iff a.scans.entries).1 ⟨w.scans, hw.scans⟩
    have hjoins := (exists_found_iff a.joins.entries).1 ⟨w.joins, hw.joins⟩
    exact {
      valid := hvalid
      known := hknown
      directed := (DirectedOrder.ofTree_ok_iff h).1 ⟨w.order, hw.order⟩
      settings := (exists_found_iff a.settings.entries).1 ⟨w.settings, hw.settings⟩
      scans := fun e hmem => (isSome_forced? _ _).symm.trans (hscans e hmem)
      joins := fun e hmem => (isSome_forced? _ _).symm.trans (hjoins e hmem)
      indexes := indexes_found_iff.1 ((exists_found_iff _).1 ⟨w.indexes, hw.indexes⟩)
      rows := rows_found_iff.1 ((exists_found_iff _).1 ⟨w.rows, hw.rows⟩) }

lemma Expressible.compiles {r : Request} (h : r.decidedTree.Sound)
    (he : Expressible d r.decidedTree r.decidedOperators r.decidedParameters) (q : Query) :
    ∃ q', compile d r q = .ok q' := by
  obtain ⟨hvalid, hknown, w, hw⟩ := (expressible_iff h).1 he
  exact ⟨_, then_ok_iff.2 ⟨_, parts_ok_iff.2 ⟨hvalid, hknown, w, hw, rfl⟩, rfl⟩⟩

def hinted (q : Query) (settings hints : List String) : Query :=
  if settings = [] ∧ hints = [] then q
  else { q with hint := some ⟨"\n".intercalate settings, HintParts.block hints⟩ }

lemma clause_eq_hinted (q : Query) (parts : HintParts) :
    (parts.clause?.elim q fun c => { q with hint := some c }) = hinted q parts.settings parts.hints := by
  rw [HintParts.clause?, HintParts.isEmpty, hinted]
  by_cases h : parts.settings = [] ∧ parts.hints = []
  · simp [h]
  · have hsome : (parts.settings.isEmpty && parts.hints.isEmpty) = false := by
      rw [← Bool.not_eq_true, Bool.and_eq_true, List.isEmpty_iff, List.isEmpty_iff]
      exact h
    rw [hsome, if_neg h]
    rfl

/-- Compiling succeeds exactly if all decisions can be expressed, where an absent one counts as an empty one. Then the
query gets a statement for each setting, and a directive for the order of two or more tables, for each scan, for each
join and for each parameter, unless the one for the parameter is there already. -/
theorem compile_ok_iff_expressible (d : Dialect) (r : Request) (q : Query) (h : r.decidedTree.Built) :
    ((∃ q', compile d r q = .ok q') ↔ Expressible d r.decidedTree r.decidedOperators r.decidedParameters) ∧
      ∀ q', compile d r q = .ok q' →
        ∃ w : Wording, w.Covers d r.decidedTree r.decidedOperators r.decidedParameters ∧
          (w.order.isSome = true ↔ 2 ≤ r.decidedTree.tables.size) ∧
          q' = hinted q w.settings (w.hints d r.decidedParameters) := by
  have hcompile : ∀ q', compile d r q = .ok q' ↔
      ∃ parts, Hint.parts d r = .ok parts ∧ hinted q parts.settings parts.hints = q' := by
    intro q'
    rw [compile, then_ok_iff]
    simp only [done_ok_iff, clause_eq_hinted]
  constructor
  · rw [expressible_iff h.sound]
    constructor
    · rintro ⟨q', hq'⟩
      obtain ⟨parts, hparts, -⟩ := (hcompile q').1 hq'
      obtain ⟨hvalid, hknown, w, hw, -⟩ := parts_ok_iff.1 hparts
      exact ⟨hvalid, hknown, w, hw⟩
    · rintro ⟨hvalid, hknown, w, hw⟩
      exact ⟨_, (hcompile _).2 ⟨_, parts_ok_iff.2 ⟨hvalid, hknown, w, hw, rfl⟩, rfl⟩⟩
  · intro q' hq'
    obtain ⟨parts, hparts, rfl⟩ := (hcompile q').1 hq'
    obtain ⟨-, -, w, hw, rfl⟩ := parts_ok_iff.1 hparts
    exact ⟨w, hw, DirectedOrder.isSome_ofTree hw.order, rfl⟩

theorem compile_ok_iff_expressible_all_kinds :
    let r := TableRef.mk "r" none none
    let s := TableRef.mk "s" none none
    let rs : TableSet := .ofList [r, s]
    let t : JoinTree := ⟨some (.join (.ofTable r) (.ofTable s) {} rs)⟩
    let a : Assignment :=
      { scans := .ofList [(r, ⟨.index, r⟩)]
        joins := .ofList [(rs, ⟨.hash, rs, some (.singleton r)⟩)]
        settings := .ofList [(.join .nestedLoop, .disabled)] }
    let p : Parameters := { rows := .ofList [(rs, 42)] }
    let q : Query := { select := "*", sources := [r, s] }
    let clause : HintClause := ⟨"SET enable_nestloop = 'off';",
      "/*+\n  Leading((s r))\n  IndexScan(r)\n  HashJoin(r s)\n  Rows(r s #42)\n*/"⟩
    t.Built ∧ Expressible .postgres t a p ∧
      compile .postgres ⟨some t, some a, some p⟩ q = .ok { q with hint := some clause } := by
  intro r s rs t a p q clause
  have hjoin : JoinTree.joining (.ofTable r) (.ofTable s) = .ok t := by decide +kernel
  have hbuilt : t.Built := .joining (.ofTable r) (.ofTable s) hjoin
  have hcompile : compile .postgres ⟨some t, some a, some p⟩ q = .ok { q with hint := some clause } := by decide +kernel
  exact ⟨hbuilt, (compile_ok_iff_expressible .postgres ⟨some t, some a, some p⟩ q hbuilt).1.1 ⟨_, hcompile⟩, hcompile⟩

end Hint

end OptimizerHints
