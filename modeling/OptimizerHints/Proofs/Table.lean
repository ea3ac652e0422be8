import Mathlib.Data.List.TakeWhile
import OptimizerHints.Error
import OptimizerHints.Proofs.Text.Words

/-! Which texts name a table, and that a table is written in a way that reads back. -/

namespace OptimizerHints.TableRef

open Text

def naming (words : List String) : List String := words.filter fun w => w ∉ ["as", "aS", "As", "AS"]

def Names (w : String) : Prop := ∀ before after, w.toList = before ++ '.' :: after → '.' ∉ before → after ≠ []

def qualified (t : TableRef) : String :=
  match t.schema with
  | some s => s ++ "." ++ t.name
  | none => t.name

def Dotless (t : TableRef) : Prop := '.' ∉ (t.schema.getD t.name).toList

def written (t : TableRef) : TableRef := if t.aliasName = some t.name then { t with aliasName := none } else t

def ofWord? (w : String) (aliasName : Option String) : Option TableRef :=
  let (schema, name) := splitSchema w.toList
  if name.isEmpty then none else some ⟨String.ofList name, aliasName, schema.map String.ofList⟩

variable {t : TableRef} {src w : String} {aliasName : Option String}

lemma parse_ok_iff : parse src = .ok t ↔ parse? src = some t := by
  rw [parse]
  cases parse? src <;> simp

section Words

variable {cs before after : List Char}

lemma splitSchema_of_not_mem (h : '.' ∉ cs) : splitSchema cs = (none, cs) := by
  have hnone : cs.dropWhile (· != '.') = [] :=
    List.dropWhile_eq_nil_iff.2 fun c hc => bne_iff_ne.2 fun heq => h (heq ▸ hc)
  rw [splitSchema, hnone]

lemma splitSchema_append (h : '.' ∉ before) (after : List Char) :
    splitSchema (before ++ '.' :: after) = (some before, after) := by
  have hdotless : ∀ c ∈ before, (c != '.') = true := fun c hc => bne_iff_ne.2 fun heq => h (heq ▸ hc)
  rw [splitSchema, List.dropWhile_append_of_pos hdotless, List.takeWhile_append_of_pos hdotless]
  simp

lemma toList_qualified_of_schema {s : String} (h : t.schema = some s) :
    t.qualified.toList = s.toList ++ '.' :: t.name.toList := by
  rw [qualified, h]
  simp

lemma splitSchema_qualified (h : t.Dotless) :
    splitSchema t.qualified.toList = (t.schema.map String.toList, t.name.toList) := by
  rw [Dotless] at h
  cases hschema : t.schema with
  | none =>
    rw [hschema] at h
    rw [qualified, hschema]
    exact splitSchema_of_not_mem h
  | some s =>
    rw [hschema] at h
    rw [toList_qualified_of_schema hschema]
    exact splitSchema_append h _

lemma exists_qualified (w : String) (aliasName : Option String) :
    ∃ t : TableRef, t.qualified = w ∧ t.Dotless ∧ t.aliasName = aliasName := by
  by_cases h : '.' ∈ w.toList
  · obtain ⟨before, after, hw, hbefore⟩ := List.eq_append_cons_of_mem h
    refine ⟨⟨String.ofList after, aliasName, some (String.ofList before)⟩, ?_, ?_, rfl⟩
    · rw [← String.toList_inj, hw]
      simp [qualified]
    · simpa [Dotless] using hbefore
  · exact ⟨⟨w, aliasName, none⟩, rfl, h, rfl⟩

lemma ofWord?_qualified (h : t.Dotless) : ofWord? t.qualified t.aliasName = if t.name = "" then none else some t := by
  have hschema : (t.schema.map String.toList).map String.ofList = t.schema := by
    cases t.schema <;> simp
  rw [ofWord?, splitSchema_qualified h]
  dsimp only
  rw [hschema, String.ofList_toList]
  simp

theorem ofWord?_eq_some_iff :
    ofWord? w aliasName = some t ↔ (t.Dotless ∧ t.name ≠ "") ∧ t.qualified = w ∧ t.aliasName = aliasName := by
  constructor
  · obtain ⟨u, rfl, hdotless, rfl⟩ := exists_qualified w aliasName
    rw [ofWord?_qualified hdotless]
    split
    · exact nofun
    · next hname =>
      intro h
      obtain rfl := Option.some.inj h
      exact ⟨⟨hdotless, hname⟩, rfl, rfl⟩
  · rintro ⟨⟨hdotless, hname⟩, rfl, rfl⟩
    rw [ofWord?_qualified hdotless, if_neg hname]

theorem exists_ofWord?_iff (hw : w ≠ "") : (∃ t, ofWord? w aliasName = some t) ↔ Names w := by
  constructor
  · rintro ⟨t, ht⟩ before after hsplit hbefore rfl
    obtain ⟨⟨hdotless, hname⟩, rfl, -⟩ := ofWord?_eq_some_iff.1 ht
    have hsame := (splitSchema_qualified hdotless).symm.trans (hsplit ▸ splitSchema_append hbefore [])
    exact hname (String.toList_eq_nil_iff.1 (congrArg Prod.snd hsame))
  · intro h
    obtain ⟨t, rfl, hdotless, rfl⟩ := exists_qualified w aliasName
    refine ⟨t, ofWord?_eq_some_iff.2 ⟨⟨hdotless, fun hname => ?_⟩, rfl, rfl⟩⟩
    rw [Dotless] at hdotless
    cases hschema : t.schema with
    | none =>
      rw [qualified, hschema] at hw
      exact hw hname
    | some s =>
      rw [hschema] at hdotless
      exact h _ _ (toList_qualified_of_schema hschema) hdotless (String.toList_eq_nil_iff.2 hname)

end Words

section Reading

lemma parse?_eq (src : String) :
    parse? src =
      match naming (words src) with
      | [w] => ofWord? w none
      | [w, aliasName] => ofWord? w (some aliasName)
      | _ => none := by
  have hnaming : ((words src).filter fun w => lowerAscii w != "as") = naming (words src) := by
    apply List.filter_congr
    intro w _
    rw [Bool.eq_iff_iff, bne_iff_ne, ne_eq, lowerAscii_eq_as_iff, decide_eq_true_iff]
  rw [← hnaming]
  rfl

theorem parse?_eq_some_iff :
    parse? src = some t ↔ (t.Dotless ∧ t.name ≠ "") ∧ naming (words src) = t.qualified :: t.aliasName.toList := by
  rw [parse?_eq]
  rcases naming (words src) with _ | ⟨w, _ | ⟨a, _ | ⟨b, ws⟩⟩⟩
  · simp
  · rw [ofWord?_eq_some_iff]
    cases t.aliasName <;> simp [eq_comm (b := w)]
  · rw [ofWord?_eq_some_iff]
    cases t.aliasName <;> simp [eq_comm (b := w), eq_comm (b := a)]
  · cases t.aliasName <;> simp

theorem exists_parse?_iff :
    (∃ t, parse? src = some t) ↔
      ((naming (words src)).length = 1 ∨ (naming (words src)).length = 2) ∧ ∀ w ∈ (naming (words src)).head?, Names w := by
  have hword : ∀ w ∈ naming (words src), w ≠ "" := by
    rintro w hw rfl
    exact (isWord_of_mem_words (List.mem_filter.1 hw).1).1 rfl
  rw [parse?_eq]
  generalize naming (words src) = ws at hword ⊢
  rcases ws with _ | ⟨w, _ | ⟨a, _ | ⟨b, ws⟩⟩⟩
  · simp
  · simp [exists_ofWord?_iff (hword w List.mem_cons_self)]
  · simp [exists_ofWord?_iff (hword w List.mem_cons_self)]
  · simp

end Reading

section Writing

lemma written_cases (t : TableRef) :
    t.aliasName = some t.name ∧ t.written = { t with aliasName := none } ∨
      t.aliasName ≠ some t.name ∧ t.written = t := by
  by_cases h : t.aliasName = some t.name
  · exact .inl ⟨h, if_pos h⟩
  · exact .inr ⟨h, if_neg h⟩

lemma name_written (t : TableRef) : t.written.name = t.name := by
  rw [written]
  split <;> rfl

lemma schema_written (t : TableRef) : t.written.schema = t.schema := by
  rw [written]
  split <;> rfl

lemma qualified_written (t : TableRef) : t.written.qualified = t.qualified := by
  rw [qualified, schema_written, name_written, qualified]

lemma written_written (t : TableRef) : t.written.written = t.written := by
  obtain ⟨-, h⟩ | ⟨-, h⟩ := t.written_cases
  · rw [h]
    exact if_neg nofun
  · rw [h, h]

lemma identifier_written (t : TableRef) : t.written.identifier = t.identifier := by
  obtain ⟨hsame, h⟩ | ⟨-, h⟩ := t.written_cases
  · rw [h, identifier, identifier, hsame]
    rfl
  · rw [h]

lemma render_eq (t : TableRef) :
    t.render = t.written.aliasName.elim t.qualified fun a => t.qualified ++ " AS " ++ a := by
  obtain ⟨name, aliasName, schema⟩ := t
  obtain ⟨h, hwritten⟩ | ⟨h, hwritten⟩ := written_cases ⟨name, aliasName, schema⟩
  · obtain rfl : aliasName = some name := h
    rw [hwritten]
    exact if_pos rfl
  · rw [hwritten]
    cases aliasName with
    | none => rfl
    | some a => exact if_neg fun heq => h (congrArg some heq)

lemma render_written (t : TableRef) : t.written.render = t.render := by
  rw [render_eq, written_written, qualified_written, ← render_eq]

lemma words_as {a : String} (hw : IsWord w.toList) (ha : IsWord a.toList) :
    words (w ++ " AS " ++ a) = [w, "AS", a] := by
  have has : IsWord "AS".toList := ⟨by decide, by simp [isBlank]⟩
  have hspaced := Spaced.before_blank hw (show isBlank ' ' = true from rfl)
    (.before_blank has (show isBlank ' ' = true from rfl) (.only ha))
  rw [words_eq_iff]
  simpa using hspaced

theorem naming_render (h : parse? src = some t) :
    naming (words t.render) = t.qualified :: t.written.aliasName.toList := by
  obtain ⟨-, hnaming⟩ := parse?_eq_some_iff.1 h
  have hkept : ∀ w ∈ naming (words src), IsWord w.toList ∧ w ∉ ["as", "aS", "As", "AS"] := fun w hw =>
    ⟨isWord_of_mem_words (List.mem_filter.1 hw).1, of_decide_eq_true (List.mem_filter.1 hw).2⟩
  rw [hnaming, List.forall_mem_cons] at hkept
  obtain ⟨⟨hword, hnot⟩, halias⟩ := hkept
  rw [render_eq]
  cases hwritten : t.written.aliasName with
  | none =>
    have hwords : words t.qualified = [t.qualified] := words_eq_iff.2 (.only hword)
    rw [Option.elim_none, hwords]
    exact List.filter_eq_self.2 fun w hw => List.mem_singleton.1 hw ▸ decide_eq_true hnot
  | some a =>
    have hkept : t.aliasName = some a := by
      obtain ⟨-, hdropped⟩ | ⟨-, hsame⟩ := t.written_cases
      · rw [hdropped] at hwritten
        cases hwritten
      · rwa [hsame] at hwritten
    obtain ⟨hword', hnot'⟩ := halias a (by rw [hkept]; exact List.mem_singleton_self a)
    rw [Option.elim_some, words_as hword hword']
    simp only [naming, List.filter_cons, hnot, hnot']
    rfl

/-- A text gives a table if its words other than `AS` are one or two and the first of them has something behind its
first dot or no dot. What is read is written in a way that reads back, but for an alias that repeats the name; such an
alias makes no difference to the identifier and to what is written. -/
theorem render_reads_back (src : String) :
    ((∃ t, parse src = .ok t) ↔ ∃ ws, Spaced (ws.map String.toList) src.toList ∧
      ((naming ws).length = 1 ∨ (naming ws).length = 2) ∧ ∀ w ∈ (naming ws).head?, Names w) ∧
    ∀ t, parse src = .ok t → ∃ t', parse t.render = .ok t' ∧
      t' = (if t.aliasName = some t.name then { t with aliasName := none } else t) ∧
      t'.identifier = t.identifier ∧ t'.name = t.name ∧ t'.schema = t.schema ∧ t'.render = t.render := by
  constructor
  · simp only [parse_ok_iff, exists_parse?_iff, ← words_eq_iff, exists_eq_left']
  · intro t ht
    have hread := parse_ok_iff.1 ht
    obtain ⟨⟨hdotless, hname⟩, -⟩ := parse?_eq_some_iff.1 hread
    refine ⟨t.written, parse_ok_iff.2 (parse?_eq_some_iff.2 ⟨⟨?_, ?_⟩, ?_⟩), rfl, t.identifier_written, t.name_written,
      t.schema_written, t.render_written⟩
    · rwa [Dotless, schema_written, name_written]
    · rwa [name_written]
    · rw [naming_render hread, qualified_written]

theorem render_reads_back_dotted :
    let stock : TableRef := ⟨"stock.new", some "s", some "shop"⟩
    let r : TableRef := ⟨"r", some "r", some ""⟩
    parse " shop.stock.new As\ts" = .ok stock ∧ stock.render = "shop.stock.new AS s" ∧ parse stock.render = .ok stock ∧
      parse "as .r r" = .ok r ∧ r.render = ".r" ∧ parse r.render = .ok ⟨"r", none, some ""⟩ := by
  intro stock r
  have hstock : parse " shop.stock.new As\ts" = .ok stock := by decide +kernel
  have hr : parse "as .r r" = .ok r := by decide +kernel
  obtain ⟨_, hback, rfl, -⟩ := (render_reads_back _).2 stock hstock
  obtain ⟨_, hback', rfl, -⟩ := (render_reads_back _).2 r hr
  exact ⟨hstock, by decide +kernel, hback, hr, by decide +kernel, hback'⟩

end Writing

end OptimizerHints.TableRef
