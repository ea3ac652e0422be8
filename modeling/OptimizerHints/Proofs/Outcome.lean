import Mathlib.Tactic.Common

/-! When computations that may fail give a result, alone and in a row, and what they leave behind where they change a
value that is held. -/

namespace OptimizerHints.Outcome

variable {ε δ ρ σ : Type}

lemma then_ok_iff {r : Except ε ρ} {next : ρ → Except ε σ} {y : σ} :
    r >>= next = .ok y ↔ ∃ x, r = .ok x ∧ next x = .ok y := by
  rcases r with e | x
  · exact ⟨nofun, fun ⟨_, h, _⟩ => nomatch h⟩
  · exact ⟨fun h => ⟨x, rfl, h⟩, fun ⟨_, rfl, h⟩ => h⟩

lemma then_error_iff {r : Except ε ρ} {next : ρ → Except ε σ} {e : ε} :
    r >>= next = .error e ↔ r = .error e ∨ ∃ x, r = .ok x ∧ next x = .error e := by
  rcases r with e' | x
  · exact ⟨fun h => .inl (congrArg _ (Except.error.inj h)), fun h => h.elim (congrArg _ ∘ Except.error.inj) nofun⟩
  · exact ⟨fun h => .inr ⟨x, rfl, h⟩, fun h => h.elim nofun fun ⟨_, hx, h⟩ => Except.ok.inj hx ▸ h⟩

lemma done_ok_iff {x y : ρ} : (pure x : Except ε ρ) = .ok y ↔ x = y :=
  ⟨Except.ok.inj, congrArg _⟩

lemma error_iff {r : Except ε ρ} : (∃ e, r = .error e) ↔ ¬∃ x, r = .ok x := by
  cases r <;> simp

lemma both_ok_iff {r : Except ε Unit} {s : Except ε σ} {y : σ} :
    (r >>= fun _ => s) = .ok y ↔ r = .ok () ∧ s = .ok y := by
  rw [then_ok_iff]
  exact ⟨fun ⟨_, hr, hs⟩ => ⟨hr, hs⟩, fun ⟨hr, hs⟩ => ⟨(), hr, hs⟩⟩

lemma mapped_ok_iff {r : Except ε ρ} {f : ρ → σ} {y : σ} : r.map f = .ok y ↔ ∃ x, r = .ok x ∧ f x = y := by
  rcases r with e | x
  · exact ⟨nofun, fun ⟨_, h, _⟩ => nomatch h⟩
  · exact ⟨fun h => ⟨x, rfl, Except.ok.inj h⟩, fun ⟨_, rfl, h⟩ => congrArg _ h⟩

lemma renamed_ok_iff {r : Except ε ρ} {f : ε → δ} {x : ρ} : r.mapError f = .ok x ↔ r = .ok x := by
  rcases r with e | y
  · exact ⟨nofun, nofun⟩
  · exact ⟨fun h => congrArg _ (Except.ok.inj h), fun h => congrArg _ (Except.ok.inj h)⟩

lemma renamed_error_iff {r : Except ε ρ} {f : ε → δ} {e : δ} :
    r.mapError f = .error e ↔ ∃ e', r = .error e' ∧ f e' = e := by
  rcases r with e' | x
  · exact ⟨fun h => ⟨e', rfl, Except.error.inj h⟩, fun ⟨_, h, he⟩ => congrArg _ (Except.error.inj h ▸ he)⟩
  · exact ⟨nofun, fun ⟨_, h, _⟩ => nomatch h⟩

theorem each_ok_iff {check : ρ → Except ε Unit} (xs : List ρ) :
    xs.forM check = .ok () ↔ ∀ x ∈ xs, check x = .ok () := by
  induction xs with
  | nil => exact ⟨fun _ => nofun, fun _ => rfl⟩
  | cons x xs ih =>
    have hcons : (x :: xs).forM check = check x >>= fun _ => xs.forM check := rfl
    rw [hcons, both_ok_iff, List.forall_mem_cons, ih]

theorem folded_of_step {P : σ → Prop} {f : σ → ρ → Except ε σ} {xs : List ρ} {acc y : σ}
    (step : ∀ acc x acc', x ∈ xs → f acc x = .ok acc' → P acc → P acc') (h : xs.foldlM f acc = .ok y) (hacc : P acc) :
    P y := by
  induction xs generalizing acc with
  | nil =>
    obtain rfl := done_ok_iff.1 h
    exact hacc
  | cons x xs ih =>
    rw [List.foldlM_cons] at h
    obtain ⟨acc', hacc', h⟩ := then_ok_iff.1 h
    have hfirst := step acc x acc' List.mem_cons_self hacc' hacc
    exact ih (fun acc x' acc' hx' => step acc x' acc' (List.mem_cons_of_mem x hx')) h hfirst

lemma folded_around {f : σ → ρ → Except ε σ} {before after : List ρ} {x : ρ} {acc y : σ}
    (h : (before ++ x :: after).foldlM f acc = .ok y) :
    ∃ acc₁ acc₂, before.foldlM f acc = .ok acc₁ ∧ f acc₁ x = .ok acc₂ ∧ after.foldlM f acc₂ = .ok y := by
  rw [List.foldlM_append] at h
  obtain ⟨acc₁, hbefore, h⟩ := then_ok_iff.1 h
  rw [List.foldlM_cons] at h
  obtain ⟨acc₂, hx, hafter⟩ := then_ok_iff.1 h
  exact ⟨acc₁, acc₂, hbefore, hx, hafter⟩

lemma mapped_then {τ : Type} (r : Except ε ρ) (next : ρ → Except ε σ) (f : σ → τ) :
    (r >>= next).map f = r >>= fun x => (next x).map f := by
  cases r <;> rfl

theorem collected_ok_iff {f : ρ → Except ε σ} (xs : List ρ) (ys : List σ) :
    xs.mapM f = .ok ys ↔ xs.map f = ys.map .ok := by
  induction xs generalizing ys with
  | nil => cases ys <;> simp [pure, Except.pure]
  | cons x xs ih =>
    rw [List.mapM_cons, then_ok_iff]
    constructor
    · rintro ⟨y, hx, h⟩
      obtain ⟨zs, hxs, h⟩ := then_ok_iff.1 h
      obtain rfl := done_ok_iff.1 h
      rw [List.map_cons, List.map_cons, hx, (ih zs).1 hxs]
    · intro h
      cases ys with
      | nil => cases h
      | cons y ys =>
        obtain ⟨hx, hxs⟩ := List.cons.inj h
        exact ⟨y, hx, then_ok_iff.2 ⟨ys, (ih ys).2 hxs, rfl⟩⟩

lemma both_done_iff {τ : Type} {r : Except ε ρ} {s : Except ε σ} {f : ρ → σ → τ} :
    (∃ z, (do let x ← r; return f x (← s)) = .ok z) ↔ (∃ x, r = .ok x) ∧ ∃ y, s = .ok y := by
  constructor
  · rintro ⟨z, h⟩
    obtain ⟨x, hx, h⟩ := then_ok_iff.1 h
    obtain ⟨y, hy, -⟩ := then_ok_iff.1 h
    exact ⟨⟨x, hx⟩, y, hy⟩
  · rintro ⟨⟨x, rfl⟩, y, rfl⟩
    exact ⟨f x y, rfl⟩

lemma lookups_ok_iff {f : ρ → Except ε σ} {find : ρ → Option σ} (h : ∀ x y, f x = .ok y ↔ find x = some y)
    (xs : List ρ) (ys : List σ) : xs.mapM f = .ok ys ↔ xs.map find = ys.map some := by
  rw [collected_ok_iff]
  induction xs generalizing ys with
  | nil => cases ys <;> simp
  | cons x xs ih => cases ys <;> simp [h, ih]

lemma exists_found_iff {find : ρ → Option σ} (xs : List ρ) :
    (∃ ys : List σ, xs.map find = ys.map some) ↔ ∀ x ∈ xs, (find x).isSome = true := by
  induction xs with
  | nil => exact ⟨fun _ => nofun, fun _ => ⟨[], rfl⟩⟩
  | cons x xs ih =>
    rw [List.forall_mem_cons, ← ih]
    constructor
    · rintro ⟨ys, h⟩
      cases ys with
      | nil => cases h
      | cons y ys =>
        obtain ⟨hx, hxs⟩ := List.cons.inj h
        exact ⟨Option.isSome_of_eq_some hx, ys, hxs⟩
    · rintro ⟨hx, ys, hxs⟩
      obtain ⟨y, hy⟩ := Option.isSome_iff_exists.1 hx
      exact ⟨y :: ys, by rw [List.map_cons, List.map_cons, hy, hxs]⟩

lemma exists_of_found {find : ρ → Option σ} {xs : List ρ} {ys : List σ} (h : xs.map find = ys.map some) {y : σ}
    (hy : y ∈ ys) : ∃ x ∈ xs, find x = some y := by
  have hsome := List.mem_map_of_mem (f := some) hy
  rw [← h] at hsome
  exact List.mem_map.1 hsome

/-- A call that changes a held value. What it has changed stays changed if it fails later on. -/
abbrev InPlace (ε σ : Type) := ExceptT ε (StateM σ)

def InPlace.perform (call : InPlace ε σ Unit) (held : σ) : Except ε Unit × σ := (ExceptT.run call).run held

def settle (held : σ) : Except ε σ → Except ε Unit × σ
  | .ok changed => (.ok (), changed)
  | .error e => (.error e, held)

lemma InPlace.perform_checked (check : Except ε ρ) (next : ρ → InPlace ε σ Unit) (held : σ) :
    perform (liftM check >>= next) held =
      match check with
      | .ok x => (next x).perform held
      | .error e => (.error e, held) := by
  cases check <;> rfl

end OptimizerHints.Outcome
