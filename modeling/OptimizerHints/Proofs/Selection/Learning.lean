import OptimizerHints.Proofs.Synopsis.Log
import OptimizerHints.Selection

/-! What a selection has learned after any calls is what its synopsis makes of the plans of the successful ones. -/

namespace OptimizerHints

namespace Backend

def forcedPlan? (b : Backend) (q : Query) (executed : Plan) : Option Plan :=
  (Selection.forcedQuery b.provider q executed).toOption.bind fun forced => (b.ask (.estimate forced)).1.toOption

end Backend

namespace Selection

inductive Call where
  | select (query : Query) (tree : Option JoinTree)
  | integrate (query : Query) (plan : Option Plan)
  | incorporate (query : Query) (executed : Plan)
  | simulate (query : Query)

def Call.isFeedback : Call → Bool
  | select .. => false
  | integrate .. | incorporate .. | simulate .. => true

def perform (s : Selection) : Call → Except SelectionError Unit × Selection
  | .select q t => ((s.select q t).1.map fun _ => (), (s.select q t).2)
  | .integrate q p => s.integrate q p
  | .incorporate q executed => s.incorporate q executed
  | .simulate q => s.simulate q

def performAll (s : Selection) (calls : List Call) : Selection := calls.foldl (fun s c => (s.perform c).2) s

def lesson? (s : Selection) : Call → Option (Query × Plan)
  | .select .. => none
  | .integrate q (some p) => some (q, p)
  | .integrate q none => (s.backend.ask (.estimate q)).1.toOption.map (q, ·)
  | .incorporate q executed => (s.backend.forcedPlan? q executed).map (q, ·)
  | .simulate q =>
    let answer := s.backend.ask (.analyze q)
    (answer.1.toOption.bind (answer.2.forcedPlan? q)).map (q, ·)

def lessons (s : Selection) : List Call → List (Query × Plan)
  | [] => []
  | c :: calls =>
    (match (s.perform c).1 with
    | .ok () => (s.lesson? c).toList
    | .error _ => []) ++ (s.perform c).2.lessons calls

def Learns (s : Selection) (lesson : Option (Query × Plan)) (r : Except SelectionError Unit × Selection) : Prop :=
  (∃ q p, lesson = some (q, p) ∧ (s.synopsis.integrate q p).1 = .ok () ∧ r.1 = .ok () ∧
    r.2.synopsis = (s.synopsis.integrate q p).2) ∨
  (∃ e, r.1 = .error e) ∧ r.2.synopsis = s.synopsis

lemma learn_learns (s : Selection) (q : Query) (p : Plan) : Learns s (some (q, p)) (s.learn q p) := by
  rcases h : (s.synopsis.integrate q p).1 with e | u
  · exact .inr ⟨⟨.synopsis e, congrArg (Except.mapError SelectionError.synopsis) h⟩, Synopsis.integrate_of_error h⟩
  · exact .inl ⟨q, p, rfl, h, congrArg (Except.mapError SelectionError.synopsis) h, rfl⟩

lemma withPlan_learns (s : Selection) (r : PlanRequest) (lesson : Plan → Option (Query × Plan))
    (next : Selection → Plan → Except SelectionError Unit × Selection)
    (h : ∀ p, Learns s (lesson p) (next { s with backend := (s.backend.ask r).2 } p)) :
    Learns s ((s.backend.ask r).1.toOption.bind lesson) (s.withPlan r next) := by
  unfold withPlan
  rcases hr : s.backend.ask r with ⟨e | p, backend⟩
  · exact .inr ⟨⟨e, rfl⟩, rfl⟩
  · have hp := h p
    rw [hr] at hp
    exact hp

lemma estimate_learns (s : Selection) (asked q : Query) :
    Learns s ((s.backend.ask (.estimate asked)).1.toOption.map (q, ·))
      (s.withPlan (.estimate asked) fun s p => s.learn q p) := by
  rw [Option.map_eq_bind]
  exact withPlan_learns s (.estimate asked) _ _ fun p =>
    learn_learns { s with backend := (s.backend.ask (.estimate asked)).2 } q p

lemma incorporate_learns (s : Selection) (q : Query) (executed : Plan) :
    Learns s ((s.backend.forcedPlan? q executed).map (q, ·)) (s.incorporate q executed) := by
  rw [incorporate, Backend.forcedPlan?]
  cases forcedQuery s.backend.provider q executed with
  | error e => exact .inr ⟨⟨e, rfl⟩, rfl⟩
  | ok forced => exact estimate_learns s forced q

theorem perform_learns (s : Selection) {c : Call} (h : c.isFeedback = true) :
    Learns s (s.lesson? c) (s.perform c) := by
  cases c with
  | select q t => cases h
  | integrate q p =>
    cases p with
    | some p => exact learn_learns s q p
    | none => exact estimate_learns s q q
  | incorporate q executed => exact incorporate_learns s q executed
  | simulate q =>
    simp only [lesson?, Option.map_bind]
    exact withPlan_learns s (.analyze q) _ _ fun p =>
      incorporate_learns { s with backend := (s.backend.ask (.analyze q)).2 } q p

lemma synopsis_select (s : Selection) (q : Query) (t : Option JoinTree) : (s.select q t).2.synopsis = s.synopsis := by
  rw [select]
  split
  · rfl
  · unfold withPlan
    rcases s.backend.ask (.estimate q) with ⟨e | p, backend⟩ <;> rfl

theorem synopsis_perform (s : Selection) (c : Call) : (s.perform c).2.synopsis = s.synopsis.run (s.lessons [c]) := by
  cases hc : c.isFeedback with
  | false =>
    cases c with
    | select q t =>
      rw [lessons, perform, synopsis_select]
      split <;> rfl
    | _ => cases hc
  | true =>
    obtain ⟨q, p, hlesson, -, hr, hs⟩ | ⟨⟨e, hr⟩, hs⟩ := perform_learns s hc
    · simp [lessons, hlesson, hr, hs, Synopsis.run]
    · simp [lessons, hr, hs, Synopsis.run]

theorem synopsis_performAll (s : Selection) (calls : List Call) :
    (s.performAll calls).synopsis = s.synopsis.run (s.lessons calls) := by
  induction calls generalizing s with
  | nil => rfl
  | cons c calls ih =>
    have hall : s.performAll (c :: calls) = (s.perform c).2.performAll calls := rfl
    rw [hall, ih, synopsis_perform]
    simp [lessons, Synopsis.run]

lemma lessons_of_ok {s : Selection} {c : Call} (hc : c.isFeedback = true) (h : (s.perform c).1 = .ok ()) :
    ∃ q p, s.lessons [c] = [(q, p)] ∧ (s.synopsis.integrate q p).1 = .ok () := by
  obtain ⟨q, p, hlesson, hok, -, -⟩ | ⟨⟨e, hr⟩, -⟩ := perform_learns s hc
  · exact ⟨q, p, by simp [lessons, h, hlesson], hok⟩
  · rw [h] at hr
    cases hr

/-- What fails leaves no trace: in a node, in a synopsis, and in a selection, which learns from the lessons of its
successful feedback calls and from nothing else. Once a sequence passes the check, all of it is recorded. -/
theorem failed_feedback_learns_nothing :
    (∀ gamma view js (n : Node Float) e,
      (n.integrate gamma view js).1 = .error e → (n.integrate gamma view js).2 = n) ∧
    (∀ (s : Synopsis) q p e, (s.integrate q p).1 = .error e → (s.integrate q p).2 = s) ∧
    (∀ js, Plan.checkJoins js = .ok () → ∀ gamma view n, (Node.recordJoins gamma view js n).1 = .ok ()) ∧
    (∀ (s : Selection) calls, (s.performAll calls).synopsis = s.synopsis.run (s.lessons calls)) ∧
    (∀ (s : Selection) (c : Call), c.isFeedback = true → (s.perform c).1 = .ok () →
      ∃ q p, s.lessons [c] = [(q, p)] ∧ (s.synopsis.integrate q p).1 = .ok ()) :=
  ⟨fun _ _ _ _ _ h => Node.integrate_of_error h, fun _ _ _ _ h => Synopsis.integrate_of_error h,
    fun _ h gamma view n => Node.recordJoins_of_checkJoins h gamma view n, synopsis_performAll,
    fun _ _ hc h => lessons_of_ok hc h⟩

theorem failed_feedback_late_error :
    let scan (name : String) : Plan := .scan ⟨name, none, none⟩ none 1 1
    let below : Plan := .join (some .hash) (scan "r") (scan "s") 5 1
    let above : Plan := .join none (scan "u") below 9 1
    let s : Synopsis := { config := {}, root := { costs := [(.hash, 1)] } }
    let q : Query := { select := "*", sources := [] }
    (s.integrate q above).1 = .error (.malformedNode (.withoutOperator "Join")) ∧ (s.integrate q above).2 = s := by
  intro scan below above s q
  have h : (s.integrate q above).1 = .error (.malformedNode (.withoutOperator "Join")) := by decide +kernel
  exact ⟨h, failed_feedback_learns_nothing.2.1 s q above _ h⟩

end Selection

end OptimizerHints
