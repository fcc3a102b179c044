import DisplayBuffers.Proofs.SessionEstate

/-! Runs as histories. A history has every operation of a run in order, with the session before it,
its outcome and the session after it, so that what a state should be can be told from what was done
and answered before. -/
namespace DisplayBuffers.Session
variable {σ ι : Type} {D : Driver σ ι}

/-- An operation of a run, where it was made. -/
structure Turn (σ ι : Type) where
  before : Session σ
  op : Op ι
  answer : Answer
  after : Session σ

def turn (D : Driver σ ι) (s : Session σ) (op : Op ι) : Turn σ ι :=
  ⟨s, op, (s.step D op).1.answer, (s.step D op).2⟩

def history (D : Driver σ ι) (s : Session σ) : List (Op ι) → List (Turn σ ι)
  | [] => []
  | op :: ops => s.turn D op :: (s.step D op).2.history D ops

/-- What was answered is what a run answers. -/
theorem answer_history (s : Session σ) (ops : List (Op ι)) :
    (s.history D ops).map (·.answer) = (s.run D ops).1.map (·.answer) := by
  induction ops generalizing s with
  | nil => rfl
  | cons op ops ih => exact congrArg _ (ih _)

theorem run_append (s : Session σ) (ops ops' : List (Op ι)) :
    (s.run D (ops ++ ops')).2 = ((s.run D ops).2.run D ops').2 := by
  induction ops generalizing s with
  | nil => rfl
  | cons op ops ih => exact ih _

theorem run_concat (s : Session σ) (ops : List (Op ι)) (op : Op ι) :
    (s.run D (ops ++ [op])).2 = ((s.run D ops).2.step D op).2 :=
  run_append s ops [op]

theorem history_append (s : Session σ) (ops ops' : List (Op ι)) :
    s.history D (ops ++ ops') = s.history D ops ++ (s.run D ops).2.history D ops' := by
  induction ops generalizing s with
  | nil => rfl
  | cons op ops ih => exact congrArg _ (ih _)

theorem history_concat (s : Session σ) (ops : List (Op ι)) (op : Op ι) :
    s.history D (ops ++ [op]) = s.history D ops ++ [(s.run D ops).2.turn D op] :=
  history_append s ops [op]

/-- What holds at first, and is kept by every turn together with the history so far, holds after
every run. -/
theorem history_keeps {I : List (Turn σ ι) → Session σ → Prop} {s : Session σ} (start : I [] s)
    (step : ∀ ops op, I (s.history D ops) (s.run D ops).2 →
      I (s.history D ops ++ [(s.run D ops).2.turn D op]) ((s.run D ops).2.step D op).2)
    (ops : List (Op ι)) : I (s.history D ops) (s.run D ops).2 := by
  induction ops using List.reverseRecOn with
  | nil => exact start
  | append_singleton ops op ih =>
    rw [history_concat, run_concat]
    exact step ops op ih

/-- The latest thing that turns tell of. -/
def latest? {α : Type} (f : Turn σ ι → Option α) (h : List (Turn σ ι)) : Option α :=
  h.foldl (fun a e => (f e).or a) none

theorem latest?_concat {α : Type} (f : Turn σ ι → Option α) (h : List (Turn σ ι))
    (e : Turn σ ι) : latest? f (h ++ [e]) = (f e).or (latest? f h) := by
  rw [latest?, List.foldl_append]
  rfl

/-- Operations only add to the events and count upwards. -/
theorem step_advances (s : Session σ) (op : Op ι) : s.world.Advances (s.step D op).2.world := by
  have hsupplied : s.world.Advances (s.supplied D op).world := by
    cases op
    case receive name => exact ⟨List.prefix_rfl, le_rfl, le_rfl⟩
    all_goals exact .refl _
  exact hsupplied.trans (step_changes s op).moves.advances

theorem run_advances (s : Session σ) (ops : List (Op ι)) :
    s.world.Advances (s.run D ops).2.world := by
  induction ops generalizing s with
  | nil => exact .refl _
  | cons op ops ih => exact (step_advances s op).trans (ih _)

end DisplayBuffers.Session
