import Mathlib.Algebra.BigOperators.Group.List.Basic
import Mathlib.Data.List.Induction

/-!
# Step Machines and their Runs

A component whose operations are total functions of its state is a **step machine**:
`step : σ → ε → σ` for operations `ε`. A run is a left fold of the steps, and a
property of every run is proved from one step lemma by one of the rules below.

* `run_invariant`: a property of the state that every step preserves.
* `run_history`: a relation between the operations so far and the state.
* `guarded_invariant`: the same for runs whose steps all meet a side condition
  (`Guarded`), which may speak about the state before the step.
* `run_withGhost`: a history variable may be carried along without disturbing the run.

The outputs a machine emits along a run are its `outputs`; `outputs_append` and
`outputs_snoc` split them as the run is split. A part of the state that is a machine of its own
runs over a log of the operations (`run_logged`), and `cascade` puts two machines in series.
-/

universe u v w x y

namespace Machine

variable {σ : Type u} {ε : Type v}

/-- The state after the operations `es`, from `s`. -/
def run (step : σ → ε → σ) (s : σ) (es : List ε) : σ := es.foldl step s

section Run

variable (step : σ → ε → σ) (s : σ)

@[simp] theorem run_nil : run step s [] = s := rfl

@[simp] theorem run_cons (e : ε) (es : List ε) :
    run step s (e :: es) = run step (step s e) es := rfl

/-- A run splits at any point. -/
theorem run_append (es fs : List ε) :
    run step s (es ++ fs) = run step (run step s es) fs := List.foldl_append

/-- The last operation of a run acts on the state the others reached. -/
theorem run_snoc (es : List ε) (e : ε) :
    run step s (es ++ [e]) = step (run step s es) e := by
  rw [run_append, run_cons, run_nil]

end Run

/-- A machine that may be absent. -/
theorem run_option (step : σ → ε → σ) (o : Option σ) (es : List ε) :
    run (fun o e => o.map fun s => step s e) o es = o.map fun s => run step s es := by
  induction es generalizing o with
  | nil => exact Option.map_id'.symm
  | cons e es ih => rw [run_cons, ih, Option.map_map]; rfl

variable {step : σ → ε → σ} {s : σ}

/-- What every step preserves holds after every run. -/
theorem run_invariant {P : σ → Prop} (h : P s) (hstep : ∀ s e, P s → P (step s e))
    (es : List ε) : P (run step s es) := by
  induction es generalizing s with
  | nil => exact h
  | cons e es ih => exact ih (hstep s e h)

/-- **The history rule**: a relation between the operations so far and the state they
lead to, extended by one operation at a time. -/
theorem run_history {R : List ε → σ → Prop} (h : R [] s)
    (hstep : ∀ es e, R es (run step s es) → R (es ++ [e]) (step (run step s es) e))
    (es : List ε) : R es (run step s es) := by
  induction es using List.reverseRecOn with
  | nil => exact h
  | append_singleton es e ih =>
      rw [run_snoc]
      exact hstep es e ih

/-- **When a property holds throughout a run**: exactly when no operation of the run is one that
ends it. -/
theorem run_throughout_iff {P : σ → Prop} {Ends : σ → ε → Prop} (h : P s)
    (hstep : ∀ s e, P s → (P (step s e) ↔ ¬ Ends s e)) (es : List ε) :
    (∀ es₁, es₁ <+: es → P (run step s es₁)) ↔
      ∀ es₁ e es₂, es = es₁ ++ e :: es₂ → ¬ Ends (run step s es₁) e := by
  constructor
  · rintro hall es₁ e es₂ rfl
    have hpre := hall es₁ (List.prefix_append _ _)
    have hnext := hall (es₁ ++ [e]) ⟨es₂, by simp⟩
    rw [run_snoc] at hnext
    exact (hstep _ e hpre).mp hnext
  · intro hnone es₁ hpre
    induction es₁ using List.reverseRecOn with
    | nil => exact h
    | append_singleton es₁ e ih =>
        obtain ⟨es₂, rfl⟩ := hpre
        rw [run_snoc]
        exact (hstep _ e (ih ⟨e :: es₂, by simp⟩)).mpr (hnone es₁ e es₂ (by simp))

/-! ### Runs whose steps meet a condition -/

/-- Every operation of the run meets the condition `ok` in the state it acts on. -/
def Guarded (step : σ → ε → σ) (ok : σ → ε → Prop) : σ → List ε → Prop
  | _, [] => True
  | s, e :: es => ok s e ∧ Guarded step ok (step s e) es

/-- Whether a run is guarded can be computed along it. -/
instance decidableGuarded (ok : σ → ε → Prop) [∀ s e, Decidable (ok s e)] :
    ∀ (s : σ) (es : List ε), Decidable (Guarded step ok s es)
  | _, [] => isTrue trivial
  | s, e :: es =>
      have := decidableGuarded ok (step s e) es
      inferInstanceAs (Decidable (ok s e ∧ Guarded step ok (step s e) es))

/-- A guarded run, extended by one operation. -/
theorem guarded_snoc {ok : σ → ε → Prop} {es : List ε} {e : ε} :
    Guarded step ok s (es ++ [e]) ↔ Guarded step ok s es ∧ ok (run step s es) e := by
  induction es generalizing s with
  | nil => simp [Guarded]
  | cons f es ih => simp only [List.cons_append, Guarded, ih, run_cons, and_assoc]

/-- The first part of a guarded run is guarded. -/
theorem Guarded.left {ok : σ → ε → Prop} {es fs : List ε}
    (h : Guarded step ok s (es ++ fs)) : Guarded step ok s es := by
  induction es generalizing s with
  | nil => trivial
  | cons e es ih => exact ⟨h.1, ih h.2⟩

/-- What every guarded step preserves holds after every guarded run. -/
theorem guarded_invariant {ok : σ → ε → Prop} {P : σ → Prop} (h : P s)
    (hstep : ∀ s e, ok s e → P s → P (step s e)) {es : List ε}
    (hok : Guarded step ok s es) : P (run step s es) := by
  induction es generalizing s with
  | nil => exact h
  | cons e es ih => exact ih (hstep s e hok.1 h) hok.2

/-- Two guards that agree wherever an invariant holds guard the same runs. -/
theorem guarded_congr {ok ok' : σ → ε → Prop} {P : σ → Prop} (h : P s)
    (hstep : ∀ s e, P s → P (step s e)) (hiff : ∀ s e, P s → (ok s e ↔ ok' s e))
    (es : List ε) : Guarded step ok s es ↔ Guarded step ok' s es := by
  induction es generalizing s with
  | nil => exact Iff.rfl
  | cons e es ih => exact and_congr (hiff s e h) (ih (hstep s e h))

/-! ### History variables -/

variable {γ : Type w}

/-- Carry a history variable beside the state. Its update sees the state before the
operation and the operation. -/
def withGhost (step : σ → ε → σ) (update : σ → ε → γ → γ) (p : σ × γ) (e : ε) : σ × γ :=
  (step p.1 e, update p.1 e p.2)

/-- A history variable does not disturb the run. -/
theorem run_withGhost (update : σ → ε → γ → γ) (g : γ) (es : List ε) :
    (run (withGhost step update) (s, g) es).1 = run step s es := by
  induction es generalizing s g with
  | nil => rfl
  | cons e es ih => exact ih _

/-- Conditions on the state carry over to the machine with a history variable. -/
theorem guarded_withGhost {ok : σ → ε → Prop} (update : σ → ε → γ → γ) (g : γ)
    (es : List ε) :
    Guarded (withGhost step update) (fun p e => ok p.1 e) (s, g) es ↔
      Guarded step ok s es := by
  induction es generalizing s g with
  | nil => rfl
  | cons e es ih => exact and_congr Iff.rfl (ih _)

/-! ### Parts that evolve on their own -/

section Projects

variable {τ : Type w} {ζ : Type x} {step' : τ → ζ → τ} {view : σ → τ} {proj : ε → Option ζ}

/-- What `view` shows of the state follows a machine of its own: an operation either means
something to it (`proj`), or leaves it alone. -/
def Projects (step : σ → ε → σ) (step' : τ → ζ → τ) (view : σ → τ) (proj : ε → Option ζ) : Prop :=
  ∀ s e, view (step s e) = (proj e).elim (view s) (step' (view s))

theorem Projects.run (h : Projects step step' view proj) (s : σ) (es : List ε) :
    view (run step s es) = Machine.run step' (view s) (es.filterMap proj) := by
  induction es generalizing s with
  | nil => rfl
  | cons e es ih =>
      rw [run_cons, ih, h]
      cases hp : proj e with
      | none => rw [List.filterMap_cons_none hp, Option.elim_none]
      | some z => rw [List.filterMap_cons_some hp, Option.elim_some, run_cons]

/-- **Noninterference**: two runs show the same if they start from the same and the same
operations mean something to what is shown. -/
theorem Projects.run_congr (h : Projects step step' view proj) {s t : σ} {es fs : List ε}
    (hview : view s = view t) (hproj : es.filterMap proj = fs.filterMap proj) :
    view (Machine.run step s es) = view (Machine.run step t fs) := by
  rw [h.run, h.run, hview, hproj]

/-- The other operations can be left out. -/
theorem Projects.run_filter (h : Projects step step' view proj) (s : σ) (es : List ε) :
    view (Machine.run step s (es.filter fun e => (proj e).isSome)) =
      view (Machine.run step s es) := by
  refine h.run_congr rfl ?_
  rw [List.filterMap_filter]
  congr 1
  funext e
  cases proj e <;> rfl

/-- Two operations can change places if one of them means nothing to what is shown. -/
theorem Projects.run_swap (h : Projects step step' view proj) (s : σ) (es fs : List ε) {e f : ε}
    (hef : proj e = none ∨ proj f = none) :
    view (Machine.run step s (es ++ e :: f :: fs)) =
      view (Machine.run step s (es ++ f :: e :: fs)) := by
  refine h.run_congr rfl ?_
  rw [List.filterMap_append, List.filterMap_append]
  rcases hef with he | hf
  · simp [List.filterMap_cons, he]
  · simp [List.filterMap_cons, hf]

end Projects

/-! ### Outputs -/

variable {ω : Type w}

/-- The outputs of a run, in order. -/
def outputs (step : σ → ε → σ × List ω) : σ → List ε → List ω
  | _, [] => []
  | s, e :: es => (step s e).2 ++ outputs step (step s e).1 es

/-- The state part of a machine with outputs. -/
abbrev next (step : σ → ε → σ × List ω) (s : σ) (e : ε) : σ := (step s e).1

/-- The outputs of a run that is split at some point. -/
theorem outputs_append {step : σ → ε → σ × List ω} (es fs : List ε) :
    outputs step s (es ++ fs) =
      outputs step s es ++ outputs step (run (next step) s es) fs := by
  induction es generalizing s with
  | nil => rfl
  | cons e es ih => simp only [List.cons_append, outputs, ih, List.append_assoc, run_cons]

/-- The last operation of a run emits its outputs in the state the others reached. -/
theorem outputs_snoc {step : σ → ε → σ × List ω} (es : List ε) (e : ε) :
    outputs step s (es ++ [e]) =
      outputs step s es ++ (step (run (next step) s es) e).2 := by
  rw [outputs_append, outputs, outputs, List.append_nil]

/-- What is read off the outputs, when it depends on the operations alone in the states that
occur. -/
theorem flatMap_outputs {α : Type x} {step : σ → ε → σ × List ω} {P : σ → Prop} {f : ω → List α}
    {g : ε → List α} (hstep : ∀ s e, P s → P (step s e).1)
    (h : ∀ s e, P s → (step s e).2.flatMap f = g e) (hs : P s) (es : List ε) :
    (outputs step s es).flatMap f = es.flatMap g := by
  induction es generalizing s with
  | nil => rfl
  | cons e es ih =>
      rw [outputs, List.flatMap_append, List.flatMap_cons, h s e hs, ih (hstep s e hs)]

/-- A quantity of the outputs, summed up. -/
theorem sum_outputs {M : Type x} [AddMonoid M] {step : σ → ε → σ × List ω} {P : σ → Prop}
    {f : ω → M} {g : ε → M} (hstep : ∀ s e, P s → P (step s e).1)
    (h : ∀ s e, P s → ((step s e).2.map f).sum = g e) (hs : P s) (es : List ε) :
    ((outputs step s es).map f).sum = (es.map g).sum := by
  induction es generalizing s with
  | nil => rfl
  | cons e es ih =>
      rw [outputs, List.map_append, List.sum_append, h s e hs, ih (hstep s e hs), List.map_cons,
        List.sum_cons]

/-- Two quantities of the outputs that agree at every step agree over a run. -/
theorem sum_outputs_congr {M : Type x} [AddMonoid M] {step : σ → ε → σ × List ω} {f g : ω → M}
    (h : ∀ s e, ((step s e).2.map f).sum = ((step s e).2.map g).sum) (s : σ) (es : List ε) :
    ((outputs step s es).map f).sum = ((outputs step s es).map g).sum := by
  induction es generalizing s with
  | nil => rfl
  | cons e es ih =>
      rw [outputs, List.map_append, List.map_append, List.sum_append, List.sum_append, h, ih]

/-! ### Logs -/

/-- What is noted of the operations of a run. A note may depend on the state before its
operation. -/
def logged (step : σ → ε → σ) (log : σ → ε → List ω) : σ → List ε → List ω :=
  outputs fun s e => (step s e, log s e)

section Logged

variable {step : σ → ε → σ} {log : σ → ε → List ω}

theorem logged_cons (e : ε) (es : List ε) :
    logged step log s (e :: es) = log s e ++ logged step log (step s e) es := rfl

/-- What is read off the notes can be noted at once. -/
theorem filterMap_logged {χ : Type x} (f : ω → Option χ) (s : σ) (es : List ε) :
    (logged step log s es).filterMap f = logged step (fun s e => (log s e).filterMap f) s es := by
  induction es generalizing s with
  | nil => rfl
  | cons e es ih => rw [logged_cons, logged_cons, List.filterMap_append, ih]

/-- A part of the state whose steps are runs of a machine of its own runs over the log. -/
theorem run_logged {τ : Type x} {step' : τ → ω → τ} (view : σ → τ)
    (h : ∀ s e, view (step s e) = run step' (view s) (log s e)) (s : σ) (es : List ε) :
    view (run step s es) = run step' (view s) (logged step log s es) := by
  induction es generalizing s with
  | nil => rfl
  | cons e es ih => rw [run_cons, ih, logged_cons, run_append, h]

/-- Its outputs are those of the log. -/
theorem outputs_logged {τ : Type x} {χ : Type y} {step' : τ → ω → τ × List χ}
    {out : σ → ε → List χ} (view : σ → τ)
    (h : ∀ s e, view (step s e) = run (next step') (view s) (log s e))
    (hout : ∀ s e, out s e = outputs step' (view s) (log s e)) (s : σ) (es : List ε) :
    logged step out s es = outputs step' (view s) (logged step log s es) := by
  induction es generalizing s with
  | nil => rfl
  | cons e es ih => rw [logged_cons, ih, logged_cons, outputs_append, hout, h]

end Logged

section Series

variable {τ : Type x} {step : σ → ε → σ × List ω}

/-- A machine that is seen as another one runs as that one does. -/
theorem run_of_view {step' : τ → ε → τ × List ω} (view : σ → τ)
    (h : ∀ s e, step' (view s) e = (view (step s e).1, (step s e).2)) (s : σ) (es : List ε) :
    view (run (next step) s es) = run (next step') (view s) es := by
  induction es generalizing s with
  | nil => rfl
  | cons e es ih => rw [run_cons, run_cons, ih, next, next, h]

/-- It emits what that one emits. -/
theorem outputs_of_view {step' : τ → ε → τ × List ω} (view : σ → τ)
    (h : ∀ s e, step' (view s) e = (view (step s e).1, (step s e).2)) (s : σ) (es : List ε) :
    outputs step s es = outputs step' (view s) es := by
  induction es generalizing s with
  | nil => rfl
  | cons e es ih => rw [outputs, outputs, ih, h]

/-- Two machines in series: the operations of the second are the outputs of the first. -/
def cascade {χ : Type y} (step : σ → ε → σ × List ω) (step' : τ → ω → τ × List χ) (p : σ × τ)
    (e : ε) : (σ × τ) × List χ :=
  (((step p.1 e).1, run (next step') p.2 (step p.1 e).2), outputs step' p.2 (step p.1 e).2)

variable {χ : Type y} {step' : τ → ω → τ × List χ}

/-- The first machine of two can run to the end before the second one starts. -/
theorem run_cascade (p : σ × τ) (es : List ε) :
    run (next (cascade step step')) p es =
      (run (next step) p.1 es, run (next step') p.2 (outputs step p.1 es)) := by
  induction es generalizing p with
  | nil => rfl
  | cons e es ih => rw [run_cons, ih, outputs, run_append, run_cons, next, cascade]

theorem outputs_cascade (p : σ × τ) (es : List ε) :
    outputs (cascade step step') p es = outputs step' p.2 (outputs step p.1 es) := by
  induction es generalizing p with
  | nil => rfl
  | cons e es ih => rw [outputs, ih, outputs, outputs_append, cascade]

end Series

end Machine
