import Mathlib.Data.List.Basic

/-!
# Runs of a labelled transition system

`Run step s es t`: the labels `es` lead from `s` to `t`. A property of one step becomes a property
of whole runs through

* `Run.invariant`: kept by every step, so it holds wherever it held at the start;
* `Run.traced`: the same for a property of the state and the labels so far;
* `Run.rel`: a reflexive and transitive relation between the ends of every step relates the ends of
  a run;
* `Run.exists_step`: a property that fails at the start and holds at the end first appears at a step;
* `Run.length_le`: a measure that every step decreases bounds the length of a run.
-/

namespace Lts

variable {σ ε : Type}

/-- `es` leads from the first state to the last. -/
inductive Run (step : σ → ε → σ → Prop) : σ → List ε → σ → Prop
  | nil (s : σ) : Run step s [] s
  | cons {s t u : σ} {e : ε} {es : List ε} : step s e t → Run step t es u → Run step s (e :: es) u

namespace Run

variable {step : σ → ε → σ → Prop}

theorem single {s t : σ} {e : ε} (h : step s e t) : Run step s [e] t := .cons h (.nil t)

theorem append {s t u : σ} {es fs : List ε} (h : Run step s es t) (h' : Run step t fs u) :
    Run step s (es ++ fs) u := by
  induction h with
  | nil => exact h'
  | cons hs _ ih => exact .cons hs (ih h')

theorem snoc {s t u : σ} {es : List ε} {e : ε} (h : Run step s es t) (h' : step t e u) :
    Run step s (es ++ [e]) u := h.append (.single h')

/-- A run of a system is a run of one that has its steps. -/
theorem mono {step' : σ → ε → σ → Prop} (hstep : ∀ {s e t}, step s e t → step' s e t) {s t : σ}
    {es : List ε} (h : Run step s es t) : Run step' s es t := by
  induction h with
  | nil => exact .nil _
  | cons hs _ ih => exact .cons (hstep hs) ih

/-- A run of a concatenation passes through a state between the two parts. -/
theorem split {s u : σ} : ∀ {es fs : List ε}, Run step s (es ++ fs) u →
    ∃ t, Run step s es t ∧ Run step t fs u
  | [], _, h => ⟨s, .nil s, h⟩
  | e :: es, fs, h => by
    cases h with
    | cons hs h =>
      obtain ⟨t, h1, h2⟩ := split h
      exact ⟨t, .cons hs h1, h2⟩

/-- The last step of a nonempty run. -/
theorem unsnoc {s u : σ} {es : List ε} {e : ε} (h : Run step s (es ++ [e]) u) :
    ∃ t, Run step s es t ∧ step t e u := by
  obtain ⟨t, h1, h2⟩ := h.split
  cases h2 with
  | cons hs h2 => cases h2; exact ⟨t, h1, hs⟩

/-- A property kept by every step holds at the end of a run it held at the start of. -/
theorem invariant (I : σ → Prop) (hstep : ∀ s e t, I s → step s e t → I t) {s t : σ} {es : List ε}
    (h : Run step s es t) (hs : I s) : I t := by
  induction h with
  | nil => exact hs
  | cons h1 _ ih => exact ih (hstep _ _ _ hs h1)

/-- The same for a property of the state and the labels up to it. -/
theorem traced (I : List ε → σ → Prop) (hstep : ∀ es s e t, I es s → step s e t → I (es ++ [e]) t)
    {s t : σ} {es : List ε} (h : Run step s es t) (hs : I [] s) : I es t := by
  have hfrom : ∀ {s t : σ} {es : List ε}, Run step s es t → ∀ pre, I pre s → I (pre ++ es) t := by
    intro s t es h
    induction h with
    | nil => exact fun pre hpre => by rwa [List.append_nil]
    | @cons s t u e es h1 _ ih =>
      intro pre hpre
      rw [List.append_cons]
      exact ih (pre ++ [e]) (hstep _ _ _ _ hpre h1)
  exact hfrom h [] hs

/-- A preorder that holds across every step from a state in `I` holds across every run. -/
theorem rel (I : σ → Prop) (R : σ → σ → Prop) (hstep : ∀ s e t, I s → step s e t → I t)
    (hrefl : ∀ s, R s s) (htrans : ∀ s t u, R s t → R t u → R s u)
    (hR : ∀ s e t, I s → step s e t → R s t) {s t : σ} {es : List ε} (h : Run step s es t)
    (hs : I s) : R s t := by
  induction h with
  | nil => exact hrefl _
  | cons h1 _ ih => exact htrans _ _ _ (hR _ _ _ hs h1) (ih (hstep _ _ _ hs h1))

/-- A measure that every step decreases bounds the length of a run. -/
theorem length_le (I : σ → Prop) (μ : σ → Nat) (hstep : ∀ s e t, I s → step s e t → I t)
    (hμ : ∀ s e t, I s → step s e t → μ t < μ s) {s t : σ} {es : List ε} (h : Run step s es t)
    (hs : I s) : es.length + μ t ≤ μ s := by
  induction h with
  | nil => simp
  | @cons s t u e es h1 _ ih =>
    have hlt := hμ _ _ _ hs h1
    have hle := ih (hstep _ _ _ hs h1)
    rw [List.length_cons]
    omega

/-- What holds at the end of a run and not at its start becomes true at one of its steps. -/
theorem exists_step {P : σ → Prop} {s u : σ} {es : List ε} (h : Run step s es u) (hs : ¬ P s)
    (hu : P u) : ∃ es₁ e es₂ t t', es = es₁ ++ e :: es₂ ∧ Run step s es₁ t ∧ step t e t' ∧
      Run step t' es₂ u ∧ ¬ P t ∧ P t' := by
  induction h with
  | nil => exact absurd hu hs
  | @cons s t u e es h1 h2 ih =>
    by_cases ht : P t
    · exact ⟨[], e, es, s, t, rfl, .nil s, h1, h2, hs, ht⟩
    · obtain ⟨es₁, e', es₂, a, b, rfl, r1, st, r2, ha, hb⟩ := ih ht hu
      exact ⟨e :: es₁, e', es₂, a, b, rfl, .cons h1 r1, st, r2, ha, hb⟩

end Run

end Lts
