import Mathlib.Logic.Relation

set_option autoImplicit false

/-! # Runs of a state machine

A machine is a step function on states and events, a run is a list of events. `Along P` says that
every step of a run satisfies a condition on the state before it and the event. The rules below
turn what one step preserves into what a run preserves.
-/

namespace Run

variable {σ ε : Type} {step : σ → ε → σ}

/-- The state after a run. -/
def run (step : σ → ε → σ) (s : σ) (es : List ε) : σ := es.foldl step s

@[simp] theorem run_nil (s : σ) : run step s [] = s := rfl

@[simp] theorem run_cons (s : σ) (e : ε) (es : List ε) :
    run step s (e :: es) = run step (step s e) es := rfl

theorem run_append (s : σ) (es₁ es₂ : List ε) :
    run step s (es₁ ++ es₂) = run step (run step s es₁) es₂ := List.foldl_append

/-- Every step of the run from `s` satisfies `P`. -/
def Along (step : σ → ε → σ) (P : σ → ε → Prop) : σ → List ε → Prop
  | _, [] => True
  | s, e :: es => P s e ∧ Along step P (step s e) es

@[simp] theorem along_nil (P : σ → ε → Prop) (s : σ) : Along step P s [] := trivial

@[simp] theorem along_cons (P : σ → ε → Prop) (s : σ) (e : ε) (es : List ε) :
    Along step P s (e :: es) ↔ P s e ∧ Along step P (step s e) es := Iff.rfl

instance decidableAlong {P : σ → ε → Prop} [∀ s e, Decidable (P s e)] :
    ∀ (s : σ) (es : List ε), Decidable (Along step P s es)
  | _, [] => isTrue trivial
  | s, e :: es =>
      haveI : Decidable (Along step P (step s e) es) := decidableAlong _ es
      inferInstanceAs (Decidable (P s e ∧ Along step P (step s e) es))

/-- What each step preserves under its condition, a run preserves. -/
theorem invariant {I : σ → Prop} {P : σ → ε → Prop}
    (hstep : ∀ s e, I s → P s e → I (step s e)) :
    ∀ (es : List ε) (s : σ), I s → Along step P s es → I (run step s es) := by
  intro es
  induction es with
  | nil => intro s hs _; exact hs
  | cons e es ih =>
      intro s hs hal
      exact ih (step s e) (hstep s e hs hal.1) hal.2

/-- An invariant kept by every step. -/
theorem invariant_all {I : σ → Prop} (hstep : ∀ s e, I s → I (step s e)) (es : List ε) (s : σ)
    (hs : I s) : I (run step s es) := by
  induction es generalizing s with
  | nil => exact hs
  | cons e es ih => exact ih (step s e) (hstep s e hs)

/-- Where a step keeps `I` exactly under its condition, a run keeps `I` in all its states exactly
when it meets the conditions. `K` is what every step keeps besides. -/
theorem prefixes_iff_along {I K : σ → Prop} {P : σ → ε → Prop}
    (hK : ∀ s e, K s → I s → K (step s e))
    (hstep : ∀ s e, K s → I s → (I (step s e) ↔ P s e)) (es : List ε) (s : σ) (hs : K s)
    (hI : I s) : (∀ pre, pre <+: es → I (run step s pre)) ↔ Along step P s es := by
  induction es generalizing s with
  | nil =>
      refine iff_of_true ?_ trivial
      intro pre hpre
      rw [List.prefix_nil.mp hpre]
      exact hI
  | cons e es ih =>
      rw [along_cons, ← hstep s e hs hI]
      constructor
      · intro h
        have hnext : I (step s e) := h [e] (List.prefix_append [e] es)
        refine ⟨hnext, (ih _ (hK s e hs hI) hnext).mp ?_⟩
        intro pre hpre
        exact h (e :: pre) (List.cons_prefix_cons.mpr ⟨rfl, hpre⟩)
      · rintro ⟨hnext, hrest⟩ pre hpre
        cases pre with
        | nil => exact hI
        | cons e' pre =>
            obtain ⟨rfl, hpre'⟩ := List.cons_prefix_cons.mp hpre
            exact (ih _ (hK s e' hs hI) hnext).mpr hrest pre hpre'

/-! ## Closure of a step relation -/

/-- What each micro-step preserves, a sequence of micro-steps preserves. -/
theorem invariant_star {R : σ → σ → Prop} {I : σ → Prop} (hstep : ∀ a b, R a b → I a → I b)
    {a b : σ} (h : Relation.ReflTransGen R a b) (ha : I a) : I b := by
  induction h with
  | refl => exact ha
  | tail _ hbc ih => exact hstep _ _ hbc ih

end Run
