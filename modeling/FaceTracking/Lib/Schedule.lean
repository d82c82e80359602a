import FaceTracking.Lib.Runs

/-!
# What a scheduler can bring about

The events of a machine with several threads are answers: a thread has its turn
and the environment says how its step comes out. `Driven G s` says that some
scheduler, which chooses the turns and sees the answers, brings the machine
from `s` to a state in `G`, whatever the answers are. A turn may be given only
to a thread that can take a step.

`Driven.measure` is the induction over a measure, and `Driven.trans` puts two
schedules one behind the other.
-/

namespace Lib

variable {σ α τ : Type*} (step : σ → α → Option σ) (turn : α → Option τ)

inductive Driven (G : σ → Prop) : σ → Prop
  | here {s : σ} (h : G s) : Driven G s
  | next {s : σ} (t : τ) (hcan : ∃ e s', turn e = some t ∧ step s e = some s')
      (hall : ∀ e s', turn e = some t → step s e = some s' → Driven G s') : Driven G s

namespace Driven

variable {step turn} {G G' : σ → Prop} {s : σ}

theorem trans (h : Driven step turn G s) (hG : ∀ s, G s → Driven step turn G' s) :
    Driven step turn G' s := by
  induction h with
  | here h => exact hG _ h
  | next t hcan _ ih => exact .next t hcan ih

theorem mono (h : Driven step turn G s) (hG : ∀ s, G s → G' s) : Driven step turn G' s :=
  h.trans fun s hs => .here (hG s hs)

/-- A turn that can be taken, and leads to a goal whatever it does, reaches one.
-/
theorem one (t : τ) (hcan : ∃ e s', turn e = some t ∧ step s e = some s')
    (hall : ∀ e s', turn e = some t → step s e = some s' → G s') : Driven step turn G s :=
  .next t hcan fun e s' he hs' => .here (hall e s' he hs')

/-- What every step preserves holds where the schedule ends. -/
theorem keep {I : σ → Prop} (hstep : ∀ s e s', I s → step s e = some s' → I s')
    (h : Driven step turn G s) (hs : I s) : Driven step turn (fun s => G s ∧ I s) s := by
  induction h with
  | here h => exact .here ⟨h, hs⟩
  | next t hcan _ ih => exact .next t hcan fun e s' he hs' => ih e s' he hs' (hstep _ e s' hs hs')

/-- **Measures.** A scheduler that can lower a measure wherever it is not at the
goal gets there. -/
theorem measure {I : σ → Prop} (μ : σ → Nat)
    (hlower : ∀ s, I s → Driven step turn (fun s' => G s' ∨ I s' ∧ μ s' < μ s) s) (hs : I s) :
    Driven step turn G s := by
  induction hμ : μ s using Nat.strongRecOn generalizing s with
  | ind n ih =>
    refine (hlower s hs).trans fun s' hs' => ?_
    rcases hs' with hG | ⟨hI, hlt⟩
    · exact .here hG
    · exact ih (μ s') (hμ ▸ hlt) hI rfl

end Driven

end Lib
