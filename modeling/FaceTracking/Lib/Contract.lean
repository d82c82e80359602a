import Mathlib.Tactic.TypeStar

/-!
# Contracts between a client and a device

The trace of a client lists the requests it made of a device, each with the
answer it got. A contract follows the state of the device along a trace and
says of an event whether its request is permitted there and whether its answer
is possible. The client keeps its side for as long as the device keeps its own.

`Kept` is a weakest precondition: traces are taken apart by `kept_append` and
built up event by event with `Kept.emit`.
-/

namespace Lib

/-- `δ` is the state of the device, `ε` a request with its answer. -/
structure Contract (δ ε : Type*) where
  next : δ → ε → δ
  Permitted : δ → ε → Prop
  Possible : δ → ε → Prop

namespace Contract

variable {δ ε : Type*} (C : Contract δ ε)

/-- The device behind a trace. -/
def after : δ → List ε → δ
  | d, [] => d
  | d, e :: es => after (C.next d e) es

/-- The device gave possible answers only. -/
def Plausible : δ → List ε → Prop
  | _, [] => True
  | d, e :: es => C.Possible d e ∧ Plausible (C.next d e) es

instance Plausible.decidable [∀ d e, Decidable (C.Possible d e)] :
    ∀ d es, Decidable (C.Plausible d es)
  | _, [] => .isTrue trivial
  | d, e :: es =>
    have : Decidable (C.Plausible (C.next d e) es) := decidable (C.next d e) es
    inferInstanceAs (Decidable (C.Possible d e ∧ C.Plausible (C.next d e) es))

/-- Requests are permitted as long as the answers were possible, and if all of
them were, the device ends in `Q`. -/
def Kept (Q : δ → Prop) : δ → List ε → Prop
  | d, [] => Q d
  | d, e :: es => C.Permitted d e ∧ (C.Possible d e → Kept Q (C.next d e) es)

variable {C}

theorem kept_append {Q : δ → Prop} {d : δ} {es es' : List ε} :
    C.Kept Q d (es ++ es') ↔ C.Kept (fun d' => C.Kept Q d' es') d es := by
  induction es generalizing d with
  | nil => exact Iff.rfl
  | cons e es ih => exact and_congr_right fun _ => imp_congr_right fun _ => ih

theorem Kept.mono {P Q : δ → Prop} {d : δ} {es : List ε} (h : C.Kept P d es)
    (hPQ : ∀ d, P d → Q d) : C.Kept Q d es := by
  induction es generalizing d with
  | nil => exact hPQ d h
  | cons e es ih => exact ⟨h.1, fun he => ih (h.2 he)⟩

/-- One more event keeps the contract if the last state permits it. -/
theorem Kept.emit {P Q : δ → Prop} {d : δ} {es : List ε} {e : ε} (h : C.Kept P d es)
    (hemit : ∀ d, P d → C.Permitted d e ∧ (C.Possible d e → Q (C.next d e))) :
    C.Kept Q d (es ++ [e]) :=
  kept_append.mpr (h.mono hemit)

/-- **What a kept contract says** of the events of a trace and of its end. -/
theorem kept_iff {Q : δ → Prop} {d : δ} {es : List ε} :
    C.Kept Q d es ↔
      (∀ t e u, es = t ++ e :: u → C.Plausible d t → C.Permitted (C.after d t) e) ∧
        (C.Plausible d es → Q (C.after d es)) := by
  induction es generalizing d with
  | nil =>
    refine ⟨fun h => ⟨fun t e u ht => ?_, fun _ => h⟩, fun h => h.2 trivial⟩
    exact absurd ht.symm (List.append_ne_nil_of_right_ne_nil _ (List.cons_ne_nil _ _))
  | cons e es ih =>
    constructor
    · rintro ⟨hpermit, hrest⟩
      refine ⟨?_, fun h => (ih.mp (hrest h.1)).2 h.2⟩
      intro t e' u ht hplausible
      cases t with
      | nil =>
        cases ht
        exact hpermit
      | cons x t =>
        cases ht
        exact (ih.mp (hrest hplausible.1)).1 t e' u rfl hplausible.2
    · rintro ⟨hall, hend⟩
      refine ⟨hall [] e es rfl trivial, fun he => ih.mpr ⟨?_, fun h => hend ⟨he, h⟩⟩⟩
      intro t e' u ht hplausible
      exact hall (e :: t) e' u (congrArg (e :: ·) ht) ⟨he, hplausible⟩

end Contract

end Lib
