import Mathlib.Tactic.TypeStar

/-!
# Runs of a machine

A machine is a partial step function: `none` says that an event cannot happen
in a state. `play` runs a list of events. Machines with several parties have
one event for each atomic step of each of them, so a list of events is an
interleaving.

`Throughout P` says that every event of a run meets a condition on the state
it happens in, and `invariant` is the induction over runs under such a
condition.

`outputs` collects what the events of a run put out. An invariant may be one of
the state and of what was put out so far (`history`). A part of the state may
be a queue of what came in and has not been put out (`fifo`), or a function of
what was put out so far (`replay`).
-/

namespace Lib

variable {σ α : Type*} (step : σ → α → Option σ)

/-- The state behind a list of events; `none` if one of them cannot happen. -/
def play : σ → List α → Option σ
  | s, [] => some s
  | s, e :: es => (step s e).bind fun s' => play s' es

/-- Every event of the run meets the condition. -/
def Throughout (P : σ → α → Prop) : σ → List α → Prop
  | _, [] => True
  | s, e :: es => P s e ∧ ∀ s' ∈ step s e, Throughout P s' es

/-- A decidable condition can be checked along a run. -/
instance Throughout.decidable (P : σ → α → Prop) [∀ s e, Decidable (P s e)] (s : σ) (es : List α) :
    Decidable (Throughout step P s es) :=
  match es with
  | [] => .isTrue trivial
  | e :: es =>
    have : ∀ s', Decidable (Throughout step P s' es) := fun s' => decidable P s' es
    inferInstanceAs (Decidable (P s e ∧ ∀ s' ∈ step s e, Throughout step P s' es))

@[simp] theorem play_nil (s : σ) : play step s [] = some s := rfl

theorem play_cons {s s' : σ} {e : α} {es : List α} (h : play step s (e :: es) = some s') :
    ∃ t, step s e = some t ∧ play step t es = some s' :=
  Option.bind_eq_some_iff.mp h

theorem play_append {s t s' : σ} {es es' : List α} (h : play step s es = some t)
    (h' : play step t es' = some s') : play step s (es ++ es') = some s' := by
  induction es generalizing s with
  | nil =>
    rw [play_nil, Option.some.injEq] at h
    exact h ▸ h'
  | cons e es ih =>
    obtain ⟨u, hu, hrest⟩ := play_cons step h
    exact Option.bind_eq_some_iff.mpr ⟨u, hu, ih hrest⟩

theorem play_split {s s' : σ} {es es' : List α} (h : play step s (es ++ es') = some s') :
    ∃ t, play step s es = some t ∧ play step t es' = some s' := by
  induction es generalizing s with
  | nil => exact ⟨s, rfl, h⟩
  | cons e es ih =>
    obtain ⟨u, hu, hrest⟩ := play_cons step h
    obtain ⟨t, ht, ht'⟩ := ih hrest
    exact ⟨t, Option.bind_eq_some_iff.mpr ⟨u, hu, ht⟩, ht'⟩

theorem Throughout.append_left {P : σ → α → Prop} {s : σ} {es es' : List α}
    (h : Throughout step P s (es ++ es')) : Throughout step P s es := by
  induction es generalizing s with
  | nil => trivial
  | cons e es ih => exact ⟨h.1, fun s' hs' => ih (h.2 s' hs')⟩

theorem Throughout.append_right {P : σ → α → Prop} {s t : σ} {es es' : List α}
    (h : Throughout step P s (es ++ es')) (hplay : play step s es = some t) :
    Throughout step P t es' := by
  induction es generalizing s with
  | nil =>
    rw [play_nil, Option.some.injEq] at hplay
    exact hplay ▸ h
  | cons e es ih =>
    obtain ⟨u, hu, hrest⟩ := play_cons step hplay
    exact ih (h.2 u hu) hrest

/-- A condition on the events alone can be added to one on the run. -/
theorem Throughout.and_mem {P : σ → α → Prop} {Q : α → Prop} {s : σ} {es : List α}
    (h : Throughout step P s es) (hQ : ∀ e ∈ es, Q e) :
    Throughout step (fun s e => P s e ∧ Q e) s es := by
  induction es generalizing s with
  | nil => trivial
  | cons e es ih =>
    exact ⟨⟨h.1, hQ e List.mem_cons_self⟩,
      fun s' hs' => ih (h.2 s' hs') fun e he => hQ e (List.mem_cons_of_mem _ he)⟩

/-- **Invariants.** What every step under the condition preserves, a run under
the condition preserves. -/
theorem invariant {I : σ → Prop} {P : σ → α → Prop}
    (hstep : ∀ s e s', I s → P s e → step s e = some s' → I s') {s s' : σ} {es : List α}
    (hs : I s) (hP : Throughout step P s es) (hplay : play step s es = some s') : I s' := by
  induction es generalizing s with
  | nil =>
    rw [play_nil, Option.some.injEq] at hplay
    exact hplay ▸ hs
  | cons e es ih =>
    obtain ⟨t, ht, hrest⟩ := play_cons step hplay
    exact ih (hstep s e t hs hP.1 ht) (hP.2 t ht) hrest

/-- What holds of every step holds throughout every run. -/
theorem Throughout.of_forall {P : σ → α → Prop} (h : ∀ s e, P s e) (s : σ) (es : List α) :
    Throughout step P s es := by
  induction es generalizing s with
  | nil => trivial
  | cons e es ih => exact ⟨h s e, fun s' _ => ih s'⟩

/-! ## Outputs -/

variable {β γ : Type*} (out : σ → α → List β)

/-- What the events of a run put out, each in the state it happens in. -/
def outputs : σ → List α → List β
  | _, [] => []
  | s, e :: es => out s e ++ (step s e).elim [] fun s' => outputs s' es

variable {out}

theorem outputs_cons {s t : σ} {e : α} {es : List α} (h : step s e = some t) :
    outputs step out s (e :: es) = out s e ++ outputs step out t es := by
  rw [outputs, h, Option.elim_some]

theorem outputs_append {s t : σ} {es es' : List α} (h : play step s es = some t) :
    outputs step out s (es ++ es') = outputs step out s es ++ outputs step out t es' := by
  induction es generalizing s with
  | nil =>
    rw [play_nil, Option.some.injEq] at h
    rw [h]
    rfl
  | cons e es ih =>
    obtain ⟨u, hu, hrest⟩ := play_cons step h
    rw [List.cons_append, outputs_cons step hu, outputs_cons step hu, ih hrest, List.append_assoc]

/-- What holds of the outputs of every step under an invariant holds of those of
a run. -/
theorem outputs_forall {I : σ → Prop} {P : σ → α → Prop} {R : β → Prop}
    (hstep : ∀ s e s', I s → P s e → step s e = some s' → I s' ∧ ∀ b ∈ out s e, R b) {s s' : σ}
    {es : List α} (hs : I s) (hP : Throughout step P s es) (hplay : play step s es = some s') :
    ∀ b ∈ outputs step out s es, R b := by
  induction es generalizing s with
  | nil => exact nofun
  | cons e es ih =>
    obtain ⟨t, ht, hrest⟩ := play_cons step hplay
    obtain ⟨hI, hR⟩ := hstep s e t hs hP.1 ht
    intro b hb
    rw [outputs_cons step ht] at hb
    rcases List.mem_append.mp hb with hb | hb
    · exact hR b hb
    · exact ih hI (hP.2 t ht) hrest b hb

/-- **Histories.** An invariant of the state and of all that was put out so far
holds of a run if it holds of every step. -/
theorem history {I : σ → List β → Prop} {P : σ → α → Prop}
    (hstep : ∀ s l e s', I s l → P s e → step s e = some s' → I s' (l ++ out s e)) {s s' : σ}
    {l : List β} {es : List α} (hs : I s l) (hP : Throughout step P s es)
    (hplay : play step s es = some s') : I s' (l ++ outputs step out s es) := by
  induction es generalizing s l with
  | nil =>
    rw [play_nil, Option.some.injEq] at hplay
    rw [outputs, List.append_nil]
    exact hplay ▸ hs
  | cons e es ih =>
    obtain ⟨t, ht, hrest⟩ := play_cons step hplay
    rw [outputs_cons step ht, ← List.append_assoc]
    exact ih (hstep s l e t hs hP.1 ht) (hP.2 t ht) hrest

/-- **Queues.** In a store that takes in at the back and puts out at the front,
what went in is what came out and what is left, in that order. -/
theorem fifo {store : σ → List β} {inp : α → List β}
    (hstep : ∀ s e s', step s e = some s' → store s ++ inp e = out s e ++ store s') {s s' : σ}
    {es : List α} (hplay : play step s es = some s') :
    store s ++ es.flatMap inp = outputs step out s es ++ store s' := by
  induction es generalizing s with
  | nil =>
    rw [play_nil, Option.some.injEq] at hplay
    rw [hplay, List.flatMap_nil, List.append_nil]
    rfl
  | cons e es ih =>
    obtain ⟨t, ht, hrest⟩ := play_cons step hplay
    rw [List.flatMap_cons, ← List.append_assoc, hstep s e t ht, outputs_cons step ht,
      List.append_assoc, List.append_assoc, ih hrest]

/-- **Replay.** If every step moves a part of the state by what it puts out, a
run folds it over all that was put out. -/
theorem replay {view : σ → γ} {f : γ → β → γ} {P : σ → α → Prop}
    (hstep : ∀ s e s', P s e → step s e = some s' → view s' = (out s e).foldl f (view s))
    {s s' : σ} {es : List α} (hP : Throughout step P s es) (hplay : play step s es = some s') :
    view s' = (outputs step out s es).foldl f (view s) := by
  induction es generalizing s with
  | nil =>
    rw [play_nil, Option.some.injEq] at hplay
    rw [hplay]
    rfl
  | cons e es ih =>
    obtain ⟨t, ht, hrest⟩ := play_cons step hplay
    rw [outputs_cons step ht, List.foldl_append, ← hstep s e t hP.1 ht]
    exact ih (hP.2 t ht) hrest

end Lib
