import FaceTracking.Net.ClientSession

/-!
# Rules for session runs

What the parts of an iteration preserve, an iteration preserves
(`loopStep_rule`), and so does a run (`run_rule`).
-/

namespace FaceTracking.ClientSession

open Lib Proto

variable {κ ψ : Type} (W : World κ) (Sh : Shared ψ) (cfg : SessionConfig)

/-! ## Parts of an iteration -/

/-- A look at the clock or the stop flag, or a wait. -/
inductive Idle : κ → κ → Prop where
  | nowMs (k : κ) : Idle k (W.nowMs k).2
  | stopped (k : κ) : Idle k (W.stopped k).2
  | poll (k : κ) (timeout : Int32) : Idle k (W.poll k timeout).2

section Rule

variable {W Sh cfg} {P : ClientSession κ ψ → Prop}

theorem dispatch_rule (hrx : ∀ s rx, P s → P { s with rx })
    (hmessage : ∀ s m, P s → P (onMessage W Sh cfg s m).1) {s : ClientSession κ ψ}
    (chunk : Bytes) (h : P s) : P (dispatch W Sh cfg s chunk).2 := by
  have hloop := dispatchLoop_eq kMaxMessage (onMessage W Sh cfg) (fun s _ => s) (s.rx ++ chunk)
    ((s.rx ++ chunk).length + 1) 0 { s with rx := s.rx ++ chunk } (Nat.zero_le _) (by omega)
  have hall := dispatched_induction (onMessage W Sh cfg) (fun s _ => s) hmessage (fun _ _ h => h)
    (s.rx ++ chunk) { s with rx := s.rx ++ chunk } (messages kMaxMessage ((s.rx ++ chunk).drop 0))
    (hrx s _ h)
  rw [← hloop] at hall
  unfold dispatch
  simp only
  split
  · exact hall
  · exact hrx _ _ hall

variable (W Sh cfg) in
theorem readAndDispatch_rule (hrecv : ∀ s, P s → P (afterRecv W s))
    (hrx : ∀ s rx, P s → P { s with rx })
    (hmessage : ∀ s m, P s → P (onMessage W Sh cfg s m).1) {s : ClientSession κ ψ} (h : P s) :
    P (readAndDispatch W Sh cfg s).2 := by
  rw [readAndDispatch_eq]
  split
  · exact hrecv s h
  · exact hrecv s h
  · exact dispatch_rule hrx hmessage _ (hrecv s h)

end Rule

section Rule

variable {W Sh cfg} {I F : ClientSession κ ψ → Prop}

/-- `I` while the loop runs, `F` always. -/
def Holds (I F : ClientSession κ ψ → Prop) (s : ClientSession κ ψ) : Prop :=
  F s ∧ (s.finished = false → I s)

/-- The part of an iteration leaves `I` if the loop goes on and `F` anyway. -/
def Leaves (I F : ClientSession κ ψ → Prop) (r : Bool × ClientSession κ ψ) : Prop :=
  F r.2 ∧ (r.1 = true → I r.2)

theorem Leaves.conclude (hclose : ∀ s, F s → F (finish W s)) {r : Bool × ClientSession κ ψ}
    (h : Leaves I F r) : Holds I F (conclude W r) := by
  unfold ClientSession.conclude
  split
  · exact ⟨h.1, fun _ => h.2 ‹_›⟩
  · exact ⟨hclose _ h.1, fun hf => by cases hf⟩

theorem toPoll_rule (hnet : ∀ s k, Idle W s.net k → I s → I { s with net := k })
    {s : ClientSession κ ψ} (h : I s) : I (toPoll W s).2 := by
  have hstopped := hnet s _ (.stopped s.net) h
  unfold toPoll timeLeft
  simp only
  split
  · exact hstopped
  · split
    · split
      · exact hnet _ _ (.nowMs _) hstopped
      · exact hstopped
    · have hnow := hnet _ _ (.nowMs _) hstopped
      split
      · exact hnet _ _ (.nowMs _) hnow
      · exact hnow

/-- An iteration waits, reads, and looks at its frame timer. -/
theorem loopStep_rule (hweaken : ∀ s, I s → F s)
    (hnet : ∀ s k, Idle W s.net k → I s → I { s with net := k })
    (hread : ∀ s, I s → Leaves I F (readAndDispatch W Sh cfg s))
    (htick : ∀ s, I s → Leaves I F (frameTick W Sh cfg s)) (hclose : ∀ s, F s → F (finish W s))
    {s : ClientSession κ ψ} (h : Holds I F s) : Holds I F (loopStep W Sh cfg s) := by
  unfold loopStep
  split
  · exact h
  · rename_i hf
    have hpoll := toPoll_rule hnet (h.2 (by simpa using hf))
    split
    · rename_i hp
      rw [hp] at hpoll
      exact ⟨hclose _ (hweaken _ hpoll), fun hf => by cases hf⟩
    · rename_i timeout u hp
      rw [hp] at hpoll
      have hu : I { u with net := (W.poll u.net timeout).2 } := hnet u _ (.poll _ _) hpoll
      refine Leaves.conclude hclose ?_
      unfold afterPoll
      split
      · exact ⟨hweaken _ hu, fun _ => hu⟩
      · exact ⟨hweaken _ hu, fun _ => hu⟩
      · exact htick _ hu
      · split
        · exact ⟨hweaken _ hu, fun _ => hu⟩
        · split
          · have hgo := hread _ hu
            unfold readAndTick
            simp only
            split
            · exact htick _ (hgo.2 ‹_›)
            · exact hgo
          · exact htick _ hu

end Rule

/-- The frame timer preserves what waiting, setting it and sending a frame
preserve. -/
theorem frameTick_rule {P : ClientSession κ ψ → Prop}
    (hnet : ∀ s k, Idle W s.net k → P s → P { s with net := k })
    (htimer : ∀ s at', P s → P { s with nextFrameAt := at' })
    (hframe : ∀ s, s.authed = true → P s → P (sendFrameIfNew W Sh s).2) {s : ClientSession κ ψ}
    (h : P s) : P (frameTick W Sh cfg s).2 := by
  unfold frameTick
  split
  · rename_i hauth
    simp only
    split
    · have hsent := hframe { s with net := (W.nowMs s.net).2 } hauth (hnet s _ (.nowMs _) h)
      split
      · exact htimer _ _ (hnet _ _ (.nowMs _) hsent)
      · exact hsent
    · exact hnet s _ (.nowMs _) h
  · exact h

/-- What the start of a session establishes and the parts of an iteration
preserve holds throughout its run. -/
theorem run_rule {I F : ClientSession κ ψ → Prop} (hweaken : ∀ s, I s → F s)
    (hnet : ∀ s k, Idle W s.net k → I s → I { s with net := k })
    (hread : ∀ s, I s → Leaves I F (readAndDispatch W Sh cfg s))
    (htick : ∀ s, I s → Leaves I F (frameTick W Sh cfg s)) (hclose : ∀ s, F s → F (finish W s))
    {net : κ} {shared : ψ} (hstart : Holds I F (start W cfg net shared)) (n : Nat) :
    Holds I F (run W Sh cfg net shared n) := by
  induction n with
  | zero => exact hstart
  | succ n ih => exact loopStep_rule hweaken hnet hread htick hclose ih

end FaceTracking.ClientSession
