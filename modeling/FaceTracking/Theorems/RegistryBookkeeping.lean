import FaceTracking.Core.ClientRegistry
import FaceTracking.Net.TcpServer
import Mathlib.Algebra.Group.Nat.Defs
import Mathlib.Data.List.InsertIdx

/-!
# The registry's bookkeeping

Two invariants carry the whole: which threads are still joinable at each point
of an operation (`Shape`), and that the joinable threads and the joined ones
together are the adopted ones, each once (`conserved`). What a single
operation does follows from where it is: a pass has divided the sessions it
has seen into those it keeps and those it has joined (`Passing`), and
`stopAll` is through with a part of the sessions it found (`Stopping`).

The flags may change at every step of an operation. A pass removes the
sessions it saw finished, which is what a pass in one step removes
(`reapFinished_of_pass`).
-/

namespace FaceTracking.Registry

open Lib

/-! ## What a list of actions says -/

/-- What `finished()` returned, session by session. -/
def observed (as : List Action) : List (Nat × Bool) :=
  as.filterMap fun | .observe session finished => some (session, finished) | _ => none

/-- The threads on which `join` was called. -/
def joins (as : List Action) : List Nat :=
  as.filterMap fun | .join session => some session | _ => none

/-- The threads for which it returned. -/
def joined (as : List Action) : List Nat :=
  as.filterMap fun | .joined session => some session | _ => none

@[simp] theorem observed_append (as bs : List Action) :
    observed (as ++ bs) = observed as ++ observed bs := by
  simp [observed]

@[simp] theorem joins_append (as bs : List Action) : joins (as ++ bs) = joins as ++ joins bs := by
  simp [joins]

@[simp] theorem joined_append (as bs : List Action) :
    joined (as ++ bs) = joined as ++ joined bs := by
  simp [joined]

/-- The sessions seen running. -/
def kept (obs : List (Nat × Bool)) : List Nat := (obs.filter fun o => !o.2).map Prod.fst

/-- The sessions seen finished. -/
def reaped (obs : List (Nat × Bool)) : List Nat := (obs.filter Prod.snd).map Prod.fst

/-- A list is split at one of its positions, also without it or with another
element. -/
theorem exists_split {α : Type} {l : List α} {i : Nat} {x : α} (h : l[i]? = some x) :
    ∃ a b, l = a ++ x :: b ∧ a.length = i ∧ l.eraseIdx i = a ++ b ∧
      ∀ y, l.set i y = a ++ y :: b := by
  obtain ⟨hi, rfl⟩ := List.getElem?_eq_some_iff.mp h
  refine ⟨l.take i, l.drop (i + 1), ?_, List.length_take_of_le (Nat.le_of_lt hi), ?_, ?_⟩
  · rw [← List.drop_eq_getElem_cons hi, List.take_append_drop]
  · exact List.eraseIdx_eq_take_drop_succ l i
  · intro y
    rw [List.set_eq_take_append_cons_drop, if_pos hi]

/-! ## Joinable threads -/

/-- Number of entries at the front whose thread has been joined. -/
def Holder.past : Holder → Nat
  | .joining i | .stopJoin i => i
  | _ => 0

structure Shape (s : State) : Prop where
  count : s.holder = .free → s.clientCount = s.count
  past : ∀ e ∈ s.entries.take s.holder.past, e.joinable = false
  ahead : ∀ e ∈ s.entries.drop s.holder.past, e.joinable = true

theorem Shape.initial : Shape State.initial :=
  ⟨fun _ => rfl, by simp [State.initial], by simp [State.initial]⟩

/-- Outside the second loop of `stopAll` every thread is joinable. -/
theorem Shape.joinable {s : State} (h : Shape s) (hpast : s.holder.past = 0) :
    ∀ e ∈ s.entries, e.joinable = true := by
  have hahead := h.ahead
  rwa [hpast, List.drop_zero] at hahead

theorem Shape.of_joinable {s : State} (hcount : s.holder = .free → s.clientCount = s.count)
    (hpast : s.holder.past = 0) (h : ∀ e ∈ s.entries, e.joinable = true) : Shape s := by
  refine ⟨hcount, ?_, ?_⟩
  · rw [hpast, List.take_zero]
    exact nofun
  · rwa [hpast, List.drop_zero]

/-- The entry an operation is at has a joinable thread. -/
theorem Shape.here {s : State} (h : Shape s) {e : Entry}
    (he : s.entries[s.holder.past]? = some e) : e.joinable = true := by
  obtain ⟨hi, rfl⟩ := List.getElem?_eq_some_iff.mp he
  refine h.ahead _ ?_
  rw [List.drop_eq_getElem_cons hi]
  exact List.mem_cons_self

theorem Shape.erase {s : State} (h : ∀ e ∈ s.entries, e.joinable = true) (it : Nat) :
    Shape (s.erase it) :=
  .of_joinable (fun hf => by cases hf) rfl fun e he => h e (List.mem_of_mem_eraseIdx he)

/-- Every step keeps the registry in shape. -/
theorem Shape.step {s s' : State} {as : List Action} (h : Shape s) (hm : Moves s s' as) :
    Shape s' := by
  cases hm with
  | adopt hfree =>
    have hpast : s.adopt.holder.past = 0 := by
      show s.holder.past = 0
      rw [hfree]
      rfl
    refine .of_joinable (fun _ => rfl) hpast fun e he => ?_
    rcases List.mem_append.mp he with he | he
    · exact h.joinable (by rw [hfree]; rfl) e he
    · rw [List.mem_singleton.mp he]
  | reapFinished hfree | stopAll hfree =>
    exact .of_joinable (fun hf => by cases hf) rfl (h.joinable (by rw [hfree]; rfl))
  | finish session | exit session => exact ⟨h.count, h.past, h.ahead⟩
  | running it e hat he hrun | ended it e hat he hended hjoin | requestStop i e hat he
  | endRequests i hat he =>
    exact .of_joinable (fun hf => by cases hf) rfl (h.joinable (by rw [hat]; rfl))
  | endedThreadless it e hat he hended hjoin => exact .erase (h.joinable (by rw [hat]; rfl)) it
  | reaped it e hat he => exact .erase (h.joinable (by rw [hat]; rfl)) it
  | endReap it hat he => exact .of_joinable (fun _ => rfl) rfl (h.joinable (by rw [hat]; rfl))
  | join i e hat he hjoin =>
    have hpast : s.holder.past = i := by rw [hat]; rfl
    exact ⟨nofun, hpast ▸ h.past, hpast ▸ h.ahead⟩
  | skip i e hat he hjoin =>
    have hpast : s.holder.past = i := by rw [hat]; rfl
    rw [← hpast] at he
    exact absurd (h.here he) (by simp [hjoin])
  | joined i e hat he =>
    have hpast : s.holder.past = i := by rw [hat]; rfl
    obtain ⟨a, b, hentries, rfl, -, hset⟩ := exists_split he
    have hbefore := h.past
    have hbehind := h.ahead
    rw [hpast, hentries] at hbefore hbehind
    rw [List.take_left] at hbefore
    rw [List.drop_left] at hbehind
    refine ⟨nofun, ?_, ?_⟩
    · show ∀ x ∈ (s.entries.set a.length { e with joinable := false }).take (a.length + 1), _
      rw [hset, List.take_length_add_append]
      intro x hx
      rcases List.mem_append.mp hx with hx | hx
      · exact hbefore x hx
      · rw [List.mem_singleton.mp hx]
    · show ∀ x ∈ (s.entries.set a.length { e with joinable := false }).drop (a.length + 1), _
      rw [hset, List.drop_length_add_append]
      exact fun x hx => hbehind x (List.mem_cons_of_mem _ hx)
  | endStop i hat he => exact .of_joinable (fun _ => rfl) rfl nofun

/-! ## No thread is lost, none is joined twice -/

/-- The sessions whose thread is still to be joined. -/
def State.unjoined (s : State) : List Nat := (s.entries.filter Entry.joinable).map Entry.session

/-- Between operations every entry has its thread. -/
theorem Shape.unjoined {s : State} (h : Shape s) (hfree : s.holder = .free) :
    s.unjoined = s.sessions := by
  have hall := h.joinable (by rw [hfree]; rfl)
  unfold State.unjoined State.sessions
  rw [List.filter_eq_self.mpr hall]

/-- The threads to be joined and the joined ones are the adopted ones. -/
def Conserved (s : State) (as : List Action) : Prop :=
  (s.unjoined ++ joined as).Perm (List.range s.adopted)

/-- A step that leaves the entries and joins nothing conserves the threads. -/
theorem Conserved.keep {s s' : State} {as bs : List Action} (h : Conserved s as)
    (hentries : s'.entries = s.entries) (hadopted : s'.adopted = s.adopted)
    (hjoined : joined bs = []) : Conserved s' (as ++ bs) := by
  unfold Conserved State.unjoined at h ⊢
  rw [hentries, hadopted, joined_append, hjoined, List.append_nil]
  exact h

/-- Joining a joinable thread whose entry is erased or marked conserves the
threads. -/
theorem Conserved.joined {s s' : State} {as : List Action} {a b : List Entry} {e : Entry}
    (h : Conserved s as) (hentries : s.entries = a ++ e :: b) (hjoin : e.joinable = true)
    (hleft : s'.entries.filter Entry.joinable = (a ++ b).filter Entry.joinable)
    (hadopted : s'.adopted = s.adopted) : Conserved s' (as ++ [.joined e.session]) := by
  unfold Conserved State.unjoined at h ⊢
  rw [hadopted, hleft]
  refine List.Perm.trans ?_ h
  rw [hentries, joined_append]
  simp only [List.filter_append, List.filter_cons_of_pos hjoin, List.map_append, List.map_cons,
    List.append_assoc]
  refine List.Perm.append_left _ ?_
  -- the joined thread moves from its place to the end
  show (_ ++ (_ ++ [e.session])).Perm _
  rw [← List.append_assoc]
  exact List.perm_append_comm

theorem Conserved.initial : Conserved State.initial [] := by
  show ([] : List Nat).Perm (List.range 0)
  exact .refl _

/-- Every step conserves the joinable threads. -/
theorem Conserved.step {s s' : State} {as bs : List Action} (hshape : Shape s)
    (h : Conserved s as) (hm : Moves s s' bs) : Conserved s' (as ++ bs) := by
  cases hm with
  | adopt hfree =>
    unfold Conserved State.unjoined at h ⊢
    have hentries : s.adopt.entries = s.entries ++ [⟨s.adopted, true⟩] := rfl
    have hadopted : s.adopt.adopted = s.adopted + 1 := rfl
    rw [hentries, hadopted, List.range_succ, List.append_nil, List.filter_append, List.map_append,
      List.append_assoc]
    refine List.Perm.trans ?_ (h.append_right [s.adopted])
    rw [List.append_assoc]
    exact List.Perm.append_left _ List.perm_append_comm
  | reapFinished hfree | stopAll hfree | finish session | exit session
  | running it e hat he hrun | ended it e hat he hended hjoin | endReap it hat he
  | requestStop i e hat he | endRequests i hat he | join i e hat he hjoin
  | skip i e hat he hjoin => exact h.keep rfl rfl rfl
  | endedThreadless it e hat he hended hjoin =>
    have hall := hshape.joinable (by rw [hat]; rfl) e (List.mem_of_getElem? he)
    exact absurd hall (by simp [hjoin])
  | reaped it e hat he =>
    have hall := hshape.joinable (by rw [hat]; rfl) e (List.mem_of_getElem? he)
    obtain ⟨a, b, hentries, -, herase, -⟩ := exists_split he
    exact h.joined hentries hall (congrArg _ herase) rfl
  | joined i e hat he =>
    have hpast : s.holder.past = i := by rw [hat]; rfl
    have hhere := hshape.here (hpast.symm ▸ he)
    obtain ⟨a, b, hentries, -, -, hset⟩ := exists_split he
    refine h.joined hentries hhere ?_ rfl
    show (s.entries.set i { e with joinable := false }).filter Entry.joinable = _
    rw [hset, List.filter_append, List.filter_append]
    rfl
  | endStop i hat he =>
    -- every thread has been joined when the entries are cleared
    have hpast : s.holder.past = i := by rw [hat]; rfl
    have hall := hshape.past
    rw [hpast, List.take_of_length_le (List.getElem?_eq_none_iff.mp he)] at hall
    have hnone : s.entries.filter Entry.joinable = [] :=
      List.filter_eq_nil_iff.mpr fun e he' => by simp [hall e he']
    unfold Conserved State.unjoined at h ⊢
    rw [hnone] at h
    rw [List.append_nil]
    exact h

theorem bookkeeping {es : List Event} {s : State} (hplay : play State.step .initial es = some s) :
    Shape s ∧ Conserved s (outputs State.step State.actions .initial es) := by
  have hstep : ∀ s as e s', (Shape s ∧ Conserved s as) → True → State.step s e = some s' →
      Shape s' ∧ Conserved s' (as ++ s.actions e) := by
    rintro s as e s' ⟨hshape, hconserved⟩ - hs'
    have hm := moves_of_step hs'
    exact ⟨hshape.step hm, hconserved.step hshape hm⟩
  exact history State.step hstep (l := []) ⟨.initial, .initial⟩
    (.of_forall State.step (fun _ _ => trivial) _ _) hplay

/-- Between operations an adopted session is an entry or its thread is joined,
one of the two and once. -/
theorem entry_or_joined {s : State} {as : List Action} (hshape : Shape s) (h : Conserved s as)
    (hfree : s.holder = .free) {session : Nat} (hadopted : session < s.adopted) :
    s.sessions.count session = 1 ∧ (joined as).count session = 0 ∨
      s.sessions.count session = 0 ∧ (joined as).count session = 1 := by
  have hone : (s.sessions ++ joined as).count session = 1 := by
    rw [← hshape.unjoined hfree, h.count_eq, List.nodup_range.count,
      if_pos (List.mem_range.mpr hadopted)]
  rw [List.count_append] at hone
  omega

/-! ## One operation -/

/-- The operation that `e` begins runs from `s` to `s'`, with the mutex held
all the way; what else happens during it is among its steps. -/
def Operation (s : State) (e : Event) (mid : List Event) (s' : State) : Prop :=
  ∃ u, s.step e = some u ∧ Throughout State.step (fun v _ => v.holder ≠ .free) u mid ∧
    play State.step u mid = some s' ∧ s'.holder = .free

theorem Operation.free {s s' : State} {e : Event} {mid : List Event}
    (h : Operation s e mid s') : s'.holder = .free := by
  obtain ⟨u, -, -, -, hfree⟩ := h
  exact hfree

/-- What the first step of an operation establishes and every further one keeps
holds at its end. -/
theorem Operation.history {I : State → List Action → Prop} {s s' : State} {e : Event}
    {mid : List Event} (h : Operation s e mid s')
    (hbegin : ∀ u, s.step e = some u → I u (s.actions e))
    (hstep : ∀ u as u' bs, I u as → u.holder ≠ .free → Moves u u' bs → I u' (as ++ bs)) :
    I s' (outputs State.step State.actions s (e :: mid)) := by
  obtain ⟨u, hu, hheld, hplay, -⟩ := h
  rw [outputs_cons State.step hu]
  refine Lib.history State.step ?_ (hbegin u hu) hheld hplay
  intro v as e v' hI hv hv'
  exact hstep v as v' _ hI hv (moves_of_step hv')

theorem State.sessions_get {u : State} {i : Nat} {e : Entry} (he : u.entries[i]? = some e) :
    u.sessions[i]? = some e.session := by
  unfold State.sessions
  rw [List.getElem?_map, he]
  rfl

/-- The entry behind those passed is the next session. -/
theorem State.next_session {u : State} {l todo : List Nat} {e : Entry}
    (hsessions : u.sessions = l ++ todo) (he : u.entries[l.length]? = some e) :
    ∃ rest, todo = e.session :: rest := by
  have hget := State.sessions_get he
  rw [hsessions, List.getElem?_append_right (Nat.le_refl _), Nat.sub_self] at hget
  cases todo with
  | nil => cases hget
  | cons x rest =>
    obtain rfl : x = e.session := by simpa using hget
    exact ⟨rest, rfl⟩

theorem State.sessions_erase {u : State} {l todo : List Nat} {x : Nat}
    (hsessions : u.sessions = l ++ x :: todo) : (u.erase l.length).sessions = l ++ todo := by
  have hmap : (u.erase l.length).sessions = u.sessions.eraseIdx l.length := by
    unfold State.sessions State.erase
    exact (List.eraseIdx_map _ _ _).symm
  rw [hmap, hsessions, List.eraseIdx_append_of_length_le (Nat.le_refl _), Nat.sub_self]
  rfl

/-! ### A pass -/

/-- How the pass has divided the sessions it found. -/
def PassPlace (s u : State) (as : List Action) : Holder → Prop
  | .reaping it => it = (kept (observed as)).length ∧ joined as = reaped (observed as) ∧
      ∃ todo, s.sessions = (observed as).map Prod.fst ++ todo ∧
        u.sessions = kept (observed as) ++ todo
  | .reapJoin it => it = (kept (observed as)).length ∧
      ∃ session todo, joined as ++ [session] = reaped (observed as) ∧
        s.sessions = (observed as).map Prod.fst ++ todo ∧
        u.sessions = kept (observed as) ++ session :: todo
  | .free => joined as = reaped (observed as) ∧ s.sessions = (observed as).map Prod.fst ∧
      u.sessions = kept (observed as)
  | _ => False

/-- A pass that began in `s` has come to `u`. -/
structure Passing (s u : State) (as : List Action) : Prop where
  shape : Shape u
  still : ∀ session ∈ s.finished, session ∈ u.finished
  /-- What it saw lies between the flags as it began and the flags by now. -/
  flags : ∀ o ∈ observed as, (o.1 ∈ s.finished → o.2 = true) ∧ (o.2 = true → o.1 ∈ u.finished)
  called : joins as = reaped (observed as)
  place : PassPlace s u as u.holder

@[simp] theorem kept_append (obs obs' : List (Nat × Bool)) :
    kept (obs ++ obs') = kept obs ++ kept obs' := by
  simp [kept]

@[simp] theorem reaped_append (obs obs' : List (Nat × Bool)) :
    reaped (obs ++ obs') = reaped obs ++ reaped obs' := by
  simp [reaped]

/-- A session seen running is passed. -/
theorem Passing.running {s u : State} {as : List Action} (h : Passing s u as) {it : Nat} {e : Entry}
    (hat : u.holder = .reaping it) (he : u.entries[it]? = some e) (hrun : e.session ∉ u.finished) :
    Passing s { u with holder := .reaping (it + 1) } (as ++ [.observe e.session false]) := by
  have hshape := h.shape.step (.running it e hat he hrun)
  have hplace := h.place
  rw [hat] at hplace
  obtain ⟨rfl, hjoined, todo, hfound, hleft⟩ := hplace
  obtain ⟨rest, rfl⟩ := State.next_session hleft he
  have hobs : observed (as ++ [.observe e.session false]) = observed as ++ [(e.session, false)] :=
    observed_append _ _
  refine ⟨hshape, h.still, ?_, ?_, ?_⟩
  · rw [hobs, List.forall_mem_append]
    refine ⟨h.flags, List.forall_mem_singleton.mpr ⟨fun hb => ?_, nofun⟩⟩
    exact absurd (h.still _ hb) hrun
  · rw [hobs, reaped_append, joins_append, h.called]
    rfl
  · refine ⟨?_, ?_, rest, ?_, ?_⟩
    · rw [hobs, kept_append, List.length_append]
      rfl
    · rw [hobs, joined_append, reaped_append, hjoined]
      rfl
    · rw [hobs, List.map_append, List.append_assoc]
      exact hfound
    · rw [hobs, kept_append, List.append_assoc]
      exact hleft

/-- A session is seen finished, and its thread is waited for. -/
theorem Passing.ended {s u : State} {as : List Action} (h : Passing s u as) {it : Nat} {e : Entry}
    (hat : u.holder = .reaping it) (he : u.entries[it]? = some e) (hended : e.session ∈ u.finished)
    (hjoin : e.joinable = true) :
    Passing s { u with holder := .reapJoin it }
      (as ++ [.observe e.session true, .join e.session]) := by
  have hshape := h.shape.step (.ended it e hat he hended hjoin)
  have hplace := h.place
  rw [hat] at hplace
  obtain ⟨rfl, hjoined, todo, hfound, hleft⟩ := hplace
  obtain ⟨rest, rfl⟩ := State.next_session hleft he
  have hobs : observed (as ++ [.observe e.session true, .join e.session]) =
      observed as ++ [(e.session, true)] := observed_append _ _
  refine ⟨hshape, h.still, ?_, ?_, ?_⟩
  · rw [hobs, List.forall_mem_append]
    exact ⟨h.flags, List.forall_mem_singleton.mpr ⟨fun _ => rfl, fun _ => hended⟩⟩
  · rw [hobs, reaped_append, joins_append, h.called]
    rfl
  · have hkept : kept (observed as ++ [(e.session, true)]) = kept (observed as) :=
      (kept_append _ _).trans (List.append_nil _)
    refine ⟨?_, e.session, rest, ?_, ?_, ?_⟩
    · rw [hobs, hkept]
    · rw [hobs, joined_append, reaped_append, hjoined, List.append_assoc]
      rfl
    · rw [hobs, List.map_append, List.append_assoc]
      exact hfound
    · rw [hobs, hkept]
      exact hleft

/-- Its thread has been joined, and it is erased. -/
theorem Passing.reaped {s u : State} {as : List Action} (h : Passing s u as) {it : Nat} {e : Entry}
    (hat : u.holder = .reapJoin it) (he : u.entries[it]? = some e) :
    Passing s (u.erase it) (as ++ [.joined e.session]) := by
  have hshape := h.shape.step (.reaped it e hat he)
  have hplace := h.place
  rw [hat] at hplace
  obtain ⟨rfl, session, todo, hjoined, hfound, hleft⟩ := hplace
  obtain ⟨rest, heq⟩ := State.next_session hleft he
  obtain ⟨rfl, rfl⟩ := List.cons.inj heq
  have hobs : observed (as ++ [.joined e.session]) = observed as :=
    (observed_append _ _).trans (List.append_nil _)
  refine ⟨hshape, h.still, hobs ▸ h.flags, ?_, ?_⟩
  · rw [hobs, joins_append, ← h.called]
    exact List.append_nil _
  · refine ⟨?_, ?_, todo, ?_, ?_⟩
    · rw [hobs]
    · rw [hobs, joined_append]
      exact hjoined
    · rw [hobs]
      exact hfound
    · rw [hobs]
      exact State.sessions_erase hleft

/-- Behind the last entry the operation releases the mutex and has passed them
all. -/
theorem Passing.endReap {s u : State} {as : List Action} (h : Passing s u as) {it : Nat}
    (hat : u.holder = .reaping it) (he : u.entries[it]? = none) :
    Passing s u.storeCount.release as := by
  have hshape := h.shape.step (.endReap it hat he)
  have hplace := h.place
  rw [hat] at hplace
  obtain ⟨rfl, hjoined, todo, hfound, hleft⟩ := hplace
  have hend : todo = [] := by
    have hlen := congrArg List.length hleft
    have hle := List.getElem?_eq_none_iff.mp he
    unfold State.sessions at hlen
    rw [List.length_map, List.length_append] at hlen
    exact List.eq_nil_of_length_eq_zero (by omega)
  subst hend
  rw [List.append_nil] at hfound hleft
  exact ⟨hshape, h.still, h.flags, h.called, hjoined, hfound, hleft⟩

/-- Every step takes a pass further or leaves it where it is. -/
theorem Passing.step {s u u' : State} {as bs : List Action} (h : Passing s u as)
    (hheld : u.holder ≠ .free) (hm : Moves u u' bs) : Passing s u' (as ++ bs) := by
  have hplace := h.place
  cases hm with
  | adopt hfree | reapFinished hfree | stopAll hfree => exact absurd hfree hheld
  | finish session =>
    rw [List.append_nil]
    refine ⟨h.shape.step (.finish session), ?_, ?_, h.called, hplace⟩
    · intro x hx
      exact List.mem_cons_of_mem session (h.still x hx)
    · intro o ho
      obtain ⟨hbegan, hnow⟩ := h.flags o ho
      exact ⟨hbegan, fun ht => List.mem_cons_of_mem session (hnow ht)⟩
  | exit session =>
    rw [List.append_nil]
    exact ⟨h.shape.step (.exit session), h.still, h.flags, h.called, hplace⟩
  | running it e hat he hrun => exact h.running hat he hrun
  | ended it e hat he hended hjoin => exact h.ended hat he hended hjoin
  | endedThreadless it e hat he hended hjoin =>
    have hall := h.shape.joinable (by rw [hat]; rfl) e (List.mem_of_getElem? he)
    exact absurd hall (by simp [hjoin])
  | reaped it e hat he => exact h.reaped hat he
  | endReap it hat he =>
    rw [List.append_nil]
    exact h.endReap hat he
  -- the steps of `stopAll` are no steps of a pass
  | requestStop i e hat he | endRequests i hat he | join i e hat he hjoin
  | skip i e hat he hjoin | joined i e hat he | endStop i hat he =>
    rw [hat] at hplace
    exact hplace.elim

theorem Passing.begin {s u : State} (hshape : Shape s) (h : s.step .reapFinished = some u) :
    Passing s u (s.actions .reapFinished) := by
  obtain ⟨hfree, rfl, hnone⟩ := State.reapFinished_of_step h
  rw [hnone]
  exact ⟨hshape.step (.reapFinished hfree), fun _ hx => hx, nofun, rfl, rfl, rfl, s.sessions, rfl,
    rfl⟩

/-- **A pass** looks at every session once and in order, keeps those it saw
running and joins those it saw finished. -/
theorem reap_operation {s s' : State} {mid : List Event} (hshape : Shape s)
    (h : Operation s .reapFinished mid s') :
    Passing s s' (outputs State.step State.actions s (.reapFinished :: mid)) :=
  h.history (I := Passing s) (fun _ hu => .begin hshape hu) fun _ _ _ _ hp => hp.step

/-! ### Stopping all -/

/-- Every session has been asked to stop; behind that, `join` was called for
the first `called` of them and returned for the first `returned`. -/
def Asked (s : State) (as : List Action) (called returned : Nat) : Prop :=
  ∃ rest, as = s.sessions.map .requestStop ++ rest ∧ joins rest = s.sessions.take called ∧
    joined rest = s.sessions.take returned

/-- How far `stopAll` is with the sessions it found. -/
def StopPlace (s u : State) (as : List Action) : Holder → Prop
  | .stopping i => u.sessions = s.sessions ∧ as = (s.sessions.take i).map .requestStop
  | .joining i => u.sessions = s.sessions ∧ Asked s as i i
  | .stopJoin i => u.sessions = s.sessions ∧ Asked s as (i + 1) i
  | .free => u.entries = [] ∧ Asked s as s.sessions.length s.sessions.length
  | _ => False

/-- A call of `stopAll` that began in `s` has come to `u`. -/
structure Stopping (s u : State) (as : List Action) : Prop where
  shape : Shape u
  place : StopPlace s u as u.holder

/-- The next session is added to those passed. -/
theorem State.take_next {s u : State} {i : Nat} {e : Entry} (hsame : u.sessions = s.sessions)
    (he : u.entries[i]? = some e) : s.sessions.take (i + 1) = s.sessions.take i ++ [e.session] := by
  rw [List.take_add_one, ← hsame, State.sessions_get he]
  rfl

/-- Behind the last entry all sessions are passed. -/
theorem State.take_all {s u : State} {i : Nat} (hsame : u.sessions = s.sessions)
    (he : u.entries[i]? = none) : s.sessions.length ≤ i := by
  rw [← hsame]
  unfold State.sessions
  rw [List.length_map]
  exact List.getElem?_eq_none_iff.mp he

theorem State.sessions_joinReturned {u : State} {i : Nat} {e : Entry}
    (he : u.entries[i]? = some e) : (u.joinReturned i e).sessions = u.sessions := by
  obtain ⟨a, b, hentries, -, -, hset⟩ := exists_split he
  show (u.entries.set i { e with joinable := false }).map Entry.session =
    u.entries.map Entry.session
  rw [hset, hentries, List.map_append, List.map_append]
  rfl

/-- Every step takes `stopAll` further or leaves it where it is. -/
theorem Stopping.step {s u u' : State} {as bs : List Action} (h : Stopping s u as)
    (hheld : u.holder ≠ .free) (hm : Moves u u' bs) : Stopping s u' (as ++ bs) := by
  have hshape := h.shape.step hm
  have hplace := h.place
  refine ⟨hshape, ?_⟩
  cases hm with
  | adopt hfree | reapFinished hfree | stopAll hfree => exact absurd hfree hheld
  | finish session | exit session =>
    rw [List.append_nil]
    exact hplace
  | requestStop i e hat he =>
    rw [hat] at hplace
    obtain ⟨hsame, has⟩ := hplace
    refine ⟨hsame, ?_⟩
    rw [has, State.take_next hsame he, List.map_append]
    rfl
  | endRequests i hat he =>
    rw [hat] at hplace
    obtain ⟨hsame, has⟩ := hplace
    refine ⟨hsame, [], ?_, rfl, rfl⟩
    rw [has, List.take_of_length_le (State.take_all hsame he)]
  | join i e hat he hjoin =>
    rw [hat] at hplace
    obtain ⟨hsame, rest, rfl, hcalled, hreturned⟩ := hplace
    refine ⟨hsame, rest ++ [.join e.session], List.append_assoc _ _ _, ?_, ?_⟩
    · rw [joins_append, hcalled, State.take_next hsame he]
      rfl
    · rw [joined_append, hreturned]
      exact List.append_nil _
  | skip i e hat he hjoin =>
    have hpast : u.holder.past = i := by rw [hat]; rfl
    exact absurd (h.shape.here (hpast.symm ▸ he)) (by simp [hjoin])
  | joined i e hat he =>
    rw [hat] at hplace
    obtain ⟨hsame, rest, rfl, hcalled, hreturned⟩ := hplace
    refine ⟨(State.sessions_joinReturned he).trans hsame, rest ++ [.joined e.session],
      List.append_assoc _ _ _, ?_, ?_⟩
    · rw [joins_append, hcalled]
      exact List.append_nil _
    · rw [joined_append, hreturned, State.take_next hsame he]
      rfl
  | endStop i hat he =>
    rw [hat] at hplace
    obtain ⟨hsame, rest, rfl, hcalled, hreturned⟩ := hplace
    have hall := State.take_all hsame he
    rw [List.take_of_length_le hall] at hcalled hreturned
    rw [List.append_nil]
    refine ⟨rfl, rest, rfl, ?_, ?_⟩
    · rw [hcalled, List.take_length]
    · rw [hreturned, List.take_length]
  -- the steps of a pass are no steps of `stopAll`
  | running it e hat he hrun | ended it e hat he hended hjoin
  | endedThreadless it e hat he hended hjoin | reaped it e hat he | endReap it hat he =>
    rw [hat] at hplace
    exact hplace.elim

theorem Stopping.begin {s u : State} (hshape : Shape s) (h : s.step .stopAll = some u) :
    Stopping s u (s.actions .stopAll) := by
  obtain ⟨hfree, rfl, hnone⟩ := State.stopAll_of_step h
  rw [hnone]
  exact ⟨hshape.step (.stopAll hfree), rfl, rfl⟩

/-- **Stopping all** asks every session before it joins the first one. -/
theorem stop_operation {s s' : State} {mid : List Event} (hshape : Shape s)
    (h : Operation s .stopAll mid s') :
    Stopping s s' (outputs State.step State.actions s (.stopAll :: mid)) :=
  h.history (I := Stopping s) (fun _ hu => .begin hshape hu) fun _ _ _ _ hp => hp.step

/-! ## Main result -/

/-- **Bookkeeping.** In every interleaving of the operations and of the
sessions' ends, the following holds whenever the mutex is free. The count on
the status board is the number of entries. Every adopted session is an entry
once, or its thread has been joined once. A pass looks at every entry once and
in order, removes and joins exactly the sessions whose flag it saw set, and
keeps the others in order; a flag that was set when it began it sees, and one
that it sees is set. `stopAll` asks every session it finds to stop before it
joins the first of them, joins each once and leaves no entry. -/
theorem registry_bookkeeping (es : List Event) (s : State)
    (hplay : play State.step .initial es = some s) (hfree : s.holder = .free) :
    (s.clientCount = s.count ∧
      (s.entries.length < 2 ^ 31 → s.clientCount.toInt = s.entries.length)) ∧
    (∀ session < s.adopted,
      let ended := joined (outputs State.step State.actions .initial es)
      s.sessions.count session = 1 ∧ ended.count session = 0 ∨
        s.sessions.count session = 0 ∧ ended.count session = 1) ∧
    (∀ mid s', Operation s .reapFinished mid s' →
      let as := outputs State.step State.actions s (.reapFinished :: mid)
      (observed as).map Prod.fst = s.sessions ∧ s'.sessions = kept (observed as) ∧
        joins as = reaped (observed as) ∧ joined as = reaped (observed as) ∧
        ∀ o ∈ observed as, (o.1 ∈ s.finished → o.2 = true) ∧ (o.2 = true → o.1 ∈ s'.finished)) ∧
    ∀ mid s', Operation s .stopAll mid s' →
      s'.entries = [] ∧ ∃ rest,
        outputs State.step State.actions s (.stopAll :: mid) =
          s.sessions.map .requestStop ++ rest ∧
        joins rest = s.sessions ∧ joined rest = s.sessions := by
  obtain ⟨hshape, hconserved⟩ := bookkeeping hplay
  refine ⟨⟨hshape.count hfree, ?_⟩, ?_, ?_, ?_⟩
  · intro hlt
    rw [hshape.count hfree]
    exact Int32.toInt_ofNat_of_lt hlt
  · intro session hadopted
    exact entry_or_joined hshape hconserved hfree hadopted
  · intro mid s' hop
    have hpass := reap_operation hshape hop
    have hplace := hpass.place
    rw [hop.free] at hplace
    obtain ⟨hjoined, hfound, hleft⟩ := hplace
    exact ⟨hfound.symm, hleft, hpass.called, hjoined, hpass.flags⟩
  · intro mid s' hop
    have hplace := (stop_operation hshape hop).place
    rw [hop.free] at hplace
    obtain ⟨hempty, rest, has, hcalled, hreturned⟩ := hplace
    rw [List.take_length] at hcalled hreturned
    exact ⟨hempty, rest, has, hcalled, hreturned⟩

/-- A session that finishes while the pass waits for another one's thread is
reaped by the same pass. -/
theorem registry_bookkeeping_late_finish :
    ∃ s s', play State.step .initial [.adopt, .adopt, .finish 0] = some s ∧
      Operation s .reapFinished [.advance, .finish 1, .exit 0, .advance, .advance, .exit 1,
        .advance, .advance] s' ∧ s.clientCount = s.count ∧ s'.sessions = [] := by
  have hplay : play State.step .initial [.adopt, .adopt, .finish 0] =
      some ⟨[⟨0, true⟩, ⟨1, true⟩], 2, .free, 2, [0], []⟩ := by decide +kernel
  have hop : Operation ⟨[⟨0, true⟩, ⟨1, true⟩], 2, .free, 2, [0], []⟩ .reapFinished
      [.advance, .finish 1, .exit 0, .advance, .advance, .exit 1, .advance, .advance]
      ⟨[], 0, .free, 2, [1, 0], [1, 0]⟩ :=
    ⟨_, rfl, by decide +kernel, by decide +kernel, rfl⟩
  have h := registry_bookkeeping _ _ hplay rfl
  refine ⟨_, _, hplay, hop, h.1.1, (h.2.2.1 _ _ hop).2.1.trans ?_⟩
  decide +kernel

/-! ## The pass in one step -/

/-- The registry as the accept loops see it. -/
def State.registry (s : State) : ClientRegistry := ⟨s.sessions, s.clientCount⟩

theorem kept_eq_filter {obs : List (Nat × Bool)} (h : (obs.map Prod.fst).Nodup) :
    kept obs = (obs.map Prod.fst).filter fun session => session ∉ reaped obs := by
  induction obs with
  | nil => rfl
  | cons o obs ih =>
    obtain ⟨session, finished⟩ := o
    obtain ⟨hnew, hnodup⟩ := List.nodup_cons.mp h
    have hnot : session ∉ reaped obs := by
      intro hmem
      obtain ⟨o, ho, rfl⟩ := List.mem_map.mp hmem
      exact hnew (List.mem_map.mpr ⟨o, (List.mem_filter.mp ho).1, rfl⟩)
    have hih := ih hnodup
    cases finished with
    | false =>
      have hkept : kept ((session, false) :: obs) = session :: kept obs := rfl
      have hreaped : reaped ((session, false) :: obs) = reaped obs := rfl
      rw [hkept, hreaped, hih, List.map_cons, List.filter_cons_of_pos (by simpa using hnot)]
    | true =>
      have hkept : kept ((session, true) :: obs) = kept obs := rfl
      have hreaped : reaped ((session, true) :: obs) = session :: reaped obs := rfl
      rw [hkept, hreaped, hih, List.map_cons, List.filter_cons_of_neg (by simp)]
      refine List.filter_congr fun x hx => ?_
      have hne : x ≠ session := by
        rintro rfl
        exact hnew hx
      simp [hne]

/-- **The pass in one step**: on the sessions it saw finished, a pass is the
one-step pass of the accept loops. -/
theorem reapFinished_of_pass {es : List Event} {s s' : State} {mid : List Event}
    (hplay : play State.step .initial es = some s) (hfree : s.holder = .free)
    (hop : Operation s .reapFinished mid s') :
    s'.registry = s.registry.reapFinished
      (reaped (observed (outputs State.step State.actions s (.reapFinished :: mid)))) := by
  obtain ⟨hshape, hconserved⟩ := bookkeeping hplay
  have hpass := reap_operation hshape hop
  have hplace := hpass.place
  rw [hop.free] at hplace
  obtain ⟨-, hfound, hleft⟩ := hplace
  have hnodup : s.sessions.Nodup := by
    rw [← hshape.unjoined hfree]
    exact (List.nodup_append.mp (hconserved.nodup_iff.mpr List.nodup_range)).1
  rw [hfound] at hnodup
  have hentries := kept_eq_filter hnodup
  rw [← hfound, ← hleft] at hentries
  have hcount : s'.clientCount = ClientRegistry.size s'.sessions := by
    rw [hpass.shape.count hop.free]
    unfold State.count State.sessions ClientRegistry.size
    rw [List.length_map]
  unfold State.registry ClientRegistry.reapFinished
  simp only
  rw [← hentries, hcount]

end FaceTracking.Registry
