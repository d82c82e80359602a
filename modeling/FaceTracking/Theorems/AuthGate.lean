import FaceTracking.Net.ClientSession

/-!
# The authentication gate

A session with a token shows a client nothing but its advertisement, and does
nothing on its behalf, until the client's first complete message is a HELLO
with the right token.

The argument has two halves. While the gate is shut an iteration never looks
at the shared state: `loopStep_shut` says what it does instead, for all
contents at once, which gives both the invariant `Gate` and the two-run
statement. Once the gate has opened only `Later` matters: the trace grows and
the flag stays set.
-/

namespace FaceTracking.ClientSession

open Lib Proto

variable {κ ψ ψ' : Type} (W : World κ) (Sh : Shared ψ) (cfg : SessionConfig)

/-! ## Monotonicity -/

/-- The gate stays open and the trace grows. -/
structure Later (s s' : ClientSession κ ψ) : Prop where
  authed : s.authed = true → s'.authed = true
  trace : s.trace <+: s'.trace

theorem Later.refl (s : ClientSession κ ψ) : Later s s := ⟨id, List.prefix_rfl⟩

theorem Later.trans {s₁ s₂ s₃ : ClientSession κ ψ} (h : Later s₁ s₂) (h' : Later s₂ s₃) :
    Later s₁ s₃ :=
  ⟨h'.authed ∘ h.authed, h.trace.trans h'.trace⟩

/-- Later in the same session: what only the loop itself sets is as before. -/
structure Within (s s' : ClientSession κ ψ) : Prop extends Later s s' where
  startMs : s'.startMs = s.startMs
  finished : s'.finished = s.finished

theorem Within.refl (s : ClientSession κ ψ) : Within s s := ⟨.refl s, rfl, rfl⟩

theorem Within.trans {s₁ s₂ s₃ : ClientSession κ ψ} (h : Within s₁ s₂) (h' : Within s₂ s₃) :
    Within s₁ s₃ :=
  ⟨h.toLater.trans h'.toLater, h'.startMs.trans h.startMs, h'.finished.trans h.finished⟩

/-- Anything may be added to the trace. -/
theorem Within.emit (s : ClientSession κ ψ) (e : Event) : Within s (s.emit e) :=
  ⟨⟨id, List.prefix_append _ _⟩, rfl, rfl⟩

theorem Kept.within {s s' : ClientSession κ ψ} (h : Kept s s') : Within s s' := by
  obtain ⟨t, ht, -⟩ := h.trace
  exact ⟨⟨fun ha => h.authed.trans ha, ⟨t, ht.symm⟩⟩, h.startMs, h.finished⟩

theorem handleMessage_within (s : ClientSession κ ψ) (type : UInt16) (body : Bytes) :
    Within s (handleMessage W Sh s type body) :=
  (Within.emit s _).trans ((handleMessage_acts W Sh s type body).kept W).within

theorem onMessage_within (s : ClientSession κ ψ) (m : Message) :
    Within s (onMessage W Sh cfg s m).1 := by
  unfold onMessage
  split
  · exact handleMessage_within W Sh s _ _
  · split
    · exact .refl s
    · split
      · -- the gate opens in front of the HELLO's own handling
        have hopen : Within s ({ s with authed := true }.emit .authenticated) :=
          ⟨⟨fun _ => rfl, List.prefix_append _ _⟩, rfl, rfl⟩
        exact hopen.trans (handleMessage_within W Sh _ _ _)
      · exact .refl s

/-- A dispatch loop from any offset leaves what only the session loop sets. -/
theorem dispatchLoop_within (rx : Bytes) (fuel off : Nat) (s : ClientSession κ ψ) :
    Within s (dispatchLoop kMaxMessage (onMessage W Sh cfg) (fun s _ => s) rx fuel off s).1 := by
  induction fuel generalizing off s with
  | zero => exact .refl s
  | succ fuel ih =>
    rw [dispatchLoop_succ]
    split
    · exact .refl s
    · exact .refl s
    · split
      · exact (onMessage_within W Sh cfg s _).trans (ih _ _)
      · exact onMessage_within W Sh cfg s _

theorem dispatch_within (s : ClientSession κ ψ) (chunk : Bytes) :
    Within s (dispatch W Sh cfg s chunk).2 := by
  have h := dispatchLoop_within W Sh cfg (s.rx ++ chunk) ((s.rx ++ chunk).length + 1) 0
    { s with rx := s.rx ++ chunk }
  unfold dispatch
  simp only
  split
  · exact ⟨⟨h.authed, h.trace⟩, h.startMs, h.finished⟩
  · exact ⟨⟨h.authed, h.trace⟩, h.startMs, h.finished⟩

theorem readAndDispatch_within (s : ClientSession κ ψ) :
    Within s (readAndDispatch W Sh cfg s).2 := by
  have h : Within s (afterRecv W s) := ⟨⟨id, List.prefix_append _ _⟩, rfl, rfl⟩
  rw [readAndDispatch_eq]
  split
  · exact h
  · exact h
  · exact h.trans (dispatch_within W Sh cfg _ _)

theorem sendFrameIfNew_within (s : ClientSession κ ψ) :
    Within s (sendFrameIfNew W Sh s).2 := by
  have h : Within s ({ s with shared := (Sh.latest s.shared).2 }.emit .latest) :=
    ⟨⟨id, List.prefix_append _ _⟩, rfl, rfl⟩
  unfold sendFrameIfNew
  simp only
  split
  · exact h
  · split
    · exact h
    · split
      · exact h
      · exact h.trans ⟨⟨id, List.prefix_append _ _⟩, rfl, rfl⟩

theorem frameTick_within (s : ClientSession κ ψ) : Within s (frameTick W Sh cfg s).2 := by
  unfold frameTick
  simp only
  split
  · split
    · -- a frame is due; the clock is read again only if it went out
      have h := sendFrameIfNew_within W Sh { s with net := (W.nowMs s.net).2 }
      split
      · exact ⟨⟨h.authed, h.trace⟩, h.startMs, h.finished⟩
      · exact ⟨⟨h.authed, h.trace⟩, h.startMs, h.finished⟩
    · exact ⟨⟨id, List.prefix_rfl⟩, rfl, rfl⟩
  · exact .refl s

theorem readAndTick_within (s : ClientSession κ ψ) : Within s (readAndTick W Sh cfg s).2 := by
  unfold readAndTick
  simp only
  split
  · exact (readAndDispatch_within W Sh cfg s).trans (frameTick_within W Sh cfg _)
  · exact readAndDispatch_within W Sh cfg s

theorem afterPoll_within (s : ClientSession κ ψ) (p : PollResult) :
    Within s (afterPoll W Sh cfg s p).2 := by
  cases p with
  | interrupted => exact .refl s
  | failed => exact .refl s
  | timedOut => exact frameTick_within W Sh cfg s
  | ready fault readable =>
    unfold afterPoll
    simp only
    split
    · exact .refl s
    · split
      · exact readAndTick_within W Sh cfg s
      · exact frameTick_within W Sh cfg s

theorem finish_later (s : ClientSession κ ψ) : Later s (finish W s) :=
  ⟨id, List.prefix_append _ _⟩

theorem Later.conclude {s : ClientSession κ ψ} {r : Bool × ClientSession κ ψ} (h : Later s r.2) :
    Later s (conclude W r) := by
  unfold ClientSession.conclude
  split
  · exact h
  · exact h.trans (finish_later W _)

theorem loopStep_later (s : ClientSession κ ψ) : Later s (loopStep W Sh cfg s) := by
  unfold loopStep
  split
  · exact .refl s
  · obtain ⟨k, hk⟩ := toPoll_eq W s
    have h : Later s (toPoll W s).2 := by
      rw [hk]
      exact ⟨id, List.prefix_rfl⟩
    rcases hp : toPoll W s with ⟨_ | timeout, t⟩
    · rw [hp] at h
      exact h.trans (finish_later W t)
    · rw [hp] at h
      simp only
      have ha := afterPoll_within W Sh cfg { t with net := (W.poll t.net timeout).2 }
        (W.poll t.net timeout).1
      exact Later.conclude W (h.trans ⟨ha.authed, ha.trace⟩)

theorem run_later (net : κ) (shared : ψ) (n k : Nat) :
    Later (run W Sh cfg net shared n) (run W Sh cfg net shared (n + k)) := by
  induction k with
  | zero => exact .refl _
  | succ k ih => exact ih.trans (loopStep_later W Sh cfg _)

/-! ## While the gate is shut -/

/-- The bytes begin with a HELLO message that carries the configured token. -/
def Admits (b : Bytes) : Prop :=
  ∃ (m : Message) (rest : Bytes), b = m.wire ++ rest ∧ m.payload.length ≤ kMaxMessage.toNat ∧
    m.type = MsgType.Hello.code ∧ Auth.helloAuthorized cfg.authToken m.payload = true

theorem admits_of_parse {b : Bytes} {m : Message} {n : Nat} (h : parse kMaxMessage b = .item m n)
    (ht : m.type = MsgType.Hello.code)
    (ha : Auth.helloAuthorized cfg.authToken m.payload = true) : Admits cfg b := by
  obtain ⟨-, hle, hb⟩ := wire_of_parse h
  exact ⟨m, b.drop n, hb, hle, ht, ha⟩

theorem Admits.parse {b : Bytes} (h : Admits cfg b) :
    ∃ m, parse kMaxMessage b = .item m m.wire.length ∧ m.type = MsgType.Hello.code ∧
      Auth.helloAuthorized cfg.authToken m.payload = true := by
  obtain ⟨m, rest, rfl, hle, ht, ha⟩ := h
  exact ⟨m, parse_wire hle rest, ht, ha⟩

/-- Bytes behind the HELLO do not matter. -/
theorem Admits.append {b : Bytes} (h : Admits cfg b) (c : Bytes) : Admits cfg (b ++ c) := by
  obtain ⟨m, rest, rfl, hle, ht, ha⟩ := h
  exact ⟨m, rest ++ c, List.append_assoc _ _ _, hle, ht, ha⟩

theorem not_admits_of_more {b : Bytes} (h : parse kMaxMessage b = .more) : ¬ Admits cfg b := by
  intro ha
  obtain ⟨m, hp, -⟩ := ha.parse
  rw [h] at hp
  cases hp

/-- The gate opens: flag and event. -/
def opened (s : ClientSession κ ψ) : ClientSession κ ψ :=
  { s with authed := true }.emit .authenticated

/-- At the shut gate a good HELLO opens it, and any other message changes
nothing. -/
theorem onMessage_shut {s : ClientSession κ ψ} (hs : s.authed = false) (m : Message) :
    (m.type = MsgType.Hello.code ∧ Auth.helloAuthorized cfg.authToken m.payload = true →
      (onMessage W Sh cfg s m).2 = true ∧ Later (opened s) (onMessage W Sh cfg s m).1) ∧
    (¬ (m.type = MsgType.Hello.code ∧ Auth.helloAuthorized cfg.authToken m.payload = true) →
      onMessage W Sh cfg s m = (s, false)) := by
  unfold onMessage
  rw [if_neg (by simp [hs])]
  constructor
  · rintro ⟨ht, ha⟩
    rw [if_neg (by simp [ht]), if_pos ha]
    exact ⟨rfl, (handleMessage_within W Sh _ _ _).toLater⟩
  · intro hno
    by_cases ht : m.type = MsgType.Hello.code
    · rw [if_neg (by simp [ht]), if_neg (fun ha => hno ⟨ht, ha⟩)]
    · rw [if_pos ht]

/-- Dispatching at the shut gate: either the first message opens it, or no
message is handled at all. -/
theorem dispatch_shut {s : ClientSession κ ψ} (hs : s.authed = false) (chunk : Bytes) :
    (Admits cfg (s.rx ++ chunk) →
      Later (opened { s with rx := s.rx ++ chunk }) (dispatch W Sh cfg s chunk).2) ∧
    (¬ Admits cfg (s.rx ++ chunk) →
      dispatch W Sh cfg s chunk =
        (decide (parse kMaxMessage (s.rx ++ chunk) = .more), { s with rx := s.rx ++ chunk })) := by
  have hauth : ({ s with rx := s.rx ++ chunk } : ClientSession κ ψ).authed = false := hs
  unfold dispatch
  simp only
  rw [dispatchLoop_succ, List.drop_zero]
  constructor
  · intro ha
    obtain ⟨m, hp, ht, hm⟩ := ha.parse
    obtain ⟨hgo, hl⟩ := (onMessage_shut W Sh cfg hauth m).1 ⟨ht, hm⟩
    rw [hp]
    simp only
    rw [if_pos hgo]
    have h := hl.trans (dispatchLoop_within W Sh cfg (s.rx ++ chunk) (s.rx ++ chunk).length
      (0 + m.wire.length) (onMessage W Sh cfg { s with rx := s.rx ++ chunk } m).1).toLater
    split
    · exact ⟨h.authed, h.trace⟩
    · exact ⟨h.authed, h.trace⟩
  · intro hno
    cases hp : parse kMaxMessage (s.rx ++ chunk) with
    | more => simp
    | bad => simp
    | item m n =>
      have hm := (onMessage_shut W Sh cfg hauth m).2
        (fun h => hno (admits_of_parse cfg hp h.1 h.2))
      simp only [hm]
      simp

/-- Does the session go on after a read that opens nothing? -/
def shutGo (rx : Bytes) : ReadResult → Bool
  | .ok [] => false
  | .error e => e == .EINTR || e == .EAGAIN || e == .EWOULDBLOCK
  | .ok b => decide (parse kMaxMessage (rx ++ b) = .more)

/-- A read at the shut gate that does not open it. -/
def shutRead (s : ClientSession κ ψ) : Bool × ClientSession κ ψ :=
  (shutGo s.rx (W.conn.recv s.net 8192).1,
    { afterRecv W s with rx := s.rx ++ bytesOf (W.conn.recv s.net 8192).1 })

theorem readAndDispatch_shut {s : ClientSession κ ψ} (hs : s.authed = false)
    (hrx : ¬ Admits cfg s.rx) :
    (Admits cfg (s.rx ++ bytesOf (W.conn.recv s.net 8192).1) →
      Later (opened (shutRead W s).2) (readAndDispatch W Sh cfg s).2) ∧
    (¬ Admits cfg (s.rx ++ bytesOf (W.conn.recv s.net 8192).1) →
      readAndDispatch W Sh cfg s = shutRead W s) := by
  have hauth : (afterRecv W s).authed = false := hs
  have hsame : ({ afterRecv W s with rx := s.rx } : ClientSession κ ψ) = afterRecv W s := rfl
  rw [readAndDispatch_eq]
  unfold shutRead
  rcases hr : (W.conn.recv s.net 8192).1 with e | _ | ⟨x, b⟩
  · simp [hrx, shutGo, hsame]
  · simp [hrx, shutGo, hsame]
  · exact dispatch_shut W Sh cfg hauth (x :: b)

/-- An iteration behind `poll` while the gate stays shut. -/
def shutPoll (s : ClientSession κ ψ) : PollResult → Bool × ClientSession κ ψ
  | .interrupted => (true, s)
  | .failed => (false, s)
  | .timedOut => (true, s)
  | .ready fault readable =>
    if fault then (false, s) else if readable then shutRead W s else (true, s)

/-- An iteration while the gate stays shut. It does not mention the shared state. -/
def shutStep (s : ClientSession κ ψ) : ClientSession κ ψ :=
  if s.finished then s
  else
    match toPoll W s with
    | (none, s) => finish W s
    | (some timeout, s) =>
      let p := W.poll s.net timeout
      conclude W (shutPoll W { s with net := p.2 } p.1)

/-- This iteration's read completes the HELLO. -/
def Opening (s : ClientSession κ ψ) : Prop :=
  ∃ t, reading W s = some t ∧ Admits cfg (t.rx ++ bytesOf (W.conn.recv t.net 8192).1)

theorem frameTick_shut {s : ClientSession κ ψ} (hs : s.authed = false) :
    frameTick W Sh cfg s = (true, s) := by
  unfold frameTick
  rw [if_neg (by simp [hs])]

theorem shutRead_authed {s : ClientSession κ ψ} (hs : s.authed = false) :
    (shutRead W s).2.authed = false := hs

/-- The frame timer adds nothing to a read at the shut gate. -/
theorem readAndTick_shut {s : ClientSession κ ψ} (hs : s.authed = false)
    (hrx : ¬ Admits cfg s.rx) :
    (Admits cfg (s.rx ++ bytesOf (W.conn.recv s.net 8192).1) →
      Later (opened (shutRead W s).2) (readAndTick W Sh cfg s).2) ∧
    (¬ Admits cfg (s.rx ++ bytesOf (W.conn.recv s.net 8192).1) →
      readAndTick W Sh cfg s = shutRead W s) := by
  obtain ⟨hopen, hshut⟩ := readAndDispatch_shut W Sh cfg hs hrx
  unfold readAndTick
  simp only
  constructor
  · intro hadm
    split
    · exact (hopen hadm).trans (frameTick_within W Sh cfg _).toLater
    · exact hopen hadm
  · intro hadm
    rw [hshut hadm, frameTick_shut W Sh cfg (shutRead_authed W hs)]
    rcases shutRead W s with ⟨_ | _, t⟩ <;> rfl

/-- **An iteration at the shut gate** is `shutStep`, unless its read completes
the HELLO. -/
theorem loopStep_shut {s : ClientSession κ ψ} (hs : s.authed = false) (hrx : ¬ Admits cfg s.rx) :
    (∀ t, reading W s = some t → Admits cfg (t.rx ++ bytesOf (W.conn.recv t.net 8192).1) →
      Later (opened (shutRead W t).2) (loopStep W Sh cfg s)) ∧
    (¬ Opening W cfg s → loopStep W Sh cfg s = shutStep W s) := by
  unfold Opening reading loopStep shutStep
  by_cases hf : s.finished = true
  · simp [hf]
  rw [if_neg hf, if_neg hf, if_neg hf]
  obtain ⟨k, hk⟩ := toPoll_eq W s
  rcases hp : toPoll W s with ⟨_ | timeout, u⟩
  · simp
  · rw [hp] at hk
    simp only at hk
    subst hk
    simp only
    generalize W.poll k timeout = p
    obtain ⟨p, k'⟩ := p
    -- what is left is a case analysis on the answer of `poll`
    have htick := frameTick_shut W Sh cfg (s := { s with net := k' }) hs
    cases p with
    | interrupted => simp [afterPoll, shutPoll]
    | failed => simp [afterPoll, shutPoll]
    | timedOut => simp [afterPoll, shutPoll, htick]
    | ready fault readable =>
      cases fault with
      | true => simp [afterPoll, shutPoll]
      | false =>
        cases readable with
        | false => simp [afterPoll, shutPoll, htick]
        | true =>
          obtain ⟨hopen, hshut⟩ := readAndTick_shut W Sh cfg (s := { s with net := k' }) hs hrx
          simp only [afterPoll, shutPoll, if_true, Bool.false_eq_true, if_false,
            Option.some.injEq]
          constructor
          · rintro t rfl hadm
            exact (hopen hadm).conclude W
          · intro hno
            rw [hshut (fun hadm => hno ⟨_, rfl, hadm⟩)]

/-! ## What a client can notice -/

/-- The advertisement written at the start of `run`. -/
def advert : Bytes := buildMessage MsgType.Hello.code (helloJson cfg) 0

/-- Nothing but the advertisement has been sent and nothing has been done to
what the session shares with the terminal. -/
structure Quiet (t : List Event) : Prop where
  sends : sends t = [] ∨ sends t = [advert cfg]
  untouched : ∀ e ∈ t, e.isShared = false

theorem Quiet.of_initial {p t : List Event} (h : Quiet cfg t) (hp : p <+: t) : Quiet cfg p := by
  obtain ⟨r, rfl⟩ := hp
  refine ⟨?_, fun e he => h.untouched e (List.mem_append_left r he)⟩
  have hs := h.sends
  rw [sends_append] at hs
  rcases hs with hs | hs
  · exact .inl (List.append_eq_nil_iff.mp hs).1
  · rcases List.append_eq_singleton_iff.mp hs with ⟨h1, -⟩ | ⟨h1, -⟩
    · exact .inl h1
    · exact .inr h1

/-- Reads and the closing of the connection keep a trace quiet. -/
def Passive (e : Event) : Prop := (∃ r, e = .recv r) ∨ e = .close

theorem Quiet.append {t ev : List Event} (h : Quiet cfg t) (hev : ∀ e ∈ ev, Passive e) :
    Quiet cfg (t ++ ev) := by
  have hs : FaceTracking.sends ev = [] := by
    refine List.filterMap_eq_nil_iff.mpr ?_
    intro e he
    rcases hev e he with ⟨r, rfl⟩ | rfl <;> rfl
  refine ⟨by rw [sends_append, hs, List.append_nil]; exact h.sends, ?_⟩
  intro e he
  rcases List.mem_append.mp he with he | he
  · exact h.untouched e he
  · rcases hev e he with ⟨r, rfl⟩ | rfl <;> rfl

/-- What an iteration at the shut gate does to the buffer and the trace. -/
structure StaysShut (s t : ClientSession κ ψ) : Prop where
  authed : t.authed = false
  passive : ∃ ev, t.trace = s.trace ++ ev ∧ ∀ e ∈ ev, Passive e
  starved : t.finished = false → t.rx = received t.trace ∧ parse kMaxMessage t.rx = .more

section StaysShut

variable {s : ClientSession κ ψ} (hs : s.authed = false)
include hs

/-- The gate stays shut while nothing is read. -/
theorem StaysShut.idle (hmore : parse kMaxMessage s.rx = .more) (hrx : s.rx = received s.trace)
    (k : κ) : StaysShut s { s with net := k } :=
  ⟨hs, ⟨[], by simp, by simp⟩, fun _ => ⟨hrx, hmore⟩⟩

/-- The gate stays shut when the session ends. -/
theorem StaysShut.finish (k : κ) : StaysShut s (finish W { s with net := k }) := by
  refine ⟨hs, ⟨[.close], rfl, ?_⟩, fun h => by cases h⟩
  intro e he
  rw [List.mem_singleton.mp he]
  exact .inr rfl

/-- A read is followed by another wait if it left an incomplete message, or by the end. -/
theorem StaysShut.read (hmore : parse kMaxMessage s.rx = .more) (hrx : s.rx = received s.trace)
    (k : κ) : StaysShut s (conclude W (shutRead W { s with net := k })) := by
  generalize hres : W.conn.recv k 8192 = res
  have htrace : (shutRead W { s with net := k }).2.trace = s.trace ++ [.recv res.1] := by
    simp [shutRead, afterRecv, emit, hres]
  have hrx' : (shutRead W { s with net := k }).2.rx = s.rx ++ bytesOf res.1 := by
    simp [shutRead, hres]
  have hgo : (shutRead W { s with net := k }).1 = shutGo s.rx res.1 := by
    simp [shutRead, hres]
  unfold conclude
  rw [hgo]
  split
  · rename_i hgo'
    refine ⟨hs, ⟨_, htrace, by simp [Passive]⟩, fun _ => ⟨?_, ?_⟩⟩
    · rw [hrx', htrace, received_append, ← hrx]
      simp [received]
    · rw [hrx']
      rcases hr : res.1 with e | b
      · simpa using hmore
      · rw [hr] at hgo'
        cases b with
        | nil => cases hgo'
        | cons x b => simpa [shutGo] using hgo'
  · refine ⟨hs, ⟨[.recv res.1, .close], ?_, by simp [Passive]⟩, fun h => by cases h⟩
    show (shutRead W { s with net := k }).2.trace ++ [.close] = _
    rw [htrace, List.append_assoc]
    rfl

/-- An iteration at the shut gate leaves it shut. -/
theorem shutStep_spec (hmore : parse kMaxMessage s.rx = .more) (hrx : s.rx = received s.trace) :
    StaysShut s (shutStep W s) := by
  unfold shutStep
  split
  · exact .idle hs hmore hrx s.net
  obtain ⟨k, hk⟩ := toPoll_eq W s
  rcases hp : toPoll W s with ⟨_ | timeout, u⟩
  · rw [hp] at hk
    simp only at hk
    subst hk
    exact .finish W hs k
  · rw [hp] at hk
    simp only at hk
    subst hk
    simp only
    generalize W.poll k timeout = p
    obtain ⟨p, k'⟩ := p
    cases p with
    | interrupted => exact .idle hs hmore hrx k'
    | failed => exact .finish W hs k'
    | timedOut => exact .idle hs hmore hrx k'
    | ready fault readable =>
      cases fault with
      | true => exact .finish W hs k'
      | false =>
        cases readable with
        | false => exact .idle hs hmore hrx k'
        | true => exact .read W hs hmore hrx k'

end StaysShut

/-! ## The invariant -/

/-- The gate: shut, with everything received still in the buffer and no
complete message in it, or opened by the HELLO behind a quiet trace. -/
inductive Gate (s : ClientSession κ ψ) : Prop where
  | shut (authed : s.authed = false) (unopened : Event.authenticated ∉ s.trace)
      (quiet : Quiet cfg s.trace)
      (buffer : s.finished = false → s.rx = received s.trace ∧ parse kMaxMessage s.rx = .more)
  | passed (q : List Event) (authed : s.authed = true) (unopened : Event.authenticated ∉ q)
      (quiet : Quiet cfg q) (admits : Admits cfg (received q))
      (trace : q ++ [.authenticated] <+: s.trace)

/-- A read that opens the gate is recorded in front of the authentication. -/
theorem opened_trace {s t : ClientSession κ ψ} (h : reading W s = some t) :
    (opened (shutRead W t).2).trace =
      (s.trace ++ [.recv (W.conn.recv t.net 8192).1]) ++ [.authenticated] ∧ t.rx = s.rx := by
  obtain ⟨-, k, rfl⟩ := reading_eq W h
  exact ⟨rfl, rfl⟩

theorem Gate.step {s : ClientSession κ ψ} (h : Gate cfg s) : Gate cfg (loopStep W Sh cfg s) := by
  have hlater := loopStep_later W Sh cfg s
  cases h with
  | passed q hauth hun hq hadm htrace =>
    exact .passed q (hlater.authed hauth) hun hq hadm (htrace.trans hlater.trace)
  | shut hauth hun hq hbuf =>
    cases hf : s.finished with
    | true =>
      rw [loopStep, if_pos hf]
      exact .shut hauth hun hq hbuf
    | false =>
      obtain ⟨hrx, hmore⟩ := hbuf hf
      obtain ⟨hopen, hshut⟩ := loopStep_shut W Sh cfg hauth (not_admits_of_more cfg hmore)
      by_cases ho : Opening W cfg s
      · obtain ⟨t, ht, hadm⟩ := ho
        have hl := hopen t ht hadm
        obtain ⟨htrace, htrx⟩ := opened_trace W ht
        refine .passed (s.trace ++ [.recv (W.conn.recv t.net 8192).1]) (hl.authed rfl) ?_ ?_ ?_ ?_
        · simp [hun]
        · exact hq.append cfg (by simp [Passive])
        · rw [received_append, ← hrx, ← htrx]
          simpa [received] using hadm
        · rw [← htrace]
          exact hl.trace
      · rw [hshut ho]
        obtain ⟨hauth', ⟨ev, hev, hpass⟩, hbuf'⟩ := shutStep_spec W hauth hmore hrx
        refine .shut hauth' ?_ ?_ hbuf'
        · rw [hev]
          intro hm
          rcases List.mem_append.mp hm with hm | hm
          · exact hun hm
          · rcases hpass _ hm with ⟨r, hr⟩ | hr <;> cases hr
        · rw [hev]
          exact hq.append cfg hpass

theorem Gate.init (htok : cfg.authToken ≠ []) (net : κ) (shared : ψ) :
    Gate cfg (start W cfg net shared : ClientSession κ ψ) := by
  have hauth : cfg.authToken.isEmpty = false := by simpa using htok
  unfold start
  simp only
  split
  · refine .shut hauth ?_ ⟨.inr rfl, ?_⟩ fun _ => ⟨rfl, rfl⟩
    · simp [sendJson, send, emit, create]
    · simp [sendJson, send, emit, create, Event.isShared]
  · refine .shut hauth ?_ ⟨.inl rfl, ?_⟩ fun h => by cases h
    · simp [finish, emit, create]
    · simp [finish, emit, create, Event.isShared]

/-- In every reachable state the gate is shut or was opened by the HELLO. -/
theorem gate_run (htok : cfg.authToken ≠ []) (net : κ) (shared : ψ) (n : Nat) :
    Gate cfg (run W Sh cfg net shared n) := by
  induction n with
  | zero => exact Gate.init W cfg htok net shared
  | succ n ih => exact ih.step W Sh cfg

/-! ## Two runs -/

/-- The same session next to another terminal. -/
def withShared (s : ClientSession κ ψ) (x : ψ') : ClientSession κ ψ' :=
  { net := s.net, shared := x, authed := s.authed, lastSentSeq := s.lastSentSeq, rx := s.rx,
    startMs := s.startMs, nextFrameAt := s.nextFrameAt, finished := s.finished, trace := s.trace }

theorem toPoll_withShared (s : ClientSession κ ψ) (x : ψ') :
    toPoll W (s.withShared x) = ((toPoll W s).1, (toPoll W s).2.withShared x) := by
  unfold toPoll timeLeft pollTimeout withShared
  simp only
  split
  · rfl
  · split
    · split <;> rfl
    · split <;> rfl

theorem reading_withShared (s : ClientSession κ ψ) (x : ψ') :
    reading W (s.withShared x) = (reading W s).map (withShared · x) := by
  unfold reading
  rw [toPoll_withShared]
  show (if s.finished = true then none else _) = _
  split
  · rfl
  · rcases toPoll W s with ⟨_ | timeout, t⟩
    · rfl
    · simp only
      show (if (W.poll t.net timeout).1 = .ready false true then _ else _) = _
      split <;> rfl

theorem shutPoll_withShared (s : ClientSession κ ψ) (x : ψ') (p : PollResult) :
    shutPoll W (s.withShared x) p = ((shutPoll W s p).1, (shutPoll W s p).2.withShared x) := by
  rcases p with _ | _ | _ | ⟨_ | _, _ | _⟩ <;> rfl

theorem conclude_withShared (r : Bool × ClientSession κ ψ) (x : ψ') :
    conclude W (r.1, r.2.withShared x) = (conclude W r).withShared x := by
  rcases r with ⟨_ | _, t⟩ <;> rfl

theorem shutStep_withShared (s : ClientSession κ ψ) (x : ψ') :
    shutStep W (s.withShared x) = (shutStep W s).withShared x := by
  unfold shutStep
  rw [toPoll_withShared]
  show (if s.finished = true then _ else _) = _
  split
  · rfl
  · rcases toPoll W s with ⟨_ | timeout, t⟩
    · rfl
    · simp only
      rw [← conclude_withShared, ← shutPoll_withShared]
      rfl

/-- Two sessions with the same peer: still shut and equal up to what is shared,
or both opened behind the same trace. -/
inductive Twins (s : ClientSession κ ψ) (s' : ClientSession κ ψ') : Prop where
  | shut (authed : s.authed = false) (same : s' = s.withShared s'.shared)
  | passed (q : List Event) (authed : s.authed = true) (authed' : s'.authed = true)
      (unopened : Event.authenticated ∉ q) (trace : q ++ [.authenticated] <+: s.trace)
      (trace' : q ++ [.authenticated] <+: s'.trace)

theorem Twins.step (Sh' : Shared ψ') {s : ClientSession κ ψ} {s' : ClientSession κ ψ'}
    (hg : Gate cfg s) (h : Twins s s') :
    Twins (loopStep W Sh cfg s) (loopStep W Sh' cfg s') := by
  cases h with
  | passed q ha ha' hun htr htr' =>
    have hl := loopStep_later W Sh cfg s
    have hl' := loopStep_later W Sh' cfg s'
    exact .passed q (hl.authed ha) (hl'.authed ha') hun (htr.trans hl.trace) (htr'.trans hl'.trace)
  | shut hauth hsame =>
    cases hg with
    | passed q ha => simp [ha] at hauth
    | shut _ hun hq hbuf =>
      generalize hx : s'.shared = x at hsame
      subst hsame
      cases hf : s.finished with
      | true =>
        rw [loopStep, loopStep, if_pos hf, if_pos (show (s.withShared x).finished = true from hf)]
        exact .shut hauth (by rw [hx])
      | false =>
        obtain ⟨hrx, hmore⟩ := hbuf hf
        have hno := not_admits_of_more cfg hmore
        obtain ⟨hopen, hshut⟩ := loopStep_shut W Sh cfg hauth hno
        obtain ⟨hopen', hshut'⟩ := loopStep_shut W Sh' cfg (s := s.withShared x) hauth hno
        by_cases ho : Opening W cfg s
        · obtain ⟨t, ht, hadm⟩ := ho
          have ht' : reading W (s.withShared x) = some (t.withShared x) := by
            rw [reading_withShared, ht]
            rfl
          have hl := hopen t ht hadm
          have hl' := hopen' _ ht' hadm
          have htr := (opened_trace W ht).1
          have htr' := (opened_trace W ht').1
          refine .passed (s.trace ++ [.recv (W.conn.recv t.net 8192).1]) (hl.authed rfl)
            (hl'.authed rfl) (by simp [hun]) ?_ ?_
          · rw [← htr]
            exact hl.trace
          · exact htr' ▸ hl'.trace
        · have ho' : ¬ Opening W cfg (s.withShared x) := by
            rintro ⟨t', ht', hadm⟩
            rw [reading_withShared, Option.map_eq_some_iff] at ht'
            obtain ⟨t, ht, rfl⟩ := ht'
            exact ho ⟨t, ht, hadm⟩
          rw [hshut ho, hshut' ho', shutStep_withShared]
          exact .shut (shutStep_spec W hauth hmore hrx).authed rfl

theorem Twins.init (htok : cfg.authToken ≠ []) (net : κ) (shared : ψ) (shared' : ψ') :
    Twins (start W cfg net shared) (start W cfg net shared') := by
  have hauth : cfg.authToken.isEmpty = false := by simpa using htok
  unfold start create
  simp only
  rcases W.conn.handshake net with ⟨_ | _, k⟩ <;> exact .shut hauth rfl

theorem twins_run (Sh' : Shared ψ') (htok : cfg.authToken ≠ []) (net : κ) (shared : ψ)
    (shared' : ψ') (n : Nat) :
    Twins (run W Sh cfg net shared n) (run W Sh' cfg net shared' n) := by
  induction n with
  | zero => exact Twins.init W cfg htok net shared shared'
  | succ n ih => exact ih.step W Sh cfg Sh' (gate_run W Sh cfg htok net shared n)

/-- What happened up to authentication. -/
def preAuth (t : List Event) : List Event := t.takeWhile (fun e => decide (e ≠ .authenticated))

theorem preAuth_of_initial {q t : List Event} (hq : Event.authenticated ∉ q)
    (h : q ++ [.authenticated] <+: t) : preAuth t = q := by
  obtain ⟨r, rfl⟩ := h
  unfold preAuth
  rw [List.append_assoc, List.takeWhile_append_of_pos]
  · simp
  · intro e he
    simp only [decide_eq_true_eq]
    rintro rfl
    exact hq he

theorem Twins.preAuth {s : ClientSession κ ψ} {s' : ClientSession κ ψ'} (h : Twins s s') :
    preAuth s.trace = preAuth s'.trace := by
  cases h with
  | shut _ same =>
    rw [same]
    rfl
  | passed q _ _ hun htr htr' => rw [preAuth_of_initial hun htr, preAuth_of_initial hun htr']

/-! ## Main result -/

/-- **The pre-authentication gate.** For every peer, clock and `poll`, every
terminal, and any number of iterations of a session with a token: until the
bytes received begin with an authorized HELLO the session has been quiet; if
they begin with any other message it has ended and has been quiet; another
terminal would have led to the same events up to authentication; and the gate
stays open once it is. -/
theorem pre_auth_gate (htok : cfg.authToken ≠ []) (net : κ) (shared : ψ) (n : Nat) :
    let s : ClientSession κ ψ := run W Sh cfg net shared n
    (∀ p, p <+: s.trace → ¬ Admits cfg (received p) → Quiet cfg p) ∧
    (∀ (m : Message) (rest : Bytes), received s.trace = m.wire ++ rest →
      m.payload.length < 2 ^ 32 →
      ¬ (m.type = MsgType.Hello.code ∧ Auth.helloAuthorized cfg.authToken m.payload = true) →
      s.finished = true ∧ Quiet cfg s.trace) ∧
    (∀ (ψ' : Type) (Sh' : Shared ψ') (shared' : ψ'),
      preAuth s.trace = preAuth (run W Sh' cfg net shared' n).trace) ∧
    (s.authed = true → ∀ k, (run W Sh cfg net shared (n + k)).authed = true) := by
  intro s
  have hg : Gate cfg s := gate_run W Sh cfg htok net shared n
  refine ⟨?_, ?_, ?_, fun h k => (run_later W Sh cfg net shared n k).authed h⟩
  · intro p hp hno
    cases hg with
    | shut _ _ hq _ => exact hq.of_initial cfg hp
    | passed q _ _ hq hadm htr =>
      rcases List.prefix_or_prefix_of_prefix hp ((List.prefix_append q _).trans htr) with h | h
      · exact hq.of_initial cfg h
      · obtain ⟨r, rfl⟩ := h
        rw [received_append] at hno
        exact absurd (hadm.append cfg _) hno
  · intro m rest hrecv hlen hno
    -- whatever its length, the first message is neither incomplete nor the HELLO
    have hmore : parse kMaxMessage (received s.trace) ≠ .more := by
      rw [hrecv]
      exact parse_wire_ne_more hlen rest
    have hadm : ¬ Admits cfg (received s.trace) := by
      rintro ⟨m', rest', he, hle, ht, ha⟩
      have hcap : kMaxMessage.toNat = 33554432 := rfl
      have hm : m = m' := wire_append_inj hlen (by omega) (hrecv.symm.trans he)
      rw [hm] at hno
      exact hno ⟨ht, ha⟩
    cases hg with
    | shut _ _ hq hbuf =>
      refine ⟨?_, hq⟩
      by_contra hf
      obtain ⟨hrx, hp⟩ := hbuf (by simpa using hf)
      rw [hrx] at hp
      exact hmore hp
    | passed q _ _ hq hadm' htr =>
      obtain ⟨r, hr⟩ := htr
      have hrec : received s.trace = received q ++ received ([.authenticated] ++ r) := by
        rw [← hr, List.append_assoc, received_append]
      rw [hrec] at hadm
      exact absurd (hadm'.append cfg _) hadm
  · intro ψ' Sh' shared'
    exact (twins_run W Sh cfg Sh' htok net shared shared' n).preAuth

/-- A client whose first message is a HEARTBEAT, in one chunk. -/
def heartbeatFirst : Socket :=
  ⟨[.ok (buildMessage MsgType.Heartbeat.code [] 0)], [.accept 500], [], false⟩

theorem pre_auth_gate_heartbeat :
    let W := World.of (TcpConn RawByteStream) (schedule 0)
    let cfg : SessionConfig := ⟨15, utf8 "secret"⟩
    (run W Shared.empty cfg (heartbeatFirst, [.ready false true]) () 1).finished = true := by
  intro W cfg
  have hrecv : received (run W Shared.empty cfg (heartbeatFirst, [.ready false true]) () 1).trace =
      Message.wire ⟨MsgType.Heartbeat.code, 0, []⟩ ++ [] := by
    decide +kernel
  exact ((pre_auth_gate W Shared.empty cfg (by decide +kernel)
    (heartbeatFirst, [.ready false true]) () 1).2.1 _ [] hrecv (by decide)
    (fun h => absurd h.1 (by decide))).1

end FaceTracking.ClientSession
