import FaceTracking.Net.ClientSession

/-!
# Inbound framing is exact

For an authenticated session with an empty receive buffer, over any connection
and any shared state: however the client's bytes are cut into chunks, the
successive calls of `readAndDispatch` hand over exactly the messages of the
greedy decomposition of the bytes, and the session gives up in the very call
that completes an inadmissible header.

`readCalls_eq` reduces the calls to one scan of the whole byte string;
`checkedDispatch_eq` shows that none of the size computations on the way can
wrap around.
-/

namespace FaceTracking.ClientSession

open Lib Proto

variable {κ ψ : Type} (W : World κ) (Sh : Shared ψ) (cfg : SessionConfig)

/-- Successive calls of `readAndDispatch`, up to the first that returns false:
what `recv` returned in each call and what the call returned. -/
def readCalls : Nat → ClientSession κ ψ → List (ReadResult × Bool) × ClientSession κ ψ
  | 0, s => ([], s)
  | n + 1, s =>
    let res := (W.conn.recv s.net 8192).1
    let r := readAndDispatch W Sh cfg s
    if r.1 then ((res, true) :: (readCalls n r.2).1, (readCalls n r.2).2) else ([(res, false)], r.2)

/-- A message as `handleMessage` sees it. -/
def seen (m : Message) : UInt16 × Bytes := (m.type, m.payload)

/-! ## One call -/

theorem onMessage_authed {s : ClientSession κ ψ} (h : s.authed = true) (m : Message) :
    (onMessage W Sh cfg s m).2 = true ∧ (onMessage W Sh cfg s m).1.authed = true ∧
      (onMessage W Sh cfg s m).1.rx = s.rx ∧
      handled (onMessage W Sh cfg s m).1.trace = handled s.trace ++ [seen m] := by
  unfold onMessage
  rw [if_pos h]
  have hk := (handleMessage_acts W Sh s m.type m.payload).kept W
  refine ⟨rfl, by rw [hk.authed]; exact h, hk.rx, ?_⟩
  rw [hk.observed.2]
  show handled (s.trace ++ [.message m.type m.payload]) = _
  rw [handled_append]
  rfl

theorem handleAll_authed (ms : List Message) {s : ClientSession κ ψ} (h : s.authed = true) :
    (handleAll (onMessage W Sh cfg) s ms).2 = true ∧
      (handleAll (onMessage W Sh cfg) s ms).1.authed = true ∧
      (handleAll (onMessage W Sh cfg) s ms).1.rx = s.rx ∧
      handled (handleAll (onMessage W Sh cfg) s ms).1.trace = handled s.trace ++ ms.map seen := by
  induction ms generalizing s with
  | nil => simp [handleAll, h]
  | cons m ms ih =>
    obtain ⟨hgo, ha, hrx, hh⟩ := onMessage_authed W Sh cfg h m
    obtain ⟨hgo', ha', hrx', hh'⟩ := ih ha
    unfold handleAll
    rw [if_pos hgo]
    refine ⟨hgo', ha', hrx'.trans hrx, ?_⟩
    rw [hh', hh, List.append_assoc]
    rfl

/-- Dispatching a chunk handles the messages it completes, in their order. -/
theorem dispatch_authed {s : ClientSession κ ψ} (h : s.authed = true) (chunk : Bytes) :
    let sc := messages kMaxMessage (s.rx ++ chunk)
    let r := dispatch W Sh cfg s chunk
    handled r.2.trace = handled s.trace ++ sc.items.map seen ∧ r.2.authed = true ∧
      (sc.ending = .broken → r.1 = false) ∧
      (sc.ending ≠ .broken → r.1 = true ∧ r.2.rx = sc.rest) := by
  intro sc r
  obtain ⟨hgo, ha, hrx, hh⟩ :=
    handleAll_authed W Sh cfg sc.items (s := { s with rx := s.rx ++ chunk }) h
  have hloop := dispatchLoop_eq kMaxMessage (onMessage W Sh cfg) (fun s _ => s) (s.rx ++ chunk)
    ((s.rx ++ chunk).length + 1) 0 { s with rx := s.rx ++ chunk } (Nat.zero_le _) (by omega)
  rw [List.drop_zero] at hloop
  have hr : r = match (dispatched (onMessage W Sh cfg) (fun s _ => s) (s.rx ++ chunk)
      { s with rx := s.rx ++ chunk } sc) with
      | (t, none) => (false, t)
      | (t, some off) => (true, { t with rx := t.rx.drop off }) := by
    show dispatch W Sh cfg s chunk = _
    unfold dispatch
    simp only
    rw [hloop]
    rcases dispatched (onMessage W Sh cfg) (fun s _ => s) (s.rx ++ chunk)
      { s with rx := s.rx ++ chunk } sc with ⟨t, _ | off⟩ <;> rfl
  unfold dispatched at hr
  rw [if_pos hgo] at hr
  by_cases hb : sc.ending = .broken
  · rw [if_pos hb] at hr
    rw [hr]
    exact ⟨hh, ha, fun _ => rfl, fun hne => absurd hb hne⟩
  · rw [if_neg hb] at hr
    rw [hr]
    refine ⟨hh, ha, fun he => absurd he hb, fun _ => ⟨rfl, ?_⟩⟩
    -- the lazy erase leaves what the scan left
    obtain ⟨pre, hpre⟩ := (sec1 kMaxMessage).rest_suffix (fun _ => false) (s.rx ++ chunk)
    have hlen : (s.rx ++ chunk).length - sc.rest.length = pre.length := by
      rw [← hpre, List.length_append]
      simp [sc, messages]
    simp only [hrx, hlen]
    conv => lhs; rw [← hpre]
    exact List.drop_left

theorem readAndDispatch_chunk {s : ClientSession κ ψ} {x : UInt8} {b : Bytes}
    (h : (W.conn.recv s.net 8192).1 = .ok (x :: b)) :
    readAndDispatch W Sh cfg s = dispatch W Sh cfg (afterRecv W s) (x :: b) := by
  rw [readAndDispatch_eq, h]

theorem handled_afterRecv (s : ClientSession κ ψ) :
    handled (afterRecv W s).trace = handled s.trace := by
  show handled (s.trace ++ [_]) = _
  rw [handled_append]
  exact List.append_nil _

/-! ## Many calls -/

theorem messages_ending (b : Bytes) :
    (messages kMaxMessage b).ending = .starved ∨ (messages kMaxMessage b).ending = .broken := by
  cases he : (messages kMaxMessage b).ending with
  | starved => exact .inl rfl
  | broken => exact .inr rfl
  | halted =>
    obtain ⟨as, -, ⟨-, hne⟩ | ⟨z, hz, -⟩⟩ := (sec1 kMaxMessage).items_of_scan (fun _ => false) b
    · exact absurd he hne
    · cases hz

/-- What calls that received `chunks` come to: `e` is their outcome, `s` the
session in front of them. -/
structure OneScan (s : ClientSession κ ψ) (chunks : List Bytes)
    (e : List (ReadResult × Bool) × ClientSession κ ψ) : Prop where
  trace : handled e.2.trace = handled s.trace ++
    (messages kMaxMessage (s.rx ++ chunks.flatten)).items.map seen
  authed : e.2.authed = true
  broken : (messages kMaxMessage (s.rx ++ chunks.flatten)).ending = .broken →
    e.1.map Prod.snd = List.replicate (chunks.length - 1) true ++ [false] ∧
      (messages kMaxMessage (s.rx ++ chunks.dropLast.flatten)).ending = .starved
  whole : (messages kMaxMessage (s.rx ++ chunks.flatten)).ending ≠ .broken →
    e.1.map Prod.snd = List.replicate chunks.length true ∧
      e.2.rx = (messages kMaxMessage (s.rx ++ chunks.flatten)).rest

/-- Without a call nothing is handled. -/
theorem OneScan.none {s : ClientSession κ ψ} (hauth : s.authed = true)
    (hmore : parse kMaxMessage s.rx = .more) : OneScan s [] ([], s) := by
  have hscan : messages kMaxMessage s.rx = ⟨[], s.rx, .starved⟩ :=
    (sec1 kMaxMessage).scan_more _ hmore
  constructor <;> simp [hscan, hauth]

/-- A call that completes an inadmissible header is the last. -/
theorem OneScan.last {s t : ClientSession κ ψ} {c : Bytes} (hmore : parse kMaxMessage s.rx = .more)
    (hbroken : (messages kMaxMessage (s.rx ++ c)).ending = .broken) (hauth : t.authed = true)
    (hhandled : handled t.trace = handled s.trace ++
      (messages kMaxMessage (s.rx ++ c)).items.map seen) (r : ReadResult) :
    OneScan s [c] ([(r, false)], t) := by
  have hone : s.rx ++ [c].flatten = s.rx ++ c := by simp
  refine ⟨?_, hauth, fun _ => ⟨rfl, ?_⟩, fun hne => ?_⟩
  · rw [hone]
    exact hhandled
  · simp [messages, (sec1 kMaxMessage).scan_more _ hmore]
  · rw [hone] at hne
    exact absurd hbroken hne

/-- Any other call scans on from where the one in front of it stopped. -/
theorem OneScan.cons {s t : ClientSession κ ψ} {c : Bytes} {cs : List Bytes}
    {e : List (ReadResult × Bool) × ClientSession κ ψ} (h : OneScan t cs e)
    (hstarved : (messages kMaxMessage (s.rx ++ c)).ending = .starved)
    (hrest : t.rx = (messages kMaxMessage (s.rx ++ c)).rest)
    (hhandled : handled t.trace = handled s.trace ++
      (messages kMaxMessage (s.rx ++ c)).items.map seen) (r : ReadResult) :
    OneScan s (c :: cs) ((r, true) :: e.1, e.2) := by
  have happ : ∀ d, messages kMaxMessage (s.rx ++ (c ++ d)) =
      (messages kMaxMessage (t.rx ++ d)).prepend (messages kMaxMessage (s.rx ++ c)).items := by
    intro d
    rw [← List.append_assoc, hrest]
    exact (sec1 kMaxMessage).scan_append _ _ d hstarved
  constructor
  · rw [List.flatten_cons, happ, h.trace, hhandled, List.append_assoc, ← List.map_append]
    rfl
  · exact h.authed
  · rw [List.flatten_cons, happ]
    intro hb
    obtain ⟨hflags, hinit⟩ := h.broken hb
    -- a starved scan is not broken by nothing more
    have hcs : cs ≠ [] := by
      rintro rfl
      have hmore : parse kMaxMessage t.rx = .more := by
        rw [hrest]
        exact (sec1 kMaxMessage).step_rest_of_starved _ _ hstarved
      simp only [List.flatten_nil, List.append_nil, Scan.prepend_ending] at hb
      rw [messages, (sec1 kMaxMessage).scan_more _ hmore] at hb
      cases hb
    have hlen : 0 < cs.length := List.length_pos_of_ne_nil hcs
    refine ⟨?_, ?_⟩
    · rw [List.map_cons, hflags, List.length_cons, Nat.add_sub_cancel, ← List.cons_append,
        ← List.replicate_succ, Nat.sub_add_cancel hlen]
    · rw [List.dropLast_cons_of_ne_nil hcs, List.flatten_cons, happ]
      exact hinit
  · rw [List.flatten_cons, happ]
    intro hb
    obtain ⟨hflags, hrx⟩ := h.whole hb
    refine ⟨?_, hrx⟩
    rw [List.map_cons, hflags, List.length_cons, List.replicate_succ]

/-- **The calls are one scan.** `chunks` is what `recv` returned in the
successive calls, each of them non-empty. -/
theorem readCalls_eq (n : Nat) (s : ClientSession κ ψ) (hauth : s.authed = true)
    (hmore : parse kMaxMessage s.rx = .more) (chunks : List Bytes)
    (hrecv : (readCalls W Sh cfg n s).1.map Prod.fst = chunks.map .ok)
    (hne : ∀ c ∈ chunks, c ≠ []) : OneScan s chunks (readCalls W Sh cfg n s) := by
  induction n generalizing s chunks with
  | zero =>
    have hnil : chunks = [] := by simpa [readCalls] using hrecv.symm
    subst hnil
    exact .none hauth hmore
  | succ n ih =>
    unfold readCalls at hrecv ⊢
    simp only at hrecv ⊢
    -- every call made consumes one of the chunks
    obtain ⟨c, cs, rfl⟩ : ∃ c cs, chunks = c :: cs := by
      cases chunks with
      | nil => split at hrecv <;> cases hrecv
      | cons c cs => exact ⟨c, cs, rfl⟩
    have hres : (W.conn.recv s.net 8192).1 = .ok c := by
      split at hrecv
      · exact (List.cons.inj hrecv).1
      · exact (List.cons.inj hrecv).1
    obtain ⟨x, b, rfl⟩ : ∃ x b, c = x :: b :=
      List.exists_cons_of_ne_nil (hne c List.mem_cons_self)
    rw [readAndDispatch_chunk W Sh cfg hres] at hrecv ⊢
    obtain ⟨hh, ha, hbad, hgood⟩ :=
      dispatch_authed W Sh cfg (s := afterRecv W s) hauth (x :: b)
    rw [handled_afterRecv] at hh
    have hrx : (afterRecv W s).rx = s.rx := rfl
    rw [hrx] at hh hbad hgood
    rcases messages_ending (s.rx ++ x :: b) with he | he
    · obtain ⟨hgo, hrest⟩ := hgood (by rw [he]; decide)
      rw [if_pos hgo] at hrecv ⊢
      have hmore' : parse kMaxMessage (dispatch W Sh cfg (afterRecv W s) (x :: b)).2.rx = .more := by
        rw [hrest]
        exact (sec1 kMaxMessage).step_rest_of_starved _ _ he
      have hcalls := ih _ ha hmore' cs (List.cons.inj hrecv).2
        (fun c hc => hne c (List.mem_cons_of_mem _ hc))
      exact hcalls.cons he hrest hh _
    · rw [hbad he] at hrecv ⊢
      simp only [Bool.false_eq_true, if_false] at hrecv ⊢
      have hcs : cs = [] := by simpa using (List.cons.inj hrecv).2.symm
      subst hcs
      exact .last hmore he ha hh _

/-! ## Size computations -/

/-- Addition of `w`-bit sizes; `none` if it wraps. -/
def addSize (w a b : Nat) : Option Nat := if a + b < 2 ^ w then some (a + b) else none

/-- Subtraction of sizes; `none` if it wraps. -/
def subSize (a b : Nat) : Option Nat := if b ≤ a then some (a - b) else none

/-- The loop of `readAndDispatch` with every size computation checked. -/
def checkedLoop (w : Nat) (rx : Bytes) :
    Nat → Nat → ClientSession κ ψ → Option (ClientSession κ ψ × Option Nat)
  | 0, off, s => some (s, some off)
  | fuel + 1, off, s => do
    let avail ← subSize rx.length off
    if avail < kHeaderSize then some (s, some off)
    else
      match decodeHeader (rx.drop off) with
      | none => some (s, none)
      | some h =>
        if h.length > kMaxMessage then some (s, none)
        else do
          let size ← addSize w kHeaderSize h.length.toNat
          if avail < size then some (s, some off)
          else do
            let pl ← addSize w off kHeaderSize
            let r := onMessage W Sh cfg s ⟨h.type, h.flags, (rx.drop pl).take h.length.toNat⟩
            if r.2 then do
              let off ← addSize w off size
              checkedLoop w rx fuel off r.1
            else some (r.1, none)

/-- `dispatch` with every size computation checked. -/
def checkedDispatch (w : Nat) (s : ClientSession κ ψ) (chunk : Bytes) :
    Option (Bool × ClientSession κ ψ) := do
  let _ ← addSize w s.rx.length chunk.length
  let s := { s with rx := s.rx ++ chunk }
  let r ← checkedLoop W Sh cfg w s.rx (s.rx.length + 1) 0 s
  match r.2 with
  | none => some (false, r.1)
  | some off => some (true, { r.1 with rx := r.1.rx.drop off })

theorem checkedLoop_eq {w : Nat} (hw : 32 ≤ w) (rx : Bytes) (hrx : rx.length < 2 ^ 32)
    (fuel off : Nat) (s : ClientSession κ ψ) (hoff : off ≤ rx.length) :
    checkedLoop W Sh cfg w rx fuel off s =
      some (dispatchLoop kMaxMessage (onMessage W Sh cfg) (fun s _ => s) rx fuel off s) := by
  have hpow : 2 ^ 32 ≤ 2 ^ w := Nat.pow_le_pow_right (by omega) hw
  have hadd : ∀ a b, a + b < 2 ^ 32 → addSize w a b = some (a + b) := by
    intro a b hab
    exact if_pos (by omega)
  induction fuel generalizing off s with
  | zero => rfl
  | succ fuel ih =>
    unfold checkedLoop dispatchLoop
    rw [subSize, if_pos hoff, Option.bind_eq_bind, Option.bind_some]
    by_cases hl : rx.length - off < kHeaderSize
    · rw [if_pos hl, if_pos hl]
    rw [if_neg hl, if_neg hl]
    cases decodeHeader (rx.drop off) with
    | none => rfl
    | some h =>
      simp only
      by_cases hcap : h.length > kMaxMessage
      · rw [if_pos hcap, if_pos hcap]
      rw [if_neg hcap, if_neg hcap]
      have hle : h.length.toNat ≤ 32 * 1024 * 1024 :=
        UInt32.le_iff_toNat_le.mp (UInt32.not_lt.mp hcap)
      have hk : kHeaderSize = 12 := rfl
      rw [hadd _ _ (by omega), Option.bind_some]
      by_cases hlen : rx.length - off < kHeaderSize + h.length.toNat
      · rw [if_pos hlen, if_pos hlen]
      rw [if_neg hlen, if_neg hlen, hadd _ _ (by omega), Option.bind_some]
      split
      · rw [hadd _ _ (by omega), Option.bind_some]
        exact ih _ _ (by omega)
      · rfl

/-- Below the session's bounds no size computation of a call wraps. -/
theorem checkedDispatch_eq {w : Nat} (hw : 32 ≤ w) (s : ClientSession κ ψ) (chunk : Bytes)
    (hrx : s.rx.length < kHeaderSize + kMaxMessage.toNat) (hchunk : chunk.length ≤ 8192) :
    checkedDispatch W Sh cfg w s chunk = some (dispatch W Sh cfg s chunk) := by
  have hpow : 2 ^ 32 ≤ 2 ^ w := Nat.pow_le_pow_right (by omega) hw
  have hk : kHeaderSize + kMaxMessage.toNat = 33554444 := by decide
  have hlen : (s.rx ++ chunk).length < 2 ^ 32 := by
    rw [List.length_append]
    omega
  unfold checkedDispatch dispatch
  rw [addSize, if_pos (by omega), Option.bind_eq_bind, Option.bind_some]
  simp only
  rw [checkedLoop_eq W Sh cfg hw _ hlen _ _ _ (Nat.zero_le _), Option.bind_eq_bind,
    Option.bind_some]
  rcases dispatchLoop kMaxMessage (onMessage W Sh cfg) (fun s _ => s) (s.rx ++ chunk)
    ((s.rx ++ chunk).length + 1) 0 { s with rx := s.rx ++ chunk } with ⟨t, _ | off⟩ <;> rfl

/-! ## Main result -/

/-- What is in front of the 12th byte of an inadmissible header is not yet
inadmissible, so the header must have been completed by the last chunk. -/
theorem length_lt_of_starved {ms : List Message} {r init last : Bytes}
    (hms : ∀ m ∈ ms, m.payload.length ≤ kMaxMessage.toNat) (hbad : BadHeader kMaxMessage r)
    (hsplit : init ++ last = ms.flatMap Message.wire ++ r)
    (hinit : (messages kMaxMessage init).ending = .starved) :
    init.length < (ms.flatMap Message.wire).length + kHeaderSize := by
  by_contra hge
  have hge : (ms.flatMap Message.wire).length + kHeaderSize ≤ init.length := by omega
  obtain ⟨r', hr'⟩ : ∃ r', init = ms.flatMap Message.wire ++ r' := by
    have hp : init <+: ms.flatMap Message.wire ++ r := by
      rw [← hsplit]
      exact List.prefix_append init last
    obtain ⟨r', hr'⟩ := List.prefix_of_prefix_length_le
      (List.prefix_append (ms.flatMap Message.wire) r) hp (by omega)
    exact ⟨r', hr'.symm⟩
  have hr : r = r' ++ last := by
    rw [hr', List.append_assoc] at hsplit
    exact (List.append_cancel_left hsplit).symm
  have hlen : kHeaderSize ≤ r'.length := by
    rw [hr', List.length_append] at hge
    omega
  have hbad' : parse kMaxMessage r' = .bad := by
    rw [parse_bad_iff]
    refine ⟨hlen, ?_⟩
    have := (parse_bad_iff.mp (parse_bad_iff_badHeader.mpr hbad)).2
    rwa [hr, decodeHeader_append hlen] at this
  have hno : NoMessage kMaxMessage r' := by
    intro m t hle he
    rw [he, parse_wire hle] at hbad'
    cases hbad'
  rw [hr', messages_decomposition hms hno, if_pos hbad'] at hinit
  cases hinit

/-- **Inbound framing.** `n` calls of an authenticated session with an empty
buffer received `chunks`, which together are the messages `ms` followed by the
remainder `r`. -/
theorem inbound_framing (n : Nat) (s : ClientSession κ ψ) (hauth : s.authed = true)
    (hrx : s.rx = []) (chunks : List Bytes)
    (hrecv : (readCalls W Sh cfg n s).1.map Prod.fst = chunks.map .ok)
    (hne : ∀ c ∈ chunks, c ≠ []) (ms : List Message) (r : Bytes)
    (hS : chunks.flatten = ms.flatMap Message.wire ++ r)
    (hms : ∀ m ∈ ms, m.payload.length ≤ kMaxMessage.toNat) (hr : NoMessage kMaxMessage r) :
    let e := readCalls W Sh cfg n s
    handled e.2.trace = handled s.trace ++ ms.map (fun m => (m.type, m.payload)) ∧
      (BadHeader kMaxMessage r →
        e.1.map Prod.snd = List.replicate (chunks.length - 1) true ++ [false] ∧
        chunks.dropLast.flatten.length < (ms.flatMap Message.wire).length + kHeaderSize) ∧
      (¬ BadHeader kMaxMessage r →
        e.1.map Prod.snd = List.replicate chunks.length true ∧ e.2.rx = r ∧
        e.2.rx.length < kHeaderSize + 32 * 1024 * 1024 ∧
        ∀ w, 32 ≤ w → ∀ chunk : Bytes, chunk.length ≤ 8192 →
          checkedDispatch W Sh cfg w e.2 chunk = some (dispatch W Sh cfg e.2 chunk)) := by
  obtain ⟨hh, -, hbad, hgood⟩ :=
    readCalls_eq W Sh cfg n s hauth (by rw [hrx]; rfl) chunks hrecv hne
  have hsc := messages_decomposition hms hr
  rw [hrx, List.nil_append, hS, hsc] at hh hbad hgood
  refine ⟨hh, ?_, ?_⟩
  · intro hb
    obtain ⟨hflags, hinit⟩ := hbad (by rw [if_pos (parse_bad_iff_badHeader.mpr hb)])
    refine ⟨hflags, ?_⟩
    rw [List.nil_append] at hinit
    have hchunks : chunks ≠ [] := by
      rintro rfl
      have hlen := congrArg List.length hS
      have := hb.1
      simp only [List.flatten_nil, List.length_nil, List.length_append] at hlen
      have hk : kHeaderSize = 12 := rfl
      omega
    have hsplit : chunks.dropLast.flatten ++ chunks.getLast hchunks =
        ms.flatMap Message.wire ++ r := by
      rw [← hS]
      conv => rhs; rw [← List.dropLast_append_getLast hchunks]
      simp
    exact length_lt_of_starved hms hb hsplit hinit
  · intro hb
    have hnb : parse kMaxMessage r ≠ .bad := fun hp => hb (parse_bad_iff_badHeader.mp hp)
    obtain ⟨hflags, hrest⟩ := hgood (by rw [if_neg hnb]; intro h; cases h)
    have hlen : r.length < kHeaderSize + kMaxMessage.toNat := by
      cases hp : parse kMaxMessage r with
      | more => exact length_of_parse_more hp
      | bad => exact absurd hp hnb
      | item m k =>
        obtain ⟨-, hle, he⟩ := wire_of_parse hp
        exact absurd he (hr m _ hle)
    refine ⟨hflags, hrest, by rw [hrest]; exact hlen, ?_⟩
    intro w hw chunk hchunk
    exact checkedDispatch_eq W Sh cfg hw _ chunk (by rw [hrest]; exact hlen) hchunk

def heartbeat : Message := ⟨MsgType.Heartbeat.code, 0, []⟩

/-- A HEARTBEAT cut inside its header, followed by one byte of the next message. -/
def heartbeatChunks : List Bytes := [heartbeat.wire.take 5, heartbeat.wire.drop 5 ++ [0x53]]

theorem inbound_framing_heartbeat :
    let W := World.of (TcpConn RawByteStream) (schedule 0)
    let s := create ⟨15, []⟩ ((⟨heartbeatChunks.map .ok, [], [], false⟩ : Socket), []) ()
    handled (readCalls W Shared.empty ⟨15, []⟩ 2 s).2.trace =
      handled s.trace ++ [heartbeat].map (fun m => (m.type, m.payload)) := by
  intro W s
  have hrecv : (readCalls W Shared.empty ⟨15, []⟩ 2 s).1.map Prod.fst =
      heartbeatChunks.map .ok := by
    decide +kernel
  have hno : NoMessage kMaxMessage [0x53] := by
    intro m t _ he
    have hlen := congrArg List.length he
    rw [List.length_append, Message.wire, length_buildMessage, kHeaderSize] at hlen
    simp only [List.length_cons, List.length_nil] at hlen
    omega
  exact (inbound_framing W Shared.empty ⟨15, []⟩ 2 s rfl rfl heartbeatChunks hrecv
    (by decide +kernel) [heartbeat] [0x53] (by decide +kernel) (by decide +kernel) hno).1

end FaceTracking.ClientSession
