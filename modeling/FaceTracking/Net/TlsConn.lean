import FaceTracking.Net.Conn

/-!
# TLS byte streams

`TlsByteStream` is the encrypted transport, one OpenSSL session over an
accepted socket. OpenSSL is a parameter: its calls, and what is documented of
them. A record of the client is decrypted as a whole, and `SSL_read` hands out
a part of one record at a time, so a session holds the rest of the record it
is in (`buffered`), which is what `SSL_pending` counts, and the records that
come after it (`incoming`).
-/

namespace FaceTracking

open Lib

/-- What `SSL_get_error` says of a failed call; a failed system call leaves its
`errno`. -/
inductive SslError where
  | WANT_READ
  | WANT_WRITE
  | ZERO_RETURN
  | SYSCALL (errno : Errno)
  | other
deriving DecidableEq

/-- OpenSSL, as far as the stream relies on it. -/
structure OpenSsl (σ : Type) where
  accept : σ → Bool × σ
  read : σ → Nat → Except SslError Bytes × σ
  write : σ → Bytes → Except SslError Nat × σ
  shutdown : σ → σ
  /-- Decrypted bytes of the current record not yet returned. -/
  buffered : σ → Bytes
  /-- The contents of the records to come. -/
  incoming : σ → List Bytes
  record_length : ∀ s, ∀ r ∈ incoming s, 1 ≤ r.length ∧ r.length ≤ 16384
  /-- A read returns some bytes of the current record, or of the next one. -/
  read_ok : ∀ s cap b, (read s cap).1 = .ok b → 1 ≤ b.length ∧ b.length ≤ cap ∧
    if buffered s = [] then incoming s = (b ++ buffered (read s cap).2) :: incoming (read s cap).2
    else buffered s = b ++ buffered (read s cap).2 ∧ incoming (read s cap).2 = incoming s
  read_error : ∀ s cap e, (read s cap).1 = .error e →
    buffered (read s cap).2 = buffered s ∧ incoming (read s cap).2 = incoming s
  write_ok : ∀ s b n, (write s b).1 = .ok n → 1 ≤ n ∧ n ≤ b.length
  write_keeps : ∀ s b, buffered (write s b).2 = buffered s ∧ incoming (write s b).2 = incoming s

namespace OpenSsl

variable {σ : Type} (T : OpenSsl σ)

/-- `SSL_pending`. -/
def pending (s : σ) : Nat := (T.buffered s).length

/-- Everything the client has sent and the stream has not returned. -/
def plaintext (s : σ) : Bytes := T.buffered s ++ (T.incoming s).flatten

/-- The record that the next read is served from. -/
def atHand (s : σ) : Bytes := if T.buffered s = [] then (T.incoming s).headD [] else T.buffered s

/-- Decrypted bytes can be read: a call fails only while none are pending. -/
def ServesPending : Prop :=
  ∀ s cap, 0 < cap → 0 < T.pending s → ∃ b, (T.read s cap).1 = .ok b

theorem plaintext_read {s : σ} {cap : Nat} {b : Bytes} (h : (T.read s cap).1 = .ok b) :
    T.plaintext s = b ++ T.plaintext (T.read s cap).2 := by
  obtain ⟨-, -, hrecord⟩ := T.read_ok s cap b h
  unfold plaintext
  split at hrecord
  · rename_i hempty
    rw [hempty, hrecord, List.flatten_cons, List.nil_append, List.append_assoc]
  · obtain ⟨hbuffered, hincoming⟩ := hrecord
    rw [hbuffered, hincoming, List.append_assoc]

/-- A read takes from the record at hand. -/
theorem atHand_read {s : σ} {cap : Nat} {b : Bytes} (h : (T.read s cap).1 = .ok b) :
    T.atHand s = b ++ T.buffered (T.read s cap).2 := by
  obtain ⟨-, -, hrecord⟩ := T.read_ok s cap b h
  unfold atHand
  split at hrecord
  · rename_i hempty
    rw [if_pos hempty, hrecord, List.headD_cons]
  · rename_i hfull
    rw [if_neg hfull, hrecord.1]

theorem atHand_of_pending {s : σ} (h : 0 < T.pending s) : T.atHand s = T.buffered s :=
  if_neg (List.ne_nil_of_length_pos h)

end OpenSsl

/-! ## The stream -/

/-- One TLS session; there is none if `SSL_new` failed or the stream was closed. -/
structure TlsByteStream (σ : Type) where
  ssl : Option σ
  closed : Bool

namespace TlsByteStream

variable {σ : Type} (T : OpenSsl σ)

/-- What a failed first read means to the caller. -/
def readError : SslError → ReadResult
  | .WANT_READ | .WANT_WRITE => .error .EAGAIN
  | .ZERO_RETURN => .ok []
  | .SYSCALL .EINTR | .SYSCALL .EAGAIN | .SYSCALL .EWOULDBLOCK => .error .EAGAIN
  | .SYSCALL (.other _) => .ok []
  | .other => .ok []

/-- The loop behind the first read, `room` bytes of the buffer being free.
Every turn of it takes at least one of them. -/
def drain : Nat → Nat → σ → Bytes × σ
  | 0, _, s => ([], s)
  | fuel + 1, room, s =>
    if 0 < room ∧ 0 < T.pending s then
      match T.read s room with
      | (.error _, s) => ([], s)
      | (.ok b, s) => (b ++ (drain fuel (room - b.length) s).1, (drain fuel (room - b.length) s).2)
    else ([], s)

def read (c : TlsByteStream σ) (cap : Nat) : ReadResult × TlsByteStream σ :=
  match c.ssl with
  | none => (.error .EAGAIN, c)
  | some s =>
    if cap = 0 then (.error .EAGAIN, c)
    else
      match T.read s cap with
      | (.error e, s) => (readError e, { c with ssl := some s })
      | (.ok b, s) =>
        let r := drain T (cap - b.length) (cap - b.length) s
        (.ok (b ++ r.1), { c with ssl := some r.2 })

/-- The loop of `writeAll`; `fuel` bounds the number of calls, interrupted ones
among them. -/
def writeLoop : Nat → σ → Bytes → Bool × σ
  | _, s, [] => (true, s)
  | 0, s, _ :: _ => (false, s)
  | fuel + 1, s, x :: data =>
    match T.write s (x :: data) with
    | (.ok n, s) => writeLoop fuel s ((x :: data).drop n)
    | (.error (.SYSCALL .EINTR), s) => writeLoop fuel s (x :: data)
    | (.error _, s) => (false, s)

def writeAll (fuel : Nat) (c : TlsByteStream σ) (data : Bytes) : Bool × TlsByteStream σ :=
  match c.ssl with
  | none => (false, c)
  | some s => ((writeLoop T fuel s data).1, { c with ssl := some (writeLoop T fuel s data).2 })

def handshake (c : TlsByteStream σ) : Bool × TlsByteStream σ :=
  match c.ssl with
  | none => (false, c)
  | some s => ((T.accept s).1, { c with ssl := some (T.accept s).2 })

def close (_ : TlsByteStream σ) : TlsByteStream σ := ⟨none, true⟩

/-! ## The drain loop -/

/-- The loop returns the next bytes, as many as there is room for at most. -/
theorem drain_spec (fuel room : Nat) (s : σ) :
    T.plaintext s = (drain T fuel room s).1 ++ T.plaintext (drain T fuel room s).2 ∧
      (drain T fuel room s).1.length ≤ room := by
  induction fuel generalizing room s with
  | zero => exact ⟨rfl, Nat.zero_le _⟩
  | succ fuel ih =>
    unfold drain
    split
    · rcases hread : T.read s room with ⟨e | b, s'⟩
      · have hfst : (T.read s room).1 = .error e := by rw [hread]
        obtain ⟨hbuffered, hincoming⟩ := T.read_error s room e hfst
        rw [hread] at hbuffered hincoming
        simp only [OpenSsl.plaintext, hbuffered, hincoming]
        exact ⟨rfl, Nat.zero_le _⟩
      · have hfst : (T.read s room).1 = .ok b := by rw [hread]
        have hplain := T.plaintext_read hfst
        obtain ⟨-, hle, -⟩ := T.read_ok s room b hfst
        rw [hread] at hplain
        obtain ⟨hrest, hroom⟩ := ih (room - b.length) s'
        refine ⟨?_, ?_⟩
        · rw [hplain, hrest, List.append_assoc]
        · rw [List.length_append]
          omega
    · exact ⟨rfl, Nat.zero_le _⟩

/-- The loop empties a record that fits if OpenSSL serves what it has decrypted,
and leaves a part of one that does not fit. -/
theorem drain_buffered (fuel room : Nat) (s : σ) :
    (T.ServesPending → room ≤ fuel → T.pending s ≤ room →
      T.buffered (drain T fuel room s).2 = []) ∧
    (room < T.pending s → T.buffered (drain T fuel room s).2 ≠ []) := by
  induction fuel generalizing room s with
  | zero =>
    refine ⟨fun _ hfuel hfits => ?_, fun hover => ?_⟩
    · exact List.length_eq_zero_iff.mp (by unfold OpenSsl.pending at hfits; simp only [drain]; omega)
    · exact List.ne_nil_of_length_pos (Nat.zero_lt_of_lt hover)
  | succ fuel ih =>
    unfold drain
    split
    · rename_i hgo
      rcases hread : T.read s room with ⟨e | b, s'⟩
      · have hfst : (T.read s room).1 = .error e := by rw [hread]
        obtain ⟨hbuffered, -⟩ := T.read_error s room e hfst
        rw [hread] at hbuffered
        refine ⟨fun hserves _ _ => ?_, fun hover => ?_⟩
        · obtain ⟨b, hb⟩ := hserves s room hgo.1 hgo.2
          cases hb.symm.trans hfst
        · simp only [hbuffered]
          exact List.ne_nil_of_length_pos hgo.2
      · have hfst : (T.read s room).1 = .ok b := by rw [hread]
        obtain ⟨hpos, hle, -⟩ := T.read_ok s room b hfst
        have hhand := T.atHand_read hfst
        rw [T.atHand_of_pending hgo.2, hread] at hhand
        have hlength : T.pending s = b.length + T.pending s' := by
          unfold OpenSsl.pending
          rw [hhand, List.length_append]
        obtain ⟨hempty, hfull⟩ := ih (room - b.length) s'
        exact ⟨fun hserves hfuel hfits => hempty hserves (by omega) (by omega),
          fun hover => hfull (by omega)⟩
    · rename_i hstop
      refine ⟨fun _ _ hfits => ?_, fun hover => ?_⟩
      · refine List.length_eq_zero_iff.mp ?_
        unfold OpenSsl.pending at hstop hfits
        simp only
        omega
      · exact List.ne_nil_of_length_pos (Nat.zero_lt_of_lt hover)

/-! ## Reads -/

/-- What a session holds; nothing without one. -/
def buffered (c : TlsByteStream σ) : Bytes := c.ssl.elim [] T.buffered

def plaintext (c : TlsByteStream σ) : Bytes := c.ssl.elim [] T.plaintext

def atHand (c : TlsByteStream σ) : Bytes := c.ssl.elim [] T.atHand

/-- A read that returns bytes is a first read and the loop behind it. -/
theorem read_ok {c : TlsByteStream σ} {cap : Nat} {b : Bytes} (h : (read T c cap).1 = .ok b)
    (hb : b ≠ []) :
    ∃ s b₁ s₁, c.ssl = some s ∧ T.read s cap = (.ok b₁, s₁) ∧
      b = b₁ ++ (drain T (cap - b₁.length) (cap - b₁.length) s₁).1 ∧
      (read T c cap).2 =
        { c with ssl := some (drain T (cap - b₁.length) (cap - b₁.length) s₁).2 } := by
  unfold read at h ⊢
  cases hssl : c.ssl with
  | none =>
    rw [hssl] at h
    cases h
  | some s =>
    rw [hssl] at h
    simp only at h ⊢
    split at h
    · cases h
    · rename_i hcap
      rw [if_neg hcap]
      rcases hread : T.read s cap with ⟨e | b₁, s₁⟩
      · rw [hread] at h
        simp only at h
        -- a failed first read returns no bytes
        unfold readError at h
        split at h <;> first | exact absurd (Except.ok.inj h).symm hb | cases h
      · rw [hread] at h
        exact ⟨s, b₁, s₁, rfl, hread, (Except.ok.inj h).symm, rfl⟩

/-- If the first read of OpenSSL returns bytes, so does the stream's. -/
theorem read_of_ssl {c : TlsByteStream σ} {s : σ} {cap : Nat} {b : Bytes} (hssl : c.ssl = some s)
    (hcap : cap ≠ 0) (h : (T.read s cap).1 = .ok b) :
    ∃ b', (read T c cap).1 = .ok b' ∧ b' ≠ [] := by
  obtain ⟨hpos, -, -⟩ := T.read_ok s cap b h
  rcases hread : T.read s cap with ⟨r, s₁⟩
  rw [hread] at h
  obtain rfl : r = .ok b := h
  refine ⟨b ++ (drain T (cap - b.length) (cap - b.length) s₁).1, ?_, ?_⟩
  · unfold read
    simp only [hssl, if_neg hcap, hread]
  · exact List.append_ne_nil_of_left_ne_nil (List.ne_nil_of_length_pos hpos) _

/-- A read that returns no bytes leaves what is buffered as it was. -/
theorem read_none {c : TlsByteStream σ} {cap : Nat} (h : ∀ b, (read T c cap).1 = .ok b → b = []) :
    buffered T (read T c cap).2 = buffered T c := by
  unfold read at h ⊢
  cases hssl : c.ssl with
  | none => simp only [buffered, hssl]
  | some s =>
    rw [hssl] at h
    simp only at h ⊢
    split
    · rfl
    · rename_i hcap
      rw [if_neg hcap] at h
      rcases hread : T.read s cap with ⟨e | b₁, s₁⟩
      · have hfst : (T.read s cap).1 = .error e := by rw [hread]
        obtain ⟨hbuffered, -⟩ := T.read_error s cap e hfst
        rw [hread] at hbuffered
        simp only [buffered, hssl, Option.elim_some, hbuffered]
      · have hfst : (T.read s cap).1 = .ok b₁ := by rw [hread]
        obtain ⟨hpos, -, -⟩ := T.read_ok s cap b₁ hfst
        rw [hread] at h
        have hnil := List.append_eq_nil_iff.mp (h _ rfl)
        rw [hnil.1] at hpos
        cases hpos

theorem read_plaintext {c : TlsByteStream σ} {cap : Nat} {b : Bytes}
    (h : (read T c cap).1 = .ok b) (hb : b ≠ []) :
    plaintext T c = b ++ plaintext T (read T c cap).2 ∧ b.length ≤ cap := by
  obtain ⟨s, b₁, s₁, hssl, hread, rfl, hafter⟩ := read_ok T h hb
  have hfst : (T.read s cap).1 = .ok b₁ := by rw [hread]
  have hplain := T.plaintext_read hfst
  obtain ⟨-, hle, -⟩ := T.read_ok s cap b₁ hfst
  rw [hread] at hplain
  obtain ⟨hrest, hroom⟩ := drain_spec T (cap - b₁.length) (cap - b₁.length) s₁
  refine ⟨?_, ?_⟩
  · rw [hafter]
    simp only [plaintext, hssl, Option.elim_some]
    rw [hplain, hrest, List.append_assoc]
  · rw [List.length_append]
    omega

theorem read_buffered {c : TlsByteStream σ} {cap : Nat} {b : Bytes}
    (h : (read T c cap).1 = .ok b) (hb : b ≠ []) :
    (T.ServesPending → (atHand T c).length ≤ cap → buffered T (read T c cap).2 = []) ∧
      (cap < (atHand T c).length → buffered T (read T c cap).2 ≠ []) := by
  obtain ⟨s, b₁, s₁, hssl, hread, rfl, hafter⟩ := read_ok T h hb
  have hfst : (T.read s cap).1 = .ok b₁ := by rw [hread]
  obtain ⟨-, hle, -⟩ := T.read_ok s cap b₁ hfst
  have hhand := T.atHand_read hfst
  rw [hread] at hhand
  have hlength : (atHand T c).length = b₁.length + T.pending s₁ := by
    simp only [atHand, hssl, Option.elim_some, hhand, List.length_append]
    rfl
  obtain ⟨hempty, hfull⟩ := drain_buffered T (cap - b₁.length) (cap - b₁.length) s₁
  rw [hafter]
  simp only [buffered, Option.elim_some]
  exact ⟨fun hserves hfits => hempty hserves le_rfl (by omega), fun hover => hfull (by omega)⟩

end TlsByteStream

/-- The encrypted stream. -/
def TlsStream {σ : Type} (T : OpenSsl σ) (fuel : Nat) : IByteStream (TlsByteStream σ) where
  handshake := TlsByteStream.handshake T
  read := TlsByteStream.read T
  writeAll := TlsByteStream.writeAll T fuel
  close := TlsByteStream.close
  read_le c cap b h := by
    by_cases hb : b = []
    · rw [hb]
      exact Nat.zero_le _
    · exact (TlsByteStream.read_plaintext T h hb).2

end FaceTracking
