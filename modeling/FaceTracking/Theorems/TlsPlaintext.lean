import FaceTracking.Lib.Runs
import FaceTracking.Net.TlsConn

/-!
# Plaintext that poll cannot see

A session waits for bytes in the kernel, so what OpenSSL has decrypted and not
returned is out of its sight. A read returns the next bytes in order, and it
leaves none behind as long as the record it is served from fits into the
caller's buffer (`tls_reads`). A record has up to 16384 bytes and the largest
buffer 8192, so a client can leave half a record behind (`tls_strands`).
-/

namespace FaceTracking.TlsByteStream

open Lib

variable {σ : Type} (T : OpenSsl σ) (fuel : Nat)

/-- What the terminal does with a stream. -/
inductive Use where
  | read (cap : Nat)
  | write (data : Bytes)

def use (c : TlsByteStream σ) : Use → Option (TlsByteStream σ)
  | .read cap => some (read T c cap).2
  | .write data => some (writeAll T fuel c data).2

/-- The record at hand fits into the caller's buffer. -/
def Fits (c : TlsByteStream σ) : Use → Prop
  | .read cap => (atHand T c).length ≤ cap
  | .write _ => True

/-- A read that returns bytes returns the next ones, no more than there is room
for, and leaves nothing buffered. -/
def NothingHidden (c : TlsByteStream σ) : Use → Prop
  | .read cap => ∀ b, (read T c cap).1 = .ok b → b ≠ [] →
      buffered T (read T c cap).2 = [] ∧ plaintext T c = b ++ plaintext T (read T c cap).2 ∧
        b.length ≤ cap
  | .write _ => True

theorem writeLoop_buffered (s : σ) (data : Bytes) :
    T.buffered (writeLoop T fuel s data).2 = T.buffered s := by
  induction fuel generalizing s data with
  | zero => cases data <;> rfl
  | succ fuel ih =>
    cases data with
    | nil => rfl
    | cons x data =>
      have hkeeps := (T.write_keeps s (x :: data)).1
      unfold writeLoop
      split <;> rename_i hwrite <;> rw [hwrite] at hkeeps
      · exact (ih _ _).trans hkeeps
      · exact (ih _ _).trans hkeeps
      · exact hkeeps

variable {T fuel}

/-- Under the condition nothing stays behind, whatever the call. -/
theorem use_buffered (hserves : T.ServesPending) {c c' : TlsByteStream σ} {u : Use}
    (hc : buffered T c = []) (hu : Fits T c u) (h : use T fuel c u = some c') :
    buffered T c' = [] := by
  cases u with
  | read cap =>
    obtain rfl := Option.some.inj h
    by_cases hnone : ∀ b, (read T c cap).1 = .ok b → b = []
    · exact (read_none T hnone).trans hc
    · obtain ⟨b, hb, hne⟩ : ∃ b, (read T c cap).1 = .ok b ∧ b ≠ [] := by
        simpa using hnone
      exact (read_buffered T hb hne).1 hserves hu
  | write data =>
    obtain rfl := Option.some.inj h
    unfold buffered writeAll at *
    cases hssl : c.ssl with
    | none => simp only [hssl, Option.elim_none]
    | some s =>
      rw [hssl] at hc
      simpa only [Option.elim_some, writeLoop_buffered] using hc

/-- **Nothing hidden.** In every run of reads and writes in which each record
fits into the buffer of the read it is served to, and OpenSSL serves what it
has decrypted, no read leaves plaintext behind. Of a fresh record a read leaves
nothing just if the record fits. -/
theorem tls_reads (hserves : T.ServesPending) {c : TlsByteStream σ} (hc : buffered T c = [])
    (uses : List Use) :
    (Throughout (use T fuel) (Fits T) c uses → Throughout (use T fuel) (NothingHidden T) c uses) ∧
      ∀ cap b, (read T c cap).1 = .ok b → b ≠ [] →
        (buffered T (read T c cap).2 = [] ↔ (atHand T c).length ≤ cap) := by
  refine ⟨fun hfits => ?_, fun cap b hb hne => ?_⟩
  · induction uses generalizing c with
    | nil => trivial
    | cons u uses ih =>
      refine ⟨?_, fun c' hc' => ih (use_buffered hserves hc hfits.1 hc') (hfits.2 c' hc')⟩
      cases u with
      | read cap =>
        exact fun b hb hne => ⟨(read_buffered T hb hne).1 hserves hfits.1, read_plaintext T hb hne⟩
      | write data => trivial
  · obtain ⟨hempty, hfull⟩ := read_buffered T hb hne
    refine ⟨fun h => ?_, hempty hserves⟩
    by_contra hover
    exact hfull (Nat.lt_of_not_le hover) h

/-! ## A record larger than the buffer -/

/-- An OpenSSL session whose records have all arrived. -/
structure Arrived where
  buffered : Bytes
  incoming : List Bytes
  length : ∀ r ∈ incoming, 1 ≤ r.length ∧ r.length ≤ 16384

/-- It returns as much as fits. -/
def Arrived.read (s : Arrived) (cap : Nat) : Except SslError Bytes × Arrived :=
  if cap = 0 then (.error .other, s)
  else if s.buffered ≠ [] then (.ok (s.buffered.take cap), { s with buffered := s.buffered.drop cap })
  else
    match s with
    | ⟨_, [], h⟩ => (.error .WANT_READ, ⟨[], [], h⟩)
    | ⟨_, r :: rest, h⟩ =>
      (.ok (r.take cap), ⟨r.drop cap, rest, fun r' hr' => h r' (List.mem_cons_of_mem _ hr')⟩)

theorem Arrived.read_ok (s : Arrived) (cap : Nat) (b : Bytes) (h : (s.read cap).1 = .ok b) :
    1 ≤ b.length ∧ b.length ≤ cap ∧
      if s.buffered = [] then s.incoming = (b ++ (s.read cap).2.buffered) :: (s.read cap).2.incoming
      else s.buffered = b ++ (s.read cap).2.buffered ∧ (s.read cap).2.incoming = s.incoming := by
  obtain ⟨buffered, incoming, length⟩ := s
  unfold read at h ⊢
  split at h
  · cases h
  rename_i hcap
  rw [if_neg hcap]
  split at h
  · rename_i hfull
    obtain rfl := Except.ok.inj h
    have hpos : 0 < buffered.length := List.length_pos_of_ne_nil hfull
    have hne : buffered ≠ [] := hfull
    rw [if_pos hfull, if_neg hne]
    refine ⟨?_, List.length_take_le _ _, (List.take_append_drop _ _).symm, rfl⟩
    simp only [List.length_take]
    omega
  · rename_i hempty
    have hnil : buffered = [] := not_not.mp hempty
    rw [if_neg hempty, if_pos hnil]
    cases incoming with
    | nil => cases h
    | cons r rest =>
      obtain rfl := Except.ok.inj h
      have hlen := (length r List.mem_cons_self).1
      refine ⟨?_, List.length_take_le _ _, by rw [List.take_append_drop]⟩
      rw [List.length_take]
      omega

theorem Arrived.read_error (s : Arrived) (cap : Nat) (e : SslError) (h : (s.read cap).1 = .error e) :
    (s.read cap).2.buffered = s.buffered ∧ (s.read cap).2.incoming = s.incoming := by
  obtain ⟨buffered, incoming, length⟩ := s
  unfold read at h ⊢
  split at h
  · rename_i hcap
    rw [if_pos hcap]
    exact ⟨rfl, rfl⟩
  rename_i hcap
  rw [if_neg hcap]
  split at h
  · cases h
  · rename_i hempty
    have hnil : buffered = [] := not_not.mp hempty
    rw [if_neg hempty]
    cases incoming with
    | nil => exact ⟨hnil.symm, rfl⟩
    | cons r rest => cases h

/-- OpenSSL on a session whose records have all arrived. -/
def arrivedSsl : OpenSsl Arrived where
  accept s := (true, s)
  read := Arrived.read
  write s b := (if b = [] then .error .other else .ok b.length, s)
  shutdown s := s
  buffered := Arrived.buffered
  incoming := Arrived.incoming
  record_length := Arrived.length
  read_ok := Arrived.read_ok
  read_error := Arrived.read_error
  write_ok s b n h := by
    simp only at h
    split at h
    · cases h
    · rename_i hb
      obtain rfl := Except.ok.inj h
      exact ⟨List.length_pos_of_ne_nil hb, le_rfl⟩
  write_keeps _ _ := ⟨rfl, rfl⟩

theorem arrivedSsl_serves : arrivedSsl.ServesPending := by
  intro s cap hcap hpending
  have hfull : s.buffered ≠ [] := List.ne_nil_of_length_pos hpending
  refine ⟨s.buffered.take cap, ?_⟩
  simp only [arrivedSsl, Arrived.read]
  rw [if_neg (Nat.ne_of_gt hcap), if_pos hfull]

/-- A stream that one record has arrived on. -/
def oneRecord (n : Nat) (h : 1 ≤ n ∧ n ≤ 16384) : TlsByteStream Arrived :=
  ⟨some ⟨[], [List.replicate n 0], by simpa using h⟩, false⟩

theorem oneRecord_read (n : Nat) (h : 1 ≤ n ∧ n ≤ 16384) {cap : Nat} (hcap : cap ≠ 0) :
    ∃ b, (read arrivedSsl (oneRecord n h) cap).1 = .ok b ∧ b ≠ [] := by
  refine read_of_ssl arrivedSsl (b := (List.replicate n 0).take cap) rfl hcap ?_
  simp only [arrivedSsl, Arrived.read]
  rw [if_neg hcap]
  rfl

theorem oneRecord_atHand (n : Nat) (h : 1 ≤ n ∧ n ≤ 16384) :
    (atHand arrivedSsl (oneRecord n h)).length = n :=
  List.length_replicate

instance (c : TlsByteStream σ) (u : Use) : Decidable (Fits T c u) :=
  match u with
  | .read cap => inferInstanceAs (Decidable ((atHand T c).length ≤ cap))
  | .write _ => .isTrue trivial

/-- A record that fits is read as a whole. -/
theorem tls_reads_small :
    Throughout (use arrivedSsl 1) (NothingHidden arrivedSsl) (oneRecord 600 (by omega))
      [.write [1], .read 8192, .read 8192] :=
  (tls_reads arrivedSsl_serves rfl _).1 (by decide +kernel)

/-- **Stranded plaintext.** A record of 16384 bytes does not fit into the buffer
of a session. -/
theorem tls_strands :
    ¬ ∀ (c : TlsByteStream Arrived) (uses : List Use), buffered arrivedSsl c = [] →
      (∀ cap, .read cap ∈ uses → cap = 2048 ∨ cap = 8192) →
      Throughout (use arrivedSsl 1) (NothingHidden arrivedSsl) c uses := by
  intro hall
  have hrecord : 1 ≤ 16384 ∧ 16384 ≤ 16384 := by omega
  have h := (hall (oneRecord 16384 hrecord) [.read 8192] rfl (by simp)).1
  obtain ⟨b, hb, hne⟩ := oneRecord_read 16384 hrecord (show 8192 ≠ 0 by omega)
  have hover : 8192 < (atHand arrivedSsl (oneRecord 16384 hrecord)).length := by
    rw [oneRecord_atHand]
    omega
  exact (read_buffered arrivedSsl hb hne).2 hover (h b hb hne).1

end FaceTracking.TlsByteStream
