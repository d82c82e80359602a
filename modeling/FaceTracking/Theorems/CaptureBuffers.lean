import FaceTracking.Capture.V4L2Camera
import FaceTracking.Lib.Contract
import FaceTracking.Lib.Runs

/-!
# Capture buffers change hands in order

A V4L2 device hands out one descriptor, maps buffers for it and passes each
buffer back and forth: while it is queued the driver writes to it, and only
while it is dequeued may its memory be read. `CaptureDevice` follows that from the
calls and answers in a camera's trace, and the contract says which calls are in
order. The camera keeps it in every sequence of calls, whatever fails on the
way, and gives everything back when it is closed.
-/

namespace FaceTracking

open Lib V4L2Camera

/-! ## The device -/

/-- What a process holds of a capture device. -/
structure CaptureDevice where
  fd : Option Int32
  /-- The format as last set. -/
  format : Option PixFormat
  /-- The number of buffers granted. -/
  count : Nat
  /-- Index, length and offset from the last query. -/
  reported : Option (Nat × Nat × Nat)
  /-- The buffers that are mapped, by index. -/
  regions : List (Nat × MmapBuffer)
  /-- The buffers the driver writes to. -/
  queued : List Nat
  /-- The buffers handed out. -/
  held : List Nat
  streaming : Bool
deriving DecidableEq

namespace CaptureDevice

/-- Nothing is held. -/
def released : CaptureDevice := ⟨none, none, 0, none, [], [], [], false⟩

def next (d : CaptureDevice) : CaptureEvent → CaptureDevice
  | .openDevice fd => { d with fd := if fd < 0 then none else some fd }
  | .setFormat _ _ (some f) => { d with format := some f }
  | .requestBuffers _ _ (some n) => { d with count := n }
  | .queryBuffer _ i (some (length, offset)) => { d with reported := some (i, length, offset) }
  | .mmap _ length _ (some start) =>
    { d with regions := d.regions ++ (d.reported.map fun q => (q.1, ⟨start, length⟩)).toList }
  | .queue _ i true => { d with queued := d.queued ++ [i], held := d.held.erase i }
  | .streamOn _ true => { d with streaming := true }
  | .streamOff _ => { d with streaming := false, queued := [], held := [] }
  | .dequeue _ (some (i, _)) => { d with queued := d.queued.erase i, held := d.held ++ [i] }
  | .munmap start length => { d with regions := d.regions.eraseP fun r => r.2 = ⟨start, length⟩ }
  | .close _ => released
  | _ => d

/-- Is the request in order? -/
def Permitted (d : CaptureDevice) : CaptureEvent → Prop
  | .openDevice _ => d.fd = none
  | .queryCap fd _ | .setParm fd _ | .poll fd _ | .dequeue fd _ => d.fd = some fd
  -- not while buffers of another format are mapped
  | .setFormat fd _ _ | .requestBuffers fd _ _ => d.fd = some fd ∧ d.regions = []
  | .queryBuffer fd i _ => d.fd = some fd ∧ i < d.count
  | .mmap fd length offset _ =>
    d.fd = some fd ∧ ∃ i, d.reported = some (i, length, offset) ∧ i ∉ d.regions.map Prod.fst
  | .queue fd i _ => d.fd = some fd ∧ i ∈ d.regions.map Prod.fst ∧ i ∉ d.queued
  | .streamOn fd _ => d.fd = some fd ∧ d.streaming = false
  | .streamOff fd => d.fd = some fd ∧ d.streaming = true
  | .read start length => ∃ i r, (i, r) ∈ d.regions ∧ i ∈ d.held ∧ r.start ≤ start ∧
      start + length ≤ r.start + r.length
  | .munmap start length => ⟨start, length⟩ ∈ d.regions.map Prod.snd ∧ d.streaming = false
  | .close fd => d.fd = some fd ∧ d.regions = [] ∧ d.streaming = false

/-- Is that an answer of a V4L2 driver? A YUYV buffer holds the image, mapped
memory is not at the null pointer, and what is dequeued was queued and fits. -/
def Possible (d : CaptureDevice) : CaptureEvent → Prop
  | .queryBuffer _ _ (some (length, _)) => ∀ f ∈ d.format,
      f.pixelformat = V4L2_PIX_FMT_YUYV → 2 * f.height.toNat * f.width.toNat ≤ length
  | .mmap _ _ _ (some start) => start ≠ 0
  | .dequeue _ (some (i, bytesused)) => d.streaming = true ∧ i ∈ d.queued ∧
      ∀ r ∈ d.regions, r.1 = i → bytesused ≤ r.2.length
  | _ => True

def contract : Contract CaptureDevice CaptureEvent := ⟨next, Permitted, Possible⟩

instance Possible.decidable (d : CaptureDevice) (e : CaptureEvent) :
    Decidable (contract.Possible d e) := by
  change Decidable (Possible d e)
  unfold Possible
  split <;> infer_instance

end CaptureDevice

/-! ## The camera and its device -/

section

variable {κ : Type} (K : V4L2Kernel κ) (dec : FrameDecoders)

/-- The trace keeps the contract and leaves the device in `Q`. -/
def Keeps (c : V4L2Camera κ) (Q : CaptureDevice → Prop) : Prop :=
  CaptureDevice.contract.Kept Q .released c.trace

theorem Keeps.emit {c : V4L2Camera κ} {P Q : CaptureDevice → Prop} {k : κ} {e : CaptureEvent}
    (h : Keeps c P)
    (hemit : ∀ d, P d → CaptureDevice.Permitted d e ∧ (CaptureDevice.Possible d e → Q (d.next e))) :
    Keeps (c.emit k e) Q :=
  Contract.Kept.emit h hemit

theorem Keeps.mono {c : V4L2Camera κ} {P Q : CaptureDevice → Prop} (h : Keeps c P)
    (hPQ : ∀ d, P d → Q d) : Keeps c Q :=
  Contract.Kept.mono h hPQ

/-- Bytes of a packed YUYV image, as the camera computes them. -/
def yuyvBytes (c : V4L2Camera κ) : Nat := 2 * c.height.toInt.toNat * c.width.toInt.toNat

/-- The camera and the device between calls. -/
structure Linked (c : V4L2Camera κ) (d : CaptureDevice) : Prop where
  fd : d.fd = if c.fd < 0 then none else some c.fd
  streaming : d.streaming = c.streaming
  /-- Buffers are mapped from the front. -/
  buffers : ∃ n, c.buffers = d.regions.map Prod.snd ++ List.replicate n .null
  indices : d.regions.map Prod.fst = List.range d.regions.length
  mapped : ∀ r ∈ d.regions, r.2.start ≠ 0
  fits : ∀ r ∈ d.regions, c.pixelFormat ≠ V4L2_PIX_FMT_MJPEG → yuyvBytes c ≤ r.2.length
  nodup : d.queued.Nodup
  queued : ∀ i ∈ d.queued, i < d.regions.length
  apart : ∀ i ∈ d.held, i ∉ d.queued
  refused : ∀ i ∈ d.held, ∃ fd, .queue fd i false ∈ c.trace
  /-- No buffer is lost while the device streams. -/
  accounted : d.streaming = true → ∀ i < c.buffers.length, i ∈ d.queued ∨ i ∈ d.held
  closed : c.fd < 0 → d = .released ∧ c.buffers = []

/-- The device while the camera opens it: `k` of `n` buffers are mapped and `q`
of them are queued. -/
structure Opening (n k q : Nat) (c : V4L2Camera κ) (d : CaptureDevice) : Prop where
  fd : d.fd = some c.fd
  isOpen : ¬ c.fd < 0
  off : d.streaming = false
  idle : c.streaming = false
  buffers : c.buffers = d.regions.map Prod.snd ++ List.replicate (n - k) .null
  indices : d.regions.map Prod.fst = List.range k
  mapped : ∀ r ∈ d.regions, r.2.start ≠ 0
  fits : ∀ r ∈ d.regions, c.pixelFormat ≠ V4L2_PIX_FMT_MJPEG → yuyvBytes c ≤ r.2.length
  queued : d.queued = List.range q
  held : d.held = []

theorem Opening.length {n k q : Nat} {c : V4L2Camera κ} {d : CaptureDevice}
    (h : Opening n k q c d) :
    d.regions.length = k := by
  have := congrArg List.length h.indices
  simpa using this

theorem Opening.linked {n k q : Nat} {c : V4L2Camera κ} {d : CaptureDevice} (h : Opening n k q c d)
    (hq : q ≤ k) : Linked c d where
  fd := by rw [h.fd, if_neg h.isOpen]
  streaming := h.off.trans h.idle.symm
  buffers := ⟨_, h.buffers⟩
  indices := by rw [h.indices, h.length]
  mapped := h.mapped
  fits := h.fits
  nodup := h.queued ▸ List.nodup_range
  queued i hi := by
    rw [h.queued, List.mem_range] at hi
    rw [h.length]
    omega
  apart i hi := absurd hi (by rw [h.held]; exact List.not_mem_nil)
  refused i hi := absurd hi (by rw [h.held]; exact List.not_mem_nil)
  accounted hs := absurd hs (by rw [h.off]; exact Bool.false_ne_true)
  closed hfd := absurd hfd h.isOpen

/-- The format the device was left with is the camera's. -/
def Negotiated (c : V4L2Camera κ) (d : CaptureDevice) : Prop :=
  ∃ f, d.format = some f ∧ c.pixelFormat = f.pixelformat ∧ c.width = f.width.toInt32 ∧
    c.height = f.height.toInt32 ∧ f.pixelformat ∈ candidates

/-! ## Opening -/

/-- A step that is no business of the buffers gets no further and loses nothing.
-/
theorem Opening.congr {n k q : Nat} {c c' : V4L2Camera κ} {d d' : CaptureDevice}
    (h : Opening n k q c d) (hc : c'.fd = c.fd ∧ c'.streaming = c.streaming ∧
      c'.buffers = c.buffers) (hd : d'.fd = d.fd ∧ d'.streaming = d.streaming ∧
      d'.regions = d.regions ∧ d'.queued = d.queued ∧ d'.held = d.held)
    (hfits : d.regions = [] ∨
      c'.pixelFormat = c.pixelFormat ∧ c'.width = c.width ∧ c'.height = c.height) :
    Opening n k q c' d' := by
  obtain ⟨hfd, hs, hb⟩ := hc
  obtain ⟨hfd', hs', hr, hq, hh⟩ := hd
  refine ⟨by rw [hfd', hfd, h.fd], hfd ▸ h.isOpen, hs'.trans h.off, hs.trans h.idle,
    by rw [hb, hr, h.buffers], by rw [hr, h.indices], hr ▸ h.mapped, ?_, hq.trans h.queued,
    hh.trans h.held⟩
  rw [hr]
  rcases hfits with hnil | ⟨hp, hw, hh⟩
  · rw [hnil]
    exact nofun
  · unfold yuyvBytes
    rw [hp, hw, hh]
    exact h.fits

theorem Opening.regions_nil {n q : Nat} {c : V4L2Camera κ} {d : CaptureDevice}
    (h : Opening n 0 q c d) : d.regions = [] :=
  List.eq_nil_of_length_eq_zero h.length

theorem tryFormats_keeps (l : List UInt32) (hl : ∀ fmt ∈ l, fmt ∈ candidates) (c : V4L2Camera κ)
    (h : Keeps c (Opening 0 0 0 c)) :
    Keeps (tryFormats K l c).2 fun d => Opening 0 0 0 (tryFormats K l c).2 d ∧
      ((tryFormats K l c).1 = true → Negotiated (tryFormats K l c).2 d) := by
  induction l generalizing c with
  | nil => exact h.mono fun d hd => ⟨hd, nofun⟩
  | cons fmt l ih =>
    have ihl := fun c => ih (fun x hx => hl x (List.mem_cons_of_mem _ hx)) c
    let wanted : PixFormat := ⟨fmt, c.width.toUInt32, c.height.toUInt32⟩
    have hset : Keeps (c.emit (K.setFormat c.kernel wanted).2
        (.setFormat c.fd wanted (K.setFormat c.kernel wanted).1)) fun d => Opening 0 0 0 c d ∧
          ∀ f, (K.setFormat c.kernel wanted).1 = some f → d.format = some f := by
      refine h.emit fun d hd => ⟨⟨hd.fd, hd.regions_nil⟩, fun _ => ?_⟩
      cases (K.setFormat c.kernel wanted).1 with
      | none => exact ⟨hd, nofun⟩
      | some f =>
        refine ⟨hd.congr ⟨rfl, rfl, rfl⟩ ⟨rfl, rfl, rfl, rfl, rfl⟩ (.inl hd.regions_nil), ?_⟩
        intro g hg
        exact hg
    have hagain : Keeps (c.emit (K.setFormat c.kernel wanted).2
        (.setFormat c.fd wanted (K.setFormat c.kernel wanted).1)) (Opening 0 0 0 (c.emit
          (K.setFormat c.kernel wanted).2
          (.setFormat c.fd wanted (K.setFormat c.kernel wanted).1))) :=
      hset.mono fun d hd => hd.1.congr ⟨rfl, rfl, rfl⟩ ⟨rfl, rfl, rfl, rfl, rfl⟩
        (.inl hd.1.regions_nil)
    unfold tryFormats
    simp only
    cases hf : (K.setFormat c.kernel wanted).1 with
    | none =>
      rw [hf] at hagain
      exact ihl _ hagain
    | some f =>
      rw [hf] at hagain hset
      simp only
      split
      · exact ihl _ hagain
      · rename_i hfmt
        have hfmt : f.pixelformat = fmt := not_not.mp hfmt
        refine Keeps.emit (c := { c.emit _ _ with pixelFormat := _, width := _, height := _ })
          hset fun d hd => ⟨hd.1.fd, fun _ => ⟨?_, fun _ => ?_⟩⟩
        · exact hd.1.congr ⟨rfl, rfl, rfl⟩ ⟨rfl, rfl, rfl, rfl, rfl⟩ (.inl hd.1.regions_nil)
        · refine ⟨f, hd.2 f rfl, rfl, rfl, rfl, ?_⟩
          rw [hfmt]
          exact hl fmt List.mem_cons_self

/-- A YUYV buffer of the negotiated format holds the image. -/
theorem Negotiated.fits {c : V4L2Camera κ} {d : CaptureDevice} {fd : Int32} {i length offset : Nat}
    (h : Negotiated c d)
    (hp : CaptureDevice.Possible d (.queryBuffer fd i (some (length, offset))))
    (hfmt : c.pixelFormat ≠ V4L2_PIX_FMT_MJPEG) : yuyvBytes c ≤ length := by
  obtain ⟨f, hf, hpix, hw, hh, hmem⟩ := h
  have hyuyv : f.pixelformat = V4L2_PIX_FMT_YUYV := by
    rcases List.mem_cons.mp hmem with hmjpeg | hmem
    · exact absurd (hpix.trans hmjpeg) hfmt
    · exact List.mem_singleton.mp hmem
  -- an int that came from an unsigned is at most that, or negative
  have hle : ∀ x : UInt32, x.toInt32.toInt.toNat ≤ x.toNat := by
    intro x
    have := x.toNat_lt
    have hx : x.toInt32.toInt = x.toBitVec.toInt := rfl
    have hn : x.toBitVec.toNat = x.toNat := rfl
    rw [hx, BitVec.toInt_eq_toNat_cond, hn]
    split <;> omega
  have hlen : 2 * f.height.toNat * f.width.toNat ≤ length := hp f hf hyuyv
  unfold yuyvBytes
  rw [hw, hh]
  exact (Nat.mul_le_mul (Nat.mul_le_mul_left 2 (hle _)) (hle _)).trans hlen

/-- Mapping the next buffer gets one buffer further. -/
theorem Opening.map {n k : Nat} {c : V4L2Camera κ} {d : CaptureDevice} {kernel : κ}
    {start length offset : Nat} (h : Opening n k 0 c d) (hk : k < n)
    (hreported : d.reported = some (k, length, offset)) (hstart : start ≠ 0)
    (hfits : c.pixelFormat ≠ V4L2_PIX_FMT_MJPEG → yuyvBytes c ≤ length) (e : CaptureEvent) :
    Opening n (k + 1) 0 { c.emit kernel e with buffers := c.buffers.set k ⟨start, length⟩ }
      (d.next (.mmap c.fd length offset (some start))) := by
  have hregions : (d.next (.mmap c.fd length offset (some start))).regions =
      d.regions ++ [(k, ⟨start, length⟩)] := by
    show d.regions ++ (d.reported.map _).toList = _
    rw [hreported]
    rfl
  refine ⟨h.fd, h.isOpen, h.off, h.idle, ?_, ?_, ?_, ?_, h.queued, h.held⟩
  · rw [hregions]
    show c.buffers.set k _ = _
    have hlen : (d.regions.map Prod.snd).length = k := by rw [List.length_map, h.length]
    have hn : n - k = (n - (k + 1)) + 1 := by omega
    rw [h.buffers, List.set_append, if_neg (by omega), hlen, Nat.sub_self, hn,
      List.replicate_succ, List.set_cons_zero, List.map_append, List.append_assoc]
    rfl
  · rw [hregions, List.map_append, h.indices, List.range_succ]
    rfl
  · rw [hregions]
    intro r hr
    rcases List.mem_append.mp hr with hr | hr
    · exact h.mapped r hr
    · rw [List.mem_singleton.mp hr]
      exact hstart
  · rw [hregions]
    intro r hr
    rcases List.mem_append.mp hr with hr | hr
    · exact h.fits r hr
    · rw [List.mem_singleton.mp hr]
      exact hfits

/-- Asking for the next buffer moves none and, if answered, reports its region.
-/
theorem queryBuffer_keeps {n k : Nat} (hk : k < n) (c : V4L2Camera κ)
    (h : Keeps c fun d => Opening n k 0 c d ∧ Negotiated c d ∧ d.count = n) (kernel : κ)
    (answer : Option (Nat × Nat)) :
    Keeps (c.emit kernel (.queryBuffer c.fd k answer)) fun d =>
      (Opening n k 0 (c.emit kernel (.queryBuffer c.fd k answer)) d ∧ Negotiated c d ∧
        d.count = n) ∧ ∀ buf, answer = some buf → d.reported = some (k, buf) ∧
          (c.pixelFormat ≠ V4L2_PIX_FMT_MJPEG → yuyvBytes c ≤ buf.1) := by
  refine h.emit fun d hd => ⟨⟨hd.1.fd, by rw [hd.2.2]; exact hk⟩, fun hp => ?_⟩
  cases answer with
  | none =>
    exact ⟨⟨hd.1.congr ⟨rfl, rfl, rfl⟩ ⟨rfl, rfl, rfl, rfl, rfl⟩ (.inr ⟨rfl, rfl, rfl⟩), hd.2⟩,
      nofun⟩
  | some buf =>
    refine ⟨⟨hd.1.congr ⟨rfl, rfl, rfl⟩ ⟨rfl, rfl, rfl, rfl, rfl⟩ (.inr ⟨rfl, rfl, rfl⟩), hd.2⟩, ?_⟩
    intro buf' hbuf
    cases hbuf
    exact ⟨rfl, hd.2.1.fits hp⟩

/-- **The mapping loop.** However far it gets, the buffers in front are mapped. -/
theorem mapBuffers_keeps (m : Nat) {k n : Nat} (hn : k + m = n) (c : V4L2Camera κ)
    (h : Keeps c fun d => Opening n k 0 c d ∧ Negotiated c d ∧ d.count = n) :
    Keeps (mapBuffers K (List.range' k m) c).2 fun d =>
      ∃ j, Opening n j 0 (mapBuffers K (List.range' k m) c).2 d ∧
        ((mapBuffers K (List.range' k m) c).1 = true → j = n) := by
  induction m generalizing k c with
  | zero => exact h.mono fun d hd => ⟨k, hd.1, fun _ => hn⟩
  | succ m ih =>
    have hquery := queryBuffer_keeps (by omega) c h (K.queryBuffer c.kernel k).2
      (K.queryBuffer c.kernel k).1
    rw [List.range'_succ]
    unfold mapBuffers
    simp only
    cases hq : (K.queryBuffer c.kernel k).1 with
    | none =>
      rw [hq] at hquery
      exact hquery.mono fun d hd => ⟨k, hd.1.1, nofun⟩
    | some buf =>
      rw [hq] at hquery
      simp only
      generalize hc : c.emit (K.queryBuffer c.kernel k).2 (.queryBuffer c.fd k (some buf)) = c₁
        at hquery ⊢
      have hsame : ∀ d, Negotiated c d → Negotiated c₁ d := by
        rw [← hc]
        exact fun d hd => hd
      have hfits : (c.pixelFormat ≠ V4L2_PIX_FMT_MJPEG → yuyvBytes c ≤ buf.1) →
          c₁.pixelFormat ≠ V4L2_PIX_FMT_MJPEG → yuyvBytes c₁ ≤ buf.1 := by
        rw [← hc]
        exact fun h => h
      have hpermit : ∀ d, Opening n k 0 c₁ d → d.reported = some (k, buf) → ∀ answer,
          CaptureDevice.Permitted d (.mmap c₁.fd buf.1 buf.2 answer) := by
        intro d hd hreported answer
        refine ⟨hd.fd, k, hreported, ?_⟩
        rw [hd.indices, List.mem_range]
        omega
      cases hp : (K.mmap c₁.kernel buf.1 buf.2).1 with
      | none =>
        refine hquery.emit fun d hd => ⟨hpermit d hd.1.1 (hd.2 buf rfl).1 _, fun _ => ?_⟩
        exact ⟨k, hd.1.1.congr ⟨rfl, rfl, rfl⟩ ⟨rfl, rfl, rfl, rfl, rfl⟩ (.inr ⟨rfl, rfl, rfl⟩),
          nofun⟩
      | some start =>
        refine ih (by omega) _ ?_
        refine Keeps.emit (c := c₁) (k := c₁.kernel) hquery fun d hd =>
          ⟨hpermit d hd.1.1 (hd.2 buf rfl).1 _, fun hstart => ?_⟩
        exact ⟨hd.1.1.map (by omega) (hd.2 buf rfl).1 hstart (hfits (hd.2 buf rfl).2) _,
          hsame d hd.1.2.1, hd.1.2.2⟩

theorem initBuffers_keeps (c : V4L2Camera κ)
    (h : Keeps c fun d => Opening 0 0 0 c d ∧ Negotiated c d) :
    Keeps (initBuffers K c).2 fun d => ∃ n j, Opening n j 0 (initBuffers K c).2 d ∧
      ((initBuffers K c).1 = true → j = n) := by
  have hrequest : Keeps (c.emit (K.requestBuffers c.kernel 4).2
      (.requestBuffers c.fd 4 (K.requestBuffers c.kernel 4).1)) fun d =>
        (Opening 0 0 0 c d ∧ Negotiated c d) ∧
        ∀ n, (K.requestBuffers c.kernel 4).1 = some n → d.count = n := by
    refine h.emit fun d hd => ⟨⟨hd.1.fd, hd.1.regions_nil⟩, fun _ => ?_⟩
    cases (K.requestBuffers c.kernel 4).1 with
    | none => exact ⟨hd, nofun⟩
    | some n =>
      refine ⟨⟨hd.1.congr ⟨rfl, rfl, rfl⟩ ⟨rfl, rfl, rfl, rfl, rfl⟩ (.inr ⟨rfl, rfl, rfl⟩),
        hd.2⟩, ?_⟩
      intro n' hn
      cases hn
      rfl
  have hfail : ∀ answer, Keeps (c.emit (K.requestBuffers c.kernel 4).2
      (.requestBuffers c.fd 4 answer)) (fun d => (Opening 0 0 0 c d ∧ Negotiated c d) ∧
        ∀ n, answer = some n → d.count = n) → Keeps (c.emit (K.requestBuffers c.kernel 4).2
      (.requestBuffers c.fd 4 answer)) fun d => ∃ n j, Opening n j 0 (c.emit
        (K.requestBuffers c.kernel 4).2 (.requestBuffers c.fd 4 answer)) d ∧
        (false = true → j = n) := by
    intro answer h
    exact h.mono fun d hd => ⟨0, 0, hd.1.1.congr ⟨rfl, rfl, rfl⟩ ⟨rfl, rfl, rfl, rfl, rfl⟩
      (.inr ⟨rfl, rfl, rfl⟩), nofun⟩
  unfold initBuffers
  simp only
  cases hn : (K.requestBuffers c.kernel 4).1 with
  | none =>
    rw [hn] at hrequest
    exact hfail _ hrequest
  | some n =>
    rw [hn] at hrequest
    simp only
    split
    · exact hfail _ hrequest
    · rw [List.range_eq_range']
      refine (mapBuffers_keeps K n (Nat.zero_add n) _ ?_).mono fun d hd => ⟨n, hd⟩
      refine Keeps.mono (c := c.emit _ _) hrequest fun d hd => ⟨?_, hd.1.2, hd.2 n rfl⟩
      have hnil := hd.1.1.regions_nil
      refine ⟨hd.1.1.fd, hd.1.1.isOpen, hd.1.1.off, hd.1.1.idle, ?_, hd.1.1.indices,
        hd.1.1.mapped, hd.1.1.fits, hd.1.1.queued, hd.1.1.held⟩
      rw [hnil]
      rfl

/-! ## Streaming -/

theorem queueBuffers_keeps (m : Nat) {q n : Nat} (hn : q + m = n) (c : V4L2Camera κ)
    (h : Keeps c (Opening n n q c)) :
    Keeps (queueBuffers K (List.range' q m) c).2 fun d =>
      ∃ j ≤ n, Opening n n j (queueBuffers K (List.range' q m) c).2 d ∧
        ((queueBuffers K (List.range' q m) c).1 = true → j = n) := by
  induction m generalizing q c with
  | zero => exact h.mono fun d hd => ⟨q, by omega, hd, fun _ => hn⟩
  | succ m ih =>
    have hpermit : ∀ d, Opening n n q c d → ∀ ok, CaptureDevice.Permitted d (.queue c.fd q ok) := by
      intro d hd ok
      refine ⟨hd.fd, ?_, ?_⟩
      · rw [hd.indices, List.mem_range]
        omega
      · rw [hd.queued, List.mem_range]
        omega
    rw [List.range'_succ]
    unfold queueBuffers
    simp only
    cases (K.queue c.kernel q).1 with
    | false =>
      refine h.emit fun d hd => ⟨hpermit d hd _, fun _ => ⟨q, by omega, ?_, nofun⟩⟩
      exact hd.congr ⟨rfl, rfl, rfl⟩ ⟨rfl, rfl, rfl, rfl, rfl⟩ (.inr ⟨rfl, rfl, rfl⟩)
    | true =>
      refine ih (by omega) _ (h.emit fun d hd => ⟨hpermit d hd _, fun _ => ?_⟩)
      refine ⟨hd.fd, hd.isOpen, hd.off, hd.idle, hd.buffers, hd.indices, hd.mapped, hd.fits, ?_, ?_⟩
      · show d.queued ++ [q] = _
        rw [hd.queued, List.range_succ]
      · show d.held.erase q = []
        rw [hd.held]
        rfl

theorem startStreaming_keeps (c : V4L2Camera κ) (h : Keeps c fun d => ∃ n, Opening n n 0 c d) :
    Keeps (startStreaming K c).2 (Linked (startStreaming K c).2) := by
  have hall : Keeps c (Opening c.buffers.length c.buffers.length 0 c) := by
    refine h.mono fun d hd => ?_
    obtain ⟨n, hd⟩ := hd
    have hlen : c.buffers.length = n := by
      rw [hd.buffers, List.length_append, List.length_map, hd.length, Nat.sub_self]
      rfl
    rwa [hlen]
  have hqueue := queueBuffers_keeps K c.buffers.length (Nat.zero_add _) c hall
  unfold startStreaming
  rw [List.range_eq_range']
  generalize c.buffers.length = n at hqueue ⊢
  generalize queueBuffers K (List.range' 0 n) c = r at hqueue ⊢
  simp only
  split
  · rename_i hok
    have hpermit : ∀ d, (∃ j ≤ n, Opening n n j r.2 d ∧ (r.1 = true → j = n)) → ∀ ok,
        CaptureDevice.Permitted d (.streamOn r.2.fd ok) := by
      rintro d ⟨j, -, hd, -⟩ ok
      exact ⟨hd.fd, hd.off⟩
    cases (K.streamOn r.2.kernel).1 with
    | false =>
      refine hqueue.emit fun d hd => ⟨hpermit d hd _, fun _ => ?_⟩
      obtain ⟨j, hj, hd, -⟩ := hd
      refine Opening.linked (n := n) (q := j) ?_ hj
      exact hd.congr ⟨rfl, rfl, rfl⟩ ⟨rfl, rfl, rfl, rfl, rfl⟩ (.inr ⟨rfl, rfl, rfl⟩)
    | true =>
      refine Keeps.emit (c := r.2) (k := r.2.kernel) hqueue fun d hd => ⟨hpermit d hd _, fun _ => ?_⟩
      obtain ⟨j, hj, hd, hall⟩ := hd
      obtain rfl := hall hok
      have hl := hd.linked hj
      have hlen : r.2.buffers.length = j := by
        rw [hd.buffers, List.length_append, List.length_map, hd.length, Nat.sub_self]
        rfl
      refine ⟨hl.fd, rfl, hl.buffers, hl.indices, hl.mapped, hl.fits, hl.nodup, hl.queued,
        hl.apart, ?_, fun _ i hi => .inl ?_, fun hfd => absurd hfd hd.isOpen⟩
      · intro i hi
        exact absurd hi (by show i ∉ d.held; rw [hd.held]; exact List.not_mem_nil)
      · show i ∈ d.queued
        rw [hd.queued, List.mem_range, ← hlen]
        exact hi
  · exact hqueue.mono fun d hd => by
      obtain ⟨j, hj, hd, -⟩ := hd
      exact hd.linked hj

theorem initDevice_keeps (c : V4L2Camera κ) (h : Keeps c (Opening 0 0 0 c)) :
    Keeps (initDevice K c).2 (Linked (initDevice K c).2) := by
  have hformat := tryFormats_keeps K candidates (fun _ h => h) c h
  unfold initDevice
  simp only
  split
  · rename_i hf
    have hbuffers := initBuffers_keeps K (initFormat K c).2
      (hformat.mono fun d hd => ⟨hd.1, hd.2 hf⟩)
    split
    · rename_i hb
      refine startStreaming_keeps K _ (hbuffers.mono fun d hd => ?_)
      obtain ⟨n, j, hd, hall⟩ := hd
      obtain rfl := hall hb
      exact ⟨j, hd⟩
    · exact hbuffers.mono fun d ⟨n, j, hd, _⟩ => hd.linked (Nat.zero_le j)
  · exact hformat.mono fun d hd => hd.1.linked (Nat.le_refl 0)

theorem openCamera_keeps (c : V4L2Camera κ) (hclosed : c.fd < 0) (h : Keeps c (Linked c)) :
    Keeps (openCamera K c).2 (Linked (openCamera K c).2) := by
  have hopen : ∀ fd k, Keeps ({ c with fd }.emit k (.openDevice fd)) fun d =>
      c.streaming = false ∧ c.buffers = [] ∧
        d = { CaptureDevice.released with fd := if fd < 0 then none else some fd } := by
    intro fd k
    refine Keeps.emit (c := { c with fd }) h fun d hd => ?_
    obtain ⟨rfl, hnil⟩ := hd.closed hclosed
    exact ⟨rfl, fun _ => ⟨hd.streaming.symm, hnil, rfl⟩⟩
  unfold openCamera
  simp only
  have hopen := hopen (K.openDevice c.kernel).1 (K.openDevice c.kernel).2
  split
  · rename_i hneg
    refine hopen.mono fun d ⟨hidle, hnil, hd⟩ => ?_
    subst hd
    exact ⟨rfl, hidle.symm, ⟨0, hnil⟩, rfl, nofun, nofun, .nil, nofun, nofun, nofun,
      nofun, fun _ => ⟨congrArg (fun fd => { CaptureDevice.released with fd }) (if_pos hneg), hnil⟩⟩
  · rename_i hneg
    have hfresh : ∀ fd k k' answer, ¬ fd < 0 →
        Keeps ({ c with fd }.emit k (.openDevice fd)) (fun d => c.streaming = false ∧
          c.buffers = [] ∧
            d = { CaptureDevice.released with fd := if fd < 0 then none else some fd }) →
        Keeps (({ c with fd }.emit k (.openDevice fd)).emit k' (.queryCap fd answer))
          (Opening 0 0 0 (({ c with fd }.emit k (.openDevice fd)).emit k'
            (.queryCap fd answer))) := by
      intro fd k k' answer hneg h
      refine h.emit fun d ⟨hidle, hnil, hd⟩ => ?_
      rw [if_neg hneg] at hd
      subst hd
      exact ⟨rfl, fun _ => ⟨rfl, hneg, rfl, hidle, hnil, rfl, nofun, nofun, rfl, rfl⟩⟩
    have hfresh := fun k' answer => hfresh _ _ k' answer hneg hopen
    split
    · exact (hfresh _ _).mono fun d hd => hd.linked (Nat.le_refl 0)
    · split
      · exact initDevice_keeps K _ (hfresh _ _)
      · exact (hfresh _ _).mono fun d hd => hd.linked (Nat.le_refl 0)

/-! ## Grabbing -/

/-- A call that moves no buffer keeps camera and device linked. -/
theorem Linked.call {c : V4L2Camera κ} {d : CaptureDevice} (h : Linked c d) (k : κ)
    (e : CaptureEvent) :
    Linked (c.emit k e) d :=
  ⟨h.fd, h.streaming, h.buffers, h.indices, h.mapped, h.fits, h.nodup, h.queued, h.apart,
    fun i hi => (h.refused i hi).imp fun _ hfd => List.mem_append_left _ hfd, h.accounted, h.closed⟩

/-- The region of a buffer is the one the camera has noted. -/
theorem Linked.region {c : V4L2Camera κ} {d : CaptureDevice} (h : Linked c d) {i : Nat}
    (hi : i < d.regions.length) :
    (i, c.buffers.getD i .null) ∈ d.regions := by
  obtain ⟨n, hb⟩ := h.buffers
  have hfst : (d.regions[i]).1 = i := by
    have := congrArg (fun l => l[i]?) h.indices
    simpa [hi] using this
  have hsnd : c.buffers.getD i .null = (d.regions[i]).2 := by
    rw [hb, List.getD_append _ _ _ _ (by simpa using hi)]
    simp [hi]
  rw [hsnd]
  have hmem := List.getElem_mem hi
  rwa [show d.regions[i] = (i, (d.regions[i]).2) from Prod.ext hfst rfl] at hmem

/-- Buffer `i` has been handed out, with `bytesused` bytes in it. -/
def Handed (i bytesused : Nat) (c : V4L2Camera κ) (d : CaptureDevice) : Prop :=
  ∃ d', Linked c d' ∧ ¬ c.fd < 0 ∧ CaptureDevice.Possible d' (.dequeue c.fd (some (i, bytesused))) ∧
    d = d'.next (.dequeue c.fd (some (i, bytesused)))

/-- A buffer that was queued is not held. -/
theorem Linked.erase_held {c : V4L2Camera κ} {d : CaptureDevice} (h : Linked c d) {i : Nat}
    (hi : i ∈ d.queued) : (d.held ++ [i]).erase i = d.held := by
  have hfresh : i ∉ d.held := fun hheld => h.apart i hheld hi
  rw [List.erase_append_right _ hfresh, List.erase_cons_head, List.append_nil]

/-- The driver takes the buffer back. -/
theorem Linked.requeued {c : V4L2Camera κ} {d : CaptureDevice} (h : Linked c d) (hopen : ¬ c.fd < 0)
    {i bytesused : Nat} (hi : i ∈ d.queued) (k : κ) :
    Linked (c.emit k (.queue c.fd i true))
      ((d.next (.dequeue c.fd (some (i, bytesused)))).next (.queue c.fd i true)) := by
  have hheld : ((d.next (.dequeue c.fd (some (i, bytesused)))).next (.queue c.fd i true)).held =
      d.held := h.erase_held hi
  have hqueued : ∀ x, x ∈ d.queued.erase i ++ [i] ↔ x ∈ d.queued := by
    intro x
    rw [List.mem_append, List.mem_singleton, h.nodup.mem_erase_iff]
    grind
  refine ⟨h.fd, h.streaming, h.buffers, h.indices, h.mapped, h.fits, ?_,
    fun x hx => h.queued x ((hqueued x).mp hx), ?_, ?_, ?_, fun hfd => absurd hfd hopen⟩
  · show (d.queued.erase i ++ [i]).Nodup
    exact (h.nodup.erase i).append (List.nodup_singleton i)
      (List.disjoint_singleton.mpr h.nodup.not_mem_erase)
  · rw [hheld]
    exact fun x hx hmem => h.apart x hx ((hqueued x).mp hmem)
  · rw [hheld]
    exact fun x hx => (h.refused x hx).imp fun _ hfd => List.mem_append_left _ hfd
  · rw [hheld]
    exact fun hs x hx => (h.accounted hs x hx).imp_left (hqueued x).mpr

/-- The driver refuses to take the buffer back. -/
theorem Linked.withheld {c : V4L2Camera κ} {d : CaptureDevice} (h : Linked c d) (hopen : ¬ c.fd < 0)
    {i bytesused : Nat} (k : κ) :
    Linked (c.emit k (.queue c.fd i false)) (d.next (.dequeue c.fd (some (i, bytesused)))) := by
  have hqueued : ∀ x, x ∈ d.queued.erase i ↔ x ≠ i ∧ x ∈ d.queued :=
    fun x => h.nodup.mem_erase_iff
  refine ⟨h.fd, h.streaming, h.buffers, h.indices, h.mapped, h.fits, h.nodup.erase i,
    fun x hx => h.queued x ((hqueued x).mp hx).2, ?_, ?_, ?_, fun hfd => absurd hfd hopen⟩
  · show ∀ x ∈ d.held ++ [i], x ∉ d.queued.erase i
    intro x hx hmem
    rw [hqueued] at hmem
    rcases List.mem_append.mp hx with hx | hx
    · exact h.apart x hx hmem.2
    · exact hmem.1 (List.mem_singleton.mp hx)
  · show ∀ x ∈ d.held ++ [i], ∃ fd, _ ∈ c.trace ++ _
    intro x hx
    rcases List.mem_append.mp hx with hx | hx
    · exact (h.refused x hx).imp fun _ hfd => List.mem_append_left _ hfd
    · rw [List.mem_singleton.mp hx]
      exact ⟨c.fd, List.mem_append_right _ (List.mem_singleton.mpr rfl)⟩
  · show d.streaming = true → ∀ x < c.buffers.length, x ∈ d.queued.erase i ∨ x ∈ d.held ++ [i]
    intro hs x hx
    by_cases hxi : x = i
    · exact .inr (List.mem_append_right _ (List.mem_singleton.mpr hxi))
    · exact (h.accounted hs x hx).imp (fun hx => (hqueued x).mpr ⟨hxi, hx⟩)
        fun hx => List.mem_append_left _ hx

/-- The front of the buffer that was handed out may be read. -/
theorem Handed.read {i bytesused n : Nat} {c : V4L2Camera κ} (h : Keeps c (Handed i bytesused c))
    (hn : ∀ r : MmapBuffer, bytesused ≤ r.length →
      (c.pixelFormat ≠ V4L2_PIX_FMT_MJPEG → yuyvBytes c ≤ r.length) → n ≤ r.length) (k : κ) :
    Keeps (c.emit k (.read (c.buffers.getD i .null).start n))
      (Handed i bytesused (c.emit k (.read (c.buffers.getD i .null).start n))) := by
  refine h.emit fun d hd => ?_
  obtain ⟨d', hl, hopen, hp, rfl⟩ := hd
  have hregion := hl.region (hl.queued i hp.2.1)
  refine ⟨?_, fun _ => ⟨d', hl.call k _, hopen, hp, rfl⟩⟩
  refine ⟨i, c.buffers.getD i .null, hregion, ?_, Nat.le_refl _, ?_⟩
  · exact List.mem_append_right _ (List.mem_singleton.mpr rfl)
  · exact Nat.add_le_add_left (hn _ (hp.2.2 _ hregion rfl) (hl.fits _ hregion)) _

/-- **Decoding** reads the buffer that was handed out, and no further. -/
theorem decode_keeps {c : V4L2Camera κ} {i bytesused : Nat}
    (h : Keeps c (Handed i bytesused c)) :
    Keeps (decode K dec c (c.buffers.getD i .null).start bytesused).2
      (Handed i bytesused (decode K dec c (c.buffers.getD i .null).start bytesused).2) := by
  unfold decode
  split
  · exact Handed.read h (fun _ hle _ => hle) c.kernel
  · rename_i hfmt
    exact Handed.read h (fun _ _ hle => hle hfmt) c.kernel

/-- Giving the buffer back links camera and device again. -/
theorem Handed.queue {i bytesused : Nat} {c : V4L2Camera κ} (h : Keeps c (Handed i bytesused c))
    (k : κ) (ok : Bool) :
    Keeps (c.emit k (.queue c.fd i ok)) (Linked (c.emit k (.queue c.fd i ok))) := by
  refine h.emit fun d hd => ?_
  obtain ⟨d', hl, hopen, hp, rfl⟩ := hd
  have hi := hl.queued i hp.2.1
  refine ⟨⟨by rw [CaptureDevice.next, hl.fd, if_neg hopen], ?_, hl.nodup.not_mem_erase⟩, fun _ => ?_⟩
  · show i ∈ d'.regions.map Prod.fst
    rw [hl.indices, List.mem_range]
    exact hi
  · cases ok with
    | false =>
      have hkept : Linked _ (d'.next (.dequeue c.fd (some (i, bytesused)))) := hl.withheld hopen k
      exact hkept
    | true => exact hl.requeued hopen hp.2.1 k

theorem grab_keeps (c : V4L2Camera κ) (h : Keeps c (Linked c)) :
    Keeps (grab K dec c).2 (Linked (grab K dec c).2) := by
  unfold grab
  split
  · exact h
  · rename_i hopen
    have hfd : ∀ d, Linked c d → d.fd = some c.fd := fun d hd => by rw [hd.fd, if_neg hopen]
    have hpoll : ∀ k answer, Keeps (c.emit k (.poll c.fd answer))
        (Linked (c.emit k (.poll c.fd answer))) :=
      fun k answer => h.emit fun d hd => ⟨hfd d hd, fun _ => hd.call k _⟩
    simp only
    split
    · exact hpoll _ _
    · generalize hc : c.emit (K.poll c.kernel).2 (.poll c.fd (K.poll c.kernel).1) = c₁
      have hpoll := hpoll (K.poll c.kernel).2 (K.poll c.kernel).1
      rw [hc] at hpoll
      have hopen₁ : ¬ c₁.fd < 0 := by
        rw [← hc]
        exact hopen
      have hfd₁ : ∀ d, Linked c₁ d → d.fd = some c₁.fd := fun d hd => by rw [hd.fd, if_neg hopen₁]
      cases hd : (K.dequeue c₁.kernel).1 with
      | none => exact hpoll.emit fun d hd => ⟨hfd₁ d hd, fun _ => hd.call _ _⟩
      | some buf =>
        have hhanded : Keeps (c₁.emit (K.dequeue c₁.kernel).2 (.dequeue c₁.fd (some buf)))
            (Handed buf.1 buf.2
              (c₁.emit (K.dequeue c₁.kernel).2 (.dequeue c₁.fd (some buf)))) :=
          hpoll.emit fun d hd => ⟨hfd₁ d hd, fun hp => ⟨d, hd.call _ _, hopen₁, hp, rfl⟩⟩
        exact Handed.queue (decode_keeps K dec hhanded) _ _

/-! ## Closing -/

/-- The device while the camera closes it: `l` is still to be unmapped. -/
structure Closing (l : List MmapBuffer) (c : V4L2Camera κ) (d : CaptureDevice) : Prop where
  fd : d.fd = if c.fd < 0 then none else some c.fd
  off : d.streaming = false
  regions : d.regions.map Prod.snd = l.filter (·.start ≠ 0)
  closed : c.fd < 0 → d = .released

theorem stopStreaming_keeps (c : V4L2Camera κ) (h : Keeps c (Linked c)) :
    Keeps (stopStreaming K c) (Closing c.buffers (stopStreaming K c)) := by
  have hregions : ∀ d, Linked c d → d.regions.map Prod.snd = c.buffers.filter (·.start ≠ 0) := by
    intro d hd
    obtain ⟨n, hb⟩ := hd.buffers
    rw [hb, List.filter_append, List.filter_replicate_of_neg (by simp [MmapBuffer.null]),
      List.append_nil, List.filter_eq_self.mpr]
    intro b hb
    obtain ⟨r, hr, rfl⟩ := List.mem_map.mp hb
    exact decide_eq_true (hd.mapped r hr)
  unfold stopStreaming
  split
  · rename_i hs
    refine Keeps.emit (c := c) (k := K.streamOff c.kernel) h fun d hd => ?_
    have hopen : ¬ c.fd < 0 := by
      intro hneg
      have hoff := hd.streaming
      rw [(hd.closed hneg).1, hs] at hoff
      cases hoff
    refine ⟨⟨by rw [hd.fd, if_neg hopen], hd.streaming.trans hs⟩, fun _ => ?_⟩
    exact ⟨hd.fd, rfl, hregions d hd, fun hneg => absurd hneg hopen⟩
  · rename_i hs
    have hs : c.streaming = false := by simpa using hs
    exact h.mono fun d hd => ⟨hd.fd, hd.streaming.trans hs, hregions d hd,
      fun hneg => (hd.closed hneg).1⟩

/-- **The unmapping loop** unmaps what is mapped, and only that. -/
theorem unmapBuffers_keeps (l : List MmapBuffer) (c : V4L2Camera κ) (h : Keeps c (Closing l c)) :
    Keeps (unmapBuffers K l c) (Closing [] (unmapBuffers K l c)) := by
  induction l generalizing c with
  | nil => exact h
  | cons b l ih =>
    unfold unmapBuffers
    split
    · rename_i hnull
      refine ih c (h.mono fun d hd => ⟨hd.fd, hd.off, ?_, hd.closed⟩)
      rw [hd.regions, List.filter_cons_of_neg (by simpa using hnull)]
    · rename_i hmapped
      refine ih _ (h.emit fun d hd => ?_)
      have hl := hd.regions
      rw [List.filter_cons_of_pos (by simpa using hmapped)] at hl
      obtain ⟨r, rs, hr, hrb, hrs⟩ := List.map_eq_cons_iff.mp hl
      have hnext : (d.next (.munmap b.start b.length)).regions = rs := by
        show d.regions.eraseP _ = rs
        rw [hr, List.eraseP_cons_of_pos (by simpa using hrb)]
      refine ⟨⟨?_, hd.off⟩, fun _ => ⟨hd.fd, hd.off, by rw [hnext, hrs], fun hneg => ?_⟩⟩
      · rw [hl]
        exact List.mem_cons_self
      · -- a closed camera has nothing to unmap
        rw [hd.closed hneg] at hr
        cases hr

theorem unmapBuffers_eq (l : List MmapBuffer) (c : V4L2Camera κ) :
    (unmapBuffers K l c).fd = c.fd ∧ (unmapBuffers K l c).streaming = c.streaming := by
  induction l generalizing c with
  | nil => exact ⟨rfl, rfl⟩
  | cons b l ih =>
    unfold unmapBuffers
    split
    · exact ih c
    · exact ih _

theorem Linked.released {c : V4L2Camera κ} (hfd : c.fd < 0) (hs : c.streaming = false)
    (hb : c.buffers = []) : Linked c .released :=
  ⟨(if_pos hfd).symm, hs.symm, ⟨0, hb⟩, rfl, nofun, nofun, .nil, nofun, nofun, nofun, nofun,
    fun _ => ⟨rfl, hb⟩⟩

theorem closeCamera_keeps (c : V4L2Camera κ) (h : Keeps c (Linked c)) :
    (closeCamera K c).fd < 0 ∧ Keeps (closeCamera K c) (Linked (closeCamera K c)) := by
  have hidle : (stopStreaming K c).streaming = false ∧ (stopStreaming K c).buffers = c.buffers := by
    unfold stopStreaming
    split
    · exact ⟨rfl, rfl⟩
    · rename_i hs
      exact ⟨by simpa using hs, rfl⟩
  have hunmap := unmapBuffers_keeps K c.buffers _ (stopStreaming_keeps K c h)
  obtain ⟨hfd, hs⟩ := unmapBuffers_eq K c.buffers (stopStreaming K c)
  rw [hidle.1] at hs
  unfold closeCamera
  simp only [hidle.2]
  split
  · rename_i hneg
    exact ⟨hneg, hunmap.mono fun d hd => hd.closed hneg ▸ .released hneg hs rfl⟩
  · rename_i hopen
    refine ⟨show (-1 : Int32) < 0 by decide, ?_⟩
    refine Keeps.emit (c := unmapBuffers K c.buffers (stopStreaming K c)) (k := c.kernel) hunmap
      fun d hd => ⟨⟨?_, ?_, hd.off⟩, fun _ => .released (show (-1 : Int32) < 0 by decide) hs rfl⟩
    · exact hd.fd.trans (if_neg hopen)
    · exact List.map_eq_nil_iff.mp hd.regions

/-! ## Runs -/

/-- `open` is called on a closed camera only. -/
def OpensClosed (c : V4L2Camera κ) (l : List Call) : Prop :=
  Throughout (fun c a => some (call K dec c a)) (fun c a => a = .openCamera → c.fd < 0) c l

theorem call_keeps {c : V4L2Camera κ} {a : Call} (h : Keeps c (Linked c))
    (ha : a = .openCamera → c.fd < 0) :
    Keeps (call K dec c a) (Linked (call K dec c a)) := by
  cases a with
  | openCamera => exact openCamera_keeps K c (ha rfl) h
  | grab => exact grab_keeps K dec c h
  | close => exact (closeCamera_keeps K c h).2

theorem calls_keeps {c : V4L2Camera κ} {l : List Call} (h : Keeps c (Linked c))
    (hl : OpensClosed K dec c l) : Keeps (calls K dec c l) (Linked (calls K dec c l)) := by
  induction l generalizing c with
  | nil => exact h
  | cons a l ih => exact ih (call_keeps K dec h hl.1) (hl.2 _ rfl)

end

/-! ## A camera at work -/

/-- A device that refuses MJPEG and grants two buffers of four bytes; its state
is the buffers that are queued. -/
def webcam : V4L2Kernel (List Nat) where
  openDevice q := (3, q)
  queryCap q := (some 0x04000001, q)
  setFormat q wanted :=
    (if wanted.pixelformat = V4L2_PIX_FMT_YUYV then some ⟨V4L2_PIX_FMT_YUYV, 2, 1⟩ else none, q)
  setParm q _ := q
  requestBuffers q _ := (some 2, q)
  queryBuffer q i := (some (4, 4096 * i), q)
  mmap q _ offset := (some (65536 + offset), q)
  queue q i := (true, q ++ [i])
  streamOn q := (true, q)
  streamOff _ := []
  poll q := (1, q)
  dequeue q := (q.head?.map fun i => (i, 4), q.tail)
  munmap q _ _ := q
  close _ := []
  contents _ _ n := List.replicate n 0

/-- An image is its packed pixels. -/
def plainDecoders : FrameDecoders := ⟨id, fun _ _ b => b⟩

end FaceTracking
