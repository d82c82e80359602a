import FaceTracking.Net.VideoStream
import Mathlib.Data.List.Nodup

/-!
# Fresh frames

The hub holds the last of the published frames, which are numbered from 0
(`Fresh`). What a session has sent is a subsequence of what was published, and
its counter is the number of the last frame in it, or the marker it started
with (`Streamed`). Numbers do not come round below 2^32 - 1 frames, so the
counter tells a new frame from the last one, and a frame a session has not
sent stands behind all it has sent.
-/

namespace FaceTracking

open Lib Proto ClientSession

/-! ## Numbers -/

/-- The frames are numbered from 0, as far as numbers of 32 bits go. -/
def Numbered (ps : List Frame) : Prop :=
  ps.map Frame.seq = (List.range ps.length).map UInt32.ofNat

theorem Numbered.append {ps : List Frame} (h : Numbered ps) {f : Frame}
    (hf : f.seq = UInt32.ofNat ps.length) : Numbered (ps ++ [f]) := by
  unfold Numbered at h ⊢
  rw [List.length_append, List.length_singleton, List.range_succ, List.map_append, List.map_append,
    h, List.map_singleton, List.map_singleton, hf]

/-- Published later means numbered higher. -/
theorem Numbered.pairwise {ps : List Frame} (h : Numbered ps) (hlen : ps.length < 2 ^ 32) :
    ps.Pairwise fun f g => f.seq < g.seq := by
  have hseqs : (ps.map Frame.seq).Pairwise (· < ·) := by
    rw [h, List.pairwise_map]
    refine List.pairwise_lt_range.imp_of_mem fun {i j} hi hj hij => ?_
    have hi' := List.mem_range.mp hi
    have hj' := List.mem_range.mp hj
    rw [UInt32.lt_iff_toNat_lt, UInt32.toNat_ofNat', UInt32.toNat_ofNat',
      Nat.mod_eq_of_lt (by omega), Nat.mod_eq_of_lt (by omega)]
    exact hij
  exact List.pairwise_map.mp hseqs

/-- The number tells the frame. -/
theorem Numbered.eq_of_seq {ps : List Frame} (h : Numbered ps) (hlen : ps.length < 2 ^ 32)
    {f g : Frame} (hf : f ∈ ps) (hg : g ∈ ps) (hseq : f.seq = g.seq) : f = g := by
  have hnodup : (ps.map Frame.seq).Nodup := by
    refine List.pairwise_map.mpr ((h.pairwise hlen).imp ?_)
    intro a b hlt
    exact UInt32.ne_of_lt hlt
  exact List.inj_on_of_nodup_map hnodup hf hg hseq

/-- The marker is no frame's number. -/
theorem Numbered.ne_marker {ps : List Frame} (h : Numbered ps) (hlen : ps.length < 2 ^ 32 - 1)
    {f : Frame} (hf : f ∈ ps) : f.seq ≠ 0xFFFFFFFF := by
  have hmem : f.seq ∈ ps.map Frame.seq := List.mem_map_of_mem hf
  rw [h] at hmem
  obtain ⟨i, hi, hseq⟩ := List.mem_map.mp hmem
  have hlt := List.mem_range.mp hi
  intro hmarker
  have hnat := congrArg UInt32.toNat (hseq.trans hmarker)
  rw [UInt32.toNat_ofNat', Nat.mod_eq_of_lt (by omega)] at hnat
  have hmax : (0xFFFFFFFF : UInt32).toNat = 2 ^ 32 - 1 := rfl
  omega

/-- A subsequence that does not end in the last element leaves it out. -/
theorem sublist_init {α : Type} {l init : List α} {x : α} (h : l.Sublist (init ++ [x]))
    (hlast : l.getLast? ≠ some x) : l.Sublist init := by
  obtain ⟨a, b, rfl, ha, hb⟩ := List.sublist_append_iff.mp h
  rcases List.sublist_singleton.mp hb with rfl | rfl
  · rwa [List.append_nil]
  · exact absurd (by simp) hlast

/-! ## One session -/

/-- A session has sent the frames `fs` of the published ones, and its counter
says which was the last. -/
structure Streamed {κ ψ : Type} (ps : List Frame) (c : ClientSession κ ψ) (fs : List Frame) :
    Prop where
  sent : videoFrames c.trace = fs.map frameMessage
  sublist : fs.Sublist ps
  counter : c.lastSentSeq = (fs.getLast?.map Frame.seq).getD 0xFFFFFFFF

namespace Streamed

variable {κ ψ : Type} {ps fs : List Frame} {c c' : ClientSession κ ψ}

theorem silent (h : Streamed ps c fs) (hc : Silent c c') : Streamed ps c' fs :=
  ⟨hc.frames.trans h.sent, h.sublist, hc.last.trans h.counter⟩

theorem publish (h : Streamed ps c fs) (qs : List Frame) : Streamed (ps ++ qs) c fs :=
  ⟨h.sent, h.sublist.trans (List.sublist_append_left ps qs), h.counter⟩

/-- The counter has the latest frame's number just if that frame was the last
one sent. -/
theorem counter_eq_iff (h : Streamed ps c fs) (hnum : Numbered ps)
    (hlen : ps.length < 2 ^ 32 - 1) {f : Frame} (hf : f ∈ ps) :
    f.seq = c.lastSentSeq ↔ fs.getLast? = some f := by
  rw [h.counter]
  cases hlast : fs.getLast? with
  | none =>
    refine ⟨fun hseq => absurd hseq (hnum.ne_marker hlen hf), nofun⟩
  | some g =>
    have hg : g ∈ ps := h.sublist.mem (List.mem_of_getLast? hlast)
    constructor
    · intro hseq
      rw [hnum.eq_of_seq (by omega) hf hg hseq]
    · rintro ⟨⟩
      rfl

/-- Sending the latest frame makes it the last one streamed. -/
theorem send {init : List Frame} {f : Frame} (h : Streamed (init ++ [f]) c fs)
    (hnew : fs.getLast? ≠ some f)
    (hsent : videoFrames c'.trace = videoFrames c.trace ++ [frameMessage f])
    (hcounter : c'.lastSentSeq = f.seq) : Streamed (init ++ [f]) c' (fs ++ [f]) := by
  refine ⟨?_, (sublist_init h.sublist hnew).append (.refl [f]), ?_⟩
  · rw [hsent, h.sent, List.map_append]
    rfl
  · rw [hcounter, List.getLast?_concat]
    rfl

end Streamed

/-! ## The machine -/

namespace VideoStream

variable {κ ρ : Type} (cv : OpenCv) (W : World κ) (R : Shared ρ) (cfg : SessionConfig)

/-- The hub and the thread agree with what was published. -/
structure Fresh (s : VideoStream κ ρ) (ps : List Frame) : Prop where
  numbered : Numbered ps
  next : s.vision.seq = UInt32.ofNat ps.length
  latest : s.hub.latest = ps.getLast?

theorem Fresh.initial {vision : VisionThread} (rest : ρ) (hseq : vision.seq = 0) :
    Fresh (initial vision rest : VideoStream κ ρ) [] :=
  ⟨rfl, hseq, rfl⟩

/-- A step keeps every session's stream fresh. -/
theorem Fresh.step {s s' : VideoStream κ ρ} {ps : List Frame} {e : Turn κ} (h : Fresh s ps)
    (hstep : step cv W R cfg s e = some s') : Fresh s' (ps ++ published cv s e) := by
  rcases hub_cases cv W R cfg hstep with ⟨hnone, hhub, hseq⟩ | ⟨f, hone, hhub, hf, hseq⟩
  · rw [hnone, List.append_nil]
    exact ⟨h.numbered, hseq.trans h.next, (congrArg FrameHub.latest hhub).trans h.latest⟩
  · rw [hone]
    refine ⟨h.numbered.append (hf.trans h.next), ?_, ?_⟩
    · rw [hseq, h.next, List.length_append, List.length_singleton, UInt32.ofNat_add]
      rfl
    · rw [hhub, List.getLast?_concat]
      rfl

/-- In a run from the start every session's stream is fresh. -/
theorem fresh_of_play {vision : VisionThread} {rest : ρ} (hseq : vision.seq = 0)
    {es : List (Turn κ)} {s : VideoStream κ ρ}
    (hplay : play (step cv W R cfg) (initial vision rest) es = some s) :
    Fresh s (outputs (step cv W R cfg) (published cv) (initial vision rest) es) :=
  history (step cv W R cfg) (fun _ _ _ _ h (_ : True) hstep => h.step cv W R cfg hstep) (l := [])
    (.initial rest hseq) (.of_forall _ (fun _ _ => trivial) _ _) hplay

/-- **What a step does** to a session's frames: it adds the latest one, or none,
and if it is a tick there is a reason for that. -/
theorem Fresh.stream {s : VideoStream κ ρ} {ps : List Frame} {e : Turn κ} {i : Nat}
    {c' : ClientSession κ (FrameHub × ρ)} (h : Fresh s ps) (hlen : ps.length < 2 ^ 32 - 1)
    (hm : StreamStep s e i c') :
    (∃ c f, s.sessions[i]? = some c ∧ e = .tick i ∧ s.hub.latest = some f ∧ f.jpeg ≠ [] ∧
      ∀ fs, Streamed ps c fs → Streamed ps c' (fs ++ [f])) ∨
    (∃ c, s.sessions[i]? = some c ∧ ∀ fs, Streamed ps c fs → Streamed ps c' fs ∧
      (e = .tick i → ∀ f, s.hub.latest = some f → f.jpeg = [] ∨ fs.getLast? = some f)) ∨
    (s.sessions[i]? = none ∧ Streamed ps c' []) := by
  cases hm with
  | silent c hc hsilent hwhy =>
    refine .inr (.inl ⟨c, hc, fun fs hfs => ⟨hfs.silent hsilent, fun he f hf => ?_⟩⟩)
    have hmem : f ∈ ps := List.mem_of_getLast? (h.latest.symm.trans hf)
    rcases hwhy he f hf with hempty | hseq
    · exact .inl hempty
    · exact .inr ((hfs.counter_eq_iff h.numbered hlen hmem).mp hseq)
  | sent c f hc he hf hjpeg hnew hsent hcounter =>
    refine .inl ⟨c, f, hc, he, hf, hjpeg, fun fs hfs => ?_⟩
    have hlast : ps.getLast? = some f := h.latest.symm.trans hf
    have hold : fs.getLast? ≠ some f := by
      intro hsame
      exact hnew ((hfs.counter_eq_iff h.numbered hlen (List.mem_of_getLast? hlast)).mpr hsame)
    obtain ⟨init, rfl⟩ := List.getLast?_eq_some_iff.mp hlast
    exact hfs.send hold hsent hcounter
  | started hnew hnone hmarker => exact .inr (.inr ⟨hnew, hnone, List.nil_sublist ps, hmarker⟩)

/-- The frame was the latest one at a tick of session `i`. -/
def ReadAt (s₀ : VideoStream κ ρ) (es : List (Turn κ)) (i : Nat) (f : Frame) : Prop :=
  ∃ es₁ es₂ s, es = es₁ ++ .tick i :: es₂ ∧ play (step cv W R cfg) s₀ es₁ = some s ∧
    s.hub.latest = some f

theorem ReadAt.later {s₀ : VideoStream κ ρ} {es : List (Turn κ)} {i : Nat} {f : Frame}
    (h : ReadAt cv W R cfg s₀ es i f) (e : Turn κ) : ReadAt cv W R cfg s₀ (es ++ [e]) i f := by
  obtain ⟨es₁, es₂, s, rfl, hplay, hf⟩ := h
  exact ⟨es₁, es₂ ++ [e], s, by simp, hplay, hf⟩

/-- **Run** of a session: it has sent frames that it read at its ticks. -/
theorem streamed_of_play {vision : VisionThread} {rest : ρ} (hseq : vision.seq = 0)
    {es : List (Turn κ)} {s : VideoStream κ ρ}
    (hplay : play (step cv W R cfg) (initial vision rest) es = some s)
    (hlen : (outputs (step cv W R cfg) (published cv) (initial vision rest) es).length < 2 ^ 32 - 1)
    {i : Nat} {c : ClientSession κ (FrameHub × ρ)} (hc : s.sessions[i]? = some c) :
    ∃ fs, Streamed (outputs (step cv W R cfg) (published cv) (initial vision rest) es) c fs ∧
      ∀ f ∈ fs, ReadAt cv W R cfg (initial vision rest) es i f := by
  -- on the last turn of the run
  induction es using List.reverseRecOn generalizing s c with
  | nil =>
    rw [play_nil, Option.some.injEq] at hplay
    subst hplay
    cases hc
  | append_singleton es e ih =>
    obtain ⟨t, ht, hlast⟩ := play_split (step cv W R cfg) hplay
    obtain ⟨u, hstep, hu⟩ := play_cons (step cv W R cfg) hlast
    rw [play_nil, Option.some.injEq] at hu
    subst hu
    have hps : outputs (step cv W R cfg) (published cv) (initial vision rest) (es ++ [e]) =
        outputs (step cv W R cfg) (published cv) (initial vision rest) es ++
          outputs (step cv W R cfg) (published cv) t [e] :=
      outputs_append (step cv W R cfg) ht
    rw [hps] at hlen ⊢
    rw [List.length_append] at hlen
    rcases (fresh_of_play cv W R cfg hseq ht).stream (by omega)
        (streamStep cv W R cfg hstep hc) with
      ⟨c₀, f, hc₀, rfl, hf, -, hsent⟩ | ⟨c₀, hc₀, hkept⟩ | ⟨-, hstarted⟩
    · obtain ⟨fs, hfs, hread⟩ := ih ht (by omega) hc₀
      refine ⟨fs ++ [f], (hsent fs hfs).publish _, ?_⟩
      rw [List.forall_mem_append]
      exact ⟨fun g hg => (hread g hg).later cv W R cfg _,
        List.forall_mem_singleton.mpr ⟨es, [], t, rfl, ht, hf⟩⟩
    · obtain ⟨fs, hfs, hread⟩ := ih ht (by omega) hc₀
      exact ⟨fs, (hkept fs hfs).1.publish _, fun g hg => (hread g hg).later cv W R cfg _⟩
    · exact ⟨[], hstarted.publish _, nofun⟩

/-! ## Main result -/

/-- **Fresh frames.** Publishing and ticking in any order, with sessions that
start at any time and dispatch any messages: the VIDEO_FRAME messages of a
session decode to published frames of rising numbers, each of which was the
latest one at a tick of the session; and the next tick sends the latest frame
unless there is none, its JPEG is empty or it is the last one the session
sent. -/
theorem fresh_frames (jpegQuality : Int32) (autoSnapshot : Bool) (autoSnapshotIntervalMs : Int32)
    (now : UInt64) (rest : ρ) (es : List (Turn κ)) (s : VideoStream κ ρ) :
    let s₀ : VideoStream κ ρ :=
      initial (.create jpegQuality autoSnapshot autoSnapshotIntervalMs now) rest
    let ps := outputs (step cv W R cfg) (published cv) s₀ es
    play (step cv W R cfg) s₀ es = some s → ps.length < 2 ^ 32 - 1 →
    ∀ (i : Nat) (c : ClientSession κ (FrameHub × ρ)), s.sessions[i]? = some c →
      ∃ fs : List Frame, videoFrames c.trace = fs.map frameMessage ∧
        (∀ f ∈ fs, f ∈ ps ∧ decodeVideo (frameMessage f) = some f.video ∧
          ReadAt cv W R cfg s₀ es i f) ∧
        fs.Pairwise (fun f g => f.seq < g.seq) ∧
        (c.authed = true → c.finished = false → ∃ s' c',
          step cv W R cfg s (.tick i) = some s' ∧ s'.sessions[i]? = some c' ∧
          ((∃ f, s.hub.latest = some f ∧ f.jpeg ≠ [] ∧
              videoFrames c'.trace = videoFrames c.trace ++ [frameMessage f]) ∨
            (videoFrames c'.trace = videoFrames c.trace ∧ ∀ f, s.hub.latest = some f →
              f.jpeg = [] ∨ fs.getLast? = some f))) := by
  intro s₀ ps hplay hlen i c hc
  have hfresh := fresh_of_play cv W R cfg (show s₀.vision.seq = 0 from rfl) hplay
  obtain ⟨fs, hfs, hread⟩ := streamed_of_play cv W R cfg rfl hplay hlen hc
  refine ⟨fs, hfs.sent, ?_, ?_, ?_⟩
  · intro f hf
    exact ⟨hfs.sublist.mem hf, decodeVideo_frameMessage f, hread f hf⟩
  · have hlt : ps.length < 2 ^ 32 := by omega
    exact (hfresh.numbered.pairwise hlt).sublist hfs.sublist
  · intro hauthed hopen
    obtain ⟨s', c', hstep, hc'⟩ := exists_tick cv W R cfg hc hauthed hopen
    refine ⟨s', c', hstep, hc', ?_⟩
    rcases hfresh.stream hlen (streamStep cv W R cfg hstep hc') with
      ⟨c₀, f, hc₀, -, hf, hjpeg, hsent⟩ | ⟨c₀, hc₀, hkept⟩ | ⟨hnew, -⟩
    · rw [hc, Option.some.injEq] at hc₀
      subst hc₀
      refine .inl ⟨f, hf, hjpeg, ?_⟩
      rw [(hsent fs hfs).sent, hfs.sent, List.map_append]
      rfl
    · rw [hc, Option.some.injEq] at hc₀
      subst hc₀
      obtain ⟨hsame, hwhy⟩ := hkept fs hfs
      exact .inr ⟨hsame.sent.trans hfs.sent.symm, hwhy rfl⟩
    · rw [hc] at hnew
      cases hnew

/-- A camera that delivers one-byte pictures. -/
def picture (x : UInt8) : Grab := ⟨some ⟨[x], 640, 480⟩, none, 1000, 1000⟩

/-- A session that starts behind the first frame, misses the third and finds
nothing new at its last tick. -/
theorem fresh_frames_skipped :
    let cv : OpenCv := ⟨fun c _ => c.image, fun image _ => image⟩
    let W := World.of (TcpConn RawByteStream) (schedule 0)
    let es : List (Turn (Socket × List PollResult)) :=
      [.vision (picture 1), .connect (⟨[], .replicate 9 (.accept 500), [], false⟩, []),
        .vision (picture 2), .tick 0, .vision (picture 3), .vision (picture 4), .tick 0, .tick 0]
    let s₀ := initial (.create 80 false 0 0) ()
    ∃ s c, play (step cv W Shared.empty ⟨15, []⟩) s₀ es = some s ∧ s.sessions[0]? = some c ∧
      ∃ fs : List Frame, videoFrames c.trace = fs.map frameMessage ∧
        fs.Pairwise fun f g => f.seq < g.seq := by
  intro cv W es s₀
  have hsome : ((play (step cv W Shared.empty ⟨15, []⟩) s₀ es).bind
      fun s => s.sessions[0]?).isSome = true := by decide +kernel
  obtain ⟨c, hrun⟩ := Option.isSome_iff_exists.mp hsome
  obtain ⟨s, hplay, hc⟩ := Option.bind_eq_some_iff.mp hrun
  obtain ⟨fs, hsent, -, hrising, -⟩ := fresh_frames cv W Shared.empty ⟨15, []⟩ 80 false 0 0 () es
    s hplay (by decide +kernel) 0 c hc
  exact ⟨s, c, hplay, hc, fs, hsent, hrising⟩

end VideoStream

end FaceTracking
