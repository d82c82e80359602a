import FaceTracking.Theorems.MobileDownload

/-!
# What a file reply says about the read

A reply determines the content that was read, where a failed read counts as an
empty one: `carried` takes the content back out of the messages. Both outcomes
get the chunk count 0, so they are the only ones a client cannot tell apart.
The mobile client reports the failure and saves every other content
(`reply_outcome`).
-/

namespace FaceTracking

open Lib Proto
open ClientSession (chunkCount)

/-! ## The content of a reply -/

/-- The bytes behind the names of FILE_DATA messages. -/
def carried (name : Bytes) (ms : List Message) : Bytes :=
  ms.flatMap fun m => m.payload.drop (9 + name.length)

theorem carried_fileData (name : Bytes) {outcome : Option Bytes}
    (hmax : ∀ content, outcome = some content → content.length ≤ kMaxContent) :
    carried name (fileData name outcome) = outcome.getD [] := by
  have hzero : carried name [fileDataMessage name 0 0 []] = [] := by
    rw [carried, List.flatMap_singleton]
    exact fileDataPayload_bytes name 0 0 []
  match outcome, hmax with
  | none, _ => exact hzero
  | some [], _ => exact hzero
  | some (x :: b), hmax =>
    rw [carried, fileData_some name (by simp) (hmax _ rfl), List.flatMap_map]
    calc (List.range (pieceCount kChunkSize (x :: b))).flatMap (fun i =>
          (fileDataMessage name (chunkCount (some (x :: b))) (UInt32.ofNat i)
            (chunk (x :: b) i)).payload.drop (9 + name.length))
        = (List.range (pieceCount kChunkSize (x :: b))).flatMap (piece kChunkSize (x :: b)) :=
          List.flatMap_congr fun i _ => fileDataPayload_bytes name _ _ _
      _ = x :: b := by
          rw [List.flatMap_def]
          exact flatten_pieces (by decide) (x :: b)

/-- Outcomes with the same bytes get the same reply. -/
theorem fileData_congr (name : Bytes) {o o' : Option Bytes} (h : o.getD [] = o'.getD []) :
    fileData name o = fileData name o' := by
  have hempty : ∀ o : Option Bytes, o.getD [] = [] →
      fileData name o = [fileDataMessage name 0 0 []] := by
    rintro (_ | b) hb
    · rfl
    · have hnil : b = [] := hb
      rw [hnil]
      rfl
  by_cases hnil : o.getD [] = []
  · rw [hempty o hnil, hempty o' (h ▸ hnil)]
  · match o, o', h, hnil with
    | some _, some _, h, _ => exact congrArg (fun b => fileData name (some b)) h
    | none, _, _, hnil => exact absurd rfl hnil
    | some _, none, h, hnil => exact absurd h hnil

/-! ## A reply in order -/

namespace MobileClient.Client

variable {ν κ ψ : Type} (Wb : Web ν) {W : World κ} {Sh : Shared ψ} {f : Served κ ψ} (sock : Nat)

/-- The chunks of a reply, in order. -/
def inOrder (times : List ℚ) (n : Nat) : List (Arrival Unit) :=
  (List.range n).map fun i => ⟨(), i, times.getD i 0⟩

theorem inOrder_succ (times : List ℚ) (n : Nat) :
    inOrder times (n + 1) = inOrder times n ++ [⟨(), n, times.getD n 0⟩] := by
  rw [inOrder, List.range_succ, List.map_append]
  rfl

theorem complete_inOrder (times : List ℚ) (n : Nat) :
    Complete W Sh (fun _ => f) (inOrder times n) () ↔ (f.frames W Sh).length ≤ n := by
  have hmem : ∀ i, (∃ a ∈ inOrder times n, a.file = () ∧ a.idx = i) ↔ i < n := by
    intro i
    simp [inOrder]
  constructor
  · intro h
    by_contra hlt
    exact absurd ((hmem n).mp (h n (show n < (f.frames W Sh).length by omega))) (lt_irrefl n)
  · intro hle i (hi : i < (f.frames W Sh).length)
    exact (hmem i).mpr (by omega)

theorem orderly_inOrder (times : List ℚ) {n : Nat} (hn : n ≤ (f.frames W Sh).length) :
    Orderly W Sh (fun _ => f) (inOrder times n) := by
  intro m hm
  have hlen : m < n := by simpa [inOrder] using hm
  have htake : (inOrder times n).take m = inOrder times m := by
    rw [inOrder, ← List.map_take, List.take_range, Nat.min_eq_left (by omega)]
    rfl
  have hidx : (inOrder times n)[m].idx = m := by simp [inOrder]
  rw [htake, complete_inOrder, hidx]
  exact ⟨show m < (f.frames W Sh).length by omega, by omega⟩

section Served

variable (hok : f.Ok W Sh) {c : Client} (hc : c.store.downloads.lookup (f.text Wb) = none)
  (times : List ℚ)
include hok hc

theorem follows_inOrder {n : Nat} (hn : n ≤ (f.frames W Sh).length) :
    Follows Wb W Sh (fun _ => f) (inOrder times n)
      (arrivals Wb W Sh (fun _ => f) sock c (inOrder times n)) () :=
  follows_arrivals Wb sock (fun _ _ _ => rfl) (fun _ => hok) (fun _ => hc) (inOrder times n)
    (orderly_inOrder times hn) ()

/-- As long as a chunk is missing, only the download changes. -/
theorem inOrder_incomplete (n : Nat) (hn : n < (f.frames W Sh).length) :
    (arrivals Wb W Sh (fun _ => f) sock c (inOrder times n)).browser.saved = c.browser.saved ∧
      (arrivals Wb W Sh (fun _ => f) sock c (inOrder times n)).store.error = c.store.error := by
  induction n with
  | zero => exact ⟨rfl, rfl⟩
  | succ n ih =>
    obtain ⟨hsaved, herror⟩ := ih (by omega)
    have hidx : n < (f.frames W Sh).length := by omega
    have hopen : ¬ Complete W Sh (fun _ => f) (inOrder times n) () := by
      rw [complete_inOrder]
      omega
    obtain ⟨hcomplete, -⟩ | ⟨-, dl, -, -, hstep⟩ :=
      arrive_cases (a := ⟨(), n, times.getD n 0⟩) Wb sock hok
        (follows_inOrder Wb sock hok hc times (by omega)) hidx hopen
    · rw [← inOrder_succ, complete_inOrder] at hcomplete
      omega
    · rw [inOrder_succ, arrivals, List.foldl_append]
      exact ⟨(congrArg (fun c : Client => c.browser.saved) hstep).trans hsaved,
        (congrArg (fun c : Client => c.store.error) hstep).trans herror⟩

/-- The last chunk saves the file. -/
theorem inOrder_complete :
    (arrivals Wb W Sh (fun _ => f) sock c (inOrder times (f.frames W Sh).length)).browser.saved =
        c.browser.saved ++ [(f.text Wb, f.content)] ∧
      (arrivals Wb W Sh (fun _ => f) sock c (inOrder times (f.frames W Sh).length)).store.error =
        c.store.error ∧
      (arrivals Wb W Sh (fun _ => f) sock c
        (inOrder times (f.frames W Sh).length)).store.downloads.lookup (f.text Wb) = none := by
  obtain ⟨n, hn⟩ : ∃ n, (f.frames W Sh).length = n + 1 := by
    have hpos := pieceCount_pos (k := kChunkSize) (by decide) hok.nonempty
    rw [← hok.length_frames] at hpos
    exact ⟨_, (Nat.succ_pred hpos.ne').symm⟩
  have hidx : n < (f.frames W Sh).length := by omega
  obtain ⟨hsaved, herror⟩ := inOrder_incomplete Wb sock hok hc times n hidx
  have hopen : ¬ Complete W Sh (fun _ => f) (inOrder times n) () := by
    rw [complete_inOrder]
    omega
  rw [hn]
  obtain ⟨-, hstep⟩ | ⟨hcomplete, -⟩ :=
    arrive_cases (a := ⟨(), n, times.getD n 0⟩) Wb sock hok
      (follows_inOrder Wb sock hok hc times (by omega)) hidx hopen
  · rw [inOrder_succ, arrivals, List.foldl_append]
    refine ⟨(congrArg (fun c : Client => c.browser.saved) hstep).trans ?_,
      (congrArg (fun c : Client => c.store.error) hstep).trans herror,
      (congrArg (fun c : Client => c.store.downloads.lookup (f.text Wb)) hstep).trans
        (lookup_filter_self _ _)⟩
    exact congrArg (· ++ [(f.text Wb, f.content)]) hsaved
  · rw [← inOrder_succ, complete_inOrder] at hcomplete
    omega

end Served

/-! ## What the client makes of a reply -/

/-- Whole frames, each at its time. -/
def deliver (c : Client) (frames : List (ℚ × Bytes)) : Client :=
  frames.foldl (fun c m => c.onMessage Wb sock m.1 m.2) c

theorem deliver_frames (c : Client) {frames : List (ℚ × Bytes)}
    (hframes : frames.map Prod.snd = f.frames W Sh) :
    c.deliver Wb sock frames = arrivals Wb W Sh (fun _ => f) sock c
      (inOrder (frames.map Prod.fst) (f.frames W Sh).length) := by
  have hlen : frames.length = (f.frames W Sh).length := by
    rw [← hframes, List.length_map]
  have hlist : frames = (List.range (f.frames W Sh).length).map fun i =>
      ((frames.map Prod.fst).getD i 0, (f.frames W Sh).getD i []) := by
    apply List.ext_getElem
    · simp [hlen]
    · intro i hi _
      have hi' : i < (f.frames W Sh).length := by omega
      have hsnd : (f.frames W Sh)[i] = frames[i].2 := by simp [← hframes]
      simp [hi, hi', hsnd]
  rw [deliver, hlist, List.foldl_map, ← hlist, arrivals, inOrder, List.foldl_map]
  rfl

end MobileClient.Client

open MobileClient MobileClient.Client in
/-- **Read outcomes.** Two reads get the same reply exactly if they have the same
bytes, where a failed read has none. A mobile client without an unfinished
download of the name reports a failed read as a missing file and saves what any
other read gave, unless it gave an empty file. -/
theorem reply_outcome {κ ψ : Type} (W : World κ) (Sh : Shared ψ) {name : Bytes}
    (hname : name.length ≤ 255) (s s' : ClientSession κ ψ)
    (hsent : AllSent (replyEvents W Sh s name)) (hsent' : AllSent (replyEvents W Sh s' name))
    (hsize : ∀ content, (Sh.read s.shared name).1 = some content → content.length ≤ kMaxContent)
    (hsize' : ∀ content, (Sh.read s'.shared name).1 = some content →
      content.length ≤ kMaxContent) :
    (sends (replyEvents W Sh s name) = sends (replyEvents W Sh s' name) ↔
        (Sh.read s.shared name).1.getD [] = (Sh.read s'.shared name).1.getD []) ∧
      ∀ {ν : Type} (Wb : Web ν) (sock : Nat) (c : Client),
        c.store.downloads.lookup (Wb.decode name) = none → (Sh.read s.shared name).1 ≠ some [] →
        ∀ frames : List (ℚ × Bytes), frames.map Prod.snd = sends (replyEvents W Sh s name) →
          (c.deliver Wb sock frames).store.error =
              (if (Sh.read s.shared name).1 = none then "File not found: " ++ Wb.decode name
                else c.store.error) ∧
            (c.deliver Wb sock frames).browser.saved = c.browser.saved ++
              (Sh.read s.shared name).1.toList.map (fun content => (Wb.decode name, content)) ∧
            (c.deliver Wb sock frames).store.downloads.lookup (Wb.decode name) = none := by
  refine ⟨?_, fun Wb sock c hc hempty frames hframes => ?_⟩
  · rw [sends_replyEvents W Sh s hname hsent, sends_replyEvents W Sh s' hname hsent']
    constructor
    · intro h
      -- the chunks carry the bytes, and neither failure nor an empty file has any
      have hcarried := congrArg (carried name) (Message.wire_injective.list_map h)
      rwa [carried_fileData name hsize, carried_fileData name hsize'] at hcarried
    · intro h
      rw [fileData_congr name h]
  · cases hread : (Sh.read s.shared name).1 with
    | none =>
      rw [sends_replyEvents W Sh s hname hsent, hread] at hframes
      have hone : frames.map Prod.snd = [(fileDataMessage name 0 0 []).wire] := hframes
      obtain ⟨m, rfl, hm⟩ := List.map_eq_singleton_iff.mp hone
      have hstep : c.deliver Wb sock [m] = c.onFileData Wb sock (fileDataPayload name 0 0 []) := by
        change c.onMessage Wb sock m.1 m.2 = _
        rw [hm]
        exact onMessage_fileData Wb c sock m.1 hname 0 0 (Nat.zero_le _)
      rw [hstep, onFileData_zero Wb c sock hname]
      exact ⟨rfl, (List.append_nil _).symm, lookup_filter_self _ _⟩
    | some content =>
      -- not empty, so there is a chunk and the last one saves the file
      have hok : (Served.mk s name content).Ok W Sh :=
        ⟨hname, fun h => hempty (by rw [hread]; exact congrArg some h), hsize content hread, hread,
          hsent⟩
      obtain ⟨hsaved, herror, hlookup⟩ :=
        inOrder_complete Wb sock hok hc (frames.map Prod.fst)
      rw [deliver_frames (f := Served.mk s name content) Wb sock c hframes]
      exact ⟨herror, hsaved, hlookup⟩

/-- A directory that either has one file of three bytes under every name, or nothing. -/
def toggled : Shared Bool where
  latest b := (none, b)
  push b _ := b
  list b := ([], b)
  read b _ := (if b then some [1, 2, 3] else none, b)
  remove b _ := (false, b)
  snapshot b _ := b

def toggledCall (found : Bool) : ClientSession Unit Bool := .create ⟨0, []⟩ () found

def toggledFrame : Bytes := (fileDataMessage (utf8 "a.jpg") 1 0 [1, 2, 3]).wire

open MobileClient MobileClient.Client in
theorem reply_outcome_found :
    sends (replyEvents listeningWorld toggled (toggledCall true) (utf8 "a.jpg")) ≠
        sends (replyEvents listeningWorld toggled (toggledCall false) (utf8 "a.jpg")) ∧
      (fresh.deliver utf8Web 0 [(0, toggledFrame)]).browser.saved =
        [(utf8Web.decode (utf8 "a.jpg"), [1, 2, 3])] := by
  have hsize : ∀ found content, (toggled.read found (utf8 "a.jpg")).1 = some content →
      content.length ≤ kMaxContent := by
    intro found content h
    cases found with
    | true =>
      rw [← Option.some.inj h]
      decide
    | false => cases h
  have hsent : ∀ found, AllSent (replyEvents listeningWorld toggled (toggledCall found)
      (utf8 "a.jpg")) := by
    decide +kernel
  have hframes : [((0 : ℚ), toggledFrame)].map Prod.snd =
      sends (replyEvents listeningWorld toggled (toggledCall true) (utf8 "a.jpg")) := by
    decide +kernel
  have h := reply_outcome listeningWorld toggled (by decide +kernel) (toggledCall true)
    (toggledCall false) (hsent true) (hsent false) (hsize true) (hsize false)
  refine ⟨fun hsame => absurd (h.1.mp hsame) (by decide +kernel), ?_⟩
  exact (h.2 utf8Web 0 fresh rfl (by decide +kernel) [(0, toggledFrame)] hframes).2.1

open MobileClient MobileClient.Client in
/-- A file that cannot be read and an empty one: the replies are the same, and the
mobile client reports the empty file as missing. -/
theorem empty_like_missing :
    sends (replyEvents listeningWorld (.holding []) idleCall (utf8 "a.jpg")) =
        sends (replyEvents listeningWorld (.holding [(utf8 "a.jpg", [])]) idleCall
          (utf8 "a.jpg")) ∧
      ((Shared.holding []).read () (utf8 "a.jpg")).1 = none ∧
      ((Shared.holding [(utf8 "a.jpg", [])]).read () (utf8 "a.jpg")).1 = some [] ∧
      (fresh.deliver utf8Web 0
        [(0, (fileDataMessage (utf8 "a.jpg") 0 0 []).wire)]).store.error =
          "File not found: a.jpg" ∧
      (fresh.deliver utf8Web 0
        [(0, (fileDataMessage (utf8 "a.jpg") 0 0 []).wire)]).browser.saved = [] := by
  refine ⟨by decide +kernel, by decide +kernel, by decide +kernel, by decide +kernel, ?_⟩
  decide +kernel

end FaceTracking
