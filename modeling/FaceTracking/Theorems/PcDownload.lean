import FaceTracking.Lib.Utf8
import FaceTracking.Net.FileData
import FaceTracking.PcClient.TcpClient

/-!
# The PC client's downloads

Feeding the client the FILE_DATA messages of any number of `sendFile` calls,
with other messages in between, makes it report one download per call, in
order, with the requested name and the bytes read (`download_round_trip`).

Only the downloads in progress and the downloads reported matter: `view`. Other
messages leave both alone (`view_other`), one chunk changes them as `view_chunk`
says, and `view_fileData` runs through the chunks of one reply.
-/

namespace FaceTracking.PcClient.TcpClient

open Lib Proto
open ClientSession (chunkCount)

variable {Cert Img : Type} (Q : Qt Cert Img)

/-- The downloads reported in a log. -/
def downloaded (l : List (Effect Img)) : List (String × Bytes) :=
  l.filterMap fun | .fileDownloaded name bytes => some (name, bytes) | _ => none

/-- Handling one message after the other. -/
def feed (s : TcpClient Cert Img) (ms : List Message) : TcpClient Cert Img :=
  ms.foldl (fun s m => handleMessage Q s m.type m.payload) s

def isFileData (m : Message) : Bool := m.type == MsgType.FileData.code

/-- The downloads in progress and those reported. -/
def view (s : TcpClient Cert Img) : List (String × Download) × List (String × Bytes) :=
  (s.downloads, downloaded s.log)

theorem feed_append (s : TcpClient Cert Img) (ms ms' : List Message) :
    feed Q s (ms ++ ms') = feed Q (feed Q s ms) ms' :=
  List.foldl_append

/-! ## Messages that are not FILE_DATA -/

theorem downloaded_append (l l' : List (Effect Img)) :
    downloaded (l ++ l') = downloaded l ++ downloaded l' := by
  simp [downloaded]

theorem view_emit (s : TcpClient Cert Img) {e : Effect Img} (h : downloaded [e] = []) :
    view (s.emit e) = view s := by
  unfold view emit
  rw [downloaded_append, h, List.append_nil]

/-- Other messages touch no download. -/
theorem view_other (s : TcpClient Cert Img) {m : Message} (h : isFileData m = false) :
    view (handleMessage Q s m.type m.payload) = view s := by
  have htype : m.type ≠ MsgType.FileData.code := by simpa [isFileData] using h
  have hhandled : view (s.emit (.handled m.type m.payload)) = view s := view_emit s rfl
  unfold handleMessage
  simp only
  split
  · rw [← hhandled]
    unfold handleVideoFrame
    simp only
    split
    · rfl
    · split
      · rfl
      · exact view_emit _ rfl
  · rw [← hhandled]
    exact view_emit _ rfl
  · rename_i hcode
    exact absurd (MsgType.code_of_ofCode hcode).symm htype
  · rw [← hhandled]
    exact view_emit _ rfl
  · exact hhandled

/-! ## One chunk -/

/-- A chunk is added to the download of its name, and the last one reports it.
-/
theorem view_chunk (s : TcpClient Cert Img) {name : Bytes} {u : String} (hu : Q.fromUtf8 name = u)
    (hlen : name.length ≤ 255) (total idx : UInt32) (chunk : Bytes) :
    view (feed Q s [fileDataMessage name total idx chunk]) =
      let others := s.downloads.filter (fun d => d.1 != u)
      if total = 0 then (others, downloaded s.log ++ [(u, [])])
      else
        let d := ((s.downloads.lookup u).getD ⟨0, 0, []⟩).absorb total chunk
        if d.received ≥ d.total then (others, downloaded s.log ++ [(u, d.bytes)])
        else ((u, d) :: others, downloaded s.log) := by
  have hfeed : feed Q s [fileDataMessage name total idx chunk] =
      handleFileData Q (s.emit (.handled MsgType.FileData.code
        (fileDataPayload name total idx chunk))) (fileDataPayload name total idx chunk) := rfl
  have hhandled : downloaded (s.emit (.handled MsgType.FileData.code
      (fileDataPayload name total idx chunk))).log = downloaded s.log :=
    congrArg Prod.snd (view_emit s rfl)
  have hdownloads : (s.emit (.handled MsgType.FileData.code
      (fileDataPayload name total idx chunk))).downloads = s.downloads := rfl
  rw [hfeed]
  generalize s.emit (.handled MsgType.FileData.code (fileDataPayload name total idx chunk)) = s'
    at hhandled hdownloads
  have htotal : getU32 ((fileDataPayload name total idx chunk).drop 4) = total := by
    rw [fileDataPayload_drop4, getU32_beBytes]
  have hlength := length_fileDataPayload name total idx chunk
  have hdone : ∀ (bytes : Bytes) (ds : List (String × Download)),
      view { s'.emit (.fileDownloaded u bytes) with downloads := ds } =
        (ds, downloaded s.log ++ [(u, bytes)]) := by
    intro bytes ds
    rw [← hhandled]
    exact congrArg (Prod.mk ds) (downloaded_append s'.log [.fileDownloaded u bytes])
  unfold handleFileData
  rw [fileDataPayload_nameLen name total idx chunk hlen]
  simp only [htotal, fileDataPayload_name, fileDataPayload_bytes, hu, hdownloads]
  rw [if_neg (by omega), if_neg (by omega)]
  split
  · exact hdone _ _
  · split
    · exact hdone _ _
    · exact congrArg (Prod.mk _) hhandled

/-! ## One reply -/

/-- The download in progress after the first `n` chunks. -/
def partialDownload (u : String) (content : Bytes) (n : Nat) : List (String × Download) :=
  if n = 0 then []
  else [(u, ⟨chunkCount (some content), UInt32.ofNat n, content.take (n * kChunkSize)⟩)]

/-- The messages of the first `n` chunks. -/
def firstChunks (name content : Bytes) (n : Nat) : List Message :=
  (List.range n).map fun i =>
    fileDataMessage name (chunkCount (some content)) (UInt32.ofNat i) (FaceTracking.chunk content i)

theorem firstChunks_succ (name content : Bytes) (n : Nat) :
    firstChunks name content (n + 1) = firstChunks name content n ++
      [fileDataMessage name (chunkCount (some content)) (UInt32.ofNat n)
        (FaceTracking.chunk content n)] := by
  rw [firstChunks, List.range_succ, List.map_append]
  rfl

section Reply

variable {name : Bytes} {u : String} {content : Bytes} (hu : Q.fromUtf8 name = u)
  (hlen : name.length ≤ 255) (hne : content ≠ []) (hmax : content.length ≤ kMaxContent)
include hu hlen hne hmax

/-- The chunk behind the first `n` is added, or completes the download. -/
theorem view_next (s : TcpClient Cert Img) (n : Nat) (hn : n < pieceCount kChunkSize content)
    (hs : s.downloads = partialDownload u content n) :
    view (feed Q s [fileDataMessage name (chunkCount (some content)) (UInt32.ofNat n)
        (FaceTracking.chunk content n)]) =
      if n + 1 < pieceCount kChunkSize content then
        (partialDownload u content (n + 1), downloaded s.log)
      else ([], downloaded s.log ++ [(u, content)]) := by
  have htotal := toNat_chunkCount hne hmax
  have hnonzero := chunkCount_ne_zero hne hmax
  have hlt : (chunkCount (some content)).toNat < 2 ^ 32 := UInt32.toNat_lt _
  have hothers : (partialDownload u content n).filter (fun d => d.1 != u) = [] := by
    unfold partialDownload
    split <;> simp
  have hentry : (((partialDownload u content n).lookup u).getD ⟨0, 0, []⟩).absorb
      (chunkCount (some content)) (FaceTracking.chunk content n) =
        ⟨chunkCount (some content), UInt32.ofNat (n + 1), content.take ((n + 1) * kChunkSize)⟩ := by
    have htake : content.take (n * kChunkSize) ++ FaceTracking.chunk content n =
        content.take ((n + 1) * kChunkSize) := by
      rw [Nat.add_mul, Nat.one_mul, List.take_add]
      rfl
    unfold partialDownload
    split
    · rename_i h0
      subst h0
      simp [Download.absorb, FaceTracking.chunk, piece]
    · simp [Download.absorb, hnonzero, htake]
  have hreceived : (UInt32.ofNat (n + 1) ≥ chunkCount (some content)) ↔
      ¬ n + 1 < pieceCount kChunkSize content := by
    rw [ge_iff_le, UInt32.le_iff_toNat_le, UInt32.toNat_ofNat', Nat.mod_eq_of_lt (by omega),
      htotal]
    omega
  rw [view_chunk Q s hu hlen]
  simp only [hs, hothers, hentry, if_neg hnonzero, hreceived]
  by_cases hlast : n + 1 < pieceCount kChunkSize content
  · rw [if_neg (not_not_intro hlast), if_pos hlast, partialDownload, if_neg (by omega)]
  · have hall : content.take ((n + 1) * kChunkSize) = content := by
      rw [show n + 1 = pieceCount kChunkSize content by omega]
      exact List.take_of_length_le (length_le_pieceCount (by decide) content)
    rw [if_pos hlast, if_neg hlast, hall]

/-- As long as a chunk is missing, the chunks are kept in their order. -/
theorem view_firstChunks (s : TcpClient Cert Img) (hs : s.downloads = []) (n : Nat)
    (hn : n < pieceCount kChunkSize content) :
    view (feed Q s (firstChunks name content n)) =
      (partialDownload u content n, downloaded s.log) := by
  induction n with
  | zero => exact congrArg (Prod.mk · _) hs
  | succ n ih =>
    have hview := ih (by omega)
    rw [firstChunks_succ, feed_append,
      view_next Q hu hlen hne hmax _ n (by omega) (congrArg Prod.fst hview), if_pos hn]
    exact congrArg (Prod.mk _) (congrArg Prod.snd hview)

/-- A reply with chunks is one download of the content. -/
theorem view_content (s : TcpClient Cert Img) (hs : s.downloads = []) :
    view (feed Q s (fileData name (some content))) =
      ([], downloaded s.log ++ [(u, content)]) := by
  have hpos := pieceCount_pos (k := kChunkSize) (by decide) hne
  obtain ⟨n, hn⟩ : ∃ n, pieceCount kChunkSize content = n + 1 := ⟨_, (Nat.succ_pred hpos.ne').symm⟩
  -- all chunks but the last leave the download unfinished
  have hview := view_firstChunks Q hu hlen hne hmax s hs n (by omega)
  have hmessages : fileData name (some content) = firstChunks name content (n + 1) := by
    rw [fileData_some name hne hmax, hn]
    rfl
  rw [hmessages, firstChunks_succ, feed_append,
    view_next Q hu hlen hne hmax _ n (by omega) (congrArg Prod.fst hview), if_neg (by omega)]
  exact congrArg (fun l => ([], l ++ [(u, content)])) (congrArg Prod.snd hview)

end Reply

/-- **One reply** is one download, with the bytes that were read. -/
theorem view_fileData (s : TcpClient Cert Img) {name : Bytes} {u : String}
    (hu : Q.fromUtf8 name = u) (hlen : name.length ≤ 255) {outcome : Option Bytes}
    (hmax : ∀ content, outcome = some content → content.length ≤ kMaxContent)
    (hs : s.downloads = []) :
    view (feed Q s (fileData name outcome)) =
      ([], downloaded s.log ++ [(u, outcome.getD [])]) := by
  have hempty : view (feed Q s [fileDataMessage name 0 0 []]) =
      ([], downloaded s.log ++ [(u, [])]) := by
    rw [view_chunk Q s hu hlen]
    simp [hs]
  match outcome, hmax with
  | none, _ => exact hempty
  | some [], _ => exact hempty
  | some (x :: b), hmax => exact view_content Q hu hlen (by simp) (hmax _ rfl) s hs

/-! ## Other messages in between -/

/-- Clients that agree on their downloads still do after a chunk. -/
theorem view_congr {s s' : TcpClient Cert Img} (h : view s = view s') {m : Message}
    (hm : isFileData m = true) :
    view (handleMessage Q s m.type m.payload) = view (handleMessage Q s' m.type m.payload) := by
  have htype : m.type = MsgType.FileData.code := by simpa [isFileData] using hm
  have hstep : ∀ s : TcpClient Cert Img, handleMessage Q s m.type m.payload =
      handleFileData Q (s.emit (.handled m.type m.payload)) m.payload := by
    intro s
    rw [htype]
    rfl
  have hemit : view (s.emit (.handled m.type m.payload)) =
      view (s'.emit (.handled m.type m.payload)) := by
    rw [view_emit _ rfl, view_emit _ rfl, h]
  rw [hstep, hstep]
  generalize s.emit (.handled m.type m.payload) = t at hemit
  generalize s'.emit (.handled m.type m.payload) = t' at hemit
  obtain ⟨hdownloads, hlog⟩ := Prod.mk.inj hemit
  have hreport : ∀ (e : Effect Img) (ds : List (String × Download)),
      view { t.emit e with downloads := ds } = view { t'.emit e with downloads := ds } := by
    intro e ds
    refine congrArg (Prod.mk ds) ?_
    change downloaded (t.log ++ [e]) = downloaded (t'.log ++ [e])
    rw [downloaded_append, downloaded_append, hlog]
  unfold handleFileData
  simp only [hdownloads]
  split
  · exact hemit
  · split
    · exact hemit
    · split
      · exact hreport _ _
      · split
        · exact hreport _ _
        · exact congrArg (Prod.mk _) hlog

/-- Messages of other types can be left out. -/
theorem view_feed_filter (ms : List Message) {s s' : TcpClient Cert Img} (h : view s = view s') :
    view (feed Q s ms) = view (feed Q s' (ms.filter isFileData)) := by
  -- `s` has seen more messages than `s'`, so only their views agree
  induction ms generalizing s s' with
  | nil => exact h
  | cons m ms ih =>
    cases hm : isFileData m with
    | true =>
      rw [List.filter_cons_of_pos hm]
      exact ih (view_congr Q h hm)
    | false =>
      rw [List.filter_cons_of_neg (by simp [hm])]
      exact ih ((view_other Q s hm).trans h)

/-! ## A sequence of requests -/

/-- One reply after the other, each is one download. -/
theorem view_replies {ι : Type} (name : ι → String) (outcome : ι → Option Bytes) (rs : List ι)
    (hname : ∀ r ∈ rs, (utf8 (name r)).length ≤ 255 ∧ Q.fromUtf8 (utf8 (name r)) = name r)
    (hmax : ∀ r ∈ rs, ∀ content, outcome r = some content → content.length ≤ kMaxContent)
    (s : TcpClient Cert Img) (hs : s.downloads = []) :
    view (feed Q s (rs.flatMap fun r => fileData (utf8 (name r)) (outcome r))) =
      ([], downloaded s.log ++ rs.map fun r => (name r, (outcome r).getD [])) := by
  induction rs generalizing s with
  | nil => simp [feed, view, hs]
  | cons r rs ih =>
    obtain ⟨hlen, hu⟩ := hname r List.mem_cons_self
    have hfirst := view_fileData Q s hu hlen (hmax r List.mem_cons_self) hs
    rw [List.flatMap_cons, feed_append,
      ih (fun r' h => hname r' (List.mem_cons_of_mem r h))
        (fun r' h => hmax r' (List.mem_cons_of_mem r h)) _ (congrArg Prod.fst hfirst)]
    have hlog := congrArg Prod.snd hfirst
    simp only [view] at hlog
    rw [hlog, List.append_assoc]
    rfl

/-- **Download round trip**: every request is answered by one download with
the requested name and the bytes of the file, in the order of the requests. -/
theorem download_round_trip {κ ψ : Type} (hQ : ∀ u, NoBom u → Q.fromUtf8 (utf8 u) = u)
    (W : World κ) (Sh : Shared ψ) (calls : List (ClientSession κ ψ × String))
    (hnames : ∀ r ∈ calls, (utf8 r.2).length ≤ 255 ∧ NoBom r.2)
    (hsize : ∀ r ∈ calls, ∀ content, (Sh.read r.1.shared (utf8 r.2)).1 = some content →
      content.length ≤ kMaxContent)
    (hsent : ∀ r ∈ calls, AllSent (replyEvents W Sh r.1 (utf8 r.2)))
    (c : TcpClient Cert Img) (hc : c.downloads = []) (ms : List Message)
    (hms : (ms.filter isFileData).map Message.wire =
      calls.flatMap fun r => sends (replyEvents W Sh r.1 (utf8 r.2))) :
    downloaded (feed Q c ms).log = downloaded c.log ++
        calls.map (fun r => (r.2, (Sh.read r.1.shared (utf8 r.2)).1.getD [])) ∧
      (feed Q c ms).downloads = [] := by
  have hwire : calls.flatMap (fun r => sends (replyEvents W Sh r.1 (utf8 r.2))) =
      (calls.flatMap fun r => fileData (utf8 r.2) (Sh.read r.1.shared (utf8 r.2)).1).map
        Message.wire := by
    rw [List.map_flatMap]
    exact List.flatMap_congr fun r hr =>
      sends_replyEvents W Sh r.1 (hnames r hr).1 (hsent r hr)
  rw [hwire] at hms
  -- the replies on the wire determine the messages
  have hmessages := Message.wire_injective.list_map hms
  have hview := view_feed_filter Q ms (rfl : view c = view c)
  rw [hmessages, view_replies Q (fun r : ClientSession κ ψ × String => r.2) _ calls
    (fun r hr => ⟨(hnames r hr).1, hQ _ (hnames r hr).2⟩) hsize c hc] at hview
  exact ⟨congrArg Prod.snd hview, congrArg Prod.fst hview⟩

/-- A Qt that decodes UTF-8. -/
def utf8Qt : Qt Unit Unit :=
  ⟨true, fun _ => [], fun _ => none, fun b => (decodeUtf8? b).getD "", fun _ => [],
    fun _ => ("", false)⟩

theorem utf8Qt_fromUtf8 (u : String) : utf8Qt.fromUtf8 (utf8 u) = u := by
  change (decodeUtf8? (utf8 u)).getD "" = u
  rw [decodeUtf8?_utf8]
  rfl

def utf8Client : TcpClient Unit Unit := ⟨.fresh none, "", false, none, [], [], []⟩

/-- A directory with one file, of two chunks. -/
def oneCapture : Shared Unit := .holding [(utf8 "a.jpg", twoChunks)]

/-- A request for it, one for a missing file and the first one again. -/
def threeCalls : List (ClientSession Unit Unit × String) :=
  [(idleCall, "a.jpg"), (idleCall, "b.jpg"), (idleCall, "a.jpg")]

/-- The replies, with a HEARTBEAT between the chunks of the first. -/
def threeReplies : List Message :=
  let first := fileDataMessage (utf8 "a.jpg") 2 0 (List.replicate kChunkSize 7)
  let second := fileDataMessage (utf8 "a.jpg") 2 1 [7]
  [first, ⟨MsgType.Heartbeat.code, 0, []⟩, second, fileDataMessage (utf8 "b.jpg") 0 0 [], first,
    second]

theorem download_round_trip_three :
    downloaded (feed utf8Qt utf8Client threeReplies).log =
        [("a.jpg", twoChunks), ("b.jpg", []), ("a.jpg", twoChunks)] ∧
      (feed utf8Qt utf8Client threeReplies).downloads = [] := by
  have hnames : ∀ r ∈ threeCalls, (utf8 r.2).length ≤ 255 ∧ NoBom r.2 := by decide +kernel
  have hreads : (oneCapture.read () (utf8 "a.jpg")).1 = some twoChunks ∧
      (oneCapture.read () (utf8 "b.jpg")).1 = none :=
    ⟨rfl, rfl⟩
  have hsize : ∀ r ∈ threeCalls, ∀ content,
      (oneCapture.read r.1.shared (utf8 r.2)).1 = some content →
        content.length ≤ kMaxContent := by
    have hentry : ∀ name content, (oneCapture.read () name).1 = some content →
        content = twoChunks := by
      intro name content h
      change List.lookup name [(utf8 "a.jpg", twoChunks)] = some content at h
      rw [List.lookup_cons, List.lookup_nil] at h
      split at h
      · exact (Option.some.inj h).symm
      · cases h
    intro r _ content h
    rw [hentry _ content h]
    exact twoChunks_le
  have hsent : ∀ r ∈ threeCalls, AllSent (replyEvents listeningWorld oneCapture r.1 (utf8 r.2)) :=
    fun r hr => allSent_listening oneCapture r.1 (hnames r hr).1
  have hsends : ∀ name, (utf8 name).length ≤ 255 →
      sends (replyEvents listeningWorld oneCapture idleCall (utf8 name)) =
        (fileData (utf8 name) (oneCapture.read () (utf8 name)).1).map Message.wire :=
    fun _ hname => sends_replyEvents listeningWorld oneCapture idleCall hname
      (allSent_listening oneCapture idleCall hname)
  have hreplies : (threeReplies.filter isFileData).map Message.wire =
      threeCalls.flatMap fun r => sends (replyEvents listeningWorld oneCapture r.1 (utf8 r.2)) := by
    simp only [threeCalls, List.flatMap_cons, List.flatMap_nil, hsends "a.jpg" (by decide +kernel),
      hsends "b.jpg" (by decide +kernel), hreads, fileData_twoChunks]
    rfl
  exact download_round_trip utf8Qt (fun u _ => utf8Qt_fromUtf8 u) listeningWorld oneCapture
    threeCalls hnames hsize hsent utf8Client rfl threeReplies hreplies

end FaceTracking.PcClient.TcpClient
