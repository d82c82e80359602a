import FaceTracking.Lib.Utf8
import FaceTracking.MobileClient.Store
import FaceTracking.Net.FileData

/-!
# The mobile client's downloads

The chunks of several files may arrive in any order, mixed and repeated: a file
is saved when its last missing chunk arrives, with exactly its bytes
(`reassembly`).

`PartsOf content d` is the state of an unfinished download: its parts are
pieces of the content under distinct indices. `add_partsOf` keeps it under one
more chunk, `full_iff` counts, and `merged_eq` is the merge loop on a full set
of parts. `arrive_cases` says what one arrival does, and `follows_arrivals` is
the induction over the arrivals.
-/

namespace FaceTracking.MobileClient

open Lib Proto
open ClientSession (chunkCount)

/-! ## Parts of a content -/

namespace Download

def indices (d : Download) : List Nat := d.parts.map Part.idx

/-- The parts are distinct pieces of the content. -/
structure PartsOf (content : Bytes) (d : Download) : Prop where
  total : d.total = pieceCount kChunkSize content
  received : d.received = d.parts.length
  nodup : d.indices.Nodup
  part : ∀ p ∈ d.parts, p.idx < d.total ∧ p.bytes = piece kChunkSize content p.idx

variable {content : Bytes} {d : Download}

theorem PartsOf.empty (name : String) (content : Bytes) :
    PartsOf content ⟨name, pieceCount kChunkSize content, [], 0⟩ :=
  ⟨rfl, rfl, List.nodup_nil, fun _ h => nomatch h⟩

theorem PartsOf.index_lt (h : PartsOf content d) {i : Nat} (hi : i ∈ d.indices) : i < d.total := by
  obtain ⟨p, hp, rfl⟩ := List.mem_map.mp hi
  exact (h.part p hp).1

theorem any_idx_iff (d : Download) (i : Nat) :
    d.parts.any (fun p => p.idx == i) = true ↔ i ∈ d.indices := by
  simp [indices, List.mem_map]

/-- Adding a chunk of the file keeps its parts and adds the index. -/
theorem PartsOf.add (h : PartsOf content d) {i : Nat} (hi : i < d.total) (via : Nat) :
    PartsOf content (d.add i (piece kChunkSize content i) via) ∧
      ∀ j, j ∈ (d.add i (piece kChunkSize content i) via).indices ↔ j ∈ d.indices ∨ j = i := by
  unfold Download.add
  by_cases hany : d.parts.any (fun p => p.idx == i) = true
  · have hmem := (any_idx_iff d i).mp hany
    rw [if_pos hany]
    refine ⟨h, fun j => ⟨Or.inl, ?_⟩⟩
    rintro (hj | rfl)
    · exact hj
    · exact hmem
  · have hmem : i ∉ d.indices := fun hm => hany ((any_idx_iff d i).mpr hm)
    rw [if_neg hany]
    have hindices : ∀ p : Part, indices { d with parts := d.parts ++ [p], received := d.received + 1 } =
        d.indices ++ [p.idx] := fun p => List.map_append
    refine ⟨⟨h.total, ?_, ?_, ?_⟩, fun j => ?_⟩
    · change d.received + 1 = _
      rw [h.received, List.length_append]
      rfl
    · rw [hindices]
      exact h.nodup.append (List.nodup_singleton i) (by simpa using hmem)
    · intro p hp
      rcases List.mem_append.mp hp with hp | hp
      · exact h.part p hp
      · rw [List.mem_singleton.mp hp]
        exact ⟨hi, rfl⟩
    · rw [hindices, List.mem_append, List.mem_singleton]

/-- Counting distinct indices tells whether they are all there. -/
theorem PartsOf.full_iff (h : PartsOf content d) :
    d.received ≥ d.total ↔ ∀ i < d.total, i ∈ d.indices := by
  have hlen : d.indices.length = d.received := by
    rw [h.received, indices, List.length_map]
  constructor
  · intro hfull i hi
    exact mem_of_nodup_of_length h.nodup (fun j hj => h.index_lt hj) (by omega) hi
  · intro hall
    have hsub : List.range d.total ⊆ d.indices := fun i hi => hall i (List.mem_range.mp hi)
    have hle := (List.nodup_range.subperm hsub).length_le
    rwa [List.length_range, hlen] at hle

/-! ## The merge loop -/

/-- Writing at the end of what is there appends. -/
theorem setAt_append (front rest part : Bytes) :
    setAt (front ++ rest) part front.length = front ++ part ++ rest.drop part.length := by
  rw [setAt, List.take_left, ← List.drop_drop, List.drop_left]

theorem PartsOf.part?_eq (h : PartsOf content d) {i : Nat} (hi : i ∈ d.indices) :
    d.part? i = some (piece kChunkSize content i) := by
  have hsome : (d.parts.find? (fun p => p.idx == i)).isSome = true := by
    rw [List.find?_isSome]
    obtain ⟨p, hp, rfl⟩ := List.mem_map.mp hi
    exact ⟨p, hp, by simp⟩
  obtain ⟨p, hp⟩ := Option.isSome_iff_exists.mp hsome
  have hidx : p.idx = i := by simpa using List.find?_some hp
  rw [part?, hp, ← hidx, ← (h.part p (List.mem_of_find?_eq_some hp)).2]
  rfl

/-- The first `n` rounds of the merge write the first `n` chunks if they are
there. -/
theorem PartsOf.mergeSteps (h : PartsOf content d) (n : Nat) (hn : ∀ i < n, i ∈ d.indices) :
    (List.range n).foldl d.mergeStep (List.replicate content.length 0, 0) =
      (content.take (n * kChunkSize) ++
          List.replicate (content.length - (content.take (n * kChunkSize)).length) 0,
        (content.take (n * kChunkSize)).length) := by
  induction n with
  | zero => simp
  | succ n ih =>
    have htake : content.take ((n + 1) * kChunkSize) =
        content.take (n * kChunkSize) ++ piece kChunkSize content n := by
      rw [Nat.add_mul, Nat.one_mul, List.take_add]
      rfl
    rw [List.range_succ, List.foldl_append, ih fun i hi => hn i (by omega), List.foldl_cons,
      List.foldl_nil, mergeStep, h.part?_eq (hn n (by omega)), htake]
    simp only [setAt_append, List.drop_replicate, List.length_append, Nat.sub_sub]

/-- The merge of a full set of parts is the file's content. -/
theorem PartsOf.merged_eq (h : PartsOf content d) (hfull : ∀ i < d.total, i ∈ d.indices) :
    d.merged = content := by
  have hperm : d.indices.Perm (List.range d.total) := by
    rw [List.perm_ext_iff_of_nodup h.nodup List.nodup_range]
    intro i
    rw [List.mem_range]
    exact ⟨fun hi => h.index_lt hi, hfull i⟩
  have hlengths : d.parts.map (fun p => p.bytes.length) =
      d.indices.map fun i => (piece kChunkSize content i).length := by
    rw [indices, List.map_map]
    exact List.map_congr_left fun p hp => congrArg List.length (h.part p hp).2
  have htotal : (d.parts.map fun p => p.bytes.length).sum = content.length := by
    calc (d.parts.map fun p => p.bytes.length).sum
        = ((List.range d.total).map fun i => (piece kChunkSize content i).length).sum := by
          rw [hlengths]
          exact (hperm.map _).sum_eq
      _ = ((List.range d.total).map (piece kChunkSize content)).flatten.length := by
          rw [List.length_flatten, List.map_map]
          rfl
      _ = content.length := by
          rw [h.total, flatten_pieces (by decide)]
  have hall : content.take (d.total * kChunkSize) = content := by
    rw [h.total]
    exact List.take_of_length_le (length_le_pieceCount (by decide) content)
  unfold merged
  simp only [htotal]
  -- the last round has no zeros left to overwrite
  rw [h.mergeSteps d.total hfull, hall]
  simp

end Download

/-! ## Reading a chunk -/

section Chunk

variable {name : Bytes} (total idx : UInt32) (chunk : Bytes)

theorem parseFileData_payload (decode : Bytes → String) (hlen : name.length ≤ 255) :
    parseFileData decode (fileDataPayload name total idx chunk) =
      some ⟨idx.toNat, total.toNat, decode name, chunk⟩ := by
  have hlength := length_fileDataPayload name total idx chunk
  have hidx : getUint32 (fileDataPayload name total idx chunk) 0 = idx.toNat :=
    beNat_take (show fileDataPayload name total idx chunk = _ from rfl) idx.toNat_lt
  have htotal : getUint32 (fileDataPayload name total idx chunk) 4 = total.toNat :=
    beNat_take (fileDataPayload_drop4 name total idx chunk) total.toNat_lt
  unfold parseFileData
  rw [fileDataPayload_nameLen name total idx chunk hlen, if_neg (by omega)]
  simp only [hidx, htotal, fileDataPayload_name, fileDataPayload_bytes]
  rw [if_neg (by omega)]

end Chunk

namespace Client

variable {ν : Type} (Wb : Web ν)

theorem onMessage_fileData (c : Client) (i : Nat) (now : ℚ) {name : Bytes}
    (hlen : name.length ≤ 255) (total idx : UInt32) {chunk : Bytes}
    (hchunk : chunk.length ≤ kChunkSize) :
    c.onMessage Wb i now (fileDataMessage name total idx chunk).wire =
      c.onFileData Wb i (fileDataPayload name total idx chunk) := by
  have hlt : (fileDataMessage name total idx chunk).payload.length < 2 ^ 32 := by
    change (fileDataPayload name total idx chunk).length < 2 ^ 32
    rw [length_fileDataPayload]
    have hsize : kChunkSize = 32768 := rfl
    omega
  obtain ⟨hheader, hpayload⟩ := decodeHeader_wire (fileDataMessage name total idx chunk) hlt
  unfold onMessage
  rw [hheader]
  simp only [hpayload]
  rfl

/-- A chunk is added to the download of its name, and the last one saves it. -/
theorem onFileData_chunk (c : Client) (i : Nat) {name : Bytes} {u : String} (hu : Wb.decode name = u)
    (hlen : name.length ≤ 255) {total : UInt32} (htotal : total ≠ 0) (idx : UInt32) (chunk : Bytes) :
    c.onFileData Wb i (fileDataPayload name total idx chunk) =
      let others := c.store.downloads.filter (fun d => d.1 != u)
      let dl := ((c.store.downloads.lookup u).getD ⟨u, total.toNat, [], 0⟩).add idx.toNat chunk i
      if dl.received ≥ dl.total then (c.setDownloads others).saveBlob u dl.merged
      else c.setDownloads ((u, dl) :: others) := by
  have hne : total.toNat ≠ 0 := fun h => htotal (UInt32.toNat_inj.mp h)
  unfold onFileData
  rw [parseFileData_payload total idx chunk Wb.decode hlen]
  simp only [hu]
  rw [if_neg hne]

/-- A reply without a chunk saves nothing and reports an error. -/
theorem onFileData_zero (c : Client) (i : Nat) {name : Bytes} (hlen : name.length ≤ 255) :
    c.onFileData Wb i (fileDataPayload name 0 0 []) =
      { c with store :=
        { c.store with
          downloads := c.store.downloads.filter (fun d => d.1 != Wb.decode name)
          error := "File not found: " ++ Wb.decode name } } := by
  unfold onFileData
  rw [parseFileData_payload 0 0 [] Wb.decode hlen]
  rfl

/-! ## Files on their way -/

/-- A file that is being served: the session that sends it, the bytes of its
name and its content. -/
structure Served (κ ψ : Type) where
  session : ClientSession κ ψ
  name : Bytes
  content : Bytes

/-- A message arrives: chunk `idx` of a file, at a time. -/
structure Arrival (ι : Type) where
  file : ι
  idx : Nat
  now : ℚ

section Files

variable {κ ψ ι : Type} (W : World κ) (Sh : Shared ψ)

/-- The messages that `sendFile` sends for the file. -/
def Served.frames (f : Served κ ψ) : List Bytes := sends (replyEvents W Sh f.session f.name)

/-- The read gives the content, every send succeeds, and the chunks can be counted. -/
structure Served.Ok (f : Served κ ψ) : Prop where
  name_le : f.name.length ≤ 255
  nonempty : f.content ≠ []
  fits : f.content.length ≤ kMaxContent
  read : (Sh.read f.session.shared f.name).1 = some f.content
  sent : AllSent (replyEvents W Sh f.session f.name)

variable (F : ι → Served κ ψ) (sock : Nat)

/-- All chunks of the file are among the arrivals. -/
def Complete (as : List (Arrival ι)) (k : ι) : Prop :=
  ∀ i < ((F k).frames W Sh).length, ∃ a ∈ as, a.file = k ∧ a.idx = i

/-- Only chunks that exist arrive, and none of a file that is complete. -/
def Orderly (as : List (Arrival ι)) : Prop :=
  ∀ n (h : n < as.length), as[n].idx < ((F as[n].file).frames W Sh).length ∧
    ¬ Complete W Sh F (as.take n) as[n].file

instance [DecidableEq ι] (as : List (Arrival ι)) (k : ι) : Decidable (Complete W Sh F as k) :=
  inferInstanceAs (Decidable (∀ i < _, _))

instance [DecidableEq ι] (as : List (Arrival ι)) : Decidable (Orderly W Sh F as) :=
  inferInstanceAs (Decidable (∀ n (_ : n < as.length), _))

/-- One arrival on the socket `sock`. -/
def arrive (c : Client) (a : Arrival ι) : Client :=
  c.onMessage Wb sock a.now (((F a.file).frames W Sh).getD a.idx [])

def arrivals (c : Client) (as : List (Arrival ι)) : Client := as.foldl (arrive Wb W Sh F sock) c

variable {W Sh F}

theorem Served.Ok.frames_eq {f : Served κ ψ} (h : f.Ok W Sh) :
    f.frames W Sh = (List.range (pieceCount kChunkSize f.content)).map fun i =>
      (fileDataMessage f.name (chunkCount (some f.content)) (UInt32.ofNat i)
        (FaceTracking.chunk f.content i)).wire := by
  rw [frames, sends_replyEvents W Sh f.session h.name_le h.sent, h.read,
    fileData_some f.name h.nonempty h.fits, List.map_map]
  rfl

theorem Served.Ok.length_frames {f : Served κ ψ} (h : f.Ok W Sh) :
    (f.frames W Sh).length = pieceCount kChunkSize f.content := by
  rw [h.frames_eq, List.length_map, List.length_range]

/-- The client's name for a file. -/
def Served.text (f : Served κ ψ) : String := Wb.decode f.name

/-- The download of a file, as far as it has got. -/
def progress (c : Client) (f : Served κ ψ) : Download :=
  (c.store.downloads.lookup (f.text Wb)).getD
    ⟨f.text Wb, pieceCount kChunkSize f.content, [], 0⟩

/-- The client's downloads are what the arrivals make them. -/
structure Follows (Wb : Web ν) (W : World κ) (Sh : Shared ψ) (F : ι → Served κ ψ)
    (as : List (Arrival ι)) (c : Client) (k : ι) : Prop where
  complete : Complete W Sh F as k → c.store.downloads.lookup ((F k).text Wb) = none
  partsOf : ¬ Complete W Sh F as k → (c.progress Wb (F k)).PartsOf (F k).content
  indices : ¬ Complete W Sh F as k →
    ∀ i, i ∈ (c.progress Wb (F k)).indices ↔ ∃ a ∈ as, a.file = k ∧ a.idx = i

/-- An arrival saves the file if it was the last chunk missing, and notes the
chunk otherwise. -/
theorem arrive_eq {a : Arrival ι}
    (hok : (F a.file).Ok W Sh) (hidx : a.idx < ((F a.file).frames W Sh).length) (c : Client)
    {dl : Download}
    (hdl : (c.progress Wb (F a.file)).add a.idx (piece kChunkSize (F a.file).content a.idx) sock = dl) :
    arrive Wb W Sh F sock c a =
      if dl.received ≥ dl.total then
        (c.setDownloads (c.store.downloads.filter fun d => d.1 != (F a.file).text Wb)).saveBlob
          ((F a.file).text Wb) dl.merged
      else
        c.setDownloads (((F a.file).text Wb, dl) ::
          c.store.downloads.filter fun d => d.1 != (F a.file).text Wb) := by
  have hcount := toNat_chunkCount hok.nonempty hok.fits
  have hlt : a.idx < pieceCount kChunkSize (F a.file).content := hok.length_frames ▸ hidx
  -- the index survives its 32-bit field
  have htoNat : (UInt32.ofNat a.idx).toNat = a.idx := by
    have hle := (chunkCount (some (F a.file).content)).toNat_lt
    rw [UInt32.toNat_ofNat', Nat.mod_eq_of_lt (by omega)]
  have hframe : ((F a.file).frames W Sh).getD a.idx [] =
      (fileDataMessage (F a.file).name (chunkCount (some (F a.file).content))
        (UInt32.ofNat a.idx) (FaceTracking.chunk (F a.file).content a.idx)).wire := by
    rw [hok.frames_eq]
    simp [hlt]
  have hchunk : (FaceTracking.chunk (F a.file).content a.idx).length ≤ kChunkSize :=
    List.length_take_le _ _
  rw [arrive, hframe, onMessage_fileData Wb c sock a.now hok.name_le _ _ hchunk,
    onFileData_chunk Wb c sock rfl hok.name_le
      (chunkCount_ne_zero hok.nonempty hok.fits), htoNat, hcount, ← hdl]
  rfl

theorem exists_mem_concat {as : List (Arrival ι)} {a : Arrival ι} {k : ι} {i : Nat} :
    (∃ b ∈ as ++ [a], b.file = k ∧ b.idx = i) ↔
      (∃ b ∈ as, b.file = k ∧ b.idx = i) ∨ (a.file = k ∧ a.idx = i) := by
  simp only [List.mem_append, List.mem_singleton, or_and_right, exists_or, exists_eq_left]

/-- **One arrival** either completes its file, which is saved, or adds to its
download. -/
theorem arrive_cases {as : List (Arrival ι)}
    {c : Client} {a : Arrival ι} (hok : (F a.file).Ok W Sh) (hc : Follows Wb W Sh F as c a.file)
    (hidx : a.idx < ((F a.file).frames W Sh).length) (hopen : ¬ Complete W Sh F as a.file) :
    (Complete W Sh F (as ++ [a]) a.file ∧
        arrive Wb W Sh F sock c a =
          (c.setDownloads (c.store.downloads.filter fun d => d.1 != (F a.file).text Wb)).saveBlob
            ((F a.file).text Wb) (F a.file).content) ∨
      (¬ Complete W Sh F (as ++ [a]) a.file ∧
        ∃ dl : Download, dl.PartsOf (F a.file).content ∧
          (∀ i, i ∈ dl.indices ↔ ∃ b ∈ as ++ [a], b.file = a.file ∧ b.idx = i) ∧
          arrive Wb W Sh F sock c a =
            c.setDownloads (((F a.file).text Wb, dl) ::
              c.store.downloads.filter fun d => d.1 != (F a.file).text Wb)) := by
  have hlen := hok.length_frames
  have hbefore := hc.partsOf hopen
  have htotal := hbefore.total
  obtain ⟨hparts, hmem⟩ := hbefore.add (show a.idx < _ by omega) sock
  obtain ⟨dl, hdl⟩ : ∃ dl, (c.progress Wb (F a.file)).add a.idx
      (piece kChunkSize (F a.file).content a.idx) sock = dl := ⟨_, rfl⟩
  have hstep := arrive_eq Wb sock hok hidx c hdl
  rw [hdl] at hparts hmem
  have hindices : ∀ i, i ∈ dl.indices ↔ ∃ b ∈ as ++ [a], b.file = a.file ∧ b.idx = i := by
    intro i
    rw [hmem, hc.indices hopen, exists_mem_concat]
    constructor
    · rintro (h | rfl)
      · exact .inl h
      · exact .inr ⟨rfl, rfl⟩
    · rintro (h | ⟨-, rfl⟩)
      · exact .inl h
      · exact .inr rfl
  have hfull : dl.received ≥ dl.total ↔ Complete W Sh F (as ++ [a]) a.file := by
    rw [hparts.full_iff, hparts.total, Complete, hlen]
    exact forall₂_congr fun i _ => hindices i
  by_cases hcomplete : Complete W Sh F (as ++ [a]) a.file
  · refine .inl ⟨hcomplete, ?_⟩
    have hge := hfull.mpr hcomplete
    rw [hstep, if_pos hge, hparts.merged_eq (hparts.full_iff.mp hge)]
  · refine .inr ⟨hcomplete, dl, hparts, hindices, ?_⟩
    rw [hstep, if_neg fun hge => hcomplete (hfull.mp hge)]

/-! ## Looking up downloads -/

theorem lookup_filter_self (ds : List (String × Download)) (u : String) :
    (ds.filter fun d => d.1 != u).lookup u = none := by
  rw [List.lookup_eq_none_iff]
  intro d hd
  have hne : d.1 ≠ u := by simpa using (List.mem_filter.mp hd).2
  simpa using hne.symm

theorem lookup_filter_ne (ds : List (String × Download)) {u v : String} (h : v ≠ u) :
    (ds.filter fun d => d.1 != u).lookup v = ds.lookup v := by
  induction ds with
  | nil => rfl
  | cons d ds ih =>
    by_cases hd : d.1 = u
    · have hv : (v == d.1) = false := by simpa [hd] using h
      rw [List.filter_cons_of_neg (by simp [hd]), ih, List.lookup_cons, hv]
    · rw [List.filter_cons_of_pos (by simp [hd]), List.lookup_cons, List.lookup_cons, ih]

/-- An arrival leaves the downloads of other names alone. -/
theorem arrive_lookup_ne {as : List (Arrival ι)} {c : Client} {a : Arrival ι} (hok : (F a.file).Ok W Sh)
    (hc : Follows Wb W Sh F as c a.file) (hidx : a.idx < ((F a.file).frames W Sh).length)
    (hopen : ¬ Complete W Sh F as a.file) {u : String} (hu : u ≠ (F a.file).text Wb) :
    (arrive Wb W Sh F sock c a).store.downloads.lookup u = c.store.downloads.lookup u := by
  have hne : (u == (F a.file).text Wb) = false := by simpa using hu
  obtain ⟨-, hstep⟩ | ⟨-, dl, -, -, hstep⟩ :=
    arrive_cases Wb sock hok hc hidx hopen
  · rw [hstep]
    exact lookup_filter_ne _ hu
  · rw [hstep]
    change List.lookup u (_ :: _) = _
    rw [List.lookup_cons, hne]
    exact lookup_filter_ne _ hu

/-! ## Any order of arrivals -/

section Arrivals

variable (hnames : ∀ k k', (F k).text Wb = (F k').text Wb → k = k') (hok : ∀ k, (F k).Ok W Sh)
include hnames hok

/-- An arrival at an incomplete file leaves the client following the arrivals.
-/
theorem Follows.arrive {as : List (Arrival ι)} {c : Client} (hc : ∀ k, Follows Wb W Sh F as c k)
    {a : Arrival ι} (hidx : a.idx < ((F a.file).frames W Sh).length)
    (hopen : ¬ Complete W Sh F as a.file) (k : ι) :
    Follows Wb W Sh F (as ++ [a]) (Client.arrive Wb W Sh F sock c a) k := by
  by_cases hk : k = a.file
  · subst hk
    -- the file's own download: saved and gone, or one part longer
    obtain ⟨hcomplete, hstep⟩ | ⟨hcomplete, dl, hparts, hindices, hstep⟩ :=
      arrive_cases Wb sock (hok a.file) (hc a.file) hidx hopen
    · refine ⟨fun _ => ?_, fun h => absurd hcomplete h, fun h => absurd hcomplete h⟩
      rw [hstep]
      exact lookup_filter_self _ _
    · have hprogress : (Client.arrive Wb W Sh F sock c a).progress Wb (F a.file) = dl := by
        rw [hstep, progress]
        change (List.lookup _ (_ :: _)).getD _ = dl
        rw [List.lookup_cons_self]
        rfl
      refine ⟨fun h => absurd h hcomplete, fun _ => ?_, fun _ => ?_⟩
      · rw [hprogress]
        exact hparts
      · rw [hprogress]
        exact hindices
  -- another file has another name, so its entry of the map is not touched
  · have hlookup : (Client.arrive Wb W Sh F sock c a).store.downloads.lookup ((F k).text Wb) =
        c.store.downloads.lookup ((F k).text Wb) :=
      arrive_lookup_ne Wb sock (hok a.file) (hc a.file) hidx hopen
        fun h => hk (hnames k a.file h)
    have hprogress : (Client.arrive Wb W Sh F sock c a).progress Wb (F k) = c.progress Wb (F k) := by
      rw [progress, hlookup, progress]
    have hmem : ∀ i, (∃ b ∈ as ++ [a], b.file = k ∧ b.idx = i) ↔
        ∃ b ∈ as, b.file = k ∧ b.idx = i := by
      intro i
      rw [exists_mem_concat]
      exact or_iff_left fun h => hk h.1.symm
    have hcomplete : Complete W Sh F (as ++ [a]) k ↔ Complete W Sh F as k :=
      forall₂_congr fun i _ => hmem i
    refine ⟨fun h => ?_, fun h => ?_, fun h i => ?_⟩
    · rw [hlookup]
      exact (hc k).complete (hcomplete.mp h)
    · rw [hprogress]
      exact (hc k).partsOf (fun h' => h (hcomplete.mpr h'))
    · rw [hprogress, hmem]
      exact (hc k).indices (fun h' => h (hcomplete.mpr h')) i

omit hnames hok in
theorem Orderly.take {as as' : List (Arrival ι)} (h : Orderly W Sh F (as ++ as')) :
    Orderly W Sh F as := by
  intro n hn
  have hn' : n < (as ++ as').length := by
    rw [List.length_append]
    omega
  have hget : (as ++ as')[n] = as[n] := List.getElem_append_left hn
  have htake : (as ++ as').take n = as.take n := List.take_append_of_le_length (by omega)
  have hrest := h n hn'
  rwa [hget, htake] at hrest

omit hnames hok in
theorem Orderly.last {as : List (Arrival ι)} {a : Arrival ι} (h : Orderly W Sh F (as ++ [a])) :
    a.idx < ((F a.file).frames W Sh).length ∧ ¬ Complete W Sh F as a.file := by
  have hlast := h as.length (by simp)
  simpa using hlast

/-- In a run of arrivals the client follows them. -/
theorem follows_arrivals {c : Client}
    (hc : ∀ k, c.store.downloads.lookup ((F k).text Wb) = none) (as : List (Arrival ι))
    (has : Orderly W Sh F as) (k : ι) :
    Follows Wb W Sh F as (arrivals Wb W Sh F sock c as) k := by
  induction as using List.reverseRecOn generalizing k with
  | nil =>
    have hprogress : c.progress Wb (F k) =
        ⟨(F k).text Wb, pieceCount kChunkSize (F k).content, [], 0⟩ := by
      rw [progress, hc k]
      rfl
    refine ⟨fun _ => hc k, fun _ => ?_, fun _ i => ?_⟩
    · change (c.progress Wb (F k)).PartsOf _
      rw [hprogress]
      exact .empty _ _
    · change i ∈ (c.progress Wb (F k)).indices ↔ _
      rw [hprogress]
      simp [Download.indices]
  | append_singleton as a ih =>
    obtain ⟨hidx, hopen⟩ := has.last
    rw [arrivals, List.foldl_append]
    exact Follows.arrive Wb sock hnames hok (ih has.take) hidx hopen k

/-- In any order of arrivals, the last missing chunk of a file
saves it, with its name and its bytes, and ends its download; any other chunk
saves nothing; and the downloads of all other names stay as they are. -/
theorem arrivals_concat {c : Client} (hc : ∀ k, c.store.downloads.lookup ((F k).text Wb) = none)
    (as : List (Arrival ι)) (a : Arrival ι) (has : Orderly W Sh F (as ++ [a])) :
    (Complete W Sh F (as ++ [a]) a.file →
        (arrivals Wb W Sh F sock c (as ++ [a])).browser.saved =
            (arrivals Wb W Sh F sock c as).browser.saved ++ [((F a.file).text Wb, (F a.file).content)] ∧
          (arrivals Wb W Sh F sock c (as ++ [a])).store.downloads.lookup ((F a.file).text Wb) = none) ∧
      (¬ Complete W Sh F (as ++ [a]) a.file →
        (arrivals Wb W Sh F sock c (as ++ [a])).browser.saved =
            (arrivals Wb W Sh F sock c as).browser.saved ∧
          ((arrivals Wb W Sh F sock c (as ++ [a])).store.downloads.lookup ((F a.file).text Wb)).isSome) ∧
      ∀ u ≠ (F a.file).text Wb,
        (arrivals Wb W Sh F sock c (as ++ [a])).store.downloads.lookup u =
          (arrivals Wb W Sh F sock c as).store.downloads.lookup u := by
  obtain ⟨hidx, hopen⟩ := has.last
  have hfollows := follows_arrivals Wb sock hnames hok hc as has.take
  have hlast : arrivals Wb W Sh F sock c (as ++ [a]) =
      Client.arrive Wb W Sh F sock (arrivals Wb W Sh F sock c as) a := by
    rw [arrivals, List.foldl_append]
    rfl
  rw [hlast]
  refine ⟨fun hcomplete => ?_, fun hcomplete => ?_, fun u hu => ?_⟩
  · obtain ⟨-, hstep⟩ | ⟨h, -⟩ :=
      arrive_cases Wb sock (hok a.file) (hfollows a.file) hidx hopen
    · rw [hstep]
      exact ⟨rfl, lookup_filter_self _ _⟩
    · exact absurd hcomplete h
  · obtain ⟨h, -⟩ | ⟨-, dl, -, -, hstep⟩ :=
      arrive_cases Wb sock (hok a.file) (hfollows a.file) hidx hopen
    · exact absurd h hcomplete
    · rw [hstep]
      refine ⟨rfl, ?_⟩
      change (List.lookup _ (_ :: _)).isSome = true
      rw [List.lookup_cons_self]
      rfl
  · exact arrive_lookup_ne Wb sock (hok a.file) (hfollows a.file) hidx hopen hu

end Arrivals

/-- **Reassembly**: however the chunks of the files are ordered, mixed and
repeated, the last missing chunk of a file saves it, with its name and its
bytes, and ends its download; any other chunk saves nothing; and the downloads
of all other names stay as they are. -/
theorem reassembly (hdecode : ∀ u, NoBom u → Wb.decode (utf8 u) = u) (names : ι → String)
    (hname : ∀ k, (F k).name = utf8 (names k) ∧ NoBom (names k)) (hinj : Function.Injective names)
    (hok : ∀ k, (F k).Ok W Sh) {c : Client} (hc : ∀ k, c.store.downloads.lookup (names k) = none)
    (as : List (Arrival ι)) (a : Arrival ι) (has : Orderly W Sh F (as ++ [a])) :
    (Complete W Sh F (as ++ [a]) a.file →
        (arrivals Wb W Sh F sock c (as ++ [a])).browser.saved =
            (arrivals Wb W Sh F sock c as).browser.saved ++ [(names a.file, (F a.file).content)] ∧
          (arrivals Wb W Sh F sock c (as ++ [a])).store.downloads.lookup (names a.file) = none) ∧
      (¬ Complete W Sh F (as ++ [a]) a.file →
        (arrivals Wb W Sh F sock c (as ++ [a])).browser.saved =
            (arrivals Wb W Sh F sock c as).browser.saved ∧
          ((arrivals Wb W Sh F sock c (as ++ [a])).store.downloads.lookup (names a.file)).isSome) ∧
      ∀ u ≠ names a.file,
        (arrivals Wb W Sh F sock c (as ++ [a])).store.downloads.lookup u =
          (arrivals Wb W Sh F sock c as).store.downloads.lookup u := by
  have htext : ∀ k, (F k).text Wb = names k := by
    intro k
    rw [Served.text, (hname k).1]
    exact hdecode _ (hname k).2
  have hdistinct : ∀ k k', (F k).text Wb = (F k').text Wb → k = k' := by
    intro k k' h
    rw [htext, htext] at h
    exact hinj h
  have hfresh : ∀ k, c.store.downloads.lookup ((F k).text Wb) = none := by
    intro k
    rw [htext]
    exact hc k
  have hlast := arrivals_concat Wb sock hdistinct hok hfresh as a has
  rwa [htext] at hlast

end Files

/-! ## Fixed files -/

/-- A browser that decodes UTF-8. -/
def utf8Web : Web Unit where
  decode b := (decodeUtf8? b).getD ""
  parseFileList _ := []
  parseDeleteOk _ := false
  stringify _ := utf8 "0"
  neg _ := ()
  timesAimMaxDeg _ := ()

theorem utf8Web_decode (u : String) : utf8Web.decode (utf8 u) = u := by
  change (decodeUtf8? (utf8 u)).getD "" = u
  rw [decodeUtf8?_utf8]
  rfl

def twoNames (k : Bool) : String := if k then "a.jpg" else "b.jpg"

/-- The first file has two chunks, the second has one. -/
def twoContents (k : Bool) : Bytes := if k then twoChunks else [4]

def twoFiles : Shared Unit :=
  .holding [(utf8 "a.jpg", twoContents true), (utf8 "b.jpg", twoContents false)]

def twoServed (k : Bool) : Served Unit Unit := ⟨idleCall, utf8 (twoNames k), twoContents k⟩

/-- The first file's last chunk comes first, and once more behind the other file. -/
def mixed : List (Arrival Bool) := [⟨true, 1, 0⟩, ⟨false, 0, 1⟩, ⟨true, 1, 2⟩]

theorem reassembly_two :
    (arrivals utf8Web listeningWorld twoFiles twoServed 0 fresh
        (mixed ++ [⟨true, 0, 3⟩])).browser.saved =
      (arrivals utf8Web listeningWorld twoFiles twoServed 0 fresh mixed).browser.saved ++
        [("a.jpg", twoChunks)] := by
  have hname : ∀ k, (twoServed k).name = utf8 (twoNames k) ∧ NoBom (twoNames k) := by decide +kernel
  have hlength : ∀ k, (twoServed k).name.length ≤ 255 := by decide +kernel
  have hok : ∀ k, (twoServed k).Ok listeningWorld twoFiles := by
    intro k
    have hsent := allSent_listening twoFiles (twoServed k).session (hlength k)
    cases k with
    | true => exact ⟨hlength true, twoChunks_ne_nil, twoChunks_le, rfl, hsent⟩
    | false => exact ⟨hlength false, List.cons_ne_nil _ _, by decide, rfl, hsent⟩
  have hframes : ∀ k,
      ((twoServed k).frames listeningWorld twoFiles).length = if k then 2 else 1 := by
    intro k
    rw [(hok k).length_frames]
    cases k with
    | true => exact pieceCount_twoChunks
    | false => decide
  have hinj : Function.Injective twoNames := by decide +kernel
  have horderly : Orderly listeningWorld twoFiles twoServed (mixed ++ [⟨true, 0, 3⟩]) := by
    unfold Orderly Complete
    simp only [hframes]
    decide
  have hcomplete : Complete listeningWorld twoFiles twoServed (mixed ++ [⟨true, 0, 3⟩]) true := by
    unfold Complete
    simp only [hframes]
    decide
  exact ((reassembly utf8Web 0 (fun u _ => utf8Web_decode u) twoNames hname hinj hok (fun _ => rfl)
    mixed ⟨true, 0, 3⟩ horderly).1 hcomplete).1

end Client

end FaceTracking.MobileClient
