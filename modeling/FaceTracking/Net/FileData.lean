import FaceTracking.Lib.Pieces
import FaceTracking.Net.ClientSession

/-!
# FILE_DATA messages

What `sendFile` sends, as a list of messages: `fileData name outcome` for the
outcome of the read. `sendFile_trace` is the link to the session: when every
send succeeds, the calls of `conn_->send` are these messages, in order.

The chunk count on the wire is a `uint32_t`; contents up to `kMaxContent` bytes
have a count it can hold.
-/

namespace FaceTracking

open Lib Proto ClientSession

/-! ## Payloads -/

/-- Index, count, one byte of name length, the name and the bytes of the chunk. -/
def fileDataPayload (name : Bytes) (total idx : UInt32) (chunk : Bytes) : Bytes :=
  beBytes 4 idx.toNat ++ (beBytes 4 total.toNat ++ (UInt8.ofNat name.length :: (name ++ chunk)))

def fileDataMessage (name : Bytes) (total idx : UInt32) (chunk : Bytes) : Message :=
  ⟨MsgType.FileData.code, 0, fileDataPayload name total idx chunk⟩

theorem buildChunk_eq (name : Bytes) (total idx : UInt32) (chunk : Bytes) :
    buildChunk name total idx chunk = (fileDataMessage name total idx chunk).wire := by
  unfold buildChunk fileDataMessage fileDataPayload Message.wire
  simp only [putU32_eq, List.nil_append, List.append_assoc, List.cons_append]

section Fields

variable (name : Bytes) (total idx : UInt32) (chunk : Bytes)

theorem length_fileDataPayload :
    (fileDataPayload name total idx chunk).length = 9 + name.length + chunk.length := by
  simp only [fileDataPayload, List.length_append, List.length_cons, length_beBytes]
  omega

theorem fileDataPayload_drop4 :
    (fileDataPayload name total idx chunk).drop 4 =
      beBytes 4 total.toNat ++ (UInt8.ofNat name.length :: (name ++ chunk)) :=
  List.drop_left' (length_beBytes 4 _)

theorem fileDataPayload_drop8 :
    (fileDataPayload name total idx chunk).drop 8 =
      UInt8.ofNat name.length :: (name ++ chunk) := by
  rw [show 8 = 4 + 4 from rfl, ← List.drop_drop, fileDataPayload_drop4]
  exact List.drop_left' (length_beBytes 4 _)

theorem fileDataPayload_drop9 :
    (fileDataPayload name total idx chunk).drop 9 = name ++ chunk := by
  rw [show 9 = 8 + 1 from rfl, ← List.drop_drop, fileDataPayload_drop8]
  rfl

theorem fileDataPayload_nameLen (h : name.length ≤ 255) :
    (byteAt (fileDataPayload name total idx chunk) 8).toNat = name.length := by
  have hbyte : byteAt (fileDataPayload name total idx chunk) 8 =
      byteAt ((fileDataPayload name total idx chunk).drop 8) 0 := by
    simp [byteAt]
  rw [hbyte, fileDataPayload_drop8]
  change (UInt8.ofNat name.length).toNat = name.length
  rw [UInt8.toNat_ofNat', Nat.mod_eq_of_lt (by omega)]

theorem fileDataPayload_name :
    ((fileDataPayload name total idx chunk).drop 9).take name.length = name := by
  rw [fileDataPayload_drop9]
  exact List.take_left

theorem fileDataPayload_bytes :
    (fileDataPayload name total idx chunk).drop (9 + name.length) = chunk := by
  rw [← List.drop_drop, fileDataPayload_drop9]
  exact List.drop_left

end Fields

/-! ## The messages for a read outcome -/

/-- The longest content whose chunk count fits the wire: 128 TiB, more than a read
can hold. -/
def kMaxContent : Nat := (2 ^ 32 - 1) * kChunkSize

/-- The chunks a content is sent in. -/
def chunk (content : Bytes) (i : Nat) : Bytes := piece kChunkSize content i

/-- The messages of one reply: a chunk each, or one empty chunk with count 0. -/
def fileData (name : Bytes) (outcome : Option Bytes) : List Message :=
  if chunkCount outcome = 0 then [fileDataMessage name 0 0 []]
  else (List.range (chunkCount outcome).toNat).map fun i =>
    fileDataMessage name (chunkCount outcome) (UInt32.ofNat i) (chunk (outcome.getD []) i)

theorem toNat_chunkCount {content : Bytes} (hne : content ≠ []) (h : content.length ≤ kMaxContent) :
    (chunkCount (some content)).toNat = pieceCount kChunkSize content := by
  have hle : pieceCount kChunkSize content ≤ 2 ^ 32 - 1 :=
    (pieceCount_le_iff (by decide) content _).mpr h
  have hempty : content.isEmpty = false := by simpa using hne
  rw [chunkCount, hempty]
  simp only [Bool.false_eq_true, if_false, UInt32.toNat_ofNat']
  exact Nat.mod_eq_of_lt (show pieceCount kChunkSize content < 2 ^ 32 by omega)

theorem chunkCount_ne_zero {content : Bytes} (hne : content ≠ [])
    (h : content.length ≤ kMaxContent) : chunkCount (some content) ≠ 0 := by
  intro hzero
  have hpos := pieceCount_pos (k := kChunkSize) (by decide) hne
  rw [← toNat_chunkCount hne h, hzero] at hpos
  exact absurd hpos (by decide)

theorem fileData_some (name : Bytes) {content : Bytes} (hne : content ≠ [])
    (h : content.length ≤ kMaxContent) :
    fileData name (some content) = (List.range (pieceCount kChunkSize content)).map fun i =>
      fileDataMessage name (chunkCount (some content)) (UInt32.ofNat i) (chunk content i) := by
  rw [fileData, if_neg (chunkCount_ne_zero hne h), toNat_chunkCount hne h]
  rfl

/-! ## The session's sends -/

variable {κ ψ : Type} (W : World κ) (Sh : Shared ψ)

/-- Is the event anything but a send that failed? -/
def succeeded : Event → Bool
  | .send _ ok => ok
  | _ => true

/-- Every send among the events succeeded. -/
def AllSent (t : List Event) : Prop := ∀ e ∈ t, succeeded e = true

instance (t : List Event) : Decidable (AllSent t) := inferInstanceAs (Decidable (∀ e ∈ t, _))

theorem AllSent.tail {e : Event} {t : List Event} (h : AllSent (e :: t)) : AllSent t :=
  fun x hx => h x (List.mem_cons_of_mem e hx)

theorem not_allSent_of_mem {t : List Event} {data : Bytes} (h : Event.send data false ∈ t) :
    ¬ AllSent t :=
  fun hsent => Bool.false_ne_true (hsent _ h)

theorem sendChunks_trace (name bytes : Bytes) (total : UInt32) (l : List Nat)
    (s : ClientSession κ ψ) :
    ∃ t, (sendChunks W name bytes total l s).trace = s.trace ++ t ∧
      (AllSent t → t = l.map fun i =>
        .send (buildChunk name total (UInt32.ofNat i) (piece kChunkSize bytes i)) true) := by
  induction l generalizing s with
  | nil => exact ⟨[], by simp [sendChunks], fun _ => rfl⟩
  | cons i l ih =>
    let msg := buildChunk name total (UInt32.ofNat i) (piece kChunkSize bytes i)
    have hsend : (send W s msg).2.trace = s.trace ++ [.send msg (send W s msg).1] := rfl
    have hstep : sendChunks W name bytes total (i :: l) s =
        if (send W s msg).1 then sendChunks W name bytes total l (send W s msg).2
        else (send W s msg).2 := rfl
    rw [hstep]
    cases hok : (send W s msg).1 with
    | true =>
      obtain ⟨t, ht, hall⟩ := ih (send W s msg).2
      refine ⟨.send msg true :: t, ?_, fun hsent => ?_⟩
      · rw [if_pos rfl, ht, hsend, hok, List.append_assoc]
        rfl
      · rw [hall hsent.tail]
        rfl
    | false =>
      refine ⟨[.send msg false], ?_, fun hsent => absurd hsent (not_allSent_of_mem List.mem_cons_self)⟩
      rw [if_neg Bool.false_ne_true, hsend, hok]

/-- A reply without a chunk is one message, with number and total 0. -/
theorem sendFile_empty (s : ClientSession κ ψ) {name : Bytes} (hname : name.length ≤ 255)
    (hzero : chunkCount (Sh.read s.shared name).1 = 0) :
    sendFile W Sh s name =
      (send W ({ s with shared := (Sh.read s.shared name).2 }.emit (.read name))
        (fileDataMessage name 0 0 []).wire).2 := by
  rw [sendFile, if_neg (by omega)]
  simp only [hzero, if_true, buildChunk_eq]

/-- **The reply to a file request**: when every send of the call succeeds, the
messages sent are those of the read's outcome. -/
theorem sendFile_trace (s : ClientSession κ ψ) {name : Bytes} (hname : name.length ≤ 255) :
    ∃ t, (sendFile W Sh s name).trace = s.trace ++ t ∧
      (AllSent t → t = .read name ::
        (fileData name (Sh.read s.shared name).1).map fun m => .send m.wire true) := by
  let s' : ClientSession κ ψ := { s with shared := (Sh.read s.shared name).2 }.emit (.read name)
  have hread : s'.trace = s.trace ++ [.read name] := rfl
  have hstep : sendFile W Sh s name =
      if chunkCount (Sh.read s.shared name).1 = 0 then
        (send W s' (buildChunk name (chunkCount (Sh.read s.shared name).1) 0 [])).2
      else sendChunks W name ((Sh.read s.shared name).1.getD [])
        (chunkCount (Sh.read s.shared name).1)
        (List.range (chunkCount (Sh.read s.shared name).1).toNat) s' := by
    rw [sendFile, if_neg (by omega)]
  rw [hstep, fileData]
  by_cases hzero : chunkCount (Sh.read s.shared name).1 = 0
  · rw [if_pos hzero, if_pos hzero, hzero]
    have hsend : ∀ b, (send W s' b).2.trace =
        s.trace ++ (.read name :: [.send b (send W s' b).1]) := by
      intro b
      change s'.trace ++ [.send b (send W s' b).1] = _
      rw [hread, List.append_assoc]
      rfl
    refine ⟨_, hsend _, fun hsent => ?_⟩
    cases hok : (send W s' (buildChunk name 0 0 [])).1 with
    | true => rw [buildChunk_eq, List.map_singleton]
    | false =>
      rw [hok] at hsent
      exact absurd hsent (not_allSent_of_mem (List.mem_cons_of_mem _ List.mem_cons_self))
  · rw [if_neg hzero, if_neg hzero]
    obtain ⟨t, ht, hall⟩ := sendChunks_trace W name ((Sh.read s.shared name).1.getD [])
      (chunkCount (Sh.read s.shared name).1)
      (List.range (chunkCount (Sh.read s.shared name).1).toNat) s'
    refine ⟨.read name :: t, ?_, fun hsent => ?_⟩
    · rw [ht, hread, List.append_assoc]
      rfl
    · rw [hall hsent.tail, List.map_map]
      congr 1
      apply List.map_congr_left
      intro i _
      exact congrArg (Event.send · true) (buildChunk_eq _ _ _ _)

/-- What a call of `sendFile` adds to the trace. -/
def replyEvents (s : ClientSession κ ψ) (name : Bytes) : List Event :=
  (sendFile W Sh s name).trace.drop s.trace.length

theorem sends_replyEvents (s : ClientSession κ ψ) {name : Bytes} (hname : name.length ≤ 255)
    (hsent : AllSent (replyEvents W Sh s name)) :
    sends (replyEvents W Sh s name) =
      (fileData name (Sh.read s.shared name).1).map Message.wire := by
  obtain ⟨t, ht, hall⟩ := sendFile_trace W Sh s hname
  have hevents : replyEvents W Sh s name = t := by
    rw [replyEvents, ht, List.drop_left]
  rw [hevents] at hsent ⊢
  rw [hall hsent]
  simp [sends, List.filterMap_map]

/-! ## Fixed terminals -/

/-- A world whose peer takes every buffer and sends nothing. -/
def listeningWorld : World Unit where
  conn :=
    { handshake := fun _ => (true, ())
      recv := fun _ _ => (.error .EAGAIN, ())
      send := fun _ _ => (true, ())
      close := fun _ => ()
      recv_le := fun _ _ _ h => nomatch h }
  nowMs _ := (0, ())
  stopped _ := (false, ())
  poll _ _ := (.timedOut, ())

/-- A terminal whose capture directory reads as given. -/
def Shared.holding (dir : List (Bytes × Bytes)) : Shared Unit :=
  { Shared.empty with read := fun _ name => (dir.lookup name, ()) }

/-- A session that has sent nothing. -/
def idleCall : ClientSession Unit Unit := .create ⟨0, []⟩ () ()

theorem sendChunks_listening {ψ : Type} (name bytes : Bytes) (total : UInt32) (l : List Nat)
    (s : ClientSession Unit ψ) :
    ∃ t, (sendChunks listeningWorld name bytes total l s).trace = s.trace ++ t ∧ AllSent t := by
  induction l generalizing s with
  | nil => exact ⟨[], (List.append_nil _).symm, nofun⟩
  | cons i l ih =>
    let msg := buildChunk name total (UInt32.ofNat i) (piece kChunkSize bytes i)
    obtain ⟨t, ht, hall⟩ := ih (send listeningWorld s msg).2
    refine ⟨.send msg true :: t, ht.trans (List.append_assoc _ _ _), fun e he => ?_⟩
    rcases List.mem_cons.mp he with rfl | he
    · rfl
    · exact hall e he

/-- Every reply to it is sent. -/
theorem allSent_listening {ψ : Type} (Sh : Shared ψ) (s : ClientSession Unit ψ) {name : Bytes}
    (hname : name.length ≤ 255) : AllSent (replyEvents listeningWorld Sh s name) := by
  let s' : ClientSession Unit ψ := { s with shared := (Sh.read s.shared name).2 }.emit (.read name)
  have hevents : ∃ t, (sendFile listeningWorld Sh s name).trace = s.trace ++ t ∧ AllSent t := by
    by_cases hzero : chunkCount (Sh.read s.shared name).1 = 0
    · rw [sendFile_empty listeningWorld Sh s hname hzero]
      refine ⟨[.read name, .send (fileDataMessage name 0 0 []).wire true],
        List.append_assoc _ _ _, fun e he => ?_⟩
      rcases List.mem_cons.mp he with rfl | he
      · rfl
      · rw [List.mem_singleton.mp he]
        rfl
    · obtain ⟨t, ht, hall⟩ := sendChunks_listening name ((Sh.read s.shared name).1.getD [])
        (chunkCount (Sh.read s.shared name).1)
        (List.range (chunkCount (Sh.read s.shared name).1).toNat) s'
      refine ⟨.read name :: t, ?_, fun e he => ?_⟩
      · rw [sendFile, if_neg (by omega)]
        simp only [if_neg hzero]
        exact ht.trans (List.append_assoc _ _ _)
      · rcases List.mem_cons.mp he with rfl | he
        · rfl
        · exact hall e he
  obtain ⟨t, ht, hall⟩ := hevents
  rw [replyEvents, ht, List.drop_left]
  exact hall

/-- A content of one chunk and one byte. -/
def twoChunks : Bytes := List.replicate (kChunkSize + 1) 7

theorem length_twoChunks : twoChunks.length = kChunkSize + 1 := List.length_replicate

theorem twoChunks_ne_nil : twoChunks ≠ [] :=
  List.ne_nil_of_length_pos (by rw [length_twoChunks]; exact Nat.succ_pos _)

theorem twoChunks_le : twoChunks.length ≤ kMaxContent := by
  rw [length_twoChunks]
  decide

theorem pieceCount_twoChunks : pieceCount kChunkSize twoChunks = 2 := by
  rw [pieceCount, length_twoChunks]
  decide

theorem fileData_twoChunks (name : Bytes) :
    fileData name (some twoChunks) =
      [fileDataMessage name 2 0 (List.replicate kChunkSize 7), fileDataMessage name 2 1 [7]] := by
  have hcount : chunkCount (some twoChunks) = 2 :=
    UInt32.toNat_inj.mp
      ((toNat_chunkCount twoChunks_ne_nil twoChunks_le).trans pieceCount_twoChunks)
  have hfirst : chunk twoChunks 0 = List.replicate kChunkSize 7 := by
    simp [chunk, piece, twoChunks, List.take_replicate]
  have hsecond : chunk twoChunks 1 = [7] := by
    have hdrop : twoChunks.drop (1 * kChunkSize) = [7] := by
      simp [twoChunks, List.drop_replicate]
    rw [chunk, piece, hdrop]
    exact List.take_of_length_le (by decide)
  rw [fileData_some name twoChunks_ne_nil twoChunks_le, pieceCount_twoChunks, hcount]
  show [fileDataMessage name 2 0 (chunk twoChunks 0),
    fileDataMessage name 2 1 (chunk twoChunks 1)] = _
  rw [hfirst, hsecond]

end FaceTracking
