import FaceTracking.Net.Requests
import FaceTracking.Theorems.SessionDialogue

/-!
# What a session does for its client

A session performs what the messages demand that it handles (`run_performs`),
and what it has handled of a client's messages, however they are cut, is a
number of them from the front (`messages_of_prefix`). So it does what its
client asks for, in the order in which it is asked (`run_obeys`).
-/

namespace FaceTracking

open Lib Proto

/-! ## What a session performs -/

namespace ClientSession

variable {κ ψ : Type} {W : World κ} {Sh : Shared ψ} {cfg : SessionConfig}

/-- A part of a trace performs what the messages handled in it demand. -/
def Performs (t : List Event) : Prop := orders t = (handled t).flatMap demanded

theorem Performs.append {t t' : List Event} (h : Performs t) (h' : Performs t') :
    Performs (t ++ t') := by
  unfold Performs at h h' ⊢
  rw [orders_append, handled_append, List.flatMap_append, h, h']

/-- What the session adds to its trace performs what it handles. -/
def Follows (s s' : ClientSession κ ψ) : Prop := ∃ t, s'.trace = s.trace ++ t ∧ Performs t

theorem Follows.refl (s : ClientSession κ ψ) : Follows s s := ⟨[], (List.append_nil _).symm, rfl⟩

theorem Follows.trans {s₁ s₂ s₃ : ClientSession κ ψ} (h : Follows s₁ s₂) (h' : Follows s₂ s₃) :
    Follows s₁ s₃ := by
  obtain ⟨t, ht, hp⟩ := h
  obtain ⟨t', ht', hp'⟩ := h'
  exact ⟨t ++ t', by rw [ht', ht, List.append_assoc], hp.append hp'⟩

theorem Follows.of_trace {s s' u : ClientSession κ ψ} (h : Follows s u) (ht : s'.trace = u.trace) :
    Follows s s' := by
  obtain ⟨t, hu, hp⟩ := h
  exact ⟨t, ht.trans hu, hp⟩

variable (W) in
/-- The chunk loop only sends. -/
theorem sendChunks_sends (name bytes : Bytes) (total : UInt32) (l : List Nat)
    (s : ClientSession κ ψ) :
    ∃ t, (sendChunks W name bytes total l s).trace = s.trace ++ t ∧ orders t = [] ∧
      handled t = [] := by
  induction l generalizing s with
  | nil => exact ⟨[], (List.append_nil _).symm, rfl, rfl⟩
  | cons i l ih =>
    let msg := buildChunk name total (UInt32.ofNat i) ((bytes.drop (i * kChunkSize)).take kChunkSize)
    unfold sendChunks
    simp only
    split
    · obtain ⟨t, ht, horders, hhandled⟩ := ih (send W s msg).2
      refine ⟨.send msg (send W s msg).1 :: t, ?_, horders, hhandled⟩
      rw [ht]
      exact List.append_assoc _ _ _
    · exact ⟨[.send msg _], rfl, rfl, rfl⟩

variable (W Sh) in
theorem sendFile_orders (s : ClientSession κ ψ) (name : Bytes) :
    ∃ t, (sendFile W Sh s name).trace = s.trace ++ t ∧ handled t = [] ∧
      orders t = if name.length > 255 then [] else [.read name] := by
  unfold sendFile
  split
  · exact ⟨[], (List.append_nil _).symm, rfl, rfl⟩
  · simp only
    split
    · exact ⟨[.read name, .send _ _], List.append_assoc _ _ _, rfl, rfl⟩
    · let u : ClientSession κ ψ :=
        { s with shared := (Sh.read s.shared name).2 }.emit (.read name)
      obtain ⟨t, ht, horders, hhandled⟩ := sendChunks_sends W name
        ((Sh.read s.shared name).1.getD []) (chunkCount (Sh.read s.shared name).1)
        (List.range (chunkCount (Sh.read s.shared name).1).toNat) u
      refine ⟨.read name :: t, ht.trans (List.append_assoc _ _ _), hhandled, ?_⟩
      show .read name :: orders t = _
      rw [horders]

variable (W Sh) in
theorem deleteFile_orders (s : ClientSession κ ψ) (body : Bytes) :
    ∃ t, (deleteFile W Sh s body).trace = s.trace ++ t ∧ handled t = [] ∧
      orders t = demandedRemoval body := by
  unfold deleteFile demandedRemoval
  cases Mjson.getString body (utf8 "name") with
  | none => exact ⟨[.send _ _], rfl, rfl, rfl⟩
  | some name => exact ⟨[.remove name, .send _ _], List.append_assoc _ _ _, rfl, rfl⟩

variable (Sh) in
theorem takeSnapshot_orders (s : ClientSession κ ψ) :
    ∃ t, (takeSnapshot Sh s).trace = s.trace ++ t ∧ handled t = [] ∧ orders t = [] := by
  unfold takeSnapshot
  simp only
  split
  · exact ⟨[.latest], rfl, rfl, rfl⟩
  · split
    · exact ⟨[.latest], rfl, rfl, rfl⟩
    · exact ⟨[.latest, .snapshot], List.append_assoc _ _ _, rfl, rfl⟩

/-- **Handling a message** performs what it demands. -/
theorem handleMessage_follows (s : ClientSession κ ψ) (type : UInt16) (body : Bytes) :
    Follows s (handleMessage W Sh s type body) := by
  let u := s.emit (.message type body)
  have hadd : ∀ {s' : ClientSession κ ψ} {t : List Event}, s'.trace = u.trace ++ t →
      handled t = [] → orders t = demanded (type, body) → Follows s s' := by
    intro s' t ht hh ho
    refine ⟨.message type body :: t, ht.trans (List.append_assoc _ _ _), ?_⟩
    show orders t = ((type, body) :: handled t).flatMap demanded
    rw [hh, ho, List.flatMap_singleton]
  unfold handleMessage
  simp only
  split
  · rename_i hcode
    refine hadd (t := [.push _]) rfl rfl ?_
    unfold demanded
    rw [hcode]
    rfl
  · rename_i hcode
    refine hadd (t := [.push _]) rfl rfl ?_
    unfold demanded
    rw [hcode]
    rfl
  · rename_i hcode
    obtain ⟨ok, ht⟩ := sendFileList_trace W Sh u
    refine hadd ht rfl ?_
    unfold demanded
    rw [hcode]
    rfl
  · rename_i hcode
    have hdemanded : demanded (type, body) = demandedRead body := by
      unfold demanded
      rw [hcode]
    unfold demandedRead at hdemanded
    cases hname : Mjson.getString body (utf8 "name") with
    | none =>
      refine hadd (t := []) (List.append_nil _).symm rfl ?_
      rw [hdemanded, hname]
      rfl
    | some name =>
      obtain ⟨t, ht, hh, ho⟩ := sendFile_orders W Sh u name
      refine hadd ht hh ?_
      rw [hdemanded, hname, ho]
  · rename_i hcode
    obtain ⟨t, ht, hh, ho⟩ := deleteFile_orders W Sh u body
    refine hadd ht hh (ho.trans ?_)
    unfold demanded
    rw [hcode]
  · rename_i hcode
    obtain ⟨t, ht, hh, ho⟩ := takeSnapshot_orders Sh u
    obtain ⟨ok, ht'⟩ := sendFileList_trace W Sh (takeSnapshot Sh u)
    rw [ht, List.append_assoc] at ht'
    refine hadd ht' ?_ ?_
    · rw [handled_append, hh]
      rfl
    · rw [orders_append, ho]
      unfold demanded
      rw [hcode]
      rfl
  · refine hadd (t := []) (List.append_nil _).symm rfl ?_
    unfold demanded
    split
    · exact absurd ‹_› ‹_›
    · exact absurd ‹_› ‹_›
    · exact absurd ‹_› ‹_›
    · exact absurd ‹_› ‹_›
    · exact absurd ‹_› ‹_›
    · exact absurd ‹_› ‹_›
    · rfl

/-! ### Over a run -/

theorem onMessage_follows (s : ClientSession κ ψ) (m : Message) :
    Follows s (onMessage W Sh cfg s m).1 := by
  unfold onMessage
  split
  · exact handleMessage_follows s m.type m.payload
  · split
    · exact .refl s
    · split
      · have hgate : Follows s ({ s with authed := true }.emit .authenticated) :=
          ⟨[.authenticated], rfl, rfl⟩
        exact hgate.trans (handleMessage_follows _ m.type m.payload)
      · exact .refl s

theorem sendFrameIfNew_follows (s : ClientSession κ ψ) :
    Follows s (sendFrameIfNew W Sh s).2 := by
  have hread : Follows s ({ s with shared := (Sh.latest s.shared).2 }.emit .latest) :=
    ⟨[.latest], rfl, rfl⟩
  unfold sendFrameIfNew
  simp only
  split
  · exact hread
  · split
    · exact hread
    · split
      · exact hread
      · exact hread.trans ⟨[.send _ _], rfl, rfl⟩

variable (W Sh cfg) in
/-- **Performing.** At every point of a run the session has performed what the
messages demand that it has handled, and nothing else. -/
theorem run_performs (net : κ) (shared : ψ) (n : Nat) :
    Performs (run W Sh cfg net shared n).trace := by
  let s₀ : ClientSession κ ψ := start W cfg net shared
  have hstart : Performs s₀.trace := by
    show Performs (start W cfg net shared : ClientSession κ ψ).trace
    unfold start
    simp only
    split
    · rfl
    · rfl
  have hrun : Follows s₀ (run W Sh cfg net shared n) := by
    refine (run_rule W Sh cfg (I := Follows s₀) (F := Follows s₀) (fun _ h => h)
      (fun s k _ h => h.of_trace rfl) ?_ ?_ ?_ ⟨.refl _, fun _ => .refl _⟩ n).1
    · intro s h
      have hread := readAndDispatch_rule W Sh cfg (P := Follows s₀)
        (fun s h => h.trans ⟨[.recv _], rfl, rfl⟩) (fun s rx h => h.of_trace rfl)
        (fun s m h => h.trans (onMessage_follows s m)) h
      exact ⟨hread, fun _ => hread⟩
    · intro s h
      have htick := frameTick_rule W Sh cfg (P := Follows s₀) (fun s k _ h => h.of_trace rfl)
        (fun s at' h => h.of_trace rfl) (fun s _ h => h.trans (sendFrameIfNew_follows s)) h
      exact ⟨htick, fun _ => htick⟩
    · exact fun s h => h.trans ⟨[.close], rfl, rfl⟩
  obtain ⟨t, ht, hp⟩ := hrun
  rw [ht]
  exact hstart.append hp

end ClientSession

/-! ## Messages cut anywhere -/

namespace Proto

/-- Part of a message asks for more. -/
theorem parse_part {cap : UInt32} {m : Message} (hm : m.payload.length ≤ cap.toNat) {b c : Bytes}
    (hb : b ++ c = m.wire) (hc : c ≠ []) : parse cap b = .more := by
  have hwhole : parse cap (b ++ c) = .item m m.wire.length := by
    have hwire := parse_wire hm []
    rw [List.append_nil] at hwire
    rw [hb, hwire]
  cases hp : parse cap b with
  | more => rfl
  | bad =>
    rw [parse_append_bad hp c] at hwhole
    cases hwhole
  | item m' n =>
    -- the message would be whole already
    have hitem := (sec1 cap).item_append hp c
    have hle := parse_item_le hp
    have heq : Step.item m' n = .item m m.wire.length := hitem.symm.trans hwhole
    injection heq with _ hn
    have hlen : b.length + c.length = m.wire.length := by rw [← hb, List.length_append]
    have hpos : 0 < c.length := List.length_pos_iff.mpr hc
    omega

/-- **Messages cut anywhere.** In a part from the front of well-formed messages
there are a number of them from the front, and every one that is whole. -/
theorem messages_of_prefix {cap : UInt32} {ms : List Message}
    (hms : ∀ m ∈ ms, m.payload.length ≤ cap.toNat) {b : Bytes} (hb : b <+: ms.flatMap Message.wire) :
    ∃ k ≤ ms.length, (messages cap b).items = ms.take k ∧
      ∀ j ≤ ms.length, (ms.take j).flatMap Message.wire <+: b → j ≤ k := by
  induction ms generalizing b with
  | nil =>
    have hnil : b = [] := List.prefix_nil.mp hb
    subst hnil
    exact ⟨0, Nat.le_refl _, rfl, fun j hj _ => hj⟩
  | cons m ms ih =>
    have hm := hms m List.mem_cons_self
    obtain ⟨c, hc⟩ := hb
    rw [List.flatMap_cons] at hc
    by_cases hwhole : m.wire.length ≤ b.length
    · -- the first message is whole
      obtain ⟨r, rfl⟩ : m.wire <+: b :=
        List.prefix_of_prefix_length_le (List.prefix_append _ _) ⟨c, hc⟩ hwhole
      rw [List.append_assoc] at hc
      obtain ⟨k, hk, hitems, hall⟩ := ih (fun x hx => hms x (List.mem_cons_of_mem m hx))
        ⟨c, List.append_cancel_left hc⟩
      have hscan : messages cap (m.wire ++ r) = (messages cap r).prepend [m] := by
        have hstep : (sec1 cap).step (m.wire ++ r) = .item m m.wire.length := parse_wire hm r
        have h := (sec1 cap).scan_item (fun _ => false) hstep rfl
        rw [List.drop_left] at h
        exact h
      refine ⟨k + 1, Nat.succ_le_succ hk, ?_, fun j hj hpre => ?_⟩
      · rw [hscan, List.take_succ_cons, ← hitems]
        rfl
      · cases j with
        | zero => exact Nat.zero_le _
        | succ j =>
          rw [List.take_succ_cons, List.flatMap_cons] at hpre
          have hrest := (List.prefix_append_right_inj m.wire).mp hpre
          exact Nat.succ_le_succ (hall j (Nat.le_of_succ_le_succ hj) hrest)
    · -- it is not
      obtain ⟨d, hd⟩ : b <+: m.wire :=
        List.prefix_of_prefix_length_le ⟨c, hc⟩ (List.prefix_append _ _) (by omega)
      have hne : d ≠ [] := by
        rintro rfl
        rw [List.append_nil] at hd
        exact hwhole (by rw [hd])
      have hscan : messages cap b = ⟨[], b, .starved⟩ :=
        (sec1 cap).scan_more _ (parse_part hm hd hne)
      refine ⟨0, Nat.zero_le _, by rw [hscan]; rfl, fun j hj hpre => ?_⟩
      cases j with
      | zero => exact Nat.le_refl _
      | succ j =>
        rw [List.take_succ_cons, List.flatMap_cons] at hpre
        have hlen := hpre.length_le
        rw [List.length_append] at hlen
        omega

end Proto

namespace ClientSession

variable {κ ψ : Type} (W : World κ) (Sh : Shared ψ) (cfg : SessionConfig)

/-- **Obeying.** A session that has received a part of some messages has handled
a number of them from the front, if it admitted the client every one that has
come in whole, and has performed what they demand. -/
theorem run_obeys {ms : List Message} (hms : ∀ m ∈ ms, m.payload.length ≤ kMaxMessage.toNat)
    (net : κ) (shared : ψ) (n : Nat)
    (hreceived : received (run W Sh cfg net shared n).trace <+: ms.flatMap Message.wire) :
    let s : ClientSession κ ψ := run W Sh cfg net shared n
    ∃ k ≤ ms.length, handled s.trace = (ms.take k).map seen ∧
      orders s.trace = (ms.take k).flatMap (fun m => demanded (seen m)) ∧
      (s.authed = true → ∀ j ≤ ms.length,
        (ms.take j).flatMap Message.wire <+: received s.trace → j ≤ k) := by
  intro s
  have hheard : Heard s := (run_listening W Sh cfg net shared n).1
  have hperforms : Performs s.trace := run_performs W Sh cfg net shared n
  have horders : ∀ k, handled s.trace = (ms.take k).map seen →
      orders s.trace = (ms.take k).flatMap fun m => demanded (seen m) := by
    intro k hk
    rw [hperforms, hk, List.flatMap_map]
  cases hauth : s.authed with
  | false => exact ⟨0, Nat.zero_le _, hheard.shut hauth, horders 0 (hheard.shut hauth), nofun⟩
  | true =>
    obtain ⟨k, hk, hitems, hall⟩ := messages_of_prefix hms hreceived
    have hhandled : handled s.trace = (ms.take k).map seen := by
      rw [hheard.opened hauth]
      exact congrArg (List.map seen) hitems
    exact ⟨k, hk, hhandled, horders k hhandled, fun _ => hall⟩

/-- **Serving requests.** A client that says HELLO and then makes requests is
obeyed in the same way. -/
theorem run_serves {g : Message} (hg : g.type = MsgType.Hello.code)
    (hlength : g.payload.length ≤ kMaxMessage.toNat) {rs : List Request}
    (hproper : ∀ r ∈ rs, r.Proper) (net : κ) (shared : ψ) (n : Nat)
    (hreceived : received (run W Sh cfg net shared n).trace <+:
      g.wire ++ rs.flatMap fun r => r.message.wire) :
    let s : ClientSession κ ψ := run W Sh cfg net shared n
    ∃ k ≤ rs.length, orders s.trace = (rs.take k).flatMap Request.order ∧
      (s.authed = true → ∀ j ≤ rs.length,
        g.wire ++ (rs.take j).flatMap (fun r => r.message.wire) <+: received s.trace → j ≤ k) := by
  intro s
  let ms : List Message := g :: rs.map Request.message
  have hms : ∀ m ∈ ms, m.payload.length ≤ kMaxMessage.toNat := by
    intro m hm
    rcases List.mem_cons.mp hm with rfl | hm
    · exact hlength
    · obtain ⟨r, hr, rfl⟩ := List.mem_map.mp hm
      exact (hproper r hr).2
  have hwire : ∀ j, (ms.take (j + 1)).flatMap Message.wire =
      g.wire ++ (rs.take j).flatMap fun r => r.message.wire := by
    intro j
    rw [List.take_succ_cons, List.flatMap_cons, ← List.map_take, List.flatMap_map]
  have hlen : ms.length = rs.length + 1 := by
    show (rs.map Request.message).length + 1 = _
    rw [List.length_map]
  have hall : ms.flatMap Message.wire = g.wire ++ rs.flatMap fun r => r.message.wire := by
    show g.wire ++ (rs.map Request.message).flatMap Message.wire = _
    rw [List.flatMap_map]
  obtain ⟨k, hk, -, horders, hwhole⟩ := run_obeys W Sh cfg hms net shared n (hall ▸ hreceived)
  cases k with
  | zero =>
    refine ⟨0, Nat.zero_le _, horders, fun hauth j hj hpre => ?_⟩
    have := hwhole hauth (j + 1) (by omega) (by rw [hwire]; exact hpre)
    omega
  | succ k =>
    have hgreeting : demanded (seen g) = [] := by
      unfold demanded seen
      rw [hg]
      rfl
    refine ⟨k, by omega, ?_, fun hauth j hj hpre => ?_⟩
    · rw [horders, List.take_succ_cons, List.flatMap_cons, hgreeting, ← List.map_take,
        List.flatMap_map, List.nil_append]
      have hread : ∀ r ∈ rs.take k, demanded (seen r.message) = r.order :=
        fun r hr => Request.demanded_message (hproper r (List.mem_of_mem_take hr))
      generalize rs.take k = l at hread
      induction l with
      | nil => rfl
      | cons r l ih =>
        rw [List.flatMap_cons, List.flatMap_cons, hread r List.mem_cons_self,
          ih fun r' hr' => hread r' (List.mem_cons_of_mem r hr')]
    · have := hwhole hauth (j + 1) (by omega) (by rw [hwire]; exact hpre)
      omega

/-- A connection on which bytes come in as two pieces. -/
def inPieces (b : Bytes) : Socket × List PollResult :=
  (⟨[.ok (b.take 50), .ok (b.drop 50)], [.accept 500, .accept 500], [], false⟩,
    [.ready false true, .ready false true])

/-- A session that hears them. -/
def hearing (b : Bytes) (n : Nat) : ClientSession (Socket × List PollResult) Unit :=
  run (World.of (TcpConn RawByteStream) (schedule 0)) Shared.empty ⟨15, []⟩ (inPieces b) () n

end ClientSession

end FaceTracking
