import FaceTracking.Lib.JsonPrint
import FaceTracking.Theorems.FlatObject

/-!
# Requests

What a user can ask of the terminal, and the two ends of asking: the message a
client sends for it, and what a session does to the terminal on account of a
message. `demanded_message` says that they fit.

Both clients send the same bytes for a request: a Qt object is sorted by key,
and the keys of a SERVO_CMD are in that order in the mobile client's source. A
number is given as it is printed.
-/

namespace FaceTracking

open Lib Json Proto Mjson

inductive Request where
  | servoStep (pan tilt : NumberText)
  | servoAbs (pan tilt : NumberText)
  | mode (autoTrack : Bool)
  | fileList
  | file (name : String)
  | delete (name : String)
  | snapshot

namespace Request

def type : Request → MsgType
  | servoStep _ _ | servoAbs _ _ => .ServoCmd
  | mode _ => .ModeCmd
  | fileList => .FileListReq
  | file _ => .FileGetReq
  | delete _ => .FileDeleteReq
  | snapshot => .SnapshotReq

/-- The members of a SERVO_CMD body. -/
def servoMembers (mode : String) (pan tilt : NumberText) : List (String × Scalar) :=
  [("mode", .str mode), ("pan", .num pan), ("tilt", .num tilt)]

def body : Request → Bytes
  | servoStep pan tilt => (printed (servoMembers "step" pan tilt)).text
  | servoAbs pan tilt => (printed (servoMembers "abs" pan tilt)).text
  | mode autoTrack => (printed [("autoTrack", .bool autoTrack)]).text
  | file name | delete name => (printed [("name", .str name)]).text
  | fileList | snapshot => []

def message (r : Request) : Message := ⟨r.type.code, 0, r.body⟩

/-- What the user means. A request for a snapshot asks for the list, too. -/
def order : Request → List Event
  | servoStep pan tilt =>
    [.push { Command.default with
      type := .ServoStep, pan := .fin pan.value, tilt := .fin tilt.value }]
  | servoAbs pan tilt =>
    [.push { Command.default with
      type := .ServoAbs, pan := .fin pan.value, tilt := .fin tilt.value }]
  | mode autoTrack => [.push { Command.default with type := .SetMode, autoTrack }]
  | fileList | snapshot => [.list]
  | file name => if (utf8 name).length > 255 then [] else [.read (utf8 name)]
  | delete name => [.remove (utf8 name)]

end Request

/-! ## What a session does on account of a message -/

/-- Is the event an operation that a client can ask for? Looking at the hub is
not, nor is the saving of the frame found there. -/
def Event.isOrder : Event → Bool
  | .push _ | .list | .read _ | .remove _ => true
  | _ => false

def orders (t : List Event) : List Event := t.filter Event.isOrder

@[simp] theorem orders_append (t t' : List Event) : orders (t ++ t') = orders t ++ orders t' :=
  List.filter_append ..

namespace ClientSession

/-- The file that a FILE_GET_REQ makes a session read; the reply has a byte for
the length of its name. -/
def demandedRead (body : Bytes) : List Event :=
  match getString body (utf8 "name") with
  | none => []
  | some name => if name.length > 255 then [] else [.read name]

/-- The file that a FILE_DELETE_REQ makes it remove. -/
def demandedRemoval (body : Bytes) : List Event :=
  match getString body (utf8 "name") with
  | none => []
  | some name => [.remove name]

/-- The operations that a message makes a session perform. -/
def demanded (m : UInt16 × Bytes) : List Event :=
  match MsgType.ofCode m.1 with
  | some .ServoCmd => [.push (servoCommand m.2)]
  | some .ModeCmd => [.push (modeCommand m.2)]
  | some .FileListReq | some .SnapshotReq => [.list]
  | some .FileGetReq => demandedRead m.2
  | some .FileDeleteReq => demandedRemoval m.2
  | _ => []

end ClientSession

/-! ## Reading a request -/

/-- A string without control characters other than line breaks and tabs, as the
terminal's listings show it. -/
def Displayable (u : String) : Prop :=
  ∀ c ∈ u.toList, 0x20 ≤ c.toNat ∨ c = '\n' ∨ c = '\r' ∨ c = '\t'

theorem readable_quotePiece {c : Char} (h : 0x20 ≤ c.toNat ∨ c = '\n' ∨ c = '\r' ∨ c = '\t') :
    Readable (quotePiece c) := by
  rcases h with h | rfl | rfl | rfl
  · rcases char_cases c with ⟨n, hn, rfl⟩ | rfl | rfl | ⟨h, hq, hs⟩
    · have hall : ∀ n < 0x20, ¬ 0x20 ≤ (Char.ofNat n).toNat := by decide
      exact absurd h (hall n hn)
    · decide
    · decide
    · rw [quotePiece_raw h hq hs]
      trivial
  · decide
  · decide
  · decide

/-- Every name in a listing is of this kind. -/
theorem displayable_shown (u : String) : Displayable (shown u) := by
  intro c hc
  unfold shown at hc
  rw [String.toList_ofList] at hc
  obtain ⟨d, -, rfl⟩ := List.mem_map.mp hc
  unfold shownChar
  split
  · exact .inl (by decide)
  · rename_i h
    by_cases hd : 0x20 ≤ d.toNat
    · exact .inl hd
    · refine .inr ?_
      by_contra hne
      push Not at hne
      exact h ⟨by omega, hne⟩

/-- The search for a key passes a member. -/
theorem leads_skip {k k' : String} {v : Scalar} {o : List (String × Scalar)}
    (hkey : ¬ Spells (utf8 k) (quotation k')) (hvalue : ¬ ValueSpells (utf8 k) v.printed)
    (hname : k' ≠ k) (h : Leads k (printed o).members) : Leads k (printed ((k', v) :: o)).members := by
  show if Spells (utf8 k) (quotation k') then _ else if ValueSpells (utf8 k) v.printed then _ else _
  rw [if_neg hkey, if_neg hvalue]
  refine ⟨fun hnamed => ?_, h⟩
  exact hname (Option.some.inj ((decode_quotation k').symm.trans hnamed))

/-- The search for a key ends at its member. -/
theorem leads_here {k : String} (hkey : Spells (utf8 k) (quotation k)) (v : Scalar)
    (o : List (String × Scalar)) : Leads k (printed ((k, v) :: o)).members := by
  show if Spells (utf8 k) (quotation k) then _ else _
  rw [if_pos hkey]
  exact decode_quotation k

theorem get?_printed (o : List (String × Scalar)) (k : String) :
    get? (printed o).decode k = (o.find? fun m => m.1 = k).map fun m => m.2.datum := by
  rw [decode_printed]
  unfold get?
  rw [List.find?_map, Option.map_map]
  have hname : ((fun m : Option String × Datum => decide (m.1 = some k)) ∘
      fun m : String × Scalar => (some m.1, m.2.datum)) = fun m => decide (m.1 = k) := by
    funext m
    simp
  rw [hname]
  rfl

theorem Displayable.legible {u : String} (h : Displayable u) : Legible (Scalar.str u).printed [] := by
  refine ⟨fun p hp => ?_, nofun⟩
  obtain ⟨c, hc, rfl⟩ := List.mem_map.mp hp
  exact readable_quotePiece (h c hc)

/-- The getters agree with a printed object about a key that they are led to. -/
theorem agrees_printed {k : String} (hk : Letters k) {o : List (String × Scalar)}
    (hlead : Leads k (printed o).members) (ho : ∀ m ∈ o, Legible m.2.printed []) :
    Agrees (printed o) k := by
  refine Clear.agrees hk ⟨hlead, fun m hm _ => ?_⟩
  obtain ⟨m', hm', rfl⟩ := List.mem_map.mp hm
  exact ho m' hm'

section Bodies

variable (pan tilt : NumberText)

/-- A SERVO_CMD is read as it was meant. -/
theorem servoCommand_printed {mode : String} (hmode : mode = "step" ∨ mode = "abs") :
    ClientSession.servoCommand (printed (Request.servoMembers mode pan tilt)).text =
      { Command.default with
        type := if mode = "abs" then .ServoAbs else .ServoStep
        pan := .fin pan.value
        tilt := .fin tilt.value } := by
  let o : List (String × Scalar) := Request.servoMembers mode pan tilt
  have hlegible : ∀ m ∈ o, Legible m.2.printed [] := by
    have hword : Legible (Scalar.str mode).printed [] := by
      rcases hmode with rfl | rfl <;> decide +kernel
    intro m hm
    rcases List.mem_cons.mp hm with rfl | hm
    · exact hword
    · rcases List.mem_cons.mp hm with rfl | hm
      · trivial
      · rw [List.mem_singleton.mp hm]
        trivial
  have hvalue : ∀ k, k = "pan" ∨ k = "tilt" →
      ¬ ValueSpells (utf8 k) (Scalar.str mode).printed := by
    rintro k (rfl | rfl) <;> rcases hmode with rfl | rfl <;> decide +kernel
  have hmodes : Agrees (printed o) "mode" :=
    agrees_printed (by decide +kernel) (leads_here (by decide +kernel) _ _) hlegible
  have hpan : Agrees (printed o) "pan" := by
    refine agrees_printed (by decide +kernel) ?_ hlegible
    apply leads_skip (by decide +kernel) (hvalue "pan" (.inl rfl)) (by decide)
    exact leads_here (by decide +kernel) _ _
  have htilt : Agrees (printed o) "tilt" := by
    refine agrees_printed (by decide +kernel) ?_ hlegible
    apply leads_skip (by decide +kernel) (hvalue "tilt" (.inr rfl)) (by decide)
    apply leads_skip (by decide +kernel) id (by decide)
    exact leads_here (by decide +kernel) _ _
  unfold ClientSession.servoCommand
  rw [hmodes.string, hpan.number, htilt.number, get?_printed, get?_printed, get?_printed]
  rcases hmode with rfl | rfl
  · rfl
  · rfl

theorem modeCommand_printed (autoTrack : Bool) :
    ClientSession.modeCommand (printed [("autoTrack", .bool autoTrack)]).text =
      { Command.default with type := .SetMode, autoTrack } := by
  have hagrees : Agrees (printed [("autoTrack", .bool autoTrack)]) "autoTrack" := by
    refine agrees_printed (by decide +kernel) (leads_here (by decide +kernel) _ _) ?_
    intro m hm
    rw [List.mem_singleton.mp hm]
    exact nofun
  unfold ClientSession.modeCommand
  rw [hagrees.bool, get?_printed]
  rfl

theorem getString_name {name : String} (hname : Displayable name) :
    getString (printed [("name", .str name)]).text (utf8 "name") = some (utf8 name) := by
  have hagrees : Agrees (printed [("name", .str name)]) "name" := by
    refine agrees_printed (by decide +kernel) (leads_here (by decide +kernel) _ _) ?_
    intro m hm
    rw [List.mem_singleton.mp hm]
    exact hname.legible
  rw [hagrees.string, get?_printed]
  rfl

end Bodies

namespace Request

/-- The name in a request can be read, and the terminal takes a message of its
length. -/
def Proper (r : Request) : Prop :=
  (match r with
    | file name | delete name => Displayable name
    | _ => True) ∧ r.body.length ≤ kMaxMessage.toNat

theorem length_named (name : String) :
    (printed [("name", .str name)]).text.length ≤ 6 * (utf8 name).length + 11 := by
  have hname := length_quotation name
  have htext : (printed [("name", .str name)]).text =
      0x7B :: (quote "name" ++ 0x3A :: (quotation name).text) ++ [0x7D] := by
    show [] ++ 0x7B :: ((printedMember ("name", .str name)).text ++ 0x7D :: []) = _
    rw [printedMember_text]
    rfl
  have hkey : (quote "name").length = 6 := by decide +kernel
  rw [htext, List.length_append, List.length_cons, List.length_append, List.length_cons, hkey,
    List.length_singleton]
  omega

/-- A file can be asked for under the name that a listing shows: a directory
entry has at most 255 bytes. -/
theorem proper_shown (u : String) (h : (utf8 (shown u)).length ≤ 255) :
    (file (shown u)).Proper ∧ (delete (shown u)).Proper := by
  have hbody : (printed [("name", .str (shown u))]).text.length ≤ kMaxMessage.toNat := by
    have hnamed := length_named (shown u)
    have hmax : kMaxMessage.toNat = 32 * 1024 * 1024 := rfl
    omega
  exact ⟨⟨displayable_shown u, hbody⟩, displayable_shown u, hbody⟩

/-- A session performs what a proper request asks for. -/
theorem demanded_message {r : Request} (h : r.Proper) :
    ClientSession.demanded (r.type.code, r.body) = r.order := by
  unfold ClientSession.demanded
  cases r with
  | servoStep pan tilt =>
    exact congrArg (fun c => [Event.push c]) (servoCommand_printed pan tilt (.inl rfl))
  | servoAbs pan tilt =>
    exact congrArg (fun c => [Event.push c]) (servoCommand_printed pan tilt (.inr rfl))
  | mode autoTrack => exact congrArg (fun c => [Event.push c]) (modeCommand_printed autoTrack)
  | fileList => rfl
  | snapshot => rfl
  | file name =>
    have hread := getString_name h.1
    show ClientSession.demandedRead (printed [("name", .str name)]).text = _
    unfold ClientSession.demandedRead
    rw [hread]
    rfl
  | delete name =>
    have hread := getString_name h.1
    show ClientSession.demandedRemoval (printed [("name", .str name)]).text = _
    unfold ClientSession.demandedRemoval
    rw [hread]
    rfl

end Request

end FaceTracking
