import FaceTracking.File.FileManager
import FaceTracking.Net.ClientSession
import FaceTracking.Theorems.TokenCheck

/-!
# Listed files are reachable

The FILE_LIST_RESP body is the text of a JSON array with one object for each
file that is neither hidden nor irregular (`fileListJson_eq`), as long as their
names are UTF-8. A request that a client builds from a decoded name names the
file again, and `resolve` lets it through if the name is a plain one
(`file_listing`). Other files are listed and out of reach (`dots_out_of_reach`).
-/

namespace FaceTracking

open Lib Lib.Json Proto Mjson ClientSession FileManager

/-- A terminal with a capture directory: `Sh` has the frames and the commands,
and `snap` saves a snapshot. -/
def withFiles {ψ : Type} (Sh : Shared ψ) (σ : NewestFirst)
    (snap : ψ × FileManager → Bytes → ψ × FileManager) : Shared (ψ × FileManager) where
  latest x := ((Sh.latest x.1).1, (Sh.latest x.1).2, x.2)
  push x c := (Sh.push x.1 c, x.2)
  list x := (x.2.list σ, x)
  read x name := (x.2.read name, x)
  remove x name := ((x.2.remove name).1, x.1, (x.2.remove name).2)
  snapshot := snap

/-! ## The list as JSON -/

/-- What a client decodes for a file. -/
def decodedEntry (name : String) (size mtime : Int) : List (Option String × Datum) :=
  [(some "name", .str (some name)), (some "size", .num size), (some "mtime", .num mtime)]

/-- The text of a name, if it is one. -/
def textOf (name : Bytes) : String := (decodeUtf8? name).getD ""

/-- The entry of a file: control characters without an escape are shown as
spaces, and a time before 1970 wraps around. -/
def shownEntry (e : Bytes × Node) : Option (List (Option String × Datum)) :=
  if e.1.head? = some 0x2E then none
  else
    match e.2 with
    | .regular content mtime =>
      some (decodedEntry (shown (textOf e.1)) content.length (mtime % 2 ^ 64))
    | .other _ _ => none

/-- The object a listed file is written as. -/
def entryText (f : FileInfo) : ObjectText :=
  compact [("name", .str (spelled (textOf f.name))), ("size", .num (.ofNat f.size.toNat)),
    ("mtime", .num (.ofNat f.mtime.toNat))]

theorem utf8_textOf {name : Bytes} (h : IsUtf8 name) : utf8 (textOf name) = name := by
  obtain ⟨u, rfl⟩ := h
  simp [textOf]

theorem entryText_text {f : FileInfo} (h : IsUtf8 f.name) : (entryText f).text = fileEntry f := by
  have hname : escape f.name = (spelled (textOf f.name)).body := by
    rw [← escape_utf8, utf8_textOf h]
  have hkeys : (spelled "name").body = utf8 "name" ∧ (spelled "size").body = utf8 "size" ∧
      (spelled "mtime").body = utf8 "mtime" := by
    decide +kernel
  obtain ⟨hn, hs, hm⟩ := hkeys
  -- the literals of the source, taken apart at the keys
  have hopen : utf8 "\x7B\"name\":\"" = 0x7B :: 0x22 :: (utf8 "name" ++ [0x22, 0x3A, 0x22]) := by
    decide +kernel
  have hsize : utf8 "\",\"size\":" = 0x22 :: 0x2C :: 0x22 :: (utf8 "size" ++ [0x22, 0x3A]) := by
    decide +kernel
  have hmtime : utf8 ",\"mtime\":" = 0x2C :: 0x22 :: (utf8 "mtime" ++ [0x22, 0x3A]) := by
    decide +kernel
  have hclose : utf8 "\x7D" = [0x7D] := by decide +kernel
  unfold fileEntry
  rw [hname, hopen, hsize, hmtime, hclose]
  simp only [entryText, compact, compactMember, ObjectText.text, Member.text, ValueText.text,
    StringText.text, NumberText.ofNat_text, commaSeparated, blanks, hn, hs, hm, List.map_cons,
    List.map_nil, List.nil_append, List.append_nil, List.append_assoc, List.cons_append]

theorem entryText_decode (f : FileInfo) : (entryText f).decode =
    decodedEntry (shown (textOf f.name)) f.size.toNat f.mtime.toNat := by
  have hkeys : shown "name" = "name" ∧ shown "size" = "size" ∧ shown "mtime" = "mtime" := by
    decide +kernel
  obtain ⟨hn, hs, hm⟩ := hkeys
  simp only [entryText, compact, compactMember, ObjectText.decode, ValueText.value, decode_spelled,
    NumberText.ofNat_value, decodedEntry, hn, hs, hm, List.map_cons, List.map_nil, Int.cast_natCast]

theorem intercalate_eq_commaSeparated (ts : List Bytes) :
    (utf8 ",").intercalate ts = commaSeparated ts := by
  have hcomma : utf8 "," = [0x2C] := rfl
  rw [hcomma]
  induction ts with
  | nil => rfl
  | cons t ts ih =>
    cases ts with
    | nil => simp [List.intercalate, commaSeparated]
    | cons t' ts =>
      have hcons : commaSeparated (t :: t' :: ts) = t ++ 0x2C :: commaSeparated (t' :: ts) := rfl
      rw [hcons, ← ih]
      simp [List.intercalate]

/-- The list is printed as a JSON array of its entries. -/
theorem fileListJson_eq {files : List FileInfo} (h : ∀ f ∈ files, IsUtf8 f.name) :
    fileListJson files = (ArrayText.mk [] (files.map entryText) [] []).text := by
  have hentries : files.map fileEntry = (files.map entryText).map ObjectText.text := by
    rw [List.map_map]
    exact List.map_congr_left fun f hf => (entryText_text (h f hf)).symm
  unfold fileListJson ArrayText.text
  rw [hentries, intercalate_eq_commaSeparated]
  simp only [blanks, List.map_nil, List.nil_append, List.append_assoc]
  rfl

theorem info?_name {e : Bytes × Node} {f : FileInfo} (h : info? e = some f) : f.name = e.1 := by
  unfold info? at h
  split at h
  · cases h
  · split at h
    · cases h
      rfl
    · cases h

/-- What is listed for an entry is what a client sees. -/
theorem info?_shown {e : Bytes × Node} (hfits : e.2.Fits) :
    (info? e).map (fun f => (entryText f).decode) = shownEntry e := by
  obtain ⟨name, node⟩ := e
  unfold info? shownEntry
  split
  · rfl
  · cases node with
    | other => rfl
    | regular content mtime =>
      obtain ⟨hsize, -, -⟩ := hfits
      have hlen : (UInt64.ofNat content.length).toNat = content.length := by
        rw [UInt64.toNat_ofNat']
        exact Nat.mod_eq_of_lt (by omega)
      have htime : ((UInt64.ofInt mtime).toNat : Int) = mtime % 2 ^ 64 := by
        unfold UInt64.ofInt
        rw [UInt64.toNat_ofNat']
        omega
      simp only [Option.map_some, entryText_decode, hlen, htime]

/-! ## Requests by name -/

/-- The body of a request for a file. -/
def requestBody (name : String) : Bytes := Json.stringify [("name", .str name)]

/-- A plain name has no control characters. -/
theorem FileManager.Plain.printable_text {u : String} (h : Plain (utf8 u)) : Auth.Printable u := by
  intro c hc
  by_contra hlow
  have hone : String.utf8EncodeChar c = [UInt8.ofNat c.toNat] := by
    have hall : ∀ n < 0x20, String.utf8EncodeChar (Char.ofNat n) = [UInt8.ofNat n] := by
      decide +kernel
    have hchar := hall c.toNat (by omega)
    rwa [Char.ofNat_toNat] at hchar
  have hmem : UInt8.ofNat c.toNat ∈ utf8 u :=
    List.mem_flatMap.mpr ⟨c, hc, hone ▸ List.mem_singleton.mpr rfl⟩
  have hle := UInt8.le_iff_toNat_le.mp (h.printable _ hmem)
  rw [UInt8.toNat_ofNat'] at hle
  have hbyte : (0x20 : UInt8).toNat = 32 := rfl
  omega

theorem getString_requestBody {u : String} (hu : Auth.Printable u) :
    getString (requestBody u) (utf8 "name") = some (utf8 u) := by
  have hbody : requestBody u =
      utf8 "\x7B\"name\"" ++ 0x3A :: 0x22 :: (Json.quoteBody u ++ 0x22 :: [0x7D]) := by
    simp only [requestBody, Json.stringify, Json.printMembers, Json.printValue, Json.quote,
      List.append_assoc, List.cons_append]
    rfl
  rw [hbody, getString_eq (k := 1) (by decide +kernel) (by decide +kernel),
    Auth.unescape_quoteBody hu]

section Session

variable {κ ψ : Type} (W : World κ) (Sh : Shared ψ) (σ : NewestFirst)
  (snap : ψ × FileManager → Bytes → ψ × FileManager) (s : ClientSession κ (ψ × FileManager))

/-- The requests that a client makes of a decoded name operate on the file. -/
structure Reached (u : String) (content : Bytes) : Prop where
  get : handleMessage W (withFiles Sh σ snap) s MsgType.FileGetReq.code (requestBody (shown u)) =
    sendFile W (withFiles Sh σ snap)
      (s.emit (.message MsgType.FileGetReq.code (requestBody (shown u)))) (utf8 u)
  read : s.shared.2.read (utf8 u) = some content
  delete : handleMessage W (withFiles Sh σ snap) s MsgType.FileDeleteReq.code
      (requestBody (shown u)) =
    sendJson W ({ s.emit (.message MsgType.FileDeleteReq.code (requestBody (shown u))) with
        shared := (s.shared.1, { s.shared.2 with files := s.shared.2.files.without (utf8 u) }) }.emit
      (.remove (utf8 u))) .FileDeleteResp (deleteJson (utf8 u) true)

theorem reached {u : String} {content : Bytes} {mtime : Int} (hname : Plain (utf8 u))
    (h : (utf8 u, .regular content mtime) ∈ s.shared.2.files.entries) :
    Reached W Sh σ snap s u content := by
  have hprintable := hname.printable_text
  have hget : getString (requestBody (shown u)) (utf8 "name") = some (utf8 u) := by
    rw [shown_eq hprintable]
    exact getString_requestBody hprintable
  obtain ⟨hread, hremove⟩ := operates hname h
  refine ⟨?_, hread, ?_⟩
  · unfold handleMessage
    simp only [show MsgType.ofCode MsgType.FileGetReq.code = some .FileGetReq from rfl, hget]
  · unfold handleMessage deleteFile
    simp only [show MsgType.ofCode MsgType.FileDeleteReq.code = some .FileDeleteReq from rfl, hget]
    change sendJson W ({ s.emit _ with
      shared := (s.shared.1, (s.shared.2.remove (utf8 u)).2) }.emit _) _
        (deleteJson (utf8 u) (s.shared.2.remove (utf8 u)).1) = _
    rw [hremove]

/-! ## Main result -/

/-- **File listing.** For every capture directory whose listed names are UTF-8,
the reply to a FILE_LIST_REQ is a JSON array in UTF-8 with the entries of its
files, in some order; and what a client asks of a file with a plain name by its
decoded name is done to that file. -/
theorem file_listing
    (hnames : ∀ e ∈ s.shared.2.files.entries, (info? e).isSome = true → IsUtf8 e.1) :
    (∃ a : ArrayText, sendFileList W (withFiles Sh σ snap) s =
        sendJson W (s.emit .list) .FileListResp a.text ∧
      (decodeUtf8? a.text).isSome = true ∧
      a.decode.Perm (s.shared.2.files.entries.filterMap shownEntry)) ∧
    ∀ u content mtime, (utf8 u, .regular content mtime) ∈ s.shared.2.files.entries →
      Plain (utf8 u) → Reached W Sh σ snap s u content := by
  refine ⟨⟨⟨[], (s.shared.2.list σ).map entryText, [], []⟩, ?_, ?_, ?_⟩, ?_⟩
  · have hutf8 : ∀ f ∈ s.shared.2.list σ, IsUtf8 f.name := by
      intro f hf
      obtain ⟨e, he, hinfo⟩ := List.mem_filterMap.mp ((σ.perm _).mem_iff.mp hf)
      have hname : f.name = e.1 := info?_name hinfo
      rw [hname]
      exact hnames e he (by rw [hinfo]; rfl)
    rw [← fileListJson_eq hutf8]
    rfl
  · exact decodeUtf8?_isSome_iff.mpr (ArrayText.isUtf8 _)
  -- the sort only permutes the files, whatever order the directory gives
  · have hshown : ∀ e ∈ s.shared.2.files.entries,
        (info? e).map (fun f => (entryText f).decode) = shownEntry e :=
      fun e he => info?_shown (s.shared.2.files.fits e he)
    have hperm := (σ.perm (s.shared.2.files.entries.filterMap info?)).map
      fun f => (entryText f).decode
    rw [List.map_filterMap, List.filterMap_congr hshown] at hperm
    rw [ArrayText.decode, List.map_map]
    exact hperm
  · intro u content mtime hmem hname
    exact reached W Sh σ snap s hname hmem

end Session

/-- Is `a` no older than `b`? -/
def newer (a b : FileInfo) : Bool := decide (b.mtime ≤ a.mtime)

/-- A sort that keeps files of one age in their order. -/
def stable : NewestFirst where
  sort l := l.mergeSort newer
  perm l := List.mergeSort_perm l newer
  sorted l := by
    have htrans : ∀ a b c, newer a b = true → newer b c = true → newer a c = true := by
      intro a b c hab hbc
      exact decide_eq_true (UInt64.le_trans (of_decide_eq_true hbc) (of_decide_eq_true hab))
    have htotal : ∀ a b, (newer a b || newer b a) = true := by
      intro a b
      rw [Bool.or_eq_true, newer, newer, decide_eq_true_eq, decide_eq_true_eq]
      exact UInt64.le_total b.mtime a.mtime
    exact (List.pairwise_mergeSort htrans htotal l).imp fun h => of_decide_eq_true h

/-- A session of a terminal whose capture directory holds the given files. -/
def captureSession (files : Directory) :
    ClientSession (Socket × List PollResult) (Unit × FileManager) :=
  create ⟨15, []⟩ (⟨[], [], [], false⟩, []) ((), ⟨utf8 "/tmp/captures", files⟩)

def captureWorld : World (Socket × List PollResult) := .of (TcpConn RawByteStream) (schedule 0)

/-- A directory with one file of one byte. -/
def oneFile (name : Bytes) (hlegal : LegalName name) : Directory where
  entries := [(name, .regular [0x41] 7)]
  legal := by simpa using hlegal
  fits := by simp [Node.Fits]
  unique := by simp

theorem file_listing_quoted :
    Reached captureWorld Shared.empty stable (fun x _ => x)
      (captureSession (oneFile (utf8 "a\"b.jpg") (by decide +kernel))) "a\"b.jpg" [0x41] := by
  have hplain : Plain (utf8 "a\"b.jpg") := by decide +kernel
  refine (file_listing captureWorld Shared.empty stable (fun x _ => x)
    (captureSession (oneFile (utf8 "a\"b.jpg") (by decide +kernel))) ?_).2 "a\"b.jpg" [0x41] 7 ?_ hplain
  · intro e he _
    rw [List.mem_singleton.mp he]
    exact ⟨_, rfl⟩
  · exact List.mem_singleton.mpr rfl

/-- The FILE_LIST_RESP body of a directory with one file. -/
def oneFileList (name : Bytes) (hlegal : LegalName name) : Bytes :=
  fileListJson ((FileManager.mk (utf8 "/tmp/captures") (oneFile name hlegal)).list stable)

/-- A listed file whose name has two dots in a row is not read, a control
character is listed as a space, and a name in another encoding is no UTF-8. -/
theorem dots_out_of_reach :
    (¬ ∀ (files : Directory) (u : String) (content : Bytes) (mtime : Int),
      (utf8 u, .regular content mtime) ∈ files.entries → (utf8 u).head? ≠ some 0x2E →
      Reached captureWorld Shared.empty stable (fun x _ => x) (captureSession files) u content) ∧
    oneFileList [0x01] (by decide +kernel) = oneFileList [0x20] (by decide +kernel) ∧
    decodeUtf8? (oneFileList [0xE9] (by decide +kernel)) = none := by
  refine ⟨fun h => ?_, ?_, ?_⟩
  · have hread := (h (oneFile (utf8 "a..b") (by decide +kernel)) "a..b" [0x41] 7
      (List.mem_singleton.mpr rfl) (by decide +kernel)).read
    revert hread
    decide +kernel
  · decide +kernel
  · decide +kernel

end FaceTracking
