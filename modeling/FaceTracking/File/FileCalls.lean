import FaceTracking.File.FileManager
import FaceTracking.Lib.Path

/-!
# The file manager's system calls

`read` and `remove` as the calls they make, on any file system; every path
handed to the system is recorded. `FileManager.read` and `FileManager.remove`
are what they come to on a directory (`read_directory`, `remove_directory`).
-/

namespace FaceTracking

open Lib

/-- The calls, with an open file as a handle. -/
structure Stdio (φ η : Type) where
  fopen : φ → Bytes → Option η × φ
  /-- `fseek` to the end. -/
  seekEnd : φ → η → φ
  ftell : φ → η → Int × φ
  /-- `fseek` to the start. -/
  seekSet : φ → η → φ
  fread : φ → η → Nat → Bytes × φ
  fclose : φ → η → φ
  unlink : φ → Bytes → Bool × φ
  fread_le : ∀ s f n, (fread s f n).1.length ≤ n

/-- A file system and the paths it has been asked for. -/
structure Disk (φ : Type) where
  fs : φ
  touched : List Bytes

namespace FileManager.Calls

variable {φ η : Type} (F : Stdio φ η)

def fopen (d : Disk φ) (path : Bytes) : Option η × Disk φ :=
  ((F.fopen d.fs (cString path)).1, ⟨(F.fopen d.fs (cString path)).2, d.touched ++ [cString path]⟩)

def unlink (d : Disk φ) (path : Bytes) : Bool × Disk φ :=
  ((F.unlink d.fs (cString path)).1, ⟨(F.unlink d.fs (cString path)).2, d.touched ++ [cString path]⟩)

/-- `out.resize(n)`, for an `n` that memory can hold. -/
def resize (out : Bytes) (n : Nat) : Bytes := out.take n ++ List.replicate (n - out.length) 0

/-- What is read into a buffer; nothing into an empty one. -/
def fill (fs : φ) (f : η) (out : Bytes) : Bytes × φ :=
  if out = [] then ([], fs) else F.fread fs f out.length

/-- `read` behind a successful `fopen`. -/
def readAll (f : η) (out : Bytes) (d : Disk φ) : Bool × Bytes × Disk φ :=
  let fs := F.seekEnd d.fs f
  let sz := F.ftell fs f
  let fs := F.seekSet sz.2 f
  if sz.1 < 0 then (false, out, { d with fs := F.fclose fs f })
  else
    let out := resize out sz.1.toNat
    let rd := fill F fs f out
    let out' := rd.1 ++ out.drop rd.1.length
    let d := { d with fs := F.fclose rd.2 f }
    if rd.1.length ≠ out.length then (false, [], d) else (true, out', d)

/-- The result, the output buffer and the disk. -/
def read (fm : FileManager) (name out : Bytes) (d : Disk φ) : Bool × Bytes × Disk φ :=
  match fm.resolve name with
  | none => (false, out, d)
  | some full =>
    match fopen F d full with
    | (none, d) => (false, out, d)
    | (some f, d) => readAll F f out d

def remove (fm : FileManager) (name : Bytes) (d : Disk φ) : Bool × Disk φ :=
  match fm.resolve name with
  | none => (false, d)
  | some full => unlink F d full

theorem readAll_touched (f : η) (out : Bytes) (d : Disk φ) :
    (readAll F f out d).2.2.touched = d.touched := by
  unfold readAll
  simp only
  split
  · rfl
  · split <;> rfl

/-! ## On a directory -/

/-- What opening a path of the directory gives to read. -/
def contents (fm : FileManager) (path : Bytes) : Option Bytes :=
  match fm.lookup path with
  | none => none
  | some (_, .regular content _) => some content
  | some (_, .other r _) => r

/-- The calls on a directory; a handle is the contents it reads. -/
def directoryStdio : Stdio FileManager Bytes where
  fopen fm path := (contents fm path, fm)
  seekEnd fm _ := fm
  ftell fm content := (content.length, fm)
  seekSet fm _ := fm
  fread fm content n := (content.take n, fm)
  fclose fm _ := fm
  unlink fm path :=
    match fm.lookup path with
    | none => (false, fm)
    | some (_, .other _ false) => (false, fm)
    | some (entry, _) => (true, { fm with files := fm.files.without entry })
  fread_le _ _ _ := List.length_take_le _ _

/-- Reading to the end gives the contents. -/
theorem readAll_directory (content out : Bytes) (d : Disk FileManager) :
    readAll directoryStdio content out d = (true, content, d) := by
  have hresize : (resize out content.length).length = content.length := by
    simp only [resize, List.length_append, List.length_take, List.length_replicate]
    omega
  have hread : fill directoryStdio d.fs content (resize out content.length) = (content, d.fs) := by
    unfold fill
    split
    · rename_i hnil
      rw [hnil] at hresize
      rw [List.eq_nil_of_length_eq_zero hresize.symm]
    · rw [hresize]
      exact congrArg (·, d.fs) List.take_length
  have hsize : ((content.length : Int)).toNat = content.length := Int.toNat_natCast _
  unfold readAll
  simp only [directoryStdio, hsize] at hread ⊢
  rw [if_neg (by omega), hread, if_neg (not_not.mpr hresize.symm),
    List.drop_of_length_le hresize.le, List.append_nil]

variable {fm : FileManager}

/-- A path of the directory is a C string. -/
theorem resolve_cString (hdir : 0x00 ∉ fm.dir) {name full : Bytes}
    (h : fm.resolve name = some full) : cString full = full := by
  obtain ⟨hplain, rfl⟩ := (resolve_eq_some_iff fm name full).mp h
  refine cString_eq fun hmem => ?_
  rcases List.mem_append.mp hmem with hmem | hname
  · rcases List.mem_append.mp hmem with hmem | hslash
    · exact hdir hmem
    · exact absurd hslash (by decide)
  · exact absurd (hplain.printable _ hname) (by decide)

/-- On a directory the calls of `read` come to `FileManager.read`. -/
theorem read_directory (hdir : 0x00 ∉ fm.dir) (name out : Bytes) (touched : List Bytes) :
    (read directoryStdio fm name out ⟨fm, touched⟩).1 = (fm.read name).isSome ∧
      ∀ content ∈ fm.read name, (read directoryStdio fm name out ⟨fm, touched⟩).2.1 = content := by
  have hread : fm.read name = (fm.resolve name).bind (contents fm) := by
    unfold FileManager.read
    cases fm.resolve name with
    | none => rfl
    | some full => rfl
  rw [hread]
  unfold read
  cases hresolve : fm.resolve name with
  | none => exact ⟨rfl, nofun⟩
  | some full =>
    simp only [fopen, resolve_cString hdir hresolve, Option.bind_some]
    have hopen : directoryStdio.fopen fm full = (contents fm full, fm) := rfl
    rw [hopen]
    cases contents fm full with
    | none => exact ⟨rfl, nofun⟩
    | some content =>
      simp only [readAll_directory]
      exact ⟨rfl, fun c hc => Option.some.inj hc⟩

/-- On a directory the calls of `remove` come to `FileManager.remove`. -/
theorem remove_directory (hdir : 0x00 ∉ fm.dir) (name : Bytes) (touched : List Bytes) :
    (remove directoryStdio fm name ⟨fm, touched⟩).1 = (fm.remove name).1 ∧
      (remove directoryStdio fm name ⟨fm, touched⟩).2.fs = (fm.remove name).2 := by
  unfold remove FileManager.remove
  cases hresolve : fm.resolve name with
  | none => exact ⟨rfl, rfl⟩
  | some full =>
    have hunlink : unlink directoryStdio ⟨fm, touched⟩ full =
        ((directoryStdio.unlink fm full).1, ⟨(directoryStdio.unlink fm full).2, touched ++ [full]⟩) := by
      rw [unlink, resolve_cString hdir hresolve]
    simp only [hunlink]
    exact ⟨rfl, rfl⟩

end FileManager.Calls

end FaceTracking
