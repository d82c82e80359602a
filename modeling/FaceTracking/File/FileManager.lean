import FaceTracking.Core.Types

/-!
# The capture directory

`FileManager` lists, reads and deletes the files of one directory by name. A
directory is what its entries are: each name leads to a regular file with
contents and a time, or to something else. Every path `FileManager` uses is the
directory's with a name behind it, and `resolve` is the guard that turns a
client's name into one (`resolve_eq_some_iff`).

Every call is taken to return. A `read` need not: a directory can be opened, and
the size it tells may be one for which `out.resize` throws. Nothing catches that,
so the process ends, and no run has a state behind it.
-/

namespace FaceTracking

open Lib

/-! ## Directories -/

/-- What a name stands for. -/
inductive Node where
  | regular (content : Bytes) (mtime : Int)
  /-- A directory, a device, a dangling link: what a read that returns gives, and
  whether it can be unlinked. -/
  | other (read : Option Bytes) (unlinks : Bool)
deriving DecidableEq

/-- The names a Unix directory can hold, next to `.` and `..`. -/
structure LegalName (name : Bytes) : Prop where
  ne_nil : name ≠ []
  length_le : name.length ≤ 255
  no_nul : 0x00 ∉ name
  no_slash : 0x2F ∉ name
  ne_dot : name ≠ utf8 "."
  ne_dotdot : name ≠ utf8 ".."

instance (name : Bytes) : Decidable (LegalName name) :=
  decidable_of_iff
    (name ≠ [] ∧ name.length ≤ 255 ∧ 0x00 ∉ name ∧ 0x2F ∉ name ∧ name ≠ utf8 "." ∧ name ≠ utf8 "..")
    ⟨fun ⟨h₁, h₂, h₃, h₄, h₅, h₆⟩ => ⟨h₁, h₂, h₃, h₄, h₅, h₆⟩,
      fun h => ⟨h.ne_nil, h.length_le, h.no_nul, h.no_slash, h.ne_dot, h.ne_dotdot⟩⟩

/-- Size and time are numbers of 64 bits with a sign. -/
def Node.Fits : Node → Prop
  | .regular content mtime => content.length < 2 ^ 63 ∧ -2 ^ 63 ≤ mtime ∧ mtime < 2 ^ 63
  | .other _ _ => True

structure Directory where
  entries : List (Bytes × Node)
  legal : ∀ e ∈ entries, LegalName e.1
  fits : ∀ e ∈ entries, e.2.Fits
  unique : (entries.map Prod.fst).Nodup

namespace Directory

def node? (d : Directory) (name : Bytes) : Option Node :=
  (d.entries.find? fun e => e.1 = name).map Prod.snd

/-- The directory without a name. -/
def without (d : Directory) (name : Bytes) : Directory where
  entries := d.entries.filter fun e => e.1 ≠ name
  legal e he := d.legal e (List.mem_of_mem_filter he)
  fits e he := d.fits e (List.mem_of_mem_filter he)
  unique := d.unique.sublist (List.filter_sublist.map Prod.fst)

theorem node?_eq_some {d : Directory} {name : Bytes} {n : Node} (h : (name, n) ∈ d.entries) :
    d.node? name = some n := by
  obtain ⟨entries, legal, fits, unique⟩ := d
  unfold node?
  simp only at h ⊢
  clear legal fits
  induction entries with
  | nil => cases h
  | cons e entries ih =>
    rw [List.map_cons, List.nodup_cons] at unique
    rcases List.mem_cons.mp h with rfl | h
    · simp
    · have hne : e.1 ≠ name := by
        rintro rfl
        exact unique.1 (List.mem_map.mpr ⟨_, h, rfl⟩)
      rw [List.find?_cons_of_neg (by simpa using hne)]
      exact ih unique.2 h

end Directory

/-! ## The file manager -/

structure FileManager where
  dir : Bytes
  files : Directory

namespace FileManager

/-- Reject anything that is not a plain basename (no separators, no traversal). -/
def resolve (fm : FileManager) (name : Bytes) : Option Bytes :=
  if name = [] ∨ name.length > 128 then none
  else if 0x2F ∈ name then none
  else if 0x5C ∈ name then none
  else if name = utf8 "." ∨ name = utf8 ".." then none
  else if (find? (utf8 "..") name).isSome then none
  else if ∃ c ∈ name, c = 0x00 ∨ c < 0x20 then none
  else some (fm.dir ++ utf8 "/" ++ name)

/-- What a path leads to: the entry whose name stands behind the directory's path. -/
def lookup (fm : FileManager) (path : Bytes) : Option (Bytes × Node) :=
  fm.files.entries.find? fun e => fm.dir ++ utf8 "/" ++ e.1 = path

/-- The entry of a listing; hidden names and what is no regular file have none. -/
def info? (e : Bytes × Node) : Option FileInfo :=
  if e.1.head? = some 0x2E then none
  else
    match e.2 with
    | .regular content mtime => some ⟨e.1, UInt64.ofNat content.length, UInt64.ofInt mtime⟩
    | .other _ _ => none

/-- `std::sort`, newest first: the order of files of one age is its own affair. -/
structure NewestFirst where
  sort : List FileInfo → List FileInfo
  perm : ∀ l, (sort l).Perm l
  sorted : ∀ l, (sort l).Pairwise fun a b => b.mtime ≤ a.mtime

def list (σ : NewestFirst) (fm : FileManager) : List FileInfo :=
  σ.sort (fm.files.entries.filterMap info?)

def read (fm : FileManager) (name : Bytes) : Option Bytes :=
  match fm.resolve name with
  | none => none
  | some full =>
    match fm.lookup full with
    | none => none
    | some (_, .regular content _) => some content
    | some (_, .other r _) => r

def remove (fm : FileManager) (name : Bytes) : Bool × FileManager :=
  match fm.resolve name with
  | none => (false, fm)
  | some full =>
    match fm.lookup full with
    | none => (false, fm)
    | some (_, .other _ false) => (false, fm)
    | some (entry, _) => (true, { fm with files := fm.files.without entry })

/-! ## What the guard lets through -/

/-- The names `resolve` accepts. -/
structure Plain (name : Bytes) : Prop where
  ne_nil : name ≠ []
  length_le : name.length ≤ 128
  no_slash : 0x2F ∉ name
  no_backslash : 0x5C ∉ name
  ne_dot : name ≠ utf8 "."
  no_dotdot : find? (utf8 "..") name = none
  printable : ∀ c ∈ name, 0x20 ≤ c

instance (name : Bytes) : Decidable (Plain name) :=
  decidable_of_iff
    (name ≠ [] ∧ name.length ≤ 128 ∧ 0x2F ∉ name ∧ 0x5C ∉ name ∧ name ≠ utf8 "." ∧
      find? (utf8 "..") name = none ∧ ∀ c ∈ name, 0x20 ≤ c)
    ⟨fun ⟨h₁, h₂, h₃, h₄, h₅, h₆, h₇⟩ => ⟨h₁, h₂, h₃, h₄, h₅, h₆, h₇⟩,
      fun h => ⟨h.ne_nil, h.length_le, h.no_slash, h.no_backslash, h.ne_dot, h.no_dotdot,
        h.printable⟩⟩

theorem resolve_eq_some_iff (fm : FileManager) (name full : Bytes) :
    fm.resolve name = some full ↔ Plain name ∧ full = fm.dir ++ utf8 "/" ++ name := by
  unfold resolve
  constructor
  · intro h
    split at h
    · cases h
    rename_i hlength
    split at h
    · cases h
    rename_i hslash
    split at h
    · cases h
    rename_i hbackslash
    split at h
    · cases h
    rename_i hdots
    split at h
    · cases h
    rename_i htraversal
    split at h
    · cases h
    rename_i hcontrol
    rw [not_or] at hlength hdots
    refine ⟨⟨hlength.1, Nat.not_lt.mp hlength.2, hslash, hbackslash, hdots.1, ?_, ?_⟩,
      (Option.some.inj h).symm⟩
    · simpa using htraversal
    · intro c hc
      by_contra hlow
      exact hcontrol ⟨c, hc, .inr (UInt8.not_le.mp hlow)⟩
  · rintro ⟨hplain, rfl⟩
    have hcontrol : ¬ ∃ c ∈ name, c = 0x00 ∨ c < 0x20 := by
      rintro ⟨c, hc, rfl | hlow⟩
      · exact absurd (hplain.printable _ hc) (by decide)
      · exact absurd (hplain.printable c hc) (UInt8.not_le.mpr hlow)
    have hdots : ¬ (name = utf8 "." ∨ name = utf8 "..") := by
      rw [not_or]
      refine ⟨hplain.ne_dot, ?_⟩
      rintro rfl
      exact absurd hplain.no_dotdot (by decide)
    rw [if_neg (not_or.mpr ⟨hplain.ne_nil, Nat.not_lt.mpr hplain.length_le⟩),
      if_neg hplain.no_slash, if_neg hplain.no_backslash, if_neg hdots,
      if_neg (by simp [hplain.no_dotdot]), if_neg hcontrol]

/-- The path of an entry leads to it. -/
theorem lookup_entry {fm : FileManager} {name : Bytes} {n : Node}
    (h : (name, n) ∈ fm.files.entries) :
    fm.lookup (fm.dir ++ utf8 "/" ++ name) = some (name, n) := by
  have hsame : (fun e : Bytes × Node => decide (fm.dir ++ utf8 "/" ++ e.1 =
      fm.dir ++ utf8 "/" ++ name)) = fun e => decide (e.1 = name) := by
    funext e
    simp
  have hnode := Directory.node?_eq_some h
  unfold lookup
  rw [hsame]
  unfold Directory.node? at hnode
  obtain ⟨e, he, hsnd⟩ := Option.map_eq_some_iff.mp hnode
  have hfst : e.1 = name := by simpa using List.find?_some he
  rw [he, ← hfst, ← hsnd]

/-- `read` and `remove` of an acceptable name operate on the file of that name. -/
theorem operates {fm : FileManager} {name content : Bytes} {mtime : Int} (hname : Plain name)
    (h : (name, .regular content mtime) ∈ fm.files.entries) :
    fm.read name = some content ∧
      fm.remove name = (true, { fm with files := fm.files.without name }) := by
  have hresolve := (resolve_eq_some_iff fm name _).mpr ⟨hname, rfl⟩
  have hlookup := lookup_entry h
  refine ⟨?_, ?_⟩
  · unfold read
    simp only [hresolve, hlookup]
  · unfold remove
    simp only [hresolve, hlookup]

end FileManager

end FaceTracking
