import FaceTracking.File.FileCalls

/-!
# Path confinement

Whatever bytes a client sends as a name, the path they are resolved to is one
level below the capture directory, and the system is asked for that path and
no other (`path_confinement`).
-/

namespace FaceTracking.FileManager

open Lib

variable {fm : FileManager} {name full : Bytes}

/-- A plain name cancels nothing. -/
theorem Plain.ne_dotdot (h : Plain name) : name ≠ utf8 ".." := by
  rintro rfl
  exact absurd h.no_dotdot (by decide)

theorem Plain.no_nul (h : Plain name) : 0x00 ∉ name :=
  fun hmem => absurd (h.printable _ hmem) (by decide)

theorem resolve_normalise (hdir : fm.dir ≠ []) (h : fm.resolve name = some full) :
    normalise full = (normalise fm.dir).child name := by
  obtain ⟨hplain, rfl⟩ := (resolve_eq_some_iff fm name full).mp h
  have hslash : fm.dir ++ utf8 "/" ++ name = fm.dir ++ 0x2F :: name := by
    rw [List.append_assoc]
    rfl
  rw [hslash]
  exact normalise_child hdir hplain.no_slash hplain.ne_nil hplain.ne_dot hplain.ne_dotdot

/-- A call asks for the resolved path only. -/
theorem calls_touched {φ η : Type} (F : Stdio φ η) (hdir : 0x00 ∉ fm.dir)
    (h : fm.resolve name = some full) (out : Bytes) (d : Disk φ) :
    (Calls.read F fm name out d).2.2.touched = d.touched ++ [full] ∧
      (Calls.remove F fm name d).2.touched = d.touched ++ [full] := by
  have hpath := Calls.resolve_cString hdir h
  refine ⟨?_, ?_⟩
  · unfold Calls.read Calls.fopen
    simp only [h, hpath]
    split
    · rename_i hopen
      rw [← (Prod.mk.inj hopen).2]
    · rename_i hopen
      rw [Calls.readAll_touched, ← (Prod.mk.inj hopen).2]
  · unfold Calls.remove Calls.unlink
    simp only [h, hpath]

/-- **Confinement.** A name that is resolved leads to one plain component below
the directory, as a C string too, and a call asks for that path only; a name
that is not resolved leads nowhere and changes nothing. -/
theorem path_confinement {φ η : Type} (F : Stdio φ η) (fm : FileManager) (hdir : fm.dir ≠ [])
    (hnul : 0x00 ∉ fm.dir) (name out : Bytes) (d : Disk φ) :
    (∀ full, fm.resolve name = some full →
      normalise full = (normalise fm.dir).child name ∧
        (name ≠ [] ∧ name.length ≤ 128 ∧ 0x00 ∉ name ∧ cString full = full) ∧
        (Calls.read F fm name out d).2.2.touched = d.touched ++ [full] ∧
        (Calls.remove F fm name d).2.touched = d.touched ++ [full]) ∧
    (fm.resolve name = none →
      Calls.read F fm name out d = (false, out, d) ∧ Calls.remove F fm name d = (false, d)) := by
  refine ⟨fun full h => ?_, fun h => ?_⟩
  · have hplain := ((resolve_eq_some_iff fm name full).mp h).1
    exact ⟨resolve_normalise hdir h,
      ⟨hplain.ne_nil, hplain.length_le, hplain.no_nul, Calls.resolve_cString hnul h⟩,
      calls_touched F hnul h out d⟩
  · unfold Calls.read Calls.remove
    simp only [h, and_self]

/-- A directory path with a detour, and a name that only looks like one. -/
theorem path_confinement_detour :
    let fm : FileManager := ⟨utf8 "/srv/./x/../captures/", ⟨[], nofun, nofun, .nil⟩⟩
    let full := utf8 "/srv/./x/../captures//.snap. jpg"
    fm.resolve (utf8 ".snap. jpg") = some full ∧
      normalise full = ⟨true, [utf8 "srv", utf8 "captures", utf8 ".snap. jpg"]⟩ := by
  intro fm full
  have hresolve : fm.resolve (utf8 ".snap. jpg") = some full := by decide +kernel
  have h := path_confinement Calls.directoryStdio fm (by decide) (by decide) (utf8 ".snap. jpg") []
    ⟨fm, []⟩
  exact ⟨hresolve, (h.1 full hresolve).1.trans (by decide +kernel)⟩

end FaceTracking.FileManager
