import FaceTracking.Lib.Bytes

/-!
# Lexical paths

A path as its components, cut at the slashes. Empty components and `.` name
the directory they stand in, and `..` takes back the component before it; at
the root it does nothing, and at the front of a relative path it stays. A
component that is none of these goes one level down (`normalise_child`).
-/

namespace Lib

/-- A normalised path. -/
structure Lexical where
  absolute : Bool
  components : List Bytes
deriving DecidableEq

/-- The path with one more component; `..` takes one away. -/
def Lexical.push (p : Lexical) (c : Bytes) : Lexical :=
  if c = [] ∨ c = utf8 "." then p
  else if c = utf8 ".." then
    match p.components.getLast? with
    | none => if p.absolute then p else { p with components := [c] }
    | some top =>
      if top = utf8 ".." then { p with components := p.components ++ [c] }
      else { p with components := p.components.dropLast }
  else { p with components := p.components ++ [c] }

/-- The path of an entry one level below. -/
def Lexical.child (p : Lexical) (c : Bytes) : Lexical :=
  { p with components := p.components ++ [c] }

def normalise (path : Bytes) : Lexical :=
  (path.splitOn 0x2F).foldl Lexical.push ⟨path.head? = some 0x2F, []⟩

/-- The part of a string that a C function sees. -/
def cString (s : Bytes) : Bytes := s.takeWhile (· ≠ 0x00)

theorem cString_eq {s : Bytes} (h : 0x00 ∉ s) : cString s = s :=
  List.takeWhile_eq_self_iff.mpr fun c hc => by
    simp only [ne_eq, decide_eq_true_eq]
    rintro rfl
    exact h hc

theorem Lexical.push_name (p : Lexical) {c : Bytes} (hnil : c ≠ []) (hdot : c ≠ utf8 ".")
    (hdotdot : c ≠ utf8 "..") : p.push c = p.child c := by
  rw [push, if_neg (not_or.mpr ⟨hnil, hdot⟩), if_neg hdotdot, child]

/-- Behind a slash a path without one is one more component. -/
theorem normalise_append {dir c : Bytes} (hdir : dir ≠ []) (hc : 0x2F ∉ c) :
    normalise (dir ++ 0x2F :: c) = (normalise dir).push c := by
  obtain ⟨x, dir, rfl⟩ := List.exists_cons_of_ne_nil hdir
  unfold normalise
  rw [List.splitOn_append_cons_self, List.splitOn_eq_singleton hc, List.foldl_append]
  rfl

/-- A name behind a slash is one level below. -/
theorem normalise_child {dir c : Bytes} (hdir : dir ≠ []) (hslash : 0x2F ∉ c) (hnil : c ≠ [])
    (hdot : c ≠ utf8 ".") (hdotdot : c ≠ utf8 "..") :
    normalise (dir ++ 0x2F :: c) = (normalise dir).child c := by
  rw [normalise_append hdir hslash, Lexical.push_name _ hnil hdot hdotdot]

example : normalise (utf8 "/a//b/./../c/") = ⟨true, [utf8 "a", utf8 "c"]⟩ := by decide

end Lib
