import FaceTracking.Net.MiniJsonText
import FaceTracking.Net.ClientSession

/-!
# The getters on flat objects

A lookup goes to the first string of the text that is spelled like the key and
from there to the next colon. `Leads` says when that colon is the one of the
member with that name: then, and if the value is written in a way the readers
understand, the getters agree with the object (`reads_object`), whatever the
order of its members. A string value that is spelled like the key sends the
lookup elsewhere (`value_like_key`).
-/

namespace FaceTracking.Mjson

open Lib Lib.Json

/-! ## Where a lookup lands -/

def Named (k : String) (m : Member) : Prop := m.key.decode = some k

instance (k : String) (m : Member) : Decidable (Named k m) := inferInstanceAs (Decidable (_ = _))

/-- A string value spelled like a key. -/
def ValueSpells (key : Bytes) : ValueText → Prop
  | .str s => Spells key s
  | _ => False

instance (key : Bytes) : ∀ v, Decidable (ValueSpells key v)
  | .str _ => inferInstanceAs (Decidable (Spells _ _))
  | .num _ => inferInstanceAs (Decidable False)
  | .bool _ => inferInstanceAs (Decidable False)

/-- The first colon behind the first string spelled like `k` is the one of the
member named `k`; if there is no such member, there is no such colon. -/
def Leads (k : String) : List Member → Prop
  | [] => True
  | m :: ms =>
    if Spells (utf8 k) m.key then Named k m
    else if ValueSpells (utf8 k) m.value then ¬ Named k m ∧ ∀ m' ∈ ms.head?, Named k m'
    else ¬ Named k m ∧ Leads k ms

instance Leads.decidable (k : String) : ∀ ms, Decidable (Leads k ms)
  | [] => inferInstanceAs (Decidable True)
  | m :: ms =>
    have := Leads.decidable k ms
    inferInstanceAs (Decidable (if Spells (utf8 k) m.key then Named k m
      else if ValueSpells (utf8 k) m.value then ¬ Named k m ∧ ∀ m' ∈ ms.head?, Named k m'
      else ¬ Named k m ∧ Leads k ms))

/-- What stands behind a member. -/
def behindMember (ms : List Member) (tail : Bytes) : Bytes :=
  match ms with
  | [] => tail
  | ms => 0x2C :: (commaSeparated (ms.map Member.text) ++ tail)

theorem commaSeparated_cons (m : Member) (ms : List Member) (tail : Bytes) :
    commaSeparated ((m :: ms).map Member.text) ++ tail = m.text ++ behindMember ms tail := by
  cases ms with
  | nil => rfl
  | cons m' ms =>
    simp only [List.map_cons, commaSeparated, behindMember, List.append_assoc, List.cons_append]

/-- The text a lookup ends at, for the member it should find. -/
def Lands (m : Option Member) (t : Option Bytes) : Prop :=
  match m with
  | none => t = none
  | some m => ∃ r, NumberEnds r ∧ t = some ((blanks m.afterColon ++ (m.value.text ++ r)).dropWhile
      fun x => x == 0x20 || x == 0x09)

theorem blanks_not_mem {x : UInt8} (hx : x ≠ 0x20 ∧ x ≠ 0x09 ∧ x ≠ 0x0A ∧ x ≠ 0x0D)
    (w : List Blank) : x ∉ blanks w := by
  intro h
  rcases mem_blanks h with rfl | rfl | rfl | rfl
  · exact hx.1 rfl
  · exact hx.2.1 rfl
  · exact hx.2.2.1 rfl
  · exact hx.2.2.2 rfl

/-- The end of an object. -/
def closing (inside after : List Blank) : Bytes := blanks inside ++ 0x7D :: blanks after

theorem closing_not_mem {x : UInt8} (hx : x ≠ 0x20 ∧ x ≠ 0x09 ∧ x ≠ 0x0A ∧ x ≠ 0x0D)
    (hbrace : x ≠ 0x7D) (inside after : List Blank) : x ∉ closing inside after := by
  unfold closing
  rw [List.mem_append, List.mem_cons, not_or, not_or]
  exact ⟨blanks_not_mem hx _, hbrace, blanks_not_mem hx _⟩

section Lookup

variable {k : String} (hk : Letters k) (inside after : List Blank)

/-- Behind a value there is white space, a comma or a brace. -/
theorem numberEnds_behind (w : List Blank) (ms : List Member) :
    NumberEnds (blanks w ++ behindMember ms (closing inside after)) := by
  have hends : ∀ (v : List Blank) {c : UInt8} (t : Bytes), c = 0x2C ∨ c = 0x7D →
      NumberEnds (blanks v ++ c :: t) := by
    intro v c t hc x hx
    cases v with
    | nil =>
      cases hx
      rcases hc with rfl | rfl <;> decide
    | cons b v =>
      cases hx
      cases b <;> decide
  cases ms with
  | nil =>
    have happend : blanks w ++ behindMember [] (closing inside after) =
        blanks (w ++ inside) ++ 0x7D :: blanks after := by
      simp [behindMember, closing, blanks]
    rw [happend]
    exact hends _ _ (.inr rfl)
  | cons m ms => exact hends _ _ (.inl rfl)

/-- The search goes on behind a comma. -/
theorem behind?_behindMember (ms : List Member) (tail : Bytes) :
    behind? (quoted 0x22 (utf8 k)) (behindMember ms tail) =
      behind? (quoted 0x22 (utf8 k)) (commaSeparated (ms.map Member.text) ++ tail) := by
  cases ms with
  | nil => rfl
  | cons m ms => exact behind?_plain (a := [0x2C]) (by decide) _

include hk in
/-- The closing quote of a value begins no occurrence. -/
theorem behind?_quote (w : List Blank) (ms : List Member) :
    behind? (quoted 0x22 (utf8 k)) (0x22 :: (blanks w ++ behindMember ms (closing inside after))) =
      behind? (quoted 0x22 (utf8 k))
        (commaSeparated (ms.map Member.text) ++ closing inside after) := by
  have hblanks : (0x22 : UInt8) ∉ blanks w := blanks_not_mem (by decide) w
  have hclosing : (0x22 : UInt8) ∉ closing inside after :=
    closing_not_mem (by decide) (by decide) inside after
  cases ms with
  | nil =>
    have hend := behind?_apart (q := 0x22) (w := utf8 k) (s := blanks w ++ closing inside after)
      (c := 0x7D) (by simp [hblanks, hclosing]) (by simp [closing])
      (hk.not_mem (by decide) (by decide)) []
    have hnone := behind?_plain (q := 0x22) (w := utf8 k) hclosing []
    rw [List.append_nil] at hend hnone
    exact hend.trans hnone.symm
  | cons m ms =>
    have hcomma := behind?_apart (q := 0x22) (w := utf8 k) (s := blanks w ++ [0x2C]) (c := 0x2C)
      (by simp [hblanks]) (by simp) (hk.not_mem (by decide) (by decide))
      (commaSeparated ((m :: ms).map Member.text) ++ closing inside after)
    rw [List.append_assoc] at hcomma
    exact hcomma

include hk in
/-- A value that is not the occurrence is passed. -/
theorem behind?_value {m : Member} (hm : ¬ ValueSpells (utf8 k) m.value) (ms : List Member) :
    behind? (quoted 0x22 (utf8 k)) (0x22 :: (blanks m.beforeColon ++ 0x3A :: (blanks m.afterColon ++
        (m.value.text ++ (blanks m.after ++ behindMember ms (closing inside after)))))) =
      behind? (quoted 0x22 (utf8 k))
        (commaSeparated (ms.map Member.text) ++ closing inside after) := by
  have hcolon : (0x3A : UInt8) ∉ utf8 k := hk.not_mem (by decide) (by decide)
  have hblanks : ∀ w, (0x22 : UInt8) ∉ blanks w := blanks_not_mem (by decide)
  -- up to the value, or up to its end if it is no string
  have hpass : ∀ v : Bytes, 0x22 ∉ v → ∀ l, behind? (quoted 0x22 (utf8 k))
      (0x22 :: (blanks m.beforeColon ++ 0x3A :: (blanks m.afterColon ++ (v ++ l)))) =
        behind? (quoted 0x22 (utf8 k)) l := by
    intro v hv l
    have hapart := behind?_apart (q := 0x22) (w := utf8 k)
      (s := blanks m.beforeColon ++ 0x3A :: (blanks m.afterColon ++ v)) (c := 0x3A)
      (by simp [hblanks, hv]) (by simp) hcolon l
    rw [← hapart]
    simp
  have hrest : behind? (quoted 0x22 (utf8 k)) (blanks m.after ++
      behindMember ms (closing inside after)) = behind? (quoted 0x22 (utf8 k))
        (commaSeparated (ms.map Member.text) ++ closing inside after) := by
    rw [behind?_plain (hblanks _), behind?_behindMember]
  cases hv : m.value with
  | str s =>
    rw [hv] at hm
    have hstring := behind?_string (hk.not_mem (by decide) (by decide))
      (hk.not_mem (by decide) (by decide)) s (blanks m.after ++ behindMember ms (closing inside after))
    rw [if_neg (show ¬ Spells (utf8 k) s from hm), behind?_quote hk] at hstring
    exact (hpass [] List.not_mem_nil _).trans hstring
  | num n =>
    have hnumber : (0x22 : UInt8) ∉ (ValueText.num n).text :=
      fun h => absurd (mem_numberText h) (by decide)
    exact (hpass _ hnumber _).trans hrest
  | bool b =>
    have hword : (0x22 : UInt8) ∉ (ValueText.bool b).text := by cases b <;> decide
    exact (hpass _ hword _).trans hrest

include hk in
/-- The search stops at a value that spells the key. -/
theorem behind?_value_like {m : Member} (hm : ValueSpells (utf8 k) m.value) (l : Bytes) :
    behind? (quoted 0x22 (utf8 k)) (0x22 :: (blanks m.beforeColon ++ 0x3A :: (blanks m.afterColon ++
        (m.value.text ++ l)))) = some l := by
  have hblanks : ∀ w, (0x22 : UInt8) ∉ blanks w := blanks_not_mem (by decide)
  cases hv : m.value with
  | str s =>
    rw [hv] at hm
    have hapart := behind?_apart (q := 0x22) (w := utf8 k)
      (s := blanks m.beforeColon ++ 0x3A :: blanks m.afterColon) (c := 0x3A) (by simp [hblanks])
      (by simp) (hk.not_mem (by decide) (by decide)) (s.text ++ l)
    have hstring := behind?_string (hk.not_mem (by decide) (by decide))
      (hk.not_mem (by decide) (by decide)) s l
    rw [if_pos (show Spells (utf8 k) s from hm)] at hstring
    rw [List.append_assoc, List.cons_append] at hapart
    exact hapart.trans hstring
  | num n =>
    rw [hv] at hm
    exact hm.elim
  | bool b =>
    rw [hv] at hm
    exact hm.elim

/-- The first colon behind text without one is the member's own. -/
theorem lands_colon (w : List Blank) (m : Member) (ms : List Member) (pre : Bytes)
    (hpre : 0x3A ∉ pre) :
    Lands (some m) (afterColon (pre ++ (blanks w ++ 0x3A :: (blanks m.afterColon ++
      (m.value.text ++ (blanks m.after ++ behindMember ms (closing inside after))))))) := by
  have hw : (0x3A : UInt8) ∉ pre ++ blanks w := by
    rw [List.mem_append, not_or]
    exact ⟨hpre, blanks_not_mem (by decide) w⟩
  refine ⟨_, numberEnds_behind inside after m.after ms, ?_⟩
  rw [← List.append_assoc, afterColon_append hw]

include hk in
/-- The key of a member named `k` has no colon. -/
theorem Named.key_text {m : Member} (hm : Named k m) : 0x3A ∉ m.key.text := by
  obtain ⟨cs, hcs, hofList⟩ := Option.map_eq_some_iff.mp hm
  have hletters : ':' ∉ cs := by
    intro hmem
    have hk' := hk ':' (by rw [← hofList, String.toList_ofList]; exact hmem)
    revert hk'
    decide
  have hbody := colon_not_mem_body hcs hletters
  simp [StringText.text, hbody]

include hk in
/-- **The lookup.** If the members lead to the key, the lookup lands on the value
of the member with that name, or nowhere if there is none. -/
theorem lands {ms : List Member} (h : Leads k ms) :
    Lands (ms.find? fun m => decide (Named k m))
      ((behind? (quoted 0x22 (utf8 k))
        (commaSeparated (ms.map Member.text) ++ closing inside after)).bind afterColon) := by
  -- the scan for the quoted key goes from member to member, as `Leads` does
  induction ms with
  | nil =>
    have hclosing : (0x22 : UInt8) ∉ closing inside after :=
      closing_not_mem (by decide) (by decide) inside after
    have hnone := behind?_plain (q := 0x22) (w := utf8 k) hclosing []
    rw [List.append_nil] at hnone
    simp only [List.map_nil, commaSeparated, List.nil_append, hnone]
    rfl
  | cons m ms ih =>
    have hquote : (0x22 : UInt8) ∉ utf8 k := hk.not_mem (by decide) (by decide)
    have hslash : (0x5C : UInt8) ∉ utf8 k := hk.not_mem (by decide) (by decide)
    have hkey : behind? (quoted 0x22 (utf8 k))
        (commaSeparated ((m :: ms).map Member.text) ++ closing inside after) =
        behind? (quoted 0x22 (utf8 k)) (m.key.text ++ (blanks m.beforeColon ++ 0x3A ::
          (blanks m.afterColon ++ (m.value.text ++ (blanks m.after ++
            behindMember ms (closing inside after)))))) := by
      rw [commaSeparated_cons, Member.text]
      simp only [List.append_assoc, List.cons_append]
      rw [behind?_plain (blanks_not_mem (by decide) _)]
    rw [hkey, behind?_string hquote hslash]
    unfold Leads at h
    by_cases hspells : Spells (utf8 k) m.key
    · -- the key itself
      rw [if_pos hspells] at h ⊢
      rw [List.find?_cons_of_pos (by simpa using h)]
      exact lands_colon inside after m.beforeColon m ms [] List.not_mem_nil
    · rw [if_neg hspells] at h ⊢
      by_cases hvalue : ValueSpells (utf8 k) m.value
      · -- a value spelled like the key, so the colon is the next member's
        rw [if_pos hvalue] at h
        obtain ⟨hm, hnext⟩ := h
        rw [List.find?_cons_of_neg (by simpa using hm), behind?_value_like hk hvalue]
        cases ms with
        | nil =>
          have hnone : 0x3A ∉ blanks m.after ++ closing inside after := by
            rw [List.mem_append, not_or]
            exact ⟨blanks_not_mem (by decide) _, closing_not_mem (by decide) (by decide) _ _⟩
          exact afterColon_none hnone
        | cons m' ms =>
          have hm' : Named k m' := hnext m' rfl
          rw [List.find?_cons_of_pos (by simpa using hm')]
          have hpre : 0x3A ∉ blanks m.after ++ 0x2C :: (blanks m'.before ++ m'.key.text) := by
            rw [List.mem_append, List.mem_cons, List.mem_append, not_or, not_or, not_or]
            exact ⟨blanks_not_mem (by decide) _, by decide, blanks_not_mem (by decide) _,
              hm'.key_text hk⟩
          have hland := lands_colon inside after m'.beforeColon m' ms _ hpre
          simp only [Option.bind_some, behindMember]
          rw [commaSeparated_cons, Member.text]
          simpa only [List.append_assoc, List.cons_append] using hland
      · rw [if_neg hvalue] at h
        rw [List.find?_cons_of_neg (by simpa using h.1), behind?_value hk inside after hvalue]
        exact ih h.2

end Lookup

/-! ## Main result -/

/-- The members lead to the key, and its value is written the way the readers expect. -/
def Clear (k : String) (o : ObjectText) : Prop :=
  Leads k o.members ∧ ∀ m ∈ o.members, Named k m → Legible m.value m.afterColon

instance (k : String) (o : ObjectText) : Decidable (Clear k o) :=
  inferInstanceAs (Decidable (_ ∧ _))

/-- The getters agree with the object about a key. -/
structure Agrees (o : ObjectText) (k : String) : Prop where
  string : getString o.text (utf8 k) = ((get? o.decode k).bind Datum.string?).map utf8
  number : getNumber o.text (utf8 k) = ((get? o.decode k).bind Datum.number?).map ExtRat.fin
  bool : getBool o.text (utf8 k) = (get? o.decode k).bind Datum.bool?

theorem get?_decode (o : ObjectText) (k : String) :
    get? o.decode k = (o.members.find? fun m => decide (Named k m)).map fun m => m.value.value := by
  unfold get? ObjectText.decode
  rw [List.find?_map, Option.map_map]
  rfl

/-- A clear key is read as the object means it. -/
theorem Clear.agrees {k : String} (hk : Letters k) {o : ObjectText} (h : Clear k o) :
    Agrees o k := by
  have hland := lands hk o.inside o.after h.1
  have hopen : (0x22 : UInt8) ∉ blanks o.before ++ [0x7B] := by
    rw [List.mem_append, not_or]
    exact ⟨blanks_not_mem (by decide) _, by decide⟩
  have hvalue : valueAt o.text (utf8 k) = (behind? (quoted 0x22 (utf8 k))
      (commaSeparated (o.members.map Member.text) ++ closing o.inside o.after)).bind afterColon := by
    have htext : o.text = (blanks o.before ++ [0x7B]) ++
        (commaSeparated (o.members.map Member.text) ++ closing o.inside o.after) := by
      simp [ObjectText.text, closing]
    rw [valueAt, htext, behind?_plain hopen]
  have hreads : Reads (valueAt o.text (utf8 k)) (get? o.decode k) := by
    rw [hvalue, get?_decode]
    cases hfind : o.members.find? fun m => decide (Named k m) with
    | none =>
      rw [hfind] at hland
      rw [show _ = none from hland]
      exact reads_none
    | some m =>
      rw [hfind] at hland
      obtain ⟨r, hends, htext⟩ := hland
      have hm : Legible m.value m.afterColon :=
        h.2 m (List.mem_of_find?_eq_some hfind) (by simpa using List.find?_some hfind)
      rw [htext]
      exact reads_value hm hends
  refine ⟨?_, ?_, ?_⟩
  · rw [getString_eq_bind]
    exact hreads.string
  · rw [getNumber_eq_bind]
    exact hreads.number
  · rw [getBool_eq_bind]
    exact hreads.bool

open Proto ClientSession

/-- The keys `handleMessage` and the token check look up. -/
def bodyKeys : MsgType → List String
  | .Hello => ["role", "token"]
  | .ServoCmd => ["mode", "pan", "tilt"]
  | .ModeCmd => ["autoTrack"]
  | .FileGetReq => ["name"]
  | .FileDeleteReq => ["name"]
  | _ => []

theorem bodyKeys_letters (type : MsgType) : ∀ k ∈ bodyKeys type, Letters k := by
  cases type <;> decide +kernel

/-- What a session takes from the body of a message. -/
def SameBody (b b' : Bytes) : MsgType → Prop
  | .Hello => getString b (utf8 "role") = getString b' (utf8 "role") ∧
      ∀ token, Auth.helloAuthorized token b = Auth.helloAuthorized token b'
  | .ServoCmd => servoCommand b = servoCommand b'
  | .ModeCmd => modeCommand b = modeCommand b'
  | .FileGetReq => getString b (utf8 "name") = getString b' (utf8 "name")
  | .FileDeleteReq => getString b (utf8 "name") = getString b' (utf8 "name")
  | _ => True

/-- **Flat objects.** The getters agree with every flat object about every clear
key, and a message body is understood the same way in every order of its members. -/
theorem flat_object :
    (∀ (o : ObjectText) (k : String), Letters k → Clear k o → Agrees o k) ∧
    ∀ (o o' : ObjectText), UniqueKeys o.decode → o.decode.Perm o'.decode → ∀ type,
      (∀ k ∈ bodyKeys type, Clear k o ∧ Clear k o') → SameBody o.text o'.text type := by
  refine ⟨fun o k hk h => h.agrees hk, ?_⟩
  intro o o' hunique hperm type hclear
  have hsame : ∀ k ∈ bodyKeys type,
      getString o.text (utf8 k) = getString o'.text (utf8 k) ∧
      getNumber o.text (utf8 k) = getNumber o'.text (utf8 k) ∧
      getBool o.text (utf8 k) = getBool o'.text (utf8 k) := by
    intro k hmem
    have hk := bodyKeys_letters type k hmem
    obtain ⟨h, h'⟩ := hclear k hmem
    -- with unique keys the order of the members does not matter to the lookup
    have hget := get?_perm hunique hperm k
    refine ⟨?_, ?_, ?_⟩
    · rw [(h.agrees hk).string, (h'.agrees hk).string, hget]
    · rw [(h.agrees hk).number, (h'.agrees hk).number, hget]
    · rw [(h.agrees hk).bool, (h'.agrees hk).bool, hget]
  cases type with
  | Hello =>
    have hrole := hsame "role" (by decide)
    have htoken := hsame "token" (by decide)
    refine ⟨hrole.1, fun token => ?_⟩
    unfold Auth.helloAuthorized
    rw [htoken.1]
  | ServoCmd =>
    have hmode := hsame "mode" (by decide)
    have hpan := hsame "pan" (by decide)
    have htilt := hsame "tilt" (by decide)
    change servoCommand _ = servoCommand _
    unfold servoCommand
    rw [hmode.1, hpan.2.1, htilt.2.1]
  | ModeCmd =>
    have hauto := hsame "autoTrack" (by decide)
    change modeCommand _ = modeCommand _
    unfold modeCommand
    rw [hauto.2.2]
  | FileGetReq => exact (hsame "name" (by decide)).1
  | FileDeleteReq => exact (hsame "name" (by decide)).1
  | _ => trivial

def roleFirst : ObjectText :=
  compact [("role", .str (spelled "token")), ("token", .str (spelled "z"))]

def tokenFirst : ObjectText :=
  compact [("token", .str (spelled "z")), ("role", .str (spelled "token"))]

theorem flat_object_token_first :
    Agrees tokenFirst "token" ∧ SameBody roleFirst.text tokenFirst.text .Hello :=
  ⟨flat_object.1 tokenFirst "token" (by decide +kernel) (by decide +kernel),
    flat_object.2 roleFirst tokenFirst (by decide +kernel) (by decide +kernel) .Hello
      (by decide +kernel)⟩

def misleading : ObjectText :=
  compact [("role", .str (spelled "token")), ("x", .str (spelled "y")), ("token", .str (spelled "z"))]

/-- The value of `role` is spelled like the key `token`, and the next colon is another member's. -/
theorem value_like_key :
    ¬ ∀ (o : ObjectText) (k : String), Letters k → UniqueKeys o.decode → Agrees o k := by
  intro h
  have hstring := (h misleading "token" (by decide +kernel) (by decide +kernel)).string
  revert hstring
  decide +kernel

end FaceTracking.Mjson
