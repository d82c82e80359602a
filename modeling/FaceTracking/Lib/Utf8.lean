import FaceTracking.Lib.Bytes

/-!
# Decoding UTF-8

Valid UTF-8 is what `utf8` writes, and `decodeUtf8?` reads it back. A byte
order mark is the one character that decoders of the outside world swallow at
the front of a text.
-/

namespace Lib

/-- The string a byte string encodes; `none` if it is not valid UTF-8. -/
def decodeUtf8? (b : Bytes) : Option String := String.fromUTF8? b.toByteArray

theorem toByteArray_utf8 (u : String) : (utf8 u).toByteArray = u.toByteArray :=
  String.utf8Encode_toList

@[simp] theorem decodeUtf8?_utf8 (u : String) : decodeUtf8? (utf8 u) = some u := by
  unfold decodeUtf8? String.fromUTF8?
  rw [dif_pos (by rw [toByteArray_utf8]; exact u.isValidUTF8), Option.some.injEq]
  exact String.toByteArray_inj.mp (toByteArray_utf8 u)

theorem utf8_of_decodeUtf8? {b : Bytes} {u : String} (h : decodeUtf8? b = some u) :
    utf8 u = b := by
  unfold decodeUtf8? String.fromUTF8? at h
  split at h
  · rw [Option.some.injEq] at h
    apply List.toByteArray_inj.mp
    rw [toByteArray_utf8, ← h]
    rfl
  · cases h

theorem decodeUtf8?_isSome_iff {b : Bytes} : (decodeUtf8? b).isSome = true ↔ ∃ u, utf8 u = b := by
  constructor
  · intro h
    obtain ⟨u, hu⟩ := Option.isSome_iff_exists.mp h
    exact ⟨u, utf8_of_decodeUtf8? hu⟩
  · rintro ⟨u, rfl⟩
    rw [decodeUtf8?_utf8]
    rfl

/-- No character's bytes begin with another one's. -/
theorem utf8EncodeChar_append_inj {c d : Char} {s t : Bytes}
    (h : String.utf8EncodeChar c ++ s = String.utf8EncodeChar d ++ t) : c = d ∧ s = t := by
  have hread : ∀ (c : Char) (s : Bytes),
      (String.utf8EncodeChar c ++ s).toByteArray.utf8DecodeChar? 0 = some c := by
    intro c s
    rw [List.toByteArray_append]
    exact ByteArray.utf8DecodeChar?_utf8EncodeChar_append
  have hc : c = d := by
    have hboth := hread c s
    rw [h, hread d t, Option.some.injEq] at hboth
    exact hboth.symm
  subst hc
  exact ⟨rfl, List.append_cancel_left h⟩

/-! ## Valid UTF-8 -/

def IsUtf8 (b : Bytes) : Prop := ∃ u, utf8 u = b

namespace IsUtf8

theorem nil : IsUtf8 [] := ⟨"", rfl⟩

theorem append {a b : Bytes} (ha : IsUtf8 a) (hb : IsUtf8 b) : IsUtf8 (a ++ b) := by
  obtain ⟨u, rfl⟩ := ha
  obtain ⟨v, rfl⟩ := hb
  exact ⟨u ++ v, by simp [utf8]⟩

theorem char (c : Char) : IsUtf8 (String.utf8EncodeChar c) := ⟨String.ofList [c], by simp [utf8]⟩

theorem byte {x : UInt8} (hx : x < 0x80) : IsUtf8 [x] := by
  have hall : ∀ n < 0x80, String.utf8EncodeChar (Char.ofNat n) = [UInt8.ofNat n] := by
    decide +kernel
  have h := hall x.toNat (UInt8.lt_iff_toNat_lt.mp hx)
  rw [UInt8.ofNat_toNat] at h
  exact h ▸ char _

theorem cons {x : UInt8} (hx : x < 0x80) {b : Bytes} (hb : IsUtf8 b) : IsUtf8 (x :: b) :=
  (byte hx).append hb

theorem ascii {b : Bytes} (hb : ∀ x ∈ b, x < 0x80) : IsUtf8 b := by
  induction b with
  | nil => exact nil
  | cons x b ih =>
    exact cons (hb x List.mem_cons_self) (ih fun y hy => hb y (List.mem_cons_of_mem x hy))

theorem flatMap {α : Type} {f : α → Bytes} {l : List α} (h : ∀ x ∈ l, IsUtf8 (f x)) :
    IsUtf8 (l.flatMap f) := by
  induction l with
  | nil => exact nil
  | cons x l ih =>
    exact (h x List.mem_cons_self).append (ih fun y hy => h y (List.mem_cons_of_mem x hy))

end IsUtf8

/-- A text without a leading byte order mark. -/
def NoBom (u : String) : Prop := u.toList.head? ≠ some '\uFEFF'

instance (u : String) : Decidable (NoBom u) := inferInstanceAs (Decidable (_ ≠ _))

end Lib
