import FaceTracking.MobileClient.Protocol
import FaceTracking.Net.Auth
import FaceTracking.Net.MiniJsonText
import FaceTracking.PcClient.TcpClient

/-!
# The token check is exact

From the clients' HELLO bodies to the terminal's decision: un-escaping undoes
the JSON quoting of any string without control characters (`unescape_quoteBody`),
the key lookup lands on the quoted token in both clients' bodies, and the
comparison is equality. So the terminal admits a client exactly when the two
tokens are the same bytes.
-/

namespace FaceTracking.Auth

open Lib Mjson

/-- A string without control characters. -/
def Printable (u : String) : Prop := ∀ c ∈ u.toList, 0x20 ≤ c.toNat

/-! ## Un-escaping undoes quoting -/

/-- A quoted character is read as its bytes. -/
theorem unescape_quoteChar {c : Char} (hc : 0x20 ≤ c.toNat) (r : Bytes) :
    unescape ((Json.quoteChar c).flatMap String.utf8EncodeChar ++ r) =
      (unescape r).map (String.utf8EncodeChar c ++ ·) := by
  by_cases hq : c = '"'
  · subst hq
    exact unescape_escaped 0x22 r
  by_cases hs : c = '\\'
  · subst hs
    exact unescape_escaped 0x5C r
  · rw [Json.quoteChar_plain hc hq hs, List.flatMap_singleton,
      unescape_copies (Json.not_mem_utf8EncodeChar hq hs)]

theorem unescape_quoteChars (cs : List Char) (h : ∀ c ∈ cs, 0x20 ≤ c.toNat) (r : Bytes) :
    unescape ((cs.flatMap Json.quoteChar).flatMap String.utf8EncodeChar ++ 0x22 :: r) =
      some (cs.flatMap String.utf8EncodeChar) := by
  induction cs with
  | nil => exact unescape_quote r
  | cons c cs ih =>
    rw [List.flatMap_cons, List.flatMap_append, List.append_assoc,
      unescape_quoteChar (h c List.mem_cons_self),
      ih (fun d hd => h d (List.mem_cons_of_mem c hd))]
    rfl

/-- **The string round trip**: what either client prints is what the terminal
reads. -/
theorem unescape_quoteBody {u : String} (h : Printable u) (r : Bytes) :
    unescape (Json.quoteBody u ++ 0x22 :: r) = some (utf8 u) :=
  unescape_quoteChars u.toList h r

/-! ## The HELLO bodies -/

/-- A body in which the token member stands behind a known text is authorised by
that token alone. -/
theorem helloAuthorized_of_body {T pre post : Bytes} {k : Nat} {u : String} (hu : Printable u)
    (hfind : find? ([0x22] ++ utf8 "token" ++ [0x22]) pre = some k) (hend : k + 7 = pre.length) :
    helloAuthorized T (pre ++ 0x3A :: Json.quote u ++ post) = true ↔ T = utf8 u := by
  have hbody : pre ++ 0x3A :: Json.quote u ++ post =
      pre ++ 0x3A :: 0x22 :: (Json.quoteBody u ++ 0x22 :: post) := by
    simp [Json.quote]
  rw [helloAuthorized_iff, hbody, getString_eq hfind hend, unescape_quoteBody hu]
  rfl

/-- A body without a token is compared as the empty token. -/
theorem helloAuthorized_of_none {T body : Bytes}
    (h : getString body (utf8 "token") = none) : helloAuthorized T body = true ↔ T = utf8 "" := by
  rw [helloAuthorized_iff, h]
  rfl

theorem mobile_body {u : String} (h : u ≠ "") :
    Json.stringify (MobileClient.helloObject u) =
      utf8 "\x7B\"role\":\"mobile\",\"ver\":1,\"token\"" ++ 0x3A :: Json.quote u ++ [0x7D] := by
  rw [MobileClient.helloObject, if_neg h]
  rfl

theorem pc_body {u : String} (h : u ≠ "") :
    PcClient.TcpClient.helloBody u =
      utf8 "\x7B\"role\":\"pc\",\"token\"" ++ 0x3A :: Json.quote u ++ utf8 ",\"ver\":1\x7D" := by
  have hobj : PcClient.TcpClient.helloObject u =
      [("role", .str "pc"), ("token", .str u), ("ver", .num 1)] := by
    rw [PcClient.TcpClient.helloObject, if_neg h]
    rfl
  rw [PcClient.TcpClient.helloBody, hobj]
  simp only [Json.stringify, Json.printMembers, List.append_assoc, List.cons_append]
  rfl

/-! ## Main result -/

/-- **The token check.** For every configured token and every client token, the
terminal admits the mobile client, and the PC client, exactly when the two are
equal byte for byte; and the comparison itself is equality. -/
theorem token_check (T : Bytes) (u : String) (hu : Printable u) :
    (helloAuthorized T (Json.stringify (MobileClient.helloObject u)) = true ↔ T = utf8 u) ∧
      (helloAuthorized T (PcClient.TcpClient.helloBody u) = true ↔ T = utf8 u) ∧
      ∀ a b : Bytes, constantTimeEqual a b = true ↔ a = b := by
  refine ⟨?_, ?_, constantTimeEqual_iff⟩
  · by_cases h : u = ""
    · subst h
      exact helloAuthorized_of_none (by decide +kernel)
    · rw [mobile_body h]
      exact helloAuthorized_of_body (k := 25) hu (by decide +kernel) (by decide +kernel)
  · by_cases h : u = ""
    · subst h
      exact helloAuthorized_of_none (by decide +kernel)
    · rw [pc_body h]
      exact helloAuthorized_of_body (k := 13) hu (by decide +kernel) (by decide +kernel)

theorem token_check_quotes :
    helloAuthorized (utf8 "a\"b\\") (Json.stringify (MobileClient.helloObject "a\"b\\")) = true := by
  have hu : Printable "a\"b\\" := by
    intro c hc
    have hall : "a\"b\\".toList = ['a', '"', 'b', '\\'] := rfl
    rw [hall] at hc
    fin_cases hc <;> decide
  exact (token_check (utf8 "a\"b\\") "a\"b\\" hu).1.mpr rfl

end FaceTracking.Auth
