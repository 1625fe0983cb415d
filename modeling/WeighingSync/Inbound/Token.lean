import Mathlib
import WeighingSync.Inbound.Server

/-!
# Tokens that pass

The client sends its key as it is, and the service trims what it finds in the header before it compares it
with its own. So a key passes exactly if, trimmed, it is the one that is expected (`admits_bearerAuth_iff`),
and a service whose own key has white space around it, is empty, or is not ASCII, admits no request at all
(`closed_iff`).
-/

namespace WeighingSync.Inbound

open Go

/-! ## Trimming -/

section

variable {α : Type*} {p : α → Bool} {s t : List α}

theorem rdropWhile_append_of_forall (h : ∀ x ∈ t, p x = true) : (s ++ t).rdropWhile p = s.rdropWhile p := by
  rw [List.rdropWhile, List.rdropWhile, List.reverse_append,
    List.dropWhile_append_of_pos fun x hx => h x (List.mem_reverse.mp hx)]

theorem rdropWhile_append_of_ne_nil (h : t.rdropWhile p ≠ []) :
    (s ++ t).rdropWhile p = s ++ t.rdropWhile p := by
  have hdrop : t.reverse.dropWhile p ≠ [] := fun hnil => h (by rw [List.rdropWhile, hnil, List.reverse_nil])
  rw [List.rdropWhile, List.reverse_append, List.dropWhile_append,
    if_neg (by simpa using hdrop), List.reverse_append, List.reverse_reverse]
  rfl

end

/-- White space at the end is trimmed in any case. -/
theorem trimSpace_rdropWhile (s : Str) : Str.trimSpace (s.rdropWhile Rune.isSpace) = s.trimSpace := by
  have hsplit := List.rdropWhile_append_rtakeWhile (p := Rune.isSpace) (l := s)
  have hspaces : ∀ r ∈ s.rtakeWhile Rune.isSpace, r.isSpace = true := fun r hr =>
    List.mem_rtakeWhile_imp hr
  generalize s.rdropWhile Rune.isSpace = a at hsplit ⊢
  generalize s.rtakeWhile Rune.isSpace = b at hsplit hspaces
  rw [← hsplit, Str.trimSpace, Str.trimSpace, List.dropWhile_append]
  split_ifs with hempty
  · have hnil : a.dropWhile Rune.isSpace = [] := by simpa using hempty
    rw [hnil, List.dropWhile_eq_nil_iff.mpr hspaces]
  · rw [rdropWhile_append_of_forall hspaces]

/-- A key that is nothing but white space leaves no token in its header. -/
theorem trimSpace_eq_nil_iff {s : Str} : s.trimSpace = [] ↔ ∀ r ∈ s, r.isSpace = true := by
  refine ⟨fun hnil r hr => ?_, fun h => ?_⟩
  · by_contra hspace
    exact Str.trimSpace_ne_nil hr ((Bool.not_eq_true _).mp hspace) hnil
  · rw [Str.trimSpace, List.dropWhile_eq_nil_iff.mpr h, List.rdropWhile_nil]

/-- What is left of a text that is trimmed does not end with white space. -/
theorem rdropWhile_trimSpace (s : Str) : (s.trimSpace).rdropWhile Rune.isSpace = s.trimSpace :=
  List.rdropWhile_idempotent _ _

/-- The bytes of runes of a text are bytes of the text. -/
theorem bytes_subset {s t : Str} (h : s ⊆ t) : s.bytes ⊆ t.bytes := by
  intro b hb
  obtain ⟨r, hr, hb⟩ := List.mem_flatMap.mp hb
  exact List.mem_flatMap.mpr ⟨r, h hr, hb⟩

/-! ## Headers -/

/-- The header of `bearer_auth`. -/
def bearerAuth (key : Str) : Bytes := (Str.lit "Bearer " ++ key).bytes

/-- The header is text exactly if the key is. -/
theorem headerText_bearerAuth {key : Str} (hkey : key.Valid) : headerText (bearerAuth key) =
    if ∀ b ∈ key.bytes, isTextByte b = true then some (Str.lit "Bearer " ++ key) else none := by
  have hscheme : (Str.lit "Bearer ").bytes.all isTextByte = true := by decide +kernel
  have htext : (Str.lit "Bearer " ++ key).Valid := Str.valid_append.mpr ⟨Str.valid_lit _, hkey⟩
  have hread : Str.ofBytes (Str.lit "Bearer " ++ key).bytes = Str.lit "Bearer " ++ key :=
    ofBytes_bytes fun b hb => by
      have hstray := htext _ hb
      cases hstray
  rw [headerText, bearerAuth, hread, bytes_append, List.all_append, hscheme, Bool.true_and]
  simp only [List.all_eq_true]

/-- The token of the header of a key. -/
theorem bearerToken_bearer (key : Str) : bearerToken (Str.lit "Bearer " ++ key) =
    if key.trimSpace ≠ [] then some (key.rdropWhile Rune.isSpace) else none := by
  have hleft : (Str.lit "Bearer " ++ key).dropWhile Rune.isSpace = Str.lit "Bearer " ++ key :=
    List.dropWhile_cons_of_neg (by decide)
  rw [bearerToken, Str.trimSpace, hleft]
  -- of a key without a visible rune even the blank after the scheme is trimmed
  by_cases hspaces : ∀ r ∈ key, r.isSpace = true
  · rw [rdropWhile_append_of_forall hspaces, if_neg (not_not.mpr (trimSpace_eq_nil_iff.mpr hspaces))]
    decide
  · have hne : key.rdropWhile Rune.isSpace ≠ [] := fun hnil =>
      hspaces (List.rdropWhile_eq_nil_iff.mp hnil)
    rw [rdropWhile_append_of_ne_nil hne, if_pos fun hnil => hspaces (trimSpace_eq_nil_iff.mp hnil)]
    simp only [List.dropPrefix?_append_of_beq _ (beq_self_eq_true (Str.lit "Bearer ")), Option.some_or]

/-- A client is admitted exactly if its key is text of a header and is, trimmed, the one that is expected. -/
theorem admits_bearerAuth_iff {expected key : Str} (hkey : key.Valid) (persist : Bool) :
    AppState.admits ⟨some expected, persist⟩ (some (bearerAuth key)) = true ↔
      (∀ b ∈ key.bytes, isTextByte b = true) ∧ expected ≠ [] ∧ key.trimSpace = expected := by
  rw [AppState.admits, Option.all_some, extractBearerToken, Option.bind_some, headerText_bearerAuth hkey]
  by_cases htext : ∀ b ∈ key.bytes, isTextByte b = true
  · rw [if_pos htext, Option.bind_some, bearerToken_bearer]
    split_ifs with hne
    · rw [Option.any_some, decide_eq_true_eq, trimSpace_rdropWhile]
      exact ⟨fun hsame => ⟨htext, hsame ▸ hne, hsame⟩, fun h => h.2.2⟩
    · refine ⟨fun h => absurd h Bool.false_ne_true, fun h => absurd ?_ h.2.1⟩
      rw [← h.2.2, not_not.mp hne]
  · rw [if_neg htext]
    exact ⟨fun h => absurd h Bool.false_ne_true, fun h => absurd h.1 htext⟩

/-! ## Services that are closed -/

/-- What is found in any header is text of a header without white space around it, once it is trimmed. -/
theorem trimmed_token {authorization : Option Bytes} {token : Str}
    (h : extractBearerToken authorization = some token) : token.trimSpace ≠ [] ∧
      ∀ b ∈ token.bytes, isTextByte b = true := by
  obtain ⟨value, hvalue, htoken⟩ := Option.bind_eq_some_iff.mp h
  obtain ⟨bytes, -, hvalue⟩ := Option.bind_eq_some_iff.mp hvalue
  unfold headerText at hvalue
  split_ifs at hvalue with htext
  cases hvalue
  obtain ⟨scheme, hscheme, hsplit⟩ : ∃ scheme : Str, (.char ' ' : Rune) ∈ scheme.getLast? ∧
      (Str.ofBytes bytes).trimSpace = scheme ++ token := by
    rcases Option.or_eq_some_iff.mp htoken with hfirst | ⟨-, hsecond⟩
    · obtain ⟨scheme, hsplit, hscheme⟩ := List.dropPrefix?_eq_some_iff.mp hfirst
      exact ⟨scheme, by rw [eq_of_beq hscheme]; rfl, hsplit⟩
    · obtain ⟨scheme, hsplit, hscheme⟩ := List.dropPrefix?_eq_some_iff.mp hsecond
      exact ⟨scheme, by rw [eq_of_beq hscheme]; rfl, hsplit⟩
  refine ⟨fun hnil => ?_, fun b hb => ?_⟩
  · -- a header that is trimmed does not end with the blank of its scheme
    obtain ⟨word, rfl⟩ := List.getLast?_eq_some_iff.mp hscheme
    have hspaces : ∀ r ∈ .char ' ' :: token, Rune.isSpace r = true :=
      List.forall_mem_cons.mpr ⟨by decide, trimSpace_eq_nil_iff.mp hnil⟩
    have hlast := rdropWhile_trimSpace (Str.ofBytes bytes)
    rw [hsplit, List.append_assoc, List.singleton_append, rdropWhile_append_of_forall hspaces] at hlast
    have hlength := (List.rdropWhile_prefix Rune.isSpace (l := word)).length_le
    rw [hlast, List.length_append, List.length_cons] at hlength
    omega
  · have hmem : b ∈ (Str.ofBytes bytes).bytes := by
      refine bytes_subset (fun r hr => (Str.trimSpace_sublist _).subset ?_) hb
      rw [hsplit]
      exact List.mem_append_right scheme hr
    rw [bytes_ofBytes] at hmem
    exact List.all_eq_true.mp htext b hmem

/-- A key with which a service is closed: it is empty, has white space around it, or is not text of a
header. -/
def Closing (expected : Str) : Prop :=
  expected = [] ∨ expected.trimSpace ≠ expected ∨ ∃ b ∈ expected.bytes, isTextByte b = false

/-- With every other key the client with that key is admitted. -/
theorem admits_of_not_closing {expected : Str} (hvalid : expected.Valid) (persist : Bool)
    (h : ¬ Closing expected) : AppState.admits ⟨some expected, persist⟩ (some (bearerAuth expected)) = true := by
  rw [Closing] at h
  push Not at h
  obtain ⟨hne, htrim, htext⟩ := h
  exact (admits_bearerAuth_iff hvalid persist).mpr
    ⟨fun b hb => (Bool.not_eq_false _).mp (htext b hb), hne, htrim⟩

/-- A service admits no request at all exactly if its key is empty, has white space around it, or is not
text of a header; with every other key it admits the client with that key. -/
theorem closed_iff {expected : Str} (hvalid : expected.Valid) (persist : Bool) :
    ((∀ authorization, AppState.admits ⟨some expected, persist⟩ authorization = false) ↔ Closing expected) ∧
      (¬ Closing expected →
        AppState.admits ⟨some expected, persist⟩ (some (bearerAuth expected)) = true) := by
  refine ⟨⟨?_, ?_⟩, admits_of_not_closing hvalid persist⟩
  · intro hclosed
    by_contra hopen
    have hadmitted := admits_of_not_closing hvalid persist hopen
    rw [hclosed] at hadmitted
    cases hadmitted
  · intro hkey authorization
    by_contra hadmitted
    rw [Bool.not_eq_false, AppState.admits, Option.all_some, Option.any_eq_true] at hadmitted
    obtain ⟨token, htoken, hsame⟩ := hadmitted
    have hsame : token.trimSpace = expected := of_decide_eq_true hsame
    obtain ⟨hne, htext⟩ := trimmed_token htoken
    rcases hkey with hnil | htrim | ⟨b, hb, hbyte⟩
    · exact hne (hsame.trans hnil)
    · exact htrim (by rw [← hsame, Str.trimSpace_trimSpace])
    · rw [← hsame] at hb
      rw [htext b (bytes_subset (Str.trimSpace_sublist token).subset hb)] at hbyte
      cases hbyte

/-- A service whose key ends with a line break, as a key that was read from a file does, is closed. Without
it the client is admitted. -/
theorem closed_iff_lineBreak :
    (∀ authorization, AppState.admits ⟨some (Str.lit "secret\n"), true⟩ authorization = false) ∧
      AppState.admits ⟨some (Str.lit "secret"), true⟩ (some (bearerAuth (Str.lit "secret"))) = true := by
  have htrim : (Str.lit "secret\n").trimSpace ≠ Str.lit "secret\n" := by decide +kernel
  have hopen : ¬ Closing (Str.lit "secret") := by
    rw [Closing]
    decide +kernel
  exact ⟨(closed_iff (Str.valid_lit _) true).1.mpr (Or.inr (Or.inl htrim)),
    (closed_iff (Str.valid_lit _) true).2 hopen⟩

end WeighingSync.Inbound
