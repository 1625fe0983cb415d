import WeighingSync.Go.Url

/-!
# UTF-8

The bytes of a text, and the text of bytes. A sequence is decoded to the character that is encoded as
it, so bytes come back from the text that they are read as (`bytes_ofBytes`). A text comes back from its
bytes if none of its stray bytes can be part of a sequence (`ofBytes_bytes`). When the stray bytes are
replaced, texts that are not valid can no longer be told apart (`exists_same_repair`).
-/

namespace WeighingSync.Go

/-! ## Sequences -/

/-- A character is no surrogate. -/
theorem toNat_char (c : Char) : c.toNat < 0xD800 ∨ (0xDFFF < c.toNat ∧ c.toNat < 0x110000) := c.valid

theorem toNat_charOfNat {n : ℕ} (h : n < 0xD800 ∨ (0xDFFF < n ∧ n < 0x110000)) :
    (Char.ofNat n).toNat = n := by
  have hvalid : n.isValidChar := h
  rw [Char.ofNat, dif_pos hvalid]
  rfl

/-- The second byte of a sequence of three or four, after such a first byte. -/
abbrev SecondByte (a b : ℕ) : Prop :=
  0x80 ≤ b ∧ b ≤ 0xBF ∧ (a = 0xE0 → 0xA0 ≤ b) ∧ (a = 0xED → b ≤ 0x9F) ∧ (a = 0xF0 → 0x90 ≤ b) ∧
    (a = 0xF4 → b ≤ 0x8F)

theorem validSecond_iff {a b : UInt8} : validSecond a b = true ↔ SecondByte a.toNat b.toNat := by
  simp only [validSecond, isContinuation, ← UInt8.toNat_inj, UInt8.le_iff_toNat_le, UInt8.reduceToNat]
  split_ifs <;> simp only [Bool.and_eq_true, decide_eq_true_eq] <;> omega

theorem isContinuation_iff {b : UInt8} :
    isContinuation b = true ↔ 0x80 ≤ b.toNat ∧ b.toNat ≤ 0xBF := by
  rw [isContinuation, Bool.and_eq_true, decide_eq_true_eq, decide_eq_true_eq, UInt8.le_iff_toNat_le,
    UInt8.le_iff_toNat_le]
  rfl

theorem decode_one (a : UInt8) :
    decodeSequence [a] = if a.toNat < 0x80 then some (Char.ofNat a.toNat) else none := by
  rw [decodeSequence]
  exact if_congr UInt8.lt_iff_toNat_lt rfl rfl

theorem decode_two (a b : UInt8) : decodeSequence [a, b] =
    if 0xC2 ≤ a.toNat ∧ a.toNat ≤ 0xDF ∧ 0x80 ≤ b.toNat ∧ b.toNat ≤ 0xBF then
      some (Char.ofNat ((a.toNat - 0xC0) * 0x40 + (b.toNat - 0x80)))
    else none := by
  rw [decodeSequence]
  exact if_congr (and_congr UInt8.le_iff_toNat_le
    (and_congr UInt8.le_iff_toNat_le isContinuation_iff)) rfl rfl

theorem decode_three (a b c : UInt8) : decodeSequence [a, b, c] =
    if 0xE0 ≤ a.toNat ∧ a.toNat ≤ 0xEF ∧ SecondByte a.toNat b.toNat ∧
        0x80 ≤ c.toNat ∧ c.toNat ≤ 0xBF then
      some (Char.ofNat ((a.toNat - 0xE0) * 0x1000 + (b.toNat - 0x80) * 0x40 + (c.toNat - 0x80)))
    else none := by
  rw [decodeSequence]
  exact if_congr (and_congr UInt8.le_iff_toNat_le (and_congr UInt8.le_iff_toNat_le
    (and_congr validSecond_iff isContinuation_iff))) rfl rfl

theorem decode_four (a b c d : UInt8) : decodeSequence [a, b, c, d] =
    if 0xF0 ≤ a.toNat ∧ a.toNat ≤ 0xF4 ∧ SecondByte a.toNat b.toNat ∧
        (0x80 ≤ c.toNat ∧ c.toNat ≤ 0xBF) ∧ 0x80 ≤ d.toNat ∧ d.toNat ≤ 0xBF then
      some (Char.ofNat ((a.toNat - 0xF0) * 0x40000 + (b.toNat - 0x80) * 0x1000 +
        (c.toNat - 0x80) * 0x40 + (d.toNat - 0x80)))
    else none := by
  rw [decodeSequence]
  exact if_congr (and_congr UInt8.le_iff_toNat_le (and_congr UInt8.le_iff_toNat_le
    (and_congr validSecond_iff (and_congr isContinuation_iff isContinuation_iff)))) rfl rfl

theorem encode_one {c : Char} (h : c.toNat ≤ 0x7F) : String.utf8EncodeChar c = [UInt8.ofNat c.toNat] := by
  rw [String.utf8EncodeChar]
  exact if_pos h

theorem encode_two {c : Char} (h : 0x7F < c.toNat) (h' : c.toNat ≤ 0x7FF) :
    String.utf8EncodeChar c =
      [UInt8.ofNat (c.toNat / 64 % 0x20 + 0xC0), UInt8.ofNat (c.toNat % 0x40 + 0x80)] := by
  rw [String.utf8EncodeChar]
  exact (if_neg (not_le.mpr h)).trans (if_pos h')

theorem encode_three {c : Char} (h : 0x7FF < c.toNat) (h' : c.toNat ≤ 0xFFFF) :
    String.utf8EncodeChar c =
      [UInt8.ofNat (c.toNat / 4096 % 0x10 + 0xE0), UInt8.ofNat (c.toNat / 64 % 0x40 + 0x80),
        UInt8.ofNat (c.toNat % 0x40 + 0x80)] := by
  rw [String.utf8EncodeChar]
  have h7 : ¬ c.toNat ≤ 0x7F := by omega
  exact (if_neg h7).trans ((if_neg (not_le.mpr h)).trans (if_pos h'))

theorem encode_four {c : Char} (h : 0xFFFF < c.toNat) :
    String.utf8EncodeChar c =
      [UInt8.ofNat (c.toNat / 262144 % 0x08 + 0xF0), UInt8.ofNat (c.toNat / 4096 % 0x40 + 0x80),
        UInt8.ofNat (c.toNat / 64 % 0x40 + 0x80), UInt8.ofNat (c.toNat % 0x40 + 0x80)] := by
  rw [String.utf8EncodeChar]
  have h7 : ¬ c.toNat ≤ 0x7F := by omega
  have h11 : ¬ c.toNat ≤ 0x7FF := by omega
  exact (if_neg h7).trans ((if_neg h11).trans (if_neg (not_le.mpr h)))

/-- A sequence is decoded to the character that is encoded as it. -/
theorem utf8EncodeChar_of_decodeSequence {l : List UInt8} {c : Char} (h : decodeSequence l = some c) :
    String.utf8EncodeChar c = l := by
  match l, h with
  | [a], h =>
      rw [decodeSequence] at h
      split_ifs at h with ha
      cases h
      exact utf8EncodeChar_ascii ha
  | [a, b], h =>
      rw [decode_two] at h
      split_ifs at h with hbytes
      have hc := toNat_charOfNat (n := (a.toNat - 0xC0) * 0x40 + (b.toNat - 0x80)) (by omega)
      rw [Option.some_inj.mp h] at hc
      have hfirst : c.toNat / 64 % 0x20 + 0xC0 = a.toNat := by omega
      have hsecond : c.toNat % 0x40 + 0x80 = b.toNat := by omega
      rw [encode_two (by omega) (by omega), hfirst, hsecond, UInt8.ofNat_toNat, UInt8.ofNat_toNat]
  | [a, b, x], h =>
      rw [decode_three] at h
      split_ifs at h with hbytes
      have hc := toNat_charOfNat
        (n := (a.toNat - 0xE0) * 0x1000 + (b.toNat - 0x80) * 0x40 + (x.toNat - 0x80)) (by omega)
      rw [Option.some_inj.mp h] at hc
      have hfirst : c.toNat / 4096 % 0x10 + 0xE0 = a.toNat := by omega
      have hsecond : c.toNat / 64 % 0x40 + 0x80 = b.toNat := by omega
      have hthird : c.toNat % 0x40 + 0x80 = x.toNat := by omega
      rw [encode_three (by omega) (by omega), hfirst, hsecond, hthird, UInt8.ofNat_toNat,
        UInt8.ofNat_toNat, UInt8.ofNat_toNat]
  | [a, b, x, y], h =>
      rw [decode_four] at h
      split_ifs at h with hbytes
      have hc := toNat_charOfNat (n := (a.toNat - 0xF0) * 0x40000 + (b.toNat - 0x80) * 0x1000 +
        (x.toNat - 0x80) * 0x40 + (y.toNat - 0x80)) (by omega)
      rw [Option.some_inj.mp h] at hc
      have hfirst : c.toNat / 262144 % 0x08 + 0xF0 = a.toNat := by omega
      have hsecond : c.toNat / 4096 % 0x40 + 0x80 = b.toNat := by omega
      have hthird : c.toNat / 64 % 0x40 + 0x80 = x.toNat := by omega
      have hfourth : c.toNat % 0x40 + 0x80 = y.toNat := by omega
      rw [encode_four (by omega), hfirst, hsecond, hthird, hfourth, UInt8.ofNat_toNat,
        UInt8.ofNat_toNat, UInt8.ofNat_toNat, UInt8.ofNat_toNat]

theorem toNat_byte {n : ℕ} (h : n < 256) : (UInt8.ofNat n).toNat = n := UInt8.toNat_ofNat_of_lt' h

/-- What a character is encoded as is decoded to it. -/
theorem decodeSequence_utf8EncodeChar (c : Char) :
    decodeSequence (String.utf8EncodeChar c) = some c := by
  have hvalid := toNat_char c
  by_cases h1 : c.toNat ≤ 0x7F
  · rw [encode_one h1, decode_one, toNat_byte (by omega), if_pos (by omega), Char.ofNat_toNat]
  by_cases h2 : c.toNat ≤ 0x7FF
  · have ha := toNat_byte (n := c.toNat / 64 % 0x20 + 0xC0) (by omega)
    have hb := toNat_byte (n := c.toNat % 0x40 + 0x80) (by omega)
    have hn : (c.toNat / 64 % 0x20 + 0xC0 - 0xC0) * 0x40 + (c.toNat % 0x40 + 0x80 - 0x80) =
        c.toNat := by omega
    rw [encode_two (by omega) h2, decode_two, ha, hb, if_pos (by omega), hn, Char.ofNat_toNat]
  by_cases h3 : c.toNat ≤ 0xFFFF
  · have ha := toNat_byte (n := c.toNat / 4096 % 0x10 + 0xE0) (by omega)
    have hb := toNat_byte (n := c.toNat / 64 % 0x40 + 0x80) (by omega)
    have hx := toNat_byte (n := c.toNat % 0x40 + 0x80) (by omega)
    have hsecond : SecondByte (c.toNat / 4096 % 0x10 + 0xE0) (c.toNat / 64 % 0x40 + 0x80) := by
      omega
    have hn : (c.toNat / 4096 % 0x10 + 0xE0 - 0xE0) * 0x1000 + (c.toNat / 64 % 0x40 + 0x80 - 0x80) * 0x40 +
        (c.toNat % 0x40 + 0x80 - 0x80) = c.toNat := by omega
    rw [encode_three (by omega) h3, decode_three, ha, hb, hx,
      if_pos ⟨by omega, by omega, hsecond, by omega, by omega⟩, hn, Char.ofNat_toNat]
  · have ha := toNat_byte (n := c.toNat / 262144 % 0x08 + 0xF0) (by omega)
    have hb := toNat_byte (n := c.toNat / 4096 % 0x40 + 0x80) (by omega)
    have hx := toNat_byte (n := c.toNat / 64 % 0x40 + 0x80) (by omega)
    have hy := toNat_byte (n := c.toNat % 0x40 + 0x80) (by omega)
    have hsecond : SecondByte (c.toNat / 262144 % 0x08 + 0xF0) (c.toNat / 4096 % 0x40 + 0x80) := by
      omega
    have hn : (c.toNat / 262144 % 0x08 + 0xF0 - 0xF0) * 0x40000 +
        (c.toNat / 4096 % 0x40 + 0x80 - 0x80) * 0x1000 + (c.toNat / 64 % 0x40 + 0x80 - 0x80) * 0x40 +
        (c.toNat % 0x40 + 0x80 - 0x80) = c.toNat := by omega
    rw [encode_four (by omega), decode_four, ha, hb, hx, hy,
      if_pos ⟨by omega, by omega, hsecond, ⟨by omega, by omega⟩, by omega, by omega⟩, hn,
      Char.ofNat_toNat]

/-! ## Texts -/

theorem begins_one (a : UInt8) :
    beginsSequence [a] = true ↔ 0xC2 ≤ a.toNat ∧ a.toNat ≤ 0xF4 := by
  rw [beginsSequence, Bool.and_eq_true, decide_eq_true_eq, decide_eq_true_eq]
  exact and_congr UInt8.le_iff_toNat_le UInt8.le_iff_toNat_le

theorem begins_two (a b : UInt8) : beginsSequence [a, b] = true ↔
    (0xE0 ≤ a.toNat ∧ a.toNat ≤ 0xF4) ∧ SecondByte a.toNat b.toNat := by
  rw [beginsSequence, Bool.and_eq_true, Bool.and_eq_true, decide_eq_true_eq, decide_eq_true_eq]
  exact and_congr (and_congr UInt8.le_iff_toNat_le UInt8.le_iff_toNat_le) validSecond_iff

theorem begins_three (a b c : UInt8) : beginsSequence [a, b, c] = true ↔
    ((0xF0 ≤ a.toNat ∧ a.toNat ≤ 0xF4) ∧ SecondByte a.toNat b.toNat) ∧
      0x80 ≤ c.toNat ∧ c.toNat ≤ 0xBF := by
  rw [beginsSequence, Bool.and_eq_true, Bool.and_eq_true, Bool.and_eq_true, decide_eq_true_eq,
    decide_eq_true_eq]
  exact and_congr (and_congr (and_congr UInt8.le_iff_toNat_le UInt8.le_iff_toNat_le) validSecond_iff)
    isContinuation_iff

theorem readByte_of_decode {waiting : List UInt8} {b : UInt8} {c : Char}
    (h : decodeSequence (waiting ++ [b]) = some c) : readByte waiting b = ([.char c], []) := by
  rw [readByte, h]

theorem readByte_of_begins {waiting : List UInt8} {b : UInt8}
    (hnone : decodeSequence (waiting ++ [b]) = none) (h : beginsSequence (waiting ++ [b]) = true) :
    readByte waiting b = ([], waiting ++ [b]) := by
  rw [readByte, hnone]
  exact if_pos h

theorem readByte_of_not_begins {waiting : List UInt8} {b : UInt8}
    (hnone : decodeSequence (waiting ++ [b]) = none) (h : beginsSequence (waiting ++ [b]) = false) :
    readByte waiting b = (waiting.map .byte ++ (readFresh b).1, (readFresh b).2) := by
  rw [readByte, hnone]
  exact if_neg (Bool.eq_false_iff.mp h)

/-- A sequence is read as its character, whatever follows. -/
theorem readBytes_append_of_decode {l : List UInt8} {c : Char} (h : decodeSequence l = some c)
    (rest : List UInt8) : readBytes [] (l ++ rest) = .char c :: readBytes [] rest := by
  match l, h with
  | [a], h =>
      rw [List.singleton_append, readBytes, @readByte_of_decode [] a c h]
      rfl
  | [a, b], h =>
      have hbytes := h
      rw [decode_two] at hbytes
      split_ifs at hbytes with hab
      have hfirst : readByte [] a = ([], [a]) :=
        readByte_of_begins ((decode_one a).trans (if_neg (by omega))) ((begins_one a).mpr (by omega))
      have hlast : readByte [a] b = ([.char c], []) := readByte_of_decode h
      simp only [List.cons_append, List.nil_append, readBytes, hfirst, hlast]
  | [a, b, x], h =>
      have hbytes := h
      rw [decode_three] at hbytes
      split_ifs at hbytes with hab
      have hfirst : readByte [] a = ([], [a]) :=
        readByte_of_begins ((decode_one a).trans (if_neg (by omega))) ((begins_one a).mpr (by omega))
      have hsecond : readByte [a] b = ([], [a, b]) :=
        readByte_of_begins ((decode_two a b).trans (if_neg (by omega))) ((begins_two a b).mpr (by omega))
      have hlast : readByte [a, b] x = ([.char c], []) := readByte_of_decode h
      simp only [List.cons_append, List.nil_append, readBytes, hfirst, hsecond, hlast]
  | [a, b, x, y], h =>
      have hbytes := h
      rw [decode_four] at hbytes
      split_ifs at hbytes with hab
      have hfirst : readByte [] a = ([], [a]) :=
        readByte_of_begins ((decode_one a).trans (if_neg (by omega))) ((begins_one a).mpr (by omega))
      have hsecond : readByte [a] b = ([], [a, b]) :=
        readByte_of_begins ((decode_two a b).trans (if_neg (by omega))) ((begins_two a b).mpr (by omega))
      have hthird : readByte [a, b] x = ([], [a, b, x]) :=
        readByte_of_begins ((decode_three a b x).trans (if_neg (by omega)))
          ((begins_three a b x).mpr (by omega))
      have hlast : readByte [a, b, x] y = ([.char c], []) := readByte_of_decode h
      simp only [List.cons_append, List.nil_append, readBytes, hfirst, hsecond, hthird, hlast]

theorem bytes_append (s t : Str) : (s ++ t).bytes = s.bytes ++ t.bytes := List.flatMap_append

theorem bytes_map_byte (l : List UInt8) : Str.bytes (l.map .byte) = l := by
  rw [Str.bytes, List.flatMap_map]
  exact List.flatMap_singleton' l

/-- A byte is in the runes that it completes, or waits. -/
theorem bytes_readByte (waiting : List UInt8) (b : UInt8) :
    Str.bytes (readByte waiting b).1 ++ (readByte waiting b).2 = waiting ++ [b] := by
  have hfresh : Str.bytes (readFresh b).1 ++ (readFresh b).2 = [b] := by
    rw [readFresh]
    cases hdecode : decodeSequence [b] with
    | some c => simp [Str.bytes, Rune.bytes, utf8EncodeChar_of_decodeSequence hdecode]
    | none => split_ifs <;> rfl
  cases hdecode : decodeSequence (waiting ++ [b]) with
  | some c =>
      rw [readByte_of_decode hdecode]
      simp [Str.bytes, Rune.bytes, utf8EncodeChar_of_decodeSequence hdecode]
  | none =>
      cases hbegins : beginsSequence (waiting ++ [b]) with
      | true =>
          rw [readByte_of_begins hdecode hbegins]
          rfl
      | false =>
          rw [readByte_of_not_begins hdecode hbegins, bytes_append, bytes_map_byte, List.append_assoc,
            hfresh]

/-- The bytes come back from the text that they are read as. -/
theorem bytes_ofBytes (l : List UInt8) : (Str.ofBytes l).bytes = l := by
  have hread : ∀ (bytes waiting : List UInt8), (readBytes waiting bytes).bytes = waiting ++ bytes := by
    intro bytes
    induction bytes with
    | nil =>
        intro waiting
        rw [readBytes, bytes_map_byte, List.append_nil]
    | cons b bytes ih =>
        intro waiting
        rw [readBytes, bytes_append, ih, ← List.append_assoc, bytes_readByte, List.append_assoc]
        rfl
  exact hread l []

theorem ofBytes_injective : Function.Injective Str.ofBytes :=
  Function.LeftInverse.injective bytes_ofBytes

/-- A text is read back from its bytes if its stray bytes begin no sequence and are in none. -/
theorem ofBytes_bytes {s : Str} (h : ∀ b, .byte b ∈ s → 0xF5 ≤ b.toNat) : Str.ofBytes s.bytes = s := by
  rw [Str.ofBytes]
  induction s with
  | nil => rfl
  | cons r s ih =>
      have hrest := ih fun b hb => h b (List.mem_cons_of_mem r hb)
      have hbytes : Str.bytes (r :: s) = r.bytes ++ Str.bytes s := List.flatMap_cons
      rw [hbytes]
      cases r with
      | char c =>
          rw [Rune.bytes, readBytes_append_of_decode (decodeSequence_utf8EncodeChar c), hrest]
      | byte b =>
          have hb := h b List.mem_cons_self
          have hread : readByte [] b = ([.byte b], []) := by
            have hbegins : beginsSequence [b] = false := by
              rw [Bool.eq_false_iff, Ne, begins_one]
              omega
            have hdecode : decodeSequence [b] = none := (decode_one b).trans (if_neg (by omega))
            rw [readByte, List.nil_append, hdecode, hbegins, readFresh, hdecode, hbegins]
            rfl
          rw [Rune.bytes, List.singleton_append, readBytes, hread, hrest]
          rfl

/-! ## Stray bytes -/

theorem Rune.length_bytes (r : Rune) : r.bytes.length = r.size := by
  cases r with
  | char c => exact String.length_utf8EncodeChar c
  | byte b => rfl

theorem length_bytes (s : Str) : s.bytes.length = s.size := by
  induction s with
  | nil => rfl
  | cons r s ih =>
      rw [Str.bytes, List.flatMap_cons, List.length_append, Rune.length_bytes, Str.size_cons]
      exact congrArg (r.size + ·) ih

/-- The replacement of a stray byte takes more room, so a text that keeps its size has none. -/
theorem valid_of_size_repair {s : Str} (h : s.repair.size = s.size) : s.Valid := by
  have hrune : ∀ r : Rune, r.size ≤ r.repair.size ∧ (r.repair.size = r.size → r.repair = r) := by
    intro r
    cases r with
    | char c => exact ⟨le_rfl, fun _ => rfl⟩
    | byte b =>
        have hsize : Rune.size Rune.replacement = 3 := by decide
        exact ⟨by rw [Rune.repair, hsize, Rune.size]; omega, fun h => by
          rw [Rune.repair, hsize, Rune.size] at h
          omega⟩
  have hle : ∀ s : Str, s.size ≤ s.repair.size := by
    intro s
    induction s with
    | nil => exact le_rfl
    | cons r s ih =>
        rw [Str.repair, List.map_cons, Str.size_cons, Str.size_cons]
        exact Nat.add_le_add (hrune r).1 ih
  induction s with
  | nil => exact List.forall_mem_nil _
  | cons r s ih =>
      rw [Str.repair, List.map_cons, Str.size_cons, Str.size_cons] at h
      have hr := (hrune r).1
      have hs : Str.size s ≤ Str.size (s.map Rune.repair) := hle s
      have hrest : Str.size (s.map Rune.repair) = Str.size s := by omega
      exact List.forall_mem_cons.mpr ⟨(hrune r).2 (by omega), ih hrest⟩

/-- The text with this byte in place of every stray byte. -/
def Str.withStray (y : UInt8) (s : Str) : Str := s.map fun r =>
  match r with
  | .char c => .char c
  | .byte _ => .byte y

theorem repair_withStray (y : UInt8) (s : Str) : (s.withStray y).repair = s.repair := by
  rw [Str.withStray, Str.repair, Str.repair, List.map_map]
  refine List.map_congr_left fun r _ => ?_
  cases r <;> rfl

theorem size_withStray (y : UInt8) (s : Str) : (s.withStray y).size = s.size := by
  rw [Str.withStray, Str.size, Str.size, List.map_map]
  refine congrArg List.sum (List.map_congr_left fun r _ => ?_)
  cases r <;> rfl

theorem eq_of_mem_withStray {y b : UInt8} {s : Str} (h : .byte b ∈ s.withStray y) : b = y := by
  obtain ⟨r, -, hr⟩ := List.mem_map.mp h
  cases r with
  | char c => cases hr
  | byte b => cases hr; rfl

/-- Different bytes make different texts if there is a stray byte. -/
theorem valid_of_withStray_eq {y z : UInt8} (hne : y ≠ z) {s : Str}
    (h : s.withStray y = s.withStray z) : s.Valid := by
  induction s with
  | nil => exact List.forall_mem_nil _
  | cons r s ih =>
      obtain ⟨hr, hs⟩ := List.cons.inj h
      refine List.forall_mem_cons.mpr ⟨?_, ih hs⟩
      cases r with
      | char c => rfl
      | byte b => exact absurd (Rune.byte.inj hr) hne

/-- Bytes that are not valid have others of their number that are repaired to the same text. -/
theorem exists_same_repair {l : List UInt8} (h : ¬ (Str.ofBytes l).Valid) :
    ∃ l', l' ≠ l ∧ l'.length = l.length ∧ (Str.ofBytes l').repair = (Str.ofBytes l).repair := by
  have hread : ∀ y : UInt8, 0xF5 ≤ y.toNat →
      Str.ofBytes ((Str.ofBytes l).withStray y).bytes = (Str.ofBytes l).withStray y := by
    intro y hy
    apply ofBytes_bytes
    intro b hb
    rwa [eq_of_mem_withStray hb]
  obtain ⟨y, hy, hne⟩ : ∃ y : UInt8, 0xF5 ≤ y.toNat ∧ (Str.ofBytes l).withStray y ≠ Str.ofBytes l := by
    by_cases hfirst : (Str.ofBytes l).withStray 0xFF = Str.ofBytes l
    · refine ⟨0xFE, by decide, fun hsecond => h ?_⟩
      exact valid_of_withStray_eq (by decide) (hfirst.trans hsecond.symm)
    · exact ⟨0xFF, by decide, hfirst⟩
  refine ⟨((Str.ofBytes l).withStray y).bytes, fun heq => hne ?_, ?_, ?_⟩
  · rw [← hread y hy, heq]
  · rw [length_bytes, size_withStray, ← length_bytes, bytes_ofBytes]
  · rw [hread y hy, repair_withStray]

/-- Valid bytes are the only ones of their number that are repaired to their text. -/
theorem eq_of_same_repair {l l' : List UInt8} (h : (Str.ofBytes l).Valid)
    (hlength : l'.length = l.length) (hrepair : (Str.ofBytes l').repair = (Str.ofBytes l).repair) :
    l' = l := by
  have hsize : ∀ l : List UInt8, (Str.ofBytes l).size = l.length := by
    intro l
    rw [← length_bytes, bytes_ofBytes]
  have hvalid : (Str.ofBytes l').Valid := by
    apply valid_of_size_repair
    rw [hrepair, Str.repair_eq_self_iff.mpr h, hsize, hsize, hlength]
  rw [Str.repair_eq_self_iff.mpr h, Str.repair_eq_self_iff.mpr hvalid] at hrepair
  exact ofBytes_injective hrepair

end WeighingSync.Go
