import WeighingSync.Go.Strings

/-!
# Bytes and text

`Str.ofBytes` is the conversion `string(b)`: the runes that Go reads from a byte slice. `base64` is
`base64.StdEncoding.EncodeToString`, and `limitReader` is what `io.LimitReader` lets through of a
text, which may cut a character apart.
-/

namespace WeighingSync.Go

/-! ## From bytes to text -/

/-- A continuation byte of UTF-8. -/
def isContinuation (b : UInt8) : Bool := 0x80 ≤ b && b ≤ 0xBF

/-- The second byte that the first byte of a longer sequence admits. -/
def validSecond (a b : UInt8) : Bool :=
  if a = 0xE0 then 0xA0 ≤ b && b ≤ 0xBF
  else if a = 0xED then 0x80 ≤ b && b ≤ 0x9F
  else if a = 0xF0 then 0x90 ≤ b && b ≤ 0xBF
  else if a = 0xF4 then 0x80 ≤ b && b ≤ 0x8F
  else isContinuation b

/-- The payload bits of a continuation byte. -/
def payload (b : UInt8) : ℕ := b.toNat - 0x80

/-- The character that a complete UTF-8 sequence encodes. -/
def decodeSequence : List UInt8 → Option Char
  | [a] => if a < 0x80 then some (Char.ofNat a.toNat) else none
  | [a, b] =>
      if 0xC2 ≤ a ∧ a ≤ 0xDF ∧ isContinuation b then
        some (Char.ofNat ((a.toNat - 0xC0) * 0x40 + payload b))
      else none
  | [a, b, c] =>
      if 0xE0 ≤ a ∧ a ≤ 0xEF ∧ validSecond a b ∧ isContinuation c then
        some (Char.ofNat ((a.toNat - 0xE0) * 0x1000 + payload b * 0x40 + payload c))
      else none
  | [a, b, c, d] =>
      if 0xF0 ≤ a ∧ a ≤ 0xF4 ∧ validSecond a b ∧ isContinuation c ∧ isContinuation d then
        some (Char.ofNat ((a.toNat - 0xF0) * 0x40000 + payload b * 0x1000 + payload c * 0x40 + payload d))
      else none
  | _ => none

/-- Bytes that begin a UTF-8 sequence without completing it. -/
def beginsSequence : List UInt8 → Bool
  | [a] => 0xC2 ≤ a && a ≤ 0xF4
  | [a, b] => 0xE0 ≤ a && a ≤ 0xF4 && validSecond a b
  | [a, b, c] => 0xF0 ≤ a && a ≤ 0xF4 && validSecond a b && isContinuation c
  | _ => false

/-- A byte read with no sequence begun: what it adds, and the bytes it leaves waiting. -/
def readFresh (b : UInt8) : List Rune × List UInt8 :=
  match decodeSequence [b] with
  | some c => ([.char c], [])
  | none => if beginsSequence [b] then ([], [b]) else ([.byte b], [])

/-- A byte read after the bytes `waiting`, which have begun a sequence. -/
def readByte (waiting : List UInt8) (b : UInt8) : List Rune × List UInt8 :=
  match decodeSequence (waiting ++ [b]) with
  | some c => ([.char c], [])
  | none =>
      if beginsSequence (waiting ++ [b]) then ([], waiting ++ [b])
      else (waiting.map .byte ++ (readFresh b).1, (readFresh b).2)

/-- The runes of a byte slice, after the bytes `waiting`. -/
def readBytes : List UInt8 → List UInt8 → Str
  | waiting, [] => waiting.map .byte
  | waiting, b :: bytes => (readByte waiting b).1 ++ readBytes (readByte waiting b).2 bytes

/-- `string(b)`. -/
def Str.ofBytes (bytes : List UInt8) : Str := readBytes [] bytes

/-! ## Base64 -/

/-- A digit of the standard base64 alphabet. -/
def base64Digit (n : ℕ) : Rune :=
  .char <|
    if n < 26 then Char.ofNat ('A'.toNat + n)
    else if n < 52 then Char.ofNat ('a'.toNat + (n - 26))
    else if n < 62 then Char.ofNat ('0'.toNat + (n - 52))
    else if n = 62 then '+' else '/'

/-- `base64.StdEncoding.EncodeToString`. -/
def base64 : List UInt8 → Str
  | [] => []
  | [a] => [base64Digit (a.toNat / 4), base64Digit (a.toNat % 4 * 16), .char '=', .char '=']
  | [a, b] =>
      [base64Digit (a.toNat / 4), base64Digit (a.toNat % 4 * 16 + b.toNat / 16),
        base64Digit (b.toNat % 16 * 4), .char '=']
  | a :: b :: c :: rest =>
      base64Digit (a.toNat / 4) :: base64Digit (a.toNat % 4 * 16 + b.toNat / 16) ::
        base64Digit (b.toNat % 16 * 4 + c.toNat / 64) :: base64Digit (c.toNat % 64) :: base64 rest

theorem valid_base64 (bytes : List UInt8) : (base64 bytes).Valid := by
  fun_induction base64 bytes with
  | case1 => simp [Str.Valid]
  | case2 a => simp [Str.Valid, base64Digit, Rune.repair]
  | case3 a b => simp [Str.Valid, base64Digit, Rune.repair]
  | case4 a b c rest ih => simpa [Str.Valid, base64Digit, Rune.repair] using ih

/-! ## Reading with a limit -/

/-- The bytes of a rune. -/
def Rune.bytes : Rune → List UInt8
  | .char c => String.utf8EncodeChar c
  | .byte b => [b]

/-- What `io.LimitReader` lets through: the runes that fit, and the first bytes of the one that does
not. -/
def limitReader : ℕ → Str → Str
  | _, [] => []
  | n, r :: s => if r.size ≤ n then r :: limitReader (n - r.size) s else (r.bytes.take n).map .byte

/-- A text within the limit is read whole. -/
theorem limitReader_of_size_le {n : ℕ} {s : Str} (h : s.size ≤ n) : limitReader n s = s := by
  induction s generalizing n with
  | nil => rfl
  | cons r s ih =>
      rw [Str.size_cons] at h
      rw [limitReader, if_pos (by omega), ih (by omega)]

/-- Of a longer text a proper prefix is read, with bytes of the rune that was cut. -/
theorem limitReader_of_lt_size {n : ℕ} {s : Str} (h : n < s.size) :
    ∃ (p t : Str) (bytes : List UInt8),
      s = p ++ t ∧ t ≠ [] ∧ p.size ≤ n ∧ limitReader n s = p ++ bytes.map .byte := by
  induction s generalizing n with
  | nil => simp at h
  | cons r s ih =>
      by_cases hr : r.size ≤ n
      · rw [Str.size_cons] at h
        obtain ⟨p, t, bytes, rfl, ht, hp, hread⟩ := ih (n := n - r.size) (by omega)
        refine ⟨r :: p, t, bytes, rfl, ht, ?_, ?_⟩
        · rw [Str.size_cons]
          omega
        · rw [limitReader, if_pos hr, hread, List.cons_append]
      · exact ⟨[], r :: s, r.bytes.take n, rfl, List.cons_ne_nil r s, Nat.zero_le n,
          by rw [limitReader, if_neg hr, List.nil_append]⟩

end WeighingSync.Go
