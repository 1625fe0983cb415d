import WeighingSync.Go.Json

/-!
# The decoder of `encoding/json`

`unquote` reads the inside of a string one rune at a time: `Scan` is the state of that scanner,
which holds back a high surrogate until it has seen whether its other half follows. `value`,
`members` and `elements` read a value, the fields of an object and the elements of an array; their
first argument bounds the depth of the recursion, and `parse` and `parseFirst` give it the length
of the text, which is always enough.
-/

namespace WeighingSync.Go

/-! ## Strings -/

/-- Where the scanner of a string stands. -/
inductive Scan
  | plain (high : Option ℕ)
  | escape (high : Option ℕ)
  | hex (high : Option ℕ) (left acc : ℕ)
  deriving DecidableEq, Repr

namespace Scan

/-- A high surrogate whose low half never came is written as U+FFFD. -/
def flush : Option ℕ → Str
  | none => []
  | some _ => [Rune.replacement]

/-- The value of a hexadecimal digit. -/
def hexValue : Rune → Option ℕ
  | .char c =>
      if c.isDigit then some (c.toNat - '0'.toNat)
      else if 'a' ≤ c ∧ c ≤ 'f' then some (c.toNat - 'a'.toNat + 10)
      else if 'A' ≤ c ∧ c ≤ 'F' then some (c.toNat - 'A'.toNat + 10)
      else none
  | .byte _ => none

/-- What a one-rune escape stands for. -/
def unescape : Rune → Option Rune
  | .char '"' => some (.char '"')
  | .char '\\' => some (.char '\\')
  | .char '/' => some (.char '/')
  | .char 'b' => some (.char '\x08')
  | .char 'f' => some (.char '\x0c')
  | .char 'n' => some (.char '\n')
  | .char 'r' => some (.char '\r')
  | .char 't' => some (.char '\t')
  | _ => none

/-- What a unicode escape stands for, after a high surrogate or none. -/
def emit (high : Option ℕ) (code : ℕ) : Str × Scan :=
  if 0xDC00 ≤ code ∧ code < 0xE000 then
    match high with
    | some h => ([.char (Char.ofNat (0x10000 + (h - 0xD800) * 0x400 + (code - 0xDC00)))], plain none)
    | none => ([Rune.replacement], plain none)
  else if 0xD800 ≤ code ∧ code < 0xDC00 then (flush high, plain (some code))
  else (flush high ++ [.char (Char.ofNat code)], plain none)

/-- A control character, which a JSON string must escape. -/
def isControl : Rune → Bool
  | .char c => c.toNat < 0x20
  | .byte _ => false

/-- One rune of a string: what it adds to the result, and where the scanner stands after it. -/
def step : Scan → Rune → Option (Str × Scan)
  | plain high, r =>
      if r = .char '\\' then some ([], escape high)
      else if isControl r then none
      else some (flush high ++ [r.repair], plain none)
  | escape high, r =>
      if r = .char 'u' then some ([], hex high 4 0)
      else (unescape r).map fun c => (flush high ++ [c], plain none)
  | hex high left acc, r =>
      (hexValue r).map fun d =>
        if left = 1 then emit high (16 * acc + d) else ([], hex high (left - 1) (16 * acc + d))

end Scan

/-- The string up to its closing quote, and the text after it. -/
def unquote : Scan → Str → Option (Str × Str)
  | _, [] => none
  | .plain high, r :: s =>
      if r = .char '"' then some (Scan.flush high, s)
      else (Scan.step (.plain high) r).bind fun (out, next) =>
        (unquote next s).map fun (t, rest) => (out ++ t, rest)
  | scan, r :: s =>
      (Scan.step scan r).bind fun (out, next) =>
        (unquote next s).map fun (t, rest) => (out ++ t, rest)

/-! ## Values -/

/-- White space between JSON tokens. -/
def isJSONSpace : Rune → Bool
  | .char c => c ∈ [' ', '\t', '\r', '\n']
  | .byte _ => false

/-- The text from its next token on. -/
def skipSpace (s : Str) : Str := s.dropWhile isJSONSpace

/-- The text after a token that has to come next. -/
def expect (token : Rune) (s : Str) : Option Str :=
  match skipSpace s with
  | [] => none
  | r :: t => if r = token then some t else none

/-- A word at the start of the text. -/
def word (w : Str) (j : Json) (s : Str) : Option (Json × Str) :=
  if w.isPrefixOf s then some (j, s.drop w.length) else none

/-- A number at the start of the text. -/
def number (s : Str) : Option (Json × Str) :=
  let literal := s.takeWhile isNumberRune
  if validNumber literal then some (.num literal, s.dropWhile isNumberRune) else none

mutual

/-- The value at the start of the text, and the text after it. Nesting has no limit here; `encoding/json`
refuses more than 10000 levels. -/
def value : ℕ → Str → Option (Json × Str)
  | 0, _ => none
  | n + 1, s =>
      match skipSpace s with
      | [] => none
      | r :: t =>
          if r = .char '\x7b' then
            match expect (.char '\x7d') t with
            | some rest => some (.obj [], rest)
            | none => (members n t).map fun (fields, rest) => (.obj fields, rest)
          else if r = .char '[' then
            match expect (.char ']') t with
            | some rest => some (.arr [], rest)
            | none => (elements n t).map fun (xs, rest) => (.arr xs, rest)
          else if r = .char '"' then
            (unquote (.plain none) t).map fun (text, rest) => (.str text, rest)
          else if r = .char 't' then word (Str.lit "true") (.bool true) (r :: t)
          else if r = .char 'f' then word (Str.lit "false") (.bool false) (r :: t)
          else if r = .char 'n' then word (Str.lit "null") .null (r :: t)
          else number (r :: t)

/-- The fields of an object, up to its closing brace. -/
def members : ℕ → Str → Option (List (Str × Json) × Str)
  | 0, _ => none
  | n + 1, s => do
      let (key, s) ← (expect (.char '"') s).bind (unquote (.plain none))
      let (x, s) ← (expect (.char ':') s).bind (value n)
      match expect (.char '\x7d') s with
      | some rest => some ([(key, x)], rest)
      | none =>
          let (fields, rest) ← (expect (.char ',') s).bind (members n)
          some ((key, x) :: fields, rest)

/-- The elements of an array, up to its closing bracket. -/
def elements : ℕ → Str → Option (List Json × Str)
  | 0, _ => none
  | n + 1, s => do
      let (x, s) ← value n s
      match expect (.char ']') s with
      | some rest => some ([x], rest)
      | none =>
          let (xs, rest) ← (expect (.char ',') s).bind (elements n)
          some (x :: xs, rest)

end

/-- `Decoder.Decode`: the first value of a text, whatever follows it. -/
def parseFirst (s : Str) : Option Json := (value (s.length + 1) s).map Prod.fst

/-- `json.Unmarshal`: the value of a text that holds nothing else. -/
def parse (s : Str) : Option Json :=
  (value (s.length + 1) s).bind fun (j, rest) => if skipSpace rest = [] then some j else none

end WeighingSync.Go
