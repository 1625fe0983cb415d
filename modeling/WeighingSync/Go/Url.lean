import WeighingSync.Go.Bytes

/-!
# URLs

Percent-encoding, query parameters and paths as `net/url` treats them, byte by byte. What is escaped
is read back (`unescape_escape`), and `Values.encode` determines the values of every parameter up to
the order that it sorts them in (`perm_values_of_encode_eq`).
-/

namespace WeighingSync.Go

/-- A byte string. -/
abbrev Bytes := List UInt8

instance : LawfulBEq Bytes := inferInstance

/-- The bytes of a text. -/
def Str.bytes (s : Str) : Bytes := s.flatMap Rune.bytes

/-- The bytes of a literal. -/
def bytesOf (s : String) : Bytes := (Str.lit s).bytes

/-- The byte of an ASCII character. -/
def ascii (c : Char) : UInt8 := UInt8.ofNat c.toNat

/-! ## ASCII text -/

/-- Bytes that are ASCII are read one by one. -/
theorem ofBytes_ascii {x : Bytes} (h : ∀ b ∈ x, b < 0x80) :
    Str.ofBytes x = x.map fun b => .char (Char.ofNat b.toNat) := by
  rw [Str.ofBytes]
  induction x with
  | nil => rfl
  | cons b x ih =>
      rw [List.forall_mem_cons] at h
      have hread : readByte [] b = ([.char (Char.ofNat b.toNat)], []) := by
        rw [readByte, List.nil_append, decodeSequence, if_pos h.1]
      rw [readBytes, hread, ih h.2]
      rfl

/-- What is read of ASCII bytes before others. -/
theorem ofBytes_append_of_ascii {x : Bytes} (h : ∀ b ∈ x, b < 0x80) (y : Bytes) :
    Str.ofBytes (x ++ y) = Str.ofBytes x ++ Str.ofBytes y := by
  rw [ofBytes_ascii h, Str.ofBytes]
  induction x with
  | nil => rfl
  | cons b x ih =>
      rw [List.forall_mem_cons] at h
      have hread : readByte [] b = ([.char (Char.ofNat b.toNat)], []) := by
        rw [readByte, List.nil_append, decodeSequence, if_pos h.1]
      rw [List.cons_append, readBytes, hread, ih h.2]
      rfl

theorem utf8EncodeChar_ascii {b : UInt8} (h : b < 0x80) :
    String.utf8EncodeChar (Char.ofNat b.toNat) = [b] := by
  have hall : ∀ n : Fin 128, String.utf8EncodeChar (Char.ofNat n) = [UInt8.ofNat n] := by
    decide +kernel
  have hb := hall ⟨b.toNat, UInt8.lt_iff_toNat_lt.mp h⟩
  rwa [UInt8.ofNat_toNat] at hb

/-- ASCII bytes come back from the text that they are read as. -/
theorem bytes_ofBytes_ascii {x : Bytes} (h : ∀ b ∈ x, b < 0x80) : (Str.ofBytes x).bytes = x := by
  rw [ofBytes_ascii h, Str.bytes, List.flatMap_map]
  induction x with
  | nil => rfl
  | cons b x ih =>
      rw [List.forall_mem_cons] at h
      rw [List.flatMap_cons, Rune.bytes, utf8EncodeChar_ascii h.1, ih h.2]
      rfl

/-- A text of ASCII characters is read back from its bytes. -/
theorem ofBytes_bytes_ascii {s : Str} (h : ∀ r ∈ s, ∃ c : Char, r = .char c ∧ c.toNat < 0x80) :
    Str.ofBytes s.bytes = s ∧ ∀ b ∈ s.bytes, b < 0x80 := by
  have hbytes : ∃ x : Bytes, (∀ b ∈ x, b < 0x80) ∧ s = x.map fun b => .char (Char.ofNat b.toNat) := by
    induction s with
    | nil => exact ⟨[], by simp, rfl⟩
    | cons r s ih =>
        rw [List.forall_mem_cons] at h
        obtain ⟨⟨c, rfl, hc⟩, hs⟩ := h
        obtain ⟨x, hx, rfl⟩ := ih hs
        have hlt : (UInt8.ofNat c.toNat).toNat = c.toNat := by
          rw [UInt8.toNat_ofNat']
          omega
        refine ⟨UInt8.ofNat c.toNat :: x, List.forall_mem_cons.mpr ⟨?_, hx⟩, ?_⟩
        · rw [UInt8.lt_iff_toNat_lt, hlt]
          exact hc
        · rw [List.map_cons, hlt, Char.ofNat_toNat]
  obtain ⟨x, hx, rfl⟩ := hbytes
  rw [← ofBytes_ascii hx, bytes_ofBytes_ascii hx]
  exact ⟨rfl, hx⟩

namespace Url

/-! ## Percent-encoding -/

/-- The parts of a URL that are escaped here: `encodePath` and `encodeQueryComponent`. -/
inductive Mode
  | path
  | query
  deriving DecidableEq, Repr

/-- `shouldEscape`. -/
def shouldEscape (mode : Mode) (b : UInt8) : Bool :=
  let c := Char.ofNat b.toNat
  if c.isAlphanum || c ∈ ['-', '_', '.', '~'] then false
  else if c ∈ ['$', '&', '+', ',', '/', ':', ';', '=', '?', '@'] then
    match mode with
    | .path => c == '?'
    | .query => true
  else true

/-- A digit of `upperhex`. -/
def upperHex (n : ℕ) : UInt8 := if n < 10 then UInt8.ofNat (48 + n) else UInt8.ofNat (55 + n)

/-- What `escape` writes for a byte. -/
def escapeByte (mode : Mode) (b : UInt8) : Bytes :=
  if shouldEscape mode b then
    if b = ascii ' ' ∧ mode = .query then [ascii '+']
    else [ascii '%', upperHex (b.toNat / 16), upperHex (b.toNat % 16)]
  else [b]

/-- `escape`. -/
def escape (mode : Mode) (s : Bytes) : Bytes := s.flatMap (escapeByte mode)

/-- `unhex`, of the bytes that `ishex` admits. -/
def unhex (b : UInt8) : Option ℕ :=
  if 48 ≤ b ∧ b ≤ 57 then some (b.toNat - 48)
  else if 97 ≤ b ∧ b ≤ 102 then some (b.toNat - 87)
  else if 65 ≤ b ∧ b ≤ 70 then some (b.toNat - 55)
  else none

/-- A byte that `unescape` takes as it is, but for the plus sign of a query. -/
def plainByte (mode : Mode) (b : UInt8) : UInt8 :=
  if b = ascii '+' ∧ mode = .query then ascii ' ' else b

/-- `unescape`. -/
def unescape (mode : Mode) : Bytes → Option Bytes
  | [] => some []
  | b :: s =>
      if b = ascii '%' then
        match s with
        | hi :: lo :: rest => do
            let h ← unhex hi
            let l ← unhex lo
            (unescape mode rest).map (UInt8.ofNat (16 * h + l) :: ·)
        | _ => none
      else (unescape mode s).map (plainByte mode b :: ·)

/-! ## Query parameters -/

/-- `url.Values`: the values of each key, in the order in which they came. -/
structure Values where
  entries : List (Bytes × List Bytes)
  nodup : (entries.map Prod.fst).Nodup

namespace Values

/-- No parameters. -/
def empty : Values := ⟨[], List.nodup_nil⟩

/-- The values of a key. -/
def all (v : Values) (key : Bytes) : List Bytes := (v.entries.lookup key).getD []

/-- `Values.Get`: the first value of a key. -/
def get (v : Values) (key : Bytes) : Bytes := (v.all key).headD []

/-- `Values.Add`. -/
def add (v : Values) (key value : Bytes) : Values :=
  if h : key ∈ v.entries.map Prod.fst then
    { entries := v.entries.map fun e => if e.1 = key then (e.1, e.2 ++ [value]) else e
      nodup := by
        have hkeys : (v.entries.map fun e => if e.1 = key then (e.1, e.2 ++ [value]) else e).map
            Prod.fst = v.entries.map Prod.fst := by
          rw [List.map_map]
          refine List.map_congr_left fun e _ => ?_
          rw [Function.comp_apply]
          split_ifs <;> rfl
        rw [hkeys]
        exact v.nodup }
  else
    { entries := v.entries ++ [(key, [value])]
      nodup := by
        rw [List.map_append, List.nodup_append']
        exact ⟨v.nodup, List.nodup_singleton _, by simpa using h⟩ }

/-- One parameter as `Values.Encode` writes it. -/
def pairText (p : Bytes × Bytes) : Bytes :=
  escape .query p.1 ++ ascii '=' :: escape .query p.2

/-- The keys and values of a list of entries, one by one. -/
def pairs (entries : List (Bytes × List Bytes)) : List (Bytes × Bytes) :=
  entries.flatMap fun e => e.2.map (Prod.mk e.1)

/-- `Values.Encode`: sorted by key. -/
def encode (entries : List (Bytes × List Bytes)) : Bytes :=
  [ascii '&'].intercalate
    ((pairs (entries.insertionSort fun e e' => e.1 ≤ e'.1)).map pairText)

end Values

/-- `strings.Cut` at a byte. -/
def cut (sep : UInt8) (s : Bytes) : Bytes × Bytes :=
  (s.takeWhile (· ≠ sep), (s.dropWhile (· ≠ sep)).tail)

/-- One parameter as `parseQuery` reads it: a part that is empty, has a semicolon or cannot be
unescaped is left out. -/
def parsePair (part : Bytes) : Option (Bytes × Bytes) :=
  if part = [] ∨ ascii ';' ∈ part then none
  else do
    let key ← unescape .query (cut (ascii '=') part).1
    let value ← unescape .query (cut (ascii '=') part).2
    return (key, value)

/-- `URL.Query`. -/
def parseQuery (rawQuery : Bytes) : Values :=
  ((rawQuery.splitOn (ascii '&')).filterMap parsePair).foldl (fun v p => v.add p.1 p.2) .empty

/-! ## Paths -/

/-- The parts of a `url.URL` that a request is signed with. -/
structure URL where
  path : Bytes
  rawPath : Bytes
  rawQuery : Bytes
  deriving DecidableEq, Repr

/-- `validEncoded`, for a path. -/
def validEncoded (s : Bytes) : Bool :=
  s.all fun b =>
    Char.ofNat b.toNat ∈ ['!', '$', '&', '\x27', '(', ')', '*', '+', ',', ';', '=', ':', '@', '[', ']',
      '%'] || !shouldEscape .path b

/-- `URL.EscapedPath`. -/
def URL.escapedPath (u : URL) : Bytes :=
  if u.rawPath ≠ [] ∧ validEncoded u.rawPath = true ∧ unescape .path u.rawPath = some u.path then
    u.rawPath
  else if u.path = [ascii '*'] then [ascii '*']
  else escape .path u.path

/-- `setPath`: the path that a percent-encoded path denotes, and the raw path if it is not the
default encoding. -/
def setPath (p : Bytes) : Option (Bytes × Bytes) :=
  (unescape .path p).map fun path => (path, if p = escape .path path then [] else p)

/-- `URL.Query`. -/
def URL.query (u : URL) : Values := parseQuery u.rawQuery

/-! ## Reading back -/

theorem unhex_upperHex {n : ℕ} (h : n < 16) : unhex (upperHex n) = some n := by
  have hall : ∀ n : Fin 16, unhex (upperHex n) = some n.val := by decide
  exact hall ⟨n, h⟩

/-- A byte that stands for itself is not the percent sign, and in a query not the plus sign. -/
theorem plain_of_not_shouldEscape {mode : Mode} {b : UInt8} (h : shouldEscape mode b = false) :
    b ≠ ascii '%' ∧ plainByte mode b = b := by
  have hpercent : ∀ mode, shouldEscape mode (ascii '%') = true := by
    intro mode
    cases mode <;> decide
  refine ⟨fun heq => ?_, ?_⟩
  · rw [heq, hpercent] at h
    cases h
  · rw [plainByte, if_neg]
    rintro ⟨rfl, rfl⟩
    have hplus : shouldEscape .query (ascii '+') = true := by decide
    rw [hplus] at h
    cases h

theorem unescape_percent (mode : Mode) (hi lo : UInt8) (s : Bytes) :
    unescape mode (ascii '%' :: hi :: lo :: s) = (unhex hi).bind fun h => (unhex lo).bind fun l =>
      (unescape mode s).map (UInt8.ofNat (16 * h + l) :: ·) := by
  rw [unescape.eq_def]
  simp only [if_true]
  rfl

theorem unescape_cons {mode : Mode} {b : UInt8} (h : b ≠ ascii '%') (s : Bytes) :
    unescape mode (b :: s) = (unescape mode s).map (plainByte mode b :: ·) := by
  rw [unescape.eq_def]
  simp only [if_neg h]

/-- An escaped byte is read back as that byte. -/
theorem unescape_escapeByte (mode : Mode) (b : UInt8) (s : Bytes) :
    unescape mode (escapeByte mode b ++ s) = (unescape mode s).map (b :: ·) := by
  rw [escapeByte]
  split_ifs with hescape hspace
  · obtain ⟨rfl, rfl⟩ := hspace
    exact unescape_cons (by decide) s
  · have hb : UInt8.ofNat (16 * (b.toNat / 16) + b.toNat % 16) = b := by
      rw [Nat.div_add_mod, UInt8.ofNat_toNat]
    have hlt := b.toNat_lt
    rw [List.cons_append, List.cons_append, List.cons_append, List.nil_append, unescape_percent,
      unhex_upperHex (by omega), unhex_upperHex (by omega), Option.bind_some, Option.bind_some, hb]
  · obtain ⟨hpercent, hplain⟩ := plain_of_not_shouldEscape (by simpa using hescape)
    rw [List.cons_append, List.nil_append, unescape_cons hpercent, hplain]

/-- What is escaped is read back. -/
theorem unescape_escape (mode : Mode) (s : Bytes) : unescape mode (escape mode s) = some s := by
  induction s with
  | nil => rfl
  | cons b s ih =>
      rw [escape, List.flatMap_cons, unescape_escapeByte]
      rw [escape] at ih
      rw [ih, Option.map_some]

theorem escape_injective (mode : Mode) : Function.Injective (escape mode) := by
  intro s t h
  have hs := unescape_escape mode s
  rw [h, unescape_escape] at hs
  exact (Option.some_inj.mp hs).symm

/-- The path that an escaped path denotes is the path. -/
theorem unescape_escapedPath (u : URL) : unescape .path u.escapedPath = some u.path := by
  rw [URL.escapedPath]
  split_ifs with hraw hstar
  · exact hraw.2.2
  · rw [hstar]
    rfl
  · exact unescape_escape .path u.path

/-! ## What an encoded query determines -/

/-- Neither separator of a query, nor a newline, is left in an escaped text. -/
theorem not_mem_escape_query {b : UInt8} (hb : b = ascii '&' ∨ b = ascii '=' ∨ b = ascii '\n')
    (s : Bytes) : b ∉ escape .query s := by
  -- a separator is escaped itself, and no digit or sign that stands for an escaped byte
  have hself : shouldEscape .query b = true := by
    rcases hb with rfl | rfl | rfl <;> decide
  have hsigns : b ≠ ascii '+' ∧ b ≠ ascii '%' := by
    rcases hb with rfl | rfl | rfl <;> decide
  have hdigits : ∀ n : Fin 16, b ≠ upperHex n := by
    rcases hb with rfl | rfl | rfl <;> decide
  intro hmem
  obtain ⟨c, -, hc⟩ := List.mem_flatMap.mp hmem
  have hlt := c.toNat_lt
  rw [escapeByte] at hc
  split_ifs at hc with hescape hspace
  · exact hsigns.1 (List.mem_singleton.mp hc)
  · simp only [List.mem_cons, List.not_mem_nil, or_false] at hc
    rcases hc with hc | hc | hc
    · exact hsigns.2 hc
    · exact hdigits ⟨c.toNat / 16, by omega⟩ hc
    · exact hdigits ⟨c.toNat % 16, by omega⟩ hc
  · rw [List.mem_singleton.mp hc] at hself
    exact hescape hself

namespace Values

theorem pairText_injective : Function.Injective pairText := by
  intro p q h
  have hsep : ∀ s : Bytes, ascii '=' ∉ escape .query s :=
    not_mem_escape_query (Or.inr (Or.inl rfl))
  obtain ⟨hkey, -, hvalue⟩ := (List.append_cons_inj_of_notMem (hsep _) (hsep _)).mp h
  exact Prod.ext (escape_injective .query hkey) (escape_injective .query hvalue)

theorem not_mem_pairText {b : UInt8} (hb : b = ascii '&' ∨ b = ascii '\n') (p : Bytes × Bytes) :
    b ∉ pairText p := by
  have hne : b ≠ ascii '=' := by
    rcases hb with rfl | rfl <;> decide
  have hescape : ∀ s : Bytes, b ∉ escape .query s := by
    rcases hb with rfl | rfl
    · exact not_mem_escape_query (Or.inl rfl)
    · exact not_mem_escape_query (Or.inr (Or.inr rfl))
  simp [pairText, hne, hescape]

/-- Two lists of parameters that are written alike are the same. -/
theorem intercalate_pairText_injective {ps qs : List (Bytes × Bytes)}
    (h : [ascii '&'].intercalate (ps.map pairText) = [ascii '&'].intercalate (qs.map pairText)) :
    ps = qs := by
  have hsep : ∀ rs : List (Bytes × Bytes), ∀ t ∈ rs.map pairText, ascii '&' ∉ t := by
    intro rs t ht
    obtain ⟨p, -, rfl⟩ := List.mem_map.mp ht
    exact not_mem_pairText (Or.inl rfl) p
  have hne : ∀ (p : Bytes × Bytes) (rs : List (Bytes × Bytes)),
      [ascii '&'].intercalate ((p :: rs).map pairText) ≠ [] := by
    intro p rs hnil
    have hsplit := List.splitOn_intercalate (ascii '&') (hsep (p :: rs)) (by simp)
    rw [hnil, List.splitOn_nil] at hsplit
    have hempty : pairText p = [] := (List.cons.inj hsplit).1.symm
    exact absurd hempty (by simp [pairText])
  cases ps with
  | nil =>
      cases qs with
      | nil => rfl
      | cons q qs => exact absurd h.symm (hne q qs)
  | cons p ps =>
      cases qs with
      | nil => exact absurd h (hne p ps)
      | cons q qs =>
          have hp := List.splitOn_intercalate (ascii '&') (hsep (p :: ps)) (by simp)
          rw [h, List.splitOn_intercalate (ascii '&') (hsep (q :: qs)) (by simp)] at hp
          exact (pairText_injective.list_map hp).symm

/-- No newline is left in an encoded query. -/
theorem newline_not_mem_encode (entries : List (Bytes × List Bytes)) :
    ascii '\n' ∉ encode entries := by
  rw [encode]
  generalize pairs _ = ps
  induction ps with
  | nil => simp
  | cons p ps ih =>
      cases ps with
      | nil => simpa using not_mem_pairText (Or.inr rfl) p
      | cons q qs =>
          have hp := not_mem_pairText (b := ascii '\n') (Or.inr rfl) p
          have hamp : ascii '\n' ≠ ascii '&' := by decide
          rw [List.map_cons, List.map_cons, List.intercalate_cons_cons] at *
          simp only [List.mem_append, List.mem_singleton, not_or]
          exact ⟨⟨hp, hamp⟩, ih⟩

/-- The values of a key, read off the list of all parameters. -/
theorem map_snd_filter_pairs {entries : List (Bytes × List Bytes)}
    (h : (entries.map Prod.fst).Nodup) (key : Bytes) :
    ((pairs entries).filter fun p => p.1 = key).map Prod.snd = (entries.lookup key).getD [] := by
  induction entries with
  | nil => rfl
  | cons e entries ih =>
      rw [List.map_cons, List.nodup_cons] at h
      have hhead : ((e.2.map (Prod.mk e.1)).filter fun p => decide (p.1 = key)).map Prod.snd =
          if e.1 = key then e.2 else [] := by
        by_cases hkey : e.1 = key
        · simp [List.filter_map, Function.comp_def, hkey]
        · simp [List.filter_map, Function.comp_def, hkey]
      rw [pairs, List.flatMap_cons, List.filter_append, List.map_append, hhead]
      by_cases hkey : e.1 = key
      · have hrest : ((pairs entries).filter fun p => decide (p.1 = key)).map Prod.snd = [] := by
          rw [ih h.2, List.lookup_eq_none_iff.mpr fun e' he' => ?_]
          · rfl
          · simp only [bne_iff_ne, ne_eq]
            rintro rfl
            exact h.1 (List.mem_map.mpr ⟨e', he', hkey.symm⟩)
        rw [pairs] at hrest
        rw [hrest, if_pos hkey, List.append_nil, List.lookup_cons, ← hkey, beq_self_eq_true]
        rfl
      · have hbeq : (key == e.1) = false := by simpa [beq_eq_false_iff_ne] using Ne.symm hkey
        rw [pairs] at ih
        rw [ih h.2, if_neg hkey, List.nil_append, List.lookup_cons, hbeq]

/-- Entries that are written alike have the same values for every key, up to their order. -/
theorem perm_values_of_encode_eq {entries entries' : List (Bytes × List Bytes)}
    (hnodup : (entries.map Prod.fst).Nodup) (hnodup' : (entries'.map Prod.fst).Nodup)
    (h : encode entries = encode entries') (key : Bytes) :
    ((entries.lookup key).getD []).Perm ((entries'.lookup key).getD []) := by
  have hpairs := intercalate_pairText_injective h
  have hsorted : ∀ es : List (Bytes × List Bytes),
      (((pairs (es.insertionSort fun e e' => e.1 ≤ e'.1)).filter fun p => p.1 = key).map
        Prod.snd).Perm (((pairs es).filter fun p => p.1 = key).map Prod.snd) := by
    intro es
    exact (((List.perm_insertionSort _ es).flatMap_right _).filter _).map _
  rw [← map_snd_filter_pairs hnodup key, ← map_snd_filter_pairs hnodup' key]
  refine (hsorted entries).symm.trans ?_
  rw [hpairs]
  exact hsorted entries'

end Values

end Url

end WeighingSync.Go
