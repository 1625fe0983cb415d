import WeighingSync.Go.JsonRoundTrip
import WeighingSync.Go.Utf8
import WeighingSync.Uploader.Source

/-!
# Bytes of a column

What C is sent of a column whose values the driver delivers as bytes. `toJSON` puts some of them in
base64 and makes a text of the others, of which JSON replaces every byte that is not UTF-8. So a value
can be told from all others of its column exactly if it is put in base64 or is valid UTF-8
(`determined_iff`); a `uniqueidentifier`, 16 bytes of any kind, rarely is.
-/

namespace WeighingSync.Uploader

open Go

/-- The name of the type makes `toJSON` put the bytes in base64. -/
def inBase64 (databaseType : Str) : Bool :=
  databaseType.toUpper.contains (Str.lit "BINARY") || databaseType.toUpper.contains (Str.lit "IMAGE")

/-- The JSON value of bytes, as it is read from what is sent. -/
def sentValue (databaseType : Str) (b : List UInt8) : Option Json :=
  parse (toJSON (.bytes b) databaseType).json.encode

/-- The type of the columns whose values are UUIDs. -/
def uniqueIdentifier : Str := Str.lit "UNIQUEIDENTIFIER"

/-- What the driver is documented to deliver as bytes: the 16 raw bytes of a UUID, any bytes for the
types that are put in base64, and for others, such as decimals, ASCII. -/
structure DriverDocumented (delivers : Str → List UInt8 → Prop) : Prop where
  uuid : ∀ t : Str, t.toUpper = uniqueIdentifier → ∀ b, delivers t b ↔ b.length = 16
  ascii : ∀ t : Str, t.toUpper ≠ uniqueIdentifier → inBase64 t = false →
    ∀ b, delivers t b → ∀ x ∈ b, x < 0x80

/-- The value that is sent of a column can be told from every other that the driver may deliver. -/
def Determined (delivers : Str → List UInt8 → Prop) (databaseType : Str) (b : List UInt8) : Prop :=
  ∀ b', delivers databaseType b' → b' ≠ b → sentValue databaseType b' ≠ sentValue databaseType b

/-! ## Base64 -/

/-- The number of a digit of base64. -/
def base64Value (r : Rune) : ℕ := (List.range 64).findIdx fun n => base64Digit n = r

theorem base64Value_digit {n : ℕ} (hn : n < 64) : base64Value (base64Digit n) = n := by
  have hall : ∀ n < 64, base64Value (base64Digit n) = n := by decide +kernel
  exact hall n hn

theorem base64Digit_ne_pad {n : ℕ} (hn : n < 64) : base64Digit n ≠ .char '=' := by
  have hall : ∀ n < 64, base64Digit n ≠ .char '=' := by decide
  exact hall n hn

/-- Reads the bytes of a base64 text. -/
def readBase64 : Str → List UInt8
  | p :: q :: r :: s :: rest =>
      let first := UInt8.ofNat (base64Value p * 4 + base64Value q / 16)
      let second := UInt8.ofNat (base64Value q % 16 * 16 + base64Value r / 4)
      let third := UInt8.ofNat (base64Value r % 4 * 64 + base64Value s)
      if r = .char '=' then [first]
      else if s = .char '=' then [first, second]
      else first :: second :: third :: readBase64 rest
  | _ => []

/-- Bytes are read back from their base64 text. -/
theorem readBase64_base64 (bytes : List UInt8) : readBase64 (base64 bytes) = bytes := by
  fun_induction base64 bytes with
  | case1 => rfl
  | case2 a =>
      have ha := a.toNat_lt
      have hfirst : a.toNat / 4 * 4 + a.toNat % 4 * 16 / 16 = a.toNat := by omega
      rw [readBase64, if_pos rfl, base64Value_digit (by omega), base64Value_digit (by omega), hfirst,
        UInt8.ofNat_toNat]
  | case3 a b =>
      have ha := a.toNat_lt
      have hb := b.toNat_lt
      have hfirst : a.toNat / 4 * 4 + (a.toNat % 4 * 16 + b.toNat / 16) / 16 = a.toNat := by omega
      have hsecond : (a.toNat % 4 * 16 + b.toNat / 16) % 16 * 16 + b.toNat % 16 * 4 / 4 = b.toNat := by
        omega
      rw [readBase64, if_neg (base64Digit_ne_pad (by omega)), if_pos rfl, base64Value_digit (by omega),
        base64Value_digit (by omega), base64Value_digit (by omega), hfirst, hsecond,
        UInt8.ofNat_toNat, UInt8.ofNat_toNat]
  | case4 a b c rest ih =>
      have ha := a.toNat_lt
      have hb := b.toNat_lt
      have hc := c.toNat_lt
      have hfirst : a.toNat / 4 * 4 + (a.toNat % 4 * 16 + b.toNat / 16) / 16 = a.toNat := by omega
      have hsecond : (a.toNat % 4 * 16 + b.toNat / 16) % 16 * 16 +
          (b.toNat % 16 * 4 + c.toNat / 64) / 4 = b.toNat := by omega
      have hthird : (b.toNat % 16 * 4 + c.toNat / 64) % 4 * 64 + c.toNat % 64 = c.toNat := by omega
      rw [readBase64, if_neg (base64Digit_ne_pad (by omega)), if_neg (base64Digit_ne_pad (by omega)),
        base64Value_digit (by omega), base64Value_digit (by omega), base64Value_digit (by omega),
        base64Value_digit (by omega), hfirst, hsecond, hthird, UInt8.ofNat_toNat, UInt8.ofNat_toNat,
        UInt8.ofNat_toNat, ih]

theorem base64_injective : Function.Injective base64 :=
  Function.LeftInverse.injective readBase64_base64

/-! ## What is sent -/

variable {delivers : Str → List UInt8 → Prop} {t : Str} {b b' : List UInt8}

/-- The text of bytes, with its stray bytes replaced. -/
theorem sentValue_eq (t : Str) (b : List UInt8) :
    sentValue t b = some (.str (if inBase64 t then base64 b else (Str.ofBytes b).repair)) := by
  have hjson : (toJSON (.bytes b) t).json =
      .str (if inBase64 t then base64 b else Str.ofBytes b) := by
    rw [toJSON, ← inBase64]
    split_ifs <;> rfl
  have hwell : (Json.str (if inBase64 t then base64 b else Str.ofBytes b)).WellFormed := trivial
  rw [sentValue, hjson, parse_encode hwell, Json.repair]
  split_ifs
  · rw [Str.repair_eq_self_iff.mpr (valid_base64 b)]
  · rfl

theorem sentValue_eq_iff : sentValue t b' = sentValue t b ↔
    if inBase64 t then b' = b else (Str.ofBytes b').repair = (Str.ofBytes b).repair := by
  rw [sentValue_eq, sentValue_eq, Option.some_inj, Json.str.injEq]
  split_ifs
  · exact base64_injective.eq_iff
  · rfl

theorem valid_of_ascii (h : ∀ x ∈ b, x < 0x80) : (Str.ofBytes b).Valid := by
  rw [ofBytes_ascii h]
  intro r hr
  obtain ⟨x, -, rfl⟩ := List.mem_map.mp hr
  rfl

/-- A value that the driver delivers can be told from every other exactly if it is put in base64 or is
valid UTF-8. -/
theorem determined_iff (hdriver : DriverDocumented delivers) (hb : delivers t b) :
    Determined delivers t b ↔ inBase64 t = true ∨ (Str.ofBytes b).Valid := by
  constructor
  · intro h
    by_contra hnot
    push Not at hnot
    obtain ⟨hplain, hinvalid⟩ := hnot
    rw [Ne, Bool.not_eq_true] at hplain
    have huuid : t.toUpper = uniqueIdentifier := by
      by_contra hother
      exact hinvalid (valid_of_ascii (hdriver.ascii t hother hplain b hb))
    -- another UUID with the same text
    obtain ⟨b', hne, hlength, hrepair⟩ := exists_same_repair hinvalid
    have hdelivered : delivers t b' :=
      (hdriver.uuid t huuid b').mpr (hlength.trans ((hdriver.uuid t huuid b).mp hb))
    refine h b' hdelivered hne (sentValue_eq_iff.mpr ?_)
    rwa [hplain, if_neg Bool.false_ne_true]
  · rintro h b' hb' hne heq
    rw [sentValue_eq_iff] at heq
    split_ifs at heq with hbase
    · exact hne heq
    · have hvalid := h.resolve_left hbase
      by_cases huuid : t.toUpper = uniqueIdentifier
      · have hlength : b'.length = b.length :=
          ((hdriver.uuid t huuid b').mp hb').trans ((hdriver.uuid t huuid b).mp hb).symm
        exact hne (eq_of_same_repair hvalid hlength heq)
      · have hvalid' := valid_of_ascii
          (hdriver.ascii t huuid (Bool.not_eq_true _ ▸ hbase) b' hb')
        rw [Str.repair_eq_self_iff.mpr hvalid, Str.repair_eq_self_iff.mpr hvalid'] at heq
        exact hne (ofBytes_injective heq)

/-! ## Two UUIDs -/

/-- A driver as it is documented. -/
def plainDriver (t : Str) (b : List UInt8) : Prop :=
  if t.toUpper = uniqueIdentifier then b.length = 16
  else inBase64 t = true ∨ ∀ x ∈ b, x < 0x80

theorem documented_plainDriver : DriverDocumented plainDriver where
  uuid := by
    intro t ht b
    rw [plainDriver, if_pos ht]
  ascii := by
    intro t ht hplain b hb
    rw [plainDriver, if_neg ht, hplain] at hb
    exact hb.resolve_left Bool.false_ne_true

/-- The UUID whose bytes spell a text, and two that differ in a byte that is not UTF-8. -/
def textUuid : List UInt8 := List.replicate 16 0x41
def someUuid : List UInt8 := 0xE9 :: List.replicate 15 0x41
def otherUuid : List UInt8 := 0xE8 :: List.replicate 15 0x41

theorem determined_iff_textUuid : Determined plainDriver uniqueIdentifier textUuid ↔
    inBase64 uniqueIdentifier = true ∨ (Str.ofBytes textUuid).Valid :=
  determined_iff documented_plainDriver (by
    rw [plainDriver, if_pos (by decide)]
    rfl)

/-- The values of the two UUIDs are the same. -/
theorem not_determined_someUuid : plainDriver uniqueIdentifier someUuid ∧
    plainDriver uniqueIdentifier otherUuid ∧ otherUuid ≠ someUuid ∧
      sentValue uniqueIdentifier otherUuid = sentValue uniqueIdentifier someUuid ∧
        ¬ Determined plainDriver uniqueIdentifier someUuid := by
  have hupper : uniqueIdentifier.toUpper = uniqueIdentifier := by decide
  have hsome : plainDriver uniqueIdentifier someUuid := by
    rw [plainDriver, if_pos hupper]
    rfl
  have hother : plainDriver uniqueIdentifier otherUuid := by
    rw [plainDriver, if_pos hupper]
    rfl
  have hne : otherUuid ≠ someUuid := by decide
  have hsame : sentValue uniqueIdentifier otherUuid = sentValue uniqueIdentifier someUuid := by
    have hplain : inBase64 uniqueIdentifier = false := by decide
    rw [sentValue_eq_iff, hplain, if_neg Bool.false_ne_true]
    decide
  exact ⟨hsome, hother, hne, hsame, fun h => h otherUuid hother hne hsame⟩

end WeighingSync.Uploader
