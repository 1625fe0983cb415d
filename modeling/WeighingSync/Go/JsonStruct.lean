import WeighingSync.Common.AllOrNothing
import WeighingSync.Go.JsonDecode

/-!
# Decoding into Go types

How `encoding/json` fills the fields of a struct: names match whatever their letter case, the last
field of a name counts, `null` and an absent field leave the zero value, and a value of another type
is an error. A decoder returns `none` for that error.
-/

namespace WeighingSync.Go

namespace Json

/-- Case folding, as far as it can reach an ASCII letter. -/
def foldRune : Rune → Rune
  | .char c =>
      if c = '\u017f' then .char 's' else if c = '\u212a' then .char 'k' else .char c.toLower
  | .byte b => .byte b

/-- The name of a JSON field names the field of a struct. -/
def namesField (name key : Str) : Bool := key.map foldRune = name.map foldRune

/-- What an object gives for the field of a struct: the last member of the name. `encoding/json` decodes all
of them, one over the other. -/
def structField (fields : List (Str × Json)) (name : Str) : Option Json :=
  (fields.findRev? fun f => namesField name f.1).map Prod.snd

/-- The fields of an object; `null` leaves a struct or a map as it was. -/
def decodeObject : Json → Option (List (Str × Json))
  | .null => some []
  | .obj fields => some fields
  | _ => none

/-- A field of type `string`. -/
def decodeString : Option Json → Option Str
  | none => some []
  | some .null => some []
  | some (.str s) => some s
  | some _ => none

/-- A field of type `[]T`, given how one element is decoded. -/
def decodeSlice {α : Type*} (element : Json → Option α) : Option Json → Option (List α)
  | none => some []
  | some .null => some []
  | some (.arr xs) => xs.mapM element
  | some _ => none

/-- A field of type `[]string`. -/
def decodeStrings (j : Option Json) : Option (List Str) :=
  decodeSlice (fun x => decodeString (some x)) j

/-- A field of type `[]map[string]any`. -/
def decodeMaps (j : Option Json) : Option (List (List (Str × Json))) :=
  decodeSlice decodeObject j

/-- A field of an integer type: a literal that is a 64-bit integer. -/
def decodeInt64 : Option Json → Option ℤ
  | none => some 0
  | some .null => some 0
  | some (.num literal) => atoi literal
  | some _ => none

/-- A list of strings decodes to itself. -/
theorem decodeStrings_arr (xs : List Str) : decodeStrings (some (.arr (xs.map .str))) = some xs := by
  rw [decodeStrings, decodeSlice, List.mapM_map]
  have h := mapM_some_of_forall (f := (fun x => decodeString (some x)) ∘ str) (g := id)
    fun x (_ : x ∈ xs) => rfl
  rwa [List.map_id] at h

/-- A list of objects decodes to their fields. -/
theorem decodeMaps_arr (xs : List (List (Str × Json))) :
    decodeMaps (some (.arr (xs.map .obj))) = some xs := by
  rw [decodeMaps, decodeSlice, List.mapM_map]
  have h := mapM_some_of_forall (f := decodeObject ∘ obj) (g := id)
    fun x (_ : x ∈ xs) => rfl
  rwa [List.map_id] at h

end Json

end WeighingSync.Go
