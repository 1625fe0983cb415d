import WeighingSync.Go.JsonRoundTrip
import WeighingSync.Go.JsonValue

/-!
# What a decoder reads

What holds of every value that is built of JSON numbers and of strings without undecodable bytes holds
of whatever the decoder reads (`forall_read`). Such a value comes back from its text, and so does the map
that Go makes of it.
-/

namespace WeighingSync.Go

/-- A rule of induction over what the decoder reads. -/
theorem forall_read {P : Json → Prop} (null : P .null) (bool : ∀ b, P (.bool b))
    (num : ∀ literal, (Json.num literal).WellFormed → P (.num literal))
    (str : ∀ s : Str, s.Valid → P (.str s)) (arr : ∀ xs, (∀ x ∈ xs, P x) → P (.arr xs))
    (obj : ∀ fields, (∀ f ∈ fields, f.1.Valid ∧ P f.2) → P (.obj fields)) (n : ℕ) :
    (∀ s j rest, value n s = some (j, rest) → P j) ∧
    (∀ s fields rest, members n s = some (fields, rest) → ∀ f ∈ fields, f.1.Valid ∧ P f.2) ∧
    (∀ s xs rest, elements n s = some (xs, rest) → ∀ x ∈ xs, P x) := by
  have hword : ∀ {w s rest : Str} {j j' : Json}, P j → word w j s = some (j', rest) → P j' := by
    intro w s rest j j' hj h
    unfold word at h
    split_ifs at h
    cases h
    exact hj
  have hnumber : ∀ {s rest : Str} {j : Json}, number s = some (j, rest) → P j := by
    intro s rest j h
    simp only [number] at h
    split_ifs at h with hvalid
    cases h
    exact num _ ⟨hvalid, fun r hr => List.mem_takeWhile_imp hr⟩
  -- the three parsers call each other with less fuel
  induction n with
  | zero =>
      refine ⟨fun s j rest h => ?_, fun s fields rest h => ?_, fun s xs rest h => ?_⟩
      all_goals cases h
  | succ n ih =>
      obtain ⟨ihvalue, ihmembers, ihelements⟩ := ih
      refine ⟨?_, ?_, ?_⟩
      · intro s j rest h
        simp only [value] at h
        split at h
        · cases h
        · split_ifs at h
          · split at h
            · cases h
              exact obj [] (List.forall_mem_nil _)
            · obtain ⟨⟨fields, rest'⟩, hfields, heq⟩ := Option.map_eq_some_iff.mp h
              cases heq
              exact obj fields (ihmembers _ _ _ hfields)
          · split at h
            · cases h
              exact arr [] (List.forall_mem_nil _)
            · obtain ⟨⟨xs, rest'⟩, hxs, heq⟩ := Option.map_eq_some_iff.mp h
              cases heq
              exact arr xs (ihelements _ _ _ hxs)
          · obtain ⟨⟨text, rest'⟩, htext, heq⟩ := Option.map_eq_some_iff.mp h
            cases heq
            exact str text (valid_unquote htext)
          · exact hword (bool true) h
          · exact hword (bool false) h
          · exact hword null h
          · exact hnumber h
      · intro s fields rest h
        obtain ⟨s₁, key, s₂, s₃, x, s₄, -, hkey, -, hx, hend⟩ := members_cases h
        have hfield : key.Valid ∧ P x := ⟨valid_unquote hkey, ihvalue _ _ _ hx⟩
        rcases hend with ⟨-, rfl⟩ | ⟨s₅, more, -, -, hmore, rfl⟩
        · exact List.forall_mem_singleton.mpr hfield
        · exact List.forall_mem_cons.mpr ⟨hfield, ihmembers _ _ _ hmore⟩
      · intro s xs rest h
        obtain ⟨x, s₁, hx, hend⟩ := elements_cases h
        rcases hend with ⟨-, rfl⟩ | ⟨s₂, more, -, -, hmore, rfl⟩
        · exact List.forall_mem_singleton.mpr (ihvalue _ _ _ hx)
        · exact List.forall_mem_cons.mpr ⟨ihvalue _ _ _ hx, ihelements _ _ _ hmore⟩

namespace Json

/-- A value as the decoder reads one: its numbers are JSON numbers, and nothing in its strings and names
is undecodable. -/
structure Parsed (j : Json) : Prop where
  wellFormed : j.WellFormed
  valid : j.repair = j

theorem parsed_arr {xs : List Json} (h : ∀ x ∈ xs, x.Parsed) : (arr xs).Parsed where
  wellFormed := wellFormed_arr.mpr fun x hx => (h x hx).wellFormed
  valid := repair_arr_eq_self_iff.mpr fun x hx => (h x hx).valid

theorem parsed_obj_iff {fields : List (Str × Json)} :
    (obj fields).Parsed ↔ ∀ f ∈ fields, f.1.Valid ∧ f.2.Parsed := by
  constructor
  · intro h f hf
    obtain ⟨hname, hvalue⟩ := repair_obj_eq_self_iff.mp h.valid f hf
    exact ⟨Str.repair_eq_self_iff.mp hname, wellFormed_obj.mp h.wellFormed f hf, hvalue⟩
  · intro h
    exact ⟨wellFormed_obj.mpr fun f hf => (h f hf).2.wellFormed,
      repair_obj_eq_self_iff.mpr fun f hf => ⟨Str.repair_eq_self_iff.mpr (h f hf).1, (h f hf).2.valid⟩⟩

/-- The decoder reads such values only. -/
theorem parsed_of_value {n : ℕ} {s rest : Str} {j : Json} (h : value n s = some (j, rest)) : j.Parsed :=
  (forall_read (P := Parsed) ⟨trivial, rfl⟩ (fun _ => ⟨trivial, rfl⟩) (fun _ hnum => ⟨hnum, rfl⟩)
    (fun _ hs => ⟨trivial, congrArg str (Str.repair_eq_self_iff.mpr hs)⟩) (fun _ => parsed_arr)
    (fun _ => parsed_obj_iff.mpr) n).1 s j rest h

theorem parsed_of_parseFirst {s : Str} {j : Json} (h : parseFirst s = some j) : j.Parsed := by
  obtain ⟨⟨j', rest⟩, hvalue, rfl⟩ := Option.map_eq_some_iff.mp h
  exact parsed_of_value hvalue

/-- A value remains well formed as a map. -/
theorem wellFormed_canonical {j : Json} (h : j.WellFormed) : j.canonical.WellFormed := by
  induction j using Json.induct with
  | null | bool | num | str => exact h
  | arr xs ih =>
      rw [canonical, canonicalElements_eq, wellFormed_arr]
      intro x hx
      obtain ⟨y, hy, rfl⟩ := List.mem_map.mp hx
      exact ih y hy (wellFormed_arr.mp h y hy)
  | obj fields ih =>
      -- the members of the map are some of those of the object
      rw [canonical_obj, wellFormed_obj]
      intro g hg
      obtain ⟨g', hg', rfl⟩ := mem_of_mem_canonicalMembers hg
      exact ih g' hg' (wellFormed_obj.mp h g' hg')

theorem Parsed.canonical {j : Json} (h : j.Parsed) : j.canonical.Parsed :=
  ⟨wellFormed_canonical h.wellFormed, repair_canonical h.valid⟩

/-- What the decoder reads comes back from its text. -/
theorem Parsed.parse_encode {j : Json} (h : j.Parsed) : parse j.encode = some j := by
  rw [Go.parse_encode h.wellFormed, h.valid]

/-- A map is a map already. -/
theorem canonical_canonical (j : Json) : j.canonical.canonical = j.canonical :=
  (isCanonical_canonical j).canonical_eq

end Json

end WeighingSync.Go
