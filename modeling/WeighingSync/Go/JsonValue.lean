import WeighingSync.Go.JsonCut
import WeighingSync.Go.Float
import WeighingSync.Go.JsonNumbers
import WeighingSync.Go.Order

/-!
# What a JSON text denotes

`Json.denote` is the value of a JSON text as the decoder of `encoding/json` holds it: an object is a
map from names to values, and a number is a number. The decoder replaces undecodable bytes
(`repair_of_parse`), and what it makes of a text stays what it is on a second trip
(`isCanonical_canonical`). Other numbers in a value leave what it denotes alone exactly if they have
the same values (`denote_mapNumbers_iff`).
-/

namespace WeighingSync.Go

/-! ## What the decoder returns -/

theorem valid_flush (high : Option ℕ) : (Scan.flush high).Valid := by
  cases high with
  | none => exact fun r hr => absurd hr List.not_mem_nil
  | some h => exact List.forall_mem_singleton.mpr rfl

theorem valid_emit (high : Option ℕ) (code : ℕ) : (Scan.emit high code).1.Valid := by
  unfold Scan.emit
  split_ifs
  · cases high <;> exact List.forall_mem_singleton.mpr rfl
  · exact valid_flush high
  · exact Str.valid_append.mpr ⟨valid_flush high, List.forall_mem_singleton.mpr rfl⟩

theorem repair_unescape {r c : Rune} (h : Scan.unescape r = some c) : c.repair = c := by
  unfold Scan.unescape at h
  split at h
  all_goals first | cases h; rfl | cases h

/-- The scanner of a string writes decodable text. -/
theorem valid_step {scan next : Scan} {r : Rune} {out : Str}
    (h : Scan.step scan r = some (out, next)) : out.Valid := by
  cases scan with
  | plain high =>
      simp only [Scan.step] at h
      split_ifs at h
      · cases h
        exact valid_flush none
      · cases h
        refine Str.valid_append.mpr ⟨valid_flush high, List.forall_mem_singleton.mpr ?_⟩
        cases r <;> rfl
  | escape high =>
      simp only [Scan.step] at h
      split_ifs at h
      · cases h
        exact valid_flush none
      · obtain ⟨c, hc, heq⟩ := Option.map_eq_some_iff.mp h
        cases heq
        exact Str.valid_append.mpr ⟨valid_flush high,
          List.forall_mem_singleton.mpr (repair_unescape hc)⟩
  | hex high left acc =>
      obtain ⟨d, -, heq⟩ := Option.map_eq_some_iff.mp h
      split_ifs at heq
      · have hout : (Scan.emit high (16 * acc + d)).1 = out := congrArg Prod.fst heq
        exact hout ▸ valid_emit high _
      · cases heq
        exact valid_flush none

theorem valid_unquote {scan : Scan} {s text rest : Str} (h : unquote scan s = some (text, rest)) :
    text.Valid := by
  induction s generalizing scan text with
  | nil => simp [unquote] at h
  | cons r s ih =>
      have hstep : ∀ {scan' : Scan} {text' : Str},
          ((Scan.step scan' r).bind fun p => (unquote p.2 s).map fun u => (p.1 ++ u.1, u.2)) =
            some (text', rest) → text'.Valid := by
        intro scan' text' hs
        obtain ⟨⟨out, next⟩, hout, hrest⟩ := Option.bind_eq_some_iff.mp hs
        obtain ⟨⟨u, rest'⟩, hu, heq⟩ := Option.map_eq_some_iff.mp hrest
        cases heq
        exact Str.valid_append.mpr ⟨valid_step hout, ih hu⟩
      cases scan with
      | plain high =>
          simp only [unquote] at h
          split at h
          · cases h
            exact valid_flush high
          · exact hstep h
      | escape high => exact hstep h
      | hex high left acc => exact hstep h

theorem repair_scalar {w s rest : Str} {j j' : Json} (hj : j.repair = j)
    (h : word w j s = some (j', rest)) : j'.repair = j' := by
  unfold word at h
  split_ifs at h
  cases h
  exact hj

theorem repair_number {s rest : Str} {j : Json} (h : number s = some (j, rest)) : j.repair = j := by
  simp only [number] at h
  split_ifs at h
  cases h
  rfl

/-- The decoder leaves nothing undecodable in the strings and the names of a value. -/
theorem repair_read (n : ℕ) :
    (∀ s j rest, value n s = some (j, rest) → j.repair = j) ∧
    (∀ s fields rest, members n s = some (fields, rest) → (Json.obj fields).repair = .obj fields) ∧
    (∀ s xs rest, elements n s = some (xs, rest) → (Json.arr xs).repair = .arr xs) := by
  induction n with
  | zero =>
      refine ⟨fun s j rest h => ?_, fun s fields rest h => ?_, fun s xs rest h => ?_⟩
      all_goals cases h
  | succ n ih =>
      obtain ⟨ihvalue, ihmembers, ihelements⟩ := ih
      refine ⟨?_, ?_, ?_⟩
      · intro s j rest h
        simp only [value] at h
        split at h
        · cases h
        · split_ifs at h
          · split at h
            · cases h
              rfl
            · obtain ⟨⟨fields, rest'⟩, hfields, heq⟩ := Option.map_eq_some_iff.mp h
              cases heq
              exact ihmembers _ _ _ hfields
          · split at h
            · cases h
              rfl
            · obtain ⟨⟨xs, rest'⟩, hxs, heq⟩ := Option.map_eq_some_iff.mp h
              cases heq
              exact ihelements _ _ _ hxs
          · obtain ⟨⟨text, rest'⟩, htext, heq⟩ := Option.map_eq_some_iff.mp h
            cases heq
            exact congrArg Json.str (Str.repair_eq_self_iff.mpr (valid_unquote htext))
          · exact repair_scalar rfl h
          · exact repair_scalar rfl h
          · exact repair_scalar rfl h
          · exact repair_number h
      · intro s fields rest h
        obtain ⟨s₁, key, s₂, s₃, x, s₄, -, hkey, -, hx, hend⟩ := members_cases h
        have hfield : (key.repair, x.repair) = (key, x) := by
          rw [Str.repair_eq_self_iff.mpr (valid_unquote hkey), ihvalue _ _ _ hx]
        rcases hend with ⟨-, rfl⟩ | ⟨s₅, more, -, -, hmore, rfl⟩
        · rw [Json.repair_obj, List.map_singleton, hfield]
        · have hrest := ihmembers _ _ _ hmore
          rw [Json.repair_obj, Json.obj.injEq] at hrest ⊢
          rw [List.map_cons, hfield, hrest]
      · intro s xs rest h
        obtain ⟨x, s₁, hx, hend⟩ := elements_cases h
        rcases hend with ⟨-, rfl⟩ | ⟨s₂, more, -, -, hmore, rfl⟩
        · rw [Json.repair_arr, List.map_singleton, ihvalue _ _ _ hx]
        · have hrest := ihelements _ _ _ hmore
          rw [Json.repair_arr, Json.arr.injEq] at hrest ⊢
          rw [List.map_cons, ihvalue _ _ _ hx, hrest]

theorem repair_of_parse {s : Str} {j : Json} (h : parse s = some j) : j.repair = j := by
  obtain ⟨⟨j', rest⟩, hvalue, hrest⟩ := Option.bind_eq_some_iff.mp h
  simp only at hrest
  split_ifs at hrest
  cases hrest
  exact (repair_read _).1 _ _ _ hvalue

/-! ## Objects as maps -/

namespace Json

theorem repair_arr_eq_self_iff {xs : List Json} :
    (arr xs).repair = arr xs ↔ ∀ x ∈ xs, x.repair = x := by
  rw [repair_arr, arr.injEq]
  conv_lhs => rhs; rw [← List.map_id xs]
  exact List.map_inj_left

theorem repair_obj_eq_self_iff {fields : List (Str × Json)} :
    (obj fields).repair = obj fields ↔ ∀ f ∈ fields, f.1.repair = f.1 ∧ f.2.repair = f.2 := by
  rw [repair_obj, obj.injEq]
  conv_lhs => rhs; rw [← List.map_id fields]
  rw [List.map_inj_left]
  simp only [id_eq, Prod.ext_iff]

theorem lookup_cons (f : Str × Json) (fields : List (Str × Json)) (key : Str) :
    lookup (f :: fields) key = (lookup fields key).or (if f.1 = key then some f.2 else none) := by
  rw [lookup, lookup, List.findRev?_eq_find?_reverse, List.findRev?_eq_find?_reverse,
    List.reverse_cons, List.find?_append]
  by_cases h : f.1 = key <;> simp [h]

theorem isSome_lookup {fields : List (Str × Json)} {key : Str} :
    (lookup fields key).isSome = true ↔ ∃ f ∈ fields, f.1 = key := by
  rw [lookup, List.findRev?_eq_find?_reverse, Option.isSome_map, List.find?_isSome]
  simp

theorem canonicalElements_eq (xs : List Json) : canonicalElements xs = xs.map canonical := by
  induction xs with
  | nil => rfl
  | cons x xs ih => rw [canonicalElements, ih, List.map_cons]

theorem canonicalFields_eq (fields : List (Str × Json)) :
    canonicalFields fields = fields.map fun f => (f.1, f.2.canonical) := by
  induction fields with
  | nil => rfl
  | cons f fields ih => rw [canonicalFields, ih, List.map_cons]

/-- Every object in the value has each name once, and its names in order. -/
inductive IsCanonical : Json → Prop
  | null : IsCanonical .null
  | bool (b : Bool) : IsCanonical (.bool b)
  | num (literal : Str) : IsCanonical (.num literal)
  | str (s : Str) : IsCanonical (.str s)
  | arr {xs : List Json} (elements : ∀ x ∈ xs, IsCanonical x) : IsCanonical (.arr xs)
  | obj {fields : List (Str × Json)} (sorted : fields.Pairwise fun f g => Str.lt f.1 g.1 = true)
      (members : ∀ f ∈ fields, IsCanonical f.2) : IsCanonical (.obj fields)

theorem toMap_sublist (fields : List (Str × Json)) : (toMap fields).Sublist fields := by
  induction fields with
  | nil => exact List.Sublist.slnil
  | cons f fields ih =>
      rw [toMap]
      split_ifs
      · exact ih.trans (List.sublist_cons_self f fields)
      · exact ih.cons_cons f

theorem nodup_toMap (fields : List (Str × Json)) : ((toMap fields).map Prod.fst).Nodup := by
  induction fields with
  | nil => exact List.nodup_nil
  | cons f fields ih =>
      rw [toMap]
      split_ifs with hmem
      · exact ih
      · rw [List.map_cons, List.nodup_cons]
        refine ⟨?_, ih⟩
        rintro hname
        obtain ⟨g, hg, heq⟩ := List.mem_map.mp hname
        refine hmem (List.any_eq_true.mpr ⟨g, (toMap_sublist fields).subset hg, ?_⟩)
        exact decide_eq_true heq

theorem fieldLE_of_lt {f g : Str × Json} (h : Str.lt f.1 g.1 = true) : fieldLE f g := Str.lt_asymm h

theorem fieldLE_total (f g : Str × Json) : fieldLE f g ∨ fieldLE g f := by
  rcases Str.lt_trichotomy f.1 g.1 with h | h | h
  · exact Or.inl (fieldLE_of_lt h)
  · refine Or.inl ?_
    rw [fieldLE, h, Str.lt_self]
  · exact Or.inr (fieldLE_of_lt h)

theorem fieldLE_trans {f g k : Str × Json} (hfg : fieldLE f g) (hgk : fieldLE g k) : fieldLE f k := by
  rcases Str.lt_trichotomy f.1 k.1 with h | h | h
  · exact fieldLE_of_lt h
  · rw [fieldLE, h, Str.lt_self]
  · -- the name in the middle would be before the first or after the last
    rcases Str.lt_trichotomy g.1 f.1 with hg | hg | hg
    · rw [fieldLE, hg] at hfg
      cases hfg
    · rw [fieldLE, hg, h] at hgk
      cases hgk
    · rw [fieldLE, Str.lt_trans h hg] at hgk
      cases hgk

/-- Of the fields with one name, the last stays. -/
theorem lookup_toMap (fields : List (Str × Json)) (key : Str) :
    lookup (toMap fields) key = lookup fields key := by
  induction fields with
  | nil => rfl
  | cons f fields ih =>
      by_cases hmem : (fields.any fun g => g.1 = f.1) = true
      · rw [toMap, if_pos hmem, ih, lookup_cons]
        split_ifs with hname
        · obtain ⟨g, hg, hgf⟩ := List.any_eq_true.mp hmem
          have hsome := isSome_lookup.mpr ⟨g, hg, (of_decide_eq_true hgf).trans hname⟩
          rw [Option.or_of_isSome hsome]
        · rw [Option.or_none]
      · rw [toMap, if_neg hmem, lookup_cons, lookup_cons, ih]

theorem lookup_map (g : Json → Json) (fields : List (Str × Json)) (key : Str) :
    lookup (fields.map fun f => (f.1, g f.2)) key = (lookup fields key).map g := by
  induction fields with
  | nil => rfl
  | cons f fields ih =>
      rw [List.map_cons, lookup_cons, lookup_cons, ih]
      cases lookup fields key with
      | some x => rfl
      | none => split_ifs <;> rfl

instance : Std.Total fieldLE := ⟨fieldLE_total⟩

instance : IsTrans (Str × Json) fieldLE := ⟨fun _ _ _ => fieldLE_trans⟩

/-- The fields of a Go map are written with each name once, in order. -/
theorem pairwise_ofMap {fields : List (Str × Json)} (h : (fields.map Prod.fst).Nodup) :
    (fields.insertionSort fieldLE).Pairwise fun f g => Str.lt f.1 g.1 = true := by
  have hperm := List.perm_insertionSort fieldLE fields
  have hne := List.pairwise_map.mp ((hperm.map Prod.fst).nodup_iff.mpr h)
  refine ((List.pairwise_insertionSort fieldLE fields).and hne).imp ?_
  rintro f g ⟨hle, hne⟩
  rcases Str.lt_trichotomy f.1 g.1 with h | h | h
  · exact h
  · exact absurd h hne
  · rw [fieldLE, h] at hle
    cases hle

/-- The fields of an object as a Go map writes them. -/
def canonicalMembers (fields : List (Str × Json)) : List (Str × Json) :=
  (toMap (fields.map fun f => (f.1, f.2.canonical))).insertionSort fieldLE

theorem canonical_obj (fields : List (Str × Json)) :
    canonical (.obj fields) = .obj (canonicalMembers fields) := by
  rw [canonical, canonicalFields_eq, ofMap, canonicalMembers]

theorem mem_of_mem_canonicalMembers {fields : List (Str × Json)} {f : Str × Json}
    (h : f ∈ canonicalMembers fields) : ∃ g ∈ fields, (g.1, g.2.canonical) = f :=
  List.mem_map.mp ((toMap_sublist _).subset ((List.perm_insertionSort fieldLE _).mem_iff.mp h))

theorem pairwise_canonicalMembers (fields : List (Str × Json)) :
    (canonicalMembers fields).Pairwise fun f g => Str.lt f.1 g.1 = true :=
  pairwise_ofMap (nodup_toMap _)

theorem nodup_of_pairwise_lt {fields : List (Str × Json)}
    (h : fields.Pairwise fun f g => Str.lt f.1 g.1 = true) : (fields.map Prod.fst).Nodup := by
  refine List.pairwise_map.mpr (h.imp ?_)
  intro f g hlt heq
  rw [heq, Str.lt_self] at hlt
  cases hlt

theorem lookup_canonicalMembers (fields : List (Str × Json)) (key : Str) :
    lookup (canonicalMembers fields) key = (lookup fields key).map canonical := by
  rw [← lookup_map, ← lookup_toMap (fields.map _)]
  ext x
  rw [lookup_eq_some_iff (nodup_of_pairwise_lt (pairwise_canonicalMembers fields)),
    lookup_eq_some_iff (nodup_toMap _)]
  exact (List.perm_insertionSort fieldLE _).mem_iff

theorem isCanonical_canonical (j : Json) : j.canonical.IsCanonical := by
  induction j using Json.induct with
  | null => exact .null
  | bool b => exact .bool b
  | num literal => exact .num literal
  | str s => exact .str s
  | arr xs ih =>
      rw [canonical, canonicalElements_eq]
      refine .arr fun x hx => ?_
      obtain ⟨y, hy, rfl⟩ := List.mem_map.mp hx
      exact ih y hy
  | obj fields ih =>
      rw [canonical_obj]
      refine .obj (pairwise_canonicalMembers fields) fun f hf => ?_
      obtain ⟨g, hg, rfl⟩ := mem_of_mem_canonicalMembers hf
      exact ih g hg

theorem IsCanonical.canonical_eq {j : Json} (h : j.IsCanonical) : j.canonical = j := by
  induction h with
  | null | bool | num | str => rfl
  | arr _ ih =>
      rw [canonical, canonicalElements_eq, List.map_congr_left ih, List.map_id']
  | @obj fields sorted _ ih =>
      have hsame : fields.map (fun f => (f.1, f.2.canonical)) = fields :=
        (List.map_congr_left fun f hf => by rw [ih f hf]).trans (List.map_id' fields)
      rw [canonical_obj, canonicalMembers, hsame, toMap_of_nodup (nodup_of_pairwise_lt sorted),
        List.Pairwise.insertionSort_eq (sorted.imp fieldLE_of_lt)]

theorem repair_canonical {j : Json} (h : j.repair = j) : j.canonical.repair = j.canonical := by
  induction j using Json.induct with
  | null | bool | num | str => exact h
  | arr xs ih =>
      rw [canonical, canonicalElements_eq, repair_arr_eq_self_iff]
      intro x hx
      obtain ⟨y, hy, rfl⟩ := List.mem_map.mp hx
      exact ih y hy (repair_arr_eq_self_iff.mp h y hy)
  | obj fields ih =>
      rw [canonical_obj, repair_obj_eq_self_iff]
      intro f hf
      obtain ⟨g, hg, rfl⟩ := mem_of_mem_canonicalMembers hf
      obtain ⟨hname, hvalue⟩ := repair_obj_eq_self_iff.mp h g hg
      exact ⟨hname, ih g hg hvalue⟩

theorem names_of_forall₂ {f : Str → Option Str} {fields fields' : List (Str × Json)}
    (h : List.Forall₂ (fun g g' => g'.1 = g.1 ∧ mapNumbers f g.2 = some g'.2) fields fields') :
    fields'.map Prod.fst = fields.map Prod.fst := by
  induction h with
  | nil => rfl
  | cons hg _ ih => rw [List.map_cons, List.map_cons, ih, hg.1]

/-- Two lists related entry by entry have the same images exactly if every entry has. -/
theorem map_eq_map_iff_of_forall₂ {α β γ : Type*} {R : α → β → Prop} {g : α → γ} {g' : β → γ}
    {p : α → Prop} {xs : List α} {ys : List β} (h : List.Forall₂ R xs ys)
    (hR : ∀ x ∈ xs, ∀ y, R x y → (g' y = g x ↔ p x)) : ys.map g' = xs.map g ↔ ∀ x ∈ xs, p x := by
  induction h with
  | nil => simp
  | cons hxy _ ih =>
      rw [List.forall_mem_cons] at hR
      rw [List.map_cons, List.map_cons, List.cons.injEq, List.forall_mem_cons, hR.1 _ hxy, ih hR.2]

/-- Other numbers leave the names alone. -/
theorem IsCanonical.mapNumbers {f : Str → Option Str} {j j' : Json} (h : j.IsCanonical)
    (hmap : j.mapNumbers f = some j') : j'.IsCanonical := by
  induction h generalizing j' with
  | null | bool | str =>
      cases hmap
      constructor
  | num literal =>
      obtain ⟨t, -, rfl⟩ := Option.map_eq_some_iff.mp hmap
      exact .num t
  | arr _ ih =>
      obtain ⟨ys, hys, rfl⟩ := Option.map_eq_some_iff.mp hmap
      refine .arr fun y hy => ?_
      obtain ⟨x, hx, hxy⟩ := exists_mem_of_forall₂ (mapElements_eq_some_iff.mp hys) hy
      exact ih x hx hxy
  | obj sorted _ ih =>
      obtain ⟨fields', hmapped, rfl⟩ := Option.map_eq_some_iff.mp hmap
      have hfields := mapFields_eq_some_iff.mp hmapped
      have hnames : (fields'.map Prod.fst).Pairwise fun a b => Str.lt a b = true := by
        rw [names_of_forall₂ hfields]
        exact List.pairwise_map.mpr sorted
      refine .obj (List.pairwise_map.mp hnames) fun g' hg' => ?_
      obtain ⟨g, hg, -, hgg'⟩ := exists_mem_of_forall₂ hfields hg'
      exact ih g hg hgg'

theorem repair_mapNumbers {f : Str → Option Str} {j j' : Json} (h : j.repair = j)
    (hmap : j.mapNumbers f = some j') : j'.repair = j' := by
  induction j using Json.induct generalizing j' with
  | null | bool | str =>
      cases hmap
      exact h
  | num literal =>
      obtain ⟨t, -, rfl⟩ := Option.map_eq_some_iff.mp hmap
      rfl
  | arr xs ih =>
      obtain ⟨ys, hys, rfl⟩ := Option.map_eq_some_iff.mp hmap
      rw [repair_arr_eq_self_iff] at h ⊢
      intro y hy
      obtain ⟨x, hx, hxy⟩ := exists_mem_of_forall₂ (mapElements_eq_some_iff.mp hys) hy
      exact ih x hx (h x hx) hxy
  | obj fields ih =>
      obtain ⟨fields', hfields, rfl⟩ := Option.map_eq_some_iff.mp hmap
      rw [repair_obj_eq_self_iff] at h ⊢
      intro g' hg'
      obtain ⟨g, hg, hname, hgg'⟩ := exists_mem_of_forall₂ (mapFields_eq_some_iff.mp hfields) hg'
      exact ⟨hname ▸ (h g hg).1, ih g hg (h g hg).2 hgg'⟩

/-- A field of an object whose numbers are replaced. -/
theorem lookup_mapNumbers {f : Str → Option Str} {fields fields' : List (Str × Json)}
    (hnodup : (fields.map Prod.fst).Nodup)
    (h : List.Forall₂ (fun g g' => g'.1 = g.1 ∧ mapNumbers f g.2 = some g'.2) fields fields')
    {key : Str} {x : Json} (hx : lookup fields key = some x) :
    ∃ y, mapNumbers f x = some y ∧ lookup fields' key = some y := by
  have hnodup' : (fields'.map Prod.fst).Nodup := names_of_forall₂ h ▸ hnodup
  have hmem := (lookup_eq_some_iff hnodup).mp hx
  obtain ⟨g', hg', hname, hvalue⟩ := exists_mem_of_forall₂ h.flip hmem
  refine ⟨g'.2, hvalue, (lookup_eq_some_iff hnodup').mpr ?_⟩
  rw [← show g'.1 = key from hname]
  exact hg'

end Json

/-! ## Denotations -/

/-- A JSON value with its numbers as numbers. -/
inductive JsonValue
  | null
  | bool (b : Bool)
  | num (x : ℚ)
  | str (s : Str)
  | arr (elements : List JsonValue)
  | obj (members : List (Str × JsonValue))

namespace Json

mutual

/-- The value with its numbers as numbers. -/
def evaluate : Json → JsonValue
  | .null => .null
  | .bool b => .bool b
  | .num literal => .num (literalValue literal)
  | .str s => .str s
  | .arr xs => .arr (evaluateElements xs)
  | .obj fields => .obj (evaluateFields fields)

def evaluateElements : List Json → List JsonValue
  | [] => []
  | x :: xs => evaluate x :: evaluateElements xs

def evaluateFields : List (Str × Json) → List (Str × JsonValue)
  | [] => []
  | (k, x) :: fields => (k, evaluate x) :: evaluateFields fields

end

/-- What a JSON text denotes: of members with one name, the last. -/
def denote (j : Json) : JsonValue := j.canonical.evaluate

mutual

/-- The number literals in a value. -/
def numbers : Json → List Str
  | .null => []
  | .bool _ => []
  | .num literal => [literal]
  | .str _ => []
  | .arr xs => numbersOfElements xs
  | .obj fields => numbersOfFields fields

def numbersOfElements : List Json → List Str
  | [] => []
  | x :: xs => numbers x ++ numbersOfElements xs

def numbersOfFields : List (Str × Json) → List Str
  | [] => []
  | (_, x) :: fields => numbers x ++ numbersOfFields fields

end

theorem evaluate_arr (xs : List Json) : evaluate (.arr xs) = .arr (xs.map evaluate) := by
  rw [evaluate]
  congr 1
  induction xs with
  | nil => rfl
  | cons x xs ih => rw [evaluateElements, ih, List.map_cons]

theorem evaluate_obj (fields : List (Str × Json)) :
    evaluate (.obj fields) = .obj (fields.map fun f => (f.1, f.2.evaluate)) := by
  rw [evaluate]
  congr 1
  induction fields with
  | nil => rfl
  | cons f fields ih => rw [evaluateFields, ih, List.map_cons]

theorem numbers_arr (xs : List Json) : numbers (.arr xs) = xs.flatMap numbers := by
  rw [numbers]
  induction xs with
  | nil => rfl
  | cons x xs ih => rw [numbersOfElements, ih, List.flatMap_cons]

theorem numbers_obj (fields : List (Str × Json)) :
    numbers (.obj fields) = fields.flatMap fun f => f.2.numbers := by
  rw [numbers]
  induction fields with
  | nil => rfl
  | cons f fields ih => rw [numbersOfFields, ih, List.flatMap_cons]

/-- A value is the same with other numbers in it exactly if these have the same values. -/
theorem evaluate_mapNumbers_iff {f : Str → Option Str} {j j' : Json} (h : j.mapNumbers f = some j') :
    j'.evaluate = j.evaluate ↔
      ∀ literal ∈ j.numbers, ∀ t, f literal = some t → literalValue t = literalValue literal := by
  induction j using Json.induct generalizing j' with
  | null | bool | str =>
      cases h
      simp [numbers]
  | num literal =>
      obtain ⟨t, ht, rfl⟩ := Option.map_eq_some_iff.mp h
      simp [numbers, evaluate, ht]
  | arr xs ih =>
      obtain ⟨ys, hys, rfl⟩ := Option.map_eq_some_iff.mp h
      rw [evaluate_arr, evaluate_arr, JsonValue.arr.injEq, numbers_arr,
        map_eq_map_iff_of_forall₂ (mapElements_eq_some_iff.mp hys) fun x hx y hxy => ih x hx hxy]
      simp only [List.mem_flatMap, forall_exists_index, and_imp]
      exact ⟨fun hall l x hx hl => hall x hx l hl, fun hall x hx l hl => hall l x hx hl⟩
  | obj fields ih =>
      obtain ⟨fields', hfields, rfl⟩ := Option.map_eq_some_iff.mp h
      have hpairs : ∀ g ∈ fields, ∀ g' : Str × Json, (g'.1 = g.1 ∧ g.2.mapNumbers f = some g'.2) →
          ((g'.1, g'.2.evaluate) = (g.1, g.2.evaluate) ↔ ∀ literal ∈ g.2.numbers, ∀ t,
            f literal = some t → literalValue t = literalValue literal) := by
        rintro g hg g' ⟨hname, hvalue⟩
        rw [Prod.mk.injEq, ← ih g hg hvalue]
        exact and_iff_right hname
      rw [evaluate_obj, evaluate_obj, JsonValue.obj.injEq, numbers_obj,
        map_eq_map_iff_of_forall₂ (mapFields_eq_some_iff.mp hfields) hpairs]
      simp only [List.mem_flatMap, forall_exists_index, and_imp]
      exact ⟨fun hall l g hg hl => hall g hg l hl, fun hall g hg l hl => hall l g hg hl⟩

/-- Every number in a value is replaced. -/
theorem exists_of_mem_numbers {f : Str → Option Str} {j j' : Json} (h : j.mapNumbers f = some j')
    {literal : Str} (hmem : literal ∈ j.numbers) : ∃ t, f literal = some t := by
  induction j using Json.induct generalizing j' with
  | null | bool | str => cases hmem
  | num literal' =>
      obtain ⟨t, ht, -⟩ := Option.map_eq_some_iff.mp h
      exact ⟨t, List.mem_singleton.mp hmem ▸ ht⟩
  | arr xs ih =>
      obtain ⟨ys, hys, -⟩ := Option.map_eq_some_iff.mp h
      rw [numbers_arr] at hmem
      obtain ⟨x, hx, hmem⟩ := List.mem_flatMap.mp hmem
      obtain ⟨y, -, hxy⟩ := exists_mem_of_forall₂ (mapElements_eq_some_iff.mp hys).flip hx
      exact ih x hx hxy hmem
  | obj fields ih =>
      obtain ⟨fields', hfields, -⟩ := Option.map_eq_some_iff.mp h
      rw [numbers_obj] at hmem
      obtain ⟨g, hg, hmem⟩ := List.mem_flatMap.mp hmem
      obtain ⟨g', -, -, hgg'⟩ := exists_mem_of_forall₂ (mapFields_eq_some_iff.mp hfields).flip hg
      exact ih g hg hgg' hmem

/-- What a value denotes is the same with other numbers in it exactly if these have the same values. -/
theorem denote_mapNumbers_iff {f : Str → Option Str} {j j' : Json}
    (h : j.canonical.mapNumbers f = some j') : j'.denote = j.denote ↔
      ∀ literal ∈ j.canonical.numbers, ∀ t, f literal = some t →
        literalValue t = literalValue literal := by
  rw [denote, denote, ((isCanonical_canonical j).mapNumbers h).canonical_eq,
    evaluate_mapNumbers_iff h]

end Json

end WeighingSync.Go
