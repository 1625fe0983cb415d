import WeighingSync.Go.Bytes
import WeighingSync.Go.JsonStruct

/-!
# The confirmation log of the uploader

`stateStore` of `cmd/uploader/main.go`: a file of JSON lines and, in memory, the set of the keys it
records. A write may be cut after any number of bytes; `append` is given how many the disk still
takes.
-/

namespace WeighingSync.Uploader

open Go

/-- A line of the state file. -/
structure StateEntry where
  entityType : Str
  primaryKey : Str
  recordKey : Str
  serialNo : Str
  acceptedAt : Str
  deriving DecidableEq, Repr

/-- A field that `omitempty` leaves out where it is empty. -/
def omitEmpty (name : String) (s : Str) : List (Str × Json) :=
  if s = [] then [] else [(Str.lit name, .str s)]

/-- The JSON value of a state entry. -/
def StateEntry.json (e : StateEntry) : Json :=
  .obj (omitEmpty "entity_type" e.entityType ++ [(Str.lit "primary_key", .str e.primaryKey)] ++
    omitEmpty "record_key" e.recordKey ++ omitEmpty "serial_no" e.serialNo ++
    [(Str.lit "accepted_at", .str e.acceptedAt)])

/-- The line that records an entry. -/
def StateEntry.line (e : StateEntry) : Str := e.json.encode ++ [.char '\n']

/-- `stateKey`. -/
def stateKey (entityType primaryKey : Str) : Str :=
  (if entityType = [] then Str.lit "weight_info" else entityType) ++ [.char '\x00'] ++ primaryKey

/-- The key of an entry. -/
def StateEntry.key (e : StateEntry) : Str := stateKey e.entityType e.primaryKey

/-- The text of the state file and the keys known to be confirmed. -/
structure StateStore where
  file : Str
  done : List Str
  deriving DecidableEq

/-- Why the state store returns an error. -/
inductive StateError
  | invalid
  | emptyPrimaryKey
  | write
  deriving DecidableEq, Repr

namespace StateStore

/-- `contains`. -/
def contains (s : StateStore) (entityType key : Str) : Bool := stateKey entityType key ∈ s.done

/-- `append`, with the number of bytes the disk still takes, if it is limited. -/
def append (s : StateStore) : List StateEntry → Option ℕ → StateStore × Except StateError Unit
  | [], _ => (s, .ok ())
  | e :: entries, room =>
      if e.key ∈ s.done then s.append entries room
      else if room.all fun n => e.line.size ≤ n then
        append { file := s.file ++ e.line, done := e.key :: s.done } entries
          (room.map fun n => n - e.line.size)
      else ({ s with file := s.file ++ limitReader (room.getD 0) e.line }, .error .write)

/-- The bytes that `append` writes for a list of entries on a disk with room. -/
def linesSize : List Str → List StateEntry → ℕ
  | _, [] => 0
  | done, e :: entries =>
      if e.key ∈ done then linesSize done entries else e.line.size + linesSize (e.key :: done) entries

end StateStore

/-- One decoded state entry; `entity_type` defaults to weighing records. -/
def decodeEntry (j : Json) : Except StateError Str :=
  match j.decodeObject with
  | none => .error .invalid
  | some fields =>
      match Json.decodeString (Json.structField fields (Str.lit "entity_type")),
        Json.decodeString (Json.structField fields (Str.lit "primary_key")),
        Json.decodeString (Json.structField fields (Str.lit "record_key")),
        Json.decodeString (Json.structField fields (Str.lit "serial_no")),
        Json.decodeString (Json.structField fields (Str.lit "accepted_at")) with
      | some entityType, some primaryKey, some _, some _, some _ =>
          if primaryKey = [] then .error .emptyPrimaryKey else .ok (stateKey entityType primaryKey)
      | _, _, _, _, _ => .error .invalid

/-- The keys of the entries of a file. The first argument bounds their number. -/
def decodeEntries : ℕ → Str → Except StateError (List Str)
  | 0, _ => .error .invalid
  | n + 1, s =>
      if skipSpace s = [] then .ok []
      else
        match value (s.length + 1) s with
        | none => .error .invalid
        | some (j, rest) => do
            let key ← decodeEntry j
            let keys ← decodeEntries n rest
            return key :: keys

/-- `loadState`, of a file that can be read; a file that does not exist reads as empty. -/
def loadState (file : Str) : Except StateError StateStore :=
  (decodeEntries (file.length + 1) file).map fun done => { file, done }

namespace StateStore

/-- On a disk with room, `append` adds one line for every key that was not known: the lines carry
distinct keys, each from the entries, and afterwards every key of the entries is known. -/
theorem append_unlimited (s : StateStore) (entries : List StateEntry) :
    ∃ added : List StateEntry,
      s.append entries none =
        ({ file := s.file ++ added.flatMap StateEntry.line,
           done := (added.map StateEntry.key).reverse ++ s.done }, .ok ()) ∧
      added.Sublist entries ∧ (added.map StateEntry.key).Nodup ∧
      (∀ e ∈ added, e.key ∉ s.done) ∧
      ∀ e ∈ entries, e.key ∈ s.done ∨ e.key ∈ added.map StateEntry.key := by
  induction entries generalizing s with
  | nil => exact ⟨[], by simp [append], List.Sublist.refl _, List.nodup_nil, by simp, by simp⟩
  | cons e entries ih =>
      by_cases he : e.key ∈ s.done
      · obtain ⟨added, happend, hsub, hnodup, hnew, hall⟩ := ih s
        refine ⟨added, by rw [append, if_pos he, happend], hsub.cons e, hnodup, hnew, ?_⟩
        rintro e' he'
        rcases List.mem_cons.mp he' with rfl | he'
        · exact Or.inl he
        · exact hall e' he'
      · obtain ⟨added, happend, hsub, hnodup, hnew, hall⟩ :=
          ih { file := s.file ++ e.line, done := e.key :: s.done }
        refine ⟨e :: added, ?_, hsub.cons_cons e, ?_, ?_, ?_⟩
        · rw [append, if_neg he, if_pos (by rfl), Option.map_none, happend]
          simp
        · rw [List.map_cons, List.nodup_cons]
          refine ⟨fun hmem => ?_, hnodup⟩
          obtain ⟨a, ha, hkey⟩ := List.mem_map.mp hmem
          exact hnew a ha (by simp [hkey])
        · rintro e' he'
          rcases List.mem_cons.mp he' with rfl | he'
          · exact he
          · exact fun hdone => hnew e' he' (List.mem_cons_of_mem _ hdone)
        · rintro e' he'
          rcases List.mem_cons.mp he' with rfl | he'
          · exact Or.inr List.mem_cons_self
          · rcases hall e' he' with hdone | hadded
            · rcases List.mem_cons.mp hdone with hkey | hdone
              · exact Or.inr (by rw [hkey]; exact List.mem_cons_self)
              · exact Or.inl hdone
            · exact Or.inr (List.mem_cons_of_mem _ hadded)

/-- Known keys stay known. -/
theorem done_subset_append (s : StateStore) (entries : List StateEntry) (room : Option ℕ) :
    s.done ⊆ (s.append entries room).1.done := by
  induction entries generalizing s room with
  | nil => exact List.Subset.refl _
  | cons e entries ih =>
      rw [append]
      split_ifs
      · exact ih s room
      · exact fun key hkey => ih _ _ (List.mem_cons_of_mem _ hkey)
      · exact List.Subset.refl _

/-- A key becomes known only through an entry of that key. -/
theorem mem_done_append {s : StateStore} {entries : List StateEntry} {room : Option ℕ} {key : Str}
    (h : key ∈ (s.append entries room).1.done) : key ∈ s.done ∨ ∃ e ∈ entries, e.key = key := by
  induction entries generalizing s room with
  | nil => exact Or.inl h
  | cons e entries ih =>
      rw [append] at h
      split_ifs at h
      · exact (ih h).imp_right fun ⟨e', he', hkey⟩ => ⟨e', List.mem_cons_of_mem e he', hkey⟩
      · rcases ih h with hdone | ⟨e', he', hkey⟩
        · rcases List.mem_cons.mp hdone with rfl | hdone
          · exact Or.inr ⟨e, List.mem_cons_self, rfl⟩
          · exact Or.inl hdone
        · exact Or.inr ⟨e', List.mem_cons_of_mem e he', hkey⟩
      · exact Or.inl h

/-- With room for all lines, `append` does what it does on a disk with room. -/
theorem append_of_room {s : StateStore} {entries : List StateEntry} {room : Option ℕ}
    (h : ∀ n ∈ room, linesSize s.done entries ≤ n) : s.append entries room = s.append entries none := by
  induction entries generalizing s room with
  | nil => rfl
  | cons e entries ih =>
      rw [append, append]
      rw [linesSize] at h
      split_ifs at h ⊢ with hdone hroom hnone hnone
      · exact ih h
      · rw [ih, Option.map_none]
        intro n hn
        obtain ⟨m, hm, rfl⟩ := Option.map_eq_some_iff.mp hn
        have hle := h m hm
        show linesSize (e.key :: s.done) entries ≤ m - e.line.size
        omega
      · exact absurd rfl hnone
      · refine absurd ?_ hroom
        rw [Option.all_eq_true]
        intro n hn
        have hle := h n hn
        exact decide_eq_true (by omega)
      · exact absurd rfl hnone

/-- Without room for all lines, some entry does not become known. -/
theorem exists_not_mem_done {s : StateStore} {entries : List StateEntry} {room : Option ℕ}
    (h : ∃ n ∈ room, n < linesSize s.done entries) :
    ∃ e ∈ entries, e.key ∉ (s.append entries room).1.done := by
  induction entries generalizing s room with
  | nil =>
      obtain ⟨n, -, hn⟩ := h
      exact absurd hn (Nat.not_lt_zero n)
  | cons e entries ih =>
      rw [append]
      rw [linesSize] at h
      split_ifs at h ⊢ with hdone hroom
      · obtain ⟨e', he', hnot⟩ := ih h
        exact ⟨e', List.mem_cons_of_mem e he', hnot⟩
      · obtain ⟨n, hn, hlt⟩ := h
        have hline : e.line.size ≤ n := by
          rw [Option.all_eq_true] at hroom
          exact of_decide_eq_true (hroom n hn)
        have hrest : ∃ k ∈ room.map fun n => n - e.line.size,
            k < linesSize (e.key :: s.done) entries :=
          ⟨n - e.line.size, Option.map_eq_some_iff.mpr ⟨n, hn, rfl⟩, by omega⟩
        obtain ⟨e', he', hnot⟩ := ih (s := { file := s.file ++ e.line, done := e.key :: s.done })
          hrest
        exact ⟨e', List.mem_cons_of_mem e he', hnot⟩
      · exact ⟨e, List.mem_cons_self, hdone⟩

end StateStore

end WeighingSync.Uploader
