import WeighingSync.Common.Transition
import WeighingSync.Go.Http
import WeighingSync.Go.JsonTorn
import WeighingSync.Uploader.State

/-!
# The confirmation log over crashes

A run of the state store: calls of `append`, each of which may be cut after any byte of a write, and
restarts, which load the file that is there. The file is the text of the writes so far
(`LogInvariant`). `loadState` reads it if and only if no write was cut within its object
(`crashSafe_iff`): what follows a torn object never completes it, so the decoder stops there, in this
and in every later start.
-/

namespace WeighingSync.Uploader

open Go

/-! ## Entries -/

namespace StateEntry

/-- All fields are valid UTF-8. -/
def Valid (e : StateEntry) : Prop :=
  e.entityType.Valid ∧ e.primaryKey.Valid ∧ e.recordKey.Valid ∧ e.serialNo.Valid ∧ e.acceptedAt.Valid

instance : DecidablePred Valid := fun e => inferInstanceAs (Decidable (e.entityType.Valid ∧
  e.primaryKey.Valid ∧ e.recordKey.Valid ∧ e.serialNo.Valid ∧ e.acceptedAt.Valid))

/-- The fields of an entry that are written, as texts. -/
def fields (e : StateEntry) : List (Str × Str) :=
  (if e.entityType = [] then [] else [(Str.lit "entity_type", e.entityType)]) ++
    [(Str.lit "primary_key", e.primaryKey)] ++
    (if e.recordKey = [] then [] else [(Str.lit "record_key", e.recordKey)]) ++
    (if e.serialNo = [] then [] else [(Str.lit "serial_no", e.serialNo)]) ++
    [(Str.lit "accepted_at", e.acceptedAt)]

theorem json_eq (e : StateEntry) : e.json = .obj (e.fields.map fun f => (f.1, .str f.2)) := by
  simp only [json, fields, omitEmpty, List.map_append]
  split_ifs <;> rfl

theorem wellFormed_json (e : StateEntry) : e.json.WellFormed := by
  rw [json_eq, Json.wellFormed_obj]
  intro f hf
  obtain ⟨g, -, rfl⟩ := List.mem_map.mp hf
  trivial

/-- `loadState` reads what is written of the entry as its key. -/
def Readable (e : StateEntry) : Prop := decodeEntry e.json.repair = .ok e.key

/-- The fields that are not part of the key may be cut up by the encoder. -/
theorem readable_of_valid_key {e : StateEntry} (hentity : e.entityType.Valid)
    (hprimary : e.primaryKey.Valid) (hkey : e.primaryKey ≠ []) : e.Readable := by
  have hnames : ∀ a ∈ ["entity_type", "primary_key", "record_key", "serial_no", "accepted_at"],
      ∀ b ∈ ["entity_type", "primary_key", "record_key", "serial_no", "accepted_at"],
        Json.namesField (Str.lit a) (Str.lit b) = decide (a = b) := by decide
  simp only [List.forall_mem_cons, List.not_mem_nil, false_implies, implies_true, and_true] at hnames
  have hrepair : ∀ a : String, (Str.lit a).repair = Str.lit a := fun a =>
    Str.repair_eq_self_iff.mpr (Str.valid_lit a)
  rw [Readable, json_eq, Json.repair_obj, List.map_map]
  by_cases hempty : e.entityType = [] <;> by_cases hrecord : e.recordKey = [] <;>
    by_cases hserial : e.serialNo = [] <;>
    simp [decodeEntry, Json.decodeObject, fields, hempty, hrecord, hserial, Json.structField,
      List.findRev?_eq_find?_reverse, hnames, Json.decodeString, hkey, key, Json.repair, hrepair,
      Str.repair_eq_self_iff.mpr hentity, Str.repair_eq_self_iff.mpr hprimary]

end StateEntry

/-! ## Writes -/

/-- A write of `append`: the entry, and how many bytes of its line the file took. -/
structure Write where
  entry : StateEntry
  taken : ℕ
  deriving DecidableEq

namespace Write

/-- What the write left in the file. -/
def text (w : Write) : Str := limitReader w.taken w.entry.line

/-- The line was written to its end. -/
def Complete (w : Write) : Prop := w.entry.line.size ≤ w.taken

instance : DecidablePred Complete := fun w => inferInstanceAs (Decidable (w.entry.line.size ≤ w.taken))

/-- The write was not cut between the first and the last byte of its object. -/
def Intact (w : Write) : Prop := w.taken = 0 ∨ w.entry.json.encode.size ≤ w.taken

instance : DecidablePred Intact := fun w =>
  inferInstanceAs (Decidable (w.taken = 0 ∨ w.entry.json.encode.size ≤ w.taken))

end Write

namespace StateStore

/-- The writes of a call of `append`, in order. -/
def writes (s : StateStore) : List StateEntry → Option ℕ → List Write
  | [], _ => []
  | e :: entries, room =>
      if e.key ∈ s.done then s.writes entries room
      else if room.all fun n => e.line.size ≤ n then
        ⟨e, e.line.size⟩ :: writes { file := s.file ++ e.line, done := e.key :: s.done } entries
          (room.map fun n => n - e.line.size)
      else [⟨e, room.getD 0⟩]

/-- `append` adds to the file what its writes left there. -/
theorem file_append (s : StateStore) (entries : List StateEntry) (room : Option ℕ) :
    (s.append entries room).1.file = s.file ++ (s.writes entries room).flatMap Write.text := by
  induction entries generalizing s room with
  | nil => simp [append, writes]
  | cons e entries ih =>
      rw [append, writes]
      split_ifs with hdone hroom
      · exact ih s room
      · rw [ih, List.flatMap_cons, Write.text, limitReader_of_size_le le_rfl, List.append_assoc]
      · simp [Write.text]

/-- `append` writes only what it is given. -/
theorem entry_mem_of_mem_writes {s : StateStore} {entries : List StateEntry} {room : Option ℕ}
    {w : Write} (h : w ∈ s.writes entries room) : w.entry ∈ entries := by
  induction entries generalizing s room with
  | nil => exact absurd h List.not_mem_nil
  | cons e entries ih =>
      rw [writes] at h
      split_ifs at h
      · exact List.mem_cons_of_mem e (ih h)
      · rcases List.mem_cons.mp h with rfl | h
        · exact List.mem_cons_self
        · exact List.mem_cons_of_mem e (ih h)
      · rw [List.mem_singleton.mp h]
        exact List.mem_cons_self

end StateStore

/-! ## What a write leaves in the file -/

theorem StateEntry.encode_head (e : StateEntry) :
    ∃ c u, e.json.encode = .char '\x7b' :: .char '"' :: .char c :: u ∧ (c = 'e' ∨ c = 'p') := by
  rw [json_eq, Json.encode, fields]
  by_cases h : e.entityType = []
  · rw [if_pos h]
    exact ⟨'p', _, rfl, Or.inr rfl⟩
  · rw [if_neg h]
    exact ⟨'e', _, rfl, Or.inl rfl⟩

/-- What a write leaves in the file: nothing, the whole object, or a torn one. -/
inductive Write.Leaves (w : Write) : Prop
  | nothing (htaken : w.taken = 0) (htext : w.text = [])
  | whole (htaken : w.taken ≠ 0) (hintact : w.Intact) (newline : Str)
      (hnewline : newline = [] ∨ newline = [.char '\n'])
      (htext : w.text = w.entry.json.encode ++ newline)
  | torn (hintact : ¬ w.Intact) (p t : Str) (bytes : List UInt8) (hp : p ≠ []) (ht : t ≠ [])
      (hcut : w.entry.json.encode = p ++ t) (htext : w.text = p ++ bytes.map .byte)

theorem Write.leaves (w : Write) : w.Leaves := by
  obtain ⟨c, u, hhead, -⟩ := w.entry.encode_head
  have hline : w.entry.line = w.entry.json.encode ++ [.char '\n'] := rfl
  have hsize : w.entry.line.size = w.entry.json.encode.size + 1 := by
    rw [hline, Str.size_append]
    rfl
  by_cases hzero : w.taken = 0
  · refine .nothing hzero ?_
    rw [Write.text, hzero, hline, hhead]
    rfl
  by_cases hobject : w.entry.json.encode.size ≤ w.taken
  · have htext : w.text = w.entry.json.encode ++
        limitReader (w.taken - w.entry.json.encode.size) [.char '\n'] := limitReader_append hobject _
    by_cases hcomplete : w.entry.line.size ≤ w.taken
    · refine .whole hzero (Or.inr hobject) [.char '\n'] (Or.inr rfl) ?_
      rw [htext, limitReader_of_size_le]
      show 1 ≤ w.taken - w.entry.json.encode.size
      omega
    · refine .whole hzero (Or.inr hobject) [] (Or.inl rfl) ?_
      rw [htext, show w.taken - w.entry.json.encode.size = 0 by omega]
      rfl
  · obtain ⟨p, t, bytes, hcut, -, hp, htext⟩ :=
      limitReader_of_lt_size (n := w.taken) (s := w.entry.line) (by omega)
    have hnil : p ≠ [] := by
      rintro rfl
      -- the opening brace is one byte, which was taken
      have hbrace : (Rune.char '\x7b').size ≤ w.taken := Nat.one_le_iff_ne_zero.mpr hzero
      rw [hline, hhead, List.cons_append, limitReader, if_pos hbrace] at htext
      cases bytes <;> cases htext
    rw [hline] at hcut
    rcases append_eq_append_cases hcut with ⟨t', ht', hobj⟩ | ⟨p', rfl, -⟩
    · refine .torn ?_ p t' bytes hnil ht' hobj htext
      rintro (h | h)
      · exact hzero h
      · exact hobject h
    · rw [Str.size_append] at hp
      omega

/-! ## Reading the file -/

/-- A newline, or none. -/
theorem value_newline {newline : Str} (h : newline = [] ∨ newline = [.char '\n']) (n : ℕ) (s : Str) :
    value n (newline ++ s) = value n s := by
  rcases h with rfl | rfl
  · rfl
  · cases n with
    | zero => rfl
    | succ n => simp [value, skipSpace, isJSONSpace]

theorem blocked_newline {newline s : Str} (h : newline = [] ∨ newline = [.char '\n'])
    (hs : Blocked s) : Blocked (newline ++ s) := by
  rcases h with rfl | rfl
  · exact hs
  · intro token htoken
    have hskip := hs token htoken
    simpa [expect, skipSpace, isJSONSpace] using hskip

/-- A string that runs into an entry ends before the first name in it. -/
theorem blocked_of_unquote_entry {e : StateEntry} {q t u text rest : Str}
    (hcut : e.json.encode = q ++ t) (hq : q ≠ []) (hu : Blocked u)
    (hstring : ∀ text rest, unquote (.plain none) u = some (text, rest) → Blocked rest)
    (h : unquote (.plain none) (q ++ u) = some (text, rest)) : Blocked rest := by
  obtain ⟨c, v, hhead, hc⟩ := e.encode_head
  rw [hhead] at hcut
  rcases q with _ | ⟨r, q⟩
  · exact absurd rfl hq
  obtain ⟨rfl, hcut₁⟩ := List.cons.inj hcut
  have hbrace : unquote (.plain none) (.char '\x7b' :: (q ++ u)) =
      (unquote (.plain none) (q ++ u)).map fun p => (.char '\x7b' :: p.1, p.2) := by
    simp [unquote, Scan.step, Scan.isControl, Scan.flush, Rune.repair]
  rw [List.cons_append, hbrace, Option.map_eq_some_iff] at h
  obtain ⟨⟨text', rest'⟩, htext, heq⟩ := h
  cases heq
  show Blocked rest'
  rcases q with _ | ⟨r, q⟩
  · exact hstring text' rest' htext
  obtain ⟨rfl, hcut₂⟩ := List.cons.inj hcut₁
  rw [List.cons_append, unquote, if_pos rfl] at htext
  cases htext
  rcases q with _ | ⟨r, q⟩
  · exact hu
  · obtain ⟨rfl, -⟩ := List.cons.inj hcut₂
    refine blocked_of_head fun r hr => ?_
    cases hr
    rcases hc with rfl | rfl <;> decide

theorem endsNumber_of_resumes {newline s : Str} (h : newline = [] ∨ newline = [.char '\n'])
    (hs : Resumes s) : EndsNumber (newline ++ s) := by
  intro r hr
  rcases h with rfl | rfl
  · rw [hs.head r hr]
    rfl
  · cases hr
    rfl

/-- Whatever the writes left in the file, it completes nothing that was torn off before. -/
theorem resumes_writes (ws : List Write) : Resumes (ws.flatMap Write.text) := by
  induction ws with
  | nil =>
      refine ⟨fun r hr => (by cases hr), fun text rest h => (by cases h), fun n j rest h => ?_⟩
      exact absurd rfl (skipSpace_ne_nil_of_value h)
  | cons w ws ih =>
      obtain ⟨c, u, hhead, -⟩ := w.entry.encode_head
      rw [List.flatMap_cons]
      rcases w.leaves with ⟨-, htext⟩ | ⟨-, -, newline, hnewline, htext⟩ |
        ⟨-, p, t, bytes, hp, ht, hcut, htext⟩
      · -- nothing was written
        rwa [htext, List.nil_append]
      · -- the object is whole, its line break perhaps not
        rw [htext, List.append_assoc]
        have hblocked := blocked_newline hnewline (blocked_bytes_append ih [])
        refine ⟨fun r hr => ?_, fun text rest h => ?_, fun n j rest h => ?_⟩
        · rw [hhead] at hr
          cases hr
          rfl
        · refine blocked_of_unquote_entry (t := []) (List.append_nil _).symm ?_ hblocked ?_ h
          · rw [hhead]
            exact List.cons_ne_nil _ _
          · intro text rest hstring
            rcases hnewline with rfl | rfl
            · exact ih.string text rest hstring
            · cases hstring
        · -- the object is read, and what is left is what follows it
          have hobject : ¬ j.IsNum := by
            rw [hhead] at h
            obtain ⟨⟨fields, rfl⟩, -⟩ := closing_of_value h
            exact id
          have hlong := (read_append n (max n w.entry.json.encode.length) (le_max_left _ _) []).1 _ _ _ h
            (Or.inr hobject)
          rw [List.append_nil, List.append_nil, value_encode _ _ _ w.entry.wellFormed_json
            (le_max_right _ _) (endsNumber_of_resumes hnewline ih)] at hlong
          simp only [Option.some.injEq, Prod.mk.injEq] at hlong
          rw [← hlong.2]
          exact hblocked
      · -- the object is torn
        rw [htext, List.append_assoc]
        refine ⟨fun r hr => ?_, fun text rest h => ?_, fun n j rest h => ?_⟩
        · rcases p with _ | ⟨r', p⟩
          · exact absurd rfl hp
          · rw [hhead] at hcut
            cases hr
            exact (List.cons.inj hcut).1.symm
        · refine blocked_of_unquote_entry hcut hp (blocked_bytes_append ih bytes) ?_ h
          intro text rest hstring
          obtain ⟨text', htext'⟩ := unquote_bytes_append bytes hstring
          exact ih.string text' rest htext'
        · rw [value_torn ih bytes w.entry.fields n hp ht (w.entry.json_eq ▸ hcut)] at h
          cases h

/-- The decoder reads the keys of the writes that left an object, up to a torn one, which it
rejects. -/
theorem decodeEntries_writes (ws : List Write) (hws : ∀ w ∈ ws, w.entry.Readable) {newline : Str}
    (hnewline : newline = [] ∨ newline = [.char '\n']) (n : ℕ)
    (hn : (newline ++ ws.flatMap Write.text).length < n) :
    decodeEntries n (newline ++ ws.flatMap Write.text) =
      if ∀ w ∈ ws, w.Intact then
        .ok ((ws.filter fun w => w.taken ≠ 0).map fun w => w.entry.key)
      else .error .invalid := by
  induction ws generalizing newline n with
  | nil =>
      obtain ⟨n, rfl⟩ : ∃ m, n = m + 1 := ⟨n - 1, by omega⟩
      rcases hnewline with rfl | rfl <;> simp [decodeEntries, skipSpace, isJSONSpace]
  | cons w ws ih =>
      obtain ⟨hw, hws⟩ := List.forall_mem_cons.mp hws
      obtain ⟨c, u, hhead, -⟩ := w.entry.encode_head
      rw [List.flatMap_cons] at hn ⊢
      rcases w.leaves with ⟨htaken, htext⟩ | ⟨htaken, hintact, newline', hnewline', htext⟩ |
        ⟨hintact, p, t, bytes, hp, ht, hcut, htext⟩
      · -- nothing was written
        rw [htext, List.nil_append] at hn ⊢
        rw [ih hws hnewline n hn]
        simp [Write.Intact, htaken]
      · -- the object is whole, and the decoder goes on after it
        have hvalue : value ((newline ++ (w.text ++ ws.flatMap Write.text)).length + 1)
            (newline ++ (w.text ++ ws.flatMap Write.text)) =
              some (w.entry.json.repair, newline' ++ ws.flatMap Write.text) := by
          rw [value_newline hnewline, htext, List.append_assoc]
          refine value_encode _ _ _ w.entry.wellFormed_json ?_
            (endsNumber_of_resumes hnewline' (resumes_writes ws))
          simp only [List.length_append]
          omega
        have hlength : (newline' ++ ws.flatMap Write.text).length < n - 1 := by
          rw [htext, hhead] at hn
          simp only [List.length_append, List.length_cons] at hn ⊢
          omega
        have hspace : skipSpace (newline ++ (w.text ++ ws.flatMap Write.text)) ≠ [] :=
          skipSpace_ne_nil_of_value hvalue
        obtain ⟨n, rfl⟩ : ∃ m, n = m + 1 := ⟨n - 1, by omega⟩
        have hkey : decodeEntry w.entry.json.repair = .ok w.entry.key := hw
        simp only [decodeEntries, if_neg hspace, hvalue, hkey, ih hws hnewline' n hlength,
          List.forall_mem_cons, hintact, true_and]
        split_ifs
        · rw [List.filter_cons_of_pos (by simpa using htaken)]
          rfl
        · rfl
      · -- the object is torn, and nothing that follows completes it
        have hvalue : ∀ m, value m (newline ++ (w.text ++ ws.flatMap Write.text)) = none := by
          intro m
          rw [value_newline hnewline, htext, List.append_assoc]
          exact value_torn (resumes_writes ws) bytes w.entry.fields m hp ht (w.entry.json_eq ▸ hcut)
        have hspace : skipSpace (newline ++ (w.text ++ ws.flatMap Write.text)) ≠ [] := by
          rcases p with _ | ⟨r, p⟩
          · exact absurd rfl hp
          · rw [hhead] at hcut
            obtain ⟨rfl, -⟩ := List.cons.inj hcut
            rw [htext]
            rcases hnewline with rfl | rfl <;> simp [skipSpace, isJSONSpace]
        obtain ⟨n, rfl⟩ : ∃ m, n = m + 1 := ⟨n - 1, by omega⟩
        rw [if_neg fun hall => hintact (hall w List.mem_cons_self), decodeEntries, if_neg hspace,
          hvalue]

/-- `loadState` on a file that such writes made. -/
theorem loadState_of_readable (ws : List Write) (hws : ∀ w ∈ ws, w.entry.Readable) :
    loadState (ws.flatMap Write.text) =
      if ∀ w ∈ ws, w.Intact then
        .ok ⟨ws.flatMap Write.text, (ws.filter fun w => w.taken ≠ 0).map fun w => w.entry.key⟩
      else .error .invalid := by
  have hread := decodeEntries_writes ws hws
    (show ([] : Str) = [] ∨ ([] : Str) = [.char '\n'] from Or.inl rfl) _ (Nat.lt_succ_self _)
  rw [List.nil_append] at hread
  rw [loadState, hread]
  split_ifs <;> rfl

theorem loadState_writes (ws : List Write)
    (hws : ∀ w ∈ ws, w.entry.Valid ∧ w.entry.primaryKey ≠ []) :
    loadState (ws.flatMap Write.text) =
      if ∀ w ∈ ws, w.Intact then
        .ok ⟨ws.flatMap Write.text, (ws.filter fun w => w.taken ≠ 0).map fun w => w.entry.key⟩
      else .error .invalid :=
  loadState_of_readable ws fun w hw =>
    StateEntry.readable_of_valid_key (hws w hw).1.1 (hws w hw).1.2.1 (hws w hw).2

/-! ## Runs -/

/-- The state store of the running process, the writes to its file and the entries that `append` was
given, both since the file was made. -/
structure LogState where
  store : StateStore
  writes : List Write
  given : List StateEntry

/-- What can happen: a call of `append`, which the disk may cut short, or a new process. -/
inductive LogAction
  | append (entries : List StateEntry) (room : Option ℕ)
  | restart

/-- One step of a run. A process whose `loadState` fails does not start. -/
def logStep (s : LogState) : LogAction → Option LogState
  | .append entries room =>
      some {
        store := (s.store.append entries room).1
        writes := s.writes ++ s.store.writes entries room
        given := s.given ++ entries }
  | .restart =>
      match loadState s.store.file with
      | .ok store => some { s with store }
      | .error _ => none

/-- Runs from the first start, without a file. -/
def stateLog : System LogState LogAction where
  init s := s = ⟨⟨[], []⟩, [], []⟩
  step := logStep

/-- `append` is given entries with a key and valid texts. -/
def GivesEntries (_ : LogState) : LogAction → Prop
  | .append entries _ => ∀ e ∈ entries, e.Valid ∧ e.primaryKey ≠ []
  | .restart => True

instance (s : LogState) : DecidablePred (GivesEntries s)
  | .append entries _ => inferInstanceAs (Decidable (∀ e ∈ entries, e.Valid ∧ e.primaryKey ≠ []))
  | .restart => isTrue trivial

/-- The file is what the writes left in it, and they wrote what `append` was given. -/
structure LogInvariant (s : LogState) : Prop where
  file : s.store.file = s.writes.flatMap Write.text
  given : ∀ w ∈ s.writes, w.entry ∈ s.given
  valid : ∀ w ∈ s.writes, w.entry.Valid ∧ w.entry.primaryKey ≠ []

theorem logInvariant_of_reached {s : LogState} (h : stateLog.ReachedBy GivesEntries s) :
    LogInvariant s := by
  refine h.invariant (fun s hs => ?_) fun s a s' hinv hstep hgiven => ?_
  · subst hs
    exact ⟨rfl, by simp, by simp⟩
  · cases a with
    | append entries room =>
        cases hstep
        refine ⟨?_, fun w hw => ?_, fun w hw => ?_⟩
        · rw [StateStore.file_append, hinv.file, List.flatMap_append]
        · rcases List.mem_append.mp hw with hw | hw
          · exact List.mem_append_left _ (hinv.given w hw)
          · exact List.mem_append_right _ (StateStore.entry_mem_of_mem_writes hw)
        · rcases List.mem_append.mp hw with hw | hw
          · exact hinv.valid w hw
          · exact hgiven _ (StateStore.entry_mem_of_mem_writes hw)
    | restart =>
        have hload := loadState_writes s.writes hinv.valid
        rw [← hinv.file] at hload
        simp only [stateLog, logStep, hload] at hstep
        split_ifs at hstep
        cases hstep
        exact ⟨hinv.file, hinv.given, hinv.valid⟩

/-- `loadState` succeeds, knows every key whose line was written to its end, and knows no other key
than those `append` was given. -/
def CrashSafe (s : LogState) : Prop :=
  ∃ store, loadState s.store.file = .ok store ∧
    (∀ w ∈ s.writes, w.Complete → w.entry.key ∈ store.done) ∧
    ∀ key ∈ store.done, ∃ e ∈ s.given, e.key = key

/-- After any run the log is crash-safe if and only if no write was cut within its object. -/
theorem crashSafe_iff {s : LogState} (h : stateLog.ReachedBy GivesEntries s) :
    CrashSafe s ↔ ∀ w ∈ s.writes, w.Intact := by
  obtain ⟨hfile, hgiven, hvalid⟩ := logInvariant_of_reached h
  rw [CrashSafe, hfile, loadState_writes _ hvalid]
  constructor
  · rintro ⟨store, hload, -⟩
    by_contra hcut
    rw [if_neg hcut] at hload
    cases hload
  · intro hintact
    rw [if_pos hintact]
    refine ⟨_, rfl, fun w hw hcomplete => ?_, fun key hkey => ?_⟩
    · have htaken : w.taken ≠ 0 := by
        have hline : 0 < w.entry.line.size := by
          rw [StateEntry.line, Str.size_append]
          exact Nat.lt_add_left _ Nat.one_pos
        exact Nat.ne_of_gt (hline.trans_le hcomplete)
      exact List.mem_map.mpr ⟨w, List.mem_filter.mpr ⟨hw, decide_eq_true htaken⟩, rfl⟩
    · obtain ⟨w, hw, rfl⟩ := List.mem_map.mp hkey
      exact ⟨w.entry, hgiven w (List.mem_of_mem_filter hw), rfl⟩

/-- An entry of one weighing record. -/
def entryOf (key : String) : StateEntry :=
  ⟨Str.lit "weight_info", Str.lit key, Str.lit ("weight_info:" ++ key), Str.lit key,
    Str.lit "2026-08-27T08:00:00Z"⟩

/-- The disk takes the object of the second entry without its newline, and later more; then a new
process starts. -/
theorem crashSafe_iff_newlineLost : ∃ s, stateLog.ReachedBy GivesEntries s ∧
    (CrashSafe s ↔ ∀ w ∈ s.writes, w.Intact) ∧ ¬ ∀ w ∈ s.writes, w.Complete := by
  obtain ⟨s, hs, hcut⟩ := System.exists_of_exec (S := stateLog) (K := GivesEntries)
    (P := fun s => decide (¬ ∀ w ∈ s.writes, w.Complete)) (s := ⟨⟨[], []⟩, [], []⟩)
    (l := [.append [entryOf "a", entryOf "b"] (some 259), .append [entryOf "c"] none, .restart]) rfl
    (by decide +kernel)
  exact ⟨s, hs, crashSafe_iff hs, of_decide_eq_true hcut⟩

/-- The disk takes one byte of the second line, and later more: no process starts any more. -/
theorem not_crashSafe_torn :
    ∃ s, stateLog.ReachedBy GivesEntries s ∧ ¬ CrashSafe s ∧ stateLog.step s .restart = none := by
  obtain ⟨s, hs, hload⟩ := System.exists_of_exec (S := stateLog) (K := GivesEntries)
    (P := fun s => !(loadState s.store.file).isOk) (s := ⟨⟨[], []⟩, [], []⟩)
    (l := [.append [entryOf "a", entryOf "b"] (some 131), .append [entryOf "c"] none]) rfl
    (by decide +kernel)
  refine ⟨s, hs, ?_, ?_⟩
  · rintro ⟨store, hok, -⟩
    rw [hok] at hload
    cases hload
  · cases herror : loadState s.store.file with
    | ok store =>
        rw [herror] at hload
        cases hload
    | error e => simp [stateLog, logStep, herror]

end WeighingSync.Uploader
