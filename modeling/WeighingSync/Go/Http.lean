import WeighingSync.Go.Bytes
import WeighingSync.Go.JsonCut

/-!
# HTTP replies

What a handler writes with `writeJSON`, and what a client reads of it through
`io.LimitReader(resp.Body, 1<<20)`. A JSON object is read exactly when its text fits the limit
(`parse_received_json`).
-/

namespace WeighingSync.Go

/-- The status and the body of an HTTP reply. -/
structure Reply where
  status : ℕ
  body : Str
  deriving DecidableEq, Repr

/-- The clients read at most this many bytes of a reply. -/
def maxReply : ℕ := 2 ^ 20

namespace Reply

/-- A reply that the clients take as a success. -/
def success (r : Reply) : Bool := 200 ≤ r.status && r.status < 300

/-- What a client reads of the body. -/
def received (r : Reply) : Str := limitReader maxReply r.body

/-- `writeJSON`: the encoder ends its text with a newline. -/
def json (status : ℕ) (j : Json) : Reply := ⟨status, j.encode ++ [.char '\n']⟩

/-- `writeError`. -/
def error (status : ℕ) (message : Str) : Reply :=
  json status (.obj [(Str.lit "error", .str message)])

end Reply

/-- What fits is read, and the rest within what is left of the limit. -/
theorem limitReader_append {n : ℕ} {s : Str} (h : s.size ≤ n) (t : Str) :
    limitReader n (s ++ t) = s ++ limitReader (n - s.size) t := by
  induction s generalizing n with
  | nil => simp
  | cons r s ih =>
      rw [Str.size_cons] at h
      rw [List.cons_append, limitReader, if_pos (by omega), ih (by omega), Str.size_cons,
        Nat.sub_sub, List.cons_append]

/-- A client decodes the JSON object of a reply if its text is within the limit, and otherwise fails
to decode anything. -/
theorem parse_received_json (status : ℕ) {fields : List (Str × Json)}
    (hwf : (Json.obj fields).WellFormed) :
    parse (Reply.json status (.obj fields)).received =
      if (Json.obj fields).encode.size ≤ maxReply then some (Json.obj fields).repair else none := by
  rw [Reply.received, Reply.json]
  split_ifs with hfits
  · rw [limitReader_append hfits]
    apply parse_encode_append hwf
    rw [limitReader]
    split_ifs with hroom
    · rfl
    · rw [show maxReply - (Json.obj fields).encode.size = 0 by
        have hsize : (Rune.char '\n').size = 1 := rfl
        omega]
      rfl
  · obtain ⟨p, t, bytes, hsplit, ht, hp, hread⟩ :=
      limitReader_of_lt_size (n := maxReply) (s := (Json.obj fields).encode ++ [.char '\n']) (by
        rw [Str.size_append]
        omega)
    rw [hread]
    rcases List.append_eq_append_iff.mp hsplit with ⟨u, rfl, hu⟩ | ⟨u, hu, -⟩
    · rw [Str.size_append] at hp
      omega
    · refine parse_cut hwf hu ?_ bytes
      rintro rfl
      rw [List.append_nil] at hu
      rw [← hu] at hp
      exact hfits hp

end WeighingSync.Go
