import WeighingSync.Common.Runs

/-!
# Workers behind a lock

Tasks that share a resource and work on it in sessions. Each takes a lock before its session and gives it
back at the end; the steps of a session do not look at the lock. So at most one task is in a session
(`eq_of_working`), and a turn of the tasks is a step of one worker that has its sessions one after the other,
or nothing to it (`poolStep_spec`). Anyone may change the resource meanwhile.
-/

namespace WeighingSync

universe u v w x

/-- The steps of a session on a shared resource, where it begins, and where it may end; and what others may
do with the resource. -/
structure Worker (ρ : Type u) (π : Type v) (α : Type w) (β : Type x) where
  start : π
  done : π → Bool
  work : ρ → π → α → Option (ρ × π)
  outside : ρ → β → ρ

namespace Worker

variable {ρ : Type u} {π : Type v} {α : Type w} {β : Type x}

/-! ## One worker -/

/-- What one worker does. -/
inductive Act (α : Type w) (β : Type x)
  | enter
  | work (a : α)
  | finish
  | outside (b : β)

/-- One worker, with its session if there is one. -/
def alone (W : Worker ρ π α β) : System (ρ × Option π) (Act α β) where
  init s := s.2 = none
  step s
    | .enter => if s.2.isNone then some (s.1, some W.start) else none
    | .work a => s.2.bind fun p => (W.work s.1 p a).map fun s' => (s'.1, some s'.2)
    | .finish => if s.2.any W.done then some (s.1, none) else none
    | .outside b => some (W.outside s.1 b, s.2)

/-! ## Many tasks -/

/-- A task waits for the lock, is in its session, or has ended. -/
inductive Task (π : Type v)
  | waiting
  | working (p : π)
  | finished

/-- The session of a task. -/
def Task.session : Task π → Option π
  | .working p => some p
  | _ => none

/-- The tasks, and the one that holds the lock. -/
structure Pool (ρ : Type u) (π : Type v) where
  shared : ρ
  tasks : List (Task π)
  holder : Option ℕ

/-- What happens to a pool. -/
inductive Turn (α : Type w) (β : Type x)
  | spawn
  | acquire (i : ℕ)
  | work (i : ℕ) (a : α)
  | release (i : ℕ)
  | outside (b : β)

/-- One step of a pool. -/
def poolStep (W : Worker ρ π α β) (s : Pool ρ π) : Turn α β → Option (Pool ρ π)
  | .spawn => some { s with tasks := s.tasks ++ [.waiting] }
  | .acquire i =>
      match s.holder, s.tasks[i]? with
      | none, some .waiting => some { s with tasks := s.tasks.set i (.working W.start), holder := some i }
      | _, _ => none
  | .work i a =>
      match s.tasks[i]? with
      | some (.working p) =>
          (W.work s.shared p a).map fun s' => { s with shared := s'.1, tasks := s.tasks.set i (.working s'.2) }
      | _ => none
  | .release i =>
      match s.tasks[i]? with
      | some (.working p) =>
          if W.done p then some { s with tasks := s.tasks.set i .finished, holder := none } else none
      | _ => none
  | .outside b => some { s with shared := W.outside s.shared b }

/-- The session that is under way. -/
def Pool.session (s : Pool ρ π) : Option π := s.holder.bind fun i => s.tasks[i]?.bind Task.session

/-- The one worker that a pool amounts to. -/
def Pool.worker (s : Pool ρ π) : ρ × Option π := (s.shared, s.session)

/-- What a turn is for this worker, if it is anything. -/
def Turn.act : Turn α β → Option (Act α β)
  | .spawn => none
  | .acquire _ => some .enter
  | .work _ a => some (.work a)
  | .release _ => some .finish
  | .outside b => some (.outside b)

/-- The lock is held by the task that is in its session, if there is one. -/
structure Locked (s : Pool ρ π) : Prop where
  held : ∀ i p, s.tasks[i]? = some (.working p) → s.holder = some i
  used : ∀ i, s.holder = some i → ∃ p, s.tasks[i]? = some (.working p)

variable {W : Worker ρ π α β} {s s' : Pool ρ π} {t : Turn α β} {i j : ℕ} {p q : π}

theorem session_of_working (h : Locked s) (hi : s.tasks[i]? = some (.working p)) : s.session = some p := by
  rw [Pool.session, h.held i p hi, Option.bind_some, hi]
  rfl

theorem session_of_free (h : s.holder = none) : s.session = none := by
  rw [Pool.session, h, Option.bind_none]

/-- No two tasks are in their sessions. -/
theorem eq_of_working (h : Locked s) (hi : s.tasks[i]? = some (.working p))
    (hj : s.tasks[j]? = some (.working q)) : i = j :=
  Option.some_inj.mp ((h.held i p hi).symm.trans (h.held j q hj))

/-- A task that is new is in no session. -/
theorem working_append_iff (tasks : List (Task π)) :
    (tasks ++ [Task.waiting])[i]? = some (.working p) ↔ tasks[i]? = some (.working p) := by
  rcases Nat.lt_or_ge i tasks.length with hlt | hge
  · rw [List.getElem?_append_left hlt]
  · rw [List.getElem?_append_right hge, List.getElem?_eq_none hge]
    rcases i - tasks.length with _ | n
    · exact ⟨fun h => (by cases h), fun h => (by cases h)⟩
    · exact ⟨fun h => (by cases h), fun h => (by cases h)⟩

theorem locked_spawn (h : Locked s) : Locked { s with tasks := s.tasks ++ [Task.waiting] } where
  held _ _ hi := h.held _ _ ((working_append_iff s.tasks).mp hi)
  used i hi := (h.used i hi).imp fun _ hp => (working_append_iff s.tasks).mpr hp

/-- The one task that may hold the lock begins its session. -/
theorem locked_acquire (h : Locked s) (hfree : s.holder = none) (hi : s.tasks[i]? = some .waiting) (p : π) :
    Locked { s with tasks := s.tasks.set i (.working p), holder := some i } := by
  obtain ⟨hlt, -⟩ := List.getElem?_eq_some_iff.mp hi
  refine ⟨fun j q hj => ?_, fun j hj => ?_⟩
  · rw [List.getElem?_set] at hj
    split_ifs at hj with hij
    · rw [hij]
    · -- another task in its session would hold the lock
      rw [h.held j q hj] at hfree
      cases hfree
  · cases hj
    exact ⟨p, List.getElem?_set_self hlt⟩

/-- A task goes on with its session. -/
theorem locked_work (h : Locked s) (hi : s.tasks[i]? = some (.working p)) (shared : ρ) (q : π) :
    Locked { s with shared := shared, tasks := s.tasks.set i (.working q) } := by
  obtain ⟨hlt, -⟩ := List.getElem?_eq_some_iff.mp hi
  refine ⟨fun j r hj => ?_, fun j hj => ?_⟩
  · rw [List.getElem?_set] at hj
    split_ifs at hj with hij
    · exact hij ▸ h.held i p hi
    · exact h.held j r hj
  · obtain rfl : i = j := Option.some_inj.mp ((h.held i p hi).symm.trans hj)
    exact ⟨q, List.getElem?_set_self hlt⟩

/-- A task ends its session, and no other one is in a session. -/
theorem locked_release (h : Locked s) (hi : s.tasks[i]? = some (.working p)) :
    Locked { s with tasks := s.tasks.set i .finished, holder := none } := by
  refine ⟨fun j q hj => ?_, fun j hj => by cases hj⟩
  rw [List.getElem?_set] at hj
  split_ifs at hj with hij
  · cases hj
  · exact absurd (eq_of_working h hi hj) hij

/-- A turn keeps the lock in order, and is one step of the worker or none at all. -/
theorem poolStep_spec (h : Locked s) (hstep : W.poolStep s t = some s') : Locked s' ∧
    (∀ b ∈ t.act, W.alone.step s.worker b = some s'.worker) ∧ (t.act = none → s'.worker = s.worker) := by
  cases t with
  | spawn =>
      cases hstep
      have hlocked := locked_spawn h
      -- a task that waits changes nothing for the session that is under way
      refine ⟨hlocked, fun b hb => (by cases hb), fun _ => Prod.ext rfl ?_⟩
      by_cases hfree : s.holder = none
      · have hfree' : Pool.holder { s with tasks := s.tasks ++ [Task.waiting] } = none := hfree
        exact (session_of_free hfree').trans (session_of_free hfree).symm
      · obtain ⟨i, hholder⟩ := Option.ne_none_iff_exists'.mp hfree
        obtain ⟨p, hp⟩ := h.used i hholder
        have hsession := session_of_working hlocked ((working_append_iff s.tasks).mpr hp)
        exact hsession.trans (session_of_working h hp).symm
  | acquire i =>
      simp only [poolStep] at hstep
      split at hstep
      · next hfree hi =>
        cases hstep
        obtain ⟨hlt, -⟩ := List.getElem?_eq_some_iff.mp hi
        have hlocked := locked_acquire h hfree hi W.start
        refine ⟨hlocked, fun b hb => ?_, fun hnone => by cases hnone⟩
        cases hb
        -- the lock was free, so that the worker had no session
        rw [Pool.worker, Pool.worker, session_of_working hlocked (List.getElem?_set_self hlt),
          session_of_free hfree]
        rfl
      · cases hstep
  | work i a =>
      simp only [poolStep] at hstep
      split at hstep
      · next p hi =>
        obtain ⟨r, hwork, rfl⟩ := Option.map_eq_some_iff.mp hstep
        obtain ⟨hlt, -⟩ := List.getElem?_eq_some_iff.mp hi
        have hlocked := locked_work h hi r.1 r.2
        refine ⟨hlocked, fun b hb => ?_, fun hnone => by cases hnone⟩
        cases hb
        rw [Pool.worker, Pool.worker, session_of_working h hi,
          session_of_working hlocked (List.getElem?_set_self hlt)]
        show (W.work s.shared p a).map _ = _
        rw [hwork]
        rfl
      · cases hstep
  | release i =>
      simp only [poolStep] at hstep
      split at hstep
      · next p hi =>
        split_ifs at hstep with hdone
        cases hstep
        -- the lock is free, also if other tasks wait for it
        refine ⟨locked_release h hi, fun b hb => ?_, fun hnone => by cases hnone⟩
        cases hb
        rw [Pool.worker, Pool.worker, session_of_working h hi]
        show (if _ then _ else _) = _
        rw [if_pos (by simpa using hdone)]
        rfl
      · cases hstep
  | outside b =>
      cases hstep
      refine ⟨⟨h.held, h.used⟩, fun c hc => ?_, fun hnone => by cases hnone⟩
      cases hc
      rfl

end Worker

end WeighingSync
