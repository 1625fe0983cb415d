import WeighingSync.Common.Locked
import WeighingSync.Engine.Edits

/-!
# The daemon and its scheduler

`run_daemon` and `start_scheduler` of `src/main.rs`: a cycle at the start if `sync_on_start` is set, and
then a task for every time of the schedule, each of which locks the engine for one cycle. Tasks pile up
while a cycle lasts, but no two of them are in a cycle, and all that they do is what one engine does with
its cycles one after the other (`daemon_serializes`). So what holds of the runs of the engine holds of the
daemon.
-/

namespace WeighingSync.Engine

open Worker

namespace Setup

variable (S : Setup)

/-- A cycle as a session: whether it has read its batch, and where it is. It may end whenever the engine is
idle, also without a batch: the query failed or found nothing. -/
def cycleWorker : Worker (List WeightRow) (Bool × Phase) Action (ℕ × WeightRow) where
  start := (false, .idle)
  done p :=
    match p.2 with
    | .idle => true
    | _ => false
  work rows p a :=
    match a with
    | .edit _ _ => none
    | .fetch =>
        if p.1 then none
        else (S.step ⟨rows, p.2⟩ .fetch).map fun s => (s.rows, true, s.phase)
    | a => (S.step ⟨rows, p.2⟩ a).map fun s => (s.rows, p.1, s.phase)
  outside rows edit := edited rows edit.1 edit.2

end Setup

/-! ## The daemon -/

/-- The daemon in its first cycle, or with its scheduler. -/
inductive Daemon
  | starting (rows : List WeightRow) (p : Bool × Phase)
  | serving (pool : Pool (List WeightRow) (Bool × Phase))

/-- What happens to a daemon: a step of its first cycle, the end of it, a turn of the tasks of the
scheduler, or an edit. -/
inductive Event
  | startup (a : Action)
  | ready
  | turn (t : Turn Action (ℕ × WeightRow))

namespace Setup

variable (S : Setup)

/-- One step of the daemon. -/
def daemonStep : Daemon → Event → Option Daemon
  | .starting rows p, .startup a => (S.cycleWorker.work rows p a).map fun s => .starting s.1 s.2
  | .starting rows p, .ready =>
      if S.cycleWorker.done p then some (.serving ⟨rows, [], none⟩) else none
  | .starting rows p, .turn (.outside b) => some (.starting (S.cycleWorker.outside rows b) p)
  | .serving pool, .turn t => (S.cycleWorker.poolStep pool t).map .serving
  | _, _ => none

/-- `run_daemon`. -/
def daemon (syncOnStart : Bool) : System Daemon Event where
  init s := ∃ rows, s =
    if syncOnStart then .starting rows S.cycleWorker.start else .serving ⟨rows, [], none⟩
  step := S.daemonStep

end Setup

/-- What a worker does as an action of the engine, if it is one. -/
def actionOf : Act Action (ℕ × WeightRow) → Option Action
  | .work a => some a
  | .outside b => some (.edit b.1 b.2)
  | _ => none

/-- The table and the session of a worker as an engine has them. -/
def engineOf (w : List WeightRow × Option (Bool × Phase)) : State := ⟨w.1, w.2.elim .idle Prod.snd⟩

/-- The table and the cycle that is under way, as one engine would have them. -/
def Daemon.engine : Daemon → State
  | .starting rows p => ⟨rows, p.2⟩
  | .serving pool => engineOf pool.worker

/-- What an event is for this engine, if it is anything. -/
def Event.action : Event → Option Action
  | .startup a => some a
  | .ready => none
  | .turn t => t.act.bind actionOf

/-- The task with this number is in its cycle. -/
def Daemon.InCycle (s : Daemon) (i : ℕ) : Prop :=
  ∃ pool p, s = .serving pool ∧ pool.tasks[i]? = some (.working p)

/-- The lock of the tasks is in order. -/
def Daemon.Ordered : Daemon → Prop
  | .starting _ _ => True
  | .serving pool => Locked pool

section

variable {S : Setup} {s s' : Daemon} {e : Event}

/-- The steps of a session are steps of the engine. -/
theorem step_of_work {rows : List WeightRow} {p : Bool × Phase} {a : Action}
    {r : List WeightRow × Bool × Phase} (h : S.cycleWorker.work rows p a = some r) :
    S.step ⟨rows, p.2⟩ a = some ⟨r.1, r.2.2⟩ := by
  cases a with
  | edit i row => cases h
  | fetch =>
      replace h : (if p.1 = true then none else _) = some r := h
      split_ifs at h
      obtain ⟨s, hs, rfl⟩ := Option.map_eq_some_iff.mp h
      exact hs
  | attempt attempt =>
      obtain ⟨s, hs, rfl⟩ := Option.map_eq_some_iff.mp h
      exact hs
  | giveUp | mark | fail =>
      obtain ⟨s, hs, rfl⟩ := Option.map_eq_some_iff.mp h
      exact hs

theorem phase_of_done {p : Bool × Phase} (h : S.cycleWorker.done p = true) : p.2 = .idle := by
  obtain ⟨began, phase⟩ := p
  cases phase with
  | idle => rfl
  | uploading fetched records => cases h
  | marking fetched records remaining => cases h

/-- What a worker does is a step of the engine, or changes nothing for it. -/
theorem engine_of_alone {w w' : List WeightRow × Option (Bool × Phase)} {b : Act Action (ℕ × WeightRow)}
    (h : S.cycleWorker.alone.step w b = some w') :
    (∀ a ∈ actionOf b, S.step (engineOf w) a = some (engineOf w')) ∧
      (actionOf b = none → engineOf w' = engineOf w) := by
  obtain ⟨rows, session⟩ := w
  cases b with
  | enter =>
      replace h : (if session.isNone = true then _ else none) = some w' := h
      split_ifs at h with hnone
      cases h
      -- the engine was idle, as it is at the start of a session
      refine ⟨fun a ha => (by cases ha), fun _ => ?_⟩
      rw [Option.isNone_iff_eq_none.mp hnone]
      rfl
  | work a =>
      obtain ⟨p, rfl, h⟩ := Option.bind_eq_some_iff.mp h
      obtain ⟨r, hr, rfl⟩ := Option.map_eq_some_iff.mp h
      refine ⟨fun a' ha => ?_, fun hnone => (by cases hnone)⟩
      cases ha
      exact step_of_work hr
  | finish =>
      replace h : (if session.any S.cycleWorker.done = true then _ else none) = some w' := h
      split_ifs at h with hdone
      cases h
      obtain ⟨p, rfl, hp⟩ := (Option.any_eq_true _ _).mp hdone
      refine ⟨fun a ha => (by cases ha), fun _ => ?_⟩
      show State.mk rows .idle = ⟨rows, p.2⟩
      rw [phase_of_done hp]
  | outside c =>
      cases h
      refine ⟨fun a ha => ?_, fun hnone => (by cases hnone)⟩
      cases ha
      rfl

/-- An event keeps the lock in order, and is one step of the engine or none at all. -/
theorem daemonStep_spec (h : s.Ordered) (hstep : S.daemonStep s e = some s') : s'.Ordered ∧
    (∀ a ∈ e.action, S.step s.engine a = some s'.engine) ∧ (e.action = none → s'.engine = s.engine) := by
  cases s with
  | starting rows p =>
      cases e with
      | startup a =>
          -- there is no other task yet, and so no lock
          obtain ⟨r, hr, rfl⟩ := Option.map_eq_some_iff.mp hstep
          refine ⟨trivial, fun a' ha => ?_, fun hnone => (by cases hnone)⟩
          cases ha
          exact step_of_work hr
      | ready =>
          replace hstep : (if _ then _ else none) = some s' := hstep
          split_ifs at hstep with hdone
          cases hstep
          refine ⟨⟨fun i p hi => (by cases hi), fun i hi => (by cases hi)⟩, fun a ha => (by cases ha),
            fun _ => ?_⟩
          show State.mk rows .idle = ⟨rows, p.2⟩
          rw [phase_of_done hdone]
      | turn t =>
          cases t with
          | outside b =>
              cases hstep
              refine ⟨trivial, fun a ha => ?_, fun hnone => (by cases hnone)⟩
              cases ha
              rfl
          | spawn => cases hstep
          | acquire i => cases hstep
          | work i a => cases hstep
          | release i => cases hstep
  | serving pool =>
      cases e with
      | startup a => cases hstep
      | ready => cases hstep
      | turn t =>
          obtain ⟨pool', hpool', rfl⟩ := Option.map_eq_some_iff.mp hstep
          obtain ⟨hlocked, hact, hnone⟩ := poolStep_spec h hpool'
          refine ⟨hlocked, fun a ha => ?_, fun hsame => ?_⟩
          · -- two steps of abstraction: the turn for one worker, and the worker for the engine
            obtain ⟨b, hb, ha⟩ := Option.bind_eq_some_iff.mp ha
            exact (engine_of_alone (hact b hb)).1 a ha
          · rcases ht : t.act with _ | b
            · show engineOf pool'.worker = engineOf pool.worker
              rw [hnone ht]
            · rw [Event.action, ht] at hsame
              exact (engine_of_alone (hact b ht)).2 hsame

end

/-- Whatever the daemon does, no two of its tasks are in a cycle, and one engine does the same with its cycles
one after the other, by steps that meet the same conditions. -/
theorem daemon_serializes (S : Setup) (syncOnStart : Bool) (K : State → Action → Prop) {s : Daemon}
    (h : (S.daemon syncOnStart).ReachedBy (fun s e => ∀ a ∈ e.action, K s.engine a) s) :
    S.cycles.ReachedBy K s.engine ∧ ∀ i j, s.InCycle i → s.InCycle j → i = j := by
  have hsimulates : (S.daemon syncOnStart).Simulates (fun s e => ∀ a ∈ e.action, K s.engine a) S.cycles K
      fun s t => s.Ordered ∧ t = s.engine := by
    refine System.simulates_of_map Daemon.engine Event.action K (fun s hs => ?_) fun s e s' => daemonStep_spec
    obtain ⟨rows, rfl⟩ := hs
    cases syncOnStart with
    | true => exact ⟨trivial, rfl⟩
    | false => exact ⟨⟨fun i p hi => (by cases hi), fun i hi => (by cases hi)⟩, rfl⟩
  obtain ⟨t, ht, hordered, rfl⟩ := hsimulates.reachedBy h
  refine ⟨ht, fun i j hi hj => ?_⟩
  obtain ⟨pool, p, rfl, hi⟩ := hi
  obtain ⟨pool', q, hsame, hj⟩ := hj
  cases hsame
  exact eq_of_working hordered hi hj

/-- A daemon whose schedule comes round twice while its first task is in a cycle. -/
theorem daemon_serializes_two : ∃ s : Daemon, plainSetup.cycles.ReachedBy (fun _ _ => True) s.engine ∧
    (∀ i j, s.InCycle i → s.InCycle j → i = j) ∧
    (s.engine.rows.length, s.engine.phase.records.length) = (2, 1) := by
  obtain ⟨s, hreached, hend⟩ := System.exists_of_exec (S := plainSetup.daemon false)
    (K := fun _ e => ∀ a ∈ e.action, True) (s := .serving ⟨twoWeights, [], none⟩)
    (l := [.turn .spawn, .turn .spawn, .turn (.acquire 0), .turn (.work 0 .fetch), .turn .spawn])
    (P := fun s => decide ((s.engine.rows.length, s.engine.phase.records.length) = (2, 1)))
    ⟨twoWeights, rfl⟩ (by decide +kernel)
  obtain ⟨hengine, hone⟩ := daemon_serializes plainSetup false (fun _ _ => True) hreached
  exact ⟨s, hengine, hone, of_decide_eq_true hend⟩

end WeighingSync.Engine
