import GeminiWorker.Spec.AdminLogs
import Mathlib.Data.List.Induction

/-!
# What the admin log buffer keeps

* `logged_run`: the buffer has the end of what was pushed, in the order in which the calls were let in.
* `keepsHighest_iff`: this is the order of the ids exactly where the calls are let in as they
  have drawn them.
-/

namespace GeminiWorker

open Transition (run)
open BoundedLog (KeepsTop)

variable {ρ : Type}

/-- What the state has of the entries that were pushed, in this order. -/
structure Logged (events : List (AdminLogEvent ρ)) (logs : AdminLogs ρ) (pushed : List (AdminLogEntry ρ)) :
    Prop where
  nextId : logs.buffer.nextId = .ofNat logs.calls.length
  waiting : ∀ call entry, logs.calls[call]? = some (.waiting entry) → entry.id = recordId call
  entries : logs.buffer.entries = pushed.reverse.take ADMIN_LOG_CAPACITY
  completed : logs.completed.Perm pushed
  ids : pushed.map AdminLogEntry.id = (entered events).map recordId

theorem entered_append (events events' : List (AdminLogEvent ρ)) :
    entered (events ++ events') = entered events ++ entered events' := List.filterMap_append ..

theorem logged_init : Logged [] (AdminLogs.init : AdminLogs ρ) [] where
  nextId := rfl
  waiting call entry hcall := by cases hcall
  entries := rfl
  completed := .refl _
  ids := rfl

/-! ## One step -/

variable {events : List (AdminLogEvent ρ)} {logs logs' : AdminLogs ρ} {pushed : List (AdminLogEntry ρ)}

/-- What a step can be. -/
theorem AdminLogs.step_cases {event : AdminLogEvent ρ} (hstep : logs.step event = some logs') :
    (∃ entry, event = .draws entry ∧ logs' = ⟨{ logs.buffer with nextId := logs.buffer.nextId + 1 },
      logs.calls ++ [.waiting { entry with id := logs.buffer.nextId + 1 }]⟩) ∨
    (∃ call entry, event = .enters call ∧ logs.calls[call]? = some (.waiting entry) ∧
      logs' = ⟨logs.buffer.push entry, logs.calls.set call (.completed entry)⟩) ∨
    (∃ call entry, event = .drops call ∧ logs.calls[call]? = some (.waiting entry) ∧
      logs' = { logs with calls := logs.calls.set call .dropped }) := by
  rcases event with entry | call | call
  · exact .inl ⟨entry, rfl, (Option.some.inj hstep).symm⟩
  · rcases hcall : logs.calls[call]? with _ | entry | entry | _ <;>
      simp only [step, hcall, Option.some.injEq, reduceCtorEq] at hstep
    exact .inr (.inl ⟨call, entry, rfl, hcall, hstep.symm⟩)
  · rcases hcall : logs.calls[call]? with _ | entry | entry | _ <;>
      simp only [step, hcall, Option.some.injEq, reduceCtorEq] at hstep
    exact .inr (.inr ⟨call, entry, rfl, hcall, hstep.symm⟩)

/-- A call that no longer waits leaves the others waiting with their ids. -/
theorem Logged.waiting_set (h : Logged events logs pushed) {call : ℕ} {next : RecordCall ρ}
    (hnext : ∀ entry, next ≠ .waiting entry) (other : ℕ) (entry : AdminLogEntry ρ)
    (hother : (logs.calls.set call next)[other]? = some (.waiting entry)) : entry.id = recordId other := by
  rw [List.getElem?_set] at hother
  split at hother
  · split at hother
    · exact absurd (Option.some.inj hother) (hnext entry)
    · cases hother
  · exact h.waiting other entry hother

theorem Logged.draws (h : Logged events logs pushed) (entry : AdminLogEntry ρ) :
    Logged (events ++ [.draws entry]) ⟨{ logs.buffer with nextId := logs.buffer.nextId + 1 },
      logs.calls ++ [.waiting { entry with id := logs.buffer.nextId + 1 }]⟩ pushed where
  nextId := by
    rw [List.length_append, List.length_singleton, Int64.ofNat_add, h.nextId]
    rfl
  waiting call entry' hcall := by
    have hid : logs.buffer.nextId + 1 = recordId logs.calls.length := by
      rw [h.nextId, recordId, Int64.ofNat_add]
      rfl
    rcases Nat.lt_or_ge call logs.calls.length with hold | hnew
    · rw [List.getElem?_append_left hold] at hcall
      exact h.waiting call entry' hcall
    · rw [List.getElem?_append_right hnew, List.getElem?_singleton] at hcall
      split at hcall
      · cases hcall
        rw [hid, show call = logs.calls.length by omega]
      · cases hcall
  entries := h.entries
  completed := by
    simp only [AdminLogs.completed, List.filterMap_append, List.filterMap_cons, RecordCall.recorded,
      List.filterMap_nil, List.append_nil]
    exact h.completed
  ids := by
    rw [entered_append, h.ids]
    simp only [entered, List.filterMap_cons, List.filterMap_nil, List.append_nil]

/-- The entry of the call that is let in is the last. -/
theorem Logged.enters (h : Logged events logs pushed) {call : ℕ} {entry : AdminLogEntry ρ}
    (hcall : logs.calls[call]? = some (.waiting entry)) :
    Logged (events ++ [.enters call]) ⟨logs.buffer.push entry, logs.calls.set call (.completed entry)⟩
      (pushed ++ [entry]) where
  nextId := by
    rw [List.length_set]
    exact h.nextId
  waiting := h.waiting_set fun entry h => by cases h
  entries := by
    rw [AdminLogBuffer.push, h.entries, List.reverse_append]
    exact BoundedLog.trim_cons_take ADMIN_LOG_CAPACITY entry pushed.reverse
  completed := by
    obtain ⟨rest, hold, hnew⟩ := Transition.filterMap_set_perm RecordCall.recorded hcall
    have hpushed := (hnew (.completed entry)).trans ((hold.symm.trans h.completed).cons entry)
    exact hpushed.trans (List.perm_append_singleton entry pushed).symm
  ids := by
    rw [entered_append, List.map_append, List.map_append, h.ids, List.map_singleton, h.waiting call entry hcall]
    rfl

theorem Logged.drops (h : Logged events logs pushed) {call : ℕ} {entry : AdminLogEntry ρ}
    (hcall : logs.calls[call]? = some (.waiting entry)) :
    Logged (events ++ [.drops call]) { logs with calls := logs.calls.set call .dropped } pushed where
  nextId := by
    rw [List.length_set]
    exact h.nextId
  waiting := h.waiting_set fun entry h => by cases h
  entries := h.entries
  completed := by
    obtain ⟨rest, hold, hnew⟩ := Transition.filterMap_set_perm RecordCall.recorded hcall
    exact (hnew .dropped).trans (hold.symm.trans h.completed)
  ids := by
    rw [entered_append, h.ids]
    simp only [entered, List.filterMap_cons, List.filterMap_nil, List.append_nil]

/-! ## A run -/

/-- The buffer has the end of what was pushed. -/
theorem logged_run (hrun : run AdminLogs.step .init events = some logs) : ∃ pushed, Logged events logs pushed := by
  induction events using List.reverseRecOn generalizing logs with
  | nil =>
    obtain rfl := Option.some.inj hrun
    exact ⟨[], logged_init⟩
  | append_singleton events event ih =>
    rw [Transition.run_append] at hrun
    obtain ⟨before, hbefore, hlast⟩ := Option.bind_eq_some_iff.mp hrun
    obtain ⟨pushed, hlogged⟩ := ih hbefore
    obtain ⟨next, hnext, hend⟩ := Option.bind_eq_some_iff.mp hlast
    obtain rfl := Option.some.inj hend
    obtain ⟨entry, rfl, rfl⟩ | ⟨call, entry, rfl, hcall, rfl⟩ | ⟨call, entry, rfl, hcall, rfl⟩ :=
      AdminLogs.step_cases hnext
    · exact ⟨pushed, hlogged.draws entry⟩
    · exact ⟨pushed ++ [entry], hlogged.enters hcall⟩
    · exact ⟨pushed, hlogged.drops hcall⟩

/-- **The snapshot has the records with the highest ids, in the order of the ids, exactly where
the last calls were let in after the calls with lower ids.** -/
theorem keepsHighest_iff (hrun : run AdminLogs.step .init events = some logs) :
    logs.KeepsHighest ↔ EntersInOrder (entered events) := by
  obtain ⟨pushed, hlogged⟩ := logged_run hrun
  rw [AdminLogs.KeepsHighest, AdminLogBuffer.snapshotLogs, hlogged.entries,
    BoundedLog.keepsTop_pushed_iff hlogged.completed]
  have hlength : pushed.length = (entered events).length := by
    rw [← List.length_map AdminLogEntry.id, hlogged.ids, List.length_map]
  -- the entries that were pushed have the ids of the calls
  have hids : ∀ i : ℕ, pushed[i]?.map AdminLogEntry.id = (entered events)[i]?.map recordId := by
    intro i
    rw [← List.getElem?_map, hlogged.ids, List.getElem?_map]
  constructor
  · intro hhigher i j call call' hij hrecent hcall hcall'
    have hentry := hids i
    have hentry' := hids j
    rw [hcall, Option.map_some, Option.map_eq_some_iff] at hentry
    rw [hcall', Option.map_some, Option.map_eq_some_iff] at hentry'
    obtain ⟨entry, hentry, hid⟩ := hentry
    obtain ⟨entry', hentry', hid'⟩ := hentry'
    rw [← hid, ← hid']
    exact hhigher i j entry entry' hij (by omega) hentry hentry'
  · intro horder i j entry entry' hij hrecent hentry hentry'
    have hcall := hids i
    have hcall' := hids j
    rw [hentry, Option.map_some, eq_comm, Option.map_eq_some_iff] at hcall
    rw [hentry', Option.map_some, eq_comm, Option.map_eq_some_iff] at hcall'
    obtain ⟨call, hcall, hid⟩ := hcall
    obtain ⟨call', hcall', hid'⟩ := hcall'
    rw [← hid, ← hid']
    exact horder i j call call' hij (by omega) hcall hcall'

theorem recordId_lt {call call' : ℕ} (hcall : call < call') (hfew : call' + 1 < 2 ^ 63) :
    recordId call < recordId call' := by
  rw [Int64.lt_iff_toInt_lt, recordId, recordId, Int64.toInt_ofNat_of_lt (by omega),
    Int64.toInt_ofNat_of_lt hfew]
  omega

/-- Calls that are let in as they have drawn their ids, as long as the ids do not wrap. -/
theorem entersInOrder_of_sorted {calls : List ℕ} (hsorted : calls.Pairwise (· < ·))
    (hfew : ∀ call ∈ calls, call + 1 < 2 ^ 63) : EntersInOrder calls := by
  intro i j call call' hij _ hcall hcall'
  apply recordId_lt _ (hfew call' (List.mem_of_getElem? hcall'))
  obtain ⟨hi, rfl⟩ := List.getElem?_eq_some_iff.mp hcall
  obtain ⟨hj, rfl⟩ := List.getElem?_eq_some_iff.mp hcall'
  exact List.pairwise_iff_getElem.mp hsorted i j hi hj hij

/-- Calls that are let in as they have drawn their ids, but for one that is dropped. -/
theorem keepsHighest_example :
    ∃ logs, run AdminLogs.step .init [.draws ⟨0, "a"⟩, .draws ⟨0, "b"⟩, .draws ⟨0, "c"⟩, .enters 0, .drops 1,
      .enters 2] = some logs ∧ logs.KeepsHighest := by
  let events : List (AdminLogEvent String) :=
    [.draws ⟨0, "a"⟩, .draws ⟨0, "b"⟩, .draws ⟨0, "c"⟩, .enters 0, .drops 1, .enters 2]
  obtain ⟨logs, hrun⟩ : ∃ logs, run AdminLogs.step .init events = some logs := ⟨_, rfl⟩
  have horder : EntersInOrder (entered events) := entersInOrder_of_sorted (by decide) (by decide)
  exact ⟨logs, hrun, (keepsHighest_iff hrun).mpr horder⟩

/-- **Two calls that are let in the other way round.** The lower id is in front. -/
theorem lowerId_in_front :
    ∃ logs, run AdminLogs.step .init [.draws ⟨0, "a"⟩, .draws ⟨0, "b"⟩, .enters 1, .enters 0] = some logs ∧
      logs.Idle ∧ ¬ logs.KeepsHighest := by
  refine ⟨⟨⟨2, [⟨1, "a"⟩, ⟨2, "b"⟩]⟩, [.completed ⟨1, "a"⟩, .completed ⟨2, "b"⟩]⟩, ?_, ?_, ?_⟩
  · simp only [run, AdminLogs.step, AdminLogBuffer.push, BoundedLog.trim_eq_take]
    rfl
  · intro entry hmem
    simp only [List.mem_cons, reduceCtorEq, List.not_mem_nil, or_self] at hmem
  · intro hkeeps
    exact absurd hkeeps.sorted (by decide)

end GeminiWorker
