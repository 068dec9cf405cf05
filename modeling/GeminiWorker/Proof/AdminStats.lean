import GeminiWorker.Proof.AdminLogs
import GeminiWorker.Spec.AdminState

/-!
# What is counted, and what is logged

* `AdminCalls.step_cases`: what a step of the calls can be.
* `Counted.run`: what the statistics and the log have of the calls, in every state of a run.
* `adminStats_conserved`: nothing is lost of what is added, and no request is logged that is not counted.
-/

namespace GeminiWorker

open Transition (run)
open Counters (added)

/-- The entry of a call that starts. -/
def AdminEvent.entry : AdminEvent → Option AdminLogRecord
  | .finalizes entry => some entry
  | _ => none

/-- The addition of an observer that is told of a hit. -/
def AdminEvent.hit : AdminEvent → Option (AdminCounter × Int64)
  | .hitsCache => some (.cacheHits, 1)
  | _ => none

/-- The entries of the calls that have started, in this order. -/
def finalized (events : List AdminEvent) : List AdminLogRecord := events.filterMap AdminEvent.entry

def cacheHits (events : List AdminEvent) : List (AdminCounter × Int64) := events.filterMap AdminEvent.hit

theorem finalized_concat {event : AdminEvent} (h : event.entry = none) (events : List AdminEvent) :
    finalized (events ++ [event]) = finalized events := by
  rw [finalized, List.filterMap_append, List.filterMap_cons_none h, List.filterMap_nil, List.append_nil, finalized]

theorem cacheHits_concat {event : AdminEvent} (h : event.hit = none) (events : List AdminEvent) :
    cacheHits (events ++ [event]) = cacheHits events := by
  rw [cacheHits, List.filterMap_append, List.filterMap_cons_none h, List.filterMap_nil, List.append_nil, cacheHits]

/-- What a request adds to a counter. -/
def contribution (entry : AdminLogRecord) : AdminCounter → Int64
  | .totalRequests => 1
  | .errorRequests => if 400 ≤ entry.statusCode then 1 else 0
  | .totalDurationMs => entry.durationMs
  | .requestParseMs => entry.requestParseMs
  | .requestImagePrepareMs => entry.requestImagePrepareMs
  | .requestImageMaterializeMs => entry.requestImageMaterializeMs
  | .requestImageFetchWorkMs => entry.requestImageFetchWorkMs
  | .requestImageStoreWorkMs => entry.requestImageStoreWorkMs
  | .requestEncodeMs => entry.requestEncodeMs
  | .upstreamBuildMs => entry.upstreamBuildMs
  | .responseProcessMs => entry.responseProcessMs
  | .uploadMs => entry.uploadMs
  | .cacheHits => 0

/-- No counter is added to twice for a request. -/
theorem added_applyAdminStats (entry : AdminLogRecord) (counter : AdminCounter) :
    added (applyAdminStats entry) counter = contribution entry counter := by
  unfold added applyAdminStats contribution
  by_cases herror : 400 ≤ entry.statusCode <;> cases counter <;> simp [herror]

/-- The record of a call of `record` that has not been dropped. -/
def RecordCall.held {ρ : Type} : RecordCall ρ → Option ρ
  | .waiting entry => some entry.record
  | .completed entry => some entry.record
  | .dropped => none

/-- The entry of a call that has called `record`. -/
def FinalizeCall.recorded : FinalizeCall → Option AdminLogRecord
  | .counting _ _ => none
  | .recording entry => some entry

variable {state state' : AdminCalls} {event : AdminEvent} {events : List AdminEvent}

/-- What a step can be. -/
theorem AdminCalls.step_cases (hstep : state.step event = some state') :
    (∃ entry, event = .finalizes entry ∧
      state' = { state with calls := state.calls ++ [.counting entry (applyAdminStats entry)] }) ∨
    (∃ call entry add left, event = .adds call ∧ state.calls[call]? = some (.counting entry (add :: left)) ∧
      state' = { state with
        stats := Counters.fetchAdd state.stats add.1 add.2
        calls := state.calls.set call (.counting entry left) }) ∨
    (∃ call entry logs, event = .records call ∧ state.calls[call]? = some (.counting entry []) ∧
      state.logs.step (.draws ⟨0, entry⟩) = some logs ∧
      state' = { state with logs, calls := state.calls.set call (.recording entry) }) ∨
    (∃ recordCall logEvent logs, (event = .enters recordCall ∧ logEvent = .enters recordCall ∨
        event = .drops recordCall ∧ logEvent = .drops recordCall) ∧
      state.logs.step logEvent = some logs ∧ state' = { state with logs }) ∨
    (event = .hitsCache ∧ state' = { state with stats := Counters.fetchAdd state.stats .cacheHits 1 }) := by
  rcases event with entry | call | call | recordCall | recordCall | _
  · exact .inl ⟨entry, rfl, (Option.some.inj hstep).symm⟩
  · rcases hcall : state.calls[call]? with _ | ⟨entry, _ | ⟨add, left⟩⟩ | entry <;>
      simp only [step, hcall, Option.some.injEq, reduceCtorEq] at hstep
    exact .inr (.inl ⟨call, entry, add, left, rfl, hcall, hstep.symm⟩)
  · rcases hcall : state.calls[call]? with _ | ⟨entry, _ | ⟨add, left⟩⟩ | entry <;>
      simp only [step, hcall, Option.map_eq_some_iff, reduceCtorEq] at hstep
    obtain ⟨logs, hlogs, rfl⟩ := hstep
    exact .inr (.inr (.inl ⟨call, entry, logs, rfl, hcall, hlogs, rfl⟩))
  · obtain ⟨logs, hlogs, rfl⟩ := Option.map_eq_some_iff.mp hstep
    exact .inr (.inr (.inr (.inl ⟨recordCall, _, logs, .inl ⟨rfl, rfl⟩, hlogs, rfl⟩)))
  · obtain ⟨logs, hlogs, rfl⟩ := Option.map_eq_some_iff.mp hstep
    exact .inr (.inr (.inr (.inl ⟨recordCall, _, logs, .inr ⟨rfl, rfl⟩, hlogs, rfl⟩)))
  · exact .inr (.inr (.inr (.inr ⟨rfl, (Option.some.inj hstep).symm⟩)))

/-- What the statistics and the log have of the calls. -/
structure Counted (events : List AdminEvent) (state : AdminCalls) : Prop where
  entries : state.calls.map FinalizeCall.entry = finalized events
  conserved : ∀ counter, state.stats counter + added (state.calls.flatMap FinalizeCall.left) counter =
    ((finalized events).map fun entry => contribution entry counter).sum + added (cacheHits events) counter
  logged : ∃ logEvents, run AdminLogs.step .init logEvents = some state.logs
  held : (state.logs.calls.filterMap RecordCall.held).Subperm (state.calls.filterMap FinalizeCall.recorded)

/-- A step of the log is one more step of its run. -/
theorem logged_step {logs logs' : AdminLogs AdminLogRecord} {logEvent : AdminLogEvent AdminLogRecord}
    (hlogged : ∃ logEvents, run AdminLogs.step .init logEvents = some logs) (hstep : logs.step logEvent = some logs') :
    ∃ logEvents, run AdminLogs.step .init logEvents = some logs' := by
  obtain ⟨logEvents, hrun⟩ := hlogged
  refine ⟨logEvents ++ [logEvent], ?_⟩
  rw [Transition.run_append, hrun, Option.bind_some, run, hstep, Option.bind_some, run]

/-! ## One step -/

theorem Counted.finalizes (h : Counted events state) (entry : AdminLogRecord) :
    Counted (events ++ [.finalizes entry])
      { state with calls := state.calls ++ [.counting entry (applyAdminStats entry)] } where
  entries := by
    have hnew : finalized (events ++ [.finalizes entry]) = finalized events ++ [entry] := List.filterMap_append ..
    rw [hnew, List.map_append, h.entries]
    rfl
  conserved counter := by
    have hnew : finalized (events ++ [.finalizes entry]) = finalized events ++ [entry] := List.filterMap_append ..
    have hhits : cacheHits (events ++ [.finalizes entry]) = cacheHits events := cacheHits_concat rfl events
    have hleft : (state.calls ++ [FinalizeCall.counting entry (applyAdminStats entry)]).flatMap FinalizeCall.left =
        state.calls.flatMap FinalizeCall.left ++ applyAdminStats entry := by
      rw [List.flatMap_append, List.flatMap_singleton]
      rfl
    rw [hnew, hhits, hleft, Counters.added_append, added_applyAdminStats, ← add_assoc, h.conserved counter,
      List.map_append, List.sum_append, List.map_singleton, List.sum_singleton, add_right_comm]
  logged := h.logged
  held := by
    have hsame : (state.calls ++ [FinalizeCall.counting entry (applyAdminStats entry)]).filterMap FinalizeCall.recorded =
        state.calls.filterMap FinalizeCall.recorded := by
      rw [List.filterMap_append]
      exact List.append_nil _
    rw [hsame]
    exact h.held

/-- The entry of a call stays. -/
theorem map_entry_set {calls : List FinalizeCall} {call : ℕ} {before after : FinalizeCall}
    (hcall : calls[call]? = some before) (hsame : after.entry = before.entry) :
    (calls.set call after).map FinalizeCall.entry = calls.map FinalizeCall.entry := by
  have hentry : (calls.map FinalizeCall.entry)[call]? = some after.entry := by
    rw [List.getElem?_map, hcall, Option.map_some, hsame]
  obtain ⟨hlt, heq⟩ := List.getElem?_eq_some_iff.mp hentry
  rw [List.map_set, ← heq]
  exact List.set_getElem_self hlt

theorem Counted.adds (h : Counted events state) {call : ℕ} {entry : AdminLogRecord} {add : AdminCounter × Int64}
    {left : List (AdminCounter × Int64)} (hcall : state.calls[call]? = some (.counting entry (add :: left))) :
    Counted (events ++ [.adds call]) { state with
      stats := Counters.fetchAdd state.stats add.1 add.2
      calls := state.calls.set call (.counting entry left) } where
  entries := by
    have hsame : finalized (events ++ [.adds call]) = finalized events := finalized_concat rfl events
    rw [hsame, ← h.entries]
    exact map_entry_set hcall rfl
  conserved counter := by
    have hsame : finalized (events ++ [.adds call]) = finalized events := finalized_concat rfl events
    have hhits : cacheHits (events ++ [.adds call]) = cacheHits events := cacheHits_concat rfl events
    rw [hsame, hhits, ← h.conserved counter]
    exact Counters.fetchAdd_flatMap_set hcall rfl state.stats counter
  logged := h.logged
  held := by
    obtain ⟨rest, hold, hnew⟩ := Transition.filterMap_set_perm FinalizeCall.recorded hcall
    exact h.held.trans (hold.trans (hnew (.counting entry left)).symm).subperm

theorem Counted.records (h : Counted events state) {call : ℕ} {entry : AdminLogRecord} {logs : AdminLogs AdminLogRecord}
    (hcall : state.calls[call]? = some (.counting entry [])) (hlogs : state.logs.step (.draws ⟨0, entry⟩) = some logs) :
    Counted (events ++ [.records call])
      { state with logs, calls := state.calls.set call (.recording entry) } where
  entries := by
    have hsame : finalized (events ++ [.records call]) = finalized events := finalized_concat rfl events
    rw [hsame, ← h.entries]
    exact map_entry_set hcall rfl
  conserved counter := by
    have hsame : finalized (events ++ [.records call]) = finalized events := finalized_concat rfl events
    have hhits : cacheHits (events ++ [.records call]) = cacheHits events := cacheHits_concat rfl events
    obtain ⟨rest, hold, hnew⟩ := Counters.added_flatMap_set FinalizeCall.left hcall (.recording entry) counter
    have hnothing : FinalizeCall.left (.counting entry []) = FinalizeCall.left (.recording entry) := rfl
    rw [hsame, hhits, ← h.conserved counter, hold, hnew, hnothing]
  logged := logged_step h.logged hlogs
  held := by
    obtain ⟨rest, hold, hnew⟩ := Transition.filterMap_set_perm FinalizeCall.recorded hcall
    obtain rfl := Option.some.inj hlogs
    -- both lists get the entry
    have hdrawn : (state.logs.calls ++ [RecordCall.waiting ⟨state.logs.buffer.nextId + 1, entry⟩]).filterMap RecordCall.held =
        state.logs.calls.filterMap RecordCall.held ++ [entry] := List.filterMap_append ..
    have hboth : (state.logs.calls.filterMap RecordCall.held ++ [entry]).Subperm (entry :: rest) :=
      (List.perm_append_singleton entry _).subperm.trans ((List.subperm_cons entry).mpr (h.held.trans hold.subperm))
    exact (hdrawn ▸ hboth).trans (hnew (.recording entry)).symm.subperm

theorem Counted.logs (h : Counted events state) {recordCall : ℕ} {logEvent : AdminLogEvent AdminLogRecord}
    {logs : AdminLogs AdminLogRecord} (hevent : event = .enters recordCall ∧ logEvent = .enters recordCall ∨
      event = .drops recordCall ∧ logEvent = .drops recordCall) (hlogs : state.logs.step logEvent = some logs) :
    Counted (events ++ [event]) { state with logs } where
  entries := by
    have hnone : event.entry = none := by rcases hevent with ⟨rfl, -⟩ | ⟨rfl, -⟩ <;> rfl
    rw [finalized_concat hnone]
    exact h.entries
  conserved counter := by
    have hnone : event.entry = none := by rcases hevent with ⟨rfl, -⟩ | ⟨rfl, -⟩ <;> rfl
    have hnohit : event.hit = none := by rcases hevent with ⟨rfl, -⟩ | ⟨rfl, -⟩ <;> rfl
    rw [finalized_concat hnone, cacheHits_concat hnohit]
    exact h.conserved counter
  logged := logged_step h.logged hlogs
  held := by
    obtain ⟨entry, rfl, -⟩ | ⟨call, entry, -, hcall, rfl⟩ | ⟨call, entry, -, hcall, rfl⟩ := AdminLogs.step_cases hlogs
    · rcases hevent with ⟨-, hevent⟩ | ⟨-, hevent⟩ <;> cases hevent
    · -- a call that is let in keeps its entry
      obtain ⟨rest, hold, hnew⟩ := Transition.filterMap_set_perm RecordCall.held hcall
      exact ((hnew (.completed entry)).trans hold.symm).subperm.trans h.held
    · obtain ⟨rest, hold, hnew⟩ := Transition.filterMap_set_perm RecordCall.held hcall
      have hdropped : ((state.logs.calls.set call .dropped).filterMap RecordCall.held).Subperm rest := (hnew .dropped).subperm
      exact hdropped.trans ((List.sublist_append_right _ rest).subperm.trans (hold.symm.subperm.trans h.held))

theorem Counted.hitsCache (h : Counted events state) :
    Counted (events ++ [.hitsCache]) { state with stats := Counters.fetchAdd state.stats .cacheHits 1 } where
  entries := by
    have hsame : finalized (events ++ [.hitsCache]) = finalized events := finalized_concat rfl events
    rw [hsame]
    exact h.entries
  conserved counter := by
    have hsame : finalized (events ++ [.hitsCache]) = finalized events := finalized_concat rfl events
    have hhits : cacheHits (events ++ [.hitsCache]) = cacheHits events ++ [(.cacheHits, 1)] := List.filterMap_append ..
    have hbefore := h.conserved counter
    have hnow := Counters.fetchAdd_apply state.stats AdminCounter.cacheHits 1 counter
    rw [hsame, hhits, Counters.added_append, ← add_assoc, ← hbefore, add_right_comm, ← hnow]
  logged := h.logged
  held := h.held

/-! ## A run -/

theorem counted_init : Counted [] .init where
  entries := rfl
  conserved _ := rfl
  logged := ⟨[], rfl⟩
  held := .refl _

theorem Counted.run (hrun : run AdminCalls.step .init events = some state) : Counted events state := by
  induction events using List.reverseRecOn generalizing state with
  | nil =>
    obtain rfl := Option.some.inj hrun
    exact counted_init
  | append_singleton events event ih =>
    rw [Transition.run_append] at hrun
    obtain ⟨before, hbefore, hlast⟩ := Option.bind_eq_some_iff.mp hrun
    obtain ⟨next, hnext, hend⟩ := Option.bind_eq_some_iff.mp hlast
    obtain rfl := Option.some.inj hend
    have hcounted := ih hbefore
    obtain ⟨entry, rfl, rfl⟩ | ⟨call, entry, add, left, rfl, hcall, rfl⟩ | ⟨call, entry, logs, rfl, hcall, hlogs, rfl⟩ |
      ⟨recordCall, logEvent, logs, hevent, hlogs, rfl⟩ | ⟨rfl, rfl⟩ := AdminCalls.step_cases hnext
    · exact hcounted.finalizes entry
    · exact hcounted.adds hcall
    · exact hcounted.records hcall hlogs
    · exact hcounted.logs hevent hlogs
    · exact hcounted.hitsCache

/-- A call that has called `record` has made all its additions. -/
theorem recorded_sublist_counted (calls : List FinalizeCall) :
    (calls.filterMap FinalizeCall.recorded).Sublist (calls.filterMap FinalizeCall.counted) := by
  induction calls with
  | nil => exact .slnil
  | cons call calls ih =>
    rcases call with ⟨entry, left⟩ | entry
    · have hnone : FinalizeCall.recorded (.counting entry left) = none := rfl
      rw [List.filterMap_cons_none hnone, List.filterMap_cons]
      split
      · exact ih
      · exact ih.cons _
    · exact ih.cons_cons entry

/-- What is in the log was held by a call of `record`. -/
theorem snapshot_subperm {logs : AdminLogs AdminLogRecord} {logEvents : List (AdminLogEvent AdminLogRecord)}
    (hrun : Transition.run AdminLogs.step .init logEvents = some logs) :
    (logs.buffer.snapshotLogs.map AdminLogEntry.record).Subperm (logs.calls.filterMap RecordCall.held) := by
  obtain ⟨pushed, hlogged⟩ := logged_run hrun
  have hsnapshot : (logs.buffer.snapshotLogs.map AdminLogEntry.record).Subperm (pushed.map AdminLogEntry.record) := by
    rw [AdminLogBuffer.snapshotLogs, hlogged.entries]
    exact ((List.take_sublist _ _).map _).subperm.trans ((List.reverse_perm pushed).map _).subperm
  have hcompleted : (logs.completed.map AdminLogEntry.record).Sublist (logs.calls.filterMap RecordCall.held) := by
    unfold AdminLogs.completed
    induction logs.calls with
    | nil => exact .slnil
    | cons call calls ih =>
      rcases call with entry | entry | _
      · exact ih.cons entry.record
      · exact ih.cons_cons entry.record
      · exact ih
  exact hsnapshot.trans ((hlogged.completed.symm.map _).subperm.trans hcompleted.subperm)

/-- The entries of requests that fail. -/
def AdminLogRecord.failed (entry : AdminLogRecord) : Bool := 400 ≤ entry.statusCode

theorem sum_contribution_total (entries : List AdminLogRecord) :
    (entries.map fun entry => contribution entry .totalRequests).sum = .ofNat entries.length := by
  induction entries with
  | nil => rfl
  | cons entry entries ih =>
    rw [List.map_cons, List.sum_cons, ih, List.length_cons, Int64.ofNat_add, add_comm]
    rfl

theorem sum_contribution_error (entries : List AdminLogRecord) :
    (entries.map fun entry => contribution entry .errorRequests).sum =
      .ofNat (entries.countP AdminLogRecord.failed) := by
  induction entries with
  | nil => rfl
  | cons entry entries ih =>
    rw [List.map_cons, List.sum_cons, ih, List.countP_cons]
    by_cases hfailed : 400 ≤ entry.statusCode
    · have hone : contribution entry .errorRequests = 1 := if_pos hfailed
      have hyes : entry.failed = true := decide_eq_true hfailed
      rw [hone, if_pos hyes, Int64.ofNat_add, add_comm]
      rfl
    · have hzero : contribution entry .errorRequests = 0 := if_neg hfailed
      have hno : ¬ entry.failed = true := fun h => hfailed (of_decide_eq_true h)
      rw [hzero, if_neg hno, zero_add, Nat.add_zero]

theorem added_cacheHits_of_ne (events : List AdminEvent) {counter : AdminCounter} (hne : counter ≠ .cacheHits) :
    added (cacheHits events) counter = 0 := by
  unfold cacheHits
  induction events with
  | nil => rfl
  | cons event events ih =>
    cases event with
    | hitsCache =>
      have hhit : added [(AdminCounter.cacheHits, (1 : Int64))] counter = 0 := by simp [added, Ne.symm hne]
      have hrest := Counters.added_cons (AdminCounter.cacheHits, (1 : Int64)) (events.filterMap AdminEvent.hit) counter
      rw [hhit, zero_add] at hrest
      exact hrest.trans ih
    | _ => exact ih

/-- The requests that are counted are some of those that have started, and all of them in the end. -/
theorem counted_of_entries (calls : List FinalizeCall) :
    (calls.filterMap FinalizeCall.counted).Sublist (calls.map FinalizeCall.entry) ∧
      ((∀ call ∈ calls, call.left = []) → calls.filterMap FinalizeCall.counted = calls.map FinalizeCall.entry) := by
  induction calls with
  | nil => exact ⟨.slnil, fun _ => rfl⟩
  | cons call calls ih =>
    rw [List.map_cons, List.filterMap_cons]
    by_cases hleft : call.left = []
    · have hcounted : call.counted = some call.entry := if_pos hleft
      rw [hcounted]
      exact ⟨ih.1.cons_cons _, fun hdone => congrArg _ (ih.2 fun other hother => hdone other (List.mem_cons_of_mem _ hother))⟩
    · have hcounted : call.counted = none := if_neg hleft
      rw [hcounted]
      exact ⟨ih.1.cons _, fun hdone => absurd (hdone call (List.mem_cons_self ..)) hleft⟩

/-- **Nothing that is added to the statistics is lost, and no request is in the log that is not counted**, in
whatever order the calls take their steps. Once the calls have made their additions, the statistics have the number of
requests and of those that failed. -/
theorem adminStats_conserved (hrun : run AdminCalls.step .init events = some state) :
    (∀ counter, state.stats counter + added (state.calls.flatMap FinalizeCall.left) counter =
      ((finalized events).map fun entry => contribution entry counter).sum + added (cacheHits events) counter) ∧
    (state.logs.buffer.snapshotLogs.map AdminLogEntry.record).Subperm state.counted ∧
    state.counted.Sublist (finalized events) ∧
    ((∀ call ∈ state.calls, call.left = []) → state.counted = finalized events ∧
      state.stats .totalRequests = .ofNat (finalized events).length ∧
      state.stats .errorRequests = .ofNat ((finalized events).countP AdminLogRecord.failed)) := by
  have hcounted := Counted.run hrun
  obtain ⟨hsome, hall⟩ := counted_of_entries state.calls
  rw [hcounted.entries] at hsome hall
  refine ⟨hcounted.conserved, ?_, hsome, ?_⟩
  · obtain ⟨logEvents, hlogs⟩ := hcounted.logged
    exact (snapshot_subperm hlogs).trans (hcounted.held.trans (recorded_sublist_counted state.calls).subperm)
  · intro hdone
    have hnothing : state.calls.flatMap FinalizeCall.left = [] := List.flatMap_eq_nil_iff.mpr hdone
    -- what is left to add is nothing, for each counter
    have hstats : ∀ counter, counter ≠ .cacheHits →
        state.stats counter = ((finalized events).map fun entry => contribution entry counter).sum := by
      intro counter hne
      have hconserved := hcounted.conserved counter
      rw [hnothing, added_cacheHits_of_ne events hne, add_zero] at hconserved
      rw [← hconserved]
      exact (add_zero _).symm
    refine ⟨hall hdone, ?_, ?_⟩
    · rw [hstats .totalRequests (by decide), sum_contribution_total]
    · rw [hstats .errorRequests (by decide), sum_contribution_error]

/-- Two calls whose additions come between each other, and that are logged the other way round. -/
def twoFinalizations : List AdminEvent :=
  [.finalizes { AdminLogRecord.default with statusCode := 200, durationMs := 40 },
    .finalizes { AdminLogRecord.default with statusCode := 502, durationMs := 7 }, .adds 1, .adds 0, .hitsCache] ++
  List.replicate 11 (.adds 1) ++ [.records 1] ++ List.replicate 10 (.adds 0) ++ [.records 0, .enters 1, .enters 0]

theorem adminStats_conserved_example :
    ∃ state, run AdminCalls.step .init twoFinalizations = some state ∧ state.counted = finalized twoFinalizations ∧
      state.stats .totalRequests = 2 ∧ state.stats .errorRequests = 1 := by
  obtain ⟨state, hrun, hdone⟩ : ∃ state, run AdminCalls.step .init twoFinalizations = some state ∧
      ∀ call ∈ state.calls, call.left = [] := by
    refine ⟨_, rfl, ?_⟩
    intro call hcall
    rcases List.mem_pair.mp hcall with rfl | rfl <;> rfl
  exact ⟨state, hrun, (adminStats_conserved hrun).2.2.2 hdone⟩

end GeminiWorker
