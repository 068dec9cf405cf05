import GeminiWorker.Proof.PollAutomaton

/-!
# How patient the polls are

* `verdict_cases`: what the automaton makes of a poll whose failure, if any, is transient.
* `pollTask_patient_iff`: the polling functions are patient exactly where no body is lost before
  the polling is over.
-/

namespace GeminiWorker

open Json (Value)
open RetryLoop (Verdict Attempt Policy)

section

variable {fromSlice : List UInt8 → Option Value}

theorem isSuccess_of_retryable {status : StatusCode}
    (hretryable : isAiapidevRetryablePollStatus status = true) : isSuccess status = false := by
  simp only [isAiapidevRetryablePollStatus, List.mem_cons, List.not_mem_nil, or_false,
    decide_eq_true_eq] at hretryable
  rcases hretryable with rfl | rfl | rfl | rfl | rfl | rfl | rfl <;> rfl

/-! ## What the automaton makes of a poll -/

/-- A lost body is final, whatever the status. -/
theorem Poll.BodyLost.verdict {poll : Poll} (hlost : poll.BodyLost) :
    ∃ error, pollVerdict fromSlice poll.outcome = .fatal error := by
  obtain ⟨outcome, clock⟩ := poll
  rcases outcome with message | ⟨status, contentType, body⟩
  · exact hlost.elim
  · obtain rfl : body = none := hlost
    by_cases hsuccess : isSuccess status = true
    · simp only [pollVerdict, hsuccess, if_true, Option.bind_none]
      exact ⟨_, rfl⟩
    · simp only [pollVerdict, hsuccess, if_false, Bool.false_eq_true]
      exact ⟨_, rfl⟩

/-- The verdict on a poll whose failure, if it is one, is transient. -/
theorem verdict_cases {poll : Poll}
    (htransient : poll.Fails fromSlice → poll.RetryableStatus ∨ poll.NetworkFailure) :
    (poll.BodyLost ∧ ∃ error, pollVerdict fromSlice poll.outcome = .fatal error) ∨
    (poll.Fails fromSlice ∧ ∃ error, pollVerdict fromSlice poll.outcome = .failed error) ∨
    (poll.Delivers fromSlice ∧ ¬ poll.Fails fromSlice ∧
      ∃ taskBody, pollVerdict fromSlice poll.outcome = .finished taskBody) ∨
    (¬ poll.Delivers fromSlice ∧ ¬ poll.Fails fromSlice ∧
      pollVerdict fromSlice poll.outcome = .pending) := by
  obtain ⟨outcome, clock⟩ := poll
  rcases outcome with message | ⟨status, contentType, _ | bytes⟩
  · exact .inr (.inl ⟨trivial, _, rfl⟩)
  · have hlost : Poll.BodyLost ⟨.answered status contentType none, clock⟩ := rfl
    exact .inl ⟨hlost, hlost.verdict⟩
  by_cases hsuccess : isSuccess status = true
  · rcases hparsed : fromSlice bytes with _ | taskBody
    · -- an answer that does not parse is no transient failure
      rcases htransient (.inr hparsed) with ⟨hretryable, -⟩ | hlost
      · rw [isSuccess_of_retryable hretryable] at hsuccess
        cases hsuccess
      · cases hlost
    · have hnews : ¬ Poll.Fails fromSlice ⟨.answered status contentType (some bytes), clock⟩ := by
        rintro (hstatus | hbody)
        · rw [hsuccess] at hstatus
          cases hstatus
        · rw [Option.bind_some, hparsed] at hbody
          cases hbody
      by_cases hterminal : isAiapidevTerminalStatus (taskStatus taskBody) = true
      · refine .inr (.inr (.inl ⟨⟨_, _, _, _, rfl, hsuccess, hparsed, hterminal⟩, hnews, taskBody, ?_⟩))
        simp only [pollVerdict, hsuccess, if_true, Option.bind_some, hparsed, hterminal]
      · refine .inr (.inr (.inr ⟨?_, hnews, ?_⟩))
        · rintro ⟨status', contentType', body, taskBody', houtcome, -, hparsed', hterminal'⟩
          cases houtcome
          rw [hparsed, Option.some.injEq] at hparsed'
          rw [hparsed'] at hterminal
          exact hterminal hterminal'
        · simp only [pollVerdict, hsuccess, if_true, Option.bind_some, hparsed, hterminal,
            Bool.false_eq_true, if_false]
  · have hfails : Poll.Fails fromSlice ⟨.answered status contentType (some bytes), clock⟩ :=
      .inl (Bool.eq_false_iff.mpr hsuccess)
    rcases htransient hfails with ⟨hretryable, hallowed⟩ | hlost
    · refine .inr (.inl ⟨hfails, ?_⟩)
      simp only [pollVerdict, hsuccess, hallowed bytes rfl, hretryable, Bool.false_eq_true, if_false,
        if_true, Option.isSome_none]
      exact ⟨_, rfl⟩
    · cases hlost

/-! ## Where polling is over -/

theorem getElem?_map_pollAttempt {polls : List Poll} {i : ℕ} {poll : Poll}
    (hpoll : polls[i]? = some poll) :
    (polls.map (pollAttempt fromSlice))[i]? = some (pollAttempt fromSlice poll) := by
  rw [List.getElem?_map, hpoll]
  rfl

variable {deadline : ℕ} {polls : List Poll} {i : ℕ}

theorem stop_of_bodyLost {poll : Poll} (hpoll : polls[i]? = some poll) (hlost : poll.BodyLost) :
    ∃ error, (pollPolicy deadline).stop (polls.map (pollAttempt fromSlice)) i = some (.error error) := by
  obtain ⟨error, hverdict⟩ := @Poll.BodyLost.verdict fromSlice poll hlost
  refine ⟨error, ?_⟩
  rw [Policy.stop, getElem?_map_pollAttempt hpoll, Option.bind_some]
  simp only [pollAttempt, hverdict]

theorem stop_of_delivers {poll : Poll} (hpoll : polls[i]? = some poll) (hdelivers : poll.Delivers fromSlice) :
    (pollPolicy deadline).stop (polls.map (pollAttempt fromSlice)) i ≠ none := by
  obtain ⟨status, contentType, body, taskBody, houtcome, hsuccess, hparsed, hterminal⟩ := hdelivers
  rw [Policy.stop, getElem?_map_pollAttempt hpoll, Option.bind_some]
  simp only [pollAttempt, houtcome, pollVerdict, hsuccess, if_true, Option.bind_some, hparsed, hterminal,
    ne_eq, reduceCtorEq, not_false_eq_true]

theorem map_fst_pollLoop (scope : BlockScope) (deadline : ℕ) (polls : List Poll) (i : ℕ) :
    (pollLoop fromSlice scope deadline 0 (polls.take i)).map Prod.fst =
      (pollPolicy deadline).run 0 ((polls.map (pollAttempt fromSlice)).take i) := by
  rw [pollLoop_fst, map_take_pollAttempt]

variable (htransient : ∀ poll ∈ polls, poll.Fails fromSlice → poll.RetryableStatus ∨ poll.NetworkFailure)

include htransient

/-- An attempt is one of the polls. -/
theorem exists_poll {attempt : Attempt Response Value}
    (hattempt : (polls.map (pollAttempt fromSlice))[i]? = some attempt) :
    ∃ poll, polls[i]? = some poll ∧ attempt = pollAttempt fromSlice poll ∧
      (poll.Fails fromSlice → poll.RetryableStatus ∨ poll.NetworkFailure) := by
  rw [List.getElem?_map, Option.map_eq_some_iff] at hattempt
  obtain ⟨poll, hpoll, rfl⟩ := hattempt
  exact ⟨poll, hpoll, rfl, htransient poll (List.mem_of_getElem? hpoll)⟩

/-- A poll that the automaton counts as failed has failed. -/
theorem fails_of_isFailed {attempt : Attempt Response Value}
    (hattempt : (polls.map (pollAttempt fromSlice))[i]? = some attempt)
    (hfailed : attempt.verdict.isFailed = true) : ∃ poll, polls[i]? = some poll ∧ poll.Fails fromSlice := by
  obtain ⟨poll, hpoll, rfl, hcause⟩ := exists_poll htransient hattempt
  refine ⟨poll, hpoll, ?_⟩
  simp only [pollAttempt] at hfailed
  rcases verdict_cases hcause with
    ⟨-, _, hverdict⟩ | ⟨hfails, -⟩ | ⟨-, -, _, hverdict⟩ | ⟨-, -, hverdict⟩
  · rw [hverdict] at hfailed
    cases hfailed
  · exact hfails
  · rw [hverdict] at hfailed
    cases hfailed
  · rw [hverdict] at hfailed
    cases hfailed

/-- An error has a reason, unless it is a lost body. -/
theorem givesUp_or_bodyLost {error : Response}
    (hstop : (pollPolicy deadline).stop (polls.map (pollAttempt fromSlice)) i = some (.error error)) :
    GivesUp fromSlice deadline polls i ∨ ∃ poll, polls[i]? = some poll ∧ poll.BodyLost := by
  obtain ⟨attempt, hattempt, hends⟩ := (pollPolicy deadline).of_stop_error hstop
  have hi := (List.getElem?_eq_some_iff.mp hattempt).1
  obtain ⟨poll, hpoll, rfl, hcause⟩ := exists_poll htransient hattempt
  rcases hends with hfatal | hstreak | hclock
  · right
    refine ⟨poll, hpoll, ?_⟩
    rcases verdict_cases hcause with
      ⟨hlost, -⟩ | ⟨-, _, hverdict⟩ | ⟨-, -, _, hverdict⟩ | ⟨-, -, hverdict⟩
    · exact hlost
    all_goals exact absurd (hverdict.symm.trans hfatal) (by simp only [reduceCtorEq, not_false_eq_true])
  · left
    obtain ⟨hcount, hwindow⟩ := (RetryLoop.le_streak_iff hi).mp hstreak.ge
    refine ⟨poll, hpoll, .inr ⟨hcount, fun k hk hrecent => ?_⟩⟩
    obtain ⟨attempt', hattempt', hfailed⟩ := hwindow k hk hrecent
    exact fails_of_isFailed htransient hattempt' hfailed
  · exact .inl ⟨poll, hpoll, .inl hclock⟩

theorem delivers_of_stop {taskBody : Value}
    (hstop : (pollPolicy deadline).stop (polls.map (pollAttempt fromSlice)) i = some (.ok taskBody)) :
    ∃ poll, polls[i]? = some poll ∧ poll.Delivers fromSlice := by
  obtain ⟨attempt, hattempt, hfinished⟩ := (pollPolicy deadline).of_stop_ok hstop
  obtain ⟨poll, hpoll, rfl, hcause⟩ := exists_poll htransient hattempt
  refine ⟨poll, hpoll, ?_⟩
  rcases verdict_cases hcause with
    ⟨-, _, hverdict⟩ | ⟨-, _, hverdict⟩ | ⟨hdelivers, -⟩ | ⟨-, -, hverdict⟩
  · exact absurd (hverdict.symm.trans hfinished) (by simp only [reduceCtorEq, not_false_eq_true])
  · exact absurd (hverdict.symm.trans hfinished) (by simp only [reduceCtorEq, not_false_eq_true])
  · exact hdelivers
  · exact absurd (hverdict.symm.trans hfinished) (by simp only [reduceCtorEq, not_false_eq_true])

/-! ## Patience -/

/-- The loop is patient exactly where polling is over by the time a body is lost. -/
theorem pollLoop_patient_iff (scope : BlockScope) :
    Patient fromSlice (pollLoop fromSlice scope deadline 0) deadline polls ↔
      ∀ i poll, polls[i]? = some poll → poll.BodyLost → ∃ j ≤ i, PollingOver fromSlice deadline polls j := by
  simp only [Patient, map_fst_pollLoop]
  constructor
  · intro hpatient i poll hpoll hlost
    obtain ⟨error, hstop⟩ := @stop_of_bodyLost fromSlice deadline polls i poll hpoll hlost
    obtain ⟨j, hj, result, hfirst⟩ := (pollPolicy deadline).exists_first_stop
      (Option.ne_none_iff_exists'.mpr ⟨_, hstop⟩)
    rcases result with error' | taskBody
    · have hrun := (((pollPolicy deadline).run_stopsAt _ j _).mpr hfirst).2
      obtain ⟨k, hk, hgives⟩ := hpatient (j + 1) error' hrun
      exact ⟨k, by omega, .inl hgives⟩
    · exact ⟨j, hj, .inr (delivers_of_stop htransient hfirst.1)⟩
  · intro hover i error hrun
    obtain ⟨j, hj, hstop, hfirst⟩ := (pollPolicy deadline).exists_stop_of_run hrun
    rcases givesUp_or_bodyLost htransient hstop with hgives | ⟨poll, hpoll, hlost⟩
    · exact ⟨j, hj, hgives⟩
    -- polling was over when the body was lost, and not before
    obtain ⟨k, hk, hreason⟩ := hover j poll hpoll hlost
    rcases hreason with hgives | ⟨poll', hpoll', hdelivers⟩
    · exact ⟨k, by omega, hgives⟩
    · have hends := @stop_of_delivers fromSlice deadline polls k poll' hpoll' hdelivers
      rcases Nat.lt_or_eq_of_le hk with hearlier | rfl
      · exact absurd (hfirst k hearlier) hends
      · obtain ⟨status, contentType, body, taskBody, houtcome, -⟩ := hdelivers
        rw [hpoll, Option.some.injEq] at hpoll'
        subst hpoll'
        simp only [Poll.BodyLost, houtcome, reduceCtorEq] at hlost

/-- A function that polls in the loop once it has a URL, and answers an error without. -/
theorem patient_iff_of_url {pollTask : List Poll → Option (Except Response Value × Option UpstreamBlockCache)}
    {url : Option String} {error : Response} {scope : BlockScope}
    (hpollTask : ∀ polls, pollTask polls = match url with
      | none => some (.error error, scope.cache)
      | some _ => pollLoop fromSlice scope deadline 0 polls) :
    Patient fromSlice pollTask deadline polls ↔ url ≠ none ∧
      ∀ i poll, polls[i]? = some poll → poll.BodyLost → ∃ j ≤ i, PollingOver fromSlice deadline polls j := by
  rcases url with _ | built
  · refine ⟨fun hpatient => ?_, fun hbuilt => absurd rfl hbuilt.1⟩
    -- the error comes before the first poll
    obtain ⟨j, hj, -⟩ := hpatient 0 error (by rw [hpollTask, Option.map_some])
    exact absurd hj (Nat.not_lt_zero j)
  · rw [funext hpollTask, pollLoop_patient_iff htransient scope]
    exact ⟨fun hover => ⟨Option.some_ne_none built, hover⟩, And.right⟩

end

/-- **The polling functions are patient exactly where no body is lost too early.** If the failing
polls are transient failures, each function waits for the fifth failure in a row or the deadline
exactly if its URL can be built and, whenever the body of a response is lost, polling is over by
that poll. -/
theorem pollTask_patient_iff (fromSlice : List UInt8 → Option Value)
    (buildUpstreamUrl : String → Option String) (scope : BlockScope) (requestId : String) (start : ℕ)
    (polls : List Poll)
    (htransient : ∀ poll ∈ polls, poll.Fails fromSlice → poll.RetryableStatus ∨ poll.NetworkFailure) :
    let deadline := start + aiapidevMaxPollTime
    let overBeforeLoss := ∀ i poll, polls[i]? = some poll → poll.BodyLost →
      ∃ j ≤ i, PollingOver fromSlice deadline polls j
    (Patient fromSlice (pollAiapidevTask fromSlice buildUpstreamUrl scope requestId start) deadline polls ↔
      buildUpstreamUrl ("/v1beta/tasks/" ++ requestId) ≠ none ∧ overBeforeLoss) ∧
    (Patient fromSlice (pollAiapidevOpenaiImageTask fromSlice buildUpstreamUrl scope requestId start) deadline
        polls ↔
      buildUpstreamUrl ("/v1/tasks/" ++ requestId) ≠ none ∧ overBeforeLoss) := by
  intro deadline overBeforeLoss
  exact ⟨patient_iff_of_url htransient fun _ => rfl, patient_iff_of_url htransient fun _ => rfl⟩

/-- A poll whose answer breaks off before its body is read. -/
def lostPoll (status : StatusCode) (clock : ℕ) : Poll := ⟨.answered status none none, clock⟩

/-- A body that is lost at the deadline ends nothing that was not over. -/
theorem pollTask_patient_example :
    Patient Json.parse (pollAiapidevTask Json.parse some ⟨none, none, 0⟩ "r" 0) (0 + aiapidevMaxPollTime)
      [unsentPoll 1, lostPoll 200 aiapidevMaxPollTime] := by
  refine (pollTask_patient_iff Json.parse some ⟨none, none, 0⟩ "r" 0 _ ?_).1.mpr
    ⟨Option.some_ne_none _, fun i poll hpoll hlost => ?_⟩
  · rintro poll hmem -
    rcases List.mem_pair.mp hmem with rfl | rfl
    · exact .inr trivial
    · exact .inr rfl
  · rcases i with _ | _ | i
    · obtain rfl : unsentPoll 1 = poll := Option.some.inj hpoll
      exact hlost.elim
    · exact ⟨1, le_rfl, .inl ⟨_, rfl, .inl (Nat.zero_add _).le⟩⟩
    · cases hpoll

/-- **One lost body ends the wait**, at the first poll and long before the deadline. -/
theorem lostBody_ends_polling :
    (∀ poll ∈ [lostPoll 200 1], poll.Fails Json.parse → poll.RetryableStatus ∨ poll.NetworkFailure) ∧
    ¬ Patient Json.parse (pollAiapidevTask Json.parse some ⟨none, none, 0⟩ "r" 0) (0 + aiapidevMaxPollTime)
      [lostPoll 200 1] ∧
    ¬ Patient Json.parse (pollAiapidevOpenaiImageTask Json.parse some ⟨none, none, 0⟩ "r" 0)
      (0 + aiapidevMaxPollTime) [lostPoll 200 1] := by
  have hgoes : ¬ GivesUp Json.parse (0 + aiapidevMaxPollTime) [lostPoll 200 1] 0 := by
    rintro ⟨poll, hpoll, hreason⟩
    obtain rfl : lostPoll 200 1 = poll := Option.some.inj hpoll
    rcases hreason with hclock | ⟨hcount, -⟩
    · exact absurd hclock (by decide)
    · omega
  refine ⟨?_, fun hpatient => ?_, fun hpatient => ?_⟩
  · rintro poll hmem -
    rw [List.mem_singleton] at hmem
    subst hmem
    exact .inr rfl
  · obtain ⟨j, hj, hgives⟩ := hpatient 1 _ rfl
    obtain rfl : j = 0 := by omega
    exact hgoes hgives
  · obtain ⟨j, hj, hgives⟩ := hpatient 1 _ rfl
    obtain rfl : j = 0 := by omega
    exact hgoes hgives

end GeminiWorker
