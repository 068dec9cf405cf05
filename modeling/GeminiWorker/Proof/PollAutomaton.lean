import GeminiWorker.Lib.JsonParse
import GeminiWorker.Spec.PollAutomaton

/-!
# The polling loops follow the retry automaton

* `pollLoop_fst`: what the loop of the code answers is what the automaton's loop answers.
* `aiapidevPolling_follows`: where both polling functions stop, that they stop in time, and
  that they agree.
-/

namespace GeminiWorker

open Json (Value)
open RetryLoop (Verdict Attempt Policy Turn StopsAt)

section

variable {fromSlice : List UInt8 → Option Value}

/-- A turn of the automaton, as the code's loop says it. -/
def PollTurn.ofTurn : Turn Response Value → PollTurn
  | .again failures => .again failures
  | .done result => .done result

/-- One turn decides what the automaton decides; the cache does not enter. -/
theorem pollTurn_fst (scope : BlockScope) (deadline failures : ℕ) (poll : Poll) :
    (pollTurn fromSlice scope deadline failures poll).1 =
      .ofTurn ((pollPolicy deadline).turn failures (pollAttempt fromSlice poll)) := by
  unfold pollTurn Policy.turn pollAttempt pollVerdict
  have hlimit : (pollPolicy deadline).limit = aiapidevMaxConsecutivePollFailures := rfl
  have hdeadline : (pollPolicy deadline).deadline = deadline := rfl
  rcases poll.outcome with message | ⟨status, contentType, body⟩ <;> dsimp only
  · rw [hlimit, hdeadline]
    by_cases hcount : aiapidevMaxConsecutivePollFailures ≤ failures + 1
    · rw [if_pos hcount, if_pos hcount]
      rfl
    · rw [if_neg hcount, if_neg hcount]
      by_cases hclock : deadline ≤ poll.clock
      · rw [if_pos hclock, if_pos hclock]
        rfl
      · rw [if_neg hclock, if_neg hclock]
        rfl
  · by_cases hsuccess : isSuccess status = true
    · rw [if_neg (by rw [hsuccess]; decide), if_pos hsuccess]
      rcases body.bind fromSlice with _ | taskBody <;> dsimp only
      · rfl
      · by_cases hterminal : isAiapidevTerminalStatus (taskStatus taskBody) = true
        · rw [if_pos hterminal, if_pos hterminal]
          rfl
        · rw [if_neg hterminal, if_neg hterminal]
          dsimp only
          rw [hdeadline]
          by_cases hclock : deadline ≤ poll.clock
          · rw [if_pos hclock, if_pos hclock]
            rfl
          · rw [if_neg hclock, if_neg hclock]
            rfl
    · rw [if_pos (by simpa using hsuccess), if_neg hsuccess]
      rcases body with _ | bytes <;> dsimp only
      · rfl
      · by_cases hblockable : (classifyBlockableUpstreamError status bytes).isSome = true
        · rw [if_pos hblockable, if_pos hblockable]
          rfl
        · rw [if_neg hblockable, if_neg hblockable]
          by_cases hretryable : isAiapidevRetryablePollStatus status = true
          · rw [if_neg (by rw [hretryable]; decide), if_pos hretryable]
            dsimp only
            rw [hlimit, hdeadline]
            by_cases hcount : aiapidevMaxConsecutivePollFailures ≤ failures + 1
            · rw [if_pos hcount, if_pos hcount]
              rfl
            · rw [if_neg hcount, if_neg hcount]
              by_cases hclock : deadline ≤ poll.clock
              · rw [if_pos hclock, if_pos hclock]
                rfl
              · rw [if_neg hclock, if_neg hclock]
                rfl
          · rw [if_pos (by simpa using hretryable), if_neg hretryable]
            rfl

/-- The loop of the code answers what the automaton's loop answers. -/
theorem pollLoop_fst (scope : BlockScope) (deadline failures : ℕ) (polls : List Poll) :
    (pollLoop fromSlice scope deadline failures polls).map Prod.fst =
      (pollPolicy deadline).run failures (polls.map (pollAttempt fromSlice)) := by
  induction polls generalizing scope failures with
  | nil => rfl
  | cons poll polls ih =>
    have hturn := @pollTurn_fst fromSlice scope deadline failures poll
    simp only [pollLoop, List.map_cons, Policy.run]
    rcases hpolicy : (pollPolicy deadline).turn failures (pollAttempt fromSlice poll) with
      failures' | result <;> rw [hpolicy] at hturn
    · rcases hcode : pollTurn fromSlice scope deadline failures poll with ⟨turn, cache⟩
      rw [hcode] at hturn
      have hagain : turn = .again failures' := hturn
      subst hagain
      exact ih { scope with cache } failures'
    · rcases hcode : pollTurn fromSlice scope deadline failures poll with ⟨turn, cache⟩
      rw [hcode] at hturn
      have hdone : turn = .done result := hturn
      subst hdone
      rfl

theorem map_take_pollAttempt (polls : List Poll) (i : ℕ) :
    (polls.take i).map (pollAttempt fromSlice) = (polls.map (pollAttempt fromSlice)).take i :=
  List.map_take ..

theorem streak_of_isSuccess {polls : List Poll} {i : ℕ} {poll : Poll} (hpoll : polls[i]? = some poll)
    (hsuccess : poll.IsSuccess) : RetryLoop.streak (polls.map (pollAttempt fromSlice)) i = 0 := by
  have hattempt : (polls.map (pollAttempt fromSlice))[i]? = some (pollAttempt fromSlice poll) := by
    rw [List.getElem?_map, hpoll]
    rfl
  have hfailed : (pollAttempt fromSlice poll).verdict.isFailed = false := by
    obtain ⟨status, contentType, body, houtcome, hstatus⟩ := hsuccess
    simp only [pollAttempt, pollVerdict, houtcome, hstatus, if_true]
    rcases body.bind fromSlice with _ | taskBody <;> dsimp only
    · rfl
    · split <;> rfl
  rw [RetryLoop.streak_of_getElem? hattempt, hfailed]
  rfl

end

/-- **The polling functions follow the retry automaton.** Each stops exactly at the first poll
that the automaton stops at, with its result; a success breaks a streak of failed polls; if the
clock advances by the poll interval with every sleep, they stop in time; and they agree. -/
theorem aiapidevPolling_follows (fromSlice : List UInt8 → Option Value)
    (buildUpstreamUrl : String → Option String) (scope : BlockScope) (requestId : String) (start : ℕ)
    {taskUrl openaiImageTaskUrl : String}
    (htask : buildUpstreamUrl ("/v1beta/tasks/" ++ requestId) = some taskUrl)
    (hopenaiImage : buildUpstreamUrl ("/v1/tasks/" ++ requestId) = some openaiImageTaskUrl)
    (polls : List Poll) :
    let attempts := polls.map (pollAttempt fromSlice)
    let policy := pollPolicy (start + aiapidevMaxPollTime)
    (∀ pollTask ∈ [pollAiapidevTask fromSlice buildUpstreamUrl scope requestId start,
        pollAiapidevOpenaiImageTask fromSlice buildUpstreamUrl scope requestId start],
      (∀ i result, StopsAt (fun polls => (pollTask polls).map Prod.fst) polls i result ↔
        policy.stop attempts i = some result ∧ ∀ j < i, policy.stop attempts j = none) ∧
      (∀ interval, 0 < interval → Policy.Advances interval start attempts →
        aiapidevMaxPollTime ⌈/⌉ interval < polls.length →
        ∃ i ≤ aiapidevMaxPollTime ⌈/⌉ interval, ∃ result,
          StopsAt (fun polls => (pollTask polls).map Prod.fst) polls i result)) ∧
    (∀ i poll, polls[i]? = some poll → poll.IsSuccess → RetryLoop.streak attempts i = 0) ∧
    pollAiapidevTask fromSlice buildUpstreamUrl scope requestId start polls =
      pollAiapidevOpenaiImageTask fromSlice buildUpstreamUrl scope requestId start polls := by
  intro attempts policy
  have hpollTask : ∀ polls, pollAiapidevTask fromSlice buildUpstreamUrl scope requestId start polls =
      pollLoop fromSlice scope (start + aiapidevMaxPollTime) 0 polls := by
    intro polls
    simp only [pollAiapidevTask, htask]
  have hpollImageTask : ∀ polls,
      pollAiapidevOpenaiImageTask fromSlice buildUpstreamUrl scope requestId start polls =
        pollLoop fromSlice scope (start + aiapidevMaxPollTime) 0 polls := by
    intro polls
    simp only [pollAiapidevOpenaiImageTask, hopenaiImage]
  refine ⟨fun pollTask hmem => ?_, fun i poll => streak_of_isSuccess,
    (hpollTask polls).trans (hpollImageTask polls).symm⟩
  -- both functions are the loop of the automaton, over what the polls say
  have hstops : ∀ i result, StopsAt (fun polls => (pollTask polls).map Prod.fst) polls i result ↔
      StopsAt (policy.run 0) attempts i result := by
    intro i result
    have hloop : ∀ polls, (pollTask polls).map Prod.fst =
        policy.run 0 (polls.map (pollAttempt fromSlice)) := by
      intro polls
      rw [← pollLoop_fst scope]
      rcases List.mem_pair.mp hmem with rfl | rfl
      · rw [hpollTask]
      · rw [hpollImageTask]
    simp only [StopsAt, hloop, map_take_pollAttempt, attempts]
  refine ⟨fun i result => (hstops i result).trans (policy.run_stopsAt attempts i result), ?_⟩
  intro interval hinterval hadvances hlength
  have hattempts : aiapidevMaxPollTime ⌈/⌉ interval < attempts.length := by
    rwa [List.length_map]
  obtain ⟨i, hi, result, hresult⟩ := policy.exists_stopsAt hinterval rfl hadvances hattempts
  exact ⟨i, hi, result, (hstops i result).mpr hresult⟩

/-- A poll that cannot be sent. -/
def unsentPoll (clock : ℕ) : Poll := ⟨.sendFailed "请求上游服务失败", clock⟩

/-- The failures on both sides of a success are not one streak. -/
theorem aiapidevPolling_example :
    let polls := [unsentPoll 1, unsentPoll 2, ⟨.answered 200 none (some (Text.bytes "{}")), 3⟩,
      unsentPoll 4, unsentPoll 5, unsentPoll 6, unsentPoll 7, unsentPoll 8, unsentPoll 9]
    StopsAt (fun polls => (pollAiapidevTask Json.parse some ⟨none, none, 0⟩ "r" 0 polls).map Prod.fst)
      polls 7 (.error (jsonResponse badGateway (errorJson badGateway "请求上游服务失败"))) := by
  intro polls
  have hfollows := aiapidevPolling_follows Json.parse some ⟨none, none, 0⟩ "r" 0 rfl rfl polls
  apply ((hfollows.1 _ List.mem_cons_self).1 7 _).mpr
  have hstreak : RetryLoop.streak (polls.map (pollAttempt Json.parse)) 7 = 5 := by decide +kernel
  have hearlier : ∀ j < 7, ((pollPolicy (0 + aiapidevMaxPollTime)).stop
      (polls.map (pollAttempt Json.parse)) j).isNone = true := by decide +kernel
  constructor
  · have hattempt : (polls.map (pollAttempt Json.parse))[7]? = some ⟨.failed (jsonResponse badGateway
        (errorJson badGateway "请求上游服务失败")), 8⟩ := rfl
    rw [Policy.stop, hattempt, Option.bind_some]
    exact if_pos hstreak
  · intro j hj
    exact Option.isNone_iff_eq_none.mp (hearlier j hj)

end GeminiWorker
