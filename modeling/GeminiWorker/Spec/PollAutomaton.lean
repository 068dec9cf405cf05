import GeminiWorker.Lib.RetryLoop
import GeminiWorker.Spec.BlockReplay

/-!
# The retry automaton of the aiapidev polls

What the two polling loops are for, said without a loop: a poll says whether the task is
over, whether polling makes no sense any more, or whether it is worth another try.
-/

namespace GeminiWorker

open Json (Value)
open RetryLoop (Verdict Attempt Policy)

section

/- `serde_json::from_slice`. -/
variable (fromSlice : List UInt8 → Option Value)

/-- What a poll says of its task. A send failure and a retryable status are failed polls; any
other error is final. -/
def pollVerdict : UpstreamOutcome → Verdict Response Value
  | .sendFailed message => .failed (jsonResponse badGateway (errorJson badGateway message))
  | .answered status contentType body =>
    if isSuccess status then
      match body.bind fromSlice with
      | none => .fatal (proxyErrorResponse badGateway MSG_AIAPIDEV_POLL_PARSE_FAILED
          "aiapidev_parse_task_response" "invalid_json")
      | some taskBody =>
        if isAiapidevTerminalStatus (taskStatus taskBody) then .finished taskBody else .pending
    else match body with
      | none => .fatal (jsonResponse badGateway (errorJson badGateway MSG_READ_UPSTREAM_BODY_FAILED))
      | some bytes =>
        let contentType := contentType.getD applicationJson
        if (classifyBlockableUpstreamError status bytes).isSome then
          .fatal (rawResponseWithUpstreamStatus fromSlice (blockErrorResponseStatus status bytes) status
            contentType bytes)
        else if isAiapidevRetryablePollStatus status then
          .failed (rawResponseWithBody status contentType bytes)
        else .fatal (rawResponseWithBody status contentType bytes)

def pollAttempt (poll : Poll) : Attempt Response Value := ⟨pollVerdict fromSlice poll.outcome, poll.clock⟩

/-- Polling gives up with the fifth failed poll in a row, or at the deadline. -/
def pollPolicy (deadline : ℕ) : Policy Response where
  limit := aiapidevMaxConsecutivePollFailures
  limit_pos := by decide
  deadline := deadline
  timeout := proxyErrorResponse badGateway MSG_AIAPIDEV_POLL_TIMEOUT "aiapidev_poll_task" "timeout"

end

/-- A poll that is answered with a success, whatever its body. -/
def Poll.IsSuccess (poll : Poll) : Prop :=
  ∃ status contentType body, poll.outcome = .answered status contentType body ∧ isSuccess status = true

/-! ## Patience -/

/-- The network fails while the request is sent or while the body of the response is read. -/
def Poll.NetworkFailure (poll : Poll) : Prop :=
  match poll.outcome with
  | .sendFailed _ => True
  | .answered _ _ body => body = none

def Poll.BodyLost (poll : Poll) : Prop :=
  match poll.outcome with
  | .sendFailed _ => False
  | .answered _ _ body => body = none

/-- The upstream answers a retryable status, without a block keyword. -/
def Poll.RetryableStatus (poll : Poll) : Prop :=
  match poll.outcome with
  | .sendFailed _ => False
  | .answered status _ body => isAiapidevRetryablePollStatus status ∧
      ∀ bytes, body = some bytes → classifyBlockableUpstreamError status bytes = none

section

variable (fromSlice : List UInt8 → Option Value)

/-- A poll that brings no news of the task. -/
def Poll.Fails (poll : Poll) : Prop :=
  match poll.outcome with
  | .sendFailed _ => True
  | .answered status _ body => isSuccess status = false ∨ body.bind fromSlice = none

/-- The poll brings the news that the task is over. -/
def Poll.Delivers (poll : Poll) : Prop :=
  ∃ status contentType body taskBody, poll.outcome = .answered status contentType (some body) ∧
    isSuccess status ∧ fromSlice body = some taskBody ∧ isAiapidevTerminalStatus (taskStatus taskBody)

/-- At poll `i` there is reason to give up: the last five polls have failed, or the deadline
has come. -/
def GivesUp (deadline : ℕ) (polls : List Poll) (i : ℕ) : Prop :=
  ∃ poll, polls[i]? = some poll ∧ (deadline ≤ poll.clock ∨
    5 ≤ i + 1 ∧ ∀ k ≤ i, i < k + 5 → ∃ poll, polls[k]? = some poll ∧ poll.Fails fromSlice)

/-- Poll `i` is the last that is made: there is reason to give up, or the task is over. -/
def PollingOver (deadline : ℕ) (polls : List Poll) (i : ℕ) : Prop :=
  GivesUp fromSlice deadline polls i ∨ ∃ poll, polls[i]? = some poll ∧ poll.Delivers fromSlice

/-- A polling function that answers an error only once there was reason to give up. -/
def Patient (pollTask : List Poll → Option (Except Response Value × Option UpstreamBlockCache))
    (deadline : ℕ) (polls : List Poll) : Prop :=
  ∀ i error, (pollTask (polls.take i)).map Prod.fst = some (.error error) →
    ∃ j < i, GivesUp fromSlice deadline polls j

end

end GeminiWorker
