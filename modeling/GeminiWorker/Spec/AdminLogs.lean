import GeminiWorker.Lib.BoundedLog
import GeminiWorker.Lib.Transition

/-!
# The admin log buffer

`AdminLogBuffer` of `admin.rs` under concurrent calls of `AdminState::record`. A call draws its
id, waits for the lock of the entries, and pushes and trims in one go while it holds it. A call
whose request is gone is dropped while it waits.
-/

namespace GeminiWorker

/-- An entry: its id and the record it carries. -/
structure AdminLogEntry (ρ : Type) where
  id : Int64
  record : ρ
deriving DecidableEq

def ADMIN_LOG_CAPACITY : ℕ := 100

structure AdminLogBuffer (ρ : Type) where
  nextId : Int64
  entries : List (AdminLogEntry ρ)

variable {ρ : Type}

/-- `AdminLogBuffer::default()`. -/
def AdminLogBuffer.default : AdminLogBuffer ρ := ⟨0, []⟩

/-- `next_id.fetch_add(1) + 1`, with what it leaves in `next_id`. Both additions wrap. -/
def AdminLogBuffer.drawId (buffer : AdminLogBuffer ρ) : Int64 × AdminLogBuffer ρ :=
  (buffer.nextId + 1, { buffer with nextId := buffer.nextId + 1 })

/-- What `record` does while it holds the lock. -/
def AdminLogBuffer.push (buffer : AdminLogBuffer ρ) (entry : AdminLogEntry ρ) : AdminLogBuffer ρ :=
  { buffer with entries := BoundedLog.trim ADMIN_LOG_CAPACITY (entry :: buffer.entries) }

def AdminLogBuffer.snapshotLogs (buffer : AdminLogBuffer ρ) : List (AdminLogEntry ρ) := buffer.entries

/-- A call of `record` that has drawn its id. -/
inductive RecordCall (ρ : Type) where
  | waiting (entry : AdminLogEntry ρ)
  | completed (entry : AdminLogEntry ρ)
  | dropped

/-- The entry of a call that has completed. -/
def RecordCall.recorded : RecordCall ρ → Option (AdminLogEntry ρ)
  | .completed entry => some entry
  | _ => none

/-- The buffer and the calls of `record`, in the order in which they have drawn their ids. -/
structure AdminLogs (ρ : Type) where
  buffer : AdminLogBuffer ρ
  calls : List (RecordCall ρ)

/-- What a call does next: a new one draws the id of its entry, one that waits is let into the
critical section, or it is dropped. -/
inductive AdminLogEvent (ρ : Type) where
  | draws (entry : AdminLogEntry ρ)
  | enters (call : ℕ)
  | drops (call : ℕ)

namespace AdminLogs

def init : AdminLogs ρ := ⟨.default, []⟩

def step (logs : AdminLogs ρ) : AdminLogEvent ρ → Option (AdminLogs ρ)
  | .draws entry =>
    let (id, buffer) := logs.buffer.drawId
    some ⟨buffer, logs.calls ++ [.waiting { entry with id }]⟩
  | .enters call =>
    match logs.calls[call]? with
    | some (.waiting entry) => some ⟨logs.buffer.push entry, logs.calls.set call (.completed entry)⟩
    | _ => none
  | .drops call =>
    match logs.calls[call]? with
    | some (.waiting _) => some { logs with calls := logs.calls.set call .dropped }
    | _ => none

/-- No call is in progress. -/
def Idle (logs : AdminLogs ρ) : Prop := ∀ entry, RecordCall.waiting entry ∉ logs.calls

/-- The records that have completed, in the order in which they have drawn their ids. -/
def completed (logs : AdminLogs ρ) : List (AdminLogEntry ρ) := logs.calls.filterMap RecordCall.recorded

/-- The snapshot is the records with the highest ids, the highest in front. -/
def KeepsHighest (logs : AdminLogs ρ) : Prop :=
  BoundedLog.KeepsTop (fun entry entry' => entry'.id < entry.id) ADMIN_LOG_CAPACITY
    logs.buffer.snapshotLogs logs.completed

end AdminLogs

/-- The id that a call draws. -/
def recordId (call : ℕ) : Int64 := .ofNat (call + 1)

/-- The calls that enter the critical section, in this order. -/
def entered (events : List (AdminLogEvent ρ)) : List ℕ :=
  events.filterMap fun
    | .enters call => some call
    | _ => none

/-- Each of the last calls, as many as the buffer holds, has drawn a higher id than the calls
that were let in before it. -/
def EntersInOrder (calls : List ℕ) : Prop :=
  ∀ i j call call', i < j → calls.length ≤ j + ADMIN_LOG_CAPACITY → calls[i]? = some call →
    calls[j]? = some call' → recordId call < recordId call'

end GeminiWorker
