import Mathlib.Algebra.GroupWithZero.Nat
import Mathlib.Algebra.Order.Floor.Div
import Mathlib.Data.List.Basic
import Mathlib.Data.Nat.Basic
import Mathlib.Tactic.Common

/-!
# Loops that retry

A loop attempts something until an attempt decides it, until `limit` attempts in a row have
failed, or until the clock is at a deadline after an undecided attempt.

* `Policy.run`: the loop, which counts the failed attempts.
* `Policy.stop`: what attempt `i` ends the loop with, if anything, said of the attempts
  themselves.
* `Policy.run_stopsAt`: the loop ends at the first attempt with something to stop for.
* `Policy.exists_stopsAt`: it ends in time if the clock advances between attempts.
-/

namespace RetryLoop

/-- What an attempt says: the loop is to end with a result or an error, or the attempt has
failed with an error, or it was a success that decides nothing. -/
inductive Verdict (ε α : Type) where
  | finished (result : α)
  | fatal (error : ε)
  | failed (error : ε)
  | pending

/-- An attempt, and the clock after it. -/
structure Attempt (ε α : Type) where
  verdict : Verdict ε α
  clock : ℕ

structure Policy (ε : Type) where
  limit : ℕ
  limit_pos : 0 < limit
  deadline : ℕ
  timeout : ε

variable {ε α : Type}

def Verdict.isFailed : Verdict ε α → Bool
  | .failed _ => true
  | _ => false

/-- One turn: the loop goes on with a count of failed attempts, or it ends. -/
inductive Turn (ε α : Type) where
  | again (failures : ℕ)
  | done (result : Except ε α)

namespace Policy

variable (policy : Policy ε)

def turn (failures : ℕ) (attempt : Attempt ε α) : Turn ε α :=
  match attempt.verdict with
  | .finished result => .done (.ok result)
  | .fatal error => .done (.error error)
  | .failed error =>
    if policy.limit ≤ failures + 1 then .done (.error error)
    else if policy.deadline ≤ attempt.clock then .done (.error policy.timeout)
    else .again (failures + 1)
  | .pending =>
    if policy.deadline ≤ attempt.clock then .done (.error policy.timeout) else .again 0

/-- The loop; nothing if it is still running after the attempts given. -/
def run : ℕ → List (Attempt ε α) → Option (Except ε α)
  | _, [] => none
  | failures, attempt :: attempts =>
    match policy.turn failures attempt with
    | .done result => some result
    | .again failures => run failures attempts

end Policy

/-- The number of failed attempts in a row that attempt `i` ends. -/
def streak (attempts : List (Attempt ε α)) (i : ℕ) : ℕ :=
  ((attempts.take (i + 1)).reverse.takeWhile fun attempt => attempt.verdict.isFailed).length

/-- What attempt `i` ends the loop with. -/
def Policy.stop (policy : Policy ε) (attempts : List (Attempt ε α)) (i : ℕ) : Option (Except ε α) :=
  attempts[i]?.bind fun attempt =>
    match attempt.verdict with
    | .finished result => some (.ok result)
    | .fatal error => some (.error error)
    | .failed error =>
      if streak attempts i = policy.limit then some (.error error)
      else if policy.deadline ≤ attempt.clock then some (.error policy.timeout)
      else none
    | .pending => if policy.deadline ≤ attempt.clock then some (.error policy.timeout) else none

/-- `loop` makes exactly the attempts up to attempt `i`, and ends with `result`. -/
def StopsAt {β ρ : Type} (loop : List β → Option ρ) (attempts : List β) (i : ℕ) (result : ρ) : Prop :=
  loop (attempts.take i) = none ∧ loop (attempts.take (i + 1)) = some result

/-! ## Streaks -/

/-- The count the loop keeps after the attempts given, from a count before them. -/
def count (failures : ℕ) (attempts : List (Attempt ε α)) : ℕ :=
  attempts.foldl (fun failures attempt => if attempt.verdict.isFailed then failures + 1 else 0) failures

theorem count_concat (failures : ℕ) (attempts : List (Attempt ε α)) (attempt : Attempt ε α) :
    count failures (attempts ++ [attempt]) =
      if attempt.verdict.isFailed then count failures attempts + 1 else 0 := by
  simp only [count, List.foldl_append, List.foldl_cons, List.foldl_nil]

theorem count_zero_eq (attempts : List (Attempt ε α)) :
    count 0 attempts = (attempts.reverse.takeWhile fun attempt => attempt.verdict.isFailed).length := by
  induction attempts using List.reverseRecOn with
  | nil => rfl
  | append_singleton attempts attempt ih =>
    rw [count_concat, List.reverse_append, ih]
    by_cases hfailed : attempt.verdict.isFailed <;> simp [hfailed]

theorem streak_eq (attempts : List (Attempt ε α)) (i : ℕ) :
    streak attempts i = count 0 (attempts.take (i + 1)) := (count_zero_eq _).symm

theorem take_succ_of_getElem? {β : Type} {attempts : List β} {i : ℕ} {attempt : β}
    (hi : attempts[i]? = some attempt) : attempts.take (i + 1) = attempts.take i ++ [attempt] := by
  rw [List.take_add_one, hi]
  rfl

/-- A streak is one longer than the streak before it, or broken. -/
theorem streak_of_getElem? {attempts : List (Attempt ε α)} {i : ℕ} {attempt : Attempt ε α}
    (hi : attempts[i]? = some attempt) :
    streak attempts i = if attempt.verdict.isFailed then count 0 (attempts.take i) + 1 else 0 := by
  rw [streak_eq, take_succ_of_getElem? hi, count_concat]

/-- The count has reached `n` when the last `n` attempts have failed. -/
theorem le_count_iff {attempts : List (Attempt ε α)} {n : ℕ} :
    n ≤ count 0 attempts ↔ n ≤ attempts.length ∧ ∀ k < attempts.length, attempts.length ≤ k + n →
      ∃ attempt, attempts[k]? = some attempt ∧ attempt.verdict.isFailed = true := by
  induction attempts using List.reverseRecOn generalizing n with
  | nil =>
    have hcount : count 0 ([] : List (Attempt ε α)) = 0 := rfl
    rw [hcount, List.length_nil]
    exact ⟨fun hn => ⟨hn, fun k hk => absurd hk (Nat.not_lt_zero k)⟩, fun hwindow => hwindow.1⟩
  | append_singleton attempts attempt ih =>
    have hlast : (attempts ++ [attempt])[attempts.length]? = some attempt := by
      rw [List.getElem?_append_right le_rfl, Nat.sub_self]
      rfl
    rw [count_concat, List.length_append, List.length_singleton]
    rcases n with _ | n
    · exact ⟨fun _ => ⟨Nat.zero_le _, fun k hk hlength => by omega⟩, fun _ => Nat.zero_le _⟩
    by_cases hfailed : attempt.verdict.isFailed = true
    · rw [if_pos hfailed, Nat.add_le_add_iff_right, ih]
      refine and_congr (Nat.add_le_add_iff_right).symm ⟨fun hwindow k hk hlength => ?_,
        fun hwindow k hk hlength => ?_⟩
      · rcases Nat.lt_succ_iff_lt_or_eq.mp hk with hbefore | rfl
        · rw [List.getElem?_append_left hbefore]
          exact hwindow k hbefore (by omega)
        · exact ⟨attempt, hlast, hfailed⟩
      · have hsome := hwindow k (by omega) (by omega)
        rwa [List.getElem?_append_left hk] at hsome
    · rw [if_neg hfailed]
      refine ⟨fun hn => by omega, fun hwindow => ?_⟩
      obtain ⟨attempt', hattempt', hfailed'⟩ := hwindow.2 attempts.length (by omega) (by omega)
      rw [hlast, Option.some.injEq] at hattempt'
      rw [hattempt'] at hfailed
      exact absurd hfailed' hfailed

/-- The streak that attempt `i` ends has `n` attempts or more when the last `n` have failed. -/
theorem le_streak_iff {attempts : List (Attempt ε α)} {n i : ℕ} (hi : i < attempts.length) :
    n ≤ streak attempts i ↔ n ≤ i + 1 ∧ ∀ k ≤ i, i < k + n →
      ∃ attempt, attempts[k]? = some attempt ∧ attempt.verdict.isFailed = true := by
  have hlength : (attempts.take (i + 1)).length = i + 1 := List.length_take_of_le hi
  rw [streak_eq, le_count_iff, hlength]
  refine and_congr_right fun _ => forall_congr' fun k => ?_
  rw [Nat.lt_succ_iff, Nat.succ_le_iff]
  refine forall_congr' fun hk => ?_
  rw [List.getElem?_take_of_lt (by omega)]

namespace Policy

variable (policy : Policy ε)

/-! ## Where the loop ends -/

/-- The last of some attempts matters only where the ones before leave the loop running. -/
theorem run_concat (attempts : List (Attempt ε α)) (attempt : Attempt ε α) (failures : ℕ) :
    policy.run failures (attempts ++ [attempt]) =
      match policy.run failures attempts with
      | some result => some result
      | none => match policy.turn (count failures attempts) attempt with
        | .done result => some result
        | .again _ => none := by
  induction attempts generalizing failures with
  | nil =>
    rw [List.nil_append]
    simp only [run, count, List.foldl_nil]
  | cons first attempts ih =>
    simp only [List.cons_append, run]
    rcases hturn : policy.turn failures first with failures' | result
    · -- the loop goes on with the count that `count` computes
      have hcount : count failures (first :: attempts) = count failures' attempts := by
        have hfailures : failures' = if first.verdict.isFailed then failures + 1 else 0 := by
          unfold turn at hturn
          rcases hverdict : first.verdict with _ | _ | _ | _ <;> rw [hverdict] at hturn <;>
            dsimp only at hturn
          · cases hturn
          · cases hturn
          · split at hturn
            · cases hturn
            · split at hturn
              · cases hturn
              · exact (Turn.again.inj hturn).symm
          · split at hturn
            · cases hturn
            · exact (Turn.again.inj hturn).symm
        simp only [count, List.foldl_cons, hfailures]
      dsimp only
      rw [ih, hcount]
    · rfl

/-- An attempt that ends the loop with an error is fatal, or the last of a streak, or late. -/
theorem of_stop_error {attempts : List (Attempt ε α)} {i : ℕ} {error : ε}
    (hstop : policy.stop attempts i = some (.error error)) :
    ∃ attempt, attempts[i]? = some attempt ∧ (attempt.verdict = .fatal error ∨
      streak attempts i = policy.limit ∨ policy.deadline ≤ attempt.clock) := by
  obtain ⟨attempt, hattempt, hends⟩ := Option.bind_eq_some_iff.mp hstop
  refine ⟨attempt, hattempt, ?_⟩
  rcases hverdict : attempt.verdict with result | message | message | _ <;> rw [hverdict] at hends <;>
    dsimp only at hends
  · cases hends
  · cases hends
    exact .inl rfl
  · split at hends
    · exact .inr (.inl ‹_›)
    · split at hends
      · exact .inr (.inr ‹_›)
      · cases hends
  · split at hends
    · exact .inr (.inr ‹_›)
    · cases hends

/-- Only a finished attempt ends the loop with a result. -/
theorem of_stop_ok {attempts : List (Attempt ε α)} {i : ℕ} {result : α}
    (hstop : policy.stop attempts i = some (.ok result)) :
    ∃ attempt, attempts[i]? = some attempt ∧ attempt.verdict = .finished result := by
  obtain ⟨attempt, hattempt, hends⟩ := Option.bind_eq_some_iff.mp hstop
  refine ⟨attempt, hattempt, ?_⟩
  rcases hverdict : attempt.verdict with finished | message | message | _ <;> rw [hverdict] at hends <;>
    dsimp only at hends
  · cases hends
    rfl
  · cases hends
  · split at hends
    · cases hends
    · split at hends <;> cases hends
  · split at hends <;> cases hends

theorem run_eq_none_of_le {attempts : List (Attempt ε α)} {i j : ℕ} (hij : i ≤ j)
    (hj : policy.run 0 (attempts.take j) = none) : policy.run 0 (attempts.take i) = none := by
  induction j, hij using Nat.le_induction with
  | base => exact hj
  | succ j hij ih =>
    apply ih
    rcases hlast : attempts[j]? with _ | attempt
    · have hlength := List.getElem?_eq_none_iff.mp hlast
      rwa [List.take_of_length_le (by omega)] at hj ⊢
    · rw [take_succ_of_getElem? hlast, run_concat] at hj
      rcases hrun : policy.run 0 (attempts.take j) with _ | result
      · rfl
      · rw [hrun] at hj
        cases hj

/-- While the loop runs, the count is below the limit. -/
theorem count_lt_limit {attempts : List (Attempt ε α)} (hrun : policy.run 0 attempts = none) :
    count 0 attempts < policy.limit := by
  induction attempts using List.reverseRecOn with
  | nil => exact policy.limit_pos
  | append_singleton attempts attempt ih =>
    rw [run_concat] at hrun
    rcases hbefore : policy.run 0 attempts with _ | result
    · rw [hbefore] at hrun
      rw [count_concat]
      rcases hverdict : attempt.verdict with _ | _ | _ | _ <;>
        simp only [turn, hverdict, Verdict.isFailed, if_true, reduceCtorEq] at hrun ⊢
      · split at hrun
        · cases hrun
        · rename_i hturn
          by_cases hlimit : policy.limit ≤ count 0 attempts + 1
          · rw [if_pos hlimit] at hturn
            cases hturn
          · omega
      · exact policy.limit_pos
    · rw [hbefore] at hrun
      cases hrun

/-- While the loop runs, its turn at the next attempt is what `stop` says. -/
theorem run_take_succ {attempts : List (Attempt ε α)} {i : ℕ}
    (hrun : policy.run 0 (attempts.take i) = none) :
    policy.run 0 (attempts.take (i + 1)) = policy.stop attempts i := by
  rcases hattempt : attempts[i]? with _ | attempt
  · have hlength := List.getElem?_eq_none_iff.mp hattempt
    rw [List.take_of_length_le hlength] at hrun
    rw [List.take_of_length_le (by omega), hrun]
    simp only [stop, hattempt, Option.bind_none]
  · have hcount := policy.count_lt_limit hrun
    have hstreak := streak_of_getElem? hattempt
    rw [take_succ_of_getElem? hattempt, run_concat, hrun]
    simp only [stop, hattempt, Option.bind_some, turn]
    rcases hverdict : attempt.verdict with result | error | error | _ <;> dsimp only
    · -- the limit is reached exactly where the streak is that long
      rw [hverdict] at hstreak
      simp only [Verdict.isFailed, if_true] at hstreak
      by_cases hlimit : policy.limit ≤ count 0 (attempts.take i) + 1
      · rw [if_pos hlimit, if_pos (by omega)]
      · rw [if_neg hlimit, if_neg (show ¬ streak attempts i = policy.limit by omega)]
        by_cases hclock : policy.deadline ≤ attempt.clock
        · rw [if_pos hclock, if_pos hclock]
        · rw [if_neg hclock, if_neg hclock]
    · by_cases hclock : policy.deadline ≤ attempt.clock
      · rw [if_pos hclock, if_pos hclock]
      · rw [if_neg hclock, if_neg hclock]

theorem run_take_eq_none_iff (attempts : List (Attempt ε α)) (i : ℕ) :
    policy.run 0 (attempts.take i) = none ↔ ∀ j < i, policy.stop attempts j = none := by
  induction i with
  | zero =>
    rw [List.take_zero]
    exact ⟨fun _ j hj => absurd hj (Nat.not_lt_zero j), fun _ => rfl⟩
  | succ i ih =>
    constructor
    · intro hrun j hj
      have hbefore := policy.run_eq_none_of_le (show j ≤ i + 1 by omega) hrun
      have hnext := policy.run_eq_none_of_le hj hrun
      rwa [← policy.run_take_succ hbefore]
    · intro hstop
      have hbefore := ih.mpr fun j hj => hstop j (by omega)
      rw [policy.run_take_succ hbefore]
      exact hstop i (by omega)

/-- **The loop ends at the first attempt with something to stop for, and with that.** -/
theorem run_stopsAt (attempts : List (Attempt ε α)) (i : ℕ) (result : Except ε α) :
    StopsAt (policy.run 0) attempts i result ↔
      policy.stop attempts i = some result ∧ ∀ j < i, policy.stop attempts j = none := by
  unfold StopsAt
  constructor
  · rintro ⟨hbefore, hrun⟩
    rw [policy.run_take_succ hbefore] at hrun
    exact ⟨hrun, (policy.run_take_eq_none_iff attempts i).mp hbefore⟩
  · rintro ⟨hstop, hbefore⟩
    have hrun := (policy.run_take_eq_none_iff attempts i).mpr hbefore
    exact ⟨hrun, (policy.run_take_succ hrun).trans hstop⟩

/-- Where the loop has ended, one of the attempts has ended it. -/
theorem exists_stop_of_run {attempts : List (Attempt ε α)} {i : ℕ} {result : Except ε α}
    (hrun : policy.run 0 (attempts.take i) = some result) :
    ∃ j < i, policy.stop attempts j = some result ∧ ∀ k < j, policy.stop attempts k = none := by
  induction i with
  | zero =>
    rw [List.take_zero] at hrun
    cases hrun
  | succ i ih =>
    rcases hbefore : policy.run 0 (attempts.take i) with _ | earlier
    · refine ⟨i, Nat.lt_succ_self i, ?_, (policy.run_take_eq_none_iff attempts i).mp hbefore⟩
      rw [← policy.run_take_succ hbefore, hrun]
    · have hsame : policy.run 0 (attempts.take (i + 1)) = policy.run 0 (attempts.take i) := by
        rcases hlast : attempts[i]? with _ | attempt
        · have hlength := List.getElem?_eq_none_iff.mp hlast
          rw [List.take_of_length_le (by omega), List.take_of_length_le hlength]
        · rw [take_succ_of_getElem? hlast, run_concat, hbefore]
      obtain ⟨j, hj, hstop⟩ := ih (hsame.symm.trans hrun)
      exact ⟨j, by omega, hstop⟩

/-- Where an attempt has something to stop for, an attempt up to it is the first such. -/
theorem exists_first_stop {attempts : List (Attempt ε α)} {i : ℕ} (hstop : policy.stop attempts i ≠ none) :
    ∃ j ≤ i, ∃ result, policy.stop attempts j = some result ∧ ∀ k < j, policy.stop attempts k = none := by
  let ends i := policy.stop attempts i ≠ none
  have hends : ∃ i, ends i := ⟨i, hstop⟩
  obtain ⟨result, hresult⟩ := Option.ne_none_iff_exists'.mp (Nat.find_spec hends)
  refine ⟨Nat.find hends, Nat.find_min' hends hstop, result, hresult, fun k hk => ?_⟩
  exact not_not.mp (Nat.find_min hends hk)

/-! ## That it ends -/

/-- The clock is at `start` or later at the first attempt, and advances by `interval` from each
attempt to the next. -/
structure Advances (interval start : ℕ) (attempts : List (Attempt ε α)) : Prop where
  first : ∀ attempt, attempts[0]? = some attempt → start ≤ attempt.clock
  next : ∀ i attempt attempt', attempts[i]? = some attempt → attempts[i + 1]? = some attempt' →
    attempt.clock + interval ≤ attempt'.clock

theorem Advances.le_clock {interval start : ℕ} {attempts : List (Attempt ε α)}
    (hadvances : Advances interval start attempts) {i : ℕ} {attempt : Attempt ε α}
    (hattempt : attempts[i]? = some attempt) : start + i * interval ≤ attempt.clock := by
  induction i generalizing attempt with
  | zero =>
    have hfirst := hadvances.first attempt hattempt
    omega
  | succ i ih =>
    have hlength : i + 1 < attempts.length := (List.getElem?_eq_some_iff.mp hattempt).1
    have hbefore : attempts[i]? = some attempts[i] := List.getElem?_eq_getElem (by omega)
    have hclock := ih hbefore
    have hnext := hadvances.next i _ _ hbefore hattempt
    rw [Nat.succ_mul]
    omega

theorem stop_isSome_of_deadline {attempts : List (Attempt ε α)} {i : ℕ} {attempt : Attempt ε α}
    (hattempt : attempts[i]? = some attempt) (hclock : policy.deadline ≤ attempt.clock) :
    (policy.stop attempts i).isSome := by
  simp only [stop, hattempt, Option.bind_some]
  rcases attempt.verdict with _ | _ | _ | _ <;> dsimp only
  · rfl
  · rfl
  · rw [if_pos hclock]
    split <;> rfl
  · rw [if_pos hclock]
    rfl

/-- **A loop whose clock advances ends within the time it has.** -/
theorem exists_stopsAt {attempts : List (Attempt ε α)} {interval start time : ℕ}
    (hinterval : 0 < interval) (hdeadline : policy.deadline = start + time)
    (hadvances : Advances interval start attempts) (hlength : time ⌈/⌉ interval < attempts.length) :
    ∃ i ≤ time ⌈/⌉ interval, ∃ result, StopsAt (policy.run 0) attempts i result := by
  have hattempt := List.getElem?_eq_getElem hlength
  have htime : time ≤ time ⌈/⌉ interval * interval := by
    have hle := @le_smul_ceilDiv ℕ ℕ _ _ _ _ _ _ interval time hinterval
    rwa [smul_eq_mul, Nat.mul_comm] at hle
  have hclock := hadvances.le_clock hattempt
  have hstop := policy.stop_isSome_of_deadline hattempt (by omega)
  obtain ⟨i, hi, result, hfirst⟩ := policy.exists_first_stop (Option.isSome_iff_ne_none.mp hstop)
  exact ⟨i, hi, result, (policy.run_stopsAt attempts i result).mpr hfirst⟩

end Policy

end RetryLoop
