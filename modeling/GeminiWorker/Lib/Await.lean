import Mathlib.Algebra.GroupWithZero.Nat
import Mathlib.Data.List.Basic
import Mathlib.Data.Nat.Notation
import Mathlib.Order.Nat

/-!
# Programs that await operations

A program awaits operations that change a state, one after the other. At most one of them stops it: it fails, or the
program is aborted while it waits for it, and a part of its effect is done.

* `Awaits`: such programs, as a monad.
* `Performs`: which operations a program awaits, in which states, whichever of them stops it.
* `Performs.bind`: the operations of a program in sequence are those of its parts.
-/

/-- What stops a program: an operation, counted from 0, with how much of its effect is done. -/
structure Fault where
  op : ℕ
  effect : ℕ
deriving DecidableEq

/-- The effect of an operation, done or stopped. -/
structure AwaitOp (σ : Type) where
  complete : σ → σ
  stop : ℕ → σ → σ

/-- A program over the states `σ`: what it returns, with the number of operations awaited so far, and the state it
leaves. It returns nothing where it is stopped or fails by itself. -/
def Awaits (σ α : Type) : Type := Option Fault → ℕ → σ → Option (α × ℕ) × σ

namespace Awaits

variable {σ α β ω : Type}

def fail : Awaits σ α := fun _ _ s => (none, s)

instance : Monad (Awaits σ) where
  pure a := fun _ k s => (some (a, k), s)
  bind p f := fun fault k s =>
    match p fault k s with
    | (none, s) => (none, s)
    | (some (a, k), s) => f a fault k s

def get : Awaits σ σ := fun _ k s => (some (s, k), s)

def set (s : σ) : Awaits σ Unit := fun _ k _ => (some ((), k), s)

/-- Waits for an operation. -/
def await (op : AwaitOp σ) : Awaits σ Unit := fun fault k s =>
  match fault with
  | some fault => if fault.op = k then (none, op.stop fault.effect s) else (some ((), k + 1), op.complete s)
  | none => (some ((), k + 1), op.complete s)

/-- What a program returns, and the state it leaves. -/
def run (p : Awaits σ α) (fault : Option Fault) (s : σ) : Option α × σ :=
  let (result, s) := p fault 0 s
  (result.map Prod.fst, s)

/-- The operation that a fault stops, among operations of which the first is the `k`th, with how much of its effect is
done. -/
def stopped (fault : Option Fault) (k : ℕ) (steps : List (σ × ω)) : Option ((σ × ω) × ℕ) :=
  fault.bind fun fault => if k ≤ fault.op then steps[fault.op - k]?.map fun step => (step, fault.effect) else none

variable {sem : ω → AwaitOp σ}

/-- The program awaits these operations, each in the state that stands beside it, and returns this result in this
state, unless one of them stops it. -/
def Performs (sem : ω → AwaitOp σ) (p : Awaits σ α) (s : σ) (steps : List (σ × ω)) (a : α) (s' : σ) : Prop :=
  ∀ fault k, p fault k s =
    match stopped fault k steps with
    | some ((before, op), effect) => (none, (sem op).stop effect before)
    | none => (some (a, k + steps.length), s')

theorem stopped_nil (fault : Option Fault) (k : ℕ) : stopped fault k ([] : List (σ × ω)) = none := by
  unfold stopped
  cases fault with
  | none => rfl
  | some fault => simp

theorem stopped_append (fault : Option Fault) (k : ℕ) (steps steps' : List (σ × ω)) :
    stopped fault k (steps ++ steps') = (stopped fault k steps).or (stopped fault (k + steps.length) steps') := by
  unfold stopped
  cases fault with
  | none => rfl
  | some fault =>
    simp only [Option.bind_some]
    by_cases hk : k ≤ fault.op
    · rw [if_pos hk]
      by_cases hfirst : fault.op - k < steps.length
      · rw [List.getElem?_append_left hfirst, if_pos hk, if_neg (by omega), List.getElem?_eq_getElem hfirst]
        rfl
      · have hle : steps.length ≤ fault.op - k := Nat.le_of_not_lt hfirst
        have hrest : fault.op - k - steps.length = fault.op - (k + steps.length) := by omega
        rw [List.getElem?_append_right hle, if_pos hk, if_pos (by omega), List.getElem?_eq_none hle, hrest]
        rfl
    · rw [if_neg hk, if_neg hk, if_neg (by omega)]
      rfl

namespace Performs

variable {p : Awaits σ α} {f : α → Awaits σ β} {s s' s'' : σ} {steps steps' : List (σ × ω)} {a : α} {b : β}

theorem pure (a : α) (s : σ) : Performs sem (Pure.pure a : Awaits σ α) s [] a s := by
  intro fault k
  rw [stopped_nil]
  rfl

theorem get (s : σ) : Performs sem Awaits.get s [] s s := by
  intro fault k
  rw [stopped_nil]
  rfl

theorem set (s s' : σ) : Performs sem (Awaits.set s') s [] () s' := by
  intro fault k
  rw [stopped_nil]
  rfl

theorem await (op : ω) (s : σ) : Performs sem (Awaits.await (sem op)) s [(s, op)] () ((sem op).complete s) := by
  intro fault k
  unfold Awaits.await stopped
  cases fault with
  | none => rfl
  | some fault =>
    simp only [Option.bind_some]
    rcases Nat.lt_trichotomy fault.op k with hlt | heq | hlt
    · rw [if_neg (by omega), if_neg (by omega)]
      rfl
    · subst heq
      rw [if_pos rfl, if_pos (Nat.le_refl _), Nat.sub_self]
      rfl
    · have hpast : [(s, op)].length ≤ fault.op - k := by
        rw [List.length_singleton]
        omega
      rw [if_neg (by omega), if_pos (by omega), List.getElem?_eq_none hpast]
      rfl

/-- **Programs in sequence perform their operations in sequence.** -/
theorem bind (hp : Performs sem p s steps a s') (hf : Performs sem (f a) s' steps' b s'') :
    Performs sem (p >>= f) s (steps ++ steps') b s'' := by
  intro fault k
  change (match p fault k s with
    | (none, s) => (none, s)
    | (some (a, k), s) => f a fault k s) = _
  rw [hp fault k, stopped_append]
  cases stopped fault k steps with
  | some stop => rfl
  | none =>
    rw [Option.none_or, List.length_append, ← Nat.add_assoc]
    exact hf fault (k + steps.length)

/-- A program that awaits an operation first. -/
theorem await_bind {op : ω} {f : Unit → Awaits σ β} (hf : Performs sem (f ()) ((sem op).complete s) steps b s') :
    Performs sem (Awaits.await (sem op) >>= f) s ((s, op) :: steps) b s' :=
  (await op s).bind hf

/-- **Without a fault a program returns its result.** -/
theorem run_none (h : Performs sem p s steps a s') : p.run none s = (some a, s') := by
  unfold run
  rw [h none 0]
  rfl

/-- **With a fault it is stopped at the operation**, if there is one. -/
theorem run_some (h : Performs sem p s steps a s') (fault : Fault) : p.run (some fault) s =
    match steps[fault.op]? with
    | some (before, op) => (none, (sem op).stop fault.effect before)
    | none => (some a, s') := by
  unfold run
  rw [h (some fault) 0]
  unfold stopped
  rw [Option.bind_some, if_pos (Nat.zero_le _), Nat.sub_zero]
  cases steps[fault.op]? with
  | some step => rfl
  | none => rfl

end Performs

end Awaits
