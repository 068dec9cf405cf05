import Mathlib.Algebra.GroupWithZero.Nat
import Mathlib.Data.List.Forall2

/-!
# Programs that ask requests

A program that asks one request after the other and goes on with the answers. It is run
against answers in the order in which they come, so what holds for all of them holds for
whoever answers.

* `Alike.run`: programs that ask alike requests ask them in step and end alike.
* `run_firstOk`: how far a program gets that tries one attempt after the other until one succeeds.
* `run_inTurn`: how far one gets that serves one item after the other until one fails.
-/

/-- A program that asks requests `ρ`, is answered with `α`, and ends with `β`. -/
inductive Dialogue (ρ α β : Type) where
  | done (result : β)
  | ask (request : ρ) (next : α → Dialogue ρ α β)

namespace Dialogue

variable {ρ α β ε : Type}

/-- The requests asked, and the result. -/
def run : Dialogue ρ α β → (ℕ → α) → List ρ × β
  | .done result, _ => ([], result)
  | .ask request next, answers =>
    let (requests, result) := run (next (answers 0)) fun i => answers (i + 1)
    (request :: requests, result)

/-! ## Programs that ask alike -/

/-- The programs ask related requests, whatever is answered, and end with the same result. -/
inductive Alike (R : ρ → ρ → Prop) : Dialogue ρ α β → Dialogue ρ α β → Prop
  | done (result : β) : Alike R (.done result) (.done result)
  | ask {request request' : ρ} {next next' : α → Dialogue ρ α β} (related : R request request')
      (alike : ∀ answer, Alike R (next answer) (next' answer)) : Alike R (.ask request next) (.ask request' next')

theorem Alike.run {R : ρ → ρ → Prop} {p q : Dialogue ρ α β} (h : Alike R p q) :
    ∀ answers, List.Forall₂ R (p.run answers).1 (q.run answers).1 ∧ (p.run answers).2 = (q.run answers).2 := by
  induction h with
  | done result => exact fun answers => ⟨.nil, rfl⟩
  | ask related _ ih =>
    intro answers
    obtain ⟨hrequests, hresult⟩ := ih (answers 0) fun i => answers (i + 1)
    exact ⟨.cons related hrequests, hresult⟩

/-! ## One attempt after the other -/

/-- Goes on with another program where the first one has failed. -/
def orElse (other : Dialogue ρ α (Except ε β)) : Dialogue ρ α (Except ε β) → Dialogue ρ α (Except ε β)
  | .done (.ok result) => .done (.ok result)
  | .done (.error _) => other
  | .ask request next => .ask request fun answer => orElse other (next answer)

theorem Alike.orElse {R : ρ → ρ → Prop} {p q other other' : Dialogue ρ α (Except ε β)} (h : Alike R p q)
    (hother : Alike R other other') : Alike R (orElse other p) (orElse other' q) := by
  induction h with
  | done result =>
    rcases result with error | result
    · exact hother
    · exact .done _
  | ask related _ ih => exact .ask related ih

/-- An attempt: a request that can be made or not, and what becomes of its answer. -/
structure Attempt (ρ α ε β : Type) where
  request : Except ε ρ
  accept : α → Except ε β

namespace Attempt

def dialogue (attempt : Attempt ρ α ε β) : Dialogue ρ α (Except ε β) :=
  match attempt.request with
  | .ok request => .ask request fun answer => .done (attempt.accept answer)
  | .error error => .done (.error error)

/-- What becomes of an attempt, if the answer is the one to its request. -/
def outcome (attempt : Attempt ρ α ε β) (answer : α) : Except ε β := attempt.request.bind fun _ => attempt.accept answer

end Attempt

/-- The attempts make related requests, or neither does, and go on with the answer alike. -/
structure Attempt.Alike (R : ρ → ρ → Prop) (attempt attempt' : Attempt ρ α ε β) : Prop where
  request : (∃ request request', attempt.request = .ok request ∧ attempt'.request = .ok request' ∧ R request request') ∨
    ∃ error : ε, attempt.request = .error error ∧ attempt'.request = .error error
  accept : attempt.accept = attempt'.accept

theorem Attempt.Alike.dialogue {R : ρ → ρ → Prop} {attempt attempt' : Attempt ρ α ε β} (h : Attempt.Alike R attempt attempt') :
    Dialogue.Alike R attempt.dialogue attempt'.dialogue := by
  obtain ⟨request, accept⟩ := attempt
  obtain ⟨request', accept'⟩ := attempt'
  obtain ⟨hrequest, rfl⟩ := h
  rcases hrequest with ⟨request, request', rfl, rfl, hrelated⟩ | ⟨error, rfl, rfl⟩
  · exact .ask hrelated fun answer => .done (accept answer)
  · exact Dialogue.Alike.done (Except.error error)

/-- The attempts in turn, until one succeeds. -/
def firstOk (first : Attempt ρ α ε β) : List (Attempt ρ α ε β) → Dialogue ρ α (Except ε β)
  | [] => first.dialogue
  | next :: attempts => orElse (firstOk next attempts) first.dialogue

theorem Alike.firstOk {R : ρ → ρ → Prop} {first first' : Attempt ρ α ε β} {attempts attempts' : List (Attempt ρ α ε β)}
    (hfirst : Attempt.Alike R first first') (h : List.Forall₂ (Attempt.Alike R) attempts attempts') :
    Alike R (firstOk first attempts) (firstOk first' attempts') := by
  induction h generalizing first first' with
  | nil => exact hfirst.dialogue
  | cons hnext _ ih => exact hfirst.dialogue.orElse (ih hnext)

/-- The requests that attempts make. -/
def requestsOf (attempts : List (Attempt ρ α ε β)) : List ρ := attempts.filterMap fun attempt => attempt.request.toOption

theorem requestsOf_cons (attempt : Attempt ρ α ε β) (attempts : List (Attempt ρ α ε β)) :
    requestsOf (attempt :: attempts) = requestsOf [attempt] ++ requestsOf attempts := by
  rw [requestsOf, ← List.singleton_append, List.filterMap_append]
  rfl

theorem Attempt.run_dialogue (attempt : Attempt ρ α ε β) (answers : ℕ → α) :
    attempt.dialogue.run answers = (requestsOf [attempt], attempt.outcome (answers 0)) := by
  obtain ⟨request, accept⟩ := attempt
  rcases request with error | request <;> rfl

theorem run_orElse_ok {other p : Dialogue ρ α (Except ε β)} {answers : ℕ → α} {requests : List ρ} {result : β}
    (h : p.run answers = (requests, .ok result)) : (orElse other p).run answers = (requests, .ok result) := by
  induction p generalizing answers requests with
  | done result' =>
    obtain ⟨rfl, rfl⟩ := Prod.mk.inj h
    rfl
  | ask request next ih =>
    obtain ⟨rfl, hresult⟩ := Prod.mk.inj h
    have hnext := ih (answers 0) (Prod.ext rfl hresult)
    rw [orElse, run, hnext]

/-- The other program goes on with the answers that are left. -/
theorem run_orElse_error {other p : Dialogue ρ α (Except ε β)} {answers : ℕ → α} {requests : List ρ} {error : ε}
    (h : p.run answers = (requests, .error error)) :
    (orElse other p).run answers =
      (requests ++ (other.run fun i => answers (requests.length + i)).1,
        (other.run fun i => answers (requests.length + i)).2) := by
  induction p generalizing answers requests with
  | done result' =>
    obtain ⟨rfl, rfl⟩ := Prod.mk.inj h
    simp only [orElse, List.length_nil, Nat.zero_add, List.nil_append]
  | ask request next ih =>
    obtain ⟨rfl, hresult⟩ := Prod.mk.inj h
    have hnext := ih (answers 0) (Prod.ext rfl hresult)
    have hshift : ∀ n i, n + i + 1 = n + 1 + i := fun n i => Nat.add_right_comm n i 1
    rw [orElse, run, hnext]
    simp only [hshift, List.cons_append, List.length_cons]

/-- **The attempts up to the first that succeeds are made, and no other.** All before it have
failed; where it has failed too, it is the last. -/
theorem run_firstOk (first : Attempt ρ α ε β) (attempts : List (Attempt ρ α ε β)) (answers : ℕ → α) :
    ∃ before last after, first :: attempts = before ++ last :: after ∧
      (firstOk first attempts).run answers =
        (requestsOf (before ++ [last]), last.outcome (answers (requestsOf before).length)) ∧
      (∀ earlier attempt later, before = earlier ++ attempt :: later →
        ∃ error, attempt.outcome (answers (requestsOf earlier).length) = .error error) ∧
      (∀ error, last.outcome (answers (requestsOf before).length) = .error error → after = []) := by
  induction attempts generalizing first answers with
  | nil =>
    refine ⟨[], first, [], rfl, first.run_dialogue answers, fun earlier attempt later h => ?_, fun _ _ => rfl⟩
    exact absurd h (List.append_ne_nil_of_right_ne_nil earlier (List.cons_ne_nil attempt later)).symm
  | cons next attempts ih =>
    have hfirst := first.run_dialogue answers
    rcases houtcome : first.outcome (answers 0) with error | result
    · -- the first attempt fails, and the others go on behind its request
      rw [houtcome] at hfirst
      obtain ⟨before, last, after, hsplit, hrun, hfailed, hlast⟩ :=
        ih next fun i => answers ((requestsOf [first]).length + i)
      have hcount : ∀ l, (requestsOf (first :: l)).length = (requestsOf [first]).length + (requestsOf l).length := by
        intro l
        rw [requestsOf_cons, List.length_append]
      refine ⟨first :: before, last, after, by rw [hsplit, List.cons_append], ?_, ?_, ?_⟩
      · rw [firstOk, run_orElse_error hfirst, hrun, hcount before, List.cons_append,
          requestsOf_cons first (before ++ [last])]
      · intro earlier attempt later h
        rcases earlier with _ | ⟨head, earlier⟩
        · obtain ⟨rfl, -⟩ := List.cons.inj h
          exact ⟨error, houtcome⟩
        · obtain ⟨rfl, hbefore⟩ := List.cons.inj h
          rw [hcount earlier]
          exact hfailed earlier attempt later hbefore
      · rw [hcount before]
        exact hlast
    · rw [houtcome] at hfirst
      refine ⟨[], first, next :: attempts, rfl, ?_, fun earlier attempt later h => ?_, fun error h => ?_⟩
      · rw [firstOk, run_orElse_ok hfirst]
        exact Prod.ext rfl houtcome.symm
      · exact absurd h (List.append_ne_nil_of_right_ne_nil earlier (List.cons_ne_nil attempt later)).symm
      · cases houtcome.symm.trans h

/-! ## One program after the other -/

section

variable {ι γ : Type}

/-- The requests of the program, and what is made of its result. -/
def map (f : β → γ) : Dialogue ρ α β → Dialogue ρ α γ
  | .done result => .done (f result)
  | .ask request next => .ask request fun answer => map f (next answer)

theorem run_map (f : β → γ) (p : Dialogue ρ α β) (answers : ℕ → α) :
    (p.map f).run answers = ((p.run answers).1, f (p.run answers).2) := by
  induction p generalizing answers with
  | done result => simp only [map, run]
  | ask request next ih => simp only [map, run, ih]

/-- Goes on with the result, unless the program fails. -/
def andThen (next : β → Dialogue ρ α (Except ε γ)) : Dialogue ρ α (Except ε β) → Dialogue ρ α (Except ε γ)
  | .done (.ok result) => next result
  | .done (.error error) => .done (.error error)
  | .ask request rest => .ask request fun answer => andThen next (rest answer)

theorem run_andThen_error {next : β → Dialogue ρ α (Except ε γ)} {p : Dialogue ρ α (Except ε β)} {answers : ℕ → α}
    {requests : List ρ} {error : ε} (h : p.run answers = (requests, .error error)) :
    (andThen next p).run answers = (requests, .error error) := by
  induction p generalizing answers requests with
  | done result =>
    obtain ⟨rfl, rfl⟩ := Prod.mk.inj h
    simp only [andThen, run]
  | ask request rest ih =>
    obtain ⟨rfl, hresult⟩ := Prod.mk.inj h
    have hrest := ih (answers 0) (Prod.ext rfl hresult)
    rw [andThen, run, hrest]

/-- What goes on is answered with the answers that are left. -/
theorem run_andThen_ok {next : β → Dialogue ρ α (Except ε γ)} {p : Dialogue ρ α (Except ε β)} {answers : ℕ → α}
    {requests : List ρ} {result : β} (h : p.run answers = (requests, .ok result)) :
    (andThen next p).run answers =
      (requests ++ ((next result).run fun i => answers (requests.length + i)).1,
        ((next result).run fun i => answers (requests.length + i)).2) := by
  induction p generalizing answers requests with
  | done result' =>
    obtain ⟨rfl, rfl⟩ := Prod.mk.inj h
    simp only [andThen, List.length_nil, Nat.zero_add, List.nil_append]
  | ask request rest ih =>
    obtain ⟨rfl, hresult⟩ := Prod.mk.inj h
    have hrest := ih (answers 0) (Prod.ext rfl hresult)
    have hshift : ∀ n i, n + i + 1 = n + 1 + i := fun n i => Nat.add_right_comm n i 1
    rw [andThen, run, hrest]
    simp only [hshift, List.cons_append, List.length_cons]

/-- The items are served in turn, up to the first that fails. -/
def inTurn (serve : ι → Dialogue ρ α (Except ε β)) : List ι → Dialogue ρ α (Except ε (List β))
  | [] => .done (.ok [])
  | item :: items => andThen (fun result => (inTurn serve items).map (Except.map (result :: ·))) (serve item)

theorem inTurn_congr {serve : ι → Dialogue ρ α (Except ε β)} {items items' : List ι}
    (h : List.Forall₂ (fun item item' => serve item = serve item') items items') :
    inTurn serve items = inTurn serve items' := by
  induction h with
  | nil => rfl
  | cons hitem _ ih => rw [inTurn, inTurn, hitem, ih]

/-- The items are served one after the other, each with the answers that those before it have left: the requests of
each, and what comes of it. -/
inductive InTurn (Serves : ι → (ℕ → α) → List ρ → β → Prop) : List ι → (ℕ → α) → List (List ρ) → List β → Prop
  | nil (answers : ℕ → α) : InTurn Serves [] answers [] []
  | cons {item : ι} {items : List ι} {answers : ℕ → α} {requests : List ρ} {result : β} {others : List (List ρ)}
      {results : List β} (head : Serves item answers requests result)
      (tail : InTurn Serves items (fun i => answers (requests.length + i)) others results) :
      InTurn Serves (item :: items) answers (requests :: others) (result :: results)

theorem InTurn.mono {Serves Serves' : ι → (ℕ → α) → List ρ → β → Prop} {items : List ι} {answers : ℕ → α}
    {requests : List (List ρ)} {results : List β}
    (hserves : ∀ item answers requests result, Serves item answers requests result → Serves' item answers requests result)
    (h : InTurn Serves items answers requests results) : InTurn Serves' items answers requests results := by
  induction h with
  | nil answers => exact .nil answers
  | cons head _ ih => exact .cons (hserves _ _ _ _ head) ih

/-- **The items up to the first that fails are served, and no other is asked for.** -/
theorem run_inTurn (serve : ι → Dialogue ρ α (Except ε β)) (items : List ι) (answers : ℕ → α) :
    ∃ served rest requests results, items = served ++ rest ∧
      InTurn (fun item answers requests result => (serve item).run answers = (requests, .ok result))
        served answers requests results ∧
      (rest = [] → (inTurn serve items).run answers = (requests.flatten, .ok results)) ∧
      ∀ failed later, rest = failed :: later → ∃ last error,
        ((serve failed).run fun i => answers (requests.flatten.length + i)) = (last, .error error) ∧
        (inTurn serve items).run answers = (requests.flatten ++ last, .error error) := by
  induction items generalizing answers with
  | nil =>
    refine ⟨[], [], [], [], rfl, .nil answers, fun _ => rfl, fun failed later h => ?_⟩
    exact absurd h.symm (List.cons_ne_nil failed later)
  | cons item items ih =>
    rcases hrun : (serve item).run answers with ⟨first, error | result⟩
    · -- the first item fails, and the others are not looked at
      refine ⟨[], item :: items, [], [], rfl, .nil answers, fun h => absurd h (List.cons_ne_nil item items), ?_⟩
      intro failed later h
      obtain ⟨rfl, -⟩ := List.cons.inj h
      refine ⟨first, error, ?_, ?_⟩
      · simpa only [List.flatten_nil, List.length_nil, Nat.zero_add] using hrun
      · rw [inTurn, run_andThen_error hrun, List.flatten_nil, List.nil_append]
    · obtain ⟨served, rest, requests, results, hsplit, hserved, hdone, hfailed⟩ :=
        ih fun i => answers (first.length + i)
      have hlength : (first :: requests).flatten.length = first.length + requests.flatten.length := by
        rw [List.flatten_cons, List.length_append]
      refine ⟨item :: served, rest, first :: requests, result :: results, by rw [hsplit, List.cons_append],
        .cons hrun hserved, fun h => ?_, fun failed later h => ?_⟩
      · rw [inTurn, run_andThen_ok hrun, run_map, hdone h, List.flatten_cons]
        simp only [Except.map]
      · obtain ⟨last, error, hlast, hitems⟩ := hfailed failed later h
        refine ⟨last, error, ?_, ?_⟩
        · simpa only [hlength, Nat.add_assoc] using hlast
        · rw [inTurn, run_andThen_ok hrun, run_map, hitems, List.flatten_cons, List.append_assoc]
          simp only [Except.map]

/-- One request, and what becomes of its answer. -/
def once (request : ρ) (accept : α → Except ε β) : Dialogue ρ α (Except ε β) :=
  .ask request fun answer => .done (accept answer)

/-- **Items that ask one request each**: they succeed together if and only if each accepts the answer at its place, and
whatever is answered, no other request is asked. -/
theorem run_inTurn_once (request : ι → ρ) (accept : ι → α → Except ε β) (items : List ι) (answers : ℕ → α) :
    let run := (inTurn (fun item => once (request item) (accept item)) items).run answers
    run.1 <+: items.map request ∧ (∀ results, run.2 = .ok results → run.1 = items.map request) ∧
      ∀ results, run.2 = .ok results ↔
        List.Forall₂ (fun e result => accept e.1 (answers e.2) = .ok result) items.zipIdx results := by
  induction items generalizing answers with
  | nil =>
    refine ⟨List.nil_prefix, fun _ _ => rfl, fun results => ?_⟩
    rw [List.zipIdx_nil, List.forall₂_nil_left_iff]
    constructor
    · intro h
      exact (Except.ok.inj h).symm
    · rintro rfl
      rfl
  | cons item items ih =>
    have hshift : ∀ (l : List ι) (n : ℕ), l.zipIdx (n + 1) = (l.zipIdx n).map fun e => (e.1, e.2 + 1) := by
      intro l
      induction l with
      | nil => exact fun _ => rfl
      | cons a l ih => exact fun n => congrArg _ (ih (n + 1))
    have hitem : (once (request item) (accept item)).run answers = ([request item], accept item (answers 0)) := rfl
    rcases haccept : accept item (answers 0) with error | result
    · rw [haccept] at hitem
      intro run
      have hrun : run = ([request item], .error error) := run_andThen_error hitem
      rw [hrun]
      refine ⟨List.prefix_append [request item] _, fun results h => (by cases h), fun results => ⟨fun h => (by cases h), ?_⟩⟩
      intro hall
      obtain ⟨first, others, hfirst, -, -⟩ := List.forall₂_cons_left_iff.mp hall
      cases haccept.symm.trans hfirst
    · rw [haccept] at hitem
      -- the others are answered with what is left
      obtain ⟨hasked, hdone, hresults⟩ := ih fun i => answers (1 + i)
      rcases hothers : (inTurn (fun item => once (request item) (accept item)) items).run fun i => answers (1 + i) with
        ⟨asked, outcome⟩
      rw [hothers] at hasked hdone hresults
      intro run
      have hrun : run = (request item :: asked, outcome.map (result :: ·)) := by
        have hthen := @run_andThen_ok ρ α β ε (List β)
          (fun result => (inTurn (fun item => once (request item) (accept item)) items).map (Except.map (result :: ·)))
          _ _ _ _ hitem
        have hmap := run_map (Except.map (result :: ·)) (inTurn (fun item => once (request item) (accept item)) items)
          fun i => answers (1 + i)
        rw [hothers] at hmap
        exact hthen.trans (congrArg (fun r : List ρ × Except ε (List β) => ([request item] ++ r.1, r.2)) hmap)
      rw [hrun]
      refine ⟨(List.prefix_cons_inj _).mpr hasked, fun results h => ?_, fun results => ?_⟩
      · rcases outcome with error | others
        · cases h
        · exact congrArg (request item :: ·) (hdone others rfl)
      · rw [List.zipIdx_cons, hshift, List.forall₂_cons_left_iff]
        constructor
        · intro h
          rcases outcome with error | others
          · cases h
          · obtain rfl := Except.ok.inj h
            refine ⟨result, others, haccept, ?_, rfl⟩
            rw [List.forall₂_map_left_iff]
            exact ((hresults others).mp rfl).imp fun e result h => by rwa [Nat.add_comm e.2 1]
        · rintro ⟨first, others, hfirst, hall, rfl⟩
          rw [haccept, Except.ok.injEq] at hfirst
          rw [List.forall₂_map_left_iff] at hall
          have hothers : outcome = .ok others :=
            (hresults others).mpr (hall.imp fun e result h => (by rwa [Nat.add_comm 1 e.2]))
          rw [hothers, hfirst]
          rfl

end

end Dialogue
