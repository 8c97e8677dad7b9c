import Mathlib.Data.List.Basic
import Mathlib.Logic.Relation

set_option autoImplicit false

/-!
Runs of event-driven programs.  A handler either leaves the process running or
stops it at a failed assertion; in both cases the state reached is kept, since
what was sent before the failure stays sent.
-/

namespace FdsPaxos.TransitionRuns

variable {σ ε α : Type*}

/-- Result of a handler: the process goes on, or an assertion stopped it. -/
inductive Outcome (α σ : Type*) where
  | running (state : σ)
  | aborted (cause : α) (state : σ)
deriving DecidableEq

namespace Outcome

def state : Outcome α σ → σ
  | running s => s
  | aborted _ s => s

/-- Continue in another state type; `embed` says what is left of a stopped process. -/
def andThen {τ : Type*} (o : Outcome α σ) (embed : σ → τ) (f : σ → Outcome α τ) :
    Outcome α τ :=
  match o with
  | running s => f s
  | aborted a s => aborted a (embed s)

def bind (o : Outcome α σ) (f : σ → Outcome α σ) : Outcome α σ := o.andThen id f

def map {τ : Type*} (f : σ → τ) : Outcome α σ → Outcome α τ
  | running s => running (f s)
  | aborted a s => aborted a (f s)

def check (p : Prop) [Decidable p] (cause : α) (s : σ) (next : Outcome α σ) : Outcome α σ :=
  if p then next else aborted cause s

def IsRunning : Outcome α σ → Prop
  | running _ => True
  | aborted _ _ => False

instance (o : Outcome α σ) : Decidable o.IsRunning :=
  match o with
  | running _ => isTrue trivial
  | aborted _ _ => isFalse id

theorem running_of_isRunning {o : Outcome α σ} (h : o.IsRunning) : o = running o.state := by
  cases o with
  | running s => rfl
  | aborted a s => exact h.elim

@[simp] theorem state_running (s : σ) : (running s : Outcome α σ).state = s := rfl

@[simp] theorem state_aborted (a : α) (s : σ) : (aborted a s).state = s := rfl

@[simp] theorem andThen_running {τ : Type*} (s : σ) (embed : σ → τ) (f : σ → Outcome α τ) :
    (running s).andThen embed f = f s := rfl

@[simp] theorem andThen_aborted {τ : Type*} (a : α) (s : σ) (embed : σ → τ)
    (f : σ → Outcome α τ) : (aborted a s).andThen embed f = aborted a (embed s) := rfl

@[simp] theorem bind_running (s : σ) (f : σ → Outcome α σ) : (running s).bind f = f s := rfl

@[simp] theorem bind_aborted (a : α) (s : σ) (f : σ → Outcome α σ) :
    (aborted a s).bind f = aborted a s := rfl

@[simp] theorem map_running {τ : Type*} (f : σ → τ) (s : σ) :
    (running s : Outcome α σ).map f = running (f s) := rfl

@[simp] theorem map_aborted {τ : Type*} (f : σ → τ) (a : α) (s : σ) :
    (aborted a s).map f = aborted a (f s) := rfl

@[simp] theorem state_map {τ : Type*} (f : σ → τ) (o : Outcome α σ) :
    (o.map f).state = f o.state := by
  cases o <;> rfl

theorem bind_eq_running {o : Outcome α σ} {f : σ → Outcome α σ} {t : σ} :
    o.bind f = running t ↔ ∃ u, o = running u ∧ f u = running t := by
  cases o with
  | running u => simp
  | aborted a u => simp

theorem andThen_eq_running {τ : Type*} {o : Outcome α σ} {embed : σ → τ} {f : σ → Outcome α τ}
    {t : τ} : o.andThen embed f = running t ↔ ∃ u, o = running u ∧ f u = running t := by
  cases o with
  | running u => simp
  | aborted a u => simp

theorem map_eq_running {τ : Type*} {o : Outcome α σ} {f : σ → τ} {t : τ} :
    o.map f = running t ↔ ∃ u, o = running u ∧ f u = t := by
  cases o with
  | running u => simp
  | aborted a u => simp

/-- A loop over a list, left at the first failed assertion. -/
def fold (f : σ → ε → Outcome α σ) : σ → List ε → Outcome α σ
  | s, [] => running s
  | s, e :: es => (f s e).bind fun s' => fold f s' es

@[simp] theorem fold_nil (f : σ → ε → Outcome α σ) (s : σ) : fold f s [] = running s := rfl

@[simp] theorem fold_cons (f : σ → ε → Outcome α σ) (s : σ) (e : ε) (es : List ε) :
    fold f s (e :: es) = (f s e).bind fun s' => fold f s' es := rfl

/-- An invariant of the turns of a loop holds when the loop runs to its end. -/
theorem fold_running (I : σ → Prop) {f : σ → ε → Outcome α σ} {s t : σ} {es : List ε}
    (start : I s) (turn : ∀ s e u, e ∈ es → I s → f s e = running u → I u)
    (done : fold f s es = running t) : I t := by
  induction es generalizing s with
  | nil =>
    cases done
    exact start
  | cons e es ih =>
    obtain ⟨u, first, rest⟩ := bind_eq_running.mp done
    exact ih (turn s e u List.mem_cons_self start first)
      (fun s' e' u' he => turn s' e' u' (List.mem_cons_of_mem e he)) rest

theorem bind_state {R : σ → σ → Prop} (trans : ∀ s t u, R s t → R t u → R s u) {s : σ}
    {o : Outcome α σ} {f : σ → Outcome α σ} (first : R s o.state)
    (second : ∀ t, R t (f t).state) : R s (o.bind f).state := by
  cases o with
  | running t => exact trans _ _ _ first (second t)
  | aborted a t => exact first

/-- A reflexive and transitive relation that every turn of a loop respects is
respected by the loop. -/
theorem fold_state {R : σ → σ → Prop} (refl : ∀ s, R s s)
    (trans : ∀ s t u, R s t → R t u → R s u) {f : σ → ε → Outcome α σ} (s : σ) (es : List ε)
    (turn : ∀ e ∈ es, ∀ s, R s (f s e).state) : R s (fold f s es).state := by
  induction es generalizing s with
  | nil => exact refl s
  | cons e es ih =>
    obtain ⟨head, tail⟩ := List.forall_mem_cons.mp turn
    exact bind_state trans (head s) fun t => ih t tail

/-- An invariant of the state left by the first handler that the next one keeps. -/
theorem bind_kept {I : σ → Prop} {o : Outcome α σ} {f : σ → Outcome α σ} (first : I o.state)
    (next : ∀ t, o = running t → I t → I (f t).state) : I (o.bind f).state := by
  cases o with
  | running t => exact next t rfl first
  | aborted a t => exact first

/-- An invariant that every turn of a loop keeps, also when it stops there. -/
theorem fold_kept (I : σ → Prop) {f : σ → ε → Outcome α σ} {s : σ} {es : List ε} (start : I s)
    (turn : ∀ e ∈ es, ∀ s, I s → I (f s e).state) : I (fold f s es).state := by
  induction es generalizing s with
  | nil => exact start
  | cons e es ih =>
    obtain ⟨head, tail⟩ := List.forall_mem_cons.mp turn
    exact bind_kept (head s start) fun t _ kept => ih kept tail

/-- The rule of postconditions: `I` where the handler goes on, `F` of the failed assertion. -/
def Ensures (I : σ → Prop) (F : α → Prop) : Outcome α σ → Prop
  | running s => I s
  | aborted a _ => F a

instance (I : σ → Prop) (F : α → Prop) [DecidablePred I] [DecidablePred F] (o : Outcome α σ) :
    Decidable (o.Ensures I F) :=
  match o with
  | running s => inferInstanceAs (Decidable (I s))
  | aborted a _ => inferInstanceAs (Decidable (F a))

section Ensures

variable {I J : σ → Prop} {F : α → Prop} {o : Outcome α σ}

theorem Ensures.of_running (h : o.Ensures I F) {s : σ} (done : o = running s) : I s := by
  subst done
  exact h

theorem ensures_of_running (h : ∀ s, o = running s → I s) : o.Ensures I fun _ => True := by
  cases o with
  | running s => exact h s rfl
  | aborted a s => trivial

theorem Ensures.mono (h : o.Ensures I F) (imp : ∀ s, o = running s → I s → J s) :
    o.Ensures J F := by
  cases o with
  | running s => exact imp s rfl h
  | aborted a s => exact h

theorem Ensures.mono_fault {G : α → Prop} (h : o.Ensures I F) (imp : ∀ a, F a → G a) :
    o.Ensures I G := by
  cases o with
  | running s => exact h
  | aborted a s => exact imp a h

theorem Ensures.and {G : α → Prop} (h : o.Ensures I F) (h' : o.Ensures J G) :
    o.Ensures (fun s => I s ∧ J s) F := by
  cases o with
  | running s => exact ⟨h, h'⟩
  | aborted a s => exact h

theorem Ensures.andThen {τ : Type*} {K : τ → Prop} {embed : σ → τ} {f : σ → Outcome α τ}
    (h : o.Ensures I F) (next : ∀ s, I s → (f s).Ensures K F) :
    (o.andThen embed f).Ensures K F := by
  cases o with
  | running s => exact next s h
  | aborted a s => exact h

theorem Ensures.bind {f : σ → Outcome α σ} (h : o.Ensures I F)
    (next : ∀ s, I s → (f s).Ensures J F) : (o.bind f).Ensures J F :=
  Ensures.andThen h next

/-- The loop rule: what one turn ensures, the loop ensures. -/
theorem ensures_fold {f : σ → ε → Outcome α σ} {s : σ} {es : List ε} (start : I s)
    (turn : ∀ e ∈ es, ∀ s, I s → (f s e).Ensures I F) : (fold f s es).Ensures I F := by
  induction es generalizing s with
  | nil => exact start
  | cons e es ih =>
    obtain ⟨head, tail⟩ := List.forall_mem_cons.mp turn
    exact (head s start).bind fun t kept => ih kept tail

end Ensures

/-- Every turn of a loop meets `Q` in the state in which it starts. -/
def AlongFold (f : σ → ε → Outcome α σ) (Q : σ → ε → Prop) : σ → List ε → Prop
  | _, [] => True
  | s, e :: es => Q s e ∧ (f s e).Ensures (fun t => AlongFold f Q t es) fun _ => True

instance AlongFold.decidable (f : σ → ε → Outcome α σ) (Q : σ → ε → Prop)
    [∀ s e, Decidable (Q s e)] : ∀ s es, Decidable (AlongFold f Q s es)
  | _, [] => isTrue trivial
  | s, e :: es =>
    haveI : DecidablePred fun t => AlongFold f Q t es := fun t => AlongFold.decidable f Q t es
    inferInstanceAs
      (Decidable (Q s e ∧ (f s e).Ensures (fun t => AlongFold f Q t es) fun _ => True))

section AlongFold

variable {f : σ → ε → Outcome α σ} {P Q : σ → ε → Prop} {s t : σ} {es : List ε}

/-- Under an invariant of the turns that meet `P`, these meet `Q` as well. -/
theorem AlongFold.of_invariant (I : σ → Prop) (start : I s)
    (kept : ∀ s e t, I s → P s e → f s e = running t → I t)
    (gives : ∀ s e, I s → P s e → Q s e) (along : AlongFold f P s es) : AlongFold f Q s es := by
  induction es generalizing s with
  | nil => trivial
  | cons e es ih =>
    obtain ⟨met, rest⟩ := along
    refine ⟨gives s e start met, rest.mono ?_⟩
    intro u first tail
    exact ih (kept s e u start met first) tail

theorem alongFold_of_mem (meets : ∀ e ∈ es, ∀ s, Q s e) : AlongFold f Q s es := by
  induction es generalizing s with
  | nil => trivial
  | cons e es ih =>
    obtain ⟨first, rest⟩ := List.forall_mem_cons.mp meets
    refine ⟨first s, ?_⟩
    cases f s e with
    | running t => exact ih rest
    | aborted a t => trivial

theorem AlongFold.and (along : AlongFold f P s es) (other : AlongFold f Q s es) :
    AlongFold f (fun s e => P s e ∧ Q s e) s es := by
  induction es generalizing s with
  | nil => trivial
  | cons e es ih =>
    obtain ⟨met, rest⟩ := along
    obtain ⟨met', rest'⟩ := other
    refine ⟨⟨met, met'⟩, rest.mono ?_⟩
    intro u first tail
    exact ih tail (rest'.of_running first)

/-- An invariant of the turns that meet `P` holds when the loop runs to its end. -/
theorem AlongFold.invariant (I : σ → Prop) (start : I s)
    (kept : ∀ s e t, I s → P s e → f s e = running t → I t) (along : AlongFold f P s es)
    (done : fold f s es = running t) : I t := by
  induction es generalizing s with
  | nil =>
    cases done
    exact start
  | cons e es ih =>
    obtain ⟨met, rest⟩ := along
    obtain ⟨u, first, last⟩ := bind_eq_running.mp done
    exact ih (kept s e u start met first) (rest.of_running first) last

end AlongFold

end Outcome

def run (step : σ → ε → σ) (s : σ) (events : List ε) : σ :=
  events.foldl step s

/-- Every event of the list meets `P` in the state in which it is handled. -/
def Along (step : σ → ε → σ) (P : σ → ε → Prop) : σ → List ε → Prop
  | _, [] => True
  | s, e :: es => P s e ∧ Along step P (step s e) es

instance Along.decidable (step : σ → ε → σ) (P : σ → ε → Prop) [∀ s e, Decidable (P s e)] :
    ∀ s es, Decidable (Along step P s es)
  | _, [] => isTrue trivial
  | s, e :: es =>
    haveI := Along.decidable step P (step s e) es
    inferInstanceAs (Decidable (P s e ∧ Along step P (step s e) es))

variable {step : σ → ε → σ} {P Q : σ → ε → Prop} {s : σ}

@[simp] theorem run_nil : run step s [] = s := rfl

@[simp] theorem run_cons (e : ε) (es : List ε) : run step s (e :: es) = run step (step s e) es :=
  rfl

theorem run_append (es fs : List ε) : run step s (es ++ fs) = run step (run step s es) fs := by
  simp [run]

@[simp] theorem along_nil : Along step P s [] ↔ True := Iff.rfl

@[simp] theorem along_cons (e : ε) (es : List ε) :
    Along step P s (e :: es) ↔ P s e ∧ Along step P (step s e) es := Iff.rfl

theorem Along.of_invariant (I : σ → Prop) {events : List ε} (start : I s)
    (kept : ∀ s e, I s → P s e → I (step s e)) (gives : ∀ s e, I s → P s e → Q s e)
    (along : Along step P s events) : Along step Q s events := by
  induction events generalizing s with
  | nil => trivial
  | cons e es ih =>
    obtain ⟨head, tail⟩ := along
    exact ⟨gives s e start head, ih (kept s e start head) tail⟩

/-- Run lemma: an invariant kept by every step that meets `P` holds after every
run whose steps all meet `P`. -/
theorem Along.invariant (I : σ → Prop) {events : List ε} (start : I s)
    (kept : ∀ s e, I s → P s e → I (step s e)) (along : Along step P s events) :
    I (run step s events) := by
  induction events generalizing s with
  | nil => exact start
  | cons e es ih =>
    obtain ⟨head, tail⟩ := along
    exact ih (kept s e start head) tail

theorem run_invariant (I : σ → Prop) {events : List ε} (start : I s)
    (kept : ∀ s e, I s → I (step s e)) : I (run step s events) := by
  induction events generalizing s with
  | nil => exact start
  | cons e es ih => exact ih (kept s e start)

theorem Along.imp {events : List ε} (along : Along step P s events)
    (imp : ∀ e ∈ events, ∀ s, P s e → Q s e) : Along step Q s events := by
  induction events generalizing s with
  | nil => trivial
  | cons e es ih =>
    obtain ⟨head, tail⟩ := along
    obtain ⟨first, rest⟩ := List.forall_mem_cons.mp imp
    exact ⟨first s head, ih tail rest⟩

theorem Along.and {events : List ε} (along : Along step P s events)
    (other : Along step Q s events) : Along step (fun s e => P s e ∧ Q s e) s events := by
  induction events generalizing s with
  | nil => trivial
  | cons e es ih =>
    obtain ⟨head, tail⟩ := along
    obtain ⟨head', tail'⟩ := other
    exact ⟨⟨head, head'⟩, ih tail tail'⟩

theorem along_append (es fs : List ε) :
    Along step P s (es ++ fs) ↔ Along step P s es ∧ Along step P (run step s es) fs := by
  induction es generalizing s with
  | nil => simp
  | cons e es ih => rw [List.cons_append, along_cons, along_cons, ih, and_assoc, run_cons]

/-- A condition along a run is one on each event, in the state that the events before it leave. -/
theorem along_iff_split {events : List ε} : Along step P s events ↔
    ∀ before e rest, events = before ++ e :: rest → P (run step s before) e := by
  induction events generalizing s with
  | nil => simp
  | cons e es ih =>
    rw [along_cons, ih]
    constructor
    · rintro ⟨head, tail⟩ before e' rest split
      cases before with
      | nil =>
        cases split
        exact head
      | cons first before =>
        cases split
        exact tail before e' rest rfl
    · intro all
      exact ⟨all [] e es rfl, fun before e' rest split =>
        all (e :: before) e' rest (congrArg (e :: ·) split)⟩

theorem along_of_kept (I : σ → Prop) {events : List ε} (start : I s)
    (kept : ∀ s e, I s → I (step s e)) (gives : ∀ s e, I s → Q s e) :
    Along step Q s events := by
  induction events generalizing s with
  | nil => trivial
  | cons e es ih => exact ⟨gives s e start, ih (kept s e start)⟩

theorem along_of_mem {events : List ε} (meets : ∀ e ∈ events, ∀ s, Q s e) :
    Along step Q s events := by
  induction events generalizing s with
  | nil => trivial
  | cons e es ih =>
    obtain ⟨first, rest⟩ := List.forall_mem_cons.mp meets
    exact ⟨first s, ih rest⟩

/-- A condition that does not depend on the state. -/
theorem along_iff_forall_mem {R : ε → Prop} (same : ∀ s e, P s e ↔ R e) (events : List ε) :
    Along step P s events ↔ ∀ e ∈ events, R e := by
  induction events generalizing s with
  | nil => simp
  | cons e es ih => rw [along_cons, List.forall_mem_cons, same, ih]

/-- Two conditions hold along the same runs if they agree under an invariant that the
steps meeting the first one keep. -/
theorem along_congr_of_met (I : σ → Prop) {events : List ε} (start : I s)
    (kept : ∀ s e, I s → P s e → I (step s e)) (same : ∀ s e, I s → (P s e ↔ Q s e)) :
    Along step P s events ↔ Along step Q s events := by
  induction events generalizing s with
  | nil => exact Iff.rfl
  | cons e es ih =>
    rw [along_cons, along_cons, ← same s e start]
    exact and_congr_right fun met => ih (kept s e start met)

/-- Two conditions that agree under an invariant of the run hold along the same runs. -/
theorem along_congr_of_mem (I : σ → Prop) {events : List ε} (start : I s)
    (kept : ∀ e ∈ events, ∀ s, I s → I (step s e)) (same : ∀ s e, I s → (P s e ↔ Q s e)) :
    Along step P s events ↔ Along step Q s events := by
  induction events generalizing s with
  | nil => exact Iff.rfl
  | cons e es ih =>
    obtain ⟨first, rest⟩ := List.forall_mem_cons.mp kept
    exact and_congr (same s e start) (ih (first s start) rest)

theorem along_congr (I : σ → Prop) {events : List ε} (start : I s)
    (kept : ∀ s e, I s → I (step s e)) (same : ∀ s e, I s → (P s e ↔ Q s e)) :
    Along step P s events ↔ Along step Q s events :=
  along_congr_of_mem I start (fun e _ s => kept s e) same

end FdsPaxos.TransitionRuns
