import FdsPaxos.TransitionRuns

set_option autoImplicit false

/-! Runs of a program matched by runs of a specification that logs what the program does. -/

namespace FdsPaxos.ForwardSimulation
open TransitionRuns

variable {σ ε τ β : Type*}

/-- What the events of a run show, first to last. -/
def observed (step : σ → ε → σ) (shows : σ → ε → List β) : σ → List ε → List β
  | _, [] => []
  | s, e :: es => shows s e ++ observed step shows (step s e) es

section Observed

variable {step : σ → ε → σ} {shows : σ → ε → List β} {s : σ}

@[simp] theorem observed_nil : observed step shows s [] = [] := rfl

@[simp] theorem observed_cons (e : ε) (es : List ε) : observed step shows s (e :: es) =
    shows s e ++ observed step shows (step s e) es := rfl

end Observed

/-- A step of the program is matched by steps of the specification, which log what it shows. -/
def Matches (step : σ → ε → σ) (shows : σ → ε → List β) (next : τ → τ → Prop) (log : τ → List β)
    (R : σ → τ → Prop) (s : σ) (e : ε) : Prop :=
  ∀ t, R s t → ∃ u, Relation.ReflTransGen next t u ∧ R (step s e) u ∧ log u = log t ++ shows s e

/-- The rule of forward simulation: if every step is matched, so is the run. -/
theorem simulates {step : σ → ε → σ} {shows : σ → ε → List β} {next : τ → τ → Prop}
    {log : τ → List β} {R : σ → τ → Prop} {s : σ} {t : τ} {events : List ε} (start : R s t)
    (matched : Along step (Matches step shows next log R) s events) :
    ∃ u, Relation.ReflTransGen next t u ∧ R (run step s events) u ∧
      log u = log t ++ observed step shows s events := by
  induction events generalizing s t with
  | nil => exact ⟨t, .refl, start, by simp⟩
  | cons e es ih =>
    obtain ⟨head, tail⟩ := matched
    obtain ⟨u, first, related, logged⟩ := head t start
    obtain ⟨u', rest, related', logged'⟩ := ih related tail
    refine ⟨u', first.trans rest, related', ?_⟩
    rw [logged', logged, observed_cons, List.append_assoc]

end FdsPaxos.ForwardSimulation
