import FdsPaxos.ForwardSimulation
import FdsPaxos.Paxos2ValueOrigin
import FdsPaxos.ReplicatedLog

set_option autoImplicit false

namespace FdsPaxos.Paxos2LogRefinement
open TransitionRuns ForwardSimulation ReplicatedLog Paxos2Config Paxos2Messages Paxos2Learner
open Paxos2LearnerDelivery Paxos2Leader Paxos2Proposer Paxos2AckWorld Paxos2World Paxos2Agreement
open Paxos2CrashAgreement Paxos2ValueOrigin

section Origin

variable {cfg : Config} {P Q : Value → Prop} {w : World}

theorem WorldFrom.mono (h : WorldFrom cfg P w) (imp : ∀ v, P v → Q v) : WorldFrom cfg Q w where
  leaders := by
    intro p
    obtain ⟨pending, found, own, requested⟩ := h.leaders p
    exact ⟨fun v mem => imp v (pending v mem), fun slot v eq => imp v (found slot v eq),
      fun slot v eq => imp v (own slot v eq), requested.mono fun ar => imp ar.value⟩
  told := fun p i v told => imp v (h.told p i v told)
  embedded := fun p s running =>
    (h.embedded p s running).mono fun _ from_ a aa stored => imp aa.value (from_ a aa stored)
  acceptors := by
    intro a
    obtain ⟨readable, stored, latest, promised, acked⟩ := h.acceptors a
    refine ⟨readable, fun i rec found => (stored i rec found).imp_right (imp rec.value), ?_,
      promised.mono fun pa reports => reports.imp_right (imp pa.value),
      acked.mono fun aa => imp aa.value⟩
    intro pos
    obtain ⟨rec, found, good⟩ := latest pos
    exact ⟨rec, found, imp rec.value good⟩
  learners := by
    intro l
    obtain ⟨ls, ds, running, good⟩ := h.learners l
    exact ⟨ls, ds, running, good.mono fun _ from_ a aa stored => imp aa.value (from_ a aa stored)⟩

end Origin

section Learners

variable {cfg : Config} {w : World}

theorem run_delivers (lr : LearnerRun) (msgs : List (ℕ × AcceptAck)) :
    lr.state.2 <+: (run (learnerStep cfg) lr msgs).state.2 := by
  refine run_invariant (fun lr' : LearnerRun => lr.state.2 <+: lr'.state.2)
    (List.prefix_refl _) fun lr' msg before => ?_
  cases lr' with
  | running r =>
    change lr.state.2 <+: ((handleAcceptAck cfg r.1 msg.1 msg.2).map
      fun r' => (r'.1, r.2 ++ r'.2)).state.2
    rw [Outcome.state_map]
    exact before.trans (List.prefix_append _ _)
  | aborted fault r => exact before

theorem ackStep_delivers (w : AckWorld) (e : AckEvent) :
    ∃ l, (∀ l', l' ≠ l → (ackStep cfg w e).learners l' = w.learners l') ∧
      (w.learners l).state.2 <+: ((ackStep cfg w e).learners l).state.2 := by
  cases e with
  | request a msg => exact ⟨0, fun _ _ => rfl, List.prefix_refl _⟩
  | repeatLatest a => exact ⟨0, fun _ _ => rfl, List.prefix_refl _⟩
  | acceptAcks l a acks =>
    refine ⟨l, fun l' other => ?_, ?_⟩
    · simp only [ackStep]
      split_ifs
      · exact Function.update_of_ne other _ _
      · rfl
    · simp only [ackStep]
      split_ifs
      · simp only [Function.update_self]
        exact run_delivers _ _
      · exact List.prefix_refl _
  | holeCheck l =>
    refine ⟨l, fun l' other => Function.update_of_ne other _ _, ?_⟩
    simp only [ackStep, Function.update_self]
    cases w.learners l with
    | running r => exact List.prefix_refl _
    | aborted fault r => exact List.prefix_refl _

theorem crashStep_delivers (cfg : Config) (w : World) (e : CrashEvent) :
    ∃ l, (∀ l', l' ≠ l → (crashStep cfg w e).acks.learners l' = w.acks.learners l') ∧
      (w.acks.learners l).state.2 <+: ((crashStep cfg w e).acks.learners l).state.2 := by
  have same (w' : World) (eq : w'.acks.learners = w.acks.learners) :
      ∃ l, (∀ l', l' ≠ l → w'.acks.learners l' = w.acks.learners l') ∧
        (w.acks.learners l).state.2 <+: (w'.acks.learners l).state.2 := by
    refine ⟨0, fun l' _ => ?_, ?_⟩
    · rw [eq]
    · rw [eq]
  cases e with
  | world e =>
    by_cases possible : Possible cfg w e
    · cases e with
      | proposer p e =>
        rw [crashStep, worldStep_proposer possible]
        exact same _ rfl
      | acks e =>
        rw [crashStep, worldStep_acks possible]
        exact ackStep_delivers w.acks e
    · rw [crashStep, worldStep_of_impossible possible]
      exact same _ rfl
  | crash a msg n =>
    simp only [crashStep]
    split_ifs
    · exact same _ rfl
    · exact same _ rfl

end Learners

section Simulation

variable {cfg : Config} {w : World} {b : Log Value ℕ}

/-- The deliveries of a learner. -/
def deliveries (w : World) (l : ℕ) : List Delivery := (w.acks.learners l).state.2

/-- The log that a world provides: a learner has read the entries that it has delivered, and
an entry is decided when some learner has delivered it. -/
structure Provides (cfg : Config) (w : World) (b : Log Value ℕ) : Prop where
  sound : WorldSound cfg w
  origin : WorldFrom cfg (· ∈ b.submitted) w
  read : ∀ l, b.read l = (deliveries w l).length
  got : ∀ l n d, (deliveries w l)[n]? = some d → b.decided n = some d.value
  decided : ∀ n v, b.decided n = some v → ∃ l, ∃ d, (deliveries w l)[n]? = some d ∧ d.value = v

theorem deliveries_running (h : WorldSound cfg w) (l : ℕ) :
    (w.acks.learners l).IsRunning ∧
      (deliveries w l).map Delivery.iid = List.range' 1 (deliveries w l).length := by
  obtain ⟨ls, ds, running, good⟩ := h.learners l
  unfold deliveries
  rw [running]
  exact ⟨trivial, good.consecutive⟩

/-- The entry at position `n` is that of instance `n + 1`. -/
theorem deliveredIn_of_get (h : WorldSound cfg w) {l n : ℕ} {d : Delivery}
    (found : (deliveries w l)[n]? = some d) : DeliveredIn w (n + 1) d.value := by
  refine .inl ⟨l, d, List.mem_of_getElem? found, ?_, rfl⟩
  have iid := congrArg (fun iids : List ℕ => iids[n]?) (deliveries_running h l).2
  simp only [List.getElem?_map, found, Option.map_some] at iid
  obtain ⟨low, -⟩ := List.getElem?_eq_some_iff.mp found
  rw [List.getElem?_range' low] at iid
  have := Option.some.inj iid
  omega

theorem exists_submits (b : Log Value ℕ) (e : CrashEvent) :
    Steps b { b with submitted := b.submitted ++ (submittedBy e).toList } := by
  cases submittedBy e with
  | none =>
    rw [Option.toList_none, List.append_nil]
    exact .refl b
  | some v => exact (Step.submit b v).steps

theorem Provides.step (h : Provides cfg w b) (e : CrashEvent) (sound : CrashStepSound cfg w e) :
    ∃ b', Steps b b' ∧ Provides cfg (crashStep cfg w e) b' ∧
      b'.submitted = b.submitted ++ (submittedBy e).toList := by
  set w' := crashStep cfg w e with hw'
  have after : WorldSound cfg w' := crashStep_sound h.sound e sound
  let b₁ : Log Value ℕ := { b with submitted := b.submitted ++ (submittedBy e).toList }
  have origin : WorldFrom cfg (· ∈ b₁.submitted) w' := by
    refine worldFrom_step (WorldFrom.mono h.origin fun v mem => List.mem_append_left _ mem) e ?_
    intro v brought
    simp [brought]
  obtain ⟨l, others, more, grown⟩ := crashStep_delivers cfg w e
  change deliveries w l ++ more = deliveries w' l at grown
  have other (l' : ℕ) (ne : l' ≠ l) : deliveries w' l' = deliveries w l' :=
    congrArg (fun lr : LearnerRun => lr.state.2) (others l' ne)
  have kept {l' n : ℕ} {d : Delivery} (found : (deliveries w l')[n]? = some d) :
      (deliveries w' l')[n]? = some d := by
    by_cases here : l' = l
    · obtain ⟨low, -⟩ := List.getElem?_eq_some_iff.mp found
      rw [here, ← grown, List.getElem?_append_left (here ▸ low)]
      exact here ▸ found
    · rwa [other l' here]
  have news {k : ℕ} {v : Value} (found : (more.map Delivery.value)[k]? = some v) :
      ∃ d, (deliveries w' l)[(deliveries w l).length + k]? = some d ∧ d.value = v := by
    rw [List.getElem?_map] at found
    obtain ⟨d, found, value⟩ := Option.map_eq_some_iff.mp found
    refine ⟨d, ?_, value⟩
    rw [← grown, List.getElem?_append_right (Nat.le_add_right _ _), Nat.add_sub_cancel_left]
    exact found
  -- the values are submitted ones, and agree with the entries that others have read
  obtain ⟨b', reads⟩ := exists_reads b₁ l (more.map Delivery.value)
    (by
      intro v mem
      obtain ⟨d, new, rfl⟩ := List.mem_map.mp mem
      obtain ⟨ls, ds, running, good⟩ := origin.learners l
      have all : deliveries w' l = ds := by
        unfold deliveries
        rw [running]
        rfl
      exact delivered_from good (all ▸ grown ▸ List.mem_append_right _ new))
    (by
      intro k v found
      change b.decided (b.read l + k) = none ∨ b.decided (b.read l + k) = some v
      rw [h.read l]
      cases taken : b.decided ((deliveries w l).length + k) with
      | none => exact .inl rfl
      | some u =>
        obtain ⟨l', d', found', rfl⟩ := h.decided _ _ taken
        obtain ⟨d, read, rfl⟩ := news found
        exact .inr (congrArg some (after.agreement _ _ _ (deliveredIn_of_get after (kept found'))
          (deliveredIn_of_get after read))))
  have length : (deliveries w' l).length = b.read l + (more.map Delivery.value).length := by
    rw [← grown, List.length_append, List.length_map, h.read l]
  refine ⟨b', (exists_submits b e).trans reads.steps, ⟨after, ?_, ?_, ?_, ?_⟩, reads.submitted⟩
  · rw [reads.submitted]
    exact origin
  · intro l'
    rw [reads.read, Function.update_apply]
    split_ifs with here
    · rw [here]
      exact length.symm
    · rw [other l' here]
      exact h.read l'
  · intro l' n d found
    have old (before : (deliveries w l')[n]? = some d) : b'.decided n = some d.value :=
      reads.steps.decided_mono (h.got l' n d before)
    by_cases here : l' = l
    · subst here
      rw [← grown] at found
      by_cases low : n < (deliveries w l').length
      · rw [List.getElem?_append_left low] at found
        exact old found
      · obtain ⟨k, rfl⟩ := Nat.exists_eq_add_of_le (Nat.not_lt.mp low)
        rw [List.getElem?_append_right (Nat.le_add_right _ _), Nat.add_sub_cancel_left] at found
        have got := reads.got k d.value (by rw [List.getElem?_map, found]; rfl)
        change b'.decided (b.read l' + k) = _ at got
        rwa [h.read l'] at got
    · rw [other l' here] at found
      exact old found
  · intro n v decided
    rcases reads.fresh n v decided with before | ⟨k, rfl, found⟩
    · obtain ⟨l', d, found, value⟩ := h.decided n v before
      exact ⟨l', d, kept found, value⟩
    · obtain ⟨d, found, value⟩ := news found
      refine ⟨l, d, ?_, value⟩
      change (deliveries w' l)[b.read l + k]? = _
      rw [h.read l]
      exact found

theorem observed_submitted (w : World) (events : List CrashEvent) :
    observed (crashStep cfg) (fun _ e => (submittedBy e).toList) w events = submitted events := by
  induction events generalizing w with
  | nil => rfl
  | cons e events ih =>
    rw [observed_cons, ih, submitted, submitted, List.filterMap_cons]
    cases submittedBy e <;> rfl

theorem provides_init (cfg : Config) (clock : ℕ → Timeval) (timeNow : Timeval) :
    Provides cfg (worldInit cfg clock timeNow) (Log.empty : Log Value ℕ) where
  sound := worldSound_init cfg clock timeNow
  origin := worldFrom_init cfg _ clock timeNow
  read := fun _ => rfl
  got := fun _ n d found => by simp [deliveries, worldInit, ackWorldInit, learnerStart] at found
  decided := fun _ _ h => nomatch h

theorem Provides.output (h : Provides cfg w b) (l : ℕ) :
    (deliveries w l).map (fun d => some d.value) = b.output l := by
  apply List.ext_getElem?
  intro n
  unfold Log.output
  rw [h.read l, List.getElem?_map, List.getElem?_map]
  by_cases low : n < (deliveries w l).length
  · have found := List.getElem?_eq_getElem low
    rw [found, List.getElem?_range low]
    exact congrArg some (h.got l n _ found).symm
  · rw [List.getElem?_eq_none (Nat.not_lt.mp low), List.getElem?_eq_none (by simpa using low)]
    rfl

end Simulation

/-- In every run whose steps are sound, acceptors crashing at any point and recovering, the
whole is a replicated log of the values that clients submit: every learner runs and has
delivered the first entries of the log, without a gap, under their instance numbers. -/
theorem paxos_refines_log (cfg : Config) (clock : ℕ → Timeval) (timeNow : Timeval)
    (events : List CrashEvent)
    (sound : Along (crashStep cfg) (CrashStepSound cfg) (worldInit cfg clock timeNow) events) :
    let w := run (crashStep cfg) (worldInit cfg clock timeNow) events
    ∃ b : Log Value ℕ, Steps Log.empty b ∧ b.submitted = submitted events ∧
      ∀ l, (w.acks.learners l).IsRunning ∧
        (deliveries w l).map (fun d => some d.value) = b.output l ∧
        (deliveries w l).map Delivery.iid = List.range' 1 (b.read l) := by
  have matched : Along (crashStep cfg) (Matches (crashStep cfg)
      (fun _ e => (submittedBy e).toList) ReplicatedLog.Step Log.submitted (Provides cfg))
      (worldInit cfg clock timeNow) events :=
    sound.imp fun e _ w met b h => h.step e met
  obtain ⟨b, steps, provides, logged⟩ := simulates (provides_init cfg clock timeNow) matched
  refine ⟨b, steps, ?_, fun l => ?_⟩
  · rw [logged, observed_submitted]
    rfl
  · obtain ⟨running, consecutive⟩ := deliveries_running provides.sound l
    exact ⟨running, provides.output l, by rw [consecutive, provides.read l]⟩

/-- One value, submitted to the first leader, in spite of two crashes. -/
theorem first_reign_is_a_log : ∃ b : Log Value ℕ, Steps Log.empty b ∧ b.submitted = [[7]] ∧
    b.output 0 = [some [7]] := by
  obtain ⟨b, steps, submitted, readers⟩ :=
    paxos_refines_log .small stillClock ⟨0, 0⟩ crashesInFirstReign (by decide +kernel)
  refine ⟨b, steps, submitted.trans (by decide +kernel), ?_⟩
  rw [← (readers 0).2.1]
  decide +kernel

end FdsPaxos.Paxos2LogRefinement
