import FdsPaxos.RingOneLife
import FdsPaxos.RingQueueOrder

set_option autoImplicit false

namespace FdsPaxos.RingGapDeadlines
open TransitionRuns CircularWindow RingConfig RingMessages RingDeliveryQueue RingLearnerSoundness
open RingQueueOrder RingOneLife

section Time

def micros (t : Timeval) : ℕ :=
  t.tvSec * 1000000 + t.tvUsec

def Normal (t : Timeval) : Prop :=
  t.tvUsec < 1000000

instance (t : Timeval) : Decidable (Normal t) :=
  inferInstanceAs (Decidable (_ < _))

variable {t d now : Timeval}

theorem requestDeadline_normal (normal : Normal t) :
    Normal (timerSetTimeout t requestTimeout) := by
  unfold Normal timerSetTimeout requestTimeout at *
  dsimp only
  split_ifs
  · exact Nat.mod_lt _ (by decide)
  · dsimp only
    omega

theorem requestDeadline_micros (normal : Normal t) :
    micros (timerSetTimeout t requestTimeout) = micros t + 10000 := by
  unfold Normal micros timerSetTimeout requestTimeout at *
  dsimp only
  split_ifs
  · dsimp only
    omega
  · dsimp only
    omega

theorem timerIsExpired_iff (normal : Normal d) (normal' : Normal now) :
    timerIsExpired d now ↔ micros d < micros now := by
  unfold timerIsExpired Normal micros at *
  omega

end Time

section Calls

variable (queueSize : ℕ)

/-- Calls of one of the callbacks, with the times of the checks that made them. -/
abbrev Calls := List (ℕ × Timeval)

/-- The callback was called for the instance at most `request_timeout` ago. -/
def Recent (calls : Calls) (now : Timeval) (i : ℕ) : Prop :=
  ∃ t, (i, t) ∈ calls ∧ micros now ≤ micros t + micros requestTimeout

def Free (q : Learner) (i : ℕ) : Prop :=
  (q.entry queueSize i).instNumber = i ∨ (q.entry queueSize i).instNumber = 0

/-- The deadlines of one kind are those of the last calls for the instances in the entries. -/
structure Deadlines (deadline : DqEntry → Timeval) (calls : Calls) (q : Learner) : Prop where
  called : ∀ i t, (i, t) ∈ calls → q.highestDelivered < i →
    (q.entry queueSize i).instNumber = i ∧ Normal (deadline (q.entry queueSize i)) ∧
      micros t + 10000 ≤ micros (deadline (q.entry queueSize i))
  last : ∀ slot, deadline (q.queueArray slot) ≠ ⟨0, 0⟩ →
    ∃ t, ((q.queueArray slot).instNumber, t) ∈ calls ∧ Normal (deadline (q.queueArray slot)) ∧
      micros (deadline (q.queueArray slot)) = micros t + 10000

/-- The deadlines record the calls; a learner that has not started yet has made none. -/
structure Stamped (maps accs : Calls) (q : Learner) : Prop where
  late : q.lateStart = true →
    maps = [] ∧ accs = [] ∧ q.highestSeenClosed = 0 ∧ q.highestSeenCmdmap = 0
  unused : ∀ slot, (q.queueArray slot).instNumber = 0 →
    (q.queueArray slot).cmdmapRequestTimeout = ⟨0, 0⟩ ∧
      (q.queueArray slot).finvalRequestTimeout = ⟨0, 0⟩
  mapped : Deadlines queueSize DqEntry.cmdmapRequestTimeout maps q
  accepted : Deadlines queueSize DqEntry.finvalRequestTimeout accs q

structure SameDeadlines (e e' : DqEntry) : Prop where
  cmdmap : e'.cmdmapRequestTimeout = e.cmdmapRequestTimeout
  finval : e'.finvalRequestTimeout = e.finvalRequestTimeout
  own : e'.instNumber = e.instNumber ∨ e.instNumber = 0

structure Passed (highest : ℕ) (e e' : DqEntry) : Prop where
  cmdmap : e'.cmdmapRequestTimeout = ⟨0, 0⟩
  finval : e'.finvalRequestTimeout = ⟨0, 0⟩
  delivered : e.instNumber ≤ highest

/-- No callback is called, and only entries of delivered instances lose their deadlines. -/
structure KeepsCalls (q r : Learner) : Prop where
  late : r.lateStart = q.lateStart
  asks : asks r = asks q
  highest : q.highestDelivered ≤ r.highestDelivered
  slots : ∀ slot, SameDeadlines (q.queueArray slot) (r.queueArray slot) ∨
    Passed r.highestDelivered (q.queueArray slot) (r.queueArray slot)

end Calls

variable {queueSize : ℕ} {maps accs calls : Calls} {q r u : Learner} {i : ℕ}
  {now : Timeval} {deadline : DqEntry → Timeval}

theorem SameDeadlines.refl (e : DqEntry) : SameDeadlines e e := ⟨rfl, rfl, .inl rfl⟩

theorem KeepsCalls.refl (q : Learner) : KeepsCalls q q :=
  ⟨rfl, rfl, le_refl _, fun _ => .inl (.refl _)⟩

theorem KeepsCalls.trans (h : KeepsCalls q r) (h' : KeepsCalls r u) : KeepsCalls q u where
  late := h'.late.trans h.late
  asks := h'.asks.trans h.asks
  highest := h.highest.trans h'.highest
  slots := by
    intro slot
    have highest := h'.highest
    rcases h.slots slot with ⟨cmdmap, finval, own⟩ | ⟨cmdmap, finval, delivered⟩ <;>
      rcases h'.slots slot with ⟨cmdmap', finval', own'⟩ | ⟨cmdmap', finval', delivered'⟩
    · refine .inl ⟨cmdmap'.trans cmdmap, finval'.trans finval, ?_⟩
      omega
    · refine .inr ⟨cmdmap', finval', ?_⟩
      omega
    · refine .inr ⟨cmdmap'.trans cmdmap, finval'.trans finval, ?_⟩
      omega
    · refine .inr ⟨cmdmap', finval', ?_⟩
      omega

theorem KeepsCalls.withEntry {slot : ℕ} {e : DqEntry} (late : r.lateStart = q.lateStart)
    (asks : RingOneLife.asks r = RingOneLife.asks q)
    (highest : r.highestDelivered = q.highestDelivered)
    (entries : r.queueArray = setSlot q.queueArray slot e)
    (same : SameDeadlines (q.queueArray slot) e) : KeepsCalls q r where
  late := late
  asks := asks
  highest := highest.ge
  slots := by
    intro slot'
    rw [entries, setSlot_apply]
    split_ifs with here
    · exact .inl (here ▸ same)
    · exact .inl (.refl _)

theorem Deadlines.kept (h : Deadlines queueSize deadline calls q)
    (highest : q.highestDelivered ≤ r.highestDelivered)
    (slots : ∀ slot, deadline (r.queueArray slot) = deadline (q.queueArray slot) ∧
        ((r.queueArray slot).instNumber = (q.queueArray slot).instNumber ∨
          (q.queueArray slot).instNumber = 0) ∨
      deadline (r.queueArray slot) = ⟨0, 0⟩ ∧
        (q.queueArray slot).instNumber ≤ r.highestDelivered)
    (unused : ∀ slot, (q.queueArray slot).instNumber = 0 →
      deadline (q.queueArray slot) = ⟨0, 0⟩) : Deadlines queueSize deadline calls r where
  called := by
    intro i t mem low
    obtain ⟨own, normal, after⟩ := h.called i t mem (by omega)
    unfold Learner.entry at own normal after ⊢
    rcases slots (dqSlot queueSize i) with ⟨same, instNumber⟩ | ⟨-, past⟩
    · rw [same]
      exact ⟨by omega, normal, after⟩
    · omega
  last := by
    intro slot set
    rcases slots slot with ⟨same, instNumber⟩ | ⟨cleared, -⟩
    · rw [same] at set ⊢
      have used : (q.queueArray slot).instNumber ≠ 0 := fun free => set (unused slot free)
      rw [instNumber.resolve_right used]
      exact h.last slot set
    · exact absurd cleared set

theorem Stamped.keeps (h : Stamped queueSize maps accs q) (keeps : KeepsCalls q r) :
    Stamped queueSize maps accs r where
  late := by
    intro late
    have same := keeps.asks
    simp only [asks, Prod.mk.injEq] at same
    rw [same.1, same.2.1]
    exact h.late (keeps.late ▸ late)
  unused := by
    intro slot free
    rcases keeps.slots slot with ⟨cmdmap, finval, own⟩ | ⟨cmdmap, finval, -⟩
    · rw [cmdmap, finval]
      exact h.unused slot (by omega)
    · exact ⟨cmdmap, finval⟩
  mapped := by
    refine h.mapped.kept keeps.highest (fun slot => ?_) fun slot free => (h.unused slot free).1
    rcases keeps.slots slot with same | passed
    · exact .inl ⟨same.cmdmap, same.own⟩
    · exact .inr ⟨passed.cmdmap, passed.delivered⟩
  accepted := by
    refine h.accepted.kept keeps.highest (fun slot => ?_) fun slot free => (h.unused slot free).2
    rcases keeps.slots slot with same | passed
    · exact .inl ⟨same.finval, same.own⟩
    · exact .inr ⟨passed.finval, passed.delivered⟩

theorem dqGetEntry_calls (got : dqGetEntry queueSize q i = .running r) : KeepsCalls q r := by
  have same : asks (dqGetEntry queueSize q i).state = asks q := dqGetEntry_asks q i
  rw [got] at same
  obtain ⟨rfl, free⟩ := dqGetEntry_running got
  exact .withEntry rfl same rfl rfl ⟨rfl, rfl, free.imp_left Eq.symm⟩

theorem dqDeliver_calls
    (own : (q.entry queueSize (q.highestDelivered + 1)).instNumber = q.highestDelivered + 1) :
    KeepsCalls q (dqDeliver queueSize q) where
  late := rfl
  asks := rfl
  highest := Nat.le_succ _
  slots := by
    intro slot
    simp only [dqDeliver, Learner.withEntry, setSlot_apply]
    split_ifs with here
    · refine .inr ⟨rfl, rfl, ?_⟩
      rw [here]
      exact own.le
    · exact .inl (.refl _)

theorem dqDeliverFrom_calls (turns : ℕ) (q : Learner)
    (own : (q.entry queueSize (q.highestDelivered + 1)).instNumber = q.highestDelivered + 1) :
    (dqDeliverFrom queueSize turns q).Ensures (KeepsCalls q) fun _ => True := by
  induction turns generalizing q with
  | zero => exact .refl q
  | succ turns ih =>
    unfold dqDeliverFrom
    dsimp only
    split_ifs
    · refine Outcome.Ensures.bind (Outcome.ensures_of_running fun r got => got) fun r got => ?_
      have first := (dqDeliver_calls own).trans (dqGetEntry_calls got)
      have own' := dqGetEntry_own got
      obtain ⟨rfl, -⟩ := dqGetEntry_running got
      exact (ih _ own').mono fun u _ kept => first.trans kept
    · exact .refl q

theorem dqDeliverLoop_calls (q : Learner) :
    (dqDeliverLoop queueSize q).Ensures (KeepsCalls q) fun _ => True := by
  refine Outcome.Ensures.bind (Outcome.ensures_of_running fun r got => got) fun r got => ?_
  have first := dqGetEntry_calls got
  have own := dqGetEntry_own got
  obtain ⟨rfl, -⟩ := dqGetEntry_running got
  exact (dqDeliverFrom_calls _ _ own).mono fun u _ kept => first.trans kept

theorem dqMap_calls (q : Learner) (msg : CmdmapMsg) :
    (dqMap queueSize q msg).Ensures (KeepsCalls q) fun _ => True := by
  have saved : KeepsCalls q (dqSaveMapping q (dqSlot queueSize msg.instNumber)
      (q.entry queueSize msg.instNumber) msg) :=
    .withEntry rfl rfl rfl rfl ⟨rfl, rfl, .inl rfl⟩
  unfold dqMap
  dsimp only
  split_ifs
  · exact .refl q
  · exact .refl q
  · trivial
  · exact saved
  · exact (dqDeliverLoop_calls _).mono fun r _ kept => saved.trans kept
  · exact .refl q
  · exact saved

theorem dqAccept_calls (q : Learner) (msg : AcceptanceMsg) :
    (dqAccept queueSize q msg).Ensures (KeepsCalls q) fun _ => True := by
  have rewritten {e : DqEntry} (same : SameDeadlines (q.entry queueSize msg.instNumber) e) :
      KeepsCalls q (q.withEntry (dqSlot queueSize msg.instNumber) e) :=
    .withEntry rfl rfl rfl rfl same
  unfold dqAccept
  dsimp only
  split_ifs
  · exact .refl q
  · trivial
  · have first := rewritten (e := { q.entry queueSize msg.instNumber with hasFinalValue := true })
      ⟨rfl, rfl, .inl rfl⟩
    exact (dqDeliverLoop_calls _).mono fun r _ kept => first.trans kept
  · exact rewritten ⟨rfl, rfl, .inl rfl⟩
  · exact .refl q
  · trivial
  · exact rewritten ⟨rfl, rfl, .inl rfl⟩

theorem Stamped.startAt (h : Stamped queueSize maps accs q) (i : ℕ) :
    Stamped queueSize maps accs (dqStartAt q i) ∧ (dqStartAt q i).lateStart = false := by
  unfold dqStartAt
  split_ifs with late
  · obtain ⟨rfl, rfl, -⟩ := h.late late
    have noCall {deadline : DqEntry → Timeval} (h : Deadlines queueSize deadline [] q) :
        Deadlines queueSize deadline []
          { q with highestDelivered := i - 1, lateStart := false } :=
      ⟨(fun _ _ mem => nomatch mem), h.last⟩
    exact ⟨⟨(fun late => nomatch late), h.unused, noCall h.mapped, noCall h.accepted⟩, rfl⟩
  · exact ⟨h, by simpa using late⟩

theorem Stamped.seen (h : Stamped queueSize maps accs q) (started : q.lateStart = false)
    (closed cmdmap : ℕ) : Stamped queueSize maps accs
      { q with highestSeenClosed := closed, highestSeenCmdmap := cmdmap } :=
  ⟨fun late => absurd (started.symm.trans late) (by simp), h.unused, ⟨h.mapped.called, h.mapped.last⟩,
    ⟨h.accepted.called, h.accepted.last⟩⟩

theorem Stamped.onMcastMsg (h : Stamped queueSize maps accs q) (msg : McastMsg) :
    (onMcastMsg queueSize q msg).Ensures (Stamped queueSize maps accs) fun _ => True := by
  cases msg with
  | phase2 msg => exact h
  | commandMap msg =>
    obtain ⟨start, started⟩ := h.startAt msg.instNumber
    change (deliveryQueueHandleCommandMap queueSize q msg).Ensures _ _
    unfold deliveryQueueHandleCommandMap
    dsimp only
    split_ifs
    · exact start
    · refine Outcome.Ensures.bind (Outcome.ensures_of_running fun r got => got) fun r got => ?_
      have seen := (start.seen started _ _).keeps (dqGetEntry_calls got)
      exact (dqMap_calls r msg).mono fun u _ kept => seen.keeps kept
  | acceptance msg =>
    obtain ⟨start, started⟩ := h.startAt msg.instNumber
    change (deliveryQueueHandleAcceptance queueSize q msg).Ensures _ _
    unfold deliveryQueueHandleAcceptance
    dsimp only
    split_ifs
    · exact start.seen started _ _
    · refine Outcome.Ensures.bind (Outcome.ensures_of_running fun r got => got) fun r got => ?_
      have seen := (start.seen started _ _).keeps (dqGetEntry_calls got)
      exact (dqAccept_calls r msg).mono fun u _ kept => seen.keeps kept

theorem Stamped.deliverLoop (h : Stamped queueSize maps accs q) :
    (dqDeliverLoop queueSize q).Ensures (Stamped queueSize maps accs) fun _ => True :=
  (dqDeliverLoop_calls q).mono fun _ _ kept => h.keeps kept

theorem Stamped.postDelivery (h : Stamped queueSize maps accs q) :
    Stamped queueSize maps accs (postDeliveryCheck q) := by
  unfold postDeliveryCheck sendMapRequest sendChosenvalRequest
  dsimp only
  split_ifs <;> exact ⟨h.late, h.unused, ⟨h.mapped.called, h.mapped.last⟩,
    ⟨h.accepted.called, h.accepted.last⟩⟩

theorem stamped_init (queueSize : ℕ) (late : Bool) : Stamped queueSize [] [] (learnerInit late) where
  late := fun _ => ⟨rfl, rfl, rfl, rfl⟩
  unused := fun _ _ => ⟨rfl, rfl⟩
  mapped := ⟨(fun _ _ mem => nomatch mem), fun _ set => absurd rfl set⟩
  accepted := ⟨(fun _ _ mem => nomatch mem), fun _ set => absurd rfl set⟩

theorem Deadlines.call (h : Deadlines queueSize deadline calls q)
    (past : ∀ call ∈ calls, micros call.2 ≤ micros now) (normal : Normal now) {e : DqEntry}
    (own : (q.entry queueSize i).instNumber = i) (own' : e.instNumber = i)
    (set : deadline e = timerSetTimeout now requestTimeout)
    (entries : r.queueArray = setSlot q.queueArray (dqSlot queueSize i) e)
    (highest : r.highestDelivered = q.highestDelivered) :
    Deadlines queueSize deadline (calls ++ [(i, now)]) r where
  called := by
    intro j t mem low
    have found : r.entry queueSize j =
        if dqSlot queueSize j = dqSlot queueSize i then e else q.entry queueSize j := by
      unfold Learner.entry
      rw [entries, setSlot_apply]
    have new : micros t ≤ micros now → j = i → (r.entry queueSize j).instNumber = j ∧
        Normal (deadline (r.entry queueSize j)) ∧
          micros t + 10000 ≤ micros (deadline (r.entry queueSize j)) := by
      rintro le rfl
      rw [found, if_pos rfl, set, requestDeadline_micros normal]
      exact ⟨own', requestDeadline_normal normal, by omega⟩
    rcases List.mem_append.mp mem with old | last
    · by_cases here : dqSlot queueSize j = dqSlot queueSize i
      · have ownJ := (h.called j t old (highest ▸ low)).1
        unfold Learner.entry at ownJ own
        rw [here, own] at ownJ
        have before : micros t ≤ micros now := past (j, t) old
        exact new before ownJ.symm
      · rw [found, if_neg here]
        exact h.called j t old (highest ▸ low)
    · cases List.mem_singleton.mp last
      exact new (le_refl _) rfl
  last := by
    intro slot
    rw [entries, setSlot_apply]
    split_ifs with here
    · intro _
      refine ⟨now, ?_, ?_, ?_⟩
      · rw [own']
        exact List.mem_append_right _ List.mem_cons_self
      · rw [set]
        exact requestDeadline_normal normal
      · rw [set]
        exact requestDeadline_micros normal
    · intro set'
      obtain ⟨t, mem, rest⟩ := h.last slot set'
      exact ⟨t, List.mem_append_left _ mem, rest⟩

theorem Deadlines.withEntry (h : Deadlines queueSize deadline calls q) {slot : ℕ} {e : DqEntry}
    (own : e.instNumber = (q.queueArray slot).instNumber)
    (same : deadline e = deadline (q.queueArray slot))
    (entries : r.queueArray = setSlot q.queueArray slot e)
    (highest : r.highestDelivered = q.highestDelivered) : Deadlines queueSize deadline calls r where
  called := by
    intro i t mem low
    unfold Learner.entry
    rw [entries, setSlot_apply]
    split_ifs with here
    · rw [own, same, ← here]
      exact h.called i t mem (highest ▸ low)
    · exact h.called i t mem (highest ▸ low)
  last := by
    intro slot'
    rw [entries, setSlot_apply]
    split_ifs with here
    · rw [own, same]
      exact h.last slot
    · exact h.last slot'

theorem Deadlines.recent_iff (h : Deadlines queueSize deadline calls q)
    (low : q.highestDelivered < i) (free : Free queueSize q i)
    (unused : (q.entry queueSize i).instNumber = 0 → deadline (q.entry queueSize i) = ⟨0, 0⟩)
    (normal : Normal now) : Recent calls now i ↔ deadline (q.entry queueSize i) ≠ ⟨0, 0⟩ ∧
      ¬ timerIsExpired (deadline (q.entry queueSize i)) now := by
  have timeout : micros requestTimeout = 10000 := rfl
  unfold Recent
  rw [timeout]
  constructor
  · rintro ⟨t, mem, recent⟩
    obtain ⟨own, normal', after⟩ := h.called i t mem low
    rw [timerIsExpired_iff normal' normal]
    refine ⟨fun zero => ?_, by omega⟩
    rw [zero] at after
    have none : micros ⟨0, 0⟩ = 0 := rfl
    omega
  · rintro ⟨set, running⟩
    obtain ⟨t, mem, normal', last⟩ := h.last (dqSlot queueSize i) set
    have own : (q.entry queueSize i).instNumber = i := by
      rcases free with own | free
      · exact own
      · exact absurd (unused free) set
    unfold Learner.entry at own running
    rw [timerIsExpired_iff normal' normal] at running
    rw [own] at mem
    exact ⟨t, mem, by omega⟩

end FdsPaxos.RingGapDeadlines
