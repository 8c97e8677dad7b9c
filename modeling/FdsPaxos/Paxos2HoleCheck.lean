import FdsPaxos.Paxos2LearnerDelivery

set_option autoImplicit false

/-!
Which instances the hole check of `learner.c` asks the acceptors to repeat.  The loop
looks at slots and not at the instances they hold, and the two tests that start it
leave a gap at the end of the window.
-/

namespace FdsPaxos.Paxos2HoleCheck
open TransitionRuns CircularWindow Paxos2Config Paxos2Messages Paxos2SendBuffer
open Paxos2Learner Paxos2LearnerDelivery

variable (cfg : Config)

/-- What happens to a learner between its start and its end. -/
inductive LearnerEvent where
  | acceptAck (acceptorId : Fin cfg.nOfAcceptors) (aa : AcceptAck)
  | holeCheck

def learnerEventStep (lr : LearnerRun) : LearnerEvent cfg → LearnerRun
  | .acceptAck acceptorId aa => learnerStep cfg lr (acceptorId.val, aa)
  | .holeCheck => lr.map fun r => (leaHoleCheck cfg r.1, r.2)

/-- The instances of the acknowledgements among `events`. -/
def seenIn : List (LearnerEvent cfg) → List ℕ
  | [] => []
  | .acceptAck _ aa :: events => aa.iid :: seenIn events
  | .holeCheck :: events => seenIn events

/-- The range for which the hole check asks, if it asks. -/
def askedRange (ls : LearnerState) : Option (ℕ × ℕ) :=
  if ls.currentIid + cfg.learnerArraySize < ls.highestIidSeen then
    some (ls.currentIid, ls.highestIidSeen)
  else if ls.currentIid < ls.highestIidClosed then some (ls.currentIid, ls.highestIidClosed)
  else none

/-- The repeat requests that the hole check sends from `ls` are right, after
acknowledgements of the instances `seen`. -/
structure Requests (seen : List ℕ) (ls : LearnerState) (requests : List ℕ) : Prop where
  sent : (leaHoleCheck cfg ls).toAcceptors.sent.flatten =
    ls.toAcceptors.sent.flatten ++ requests
  exact : ∀ first last, askedRange cfg ls = some (first, last) →
    requests.Nodup ∧ ∀ i, i ∈ requests ↔ first ≤ i ∧ i < last ∧ ¬ learnerIsClosed cfg ls i
  asked : ((∃ i, ls.currentIid < i ∧ learnerIsClosed cfg ls i) ∨
      ∃ i ∈ seen, ls.currentIid + cfg.learnerArraySize ≤ i) → ls.currentIid ∈ requests

def HoleCheckRight (seen : List ℕ) (ls : LearnerState) : Prop :=
  ∃ requests, Requests cfg seen ls requests

/-- No instance beyond the window shares the slot of a closed one, and the highest
instance seen is not the first beyond the window, unless a closed one makes up for it. -/
def NoHoleMissed (ls : LearnerState) : Prop :=
  (∀ i, ls.currentIid + cfg.learnerArraySize ≤ i → i < ls.highestIidSeen →
    ¬ (ls.learnerState (cfg.leaIndex i)).IsClosed) ∧
  (ls.highestIidSeen = ls.currentIid + cfg.learnerArraySize → ls.currentIid < ls.highestIidClosed)

variable {cfg}

def openSlots (cfg : Config) (ls : LearnerState) (first last : ℕ) : List ℕ :=
  (List.range' first (last - first)).filter
    fun i => decide (¬ (ls.learnerState (cfg.leaIndex i)).IsClosed)

theorem mem_openSlots {ls : LearnerState} {first last i : ℕ} :
    i ∈ openSlots cfg ls first last ↔
      first ≤ i ∧ i < last ∧ ¬ (ls.learnerState (cfg.leaIndex i)).IsClosed := by
  simp only [openSlots, List.mem_filter, List.mem_range'_1, decide_eq_true_eq]
  constructor
  · rintro ⟨⟨low, high⟩, closed⟩
    exact ⟨low, by omega, closed⟩
  · rintro ⟨low, high, closed⟩
    exact ⟨⟨low, by omega⟩, closed⟩

theorem openSlots_nodup (ls : LearnerState) (first last : ℕ) :
    (openSlots cfg ls first last).Nodup :=
  (List.nodup_range' 1 (by decide)).filter _

theorem content_requestRepeat (ls : LearnerState) (iids : List ℕ) :
    (run (leaRequestRepeat cfg) ls iids).toAcceptors.content =
      ls.toAcceptors.content ++
        iids.filter fun i => decide (¬ (ls.learnerState (cfg.leaIndex i)).IsClosed) := by
  induction iids generalizing ls with
  | nil => simp
  | cons i iids ih =>
    rw [run_cons, ih]
    by_cases closed : (ls.learnerState (cfg.leaIndex i)).IsClosed
    · simp [leaRequestRepeat, closed]
    · simp [leaRequestRepeat, closed, sendbufAddRepeatReq, SendBuf.content_add]

theorem sent_sendRepeatRequest (ls : LearnerState) (first last : ℕ) :
    (leaSendRepeatRequest cfg ls first last).toAcceptors.sent.flatten =
      ls.toAcceptors.sent.flatten ++ openSlots cfg ls first last := by
  simp only [leaSendRepeatRequest, SendBuf.sent_flush, content_requestRepeat,
    SendBuf.content_clear]
  rfl

theorem leaHoleCheck_eq (ls : LearnerState) :
    leaHoleCheck cfg ls =
      match askedRange cfg ls with
      | some (first, last) => leaSendRepeatRequest cfg ls first last
      | none => ls := by
  unfold leaHoleCheck askedRange
  split_ifs <;> rfl

def requestsOf (cfg : Config) (ls : LearnerState) : List ℕ :=
  match askedRange cfg ls with
  | some (first, last) => openSlots cfg ls first last
  | none => []

theorem sent_holeCheck (ls : LearnerState) :
    (leaHoleCheck cfg ls).toAcceptors.sent.flatten =
      ls.toAcceptors.sent.flatten ++ requestsOf cfg ls := by
  rw [leaHoleCheck_eq, requestsOf]
  cases askedRange cfg ls with
  | none => simp
  | some range => exact sent_sendRepeatRequest ls range.1 range.2

theorem holeCheckRight_iff {seen : List ℕ} {ls : LearnerState} :
    HoleCheckRight cfg seen ls ↔ Requests cfg seen ls (requestsOf cfg ls) := by
  constructor
  · rintro ⟨requests, right⟩
    have same : requests = requestsOf cfg ls :=
      List.append_cancel_left (right.sent.symm.trans (sent_holeCheck ls))
    exact same ▸ right
  · intro right
    exact ⟨_, right⟩

section Highest

structure HighestKnown (cfg : Config) (highest : ℕ) (ls : LearnerState) : Prop where
  closed : ∀ slot, (ls.learnerState slot).IsClosed →
    (ls.learnerState slot).iid ≤ ls.highestIidClosed
  near : ls.highestIidClosed < ls.currentIid + cfg.learnerArraySize
  seen : ls.highestIidSeen = highest

theorem not_isClosed_cleared : ¬ clearedInstanceInfo.IsClosed := by
  simp [clearedInstanceInfo, LInstInfo.IsClosed]

theorem highestKnown_init : HighestKnown cfg 1 learnerInit where
  closed := by
    intro slot closed
    exact absurd closed not_isClosed_cleared
  near := by
    simp only [learnerInit]
    omega
  seen := rfl

variable {highest slot : ℕ} {ls : LearnerState}

theorem HighestKnown.moveToNext (h : HighestKnown cfg highest ls) :
    HighestKnown cfg highest (leaMoveToNext cfg ls) where
  closed := by
    intro slot closed
    simp only [leaMoveToNext, setSlot_apply] at closed ⊢
    split_ifs at closed ⊢ with same
    · exact absurd closed not_isClosed_cleared
    · exact h.closed slot closed
  near := by
    have := h.near
    simp only [leaMoveToNext]
    omega
  seen := h.seen

theorem HighestKnown.deliver (fuel : ℕ) (h : HighestKnown cfg highest ls) :
    HighestKnown cfg highest (leaDeliverNextClosed cfg fuel ls).state.1 := by
  induction fuel generalizing ls with
  | zero => exact h
  | succ fuel ih =>
    unfold leaDeliverNextClosed
    dsimp only
    split
    · exact h
    · split_ifs
      · rw [Outcome.state_map]
        exact ih h.moveToNext
      · exact h

theorem HighestKnown.withSlot (h : HighestKnown cfg highest ls) {ii : LInstInfo}
    (closed : ii.IsClosed → ii.iid ≤ ls.highestIidClosed) :
    HighestKnown cfg highest (ls.withSlot slot ii) where
  closed := by
    intro slot'
    simp only [LearnerState.withSlot, setSlot_apply]
    split_ifs
    · exact closed
    · exact h.closed slot'
  near := h.near
  seen := h.seen

theorem HighestKnown.checkQuorum (h : HighestKnown cfg highest ls)
    (near : (ls.learnerState slot).iid < ls.currentIid + cfg.learnerArraySize) :
    HighestKnown cfg highest (leaCheckQuorum cfg ls slot).1 := by
  unfold leaCheckQuorum
  dsimp only
  by_cases quorum :
      cfg.quorum ≤ (leaScanAcks cfg (ls.learnerState slot) (List.range cfg.nOfAcceptors) none 0).2
  · rw [if_pos quorum]
    have old := h.near
    refine ⟨?_, ?_, h.seen⟩
    · intro slot'
      dsimp only
      rw [setSlot_apply]
      split_ifs with same new new
      · intro _
        exact Nat.le_refl _
      · intro _
        exact Nat.not_lt.mp new
      · intro closed
        have := h.closed slot' closed
        omega
      · exact h.closed slot'
    · dsimp only
      split_ifs
      · exact near
      · exact old
  · rw [if_neg quorum]
    exact h

theorem HighestKnown.see (h : HighestKnown cfg highest ls) (aa : AcceptAck) :
    HighestKnown cfg (max highest aa.iid) (leaSeen ls aa) where
  closed := h.closed
  near := h.near
  seen := by
    simp only [leaSeen, h.seen]
    split_ifs <;> omega

theorem leaFirstMessage_isClosed (ii : LInstInfo) (aa : AcceptAck) :
    (leaFirstMessage ii aa).IsClosed ↔ ii.IsClosed := by
  simp [LInstInfo.IsClosed]

theorem firstMessage_closed {cur : ℕ} {ii : LInstInfo} {aa : AcceptAck}
    (sound : SlotSound cfg cur slot ii) (closed : (leaFirstMessage ii aa).IsClosed) :
    ii.IsClosed ∧ (leaFirstMessage ii aa).iid = ii.iid := by
  rw [leaFirstMessage_isClosed] at closed
  refine ⟨closed, ?_⟩
  unfold leaFirstMessage instInfoEmpty
  split_ifs with unused
  · have value := sound.not_decided_of_unused unused
    simp [LInstInfo.IsClosed, value] at closed
  · rfl

theorem HighestKnown.ack (h : HighestKnown cfg highest ls) (sound : LearnerSound cfg ls)
    (a : ℕ) (aa : AcceptAck) :
    HighestKnown cfg (max highest aa.iid) (handleAcceptAck cfg ls a aa).state.1 := by
  have seen := h.see aa
  unfold handleAcceptAck
  have current : (leaSeen ls aa).currentIid = ls.currentIid := rfl
  have slots : (leaSeen ls aa).learnerState = ls.learnerState := rfl
  simp only [current, slots]
  by_cases low : aa.iid < ls.currentIid
  · rw [if_pos low]
    exact seen
  by_cases high : ls.currentIid + cfg.learnerArraySize ≤ aa.iid
  · rw [if_neg low, if_pos high]
    exact seen
  rw [if_neg low, if_neg high]
  have old := sound.slots (cfg.leaIndex aa.iid)
  have fits := sound.window_slot (Nat.not_lt.mp low) (Nat.not_le.mp high)
  rcases leaUpdateState_spec old a fits with irrelevant | ⟨undecided, relevant⟩
  · rw [irrelevant]
    apply seen.withSlot
    intro closed
    obtain ⟨closed, same⟩ := firstMessage_closed old closed
    rw [same]
    exact h.closed _ closed
  · rw [relevant]
    dsimp only
    rw [if_pos rfl]
    set ii := leaStoreAcceptAck (leaFirstMessage (ls.learnerState (cfg.leaIndex aa.iid)) aa) a aa
    have stored : HighestKnown cfg (max highest aa.iid)
        ((leaSeen ls aa).withSlot (cfg.leaIndex aa.iid) ii) := by
      apply seen.withSlot
      intro closed
      have closed := (firstMessage_closed old closed).1
      cases value : (ls.learnerState (cfg.leaIndex aa.iid)).finalValue with
      | none => simp [LInstInfo.IsClosed, value] at closed
      | some fa => exact absurd (old.decided fa value).close undecided
    have near : (((leaSeen ls aa).withSlot (cfg.leaIndex aa.iid) ii).learnerState
        (cfg.leaIndex aa.iid)).iid < ls.currentIid + cfg.learnerArraySize := by
      have named : ii.iid = aa.iid := leaFirstMessage_iid fits
      simp only [LearnerState.withSlot, setSlot_self]
      omega
    have checked := stored.checkQuorum near
    split
    · next mid equal =>
      rw [equal] at checked
      exact checked
    · next mid equal =>
      rw [equal] at checked
      split_ifs
      · exact checked.deliver _
      · exact checked

end Highest

/-- The instances seen so far reach up to `highest`. -/
def SeenUpTo (seen : List ℕ) (highest : ℕ) : Prop :=
  (∀ i ∈ seen, i ≤ highest) ∧ (highest = 1 ∨ highest ∈ seen)

theorem SeenUpTo.add {seen : List ℕ} {highest : ℕ} (h : SeenUpTo seen highest) (i : ℕ) :
    SeenUpTo (seen ++ [i]) (max highest i) := by
  obtain ⟨bound, attained⟩ := h
  refine ⟨?_, ?_⟩
  · intro j hj
    rcases List.mem_append.mp hj with hj | hj
    · have := bound j hj
      omega
    · rw [List.mem_singleton.mp hj]
      omega
  · rcases Nat.le_total highest i with le | le
    · rw [max_eq_right le]
      exact .inr (by simp)
    · rw [max_eq_left le]
      exact attained.imp_right (List.mem_append_left _)

/-- A learner that has handled acknowledgements of the instances `seen`. -/
structure LearnerKnows (cfg : Config) (seen : List ℕ) (ls : LearnerState) : Prop where
  sound : LearnerSound cfg ls
  opened : CurrentOpen cfg ls
  known : HighestKnown cfg ls.highestIidSeen ls
  upTo : SeenUpTo seen ls.highestIidSeen

theorem learnerKnows_init : LearnerKnows cfg [] learnerInit where
  sound := learnerSound_init
  opened := rfl
  known := highestKnown_init
  upTo := by simp [SeenUpTo, learnerInit]

theorem LearnerKnows.ack {seen : List ℕ} {ls : LearnerState} (h : LearnerKnows cfg seen ls)
    (a : ℕ) (aa : AcceptAck) :
    ∃ ls' ds, handleAcceptAck cfg ls a aa = .running (ls', ds) ∧
      LearnerKnows cfg (seen ++ [aa.iid]) ls' := by
  obtain ⟨ls', ds, handled, effect⟩ := handleAcceptAck_spec h.sound h.opened a aa
  have known := h.known.ack h.sound a aa
  rw [handled] at known
  have highest : ls'.highestIidSeen = max ls.highestIidSeen aa.iid := known.seen
  refine ⟨ls', ds, handled, effect.sound, effect.opened, ?_, ?_⟩
  · rw [highest]
    exact known
  · rw [highest]
    exact h.upTo.add aa.iid

theorem leaHoleCheck_buffer (cfg : Config) (ls : LearnerState) :
    ∃ toAcceptors, leaHoleCheck cfg ls = { ls with toAcceptors } := by
  have repeated (ls : LearnerState) (iids : List ℕ) :
      ∃ toAcceptors, run (leaRequestRepeat cfg) ls iids = { ls with toAcceptors } := by
    refine run_invariant (fun l : LearnerState => ∃ toAcceptors, l = { ls with toAcceptors })
      ⟨ls.toAcceptors, rfl⟩ ?_
    rintro l i ⟨toAcceptors, rfl⟩
    unfold leaRequestRepeat
    split_ifs
    · exact ⟨_, rfl⟩
    · exact ⟨_, rfl⟩
  rw [leaHoleCheck_eq]
  cases askedRange cfg ls with
  | none => exact ⟨ls.toAcceptors, rfl⟩
  | some range =>
    obtain ⟨toAcceptors, same⟩ := repeated { ls with toAcceptors := sendbufClear ls.toAcceptors }
      (List.range' range.1 (range.2 - range.1))
    simp only [leaSendRepeatRequest, same]
    exact ⟨_, rfl⟩

theorem LearnerKnows.holeCheck {seen : List ℕ} {ls : LearnerState} (h : LearnerKnows cfg seen ls) :
    LearnerKnows cfg seen (leaHoleCheck cfg ls) := by
  obtain ⟨toAcceptors, same⟩ := leaHoleCheck_buffer cfg ls
  rw [same]
  exact
    { sound := ⟨h.sound.current_pos, h.sound.slots⟩
      opened := h.opened
      known := ⟨h.known.closed, h.known.near, rfl⟩
      upTo := h.upTo }

theorem learnerKnows_run {seen : List ℕ} {ls : LearnerState} (ds : List Delivery)
    (h : LearnerKnows cfg seen ls) (events : List (LearnerEvent cfg)) :
    ∃ ls' ds', run (learnerEventStep cfg) (.running (ls, ds)) events = .running (ls', ds') ∧
      LearnerKnows cfg (seen ++ seenIn cfg events) ls' := by
  induction events generalizing seen ls ds with
  | nil => exact ⟨ls, ds, rfl, by simpa [seenIn] using h⟩
  | cons event events ih =>
    cases event with
    | acceptAck acceptorId aa =>
      obtain ⟨ls₁, more, handled, known⟩ := h.ack acceptorId.val aa
      have first : learnerEventStep cfg (.running (ls, ds)) (.acceptAck acceptorId aa) =
          .running (ls₁, ds ++ more) := by
        simp [learnerEventStep, learnerStep, handled]
      obtain ⟨ls', ds', rest, final⟩ := ih (ds ++ more) known
      refine ⟨ls', ds', ?_, ?_⟩
      · rw [run_cons, first, rest]
      · simpa [seenIn, List.append_assoc] using final
    | holeCheck => exact ih ds h.holeCheck

section Condition

variable {seen : List ℕ} {ls : LearnerState}

theorem isClosed_iff_of_window (sound : LearnerSound cfg ls) {i : ℕ}
    (low : ls.currentIid ≤ i) (high : i < ls.currentIid + cfg.learnerArraySize) :
    (ls.learnerState (cfg.leaIndex i)).IsClosed ↔ learnerIsClosed cfg ls i := by
  unfold learnerIsClosed
  rcases sound.window_slot low high with unused | same
  · have value := (sound.slots _).not_decided_of_unused unused
    simp [LInstInfo.IsClosed, value]
  · simp [same]

theorem not_learnerIsClosed_beyond (sound : LearnerSound cfg ls) {i : ℕ}
    (beyond : ls.currentIid + cfg.learnerArraySize ≤ i) : ¬ learnerIsClosed cfg ls i := by
  rintro ⟨named, -⟩
  have positive := sound.current_pos
  have window := (sound.slots (cfg.leaIndex i)).window (by omega)
  omega

theorem current_not_closed (opened : CurrentOpen cfg ls) :
    ¬ (ls.learnerState (cfg.leaIndex ls.currentIid)).IsClosed := by
  unfold CurrentOpen at opened
  simp [LInstInfo.IsClosed, opened]

theorem LearnerKnows.lt_highestIidClosed (h : LearnerKnows cfg seen ls) {i : ℕ}
    (above : ls.currentIid < i) (closed : learnerIsClosed cfg ls i) :
    ls.currentIid < ls.highestIidClosed := by
  obtain ⟨named, closed⟩ := closed
  have := h.known.closed _ closed
  omega

theorem mem_requestsOf_current (opened : CurrentOpen cfg ls)
    (asks : ls.currentIid + cfg.learnerArraySize < ls.highestIidSeen ∨
      ls.currentIid < ls.highestIidClosed) : ls.currentIid ∈ requestsOf cfg ls := by
  have current := current_not_closed opened
  unfold requestsOf askedRange
  by_cases lagging : ls.currentIid + cfg.learnerArraySize < ls.highestIidSeen
  · rw [if_pos lagging]
    exact mem_openSlots.mpr ⟨Nat.le_refl _, by omega, current⟩
  · have behind := asks.resolve_left lagging
    rw [if_neg lagging, if_pos behind]
    exact mem_openSlots.mpr ⟨Nat.le_refl _, behind, current⟩

theorem requests_exact (h : LearnerKnows cfg seen ls)
    (unshared : ∀ i, ls.currentIid + cfg.learnerArraySize ≤ i → i < ls.highestIidSeen →
      ¬ (ls.learnerState (cfg.leaIndex i)).IsClosed) {first last : ℕ}
    (asks : askedRange cfg ls = some (first, last)) :
    (requestsOf cfg ls).Nodup ∧
      ∀ i, i ∈ requestsOf cfg ls ↔ first ≤ i ∧ i < last ∧ ¬ learnerIsClosed cfg ls i := by
  have requests : requestsOf cfg ls = openSlots cfg ls first last := by
    simp only [requestsOf, asks]
  have near := h.known.near
  have range : first = ls.currentIid ∧
      (last = ls.highestIidSeen ∨ last ≤ ls.currentIid + cfg.learnerArraySize) := by
    unfold askedRange at asks
    split_ifs at asks
    · cases asks
      exact ⟨rfl, .inl rfl⟩
    · cases asks
      exact ⟨rfl, .inr near.le⟩
  rw [requests]
  refine ⟨openSlots_nodup ls first last, ?_⟩
  intro i
  rw [mem_openSlots]
  apply and_congr_right
  intro low
  apply and_congr_right
  intro high
  by_cases window : i < ls.currentIid + cfg.learnerArraySize
  · exact not_congr (isClosed_iff_of_window h.sound (by omega) window)
  · exact iff_of_true (unshared i (by omega) (by omega))
      (not_learnerIsClosed_beyond h.sound (by omega))

theorem LearnerKnows.right_of_noHoleMissed (h : LearnerKnows cfg seen ls)
    (condition : NoHoleMissed cfg ls) : HoleCheckRight cfg seen ls := by
  obtain ⟨unshared, gap⟩ := condition
  refine ⟨requestsOf cfg ls, sent_holeCheck ls, ?_, ?_⟩
  · intro first last asks
    exact requests_exact h unshared asks
  · intro missed
    apply mem_requestsOf_current h.opened
    rcases missed with ⟨i, above, closed⟩ | ⟨i, hi, beyond⟩
    · exact .inr (h.lt_highestIidClosed above closed)
    · have bound := h.upTo.1 i hi
      rcases Nat.lt_or_eq_of_le (beyond.trans bound) with lt | equal
      · exact .inl lt
      · exact .inr (gap equal.symm)

theorem LearnerKnows.noHoleMissed_of_right (h : LearnerKnows cfg seen ls)
    (right : HoleCheckRight cfg seen ls) : NoHoleMissed cfg ls := by
  have right := holeCheckRight_iff.mp right
  constructor
  · intro i beyond last closed
    have lagging : ls.currentIid + cfg.learnerArraySize < ls.highestIidSeen := by omega
    have asks : askedRange cfg ls = some (ls.currentIid, ls.highestIidSeen) := by
      rw [askedRange, if_pos lagging]
    have requested := ((right.exact _ _ asks).2 i).mpr
      ⟨by omega, last, not_learnerIsClosed_beyond h.sound beyond⟩
    simp only [requestsOf, asks] at requested
    exact (mem_openSlots.mp requested).2.2 closed
  · intro equal
    have positive := h.sound.current_pos
    have array := cfg.learnerArray_pos
    have dropped : ls.highestIidSeen ∈ seen := by
      rcases h.upTo.2 with one | mem
      · omega
      · exact mem
    have requested := right.asked (.inr ⟨_, dropped, equal.ge⟩)
    by_contra behind
    have silent : askedRange cfg ls = none := by
      rw [askedRange, if_neg (by omega), if_neg behind]
    simp [requestsOf, silent] at requested

end Condition

/-- In every reachable state of a learner the hole check sends the right requests exactly
when no instance beyond the window shares the slot of a closed one and the highest
instance seen is not just beyond the window without a closed one above the current. -/
theorem hole_check_right_iff (cfg : Config) (events : List (LearnerEvent cfg)) :
    ∃ ls ds, run (learnerEventStep cfg) learnerStart events = .running (ls, ds) ∧
      (HoleCheckRight cfg (seenIn cfg events) ls ↔ NoHoleMissed cfg ls) := by
  obtain ⟨ls, ds, reached, known⟩ := learnerKnows_run [] learnerKnows_init events
  rw [List.nil_append] at known
  exact ⟨ls, ds, reached, known.noHoleMissed_of_right, known.right_of_noHoleMissed⟩

/-- Two acknowledgements close instance 2, and one of instance 11 shows that the learner
lags: instance 10 has the slot of instance 2. -/
def sharedSlot : List (LearnerEvent .small) :=
  [.acceptAck (0 : Fin 3) ⟨2, 10, 10, false, [1]⟩,
    .acceptAck (1 : Fin 3) ⟨2, 10, 10, false, [1]⟩,
    .acceptAck (0 : Fin 3) ⟨11, 10, 10, false, [2]⟩]

/-- The only acknowledgement received is of the first instance beyond the window. -/
def justBeyond : List (LearnerEvent .small) :=
  [.acceptAck (0 : Fin 3) ⟨9, 10, 10, false, [1]⟩]

/-- In the first run instance 10 is not asked for although it is not closed; in the second
nothing is asked for although instance 9 was dropped. -/
theorem hole_check_misses :
    (∃ r, run (learnerEventStep .small) learnerStart sharedSlot = .running r ∧
      askedRange .small r.1 = some (1, 11) ∧ ¬ learnerIsClosed .small r.1 10 ∧
      (leaHoleCheck .small r.1).toAcceptors.sent = [[1, 3, 4, 5, 6, 7, 8, 9]] ∧
      ¬ HoleCheckRight .small (seenIn .small sharedSlot) r.1) ∧
    ∃ r, run (learnerEventStep .small) learnerStart justBeyond = .running r ∧
      askedRange .small r.1 = none ∧ 9 = r.1.currentIid + Config.small.learnerArraySize ∧
      ¬ HoleCheckRight .small (seenIn .small justBeyond) r.1 := by
  constructor
  · refine ⟨_, Outcome.running_of_isRunning (by decide +kernel), by decide +kernel,
      by decide +kernel, by decide +kernel, ?_⟩
    intro right
    have requested := (((holeCheckRight_iff.mp right).exact 1 11 (by decide +kernel)).2 10).mpr
      (by decide +kernel)
    revert requested
    decide +kernel
  · refine ⟨_, Outcome.running_of_isRunning (by decide +kernel), by decide +kernel,
      by decide +kernel, ?_⟩
    intro right
    have requested := (holeCheckRight_iff.mp right).asked (.inr ⟨9, by decide +kernel⟩)
    revert requested
    decide +kernel

end FdsPaxos.Paxos2HoleCheck
