import FdsPaxos.Paxos2ClientValues
import FdsPaxos.Paxos2PhaseTwoLimit

set_option autoImplicit false

namespace FdsPaxos.Paxos2SubmissionOrder
open TransitionRuns CircularWindow Paxos2Config Paxos2Messages Paxos2SendBuffer
open Paxos2ValuesHandler Paxos2Learner Paxos2LearnerDelivery Paxos2Leader Paxos2Proposer
open Paxos2LeaderMoves Paxos2LeaderCounters Paxos2LeaderInvariant Paxos2LeaderIndices
open Paxos2DeliveryOrder Paxos2CountersExact Paxos2ClientValues Paxos2PhaseTwoLimit

variable {cfg : Config} {n : ℕ} {s t u : LeaderState}

section Histories

variable {old new : List LeaderEvent}

/-- All instances below `n` were delivered. -/
def Heard (n : ℕ) (trace : List LeaderEvent) : Prop :=
  ∀ i, 0 < i → i < n → ∃ value, .delivered i value ∈ trace

/-- Each accept request was sent when all instances before its own were delivered. -/
def InTurn (trace : List LeaderEvent) : Prop :=
  ∀ later earlier j ballot value, trace = later ++ .proposed j ballot value :: earlier →
    Heard j earlier

/-- What is added to a history proposes no instance above `n`. -/
def ProposesUpTo (n : ℕ) (new : List LeaderEvent) : Prop :=
  ∀ j ballot value, .proposed j ballot value ∈ new → j ≤ n

def deliveredValues (trace : List LeaderEvent) : List Value :=
  trace.reverse.filterMap fun
    | .delivered _ value => some value
    | _ => none

theorem deliveredValues_append (new old : List LeaderEvent) :
    deliveredValues (new ++ old) = deliveredValues old ++ deliveredValues new := by
  simp [deliveredValues]

theorem Heard.grows (h : Heard n old) : Heard n (new ++ old) := by
  intro i pos lt
  obtain ⟨value, mem⟩ := h i pos lt
  exact ⟨value, List.mem_append_right new mem⟩

theorem Heard.mono (h : Heard n old) {m : ℕ} (le : m ≤ n) : Heard m old :=
  fun i pos lt => h i pos (lt.trans_le le)

theorem Heard.delivered (h : Heard n old) (value : Value) :
    Heard (n + 1) (.delivered n value :: old) := by
  intro i pos lt
  rcases Nat.lt_succ_iff_lt_or_eq.mp lt with below | rfl
  · obtain ⟨value, mem⟩ := h i pos below
    exact ⟨value, List.mem_cons_of_mem _ mem⟩
  · exact ⟨value, List.mem_cons_self⟩

theorem InTurn.grows (h : InTurn old) (heard : Heard n old) (upTo : ProposesUpTo n new) :
    InTurn (new ++ old) := by
  intro later earlier j ballot value split
  rcases List.append_eq_append_iff.mp split with ⟨rest, same, tail⟩ | ⟨rest, same, tail⟩
  · exact h rest earlier j ballot value tail
  · cases rest with
    | nil => exact h [] earlier j ballot value tail.symm
    | cons first rest =>
      obtain ⟨rfl, rfl⟩ := List.cons.inj tail
      have proposed : .proposed j ballot value ∈ new := by simp [same]
      exact (heard.mono (upTo j ballot value proposed)).grows

theorem ProposesUpTo.append {more : List LeaderEvent} (h : ProposesUpTo n new)
    (h' : ProposesUpTo n more) : ProposesUpTo n (more ++ new) := by
  intro j ballot value mem
  rcases List.mem_append.mp mem with later | first
  · exact h' j ballot value later
  · exact h j ballot value first

theorem proposesUpTo_nil : ProposesUpTo n [] := fun _ _ _ mem => nomatch mem

end Histories

def instanceValues (cfg : Config) (slots : ℕ → PInstInfo) : List Value :=
  (List.range cfg.proposerArraySize).filterMap fun slot => (slots slot).p2Value

/-- The values whose clients wait for an answer, the oldest first. -/
def waiting (cfg : Config) (s : LeaderState) : List Value :=
  instanceValues cfg s.proposerState ++ s.valuesHandler.pendingList

/-- Between two states of a leader `accepted` were submitted, `found` were taken over from other
leaders, and the clients of `told` were told that their values were chosen. -/
structure Serves (cfg : Config) (accepted found told : List Value) (s t : LeaderState) :
    Prop where
  submitted : t.valuesHandler.accepted = accepted.reverse ++ s.valuesHandler.accepted
  takenOver : t.valuesHandler.found = found.reverse ++ s.valuesHandler.found
  answered : t.valuesHandler.notified =
    s.valuesHandler.notified ++ told.map fun value => (0, value)
  inOrder : (waiting cfg s ++ accepted).Sublist (told ++ waiting cfg t)
  allKept : (told ++ waiting cfg t).Perm (waiting cfg s ++ accepted ++ found)
  delivered : ∃ new, t.trace = new ++ s.trace ∧ told.Sublist (deliveredValues new)

def ServesInOrder (cfg : Config) (s t : LeaderState) : Prop :=
  ∃ accepted found told, Serves cfg accepted found told s t

theorem filterMap_of_alone {α β : Type} (f : α → Option β) {l : List α} (nodup : l.Nodup)
    {a : α} (mem : a ∈ l) (others : ∀ b ∈ l, b ≠ a → f b = none) :
    l.filterMap f = (f a).toList := by
  induction l with
  | nil => cases mem
  | cons b rest ih =>
    obtain ⟨fresh, nodup⟩ := List.nodup_cons.mp nodup
    obtain ⟨first, others⟩ := List.forall_mem_cons.mp others
    by_cases here : b = a
    · subst here
      have none : rest.filterMap f = [] := by
        rw [List.filterMap_eq_nil_iff]
        exact fun c mem => others c mem fun same => fresh (same ▸ mem)
      cases held : f b <;> simp [held, none]
    · rw [List.filterMap_cons, first here]
      exact ih nodup ((List.mem_cons.mp mem).resolve_left (Ne.symm here)) others

theorem instanceValues_alone {slots : ℕ → PInstInfo} {slot : ℕ}
    (lt : slot < cfg.proposerArraySize)
    (others : ∀ k < cfg.proposerArraySize, k ≠ slot → (slots k).p2Value = none) :
    instanceValues cfg slots = (slots slot).p2Value.toList :=
  filterMap_of_alone _ List.nodup_range (List.mem_range.mpr lt) fun k mem =>
    others k (List.mem_range.mp mem)

theorem instanceValues_setSlot {slots : ℕ → PInstInfo} {slot : ℕ} {ii : PInstInfo}
    (p2Value : ii.p2Value = (slots slot).p2Value) :
    instanceValues cfg (setSlot slots slot ii) = instanceValues cfg slots := by
  unfold instanceValues
  apply List.filterMap_congr
  intro k _
  rw [setSlot_apply]
  split_ifs with here
  · rw [here, p2Value]
  · rfl

theorem ServesInOrder.still (new : List LeaderEvent) (values : t.valuesHandler = s.valuesHandler)
    (slots : instanceValues cfg t.proposerState = instanceValues cfg s.proposerState)
    (trace : t.trace = new ++ s.trace) : ServesInOrder cfg s t := by
  have same : waiting cfg t = waiting cfg s := by rw [waiting, waiting, values, slots]
  refine ⟨[], [], [], by rw [values]; rfl, by rw [values]; rfl, ?_, ?_, ?_, new, trace, ?_⟩
  · rw [values, List.map_nil, List.append_nil]
  · rw [same, List.append_nil]
    exact .refl _
  · rw [same, List.append_nil, List.append_nil]
    exact .refl _
  · exact List.nil_sublist _

theorem ServesInOrder.refl (s : LeaderState) : ServesInOrder cfg s s :=
  .still [] rfl rfl rfl

theorem ServesInOrder.trans (h : ServesInOrder cfg s t) (h' : ServesInOrder cfg t u) :
    ServesInOrder cfg s u := by
  obtain ⟨accepted, found, told, first⟩ := h
  obtain ⟨accepted', found', told', second⟩ := h'
  obtain ⟨new, trace, delivered⟩ := first.delivered
  obtain ⟨new', trace', delivered'⟩ := second.delivered
  refine ⟨accepted ++ accepted', found ++ found', told ++ told', ?_, ?_, ?_, ?_, ?_,
    new' ++ new, ?_, ?_⟩
  · rw [second.submitted, first.submitted, List.reverse_append, List.append_assoc]
  · rw [second.takenOver, first.takenOver, List.reverse_append, List.append_assoc]
  · rw [second.answered, first.answered, List.map_append, List.append_assoc]
  · have early := first.inOrder.append_right accepted'
    have late := second.inOrder.append_left told
    rw [List.append_assoc, List.append_assoc] at early
    rw [List.append_assoc]
    exact early.trans late
  · rw [List.perm_iff_count]
    intro v
    have early := first.allKept.count_eq v
    have late := second.allKept.count_eq v
    simp only [List.count_append] at early late ⊢
    omega
  · rw [trace', trace, List.append_assoc]
  · rw [deliveredValues_append]
    exact delivered.append delivered'

section Turns

def NothingClosed (s : LeaderState) : Prop :=
  ∀ slot, (s.proposerState slot).status ≠ .p2Completed

/-- What a routine of a leader that works on instance `n` does.  The values of clients are
followed where promises are `clear`, so that none of them is replaced. -/
structure Turn (cfg : Config) (clear : Prop) (n : ℕ) (s t : LeaderState) : Prop where
  sent : ∃ new, t.trace = new ++ s.trace ∧ ProposesUpTo n new
  open_ : NothingClosed s → NothingClosed t
  follows : clear → ReadyAgrees s → ReadyAgrees t ∧ ServesInOrder cfg s t

variable {clear : Prop} {clock : ℕ → Timeval} {timeNow : Timeval}

theorem Turn.quiet (new : List LeaderEvent) (slots : t.proposerState = s.proposerState)
    (values : t.valuesHandler = s.valuesHandler) (trace : t.trace = new ++ s.trace)
    (upTo : ProposesUpTo n new) : Turn cfg clear n s t where
  sent := ⟨new, trace, upTo⟩
  open_ := by
    unfold NothingClosed
    rw [slots]
    exact id
  follows := by
    intro _ agrees
    refine ⟨?_, .still new values (by rw [slots]) trace⟩
    unfold ReadyAgrees
    rw [slots]
    exact agrees

theorem Turn.same (slots : t.proposerState = s.proposerState)
    (values : t.valuesHandler = s.valuesHandler) (trace : t.trace = s.trace) :
    Turn cfg clear n s t :=
  .quiet [] slots values trace proposesUpTo_nil

theorem Turn.refl (s : LeaderState) : Turn cfg clear n s s := .same rfl rfl rfl

theorem Turn.trans (h : Turn cfg clear n s t) (h' : Turn cfg clear n t u) :
    Turn cfg clear n s u where
  sent := by
    obtain ⟨new, trace, upTo⟩ := h.sent
    obtain ⟨new', trace', upTo'⟩ := h'.sent
    exact ⟨new' ++ new, by rw [trace', trace, List.append_assoc], upTo.append upTo'⟩
  open_ := h'.open_ ∘ h.open_
  follows := by
    intro met agrees
    obtain ⟨agrees, first⟩ := h.follows met agrees
    obtain ⟨agrees, second⟩ := h'.follows met agrees
    exact ⟨agrees, first.trans second⟩

theorem Turn.bind {o : LeaderOutcome} {f : LeaderState → LeaderOutcome}
    (first : Turn cfg clear n s o.state) (second : ∀ t, Turn cfg clear n t (f t).state) :
    Turn cfg clear n s (o.bind f).state :=
  Outcome.bind_state (R := Turn cfg clear n) (fun _ _ _ => Turn.trans) first second

theorem Turn.of_running {o : LeaderOutcome} (h : Turn cfg clear n s o.state)
    (done : o = .running t) : Turn cfg clear n s t := by
  subst done
  exact h

theorem Turn.fold {ε : Type} {f : LeaderState → ε → LeaderOutcome} (s : LeaderState)
    (es : List ε) (turn : ∀ e ∈ es, ∀ s, Turn cfg clear n s (f s e).state) :
    Turn cfg clear n s (Outcome.fold f s es).state :=
  Outcome.fold_state (R := Turn cfg clear n) .refl (fun _ _ _ => Turn.trans) s es turn

theorem readyAgrees_setSlot {slot : ℕ} {ii : PInstInfo} (h : ReadyAgrees s)
    (slots : t.proposerState = setSlot s.proposerState slot ii)
    (ready : ii.status = .p1Ready → ∀ v w, ii.p1Value = some v → ii.p2Value = some w → v = w) :
    ReadyAgrees t := by
  intro k v w
  rw [slots, setSlot_apply]
  split_ifs
  · exact fun status => ready status v w
  · exact h k v w

theorem Turn.rewrite {slot : ℕ} {ii : PInstInfo} (new : List LeaderEvent)
    (slots : t.proposerState = setSlot s.proposerState slot ii)
    (trace : t.trace = new ++ s.trace) (upTo : ProposesUpTo n new)
    (open_ : ii.status ≠ .p2Completed)
    (ready : clear → ii.status = .p1Ready → ∀ v w, ii.p1Value = some v → ii.p2Value = some w → v = w)
    (serves : clear → ReadyAgrees s → ServesInOrder cfg s t) : Turn cfg clear n s t where
  sent := ⟨new, trace, upTo⟩
  open_ := by
    intro all k
    rw [slots, setSlot_apply]
    split_ifs
    · exact open_
    · exact all k
  follows := fun met agrees => ⟨readyAgrees_setSlot agrees slots (ready met), serves met agrees⟩

theorem Turn.slot {slot : ℕ} {ii : PInstInfo} (new : List LeaderEvent)
    (slots : t.proposerState = setSlot s.proposerState slot ii)
    (values : t.valuesHandler = s.valuesHandler) (trace : t.trace = new ++ s.trace)
    (upTo : ProposesUpTo n new) (p2Value : ii.p2Value = (s.proposerState slot).p2Value)
    (open_ : ii.status ≠ .p2Completed)
    (ready : clear → ii.status = .p1Ready → ∀ v w, ii.p1Value = some v → ii.p2Value = some w → v = w) :
    Turn cfg clear n s t :=
  .rewrite new slots trace upTo open_ ready fun _ _ =>
    .still new values (by rw [slots, instanceValues_setSlot p2Value]) trace

theorem proposesUpTo_singleton {e : LeaderEvent}
    (none : ∀ j ballot value, e = .proposed j ballot value → j ≤ n) : ProposesUpTo n [e] :=
  fun j ballot value mem => none j ballot value (List.mem_singleton.mp mem).symm

theorem leaderSendPrepare_turn (s : LeaderState) (slot : ℕ) {ii : PInstInfo}
    (p2Value : ii.p2Value = (s.proposerState slot).p2Value) (pending : ii.status = .p1Pending) :
    Turn cfg clear n s (leaderSendPrepare cfg clock s slot ii) :=
  .slot [_] rfl rfl rfl (proposesUpTo_singleton fun _ _ _ same => nomatch same) p2Value
    (by simp [pending]) fun _ ready => by simp [pending] at ready

theorem leaderCheckP1Pending_turn (s : LeaderState) :
    Turn cfg clear n s (leaderCheckP1Pending cfg clock timeNow s).state := by
  have cleared : Turn cfg clear n s (clearPrepareBuf s) := .same rfl rfl rfl
  have flushed (t : LeaderState) : Turn cfg clear n t (flushPrepareBuf t) := .same rfl rfl rfl
  unfold leaderCheckP1Pending
  rw [Outcome.state_map]
  refine (cleared.trans (Turn.fold _ _ ?_)).trans (flushed _)
  intro iid _ s
  unfold leaderCheckP1Instance
  dsimp only
  split_ifs with same expired
  · exact leaderSendPrepare_turn s _ rfl expired.1
  · exact .refl s
  · exact .refl s

theorem leaderOpenInstancesP1_turn (s : LeaderState) :
    Turn cfg clear n s (leaderOpenInstancesP1 cfg clock s).state := by
  have cleared : Turn cfg clear n s (clearPrepareBuf s) := .same rfl rfl rfl
  unfold leaderOpenInstancesP1
  split_ifs
  · exact .refl s
  · exact .refl s
  · dsimp only
    split_ifs
    · exact cleared
    · refine .bind (cleared.trans (Turn.fold _ _ ?_)) fun t => .same rfl rfl rfl
      intro iid _ t
      unfold leaderOpenInstanceP1
      dsimp only
      split_ifs
      · exact leaderSendPrepare_turn t _ rfl rfl
      · exact .refl t

theorem leaderPeriodicP1Check_turn (s : LeaderState) :
    Turn cfg clear n s (leaderPeriodicP1Check cfg clock timeNow s).state :=
  .bind (leaderCheckP1Pending_turn s) leaderOpenInstancesP1_turn

theorem handlePrepareAck_turn (s : LeaderState) (acceptorId : ℕ) (pa : PrepareAck)
    (met : clear → NoClash cfg s acceptorId pa) :
    Turn cfg clear n s (handlePrepareAck cfg acceptorId s pa).1 := by
  have received : ProposesUpTo n [.received acceptorId pa] :=
    proposesUpTo_singleton fun _ _ _ same => nomatch same
  rcases handlePrepareAck_cases cfg acceptorId s pa with
    dropped | ⟨ii, rfl, pending, ballot, ⟨below, counted⟩ | ⟨enough, ready⟩⟩
  · rw [dropped]
    exact .quiet [_] rfl rfl rfl received
  · rw [counted]
    refine .slot [_] rfl rfl rfl received (by simp) (by simp [pending]) ?_
    intro _ status
    simp [pending] at status
  · rw [ready]
    have becameReady (j ballot : ℕ) : ProposesUpTo n [.ready j ballot] :=
      proposesUpTo_singleton fun _ _ _ same => nomatch same
    refine .slot [_, _] rfl rfl rfl (received.append (becameReady _ _)) (by simp)
      (by simp) ?_
    intro clear _ v w p1 p2
    rcases met clear pending ballot enough with none | none | same <;> simp_all

theorem handlePrepareAcks_turn (acceptorId : ℕ) (s : LeaderState) (acks : List PrepareAck)
    (met : clear → AcksMeet cfg (NoClash cfg) acceptorId s acks) :
    Turn cfg clear n s (handlePrepareAcks cfg acceptorId s acks).1 := by
  unfold handlePrepareAcks
  generalize (0 : ℕ) = count
  induction acks generalizing s count with
  | nil => exact .refl s
  | cons pa acks ih =>
    exact (handlePrepareAck_turn s acceptorId pa fun clear => (met clear).1).trans
      (ih _ (fun clear => (met clear).2) _)

end Turns

section OneInstance

/-- Phase 2 was started for no instance above `n`, and for this one only if it is open. -/
structure Paced (n : ℕ) (s : LeaderState) : Prop where
  next : s.p2Info.nextUnusedIid ≤ n + 1
  busy : s.p2Info.nextUnusedIid = n + 1 → s.p2Info.openCount ≠ 0

/-- A leader that works on instance `n`, one at a time. -/
structure Single (cfg : Config) (n : ℕ) (s : LeaderState) : Prop where
  limited : Limited cfg s
  paced : Paced n s
  open_ : NothingClosed s

variable {clear : Prop} {clock : ℕ → Timeval} {timeNow : Timeval}

theorem Paced.same (h : Paced n s) (p2 : t.p2Info = s.p2Info) : Paced n t :=
  ⟨by rw [p2]; exact h.next, by rw [p2]; exact h.busy⟩

theorem Paced.idle (h : Paced n s) (idle : s.p2Info.openCount.toNat = 0) :
    s.p2Info.nextUnusedIid ≤ n := by
  have next := h.next
  have busy := h.busy
  have none : s.p2Info.openCount = 0 := UInt32.toNat_inj.mp idle
  by_contra above
  exact busy (by omega) none

theorem Single.noneHeld (h : Single cfg n s) (small : cfg.proposerArraySize < 2 ^ 32)
    (idle : s.p2Info.openCount.toNat = 0) :
    ∀ k < cfg.proposerArraySize, (s.proposerState k).p2Value = none := by
  intro k lt
  have closed := slotCount_eq_zero.mp ((h.limited.phase2Count small).trans idle) k lt
  rw [← Option.not_isSome_iff_eq_none]
  exact fun held => closed ⟨held, h.open_ k⟩

theorem Single.othersHold (h : Single cfg n s) (small : cfg.proposerArraySize < 2 ^ 32)
    (one : cfg.proposerP2Concurrency = 1) {slot : ℕ} (lt : slot < cfg.proposerArraySize)
    (held : (s.proposerState slot).p2Value.isSome) :
    ∀ k < cfg.proposerArraySize, k ≠ slot → (s.proposerState k).p2Value = none := by
  intro k inside other
  have counted := h.limited.phase2Count small
  have bounded := h.limited.bounded
  rw [← Option.not_isSome_iff_eq_none]
  intro also
  exact other (slotCount_le_one (P := Phase2Open) s.proposerState
    (counted.le.trans (one ▸ bounded)) inside lt ⟨also, h.open_ k⟩ ⟨held, h.open_ slot⟩)

theorem proposed_upTo {iid ballot : ℕ} {value : Value} (le : iid ≤ n) :
    ProposesUpTo n [.proposed iid ballot value] :=
  proposesUpTo_singleton fun _ _ _ same => by
    cases same
    exact le

theorem leaderExecuteP2_new {slot : ℕ} (lt : slot < cfg.proposerArraySize)
    (none : ∀ k < cfg.proposerArraySize, (s.proposerState k).p2Value = none)
    (le : (s.proposerState slot).iid ≤ n)
    (done : leaderExecuteP2 cfg clock s slot = .running t) : Turn cfg clear n s t := by
  have before : waiting cfg s = s.valuesHandler.pendingList := by
    rw [waiting, instanceValues_alone lt fun k inside _ => none k inside, none slot lt]
    rfl
  have after (value : Value) (ii : PInstInfo) (p2 : ii.p2Value = some value) :
      instanceValues cfg (setSlot s.proposerState slot ii) = [value] := by
    rw [instanceValues_alone lt, setSlot_self, p2]
    · rfl
    · intro k inside other
      rw [setSlot_of_ne _ _ _ _ other]
      exact none k inside
  unfold leaderExecuteP2 at done
  dsimp only at done
  rw [none slot lt] at done
  cases p1 : (s.proposerState slot).p1Value with
  | some found =>
    rw [p1] at done
    cases done
    refine .rewrite [_] rfl rfl (proposed_upTo le) (by simp) (by simp)
      fun _ _ => ⟨[], [found], [], rfl, rfl, (List.append_nil _).symm, ?_, ?_, [_], rfl,
        List.nil_sublist _⟩
    · change List.Sublist _ (instanceValues cfg (setSlot s.proposerState slot _) ++
        s.valuesHandler.pendingList)
      rw [before, after found _ rfl, List.append_nil]
      exact List.sublist_cons_self found _
    · change List.Perm (instanceValues cfg (setSlot s.proposerState slot _) ++
        s.valuesHandler.pendingList) _
      rw [before, after found _ rfl, List.append_nil]
      exact List.perm_append_comm
  | none =>
    rw [p1] at done
    cases values : s.valuesHandler.pendingList with
    | nil => simp [vhGetNextPending, values] at done
    | cons value rest =>
      simp only [vhGetNextPending, values] at done
      cases done
      have now (ii : PInstInfo) (p2 : ii.p2Value = some value) :
          instanceValues cfg (setSlot s.proposerState slot ii) ++ rest = waiting cfg s := by
        rw [after value ii p2, before, values]
        rfl
      refine .rewrite [_] rfl rfl (proposed_upTo le) (by simp)
        (by simp) fun _ _ => ⟨[], [], [], rfl, rfl,
          (List.append_nil _).symm, ?_, ?_, [_], rfl, List.nil_sublist _⟩
      · change List.Sublist _ (instanceValues cfg (setSlot s.proposerState slot _) ++ rest)
        rw [now _ rfl, List.append_nil]
      · change List.Perm (instanceValues cfg (setSlot s.proposerState slot _) ++ rest) _
        rw [now _ rfl, List.append_nil, List.append_nil]

theorem leaderExecuteP2_again {slot : ℕ} (ready : (s.proposerState slot).status = .p1Ready)
    (held : (s.proposerState slot).p2Value.isSome) (le : (s.proposerState slot).iid ≤ n) :
    Turn cfg clear n s (leaderExecuteP2 cfg clock s slot).state := by
  obtain ⟨own, p2⟩ := Option.isSome_iff_exists.mp held
  unfold leaderExecuteP2
  dsimp only
  rw [p2]
  cases p1 : (s.proposerState slot).p1Value with
  | none =>
    exact .slot [_] rfl rfl rfl (proposed_upTo le) rfl nofun fun _ status =>
      nomatch status
  | some found =>
    refine .rewrite [_] rfl rfl (proposed_upTo le) nofun (fun _ status => nomatch status)
      fun _ agrees => .still [_] rfl (instanceValues_setSlot ?_) rfl
    exact (congrArg some (agrees slot found own ready p1 p2)).trans p2.symm

theorem leaderOpenExpired_turn (cfg : Config) {iids : List ℕ} (le : ∀ iid ∈ iids, iid ≤ n)
    (count : UInt32) (s : LeaderState) :
    Turn cfg clear n s (leaderOpenExpired cfg clock iids count s).state.1 := by
  induction iids generalizing count s with
  | nil => exact .refl s
  | cons iid rest ih =>
    obtain ⟨first, rest⟩ := List.forall_mem_cons.mp le
    unfold leaderOpenExpired
    dsimp only
    split_ifs with same ready value
    · have executed : Turn cfg clear n s (leaderExecuteP2 cfg clock s (cfg.proIndex iid)).state :=
        leaderExecuteP2_again ready value (same.trans_le first)
      cases done : leaderExecuteP2 cfg clock s (cfg.proIndex iid) with
      | running t =>
        rw [done] at executed
        exact executed.trans (ih rest (count + 1) t)
      | aborted fault t =>
        rw [done] at executed
        exact executed
    · exact .refl s
    · exact ih rest count s
    · exact .refl s

theorem leaderOpenInstancesP2Expired_turn (next : s.p2Info.nextUnusedIid ≤ n + 1)
    (done : leaderOpenInstancesP2Expired cfg clock s = .running t) : Turn cfg clear n s t := by
  obtain ⟨⟨u, count⟩, loop, last⟩ := Outcome.andThen_eq_running.mp done
  cases last
  have started : Turn cfg clear n s (clearAcceptBuf s) := .same rfl rfl rfl
  have le : ∀ iid ∈ List.range' s.currentIid (s.p2Info.nextUnusedIid - s.currentIid), iid ≤ n := by
    intro iid mem
    have range := List.mem_range'_1.mp mem
    omega
  have opened : Turn cfg clear n (clearAcceptBuf s) (leaderOpenExpired cfg clock
      (List.range' s.currentIid (s.p2Info.nextUnusedIid - s.currentIid)) 0
      (clearAcceptBuf s)).state.1 := leaderOpenExpired_turn cfg le 0 (clearAcceptBuf s)
  rw [show leaderOpenExpired cfg clock _ 0 (clearAcceptBuf s) = _ from loop] at opened
  exact (started.trans opened).trans (.same rfl rfl rfl)

/-- Two turns of the loop of which not both are used. -/
theorem leaderOpenNew_once {count : UInt32}
    (done : leaderOpenNew cfg clock 2 0 s = .running (t, count))
    (few : t.p2Info.nextUnusedIid ≠ s.p2Info.nextUnusedIid + 2) :
    (t = s ∧ count = 0) ∨
      ∃ u, (s.proposerState (cfg.proIndex s.p2Info.nextUnusedIid)).iid = s.p2Info.nextUnusedIid ∧
        leaderExecuteP2 cfg clock s (cfg.proIndex s.p2Info.nextUnusedIid) = .running u ∧
        t = leaderUseNext u ∧ count = 1 := by
  have advance {u v : LeaderState} {slot : ℕ}
      (first : leaderExecuteP2 cfg clock u slot = .running v) :
      v.p2Info.nextUnusedIid = u.p2Info.nextUnusedIid :=
    congrArg (fun i => i.2.1) (leaderExecuteP2_indices clock first)
  unfold leaderOpenNew at done
  dsimp only at done
  split_ifs at done with assigned idle notReady
  · cases done
    exact .inl ⟨rfl, rfl⟩
  · cases done
    exact .inl ⟨rfl, rfl⟩
  · obtain ⟨u, first, later⟩ := Outcome.andThen_eq_running.mp done
    refine .inr ⟨u, not_not.mp (not_or.mp notReady).2, first, ?_⟩
    unfold leaderOpenNew at later
    dsimp only at later
    split_ifs at later
    · cases later
      exact ⟨rfl, rfl⟩
    · cases later
      exact ⟨rfl, rfl⟩
    · -- a second instance would be two further
      obtain ⟨v, second, last⟩ := Outcome.andThen_eq_running.mp later
      cases last
      refine absurd ?_ few
      change v.p2Info.nextUnusedIid + 1 = s.p2Info.nextUnusedIid + 2
      rw [advance second]
      change u.p2Info.nextUnusedIid + 1 + 1 = s.p2Info.nextUnusedIid + 2
      rw [advance first]

theorem leaderOpenInstancesP2New_turn (h : Single cfg n s) (small : cfg.proposerArraySize < 2 ^ 32)
    (one : cfg.proposerP2Concurrency = 1) (within : OpensWithin cfg s)
    (done : leaderOpenInstancesP2New cfg clock s = .running t) :
    Single cfg n t ∧ Turn cfg clear n s t := by
  have limited := h.limited.openInstancesP2New within done
  suffices Paced n t ∧ Turn cfg clear n s t from
    ⟨⟨limited, this.1, this.2.open_ h.open_⟩, this.2⟩
  unfold leaderOpenInstancesP2New at done
  dsimp only at done
  split_ifs at done with many
  · cases done
    exact ⟨h.paced, .refl s⟩
  · have idle : s.p2Info.openCount.toNat = 0 := by
      rw [one] at many
      omega
    have le := h.paced.idle idle
    have none := h.noneHeld small idle
    obtain ⟨⟨u, count⟩, loop, last⟩ := Outcome.andThen_eq_running.mp done
    cases last
    have turns : cfg.proposerP2Concurrency + 1 - s.p2Info.openCount.toNat = 2 := by omega
    have few := leaderOpenNew_stops_short within (Nat.not_lt.mp many) loop
    rw [turns] at few loop
    rcases leaderOpenNew_once loop few with ⟨rfl, rfl⟩ | ⟨v, here, executed, rfl, rfl⟩
    · have unread : s.p2Info.openCount + 0 = s.p2Info.openCount := UInt32.add_zero _
      refine ⟨⟨h.paced.next, fun next => ?_⟩, .same rfl rfl rfl⟩
      change s.p2Info.openCount + 0 ≠ 0
      rw [unread]
      exact h.paced.busy next
    · obtain ⟨-, p2, -⟩ := leaderExecuteP2_takes (s := clearAcceptBuf s)
        (none _ (cfg.proIndex_lt _)) executed
      have p2 : v.p2Info = s.p2Info := p2
      have opened : Turn cfg clear n (clearAcceptBuf s) v :=
        leaderExecuteP2_new (cfg.proIndex_lt _) none (here.trans_le le) executed
      have started : Turn cfg clear n s (clearAcceptBuf s) := .same rfl rfl rfl
      refine ⟨⟨?_, fun _ => ?_⟩, (started.trans opened).trans (.same rfl rfl rfl)⟩
      · change v.p2Info.nextUnusedIid + 1 ≤ n + 1
        rw [p2]
        exact Nat.succ_le_succ le
      · change v.p2Info.openCount + 1 ≠ 0
        have zero : s.p2Info.openCount = 0 := UInt32.toNat_inj.mp idle
        rw [p2, zero]
        decide

theorem Single.same (h : Single cfg n s) (slots : t.proposerState = s.proposerState)
    (p1 : t.p1Info = s.p1Info) (p2 : t.p2Info = s.p2Info) : Single cfg n t where
  limited := h.limited.same slots p1 (by rw [p2])
  paced := h.paced.same p2
  open_ := by
    unfold NothingClosed
    rw [slots]
    exact h.open_

theorem leaderPeriodicP1Check_single (h : Single cfg n s)
    (done : leaderPeriodicP1Check cfg clock timeNow s = .running t) :
    Single cfg n t ∧ Turn cfg clear n s t := by
  have checked : Turn cfg clear n s t := (leaderPeriodicP1Check_turn s).of_running done
  exact ⟨⟨h.limited.periodicP1Check done, h.paced.same (leaderPeriodicP1Check_p2Info done),
    checked.open_ h.open_⟩, checked⟩

theorem handlePrepareAcks_p2Info (a : ℕ) (s : LeaderState) (acks : List PrepareAck) :
    (handlePrepareAcks cfg a s acks).1.p2Info = s.p2Info :=
  run_invariant (fun r : LeaderState × ℕ => r.1.p2Info = s.p2Info) rfl
    fun r pa same => (handlePrepareAck_p2Info a r.1 pa).trans same

theorem handlePrepareAcks_single (h : Single cfg n s) (acceptorId : ℕ) (acks : List PrepareAck)
    (met : clear → AcksMeet cfg (NoClash cfg) acceptorId s acks) :
    Single cfg n (handlePrepareAcks cfg acceptorId s acks).1 ∧
      Turn cfg clear n s (handlePrepareAcks cfg acceptorId s acks).1 := by
  have saved := handlePrepareAcks_turn (n := n) acceptorId s acks met
  exact ⟨⟨h.limited.prepareAcks acceptorId acks,
    h.paced.same (handlePrepareAcks_p2Info acceptorId s acks), saved.open_ h.open_⟩, saved⟩

theorem leaderOpenInstancesP2Expired_single (h : Single cfg n s)
    (done : leaderOpenInstancesP2Expired cfg clock s = .running t) :
    Single cfg n t ∧ Turn cfg clear n s t := by
  have expired : Turn cfg clear n s t := leaderOpenInstancesP2Expired_turn h.paced.next done
  have next : t.p2Info.nextUnusedIid = s.p2Info.nextUnusedIid :=
    congrArg (fun i => i.2.1) (leaderOpenInstancesP2Expired_indices clock done)
  have count : t.p2Info.openCount = s.p2Info.openCount := by
    obtain ⟨⟨e, -, off⟩, -⟩ := h.limited
    obtain ⟨⟨u, count⟩, loop, last⟩ := Outcome.andThen_eq_running.mp done
    cases last
    obtain ⟨n, -, executed, -⟩ := (off.same (t := clearAcceptBuf s) rfl rfl rfl).openExpired loop
    exact executed.openCount
  refine ⟨⟨h.limited.openInstancesP2Expired done, ⟨?_, ?_⟩, expired.open_ h.open_⟩, expired⟩
  · rw [next]
    exact h.paced.next
  · rw [next, count]
    exact h.paced.busy

/-- The check finds no instance closed: the one it works on is the next to be delivered. -/
theorem leaderCheckP2Instance_single (h : Single cfg n s) (small : cfg.proposerArraySize < 2 ^ 32)
    {isClosed : ℕ → Bool} {iid : ℕ} (waits : isClosed iid = false) :
    Single cfg n (leaderCheckP2Instance cfg clock isClosed timeNow s iid) ∧
      Turn cfg clear n s (leaderCheckP2Instance cfg clock isClosed timeNow s iid) := by
  have limited : Limited cfg (leaderCheckP2Instance cfg clock isClosed timeNow s iid) :=
    h.limited.checkP2Instance small isClosed timeNow iid
  suffices (leaderCheckP2Instance cfg clock isClosed timeNow s iid).p2Info = s.p2Info ∧
      Turn cfg clear n s (leaderCheckP2Instance cfg clock isClosed timeNow s iid) from
    ⟨⟨limited, h.paced.same this.1, this.2.open_ h.open_⟩, this.2⟩
  unfold leaderCheckP2Instance
  dsimp only
  split_ifs with other closed expired
  · exact ⟨rfl, .refl s⟩
  · rw [waits] at closed
    cases closed
  · have restarted : Turn cfg clear n s (leaderSendPrepare cfg clock s (cfg.proIndex iid)
        (restartPhase1 cfg (s.proposerState (cfg.proIndex iid)))) :=
      leaderSendPrepare_turn s _ rfl rfl
    exact ⟨rfl, restarted.trans (.same rfl rfl rfl)⟩
  · exact ⟨rfl, .refl s⟩

theorem leaderCheckedP2_single (h : Single cfg n s) (small : cfg.proposerArraySize < 2 ^ 32)
    (current : s.currentIid = n) (isClosed : ℕ → Bool) (waits : isClosed n = false) :
    Single cfg n (leaderCheckedP2 cfg clock isClosed timeNow s) ∧
      Turn cfg clear n s (leaderCheckedP2 cfg clock isClosed timeNow s) := by
  have next := h.paced.next
  have alone : Along (leaderCheckP2Instance cfg clock isClosed timeNow) (fun _ iid => iid = n)
      (clearPrepareBuf s) (List.range' s.currentIid (s.p2Info.nextUnusedIid - s.currentIid)) := by
    refine along_of_mem fun iid mem _ => ?_
    have range := List.mem_range'_1.mp mem
    omega
  have start : Single cfg n (clearPrepareBuf s) ∧ Turn cfg clear n s (clearPrepareBuf s) :=
    ⟨h.same rfl rfl rfl, .same rfl rfl rfl⟩
  obtain ⟨checked, turn⟩ := alone.invariant
    (fun t => Single cfg n t ∧ Turn cfg clear n s t) start fun t iid kept here => by
      subst here
      exact (leaderCheckP2Instance_single kept.1 small waits).imp_right kept.2.trans
  exact ⟨checked.same rfl rfl rfl, turn.trans (.same rfl rfl rfl)⟩

end OneInstance

section Deliveries

variable {clear : Prop} {clock : ℕ → Timeval} {value : Value}

theorem leaderForget_turn (h : Single cfg n s) (small : cfg.proposerArraySize < 2 ^ 32)
    (one : cfg.proposerP2Concurrency = 1) (iid : ℕ) :
    Turn cfg clear n s (leaderForget cfg (s.log (.delivered iid value)) value iid) := by
  have delivered : ProposesUpTo n [.delivered iid value] :=
    proposesUpTo_singleton fun _ _ _ same => nomatch same
  refine .rewrite [_] rfl rfl delivered nofun (fun _ status => nomatch status) fun _ _ => ?_
  have lt := cfg.proIndex_lt iid
  cases held : (s.proposerState (cfg.proIndex iid)).p2Value with
  | none =>
    refine .still [_] ?_ (instanceValues_setSlot held.symm) rfl
    change leaderSettleValue s.valuesHandler (s.proposerState (cfg.proIndex iid)).p2Value value = _
    rw [held]
    rfl
  | some own =>
    have others := h.othersHold small one lt (by rw [held]; rfl)
    have before : waiting cfg s = own :: s.valuesHandler.pendingList := by
      rw [waiting, instanceValues_alone lt others, held]
      rfl
    have emptied : instanceValues cfg (setSlot s.proposerState (cfg.proIndex iid)
        (proClearInstanceInfo (s.proposerState (cfg.proIndex iid)))) = [] := by
      rw [instanceValues_alone lt, setSlot_self]
      · rfl
      · intro k inside other
        rw [setSlot_of_ne _ _ _ _ other]
        exact others k inside other
    have settled : (leaderForget cfg (s.log (.delivered iid value)) value iid).valuesHandler =
        leaderSettleValue s.valuesHandler (some own) value := by
      rw [← held]
      rfl
    have after : waiting cfg (leaderForget cfg (s.log (.delivered iid value)) value iid) =
        (leaderSettleValue s.valuesHandler (some own) value).pendingList := by
      rw [← settled]
      exact congrArg (· ++ _) emptied
    unfold leaderSettleValue at settled after
    dsimp only at settled after
    by_cases mine : own = value
    · rw [if_pos mine] at settled after
      refine ⟨[], [], [own], by rw [settled]; rfl, by rw [settled]; rfl, by rw [settled]; rfl,
        ?_, ?_, [_], rfl, ?_⟩
      · rw [before, after, List.append_nil]
        exact .refl _
      · rw [before, after, List.append_nil, List.append_nil]
        exact .refl _
      · rw [mine]
        exact .refl _
    · rw [if_neg mine] at settled after
      refine ⟨[], [], [], by rw [settled]; rfl, by rw [settled]; rfl, ?_, ?_, ?_, [_], rfl,
        List.nil_sublist _⟩
      · rw [settled]
        exact (List.append_nil _).symm
      · rw [before, after, List.append_nil]
        exact .refl _
      · rw [before, after, List.append_nil, List.append_nil]
        exact .refl _

theorem leaderForget_single (h : Single cfg n s) (small : cfg.proposerArraySize < 2 ^ 32)
    (one : cfg.proposerP2Concurrency = 1) :
    Single cfg (n + 1) (leaderForget cfg (s.log (.delivered n value)) value n) := by
  have logged : Limited cfg (s.log (.delivered n value)) := h.limited.same rfl rfl rfl
  have next := h.paced.next
  have forgotten : Turn cfg False n s (leaderForget cfg (s.log (.delivered n value)) value n) :=
    leaderForget_turn h small one n
  refine ⟨logged.forget small value n, ⟨?_, ?_⟩, forgotten.open_ h.open_⟩
  · change (if s.p2Info.nextUnusedIid = n then n + 1 else s.p2Info.nextUnusedIid) ≤ n + 1 + 1
    split_ifs <;> omega
  · change (if s.p2Info.nextUnusedIid = n then n + 1 else s.p2Info.nextUnusedIid) = n + 1 + 1 → _
    split_ifs <;> omega

theorem leaderDeliver_turns (h : Single cfg n s) (small : cfg.proposerArraySize < 2 ^ 32)
    (one : cfg.proposerP2Concurrency = 1)
    (within : (s.proposerState (cfg.proIndex n)).iid = n →
      OpensWithin cfg (leaderForget cfg (s.log (.delivered n value)) value n))
    (done : leaderDeliver cfg clock (s.log (.delivered n value)) value n = .running t) :
    Single cfg (n + 1) t ∧ ∃ u, u.trace = .delivered n value :: s.trace ∧
      Turn cfg clear n s u ∧ Turn cfg clear (n + 1) u t := by
  rw [leaderDeliver_eq] at done
  split_ifs at done with other
  · cases done
    have next := h.paced.next
    refine ⟨⟨h.limited.same rfl rfl rfl, ⟨Nat.le_succ_of_le next, fun above => ?_⟩, h.open_⟩,
      s.log (.delivered n value), rfl, ?_, .refl _⟩
    · change s.p2Info.nextUnusedIid = n + 1 + 1 at above
      omega
    · exact .quiet [_] rfl rfl rfl (proposesUpTo_singleton fun _ _ _ same => nomatch same)
  · have opened : Single cfg (n + 1) t ∧ Turn cfg clear (n + 1) _ t :=
      leaderOpenInstancesP2New_turn (leaderForget_single h small one) small one
        (within (not_not.mp other)) done
    exact ⟨opened.1, _, rfl, leaderForget_turn h small one n, opened.2⟩

end Deliveries

section Events

/-- Accept requests were sent in turn, and all instances below `n` were delivered. -/
structure Tracks (n : ℕ) (s : LeaderState) : Prop where
  inTurn : InTurn s.trace
  heard : Heard n s.trace

variable {clear : Prop} {clock : ℕ → Timeval} {timeNow : Timeval} {p : ProposerState}
  {X : LeaderState → Prop}

theorem Tracks.turn (h : Tracks n s) (turn : Turn cfg clear n s t) : Tracks n t := by
  obtain ⟨new, trace, upTo⟩ := turn.sent
  constructor
  · rw [trace]
    exact h.inTurn.grows h.heard upTo
  · rw [trace]
    exact h.heard.grows

theorem Tracks.delivered (h : Tracks n s) {value : Value}
    (trace : t.trace = .delivered n value :: s.trace) : Tracks (n + 1) t := by
  have noProposal : ProposesUpTo n [.delivered n value] :=
    proposesUpTo_singleton fun _ _ _ same => nomatch same
  constructor
  · rw [trace]
    exact (h.inTurn.grows h.heard noProposal : InTurn ([_] ++ s.trace))
  · rw [trace]
    exact h.heard.delivered value

structure Rested (s : LeaderState) : Prop where
  clean : SlotsClean s
  open_ : NothingClosed s
  tracks : Tracks s.currentIid s

/-- A leader with one instance at a time, of which `X` is known. -/
structure Leading (cfg : Config) (X : LeaderState → Prop) (s : LeaderState) : Prop where
  single : Single cfg s.currentIid s
  tracks : Tracks s.currentIid s
  known : X s

def orderly (cfg : Config) (X : LeaderState → Prop) : LeaderInvariant where
  leads := Leading cfg X
  rests := Rested

theorem Leading.turn (h : Leading cfg X s) (carried : ∀ n s t, Turn cfg clear n s t → X s → X t)
    (current : t.currentIid = s.currentIid)
    (kept : Single cfg s.currentIid t ∧ Turn cfg clear s.currentIid s t) : Leading cfg X t := by
  obtain ⟨single, turn⟩ := kept
  refine ⟨?_, ?_, carried _ s t turn h.known⟩
  · rw [current]
    exact single
  · rw [current]
    exact h.tracks.turn turn

theorem orderly_delivery (small : cfg.proposerArraySize < 2 ^ 32)
    (one : cfg.proposerP2Concurrency = 1)
    (carried : ∀ n s t, Turn cfg clear n s t → X s → X t) {d : Delivery}
    (limits : DeliveryOpens cfg (OpensWithin cfg) p d) (inOrder : d.iid = p.leader.currentIid) :
    (orderly cfg X).DeliveryKeeps cfg clock p d where
  leads := by
    intro leads h
    obtain ⟨single, tracks, known⟩ := h
    have limits := limits leads
    rw [inOrder] at limits ⊢
    apply Outcome.ensures_of_running
    intro l done
    obtain ⟨single, u, trace, forgotten, opened⟩ :
        Single cfg _ l ∧ ∃ u, _ ∧ Turn cfg clear _ _ u ∧ Turn cfg clear _ u l :=
      leaderDeliver_turns single small one limits done
    have tracked := (tracks.delivered trace).turn opened
    have known := carried _ u l opened (carried _ _ u forgotten known)
    exact ⟨single.same rfl rfl rfl, ⟨tracked.inTurn, tracked.heard⟩,
      carried (p.leader.currentIid + 1) l _ (.same rfl rfl rfl) known⟩
  rests := by
    intro h
    rw [inOrder]
    exact ⟨h.clean, h.open_, h.tracks.delivered rfl⟩

theorem submit_turn (s : LeaderState) (value : Value) :
    Turn cfg clear n s (s.withValues (vhEnqueueValue cfg s.valuesHandler value)) where
  sent := ⟨[], rfl, proposesUpTo_nil⟩
  open_ := id
  follows := by
    intro _ agrees
    refine ⟨agrees, ?_⟩
    unfold vhEnqueueValue
    split_ifs
    · exact ⟨[], [], [], rfl, rfl, (List.append_nil _).symm, by simp [waiting, LeaderState.withValues],
        by simp [waiting, LeaderState.withValues], [], rfl, .refl _⟩
    · exact ⟨[value], [], [], rfl, rfl, (List.append_nil _).symm,
        by simp [waiting, LeaderState.withValues], by simp [waiting, LeaderState.withValues], [], rfl,
        .refl _⟩

theorem Rested.shutdown (h : Leading cfg X s) : Rested (leaderShutdown cfg s) := by
  have kept (iids : List ℕ) : NothingClosed (run (leaderDropInstance cfg) s iids) ∧
      (run (leaderDropInstance cfg) s iids).trace = s.trace := by
    refine run_invariant (fun t : LeaderState => NothingClosed t ∧ t.trace = s.trace)
      ⟨h.single.open_, rfl⟩ ?_
    rintro t iid ⟨open_, same⟩
    refine ⟨fun k => ?_, same⟩
    change (setSlot t.proposerState _ _ k).status ≠ _
    rw [setSlot_apply]
    split_ifs
    · exact nofun
    · exact open_ k
  obtain ⟨open_, trace⟩ := kept (window s)
  have trace : (leaderShutdown cfg s).trace = s.trace := trace
  refine ⟨slotsClean_shutdown h.single.limited.clean, open_, ?_, ?_⟩
  · rw [trace]
    exact h.tracks.inTurn
  · rw [trace, leaderShutdown_currentIid]
    exact h.tracks.heard

theorem Rested.init (h : Rested s) (left : phase2Count cfg s = 0)
    (fresh : ∀ l, X l) (done : leaderInit cfg clock timeNow s = .running t) : Leading cfg X t := by
  have current := leaderInit_currentIid done
  have limited := limited_init h.clean left done
  obtain ⟨u, checked, last⟩ := Outcome.bind_eq_running.mp done
  cases last
  have turn : Turn cfg False s.currentIid (leaderResetP1 s) u :=
    (leaderPeriodicP1Check_turn (leaderResetP1 s)).of_running checked
  have tracks : Tracks s.currentIid (leaderResetP1 s) := ⟨h.tracks.inTurn, h.tracks.heard⟩
  have started := tracks.turn turn
  refine ⟨⟨limited, ⟨?_, ?_⟩, turn.open_ h.open_⟩, ?_, fresh _⟩
  · exact Nat.le_succ _
  · intro next
    exact absurd next (Nat.ne_of_lt (Nat.lt_succ_self _))
  · rw [current]
    exact ⟨started.inTurn, started.heard⟩

/-- What is asked of an event: a proposer that becomes leader knows `X`, and where values are
followed no promise clashes with one. -/
structure EventPaced (cfg : Config) (clear : Prop) (X : LeaderState → Prop) (p : ProposerState)
    (e : ProposerEvent) : Prop where
  limits : EventLimits cfg p e
  synced : Synced cfg p
  fresh : WhenPromoted (fun _ => ∀ l, X l) p e
  met : clear → EventMeets cfg (NoClash cfg) p e

theorem waits_of_synced (h : Synced cfg p) :
    decide (learnerIsClosed cfg p.learner p.leader.currentIid) = false := by
  apply decide_eq_false
  rintro ⟨-, closed⟩
  have opened := h.opened
  unfold CurrentOpen at opened
  rw [h.current] at closed
  unfold LInstInfo.IsClosed at closed
  rw [opened] at closed
  cases closed

theorem orderly_event (small : cfg.proposerArraySize < 2 ^ 32)
    (one : cfg.proposerP2Concurrency = 1)
    (carried : ∀ n s t, Turn cfg clear n s t → X s → X t) (e : ProposerEvent)
    (paced : EventPaced cfg clear X p e) : (orderly cfg X).EventKeeps cfg p e := by
  obtain ⟨⟨promotion, deliveries, calls⟩, synced, fresh, met⟩ := paced
  have inOrder := synced.inOrder e
  cases e with
  | submit value =>
    refine ⟨fun h => ?_, fun h => ⟨h.clean, h.open_, ⟨h.tracks.inTurn, h.tracks.heard⟩⟩⟩
    exact Leading.turn h carried rfl ⟨Single.same h.single rfl rfl rfl, submit_turn p.leader value⟩
  | leaderAnnounce currentLeader clock timeNow =>
    refine ⟨Rested.shutdown, fun promoted h => Outcome.ensures_of_running fun l done => ?_⟩
    exact Rested.init h (promotion promoted) (fresh promoted) done
  | p1Check clock timeNow =>
    intro leads h
    apply Outcome.ensures_of_running
    intro l done
    exact Leading.turn h carried (leaderPeriodicP1Check_currentIid done)
      (leaderPeriodicP1Check_single h.single done)
  | p2Check clock timeNow =>
    intro leads h
    have waits := waits_of_synced synced
    let isClosed := fun iid => decide (learnerIsClosed cfg p.learner iid)
    have checked : Leading cfg X (leaderCheckedP2 cfg clock isClosed timeNow p.leader) :=
      Leading.turn h carried (leaderCheckedP2_currentIid isClosed)
        (leaderCheckedP2_single h.single small rfl isClosed waits)
    apply Outcome.ensures_of_running
    intro l done
    rw [leaderPeriodicP2Check_eq] at done
    exact checked.turn carried (leaderOpenInstancesP2New_currentIid done)
      (leaderOpenInstancesP2New_turn checked.single small one (calls leads) done)
  | prepareAcks acceptorId acks clock =>
    intro leads h
    have saved := Leading.turn h carried (handlePrepareAcks_currentIid cfg acceptorId acks)
      (handlePrepareAcks_single h.single acceptorId acks fun clear => met clear leads)
    refine ⟨saved, fun ready => Outcome.ensures_of_running fun l done => ?_⟩
    obtain ⟨u, expired, new⟩ := Outcome.bind_eq_running.mp done
    have within := (calls leads ready).of_running expired
    have again := saved.turn carried (leaderOpenInstancesP2Expired_currentIid expired)
      (leaderOpenInstancesP2Expired_single saved.single expired)
    exact again.turn carried (leaderOpenInstancesP2New_currentIid new)
      (leaderOpenInstancesP2New_turn again.single small one within new)
  | acceptAcks acceptorId acks clock =>
    exact (deliveries.and inOrder).imp fun _ _ _ ⟨limits, here⟩ =>
      orderly_delivery small one carried limits here
  | holeCheck => trivial

end Events

section Runs

variable {p : ProposerState} {o : ProposerOutcome} {events : List ProposerEvent}
  {clock : ℕ → Timeval} {timeNow : Timeval} {proposerId : ℕ}

theorem readyAgrees_move (h : ReadyAgrees s) (move : Move cfg (NoClash cfg : AckCondition).only s t) :
    ReadyAgrees t := by
  cases move with
  | quiet quiet =>
    unfold ReadyAgrees
    rw [quiet.slots]
    exact h
  | openP1 clock iid allowed free => exact readyAgrees_setSlot h rfl (by simp)
  | retryP1 clock slot pending =>
    refine readyAgrees_setSlot h rfl fun ready => ?_
    simp [retryPhase1, pending] at ready
  | restartP1 clock slot pending => exact readyAgrees_setSlot h rfl (by simp [restartPhase1])
  | complete slot pending => exact readyAgrees_setSlot h rfl (by simp)
  | executeP2 clock slot value ready chosen => exact readyAgrees_setSlot h rfl (by simp)
  | ack a pa met =>
    have turn : Turn cfg True 0 s (handlePrepareAck cfg a s pa).1 :=
      handlePrepareAck_turn s a pa fun _ => met
    exact (turn.follows trivial h).1
  | clear slot allowed => exact readyAgrees_setSlot h rfl (by simp [proClearInstanceInfo])
  | delivered iid value allowed => exact h

theorem readyAgrees_run
    (met : Along (proposerStep cfg) (StepMeets cfg (NoClash cfg))
      (proposerInit cfg clock timeNow proposerId) events) :
    ReadyAgrees (run (proposerStep cfg) (proposerInit cfg clock timeNow proposerId)
      events).state.leader :=
  proposer_run_invariant clock ReadyAgrees timeNow proposerId (fun _ _ _ status => nomatch status)
    (fun _ _ => readyAgrees_move) events met

theorem tracks_start : Tracks 1 (initProStructs proposerId) where
  inTurn := by
    intro later earlier j ballot value split
    simp [initProStructs] at split
  heard := fun i pos lt => by omega

theorem orderly_start (done : proposerInit cfg clock timeNow proposerId = .running p) :
    (orderly cfg fun _ => True).Holds p := by
  have rested : Rested (initProStructs proposerId) :=
    ⟨slotsClean_start, fun _ => nofun, tracks_start⟩
  refine LeaderInvariant.Holds.init rested ?_ done
  exact Outcome.ensures_of_running fun l started =>
    rested.init (nothingLeft_start cfg proposerId).2.2 (fun _ => trivial) started

def Leads (p : ProposerState) (_ : ProposerEvent) : Prop :=
  p.LeaderIsMe

instance (p : ProposerState) (e : ProposerEvent) : Decidable (Leads p e) :=
  inferInstanceAs (Decidable p.LeaderIsMe)

/-- While the proposer leads without a break, clients are served in order. -/
def ReignsServe (cfg : Config) (start : ProposerOutcome) (events : List ProposerEvent) : Prop :=
  ∀ before reign p₀ p, events = before ++ reign → run (proposerStep cfg) start before = .running p₀ →
    Along (proposerStep cfg) (WhenRunning Leads) (.running p₀) reign →
    run (proposerStep cfg) (.running p₀) reign = .running p → p.LeaderIsMe →
    ServesInOrder cfg p₀.leader p.leader

theorem whenPromoted_of_all {P : LeaderState → Prop} (all : ∀ s, P s) (e : ProposerEvent) :
    WhenPromoted P p e := by
  cases e with
  | leaderAnnounce currentLeader clock timeNow => exact fun _ => all p.leader
  | _ => trivial

theorem whenPromoted_of_leads {P : LeaderState → Prop} (leads : p.LeaderIsMe) (e : ProposerEvent) :
    WhenPromoted P p e := by
  cases e with
  | leaderAnnounce currentLeader clock timeNow => exact fun promoted => absurd leads promoted.1
  | _ => trivial

theorem orderly_run (small : cfg.proposerArraySize < 2 ^ 32) (one : cfg.proposerP2Concurrency = 1)
    (along : Along (proposerStep cfg) (WhenRunning fun p e => EventLimits cfg p e ∧ Synced cfg p)
      (proposerInit cfg clock timeNow proposerId) events)
    (done : run (proposerStep cfg) (proposerInit cfg clock timeNow proposerId) events =
      .running p) : (orderly cfg fun _ => True).Holds p := by
  refine LeaderInvariant.run_holds (fun p done => orderly_start done) ?_ along p done
  intro p e met
  have carried (n : ℕ) (s t : LeaderState) (_ : Turn cfg False n s t) : True → True := id
  exact orderly_event small one carried e
    ⟨met.1, met.2, whenPromoted_of_all (fun _ _ => trivial) e, False.elim⟩

/-- A reign that starts in `p₀` serves all who wait there, and all who come, in order. -/
theorem orderly_reign {p₀ : ProposerState} (small : cfg.proposerArraySize < 2 ^ 32)
    (one : cfg.proposerP2Concurrency = 1) (start : (orderly cfg fun _ => True).Holds p₀)
    (agrees : ReadyAgrees p₀.leader)
    (along : Along (proposerStep cfg) (WhenRunning fun p e => (EventLimits cfg p e ∧ Synced cfg p) ∧
      Leads p e ∧ EventMeets cfg (NoClash cfg) p e) (.running p₀) events)
    (done : run (proposerStep cfg) (.running p₀) events = .running p) (leads : p.LeaderIsMe) :
    ServesInOrder cfg p₀.leader p.leader := by
  let served (l : LeaderState) := ReadyAgrees l ∧ ServesInOrder cfg p₀.leader l
  have carried (n : ℕ) (s t : LeaderState) (turn : Turn cfg True n s t) (h : served s) :
      served t :=
    (turn.follows trivial h.1).imp_right h.2.trans
  have began : (orderly cfg served).Holds p₀ :=
    ⟨fun leads => ⟨(start.leads leads).single, (start.leads leads).tracks, agrees, .refl _⟩,
      start.rests⟩
  have held := LeaderInvariant.run_holds (fun _ same => Outcome.running.inj same ▸ began)
    (fun p e met => orderly_event small one carried e
      ⟨met.1.1, met.1.2, whenPromoted_of_leads met.2.1 e, fun _ => met.2.2⟩) along p done
  exact (held.leads leads).known.2

end Runs

/-- In every run in which no call finds as many instances to open as the guard allows,
and a new leader finds none open, phase 2 stays within its concurrency.  If this is one, accept
requests are sent in turn, and the values of clients, if no promise clashes with one, are chosen
in the order of their submission. -/
theorem phase_two_in_order (cfg : Config) (small : cfg.proposerArraySize < 2 ^ 32)
    (clock : ℕ → Timeval) (timeNow : Timeval) (proposerId : ℕ) (events : List ProposerEvent)
    (limits : Along (proposerStep cfg) (WhenRunning (EventLimits cfg))
      (proposerInit cfg clock timeNow proposerId) events) :
    (Along (proposerStep cfg) (WhenRunning (EventWithin cfg))
        (proposerInit cfg clock timeNow proposerId) events ∧
      ∀ p, run (proposerStep cfg) (proposerInit cfg clock timeNow proposerId) events =
          .running p → p.LeaderIsMe → WithinConcurrency cfg p.leader) ∧
    (cfg.proposerP2Concurrency = 1 →
      (∀ p, run (proposerStep cfg) (proposerInit cfg clock timeNow proposerId) events =
          .running p → InTurn p.leader.trace) ∧
      (Along (proposerStep cfg) (StepMeets cfg (NoClash cfg))
          (proposerInit cfg clock timeNow proposerId) events →
        ReignsServe cfg (proposerInit cfg clock timeNow proposerId) events)) := by
  refine ⟨phase_two_bounded cfg small clock timeNow proposerId events limits, fun one => ?_⟩
  have synced := synced_along cfg clock timeNow proposerId events
  have along := (limits.and synced).imp fun _ _ _ met => WhenRunning.and met
  refine ⟨fun p done => ?_, fun met before reign p₀ p split first leads last led => ?_⟩
  · have held := orderly_run small one along done
    by_cases leads : p.LeaderIsMe
    · exact (held.leads leads).tracks.inTurn
    · exact (held.rests leads).tracks.inTurn
  · subst split
    obtain ⟨along₀, along⟩ := (along_append _ _).mp along
    obtain ⟨met₀, met⟩ := (along_append _ _).mp met
    have agrees := readyAgrees_run met₀
    rw [first] at along met agrees
    have meets : Along (proposerStep cfg) (WhenRunning (EventMeets cfg (NoClash cfg)))
        (.running p₀) reign :=
      met.imp fun _ _ o met => by cases o <;> exact met
    have clear := (leads.and meets).imp fun _ _ _ met => WhenRunning.and met
    exact orderly_reign small one (orderly_run small one along₀ first) agrees
      ((along.and clear).imp fun _ _ _ met => WhenRunning.and met) last led

def oneAtATime : Config := { Config.small with proposerP2Concurrency := 1 }

/-- Value `[8]` waits, with instance 2 ready for it, until `[7]` was delivered in instance 1. -/
def sevenThenEight : List ProposerEvent :=
  [.submit [7], .prepareAcks 0 [⟨1, 10, 0, []⟩] stillClock,
    .prepareAcks 1 [⟨1, 10, 0, []⟩] stillClock, .submit [8],
    .prepareAcks 0 [⟨2, 10, 0, []⟩] stillClock, .prepareAcks 1 [⟨2, 10, 0, []⟩] stillClock,
    .acceptAcks 0 [⟨1, 10, 10, false, [7]⟩] stillClock,
    .acceptAcks 1 [⟨1, 10, 10, false, [7]⟩] stillClock,
    .acceptAcks 0 [⟨2, 10, 10, false, [8]⟩] stillClock,
    .acceptAcks 1 [⟨2, 10, 10, false, [8]⟩] stillClock]

theorem seven_before_eight :
    (run (proposerStep oneAtATime) (proposerInit oneAtATime stillClock ⟨0, 0⟩ 0)
        sevenThenEight).state.leader.valuesHandler.notified = [(0, [7]), (0, [8])] ∧
      (∀ p, run (proposerStep oneAtATime) (proposerInit oneAtATime stillClock ⟨0, 0⟩ 0)
          sevenThenEight = .running p → InTurn p.leader.trace) ∧
      ReignsServe oneAtATime (proposerInit oneAtATime stillClock ⟨0, 0⟩ 0) sevenThenEight := by
  obtain ⟨-, single⟩ := phase_two_in_order oneAtATime (by decide) stillClock ⟨0, 0⟩ 0
    sevenThenEight (by decide +kernel)
  obtain ⟨inTurn, serves⟩ := single rfl
  exact ⟨by decide +kernel, inTurn, serves (by decide +kernel)⟩

end FdsPaxos.Paxos2SubmissionOrder
