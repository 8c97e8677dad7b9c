import FdsPaxos.Paxos2LeaderMoves

set_option autoImplicit false

/-!
Where the values of clients are: in the pending list, in an instance, or with a client that
was told about its value.  The places of each value are counted, against the times that it was
enqueued or found in a promise.
-/

namespace FdsPaxos.Paxos2ClientValues
open TransitionRuns CircularWindow Paxos2Config Paxos2Messages Paxos2SendBuffer
open Paxos2ValuesHandler Paxos2Learner Paxos2Leader Paxos2Proposer Paxos2LeaderMoves

theorem countP_setSlot {α : Type*} (p : α → Bool) (slots : ℕ → α) (j : ℕ) (x : α) (l : List ℕ)
    (nodup : l.Nodup) (mem : j ∈ l) :
    l.countP (fun k => p (setSlot slots j x k)) + (if p (slots j) then 1 else 0) =
      l.countP (fun k => p (slots k)) + if p x then 1 else 0 := by
  induction l with
  | nil => cases mem
  | cons k rest ih =>
    obtain ⟨fresh, nodup⟩ := List.nodup_cons.mp nodup
    rw [List.countP_cons, List.countP_cons, setSlot_apply]
    by_cases here : k = j
    · subst here
      have same : rest.countP (fun i => p (setSlot slots k x i)) =
          rest.countP fun i => p (slots i) := by
        refine List.countP_congr fun i hi => ?_
        have other : i ≠ k := fun eq => fresh (eq ▸ hi)
        rw [setSlot_of_ne _ _ _ _ other]
      rw [same, if_pos rfl]
      omega
    · rw [if_neg here]
      have step := ih nodup ((List.mem_cons.mp mem).resolve_left (Ne.symm here))
      omega

variable {cfg : Config} {s t u : LeaderState}

def instanceCount (cfg : Config) (slots : ℕ → PInstInfo) (v : Value) : ℕ :=
  (List.range cfg.proposerArraySize).countP fun slot => (slots slot).p2Value = some v

def places (cfg : Config) (s : LeaderState) (v : Value) : ℕ :=
  s.valuesHandler.pendingList.count v + instanceCount cfg s.proposerState v +
    (s.valuesHandler.notified.map Prod.snd).count v

/-- Each value has as many places as it was enqueued by clients and found in promises. -/
def Kept (cfg : Config) (s : LeaderState) : Prop :=
  ∀ v, places cfg s v = s.valuesHandler.accepted.count v + s.valuesHandler.found.count v

/-- An instance ready for phase 2 that has a value was promised that one or none. -/
def ReadyAgrees (s : LeaderState) : Prop :=
  ∀ slot v w, (s.proposerState slot).status = .p1Ready → (s.proposerState slot).p1Value = some v →
    (s.proposerState slot).p2Value = some w → v = w

structure Good (cfg : Config) (s : LeaderState) : Prop where
  kept : Kept cfg s
  agrees : ReadyAgrees s

/-- What a routine does to the values of clients. -/
structure Carries (cfg : Config) (s t : LeaderState) : Prop where
  good : Good cfg s → Good cfg t
  notified : ∃ new, t.valuesHandler.notified = s.valuesHandler.notified ++ new ∧
    ∀ answer ∈ new, answer.1 = 0 ∧ ∃ iid, .delivered iid answer.2 ∈ t.trace
  trace : ∀ e ∈ s.trace, e ∈ t.trace

theorem Carries.refl (s : LeaderState) : Carries cfg s s :=
  ⟨id, ⟨[], (List.append_nil _).symm, fun _ none => nomatch none⟩, fun _ he => he⟩

theorem Carries.trans (h : Carries cfg s t) (h' : Carries cfg t u) : Carries cfg s u where
  good := h'.good ∘ h.good
  notified := by
    obtain ⟨new, eq, answered⟩ := h.notified
    obtain ⟨new', eq', answered'⟩ := h'.notified
    refine ⟨new ++ new', by rw [eq', eq, List.append_assoc], fun answer now => ?_⟩
    rcases List.mem_append.mp now with first | last
    · obtain ⟨ok, iid, delivered⟩ := answered answer first
      exact ⟨ok, iid, h'.trace _ delivered⟩
    · exact answered' answer last
  trace := fun e he => h'.trace e (h.trace e he)

theorem Carries.bind {o : LeaderOutcome} {f : LeaderState → LeaderOutcome}
    (first : Carries cfg s o.state) (second : ∀ t, Carries cfg t (f t).state) :
    Carries cfg s (o.bind f).state :=
  Outcome.bind_state (R := Carries cfg) (fun _ _ _ => Carries.trans) first second

theorem Carries.fold {ε : Type} {f : LeaderState → ε → LeaderOutcome} (s : LeaderState)
    (es : List ε) (turn : ∀ e ∈ es, ∀ s, Carries cfg s (f s e).state) :
    Carries cfg s (Outcome.fold f s es).state :=
  Outcome.fold_state (R := Carries cfg) .refl (fun _ _ _ => Carries.trans) s es turn

theorem Carries.quiet (values : t.valuesHandler = s.valuesHandler)
    (slots : t.proposerState = s.proposerState) (trace : ∀ e ∈ s.trace, e ∈ t.trace) :
    Carries cfg s t where
  good := by
    intro h
    constructor
    · intro v
      unfold places
      rw [values, slots]
      exact h.kept v
    · unfold ReadyAgrees
      rw [slots]
      exact h.agrees
  notified := ⟨[], by rw [values, List.append_nil], fun _ none => nomatch none⟩
  trace := trace

theorem instanceCount_setSlot (cfg : Config) (slots : ℕ → PInstInfo) (iid : ℕ) (ii : PInstInfo)
    (v : Value) :
    instanceCount cfg (setSlot slots (cfg.proIndex iid) ii) v +
        (slots (cfg.proIndex iid)).p2Value.toList.count v =
      instanceCount cfg slots v + ii.p2Value.toList.count v := by
  have one (o : Option Value) : o.toList.count v = if decide (o = some v) then 1 else 0 := by
    cases o with
    | none => simp
    | some w => simp [List.count_singleton]
  have counted := countP_setSlot (fun ii : PInstInfo => decide (ii.p2Value = some v)) slots
    (cfg.proIndex iid) ii (List.range cfg.proposerArraySize) List.nodup_range
    (List.mem_range.mpr (cfg.proIndex_lt iid))
  rw [one, one]
  exact counted

theorem Good.slot (h : Good cfg s) (iid : ℕ) {ii : PInstInfo}
    (slots : t.proposerState = setSlot s.proposerState (cfg.proIndex iid) ii)
    (ready : ii.status = .p1Ready → ∀ v w, ii.p1Value = some v → ii.p2Value = some w → v = w)
    (values : ∀ v, t.valuesHandler.pendingList.count v + ii.p2Value.toList.count v +
        (t.valuesHandler.notified.map Prod.snd).count v +
          (s.valuesHandler.accepted.count v + s.valuesHandler.found.count v) =
      s.valuesHandler.pendingList.count v +
        (s.proposerState (cfg.proIndex iid)).p2Value.toList.count v +
        (s.valuesHandler.notified.map Prod.snd).count v +
          (t.valuesHandler.accepted.count v + t.valuesHandler.found.count v)) : Good cfg t where
  kept := by
    intro v
    have before := h.kept v
    have change_ := instanceCount_setSlot cfg s.proposerState iid ii v
    have law := values v
    unfold places at before ⊢
    rw [slots]
    omega
  agrees := by
    intro slot v w
    rw [slots, setSlot_apply]
    split_ifs
    · exact fun status => ready status v w
    · exact h.agrees slot v w

theorem Carries.slot (iid : ℕ) {ii : PInstInfo}
    (slots : t.proposerState = setSlot s.proposerState (cfg.proIndex iid) ii)
    (values : t.valuesHandler = s.valuesHandler)
    (p2Value : ii.p2Value = (s.proposerState (cfg.proIndex iid)).p2Value)
    (ready : ii.status = .p1Ready → ∀ v w, ii.p1Value = some v → ii.p2Value = some w → v = w)
    (trace : ∀ e ∈ s.trace, e ∈ t.trace) : Carries cfg s t where
  good := fun h => h.slot iid slots ready fun v => by rw [values, p2Value]
  notified := ⟨[], by rw [values, List.append_nil], fun _ none => nomatch none⟩
  trace := trace

section Routines

variable (clock : ℕ → Timeval)

theorem leaderSendPrepare_carries (s : LeaderState) (iid : ℕ) {ii : PInstInfo}
    (p2Value : ii.p2Value = (s.proposerState (cfg.proIndex iid)).p2Value)
    (pending : ii.status = .p1Pending) :
    Carries cfg s (leaderSendPrepare cfg clock s (cfg.proIndex iid) ii) :=
  .slot iid rfl rfl p2Value (fun ready => by simp [pending] at ready)
    fun _ he => List.mem_cons_of_mem _ he

theorem leaderCheckP1Pending_carries (timeNow : Timeval) (s : LeaderState) :
    Carries cfg s (leaderCheckP1Pending cfg clock timeNow s).state := by
  have cleared : Carries cfg s (clearPrepareBuf s) := .quiet rfl rfl fun _ he => he
  have flushed (t : LeaderState) : Carries cfg t (flushPrepareBuf t) := .quiet rfl rfl fun _ he => he
  unfold leaderCheckP1Pending
  rw [Outcome.state_map]
  refine (cleared.trans (Carries.fold _ _ ?_)).trans (flushed _)
  intro iid _ s
  unfold leaderCheckP1Instance
  dsimp only
  split_ifs with same expired
  · exact leaderSendPrepare_carries clock s iid rfl expired.1
  · exact .refl s
  · exact .refl s

theorem leaderOpenInstancesP1_carries (s : LeaderState) :
    Carries cfg s (leaderOpenInstancesP1 cfg clock s).state := by
  have cleared : Carries cfg s (clearPrepareBuf s) := .quiet rfl rfl fun _ he => he
  unfold leaderOpenInstancesP1
  split_ifs
  · exact .refl s
  · exact .refl s
  · dsimp only
    split_ifs
    · exact cleared
    · refine .bind (cleared.trans (Carries.fold _ _ ?_)) ?_
      · intro iid _ t
        unfold leaderOpenInstanceP1
        dsimp only
        split_ifs
        · exact leaderSendPrepare_carries clock t iid rfl rfl
        · exact .refl t
      · intro t
        exact .quiet rfl rfl fun _ he => he

theorem leaderPeriodicP1Check_carries (timeNow : Timeval) (s : LeaderState) :
    Carries cfg s (leaderPeriodicP1Check cfg clock timeNow s).state :=
  .bind (leaderCheckP1Pending_carries clock timeNow s) (leaderOpenInstancesP1_carries clock)

theorem leaderExecuteP2_carries (s : LeaderState) (iid : ℕ)
    (ready : (s.proposerState (cfg.proIndex iid)).status = .p1Ready) :
    Carries cfg s (leaderExecuteP2 cfg clock s (cfg.proIndex iid)).state := by
  unfold leaderExecuteP2
  dsimp only
  cases p1 : (s.proposerState (cfg.proIndex iid)).p1Value with
  | some found =>
    cases p2 : (s.proposerState (cfg.proIndex iid)).p2Value with
    | none =>
      refine ⟨fun h => h.slot iid rfl (fun status => nomatch status) fun v => ?_,
        ⟨[], (List.append_nil _).symm, fun _ none => nomatch none⟩,
        fun _ he => List.mem_cons_of_mem _ he⟩
      simp only [leaderSendAccept, LeaderState.log, LeaderState.withSlot, LeaderState.withValues,
        vhFound, p2, Outcome.state_running, Option.isSome_none, Bool.false_eq_true, if_false,
        Option.toList_some, Option.toList_none, List.count_cons, List.count_nil]
      omega
    | some own =>
      refine ⟨fun h => h.slot iid rfl (fun status => nomatch status) fun v => ?_,
        ⟨[], (List.append_nil _).symm, fun _ none => nomatch none⟩,
        fun _ he => List.mem_cons_of_mem _ he⟩
      have same : found = own := h.agrees _ found own ready p1 p2
      rw [p2, same]
      rfl
  | none =>
    cases p2 : (s.proposerState (cfg.proIndex iid)).p2Value with
    | none =>
      cases pending : s.valuesHandler.pendingList with
      | nil =>
        simp only [vhGetNextPending, pending]
        exact .refl s
      | cons first rest =>
        simp only [vhGetNextPending, pending]
        refine ⟨fun h => h.slot iid rfl (fun status => nomatch status) fun v => ?_,
          ⟨[], (List.append_nil _).symm, fun _ none => nomatch none⟩,
          fun _ he => List.mem_cons_of_mem _ he⟩
        simp only [leaderSendAccept, LeaderState.log, LeaderState.withSlot, LeaderState.withValues,
          p2, pending, Outcome.state_running, Option.toList_some, Option.toList_none,
          List.count_cons, List.count_nil]
        omega
    | some own =>
      exact .slot iid rfl rfl rfl (fun status => nomatch status)
        fun _ he => List.mem_cons_of_mem _ he

theorem leaderOpenExpired_carries (cfg : Config) (iids : List ℕ) (count : UInt32) (s : LeaderState) :
    Carries cfg s (leaderOpenExpired cfg clock iids count s).state.1 := by
  induction iids generalizing count s with
  | nil => exact .refl s
  | cons iid rest ih =>
    unfold leaderOpenExpired
    dsimp only
    split_ifs with same ready value
    · have first := leaderExecuteP2_carries clock s iid ready
      cases done : leaderExecuteP2 cfg clock s (cfg.proIndex iid) with
      | running t =>
        rw [done] at first
        exact first.trans (ih (count + 1) t)
      | aborted fault t =>
        rw [done] at first
        exact first
    · exact .refl s
    · exact ih count s
    · exact .refl s

theorem leaderOpenInstancesP2Expired_carries (s : LeaderState) :
    Carries cfg s (leaderOpenInstancesP2Expired cfg clock s).state := by
  have cleared : Carries cfg s (clearAcceptBuf s) := .quiet rfl rfl fun _ he => he
  have loop := leaderOpenExpired_carries clock cfg
    (List.range' s.currentIid (s.p2Info.nextUnusedIid - s.currentIid)) 0 (clearAcceptBuf s)
  unfold leaderOpenInstancesP2Expired
  cases done : leaderOpenExpired cfg clock
      (List.range' s.currentIid (s.p2Info.nextUnusedIid - s.currentIid)) 0 (clearAcceptBuf s) with
  | running r =>
    rw [done] at loop
    exact (cleared.trans loop).trans (.quiet rfl rfl fun _ he => he)
  | aborted fault r =>
    rw [done] at loop
    exact cleared.trans loop

theorem leaderOpenNew_carries (cfg : Config) (turns : ℕ) (count : UInt32) (s : LeaderState) :
    Carries cfg s (leaderOpenNew cfg clock turns count s).state.1 := by
  induction turns generalizing count s with
  | zero => exact .refl s
  | succ turns ih =>
    unfold leaderOpenNew
    dsimp only
    split_ifs with value idle notReady
    · exact .refl s
    · exact .refl s
    · exact .refl s
    · have ready := not_not.mp (not_or.mp notReady).1
      have first := leaderExecuteP2_carries clock s s.p2Info.nextUnusedIid ready
      cases done : leaderExecuteP2 cfg clock s (cfg.proIndex s.p2Info.nextUnusedIid) with
      | running t =>
        rw [done] at first
        have next : Carries cfg t (leaderUseNext t) := .quiet rfl rfl fun _ he => he
        exact first.trans (next.trans (ih (count + 1) (leaderUseNext t)))
      | aborted fault t =>
        rw [done] at first
        exact first

theorem leaderOpenInstancesP2New_carries (s : LeaderState) :
    Carries cfg s (leaderOpenInstancesP2New cfg clock s).state := by
  have cleared : Carries cfg s (clearAcceptBuf s) := .quiet rfl rfl fun _ he => he
  have loop := leaderOpenNew_carries clock cfg
    (cfg.proposerP2Concurrency + 1 - s.p2Info.openCount.toNat) 0 (clearAcceptBuf s)
  unfold leaderOpenInstancesP2New
  dsimp only
  split_ifs
  · exact .refl s
  · cases done : leaderOpenNew cfg clock
        (cfg.proposerP2Concurrency + 1 - s.p2Info.openCount.toNat) 0 (clearAcceptBuf s) with
    | running r =>
      rw [done] at loop
      exact (cleared.trans loop).trans (.quiet rfl rfl fun _ he => he)
    | aborted fault r =>
      rw [done] at loop
      exact cleared.trans loop

theorem leaderCheckP2Instance_carries (isClosed : ℕ → Bool) (timeNow : Timeval) (s : LeaderState)
    (iid : ℕ) : Carries cfg s (leaderCheckP2Instance cfg clock isClosed timeNow s iid) := by
  unfold leaderCheckP2Instance
  dsimp only
  split_ifs
  · exact .refl s
  · exact .slot iid rfl rfl rfl (fun status => nomatch status) fun _ he => he
  · have restarted : Carries cfg s (leaderSendPrepare cfg clock s (cfg.proIndex iid)
        (restartPhase1 cfg (s.proposerState (cfg.proIndex iid)))) :=
      leaderSendPrepare_carries clock s iid rfl rfl
    exact restarted.trans (.quiet rfl rfl fun _ he => he)
  · exact .refl s

theorem leaderPeriodicP2Check_carries (isClosed : ℕ → Bool) (timeNow : Timeval)
    (s : LeaderState) :
    Carries cfg s (leaderPeriodicP2Check cfg clock isClosed timeNow s).state := by
  have cleared : Carries cfg s (clearPrepareBuf s) := .quiet rfl rfl fun _ he => he
  have checked : Carries cfg s (run (leaderCheckP2Instance cfg clock isClosed timeNow)
      (clearPrepareBuf s) (List.range' s.currentIid (s.p2Info.nextUnusedIid - s.currentIid))) :=
    run_invariant (Carries cfg s) cleared fun t iid h =>
      h.trans (leaderCheckP2Instance_carries clock isClosed timeNow t iid)
  have flushed (t : LeaderState) : Carries cfg t (flushPrepareBuf t) := .quiet rfl rfl fun _ he => he
  exact (checked.trans (flushed _)).trans (leaderOpenInstancesP2New_carries clock _)

theorem leaderSettle_carries (s : LeaderState) (value : Value) (iid : ℕ)
    (logged : .delivered iid value ∈ s.trace) :
    Carries cfg s (((leaderCountDelivered s (s.proposerState (cfg.proIndex iid)) iid).withValues
      (leaderSettleValue s.valuesHandler (s.proposerState (cfg.proIndex iid)).p2Value
        value)).withSlot (cfg.proIndex iid)
          (proClearInstanceInfo (s.proposerState (cfg.proIndex iid)))) := by
  refine ⟨fun h => h.slot iid rfl (fun status => nomatch status) fun v => ?_, ?_, fun _ he => he⟩
  · simp only [LeaderState.withSlot, LeaderState.withValues, proClearInstanceInfo,
      Option.toList_none, List.count_nil]
    cases (s.proposerState (cfg.proIndex iid)).p2Value with
    | none => rfl
    | some own =>
      unfold leaderSettleValue
      dsimp only
      by_cases mine : own = value
      · rw [if_pos mine]
        simp only [vhNotifyClient, List.map_append, List.map_cons, List.map_nil,
          List.count_append, Option.toList_some]
        omega
      · rw [if_neg mine]
        simp only [vhPushBackValue, List.count_cons, List.count_nil, Option.toList_some]
        omega
  · simp only [LeaderState.withSlot, LeaderState.withValues]
    cases (s.proposerState (cfg.proIndex iid)).p2Value with
    | none => exact ⟨[], (List.append_nil _).symm, fun _ none => nomatch none⟩
    | some own =>
      simp only [leaderSettleValue]
      split_ifs with mine
      · refine ⟨[(0, own)], rfl, fun answer now => ?_⟩
        rw [List.mem_singleton.mp now]
        exact ⟨rfl, iid, mine ▸ logged⟩
      · exact ⟨[], (List.append_nil _).symm, fun _ none => nomatch none⟩

theorem leaderDeliver_carries (s : LeaderState) (value : Value) (iid : ℕ)
    (logged : .delivered iid value ∈ s.trace) :
    Carries cfg s (leaderDeliver cfg clock s value iid).state := by
  unfold leaderDeliver
  dsimp only
  split_ifs
  · exact .refl s
  · exact (leaderSettle_carries s value iid logged).trans
      (leaderOpenInstancesP2New_carries clock _)

/-- `vh_init` loses nothing if nothing is pending. -/
theorem leaderInit_carries (timeNow : Timeval) (s : LeaderState)
    (idle : s.valuesHandler.pendingList = []) :
    Carries cfg s (leaderInit cfg clock timeNow s).state := by
  have reset : Carries cfg s (leaderResetP1 s) := by
    refine ⟨fun h => ⟨fun v => ?_, h.agrees⟩, ⟨[], (List.append_nil _).symm, fun _ none =>
      nomatch none⟩, fun _ he => he⟩
    have kept := h.kept v
    unfold places at kept ⊢
    rw [idle] at kept
    exact kept
  refine .bind (reset.trans (leaderPeriodicP1Check_carries clock timeNow _)) ?_
  intro t
  exact .quiet rfl rfl fun _ he => he

end Routines

def NoneCompleted (cfg : Config) (s : LeaderState) (iids : List ℕ) : Prop :=
  ∀ iid ∈ iids, (s.proposerState (cfg.proIndex iid)).status = .p2Completed →
    (s.proposerState (cfg.proIndex iid)).p2Value = none

instance (iids : List ℕ) : Decidable (NoneCompleted cfg s iids) :=
  inferInstanceAs (Decidable (∀ iid ∈ iids, _ → _))

def window (s : LeaderState) : List ℕ :=
  List.range' s.currentIid (s.p1Info.highestOpen + 1 - s.currentIid)

theorem leaderDropInstance_good (h : Good cfg s) {iids : List ℕ}
    (open_ : NoneCompleted cfg s iids) {iid : ℕ} (mem : iid ∈ iids) :
    Good cfg (leaderDropInstance cfg s iid) ∧
      NoneCompleted cfg (leaderDropInstance cfg s iid) iids := by
  constructor
  · refine h.slot iid rfl (fun status => nomatch status) fun v => ?_
    have incomplete := open_ iid mem
    simp only [leaderDropInstance, LeaderState.withSlot, LeaderState.withValues,
      proClearInstanceInfo, Option.toList_none, List.count_nil]
    cases own : (s.proposerState (cfg.proIndex iid)).p2Value with
    | none => rfl
    | some own =>
      have pending : (s.proposerState (cfg.proIndex iid)).status ≠ .p2Completed := by
        intro completed
        have none := incomplete completed
        simp_all
      simp only [if_pos pending, vhPushBackValue, List.count_cons, List.count_nil,
        Option.toList_some]
      omega
  · intro j hj
    simp only [leaderDropInstance, LeaderState.withSlot, LeaderState.withValues, setSlot_apply]
    split_ifs
    · exact fun _ => rfl
    · exact open_ j hj

theorem vhShutdown_good (h : Good cfg s) : Good cfg (s.withValues (vhShutdown s.valuesHandler)) := by
  refine ⟨fun v => ?_, h.agrees⟩
  have before := h.kept v
  have answers (vs : List Value) : (vs.map fun value => ((-1 : ℤ), value)).map Prod.snd = vs := by
    simp [Function.comp_def]
  unfold places at before ⊢
  simp only [LeaderState.withValues, vhShutdown, List.map_append, List.count_append, answers,
    List.count_nil]
  omega

theorem leaderShutdown_good (h : Good cfg s) (open_ : NoneCompleted cfg s (window s)) :
    Good cfg (leaderShutdown cfg s) := by
  have dropped : Along (leaderDropInstance cfg) (fun _ iid => iid ∈ window s) s (window s) :=
    along_of_mem fun iid mem _ => mem
  have kept := (dropped.invariant (fun t => Good cfg t ∧ NoneCompleted cfg t (window s)) ⟨h, open_⟩
    fun t iid good mem => leaderDropInstance_good good.1 good.2 mem).1
  exact vhShutdown_good kept

theorem leaderShutdown_notified (cfg : Config) (s : LeaderState) :
    ∃ new, (leaderShutdown cfg s).valuesHandler.notified = s.valuesHandler.notified ++ new ∧
      ∀ answer ∈ new, answer.1 = -1 := by
  have same : (run (leaderDropInstance cfg) s (window s)).valuesHandler.notified =
      s.valuesHandler.notified := by
    refine run_invariant (fun t : LeaderState => t.valuesHandler.notified = _) rfl fun t iid h => ?_
    unfold leaderDropInstance
    dsimp only [LeaderState.withSlot, LeaderState.withValues]
    split
    · split_ifs <;> exact h
    · exact h
  refine ⟨_, congrArg (· ++ _) same, fun answer now => ?_⟩
  obtain ⟨value, -, rfl⟩ := List.mem_map.mp now
  rfl

/-- A promise that completes phase 1 of an instance which already has a value brings, with the
promises before it, no other one. -/
def NoClash (cfg : Config) : AckCondition := fun s acceptorId pa =>
  let ii := s.proposerState (cfg.proIndex pa.iid)
  let saved := proSavePrepareAck ii pa acceptorId
  ii.status = .p1Pending → pa.ballot = ii.myBallot → cfg.quorum ≤ saved.promisesCount →
    saved.p1Value = none ∨ saved.p2Value = none ∨ saved.p1Value = saved.p2Value

instance (s : LeaderState) (a : ℕ) (pa : PrepareAck) : Decidable (NoClash cfg s a pa) :=
  inferInstanceAs (Decidable (_ → _ → _ → _))

/-- The leader shuts down with no instance that is closed but not delivered, and starts with
nothing in the list, which `vh_init` empties. -/
def ReignMeets (cfg : Config) (s : ProposerState) : ProposerEvent → Prop
  | .leaderAnnounce currentLeader _ _ =>
    (s.LeaderIsMe ∧ currentLeader ≠ s.leader.thisProposerId →
      NoneCompleted cfg s.leader (window s.leader)) ∧
    (¬ s.LeaderIsMe ∧ currentLeader = s.leader.thisProposerId →
      s.leader.valuesHandler.pendingList = [])
  | _ => True

instance (s : ProposerState) (e : ProposerEvent) : Decidable (ReignMeets cfg s e) :=
  match e with
  | .leaderAnnounce _ _ _ => inferInstanceAs (Decidable ((_ → _) ∧ (_ → _)))
  | .submit _ | .p1Check _ _ | .p2Check _ _ | .prepareAcks _ _ _ | .acceptAcks _ _ _
  | .holeCheck => isTrue trivial

def StepKeeps (cfg : Config) (o : ProposerOutcome) (e : ProposerEvent) : Prop :=
  StepMeets cfg (NoClash cfg) o e ∧
    match o with
    | .running s => ReignMeets cfg s e
    | .aborted _ _ => True

instance (o : ProposerOutcome) (e : ProposerEvent) : Decidable (StepKeeps cfg o e) :=
  match o with
  | .running s => inferInstanceAs (Decidable (StepMeets cfg (NoClash cfg) (.running s) e ∧
      ReignMeets cfg s e))
  | .aborted fault s =>
    inferInstanceAs (Decidable (StepMeets cfg (NoClash cfg) (.aborted fault s) e ∧ True))

theorem handlePrepareAck_carries (s : LeaderState) (acceptorId : ℕ) (pa : PrepareAck)
    (met : NoClash cfg s acceptorId pa) :
    Carries cfg s (handlePrepareAck cfg acceptorId s pa).1 := by
  rcases handlePrepareAck_cases cfg acceptorId s pa with
    dropped | ⟨ii, rfl, pending, ballot, ⟨below, counted⟩ | ⟨enough, ready⟩⟩
  · rw [dropped]
    exact .quiet rfl rfl fun _ he => List.mem_cons_of_mem _ he
  · rw [counted]
    refine .slot pa.iid rfl rfl (by simp) (fun status => ?_) fun _ he => List.mem_cons_of_mem _ he
    simp [pending] at status
  · rw [ready]
    refine .slot pa.iid rfl rfl (by simp) (fun _ v w p1 p2 => ?_) fun _ he =>
      List.mem_cons_of_mem _ (List.mem_cons_of_mem _ he)
    have agree := met pending ballot enough
    rcases agree with none | none | same
    · simp_all
    · simp_all
    · simp_all

theorem handlePrepareAcks_carries (acceptorId : ℕ) (s : LeaderState) (acks : List PrepareAck)
    (met : AcksMeet cfg (NoClash cfg) acceptorId s acks) :
    Carries cfg s (handlePrepareAcks cfg acceptorId s acks).1 := by
  unfold handlePrepareAcks
  generalize (0 : ℕ) = count
  induction acks generalizing s count with
  | nil => exact .refl s
  | cons pa acks ih =>
    obtain ⟨head, tail⟩ := met
    exact (handlePrepareAck_carries s acceptorId pa head).trans (ih _ tail _)

theorem proDeliverCallback_carries (clock : ℕ → Timeval) (s : ProposerState) (d : Delivery) :
    Carries cfg s.leader (proDeliverCallback cfg clock s d).state.leader := by
  have logged : Carries cfg s.leader (s.leader.log (.delivered d.iid d.value)) :=
    .quiet rfl rfl fun _ he => List.mem_cons_of_mem _ he
  unfold proDeliverCallback
  rw [withLeader_leader]
  refine .bind (logged.trans ?_) fun t => .quiet rfl rfl fun _ he => he
  split_ifs
  · exact leaderDeliver_carries clock _ d.value d.iid List.mem_cons_self
  · exact .refl _

theorem proHandleAcceptAckBatch_carries (clock : ℕ → Timeval) (acceptorId : ℕ)
    (acks : List AcceptAck) (s : ProposerState) :
    Carries cfg s.leader (proHandleAcceptAckBatch cfg clock acceptorId acks s).state.leader := by
  have callbacks (s : ProposerState) (ds : List Delivery) :
      Carries cfg s.leader (Outcome.fold (proDeliverCallback cfg clock) s ds).state.leader :=
    Outcome.fold_state (R := fun s t : ProposerState => Carries cfg s.leader t.leader)
      (fun s => .refl s.leader) (fun _ _ _ => Carries.trans) s ds
      fun d _ s => proDeliverCallback_carries clock s d
  unfold proHandleAcceptAckBatch
  cases Paxos2Learner.handleAcceptAckBatch cfg s.learner acceptorId acks with
  | running r => exact callbacks { s with learner := r.1 } r.2
  | aborted fault r =>
    exact Outcome.bind_state (R := fun s t : ProposerState => Carries cfg s.leader t.leader)
      (fun _ _ _ => Carries.trans) (callbacks { s with learner := r.1 } r.2)
      fun t => .refl t.leader

def DropsLeadership (s : ProposerState) : ProposerEvent → Prop
  | .leaderAnnounce currentLeader _ _ =>
    s.LeaderIsMe ∧ currentLeader ≠ s.leader.thisProposerId
  | _ => False

/-- Clients are told of success when their value was delivered, and of failure when the leader
shuts down. -/
def Answers (s : ProposerState) (e : ProposerEvent) (t : LeaderState) : Prop :=
  ∃ new, t.valuesHandler.notified = s.leader.valuesHandler.notified ++ new ∧
    ∀ answer ∈ new, answer.1 = 0 ∧ (∃ iid, .delivered iid answer.2 ∈ t.trace) ∨
      answer.1 = -1 ∧ DropsLeadership s e

theorem Carries.answers {p : ProposerState} {e : ProposerEvent} (h : Carries cfg p.leader t) :
    Answers p e t := by
  obtain ⟨new, eq, answered⟩ := h.notified
  exact ⟨new, eq, fun answer now => .inl (answered answer now)⟩

theorem vhEnqueueValue_good (h : Good cfg s) (value : Value) :
    Good cfg { s with valuesHandler := vhEnqueueValue cfg s.valuesHandler value } := by
  refine ⟨fun v => ?_, h.agrees⟩
  have before := h.kept v
  unfold places at before ⊢
  unfold vhEnqueueValue
  dsimp only
  by_cases full : cfg.leaderMaxQueueLength < vhPendingListSize s.valuesHandler
  · rw [if_pos full]
    exact before
  · rw [if_neg full]
    simp only [List.count_append, List.count_cons, List.count_nil]
    omega

theorem proposerHandle_keeps (s : ProposerState) (e : ProposerEvent) (h : Good cfg s.leader)
    (acks : EventMeets cfg (NoClash cfg) s e) (reign : ReignMeets cfg s e) :
    Good cfg (proposerHandle cfg s e).state.leader ∧
      Answers s e (proposerHandle cfg s e).state.leader := by
  have carried {o : ProposerOutcome} (carries : Carries cfg s.leader o.state.leader) :
      Good cfg o.state.leader ∧ Answers s e o.state.leader :=
    ⟨carries.good h, carries.answers⟩
  cases e with
  | submit value =>
    refine ⟨vhEnqueueValue_good h value, ⟨[], ?_, fun _ none => nomatch none⟩⟩
    change (vhEnqueueValue cfg s.leader.valuesHandler value).notified = _
    unfold vhEnqueueValue
    split_ifs <;> simp
  | leaderAnnounce currentLeader clock timeNow =>
    have announced (o : LeaderOutcome) :
        ((s.withLeader o).bind fun s => .running { s with currentLeaderId := currentLeader
          }).state.leader = o.state := by
      cases o <;> rfl
    unfold proposerHandle proHandleLeaderAnnounce
    dsimp only
    split_ifs with drops starts
    · rw [announced]
      refine ⟨leaderShutdown_good h (reign.1 drops), ?_⟩
      obtain ⟨new, eq, failed⟩ := leaderShutdown_notified cfg s.leader
      exact ⟨new, eq, fun answer now => .inr ⟨failed answer now, drops⟩⟩
    · refine carried ?_
      rw [announced]
      exact leaderInit_carries clock timeNow s.leader (reign.2 starts)
    · refine carried ?_
      rw [announced]
      exact .refl s.leader
  | p1Check clock timeNow =>
    refine carried ?_
    unfold proposerHandle
    split_ifs
    · rw [withLeader_leader]
      exact leaderPeriodicP1Check_carries clock timeNow s.leader
    · exact .refl s.leader
  | p2Check clock timeNow =>
    refine carried ?_
    unfold proposerHandle
    split_ifs
    · rw [withLeader_leader]
      exact leaderPeriodicP2Check_carries clock _ timeNow s.leader
    · exact .refl s.leader
  | prepareAcks acceptorId promises clock =>
    refine carried ?_
    unfold proposerHandle handlePrepareAckBatch
    dsimp only
    split_ifs with me ready
    · rw [withLeader_leader]
      refine (handlePrepareAcks_carries acceptorId s.leader promises (acks me)).trans ?_
      exact .bind (leaderOpenInstancesP2Expired_carries clock _)
        (leaderOpenInstancesP2New_carries clock)
    · exact handlePrepareAcks_carries acceptorId s.leader promises (acks me)
    · exact .refl s.leader
  | acceptAcks acceptorId accepts clock =>
    exact carried (proHandleAcceptAckBatch_carries clock acceptorId accepts s)
  | holeCheck => exact carried (.refl s.leader)

/-- The answers of an event, for a process that may have stopped. -/
def StepAnswers (cfg : Config) (o : ProposerOutcome) (e : ProposerEvent) : Prop :=
  Answers o.state e (proposerStep cfg o e).state.leader

theorem proposerStep_keeps (o : ProposerOutcome) (e : ProposerEvent) (h : Good cfg o.state.leader)
    (met : StepKeeps cfg o e) :
    Good cfg (proposerStep cfg o e).state.leader ∧ StepAnswers cfg o e := by
  cases o with
  | running s => exact proposerHandle_keeps s e h met.1 met.2
  | aborted fault s =>
    have still : Carries cfg s.leader s.leader := .refl s.leader
    exact ⟨h, still.answers⟩

theorem good_init (clock : ℕ → Timeval) (timeNow : Timeval) (proposerId : ℕ) :
    Good cfg (proposerInit cfg clock timeNow proposerId).state.leader := by
  have start : Good cfg (initProStructs proposerId) := by
    refine ⟨fun v => ?_, fun _ _ _ status => nomatch status⟩
    simp [places, instanceCount, initProStructs]
  unfold proposerInit
  dsimp only
  split_ifs
  · rw [withLeader_leader]
    exact (leaderInit_carries clock timeNow _ rfl).good start
  · exact start

/-- In every run whose promises do not clash with the values of instances, and that loses
leadership with none closed but undelivered, each value has as many places, in the list, in an
instance or with its client, as it was enqueued by clients and found in promises. -/
theorem client_values_kept (cfg : Config) (clock : ℕ → Timeval) (timeNow : Timeval)
    (proposerId : ℕ) (events : List ProposerEvent)
    (met : Along (proposerStep cfg) (StepKeeps cfg) (proposerInit cfg clock timeNow proposerId)
      events) :
    Kept cfg (run (proposerStep cfg) (proposerInit cfg clock timeNow proposerId)
        events).state.leader ∧
      Along (proposerStep cfg) (StepAnswers cfg) (proposerInit cfg clock timeNow proposerId)
        events := by
  have start : Good cfg (proposerInit cfg clock timeNow proposerId).state.leader :=
    good_init clock timeNow proposerId
  have kept (o : ProposerOutcome) (e : ProposerEvent) (h : Good cfg o.state.leader)
      (met : StepKeeps cfg o e) := (proposerStep_keeps o e h met).1
  constructor
  · exact (met.invariant (fun o : ProposerOutcome => Good cfg o.state.leader) start kept).kept
  · exact met.of_invariant (fun o : ProposerOutcome => Good cfg o.state.leader) start kept
      fun o e h met => (proposerStep_keeps o e h met).2

/-- Value `[7]` is enqueued and proposed for instance 1. -/
def proposeSeven : List ProposerEvent :=
  [.prepareAcks 0 [⟨1, 10, 0, []⟩] stillClock, .prepareAcks 1 [⟨1, 10, 0, []⟩] stillClock,
    .submit [7], .p2Check stillClock ⟨0, 0⟩]

theorem client_value_kept_at_shutdown :
    Kept .small (run (proposerStep .small) (proposerInit .small stillClock ⟨0, 0⟩ 0)
        (proposeSeven ++ [.leaderAnnounce 1 stillClock ⟨0, 0⟩])).state.leader ∧
      Along (proposerStep .small) (StepAnswers .small) (proposerInit .small stillClock ⟨0, 0⟩ 0)
        (proposeSeven ++ [.leaderAnnounce 1 stillClock ⟨0, 0⟩]) :=
  client_values_kept .small stillClock ⟨0, 0⟩ 0 _ (by decide +kernel)

/-- Phase 2 of instance 1 expires, and a promise of the next ballot brings value `[8]`. -/
def promiseEight : List ProposerEvent :=
  proposeSeven ++ [.p2Check stillClock ⟨1, 0⟩, .prepareAcks 0 [⟨1, 20, 11, [8]⟩] stillClock]

/-- The value of the client is in no place. -/
theorem client_value_vanishes :
    ¬ Kept .small (run (proposerStep .small) (proposerInit .small stillClock ⟨0, 0⟩ 0)
      promiseEight).state.leader := by
  intro kept
  have seven := kept [7]
  revert seven
  decide +kernel

end FdsPaxos.Paxos2ClientValues
