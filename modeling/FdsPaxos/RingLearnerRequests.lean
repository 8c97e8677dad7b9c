import FdsPaxos.RingMulticasterMoves

set_option autoImplicit false

/-!
What `mcaster_handle_map_request` and `mcaster_handle_chosenval_request` change, for requests
that name any instances.  Both look records up with a function that initialises, recycles or
aborts.
-/

namespace FdsPaxos.RingLearnerRequests
open TransitionRuns CircularWindow RingConfig RingMessages RingMcasterStorage
open RingMulticaster RingMulticasterMoves

def About (mir : McasterInstanceRecord) (m : McastMsg) : Prop :=
  m = .commandMap ⟨mir.instNumber, mir.assignedCmdKey, mir.assignedCmdValue.getD []⟩ ∨
    m = .acceptance ⟨mir.instNumber, mir.assignedCmdKey⟩

section Definitions

variable (cfg : Config)

/-- The record has the instance it is asked for. -/
structure Held (s : Mcaster) (i : ℕ) : Prop where
  own : (s.record cfg i).instNumber = i
  zero : i = 0 → (s.record cfg i).status = .ready

def triggered (s : Mcaster) (i : ℕ) : Request → Prop
  | .mapRequest _ => timerIsExpired (s.record cfg i).repeatCmdmapTimeout s.mcasterClock
  | .chosenvalRequest _ => (s.record cfg i).status = .done

/-- Nothing but the deadlines for repeating the mapping of requested instances changes, and
what is sent is about requested instances with an assigned value. -/
structure ReadOnly (instNumbers : List ℕ) (s t : Mcaster) : Prop where
  rest : t = { s with instancesArray := t.instancesArray, mcast := t.mcast }
  records : ∀ slot, t.instancesArray slot =
    { s.instancesArray slot with
      repeatCmdmapTimeout := (t.instancesArray slot).repeatCmdmapTimeout }
  touched : ∀ slot, t.instancesArray slot ≠ s.instancesArray slot →
    ∃ i ∈ instNumbers, slot = msmSlot cfg i ∧ (s.record cfg i).instNumber = i
  lookups : ∀ i, (mcasterStorageGet cfg s i).IsRunning → (mcasterStorageGet cfg t i).IsRunning
  sent : ∃ ms, t.mcast = ms ++ s.mcast ∧ ∀ m ∈ ms, ∃ i ∈ instNumbers,
    (s.record cfg i).instNumber = i ∧ About (s.record cfg i) m ∧
      (s.record cfg i).assignedCmdValue.isSome

/-- The request finds the instance's own record, and a value where it triggers a message. -/
structure Answerable (s : Mcaster) (msg : Request) (i : ℕ) : Prop where
  held : Held cfg s i
  assigned : triggered cfg s i msg → (s.record cfg i).assignedCmdValue.isSome

def answer (msg : Request) (s : Mcaster) (i : ℕ) : Mcaster :=
  match msg with
  | .mapRequest _ =>
    if timerIsExpired (s.record cfg i).repeatCmdmapTimeout s.mcasterClock then
      mcasterBroadcastMapping cfg s (msmSlot cfg i)
    else s
  | .chosenvalRequest _ =>
    if (s.record cfg i).status = .done then mcasterBroadcastAcceptance s (msmSlot cfg i) else s

end Definitions

variable {cfg : Config} {s t u : Mcaster} {i : ℕ}

theorem withRecord_record (s : Mcaster) (i : ℕ) :
    s.withRecord (msmSlot cfg i) (s.record cfg i) = s := by
  have same : setSlot s.instancesArray (msmSlot cfg i) (s.record cfg i) = s.instancesArray := by
    funext slot
    rw [setSlot_apply]
    split_ifs with here
    · rw [here]
      rfl
    · rfl
  rw [Mcaster.withRecord, same]

theorem ready_record {mir : McasterInstanceRecord} (own : mir.instNumber = i)
    (ready : mir.status = .ready) : { mir with instNumber := i, status := .ready } = mir := by
  cases own
  rw [← ready]

theorem mcasterStorageGet_held (h : Held cfg s i) : mcasterStorageGet cfg s i = .running s := by
  have own := h.own
  by_cases zero : i = 0
  · have unused : (s.record cfg i).instNumber = 0 := own.trans zero
    rw [mcasterStorageGet, if_pos unused, ready_record own (h.zero zero), withRecord_record]
  · exact mcasterStorageGet_of_own (Nat.pos_of_ne_zero zero) own

def rank (mir : McasterInstanceRecord) : ℕ :=
  2 * mir.instNumber + if mir.status = .ready then 1 else 0

theorem rank_takenRecord (mir : McasterInstanceRecord) (i : ℕ) :
    rank (takenRecord mir i) = 2 * i + 1 := by
  unfold takenRecord
  split_ifs <;> rfl

theorem Takeable.rank_le {mir : McasterInstanceRecord} (free : Takeable mir i) :
    rank mir ≤ rank (takenRecord mir i) := by
  rw [rank_takenRecord, rank]
  rcases free with unused | ⟨older, -⟩
  · split_ifs <;> omega
  · split_ifs <;> omega

theorem mcasterStorageGet_rank (got : mcasterStorageGet cfg s i = .running u) (slot : ℕ) :
    rank (s.instancesArray slot) ≤ rank (u.instancesArray slot) := by
  rcases mcasterStorageGet_cases cfg s i with ⟨fault, stopped⟩ | same | ⟨free, taken⟩
  · rw [stopped] at got
    cases got
  · rw [same] at got
    cases got
    exact le_rfl
  · rw [taken] at got
    cases got
    simp only [takeSlot, Mcaster.withRecord, setSlot_apply]
    split_ifs with here
    · rw [here]
      exact Takeable.rank_le free
    · exact le_rfl

theorem held_of_rank (got : mcasterStorageGet cfg s i = .running u)
    (same : rank (u.record cfg i) ≤ rank (s.record cfg i)) : Held cfg s i := by
  rcases mcasterStorageGet_cases cfg s i with ⟨fault, stopped⟩ | kept | ⟨free, taken⟩
  · rw [stopped] at got
    cases got
  · refine ⟨mcasterStorageGet_own kept, fun zero => ?_⟩
    have unused : (s.record cfg i).instNumber = 0 := (mcasterStorageGet_own kept).trans zero
    rw [mcasterStorageGet, if_pos unused] at kept
    have after := congrArg (fun o => (o.state.record cfg i).status) kept
    simpa using after.symm
  · rw [taken] at got
    cases got
    have slot : (takeSlot cfg s i).record cfg i = takenRecord (s.record cfg i) i :=
      setSlot_self _ _ _
    rw [slot, rank_takenRecord, rank] at same
    rcases free with unused | ⟨older, -⟩
    · split_ifs at same with ready
      · exact ⟨by omega, fun _ => ready⟩
      · omega
    · split_ifs at same <;> omega

/-- What an answer leaves of the state, and when and about what it sends a message. -/
structure Answers (cfg : Config) (msg : Request) (i : ℕ) (s t : Mcaster) : Prop where
  rest : t = { s with instancesArray := t.instancesArray, mcast := t.mcast }
  others : ∀ slot, slot ≠ msmSlot cfg i → t.instancesArray slot = s.instancesArray slot
  own : t.record cfg i =
    { s.record cfg i with repeatCmdmapTimeout := (t.record cfg i).repeatCmdmapTimeout }
  idle : ¬ triggered cfg s i msg → t = s
  sends : triggered cfg s i msg → ∃ m, t.mcast = m :: s.mcast ∧ About (s.record cfg i) m

theorem answer_answers (msg : Request) (s : Mcaster) (i : ℕ) :
    Answers cfg msg i s (answer cfg msg s i) := by
  cases msg with
  | mapRequest instNumbers =>
    simp only [answer]
    split_ifs with expired
    · refine ⟨rfl, fun slot other => setSlot_of_ne _ _ _ _ other, ?_,
        fun idle => (idle expired).elim, fun _ => ⟨_, rfl, .inl rfl⟩⟩
      simp only [mcasterBroadcastMapping, record_withRecord]
      rfl
    · exact ⟨rfl, fun _ _ => rfl, rfl, fun _ => rfl, fun trig => (expired trig).elim⟩
  | chosenvalRequest instNumbers =>
    simp only [answer]
    split_ifs with done
    · exact ⟨rfl, fun _ _ => rfl, rfl, fun idle => (idle done).elim, fun _ => ⟨_, rfl, .inr rfl⟩⟩
    · exact ⟨rfl, fun _ _ => rfl, rfl, fun _ => rfl, fun trig => (done trig).elim⟩

def requestTurn (cfg : Config) (msg : Request) (s : Mcaster) (i : ℕ) : McasterOutcome :=
  (mcasterStorageGet cfg s i).bind fun u => .running (answer cfg msg u i)

theorem mcasterHandleRequest_eq (cfg : Config) (s : Mcaster) (msg : Request) :
    mcasterHandleRequest cfg s msg = Outcome.fold (requestTurn cfg msg) s (requested msg) := by
  cases msg with
  | mapRequest instNumbers =>
    have same : mcasterRepeatMap cfg = requestTurn cfg (.mapRequest instNumbers) := by
      funext s i
      simp only [mcasterRepeatMap, requestTurn, answer, apply_ite Outcome.running]
    simp only [mcasterHandleRequest, same, requested]
  | chosenvalRequest instNumbers =>
    have same : mcasterRepeatAcceptance cfg = requestTurn cfg (.chosenvalRequest instNumbers) := by
      funext s i
      simp only [mcasterRepeatAcceptance, requestTurn, answer, apply_ite Outcome.running]
    simp only [mcasterHandleRequest, same, requested]

variable {msg : Request}

theorem Answers.record (h : Answers cfg msg i s t) (slot : ℕ) :
    t.instancesArray slot =
      { s.instancesArray slot with
        repeatCmdmapTimeout := (t.instancesArray slot).repeatCmdmapTimeout } := by
  by_cases here : slot = msmSlot cfg i
  · rw [here]
    exact h.own
  · rw [h.others slot here]

theorem Answers.rank (h : Answers cfg msg i s t) (slot : ℕ) :
    rank (t.instancesArray slot) = rank (s.instancesArray slot) := by
  rw [h.record slot]
  rfl

theorem Answers.clock (h : Answers cfg msg i s t) : t.mcasterClock = s.mcasterClock := by
  rw [h.rest]

theorem Answers.mcast (h : Answers cfg msg i s t) : ∃ ms, t.mcast = ms ++ s.mcast := by
  by_cases trig : triggered cfg s i msg
  · obtain ⟨m, sent, -⟩ := h.sends trig
    exact ⟨[m], sent⟩
  · rw [h.idle trig]
    exact ⟨[], rfl⟩

theorem requestTurn_running (done : requestTurn cfg msg s i = .running t) :
    ∃ u, mcasterStorageGet cfg s i = .running u ∧ Answers cfg msg i u t := by
  obtain ⟨u, got, next⟩ := Outcome.bind_eq_running.mp done
  cases next
  exact ⟨u, got, answer_answers msg u i⟩

theorem requestTurn_rank (done : requestTurn cfg msg s i = .running t) (slot : ℕ) :
    rank (s.instancesArray slot) ≤ rank (t.instancesArray slot) := by
  obtain ⟨u, got, answers⟩ := requestTurn_running done
  rw [answers.rank slot]
  exact mcasterStorageGet_rank got slot

theorem requestFold_rank {is : List ℕ} (done : Outcome.fold (requestTurn cfg msg) s is = .running t)
    (slot : ℕ) : rank (s.instancesArray slot) ≤ rank (t.instancesArray slot) :=
  Outcome.fold_running (fun t => rank (s.instancesArray slot) ≤ rank (t.instancesArray slot)) le_rfl
    (fun _ _ _ _ before turn => before.trans (requestTurn_rank turn slot)) done

theorem requestTurn_held (held : Held cfg s i) :
    ∃ t, requestTurn cfg msg s i = .running t ∧ Answers cfg msg i s t :=
  ⟨_, by rw [requestTurn, mcasterStorageGet_held held, Outcome.bind_running],
    answer_answers msg s i⟩

theorem requestFold_mcast {is : List ℕ}
    (done : Outcome.fold (requestTurn cfg msg) s is = .running t) :
    ∃ ms, t.mcast = ms ++ s.mcast := by
  refine Outcome.fold_running (fun t => ∃ ms, t.mcast = ms ++ s.mcast) ⟨[], rfl⟩ ?_ done
  rintro u i v - ⟨ms, before⟩ turn
  obtain ⟨w, got, answers⟩ := requestTurn_running turn
  obtain ⟨ms', sent⟩ := answers.mcast
  have same : w.mcast = u.mcast := by
    rcases mcasterStorageGet_cases cfg u i with ⟨fault, stopped⟩ | kept | ⟨-, taken⟩
    · rw [stopped] at got
      cases got
    · rw [kept] at got
      cases got
      rfl
    · rw [taken] at got
      cases got
      rfl
  exact ⟨ms' ++ ms, by rw [sent, same, before, List.append_assoc]⟩

section After

variable {j : ℕ}

theorem Answers.number (h : Answers cfg msg i s t) :
    (t.record cfg j).instNumber = (s.record cfg j).instNumber := by
  rw [Mcaster.record, h.record (msmSlot cfg j)]
  rfl

theorem Answers.value (h : Answers cfg msg i s t) :
    (t.record cfg j).assignedCmdValue = (s.record cfg j).assignedCmdValue := by
  rw [Mcaster.record, h.record (msmSlot cfg j)]
  rfl

theorem Answers.about (h : Answers cfg msg i s t) (m : McastMsg) :
    About (t.record cfg j) m ↔ About (s.record cfg j) m := by
  rw [Mcaster.record, h.record (msmSlot cfg j)]
  rfl

theorem Answers.held_iff (h : Answers cfg msg i s t) : Held cfg t j ↔ Held cfg s j := by
  have status : (t.record cfg j).status = (s.record cfg j).status := by
    rw [Mcaster.record, h.record (msmSlot cfg j)]
    rfl
  exact ⟨fun held => ⟨h.number ▸ held.own, fun zero => status ▸ held.zero zero⟩,
    fun held => ⟨h.number.trans held.own, fun zero => status.trans (held.zero zero)⟩⟩

theorem about_same {mir mir' : McasterInstanceRecord} {m : McastMsg} (h : About mir m)
    (h' : About mir' m) : mir.instNumber = mir'.instNumber := by
  rcases h with rfl | rfl
  · rcases h' with same | same
    · injection same with same
      exact congrArg CmdmapMsg.instNumber same
    · cases same
  · rcases h' with same | same
    · cases same
    · injection same with same
      exact congrArg AcceptanceMsg.instNumber same

theorem Answers.answerable_other (h : Answers cfg msg i s t) (held : Held cfg s i)
    (held' : Held cfg s j) (other : j ≠ i) : Answerable cfg t msg j ↔ Answerable cfg s msg j := by
  have apart : msmSlot cfg j ≠ msmSlot cfg i := by
    intro same
    apply other
    rw [← held'.own, ← held.own, Mcaster.record, same]
    rfl
  have record : t.record cfg j = s.record cfg j := h.others _ apart
  have trigger : triggered cfg t j msg ↔ triggered cfg s j msg := by
    cases msg with
    | mapRequest => simp only [triggered, record, h.clock]
    | chosenvalRequest => simp only [triggered, record]
  constructor
  · exact fun met => ⟨held', fun trig => record ▸ met.assigned (trigger.mpr trig)⟩
  · exact fun met =>
      ⟨h.held_iff.mpr held', fun trig => record.symm ▸ met.assigned (trigger.mp trig)⟩

theorem Answers.answerable_self (h : Answers cfg msg i s t) (met : Answerable cfg s msg i) :
    Answerable cfg t msg i := by
  refine ⟨h.held_iff.mpr met.held, fun trig => ?_⟩
  by_cases before : triggered cfg s i msg
  · rw [h.value]
    exact met.assigned before
  · rw [h.idle before] at trig
    exact (before trig).elim

def Valued (cfg : Config) (s : Mcaster) (m : McastMsg) (j : ℕ) : Prop :=
  (s.record cfg j).instNumber = j ∧ About (s.record cfg j) m ∧
    (s.record cfg j).assignedCmdValue.isSome

theorem Answers.valued_iff {m : McastMsg} (h : Answers cfg msg i s t) :
    Valued cfg t m j ↔ Valued cfg s m j := by
  unfold Valued
  rw [h.number, h.about m, h.value]

theorem Held.assigned {m : McastMsg} (held : Held cfg s i) (about : About (s.record cfg i) m)
    (valued : ∃ j, Valued cfg s m j) : (s.record cfg i).assignedCmdValue.isSome := by
  obtain ⟨j, own, about', some⟩ := valued
  have same : i = j := by
    rw [← held.own, ← own]
    exact about_same about about'
  exact same ▸ some

end After

theorem sent_append {ms ms' new : List McastMsg} {v : Mcaster} (whole : t.mcast = ms ++ s.mcast)
    (first : v.mcast = new ++ s.mcast) (later : t.mcast = ms' ++ v.mcast) : ms = ms' ++ new := by
  have same : ms ++ s.mcast = ms' ++ new ++ s.mcast := by
    rw [← whole, later, first, List.append_assoc]
  exact List.append_cancel_right same

theorem answerable_of_unchanged {is : List ℕ} {ms : List McastMsg}
    (done : Outcome.fold (requestTurn cfg msg) s is = .running t)
    (same : ∀ slot, rank (t.instancesArray slot) = rank (s.instancesArray slot))
    (sent : t.mcast = ms ++ s.mcast)
    (valued : ∀ m ∈ ms, ∃ j, Valued cfg s m j) : ∀ i ∈ is, Answerable cfg s msg i := by
  induction is generalizing s ms with
  | nil => simp
  | cons i is ih =>
    obtain ⟨v, first, rest⟩ := Outcome.bind_eq_running.mp done
    have above := requestFold_rank rest
    obtain ⟨u, got, answers⟩ := requestTurn_running first
    have held : Held cfg s i := by
      refine held_of_rank got ?_
      have before := same (msmSlot cfg i)
      have after := above (msmSlot cfg i)
      rw [answers.rank] at after
      exact after.trans before.le
    have start : u = s := by
      rw [mcasterStorageGet_held held] at got
      exact (Outcome.running.inj got).symm
    subst start
    obtain ⟨ms', later⟩ := requestFold_mcast rest
    have met : Answerable cfg u msg i := by
      refine ⟨held, fun trig => ?_⟩
      obtain ⟨m, now, about⟩ := answers.sends trig
      have split : ms = ms' ++ [m] := sent_append sent now later
      exact held.assigned about (valued m (split ▸ List.mem_append_right ms' List.mem_cons_self))
    have others : ∀ j ∈ is, Answerable cfg v msg j := by
      obtain ⟨new, now⟩ := answers.mcast
      have split : ms = ms' ++ new := sent_append sent now later
      refine ih rest (fun slot => (same slot).trans (answers.rank slot).symm) later fun m mem => ?_
      obtain ⟨j, before⟩ := valued m (split ▸ List.mem_append_left new mem)
      exact ⟨j, answers.valued_iff.mpr before⟩
    refine List.forall_mem_cons.mpr ⟨met, fun j mem => ?_⟩
    by_cases same : j = i
    · exact same ▸ met
    · have after := others j mem
      exact (answers.answerable_other held (answers.held_iff.mp after.held) same).mp after

theorem ReadOnly.refl (s : Mcaster) : ReadOnly cfg [] s s :=
  ⟨rfl, fun _ => rfl, fun _ changed => absurd rfl changed, fun _ runs => runs, [], rfl, by simp⟩

theorem lookup_runs_iff (s : Mcaster) (i : ℕ) : (mcasterStorageGet cfg s i).IsRunning ↔
    (s.record cfg i).instNumber = 0 ∨ (s.record cfg i).instNumber = i ∨
      ((s.record cfg i).instNumber < i ∧ (s.record cfg i).status = .done) := by
  unfold mcasterStorageGet
  dsimp only
  split_ifs with unused older done newer
  · exact iff_of_true trivial (.inl unused)
  · exact iff_of_true trivial (.inr (.inr ⟨older, done⟩))
  · refine iff_of_false id ?_
    rintro (none | own | ⟨-, closed⟩)
    · exact unused none
    · omega
    · exact done closed
  · refine iff_of_false id ?_
    rintro (none | own | ⟨older, -⟩) <;> omega
  · exact iff_of_true trivial (.inr (.inl (by omega)))

theorem ReadOnly.cons {is : List ℕ} {v : Mcaster} (rest : ReadOnly cfg is v t)
    (first : Answers cfg msg i s v) (met : Answerable cfg s msg i) :
    ReadOnly cfg (i :: is) s t := by
  have records (slot : ℕ) : t.instancesArray slot =
      { s.instancesArray slot with
        repeatCmdmapTimeout := (t.instancesArray slot).repeatCmdmapTimeout } := by
    rw [rest.records slot, first.record slot]
  refine ⟨?_, records, ?_, ?_, ?_⟩
  · rw [rest.rest, first.rest]
  · intro slot changed
    by_cases here : slot = msmSlot cfg i
    · exact ⟨i, List.mem_cons_self, here, met.held.own⟩
    · rw [← first.others slot here] at changed
      obtain ⟨j, mem, at_slot, own⟩ := rest.touched slot changed
      exact ⟨j, List.mem_cons_of_mem i mem, at_slot, first.number.symm.trans own⟩
  · intro j runs
    rw [lookup_runs_iff] at runs ⊢
    rw [Mcaster.record, records (msmSlot cfg j)]
    exact runs
  · obtain ⟨ms, later, valued⟩ := rest.sent
    have kept : ∀ m ∈ ms, ∃ j ∈ i :: is, Valued cfg s m j := by
      intro m mem
      obtain ⟨j, asked, after⟩ := valued m mem
      exact ⟨j, List.mem_cons_of_mem i asked, first.valued_iff.mp after⟩
    by_cases trig : triggered cfg s i msg
    · obtain ⟨m, now, about⟩ := first.sends trig
      refine ⟨ms ++ [m], by rw [later, now]; simp, fun m' mem => ?_⟩
      rcases List.mem_append.mp mem with new | old
      · exact kept m' new
      · rw [List.mem_singleton.mp old]
        exact ⟨i, List.mem_cons_self, met.held.own, about, met.assigned trig⟩
    · have same : v.mcast = s.mcast := by rw [first.idle trig]
      exact ⟨ms, by rw [later, same], kept⟩

theorem readOnly_of_answerable {is : List ℕ} (met : ∀ i ∈ is, Answerable cfg s msg i) :
    ∃ t, Outcome.fold (requestTurn cfg msg) s is = .running t ∧ ReadOnly cfg is s t := by
  induction is generalizing s with
  | nil => exact ⟨s, rfl, ReadOnly.refl s⟩
  | cons i is ih =>
    obtain ⟨own, others⟩ := List.forall_mem_cons.mp met
    obtain ⟨v, first, answers⟩ := requestTurn_held own.held
    have later : ∀ j ∈ is, Answerable cfg v msg j := by
      intro j mem
      by_cases same : j = i
      · exact same ▸ answers.answerable_self own
      · exact (answers.answerable_other own.held (others j mem).held same).mpr (others j mem)
    obtain ⟨t, done, rest⟩ := ih later
    exact ⟨t, by rw [Outcome.fold_cons, first]; exact done, rest.cons answers own⟩

theorem request_read_only_iff (cfg : Config) (s : Mcaster) (msg : Request) :
    (∃ t, mcasterHandleRequest cfg s msg = .running t ∧ ReadOnly cfg (requested msg) s t) ↔
      ∀ i ∈ requested msg, Answerable cfg s msg i := by
  rw [mcasterHandleRequest_eq]
  constructor
  · rintro ⟨t, done, readOnly⟩
    obtain ⟨ms, sent, valued⟩ := readOnly.sent
    refine answerable_of_unchanged done (fun slot => ?_) sent fun m mem => ?_
    · rw [readOnly.records slot]
      rfl
    · obtain ⟨j, -, about⟩ := valued m mem
      exact ⟨j, about⟩
  · exact readOnly_of_answerable

/-- A request for an instance that was never opened takes its slot. -/
theorem request_beyond_open_takes_slot :
    ¬ ∃ t, mcasterHandleRequest Config.small multicasterInit (.chosenvalRequest [7]) = .running t ∧
      ReadOnly Config.small [7] multicasterInit t := by
  rintro ⟨t, done, readOnly⟩
  have taken : (mcasterHandleRequest Config.small multicasterInit
      (.chosenvalRequest [7])).state.instancesArray 7 =
        { multicasterInit.instancesArray 7 with instNumber := 7, status := .ready } := by
    decide +kernel
  rw [done, Outcome.state_running, readOnly.records 7] at taken
  have number : 0 = 7 := congrArg McasterInstanceRecord.instNumber taken
  omega

end FdsPaxos.RingLearnerRequests
