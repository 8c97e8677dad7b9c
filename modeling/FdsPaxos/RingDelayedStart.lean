import FdsPaxos.RingQueueOrder

set_option autoImplicit false

namespace FdsPaxos.RingDelayedStart
open TransitionRuns CircularWindow RingConfig RingMessages RingDeliveryQueue RingLearnerSoundness
open RingQueueOrder

section Definitions

variable (queueSize : ℕ)

/-- What a learner receives: a packet is followed by `post_receive_check`. -/
inductive PacketEvent where
  | packet (msgs : List McastMsg)
  | periodicCheck (timeNow : Timeval)

def packetStep (o : LearnerOutcome) : PacketEvent → LearnerOutcome
  | .packet msgs =>
    (o.bind fun q => Outcome.fold (onMcastMsg queueSize) q msgs).bind (dqDeliverLoop queueSize)
  | .periodicCheck timeNow => o.bind (dqPeriodicCheck queueSize timeNow)

def packetMessages : PacketEvent → List McastMsg
  | .packet msgs => msgs
  | .periodicCheck _ => []

def received (events : List PacketEvent) : List McastMsg :=
  events.flatMap packetMessages

def delayedRun (events : List PacketEvent) : LearnerOutcome :=
  run (packetStep queueSize) (.running (learnerInit true)) events

def startOf : McastMsg → Option ℕ
  | .commandMap m => some m.instNumber
  | .acceptance m => some m.instNumber
  | .phase2 _ => none

def firstStart (mcast : List McastMsg) : Option ℕ :=
  mcast.findSome? startOf

/-- Every entry in use belongs to an instance of the window, and stands in its slot. -/
def EntriesInWindow (q : Learner) : Prop :=
  ∀ slot, (q.queueArray slot).instNumber = 0 ∨
    dqSlot queueSize (q.queueArray slot).instNumber = slot ∧
      q.highestDelivered < (q.queueArray slot).instNumber ∧
      (q.queueArray slot).instNumber ≤ q.highestDelivered + queueSize

/-- The instances from the first one on were delivered one after the other, each with the
command of its chosen key, up to one that has to wait. -/
structure DeliversFrom (mcast : List McastMsg) (q : Learner) : Prop where
  window : EntriesInWindow queueSize q
  waits : Waits queueSize q
  unstarted : firstStart mcast = none → q.delivered = []
  count : ∀ s, firstStart mcast = some s → q.highestDelivered + 1 = s + q.delivered.length
  chosen : ∀ s, firstStart mcast = some s →
    ∀ n cmd, q.delivered[n]? = some cmd → Chosen mcast (s + n) cmd

/-- Messages that disagree about an instance can fail their assertions, but the assertions of
`dq_get_entry` do not fail. -/
def StartsRight (mcast : List McastMsg) (o : LearnerOutcome) : Prop :=
  o.Ensures (DeliversFrom queueSize mcast)
    fun fault => fault ≠ .entryTaken ∧ fault ≠ .entryOutOfRange

/-- The first instance heard of comes with the first packet, or it is instance 1. -/
def StartsClean (events : List PacketEvent) : Prop :=
  ∀ before msgs rest s, events = before ++ .packet msgs :: rest →
    firstStart (received before) = none → firstStart msgs = some s →
      s = 1 ∨ 0 < s ∧ ∀ msgs', .packet msgs' ∉ before

end Definitions

variable {queueSize : ℕ} {mcast : List McastMsg} {q r : Learner} {i : ℕ}

section Behind

/-- A learner that has delivered something before. -/
def behind (past : List Value) (q : Learner) : Learner :=
  { q with delivered := past ++ q.delivered }

variable (past : List Value)

@[simp] theorem behind_highestDelivered (q : Learner) :
    (behind past q).highestDelivered = q.highestDelivered := rfl

@[simp] theorem behind_startAt (q : Learner) (i : ℕ) :
    dqStartAt (behind past q) i = behind past (dqStartAt q i) := by
  unfold dqStartAt
  change (if q.lateStart then _ else _) = _
  split_ifs <;> rfl

theorem bind_behind {o : LearnerOutcome} {f : Learner → LearnerOutcome}
    (commutes : ∀ q, f (behind past q) = (f q).map (behind past)) :
    (o.map (behind past)).bind f = (o.bind f).map (behind past) := by
  cases o with
  | running q => exact commutes q
  | aborted fault q => rfl

theorem fold_behind {ε : Type*} {f : Learner → ε → LearnerOutcome}
    (commutes : ∀ q e, f (behind past q) e = (f q e).map (behind past)) (q : Learner)
    (es : List ε) : Outcome.fold f (behind past q) es = (Outcome.fold f q es).map (behind past) := by
  induction es generalizing q with
  | nil => rfl
  | cons e es ih => rw [Outcome.fold_cons, Outcome.fold_cons, commutes, bind_behind past ih]

theorem ite_commutes {α β : Type*} {f : α → β} {p : Prop} {d d' : Decidable p} {a b : α}
    {a' b' : β} (yes : p → a' = f a) (no : ¬ p → b' = f b) :
    (@ite _ p d a' b') = f (@ite _ p d' a b) := by
  by_cases h : p
  · rw [if_pos h, if_pos h, yes h]
  · rw [if_neg h, if_neg h, no h]

theorem dqGetEntry_behind (q : Learner) (i : ℕ) :
    dqGetEntry queueSize (behind past q) i = (dqGetEntry queueSize q i).map (behind past) :=
  ite_commutes (fun _ => rfl) fun _ => ite_commutes (fun _ => rfl) fun _ => rfl

theorem dqDeliver_behind (q : Learner) :
    dqDeliver queueSize (behind past q) = behind past (dqDeliver queueSize q) := by
  unfold dqDeliver behind
  simp only [List.append_assoc]
  rfl

theorem dqDeliverFrom_behind (turns : ℕ) (q : Learner) :
    dqDeliverFrom queueSize turns (behind past q) =
      (dqDeliverFrom queueSize turns q).map (behind past) := by
  induction turns generalizing q with
  | zero => rfl
  | succ turns ih =>
    refine ite_commutes (fun _ => ?_) fun _ => rfl
    change (dqGetEntry queueSize (dqDeliver queueSize (behind past q)) _).bind _ = _
    rw [dqDeliver_behind, dqGetEntry_behind]
    exact bind_behind past ih

theorem dqDeliverLoop_behind (q : Learner) :
    dqDeliverLoop queueSize (behind past q) = (dqDeliverLoop queueSize q).map (behind past) := by
  unfold dqDeliverLoop
  rw [behind_highestDelivered, dqGetEntry_behind]
  exact bind_behind past (dqDeliverFrom_behind past _)

theorem dqMap_behind (q : Learner) (msg : CmdmapMsg) :
    dqMap queueSize (behind past q) msg = (dqMap queueSize q msg).map (behind past) := by
  refine ite_commutes (fun _ => rfl) fun _ => ite_commutes (fun _ => ?_) fun _ =>
    ite_commutes (fun _ => ?_) fun _ => rfl
  · exact ite_commutes (fun _ => ite_commutes (fun _ => rfl) fun _ => rfl) fun _ => rfl
  · exact ite_commutes (fun _ => dqDeliverLoop_behind past (dqSaveMapping q _ _ msg)) fun _ => rfl

theorem dqAccept_behind (q : Learner) (msg : AcceptanceMsg) :
    dqAccept queueSize (behind past q) msg = (dqAccept queueSize q msg).map (behind past) := by
  refine ite_commutes (fun _ => ?_) fun _ => ite_commutes (fun _ => ?_) fun _ =>
    ite_commutes (fun _ => ?_) fun _ => rfl
  · exact ite_commutes (fun _ => rfl) fun _ => rfl
  · exact ite_commutes (fun _ => dqDeliverLoop_behind past (q.withEntry _ _)) fun _ => rfl
  · exact ite_commutes (fun _ => rfl) fun _ => rfl

theorem onMcastMsg_behind (q : Learner) (msg : McastMsg) :
    onMcastMsg queueSize (behind past q) msg = (onMcastMsg queueSize q msg).map (behind past) := by
  cases msg with
  | phase2 msg => rfl
  | commandMap msg =>
    change deliveryQueueHandleCommandMap queueSize (behind past q) msg =
      (deliveryQueueHandleCommandMap queueSize q msg).map (behind past)
    unfold deliveryQueueHandleCommandMap
    rw [behind_startAt]
    refine ite_commutes (fun _ => rfl) fun _ => ?_
    rw [← bind_behind past fun q => dqMap_behind past q msg, ← dqGetEntry_behind]
    rfl
  | acceptance msg =>
    change deliveryQueueHandleAcceptance queueSize (behind past q) msg =
      (deliveryQueueHandleAcceptance queueSize q msg).map (behind past)
    unfold deliveryQueueHandleAcceptance
    rw [behind_startAt]
    refine ite_commutes (fun _ => rfl) fun _ => ?_
    rw [← bind_behind past fun q => dqAccept_behind past q msg, ← dqGetEntry_behind]
    rfl

theorem onMissing_behind (q : Learner) (i : ℕ) :
    onMissingCmdmap (behind past q) i = behind past (onMissingCmdmap q i) ∧
      onMissingAcceptance (behind past q) i = behind past (onMissingAcceptance q i) :=
  ⟨ite_commutes (fun _ => rfl) fun _ => rfl, ite_commutes (fun _ => rfl) fun _ => rfl⟩

theorem dqRequestMap_behind (timeNow : Timeval) (q : Learner) (i : ℕ) :
    dqRequestMap queueSize timeNow (behind past q) i =
      behind past (dqRequestMap queueSize timeNow q i) := by
  unfold dqRequestMap
  rw [(onMissing_behind past q i).1]
  exact ite_commutes (fun _ => rfl) fun _ => rfl

theorem dqRequestAcceptance_behind (timeNow : Timeval) (q : Learner) (i : ℕ) :
    dqRequestAcceptance queueSize timeNow (behind past q) i =
      behind past (dqRequestAcceptance queueSize timeNow q i) := by
  unfold dqRequestAcceptance
  rw [(onMissing_behind past q i).2]
  exact ite_commutes (fun _ => rfl) fun _ => rfl

theorem postDeliveryCheck_behind (q : Learner) :
    postDeliveryCheck (behind past q) = behind past (postDeliveryCheck q) := by
  unfold postDeliveryCheck sendMapRequest sendChosenvalRequest behind
  dsimp only
  split_ifs <;> rfl

theorem dqCheckGap_behind (timeNow : Timeval) (q : Learner) (i : ℕ) :
    dqCheckGap queueSize timeNow (behind past q) i =
      (dqCheckGap queueSize timeNow q i).map (behind past) := by
  unfold dqCheckGap
  rw [dqGetEntry_behind]
  refine bind_behind past fun q => ite_commutes (fun _ => rfl) fun _ => ?_
  rw [dqRequestMap_behind, dqRequestAcceptance_behind]
  rfl

theorem dqPeriodicCheck_behind (timeNow : Timeval) (q : Learner) :
    dqPeriodicCheck queueSize timeNow (behind past q) =
      (dqPeriodicCheck queueSize timeNow q).map (behind past) := by
  have answered (q : Learner) : Outcome.running (postDeliveryCheck (behind past q)) =
      (Outcome.running (postDeliveryCheck q) : LearnerOutcome).map (behind past) :=
    congrArg Outcome.running (postDeliveryCheck_behind past q)
  change (Outcome.fold (dqCheckGap queueSize timeNow) (behind past q) _).bind _ = _
  rw [fold_behind past (dqCheckGap_behind past timeNow)]
  exact bind_behind past answered

end Behind

section Started

/-- Messages with which the instances before `s` could have been delivered. -/
def earlier (s : ℕ) : List McastMsg :=
  (List.range' 1 (s - 1)).flatMap fun i =>
    [.commandMap ⟨i, clearCmdKey, []⟩, .acceptance ⟨i, clearCmdKey⟩]

/-- A learner that started with instance `s` is settled as one that delivered all instances
before. -/
def Started (queueSize : ℕ) (mcast : List McastMsg) (s : ℕ) (q : Learner) : Prop :=
  Settled queueSize (earlier s ++ mcast) [] (behind (List.replicate (s - 1) []) q)

def Disagrees (fault : QueueFault) : Prop :=
  fault = .mappingDiffers ∨ fault = .keyDiffers

variable {s : ℕ}

theorem disagrees_faultsMeet : FaultsMeet mcast Disagrees :=
  ⟨fun _ _ _ _ _ _ _ => .inl rfl, fun _ _ _ _ _ _ => .inr rfl⟩

theorem earlier_chosen (before : 0 < i) (h : i < s) : Chosen (earlier s ++ mcast) i [] := by
  have listed : i ∈ List.range' 1 (s - 1) := List.mem_range'_1.mpr ⟨before, by omega⟩
  refine ⟨clearCmdKey, List.mem_append_left _ ?_, List.mem_append_left _ ?_⟩
  · exact List.mem_flatMap.mpr ⟨i, listed, List.mem_cons_self⟩
  · exact List.mem_flatMap.mpr ⟨i, listed, List.mem_cons_of_mem _ List.mem_cons_self⟩

theorem chosen_of_earlier {cmd : Value} (h : s ≤ i) (chosen : Chosen (earlier s ++ mcast) i cmd) :
    Chosen mcast i cmd := by
  have later (msg : McastMsg) (inst : startOf msg = some i) (mem : msg ∈ earlier s ++ mcast) :
      msg ∈ mcast := by
    rcases List.mem_append.mp mem with old | new
    · obtain ⟨j, listed, own⟩ := List.mem_flatMap.mp old
      obtain ⟨low, high⟩ := List.mem_range'_1.mp listed
      have same : j = i := by
        rcases List.mem_cons.mp own with rfl | own
        · exact Option.some.inj inst
        · cases List.mem_singleton.mp own
          exact Option.some.inj inst
      exact absurd same (by omega)
    · exact new
  obtain ⟨key, mapped, accepted⟩ := chosen
  exact ⟨key, later _ rfl mapped, later _ rfl accepted⟩

theorem Started.mono (h : Started queueSize mcast s q) (more : List McastMsg) :
    Started queueSize (mcast ++ more) s q := by
  have grown : ∀ msg ∈ earlier s ++ mcast, msg ∈ earlier s ++ (mcast ++ more) := by
    intro msg mem
    rw [← List.append_assoc]
    exact List.mem_append_left _ mem
  exact ⟨⟨h.1.sound.mono grown, h.1.slots, h.1.past⟩, h.2⟩

theorem Started.deliversFrom (h : Started queueSize mcast s q) (positive : 0 < s)
    (first : firstStart mcast = some s) : DeliversFrom queueSize mcast q where
  window := h.1.slots
  waits := h.2
  unstarted := fun none => absurd (none.symm.trans first) (Option.some_ne_none s).symm
  count := by
    intro s' first'
    cases first.symm.trans first'
    have length := h.1.sound.length
    simp only [behind, List.length_append, List.length_replicate] at length
    omega
  chosen := by
    intro s' first' n cmd found
    cases first.symm.trans first'
    have at_ : (List.replicate (s - 1) [] ++ q.delivered)[s - 1 + n]? = some cmd := by
      rw [List.getElem?_append_right (by simp), List.length_replicate, Nat.add_sub_cancel_left]
      exact found
    have chosen := h.1.sound.delivered _ cmd at_
    rw [show s - 1 + n + 1 = s + n by omega] at chosen
    exact chosen_of_earlier (by omega) chosen

theorem ensures_of_behind {f : Learner → LearnerOutcome} {past : List Value}
    {I : Learner → Prop} {F : QueueFault → Prop}
    (commutes : f (behind past q) = (f q).map (behind past)) (h : (f (behind past q)).Ensures I F) :
    (f q).Ensures (fun r => I (behind past r)) F := by
  rw [commutes] at h
  cases result : f q with
  | running r =>
    rw [result] at h
    exact h
  | aborted fault r =>
    rw [result] at h
    exact h

theorem Started.receive (h : Started queueSize mcast s q) (positive : 0 < queueSize)
    {msg : McastMsg} (sent : msg ∈ mcast) :
    (onMcastMsg queueSize q msg).Ensures (Started queueSize mcast s) Disagrees :=
  ensures_of_behind (f := fun q => onMcastMsg queueSize q msg) (onMcastMsg_behind _ q msg)
    (onMcastMsg_settles positive disagrees_faultsMeet h (List.mem_append_right _ sent))

theorem Started.deliverLoop (h : Started queueSize mcast s q) (positive : 0 < queueSize) :
    (dqDeliverLoop queueSize q).Ensures (Started queueSize mcast s) Disagrees :=
  ensures_of_behind (dqDeliverLoop_behind _ q)
    ((h.1.deliverLoop positive).mono_fault fun _ never => never.elim)

theorem Started.periodicCheck (h : Started queueSize mcast s q) (timeNow : Timeval) :
    (dqPeriodicCheck queueSize timeNow q).Ensures (Started queueSize mcast s) Disagrees :=
  ensures_of_behind (dqPeriodicCheck_behind _ timeNow q)
    ((dqPeriodicCheck_settles h timeNow).mono_fault fun _ never => never.elim)

end Started

section Unstarted

/-- A learner that has only heard of nothing: at most the entry of instance 1 is in use. -/
structure Unstarted (queueSize : ℕ) (q : Learner) : Prop where
  late : q.lateStart = true
  first : q.highestDelivered = 0
  nothing : q.delivered = []
  unseen : max q.highestSeenClosed q.highestSeenCmdmap = 0
  missing : q.missingCmdRequest = [] ∧ q.missingAccRequest = []
  empty : ∀ slot, (q.queueArray slot).hasMapping = false ∧
    (q.queueArray slot).hasFinalValue = false
  used : ∀ slot, (q.queueArray slot).instNumber = 0 ∨
    (q.queueArray slot).instNumber = 1 ∧ dqSlot queueSize 1 = slot

def Untouched (q : Learner) : Prop :=
  ∀ slot, (q.queueArray slot).instNumber = 0

variable {s : ℕ}

theorem unstarted_init : Unstarted queueSize (learnerInit true) :=
  ⟨rfl, rfl, rfl, rfl, ⟨rfl, rfl⟩, fun _ => ⟨rfl, rfl⟩, fun _ => .inl rfl⟩

theorem Unstarted.started (h : Unstarted queueSize q) (positive : 0 < queueSize)
    (clean : s = 1 ∨ 0 < s ∧ Untouched q) : Started queueSize mcast s (dqStartAt q s) := by
  have started : dqStartAt q s = { q with highestDelivered := s - 1, lateStart := false } :=
    if_pos h.late
  rw [started]
  refine ⟨⟨⟨rfl, fun slot => ?_, ?_, ?_⟩, fun slot => ?_, List.nil_prefix⟩, fun ready => ?_⟩
  · obtain ⟨noMapping, noFinal⟩ := h.empty slot
    exact ⟨fun has => absurd (noMapping.symm.trans has) Bool.false_ne_true,
      fun has => absurd (noFinal.symm.trans has) Bool.false_ne_true, fun _ => ⟨noMapping, noFinal⟩⟩
  · simp [behind, h.nothing]
  · intro n cmd found
    have found : (List.replicate (s - 1) ([] : Value))[n]? = some cmd := by
      simpa [behind, h.nothing] using found
    rw [List.getElem?_replicate] at found
    split_ifs at found with short
    cases found
    exact earlier_chosen (by omega) (by omega)
  · rcases clean with rfl | ⟨-, clean⟩
    · rcases h.used slot with unused | ⟨own, same⟩
      · exact .inl unused
      · refine .inr (?_ : dqSlot queueSize (q.queueArray slot).instNumber = slot ∧
          1 - 1 < (q.queueArray slot).instNumber ∧ (q.queueArray slot).instNumber ≤ 1 - 1 + queueSize)
        rw [own]
        exact ⟨same, by omega, by omega⟩
    · exact .inl (clean slot)
  · exact absurd (ready.1.symm.trans (h.empty _).1) Bool.false_ne_true.symm

theorem Unstarted.deliversFrom (h : Unstarted queueSize q) (positive : 0 < queueSize)
    (none : firstStart mcast = none) : DeliversFrom queueSize mcast q where
  window := by
    intro slot
    rcases h.used slot with unused | ⟨own, same⟩
    · exact .inl unused
    · rw [own, h.first]
      exact .inr ⟨same, by omega, by omega⟩
  waits := fun ready => absurd ((h.empty _).1.symm.trans ready.1) Bool.false_ne_true
  unstarted := fun _ => h.nothing
  count := fun s first => absurd (none.symm.trans first) (Option.some_ne_none s).symm
  chosen := fun s first => absurd (none.symm.trans first) (Option.some_ne_none s).symm

theorem Unstarted.deliverLoop (h : Unstarted queueSize q) (positive : 0 < queueSize) :
    (dqDeliverLoop queueSize q).Ensures (Unstarted queueSize) fun _ => False := by
  have waits : ¬ Deliverable ((gotEntry queueSize q 1).entry queueSize 1) := by
    rw [gotEntry_entry]
    exact fun ready => absurd ((h.empty _).1.symm.trans ready.1) Bool.false_ne_true
  have free : (q.entry queueSize 1).instNumber = 1 ∨ (q.entry queueSize 1).instNumber = 0 := by
    rcases h.used (dqSlot queueSize 1) with unused | ⟨own, -⟩
    · exact .inr unused
    · exact .inl own
  have loop : dqDeliverLoop queueSize q = .running (gotEntry queueSize q 1) := by
    unfold dqDeliverLoop dqGetEntry
    rw [h.first, Nat.zero_add]
    dsimp only
    rw [if_neg (by omega), if_pos free, Outcome.bind_running]
    refine if_neg ?_
    change ¬ Deliverable ((gotEntry queueSize q 1).entry queueSize (q.highestDelivered + 1))
    rwa [h.first]
  rw [loop]
  refine ⟨h.late, h.first, h.nothing, h.unseen, h.missing, fun slot => ?_, fun slot => ?_⟩
  · simp only [gotEntry, Learner.withEntry, setSlot_apply]
    split_ifs with here
    · exact h.empty _
    · exact h.empty slot
  · simp only [gotEntry, Learner.withEntry, setSlot_apply]
    split_ifs with here
    · exact .inr ⟨rfl, here.symm⟩
    · exact h.used slot

theorem Unstarted.periodicCheck (h : Unstarted queueSize q) (timeNow : Timeval) :
    dqPeriodicCheck queueSize timeNow q = .running q := by
  have answered : postDeliveryCheck q = q := by
    unfold postDeliveryCheck
    rw [if_pos h.missing.1]
    exact if_pos h.missing.2
  unfold dqPeriodicCheck
  rw [h.unseen]
  dsimp only
  rw [Nat.zero_min, Nat.zero_sub, List.range'_zero, Outcome.fold_nil, Outcome.bind_running,
    answered]

theorem onMcastMsg_starts {msg : McastMsg} (start : startOf msg = some s) (q : Learner) :
    onMcastMsg queueSize q msg = onMcastMsg queueSize (dqStartAt q s) msg := by
  have once : dqStartAt (dqStartAt q s) s = dqStartAt q s := by
    unfold dqStartAt
    split_ifs <;> rfl
  cases msg with
  | phase2 msg => cases start
  | commandMap msg =>
    cases start
    change _ = deliveryQueueHandleCommandMap queueSize _ msg
    unfold deliveryQueueHandleCommandMap
    rw [once]
    rfl
  | acceptance msg =>
    cases start
    change _ = deliveryQueueHandleAcceptance queueSize _ msg
    unfold deliveryQueueHandleAcceptance
    rw [once]
    rfl

theorem fold_none {msgs : List McastMsg} (none : firstStart msgs = none) (q : Learner) :
    Outcome.fold (onMcastMsg queueSize) q msgs = .running q := by
  induction msgs with
  | nil => rfl
  | cons msg msgs ih =>
    cases msg with
    | phase2 msg => exact ih none
    | commandMap msg => cases none
    | acceptance msg => cases none

theorem Unstarted.receives (h : Unstarted queueSize q) (positive : 0 < queueSize)
    (clean : s = 1 ∨ 0 < s ∧ Untouched q) {msgs : List McastMsg}
    (first : firstStart msgs = some s) (sent : ∀ msg ∈ msgs, msg ∈ mcast) :
    (Outcome.fold (onMcastMsg queueSize) q msgs).Ensures (Started queueSize mcast s)
      Disagrees := by
  induction msgs with
  | nil => cases first
  | cons msg msgs ih =>
    obtain ⟨head, tail⟩ := List.forall_mem_cons.mp sent
    rw [Outcome.fold_cons]
    cases start : startOf msg with
    | none =>
      have rest : firstStart msgs = some s := by
        unfold firstStart at first
        rwa [List.findSome?_cons, start] at first
      cases msg with
      | phase2 msg => exact ih rest tail
      | commandMap msg => cases start
      | acceptance msg => cases start
    | some s' =>
      have same : s' = s := by
        unfold firstStart at first
        rw [List.findSome?_cons, start] at first
        exact Option.some.inj first
      subst same
      rw [onMcastMsg_starts start]
      exact ((h.started positive clean).receive positive head).bind fun r started =>
        Outcome.ensures_fold started fun msg mem r kept => kept.receive positive (tail msg mem)

end Unstarted

/-- What a run without a stale entry leaves of a learner. -/
def Reached (queueSize : ℕ) (events : List PacketEvent) (o : LearnerOutcome) : Prop :=
  match firstStart (received events) with
  | none => o.Ensures
      (fun q => Unstarted queueSize q ∧ ((∀ msgs, .packet msgs ∉ events) → Untouched q))
      fun _ => False
  | some s => 0 < s ∧ o.Ensures (Started queueSize (received events) s) Disagrees

theorem received_append (before after : List PacketEvent) :
    received (before ++ after) = received before ++ received after :=
  List.flatMap_append

theorem firstStart_append (before after : List McastMsg) :
    firstStart (before ++ after) = (firstStart before).or (firstStart after) :=
  List.findSome?_append

theorem StartsClean.left {before after : List PacketEvent}
    (clean : StartsClean (before ++ after)) : StartsClean before := by
  rintro first msgs rest s rfl
  refine clean first msgs (rest ++ after) s ?_
  rw [List.append_assoc, List.cons_append]

theorem packetStep_unstarted (positive : 0 < queueSize) {before : List PacketEvent}
    {o : LearnerOutcome}
    (h : o.Ensures
      (fun q => Unstarted queueSize q ∧ ((∀ msgs, .packet msgs ∉ before) → Untouched q))
      fun _ => False) {e : PacketEvent} (none : firstStart (packetMessages e) = none) :
    (packetStep queueSize o e).Ensures
      (fun q => Unstarted queueSize q ∧ ((∀ msgs, .packet msgs ∉ before ++ [e]) → Untouched q))
      fun _ => False := by
  cases e with
  | periodicCheck timeNow =>
    refine h.bind fun q kept => ?_
    rw [kept.1.periodicCheck timeNow]
    exact ⟨kept.1, fun noPacket => kept.2 fun msgs mem => noPacket msgs (List.mem_append_left _ mem)⟩
  | packet msgs =>
    refine (h.bind fun q kept => ?_).bind fun q kept =>
      (Unstarted.deliverLoop kept positive).mono fun r _ kept' => ?_
    · have same : Outcome.fold (onMcastMsg queueSize) q msgs = .running q := fold_none none q
      rw [same]
      exact kept.1
    · exact ⟨kept', fun noPacket =>
        absurd (List.mem_append_right _ (List.mem_singleton_self _)) (noPacket msgs)⟩

theorem packetStep_started (positive : 0 < queueSize) {s : ℕ} {o : LearnerOutcome}
    (h : o.Ensures (Started queueSize mcast s) Disagrees) (e : PacketEvent) :
    (packetStep queueSize o e).Ensures (Started queueSize (mcast ++ packetMessages e) s)
      Disagrees := by
  have h := h.mono fun q _ started => Started.mono started (packetMessages e)
  cases e with
  | periodicCheck timeNow => exact h.bind fun q started => started.periodicCheck timeNow
  | packet msgs =>
    refine (h.bind fun q started => Outcome.ensures_fold started ?_).bind fun q started =>
      Started.deliverLoop started positive
    exact fun msg mem q kept => kept.receive positive (List.mem_append_right _ mem)

theorem delayedRun_reached (positive : 0 < queueSize) (events : List PacketEvent)
    (clean : StartsClean events) : Reached queueSize events (delayedRun queueSize events) := by
  induction events using List.reverseRecOn with
  | nil => exact ⟨unstarted_init, fun _ _ => rfl⟩
  | append_singleton before e ih =>
    have reached := ih clean.left
    have last : received [e] = packetMessages e := List.append_nil _
    unfold delayedRun at reached ⊢
    rw [run_append, run_cons, run_nil]
    unfold Reached at reached ⊢
    rw [received_append, firstStart_append, last]
    cases first : firstStart (received before) with
    | some s =>
      rw [first] at reached
      exact ⟨reached.1, packetStep_started positive reached.2 e⟩
    | none =>
      rw [first] at reached
      cases starts : firstStart (packetMessages e) with
      | none => exact packetStep_unstarted positive reached starts
      | some s =>
        cases e with
        | periodicCheck timeNow => cases starts
        | packet msgs =>
          have start := clean before msgs [] s rfl first starts
          refine ⟨by omega, ((reached.mono_fault fun _ never => never.elim).bind fun q kept =>
            ?_).bind fun q started => Started.deliverLoop started positive⟩
          refine kept.1.receives positive ?_ starts fun msg mem => List.mem_append_right _ mem
          exact start.imp_right fun later => ⟨later.1, kept.2 later.2⟩

/-- Where the first instance heard of comes with the first packet, or is instance 1, the
instances from it on are delivered one after the other, in every state of the run. -/
theorem delayed_start_right (queueSize : ℕ) (positive : 0 < queueSize)
    (events : List PacketEvent) (clean : StartsClean events) :
    ∀ before, before <+: events →
      StartsRight queueSize (received before) (delayedRun queueSize before) := by
  rintro before ⟨after, rfl⟩
  have reached := delayedRun_reached positive before clean.left
  unfold Reached at reached
  cases first : firstStart (received before) with
  | none =>
    rw [first] at reached
    refine (reached.mono fun q _ kept => ?_).mono_fault fun _ never => never.elim
    exact kept.1.deliversFrom positive first
  | some s =>
    rw [first] at reached
    obtain ⟨low, reached⟩ := reached
    refine (reached.mono fun q _ started => ?_).mono_fault fun fault disagrees => ?_
    · exact started.deliversFrom low first
    · rcases disagrees with rfl | rfl <;> decide

theorem startsClean_of_first {msgs : List McastMsg} {s : ℕ} (low : 0 < s)
    (first : firstStart msgs = some s) (rest : List PacketEvent) :
    StartsClean (.packet msgs :: rest) := by
  intro before msgs' rest' s' split none first'
  cases before with
  | nil =>
    cases split
    cases first.symm.trans first'
    exact .inr ⟨low, fun _ => List.not_mem_nil⟩
  | cons e before =>
    cases split
    have started : firstStart (received (.packet msgs :: before)) = some s := by
      change firstStart (msgs ++ received before) = some s
      rw [firstStart_append, first]
      rfl
    exact absurd (none.symm.trans started) (Option.some_ne_none s).symm

/-- Instances 5 and 6 are learned together with a phase 2 message. -/
def startsAtFive : List PacketEvent :=
  [.packet [.phase2 ⟨5, 65792, 1, ⟨1, 0, 5⟩⟩, .commandMap ⟨5, ⟨1, 0, 5⟩, [7]⟩],
    .packet [.acceptance ⟨5, ⟨1, 0, 5⟩⟩, .commandMap ⟨6, ⟨1, 0, 6⟩, [8]⟩],
    .packet [.acceptance ⟨6, ⟨1, 0, 6⟩⟩]]

theorem startsAtFive_right :
    (delayedRun 3 startsAtFive).state.delivered = [[7], [8]] ∧
      ∀ before, before <+: startsAtFive →
        StartsRight 3 (received before) (delayedRun 3 before) :=
  ⟨by decide, delayed_start_right 3 (by decide) startsAtFive
    (startsClean_of_first (by decide) rfl _)⟩

/-- The phase 2 message comes first, in a packet of its own. -/
def staleStart : List PacketEvent :=
  .packet [.phase2 ⟨5, 65792, 1, ⟨1, 0, 5⟩⟩] :: startsAtFive

/-- The entry that the loop took for instance 1 is in the way of instance 7. -/
theorem stale_entry_taken :
    ¬ ∀ (queueSize : ℕ), 0 < queueSize → ∀ events : List PacketEvent,
      StartsRight queueSize (received events) (delayedRun queueSize events) := by
  intro always
  have taken : ∃ q, delayedRun 3 staleStart = .aborted .entryTaken q := ⟨_, rfl⟩
  have right := always 3 (by decide) staleStart
  obtain ⟨q, taken⟩ := taken
  rw [taken] at right
  exact right.1 rfl

end FdsPaxos.RingDelayedStart
