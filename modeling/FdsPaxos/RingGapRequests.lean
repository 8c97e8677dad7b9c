import FdsPaxos.RingGapDeadlines

set_option autoImplicit false

namespace FdsPaxos.RingGapRequests
open TransitionRuns CircularWindow RingConfig RingMessages RingDeliveryQueue RingLearnerSoundness
open RingQueueOrder RingOneLife RingGapDeadlines

section Definitions

variable (queueSize : ℕ)

def requestedMaps : Request → List ℕ
  | .mapRequest instNumbers => instNumbers
  | .chosenvalRequest _ => []

def requestedAccs : Request → List ℕ
  | .mapRequest _ => []
  | .chosenvalRequest instNumbers => instNumbers

/-- All instances that the callback for mappings was called for: sent, or waiting to be. -/
def mapCalls (q : Learner) : List ℕ :=
  q.requests.reverse.flatMap requestedMaps ++ q.missingCmdRequest

def accCalls (q : Learner) : List ℕ :=
  q.requests.reverse.flatMap requestedAccs ++ q.missingAccRequest

def newCalls (calls : Learner → List ℕ) (q r : Learner) : List ℕ :=
  (calls r).drop (calls q).length

def InCheck (q : Learner) (i : ℕ) : Prop :=
  q.highestDelivered < i ∧ i < q.highestDelivered + queueSize ∧
    i ≤ max q.highestSeenClosed q.highestSeenCmdmap

def MapDue (maps : Calls) (now : Timeval) (q : Learner) (i : ℕ) : Prop :=
  InCheck queueSize q i ∧ (q.entry queueSize i).hasMapping = false ∧ ¬ Recent maps now i

def AcceptanceDue (accs : Calls) (now : Timeval) (q : Learner) (i : ℕ) : Prop :=
  InCheck queueSize q i ∧ i < q.highestSeenClosed ∧
    (q.entry queueSize i).hasFinalValue = false ∧ ¬ Recent accs now i

structure AsksRight (maps accs : Calls) (now : Timeval) (q r : Learner) : Prop where
  map : ∀ i, i ∈ newCalls mapCalls q r ↔ MapDue queueSize maps now q i
  mapOnce : (newCalls mapCalls q r).Nodup
  acceptance : ∀ i, i ∈ newCalls accCalls q r ↔ AcceptanceDue queueSize accs now q i
  acceptanceOnce : (newCalls accCalls q r).Nodup

structure Watched where
  learner : LearnerOutcome
  maps : Calls
  accs : Calls

def watchedStep (w : Watched) (e : QueueEvent) : Watched :=
  let o := queueStep queueSize w.learner e
  match e with
  | .periodicCheck now =>
    { learner := o
      maps := w.maps ++ (newCalls mapCalls w.learner.state o.state).map (·, now)
      accs := w.accs ++ (newCalls accCalls w.learner.state o.state).map (·, now) }
  | .receive _ | .deliverLoop => { w with learner := o }

def watchedInit (late : Bool) : Watched where
  learner := .running (learnerInit late)
  maps := []
  accs := []

/-- A check fails no assertion and asks for what is due. -/
def CheckRight (w : Watched) : QueueEvent → Prop
  | .periodicCheck now => w.learner.Ensures
    (fun q => (dqPeriodicCheck queueSize now q).Ensures
      (AsksRight queueSize w.maps w.accs now q) fun _ => False) fun _ => True
  | .receive _ | .deliverLoop => True

def FinvalElapsed (e : DqEntry) (now : Timeval) : Prop :=
  e.finvalRequestTimeout.tvSec ≠ 0 ∧ e.finvalRequestTimeout.tvUsec ≠ 0 ∨
    timerIsExpired e.finvalRequestTimeout now

instance (e : DqEntry) (now : Timeval) : Decidable (FinvalElapsed e now) :=
  inferInstanceAs (Decidable (_ ∧ _ ∨ _))

/-- A key that is known is not asked for, and one that is not known only when its deadline,
if it is set, has passed. -/
structure AsksInTime (e : DqEntry) (now : Timeval) : Prop where
  known : e.hasFinalValue = true → e.hasMapping = false → ¬ FinvalElapsed e now
  unknown : e.hasFinalValue = false → e.finvalRequestTimeout.tvSec ≠ 0 →
    e.finvalRequestTimeout.tvUsec ≠ 0 → timerIsExpired e.finvalRequestTimeout now

/-- The entries that a check looks at are free, and below the highest closed instance no
acceptance is asked for that is known or was asked for too recently. -/
def CheckClear (w : Watched) : QueueEvent → Prop
  | .periodicCheck now => w.learner.Ensures
    (fun q => ∀ i, InCheck queueSize q i → Free queueSize q i ∧
      (i < q.highestSeenClosed → AsksInTime (q.entry queueSize i) now)) fun _ => True
  | .receive _ | .deliverLoop => True

def checkTimes (events : List QueueEvent) : List Timeval :=
  events.filterMap fun
    | .periodicCheck now => some now
    | .receive _ | .deliverLoop => none

/-- Check times are positive, normalised and do not decrease. -/
structure TimesOk (times : List Timeval) : Prop where
  normal : ∀ t ∈ times, Normal t ∧ 0 < micros t
  ordered : times.Pairwise fun t t' => micros t ≤ micros t'

end Definitions

variable {queueSize : ℕ} {maps accs calls : Calls} {q r u : Learner} {i : ℕ} {now : Timeval}

theorem mapCalls_missingCmdmap (q : Learner) (i : ℕ) :
    mapCalls (onMissingCmdmap q i) = mapCalls q ++ [i] ∧
      accCalls (onMissingCmdmap q i) = accCalls q := by
  unfold onMissingCmdmap sendMapRequest mapCalls accCalls
  dsimp only
  split_ifs <;> simp [requestedMaps, requestedAccs]

theorem accCalls_missingAcceptance (q : Learner) (i : ℕ) :
    mapCalls (onMissingAcceptance q i) = mapCalls q ∧
      accCalls (onMissingAcceptance q i) = accCalls q ++ [i] := by
  unfold onMissingAcceptance sendChosenvalRequest mapCalls accCalls
  dsimp only
  split_ifs <;> simp [requestedMaps, requestedAccs]

theorem calls_postDelivery (q : Learner) : mapCalls (postDeliveryCheck q) = mapCalls q ∧
    accCalls (postDeliveryCheck q) = accCalls q := by
  unfold postDeliveryCheck sendMapRequest sendChosenvalRequest mapCalls accCalls
  dsimp only
  split_ifs <;> simp_all [requestedMaps, requestedAccs]

theorem newCalls_append {f : Learner → List ℕ} {new : List ℕ} (grown : f r = f q ++ new) :
    newCalls f q r = new := by
  unfold newCalls
  rw [grown, List.drop_left]

def CmdmapElapsed (e : DqEntry) (now : Timeval) : Prop :=
  e.cmdmapRequestTimeout = ⟨0, 0⟩ ∨ timerIsExpired e.cmdmapRequestTimeout now

instance (e : DqEntry) (now : Timeval) : Decidable (CmdmapElapsed e now) :=
  inferInstanceAs (Decidable (_ ∨ _))

/-- Where the check does not look, everything stays; at an instance only deadlines change. -/
structure SameBut (queueSize : ℕ) (i : ℕ) (q r : Learner) : Prop where
  late : r.lateStart = q.lateStart
  highest : r.highestDelivered = q.highestDelivered
  closed : r.highestSeenClosed = q.highestSeenClosed
  cmdmap : r.highestSeenCmdmap = q.highestSeenCmdmap
  others : ∀ slot, slot ≠ dqSlot queueSize i → r.queueArray slot = q.queueArray slot

theorem SameBut.trans (h : SameBut queueSize i q r) (h' : SameBut queueSize i r u) :
    SameBut queueSize i q u where
  late := h'.late.trans h.late
  highest := h'.highest.trans h.highest
  closed := h'.closed.trans h.closed
  cmdmap := h'.cmdmap.trans h.cmdmap
  others := fun slot other => (h'.others slot other).trans (h.others slot other)

theorem SameBut.refl (i : ℕ) (q : Learner) : SameBut queueSize i q q :=
  ⟨rfl, rfl, rfl, rfl, fun _ _ => rfl⟩

theorem SameBut.withEntry (h : SameBut queueSize i q r) (e : DqEntry) :
    SameBut queueSize i q (r.withEntry (dqSlot queueSize i) e) where
  late := h.late
  highest := h.highest
  closed := h.closed
  cmdmap := h.cmdmap
  others := fun slot other => (setSlot_of_ne _ _ _ _ other).trans (h.others slot other)

theorem onMissingCmdmap_same (q : Learner) (i : ℕ) :
    SameBut queueSize i q (onMissingCmdmap q i) := by
  unfold onMissingCmdmap sendMapRequest
  dsimp only
  split_ifs <;> exact ⟨rfl, rfl, rfl, rfl, fun _ _ => rfl⟩

theorem onMissingAcceptance_same (q : Learner) (i : ℕ) :
    SameBut queueSize i q (onMissingAcceptance q i) := by
  unfold onMissingAcceptance sendChosenvalRequest
  dsimp only
  split_ifs <;> exact ⟨rfl, rfl, rfl, rfl, fun _ _ => rfl⟩

structure AskedMap (queueSize : ℕ) (maps accs : Calls) (now : Timeval) (i : ℕ) (q r : Learner)
    (asked : List ℕ) : Prop where
  stamped : Stamped queueSize (maps ++ asked.map (·, now)) accs r
  map : mapCalls r = mapCalls q ++ asked
  acc : accCalls r = accCalls q
  same : SameBut queueSize i q r
  entry : ∃ t, r.entry queueSize i = { q.entry queueSize i with cmdmapRequestTimeout := t }

theorem dqRequestMap_asked (h : Stamped queueSize maps accs q)
    (own : (q.entry queueSize i).instNumber = i) (started : q.lateStart = false)
    (positive : i ≠ 0) (past : ∀ call ∈ maps, micros call.2 ≤ micros now) (normal : Normal now) :
    AskedMap queueSize maps accs now i q (dqRequestMap queueSize now q i)
      (if (q.entry queueSize i).hasMapping = false ∧ CmdmapElapsed (q.entry queueSize i) now
        then [i] else []) := by
  unfold dqRequestMap
  dsimp only
  split_ifs with asks asks' asks'
  · have entries := (onMissingCmdmap_queue q i).1
    set e : DqEntry := { q.entry queueSize i with
      cmdmapRequestTimeout := timerSetTimeout now requestTimeout } with he
    have deadline : e.cmdmapRequestTimeout = timerSetTimeout now requestTimeout := by rw [he]
    have finval : e.finvalRequestTimeout = (q.entry queueSize i).finvalRequestTimeout := by rw [he]
    have own' : e.instNumber = (q.entry queueSize i).instNumber := by rw [he]
    clear_value e
    set r := (onMissingCmdmap q i).withEntry (dqSlot queueSize i) e
    have same : SameBut queueSize i q r := (onMissingCmdmap_same q i).withEntry e
    have written : r.queueArray = setSlot q.queueArray (dqSlot queueSize i) e := by
      change setSlot (onMissingCmdmap q i).queueArray (dqSlot queueSize i) e = _
      rw [entries]
    refine ⟨⟨fun late => ?_, fun slot free => ?_, ?_, ?_⟩, ?_, ?_, same, ?_⟩
    · rw [same.late, started] at late
      cases late
    · rw [written, setSlot_apply] at free ⊢
      split_ifs at free ⊢
      · exact absurd (own.symm.trans (own'.symm.trans free)) positive
      · exact h.unused slot free
    · exact h.mapped.call past normal own (own'.trans own) deadline written same.highest
    · exact h.accepted.withEntry own' finval written same.highest
    · exact (mapCalls_missingCmdmap q i).1
    · exact (mapCalls_missingCmdmap q i).2
    · have found : r.entry queueSize i = e := setSlot_self _ _ _
      exact ⟨_, found.trans he⟩
  · exact absurd asks asks'
  · exact absurd asks' asks
  · exact ⟨by simpa using h, by simp, rfl, .refl i q, _, rfl⟩

structure AskedAcceptance (queueSize : ℕ) (maps accs : Calls) (now : Timeval) (i : ℕ)
    (q r : Learner) (asked : List ℕ) : Prop where
  stamped : Stamped queueSize maps (accs ++ asked.map (·, now)) r
  map : mapCalls r = mapCalls q
  acc : accCalls r = accCalls q ++ asked
  same : SameBut queueSize i q r

theorem dqRequestAcceptance_asked (h : Stamped queueSize maps accs q)
    (own : (q.entry queueSize i).instNumber = i) (started : q.lateStart = false)
    (positive : i ≠ 0) (past : ∀ call ∈ accs, micros call.2 ≤ micros now) (normal : Normal now) :
    AskedAcceptance queueSize maps accs now i q (dqRequestAcceptance queueSize now q i)
      (if i < q.highestSeenClosed ∧ FinvalElapsed (q.entry queueSize i) now then [i] else []) := by
  unfold dqRequestAcceptance
  dsimp only
  split_ifs with asks asks' asks'
  · have entries := (onMissingAcceptance_queue q i).1
    set e : DqEntry := { q.entry queueSize i with
      finvalRequestTimeout := timerSetTimeout now requestTimeout } with he
    have deadline : e.finvalRequestTimeout = timerSetTimeout now requestTimeout := by rw [he]
    have cmdmap : e.cmdmapRequestTimeout = (q.entry queueSize i).cmdmapRequestTimeout := by rw [he]
    have own' : e.instNumber = (q.entry queueSize i).instNumber := by rw [he]
    clear_value e
    set r := (onMissingAcceptance q i).withEntry (dqSlot queueSize i) e
    have same : SameBut queueSize i q r := (onMissingAcceptance_same q i).withEntry e
    have written : r.queueArray = setSlot q.queueArray (dqSlot queueSize i) e := by
      change setSlot (onMissingAcceptance q i).queueArray (dqSlot queueSize i) e = _
      rw [entries]
    refine ⟨⟨fun late => ?_, fun slot free => ?_, ?_, ?_⟩, ?_, ?_, same⟩
    · rw [same.late, started] at late
      cases late
    · rw [written, setSlot_apply] at free ⊢
      split_ifs at free ⊢
      · exact absurd (own.symm.trans (own'.symm.trans free)) positive
      · exact h.unused slot free
    · exact h.mapped.withEntry own' cmdmap written same.highest
    · exact h.accepted.call past normal own (own'.trans own) deadline written same.highest
    · exact (accCalls_missingAcceptance q i).1
    · exact (accCalls_missingAcceptance q i).2
  · exact absurd asks asks'
  · exact absurd asks' asks
  · exact ⟨by simpa using h, rfl, by simp, .refl i q⟩

def AsksMap (queueSize : ℕ) (now : Timeval) (q : Learner) (i : ℕ) : Prop :=
  (q.entry queueSize i).hasMapping = false ∧ CmdmapElapsed (q.entry queueSize i) now

def AsksAcceptance (queueSize : ℕ) (now : Timeval) (q : Learner) (i : ℕ) : Prop :=
  ¬ Deliverable (q.entry queueSize i) ∧ i < q.highestSeenClosed ∧
    FinvalElapsed (q.entry queueSize i) now

instance (now : Timeval) (q : Learner) : DecidablePred (AsksMap queueSize now q) :=
  fun _ => inferInstanceAs (Decidable (_ ∧ _))

instance (now : Timeval) (q : Learner) : DecidablePred (AsksAcceptance queueSize now q) :=
  fun _ => inferInstanceAs (Decidable (_ ∧ _ ∧ _))

structure Checked (queueSize : ℕ) (maps accs : Calls) (now : Timeval) (q : Learner)
    (iids : List ℕ) (r : Learner) : Prop where
  stamped : Stamped queueSize
    (maps ++ (iids.filter (AsksMap queueSize now q ·)).map (·, now))
    (accs ++ (iids.filter (AsksAcceptance queueSize now q ·)).map (·, now)) r
  map : mapCalls r = mapCalls q ++ iids.filter (AsksMap queueSize now q ·)
  acc : accCalls r = accCalls q ++ iids.filter (AsksAcceptance queueSize now q ·)
  late : r.lateStart = q.lateStart
  highest : r.highestDelivered = q.highestDelivered
  closed : r.highestSeenClosed = q.highestSeenClosed
  cmdmap : r.highestSeenCmdmap = q.highestSeenCmdmap

theorem dqGetEntry_free (low : q.highestDelivered < i)
    (high : i ≤ q.highestDelivered + queueSize) (free : Free queueSize q i) :
    dqGetEntry queueSize q i = .running (gotEntry queueSize q i) := by
  have free : (q.entry queueSize i).instNumber = i ∨ (q.entry queueSize i).instNumber = 0 := free
  unfold dqGetEntry
  dsimp only
  rw [if_neg (by omega), if_pos free]
  rfl

theorem filter_singleton (p : ℕ → Prop) [DecidablePred p] (i : ℕ) :
    [i].filter (p ·) = if p i then [i] else [] := by
  simp [List.filter_cons]

theorem checked_deliverable (h : Stamped queueSize maps accs (gotEntry queueSize q i))
    (known : Deliverable (q.entry queueSize i)) :
    Checked queueSize maps accs now q [i] (gotEntry queueSize q i) := by
  have noMap : ¬ AsksMap queueSize now q i := fun asks => absurd known.1 (by simp [asks.1])
  have noAcc : ¬ AsksAcceptance queueSize now q i := fun asks => asks.1 known
  refine ⟨?_, ?_, ?_, rfl, rfl, rfl, rfl⟩
  · rw [filter_singleton, filter_singleton, if_neg noMap, if_neg noAcc]
    simpa using h
  · rw [filter_singleton, if_neg noMap, List.append_nil]
    rfl
  · rw [filter_singleton, if_neg noAcc, List.append_nil]
    rfl

theorem checked_requests (h : Stamped queueSize maps accs (gotEntry queueSize q i))
    (started : q.lateStart = false) (pastMaps : ∀ call ∈ maps, micros call.2 ≤ micros now)
    (pastAccs : ∀ call ∈ accs, micros call.2 ≤ micros now) (normal : Normal now) (positive : i ≠ 0)
    (waits : ¬ Deliverable (q.entry queueSize i)) :
    Checked queueSize maps accs now q [i] (dqRequestAcceptance queueSize now
        (dqRequestMap queueSize now (gotEntry queueSize q i) i) i) ∧
      SameBut queueSize i (gotEntry queueSize q i) (dqRequestAcceptance queueSize now
        (dqRequestMap queueSize now (gotEntry queueSize q i) i) i) := by
  set u := gotEntry queueSize q i
  have entry : u.entry queueSize i = { q.entry queueSize i with instNumber := i } :=
    gotEntry_entry i
  have own : (u.entry queueSize i).instNumber = i := by rw [entry]
  have closed : u.highestSeenClosed = q.highestSeenClosed := rfl
  obtain ⟨stampedV, mapV, accV, sameV, t, entryV⟩ :=
    dqRequestMap_asked h own started positive pastMaps normal
  set v := dqRequestMap queueSize now u i
  have ownV : (v.entry queueSize i).instNumber = i := by rw [entryV, own]
  obtain ⟨stampedW, mapW, accW, sameW⟩ := dqRequestAcceptance_asked stampedV ownV
    (sameV.late.trans started) positive pastAccs normal
  have maps_eq : [i].filter (AsksMap queueSize now q ·) =
      if (u.entry queueSize i).hasMapping = false ∧ CmdmapElapsed (u.entry queueSize i) now
        then [i] else [] := by
    rw [filter_singleton, entry]
    rfl
  have accs_eq : [i].filter (AsksAcceptance queueSize now q ·) =
      if i < v.highestSeenClosed ∧ FinvalElapsed (v.entry queueSize i) now then [i] else [] := by
    rw [filter_singleton, entryV, sameV.closed, closed, entry]
    exact if_congr (and_iff_right waits) rfl rfl
  have same := sameV.trans sameW
  refine ⟨⟨?_, ?_, ?_, same.late, same.highest, same.closed, same.cmdmap⟩, same⟩
  · rw [maps_eq, accs_eq]
    exact stampedW
  · rw [maps_eq, mapW, mapV]
    rfl
  · rw [accs_eq, accW, accV]
    rfl

theorem dqCheckGap_checked (h : Stamped queueSize maps accs q) (started : q.lateStart = false)
    (pastMaps : ∀ call ∈ maps, micros call.2 ≤ micros now)
    (pastAccs : ∀ call ∈ accs, micros call.2 ≤ micros now) (normal : Normal now)
    (low : q.highestDelivered < i) (high : i ≤ q.highestDelivered + queueSize)
    (free : Free queueSize q i) : ∃ r, dqCheckGap queueSize now q i = .running r ∧
      Checked queueSize maps accs now q [i] r ∧
      ∀ slot, slot ≠ dqSlot queueSize i → r.queueArray slot = q.queueArray slot := by
  have running := dqGetEntry_free low high free
  have stamped := h.keeps (dqGetEntry_calls running)
  have others (slot : ℕ) (other : slot ≠ dqSlot queueSize i) :
      (gotEntry queueSize q i).queueArray slot = q.queueArray slot := setSlot_of_ne _ _ _ _ other
  have ready : Deliverable ((gotEntry queueSize q i).entry queueSize i) ↔
      Deliverable (q.entry queueSize i) := deliverable_gotEntry i _
  unfold dqCheckGap
  rw [running, Outcome.bind_running]
  split_ifs with both
  · exact ⟨_, rfl, checked_deliverable stamped (ready.mp both), others⟩
  · obtain ⟨checked, same⟩ := checked_requests stamped started pastMaps pastAccs normal (by omega)
      fun known => both (ready.mpr known)
    exact ⟨_, rfl, checked, fun slot other => (same.others slot other).trans (others slot other)⟩

theorem asks_congr {j : ℕ} (entry : r.entry queueSize j = q.entry queueSize j)
    (closed : r.highestSeenClosed = q.highestSeenClosed) :
    (AsksMap queueSize now r j ↔ AsksMap queueSize now q j) ∧
      (AsksAcceptance queueSize now r j ↔ AsksAcceptance queueSize now q j) := by
  unfold AsksMap AsksAcceptance
  rw [entry, closed]
  exact ⟨Iff.rfl, Iff.rfl⟩

theorem Checked.cons {iids : List ℕ} (first : Checked queueSize maps accs now q [i] r)
    (others : ∀ j ∈ iids, r.entry queueSize j = q.entry queueSize j)
    (rest : Checked queueSize (maps ++ ([i].filter (AsksMap queueSize now q ·)).map (·, now))
      (accs ++ ([i].filter (AsksAcceptance queueSize now q ·)).map (·, now)) now r iids u) :
    Checked queueSize maps accs now q (i :: iids) u := by
  have mapSame : iids.filter (AsksMap queueSize now r ·) =
      iids.filter (AsksMap queueSize now q ·) :=
    List.filter_congr fun j hj => decide_eq_decide.mpr (asks_congr (others j hj) first.closed).1
  have accSame : iids.filter (AsksAcceptance queueSize now r ·) =
      iids.filter (AsksAcceptance queueSize now q ·) :=
    List.filter_congr fun j hj => decide_eq_decide.mpr (asks_congr (others j hj) first.closed).2
  have split (p : ℕ → Bool) : (i :: iids).filter p = [i].filter p ++ iids.filter p := by
    rw [← List.filter_append, List.singleton_append]
  refine ⟨?_, ?_, ?_, rest.late.trans first.late, rest.highest.trans first.highest,
    rest.closed.trans first.closed, rest.cmdmap.trans first.cmdmap⟩
  · have stamped := rest.stamped
    rw [mapSame, accSame, List.append_assoc, List.append_assoc, ← List.map_append,
      ← List.map_append, ← split, ← split] at stamped
    exact stamped
  · rw [rest.map, first.map, mapSame, List.append_assoc, ← split]
  · rw [rest.acc, first.acc, accSame, List.append_assoc, ← split]

structure LoopReady (queueSize : ℕ) (maps accs : Calls) (now : Timeval) (q : Learner)
    (iids : List ℕ) : Prop where
  stamped : Stamped queueSize maps accs q
  started : q.lateStart = true → iids = []
  pastMaps : ∀ call ∈ maps, micros call.2 ≤ micros now
  pastAccs : ∀ call ∈ accs, micros call.2 ≤ micros now
  normal : Normal now
  apart : iids.Pairwise fun i j => dqSlot queueSize i ≠ dqSlot queueSize j
  within : ∀ i ∈ iids, q.highestDelivered < i ∧ i ≤ q.highestDelivered + queueSize

theorem LoopReady.turn {iids : List ℕ} (h : LoopReady queueSize maps accs now q (i :: iids))
    (free : Free queueSize q i) : ∃ r, dqCheckGap queueSize now q i = .running r ∧
      Checked queueSize maps accs now q [i] r ∧
      (∀ j ∈ iids, r.entry queueSize j = q.entry queueSize j) ∧
      LoopReady queueSize (maps ++ ([i].filter (AsksMap queueSize now q ·)).map (·, now))
        (accs ++ ([i].filter (AsksAcceptance queueSize now q ·)).map (·, now)) now r iids := by
  obtain ⟨stamped, started, pastMaps, pastAccs, normal, apart, within⟩ := h
  obtain ⟨slots, apart⟩ := List.pairwise_cons.mp apart
  obtain ⟨⟨low, high⟩, within⟩ := List.forall_mem_cons.mp within
  have started : q.lateStart = false := by
    cases late : q.lateStart with
    | false => rfl
    | true => cases started late
  obtain ⟨r, turn, checked, others⟩ :=
    dqCheckGap_checked stamped started pastMaps pastAccs normal low high free
  have past {calls : Calls} (past : ∀ call ∈ calls, micros call.2 ≤ micros now) (new : List ℕ) :
      ∀ call ∈ calls ++ new.map (·, now), micros call.2 ≤ micros now := by
    intro call mem
    rcases List.mem_append.mp mem with old | new
    · exact past call old
    · obtain ⟨j, -, rfl⟩ := List.mem_map.mp new
      exact le_refl _
  refine ⟨r, turn, checked, fun j hj => others _ (slots j hj).symm,
    ⟨checked.stamped, fun late => ?_, past pastMaps _, past pastAccs _, normal, apart, ?_⟩⟩
  · rw [checked.late, started] at late
    cases late
  · rw [checked.highest]
    exact within

theorem LoopReady.checked {iids : List ℕ} (h : LoopReady queueSize maps accs now q iids)
    (free : ∀ i ∈ iids, Free queueSize q i) :
    ∃ r, Outcome.fold (dqCheckGap queueSize now) q iids = .running r ∧
      Checked queueSize maps accs now q iids r := by
  induction iids generalizing q maps accs with
  | nil => exact ⟨q, rfl, ⟨by simpa using h.stamped, by simp, by simp, rfl, rfl, rfl, rfl⟩⟩
  | cons i iids ih =>
    obtain ⟨here, rest⟩ := List.forall_mem_cons.mp free
    obtain ⟨r, turn, checked, others, next⟩ := h.turn here
    obtain ⟨u, loop, checkedU⟩ := ih next fun j hj => by
      unfold Free
      rw [others j hj]
      exact rest j hj
    refine ⟨u, ?_, checked.cons others checkedU⟩
    rw [Outcome.fold_cons, turn, Outcome.bind_running, loop]

theorem LoopReady.free {iids : List ℕ} (h : LoopReady queueSize maps accs now q iids)
    (loop : Outcome.fold (dqCheckGap queueSize now) q iids = .running r) :
    ∀ i ∈ iids, Free queueSize q i := by
  induction iids generalizing q maps accs with
  | nil => simp
  | cons i iids ih =>
    obtain ⟨u, first, rest⟩ := Outcome.bind_eq_running.mp loop
    obtain ⟨v, got, -⟩ := Outcome.bind_eq_running.mp first
    have here : Free queueSize q i := (dqGetEntry_running got).2
    obtain ⟨u', turn, -, others, next⟩ := h.turn here
    cases first.symm.trans turn
    refine List.forall_mem_cons.mpr ⟨here, fun j hj => ?_⟩
    have freeU := ih next rest j hj
    unfold Free at freeU ⊢
    rwa [others j hj] at freeU

def checkedIids (queueSize : ℕ) (q : Learner) : List ℕ :=
  List.range' (q.highestDelivered + 1)
    (min (max q.highestSeenClosed q.highestSeenCmdmap) (q.highestDelivered + queueSize - 1) -
      q.highestDelivered)

theorem mem_checkedIids : i ∈ checkedIids queueSize q ↔ InCheck queueSize q i := by
  unfold checkedIids InCheck
  rw [List.mem_range'_1]
  omega

instance (q : Learner) (i : ℕ) : Decidable (Free queueSize q i) :=
  inferInstanceAs (Decidable (_ ∨ _))

instance (e : DqEntry) (now : Timeval) : Decidable (AsksInTime e now) :=
  decidable_of_iff ((e.hasFinalValue = true → e.hasMapping = false → ¬ FinvalElapsed e now) ∧
    (e.hasFinalValue = false → e.finvalRequestTimeout.tvSec ≠ 0 →
      e.finvalRequestTimeout.tvUsec ≠ 0 → timerIsExpired e.finvalRequestTimeout now))
    ⟨fun h => ⟨h.1, h.2⟩, fun h => ⟨h.known, h.unknown⟩⟩

instance (now : Timeval) : DecidablePred fun q : Learner => ∀ i, InCheck queueSize q i →
    Free queueSize q i ∧ (i < q.highestSeenClosed → AsksInTime (q.entry queueSize i) now) :=
  fun q => decidable_of_iff (∀ i ∈ checkedIids queueSize q,
    Free queueSize q i ∧ (i < q.highestSeenClosed → AsksInTime (q.entry queueSize i) now))
    (forall_congr' fun _ => imp_congr_left mem_checkedIids)

instance (w : Watched) (e : QueueEvent) : Decidable (CheckClear queueSize w e) :=
  match e with
  | .periodicCheck _ => inferInstanceAs (Decidable (Outcome.Ensures _ _ _))
  | .receive _ | .deliverLoop => isTrue trivial

theorem checkedIids_nodup (queueSize : ℕ) (q : Learner) : (checkedIids queueSize q).Nodup :=
  List.nodup_range' ..

theorem checkedIids_ready (stamped : Stamped queueSize maps accs q)
    (pastMaps : ∀ call ∈ maps, micros call.2 ≤ micros now)
    (pastAccs : ∀ call ∈ accs, micros call.2 ≤ micros now) (normal : Normal now) :
    LoopReady queueSize maps accs now q (checkedIids queueSize q) where
  stamped := stamped
  started := by
    intro late
    obtain ⟨-, -, closed, cmdmap⟩ := stamped.late late
    unfold checkedIids
    rw [closed, cmdmap, max_self, Nat.zero_min, Nat.zero_sub]
    rfl
  pastMaps := pastMaps
  pastAccs := pastAccs
  normal := normal
  apart := by
    refine (checkedIids_nodup queueSize q).imp_of_mem ?_
    intro i j hi hj other same
    obtain ⟨low, high, -⟩ := mem_checkedIids.mp hi
    obtain ⟨low', high', -⟩ := mem_checkedIids.mp hj
    exact other (window_index_injective low.le high low'.le high' same)
  within := by
    intro i hi
    obtain ⟨low, high, -⟩ := mem_checkedIids.mp hi
    exact ⟨low, high.le⟩

theorem dqPeriodicCheck_asks (ready : LoopReady queueSize maps accs now q (checkedIids queueSize q))
    (free : ∀ i ∈ checkedIids queueSize q, Free queueSize q i) :
    ∃ r, dqPeriodicCheck queueSize now q = .running r ∧
      newCalls mapCalls q r = (checkedIids queueSize q).filter (AsksMap queueSize now q ·) ∧
      newCalls accCalls q r = (checkedIids queueSize q).filter (AsksAcceptance queueSize now q ·) ∧
      Stamped queueSize (maps ++ (newCalls mapCalls q r).map (·, now))
        (accs ++ (newCalls accCalls q r).map (·, now)) r := by
  obtain ⟨u, loop, checked⟩ := ready.checked free
  obtain ⟨maps', accs'⟩ := calls_postDelivery u
  have mapNew := newCalls_append (maps'.trans checked.map)
  have accNew := newCalls_append (accs'.trans checked.acc)
  refine ⟨postDeliveryCheck u, ?_, mapNew, accNew, ?_⟩
  · unfold checkedIids at loop
    unfold dqPeriodicCheck
    dsimp only
    rw [loop, Outcome.bind_running]
  · rw [mapNew, accNew]
    exact checked.stamped.postDelivery

theorem asksInTime_iff {e : DqEntry} {recent : Prop} (normal : Normal now)
    (positive : 0 < micros now)
    (isRecent : recent ↔ e.finvalRequestTimeout ≠ ⟨0, 0⟩ ∧
      ¬ timerIsExpired e.finvalRequestTimeout now) :
    AsksInTime e now ↔ ((¬ Deliverable e ∧ FinvalElapsed e now) ↔
      e.hasFinalValue = false ∧ ¬ recent) := by
  have unset : e.finvalRequestTimeout = ⟨0, 0⟩ → timerIsExpired e.finvalRequestTimeout now := by
    intro zero
    rw [zero, timerIsExpired_iff (by decide) normal]
    exact positive
  have zero : e.finvalRequestTimeout = ⟨0, 0⟩ → e.finvalRequestTimeout.tvSec = 0 :=
    fun zero => congrArg Timeval.tvSec zero
  rw [isRecent]
  cases final : e.hasFinalValue with
  | true =>
    have none : ¬ (true = false ∧ ¬ (e.finvalRequestTimeout ≠ ⟨0, 0⟩ ∧
      ¬ timerIsExpired e.finvalRequestTimeout now)) := by simp
    rw [iff_false_right none]
    constructor
    · rintro inTime ⟨waits, elapsed⟩
      have missing : e.hasMapping = false :=
        Bool.eq_false_iff.mpr fun has => waits ⟨has, final⟩
      exact inTime.known final missing elapsed
    · intro never
      refine ⟨fun _ missing elapsed => never ⟨fun ready => ?_, elapsed⟩, fun unknown => ?_⟩
      · exact absurd ready.1 (by simp [missing])
      · exact absurd (final.symm.trans unknown) (by simp)
  | false =>
    have waits : ¬ Deliverable e := fun ready => absurd ready.2 (by simp [final])
    rw [and_iff_right waits, and_iff_right rfl]
    unfold FinvalElapsed
    constructor
    · intro inTime
      have elapsed := inTime.unknown final
      constructor
      · rintro (⟨sec, usec⟩ | passed) ⟨-, running⟩
        · exact running (elapsed sec usec)
        · exact running passed
      · intro notRecent
        refine .inr (by_contra fun running => notRecent ⟨fun zero' => ?_, running⟩)
        exact running (unset zero')
    · intro same
      refine ⟨fun known => absurd (final.symm.trans known) (by simp), fun _ sec usec => ?_⟩
      by_contra running
      have set : e.finvalRequestTimeout ≠ ⟨0, 0⟩ := fun zero' => sec (zero zero')
      exact same.mp (.inl ⟨sec, usec⟩) ⟨set, running⟩

theorem asksMap_iff (stamped : Stamped queueSize maps accs q) (normal : Normal now)
    (inCheck : InCheck queueSize q i) (free : Free queueSize q i) :
    AsksMap queueSize now q i ↔ (q.entry queueSize i).hasMapping = false ∧ ¬ Recent maps now i := by
  refine and_congr_right fun _ => ?_
  rw [stamped.mapped.recent_iff inCheck.1 free (fun unused => (stamped.unused _ unused).1) normal,
    not_and_or, not_not, not_not]
  exact Iff.rfl

theorem asksAcceptance_iff (stamped : Stamped queueSize maps accs q) (normal : Normal now)
    (positive : 0 < micros now) (inCheck : InCheck queueSize q i) (free : Free queueSize q i) :
    (AsksAcceptance queueSize now q i ↔ i < q.highestSeenClosed ∧
        (q.entry queueSize i).hasFinalValue = false ∧ ¬ Recent accs now i) ↔
      (i < q.highestSeenClosed → AsksInTime (q.entry queueSize i) now) := by
  have inTime := asksInTime_iff normal positive (stamped.accepted.recent_iff inCheck.1 free
    (fun unused => (stamped.unused _ unused).2) normal)
  unfold AsksAcceptance
  rw [and_left_comm, and_congr_right_iff, inTime]

theorem dqPeriodicCheck_right (stamped : Stamped queueSize maps accs q)
    (pastMaps : ∀ call ∈ maps, micros call.2 ≤ micros now)
    (pastAccs : ∀ call ∈ accs, micros call.2 ≤ micros now) (normal : Normal now)
    (positive : 0 < micros now) :
    (dqPeriodicCheck queueSize now q).Ensures (AsksRight queueSize maps accs now q)
        (fun _ => False) ↔
      ∀ i, InCheck queueSize q i → Free queueSize q i ∧
        (i < q.highestSeenClosed → AsksInTime (q.entry queueSize i) now) := by
  have ready := checkedIids_ready stamped pastMaps pastAccs normal
  by_cases free : ∀ i ∈ checkedIids queueSize q, Free queueSize q i
  · obtain ⟨r, done, mapNew, accNew, -⟩ := dqPeriodicCheck_asks ready free
    have free (i : ℕ) (inCheck : InCheck queueSize q i) : Free queueSize q i :=
      free i (mem_checkedIids.mpr inCheck)
    have asksAcceptance (i : ℕ) : i ∈ newCalls accCalls q r ↔
        InCheck queueSize q i ∧ AsksAcceptance queueSize now q i := by
      rw [accNew, List.mem_filter, mem_checkedIids, decide_eq_true_iff]
    rw [done]
    constructor
    · intro right i inCheck
      refine ⟨free i inCheck, (asksAcceptance_iff stamped normal positive inCheck
        (free i inCheck)).mp ?_⟩
      exact and_congr_right_iff.mp ((asksAcceptance i).symm.trans (right.acceptance i)) inCheck
    · intro clear
      have nodup := checkedIids_nodup queueSize q
      refine ⟨fun i => ?_, mapNew ▸ nodup.filter _, fun i => ?_, accNew ▸ nodup.filter _⟩
      · rw [mapNew, List.mem_filter, mem_checkedIids, decide_eq_true_iff]
        exact and_congr_right fun inCheck => asksMap_iff stamped normal inCheck (free i inCheck)
      · rw [asksAcceptance]
        exact and_congr_right fun inCheck => (asksAcceptance_iff stamped normal positive inCheck
          (free i inCheck)).mpr (clear i inCheck).2
  · refine iff_of_false (fun right => free ?_) fun clear => free fun i hi =>
      (clear i (mem_checkedIids.mp hi)).1
    cases done : dqPeriodicCheck queueSize now q with
    | aborted fault r =>
      rw [done] at right
      exact right.elim
    | running r =>
      obtain ⟨u, loop, -⟩ := Outcome.bind_eq_running.mp done
      exact ready.free loop

variable {w : Watched}

/-- The deadlines record the calls so far. -/
def Recorded (queueSize : ℕ) (w : Watched) : Prop :=
  w.learner.Ensures (Stamped queueSize w.maps w.accs) fun _ => True

/-- All calls so far were made at the latest at a time. -/
def CalledBy (w : Watched) (now : Timeval) : Prop :=
  (∀ call ∈ w.maps, micros call.2 ≤ micros now) ∧ ∀ call ∈ w.accs, micros call.2 ≤ micros now

theorem Recorded.step (h : Recorded queueSize w) (e : QueueEvent)
    (time : ∀ now ∈ checkTimes [e], Normal now ∧ CalledBy w now) :
    Recorded queueSize (watchedStep queueSize w e) := by
  obtain ⟨o, maps, accs⟩ := w
  cases o with
  | aborted fault q => cases e <;> trivial
  | running q =>
    cases e with
    | receive msg => exact Stamped.onMcastMsg h msg
    | deliverLoop => exact Stamped.deliverLoop h
    | periodicCheck now =>
      obtain ⟨normal, pastMaps, pastAccs⟩ := time now (by simp [checkTimes])
      have ready := checkedIids_ready h pastMaps pastAccs normal
      unfold Recorded watchedStep
      dsimp only
      refine Outcome.ensures_of_running fun r done => ?_
      have done : dqPeriodicCheck queueSize now q = .running r := done
      obtain ⟨u, loop, -⟩ := Outcome.bind_eq_running.mp done
      obtain ⟨r', done', -, -, stamped⟩ := dqPeriodicCheck_asks ready (ready.free loop)
      cases done.symm.trans done'
      have reached : queueStep queueSize (.running q) (.periodicCheck now) = .running r := done
      rw [reached]
      exact stamped

theorem CalledBy.step {t : Timeval} (h : CalledBy w t) (e : QueueEvent)
    (later : ∀ now ∈ checkTimes [e], micros now ≤ micros t) :
    CalledBy (watchedStep queueSize w e) t := by
  cases e with
  | receive msg => exact h
  | deliverLoop => exact h
  | periodicCheck now =>
    have le := later now (by simp [checkTimes])
    have new (calls : Calls) (iids : List ℕ) (past : ∀ call ∈ calls, micros call.2 ≤ micros t) :
        ∀ call ∈ calls ++ iids.map (·, now), micros call.2 ≤ micros t := by
      intro call mem
      rcases List.mem_append.mp mem with old | new
      · exact past call old
      · obtain ⟨j, -, rfl⟩ := List.mem_map.mp new
        exact le
    exact ⟨new _ _ h.1, new _ _ h.2⟩

theorem checkRight_iff (h : Recorded queueSize w) (e : QueueEvent)
    (time : ∀ now ∈ checkTimes [e], (Normal now ∧ 0 < micros now) ∧ CalledBy w now) :
    CheckRight queueSize w e ↔ CheckClear queueSize w e := by
  obtain ⟨o, maps, accs⟩ := w
  cases o with
  | aborted fault q => cases e <;> exact Iff.rfl
  | running q =>
    cases e with
    | receive msg => exact Iff.rfl
    | deliverLoop => exact Iff.rfl
    | periodicCheck now =>
      obtain ⟨⟨normal, positive⟩, pastMaps, pastAccs⟩ := time now (by simp [checkTimes])
      exact dqPeriodicCheck_right h pastMaps pastAccs normal positive

theorem along_checkRight_iff (events : List QueueEvent) (h : Recorded queueSize w)
    (times : TimesOk (checkTimes events)) (called : ∀ t ∈ checkTimes events, CalledBy w t) :
    Along (watchedStep queueSize) (CheckRight queueSize) w events ↔
      Along (watchedStep queueSize) (CheckClear queueSize) w events := by
  induction events generalizing w with
  | nil => exact Iff.rfl
  | cons e events ih =>
    have split : checkTimes (e :: events) = checkTimes [e] ++ checkTimes events := by
      unfold checkTimes
      rw [← List.filterMap_append, List.singleton_append]
    obtain ⟨normal, ordered⟩ := times
    rw [split] at normal ordered called
    obtain ⟨-, orderedRest, apart⟩ := List.pairwise_append.mp ordered
    have here : ∀ now ∈ checkTimes [e], (Normal now ∧ 0 < micros now) ∧ CalledBy w now :=
      fun now mem => ⟨normal now (List.mem_append_left _ mem),
        called now (List.mem_append_left _ mem)⟩
    have next := h.step e fun now mem => ⟨(here now mem).1.1, (here now mem).2⟩
    rw [along_cons, along_cons, checkRight_iff h e here]
    refine and_congr_right fun _ => ih next ⟨fun t mem => normal t (List.mem_append_right _ mem),
      orderedRest⟩ fun t mem => ?_
    exact (called t (List.mem_append_right _ mem)).step e fun now mem' => apart now mem' t mem

/-- Along a run of a learner, started late or not, each check asks for what is due exactly when
the entries that it looks at are free and no acceptance is asked for too often. -/
theorem gap_requests_right_iff (queueSize : ℕ) (late : Bool) (events : List QueueEvent)
    (times : TimesOk (checkTimes events)) :
    Along (watchedStep queueSize) (CheckRight queueSize) (watchedInit late) events ↔
      Along (watchedStep queueSize) (CheckClear queueSize) (watchedInit late) events :=
  along_checkRight_iff events (stamped_init queueSize late) times
    fun _ _ => ⟨(fun _ mem => nomatch mem), fun _ mem => nomatch mem⟩

/-- The second check comes just after the deadline of the first. -/
def twoChecks : List QueueEvent :=
  [.receive (.commandMap ⟨2, ⟨1, 0, 2⟩, [8]⟩), .periodicCheck ⟨1, 0⟩, .periodicCheck ⟨1, 10001⟩]

theorem twoChecks_right : Along (watchedStep 4) (CheckRight 4) (watchedInit false) twoChecks :=
  (gap_requests_right_iff 4 false twoChecks ⟨by decide, by decide⟩).mpr (by decide +kernel)

/-- The chosen key of instance 1 is known, and its mapping is not. -/
def keyKnown : List QueueEvent :=
  [.receive (.acceptance ⟨1, ⟨1, 0, 1⟩⟩), .receive (.acceptance ⟨3, ⟨1, 0, 3⟩⟩),
    .periodicCheck ⟨1, 0⟩]

/-- Nothing is known of instance 1, and two checks follow within a microsecond. -/
def askedTwice : List QueueEvent :=
  [.receive (.acceptance ⟨2, ⟨1, 0, 2⟩⟩), .periodicCheck ⟨1, 500000⟩, .periodicCheck ⟨1, 500001⟩]

theorem acceptances_asked_again :
    ¬ Along (watchedStep 4) (CheckRight 4) (watchedInit false) keyKnown ∧
    ¬ Along (watchedStep 4) (CheckRight 4) (watchedInit false) askedTwice := by
  have recorded : Recorded 4 (watchedInit false) := stamped_init 4 false
  have called (t : Timeval) : CalledBy (watchedInit false) t :=
    ⟨(fun _ mem => nomatch mem), fun _ mem => nomatch mem⟩
  constructor
  · rw [along_checkRight_iff keyKnown recorded ⟨by decide, by decide⟩ fun t _ => called t]
    decide +kernel
  · rw [along_checkRight_iff askedTwice recorded ⟨by decide, by decide⟩ fun t _ => called t]
    decide +kernel

end FdsPaxos.RingGapRequests
