import FdsPaxos.Paxos2LeaderMoves
import Mathlib.Data.List.MinMax

set_option autoImplicit false

/-!
The value that phase 2 runs with after the promises of phase 1.  An acceptor that
accepted a value of no bytes promises it with its ballot; `pro_save_prepare_ack` takes
the promise for one without a value.
-/

namespace FdsPaxos.Paxos2ValueSelection
open TransitionRuns CircularWindow Paxos2Config Paxos2Messages Paxos2SendBuffer
open Paxos2ValuesHandler Paxos2Leader Paxos2Proposer Paxos2LeaderMoves

/-- What a promise for a given instance and ballot says, and who made it. -/
structure Promise where
  acceptorId : ℕ
  valueBallot : ℕ
  value : Value
deriving DecidableEq

def Promise.ack (iid ballot : ℕ) (p : Promise) : PrepareAck where
  iid := iid
  ballot := ballot
  valueBallot := p.valueBallot
  value := p.value

/-- The instance has entered phase 1 at the ballot, and no promise has been counted. -/
structure Fresh (ii : PInstInfo) (iid ballot : ℕ) : Prop where
  iid : ii.iid = iid
  status : ii.status = .p1Pending
  myBallot : ii.myBallot = ballot
  promisesBitvector : ii.promisesBitvector = 0
  promisesCount : ii.promisesCount = 0
  p1Value : ii.p1Value = none
  p1ValueBallot : ii.p1ValueBallot = 0

variable (cfg : Config) (clock : ℕ → Timeval)

/-- The promises arrive one after the other, and the last one makes the instance ready. -/
def acksUntilReady (iid ballot : ℕ) : LeaderState → List Promise → Option LeaderState
  | _, [] => none
  | s, p :: rest =>
    match handlePrepareAck cfg p.acceptorId s (p.ack iid ballot) with
    | (t, true) => if rest = [] then some t else none
    | (t, false) => acksUntilReady iid ballot t rest

/-- The value left from an earlier phase 2, or the next pending one. -/
def ownValue (s : LeaderState) (iid : ℕ) : Option Value :=
  (s.proposerState (cfg.proIndex iid)).p2Value.or s.valuesHandler.pendingList.head?

/-- The accept request sent for the instance carries the value, or there is none to send. -/
def Sends (s : LeaderState) (o : LeaderOutcome) (iid ballot : ℕ) : Option Value → Prop
  | some value => ∃ t, o = .running t ∧
      t.acceptBuf.content = s.acceptBuf.content ++ [⟨iid, ballot, value⟩]
  | none => ∃ t, o = .aborted .noPendingValue t

/-- The promise reports an accepted value, and none reports one of a higher ballot. -/
def Highest (ps : List Promise) (p : Promise) : Prop :=
  p.valueBallot ≠ 0 ∧ ∀ q ∈ ps, q.valueBallot ≤ p.valueBallot

/-- The choice that the promises leave: the value reported with the highest ballot, and the
own value only if none is reported. -/
structure Chooses (own : Option Value) (ps : List Promise) (choice : Option Value) : Prop where
  reported : (∃ p ∈ ps, p.valueBallot ≠ 0) → ∃ p ∈ ps, Highest ps p ∧ choice = some p.value
  own : (∀ p ∈ ps, p.valueBallot = 0) → choice = own

/-- In whatever order the promises arrive, phase 2 runs with one and the same right choice. -/
def SelectsRight (s : LeaderState) (iid ballot : ℕ) (ps : List Promise) : Prop :=
  ∃ choice, Chooses (ownValue cfg s iid) ps choice ∧
    ∀ ps', ps'.Perm ps → ∃ t, acksUntilReady cfg iid ballot s ps' = some t ∧
      Sends s (leaderExecuteP2 cfg clock t (cfg.proIndex iid)) iid ballot choice

/-- No value is reported; or of those reported with the highest ballot one has bytes, and
all that have bytes are equal; or none of those reported has bytes, and neither
has the own value. -/
def ReportsClear (own : Option Value) (ps : List Promise) : Prop :=
  (∀ p ∈ ps, p.valueBallot = 0) ∨
  (∃ p ∈ ps, Highest ps p ∧ p.value ≠ [] ∧
    ∀ q ∈ ps, Highest ps q → q.value ≠ [] → q.value = p.value) ∨
  ((∀ p ∈ ps, p.valueBallot ≠ 0 → p.value = []) ∧ own = some [])

/-- The promises whose value is kept: those that report a value with bytes. -/
def kept (ps : List Promise) : List Promise :=
  ps.filter fun p => decide (p.value ≠ [] ∧ p.valueBallot ≠ 0)

def best (ps : List Promise) : Option Promise := (kept ps).argmax Promise.valueBallot

variable {cfg clock}

section Best

variable {ps : List Promise} {p q : Promise}

theorem mem_kept : p ∈ kept ps ↔ p ∈ ps ∧ p.value ≠ [] ∧ p.valueBallot ≠ 0 := by
  simp [kept]

theorem best_eq_none : best ps = none ↔ ∀ p ∈ ps, p.valueBallot ≠ 0 → p.value = [] := by
  rw [best, List.argmax_eq_none, List.eq_nil_iff_forall_not_mem]
  constructor
  · intro empty p hp reported
    by_contra bytes
    exact empty p (mem_kept.mpr ⟨hp, bytes, reported⟩)
  · intro empty p hp
    obtain ⟨hp, bytes, reported⟩ := mem_kept.mp hp
    exact bytes (empty p hp reported)

theorem best_mem (h : best ps = some p) : p ∈ ps ∧ p.value ≠ [] ∧ p.valueBallot ≠ 0 :=
  mem_kept.mp (List.argmax_mem h)

theorem le_best (h : best ps = some p) (hq : q ∈ ps) (bytes : q.value ≠ []) :
    q.valueBallot ≤ p.valueBallot := by
  by_cases reported : q.valueBallot = 0
  · omega
  · exact List.le_of_mem_argmax (mem_kept.mpr ⟨hq, bytes, reported⟩) h

theorem best_cons (bytes : p.value ≠ []) (reported : p.valueBallot ≠ 0)
    (highest : ∀ q ∈ ps, q.valueBallot ≤ p.valueBallot) : best (p :: ps) = some p := by
  have first : kept (p :: ps) = p :: kept ps := by
    simp [kept, bytes, reported]
  rw [best, first, List.argmax_cons]
  cases rest : (kept ps).argmax Promise.valueBallot with
  | none => rfl
  | some q =>
    have := highest q (mem_kept.mp (List.argmax_mem rest)).1
    simp only
    rw [if_neg (by omega)]

theorem best_concat (ps : List Promise) (p : Promise) :
    best (ps ++ [p]) =
      if p.value = [] ∨ p.valueBallot ≤ (best ps).elim 0 Promise.valueBallot then best ps
      else some p := by
  have split : kept (ps ++ [p]) =
      kept ps ++ if p.value ≠ [] ∧ p.valueBallot ≠ 0 then [p] else [] := by
    simp only [kept, List.filter_append, List.filter_cons, List.filter_nil, decide_eq_true_eq]
  by_cases usable : p.value ≠ [] ∧ p.valueBallot ≠ 0
  · rw [best, split, if_pos usable, List.argmax_concat, ← best]
    cases best ps with
    | none => simp [usable]
    | some q =>
      by_cases higher : q.valueBallot < p.valueBallot
      · simp [usable, higher]
      · simp [higher, Nat.not_lt.mp higher]
  · rw [best, split, if_neg usable, List.append_nil, ← best]
    by_cases bytes : p.value = []
    · rw [if_pos (.inl bytes)]
    · have zero : p.valueBallot = 0 := by
        by_contra reported
        exact usable ⟨bytes, reported⟩
      rw [if_pos (.inr (by omega))]

end Best

section Promises

/-- The slot after the promises `ps`, none of which completed the quorum unless `status`
says so. -/
structure Counts (old ii : PInstInfo) (iid ballot : ℕ) (status : IStatus) (ps : List Promise) : Prop where
  iid : ii.iid = iid
  status : ii.status = status
  myBallot : ii.myBallot = ballot
  promisesBitvector : ii.promisesBitvector = 0
  promisesCount : ii.promisesCount = ps.length
  p1Value : ii.p1Value = (best ps).map Promise.value
  p1ValueBallot : ii.p1ValueBallot = (best ps).elim 0 Promise.valueBallot
  p2Value : ii.p2Value = old.p2Value

theorem Fresh.counts {ii : PInstInfo} {iid ballot : ℕ} (h : Fresh ii iid ballot) :
    Counts ii ii iid ballot .p1Pending [] where
  iid := h.iid
  status := h.status
  myBallot := h.myBallot
  promisesBitvector := h.promisesBitvector
  promisesCount := h.promisesCount
  p1Value := h.p1Value
  p1ValueBallot := h.p1ValueBallot
  p2Value := rfl

theorem savePromiseValue_eq (ii : PInstInfo) (pa : PrepareAck) :
    savePromiseValue ii pa =
      if pa.value = [] ∨ pa.valueBallot ≤ ii.p1ValueBallot then ii
      else { ii with p1Value := some pa.value, p1ValueBallot := pa.valueBallot } := by
  unfold savePromiseValue
  by_cases empty : pa.value = []
  · simp [empty]
  by_cases lower : pa.valueBallot ≤ ii.p1ValueBallot
  · simp [lower]
  by_cases same : ii.p1Value = some pa.value
  · simp [empty, lower, ← same]
  · simp [empty, lower, same]

/-- A promise is always counted: `&=` leaves the bit vector empty. -/
theorem Counts.save {old ii : PInstInfo} {iid ballot : ℕ} {ps : List Promise}
    (h : Counts old ii iid ballot .p1Pending ps) (p : Promise) :
    Counts old (proSavePrepareAck ii (p.ack iid ballot) p.acceptorId) iid ballot .p1Pending
      (ps ++ [p]) := by
  have bits : ¬ ii.promisesBitvector &&& acceptorBit p.acceptorId ≠ 0 := by
    simp [h.promisesBitvector]
  have count : ii.promisesCount + 1 = (ps ++ [p]).length := by simp [h.promisesCount]
  unfold proSavePrepareAck
  rw [if_neg bits, savePromiseValue_eq]
  simp only [Promise.ack, h.p1ValueBallot, h.promisesBitvector, UInt32.zero_and]
  by_cases skip : p.value = [] ∨ p.valueBallot ≤ (best ps).elim 0 Promise.valueBallot
  · have same : best (ps ++ [p]) = best ps := by rw [best_concat, if_pos skip]
    rw [if_pos skip]
    exact
      { iid := h.iid
        status := h.status
        myBallot := h.myBallot
        promisesBitvector := rfl
        promisesCount := count
        p1Value := same ▸ h.p1Value
        p1ValueBallot := by rw [same]
        p2Value := h.p2Value }
  · have new : best (ps ++ [p]) = some p := by rw [best_concat, if_neg skip]
    rw [if_neg skip]
    exact
      { iid := h.iid
        status := h.status
        myBallot := h.myBallot
        promisesBitvector := rfl
        promisesCount := count
        p1Value := by rw [new, Option.map_some]
        p1ValueBallot := by rw [new, Option.elim_some]
        p2Value := h.p2Value }

/-- The leader after the promises `ps` for an instance of its state `s`. -/
structure Collected (cfg : Config) (s t : LeaderState) (iid ballot : ℕ) (status : IStatus)
    (ps : List Promise) : Prop where
  slot : Counts (s.proposerState (cfg.proIndex iid)) (t.proposerState (cfg.proIndex iid)) iid
    ballot status ps
  values : t.valuesHandler = s.valuesHandler
  accepts : t.acceptBuf = s.acceptBuf

variable {s t : LeaderState} {iid ballot : ℕ} {seen ps : List Promise}

theorem handlePrepareAck_pending {a : ℕ} (pa : PrepareAck)
    (pending : (t.proposerState (cfg.proIndex pa.iid)).status = .p1Pending)
    (mine : (t.proposerState (cfg.proIndex pa.iid)).myBallot = pa.ballot) :
    handlePrepareAck cfg a t pa =
      let ii := proSavePrepareAck (t.proposerState (cfg.proIndex pa.iid)) pa a
      if ii.promisesCount < cfg.quorum then
        ((t.log (.received a pa)).withSlot (cfg.proIndex pa.iid) ii, false)
      else (leaderBecameReady (t.log (.received a pa)) (cfg.proIndex pa.iid) ii, true) := by
  have slots : (t.log (.received a pa)).proposerState = t.proposerState := rfl
  simp only [handlePrepareAck, slots, pending, mine, ne_eq, not_true_eq_false, if_false]

theorem Collected.ack (h : Collected cfg s t iid ballot .p1Pending seen) (p : Promise) :
    (seen.length + 1 < cfg.quorum ∧
      ∃ u, handlePrepareAck cfg p.acceptorId t (p.ack iid ballot) = (u, false) ∧
        Collected cfg s u iid ballot .p1Pending (seen ++ [p])) ∨
    (cfg.quorum ≤ seen.length + 1 ∧
      ∃ u, handlePrepareAck cfg p.acceptorId t (p.ack iid ballot) = (u, true) ∧
        Collected cfg s u iid ballot .p1Ready (seen ++ [p])) := by
  have saved := h.slot.save p
  have count := saved.promisesCount
  rw [List.length_append, List.length_singleton] at count
  rw [handlePrepareAck_pending (p.ack iid ballot) h.slot.status h.slot.myBallot]
  dsimp only [Promise.ack] at saved count ⊢
  rw [count]
  by_cases below : seen.length + 1 < cfg.quorum
  · rw [if_pos below]
    refine .inl ⟨below, _, rfl, ?_, h.values, h.accepts⟩
    simp only [LeaderState.withSlot, setSlot_self]
    exact saved
  · rw [if_neg below]
    refine .inr ⟨Nat.not_lt.mp below, _, rfl, ?_, h.values, h.accepts⟩
    simp only [leaderBecameReady, LeaderState.withSlot, LeaderState.log, setSlot_self]
    exact { saved with status := rfl }

/-- The instance is reported ready at the last promise exactly when that completes the
quorum, and then the best promise has been kept. -/
theorem acksUntilReady_spec (h : Collected cfg s t iid ballot .p1Pending seen)
    (few : seen.length < cfg.quorum) (ps : List Promise) :
    (seen.length + ps.length = cfg.quorum →
      ∃ u, acksUntilReady cfg iid ballot t ps = some u ∧
        Collected cfg s u iid ballot .p1Ready (seen ++ ps)) ∧
    ∀ u, acksUntilReady cfg iid ballot t ps = some u → seen.length + ps.length = cfg.quorum := by
  induction ps generalizing t seen with
  | nil => exact ⟨fun all => by simp at all; omega, fun u ready => by cases ready⟩
  | cons p rest ih =>
    rw [List.length_cons]
    unfold acksUntilReady
    rcases h.ack p with ⟨below, u, handled, next⟩ | ⟨quorum, u, handled, next⟩
    · rw [handled]
      have tail := ih next (by simpa using below)
      rw [List.append_assoc, List.length_append, List.length_singleton] at tail
      exact ⟨fun all => tail.1 (by omega), fun u ready => by have := tail.2 u ready; omega⟩
    · rw [handled]
      dsimp only
      cases rest with
      | nil => exact ⟨fun _ => ⟨u, rfl, next⟩, fun _ _ => by simp; omega⟩
      | cons q rest =>
        refine ⟨fun all => ?_, fun u ready => ?_⟩
        · simp at all
          omega
        · simp at ready

end Promises

section Phase2

variable {s t : LeaderState} {iid ballot : ℕ} {ps : List Promise}

theorem Collected.sends (h : Collected cfg s t iid ballot .p1Ready ps) :
    Sends s (leaderExecuteP2 cfg clock t (cfg.proIndex iid)) iid ballot
      (((best ps).map Promise.value).or (ownValue cfg s iid)) := by
  have p1 := h.slot.p1Value
  have p2 := h.slot.p2Value
  have values := h.values
  unfold leaderExecuteP2 ownValue
  rw [← p1, ← p2, ← values]
  dsimp only
  have sent (vh : ValuesHandler) (ii : PInstInfo) (value : Value)
      (named : ii.iid = iid) (ballots : ii.myBallot = ballot) :
      Sends s (.running (leaderSendAccept cfg clock (t.withValues vh) (cfg.proIndex iid) ii value))
        iid ballot (some value) := by
    refine ⟨_, rfl, ?_⟩
    simp only [leaderSendAccept, LeaderState.withValues, LeaderState.withSlot, LeaderState.log,
      sendbufAddAcceptReq, SendBuf.content_add, h.accepts, named, ballots]
  cases found : (t.proposerState (cfg.proIndex iid)).p1Value with
  | some value => exact sent _ _ value h.slot.iid h.slot.myBallot
  | none =>
    cases own : (t.proposerState (cfg.proIndex iid)).p2Value with
    | some value => exact sent t.valuesHandler _ value h.slot.iid h.slot.myBallot
    | none =>
      cases pending : t.valuesHandler.pendingList with
      | nil =>
        simp only [vhGetNextPending, pending]
        exact ⟨t, rfl⟩
      | cons value rest =>
        simp only [vhGetNextPending, pending]
        exact sent _ _ value h.slot.iid h.slot.myBallot

theorem Sends.unique {o : LeaderOutcome} {choice choice' : Option Value}
    (h : Sends s o iid ballot choice) (h' : Sends s o iid ballot choice') : choice = choice' := by
  cases choice with
  | none =>
    obtain ⟨t, rfl⟩ := h
    cases choice' with
    | none => rfl
    | some value =>
      obtain ⟨u, running, -⟩ := h'
      cases running
  | some value =>
    obtain ⟨t, rfl, sent⟩ := h
    cases choice' with
    | none =>
      obtain ⟨u, aborted⟩ := h'
      cases aborted
    | some value' =>
      obtain ⟨u, same, sent'⟩ := h'
      cases same
      rw [sent] at sent'
      simpa using sent'

end Phase2

section Choice

variable {s : LeaderState} {iid ballot : ℕ} {ps : List Promise} {choice : Option Value}

/-- The best promise, or else the own value, is a right choice in every order. -/
def ChoosesBest (own : Option Value) (ps : List Promise) : Prop :=
  ∃ choice, Chooses own ps choice ∧ ∀ ps', ps'.Perm ps →
    choice = ((best ps').map Promise.value).or own

theorem selectsRight_iff (fresh : Fresh (s.proposerState (cfg.proIndex iid)) iid ballot)
    (all : ps.length = cfg.quorum) :
    SelectsRight cfg clock s iid ballot ps ↔ ChoosesBest (ownValue cfg s iid) ps := by
  have start : Collected cfg s s iid ballot .p1Pending [] := ⟨fresh.counts, rfl, rfl⟩
  have runs : ∀ ps', ps'.Perm ps → ∃ t, acksUntilReady cfg iid ballot s ps' = some t ∧
      Sends s (leaderExecuteP2 cfg clock t (cfg.proIndex iid)) iid ballot
        (((best ps').map Promise.value).or (ownValue cfg s iid)) := by
    intro ps' perm
    obtain ⟨t, ready, collected⟩ := (acksUntilReady_spec start cfg.quorum_pos ps').1
      (by rw [List.length_nil, perm.length_eq]; omega)
    exact ⟨t, ready, collected.sends⟩
  constructor
  · rintro ⟨choice, chooses, sends⟩
    refine ⟨choice, chooses, ?_⟩
    intro ps' perm
    obtain ⟨t, ready, sent⟩ := sends ps' perm
    obtain ⟨u, ready', sent'⟩ := runs ps' perm
    rw [ready] at ready'
    rw [← Option.some.inj ready'] at sent'
    exact sent.unique sent'
  · rintro ⟨choice, chooses, same⟩
    refine ⟨choice, chooses, ?_⟩
    intro ps' perm
    rw [same ps' perm]
    exact runs ps' perm

theorem exists_highest (reported : ∃ p ∈ ps, p.valueBallot ≠ 0) : ∃ p ∈ ps, Highest ps p := by
  obtain ⟨q, hq, nonzero⟩ := reported
  cases top : ps.argmax Promise.valueBallot with
  | none =>
    rw [List.argmax_eq_none.mp top] at hq
    cases hq
  | some p =>
    have bound : ∀ r ∈ ps, r.valueBallot ≤ p.valueBallot := fun r hr => List.le_of_mem_argmax hr top
    have := bound q hq
    exact ⟨p, List.argmax_mem top, by omega, bound⟩

section Clear

variable {own : Option Value}

theorem ChoosesBest.clear (h : ChoosesBest own ps) : ReportsClear own ps := by
  obtain ⟨choice, chooses, same⟩ := h
  by_cases silent : ∀ p ∈ ps, p.valueBallot = 0
  · exact .inl silent
  have reported : ∃ p ∈ ps, p.valueBallot ≠ 0 := by
    by_contra none
    exact silent fun p hp => by_contra fun nonzero => none ⟨p, hp, nonzero⟩
  obtain ⟨p, hp, highest, chosen⟩ := chooses.reported reported
  have here := same ps (.refl ps)
  cases top : best ps with
  | none =>
    have empty := best_eq_none.mp top
    rw [top, chosen, empty p hp highest.1] at here
    exact .inr (.inr ⟨empty, here.symm⟩)
  | some q =>
    rw [top, chosen] at here
    have bytes : p.value ≠ [] := by
      rw [Option.some.inj here]
      exact (best_mem top).2.1
    refine .inr (.inl ⟨p, hp, highest, bytes, ?_⟩)
    -- a promise as good as `p` is kept when it comes first
    intro r hr highest' bytes'
    have first := same _ (List.perm_cons_erase hr).symm
    have others : ∀ q ∈ ps.erase r, q.valueBallot ≤ r.valueBallot :=
      fun q hq => highest'.2 q (List.mem_of_mem_erase hq)
    rw [best_cons bytes' highest'.1 others, chosen] at first
    exact (Option.some.inj first).symm

theorem best_perm_eq_none (empty : ∀ p ∈ ps, p.valueBallot ≠ 0 → p.value = []) {ps' : List Promise}
    (perm : ps'.Perm ps) : best ps' = none :=
  best_eq_none.mpr fun p hp => empty p (perm.mem_iff.mp hp)

theorem choosesBest_of_silent (silent : ∀ p ∈ ps, p.valueBallot = 0) : ChoosesBest own ps := by
  refine ⟨own, ⟨?_, fun _ => rfl⟩, ?_⟩
  · rintro ⟨p, hp, reported⟩
    exact absurd (silent p hp) reported
  · intro ps' perm
    rw [best_perm_eq_none (fun p hp reported => absurd (silent p hp) reported) perm]
    rfl

theorem choosesBest_of_agreed {p : Promise} (hp : p ∈ ps) (highest : Highest ps p)
    (bytes : p.value ≠ [])
    (agreed : ∀ q ∈ ps, Highest ps q → q.value ≠ [] → q.value = p.value) :
    ChoosesBest own ps := by
  refine ⟨some p.value, ⟨fun _ => ⟨p, hp, highest, rfl⟩, fun silent => ?_⟩, ?_⟩
  · exact absurd (silent p hp) highest.1
  · intro ps' perm
    have hp' := perm.mem_iff.mpr hp
    cases top : best ps' with
    | none => exact absurd (best_eq_none.mp top p hp' highest.1) bytes
    | some q =>
      obtain ⟨hq, bytes', reported⟩ := best_mem top
      have hq := perm.mem_iff.mp hq
      have above := le_best top hp' bytes
      have highest' : Highest ps q := ⟨reported, fun r hr => (highest.2 r hr).trans above⟩
      have equal := agreed q hq highest' bytes'
      rw [Option.map_some, equal]
      rfl

theorem choosesBest_of_empty (empty : ∀ p ∈ ps, p.valueBallot ≠ 0 → p.value = [])
    (ownEmpty : own = some []) : ChoosesBest own ps := by
  refine ⟨own, ⟨?_, fun _ => rfl⟩, ?_⟩
  · intro reported
    obtain ⟨p, hp, highest⟩ := exists_highest reported
    exact ⟨p, hp, highest, by rw [ownEmpty, empty p hp highest.1]⟩
  · intro ps' perm
    rw [best_perm_eq_none empty perm]
    rfl

theorem choosesBest_iff_reportsClear : ChoosesBest own ps ↔ ReportsClear own ps := by
  constructor
  · exact ChoosesBest.clear
  · rintro (silent | ⟨p, hp, highest, bytes, agreed⟩ | ⟨empty, ownEmpty⟩)
    · exact choosesBest_of_silent silent
    · exact choosesBest_of_agreed hp highest bytes agreed
    · exact choosesBest_of_empty empty ownEmpty

end Clear

end Choice

/-- What the slots of a leader keep of their promises: none where phase 1 has not begun or
has just begun, and some where it has ended. -/
structure PromisesKept (ii : PInstInfo) : Prop where
  bits : ii.promisesBitvector = 0
  empty : ii.status = .empty →
    ii.promisesCount = 0 ∧ ii.p1Value = none ∧ ii.p1ValueBallot = 0
  pending : ii.status = .p1Pending → ii.promisesCount = 0 →
    ii.p1Value = none ∧ ii.p1ValueBallot = 0
  ended : ii.status = .p1Ready ∨ ii.status = .p2Pending → ii.promisesCount ≠ 0

theorem PromisesKept.save {ii : PInstInfo} (h : PromisesKept ii) (pa : PrepareAck) (a : ℕ) :
    (proSavePrepareAck ii pa a).promisesBitvector = 0 ∧
      (proSavePrepareAck ii pa a).promisesCount = ii.promisesCount + 1 := by
  have new : ¬ ii.promisesBitvector &&& acceptorBit a ≠ 0 := by simp [h.bits]
  unfold proSavePrepareAck
  rw [if_neg new, savePromiseValue_eq]
  split_ifs <;> simp [h.bits]

theorem PromisesKept.of_counted {ii : PInstInfo} (bits : ii.promisesBitvector = 0)
    (used : ii.status ≠ .empty) (counted : ii.promisesCount ≠ 0) : PromisesKept ii where
  bits := bits
  empty := fun empty => absurd empty used
  pending := fun _ none => absurd none counted
  ended := fun _ => counted

theorem promisesKept_move {C : MoveCondition} {s t : LeaderState}
    (h : ∀ slot, PromisesKept (s.proposerState slot)) (move : Move cfg C s t) :
    ∀ slot, PromisesKept (t.proposerState slot) := by
  have replaced : ∀ {slot : ℕ} {ii : PInstInfo}, PromisesKept ii →
      ∀ slot', PromisesKept (setSlot s.proposerState slot ii slot') := by
    intro slot ii new slot'
    rw [setSlot_apply]
    split_ifs
    · exact new
    · exact h slot'
  cases move with
  | quiet quiet =>
    rw [quiet.slots]
    exact h
  | openP1 clock iid allowed free =>
    have old := h (cfg.proIndex iid)
    have clean := old.empty free
    exact replaced ⟨old.bits, nofun, fun _ _ => clean.2, by simp⟩
  | retryP1 clock slot pending =>
    exact replaced ⟨rfl, fun empty => by simp [retryPhase1, pending] at empty,
      fun _ _ => ⟨rfl, rfl⟩, by simp [retryPhase1, pending]⟩
  | restartP1 clock slot pending =>
    have old := h slot
    exact replaced (.of_counted old.bits (by simp [restartPhase1]) (old.ended (.inr pending)))
  | complete slot pending =>
    have old := h slot
    exact replaced (.of_counted old.bits (by simp) (old.ended (.inr pending)))
  | executeP2 clock slot value ready chosen =>
    have old := h slot
    exact replaced (.of_counted old.bits (by simp) (old.ended (.inl ready)))
  | ack a pa met =>
    rcases handlePrepareAck_cases cfg a s pa with
      dropped | ⟨ii, rfl, pending, mine, ⟨below, saved⟩ | ⟨quorum, saved⟩⟩
    · rw [dropped]
      exact h
    · rw [saved]
      obtain ⟨bits, count⟩ := (h (cfg.proIndex pa.iid)).save pa a
      exact replaced (.of_counted bits (by simp [pending]) (by omega))
    · rw [saved]
      obtain ⟨bits, count⟩ := (h (cfg.proIndex pa.iid)).save pa a
      exact replaced (.of_counted bits (by simp) (by dsimp only; omega))
  | clear slot allowed => exact replaced ⟨rfl, fun _ => ⟨rfl, rfl, rfl⟩, nofun, by simp [proClearInstanceInfo]⟩
  | delivered iid value allowed => exact h

/-- In every state that a proposer reaches, a pending slot without a counted promise has just
entered phase 1. -/
theorem pending_slot_fresh (cfg : Config) (clock : ℕ → Timeval) (timeNow : Timeval)
    (proposerId : ℕ) (events : List ProposerEvent) (slot : ℕ) :
    let ii := (run (proposerStep cfg) (proposerInit cfg clock timeNow proposerId)
      events).state.leader.proposerState slot
    ii.status = .p1Pending → ii.promisesCount = 0 → Fresh ii ii.iid ii.myBallot := by
  intro ii pending none
  have start : ∀ slot, PromisesKept ((initProStructs proposerId).proposerState slot) :=
    fun _ => ⟨rfl, fun _ => ⟨rfl, rfl, rfl⟩, nofun, by simp [initProStructs]⟩
  have any : Along (proposerStep cfg) (StepMeets cfg fun _ _ _ => True)
      (proposerInit cfg clock timeNow proposerId) events := by
    apply along_of_mem
    intro event _ o
    cases o with
    | running p =>
      cases event with
      | prepareAcks acceptorId acks clock => exact fun _ => along_of_mem fun _ _ _ => trivial
      | _ => trivial
    | aborted fault p => trivial
  have kept := proposer_run_invariant clock (fun s => ∀ slot, PromisesKept (s.proposerState slot))
    timeNow proposerId start (fun _ _ => promisesKept_move) events any slot
  exact ⟨rfl, pending, rfl, kept.bits, none, (kept.pending pending none).1,
    (kept.pending pending none).2⟩

/-- From an instance that has just entered phase 1, with or without an own value, and any
promises that make it ready: phase 2 runs with the value of the highest ballot reported, the
own value only if none is reported, and does not depend on the order, exactly when
the reports are clear. -/
theorem phase2_selects_iff (cfg : Config) (clock : ℕ → Timeval) (s : LeaderState)
    (iid ballot : ℕ) (ps : List Promise)
    (fresh : Fresh (s.proposerState (cfg.proIndex iid)) iid ballot)
    (ready : ∃ t, acksUntilReady cfg iid ballot s ps = some t) :
    SelectsRight cfg clock s iid ballot ps ↔ ReportsClear (ownValue cfg s iid) ps := by
  have start : Collected cfg s s iid ballot .p1Pending [] := ⟨fresh.counts, rfl, rfl⟩
  obtain ⟨t, ready⟩ := ready
  have all := (acksUntilReady_spec start cfg.quorum_pos ps).2 t ready
  rw [List.length_nil, Nat.zero_add] at all
  rw [selectsRight_iff fresh all]
  exact choosesBest_iff_reportsClear

/-- A leader that has opened its first instances and has one value to propose. -/
def oneSubmitted : LeaderState :=
  (proposerStep .small (proposerInit .small stillClock ⟨0, 0⟩ 0) (.submit [7])).state.leader

theorem oneSubmitted_fresh :
    Fresh (oneSubmitted.proposerState (Config.small.proIndex 1)) 1 10 :=
  pending_slot_fresh .small stillClock ⟨0, 0⟩ 0 [.submit [7]] 1 (by decide +kernel)
    (by decide +kernel)

theorem own_value_selected :
    SelectsRight .small stillClock oneSubmitted 1 10 [⟨0, 0, []⟩, ⟨1, 0, []⟩] :=
  (phase2_selects_iff .small stillClock oneSubmitted 1 10 _ oneSubmitted_fresh ⟨_, rfl⟩).mpr
    (.inl (by decide))

/-- Acceptor 0 has accepted a value of no bytes at ballot 11, and the own value is proposed. -/
theorem empty_value_replaced :
    ¬ SelectsRight .small stillClock oneSubmitted 1 10 [⟨0, 11, []⟩, ⟨1, 0, []⟩] ∧
    ∃ t, acksUntilReady .small 1 10 oneSubmitted [⟨0, 11, []⟩, ⟨1, 0, []⟩] = some t ∧
      (leaderExecuteP2 .small stillClock t 1).state.acceptBuf.content = [⟨1, 10, [7]⟩] := by
  refine ⟨?_, _, rfl, by decide +kernel⟩
  rw [selectsRight_iff oneSubmitted_fresh rfl, choosesBest_iff_reportsClear]
  rintro (silent | ⟨p, hp, -, bytes, -⟩ | ⟨-, own⟩)
  · exact absurd (silent ⟨0, 11, []⟩ (by simp)) (by decide)
  · apply bytes
    rcases List.mem_cons.mp hp with rfl | hp
    · rfl
    · rw [List.mem_singleton.mp hp]
  · revert own
    decide +kernel

end FdsPaxos.Paxos2ValueSelection
