import FdsPaxos.Paxos2AcceptorMoves

set_option autoImplicit false

namespace FdsPaxos.Paxos2AcceptorVotes
open TransitionRuns Paxos2Config Paxos2Messages Paxos2SendBuffer Paxos2StableStorage
open Paxos2Acceptor Paxos2AcceptorSafety Paxos2AcceptorMoves

/-- The acceptor has stored `v` for instance `i` as accepted at ballot `b`.  A record
made by a promise alone has ballot 0 for its value, and is no vote. -/
def Voted (s : AcceptorState) (i b : ℕ) (v : Value) : Prop :=
  ∃ rec ∈ s.storage.puts, rec.iid = i ∧ rec.valueBallot = b ∧ rec.value = v ∧ 0 < b

/-- The request is not below the ballot that the acceptor holds for its instance. -/
def NotLower : AcceptCondition := fun s ar =>
  ∀ rec ∈ s.storage.db ar.iid, rec.ballot ≤ ar.ballot

instance (s : AcceptorState) (ar : AcceptReq) : Decidable (NotLower s ar) :=
  inferInstanceAs (Decidable (∀ rec ∈ s.storage.db ar.iid, _))

def Sanctioned (proposed : ℕ → ℕ → Value → Prop) : AcceptCondition := fun s ar =>
  NotLower s ar ∧ 0 < ar.ballot ∧ proposed ar.iid ar.ballot ar.value

/-- What a promise says: no vote below its ballot is above the one it reports, none will
be, and the one it reports was cast. -/
structure PromiseKept (s : AcceptorState) (pa : PrepareAck) : Prop where
  bound : ∃ rec, s.storage.db pa.iid = some rec ∧ pa.ballot ≤ rec.ballot
  highest : ∀ c v, Voted s pa.iid c v → c < pa.ballot → c ≤ pa.valueBallot
  cast : 0 < pa.valueBallot →
    Voted s pa.iid pa.valueBallot pa.value ∧ pa.valueBallot < pa.ballot

structure VotesSound (proposed : ℕ → ℕ → Value → Prop) (s : AcceptorState) : Prop where
  readable : Readable s
  history : HistorySound s
  kept : ∀ rec ∈ s.storage.puts, ∃ cur, s.storage.db rec.iid = some cur ∧
    rec.valueBallot ≤ cur.valueBallot
  ordered : ∀ i rec, s.storage.db i = some rec → rec.valueBallot ≤ rec.ballot
  blank : ∀ rec ∈ s.storage.puts, rec.valueBallot = 0 → rec.value = []
  voted : ∀ i b v, Voted s i b v → proposed i b v
  latest : 0 < s.highestAcceptedIid →
    ∃ rec, s.storage.db s.highestAcceptedIid = some rec ∧ 0 < rec.valueBallot
  acked : s.toLearners.All fun aa => 0 < aa.valueBallot
  promised : s.toProposers.All (PromiseKept s)

variable {cfg : Config} {proposed proposed' : ℕ → ℕ → Value → Prop} {s t : AcceptorState}

theorem votesSound_init (a : ℕ) : VotesSound proposed (acceptorInit a) where
  readable := readable_init a
  history := historySound_init a
  kept := fun _ h => nomatch h
  ordered := fun _ _ h => nomatch h
  blank := fun _ h => nomatch h
  voted := by
    rintro i b v ⟨_, h, _⟩
    cases h
  latest := fun h => absurd h (Nat.lt_irrefl 0)
  acked := .new
  promised := .new

theorem VotesSound.mono (h : VotesSound proposed s)
    (grown : ∀ i b v, proposed i b v → proposed' i b v) : VotesSound proposed' s :=
  { h with voted := fun i b v vote => grown i b v (h.voted i b v vote) }

theorem PromiseKept.same {pa : PrepareAck} (h : PromiseKept s pa) (same : t.storage = s.storage) :
    PromiseKept t pa := by
  obtain ⟨bound, highest, cast⟩ := h
  unfold Voted at highest cast
  refine ⟨?_, ?_, ?_⟩
  · rwa [same]
  · unfold Voted
    rwa [same]
  · unfold Voted
    rwa [same]

theorem voted_put {rec : AcceptorRecord} (saved : t.storage = put s.storage rec) {i b : ℕ}
    {v : Value} : Voted t i b v ↔
      (rec.iid = i ∧ rec.valueBallot = b ∧ rec.value = v ∧ 0 < b) ∨ Voted s i b v := by
  unfold Voted
  rw [saved]
  simp only [put_puts, List.mem_cons, or_and_right, exists_or, exists_eq_left]

theorem PromiseKept.write {pa : PrepareAck} (h : PromiseKept s pa) {rec : AcceptorRecord}
    (saved : t.storage = put s.storage rec)
    (higher : ∀ old, s.storage.db rec.iid = some old → old.ballot ≤ rec.ballot)
    (vote : rec.valueBallot = 0 ∨ Voted s rec.iid rec.valueBallot rec.value ∨
      rec.valueBallot = rec.ballot) : PromiseKept t pa where
  bound := by
    obtain ⟨old, found, below⟩ := h.bound
    rw [saved, put_db]
    split_ifs with here
    · exact ⟨rec, rfl, below.trans (higher old (here ▸ found))⟩
    · exact ⟨old, found, below⟩
  highest := by
    intro c v voted lower
    rcases (voted_put saved).mp voted with ⟨iid, rfl, value, pos⟩ | voted
    · rcases vote with zero | older | own
      · omega
      · exact h.highest _ _ (iid ▸ older) lower
      · -- the vote is cast at the ballot of the new record, which is not lower
        obtain ⟨old, found, below⟩ := h.bound
        have := higher old (iid ▸ found)
        omega
    · exact h.highest c v voted lower
  cast := by
    intro pos
    obtain ⟨voted, lower⟩ := h.cast pos
    exact ⟨(voted_put saved).mpr (.inr voted), lower⟩

theorem VotesSound.write (h : VotesSound proposed s) {rec : AcceptorRecord}
    (saved : t.storage = put s.storage rec) (readable : Readable t) (history : HistorySound t)
    (grows : ∀ old, s.storage.db rec.iid = some old → old.valueBallot ≤ rec.valueBallot)
    (ordered : rec.valueBallot ≤ rec.ballot) (blank : rec.valueBallot = 0 → rec.value = [])
    (voted : ∀ i b v, Voted t i b v → proposed i b v)
    (latest : 0 < t.highestAcceptedIid → t.highestAcceptedIid = rec.iid ∧ 0 < rec.valueBallot ∨
      t.highestAcceptedIid = s.highestAcceptedIid)
    (acked : t.toLearners.All fun aa => 0 < aa.valueBallot)
    (promised : t.toProposers.All (PromiseKept t)) : VotesSound proposed t where
  readable := readable
  history := history
  kept := by
    rw [saved]
    intro r hr
    rw [put_puts] at hr
    simp only [put_db]
    rcases List.mem_cons.mp hr with rfl | hr
    · exact ⟨r, if_pos rfl, le_refl _⟩
    · obtain ⟨cur, found, below⟩ := h.kept r hr
      split_ifs with here
      · exact ⟨rec, rfl, below.trans (grows cur (here ▸ found))⟩
      · exact ⟨cur, found, below⟩
  ordered := by
    rw [saved]
    intro i r found
    rw [put_db] at found
    split_ifs at found
    · cases found
      exact ordered
    · exact h.ordered i r found
  blank := by
    rw [saved]
    exact List.forall_mem_cons.mpr ⟨blank, h.blank⟩
  voted := voted
  latest := by
    intro pos
    rw [saved]
    simp only [put_db]
    rcases latest pos with ⟨here, vote⟩ | same
    · exact ⟨rec, if_pos here, vote⟩
    · rw [same] at pos ⊢
      obtain ⟨cur, found, vote⟩ := h.latest pos
      split_ifs with here
      · exact ⟨rec, rfl, lt_of_lt_of_le vote (grows cur (here ▸ found))⟩
      · exact ⟨cur, found, vote⟩
  acked := acked
  promised := promised

/-- A record that keeps the value of the one it replaces, as that of a promise does. -/
def CarriesOver (s : AcceptorState) (rec : AcceptorRecord) : Prop :=
  (s.storage.db rec.iid = none ∧ rec.valueBallot = 0 ∧ rec.value = []) ∨
    ∃ old, s.storage.db rec.iid = some old ∧ rec.valueBallot = old.valueBallot ∧
      rec.value = old.value

theorem carriesOver_prepareRecord {pr : PrepareReq} {rec : AcceptorRecord}
    (made : rec = prepareRecord pr (s.storage.db pr.iid)) (iid : rec.iid = pr.iid) :
    CarriesOver s rec := by
  unfold CarriesOver
  rw [iid]
  cases found : s.storage.db pr.iid with
  | none =>
    rw [made, found]
    exact .inl ⟨rfl, rfl, rfl⟩
  | some old =>
    rw [made, found]
    exact .inr ⟨old, rfl, rfl, rfl⟩

theorem CarriesOver.keeps {rec old : AcceptorRecord} (kept : CarriesOver s rec)
    (found : s.storage.db rec.iid = some old) :
    rec.valueBallot = old.valueBallot ∧ rec.value = old.value := by
  rcases kept with ⟨none, -, -⟩ | ⟨old', found', same⟩
  · rw [none] at found
    cases found
  · rw [found'] at found
    cases found
    exact same

theorem VotesSound.repeats (h : VotesSound proposed s) {rec : AcceptorRecord}
    (kept : CarriesOver s rec) :
    rec.valueBallot = 0 ∨ Voted s rec.iid rec.valueBallot rec.value := by
  rcases kept with ⟨-, zero, -⟩ | ⟨old, found, ballot, value⟩
  · exact .inl zero
  · rcases Nat.eq_zero_or_pos rec.valueBallot with zero | pos
    · exact .inl zero
    · exact .inr ⟨old, h.history.stored _ _ found, s.storage.db_iid _ _ found, ballot.symm,
        value.symm, pos⟩

theorem VotesSound.voted_of_put (h : VotesSound proposed s) {rec : AcceptorRecord}
    (kept : CarriesOver s rec) (saved : t.storage = put s.storage rec) {i b : ℕ} {v : Value}
    (voted : Voted t i b v) : Voted s i b v := by
  rcases (voted_put saved).mp voted with ⟨rfl, rfl, rfl, pos⟩ | voted
  · exact (h.repeats kept).resolve_left (by omega)
  · exact voted

theorem VotesSound.blank_of_put (h : VotesSound proposed s) {rec : AcceptorRecord}
    (kept : CarriesOver s rec) (zero : rec.valueBallot = 0) : rec.value = [] := by
  rcases kept with ⟨-, -, empty⟩ | ⟨old, found, ballot, value⟩
  · exact empty
  · rw [value]
    exact h.blank old (h.history.stored _ _ found) (ballot ▸ zero)

theorem VotesSound.promise (h : VotesSound proposed s) {rec : AcceptorRecord}
    (kept : CarriesOver s rec) (saved : t.storage = put s.storage rec)
    (below : rec.valueBallot < rec.ballot ∨ rec.valueBallot = 0) :
    PromiseKept t ⟨rec.iid, rec.ballot, rec.valueBallot, rec.value⟩ where
  bound := ⟨rec, by simp [saved, put_db], le_refl _⟩
  highest := by
    rintro c v voted -
    obtain ⟨r, hr, hi, rfl, -, -⟩ := h.voted_of_put kept saved voted
    obtain ⟨cur, found, highest⟩ := h.kept r hr
    change r.iid = rec.iid at hi
    rw [hi] at found
    exact (kept.keeps found).1 ▸ highest
  cast := by
    intro pos
    change 0 < rec.valueBallot at pos
    refine ⟨(voted_put saved).mpr (.inr ((h.repeats kept).resolve_left pos.ne')), ?_⟩
    exact below.resolve_right pos.ne'

theorem VotesSound.prepare (h : VotesSound proposed s) (pr : PrepareReq) :
    VotesSound proposed (handlePrepareReq cfg s pr) := by
  have readable : Readable (handlePrepareReq cfg s pr) := h.readable.handlePrepareReq pr
  have history : HistorySound (handlePrepareReq cfg s pr) :=
    historySound_move h.history (Move.prepare (C := anyRequest) s pr)
  rcases handlePrepareReq_cases cfg s pr with same | ⟨rec, made, higher, saved⟩
  · rwa [same]
  · rw [saved] at readable history ⊢
    have iid : rec.iid = pr.iid := made ▸ prepareRecord_iid pr
    have ballot : rec.ballot = pr.ballot := made ▸ prepareRecord_ballot pr _
    rw [h.readable.getRecord] at made higher
    set t : AcceptorState :=
      { s with
        storage := put s.storage rec
        toProposers := sendbufAddPrepareAck cfg s.toProposers rec } with ht
    have stored : t.storage = put s.storage rec := rfl
    have kept : CarriesOver s rec := carriesOver_prepareRecord made iid
    have above : ∀ old, s.storage.db rec.iid = some old → old.ballot < rec.ballot := by
      intro old found
      rw [ballot]
      exact higher old (iid ▸ found)
    have below : rec.valueBallot < rec.ballot ∨ rec.valueBallot = 0 := by
      rcases kept with ⟨-, zero, -⟩ | ⟨old, found, sameBallot, -⟩
      · exact .inr zero
      · have := h.ordered _ _ found
        have := above old found
        omega
    refine h.write stored readable history (fun old found => (kept.keeps found).1.ge) ?_
      (h.blank_of_put kept) ?_ (fun _ => .inr rfl) h.acked ?_
    · omega
    · exact fun i b v voted => h.voted i b v (h.voted_of_put kept stored voted)
    · refine SendBuf.All.add (h.promised.mono fun pa old => ?_) cfg _ (h.promise kept stored below)
      exact old.write stored (fun old found => (above old found).le)
        ((h.repeats kept).imp_right .inl)

theorem VotesSound.accept (h : VotesSound proposed s) (ar : AcceptReq)
    (met : Sanctioned proposed s ar) : VotesSound proposed (handleAcceptReq cfg s ar) := by
  obtain ⟨notLower, pos, isProposed⟩ := met
  have readable : Readable (handleAcceptReq cfg s ar) := h.readable.handleAcceptReq ar
  have history : HistorySound (handleAcceptReq cfg s ar) :=
    historySound_move h.history (Move.accept (C := anyRequest) s ar trivial)
  rcases handleAcceptReq_cases cfg s ar with ⟨_, _, _, same⟩ | ⟨_, saved⟩
  · rwa [same]
  · rw [saved] at readable history ⊢
    set t : AcceptorState :=
      { s with
        storage := put s.storage (acceptRecord ar)
        highestAcceptedIid :=
          if s.highestAcceptedIid < ar.iid then ar.iid else s.highestAcceptedIid
        toLearners := sendbufAddAcceptAck cfg s.toLearners (acceptRecord ar) } with ht
    have stored : t.storage = put s.storage (acceptRecord ar) := rfl
    refine h.write stored readable history ?_ (le_refl _) ?_ ?_ ?_ ?_ ?_
    · intro old found
      exact (h.ordered _ _ found).trans (notLower old found)
    · intro zero
      have : ar.ballot = 0 := zero
      omega
    · intro i b v voted
      rcases (voted_put stored).mp voted with ⟨rfl, rfl, rfl, -⟩ | voted
      · exact isProposed
      · exact h.voted i b v voted
    · intro _
      by_cases later : s.highestAcceptedIid < ar.iid
      · exact .inl ⟨if_pos later, pos⟩
      · exact .inr (if_neg later)
    · exact h.acked.add cfg _ pos
    · exact h.promised.mono fun pa old => old.write stored notLower (.inr (.inr rfl))

theorem votesSound_move (h : VotesSound proposed s)
    (move : Move cfg (Sanctioned proposed) s t) : VotesSound proposed t := by
  have history : HistorySound t := historySound_move h.history move
  cases move with
  | quiet quiet =>
    have same := quiet.storage
    have readable : Readable t := by
      intro i
      rw [same]
      exact h.readable i
    refine ⟨readable, history, ?_, ?_, ?_, ?_, ?_, quiet.acks _ h.acked,
      quiet.promises _ (h.promised.mono fun pa kept => kept.same same)⟩
    · exact same ▸ h.kept
    · exact same ▸ h.ordered
    · exact same ▸ h.blank
    · unfold Voted
      rw [same]
      exact h.voted
    · rw [quiet.highest, same]
      exact h.latest
  | prepare pr => exact h.prepare pr
  | accept ar met => exact h.accept ar met
  | resend rec found =>
    have vote : 0 < rec.valueBallot := by
      rcases found.2 with value | ⟨pos, latest⟩
      · refine Nat.pos_of_ne_zero fun zero => ?_
        rw [h.blank rec (h.history.stored _ _ found.1) zero] at value
        exact absurd value (Nat.lt_irrefl 0)
      · obtain ⟨cur, found', vote⟩ := h.latest pos
        rw [← latest, found.1] at found'
        cases found'
        exact vote
    exact
      { h with
        history := history
        acked := h.acked.add cfg _ vote
        promised := h.promised.mono fun pa kept => kept.same rfl }

theorem votesSound_moves (h : Moves cfg (Sanctioned proposed) s t)
    (start : VotesSound proposed s) : VotesSound proposed t :=
  h.invariant (VotesSound proposed) (fun _ _ h move => votesSound_move h move) start

end FdsPaxos.Paxos2AcceptorVotes
