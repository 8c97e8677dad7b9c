import FdsPaxos.RingSentGrowth
import FdsPaxos.RingSubmissionOrder
import FdsPaxos.RingValueOrigin
import FdsPaxos.RingWireWorld

set_option autoImplicit false

namespace FdsPaxos.RingWireRefinement
open StructLayout ByteMemory TransitionRuns RingConfig RingMessages RingStableStorage RingAcceptor
open RingMcasterStorage RingMulticaster RingDeliveryQueue RingWorld RingPackets RingCommandSize
open RingWire RingLink RingWireWorld RingSentGrowth RingValueOrigin RingSubmissionOrder

variable {cfg : Config} {late : ℕ → Bool} {H : List Value} {R : Prop}
  {w w' : RingState}

/-- Clients submit commands in `H` only, and the multicaster is restarted only where `R` says
so. -/
structure Allowed (H : List Value) (R : Prop) (e : RingEvent) : Prop where
  submits : ∀ v, submittedBy e = some v → v ∈ H
  restarts : e = .restart → R

def Follows (cfg : Config) (H : List Value) (R : Prop) (w w' : RingState) : Prop :=
  ∃ events, run (ringStep cfg) w events = w' ∧ ∀ e ∈ events, Allowed H R e

theorem allowed_of_neither {e : RingEvent} (brings : submittedBy e = none) (goesOn : e ≠ .restart) :
    Allowed H R e :=
  ⟨fun v brought => absurd (brings.symm.trans brought) (by simp), fun same => absurd same goesOn⟩

theorem Follows.refl (w : RingState) : Follows cfg H R w w := ⟨[], rfl, by simp⟩

theorem Follows.trans {w'' : RingState} (h : Follows cfg H R w w') (h' : Follows cfg H R w' w'') :
    Follows cfg H R w w'' := by
  obtain ⟨events, ran, allowed⟩ := h
  obtain ⟨events', ran', allowed'⟩ := h'
  refine ⟨events ++ events', by rw [run_append, ran, ran'], ?_⟩
  exact List.forall_mem_append.mpr ⟨allowed, allowed'⟩

theorem Follows.single {e : RingEvent} (done : ringStep cfg w e = w') (allowed : Allowed H R e) :
    Follows cfg H R w w' :=
  ⟨[e], done, List.forall_mem_singleton.mpr allowed⟩

theorem Follows.invariant (I : RingState → Prop) (h : Follows cfg H R w w') (start : I w)
    (kept : ∀ w e, I w → Allowed H R e → I (ringStep cfg w e)) : I w' := by
  obtain ⟨events, rfl, allowed⟩ := h
  have all : Along (ringStep cfg) (fun _ e => Allowed H R e) w events :=
    along_of_mem fun e he _ => allowed e he
  exact all.invariant I start kept

theorem Follows.asking (h : Follows cfg H R (ringInit late) w) (l : ℕ) :
    Asking [] (w.learners l).state := by
  refine h.invariant (fun w => ∀ l, Asking [] (w.learners l).state)
    (fun l => asking_init (late l)) (fun w e asking _ l => ?_) l
  unfold ringStep
  split_ifs
  · exact (asking l).step cfg l e
  · exact asking l

theorem Follows.values (h : Follows cfg H R (ringInit late) w) : WorldFrom (· ∈ H) w :=
  h.invariant (WorldFrom (· ∈ H)) (worldFrom_init late) fun _ e good allowed =>
    worldFrom_step good e allowed.submits

theorem submittedBy_of_taken {e : RingEvent} {v : Value} (taken : v ∈ valueTaken w e) :
    submittedBy e = some v := by
  cases e with
  | submit value =>
    unfold valueTaken at taken
    dsimp only at taken
    split at taken
    · split_ifs at taken
      · rw [List.mem_singleton.mp taken]
        rfl
      · exact absurd taken (by simp)
    · exact absurd taken (by simp)
  | periodicCheck | toMcaster | request | restart | toAcceptor | mcastAcceptor | mcastLearner
  | deliverLoop | gapCheck => exact absurd taken (by simp [valueTaken])

theorem Follows.placed (h : Follows cfg H R (ringInit late) w) (goesOn : ¬ R) :
    ∃ order, Placed cfg late order w ∧ ∀ v ∈ order, v ∈ H := by
  refine h.invariant (fun w => ∃ order, Placed cfg late order w ∧ ∀ v ∈ order, v ∈ H)
    ⟨[], placed_init cfg late, by simp⟩ ?_
  rintro w e ⟨order, placed, known⟩ allowed
  by_cases possible : Possible cfg w e
  · refine ⟨_, placed_step placed e possible fun restart => goesOn (allowed.restarts restart), ?_⟩
    refine List.forall_mem_append.mpr ⟨known, fun v taken => allowed.submits v ?_⟩
    exact submittedBy_of_taken taken
  · refine ⟨order, ?_, known⟩
    rw [ringStep, if_neg possible]
    exact placed

theorem sentOn_step (asking : ∀ l, Asking [] (w.learners l).state) (e : RingEvent)
    (id : SenderId) : sentOn w id <:+ sentOn (ringStep cfg w e) id := by
  unfold ringStep
  split_ifs
  · cases id with
    | mcasterSucc => exact (mcasterStep_grows cfg w.mcaster e).ring.map _
    | mcast => exact (mcasterStep_grows cfg w.mcaster e).mcast.map _
    | acceptor a => exact (acceptorStep_grows cfg a (w.acceptors a) e).map _
    | learner l => exact ((asking l).later.step cfg l e).grows.map _
    | client c => exact List.suffix_refl _
  · exact List.suffix_refl _

theorem Follows.grows (h : Follows cfg H R w w') (reached : Follows cfg H R (ringInit late) w)
    (id : SenderId) : sentOn w id <:+ sentOn w' id := by
  have both := h.invariant
    (fun w' => Follows cfg H R (ringInit late) w' ∧ sentOn w id <:+ sentOn w' id)
    ⟨reached, List.suffix_refl _⟩ fun u e kept allowed =>
      ⟨kept.1.trans (.single rfl allowed), kept.2.trans (sentOn_step kept.1.asking e id)⟩
  exact both.2

def Sent (H : List Value) (w : RingState) (id : SenderId) (m : WireMsg) : Prop :=
  m ∈ sentOn w id ∨ (∃ c, id = .client c) ∧ ∃ v ∈ H, m = .clientSubmit v

def Holds (H : List Value) (w : RingState) (id : SenderId) (us : UdpSender) : Prop :=
  ∃ ms, Loaded us ms ∧ ∀ m ∈ ms, Sent H w id m

section Datagrams

variable {id : SenderId} {us : UdpSender} {m : WireMsg}

theorem Sent.later (h : Sent H w id m) (reached : Follows cfg H R (ringInit late) w)
    (follows : Follows cfg H R w w') : Sent H w' id m :=
  h.imp_left fun sent => (follows.grows reached id).subset sent

theorem Holds.later (h : Holds H w id us) (reached : Follows cfg H R (ringInit late) w)
    (follows : Follows cfg H R w w') : Holds H w' id us := by
  obtain ⟨ms, loaded, sent⟩ := h
  exact ⟨ms, loaded, fun m hm => (sent m hm).later reached follows⟩

theorem Holds.brings (h : Holds H w id us) {datagram : List UInt8} (sent : datagram ∈ us.sent) :
    ∃ ms, Brings datagram ms ∧ ms ≠ [] ∧ ∀ m ∈ ms, Sent H w id m := by
  obtain ⟨ms, loaded, all⟩ := h
  obtain ⟨batches, rest, brings, rfl, -⟩ := loaded.batches
  obtain ⟨i, inside, rfl⟩ := List.getElem_of_mem sent
  have inside' : i < batches.length := brings.length_eq ▸ inside
  have here : Brings us.sent[i] batches[i] := brings.get inside inside'
  refine ⟨batches[i], here, here.ne_nil (loaded.nonempty _ sent), fun m hm => all m ?_⟩
  exact List.mem_append_left _ (List.mem_flatten_of_mem (List.getElem_mem inside') hm)

theorem sentOn_ringSource (w : RingState) (a : ℕ) :
    sentOn w (ringSource cfg a) = (ringSent cfg w a).map ofRing := by
  unfold ringSource ringSent
  split_ifs <;> rfl

theorem sent_ringSource {a : ℕ} (h : Sent H w (ringSource cfg a) m) :
    ∃ msg ∈ ringSent cfg w a, m = ofRing msg := by
  rcases h with sent | ⟨⟨c, same⟩, -⟩
  · rw [sentOn_ringSource] at sent
    obtain ⟨msg, found, rfl⟩ := List.mem_map.mp sent
    exact ⟨msg, found, rfl⟩
  · unfold ringSource at same
    split_ifs at same

theorem sent_mcast (h : Sent H w .mcast m) : ∃ msg ∈ w.mcaster.state.mcast, m = ofMcast msg := by
  rcases h with sent | ⟨⟨c, same⟩, -⟩
  · obtain ⟨msg, found, rfl⟩ := List.mem_map.mp sent
    exact ⟨msg, found, rfl⟩
  · cases same

theorem sent_learner {l : ℕ} (h : Sent H w (.learner l) m) :
    ∃ msg ∈ (w.learners l).state.requests, m = ofRequest msg := by
  rcases h with sent | ⟨⟨c, same⟩, -⟩
  · obtain ⟨msg, found, rfl⟩ := List.mem_map.mp sent
    exact ⟨msg, found, rfl⟩
  · cases same

end Datagrams

section Listen

variable {α σ : Type*} {takes : σ → LpMsgType → Bool} {handle : σ → WireMsg → Outcome α σ}

theorem hearDatagram_of_brings {datagram : List UInt8} {ms : List WireMsg} (h : Brings datagram ms)
    (buf : Memory) (o : Outcome α σ) :
    hearDatagram takes handle buf datagram o =
      .running (o.bind fun s => hearAll takes handle s ms) := by
  cases o with
  | aborted fault s => rfl
  | running s =>
    unfold hearDatagram
    dsimp only
    rw [receive_of_brings takes handle h, Outcome.bind_running]
    cases hearAll takes handle s ms <;> rfl

theorem follows_hearAll (put : Outcome α σ → RingState) {id : SenderId}
    (turn : ∀ s m, Sent H (put (.running s)) id m →
      Follows cfg H R (put (.running s)) (put (hear takes handle s m)))
    (o : Outcome α σ) (ms : List WireMsg) (reached : Follows cfg H R (ringInit late) (put o))
    (sent : ∀ m ∈ ms, Sent H (put o) id m) :
    Follows cfg H R (put o) (put (o.bind fun s => hearAll takes handle s ms)) := by
  cases o with
  | aborted fault s => exact .refl _
  | running s =>
    rw [Outcome.bind_running]
    induction ms generalizing s with
    | nil => exact .refl _
    | cons m ms ih =>
      obtain ⟨head, tail⟩ := List.forall_mem_cons.mp sent
      have first := turn s m head
      unfold hearAll
      rw [Outcome.fold_cons]
      generalize hear takes handle s m = o at first ⊢
      cases o with
      | aborted fault t => exact first
      | running t =>
        refine first.trans (ih t (reached.trans first) fun m hm => ?_)
        exact (tail m hm).later reached first

end Listen

section Turns

variable {id : SenderId} {m : WireMsg}

theorem mcaster_turn (w : RingState) (toMcaster : ToMcaster cfg id) (s : Mcaster)
    (clock : Timeval) (sent : Sent H (withMcaster w (.running s)) id m) :
    Follows cfg H R (withMcaster w (.running s)) (withMcaster w
      (hear mcasterTakes (mcasterHandle cfg) (mcasterUpdateWallclock s clock) m)) := by
  have along (sent : Sent H (withMcaster w (.running s)) (ringSource cfg 1) m) :
      Follows cfg H R (withMcaster w (.running s)) (withMcaster w
        (hear mcasterTakes (mcasterHandle cfg) (mcasterUpdateWallclock s clock) m)) := by
    obtain ⟨msg, found, rfl⟩ := sent_ringSource sent
    refine .single (e := .toMcaster msg clock) ?_ (allowed_of_neither rfl (by simp))
    have possible : Possible cfg (withMcaster w (.running s)) (.toMcaster msg clock) := found
    unfold ringStep
    rw [if_pos possible]
    cases msg <;> rfl
  rcases toMcaster with rfl | asks
  · exact along sent
  · cases id with
    | learner l =>
      obtain ⟨msg, found, rfl⟩ := sent_learner sent
      refine .single (e := .request l msg clock) ?_ (allowed_of_neither rfl (by simp))
      have possible : Possible cfg (withMcaster w (.running s)) (.request l msg clock) := found
      unfold ringStep
      rw [if_pos possible]
      cases msg <;> rfl
    | mcasterSucc | mcast | acceptor | client => exact asks.elim

theorem client_turn (w : RingState) {c : ℕ} (s : Mcaster)
    (sent : Sent H (withMcaster w (.running s)) (.client c) m) :
    Follows cfg H R (withMcaster w (.running s))
      (withMcaster w (hear clientTakes clientHandle s m)) := by
  rcases sent with none | ⟨-, v, known, rfl⟩
  · cases none
  · refine .single (e := .submit v) (if_pos trivial) ⟨fun v' brought => ?_, by simp⟩
    cases brought
    exact known

theorem acceptorStep_at (w : RingState) (a : ℕ) (s : RingAcceptor) {e : RingEvent}
    {o : AcceptorOutcome} (possible : Possible cfg (withAcceptor w a (.running s)) e)
    (mcaster : mcasterStep cfg w.mcaster e = w.mcaster)
    (learners : ∀ l, learnerStep cfg l (w.learners l) e = w.learners l)
    (own : acceptorStep cfg a (.running s) e = o)
    (others : ∀ a' o, a' ≠ a → acceptorStep cfg a' o e = o) :
    ringStep cfg (withAcceptor w a (.running s)) e = withAcceptor w a o := by
  unfold ringStep
  rw [if_pos possible]
  unfold withAcceptor
  congr 1
  · funext a'
    by_cases here : a' = a
    · subst here
      simpa using own
    · simpa [here] using others a' _ here
  · exact funext learners

theorem acceptor_turn (w : RingState) {a : ℕ} (inRing : cfg.InRing a) (p : WithStacks)
    (sent : Sent H (withAcceptor w a (.running p.1)) (ringSource cfg a) m) :
    Follows cfg H R (withAcceptor w a (.running p.1))
      (withAcceptor w a ((hear acceptorTakes (acceptorHandle cfg) p m).map Prod.fst)) := by
  obtain ⟨msg, found, rfl⟩ := sent_ringSource sent
  have handled : (hear acceptorTakes (acceptorHandle cfg) p (ofRing msg)).map Prod.fst =
      RingAcceptor.onPredecessorMsg cfg p.1 (p.2 0) msg := by
    have same : hear acceptorTakes (acceptorHandle cfg) p (ofRing msg) =
        (RingAcceptor.onPredecessorMsg cfg p.1 (p.2 0) msg).map fun s =>
          (s, fun k => p.2 (k + 1)) := by
      cases msg <;> rfl
    rw [same]
    cases RingAcceptor.onPredecessorMsg cfg p.1 (p.2 0) msg <;> rfl
  refine .single (e := .toAcceptor a msg (p.2 0)) ?_ (allowed_of_neither rfl (by simp))
  rw [handled]
  exact acceptorStep_at w a p.1 ⟨inRing, found⟩ rfl (fun _ => rfl) (if_pos rfl)
    fun _ _ other => if_neg other

theorem acceptorMcast_turn (w : RingState) {a : ℕ} (inRing : cfg.InRing a) (s : RingAcceptor)
    (sent : Sent H (withAcceptor w a (.running s)) .mcast m) :
    Follows cfg H R (withAcceptor w a (.running s))
      (withAcceptor w a (hear mcastTakes (mcastHandle cfg) s m)) := by
  obtain ⟨msg, found, rfl⟩ := sent_mcast sent
  have handled : hear mcastTakes (mcastHandle cfg) s (ofMcast msg) = onMulticastMsg cfg s msg := by
    cases msg with
    | commandMap msg => rfl
    | acceptance msg => rfl
    | phase2 msg => simp [hear, ofMcast, WireMsg.type, mcastTakes, mcastHandle, onMulticastMsg]
  refine .single (e := .mcastAcceptor a msg) ?_ (allowed_of_neither rfl (by simp))
  rw [handled]
  exact acceptorStep_at w a s ⟨inRing, found⟩ rfl (fun _ => rfl) (if_pos rfl)
    fun _ _ other => if_neg other

theorem learnerStep_at (w : RingState) (l : ℕ) (q : Learner) {e : RingEvent} {o : LearnerOutcome}
    (possible : Possible cfg (withLearner w l (.running q)) e)
    (mcaster : mcasterStep cfg w.mcaster e = w.mcaster)
    (acceptors : ∀ a, acceptorStep cfg a (w.acceptors a) e = w.acceptors a)
    (own : learnerStep cfg l (.running q) e = o)
    (others : ∀ l' o, l' ≠ l → learnerStep cfg l' o e = o) :
    ringStep cfg (withLearner w l (.running q)) e = withLearner w l o := by
  unfold ringStep
  rw [if_pos possible]
  unfold withLearner
  congr 1
  · exact funext acceptors
  · funext l'
    by_cases here : l' = l
    · subst here
      simpa using own
    · simpa [here] using others l' _ here

theorem learner_turn (w : RingState) {l : ℕ} (q : Learner)
    (sent : Sent H (withLearner w l (.running q)) .mcast m) :
    Follows cfg H R (withLearner w l (.running q))
      (withLearner w l (hear learnerTakes (learnerHandle cfg) q m)) := by
  obtain ⟨msg, found, rfl⟩ := sent_mcast sent
  have handled : hear learnerTakes (learnerHandle cfg) q (ofMcast msg) =
      onMcastMsg cfg.workingSetSize q msg := by
    cases msg <;> rfl
  refine .single (e := .mcastLearner l msg) ?_ (allowed_of_neither rfl (by simp))
  rw [handled]
  exact learnerStep_at w l q found rfl (fun _ => rfl) (if_pos rfl) fun _ _ other => if_neg other

end Turns

/-- What holds in every state of the ring with its datagrams. -/
structure Linked (cfg : Config) (late : ℕ → Bool) (H : List Value) (R : Prop) (W : WireState) :
    Prop where
  reached : Follows cfg H R (ringInit late) W.ring
  senders : ∀ id, Holds H W.ring id (W.senders id)

section Action

variable {W : WireState} {datagram : List UInt8}

theorem withAcceptor_self (w : RingState) (a : ℕ) : withAcceptor w a (w.acceptors a) = w := by
  unfold withAcceptor
  rw [Function.update_eq_self]

theorem withLearner_self (w : RingState) (l : ℕ) : withLearner w l (w.learners l) = w := by
  unfold withLearner
  rw [Function.update_eq_self]

theorem Linked.mcasterDatagram (h : Linked cfg late H R W) {id : SenderId}
    (toMcaster : ToMcaster cfg id) (sent : datagram ∈ (W.senders id).sent) (buf : Memory)
    (clock : Timeval) :
    ∃ w, ringAfter cfg W.ring (.mcasterDatagram id datagram buf clock) = .running w ∧
      Follows cfg H R W.ring w := by
  obtain ⟨ms, brings, nonempty, all⟩ := (h.senders id).brings sent
  refine ⟨_, congrArg (Outcome.map (withMcaster W.ring)) (hearDatagram_of_brings brings buf _), ?_⟩
  have reached := h.reached
  have self : withMcaster W.ring W.ring.mcaster = W.ring := rfl
  generalize W.ring.mcaster = o at self ⊢
  cases o with
  | aborted fault s =>
    rw [Outcome.bind_aborted, Outcome.bind_aborted, self]
    exact .refl _
  | running s =>
    rw [Outcome.bind_running, Outcome.bind_running]
    cases ms with
    | nil => exact absurd rfl nonempty
    | cons m ms =>
      obtain ⟨head, tail⟩ := List.forall_mem_cons.mp all
      rw [← self] at head reached
      have first : Follows cfg H R _ _ := mcaster_turn W.ring toMcaster s clock head
      have rest := follows_hearAll (withMcaster W.ring)
        (fun s m sent => mcaster_turn W.ring toMcaster s s.mcasterClock sent)
        (hear mcasterTakes (mcasterHandle cfg) (mcasterUpdateWallclock s clock) m) ms
        (reached.trans first) fun m hm => by
          have later := tail m hm
          rw [← self] at later
          exact later.later reached first
      rw [self] at first
      exact first.trans rest

theorem Linked.ringAfter (h : Linked cfg late H R W) {action : WireAction}
    (arrives : Arrives cfg W action) (restarts : action = .restart → R) :
    ∃ w, ringAfter cfg W.ring action = .running w ∧ Follows cfg H R W.ring w := by
  cases action with
  | submit c value => exact ⟨_, rfl, .refl _⟩
  | flush id => exact ⟨_, rfl, .refl _⟩
  | periodicCheck clock =>
    exact ⟨_, rfl, .single (e := .periodicCheck clock) (if_pos trivial)
      (allowed_of_neither rfl (by simp))⟩
  | restart =>
    exact ⟨_, rfl, .single (e := .restart) (if_pos trivial) ⟨by simp [submittedBy],
      fun _ => restarts rfl⟩⟩
  | mcasterDatagram id datagram buf clock => exact h.mcasterDatagram arrives.1 arrives.2 buf clock
  | clientDatagram c datagram buf =>
    obtain ⟨ms, brings, -, all⟩ := (h.senders _).brings arrives
    refine ⟨_, congrArg (Outcome.map (withMcaster W.ring))
      (hearDatagram_of_brings brings buf _), ?_⟩
    exact follows_hearAll (withMcaster W.ring) (fun s m sent => client_turn W.ring s sent)
      W.ring.mcaster ms h.reached all
  | acceptorDatagram a datagram buf frames =>
    obtain ⟨inRing, sent⟩ := arrives
    obtain ⟨ms, brings, -, all⟩ := (h.senders _).brings sent
    refine ⟨_, congrArg (Outcome.map fun o : Outcome AcceptorFault WithStacks =>
      withAcceptor W.ring a (o.map Prod.fst)) (hearDatagram_of_brings brings buf _), ?_⟩
    have self : withAcceptor W.ring a
        (((W.ring.acceptors a).map fun s => (s, frames)).map Prod.fst) = W.ring := by
      have same : ((W.ring.acceptors a).map fun s => (s, frames)).map Prod.fst =
          W.ring.acceptors a := by
        cases W.ring.acceptors a <;> rfl
      rw [same]
      exact withAcceptor_self W.ring a
    have reached := h.reached
    rw [← self] at reached all
    have heard := follows_hearAll
      (fun o : Outcome AcceptorFault WithStacks => withAcceptor W.ring a (o.map Prod.fst))
      (fun p m sent => acceptor_turn W.ring inRing p sent)
      ((W.ring.acceptors a).map fun s => (s, frames)) ms reached all
    rw [self] at heard
    exact heard
  | acceptorMcast a datagram buf =>
    obtain ⟨inRing, sent⟩ := arrives
    obtain ⟨ms, brings, -, all⟩ := (h.senders _).brings sent
    refine ⟨_, congrArg (Outcome.map (withAcceptor W.ring a))
      (hearDatagram_of_brings brings buf _), ?_⟩
    have self := withAcceptor_self W.ring a
    have reached := h.reached
    rw [← self] at reached all
    have heard := follows_hearAll (withAcceptor W.ring a)
      (fun s m sent => acceptorMcast_turn W.ring inRing s sent)
      (W.ring.acceptors a) ms reached all
    rw [self] at heard
    exact heard
  | learnerMcast l datagram buf =>
    obtain ⟨ms, brings, -, all⟩ := (h.senders _).brings arrives
    refine ⟨_, congrArg (Outcome.map fun o : LearnerOutcome =>
      withLearner W.ring l (o.bind (dqDeliverLoop cfg.workingSetSize)))
      (hearDatagram_of_brings brings buf _), ?_⟩
    have self := withLearner_self W.ring l
    have reached := h.reached
    rw [← self] at reached all
    have heard := follows_hearAll (withLearner W.ring l)
      (fun q m sent => learner_turn W.ring q sent)
      (W.ring.learners l) ms reached all
    rw [self] at heard
    refine heard.trans ?_
    generalize (W.ring.learners l).bind _ = o
    cases o with
    | aborted fault q => exact .refl _
    | running q =>
      refine .single (e := .deliverLoop l) ?_ (allowed_of_neither rfl (by simp))
      exact learnerStep_at W.ring l q trivial rfl (fun _ => rfl) (if_pos rfl)
        fun _ _ other => if_neg other
  | gapCheck l timeNow =>
    refine ⟨_, rfl, ?_⟩
    have self := withLearner_self W.ring l
    generalize W.ring.learners l = o at self ⊢
    cases o with
    | aborted fault q =>
      rw [Outcome.bind_aborted, self]
      exact .refl _
    | running q =>
      have step : ringStep cfg (withLearner W.ring l (.running q)) (.gapCheck l timeNow) =
          withLearner W.ring l (dqPeriodicCheck cfg.workingSetSize timeNow q) :=
        learnerStep_at W.ring l q trivial rfl (fun _ => rfl) (if_pos rfl)
          fun _ _ other => if_neg other
      rw [self] at step
      exact .single step (allowed_of_neither rfl (by simp))

end Action

/-- A message that can be sent as soon as its instance numbers have 64 bits. -/
structure Sendable (m : WireMsg) : Prop where
  size : m.size ≤ maxMessageSize
  range : (∀ i ∈ instNumbers m, i < 2 ^ 64) → m.InRange

section Sending

open RingMcasterValues

variable {id : SenderId} {m : WireMsg}

theorem sendable_ring (small : ∀ v ∈ H, v.length ≤ maxCommandSize) {msg : RingMsg}
    (good : RingFrom (· ∈ H) msg) : Sendable (ofRing msg) := by
  cases msg with
  | phase1 msg =>
    have report : ReportFrom (· ∈ H) msg := good
    have short : msg.cmdValue.length ≤ maxCommandSize := by
      by_cases none : msg.highestAcceptedBallot = 0
      · rw [(report.fresh none).2]
        exact Nat.zero_le _
      · exact small _ (report.accepted none).2
    have limit : sizeof phase1MsgFields + maxCommandSize = maxMessageSize := by decide
    refine ⟨?_, fun fits => ⟨fits _ List.mem_cons_self, fun none => (report.fresh none).1⟩⟩
    change sizeof phase1MsgFields + msg.cmdValue.length ≤ maxMessageSize
    omega
  | phase1Range msg =>
    refine ⟨?_, fun fits => ⟨fits _ List.mem_cons_self,
      fits _ (List.mem_cons_of_mem _ List.mem_cons_self)⟩⟩
    change sizeof phase1RangeMsgFields + 0 ≤ maxMessageSize
    decide
  | phase2 msg =>
    refine ⟨?_, fun fits => fits _ List.mem_cons_self⟩
    change sizeof phase2MsgFields + 0 ≤ maxMessageSize
    decide

theorem sendable_mcast (small : ∀ v ∈ H, v.length ≤ maxCommandSize) {msg : McastMsg}
    (good : McastFrom (· ∈ H) msg) : Sendable (ofMcast msg) := by
  cases msg with
  | commandMap msg =>
    have mapping : MappingFrom (· ∈ H) msg := good
    have short : msg.cmdValue.length ≤ maxCommandSize := by
      by_cases clear : msg.cmdKey = clearCmdKey
      · rw [mapping.clear clear]
        exact Nat.zero_le _
      · exact small _ (mapping.named clear)
    have limit : sizeof cmdmapMsgFields + maxCommandSize ≤ maxMessageSize := by decide
    refine ⟨?_, fun fits => fits _ List.mem_cons_self⟩
    change sizeof cmdmapMsgFields + msg.cmdValue.length ≤ maxMessageSize
    omega
  | acceptance msg =>
    refine ⟨?_, fun fits => fits _ List.mem_cons_self⟩
    change sizeof acceptanceMsgFields + 0 ≤ maxMessageSize
    decide
  | phase2 msg =>
    refine ⟨?_, fun fits => fits _ List.mem_cons_self⟩
    change sizeof phase2MsgFields + 0 ≤ maxMessageSize
    decide

theorem sendable_request {msg : Request}
    (short : (RingMulticasterMoves.requested msg).length ≤ repeatRequestMaxEntries) :
    Sendable (ofRequest msg) := by
  have limit : sizeof requestsMsgFields + 8 * repeatRequestMaxEntries ≤ maxMessageSize := by decide
  cases msg with
  | mapRequest instNumbers | chosenvalRequest instNumbers =>
    replace short : instNumbers.length ≤ repeatRequestMaxEntries := short
    refine ⟨?_, fun fits => fits⟩
    change sizeof requestsMsgFields + (StructCodec.arrayBytes 8 instNumbers).length ≤ _
    rw [StructCodec.length_arrayBytes]
    omega

theorem Follows.sendable (h : Follows cfg H R (ringInit late) w)
    (small : ∀ v ∈ H, v.length ≤ maxCommandSize) (sent : m ∈ sentOn w id) : Sendable m := by
  have good := h.values
  cases id with
  | mcasterSucc =>
    obtain ⟨msg, found, rfl⟩ := List.mem_map.mp sent
    exact sendable_ring small (good.mcaster.ring msg found)
  | mcast =>
    obtain ⟨msg, found, rfl⟩ := List.mem_map.mp sent
    exact sendable_mcast small (good.mcaster.mcast msg found)
  | acceptor a =>
    obtain ⟨msg, found, rfl⟩ := List.mem_map.mp sent
    exact sendable_ring small ((good.acceptors a).ring msg found)
  | learner l =>
    obtain ⟨msg, found, rfl⟩ := List.mem_map.mp sent
    exact sendable_request ((h.asking l).short msg found)
  | client c => exact absurd sent (by simp [sentOn])

theorem outgoing_sendable (h : Follows cfg H R (ringInit late) w')
    (small : ∀ v ∈ H, v.length ≤ maxCommandSize) {action : WireAction}
    (known : ∀ v, handedOver action = some v → v ∈ H)
    (given : m ∈ outgoing w w' action id) : Sent H w' id m ∧ Sendable m := by
  have own (given : m ∈ ((sentOn w' id).take
      ((sentOn w' id).length - (sentOn w id).length)).reverse) : Sent H w' id m ∧ Sendable m := by
    have sent := List.mem_of_mem_take (List.mem_reverse.mp given)
    exact ⟨.inl sent, h.sendable small sent⟩
  cases id with
  | client c =>
    obtain ⟨v, found, rfl⟩ := List.mem_map.mp given
    have handed : handedOver action = some v := Option.mem_toList.mp found
    refine ⟨.inr ⟨⟨c, rfl⟩, v, known v handed, rfl⟩, ?_, fun _ => trivial⟩
    have short := small v (known v handed)
    have limit : sizeof submitCmdMsgFields + maxCommandSize ≤ maxMessageSize := by decide
    change sizeof submitCmdMsgFields + v.length ≤ maxMessageSize
    omega
  | mcasterSucc | mcast | acceptor | learner => exact own given

theorem transmitAll_ensures {us : UdpSender} {ms : List WireMsg} (loaded : Loaded us ms)
    (new : List WireMsg) (memory : ℕ → Memory) (sendable : ∀ m ∈ new, Sendable m) :
    (transmitAll us new memory).Ensures (fun us => Loaded us (ms ++ new)) (· = .iidRange) := by
  induction new generalizing us ms memory with
  | nil =>
    rw [List.append_nil]
    exact loaded
  | cons m new ih =>
    obtain ⟨head, tail⟩ := List.forall_mem_cons.mp sendable
    unfold transmitAll Outcome.check
    split_ifs with fits
    · obtain ⟨us', done, kept⟩ := loaded.transmit (memory 0) (head.range fits) head.size
      have whole : ms ++ m :: new = ms ++ [m] ++ new := by
        rw [List.append_assoc, List.singleton_append]
      rw [done, mapCause_running, Outcome.bind_running, whole]
      exact ih kept _ tail
    · exact rfl

end Sending

section Step

variable {W : WireState} {id : SenderId} {us : UdpSender}

/-- The processes are in state `w`, and the senders hold what these have sent. -/
structure Carrying (H : List Value) (w : RingState) (W : WireState) : Prop where
  ring : W.ring = w
  senders : ∀ id, Holds H w id (W.senders id)

theorem Carrying.withSender (h : Carrying H w W) (holds : Holds H w id us) :
    Carrying H w (W.withSender id us) := by
  refine ⟨h.ring, fun id' => ?_⟩
  by_cases here : id' = id
  · subst here
    simpa [WireState.withSender] using holds
  · simpa [WireState.withSender, here] using h.senders id'

theorem Carrying.sendOn (h : Carrying H w' W) (reached : Follows cfg H R (ringInit late) w')
    (small : ∀ v ∈ H, v.length ≤ maxCommandSize) {e : WireEvent}
    (known : ∀ v, handedOver e.action = some v → v ∈ H) (id : SenderId) :
    (sendOn w e W id).Ensures (Carrying H w') (· = .iidRange) := by
  obtain ⟨ms, loaded, sent⟩ := h.senders id
  have each := fun m (given : m ∈ outgoing w w' e.action id) =>
    outgoing_sendable reached small known given
  have ensured := transmitAll_ensures loaded (outgoing w w' e.action id) (e.memory id)
    fun m given => (each m given).2
  unfold RingWireWorld.sendOn
  rw [h.ring]
  cases done : transmitAll (W.senders id) (outgoing w w' e.action id) (e.memory id) with
  | running us =>
    refine h.withSender ⟨_, ensured.of_running done, fun m hm => ?_⟩
    exact (List.mem_append.mp hm).elim (sent m) fun given => (each m given).1
  | aborted fault us =>
    rw [done] at ensured
    exact ensured

theorem Carrying.flushOn (h : Carrying H w W) (id : SenderId) :
    (flushOn W id).Ensures (Carrying H w) (· = .iidRange) := by
  unfold RingWireWorld.flushOn
  split_ifs
  · obtain ⟨ms, loaded, sent⟩ := h.senders id
    obtain ⟨us, done, -, kept⟩ := loaded.flush
    rw [done]
    exact h.withSender ⟨ms, kept, sent⟩
  · exact h

theorem Holds.restarted (h : Holds H w id us) :
    Holds H w id { udpSenderInit with sent := us.sent } := by
  obtain ⟨ms, loaded, sent⟩ := h
  obtain ⟨xs, buffered, encodes⟩ := loaded.buffered
  obtain ⟨packed, pending, carried, framed, rfl⟩ := buffered.carried
  obtain ⟨batches, rest, pairs, left, rfl⟩ := forall₂_split encodes
  have again : Buffered { udpSenderInit with sent := us.sent } packed.flatten :=
    ⟨Nat.zero_le _, packed, [], carried, rfl, List.append_nil _⟩
  have paired : List.Forall₂ Encodes packed.flatten batches.flatten := by
    clear encodes buffered carried framed sent loaded again
    induction pairs with
    | nil => exact .nil
    | cons first _ ih => exact List.rel_append first ih
  exact ⟨batches.flatten, ⟨⟨_, again, paired⟩, loaded.nonempty⟩,
    fun m hm => sent m (List.mem_append_left _ hm)⟩

theorem Linked.sendersAfter (h : Linked cfg late H R W) (action : WireAction) (id : SenderId) :
    Holds H W.ring id (sendersAfter W action id) := by
  cases action with
  | restart =>
    unfold RingWireWorld.sendersAfter
    dsimp only
    split_ifs
    · exact (h.senders id).restarted
    · exact h.senders id
  | submit | clientDatagram | periodicCheck | mcasterDatagram | acceptorDatagram | acceptorMcast
  | learnerMcast | gapCheck | flush => exact h.senders id

theorem linked_init (cfg : Config) (late : ℕ → Bool) (H : List Value) (R : Prop) :
    Linked cfg late H R (wireInit late) :=
  ⟨.refl _, fun _ => ⟨[], loaded_init, by simp⟩⟩

theorem Linked.step (h : Linked cfg late H R W) (small : ∀ v ∈ H, v.length ≤ maxCommandSize)
    {e : WireEvent} (known : ∀ v, handedOver e.action = some v → v ∈ H)
    (restarts : e.action = .restart → R) :
    (wireStep cfg W e).Ensures (Linked cfg late H R) (· = .iidRange) := by
  unfold wireStep
  split_ifs with arrives
  · obtain ⟨w, done, follows⟩ := h.ringAfter arrives restarts
    have reached := h.reached.trans follows
    rw [done, Outcome.andThen_running]
    have start : Carrying H w { ring := w, senders := RingWireWorld.sendersAfter W e.action } :=
      ⟨rfl, fun id => (h.sendersAfter e.action id).later h.reached follows⟩
    have sends : (Outcome.fold (RingWireWorld.sendOn W.ring e)
        { ring := w, senders := RingWireWorld.sendersAfter W e.action }
        (sendersOf e.action)).Ensures (Carrying H w) (· = .iidRange) :=
      Outcome.ensures_fold start fun id _ W' carrying => carrying.sendOn reached small known id
    refine sends.bind fun W' carrying => ?_
    refine (Outcome.ensures_fold carrying fun id _ W'' kept => kept.flushOn id).mono ?_
    intro W'' _ kept
    exact ⟨kept.ring ▸ reached, kept.ring ▸ kept.senders⟩
  · exact h

theorem linked_run (cfg : Config) (late : ℕ → Bool) (events : List WireEvent)
    (small : ∀ v ∈ commandsHandedOver events, v.length ≤ maxCommandSize) :
    (Outcome.fold (wireStep cfg) (wireInit late) events).Ensures
      (Linked cfg late (commandsHandedOver events) (∃ e ∈ events, e.action = .restart))
      (· = .iidRange) :=
  Outcome.ensures_fold (linked_init cfg late _ _) fun e he _ linked =>
    linked.step small (fun _ handed => List.mem_filterMap.mpr ⟨e, he, handed⟩)
      fun restart => ⟨e, he, restart⟩

end Step

theorem linked_of_running {cfg : Config} {late : ℕ → Bool} {events : List WireEvent}
    {W : WireState} (small : ∀ v ∈ commandsHandedOver events, v.length ≤ maxCommandSize)
    (done : Outcome.fold (wireStep cfg) (wireInit late) events = .running W) :
    Linked cfg late (commandsHandedOver events) (∃ e ∈ events, e.action = .restart) W :=
  (linked_run cfg late events small).of_running done

/-- While clients keep to the size of commands, the ring with its datagrams is in a state that
the ring reaches with messages as they are, from the same commands and restarted only if it was.
No message fails the test of its size, and none overruns a buffer: a run of the model ends only
where an instance number needs more than 64 bits. -/
theorem datagrams_refine_messages (cfg : Config) (late : ℕ → Bool) (events : List WireEvent)
    (small : ∀ v ∈ commandsHandedOver events, v.length ≤ maxCommandSize) :
    (∀ W, Outcome.fold (wireStep cfg) (wireInit late) events = .running W →
      ∃ messages, run (ringStep cfg) (ringInit late) messages = W.ring ∧
        (∀ v ∈ submitted messages, v ∈ commandsHandedOver events) ∧
        (.restart ∈ messages → ∃ e ∈ events, e.action = .restart)) ∧
      ∀ fault W, Outcome.fold (wireStep cfg) (wireInit late) events = .aborted fault W →
        fault = .iidRange := by
  refine ⟨fun W done => ?_, fun fault W ended => ?_⟩
  · obtain ⟨messages, ran, allowed⟩ := (linked_of_running small done).reached
    refine ⟨messages, ran, fun v hv => ?_, fun again => (allowed _ again).restarts rfl⟩
    obtain ⟨e, he, brought⟩ := List.mem_filterMap.mp hv
    exact (allowed e he).submits v brought
  · have ensured := linked_run cfg late events small
    rw [ended] at ensured
    exact ensured

def zeroMemory : Memory := fun _ => 0

def datagramOf (ms : List WireMsg) : List UInt8 :=
  ms.flatMap fun m =>
    let data := StructCodec.structBytes zeroMemory m.type.fields (m.values zeroMemory) m.tail
    leBytes 2 data.length ++ [0, 0] ++ leBytes 4 m.type.code.toNat ++ data

def during (action : WireAction) : WireEvent := ⟨action, fun _ _ => zeroMemory⟩

def noFrames : ℕ → ℕ → Phase1Stack := fun _ _ => ⟨0, 0, 0⟩

/-- Client 0 submits `[7]`, acceptors 2 and 3 accept it for instance 1, and learner 0 hears the
mapping, the proposal that shares its datagram, and the acceptance. -/
def deliverFirst : List WireEvent :=
  let proposal := datagramOf [.commandMap ⟨1, firstKey, [7]⟩, .phase2 ⟨1, 65792, 0, firstKey⟩]
  [.submit 0 [7], .flush (.client 0),
    .clientDatagram 0 (datagramOf [.clientSubmit [7]]) zeroMemory,
    .periodicCheck fun _ => ⟨1, 0⟩,
    .acceptorDatagram 2 (datagramOf [.phase1Range ⟨1, 2, 65792, 0⟩]) zeroMemory noFrames,
    .flush (.acceptor 2),
    .acceptorDatagram 3 (datagramOf [.phase1Range ⟨1, 2, 65792, 1⟩]) zeroMemory noFrames,
    .flush (.acceptor 3),
    .mcasterDatagram (.acceptor 3) (datagramOf [.phase1Range ⟨1, 2, 65792, 2⟩]) zeroMemory ⟨1, 0⟩,
    .periodicCheck fun _ => ⟨1, 0⟩,
    .acceptorMcast 2 proposal zeroMemory, .flush (.acceptor 2),
    .acceptorMcast 3 proposal zeroMemory,
    .learnerMcast 0 proposal zeroMemory,
    .acceptorDatagram 3 (datagramOf [.phase2 ⟨1, 65792, 1, firstKey⟩]) zeroMemory noFrames,
    .flush (.acceptor 3),
    .mcasterDatagram (.acceptor 3) (datagramOf [.phase2 ⟨1, 65792, 2, firstKey⟩]) zeroMemory
      ⟨1, 0⟩,
    .flush .mcast,
    .learnerMcast 0 (datagramOf [.acceptance ⟨1, firstKey⟩]) zeroMemory].map during

theorem deliverFirst_small :
    ∀ v ∈ commandsHandedOver deliverFirst, v.length ≤ maxCommandSize := by
  have one : commandsHandedOver deliverFirst = [[7]] := rfl
  rw [one]
  decide

theorem deliverFirst_runs :
    ∃ W, Outcome.fold (wireStep .small) (wireInit fun _ => false) deliverFirst = .running W ∧
      (W.ring.learners 0).state.delivered = [[7]] := by
  refine ⟨_, Outcome.running_of_isRunning ?_, ?_⟩ <;> decide +kernel

theorem deliverFirst_refines :
    ∃ messages, (((run (ringStep .small) (ringInit fun _ => false) messages).learners
      0).state.delivered = [[7]] ∧ ∀ v ∈ submitted messages, v ∈ [[7]]) := by
  obtain ⟨W, done, told⟩ := deliverFirst_runs
  obtain ⟨messages, ran, submits, -⟩ :=
    (datagrams_refine_messages .small _ deliverFirst deliverFirst_small).1 W done
  refine ⟨messages, ?_, submits⟩
  rw [ran]
  exact told

/-- From the bytes of the clients to those that learners deliver: without a restart there is one
order of commands that were handed over, and every learner that started on time runs and has
delivered the first ones of this order. -/
theorem datagrams_broadcast_in_order (cfg : Config) (late : ℕ → Bool) (events : List WireEvent)
    (small : ∀ v ∈ commandsHandedOver events, v.length ≤ maxCommandSize)
    (goesOn : ∀ e ∈ events, e.action ≠ .restart) (W : WireState)
    (done : Outcome.fold (wireStep cfg) (wireInit late) events = .running W) :
    ∃ order : List Value, (∀ v ∈ order, v ∈ commandsHandedOver events) ∧
      ∀ l, late l = false →
        (W.ring.learners l).IsRunning ∧ (W.ring.learners l).state.delivered <+: order := by
  have linked := linked_of_running small done
  obtain ⟨order, placed, known⟩ := linked.reached.placed fun ⟨e, he, restart⟩ => goesOn e he restart
  refine ⟨order, known, fun l onTime => ⟨(placed.delivered onTime).1, ?_⟩⟩
  rw [(placed.delivered onTime).2.1]
  exact List.take_prefix _ _

theorem deliverFirst_in_order :
    ∃ order : List Value, (∀ v ∈ order, v ∈ [[7]]) ∧ [[7]] <+: order := by
  obtain ⟨W, done, told⟩ := deliverFirst_runs
  have goesOn : ∀ e ∈ deliverFirst, e.action ≠ .restart := by simp [deliverFirst, during]
  obtain ⟨order, known, learners⟩ :=
    datagrams_broadcast_in_order .small _ deliverFirst deliverFirst_small goesOn W done
  refine ⟨order, known, ?_⟩
  rw [← told]
  exact (learners 0 rfl).2

end FdsPaxos.RingWireRefinement
