import FdsPaxos.RingWire

set_option autoImplicit false

namespace FdsPaxos.RingLink
open ByteMemory TransitionRuns RingMessages RingPackets RingCommandSize RingWire

section Causes

variable {α β σ ε : Type*}

def mapCause (f : α → β) : Outcome α σ → Outcome β σ
  | .running s => .running s
  | .aborted a s => .aborted (f a) s

@[simp] theorem mapCause_running (f : α → β) (s : σ) :
    mapCause f (.running s : Outcome α σ) = .running s := rfl

theorem mapCause_bind (f : α → β) (o : Outcome α σ) (next : σ → Outcome α σ) :
    mapCause f (o.bind next) = (mapCause f o).bind fun s => mapCause f (next s) := by
  cases o <;> rfl

end Causes

inductive LinkFault where
  | build (cause : BuildFault)
  | sender (cause : SenderFault)
deriving DecidableEq

/-- A message is built in memory that holds `stack`, and handed to `net_send_udp`. -/
def transmit (stack : Memory) (us : UdpSender) (m : WireMsg) : Outcome LinkFault UdpSender :=
  match build stack m with
  | .ok x => mapCause .sender (netSendUdp us x)
  | .error cause => .aborted (.build cause) us

def flush (us : UdpSender) : Outcome LinkFault UdpSender :=
  mapCause .sender (udpSenderForceFlush us)

inductive LinkEvent where
  | send (m : WireMsg) (stack : Memory)
  | flush

def linkStep (us : UdpSender) : LinkEvent → Outcome LinkFault UdpSender
  | .send m stack => transmit stack us m
  | .flush => flush us

def messageOf : LinkEvent → Option WireMsg
  | .send m _ => some m
  | .flush => none

def linkMessages (events : List LinkEvent) : List WireMsg := events.filterMap messageOf

inductive ReceiveFault (α : Type*) where
  | size
  | handler (cause : α)

section Receiver

variable {α σ : Type*} (takes : σ → LpMsgType → Bool) (handle : σ → WireMsg → Outcome α σ)

/-- The callback for one message; types that the process does not take are dropped. -/
def receiveMsg (mem : Memory) (s : σ) (d : Delivery) : Outcome (ReceiveFault α) σ :=
  match LpMsgType.ofCode d.type with
  | none => .running s
  | some type =>
    if takes s type then
      .check (d.size = statedSize mem d.start type) .size s
        (mapCause .handler (handle s (readMsg mem d.start type)))
    else .running s

/-- A datagram is received into a buffer that holds `buf`. -/
def receiveDatagram (buf : Memory) (s : σ) (datagram : List UInt8) :
    Outcome (ReceiveFault α) σ :=
  Outcome.fold (receiveMsg takes handle (recvDatagram buf datagram)) s
    ((udpReadCallbackWrapper buf datagram).getD [])

def hear (s : σ) (m : WireMsg) : Outcome α σ :=
  if takes s m.type then handle s m else .running s

def hearAll (s : σ) (ms : List WireMsg) : Outcome α σ := Outcome.fold (hear takes handle) s ms

theorem receiveMsg_encodes {mem : Memory} {d : Delivery} {m : WireMsg} (s : σ)
    (h : Encodes (delivered mem d) m) :
    receiveMsg takes handle mem s d = mapCause .handler (hear takes handle s m) := by
  have length : (delivered mem d).data.length = d.size := length_read _ _ _
  have found : ByteMemory.read mem d.start (delivered mem d).data.length =
      (delivered mem d).data := by
    rw [length]
    rfl
  have size := h.size mem d.start found
  have type : LpMsgType.ofCode d.type = some m.type := h.type
  unfold receiveMsg hear
  rw [type]
  dsimp only
  rw [size, h.content mem d.start found, length]
  split_ifs
  · exact if_pos rfl
  · rfl

/-- A datagram that carries the messages `ms`. -/
def Brings (datagram : List UInt8) (ms : List WireMsg) : Prop :=
  ∃ xs, Carries datagram xs ∧ List.Forall₂ Encodes xs ms

theorem Brings.ne_nil {datagram : List UInt8} {ms : List WireMsg} (h : Brings datagram ms)
    (nonempty : datagram ≠ []) : ms ≠ [] := by
  obtain ⟨xs, carries, encodes⟩ := h
  intro none
  subst none
  cases encodes
  exact nonempty (List.length_eq_zero_iff.mp (carries.framed fun _ => 0).symm)

/-- Whatever the buffer holds, the process does with the datagram what it does with its messages;
no assertion on a size fails. -/
theorem receive_of_brings {datagram : List UInt8} {ms : List WireMsg} (h : Brings datagram ms)
    (buf : Memory) (s : σ) :
    receiveDatagram takes handle buf s datagram =
      mapCause .handler (hearAll takes handle s ms) := by
  obtain ⟨xs, carries, encodes⟩ := h
  obtain ⟨ds, turns, taken⟩ := carries.received buf
  rw [← taken, List.forall₂_map_left_iff] at encodes
  unfold receiveDatagram hearAll
  rw [turns, Option.getD_some]
  clear turns taken carries
  induction encodes generalizing s with
  | nil => rfl
  | cons first _ ih =>
    rw [Outcome.fold_cons, Outcome.fold_cons, mapCause_bind,
      receiveMsg_encodes takes handle s first]
    congr 1
    funext s
    exact ih s

end Receiver

/-- The datagrams sent so far carry a first part of `ms`; the rest waits in the buffer. -/
structure Loaded (us : UdpSender) (ms : List WireMsg) : Prop where
  buffered : ∃ xs, Buffered us xs ∧ List.Forall₂ Encodes xs ms
  nonempty : ∀ datagram ∈ us.sent, datagram ≠ []

section Sender

variable {us us' : UdpSender} {ms : List WireMsg} {m : WireMsg}

theorem loaded_init : Loaded udpSenderInit [] :=
  ⟨⟨[], buffered_init, .nil⟩, by simp [udpSenderInit]⟩

theorem forceFlush_nonempty (done : udpSenderForceFlush us = .running us')
    (nonempty : ∀ datagram ∈ us.sent, datagram ≠ []) : ∀ datagram ∈ us'.sent, datagram ≠ [] := by
  unfold udpSenderForceFlush Outcome.check at done
  split_ifs at done with index empty
  · cases done
    exact nonempty
  · cases done
    intro datagram sent
    rcases List.mem_append.mp sent with old | new
    · exact nonempty datagram old
    · rw [List.mem_singleton.mp new]
      apply List.ne_nil_of_length_pos
      rw [length_read]
      exact Nat.pos_of_ne_zero empty

theorem netSendUdp_nonempty {x : Message} (done : netSendUdp us x = .running us')
    (nonempty : ∀ datagram ∈ us.sent, datagram ≠ []) : ∀ datagram ∈ us'.sent, datagram ≠ [] := by
  unfold netSendUdp at done
  dsimp only at done
  split_ifs at done with long full
  · cases done
    exact nonempty
  · obtain ⟨room, flushed, rest⟩ := Outcome.bind_eq_running.mp done
    have kept := forceFlush_nonempty flushed nonempty
    unfold Outcome.check at rest
    split_ifs at rest with space last
    · exact forceFlush_nonempty rest kept
    · cases rest
      exact kept
  · rw [Outcome.bind_running] at done
    unfold Outcome.check at done
    split_ifs at done with space last
    · exact forceFlush_nonempty done nonempty
    · cases done
      exact nonempty

theorem Loaded.flush (h : Loaded us ms) :
    ∃ us', RingLink.flush us = .running us' ∧ us'.currentBufSize = 0 ∧ Loaded us' ms := by
  obtain ⟨xs, buffered, encodes⟩ := h.buffered
  obtain ⟨us', done, empty, kept⟩ := buffered.forceFlush
  refine ⟨us', ?_, empty, ⟨xs, kept, encodes⟩, forceFlush_nonempty done h.nonempty⟩
  unfold RingLink.flush
  rw [done]
  rfl

theorem Loaded.transmit (h : Loaded us ms) (stack : Memory) (range : m.InRange)
    (fits : m.size ≤ maxMessageSize) :
    ∃ us', RingLink.transmit stack us m = .running us' ∧ Loaded us' (ms ++ [m]) := by
  obtain ⟨xs, buffered, encodes⟩ := h.buffered
  obtain ⟨x, built, length, encoded⟩ := build_encodes stack range fits
  obtain ⟨us', done, kept⟩ := buffered.send (length.trans_le fits)
  have both := List.rel_append encodes (.cons encoded .nil)
  refine ⟨us', ?_, ⟨_, kept, both⟩, netSendUdp_nonempty done h.nonempty⟩
  unfold RingLink.transmit
  rw [built]
  dsimp only
  rw [done]
  rfl

theorem forall₂_split {α β : Type*} {R : α → β → Prop} {batches : List (List α)}
    {pending : List α} {ys : List β} (h : List.Forall₂ R (batches.flatten ++ pending) ys) :
    ∃ batches' rest, List.Forall₂ (List.Forall₂ R) batches batches' ∧
      List.Forall₂ R pending rest ∧ batches'.flatten ++ rest = ys := by
  induction batches generalizing ys with
  | nil => exact ⟨[], ys, .nil, h, rfl⟩
  | cons batch batches ih =>
    rw [List.flatten_cons, List.append_assoc] at h
    have first := (List.forall₂_take_append _ _ _ h.flip).flip
    have others := (List.forall₂_drop_append _ _ _ h.flip).flip
    obtain ⟨batches', rest, pairs, left, whole⟩ := ih others
    refine ⟨_ :: batches', rest, .cons first pairs, left, ?_⟩
    rw [List.flatten_cons, List.append_assoc, whole, List.take_append_drop]

theorem Loaded.batches (h : Loaded us ms) :
    ∃ batches rest, List.Forall₂ Brings us.sent batches ∧ batches.flatten ++ rest = ms ∧
      (us.currentBufSize = 0 → rest = []) := by
  obtain ⟨xs, buffered, encodes⟩ := h.buffered
  obtain ⟨packed, pending, sent, framed, rfl⟩ := buffered.carried
  obtain ⟨batches, rest, pairs, left, whole⟩ := forall₂_split encodes
  refine ⟨batches, rest, ?_, whole, fun empty => ?_⟩
  · clear whole encodes buffered framed h
    generalize us.sent = datagrams at sent ⊢
    induction sent generalizing batches with
    | nil =>
      cases pairs
      exact .nil
    | cons first _ ih =>
      cases pairs with
      | cons encoded others => exact .cons ⟨_, first, encoded⟩ (ih _ others)
  · rw [empty] at framed
    rw [framed.nil_of_empty] at left
    cases left
    rfl

theorem Loaded.step (h : Loaded us ms) (e : LinkEvent)
    (sound : ∀ m stack, e = .send m stack → m.InRange ∧ m.size ≤ maxMessageSize) :
    ∃ us', linkStep us e = .running us' ∧ Loaded us' (ms ++ (messageOf e).toList) := by
  cases e with
  | send m stack =>
    obtain ⟨range, fits⟩ := sound m stack rfl
    exact h.transmit stack range fits
  | flush =>
    obtain ⟨us', done, -, kept⟩ := h.flush
    rw [← List.append_nil ms] at kept
    exact ⟨us', done, kept⟩

theorem Loaded.run (h : Loaded us ms) (events : List LinkEvent)
    (sound : ∀ m stack, .send m stack ∈ events → m.InRange ∧ m.size ≤ maxMessageSize) :
    ∃ us', Outcome.fold linkStep us events = .running us' ∧
      Loaded us' (ms ++ linkMessages events) := by
  induction events generalizing us ms with
  | nil =>
    rw [← List.append_nil ms] at h
    exact ⟨us, rfl, h⟩
  | cons e events ih =>
    obtain ⟨us', first, held⟩ := h.step e fun m stack he =>
      sound m stack (he ▸ List.mem_cons_self)
    obtain ⟨us'', rest, kept⟩ := ih held fun m stack he => sound m stack (List.mem_cons_of_mem e he)
    refine ⟨us'', by rw [Outcome.fold_cons, first, Outcome.bind_running, rest], ?_⟩
    have split : linkMessages (e :: events) = (messageOf e).toList ++ linkMessages events := by
      unfold linkMessages
      cases he : messageOf e <;> simp [he]
    rw [split, ← List.append_assoc]
    exact kept

end Sender

/-- Received into any buffer, in any state of the process, the datagram has the effect of the
messages `ms`. -/
def ActsAs {α σ : Type*} (takes : σ → LpMsgType → Bool) (handle : σ → WireMsg → Outcome α σ)
    (datagram : List UInt8) (ms : List WireMsg) : Prop :=
  ∀ buf s, receiveDatagram takes handle buf s datagram =
    mapCause .handler (hearAll takes handle s ms)

/-- Messages that fit are sent without a fault, and each datagram, alone and whenever it comes,
acts as a run of them, in the order in which they were sent; with a flush none is missing. -/
theorem datagrams_act_as_messages {α σ : Type*} (takes : σ → LpMsgType → Bool)
    (handle : σ → WireMsg → Outcome α σ) (events : List LinkEvent)
    (sound : ∀ m stack, .send m stack ∈ events → m.InRange ∧ m.size ≤ maxMessageSize) :
    ∃ us, Outcome.fold linkStep udpSenderInit events = .running us ∧
      (∃ batches, List.Forall₂ (ActsAs takes handle) us.sent batches ∧
        batches.flatten <+: linkMessages events) ∧
      ∃ us', flush us = .running us' ∧
        ∃ batches, List.Forall₂ (ActsAs takes handle) us'.sent batches ∧
          batches.flatten = linkMessages events := by
  have acts {datagram : List UInt8} {ms : List WireMsg} (h : Brings datagram ms) :
      ActsAs takes handle datagram ms := receive_of_brings takes handle h
  obtain ⟨us, ran, loaded⟩ := loaded_init.run events sound
  obtain ⟨us', flushed, empty, full⟩ := loaded.flush
  refine ⟨us, ran, ?_, us', flushed, ?_⟩
  · obtain ⟨batches, rest, brings, whole, -⟩ := loaded.batches
    exact ⟨batches, brings.imp fun _ _ => acts, rest, whole⟩
  · obtain ⟨batches, rest, brings, whole, none⟩ := full.batches
    rw [none empty, List.append_nil] at whole
    exact ⟨batches, brings.imp fun _ _ => acts, whole⟩

/-- A process that counts the requests for mappings. -/
def countRequest (n : ℕ) (_ : WireMsg) : Outcome Empty ℕ := .running (n + 1)

/-- A client's command and a request of a learner in one datagram. -/
theorem two_messages_cross :
    ∃ us, Outcome.fold linkStep udpSenderInit
        [.send (.clientSubmit [7]) fun _ => 0, .send (.mapRequest [1, 2]) fun _ => 3] =
          .running us ∧
      (∃ batches,
        List.Forall₂ (ActsAs (fun _ type => type = .mapRequest) countRequest) us.sent batches ∧
        batches.flatten <+: [.clientSubmit [7], .mapRequest [1, 2]]) ∧
      ∃ us', flush us = .running us' ∧
        ∃ batches,
          List.Forall₂ (ActsAs (fun _ type => type = .mapRequest) countRequest) us'.sent batches ∧
          batches.flatten = [.clientSubmit [7], .mapRequest [1, 2]] := by
  have sound : ∀ m stack, LinkEvent.send m stack ∈
      [LinkEvent.send (.clientSubmit [7]) fun _ => 0, .send (.mapRequest [1, 2]) fun _ => 3] →
      m.InRange ∧ m.size ≤ maxMessageSize := by
    intro m stack sent
    simp only [List.mem_cons, LinkEvent.send.injEq, List.not_mem_nil, or_false] at sent
    rcases sent with ⟨rfl, -⟩ | ⟨rfl, -⟩
    · exact ⟨trivial, by decide⟩
    · exact ⟨by simp [WireMsg.InRange], by decide⟩
  exact datagrams_act_as_messages _ _ _ sound

end FdsPaxos.RingLink
