import FdsPaxos.ByteMemory
import FdsPaxos.TransitionRuns
import Mathlib.Data.List.Forall2

set_option autoImplicit false

/-!
The packets of `network_udp.c`: several messages behind headers of their own are
sent in one datagram, and the receiver takes them apart again.
-/

namespace FdsPaxos.RingPackets
open ByteMemory TransitionRuns

def maxTcpPayload : ℕ := 9000 - 16

def maxUdpPayload : ℕ := 9000 - 12

def maxMessageSize : ℕ := maxTcpPayload - 4

/-- `sizeof(lp_message_header)`: two bytes of size, two of padding, four of type. -/
def lpMessageHeader : ℕ := 8

/-- The type is kept as the 32 bits of the enumeration: the receiver casts what it finds. -/
structure Message where
  type : UInt32
  data : List UInt8
deriving DecidableEq

structure UdpSender where
  sendBuf : Memory
  currentBufSize : ℕ
  sent : List (List UInt8)

def sendBufSize : ℕ := maxUdpPayload

def udpSenderInit : UdpSender where
  sendBuf := fun _ => 0
  currentBufSize := 0
  sent := []

inductive SenderFault where
  | currentBufSize
  | bufferOverrun
deriving DecidableEq

/-- `send` hands over the whole packet, so the assertion on its result holds. -/
def udpSenderForceFlush (us : UdpSender) : Outcome SenderFault UdpSender :=
  .check (us.currentBufSize ≤ sendBufSize) .currentBufSize us <|
    if us.currentBufSize = 0 then .running us
    else .running
      { us with sent := us.sent ++ [read us.sendBuf 0 us.currentBufSize], currentBufSize := 0 }

/-- The bytes that `net_send_udp` writes for one message; the padding is left as it is. -/
def putMessage (buf : Memory) (a : ℕ) (m : Message) : Memory :=
  write (putLe (putLe buf 2 a m.data.length) 4 (a + 4) m.type.toNat) (a + lpMessageHeader) m.data

def netSendUdp (us : UdpSender) (m : Message) : Outcome SenderFault UdpSender :=
  if maxMessageSize < m.data.length then .running us
  else
    let totalSize := m.data.length + lpMessageHeader
    let room :=
      if maxMessageSize < us.currentBufSize + totalSize then udpSenderForceFlush us
      else .running us
    room.bind fun us =>
      .check (us.currentBufSize + totalSize ≤ sendBufSize) .bufferOverrun us <|
        let us' : UdpSender :=
          { us with
            sendBuf := putMessage us.sendBuf us.currentBufSize m
            currentBufSize := us.currentBufSize + totalSize }
        if (maxMessageSize : ℤ) - us'.currentBufSize ≤ lpMessageHeader then udpSenderForceFlush us'
        else .running us'

/-- `udp_autoflush_cb` only calls `udp_sender_force_flush`. -/
inductive SendEvent where
  | send (m : Message)
  | forceFlush
  | autoflush

def sendStep (us : UdpSender) : SendEvent → Outcome SenderFault UdpSender
  | .send m => netSendUdp us m
  | .forceFlush => udpSenderForceFlush us
  | .autoflush => udpSenderForceFlush us

def messageOf : SendEvent → Option Message
  | .send m => some m
  | .forceFlush => none
  | .autoflush => none

def sentMessages (es : List SendEvent) : List Message := es.filterMap messageOf

/-- The range of the packet that one call of the callback gets. -/
structure Delivery where
  type : UInt32
  start : ℕ
  size : ℕ
deriving DecidableEq

/-- The loop of `udp_read_callback_wrapper`; offsets are 16 bits wide and the size
check is made on 64 bits.  A header that reaches past the packet reads what the
buffer happens to hold there. -/
def readLoop (buf : Memory) (udatasize : ℕ) : ℕ → ℕ → Option (List Delivery)
  | 0, _ => none
  | fuel + 1, currentOffset =>
    if currentOffset < udatasize then
      let size := getLe buf 2 currentOffset
      if udatasize < (currentOffset + lpMessageHeader + size) % 2 ^ 64 then some []
      else
        let next := (currentOffset + (size + lpMessageHeader)) % 2 ^ 16
        let delivery : Delivery :=
          { type := UInt32.ofNat (getLe buf 4 (currentOffset + 4))
            start := currentOffset + lpMessageHeader
            size := size }
        (readLoop buf udatasize fuel next).map (delivery :: ·)
    else some []

def recvBufSize : ℕ := maxUdpPayload

/-- What `recvfrom` leaves in the buffer: a longer datagram is cut off. -/
def recvDatagram (buf : Memory) (datagram : List UInt8) : Memory :=
  write buf 0 (datagram.take recvBufSize)

def udpReadCallbackWrapper (buf : Memory) (datagram : List UInt8) : Option (List Delivery) :=
  let udatasize := (datagram.take recvBufSize).length % 2 ^ 16
  readLoop (recvDatagram buf datagram) udatasize (udatasize + 1) 0

def delivered (buf : Memory) (d : Delivery) : Message where
  type := d.type
  data := read buf d.start d.size

/-- Everything the callback gets from a list of datagrams, in order. -/
def received : Memory → List (List UInt8) → Option (List Message)
  | _, [] => some []
  | buf, datagram :: datagrams =>
    let buf' := recvDatagram buf datagram
    match udpReadCallbackWrapper buf datagram, received buf' datagrams with
    | some ds, some ms => some (ds.map (delivered buf') ++ ms)
    | _, _ => none

/-- Every turn moves the offset forward, so the loop ends; what the callback gets
lies inside the packet. -/
theorem readLoop_ends (buf : Memory) {udatasize : ℕ} (word : udatasize < 2 ^ 16) (fuel a : ℕ)
    (enough : udatasize ≤ a + fuel) :
    ∃ ds, readLoop buf udatasize (fuel + 1) a = some ds ∧
      ∀ d ∈ ds, d.start + d.size ≤ udatasize := by
  induction fuel generalizing a with
  | zero =>
    refine ⟨[], ?_, by simp⟩
    unfold readLoop
    rw [if_neg (by omega)]
  | succ fuel ih =>
    have size_lt : getLe buf 2 a < 256 ^ 2 := getLe_lt buf 2 a
    unfold readLoop
    by_cases inside : a < udatasize
    · rw [if_pos inside]
      have exact64 : (a + lpMessageHeader + getLe buf 2 a) % 2 ^ 64 =
          a + lpMessageHeader + getLe buf 2 a := by
        unfold lpMessageHeader
        omega
      dsimp only
      rw [exact64]
      by_cases long : udatasize < a + lpMessageHeader + getLe buf 2 a
      · exact ⟨[], by rw [if_pos long], by simp⟩
      · unfold lpMessageHeader at long ⊢
        have exact16 : (a + (getLe buf 2 a + 8)) % 2 ^ 16 = a + (getLe buf 2 a + 8) := by
          omega
        rw [if_neg long, exact16]
        obtain ⟨ds, rest, within⟩ := ih (a + (getLe buf 2 a + 8)) (by omega)
        rw [rest]
        refine ⟨_, rfl, ?_⟩
        intro d hd
        rcases List.mem_cons.mp hd with rfl | hd
        · change a + 8 + getLe buf 2 a ≤ udatasize
          omega
        · exact within d hd
    · rw [if_neg inside]
      exact ⟨[], rfl, by simp⟩

theorem udpReadCallbackWrapper_ends (buf : Memory) (datagram : List UInt8)
    (short : datagram.length ≤ maxUdpPayload) :
    ∃ ds, udpReadCallbackWrapper buf datagram = some ds ∧
      ∀ d ∈ ds, d.start + d.size ≤ datagram.length := by
  have whole : datagram.take recvBufSize = datagram := List.take_of_length_le short
  have word : datagram.length < 2 ^ 16 := by
    have : maxUdpPayload = 8988 := rfl
    omega
  unfold udpReadCallbackWrapper
  dsimp only
  rw [whole, Nat.mod_eq_of_lt word]
  exact readLoop_ends _ word datagram.length 0 (by omega)

/-- The messages `ms` lie back to back from `lo` up to `hi`. -/
def Framed (buf : Memory) : List Message → ℕ → ℕ → Prop
  | [], lo, hi => lo = hi
  | m :: ms, lo, hi =>
    getLe buf 2 lo = m.data.length ∧ getLe buf 4 (lo + 4) = m.type.toNat ∧
      read buf (lo + lpMessageHeader) m.data.length = m.data ∧
      Framed buf ms (lo + lpMessageHeader + m.data.length) hi

section Framed

variable {buf buf' : Memory} {m : Message} {ms : List Message} {lo mid hi : ℕ}

theorem Framed.le (h : Framed buf ms lo hi) : lo ≤ hi := by
  induction ms generalizing lo with
  | nil => exact le_of_eq h
  | cons m ms ih =>
    have := ih h.2.2.2
    omega

theorem Framed.nil_of_empty (h : Framed buf ms lo lo) : ms = [] := by
  cases ms with
  | nil => rfl
  | cons m ms =>
    have := Framed.le h.2.2.2
    unfold lpMessageHeader at this
    omega

theorem Framed.congr (h : Framed buf ms lo hi) (same : AgreeOn lo hi buf buf') :
    Framed buf' ms lo hi := by
  induction ms generalizing lo with
  | nil => exact h
  | cons m ms ih =>
    obtain ⟨size, type, data, rest⟩ := h
    have end_le := rest.le
    unfold lpMessageHeader at end_le
    refine ⟨?_, ?_, ?_, ih rest (same.mono (by unfold lpMessageHeader; omega) le_rfl)⟩
    · rw [← getLe_congr (same.mono le_rfl (by omega)), size]
    · rw [← getLe_congr (same.mono (by omega) (by omega)), type]
    · unfold lpMessageHeader at data ⊢
      rw [← read_congr (same.mono (by omega) (by omega)), data]

theorem Framed.append {ms' : List Message} (h : Framed buf ms lo mid)
    (h' : Framed buf ms' mid hi) : Framed buf (ms ++ ms') lo hi := by
  induction ms generalizing lo with
  | nil =>
    cases h
    exact h'
  | cons m ms ih => exact ⟨h.1, h.2.1, h.2.2.1, ih h.2.2.2⟩

theorem agreeOn_putMessage (buf : Memory) (m : Message) (before : hi ≤ lo) :
    AgreeOn 0 hi buf (putMessage buf lo m) := by
  let sized := putLe buf 2 lo m.data.length
  have size : AgreeOn 0 hi buf sized := agreeOn_putLe buf _ (.inl before)
  have type : AgreeOn 0 hi sized (putLe sized 4 (lo + 4) m.type.toNat) :=
    agreeOn_putLe sized _ (.inl (by omega))
  exact (size.trans type).trans (agreeOn_write _ m.data (.inl (by omega)))

theorem framed_putMessage (buf : Memory) (lo : ℕ) (fits : m.data.length ≤ maxMessageSize) :
    Framed (putMessage buf lo m) [m] lo (lo + lpMessageHeader + m.data.length) := by
  have word : m.data.length < 256 ^ 2 := by
    have : maxMessageSize = 8980 := rfl
    omega
  have after : ∀ mem : Memory, AgreeOn lo (lo + lpMessageHeader) mem
      (write mem (lo + lpMessageHeader) m.data) :=
    fun mem => agreeOn_write mem m.data (.inl le_rfl)
  unfold putMessage
  refine ⟨?_, ?_, read_write _ _ _, rfl⟩
  · rw [← getLe_congr ((after _).mono le_rfl (by unfold lpMessageHeader; omega))]
    rw [← getLe_congr (agreeOn_putLe _ _ (.inl (by omega))), getLe_putLe_of_lt _ _ word]
  · rw [← getLe_congr ((after _).mono (by omega) (by unfold lpMessageHeader; omega))]
    rw [getLe_putLe_of_lt _ _ m.type.toNat_lt]

theorem readLoop_framed (h : Framed buf ms lo hi) (word : hi < 2 ^ 16) (fuel : ℕ)
    (enough : hi ≤ lo + fuel) :
    ∃ ds, readLoop buf hi (fuel + 1) lo = some ds ∧ ds.map (delivered buf) = ms := by
  induction ms generalizing lo fuel with
  | nil =>
    cases h
    refine ⟨[], ?_, rfl⟩
    unfold readLoop
    rw [if_neg (by omega)]
  | cons m ms ih =>
    obtain ⟨size, type, data, rest⟩ := h
    have end_le := rest.le
    unfold lpMessageHeader at end_le data rest
    obtain ⟨more, rfl⟩ : ∃ more, fuel = more + 1 := ⟨fuel - 1, by omega⟩
    obtain ⟨ds, turns, taken⟩ := ih rest more (by omega)
    have exact64 : (lo + lpMessageHeader + m.data.length) % 2 ^ 64 = lo + 8 + m.data.length := by
      unfold lpMessageHeader
      omega
    have exact16 : (lo + (m.data.length + lpMessageHeader)) % 2 ^ 16 =
        lo + 8 + m.data.length := by
      unfold lpMessageHeader
      omega
    unfold readLoop
    rw [if_pos (by omega)]
    dsimp only
    rw [size, exact64, exact16, if_neg (by omega), turns]
    refine ⟨_, rfl, ?_⟩
    rw [List.map_cons, taken]
    congr 1
    unfold delivered
    dsimp only
    rw [show lo + lpMessageHeader = lo + 8 from rfl, data, type, UInt32.ofNat_toNat]

end Framed

/-- A packet that carries the messages `ms`, whatever lies behind it in the buffer. -/
structure Carries (packet : List UInt8) (ms : List Message) : Prop where
  short : packet.length ≤ maxUdpPayload
  framed : ∀ buf, Framed (write buf 0 packet) ms 0 packet.length

theorem Carries.received {packet : List UInt8} {ms : List Message} (h : Carries packet ms)
    (buf : Memory) : ∃ ds, udpReadCallbackWrapper buf packet = some ds ∧
      ds.map (delivered (recvDatagram buf packet)) = ms := by
  have whole : packet.take recvBufSize = packet := List.take_of_length_le h.short
  have word : packet.length < 2 ^ 16 := by
    have := h.short
    have : maxUdpPayload = 8988 := rfl
    omega
  unfold udpReadCallbackWrapper recvDatagram
  dsimp only
  rw [whole, Nat.mod_eq_of_lt word]
  exact readLoop_framed (h.framed buf) word packet.length (by omega)

theorem received_carries {packets : List (List UInt8)} {batches : List (List Message)}
    (h : List.Forall₂ Carries packets batches) (buf : Memory) :
    received buf packets = some batches.flatten := by
  induction h generalizing buf with
  | nil => rfl
  | cons first _ ih =>
    obtain ⟨ds, turns, taken⟩ := first.received buf
    unfold received
    dsimp only
    rw [turns, ih]
    simp [taken]

theorem carries_read {buf : Memory} {ms : List Message} {len : ℕ} (h : Framed buf ms 0 len)
    (short : len ≤ maxUdpPayload) : Carries (read buf 0 len) ms := by
  refine ⟨by rwa [length_read], ?_⟩
  intro old
  rw [length_read]
  have same := agreeOn_write_read buf old 0 len
  rw [Nat.zero_add] at same
  exact h.congr same

/-- The packets sent so far carry a first part of `ms`; the rest waits in the buffer. -/
structure Buffered (us : UdpSender) (ms : List Message) : Prop where
  room : us.currentBufSize ≤ maxMessageSize
  carried : ∃ batches pending, List.Forall₂ Carries us.sent batches ∧
    Framed us.sendBuf pending 0 us.currentBufSize ∧ batches.flatten ++ pending = ms

theorem buffered_init : Buffered udpSenderInit [] :=
  ⟨by decide, [], [], .nil, rfl, rfl⟩

theorem forceFlush_sends (us : UdpSender) {ms pending : List Message}
    {batches : List (List Message)} (room : us.currentBufSize ≤ sendBufSize)
    (sent : List.Forall₂ Carries us.sent batches)
    (framed : Framed us.sendBuf pending 0 us.currentBufSize)
    (all : batches.flatten ++ pending = ms) :
    ∃ us', udpSenderForceFlush us = .running us' ∧ us'.currentBufSize = 0 ∧ Buffered us' ms := by
  unfold udpSenderForceFlush Outcome.check
  rw [if_pos room]
  by_cases empty : us.currentBufSize = 0
  · rw [if_pos empty]
    refine ⟨us, rfl, empty, by rw [empty]; exact Nat.zero_le _, batches, pending, sent, framed, all⟩
  · rw [if_neg empty]
    refine ⟨_, rfl, rfl, Nat.zero_le _, batches ++ [pending], [], ?_, rfl, ?_⟩
    · exact List.rel_append sent (.cons (carries_read framed room) .nil)
    · simpa using all

theorem Buffered.forceFlush {us : UdpSender} {ms : List Message} (h : Buffered us ms) :
    ∃ us', udpSenderForceFlush us = .running us' ∧ us'.currentBufSize = 0 ∧ Buffered us' ms := by
  obtain ⟨batches, pending, sent, framed, all⟩ := h.carried
  exact forceFlush_sends us (h.room.trans (by decide)) sent framed all

theorem Buffered.send {us : UdpSender} {ms : List Message} (h : Buffered us ms) {m : Message}
    (fits : m.data.length ≤ maxMessageSize) :
    ∃ us', netSendUdp us m = .running us' ∧ Buffered us' (ms ++ [m]) := by
  obtain ⟨room, made, space, held⟩ : ∃ room,
      (if maxMessageSize < us.currentBufSize + (m.data.length + lpMessageHeader)
        then udpSenderForceFlush us else .running us) = .running room ∧
      room.currentBufSize + (m.data.length + lpMessageHeader) ≤ sendBufSize ∧
      Buffered room ms := by
    by_cases long : maxMessageSize < us.currentBufSize + (m.data.length + lpMessageHeader)
    · rw [if_pos long]
      obtain ⟨us', flushed, empty, held⟩ := h.forceFlush
      refine ⟨us', flushed, ?_, held⟩
      rw [empty]
      -- the largest message fills an empty buffer to its last byte
      have : maxMessageSize + lpMessageHeader = sendBufSize := rfl
      omega
    · rw [if_neg long]
      have : maxMessageSize ≤ sendBufSize := by decide
      exact ⟨us, rfl, by omega, h⟩
  obtain ⟨batches, pending, sent, framed, all⟩ := held.carried
  have added : Framed (putMessage room.sendBuf room.currentBufSize m) (pending ++ [m]) 0
      (room.currentBufSize + (m.data.length + lpMessageHeader)) := by
    have last := framed_putMessage room.sendBuf room.currentBufSize fits
    rw [show room.currentBufSize + lpMessageHeader + m.data.length =
      room.currentBufSize + (m.data.length + lpMessageHeader) by omega] at last
    exact (framed.congr (agreeOn_putMessage _ m le_rfl)).append last
  let filled : UdpSender :=
    { room with
      sendBuf := putMessage room.sendBuf room.currentBufSize m
      currentBufSize := room.currentBufSize + (m.data.length + lpMessageHeader) }
  have with_new : batches.flatten ++ (pending ++ [m]) = ms ++ [m] := by
    rw [← List.append_assoc, all]
  unfold netSendUdp
  rw [if_neg (by omega)]
  dsimp only
  rw [made, Outcome.bind_running]
  unfold Outcome.check
  rw [if_pos space]
  split_ifs with full
  · obtain ⟨us', flushed, _, kept⟩ := forceFlush_sends filled space sent added with_new
    exact ⟨us', flushed, kept⟩
  · refine ⟨_, rfl, ?_, batches, _, sent, added, with_new⟩
    dsimp only
    unfold lpMessageHeader at full ⊢
    push_cast at full
    omega

theorem Buffered.step {us : UdpSender} {ms : List Message} (h : Buffered us ms) (e : SendEvent)
    (fits : ∀ m, e = .send m → m.data.length ≤ maxMessageSize) :
    ∃ us', sendStep us e = .running us' ∧ Buffered us' (ms ++ (messageOf e).toList) := by
  cases e with
  | send m => exact h.send (fits m rfl)
  | forceFlush =>
    obtain ⟨us', flushed, _, kept⟩ := h.forceFlush
    exact ⟨us', flushed, by simpa [messageOf] using kept⟩
  | autoflush =>
    obtain ⟨us', flushed, _, kept⟩ := h.forceFlush
    exact ⟨us', flushed, by simpa [messageOf] using kept⟩

/-- What holds of a sender after the messages `ms`: nothing was written past the
buffer, and the packets deliver the messages in order; those missing wait in the buffer. -/
structure Sends (us : UdpSender) (ms : List Message) : Prop where
  index : us.currentBufSize ≤ sendBufSize
  short : ∀ packet ∈ us.sent, packet.length ≤ maxUdpPayload
  inOrder : ∀ buf, ∃ first pending, received buf us.sent = some first ∧ first ++ pending = ms ∧
    received buf [read us.sendBuf 0 us.currentBufSize] = some pending ∧
    (us.currentBufSize = 0 → first = ms)

theorem Buffered.sends {us : UdpSender} {ms : List Message} (h : Buffered us ms) : Sends us ms := by
  obtain ⟨batches, pending, sent, framed, all⟩ := h.carried
  have index : us.currentBufSize ≤ sendBufSize := h.room.trans (by decide)
  have short : List.Forall₂ (fun packet batch => packet.length ≤ maxUdpPayload ∧
      Carries packet batch) us.sent batches := sent.imp fun _ _ carries => ⟨carries.short, carries⟩
  refine ⟨index, ((List.forall₂_and_left _ _).mp short).1, ?_⟩
  intro buf
  refine ⟨batches.flatten, pending, received_carries sent buf, all, ?_, ?_⟩
  · have waiting := received_carries (.cons (carries_read framed index) .nil) buf
    simpa using waiting
  · intro empty
    rw [empty] at framed
    rw [← all, framed.nil_of_empty, List.append_nil]

theorem run_buffered {us : UdpSender} {ms : List Message} (h : Buffered us ms)
    (es : List SendEvent) (fits : ∀ m, .send m ∈ es → m.data.length ≤ maxMessageSize) :
    ∃ us', Outcome.fold sendStep us es = .running us' ∧
      Buffered us' (ms ++ sentMessages es) := by
  induction es generalizing us ms with
  | nil => exact ⟨us, rfl, by simpa [sentMessages] using h⟩
  | cons e es ih =>
    obtain ⟨us', first, held⟩ := h.step e fun m he => fits m (by rw [he]; exact List.mem_cons_self)
    obtain ⟨us'', rest, kept⟩ := ih held fun m hm => fits m (List.mem_cons_of_mem e hm)
    refine ⟨us'', by rw [Outcome.fold_cons, first, Outcome.bind_running, rest], ?_⟩
    rw [List.append_assoc] at kept
    have split : sentMessages (e :: es) = (messageOf e).toList ++ sentMessages es := by
      unfold sentMessages
      cases h : messageOf e <;> simp [h]
    rwa [split]

/-- The packets of a sender give the receiver's callback the messages sent, in order;
any datagram is taken apart in finitely many turns, inside its bytes. -/
theorem packets_deliver_in_order (es : List SendEvent)
    (fits : ∀ m, .send m ∈ es → m.data.length ≤ maxMessageSize) (buf : Memory)
    (datagram : List UInt8) (short : datagram.length ≤ maxUdpPayload) :
    (∃ us, Outcome.fold sendStep udpSenderInit es = .running us ∧ Sends us (sentMessages es)) ∧
      ∃ ds, udpReadCallbackWrapper buf datagram = some ds ∧
        ∀ d ∈ ds, d.start + d.size ≤ datagram.length := by
  refine ⟨?_, udpReadCallbackWrapper_ends buf datagram short⟩
  obtain ⟨us, ran, held⟩ := run_buffered buffered_init es fits
  exact ⟨us, ran, held.sends⟩

/-- Two messages of `test_udp2`'s kind in one packet, the second one empty. -/
def batchedSends : List SendEvent := [.send ⟨513, [72, 105]⟩, .send ⟨514, []⟩, .forceFlush]

theorem batched_sends_delivered :
    (∃ us, Outcome.fold sendStep udpSenderInit batchedSends = .running us ∧
      Sends us [⟨513, [72, 105]⟩, ⟨514, []⟩]) ∧
      ∃ ds, udpReadCallbackWrapper (fun _ => 0) [9, 0, 0] = some ds ∧
        ∀ d ∈ ds, d.start + d.size ≤ 3 := by
  have fits : ∀ m, .send m ∈ batchedSends → m.data.length ≤ maxMessageSize := by
    intro m hm
    simp only [batchedSends, List.mem_cons, SendEvent.send.injEq, reduceCtorEq, List.not_mem_nil,
      or_false] at hm
    rcases hm with rfl | rfl <;> decide
  exact packets_deliver_in_order batchedSends fits (fun _ => 0) [9, 0, 0] (by decide)

end FdsPaxos.RingPackets
