import FdsPaxos.Paxos2Config
import FdsPaxos.Paxos2Messages

set_option autoImplicit false

/-!
The batching of `udp_sendbuf.c`.  The buffer is cleared for one message type
before each use, so a process has one open batch for each type it sends.
-/

namespace FdsPaxos.Paxos2SendBuffer
open Paxos2Config Paxos2Messages

/-- An open batch, and the batches handed to the network so far. -/
structure SendBuf (ι : Type) where
  dirty : Bool
  dataSize : ℕ
  items : List ι
  sent : List (List ι)
  clean : dirty = false → items = []

variable {ι : Type}

def sendbufNew : SendBuf ι where
  dirty := false
  dataSize := 0
  items := []
  sent := []
  clean := fun _ => rfl

def sendbufClear (sb : SendBuf ι) : SendBuf ι where
  dirty := false
  dataSize := batchHeader
  items := []
  sent := sb.sent
  clean := fun _ => rfl

/-- The `dirty` flag stays set: only `sendbuf_clear` resets it. -/
def sendbufFlush (sb : SendBuf ι) : SendBuf ι :=
  if sb.dirty then { sb with sent := sb.sent ++ [sb.items] } else sb

/-- The body shared by the `sendbuf_add_*` functions: an item that does not fit
first sends the open message. -/
def sendbufAdd (cfg : Config) (size : ι → ℕ) (sb : SendBuf ι) (x : ι) : SendBuf ι :=
  let sb' := if cfg.maxUdpMsgSize ≤ paxosMsgHeader + sb.dataSize + size x
    then sendbufClear (sendbufFlush sb) else sb
  { dirty := true
    dataSize := sb'.dataSize + size x
    items := sb'.items ++ [x]
    sent := sb'.sent
    clean := fun h => nomatch h }

def sendbufAddPrepareReq (cfg : Config) : SendBuf PrepareReq → PrepareReq → SendBuf PrepareReq :=
  sendbufAdd cfg prepareReqSize

def sendbufAddPrepareAck (cfg : Config) (sb : SendBuf PrepareAck) (rec : AcceptorRecord) :
    SendBuf PrepareAck :=
  sendbufAdd cfg prepareAckSize sb
    { iid := rec.iid, ballot := rec.ballot, valueBallot := rec.valueBallot, value := rec.value }

def sendbufAddAcceptReq (cfg : Config) : SendBuf AcceptReq → AcceptReq → SendBuf AcceptReq :=
  sendbufAdd cfg acceptReqSize

def sendbufAddAcceptAck (cfg : Config) : SendBuf AcceptAck → AcceptorRecord → SendBuf AcceptAck :=
  sendbufAdd cfg acceptAckSize

def sendbufAddRepeatReq (cfg : Config) : SendBuf ℕ → ℕ → SendBuf ℕ :=
  sendbufAdd cfg repeatReqSize

namespace SendBuf

/-- Everything in the buffer or already sent satisfies `P`. -/
def All (P : ι → Prop) (sb : SendBuf ι) : Prop :=
  (∀ batch ∈ sb.sent, ∀ x ∈ batch, P x) ∧ ∀ x ∈ sb.items, P x

/-- What was handed to the network after the batches `base`, and what is in the open
batch, satisfies `P`. -/
def SentSince (base : List (List ι)) (P : ι → Prop) (sb : SendBuf ι) : Prop :=
  (∃ more, sb.sent = base ++ more ∧ ∀ batch ∈ more, ∀ x ∈ batch, P x) ∧ ∀ x ∈ sb.items, P x

section SentSince

variable {base : List (List ι)} {P : ι → Prop} {sb : SendBuf ι}

theorem SentSince.start (sb : SendBuf ι) : (sendbufClear sb).SentSince sb.sent P :=
  ⟨⟨[], by simp [sendbufClear]⟩, by simp [sendbufClear]⟩

theorem SentSince.clear (h : sb.SentSince base P) : (sendbufClear sb).SentSince base P :=
  ⟨h.1, by simp [sendbufClear]⟩

theorem SentSince.flush (h : sb.SentSince base P) : (sendbufFlush sb).SentSince base P := by
  unfold sendbufFlush
  split_ifs
  · obtain ⟨⟨more, sent, good⟩, items⟩ := h
    refine ⟨⟨more ++ [sb.items], by simp [sent], ?_⟩, items⟩
    intro batch hb
    rcases List.mem_append.mp hb with hb | hb
    · exact good batch hb
    · rw [List.mem_singleton.mp hb]
      exact items
  · exact h

theorem SentSince.add (h : sb.SentSince base P) (cfg : Config) (size : ι → ℕ) {x : ι}
    (hx : P x) : (sendbufAdd cfg size sb x).SentSince base P := by
  have room : (if cfg.maxUdpMsgSize ≤ paxosMsgHeader + sb.dataSize + size x
      then sendbufClear (sendbufFlush sb) else sb).SentSince base P := by
    split_ifs
    · exact h.flush.clear
    · exact h
  refine ⟨room.1, ?_⟩
  intro y hy
  rcases List.mem_append.mp hy with hy | hy
  · exact room.2 y hy
  · rwa [List.mem_singleton.mp hy]

end SentSince

section All

variable {P Q : ι → Prop} {sb : SendBuf ι}

theorem all_iff : sb.All P ↔ sb.SentSince [] P := by
  simp [All, SentSince]

theorem All.new : (sendbufNew : SendBuf ι).All P :=
  ⟨(fun _ hb => nomatch hb), (fun _ hx => nomatch hx)⟩

theorem All.clear (h : sb.All P) : (sendbufClear sb).All P :=
  all_iff.mpr (all_iff.mp h).clear

theorem All.flush (h : sb.All P) : (sendbufFlush sb).All P :=
  all_iff.mpr (all_iff.mp h).flush

theorem All.add (h : sb.All P) (cfg : Config) (size : ι → ℕ) {x : ι} (hx : P x) :
    (sendbufAdd cfg size sb x).All P :=
  all_iff.mpr ((all_iff.mp h).add cfg size hx)

theorem All.mono (h : sb.All P) (imp : ∀ x, P x → Q x) : sb.All Q :=
  ⟨fun batch hb x hx => imp x (h.1 batch hb x hx), fun x hx => imp x (h.2 x hx)⟩

end All

def content (sb : SendBuf ι) : List ι := sb.sent.flatten ++ sb.items

theorem content_clear_flush (sb : SendBuf ι) :
    (sendbufClear (sendbufFlush sb)).content = sb.content := by
  unfold sendbufFlush content sendbufClear
  split_ifs with h
  · simp
  · simp [sb.clean (by simpa using h)]

theorem content_add (cfg : Config) (size : ι → ℕ) (sb : SendBuf ι) (x : ι) :
    (sendbufAdd cfg size sb x).content = sb.content ++ [x] := by
  unfold sendbufAdd
  dsimp only
  split_ifs
  · have := content_clear_flush sb
    simp only [content] at this ⊢
    rw [← List.append_assoc, this]
  · simp [content]

theorem sent_flush (sb : SendBuf ι) : (sendbufFlush sb).sent.flatten = sb.content := by
  unfold sendbufFlush content
  split_ifs with h
  · simp
  · simp [sb.clean (by simpa using h)]

theorem mem_sent_flush {sb : SendBuf ι} {batch : List ι} (h : batch ∈ sb.sent) :
    batch ∈ (sendbufFlush sb).sent := by
  unfold sendbufFlush
  split_ifs
  · exact List.mem_append_left _ h
  · exact h

theorem mem_sent_add (cfg : Config) (size : ι → ℕ) {sb : SendBuf ι} (x : ι) {batch : List ι}
    (h : batch ∈ sb.sent) : batch ∈ (sendbufAdd cfg size sb x).sent := by
  unfold sendbufAdd
  dsimp only
  split_ifs
  · exact mem_sent_flush h
  · exact h

@[simp] theorem sent_clear (sb : SendBuf ι) : (sendbufClear sb).sent = sb.sent := rfl

@[simp] theorem items_clear (sb : SendBuf ι) : (sendbufClear sb).items = [] := rfl

@[simp] theorem content_clear (sb : SendBuf ι) : (sendbufClear sb).content = sb.sent.flatten := by
  simp [content]

end SendBuf

end FdsPaxos.Paxos2SendBuffer
