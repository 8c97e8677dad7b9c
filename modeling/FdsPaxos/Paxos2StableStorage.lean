import FdsPaxos.Paxos2Messages
import Mathlib.Tactic.SplitIfs

set_option autoImplicit false

/-! The record store of `acceptor_stable_storage.c`, with the database as a map. -/

namespace FdsPaxos.Paxos2StableStorage
open Paxos2Messages

/-- The database of one acceptor.  `readError` marks the instances for which the
database reports a failed read, and `puts` is the history of all writes, latest first. -/
structure StableStorage where
  db : ℕ → Option AcceptorRecord
  readError : ℕ → Bool
  puts : List AcceptorRecord
  db_iid : ∀ i rec, db i = some rec → rec.iid = i

def stablestorageInit : StableStorage where
  db := fun _ => none
  readError := fun _ => false
  puts := []
  db_iid := fun _ _ h => nomatch h

/-- Not found, empty key and a failed read all give `NULL`.  A found record carries
the key it is read under, as the source asserts. -/
def stablestorageGetRecord (st : StableStorage) (iid : ℕ) : Option AcceptorRecord :=
  if st.readError iid then none else st.db iid

def put (st : StableStorage) (rec : AcceptorRecord) : StableStorage where
  db := fun i => if i = rec.iid then some rec else st.db i
  readError := st.readError
  puts := rec :: st.puts
  db_iid := by
    intro i r h
    split_ifs at h with hi
    · rw [← Option.some.inj h, hi]
    · exact st.db_iid i r h

def acceptRecord (ar : AcceptReq) : AcceptorRecord where
  iid := ar.iid
  ballot := ar.ballot
  valueBallot := ar.ballot
  isFinal := false
  value := ar.value

def stablestorageSaveAccept (st : StableStorage) (ar : AcceptReq) :
    StableStorage × AcceptorRecord :=
  (put st (acceptRecord ar), acceptRecord ar)

def prepareRecord (pr : PrepareReq) : Option AcceptorRecord → AcceptorRecord
  | none =>
    { iid := pr.iid, ballot := pr.ballot, valueBallot := 0, isFinal := false, value := [] }
  | some rec => { rec with ballot := pr.ballot }

def stablestorageSavePrepare (st : StableStorage) (pr : PrepareReq) (rec : Option AcceptorRecord) :
    StableStorage × AcceptorRecord :=
  (put st (prepareRecord pr rec), prepareRecord pr rec)

section Put

variable (st : StableStorage) (rec : AcceptorRecord)

@[simp] theorem put_db (i : ℕ) : (put st rec).db i = if i = rec.iid then some rec else st.db i :=
  rfl

@[simp] theorem put_readError : (put st rec).readError = st.readError := rfl

@[simp] theorem put_puts : (put st rec).puts = rec :: st.puts := rfl

end Put

theorem getRecord_some {st : StableStorage} {iid : ℕ} {rec : AcceptorRecord}
    (h : stablestorageGetRecord st iid = some rec) : st.db iid = some rec := by
  unfold stablestorageGetRecord at h
  split_ifs at h
  exact h

theorem getRecord_iid {st : StableStorage} {iid : ℕ} {rec : AcceptorRecord}
    (h : stablestorageGetRecord st iid = some rec) : rec.iid = iid :=
  st.db_iid iid rec (getRecord_some h)

theorem getRecord_of_readable {st : StableStorage} {iid : ℕ} (h : st.readError iid = false) :
    stablestorageGetRecord st iid = st.db iid := by
  simp [stablestorageGetRecord, h]

theorem prepareRecord_iid {st : StableStorage} (pr : PrepareReq) :
    (prepareRecord pr (stablestorageGetRecord st pr.iid)).iid = pr.iid := by
  cases h : stablestorageGetRecord st pr.iid with
  | none => rfl
  | some rec =>
    have found : rec.iid = pr.iid := getRecord_iid h
    simpa [prepareRecord] using found

@[simp] theorem prepareRecord_ballot (pr : PrepareReq) (rec : Option AcceptorRecord) :
    (prepareRecord pr rec).ballot = pr.ballot := by
  cases rec <;> rfl

end FdsPaxos.Paxos2StableStorage
