import FdsPaxos.RingLpQueue
import Mathlib.Data.List.Nodup
import Mathlib.Data.List.Perm.Basic

set_option autoImplicit false

/-!
The pool of `memory_pool.c`, whose free chunks lie in a queue of `queue.c`.  Addresses are
counted in bytes, and `calloc` gives the pool memory that does not reach the end of the
address space.
-/

namespace FdsPaxos.RingMemoryPool
open TransitionRuns RingLpQueue
open RingMcasterStorage (maxQueueSizeBytes)

structure MemoryPool where
  totEntries : UInt64
  curEntries : UInt64
  entrySize : UInt64
  chunksQueue : LpQueue ℕ
  poolBegin : ℕ
  poolEnd : ℕ

/-- The assertions of the pool, and the use of a queue or of a chunk that there is not. -/
inductive PoolFault where
  | noQueue
  | notAppended
  | noneLeft
  | notPopped
  | sizeDiffers
  | outsidePool
  | allFree
  | notPrepended
deriving DecidableEq

def isMempoolExhaused (mp : MemoryPool) : Prop := mp.curEntries = 0

def isMempoolChunk (mp : MemoryPool) (entry : ℕ) : Prop :=
  mp.poolBegin ≤ entry ∧ entry ≤ mp.poolEnd

instance (mp : MemoryPool) : Decidable (isMempoolExhaused mp) := inferInstanceAs (Decidable (_ = _))

instance (mp : MemoryPool) (entry : ℕ) : Decidable (isMempoolChunk mp entry) :=
  inferInstanceAs (Decidable (_ ∧ _))

def noCopy (entry : ℕ) (_size : UInt64) : ℕ := entry

/-- One turn of the loop in `mempool_new`. -/
def appendChunk (entrySize : UInt64) (poolBegin : ℕ) (q : LpQueue ℕ) (i : ℕ) :
    Except PoolFault (LpQueue ℕ) :=
  let appended := queueAppend noCopy q (poolBegin + i * entrySize.toNat) entrySize false
  if appended.1 then .ok appended.2 else .error .notAppended

/-- The queue takes the number of entries as an `unsigned`; more of them than that
number fail in the loop. -/
def mempoolNew (numEntries entrySize : UInt64) (poolBegin : ℕ) : Except PoolFault MemoryPool :=
  match queueInit numEntries.toUInt32 with
  | none => .error .noQueue
  | some q => do
    let q ← (List.range numEntries.toNat).foldlM (appendChunk entrySize poolBegin) q
    .ok
      { totEntries := numEntries
        curEntries := numEntries
        entrySize := entrySize
        chunksQueue := q
        poolBegin := poolBegin
        poolEnd := poolBegin + numEntries.toNat * entrySize.toNat - entrySize.toNat }

def mempoolAlloc (mp : MemoryPool) : Except PoolFault (ℕ × MemoryPool) :=
  if mp.curEntries = 0 then .error .noneLeft
  else
    let popped := queuePop mp.chunksQueue
    match popped.1 with
    | none => .error .notPopped
    | some e =>
      if e.size ≠ mp.entrySize then .error .sizeDiffers
      else if ¬ isMempoolChunk mp e.data then .error .outsidePool
      else .ok (e.data, { mp with curEntries := mp.curEntries - 1, chunksQueue := popped.2 })

def mempoolFree (mp : MemoryPool) (entry : ℕ) : Except PoolFault MemoryPool :=
  if ¬ mp.curEntries < mp.totEntries then .error .allFree
  else if ¬ isMempoolChunk mp entry then .error .outsidePool
  else
    match queuePrepend noCopy mp.chunksQueue entry mp.entrySize false with
    | .aborted _ _ => .error .notPrepended
    | .running q => .ok { mp with curEntries := mp.curEntries + 1, chunksQueue := q }

inductive PoolCall where
  | alloc
  | free (entry : ℕ)

structure PoolUse where
  pool : MemoryPool
  allocated : List ℕ

def poolStep (r : PoolUse) : PoolCall → Outcome PoolFault PoolUse
  | .alloc =>
    match mempoolAlloc r.pool with
    | .error fault => .aborted fault r
    | .ok (chunk, pool) => .running ⟨pool, chunk :: r.allocated⟩
  | .free entry =>
    match mempoolFree r.pool entry with
    | .error fault => .aborted fault r
    | .ok pool => .running ⟨pool, r.allocated.erase entry⟩

def Allowed (r : PoolUse) : PoolCall → Prop
  | .alloc => ¬ isMempoolExhaused r.pool
  | .free entry => entry ∈ r.allocated

instance (r : PoolUse) : ∀ call, Decidable (Allowed r call)
  | .alloc => inferInstanceAs (Decidable (¬ _))
  | .free _ => inferInstanceAs (Decidable (_ ∈ _))

def chunks (numEntries entrySize : UInt64) (poolBegin : ℕ) : List ℕ :=
  (List.range numEntries.toNat).map fun i => poolBegin + i * entrySize.toNat

def freeChunks (mp : MemoryPool) : List ℕ := (elements mp.chunksQueue).map QueueElement.data

structure PoolSound (numEntries entrySize : UInt64) (poolBegin : ℕ) (r : PoolUse) : Prop where
  partition : (freeChunks r.pool ++ r.allocated).Perm (chunks numEntries entrySize poolBegin)
  distinct : (freeChunks r.pool ++ r.allocated).Nodup
  current : r.pool.curEntries.toNat = (freeChunks r.pool).length
  released : r.pool.chunksQueue.freed = []
  alloc : ¬ isMempoolExhaused r.pool → ∃ chunk pool, mempoolAlloc r.pool = .ok (chunk, pool) ∧
    chunk ∉ r.allocated ∧ chunk ∈ chunks numEntries entrySize poolBegin

section Sound

variable {numEntries entrySize : UInt64} {poolBegin : ℕ}

/-- The queue holds the free chunks, and nothing has left it but by allocation. -/
structure PoolState (numEntries entrySize : UInt64) (poolBegin : ℕ) (r : PoolUse)
    (free : List ℕ) : Prop where
  represents : Represents r.pool.chunksQueue
    ⟨numEntries.toNat, free.map fun chunk => ⟨chunk, entrySize⟩, []⟩
  partition : (free ++ r.allocated).Perm (chunks numEntries entrySize poolBegin)
  current : r.pool.curEntries.toNat = free.length
  total : r.pool.totEntries = numEntries
  sizes : r.pool.entrySize = entrySize
  begins : r.pool.poolBegin = poolBegin
  ends : r.pool.poolEnd =
    poolBegin + numEntries.toNat * entrySize.toNat - entrySize.toNat

theorem length_chunks : (chunks numEntries entrySize poolBegin).length = numEntries.toNat := by
  simp [chunks]

theorem nodup_chunks (sized : 1 ≤ entrySize.toNat) :
    (chunks numEntries entrySize poolBegin).Nodup := by
  apply List.Nodup.map _ List.nodup_range
  intro i j same
  exact Nat.eq_of_mul_eq_mul_right sized (Nat.add_left_cancel same)

theorem chunk_bounds {chunk : ℕ} (mem : chunk ∈ chunks numEntries entrySize poolBegin) :
    poolBegin ≤ chunk ∧
      chunk ≤ poolBegin + numEntries.toNat * entrySize.toNat - entrySize.toNat := by
  obtain ⟨i, inside, rfl⟩ := List.mem_map.mp mem
  have lt := List.mem_range.mp inside
  have step : (i + 1) * entrySize.toNat ≤ numEntries.toNat * entrySize.toNat :=
    Nat.mul_le_mul_right _ lt
  rw [Nat.succ_mul] at step
  omega

theorem totalSize_chunks (entrySize : UInt64) (free : List ℕ) :
    totalSize (free.map fun chunk => (⟨chunk, entrySize⟩ : QueueElement ℕ)) =
      free.length * entrySize.toNat := by
  induction free with
  | nil => simp
  | cons chunk free ih =>
    rw [List.map_cons, totalSize_cons, ih, List.length_cons, Nat.succ_mul, Nat.add_comm]

theorem one_more_fits (limit : numEntries.toNat * entrySize.toNat ≤ maxQueueSizeBytes)
    (free : List ℕ) (less : free.length < numEntries.toNat) :
    totalSize (free.map fun chunk => (⟨chunk, entrySize⟩ : QueueElement ℕ)) + entrySize.toNat ≤
      maxQueueSizeBytes := by
  have part : (free.length + 1) * entrySize.toNat ≤ numEntries.toNat * entrySize.toNat :=
    Nat.mul_le_mul_right _ less
  rw [totalSize_chunks, ← Nat.succ_mul]
  exact part.trans limit

variable {r : PoolUse} {free : List ℕ}

theorem PoolState.isMempoolChunk (h : PoolState numEntries entrySize poolBegin r free) {chunk : ℕ}
    (mem : chunk ∈ free ++ r.allocated) : isMempoolChunk r.pool chunk := by
  have bounds := chunk_bounds (h.partition.mem_iff.mp mem)
  rw [RingMemoryPool.isMempoolChunk, h.begins, h.ends]
  exact bounds

theorem PoolState.length (h : PoolState numEntries entrySize poolBegin r free) :
    free.length + r.allocated.length = numEntries.toNat := by
  rw [← List.length_append, h.partition.length_eq, length_chunks]

theorem mempoolAlloc_takes (h : PoolState numEntries entrySize poolBegin r free)
    (some : ¬ isMempoolExhaused r.pool) :
    ∃ chunk rest pool, free = chunk :: rest ∧ mempoolAlloc r.pool = .ok (chunk, pool) ∧
      PoolState numEntries entrySize poolBegin ⟨pool, chunk :: r.allocated⟩ rest := by
  have positive : 0 < r.pool.curEntries.toNat :=
    Nat.pos_of_ne_zero fun zero => some (UInt64.toNat_inj.mp zero)
  have current := h.current
  obtain ⟨result, next⟩ := queuePop_represents h.represents
  cases free with
  | nil => simp at current; omega
  | cons chunk rest =>
    have inside := h.isMempoolChunk (List.mem_append_left r.allocated List.mem_cons_self)
    refine ⟨chunk, rest, { r.pool with
      curEntries := r.pool.curEntries - 1
      chunksQueue := (queuePop r.pool.chunksQueue).2 }, rfl, ?_, ?_⟩
    · have popped : (queuePop r.pool.chunksQueue).1 = Option.some ⟨chunk, entrySize⟩ := result
      have left : r.pool.curEntries ≠ 0 := some
      rw [mempoolAlloc, if_neg left]
      simp only [popped, h.sizes, ne_eq, not_true_eq_false, if_false, inside]
    · have fewer : (r.pool.curEntries - 1).toNat = rest.length := by
        rw [UInt64.toNat_sub_of_le _ 1 (UInt64.le_iff_toNat_le.mpr positive), current]
        rfl
      exact
        { represents := next
          partition := List.perm_middle.trans h.partition
          current := fewer
          total := h.total
          sizes := h.sizes
          begins := h.begins
          ends := h.ends }

theorem mempoolFree_returns (h : PoolState numEntries entrySize poolBegin r free)
    (limit : numEntries.toNat * entrySize.toNat ≤ maxQueueSizeBytes)
    {entry : ℕ} (mem : entry ∈ r.allocated) :
    ∃ pool, mempoolFree r.pool entry = .ok pool ∧
      PoolState numEntries entrySize poolBegin ⟨pool, r.allocated.erase entry⟩ (entry :: free) := by
  have length := h.length
  have current := h.current
  have used := List.length_pos_of_mem mem
  have inside := h.isMempoolChunk (List.mem_append_right free mem)
  have below : r.pool.curEntries < r.pool.totEntries := by
    rw [UInt64.lt_iff_toNat_lt, h.total]
    omega
  have less : free.length < numEntries.toNat := by omega
  have room : (free.map fun chunk => (⟨chunk, entrySize⟩ : QueueElement ℕ)).length <
      numEntries.toNat := by
    rw [List.length_map]
    exact less
  have fits : entrySize.toNat +
      totalSize (free.map fun chunk => (⟨chunk, entrySize⟩ : QueueElement ℕ)) < 2 ^ 32 := by
    have bounded : maxQueueSizeBytes < 2 ^ 32 := by decide
    rw [Nat.add_comm]
    exact lt_of_le_of_lt (one_more_fits limit free less) bounded
  obtain ⟨q, prepended, next⟩ := queuePrepend_stores noCopy entry entrySize false h.represents
    room fits
  refine ⟨{ r.pool with curEntries := r.pool.curEntries + 1, chunksQueue := q }, ?_, ?_⟩
  · rw [mempoolFree, if_neg (not_not.mpr below), if_neg (not_not.mpr inside), h.sizes]
    simp only [prepended, h.sizes]
  · have more : (r.pool.curEntries + 1).toNat = free.length + 1 := by
      have := numEntries.toNat_lt
      simp
      omega
    have moved : (entry :: free ++ r.allocated.erase entry).Perm (free ++ r.allocated) :=
      List.perm_middle.symm.trans
        ((List.perm_cons_erase mem).symm.append_left free)
    exact
      { represents := next
        partition := moved.trans h.partition
        current := more
        total := h.total
        sizes := h.sizes
        begins := h.begins
        ends := h.ends }

theorem poolState_sound (sized : 1 ≤ entrySize.toNat)
    (h : PoolState numEntries entrySize poolBegin r free) :
    PoolSound numEntries entrySize poolBegin r := by
  have held : freeChunks r.pool = free := by
    rw [freeChunks, h.represents.contents, List.map_map]
    exact List.map_id free
  have distinct : (free ++ r.allocated).Nodup := h.partition.nodup_iff.mpr (nodup_chunks sized)
  refine ⟨by rw [held]; exact h.partition, by rw [held]; exact distinct,
    by rw [held]; exact h.current, h.represents.freed, ?_⟩
  intro some
  obtain ⟨chunk, rest, pool, rfl, done, next⟩ := mempoolAlloc_takes h some
  refine ⟨chunk, pool, done, ?_, ?_⟩
  · exact fun used => (List.nodup_append.mp distinct).2.2 chunk List.mem_cons_self chunk used rfl
  · exact h.partition.mem_iff.mp (List.mem_append_left r.allocated List.mem_cons_self)

theorem poolStep_sound (h : PoolState numEntries entrySize poolBegin r free)
    (limit : numEntries.toNat * entrySize.toNat ≤ maxQueueSizeBytes) {call : PoolCall}
    (allowed : Allowed r call) :
    ∃ r' free', poolStep r call = .running r' ∧
      PoolState numEntries entrySize poolBegin r' free' := by
  cases call with
  | alloc =>
    obtain ⟨chunk, rest, pool, -, done, next⟩ := mempoolAlloc_takes h allowed
    exact ⟨_, rest, by rw [poolStep, done], next⟩
  | free entry =>
    obtain ⟨pool, done, next⟩ := mempoolFree_returns h limit allowed
    exact ⟨_, entry :: free, by rw [poolStep, done], next⟩

theorem pool_run_sound (limit : numEntries.toNat * entrySize.toNat ≤ maxQueueSizeBytes)
    (calls : List PoolCall) (h : PoolState numEntries entrySize poolBegin r free)
    (allowed : Outcome.AlongFold poolStep Allowed r calls) :
    ∃ r' free', Outcome.fold poolStep r calls = .running r' ∧
      PoolState numEntries entrySize poolBegin r' free' := by
  induction calls generalizing r free with
  | nil => exact ⟨r, free, rfl, h⟩
  | cons call calls ih =>
    obtain ⟨first, rest⟩ := allowed
    obtain ⟨r', free', done, next⟩ := poolStep_sound h limit first
    obtain ⟨r'', free'', finished, last⟩ := ih next (rest.of_running done)
    refine ⟨r'', free'', ?_, last⟩
    rw [Outcome.fold_cons, done]
    exact finished

/-- The loop of `mempool_new` fills the queue with the chunks in their order. -/
theorem append_chunks (poolBegin : ℕ)
    (limit : numEntries.toNat * entrySize.toNat ≤ maxQueueSizeBytes) {q : LpQueue ℕ}
    (start : Represents q ⟨numEntries.toNat, [], []⟩) (n : ℕ) (le : n ≤ numEntries.toNat) :
    ∃ q', (List.range n).foldlM (appendChunk entrySize poolBegin) q = .ok q' ∧
      Represents q' ⟨numEntries.toNat, (List.range n).map fun i =>
        ⟨poolBegin + i * entrySize.toNat, entrySize⟩, []⟩ := by
  induction n with
  | zero => exact ⟨q, rfl, start⟩
  | succ n ih =>
    obtain ⟨q', filled, represents⟩ := ih (by omega)
    have fits := one_more_fits limit ((List.range n).map fun i => poolBegin + i * entrySize.toNat)
      (by rw [List.length_map, List.length_range]; exact le)
    rw [List.map_map] at fits
    have room : ((List.range n).map fun i =>
        (⟨poolBegin + i * entrySize.toNat, entrySize⟩ : QueueElement ℕ)).length <
          numEntries.toNat := by
      rw [List.length_map, List.length_range]
      exact le
    obtain ⟨q'', appended, next⟩ := queueAppend_stores noCopy (poolBegin + n * entrySize.toNat)
      entrySize false represents room fits
    have turn : appendChunk entrySize poolBegin q' n = .ok q'' := by
      simp only [appendChunk, appended, if_true]
    refine ⟨q'', ?_, ?_⟩
    · rw [List.range_succ, List.foldlM_append, filled]
      simp only [List.foldlM_cons, List.foldlM_nil, bind, Except.bind, turn]
      rfl
    · rw [List.range_succ, List.map_append]
      exact next

theorem mempoolNew_starts (positive : 1 ≤ numEntries.toNat)
    (limit : numEntries.toNat * entrySize.toNat ≤ maxQueueSizeBytes)
    (sized : 1 ≤ entrySize.toNat) :
    ∃ pool, mempoolNew numEntries entrySize poolBegin = .ok pool ∧
      PoolState numEntries entrySize poolBegin ⟨pool, []⟩
        (chunks numEntries entrySize poolBegin) := by
  have bounded : maxQueueSizeBytes < 2 ^ 32 := by decide
  have few : numEntries.toNat ≤ numEntries.toNat * entrySize.toNat :=
    Nat.le_mul_of_pos_right _ sized
  have same : numEntries.toUInt32.toNat = numEntries.toNat := by
    simp
    omega
  have some : numEntries.toUInt32 ≠ 0 := by
    intro zero
    have := congrArg UInt32.toNat zero
    rw [same] at this
    exact absurd this (by simp; omega)
  obtain ⟨q, init⟩ : ∃ q : LpQueue ℕ, queueInit numEntries.toUInt32 = Option.some q :=
    ⟨_, if_neg some⟩
  have start := represents_init init
  rw [same] at start
  obtain ⟨q', filled, represents⟩ := append_chunks poolBegin limit start
    numEntries.toNat le_rfl
  refine ⟨_, by rw [mempoolNew, init]; simp only [filled]; rfl, ?_⟩
  exact
    { represents := by rw [chunks, List.map_map]; exact represents
      partition := by rw [List.append_nil]
      current := length_chunks.symm
      total := rfl
      sizes := rfl
      begins := rfl
      ends := rfl }

end Sound

theorem pool_sound (numEntries entrySize : UInt64) (poolBegin : ℕ)
    (positive : 1 ≤ numEntries.toNat)
    (limit : numEntries.toNat * entrySize.toNat ≤ maxQueueSizeBytes)
    (sized : 1 ≤ entrySize.toNat) :
    ∃ pool, mempoolNew numEntries entrySize poolBegin = .ok pool ∧
      ∀ calls, Outcome.AlongFold poolStep Allowed ⟨pool, []⟩ calls →
        ∃ r, Outcome.fold poolStep ⟨pool, []⟩ calls = .running r ∧
          PoolSound numEntries entrySize poolBegin r := by
  obtain ⟨pool, created, start⟩ := mempoolNew_starts positive limit sized
  refine ⟨pool, created, fun calls allowed => ?_⟩
  obtain ⟨r, free, done, state⟩ := pool_run_sound limit calls start allowed
  exact ⟨r, done, poolState_sound sized state⟩

theorem pool_sound_two_chunks : ∃ pool, mempoolNew 2 8 4096 = .ok pool ∧
    ∃ r, Outcome.fold poolStep ⟨pool, []⟩ [.alloc, .alloc, .free 4096, .alloc] = .running r ∧
      PoolSound 2 8 4096 r := by
  obtain ⟨pool, created, runs⟩ := pool_sound 2 8 4096 (by decide) (by decide) (by decide)
  have allowed : (mempoolNew 2 8 4096).map (fun pool => decide (Outcome.AlongFold poolStep Allowed
      ⟨pool, []⟩ [.alloc, .alloc, .free 4096, .alloc])) = .ok true := by
    decide +kernel
  rw [created] at allowed
  exact ⟨pool, created, runs _ (of_decide_eq_true (Except.ok.inj allowed))⟩

/-- Chunks without a size share an address, and two allocations return it. -/
theorem zero_sized_chunks_coincide :
    ¬ ∀ (numEntries entrySize : UInt64) (poolBegin : ℕ), 1 ≤ numEntries.toNat →
      numEntries.toNat * entrySize.toNat ≤ maxQueueSizeBytes →
        ∃ pool, mempoolNew numEntries entrySize poolBegin = .ok pool ∧
          ∀ calls, Outcome.AlongFold poolStep Allowed ⟨pool, []⟩ calls →
            ∃ r, Outcome.fold poolStep ⟨pool, []⟩ calls = .running r ∧
              PoolSound numEntries entrySize poolBegin r := by
  intro all
  obtain ⟨pool, created, runs⟩ := all 2 0 4096 (by decide) (by decide)
  have run : (mempoolNew 2 0 4096).map (fun pool =>
      (decide (Outcome.AlongFold poolStep Allowed ⟨pool, []⟩ [.alloc, .alloc]),
        (Outcome.fold poolStep ⟨pool, []⟩ [.alloc, .alloc]).state.allocated)) =
          .ok (true, [4096, 4096]) := by
    decide +kernel
  rw [created] at run
  obtain ⟨allowed, twice⟩ := Prod.mk.inj (Except.ok.inj run)
  obtain ⟨r, done, sound⟩ := runs [.alloc, .alloc] (of_decide_eq_true allowed)
  rw [done] at twice
  have distinct := (List.nodup_append.mp sound.distinct).2.1
  rw [show r.allocated = [4096, 4096] from twice] at distinct
  exact absurd distinct (by decide)

end FdsPaxos.RingMemoryPool
