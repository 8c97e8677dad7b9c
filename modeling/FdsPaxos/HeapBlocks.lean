import FdsPaxos.CircularWindow

set_option autoImplicit false

/-!
Memory that a program gets in blocks and gives back.  A block has an address of its own for
good, so a pointer to a block that was given back leads to none.
-/

namespace FdsPaxos.HeapBlocks
open CircularWindow

variable {β : Type*}

/-- What lies in the blocks that are in use, and how many there have been. -/
structure Heap (β : Type*) where
  block : ℕ → Option β
  used : ℕ

namespace Heap

def empty : Heap β := ⟨fun _ => none, 0⟩

/-- The address of the block is the number of those before. -/
def malloc (h : Heap β) (data : β) : Heap β :=
  ⟨setSlot h.block h.used (some data), h.used + 1⟩

/-- There is no result for a block that is not in use. -/
def free (h : Heap β) (addr : ℕ) : Option (Heap β) :=
  (h.block addr).map fun _ => { h with block := setSlot h.block addr none }

variable {h : Heap β} {addr : ℕ} {data : β}

@[simp] theorem malloc_block : (h.malloc data).block h.used = some data :=
  setSlot_self _ _ _

theorem free_of_block (live : h.block addr = some data) :
    h.free addr = some { h with block := setSlot h.block addr none } := by
  simp [free, live]

/-- Freeing twice, and freeing what was never allocated. -/
theorem free_of_none (gone : h.block addr = none) : h.free addr = none := by
  simp [free, gone]

theorem free_gone {h' : Heap β} (done : h.free addr = some h') : h'.block addr = none := by
  obtain ⟨_, -, rfl⟩ := Option.map_eq_some_iff.mp done
  exact setSlot_self _ _ _

end Heap

end FdsPaxos.HeapBlocks
