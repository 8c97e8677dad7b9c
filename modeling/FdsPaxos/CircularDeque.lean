import FdsPaxos.CircularWindow
import Mathlib.Data.List.Basic
import Mathlib.Tactic.Common

set_option autoImplicit false

/-! Sequences kept in a circular array from a first index on, growing at both ends. -/

namespace FdsPaxos.CircularDeque
open CircularWindow

variable {α : Type*} {size : ℕ}

/-- The elements of a sequence of `count`, in their order. -/
def contents (size : ℕ) (slots : ℕ → α) (first count : ℕ) : List α :=
  (List.range count).map fun i => slots ((first + i) % size)

def following (size index : ℕ) : ℕ := if index + 1 = size then 0 else index + 1

def preceding (size index : ℕ) : ℕ := if index = 0 then size - 1 else index - 1

section Indices

variable {index count : ℕ}

theorem following_lt (lt : index < size) : following size index < size := by
  unfold following
  split_ifs <;> omega

theorem preceding_lt (lt : index < size) : preceding size index < size := by
  unfold preceding
  split_ifs <;> omega

theorem following_eq_mod (lt : index < size) : following size index = (index + 1) % size := by
  unfold following
  split_ifs with last
  · rw [last, Nat.mod_self]
  · rw [Nat.mod_eq_of_lt (by omega)]

theorem following_preceding (lt : index < size) :
    following size (preceding size index) = index := by
  by_cases zero : index = 0
  · have back : preceding size index = size - 1 := if_pos zero
    rw [back, following, if_pos (Nat.sub_add_cancel (Nat.zero_lt_of_lt lt)), zero]
  · have back : preceding size index = index - 1 := if_neg zero
    rw [back, following, if_neg (by omega)]
    omega

theorem preceding_following : preceding size (following size index) = index := by
  by_cases last : index + 1 = size
  · have next : following size index = 0 := if_pos last
    rw [next, preceding, if_pos rfl]
    omega
  · have next : following size index = index + 1 := if_neg last
    rw [next, preceding, if_neg (by omega)]
    omega

theorem following_add (lt : index < size) (count : ℕ) :
    (following size index + count) % size = (index + (count + 1)) % size := by
  rw [following_eq_mod lt, Nat.mod_add_mod]
  congr 1
  omega

end Indices

variable {slots : ℕ → α} {first count : ℕ}

@[simp] theorem length_contents : (contents size slots first count).length = count := by
  simp [contents]

theorem contents_cons (lt : first < size) :
    contents size slots first (count + 1) =
      slots first :: contents size slots (following size first) count := by
  simp only [contents, List.range_succ_eq_map, List.map_cons, List.map_map]
  congr 1
  · rw [Nat.add_zero, Nat.mod_eq_of_lt lt]
  · apply List.map_congr_left
    intro i _
    simp only [Function.comp, Nat.succ_eq_add_one, following_add lt i]

theorem contents_snoc :
    contents size slots first (count + 1) =
      contents size slots first count ++ [slots ((first + count) % size)] := by
  simp [contents, List.range_succ]

/-- The slot behind a sequence that is not full is none of its own. -/
theorem slot_apart {i j : ℕ} (less : i < j) (fits : j < size) :
    (first + i) % size ≠ (first + j) % size := by
  intro same
  have := index_apart (show first + i < first + j by omega) same
  omega

theorem contents_setSlot (room : count < size) (x : α) :
    contents size (setSlot slots ((first + count) % size) x) first count =
      contents size slots first count := by
  apply List.map_congr_left
  intro i inside
  have lt := List.mem_range.mp inside
  exact setSlot_of_ne slots _ _ x (slot_apart lt room)

theorem contents_push_back (room : count < size) (x : α) :
    contents size (setSlot slots ((first + count) % size) x) first (count + 1) =
      contents size slots first count ++ [x] := by
  rw [contents_snoc, contents_setSlot room, setSlot_self]

theorem contents_push_front (lt : first < size) (room : count < size) (x : α) :
    contents size (setSlot slots (preceding size first) x) (preceding size first) (count + 1) =
      x :: contents size slots first count := by
  rw [contents_cons (preceding_lt lt), following_preceding lt, setSlot_self]
  congr 1
  apply List.map_congr_left
  intro i inside
  have less := List.mem_range.mp inside
  have apart : (preceding size first + 0) % size ≠ (preceding size first + (i + 1)) % size :=
    slot_apart (Nat.succ_pos i) (by omega)
  apply setSlot_of_ne
  rw [← following_add (preceding_lt lt) i, following_preceding lt, Nat.add_zero,
    Nat.mod_eq_of_lt (preceding_lt lt)] at apart
  exact apart.symm

/-- Where a sequence of one more element ends, the index before is that of its last one. -/
theorem preceding_end (positive : 0 < size) :
    preceding size ((first + (count + 1)) % size) = (first + count) % size := by
  have lt := Nat.mod_lt (first + count) positive
  have next := following_add lt 0
  rw [← Nat.add_assoc, ← Nat.mod_add_mod, ← following_eq_mod lt, preceding_following]

end FdsPaxos.CircularDeque
