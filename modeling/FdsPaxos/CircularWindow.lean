import Mathlib.Data.Finset.Card
import Mathlib.Data.Nat.Basic
import Mathlib.Order.Interval.Finset.Nat
import Mathlib.Tactic.Ring

set_option autoImplicit false

namespace FdsPaxos.CircularWindow

def setSlot {α : Type*} (slots : ℕ → α) (j : ℕ) (x : α) : ℕ → α :=
  fun k => if k = j then x else slots k

section SetSlot

variable {α : Type*} (slots : ℕ → α) (j k : ℕ) (x : α)

@[simp] theorem setSlot_self : setSlot slots j x j = x := by
  simp [setSlot]

theorem setSlot_of_ne (h : k ≠ j) : setSlot slots j x k = slots k := by
  simp [setSlot, h]

theorem setSlot_apply : setSlot slots j x k = if k = j then x else slots k := rfl

@[simp] theorem setSlot_setSlot (y : α) :
    setSlot (setSlot slots j x) j y = setSlot slots j y := by
  funext k
  simp only [setSlot_apply]
  split_ifs <;> rfl

end SetSlot

section SlotCount

variable {α : Type*} {P : α → Prop} [DecidablePred P] {size j k : ℕ}

/-- The number of slots of a buffer that meet a condition. -/
def slotCount (size : ℕ) (P : α → Prop) [DecidablePred P] (slots : ℕ → α) : ℕ :=
  (List.range size).countP fun j => decide (P (slots j))

theorem slotCount_succ (slots : ℕ → α) :
    slotCount (size + 1) P slots = slotCount size P slots + if P (slots size) then 1 else 0 := by
  simp [slotCount, List.range_succ]

theorem slotCount_le (slots : ℕ → α) : slotCount size P slots ≤ size := by
  simpa [slotCount] using List.countP_le_length (l := List.range size)

theorem slotCount_pos {slots : ℕ → α} (lt : j < size) (met : P (slots j)) :
    0 < slotCount size P slots := by
  apply List.countP_pos_iff.mpr
  exact ⟨j, List.mem_range.mpr lt, decide_eq_true met⟩

theorem slotCount_eq_zero {slots : ℕ → α} :
    slotCount size P slots = 0 ↔ ∀ j < size, ¬ P (slots j) := by
  simp [slotCount, List.countP_eq_zero]

theorem slotCount_congr {Q : α → Prop} [DecidablePred Q] {slots : ℕ → α}
    (same : ∀ j < size, P (slots j) ↔ Q (slots j)) :
    slotCount size P slots = slotCount size Q slots := by
  apply List.countP_congr
  intro j inside
  simpa using same j (List.mem_range.mp inside)

theorem slotCount_setSlot_of_le {slots : ℕ → α} (le : size ≤ j) (x : α) :
    slotCount size P (setSlot slots j x) = slotCount size P slots := by
  apply List.countP_congr
  intro k inside
  have lt := List.mem_range.mp inside
  rw [setSlot_of_ne slots j k x (by omega)]

theorem slotCount_setSlot (slots : ℕ → α) (lt : j < size) (x : α) :
    slotCount size P (setSlot slots j x) + (if P (slots j) then 1 else 0) =
      slotCount size P slots + if P x then 1 else 0 := by
  induction size with
  | zero => omega
  | succ size ih =>
    rw [slotCount_succ, slotCount_succ]
    by_cases last : j = size
    · subst last
      rw [slotCount_setSlot_of_le le_rfl x, setSlot_self]
      omega
    · rw [setSlot_of_ne slots j size x fun same => last same.symm]
      have := ih (by omega)
      omega

theorem slotCount_le_one (slots : ℕ → α) (one : slotCount size P slots ≤ 1) (hj : j < size)
    (hk : k < size) (metj : P (slots j)) (metk : P (slots k)) : j = k := by
  induction size with
  | zero => omega
  | succ size ih =>
    rw [slotCount_succ] at one
    by_cases met : P (slots size)
    · rw [if_pos met] at one
      have none := slotCount_eq_zero.mp (Nat.le_zero.mp (Nat.le_of_succ_le_succ one))
      have last (i : ℕ) (hi : i < size + 1) (met : P (slots i)) : i = size := by
        by_contra other
        exact none i (by omega) met
      rw [last j hj metj, last k hk metk]
    · rw [if_neg met] at one
      have inside (i : ℕ) (hi : i < size + 1) (here : P (slots i)) : i < size := by
        by_contra outside
        exact met ((show i = size by omega) ▸ here)
      exact ih one (inside j hj metj) (inside k hk metk)

theorem slotCount_eq_card (slots : ℕ → α) :
    slotCount size P slots = ((Finset.range size).filter fun j => P (slots j)).card := by
  induction size with
  | zero => rfl
  | succ size ih =>
    rw [slotCount_succ, ih, Finset.range_add_one, Finset.filter_insert]
    split_ifs
    · rw [Finset.card_insert_of_notMem (by simp)]
    · rfl

theorem slotCount_or {Q : α → Prop} [DecidablePred Q] {slots : ℕ → α}
    (apart : ∀ j < size, P (slots j) → ¬ Q (slots j)) :
    slotCount size (fun x => P x ∨ Q x) slots =
      slotCount size P slots + slotCount size Q slots := by
  induction size with
  | zero => rfl
  | succ size ih =>
    have last := apart size (Nat.lt_succ_self size)
    simp only [slotCount_succ]
    rw [ih fun j inside => apart j (Nat.lt_succ_of_lt inside)]
    by_cases met : P (slots size)
    · simp only [met, last met, if_true, if_false, or_false]
      omega
    · simp only [met, false_or, if_false]
      omega

end SlotCount

/-- Two counters of one slot are at least a buffer apart. -/
theorem index_apart {size i j : ℕ} (less : i < j) (same : i % size = j % size) :
    i + size ≤ j := by
  have hi := Nat.div_add_mod i size
  have hj := Nat.div_add_mod j size
  have quotients : i / size + 1 ≤ j / size := by
    by_contra less'
    have le : size * (j / size) ≤ size * (i / size) := Nat.mul_le_mul_left size (by omega)
    omega
  have apart : size * (i / size) + size ≤ size * (j / size) := by
    calc size * (i / size) + size = size * (i / size + 1) := by ring
      _ ≤ size * (j / size) := Nat.mul_le_mul_left size quotients
  omega

/-- Two counters of one window of the buffer's size share a slot only if equal. -/
theorem window_index_injective {size low i j : ℕ}
    (hi : low ≤ i) (hi' : i < low + size) (hj : low ≤ j) (hj' : j < low + size)
    (same : i % size = j % size) : i = j := by
  rcases Nat.lt_trichotomy i j with less | equal | less
  · have apart := index_apart less same
    omega
  · exact equal
  · have apart := index_apart less same.symm
    omega

section Window

variable {α : Type*} {P : α → Prop} [DecidablePred P] {size : ℕ}

/-- The slots that meet a condition are those of the counters of a window. -/
theorem slotCount_window {slots : ℕ → α} (low : ℕ) {n : ℕ} (fits : n ≤ size)
    (exact : ∀ j < size, P (slots j) ↔ ∃ i, low < i ∧ i ≤ low + n ∧ i % size = j) :
    slotCount size P slots = n := by
  have images : (Finset.range size).filter (fun j => P (slots j)) =
      (Finset.Ioc low (low + n)).image (· % size) := by
    ext j
    simp only [Finset.mem_filter, Finset.mem_range, Finset.mem_image, Finset.mem_Ioc]
    constructor
    · rintro ⟨inside, met⟩
      obtain ⟨i, above, le, here⟩ := (exact j inside).mp met
      exact ⟨i, ⟨above, le⟩, here⟩
    · rintro ⟨i, ⟨above, le⟩, rfl⟩
      have inside := Nat.mod_lt i (show 0 < size by omega)
      exact ⟨inside, (exact _ inside).mpr ⟨i, above, le, rfl⟩⟩
  rw [slotCount_eq_card, images, Finset.card_image_of_injOn, Nat.card_Ioc]
  · omega
  · intro i hi j hj same
    obtain ⟨above, le⟩ := Finset.mem_Ioc.mp (Finset.mem_coe.mp hi)
    obtain ⟨above', le'⟩ := Finset.mem_Ioc.mp (Finset.mem_coe.mp hj)
    have first : low + 1 ≤ i := above
    have second : low + 1 ≤ j := above'
    exact window_index_injective first (by omega) second (by omega) same

end Window

/-- The test `n & (n - 1) == 0` of the source accepts only powers of two. -/
theorem power_of_two_of_mask {n : ℕ} (positive : 0 < n) (mask : n &&& (n - 1) = 0) :
    ∃ k, n = 2 ^ k := by
  induction n using Nat.strongRecOn with
  | ind n ih =>
    rcases Nat.even_or_odd' n with ⟨m, rfl | rfl⟩
    · have hm : 0 < m := by omega
      have half : m &&& (m - 1) = 0 := by
        have := congrArg (· / 2) mask
        simp only [Nat.and_div_two] at this
        rwa [Nat.mul_div_cancel_left _ (by decide), show (2 * m - 1) / 2 = m - 1 by omega] at this
      obtain ⟨k, hk⟩ := ih m (by omega) hm half
      exact ⟨k + 1, by rw [hk, pow_succ, Nat.mul_comm]⟩
    · rcases Nat.eq_zero_or_pos m with rfl | hm
      · exact ⟨0, rfl⟩
      · exfalso
        have := congrArg (· / 2) mask
        simp only [Nat.and_div_two] at this
        rw [show (2 * m + 1) / 2 = m by omega, show (2 * m + 1 - 1) / 2 = m by omega,
          Nat.and_self] at this
        omega

theorem mask_eq_mod {n : ℕ} (positive : 0 < n) (mask : n &&& (n - 1) = 0) (i : ℕ) :
    i &&& (n - 1) = i % n := by
  obtain ⟨k, rfl⟩ := power_of_two_of_mask positive mask
  exact Nat.and_two_pow_sub_one_eq_mod i k

end FdsPaxos.CircularWindow
