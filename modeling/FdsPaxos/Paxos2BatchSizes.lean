import FdsPaxos.Paxos2Wire
import Mathlib.Tactic.Linarith

set_option autoImplicit false

namespace FdsPaxos.Paxos2BatchSizes
open ByteMemory Paxos2Messages Paxos2Wire

/-- The sizes of the first items added up as they stand, without a machine's limit. -/
def wholeItems (l : BatchLayout) (m : Memory) : ℕ → ℕ
  | 0 => 0
  | i + 1 => wholeItems l m i + l.itemHeader + l.valueSize m (itemsAt + wholeItems l m i)

/-- The items that the batch declares, laid back to back, end four bytes before the
end of the message.  An array of requests may also declare fewer than no items, as
long as its count was received. -/
def BackToBack (l : BatchLayout) (m : Memory) (msgSize : ℕ) : Prop :=
  match l.valueSizeAt with
  | none => l.countAt + 2 ≤ msgSize ∧ (itemsAt + l.count m * l.itemHeader + 4 : ℤ) = msgSize
  | some _ => itemsAt + wholeItems l m (l.count m).toNat + 4 = msgSize

variable {l : BatchLayout} {m : Memory} {msgSize i : ℕ}

theorem wholeItems_mono {j : ℕ} (h : i ≤ j) : wholeItems l m i ≤ wholeItems l m j := by
  induction j, h using Nat.le_induction with
  | base => exact le_rfl
  | succ j _ ih =>
    simp only [wholeItems]
    omega

theorem wholeItems_congr {m' : Memory} {j : ℕ}
    (h : AgreeOn itemsAt (itemsAt + wholeItems l m j) m m') (le : i ≤ j) :
    wholeItems l m' i = wholeItems l m i := by
  induction i with
  | zero => rfl
  | succ i ih =>
    have within : wholeItems l m (i + 1) ≤ wholeItems l m j := wholeItems_mono le
    simp only [wholeItems] at within ⊢
    rw [ih (by omega)]
    have same : AgreeOn (itemsAt + wholeItems l m i)
        (itemsAt + wholeItems l m i + l.itemHeader) m m' := h.mono (by omega) (by omega)
    rw [l.valueSize_congr same]

theorem dataOffset_eq (i : ℕ) (below : itemsAt + wholeItems l m i < 2 ^ 64) :
    l.dataOffset m i = wholeItems l m i := by
  have start : itemsAt = 16 := rfl
  induction i with
  | zero => rfl
  | succ i ih =>
    simp only [wholeItems] at below ⊢
    have address : sizeT (itemsAt + wholeItems l m i) = itemsAt + wholeItems l m i := by
      unfold sizeT
      omega
    simp only [BatchLayout.dataOffset, ih (by omega), address, BatchLayout.itemSize]
    unfold sizeT
    omega

theorem valueSize_array (array : l.valueSizeAt = none) (a : ℕ) : l.valueSize m a = 0 := by
  unfold BatchLayout.valueSize
  rw [array]

theorem itemAddress_array (array : l.valueSizeAt = none) (i : ℕ) :
    l.itemAddress m i = itemsAt + l.itemHeader * i := by
  unfold BatchLayout.itemAddress
  rw [array]

theorem wholeItems_array (array : l.valueSizeAt = none) (i : ℕ) :
    wholeItems l m i = l.itemHeader * i := by
  induction i with
  | zero => rfl
  | succ i ih => rw [wholeItems, ih, valueSize_array array, Nat.mul_succ, Nat.add_zero]

theorem itemAddress_eq {k : ℕ} (valued : l.valueSizeAt = some k)
    (below : itemsAt + wholeItems l m i < 2 ^ 64) :
    l.itemAddress m i = itemsAt + wholeItems l m i := by
  unfold BatchLayout.itemAddress
  rw [valued]
  dsimp only
  rw [dataOffset_eq i below]
  exact Nat.mod_eq_of_lt below

theorem array_size (array : l.valueSizeAt = none) (short : msgSize ≤ maxUdpMsgSize) :
    sizeT (paxosMsgHeader + l.batchSize m) = msgSize ↔
      (itemsAt + l.count m * l.itemHeader + 4 : ℤ) = msgSize := by
  have limit : maxUdpMsgSize = 7500 := rfl
  have start : itemsAt = 16 := rfl
  have paxosHeader : paxosMsgHeader = 16 := rfl
  have header : batchHeader = 4 := rfl
  obtain ⟨low, high⟩ := getSigned_two_bounds m l.countAt
  have item := l.item_le
  have lower : -32768 * 24 ≤ l.count m * l.itemHeader := by
    unfold BatchLayout.count
    nlinarith
  have upper : l.count m * l.itemHeader ≤ 32768 * 24 := by
    unfold BatchLayout.count
    nlinarith
  unfold BatchLayout.batchSize
  rw [array]
  dsimp only
  unfold sizeT
  generalize l.count m * l.itemHeader = items at lower upper
  omega

theorem values_size {k : ℕ} (valued : l.valueSizeAt = some k) :
    sizeT (paxosMsgHeader + l.batchSize m) =
      sizeT (itemsAt + l.dataOffset m (l.count m).toNat + 4) := by
  have start : itemsAt = 16 := rfl
  have paxosHeader : paxosMsgHeader = 16 := rfl
  have header : batchHeader = 4 := rfl
  unfold BatchLayout.batchSize
  rw [valued]
  dsimp only
  unfold sizeT
  omega

theorem BackToBack.size (h : BackToBack l m msgSize) (short : msgSize ≤ maxUdpMsgSize) :
    sizeT (paxosMsgHeader + l.batchSize m) = msgSize := by
  have limit : maxUdpMsgSize = 7500 := rfl
  unfold BackToBack at h
  cases kind : l.valueSizeAt with
  | none =>
    rw [kind] at h
    exact (array_size kind short).mpr h.2
  | some k =>
    rw [kind] at h
    dsimp only at h
    rw [values_size kind, dataOffset_eq _ (by omega), h]
    exact Nat.mod_eq_of_lt (by omega)

end FdsPaxos.Paxos2BatchSizes
