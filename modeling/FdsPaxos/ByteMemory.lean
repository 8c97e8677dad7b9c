import Mathlib.Data.List.GetD
import Mathlib.Data.Nat.Notation
import Mathlib.Tactic.NormNum
import Mathlib.Tactic.Zify

set_option autoImplicit false

/-!
Byte-addressed memory and little-endian integers.  A C structure laid over a
buffer is read and written through these at the addresses of its fields.
-/

namespace FdsPaxos.ByteMemory

abbrev Memory := ℕ → UInt8

def read (m : Memory) (a len : ℕ) : List UInt8 := (List.range len).map fun i => m (a + i)

def write (m : Memory) (a : ℕ) (bs : List UInt8) : Memory := fun i =>
  if a ≤ i ∧ i < a + bs.length then bs.getD (i - a) 0 else m i

/-- The two memories hold the same bytes from `lo` up to `hi`. -/
def AgreeOn (lo hi : ℕ) (m m' : Memory) : Prop := ∀ i, lo ≤ i → i < hi → m i = m' i

section Bytes

variable {m m' : Memory} {a b lo hi len : ℕ} {bs : List UInt8}

theorem AgreeOn.mono {lo' hi' : ℕ} (h : AgreeOn lo hi m m') (hlo : lo ≤ lo') (hhi : hi' ≤ hi) :
    AgreeOn lo' hi' m m' :=
  fun i low high => h i (by omega) (by omega)

theorem AgreeOn.refl (lo hi : ℕ) (m : Memory) : AgreeOn lo hi m m := fun _ _ _ => rfl

theorem AgreeOn.trans {m'' : Memory} (h : AgreeOn lo hi m m') (h' : AgreeOn lo hi m' m'') :
    AgreeOn lo hi m m'' :=
  fun i low high => (h i low high).trans (h' i low high)

@[simp] theorem length_read (m : Memory) (a len : ℕ) : (read m a len).length = len := by
  simp [read]

theorem read_congr (h : AgreeOn a (a + len) m m') : read m a len = read m' a len := by
  apply List.map_congr_left
  intro i hi
  have := List.mem_range.mp hi
  exact h (a + i) (by omega) (by omega)

theorem write_outside (m : Memory) (bs : List UInt8) {i : ℕ} (h : i < a ∨ a + bs.length ≤ i) :
    write m a bs i = m i := by
  unfold write
  rw [if_neg (by omega)]

theorem write_inside (m : Memory) (a : ℕ) (bs : List UInt8) {i : ℕ} (h : i < bs.length) :
    write m a bs (a + i) = bs.getD i 0 := by
  unfold write
  rw [if_pos (by omega), Nat.add_sub_cancel_left]

theorem agreeOn_write (m : Memory) (bs : List UInt8) (h : hi ≤ a ∨ a + bs.length ≤ lo) :
    AgreeOn lo hi m (write m a bs) := by
  intro i low high
  exact (write_outside m bs (by omega)).symm

theorem read_write (m : Memory) (a : ℕ) (bs : List UInt8) : read (write m a bs) a bs.length = bs := by
  apply List.ext_getElem
  · simp
  · intro i h h'
    have inside := write_inside m a bs h'
    rw [List.getD_eq_getElem _ _ h'] at inside
    simpa [read] using inside

/-- A stretch of memory copied to the same place of another one. -/
theorem agreeOn_write_read (m m' : Memory) (a len : ℕ) :
    AgreeOn a (a + len) m (write m' a (read m a len)) := by
  intro i low high
  obtain ⟨k, rfl⟩ := Nat.exists_eq_add_of_le low
  have bound : k < (read m a len).length := by
    rw [length_read]
    omega
  rw [write_inside m' a _ bound, List.getD_eq_getElem _ _ bound]
  simp [read]

end Bytes

def leBytes : ℕ → ℕ → List UInt8
  | 0, _ => []
  | w + 1, n => UInt8.ofNat n :: leBytes w (n / 256)

def leValue : List UInt8 → ℕ
  | [] => 0
  | b :: bs => b.toNat + 256 * leValue bs

@[simp] theorem length_leBytes (w n : ℕ) : (leBytes w n).length = w := by
  induction w generalizing n with
  | zero => rfl
  | succ w ih => simp [leBytes, ih]

theorem leValue_leBytes (w n : ℕ) : leValue (leBytes w n) = n % 256 ^ w := by
  induction w generalizing n with
  | zero => simp [leBytes, leValue, Nat.mod_one]
  | succ w ih =>
    have low : (UInt8.ofNat n).toNat = n % 256 := by simp
    rw [leBytes, leValue, ih, low, Nat.pow_succ', Nat.mod_mul]

theorem leValue_lt (bs : List UInt8) : leValue bs < 256 ^ bs.length := by
  induction bs with
  | nil => simp [leValue]
  | cons b bs ih =>
    have byte : b.toNat < 256 := b.toNat_lt
    rw [leValue, List.length_cons, Nat.pow_succ']
    omega

def getLe (m : Memory) (w a : ℕ) : ℕ := leValue (read m a w)

def putLe (m : Memory) (w a n : ℕ) : Memory := write m a (leBytes w n)

def getSigned (m : Memory) (w a : ℕ) : ℤ := (getLe m w a : ℤ).bmod (256 ^ w)

def putSigned (m : Memory) (w a : ℕ) (z : ℤ) : Memory := putLe m w a (z % 256 ^ w).toNat

section Integers

variable {m m' : Memory} {w a b lo hi : ℕ}

theorem getLe_lt (m : Memory) (w a : ℕ) : getLe m w a < 256 ^ w := by
  have := leValue_lt (read m a w)
  rwa [length_read] at this

theorem getLe_congr (h : AgreeOn a (a + w) m m') : getLe m w a = getLe m' w a := by
  unfold getLe
  rw [read_congr h]

theorem getSigned_congr (h : AgreeOn a (a + w) m m') : getSigned m w a = getSigned m' w a := by
  unfold getSigned
  rw [getLe_congr h]

theorem getLe_putLe (m : Memory) (w a n : ℕ) : getLe (putLe m w a n) w a = n % 256 ^ w := by
  have back := read_write m a (leBytes w n)
  rw [length_leBytes] at back
  unfold getLe putLe
  rw [back, leValue_leBytes]

theorem getLe_putLe_of_lt {n : ℕ} (m : Memory) (a : ℕ) (h : n < 256 ^ w) :
    getLe (putLe m w a n) w a = n := by
  rw [getLe_putLe, Nat.mod_eq_of_lt h]

theorem agreeOn_putLe (m : Memory) (n : ℕ) (h : hi ≤ a ∨ a + w ≤ lo) :
    AgreeOn lo hi m (putLe m w a n) :=
  agreeOn_write m _ (by rwa [length_leBytes])

theorem getLe_write_apart (m : Memory) (bs : List UInt8) (h : b + w ≤ a ∨ a + bs.length ≤ b) :
    getLe (write m a bs) w b = getLe m w b :=
  (getLe_congr (agreeOn_write m bs h)).symm

theorem getLe_putLe_apart (m : Memory) (n : ℕ) {w' : ℕ} (h : b + w' ≤ a ∨ a + w ≤ b) :
    getLe (putLe m w a n) w' b = getLe m w' b :=
  (getLe_congr (agreeOn_putLe m n h)).symm

theorem getSigned_putLe_apart (m : Memory) (n : ℕ) {w' : ℕ} (h : b + w' ≤ a ∨ a + w ≤ b) :
    getSigned (putLe m w a n) w' b = getSigned m w' b :=
  (getSigned_congr (agreeOn_putLe m n h)).symm

theorem getLe_putSigned_apart (m : Memory) (z : ℤ) {w' : ℕ} (h : b + w' ≤ a ∨ a + w ≤ b) :
    getLe (putSigned m w a z) w' b = getLe m w' b :=
  getLe_putLe_apart m _ h

theorem getSigned_putSigned_apart (m : Memory) (z : ℤ) {w' : ℕ} (h : b + w' ≤ a ∨ a + w ≤ b) :
    getSigned (putSigned m w a z) w' b = getSigned m w' b :=
  getSigned_putLe_apart m _ h

theorem agreeOn_putSigned (m : Memory) (z : ℤ) (h : hi ≤ a ∨ a + w ≤ lo) :
    AgreeOn lo hi m (putSigned m w a z) :=
  agreeOn_putLe m _ h

theorem getSigned_two_bounds (m : Memory) (a : ℕ) :
    -32768 ≤ getSigned m 2 a ∧ getSigned m 2 a < 32768 := by
  unfold getSigned
  have low := Int.le_bmod (x := (getLe m 2 a : ℤ)) (m := 256 ^ 2) (by decide)
  have high := Int.bmod_lt (x := (getLe m 2 a : ℤ)) (m := 256 ^ 2) (by decide)
  constructor <;> omega

theorem getSigned_putSigned {z : ℤ} (m : Memory) (a : ℕ) (low : -(256 ^ w : ℤ) ≤ 2 * z)
    (high : 2 * z < 256 ^ w) : getSigned (putSigned m w a z) w a = z := by
  have positive : (0 : ℤ) < 256 ^ w := by exact_mod_cast Nat.pow_pos (show 0 < 256 by decide)
  have residue : 0 ≤ z % 256 ^ w := Int.emod_nonneg _ (Int.ne_of_gt positive)
  have bound : (z % 256 ^ w).toNat < 256 ^ w := by
    have := Int.emod_lt_of_pos z positive
    zify
    rwa [Int.toNat_of_nonneg residue]
  unfold getSigned putSigned
  rw [getLe_putLe_of_lt m a bound, Int.toNat_of_nonneg residue]
  have same : (256 ^ w : ℤ) = ((256 ^ w : ℕ) : ℤ) := by push_cast; rfl
  rw [same, Int.emod_bmod]
  apply Int.bmod_eq_of_le_mul_two <;> push_cast <;> omega

end Integers

/-- A `short int` keeps its value. -/
theorem getSigned_putSigned_two {z : ℤ} (m : Memory) (a : ℕ) (low : -32768 ≤ z)
    (high : z < 32768) : getSigned (putSigned m 2 a z) 2 a = z :=
  getSigned_putSigned m a (by norm_num; omega) (by norm_num; omega)

def getU32 (m : Memory) (a : ℕ) : UInt32 := UInt32.ofNat (getLe m 4 a)

def putU32 (m : Memory) (a : ℕ) (x : UInt32) : Memory := putLe m 4 a x.toNat

def getU16 (m : Memory) (a : ℕ) : UInt16 := UInt16.ofNat (getLe m 2 a)

def putU16 (m : Memory) (a : ℕ) (x : UInt16) : Memory := putLe m 2 a x.toNat

variable {m m' : Memory} {a b lo hi : ℕ}

@[simp] theorem getU32_putU32 (m : Memory) (a : ℕ) (x : UInt32) : getU32 (putU32 m a x) a = x := by
  unfold getU32 putU32
  rw [getLe_putLe_of_lt m a x.toNat_lt, UInt32.ofNat_toNat]

@[simp] theorem getU16_putU16 (m : Memory) (a : ℕ) (x : UInt16) : getU16 (putU16 m a x) a = x := by
  unfold getU16 putU16
  rw [getLe_putLe_of_lt m a x.toNat_lt, UInt16.ofNat_toNat]

theorem getU32_putU32_apart (m : Memory) (x : UInt32) (h : b + 4 ≤ a ∨ a + 4 ≤ b) :
    getU32 (putU32 m a x) b = getU32 m b := by
  unfold getU32 putU32
  rw [getLe_putLe_apart m _ h]

theorem getU32_putU16_apart (m : Memory) (x : UInt16) (h : b + 4 ≤ a ∨ a + 2 ≤ b) :
    getU32 (putU16 m a x) b = getU32 m b := by
  unfold getU32 putU16
  rw [getLe_putLe_apart m _ h]

theorem getU16_putU16_apart (m : Memory) (x : UInt16) (h : b + 2 ≤ a ∨ a + 2 ≤ b) :
    getU16 (putU16 m a x) b = getU16 m b := by
  unfold getU16 putU16
  rw [getLe_putLe_apart m _ h]

theorem getU32_congr (h : AgreeOn a (a + 4) m m') : getU32 m a = getU32 m' a := by
  unfold getU32
  rw [getLe_congr h]

theorem getU16_congr (h : AgreeOn a (a + 2) m m') : getU16 m a = getU16 m' a := by
  unfold getU16
  rw [getLe_congr h]

theorem AgreeOn.putU32 (h : AgreeOn lo hi m m') (a : ℕ) (x : UInt32) (apart : hi ≤ a ∨ a + 4 ≤ lo) :
    AgreeOn lo hi m (putU32 m' a x) :=
  h.trans (agreeOn_putLe m' _ apart)

theorem AgreeOn.putU16 (h : AgreeOn lo hi m m') (a : ℕ) (x : UInt16) (apart : hi ≤ a ∨ a + 2 ≤ lo) :
    AgreeOn lo hi m (putU16 m' a x) :=
  h.trans (agreeOn_putLe m' _ apart)

end FdsPaxos.ByteMemory
