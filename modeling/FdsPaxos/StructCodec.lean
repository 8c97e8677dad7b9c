import FdsPaxos.ByteMemory
import FdsPaxos.StructLayout
import Mathlib.Data.List.Forall2

set_option autoImplicit false

/-!
C structures as bytes: the values of the fields are written at their offsets, bytes of any
number follow behind the structure, and a reader finds both again wherever the bytes lie.
-/

namespace FdsPaxos.StructCodec
open ByteMemory StructLayout

/-- A field and its offset. -/
abbrev Place := ℕ × FieldType

def putCells (buf : Memory) (cells : List (Place × ℕ)) : Memory :=
  cells.foldl (fun buf cell => putLe buf cell.1.2.size cell.1.1 cell.2) buf

def places (fields : List FieldType) : List Place := (offsets fields).zip fields

/-- The values of the fields of a structure at address `a`. -/
def getFields (buf : Memory) (a : ℕ) (fields : List FieldType) : List ℕ :=
  (places fields).map fun f => getLe buf f.2.size (a + f.1)

/-- A structure with its fields set, and the bytes `tail` behind it; padding is left as it was. -/
def structBytes (buf : Memory) (fields : List FieldType) (values : List ℕ) (tail : List UInt8) :
    List UInt8 :=
  read (write (putCells buf ((places fields).zip values)) (sizeof fields) tail) 0
    (sizeof fields + tail.length)

/-- The fields lie behind each other, from `lo` up to `hi`. -/
def Apart : ℕ → ℕ → List Place → Prop
  | lo, hi, [] => lo ≤ hi
  | lo, hi, f :: fs => lo ≤ f.1 ∧ Apart (f.1 + f.2.size) hi fs

/-- Every field has an alignment, a value, and room for it. -/
structure Suits (fields : List FieldType) (values : List ℕ) : Prop where
  aligned : ∀ f ∈ fields, 0 < f.align
  values : List.Forall₂ (fun f n => n < 256 ^ f.size) fields values

section Bytes

variable {m m' : Memory} {a b off w n : ℕ}

theorem read_part (m : Memory) (a : ℕ) (inside : off + w ≤ n) :
    read m (a + off) w = ((read m a n).drop off).take w := by
  apply List.ext_getElem
  · simp
    omega
  · intro i h h'
    simp [ByteMemory.read, Nat.add_assoc]

/-- The same bytes at two places hold the same at each offset. -/
theorem read_of_same (same : read m a n = read m' b n) (inside : off + w ≤ n) :
    read m (a + off) w = read m' (b + off) w := by
  rw [read_part m a inside, read_part m' b inside, same]

theorem getLe_of_same (same : read m a n = read m' b n) (inside : off + w ≤ n) :
    getLe m w (a + off) = getLe m' w (b + off) :=
  congrArg leValue (read_of_same same inside)

end Bytes

section Layout

variable {lo hi : ℕ} {fs : List Place} {fields : List FieldType}

theorem le_alignUp {align : ℕ} (offset : ℕ) (positive : 0 < align) :
    offset ≤ alignUp offset align := by
  have whole := Nat.div_add_mod (offset + align - 1) align
  have rest := Nat.mod_lt (offset + align - 1) positive
  have comm := Nat.mul_comm align ((offset + align - 1) / align)
  unfold alignUp
  omega

theorem Apart.le (h : Apart lo hi fs) : lo ≤ hi := by
  induction fs generalizing lo with
  | nil => exact h
  | cons f fs ih =>
    have := ih h.2
    have := h.1
    omega

theorem Apart.within (h : Apart lo hi fs) : ∀ f ∈ fs, lo ≤ f.1 ∧ f.1 + f.2.size ≤ hi := by
  induction fs generalizing lo with
  | nil => simp
  | cons f fs ih =>
    have first := h.2.le
    refine List.forall_mem_cons.mpr ⟨⟨h.1, first⟩, fun f' hf' => ?_⟩
    have later := ih h.2 f' hf'
    have := h.1
    omega

theorem length_place (lo : ℕ) (fields : List FieldType) :
    (place lo fields).1.length = fields.length := by
  induction fields generalizing lo with
  | nil => rfl
  | cons f fields ih => simp [place, ih]

theorem apart_place (lo : ℕ) (aligned : ∀ f ∈ fields, 0 < f.align) :
    Apart lo (place lo fields).2 ((place lo fields).1.zip fields) := by
  induction fields generalizing lo with
  | nil => exact le_refl lo
  | cons f fields ih =>
    obtain ⟨first, others⟩ := List.forall_mem_cons.mp aligned
    exact ⟨le_alignUp lo first, ih _ others⟩

theorem structAlign_pos (fields : List FieldType) : 0 < structAlign fields := by
  have above (n : ℕ) (aligns : List ℕ) (positive : 0 < n) : 0 < aligns.foldl max n := by
    induction aligns generalizing n with
    | nil => exact positive
    | cons k aligns ih => exact ih _ (lt_of_lt_of_le positive (le_max_left n k))
  exact above 1 _ Nat.one_pos

theorem apart_fields (aligned : ∀ f ∈ fields, 0 < f.align) :
    Apart 0 (sizeof fields) (places fields) := by
  have apart := apart_place 0 aligned
  have padded := le_alignUp (place 0 fields).2 (structAlign_pos fields)
  have wider {lo hi hi' : ℕ} {fs : List Place} (h : Apart lo hi fs) (le : hi ≤ hi') :
      Apart lo hi' fs := by
    induction fs generalizing lo with
    | nil => exact Nat.le_trans h le
    | cons f fs ih => exact ⟨h.1, ih h.2⟩
  exact wider apart padded

end Layout

section Cells

variable {lo hi : ℕ} {fs : List Place} {values : List ℕ}

theorem agreeOn_putCells (buf : Memory) (h : Apart lo hi fs) (values : List ℕ) :
    AgreeOn 0 lo buf (putCells buf (fs.zip values)) := by
  induction fs generalizing lo buf values with
  | nil => exact .refl 0 lo buf
  | cons f fs ih =>
    cases values with
    | nil => exact .refl 0 lo buf
    | cons n values =>
      have first : AgreeOn 0 lo buf (putLe buf f.2.size f.1 n) := agreeOn_putLe buf n (.inl h.1)
      have later := ih (putLe buf f.2.size f.1 n) h.2 values
      have below : lo ≤ f.1 + f.2.size := h.1.trans (Nat.le_add_right _ _)
      exact first.trans (later.mono le_rfl below)

/-- What was written into the fields is read back; the fields written later lie behind. -/
theorem getLe_putCells (buf : Memory) (h : Apart lo hi fs)
    (room : List.Forall₂ (fun f n => n < 256 ^ f.2.size) fs values) :
    fs.map (fun f => getLe (putCells buf (fs.zip values)) f.2.size f.1) = values := by
  induction room generalizing lo buf with
  | nil => rfl
  | @cons f n fs values small _ ih =>
    let written := putLe buf f.2.size f.1 n
    have rest := agreeOn_putCells written h.2 values
    have here : getLe (putCells written (fs.zip values)) f.2.size f.1 = n := by
      rw [← getLe_congr (rest.mono (Nat.zero_le _) le_rfl)]
      exact getLe_putLe_of_lt buf f.1 small
    exact congrArg₂ List.cons here (ih written h.2)

end Cells

section Arrays

variable {m : Memory} {a w : ℕ} {values : List ℕ}

/-- Integers of `w` bytes behind each other. -/
def arrayBytes (w : ℕ) (values : List ℕ) : List UInt8 := values.flatMap (leBytes w)

def getArray (m : Memory) (w a n : ℕ) : List ℕ := (List.range n).map fun i => getLe m w (a + w * i)

@[simp] theorem length_arrayBytes (w : ℕ) (values : List ℕ) :
    (arrayBytes w values).length = w * values.length := by
  induction values with
  | nil => rfl
  | cons n values ih =>
    change (leBytes w n ++ arrayBytes w values).length = w * (values.length + 1)
    rw [List.length_append, length_leBytes, ih, Nat.mul_succ, Nat.add_comm]

theorem getArray_succ (m : Memory) (w a n : ℕ) :
    getArray m w a (n + 1) = getLe m w a :: getArray m w (a + w) n := by
  unfold getArray
  rw [List.range_succ_eq_map, List.map_cons, List.map_map]
  congr 1
  apply List.map_congr_left
  intro i _
  change getLe m w (a + w * (i + 1)) = getLe m w (a + w + w * i)
  congr 1
  rw [Nat.mul_succ]
  omega

theorem getArray_arrayBytes (small : ∀ n ∈ values, n < 256 ^ w)
    (found : read m a (w * values.length) = arrayBytes w values) :
    getArray m w a values.length = values := by
  induction values generalizing a with
  | nil => rfl
  | cons n values ih =>
    obtain ⟨first, others⟩ := List.forall_mem_cons.mp small
    have whole : read m a (w * (n :: values).length) = leBytes w n ++ arrayBytes w values := found
    have room : w * (n :: values).length = w + w * values.length := by
      rw [List.length_cons, Nat.mul_succ, Nat.add_comm]
    rw [room] at whole
    have head : read m a w = leBytes w n := by
      have inside : 0 + w ≤ w + w * values.length := by omega
      have part := read_part m a inside
      rw [whole, Nat.add_zero, List.drop_zero, List.take_left' (length_leBytes w n)] at part
      exact part
    have rest : read m (a + w) (w * values.length) = arrayBytes w values := by
      have part := read_part m a (le_refl (w + w * values.length))
      rw [whole, List.drop_left' (length_leBytes w n), ← length_arrayBytes,
        List.take_length] at part
      rwa [length_arrayBytes] at part
    have value : getLe m w a = n := by
      unfold getLe
      rw [head, leValue_leBytes, Nat.mod_eq_of_lt first]
    rw [List.length_cons, getArray_succ, value, ih others rest]

end Arrays

variable {buf mem : Memory} {fields : List FieldType} {values : List ℕ} {tail : List UInt8} {a : ℕ}

theorem places_room (suits : Suits fields values) :
    List.Forall₂ (fun f n => n < 256 ^ f.2.size) (places fields) values := by
  have same : (places fields).map Prod.snd = fields :=
    List.map_snd_zip (length_place 0 fields).ge
  have room := suits.values
  rw [← same, List.forall₂_map_left_iff] at room
  exact room

@[simp] theorem length_structBytes : (structBytes buf fields values tail).length =
    sizeof fields + tail.length :=
  length_read _ _ _

/-- The bytes of a structure, found at address `a`. -/
theorem getFields_structBytes (suits : Suits fields values)
    (found : read mem a (sizeof fields + tail.length) = structBytes buf fields values tail) :
    getFields mem a fields = values := by
  have apart := apart_fields suits.aligned
  let filled := putCells buf ((places fields).zip values)
  have kept : AgreeOn 0 (sizeof fields) filled (write filled (sizeof fields) tail) :=
    agreeOn_write filled tail (.inl le_rfl)
  have each (f : Place) (hf : f ∈ places fields) :
      getLe mem f.2.size (a + f.1) = getLe filled f.2.size f.1 := by
    have within := (apart.within f hf).2
    have same : getLe mem f.2.size (a + f.1) =
        getLe (write filled (sizeof fields) tail) f.2.size (0 + f.1) :=
      getLe_of_same found (Nat.le_trans within (Nat.le_add_right _ _))
    rw [same, Nat.zero_add]
    exact (getLe_congr (kept.mono (Nat.zero_le _) within)).symm
  unfold getFields
  rw [List.map_congr_left each]
  exact getLe_putCells buf apart (places_room suits)

theorem tail_structBytes
    (found : read mem a (sizeof fields + tail.length) = structBytes buf fields values tail) :
    read mem (a + sizeof fields) tail.length = tail := by
  rw [read_of_same found le_rfl, Nat.zero_add]
  exact read_write _ _ _

end FdsPaxos.StructCodec
