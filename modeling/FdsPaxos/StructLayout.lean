import Mathlib.Data.Nat.Notation
import Mathlib.Order.Nat

set_option autoImplicit false

/-! Sizes and offsets of C structures: every field at the next multiple of its alignment. -/

namespace FdsPaxos.StructLayout

structure FieldType where
  size : ℕ
  align : ℕ

def alignUp (offset align : ℕ) : ℕ := (offset + align - 1) / align * align

/-- The offsets of the fields from `offset` on, and the first byte behind them. -/
def place : ℕ → List FieldType → List ℕ × ℕ
  | offset, [] => ([], offset)
  | offset, field :: fields =>
    let start := alignUp offset field.align
    let rest := place (start + field.size) fields
    (start :: rest.1, rest.2)

def structAlign (fields : List FieldType) : ℕ := (fields.map FieldType.align).foldl max 1

def offsets (fields : List FieldType) : List ℕ := (place 0 fields).1

def sizeof (fields : List FieldType) : ℕ := alignUp (place 0 fields).2 (structAlign fields)

def asField (fields : List FieldType) : FieldType := ⟨sizeof fields, structAlign fields⟩

end FdsPaxos.StructLayout
