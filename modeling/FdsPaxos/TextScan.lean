import Mathlib.Algebra.Group.Int.Defs
import Mathlib.Algebra.Group.Nat.Defs

set_option autoImplicit false

/-!
The parts of C's `stdio` that read a text file line by line: `fgets` and the
conversions of `sscanf`.  Characters are bytes of the file.
-/

namespace FdsPaxos.TextScan

/-- `isspace` in the C locale. -/
def isSpace (c : Char) : Bool :=
  c == ' ' || (9 ≤ c.toNat && c.toNat ≤ 13)

/-- Repeated `fgets` into a buffer of `room + 1` bytes: a line ends behind a newline
or when the buffer is full.  `line` is what was read of the current one. -/
def fgetsFrom (room : ℕ) : List Char → List Char → List (List Char)
  | line, [] => if line.isEmpty then [] else [line]
  | line, c :: rest =>
    if c = '\n' ∨ room ≤ line.length + 1 then (line ++ [c]) :: fgetsFrom room [] rest
    else fgetsFrom room (line ++ [c]) rest

def fgetsLines (room : ℕ) (text : List Char) : List (List Char) := fgetsFrom room [] text

def cString (line : List Char) : List Char := line.takeWhile (· ≠ '\x00')

/-- `strncmp(word, line, strlen(word)) == 0` -/
def startsWith (word : String) (line : List Char) : Bool :=
  word.toList.isPrefixOf (cString line)

def skipSpace (s : List Char) : List Char := s.dropWhile isSpace

/-- `%s`: the word and what follows it. -/
def scanWord (s : List Char) : Option (List Char × List Char) :=
  let s := skipSpace s
  if s.isEmpty then none
  else some (s.takeWhile fun c => !isSpace c, s.dropWhile fun c => !isSpace c)

def digitValue (c : Char) : ℕ := c.toNat - '0'.toNat

def isDigit (base : ℕ) (c : Char) : Bool := '0'.toNat ≤ c.toNat && digitValue c < base

def digitsValue (base : ℕ) (digits : List Char) : ℕ :=
  digits.foldl (fun n c => n * base + digitValue c) 0

def scanSign : List Char → Bool × List Char
  | '-' :: s => (true, s)
  | '+' :: s => (false, s)
  | s => (false, s)

/-- The sign and the magnitude of a number in the given base, and what follows it. -/
def scanNumber (base : ℕ) (s : List Char) : Option ((Bool × ℕ) × List Char) :=
  let (negative, s) := scanSign (skipSpace s)
  let digits := s.takeWhile (isDigit base)
  if digits.isEmpty then none
  else some ((negative, digitsValue base digits), s.dropWhile (isDigit base))

/-- Conversion to `int`, which wraps. -/
def toInt32 (z : ℤ) : ℤ := z.bmod (2 ^ 32)

/-- `%d`: read by `strtol` on 64 bits, which saturates, and stored in an `int`. -/
def scanInt (s : List Char) : Option (ℤ × List Char) :=
  (scanNumber 10 s).map fun ((negative, n), rest) =>
    (toInt32 (if negative then max (-2 ^ 63) (-(n : ℤ)) else min (2 ^ 63 - 1) n), rest)

/-- `%hho`: read by `strtoul` in base 8, which saturates, and stored in an `unsigned char`. -/
def scanOctalByte (s : List Char) : Option (ℕ × List Char) :=
  (scanNumber 8 s).map fun ((negative, n), rest) =>
    let value : ℤ := if 2 ^ 64 ≤ n then 2 ^ 64 - 1 else if negative then -(n : ℤ) else n
    ((value % 256).toNat, rest)

end FdsPaxos.TextScan
