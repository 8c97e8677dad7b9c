import FdsPaxos.TextScan
import Mathlib.Data.List.Basic
import Mathlib.Data.List.Induction
import Mathlib.Data.List.TakeWhile
import Mathlib.Tactic.Common

set_option autoImplicit false

/-!
What `sscanf` and `fgets` read back of a text that was written field by field: fields
separated by blanks, and lines separated by newlines.
-/

namespace FdsPaxos.TextFields
open TextScan

section Stops

variable {α : Type*} {p : α → Bool} {before after : List α}

def Stops (p : α → Bool) (after : List α) : Prop := ∀ x ∈ after.head?, p x = false

theorem takeWhile_append (all : ∀ x ∈ before, p x = true) (stops : Stops p after) :
    (before ++ after).takeWhile p = before := by
  rw [List.takeWhile_append_of_pos all]
  cases after with
  | nil => exact List.append_nil before
  | cons x after => rw [List.takeWhile_cons_of_neg (by simp [stops x rfl]), List.append_nil]

theorem dropWhile_append (all : ∀ x ∈ before, p x = true) (stops : Stops p after) :
    (before ++ after).dropWhile p = after := by
  rw [List.dropWhile_append_of_pos all]
  cases after with
  | nil => rfl
  | cons x after => rw [List.dropWhile_cons_of_neg (by simp [stops x rfl])]

theorem stops_append {q : α → Bool} (nonempty : before ≠ []) (all : ∀ x ∈ before, q x = true)
    (apart : ∀ x, q x = true → p x = false) : Stops p (before ++ after) := by
  cases before with
  | nil => exact absurd rfl nonempty
  | cons x before =>
    intro y hy
    cases hy
    exact apart x (all x List.mem_cons_self)

end Stops

theorem isSpace_iff (c : Char) :
    isSpace c = true ↔ c.toNat = 32 ∨ (9 ≤ c.toNat ∧ c.toNat ≤ 13) := by
  have blank : c = ' ' ↔ c.toNat = 32 :=
    ⟨fun same => same ▸ rfl, fun same => Char.toNat_inj.mp same⟩
  simp [isSpace, blank]

theorem isDigit_ten_iff (c : Char) : isDigit 10 c = true ↔ 48 ≤ c.toNat ∧ c.toNat < 58 := by
  have zero : '0'.toNat = 48 := rfl
  simp only [isDigit, digitValue, zero, Bool.and_eq_true, decide_eq_true_eq]
  omega

theorem not_isDigit_of_isSpace (c : Char) (space : isSpace c = true) : isDigit 10 c = false := by
  rw [Bool.eq_false_iff, Ne, isDigit_ten_iff]
  have := (isSpace_iff c).mp space
  omega

theorem not_isSpace_of_isDigit (c : Char) (digit : isDigit 10 c = true) : isSpace c = false := by
  rw [Bool.eq_false_iff, Ne, isSpace_iff]
  have := (isDigit_ten_iff c).mp digit
  omega

structure Blanks where
  chars : List Char
  blank : ∀ c ∈ chars, isSpace c = true ∧ c ≠ '\n'

structure Gap extends Blanks where
  nonempty : chars ≠ []

structure Word where
  chars : List Char
  visible : ∀ c ∈ chars, isSpace c = false ∧ c ≠ '\x00'
  nonempty : chars ≠ []

def isVisible (c : Char) : Bool := !isSpace c && c != '\x00'

theorem visible_of_all {s : List Char} (all : s.all isVisible = true) :
    ∀ c ∈ s, isSpace c = false ∧ c ≠ '\x00' := by
  intro c hc
  simpa [isVisible] using List.all_eq_true.mp all c hc

structure Digits where
  chars : List Char
  digits : ∀ c ∈ chars, isDigit 10 c = true
  nonempty : chars ≠ []

def Digits.value (n : Digits) : ℕ := digitsValue 10 n.chars

inductive Sign where
  | none
  | plus
  | minus
deriving DecidableEq

def Sign.chars : Sign → List Char
  | .none => []
  | .plus => ['+']
  | .minus => ['-']

def Sign.apply (sign : Sign) (n : ℕ) : ℤ := if sign = .minus then -(n : ℤ) else n

/-- A decimal number that an `int` can hold. -/
structure IntLiteral where
  sign : Sign
  digits : Digits
  low : -2 ^ 31 ≤ sign.apply digits.value
  high : sign.apply digits.value < 2 ^ 31

def IntLiteral.value (n : IntLiteral) : ℤ := n.sign.apply n.digits.value

def IntLiteral.chars (n : IntLiteral) : List Char := n.sign.chars ++ n.digits.chars

def Plain (s : List Char) : Prop := ∀ c ∈ s, c ≠ '\x00' ∧ c ≠ '\n'

section Plain

variable {s s' : List Char}

theorem Plain.append (h : Plain s) (h' : Plain s') : Plain (s ++ s') := by
  intro c hc
  rcases List.mem_append.mp hc with before | after
  · exact h c before
  · exact h' c after

theorem Plain.oneLine (h : Plain s) : '\n' ∉ s := fun newline => (h _ newline).2 rfl

theorem Blanks.plain (blanks : Blanks) : Plain blanks.chars := by
  intro c hc
  obtain ⟨space, other⟩ := blanks.blank c hc
  refine ⟨?_, other⟩
  rintro rfl
  exact absurd space (by decide)

theorem Word.plain (word : Word) : Plain word.chars := by
  intro c hc
  obtain ⟨shown, other⟩ := word.visible c hc
  refine ⟨other, ?_⟩
  rintro rfl
  exact absurd shown (by decide)

theorem Digits.plain (n : Digits) : Plain n.chars := by
  intro c hc
  have digit := n.digits c hc
  constructor <;> rintro rfl <;> exact absurd digit (by decide)

theorem IntLiteral.plain (n : IntLiteral) : Plain n.chars := by
  refine Plain.append ?_ n.digits.plain
  cases n.sign with
  | none => exact fun _ h => nomatch h
  | plus => exact fun c hc => by rw [List.mem_singleton.mp hc]; decide
  | minus => exact fun c hc => by rw [List.mem_singleton.mp hc]; decide

def Ending (ending : List Char) : Prop := ending = [] ∨ ending = ['\n']

theorem Plain.cString {ending : List Char} (h : Plain s) (ends : Ending ending) :
    cString (s ++ ending) = s ++ ending := by
  refine List.takeWhile_eq_self_iff.mpr fun c hc => ?_
  rcases List.mem_append.mp hc with before | after
  · simpa using (h c before).1
  · rcases ends with rfl | rfl
    · exact nomatch after
    · rw [List.mem_singleton.mp after]
      decide

end Plain

section Fields

variable {rest : List Char}

def Ends (rest : List Char) : Prop := Stops (fun c => !isSpace c) rest

theorem ends_blanks (all : ∀ c ∈ rest, isSpace c = true) : Ends rest := by
  intro c hc
  change (!isSpace c) = false
  rw [all c (List.mem_of_mem_head? hc)]
  rfl

theorem Gap.ends (gap : Gap) : Ends (gap.chars ++ rest) :=
  stops_append gap.nonempty (fun c hc => (gap.blank c hc).1) fun c space => by simp [space]

theorem Ends.stops_digit (ends : Ends rest) : Stops (isDigit 10) rest := by
  intro c hc
  exact not_isDigit_of_isSpace c (by simpa using ends c hc)

theorem skipSpace_blanks (blanks : Blanks) (stops : Stops isSpace rest) :
    skipSpace (blanks.chars ++ rest) = rest :=
  dropWhile_append (fun c hc => (blanks.blank c hc).1) stops

theorem scanWord_word (blanks : Blanks) (word : Word) (ends : Ends rest) :
    scanWord (blanks.chars ++ (word.chars ++ rest)) = some (word.chars, rest) := by
  have visible (c : Char) (hc : c ∈ word.chars) : (!isSpace c) = true := by
    simp [(word.visible c hc).1]
  have stops : Stops isSpace (word.chars ++ rest) :=
    stops_append word.nonempty visible fun c shown => by simpa using shown
  unfold scanWord
  dsimp only
  rw [skipSpace_blanks blanks stops, takeWhile_append visible ends, dropWhile_append visible ends,
    if_neg (by simp [word.nonempty])]

theorem scanSign_sign (sign : Sign) (digits : Digits) :
    scanSign (sign.chars ++ (digits.chars ++ rest)) =
      (decide (sign = .minus), digits.chars ++ rest) := by
  cases sign with
  | plus => rfl
  | minus => rfl
  | none =>
    have digits_ok := digits.digits
    cases shown : digits.chars with
    | nil => exact absurd shown digits.nonempty
    | cons c chars =>
      have digit := (isDigit_ten_iff c).mp (digits_ok c (by simp [shown]))
      have minus : c ≠ '-' := by
        rintro rfl
        exact absurd digit (by decide)
      have plus : c ≠ '+' := by
        rintro rfl
        exact absurd digit (by decide)
      simp [Sign.chars, scanSign, minus, plus]

theorem stops_sign (sign : Sign) (digits : Digits) :
    Stops isSpace (sign.chars ++ (digits.chars ++ rest)) := by
  cases sign with
  | plus =>
    intro c hc
    cases hc
    rfl
  | minus =>
    intro c hc
    cases hc
    rfl
  | none =>
    change Stops isSpace (digits.chars ++ rest)
    exact stops_append digits.nonempty digits.digits not_isSpace_of_isDigit

theorem scanNumber_ten (blanks : Blanks) (sign : Sign) (digits : Digits) (ends : Ends rest) :
    scanNumber 10 (blanks.chars ++ (sign.chars ++ (digits.chars ++ rest))) =
      some ((decide (sign = .minus), digits.value), rest) := by
  unfold scanNumber
  rw [skipSpace_blanks blanks (stops_sign sign digits), scanSign_sign]
  dsimp only
  rw [takeWhile_append digits.digits ends.stops_digit,
    dropWhile_append digits.digits ends.stops_digit, if_neg (by simp [digits.nonempty])]
  rfl

theorem toInt32_of_int {z : ℤ} (low : -2 ^ 31 ≤ z) (high : z < 2 ^ 31) : toInt32 z = z := by
  unfold toInt32
  apply Int.bmod_eq_of_le_mul_two <;> omega

theorem scanInt_literal (blanks : Blanks) (n : IntLiteral) (ends : Ends rest) :
    scanInt (blanks.chars ++ (n.chars ++ rest)) = some (n.value, rest) := by
  obtain ⟨sign, digits, low, high⟩ := n
  unfold scanInt IntLiteral.chars IntLiteral.value
  rw [List.append_assoc, scanNumber_ten blanks sign digits ends, Option.map_some]
  unfold Sign.apply at *
  by_cases minus : sign = .minus
  · simp only [minus, decide_true, if_true] at low high ⊢
    rw [Int.max_eq_right (by omega), toInt32_of_int low high]
  · simp only [minus, decide_false, if_false, Bool.false_eq_true] at low high ⊢
    rw [Int.min_eq_right (by omega), toInt32_of_int low high]

end Fields

section Octal

variable {digits : List Char} {rest : List Char}

theorem digitsValue_concat (base : ℕ) (digits : List Char) (c : Char) :
    digitsValue base (digits ++ [c]) = digitsValue base digits * base + digitValue c := by
  simp [digitsValue]

theorem digits_of_value_zero (all : ∀ c ∈ digits, isDigit 10 c = true)
    (zero : digitsValue 10 digits = 0) : ∀ c ∈ digits, c = '0' := by
  induction digits using List.reverseRecOn with
  | nil => exact fun _ h => nomatch h
  | append_singleton digits last ih =>
    rw [digitsValue_concat] at zero
    have lastDigit := (isDigit_ten_iff last).mp (all last (by simp))
    have lastZero : digitValue last = 0 := by omega
    have same : last = '0' := by
      have start : '0'.toNat = 48 := rfl
      unfold digitValue at lastZero
      exact Char.toNat_inj.mp (by omega)
    intro c hc
    rcases List.mem_append.mp hc with before | here
    · exact ih (fun c hc => all c (by simp [hc])) (by omega) c before
    · exact (List.mem_singleton.mp here).trans same

theorem Digits.of_value_lt (n : Digits) (small : n.value < 10) :
    ∃ zeroes last, n.chars = zeroes ++ [last] ∧ (∀ c ∈ zeroes, c = '0') ∧
      isDigit 10 last = true ∧ digitValue last = n.value := by
  obtain empty | ⟨zeroes, last, shown⟩ := List.eq_nil_or_concat n.chars
  · exact absurd empty n.nonempty
  · rw [List.concat_eq_append] at shown
    have all := n.digits
    have value : n.value = digitsValue 10 zeroes * 10 + digitValue last := by
      rw [Digits.value, shown, digitsValue_concat]
    rw [shown] at all
    refine ⟨zeroes, last, shown, ?_, all last (by simp), by omega⟩
    exact digits_of_value_zero (fun c hc => all c (by simp [hc])) (by omega)

theorem digitsValue_zeroes (base : ℕ) (all : ∀ c ∈ digits, c = '0') :
    digitsValue base digits = 0 := by
  induction digits using List.reverseRecOn with
  | nil => rfl
  | append_singleton digits last ih =>
    have zero : last = '0' := all last (by simp)
    have value : digitValue last = 0 := congrArg digitValue zero
    rw [digitsValue_concat, ih fun c hc => all c (by simp [hc]), value, Nat.zero_mul]

theorem isDigit_eight_of_zero {c : Char} (zero : c = '0') : isDigit 8 c = true := by
  rw [zero]
  rfl

theorem scanNumber_eight (blanks : Blanks) (n : Digits) :
    scanNumber 8 (blanks.chars ++ (n.chars ++ rest)) =
      let shown := (n.chars ++ rest).takeWhile (isDigit 8)
      if shown.isEmpty then none
      else some ((false, digitsValue 8 shown), (n.chars ++ rest).dropWhile (isDigit 8)) := by
  have signed : scanSign (n.chars ++ rest) = (false, n.chars ++ rest) := scanSign_sign .none n
  have skipped : skipSpace (blanks.chars ++ (n.chars ++ rest)) = n.chars ++ rest :=
    skipSpace_blanks blanks (stops_sign .none n)
  unfold scanNumber
  rw [skipped, signed]

theorem scanOctalByte_small (blanks : Blanks) (n : Digits) (small : n.value < 8)
    (ends : Ends rest) :
    scanOctalByte (blanks.chars ++ (n.chars ++ rest)) = some (n.value, rest) := by
  obtain ⟨zeroes, last, shown, zero, digit, value⟩ := n.of_value_lt (by omega)
  have octal : ∀ c ∈ n.chars, isDigit 8 c = true := by
    rw [shown]
    intro c hc
    rcases List.mem_append.mp hc with before | here
    · exact isDigit_eight_of_zero (zero c before)
    · rw [List.mem_singleton.mp here]
      simp only [isDigit, Bool.and_eq_true, decide_eq_true_eq] at digit ⊢
      exact ⟨digit.1, by omega⟩
  have stops : Stops (isDigit 8) rest := by
    intro c hc
    have space := not_isDigit_of_isSpace c (by simpa using ends c hc)
    simp only [isDigit, Bool.and_eq_false_iff, decide_eq_false_iff_not] at space ⊢
    omega
  have same : digitsValue 8 n.chars = n.value := by
    rw [shown, digitsValue_concat, digitsValue_zeroes 8 zero, value]
    omega
  unfold scanOctalByte
  rw [scanNumber_eight]
  dsimp only
  rw [takeWhile_append octal stops, dropWhile_append octal stops,
    if_neg (by simp [n.nonempty]), same, Option.map_some]
  simp only [Bool.false_eq_true, if_false]
  rw [if_neg (by omega)]
  congr 2
  omega

/-- The digits 8 and 9 are none of base 8, so nothing but zeroes is read before them. -/
theorem scanOctalByte_large (blanks : Blanks) (n : Digits) (low : 8 ≤ n.value)
    (high : n.value < 10) {read : ℕ × List Char}
    (found : scanOctalByte (blanks.chars ++ (n.chars ++ rest)) = some read) : read.1 = 0 := by
  obtain ⟨zeroes, last, shown, zero, digit, value⟩ := n.of_value_lt high
  have octal (c : Char) (hc : c ∈ zeroes) : isDigit 8 c = true := isDigit_eight_of_zero (zero c hc)
  have stops : Stops (isDigit 8) ([last] ++ rest) := by
    intro c hc
    cases hc
    simp only [isDigit, Bool.and_eq_false_iff, decide_eq_false_iff_not]
    omega
  unfold scanOctalByte at found
  rw [scanNumber_eight] at found
  dsimp only at found
  rw [shown, List.append_assoc, takeWhile_append octal stops] at found
  split_ifs at found with none
  · cases found
  · rw [digitsValue_zeroes 8 zero, Option.map_some] at found
    cases found
    rfl

end Octal

section Lines

variable {room : ℕ} {body rest : List Char}

/-- A text of lines separated by newlines; it ends with one if its last line is empty. -/
def joinLines (bodies : List (List Char)) : List Char := ['\n'].intercalate bodies

/-- The lines as they are read, with their newlines; nothing is read of an empty last line. -/
def readLines : List (List Char) → List (List Char)
  | [] => []
  | [body] => if body.isEmpty then [] else [body]
  | body :: next :: bodies => (body ++ ['\n']) :: readLines (next :: bodies)

theorem readLines_last {body : List Char} (shown : body ≠ []) : readLines [body] = [body] := by
  rw [readLines, if_neg (by simpa using shown)]

@[simp] theorem readLines_empty : readLines [[]] = [] := rfl

theorem readLines_next (body next : List Char) (bodies : List (List Char)) :
    readLines (body :: next :: bodies) = (body ++ ['\n']) :: readLines (next :: bodies) := rfl

theorem fgetsFrom_body {line : List Char} (oneLine : '\n' ∉ body)
    (short : line.length + body.length < room) :
    fgetsFrom room line (body ++ rest) = fgetsFrom room (line ++ body) rest := by
  induction body generalizing line with
  | nil => rw [List.nil_append, List.append_nil]
  | cons c body ih =>
    obtain ⟨other, oneLine⟩ := List.ne_and_not_mem_of_not_mem_cons oneLine
    rw [List.length_cons] at short
    have goesOn : ¬ (c = '\n' ∨ room ≤ line.length + 1) := by
      rintro (newline | full)
      · exact other newline.symm
      · omega
    have fits : (line ++ [c]).length + body.length < room := by
      rw [List.length_append, List.length_singleton]
      omega
    rw [List.cons_append, fgetsFrom, if_neg goesOn, ih oneLine fits, List.append_assoc,
      List.singleton_append]

theorem fgetsLines_joinLines {bodies : List (List Char)} (oneLine : ∀ body ∈ bodies, '\n' ∉ body)
    (short : ∀ body ∈ bodies, body.length < room) :
    fgetsLines room (joinLines bodies) = readLines bodies := by
  induction bodies with
  | nil => rfl
  | cons body bodies ih =>
    obtain ⟨first, others⟩ := List.forall_mem_cons.mp oneLine
    obtain ⟨fits, othersFit⟩ := List.forall_mem_cons.mp short
    have read (rest : List Char) : fgetsLines room (body ++ rest) = fgetsFrom room body rest :=
      fgetsFrom_body first (by rw [List.length_nil]; omega)
    cases bodies with
    | nil =>
      have alone := read []
      rw [List.append_nil] at alone
      rw [joinLines, List.intercalate_singleton, alone]
      rfl
    | cons next bodies =>
      rw [joinLines, List.intercalate_cons_cons, List.append_assoc, read, List.singleton_append,
        fgetsFrom, if_pos (.inl rfl)]
      exact congrArg _ (ih others othersFit)

end Lines

variable {σ α β : Type*} {f : σ → α → σ} {value : α → Option β}

theorem foldl_last (field : σ → β) (sets : ∀ s a, field (f s a) = (value a).getD (field s))
    (as : List α) (s : σ) :
    field (as.foldl f s) = ((as.filterMap value).getLast?).getD (field s) := by
  induction as generalizing s with
  | nil => rfl
  | cons a as ih =>
    rw [List.foldl_cons, ih, sets, List.filterMap_cons]
    cases value a with
    | none => rfl
    | some b =>
      rw [List.getLast?_cons]
      cases (as.filterMap value).getLast? <;> rfl

theorem getLast?_filterMap {a : α} {b : β} {before after : List α} (here : value a = some b)
    (none : ∀ x ∈ after, value x = Option.none) :
    ((before ++ a :: after).filterMap value).getLast? = some b := by
  have rest : after.filterMap value = [] := List.filterMap_eq_nil_iff.mpr none
  rw [List.filterMap_append, List.filterMap_cons, here, rest, List.getLast?_append]
  rfl

end FdsPaxos.TextFields
