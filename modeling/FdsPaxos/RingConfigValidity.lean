import FdsPaxos.RingConfig
import FdsPaxos.RingConfigParser
import Mathlib.Data.List.Basic
import Mathlib.Data.List.Nodup
import Mathlib.Data.List.Perm.Subperm
import Mathlib.Data.List.Range
import Mathlib.Tactic.Common

set_option autoImplicit false

namespace FdsPaxos.RingConfigValidity
open TextScan RingConfigParser

def AcceptorLine (line : List Char) : Bool := entryOf line == some .acceptor

def acceptorIds (lines : List (List Char)) : List ℕ := (lines.filter AcceptorLine).map acceptorId

/-- A field after the lines that set it, starting from `old`. -/
def settingFrom (field : IntField) (old : ℤ) (lines : List (List Char)) : ℤ :=
  lines.foldl (fun value line =>
    if entryOf line = some (.integer field) then parseInteger field line value else value) old

def setting (field : IntField) (text : List Char) : ℤ :=
  settingFrom field 0 (fgetsLines 1023 text)

def textIds (text : List Char) : List ℕ := acceptorIds (fgetsLines 1023 text)

def textMaxActive (text : List Char) : ℤ := nonzeroOrDefault (setting .maxActiveInstances text) 25

def textPreexecution (text : List Char) : ℤ :=
  nonzeroOrDefault (setting .preexecutionWindowSize text) 50

def textWorkingSet (text : List Char) : ℤ := nonzeroOrDefault (setting .workingSetSize text) 100

/-- The ids are those of a ring in some order, enough of them for the quorum; the sum
of the two windows is an `int`, or the working set exceeds `max_active_instances` anyway. -/
structure RingText (text : List Char) : Prop where
  ids : (textIds text).Perm (List.range' 1 (textIds text).length)
  quorum : setting .quorumSize text ≤ (textIds text).length
  windows : textPreexecution text + textMaxActive text < 2 ^ 31 ∨
    textMaxActive text < textWorkingSet text

def filledSlots (cm : ConfigMngr) : List ℕ :=
  (List.range maxAcceptors).filter fun i => (cm.accInfos i).id ≠ 0

/-- From acceptor 1 around the ring: every configured acceptor once, then 1 again. -/
def RingCloses (cm : ConfigMngr) : Prop :=
  ∃ ids : List ℕ, (List.range cm.acceptorsCount.toNat).map (follow cm) = ids.map some ∧
    ids.Perm (filledSlots cm) ∧ follow cm cm.acceptorsCount.toNat = some 1

structure Dependable (text : List Char) (cm : ConfigMngr) : Prop where
  quorum : cm.quorumSize ≤ cm.acceptorsCount
  workingSet : cm.maxActiveInstances < cm.workingSetSize
  sameId : (textIds text).Nodup
  count : cm.acceptorsCount = (filledSlots cm).length
  contiguous : ∀ id, id ∈ filledSlots cm ↔ 1 ≤ id ∧ (id : ℤ) ≤ cm.acceptorsCount
  ring : RingCloses cm

section Parser

variable {sys : Platform} {cm cm' : ConfigMngr} {line : List Char} {lines : List (List Char)}

theorem bind_eq_ok {α β : Type} {x : Except Failure α} {f : α → Except Failure β} {b : β}
    (h : (x >>= f) = .ok b) : ∃ a, x = .ok a ∧ f a = .ok b := by
  cases x with
  | error e => exact nomatch h
  | ok a => exact ⟨a, rfl, h⟩

@[simp] theorem getInt_setInt (cm : ConfigMngr) (value : ℤ) (f g : IntField) :
    (cm.setInt value g).getInt f = if f = g then value else cm.getInt f := by
  cases f <;> cases g <;> rfl

@[simp] theorem getInt_setTimeval (cm : ConfigMngr) (value : Timeval) (f : IntField)
    (g : TimevalField) : (cm.setTimeval value g).getInt f = cm.getInt f := by
  cases f <;> cases g <;> rfl

def SameAcceptors (cm cm' : ConfigMngr) : Prop :=
  cm'.acceptorsCount = cm.acceptorsCount ∧ cm'.accInfos = cm.accInfos

theorem sameAcceptors_setInt (cm : ConfigMngr) (value : ℤ) (f : IntField) :
    SameAcceptors cm (cm.setInt value f) := by
  cases f <;> exact ⟨rfl, rfl⟩

theorem sameAcceptors_setTimeval (cm : ConfigMngr) (value : Timeval) (f : TimevalField) :
    SameAcceptors cm (cm.setTimeval value f) := by
  cases f <;> exact ⟨rfl, rfl⟩

theorem parseMulticast_keeps (h : parseMulticast cm line = .ok cm') :
    SameAcceptors cm cm' ∧ ∀ f, cm'.getInt f = cm.getInt f := by
  unfold parseMulticast at h
  split at h
  · cases h
    exact ⟨⟨rfl, rfl⟩, fun _ => rfl⟩
  · split_ifs at h
    cases h
    exact ⟨⟨rfl, rfl⟩, fun f => by cases f <;> rfl⟩

structure Adds (cm : ConfigMngr) (id : ℕ) (cm' : ConfigMngr) : Prop where
  low : 1 ≤ id
  high : id < maxAcceptors
  count : cm'.acceptorsCount = toInt32 (cm.acceptorsCount + 1)
  slots : ∀ i, (cm'.accInfos i).id = if i = id then id else (cm.accInfos i).id
  ints : ∀ f, cm'.getInt f = cm.getInt f

theorem addAcceptorInfo_adds {id : ℕ} {ip : List Char} {portIn portLea : ℤ}
    (h : addAcceptorInfo cm id ip portIn portLea = .ok cm') : Adds cm id cm' := by
  unfold addAcceptorInfo at h
  split_ifs at h with unknown long behind
  cases h
  refine ⟨by omega, by omega, rfl, ?_, fun f => by cases f <;> rfl⟩
  intro i
  dsimp only
  split_ifs <;> rfl

theorem parseAcceptor_adds (h : parseAcceptor sys cm line = .ok cm') :
    Adds cm (acceptorId line) cm' := by
  unfold parseAcceptor at h
  split at h
  · exact addAcceptorInfo_adds h
  · split at h
    · exact addAcceptorInfo_adds h
    · split_ifs at h
      exact addAcceptorInfo_adds h

structure Parsed (cm : ConfigMngr) (lines : List (List Char)) (cm' : ConfigMngr) : Prop where
  ids : ∀ id ∈ acceptorIds lines, 1 ≤ id ∧ id < maxAcceptors
  count : ∀ a, cm.acceptorsCount = toInt32 a →
    cm'.acceptorsCount = toInt32 (a + (acceptorIds lines).length)
  slots : ∀ i, (cm'.accInfos i).id =
    if i ∈ acceptorIds lines then i else (cm.accInfos i).id
  ints : ∀ f, cm'.getInt f = settingFrom f (cm.getInt f) lines

theorem parsed_nil (cm : ConfigMngr) : Parsed cm [] cm :=
  ⟨by simp [acceptorIds], fun a h => by simpa [acceptorIds] using h, by simp [acceptorIds],
    fun _ => rfl⟩

theorem acceptorIds_other {entry : Entry} (kind : entryOf line = some entry)
    (other : entry ≠ .acceptor) (lines : List (List Char)) :
    acceptorIds (line :: lines) = acceptorIds lines := by
  unfold acceptorIds
  rw [List.filter_cons_of_neg]
  simpa [AcceptorLine, kind] using other

theorem acceptorIds_acceptor (kind : entryOf line = some .acceptor) (lines : List (List Char)) :
    acceptorIds (line :: lines) = acceptorId line :: acceptorIds lines := by
  unfold acceptorIds
  rw [List.filter_cons_of_pos (by simp [AcceptorLine, kind]), List.map_cons]

theorem Parsed.other {cm'' : ConfigMngr} {entry : Entry} (h : Parsed cm' lines cm'')
    (kind : entryOf line = some entry) (other : entry ≠ .acceptor) (same : SameAcceptors cm cm')
    (ints : ∀ f, cm'.getInt f =
      if entryOf line = some (.integer f) then parseInteger f line (cm.getInt f)
      else cm.getInt f) : Parsed cm (line :: lines) cm'' := by
  have ids := acceptorIds_other kind other lines
  refine ⟨by rw [ids]; exact h.ids, ?_, ?_, ?_⟩
  · intro a start
    rw [ids]
    exact h.count a (same.1.trans start)
  · intro i
    rw [ids, h.slots, same.2]
  · intro f
    rw [h.ints, ints]
    rfl

theorem toInt32_succ (a : ℤ) : toInt32 (toInt32 a + 1) = toInt32 (a + 1) := by
  unfold toInt32
  exact Int.bmod_add_bmod

theorem Parsed.acceptor {cm'' : ConfigMngr} (h : Parsed cm' lines cm'')
    (kind : entryOf line = some .acceptor) (adds : Adds cm (acceptorId line) cm') :
    Parsed cm (line :: lines) cm'' := by
  have ids := acceptorIds_acceptor kind lines
  refine ⟨?_, ?_, ?_, ?_⟩
  · rw [ids]
    exact List.forall_mem_cons.mpr ⟨⟨adds.low, adds.high⟩, h.ids⟩
  · intro a start
    have next : cm'.acceptorsCount = toInt32 (a + 1) := by
      rw [adds.count, start, toInt32_succ]
    rw [ids, h.count _ next, List.length_cons]
    push_cast
    congr 1
    omega
  · intro i
    rw [ids, h.slots, adds.slots]
    by_cases here : i = acceptorId line
    · simp [here]
    · simp [here]
  · intro f
    rw [h.ints, adds.ints]
    unfold settingFrom
    rw [List.foldl_cons, kind, if_neg (by simp)]

theorem parseLine_parsed {cm'' : ConfigMngr} (first : parseLine sys cm line = .ok cm')
    (h : Parsed cm' lines cm'') : Parsed cm (line :: lines) cm'' := by
  unfold parseLine at first
  cases kind : entryOf line with
  | none => simp [kind] at first
  | some entry =>
    rw [kind] at first
    cases entry with
    | ignored =>
      cases first
      exact h.other kind (by simp) ⟨rfl, rfl⟩ (by simp [kind])
    | timeval field =>
      cases first
      exact h.other kind (by simp) (sameAcceptors_setTimeval _ _ _) (by simp [kind])
    | integer field =>
      cases first
      refine h.other kind (by simp) (sameAcceptors_setInt _ _ _) ?_
      intro f
      rw [getInt_setInt, kind]
      by_cases same : f = field
      · simp [same]
      · simp [same, Ne.symm same]
    | multicast =>
      obtain ⟨same, ints⟩ := parseMulticast_keeps first
      exact h.other kind (by simp) same fun f => by rw [ints, kind, if_neg (by simp)]
    | acceptor => exact h.acceptor kind (parseAcceptor_adds first)

theorem parsed_of_lines (h : lines.foldlM (parseLine sys) cm = .ok cm') : Parsed cm lines cm' := by
  induction lines generalizing cm with
  | nil =>
    cases h
    exact parsed_nil _
  | cons line lines ih =>
    rw [List.foldlM_cons] at h
    obtain ⟨next, first, rest⟩ := bind_eq_ok h
    exact parseLine_parsed first (ih rest)

end Parser

section Validator

variable {sys : Platform} {cfg cfg' : ConfigMngr}

theorem ensure_eq_ok {p : Prop} [Decidable p] {failure : Failure} {u : Unit}
    (h : ensure p failure = .ok u) : p := by
  unfold ensure at h
  split_ifs at h with holds
  exact holds

theorem validateIntervals_keeps (h : validateIntervals sys cfg = .ok cfg') :
    SameAcceptors cfg cfg' ∧ ∀ f, cfg'.getInt f = cfg.getInt f := by
  unfold validateIntervals at h
  obtain ⟨_, _, h⟩ := bind_eq_ok h
  obtain ⟨_, _, h⟩ := bind_eq_ok h
  obtain ⟨_, _, h⟩ := bind_eq_ok h
  obtain ⟨_, _, h⟩ := bind_eq_ok h
  obtain ⟨_, _, h⟩ := bind_eq_ok h
  obtain ⟨_, _, h⟩ := bind_eq_ok h
  obtain ⟨_, _, h⟩ := bind_eq_ok h
  cases h
  exact ⟨⟨rfl, rfl⟩, fun f => by cases f <;> rfl⟩

theorem nonzeroOrDefault_pos {i default : ℤ} (h : 0 < default) : 0 < nonzeroOrDefault i default := by
  unfold nonzeroOrDefault
  split_ifs <;> omega

/-- What `validate_config` ensures of the fields that the components read. -/
structure Validated (cfg cfg' : ConfigMngr) : Prop where
  acceptors : SameAcceptors cfg cfg'
  quorumSize : cfg'.quorumSize = cfg.quorumSize
  quorum_pos : 0 < cfg'.quorumSize
  workingSet : cfg'.workingSetSize = nonzeroOrDefault cfg.workingSetSize 100
  maxActive : cfg'.maxActiveInstances = nonzeroOrDefault cfg.maxActiveInstances 25
  preexecution : cfg'.preexecutionWindowSize = nonzeroOrDefault cfg.preexecutionWindowSize 50
  p2Open_pos : 0 < cfg'.maxP2OpenPerIteration
  windows : toInt32 (cfg'.preexecutionWindowSize + cfg'.maxActiveInstances) < cfg'.workingSetSize

theorem validateConfig_validated (h : validateConfig sys cfg = .ok cfg') :
    Validated cfg cfg' := by
  unfold validateConfig at h
  obtain ⟨timed, intervals, h⟩ := bind_eq_ok h
  obtain ⟨_, quorum, h⟩ := bind_eq_ok h
  obtain ⟨_, _, h⟩ := bind_eq_ok h
  obtain ⟨_, windows, h⟩ := bind_eq_ok h
  obtain ⟨_, _, h⟩ := bind_eq_ok h
  obtain ⟨_, _, h⟩ := bind_eq_ok h
  cases h
  obtain ⟨same, ints⟩ := validateIntervals_keeps intervals
  obtain ⟨_, positive, _⟩ := bind_eq_ok quorum
  obtain ⟨_, _, sum⟩ := bind_eq_ok windows
  have workingSet := ints .workingSetSize
  have maxActive := ints .maxActiveInstances
  have preexecution := ints .preexecutionWindowSize
  simp only [ConfigMngr.getInt] at workingSet maxActive preexecution
  refine ⟨same, ints .quorumSize, ensure_eq_ok positive, ?_, ?_, ?_,
    nonzeroOrDefault_pos (by decide), ensure_eq_ok sum⟩
  · rw [← workingSet]
    rfl
  · rw [← maxActive]
    rfl
  · rw [← preexecution]
    rfl

theorem toInt32_of_lt {z : ℤ} (low : 0 ≤ z) (high : z < 2 ^ 31) : toInt32 z = z := by
  unfold toInt32
  apply Int.bmod_eq_of_le_mul_two <;> omega

end Validator

/-- What is known of an accepted text: its acceptor lines fill the slots, and the
fields are the settings of the text with their defaults. -/
structure Accepted (text : List Char) (cm : ConfigMngr) : Prop where
  ids : ∀ id ∈ textIds text, 1 ≤ id ∧ id < maxAcceptors
  count : cm.acceptorsCount = toInt32 (textIds text).length
  slots : ∀ i, (cm.accInfos i).id = if i ∈ textIds text then i else 0
  quorumSize : cm.quorumSize = setting .quorumSize text
  quorum_pos : 0 < cm.quorumSize
  workingSet : cm.workingSetSize = textWorkingSet text
  maxActive : cm.maxActiveInstances = textMaxActive text
  preexecution : cm.preexecutionWindowSize = textPreexecution text
  p2Open_pos : 0 < cm.maxP2OpenPerIteration
  windows : toInt32 (textPreexecution text + textMaxActive text) < textWorkingSet text

theorem accepted_of_init {sys : Platform} {acceptorId : ℕ} {text : List Char} {cm : ConfigMngr}
    (h : configMngrInit sys acceptorId text = .ok cm) : Accepted text cm := by
  unfold configMngrInit openAndParse at h
  obtain ⟨read, lines, valid⟩ := bind_eq_ok h
  have parsed := parsed_of_lines lines
  have validated := validateConfig_validated valid
  have fields : ∀ f, read.getInt f = setting f text := by
    intro f
    rw [parsed.ints]
    cases f <;> rfl
  have quorumSize := fields .quorumSize
  have workingSet := fields .workingSetSize
  have maxActive := fields .maxActiveInstances
  have preexecution := fields .preexecutionWindowSize
  simp only [ConfigMngr.getInt] at quorumSize workingSet maxActive preexecution
  have windows := validated.windows
  rw [validated.preexecution, validated.maxActive, validated.workingSet, preexecution, maxActive,
    workingSet] at windows
  refine ⟨parsed.ids, ?_, ?_, ?_, validated.quorum_pos, ?_, ?_, ?_, validated.p2Open_pos,
    windows⟩
  · rw [validated.acceptors.1, parsed.count 0 rfl, Int.zero_add]
    rfl
  · intro i
    rw [validated.acceptors.2, parsed.slots]
    rfl
  · rw [validated.quorumSize, quorumSize]
  · rw [validated.workingSet, workingSet]
    rfl
  · rw [validated.maxActive, maxActive]
    rfl
  · rw [validated.preexecution, preexecution]
    rfl

section Accepted

variable {text : List Char} {cm : ConfigMngr}

theorem Accepted.mem_filledSlots (h : Accepted text cm) (i : ℕ) :
    i ∈ filledSlots cm ↔ i ∈ textIds text := by
  unfold filledSlots
  rw [List.mem_filter, List.mem_range, h.slots]
  by_cases listed : i ∈ textIds text
  · obtain ⟨low, high⟩ := h.ids i listed
    simpa [listed, high] using Nat.ne_of_gt low
  · simp [listed]

theorem nodup_filledSlots (cm : ConfigMngr) : (filledSlots cm).Nodup :=
  List.nodup_range.filter _

theorem Accepted.filledSlots_perm (h : Accepted text cm) (distinct : (textIds text).Nodup) :
    (filledSlots cm).Perm (textIds text) :=
  (List.perm_ext_iff_of_nodup (nodup_filledSlots cm) distinct).mpr h.mem_filledSlots

theorem Accepted.length_lt (h : Accepted text cm) (distinct : (textIds text).Nodup) :
    (textIds text).length < maxAcceptors := by
  have inside : textIds text ⊆ List.range' 1 9 := by
    intro id hid
    obtain ⟨low, high⟩ := h.ids id hid
    have limit : maxAcceptors = 10 := rfl
    exact List.mem_range'_1.mpr ⟨low, by omega⟩
  have le := (List.subperm_of_subset distinct inside).length_le
  rw [List.length_range'] at le
  exact Nat.lt_succ_of_le le

theorem Accepted.count_eq (h : Accepted text cm) (distinct : (textIds text).Nodup) :
    cm.acceptorsCount = (textIds text).length := by
  have few : (textIds text).length < 10 := h.length_lt distinct
  rw [h.count]
  exact toInt32_of_lt (Int.natCast_nonneg _) (by omega)

theorem Accepted.ringText_of (h : Accepted text cm) (d : Dependable text cm) : RingText text := by
  have count := h.count_eq d.sameId
  refine ⟨?_, ?_, ?_⟩
  · refine (List.perm_ext_iff_of_nodup d.sameId List.nodup_range').mpr fun id => ?_
    rw [← h.mem_filledSlots, d.contiguous, List.mem_range'_1, count]
    omega
  · rw [← h.quorumSize, ← count]
    exact d.quorum
  · right
    rw [← h.maxActive, ← h.workingSet]
    exact d.workingSet

/-- Around a ring of `n` acceptors: `k` steps from acceptor 1 lead to acceptor `k + 1`. -/
theorem follow_eq {n : ℕ} (count : cm.acceptorsCount = n) (few : n < maxAcceptors) (k : ℕ)
    (hk : k < n) : follow cm k = some (k + 1) := by
  induction k with
  | zero => rfl
  | succ k ih =>
    have limit : maxAcceptors = 10 := rfl
    have byte : (k + 1 + 1) % 256 = k + 1 + 1 := Nat.mod_eq_of_lt (by omega)
    rw [follow, ih (by omega), Option.bind_some]
    unfold lptopoGetSuccessorId
    dsimp only
    rw [byte, count, if_neg (by omega)]

theorem follow_closes {n : ℕ} (count : cm.acceptorsCount = n) (few : n < maxAcceptors)
    (some_acceptor : 0 < n) : follow cm n = some 1 := by
  obtain ⟨k, rfl⟩ : ∃ k, n = k + 1 := ⟨n - 1, by omega⟩
  have limit : maxAcceptors = 10 := rfl
  have byte : (k + 1 + 1) % 256 = k + 1 + 1 := Nat.mod_eq_of_lt (by omega)
  rw [follow, follow_eq count few k (by omega), Option.bind_some]
  unfold lptopoGetSuccessorId
  dsimp only
  rw [byte, count, if_pos (by omega), if_pos (by push_cast; rfl)]

theorem Accepted.dependable_of (h : Accepted text cm) (r : RingText text) :
    Dependable text cm := by
  have distinct : (textIds text).Nodup := r.ids.nodup_iff.mpr List.nodup_range'
  have few := h.length_lt distinct
  have count := h.count_eq distinct
  have perm := h.filledSlots_perm distinct
  have quorum : cm.quorumSize ≤ cm.acceptorsCount := by
    rw [h.quorumSize, count]
    exact r.quorum
  have positive : 0 < (textIds text).length := by
    have := h.quorum_pos
    omega
  refine ⟨quorum, ?_, distinct, by rw [count, perm.length_eq], ?_, ?_⟩
  · rw [h.maxActive, h.workingSet]
    rcases r.windows with fits | larger
    · have active : 0 < textMaxActive text := nonzeroOrDefault_pos (by decide)
      have preexecution : 0 < textPreexecution text := nonzeroOrDefault_pos (by decide)
      have windows := h.windows
      rw [toInt32_of_lt (by omega) fits] at windows
      omega
    · exact larger
  · intro id
    rw [h.mem_filledSlots, r.ids.mem_iff, List.mem_range'_1, count]
    omega
  · refine ⟨List.range' 1 (textIds text).length, ?_, (perm.trans r.ids).symm, ?_⟩
    · rw [count, Int.toNat_natCast, List.range'_eq_map_range, List.map_map]
      apply List.map_congr_left
      intro k hk
      rw [follow_eq count few k (List.mem_range.mp hk), Function.comp_apply, Nat.add_comm]
    · rw [count, Int.toNat_natCast]
      exact follow_closes count few positive

end Accepted

theorem toInt32_lt (z : ℤ) : toInt32 z < 2 ^ 31 := by
  unfold toInt32
  have high := Int.bmod_lt (x := z) (m := 2 ^ 32) (by decide)
  omega

theorem scanInt_lt {s rest : List Char} {n : ℤ} (h : scanInt s = some (n, rest)) : n < 2 ^ 31 := by
  unfold scanInt at h
  obtain ⟨⟨⟨negative, magnitude⟩, tail⟩, _, stored⟩ := Option.map_eq_some_iff.mp h
  obtain ⟨rfl, _⟩ := Prod.mk.inj stored
  exact toInt32_lt _

/-- The signed fields hold an `int`. -/
theorem settingFrom_lt {field : IntField} (signed : field ≠ .quorumSize) {old : ℤ}
    (start : old < 2 ^ 31) (lines : List (List Char)) : settingFrom field old lines < 2 ^ 31 := by
  induction lines generalizing old with
  | nil => exact start
  | cons line lines ih =>
    refine ih ?_
    dsimp only
    split_ifs
    · unfold parseInteger
      split
      · exact start
      · rename_i n rest found
        unfold storeInt
        rw [if_neg signed]
        exact scanInt_lt found
    · exact start

theorem textWorkingSet_lt (text : List Char) : textWorkingSet text < 2 ^ 31 := by
  have set : setting .workingSetSize text < 2 ^ 31 := settingFrom_lt (by decide) (by decide) _
  unfold textWorkingSet nonzeroOrDefault
  split_ifs
  · decide
  · exact set

def protocolTimeval (t : Timeval) : RingConfig.Timeval := ⟨t.tvSec.toNat, t.tvUsec.toNat⟩

/-- An accepted text whose windows do not overflow gives a configuration that the
protocol's model starts from. -/
def protocolConfig {text : List Char} {cm : ConfigMngr} (h : Accepted text cm)
    (fits : textPreexecution text + textMaxActive text < 2 ^ 31) : RingConfig.Config :=
  have active : 0 < textMaxActive text := nonzeroOrDefault_pos (by decide)
  have preexecution : 0 < textPreexecution text := nonzeroOrDefault_pos (by decide)
  { acceptorsCount := cm.acceptorsCount.toNat
    quorumSize := cm.quorumSize.toNat
    workingSetSize := cm.workingSetSize.toNat
    maxActiveInstances := cm.maxActiveInstances.toNat
    preexecutionWindowSize := cm.preexecutionWindowSize.toNat
    maxP2OpenPerIteration := cm.maxP2OpenPerIteration.toNat
    p1Interval := protocolTimeval cm.p1Interval
    p2Interval := protocolTimeval cm.p2Interval
    retransmitRequestInterval := protocolTimeval cm.retransmitRequestInterval
    quorum_pos := by
      have := h.quorum_pos
      omega
    active_pos := by
      rw [h.maxActive]
      omega
    preexecution_pos := by
      rw [h.preexecution]
      omega
    p2Open_pos := by
      have := h.p2Open_pos
      omega
    workingSet_gt := by
      have windows := h.windows
      rw [toInt32_of_lt (by omega) fits] at windows
      rw [h.maxActive, h.preexecution, h.workingSet]
      omega
    workingSet_int := by
      have := textWorkingSet_lt text
      rw [h.workingSet]
      omega }

/-- The runs of the protocol that start from a file of a ring have majorities for quorums exactly
when the file asks for one. -/
theorem protocolConfig_majority_iff {text : List Char} {cm : ConfigMngr} (h : Accepted text cm)
    (ring : RingText text) (fits : textPreexecution text + textMaxActive text < 2 ^ 31) :
    (protocolConfig h fits).MajorityQuorum ↔
      ((textIds text).length : ℤ) - 1 < 2 * setting .quorumSize text := by
  have distinct : (textIds text).Nodup := ring.ids.nodup_iff.mpr List.nodup_range'
  have count := h.count_eq distinct
  have quorum := h.quorumSize
  have positive := h.quorum_pos
  change cm.acceptorsCount.toNat - 1 < 2 * cm.quorumSize.toNat ↔ _
  omega

/-- An accepted configuration keeps what is relied on exactly when its text says so:
of all the promises the validator itself only ensures a positive quorum. -/
theorem accepted_dependable_iff (sys : Platform) (acceptorId : ℕ) (text : List Char)
    (cm : ConfigMngr) (accepted : configMngrInit sys acceptorId text = .ok cm) :
    Dependable text cm ↔ RingText text :=
  ⟨(accepted_of_init accepted).ringText_of, (accepted_of_init accepted).dependable_of⟩

theorem ok_of_isOk {α : Type} {x : Except Failure α} (h : x.isOk = true) : ∃ a, x = .ok a := by
  cases x with
  | error e => exact nomatch h
  | ok a => exact ⟨a, rfl⟩

/-- A system on which the addresses below are valid and the variables start with zeroes. -/
def plainPlatform : Platform where
  inetAddr := fun _ => true
  maxRbufSize := 212992
  maxWbufSize := 212992
  sec := 0
  usec := 0
  tmpIp := []

def threeAcceptors : List Char :=
  ("multicast 239.0.0.1 6000\np1_interval 1 0\np2_interval 1 0\nquorum_size 2\n" ++
    "acceptor 2 10.0.0.2 7003 7004\nacceptor 1 10.0.0.1 7001 7002\n" ++
    "acceptor 3 10.0.0.3 7005 7006\n").toList

theorem three_acceptors_dependable : ∃ cm,
    configMngrInit plainPlatform 1 threeAcceptors = .ok cm ∧
      (Dependable threeAcceptors cm ↔ RingText threeAcceptors) := by
  obtain ⟨cm, accepted⟩ :=
    ok_of_isOk (show (configMngrInit plainPlatform 1 threeAcceptors).isOk = true by decide +kernel)
  exact ⟨cm, accepted, accepted_dependable_iff plainPlatform 1 threeAcceptors cm accepted⟩

/-- Two lines for acceptor 2, and a quorum of three. -/
def twinAcceptors : List Char :=
  ("multicast 239.0.0.1 6000\np1_interval 1 0\np2_interval 1 0\nquorum_size 3\n" ++
    "acceptor 2 10.0.0.2 7001 7002\nacceptor 2 10.0.0.3 7003 7004\n").toList

theorem twin_acceptors_accepted :
    ¬ ∀ (sys : Platform) (acceptorId : ℕ) (text : List Char) (cm : ConfigMngr),
      configMngrInit sys acceptorId text = .ok cm → Dependable text cm := by
  intro all
  obtain ⟨cm, accepted⟩ :=
    ok_of_isOk (show (configMngrInit plainPlatform 1 twinAcceptors).isOk = true by decide +kernel)
  have distinct := (all plainPlatform 1 twinAcceptors cm accepted).sameId
  exact absurd distinct (show ¬(textIds twinAcceptors).Nodup by decide +kernel)

end FdsPaxos.RingConfigValidity
