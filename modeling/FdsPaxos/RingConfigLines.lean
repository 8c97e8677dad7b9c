import FdsPaxos.RingConfigValidity
import FdsPaxos.TextFields

set_option autoImplicit false

namespace FdsPaxos.RingConfigLines
open TextScan TextFields RingConfigParser
open RingConfigValidity (bind_eq_ok getInt_setInt plainPlatform)

def intName : IntField → String
  | .defaultAutoflushInterval => "default_autoflush_interval"
  | .socketBuffersSize => "socket_buffers_size"
  | .quorumSize => "quorum_size"
  | .workingSetSize => "working_set_size"
  | .maxActiveInstances => "max_active_instances"
  | .preexecutionWindowSize => "preexecution_window_size"
  | .maxP2OpenPerIteration => "max_p2_open_per_iteration"
  | .maxClientValuesQueueSize => "max_client_values_queue_size"

def timevalName : TimevalField → String
  | .p1Interval => "p1_interval"
  | .p2Interval => "p2_interval"
  | .mcasterClockInterval => "mcaster_clock_interval"
  | .deliveryCheckInterval => "delivery_check_interval"
  | .retransmitRequestInterval => "retransmit_request_interval"

structure Address extends Word where
  short : chars.length ≤ 15

structure AcceptorNumber extends Digits where
  low : 1 ≤ toDigits.value
  high : toDigits.value < maxAcceptors

/-- The line of an acceptor: its id, the address, and the ports of the ring and the learners. -/
structure AcceptorEntry where
  idGap : Gap
  id : AcceptorNumber
  addrGap : Gap
  addr : Address
  ringGap : Gap
  ringPort : IntLiteral
  learnersGap : Gap
  learnersPort : IntLiteral
  tail : Blanks

structure MulticastEntry where
  addrGap : Gap
  addr : Address
  portGap : Gap
  port : IntLiteral
  tail : Blanks

structure TimevalEntry where
  secGap : Gap
  sec : IntLiteral
  usecGap : Gap
  usec : IntLiteral
  tail : Blanks

/-- A directive for a field; `quorum_size` is `unsigned`. -/
structure IntEntry (field : IntField) where
  gap : Gap
  value : IntLiteral
  unsigned : field = .quorumSize → 0 ≤ value.value
  tail : Blanks

/-- The lines of a configuration file; a comment begins with a sharp or with two slashes. -/
inductive Line where
  | sharp (comment : List Char) (oneLine : '\n' ∉ comment)
  | slashes (comment : List Char) (oneLine : '\n' ∉ comment)
  | blank (spaces : Blanks)
  | integer (field : IntField) (entry : IntEntry field)
  | timeval (field : TimevalField) (entry : TimevalEntry)
  | multicast (entry : MulticastEntry)
  | acceptor (entry : AcceptorEntry)

def AcceptorEntry.fields (e : AcceptorEntry) : List Char :=
  e.id.chars ++ (e.addrGap.chars ++ (e.addr.chars ++ (e.ringGap.chars ++ (e.ringPort.chars ++
    (e.learnersGap.chars ++ (e.learnersPort.chars ++ e.tail.chars))))))

def MulticastEntry.fields (e : MulticastEntry) : List Char :=
  e.addr.chars ++ (e.portGap.chars ++ (e.port.chars ++ e.tail.chars))

def TimevalEntry.fields (e : TimevalEntry) : List Char :=
  e.sec.chars ++ (e.usecGap.chars ++ (e.usec.chars ++ e.tail.chars))

def IntEntry.fields {field : IntField} (e : IntEntry field) : List Char :=
  e.value.chars ++ e.tail.chars

def Line.body : Line → List Char
  | .sharp comment _ => '#' :: comment
  | .slashes comment _ => '/' :: '/' :: comment
  | .blank spaces => spaces.chars
  | .integer field e => (intName field).toList ++ (e.gap.chars ++ e.fields)
  | .timeval field e => (timevalName field).toList ++ (e.secGap.chars ++ e.fields)
  | .multicast e => "multicast".toList ++ (e.addrGap.chars ++ e.fields)
  | .acceptor e => "acceptor".toList ++ (e.idGap.chars ++ e.fields)

def Line.acceptorNumber : Line → Option ℕ
  | .acceptor e => some e.id.value
  | _ => none

/-- Lines in any order that `fgets` reads as a whole, with one line for each acceptor. -/
structure ConfigText where
  lines : List Line
  short : ∀ line ∈ lines, line.body.length < 1023
  distinct : (lines.filterMap Line.acceptorNumber).Nodup

def ConfigText.chars (text : ConfigText) : List Char := joinLines (text.lines.map Line.body)

def AcceptorEntry.info (e : AcceptorEntry) : AcceptorInfo where
  id := e.id.value
  ipAddr := e.addr.chars
  inboundPort := e.ringPort.value
  learnersPort := e.learnersPort.value

def Line.intSetting (field : IntField) : Line → Option ℤ
  | .integer other e => if other = field then some e.value.value else none
  | _ => none

def Line.timevalSetting (field : TimevalField) : Line → Option Timeval
  | .timeval other e => if other = field then some ⟨e.sec.value, e.usec.value⟩ else none
  | _ => none

def Line.multicastSetting : Line → Option (List Char × ℤ)
  | .multicast e => some (e.addr.chars, e.port.value)
  | _ => none

def Line.acceptorSetting (id : ℕ) : Line → Option AcceptorInfo
  | .acceptor e => if e.id.value = id then some e.info else none
  | _ => none

/-- What the getters return once `config_mngr_init` has marked the configuration. -/
structure Returns (cm : ConfigMngr) (e : AcceptorEntry) : Prop where
  ipAddr : lpconfigGetIpAddrOf { cm with initialized := true } e.id.value = .ok e.addr.chars
  ringPort :
    lpconfigGetRingPortOf { cm with initialized := true } e.id.value = .ok e.ringPort.value
  learnersPort :
    lpconfigGetLearnersPortOf { cm with initialized := true } e.id.value =
      .ok e.learnersPort.value

structure Reflects (cm : ConfigMngr) (lines : List Line) : Prop where
  ints : ∀ field n, (lines.filterMap (Line.intSetting field)).getLast? = some n →
    cm.getInt field = n
  timevals : ∀ field t, (lines.filterMap (Line.timevalSetting field)).getLast? = some t →
    cm.getTimeval field = t
  multicast : ∀ addr port,
    (lines.filterMap Line.multicastSetting).getLast? = some (addr, port) →
      cm.mcastAddr = addr ∧ cm.mcastPort = port
  acceptors : ∀ e, .acceptor e ∈ lines → Returns cm e

def ReadAsWritten (sys : Platform) (acceptorId : ℕ) (text : ConfigText) : Prop :=
  ∃ cm, openAndParse sys (emptyConfig acceptorId) text.chars = .ok cm ∧ Reflects cm text.lines

/-- The ids that have the same digit in base 8, and blank lines with nothing on them. -/
def Line.Readable : Line → Prop
  | .blank spaces => spaces.chars = []
  | .acceptor e => e.id.value < 8
  | _ => True

section Keywords

variable {line rest ending : List Char} {word : String} {entry : Entry}

theorem keywords_apart : ∀ p ∈ entries, ∀ q ∈ entries, p.1.toList <+: q.1.toList → p = q := by
  decide +kernel

theorem entryOf_of_prefix (listed : (word, entry) ∈ entries)
    (starts : word.toList <+: cString line) : entryOf line = some entry := by
  unfold entryOf
  cases found : entries.find? fun entry => startsWith entry.1 line with
  | none =>
    have other := List.find?_eq_none.mp found _ listed
    exact absurd (List.isPrefixOf_iff_prefix.mpr starts) other
  | some p =>
    have mem := List.mem_of_find?_eq_some found
    have met := List.find?_some found
    have starts' : p.1.toList <+: cString line := List.isPrefixOf_iff_prefix.mp met
    have same : p = (word, entry) := by
      rcases List.prefix_or_prefix_of_prefix starts' starts with shorter | longer
      · exact keywords_apart p mem _ listed shorter
      · exact (keywords_apart _ listed p mem longer).symm
    rw [same]
    rfl

theorem keyword_visible : ∀ p ∈ entries, p.2 ≠ .ignored →
    p.1.toList ≠ [] ∧ p.1.toList.all isVisible = true := by
  decide +kernel

def keyword (listed : (word, entry) ∈ entries) (directive : entry ≠ .ignored) : Word where
  chars := word.toList
  visible := visible_of_all (keyword_visible _ listed directive).2
  nonempty := (keyword_visible _ listed directive).1

theorem directive_plain (listed : (word, entry) ∈ entries) (directive : entry ≠ .ignored)
    (gap : Gap) (plain : Plain rest) : Plain (word.toList ++ (gap.chars ++ rest)) :=
  (keyword listed directive).plain.append (gap.plain.append plain)

theorem directive_read (listed : (word, entry) ∈ entries) (directive : entry ≠ .ignored)
    (gap : Gap) (plain : Plain rest) (ends : Ending ending) :
    entryOf (word.toList ++ (gap.chars ++ rest) ++ ending) = some entry ∧
      afterKeyword (word.toList ++ (gap.chars ++ rest) ++ ending) =
        gap.chars ++ (rest ++ ending) := by
  have string := (directive_plain listed directive gap plain).cString ends
  have shape : word.toList ++ (gap.chars ++ rest) ++ ending =
      word.toList ++ (gap.chars ++ (rest ++ ending)) := by
    simp only [List.append_assoc]
  constructor
  · refine entryOf_of_prefix listed ?_
    rw [string, shape]
    exact List.prefix_append _ _
  · have ended : Ends (gap.chars ++ (rest ++ ending)) := gap.ends
    have scanned := scanWord_word ⟨[], fun _ h => nomatch h⟩ (keyword listed directive) ended
    have scanned : scanWord (word.toList ++ (gap.chars ++ (rest ++ ending))) =
        some (word.toList, gap.chars ++ (rest ++ ending)) := scanned
    unfold afterKeyword
    rw [string, shape, scanned]

theorem ends_tail (tail : Blanks) (ends : Ending ending) : Ends (tail.chars ++ ending) := by
  refine ends_blanks fun c hc => ?_
  rcases List.mem_append.mp hc with before | after
  · exact (tail.blank c before).1
  · rcases ends with rfl | rfl
    · exact nomatch after
    · rw [List.mem_singleton.mp after]
      decide

end Keywords

section Directives

theorem IntEntry.plain {field : IntField} (e : IntEntry field) : Plain e.fields :=
  e.value.plain.append e.tail.plain

theorem TimevalEntry.plain (e : TimevalEntry) : Plain e.fields :=
  e.sec.plain.append (e.usecGap.plain.append (e.usec.plain.append e.tail.plain))

theorem MulticastEntry.plain (e : MulticastEntry) : Plain e.fields :=
  e.addr.plain.append (e.portGap.plain.append (e.port.plain.append e.tail.plain))

theorem AcceptorEntry.plain (e : AcceptorEntry) : Plain e.fields :=
  e.id.plain.append (e.addrGap.plain.append (e.addr.plain.append (e.ringGap.plain.append
    (e.ringPort.plain.append (e.learnersGap.plain.append
      (e.learnersPort.plain.append e.tail.plain))))))

variable {sys : Platform} {cm : ConfigMngr} {ending : List Char}

theorem intName_listed (field : IntField) : (intName field, .integer field) ∈ entries := by
  cases field <;> decide +kernel

theorem timevalName_listed (field : TimevalField) :
    (timevalName field, .timeval field) ∈ entries := by
  cases field <;> decide +kernel

theorem multicast_listed : ("multicast", Entry.multicast) ∈ entries := by decide +kernel

theorem acceptor_listed : ("acceptor", Entry.acceptor) ∈ entries := by decide +kernel

theorem storeInt_fits {field : IntField} {n : IntLiteral}
    (unsigned : field = .quorumSize → 0 ≤ n.value) : storeInt field n.value = n.value := by
  have high : n.value < 2 ^ 31 := n.high
  unfold storeInt
  split_ifs with quorum
  · exact Int.emod_eq_of_lt (unsigned quorum) (by omega)
  · rfl

variable {line rest : List Char}

theorem parseLine_integer {field : IntField} (e : IntEntry field)
    (kind : entryOf line = some (.integer field))
    (after : afterKeyword line = e.gap.chars ++ (e.value.chars ++ rest)) (ends : Ends rest) :
    parseLine sys cm line = .ok (cm.setInt e.value.value field) := by
  have read : parseInteger field line (cm.getInt field) = e.value.value := by
    unfold parseInteger
    rw [after, scanInt_literal e.gap.toBlanks e.value ends]
    exact storeInt_fits e.unsigned
  unfold parseLine
  rw [kind]
  exact congrArg (fun n => Except.ok (cm.setInt n field)) read

theorem parseLine_timeval {field : TimevalField} (e : TimevalEntry)
    (kind : entryOf line = some (.timeval field))
    (after : afterKeyword line = e.secGap.chars ++ (e.sec.chars ++ (e.usecGap.chars ++
      (e.usec.chars ++ rest)))) (ends : Ends rest) :
    parseLine sys cm line = .ok (cm.setTimeval ⟨e.sec.value, e.usec.value⟩ field) := by
  have read : parseTimeval sys line = ⟨e.sec.value, e.usec.value⟩ := by
    unfold parseTimeval
    rw [after, scanInt_literal e.secGap.toBlanks e.sec e.usecGap.ends]
    dsimp only
    rw [scanInt_literal e.usecGap.toBlanks e.usec ends]
  unfold parseLine
  rw [kind]
  exact congrArg (fun value => Except.ok (cm.setTimeval value field)) read

theorem scanPort_literal (gap : Gap) (n : IntLiteral) (ends : Ends rest) (old : ℤ) :
    scanPort (gap.chars ++ (n.chars ++ rest)) old = (n.value, rest) := by
  unfold scanPort
  rw [scanInt_literal gap.toBlanks n ends]

theorem Address.fits (addr : Address) : ¬ 16 ≤ addr.chars.length := by
  have short := addr.short
  omega

theorem parseLine_multicast (e : MulticastEntry) (kind : entryOf line = some .multicast)
    (after : afterKeyword line = e.addrGap.chars ++ (e.addr.chars ++ (e.portGap.chars ++
      (e.port.chars ++ rest)))) (ends : Ends rest) :
    parseLine sys cm line =
      .ok { cm with mcastAddr := e.addr.chars, mcastPort := e.port.value } := by
  unfold parseLine
  rw [kind]
  change parseMulticast cm line = _
  unfold parseMulticast
  rw [after, scanWord_word e.addrGap.toBlanks e.addr.toWord e.portGap.ends]
  dsimp only
  rw [if_neg e.addr.fits, scanPort_literal e.portGap e.port ends]

def withAcceptor (cm : ConfigMngr) (e : AcceptorEntry) : ConfigMngr :=
  { cm with
    accInfos := fun i => if i = e.id.value then e.info else cm.accInfos i
    acceptorsCount := toInt32 (cm.acceptorsCount + 1) }

theorem addAcceptorInfo_entry (e : AcceptorEntry) :
    addAcceptorInfo cm e.id.value e.addr.chars e.ringPort.value e.learnersPort.value =
      .ok (withAcceptor cm e) := by
  have short := e.addr.short
  have low := e.id.low
  have high := e.id.high
  unfold addAcceptorInfo
  rw [if_neg (by omega), if_neg (by omega), if_neg (by omega)]
  rfl

theorem parseLine_acceptor (e : AcceptorEntry) (octal : e.id.value < 8)
    (kind : entryOf line = some .acceptor)
    (after : afterKeyword line = e.idGap.chars ++ (e.id.chars ++ (e.addrGap.chars ++
      (e.addr.chars ++ (e.ringGap.chars ++ (e.ringPort.chars ++ (e.learnersGap.chars ++
        (e.learnersPort.chars ++ rest)))))))) (ends : Ends rest) :
    parseLine sys cm line = .ok (withAcceptor cm e) := by
  have ended : Ends (e.addrGap.chars ++ (e.addr.chars ++ (e.ringGap.chars ++ (e.ringPort.chars ++
      (e.learnersGap.chars ++ (e.learnersPort.chars ++ rest)))))) := e.addrGap.ends
  have id := scanOctalByte_small e.idGap.toBlanks e.id.toDigits octal ended
  have number : acceptorId line = e.id.value := by
    unfold acceptorId
    rw [after, id]
  unfold parseLine
  rw [kind]
  change parseAcceptor sys cm line = _
  unfold parseAcceptor
  rw [number, after, id]
  dsimp only
  rw [scanWord_word e.addrGap.toBlanks e.addr.toWord e.ringGap.ends]
  dsimp only
  rw [if_neg e.addr.fits, scanPort_literal e.ringGap e.ringPort e.learnersGap.ends]
  dsimp only
  rw [scanPort_literal e.learnersGap e.learnersPort ends]
  exact addAcceptorInfo_entry e

theorem acceptor_read (e : AcceptorEntry) {ending : List Char} (ends : Ending ending) :
    entryOf ((Line.acceptor e).body ++ ending) = some .acceptor ∧
      afterKeyword ((Line.acceptor e).body ++ ending) =
        e.idGap.chars ++ (e.id.chars ++ (e.addrGap.chars ++ (e.addr.chars ++ (e.ringGap.chars ++
          (e.ringPort.chars ++ (e.learnersGap.chars ++ (e.learnersPort.chars ++
            (e.tail.chars ++ ending)))))))) := by
  obtain ⟨kind, after⟩ := directive_read acceptor_listed (by simp) e.idGap e.plain ends
  have split : e.fields ++ ending = e.id.chars ++ (e.addrGap.chars ++ (e.addr.chars ++
      (e.ringGap.chars ++ (e.ringPort.chars ++ (e.learnersGap.chars ++ (e.learnersPort.chars ++
        (e.tail.chars ++ ending))))))) := by
    simp only [AcceptorEntry.fields, List.append_assoc]
  exact ⟨kind, split ▸ after⟩

theorem parseLine_acceptor_large (e : AcceptorEntry) (large : 8 ≤ e.id.value)
    (kind : entryOf line = some .acceptor)
    (after : afterKeyword line = e.idGap.chars ++ (e.id.chars ++ rest)) (cm' : ConfigMngr) :
    parseLine sys cm line ≠ .ok cm' := by
  have zero : acceptorId line = 0 := by
    unfold acceptorId
    rw [after]
    split
    · rfl
    · rename_i id rest found
      exact scanOctalByte_large e.idGap.toBlanks e.id.toDigits large e.id.high found
  unfold parseLine
  rw [kind]
  intro parsed
  have adds := RingConfigValidity.parseAcceptor_adds parsed
  have low := adds.low
  omega

end Directives

section Lines

variable {sys : Platform} {cm cm' : ConfigMngr} {ending : List Char}

/-- What the parser makes of a configuration with a line. -/
def Line.apply (cm : ConfigMngr) : Line → ConfigMngr
  | .sharp _ _ | .slashes _ _ | .blank _ => cm
  | .integer field e => cm.setInt e.value.value field
  | .timeval field e => cm.setTimeval ⟨e.sec.value, e.usec.value⟩ field
  | .multicast e => { cm with mcastAddr := e.addr.chars, mcastPort := e.port.value }
  | .acceptor e => withAcceptor cm e

theorem parseLine_ignored {line : List Char} (kind : entryOf line = some .ignored) :
    parseLine sys cm line = .ok cm := by
  unfold parseLine
  rw [kind]

theorem entryOf_sharp (comment : List Char) : entryOf ('#' :: comment) = some .ignored := by
  have listed : ("#", Entry.ignored) ∈ entries := by decide +kernel
  refine entryOf_of_prefix listed ?_
  rw [cString, List.takeWhile_cons_of_pos (by decide)]
  exact List.cons_prefix_cons.mpr ⟨rfl, List.nil_prefix⟩

theorem entryOf_slashes (comment : List Char) :
    entryOf ('/' :: '/' :: comment) = some .ignored := by
  have listed : ("//", Entry.ignored) ∈ entries := by decide +kernel
  refine entryOf_of_prefix listed ?_
  rw [cString, List.takeWhile_cons_of_pos (by decide), List.takeWhile_cons_of_pos (by decide)]
  exact List.cons_prefix_cons.mpr ⟨rfl, List.cons_prefix_cons.mpr ⟨rfl, List.nil_prefix⟩⟩

theorem keyword_head : ∀ p ∈ entries,
    (p.1.toList.head?.any fun c => !isSpace c || c == '\n') = true := by
  decide +kernel

theorem entryOf_spaces {c : Char} {rest : List Char} (space : isSpace c = true)
    (other : c ≠ '\n') : entryOf (c :: rest) = none := by
  have shown : c ≠ '\x00' := by
    rintro rfl
    exact absurd space (by decide)
  unfold entryOf
  rw [Option.map_eq_none_iff, List.find?_eq_none]
  intro p hp starts
  obtain ⟨d, head, visible⟩ := (Option.any_eq_true _ _).mp (keyword_head p hp)
  unfold startsWith at starts
  rw [cString, List.takeWhile_cons_of_pos (by simpa using shown)] at starts
  cases word : p.1.toList with
  | nil =>
    rw [word] at head
    cases head
  | cons e word' =>
    rw [word] at head starts
    cases head
    have same := (List.cons_prefix_cons.mp (List.isPrefixOf_iff_prefix.mp starts)).1
    rw [same, Bool.or_eq_true, Bool.not_eq_true', beq_iff_eq] at visible
    rcases visible with shown | newline
    · exact absurd (space.symm.trans shown) (by decide)
    · exact other newline

theorem parseLine_readable (sys : Platform) (cm : ConfigMngr) (line : Line)
    (readable : line.Readable) (ends : Ending ending) (shown : line.body ++ ending ≠ []) :
    parseLine sys cm (line.body ++ ending) = .ok (line.apply cm) := by
  cases line with
  | sharp comment oneLine => exact parseLine_ignored (entryOf_sharp _)
  | slashes comment oneLine => exact parseLine_ignored (entryOf_slashes _)
  | blank spaces =>
    have empty : spaces.chars = [] := readable
    change spaces.chars ++ ending ≠ [] at shown
    change parseLine sys cm (spaces.chars ++ ending) = .ok cm
    rw [empty] at shown ⊢
    rcases ends with rfl | rfl
    · exact absurd rfl shown
    · exact parseLine_ignored (by decide +kernel)
  | integer field e =>
    obtain ⟨kind, after⟩ := directive_read (intName_listed field) (by simp) e.gap e.plain ends
    have split : e.fields ++ ending = e.value.chars ++ (e.tail.chars ++ ending) := by
      rw [IntEntry.fields, List.append_assoc]
    exact parseLine_integer e kind (split ▸ after) (ends_tail e.tail ends)
  | timeval field e =>
    obtain ⟨kind, after⟩ := directive_read (timevalName_listed field) (by simp) e.secGap e.plain
      ends
    have split : e.fields ++ ending = e.sec.chars ++ (e.usecGap.chars ++ (e.usec.chars ++
        (e.tail.chars ++ ending))) := by
      simp only [TimevalEntry.fields, List.append_assoc]
    exact parseLine_timeval e kind (split ▸ after) (ends_tail e.tail ends)
  | multicast e =>
    obtain ⟨kind, after⟩ := directive_read multicast_listed (by simp) e.addrGap e.plain ends
    have split : e.fields ++ ending = e.addr.chars ++ (e.portGap.chars ++ (e.port.chars ++
        (e.tail.chars ++ ending))) := by
      simp only [MulticastEntry.fields, List.append_assoc]
    exact parseLine_multicast e kind (split ▸ after) (ends_tail e.tail ends)
  | acceptor e =>
    obtain ⟨kind, after⟩ := acceptor_read e ends
    exact parseLine_acceptor e readable kind after (ends_tail e.tail ends)

theorem parseLine_unreadable (line : Line) (unreadable : ¬ line.Readable) (ends : Ending ending)
    (cm' : ConfigMngr) : parseLine sys cm (line.body ++ ending) ≠ .ok cm' := by
  cases line with
  | blank spaces =>
    change parseLine sys cm (spaces.chars ++ ending) ≠ .ok cm'
    cases shown : spaces.chars with
    | nil => exact absurd shown unreadable
    | cons c rest =>
      obtain ⟨space, other⟩ := spaces.blank c (by simp [shown])
      have kind : entryOf (c :: (rest ++ ending)) = none := entryOf_spaces space other
      unfold parseLine
      rw [List.cons_append, kind]
      exact fun same => nomatch same
  | acceptor e =>
    obtain ⟨kind, after⟩ := acceptor_read e ends
    exact parseLine_acceptor_large e (not_lt.mp unreadable) kind after cm'
  | _ => exact absurd trivial unreadable

theorem Line.oneLine (line : Line) : '\n' ∉ line.body := by
  cases line with
  | sharp comment oneLine => exact List.not_mem_cons_of_ne_of_not_mem (by decide) oneLine
  | slashes comment oneLine =>
    exact List.not_mem_cons_of_ne_of_not_mem (by decide)
      (List.not_mem_cons_of_ne_of_not_mem (by decide) oneLine)
  | blank spaces => exact spaces.plain.oneLine
  | integer field e =>
    exact (directive_plain (intName_listed field) (by simp) e.gap e.plain).oneLine
  | timeval field e =>
    exact (directive_plain (timevalName_listed field) (by simp) e.secGap e.plain).oneLine
  | multicast e => exact (directive_plain multicast_listed (by simp) e.addrGap e.plain).oneLine
  | acceptor e => exact (directive_plain acceptor_listed (by simp) e.idGap e.plain).oneLine

theorem directive_ne_nil {word : String} {entry : Entry} (listed : (word, entry) ∈ entries)
    (directive : entry ≠ .ignored) (rest : List Char) : word.toList ++ rest ≠ [] :=
  List.append_ne_nil_of_left_ne_nil (keyword_visible _ listed directive).1 rest

theorem Line.eq_blank {line : Line} (empty : line.body = []) :
    ∃ spaces : Blanks, line = .blank spaces ∧ spaces.chars = [] := by
  cases line with
  | sharp comment oneLine => exact absurd empty (List.cons_ne_nil _ _)
  | slashes comment oneLine => exact absurd empty (List.cons_ne_nil _ _)
  | blank spaces => exact ⟨spaces, rfl, empty⟩
  | integer field e => exact absurd empty (directive_ne_nil (intName_listed field) (by simp) _)
  | timeval field e => exact absurd empty (directive_ne_nil (timevalName_listed field) (by simp) _)
  | multicast e => exact absurd empty (directive_ne_nil multicast_listed (by simp) _)
  | acceptor e => exact absurd empty (directive_ne_nil acceptor_listed (by simp) _)

theorem parse_readable {lines : List Line} (readable : ∀ line ∈ lines, line.Readable)
    (cm : ConfigMngr) : (readLines (lines.map Line.body)).foldlM (parseLine sys) cm =
      .ok (lines.foldl Line.apply cm) := by
  induction lines generalizing cm with
  | nil => rfl
  | cons line lines ih =>
    obtain ⟨first, others⟩ := List.forall_mem_cons.mp readable
    cases lines with
    | nil =>
      by_cases empty : line.body = []
      · obtain ⟨spaces, rfl, none⟩ := Line.eq_blank empty
        rw [List.map_singleton, empty, readLines_empty]
        rfl
      · have parsed := parseLine_readable sys cm line first (.inl rfl) (by simpa using empty)
        rw [List.append_nil] at parsed
        rw [List.map_singleton, readLines_last empty, List.foldlM_cons, parsed]
        rfl
    | cons next lines =>
      have parsed := parseLine_readable sys cm line first (.inr rfl) (by simp)
      rw [List.map_cons, List.map_cons, readLines_next, List.foldlM_cons, parsed]
      exact ih others (line.apply cm)

theorem parse_unreadable {lines : List Line} (unreadable : ∃ line ∈ lines, ¬ line.Readable)
    (cm cm' : ConfigMngr) :
    (readLines (lines.map Line.body)).foldlM (parseLine sys) cm ≠ .ok cm' := by
  induction lines generalizing cm with
  | nil => simp at unreadable
  | cons line lines ih =>
    intro parsed
    cases lines with
    | nil =>
      have bad : ¬ line.Readable := by simpa using unreadable
      have shown : line.body ≠ [] := by
        intro empty
        obtain ⟨spaces, rfl, none⟩ := Line.eq_blank empty
        exact bad none
      rw [List.map_singleton, readLines_last shown, List.foldlM_cons] at parsed
      obtain ⟨cm'', first, -⟩ := bind_eq_ok parsed
      rw [← List.append_nil line.body] at first
      exact parseLine_unreadable line bad (.inl rfl) cm'' first
    | cons next lines =>
      rw [List.map_cons, List.map_cons, readLines_next, List.foldlM_cons] at parsed
      obtain ⟨cm'', first, rest⟩ := bind_eq_ok parsed
      by_cases bad : line.Readable
      · refine ih ?_ cm'' rest
        obtain ⟨line', mem, bad'⟩ := unreadable
        rcases List.mem_cons.mp mem with rfl | later
        · exact absurd bad bad'
        · exact ⟨line', later, bad'⟩
      · exact parseLine_unreadable line bad (.inr rfl) cm'' first

theorem openAndParse_eq (text : ConfigText) : openAndParse sys cm text.chars =
    (readLines (text.lines.map Line.body)).foldlM (parseLine sys) cm := by
  unfold openAndParse ConfigText.chars
  rw [fgetsLines_joinLines]
  · intro body mem
    obtain ⟨line, -, rfl⟩ := List.mem_map.mp mem
    exact line.oneLine
  · intro body mem
    obtain ⟨line, listed, rfl⟩ := List.mem_map.mp mem
    exact text.short line listed

end Lines

section Settings

variable {cm : ConfigMngr} {lines : List Line}

@[simp] theorem getTimeval_setTimeval (cm : ConfigMngr) (value : Timeval) (f g : TimevalField) :
    (cm.setTimeval value g).getTimeval f = if f = g then value else cm.getTimeval f := by
  cases f <;> cases g <;> rfl

@[simp] theorem getTimeval_setInt (cm : ConfigMngr) (value : ℤ) (f : TimevalField)
    (g : IntField) : (cm.setInt value g).getTimeval f = cm.getTimeval f := by
  cases f <;> cases g <;> rfl

theorem getD_setting {α β : Type*} [DecidableEq α] (named field : α) (value old : β) :
    (if named = field then some value else none).getD old =
      if field = named then value else old := by
  by_cases same : named = field
  · rw [if_pos same, if_pos same.symm, Option.getD_some]
  · rw [if_neg same, if_neg (Ne.symm same), Option.getD_none]

theorem apply_int (field : IntField) (cm : ConfigMngr) (line : Line) :
    (line.apply cm).getInt field = (line.intSetting field).getD (cm.getInt field) := by
  cases line with
  | integer other e => exact (getInt_setInt _ _ _ _).trans (getD_setting other field _ _).symm
  | timeval other e => exact RingConfigValidity.getInt_setTimeval _ _ _ _
  | multicast e => cases field <;> rfl
  | acceptor e => cases field <;> rfl
  | _ => rfl

theorem apply_timeval (field : TimevalField) (cm : ConfigMngr) (line : Line) :
    (line.apply cm).getTimeval field =
      (line.timevalSetting field).getD (cm.getTimeval field) := by
  cases line with
  | timeval other e =>
    exact (getTimeval_setTimeval _ _ _ _).trans (getD_setting other field _ _).symm
  | integer other e => exact getTimeval_setInt _ _ _ _
  | multicast e => cases field <;> rfl
  | acceptor e => cases field <;> rfl
  | _ => rfl

theorem apply_multicast (cm : ConfigMngr) (line : Line) :
    ((line.apply cm).mcastAddr, (line.apply cm).mcastPort) =
      line.multicastSetting.getD (cm.mcastAddr, cm.mcastPort) := by
  cases line with
  | integer field e => cases field <;> rfl
  | timeval field e => cases field <;> rfl
  | _ => rfl

theorem apply_acceptor (id : ℕ) (cm : ConfigMngr) (line : Line) :
    (line.apply cm).accInfos id = (line.acceptorSetting id).getD (cm.accInfos id) := by
  cases line with
  | acceptor e => exact (getD_setting e.id.value id _ _).symm
  | integer field e => cases field <;> rfl
  | timeval field e => cases field <;> rfl
  | _ => rfl

theorem acceptor_last (distinct : (lines.filterMap Line.acceptorNumber).Nodup)
    {e : AcceptorEntry} (listed : .acceptor e ∈ lines) :
    (lines.filterMap (Line.acceptorSetting e.id.value)).getLast? = some e.info := by
  obtain ⟨before, after, rfl⟩ := List.append_of_mem listed
  refine getLast?_filterMap (if_pos rfl) fun line later => ?_
  rw [List.filterMap_append, List.filterMap_cons] at distinct
  have others := (List.nodup_cons.mp (List.nodup_append.mp distinct).2.1).1
  cases line with
  | acceptor other =>
    refine if_neg fun same => others ?_
    exact List.mem_filterMap.mpr ⟨_, later, congrArg some same⟩
  | _ => rfl

theorem acceptorInfo_of_slot {e : AcceptorEntry} (slot : cm.accInfos e.id.value = e.info) :
    lpconfigGetAcceptorInfo { cm with initialized := true } e.id.value = .ok e.info := by
  have high : e.id.value < maxAcceptors := e.id.high
  have own : (cm.accInfos e.id.value).id ≤ maxAcceptors := by
    rw [slot]
    exact high.le
  unfold lpconfigGetAcceptorInfo ensure
  rw [if_pos high.le, if_pos rfl, if_pos high, if_pos own]
  exact congrArg Except.ok slot

theorem returns_of_slot {e : AcceptorEntry} (slot : cm.accInfos e.id.value = e.info) :
    Returns cm e := by
  have info := acceptorInfo_of_slot slot
  constructor
  · rw [lpconfigGetIpAddrOf, info]
    rfl
  · rw [lpconfigGetRingPortOf, info]
    rfl
  · rw [lpconfigGetLearnersPortOf, info]
    rfl

theorem reflects_lines (distinct : (lines.filterMap Line.acceptorNumber).Nodup)
    (cm : ConfigMngr) : Reflects (lines.foldl Line.apply cm) lines where
  ints := by
    intro field n last
    have read := foldl_last (fun cm : ConfigMngr => cm.getInt field) (apply_int field) lines cm
    rwa [last, Option.getD_some] at read
  timevals := by
    intro field t last
    have read := foldl_last (fun cm : ConfigMngr => cm.getTimeval field) (apply_timeval field)
      lines cm
    rwa [last, Option.getD_some] at read
  multicast := by
    intro addr port last
    have read := foldl_last (fun cm : ConfigMngr => (cm.mcastAddr, cm.mcastPort)) apply_multicast
      lines cm
    rw [last, Option.getD_some] at read
    exact Prod.mk.inj read
  acceptors := by
    intro e listed
    have read := foldl_last (fun cm : ConfigMngr => cm.accInfos e.id.value)
      (apply_acceptor e.id.value) lines cm
    rw [acceptor_last distinct listed, Option.getD_some] at read
    exact returns_of_slot read

end Settings

/-- A configuration is read as it was written exactly if no acceptor has the id 8 or 9, which
are no numbers in base 8, and the blank lines are empty. -/
theorem read_as_written_iff (sys : Platform) (acceptorId : ℕ) (text : ConfigText) :
    ReadAsWritten sys acceptorId text ↔ ∀ line ∈ text.lines, line.Readable := by
  unfold ReadAsWritten
  rw [openAndParse_eq]
  constructor
  · rintro ⟨cm, parsed, -⟩
    by_contra some
    refine parse_unreadable ?_ _ cm parsed
    simpa only [not_forall, exists_prop] using some
  · intro readable
    exact ⟨_, parse_readable readable _, reflects_lines text.distinct _⟩

def space : Gap where
  chars := [' ']
  blank := fun c hc => by rw [List.mem_singleton.mp hc]; decide
  nonempty := by decide

def noBlanks : Blanks := ⟨[], fun _ h => nomatch h⟩

def eightEntry : AcceptorEntry where
  idGap := space
  id := ⟨⟨['8'], List.all_eq_true.mp (by decide), by decide⟩, by decide, by decide⟩
  addrGap := space
  addr := ⟨⟨"10.0.0.8".toList, visible_of_all (by decide +kernel), by decide +kernel⟩,
    by decide +kernel⟩
  ringGap := space
  ringPort := ⟨.none, ⟨"7001".toList, List.all_eq_true.mp (by decide +kernel), by decide +kernel⟩,
    by decide +kernel, by decide +kernel⟩
  learnersGap := space
  learnersPort := ⟨.none, ⟨"7002".toList, List.all_eq_true.mp (by decide +kernel),
    by decide +kernel⟩, by decide +kernel, by decide +kernel⟩
  tail := noBlanks

def mcastEntry : MulticastEntry where
  addrGap := space
  addr := ⟨⟨"239.0.0.1".toList, visible_of_all (by decide +kernel), by decide +kernel⟩,
    by decide +kernel⟩
  portGap := space
  port := ⟨.none, ⟨"6000".toList, List.all_eq_true.mp (by decide +kernel), by decide +kernel⟩,
    by decide +kernel, by decide +kernel⟩
  tail := noBlanks

def eightText : ConfigText where
  lines := [.multicast mcastEntry, .acceptor eightEntry]
  short := by decide +kernel
  distinct := by decide +kernel

theorem acceptor_eight_rejected :
    eightText.chars = "multicast 239.0.0.1 6000\nacceptor 8 10.0.0.8 7001 7002".toList ∧
      ¬ ReadAsWritten plainPlatform 1 eightText := by
  refine ⟨by decide +kernel, ?_⟩
  rintro ⟨cm, parsed, -⟩
  have failed : (openAndParse plainPlatform (emptyConfig 1) eightText.chars).isOk = false := by
    decide +kernel
  rw [parsed] at failed
  exact nomatch failed

end FdsPaxos.RingConfigLines
