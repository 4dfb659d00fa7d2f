import SamdReference.CmdTlmTest.Doubles
import SamdReference.Reentrant.Family

/-!
# The test topology

The three components of the topology run on one board, on the stacks of the framework's
real ones between them. An event that `Target` emits reaches `EventSink` through its port,
as an entry of its own. What a test reads through the accessors is what arrived, whatever
the order and nesting of the entries; and the search for bytes in the captured packet
reads no byte outside its storage.
-/

namespace CmdTlmTest

open Reentrant (Component Board Call Log World)

section Contains

/-- What a pointer points to. -/
abbrev Memory := Option (List UInt8)

/-- `memory[i]`, or nothing if that is outside the memory. -/
def read (memory : Memory) (i : Nat) : Option UInt8 := memory.bind fun bytes => bytes[i]?

variable (haystack : Memory) (haystackSize : Nat) (needle : Memory) (needleSize : Nat)

/-- The inner loop from `j` on: does it get to the end of `needle`? -/
def agreesFrom (i j : Nat) : Option Bool :=
  if j < needleSize then do
    let a ← read haystack (i + j)
    let b ← read needle j
    if a ≠ b then return false
    agreesFrom i (j + 1)
  else some true
termination_by needleSize - j

/-- The outer loop from `i` on. -/
def foundFrom (i : Nat) : Option Bool :=
  if i + needleSize ≤ haystackSize then do
    if ← agreesFrom haystack needle needleSize i 0 then return true
    foundFrom (i + 1)
  else some false
termination_by haystackSize + 1 - i

def contains : Option Bool :=
  if needleSize = 0 ∨ needleSize > haystackSize then some false
  else foundFrom haystack haystackSize needle needleSize 0

end Contains

section Search

variable {bytes pattern : List UInt8} {size : Nat}

/-- The inner loop stays inside both memories and compares what is left. -/
theorem agreesFrom_spec {i : Nat} (inside : i + pattern.length ≤ bytes.length) {j : Nat}
    (reached : j ≤ pattern.length) :
    ∃ agrees, agreesFrom (some bytes) (some pattern) pattern.length i j = some agrees ∧
      (agrees = true ↔ ∀ k, j ≤ k → k < pattern.length → bytes[i + k]? = pattern[k]?) := by
  induction left : pattern.length - j generalizing j with
  | zero =>
      have ended : ¬j < pattern.length := by omega
      refine ⟨true, ?_, iff_of_true rfl ?_⟩
      · rw [agreesFrom, if_neg ended]
      · intro k beyond small
        omega
  | succ left ih =>
      have small : j < pattern.length := by omega
      have first : bytes[i + j]? = some bytes[i + j] := List.getElem?_eq_getElem (by omega)
      have second : pattern[j]? = some pattern[j] := List.getElem?_eq_getElem small
      rw [agreesFrom, if_pos small]
      simp only [read, Option.bind_some, first, second, Option.bind_eq_bind]
      by_cases same : bytes[i + j] = pattern[j]
      · obtain ⟨agrees, ran, rest⟩ := ih (j := j + 1) small (by omega)
        refine ⟨agrees, by simpa [same] using ran, ?_⟩
        rw [rest]
        constructor
        · intro later k beyond inside
          rcases Nat.eq_or_lt_of_le beyond with rfl | beyond
          · rw [first, second, same]
          · exact later k beyond inside
        · exact fun all k beyond => all k (by omega)
      · refine ⟨false, by simp [same], iff_of_false (by decide) ?_⟩
        intro all
        have here := all j (Nat.le_refl j) small
        rw [first, second] at here
        exact same (Option.some.inj here)

theorem foundFrom_spec (whole : size ≤ bytes.length) (i : Nat) :
    ∃ found, foundFrom (some bytes) size (some pattern) pattern.length i = some found ∧
      (found = true ↔ ∃ k, i ≤ k ∧ k + pattern.length ≤ size ∧
        ∀ j < pattern.length, bytes[k + j]? = pattern[j]?) := by
  induction left : size + 1 - i generalizing i with
  | zero =>
      have ended : ¬i + pattern.length ≤ size := by omega
      refine ⟨false, ?_, iff_of_false (by decide) ?_⟩
      · rw [foundFrom, if_neg ended]
      · rintro ⟨k, beyond, fits, _⟩
        omega
  | succ left ih =>
      by_cases fits : i + pattern.length ≤ size
      · have inside : i + pattern.length ≤ bytes.length := Nat.le_trans fits whole
        obtain ⟨agrees, ran, here⟩ := agreesFrom_spec inside (Nat.zero_le _)
        obtain ⟨found, later, rest⟩ := ih (i + 1) (by omega)
        rw [foundFrom, if_pos fits, ran]
        cases agrees with
        | true =>
            refine ⟨true, rfl, iff_of_true rfl ⟨i, Nat.le_refl i, fits, ?_⟩⟩
            exact fun j small => here.mp rfl j (Nat.zero_le j) small
        | false =>
            refine ⟨found, by simpa using later, ?_⟩
            rw [rest]
            constructor
            · rintro ⟨k, beyond, found⟩
              exact ⟨k, by omega, found⟩
            · rintro ⟨k, beyond, inside, same⟩
              rcases Nat.eq_or_lt_of_le beyond with rfl | beyond
              · cases here.mpr fun j _ small => same j small
              · exact ⟨k, beyond, inside, same⟩
      · refine ⟨false, ?_, iff_of_false (by decide) ?_⟩
        · rw [foundFrom, if_neg fits]
        · rintro ⟨k, beyond, inside, _⟩
          omega

/-- For memory that is as long as it is said to be, the search is defined and decides
whether the bytes occur. -/
theorem contains_spec (whole : size ≤ bytes.length) (pattern : List UInt8) :
    ∃ found, contains (some bytes) size (some pattern) pattern.length = some found ∧
      (found = true ↔ pattern ≠ [] ∧ pattern <:+: bytes.take size) := by
  have length : (bytes.take size).length = size := by
    rw [List.length_take, Nat.min_eq_left whole]
  by_cases trivial : pattern.length = 0 ∨ pattern.length > size
  · refine ⟨false, if_pos trivial, iff_of_false (by decide) ?_⟩
    rintro ⟨nonempty, occurs⟩
    rcases trivial with empty | long
    · exact nonempty (List.eq_nil_of_length_eq_zero empty)
    · have := occurs.length_le
      omega
  · obtain ⟨found, ran, spec⟩ := @foundFrom_spec bytes pattern size whole 0
    refine ⟨found, by rw [contains, if_neg trivial, ran], ?_⟩
    rw [spec, List.infix_iff_getElem?]
    constructor
    · rintro ⟨k, _, inside, same⟩
      refine ⟨fun empty => trivial (.inl (by rw [empty]; rfl)), k, by omega, ?_⟩
      intro j small
      rw [List.getElem?_take_of_lt (by omega), Nat.add_comm, same j small,
        List.getElem?_eq_getElem small]
    · rintro ⟨_, k, inside, same⟩
      refine ⟨k, Nat.zero_le k, by omega, ?_⟩
      intro j small
      have here := same j small
      rwa [List.getElem?_take_of_lt (by omega), Nat.add_comm,
        ← List.getElem?_eq_getElem small] at here

end Search

/-- What a test learns about the last packet from the accessors of the sink. -/
theorem ComSink.Captures.contains {t : ComSink} {buffers : List Buffer}
    (h : Captures t buffers) (needle : List UInt8) :
    ∃ found, CmdTlmTest.contains t.getCapturedData t.getCapturedSize (some needle) needle.length =
        some found ∧
      (found = true ↔ needle ≠ [] ∧ needle <:+: lastData buffers) := by
  have bound : t.capturedSize ≤ t.captured.toList.length := by
    have lengths := congrArg List.length h.data
    rw [List.length_take, ← h.size] at lengths
    omega
  obtain ⟨found, ran, spec⟩ := contains_spec bound needle
  rw [h.data] at spec
  by_cases empty : t.capturedSize = 0
  · refine ⟨false, ?_, ?_⟩
    · rw [CmdTlmTest.contains, getCapturedSize, if_pos (by omega)]
    · have none : lastData buffers = [] := List.eq_nil_of_length_eq_zero (h.size ▸ empty)
      rw [none, List.infix_nil]
      exact iff_of_false (by decide) fun both => both.1 both.2
  · refine ⟨found, ?_, spec⟩
    rwa [getCapturedData, if_neg empty, getCapturedSize]

namespace Top

/-- The instances of the topology whose components are in this repository. -/
inductive Instance where
  | target
  | eventSink
  | comSink
  deriving DecidableEq

namespace Instance

abbrev Members : Instance → Type
  | .target => Target
  | .eventSink => EventSink
  | .comSink => ComSink

abbrev Input : Instance → Type
  | .target => Target.Input
  | .eventSink => EventSink.Input
  | .comSink => ComSink.Input

abbrev Note : Instance → Type
  | .target => Target.Note
  | .eventSink | .comSink => Empty

abbrev Port : Instance → Type
  | .target => Target.Port
  | .eventSink => Empty
  | .comSink => ComSink.Port

abbrev Fault : Instance → Type
  | .target | .eventSink => Empty
  | .comSink => ComSink.Fault

/-- The members an instance is constructed with, the sink's on some storage. -/
def constructed (storage : Storage) : ∀ i : Instance, i.Members
  | .target => Target.init
  | .eventSink => EventSink.init
  | .comSink => ComSink.init storage

def component : ∀ i : Instance, Component i.Members i.Input i.Note i.Port i.Fault
  | .target => Target.component
  | .eventSink => EventSink.component
  | .comSink => ComSink.component

theorem component_callsLast : ∀ i : Instance, i.component.CallsLast
  | .target => Target.component_callsLast
  | .eventSink => EventSink.component_callsLast
  | .comSink => ComSink.component_callsLast

end Instance

abbrev Entry := Σ i : Instance, i.Input

abbrev Situation := Board Instance.Members Instance.Input Instance.Note Instance.Port Instance.Fault

def board : Component (∀ i : Instance, i.Members) Entry (Σ i : Instance, i.Note)
    (Σ i : Instance, i.Port) (Σ i : Instance, i.Fault) :=
  Component.family Instance.component

def execute (storage : Storage) (calls : List (Call Entry)) : Situation :=
  board.runAll calls (.start (Instance.constructed storage))

theorem kept_on_board (storage : Storage) {i : Instance}
    {I : World i.Members i.Input i.Note i.Port i.Fault → Prop} (h : i.component.Invariant I)
    (initial : I (.start (i.constructed storage))) (calls : List (Call Entry)) :
    I ((execute storage calls).at i) :=
  h.family.runAll (Component.callsLast_family Instance.component_callsLast) calls initial

/-- Only the sink can stop the topology. -/
theorem onlyAt_comSink (w : Situation) : w.OnlyAt .comSink := by
  rintro ⟨i, fault⟩ _
  cases i with
  | comSink => rfl
  | _ => cases fault

/-- In every run of the topology, with entries to all three components interleaved and
nested: `Target` holds the last value commanded and the number of commands modulo 2^32, and
has published each value on both channels and answered each command once, in order;
`EventSink` holds the last event since the last reset and their number. -/
theorem commands_recorded (storage : Storage) (calls : List (Call Entry)) :
    let board := execute storage calls
    let commands := Log.entries (board.at .target).log
    let events := EventSink.events (Log.entries (board.at .eventSink).log)
    (Target.getValue (board.state .target) = (commands.getLast?.map Target.Input.value).getD 0 ∧
      Target.getSetCount (board.state .target) = UInt32.ofNat commands.length ∧
      Log.outputs (board.at .target).log = commands.flatMap Target.respond) ∧
    EventSink.getLastEventId (board.state .eventSink) = events.getLast?.getD 0 ∧
      EventSink.getEventCount (board.state .eventSink) = UInt32.ofNat events.length := by
  have target := kept_on_board storage (i := .target)
    (Target.component.serves Target.init) rfl calls
  have eventSink := kept_on_board storage (i := .eventSink)
    (EventSink.component.serves EventSink.init) rfl calls
  rw [Target.run_eq, Prod.mk.injEq] at target
  rw [EventSink.run_eq, Prod.mk.injEq] at eventSink
  have members : Target.after _ = (execute storage calls).state .target := target.1
  have recorded : EventSink.after _ = (execute storage calls).state .eventSink := eventSink.1
  refine ⟨⟨?_, ?_, target.2.symm⟩, ?_, ?_⟩
  · exact congrArg Target.value members.symm
  · exact congrArg Target.setCount members.symm
  · exact congrArg EventSink.lastEventId recorded.symm
  · exact congrArg EventSink.eventCount recorded.symm

/-- Every run of the topology stops exactly at a packet that is longer than the framer's
buffer. As long as it has not stopped, each packet sent has gone back to its owner and
each `ready` on to the framer, once and in order; the sink holds the last packet since the
last reset and their number; and the search for any bytes in what it captured reads
nothing outside the storage and finds them exactly if that packet has them. -/
theorem packets_captured (storage : Storage) (calls : List (Call Entry)) :
    let board := execute storage calls
    let entries := Log.entries (board.at .comSink).log
    let sink : ComSink := board.state .comSink
    (board.fault = none ↔ ∀ m ∈ entries, ComSink.Input.Fits m) ∧
    (board.fault = none →
      Log.outputs (board.at .comSink).log = entries.filterMap ComSink.respond ∧
      sink.getSendCount = UInt32.ofNat (ComSink.sent entries).length ∧
      sink.getCapturedSize = (ComSink.lastData (ComSink.sent entries)).length ∧
      ∀ needle, ∃ found,
        contains sink.getCapturedData sink.getCapturedSize (some needle) needle.length =
          some found ∧
        (found = true ↔ needle ≠ [] ∧ needle <:+: ComSink.lastData (ComSink.sent entries))) := by
  have served := kept_on_board storage (i := .comSink)
    (ComSink.component.serves (ComSink.init storage)) rfl calls
  have stopped : World.fault (World.at (execute storage calls) .comSink) = none ↔
      ∀ m ∈ Log.entries (World.at (execute storage calls) .comSink).log,
        ComSink.Input.Fits m :=
    kept_on_board storage (i := .comSink)
      (ComSink.component.stopped_by fun m t => ComSink.turn_fault t m)
      (iff_of_true rfl (List.forall_mem_nil _)) calls
  rw [← World.running_iff (onlyAt_comSink _)] at stopped
  refine ⟨stopped, ?_⟩
  intro running
  obtain ⟨captures, outputs⟩ := ComSink.run_eq storage (stopped.mp running)
  rw [served] at captures outputs
  have captures : ComSink.Captures ((execute storage calls).state .comSink) _ := captures
  exact ⟨outputs, captures.count, captures.size, captures.contains⟩

end Top
end CmdTlmTest
