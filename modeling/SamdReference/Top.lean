import SamdReference.FrameworkHealth
import SamdReference.Gpio
import SamdReference.I2cTester.InvalidConfig
import SamdReference.I2cTester.Replies
import SamdReference.I2cTester.Requests

/-!
# The reference deployment

The topology runs four instances of this repository's components on one board, all
passive, on the stacks of the framework's drivers and dispatchers, which are the
environment here. They enter one after the other or inside each other's calls; the
interrupt of the input pin, which can pre-empt a handler anywhere else, is only modelled
where it does not. `startTasks` configures the I2C tester before the main loop starts.
-/

namespace CuriosityReference.Top

open Reentrant (Component Ledger Board Call Log Obs World Turns)

/-- The instances of the topology whose components are in this repository. -/
inductive Instance where
  | fwHealth
  | pinIn
  | pinOut
  | i2cTester
  deriving DecidableEq

namespace Instance

instance : Fintype Instance where
  elems := {.fwHealth, .pinIn, .pinOut, .i2cTester}
  complete := by
    intro i
    cases i <;> simp

abbrev Members : Instance → Type
  | .fwHealth => FrameworkHealth
  | .pinIn | .pinOut => Unit
  | .i2cTester => I2cTester

abbrev Input : Instance → Type
  | .fwHealth => FrameworkHealth.Input
  | .pinIn => GpioIn.Input
  | .pinOut => GpioOut.Input
  | .i2cTester => I2cTester.Input

abbrev Note : Instance → Type
  | .fwHealth => FrameworkHealth.Note
  | .pinIn => GpioIn.Note
  | .pinOut => GpioOut.Note
  | .i2cTester => I2cTester.Note

abbrev Port : Instance → Type
  | .fwHealth => FrameworkHealth.Port
  | .pinIn => GpioIn.Port
  | .pinOut => GpioOut.Port
  | .i2cTester => I2cTester.Port

abbrev Fault : Instance → Type
  | .fwHealth | .pinIn | .pinOut => Empty
  | .i2cTester => I2cTester.Fault

/-- The members an instance is constructed with. -/
def constructed : ∀ i : Instance, i.Members
  | .fwHealth => FrameworkHealth.init
  | .pinIn | .pinOut => ()
  | .i2cTester => I2cTester.init

/-- The component of an instance. Both request ports of the tester are connected. -/
def component : ∀ i : Instance, Component i.Members i.Input i.Note i.Port i.Fault
  | .fwHealth => FrameworkHealth.component
  | .pinIn => GpioIn.component
  | .pinOut => GpioOut.component
  | .i2cTester => I2cTester.component ⟨true, true⟩

theorem component_callsLast : ∀ i : Instance, i.component.CallsLast
  | .fwHealth => FrameworkHealth.component_callsLast
  | .pinIn => GpioIn.component_callsLast
  | .pinOut => GpioOut.component_callsLast
  | .i2cTester => I2cTester.component_callsLast ⟨true, true⟩

/-- Commands and their answers. Only the tester answers later than it is asked. -/
def ledger : ∀ i : Instance, Ledger i.Members i.Input i.Port (UInt32 × UInt32)
  | .fwHealth => FrameworkHealth.ledger
  | .pinIn => GpioIn.ledger
  | .pinOut => GpioOut.ledger
  | .i2cTester => ⟨I2cTester.Input.caller?, I2cTester.Port.answered?, fun t => I2cTester.owed t⟩

end Instance

/-- Everything that can enter the board, by instance. -/
abbrev Entry := Σ i : Instance, i.Input

abbrev Situation := Board Instance.Members Instance.Input Instance.Note Instance.Port Instance.Fault

def board : Component (∀ i : Instance, i.Members) Entry (Σ i : Instance, i.Note)
    (Σ i : Instance, i.Port) (Σ i : Instance, i.Fault) :=
  Component.family Instance.component

/-- `i2cTester.configure(0x50, 0x00, 4)`, the start-up call of the instances here. -/
def startTasks : Entry := ⟨.i2cTester, .configure 0x50 0x00 4⟩

/-- The board after set-up and the given calls. -/
def execute (calls : List (Call Entry)) : Situation :=
  board.runAll (.mk startTasks [] :: calls) (.start Instance.constructed)

theorem board_callsLast : board.CallsLast :=
  Component.callsLast_family Instance.component_callsLast

/-- Only the I2C tester can stop the board. -/
theorem onlyAt_i2cTester (w : Situation) : w.OnlyAt .i2cTester := by
  rintro ⟨i, fault⟩ _
  cases i with
  | i2cTester => rfl
  | _ => cases fault

/-- The tester on the board runs as it does alone. -/
theorem i2cTester_alone (calls : List (Call Entry)) :
    ∃ own, (execute calls).at .i2cTester = I2cTester.execute ⟨true, true⟩ own :=
  Component.family_alone Instance.component_callsLast .i2cTester _ _ (onlyAt_i2cTester _)

/-- In every run of the board, with entries of all instances interleaved and nested in
each other's calls: the tester does what it does alone, the board stops exactly at a
completion with a foreign receive pointer, and as long as it has not stopped every
instance does what it does alone. -/
theorem instances_as_alone (calls : List (Call Entry)) :
    (∃ own, (execute calls).at .i2cTester = I2cTester.execute ⟨true, true⟩ own) ∧
    ((execute calls).fault = none ↔
      ∀ m t, Obs.recv m t ∈ ((execute calls).at .i2cTester).log → m.PassesPointer) ∧
    ((execute calls).fault = none → ∀ i : Instance,
      ∃ own, (execute calls).at i = i.component.runAll own (.start i.constructed)) := by
  refine ⟨i2cTester_alone calls, ?_, ?_⟩
  · obtain ⟨own, alone⟩ := i2cTester_alone calls
    rw [World.running_iff (onlyAt_i2cTester _), alone]
    exact I2cTester.fault_iff ⟨true, true⟩ own
  · intro running i
    exact Component.family_alone Instance.component_callsLast i _ _
      (World.onlyAt_of_running running i)

section Answers

theorem i2cTester_balanced :
    (Instance.ledger .i2cTester).Balanced (Instance.component .i2cTester) I2cTester.Legal where
  kept := by
    intro m t legal
    exact (I2cTester.component_turn ⟨true, true⟩ legal m).legal legal
  turn := by
    intro m t legal
    have turn := I2cTester.component_turn ⟨true, true⟩ legal m
    have answered := Multiset.coe_eq_coe.mpr turn.owed
    rwa [← Multiset.coe_add, ← Multiset.coe_add] at answered

/-- The members an instance is always in. -/
def Instance.Sane : ∀ i : Instance, i.Members → Prop
  | .fwHealth, _ => True
  | .pinIn, _ => True
  | .pinOut, _ => True
  | .i2cTester, t => I2cTester.Legal t

theorem ledger_balanced : ∀ i : Instance, i.ledger.Balanced i.component i.Sane
  | .fwHealth => FrameworkHealth.ledger_balanced
  | .pinIn => GpioIn.ledger_balanced
  | .pinOut => GpioOut.ledger_balanced
  | .i2cTester => i2cTester_balanced

/-- Only the tester owes answers. -/
theorem owed_eq (s : ∀ i : Instance, i.Members) :
    (Ledger.family Instance.ledger).owed s =
      (I2cTester.owed (s .i2cTester) : Multiset (UInt32 × UInt32)).map
        (Instance.i2cTester, ·) := by
  change ∑ i : Instance, (i.ledger.owed (s i)).map (i, ·) = _
  refine Finset.sum_eq_single Instance.i2cTester ?_ ?_
  · intro i _ other
    cases i with
    | i2cTester => exact absurd rfl other
    | _ => rfl
  · intro absent
    exact absurd (Finset.mem_univ _) absent

/-- In every run of the board each command to any instance is answered once, by that
instance and with its own opcode and sequence number: the commands received are the
answers given and the one the tester still owes while a command transaction is active. -/
theorem one_answer_each (calls : List (Call Entry)) :
    ((Ledger.family Instance.ledger).requests (execute calls).log :
        Multiset (Instance × UInt32 × UInt32)) =
      ((Ledger.family Instance.ledger).answers (execute calls).log :
        Multiset (Instance × UInt32 × UInt32)) +
      (I2cTester.owed ((execute calls).state .i2cTester) : Multiset (UInt32 × UInt32)).map
        (Instance.i2cTester, ·) := by
  have sane : ∀ i : Instance, i.Sane i.constructed := by
    intro i
    cases i with
    | i2cTester => exact I2cTester.init_legal
    | _ => trivial
  obtain ⟨_, balanced⟩ := (Ledger.Balanced.family ledger_balanced).runAll board_callsLast sane
    (owed_eq Instance.constructed) (.mk startTasks [] :: calls)
  rw [owed_eq] at balanced
  exact balanced

end Answers

section Downlink

/-- An invariant of one instance alone holds of it on the board. -/
theorem kept_on_board {i : Instance}
    {I : World i.Members i.Input i.Note i.Port i.Fault → Prop}
    (h : i.component.Invariant I) (initial : I (.start i.constructed)) (calls : List (Call Entry)) :
    I ((execute calls).at i) :=
  h.family.runAll board_callsLast (.mk startTasks [] :: calls) initial

/-- In every run of the board the counter samples are 0, 1, 2 and so on modulo 2^32, one
for each tick that arrived while the downlink said emission is on. -/
theorem heartbeat_numbered (calls : List (Call Entry)) :
    let log := ((execute calls).at .fwHealth).log
    FrameworkHealth.samples log =
      (List.range (FrameworkHealth.observed log).2).map UInt32.ofNat ∧
    ((execute calls).state .fwHealth).running = (FrameworkHealth.observed log).1 ∧
    ((execute calls).state .fwHealth).counter =
      UInt32.ofNat (FrameworkHealth.observed log).2 := by
  have numbered := kept_on_board (i := .fwHealth) FrameworkHealth.numbered_invariant
    FrameworkHealth.numbered_start calls
  exact ⟨numbered.published, numbered.emission, numbered.counted⟩

end Downlink

section Configured

/-- The first entry of the tester on the board. -/
def setUp : I2cTester.Input := .configure 0x50 0x00 4

/-- The tester on the board once it is set up. -/
structure SetUp (w : World I2cTester I2cTester.Input I2cTester.Note I2cTester.Port
    I2cTester.Fault) : Prop where
  legal : I2cTester.Legal w.state
  configured : w.state.configLoaded = true
  first : w.log.head? = some (.recv setUp I2cTester.init)

theorem setUp_invariant (ports : I2cTester.Ports) :
    (I2cTester.component ports).Invariant SetUp where
  step := by
    intro w _ holds m
    have turn := I2cTester.component_turn ports holds.legal m
    refine ⟨turn.legal holds.legal, turn.stays_configured holds.configured, ?_⟩
    simp [Component.step, holds.first]
  back := by
    intro w _ holds o
    refine ⟨holds.legal, holds.configured, ?_⟩
    simp [holds.first]

/-- Set-up is the first turn of the tester. -/
theorem run_startTasks :
    (board.run (.mk startTasks []) (.start Instance.constructed)).at .i2cTester =
      (I2cTester.component ⟨true, true⟩).step setUp (.start I2cTester.init) := by
  have quiet : (board.turn startTasks Instance.constructed).exit = none := rfl
  have run : board.run (.mk startTasks []) (.start Instance.constructed) =
      board.step startTasks (.start Instance.constructed) := by
    rw [Component.run_mk board_callsLast startTasks [] rfl]
    simp only [World.start, quiet]
  rw [run]
  exact Component.step_at_self Instance.i2cTester _ _

/-- Every entry of the tester on the board finds it configured, but for the first. -/
theorem set_up (calls : List (Call Entry)) :
    SetUp ((execute calls).at .i2cTester) ∧
      Turns (I2cTester.component ⟨true, true⟩)
        (fun w => I2cTester.Legal w.state ∧ (w.state.configLoaded = true ∨ w.log = []))
        ((execute calls).at .i2cTester).log := by
  have kept := (setUp_invariant ⟨true, true⟩).with_turns
    (K := fun w => I2cTester.Legal w.state ∧ (w.state.configLoaded = true ∨ w.log = []))
    fun holds => ⟨holds.legal, .inl holds.configured⟩
  have board : board.Invariant _ := kept.family (C := Instance.component) (i := .i2cTester)
  refine board.runAll board_callsLast calls ?_
  rw [run_startTasks]
  have legal : I2cTester.Legal I2cTester.init := I2cTester.init_legal
  have turn := I2cTester.component_turn ⟨true, true⟩ legal setUp
  exact ⟨⟨turn.legal legal, rfl, rfl⟩, .turn .nil ⟨legal, .inr rfl⟩⟩

/-- The deployment configures the tester before the main loop, and on the board
`InvalidConfig` therefore means what it is defined as: in every run an entry of the
tester emits it exactly for an argument out of its range, once, with such an argument,
and leaving the settings alone. -/
theorem invalid_config_sound {calls : List (Call Entry)} {pre post : I2cTester.History}
    {m : I2cTester.Input} {t : I2cTester}
    (split : ((execute calls).at .i2cTester).log = pre ++ .recv m t :: post) :
    Log.ownOutputs post = ((I2cTester.component ⟨true, true⟩).turn m t).outputs ∧
      I2cTester.Sound t m ((I2cTester.component ⟨true, true⟩).turn m t) := by
  obtain ⟨prepared, turns⟩ := set_up calls
  obtain ⟨⟨legal, found⟩, _⟩ := turns.recv_split split
  have turn := I2cTester.component_turn ⟨true, true⟩ legal m
  refine ⟨turns.ownOutputs_eq split, turn.sound_iff.mpr ?_⟩
  rintro ⟨request, unconfigured⟩
  rcases found with configured | rfl
  · exact Bool.noConfusion (configured.symm.trans unconfigured)
  · have first := prepared.first
    rw [split] at first
    obtain ⟨rfl, _⟩ : m = setUp ∧ t = I2cTester.init := by simpa using first
    cases request

/-- The members `startTasks` leaves. -/
def ready : I2cTester := ((I2cTester.component ⟨true, true⟩).turn setUp I2cTester.init).state

/-- A command with a reserved address, the first after set-up. -/
theorem setAddress_split :
    ((execute [.mk ⟨.i2cTester, .command 1 7 (.setAddress 0x78)⟩ []]).at .i2cTester).log =
      ((I2cTester.component ⟨true, true⟩).step setUp (.start I2cTester.init)).log ++
        .recv (.command 1 7 (.setAddress 0x78)) ready ::
          [.out (.event (.invalidConfig 0x78)), .call (.cmdResponse 1 7 .validationError) ready,
            .back (.cmdResponse 1 7 .validationError)] := by
  decide

theorem invalid_config_sound_setAddress :
    I2cTester.rejectedValues ((I2cTester.component ⟨true, true⟩).turn
      (.command 1 7 (.setAddress 0x78)) ready).notes ≠ [] :=
  (invalid_config_sound setAddress_split).2.emitted.mpr (by decide)

end Configured

end CuriosityReference.Top
