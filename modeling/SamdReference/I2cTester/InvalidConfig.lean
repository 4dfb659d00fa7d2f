import SamdReference.I2cTester.Telemetry

/-!
# What `InvalidConfig` stands for

The event is defined as the report of an argument out of its range. Range checks emit
it with that argument; two command handlers also emit it for a component that is not
configured, and then the value is the address in force, which is in range.
-/

namespace CuriosityReference.I2cTester

open Reentrant (Call)

/-- The arguments of an entry that lie outside their legal range. -/
def outOfRange : Input → List UInt8
  | .configure addr _ len => [addr].filter (¬LegalAddress ·) ++ [len].filter (¬LegalLength ·)
  | .command _ _ (.setAddress addr) => [addr].filter (¬LegalAddress ·)
  | .command _ _ (.setRegister _ len) => [len].filter (¬LegalLength ·)
  | _ => []

/-- The values reported as rejected. -/
def rejectedValues (notes : List Note) : List UInt8 :=
  notes.filterMap fun
    | .event (.invalidConfig value) => some value
    | _ => none

/-- The entry is a command that asks for a transaction. -/
def Input.requests : Input → Bool
  | .command _ _ .readOnce | .command _ _ (.writeOnce _) => true
  | _ => false

/-- `InvalidConfig` is emitted exactly for an argument out of range: once, with such an
argument, and no setting is changed. -/
structure Sound (t : I2cTester) (m : Input) (e : Effect) : Prop where
  emitted : rejectedValues e.notes ≠ [] ↔ outOfRange m ≠ []
  once : (rejectedValues e.notes).length ≤ 1
  value : ∀ v ∈ rejectedValues e.notes, v ∈ outOfRange m
  unchanged : outOfRange m ≠ [] → e.state.configLoaded = t.configLoaded ∧
    e.state.polling = t.polling ∧ ∀ channel, e.state.setting channel = t.setting channel

section Entry

variable {ports : Ports} {t : I2cTester} {m : Input} {e : Effect}

@[simp] theorem rejectedValues_append (a b : List Note) :
    rejectedValues (a ++ b) = rejectedValues a ++ rejectedValues b :=
  List.filterMap_append

@[simp] theorem rejectedValues_preparing (op : State) : rejectedValues (preparing op) = [] := by
  cases op <;> rfl

/-- An entry is refused for an argument out of range or, if it is a request, for a
missing configuration. -/
theorem refusal_cases {value : UInt8} {response : CmdResponse}
    (refusal : t.refusal? m = some (value, response)) :
    (value ∈ outOfRange m ∧ m.requests = false) ∨
      (m.requests = true ∧ t.configLoaded = false ∧ value = t.i2cAddress) := by
  cases m with
  | configure addr reg len =>
      by_cases address : LegalAddress addr
      · by_cases length : LegalLength len
        · simp [refusal?, address, length] at refusal
        · simp only [refusal?, address, not_true_eq_false, length, not_false_eq_true, if_true,
            if_false, Option.some.injEq, Prod.mk.injEq] at refusal
          obtain ⟨rfl, _⟩ := refusal
          exact .inl ⟨by simp [outOfRange, length], rfl⟩
      · simp only [refusal?, address, not_false_eq_true, if_true, Option.some.injEq,
          Prod.mk.injEq] at refusal
        obtain ⟨rfl, _⟩ := refusal
        exact .inl ⟨by simp [outOfRange, address], rfl⟩
  | command opCode cmdSeq cmd =>
      cases cmd with
      | setAddress addr =>
          simp only [refusal?, Option.ite_none_right_eq_some, Option.some.injEq,
            Prod.mk.injEq] at refusal
          obtain ⟨illegal, rfl, _⟩ := refusal
          exact .inl ⟨by simp [outOfRange, illegal], rfl⟩
      | setRegister reg len =>
          simp only [refusal?, Option.ite_none_right_eq_some, Option.some.injEq,
            Prod.mk.injEq] at refusal
          obtain ⟨illegal, rfl, _⟩ := refusal
          exact .inl ⟨by simp [outOfRange, illegal], rfl⟩
      | readOnce =>
          simp only [refusal?, Option.ite_none_left_eq_some, Bool.not_eq_true,
            Option.some.injEq, Prod.mk.injEq] at refusal
          exact .inr ⟨rfl, refusal.1, refusal.2.1.symm⟩
      | writeOnce value =>
          simp only [refusal?, Option.ite_none_left_eq_some, Bool.not_eq_true,
            Option.some.injEq, Prod.mk.injEq] at refusal
          exact .inr ⟨rfl, refusal.1, refusal.2.1.symm⟩
      | setPolling enable => cases refusal
  | _ => cases refusal

theorem outOfRange_of_requests (request : m.requests = true) : outOfRange m = [] := by
  cases m with
  | command opCode cmdSeq cmd =>
      cases cmd with
      | readOnce => rfl
      | writeOnce value => rfl
      | _ => cases request
  | _ => cases request

/-- A request to an unconfigured component is refused with the address in force. -/
theorem refusal_of_unconfigured (request : m.requests = true)
    (unconfigured : t.configLoaded = false) :
    t.refusal? m = some (t.i2cAddress, .executionError) := by
  cases m with
  | command opCode cmdSeq cmd =>
      cases cmd with
      | readOnce => simp [refusal?, unconfigured]
      | writeOnce value => simp [refusal?, unconfigured]
      | _ => cases request
  | _ => cases request

/-- An entry that is not refused has no argument out of range. -/
theorem outOfRange_of_accepted (accepted : t.refusal? m = none) : outOfRange m = [] := by
  cases m with
  | configure addr reg len =>
      have address : LegalAddress addr := by
        by_contra illegal
        simp [refusal?, illegal] at accepted
      have length : LegalLength len := by
        by_contra illegal
        simp [refusal?, address, illegal] at accepted
      simp [outOfRange, address, length]
  | command opCode cmdSeq cmd =>
      cases cmd with
      | setAddress addr =>
          have address : LegalAddress addr := by
            by_contra illegal
            simp [refusal?, illegal] at accepted
          simp [outOfRange, address]
      | setRegister reg len =>
          have length : LegalLength len := by
            by_contra illegal
            simp [refusal?, illegal] at accepted
          simp [outOfRange, length]
      | _ => rfl
  | _ => rfl

theorem TurnCase.rejects_nothing (turn : TurnCase ports t m e)
    (accepted : t.refusal? m = none) : rejectedValues e.notes = [] := by
  cases turn with
  | refused refusal => simp [accepted] at refusal
  | issued => exact rejectedValues_preparing _
  | unwired =>
      rw [rejectedValues_append, rejectedValues_preparing]
      rfl
  | _ => rfl

/-- Only a request to an unconfigured component misuses the event. -/
theorem TurnCase.sound_iff (turn : TurnCase ports t m e) :
    Sound t m e ↔ ¬(m.requests = true ∧ t.configLoaded = false) := by
  cases refusal : t.refusal? m with
  | none =>
      have quiet := turn.rejects_nothing refusal
      have inside := outOfRange_of_accepted refusal
      refine iff_of_true ⟨?_, ?_, ?_, ?_⟩ ?_
      · simp [quiet, inside]
      · simp [quiet]
      · simp [quiet]
      · exact fun outside => absurd inside outside
      · rintro ⟨request, unconfigured⟩
        simp [refusal_of_unconfigured request unconfigured] at refusal
  | some found =>
      obtain ⟨value, response⟩ := found
      obtain rfl := turn.of_refusal refusal
      rcases refusal_cases refusal with ⟨outside, other⟩ | ⟨request, unconfigured, rfl⟩
      · refine iff_of_true ⟨?_, ?_, ?_, ?_⟩ (by simp [other])
        · exact iff_of_true (by simp [rejectedValues]) (List.ne_nil_of_mem outside)
        · simp [rejectedValues]
        · simpa [rejectedValues] using outside
        · exact fun _ => ⟨rfl, rfl, fun _ => rfl⟩
      · refine iff_of_false ?_ (not_not.mpr ⟨request, unconfigured⟩)
        intro sound
        exact sound.emitted.mp (by simp [rejectedValues]) (outOfRange_of_requests request)

/-- A request to an unconfigured component reports the address in force. -/
theorem TurnCase.rejects_address (turn : TurnCase ports t m e) (request : m.requests = true)
    (unconfigured : t.configLoaded = false) : rejectedValues e.notes = [t.i2cAddress] := by
  obtain rfl := turn.of_refusal (refusal_of_unconfigured request unconfigured)
  rfl

end Entry

/-- In every run, in any environment, an entry emits `InvalidConfig` as defined if and
only if it is not a `READ_ONCE` or `WRITE_ONCE` to an unconfigured component. Such a
request reports the address in force as rejected, and that address is legal. -/
theorem invalid_config_iff {ports : Ports} {calls : List (Call Input)} {pre post : History}
    {m : Input} {t : I2cTester}
    (split : (execute ports calls).log = pre ++ .recv m t :: post) :
    Reentrant.Log.ownOutputs post = ((component ports).turn m t).outputs ∧
      (Sound t m ((component ports).turn m t) ↔
        ¬(m.requests = true ∧ t.configLoaded = false)) ∧
      (m.requests = true → t.configLoaded = false →
        rejectedValues ((component ports).turn m t).notes = [t.i2cAddress] ∧
          LegalAddress t.i2cAddress) := by
  obtain ⟨legal, e, turn, rfl, own⟩ := entry_turn split
  refine ⟨own, turn.sound_iff, ?_⟩
  intro request unconfigured
  exact ⟨turn.rejects_address request unconfigured, legal.address⟩

theorem readUnconfigured_split :
    (execute ⟨true, true⟩ [.mk (.command 1 7 .readOnce) []]).log =
      [] ++ .recv (.command 1 7 .readOnce) init ::
        [.out (.event (.invalidConfig 0x08)), .call (.cmdResponse 1 7 .executionError) init,
          .back (.cmdResponse 1 7 .executionError)] := by
  decide

theorem invalid_config_iff_unconfigured :
    rejectedValues ((component ⟨true, true⟩).turn (.command 1 7 .readOnce) init).notes = [0x08] ∧
      LegalAddress 0x08 :=
  (invalid_config_iff readUnconfigured_split).2.2 rfl rfl

/-- A read before `configure` reports the legal default address as out of range. -/
theorem invalid_config_not_sound :
    ¬∀ (ports : Ports) (calls : List (Call Input)) (pre post : History) (m : Input)
      (t : I2cTester), (execute ports calls).log = pre ++ .recv m t :: post →
      Sound t m ((component ports).turn m t) := by
  intro all
  have sound := all _ _ _ _ _ _ readUnconfigured_split
  exact sound.emitted.mp (by decide) rfl

end CuriosityReference.I2cTester
