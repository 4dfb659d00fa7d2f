import SamdReference.I2cTester.Telemetry

/-!
# Completions nobody waits for

The check for an active transaction comes last on the completion path, after the
helpers that count and report. A completion that finds the component idle therefore
moves nothing but a counter, and always moves that.
-/

namespace CuriosityReference.I2cTester

open Reentrant (Call)

/-- The events that report the end of a transaction. -/
def Event.endsTransaction : Event → Bool
  | .i2cError _ _ _ | .shortRead _ _ | .readComplete _ _ _ _ | .writeComplete _ _ => true
  | .busy _ _ | .invalidConfig _ => false

/-- An idle component stays idle and answers nobody; settings, the pending reply and
the buffers stay as they are. -/
structure Untouched (t : I2cTester) (e : Effect) : Prop where
  idle : e.state.state = .idle
  unanswered : e.exit = none
  running : e.fault = none
  settings : e.state.configLoaded = t.configLoaded ∧ e.state.polling = t.polling ∧
    ∀ channel, e.state.setting channel = t.setting channel
  pending : e.state.pendingOpCode = t.pendingOpCode ∧
    e.state.pendingCmdSeq = t.pendingCmdSeq ∧ e.state.writeValue = t.writeValue
  buffers : e.state.writeBuffer = t.writeBuffer ∧ e.state.readBuffer = t.readBuffer

/-- Moreover no transaction is accounted for. -/
structure NoOp (t : I2cTester) (e : Effect) : Prop extends Untouched t e where
  uncounted : ∀ c, c ≠ .busyRejects → e.state.counter c = t.counter c
  unreported : ∀ event, .event event ∈ e.notes → event.endsTransaction = false

section Idle

variable {ports : Ports} {t : I2cTester} {m : Input} {e : Effect}

theorem finished_of_idle (idle : t.state = .idle) : t.finished = t := by
  rw [finished, ← idle]

theorem reply_of_idle (idle : t.state = .idle) (success : Bool) :
    t.reply success = none := by
  simp [reply, idle]

theorem untouched_of_bump (idle : t.state = .idle) {c : Counter}
    (state : e.state = t.bump c) (unanswered : e.exit = none) (running : e.fault = none) :
    Untouched t e where
  idle := by rw [state, bump_state, idle]
  unanswered := unanswered
  running := running
  settings := by
    rw [state]
    refine ⟨bump_configLoaded t c, bump_polling t c, ?_⟩
    intro channel
    cases channel <;> simp [setting]
  pending := by
    rw [state]
    exact ⟨bump_pendingOpCode t c, bump_pendingCmdSeq t c, bump_writeValue t c⟩
  buffers := by
    rw [state]
    exact ⟨bump_writeBuffer t c, bump_readBuffer t c⟩

/-- A completion that finds the component idle increments one counter and emits the
event that goes with it. -/
theorem TurnCase.unsolicited (turn : TurnCase ports t m e) (idle : t.state = .idle)
    (completion : m.completion?.isSome) (pointer : m.PassesPointer) :
    ∃ c event, c ≠ .busyRejects ∧ e.state = t.bump c ∧ e.exit = none ∧ e.fault = none ∧
      ticks e.notes = [c] ∧ .event event ∈ e.notes ∧ event.endsTransaction = true := by
  have counted : ∀ c, (t.bump c).finished = t.bump c := by
    intro c
    apply finished_of_idle
    rw [bump_state, idle]
  cases turn.of_completion completion with
  | stray fails => exact absurd pointer fails
  | @failed _ tx status _ _ error =>
      refine ⟨errorCounter status, .i2cError status t.i2cAddress (recoverRegOffset t tx), ?_,
        counted _, reply_of_idle idle _, rfl, ?_, by simp, rfl⟩
      · cases status <;> simp [errorCounter]
      · simp [ticks, errorCounter_event error]
  | @shortRead tx rx =>
      exact ⟨.shortReads, .shortRead t.readLength (UInt8.ofNat rx.size), by decide, counted _,
        reply_of_idle idle _, rfl, rfl, by simp, rfl⟩
  | @readDone tx rx words =>
      exact ⟨.txnCount, .readComplete (recoverRegOffset t tx) t.readLength (words.get 0)
        (words.get 1), by decide, counted _, reply_of_idle idle _, rfl, rfl, by simp, rfl⟩
  | @writeDone buffer =>
      exact ⟨.txnCount, .writeComplete (recoverRegOffset t buffer) t.writeValue, by decide,
        counted _, reply_of_idle idle _, rfl, rfl, by simp, rfl⟩

end Idle

/-- In every run, in any environment, a completion that finds the component idle and
passes the receive-pointer assertion is never a no-op: it leaves the component idle,
unanswered and with its settings, pending reply and buffers, but it increments exactly
one transaction counter, whose event it emits. -/
theorem unsolicited_completion_counted {ports : Ports} {calls : List (Call Input)}
    {pre post : History} {m : Input} {t : I2cTester}
    (split : (execute ports calls).log = pre ++ .recv m t :: post) (idle : t.state = .idle)
    (completion : m.completion?.isSome) (pointer : m.PassesPointer) :
    ¬NoOp t ((component ports).turn m t) ∧ Untouched t ((component ports).turn m t) ∧
      Reentrant.Log.ownOutputs post = ((component ports).turn m t).outputs ∧
      ∃ c event, c ≠ .busyRejects ∧ ((component ports).turn m t).state = t.bump c ∧
        ticks ((component ports).turn m t).notes = [c] ∧
        .event event ∈ ((component ports).turn m t).notes ∧
        event.endsTransaction = true := by
  obtain ⟨_, e, turn, rfl, own⟩ := entry_turn split
  obtain ⟨c, event, counts, state, unanswered, running, ticked, reported, ends⟩ :=
    turn.unsolicited idle completion pointer
  refine ⟨?_, untouched_of_bump idle state unanswered running, own,
    c, event, counts, state, ticked, reported, ends⟩
  intro noOp
  have quiet := noOp.unreported event reported
  rw [ends] at quiet
  cases quiet

/-- One write and its completion delivered twice. -/
def completedTwice : List (Call Input) :=
  [.mk (.configure 0x50 0x10 4) [],
    .mk (.command 1 7 (.writeOnce 0xAA)) [],
    .mk (.writeCompleteIn (txBuf 2) .ok) [],
    .mk (.writeCompleteIn (txBuf 2) .ok) []]

/-- The situation the second completion finds. -/
def onceCompleted : Situation := execute ⟨true, true⟩ (completedTwice.take 3)

theorem completedTwice_split :
    (execute ⟨true, true⟩ completedTwice).log =
      onceCompleted.log ++ .recv (.writeCompleteIn (txBuf 2) .ok) onceCompleted.state ::
        (execute ⟨true, true⟩ completedTwice).log.drop (onceCompleted.log.length + 1) := by
  decide

theorem unsolicited_completion_counted_twice :
    Untouched onceCompleted.state
      ((component ⟨true, true⟩).turn (.writeCompleteIn (txBuf 2) .ok) onceCompleted.state) :=
  (unsolicited_completion_counted completedTwice_split (by decide) rfl trivial).2.1

/-- One transaction is counted as two. -/
theorem unsolicited_completion_not_ignored :
    ¬∀ (ports : Ports) (calls : List (Call Input)) (pre post : History) (m : Input)
      (t : I2cTester), (execute ports calls).log = pre ++ .recv m t :: post →
      t.state = .idle → m.completion?.isSome → m.PassesPointer →
      NoOp t ((component ports).turn m t) := by
  intro all
  have noOp := all _ _ _ _ _ _ completedTwice_split (by decide) rfl trivial
  exact absurd (noOp.uncounted .txnCount (by decide)) (by decide)

end CuriosityReference.I2cTester
