import Mathlib.Data.Multiset.AddSub
import SamdReference.I2cTester.Runs

/-!
# One response for each command

A response is either sent by the handler of its command or stored in the two
pending members until a completion sends it. The stored one is owed exactly while
a command transaction is active, so the commands received are at all times the
responses sent and the one owed.
-/

namespace CuriosityReference.I2cTester

open Reentrant (Call Obs)

/-- Opcode and sequence number of an entry that is a command. -/
def received? : Obs I2cTester Input Note Port → Option (UInt32 × UInt32)
  | .recv m _ => m.caller?
  | _ => none

/-- Opcode and sequence number of a response. -/
def Port.answered? : Port → Option (UInt32 × UInt32)
  | .cmdResponse opCode cmdSeq _ => some (opCode, cmdSeq)
  | _ => none

def sent? : Obs I2cTester Input Note Port → Option (UInt32 × UInt32)
  | .call o _ => o.answered?
  | _ => none

/-- The commands received, in order. -/
def commands (log : History) : List (UInt32 × UInt32) := log.filterMap received?

/-- The responses sent, in order. -/
def responses (log : History) : List (UInt32 × UInt32) := log.filterMap sent?

/-- The response still owed: one exactly while a command transaction is active. -/
def owed (t : I2cTester) : List (UInt32 × UInt32) :=
  match t.state with
  | .readCmd | .writeCmd => [(t.pendingOpCode, t.pendingCmdSeq)]
  | .readSched | .idle => []

section Projections

theorem commands_turn (log : History) (m : Input) (t : I2cTester) (e : Effect) :
    commands (log ++ .recv m t :: e.log) = commands log ++ m.caller?.toList :=
  Reentrant.Log.filterMap_turn (fun _ => rfl) (fun _ _ => rfl) log m t e

theorem responses_turn (log : History) (m : Input) (t : I2cTester) (e : Effect) :
    responses (log ++ .recv m t :: e.log) =
      responses log ++ (e.exit.bind Port.answered?).toList := by
  have notes : (e.notes.map (.out : Note → Obs I2cTester Input Note Port)).filterMap sent? =
      [] := by
    rw [List.filterMap_map, List.filterMap_eq_nil_iff]
    intro o _
    rfl
  rw [responses, List.filterMap_append, List.filterMap_cons, Reentrant.Turn.log,
    List.filterMap_append, notes]
  cases h : e.exit with
  | none => simp [sent?, responses]
  | some o => cases answer : o.answered? <;> simp [sent?, answer, responses]

theorem commands_back (log : History) (o : Port) :
    commands (log ++ [.back o]) = commands log := by
  simp [commands, received?]

theorem responses_back (log : History) (o : Port) :
    responses (log ++ [.back o]) = responses log := by
  simp [responses, sent?]

end Projections

section Owed

variable (t : I2cTester)

@[simp] theorem answered_answer (m : Input) (response : CmdResponse) :
    (m.answer response).bind Port.answered? = m.caller? := by
  cases h : m.caller? <;> simp [Input.answer, h, Port.answered?]

@[simp] theorem answered_reply (success : Bool) :
    ((t.reply success).bind Port.answered?).toList = owed t := by
  cases h : t.state <;> simp [reply, owed, h, Port.answered?]

@[simp] theorem owed_finished : owed t.finished = [] := rfl

@[simp] theorem owed_bump (c : Counter) : owed (t.bump c) = owed t := by
  simp only [owed, bump_state, bump_pendingOpCode, bump_pendingCmdSeq]

theorem owed_of_idle {t : I2cTester} (idle : t.state = .idle) : owed t = [] := by
  simp only [owed, idle]

/-- Claiming the component for a command stores exactly that command. -/
theorem owed_prepared {t : I2cTester} {m : Input} {op : State}
    (attempt : t.attempt? m = some op) : owed (t.prepared m) = m.caller?.toList := by
  obtain ⟨_, ⟨rfl, _⟩ | ⟨_, _, rfl, _⟩ | ⟨_, _, _, rfl, _⟩⟩ := attempt_cases attempt
  · rfl
  · rfl
  · rfl

/-- Requests are not responses. -/
theorem answered_request (op : State) : (t.request op).answered? = none := by
  cases op <;> rfl

theorem owed_settings {t u : I2cTester} {m : Input} (accepted : t.settings? m = some u) :
    owed u = owed t := by
  rw [settings_only accepted]
  rfl

theorem caller_of_completion {m : Input} {tx : Buffer} {status : I2cStatus}
    (completion : m.completion? = some (tx, status)) : m.caller? = none := by
  cases m with
  | command => cases completion
  | _ => rfl

theorem caller_of_stray {m : Input} (stray : ¬m.PassesPointer) : m.caller? = none := by
  cases m with
  | command => exact absurd trivial stray
  | _ => rfl

/-- A turn answers what it received and what was owed, up to what it leaves owed. -/
theorem TurnCase.owed {ports : Ports} {t : I2cTester} {m : Input} {e : Effect}
    (turn : TurnCase ports t m e) :
    (m.caller?.toList ++ owed t).Perm
      ((e.exit.bind Port.answered?).toList ++ owed e.state) := by
  cases turn with
  | inactive => simp [Input.caller?]
  | refused => simp
  | settings accepted => simp [owed_settings accepted]
  | polling => exact .refl _
  | busy => simp
  | issued attempt idle =>
      simp [owed_of_idle idle, owed_prepared attempt, answered_request]
  | unwired attempt idle =>
      simp [owed_of_idle idle, owed_prepared attempt]
  | stray pointer => simp [caller_of_stray pointer]
  | failed completion => simp [caller_of_completion completion]
  | shortRead => simp [Input.caller?]
  | readDone => simp [Input.caller?]
  | writeDone => simp [Input.caller?]
  | storedWrite => exact .refl _
  | storedRead => exact .refl _

end Owed

/-- Every command received is answered or still owed. -/
theorem commands_kept (ports : Ports) :
    Kept ports fun w => (commands w.log).Perm (responses w.log ++ owed w.state) where
  turn := by
    intro t log m e _ holds turn
    rw [commands_turn, responses_turn]
    calc commands log ++ m.caller?.toList
      _ |>.Perm (responses log ++ owed t ++ m.caller?.toList) := holds.append_right _
      _ |>.Perm (responses log ++ (m.caller?.toList ++ owed t)) := by
          rw [List.append_assoc]
          exact List.perm_append_comm.append_left _
      _ |>.Perm (responses log ++ ((e.exit.bind Port.answered?).toList ++ owed e.state)) :=
          turn.owed.append_left _
      _ = responses log ++ (e.exit.bind Port.answered?).toList ++ owed e.state :=
          (List.append_assoc ..).symm
  back := by
    intro t log o holds
    rw [commands_back, responses_back]
    exact holds

/-- Exactly one response for each command, in every run: the commands received are
the responses sent and, while a command transaction is active, the pending one. The
run itself goes on as long as completions pass the receive-pointer assertion. -/
theorem one_response_per_command (ports : Ports) (calls : List (Call Input)) :
    ((execute ports calls).fault = none ↔
      ∀ m t, Obs.recv m t ∈ (execute ports calls).log → m.PassesPointer) ∧
    (commands (execute ports calls).log : Multiset (UInt32 × UInt32)) =
      responses (execute ports calls).log +
        match (execute ports calls).state.state with
        | .readCmd | .writeCmd =>
            {((execute ports calls).state.pendingOpCode,
              (execute ports calls).state.pendingCmdSeq)}
        | .readSched | .idle => 0 := by
  refine ⟨fault_iff ports calls, ?_⟩
  obtain ⟨_, answered⟩ := (commands_kept ports).execute (.refl _) calls
  have counted := Multiset.coe_eq_coe.mpr answered
  rw [← Multiset.coe_add] at counted
  rw [counted]
  cases h : (execute ports calls).state.state <;> simp [owed, h]

end CuriosityReference.I2cTester
