import SamdReference.I2cTester.Driver
import SamdReference.I2cTester.Telemetry

/-!
# Conservation of transactions

An attempt is either rejected or becomes a transaction, and a transaction is either
still active or was counted when it ended. Each turn keeps both balances, as long as
a completion only arrives for a transaction that is active.
-/

namespace CuriosityReference.I2cTester

open Reentrant (Call Log)

/-- The operations asked for while configured and, by a tick, polling. -/
def attempts (log : History) : List State :=
  log.filterMap fun
    | .recv m t => t.attempt? m
    | _ => none

/-- The attempts that found the component idle. -/
def accepted (log : History) : List State :=
  log.filterMap fun
    | .recv m t => if t.state = .idle then t.attempt? m else none
    | _ => none

/-- The transactions counted as ended, modulo 2^32. -/
def ended (t : I2cTester) : UInt32 :=
  t.txnCount + t.addressErrors + t.writeErrors + t.readErrors + t.openErrors + t.otherErrors +
    t.shortReads

/-- The transaction that is not ended yet. -/
def active (t : I2cTester) : UInt32 := if t.state = .idle then 0 else 1

section Sums

variable (t : I2cTester)

theorem ended_bump (c : Counter) :
    (t.bump c).ended = t.ended + if c = .busyRejects then 0 else 1 := by
  cases c <;> simp [ended, bump] <;> ac_rfl

@[simp] theorem ended_finished : t.finished.ended = t.ended := rfl

@[simp] theorem ended_prepared (m : Input) : (t.prepared m).ended = t.ended := by
  cases m with
  | command opCode cmdSeq cmd => cases cmd <;> rfl
  | _ => rfl

@[simp] theorem active_finished : t.finished.active = 0 := rfl

theorem active_of_idle {t : I2cTester} (idle : t.state = .idle) : t.active = 0 := if_pos idle

theorem active_of_busy {t : I2cTester} (busy : t.state ≠ .idle) : t.active = 1 := if_neg busy

theorem errorCounter_ne_busy (status : I2cStatus) : errorCounter status ≠ .busyRejects := by
  cases status <;> simp [errorCounter]

theorem errorCounter_ne_txn (status : I2cStatus) : errorCounter status ≠ .txnCount := by
  cases status <;> simp [errorCounter]

end Sums

section Balance

variable {ports : Ports} {t : I2cTester} {m : Input} {e : Effect}

theorem accepted_turn (log : History) (m : Input) (t : I2cTester) (e : Effect) :
    accepted (log ++ .recv m t :: e.log) =
      accepted log ++ (if t.state = .idle then t.attempt? m else none).toList :=
  Log.filterMap_turn (fun _ => rfl) (fun _ _ => rfl) log m t e

theorem attempts_turn (log : History) (m : Input) (t : I2cTester) (e : Effect) :
    attempts (log ++ .recv m t :: e.log) = attempts log ++ (t.attempt? m).toList :=
  Log.filterMap_turn (fun _ => rfl) (fun _ _ => rfl) log m t e

@[simp] theorem accepted_back (log : History) (o : Port) :
    accepted (log ++ [.back o]) = accepted log := by
  simp [accepted]

@[simp] theorem attempts_back (log : History) (o : Port) :
    attempts (log ++ [.back o]) = attempts log := by
  simp [attempts]

theorem prepared_of_completion (completion : m.completion?.isSome) : t.prepared m = t := by
  cases m with
  | writeReadCompleteIn => rfl
  | writeCompleteIn => rfl
  | _ => cases completion

theorem active_of_attempt {op : State} (attempt : t.attempt? m = some op) :
    (t.prepared m).state ≠ .idle := by
  rw [prepared_state attempt]
  obtain ⟨_, ⟨_, rfl, _⟩ | ⟨_, _, _, rfl⟩ | ⟨_, _, _, _, rfl⟩⟩ := attempt_cases attempt
  · exact State.noConfusion
  · exact State.noConfusion
  · exact State.noConfusion

/-- A transaction does not end in the counter of rejections. -/
theorem outcome_ne_busy : outcome? ports t m ≠ some .busyRejects := by
  cases m with
  | writeReadCompleteIn tx rx status =>
      simp only [outcome?]
      split_ifs <;> simp [errorCounter_ne_busy]
  | writeCompleteIn buffer status =>
      simp only [outcome?]
      split_ifs <;> simp [errorCounter_ne_busy]
  | _ =>
      simp only [outcome?]
      cases t.attempt? _ with
      | none => simp
      | some op =>
          dsimp only
          split_ifs <;> simp

theorem tick_busy_iff : tick? ports t m = some .busyRejects ↔
    (t.attempt? m).isSome ∧ t.state ≠ .idle := by
  rw [tick?]
  split_ifs with busy
  · exact iff_of_true rfl busy
  · exact iff_of_false outcome_ne_busy busy

/-- An attempt is rejected and counted, or accepted. -/
theorem TurnCase.rejects (turn : TurnCase ports t m e) :
    e.state.busyRejects + UInt32.ofNat
        (if t.state = .idle then t.attempt? m else none).toList.length =
      t.busyRejects + UInt32.ofNat (t.attempt? m).toList.length := by
  have member : e.state.busyRejects =
      if tick? ports t m = some .busyRejects then t.busyRejects + 1 else t.busyRejects :=
    turn.ticked.member .busyRejects
  rw [member]
  cases attempt : t.attempt? m with
  | none => simp [tick_busy_iff, attempt]
  | some op =>
      by_cases idle : t.state = .idle
      · simp [tick_busy_iff, idle]
      · simp [tick_busy_iff, attempt, idle]

/-- What is ended or active grows by the accepted attempts. -/
theorem TurnCase.balance (turn : TurnCase ports t m e)
    (held : m.completion?.isSome → t.state ≠ .idle) :
    e.state.ended + e.state.active = t.ended + t.active + UInt32.ofNat
      (if t.state = .idle then t.attempt? m else none).toList.length := by
  have completed : ∀ (c : Counter), c ≠ .busyRejects → m.completion?.isSome →
      (t.bump c).finished.ended + (t.bump c).finished.active = t.ended + t.active +
        UInt32.ofNat (if t.state = .idle then t.attempt? m else none).toList.length := by
    intro c counts completion
    have busy := held completion
    rw [ended_finished, ended_bump, active_finished, if_neg counts, active_of_busy busy,
      if_neg busy]
    rfl
  cases turn with
  | inactive off => simp [off]
  | refused refusal => simp [attempt_of_refusal refusal]
  | @settings _ u accepted =>
      have same : u.ended = t.ended ∧ u.active = t.active := by
        rw [settings_only accepted]
        exact ⟨rfl, rfl⟩
      simp [same, attempt_of_settings accepted]
  | polling => simp [ended, active, attempt?]
  | busy attempt busy => simp [ended_bump, active, busy]
  | issued attempt idle =>
      simp [active_of_idle idle, active_of_busy (active_of_attempt attempt), idle, attempt]
  | unwired attempt idle =>
      simp [active_of_idle idle, ended_bump, idle, attempt]
  | stray pointer =>
      simp [held (completion_of_stray pointer)]
  | failed completion => exact completed _ (errorCounter_ne_busy _) (by simp [completion])
  | shortRead => exact completed _ (by simp) rfl
  | readDone => exact completed _ (by simp) rfl
  | writeDone => exact completed _ (by simp) rfl
  | storedWrite => simp [ended, active, attempt?]
  | storedRead => simp [ended, active, attempt?]

/-- How a turn accounts for the transaction it ends, if it ends one: exactly the
counter of the outcome is incremented, the component is idle, and the reply is OK for
`TxnCount` only. -/
structure Accounted (ports : Ports) (t : I2cTester) (m : Input) (e : Effect) : Prop where
  counted : ∀ c, outcome? ports t m = some c → ∀ d,
    e.state.counter d = if d = c then t.counter d + 1 else t.counter d
  ended : ∀ c, outcome? ports t m = some c → (t.prepared m).state ≠ .idle ∧
    e.state.state = .idle ∧ e.exit = (t.prepared m).reply (c = .txnCount)
  ongoing : outcome? ports t m = none → (t.state ≠ .idle → e.state.state = t.state) ∧
    ∀ d, d ≠ .busyRejects → e.state.counter d = t.counter d

/-- A turn either ends no transaction or ends the active one. -/
theorem TurnCase.settles (turn : TurnCase ports t m e)
    (held : m.completion?.isSome → t.state ≠ .idle) :
    (outcome? ports t m = none ∧ (t.state ≠ .idle → e.state.state = t.state)) ∨
    ∃ c, outcome? ports t m = some c ∧ (t.prepared m).state ≠ .idle ∧
      e.state.state = .idle ∧ e.exit = (t.prepared m).reply (c = .txnCount) := by
  cases turn with
  | inactive off => exact .inl ⟨outcome_of_entry rfl off, fun _ => rfl⟩
  | refused refusal =>
      exact .inl ⟨outcome_of_entry (completion_of_refusal refusal) (attempt_of_refusal refusal),
        fun _ => rfl⟩
  | @settings _ u accepted =>
      have same : u.state = t.state := by rw [settings_only accepted]
      exact .inl ⟨outcome_of_entry (completion_of_settings accepted)
        (attempt_of_settings accepted), fun _ => same⟩
  | polling => exact .inl ⟨rfl, fun _ => rfl⟩
  | busy attempt busy => exact .inl ⟨outcome_of_busy attempt busy, fun _ => rfl⟩
  | issued attempt idle wired =>
      refine .inl ⟨?_, fun busy => absurd idle busy⟩
      rw [outcome_of_attempt attempt, if_neg (by simp [wired])]
  | unwired attempt idle cut =>
      refine .inr ⟨.openErrors, ?_, active_of_attempt attempt, rfl, rfl⟩
      rw [outcome_of_attempt attempt, if_pos ⟨idle, cut⟩]
  | stray pointer => exact .inl ⟨outcome_of_stray pointer, fun _ => rfl⟩
  | @failed _ tx status completion pointer error =>
      have ended : m.completion?.isSome := by simp [completion]
      refine .inr ⟨errorCounter status, outcome_of_failed completion pointer error, ?_⟩
      rw [prepared_of_completion ended, decide_eq_false (errorCounter_ne_txn status)]
      exact ⟨held ended, rfl, rfl⟩
  | shortRead pointer short =>
      exact .inr ⟨.shortReads, outcome_of_shortRead pointer short, held rfl, rfl, rfl⟩
  | readDone pointer enough =>
      exact .inr ⟨.txnCount, outcome_of_readDone pointer enough, held rfl, rfl, rfl⟩
  | writeDone => exact .inr ⟨.txnCount, rfl, held rfl, rfl, rfl⟩
  | storedWrite => exact .inl ⟨rfl, fun _ => rfl⟩
  | storedRead => exact .inl ⟨rfl, fun _ => rfl⟩

theorem TurnCase.accounted (turn : TurnCase ports t m e)
    (held : m.completion?.isSome → t.state ≠ .idle) : Accounted ports t m e where
  counted := by
    intro c outcome d
    have tick : tick? ports t m = some c := by
      rw [tick?, if_neg, outcome]
      rintro ⟨attempt, busy⟩
      obtain ⟨op, attempt⟩ := Option.isSome_iff_exists.mp attempt
      rw [outcome_of_busy attempt busy] at outcome
      cases outcome
    rw [turn.ticked.member, tick]
    simp only [Option.some.injEq, eq_comm]
  ended := by
    intro c outcome
    obtain ⟨none, _⟩ | ⟨c', outcome', settled⟩ := turn.settles held
    · rw [none] at outcome
      cases outcome
    · rw [outcome'] at outcome
      obtain rfl := Option.some.inj outcome
      exact settled
  ongoing := by
    intro none
    constructor
    · obtain ⟨_, same⟩ | ⟨c, outcome, _⟩ := turn.settles held
      · exact same
      · rw [none] at outcome
        cases outcome
    · intro d counts
      rw [turn.ticked.member, if_neg]
      rw [tick?, none]
      split_ifs
      · exact fun same => counts (Option.some.inj same).symm
      · exact id

end Balance

/-- A completion within the contract finds a transaction to end. -/
theorem active_of_awaited {m : Input} {t : I2cTester} {xs next : List Transaction}
    (agree : Agree t.state xs) (received : (awaiting Request.onPort).recv m t xs = some next)
    (completion : m.completion?.isSome) : t.state ≠ .idle := by
  intro idle
  obtain ⟨found, _⟩ := awaiting_completes completion received
  rw [agree.idle_iff.mp idle] at found
  cases found

/-- Both balances hold along every run, and the state tells what is outstanding. -/
theorem balances_upheld (ports : Ports) :
    Upheld ports (awaiting Request.onPort) fun w xs =>
      (w.fault = none → Agree w.state.state xs) ∧
      w.state.busyRejects + UInt32.ofNat (accepted w.log).length =
        UInt32.ofNat (attempts w.log).length ∧
      w.state.ended + w.state.active = UInt32.ofNat (accepted w.log).length where
  turn := by
    intro t log m e xs next legal kept holds received turn
    obtain ⟨agree, rejected, balanced⟩ := holds
    refine ⟨(awaiting_upheld ports _).turn legal kept agree received turn, ?_, ?_⟩
    · have step := turn.rejects
      rw [accepted_turn, attempts_turn, List.length_append, List.length_append,
        UInt32.ofNat_add, UInt32.ofNat_add, ← rejected]
      change e.state.busyRejects + _ = t.busyRejects + _ + _
      grind
    · change e.state.ended + e.state.active = _
      rw [turn.balance (active_of_awaited (agree rfl) received), accepted_turn,
        List.length_append, UInt32.ofNat_add, ← balanced]
  back := by
    intro t log o xs holds
    rw [accepted_back, attempts_back]
    exact holds

/-- Every run in which each completion comes back on the port of a request not
completed before: the attempts are those rejected as busy and those accepted, the
accepted ones are those counted as ended and the one still active, all modulo 2^32,
and every entry accounts for the transaction it ends. -/
theorem transactions_conserved (ports : Ports) (calls : List (Call Input))
    {xs : List Transaction}
    (contract : (awaiting Request.onPort).replay (execute ports calls).log = some xs) :
    UInt32.ofNat (attempts (execute ports calls).log).length =
      (execute ports calls).state.busyRejects +
        UInt32.ofNat (accepted (execute ports calls).log).length ∧
    UInt32.ofNat (accepted (execute ports calls).log).length =
      (execute ports calls).state.txnCount + (execute ports calls).state.addressErrors +
        (execute ports calls).state.writeErrors + (execute ports calls).state.readErrors +
        (execute ports calls).state.openErrors + (execute ports calls).state.otherErrors +
        (execute ports calls).state.shortReads +
        (if (execute ports calls).state.state = .idle then 0 else 1) ∧
    ∀ pre m t post, (execute ports calls).log = pre ++ .recv m t :: post →
      ∃ e, (component ports).turn m t = e ∧ Log.ownOutputs post = e.outputs ∧
        Accounted ports t m e := by
  have start : (init.busyRejects + UInt32.ofNat (accepted ([] : History)).length =
      UInt32.ofNat (attempts ([] : History)).length) ∧
      init.ended + init.active = UInt32.ofNat (accepted ([] : History)).length := by decide
  obtain ⟨_, rejected, balanced⟩ :=
    (balances_upheld ports).execute ⟨fun _ => rfl, start⟩ contract
  refine ⟨rejected.symm, balanced.symm, ?_⟩
  intro pre m t post split
  obtain ⟨now, next, e, _, _, ⟨agree, _⟩, received, turn, same, own⟩ :=
    (balances_upheld ports).at_recv ⟨fun _ => rfl, start⟩ contract split
  exact ⟨e, same, own, turn.accounted (active_of_awaited (agree rfl) received)⟩

/-- A tick that is accepted, a read rejected while it is in flight, its completion, a
write the driver refuses, and a read that is still active. -/
def mixedAttempts : List (Call Input) :=
  [.mk (.configure 0x50 0x10 2) [], .mk (.command 1 1 (.setPolling true)) [],
    .mk .schedIn [], .mk (.command 2 2 .readOnce) [],
    .mk (.writeReadCompleteIn (txBuf 1) (rxBuf 2) .ok) [],
    .mk (.command 3 3 (.writeOnce 0xAA)) [[.mk (.writeCompleteIn (txBuf 2) .otherErr) []]],
    .mk (.command 2 4 .readOnce) []]

theorem transactions_conserved_mixed :
    UInt32.ofNat (attempts (execute ⟨true, true⟩ mixedAttempts).log).length =
      (execute ⟨true, true⟩ mixedAttempts).state.busyRejects +
        UInt32.ofNat (accepted (execute ⟨true, true⟩ mixedAttempts).log).length ∧
    (attempts (execute ⟨true, true⟩ mixedAttempts).log).length = 4 ∧
    (accepted (execute ⟨true, true⟩ mixedAttempts).log).length = 3 := by
  obtain ⟨rejected, _⟩ := @transactions_conserved ⟨true, true⟩ mixedAttempts
    [⟨.writeRead 0x50 (txBuf 1) (rxBuf 2), #v[0x10, 0xAA]⟩] (by decide)
  exact ⟨rejected, by decide, by decide⟩

end CuriosityReference.I2cTester
