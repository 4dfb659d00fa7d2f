import SamdReference.I2cTester.Turn

/-!
# Runs of the I2C tester from construction

A run is a list of calls with everything nested in them. Settings stay in range
in every run, so an invariant only has to be checked on the listed turn cases. It
then holds after every run, and at every entry and every output inside one.
-/

namespace CuriosityReference.I2cTester

open Reentrant (Component World Turns Call Obs)

abbrev Effect := Reentrant.Turn I2cTester Note Port Fault
abbrev History := Reentrant.Log I2cTester Input Note Port
abbrev Situation := World I2cTester Input Note Port Fault

/-- What the component and its history are after the given calls. A list of calls
ends where no handler is executing. -/
def execute (ports : Ports) (calls : List (Call Input)) : Situation :=
  (component ports).runAll calls (.start init)

theorem init_legal : init.Legal := ⟨by decide, by decide⟩

/-- The three ways an entry changes the settings. -/
theorem settings_cases {t u : I2cTester} {m : Input} (h : t.settings? m = some u) :
    (∃ addr reg len, m = .configure addr reg len ∧ LegalAddress addr ∧ LegalLength len ∧
      u = { t with
        i2cAddress := addr, regOffset := reg, readLength := len, configLoaded := true }) ∨
    (∃ opCode cmdSeq addr, m = .command opCode cmdSeq (.setAddress addr) ∧
      LegalAddress addr ∧ u = { t with i2cAddress := addr }) ∨
    (∃ opCode cmdSeq reg len, m = .command opCode cmdSeq (.setRegister reg len) ∧
      LegalLength len ∧ u = { t with regOffset := reg, readLength := len }) := by
  cases m with
  | configure addr reg len =>
      simp only [settings?, Option.ite_none_right_eq_some, Option.some.injEq] at h
      obtain ⟨⟨address, length⟩, rfl⟩ := h
      exact .inl ⟨addr, reg, len, rfl, address, length, rfl⟩
  | command opCode cmdSeq cmd =>
      cases cmd with
      | setAddress addr =>
          simp only [settings?, Option.ite_none_right_eq_some, Option.some.injEq] at h
          obtain ⟨address, rfl⟩ := h
          exact .inr (.inl ⟨opCode, cmdSeq, addr, rfl, address, rfl⟩)
      | setRegister reg len =>
          simp only [settings?, Option.ite_none_right_eq_some, Option.some.injEq] at h
          obtain ⟨length, rfl⟩ := h
          exact .inr (.inr ⟨opCode, cmdSeq, reg, len, rfl, length, rfl⟩)
      | _ => cases h
  | _ => cases h

theorem settings_legal {t u : I2cTester} {m : Input} (legal : t.Legal)
    (accepted : t.settings? m = some u) : u.Legal := by
  obtain ⟨_, _, _, _, address, length, rfl⟩ | ⟨_, _, _, _, address, rfl⟩ |
    ⟨_, _, _, _, _, length, rfl⟩ := settings_cases accepted
  · exact ⟨address, length⟩
  · exact ⟨address, legal.length⟩
  · exact ⟨legal.address, length⟩

/-- Changing the settings changes nothing else. -/
theorem settings_only {t u : I2cTester} {m : Input} (accepted : t.settings? m = some u) :
    u = { t with
      i2cAddress := u.i2cAddress, regOffset := u.regOffset, readLength := u.readLength
      configLoaded := u.configLoaded } := by
  obtain ⟨_, _, _, _, _, _, rfl⟩ | ⟨_, _, _, _, _, rfl⟩ | ⟨_, _, _, _, _, _, rfl⟩ :=
    settings_cases accepted
  · rfl
  · rfl
  · rfl

/-- The three ways an entry asks for an operation. -/
theorem attempt_cases {t : I2cTester} {m : Input} {op : State}
    (h : t.attempt? m = some op) : t.configLoaded = true ∧
      ((m = .schedIn ∧ op = .readSched ∧ t.polling = true) ∨
      (∃ opCode cmdSeq, m = .command opCode cmdSeq .readOnce ∧ op = .readCmd) ∨
      (∃ opCode cmdSeq value, m = .command opCode cmdSeq (.writeOnce value) ∧
        op = .writeCmd)) := by
  cases m with
  | schedIn =>
      simp only [attempt?, Option.ite_none_right_eq_some, Option.some.injEq] at h
      obtain ⟨⟨configured, polling⟩, rfl⟩ := h
      exact ⟨configured, .inl ⟨rfl, rfl, polling⟩⟩
  | command opCode cmdSeq cmd =>
      cases cmd with
      | readOnce =>
          simp only [attempt?, Option.ite_none_right_eq_some, Option.some.injEq] at h
          obtain ⟨configured, rfl⟩ := h
          exact ⟨configured, .inr (.inl ⟨opCode, cmdSeq, rfl, rfl⟩)⟩
      | writeOnce value =>
          simp only [attempt?, Option.ite_none_right_eq_some, Option.some.injEq] at h
          obtain ⟨configured, rfl⟩ := h
          exact ⟨configured, .inr (.inr ⟨opCode, cmdSeq, value, rfl, rfl⟩)⟩
      | _ => cases h
  | _ => cases h

section Prepared

variable {t : I2cTester} {m : Input} {op : State}

/-- Preparing a request leaves the settings alone and commits the operation. -/
theorem prepared_settings (t : I2cTester) (m : Input) :
    (t.prepared m).i2cAddress = t.i2cAddress ∧ (t.prepared m).regOffset = t.regOffset ∧
      (t.prepared m).readLength = t.readLength ∧
      (t.prepared m).configLoaded = t.configLoaded ∧ (t.prepared m).polling = t.polling := by
  cases m with
  | command opCode cmdSeq cmd => cases cmd <;> exact ⟨rfl, rfl, rfl, rfl, rfl⟩
  | _ => exact ⟨rfl, rfl, rfl, rfl, rfl⟩

theorem prepared_counter (t : I2cTester) (m : Input) (c : Counter) :
    (t.prepared m).counter c = t.counter c := by
  cases m with
  | command opCode cmdSeq cmd => cases cmd <;> cases c <;> rfl
  | _ => cases c <;> rfl

theorem prepared_state (attempt : t.attempt? m = some op) : (t.prepared m).state = op := by
  obtain ⟨_, ⟨rfl, rfl, _⟩ | ⟨_, _, rfl, rfl⟩ | ⟨_, _, _, rfl, rfl⟩⟩ := attempt_cases attempt
  · rfl
  · rfl
  · rfl

theorem prepared_legal (legal : t.Legal) (m : Input) : (t.prepared m).Legal := by
  obtain ⟨address, _, length, _, _⟩ := prepared_settings t m
  exact ⟨address ▸ legal.address, length ▸ legal.length⟩

end Prepared

theorem bump_finished_legal {t : I2cTester} (legal : t.Legal) (c : Counter) :
    (t.bump c).finished.Legal := by
  refine ⟨?_, ?_⟩
  · simpa [finished] using legal.address
  · simpa [finished] using legal.length

theorem TurnCase.legal {ports : Ports} {t : I2cTester} {m : Input} {e : Effect}
    (turn : TurnCase ports t m e) (legal : t.Legal) : e.state.Legal := by
  cases turn with
  | inactive => exact legal
  | refused => exact legal
  | settings accepted => exact settings_legal legal accepted
  | polling => exact ⟨legal.address, legal.length⟩
  | busy => exact ⟨legal.address, legal.length⟩
  | issued => exact prepared_legal legal m
  | unwired => exact bump_finished_legal (prepared_legal legal m) _
  | stray => exact legal
  | failed => exact bump_finished_legal legal _
  | shortRead => exact bump_finished_legal legal _
  | readDone => exact bump_finished_legal legal _
  | writeDone => exact bump_finished_legal legal _
  | storedWrite => exact ⟨legal.address, legal.length⟩
  | storedRead => exact ⟨legal.address, legal.length⟩

/-- A property of the members and history that every turn case and every return
of a call preserves. -/
structure Kept (ports : Ports) (I : Situation → Prop) : Prop where
  turn : ∀ {t log m e}, t.Legal → I ⟨t, log, none⟩ → TurnCase ports t m e →
    I ⟨e.state, log ++ .recv m t :: e.log, e.fault⟩
  back : ∀ {t log o}, I ⟨t, log, none⟩ → I ⟨t, log ++ [.back o], none⟩

namespace Kept

variable {ports : Ports} {I : Situation → Prop}

theorem invariant (h : Kept ports I) :
    (component ports).Invariant (fun w => w.state.Legal ∧ I w) where
  step := by
    rintro ⟨t, log, fault⟩ running ⟨legal, holds⟩ m
    cases running
    have turn := component_turn ports legal m
    exact ⟨turn.legal legal, h.turn legal holds turn⟩
  back := by
    rintro ⟨t, log, fault⟩ running ⟨legal, holds⟩ o
    cases running
    exact ⟨legal, h.back holds⟩

theorem always (ports : Ports) : Kept ports fun _ => True where
  turn := by
    intro _ _ _ _ _ _ _
    trivial
  back := by
    intro _ _ _ _
    trivial

/-- It holds after every run. -/
theorem execute (h : Kept ports I) (initial : I (.start init)) (calls : List (Call Input)) :
    (execute ports calls).state.Legal ∧ I (execute ports calls) :=
  h.invariant.runAll (component_callsLast ports) calls ⟨init_legal, initial⟩

theorem turns (h : Kept ports I) (initial : I (.start init)) (calls : List (Call Input)) :
    Turns (component ports) (fun w => w.state.Legal ∧ I w)
      (I2cTester.execute ports calls).log :=
  h.invariant.turns (component_callsLast ports) ⟨init_legal, initial⟩ calls

/-- It held when any entry arrived, and what the handler then did is one of the
turn cases. -/
theorem at_recv (h : Kept ports I) (initial : I (.start init)) {calls : List (Call Input)}
    {pre post : History} {m : Input} {t : I2cTester}
    (split : (I2cTester.execute ports calls).log = pre ++ .recv m t :: post) :
    t.Legal ∧ I ⟨t, pre, none⟩ ∧ ∃ e, TurnCase ports t m e ∧
      (component ports).turn m t = e ∧ Reentrant.Log.ownOutputs post = e.outputs := by
  have turns := h.turns initial calls
  obtain ⟨⟨legal, holds⟩, _⟩ := turns.recv_split split
  exact ⟨legal, holds, _, component_turn ports legal m, rfl, turns.ownOutputs_eq split⟩

/-- It held when the entry arrived whose handler made a given output. -/
theorem at_output (h : Kept ports I) (initial : I (.start init)) {calls : List (Call Input)}
    {pre post : History} {o : Obs I2cTester Input Note Port}
    (split : (I2cTester.execute ports calls).log = pre ++ o :: post)
    (output : o.isOutput = true) :
    ∃ before m t rest e, ∃ notes : List Note, pre = before ++ .recv m t :: notes.map .out ∧
      t.Legal ∧
      I ⟨t, before, none⟩ ∧ TurnCase ports t m e ∧ e.log = notes.map .out ++ o :: rest := by
  obtain ⟨before, m, t, rest, notes, located, produced, legal, holds⟩ :=
    (h.turns initial calls).output_split split output
  exact ⟨before, m, t, rest, _, notes, located, legal, holds,
    component_turn ports legal m, produced⟩

end Kept

/-- Settings are in range after every run. -/
theorem execute_legal (ports : Ports) (calls : List (Call Input)) :
    (execute ports calls).state.Legal :=
  ((Kept.always ports).execute trivial calls).1

/-- Any entry of a run found legal settings and did what its turn says. -/
theorem entry_turn {ports : Ports} {calls : List (Call Input)} {pre post : History}
    {m : Input} {t : I2cTester}
    (split : (execute ports calls).log = pre ++ .recv m t :: post) :
    t.Legal ∧ ∃ e, TurnCase ports t m e ∧ (component ports).turn m t = e ∧
      Reentrant.Log.ownOutputs post = e.outputs := by
  obtain ⟨legal, _, found⟩ := (Kept.always ports).at_recv trivial split
  exact ⟨legal, found⟩

section Entry

variable {t : I2cTester} {m : Input}

theorem completion_of_attempt {op : State} (attempt : t.attempt? m = some op) :
    m.completion? = none := by
  obtain ⟨_, ⟨rfl, _⟩ | ⟨_, _, rfl, _⟩ | ⟨_, _, _, rfl, _⟩⟩ := attempt_cases attempt
  · rfl
  · rfl
  · rfl

theorem completion_of_refusal {refusal : UInt8 × CmdResponse}
    (h : t.refusal? m = some refusal) : m.completion? = none := by
  cases m with
  | writeReadCompleteIn => cases h
  | writeCompleteIn => cases h
  | _ => rfl

theorem completion_of_settings {u : I2cTester} (h : t.settings? m = some u) :
    m.completion? = none := by
  obtain ⟨_, _, _, rfl, _⟩ | ⟨_, _, _, rfl, _⟩ | ⟨_, _, _, _, rfl, _⟩ := settings_cases h
  · rfl
  · rfl
  · rfl

theorem refusal_of_attempt {op : State} (attempt : t.attempt? m = some op) :
    t.refusal? m = none := by
  obtain ⟨configured, ⟨rfl, _⟩ | ⟨_, _, rfl, _⟩ | ⟨_, _, _, rfl, _⟩⟩ := attempt_cases attempt
  · rfl
  · exact if_pos configured
  · exact if_pos configured

theorem settings_of_attempt {op : State} (attempt : t.attempt? m = some op) :
    t.settings? m = none := by
  obtain ⟨_, ⟨rfl, _⟩ | ⟨_, _, rfl, _⟩ | ⟨_, _, _, rfl, _⟩⟩ := attempt_cases attempt
  · rfl
  · rfl
  · rfl

theorem attempt_of_refusal {refusal : UInt8 × CmdResponse}
    (h : t.refusal? m = some refusal) : t.attempt? m = none := by
  cases attempt : t.attempt? m with
  | none => rfl
  | some op => simp [refusal_of_attempt attempt] at h

theorem settings_of_completion (completion : m.completion?.isSome) :
    t.settings? m = none := by
  cases accepted : t.settings? m with
  | none => rfl
  | some u => simp [completion_of_settings accepted] at completion

theorem settings_of_refusal {refusal : UInt8 × CmdResponse}
    (h : t.refusal? m = some refusal) : t.settings? m = none := by
  cases accepted : t.settings? m with
  | none => rfl
  | some u =>
      obtain ⟨_, _, _, rfl, address, length, _⟩ | ⟨_, _, _, rfl, address, _⟩ |
        ⟨_, _, _, _, rfl, length, _⟩ := settings_cases accepted
      · simp [refusal?, address, length] at h
      · simp [refusal?, address] at h
      · simp [refusal?, length] at h

theorem attempt_of_settings {u : I2cTester} (h : t.settings? m = some u) :
    t.attempt? m = none := by
  cases attempt : t.attempt? m with
  | none => rfl
  | some op => simp [settings_of_attempt attempt] at h

/-- Only completions carry a receive pointer. -/
theorem passes_of_entry (entry : m.completion? = none) : m.PassesPointer := by
  cases m with
  | writeReadCompleteIn => cases entry
  | _ => trivial

theorem completion_of_stray (pointer : ¬m.PassesPointer) : m.completion?.isSome := by
  cases m with
  | writeReadCompleteIn => rfl
  | _ => exact absurd trivial pointer

end Entry

/-- What a completion can do. -/
inductive CompletionCase (t : I2cTester) : Input → Effect → Prop where
  | stray {m} (pointer : ¬m.PassesPointer) :
      CompletionCase t m ⟨[], none, t, some .receivePointer⟩
  | failed {m tx status} (completion : m.completion? = some (tx, status))
      (pointer : m.PassesPointer) (error : status ≠ .ok) :
      CompletionCase t m
        ⟨[.tlmU32 (errorCounter status).channel (t.counter (errorCounter status) + 1),
          .event (.i2cError status t.i2cAddress (recoverRegOffset t tx))],
          t.reply false, (t.bump (errorCounter status)).finished, none⟩
  | shortRead {tx rx} (pointer : rx.data = .readBuffer 0)
      (short : rx.size < t.readLength.toNat) :
      CompletionCase t (.writeReadCompleteIn tx rx .ok)
        ⟨[.tlmU32 .shortReads (t.shortReads + 1),
          .event (.shortRead t.readLength (UInt8.ofNat rx.size))],
          t.reply false, (t.bump .shortReads).finished, none⟩
  | readDone {tx rx words} (pointer : rx.data = .readBuffer 0)
      (enough : t.readLength.toNat ≤ rx.size)
      (packed : octets words = padded t.readBuffer t.readLength.toNat) :
      CompletionCase t (.writeReadCompleteIn tx rx .ok)
        ⟨[.tlmU32 .readData0 (words.get 0), .tlmU32 .readData1 (words.get 1),
          .tlmU8 .readLength t.readLength, .tlmU32 .txnCount (t.txnCount + 1),
          .event (.readComplete (recoverRegOffset t tx) t.readLength (words.get 0) (words.get 1))],
          t.reply true, (t.bump .txnCount).finished, none⟩
  | writeDone {buffer} :
      CompletionCase t (.writeCompleteIn buffer .ok)
        ⟨[.tlmU32 .txnCount (t.txnCount + 1),
          .event (.writeComplete (recoverRegOffset t buffer) t.writeValue)],
          t.reply true, (t.bump .txnCount).finished, none⟩

/-- What an attempt to begin an operation can do. -/
inductive AttemptCase (ports : Ports) (t : I2cTester) (m : Input) (op : State) :
    Effect → Prop where
  | busy (active : t.state ≠ .idle) :
      AttemptCase ports t m op
        ⟨[.event (.busy op t.state), .tlmU32 .busyRejects (t.busyRejects + 1)],
          m.answer .executionError, t.bump .busyRejects, none⟩
  | issued (idle : t.state = .idle) (wired : ports.connected op = true) :
      AttemptCase ports t m op
        ⟨preparing op, some ((t.prepared m).request op), t.prepared m, none⟩
  | unwired (idle : t.state = .idle) (cut : ports.connected op = false) :
      AttemptCase ports t m op
        ⟨preparing op ++ [.tlmU32 .openErrors (t.openErrors + 1),
          .event (.i2cError .openErr t.i2cAddress t.regOffset)],
          (t.prepared m).reply false, ((t.prepared m).bump .openErrors).finished, none⟩

section Inversion

variable {ports : Ports} {t : I2cTester} {m : Input} {e : Effect}

theorem TurnCase.of_completion (turn : TurnCase ports t m e)
    (completion : m.completion?.isSome) : CompletionCase t m e := by
  cases turn with
  | refused refusal => simp [completion_of_refusal refusal] at completion
  | settings accepted => simp [completion_of_settings accepted] at completion
  | busy attempt => simp [completion_of_attempt attempt] at completion
  | issued attempt => simp [completion_of_attempt attempt] at completion
  | unwired attempt => simp [completion_of_attempt attempt] at completion
  | stray pointer => exact .stray pointer
  | failed completed pointer error => exact .failed completed pointer error
  | shortRead pointer short => exact .shortRead pointer short
  | readDone pointer enough packed => exact .readDone pointer enough packed
  | writeDone => exact .writeDone
  | _ => cases completion

theorem TurnCase.of_attempt {op : State} (turn : TurnCase ports t m e)
    (attempt : t.attempt? m = some op) : AttemptCase ports t m op e := by
  have entry := completion_of_attempt attempt
  cases turn with
  | inactive off => simp [off] at attempt
  | refused refusal => simp [refusal_of_attempt attempt] at refusal
  | settings accepted => simp [settings_of_attempt attempt] at accepted
  | busy asked active =>
      obtain rfl := Option.some.inj (asked.symm.trans attempt)
      exact .busy active
  | issued asked idle wired =>
      obtain rfl := Option.some.inj (asked.symm.trans attempt)
      exact .issued idle wired
  | unwired asked idle cut =>
      obtain rfl := Option.some.inj (asked.symm.trans attempt)
      exact .unwired idle cut
  | stray pointer => exact absurd (passes_of_entry entry) pointer
  | failed completion => simp [entry] at completion
  | _ => cases attempt

/-- New settings go into force, are written to their channels and are answered. -/
theorem TurnCase.of_settings {u : I2cTester} (turn : TurnCase ports t m e)
    (accepted : t.settings? m = some u) :
    e = ⟨[.tlmU8 .targetAddress u.i2cAddress, .tlmU8 .registerOffset u.regOffset,
      .tlmU8 .readLength u.readLength], m.answer .ok, u, none⟩ := by
  have entry := completion_of_settings accepted
  cases turn with
  | refused refusal => simp [settings_of_refusal refusal] at accepted
  | settings own =>
      obtain rfl := Option.some.inj (own.symm.trans accepted)
      rfl
  | busy attempt => simp [attempt_of_settings accepted] at attempt
  | issued attempt => simp [attempt_of_settings accepted] at attempt
  | unwired attempt => simp [attempt_of_settings accepted] at attempt
  | stray pointer => exact absurd (passes_of_entry entry) pointer
  | failed completion => simp [entry] at completion
  | _ => cases accepted

/-- A refused entry reports the value it is refused for and changes nothing. -/
theorem TurnCase.of_refusal {value : UInt8} {response : CmdResponse}
    (turn : TurnCase ports t m e) (refusal : t.refusal? m = some (value, response)) :
    e = ⟨[.event (.invalidConfig value)], m.answer response, t, none⟩ := by
  have entry := completion_of_refusal refusal
  cases turn with
  | refused own =>
      cases own.symm.trans refusal
      rfl
  | settings accepted => simp [settings_of_refusal refusal] at accepted
  | busy attempt => simp [attempt_of_refusal refusal] at attempt
  | issued attempt => simp [attempt_of_refusal refusal] at attempt
  | unwired attempt => simp [attempt_of_refusal refusal] at attempt
  | stray pointer => exact absurd (passes_of_entry entry) pointer
  | failed completion => simp [entry] at completion
  | _ => cases refusal

end Inversion

/-- A turn stops the component exactly when its entry fails the receive-pointer
assertion. The read-length assertion and the bounds never fail. -/
theorem TurnCase.fault {ports : Ports} {t : I2cTester} {m : Input} {e : Effect}
    (turn : TurnCase ports t m e) :
    (e.fault = none ∧ m.PassesPointer) ∨
      (e.fault = some .receivePointer ∧ ¬m.PassesPointer) := by
  cases turn with
  | inactive => exact .inl ⟨rfl, trivial⟩
  | refused refusal => exact .inl ⟨rfl, passes_of_entry (completion_of_refusal refusal)⟩
  | settings accepted => exact .inl ⟨rfl, passes_of_entry (completion_of_settings accepted)⟩
  | polling => exact .inl ⟨rfl, trivial⟩
  | busy attempt => exact .inl ⟨rfl, passes_of_entry (completion_of_attempt attempt)⟩
  | issued attempt => exact .inl ⟨rfl, passes_of_entry (completion_of_attempt attempt)⟩
  | unwired attempt => exact .inl ⟨rfl, passes_of_entry (completion_of_attempt attempt)⟩
  | stray pointer => exact .inr ⟨rfl, pointer⟩
  | failed _ pointer => exact .inl ⟨rfl, pointer⟩
  | shortRead pointer => exact .inl ⟨rfl, pointer⟩
  | readDone pointer => exact .inl ⟨rfl, pointer⟩
  | writeDone => exact .inl ⟨rfl, trivial⟩
  | storedWrite => exact .inl ⟨rfl, trivial⟩
  | storedRead => exact .inl ⟨rfl, trivial⟩

/-- An entry in the log after a turn is the turn's own or was there before. -/
theorem recv_mem_turn {log : History} {m n : Input} {t u : I2cTester} {e : Effect} :
    Obs.recv n u ∈ log ++ .recv m t :: e.log ↔ Obs.recv n u ∈ log ∨ (n = m ∧ u = t) := by
  have own : Obs.recv n u ∉ (e.log : History) := fun member => by
    cases Reentrant.Turn.isOutput_of_mem_log member
  simp [own]

theorem fault_kept (ports : Ports) :
    Kept ports fun w =>
      (w.fault = none ↔ ∀ m t, Obs.recv m t ∈ w.log → m.PassesPointer) ∧
        (w.fault = none ∨ w.fault = some .receivePointer) where
  turn := by
    intro t log m e _ holds turn
    have before := holds.1.mp rfl
    simp only [recv_mem_turn]
    rcases turn.fault with ⟨running, passes⟩ | ⟨stopped, fails⟩
    · refine ⟨⟨fun _ n u member => ?_, fun _ => running⟩, .inl running⟩
      rcases member with member | ⟨rfl, rfl⟩
      · exact before n u member
      · exact passes
    · rw [stopped]
      refine ⟨⟨fun h => (nomatch h), fun all => ?_⟩, .inr rfl⟩
      exact absurd (all m t (.inr ⟨rfl, rfl⟩)) fails
  back := by
    intro t log o holds
    simpa using holds

/-- A run goes on exactly as long as completions pass the assertion. -/
theorem fault_iff (ports : Ports) (calls : List (Call Input)) :
    (execute ports calls).fault = none ↔
      ∀ m t, Obs.recv m t ∈ (execute ports calls).log → m.PassesPointer :=
  ((fault_kept ports).execute (by simp [World.start]) calls).2.1

theorem fault_cases (ports : Ports) (calls : List (Call Input)) :
    (execute ports calls).fault = none ∨
      (execute ports calls).fault = some .receivePointer :=
  ((fault_kept ports).execute (by simp [World.start]) calls).2.2

end CuriosityReference.I2cTester
