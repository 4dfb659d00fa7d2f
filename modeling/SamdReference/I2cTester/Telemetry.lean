import SamdReference.I2cTester.Runs

/-!
# Counters, events and telemetry agree

A counter exists three times: as a member, as the last value on its channel and as
the number of its events. Each turn touches at most one counter, and all three of
its records together, so they never come apart; the data words and the settings are
reported by the same argument.
-/

namespace CuriosityReference.I2cTester

open Reentrant (Call Log)

/-- The counter an event belongs to. -/
def Event.counter? : Event → Option Counter
  | .busy _ _ => some .busyRejects
  | .i2cError .ok _ _ => none
  | .i2cError .addressErr _ _ => some .addressErrors
  | .i2cError .writeErr _ _ => some .writeErrors
  | .i2cError .readErr _ _ => some .readErrors
  | .i2cError .openErr _ _ => some .openErrors
  | .i2cError .otherErr _ _ => some .otherErrors
  | .i2cError (.unrecognized _) _ _ => some .otherErrors
  | .shortRead _ _ => some .shortReads
  | .readComplete _ _ _ _ => some .txnCount
  | .writeComplete _ _ => some .txnCount
  | .invalidConfig _ => none

/-- The counters ticked by the events among some notes. -/
def ticks (notes : List Note) : List Counter :=
  notes.filterMap fun
    | .event e => e.counter?
    | _ => none

/-- The values written to a `U32` channel. -/
def writesU32 (channel : U32Channel) (notes : List Note) : List UInt32 :=
  notes.filterMap fun
    | .tlmU32 channel' value => if channel' = channel then some value else none
    | _ => none

/-- The values written to a `U8` channel. -/
def writesU8 (channel : U8Channel) (notes : List Note) : List UInt8 :=
  notes.filterMap fun
    | .tlmU8 channel' value => if channel' = channel then some value else none
    | _ => none

/-- The data words of the reads reported complete. -/
def readWords (notes : List Note) : List (UInt32 × UInt32) :=
  notes.filterMap fun
    | .event (.readComplete _ _ data0 data1) => some (data0, data1)
    | _ => none

/-- The member behind a `U8` channel. -/
def setting (t : I2cTester) : U8Channel → UInt8
  | .readLength => t.readLength
  | .targetAddress => t.i2cAddress
  | .registerOffset => t.regOffset

section Projections

@[simp] theorem ticks_append (a b : List Note) : ticks (a ++ b) = ticks a ++ ticks b :=
  List.filterMap_append

@[simp] theorem writesU32_append (channel : U32Channel) (a b : List Note) :
    writesU32 channel (a ++ b) = writesU32 channel a ++ writesU32 channel b :=
  List.filterMap_append

@[simp] theorem writesU8_append (channel : U8Channel) (a b : List Note) :
    writesU8 channel (a ++ b) = writesU8 channel a ++ writesU8 channel b :=
  List.filterMap_append

@[simp] theorem readWords_append (a b : List Note) :
    readWords (a ++ b) = readWords a ++ readWords b :=
  List.filterMap_append

@[simp] theorem ticks_preparing (op : State) : ticks (preparing op) = [] := by
  cases op <;> rfl

@[simp] theorem writesU32_preparing (channel : U32Channel) (op : State) :
    writesU32 channel (preparing op) = [] := by
  cases op <;> rfl

@[simp] theorem writesU8_preparing (channel : U8Channel) (op : State) :
    writesU8 channel (preparing op) = [] := by
  cases op <;> rfl

@[simp] theorem readWords_preparing (op : State) : readWords (preparing op) = [] := by
  cases op <;> rfl

theorem writesU32_other {channel channel' : U32Channel} {value : UInt32} {rest : List Note}
    (other : channel' ≠ channel) :
    writesU32 channel (.tlmU32 channel' value :: rest) = writesU32 channel rest := by
  simp [writesU32, other]

/-- No counter is reported on the data channels. -/
theorem Counter.channel_ne_data (c : Counter) :
    .readData0 ≠ c.channel ∧ .readData1 ≠ c.channel := by
  cases c <;> simp [channel]

/-- Writing one counter's channel writes no other counter's. -/
theorem writesU32_channel (c d : Counter) (value : UInt32) (rest : List Note) :
    writesU32 c.channel (.tlmU32 d.channel value :: rest) =
      if d = c then value :: writesU32 c.channel rest else writesU32 c.channel rest := by
  by_cases same : d = c
  · subst same
    simp [writesU32]
  · have other : d.channel ≠ c.channel := fun h => same (Counter.channel_injective h)
    rw [writesU32_other other, if_neg same]

end Projections

/-- The counter dictated by the outcome of the transaction that an entry ends. A
request that cannot leave ends right away. -/
def outcome? (ports : Ports) (t : I2cTester) : Input → Option Counter
  | .writeReadCompleteIn _ rx status =>
      if rx.data ≠ .readBuffer 0 then none
      else if status ≠ .ok then some (errorCounter status)
      else if rx.size < t.readLength.toNat then some .shortReads
      else some .txnCount
  | .writeCompleteIn _ status =>
      if status ≠ .ok then some (errorCounter status) else some .txnCount
  | m =>
      match t.attempt? m with
      | some op => if t.state = .idle ∧ ports.connected op = false then some .openErrors
          else none
      | none => none

/-- The counter an entry ticks, if it ticks one. -/
def tick? (ports : Ports) (t : I2cTester) (m : Input) : Option Counter :=
  if (t.attempt? m).isSome ∧ t.state ≠ .idle then some .busyRejects else outcome? ports t m

section Outcome

variable {ports : Ports} {t : I2cTester} {m : Input}

theorem outcome_of_attempt {op : State} (attempt : t.attempt? m = some op) :
    outcome? ports t m =
      if t.state = .idle ∧ ports.connected op = false then some .openErrors else none := by
  obtain ⟨_, ⟨rfl, _⟩ | ⟨_, _, rfl, _⟩ | ⟨_, _, _, rfl, _⟩⟩ := attempt_cases attempt
  · simp [outcome?, attempt]
  · simp [outcome?, attempt]
  · simp [outcome?, attempt]

theorem outcome_of_entry (entry : m.completion? = none) (calm : t.attempt? m = none) :
    outcome? ports t m = none := by
  cases m with
  | writeReadCompleteIn => cases entry
  | writeCompleteIn => cases entry
  | _ => simp [outcome?, calm]

theorem outcome_of_failed {tx : Buffer} {status : I2cStatus}
    (completion : m.completion? = some (tx, status)) (pointer : m.PassesPointer)
    (error : status ≠ .ok) : outcome? ports t m = some (errorCounter status) := by
  cases m with
  | writeReadCompleteIn tx' rx status' =>
      obtain ⟨rfl, rfl⟩ := Prod.mk.inj (Option.some.inj completion)
      have own : rx.data = .readBuffer 0 := pointer
      simp [outcome?, own, error]
  | writeCompleteIn buffer status' =>
      obtain ⟨rfl, rfl⟩ := Prod.mk.inj (Option.some.inj completion)
      simp [outcome?, error]
  | _ => cases completion

theorem outcome_of_stray (pointer : ¬m.PassesPointer) : outcome? ports t m = none := by
  cases m with
  | writeReadCompleteIn tx rx status =>
      have other : rx.data ≠ .readBuffer 0 := pointer
      simp [outcome?, other]
  | _ => exact absurd trivial pointer

theorem outcome_of_shortRead {tx rx : Buffer} (pointer : rx.data = .readBuffer 0)
    (short : rx.size < t.readLength.toNat) :
    outcome? ports t (.writeReadCompleteIn tx rx .ok) = some .shortReads := by
  simp [outcome?, pointer, short]

theorem outcome_of_readDone {tx rx : Buffer} (pointer : rx.data = .readBuffer 0)
    (enough : t.readLength.toNat ≤ rx.size) :
    outcome? ports t (.writeReadCompleteIn tx rx .ok) = some .txnCount := by
  simp [outcome?, pointer, Nat.not_lt.mpr enough]

/-- Unless an attempt is rejected, the counter ticked is that of the outcome. -/
theorem tick_eq_outcome (ready : t.attempt? m = none ∨ t.state = .idle) :
    tick? ports t m = outcome? ports t m := by
  refine if_neg ?_
  rintro ⟨attempt, busy⟩
  rcases ready with calm | idle
  · simp [calm] at attempt
  · exact busy idle

/-- A rejected attempt ends nothing. -/
theorem outcome_of_busy {op : State} (attempt : t.attempt? m = some op)
    (busy : t.state ≠ .idle) : outcome? ports t m = none := by
  rw [outcome_of_attempt attempt, if_neg]
  exact fun cut => busy cut.1

end Outcome

/-- A turn ticks a counter in all three of its records or in none: the member goes up
by one, the channel is written once with the new value, one event is emitted. -/
structure Ticked (t : I2cTester) (e : Effect) (tick : Option Counter) : Prop where
  member : ∀ c, e.state.counter c = if tick = some c then t.counter c + 1 else t.counter c
  event : ticks e.notes = tick.toList
  channel : ∀ c : Counter, writesU32 c.channel e.notes =
    if tick = some c then [t.counter c + 1] else []

section Ticked

variable {ports : Ports} {t : I2cTester} {m : Input} {e : Effect}

theorem Ticked.of_bump {d : Counter}
    (member : ∀ c, e.state.counter c = (t.bump d).counter c) (event : ticks e.notes = [d])
    (channel : ∀ c : Counter, writesU32 c.channel e.notes =
      if d = c then [t.counter d + 1] else []) : Ticked t e (some d) where
  member := by
    intro c
    rw [member c, counter_bump]
    by_cases same : c = d
    · simp [same]
    · simp [same, Ne.symm same]
  event := event
  channel := by
    intro c
    rw [channel c]
    by_cases same : d = c
    · simp [same]
    · simp [same]

theorem errorCounter_event {status : I2cStatus} (error : status ≠ .ok) (addr reg : UInt8) :
    (Event.i2cError status addr reg).counter? = some (errorCounter status) := by
  cases status with
  | ok => exact absurd rfl error
  | _ => rfl

theorem Ticked.silent {u : I2cTester} {notes : List Note} {exit : Option Port}
    {fault : Option Fault} (same : ∀ c, u.counter c = t.counter c) (quiet : ticks notes = [])
    (unwritten : ∀ c : Counter, writesU32 c.channel notes = []) :
    Ticked t ⟨notes, exit, u, fault⟩ none :=
  ⟨same, quiet, unwritten⟩

/-- An entry that asks for no operation and completes none ticks nothing. -/
theorem TurnCase.ticks_nothing (turn : TurnCase ports t m e) (calm : t.attempt? m = none)
    (entry : m.completion? = none) : Ticked t e none := by
  cases turn with
  | inactive => exact .silent (fun _ => rfl) rfl (fun _ => rfl)
  | refused => exact .silent (fun _ => rfl) rfl (fun _ => rfl)
  | settings accepted =>
      refine .silent (fun c => ?_) rfl (fun _ => rfl)
      rw [settings_only accepted]
      cases c <;> rfl
  | polling => exact .silent (fun c => by cases c <;> rfl) rfl (fun _ => rfl)
  | busy attempt => simp [calm] at attempt
  | issued attempt => simp [calm] at attempt
  | unwired attempt => simp [calm] at attempt
  | stray pointer => exact absurd (passes_of_entry entry) pointer
  | failed completion => simp [entry] at completion
  | storedWrite => exact .silent (fun c => by cases c <;> rfl) rfl (fun _ => rfl)
  | storedRead => exact .silent (fun c => by cases c <;> rfl) rfl (fun _ => rfl)
  | _ => cases entry

/-- An attempt ticks the rejections or the open errors, or nothing once it is issued. -/
theorem AttemptCase.ticked {op : State} (turn : AttemptCase ports t m op e)
    (attempt : t.attempt? m = some op) : Ticked t e (tick? ports t m) := by
  cases turn with
  | busy active =>
      have tick : tick? ports t m = some .busyRejects :=
        if_pos ⟨by simp [attempt], active⟩
      rw [tick]
      refine .of_bump (fun _ => rfl) rfl ?_
      intro c
      exact writesU32_channel c .busyRejects (t.busyRejects + 1) []
  | issued idle wired =>
      rw [tick_eq_outcome (.inr idle), outcome_of_attempt attempt, if_neg (by simp [wired])]
      exact .silent (prepared_counter t m) (ticks_preparing _)
        (fun c => writesU32_preparing c.channel _)
  | unwired idle cut =>
      rw [tick_eq_outcome (.inr idle), outcome_of_attempt attempt, if_pos ⟨idle, cut⟩]
      refine .of_bump (fun c => ?_) ?_ ?_
      · change ((t.prepared m).bump .openErrors).counter c = (t.bump .openErrors).counter c
        rw [counter_bump, counter_bump, prepared_counter, prepared_counter]
      · rw [ticks_append, ticks_preparing]
        rfl
      · intro c
        rw [writesU32_append, writesU32_preparing]
        exact writesU32_channel c .openErrors (t.openErrors + 1) _

/-- A completion ticks the counter of its outcome, and none if it is stray. -/
theorem CompletionCase.ticked (turn : CompletionCase t m e) (calm : t.attempt? m = none) :
    Ticked t e (tick? ports t m) := by
  rw [tick_eq_outcome (.inl calm)]
  cases turn with
  | stray pointer =>
      rw [outcome_of_stray pointer]
      exact .silent (fun _ => rfl) rfl (fun _ => rfl)
  | @failed _ tx status completion pointer error =>
      rw [outcome_of_failed completion pointer error]
      refine .of_bump (fun _ => rfl) ?_ ?_
      · simp [ticks, errorCounter_event error]
      · intro c
        exact writesU32_channel c (errorCounter status) _ _
  | shortRead pointer short =>
      rw [outcome_of_shortRead pointer short]
      refine .of_bump (fun _ => rfl) rfl ?_
      intro c
      exact writesU32_channel c .shortReads (t.shortReads + 1) _
  | readDone pointer enough =>
      rw [outcome_of_readDone pointer enough]
      refine .of_bump (fun _ => rfl) rfl ?_
      intro c
      obtain ⟨first, second⟩ := c.channel_ne_data
      refine (writesU32_other first).trans ((writesU32_other second).trans ?_)
      exact writesU32_channel c .txnCount (t.txnCount + 1) _
  | @writeDone buffer =>
      have outcome : outcome? ports t (.writeCompleteIn buffer .ok) = some .txnCount := rfl
      rw [outcome]
      refine .of_bump (fun _ => rfl) rfl ?_
      intro c
      exact writesU32_channel c .txnCount (t.txnCount + 1) _

/-- Every turn ticks just the counter its entry asks for. -/
theorem TurnCase.ticked (turn : TurnCase ports t m e) : Ticked t e (tick? ports t m) := by
  cases attempt : t.attempt? m with
  | some op => exact (turn.of_attempt attempt).ticked attempt
  | none =>
      cases completion : m.completion? with
      | some c => exact (turn.of_completion (by simp [completion])).ticked attempt
      | none =>
          rw [tick_eq_outcome (.inl attempt), outcome_of_entry completion attempt]
          exact turn.ticks_nothing attempt completion

/-- Data words are written together with the event that carries them. -/
theorem TurnCase.words_written (turn : TurnCase ports t m e) :
    writesU32 .readData0 e.notes = (readWords e.notes).map Prod.fst ∧
      writesU32 .readData1 e.notes = (readWords e.notes).map Prod.snd := by
  cases turn with
  | unwired =>
      rw [writesU32_append, writesU32_append, readWords_append, writesU32_preparing,
        writesU32_preparing, readWords_preparing]
      exact ⟨rfl, rfl⟩
  | issued =>
      rw [writesU32_preparing, writesU32_preparing, readWords_preparing]
      exact ⟨rfl, rfl⟩
  | @failed _ _ status =>
      constructor
      · cases errorCounter status <;> rfl
      · cases errorCounter status <;> rfl
  | _ => exact ⟨rfl, rfl⟩

/-- Words are reported by an OK read completion that hands back enough bytes, and by
nothing else. They are the first bytes of the receive buffer then. -/
theorem TurnCase.read_reported (turn : TurnCase ports t m e) :
    (readWords e.notes = [] ∧
      ∀ tx rx, m = .writeReadCompleteIn tx rx .ok → rx.data = .readBuffer 0 →
        rx.size < t.readLength.toNat) ∨
    ∃ tx rx words, m = .writeReadCompleteIn tx rx .ok ∧ rx.data = .readBuffer 0 ∧
      t.readLength.toNat ≤ rx.size ∧ readWords e.notes = [(words.get 0, words.get 1)] ∧
      octets words = padded t.readBuffer t.readLength.toNat := by
  have silent : m.completion? = none → readWords e.notes = [] →
      readWords e.notes = [] ∧ ∀ tx rx, m = .writeReadCompleteIn tx rx .ok →
        rx.data = .readBuffer 0 → rx.size < t.readLength.toNat := by
    intro entry quiet
    refine ⟨quiet, ?_⟩
    rintro tx rx rfl
    cases entry
  cases turn with
  | inactive => exact .inl (silent rfl rfl)
  | refused refusal => exact .inl (silent (completion_of_refusal refusal) rfl)
  | settings accepted => exact .inl (silent (completion_of_settings accepted) rfl)
  | polling => exact .inl (silent rfl rfl)
  | busy attempt => exact .inl (silent (completion_of_attempt attempt) rfl)
  | issued attempt =>
      exact .inl (silent (completion_of_attempt attempt) (readWords_preparing _))
  | unwired attempt =>
      refine .inl (silent (completion_of_attempt attempt) ?_)
      rw [readWords_append, readWords_preparing]
      rfl
  | stray pointer =>
      refine .inl ⟨rfl, ?_⟩
      rintro tx rx rfl own
      exact absurd own pointer
  | failed completion _ error =>
      refine .inl ⟨rfl, ?_⟩
      rintro tx rx rfl _
      obtain ⟨_, rfl⟩ := Prod.mk.inj (Option.some.inj completion)
      exact absurd rfl error
  | shortRead _ short =>
      refine .inl ⟨rfl, ?_⟩
      rintro tx rx same _
      cases same
      exact short
  | @readDone tx rx words pointer enough packed =>
      exact .inr ⟨tx, rx, words, rfl, pointer, enough, rfl, packed⟩
  | writeDone =>
      refine .inl ⟨rfl, ?_⟩
      rintro tx rx same
      cases same
  | storedWrite => exact .inl (silent rfl rfl)
  | storedRead => exact .inl (silent rfl rfl)

@[simp] theorem setting_bump_finished (u : I2cTester) (c : Counter) (channel : U8Channel) :
    (u.bump c).finished.setting channel = u.setting channel := by
  cases channel <;> simp [setting, finished]

theorem setting_prepared (t : I2cTester) (m : Input) (channel : U8Channel) :
    (t.prepared m).setting channel = t.setting channel := by
  obtain ⟨address, offset, length, _⟩ := prepared_settings t m
  cases channel with
  | readLength => exact length
  | targetAddress => exact address
  | registerOffset => exact offset

/-- A setting that changes is written in the same turn, and with its new value. -/
theorem TurnCase.settings_written (turn : TurnCase ports t m e) (channel : U8Channel) :
    (writesU8 channel e.notes).getLast?.getD (t.setting channel) =
      e.state.setting channel := by
  cases turn with
  | settings => cases channel <;> rfl
  | polling => cases channel <;> rfl
  | busy => cases channel <;> rfl
  | issued =>
      rw [writesU8_preparing]
      exact (setting_prepared t m channel).symm
  | unwired =>
      rw [writesU8_append, writesU8_preparing]
      simp [writesU8, setting_prepared]
  | readDone => cases channel <;> rfl
  | storedWrite => cases channel <;> rfl
  | storedRead => cases channel <;> rfl
  | _ => simp [writesU8]

end Ticked

/-- Members, channels and events tell the same. -/
structure Consistent (t : I2cTester) (notes : List Note) : Prop where
  counted : ∀ c, t.counter c = UInt32.ofNat ((ticks notes).count c)
  reported : ∀ c : Counter, (writesU32 c.channel notes).getLast?.getD 0 = t.counter c
  data0 : writesU32 .readData0 notes = (readWords notes).map Prod.fst
  data1 : writesU32 .readData1 notes = (readWords notes).map Prod.snd
  settings : ∀ channel value, (writesU8 channel notes).getLast? = some value →
    t.setting channel = value

theorem Consistent.turn {ports : Ports} {t : I2cTester} {m : Input} {e : Effect}
    {notes : List Note} (h : Consistent t notes) (turn : TurnCase ports t m e) :
    Consistent e.state (notes ++ e.notes) where
  counted := by
    intro c
    rw [turn.ticked.member, ticks_append, turn.ticked.event, List.count_append, h.counted c]
    by_cases own : tick? ports t m = some c
    · rw [if_pos own, own, UInt32.ofNat_add]
      simp
    · have none_of_it : (tick? ports t m).toList.count c = 0 := by
        rw [List.count_eq_zero, Option.mem_toList]
        exact own
      rw [if_neg own, none_of_it, Nat.add_zero]
  reported := by
    intro c
    rw [writesU32_append, turn.ticked.channel, turn.ticked.member, List.getLast?_append]
    by_cases own : tick? ports t m = some c
    · simp [own]
    · simpa [own] using h.reported c
  data0 := by
    rw [writesU32_append, readWords_append, List.map_append, h.data0, turn.words_written.1]
  data1 := by
    rw [writesU32_append, readWords_append, List.map_append, h.data1, turn.words_written.2]
  settings := by
    intro channel value last
    have now := turn.settings_written channel
    rw [writesU8_append, List.getLast?_append] at last
    cases own : (writesU8 channel e.notes).getLast? with
    | none =>
        rw [own, Option.none_or] at last
        rw [own] at now
        exact now.symm.trans (h.settings channel value last)
    | some written =>
        rw [own, Option.some_or] at last
        rw [own] at now
        exact now.symm.trans (Option.some.inj last)

theorem consistent_kept (ports : Ports) :
    Kept ports fun w => Consistent w.state (Log.notes w.log) where
  turn := by
    intro t log m e _ holds turn
    rw [Log.notes_turn]
    exact holds.turn turn
  back := by
    intro t log o holds
    rw [Log.notes_back]
    exact holds

/-- After every run, in any environment: each counter is the number of its events
modulo 2^32 and the last value on its channel, or 0 if that was never written; the
last data words are those of the last read reported complete; and each setting that
was ever written is the last value on its channel. -/
theorem counters_events_telemetry (ports : Ports) (calls : List (Call Input)) :
    (∀ c, (execute ports calls).state.counter c =
      UInt32.ofNat ((ticks (Log.notes (execute ports calls).log)).count c)) ∧
    (∀ c : Counter,
      (writesU32 c.channel (Log.notes (execute ports calls).log)).getLast?.getD 0 =
        (execute ports calls).state.counter c) ∧
    (writesU32 .readData0 (Log.notes (execute ports calls).log)).getLast? =
      (readWords (Log.notes (execute ports calls).log)).getLast?.map Prod.fst ∧
    (writesU32 .readData1 (Log.notes (execute ports calls).log)).getLast? =
      (readWords (Log.notes (execute ports calls).log)).getLast?.map Prod.snd ∧
    ∀ channel value,
      (writesU8 channel (Log.notes (execute ports calls).log)).getLast? = some value →
      (execute ports calls).state.setting channel = value := by
  have start : Consistent init [] :=
    ⟨by intro c; cases c <;> rfl, by intro c; cases c <;> rfl, rfl, rfl,
      by intro channel value last; cases last⟩
  obtain ⟨_, holds⟩ := (consistent_kept ports).execute start calls
  refine ⟨holds.counted, holds.reported, ?_, ?_, holds.settings⟩
  · rw [holds.data0, List.getLast?_map]
  · rw [holds.data1, List.getLast?_map]

end CuriosityReference.I2cTester
