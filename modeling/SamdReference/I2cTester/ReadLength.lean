import SamdReference.I2cTester.Driver

/-!
# The length of a read in flight

A read is issued with the configured length of that moment, and its completion is
judged by the configured length of the moment it arrives. The two are the same
member, which `SET_REGISTER` and `configure` may change in between.
-/

namespace CuriosityReference.I2cTester

open Reentrant (Call)

/-- How a write-read that completed OK is treated if it asked for `n` bytes: a short
read exactly if fewer came back, else a success that reports the first `n`. -/
def ReadAs (t : I2cTester) (tx rx : Buffer) (n : Nat) (e : Effect) : Prop :=
  ∃ length : UInt8, length.toNat = n ∧
    if rx.size < n then
      e = ⟨[.tlmU32 .shortReads (t.shortReads + 1),
          .event (.shortRead length (UInt8.ofNat rx.size))],
        t.reply false, (t.bump .shortReads).finished, none⟩
    else
      ∃ words, octets words = padded t.readBuffer n ∧
        e = ⟨[.tlmU32 .readData0 (words.get 0), .tlmU32 .readData1 (words.get 1),
            .tlmU8 .readLength length, .tlmU32 .txnCount (t.txnCount + 1),
            .event (.readComplete (recoverRegOffset t tx) length (words.get 0) (words.get 1))],
          t.reply true, (t.bump .txnCount).finished, none⟩

/-- A write-read issued for `n` bytes completes OK: the descriptors handed back and
the members the completion finds. -/
def ReadEnds (log : History) (n : Nat) (tx rx : Buffer) (t : I2cTester) : Prop :=
  ∃ pre post addr txBuf rxBuf wire,
    log = pre ++ .recv (.writeReadCompleteIn tx rx .ok) t :: post ∧
    ends? Request.samePointer pre (.writeReadCompleteIn tx rx .ok) =
      some ⟨.writeRead addr txBuf rxBuf, wire⟩ ∧ rxBuf.size = n

section Completion

variable {ports : Ports} {t : I2cTester} {tx rx : Buffer} {e : Effect}

/-- The length that counts is the configured one. -/
theorem TurnCase.readAs (turn : TurnCase ports t (.writeReadCompleteIn tx rx .ok) e)
    (pointer : rx.data = .readBuffer 0) : ReadAs t tx rx t.readLength.toNat e := by
  refine ⟨t.readLength, rfl, ?_⟩
  cases turn.of_completion rfl with
  | stray fails => exact absurd pointer fails
  | failed completion _ error =>
      obtain ⟨_, rfl⟩ := Option.some.inj completion
      exact absurd rfl error
  | shortRead _ short => rw [if_pos short]
  | readDone _ enough packed =>
      rw [if_neg (Nat.not_lt.mpr enough)]
      exact ⟨_, packed, rfl⟩

/-- What a completed read reports tells the length it was taken to have. -/
theorem ReadAs.unique {n k : Nat} (first : ReadAs t tx rx n e)
    (second : ReadAs t tx rx k e) : n = k := by
  obtain ⟨length, rfl, first⟩ := first
  obtain ⟨length', rfl, second⟩ := second
  suffices length = length' by rw [this]
  split at first <;> split at second
  · rw [first] at second
    simpa using second
  · obtain ⟨words, _, second⟩ := second
    rw [first] at second
    simp at second
  · obtain ⟨words, _, first⟩ := first
    rw [first] at second
    simp at second
  · obtain ⟨words, _, first⟩ := first
    obtain ⟨words', _, second⟩ := second
    rw [first] at second
    simp only [Reentrant.Turn.mk.injEq, List.cons.injEq, Note.tlmU8.injEq] at second
    exact second.1.2.2.1.2

end Completion

/-- In every run whose driver completes each request once, on its callback port and
with its receive pointer, every OK read completion ends a read, and every such read
is treated by the length it was issued with if and only if the configured length is
that one again, or still, when each completion arrives. -/
theorem read_length_iff (ports : Ports) (calls : List (Call Input)) {xs : List Transaction}
    (contract : (awaiting Request.samePointer).replay (execute ports calls).log = some xs) :
    (∀ pre tx rx t post,
      (execute ports calls).log = pre ++ .recv (.writeReadCompleteIn tx rx .ok) t :: post →
      (∃ n, ReadEnds (execute ports calls).log n tx rx t) ∧
        Reentrant.Log.ownOutputs post =
          ((component ports).turn (.writeReadCompleteIn tx rx .ok) t).outputs) ∧
    ((∀ n tx rx t, ReadEnds (execute ports calls).log n tx rx t →
        ReadAs t tx rx n ((component ports).turn (.writeReadCompleteIn tx rx .ok) t)) ↔
      ∀ n tx rx t, ReadEnds (execute ports calls).log n tx rx t → t.readLength.toNat = n) := by
  have treated : ∀ n tx rx t, ReadEnds (execute ports calls).log n tx rx t →
      ReadAs t tx rx t.readLength.toNat
        ((component ports).turn (.writeReadCompleteIn tx rx .ok) t) := by
    rintro n tx rx t ⟨pre, post, addr, txb, rxb, wire, split, ends, _⟩
    obtain ⟨x, e, ended, matched, agree, turn, same, _⟩ :=
      awaiting_completion contract split rfl
    rw [same]
    exact turn.readAs (agree.passes matched)
  refine ⟨?_, ?_, ?_⟩
  · intro pre tx rx t post split
    obtain ⟨x, e, ended, matched, agree, turn, same, own⟩ :=
      awaiting_completion contract split rfl
    refine ⟨?_, by rw [same, own]⟩
    match x, matched with
    | ⟨.writeRead addr txb rxb, wire⟩, _ =>
        exact ⟨_, pre, post, addr, txb, rxb, wire, split, ended, rfl⟩
  · intro kept n tx rx t ends
    exact (treated n tx rx t ends).unique (kept n tx rx t ends)
  · intro unchanged n tx rx t ends
    have holds := treated n tx rx t ends
    rwa [unchanged n tx rx t ends] at holds

/-- A read of four bytes, the length raised to eight while it is in flight, and the
completion with the four bytes. -/
def raisedInFlight : List (Call Input) :=
  [.mk (.configure 0x50 0x10 4) [],
    .mk (.command 1 7 .readOnce) [],
    .mk (.command 2 8 (.setRegister 0x10 8)) [],
    .mk (.writeReadCompleteIn (txBuf 1) (rxBuf 4) .ok) []]

/-- The situation the completion finds. -/
def raised : Situation := execute ⟨true, true⟩ (raisedInFlight.take 3)

theorem read_length_iff_raised :
    (∀ n tx rx t, ReadEnds (execute ⟨true, true⟩ raisedInFlight).log n tx rx t →
      ReadAs t tx rx n
        ((component ⟨true, true⟩).turn (.writeReadCompleteIn tx rx .ok) t)) ↔
      ∀ n tx rx t, ReadEnds (execute ⟨true, true⟩ raisedInFlight).log n tx rx t →
        t.readLength.toNat = n :=
  (@read_length_iff ⟨true, true⟩ raisedInFlight [] (by decide)).2

/-- The four bytes asked for and received are reported as a short read of eight. -/
theorem read_length_not_kept :
    ¬∀ (ports : Ports) (calls : List (Call Input)) (xs : List Transaction),
      (awaiting Request.samePointer).replay (execute ports calls).log = some xs →
      ∀ n tx rx t, ReadEnds (execute ports calls).log n tx rx t →
        ReadAs t tx rx n ((component ports).turn (.writeReadCompleteIn tx rx .ok) t) := by
  intro all
  have ends : ReadEnds (execute ⟨true, true⟩ raisedInFlight).log 4 (txBuf 1) (rxBuf 4)
      raised.state :=
    ⟨raised.log, (execute ⟨true, true⟩ raisedInFlight).log.drop (raised.log.length + 1),
      0x50, txBuf 1, rxBuf 4, #v[0x10, 0], by decide, by decide, rfl⟩
  obtain ⟨_, _, treated⟩ := all ⟨true, true⟩ raisedInFlight [] (by decide) 4 _ _ _ ends
  rw [if_neg (by decide)] at treated
  obtain ⟨words, _, same⟩ := treated
  have exit : ((component ⟨true, true⟩).turn
      (.writeReadCompleteIn (txBuf 1) (rxBuf 4) .ok) raised.state).exit =
      raised.state.reply true := congrArg Reentrant.Turn.exit same
  exact absurd exit (by decide)

end CuriosityReference.I2cTester
