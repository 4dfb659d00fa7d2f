import SamdReference.I2cTester.Driver
import SamdReference.I2cTester.Telemetry

/-!
# What the data words and the length channel say

A successful read packs as many bytes as the configured length into two words. The
words alone do not tell how many bytes are behind them; the length channel is meant
to, and the settings are reported on the same channel.
-/

namespace CuriosityReference.I2cTester

open Reentrant (Call Log Component)

/-- The configured read lengths that runs end with are the legal ones. -/
theorem reachable_length_iff {len : UInt8} :
    (∃ ports calls, (execute ports calls).state.readLength = len) ↔ LegalLength len := by
  constructor
  · rintro ⟨ports, calls, rfl⟩
    exact (execute_legal ports calls).length
  · intro legal
    refine ⟨⟨true, true⟩, [.mk (.configure 0x50 0 len) []], ?_⟩
    have address : LegalAddress 0x50 := by decide
    obtain ⟨left, _⟩ := Component.run_leaf (component_callsLast ⟨true, true⟩)
      (.configure 0x50 0 len) (w := .start init) rfl
    have accepted : ((component ⟨true, true⟩).turn (.configure 0x50 0 len)
        init).state.readLength = len := by
      simp [Component.turn, component, configure, ← not_legalAddress_iff,
        ← not_legalLength_iff, address, legal, reportSettings_apply]
    exact (congrArg I2cTester.readLength left).trans accepted

/-- A read handed back with fewer bytes than configured packs nothing and shows both
sizes. A read with at least as many is packed without loss: the octets of the two
words are the bytes received and then zeros, event and channels carry the same words,
no byte is read outside the bytes handed back and no word index or shift leaves its
range. Two reads of one length that report the same words received the same bytes. -/
theorem packing_lossless {t : I2cTester}
    (reachable : ∃ ports calls, (execute ports calls).state.readLength = t.readLength)
    (len : Nat) (regOffset : UInt8) :
    (len < t.readLength.toNat →
      handleReadComplete (.readBuffer 0) len regOffset t =
        .note (.tlmU32 .shortReads (t.shortReads + 1))
          (.note (.event (.shortRead t.readLength (UInt8.ofNat len)))
            (.ret false (t.bump .shortReads))) ∧
      (UInt8.ofNat len).toNat = len) ∧
    (t.readLength.toNat ≤ len →
      (∀ i < t.readLength.toNat, i < len ∧ i / 4 < 2 ∧ 24 - 8 * (i % 4) ∈ [0, 8, 16, 24]) ∧
      ∃ words,
        packWords (fun i => if i < len then t.index? (.readBuffer 0) i else none)
          t.readLength.toNat = some words ∧
        handleReadComplete (.readBuffer 0) len regOffset t =
          .note (.tlmU32 .readData0 (words.get 0)) (.note (.tlmU32 .readData1 (words.get 1))
            (.note (.tlmU8 .readLength t.readLength)
              (.note (.tlmU32 .txnCount (t.txnCount + 1))
                (.note
                  (.event (.readComplete regOffset t.readLength (words.get 0) (words.get 1)))
                  (.ret true (t.bump .txnCount)))))) ∧
        octets words = padded t.readBuffer t.readLength.toNat ∧
        (∀ i : Fin 8, i.val < t.readLength.toNat →
          (octets words).get i = t.readBuffer.get i) ∧
        ∀ t' len' regOffset', t'.readLength = t.readLength → t.readLength.toNat ≤ len' →
          readWords (handleReadComplete (.readBuffer 0) len' regOffset' t').turn.notes =
            readWords (handleReadComplete (.readBuffer 0) len regOffset t).turn.notes →
          ∀ i : Fin 8, i.val < t.readLength.toNat →
            t'.readBuffer.get i = t.readBuffer.get i) := by
  have legal : LegalLength t.readLength := reachable_length_iff.mp reachable
  have bound := legal.toNat.2
  refine ⟨?_, ?_⟩
  · intro short
    refine ⟨handleReadComplete_short t regOffset short, ?_⟩
    rw [UInt8.toNat_ofNat']
    omega
  · intro enough
    obtain ⟨words, packed, spelled⟩ := packWords_octets t.index_readBuffer bound
    have reads := handleReadComplete_packed t regOffset (Nat.not_lt.mpr enough) packed
    refine ⟨?_, words, ?_, reads, spelled, ?_, ?_⟩
    · intro i below
      refine ⟨by omega, by omega, ?_⟩
      have slot : i % 4 = 0 ∨ i % 4 = 1 ∨ i % 4 = 2 ∨ i % 4 = 3 := by omega
      rcases slot with h | h | h | h <;> simp [h]
    · rw [← packed]
      apply packWords_congr
      intro i below
      exact if_pos (by omega)
    · intro i below
      rw [spelled, padded, ofFn_get, if_pos below]
    · intro t' len' regOffset' length enough' same i below
      obtain ⟨words', packed', spelled'⟩ :=
        packWords_octets t'.index_readBuffer (length ▸ bound : t'.readLength.toNat ≤ 8)
      rw [reads, handleReadComplete_packed t' regOffset' (by rw [length]; omega) packed'] at same
      have alike : (words'.get 0, words'.get 1) = (words.get 0, words.get 1) :=
        List.singleton_inj.mp same
      obtain rfl := words_ext (Prod.mk.inj alike).1 (Prod.mk.inj alike).2
      have byte := congrArg (fun v => v.get i) (spelled'.symm.trans spelled)
      simpa only [padded, ofFn_get, length, if_pos below] using byte

/-- Two bytes asked for and stored, before the completion arrives. -/
def pairStored : I2cTester :=
  (execute ⟨true, true⟩
    [.mk (.configure 0x50 0x10 2) [], .mk (.command 1 7 .readOnce) [],
      .mk (.storeReadBuffer 0 0xAB) [], .mk (.storeReadBuffer 1 0xCD) []]).state

theorem packing_lossless_pair :
    ∃ words, octets words = padded pairStored.readBuffer 2 ∧
      readWords (handleReadComplete (.readBuffer 0) 2 0x10 pairStored).turn.notes =
        [(words.get 0, words.get 1)] := by
  obtain ⟨_, words, _, reads, spelled, _⟩ :=
    (@packing_lossless pairStored ⟨_, _, rfl⟩ 2 0x10).2 (by decide)
  exact ⟨words, spelled, by rw [reads]; rfl⟩

/-- The lengths of the reads reported complete. -/
def readLengths (notes : List Note) : List UInt8 :=
  notes.filterMap fun
    | .event (.readComplete _ length _ _) => some length
    | _ => none

@[simp] theorem readLengths_append (a b : List Note) :
    readLengths (a ++ b) = readLengths a ++ readLengths b :=
  List.filterMap_append

@[simp] theorem readLengths_preparing (op : State) : readLengths (preparing op) = [] := by
  cases op <;> rfl

/-- The read length an accepted `configure` or `SET_REGISTER` carries. -/
def Input.newLength? : Input → Option UInt8
  | .configure addr _ len => if LegalAddress addr ∧ LegalLength len then some len else none
  | .command _ _ (.setRegister _ len) => if LegalLength len then some len else none
  | _ => none

/-- Once a read has succeeded, the last value on the length channel is the configured
length and also the number of bytes behind the last data words. -/
def Described (t : I2cTester) (log : History) : Prop :=
  ∀ len, (readLengths (Log.notes log)).getLast? = some len →
    (writesU8 .readLength (Log.notes log)).getLast? = some t.readLength ∧
      (writesU8 .readLength (Log.notes log)).getLast? = some len

/-- A read length accepted after a successful read is the configured one. -/
def KeepsLength (m : Input) (t : I2cTester) (log : History) : Prop :=
  ∀ len, m.newLength? = some len → readLengths (Log.notes log) ≠ [] → len = t.readLength

section LengthChannel

variable {ports : Ports} {t : I2cTester} {m : Input} {e : Effect}

theorem newLength_of_settings {u : I2cTester} (accepted : t.settings? m = some u) :
    u.readLength = m.newLength?.getD t.readLength := by
  obtain ⟨_, _, _, rfl, address, length, rfl⟩ | ⟨_, _, _, rfl, _, rfl⟩ |
    ⟨_, _, _, _, rfl, length, rfl⟩ := settings_cases accepted
  · simp [Input.newLength?, address, length]
  · rfl
  · simp [Input.newLength?, length]

theorem newLength_of_other (refused : t.settings? m = none) : m.newLength? = none := by
  cases m with
  | configure addr reg len => simpa [settings?, Input.newLength?] using refused
  | command opCode cmdSeq cmd =>
      cases cmd with
      | setRegister reg len => simpa [settings?, Input.newLength?] using refused
      | _ => rfl
  | _ => rfl

/-- What a turn means to the length channel: nothing, a report of the settings, or a
report of a read. -/
theorem TurnCase.length_written (turn : TurnCase ports t m e) :
    (readLengths e.notes = [] ∧ writesU8 .readLength e.notes = [] ∧
      e.state.readLength = t.readLength ∧ m.newLength? = none) ∨
    (readLengths e.notes = [] ∧ writesU8 .readLength e.notes = [e.state.readLength] ∧
      e.state.readLength = m.newLength?.getD t.readLength) ∨
    (readLengths e.notes = [t.readLength] ∧ writesU8 .readLength e.notes = [t.readLength] ∧
      e.state.readLength = t.readLength ∧ m.newLength? = none) := by
  cases turn with
  | inactive => exact .inl ⟨rfl, rfl, rfl, rfl⟩
  | refused refusal =>
      exact .inl ⟨rfl, rfl, rfl, newLength_of_other (settings_of_refusal refusal)⟩
  | settings accepted => exact .inr (.inl ⟨rfl, rfl, newLength_of_settings accepted⟩)
  | polling => exact .inl ⟨rfl, rfl, rfl, rfl⟩
  | busy attempt =>
      exact .inl ⟨rfl, rfl, bump_readLength t _,
        newLength_of_other (settings_of_attempt attempt)⟩
  | issued attempt =>
      exact .inl ⟨readLengths_preparing _, writesU8_preparing _ _, setting_prepared t m .readLength,
        newLength_of_other (settings_of_attempt attempt)⟩
  | unwired attempt =>
      refine .inl ⟨?_, ?_, ?_, newLength_of_other (settings_of_attempt attempt)⟩
      · rw [readLengths_append, readLengths_preparing]
        rfl
      · rw [writesU8_append, writesU8_preparing]
        rfl
      · exact (setting_bump_finished _ _ .readLength).trans (setting_prepared t m .readLength)
  | stray pointer =>
      exact .inl ⟨rfl, rfl, rfl,
        newLength_of_other (@settings_of_completion t m (completion_of_stray pointer))⟩
  | failed completion =>
      exact .inl ⟨rfl, rfl, setting_bump_finished t _ .readLength,
        newLength_of_other (@settings_of_completion t m (by simp [completion]))⟩
  | shortRead => exact .inl ⟨rfl, rfl, rfl, rfl⟩
  | readDone => exact .inr (.inr ⟨rfl, rfl, rfl, rfl⟩)
  | writeDone => exact .inl ⟨rfl, rfl, rfl, rfl⟩
  | storedWrite => exact .inl ⟨rfl, rfl, rfl, rfl⟩
  | storedRead => exact .inl ⟨rfl, rfl, rfl, rfl⟩

/-- The last read reported packed as many bytes as are configured. -/
theorem Described.last_length {log : History} (described : Described t log) {len : UInt8}
    (last : (readLengths (Log.notes log)).getLast? = some len) : len = t.readLength := by
  obtain ⟨configured, packed⟩ := described len last
  rw [configured] at packed
  exact (Option.some.inj packed).symm

/-- From a channel that describes the data, exactly a length accepted after a
successful read and different from the configured one breaks the description. -/
theorem TurnCase.described_iff (turn : TurnCase ports t m e) {log : History}
    (before : Described t log) :
    Described e.state (log ++ .recv m t :: e.log) ↔ KeepsLength m t log := by
  rw [Described, Log.notes_turn, KeepsLength, readLengths_append, writesU8_append]
  rcases turn.length_written with ⟨reads, writes, same, none⟩ | ⟨reads, writes, next⟩ |
    ⟨reads, writes, same, none⟩
  · rw [reads, writes, List.append_nil, List.append_nil, same]
    exact iff_of_true before (by simp [none])
  · rw [reads, writes, List.append_nil, List.getLast?_concat]
    constructor
    · intro after len accepted some_read
      obtain ⟨last, read⟩ := Option.ne_none_iff_exists'.mp
        (mt List.getLast?_eq_none_iff.mp some_read)
      have now := (after last read).2
      rw [next, accepted, Option.getD_some, before.last_length read] at now
      exact Option.some.inj now
    · intro kept len last
      have same : e.state.readLength = t.readLength := by
        rw [next]
        cases accepted : m.newLength? with
        | none => rfl
        | some length =>
            apply kept length accepted
            intro none
            rw [none] at last
            cases last
      rw [same, before.last_length last]
      exact ⟨rfl, rfl⟩
  · have after : ∀ len, (readLengths (Log.notes log) ++ [t.readLength]).getLast? = some len →
        (writesU8 .readLength (Log.notes log) ++ [t.readLength]).getLast? = some t.readLength ∧
          (writesU8 .readLength (Log.notes log) ++ [t.readLength]).getLast? = some len := by
      intro len last
      rw [List.getLast?_concat] at last ⊢
      exact ⟨rfl, last⟩
    rw [reads, writes, same]
    exact iff_of_true after (by simp [none])

/-- The length in the event is the number of bytes packed into the words. -/
theorem TurnCase.length_packed (turn : TurnCase ports t m e) {reg len : UInt8}
    {words : Vector UInt32 2}
    (member : .event (.readComplete reg len (words.get 0) (words.get 1)) ∈ e.notes) :
    len = t.readLength ∧ octets words = padded t.readBuffer len.toNat := by
  cases turn with
  | @readDone tx rx words' pointer enough packed =>
      simp only [List.mem_cons, Note.event.injEq, Event.readComplete.injEq, reduceCtorEq,
        List.not_mem_nil, or_false, false_or] at member
      obtain ⟨_, rfl, first, second⟩ := member
      obtain rfl := words_ext first second
      exact ⟨rfl, packed⟩
  | @issued m op => cases op <;> simp [preparing] at member
  | @unwired m op => cases op <;> simp [preparing] at member
  | _ => simp at member

end LengthChannel

/-- In every run, in any environment: each read reported complete packed as many bytes
as its event says, and the length channel describes the last data words in every
state that a handler leaves if and only if every `configure` or `SET_REGISTER` that is
accepted after a successful read carries the read length configured already. -/
theorem read_length_channel_iff (ports : Ports) (calls : List (Call Input)) :
    Log.EachEntry (fun m t _ => ∀ reg len words,
        .event (.readComplete reg len (words.get 0) (words.get 1)) ∈
          ((component ports).turn m t).notes →
        len = t.readLength ∧ octets words = padded t.readBuffer len.toNat)
      (execute ports calls).log ∧
    (Log.EachEntry ((component ports).After Described) (execute ports calls).log ↔
      Log.EachEntry KeepsLength (execute ports calls).log) ∧
    (Log.EachEntry KeepsLength (execute ports calls).log →
      Described (execute ports calls).state (execute ports calls).log) := by
  have step : ∀ {m t log}, t.Legal ∧ Described t log →
      ((component ports).After (fun t log => t.Legal ∧ Described t log) m t log ↔
        KeepsLength m t log) := by
    rintro m t log ⟨legal, described⟩
    have turn := component_turn ports legal m
    exact (and_iff_right (turn.legal legal)).trans (turn.described_iff described)
  have back : ∀ {t log o}, t.Legal ∧ Described t log →
      t.Legal ∧ Described t (log ++ [.back o]) := by
    rintro t log o ⟨legal, described⟩
    refine ⟨legal, ?_⟩
    rwa [Described, Log.notes_back]
  obtain ⟨every, final⟩ := Component.every_turn_iff (component_callsLast ports)
    (P := fun t log => t.Legal ∧ Described t log) ⟨init_legal, nofun⟩ step back calls
  refine ⟨?_, ⟨?_, ?_⟩, ?_⟩
  · intro pre m t post split reg len words member
    obtain ⟨_, e, turn, rfl, _⟩ := entry_turn split
    exact turn.length_packed member
  · intro described
    refine every.mp ?_
    intro pre m t post split
    obtain ⟨legal, e, turn, rfl, _⟩ := entry_turn split
    exact ⟨turn.legal legal, described pre m t post split⟩
  · intro kept pre m t post split
    exact (every.mpr kept pre m t post split).2
  · intro kept
    exact (final kept).2

/-- A read of four bytes, and the read length raised to eight after it. -/
def raisedAfter : List (Call Input) :=
  [.mk (.configure 0x50 0x10 4) [],
    .mk (.command 1 7 .readOnce) [],
    .mk (.writeReadCompleteIn (txBuf 1) (rxBuf 4) .ok) [],
    .mk (.command 2 8 (.setRegister 0x10 8)) []]

/-- The channel says eight while four bytes are behind the data words. -/
theorem read_length_channel_not_kept :
    ¬∀ (ports : Ports) (calls : List (Call Input)) (xs : List Transaction),
      (awaiting Request.identical).replay (execute ports calls).log = some xs →
      Described (execute ports calls).state (execute ports calls).log := by
  intro all
  obtain ⟨_, described⟩ := all ⟨true, true⟩ raisedAfter [] (by decide) 4 (by decide)
  exact absurd described (by decide)

end CuriosityReference.I2cTester
