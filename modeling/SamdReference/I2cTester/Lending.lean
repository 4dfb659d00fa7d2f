import Mathlib.Data.List.Induction
import SamdReference.I2cTester.Driver
import SamdReference.I2cTester.Telemetry

/-!
# What the driver stored

The driver borrows the receive buffer with each write-read and stores into it until
the next one goes out. The contract here is about the buffer alone: stores stay in
the descriptor lent last, and no more bytes are handed back than were lent. When or
how often a transaction completes is left open, so it covers late and repeated
completions too.
-/

namespace CuriosityReference.I2cTester

open Reentrant (Monitor World Call Log)

/-- The receive descriptor lent last and what was stored since. -/
structure Lent where
  size : Nat
  stores : List (Fin 8 × UInt8)
  deriving DecidableEq

/-- The receive descriptor that goes out with a call. -/
def Port.lends? : Port → Option Buffer
  | .i2cWriteReadOut _ _ rxBuf => some rxBuf
  | _ => none

/-- Stores stay inside the descriptor lent last, and a completion hands back at most
as many bytes as were lent. -/
def lending : Monitor I2cTester Input Port (Option Lent) where
  start := none
  recv m _ lent :=
    match m with
    | .storeReadBuffer i byte =>
        match lent with
        | some l => if i.val < l.size then some (some ⟨l.size, l.stores ++ [(i, byte)]⟩)
            else none
        | none => none
    | .writeReadCompleteIn _ readBuffer _ =>
        if ∀ l ∈ lent, readBuffer.size ≤ l.size then some lent else none
    | _ => some lent
  call o _ lent := (o.lends?.map fun rxBuf => ⟨rxBuf.size, []⟩).or lent
  back _ lent := lent

/-- Everything stored since the last write-read went out. -/
def stored (lent : Option Lent) : List (Fin 8 × UInt8) := (lent.map Lent.stores).getD []

/-- A zero buffer after the given stores. -/
def received (stores : List (Fin 8 × UInt8)) : Vector UInt8 8 :=
  stores.foldl (fun buffer store => setByte buffer store.1 store.2) (Vector.replicate 8 0)

@[simp] theorem get_received_nil (i : Fin 8) : (received []).get i = 0 := by
  change (Vector.replicate 8 (0 : UInt8))[i.val] = 0
  rw [Vector.getElem_replicate]

@[simp] theorem received_append (stores : List (Fin 8 × UInt8)) (i : Fin 8) (byte : UInt8) :
    received (stores ++ [(i, byte)]) = setByte (received stores) i byte := by
  rw [received, List.foldl_append]
  rfl

/-- A byte of the buffer is zero or one that was stored there. -/
theorem received_cases (stores : List (Fin 8 × UInt8)) (i : Fin 8) :
    (received stores).get i = 0 ∨ (i, (received stores).get i) ∈ stores := by
  induction stores using List.reverseRecOn with
  | nil => exact .inl (get_received_nil i)
  | append_singleton stores last ih =>
      obtain ⟨j, byte⟩ := last
      rw [received_append, get_setByte]
      by_cases here : j = i
      · subst here
        simp
      · rw [if_neg here]
        exact ih.imp id fun member => List.mem_append_left _ member

/-- The receive buffer holds what was stored since the last write-read, as far as it
was lent; before the first one it is as constructed. -/
structure Holds (ports : Ports) (t : I2cTester) (lent : Option Lent) : Prop where
  wired : lent.isSome → ports.i2cWriteReadOut = true
  bytes : ∀ i : Fin 8, (∀ l ∈ lent, i.val < l.size) →
    t.readBuffer.get i = (received (stored lent)).get i

theorem init_holds (ports : Ports) : Holds ports init none where
  wired := by simp
  bytes := by
    intro i _
    rfl

section Storage

variable {ports : Ports} {t : I2cTester} {m : Input} {e : Effect}

@[simp] theorem answer_lends (response : CmdResponse) :
    (m.answer response).bind Port.lends? = none := by
  cases h : m.caller? <;> simp [Input.answer, h, Port.lends?]

@[simp] theorem reply_lends (success : Bool) :
    (t.reply success).bind Port.lends? = none := by
  cases h : t.state <;> simp [reply, h, Port.lends?]

/-- What a turn means to the receive buffer: nothing, a fresh loan of its first
bytes, the same bytes cleared for a request that cannot leave, or a store. -/
theorem TurnCase.storage (turn : TurnCase ports t m e) :
    (e.state.readBuffer = t.readBuffer ∧ e.exit.bind Port.lends? = none ∧
      ∀ i byte, m ≠ .storeReadBuffer i byte) ∨
    (ports.i2cWriteReadOut = true ∧
      e.state.readBuffer = cleared t.readBuffer t.readLength.toNat ∧
      e.exit.bind Port.lends? = some (rxBuf t.readLength.toNat) ∧
      ∀ i byte, m ≠ .storeReadBuffer i byte) ∨
    (ports.i2cWriteReadOut = false ∧
      e.state.readBuffer = cleared t.readBuffer t.readLength.toNat ∧
      e.exit.bind Port.lends? = none ∧ ∀ i byte, m ≠ .storeReadBuffer i byte) ∨
    ∃ i byte, m = .storeReadBuffer i byte ∧ e.exit = none ∧
      e.state.readBuffer = setByte t.readBuffer i byte := by
  cases turn with
  | inactive => exact .inl ⟨rfl, rfl, nofun⟩
  | refused refusal =>
      refine .inl ⟨rfl, answer_lends _, ?_⟩
      rintro i byte rfl
      cases refusal
  | @settings _ u accepted =>
      have same : u.readBuffer = t.readBuffer := by rw [settings_only accepted]
      refine .inl ⟨same, answer_lends _, ?_⟩
      rintro i byte rfl
      cases accepted
  | polling => exact .inl ⟨rfl, rfl, nofun⟩
  | busy attempt =>
      refine .inl ⟨bump_readBuffer t _, answer_lends _, ?_⟩
      rintro i byte rfl
      cases attempt
  | issued attempt idle wired =>
      obtain ⟨_, ⟨rfl, rfl, _⟩ | ⟨_, _, rfl, rfl⟩ | ⟨_, _, _, rfl, rfl⟩⟩ := attempt_cases attempt
      · exact .inr (.inl ⟨wired, rfl, rfl, nofun⟩)
      · exact .inr (.inl ⟨wired, rfl, rfl, nofun⟩)
      · exact .inl ⟨rfl, rfl, nofun⟩
  | unwired attempt idle cut =>
      obtain ⟨_, ⟨rfl, rfl, _⟩ | ⟨_, _, rfl, rfl⟩ | ⟨_, _, _, rfl, rfl⟩⟩ := attempt_cases attempt
      · exact .inr (.inr (.inl ⟨cut, rfl, by simp only [reply_lends], nofun⟩))
      · exact .inr (.inr (.inl ⟨cut, rfl, by simp only [reply_lends], nofun⟩))
      · exact .inl ⟨rfl, by simp only [reply_lends], nofun⟩
  | stray pointer =>
      refine .inl ⟨rfl, rfl, ?_⟩
      rintro i byte rfl
      exact pointer trivial
  | failed completion =>
      refine .inl ⟨bump_readBuffer t _, reply_lends _, ?_⟩
      rintro i byte rfl
      cases completion
  | shortRead => exact .inl ⟨rfl, reply_lends _, nofun⟩
  | readDone => exact .inl ⟨rfl, reply_lends _, nofun⟩
  | writeDone => exact .inl ⟨rfl, reply_lends _, nofun⟩
  | storedWrite => exact .inl ⟨rfl, rfl, nofun⟩
  | @storedRead i byte => exact .inr (.inr (.inr ⟨i, byte, rfl, rfl, rfl⟩))

end Storage

section Contract

variable {ports : Ports} {t : I2cTester} {m : Input} {e : Effect} {lent next : Option Lent}

/-- A store is recorded, every other entry leaves the loan as it is. -/
theorem lending_recv (h : lending.recv m t lent = some next) :
    (∃ i byte l, m = .storeReadBuffer i byte ∧ lent = some l ∧ i.val < l.size ∧
      next = some ⟨l.size, l.stores ++ [(i, byte)]⟩) ∨
    ((∀ i byte, m ≠ .storeReadBuffer i byte) ∧ next = lent) := by
  cases m with
  | storeReadBuffer i byte =>
      cases lent with
      | none => cases h
      | some l =>
          simp only [lending, Option.ite_none_right_eq_some, Option.some.injEq] at h
          obtain ⟨inside, rfl⟩ := h
          exact .inl ⟨i, byte, l, rfl, rfl, inside, rfl⟩
  | writeReadCompleteIn tx rx status =>
      simp only [lending, Option.ite_none_right_eq_some, Option.some.injEq] at h
      exact .inr ⟨nofun, h.2.symm⟩
  | _ => exact .inr ⟨nofun, (Option.some.inj h).symm⟩

theorem lending_size {tx rx : Buffer} {status : I2cStatus}
    (h : lending.recv (.writeReadCompleteIn tx rx status) t lent = some next) :
    ∀ l ∈ lent, rx.size ≤ l.size := by
  simp only [lending, Option.ite_none_right_eq_some] at h
  exact h.1

theorem lending_exit (e : Effect) (lent : Option Lent) :
    lending.exit e lent =
      ((e.exit.bind Port.lends?).map fun rxBuf => ⟨rxBuf.size, []⟩).or lent := by
  cases h : e.exit <;> simp [Monitor.exit, lending, h]

/-- Only the buffer counts. -/
theorem Holds.of_readBuffer (holds : Holds ports t lent) {u : I2cTester}
    (same : u.readBuffer = t.readBuffer) : Holds ports u lent := by
  refine ⟨holds.wired, ?_⟩
  rw [same]
  exact holds.bytes

/-- A cleared buffer goes out with nothing stored in it. -/
theorem Holds.lend {u : I2cTester} {n : Nat} (wired : ports.i2cWriteReadOut = true)
    (fresh : u.readBuffer = cleared t.readBuffer n) : Holds ports u (some ⟨n, []⟩) := by
  refine ⟨fun _ => wired, ?_⟩
  intro i inside
  have below : i.val < n := inside _ rfl
  rw [fresh, get_cleared, if_pos below]
  exact (get_received_nil i).symm

/-- Clearing changes nothing before the buffer has ever been lent. -/
theorem Holds.clear (holds : Holds ports t none) {u : I2cTester} {n : Nat}
    (fresh : u.readBuffer = cleared t.readBuffer n) : Holds ports u none := by
  refine ⟨holds.wired, ?_⟩
  intro i inside
  have zero : t.readBuffer.get i = 0 := (holds.bytes i inside).trans (get_received_nil i)
  rw [fresh, get_cleared, zero, ite_self]
  exact (get_received_nil i).symm

theorem Holds.store {l : Lent} (holds : Holds ports t (some l)) {u : I2cTester} {i : Fin 8}
    {byte : UInt8} (same : u.readBuffer = setByte t.readBuffer i byte) :
    Holds ports u (some ⟨l.size, l.stores ++ [(i, byte)]⟩) := by
  refine ⟨fun _ => holds.wired rfl, ?_⟩
  intro j below
  have inside : ∀ l' ∈ some l, j.val < l'.size := by
    intro l' member
    cases member
    exact below ⟨l.size, l.stores ++ [(i, byte)]⟩ rfl
  rw [same, get_setByte, holds.bytes j inside]
  simp [stored]

/-- One turn within the contract. -/
theorem Holds.turn (holds : Holds ports t lent) (admitted : lending.recv m t lent = some next)
    (turn : TurnCase ports t m e) : Holds ports e.state (lending.exit e next) := by
  rcases turn.storage with ⟨same, quiet, other⟩ | ⟨wired, fresh, lends, other⟩ |
    ⟨cut, fresh, quiet, other⟩ | ⟨i, byte, rfl, quiet, same⟩
  · obtain ⟨i, byte, l, store, _⟩ | ⟨_, rfl⟩ := lending_recv admitted
    · exact absurd store (other i byte)
    · rw [lending_exit, quiet]
      exact holds.of_readBuffer same
  · rw [lending_exit, lends]
    exact Holds.lend wired fresh
  · obtain ⟨i, byte, l, store, _⟩ | ⟨_, rfl⟩ := lending_recv admitted
    · exact absurd store (other i byte)
    · rw [lending_exit, quiet]
      cases next with
      | some l => exact absurd (holds.wired rfl) (by simp [cut])
      | none => exact holds.clear fresh
  · obtain ⟨j, b, l, store, rfl, inside, rfl⟩ | ⟨other, _⟩ := lending_recv admitted
    · cases store
      rw [lending_exit, quiet]
      exact holds.store same
    · exact absurd rfl (other i byte)

theorem lending_upheld (ports : Ports) :
    Upheld ports lending fun w lent => Holds ports w.state lent where
  turn := by
    intro t log m e lent next _ _ holds admitted turn
    exact holds.turn admitted turn
  back := by
    intro t log o lent holds
    exact holds

/-- The words of a read are what the driver stored for it, zero where it stored
nothing. -/
theorem Holds.words (holds : Holds ports t lent) (admitted : lending.recv m t lent = some next)
    (turn : TurnCase ports t m e) {words : Vector UInt32 2}
    (reported : (words.get 0, words.get 1) ∈ readWords e.notes) :
    octets words = padded (received (stored lent)) t.readLength.toNat := by
  rcases turn.read_reported with ⟨quiet, _⟩ | ⟨tx, rx, words', rfl, _, enough, only, packed⟩
  · rw [quiet] at reported
    cases reported
  · rw [only, List.mem_singleton, Prod.mk.injEq] at reported
    obtain rfl := words_ext reported.1 reported.2
    rw [packed]
    apply buffer_ext
    intro i
    rw [padded, padded, ofFn_get, ofFn_get]
    by_cases below : i.val < t.readLength.toNat
    · have inside : ∀ l ∈ lent, i.val < l.size := by
        intro l member
        have bound := lending_size admitted l member
        omega
      rw [if_pos below, if_pos below, holds.bytes i inside]
    · rw [if_neg below, if_neg below]

/-- Two completions alike that find the same read length report the same words, if
the driver stored the same for both. -/
theorem Holds.words_eq (holds : Holds ports t lent)
    (admitted : lending.recv m t lent = some next) (turn : TurnCase ports t m e)
    {ports' : Ports} {t' : I2cTester} {e' : Effect} {lent' next' : Option Lent}
    (holds' : Holds ports' t' lent') (admitted' : lending.recv m t' lent' = some next')
    (turn' : TurnCase ports' t' m e') (length : t'.readLength = t.readLength)
    (stores : stored lent' = stored lent) : readWords e'.notes = readWords e.notes := by
  rcases turn.read_reported with ⟨quiet, short⟩ | ⟨tx, rx, words, rfl, pointer, enough, only, _⟩
  · rcases turn'.read_reported with ⟨quiet', _⟩ | ⟨tx, rx, words, rfl, pointer, enough, _⟩
    · rw [quiet, quiet']
    · have below := short tx rx rfl pointer
      rw [length] at enough
      omega
  · rcases turn'.read_reported with ⟨_, short⟩ | ⟨_, _, words', _, _, _, only', _⟩
    · have below := short tx rx rfl pointer
      rw [length] at below
      omega
    · have member : (words.get 0, words.get 1) ∈ readWords e.notes := by simp [only]
      have member' : (words'.get 0, words'.get 1) ∈ readWords e'.notes := by simp [only']
      have first := holds.words admitted turn member
      have second := holds'.words admitted' turn' member'
      rw [length, stores, ← first] at second
      rw [only, only', octets_injective second]

end Contract

/-- In every run whose driver stores only inside the receive descriptor lent to it and
never hands back more than was lent, each entry that reports a read reports, in the
event and on both channels, the bytes stored since that read was issued and zeros
elsewhere. Whatever happened before, a second run that finds the same read length and
whose driver stored the same since the issue reports the same words. -/
theorem no_stale_data {ports : Ports} {calls : List (Call Input)} {lent : Option Lent}
    (contract : lending.replay (execute ports calls).log = some lent) {pre post : History}
    {m : Input} {t : I2cTester}
    (split : (execute ports calls).log = pre ++ .recv m t :: post) :
    ∃ now, lending.replay pre = some now ∧
      Log.ownOutputs post = ((component ports).turn m t).outputs ∧
      (∀ words : Vector UInt32 2,
        (words.get 0, words.get 1) ∈ readWords ((component ports).turn m t).notes →
        octets words = padded (received (stored now)) t.readLength.toNat ∧
        ∀ i, (octets words).get i = 0 ∨ (i, (octets words).get i) ∈ stored now) ∧
      writesU32 .readData0 ((component ports).turn m t).notes =
        (readWords ((component ports).turn m t).notes).map Prod.fst ∧
      writesU32 .readData1 ((component ports).turn m t).notes =
        (readWords ((component ports).turn m t).notes).map Prod.snd ∧
      ∀ ports' calls' lent' pre' post' t' now',
        lending.replay (execute ports' calls').log = some lent' →
        (execute ports' calls').log = pre' ++ .recv m t' :: post' →
        lending.replay pre' = some now' → stored now' = stored now →
        t'.readLength = t.readLength →
        readWords ((component ports').turn m t').notes =
          readWords ((component ports).turn m t).notes := by
  obtain ⟨now, next, e, kept, _, holds, admitted, turn, rfl, own⟩ :=
    (lending_upheld ports).at_recv (init_holds ports) contract split
  refine ⟨now, kept, own, ?_, turn.words_written.1, turn.words_written.2, ?_⟩
  · intro words reported
    have spelled := holds.words admitted turn reported
    refine ⟨spelled, ?_⟩
    intro i
    rw [spelled, padded, ofFn_get]
    by_cases below : i.val < t.readLength.toNat
    · rw [if_pos below]
      exact received_cases (stored now) i
    · exact .inl (if_neg below)
  · intro ports' calls' lent' pre' post' t' now' contract' split' kept' stores length
    obtain ⟨other, next', e', same, _, holds', admitted', turn', rfl, _⟩ :=
      (lending_upheld ports').at_recv (init_holds ports') contract' split'
    obtain rfl := Option.some.inj (same.symm.trans kept')
    exact holds.words_eq admitted turn holds' admitted' turn' length stores

/-- Two bytes read with the length lowered in flight, out of a buffer that an earlier
read of three has filled. The driver stores just one byte for it. -/
def readAgain : List (Call Input) :=
  [.mk (.configure 0x50 0x10 3) [],
    .mk (.command 1 7 .readOnce) [],
    .mk (.storeReadBuffer 0 0x11) [], .mk (.storeReadBuffer 1 0x22) [],
    .mk (.storeReadBuffer 2 0x33) [],
    .mk (.writeReadCompleteIn (txBuf 1) (rxBuf 3) .ok) [],
    .mk (.command 2 8 .readOnce) [],
    .mk (.command 3 9 (.setRegister 0x10 2)) [],
    .mk (.storeReadBuffer 0 0x44) [],
    .mk (.writeReadCompleteIn (txBuf 1) (rxBuf 3) .ok) []]

/-- What the second completion finds. -/
def againRead : Situation := execute ⟨true, true⟩ (readAgain.take 9)

theorem no_stale_data_again :
    ∃ now, lending.replay againRead.log = some now ∧
      ∀ words : Vector UInt32 2,
        (words.get 0, words.get 1) ∈ readWords ((component ⟨true, true⟩).turn
          (.writeReadCompleteIn (txBuf 1) (rxBuf 3) .ok) againRead.state).notes →
        octets words = padded (received (stored now)) 2 := by
  have split : (execute ⟨true, true⟩ readAgain).log = againRead.log ++
      .recv (.writeReadCompleteIn (txBuf 1) (rxBuf 3) .ok) againRead.state ::
        (execute ⟨true, true⟩ readAgain).log.drop (againRead.log.length + 1) := by decide
  obtain ⟨now, kept, _, words, _⟩ :=
    @no_stale_data ⟨true, true⟩ readAgain (some ⟨3, [(0, 0x44)]⟩) (by decide) _ _ _ _ split
  exact ⟨now, kept, fun w reported => (words w reported).1⟩

end CuriosityReference.I2cTester
