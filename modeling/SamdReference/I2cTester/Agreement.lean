import Mathlib.Data.List.Induction
import SamdReference.I2cTester.Driver
import SamdReference.Reentrant.Flat

/-!
# Client and driver agree

The component and the driver never exchange state, only requests and completions.
Under the documented contract the component's state still says at every moment
what the driver has outstanding, so a request or a store into lent storage only
happens while the driver has nothing.

Every handler commits its members before it calls out and does nothing after. So it
makes no difference whether the environment enters the component from inside a call or
waits for the handler to return, and a driver may refuse a request from inside the call
or complete it as the next step.
-/

namespace CuriosityReference.I2cTester

open Reentrant (Component Monitor Call Log Obs)

section Step

variable {d next : Driver} {m : Input} {t : I2cTester}

theorem outstanding_call (o : Port) :
    (driver.call o t d).outstanding =
      d.held ++ ((o.begins t).toList ++ d.calls.filterMap id) := by
  cases h : o.begins t <;> simp [driver, Driver.outstanding, h]

/-- Returning from a call only moves a request from undecided to held. -/
@[simp] theorem outstanding_back (o : Port) :
    (driver.back o d).outstanding = d.outstanding := by
  match d with
  | ⟨held, []⟩ => rfl
  | ⟨held, none :: rest⟩ => simp [driver, Driver.outstanding]
  | ⟨held, some x :: rest⟩ => simp [driver, Driver.outstanding]

/-- The completion of a held transaction takes one away. -/
theorem outstanding_complete (done : d.complete m = some next) :
    ∃ x ∈ d.outstanding, x.request.identical m = true ∧
      next.outstanding.length + 1 = d.outstanding.length ∧ next.calls = d.calls := by
  simp only [Driver.complete, Option.ite_none_right_eq_some, Option.some.injEq] at done
  obtain ⟨found, rfl⟩ := done
  obtain ⟨x, member, matched⟩ := List.any_eq_true.mp found
  refine ⟨x, List.mem_append_left _ member, matched, ?_, rfl⟩
  have shorter : (d.held.eraseP fun x => x.request.identical m).length =
      d.held.length - 1 := List.length_eraseP_of_mem member matched
  have inhabited : 0 < d.held.length := List.length_pos_of_mem member
  simp only [Driver.outstanding, List.length_append, shorter]
  omega

/-- Within the contract, only the completion or refusal of an outstanding
transaction reaches a callback port, and it takes that one away. -/
theorem driver_recv (received : driver.recv m t d = some next) :
    (m.completion? = none ∧ next = d) ∨
      (m.completion?.isSome ∧ (∃ x ∈ d.outstanding, x.request.identical m = true) ∧
        next.outstanding.length + 1 = d.outstanding.length ∧
        next.calls.length = d.calls.length) := by
  cases completion : m.completion? with
  | none =>
      simp only [driver, completion, Option.some.injEq] at received
      exact .inl ⟨rfl, received.symm⟩
  | some c =>
      refine .inr ⟨rfl, ?_⟩
      have held (done : d.complete m = some next) :
          (∃ x ∈ d.outstanding, x.request.identical m = true) ∧
            next.outstanding.length + 1 = d.outstanding.length ∧
            next.calls.length = d.calls.length := by
        obtain ⟨x, member, matched, shorter, calls⟩ := outstanding_complete done
        exact ⟨⟨x, member, matched⟩, shorter, congrArg List.length calls⟩
      simp only [driver, completion] at received
      split at received
      · rename_i x rest calls
        split at received
        · rename_i refusal
          obtain rfl := Option.some.inj received
          refine ⟨⟨x, ?_, refusal.1⟩, ?_, ?_⟩
          · simp [Driver.outstanding, calls]
          · simp [Driver.outstanding, calls, Nat.add_assoc]
          · simp [calls]
        · exact held received
      · exact held received

theorem driver_entry (entry : m.completion? = none)
    (received : driver.recv m t d = some next) : next = d := by
  obtain ⟨_, same⟩ | ⟨completion, _⟩ := driver_recv received
  · exact same
  · simp [entry] at completion

theorem driver_completes (completion : m.completion?.isSome)
    (received : driver.recv m t d = some next) :
    (∃ x ∈ d.outstanding, x.request.identical m = true) ∧
      next.outstanding.length + 1 = d.outstanding.length := by
  obtain ⟨entry, _⟩ | ⟨_, found, shorter, _⟩ := driver_recv received
  · simp [entry] at completion
  · exact ⟨found, shorter⟩

end Step

theorem driver_exit_quiet {e : Effect} (quiet : e.exit.bind Port.request? = none)
    (d : Driver) : (driver.exit e d).outstanding = d.outstanding := by
  cases h : e.exit with
  | none => simp [Monitor.exit, h]
  | some o =>
      have none : o.request? = none := by simpa [h] using quiet
      have unbegun : o.begins e.state = .none := by simp [Port.begins, none]
      simp only [Monitor.exit, h]
      rw [outstanding_call, unbegun]
      rfl

/-- The component never stops, and its state agrees with what is outstanding. -/
theorem driver_upheld (ports : Ports) :
    Upheld ports driver fun w d => w.fault = none ∧ Agree w.state.state d.outstanding where
  turn := by
    intro t log m e d next _ _ agree received turn
    have before : Agree t.state d.outstanding := agree.2
    rcases turn.traffic with ⟨entry, same, quiet⟩ | ⟨op, attempt, idle, rfl⟩ |
      ⟨completion, running, idle, quiet⟩ | ⟨stray, rfl⟩
    · refine ⟨?_, ?_⟩
      · obtain ⟨running, _⟩ | ⟨_, fails⟩ := turn.fault
        · exact running
        · exact absurd (passes_of_entry entry) fails
      · obtain rfl := driver_entry entry received
        rw [driver_exit_quiet quiet, same]
        exact before
    · obtain rfl := driver_entry (completion_of_attempt attempt) received
      have none : next.outstanding = [] := by simpa [idle, Agree] using before
      obtain ⟨held, calls⟩ := List.append_eq_nil_iff.mp none
      refine ⟨rfl, ?_⟩
      change Agree (t.prepared m).state (driver.call _ _ next).outstanding
      rw [prepared_state attempt, outstanding_call, held, calls, List.nil_append,
        List.append_nil]
      exact agree_request attempt _
    · obtain ⟨_, shorter⟩ := driver_completes completion received
      have one := before.length_le
      refine ⟨running, ?_⟩
      rw [driver_exit_quiet quiet, idle]
      apply List.eq_nil_of_length_eq_zero
      omega
    · exfalso
      obtain ⟨⟨x, member, matched⟩, _⟩ :=
        driver_completes (completion_of_stray stray) received
      rw [before.eq_singleton member] at before
      exact stray (before.passes (Request.samePointer_of_identical matched))
  back := by
    intro t log o d agree
    rw [outstanding_back]
    exact agree

/-- The driver is inside as many of its calls as the log has open. -/
theorem driver_depth {log : History} {d : Driver} (replayed : driver.replay log = some d) :
    d.calls.length = Reentrant.Log.depth log := by
  induction log using List.reverseRecOn generalizing d with
  | nil =>
      obtain rfl := Option.some.inj replayed
      rfl
  | append_singleton log o ih =>
      rw [Monitor.replay_append] at replayed
      obtain ⟨before, kept, last⟩ := Option.bind_eq_some_iff.mp replayed
      have depth := ih kept
      rw [Reentrant.Log.depth] at depth ⊢
      rw [List.foldl_append, ← depth]
      cases o with
      | recv m t =>
          have received : driver.recv m t before = some d := by
            simpa [Monitor.observe] using last
          obtain ⟨_, rfl⟩ | ⟨_, _, _, same⟩ := driver_recv received
          · rfl
          · exact same
      | out o =>
          obtain rfl := Option.some.inj (by simpa [Monitor.observe] using last)
          rfl
      | call o t =>
          obtain rfl := Option.some.inj (by simpa [Monitor.observe] using last)
          rfl
      | back o =>
          obtain rfl := Option.some.inj (by simpa [Monitor.observe] using last)
          obtain ⟨held, calls⟩ := before
          cases calls with
          | nil => rfl
          | cons undecided rest => cases undecided <;> rfl

/-- A record of the component making a request or storing into storage it lends. -/
def OnBus : Obs I2cTester Input Note Port → Prop
  | .out (.store _) => True
  | .call o _ => o.request?.isSome
  | _ => False

/-- Only an idle component that was asked for an operation does either. -/
theorem TurnCase.idle_of_onBus {ports : Ports} {t : I2cTester} {m : Input} {e : Effect}
    (turn : TurnCase ports t m e) {o : Obs I2cTester Input Note Port} (member : o ∈ e.log)
    (touches : OnBus o) : t.state = .idle ∧ m.completion? = none := by
  cases o with
  | call o u =>
      obtain ⟨op, attempt, idle, _⟩ := turn.request_made member touches
      exact ⟨idle, completion_of_attempt attempt⟩
  | out note =>
      have emitted : note ∈ e.notes := by simpa using member
      cases note with
      | store b =>
          cases turn with
          | issued attempt idle => exact ⟨idle, completion_of_attempt attempt⟩
          | unwired attempt idle => exact ⟨idle, completion_of_attempt attempt⟩
          | _ => simp at emitted
      | _ => cases touches
  | _ => cases touches

/-- The driver's own stores into storage it was lent. -/
def Input.storesLent : Input → Bool
  | .storeWriteBuffer _ _ => true
  | .storeReadBuffer _ _ => true
  | _ => false

/-- While a transaction is active only the driver gets at the two buffers. -/
theorem TurnCase.keeps_buffers {ports : Ports} {t : I2cTester} {m : Input} {e : Effect}
    (turn : TurnCase ports t m e) (active : t.state ≠ .idle) (foreign : m.storesLent = false) :
    e.state.writeBuffer = t.writeBuffer ∧ e.state.readBuffer = t.readBuffer := by
  cases turn with
  | @settings _ u accepted =>
      have written : u.writeBuffer = t.writeBuffer := by rw [settings_only accepted]
      have read : u.readBuffer = t.readBuffer := by rw [settings_only accepted]
      exact ⟨written, read⟩
  | busy => exact ⟨bump_writeBuffer t _, bump_readBuffer t _⟩
  | issued _ idle => exact absurd idle active
  | unwired _ idle => exact absurd idle active
  | failed => exact ⟨bump_writeBuffer t _, bump_readBuffer t _⟩
  | storedWrite => cases foreign
  | storedRead => cases foreign
  | _ => exact ⟨rfl, rfl⟩

/-- An entry that finds something outstanding leaves the lent storage to the driver. -/
theorem lent_untouched {ports : Ports} {calls : List (Call Input)} {d : Driver}
    (contract : driver.replay (execute ports calls).log = some d) {pre post : History}
    {m : Input} {t : I2cTester} (split : (execute ports calls).log = pre ++ .recv m t :: post) :
    ∃ now, driver.replay pre = some now ∧
      (now.outstanding ≠ [] → m.storesLent = false →
        ((component ports).turn m t).state.writeBuffer = t.writeBuffer ∧
          ((component ports).turn m t).state.readBuffer = t.readBuffer) := by
  obtain ⟨now, _, e, replayed, _, agree, _, turn, rfl, _⟩ :=
    (driver_upheld ports).at_recv ⟨rfl, rfl⟩ contract split
  refine ⟨now, replayed, ?_⟩
  intro outstanding foreign
  have active : t.state ≠ .idle := fun idle => outstanding (agree.2.idle_iff.mp idle)
  exact turn.keeps_buffers active foreign

/-- Whenever the component makes a request or touches lent storage, the driver has
nothing outstanding. -/
theorem nothing_outstanding {ports : Ports} {calls : List (Call Input)} {d : Driver}
    (contract : driver.replay (execute ports calls).log = some d) {pre post : History}
    {o : Obs I2cTester Input Note Port}
    (split : (execute ports calls).log = pre ++ o :: post) (touches : OnBus o) :
    ∃ now, driver.replay pre = some now ∧ now.outstanding = [] := by
  have output : o.isOutput = true := by
    cases o with
    | out => rfl
    | call => rfl
    | _ => cases touches
  obtain ⟨_, m, t, e, d, now, agree, turn, member, received, replayed⟩ :=
    (driver_upheld ports).at_output ⟨rfl, rfl⟩ contract split output
  obtain ⟨idle, entry⟩ := turn.idle_of_onBus member touches
  obtain rfl := driver_entry entry received
  exact ⟨_, replayed, agree.2.idle_iff.mp idle⟩

/-- A driver that has nothing outstanding at each request never has two. -/
theorem one_outstanding {log : History}
    (alone : ∀ pre o post, log = pre ++ o :: post → OnBus o →
      ∃ now, driver.replay pre = some now ∧ now.outstanding = [])
    {d : Driver} (replayed : driver.replay log = some d) : d.outstanding.length ≤ 1 := by
  induction log using List.reverseRecOn generalizing d with
  | nil =>
      obtain rfl := Option.some.inj replayed
      exact Nat.zero_le 1
  | append_singleton log o ih =>
      rw [Monitor.replay_append] at replayed
      obtain ⟨before, kept, last⟩ := Option.bind_eq_some_iff.mp replayed
      have bound : before.outstanding.length ≤ 1 := by
        refine ih (fun pre p post split => alone pre p (post ++ [o]) ?_) kept
        rw [split, List.append_assoc, List.cons_append]
      cases o with
      | recv m t =>
          have received : driver.recv m t before = some d := by
            simpa [Monitor.observe] using last
          obtain ⟨_, rfl⟩ | ⟨_, _, shorter, _⟩ := driver_recv received
          · exact bound
          · omega
      | out o =>
          obtain rfl := Option.some.inj (by simpa [Monitor.observe] using last)
          exact bound
      | call o t =>
          obtain rfl := Option.some.inj (by simpa [Monitor.observe] using last)
          change (driver.call o t before).outstanding.length ≤ 1
          rw [outstanding_call]
          cases request : o.request? with
          | none => simpa [Port.begins, request, Driver.outstanding] using bound
          | some r =>
              obtain ⟨now, same, none⟩ := alone log (.call o t) [] rfl (by simp [OnBus, request])
              rw [kept] at same
              obtain rfl := Option.some.inj same
              obtain ⟨held, calls⟩ := List.append_eq_nil_iff.mp none
              rw [held, calls]
              simp [Port.begins, request]
      | back o =>
          obtain rfl := Option.some.inj (by simpa [Monitor.observe] using last)
          change (driver.back o before).outstanding.length ≤ 1
          rw [outstanding_back]
          exact bound

/-- Client and driver agree after every run within the documented contract: the
component runs on, no request is left undecided, and its state says which
transaction the driver holds. At no point are two outstanding, the component
stores into its buffers only when none is, and an entry that finds one outstanding
leaves both buffers as they were, the driver's own stores apart. -/
theorem client_driver_agreement (ports : Ports) (calls : List (Call Input)) {d : Driver}
    (contract : driver.replay (execute ports calls).log = some d) :
    (execute ports calls).fault = none ∧ d.calls = [] ∧
    ((execute ports calls).state.state = .idle ↔ d.held = []) ∧
    ((execute ports calls).state.state = .readSched ∨
        (execute ports calls).state.state = .readCmd ↔
      ∃ x, d.held = [x] ∧ x.request.isWriteRead = true) ∧
    ((execute ports calls).state.state = .writeCmd ↔
      ∃ x, d.held = [x] ∧ x.request.isWriteRead = false) ∧
    (∀ pre post, (execute ports calls).log = pre ++ post →
      ∃ now, driver.replay pre = some now ∧ now.outstanding.length ≤ 1) ∧
    (∀ pre b post, (execute ports calls).log = pre ++ .out (.store b) :: post →
      ∃ now, driver.replay pre = some now ∧ now.outstanding = []) ∧
    (∀ pre m t post, (execute ports calls).log = pre ++ .recv m t :: post →
      ∃ now, driver.replay pre = some now ∧
        (now.outstanding ≠ [] → m.storesLent = false →
          ((component ports).turn m t).state.writeBuffer = t.writeBuffer ∧
            ((component ports).turn m t).state.readBuffer = t.readBuffer)) := by
  obtain ⟨running, agree⟩ := (driver_upheld ports).execute ⟨rfl, rfl⟩ contract
  have closed : d.calls = [] := by
    have depth : Reentrant.Log.depth (execute ports calls).log = 0 :=
      Reentrant.Component.depth_runAll (component_callsLast ports) calls running
    rw [← driver_depth contract] at depth
    exact List.eq_nil_of_length_eq_zero depth
  have held : d.outstanding = d.held := by simp [Driver.outstanding, closed]
  rw [held] at agree
  refine ⟨running, closed, agree.idle_iff, agree.read_iff, agree.write_iff, ?_, ?_, ?_⟩
  · intro pre post split
    rw [split] at contract
    obtain ⟨now, replayed⟩ := Monitor.replay_of_append contract
    refine ⟨now, replayed, one_outstanding ?_ replayed⟩
    intro before o after inside touches
    rw [← split] at contract
    have whole : (execute ports calls).log = before ++ o :: (after ++ post) := by
      rw [split, inside, List.append_assoc, List.cons_append]
    exact nothing_outstanding contract whole touches
  · intro pre b post split
    exact nothing_outstanding contract split trivial
  · intro pre m t post split
    exact lent_untouched contract split

/-- A read refused from inside its request, whose reply starts a write that the
driver accepts. -/
def refusedRead : List (Call Input) :=
  [.mk (.configure 0x50 0x10 2) [],
    .mk (.command 1 7 .readOnce)
      [[.mk (.writeReadCompleteIn (txBuf 1) (rxBuf 2) .otherErr)
        [[.mk (.command 2 8 (.writeOnce 0xAA)) []]]]]]

theorem client_driver_agreement_refused :
    (execute ⟨true, true⟩ refusedRead).state.state = .writeCmd ∧
      ∀ pre post, (execute ⟨true, true⟩ refusedRead).log = pre ++ post →
        ∃ now, driver.replay pre = some now ∧ now.outstanding.length ≤ 1 := by
  obtain ⟨_, _, _, _, write, alone, _⟩ := client_driver_agreement ⟨true, true⟩ refusedRead
    (d := ⟨[⟨.write 0x50 (txBuf 2), #v[0x10, 0xAA]⟩], []⟩) (by decide)
  exact ⟨write.mpr ⟨_, rfl, rfl⟩, alone⟩

/-- From any state, reachable or not, and for any calls with anything nested in them:
the nested execution ends with the same members as the flat one, which nests nothing,
and up to where calls return both log the same, so the same outputs in the same order.
A request completed from inside its call is not told apart, then or later, from one
accepted and completed as the next step. -/
theorem reentrant_eq_sequential (ports : Ports) (w : Situation) (calls : List (Call Input)) :
    ((component ports).runAll calls w).Alike ((component ports).runFlatAll calls w) ∧
    Log.outputs ((component ports).runAll calls w).log =
      Log.outputs ((component ports).runFlatAll calls w).log ∧
    (component ports).Sequential w ((component ports).runFlatAll calls w) ∧
    ∀ m o, ((component ports).turn m w.state).exit = some o → o.request?.isSome →
      ∀ done inside after, done.completion?.isSome →
        ((component ports).runAll (.mk m [[.mk done inside]] :: after) w).Alike
          ((component ports).runAll (.mk m [] :: .mk done inside :: after) w) := by
  have last := component_callsLast ports
  have alike := Component.runAll_alike_runFlatAll last calls w
  refine ⟨alike, alike.outputs, Component.runFlatAll_sequential calls w, ?_⟩
  intro m o exit _ done inside after _
  have called : ((component ports).turn m w.state).exit.isSome := by simp [exit]
  have next := Component.run_nested_alike last [.mk done inside] called
  exact (Component.alike_lockstep (component ports)).runAll last after next

end CuriosityReference.I2cTester
