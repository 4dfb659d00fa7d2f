import SamdReference.I2cTester.Runs
import SamdReference.Reentrant.Monitor

/-!
# The driver behind the request ports

The driver keeps a descriptor per transaction and answers on the callback port of
the request. Two contracts are monitored. `awaiting` asks of a completion only that
it belongs to a request made and not completed yet; how much of the request it has
to match is a parameter. `driver` is the documented contract: a request is refused
by a callback from inside the call, or accepted when the call returns and completed
later.
-/

namespace CuriosityReference.I2cTester

open Reentrant (Monitor World Call Obs)

/-- A request as the driver receives it. -/
inductive Request where
  | writeRead (addr : UInt32) (txBuf rxBuf : Buffer)
  | write (addr : UInt32) (wrBuf : Buffer)
  deriving DecidableEq, Repr

def Port.request? : Port → Option Request
  | .i2cWriteReadOut addr txBuf rxBuf => some (.writeRead addr txBuf rxBuf)
  | .i2cWriteOut addr wrBuf => some (.write addr wrBuf)
  | .cmdResponse _ _ _ => none

/-- A request and the bytes in the transmit storage when it was made. -/
structure Transaction where
  request : Request
  wire : Vector UInt8 2
  deriving DecidableEq

/-- The transaction a call starts, if it is a request. -/
def Port.begins (o : Port) (t : I2cTester) : Option Transaction :=
  o.request?.map fun request => ⟨request, t.writeBuffer⟩

namespace Request

def isWriteRead : Request → Bool
  | .writeRead _ _ _ => true
  | .write _ _ => false

/-- The completion arrives on the callback port of the request. -/
def onPort : Request → Input → Bool
  | .writeRead _ _ _, .writeReadCompleteIn _ _ _ => true
  | .write _ _, .writeCompleteIn _ _ => true
  | _, _ => false

/-- Moreover it carries the receive pointer of the request. -/
def samePointer : Request → Input → Bool
  | .writeRead _ _ rxBuf, .writeReadCompleteIn _ readBuffer _ => readBuffer.data = rxBuf.data
  | .write _ _, .writeCompleteIn _ _ => true
  | _, _ => false

/-- Moreover it hands back the identical descriptors. -/
def identical : Request → Input → Bool
  | .writeRead _ txBuf rxBuf, .writeReadCompleteIn writeBuffer readBuffer _ =>
      writeBuffer = txBuf ∧ readBuffer = rxBuf
  | .write _ wrBuf, .writeCompleteIn buffer _ => buffer = wrBuf
  | _, _ => false

end Request

/-- Each completion belongs to a request made before and not completed since. -/
def awaiting (fits : Request → Input → Bool) :
    Monitor I2cTester Input Port (List Transaction) where
  start := []
  recv m _ xs :=
    match m.completion? with
    | none => some xs
    | some _ =>
        if xs.any (fun x => fits x.request m) then
          some (xs.eraseP fun x => fits x.request m)
        else none
  call o t xs := xs ++ (o.begins t).toList
  back _ xs := xs

/-- The transaction that a completion arriving after a log ends. -/
def ends? (fits : Request → Input → Bool) (log : History) (m : Input) :
    Option Transaction :=
  ((awaiting fits).replay log).bind (·.find? fun x => fits x.request m)

/-- What the driver knows: the transactions it accepted and did not complete yet,
and for each open call, innermost first, the request still to be decided in it. -/
structure Driver where
  held : List Transaction
  calls : List (Option Transaction)
  deriving DecidableEq

/-- Everything that may still be completed or refused. -/
def Driver.outstanding (d : Driver) : List Transaction := d.held ++ d.calls.filterMap id

/-- The completion of a transaction the driver holds. -/
def Driver.complete (d : Driver) (m : Input) : Option Driver :=
  if d.held.any (fun x => x.request.identical m) then
    some { d with held := d.held.eraseP fun x => x.request.identical m }
  else none

def driver : Monitor I2cTester Input Port Driver where
  start := ⟨[], []⟩
  recv m _ d :=
    match m.completion? with
    | none => some d
    | some (_, status) =>
        match d.calls with
        | some x :: rest =>
            -- Control is in the driver's request handler: this is a refusal.
            if x.request.identical m ∧ status = .otherErr then
              some { d with calls := none :: rest }
            else d.complete m
        | _ => d.complete m
  call o t d := { d with calls := o.begins t :: d.calls }
  back _ d :=
    match d.calls with
    | some x :: rest => ⟨d.held ++ [x], rest⟩
    | none :: rest => ⟨d.held, rest⟩
    | [] => d

/-- The state the component is in while the given transactions are outstanding. -/
def Agree : State → List Transaction → Prop
  | .idle, xs => xs = []
  | .writeCmd, xs => ∃ addr wire, xs = [⟨.write addr (txBuf 2), wire⟩]
  | _, xs => ∃ addr n wire, xs = [⟨.writeRead addr (txBuf 1) (rxBuf n), wire⟩]

section Shapes

variable {s : State} {xs : List Transaction} (h : Agree s xs)
include h

/-- Nothing is outstanding when the component is idle; otherwise one request is, of the
kind that the state names. -/
theorem Agree.shape :
    (s = .idle ∧ xs = []) ∨
    ((s = .readSched ∨ s = .readCmd) ∧ ∃ x, xs = [x] ∧ x.request.isWriteRead = true) ∨
    (s = .writeCmd ∧ ∃ x, xs = [x] ∧ x.request.isWriteRead = false) := by
  cases s with
  | idle => exact .inl ⟨rfl, h⟩
  | readSched =>
      obtain ⟨_, _, _, rfl⟩ := h
      exact .inr (.inl ⟨.inl rfl, _, rfl, rfl⟩)
  | readCmd =>
      obtain ⟨_, _, _, rfl⟩ := h
      exact .inr (.inl ⟨.inr rfl, _, rfl, rfl⟩)
  | writeCmd =>
      obtain ⟨_, _, rfl⟩ := h
      exact .inr (.inr ⟨rfl, _, rfl, rfl⟩)

theorem Agree.idle_iff : s = .idle ↔ xs = [] := by
  rcases h.shape with ⟨rfl, rfl⟩ | ⟨rfl | rfl, x, rfl, _⟩ | ⟨rfl, x, rfl, _⟩
  · exact iff_of_true rfl rfl
  all_goals simp

theorem Agree.read_iff :
    s = .readSched ∨ s = .readCmd ↔ ∃ x, xs = [x] ∧ x.request.isWriteRead = true := by
  rcases h.shape with ⟨rfl, rfl⟩ | ⟨reading, x, rfl, kind⟩ | ⟨rfl, x, rfl, kind⟩
  · simp
  · exact iff_of_true reading ⟨x, rfl, kind⟩
  · simp [kind]

theorem Agree.write_iff :
    s = .writeCmd ↔ ∃ x, xs = [x] ∧ x.request.isWriteRead = false := by
  rcases h.shape with ⟨rfl, rfl⟩ | ⟨rfl | rfl, x, rfl, kind⟩ | ⟨rfl, x, rfl, kind⟩
  · simp
  · simp [kind]
  · simp [kind]
  · exact iff_of_true rfl ⟨x, rfl, kind⟩

end Shapes

theorem Agree.length_le {s : State} {xs : List Transaction} (h : Agree s xs) :
    xs.length ≤ 1 := by
  rcases h.shape with ⟨_, rfl⟩ | ⟨_, x, rfl, _⟩ | ⟨_, x, rfl, _⟩
  · exact Nat.zero_le 1
  · exact le_refl 1
  · exact le_refl 1

theorem Agree.eq_singleton {s : State} {xs : List Transaction} (h : Agree s xs)
    {x : Transaction} (member : x ∈ xs) : xs = [x] := by
  have short := h.length_le
  match xs, member, short with
  | [y], member, _ => rw [List.mem_singleton.mp member]

/-- Completing the only outstanding transaction leaves none. -/
theorem Agree.eraseP {s : State} {xs : List Transaction} (h : Agree s xs)
    {p : Transaction → Bool} (found : xs.any p = true) : xs.eraseP p = [] := by
  obtain ⟨x, member, holds⟩ := List.any_eq_true.mp found
  obtain rfl := h.eq_singleton member
  simp [holds]

/-- The two kinds of transaction the component makes. -/
theorem Agree.cases {s : State} {x : Transaction} (h : Agree s [x]) :
    ((s = .readSched ∨ s = .readCmd) ∧
      ∃ addr n wire, x = ⟨.writeRead addr (txBuf 1) (rxBuf n), wire⟩) ∨
    (s = .writeCmd ∧ ∃ addr wire, x = ⟨.write addr (txBuf 2), wire⟩) := by
  cases s with
  | idle => cases h
  | readSched =>
      obtain ⟨addr, n, wire, same⟩ := h
      exact .inl ⟨.inl rfl, addr, n, wire, List.singleton_inj.mp same⟩
  | readCmd =>
      obtain ⟨addr, n, wire, same⟩ := h
      exact .inl ⟨.inr rfl, addr, n, wire, List.singleton_inj.mp same⟩
  | writeCmd =>
      obtain ⟨addr, wire, same⟩ := h
      exact .inr ⟨rfl, addr, wire, List.singleton_inj.mp same⟩

/-- A completion with the request's own receive pointer passes the assertion. -/
theorem Agree.passes {s : State} {x : Transaction} (h : Agree s [x]) {m : Input}
    (matched : x.request.samePointer m = true) : m.PassesPointer := by
  obtain ⟨_, addr, n, wire, rfl⟩ | ⟨_, addr, wire, rfl⟩ := h.cases
  · cases m with
    | writeReadCompleteIn tx rx status =>
        have same : rx.data = .readBuffer 0 := of_decide_eq_true matched
        exact same
    | _ => trivial
  · cases m with
    | writeReadCompleteIn tx rx status => cases matched
    | _ => trivial

theorem Request.samePointer_of_identical {r : Request} {m : Input}
    (h : r.identical m = true) : r.samePointer m = true := by
  cases r <;> cases m <;> simp_all [identical, samePointer]

section Traffic

variable {ports : Ports} {t : I2cTester} {m : Input} {e : Effect}

@[simp] theorem answer_request (response : CmdResponse) :
    (m.answer response).bind Port.request? = none := by
  cases h : m.caller? <;> simp [Input.answer, h, Port.request?]

@[simp] theorem reply_request (success : Bool) :
    (t.reply success).bind Port.request? = none := by
  cases h : t.state <;> simp [reply, h, Port.request?]

/-- What a turn means to the bus: nothing, a request from an idle component, the
end of a transaction, or a completion the component stops at. -/
theorem TurnCase.traffic (turn : TurnCase ports t m e) :
    (m.completion? = none ∧ e.state.state = t.state ∧ e.exit.bind Port.request? = none) ∨
    (∃ op, t.attempt? m = some op ∧ t.state = .idle ∧
      e = ⟨preparing op, some ((t.prepared m).request op), t.prepared m, none⟩) ∨
    (m.completion?.isSome ∧ e.fault = none ∧ e.state.state = .idle ∧
      e.exit.bind Port.request? = none) ∨
    (¬m.PassesPointer ∧ e = ⟨[], none, t, some .receivePointer⟩) := by
  cases turn with
  | inactive => exact .inl ⟨rfl, rfl, rfl⟩
  | refused refusal => exact .inl ⟨completion_of_refusal refusal, rfl, answer_request _⟩
  | @settings _ u accepted =>
      have same : u.state = t.state := by rw [settings_only accepted]
      exact .inl ⟨completion_of_settings accepted, same, answer_request _⟩
  | polling => exact .inl ⟨rfl, rfl, rfl⟩
  | busy attempt =>
      exact .inl ⟨completion_of_attempt attempt, bump_state t _, answer_request _⟩
  | issued attempt idle => exact .inr (.inl ⟨_, attempt, idle, rfl⟩)
  | unwired attempt idle =>
      exact .inl ⟨completion_of_attempt attempt, idle.symm, reply_request _⟩
  | stray pointer => exact .inr (.inr (.inr ⟨pointer, rfl⟩))
  | failed completion =>
      exact .inr (.inr (.inl ⟨by simp [completion], rfl, rfl, reply_request _⟩))
  | shortRead => exact .inr (.inr (.inl ⟨rfl, rfl, rfl, reply_request _⟩))
  | readDone => exact .inr (.inr (.inl ⟨rfl, rfl, rfl, reply_request _⟩))
  | writeDone => exact .inr (.inr (.inl ⟨rfl, rfl, rfl, reply_request _⟩))
  | storedWrite => exact .inl ⟨rfl, rfl, rfl⟩
  | storedRead => exact .inl ⟨rfl, rfl, rfl⟩

/-- A request is made by an idle component that was asked for an operation. -/
theorem TurnCase.request_made (turn : TurnCase ports t m e) {o : Port} {u : I2cTester}
    (member : .call o u ∈ (e.log : History)) (made : o.request?.isSome) :
    ∃ op, t.attempt? m = some op ∧ t.state = .idle ∧ o = (t.prepared m).request op ∧
      u = t.prepared m := by
  obtain ⟨exit, rfl⟩ := Reentrant.Turn.call_mem_log.mp member
  have begun : ¬(e.exit.bind Port.request? = none) := by
    simpa [exit, Option.isSome_iff_ne_none] using made
  rcases turn.traffic with ⟨_, _, quiet⟩ | ⟨op, attempt, idle, rfl⟩ | ⟨_, _, _, quiet⟩ |
    ⟨_, rfl⟩
  · exact absurd quiet begun
  · exact ⟨op, attempt, idle, (Option.some.inj exit).symm, rfl⟩
  · exact absurd quiet begun
  · cases exit

/-- The request of an attempt and the state it is committed in agree. -/
theorem agree_request {op : State} (attempt : t.attempt? m = some op) (u : I2cTester) :
    Agree op (((u.request op).begins u).toList) := by
  obtain ⟨_, ⟨_, rfl, _⟩ | ⟨_, _, _, rfl⟩ | ⟨_, _, _, _, rfl⟩⟩ := attempt_cases attempt
  · exact ⟨_, _, _, rfl⟩
  · exact ⟨_, _, _, rfl⟩
  · exact ⟨_, _, rfl⟩

end Traffic

/-- A property of the component and a contract's monitor, preserved by every turn
within the contract. -/
structure Upheld {δ : Type} (ports : Ports) (M : Monitor I2cTester Input Port δ)
    (J : Situation → δ → Prop) : Prop where
  turn : ∀ {t log m e d next}, t.Legal → M.replay log = some d → J ⟨t, log, none⟩ d →
    M.recv m t d = some next → TurnCase ports t m e →
    J ⟨e.state, log ++ .recv m t :: e.log, e.fault⟩ (M.exit e next)
  back : ∀ {t log o d}, J ⟨t, log, none⟩ d → J ⟨t, log ++ [.back o], none⟩ (M.back o d)

theorem Upheld.kept {δ : Type} {ports : Ports} {M : Monitor I2cTester Input Port δ}
    {J : Situation → δ → Prop} (h : Upheld ports M J) :
    Kept ports fun w => ∀ d, M.replay w.log = some d → J w d where
  turn := by
    intro t log m e legal holds turn d replayed
    rw [Monitor.replay_turn, Option.map_eq_some_iff] at replayed
    obtain ⟨next, received, rfl⟩ := replayed
    obtain ⟨before, kept, received⟩ := Option.bind_eq_some_iff.mp received
    exact h.turn legal kept (holds before kept) received turn
  back := by
    intro t log o holds d replayed
    rw [Monitor.replay_back, Option.map_eq_some_iff] at replayed
    obtain ⟨before, kept, rfl⟩ := replayed
    exact h.back (holds before kept)

namespace Upheld

variable {δ : Type} {ports : Ports} {M : Monitor I2cTester Input Port δ}
variable {J : Situation → δ → Prop} {calls : List (Call Input)} {d : δ}

theorem initial (start : J (.start init) M.start) :
    ∀ d, M.replay (World.start init : Situation).log = some d → J (.start init) d := by
  intro d replayed
  obtain rfl := Option.some.inj replayed
  exact start

/-- It holds after every run within the contract. -/
theorem execute (h : Upheld ports M J) (start : J (.start init) M.start)
    (contract : M.replay (I2cTester.execute ports calls).log = some d) :
    J (I2cTester.execute ports calls) d :=
  (h.kept.execute (initial start) calls).2 d contract

/-- It held when any entry arrived, and the contract admitted the entry. -/
theorem at_recv (h : Upheld ports M J) (start : J (.start init) M.start)
    (contract : M.replay (I2cTester.execute ports calls).log = some d) {pre post : History}
    {m : Input} {t : I2cTester}
    (split : (I2cTester.execute ports calls).log = pre ++ .recv m t :: post) :
    ∃ now next e, M.replay pre = some now ∧ t.Legal ∧ J ⟨t, pre, none⟩ now ∧
      M.recv m t now = some next ∧ TurnCase ports t m e ∧ (component ports).turn m t = e ∧
      Reentrant.Log.ownOutputs post = e.outputs := by
  obtain ⟨legal, holds, e, turn, same, own⟩ := h.kept.at_recv (initial start) split
  have whole : (I2cTester.execute ports calls).log = (pre ++ [.recv m t]) ++ post := by
    simp [split]
  rw [whole] at contract
  obtain ⟨next, replayed⟩ := Monitor.replay_of_append contract
  obtain ⟨now, kept, received⟩ := Option.bind_eq_some_iff.mp
    ((Monitor.replay_notes pre m t ([] : List Note)).symm.trans replayed)
  exact ⟨now, next, e, kept, legal, holds now kept, received, turn, same, own⟩

/-- It held when the entry arrived whose handler made a given output, and the
monitor's state at the output is the one after that entry. -/
theorem at_output (h : Upheld ports M J) (start : J (.start init) M.start)
    (contract : M.replay (I2cTester.execute ports calls).log = some d) {pre post : History}
    {o : Obs I2cTester Input Note Port}
    (split : (I2cTester.execute ports calls).log = pre ++ o :: post)
    (output : o.isOutput = true) :
    ∃ before m t e now next, J ⟨t, before, none⟩ now ∧ TurnCase ports t m e ∧
      o ∈ (e.log : History) ∧ M.recv m t now = some next ∧ M.replay pre = some next := by
  obtain ⟨before, m, t, rest, e, notes, rfl, _, holds, turn, produced⟩ :=
    h.kept.at_output (initial start) split output
  rw [split] at contract
  obtain ⟨next, replayed⟩ := Monitor.replay_of_append contract
  obtain ⟨now, kept, received⟩ := Option.bind_eq_some_iff.mp
    ((Monitor.replay_notes before m t notes).symm.trans replayed)
  refine ⟨before, m, t, e, now, next, holds now kept, turn, ?_, received, replayed⟩
  rw [produced]
  simp

end Upheld

section Awaiting

variable {fits : Request → Input → Bool}

theorem awaiting_recv {m : Input} {t : I2cTester} {xs next : List Transaction}
    (h : (awaiting fits).recv m t xs = some next) :
    (m.completion? = none ∧ next = xs) ∨
      (m.completion?.isSome ∧ xs.any (fun x => fits x.request m) ∧
        next = xs.eraseP fun x => fits x.request m) := by
  cases completion : m.completion? with
  | none =>
      simp only [awaiting, completion, Option.some.injEq] at h
      exact .inl ⟨rfl, h.symm⟩
  | some c =>
      simp only [awaiting, completion, Option.ite_none_right_eq_some, Option.some.injEq] at h
      exact .inr ⟨rfl, h.1, h.2.symm⟩

theorem awaiting_exit_quiet {e : Effect} (quiet : e.exit.bind Port.request? = none)
    (xs : List Transaction) : (awaiting fits).exit e xs = xs := by
  cases h : e.exit with
  | none => simp [Monitor.exit, h]
  | some o =>
      have none : o.request? = none := by simpa [h] using quiet
      simp [Monitor.exit, h, awaiting, Port.begins, none]

theorem awaiting_entry {m : Input} {t : I2cTester} {xs next : List Transaction}
    (entry : m.completion? = none) (h : (awaiting fits).recv m t xs = some next) :
    next = xs := by
  obtain ⟨_, same⟩ | ⟨completion, _⟩ := awaiting_recv h
  · exact same
  · simp [entry] at completion

theorem awaiting_completes {m : Input} {t : I2cTester} {xs next : List Transaction}
    (completion : m.completion?.isSome) (h : (awaiting fits).recv m t xs = some next) :
    xs.any (fun x => fits x.request m) ∧ next = xs.eraseP fun x => fits x.request m := by
  obtain ⟨entry, _⟩ | ⟨_, completed⟩ := awaiting_recv h
  · simp [entry] at completion
  · exact completed

/-- While the contract is kept, the component's state agrees with what is
outstanding. -/
theorem awaiting_upheld (ports : Ports) (fits : Request → Input → Bool) :
    Upheld ports (awaiting fits) fun w xs => w.fault = none → Agree w.state.state xs where
  turn := by
    intro t log m e xs next _ _ agree received turn running
    have before : Agree t.state xs := agree rfl
    rcases turn.traffic with ⟨entry, same, quiet⟩ | ⟨op, attempt, idle, rfl⟩ |
      ⟨completion, _, idle, quiet⟩ | ⟨_, rfl⟩
    · obtain rfl := awaiting_entry entry received
      rw [awaiting_exit_quiet quiet, same]
      exact before
    · obtain rfl := awaiting_entry (completion_of_attempt attempt) received
      have none : next = [] := by simpa [idle, Agree] using before
      change Agree (t.prepared m).state (next ++ _)
      rw [prepared_state attempt, none]
      exact agree_request attempt _
    · obtain ⟨found, rfl⟩ := awaiting_completes completion received
      rw [awaiting_exit_quiet quiet, idle]
      exact before.eraseP found
    · cases running
  back := by
    intro t log o xs agree
    exact agree

/-- A completion within the contract ends the one transaction outstanding. -/
theorem awaiting_completion {ports : Ports} {calls : List (Call Input)}
    {xs : List Transaction}
    (contract : (awaiting fits).replay (execute ports calls).log = some xs)
    {pre post : History} {m : Input} {t : I2cTester}
    (split : (execute ports calls).log = pre ++ .recv m t :: post)
    (completion : m.completion?.isSome) :
    ∃ x e, ends? fits pre m = some x ∧ fits x.request m = true ∧ Agree t.state [x] ∧
      TurnCase ports t m e ∧ (component ports).turn m t = e ∧
      Reentrant.Log.ownOutputs post = e.outputs := by
  obtain ⟨now, next, e, kept, _, agree, received, turn, same, own⟩ :=
    (awaiting_upheld ports fits).at_recv (fun _ => rfl) contract split
  obtain ⟨found, _⟩ := awaiting_completes completion received
  obtain ⟨x, member, matched⟩ := List.any_eq_true.mp found
  obtain rfl := (agree rfl : Agree t.state now).eq_singleton member
  refine ⟨x, e, ?_, matched, agree rfl, turn, same, own⟩
  rw [ends?, kept]
  simp [matched]

end Awaiting

end CuriosityReference.I2cTester
