import SamdReference.Reentrant.Monitor

/-!
# Forward simulation under a contract

A machine takes stimuli one at a time and answers each with reports. It knows neither
calls nor nesting, so it is a specification that a reader can run by hand. A component
refines a machine under a contract of its environment when each turn within the
contract is matched by what the machine does with the stimulus the entry stands for.
Every execution within the contract is then a run of the machine: the reports read off
its outputs are the machine's, in order, however the entries were nested.
-/

namespace Reentrant

variable {σ μ ν κ ε δ α ι ω : Type}

/-- A deterministic machine that answers each stimulus with reports. -/
structure Machine (α ι ω : Type) where
  start : α
  step : ι → α → α × List ω

namespace Machine

variable (A : Machine α ι ω)

/-- The state after a list of stimuli, and all the reports made on the way. -/
def run : List ι → α → α × List ω
  | [], a => (a, [])
  | i :: is, a =>
      ((run is (A.step i a).1).1, (A.step i a).2 ++ (run is (A.step i a).1).2)

@[simp] theorem run_nil (a : α) : A.run [] a = (a, []) := rfl

@[simp] theorem run_cons (i : ι) (is : List ι) (a : α) :
    A.run (i :: is) a =
      ((A.run is (A.step i a).1).1, (A.step i a).2 ++ (A.run is (A.step i a).1).2) := rfl

@[simp] theorem run_singleton (i : ι) (a : α) : A.run [i] a = A.step i a := by
  simp

theorem run_append (is js : List ι) (a : α) :
    A.run (is ++ js) a =
      ((A.run js (A.run is a).1).1, (A.run is a).2 ++ (A.run js (A.run is a).1).2) := by
  induction is generalizing a with
  | nil => rfl
  | cons i is ih => simp [ih]

/-- What the step for each of the stimuli keeps, together with the reports so far, holds
after the run. -/
theorem run_induction {P : α → List ω → Prop} {A : Machine α ι ω} {is : List ι}
    (step : ∀ {a reports}, ∀ i ∈ is, P a reports →
      P (A.step i a).1 (reports ++ (A.step i a).2))
    {a : α} {reports : List ω} (holds : P a reports) :
    P (A.run is a).1 (reports ++ (A.run is a).2) := by
  induction is generalizing a reports with
  | nil => simpa using holds
  | cons i is ih =>
      have next := ih (fun j member => step j (List.mem_cons_of_mem i member))
        (step i List.mem_cons_self holds)
      rwa [List.append_assoc] at next

end Machine

/-- How an execution is read as a run of a machine: the stimulus an entry stands for
and the report an output stands for, where they stand for any. -/
structure Reading (μ ν κ ι ω : Type) where
  stimulus : μ → Option ι
  report : Output ν κ → Option ω

namespace Reading

variable (reading : Reading μ ν κ ι ω)

/-- The stimuli of an execution in the order the entries arrived. -/
def stimuli (log : Log σ μ ν κ) : List ι :=
  log.filterMap fun
    | .recv m _ => reading.stimulus m
    | _ => none

/-- The reports of an execution in the order of its outputs. -/
def reports (log : Log σ μ ν κ) : List ω := (Log.outputs log).filterMap reading.report

theorem stimuli_turn (log : Log σ μ ν κ) (m : μ) (s : σ) (t : Turn σ ν κ ε) :
    reading.stimuli (log ++ .recv m s :: t.log) =
      reading.stimuli log ++ (reading.stimulus m).toList :=
  Log.filterMap_turn (fun _ => rfl) (fun _ _ => rfl) log m s t

@[simp] theorem stimuli_back (log : Log σ μ ν κ) (o : κ) :
    reading.stimuli (log ++ [.back o]) = reading.stimuli log := by
  simp [stimuli]

theorem reports_turn (log : Log σ μ ν κ) (m : μ) (s : σ) (t : Turn σ ν κ ε) :
    reading.reports (log ++ .recv m s :: t.log) =
      reading.reports log ++ t.outputs.filterMap reading.report := by
  have entry : Log.outputs (.recv m s :: t.log) = t.outputs := Turn.outputs_log t
  rw [reports, Log.outputs_append, entry, List.filterMap_append, reports]

@[simp] theorem reports_back (log : Log σ μ ν κ) (o : κ) :
    reading.reports (log ++ [.back o]) = reading.reports log := by
  rw [reports, Log.outputs_back, reports]

end Reading

/-- Each turn within the contract is matched by the machine, and stops nothing. `R`
relates the members, what the contract's monitor knows, and the machine's state. -/
structure Refines (C : Component σ μ ν κ ε) (M : Monitor σ μ κ δ) (A : Machine α ι ω)
    (reading : Reading μ ν κ ι ω) (R : σ → δ → α → Prop) : Prop where
  turn : ∀ {s d next a m}, R s d a → M.recv m s d = some next →
    (C.turn m s).fault = none ∧
      R (C.turn m s).state (M.exit (C.turn m s) next)
        (A.run (reading.stimulus m).toList a).1 ∧
      (C.turn m s).outputs.filterMap reading.report =
        (A.run (reading.stimulus m).toList a).2
  back : ∀ {s d a o}, R s d a → R s (M.back o d) a

/-- The execution so far is the run of the machine on its stimuli. -/
structure Matches (M : Monitor σ μ κ δ) (A : Machine α ι ω) (reading : Reading μ ν κ ι ω)
    (R : σ → δ → α → Prop) (w : World σ μ ν κ ε) (d : δ) : Prop where
  running : w.fault = none
  related : R w.state d (A.run (reading.stimuli w.log) A.start).1
  reports : reading.reports w.log = (A.run (reading.stimuli w.log) A.start).2

namespace Refines

variable {C : Component σ μ ν κ ε} {M : Monitor σ μ κ δ} {A : Machine α ι ω}
variable {reading : Reading μ ν κ ι ω} {R : σ → δ → α → Prop}

theorem invariant (h : Refines C M A reading R) :
    C.Invariant fun w => ∀ d, M.replay w.log = some d → Matches M A reading R w d where
  step := by
    intro w running holds m d replayed
    have split : M.replay (C.step m w).log = _ := Monitor.replay_turn w.log m w.state _
    rw [split, Option.map_eq_some_iff] at replayed
    obtain ⟨next, received, rfl⟩ := replayed
    obtain ⟨before, kept, received⟩ := Option.bind_eq_some_iff.mp received
    have matched := holds before kept
    obtain ⟨going, related, reported⟩ := h.turn matched.related received
    have stimuli : reading.stimuli (C.step m w).log = _ := reading.stimuli_turn w.log m w.state _
    have reports : reading.reports (C.step m w).log = _ := reading.reports_turn w.log m w.state _
    refine ⟨going, ?_, ?_⟩
    · rw [stimuli, Machine.run_append]
      exact related
    · rw [stimuli, reports, Machine.run_append, reported, matched.reports]
  back := by
    intro w running holds o d replayed
    rw [World.push_log, Monitor.replay_back, Option.map_eq_some_iff] at replayed
    obtain ⟨before, kept, rfl⟩ := replayed
    have matched := holds before kept
    refine ⟨running, ?_, ?_⟩
    · rw [World.push_log, Reading.stimuli_back]
      exact h.back matched.related
    · rw [World.push_log, Reading.stimuli_back, Reading.reports_back]
      exact matched.reports

/-- Every execution within the contract is a run of the machine. -/
theorem runAll (h : Refines C M A reading R) (hC : C.CallsLast) {s : σ}
    (initial : R s M.start A.start) (cs : List (Call μ)) {d : δ}
    (contract : M.replay (C.runAll cs (.start s)).log = some d) :
    Matches M A reading R (C.runAll cs (.start s)) d := by
  have start : ∀ d, M.replay (World.start s : World σ μ ν κ ε).log = some d →
      Matches M A reading R (World.start s : World σ μ ν κ ε) d := by
    intro d replayed
    obtain rfl := Option.some.inj replayed
    exact ⟨rfl, initial, rfl⟩
  exact h.invariant.runAll hC cs start d contract

end Refines

end Reentrant
