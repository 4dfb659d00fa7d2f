import SamdReference.Reentrant.Execution

/-!
# Flat execution

The same calls of the environment can be made without any nesting: each handler
returns first, and what it triggered follows, depth first. For a component that
calls out last this changes nothing but the place where returns are logged.
-/

namespace Reentrant

variable {σ μ ν κ ε : Type} {C : Component σ μ ν κ ε}

/-- The calls a handler makes when each returns at once. -/
def Proc.calls {α : Type} : Proc σ ν κ ε α → Nat
  | .ret _ _ => 0
  | .halt _ _ => 0
  | .note _ rest => rest.calls
  | .call _ s resume => (resume s).calls + 1

theorem Proc.calls_of_callsLast {p : Proc σ ν κ ε Unit} (h : p.CallsLast) :
    p.calls = if p.turn.exit.isSome then 1 else 0 := by
  induction p with
  | ret value s => rfl
  | halt fault s => rfl
  | note o rest ih => exact ih h
  | call o s resume =>
      have last : resume s = .ret () s := h s
      simp [calls, last]

/-- Two executions that differ at most in where calls return. -/
structure World.Alike (w v : World σ μ ν κ ε) : Prop where
  state : w.state = v.state
  fault : w.fault = v.fault
  log : Log.flatten w.log = Log.flatten v.log

namespace World.Alike

variable {u v w : World σ μ ν κ ε}

theorem refl (w : World σ μ ν κ ε) : w.Alike w := ⟨rfl, rfl, rfl⟩

theorem trans (h : u.Alike v) (h' : v.Alike w) : u.Alike w :=
  ⟨h.state.trans h'.state, h.fault.trans h'.fault, h.log.trans h'.log⟩

theorem symm (h : u.Alike v) : v.Alike u := ⟨h.state.symm, h.fault.symm, h.log.symm⟩

/-- The same outputs were made in the same order. -/
theorem outputs (h : w.Alike v) : Log.outputs w.log = Log.outputs v.log := by
  rw [← Log.outputs_flatten w.log, h.log, Log.outputs_flatten]

theorem back (w : World σ μ ν κ ε) (o : κ) : (w.push (.back o)).Alike w := by
  refine ⟨rfl, rfl, ?_⟩
  rw [World.push_log, Log.flatten_append]
  exact List.append_nil _

theorem finishCall (w : World σ μ ν κ ε) (o : κ) : (w.finishCall o).Alike w := by
  cases h : w.fault with
  | none =>
      rw [World.finishCall_of_running h]
      exact back w o
  | some fault =>
      rw [World.finishCall_of_fault h]
      exact refl w

end World.Alike

namespace Component

/-- Executions that are alike stay alike. -/
theorem alike_lockstep (C : Component σ μ ν κ ε) : Lockstep C World.Alike Eq where
  running := by
    intro w v alike
    rw [alike.fault]
  exit := by
    intro w v alike _ m
    rw [alike.state]
    cases (C.turn m v.state).exit with
    | none => exact .none
    | some o => exact .some rfl
  step := by
    intro w v alike _ m
    refine ⟨?_, ?_, ?_⟩
    · simp [step, alike.state]
    · simp [step, alike.state]
    · simp only [step, Log.flatten_append, alike.log, alike.state]
  back := by
    rintro w v o _ alike _ rfl
    exact (World.Alike.back w o).trans (alike.trans (World.Alike.back v o).symm)

mutual

/-- Run one call of the environment with nothing nested: its handler, and after it
has returned whatever it triggered. -/
def runFlat (C : Component σ μ ν κ ε) : Call μ → World σ μ ν κ ε → World σ μ ν κ ε
  | .mk m nested => fun w =>
      match w.fault with
      | some _ => w
      | none => runTriggered C nested (C.handle m w.state).calls (C.run (.mk m []) w)
termination_by structural c => c

def runFlatAll (C : Component σ μ ν κ ε) :
    List (Call μ) → World σ μ ν κ ε → World σ μ ν κ ε
  | [] => fun w => w
  | c :: cs => fun w => runFlatAll C cs (runFlat C c w)
termination_by structural cs => cs

/-- What was triggered by as many calls as the handler made. -/
def runTriggered (C : Component σ μ ν κ ε) :
    List (List (Call μ)) → Nat → World σ μ ν κ ε → World σ μ ν κ ε
  | [] => fun _ w => w
  | cs :: rest => fun n w =>
      match n with
      | 0 => w
      | n + 1 => runTriggered C rest n (runFlatAll C cs w)
termination_by structural css => css

end

@[simp] theorem runTriggered_zero (css : List (List (Call μ))) (w : World σ μ ν κ ε) :
    C.runTriggered css 0 w = w := by
  cases css <;> rfl

theorem runTriggered_one (css : List (List (Call μ))) (w : World σ μ ν κ ε) :
    C.runTriggered css 1 w = C.runFlatAll (css.headD []) w := by
  cases css with
  | nil => rfl
  | cons cs rest => exact runTriggered_zero rest _

/-- A flat execution of a component that calls out last: the turn, the return, and
what the call triggered. -/
theorem runFlat_mk (hC : C.CallsLast) (m : μ) (nested : List (List (Call μ)))
    {w : World σ μ ν κ ε} (running : w.fault = none) :
    C.runFlat (.mk m nested) w =
      match (C.turn m w.state).exit with
      | none => C.step m w
      | some o => C.runFlatAll (nested.headD []) ((C.step m w).finishCall o) := by
  simp only [runFlat, running]
  rw [run_mk hC m [] running, Proc.calls_of_callsLast (hC m w.state)]
  change C.runTriggered nested (if (C.turn m w.state).exit.isSome then 1 else 0) _ = _
  cases (C.turn m w.state).exit with
  | none => exact runTriggered_zero nested _
  | some o => exact runTriggered_one nested _

theorem runAll_alike_of_forall {cs : List (Call μ)}
    (each : ∀ c ∈ cs, ∀ w v, w.Alike v → (C.run c w).Alike (C.runFlat c v))
    {w v : World σ μ ν κ ε} (alike : w.Alike v) :
    (C.runAll cs w).Alike (C.runFlatAll cs v) := by
  induction cs generalizing w v with
  | nil => exact alike
  | cons c cs ih =>
      exact ih (fun d member => each d (List.mem_cons_of_mem c member))
        (each c List.mem_cons_self w v alike)

/-- Nesting makes no difference to a component that calls out last. -/
theorem run_alike_runFlat (hC : C.CallsLast) (c : Call μ) :
    ∀ w v, w.Alike v → (C.run c w).Alike (C.runFlat c v) := by
  induction c using Call.induction with
  | mk m nested ih =>
      intro w v alike
      cases hfault : v.fault with
      | some fault =>
          rw [run_of_fault (alike.fault.trans hfault)]
          simpa only [runFlat, hfault] using alike
      | none =>
          have running : w.fault = none := alike.fault.trans hfault
          have inside : ∀ c ∈ nested.headD [], ∀ w v, w.Alike v →
              (C.run c w).Alike (C.runFlat c v) := by
            cases nested with
            | nil => simp
            | cons cs rest => exact ih cs List.mem_cons_self
          have stepped := (alike_lockstep C).step alike running m
          rw [run_mk hC m nested running, runFlat_mk hC m nested hfault, alike.state]
          cases (C.turn m v.state).exit with
          | none => exact stepped
          | some o =>
              -- The return is logged before the triggered calls here, after them there.
              refine (World.Alike.finishCall _ o).trans (runAll_alike_of_forall inside ?_)
              exact stepped.trans (World.Alike.finishCall _ o).symm

theorem runAll_alike_runFlatAll (hC : C.CallsLast) (cs : List (Call μ))
    (w : World σ μ ν κ ε) : (C.runAll cs w).Alike (C.runFlatAll cs w) :=
  runAll_alike_of_forall (fun c _ => run_alike_runFlat hC c) (World.Alike.refl w)

/-- Entries made inside a call might as well have been the next steps. -/
theorem run_nested_alike (hC : C.CallsLast) {m : μ} (cs : List (Call μ))
    {w : World σ μ ν κ ε} (called : (C.turn m w.state).exit.isSome) :
    (C.run (.mk m [cs]) w).Alike (C.runAll (.mk m [] :: cs) w) := by
  cases hfault : w.fault with
  | some fault =>
      rw [run_of_fault hfault, runAll_of_fault hfault]
      exact .refl w
  | none =>
      obtain ⟨o, exit⟩ := Option.isSome_iff_exists.mp called
      rw [runAll_cons, run_mk hC m [cs] hfault, run_mk hC m [] hfault, exit]
      refine (World.Alike.finishCall _ o).trans ((alike_lockstep C).runAll hC cs ?_)
      exact (World.Alike.finishCall _ o).symm

/-- A sequence of entries with nothing nested in any of them leads from one world to
the other. -/
def Sequential (C : Component σ μ ν κ ε) (w v : World σ μ ν κ ε) : Prop :=
  ∃ entries : List μ, v = C.runAll (entries.map (fun m => .mk m [])) w

theorem Sequential.refl (w : World σ μ ν κ ε) : C.Sequential w w := ⟨[], rfl⟩

theorem Sequential.trans {u v w : World σ μ ν κ ε} (h : C.Sequential u v)
    (h' : C.Sequential v w) : C.Sequential u w := by
  obtain ⟨first, rfl⟩ := h
  obtain ⟨second, rfl⟩ := h'
  refine ⟨first ++ second, ?_⟩
  rw [List.map_append, runAll_append]

theorem runFlatAll_sequential_of_forall {cs : List (Call μ)}
    (each : ∀ c ∈ cs, ∀ w, C.Sequential w (C.runFlat c w)) (w : World σ μ ν κ ε) :
    C.Sequential w (C.runFlatAll cs w) := by
  induction cs generalizing w with
  | nil => exact .refl w
  | cons c cs ih =>
      exact (each c List.mem_cons_self w).trans
        (ih (fun d member => each d (List.mem_cons_of_mem c member)) _)

theorem runTriggered_sequential_of_forall {css : List (List (Call μ))}
    (each : ∀ cs ∈ css, ∀ c ∈ cs, ∀ w, C.Sequential w (C.runFlat c w)) (n : Nat)
    (w : World σ μ ν κ ε) : C.Sequential w (C.runTriggered css n w) := by
  induction css generalizing n w with
  | nil => exact .refl w
  | cons cs rest ih =>
      cases n with
      | zero => exact .refl w
      | succ n =>
          exact (runFlatAll_sequential_of_forall (each cs List.mem_cons_self) w).trans
            (ih (fun ds member => each ds (List.mem_cons_of_mem cs member)) n _)

theorem runFlat_sequential (c : Call μ) :
    ∀ w : World σ μ ν κ ε, C.Sequential w (C.runFlat c w) := by
  induction c using Call.induction with
  | mk m nested ih =>
      intro w
      simp only [runFlat]
      cases w.fault with
      | some fault => exact .refl w
      | none => exact .trans ⟨[m], rfl⟩ (runTriggered_sequential_of_forall ih _ _)

/-- A flat execution nests nothing. -/
theorem runFlatAll_sequential (cs : List (Call μ)) (w : World σ μ ν κ ε) :
    C.Sequential w (C.runFlatAll cs w) :=
  runFlatAll_sequential_of_forall (fun c _ => runFlat_sequential c) w

end Component
end Reentrant
