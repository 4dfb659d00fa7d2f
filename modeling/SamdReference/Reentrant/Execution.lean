import SamdReference.Reentrant.Component

/-!
# Executing components that call out last

When every handler of a component ends with its call, an execution is a sequence
of turns: an entry runs up to its call, the entries made inside follow as turns of
their own, and the returns only unwind. Two proof rules come from this. An
invariant is preserved by every execution once each single turn preserves it, and
two executions stay related once each pair of turns does.

`Log.Turns` is the same fact about the log: every entry in it is followed by
exactly the outputs of its handler, and every output belongs to the entry before.
-/

namespace Reentrant

variable {σ μ ν κ ε : Type} {C : Component σ μ ν κ ε}

/-- The log of a turn after its entry. -/
def Turn.log (t : Turn σ ν κ ε) : Log σ μ ν κ :=
  t.notes.map .out ++ (t.exit.map (fun o => .call o t.state)).toList

/-- The outputs of a turn in order. -/
def Turn.outputs (t : Turn σ ν κ ε) : List (Output ν κ) :=
  t.notes.map .note ++ (t.exit.map .call).toList

theorem Turn.outputs_log (t : Turn σ ν κ ε) :
    Log.outputs (t.log : Log σ μ ν κ) = t.outputs := by
  have notes : (t.notes.map (.out : ν → Obs σ μ ν κ)).filterMap Obs.output? =
      t.notes.map .note := by
    rw [List.filterMap_map]
    exact congrFun List.filterMap_eq_map t.notes
  rw [Turn.log, Turn.outputs, Log.outputs_append, Log.outputs, notes]
  cases t.exit <;> rfl

@[simp] theorem Turn.note_mem_outputs {t : Turn σ ν κ ε} {o : ν} :
    .note o ∈ t.outputs ↔ o ∈ t.notes := by
  cases h : t.exit <;> simp [Turn.outputs, h]

@[simp] theorem Turn.note_mem_log {t : Turn σ ν κ ε} {o : ν} :
    (.out o : Obs σ μ ν κ) ∈ t.log ↔ o ∈ t.notes := by
  cases h : t.exit <;> simp [Turn.log, h]

@[simp] theorem Turn.call_mem_log {t : Turn σ ν κ ε} {o : κ} {s : σ} :
    (.call o s : Obs σ μ ν κ) ∈ t.log ↔ t.exit = some o ∧ s = t.state := by
  cases h : t.exit with
  | none => simp [Turn.log, h]
  | some p => simp [Turn.log, h, eq_comm]

theorem Turn.isOutput_of_mem_log {t : Turn σ ν κ ε} {e : Obs σ μ ν κ} (h : e ∈ t.log) :
    e.isOutput = true := by
  rcases List.mem_append.mp h with h | h
  · obtain ⟨o, _, rfl⟩ := List.mem_map.mp h
    rfl
  · cases hexit : t.exit with
    | none => simp [hexit] at h
    | some o =>
        simp only [hexit, Option.map_some, Option.toList_some, List.mem_singleton] at h
        subst h
        rfl

namespace Log

@[simp] theorem outputs_back (log : Log σ μ ν κ) (o : κ) :
    outputs (log ++ [.back o]) = outputs log := by
  rw [outputs_append]
  exact List.append_nil _

@[simp] theorem notes_turn (log : Log σ μ ν κ) (m : μ) (s : σ) (t : Turn σ ν κ ε) :
    notes (log ++ .recv m s :: t.log) = notes log ++ t.notes := by
  have own : notes (t.notes.map .out : Log σ μ ν κ) = t.notes := by
    rw [notes, List.filterMap_map]
    exact List.filterMap_some
  have call : notes ((t.exit.map (fun o => (.call o t.state : Obs σ μ ν κ))).toList) = [] := by
    cases t.exit <;> rfl
  have entry : notes (.recv m s :: t.log) = notes (t.log : Log σ μ ν κ) := rfl
  rw [notes_append, entry, Turn.log, notes_append, own, call, List.append_nil]

@[simp] theorem notes_back (log : Log σ μ ν κ) (o : κ) :
    notes (log ++ [.back o]) = notes log := by
  rw [notes_append]
  exact List.append_nil _

/-- A turn adds its entry to any list that is read off the entries alone. -/
theorem filterMap_turn {α : Type} {f : Obs σ μ ν κ → Option α} (out : ∀ o, f (.out o) = none)
    (call : ∀ o s, f (.call o s) = none) (log : Log σ μ ν κ) (m : μ) (s : σ)
    (t : Turn σ ν κ ε) :
    (log ++ .recv m s :: t.log).filterMap f =
      log.filterMap f ++ (f (.recv m s)).toList := by
  have own : (t.log : Log σ μ ν κ).filterMap f = [] := by
    rw [List.filterMap_eq_nil_iff]
    intro e member
    have output := Turn.isOutput_of_mem_log member
    cases e with
    | out o => exact out o
    | call o s => exact call o s
    | _ => cases output
  rw [List.filterMap_append, List.filterMap_cons, own]
  cases f (.recv m s) <;> rfl

end Log

namespace World

/-- Unwind a call unless something inside it stopped the component. -/
def finishCall (o : κ) (w : World σ μ ν κ ε) : World σ μ ν κ ε :=
  match w.fault with
  | some _ => w
  | none => w.push (.back o)

theorem finishCall_of_running {w : World σ μ ν κ ε} (h : w.fault = none) (o : κ) :
    w.finishCall o = w.push (.back o) := by
  simp only [finishCall, h]

theorem finishCall_of_fault {w : World σ μ ν κ ε} {fault : ε} (h : w.fault = some fault)
    (o : κ) : w.finishCall o = w := by
  simp only [finishCall, h]

end World

namespace Component

def turn (C : Component σ μ ν κ ε) (m : μ) (s : σ) : Turn σ ν κ ε := (C.handle m s).turn

/-- An entry up to and including its call, before anything happens inside it. -/
def step (C : Component σ μ ν κ ε) (m : μ) (w : World σ μ ν κ ε) : World σ μ ν κ ε :=
  ⟨(C.turn m w.state).state, w.log ++ .recv m w.state :: (C.turn m w.state).log,
    (C.turn m w.state).fault⟩

def CallsLast (C : Component σ μ ν κ ε) : Prop := ∀ m s, (C.handle m s).CallsLast

end Component

/-- Driving a handler that calls out last is its turn, then what happens inside
the call, then the return. -/
theorem Proc.drive_of_callsLast {p : Proc σ ν κ ε Unit} (h : p.CallsLast)
    (nested : List (World σ μ ν κ ε → World σ μ ν κ ε)) {w : World σ μ ν κ ε}
    (running : w.fault = none) :
    p.drive nested w =
      match p.turn.exit with
      | none => ⟨p.turn.state, w.log ++ p.turn.log, p.turn.fault⟩
      | some o => (nested.headD id
          ⟨p.turn.state, w.log ++ p.turn.log, p.turn.fault⟩).finishCall o := by
  induction p generalizing w with
  | ret value s =>
      cases value
      simp [drive, Turn.log, running]
  | halt fault s => simp [drive, Turn.log]
  | note o rest ih =>
      simp only [drive, turn_note]
      rw [ih h (w := w.push (.out o)) running]
      simp [Turn.log]
  | call o s resume =>
      simp only [drive, turn_call, World.finishCall]
      have entered : ({ w with state := s } : World σ μ ν κ ε).push (.call o s) =
          ⟨s, w.log ++ (⟨[], some o, s, none⟩ : Turn σ ν κ ε).log, none⟩ := by
        simp [World.push, Turn.log, running]
      rw [entered]
      generalize nested.headD id _ = inner
      cases hfault : inner.fault with
      | some fault => simp only
      | none =>
          simp only [h inner.state, drive]
          rfl

namespace Component

theorem run_mk (hC : C.CallsLast) (m : μ) (nested : List (List (Call μ)))
    {w : World σ μ ν κ ε} (running : w.fault = none) :
    C.run (.mk m nested) w =
      match (C.turn m w.state).exit with
      | none => C.step m w
      | some o => (C.runAll (nested.headD []) (C.step m w)).finishCall o := by
  simp only [run, running]
  rw [Proc.drive_of_callsLast (hC m w.state) (C.runNested nested) (w := w.push _) running,
    runNested_headD]
  simp [turn, step]

/-- An entry with nothing nested in it is its turn and what the turn outputs. -/
theorem run_leaf (hC : C.CallsLast) (m : μ) {w : World σ μ ν κ ε} (running : w.fault = none) :
    (C.run (.mk m []) w).state = (C.turn m w.state).state ∧
      (C.run (.mk m []) w).fault = (C.turn m w.state).fault ∧
      ∃ own, (C.run (.mk m []) w).log = w.log ++ own ∧
        Log.outputs own = (C.turn m w.state).outputs := by
  have outputs : Log.outputs (.recv m w.state :: (C.turn m w.state).log) =
      (C.turn m w.state).outputs := Turn.outputs_log _
  rw [run_mk hC m [] running]
  cases (C.turn m w.state).exit with
  | none => exact ⟨rfl, rfl, _, rfl, outputs⟩
  | some o =>
      simp only [List.headD_nil, runAll_nil]
      cases hfault : (C.step m w).fault with
      | some fault =>
          rw [World.finishCall_of_fault hfault]
          exact ⟨rfl, rfl, _, rfl, outputs⟩
      | none =>
          rw [World.finishCall_of_running hfault]
          refine ⟨rfl, rfl, _, List.append_assoc .., ?_⟩
          exact (Log.outputs_back _ o).trans outputs

/-- Two executions of the same environment side by side. `R` relates the worlds
between turns and `Q` the calls left open on both sides. -/
structure Lockstep (C : Component σ μ ν κ ε)
    (R : World σ μ ν κ ε → World σ μ ν κ ε → Prop) (Q : κ → κ → Prop) : Prop where
  running : ∀ {w w'}, R w w' → (w.fault = none ↔ w'.fault = none)
  exit : ∀ {w w'}, R w w' → w.fault = none → ∀ m,
    Option.Rel Q (C.turn m w.state).exit (C.turn m w'.state).exit
  step : ∀ {w w'}, R w w' → w.fault = none → ∀ m, R (C.step m w) (C.step m w')
  back : ∀ {w w' o o'}, R w w' → w.fault = none → Q o o' →
    R (w.push (.back o)) (w'.push (.back o'))

namespace Lockstep

variable {R : World σ μ ν κ ε → World σ μ ν κ ε → Prop} {Q : κ → κ → Prop}

/-- When one side has stopped, so has the other. -/
theorem stopped (h : Lockstep C R Q) {w w' : World σ μ ν κ ε} (related : R w w') {fault : ε}
    (hfault : w.fault = some fault) : ∃ fault', w'.fault = some fault' := by
  apply Option.ne_none_iff_exists'.mp
  intro running
  rw [(h.running related).mpr running] at hfault
  cases hfault

theorem finishCall (h : Lockstep C R Q) {w w' : World σ μ ν κ ε} (related : R w w')
    {o o' : κ} (calls : Q o o') : R (w.finishCall o) (w'.finishCall o') := by
  cases hfault : w.fault with
  | none =>
      rw [World.finishCall_of_running hfault,
        World.finishCall_of_running ((h.running related).mp hfault)]
      exact h.back related hfault calls
  | some fault =>
      obtain ⟨fault', hfault'⟩ := h.stopped related hfault
      rw [World.finishCall_of_fault hfault, World.finishCall_of_fault hfault']
      exact related

theorem runAll_of_forall {cs : List (Call μ)}
    (each : ∀ c ∈ cs, ∀ w w', R w w' → R (C.run c w) (C.run c w'))
    {w w' : World σ μ ν κ ε} (related : R w w') : R (C.runAll cs w) (C.runAll cs w') := by
  induction cs generalizing w w' with
  | nil => exact related
  | cons c cs ih =>
      exact ih (fun d member => each d (List.mem_cons_of_mem c member))
        (each c (by simp) w w' related)

theorem run (hC : C.CallsLast) (h : Lockstep C R Q) (c : Call μ) :
    ∀ w w', R w w' → R (C.run c w) (C.run c w') := by
  induction c using Call.induction with
  | mk m nested ih =>
      intro w w' related
      cases hfault : w.fault with
      | some fault =>
          obtain ⟨fault', hfault'⟩ := h.stopped related hfault
          rw [run_of_fault hfault, run_of_fault hfault']
          exact related
      | none =>
          rw [run_mk hC m nested hfault,
            run_mk hC m nested ((h.running related).mp hfault)]
          have inside : ∀ c ∈ nested.headD [], ∀ w w', R w w' →
              R (C.run c w) (C.run c w') := by
            cases nested with
            | nil => simp
            | cons cs rest => exact ih cs (by simp)
          have exits := h.exit related hfault m
          have stepped := h.step related hfault m
          generalize (C.turn m w.state).exit = e at exits ⊢
          generalize (C.turn m w'.state).exit = e' at exits ⊢
          cases exits with
          | none => exact stepped
          | some calls => exact h.finishCall (runAll_of_forall inside stepped) calls

theorem runAll (hC : C.CallsLast) (h : Lockstep C R Q) (cs : List (Call μ))
    {w w' : World σ μ ν κ ε} (related : R w w') : R (C.runAll cs w) (C.runAll cs w') :=
  runAll_of_forall (fun c _ => h.run hC c) related

end Lockstep

/-- The log of an execution does not matter to what follows. -/
theorem lockstep_behind (C : Component σ μ ν κ ε) (log : Log σ μ ν κ) :
    Lockstep C (fun w w' => w.state = w'.state ∧ w.fault = w'.fault ∧ w.log = log ++ w'.log)
      Eq where
  running := by
    rintro w w' ⟨_, fault, _⟩
    rw [fault]
  exit := by
    rintro w w' ⟨state, _, _⟩ _ m
    rw [state]
    cases (C.turn m w'.state).exit with
    | none => exact .none
    | some o => exact .some rfl
  step := by
    rintro w w' ⟨state, _, logs⟩ _ m
    simp only [Component.step, state, logs, List.append_assoc, and_self]
  back := by
    rintro w w' o _ ⟨state, fault, logs⟩ _ rfl
    exact ⟨state, fault, by simp [logs]⟩

/-- An execution goes on as one that starts from the members reached. -/
theorem runAll_resume (hC : C.CallsLast) (cs : List (Call μ)) {w : World σ μ ν κ ε}
    (running : w.fault = none) :
    (C.runAll cs w).state = (C.runAll cs (.start w.state)).state ∧
      (C.runAll cs w).fault = (C.runAll cs (.start w.state)).fault ∧
      (C.runAll cs w).log = w.log ++ (C.runAll cs (.start w.state)).log :=
  (lockstep_behind C w.log).runAll hC cs ⟨rfl, running, (List.append_nil _).symm⟩

/-- An invariant of every execution: each turn and each return preserves it. -/
structure Invariant (C : Component σ μ ν κ ε) (I : World σ μ ν κ ε → Prop) : Prop where
  step : ∀ {w}, w.fault = none → I w → ∀ m, I (C.step m w)
  back : ∀ {w}, w.fault = none → I w → ∀ o, I (w.push (.back o))

namespace Invariant

variable {I : World σ μ ν κ ε → Prop}

/-- An invariant is the one-sided case of a lockstep relation. -/
theorem lockstep (h : Invariant C I) : Lockstep C (fun w w' => w = w' ∧ I w) Eq where
  running := by
    rintro w _ ⟨rfl, _⟩
    exact Iff.rfl
  exit := by
    rintro w _ ⟨rfl, _⟩ _ m
    cases (C.turn m w.state).exit with
    | none => exact .none
    | some o => exact .some rfl
  step := by
    rintro w _ ⟨rfl, holds⟩ running m
    exact ⟨rfl, h.step running holds m⟩
  back := by
    rintro w _ o _ ⟨rfl, holds⟩ running rfl
    exact ⟨rfl, h.back running holds o⟩

theorem run (hC : C.CallsLast) (h : Invariant C I) (c : Call μ) {w : World σ μ ν κ ε}
    (holds : I w) : I (C.run c w) :=
  (h.lockstep.run hC c w w ⟨rfl, holds⟩).2

theorem runAll (hC : C.CallsLast) (h : Invariant C I) (cs : List (Call μ))
    {w : World σ μ ν κ ε} (holds : I w) : I (C.runAll cs w) :=
  (h.lockstep.runAll hC cs ⟨rfl, holds⟩).2

end Invariant

/-- A relation from before to after that every call of the environment establishes,
whatever is nested in it. -/
structure Passage (C : Component σ μ ν κ ε)
    (R : World σ μ ν κ ε → World σ μ ν κ ε → Prop) : Prop where
  refl : ∀ w, R w w
  trans : ∀ {u v w}, R u v → R v w → R u w
  quiet : ∀ {w m}, w.fault = none → (C.turn m w.state).exit = none → R w (C.step m w)
  called : ∀ {w m o v}, w.fault = none → (C.turn m w.state).exit = some o →
    R (C.step m w) v → R w (v.finishCall o)

namespace Passage

variable {R : World σ μ ν κ ε → World σ μ ν κ ε → Prop}

theorem runAll_of_forall (h : Passage C R) {cs : List (Call μ)}
    (each : ∀ c ∈ cs, ∀ w, R w (C.run c w)) (w : World σ μ ν κ ε) :
    R w (C.runAll cs w) := by
  induction cs generalizing w with
  | nil => exact h.refl w
  | cons c cs ih =>
      exact h.trans (each c List.mem_cons_self w)
        (ih (fun d member => each d (List.mem_cons_of_mem c member)) (C.run c w))

theorem run (hC : C.CallsLast) (h : Passage C R) (c : Call μ) :
    ∀ w, R w (C.run c w) := by
  induction c using Call.induction with
  | mk m nested ih =>
      intro w
      cases hfault : w.fault with
      | some fault =>
          rw [run_of_fault hfault]
          exact h.refl w
      | none =>
          have inside : ∀ c ∈ nested.headD [], ∀ w, R w (C.run c w) := by
            cases nested with
            | nil => simp
            | cons cs rest => exact ih cs (by simp)
          rw [run_mk hC m nested hfault]
          cases hexit : (C.turn m w.state).exit with
          | none => exact h.quiet hfault hexit
          | some o => exact h.called hfault hexit (h.runAll_of_forall inside _)

theorem runAll (hC : C.CallsLast) (h : Passage C R) (cs : List (Call μ))
    (w : World σ μ ν κ ε) : R w (C.runAll cs w) :=
  h.runAll_of_forall (fun c _ => h.run hC c) w

end Passage

end Component
end Reentrant
