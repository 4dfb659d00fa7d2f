import SamdReference.Reentrant.Refinement

/-!
# Serving entries one after the other

How entries are nested does not show in what a component that calls out last does with
them. Its members and outputs are those of a machine that takes the entries in the order
they arrived, one turn each.
-/

namespace Reentrant

variable {σ μ ν κ ε : Type}

/-- Where each element yields a list in which at most one thing is read, reading the whole
is reading off the elements. -/
theorem filterMap_flatMap_of_each {α β γ : Type} {f : β → Option γ} {g : α → Option γ}
    {h : α → List β} (each : ∀ a, (h a).filterMap f = (g a).toList) (l : List α) :
    (l.flatMap h).filterMap f = l.filterMap g := by
  induction l with
  | nil => rfl
  | cons a l ih =>
      rw [List.flatMap_cons, List.filterMap_append, ih, each, List.filterMap_cons]
      cases g a <;> rfl

/-- The entries of an execution in the order they arrived. -/
def Log.entries (log : Log σ μ ν κ) : List μ :=
  log.filterMap fun
    | .recv m _ => some m
    | _ => none

/-- The component as a machine that takes one entry at a time. -/
def Component.machine (C : Component σ μ ν κ ε) (s : σ) : Machine σ μ (Output ν κ) where
  start := s
  step m s := ((C.turn m s).state, (C.turn m s).outputs)

namespace Log

theorem entries_turn (log : Log σ μ ν κ) (m : μ) (s : σ) (t : Turn σ ν κ ε) :
    entries (log ++ .recv m s :: t.log) = entries log ++ [m] :=
  filterMap_turn (fun _ => rfl) (fun _ _ => rfl) log m s t

@[simp] theorem entries_back (log : Log σ μ ν κ) (o : κ) :
    entries (log ++ [.back o]) = entries log := by
  simp [entries]

theorem outputs_turn (log : Log σ μ ν κ) (m : μ) (s : σ) (t : Turn σ ν κ ε) :
    outputs (log ++ .recv m s :: t.log) = outputs log ++ t.outputs := by
  have own : outputs (.recv m s :: t.log) = t.outputs := Turn.outputs_log t
  rw [outputs_append, own]

end Log

/-- Members and outputs are those of the machine on the entries so far. -/
theorem Component.serves (C : Component σ μ ν κ ε) (s : σ) :
    C.Invariant fun w =>
      (C.machine s).run (Log.entries w.log) s = (w.state, Log.outputs w.log) where
  step := by
    intro w _ holds m
    rw [step, Log.entries_turn, Log.outputs_turn, Machine.run_append, holds,
      Machine.run_singleton]
    rfl
  back := by
    intro w _ holds o
    rw [World.push_log, Log.entries_back, Log.outputs_back]
    exact holds

/-- If it depends on the entry alone whether a turn stops the component, then a run stops
exactly if there was an entry that does. -/
theorem Component.stopped_by (C : Component σ μ ν κ ε) {Passes : μ → Prop}
    (each : ∀ m s, (C.turn m s).fault = none ↔ Passes m) :
    C.Invariant fun w => w.fault = none ↔ ∀ m ∈ Log.entries w.log, Passes m where
  step := by
    intro w running holds m
    have before := holds.mp running
    rw [step, Log.entries_turn, each]
    constructor
    · intro passes n member
      rcases List.mem_append.mp member with earlier | last
      · exact before n earlier
      · obtain rfl := List.mem_singleton.mp last
        exact passes
    · exact fun all => all m (List.mem_append_right _ List.mem_cons_self)
  back := by
    intro w _ holds o
    rw [World.push_log, Log.entries_back]
    exact holds

/-- A component without members does with each entry what it would do with it first. -/
theorem Component.stateless_outputs (C : Component Unit μ ν κ ε) :
    C.Invariant fun w =>
      Log.outputs w.log = (Log.entries w.log).flatMap fun m => (C.turn m ()).outputs where
  step := by
    intro w _ holds m
    rw [step, Log.entries_turn, Log.outputs_turn, holds, List.flatMap_append,
      List.flatMap_singleton]
  back := by
    intro w _ holds o
    rw [World.push_log, Log.entries_back, Log.outputs_back]
    exact holds

end Reentrant
