import SamdReference.Reentrant.Execution

/-!
# Executions up to renaming

If the handlers of a component commute with a renaming of members and notes, two
executions of the same environment that start a renaming apart stay so: what they log
from there on is the same up to the renaming, whatever was logged before.
-/

namespace Reentrant

variable {σ μ ν κ ε : Type} {C : Component σ μ ν κ ε} {f : σ → σ} {g : ν → ν}

def Obs.rename (f : σ → σ) (g : ν → ν) : Obs σ μ ν κ → Obs σ μ ν κ
  | .recv m s => .recv m (f s)
  | .out o => .out (g o)
  | .call o s => .call o (f s)
  | .back o => .back o

def Turn.rename (f : σ → σ) (g : ν → ν) (t : Turn σ ν κ ε) : Turn σ ν κ ε :=
  ⟨t.notes.map g, t.exit, f t.state, t.fault⟩

@[simp] theorem Turn.rename_exit (t : Turn σ ν κ ε) : (t.rename f g).exit = t.exit := rfl

@[simp] theorem Turn.rename_state (t : Turn σ ν κ ε) :
    (t.rename f g).state = f t.state := rfl

@[simp] theorem Turn.rename_fault (t : Turn σ ν κ ε) : (t.rename f g).fault = t.fault := rfl

theorem Turn.rename_log (t : Turn σ ν κ ε) :
    ((t.rename f g).log : Log σ μ ν κ) = t.log.map (Obs.rename f g) := by
  have notes : ((t.notes.map g).map .out : Log σ μ ν κ) =
      (t.notes.map .out).map (Obs.rename f g) := by
    rw [List.map_map, List.map_map]
    rfl
  rw [Turn.log, Turn.log, List.map_append, ← notes, rename_exit]
  cases t.exit <;> rfl

/-- Handlers do the same to renamed members, up to the renaming. -/
def Component.Renames (C : Component σ μ ν κ ε) (f : σ → σ) (g : ν → ν) : Prop :=
  ∀ m s, C.turn m (f s) = (C.turn m s).rename f g

/-- The second execution is a renaming away from the first, and since they had logged
`a` and `b` both have logged the same up to the renaming. -/
structure World.Follows (f : σ → σ) (g : ν → ν) (a b : Log σ μ ν κ)
    (w w' : World σ μ ν κ ε) : Prop where
  state : w'.state = f w.state
  fault : w'.fault = w.fault
  log : ∃ rest, w.log = a ++ rest ∧ w'.log = b ++ rest.map (Obs.rename f g)

theorem World.Follows.of_logs {w w' : World σ μ ν κ ε} (state : w'.state = f w.state)
    (fault : w'.fault = w.fault) : World.Follows f g w.log w'.log w w' :=
  ⟨state, fault, [], (List.append_nil _).symm, (List.append_nil _).symm⟩

namespace Component.Renames

variable {a b : Log σ μ ν κ}

theorem lockstep (h : C.Renames f g) : Lockstep C (World.Follows f g a b) Eq where
  running := by
    intro w w' follows
    rw [follows.fault]
  exit := by
    intro w w' follows _ m
    rw [follows.state, h m w.state, Turn.rename_exit]
    cases (C.turn m w.state).exit with
    | none => exact .none
    | some o => exact .some rfl
  step := by
    intro w w' follows _ m
    obtain ⟨rest, log, log'⟩ := follows.log
    refine ⟨?_, ?_, rest ++ .recv m w.state :: (C.turn m w.state).log, ?_, ?_⟩
    · simp only [step, follows.state, h m w.state, Turn.rename_state]
    · simp only [step, follows.state, h m w.state, Turn.rename_fault]
    · simp only [step, log, List.append_assoc]
    · simp only [step, log', follows.state, h m w.state, Turn.rename_log, List.map_append,
        List.map_cons, List.append_assoc]
      rfl
  back := by
    rintro w w' o _ follows _ rfl
    obtain ⟨rest, log, log'⟩ := follows.log
    refine ⟨follows.state, follows.fault, rest ++ [.back o], ?_, ?_⟩
    · rw [World.push_log, log, List.append_assoc]
    · rw [World.push_log, log', List.map_append, List.append_assoc]
      rfl

/-- Whatever the environment does next, the executions stay a renaming apart. -/
theorem runAll (hC : C.CallsLast) (h : C.Renames f g) (cs : List (Call μ))
    {w w' : World σ μ ν κ ε} (follows : World.Follows f g a b w w') :
    World.Follows f g a b (C.runAll cs w) (C.runAll cs w') :=
  h.lockstep.runAll hC cs follows

end Component.Renames
end Reentrant
