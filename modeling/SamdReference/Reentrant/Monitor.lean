import SamdReference.Reentrant.Turns

/-!
# Contracts of the environment

A monitor follows the log of an execution and gives up at the first entry that
breaks the contract it stands for. The contract then is a hypothesis on the log
alone: the monitor still has a state at its end. What the component does itself is
never a breach, so a monitor is total on calls and returns, and notes pass it by.
-/

namespace Reentrant

variable {σ μ ν κ ε δ : Type}

structure Monitor (σ μ κ δ : Type) where
  start : δ
  recv : μ → σ → δ → Option δ
  call : κ → σ → δ → δ
  back : κ → δ → δ

namespace Monitor

variable (M : Monitor σ μ κ δ)

def observe (d : δ) : Obs σ μ ν κ → Option δ
  | .recv m s => M.recv m s d
  | .out _ => some d
  | .call o s => some (M.call o s d)
  | .back o => some (M.back o d)

/-- The monitor's state after a log, if nothing in it breaks the contract. -/
def replay (log : Log σ μ ν κ) : Option δ := log.foldlM M.observe M.start

/-- What a monitor makes of the call a turn ends with. -/
def exit (t : Turn σ ν κ ε) (d : δ) : δ :=
  match t.exit with
  | none => d
  | some o => M.call o t.state d

variable {M}

theorem replay_append (a b : Log σ μ ν κ) :
    M.replay (a ++ b) = (M.replay a).bind (fun d => b.foldlM M.observe d) :=
  List.foldlM_append

@[simp] theorem replay_back (log : Log σ μ ν κ) (o : κ) :
    M.replay (log ++ [.back o]) = (M.replay log).map (M.back o) := by
  rw [replay_append]
  cases M.replay log <;> rfl

/-- A contract kept up to some point was kept at every point before. -/
theorem replay_of_append {a b : Log σ μ ν κ} {d : δ} (h : M.replay (a ++ b) = some d) :
    ∃ before, M.replay a = some before := by
  rw [replay_append, Option.bind_eq_some_iff] at h
  obtain ⟨before, kept, _⟩ := h
  exact ⟨before, kept⟩

theorem foldlM_notes (notes : List ν) (d : δ) :
    (notes.map .out : Log σ μ ν κ).foldlM M.observe d = some d := by
  induction notes with
  | nil => rfl
  | cons o notes ih => exact ih

theorem replay_notes (log : Log σ μ ν κ) (m : μ) (s : σ) (notes : List ν) :
    M.replay (log ++ .recv m s :: notes.map .out) = (M.replay log).bind (M.recv m s) := by
  rw [replay_append]
  cases M.replay log with
  | none => rfl
  | some d =>
      change (M.recv m s d).bind _ = M.recv m s d
      cases M.recv m s d with
      | none => rfl
      | some next => exact foldlM_notes notes next

/-- A turn is an entry and at most one call. -/
theorem replay_turn (log : Log σ μ ν κ) (m : μ) (s : σ) (t : Turn σ ν κ ε) :
    M.replay (log ++ .recv m s :: t.log) =
      ((M.replay log).bind (M.recv m s)).map (M.exit t) := by
  have split : log ++ .recv m s :: t.log = (log ++ .recv m s :: t.notes.map .out) ++
      (t.exit.map (fun o => (.call o t.state : Obs σ μ ν κ))).toList := by
    simp [Turn.log]
  rw [split, replay_append, replay_notes]
  cases (M.replay log).bind (M.recv m s) with
  | none => rfl
  | some d =>
      cases h : t.exit with
      | none => simp [exit, h]
      | some o =>
          simp only [exit, h, Option.map_some]
          rfl

end Monitor

/-- How many calls are open at the end of a log. -/
def Log.depth (log : Log σ μ ν κ) : Nat :=
  log.foldl (fun n e => match e with
    | .call _ _ => n + 1
    | .back _ => n - 1
    | _ => n) 0

namespace Log

variable (log : Log σ μ ν κ)

theorem depth_back (o : κ) : depth (log ++ [.back o]) = depth log - 1 := by
  simp [depth, List.foldl_append]

theorem depth_turn (m : μ) (s : σ) (t : Turn σ ν κ ε) :
    depth (log ++ .recv m s :: t.log) = depth log + if t.exit.isSome then 1 else 0 := by
  have quiet : ∀ (notes : List ν) (n : Nat), (notes.map (.out : ν → Obs σ μ ν κ)).foldl
      (fun n e => match e with
        | .call _ _ => n + 1
        | .back _ => n - 1
        | _ => n) n = n := by
    intro notes
    induction notes with
    | nil => simp
    | cons o notes ih => exact ih
  rw [depth, List.foldl_append, List.foldl_cons, Turn.log, List.foldl_append, quiet]
  cases t.exit <;> rfl

end Log

/-- Calls are properly nested: none is left open when a call of the environment
is over. -/
theorem Component.depth_runAll {C : Component σ μ ν κ ε} (hC : C.CallsLast)
    (cs : List (Call μ)) {w : World σ μ ν κ ε} (running : (C.runAll cs w).fault = none) :
    Log.depth (C.runAll cs w).log = Log.depth w.log := by
  have passage : Passage C fun w v =>
      v.fault = none → w.fault = none ∧ Log.depth v.log = Log.depth w.log := by
    constructor
    · intro w running
      exact ⟨running, rfl⟩
    · intro u v w first second running
      obtain ⟨middle, rest⟩ := second running
      obtain ⟨start, begun⟩ := first middle
      exact ⟨start, rest.trans begun⟩
    · intro w m running quiet _
      refine ⟨running, ?_⟩
      simp [step, Log.depth_turn, quiet]
    · intro w m o v running exit inside finished
      cases hfault : v.fault with
      | some fault =>
          rw [World.finishCall_of_fault hfault, hfault] at finished
          cases finished
      | none =>
          obtain ⟨_, opened⟩ := inside hfault
          rw [World.finishCall_of_running hfault, World.push_log, Log.depth_back, opened]
          refine ⟨running, ?_⟩
          simp [step, Log.depth_turn, exit]
  exact (passage.runAll hC cs w running).2

end Reentrant
