import Mathlib.Data.List.TakeWhile
import SamdReference.Reentrant.Execution

/-!
# Reading an execution off its log

The log of a component that calls out last is a sequence of turns and returns.
So an entry found anywhere in the log is followed by exactly the outputs of its
handler, an output found anywhere belongs to the entry before it, and every
invariant held when that entry arrived.
-/

namespace Reentrant

variable {σ μ ν κ ε : Type} {C : Component σ μ ν κ ε} {I : World σ μ ν κ ε → Prop}

/-- Logs built from turns that each started where the invariant held. -/
inductive Turns (C : Component σ μ ν κ ε) (I : World σ μ ν κ ε → Prop) :
    Log σ μ ν κ → Prop where
  | nil : Turns C I []
  | turn {log : Log σ μ ν κ} {m : μ} {s : σ} : Turns C I log → I ⟨s, log, none⟩ →
      Turns C I (log ++ .recv m s :: (C.turn m s).log)
  | back {log : Log σ μ ν κ} {o : κ} : Turns C I log → Turns C I (log ++ [.back o])

/-- A position in a concatenation lies in one of its two parts. -/
theorem split_append {α : Type} {pre post a b : List α} {x : α}
    (h : a ++ b = pre ++ x :: post) :
    (∃ c, a = pre ++ x :: c ∧ post = c ++ b) ∨ (∃ c, pre = a ++ c ∧ b = c ++ x :: post) := by
  rcases List.append_eq_append_iff.mp h with ⟨c, hpre, hb⟩ | ⟨c, ha, hpost⟩
  · exact .inr ⟨c, hpre, hb⟩
  · cases c with
    | nil => exact .inr ⟨[], by simpa using ha.symm, by simpa using hpost.symm⟩
    | cons y c =>
        simp only [List.cons_append, List.cons.injEq] at hpost
        obtain ⟨rfl, rfl⟩ := hpost
        exact .inl ⟨c, ha, rfl⟩

/-- An output lies on one side of a record that is none. -/
theorem split_output {a b pre post : Log σ μ ν κ} {d e : Obs σ μ ν κ}
    (other : d.isOutput = false) (output : e.isOutput = true)
    (split : a ++ d :: b = pre ++ e :: post) :
    (∃ c, a = pre ++ e :: c ∧ post = c ++ d :: b) ∨
      ∃ c, pre = a ++ d :: c ∧ b = c ++ e :: post := by
  rcases split_append split with before | ⟨c, rfl, tail⟩
  · exact .inl before
  · cases c with
    | nil =>
        simp only [List.nil_append, List.cons.injEq] at tail
        rw [← tail.1, other] at output
        cases output
    | cons y c =>
        simp only [List.cons_append, List.cons.injEq] at tail
        obtain ⟨rfl, tail⟩ := tail
        exact .inr ⟨c, rfl, tail⟩

theorem takeWhile_append_cons {α : Type} {p : α → Bool} {a b : List α} {x : α}
    (h : p x = false) : (a ++ x :: b).takeWhile p = a.takeWhile p := by
  induction a with
  | nil => simp [h]
  | cons y a ih =>
      simp only [List.cons_append, List.takeWhile_cons, ih]

theorem Turn.takeWhile_log (t : Turn σ ν κ ε) :
    (t.log : Log σ μ ν κ).takeWhile Obs.isOutput = t.log :=
  List.takeWhile_eq_self_iff.mpr (fun _ member => isOutput_of_mem_log member)

/-- Before the last record of a turn there are only notes. -/
theorem Turn.log_split {t : Turn σ ν κ ε} {mid rest : Log σ μ ν κ} {e : Obs σ μ ν κ}
    (h : t.log = mid ++ e :: rest) : ∃ notes : List ν, mid = notes.map .out := by
  rcases split_append h with ⟨c, inside, _⟩ | ⟨c, rfl, tail⟩
  · obtain ⟨notes, _, _, rfl, _⟩ := List.map_eq_append_iff.mp inside
    exact ⟨notes, rfl⟩
  · cases hexit : t.exit with
    | none => simp [hexit] at tail
    | some o =>
        obtain rfl : c = [] := by
          cases c with
          | nil => rfl
          | cons d c => simp [hexit] at tail
        exact ⟨t.notes, List.append_nil _⟩

namespace Turns

/-- The entry at any position arrived where the invariant held, and what follows
it directly is the log of its handler's turn. -/
theorem recv_split {log pre post : Log σ μ ν κ} {m : μ} {s : σ} (h : Turns C I log)
    (split : log = pre ++ .recv m s :: post) :
    I ⟨s, pre, none⟩ ∧ post.takeWhile Obs.isOutput = (C.turn m s).log := by
  induction h generalizing pre post with
  | nil => simp at split
  | @turn log n t turns holds ih =>
      rcases split_append split with ⟨c, inside, rfl⟩ | ⟨c, rfl, tail⟩
      · obtain ⟨held, own⟩ := ih inside
        exact ⟨held, (takeWhile_append_cons rfl).trans own⟩
      · cases c with
        | nil =>
            simp only [List.nil_append, List.cons.injEq, Obs.recv.injEq] at tail
            obtain ⟨⟨rfl, rfl⟩, rfl⟩ := tail
            rw [List.append_nil]
            exact ⟨holds, Turn.takeWhile_log _⟩
        | cons e c =>
            simp only [List.cons_append, List.cons.injEq] at tail
            have member : Obs.recv m s ∈ (C.turn n t).log := by rw [tail.2]; simp
            cases Turn.isOutput_of_mem_log member
  | @back log o turns ih =>
      rcases split_append split with ⟨c, inside, rfl⟩ | ⟨c, rfl, tail⟩
      · obtain ⟨held, own⟩ := ih inside
        exact ⟨held, (takeWhile_append_cons rfl).trans own⟩
      · cases c <;> simp at tail

theorem ownOutputs_eq {log pre post : Log σ μ ν κ} {m : μ} {s : σ} (h : Turns C I log)
    (split : log = pre ++ .recv m s :: post) :
    Log.ownOutputs post = (C.turn m s).outputs := by
  rw [Log.ownOutputs, (h.recv_split split).2, Turn.outputs_log]

/-- The output at any position was made by the last entry before it, with nothing
but notes of the same handler in between. -/
theorem output_split {log pre post : Log σ μ ν κ} {e : Obs σ μ ν κ} (h : Turns C I log)
    (split : log = pre ++ e :: post) (output : e.isOutput = true) :
    ∃ before m s rest, ∃ notes : List ν, pre = before ++ .recv m s :: notes.map .out ∧
      (C.turn m s).log = notes.map .out ++ e :: rest ∧ I ⟨s, before, none⟩ := by
  induction h generalizing pre post with
  | nil => simp at split
  | @turn log n t turns holds ih =>
      rcases split_output rfl output split with ⟨c, inside, _⟩ | ⟨c, rfl, tail⟩
      · exact ih inside
      · obtain ⟨notes, rfl⟩ := Turn.log_split tail
        exact ⟨log, n, t, post, notes, rfl, tail, holds⟩
  | @back log o turns ih =>
      rcases split_output rfl output split with ⟨c, inside, _⟩ | ⟨c, _, tail⟩
      · exact ih inside
      · simp at tail

end Turns

/-- Every entry in a log satisfies a condition on the entry, the state it found and the
log before it. -/
def Log.EachEntry (Q : μ → σ → Log σ μ ν κ → Prop) (log : Log σ μ ν κ) : Prop :=
  ∀ pre m s post, log = pre ++ .recv m s :: post → Q m s pre

theorem Log.EachEntry.of_append {Q : μ → σ → Log σ μ ν κ → Prop} {a b : Log σ μ ν κ}
    (h : EachEntry Q (a ++ b)) : EachEntry Q a := by
  intro pre m s post split
  exact h pre m s (post ++ b) (by simp [split])

namespace Component

/-- A property of the state and the log holds after the turn of an entry. -/
def After (C : Component σ μ ν κ ε) (P : σ → Log σ μ ν κ → Prop) (m : μ) (s : σ)
    (log : Log σ μ ν κ) : Prop :=
  P (C.turn m s).state (log ++ .recv m s :: (C.turn m s).log)

/-- Every execution from the start logs nothing but turns and returns. -/
theorem Invariant.turns (hC : C.CallsLast) (h : Invariant C I) {s : σ}
    (initial : I (.start s)) (cs : List (Call μ)) :
    Turns C I (C.runAll cs (.start s)).log := by
  have both : Invariant C (fun w => I w ∧ Turns C I w.log) := by
    constructor
    · rintro ⟨s, log, fault⟩ running ⟨holds, turns⟩ m
      cases running
      exact ⟨h.step rfl holds m, .turn turns holds⟩
    · rintro w running ⟨holds, turns⟩ o
      exact ⟨h.back running holds o, .back turns⟩
  exact (both.runAll hC cs (w := .start s) ⟨initial, .nil⟩).2

/-- An invariant goes on together with the fact that only turns and returns are logged. -/
theorem Invariant.with_turns {K : World σ μ ν κ ε → Prop} (h : Invariant C I)
    (gives : ∀ {s log}, I ⟨s, log, none⟩ → K ⟨s, log, none⟩) :
    Invariant C fun w => I w ∧ Turns C K w.log where
  step := by
    rintro ⟨s, log, fault⟩ running ⟨holds, turns⟩ m
    cases running
    exact ⟨h.step rfl holds m, .turn turns (gives holds)⟩
  back := by
    rintro w running ⟨holds, turns⟩ o
    exact ⟨h.back running holds o, .back turns⟩

/-- A property kept by exactly the turns that meet a condition holds after every turn
of an execution if and only if all its turns meet the condition. -/
theorem every_turn_iff (hC : C.CallsLast) {P : σ → Log σ μ ν κ → Prop}
    {Q : μ → σ → Log σ μ ν κ → Prop} {s : σ} (initial : P s [])
    (step : ∀ {m s log}, P s log →
      (P (C.turn m s).state (log ++ .recv m s :: (C.turn m s).log) ↔ Q m s log))
    (back : ∀ {s log o}, P s log → P s (log ++ [.back o])) (cs : List (Call μ)) :
    (Log.EachEntry (C.After P) (C.runAll cs (.start s)).log ↔
      Log.EachEntry Q (C.runAll cs (.start s)).log) ∧
    (Log.EachEntry Q (C.runAll cs (.start s)).log →
      P (C.runAll cs (.start s)).state (C.runAll cs (.start s)).log) := by
  -- Either hypothesis on a log gives the property at its end.
  have invariant : Invariant C fun w =>
      Log.EachEntry (C.After P) w.log ∨ Log.EachEntry Q w.log → P w.state w.log := by
    constructor
    · intro w _ holds m given
      rcases given with after | meets
      · exact after w.log m w.state _ rfl
      · exact (step (holds (.inr meets.of_append))).mpr (meets w.log m w.state _ rfl)
    · intro w _ holds o given
      exact back (holds (given.imp Log.EachEntry.of_append Log.EachEntry.of_append))
  have turns := invariant.turns hC (s := s) (fun _ => initial) cs
  refine ⟨⟨?_, ?_⟩, ?_⟩
  · intro after pre m t post split
    obtain ⟨holds, _⟩ := turns.recv_split split
    rw [split] at after
    exact (step (holds (.inl after.of_append))).mp (after pre m t post rfl)
  · intro meets pre m t post split
    obtain ⟨holds, _⟩ := turns.recv_split split
    rw [split] at meets
    exact (step (holds (.inr meets.of_append))).mpr (meets pre m t post rfl)
  · intro meets
    exact invariant.runAll hC cs (w := .start s) (fun _ => initial) (.inr meets)

end Component
end Reentrant
