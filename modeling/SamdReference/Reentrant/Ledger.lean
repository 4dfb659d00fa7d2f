import Mathlib.Algebra.BigOperators.Group.Finset.Piecewise
import Mathlib.Data.Multiset.AddSub
import SamdReference.Reentrant.Family

/-!
# Requests, answers and what is owed

A component answers a request within its turn or owes the answer until a later one. A
ledger says which entries are requests, which calls answer one and what a state owes. It
is balanced when every turn answers what it received and what was owed, up to what it
leaves owed. Then the requests received are at all times the answers given and the ones
owed, in every execution, and so on a board of components that are each balanced.
-/

namespace Reentrant

structure Ledger (σ μ κ γ : Type) where
  request : μ → Option γ
  answer : κ → Option γ
  owed : σ → Multiset γ

/-- One entry of a ledger or none, as a multiset. -/
def single {γ : Type} (x : Option γ) : Multiset γ := x.toList

section Single

variable {γ ι : Type}

@[simp] theorem single_none : single (none : Option γ) = 0 := rfl

@[simp] theorem single_some (x : γ) : single (some x) = {x} := rfl

theorem single_map (x : Option γ) (f : γ → ι) : single (x.map f) = (single x).map f := by
  cases x <;> simp

end Single

namespace Ledger

section Alone

variable {σ μ ν κ ε γ : Type} (L : Ledger σ μ κ γ)

/-- The requests received, in order. -/
def requests (log : Log σ μ ν κ) : List γ :=
  log.filterMap fun
    | .recv m _ => L.request m
    | _ => none

/-- The answers given, in order. -/
def answers (log : Log σ μ ν κ) : List γ :=
  log.filterMap fun
    | .call o _ => L.answer o
    | _ => none

theorem requests_turn (log : Log σ μ ν κ) (m : μ) (s : σ) (t : Turn σ ν κ ε) :
    (L.requests (log ++ .recv m s :: t.log) : Multiset γ) =
      L.requests log + single (L.request m) := by
  have entry : L.requests (log ++ .recv m s :: t.log) =
      L.requests log ++ (L.request m).toList :=
    Log.filterMap_turn (fun _ => rfl) (fun _ _ => rfl) log m s t
  rw [entry, ← Multiset.coe_add]
  rfl

theorem answers_turn (log : Log σ μ ν κ) (m : μ) (s : σ) (t : Turn σ ν κ ε) :
    (L.answers (log ++ .recv m s :: t.log) : Multiset γ) =
      L.answers log + single (t.exit.bind L.answer) := by
  have notes : L.answers (t.notes.map .out : Log σ μ ν κ) = [] := by
    rw [answers, List.filterMap_map, List.filterMap_eq_nil_iff]
    intro o _
    rfl
  have own : L.answers (.recv m s :: t.log) = (t.exit.bind L.answer).toList := by
    change L.answers (t.log : Log σ μ ν κ) = _
    rw [answers] at notes ⊢
    rw [Turn.log, List.filterMap_append, notes]
    cases h : t.exit with
    | none => rfl
    | some o => cases answer : L.answer o <;> simp [answer]
  rw [answers] at own ⊢
  rw [List.filterMap_append, own, ← Multiset.coe_add]
  rfl

@[simp] theorem requests_back (log : Log σ μ ν κ) (o : κ) :
    L.requests (log ++ [.back o]) = L.requests log := by
  simp [requests]

@[simp] theorem answers_back (log : Log σ μ ν κ) (o : κ) :
    L.answers (log ++ [.back o]) = L.answers log := by
  simp [answers]

/-- Every turn from a state with the property keeps it, and answers what it received and
what was owed up to what it leaves owed. -/
structure Balanced (C : Component σ μ ν κ ε) (P : σ → Prop) : Prop where
  kept : ∀ {m s}, P s → P (C.turn m s).state
  turn : ∀ {m s}, P s →
    single (L.request m) + L.owed s =
      single ((C.turn m s).exit.bind L.answer) + L.owed (C.turn m s).state

variable {L} {C : Component σ μ ν κ ε} {P : σ → Prop}

theorem Balanced.invariant (h : L.Balanced C P) :
    C.Invariant fun w => P w.state ∧
      (L.requests w.log : Multiset γ) = L.answers w.log + L.owed w.state where
  step := by
    rintro w running ⟨holds, balanced⟩ m
    refine ⟨h.kept holds, ?_⟩
    rw [Component.step, requests_turn, answers_turn]
    calc (L.requests w.log : Multiset γ) + single (L.request m)
      _ = L.answers w.log + (single (L.request m) + L.owed w.state) := by
          rw [balanced, add_right_comm, add_assoc]
      _ = L.answers w.log + single ((C.turn m w.state).exit.bind L.answer) +
            L.owed (C.turn m w.state).state := by
          rw [h.turn holds, add_assoc]
  back := by
    rintro w running ⟨holds, balanced⟩ o
    refine ⟨holds, ?_⟩
    rw [World.push_log, requests_back, answers_back]
    exact balanced

/-- The requests received are the answers given and the ones owed. -/
theorem Balanced.runAll (h : L.Balanced C P) (hC : C.CallsLast) {s : σ} (initial : P s)
    (nothing : L.owed s = 0) (cs : List (Call μ)) :
    P (C.runAll cs (.start s)).state ∧
      (L.requests (C.runAll cs (.start s)).log : Multiset γ) =
        L.answers (C.runAll cs (.start s)).log + L.owed (C.runAll cs (.start s)).state :=
  h.invariant.runAll hC cs ⟨initial, by rw [World.start, nothing]; rfl⟩

end Alone

section Family

variable {ι : Type} [DecidableEq ι] [Fintype ι] {σ μ ν κ ε : ι → Type} {γ : Type}

/-- The ledgers of the components of a board, their entries kept apart by index. -/
def family (L : ∀ i, Ledger (σ i) (μ i) (κ i) γ) :
    Ledger (∀ i, σ i) (Σ i, μ i) (Σ i, κ i) (ι × γ) where
  request m := ((L m.1).request m.2).map (m.1, ·)
  answer o := ((L o.1).answer o.2).map (o.1, ·)
  owed s := ∑ i, ((L i).owed (s i)).map (i, ·)

variable {L : ∀ i, Ledger (σ i) (μ i) (κ i) γ}

/-- What the board owes when one component changed. -/
theorem owed_update (s : ∀ i, σ i) (i : ι) (u : σ i) :
    ((family L).owed (Function.update s i u)) + ((L i).owed (s i)).map (i, ·) =
      (family L).owed s + ((L i).owed u).map (i, ·) := by
  have split : ∀ v : σ i, (family L).owed (Function.update s i v) =
      ((L i).owed v).map (i, ·) +
        ∑ j ∈ Finset.univ \ {i}, ((L j).owed (s j)).map (j, ·) := by
    intro v
    rw [← Finset.sum_update_of_mem (Finset.mem_univ i)]
    refine Finset.sum_congr rfl fun j _ => ?_
    by_cases same : j = i
    · subst same
      simp
    · simp [same]
  have whole := split (s i)
  rw [Function.update_eq_self] at whole
  rw [split u, whole, add_right_comm, add_comm (((L i).owed u).map (i, ·)), add_right_comm]

theorem Balanced.family {C : ∀ i, Component (σ i) (μ i) (ν i) (κ i) (ε i)}
    {P : ∀ i, σ i → Prop} (h : ∀ i, (L i).Balanced (C i) (P i)) :
    (Ledger.family L).Balanced (Component.family C) fun s => ∀ i, P i (s i) where
  kept := by
    rintro ⟨i, m⟩ s holds j
    rw [Component.turn_family]
    by_cases same : j = i
    · subst same
      simpa [Turn.within] using (h j).kept (holds j)
    · simpa [Turn.within, same] using holds j
  turn := by
    rintro ⟨i, m⟩ s holds
    have own := congrArg (Multiset.map (i, ·)) ((h i).turn (m := m) (holds i))
    rw [Multiset.map_add, Multiset.map_add, ← single_map, ← single_map] at own
    rw [Component.turn_family]
    have answer : (((C i).turn m (s i)).within i s).exit.bind (Ledger.family L).answer =
        (((C i).turn m (s i)).exit.bind (L i).answer).map (i, ·) := by
      cases h : ((C i).turn m (s i)).exit <;> simp [Turn.within, h, Ledger.family]
    rw [answer]
    have changed := owed_update (L := L) s i ((C i).turn m (s i)).state
    have request : (Ledger.family L).request ⟨i, m⟩ = ((L i).request m).map (i, ·) := rfl
    rw [request]
    -- Both sides once the debt of this component before the turn is added.
    apply add_right_cancel (b := ((L i).owed (s i)).map (i, ·))
    calc single (((L i).request m).map (i, ·)) + (Ledger.family L).owed s +
          ((L i).owed (s i)).map (i, ·)
      _ = single ((((C i).turn m (s i)).exit.bind (L i).answer).map (i, ·)) +
            ((L i).owed ((C i).turn m (s i)).state).map (i, ·) + (Ledger.family L).owed s := by
          rw [add_right_comm, own]
      _ = single ((((C i).turn m (s i)).exit.bind (L i).answer).map (i, ·)) +
            (Ledger.family L).owed (Function.update s i ((C i).turn m (s i)).state) +
            ((L i).owed (s i)).map (i, ·) := by
          rw [add_assoc, add_comm _ ((Ledger.family L).owed s), ← changed, ← add_assoc]

end Family

end Ledger
end Reentrant
