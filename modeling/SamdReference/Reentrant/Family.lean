import Mathlib.Logic.Function.Basic
import SamdReference.Reentrant.Turns

/-!
# A family of components on one board

Components that share nothing but the board run interleaved: any of them may be entered
while another one's call is open, and a stop of one stops all. The family is a component
again, whose members are the members of all. What it does, seen at one index, is what
the component there does: an invariant of one component holds of it on every board, and
an execution of the board that no other component stopped is an execution of that
component alone, with the other ones as part of its environment.
-/

namespace Reentrant

variable {ι : Type} [DecidableEq ι] {σ μ ν κ ε : ι → Type}

/-- A handler of the component at `i` acting on its own members of the board. -/
def Proc.within {α : Type} (i : ι) :
    Proc (σ i) (ν i) (κ i) (ε i) α → (∀ j, σ j) → Proc (∀ j, σ j) (Σ j, ν j) (Σ j, κ j) (Σ j, ε j) α
  | .ret value u, s => .ret value (Function.update s i u)
  | .halt fault u, s => .halt ⟨i, fault⟩ (Function.update s i u)
  | .note o rest, s => .note ⟨i, o⟩ (rest.within i s)
  | .call o u resume, s =>
      .call ⟨i, o⟩ (Function.update s i u) fun t => (resume (t i)).within i t

/-- The components of a family, entered by index. -/
def Component.family (C : ∀ i, Component (σ i) (μ i) (ν i) (κ i) (ε i)) :
    Component (∀ i, σ i) (Σ i, μ i) (Σ i, ν i) (Σ i, κ i) (Σ i, ε i) where
  handle m := fun s => ((C m.1).handle m.2 (s m.1)).within m.1 s

/-- The turn of the component at `i`, on the board. -/
def Turn.within (i : ι) (t : Turn (σ i) (ν i) (κ i) (ε i)) (s : ∀ j, σ j) :
    Turn (∀ j, σ j) (Σ j, ν j) (Σ j, κ j) (Σ j, ε j) :=
  ⟨t.notes.map (⟨i, ·⟩), t.exit.map (⟨i, ·⟩), Function.update s i t.state,
    t.fault.map (⟨i, ·⟩)⟩

theorem Proc.turn_within {α : Type} {i : ι} (p : Proc (σ i) (ν i) (κ i) (ε i) α)
    (s : ∀ j, σ j) : (p.within i s).turn = p.turn.within i s := by
  induction p with
  | ret value u => rfl
  | halt fault u => rfl
  | note o rest ih =>
      rw [within, turn_note, ih]
      rfl
  | call o u resume => rfl

theorem Proc.callsLast_within {i : ι} {p : Proc (σ i) (ν i) (κ i) (ε i) Unit}
    (h : p.CallsLast) (s : ∀ j, σ j) : (p.within i s).CallsLast := by
  induction p with
  | ret value u => trivial
  | halt fault u => trivial
  | note o rest ih => exact ih h
  | call o u resume =>
      intro t
      have last : resume (t i) = .ret () (t i) := h (t i)
      change (resume (t i)).within i t = .ret () t
      rw [last, within, Function.update_eq_self]

/-- The value, if it is tagged with an index. -/
def tagged? {α : ι → Type} (i : ι) (x : Σ j, α j) : Option (α i) :=
  if h : x.1 = i then some (h ▸ x.2) else none

section Tagged

variable {α : ι → Type} {i j : ι}

@[simp] theorem tagged_self (a : α i) : tagged? i (⟨i, a⟩ : Σ j, α j) = some a := dif_pos rfl

theorem tagged_ne (h : j ≠ i) (a : α j) : tagged? i (⟨j, a⟩ : Σ j, α j) = none := dif_neg h

end Tagged

/-- The board when the components of the family run on it. -/
abbrev Board (σ μ ν κ ε : ι → Type) :=
  World (∀ i, σ i) (Σ i, μ i) (Σ i, ν i) (Σ i, κ i) (Σ i, ε i)

/-- What a record of the board is to the component at an index. -/
def Obs.at? (i : ι) :
    Obs (∀ j, σ j) (Σ j, μ j) (Σ j, ν j) (Σ j, κ j) → Option (Obs (σ i) (μ i) (ν i) (κ i))
  | .recv m s => (tagged? i m).map (.recv · (s i))
  | .out o => (tagged? i o).map .out
  | .call o s => (tagged? i o).map (.call · (s i))
  | .back o => (tagged? i o).map .back

/-- The board as the component at an index sees it. -/
def World.at (w : Board σ μ ν κ ε) (i : ι) : World (σ i) (μ i) (ν i) (κ i) (ε i) :=
  ⟨w.state i, w.log.filterMap (Obs.at? i), w.fault.bind (tagged? i)⟩

/-- No other component has stopped the board. -/
def World.OnlyAt (w : Board σ μ ν κ ε) (i : ι) : Prop := ∀ f, w.fault = some f → f.1 = i

section Turns

variable {i j : ι}

theorem Turn.log_within_self (t : Turn (σ i) (ν i) (κ i) (ε i)) (s : ∀ j, σ j) :
    ((t.within i s).log : Log (∀ j, σ j) (Σ j, μ j) (Σ j, ν j) (Σ j, κ j)).filterMap
      (Obs.at? i) = t.log := by
  have notes : (t.notes.map fun o => (.out ⟨i, o⟩ :
      Obs (∀ j, σ j) (Σ j, μ j) (Σ j, ν j) (Σ j, κ j))).filterMap (Obs.at? i) =
      t.notes.map .out := by
    have each : (Obs.at? i ∘ fun o : ν i => (.out ⟨i, o⟩ :
        Obs (∀ j, σ j) (Σ j, μ j) (Σ j, ν j) (Σ j, κ j))) = some ∘ .out := by
      funext o
      simp [Obs.at?]
    rw [List.filterMap_map, each, List.filterMap_eq_map]
  simp only [Turn.log, Turn.within, List.map_map, List.filterMap_append]
  refine congrArg₂ (· ++ ·) notes ?_
  cases t.exit <;> simp [Obs.at?]

theorem Turn.log_within_ne (h : j ≠ i) (t : Turn (σ j) (ν j) (κ j) (ε j)) (s : ∀ j, σ j) :
    ((t.within j s).log : Log (∀ j, σ j) (Σ j, μ j) (Σ j, ν j) (Σ j, κ j)).filterMap
      (Obs.at? i) = [] := by
  rw [List.filterMap_eq_nil_iff]
  intro e member
  simp only [Turn.log, Turn.within, List.mem_append, List.mem_map] at member
  rcases member with ⟨o, ⟨o', _, rfl⟩, rfl⟩ | member
  · simp [Obs.at?, tagged_ne h]
  · cases exit : t.exit with
    | none => simp [exit] at member
    | some o =>
        simp only [exit, Option.map_some, Option.toList_some, List.mem_singleton] at member
        subst member
        simp [Obs.at?, tagged_ne h]

end Turns

namespace World

omit [DecidableEq ι] in
theorem onlyAt_of_running {w : Board σ μ ν κ ε} (running : w.fault = none) (i : ι) :
    w.OnlyAt i := by
  intro f stopped
  rw [running] at stopped
  cases stopped

theorem at_running {w : Board σ μ ν κ ε} (running : w.fault = none) (i : ι) :
    (w.at i).fault = none := by
  simp [World.at, running]

/-- If only one component can have stopped the board, its stop is one of the board. -/
theorem running_iff {w : Board σ μ ν κ ε} {i : ι} (alone : w.OnlyAt i) :
    w.fault = none ↔ (w.at i).fault = none := by
  constructor
  · exact fun running => w.at_running running i
  · intro running
    cases stopped : w.fault with
    | none => rfl
    | some f =>
        obtain ⟨j, fault⟩ := f
        obtain rfl : j = i := alone ⟨j, fault⟩ stopped
        simp [World.at, stopped] at running

@[simp] theorem at_start (s : ∀ i, σ i) (i : ι) :
    (start s : Board σ μ ν κ ε).at i = start (s i) := rfl

@[simp] theorem at_back_self (w : Board σ μ ν κ ε) (i : ι) (o : κ i) :
    (w.push (.back ⟨i, o⟩)).at i = (w.at i).push (.back o) := by
  simp [World.at, World.push, Obs.at?]

theorem at_back_ne (w : Board σ μ ν κ ε) {i j : ι} (h : j ≠ i) (o : κ j) :
    (w.push (.back ⟨j, o⟩)).at i = w.at i := by
  simp [World.at, World.push, Obs.at?, tagged_ne h]

theorem at_finishCall_self {w : Board σ μ ν κ ε} {i : ι} (alone : w.OnlyAt i) (o : κ i) :
    (w.finishCall ⟨i, o⟩).at i = (w.at i).finishCall o := by
  cases stopped : w.fault with
  | none =>
      rw [finishCall_of_running stopped, finishCall_of_running (w.at_running stopped i),
        at_back_self]
  | some f =>
      obtain ⟨j, fault⟩ := f
      obtain rfl : j = i := alone ⟨j, fault⟩ stopped
      have stopped' : (w.at j).fault = some fault := by simp [World.at, stopped]
      rw [finishCall_of_fault stopped, finishCall_of_fault stopped']

theorem at_finishCall_ne {i j : ι} (h : j ≠ i) (w : Board σ μ ν κ ε) (o : κ j) :
    (w.finishCall ⟨j, o⟩).at i = w.at i := by
  cases stopped : w.fault with
  | none => rw [finishCall_of_running stopped, at_back_ne w h]
  | some f => rw [finishCall_of_fault stopped]

end World

namespace Component

variable {C : ∀ i, Component (σ i) (μ i) (ν i) (κ i) (ε i)}

theorem turn_family (m : Σ i, μ i) (s : ∀ i, σ i) :
    (family C).turn m s = ((C m.1).turn m.2 (s m.1)).within m.1 s :=
  Proc.turn_within _ s

theorem callsLast_family (hC : ∀ i, (C i).CallsLast) : (family C).CallsLast :=
  fun m s => Proc.callsLast_within (hC m.1 m.2 (s m.1)) s

/-- A turn of the component at an index is its turn. -/
theorem step_at_self (i : ι) (m : μ i) (w : Board σ μ ν κ ε) :
    ((family C).step ⟨i, m⟩ w).at i = (C i).step m (w.at i) := by
  have fault : ((((C i).turn m (w.state i)).fault.map fun f => (⟨i, f⟩ : Σ j, ε j)).bind
      (tagged? i)) = ((C i).turn m (w.state i)).fault := by
    cases ((C i).turn m (w.state i)).fault <;> simp
  simp only [World.at, step, turn_family, List.filterMap_append, List.filterMap_cons, Obs.at?,
    tagged_self, Option.map_some, Turn.log_within_self]
  simp only [Turn.within, Function.update_self, fault]

/-- A turn of another component is none. -/
theorem step_at_ne {i j : ι} (h : j ≠ i) (m : μ j) {w : Board σ μ ν κ ε}
    (running : w.fault = none) : ((family C).step ⟨j, m⟩ w).at i = w.at i := by
  have fault : ((((C j).turn m (w.state j)).fault.map fun f => (⟨j, f⟩ : Σ j, ε j)).bind
      (tagged? i)) = none := by
    cases ((C j).turn m (w.state j)).fault <;> simp [tagged_ne h]
  simp only [World.at, step, turn_family, List.filterMap_append, List.filterMap_cons, Obs.at?,
    tagged_ne h, Option.map_none, Turn.log_within_ne h, List.append_nil, running,
    Option.bind_none]
  simp only [Turn.within, Function.update_of_ne (Ne.symm h), fault]

/-- An invariant of one component is one of the board. -/
theorem Invariant.family {i : ι} {I : World (σ i) (μ i) (ν i) (κ i) (ε i) → Prop}
    (h : Invariant (C i) I) : Invariant (Component.family C) fun w => I (w.at i) where
  step := by
    rintro w running holds ⟨j, m⟩
    by_cases same : j = i
    · subst same
      rw [step_at_self]
      exact h.step (w.at_running running j) holds m
    · rwa [step_at_ne same m running]
  back := by
    rintro w running holds ⟨j, o⟩
    by_cases same : j = i
    · subst same
      rw [World.at_back_self]
      exact h.back (w.at_running running j) holds o
    · rwa [World.at_back_ne w same]

/-- The board went from one world to another, and if no other component has stopped it
then the component at an index made calls of its own environment. -/
def Progresses (C : ∀ i, Component (σ i) (μ i) (ν i) (κ i) (ε i)) (i : ι)
    (w v : Board σ μ ν κ ε) : Prop :=
  v.OnlyAt i → w.OnlyAt i ∧ ∃ cs, v.at i = (C i).runAll cs (w.at i)

theorem progresses (hC : ∀ i, (C i).CallsLast) (i : ι) :
    Passage (Component.family C) (Progresses C i) where
  refl w alone := ⟨alone, [], rfl⟩
  trans := by
    intro u v w first second alone
    obtain ⟨middle, cs, reached⟩ := second alone
    obtain ⟨start, bs, begun⟩ := first middle
    refine ⟨start, bs ++ cs, ?_⟩
    rw [runAll_append, ← begun, reached]
  quiet := by
    rintro w ⟨j, m⟩ running exit _
    refine ⟨World.onlyAt_of_running running i, ?_⟩
    by_cases same : j = i
    · subst same
      have quiet : ((C j).turn m (w.at j).state).exit = none := by
        rw [turn_family] at exit
        exact Option.map_eq_none_iff.mp exit
      refine ⟨[.mk m []], ?_⟩
      rw [step_at_self, runAll_cons, run_mk (hC j) m [] (w.at_running running j), quiet]
      rfl
    · refine ⟨[], ?_⟩
      rw [step_at_ne same m running, runAll_nil]
  called := by
    rintro w ⟨j, m⟩ o v running exit inside alone
    refine ⟨World.onlyAt_of_running running i, ?_⟩
    obtain ⟨o', exit', rfl⟩ : ∃ o', ((C j).turn m (w.at j).state).exit = some o' ∧ o = ⟨j, o'⟩ := by
      rw [turn_family] at exit
      obtain ⟨o', exit', same⟩ := Option.map_eq_some_iff.mp exit
      exact ⟨o', exit', same.symm⟩
    have inner : v.OnlyAt i := by
      intro f stopped
      apply alone
      rwa [World.finishCall_of_fault stopped]
    obtain ⟨_, cs, reached⟩ := inside inner
    by_cases same : j = i
    · subst same
      rw [step_at_self] at reached
      refine ⟨[.mk m [cs]], ?_⟩
      rw [runAll_cons, run_mk (hC j) m [cs] (w.at_running running j), exit', List.headD_cons,
        ← reached, runAll_nil, World.at_finishCall_self inner]
    · rw [step_at_ne same m running] at reached
      refine ⟨cs, ?_⟩
      rw [← reached, World.at_finishCall_ne same]

/-- What happened to a component on a board that no other component stopped is an
execution of that component alone. -/
theorem family_alone (hC : ∀ i, (C i).CallsLast) (i : ι) (cs : List (Call (Σ i, μ i)))
    (s : ∀ i, σ i) (alone : ((family C).runAll cs (.start s) : Board σ μ ν κ ε).OnlyAt i) :
    ∃ own, ((family C).runAll cs (.start s) : Board σ μ ν κ ε).at i =
      (C i).runAll own (.start (s i)) :=
  ((progresses hC i).runAll (callsLast_family hC) cs (.start s) alone).2

end Component
end Reentrant
