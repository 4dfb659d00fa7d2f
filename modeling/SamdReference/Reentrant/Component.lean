import SamdReference.Reentrant.Handler

/-!
# Components and the runs of their environment

A component answers entry points with handlers. Its environment is not fixed: a
`Call` is one entry together with the entries the environment makes inside each
call the handler makes in turn, in order, and so on inward to any finite depth.
Every finite execution against any environment is the run of such a tree.

The log keeps entries and calls with the members found there, so that what held
storage at a call can be read back from the log alone.
-/

namespace Reentrant

variable {σ μ ν κ ε : Type}

/-- One record of an execution. `back` marks the return of a call. -/
inductive Obs (σ μ ν κ : Type) where
  | recv (m : μ) (s : σ)
  | out (o : ν)
  | call (o : κ) (s : σ)
  | back (o : κ)
  deriving DecidableEq

/-- An output in either of its two kinds. -/
inductive Output (ν κ : Type) where
  | note (o : ν)
  | call (o : κ)
  deriving DecidableEq

namespace Obs

def output? : Obs σ μ ν κ → Option (Output ν κ)
  | .out o => some (.note o)
  | .call o _ => some (.call o)
  | _ => none

def isOutput (e : Obs σ μ ν κ) : Bool := e.output?.isSome

def isBack : Obs σ μ ν κ → Bool
  | .back _ => true
  | _ => false

@[simp] theorem isOutput_recv (m : μ) (s : σ) :
    (Obs.recv m s : Obs σ μ ν κ).isOutput = false := rfl

@[simp] theorem isOutput_out (o : ν) : (Obs.out o : Obs σ μ ν κ).isOutput = true := rfl

@[simp] theorem isOutput_call (o : κ) (s : σ) :
    (Obs.call o s : Obs σ μ ν κ).isOutput = true := rfl

@[simp] theorem isOutput_back (o : κ) :
    (Obs.back o : Obs σ μ ν κ).isOutput = false := rfl

end Obs

abbrev Log (σ μ ν κ : Type) := List (Obs σ μ ν κ)

namespace Log

/-- All outputs in the order they were made. -/
def outputs (log : Log σ μ ν κ) : List (Output ν κ) := log.filterMap Obs.output?

/-- The notes in the order they were emitted. -/
def notes (log : Log σ μ ν κ) : List ν :=
  log.filterMap fun
    | .out o => some o
    | _ => none

/-- The outputs made directly after an entry, before anything else happens. -/
def ownOutputs (log : Log σ μ ν κ) : List (Output ν κ) :=
  outputs (log.takeWhile Obs.isOutput)

/-- The log without the returns of calls. -/
def flatten (log : Log σ μ ν κ) : Log σ μ ν κ := log.filter (fun e => !e.isBack)

@[simp] theorem outputs_append (a b : Log σ μ ν κ) :
    outputs (a ++ b) = outputs a ++ outputs b := List.filterMap_append

@[simp] theorem notes_append (a b : Log σ μ ν κ) :
    notes (a ++ b) = notes a ++ notes b := List.filterMap_append

@[simp] theorem flatten_append (a b : Log σ μ ν κ) :
    flatten (a ++ b) = flatten a ++ flatten b := List.filter_append ..

theorem outputs_flatten (log : Log σ μ ν κ) : outputs (flatten log) = outputs log := by
  rw [flatten, outputs, List.filterMap_filter]
  congr
  funext e
  cases e <;> rfl

end Log

/-- The members, everything that happened, and the fault that ended it if any. -/
structure World (σ μ ν κ ε : Type) where
  state : σ
  log : Log σ μ ν κ
  fault : Option ε

namespace World

/-- A component in the given state with nothing behind it. -/
def start (s : σ) : World σ μ ν κ ε := ⟨s, [], none⟩

def push (w : World σ μ ν κ ε) (e : Obs σ μ ν κ) : World σ μ ν κ ε :=
  { w with log := w.log ++ [e] }

@[simp] theorem push_log (w : World σ μ ν κ ε) (e : Obs σ μ ν κ) :
    (w.push e).log = w.log ++ [e] := rfl

end World

/-- Execute a handler. `nested` holds what the environment does inside the
handler's successive calls; a call beyond the end of the list is not re-entered.
A fault raised inside a call ends the whole execution. -/
def Proc.drive : Proc σ ν κ ε Unit → List (World σ μ ν κ ε → World σ μ ν κ ε) →
    World σ μ ν κ ε → World σ μ ν κ ε
  | .ret _ s, _, w => { w with state := s }
  | .halt fault s, _, w => { w with state := s, fault := some fault }
  | .note o rest, nested, w => rest.drive nested (w.push (.out o))
  | .call o s resume, nested, w =>
      let inner := nested.headD id ({ w with state := s }.push (.call o s))
      match inner.fault with
      | some _ => inner
      | none => (resume inner.state).drive nested.tail (inner.push (.back o))

/-- An entry and, for each call its handler makes, the entries the environment
makes before that call returns. -/
inductive Call (μ : Type) where
  | mk (entry : μ) (nested : List (List (Call μ)))

/-- A component is its table of handlers. -/
structure Component (σ μ ν κ ε : Type) where
  handle : μ → Handler σ ν κ ε Unit

namespace Component

mutual

/-- Run one call of the environment. A stopped component takes no entry. -/
def run (C : Component σ μ ν κ ε) : Call μ → World σ μ ν κ ε → World σ μ ν κ ε
  | .mk m nested => fun w =>
      match w.fault with
      | some _ => w
      | none => (C.handle m w.state).drive (runNested C nested) (w.push (.recv m w.state))
termination_by structural c => c

def runAll (C : Component σ μ ν κ ε) : List (Call μ) → World σ μ ν κ ε → World σ μ ν κ ε
  | [] => fun w => w
  | c :: cs => fun w => runAll C cs (run C c w)
termination_by structural cs => cs

def runNested (C : Component σ μ ν κ ε) :
    List (List (Call μ)) → List (World σ μ ν κ ε → World σ μ ν κ ε)
  | [] => []
  | cs :: rest => runAll C cs :: runNested C rest
termination_by structural css => css

end

variable {C : Component σ μ ν κ ε}

@[simp] theorem runAll_nil (w : World σ μ ν κ ε) : C.runAll [] w = w := rfl

@[simp] theorem runAll_cons (c : Call μ) (cs : List (Call μ)) (w : World σ μ ν κ ε) :
    C.runAll (c :: cs) w = C.runAll cs (C.run c w) := rfl

theorem runAll_append (cs ds : List (Call μ)) (w : World σ μ ν κ ε) :
    C.runAll (cs ++ ds) w = C.runAll ds (C.runAll cs w) := by
  induction cs generalizing w with
  | nil => rfl
  | cons c cs ih => exact ih (C.run c w)

theorem runNested_headD (nested : List (List (Call μ))) :
    (C.runNested nested).headD id = C.runAll (nested.headD []) := by
  cases nested <;> rfl

theorem run_of_fault {w : World σ μ ν κ ε} {fault : ε} (h : w.fault = some fault)
    (c : Call μ) : C.run c w = w := by
  cases c
  simp only [run, h]

theorem runAll_of_fault {w : World σ μ ν κ ε} {fault : ε} (h : w.fault = some fault)
    (cs : List (Call μ)) : C.runAll cs w = w := by
  induction cs with
  | nil => rfl
  | cons c cs ih => rw [runAll_cons, run_of_fault h, ih]

end Component

/-- Induction over the entries of a call tree, however deep they are nested. -/
theorem Call.induction {P : Call μ → Prop}
    (mk : ∀ m nested, (∀ cs ∈ nested, ∀ c ∈ cs, P c) → P (.mk m nested)) (c : Call μ) :
    P c := by
  refine @Call.rec μ P (fun nested => ∀ cs ∈ nested, ∀ c ∈ cs, P c)
    (fun cs => ∀ c ∈ cs, P c) mk ?_ ?_ ?_ ?_ c
  · intro cs member
    cases member
  · intro cs nested first rest ds member
    rcases List.mem_cons.mp member with rfl | member
    · exact first
    · exact rest ds member
  · intro c member
    cases member
  · intro c cs first rest d member
    rcases List.mem_cons.mp member with rfl | member
    · exact first
    · exact rest d member

end Reentrant
