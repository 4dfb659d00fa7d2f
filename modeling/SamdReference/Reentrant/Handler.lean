/-!
# Handlers that call out

A handler runs on the members of a component and hands control away at two kinds
of output. A note (an event, a telemetry write) returns at once and lets nothing
else run. A call passes control to another party, which may enter the component
again before the call returns, so the continuation of a call receives whatever
members that party left behind.

`Proc` is this behaviour as data: the result, a stop, a note, or a call together
with its continuation. A handler that has nothing left to do once its call
returns is summarized by its `Turn`, the part up to that call.
-/

namespace Reentrant

/-- What a handler does from a given state on. The continuation of a call takes
the state found when the call returns. -/
inductive Proc (σ ν κ ε α : Type) where
  | ret (value : α) (s : σ)
  | halt (fault : ε) (s : σ)
  | note (o : ν) (rest : Proc σ ν κ ε α)
  | call (o : κ) (s : σ) (resume : σ → Proc σ ν κ ε α)

/-- A handler body: it reads and updates the state, emits notes and calls out. -/
def Handler (σ ν κ ε α : Type) := σ → Proc σ ν κ ε α

variable {σ ν κ ε α β : Type}

namespace Proc

/-- Sequential composition. A stop discards the rest; the state a call returns
with is the one the rest continues from. -/
def bind : Proc σ ν κ ε α → (α → Handler σ ν κ ε β) → Proc σ ν κ ε β
  | .ret value s, f => f value s
  | .halt fault s, _ => .halt fault s
  | .note o rest, f => .note o (rest.bind f)
  | .call o s resume, f => .call o s (fun t => (resume t).bind f)

@[simp] theorem bind_ret (value : α) (s : σ) (f : α → Handler σ ν κ ε β) :
    (Proc.ret value s).bind f = f value s := rfl

@[simp] theorem bind_halt (fault : ε) (s : σ) (f : α → Handler σ ν κ ε β) :
    (Proc.halt fault s).bind f = .halt fault s := rfl

@[simp] theorem bind_note (o : ν) (rest : Proc σ ν κ ε α) (f : α → Handler σ ν κ ε β) :
    (Proc.note o rest).bind f = .note o (rest.bind f) := rfl

@[simp] theorem bind_call (o : κ) (s : σ) (resume : σ → Proc σ ν κ ε α)
    (f : α → Handler σ ν κ ε β) :
    (Proc.call o s resume).bind f = .call o s (fun t => (resume t).bind f) := rfl

@[simp] theorem bind_ite (c : Prop) [Decidable c] (p q : Proc σ ν κ ε α)
    (f : α → Handler σ ν κ ε β) :
    (if c then p else q).bind f = if c then p.bind f else q.bind f := by
  split <;> rfl

end Proc

namespace Handler

instance : Monad (Handler σ ν κ ε) where
  pure value := fun s => .ret value s
  bind x f := fun s => (x s).bind f

instance : MonadStateOf σ (Handler σ ν κ ε) where
  get := fun s => .ret s s
  set s := fun _ => .ret ⟨⟩ s
  modifyGet f := fun s => .ret (f s).1 (f s).2

/-- Emit an output that lets nothing else run. -/
def note (o : ν) : Handler σ ν κ ε Unit := fun s => .note o (.ret () s)

/-- Call out. Another party may enter the component before the call returns. -/
def call (o : κ) : Handler σ ν κ ε Unit := fun s => .call o s (fun t => .ret () t)

/-- Stop for good, as a failed assertion does. -/
def halt (fault : ε) : Handler σ ν κ ε α := fun s => .halt fault s

/-- Continue only when the condition holds. -/
def assert (c : Bool) (fault : ε) : Handler σ ν κ ε Unit :=
  if c then pure () else halt fault

@[simp] theorem pure_apply (value : α) (s : σ) :
    (pure value : Handler σ ν κ ε α) s = .ret value s := rfl

@[simp] theorem bind_apply (x : Handler σ ν κ ε α) (f : α → Handler σ ν κ ε β) (s : σ) :
    (x >>= f) s = (x s).bind f := rfl

@[simp] theorem get_apply (s : σ) : (MonadState.get : Handler σ ν κ ε σ) s = .ret s s := rfl

@[simp] theorem modify_apply (f : σ → σ) (s : σ) :
    (modify f : Handler σ ν κ ε Unit) s = .ret () (f s) := rfl

@[simp] theorem note_apply (o : ν) (s : σ) :
    (note o : Handler σ ν κ ε Unit) s = .note o (.ret () s) := rfl

@[simp] theorem call_apply (o : κ) (s : σ) :
    (call o : Handler σ ν κ ε Unit) s = .call o s (fun t => .ret () t) := rfl

@[simp] theorem halt_apply (fault : ε) (s : σ) :
    (halt fault : Handler σ ν κ ε α) s = .halt fault s := rfl

@[simp] theorem assert_apply (c : Bool) (fault : ε) (s : σ) :
    (assert c fault : Handler σ ν κ ε Unit) s =
      if c then .ret () s else .halt fault s := by
  cases c <;> rfl

@[simp] theorem ite_apply (c : Prop) [Decidable c] (x y : Handler σ ν κ ε α) (s : σ) :
    (if c then x else y) s = if c then x s else y s := by
  split <;> rfl

end Handler

/-- Returning nothing after a handler that returns nothing changes nothing. -/
@[simp] theorem Proc.bind_pure_unit (p : Proc σ ν κ ε Unit) :
    p.bind (fun _ => pure ()) = p := by
  induction p with
  | ret value s => rfl
  | halt fault s => rfl
  | note o rest ih => rw [bind_note, ih]
  | call o s resume ih =>
      rw [bind_call]
      exact congrArg (Proc.call o s) (funext ih)

/-- The part of a handler up to its first call: the notes emitted, the call made
if there is one, the state exposed there, and the fault that stopped it. -/
structure Turn (σ ν κ ε : Type) where
  notes : List ν
  exit : Option κ
  state : σ
  fault : Option ε
  deriving DecidableEq

namespace Proc

def turn : Proc σ ν κ ε α → Turn σ ν κ ε
  | .ret _ s => ⟨[], none, s, none⟩
  | .halt fault s => ⟨[], none, s, some fault⟩
  | .note o rest => { rest.turn with notes := o :: rest.turn.notes }
  | .call o s _ => ⟨[], some o, s, none⟩

@[simp] theorem turn_ret (value : α) (s : σ) :
    (Proc.ret value s : Proc σ ν κ ε α).turn = ⟨[], none, s, none⟩ := rfl

@[simp] theorem turn_halt (fault : ε) (s : σ) :
    (Proc.halt fault s : Proc σ ν κ ε α).turn = ⟨[], none, s, some fault⟩ := rfl

@[simp] theorem turn_note (o : ν) (rest : Proc σ ν κ ε α) :
    (Proc.note o rest).turn = { rest.turn with notes := o :: rest.turn.notes } := rfl

@[simp] theorem turn_call (o : κ) (s : σ) (resume : σ → Proc σ ν κ ε α) :
    (Proc.call o s resume).turn = ⟨[], some o, s, none⟩ := rfl

@[simp] theorem turn_ite (c : Prop) [Decidable c] (p q : Proc σ ν κ ε α) :
    (if c then p else q).turn = if c then p.turn else q.turn := by
  split <;> rfl

/-- Nothing is read or written once a call has returned. -/
def CallsLast : Proc σ ν κ ε Unit → Prop
  | .ret _ _ => True
  | .halt _ _ => True
  | .note _ rest => rest.CallsLast
  | .call _ _ resume => ∀ t, resume t = .ret () t

@[simp] theorem callsLast_ret (value : Unit) (s : σ) :
    (Proc.ret value s : Proc σ ν κ ε Unit).CallsLast := trivial

@[simp] theorem callsLast_halt (fault : ε) (s : σ) :
    (Proc.halt fault s : Proc σ ν κ ε Unit).CallsLast := trivial

@[simp] theorem callsLast_note (o : ν) (rest : Proc σ ν κ ε Unit) :
    (Proc.note o rest).CallsLast ↔ rest.CallsLast := Iff.rfl

@[simp] theorem callsLast_call (o : κ) (s : σ) :
    (Proc.call o s (fun t => .ret () t) : Proc σ ν κ ε Unit).CallsLast := fun _ => rfl

@[simp] theorem callsLast_ite (c : Prop) [Decidable c] (p q : Proc σ ν κ ε Unit) :
    (if c then p else q).CallsLast ↔ if c then p.CallsLast else q.CallsLast := by
  split <;> rfl

end Proc

end Reentrant
