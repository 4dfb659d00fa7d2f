import Mathlib.Init

/-!
# Rules for programs that raise

`EStateM` is the monad of a program that may raise and whose effects until then stay. One
rule for each way a part of it can end: sequencing, handlers, and clauses that run either
way.
-/

namespace Raising

variable {ε σ α β : Type} {x : EStateM ε σ α} {a : α} {b : β} {raised : ε} {s t u : σ}

theorem bind_ok (f : α → EStateM ε σ β) (h : x s = .ok a t) : (x >>= f) s = f a t := by
  change EStateM.bind x f s = _
  rw [EStateM.bind, h]

theorem bind_error (f : α → EStateM ε σ β) (h : x s = .error raised t) :
    (x >>= f) s = .error raised t := by
  change EStateM.bind x f s = _
  rw [EStateM.bind, h]

theorem tryCatch_ok (f : ε → EStateM ε σ α) (h : x s = .ok a t) :
    tryCatch x f s = .ok a t := by
  change EStateM.tryCatch x f s = _
  delta EStateM.tryCatch
  simp only [h]

theorem tryCatch_error (f : ε → EStateM ε σ α) (h : x s = .error raised t) :
    tryCatch x f s = f raised t := by
  change EStateM.tryCatch x f s = _
  delta EStateM.tryCatch
  simp only [h]
  rfl

theorem tryFinally_ok {f : EStateM ε σ β} (h : x s = .ok a t) (clean : f t = .ok b u) :
    tryFinally x f s = .ok a u := by
  simp [tryFinally, tryFinally', Functor.map, EStateM.map, h, clean]

theorem tryFinally_error {f : EStateM ε σ β} (h : x s = .error raised t)
    (clean : f t = .ok b u) : tryFinally x f s = .error raised u := by
  simp [tryFinally, tryFinally', Functor.map, EStateM.map, h, clean]

end Raising
