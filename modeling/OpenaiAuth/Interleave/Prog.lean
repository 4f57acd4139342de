import Mathlib.Logic.Basic

/-! # Programs that call their environment

A program either has finished with a value or waits for the answer of one
call. Between two calls it runs alone; a call is one atomic exchange with the
world. This is how asynchronous code behaves that gives up control only at its
`await`s, so a `do` block over `Prog` can follow such code line by line.
-/

namespace Interleave

/-- The calls a program may make, and what each of them answers. -/
structure Sig where
  Call : Type
  Ans : Call → Type

/-- A program over the calls of `S`: finished, or waiting on one call. -/
inductive Prog (S : Sig) (α : Type) : Type where
  | ret (a : α)
  | call (o : S.Call) (k : S.Ans o → Prog S α)

namespace Prog

variable {S : Sig} {α β γ : Type}

/-- Runs `p`, then `f` on its result. -/
def bind : Prog S α → (α → Prog S β) → Prog S β
  | ret a, f => f a
  | call o k, f => call o fun r => (k r).bind f

instance : Monad (Prog S) where
  pure := ret
  bind := bind

/-- The program that makes one call and returns its answer. -/
def perform (o : S.Call) : Prog S (S.Ans o) :=
  call o ret

@[simp] theorem pure_eq (a : α) : (pure a : Prog S α) = ret a := rfl

@[simp] theorem ret_bind (a : α) (f : α → Prog S β) : (ret a : Prog S α) >>= f = f a := rfl

@[simp] theorem call_bind (o : S.Call) (k : S.Ans o → Prog S α) (f : α → Prog S β) :
    call o k >>= f = call o fun r => k r >>= f := rfl

@[simp] theorem perform_bind (o : S.Call) (f : S.Ans o → Prog S β) :
    perform o >>= f = call o f := rfl

end Prog

/-- A program that may end early by throwing an `ε`. -/
abbrev Throwing (ε : Type) (S : Sig) (α : Type) : Type := ExceptT ε (Prog S) α

namespace Throwing

variable {ε : Type} {S : Sig} {α β : Type}

/-- Makes one call whose answer says whether it threw. -/
def perform (o : S.Call) (ans : S.Ans o → Except ε α) : Throwing ε S α :=
  Prog.call o fun r => .ret (ans r)

/-- Runs `p` and hands over what it threw instead of throwing it on. -/
def attempt (p : Throwing ε S α) : Throwing ε S (Except ε α) :=
  (p.run >>= fun r => Prog.ret (Except.ok r) : Prog S (Except ε (Except ε α)))

@[simp] theorem run_pure (a : α) : (pure a : Throwing ε S α).run = Prog.ret (.ok a) := rfl

@[simp] theorem run_throw (e : ε) : (throw e : Throwing ε S α).run = Prog.ret (.error e) := rfl

end Throwing

end Interleave
