import Mathlib.Algebra.Ring.Int.Defs
import Mathlib.Algebra.Ring.Nat
import Mathlib.Tactic.Common

/-!
# Accesses

A computation that walks arrays can say which of their entries it used. An access is in order if all of
them are there.
-/

/-- Of an array or a range with `bound` entries the `len` from `start` on are used. -/
structure Access where
  start : Nat
  len : Nat
  bound : Nat
  deriving Repr, DecidableEq

namespace Access

/-- What is used is there. -/
def Ok (a : Access) : Prop := a.start + a.len ≤ a.bound

/-- All of what is used is there. -/
def AllOk (as : List Access) : Prop := ∀ a ∈ as, a.Ok

theorem allOk_nil : AllOk [] := fun _ h => absurd h List.not_mem_nil

theorem allOk_append {as bs : List Access} : AllOk (as ++ bs) ↔ AllOk as ∧ AllOk bs :=
  List.forall_mem_append

theorem allOk_singleton {a : Access} : AllOk [a] ↔ a.start + a.len ≤ a.bound := List.forall_mem_singleton

theorem allOk_cons {a : Access} {as : List Access} : AllOk (a :: as) ↔ a.start + a.len ≤ a.bound ∧ AllOk as :=
  List.forall_mem_cons

/-- What a longer list allows a part of it allows too. -/
theorem AllOk.mono {as bs : List Access} (h : AllOk bs) (hsub : ∀ a ∈ as, a ∈ bs) : AllOk as :=
  fun a ha => h a (hsub a ha)

end Access
