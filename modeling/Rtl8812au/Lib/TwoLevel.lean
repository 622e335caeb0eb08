import Mathlib.Algebra.BigOperators.Group.Finset.Basic
import Mathlib.Algebra.BigOperators.Ring.Finset
import Mathlib.Algebra.Ring.Int.Defs
import Mathlib.Algebra.Ring.Nat
import Mathlib.Data.Fintype.Basic

/-!
# A queue of queues

Each source has a queue of its own with a counter; a service list names the sources that
have something to serve, and a second counter is kept over all of them. The structure is
balanced when the counters and the service list say what the queues hold.
-/

variable {ι φ : Type} [DecidableEq ι]

/-- The queues of all sources, the two levels of counters and the service list. -/
structure TwoLevel (ι φ : Type) where
  pending : ι → List φ
  cnt : ι → Int
  total : Int
  linked : List ι

namespace TwoLevel

variable (q : TwoLevel ι φ)

/-- An element for source `i`. -/
def push (i : ι) (x : φ) : TwoLevel ι φ where
  pending := Function.update q.pending i (q.pending i ++ [x])
  cnt := Function.update q.cnt i (q.cnt i + 1)
  total := q.total + 1
  linked := if i ∈ q.linked then q.linked else q.linked ++ [i]

/-- The queue of source `i` becomes `rest`, one shorter. -/
def pop (i : ι) (rest : List φ) : TwoLevel ι φ where
  pending := Function.update q.pending i rest
  cnt := Function.update q.cnt i (q.cnt i - 1)
  total := q.total - 1
  linked := if rest = [] then q.linked.filter (· != i) else q.linked

/-- The queue of source `i` is emptied and `n` is taken off the counters. -/
def clear (i : ι) (n : Int) : TwoLevel ι φ where
  pending := Function.update q.pending i []
  cnt := Function.update q.cnt i (q.cnt i - n)
  total := q.total - n
  linked := q.linked.filter (· != i)

/-- **The counters are right**, and the service list names each source that has something to
serve, once, and no other. -/
structure Balanced [Fintype ι] (q : TwoLevel ι φ) : Prop where
  cnt : ∀ i, q.cnt i = (q.pending i).length
  total : q.total = ∑ i, q.cnt i
  nodup : q.linked.Nodup
  linked : ∀ i, i ∈ q.linked ↔ q.pending i ≠ []

end TwoLevel

/-- A sum of which one term changes by `d`. -/
theorem sum_update_add [Fintype ι] (f : ι → Int) (i : ι) (d : Int) :
    ∑ k, Function.update f i (f i + d) k = (∑ k, f k) + d := by
  rw [Finset.sum_update_of_mem (Finset.mem_univ i), Finset.sdiff_singleton_eq_erase,
    ← Finset.add_sum_erase Finset.univ f (Finset.mem_univ i)]
  omega

namespace TwoLevel.Balanced

variable [Fintype ι] {q : TwoLevel ι φ}

theorem push (h : q.Balanced) (i : ι) (x : φ) : (q.push i x).Balanced := by
  refine ⟨fun k => ?_, ?_, ?_, fun k => ?_⟩
  · by_cases hk : k = i
    · subst hk
      simp [TwoLevel.push, h.cnt]
    · simp [TwoLevel.push, hk, h.cnt]
  · show q.total + 1 = ∑ k, Function.update q.cnt i (q.cnt i + 1) k
    rw [sum_update_add, h.total]
  · unfold TwoLevel.push
    dsimp only
    split
    · exact h.nodup
    · rename_i hi
      refine List.nodup_append.mpr ⟨h.nodup, List.pairwise_singleton _ i, ?_⟩
      rintro k hk _ hk' rfl
      exact hi (List.mem_singleton.mp hk' ▸ hk)
  · unfold TwoLevel.push
    dsimp only
    by_cases hk : k = i
    · subst hk
      split
      · rename_i hi
        simp [hi]
      · simp
    · split
      · simp [hk, h.linked k]
      · simp [hk, h.linked k]

/-- An emptied queue leaves the service list. -/
theorem mem_filter_ne (h : q.Balanced) (i k : ι) :
    k ∈ q.linked.filter (· != i) ↔ Function.update q.pending i [] k ≠ [] := by
  by_cases hk : k = i
  · subst hk
    simp
  · simp [hk, h.linked k]

theorem pop (h : q.Balanced) {i : ι} {x : φ} {rest : List φ} (hi : q.pending i = x :: rest) :
    (q.pop i rest).Balanced := by
  refine ⟨fun k => ?_, ?_, ?_, fun k => ?_⟩
  · by_cases hk : k = i
    · subst hk
      simp [TwoLevel.pop, h.cnt, hi]
    · simp [TwoLevel.pop, hk, h.cnt]
  · show q.total - 1 = ∑ k, Function.update q.cnt i (q.cnt i + -1) k
    rw [sum_update_add, h.total]
    rfl
  · unfold TwoLevel.pop
    dsimp only
    split
    · exact h.nodup.filter _
    · exact h.nodup
  · unfold TwoLevel.pop
    dsimp only
    split
    · rename_i hrest
      rw [hrest]
      exact h.mem_filter_ne i k
    · rename_i hrest
      by_cases hk : k = i
      · subst hk
        simp [hrest, h.linked k, hi]
      · simp [hk, h.linked k]

theorem clear (h : q.Balanced) {i : ι} {n : Int} (hn : n = (q.pending i).length) :
    (q.clear i n).Balanced := by
  refine ⟨fun k => ?_, ?_, h.nodup.filter _, fun k => h.mem_filter_ne i k⟩
  · by_cases hk : k = i
    · subst hk
      simp [TwoLevel.clear, h.cnt, hn]
    · simp [TwoLevel.clear, hk, h.cnt]
  · show q.total - n = ∑ k, Function.update q.cnt i (q.cnt i + -n) k
    rw [sum_update_add, h.total]
    rfl

end TwoLevel.Balanced
