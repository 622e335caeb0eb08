import Mathlib.Algebra.Order.BigOperators.Group.Finset
import Mathlib.Algebra.Ring.Int.Defs
import Mathlib.Algebra.Ring.Nat
import Mathlib.Data.List.Count

/-!
# A stock of things and where they are

A fixed stock is spread over finitely many places, each of which is a list. What is
being handled is in no place but in hand. `Placed` says that nothing of the stock is
lost and nothing is there twice; each operation is a change of one place together with
what is in hand.
-/

namespace Pool

variable {ι π : Type} [DecidableEq ι] [Fintype π]

/-- Everything in `stock` is once in hand or in one of the places, and nothing else is. -/
structure Placed (stock hand : List ι) (c : π → List ι) : Prop where
  nodup : stock.Nodup
  once : ∀ i, hand.count i + ∑ p, (c p).count i = stock.count i

variable {stock hand hand' l : List ι} {c : π → List ι} {i : ι} {p q : π}

theorem Placed.perm (h : Placed stock hand c) (hp : hand.Perm hand') : Placed stock hand' c := by
  refine ⟨h.nodup, ?_⟩
  intro i
  rw [← hp.count_eq]
  exact h.once i

theorem Placed.le_one (h : Placed stock hand c) (i : ι) :
    hand.count i + ∑ p, (c p).count i ≤ 1 := by
  rw [h.once i]
  exact List.nodup_iff_count_le_one.mp h.nodup i

theorem count_le_sum (c : π → List ι) (p : π) (i : ι) :
    (c p).count i ≤ ∑ q, (c q).count i :=
  Finset.single_le_sum (f := fun q => (c q).count i) (fun _ _ => Nat.zero_le _) (Finset.mem_univ p)

/-- What is in hand is in no place. -/
theorem Placed.notMem (h : Placed stock hand c) (hi : i ∈ hand) (p : π) : i ∉ c p := by
  intro hp
  have h1 := h.le_one i
  have h2 := List.count_pos_iff.mpr hi
  have h3 := List.count_pos_iff.mpr hp
  have h4 := count_le_sum c p i
  omega

theorem Placed.place_nodup (h : Placed stock hand c) (p : π) : (c p).Nodup := by
  refine List.nodup_iff_count_le_one.mpr ?_
  intro i
  have h1 := h.le_one i
  have h2 := count_le_sum c p i
  omega

/-- **Change one place.** What comes out of it is in hand, what goes in was. -/
theorem Placed.exchange [DecidableEq π] (h : Placed stock hand c)
    (hp : (hand ++ c p).Perm (hand' ++ l)) : Placed stock hand' (Function.update c p l) := by
  refine ⟨h.nodup, ?_⟩
  intro i
  have hc := hp.count_eq i
  rw [List.count_append, List.count_append] at hc
  have hold := Finset.add_sum_erase Finset.univ (fun q => (c q).count i) (Finset.mem_univ p)
  have hnew := Finset.add_sum_erase Finset.univ
    (fun q => (Function.update c p l q).count i) (Finset.mem_univ p)
  have hrest : ∑ q ∈ Finset.univ.erase p, (Function.update c p l q).count i
      = ∑ q ∈ Finset.univ.erase p, (c q).count i := by
    refine Finset.sum_congr rfl ?_
    intro q hq
    rw [Function.update_of_ne (Finset.ne_of_mem_erase hq)]
  have honce := h.once i
  simp only [Function.update_self] at hnew
  omega

/-- **Empty several places**: what was there is in hand. -/
theorem Placed.empty [DecidableEq π] : ∀ (ps : List π) {hand : List ι} {c : π → List ι},
    ps.Nodup → Placed stock hand c →
      Placed stock (ps.flatMap c ++ hand) (fun p => if p ∈ ps then [] else c p)
  | [], hand, c, _, h => by
      simpa using h
  | p :: ps, hand, c, hnd, h => by
      obtain ⟨hp, hnd⟩ := List.nodup_cons.mp hnd
      have h1 : Placed stock (c p ++ hand) (Function.update c p []) := by
        refine h.exchange ?_
        rw [List.append_nil]
        exact List.perm_append_comm
      have h2 := Placed.empty ps hnd h1
      have hflat : ps.flatMap (Function.update c p []) = ps.flatMap c := by
        refine List.flatMap_congr ?_
        intro q hq
        rw [Function.update_of_ne]
        rintro rfl
        exact hp hq
      have hc : (fun q => if q ∈ ps then [] else Function.update c p [] q)
          = fun q => if q ∈ p :: ps then [] else c q := by
        funext q
        by_cases hqp : q = p
        · subst hqp
          rw [if_neg hp, if_pos (List.mem_cons_self ..), Function.update_self]
        · rw [Function.update_of_ne hqp]
          by_cases hq : q ∈ ps
          · rw [if_pos hq, if_pos (List.mem_cons_of_mem _ hq)]
          · rw [if_neg hq, if_neg (fun hm => (List.mem_cons.mp hm).elim hqp hq)]
      rw [hflat, hc] at h2
      refine h2.perm ?_
      rw [List.flatMap_cons, List.append_assoc]
      exact List.perm_append_comm_assoc _ _ _

/-- Taking off what is in hand takes nothing off. -/
theorem Placed.unlink_hand (h : Placed stock hand c) (hi : i ∈ hand) :
    (fun p => (c p).filter (· != i)) = c := by
  funext p
  refine List.filter_eq_self.mpr ?_
  intro j hj
  have hne : j ≠ i := by
    rintro rfl
    exact h.notMem hi p hj
  exact bne_iff_ne.mpr hne

/-- Taking something off the place it is in puts it in hand. -/
theorem Placed.unlink_place (h : Placed stock hand c) (hi : i ∈ c p) :
    Placed stock (i :: hand) (fun p => (c p).filter (· != i)) := by
  refine ⟨h.nodup, ?_⟩
  intro j
  have h1 := h.once j
  by_cases hj : j = i
  · subst hj
    have h2 := h.le_one j
    have h3 := List.count_pos_iff.mpr hi
    have h4 := count_le_sum c p j
    have h5 : ∑ p, ((c p).filter (· != j)).count j = 0 := by
      refine Finset.sum_eq_zero ?_
      intro q _
      refine List.count_eq_zero.mpr ?_
      intro hm
      exact absurd (List.mem_filter.mp hm).2 (by simp)
    rw [h5, List.count_cons_self]
    omega
  · have h5 : ∑ p, ((c p).filter (· != i)).count j = ∑ p, (c p).count j := by
      refine Finset.sum_congr rfl ?_
      intro q _
      exact List.count_filter (bne_iff_ne.mpr hj)
    rw [h5, List.count_cons_of_ne (Ne.symm hj)]
    exact h1

/-- Nothing is in two places. -/
theorem Placed.unique [DecidableEq π] (h : Placed stock hand c) (hp : i ∈ c p) (hq : i ∈ c q) :
    q = p := by
  by_contra hne
  have hle := h.le_one i
  have hp' := List.count_pos_iff.mpr hp
  have hq' := List.count_pos_iff.mpr hq
  have hsum := Finset.add_sum_erase Finset.univ (fun q => (c q).count i) (Finset.mem_univ p)
  have hge : (c q).count i ≤ ∑ q ∈ Finset.univ.erase p, (c q).count i :=
    Finset.single_le_sum (f := fun q => (c q).count i) (fun _ _ => Nat.zero_le _)
      (Finset.mem_erase.mpr ⟨hne, Finset.mem_univ q⟩)
  omega

/-- **With empty hands everything is in exactly one place.** -/
theorem Placed.existsUnique [DecidableEq π] (h : Placed stock [] c) (hi : i ∈ stock) :
    ∃! p, i ∈ c p := by
  have h1 := h.once i
  have h2 := List.count_pos_iff.mpr hi
  have hpos : 0 < ∑ p, (c p).count i := by
    rw [List.count_nil] at h1
    omega
  obtain ⟨p, -, hp⟩ := Finset.exists_ne_zero_of_sum_ne_zero (Nat.ne_of_gt hpos)
  have hmem : i ∈ c p := List.count_pos_iff.mp (Nat.pos_of_ne_zero hp)
  exact ⟨p, hmem, fun q hq => h.unique hmem hq⟩

/-- **Nothing is lost in number.** -/
theorem Placed.length_eq (h : Placed stock hand c) :
    hand.length + ∑ p, (c p).length = stock.length := by
  have hsame : (hand : Multiset ι) + ∑ p, (c p : Multiset ι) = stock := by
    refine Multiset.ext.mpr ?_
    intro i
    rw [Multiset.count_add, Multiset.count_sum']
    simp only [Multiset.coe_count]
    exact h.once i
  have hcard := congrArg Multiset.card hsame
  rw [Multiset.card_add, Multiset.card_sum] at hcard
  exact hcard

end Pool
