import Mathlib.Algebra.Ring.Int.Defs
import Mathlib.Algebra.Ring.Nat
import Mathlib.Data.List.Basic
import Mathlib.Tactic.Common

/-!
# A cyclic redundancy check, bit by bit

The shift register of width `w` with feedback polynomial `p`, as a linear machine: what a
message leaves in it is the exclusive or of what the start leaves and what the message leaves
in an empty register. The three facts about CRCs rest on this: a few bits at a time may be
looked up, a register that is fed its own complement always ends the same, and one wrong bit
shows.
-/

namespace Crc

variable {w : Nat} (p : BitVec w)

/-- One message bit. The register moves up, and the polynomial goes in when the bit that falls
out is not the message's. -/
def step (r : BitVec w) (b : Bool) : BitVec w :=
  (r <<< 1) ^^^ (if (r.msb ^^ b) = true then p else 0#w)

/-- The bits of a message, first bit first. -/
def run (r : BitVec w) (bs : List Bool) : BitVec w := bs.foldl (step p) r

/-- The top `k` bits of the register, in the order they fall out. -/
def top : (k : Nat) → BitVec w → List Bool
  | 0, _ => []
  | k + 1, r => r.msb :: top k (r <<< 1)

@[simp] theorem run_nil (r : BitVec w) : run p r [] = r := rfl

@[simp] theorem run_cons (r : BitVec w) (b : Bool) (bs : List Bool) :
    run p r (b :: bs) = run p (step p r b) bs := rfl

theorem run_append (r : BitVec w) (bs cs : List Bool) :
    run p r (bs ++ cs) = run p (run p r bs) cs := List.foldl_append

@[simp] theorem length_top (k : Nat) (r : BitVec w) : (top k r).length = k := by
  induction k generalizing r with
  | zero => rfl
  | succ k ih => exact congrArg (· + 1) (ih _)

/-- The top bits one by one. -/
theorem top_eq (k : Nat) (r : BitVec w) : top k r = (List.range k).map r.getMsbD := by
  induction k generalizing r with
  | zero => rfl
  | succ k ih =>
    have hshift : (List.range k).map (r <<< 1).getMsbD
        = (List.range k).map (r.getMsbD ∘ Nat.succ) :=
      List.map_congr_left fun i _ => BitVec.getMsbD_shiftLeft ..
    rw [top, ih, hshift, List.range_succ_eq_map, List.map_cons, List.map_map]
    rfl

/-! ## Linearity -/

theorem step_xor (r s : BitVec w) (a b : Bool) :
    step p (r ^^^ s) (a ^^ b) = step p r a ^^^ step p s b := by
  have hmsb : ((r ^^^ s).msb ^^ (a ^^ b)) = ((r.msb ^^ a) ^^ (s.msb ^^ b)) := by
    rw [BitVec.msb_xor]
    cases r.msb <;> cases s.msb <;> cases a <;> cases b <;> rfl
  have hshift : (r ^^^ s) <<< 1 = (r <<< 1) ^^^ (s <<< 1) := BitVec.shiftLeft_xor_distrib ..
  unfold step
  rw [hmsb, hshift]
  cases r.msb ^^ a <;> cases s.msb ^^ b
  · simp
  · simp [BitVec.xor_assoc]
  · simp only [Bool.true_xor, Bool.not_false, if_true, Bool.false_eq_true, if_false,
      BitVec.xor_zero]
    rw [BitVec.xor_assoc, BitVec.xor_assoc, BitVec.xor_comm (s <<< 1)]
  · -- the polynomial goes in on both sides and cancels
    simp only [Bool.xor_self, Bool.false_eq_true, if_false, if_true, BitVec.xor_zero]
    rw [BitVec.xor_assoc (r <<< 1), BitVec.xor_comm (s <<< 1), ← BitVec.xor_assoc p,
      BitVec.xor_self, BitVec.zero_xor]

/-- **What a message leaves is linear** in the start and the message. -/
theorem run_xor (r s : BitVec w) (as bs : List Bool) (h : as.length = bs.length) :
    run p (r ^^^ s) (List.zipWith (· ^^ ·) as bs) = run p r as ^^^ run p s bs := by
  induction as generalizing r s bs with
  | nil =>
    cases bs with
    | nil => rfl
    | cons b bs => cases h
  | cons a as ih =>
    cases bs with
    | nil => cases h
    | cons b bs =>
      rw [List.zipWith_cons_cons, run_cons, run_cons, run_cons, step_xor]
      exact ih _ _ _ (Nat.succ.inj h)

/-- A register that is fed the bits that fall out only moves up. -/
theorem run_top (k : Nat) (r : BitVec w) : run p r (top k r) = r <<< k := by
  induction k generalizing r with
  | zero => exact (BitVec.shiftLeft_zero r).symm
  | succ k ih =>
    have hstep : step p r r.msb = r <<< 1 := by simp [step]
    rw [top, run_cons, hstep, ih, ← BitVec.shiftLeft_add, Nat.add_comm 1 k]

theorem zipWith_xor_cancel (as bs : List Bool) (h : as.length = bs.length) :
    List.zipWith (· ^^ ·) as (List.zipWith (· ^^ ·) as bs) = bs := by
  induction as generalizing bs with
  | nil => exact (List.eq_nil_of_length_eq_zero h.symm).symm
  | cons a as ih =>
    cases bs with
    | nil => cases h
    | cons b bs =>
      have hb : (a ^^ (a ^^ b)) = b := by cases a <;> cases b <;> rfl
      rw [List.zipWith_cons_cons, List.zipWith_cons_cons, ih bs (Nat.succ.inj h), hb]

/-- **A few bits at a time.** What is left of the register has moved up, and the rest is what
its top bits and the message's leave in an empty register. -/
theorem run_absorb (r : BitVec w) (bs : List Bool) :
    run p r bs
      = (r <<< bs.length) ^^^ run p 0#w (List.zipWith (· ^^ ·) (top bs.length r) bs) := by
  have hlen : (top bs.length r).length
      = (List.zipWith (· ^^ ·) (top bs.length r) bs).length := by
    rw [List.length_zipWith, length_top, Nat.min_self]
  have h := run_xor p r 0#w (top bs.length r) _ hlen
  rw [BitVec.xor_zero, zipWith_xor_cancel _ _ (length_top _ _), run_top] at h
  exact h

/-! ## The residue -/

theorem zipWith_xor_not (as : List Bool) :
    List.zipWith (· ^^ ·) as (as.map Bool.not) = List.replicate as.length true := by
  induction as with
  | nil => rfl
  | cons a as ih =>
    have ha : (a ^^ !a) = true := by cases a <;> rfl
    rw [List.map_cons, List.zipWith_cons_cons, ih, ha]
    rfl

/-- **A register that is fed its own complement** ends the same whatever it held. -/
theorem run_complement (r : BitVec w) :
    run p r ((top w r).map Bool.not) = run p 0#w (List.replicate w true) := by
  have hlen : ((top w r).map Bool.not).length = w := by
    rw [List.length_map, length_top]
  have hshift : r <<< w = 0#w := BitVec.shiftLeft_eq_zero (Nat.le_refl w)
  rw [run_absorb, hlen, zipWith_xor_not, length_top, hshift, BitVec.zero_xor]

/-! ## One wrong bit -/

/-- A zero bit loses nothing, when the polynomial has its constant term. -/
theorem step_false_ne (hp : p.getLsbD 0 = true) {r : BitVec w} (hr : r ≠ 0#w) :
    step p r false ≠ 0#w := by
  intro h
  have hw : 0 < w := by
    rcases Nat.eq_zero_or_pos w with rfl | hw
    · exact absurd (BitVec.eq_nil r) hr
    · exact hw
  have hbit : r.msb = false := by
    have h0 := congrArg (fun x : BitVec w => x.getLsbD 0) h
    cases hm : r.msb with
    | false => rfl
    | true => simp [step, hm, hp] at h0
  have hshift : r <<< 1 = 0#w := by simpa [step, hbit] using h
  refine hr (BitVec.eq_of_getLsbD_eq fun i hi => ?_)
  rw [BitVec.getLsbD_zero]
  -- the top bit fell out as a zero, the others are those of the shifted register
  rcases Nat.lt_or_ge (i + 1) w with hlt | hge
  · have hi1 := congrArg (fun x : BitVec w => x.getLsbD (i + 1)) hshift
    rw [BitVec.getLsbD_eq_getElem hi]
    simpa [hlt] using hi1
  · have hlast : w - 1 = i := by omega
    rw [BitVec.msb_eq_getLsbD_last, hlast] at hbit
    exact hbit

theorem run_false_ne (hp : p.getLsbD 0 = true) (bs : List Bool) (hbs : ∀ b ∈ bs, b = false)
    {r : BitVec w} (hr : r ≠ 0#w) : run p r bs ≠ 0#w := by
  induction bs generalizing r with
  | nil => exact hr
  | cons b bs ih =>
    have hb : b = false := hbs b List.mem_cons_self
    subst hb
    exact ih (fun b hb => hbs b (List.mem_cons_of_mem _ hb)) (step_false_ne p hp hr)

/-- **One bit set** in a message leaves something in the empty register. -/
theorem run_one_ne (hp : p.getLsbD 0 = true) (bs : List Bool) (hbs : bs.count true = 1) :
    run p 0#w bs ≠ 0#w := by
  induction bs with
  | nil => cases hbs
  | cons b bs ih =>
    cases b with
    | false =>
      have hstep : step p 0#w false = 0#w := by simp [step]
      rw [run_cons, hstep]
      refine ih ?_
      rwa [List.count_cons_of_ne (by decide)] at hbs
    | true =>
      have hstep : step p 0#w true = p := by simp [step]
      have hne : p ≠ 0#w := by
        intro h
        rw [h, BitVec.getLsbD_zero] at hp
        cases hp
      have hrest : bs.count true = 0 := by
        rw [List.count_cons_self] at hbs
        exact Nat.succ.inj hbs
      rw [run_cons, hstep]
      refine run_false_ne p hp bs (fun b hb => ?_) hne
      cases b with
      | false => rfl
      | true => exact absurd hb (List.count_eq_zero.mp hrest)

/-- **Messages one bit apart** leave different registers. -/
theorem run_ne_of_one_bit (hp : p.getLsbD 0 = true) (r : BitVec w) (as bs : List Bool)
    (hlen : as.length = bs.length) (hone : (List.zipWith (· ^^ ·) as bs).count true = 1) :
    run p r as ≠ run p r bs := by
  intro h
  have hx := run_xor p r r as bs hlen
  rw [h, BitVec.xor_self, BitVec.xor_self] at hx
  exact run_one_ne p hp _ hone hx

end Crc
