import Mathlib.Algebra.Ring.Int.Defs
import Mathlib.Algebra.Ring.Nat
import Mathlib.Data.List.Basic
import Mathlib.Tactic.Common

/-!
# Byte memory

A flat memory is a function from addresses to bytes. `read` takes a range out of
it, `write` lays a list of bytes over it, `copy` is `memcpy` between two of them.
An `Outcome` is what a computation comes to that may leave its buffers.
-/

/-- A flat byte memory. -/
abbrev Mem := Nat → UInt8

namespace Mem

/-- The `n` bytes at address `a`. -/
def read (m : Mem) (a n : Nat) : List UInt8 := (List.range n).map fun i => m (a + i)

/-- Lay the bytes `bs` over the memory from address `a` on. -/
def write (m : Mem) (a : Nat) (bs : List UInt8) : Mem := fun k =>
  if k < a then m k else (bs[k - a]?).getD (m k)

/-- `memcpy`: `n` bytes of `src` at `b` go to `a`. -/
def copy (m : Mem) (a : Nat) (src : Mem) (b n : Nat) : Mem := m.write a (src.read b n)

/-- The memory seen from address `p` on. -/
def shift (m : Mem) (p : Nat) : Mem := fun i => m (p + i)

/-- Change the memory from address `p` on by `f`, which sees it as starting at 0. -/
def onFrom (m : Mem) (p : Nat) (f : Mem → Mem) : Mem := fun k =>
  if k < p then m k else f (m.shift p) (k - p)

/-- The 16-bit big-endian value at address `a`. -/
def be16 (m : Mem) (a : Nat) : Nat := (m a).toNat * 256 + (m (a + 1)).toNat

/-- The 16-bit little-endian value at address `a`. -/
def le16 (m : Mem) (a : Nat) : Nat := (m a).toNat + (m (a + 1)).toNat * 256

/-! ## Reading back -/

@[simp] theorem length_read (m : Mem) (a n : Nat) : (m.read a n).length = n := by
  simp [read]

theorem getElem?_read (m : Mem) {a n i : Nat} (h : i < n) :
    (m.read a n)[i]? = some (m (a + i)) := by
  simp [read, h]

@[simp] theorem read_zero (m : Mem) (a : Nat) : m.read a 0 = [] := rfl

/-- A range splits at any point. -/
theorem read_add (m : Mem) (a n k : Nat) :
    m.read a (n + k) = m.read a n ++ m.read (a + n) k := by
  simp [read, List.range_add, Nat.add_assoc]

theorem take_read (m : Mem) {a n k : Nat} (h : k ≤ n) : (m.read a n).take k = m.read a k := by
  obtain ⟨d, rfl⟩ := Nat.exists_eq_add_of_le h
  rw [read_add, List.take_left' (length_read m a k)]

theorem drop_read (m : Mem) {a n k : Nat} (h : k ≤ n) :
    (m.read a n).drop k = m.read (a + k) (n - k) := by
  obtain ⟨d, rfl⟩ := Nat.exists_eq_add_of_le h
  rw [read_add, List.drop_left' (length_read m a k), Nat.add_sub_cancel_left]

/-- A range of a memory that holds a list. -/
theorem read_getD {d : UInt8} (l₁ l₂ l₃ : List UInt8) :
    read (fun k => (l₁ ++ (l₂ ++ l₃)).getD k d) l₁.length l₂.length = l₂ := by
  refine List.ext_getElem? fun i => ?_
  by_cases hi : i < l₂.length
  · rw [getElem?_read _ hi]
    simp [List.getD_eq_getElem?_getD, List.getElem?_append_right, List.getElem?_append_left hi,
      List.getElem?_eq_getElem hi]
  · rw [List.getElem?_eq_none (by simpa using hi), List.getElem?_eq_none (by omega)]

/-- A part of what is read, where it stands. -/
theorem read_middle {m : Mem} {a n : Nat} {l₁ l₂ l₃ : List UInt8}
    (h : m.read a n = l₁ ++ (l₂ ++ l₃)) : m.read (a + l₁.length) l₂.length = l₂ := by
  have hn : n = l₁.length + (l₂.length + l₃.length) := by
    have hlen := congrArg List.length h
    rwa [length_read, List.length_append, List.length_append] at hlen
  rw [hn, read_add] at h
  obtain ⟨-, h⟩ := List.append_inj h (length_read m a _)
  rw [read_add] at h
  exact (List.append_inj h (length_read m _ _)).1

/-- Two memories that agree on a range read the same there. -/
theorem read_congr {m m' : Mem} {a n : Nat} (h : ∀ i < n, m (a + i) = m' (a + i)) :
    m.read a n = m'.read a n := by
  apply List.map_congr_left
  intro i hi
  exact h i (List.mem_range.mp hi)

theorem write_of_lt {m : Mem} {a k : Nat} {bs : List UInt8} (h : k < a) :
    m.write a bs k = m k := if_pos h

theorem write_of_ge {m : Mem} {a k : Nat} {bs : List UInt8} (h : a + bs.length ≤ k) :
    m.write a bs k = m k := by
  have h1 : ¬ k < a := by omega
  have h2 : bs[k - a]? = none := List.getElem?_eq_none (by omega)
  rw [write, if_neg h1, h2]
  rfl

theorem write_inside {m : Mem} {a i : Nat} {bs : List UInt8} (h : i < bs.length) :
    m.write a bs (a + i) = bs.get ⟨i, h⟩ := by
  have h1 : ¬ a + i < a := by omega
  rw [write, if_neg h1, Nat.add_sub_cancel_left, List.getElem?_eq_getElem h]
  rfl

theorem copy_apply (m : Mem) (a : Nat) (src : Mem) (b n k : Nat) :
    m.copy a src b n k = if a ≤ k ∧ k < a + n then src (b + (k - a)) else m k := by
  have hlen := length_read src b n
  unfold copy
  by_cases h : a ≤ k ∧ k < a + n
  · have hi : k - a < n := by omega
    rw [if_pos h, write, if_neg (by omega), getElem?_read src hi]
    rfl
  · rw [if_neg h]
    by_cases hlt : k < a
    · exact write_of_lt hlt
    · exact write_of_ge (by omega)

theorem shift_onFrom (m : Mem) (p : Nat) (f : Mem → Mem) :
    (m.onFrom p f).shift p = f (m.shift p) := by
  funext i
  show (if p + i < p then _ else f (m.shift p) (p + i - p)) = _
  rw [if_neg (by omega), Nat.add_sub_cancel_left]

/-- **What was written reads back.** -/
theorem read_write_self (m : Mem) (a : Nat) (bs : List UInt8) :
    (m.write a bs).read a bs.length = bs := by
  apply List.ext_getElem? 
  intro i
  by_cases hi : i < bs.length
  · rw [getElem?_read _ hi, write_inside hi, List.getElem?_eq_getElem hi]
    rfl
  · rw [List.getElem?_eq_none (by simp; omega), List.getElem?_eq_none (by omega)]

/-- A read that misses the written range is unaffected. -/
theorem read_write_disjoint {m : Mem} {a b n : Nat} {bs : List UInt8}
    (h : b + n ≤ a ∨ a + bs.length ≤ b) : (m.write a bs).read b n = m.read b n := by
  apply read_congr
  intro i hi
  rcases h with h | h
  · exact write_of_lt (by omega)
  · exact write_of_ge (by omega)

/-- Two writes, one right behind the other, are one. -/
theorem write_append (m : Mem) (a : Nat) (bs cs : List UInt8) :
    (m.write a bs).write (a + bs.length) cs = m.write a (bs ++ cs) := by
  funext k
  unfold write
  by_cases h1 : k < a
  · rw [if_pos (by omega), if_pos h1, if_pos h1]
  · rw [if_neg h1]
    by_cases h2 : k < a + bs.length
    · rw [if_pos h2, if_neg h1, List.getElem?_append_left (by omega)]
    · have hsub : k - (a + bs.length) = k - a - bs.length := by omega
      have hnone : bs[k - a]? = none := List.getElem?_eq_none (by omega)
      rw [if_neg h2, if_neg h1, List.getElem?_append_right (by omega), hsub, hnone]
      rfl

/-- **Writing right behind a range appends to what is read there.** -/
theorem read_write_append (m : Mem) {a n k : Nat} {bs : List UInt8} (h : bs.length = k) :
    (m.write (a + n) bs).read a (n + k) = m.read a n ++ bs := by
  subst h
  rw [read_add, read_write_disjoint (Or.inl (Nat.le_refl _)), read_write_self]

end Mem

/-! ## Running out of bounds -/

/-- A computation ends with a value, or it leaves its buffers and nothing more can be
said, or it never ends. -/
inductive Outcome (α : Type) where
  | overrun
  | hangs
  | done (a : α)

namespace Outcome

variable {α β : Type}

def bind : Outcome α → (α → Outcome β) → Outcome β
  | .overrun, _ => .overrun
  | .hangs, _ => .hangs
  | .done a, f => f a

instance : Monad Outcome where
  pure := .done
  bind := Outcome.bind

@[simp] theorem done_bind (a : α) (f : α → Outcome β) : (Outcome.done a >>= f) = f a := rfl

@[simp] theorem overrun_bind (f : α → Outcome β) : ((Outcome.overrun : Outcome α) >>= f) = .overrun :=
  rfl

@[simp] theorem hangs_bind (f : α → Outcome β) : ((Outcome.hangs : Outcome α) >>= f) = .hangs := rfl

@[simp] theorem pure_eq_done (a : α) : (pure a : Outcome α) = .done a := rfl

/-- A sequence is done when both parts are. -/
theorem bind_eq_done {x : Outcome α} {f : α → Outcome β} {b : β} :
    (x >>= f) = .done b ↔ ∃ a, x = .done a ∧ f a = .done b := by
  cases x with
  | overrun =>
      constructor
      · intro h; exact absurd h (by simp)
      · rintro ⟨a, h, -⟩; exact absurd h (by simp)
  | hangs =>
      constructor
      · intro h; exact absurd h (by simp)
      · rintro ⟨a, h, -⟩; exact absurd h (by simp)
  | done a =>
      constructor
      · intro h; exact ⟨a, rfl, h⟩
      · rintro ⟨a', h, h'⟩
        cases h
        exact h'

/-- A sequence leaves its buffers in one part or in the other. -/
theorem bind_eq_overrun {x : Outcome α} {f : α → Outcome β} :
    (x >>= f) = .overrun ↔ x = .overrun ∨ ∃ a, x = .done a ∧ f a = .overrun := by
  cases x with
  | overrun => exact ⟨fun _ => Or.inl rfl, fun _ => rfl⟩
  | hangs =>
      constructor
      · intro h; cases h
      · rintro (h | ⟨a, h, -⟩)
        · cases h
        · cases h
  | done a =>
      constructor
      · intro h; exact Or.inr ⟨a, rfl, h⟩
      · rintro (h | ⟨a', h, h'⟩)
        · cases h
        · cases h
          exact h'

end Outcome

/-! ## Rounding up to eight -/

namespace Rtl8812au

/-- `_RND8`. -/
def rnd8 (sz : Nat) : Nat := (sz / 8 + if sz % 8 = 0 then 0 else 1) * 8

theorem rnd8_ge (sz : Nat) : sz ≤ rnd8 sz := by
  unfold rnd8
  split
  · omega
  · omega

theorem rnd8_lt (sz : Nat) : rnd8 sz < sz + 8 := by
  unfold rnd8
  split
  · omega
  · omega

theorem rnd8_add {a b : Nat} (hb : b < 8) (h : (a + b) % 8 = 0) : rnd8 a = a + b := by
  unfold rnd8
  split
  · omega
  · omega

theorem rnd8_mod (sz : Nat) : rnd8 sz % 8 = 0 := Nat.mul_mod_left _ 8

/-- Multiples of eight move through. -/
theorem rnd8_add_of_mod {k : Nat} (h : k % 8 = 0) (sz : Nat) : rnd8 (sz + k) = rnd8 sz + k := by
  have hmod : (sz + k) % 8 = sz % 8 := by omega
  unfold rnd8
  rw [hmod]
  omega

/-! ## Differences that wrap -/

/-- A `uint` difference. -/
def sub32 (a b : Nat) : Nat := (a + (2 ^ 32 - b % 2 ^ 32)) % 2 ^ 32

theorem sub32_of_le {a b : Nat} (h : b ≤ a) (ha : a < 2 ^ 32) : sub32 a b = a - b := by
  have hb : b % 2 ^ 32 = b := Nat.mod_eq_of_lt (by omega)
  have hsum : a + (2 ^ 32 - b) = (a - b) + 2 ^ 32 := by omega
  rw [sub32, hb, hsum, Nat.add_mod_right, Nat.mod_eq_of_lt (by omega)]

end Rtl8812au
