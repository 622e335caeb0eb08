import Rtl8812au.Lib.Mem

/-!
# Moving ranges of a memory

`fill` is `memset`, `copyForward` is a `memcpy` that goes byte by byte from the front. Copied towards the
front, a range that overlaps its target arrives as it was. The effect of each on a range is told by how
the bytes of the range were put together before.
-/

namespace Mem

/-- `memset`. -/
def fill (m : Mem) (a n : Nat) (b : UInt8) : Mem := m.write a (List.replicate n b)

/-- `memcpy` from `b` to `a`, one byte after the other. -/
def copyForward (m : Mem) (a b : Nat) : Nat → Mem
  | 0 => m
  | n + 1 => (copyForward m a b n).write (a + n) [copyForward m a b n (b + n)]

/-- **What is copied towards the front arrives as it was.** -/
theorem copyForward_eq (m : Mem) {a b : Nat} (h : a ≤ b) (n : Nat) :
    m.copyForward a b n = m.copy a m b n := by
  induction n with
  | zero =>
      funext k
      rw [copyForward, copy_apply, if_neg (by omega)]
  | succ n ih =>
      -- the byte at `b + n` is not in what was written so far
      have hbyte : m.copy a m b n (b + n) = m (b + n) := by
        rw [copy_apply, if_neg (by omega)]
      have hlen := length_read m b n
      have hrange : m.read b (n + 1) = m.read b n ++ [m (b + n)] := read_add m b n 1
      have hwrite := write_append m a (m.read b n) [m (b + n)]
      rw [hlen] at hwrite
      rw [copyForward, ih, hbyte, copy, copy, hrange, hwrite]

/-- A range of what is seen from an address on. -/
theorem read_shift (m : Mem) (p a n : Nat) : (m.shift p).read a n = m.read (p + a) n := by
  refine List.map_congr_left fun i _ => ?_
  show m (p + (a + i)) = m (p + a + i)
  rw [Nat.add_assoc]

/-- A write over a part of a range. -/
theorem read_write_splice {m : Mem} {a n : Nat} {l₁ l₂ l₃ bs : List UInt8}
    (h : m.read a n = l₁ ++ (l₂ ++ l₃)) (hlen : bs.length = l₂.length) :
    (m.write (a + l₁.length) bs).read a n = l₁ ++ (bs ++ l₃) := by
  have hn : n = l₁.length + (l₂.length + l₃.length) := by
    have hl := congrArg List.length h
    rwa [length_read, List.length_append, List.length_append] at hl
  subst hn
  rw [read_add, read_add] at h
  obtain ⟨h1, hrest⟩ := List.append_inj h (length_read m a _)
  obtain ⟨-, h3⟩ := List.append_inj hrest (length_read m _ _)
  have hself := read_write_self m (a + l₁.length) bs
  rw [hlen] at hself
  rw [read_add, read_add, read_write_disjoint (Or.inl (Nat.le_refl _)), hself,
    read_write_disjoint (Or.inr (by omega)), h1, h3]

/-- **A range is moved over the one in front of it**, and what it leaves is cleared. -/
theorem read_slide {m : Mem} {a n : Nat} {l₁ l₂ l₃ l₄ : List UInt8}
    (h : m.read a n = l₁ ++ (l₂ ++ (l₃ ++ l₄))) :
    ((m.copyForward (a + l₁.length) (a + l₁.length + l₂.length) l₃.length).fill
        (a + l₁.length + l₃.length) l₂.length 0).read a n
      = l₁ ++ (l₃ ++ (List.replicate l₂.length 0 ++ l₄)) := by
  have hsource : m.read (a + l₁.length + l₂.length) l₃.length = l₃ := by
    have hassoc : m.read a n = (l₁ ++ l₂) ++ (l₃ ++ l₄) := by rw [h, List.append_assoc]
    have hmid := read_middle hassoc
    rwa [List.length_append, ← Nat.add_assoc] at hmid
  -- the two ranges together, as what is written over and what is left
  have hsplit : m.read a n = l₁ ++ ((l₂ ++ l₃).take l₃.length ++ ((l₂ ++ l₃).drop l₃.length ++ l₄)) := by
    rw [h, ← List.append_assoc (List.take _ _), List.take_append_drop, List.append_assoc]
  have htake : l₃.length = ((l₂ ++ l₃).take l₃.length).length := by
    rw [List.length_take, List.length_append]
    omega
  have hdrop : (List.replicate l₂.length (0 : UInt8)).length = ((l₂ ++ l₃).drop l₃.length).length := by
    rw [List.length_replicate, List.length_drop, List.length_append]
    omega
  have hmoved := read_write_splice hsplit htake
  rw [← List.append_assoc] at hmoved
  have hcleared := read_write_splice hmoved hdrop
  rw [List.length_append, List.append_assoc, ← Nat.add_assoc] at hcleared
  rw [copyForward_eq m (Nat.le_add_right _ _), copy, hsource, fill]
  exact hcleared

end Mem
