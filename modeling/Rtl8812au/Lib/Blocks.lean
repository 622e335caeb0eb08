import Mathlib.Data.List.Basic
import Mathlib.Logic.Function.Basic

/-!
# Writing block by block

A sequence is written to the cells of a store, each element to the cell of its index. It does not matter in what
blocks this is done. A loop that stops at the first write that fails has done the first part of them.
-/

variable {κ β ω δ : Type}

/-! ## Stores -/

/-- What a list of writes leaves. -/
def store [DecidableEq κ] (m : κ → β) : List (κ × β) → κ → β
  | [] => m
  | (k, b) :: ws => store (Function.update m k b) ws

/-- The elements of a sequence with the cells of their indices, from `i` on. -/
def spread (pos : Nat → κ) : Nat → List β → List (κ × β)
  | _, [] => []
  | i, b :: bs => (pos i, b) :: spread pos (i + 1) bs

section
variable [DecidableEq κ] {m : κ → β} {pos : Nat → κ}

theorem store_append (ws ws' : List (κ × β)) : store m (ws ++ ws') = store (store m ws) ws' := by
  induction ws generalizing m with
  | nil => rfl
  | cons w ws ih => exact ih

theorem store_of_not_mem {ws : List (κ × β)} {k : κ} (h : ∀ w ∈ ws, w.1 ≠ k) : store m ws k = m k := by
  induction ws generalizing m with
  | nil => rfl
  | cons w ws ih =>
      show store (Function.update m w.1 w.2) ws k = m k
      rw [ih fun v hv => h v (List.mem_cons_of_mem _ hv)]
      exact Function.update_of_ne (h w List.mem_cons_self).symm _ _

omit [DecidableEq κ] in
theorem spread_append (i : Nat) (xs ys : List β) :
    spread pos i (xs ++ ys) = spread pos i xs ++ spread pos (i + xs.length) ys := by
  induction xs generalizing i with
  | nil => rfl
  | cons x xs ih =>
      rw [List.cons_append, spread, spread, ih, List.cons_append, List.length_cons, Nat.add_assoc i 1,
        Nat.add_comm 1]

omit [DecidableEq κ] in
theorem mem_spread {i : Nat} {bs : List β} {w : κ × β} (h : w ∈ spread pos i bs) :
    ∃ j, i ≤ j ∧ j < i + bs.length ∧ w.1 = pos j := by
  induction bs generalizing i with
  | nil => exact absurd h List.not_mem_nil
  | cons b bs ih =>
      rcases List.mem_cons.mp h with rfl | h
      · exact ⟨i, Nat.le_refl i, Nat.lt_add_of_pos_right (Nat.succ_pos _), rfl⟩
      · obtain ⟨j, hle, hlt, hj⟩ := ih h
        rw [List.length_cons]
        exact ⟨j, by omega, by omega, hj⟩

omit [DecidableEq κ] in
/-- The cells of the indices alone matter. -/
theorem spread_congr {pos' : Nat → κ} {i i' : Nat} {bs : List β}
    (h : ∀ j < bs.length, pos (i + j) = pos' (i' + j)) : spread pos i bs = spread pos' i' bs := by
  induction bs generalizing i i' with
  | nil => rfl
  | cons b bs ih =>
      rw [spread, spread, ih fun j hj => ?_]
      · rw [← Nat.add_zero i, ← Nat.add_zero i', h 0 (Nat.succ_pos _)]
      · have hnext := h (j + 1) (Nat.succ_lt_succ hj)
        rwa [Nat.add_comm j 1, ← Nat.add_assoc, ← Nat.add_assoc] at hnext

/-- **Each cell has the element of its index**, if no two indices have one cell. -/
theorem store_spread {i : Nat} {bs : List β}
    (hinj : ∀ j k, j < bs.length → k < bs.length → pos (i + j) = pos (i + k) → j = k) {j : Nat}
    (hj : j < bs.length) : store m (spread pos i bs) (pos (i + j)) = bs[j] := by
  induction bs generalizing m i j with
  | nil => exact absurd hj (Nat.not_lt_zero j)
  | cons b bs ih =>
      cases j with
      | zero =>
          show store (Function.update m (pos i) b) (spread pos (i + 1) bs) (pos (i + 0)) = b
          rw [store_of_not_mem, Nat.add_zero, Function.update_self]
          intro w hw heq
          obtain ⟨k, hle, hlt, hk⟩ := mem_spread hw
          have hzero := hinj (k - i) 0 (by rw [List.length_cons]; omega) (Nat.succ_pos _)
            (by rw [show i + (k - i) = k by omega, ← hk, heq])
          omega
      | succ j =>
          have hlen : j < bs.length := Nat.lt_of_succ_lt_succ hj
          have hnext := ih (m := Function.update m (pos i) b) (i := i + 1) (j := j)
            (fun x y hx hy hxy => Nat.succ.inj (hinj (x + 1) (y + 1) (Nat.succ_lt_succ hx) (Nat.succ_lt_succ hy)
              (by rwa [Nat.add_assoc, Nat.add_assoc, Nat.add_comm 1, Nat.add_comm 1] at hxy))) hlen
          rw [Nat.add_assoc, Nat.add_comm 1 j] at hnext
          exact hnext

omit [DecidableEq κ] in
theorem spread_map_range (g : Nat → β) (n i : Nat) :
    spread pos i ((List.range' i n).map g) = (List.range' i n).map fun j => (pos j, g j) := by
  induction n generalizing i with
  | zero => rfl
  | succ n ih => rw [List.range'_succ, List.map_cons, List.map_cons, spread, ih]

/-- The same for a sequence given by its indices. -/
theorem store_map_range {g : Nat → β} {n : Nat} (hinj : ∀ j k, j < n → k < n → pos j = pos k → j = k) {i : Nat}
    (hi : i < n) : store m ((List.range' 0 n).map fun j => (pos j, g j)) (pos i) = g i := by
  have hlen : ((List.range' 0 n).map g).length = n := by rw [List.length_map, List.length_range']
  have hthis : i < ((List.range' 0 n).map g).length := hlen.symm ▸ hi
  have hat : store m (spread pos 0 ((List.range' 0 n).map g)) (pos (0 + i)) = ((List.range' 0 n).map g)[i] :=
    store_spread (fun j k hj hk hjk => by
      rw [Nat.zero_add, Nat.zero_add] at hjk
      exact hinj j k (hlen ▸ hj) (hlen ▸ hk) hjk) hthis
  rw [spread_map_range, Nat.zero_add, List.getElem_map, List.getElem_range', Nat.zero_add, Nat.one_mul] at hat
  exact hat

omit [DecidableEq κ] in
/-- **Blocks of equal size**, one after the other. -/
theorem flatMap_blocks (s n k : Nat) (l : List β) (h : k * n ≤ l.length) :
    ((List.range k).flatMap fun i => spread pos (s + i * n) ((l.drop (i * n)).take n))
      = spread pos s (l.take (k * n)) := by
  induction k with
  | zero => rw [Nat.zero_mul, List.take_zero]; rfl
  | succ k ih =>
      have hk : k * n ≤ l.length := Nat.le_trans (Nat.mul_le_mul_right n (Nat.le_succ k)) h
      rw [List.range_succ, List.flatMap_append, ih hk, List.flatMap_cons, List.flatMap_nil, List.append_nil,
        Nat.succ_mul, List.take_add, spread_append, List.length_take, Nat.min_eq_left hk]

end

/-! ## Loops that stop -/

/-- `for (i = from; count > 0; i++, count--)` over writes that may fail: whether all went well, what was tried,
and the device after it. -/
def writeLoop (exec : δ → ω → Bool × δ) (op : Nat → ω) : Nat → Nat → δ → Bool × List ω × δ
  | 0, _, d => (true, [], d)
  | n + 1, i, d =>
    let t := exec d (op i)
    if t.1 then
      let r := writeLoop exec op n (i + 1) t.2
      (r.1, op i :: r.2.1, r.2.2)
    else (false, [op i], t.2)

/-- What was tried is the first part of what was to be done, and all of it if all went well. -/
structure Tried (all : List ω) (r : Bool × List ω × δ) : Prop where
  part : r.2.1 <+: all
  whole : r.1 = true → r.2.1 = all

variable {exec : δ → ω → Bool × δ} {op : Nat → ω}

theorem writeLoop_tried (n i : Nat) (d : δ) : Tried ((List.range' i n).map op) (writeLoop exec op n i d) := by
  induction n generalizing i d with
  | zero => exact ⟨List.prefix_refl _, fun _ => rfl⟩
  | succ n ih =>
      rw [List.range'_succ, List.map_cons]
      unfold writeLoop
      cases ht : (exec d (op i)).1 with
      | true =>
          obtain ⟨hpart, hwhole⟩ := ih (i + 1) (exec d (op i)).2
          simp only [ht, if_true]
          exact ⟨(List.prefix_cons_inj _).mpr hpart, fun h => congrArg (op i :: ·) (hwhole h)⟩
      | false =>
          simp only [ht, Bool.false_eq_true, if_false]
          exact ⟨(List.prefix_cons_inj _).mpr List.nil_prefix, nofun⟩

/-- Something in front whose failure does not matter. -/
theorem Tried.cons {all : List ω} {r : Bool × List ω × δ} (h : Tried all r) (w : ω) :
    Tried (w :: all) (r.1, w :: r.2.1, r.2.2) :=
  ⟨(List.prefix_cons_inj _).mpr h.part, fun hn => congrArg (w :: ·) (h.whole hn)⟩

/-- One thing after the other, if the first went well. -/
theorem Tried.andThen {all all' : List ω} {r r' : Bool × List ω × δ} (h : Tried all r) (h' : Tried all' r') :
    Tried (all ++ all') (if r.1 then (r'.1, r.2.1 ++ r'.2.1, r'.2.2) else r) := by
  cases hr : r.1 with
  | true =>
      rw [if_pos rfl, h.whole hr]
      exact ⟨(List.prefix_append_right_inj _).mpr h'.part, fun hn => congrArg (all ++ ·) (h'.whole hn)⟩
  | false =>
      rw [if_neg Bool.false_ne_true]
      exact ⟨h.part.trans (List.prefix_append _ _), fun hn => absurd (hr.symm.trans hn) Bool.false_ne_true⟩

/-- One write. -/
def writeOne (exec : δ → ω → Bool × δ) (w : ω) (d : δ) : Bool × List ω × δ :=
  let t := exec d w
  (t.1, [w], t.2)

theorem writeOne_tried (w : ω) (d : δ) : Tried [w] (writeOne exec w d) := ⟨List.prefix_refl _, fun _ => rfl⟩

/-- Where no write fails the loop does not. -/
theorem writeLoop_ok (h : ∀ d w, (exec d w).1 = true) (n i : Nat) (d : δ) : (writeLoop exec op n i d).1 = true := by
  induction n generalizing i d with
  | zero => rfl
  | succ n ih =>
      unfold writeLoop
      simp only [h, if_true]
      exact ih _ _
