import Mathlib.Algebra.Ring.Int.Defs
import Mathlib.Algebra.Ring.Nat
import Mathlib.Data.List.Chain
import Mathlib.Tactic.Common

/-!
# A sequencing window over unbounded positions

What a receive reordering buffer is for, with the wrap-around taken out. Items
carry *positions* in `ℕ`. The window starts at `next`; an item is let in only if
its position lies less than `H` ahead of that; items that arrived early are
`held`, in order, and leave through `out`.

A modular implementation refines this one as long as every comparison it makes
is between positions less than half its modulus apart, which is what the bounds
below are for.
-/

namespace Window

/-- The window: its start, what waits in it, and what has left it so far. -/
structure Win where
  next : Nat
  held : List Nat
  out : List Nat

/-- Release from the front while the front is not ahead of the start. -/
def flush : Nat → List Nat → List Nat × Nat × List Nat
  | n, [] => ([], n, [])
  | n, p :: ps =>
    if p ≤ n then
      let r := flush (if p = n then n + 1 else n) ps
      (p :: r.1, r.2.1, r.2.2)
    else ([], n, p :: ps)

/-- Ordered insertion that refuses a position already present. -/
def insert (x : Nat) : List Nat → Option (List Nat)
  | [] => some [x]
  | p :: ps =>
    if p < x then (insert x ps).map (p :: ·)
    else if p = x then none
    else some (x :: p :: ps)

/-- Where the start moves when position `x` comes in: past it if it is the one
awaited, up to it if it lies beyond a window of `W` positions. -/
def slide (W next x : Nat) : Nat :=
  if x = next then next + 1 else if next + W ≤ x then x + 1 - W else next

/-- A position inside the window leaves the start where it is. -/
theorem slide_of_mem {W next x : Nat} (h : next < x) (h' : x < next + W) :
    slide W next x = next := by
  unfold slide
  rw [if_neg (by omega), if_neg (by omega)]

/-- Let `x` in and release what can be released. -/
def Win.accept (W : Nat) (w : Win) (x : Nat) : Option Win :=
  (insert x w.held).map fun q =>
    let r := flush (slide W w.next x) q
    { next := r.2.1, held := r.2.2, out := w.out ++ r.1 }

/-- Give up waiting: jump to the first item held and release from there. -/
def Win.expire (w : Win) : Win :=
  match w.held with
  | [] => w
  | p :: ps =>
    let r := flush p (p :: ps)
    { next := r.2.1, held := r.2.2, out := w.out ++ r.1 }

/-- One position strictly after another, and at most `H` after it. -/
def Follows (H p q : Nat) : Prop := p < q ∧ q ≤ p + H

/-- The window invariant. -/
structure Win.Inv (W H : Nat) (w : Win) : Prop where
  /-- Everything that left or waits is in order, with no gap above `H`. -/
  chain : (w.out ++ w.held).IsChain (Follows H)
  /-- What waits lies inside the window, past its start. -/
  ahead : ∀ p ∈ w.held, w.next < p ∧ p < w.next + W
  /-- What left lies before the start. -/
  behind : ∀ p ∈ w.out, p < w.next
  /-- With nothing waiting the start is right after the last item that left. -/
  tight : w.held = [] → ∀ p ∈ w.out.getLast?, w.next = p + 1

/-! ## Flushing -/

theorem flush_append : ∀ (q : List Nat) (n : Nat), (flush n q).1 ++ (flush n q).2.2 = q
  | [], _ => rfl
  | p :: ps, n => by
      rw [flush]
      split
      · simp only [List.cons_append, flush_append ps]
      · rfl

theorem flush_next_ge : ∀ (q : List Nat) (n : Nat), n ≤ (flush n q).2.1
  | [], _ => Nat.le_refl _
  | p :: ps, n => by
      rw [flush]
      split
      · refine Nat.le_trans ?_ (flush_next_ge ps _)
        split <;> omega
      · exact Nat.le_refl _

/-- Everything released ends up before the new start. -/
theorem flush_released_lt : ∀ (q : List Nat) (n : Nat), ∀ p ∈ (flush n q).1, p < (flush n q).2.1
  | [], _ => by simp [flush]
  | p :: ps, n => by
      rw [flush]
      split
      · rename_i hle
        intro y hy
        rcases List.mem_cons.mp hy with rfl | hy'
        · refine Nat.lt_of_lt_of_le ?_ (flush_next_ge ps _)
          split <;> omega
        · exact flush_released_lt ps _ y hy'
      · simp

/-- A start at most one past the largest item never runs beyond that. -/
theorem flush_next_le {b : Nat} : ∀ (q : List Nat) (n : Nat),
    n ≤ b → (∀ p ∈ q, p < b) → (flush n q).2.1 ≤ b
  | [], n, hn, _ => hn
  | p :: ps, n, hn, hq => by
      rw [flush]
      split
      · refine flush_next_le ps _ ?_ (fun y hy => hq y (List.mem_cons_of_mem _ hy))
        have := hq p (List.mem_cons_self ..)
        split <;> omega
      · exact hn

/-- What is kept starts strictly past the new start. -/
theorem flush_kept_head : ∀ (q : List Nat) (n : Nat),
    ∀ p ∈ (flush n q).2.2.head?, (flush n q).2.1 < p
  | [], _ => by simp [flush]
  | p :: ps, n => by
      rw [flush]
      split
      · exact flush_kept_head ps _
      · rename_i hgt
        intro y hy
        simp only [List.head?_cons, Option.mem_def, Option.some.injEq] at hy
        show n < y
        omega

/-- If nothing is kept, the new start is right after the last item released. -/
theorem flush_tight : ∀ (q : List Nat) (n z : Nat), z ∈ q.getLast? →
    (∀ p ∈ q, p ≤ z) → n ≤ z + 1 → (flush n q).2.2 = [] → (flush n q).2.1 = z + 1
  | [], _, _, hz, _, _, _ => by simp at hz
  | [p], n, z, hz, _, hn, hk => by
      simp only [List.getLast?_singleton, Option.mem_def, Option.some.injEq] at hz
      subst hz
      rw [flush] at hk ⊢
      split
      · simp only [flush]
        split <;> omega
      · rename_i hgt
        rw [if_neg hgt] at hk
        exact absurd hk (by simp)
  | p :: p' :: ps, n, z, hz, hle, hn, hk => by
      rw [flush] at hk ⊢
      split
      · rename_i hp
        rw [if_pos hp] at hk
        have hpz := hle p (List.mem_cons_self ..)
        refine flush_tight (p' :: ps) _ z ?_ (fun y hy => hle y (List.mem_cons_of_mem _ hy)) ?_ hk
        · rwa [List.getLast?_cons_cons] at hz
        · split <;> omega
      · rename_i hgt
        rw [if_neg hgt] at hk
        exact absurd hk (by simp)

/-! ## Insertion -/

/-- **Insertion splits the list around the new position.** -/
theorem insert_split {x : Nat} : ∀ {q q' : List Nat}, insert x q = some q' →
    ∃ l r, q = l ++ r ∧ q' = l ++ x :: r ∧ (∀ p ∈ l, p < x) ∧ ∀ p ∈ r.head?, x < p
  | [], q', h => by
      rw [insert] at h
      exact ⟨[], [], rfl, (Option.some.inj h).symm, by simp, by simp⟩
  | p :: ps, q', h => by
      rw [insert] at h
      split at h
      · rename_i hlt
        obtain ⟨q1, hq1, rfl⟩ := Option.map_eq_some_iff.mp h
        obtain ⟨l, r, rfl, rfl, hl, hr⟩ := insert_split hq1
        refine ⟨p :: l, r, rfl, rfl, ?_, hr⟩
        intro y hy
        rcases List.mem_cons.mp hy with rfl | hy'
        · exact hlt
        · exact hl y hy'
      · rename_i hge
        split at h
        · exact absurd h (by simp)
        · rename_i hne
          refine ⟨[], p :: ps, rfl, (Option.some.inj h).symm, by simp, ?_⟩
          intro y hy
          simp only [List.head?_cons, Option.mem_def, Option.some.injEq] at hy
          omega

/-- Only a position already present is refused. -/
theorem insert_none {x : Nat} : ∀ {q : List Nat}, insert x q = none → x ∈ q
  | [], h => by simp [insert] at h
  | p :: ps, h => by
      rw [insert] at h
      split at h
      · exact List.mem_cons_of_mem _ (insert_none (Option.map_eq_none_iff.mp h))
      · split at h
        · rename_i heq
          rw [heq]
          exact List.mem_cons_self ..
        · exact absurd h (by simp)

theorem insert_mem {x : Nat} {q q' : List Nat} (h : insert x q = some q') :
    ∀ p ∈ q', p = x ∨ p ∈ q := by
  obtain ⟨l, r, rfl, rfl, -, -⟩ := insert_split h
  intro p hp
  simp only [List.mem_append, List.mem_cons] at hp ⊢
  tauto

theorem chain_pairwise {H : Nat} {l : List Nat} (h : l.IsChain (Follows H)) :
    l.Pairwise (· < ·) := by
  have h' : l.IsChain (· < ·) := h.imp (fun _ _ hab => hab.1)
  exact List.isChain_iff_pairwise.mp h'

/-- **A position that fits between its neighbours keeps the chain.** -/
theorem chain_insert {H x : Nat} {l r : List Nat} (h : (l ++ r).IsChain (Follows H))
    (hl : ∀ p ∈ l, p < x) (hr : ∀ p ∈ r.head?, x < p)
    (hlast : r = [] → ∀ p ∈ l.getLast?, x ≤ p + H)
    (hfirst : l = [] → ∀ p ∈ r.head?, p ≤ x + H) :
    (l ++ x :: r).IsChain (Follows H) := by
  rw [List.isChain_append] at h ⊢
  obtain ⟨hcl, hcr, hj⟩ := h
  refine ⟨hcl, ?_, ?_⟩
  · cases r with
    | nil => exact List.isChain_singleton _
    | cons b r' =>
        refine List.isChain_cons_cons.mpr ⟨⟨hr b rfl, ?_⟩, hcr⟩
        cases hg : l.getLast? with
        | none => exact hfirst (List.getLast?_eq_none_iff.mp hg) b rfl
        | some a =>
            have h1 := (hj a hg b rfl).2
            have h2 := hl a (List.mem_of_getLast? hg)
            omega
  · intro a ha y hy
    simp only [List.head?_cons, Option.mem_def, Option.some.injEq] at hy
    subst hy
    refine ⟨hl a (List.mem_of_getLast? ha), ?_⟩
    cases r with
    | nil => exact hlast rfl a ha
    | cons b r' =>
        have h1 := (hj a ha b rfl).2
        have h2 := hr b rfl
        omega

theorem pairwise_le_last : ∀ {l : List Nat} {z : Nat}, l.Pairwise (· < ·) →
    z ∈ l.getLast? → ∀ p ∈ l, p ≤ z
  | [], _, _, hz, _, _ => by simp at hz
  | [a], z, _, hz, p, hp => by
      simp only [List.getLast?_singleton, Option.mem_def, Option.some.injEq] at hz
      simp only [List.mem_singleton] at hp
      omega
  | a :: b :: l, z, h, hz, p, hp => by
      rw [List.getLast?_cons_cons] at hz
      rw [List.pairwise_cons] at h
      rcases List.mem_cons.mp hp with rfl | hp'
      · exact Nat.le_of_lt (h.1 z (List.mem_of_getLast? hz))
      · exact pairwise_le_last h.2 hz p hp'

/-! ## The two operations keep the invariant -/

/-- What one operation on the window does to its start and to what it releases. -/
structure Win.Step (H : Nat) (w w' : Win) : Prop where
  /-- The start only moves forward, and by at most `H`. -/
  mono : w.next ≤ w'.next
  reach : w'.next ≤ w.next + H
  /-- Only positions from the old start on are released. -/
  rel : ∃ ps, w'.out = w.out ++ ps ∧ ∀ p ∈ ps, w.next ≤ p ∧ p < w'.next

theorem Win.Step.refl (H : Nat) (w : Win) : Win.Step H w w :=
  ⟨Nat.le_refl _, by omega, [], by simp, by simp⟩

/-- Rebuild the invariant after releasing the front of `q` from start `n`. -/
theorem inv_flush {W H n : Nat} {w : Win} {q : List Nat} (hb : ∀ p ∈ w.out, p < n)
    (hc : (w.out ++ q).IsChain (Follows H)) (hq : ∀ p ∈ q, p < n + W)
    (hz : ∀ z ∈ q.getLast?, n ≤ z + 1) (hne : q ≠ []) :
    Win.Inv W H ⟨(flush n q).2.1, (flush n q).2.2, w.out ++ (flush n q).1⟩ := by
  have hge := flush_next_ge q n
  have happ := flush_append q n
  have hsort : q.Pairwise (· < ·) := (List.pairwise_append.mp (chain_pairwise hc)).2.1
  refine ⟨?_, ?_, ?_, ?_⟩
  · rw [List.append_assoc, happ]; exact hc
  -- what is kept lies between the new start and the end of the window
  · intro p hp
    have hk : ((flush n q).2.2).Pairwise (· < ·) := by
      rw [← happ] at hsort
      exact (List.pairwise_append.mp hsort).2.1
    have hpq : p ∈ q := by rw [← happ]; exact List.mem_append_right _ hp
    have := hq p hpq
    refine ⟨?_, by show p < (flush n q).2.1 + W; omega⟩
    show (flush n q).2.1 < p
    have hhead := flush_kept_head q n
    have hp' : p ∈ (flush n q).2.2 := hp
    cases hkept : (flush n q).2.2 with
    | nil => rw [hkept] at hp'; simp at hp'
    | cons a r =>
        rw [hkept] at hk hp' hhead
        have h1 := hhead a rfl
        rcases List.mem_cons.mp hp' with rfl | hpr
        · exact h1
        · have := (List.pairwise_cons.mp hk).1 p hpr
          omega
  · intro p hp
    rcases List.mem_append.mp hp with hp' | hp'
    · exact Nat.lt_of_lt_of_le (hb p hp') hge
    · exact flush_released_lt q n p hp'
  -- where all is released, the start is just behind the last one
  · intro hk p hp
    have hk' : (flush n q).2.2 = [] := hk
    rw [hk', List.append_nil] at happ
    obtain ⟨z, hzl⟩ : ∃ z, z ∈ q.getLast? := by
      cases hg : q.getLast? with
      | none => exact absurd (List.getLast?_eq_none_iff.mp hg) hne
      | some z => exact ⟨z, rfl⟩
    have hp' : p ∈ (w.out ++ (flush n q).1).getLast? := hp
    rw [happ, List.getLast?_append_of_ne_nil _ hne] at hp'
    have hpz : p = z := Option.some.inj (hp'.symm.trans hzl)
    subst hpz
    exact flush_tight q n p hzl (pairwise_le_last hsort hzl) (hz p hzl) hk'

/-- **Letting an item in keeps the invariant** and moves the window forward by at
most `H`. -/
theorem accept_inv {W H x : Nat} {w w' : Win} (hW : 0 < W) (hWH : W ≤ H)
    (hi : w.Inv W H) (hx : w.next ≤ x) (hx' : x < w.next + H)
    (h : w.accept W x = some w') : w'.Inv W H ∧ Win.Step H w w' := by
  rw [Win.accept] at h
  obtain ⟨q, hq, rfl⟩ := Option.map_eq_some_iff.mp h
  obtain ⟨l, r, hlr, rfl, hl, hr⟩ := insert_split hq
  have hheld : ∀ p ∈ l ++ r, w.next < p ∧ p < w.next + W := by rw [← hlr]; exact hi.ahead
  have hmem : ∀ p ∈ l ++ x :: r, p = x ∨ (w.next < p ∧ p < w.next + W) := by
    intro p hp
    exact (insert_mem hq p hp).imp_right (hi.ahead p)
  -- where the start moves to, before anything is released
  have hs1 : w.next ≤ slide W w.next x := by unfold slide; split_ifs <;> omega
  have hs2 : x < slide W w.next x + W := by unfold slide; split_ifs <;> omega
  have hs3 : slide W w.next x ≤ x + 1 := by unfold slide; split_ifs <;> omega
  have hchain : (w.out ++ (l ++ x :: r)).IsChain (Follows H) := by
    have hc := hi.chain
    rw [hlr, ← List.append_assoc] at hc
    rw [← List.append_assoc]
    refine chain_insert hc ?_ hr ?_ ?_
    · intro p hp
      rcases List.mem_append.mp hp with h1 | h1
      · have := hi.behind p h1; omega
      · exact hl p h1
    · intro hr0 p hp
      cases hl0 : l.getLast? with
      | none =>
          have hl1 : l = [] := List.getLast?_eq_none_iff.mp hl0
          subst hl1; subst hr0
          rw [List.append_nil] at hp
          have := hi.tight hlr p hp
          omega
      | some a =>
          have hne : l ≠ [] := by intro h0; rw [h0] at hl0; simp at hl0
          rw [List.getLast?_append_of_ne_nil _ hne] at hp
          have := (hheld p (List.mem_append_left _ (List.mem_of_getLast? hp))).1
          omega
    · intro _ p hp
      have := (hheld p (List.mem_append_right _ (List.mem_of_head? hp))).2
      omega
  have hlast : ∀ z ∈ (l ++ x :: r).getLast?, x ≤ z := by
    intro z hz
    have hs : (l ++ x :: r).Pairwise (· < ·) :=
      (List.pairwise_append.mp (chain_pairwise hchain)).2.1
    exact pairwise_le_last hs hz x (by simp)
  have hge := flush_next_ge (l ++ x :: r) (slide W w.next x)
  refine ⟨inv_flush ?_ hchain ?_ ?_ (by simp), ?_, ?_, _, rfl, ?_⟩
  · intro p hp; exact Nat.lt_of_lt_of_le (hi.behind p hp) hs1
  · intro p hp
    rcases hmem p hp with rfl | h1
    · exact hs2
    · omega
  · intro z hz; have := hlast z hz; omega
  · exact Nat.le_trans hs1 hge
  · refine flush_next_le _ _ (by omega) ?_
    intro p hp
    rcases hmem p hp with rfl | h1 <;> omega
  · intro p hp
    refine ⟨?_, flush_released_lt _ _ p hp⟩
    have hpq : p ∈ l ++ x :: r := by
      rw [← flush_append (l ++ x :: r) (slide W w.next x)]; exact List.mem_append_left _ hp
    rcases hmem p hpq with rfl | h1 <;> omega

/-- **Giving up on the gap keeps the invariant.** -/
theorem expire_inv {W H : Nat} {w : Win} (hWH : W ≤ H) (hi : w.Inv W H) :
    w.expire.Inv W H ∧ Win.Step H w w.expire := by
  unfold Win.expire
  cases hh : w.held with
  | nil =>
      dsimp only
      exact ⟨hi, Win.Step.refl H w⟩
  | cons p ps =>
      have hahead := hi.ahead
      rw [hh] at hahead
      have hp := hahead p (List.mem_cons_self ..)
      have hc := hi.chain
      rw [hh] at hc
      have hs : (p :: ps).Pairwise (· < ·) := (List.pairwise_append.mp (chain_pairwise hc)).2.1
      have hge : ∀ y ∈ p :: ps, p ≤ y := by
        intro y hy
        rcases List.mem_cons.mp hy with rfl | hy'
        · exact Nat.le_refl _
        · exact Nat.le_of_lt ((List.pairwise_cons.mp hs).1 y hy')
      refine ⟨inv_flush ?_ hc ?_ ?_ (by simp), ?_, ?_, _, rfl, ?_⟩
      · intro y hy; have := hi.behind y hy; omega
      · intro y hy; have := hahead y hy; omega
      · intro z hz; have := hge z (List.mem_of_getLast? hz); omega
      · exact Nat.le_trans (Nat.le_of_lt hp.1) (flush_next_ge _ _)
      · refine flush_next_le _ _ (by omega) ?_
        intro y hy; have := hahead y hy; omega
      · intro y hy
        refine ⟨?_, flush_released_lt _ _ y hy⟩
        have hyq : y ∈ p :: ps := by
          rw [← flush_append (p :: ps) p]; exact List.mem_append_left _ hy
        have := hahead y hyq; omega

/-- A fresh window at `s` satisfies the invariant. -/
theorem init_inv (W H s : Nat) : Win.Inv W H ⟨s, [], []⟩ :=
  ⟨List.isChain_nil, by simp, by simp, by simp⟩

end Window
