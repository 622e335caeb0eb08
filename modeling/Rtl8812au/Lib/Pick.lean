import Mathlib.Order.Lattice

/-!
# Picking one of a list

A walk over a list that keeps the best so far: what it ends with was picked at some place, and if the
better one is taken only when it is strictly better, it is the first of the greatest.
-/

namespace Pick

variable {ι α : Type}

/-- If a turn keeps what it has or takes what it is at, the walk ends with what it had or with one of the
list that was taken. -/
theorem foldl_picks {f : Option ι → ι → Option ι} {P : ι → Prop}
    (hf : ∀ b x, f b x = b ∨ f b x = some x ∧ P x) {s : ι} : ∀ {l : List ι} {b : Option ι},
      l.foldl f b = some s → b = some s ∨ s ∈ l ∧ P s := by
  intro l
  induction l with
  | nil => intro b h; exact Or.inl h
  | cons x l ih =>
      intro b h
      rcases ih h with hb | ⟨hs, hP⟩
      · rcases hf b x with hkeep | ⟨htake, hP⟩
        · exact Or.inl (hkeep.symm.trans hb)
        · cases htake.symm.trans hb
          exact Or.inr ⟨List.mem_cons_self, hP⟩
      · exact Or.inr ⟨List.mem_cons_of_mem x hs, hP⟩

section

variable [LinearOrder α] (ok : ι → Bool) (score : ι → α)

/-- The better of what is there and a competitor that passes. -/
def better (best : Option ι) (x : ι) : Option ι :=
  if ok x then
    match best with
    | none => some x
    | some b => if score b < score x then some x else some b
  else best

/-- **The first of the greatest** among those that pass. -/
def FirstBest (l : List ι) (s : ι) : Prop :=
  ∃ pre post, l = pre ++ s :: post ∧ ok s = true ∧ (∀ x ∈ pre, ok x = true → score x < score s)
    ∧ ∀ x ∈ post, ok x = true → score x ≤ score s

variable {ok score}

theorem FirstBest.mem {l : List ι} {s : ι} (h : FirstBest ok score l s) : s ∈ l := by
  obtain ⟨pre, post, rfl, -⟩ := h
  exact List.mem_append_right pre List.mem_cons_self

theorem FirstBest.passes {l : List ι} {s : ι} (h : FirstBest ok score l s) : ok s = true := by
  obtain ⟨-, -, -, hs, -⟩ := h
  exact hs

theorem FirstBest.le {l : List ι} {s x : ι} (h : FirstBest ok score l s) (hx : x ∈ l)
    (hok : ok x = true) : score x ≤ score s := by
  obtain ⟨pre, post, rfl, -, hpre, hpost⟩ := h
  rcases List.mem_append.mp hx with hx | hx
  · exact le_of_lt (hpre x hx hok)
  · rcases List.mem_cons.mp hx with rfl | hx
    · exact le_refl _
    · exact hpost x hx hok

/-- What the walk has after a part of the list. -/
def Upto (ok : ι → Bool) (score : ι → α) (l : List ι) : Option ι → Prop
  | none => ∀ x ∈ l, ok x = false
  | some s => FirstBest ok score l s

/-- **One turn.** -/
theorem Upto.better {l : List ι} {best : Option ι} (h : Upto ok score l best) (x : ι) :
    Upto ok score (l ++ [x]) (better ok score best x) := by
  unfold Pick.better
  by_cases hx : ok x = true
  · rw [if_pos hx]
    cases best with
    | none =>
        -- the first one that is allowed
        refine ⟨l, [], rfl, hx, ?_, ?_⟩
        · intro y hy hok
          exact absurd ((h y hy).symm.trans hok) Bool.false_ne_true
        · intro y hy
          cases hy
    | some b =>
        -- a higher score takes the place; otherwise the best so far stays
        have hb : FirstBest ok score l b := h
        by_cases hlt : score b < score x
        · simp only [if_pos hlt]
          refine ⟨l, [], rfl, hx, ?_, ?_⟩
          · intro y hy hok
            exact lt_of_le_of_lt (hb.le hy hok) hlt
          · intro y hy
            cases hy
        · simp only [if_neg hlt]
          obtain ⟨pre, post, rfl, hok, hpre, hpost⟩ := hb
          refine ⟨pre, post ++ [x], List.append_assoc .., hok, hpre, ?_⟩
          intro y hy hoky
          rcases List.mem_append.mp hy with hy | hy
          · exact hpost y hy hoky
          · rw [List.mem_singleton.mp hy]
            exact le_of_not_gt hlt
  · rw [if_neg hx]
    -- one that is not allowed changes nothing
    have hx : ok x = false := Bool.eq_false_iff.mpr hx
    cases best with
    | none =>
        intro y hy
        rcases List.mem_append.mp hy with hy | hy
        · exact h y hy
        · rw [List.mem_singleton.mp hy]
          exact hx
    | some b =>
        obtain ⟨pre, post, rfl, hok, hpre, hpost⟩ := h
        refine ⟨pre, post ++ [x], List.append_assoc .., hok, hpre, ?_⟩
        intro y hy hoky
        rcases List.mem_append.mp hy with hy | hy
        · exact hpost y hy hoky
        · rw [List.mem_singleton.mp hy, hx] at hoky
          cases hoky

/-- **The whole walk.** -/
theorem foldl_better : ∀ {rest l : List ι} {best : Option ι}, Upto ok score l best →
    Upto ok score (l ++ rest) (rest.foldl (better ok score) best) := by
  intro rest
  induction rest with
  | nil =>
      intro l best h
      rw [List.append_nil]
      exact h
  | cons x rest ih =>
      intro l best h
      have hturn := ih (h.better x)
      rw [List.append_assoc] at hturn
      exact hturn

theorem firstBest_of_foldl {l : List ι} {s : ι} (h : l.foldl (better ok score) none = some s) :
    FirstBest ok score l s := by
  have hnone : Upto ok score [] none := fun x hx => absurd hx List.not_mem_nil
  have hall : Upto ok score ([] ++ l) (l.foldl (better ok score) none) := foldl_better hnone
  rw [h] at hall
  exact hall

/-- There is one first of the greatest. -/
theorem FirstBest.unique {l : List ι} {s b : ι} (hs : FirstBest ok score l s)
    (hb : FirstBest ok score l b) : s = b := by
  have hsb : score s ≤ score b := hb.le hs.mem hs.passes
  have hbs : score b ≤ score s := hs.le hb.mem hb.passes
  obtain ⟨pre, post, rfl, hoks, hpre, -⟩ := hs
  obtain ⟨pre', post', heq, hokb, hpre', -⟩ := hb
  rcases List.append_eq_append_iff.mp heq with ⟨mid, rfl, htail⟩ | ⟨mid, rfl, htail⟩
  · cases mid with
    | nil => exact (List.cons.inj htail).1
    | cons x mid =>
        -- one that stands in front of the other is smaller
        obtain ⟨rfl, -⟩ := List.cons.inj htail
        have hlt := hpre' s (List.mem_append_right pre List.mem_cons_self) hoks
        exact absurd hbs (not_le_of_gt hlt)
  · cases mid with
    | nil => exact (List.cons.inj htail).1.symm
    | cons x mid =>
        obtain ⟨rfl, -⟩ := List.cons.inj htail
        have hlt := hpre b (List.mem_append_right pre' List.mem_cons_self) hokb
        exact absurd hsb (not_le_of_gt hlt)

/-- **The walk ends with the first of the greatest**, if any passes. -/
theorem foldl_better_iff {l : List ι} {s : ι} :
    l.foldl (better ok score) none = some s ↔ FirstBest ok score l s := by
  refine ⟨firstBest_of_foldl, fun hs => ?_⟩
  have hnone : Upto ok score [] none := fun x hx => absurd hx List.not_mem_nil
  have hall : Upto ok score ([] ++ l) (l.foldl (better ok score) none) := foldl_better hnone
  rw [List.nil_append] at hall
  cases hwalk : l.foldl (better ok score) none with
  | none =>
      rw [hwalk] at hall
      exact absurd ((hall s hs.mem).symm.trans hs.passes) Bool.false_ne_true
  | some b =>
      rw [hwalk] at hall
      exact congrArg some (FirstBest.unique hall hs)

end

end Pick
