import Rtl8812au.Lib.Reach

/-!
# Runs with their history

`Reach` forgets how a state was reached. `Traced` keeps the actions, the latest one last, so that a
statement can speak of what happened before; and a run from a state on can be charged for what it does.
-/

variable {σ α : Type}

/-- The states reached from `s₀`, each with the actions that led to it. -/
inductive Traced (step : σ → α → Outcome σ) (ok : σ → α → Prop) (s₀ : σ) : List α → σ → Prop where
  | start : Traced step ok s₀ [] s₀
  | next {as : List α} {a : α} {s s' : σ} : Traced step ok s₀ as s → ok s a → step s a = .done s' →
      Traced step ok s₀ (as ++ [a]) s'

variable {step : σ → α → Outcome σ} {ok : σ → α → Prop} {s₀ s s' : σ} {as : List α}

/-- **What holds at the start and is kept by every step holds of every history.** -/
theorem Traced.invariant (Inv : List α → σ → Prop) (h0 : Inv [] s₀)
    (hstep : ∀ {as a s s'}, Inv as s → ok s a → step s a = .done s' → Inv (as ++ [a]) s')
    (h : Traced step ok s₀ as s) : Inv as s := by
  induction h with
  | start => exact h0
  | next _ hok hdone ih => exact hstep ih hok hdone

theorem Traced.append {bs : List α} : ∀ {as : List α} {s : σ}, Traced step ok s₀ as s →
    RunOk step ok s bs → runActions step s bs = .done s' → Traced step ok s₀ (as ++ bs) s' := by
  induction bs with
  | nil =>
      intro as s h _ hrun
      cases hrun
      rw [List.append_nil]
      exact h
  | cons b bs ih =>
      intro as s h hok hrun
      obtain ⟨t, ht, hrest⟩ := Outcome.bind_eq_done.mp hrun
      have hall := ih (h.next hok.1 ht) (hok.2 t ht) hrest
      rw [List.append_assoc] at hall
      exact hall

/-- A run has a history. -/
theorem history_runActions (hok : RunOk step ok s₀ as) (hrun : runActions step s₀ as = .done s') :
    Traced step ok s₀ as s' := Traced.append .start hok hrun

/-- **What a run can spend**: if every action that counts lowers what is left, and no other raises it, then
a run has no more of them than were left at its start. -/
theorem runActions_spends (Left : Nat → σ → Prop) {good : α → Prop} (counts : α → Bool)
    (hstep : ∀ {n s s' a}, Left n s → good a → ok s a → step s a = .done s' →
      ∃ n', Left n' s' ∧ (if counts a then 1 else 0) + n' ≤ n) :
    ∀ {as : List α} {n : Nat} {s s' : σ}, Left n s → (∀ a ∈ as, good a) → RunOk step ok s as →
      runActions step s as = .done s' → as.countP counts ≤ n := by
  intro as
  induction as with
  | nil => intro n s s' _ _ _ _; exact Nat.zero_le n
  | cons a as ih =>
      intro n s s' hleft hgood hok hrun
      obtain ⟨t, ht, hrest⟩ := Outcome.bind_eq_done.mp hrun
      obtain ⟨n', hleft', hcost⟩ := hstep hleft (hgood a List.mem_cons_self) hok.1 ht
      have hlater := ih hleft' (fun b hb => hgood b (List.mem_cons_of_mem a hb)) (hok.2 t ht) hrest
      rw [List.countP_cons]
      omega

/-! ## What happened before -/

/-- Something like `q` happened when `P` held of what was before it, and from then on only what is quiet. -/
def After (P : List α → Prop) (q quiet : α → Prop) (as : List α) : Prop :=
  ∃ pre a post, as = pre ++ a :: post ∧ P pre ∧ q a ∧ ∀ b ∈ post, quiet b

variable {P : List α → Prop} {q quiet : α → Prop} {a : α}

theorem After.last (h : P as) (ha : q a) : After P q quiet (as ++ [a]) :=
  ⟨as, a, [], rfl, h, ha, fun _ hb => absurd hb List.not_mem_nil⟩

theorem After.later (h : After P q quiet as) (ha : quiet a) : After P q quiet (as ++ [a]) := by
  obtain ⟨pre, b, post, rfl, hP, hq, hquiet⟩ := h
  refine ⟨pre, b, post ++ [a], by rw [List.append_assoc, List.cons_append], hP, hq, fun x hx => ?_⟩
  rcases List.mem_append.mp hx with hx | hx
  · exact hquiet x hx
  · rw [List.mem_singleton.mp hx]
    exact ha

theorem After.not_nil : ¬ After P q quiet ([] : List α) := by
  rintro ⟨pre, a, post, hnil, -⟩
  exact List.append_ne_nil_of_right_ne_nil pre (List.cons_ne_nil a post) hnil.symm

/-- The latest action is the one, or it came before and the latest is quiet. -/
theorem After.cases_last (h : After P q quiet (as ++ [a])) :
    P as ∧ q a ∨ After P q quiet as ∧ quiet a := by
  obtain ⟨pre, b, post, heq, hP, hq, hquiet⟩ := h
  rcases List.eq_nil_or_concat post with rfl | ⟨post, x, rfl⟩
  · obtain ⟨rfl, hb⟩ := List.append_inj' heq rfl
    cases hb
    exact Or.inl ⟨hP, hq⟩
  · rw [List.concat_eq_append] at heq hquiet
    rw [← List.cons_append, ← List.append_assoc] at heq
    obtain ⟨rfl, hx⟩ := List.append_inj' heq rfl
    cases hx
    refine Or.inr ⟨⟨pre, b, post, rfl, hP, hq, fun y hy => hquiet y (List.mem_append_left _ hy)⟩, ?_⟩
    exact hquiet a (List.mem_append_right _ List.mem_cons_self)
