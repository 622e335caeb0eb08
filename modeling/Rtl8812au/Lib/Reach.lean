import Rtl8812au.Lib.Mem

/-!
# Reachable states

A system is a step function on states and actions that may leave its buffers. A run takes
actions that satisfy a condition `ok` on the state they are taken in; a state is reachable
when a run ends in it.
-/

variable {σ α : Type}

/-- The states reached from `s₀` by actions that satisfy `ok`. -/
inductive Reach (step : σ → α → Outcome σ) (ok : σ → α → Prop) (s₀ : σ) : σ → Prop where
  | start : Reach step ok s₀ s₀
  | next {s s' : σ} {a : α} : Reach step ok s₀ s → ok s a → step s a = .done s' →
      Reach step ok s₀ s'

/-- **What holds at the start and is kept by every step holds in every reachable state.** -/
theorem Reach.invariant {step : σ → α → Outcome σ} {ok : σ → α → Prop} {s₀ s : σ}
    (Inv : σ → Prop) (h0 : Inv s₀)
    (hstep : ∀ {s s' a}, Inv s → ok s a → step s a = .done s' → Inv s')
    (h : Reach step ok s₀ s) : Inv s := by
  induction h with
  | start => exact h0
  | next _ hok hdone ih => exact hstep ih hok hdone

/-- The state after a list of actions. -/
def runActions (step : σ → α → Outcome σ) : σ → List α → Outcome σ
  | s, [] => .done s
  | s, a :: as => step s a >>= fun s' => runActions step s' as

/-- Each action of the list satisfies the condition where it is taken. -/
def RunOk (step : σ → α → Outcome σ) (ok : σ → α → Prop) : σ → List α → Prop
  | _, [] => True
  | s, a :: as => ok s a ∧ ∀ s', step s a = .done s' → RunOk step ok s' as

/-- Where the condition can be tested, so can a whole run be. -/
instance RunOk.decidable {step : σ → α → Outcome σ} {ok : σ → α → Prop}
    [∀ s a, Decidable (ok s a)] : ∀ (as : List α) (s : σ), Decidable (RunOk step ok s as)
  | [], _ => .isTrue trivial
  | a :: as, s =>
    match h : step s a with
    | .done t =>
      have : Decidable (RunOk step ok t as) := RunOk.decidable as t
      decidable_of_iff (ok s a ∧ RunOk step ok t as)
        ⟨fun hok => ⟨hok.1, fun s' hs' => by cases h.symm.trans hs'; exact hok.2⟩, fun hok => ⟨hok.1, hok.2 t h⟩⟩
    | .overrun => decidable_of_iff (ok s a) ⟨fun hok => ⟨hok, fun s' hs' => by cases h.symm.trans hs'⟩, And.left⟩
    | .hangs => decidable_of_iff (ok s a) ⟨fun hok => ⟨hok, fun s' hs' => by cases h.symm.trans hs'⟩, And.left⟩

/-- What such a list leads to is reachable. -/
theorem reach_runActions {step : σ → α → Outcome σ} {ok : σ → α → Prop} {s₀ : σ} :
    ∀ {as : List α} {s s' : σ}, Reach step ok s₀ s → RunOk step ok s as →
      runActions step s as = .done s' → Reach step ok s₀ s' := by
  intro as
  induction as with
  | nil =>
      intro s s' h _ hrun
      cases hrun
      exact h
  | cons a as ih =>
      intro s s' h hok hrun
      obtain ⟨t, ht, hrest⟩ := Outcome.bind_eq_done.mp hrun
      exact ih (h.next hok.1 ht) (hok.2 t ht) hrest

theorem runActions_append (step : σ → α → Outcome σ) : ∀ (as bs : List α) (s : σ),
    runActions step s (as ++ bs) = runActions step s as >>= fun s' => runActions step s' bs := by
  intro as
  induction as with
  | nil => intro bs s; rfl
  | cons a as ih =>
      intro bs s
      show (step s a >>= fun s' => runActions step s' (as ++ bs)) = _
      cases h : step s a with
      | overrun => simp [runActions, h]
      | hangs => simp [runActions, h]
      | done t => simp [runActions, h, ih]

/-- A list of actions that satisfy the condition in whatever state. -/
theorem RunOk.of_all {step : σ → α → Outcome σ} {ok : σ → α → Prop} :
    ∀ {as : List α} {s : σ}, (∀ a ∈ as, ∀ t, ok t a) → RunOk step ok s as := by
  intro as
  induction as with
  | nil => intro s _; exact trivial
  | cons a as ih =>
      intro s h
      exact ⟨h a (List.mem_cons_self ..) s,
        fun _ _ => ih fun b hb => h b (List.mem_cons_of_mem a hb)⟩

theorem RunOk.append {step : σ → α → Outcome σ} {ok : σ → α → Prop} {bs : List α} :
    ∀ {as : List α} {s : σ}, RunOk step ok s as →
      (∀ s', runActions step s as = .done s' → RunOk step ok s' bs) →
      RunOk step ok s (as ++ bs) := by
  intro as
  induction as with
  | nil => intro s _ h; exact h s rfl
  | cons a as ih =>
      intro s hok h
      refine ⟨hok.1, fun t ht => ih (hok.2 t ht) fun s' hrun => h s' ?_⟩
      show (step s a >>= fun t => runActions step t as) = _
      rw [ht]
      exact hrun

theorem RunOk.mono {step : σ → α → Outcome σ} {ok ok' : σ → α → Prop} (h : ∀ s a, ok s a → ok' s a) :
    ∀ {as : List α} {s : σ}, RunOk step ok s as → RunOk step ok' s as := by
  intro as
  induction as with
  | nil => intro s _; exact trivial
  | cons a as ih => intro s hok; exact ⟨h s a hok.1, fun t ht => ih (hok.2 t ht)⟩

/-- A run that satisfies the condition does so in its first part, and from there on. -/
theorem RunOk.split {step : σ → α → Outcome σ} {ok : σ → α → Prop} {bs : List α} :
    ∀ {as : List α} {s : σ}, RunOk step ok s (as ++ bs) → RunOk step ok s as ∧
      ∀ s', runActions step s as = .done s' → RunOk step ok s' bs := by
  intro as
  induction as with
  | nil =>
      intro s h
      refine ⟨trivial, fun s' hrun => ?_⟩
      cases hrun
      exact h
  | cons a as ih =>
      intro s h
      refine ⟨⟨h.1, fun t ht => (ih (h.2 t ht)).1⟩, fun s' hrun => ?_⟩
      obtain ⟨t, ht, hrest⟩ := Outcome.bind_eq_done.mp hrun
      exact (ih (h.2 t ht)).2 s' hrest

/-- What `f` shows of the state a run ends in. -/
def Outcome.view {β : Type} (o : Outcome σ) (f : σ → β) : Option β :=
  match o with
  | .done s => some (f s)
  | .overrun => none
  | .hangs => none

theorem Outcome.of_view {β : Type} {o : Outcome σ} {f : σ → β} {b : β}
    (h : o.view f = some b) : ∃ s, o = .done s ∧ f s = b := by
  cases o with
  | overrun => cases h
  | hangs => cases h
  | done s => exact ⟨s, rfl, Option.some.inj h⟩

theorem Outcome.view_done {β : Type} {o : Outcome σ} {f : σ → β} {b : β} {s : σ}
    (ho : o = .done s) (h : o.view f = some b) : f s = b := by
  rw [ho] at h
  exact Option.some.inj h

/-- It leaves its buffers. -/
def Outcome.leaves : Outcome σ → Bool
  | .overrun => true
  | _ => false

theorem Outcome.leaves_iff {o : Outcome σ} : o.leaves = true ↔ o = .overrun := by
  cases o with
  | overrun => exact ⟨fun _ => rfl, fun _ => rfl⟩
  | hangs => exact ⟨fun h => (nomatch h), fun h => (nomatch h)⟩
  | done s => exact ⟨fun h => (nomatch h), fun h => (nomatch h)⟩
