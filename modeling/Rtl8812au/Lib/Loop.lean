import Rtl8812au.Lib.Mem

/-!
# Loops that need not end

A loop is what one turn makes of its state: it stops with a result, or goes on, or leaves its buffers, or hangs.
A run takes a number of turns that is given to it; the loop ends with a result when some number of
turns is enough.
-/

variable {σ β : Type}

/-- What one turn comes to. -/
inductive Turn (σ β : Type) where
  | stop (b : β)
  | next (s : σ)

namespace Loop

/-- At most `n` turns: `none` if they are not enough. -/
def run (body : σ → Outcome (Turn σ β)) : Nat → σ → Option (Outcome β)
  | 0, _ => none
  | n + 1, s =>
    match body s with
    | .overrun => some .overrun
    | .hangs => some .hangs
    | .done (.stop b) => some (.done b)
    | .done (.next s') => run body n s'

/-- The states that turns lead to. -/
inductive Visits (body : σ → Outcome (Turn σ β)) (s₀ : σ) : σ → Prop where
  | start : Visits body s₀ s₀
  | turn {s s' : σ} (h : Visits body s₀ s) (hb : body s = .done (.next s')) : Visits body s₀ s'

/-- The loop ends with `b`. -/
def Ends (body : σ → Outcome (Turn σ β)) (s : σ) (b : β) : Prop := ∃ n, run body n s = some (.done b)

section

variable {body : σ → Outcome (Turn σ β)} {s s' : σ} {b b' : β}

theorem ends_stop (h : body s = .done (.stop b)) : Ends body s b' ↔ b' = b := by
  constructor
  · rintro ⟨n, hn⟩
    cases n with
    | zero => cases hn
    | succ n =>
        rw [run, h] at hn
        cases hn
        rfl
  · rintro rfl
    exact ⟨1, by rw [run, h]⟩

theorem ends_next (h : body s = .done (.next s')) : Ends body s b ↔ Ends body s' b := by
  constructor
  · rintro ⟨n, hn⟩
    cases n with
    | zero => cases hn
    | succ n =>
        rw [run, h] at hn
        exact ⟨n, hn⟩
  · rintro ⟨n, hn⟩
    exact ⟨n + 1, by rw [run, h]; exact hn⟩

theorem not_ends_overrun (h : body s = .overrun) : ¬ Ends body s b := by
  rintro ⟨n, hn⟩
  cases n with
  | zero => cases hn
  | succ n =>
      rw [run, h] at hn
      cases hn

theorem not_ends_hangs (h : body s = .hangs) : ¬ Ends body s b := by
  rintro ⟨n, hn⟩
  cases n with
  | zero => cases hn
  | succ n =>
      rw [run, h] at hn
      cases hn

/-- What holds where the loop stops and is handed back by every turn holds where it starts. -/
theorem Ends.induct {P : σ → Prop} (h : Ends body s b) (hstop : ∀ s, body s = .done (.stop b) → P s)
    (hnext : ∀ s s', body s = .done (.next s') → Ends body s' b → P s' → P s) : P s := by
  obtain ⟨n, hn⟩ := h
  induction n generalizing s with
  | zero => cases hn
  | succ n ih =>
      rw [run] at hn
      cases hb : body s with
      | overrun =>
          rw [hb] at hn
          cases hn
      | hangs =>
          rw [hb] at hn
          cases hn
      | done t =>
          rw [hb] at hn
          cases t with
          | stop b' =>
              cases hn
              exact hstop s hb
          | next s' => exact hnext s s' hb ⟨n, hn⟩ (ih hn)

/-- The result is the only one. -/
theorem Ends.unique (h : Ends body s b) (h' : Ends body s b') : b = b' := by
  refine h.induct (P := fun s => Ends body s b' → b = b') ?_ ?_ h'
  · intro s hs he
    exact ((ends_stop hs).mp he).symm
  · intro s s' hs _ ih he
    exact ih ((ends_next hs).mp he)

/-- **A measure that falls with every turn.** The loop ends, with a result that satisfies `Q`. -/
theorem ends_of_measure {Q : β → Prop} (Inv : σ → Prop) (μ : σ → Nat)
    (h : ∀ s, Inv s → (∃ b, body s = .done (.stop b) ∧ Q b)
      ∨ ∃ s', body s = .done (.next s') ∧ Inv s' ∧ μ s' < μ s) (hs : Inv s) :
    ∃ b, Ends body s b ∧ Q b := by
  suffices hall : ∀ n s, μ s < n → Inv s → ∃ b, Ends body s b ∧ Q b from
    hall (μ s + 1) s (Nat.lt_succ_self _) hs
  intro n
  induction n with
  | zero => intro s hlt; exact absurd hlt (Nat.not_lt_zero _)
  | succ n ih =>
      intro s hlt hinv
      rcases h s hinv with ⟨b, hb, hq⟩ | ⟨s', hs', hinv', hless⟩
      · exact ⟨b, (ends_stop hb).mpr rfl, hq⟩
      · obtain ⟨b, hb, hq⟩ := ih s' (Nat.lt_of_lt_of_le hless (Nat.le_of_lt_succ hlt)) hinv'
        exact ⟨b, (ends_next hs').mpr hb, hq⟩

/-- **States from which every turn goes on among themselves.** The loop does not end. -/
theorem not_ends_of_closed (S : σ → Prop) (h : ∀ s, S s → ∃ s', body s = .done (.next s') ∧ S s')
    (hs : S s) : ¬ Ends body s b := by
  intro he
  refine he.induct (P := fun s => S s → False) ?_ ?_ hs
  · intro s hb hS
    obtain ⟨s', hs', _⟩ := h s hS
    rw [hb] at hs'
    cases hs'
  · intro s s' hb _ ih hS
    obtain ⟨t, ht, hSt⟩ := h s hS
    rw [hb] at ht
    cases ht
    exact ih hSt

end

end Loop
