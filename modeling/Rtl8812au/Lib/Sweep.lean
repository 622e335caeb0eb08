import Mathlib.Data.List.Basic
import Mathlib.Tactic.Common

/-!
# Sweeps

A loop goes through the places of a table, and a turn changes only what is at its own place. What a place
has in the end is then what its turn made of what it had in the beginning, however the turns are ordered.
-/

namespace Sweep

variable {σ κ ω : Type} {g : σ → κ → σ}

/-- What every turn keeps is kept. -/
theorem foldl_inv {I : σ → Prop} {ks : List κ} (hI : ∀ s, ∀ k ∈ ks, I s → I (g s k)) :
    ∀ {s : σ}, I s → I (ks.foldl g s) := by
  induction ks with
  | nil =>
      intro s hs
      exact hs
  | cons k ks ih =>
      intro s hs
      exact ih (fun s' k' hk' => hI s' k' (List.mem_cons_of_mem _ hk')) (hI s k List.mem_cons_self hs)

/-- What no turn changes is as before. -/
theorem foldl_frame (obs : σ → ω) {ks : List κ} (h : ∀ s, ∀ k ∈ ks, obs (g s k) = obs s) (s : σ) :
    obs (ks.foldl g s) = obs s :=
  foldl_inv (I := fun s' => obs s' = obs s) (fun s' k hk hs => (h s' k hk).trans hs) rfl

/-- **What a place has in the end comes from its own turn.** -/
theorem foldl_own (obs : σ → ω) {I : σ → Prop} {F : ω → ω} {ks : List κ} {k : κ}
    (hI : ∀ s, ∀ j ∈ ks, I s → I (g s j)) (hown : ∀ s, I s → obs (g s k) = F (obs s))
    (hother : ∀ s, ∀ j ∈ ks, j ≠ k → obs (g s j) = obs s) (hnd : ks.Nodup) (hk : k ∈ ks) {s : σ} (hs : I s) :
    obs (ks.foldl g s) = F (obs s) := by
  -- the turns in front of `k` and those behind it leave its place alone
  obtain ⟨as, bs, rfl⟩ := List.append_of_mem hk
  obtain ⟨-, hbs, hdisj⟩ := List.nodup_append.mp hnd
  have hka : k ∉ as := fun h => hdisj k h k List.mem_cons_self rfl
  have hkb : k ∉ bs := (List.nodup_cons.mp hbs).1
  have hfront : obs (as.foldl g s) = obs s :=
    foldl_frame obs (fun s' j hj => hother s' j (by simp [hj]) fun he => hka (he ▸ hj)) s
  have hback : ∀ t, obs (bs.foldl g t) = obs t :=
    foldl_frame obs fun s' j hj => hother s' j (by simp [hj]) fun he => hkb (he ▸ hj)
  have hinv : I (as.foldl g s) := foldl_inv (fun s' j hj => hI s' j (by simp [hj])) hs
  rw [List.foldl_append, List.foldl_cons, hback, hown _ hinv, hfront]

end Sweep
