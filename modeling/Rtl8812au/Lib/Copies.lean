import Rtl8812au.Lib.Mem
import Mathlib.Algebra.Ring.Int.Defs
import Mathlib.Algebra.Ring.Nat
import Mathlib.Data.List.Basic
import Mathlib.Tactic.Common

/-!
# Copies into buffers

A computation that copies into buffers of fixed size is the list of its copies and its result. Behind
a copy that is too long nothing is known any more, so the list ends there, as it does where the
computation never comes to an end. Where it leaves its buffers in another way than by such a copy, this counts as
one that is too long.
-/

/-- `len` bytes go into a buffer of `cap` bytes. -/
structure Copy where
  cap : Nat
  len : Nat
  deriving Repr, DecidableEq

/-- The copies of a computation, and what it comes to, if it does. -/
structure Copies (α : Type) where
  copies : List Copy
  val : Option α

namespace Copies

variable {α β : Type}

instance : Monad Copies where
  pure a := ⟨[], some a⟩
  bind t f :=
    match t.val with
    | some a => ⟨t.copies ++ (f a).copies, (f a).val⟩
    | none => ⟨t.copies, none⟩

/-- One copy. -/
def copy (cap len : Nat) : Copies Unit := ⟨[⟨cap, len⟩], if len ≤ cap then some () else none⟩

/-- A part that copies nothing, and may not come to an end. -/
def ofOption (o : Option α) : Copies α := ⟨[], o⟩

/-- A part that copies bytes of its own, and gets `none` where that leaves its buffers: this counts as a copy that
does not fit. -/
def guarded (o : Option α) : Copies α := ⟨if o.isSome then [] else [⟨0, 1⟩], o⟩

/-- Every copy fits. -/
def Sound (t : Copies α) : Prop := ∀ c ∈ t.copies, c.len ≤ c.cap

instance (t : Copies α) : Decidable t.Sound := inferInstanceAs (Decidable (∀ c ∈ t.copies, c.len ≤ c.cap))

/-- Run as a part of something else: a copy that does not fit leaves its buffer. -/
def toOutcome (t : Copies α) : Outcome α :=
  if t.Sound then
    match t.val with
    | some a => .done a
    | none => .hangs
  else .overrun

@[simp] theorem sound_pure (a : α) : Sound (pure a : Copies α) := fun _ h => absurd h List.not_mem_nil

@[simp] theorem sound_ofOption (o : Option α) : Sound (ofOption o) := fun _ h =>
  absurd h List.not_mem_nil

@[simp] theorem sound_guarded (o : Option α) : Sound (guarded o) ↔ o ≠ none := by
  cases o with
  | none => exact ⟨fun h => absurd (h ⟨0, 1⟩ (List.mem_singleton.mpr rfl)) (by decide), fun h => absurd rfl h⟩
  | some a => exact ⟨fun _ => Option.some_ne_none a, fun _ _ h => absurd h List.not_mem_nil⟩

@[simp] theorem sound_copy (cap len : Nat) : Sound (copy cap len) ↔ len ≤ cap := by
  constructor
  · intro h
    exact h ⟨cap, len⟩ (List.mem_singleton.mpr rfl)
  · intro h c hc
    rw [List.mem_singleton.mp hc]
    exact h

/-- In a sequence the second part counts only where the first one comes to an end. -/
theorem sound_bind (t : Copies α) (f : α → Copies β) :
    Sound (t >>= f) ↔ Sound t ∧ ∀ a, t.val = some a → Sound (f a) := by
  obtain ⟨cs, o⟩ := t
  cases o with
  | none => exact ⟨fun h => ⟨h, fun _ ha => nomatch ha⟩, fun h => h.1⟩
  | some b =>
      show (∀ c ∈ cs ++ (f b).copies, c.len ≤ c.cap) ↔ _
      constructor
      · intro h
        refine ⟨fun c hc => h c (List.mem_append_left _ hc), ?_⟩
        intro a ha
        cases ha
        exact fun c hc => h c (List.mem_append_right _ hc)
      · intro h c hc
        rcases List.mem_append.mp hc with hc | hc
        · exact h.1 c hc
        · exact h.2 b rfl c hc

theorem val_bind (t : Copies α) (f : α → Copies β) : (t >>= f).val = t.val.bind fun a => (f a).val := by
  obtain ⟨cs, o⟩ := t
  cases o with
  | none => rfl
  | some b => rfl

@[simp] theorem val_pure (a : α) : (pure a : Copies α).val = some a := rfl

@[simp] theorem val_ofOption (o : Option α) : (ofOption o).val = o := rfl

@[simp] theorem val_guarded (o : Option α) : (guarded o).val = o := rfl

theorem val_copy {cap len : Nat} (h : len ≤ cap) : (copy cap len).val = some () := if_pos h

theorem toOutcome_overrun {t : Copies α} : t.toOutcome = .overrun ↔ ¬ t.Sound := by
  unfold toOutcome
  by_cases h : t.Sound
  · rw [if_pos h]
    cases t.val with
    | none => simp [h]
    | some a => simp [h]
  · rw [if_neg h]
    exact ⟨fun _ => h, fun _ => rfl⟩

/-- Every copy fits, and it comes to `a`. -/
structure Returns (t : Copies α) (a : α) : Prop where
  sound : t.Sound
  val : t.val = some a

theorem Returns.pure (a : α) : Returns (Pure.pure a) a := ⟨sound_pure a, rfl⟩

theorem Returns.copy {cap len : Nat} (h : len ≤ cap) : Returns (Copies.copy cap len) () :=
  ⟨(sound_copy cap len).mpr h, val_copy h⟩

theorem Returns.bind {t : Copies α} {f : α → Copies β} {a : α} {b : β} (h : Returns t a)
    (hf : Returns (f a) b) : Returns (t >>= f) b := by
  refine ⟨(sound_bind t f).mpr ⟨h.sound, fun a' ha' => ?_⟩, ?_⟩
  · cases h.val.symm.trans ha'
    exact hf.sound
  · rw [val_bind, h.val]
    exact hf.val

theorem toOutcome_done {t : Copies α} {a : α} : t.toOutcome = .done a ↔ Returns t a := by
  unfold toOutcome
  by_cases h : t.Sound
  · rw [if_pos h]
    cases hv : t.val with
    | none => exact ⟨fun hd => (nomatch hd), fun hr => (nomatch hr.val.symm.trans hv)⟩
    | some b => exact ⟨fun hd => ⟨h, by cases hd; exact hv⟩, fun hr => by cases hr.val.symm.trans hv; rfl⟩
  · rw [if_neg h]
    exact ⟨fun hd => (nomatch hd), fun hr => absurd hr.sound h⟩

end Copies
