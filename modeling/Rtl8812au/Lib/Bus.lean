import Mathlib.Data.List.Basic

/-!
# Commands on a bus

A program of masked writes, polls and waits, run on a device behind a bus. The registers of the device may
change by themselves. What a program leaves is said by a big-step relation that counts the polls, with rules
for its parts, and, for the bits that keep what was written to them, by the writes alone.
-/

/-- A command. -/
inductive BusCmd (α : Type) where
  /-- The bits of the mask become those of the value. -/
  | write (a : α) (mask value : UInt8)
  /-- It is read until the bits of the mask are those of the value. -/
  | poll (a : α) (mask value : UInt8)
  | wait (us : Nat)
  deriving DecidableEq

/-- A device: what a read gives and what is left by it, by a write and by time. -/
structure Bus (α δ : Type) where
  read : δ → α → UInt8 × δ
  write : δ → α → UInt8 → δ
  wait : δ → Nat → δ

/-- `old` with the bits of the mask from `value`. -/
def maskedByte (old mask value : UInt8) : UInt8 := old &&& ~~~mask ||| value &&& mask

namespace Bus

variable {α δ : Type} (bus : Bus α δ)

/-- A register is read, changed and written back. -/
def writeMasked (d : δ) (a : α) (mask value : UInt8) : δ :=
  bus.write (bus.read d a).2 a (maskedByte (bus.read d a).1 mask value)

/-- A poll finds what it waits for. -/
def Hits (d : δ) (a : α) (mask value : UInt8) : Prop := (bus.read d a).1 &&& mask = value &&& mask

/-! ## Runs -/

/-- A program runs from one state of the device to another, in so many polls; after a poll in vain there is a
pause. -/
inductive Runs (pause : Nat) : List (BusCmd α) → δ → Nat → δ → Prop where
  | nil {d : δ} : Runs pause [] d 0 d
  | write {a : α} {mask value : UInt8} {cs : List (BusCmd α)} {d d' : δ} {n : Nat} :
      Runs pause cs (bus.writeMasked d a mask value) n d' → Runs pause (.write a mask value :: cs) d n d'
  | hit {a : α} {mask value : UInt8} {cs : List (BusCmd α)} {d d' : δ} {n : Nat} :
      bus.Hits d a mask value → Runs pause cs (bus.read d a).2 n d' →
      Runs pause (.poll a mask value :: cs) d (n + 1) d'
  | miss {a : α} {mask value : UInt8} {cs : List (BusCmd α)} {d d' : δ} {n : Nat} :
      ¬ bus.Hits d a mask value → Runs pause (.poll a mask value :: cs) (bus.wait (bus.read d a).2 pause) n d' →
      Runs pause (.poll a mask value :: cs) d (n + 1) d'
  | wait {us : Nat} {cs : List (BusCmd α)} {d d' : δ} {n : Nat} :
      Runs pause cs (bus.wait d us) n d' → Runs pause (.wait us :: cs) d n d'

variable {bus} {pause : Nat} {cs cs' : List (BusCmd α)} {d d' d'' : δ} {n m : Nat}

/-- A run of two programs is a run of one after the other. -/
theorem Runs.split {all : List (BusCmd α)} (h : bus.Runs pause all d n d'') :
    ∀ {cs cs' : List (BusCmd α)}, all = cs ++ cs' →
      ∃ n' m d', n = n' + m ∧ bus.Runs pause cs d n' d' ∧ bus.Runs pause cs' d' m d'' := by
  induction h with
  -- where the first program is over, the run is that of the second
  | nil =>
      intro cs cs' hall
      obtain ⟨rfl, rfl⟩ := List.append_eq_nil_iff.mp hall.symm
      exact ⟨0, 0, _, rfl, .nil, .nil⟩
  | @write a mask value rest d d'' n hrun ih =>
      intro cs cs' hall
      cases cs with
      | nil =>
          obtain rfl : _ = cs' := hall
          exact ⟨0, n, d, (Nat.zero_add n).symm, .nil, .write hrun⟩
      | cons c cs =>
          obtain ⟨rfl, hrest⟩ := List.cons.inj hall
          obtain ⟨n', m, d', hn, h1, h2⟩ := ih hrest
          exact ⟨n', m, d', hn, .write h1, h2⟩
  | @hit a mask value rest d d'' n hh hrun ih =>
      intro cs cs' hall
      cases cs with
      | nil =>
          obtain rfl : _ = cs' := hall
          exact ⟨0, n + 1, d, (Nat.zero_add _).symm, .nil, .hit hh hrun⟩
      | cons c cs =>
          obtain ⟨rfl, hrest⟩ := List.cons.inj hall
          obtain ⟨n', m, d', hn, h1, h2⟩ := ih hrest
          exact ⟨n' + 1, m, d', by omega, .hit hh h1, h2⟩
  -- a poll that is not answered stays in its program
  | @miss a mask value rest d d'' n hm hrun ih =>
      intro cs cs' hall
      cases cs with
      | nil =>
          obtain rfl : _ = cs' := hall
          exact ⟨0, n + 1, d, (Nat.zero_add _).symm, .nil, .miss hm hrun⟩
      | cons c cs =>
          obtain ⟨n', m, d', hn, h1, h2⟩ := ih hall
          obtain ⟨rfl, -⟩ := List.cons.inj hall
          exact ⟨n' + 1, m, d', by omega, .miss hm h1, h2⟩
  | @wait us rest d d'' n hrun ih =>
      intro cs cs' hall
      cases cs with
      | nil =>
          obtain rfl : _ = cs' := hall
          exact ⟨0, n, d, (Nat.zero_add n).symm, .nil, .wait hrun⟩
      | cons c cs =>
          obtain ⟨rfl, hrest⟩ := List.cons.inj hall
          obtain ⟨n', m, d', hn, h1, h2⟩ := ih hrest
          exact ⟨n', m, d', hn, .wait h1, h2⟩

/-! ## Assertions -/

/-- What holds after every run of a program, if `P` held before. -/
def Triple (bus : Bus α δ) (pause : Nat) (P : δ → Prop) (cs : List (BusCmd α)) (Q : δ → Prop) : Prop :=
  ∀ d n d', P d → bus.Runs pause cs d n d' → Q d'

variable {P Q R : δ → Prop} {a : α} {mask value : UInt8}

theorem Triple.append (h : Triple bus pause P cs Q) (h' : Triple bus pause Q cs' R) :
    Triple bus pause P (cs ++ cs') R := by
  intro d n d'' hP hrun
  obtain ⟨n, m, d', -, hrun, hrun'⟩ := hrun.split rfl
  exact h' _ _ _ (h _ _ _ hP hrun) hrun'

/-- **A poll** has an assertion of its own that the tries in vain keep. -/
theorem Triple.poll (h : Triple bus pause Q cs R)
    (hmiss : ∀ d, P d → ¬ bus.Hits d a mask value → P (bus.wait (bus.read d a).2 pause))
    (hhit : ∀ d, P d → bus.Hits d a mask value → Q (bus.read d a).2) :
    Triple bus pause P (.poll a mask value :: cs) R := by
  intro d n d' hP hrun
  generalize hcs : BusCmd.poll a mask value :: cs = all at hrun
  induction hrun with
  | nil => cases hcs
  | write _ _ => cases hcs
  | hit hh hrun _ =>
      cases hcs
      exact h _ _ _ (hhit _ hP hh) hrun
  | miss hm _ ih =>
      cases hcs
      exact ih (hmiss _ hP hm) rfl
  | wait _ _ => cases hcs

/-- What a device does not lose again. -/
structure Sticky (bus : Bus α δ) (P : δ → Prop) : Prop where
  read : ∀ d a, P d → P (bus.read d a).2
  write : ∀ d a x, P d → P (bus.write d a x)
  wait : ∀ d us, P d → P (bus.wait d us)

theorem Triple.sticky (h : bus.Sticky P) : Triple bus pause P cs P := by
  intro d n d' hP hrun
  induction hrun with
  | nil => exact hP
  | write _ ih => exact ih (h.write _ _ _ (h.read _ _ hP))
  | hit _ _ ih => exact ih (h.read _ _ hP)
  | miss _ _ ih => exact ih (h.wait _ _ (h.read _ _ hP))
  | wait _ ih => exact ih (h.wait _ _ hP)

/-- **What a poll has found** and is not lost again holds at the end. -/
theorem Triple.found (h : bus.Sticky Q) (hfound : ∀ d, bus.Hits d a mask value → Q (bus.read d a).2)
    (hmem : .poll a mask value ∈ cs) : Triple bus pause (fun _ => True) cs Q := by
  obtain ⟨pre, post, rfl⟩ := List.append_of_mem hmem
  refine Triple.append (Q := fun _ => True) (fun _ _ _ _ _ => trivial) ?_
  exact Triple.poll (.sticky h) (fun _ _ _ => trivial) fun d _ hh => hfound d hh

/-! ## Bits that are kept -/

/-- The bits `stable` of every register keep what was written, whatever the other bits do. -/
structure Keeps (bus : Bus α δ) (val : δ → α → UInt8) (stable : α → UInt8) : Prop where
  read : ∀ d a, (bus.read d a).1 &&& stable a = val d a &&& stable a
  read_keeps : ∀ d a b, val (bus.read d a).2 b &&& stable b = val d b &&& stable b
  write : ∀ d a x, val (bus.write d a x) a &&& stable a = x &&& stable a
  write_keeps : ∀ d a x b, b ≠ a → val (bus.write d a x) b &&& stable b = val d b &&& stable b
  wait_keeps : ∀ d us b, val (bus.wait d us) b &&& stable b = val d b &&& stable b

variable [DecidableEq α]

/-- What the writes of a program make of the registers. -/
def applyWrites (f : α → UInt8) : List (BusCmd α) → α → UInt8
  | [] => f
  | .write a mask value :: cs =>
    applyWrites (fun b => if b = a then maskedByte (f a) mask value else f b) cs
  | .poll .. :: cs => applyWrites f cs
  | .wait _ :: cs => applyWrites f cs

/-- Two bytes have the same bits of a mask. -/
theorem maskedByte_and {x y s mask value : UInt8} (h : x &&& s = y &&& s) :
    maskedByte x mask value &&& s = maskedByte y mask value &&& s := by
  have hdist : ∀ p q r : UInt8, (p ||| q) &&& r = p &&& r ||| q &&& r := fun p q r =>
    UInt8.toBitVec_inj.mp BitVec.and_or_distrib_right
  have hswap : ∀ p q r : UInt8, p &&& q &&& r = p &&& r &&& q := by
    intro p q r
    rw [UInt8.and_assoc, UInt8.and_comm q r, ← UInt8.and_assoc]
  unfold maskedByte
  rw [hdist, hdist, hswap x, hswap y, h]

theorem applyWrites_congr {stable : α → UInt8} (cs : List (BusCmd α)) {f g : α → UInt8}
    (h : ∀ b, f b &&& stable b = g b &&& stable b) (b : α) :
    applyWrites f cs b &&& stable b = applyWrites g cs b &&& stable b := by
  induction cs generalizing f g with
  | nil => exact h b
  | cons c cs ih =>
      cases c with
      | write a mask value =>
          refine ih fun b => ?_
          by_cases hb : b = a
          · rw [if_pos hb, if_pos hb, hb]
            exact maskedByte_and (h a)
          · rw [if_neg hb, if_neg hb]
            exact h b
      | poll a mask value => exact ih h
      | wait us => exact ih h

/-- **The bits that are kept are what the writes make of them**, in every run. -/
theorem Runs.val {val : δ → α → UInt8} {stable : α → UInt8} (hk : bus.Keeps val stable)
    (h : bus.Runs pause cs d n d') (b : α) :
    val d' b &&& stable b = applyWrites (val d) cs b &&& stable b := by
  induction h with
  | nil => rfl
  | @write a mask value cs d d' n _ ih =>
      rw [ih]
      refine applyWrites_congr cs (fun b => ?_) b
      unfold writeMasked
      by_cases hb : b = a
      · rw [if_pos hb, hb, hk.write]
        exact maskedByte_and (hk.read d a)
      · rw [if_neg hb, hk.write_keeps _ _ _ _ hb, hk.read_keeps]
  | @hit a mask value cs d d' n _ _ ih =>
      rw [ih]
      exact applyWrites_congr cs (fun b => hk.read_keeps d a b) b
  | @miss a mask value cs d d' n _ _ ih =>
      rw [ih]
      refine applyWrites_congr cs (fun b => ?_) b
      rw [hk.wait_keeps, hk.read_keeps]
  | @wait us cs d d' n _ ih =>
      rw [ih]
      exact applyWrites_congr cs (fun b => hk.wait_keeps d us b) b

end Bus
