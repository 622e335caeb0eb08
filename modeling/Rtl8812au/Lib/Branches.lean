import Mathlib.Data.List.Basic

/-!
# Branches in a flat list

A program is a list of items and of branches, of which the first whose condition holds is taken. Written flat,
a mark stands before each branch, before the part for no condition and behind the last one, and a machine with
two flags reads the marks: one flag says whether items count, the other whether a branch was taken.
-/

namespace Branches

variable {κ ι : Type}

/-- A part of a program. -/
inductive Piece (κ ι : Type) where
  | item (x : ι)
  /-- The branches with their conditions, and what stands for none of them. -/
  | branches (bs : List (κ × List ι)) (otherwise : Option (List ι))

/-- One entry of the flat list. -/
inductive Entry (κ ι : Type) where
  | item (x : ι)
  | cond (k : κ)
  | els
  | endif
  | skip
  deriving DecidableEq

/-! ## What is meant -/

/-- The first branch whose condition holds, or what stands for none. -/
def chosen (holds : κ → Bool) (bs : List (κ × List ι)) (otherwise : Option (List ι)) : List ι :=
  match bs with
  | [] => otherwise.getD []
  | (k, xs) :: bs => if holds k then xs else chosen holds bs otherwise

/-- The items of a program that count. -/
def Piece.denote (holds : κ → Bool) : Piece κ ι → List ι
  | .item x => [x]
  | .branches bs otherwise => chosen holds bs otherwise

def denote (holds : κ → Bool) (ps : List (Piece κ ι)) : List ι := ps.flatMap (Piece.denote holds)

/-! ## How it is written -/

def Piece.flat : Piece κ ι → List (Entry κ ι)
  | .item x => [.item x]
  | .branches bs otherwise =>
    bs.flatMap (fun p => .cond p.1 :: p.2.map .item)
      ++ (match otherwise with
        | none => []
        | some xs => .els :: xs.map .item)
      ++ [.endif]

def flat (ps : List (Piece κ ι)) : List (Entry κ ι) := ps.flatMap Piece.flat

def Entry.isSkip : Entry κ ι → Bool
  | .skip => true
  | _ => false

/-- A list is a program's if it is so without the entries that say nothing. -/
def Writes (es : List (Entry κ ι)) (ps : List (Piece κ ι)) : Prop := es.filter (!·.isSkip) = flat ps

/-! ## How it is read -/

structure Flags where
  matched : Bool := true
  skipped : Bool := false
  deriving DecidableEq

/-- One entry: the flags after it, and the item if it counts. -/
def Entry.read (holds : κ → Bool) (fl : Flags) : Entry κ ι → Flags × List ι
  | .item x => (fl, if fl.matched then [x] else [])
  | .cond k =>
    if fl.skipped then ({ fl with matched := false }, [])
    else if holds k then (⟨true, true⟩, [])
    else (⟨false, false⟩, [])
  | .els => ({ fl with matched := !fl.skipped }, [])
  | .endif => (⟨true, false⟩, [])
  | .skip => (fl, [])

/-- The whole list. -/
def readAll (holds : κ → Bool) : Flags → List (Entry κ ι) → Flags × List ι
  | fl, [] => (fl, [])
  | fl, e :: es =>
    let r := e.read holds fl
    let rest := readAll holds r.1 es
    (rest.1, r.2 ++ rest.2)

variable {holds : κ → Bool} {fl : Flags}

theorem readAll_append (es es' : List (Entry κ ι)) :
    readAll holds fl (es ++ es') =
      ((readAll holds (readAll holds fl es).1 es').1,
        (readAll holds fl es).2 ++ (readAll holds (readAll holds fl es).1 es').2) := by
  induction es generalizing fl with
  | nil => rfl
  | cons e es ih =>
      rw [List.cons_append, readAll, readAll]
      dsimp only
      rw [ih, List.append_assoc]

/-- The entries that say nothing. -/
theorem readAll_filter (es : List (Entry κ ι)) :
    readAll holds fl (es.filter (!·.isSkip)) = readAll holds fl es := by
  induction es generalizing fl with
  | nil => rfl
  | cons e es ih =>
      cases e with
      | skip => exact ih
      | item x => exact congrArg (fun r => (r.1, (Entry.read holds fl (.item x)).2 ++ r.2)) ih
      | cond k => exact congrArg (fun r => (r.1, (Entry.read holds fl (.cond k : Entry κ ι)).2 ++ r.2)) ih
      | els => exact congrArg (fun r => (r.1, (Entry.read holds fl (.els : Entry κ ι)).2 ++ r.2)) ih
      | endif => exact congrArg (fun r => (r.1, (Entry.read holds fl (.endif : Entry κ ι)).2 ++ r.2)) ih

/-- Items alone leave the flags. -/
theorem readAll_items (xs : List ι) :
    readAll holds fl (xs.map .item : List (Entry κ ι)) = (fl, if fl.matched then xs else []) := by
  induction xs with
  | nil => simp [readAll]
  | cons x xs ih =>
      rw [List.map_cons, readAll]
      dsimp only [Entry.read]
      rw [ih]
      cases fl.matched <;> rfl

/-! ## One chain -/

/-- Once a branch is taken, no other is. -/
theorem readAll_taken (b : Bool) (bs : List (κ × List ι)) :
    ∃ b', readAll holds ⟨b, true⟩ (bs.flatMap fun p => (.cond p.1 :: p.2.map .item : List (Entry κ ι)))
      = (⟨b', true⟩, []) := by
  induction bs generalizing b with
  | nil => exact ⟨b, rfl⟩
  | cons p bs ih =>
      obtain ⟨b', hb'⟩ := ih false
      refine ⟨b', ?_⟩
      rw [List.flatMap_cons, List.cons_append, readAll, readAll_append, readAll_items]
      simp [Entry.read, hb']

/-- **A chain takes its first branch that holds**, and says whether it took one. -/
theorem readAll_branches (b : Bool) (bs : List (κ × List ι)) :
    ∃ b' taken, readAll holds ⟨b, false⟩
        (bs.flatMap fun p => (.cond p.1 :: p.2.map .item : List (Entry κ ι)))
        = (⟨b', taken⟩, if taken then chosen holds bs none else [])
      ∧ (taken = false → ∀ p ∈ bs, holds p.1 = false) ∧ (taken = true → ∃ p ∈ bs, holds p.1 = true) := by
  induction bs generalizing b with
  | nil => exact ⟨b, false, rfl, fun _ p hp => absurd hp List.not_mem_nil, nofun⟩
  | cons p bs ih =>
      obtain ⟨k, xs⟩ := p
      rw [List.flatMap_cons, List.cons_append, readAll, readAll_append, readAll_items]
      cases hk : holds k with
      | true =>
          obtain ⟨b', hb'⟩ := @readAll_taken κ ι holds true bs
          refine ⟨b', true, ?_, nofun, fun _ => ⟨(k, xs), List.mem_cons_self, hk⟩⟩
          simp [Entry.read, hk, hb', chosen]
      | false =>
          obtain ⟨b', taken, hread, hnone, hsome⟩ := ih false
          refine ⟨b', taken, ?_, fun ht => ?_, fun ht => ?_⟩
          · simp [Entry.read, hk, hread, chosen]
          · intro q hq
            rcases List.mem_cons.mp hq with rfl | hq
            · exact hk
            · exact hnone ht q hq
          · obtain ⟨q, hq, hholds⟩ := hsome ht
            exact ⟨q, List.mem_cons_of_mem _ hq, hholds⟩

theorem chosen_of_none {bs : List (κ × List ι)} (h : ∀ p ∈ bs, holds p.1 = false)
    (otherwise : Option (List ι)) : chosen holds bs otherwise = otherwise.getD [] := by
  induction bs with
  | nil => rfl
  | cons p bs ih =>
      rw [chosen, if_neg (by rw [h p List.mem_cons_self]; exact Bool.false_ne_true)]
      exact ih fun q hq => h q (List.mem_cons_of_mem _ hq)

theorem chosen_of_some {bs : List (κ × List ι)} (h : ∃ p ∈ bs, holds p.1 = true)
    (o o' : Option (List ι)) : chosen holds bs o = chosen holds bs o' := by
  induction bs with
  | nil =>
      obtain ⟨p, hp, -⟩ := h
      cases hp
  | cons q bs ih =>
      rw [chosen, chosen]
      by_cases hq : holds q.1 = true
      · rw [if_pos hq, if_pos hq]
      · rw [if_neg hq, if_neg hq]
        obtain ⟨p, hp, hpk⟩ := h
        rcases List.mem_cons.mp hp with rfl | hp
        · exact absurd hpk hq
        · exact ih ⟨p, hp, hpk⟩

/-- **A piece is read as it is meant**, and leaves the flags as they were at the start. -/
theorem readAll_piece (p : Piece κ ι) : readAll holds {} p.flat = ({}, p.denote holds) := by
  cases p with
  | item x => rfl
  | branches bs otherwise =>
      obtain ⟨b', taken, hread, hnone, hsome⟩ := @readAll_branches κ ι holds true bs
      show _ = (({} : Flags), chosen holds bs otherwise)
      unfold Piece.flat
      rw [readAll_append, readAll_append, hread]
      cases taken with
      | true =>
          rw [chosen_of_some (hsome rfl) otherwise none]
          cases otherwise with
          | none => simp [readAll, Entry.read]
          | some xs => simp [readAll, readAll_items, Entry.read]
      | false =>
          rw [chosen_of_none (hnone rfl) otherwise]
          cases otherwise with
          | none => simp [readAll, Entry.read]
          | some xs => simp [readAll, readAll_items, Entry.read]

theorem readAll_flat (ps : List (Piece κ ι)) : readAll holds {} (flat ps) = ({}, denote holds ps) := by
  induction ps with
  | nil => rfl
  | cons p ps ih =>
      unfold flat denote at *
      rw [List.flatMap_cons, List.flatMap_cons, readAll_append, readAll_piece, ih]

/-- **What is written is read as it is meant.** -/
theorem readAll_writes {es : List (Entry κ ι)} {ps : List (Piece κ ι)} (h : Writes es ps) :
    readAll holds {} es = ({}, denote holds ps) := by
  rw [← readAll_filter, h, readAll_flat]

end Branches
