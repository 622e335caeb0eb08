import Rtl8812au.Hal.CondTable

/-!
# A table means its branches

A register table is a program of pairs and branches written flat. The loop with its two flags writes the pairs
that this program means for the board: of every chain the first branch whose condition the board meets, or the
one for no condition, and nothing else, in the order of the table.
-/

namespace Rtl8812au

open Branches

/-! ## The words of a table -/

/-- What a pair of words is: the mark is taken off a condition. -/
def tableEntry (v1 v2 : UInt32) : Entry (UInt32 × UInt32) (UInt32 × UInt32) :=
  if v1 &&& 0xc0000000 ≠ 0 then
    if v1 &&& 0x80000000 ≠ 0 then
      if (v1 &&& 0x30000000) >>> 28 = condEndif then .endif
      else if (v1 &&& 0x30000000) >>> 28 = condElse then .els
      else .cond (v1 &&& 0x0fffffff, v2)
    else .skip
  else .item (v1, v2)

def tableEntries : List UInt32 → List (Entry (UInt32 × UInt32) (UInt32 × UInt32))
  | v1 :: v2 :: array => tableEntry v1 v2 :: tableEntries array
  | _ => []

/-! ## Masks -/

/-- Bits outside a mask do not come through it. -/
theorem and_mask_and {m x mask : UInt32} (h : mask &&& m = m) : x &&& mask &&& m = x &&& m := by
  rw [UInt32.and_assoc, h]

/-- Through two masks at once. -/
theorem and_or_eq_iff {x y m m' : UInt32} :
    x &&& (m ||| m') = y &&& (m ||| m') ↔ x &&& m = y &&& m ∧ x &&& m' = y &&& m' := by
  have hdist : ∀ z a b : UInt32, z &&& (a ||| b) = z &&& a ||| z &&& b := fun z a b =>
    UInt32.toBitVec_inj.mp BitVec.and_or_distrib_left
  have hbit : ∀ p q : Bool, ((p || q) && p) = p ∧ ((p || q) && q) = q := by decide
  have habs : ∀ a b : UInt32, (a ||| b) &&& a = a ∧ (a ||| b) &&& b = b := by
    intro a b
    refine ⟨?_, ?_⟩
    · refine UInt32.toBitVec_inj.mp (BitVec.eq_of_getLsbD_eq fun i _ => ?_)
      rw [UInt32.toBitVec_and, UInt32.toBitVec_or, BitVec.getLsbD_and, BitVec.getLsbD_or, (hbit _ _).1]
    · refine UInt32.toBitVec_inj.mp (BitVec.eq_of_getLsbD_eq fun i _ => ?_)
      rw [UInt32.toBitVec_and, UInt32.toBitVec_or, BitVec.getLsbD_and, BitVec.getLsbD_or, (hbit _ _).2]
  constructor
  · intro h
    constructor
    · rw [← (habs m m').1, ← UInt32.and_assoc, h, UInt32.and_assoc]
    · rw [← (habs m m').2, ← UInt32.and_assoc, h, UInt32.and_assoc]
  · rintro ⟨h, h'⟩
    rw [hdist, hdist, h, h']

namespace DmOdm

variable (d : DmOdm)

/-- **The mark of a condition does not matter.** -/
theorem checkPositive_mark (c1 c2 : UInt32) : d.checkPositive (c1 &&& 0x0fffffff) c2 = d.checkPositive c1 c2 := by
  have h1 : c1 &&& 0x0fffffff &&& 0x0000f000 = c1 &&& 0x0000f000 := and_mask_and (by decide)
  have h2 : c1 &&& 0x0fffffff &&& 0x0f000000 = c1 &&& 0x0f000000 := and_mask_and (by decide)
  have h3 : c1 &&& 0x0fffffff &&& 0x000f0fff = c1 &&& 0x000f0fff := and_mask_and (by decide)
  unfold checkPositive
  rw [h1, h2, h3]

/-- The four amplifiers: the bit that names one, and the byte of its type. -/
def amplifiers : List (UInt32 × UInt32) :=
  [(0x1, 0x000000ff), (0x2, 0x0000ff00), (0x4, 0x00ff0000), (0x8, 0xff000000)]

/-- What a condition asks of the board. -/
structure Meets (cond1 cond2 : UInt32) : Prop where
  package : cond1 &&& 0x0000f000 = 0 ∨ cond1 &&& 0x0000f000 = d.driver1 &&& 0x0000f000
  cut : cond1 &&& 0x0f000000 = 0 ∨ cond1 &&& 0x0f000000 = d.driver1 &&& 0x0f000000
  bits : cond1 &&& 0x000f0fff &&& (d.driver1 &&& 0x000f0fff) = cond1 &&& 0x000f0fff
  types : ∀ a ∈ amplifiers, cond1 &&& a.1 ≠ 0 → cond2 &&& a.2 = d.driver2 &&& a.2

theorem typeMask_eq_iff (c1 c2 d2 : UInt32) :
    c2 &&& typeMask c1 = d2 &&& typeMask c1 ↔ ∀ a ∈ amplifiers, c1 &&& a.1 ≠ 0 → c2 &&& a.2 = d2 &&& a.2 := by
  have hone : ∀ (p : Prop) [Decidable p] (m : UInt32),
      c2 &&& (if p then m else 0) = d2 &&& (if p then m else 0) ↔ (p → c2 &&& m = d2 &&& m) := by
    intro p _ m
    by_cases hp : p
    · simp [hp]
    · simp [hp]
  unfold typeMask
  rw [and_or_eq_iff, and_or_eq_iff, and_or_eq_iff, hone, hone, hone, hone]
  simp [amplifiers, and_assoc]

theorem typeMask_and (c1 : UInt32) : typeMask (c1 &&& 0x000f0fff) = typeMask c1 := by
  unfold typeMask
  rw [and_mask_and (by decide), and_mask_and (by decide), and_mask_and (by decide), and_mask_and (by decide)]

/-- A condition without a board type names no amplifier. -/
theorem names_no_amplifier {c1 : UInt32} (h : c1 &&& 0x000f0fff &&& 0x0f = 0) :
    ∀ a ∈ amplifiers, c1 &&& a.1 = 0 := by
  have hbits : ∀ a ∈ amplifiers, (0x0f : UInt32) &&& a.1 = a.1 := List.map_inj_left.mp rfl
  rw [and_mask_and (by decide)] at h
  intro a ha
  rw [← hbits a ha, ← UInt32.and_assoc, h, UInt32.zero_and]

/-- **`CheckPositive` asks just that.** -/
theorem checkPositive_iff {c1 c2 : UInt32} : d.checkPositive c1 c2 = true ↔ d.Meets c1 c2 := by
  unfold checkPositive
  dsimp only
  rw [typeMask_and]
  constructor
  · intro h
    by_cases hp : c1 &&& 0x0000f000 ≠ 0 ∧ c1 &&& 0x0000f000 ≠ d.driver1 &&& 0x0000f000
    · rw [if_pos hp] at h
      cases h
    · rw [if_neg hp] at h
      by_cases hc : c1 &&& 0x0f000000 ≠ 0 ∧ c1 &&& 0x0f000000 ≠ d.driver1 &&& 0x0f000000
      · rw [if_pos hc] at h
        cases h
      · rw [if_neg hc] at h
        by_cases hb : c1 &&& 0x000f0fff &&& (d.driver1 &&& 0x000f0fff) = c1 &&& 0x000f0fff
        · rw [if_pos hb] at h
          refine ⟨by tauto, by tauto, hb, fun a ha hne => ?_⟩
          by_cases hnone : c1 &&& 0x000f0fff &&& 0x0f = 0
          · exact absurd (names_no_amplifier hnone a ha) hne
          · rw [if_neg hnone] at h
            exact (typeMask_eq_iff c1 c2 d.driver2).mp (of_decide_eq_true h) a ha hne
        · rw [if_neg hb] at h
          cases h
  · rintro ⟨hp, hc, hb, ht⟩
    rw [if_neg (by tauto), if_neg (by tauto), if_pos hb]
    split
    · rfl
    · exact decide_eq_true ((typeMask_eq_iff c1 c2 d.driver2).mpr ht)

end DmOdm

/-! ## The loop -/

/-- What a condition of a table is for a board. -/
def boardHolds (d : DmOdm) (k : UInt32 × UInt32) : Bool := d.checkPositive k.1 k.2

variable {config : UInt32 → UInt32 → List HwAction} {d : DmOdm}

/-- The loop reads the entries as the machine with the two flags does. -/
theorem readAndConfigFrom_eq (array : List UInt32) (m s : Bool) :
    readAndConfigFrom config d m s array =
      (readAll (boardHolds d) ⟨m, s⟩ (tableEntries array)).2.flatMap fun p => config p.1 p.2 := by
  induction array using tableEntries.induct generalizing m s with
  | case1 v1 v2 array ih =>
      rw [readAndConfigFrom, tableEntries, readAll]
      dsimp only
      rw [List.flatMap_append]
      unfold tableEntry
      by_cases hmark : v1 &&& 0xc0000000 ≠ 0
      · rw [if_pos hmark, if_pos hmark]
        by_cases hpos : v1 &&& 0x80000000 ≠ 0
        · rw [if_pos hpos, if_pos hpos]
          by_cases hend : (v1 &&& 0x30000000) >>> 28 = condEndif
          · rw [if_pos hend, if_pos hend, ih]
            rfl
          · rw [if_neg hend, if_neg hend]
            by_cases hels : (v1 &&& 0x30000000) >>> 28 = condElse
            · rw [if_pos hels, if_pos hels, ih]
              cases s <;> rfl
            · rw [if_neg hels, if_neg hels]
              cases s with
              | true =>
                  rw [if_pos rfl, ih]
                  rfl
              | false =>
                  have hholds : boardHolds d (v1 &&& 0x0fffffff, v2) = d.checkPositive v1 v2 :=
                    d.checkPositive_mark v1 v2
                  rw [if_neg Bool.false_ne_true, ih, ih]
                  dsimp only [Entry.read]
                  rw [hholds, if_neg Bool.false_ne_true]
                  cases d.checkPositive v1 v2 <;> rfl
        · rw [if_neg hpos, if_neg hpos, ih]
          rfl
      · rw [if_neg hmark, if_neg hmark, ih]
        cases m <;> simp [Entry.read]
  | case2 array hnot =>
      cases array with
      | nil => rfl
      | cons v1 rest =>
          cases rest with
          | nil => rfl
          | cons v2 array => exact absurd rfl (hnot v1 v2 array)

/-- **A table that is a program's is written as the program means it**, whatever is done with a pair. -/
theorem readAndConfig_denotes {array : List UInt32} {ps : List (Piece (UInt32 × UInt32) (UInt32 × UInt32))}
    (h : Writes (tableEntries array) ps) :
    readAndConfig config d array = (denote (boardHolds d) ps).flatMap fun p => config p.1 p.2 := by
  unfold readAndConfig
  rw [readAndConfigFrom_eq, readAll_writes h]

/-! ## Writing a table -/

/-- The words of a table's pair do not look like a mark. -/
def PlainPair (p : UInt32 × UInt32) : Prop := p.1 &&& 0xc0000000 = 0

/-- A condition leaves room for its mark. -/
def PlainCond (k : UInt32 × UInt32) : Prop := k.1 &&& 0xf0000000 = 0

def PlainPiece : Piece (UInt32 × UInt32) (UInt32 × UInt32) → Prop
  | .item p => PlainPair p
  | .branches bs otherwise =>
    (∀ b ∈ bs, PlainCond b.1 ∧ ∀ p ∈ b.2, PlainPair p) ∧ ∀ xs ∈ otherwise, ∀ p ∈ xs, PlainPair p

def pairWords (ps : List (UInt32 × UInt32)) : List UInt32 := ps.flatMap fun p => [p.1, p.2]

/-- A branch: its condition with a mark, the pair of the negative condition, and its pairs. -/
def branchWords (mark : UInt32) (b : (UInt32 × UInt32) × List (UInt32 × UInt32)) : List UInt32 :=
  [mark ||| b.1.1, b.1.2, 0x40000000, 0x00000000] ++ pairWords b.2

/-- The first branch of a chain has a mark of its own. -/
def chainWords : List ((UInt32 × UInt32) × List (UInt32 × UInt32)) → List UInt32
  | [] => []
  | b :: bs => branchWords 0x80000000 b ++ bs.flatMap (branchWords 0x90000000)

def otherwiseWords : Option (List (UInt32 × UInt32)) → List UInt32
  | none => []
  | some ps => [0xa0000000, 0x00000000] ++ pairWords ps

/-- The words of a piece, with the marks of the tables. -/
def pieceWords : Piece (UInt32 × UInt32) (UInt32 × UInt32) → List UInt32
  | .item p => [p.1, p.2]
  | .branches bs otherwise => chainWords bs ++ otherwiseWords otherwise ++ [0xb0000000, 0x00000000]

def tableWords (ps : List (Piece (UInt32 × UInt32) (UInt32 × UInt32))) : List UInt32 := ps.flatMap pieceWords

theorem tableEntry_plain {p : UInt32 × UInt32} (h : PlainPair p) : tableEntry p.1 p.2 = .item p :=
  if_neg (not_not_intro h)

/-- The pairs of a table stay pairs, whatever follows. -/
theorem tableEntries_pairWords {ps : List (UInt32 × UInt32)} (h : ∀ p ∈ ps, PlainPair p) (rest : List UInt32) :
    tableEntries (pairWords ps ++ rest) = ps.map .item ++ tableEntries rest := by
  induction ps with
  | nil => rfl
  | cons p ps ih =>
      show tableEntry p.1 p.2 :: tableEntries (pairWords ps ++ rest) = _
      rw [tableEntry_plain (h p List.mem_cons_self), ih fun q hq => h q (List.mem_cons_of_mem _ hq)]
      rfl

theorem or_and_mask (x y m : UInt32) : (x ||| y) &&& m = x &&& m ||| y &&& m :=
  UInt32.toBitVec_inj.mp BitVec.and_or_distrib_right

/-- Among the bits of a mark a condition does not show. -/
theorem mark_or_and {mark m : UInt32} {k : UInt32 × UInt32} (h : PlainCond k) (hm : 0xf0000000 &&& m = m) :
    (mark ||| k.1) &&& m = mark &&& m := by
  have hk : k.1 &&& m = 0 := by
    rw [← hm, ← UInt32.and_assoc, h, UInt32.zero_and]
  rw [or_and_mask, hk, UInt32.or_zero]

/-- And below them only the condition does. -/
theorem mark_or_low {mark : UInt32} {k : UInt32 × UInt32} (h : PlainCond k) (hm : mark &&& 0x0fffffff = 0) :
    (mark ||| k.1) &&& 0x0fffffff = k.1 := by
  have hk : k.1 &&& 0x0fffffff = k.1 := by
    have hall : k.1 &&& (0xf0000000 ||| 0x0fffffff) = k.1 := by
      rw [show (0xf0000000 ||| 0x0fffffff : UInt32) = -1 by decide]
      exact UInt32.and_neg_one
    rwa [UInt32.and_comm, or_and_mask, UInt32.and_comm 0xf0000000, h, UInt32.zero_or, UInt32.and_comm] at hall
  rw [or_and_mask, hm, hk, UInt32.zero_or]

/-- The marks of a condition are taken off again. -/
theorem tableEntry_cond {mark : UInt32} {k : UInt32 × UInt32} (hmark : mark = 0x80000000 ∨ mark = 0x90000000)
    (h : PlainCond k) : tableEntry (mark ||| k.1) k.2 = .cond k := by
  have hlow : mark &&& 0x0fffffff = 0 := by rcases hmark with rfl | rfl <;> decide
  unfold tableEntry
  rw [mark_or_and h (by decide), mark_or_and h (by decide), mark_or_and h (by decide), mark_or_low h hlow]
  rcases hmark with rfl | rfl
  · rw [if_pos (by decide), if_pos (by decide), if_neg (by decide), if_neg (by decide)]
  · rw [if_pos (by decide), if_pos (by decide), if_neg (by decide), if_neg (by decide)]

/-- The entries that say something. -/
def spoken (array : List UInt32) : List (Entry (UInt32 × UInt32) (UInt32 × UInt32)) :=
  (tableEntries array).filter (!·.isSkip)

theorem spoken_pairWords {ps : List (UInt32 × UInt32)} (h : ∀ p ∈ ps, PlainPair p) (rest : List UInt32) :
    spoken (pairWords ps ++ rest) = ps.map .item ++ spoken rest := by
  have hitems : (ps.map .item : List (Entry (UInt32 × UInt32) (UInt32 × UInt32))).filter (!·.isSkip)
      = ps.map .item := by
    rw [List.filter_eq_self]
    intro e he
    obtain ⟨p, -, rfl⟩ := List.mem_map.mp he
    rfl
  unfold spoken
  rw [tableEntries_pairWords h, List.filter_append, hitems]

theorem spoken_branchWords {mark : UInt32} {b : (UInt32 × UInt32) × List (UInt32 × UInt32)}
    (hmark : mark = 0x80000000 ∨ mark = 0x90000000) (hb : PlainCond b.1 ∧ ∀ p ∈ b.2, PlainPair p)
    (rest : List UInt32) :
    spoken (branchWords mark b ++ rest) = .cond b.1 :: b.2.map .item ++ spoken rest := by
  show List.filter _ (tableEntry (mark ||| b.1.1) b.1.2 :: .skip :: tableEntries (pairWords b.2 ++ rest)) = _
  rw [tableEntry_cond hmark hb.1]
  exact congrArg (Entry.cond b.1 :: ·) (spoken_pairWords hb.2 rest)

/-- A chain of branches. -/
theorem spoken_chainWords {bs : List ((UInt32 × UInt32) × List (UInt32 × UInt32))}
    (h : ∀ b ∈ bs, PlainCond b.1 ∧ ∀ p ∈ b.2, PlainPair p) (rest : List UInt32) :
    spoken (chainWords bs ++ rest) = bs.flatMap (fun b => .cond b.1 :: b.2.map .item) ++ spoken rest := by
  have hlater : ∀ {bs : List ((UInt32 × UInt32) × List (UInt32 × UInt32))},
      (∀ b ∈ bs, PlainCond b.1 ∧ ∀ p ∈ b.2, PlainPair p) →
      spoken (bs.flatMap (branchWords 0x90000000) ++ rest)
        = bs.flatMap (fun b => .cond b.1 :: b.2.map .item) ++ spoken rest := by
    intro bs h
    induction bs with
    | nil => rfl
    | cons b bs ih =>
        rw [List.flatMap_cons, List.flatMap_cons, List.append_assoc, List.append_assoc,
          spoken_branchWords (Or.inr rfl) (h b List.mem_cons_self),
          ih fun q hq => h q (List.mem_cons_of_mem _ hq)]
  cases bs with
  | nil => rfl
  | cons b bs =>
      rw [chainWords, List.flatMap_cons, List.append_assoc, List.append_assoc,
        spoken_branchWords (Or.inl rfl) (h b List.mem_cons_self),
        hlater fun q hq => h q (List.mem_cons_of_mem _ hq)]

/-- **A piece is read as it was written.** -/
theorem spoken_pieceWords {p : Piece (UInt32 × UInt32) (UInt32 × UInt32)} (h : PlainPiece p)
    (rest : List UInt32) : spoken (pieceWords p ++ rest) = p.flat ++ spoken rest := by
  cases p with
  | item p => exact congrArg (fun e => List.filter (!·.isSkip) (e :: tableEntries rest)) (tableEntry_plain h)
  | branches bs otherwise =>
      unfold pieceWords Piece.flat
      rw [List.append_assoc, List.append_assoc, List.append_assoc, List.append_assoc, spoken_chainWords h.1]
      congr 1
      cases otherwise with
      | none => rfl
      | some ps =>
          show Entry.els :: spoken (pairWords ps ++ ([0xb0000000, 0x00000000] ++ rest)) = _
          rw [spoken_pairWords (h.2 ps rfl)]
          rfl

/-- **What is written is a table of the program.** -/
theorem writes_tableWords {ps : List (Piece (UInt32 × UInt32) (UInt32 × UInt32))} (h : ∀ p ∈ ps, PlainPiece p) :
    Writes (tableEntries (tableWords ps)) ps := by
  unfold Writes tableWords flat
  induction ps with
  | nil => rfl
  | cons p ps ih =>
      rw [List.flatMap_cons, List.flatMap_cons, ← ih fun q hq => h q (List.mem_cons_of_mem _ hq)]
      exact spoken_pieceWords (h p List.mem_cons_self) _

/-- The part of `Array_MP_8812A_PHY_REG` that depends on the board. -/
def samplePhyReg : List UInt32 :=
  [0xc64, 0x07003333, 0x80000008, 0x00000000, 0x40000000, 0x00000000, 0xc68, 0x59791979,
    0x90000008, 0x05000000, 0x40000000, 0x00000000, 0xc68, 0x59791979, 0xa0000000, 0x00000000,
    0xc68, 0x59799979, 0xb0000000, 0x00000000, 0xc6c, 0x59795979]

/-- A board with an amplifier of the fifth type in path A. -/
def sampleBoard : DmOdm := { boardType := 0x40, typeApa := 5 }

theorem readAndConfig_denotes_sample : odmReadAndConfigPhyReg sampleBoard samplePhyReg =
    (denote (boardHolds sampleBoard) [.item (0xc64, 0x07003333),
      .branches [((0x8, 0), [(0xc68, 0x59791979)]), ((0x8, 0x05000000), [(0xc68, 0x59791979)])]
        (some [(0xc68, 0x59799979)]), .item (0xc6c, 0x59795979)]).flatMap
      fun p => odmConfigBBPhy p.1 bMaskDWord p.2 := readAndConfig_denotes (by unfold Writes; decide)

end Rtl8812au
