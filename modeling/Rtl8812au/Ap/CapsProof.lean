import Rtl8812au.Ap.Caps
import Mathlib.Data.Fintype.Card
import Mathlib.Data.Finset.Card
import Mathlib.Data.Fintype.Basic

/-!
# Joins and leaves

One equation says what a step of the counters does; everything else follows from it: each
counter is the number of stations whose flag is set (`Counted`), what the flags are after a
join or a leave, and when the ERP element is rewritten.
-/

namespace Rtl8812au

/-! ## One counter -/

/-- By how much a counter moves when a flag goes from `old` to `new`. -/
def flagDelta (old new : Bool) : Int := new.toNat - old.toNat

/-- **What a counter step does**: the flag becomes `lacks` and the counter follows it. -/
theorem countStep_fst (b : Bss) (s : StaSlot) (c : Cap) (lacks : Bool) :
    (countStep b s c lacks).1 =
      { b with
        isSet := fun k d => if k = s ∧ d = c then lacks else b.isSet k d
        num := fun d => if d = c then b.num d + flagDelta (b.isSet s c) lacks else b.num d } := by
  have hkeep : lacks = b.isSet s c → b = { b with
      isSet := fun k d => if k = s ∧ d = c then lacks else b.isSet k d
      num := fun d => if d = c then b.num d + flagDelta (b.isSet s c) lacks else b.num d } := by
    intro h
    have h1 : (fun k d => if k = s ∧ d = c then lacks else b.isSet k d) = b.isSet := by
      funext k d
      split
      · rename_i hk
        rw [hk.1, hk.2, h]
      · rfl
    have h2 : (fun d => if d = c then b.num d + flagDelta (b.isSet s c) lacks else b.num d) =
        b.num := by
      funext d
      simp [flagDelta, h]
    rw [h1, h2]
  unfold countStep
  cases lacks with
  | true =>
    rw [if_pos rfl]
    split
    · rename_i hset
      exact hkeep hset.symm
    · rename_i hset
      simp [Bss.recount, flagDelta, hset]
  | false =>
    rw [if_neg Bool.false_ne_true]
    split
    · rename_i hset
      simp [Bss.recount, flagDelta, hset]
    · rename_i hset
      exact hkeep (by simpa using hset)

/-- The counter `c` leaves zero or reaches it. -/
def Edge (b : Bss) (s : StaSlot) (c : Cap) (lacks : Bool) : Prop :=
  (lacks = true ∧ b.isSet s c = false ∧ b.num c = 0) ∨
    (lacks = false ∧ b.isSet s c = true ∧ b.num c = 1)

instance (b : Bss) (s : StaSlot) (c : Cap) (lacks : Bool) : Decidable (Edge b s c lacks) :=
  inferInstanceAs (Decidable (_ ∨ _))

theorem countStep_snd (b : Bss) (s : StaSlot) (c : Cap) (lacks : Bool) :
    (countStep b s c lacks).2 = true ↔ Edge b s c lacks := by
  unfold countStep Edge
  cases lacks with
  | true =>
    cases hset : b.isSet s c with
    | true => simp
    | false =>
      have hone : b.num c + 1 = 1 ↔ b.num c = 0 := by omega
      simp [Bss.recount, hone]
  | false =>
    cases hset : b.isSet s c with
    | true => simp [Bss.recount]; omega
    | false => simp

/-- Each counter is the number of stations that are counted. -/
def Counted (b : Bss) : Prop :=
  ∀ c, b.num c = ((Finset.univ.filter fun s => b.isSet s c = true).card : Int)

theorem Counted.nonneg {b : Bss} (h : Counted b) (c : Cap) : 0 ≤ b.num c := by
  rw [h c]
  exact Int.natCast_nonneg _

/-- The number of elements with a property, when one of them changes. -/
theorem card_filter_update {α : Type} [Fintype α] [DecidableEq α] (p : α → Bool) (s : α) (v : Bool) :
    (((Finset.univ.filter fun k => (if k = s then v else p k) = true).card : Nat) : Int) =
      ((Finset.univ.filter fun k => p k = true).card : Nat) + flagDelta (p s) v := by
  have hrest : ∀ q : α → Bool, (((Finset.univ.filter fun k => q k = true).card : Nat) : Int) =
      (((Finset.univ.erase s).filter fun k => q k = true).card : Nat) + (q s).toNat := by
    intro q
    rw [← Finset.insert_erase (Finset.mem_univ s), Finset.filter_insert,
      Finset.erase_insert (Finset.notMem_erase _ _)]
    cases q s with
    | true =>
      rw [if_pos rfl, Finset.card_insert_of_notMem (by simp)]
      simp
    | false => simp
  have hsame : ((Finset.univ.erase s).filter fun k => (if k = s then v else p k) = true) =
      (Finset.univ.erase s).filter fun k => p k = true := by
    refine Finset.filter_congr fun k hk => ?_
    rw [if_neg (Finset.ne_of_mem_erase hk)]
  rw [hrest, hrest p, hsame, if_pos rfl, flagDelta]
  omega

theorem Counted.countStep {b : Bss} (h : Counted b) (s : StaSlot) (c : Cap) (lacks : Bool) :
    Counted (Rtl8812au.countStep b s c lacks).1 := by
  intro d
  rw [countStep_fst]
  by_cases hd : d = c
  · subst hd
    simp only [and_true, if_true]
    rw [h d, ← card_filter_update (fun k => b.isSet k d) s lacks]
  · simp only [hd, and_false, if_false]
    exact h d

/-! ## The beacon -/

theorem updateBcnErpinfoIe_eq (b : Bss) :
    updateBcnErpinfoIe b = { b with network := (updateBcnErpinfoIe b).network } := by
  unfold updateBcnErpinfoIe
  split
  · rfl
  · split
    · rfl
    · rfl

/-- What `_update_beacon` leaves alone. -/
theorem updateBeacon_eq (b : Bss) (ie : BcnIe) :
    updateBeacon b ie = { b with
      updateBcn := b.updateBcn || b.bstartBss
      network := if b.bstartBss = true ∧ ie = .erpinfo then (updateBcnErpinfoIe b).network
        else b.network } := by
  unfold updateBeacon
  by_cases hb : b.bstartBss = true
  · rw [if_neg (by simp [hb]), hb, Bool.or_true]
    cases ie with
    | erpinfo =>
      simp only [true_and, if_true]
      rw [updateBcnErpinfoIe_eq b, hb]
    | fixed => simp [hb]
    | htCapability => simp [hb]
    | htAddInfo => simp [hb]
  · rw [if_pos (by simpa using hb), if_neg (fun h => hb h.1)]
    simp only [Bool.not_eq_true] at hb
    rw [hb, Bool.or_false, ← hb]

/-- What the join and leave functions do not touch. -/
structure SameSetup (b b' : Bss) : Prop where
  bstartBss : b'.bstartBss = b.bstartBss
  erpEnable : b'.erpEnable = b.erpEnable
  curWirelessMode : b'.curWirelessMode = b.curWirelessMode
  htOption : b'.htOption = b.htOption
  htCapInfo : b'.htCapInfo = b.htCapInfo
  olbcHt : b'.olbcHt = b.olbcHt
  caps : b'.caps = b.caps

theorem SameSetup.refl (b : Bss) : SameSetup b b := ⟨rfl, rfl, rfl, rfl, rfl, rfl, rfl⟩

theorem SameSetup.trans {b b' b'' : Bss} (h : SameSetup b b') (h' : SameSetup b' b'') :
    SameSetup b b'' :=
  ⟨h'.1.trans h.1, h'.2.trans h.2, h'.3.trans h.3, h'.4.trans h.4, h'.5.trans h.5,
    h'.6.trans h.6, h'.7.trans h.7⟩

theorem sameSetup_countStep (b : Bss) (s : StaSlot) (c : Cap) (lacks : Bool) :
    SameSetup b (countStep b s c lacks).1 := by
  rw [countStep_fst]
  exact ⟨rfl, rfl, rfl, rfl, rfl, rfl, rfl⟩

theorem sameSetup_updateBeacon (b : Bss) (ie : BcnIe) : SameSetup b (updateBeacon b ie) := by
  rw [updateBeacon_eq]
  exact ⟨rfl, rfl, rfl, rfl, rfl, rfl, rfl⟩

@[simp] theorem updateBeacon_num (b : Bss) (ie : BcnIe) : (updateBeacon b ie).num = b.num := by
  rw [updateBeacon_eq]

@[simp] theorem updateBeacon_isSet (b : Bss) (ie : BcnIe) :
    (updateBeacon b ie).isSet = b.isSet := by
  rw [updateBeacon_eq]

@[simp] theorem updateBeacon_htOpMode (b : Bss) (ie : BcnIe) :
    (updateBeacon b ie).htOpMode = b.htOpMode := by
  rw [updateBeacon_eq]

theorem Counted.of_eq {b b' : Bss} (h : Counted b) (hnum : b'.num = b.num)
    (hset : b'.isSet = b.isSet) : Counted b' := by
  intro c
  rw [hnum, hset]
  exact h c

/-- The ERP octet depends on two counters. -/
theorem updateBcnErpinfoIe_network {b b' : Bss} (he : b'.erpEnable = b.erpEnable)
    (hn : b'.network = b.network) (h1 : b'.num .nonErp = b.num .nonErp)
    (h2 : b'.num .noShortPreamble = b.num .noShortPreamble) :
    (updateBcnErpinfoIe b').network = (updateBcnErpinfoIe b).network := by
  have hoct : ∀ d, erpOctet b' d = erpOctet b d := by
    intro d
    simp only [erpOctet, h1, h2]
  unfold updateBcnErpinfoIe
  rw [he, hn]
  split
  · exact hn
  · split
    · simp only [hoct]
    · exact hn

/-! ## A counter and its beacon -/

section CapStep

variable (b : Bss) (s : StaSlot) (c : Cap) (lacks : Bool) (ie : BcnIe) (g : Bool)

theorem capStep_fst : (capStep b s c lacks ie g).1 =
    if ((countStep b s c lacks).2 && g) = true then updateBeacon (countStep b s c lacks).1 ie
    else (countStep b s c lacks).1 := by
  unfold capStep
  dsimp only
  split
  · rfl
  · rfl

theorem capStep_num : (capStep b s c lacks ie g).1.num = (countStep b s c lacks).1.num := by
  rw [capStep_fst]
  split
  · simp
  · rfl

theorem capStep_isSet :
    (capStep b s c lacks ie g).1.isSet = (countStep b s c lacks).1.isSet := by
  rw [capStep_fst]
  split
  · simp
  · rfl

theorem sameSetup_capStep : SameSetup b (capStep b s c lacks ie g).1 := by
  rw [capStep_fst]
  split
  · exact (sameSetup_countStep b s c lacks).trans (sameSetup_updateBeacon _ _)
  · exact sameSetup_countStep b s c lacks

theorem capStep_htOpMode : (capStep b s c lacks ie g).1.htOpMode = b.htOpMode := by
  rw [capStep_fst]
  split
  · simp [countStep_fst]
  · simp [countStep_fst]

theorem countStep_network : (countStep b s c lacks).1.network = b.network := by
  rw [countStep_fst]

theorem capStep_fixed_network :
    (capStep b s c lacks .fixed g).1.network = b.network := by
  rw [capStep_fst]
  split
  · rw [updateBeacon_eq]
    simp [countStep_network]
  · exact countStep_network b s c lacks

/-- The ERP element is rewritten when the counter of non-ERP stations leaves or reaches
zero. -/
theorem capStep_erp_network (hb : b.bstartBss = true) :
    (capStep b s c lacks .erpinfo true).1.network =
      if Edge b s c lacks then (updateBcnErpinfoIe (countStep b s c lacks).1).network
      else b.network := by
  rw [capStep_fst]
  have hb' : (countStep b s c lacks).1.bstartBss = true :=
    (sameSetup_countStep b s c lacks).bstartBss.trans hb
  by_cases he : Edge b s c lacks
  · rw [if_pos he, if_pos (by simpa using (countStep_snd b s c lacks).mpr he), updateBeacon_eq,
      if_pos ⟨hb', rfl⟩]
  · rw [if_neg he, if_neg (by simpa using fun h => he ((countStep_snd b s c lacks).mp h))]
    exact countStep_network b s c lacks

theorem Counted.capStep {b : Bss} (h : Counted b) (s : StaSlot) (c : Cap) (lacks : Bool)
    (ie : BcnIe) (g : Bool) : Counted (Rtl8812au.capStep b s c lacks ie g).1 :=
  (h.countStep s c lacks).of_eq (capStep_num b s c lacks ie g) (capStep_isSet b s c lacks ie g)

/-- The flag of `s` in the counter `d` after a step of the counter `c`. -/
theorem countStep_isSet (k : StaSlot) (d : Cap) : (countStep b s c lacks).1.isSet k d =
    if k = s ∧ d = c then lacks else b.isSet k d := by
  rw [countStep_fst]

theorem countStep_num_ne {d : Cap} (h : d ≠ c) : (countStep b s c lacks).1.num d = b.num d := by
  rw [countStep_fst]
  exact if_neg h

theorem countStep_htOpMode : (countStep b s c lacks).1.htOpMode = b.htOpMode := by
  rw [countStep_fst]

end CapStep

/-! ## The operating mode -/

theorem rtwHtOperationUpdate_eq (b : Bss) : (rtwHtOperationUpdate b).1 =
    { b with htOpMode := (rtwHtOperationUpdate b).1.htOpMode } := by
  unfold rtwHtOperationUpdate
  split
  · rfl
  · dsimp only
    split
    · rfl
    · rfl

theorem htBeacon_eq (b : Bss) : htBeacon b = { b with
    htOpMode := (htBeacon b).htOpMode, updateBcn := (htBeacon b).updateBcn } := by
  unfold htBeacon
  dsimp only
  rw [rtwHtOperationUpdate_eq b]
  split
  · simp [updateBeacon_eq]
  · rfl

/-- **With `ht_option` set the operating mode is left as it is.** -/
theorem htBeacon_of_htOption {b : Bss} (h : b.htOption = true) : htBeacon b = b := by
  simp [htBeacon, rtwHtOperationUpdate, h]

theorem Counted.htBeacon {b : Bss} (h : Counted b) : Counted (Rtl8812au.htBeacon b) := by
  rw [htBeacon_eq]
  exact h.of_eq rfl rfl

theorem sameSetup_htBeacon (b : Bss) : SameSetup b (htBeacon b) := by
  rw [htBeacon_eq]
  exact ⟨rfl, rfl, rfl, rfl, rfl, rfl, rfl⟩

/-! ## A join -/

/-- The flag of the joining station afterwards: in two counters it stays once it is set. -/
def joinFlag (c : Cap) (old lacks : Bool) : Bool :=
  match c with
  | .htNoGf | .ht20mhz => old || lacks
  | _ => lacks

section JoinHt

variable (b : Bss) (s : StaSlot)

theorem joinHt_isSet (k : StaSlot) (c : Cap) : (joinHt b s).isSet k c =
    if k = s ∧ (c = .noHt ∨ c = .htNoGf ∨ c = .ht20mhz) then
      joinFlag c (b.isSet s c) ((b.caps s).lacks c)
    else b.isSet k c := by
  unfold joinHt
  have hcaps : ∀ (b : Bss) (c : Cap) (l : Bool), (countStep b s c l).1.caps = b.caps :=
    fun b c l => (sameSetup_countStep b s c l).caps
  by_cases hk : k = s
  · subst hk
    cases hht : (b.caps k).ht <;> cases hgf : htGrnFld (b.caps k).htCapInfo <;>
      cases hw : htSupWidth (b.caps k).htCapInfo <;> cases c <;>
      simp [countStep_isSet, hcaps, hht, hgf, hw, joinFlag, StaCaps.lacks]
  · simp only [hk, false_and, if_false]
    repeat' split
    all_goals simp [countStep_isSet, hk]

/-- Each step of the HT counters keeps what a counter step keeps. -/
theorem joinHt_induction {P : Bss → Prop}
    (hstep : ∀ b c l, (c = .noHt ∨ c = .htNoGf ∨ c = .ht20mhz) → P b → P (countStep b s c l).1)
    (h : P b) : P (joinHt b s) := by
  unfold joinHt
  split
  · have h1 := hstep b .noHt false (Or.inl rfl) h
    dsimp only
    split
    · have h2 := hstep _ .htNoGf true (Or.inr (Or.inl rfl)) h1
      split
      · exact hstep _ .ht20mhz true (Or.inr (Or.inr rfl)) h2
      · exact h2
    · split
      · exact hstep _ .ht20mhz true (Or.inr (Or.inr rfl)) h1
      · exact h1
  · exact hstep b .noHt true (Or.inl rfl) h

theorem sameSetup_joinHt : SameSetup b (joinHt b s) :=
  joinHt_induction b s (fun b' c l _ h => h.trans (sameSetup_countStep b' s c l)) (SameSetup.refl b)

/-- The HT counters leave the beacon, the mode and the other counters alone. -/
theorem joinHt_rest : (joinHt b s).network = b.network ∧ (joinHt b s).htOpMode = b.htOpMode ∧
    ∀ c, c = .nonErp ∨ c = .noShortPreamble → (joinHt b s).num c = b.num c := by
  refine joinHt_induction b s (P := fun x => x.network = b.network ∧ x.htOpMode = b.htOpMode ∧
    ∀ c, c = .nonErp ∨ c = .noShortPreamble → x.num c = b.num c) ?_
    ⟨rfl, rfl, fun _ _ => rfl⟩
  intro b' d l hd h
  refine ⟨(countStep_network b' s d l).trans h.1, (countStep_htOpMode b' s d l).trans h.2.1,
    fun c hc => ?_⟩
  have hne : c ≠ d := by
    rcases hd with rfl | rfl | rfl <;> rcases hc with rfl | rfl <;> decide
  exact (countStep_num_ne b' s d l hne).trans (h.2.2 c hc)

end JoinHt

section Join

variable (b : Bss) (s : StaSlot)

/-- The counters that both functions start with. -/
def threeSteps (b : Bss) (s : StaSlot) (l1 l2 l3 : Bool) : Bss :=
  let g := decide (wireless11B < b.curWirelessMode)
  let x := capStep b s .noShortPreamble l1 .fixed g
  let y := capStep x.1 s .nonErp l2 .erpinfo true
  (capStep y.1 s .noShortSlotTime l3 .fixed g).1

theorem sameSetup_threeSteps (l1 l2 l3 : Bool) : SameSetup b (threeSteps b s l1 l2 l3) :=
  ((sameSetup_capStep ..).trans (sameSetup_capStep ..)).trans (sameSetup_capStep ..)

theorem Counted.threeSteps {b : Bss} (h : Counted b) (s : StaSlot) (l1 l2 l3 : Bool) :
    Counted (Rtl8812au.threeSteps b s l1 l2 l3) :=
  ((h.capStep _ _ _ _ _).capStep _ _ _ _ _).capStep _ _ _ _ _

theorem threeSteps_htOpMode (l1 l2 l3 : Bool) :
    (threeSteps b s l1 l2 l3).htOpMode = b.htOpMode := by
  simp only [threeSteps, capStep_htOpMode]

theorem threeSteps_isSet (l1 l2 l3 : Bool) (k : StaSlot) (c : Cap) :
    (threeSteps b s l1 l2 l3).isSet k c =
      if k = s then
        match c with
        | .noShortPreamble => l1
        | .nonErp => l2
        | .noShortSlotTime => l3
        | c => b.isSet k c
      else b.isSet k c := by
  simp only [threeSteps, capStep_isSet, countStep_isSet]
  by_cases hk : k = s
  · cases c <;> simp [hk]
  · simp [hk]

theorem threeSteps_num_noShortPreamble (l1 l2 l3 : Bool) :
    (threeSteps b s l1 l2 l3).num .noShortPreamble =
      (countStep b s .noShortPreamble l1).1.num .noShortPreamble := by
  simp only [threeSteps, capStep_num]
  rw [countStep_num_ne _ _ _ _ (by decide), capStep_num, countStep_num_ne _ _ _ _ (by decide),
    capStep_num]

theorem threeSteps_num_nonErp (l1 l2 l3 : Bool) : (threeSteps b s l1 l2 l3).num .nonErp =
    (countStep b s .nonErp l2).1.num .nonErp := by
  simp only [threeSteps, capStep_num]
  rw [countStep_num_ne _ _ _ _ (by decide), capStep_num]
  have h1 : (capStep b s .noShortPreamble l1 .fixed
      (decide (wireless11B < b.curWirelessMode))).1.num .nonErp = b.num .nonErp := by
    rw [capStep_num]
    exact countStep_num_ne _ _ _ _ (by decide)
  have h2 : (capStep b s .noShortPreamble l1 .fixed
      (decide (wireless11B < b.curWirelessMode))).1.isSet s .nonErp = b.isSet s .nonErp := by
    rw [capStep_isSet, countStep_isSet]
    exact if_neg (by simp)
  rw [countStep_fst, countStep_fst]
  simp only [if_true, h1, h2]

/-- **The ERP element after the three counters**: rewritten from them when the second one
has left or reached zero, untouched otherwise. -/
theorem threeSteps_network (hb : b.bstartBss = true) (l1 l2 l3 : Bool) :
    (threeSteps b s l1 l2 l3).network =
      if Edge b s .nonErp l2 then
        (updateBcnErpinfoIe { b with num := (threeSteps b s l1 l2 l3).num }).network
      else b.network := by
  have hx : SameSetup b (capStep b s .noShortPreamble l1 .fixed
      (decide (wireless11B < b.curWirelessMode))).1 := sameSetup_capStep ..
  have hxnum : (capStep b s .noShortPreamble l1 .fixed
      (decide (wireless11B < b.curWirelessMode))).1.num .nonErp = b.num .nonErp := by
    rw [capStep_num]
    exact countStep_num_ne _ _ _ _ (by decide)
  have hxset : (capStep b s .noShortPreamble l1 .fixed
      (decide (wireless11B < b.curWirelessMode))).1.isSet s .nonErp = b.isSet s .nonErp := by
    rw [capStep_isSet, countStep_isSet]
    exact if_neg (by simp)
  have hedge : Edge (capStep b s .noShortPreamble l1 .fixed
      (decide (wireless11B < b.curWirelessMode))).1 s .nonErp l2 ↔ Edge b s .nonErp l2 := by
    simp only [Edge, hxnum, hxset]
  have hnet : (threeSteps b s l1 l2 l3).network = (capStep (capStep b s .noShortPreamble l1 .fixed
      (decide (wireless11B < b.curWirelessMode))).1 s .nonErp l2 .erpinfo true).1.network := by
    rw [threeSteps, capStep_fixed_network]
  rw [hnet, capStep_erp_network _ _ _ _ (hx.bstartBss.trans hb)]
  by_cases he : Edge b s .nonErp l2
  · rw [if_pos (hedge.mpr he), if_pos he]
    refine updateBcnErpinfoIe_network ?_ ?_ ?_ ?_
    · rw [(sameSetup_countStep ..).erpEnable]
      exact hx.erpEnable
    · rw [countStep_network]
      exact capStep_fixed_network ..
    · show _ = (threeSteps b s l1 l2 l3).num .nonErp
      rw [threeSteps_num_nonErp, countStep_fst, countStep_fst]
      simp only [if_true, hxnum, hxset]
    · show _ = (threeSteps b s l1 l2 l3).num .noShortPreamble
      rw [threeSteps_num_noShortPreamble, countStep_num_ne _ _ _ _ (by decide), capStep_num]
  · rw [if_neg (fun h => he (hedge.mp h)), if_neg he]
    exact capStep_fixed_network ..

/-- A join is the three counters, the HT counters and the operating mode. -/
theorem join_eq : (bssCapUpdateOnStaJoin b s).1 = htBeacon (joinHt (threeSteps b s
    ((b.caps s).lacks .noShortPreamble) ((b.caps s).lacks .nonErp)
    ((b.caps s).lacks .noShortSlotTime)) s) := rfl

theorem sameSetup_join : SameSetup b (bssCapUpdateOnStaJoin b s).1 := by
  rw [join_eq]
  exact ((sameSetup_threeSteps b s _ _ _).trans (sameSetup_joinHt _ s)).trans
    (sameSetup_htBeacon _)

theorem Counted.join {b : Bss} (h : Counted b) (s : StaSlot) :
    Counted (bssCapUpdateOnStaJoin b s).1 := by
  rw [join_eq]
  refine Counted.htBeacon (joinHt_induction _ s (fun b' c l _ h => h.countStep s c l) ?_)
  exact h.threeSteps _ _ _ _

/-- **The flags after a join.** -/
theorem join_isSet (k : StaSlot) (c : Cap) : (bssCapUpdateOnStaJoin b s).1.isSet k c =
    if k = s then joinFlag c (b.isSet s c) ((b.caps s).lacks c) else b.isSet k c := by
  rw [join_eq, htBeacon_eq]
  show (joinHt _ s).isSet k c = _
  rw [joinHt_isSet, (sameSetup_threeSteps ..).caps]
  by_cases hk : k = s
  · subst hk
    cases c <;> simp [threeSteps_isSet, joinFlag]
  · simp [hk, threeSteps_isSet]

/-- The counters of preambles and ERP, and the beacon, are as the three steps leave them. -/
theorem join_rest : (bssCapUpdateOnStaJoin b s).1.network = (threeSteps b s
      ((b.caps s).lacks .noShortPreamble) ((b.caps s).lacks .nonErp)
      ((b.caps s).lacks .noShortSlotTime)).network ∧
    ∀ c, c = .nonErp ∨ c = .noShortPreamble → (bssCapUpdateOnStaJoin b s).1.num c =
      (threeSteps b s ((b.caps s).lacks .noShortPreamble) ((b.caps s).lacks .nonErp)
        ((b.caps s).lacks .noShortSlotTime)).num c := by
  rw [join_eq, htBeacon_eq]
  exact ⟨(joinHt_rest _ s).1, (joinHt_rest _ s).2.2⟩

theorem join_htOpMode (h : b.htOption = true) :
    (bssCapUpdateOnStaJoin b s).1.htOpMode = b.htOpMode := by
  have hopt := ((sameSetup_threeSteps b s ((b.caps s).lacks .noShortPreamble)
    ((b.caps s).lacks .nonErp) ((b.caps s).lacks .noShortSlotTime)).trans
    (sameSetup_joinHt _ s)).htOption.trans h
  rw [join_eq, htBeacon_of_htOption hopt, (joinHt_rest _ s).2.1, threeSteps_htOpMode]

end Join

/-! ## A leave -/

section Leave

variable (b : Bss) (s : StaSlot)

/-- A leave is the three counters and the HT counters with nothing lacking. -/
theorem leave_eq : (bssCapUpdateOnStaLeave b s).1 =
    htBeacon (countStep (countStep (countStep (threeSteps b s false false false) s .htNoGf false).1
      s .noHt false).1 s .ht20mhz false).1 := rfl

theorem sameSetup_leave : SameSetup b (bssCapUpdateOnStaLeave b s).1 := by
  rw [leave_eq]
  exact ((((sameSetup_threeSteps ..).trans (sameSetup_countStep ..)).trans
    (sameSetup_countStep ..)).trans (sameSetup_countStep ..)).trans (sameSetup_htBeacon _)

theorem Counted.leave {b : Bss} (h : Counted b) (s : StaSlot) :
    Counted (bssCapUpdateOnStaLeave b s).1 := by
  rw [leave_eq]
  exact ((((h.threeSteps _ _ _ _).countStep _ _ _).countStep _ _ _).countStep _ _ _).htBeacon

/-- **The flags after a leave.** -/
theorem leave_isSet (k : StaSlot) (c : Cap) : (bssCapUpdateOnStaLeave b s).1.isSet k c =
    if k = s then false else b.isSet k c := by
  rw [leave_eq, htBeacon_eq]
  simp only [countStep_isSet, threeSteps_isSet]
  by_cases hk : k = s
  · subst hk
    cases c <;> simp
  · simp [hk]

theorem leave_rest : (bssCapUpdateOnStaLeave b s).1.network =
      (threeSteps b s false false false).network ∧
    ∀ c, c = .nonErp ∨ c = .noShortPreamble → (bssCapUpdateOnStaLeave b s).1.num c =
      (threeSteps b s false false false).num c := by
  rw [leave_eq, htBeacon_eq]
  simp only [countStep_network]
  refine ⟨trivial, fun c hc => ?_⟩
  have hne : c ≠ .ht20mhz ∧ c ≠ .noHt ∧ c ≠ .htNoGf := by
    rcases hc with rfl | rfl <;> decide
  rw [countStep_num_ne _ _ _ _ hne.1, countStep_num_ne _ _ _ _ hne.2.1,
    countStep_num_ne _ _ _ _ hne.2.2]

theorem leave_htOpMode (h : b.htOption = true) :
    (bssCapUpdateOnStaLeave b s).1.htOpMode = b.htOpMode := by
  rw [leave_eq, htBeacon_of_htOption]
  · simp only [countStep_htOpMode, threeSteps_htOpMode]
  · rw [(sameSetup_countStep ..).htOption, (sameSetup_countStep ..).htOption,
      (sameSetup_countStep ..).htOption, (sameSetup_threeSteps ..).htOption, h]

end Leave

end Rtl8812au
