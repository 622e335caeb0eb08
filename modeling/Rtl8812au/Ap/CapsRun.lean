import Rtl8812au.Ap.CapsProof

/-!
# Runs of joins and leaves

The operating mode and the ERP element are kept up to date step by step. Here they are
compared with what the stations in the BSS ask for, after every call of any run.
-/

namespace Rtl8812au

/-- A call of one of the two functions: a station joins with what its request said, or it
leaves. -/
inductive CapOp where
  | join (s : StaSlot) (r : StaCaps)
  | leave (s : StaSlot)

namespace CapOp

def slot : CapOp → StaSlot
  | .join s _ => s
  | .leave s => s

/-- What the call wants the flags of the station to be. -/
def lacks : CapOp → Cap → Bool
  | .join _ r => r.lacks
  | .leave _ => fun _ => false

end CapOp

def capOp (b : Bss) : CapOp → Bss
  | .join s r => (bssCapUpdateOnStaJoin (b.setCaps s r) s).1
  | .leave s => (bssCapUpdateOnStaLeave b s).1

def capRun (b : Bss) (ops : List CapOp) : Bss := ops.foldl capOp b

/-- The stations in the BSS, with what they asked for last. -/
def associated (ops : List CapOp) : StaSlot → Option StaCaps :=
  ops.foldl (fun a op k => match op with
    | .join s r => if k = s then some r else a k
    | .leave s => if k = s then none else a k) fun _ => none

theorem capRun_snoc (b : Bss) (l : List CapOp) (op : CapOp) :
    capRun b (l ++ [op]) = capOp (capRun b l) op := by
  simp [capRun]

theorem associated_join (l : List CapOp) (s k : StaSlot) (r : StaCaps) :
    associated (l ++ [.join s r]) k = if k = s then some r else associated l k := by
  simp [associated]

theorem associated_leave (l : List CapOp) (s k : StaSlot) :
    associated (l ++ [.leave s]) k = if k = s then none else associated l k := by
  simp [associated]

/-! ## One call -/

theorem setCaps_caps (b : Bss) (s : StaSlot) (r : StaCaps) : (b.setCaps s r).caps s = r :=
  if_pos rfl

theorem Counted.capOp {b : Bss} (h : Counted b) (op : CapOp) : Counted (Rtl8812au.capOp b op) := by
  cases op with
  | join s r => exact Counted.join (b := b.setCaps s r) h s
  | leave s => exact h.leave s

/-- What every call leaves alone. -/
theorem capOp_setup (b : Bss) (op : CapOp) :
    (capOp b op).bstartBss = b.bstartBss ∧ (capOp b op).erpEnable = b.erpEnable ∧
      (capOp b op).htOption = b.htOption ∧ (capOp b op).htCapInfo = b.htCapInfo ∧
      (capOp b op).olbcHt = b.olbcHt := by
  cases op with
  | join s r =>
    have h := sameSetup_join (b.setCaps s r) s
    exact ⟨h.bstartBss, h.erpEnable, h.htOption, h.htCapInfo, h.olbcHt⟩
  | leave s =>
    have h := sameSetup_leave b s
    exact ⟨h.bstartBss, h.erpEnable, h.htOption, h.htCapInfo, h.olbcHt⟩

/-- A flag is only ever set by a join that lacks the capability. -/
theorem capOp_isSet_of {b : Bss} {op : CapOp} {k : StaSlot} {c : Cap}
    (h : (capOp b op).isSet k c = true) :
    b.isSet k c = true ∨ ∃ r, op = .join k r ∧ r.lacks c = true := by
  cases op with
  | join s r =>
    rw [capOp, join_isSet, setCaps_caps] at h
    by_cases hk : k = s
    · subst hk
      rw [if_pos rfl] at h
      by_cases hr : r.lacks c = true
      · exact Or.inr ⟨r, rfl, hr⟩
      · rw [Bool.not_eq_true] at hr
        rw [hr] at h
        left
        cases c <;> simp_all [joinFlag, Bss.setCaps]
    · rw [if_neg hk] at h
      exact Or.inl h
  | leave s =>
    rw [capOp, leave_isSet] at h
    split at h
    · cases h
    · exact Or.inl h

/-! ## The operating mode -/

/-- A station that does not change the operating mode of this access point. -/
def Capable (b : Bss) (r : StaCaps) : Prop :=
  r.lacks .noHt = false ∧ r.lacks .htNoGf = false ∧
    (htSupWidth b.htCapInfo = true → r.lacks .ht20mhz = false)

instance (b : Bss) (r : StaCaps) : Decidable (Capable b r) :=
  inferInstanceAs (Decidable (_ ∧ _ ∧ _))

/-- **The documented rule**, over the stations in the BSS: mixed when one of them has no HT or
no greenfield, else 2 when one of them is 20 MHz only and the access point is not, else 1
when there may be others, else 0; and the two bits follow their counters. -/
structure HtModeSays (b : Bss) (assoc : StaSlot → Option StaCaps) : Prop where
  mixed : b.htOpMode &&& opModeMask = 3 ↔
    ∃ s r, assoc s = some r ∧ (r.lacks .noHt = true ∨ r.lacks .htNoGf = true)
  narrow : (¬ ∃ s r, assoc s = some r ∧ (r.lacks .noHt = true ∨ r.lacks .htNoGf = true)) →
    (b.htOpMode &&& opModeMask = 2 ↔
      htSupWidth b.htCapInfo = true ∧ ∃ s r, assoc s = some r ∧ r.lacks .ht20mhz = true)
  other : (¬ ∃ s r, assoc s = some r ∧ (r.lacks .noHt = true ∨ r.lacks .htNoGf = true)) →
    (¬ (htSupWidth b.htCapInfo = true ∧ ∃ s r, assoc s = some r ∧ r.lacks .ht20mhz = true)) →
    b.htOpMode &&& opModeMask = if b.olbcHt then 1 else 0
  nonGf : (b.htOpMode &&& opModeNonGf ≠ 0) ↔ 0 < b.num .htNoGf
  nonHt : (b.htOpMode &&& opModeNonHt ≠ 0) ↔ 0 < b.num .noHt ∨ b.olbcHt = true

section HtMode

variable {b : Bss}

/-- With `ht_option` set nothing moves the mode from where `start_ap_mode` put it. -/
theorem capRun_htOpMode (h : b.htOption = true) : ∀ l : List CapOp,
    (capRun (startApMode b) l).htOpMode = 0 ∧ (capRun (startApMode b) l).htOption = true ∧
      (capRun (startApMode b) l).htCapInfo = b.htCapInfo ∧
      (capRun (startApMode b) l).olbcHt = false := by
  intro l
  induction l using List.reverseRecOn with
  | nil => exact ⟨rfl, h, rfl, rfl⟩
  | append_singleton l op ih =>
    obtain ⟨hmode, hopt, hinfo, holbc⟩ := ih
    rw [capRun_snoc]
    obtain ⟨-, -, h3, h4, h5⟩ := capOp_setup (capRun (startApMode b) l) op
    refine ⟨?_, h3.trans hopt, h4.trans hinfo, h5.trans holbc⟩
    cases op with
    | join s r => exact (join_htOpMode (Bss.setCaps _ s r) s hopt).trans hmode
    | leave s => exact (leave_htOpMode _ s hopt).trans hmode

theorem capRun_counted (hb : Counted b) : ∀ l : List CapOp, Counted (capRun b l) := by
  intro l
  induction l using List.reverseRecOn with
  | nil => exact hb
  | append_singleton l op ih =>
    rw [capRun_snoc]
    exact ih.capOp op

/-- A flag comes from a join of the run. -/
theorem capRun_isSet_of (hfresh : ∀ s c, b.isSet s c = false) {k : StaSlot} {c : Cap} :
    ∀ {l : List CapOp}, (capRun b l).isSet k c = true →
      ∃ r, CapOp.join k r ∈ l ∧ r.lacks c = true := by
  intro l
  induction l using List.reverseRecOn with
  | nil =>
      intro h
      rw [capRun, List.foldl_nil, hfresh] at h
      cases h
  | append_singleton l op ih =>
      intro h
      rw [capRun_snoc] at h
      rcases capOp_isSet_of h with h' | ⟨r, rfl, hr⟩
      · obtain ⟨r, hmem, hr⟩ := ih h'
        exact ⟨r, List.mem_append_left _ hmem, hr⟩
      · exact ⟨r, List.mem_append_right _ (List.mem_singleton_self _), hr⟩

/-- A station in the BSS has joined. -/
theorem associated_mem {s : StaSlot} {r : StaCaps} :
    ∀ {l : List CapOp}, associated l s = some r → CapOp.join s r ∈ l := by
  intro l
  induction l using List.reverseRecOn with
  | nil => intro h; cases h
  | append_singleton l op ih =>
      intro h
      cases op with
      | join k r' =>
        rw [associated_join] at h
        split at h
        · rename_i hk
          subst hk
          cases h
          exact List.mem_append_right _ (List.mem_singleton_self _)
        · exact List.mem_append_left _ (ih h)
      | leave k =>
        rw [associated_leave] at h
        split at h
        · cases h
        · exact List.mem_append_left _ (ih h)

/-- When no station ever lacks `c`, its counter stays at zero. -/
theorem capRun_num_zero (hfresh : ∀ s c, b.isSet s c = false) (hb : Counted b) {c : Cap}
    {l : List CapOp} (hl : ∀ s r, CapOp.join s r ∈ l → r.lacks c = false) :
    (capRun b l).num c = 0 := by
  rw [capRun_counted hb l c]
  have hnone : (Finset.univ.filter fun s => (capRun b l).isSet s c = true) = ∅ := by
    refine Finset.filter_eq_empty_iff.mpr fun s _ hset => ?_
    obtain ⟨r, hmem, hr⟩ := capRun_isSet_of hfresh hset
    rw [hl s r hmem] at hr
    cases hr
  rw [hnone]
  rfl

/-- At mode zero the rule holds when every station is capable. -/
theorem htModeSays_of_capable {x : Bss} {assoc : StaSlot → Option StaCaps}
    (hmode : x.htOpMode = 0) (hinfo : x.htCapInfo = b.htCapInfo) (holbc : x.olbcHt = false)
    (hgf : x.num .htNoGf = 0) (hno : x.num .noHt = 0)
    (hall : ∀ s r, assoc s = some r → Capable b r) : HtModeSays x assoc where
  mixed := by
    rw [hmode]
    refine ⟨fun h => absurd h (by decide), ?_⟩
    rintro ⟨s, r, hs, hr⟩
    obtain ⟨h1, h2, -⟩ := hall s r hs
    simp [h1, h2] at hr
  narrow := by
    intro _
    rw [hmode, hinfo]
    refine ⟨fun h => absurd h (by decide), ?_⟩
    rintro ⟨hw, s, r, hs, hr⟩
    rw [(hall s r hs).2.2 hw] at hr
    cases hr
  other := by
    intro _ _
    rw [hmode, holbc]
    rfl
  nonGf := by simp [hmode, hgf]
  nonHt := by simp [hmode, hno, holbc]

/-- At mode zero the rule fails when a station in the BSS is not capable. -/
theorem capable_of_htModeSays {x : Bss} {assoc : StaSlot → Option StaCaps} (h : HtModeSays x assoc)
    (hmode : x.htOpMode = 0) (hinfo : x.htCapInfo = b.htCapInfo) {s : StaSlot} {r : StaCaps}
    (hs : assoc s = some r) : Capable b r := by
  have hmixed : ¬ ∃ s r, assoc s = some r ∧ (r.lacks .noHt = true ∨ r.lacks .htNoGf = true) := by
    intro hex
    have := h.mixed.mpr hex
    rw [hmode] at this
    exact absurd this (by decide)
  have hnarrow : ¬ (htSupWidth b.htCapInfo = true ∧ ∃ s r, assoc s = some r ∧
      r.lacks .ht20mhz = true) := by
    rw [← hinfo]
    intro hex
    have := (h.narrow hmixed).mpr hex
    rw [hmode] at this
    exact absurd this (by decide)
  refine ⟨?_, ?_, fun hw => ?_⟩
  · exact Bool.eq_false_iff.mpr fun hr => hmixed ⟨s, r, hs, Or.inl hr⟩
  · exact Bool.eq_false_iff.mpr fun hr => hmixed ⟨s, r, hs, Or.inr hr⟩
  · exact Bool.eq_false_iff.mpr fun hr => hnarrow ⟨hw, s, r, hs, hr⟩

theorem counted_start (hfresh : ∀ s c, b.isSet s c = false) : Counted (startApMode b) := by
  intro c
  have hnone : (Finset.univ.filter fun s => (startApMode b).isSet s c = true) = ∅ := by
    refine Finset.filter_eq_empty_iff.mpr fun s _ hset => ?_
    have : b.isSet s c = true := hset
    rw [hfresh] at this
    cases this
  rw [hnone]
  rfl

/-- **The operating mode follows the rule through a run exactly when no station that would
change it ever joins.** -/
theorem ht_mode_follows (hht : b.htOption = true) (hfresh : ∀ s c, b.isSet s c = false)
    (ops : List CapOp) :
    (∀ l, l <+: ops → HtModeSays (capRun (startApMode b) l) (associated l)) ↔
      ∀ s r, CapOp.join s r ∈ ops → Capable b r := by
  constructor
  · intro h s r hmem
    obtain ⟨xs, ys, rfl⟩ := List.append_of_mem hmem
    have hpre : xs ++ [.join s r] <+: xs ++ .join s r :: ys := ⟨ys, by simp⟩
    obtain ⟨hmode, -, hinfo, -⟩ := capRun_htOpMode hht (xs ++ [.join s r])
    refine capable_of_htModeSays (h _ hpre) hmode hinfo (s := s) ?_
    rw [associated_join, if_pos rfl]
  · intro h l hl
    have hcap : ∀ s r, CapOp.join s r ∈ l → Capable b r := fun s r hm => h s r (hl.subset hm)
    obtain ⟨hmode, -, hinfo, holbc⟩ := capRun_htOpMode hht l
    have hb := counted_start hfresh
    refine htModeSays_of_capable hmode hinfo holbc ?_ ?_ fun s r hs => hcap s r (associated_mem hs)
    · exact capRun_num_zero (b := startApMode b) hfresh hb fun s r hm => (hcap s r hm).2.1
    · exact capRun_num_zero (b := startApMode b) hfresh hb fun s r hm => (hcap s r hm).1

end HtMode

/-- A greenfield station that associates and leaves again. -/
def sampleVisit : List CapOp := [.join 1 { ht := true, htCapInfo := 0x0010 }, .leave 1]

/-- An HT access point with a greenfield station that comes and goes. -/
theorem ht_mode_follows_sample :
    HtModeSays (capRun (startApMode { htOption := true }) sampleVisit) (associated sampleVisit) := by
  refine (ht_mode_follows rfl (fun _ _ => rfl) sampleVisit).mpr ?_ _ (List.prefix_refl _)
  intro s r hmem
  have hr : s = 1 ∧ r = { ht := true, htCapInfo := 0x0010 } := by simpa [sampleVisit] using hmem
  rw [hr.2]
  decide

/-- An HT access point does not notice that a station without HT has joined. -/
theorem ht_mode_stays_pure : ¬ HtModeSays
    (capRun (startApMode { htOption := true }) [.join 1 {}]) (associated [.join 1 {}]) := by
  intro h
  obtain ⟨hmode, -, hinfo, -⟩ :=
    capRun_htOpMode (b := { htOption := true }) rfl [.join 1 {}]
  exact absurd (capable_of_htModeSays h hmode hinfo (s := 1) rfl) (by decide)

/-! ## The ERP element -/

/-- A started access point with an ERP element in its beacon, and counters that count. -/
structure ErpStarted (b : Bss) : Prop where
  started : b.bstartBss = true
  enabled : b.erpEnable = true
  element : ∃ p len, b.network.getIe erpinfoIe = some (p, len + 1)
  counted : Counted b

/-- **What the ERP element should say**: the bits for non-ERP stations and protection when
there is a non-ERP station, the Barker bit when a station has no short preamble. -/
def ErpSays (b : Bss) : Prop :=
  ∃ p len, b.network.getIe erpinfoIe = some (p, len + 1) ∧
    ((b.network.ies (p + 2)).toBitVec.getLsbD 0 = true ↔ 0 < b.num .nonErp) ∧
    ((b.network.ies (p + 2)).toBitVec.getLsbD 1 = true ↔ 0 < b.num .nonErp) ∧
    ((b.network.ies (p + 2)).toBitVec.getLsbD 2 = true ↔ 0 < b.num .noShortPreamble)

section Erp

variable {b : Bss}

theorem erpOctet_bits (b : Bss) (d : UInt8) :
    ((erpOctet b d).toBitVec.getLsbD 0 = true ↔ b.num .nonErp = 1) ∧
      ((erpOctet b d).toBitVec.getLsbD 1 = true ↔ b.num .nonErp = 1) ∧
      ((erpOctet b d).toBitVec.getLsbD 2 = true ↔ 0 < b.num .noShortPreamble) := by
  unfold erpOctet
  by_cases h1 : b.num .nonErp = 1 <;> by_cases h2 : b.num .noShortPreamble > 0 <;>
    simp [h1, h2]

/-- The element stays where it is when its octet is rewritten. -/
theorem updateBcnErpinfoIe_found (he : b.erpEnable = true) {p len : Nat}
    (h : b.network.getIe erpinfoIe = some (p, len + 1)) :
    (updateBcnErpinfoIe b).network.getIe erpinfoIe = some (p, len + 1) ∧
      (updateBcnErpinfoIe b).network.ies (p + 2) = erpOctet b (b.network.ies (p + 2)) := by
  have hupd : (updateBcnErpinfoIe b).network = { b.network with
      ies := b.network.ies.write (p + 2) [erpOctet b (b.network.ies (p + 2))] } := by
    simp [updateBcnErpinfoIe, he, h]
  rw [hupd]
  constructor
  · exact rtwGetIe_congr h fun k hk => Mem.write_of_lt hk
  · exact @Mem.write_inside b.network.ies (p + 2) 0 [erpOctet b (b.network.ies (p + 2))]
      Nat.zero_lt_one

/-- A counter with a flag set is not zero. -/
theorem Counted.pos {s : StaSlot} {c : Cap} (h : Counted b) (hs : b.isSet s c = true) :
    0 < b.num c := by
  rw [h c]
  exact Int.natCast_pos.mpr (Finset.card_pos.mpr ⟨s, by simpa using hs⟩)

/-- A counter comes to zero or leaves it exactly at an edge. -/
theorem Counted.pos_iff {s : StaSlot} {c : Cap} {lacks : Bool} (h : Counted b) :
    (0 < b.num c + flagDelta (b.isSet s c) lacks ↔ 0 < b.num c) ↔ ¬ Edge b s c lacks := by
  have hnn := h.nonneg c
  unfold Edge flagDelta
  cases hs : b.isSet s c with
  | true =>
    have hp := h.pos hs
    cases lacks with
    | true => simp
    | false => simp; omega
  | false =>
    cases lacks with
    | true => simp; omega
    | false => simp

/-- At an edge the counter is one or zero afterwards. -/
theorem Edge.eq_one_iff {s : StaSlot} {c : Cap} {lacks : Bool} (h : Edge b s c lacks) :
    b.num c + flagDelta (b.isSet s c) lacks = 1 ↔ 0 < b.num c + flagDelta (b.isSet s c) lacks := by
  unfold flagDelta
  rcases h with ⟨hl, hs, hn⟩ | ⟨hl, hs, hn⟩
  · simp [hl, hs, hn]
  · simp [hl, hs, hn]

/-- What the three counters of a call leave behind, for a state `y` that agrees with them. -/
theorem threeSteps_erp {x y : Bss} {s : StaSlot} {l1 l2 l3 : Bool} (hx : x.bstartBss = true)
    (hnet : y.network = (threeSteps x s l1 l2 l3).network)
    (hnum : ∀ c, c = .nonErp ∨ c = .noShortPreamble →
      y.num c = (threeSteps x s l1 l2 l3).num c) :
    y.network = (if Edge x s .nonErp l2 then
        (updateBcnErpinfoIe { x with num := y.num }).network else x.network) ∧
      y.num .nonErp = x.num .nonErp + flagDelta (x.isSet s .nonErp) l2 ∧
      y.num .noShortPreamble =
        x.num .noShortPreamble + flagDelta (x.isSet s .noShortPreamble) l1 := by
  refine ⟨?_, ?_, ?_⟩
  · rw [hnet, threeSteps_network x s hx]
    split
    · exact updateBcnErpinfoIe_network rfl rfl (hnum _ (Or.inl rfl)).symm
        (hnum _ (Or.inr rfl)).symm
    · rfl
  · rw [hnum _ (Or.inl rfl), threeSteps_num_nonErp, countStep_fst]
    simp
  · rw [hnum _ (Or.inr rfl), threeSteps_num_noShortPreamble, countStep_fst]
    simp

/-- **What one call does** to the two counters and the ERP element. -/
theorem capOp_erp (hb : b.bstartBss = true) (op : CapOp) :
    (capOp b op).network = (if Edge b op.slot .nonErp (op.lacks .nonErp) then
        (updateBcnErpinfoIe { b with num := (capOp b op).num }).network else b.network) ∧
      (capOp b op).num .nonErp =
        b.num .nonErp + flagDelta (b.isSet op.slot .nonErp) (op.lacks .nonErp) ∧
      (capOp b op).num .noShortPreamble = b.num .noShortPreamble +
        flagDelta (b.isSet op.slot .noShortPreamble) (op.lacks .noShortPreamble) := by
  cases op with
  | join s r =>
    obtain ⟨hnet, hnum⟩ := join_rest (b.setCaps s r) s
    rw [setCaps_caps] at hnet hnum
    obtain ⟨h1, h2, h3⟩ := threeSteps_erp (x := b.setCaps s r) hb hnet hnum
    refine ⟨?_, h2, h3⟩
    have hsame := @updateBcnErpinfoIe_network
      { b with num := (bssCapUpdateOnStaJoin (b.setCaps s r) s).1.num }
      { b.setCaps s r with num := (bssCapUpdateOnStaJoin (b.setCaps s r) s).1.num }
      rfl rfl rfl rfl
    rw [hsame] at h1
    exact h1
  | leave s =>
    obtain ⟨hnet, hnum⟩ := leave_rest b s
    exact threeSteps_erp hb hnet hnum

theorem ErpStarted.capOp (h : ErpStarted b) (op : CapOp) : ErpStarted (Rtl8812au.capOp b op) := by
  obtain ⟨h1, h2, -⟩ := capOp_setup b op
  refine ⟨h1.trans h.started, h2.trans h.enabled, ?_, h.counted.capOp op⟩
  obtain ⟨p, len, hp⟩ := h.element
  refine ⟨p, len, ?_⟩
  rw [(capOp_erp h.started op).1]
  split
  · exact (updateBcnErpinfoIe_found (b := { b with num := (Rtl8812au.capOp b op).num })
      h.enabled hp).1
  · exact hp

/-- **One call keeps the ERP element right exactly when a change of the preamble counter
comes with a change of the other one.** -/
theorem erpSays_capOp (h : ErpStarted b) (hsaid : ErpSays b) (op : CapOp) :
    ErpSays (capOp b op) ↔ (Edge b op.slot .noShortPreamble (op.lacks .noShortPreamble) →
      Edge b op.slot .nonErp (op.lacks .nonErp)) := by
  obtain ⟨p, len, hp, hb0, hb1, hb2⟩ := hsaid
  obtain ⟨hnet, he, hq⟩ := capOp_erp h.started op
  by_cases hedge : Edge b op.slot .nonErp (op.lacks .nonErp)
  · rw [if_pos hedge] at hnet
    refine ⟨fun _ _ => hedge, fun _ => ?_⟩
    obtain ⟨hfound, hoct⟩ :=
      updateBcnErpinfoIe_found (b := { b with num := (capOp b op).num }) h.enabled hp
    have hbits := erpOctet_bits { b with num := (capOp b op).num } (b.network.ies (p + 2))
    have hone : (capOp b op).num .nonErp = 1 ↔ 0 < (capOp b op).num .nonErp := by
      rw [he]
      exact hedge.eq_one_iff
    refine ⟨p, len, by rw [hnet, hfound], ?_⟩
    rw [hnet, hoct]
    exact ⟨hbits.1.trans hone, hbits.2.1.trans hone, hbits.2.2⟩
  · rw [if_neg hedge] at hnet
    have hsame : 0 < (capOp b op).num .nonErp ↔ 0 < b.num .nonErp := by
      rw [he]
      exact h.counted.pos_iff.mpr hedge
    constructor
    · rintro ⟨p', len', hp', -, -, hb2'⟩ hpre
      rw [hnet, hp] at hp'
      cases hp'
      rw [hnet, hb2, hq] at hb2'
      exact absurd hpre (h.counted.pos_iff.mp hb2'.symm)
    · intro himp
      have hno : ¬ Edge b op.slot .noShortPreamble (op.lacks .noShortPreamble) :=
        fun hc => hedge (himp hc)
      refine ⟨p, len, by rw [hnet, hp], ?_⟩
      rw [hnet, hsame, hq]
      exact ⟨hb0, hb1, hb2.trans (h.counted.pos_iff.mpr hno).symm⟩

theorem erpStarted_capRun (h : ErpStarted b) : ∀ l : List CapOp, ErpStarted (capRun b l) := by
  intro l
  induction l using List.reverseRecOn with
  | nil => exact h
  | append_singleton l op ih =>
    rw [capRun_snoc]
    exact ih.capOp op

/-- **The ERP element follows the counters through a run exactly when each call that moves
the preamble counter off or onto zero moves the non-ERP counter so too.** -/
theorem erp_follows (h : ErpStarted b) (hsaid : ErpSays b) (ops : List CapOp) :
    (∀ l, l <+: ops → ErpSays (capRun b l)) ↔
      ∀ l op, l ++ [op] <+: ops →
        Edge (capRun b l) op.slot .noShortPreamble (op.lacks .noShortPreamble) →
        Edge (capRun b l) op.slot .nonErp (op.lacks .nonErp) := by
  constructor
  · intro hall l op hpre
    have hl : ErpSays (capRun b l) := hall l ((List.prefix_append l [op]).trans hpre)
    refine (erpSays_capOp (erpStarted_capRun h l) hl op).mp ?_
    rw [← capRun_snoc]
    exact hall _ hpre
  · intro hcond l
    induction l using List.reverseRecOn with
    | nil => intro _; exact hsaid
    | append_singleton l op ih =>
      intro hpre
      rw [capRun_snoc]
      refine (erpSays_capOp (erpStarted_capRun h l) ?_ op).mpr (hcond l op hpre)
      exact ih ((List.prefix_append l [op]).trans hpre)

end Erp

/-- A started access point whose beacon has only a clear ERP element. -/
def sampleBss : Bss where
  bstartBss := true
  erpEnable := true
  curWirelessMode := 3
  network := ⟨fun k => if k = 12 then 42 else if k = 13 then 1 else 0, 15⟩

theorem sampleBss_started : ErpStarted sampleBss where
  started := rfl
  enabled := rfl
  element := ⟨12, 0, by decide⟩
  counted := counted_start (b := sampleBss) fun _ _ => rfl

theorem sampleBss_says : ErpSays sampleBss :=
  ⟨12, 0, by decide, by decide, by decide, by decide⟩

/-- An 802.11b station without short preamble comes and goes. -/
theorem erp_follows_sample : ErpStarted sampleBss ∧ ErpSays sampleBss ∧
    ∀ l, l <+: [CapOp.join 1 { nonerp := true }, .leave 1] → ErpSays (capRun sampleBss l) := by
  refine ⟨sampleBss_started, sampleBss_says,
    (erp_follows sampleBss_started sampleBss_says _).mpr ?_⟩
  intro l op hpre _
  match l, hpre with
  | [], hpre =>
    rw [(List.cons_prefix_cons.mp hpre).1]
    decide
  | [x], hpre =>
    obtain ⟨rfl, hrest⟩ := List.cons_prefix_cons.mp hpre
    rw [(List.cons_prefix_cons.mp hrest).1]
    decide
  | x :: y :: zs, hpre =>
    have hlen := hpre.length_le
    simp at hlen

/-- An ERP station without short preamble does not get the Barker bit set. -/
theorem erp_misses_barker : ErpStarted sampleBss ∧ ErpSays sampleBss ∧
    ¬ ErpSays (capRun sampleBss [.join 1 {}]) := by
  refine ⟨sampleBss_started, sampleBss_says, fun h => ?_⟩
  have := (erpSays_capOp sampleBss_started sampleBss_says (.join 1 {})).mp h
  exact absurd (this (by decide)) (by decide)

end Rtl8812au
