import Rtl8812au.Hal.PwrSeq
import Rtl8812au.Lib.Reach

/-!
# A power sequence does what its table says, or gives up

A table with an end mark is a program on the bus. The parser runs it: it never leaves the table, it succeeds
just when the polls of the whole program find what they wait for within one budget, and the bits of the chip
that keep what is written to them are left as the writes made them, up to the poll that was given up.
-/

namespace Rtl8812au

variable {δ : Type} {bus : Bus UInt16 δ} {cutVersion fabVersion interfaceType : UInt8} {d d' d'' : δ}
  {left n : Nat} {c : WlanPwrCfg} {cs : List WlanPwrCfg} {prog rest : List (BusCmd UInt16)}

/-! ## The program of a table -/

/-- What a matched command is on the bus. A read is left to the driver, which does not do it. -/
def WlanPwrCfg.busCmd (c : WlanPwrCfg) : Option (BusCmd UInt16) :=
  if c.cmd = pwrCmdWrite then some (.write c.offset c.msk c.value)
  else if c.cmd = pwrCmdPolling then some (.poll c.offset c.msk c.value)
  else if c.cmd = pwrCmdDelay then
    some (.wait (if c.value = pwrseqDelayUs then c.offset.toNat else c.offset.toNat * 1000))
  else none

/-- The commands up to the end mark, if there is one. -/
def pwrProgram (cutVersion fabVersion interfaceType : UInt8) : List WlanPwrCfg → Option (List (BusCmd UInt16))
  | [] => none
  | c :: cs =>
    if !c.matched cutVersion fabVersion interfaceType then pwrProgram cutVersion fabVersion interfaceType cs
    else if c.cmd = pwrCmdEnd then some []
    else (pwrProgram cutVersion fabVersion interfaceType cs).map (c.busCmd.toList ++ ·)

/-! ## Polling -/

/-- A command that polls: it is found within what is left, or not at all. -/
theorem pollingLoop_spec :
    ∀ {left : Nat} {d : δ}, ∃ found left' d', pollingLoop bus c left d = (found, left', d') ∧
      (found = true → left' < left ∧ ∀ {cs n d''}, bus.Runs 10 cs d' n d'' →
        bus.Runs 10 (.poll c.offset c.msk c.value :: cs) d (n + (left - left')) d'') ∧
      ∀ {cs n d''}, bus.Runs 10 (.poll c.offset c.msk c.value :: cs) d n d'' → n ≤ left →
        found = true ∧ ∃ m, n = m + (left - left') ∧ bus.Runs 10 cs d' m d'' := by
  intro left
  induction left with
  | zero =>
      intro d
      refine ⟨false, 0, _, rfl, nofun, fun hrun hn => ?_⟩
      obtain rfl := Nat.le_zero.mp hn
      cases hrun
  | succ left ih =>
      intro d
      by_cases hhit : (bus.read d c.offset).1 &&& c.msk = c.value &&& c.msk
      · refine ⟨true, left, (bus.read d c.offset).2, ?_, fun _ => ⟨Nat.lt_succ_self left, fun hrun => ?_⟩,
          fun hrun _ => ⟨rfl, ?_⟩⟩
        · rw [pollingLoop]
          simp only [hhit, if_true]
        · rw [Nat.add_sub_cancel_left]
          exact .hit hhit hrun
        · rw [Nat.add_sub_cancel_left]
          cases hrun with
          | hit _ hrun => exact ⟨_, rfl, hrun⟩
          | miss hmiss _ => exact absurd hhit hmiss
      · obtain ⟨found, left', d', hloop, hfound, hruns⟩ := ih (d := bus.wait (bus.read d c.offset).2 10)
        refine ⟨found, left', d', ?_, fun hf => ?_, fun hrun hn => ?_⟩
        · rw [pollingLoop]
          simp only [hhit, if_false]
          exact hloop
        · obtain ⟨hlt, hfound⟩ := hfound hf
          refine ⟨Nat.lt_succ_of_lt hlt, fun {cs n d''} hrun => ?_⟩
          rw [show n + (left + 1 - left') = n + (left - left') + 1 by omega]
          exact .miss hhit (hfound hrun)
        · cases hrun with
          | hit hh _ => exact absurd hh hhit
          | miss _ hrun =>
              obtain ⟨hf, m, hm, hrest⟩ := hruns hrun (Nat.le_of_succ_le_succ hn)
              have hlt := (hfound hf).1
              exact ⟨hf, m, by omega, hrest⟩

/-- Polling leaves the bits that are kept. -/
theorem pollingLoop_val {val : δ → UInt16 → UInt8} {stable : UInt16 → UInt8} (hk : bus.Keeps val stable)
    (b : UInt16) : ∀ {left : Nat} {d : δ},
      val (pollingLoop bus c left d).2.2 b &&& stable b = val d b &&& stable b := by
  have hone : ∀ d : δ, val (if (bus.read d c.offset).1 &&& c.msk = c.value &&& c.msk then (bus.read d c.offset).2
      else bus.wait (bus.read d c.offset).2 10) b &&& stable b = val d b &&& stable b := by
    intro d
    split
    · exact hk.read_keeps d _ b
    · rw [hk.wait_keeps, hk.read_keeps]
  intro left
  induction left with
  | zero =>
      intro d
      have h := hone d
      simpa [pollingLoop] using h
  | succ left ih =>
      intro d
      have h := hone d
      rw [pollingLoop]
      by_cases hhit : (bus.read d c.offset).1 &&& c.msk = c.value &&& c.msk
      · simpa [hhit] using h
      · rw [if_neg hhit] at h
        simp only [hhit, if_false]
        rw [ih, h]

/-! ## The parser -/

/-- **What a run of the parser comes to**, with so many polls left. -/
structure PwrSeqKept (bus : Bus UInt16 δ) (prog : List (BusCmd UInt16)) (left : Nat) (d : δ) (ok : Bool) (d' : δ) :
    Prop where
  /-- It succeeds when the program has run within these polls. -/
  done : ok = true → ∃ n ≤ left, bus.Runs 10 prog d n d'
  /-- It fails when the program needs more. -/
  gaveUp : ok = false → ∀ n d'', bus.Runs 10 prog d n d'' → left < n
  /-- The bits that are kept are as the writes left them: all of them, or those before a poll. -/
  kept : ∀ val stable, bus.Keeps val stable → ∃ pre, (ok = true → pre = prog) ∧
    (ok = false → ∃ a mask value, pre ++ [.poll a mask value] <+: prog) ∧
    ∀ b, val d' b &&& stable b = Bus.applyWrites (val d) pre b &&& stable b

/-- A command in front that does not poll. -/
theorem PwrSeqKept.cons {cmd : BusCmd UInt16} {ok : Bool} (hcmd : ∀ a mask value, cmd ≠ .poll a mask value)
    (hrun : ∀ {prog n d''}, bus.Runs 10 (cmd :: prog) d n d'' ↔ bus.Runs 10 prog d' n d'')
    (h : PwrSeqKept bus prog left d' ok d'') : PwrSeqKept bus (cmd :: prog) left d ok d'' := by
  refine ⟨fun hok => ?_, fun hok n x hx => h.gaveUp hok n x (hrun.mp hx), fun val stable hk => ?_⟩
  · obtain ⟨n, hn, hruns⟩ := h.done hok
    exact ⟨n, hn, hrun.mpr hruns⟩
  · obtain ⟨pre, hpre, hfail, hval⟩ := h.kept val stable hk
    refine ⟨cmd :: pre, fun hok => by rw [hpre hok], fun hok => ?_, fun b => ?_⟩
    · obtain ⟨a, mask, value, hprefix⟩ := hfail hok
      exact ⟨a, mask, value, (List.prefix_cons_inj cmd).mpr hprefix⟩
    · have hone := (hrun.mpr .nil : bus.Runs 10 [cmd] d 0 d').val hk
      rw [hval]
      cases cmd with
      | write a mask value => exact Bus.applyWrites_congr pre (fun b => hone b) b
      | poll a mask value => exact absurd rfl (hcmd a mask value)
      | wait us => exact Bus.applyWrites_congr pre (fun b => hone b) b

/-- A poll in front that was found. -/
theorem PwrSeqKept.poll {left' : Nat} {ok : Bool} (hlt : left' < left)
    (hrun : ∀ {prog n d''}, bus.Runs 10 prog d' n d'' →
      bus.Runs 10 (.poll c.offset c.msk c.value :: prog) d (n + (left - left')) d'')
    (hback : ∀ {prog n d''}, bus.Runs 10 (.poll c.offset c.msk c.value :: prog) d n d'' → n ≤ left →
      ∃ m, n = m + (left - left') ∧ bus.Runs 10 prog d' m d'')
    (h : PwrSeqKept bus prog left' d' ok d'') :
    PwrSeqKept bus (.poll c.offset c.msk c.value :: prog) left d ok d'' := by
  refine ⟨fun hok => ?_, fun hok n x hx => Nat.lt_of_not_le fun hn => ?_, fun val stable hk => ?_⟩
  · obtain ⟨n, hn, hruns⟩ := h.done hok
    exact ⟨n + (left - left'), by omega, hrun hruns⟩
  · obtain ⟨m, hm, hruns⟩ := hback hx hn
    have hmore := h.gaveUp hok m x hruns
    omega
  · obtain ⟨pre, hpre, hfail, hval⟩ := h.kept val stable hk
    refine ⟨.poll c.offset c.msk c.value :: pre, fun hok => by rw [hpre hok], fun hok => ?_, fun b => ?_⟩
    · obtain ⟨a, mask, value, hprefix⟩ := hfail hok
      exact ⟨a, mask, value, (List.prefix_cons_inj _).mpr hprefix⟩
    · have hone := (hrun .nil).val hk
      rw [hval]
      exact Bus.applyWrites_congr pre (fun b => hone b) b

/-- **The parser runs the program of its table**, from any place on. -/
theorem halPwrSeqCmdParsingFrom_kept :
    ∀ {cs : List WlanPwrCfg} {prog : List (BusCmd UInt16)} {left : Nat} {d : δ},
      pwrProgram cutVersion fabVersion interfaceType cs = some prog →
      ∃ ok d', halPwrSeqCmdParsingFrom bus cutVersion fabVersion interfaceType cs left d = .done (ok, d')
        ∧ PwrSeqKept bus prog left d ok d' := by
  intro cs
  induction cs with
  | nil => intro prog left d h; cases h
  | cons c cs ih =>
      intro prog left d h
      unfold pwrProgram at h
      unfold halPwrSeqCmdParsingFrom
      dsimp only
      -- an entry for another chip is passed over on both sides
      by_cases hmatched : c.matched cutVersion fabVersion interfaceType = true
      · rw [if_neg (by rw [hmatched]; exact Bool.false_ne_true)] at h ⊢
        by_cases hend : c.cmd = pwrCmdEnd
        · rw [if_pos hend] at h
          cases h
          rw [if_neg (by rw [hend]; decide), if_neg (by rw [hend]; decide), if_neg (by rw [hend]; decide),
            if_pos hend]
          refine ⟨true, d, rfl, fun _ => ⟨0, Nat.zero_le _, .nil⟩, nofun, fun val stable _ => ?_⟩
          exact ⟨[], fun _ => rfl, nofun, fun _ => rfl⟩
        · rw [if_neg hend] at h
          obtain ⟨rest, hrest, rfl⟩ := Option.map_eq_some_iff.mp h
          unfold WlanPwrCfg.busCmd
          by_cases hwrite : c.cmd = pwrCmdWrite
          · rw [if_pos hwrite, if_pos hwrite]
            obtain ⟨ok, d', hpar, hkept⟩ := @ih _ left
              (bus.writeMasked d c.offset c.msk c.value) hrest
            refine ⟨ok, d', hpar, hkept.cons nofun ⟨fun hr => ?_, .write⟩⟩
            cases hr with
            | write hr => exact hr
          · rw [if_neg hwrite, if_neg hwrite]
            by_cases hpoll : c.cmd = pwrCmdPolling
            · rw [if_pos hpoll, if_pos hpoll]
              -- a poll uses up reads, and where it finds nothing the parser ends
              obtain ⟨found, left', d₁, hloop, hfound, hback⟩ :=
                @pollingLoop_spec δ bus c left d
              rw [hloop]
              cases found with
              | true =>
                  obtain ⟨hlt, hrun⟩ := hfound rfl
                  obtain ⟨ok, d', hpar, hkept⟩ := @ih _ left' d₁ hrest
                  exact ⟨ok, d', hpar, hkept.poll hlt hrun fun hr hn => (hback hr hn).2⟩
              | false =>
                  refine ⟨false, d₁, rfl, nofun, fun _ n x hx => Nat.lt_of_not_le fun hn => ?_,
                    fun val stable hk => ⟨[], nofun, fun _ => ?_, fun b => ?_⟩⟩
                  · exact Bool.false_ne_true (hback hx hn).1
                  · exact ⟨c.offset, c.msk, c.value, (List.prefix_cons_inj _).mpr List.nil_prefix⟩
                  · have hval := @pollingLoop_val δ bus c val stable hk b left d
                    rw [hloop] at hval
                    exact hval
            · rw [if_neg hpoll, if_neg hpoll]
              by_cases hdelay : c.cmd = pwrCmdDelay
              · rw [if_pos hdelay, if_pos hdelay]
                obtain ⟨ok, d', hpar, hkept⟩ := @ih _ left (bus.wait d
                  (if c.value = pwrseqDelayUs then c.offset.toNat else c.offset.toNat * 1000)) hrest
                refine ⟨ok, d', hpar, hkept.cons nofun ⟨fun hr => ?_, .wait⟩⟩
                cases hr with
                | wait hr => exact hr
              · rw [if_neg hdelay, if_neg hdelay, if_neg hend]
                exact ih hrest
      · rw [if_pos (by rw [Bool.eq_false_iff.mpr hmatched]; rfl)] at h ⊢
        exact ih h

/-- **A power sequence does what its table says, or gives up**, on any chip: a table with an end mark is never
left, and the 5001 polls are for the whole of it. -/
theorem halPwrSeqCmdParsing_kept
    (h : pwrProgram cutVersion fabVersion interfaceType cs = some prog) :
    ∃ ok d', halPwrSeqCmdParsing bus cutVersion fabVersion interfaceType cs d = .done (ok, d')
      ∧ PwrSeqKept bus prog (maxPollingCnt + 1) d ok d' := halPwrSeqCmdParsingFrom_kept h

/-! ## Taking the card up -/

/-- What the card is told over USB when it is enabled. -/
def cardEnableProgram : List (BusCmd UInt16) :=
  [.write 0x0012 0x01 0x01, .write 0x0014 0x80 0, .write 0x0015 0x01 0, .write 0x0023 0x10 0,
    .write 0x0046 0xff 0x00, .write 0x0043 0xff 0x00, .write 0x0005 0x08 0, .write 0x0003 0x04 0x04,
    .write 0x0005 0x04 0, .poll 0x0006 0x02 0x02, .write 0x0005 0x08 0, .write 0x0005 0x01 0x01,
    .poll 0x0005 0x01 0]

theorem cardEnable_program : pwrProgram pwrCutAllMsk pwrFabAllMsk pwrIntfUsbMsk rtl8812CardEnableFlow
    = some cardEnableProgram := rfl

/-- **An enabled card has its power**: if bit 1 of register 6 is a sign that is not lost again, then what it
is a sign of holds when the sequence succeeds. -/
theorem cardEnable_ready {ready : δ → Prop} (hsticky : bus.Sticky ready)
    (hsign : ∀ d, bus.Hits d 0x0006 0x02 0x02 → ready (bus.read d 0x0006).2)
    (h : halPwrSeqCmdParsing bus pwrCutAllMsk pwrFabAllMsk pwrIntfUsbMsk rtl8812CardEnableFlow d
      = .done (true, d')) : ready d' := by
  obtain ⟨ok, d'', hpar, hkept⟩ := @halPwrSeqCmdParsingFrom_kept δ bus _ _ _ _ _ (maxPollingCnt + 1) d
    cardEnable_program
  have heq : Outcome.done (ok, d'') = Outcome.done (true, d') := hpar.symm.trans h
  cases heq
  obtain ⟨n, -, hrun⟩ := hkept.done rfl
  exact Bus.Triple.found hsticky hsign (by decide) _ _ _ trivial hrun

/-- A chip that keeps all its bits but the one it clears itself, with its power up. -/
def sampleChip : Bus UInt16 (UInt16 → UInt8) where
  read := fun d a => (if a = 0x0005 then d a &&& 0xfe else if a = 0x0006 then d a ||| 0x02 else d a, d)
  write := fun d a x b => if b = a then x else d b
  wait := fun d _ => d

/-- The bits it keeps. -/
def sampleStable (a : UInt16) : UInt8 := if a = 0x0005 then 0xfe else if a = 0x0006 then 0xfd else 0xff

theorem sampleChip_keeps : sampleChip.Keeps id sampleStable where
  read := fun d a => by
    show (if a = 0x0005 then d a &&& 0xfe else if a = 0x0006 then d a ||| 0x02 else d a) &&& sampleStable a
      = d a &&& sampleStable a
    unfold sampleStable
    split_ifs
    · rw [UInt8.and_assoc]
      rfl
    · exact UInt8.toBitVec_inj.mp (BitVec.and_or_distrib_right.trans (BitVec.or_zero))
    · rfl
  read_keeps := fun _ _ _ => rfl
  write := fun d a x => congrArg (· &&& sampleStable a) (if_pos rfl)
  write_keeps := fun d a x b hb => congrArg (· &&& sampleStable b) (if_neg hb)
  wait_keeps := fun _ _ _ => rfl

/-- The card comes up, and but for the bits that change by themselves its registers are as the table has
written them. -/
theorem halPwrSeqCmdParsing_kept_sample : ∃ d',
    halPwrSeqCmdParsing sampleChip pwrCutAllMsk pwrFabAllMsk pwrIntfUsbMsk rtl8812CardEnableFlow (fun _ => 0)
      = .done (true, d') ∧ PwrSeqKept sampleChip cardEnableProgram (maxPollingCnt + 1) (fun _ => 0) true d' ∧
      ∀ b, d' b &&& sampleStable b = Bus.applyWrites (fun _ => 0) cardEnableProgram b &&& sampleStable b := by
  have hview : (halPwrSeqCmdParsing sampleChip pwrCutAllMsk pwrFabAllMsk pwrIntfUsbMsk rtl8812CardEnableFlow
      (fun _ => 0)).view Prod.fst = some true := by decide +kernel
  obtain ⟨ok, d', hpar, hkept⟩ := @halPwrSeqCmdParsing_kept _ sampleChip _ _ _ (fun _ => 0) _ _
    cardEnable_program
  have hok : ok = true := Outcome.view_done hpar hview
  subst hok
  obtain ⟨pre, hpre, -, hval⟩ := hkept.kept id sampleStable sampleChip_keeps
  refine ⟨d', hpar, hkept, fun b => ?_⟩
  rw [hpre rfl] at hval
  exact hval b

end Rtl8812au
