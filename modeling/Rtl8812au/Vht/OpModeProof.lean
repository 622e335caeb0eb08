import Mathlib.Data.List.Induction
import Mathlib.Data.Nat.Find
import Rtl8812au.Vht.OpMode

/-!
# Operating mode notifications are not undone

A notification marks the streams above its Rx NSS in the station's map, and this is the only
copy of the map: after some notifications it has the streams that all of them leave. The map
goes by the last notification exactly as long as none asks for more streams than one before it
has left.
-/

namespace Rtl8812au

namespace Vht

/-- The two bits of stream `k`. -/
def McsMap.rate (m : McsMap) (k : Nat) : UInt8 :=
  if k < 4 then bitMap m.b0 (UInt8.ofNat (2 * k)) else bitMap m.b1 (UInt8.ofNat (2 * (k - 4)))

/-- The supported streams are the lowest ones. -/
def LowestStreams (m : McsMap) : Prop :=
  ∀ j k, j ≤ k → k < 8 → m.rate j = 3 → m.rate k = 3

/-- `m` is `M` with every stream from `n` on marked unsupported. -/
def Upto (M : McsMap) (n : Nat) (m : McsMap) : Prop :=
  ∀ k < 8, m.rate k = if k < n then M.rate k else 3

/-- What an operating mode notification is to leave of `M`. -/
def FollowsLast (M : McsMap) (field : UInt8) (m : McsMap) : Prop :=
  Upto M (targetRxss field) m
    ∧ rtwVhtMcsmapToNss m = min (targetRxss field) (rtwVhtMcsmapToNss M)

/-! ## One byte of the map -/

/-- Four pairs of bits laid into a byte are found there. -/
theorem bitMap_packed : ∀ r0 r1 r2 r3 : Fin 4,
    let b := ((((0 : UInt8) ||| UInt8.ofNat r0 <<< 0) ||| UInt8.ofNat r1 <<< 2) ||| UInt8.ofNat r2 <<< 4)
      ||| UInt8.ofNat r3 <<< 6
    bitMap b 0 = UInt8.ofNat r0 ∧ bitMap b 2 = UInt8.ofNat r1 ∧ bitMap b 4 = UInt8.ofNat r2
      ∧ bitMap b 6 = UInt8.ofNat r3 := by
  decide

/-- A target rate is one of the four. -/
theorem targetRate_fin (nss k : Nat) (b j : UInt8) :
    ∃ r : Fin 4, targetRate nss k (bitMap b j) = UInt8.ofNat r := by
  have hand : ∀ x : BitVec 8, ∃ r : Fin 4, (⟨x⟩ : UInt8) &&& 3 = UInt8.ofNat r := by decide
  unfold targetRate
  split
  · exact ⟨3, rfl⟩
  · split
    · exact ⟨3, rfl⟩
    · exact hand (b >>> j).toBitVec

theorem bitMap_targetByte (nss i : Nat) (cur : UInt8) :
    bitMap (targetByte nss i cur) 0 = targetRate nss (0 + i * 4) (bitMap cur 0)
      ∧ bitMap (targetByte nss i cur) 2 = targetRate nss (1 + i * 4) (bitMap cur 2)
      ∧ bitMap (targetByte nss i cur) 4 = targetRate nss (2 + i * 4) (bitMap cur 4)
      ∧ bitMap (targetByte nss i cur) 6 = targetRate nss (3 + i * 4) (bitMap cur 6) := by
  obtain ⟨r0, h0⟩ := targetRate_fin nss (0 + i * 4) cur 0
  obtain ⟨r1, h1⟩ := targetRate_fin nss (1 + i * 4) cur 2
  obtain ⟨r2, h2⟩ := targetRate_fin nss (2 + i * 4) cur 4
  obtain ⟨r3, h3⟩ := targetRate_fin nss (3 + i * 4) cur 6
  have hbyte : targetByte nss i cur
      = ((((0 : UInt8) ||| targetRate nss (0 + i * 4) (bitMap cur 0) <<< 0)
        ||| targetRate nss (1 + i * 4) (bitMap cur 2) <<< 2)
        ||| targetRate nss (2 + i * 4) (bitMap cur 4) <<< 4)
        ||| targetRate nss (3 + i * 4) (bitMap cur 6) <<< 6 := rfl
  rw [hbyte, h0, h1, h2, h3]
  exact bitMap_packed r0 r1 r2 r3

theorem mcsByteNss_eq (b : UInt8) :
    mcsByteNss b = [0, 2, 4, 6].countP fun j => bitMap b j != 3 := by
  unfold mcsByteNss
  split
  · rfl
  · next h =>
    have hb : b = 0xff := by simpa using h
    subst hb
    decide

/-! ## The map -/

/-- A target rate is that of the map below the Rx NSS, and none from there on. -/
theorem targetRate_eq (nss k : Nat) (r : UInt8) : targetRate nss k r = if k < nss then r else 3 := by
  unfold targetRate
  by_cases hr : r = 3
  · subst hr
    simp
  · have hbeq : (r == 3) = false := beq_eq_false_iff_ne.mpr hr
    rw [hbeq, if_neg Bool.false_ne_true]
    by_cases hk : k < nss
    · rw [if_neg (by omega), if_pos hk]
    · rw [if_pos (by omega), if_neg hk]

/-- **`rtw_vht_nss_to_mcsmap`**, stream by stream. -/
theorem rate_nssToMcsmap (nss : Nat) (m : McsMap) {k : Nat} (hk : k < 8) :
    (rtwVhtNssToMcsmap nss m).rate k = if k < nss then m.rate k else 3 := by
  rw [← targetRate_eq]
  obtain ⟨h0, h1, h2, h3⟩ := bitMap_targetByte nss 0 m.b0
  obtain ⟨h4, h5, h6, h7⟩ := bitMap_targetByte nss 1 m.b1
  match k, hk with
  | 0, _ => exact h0
  | 1, _ => exact h1
  | 2, _ => exact h2
  | 3, _ => exact h3
  | 4, _ => exact h4
  | 5, _ => exact h5
  | 6, _ => exact h6
  | 7, _ => exact h7

/-- **`rtw_vht_mcsmap_to_nss`** counts the supported streams. -/
theorem mcsmapToNss_eq (m : McsMap) :
    rtwVhtMcsmapToNss m = (List.range 8).countP fun k => m.rate k != 3 := by
  have hlow : (List.range 4).countP (fun k => m.rate k != 3) = mcsByteNss m.b0 := by
    rw [mcsByteNss_eq]
    rfl
  have hhigh : ((List.range 4).map (4 + ·)).countP (fun k => m.rate k != 3) = mcsByteNss m.b1 := by
    rw [mcsByteNss_eq]
    rfl
  have hsplit : List.range 8 = List.range 4 ++ (List.range 4).map (4 + ·) := rfl
  rw [hsplit, List.countP_append, hlow, hhigh]
  rfl

/-- The first `n` of eight. -/
theorem countP_below {n : Nat} (hn : n ≤ 8) (P : Nat → Bool) (hP : ∀ k < 8, P k = decide (k < n)) :
    (List.range 8).countP P = n := by
  have hcongr : (List.range 8).countP P = (List.range 8).countP fun k => decide (k < n) :=
    List.countP_congr fun k hk => by rw [hP k (List.mem_range.mp hk)]
  rw [hcongr]
  have hall : ∀ n : Fin 9, (List.range 8).countP (fun k => decide (k < n.val)) = n := by decide
  exact hall ⟨n, by omega⟩

/-- Where the supported streams end. -/
theorem LowestStreams.supported {M : McsMap} (h : LowestStreams M) :
    rtwVhtMcsmapToNss M ≤ 8 ∧ ∀ k < 8, (M.rate k = 3 ↔ rtwVhtMcsmapToNss M ≤ k) := by
  have hend : ∃ n ≤ 8, ∀ k < 8, (M.rate k = 3 ↔ n ≤ k) := by
    by_cases hex : ∃ k, k < 8 ∧ M.rate k = 3
    · have hfirst := Nat.find_spec hex
      refine ⟨Nat.find hex, by omega, fun k hk => ⟨fun hr => Nat.find_min' hex ⟨hk, hr⟩, fun hle => ?_⟩⟩
      exact h _ k hle hk hfirst.2
    · refine ⟨8, Nat.le_refl 8, fun k hk => ⟨fun hr => absurd ⟨k, hk, hr⟩ hex, fun hle => ?_⟩⟩
      omega
  obtain ⟨n, hn, hrate⟩ := hend
  have hnss : rtwVhtMcsmapToNss M = n := by
    rw [mcsmapToNss_eq]
    refine countP_below hn _ fun k hk => ?_
    by_cases hlt : k < n
    · have hne : M.rate k ≠ 3 := fun hr => by
        have := (hrate k hk).mp hr
        omega
      rw [decide_eq_true hlt]
      exact bne_iff_ne.mpr hne
    · rw [decide_eq_false hlt, (hrate k hk).mpr (by omega)]
      rfl
  rw [hnss]
  exact ⟨hn, hrate⟩

/-! ## What is left of the map -/

section

variable {M m : McsMap} {n n' : Nat}

/-- Marked twice, it is marked at the lower of the two. -/
theorem Upto.nssToMcsmap (h : Upto M n m) (nss : Nat) :
    Upto M (min n nss) (rtwVhtNssToMcsmap nss m) := by
  intro k hk
  rw [rate_nssToMcsmap nss m hk, h k hk]
  by_cases hn : k < n
  · rw [if_pos hn]
    by_cases hnss : k < nss
    · rw [if_pos hnss, if_pos (by omega)]
    · rw [if_neg hnss, if_neg (by omega)]
  · rw [if_neg hn, if_neg (by omega : ¬ k < min n nss)]
    split
    · rfl
    · rfl

/-- How many streams are left. -/
theorem Upto.nss (hM : LowestStreams M) (h : Upto M n m) :
    rtwVhtMcsmapToNss m = min n (rtwVhtMcsmapToNss M) := by
  obtain ⟨h8, hsup⟩ := hM.supported
  rw [mcsmapToNss_eq m]
  refine countP_below (by omega) _ fun k hk => ?_
  rw [h k hk]
  by_cases hn : k < n
  · rw [if_pos hn]
    by_cases hs : k < rtwVhtMcsmapToNss M
    · have hne : M.rate k ≠ 3 := fun hr => by
        have := (hsup k hk).mp hr
        omega
      rw [decide_eq_true (by omega)]
      exact bne_iff_ne.mpr hne
    · rw [decide_eq_false (by omega), (hsup k hk).mpr (by omega)]
      rfl
  · rw [if_neg hn, decide_eq_false (by omega)]
    rfl

/-- Marks above the streams that `M` has make no difference. -/
theorem Upto.congr (hM : LowestStreams M) (h : Upto M n m)
    (heq : min n (rtwVhtMcsmapToNss M) = min n' (rtwVhtMcsmapToNss M)) : Upto M n' m := by
  obtain ⟨-, hsup⟩ := hM.supported
  intro k hk
  rw [h k hk]
  by_cases hs : k < rtwVhtMcsmapToNss M
  · have hiff : k < n ↔ k < n' := by omega
    by_cases hn : k < n
    · rw [if_pos hn, if_pos (hiff.mp hn)]
    · rw [if_neg hn, if_neg (fun hn' => hn (hiff.mpr hn'))]
  · rw [(hsup k hk).mpr (by omega)]
    split
    · split
      · rfl
      · rfl
    · split
      · rfl
      · rfl

/-- **When it follows a notification**: when that asks for no more than is left. -/
theorem Upto.followsLast_iff (hM : LowestStreams M) (h : Upto M n m) (field : UInt8)
    (hle : n ≤ targetRxss field) :
    FollowsLast M field m ↔ min (targetRxss field) (rtwVhtMcsmapToNss M) ≤ n := by
  have hnss := h.nss hM
  constructor
  · intro hf
    have hmin := hf.2
    omega
  · intro hmin
    refine ⟨h.congr hM (by omega), ?_⟩
    omega

/-- One notification. -/
theorem Upto.notify (hM : LowestStreams M) {p : VhtPriv} (hp : p.vhtOption = true) (field : UInt8)
    {s : VhtSta} (h : Upto M n s.vhtMcsMap) :
    Upto M (min n (targetRxss field)) (rtwProcessVhtOpModeNotify p field s).sta.vhtMcsMap := by
  -- the bandwidth does not matter
  have hnss : ∀ (s' : VhtSta) (b : Bool), s'.vhtMcsMap = s.vhtMcsMap →
      Upto M (min n (targetRxss field))
        (if targetRxss field ≠ rtwVhtMcsmapToNss s'.vhtMcsMap then
          (⟨{ s' with vhtMcsMap := rtwVhtNssToMcsmap (targetRxss field) s'.vhtMcsMap }, true, true⟩ :
            OpModeResult)
        else ⟨s', false, b⟩).sta.vhtMcsMap := by
    intro s' b hs'
    rw [← hs'] at h
    split
    · exact h.nssToMcsmap _
    · have hleft := h.nss hM
      exact h.congr hM (by omega)
  unfold rtwProcessVhtOpModeNotify
  rw [hp, Bool.not_true, if_neg Bool.false_ne_true]
  dsimp only
  split
  · exact hnss _ _ rfl
  · exact hnss s _ rfl

end

/-! ## Runs -/

/-- The station after some notifications. -/
def notifyRun (p : VhtPriv) (s : VhtSta) (ops : List UInt8) : VhtSta :=
  ops.foldl (fun s field => (rtwProcessVhtOpModeNotify p field s).sta) s

/-- After each notification the map follows the last one. -/
def Reversible (p : VhtPriv) (s : VhtSta) (M : McsMap) (ops : List UInt8) : Prop :=
  ∀ before field, before ++ [field] <+: ops →
    FollowsLast M field (notifyRun p (updateStaVhtInfoApmode s M) (before ++ [field])).vhtMcsMap

/-- What some notifications leave of the eight streams. -/
def lowestRxss (ops : List UInt8) : Nat := ops.foldl (fun n field => min n (targetRxss field)) 8

theorem lowestRxss_append (ops : List UInt8) (field : UInt8) :
    lowestRxss (ops ++ [field]) = min (lowestRxss ops) (targetRxss field) := List.foldl_append

/-- **The run**: the map is marked from the lowest Rx NSS so far. -/
theorem upto_notifyRun {p : VhtPriv} (hp : p.vhtOption = true) {M : McsMap} (hM : LowestStreams M)
    (s : VhtSta) (ops : List UInt8) :
    Upto M (lowestRxss ops) (notifyRun p (updateStaVhtInfoApmode s M) ops).vhtMcsMap := by
  induction ops using List.reverseRecOn with
  | nil =>
    intro k hk
    exact (if_pos hk).symm
  | append_singleton ops field ih =>
    have hrun : notifyRun p (updateStaVhtInfoApmode s M) (ops ++ [field])
        = (rtwProcessVhtOpModeNotify p field
            (notifyRun p (updateStaVhtInfoApmode s M) ops)).sta := List.foldl_append
    rw [lowestRxss_append, hrun]
    exact ih.notify hM hp field

/-- Whatever frames `OnAction_vht` gets, what it does to a station is a run of notifications. -/
theorem onActionVht_run (p : VhtPriv) (myid : MacAddr) (lookup : MacAddr → Option Nat)
    (frames : List (Mem × Nat × MacAddr)) (sta : Nat → VhtSta) (k : Nat) :
    ∃ ops, (frames.foldl (fun t f => onActionVht p myid f.1 f.2.1 lookup f.2.2 t) sta) k
      = notifyRun p (sta k) ops := by
  induction frames generalizing sta with
  | nil => exact ⟨[], rfl⟩
  | cons f frames ih =>
    obtain ⟨ops, hops⟩ := ih (onActionVht p myid f.1 f.2.1 lookup f.2.2 sta)
    rw [List.foldl_cons, hops]
    have hone : onActionVht p myid f.1 f.2.1 lookup f.2.2 sta k = sta k
        ∨ onActionVht p myid f.1 f.2.1 lookup f.2.2 sta k
          = (rtwProcessVhtOpModeNotify p (f.1 (f.2.1 + 26)) (sta k)).sta := by
      unfold onActionVht
      split
      · exact Or.inl rfl
      · split
        · exact Or.inl rfl
        · split
          · cases lookup f.2.2 with
            | none => exact Or.inl rfl
            | some i =>
              by_cases hk : k = i
              · subst hk
                exact Or.inr (if_pos rfl)
              · exact Or.inl (if_neg hk)
          · exact Or.inl rfl
    rcases hone with h | h
    · rw [h]
      exact ⟨ops, rfl⟩
    · rw [h]
      exact ⟨f.1 (f.2.1 + 26) :: ops, rfl⟩

/-- Without `vht_option` nothing is done. -/
theorem notifyRun_off {p : VhtPriv} (hp : p.vhtOption = false) (s : VhtSta) (ops : List UInt8) :
    notifyRun p s ops = s := by
  induction ops generalizing s with
  | nil => rfl
  | cons field ops ih =>
    have hstep : (rtwProcessVhtOpModeNotify p field s).sta = s := by
      unfold rtwProcessVhtOpModeNotify
      rw [hp]
      rfl
    exact (congrArg (fun t => notifyRun p t ops) hstep).trans (ih s)

theorem le_lowestRxss_iff {n : Nat} (hn : n ≤ 8) (ops : List UInt8) :
    n ≤ lowestRxss ops ↔ ∀ field ∈ ops, n ≤ targetRxss field := by
  induction ops using List.reverseRecOn with
  | nil => exact ⟨fun _ _ h => absurd h List.not_mem_nil, fun _ => hn⟩
  | append_singleton ops field ih =>
    rw [lowestRxss_append, Nat.le_min, ih, List.forall_mem_append, List.forall_mem_singleton]

/-- A pairwise relation, by what comes before each. -/
theorem pairwise_iff_prefix {R : UInt8 → UInt8 → Prop} (ops : List UInt8) :
    ops.Pairwise R ↔ ∀ before field, before ++ [field] <+: ops → ∀ g ∈ before, R g field := by
  induction ops using List.reverseRecOn with
  | nil =>
    refine ⟨fun _ before field h => ?_, fun _ => List.Pairwise.nil⟩
    have hlen := h.length_le
    rw [List.length_append, List.length_singleton] at hlen
    exact absurd hlen (by simp)
  | append_singleton ops last ih =>
    rw [List.pairwise_append]
    constructor
    · rintro ⟨hops, -, hlast⟩ before field h
      rcases List.prefix_concat_iff.mp h with heq | hpre
      · obtain ⟨rfl, hf⟩ := List.append_inj' heq rfl
        cases hf
        exact fun g hg => hlast g hg last (List.mem_singleton_self last)
      · exact ih.mp hops before field hpre
    · intro h
      refine ⟨ih.mpr fun before field hpre => h before field (hpre.trans (List.prefix_append ops [last])),
        List.pairwise_singleton R last, fun g hg b hb => ?_⟩
      rw [List.mem_singleton.mp hb]
      exact h ops last (List.prefix_refl _) g hg

/-- The Rx NSS of a notification as far as `M` has streams. -/
def askedNss (M : McsMap) (field : UInt8) : Nat := min (targetRxss field) (rtwVhtMcsmapToNss M)

/-- **When notifications can be undone.** With `vht_option` the map goes by the last notification
for as long as none asks for more streams than one before it has left; without it, for as long as
none asks for fewer than the station has. -/
theorem op_mode_reversible_iff (p : VhtPriv) (s : VhtSta) (M : McsMap) (ops : List UInt8)
    (hM : LowestStreams M) :
    Reversible p s M ops ↔
      if p.vhtOption then ops.Pairwise fun g field => askedNss M field ≤ targetRxss g
      else ∀ field ∈ ops, rtwVhtMcsmapToNss M ≤ targetRxss field := by
  obtain ⟨h8, -⟩ := hM.supported
  cases hp : p.vhtOption with
  | true =>
    rw [if_pos rfl, pairwise_iff_prefix]
    refine forall_congr' fun before => forall_congr' fun field => imp_congr_right fun _ => ?_
    have hlast := lowestRxss_append before field
    rw [(upto_notifyRun hp hM s (before ++ [field])).followsLast_iff hM field (by omega),
      le_lowestRxss_iff (by omega), List.forall_mem_append, List.forall_mem_singleton]
    exact ⟨fun h => h.1, fun h => ⟨h, Nat.min_le_left _ _⟩⟩
  | false =>
    have hupto : Upto M 8 (updateStaVhtInfoApmode s M).vhtMcsMap := fun k hk => (if_pos hk).symm
    have hfollows : ∀ field, FollowsLast M field (updateStaVhtInfoApmode s M).vhtMcsMap
        ↔ rtwVhtMcsmapToNss M ≤ targetRxss field := by
      intro field
      have hnss := hupto.nss hM
      constructor
      · intro hf
        have hmin := hf.2
        omega
      · intro hle
        exact ⟨hupto.congr hM (by omega), by omega⟩
    rw [if_neg Bool.false_ne_true]
    unfold Reversible
    simp only [notifyRun_off hp, hfollows]
    constructor
    · intro h field hf
      obtain ⟨before, after, rfl⟩ := List.append_of_mem hf
      exact h before field ⟨after, by simp⟩
    · intro h before field hpre
      exact h field (hpre.subset (by simp))

/-- Two streams: the station asks for four, for two, for four again, which is no more than the two it has, and
goes down to one. -/
theorem op_mode_reversible_sample : Reversible {} ⟨⟨0, 0⟩, 0⟩ ⟨0xfa, 0xff⟩ [0x30, 0x10, 0x30, 0x00] := by
  have hM : LowestStreams ⟨0xfa, 0xff⟩ := by
    have hall : ∀ k : Fin 8, ∀ j ≤ k, (⟨0xfa, 0xff⟩ : McsMap).rate j = 3 →
        (⟨0xfa, 0xff⟩ : McsMap).rate k = 3 := by decide
    exact fun j k hjk hk h => hall ⟨k, hk⟩ ⟨j, by omega⟩ hjk h
  exact (op_mode_reversible_iff {} ⟨⟨0, 0⟩, 0⟩ ⟨0xfa, 0xff⟩ _ hM).mpr (by decide)

/-- **A station that comes back to two streams** is left with one. -/
theorem op_mode_not_reversible :
    ¬ Reversible {} ⟨⟨0, 0⟩, 0⟩ ⟨0xfa, 0xff⟩ [0x00, 0x10] := by
  intro h
  have hlast := (h [0x00] 0x10 (List.prefix_refl _)).2
  exact absurd hlast (by decide)

end Vht

end Rtl8812au
