import Rtl8812au.Ap.SleepProof

/-!
# No traffic indication is lost

`tim_bitmap` says in the beacon for whom frames wait: bit 0 for the group frames, bit `aid` for
a station. The invariant is again one about single stations (`StaTold`); what the stations
share is the bitmap, so an operation that clears the bit of one of them must not be clearing
the bit of another. The AIDs of associated stations are distinct, but 0 is the AID of every
station that has none yet, and it is the bit of the group frames.
-/

namespace Rtl8812au

/-! ## Bits -/

theorem getLsbD_bitU16 (a i : Nat) :
    (bitU16 a).getLsbD i = (decide (i < 16) && decide (a % 32 = i)) := by
  rw [bitU16, BitVec.getLsbD_ofNat, Nat.testBit_two_pow]

theorem getLsbD_setBit (t : BitVec 16) (a i : Nat) (h : t.getLsbD i = true) :
    (t ||| bitU16 a).getLsbD i = true := by
  rw [BitVec.getLsbD_or, h, Bool.true_or]

theorem getLsbD_clearBit (t : BitVec 16) {a i : Nat} (ha : a % 32 ≠ i)
    (h : t.getLsbD i = true) : (t &&& ~~~bitU16 a).getLsbD i = true := by
  have hi : i < 16 := BitVec.lt_of_getLsbD h
  rw [BitVec.getLsbD_and, h, BitVec.getLsbD_not, getLsbD_bitU16]
  simp [hi, ha]

/-- A bitmap that meets the bit of an AID below 32 has room for it. -/
theorem lt_of_and_bitU16 {t : BitVec 16} {a : Nat} (ha : a < 32) (h : t &&& bitU16 a ≠ 0) :
    a < 16 := by
  by_contra hlt
  refine h (BitVec.eq_of_getLsbD_eq fun i hi => ?_)
  have : a % 32 ≠ i := by omega
  rw [BitVec.getLsbD_and, getLsbD_bitU16]
  simp [this]

theorem bitU16_ne {a b : Nat} (ha : a < 16) (hb : b < 16) (h : a ≠ b) : bitU16 a ≠ bitU16 b := by
  intro heq
  have hbit : (bitU16 b).getLsbD a = true := by
    rw [← heq, getLsbD_bitU16]
    simp [ha, Nat.mod_eq_of_lt (show a < 32 by omega)]
  rw [getLsbD_bitU16] at hbit
  simp [Nat.mod_eq_of_lt (show b < 32 by omega)] at hbit
  omega

/-! ## One station -/

/-- A frame waits that is to be fetched with a PS-Poll: the station has an AID and a category
that is not delivery-enabled, and the frame is of such a category. -/
def TxSta.LegacyWaits (x : TxSta) : Prop :=
  0 < x.aid ∧ x.hasLegacyAc = true ∧ ∃ f ∈ x.sleepQ, x.delivers f = false

/-- What the bitmap `t` says about a station; about the group frames only when `g`, since
`wakeup_sta_to_xmit` may clear their bit before it lets them go. -/
structure StaTold (g : Prop) (t : BitVec 16) (x : TxSta) : Prop where
  len : x.sleepqLen = x.sleepQ.length
  aid_lt : x.aid < 32
  group_aid : x.hwaddr = .bcast → x.aid = 0
  group : g → x.hwaddr = .bcast → x.sleepQ ≠ [] → t.getLsbD 0 = true
  legacy : x.LegacyWaits → t.getLsbD x.aid = true

/-- No group frames wait at this station. -/
def TxSta.NoGroup (x : TxSta) : Prop := x.hwaddr = .bcast → x.sleepQ = []

namespace StaTold

variable {g : Prop} {t t' : BitVec 16} {x : TxSta}

theorem mono (h : StaTold g t x) (ht : ∀ i, t.getLsbD i = true → t'.getLsbD i = true) :
    StaTold g t' x :=
  ⟨h.len, h.aid_lt, h.group_aid, fun hg hb hq => ht 0 (h.group hg hb hq), fun hw => ht _ (h.legacy hw)⟩

theorem set (h : StaTold g t x) (a : Nat) : StaTold g (t ||| bitU16 a) x :=
  h.mono fun i hi => getLsbD_setBit t a i hi

/-- **A bit is cleared**: it is not the bit of the group frames while some wait here, and not
the one of this station while one of its frames waits. -/
theorem clear (h : StaTold g t x) {a : Nat} (ha : a < 32) (h0 : g → a = 0 → x.NoGroup)
    (hne : x.LegacyWaits → x.aid ≠ a) : StaTold g (t &&& ~~~bitU16 a) x := by
  refine ⟨h.len, h.aid_lt, h.group_aid, fun hg hb hq => ?_, fun hw => ?_⟩
  · refine getLsbD_clearBit t ?_ (h.group hg hb hq)
    rw [Nat.mod_eq_of_lt ha]
    exact fun hz => hq (h0 hg hz hb)
  · refine getLsbD_clearBit t ?_ (h.legacy hw)
    rw [Nat.mod_eq_of_lt ha]
    exact fun heq => hne hw heq.symm

/-- Frames leave the queue, and fields change that do not matter here. -/
theorem shrink (h : StaTold g t x) {y : TxSta} (haddr : y.hwaddr = x.hwaddr) (haid : y.aid = x.aid)
    (hlegacy : y.hasLegacyAc = x.hasLegacyAc) (huapsd : y.uapsd = x.uapsd)
    (hsub : y.sleepQ ⊆ x.sleepQ) (hlen : y.sleepqLen = y.sleepQ.length) : StaTold g t y := by
  refine ⟨hlen, by rw [haid]; exact h.aid_lt, ?_, ?_, ?_⟩
  · rw [haddr, haid]
    exact h.group_aid
  · rw [haddr]
    intro hg hb hq
    refine h.group hg hb fun hx => hq ?_
    rw [hx] at hsub
    exact List.subset_nil.mp hsub
  · rintro ⟨hpos, hl, f, hf, hd⟩
    rw [haid]
    refine h.legacy ⟨haid ▸ hpos, hlegacy ▸ hl, f, hsub hf, ?_⟩
    rw [← hd, TxSta.delivers, TxSta.delivers, huapsd]

theorem pull (h : StaTold g t x) {l q : List TxFrame} {f : TxFrame} (ac : Bool)
    (hq : x.sleepQ = l ++ f :: q) : StaTold g t (x.pull (l ++ q) ac) := by
  refine h.shrink rfl rfl rfl rfl ?_ ?_
  · show l ++ q ⊆ x.sleepQ
    rw [hq]
    intro g hg
    rcases List.mem_append.mp hg with hg | hg
    · exact List.mem_append_left _ hg
    · exact List.mem_append_right _ (List.mem_cons_of_mem f hg)
  · show x.sleepqLen - 1 = ((l ++ q).length : Int)
    rw [h.len, hq, List.length_append, List.length_append, List.length_cons]
    omega

theorem state (h : StaTold g t x) (linked sleep auth : Bool) (expireTo : Nat) :
    StaTold g t { x with
      linked := linked, sleep := sleep, authSuccess := auth, expireTo := expireTo } :=
  ⟨h.len, h.aid_lt, h.group_aid, h.group, h.legacy⟩

theorem len_zero (h : StaTold g t x) (hq : x.sleepQ = []) : x.sleepqLen = 0 := by
  rw [h.len, hq]
  rfl

/-- A frame comes: it is a group frame and bit 0 is set, or it is to be fetched and the bit of
the station is set, or it is neither. -/
theorem push (h : StaTold g t x) {f : TxFrame} (ac : Bool)
    (hgroup : x.hwaddr = .bcast → t.getLsbD 0 = true)
    (hlegacy : 0 < x.aid → x.hasLegacyAc = true → x.delivers f = false → t.getLsbD x.aid = true) :
    StaTold g t (x.push f ac) := by
  refine ⟨?_, h.aid_lt, h.group_aid, fun _ hb _ => hgroup hb, ?_⟩
  · show x.sleepqLen + 1 = ((x.sleepQ ++ [f]).length : Int)
    rw [h.len, List.length_append]
    rfl
  · rintro ⟨hpos, hl, g, hg, hd⟩
    rcases List.mem_append.mp hg with hg | hg
    · exact h.legacy ⟨hpos, hl, g, hg, hd⟩
    · rw [List.mem_singleton.mp hg] at hd
      exact hlegacy hpos hl hd

end StaTold

/-! ## All stations -/

/-- **The invariant**: the bitmap is right about every station; an AID belongs to the station
that `sta_aid` has under it; and the stations are kept apart, the free ones having no frames
and only one being the broadcast station. -/
structure TimTold (g : Prop) (p : StaPriv) : Prop where
  told : ∀ s, StaTold g p.timBitmap (p.sta s)
  aids : ∀ s, 0 < (p.sta s).aid → p.staAid ((p.sta s).aid - 1) = some s
  max : p.maxNumSta ≤ numSta
  free : ∀ s ∈ p.freeStaQueue, s ∉ p.staHash
  nodup : p.freeStaQueue.Nodup
  idle : ∀ s, s ∉ p.staHash → (p.sta s).sleepQ = []
  one : ∀ s ∈ p.staHash, ∀ s' ∈ p.staHash, (p.sta s).hwaddr = .bcast →
    (p.sta s').hwaddr = .bcast → s = s'

namespace TimTold

variable {g : Prop} {p p' : StaPriv}

/-- Distinct stations have distinct AIDs. -/
theorem aid_ne (h : TimTold g p) {s k : StaSlot} (hk : k ≠ s) (hpos : 0 < (p.sta k).aid) :
    (p.sta k).aid ≠ (p.sta s).aid := by
  intro heq
  have hs := h.aids s (heq ▸ hpos)
  rw [← heq, h.aids k hpos] at hs
  exact hk (Option.some.inj hs)

theorem queuesOnly (h : TimTold g p) (hq : QueuesOnly p p') : TimTold g p' := by
  have haid : ∀ s, (p'.sta s).aid = (p.sta s).aid := fun s => by rw [hq.sta s]
  have haddr : ∀ s, (p'.sta s).hwaddr = (p.sta s).hwaddr := fun s => by rw [hq.sta s]
  refine ⟨fun s => ?_, ?_, ?_, ?_, ?_, fun s hs => ?_, ?_⟩
  · rw [hq.timBitmap, hq.sta s]
    exact ⟨(h.told s).len, (h.told s).aid_lt, (h.told s).group_aid, (h.told s).group,
      (h.told s).legacy⟩
  · simp only [haid, hq.staAid]
    exact h.aids
  · rw [hq.maxNumSta]
    exact h.max
  · rw [hq.freeStaQueue, hq.staHash]
    exact h.free
  · rw [hq.freeStaQueue]
    exact h.nodup
  · rw [hq.sta s]
    exact h.idle s (hq.staHash ▸ hs)
  · simp only [haddr, hq.staHash]
    exact h.one

/-- One station changes, but not its address and its AID. -/
theorem updSta (h : TimTold g p) {s : StaSlot} {u : TxSta → TxSta}
    (haddr : (u (p.sta s)).hwaddr = (p.sta s).hwaddr) (haid : (u (p.sta s)).aid = (p.sta s).aid)
    (hidle : s ∉ p.staHash → (u (p.sta s)).sleepQ = [])
    (htold : StaTold g p.timBitmap (u (p.sta s))) : TimTold g (p.updSta s u) := by
  have haids : ∀ k, ((p.updSta s u).sta k).aid = (p.sta k).aid := by
    intro k
    by_cases hk : k = s
    · rw [hk, p.updSta_self, haid]
    · rw [p.updSta_ne u hk]
  have haddrs : ∀ k, ((p.updSta s u).sta k).hwaddr = (p.sta k).hwaddr := by
    intro k
    by_cases hk : k = s
    · rw [hk, p.updSta_self, haddr]
    · rw [p.updSta_ne u hk]
  refine ⟨fun k => ?_, fun k => ?_, h.max, h.free, h.nodup, fun k hk' => ?_, ?_⟩
  · by_cases hk : k = s
    · rw [hk, p.updSta_self]
      exact htold
    · rw [p.updSta_ne u hk]
      exact h.told k
  · rw [haids]
    exact h.aids k
  · by_cases hk : k = s
    · rw [hk, p.updSta_self]
      exact hidle (hk ▸ hk')
    · rw [p.updSta_ne u hk]
      exact h.idle k hk'
  · simp only [haddrs]
    exact h.one

/-- Only the bitmap changes. -/
theorem retell (h : TimTold g p) (hsta : p'.sta = p.sta) (haid : p'.staAid = p.staAid)
    (hmax : p'.maxNumSta = p.maxNumSta) (hfree : p'.freeStaQueue = p.freeStaQueue)
    (hhash : p'.staHash = p.staHash) (htold : ∀ s, StaTold g p'.timBitmap (p.sta s)) :
    TimTold g p' := by
  refine ⟨?_, ?_, ?_, ?_, ?_, ?_, ?_⟩
  · rw [hsta]
    exact htold
  · rw [hsta, haid]
    exact h.aids
  · rw [hmax]
    exact h.max
  · rw [hfree, hhash]
    exact h.free
  · rw [hfree]
    exact h.nodup
  · rw [hsta, hhash]
    exact h.idle
  · rw [hsta, hhash]
    exact h.one

/-- The bit of the station `s` is cleared: no frame of it waits, and if it has no AID then no
group frame does. -/
theorem clearBit (h : TimTold g p) {s : StaSlot}
    (hgroup : g → (p.sta s).aid = 0 → ∀ k, (p.sta k).NoGroup)
    (hempty : ¬ (p.sta s).LegacyWaits) (hsta : p'.sta = p.sta) (haid : p'.staAid = p.staAid)
    (hmax : p'.maxNumSta = p.maxNumSta) (hfree : p'.freeStaQueue = p.freeStaQueue)
    (hhash : p'.staHash = p.staHash)
    (htim : p'.timBitmap = p.timBitmap &&& ~~~bitU16 (p.sta s).aid) : TimTold g p' := by
  refine h.retell hsta haid hmax hfree hhash fun k => ?_
  rw [htim]
  refine (h.told k).clear (h.told s).aid_lt (fun hg h0 => hgroup hg h0 k) fun hw => ?_
  by_cases hk : k = s
  · rw [hk] at hw
    exact absurd hw hempty
  · exact h.aid_ne hk hw.1

/-- Bit 0 is cleared. -/
theorem clearGroup (h : TimTold g p) (hgroup : g → ∀ k, (p.sta k).NoGroup)
    (hsta : p'.sta = p.sta) (haid : p'.staAid = p.staAid)
    (hmax : p'.maxNumSta = p.maxNumSta) (hfree : p'.freeStaQueue = p.freeStaQueue)
    (hhash : p'.staHash = p.staHash) (htim : p'.timBitmap = p.timBitmap &&& ~~~bitU16 0) :
    TimTold g p' := by
  refine h.retell hsta haid hmax hfree hhash fun k => ?_
  rw [htim]
  exact (h.told k).clear (by decide) (fun hg _ => hgroup hg k) fun hw => Nat.pos_iff_ne_zero.mp hw.1

end TimTold

/-! ## Frames come -/

theorem markTim_eq (p : StaPriv) (aid : Nat) : p.markTim aid =
    { p with timBitmap := p.timBitmap ||| bitU16 aid, bcnTim := (p.markTim aid).bcnTim } := by
  unfold StaPriv.markTim
  dsimp only
  split
  · rfl
  · rfl

theorem getStainfo_some {p : StaPriv} {a : MacAddr} {s : StaSlot} (h : p.getStainfo a = some s) :
    s ∈ p.staHash ∧ (p.sta s).hwaddr = if a.isMcast then .bcast else a :=
  have hfound := List.find?_some h
  ⟨List.mem_of_find?_eq_some h, of_decide_eq_true hfound⟩

section Ops

variable {g : Prop} {p p' : StaPriv}

theorem TimTold.setBit (h : TimTold g p) (aid : Nat) (dz : BitVec 16) (bcn : List (BitVec 16)) :
    TimTold g { p with
      timBitmap := p.timBitmap ||| bitU16 aid, staDzBitmap := dz, bcnTim := bcn } :=
  h.retell rfl rfl rfl rfl rfl fun k => (h.told k).set aid

/-- A group frame sets bit 0. -/
theorem TimTold.enqueueBmc (h : TimTold g p) {s : StaSlot} (f : TxFrame) (hs : s ∈ p.staHash)
    (hb : (p.sta s).hwaddr = .bcast) : TimTold g (Rtl8812au.enqueueBmc p s f) := by
  unfold Rtl8812au.enqueueBmc
  rw [markTim_eq]
  refine TimTold.updSta (u := fun x => x.push f false) (h.setBit 0 _ _) rfl rfl
    (fun hn => absurd hs hn) (StaTold.push ((h.told s).set 0) false (fun _ => ?_) fun hpos => ?_)
  · rw [BitVec.getLsbD_or, getLsbD_bitU16]
    simp
  · rw [(h.told s).group_aid hb] at hpos
    exact absurd hpos (Nat.lt_irrefl 0)

/-- A frame for a station sets its bit, unless nobody has to be told: the frame is
delivery-enabled, or every category is. -/
theorem TimTold.enqueueUc (h : TimTold g p) {s : StaSlot} (f : TxFrame) (hs : s ∈ p.staHash)
    (hb : (p.sta s).hwaddr ≠ .bcast) (hdoze : p.dozes s = true) :
    TimTold g (Rtl8812au.enqueueUc p s f) := by
  have hdz : p.staDzBitmap &&& bitU16 (p.sta s).aid ≠ 0 := by
    intro hz
    simp [StaPriv.dozes, hz] at hdoze
  have haid : (p.sta s).aid < 16 := lt_of_and_bitU16 (h.told s).aid_lt hdz
  unfold Rtl8812au.enqueueUc
  dsimp only
  split
  · rw [markTim_eq]
    refine TimTold.updSta (u := fun x => x.push f _) (h.setBit (p.sta s).aid _ _) rfl rfl
      (fun hn => absurd hs hn)
      (StaTold.push ((h.told s).set _) _ (fun hb' => absurd hb' hb) fun _ _ _ => ?_)
    rw [BitVec.getLsbD_or, getLsbD_bitU16]
    simp [haid, Nat.mod_eq_of_lt (h.told s).aid_lt]
  · rename_i hno
    refine h.updSta rfl rfl (fun hn => absurd hs hn)
      ((h.told s).push _ (fun hb' => absurd hb' hb) fun _ hl hd => ?_)
    rw [TxSta.delivers] at hd
    exact absurd (by simp [hl, hd]) hno

theorem TimTold.enqueueForSleepingSta (h : TimTold g p) (f : TxFrame) :
    TimTold g (Rtl8812au.enqueueForSleepingSta p f).1 := by
  rcases enqueueForSleepingSta_cases p f with ⟨heq, -⟩ |
    ⟨s, -, hget, -, -, ⟨hm, -, heq⟩ | ⟨hm, hdoze, heq⟩⟩
  · rw [heq]
    exact h
  · obtain ⟨hs, haddr⟩ := getStainfo_some hget
    rw [if_pos hm] at haddr
    rw [heq]
    exact h.enqueueBmc f hs haddr
  · obtain ⟨hs, haddr⟩ := getStainfo_some hget
    rw [if_neg (by simp [hm])] at haddr
    rw [heq]
    refine h.enqueueUc f hs (fun hb => ?_) hdoze
    rw [← haddr, hb] at hm
    cases hm

theorem TimTold.stopStaXmit (h : TimTold g p) {s : StaSlot}
    (hstop : Rtl8812au.stopStaXmit p s = .done p') : TimTold g p' := by
  refine stopStaXmit_rule (P := TimTold g) (fun hq h => h.queuesOnly hq)
    (fun f h => h.enqueueForSleepingSta f) (fun dz => ?_) hstop
  have hsleep : TimTold g (p.updSta s fun x => { x with sleep := true }) :=
    h.updSta rfl rfl (h.idle s) ((h.told s).state _ true _ _)
  exact hsleep.retell rfl rfl rfl rfl rfl hsleep.told

/-! ## Frames go -/

/-- The station `s` gives up frames. -/
theorem TimTold.pull (h : TimTold g p) {s : StaSlot} {l q : List TxFrame} {f : TxFrame}
    (hq : (p.sta s).sleepQ = l ++ f :: q) (ac : Bool) :
    TimTold g (p.updSta s fun x => x.pull (l ++ q) ac) := by
  refine h.updSta rfl rfl (fun hn => ?_) ((h.told s).pull ac hq)
  rw [h.idle s hn] at hq
  simp at hq

/-- Of the state outside the hardware queues only the sleep queue of `s` and its counters
differ. -/
structure PulledFrom (s : StaSlot) (p p' : StaPriv) : Prop where
  others : ∀ k, k ≠ s → p'.sta k = { p.sta k with servq := (p'.sta k).servq }
  same : p'.sta s = { p.sta s with
    sleepQ := (p'.sta s).sleepQ, sleepqLen := (p'.sta s).sleepqLen
    sleepqAcLen := (p'.sta s).sleepqAcLen, servq := (p'.sta s).servq }
  staDzBitmap : p'.staDzBitmap = p.staDzBitmap
  staHash : p'.staHash = p.staHash

theorem PulledFrom.refl (s : StaSlot) (p : StaPriv) : PulledFrom s p p :=
  ⟨fun _ _ => rfl, rfl, rfl, rfl⟩

theorem PulledFrom.queuesOnly {s : StaSlot} {p₀ : StaPriv} (h : PulledFrom s p₀ p)
    (hq : QueuesOnly p p') : PulledFrom s p₀ p' := by
  refine ⟨fun k hk => ?_, ?_, hq.staDzBitmap.trans h.staDzBitmap, hq.staHash.trans h.staHash⟩
  · rw [hq.sta k, h.others k hk]
  · rw [hq.sta s, h.same]

theorem PulledFrom.pull {s : StaSlot} {p₀ : StaPriv} (h : PulledFrom s p₀ p) (q : List TxFrame)
    (ac : Bool) : PulledFrom s p₀ (p.updSta s fun x => x.pull q ac) := by
  refine ⟨fun k hk => ?_, ?_, h.staDzBitmap, h.staHash⟩
  · rw [p.updSta_ne _ hk]
    exact h.others k hk
  · rw [p.updSta_self, TxSta.pull, h.same]

theorem PulledFrom.noGroup {s : StaSlot} (h : PulledFrom s p p') {k : StaSlot} (hk : k ≠ s)
    (hno : (p.sta k).NoGroup) : (p'.sta k).NoGroup := by
  rw [h.others k hk]
  exact hno

/-- With the group frames of the broadcast station gone, all are. -/
theorem TimTold.noGroup (h : TimTold g p) (hno : ∀ b ∈ p.staHash, (p.sta b).NoGroup) (k : StaSlot) :
    (p.sta k).NoGroup := by
  by_cases hk : k ∈ p.staHash
  · exact hno k hk
  · exact fun _ => h.idle k hk

/-- When no group frame waits, bit 0 is right whatever it is. -/
theorem TimTold.regain {g' : Prop} (h : TimTold g p) (hno : ∀ k, (p.sta k).NoGroup) :
    TimTold g' p :=
  ⟨fun s => ⟨(h.told s).len, (h.told s).aid_lt, (h.told s).group_aid,
    fun _ hb hq => absurd (hno s hb) hq, (h.told s).legacy⟩,
    h.aids, h.max, h.free, h.nodup, h.idle, h.one⟩

theorem TimTold.weaken {g' : Prop} (h : TimTold g p) (hg : g' → g) : TimTold g' p :=
  ⟨fun s => ⟨(h.told s).len, (h.told s).aid_lt, (h.told s).group_aid,
    fun hg' => (h.told s).group (hg hg'), (h.told s).legacy⟩,
    h.aids, h.max, h.free, h.nodup, h.idle, h.one⟩

theorem TimTold.wakeupLoop (h : TimTold g p) (s : StaSlot) :
    (TimTold g (Rtl8812au.wakeupLoop s p (p.sta s).sleepQ) ∧
      PulledFrom s p (Rtl8812au.wakeupLoop s p (p.sta s).sleepQ)) ∧
      ((Rtl8812au.wakeupLoop s p (p.sta s).sleepQ).sta s).sleepQ = [] := by
  refine wakeupLoop_rule (P := fun q => TimTold g q ∧ PulledFrom s p q)
    (fun hq h => ⟨h.1.queuesOnly hq, h.2.queuesOnly hq⟩) ?_ _ ⟨h, PulledFrom.refl s p⟩ rfl
  intro r f q hr hq
  exact ⟨TimTold.pull (l := []) hr.1 hq _, hr.2.pull q _⟩

/-- **The station wakes up**: its queue is empty then, so its bit can go, if it is its bit. -/
theorem TimTold.wakeupSta (h : TimTold g p) {s : StaSlot}
    (hgroup : g → (p.sta s).aid = 0 → ∀ k, k ≠ s → (p.sta k).NoGroup) :
    TimTold g (Rtl8812au.wakeupSta p s).1 := by
  obtain ⟨⟨htold, hpulled⟩, hempty⟩ := h.wakeupLoop s
  have hlen := (htold.told s).len_zero hempty
  have haid : ((Rtl8812au.wakeupLoop s p (p.sta s).sleepQ).sta s).aid = (p.sta s).aid := by
    rw [hpulled.same]
  unfold Rtl8812au.wakeupSta
  dsimp only
  rw [if_pos hlen]
  generalize Rtl8812au.wakeupLoop s p (p.sta s).sleepQ = r at htold hpulled hempty haid
  have hawake : TimTold g (r.updSta s fun x =>
      { x with
        sleep := false
        expireTo := if x.authSuccess then r.expireTo else x.expireTo
        authSuccess := false }) :=
    htold.updSta rfl rfl (fun _ => hempty) ((htold.told s).state _ false false _)
  refine hawake.clearBit (s := s) ?_ ?_ rfl rfl rfl rfl rfl ?_
  · rw [StaPriv.updSta_self]
    intro hg h0 k
    by_cases hk : k = s
    · rw [hk, StaPriv.updSta_self]
      exact fun _ => hempty
    · rw [StaPriv.updSta_ne _ _ hk]
      exact hpulled.noGroup hk (hgroup hg (haid ▸ h0) k hk)
  · rw [StaPriv.updSta_self]
    rintro ⟨-, -, f, hf, -⟩
    have hf' : f ∈ (r.sta s).sleepQ := hf
    rw [hempty] at hf'
    cases hf'
  · rw [StaPriv.updSta_self]
    rfl

/-- The group frames leave when nobody sleeps: then their bit can go. -/
theorem TimTold.wakeupBmc (h : TimTold g p) {b : StaSlot} (hb : b ∈ p.staHash)
    (haddr : (p.sta b).hwaddr = .bcast) (hg : ¬ g → p.staDzBitmap &&& 0xfffe#16 = 0) :
    TimTold True (Rtl8812au.wakeupBmc p b).1 := by
  unfold Rtl8812au.wakeupBmc
  split
  · obtain ⟨⟨htold, hpulled⟩, hempty⟩ := wakeupBmcLoop_rule (b := b)
      (P := fun q => TimTold g q ∧ PulledFrom b p q)
      (fun hq h => ⟨h.1.queuesOnly hq, h.2.queuesOnly hq⟩)
      (fun hr hq => ⟨TimTold.pull (l := []) hr.1 hq _, hr.2.pull _ _⟩) _
      ⟨h, PulledFrom.refl b p⟩ rfl
    have hno : ∀ k, ((Rtl8812au.wakeupBmcLoop b p (p.sta b).sleepQ).sta k).NoGroup := by
      refine htold.noGroup fun k hk hkb => ?_
      have haddr' : ((Rtl8812au.wakeupBmcLoop b p (p.sta b).sleepQ).sta b).hwaddr = .bcast := by
        rw [hpulled.same]
        exact haddr
      rw [htold.one k hk b (hpulled.staHash ▸ hb) hkb haddr']
      exact hempty
    have hlen := (htold.told b).len_zero hempty
    dsimp only
    rw [if_pos hlen]
    have htrue : TimTold True (Rtl8812au.wakeupBmcLoop b p (p.sta b).sleepQ) := htold.regain hno
    exact htrue.clearGroup (fun _ => hno) rfl rfl rfl rfl rfl rfl
  · rename_i hdz
    have hgg : g := by
      by_contra hn
      exact hdz (hg hn)
    exact h.weaken fun _ => hgg

theorem wakeupSta_dz (p : StaPriv) {s : StaSlot} (h0 : (p.sta s).aid = 0)
    (hdz : p.staDzBitmap &&& 0xfffe#16 = 0) (h : TimTold g p) :
    (Rtl8812au.wakeupSta p s).1.staDzBitmap &&& 0xfffe#16 = 0 := by
  obtain ⟨⟨-, hpulled⟩, -⟩ := h.wakeupLoop s
  unfold Rtl8812au.wakeupSta
  dsimp only
  split
  · show ((Rtl8812au.wakeupLoop s p (p.sta s).sleepQ).staDzBitmap &&& ~~~bitU16
      ((Rtl8812au.wakeupLoop s p (p.sta s).sleepQ).sta s).aid) &&& 0xfffe#16 = 0
    rw [hpulled.staDzBitmap, hpulled.same, h0, BitVec.and_assoc]
    rw [show (~~~bitU16 0 &&& 0xfffe#16) = 0xfffe#16 by decide]
    exact hdz
  · rw [hpulled.staDzBitmap]
    exact hdz

theorem PulledFrom.wakeupSta_table (h : TimTold g p) (s k : StaSlot) :
    (Rtl8812au.wakeupSta p s).1.staHash = p.staHash ∧
      ((Rtl8812au.wakeupSta p s).1.sta k).hwaddr = (p.sta k).hwaddr := by
  obtain ⟨⟨-, hpulled⟩, -⟩ := h.wakeupLoop s
  refine ⟨?_, wakeupSta_hwaddr p s k⟩
  rw [← hpulled.staHash]
  unfold Rtl8812au.wakeupSta
  dsimp only
  split
  · rfl
  · rfl

/-- A station that wakes up takes the bit of the group frames with it when it has no AID, so
none may wait, or all of them must leave at once. -/
theorem TimTold.wakeupStaToXmit (h : TimTold True p) {s : StaSlot}
    (hok : (p.sta s).aid = 0 →
      (∀ k, k ≠ s → (p.sta k).NoGroup) ∨ p.staDzBitmap &&& 0xfffe#16 = 0) :
    TimTold True (Rtl8812au.wakeupStaToXmit p s) := by
  by_cases hno : (p.sta s).aid = 0 → ∀ k, k ≠ s → (p.sta k).NoGroup
  · have hsta := h.wakeupSta (s := s) fun _ => hno
    unfold Rtl8812au.wakeupStaToXmit
    split
    · dsimp only
      split
      · exact hsta.retell rfl rfl rfl rfl rfl hsta.told
      · exact hsta
    · rename_i b hget
      obtain ⟨hb, haddr⟩ := getStainfo_some hget
      obtain ⟨hhash, haddr'⟩ := PulledFrom.wakeupSta_table h s b
      have hbmc := hsta.wakeupBmc (b := b) (hhash ▸ hb) (haddr'.trans haddr)
        fun hn => absurd trivial hn
      dsimp only
      split
      · exact hbmc.retell rfl rfl rfl rfl rfl hbmc.told
      · exact hbmc
  · obtain ⟨h0, hgroup⟩ := Classical.not_imp.mp hno
    have hdz := (hok h0).resolve_left hgroup
    have hsta : TimTold False (Rtl8812au.wakeupSta p s).1 :=
      (h.weaken fun hf => hf.elim).wakeupSta (fun hf => hf.elim)
    unfold Rtl8812au.wakeupStaToXmit
    split
    · rename_i hget
      refine absurd (fun k _ => h.noGroup (fun b hb hbc => ?_) k) hgroup
      have := List.find?_eq_none.mp hget b hb
      simp [hbc] at this
    · rename_i b hget
      obtain ⟨hb, haddr⟩ := getStainfo_some hget
      obtain ⟨hhash, haddr'⟩ := PulledFrom.wakeupSta_table h s b
      have hbmc := hsta.wakeupBmc (b := b) (hhash ▸ hb) (haddr'.trans haddr)
        fun _ => wakeupSta_dz p h0 hdz h
      dsimp only
      split
      · exact hbmc.retell rfl rfl rfl rfl rfl hbmc.told
      · exact hbmc

/-- The delivery-enabled frames leave. The bit is cleared only for a station that has no other
category. -/
theorem TimTold.deliver (h : TimTold g p) {s : StaSlot}
    (hok : (p.sta s).aid = 0 → (p.sta s).hasLegacyAc = false →
      (∃ f ∈ (p.sta s).sleepQ, ((p.sta s).uapsd (acOf f.priority)).trigger = true) →
      ∀ k, (p.sta k).NoGroup) :
    TimTold g (xmitDeliveryEnabledFrames p s) := by
  refine (deliverLoop_rule (s := s) (F := (p.sta s).sleepQ)
    (P := fun q => TimTold g q ∧ PulledFrom s p q)
    (fun hq h => ⟨h.1.queuesOnly hq, h.2.queuesOnly hq⟩)
    (fun hr hq _ => ⟨hr.1.pull hq _, hr.2.pull _ _⟩) ?_ _ _
    ⟨h, PulledFrom.refl s p⟩ rfl (List.Subset.refl _)).1
  rintro r f ⟨htold, hpulled⟩ hf htrig hlegacy
  refine ⟨htold.clearBit (s := s) (fun _ h0 => ?_) ?_ rfl rfl rfl rfl rfl rfl,
    hpulled.others, hpulled.same, hpulled.staDzBitmap, hpulled.staHash⟩
  · rw [hpulled.same] at htrig hlegacy h0
    have hno := hok h0 hlegacy ⟨f, hf, htrig⟩
    intro k
    by_cases hk : k = s
    · rw [hk, hpulled.same]
      intro hb
      rw [hno s hb] at hf
      cases hf
    · exact hpulled.noGroup hk (hno k)
  · rintro ⟨-, hl, -⟩
    rw [hlegacy] at hl
    cases hl

/-- A PS-Poll that empties the queue clears the bit of the station. -/
theorem TimTold.recvPsPoll (h : TimTold g p) {ta : MacAddr} {aid priority : Nat}
    (hok : ∀ s, PollServed p ta aid priority s → (p.sta s).aid = 0 →
      (p.sta s).sleepQ.length ≤ 1 → ∀ k, k ≠ s → (p.sta k).NoGroup) :
    TimTold g (Rtl8812au.recvPsPoll p ta aid priority) := by
  have hupd : ∀ s, TimTold g (p.updSta s (touched p.expireTo)) := fun s =>
    h.updSta rfl rfl (h.idle s) ((h.told s).state _ _ false _)
  -- the bit of a station whose queue is empty is cleared
  have hclear : ∀ {r : StaPriv} {s}, TimTold g r → PollServed p ta aid priority s →
      (p.sta s).sleepQ.length ≤ 1 → PulledFrom s (p.updSta s (touched p.expireTo)) r →
      (r.sta s).sleepQ = [] → TimTold g (r.clearTim (r.sta s).aid) := by
    intro r s hr hserved hone hpulled hempty
    refine hr.clearBit (s := s) (fun _ h0 k => ?_) ?_ rfl rfl rfl rfl rfl rfl
    · by_cases hk : k = s
      · rw [hk]
        exact fun _ => hempty
      · refine hpulled.noGroup hk ?_
        rw [StaPriv.updSta_ne _ _ hk]
        rw [hpulled.same, StaPriv.updSta_self] at h0
        exact hok s hserved h0 hone k hk
    · rintro ⟨-, -, f, hf, -⟩
      rw [hempty] at hf
      cases hf
  rcases recvPsPoll_cases p ta aid priority with heq |
    ⟨s, -, heq | ⟨hserved, ⟨f, q, f', hq, heq⟩ | ⟨hq, heq⟩⟩⟩
  · rw [heq]
    exact h
  · rw [heq]
    exact hupd s
  · have hpop : TimTold g (halXmitframeEnqueue
        ((p.updSta s (touched p.expireTo)).updSta s fun x => x.pull q false) f') := by
      refine TimTold.queuesOnly ?_ (QueuesOnly.halEnqueue _ f')
      refine TimTold.pull (l := []) (f := f) (hupd s) ?_ false
      rw [StaPriv.updSta_self]
      exact hq
    have hpulled : PulledFrom s (p.updSta s (touched p.expireTo)) (halXmitframeEnqueue
        ((p.updSta s (touched p.expireTo)).updSta s fun x => x.pull q false) f') :=
      ((PulledFrom.refl s _).pull q false).queuesOnly (QueuesOnly.halEnqueue _ f')
    have hrest : ((halXmitframeEnqueue ((p.updSta s (touched p.expireTo)).updSta s
        fun x => x.pull q false) f').sta s).sleepQ = q := by
      rw [(QueuesOnly.halEnqueue _ f').sta s, StaPriv.updSta_self]
      rfl
    rw [heq]
    split
    · rename_i hzero
      rw [(hpop.told s).len, hrest] at hzero
      have hq0 : q = [] := List.eq_nil_of_length_eq_zero (by omega)
      refine hclear hpop hserved ?_ hpulled (hrest.trans hq0)
      rw [hq, hq0]
      exact Nat.le_refl 1
    · exact hpop
  · rw [heq]
    have hzero : TimTold g ((p.updSta s (touched p.expireTo)).updSta s
        fun x => { x with sleepqLen := 0 }) := by
      have hs := (hupd s).told s
      refine (hupd s).updSta rfl rfl ((hupd s).idle s) ⟨?_, hs.aid_lt, hs.group_aid, hs.group,
        hs.legacy⟩
      show (0 : Int) = ((p.updSta s (touched p.expireTo)).sta s).sleepQ.length
      rw [StaPriv.updSta_self]
      show (0 : Int) = (p.sta s).sleepQ.length
      rw [hq]
      rfl
    have hc := hclear hzero hserved (by rw [hq]; exact Nat.zero_le 1) ?_ ?_
    · simpa [touched] using hc
    · refine ⟨fun k hk => ?_, ?_, rfl, rfl⟩
      · rw [StaPriv.updSta_ne _ _ hk]
      · rw [StaPriv.updSta_self]
    · rw [StaPriv.updSta_self, StaPriv.updSta_self]
      exact hq

/-! ## Stations come and go -/

theorem TimTold.allocStainfo {s : StaSlot} {a : MacAddr} (h : TimTold g p)
    (hnew : p.getStainfo a = none) (halloc : Rtl8812au.allocStainfo p a = some (s, p')) :
    TimTold g p' := by
  unfold Rtl8812au.allocStainfo at halloc
  split at halloc
  · cases halloc
  · rename_i t q hfree
    cases halloc
    have hs : s ∉ p.staHash := h.free s (by rw [hfree]; exact List.mem_cons_self ..)
    have hnodup : s ∉ q ∧ q.Nodup := List.nodup_cons.mp (hfree ▸ h.nodup)
    have hself : (p.updSta s fun _ => { hwaddr := a }).sta s = { hwaddr := a } := p.updSta_self s _
    -- no station of the table is the broadcast station when the new one is
    have hbc : a = .bcast → ∀ k ∈ p.staHash, (p.sta k).hwaddr ≠ .bcast := by
      intro ha k hk heq
      have := List.find?_eq_none.mp hnew k hk
      rw [ha, heq] at this
      exact this rfl
    refine ⟨fun k => ?_, fun k => ?_, h.max, fun k hk => ?_, hnodup.2, fun k hk => ?_, ?_⟩
    · show StaTold g p.timBitmap ((p.updSta s fun _ => { hwaddr := a }).sta k)
      by_cases hk : k = s
      · rw [hk, hself]
        exact ⟨rfl, Nat.succ_pos 31, fun _ => rfl, fun _ _ hq => absurd rfl hq,
          fun hw => absurd hw.1 (Nat.lt_irrefl 0)⟩
      · rw [p.updSta_ne _ hk]
        exact h.told k
    · show 0 < ((p.updSta s fun _ => { hwaddr := a }).sta k).aid →
        p.staAid (((p.updSta s fun _ => { hwaddr := a }).sta k).aid - 1) = some k
      by_cases hk : k = s
      · rw [hk, hself]
        exact fun hpos => absurd hpos (Nat.lt_irrefl 0)
      · rw [p.updSta_ne _ hk]
        exact h.aids k
    · intro hmem
      rcases List.mem_append.mp hmem with hmem | hmem
      · exact h.free k (by rw [hfree]; exact List.mem_cons_of_mem s hk) hmem
      · rw [List.mem_singleton.mp hmem] at hk
        exact hnodup.1 hk
    · have hks : k ≠ s := fun heq =>
        hk (List.mem_append_right _ (List.mem_singleton.mpr heq))
      show ((p.updSta s fun _ => { hwaddr := a }).sta k).sleepQ = []
      rw [p.updSta_ne _ hks]
      exact h.idle k fun hmem => hk (List.mem_append_left _ hmem)
    · intro k hk k' hk' hb hb'
      have hin : ∀ j ∈ p.staHash, (p.updSta s fun _ => { hwaddr := a }).sta j = p.sta j :=
        fun j hj => p.updSta_ne _ fun heq => hs (heq ▸ hj)
      change ((p.updSta s fun _ => { hwaddr := a }).sta k).hwaddr = .bcast at hb
      change ((p.updSta s fun _ => { hwaddr := a }).sta k').hwaddr = .bcast at hb'
      rcases List.mem_append.mp hk with hk | hk <;> rcases List.mem_append.mp hk' with hk' | hk'
      · rw [hin k hk] at hb
        rw [hin k' hk'] at hb'
        exact h.one k hk k' hk' hb hb'
      · rw [hin k hk] at hb
        rw [List.mem_singleton.mp hk', hself] at hb'
        exact absurd hb (hbc hb' k hk)
      · rw [hin k' hk'] at hb'
        rw [List.mem_singleton.mp hk, hself] at hb
        exact absurd hb' (hbc hb k' hk')
      · rw [List.mem_singleton.mp hk, List.mem_singleton.mp hk']

/-- A station that is freed takes the bit of its AID with it; without an AID that is the bit of
the group frames. -/
theorem TimTold.freeStainfo (h : TimTold g p) {s : StaSlot} (hs : s ∈ p.staHash)
    (hok : (p.sta s).aid = 0 → ∀ k, k ≠ s → (p.sta k).NoGroup) :
    TimTold g (Rtl8812au.freeStainfo p s) := by
  have hf := freed_freeStainfo p s
  have hotheraid : ∀ k, k ≠ s → ((Rtl8812au.freeStainfo p s).sta k).aid = (p.sta k).aid :=
    fun k hk => by rw [hf.others k hk]
  -- the slot has no AID any more
  have hself : ((Rtl8812au.freeStainfo p s).sta s).aid = 0 := by
    rcases Nat.eq_zero_or_pos (p.sta s).aid with h0 | hpos
    · rw [(hf.kept (Or.inr h0)).1, h0]
    · exact (hf.given (h.aids s hpos) hpos).1
  have haddr : ∀ k, ((Rtl8812au.freeStainfo p s).sta k).hwaddr = (p.sta k).hwaddr := by
    intro k
    by_cases hk : k = s
    · rw [hk, hf.hwaddr]
    · rw [hf.others k hk]
  refine ⟨fun k => ?_, fun k hpos => ?_, ?_, ?_, ?_, fun k hk => ?_, ?_⟩
  · rw [hf.timBitmap]
    by_cases hk : k = s
    · rw [hk]
      -- nothing sleeps in the slot, so that nothing has to be told of it
      refine ⟨?_, ?_, fun _ => hself, fun _ _ hq => absurd hf.sleepQ hq, fun hw => ?_⟩
      · rw [hf.sleepqLen, hf.sleepQ]
        rfl
      · rw [hself]
        decide
      · have hpos := hw.1
        rw [hself] at hpos
        exact absurd hpos (Nat.lt_irrefl 0)
    · rw [hf.others k hk]
      have hk' := (h.told k).clear (h.told s).aid_lt (fun _ h0 => hok h0 k hk)
        fun hw => h.aid_ne hk hw.1
      exact ⟨hk'.len, hk'.aid_lt, hk'.group_aid, hk'.group, hk'.legacy⟩
  · have hk : k ≠ s := by
      rintro rfl
      rw [hself] at hpos
      exact Nat.lt_irrefl 0 hpos
    rw [hotheraid k hk] at hpos ⊢
    rcases Nat.eq_zero_or_pos (p.sta s).aid with h0 | hpos'
    · rw [(hf.kept (Or.inr h0)).2]
      exact h.aids k hpos
    · rw [(hf.given (h.aids s hpos') hpos').2]
      -- the table of AIDs: only the entry of this station is cleared
      have hne := h.aid_ne hk hpos
      dsimp only
      rw [if_neg (by omega)]
      exact h.aids k hpos
  · rw [hf.maxNumSta]
    exact h.max
  -- a slot is free or in use, and free once
  · rw [hf.freeStaQueue, hf.staHash]
    intro k hk hmem
    obtain ⟨hmem, hne⟩ := List.mem_filter.mp hmem
    rcases List.mem_append.mp hk with hk | hk
    · exact h.free k hk hmem
    · rw [List.mem_singleton.mp hk] at hne
      simp at hne
  · rw [hf.freeStaQueue]
    refine List.nodup_append.mpr ⟨h.nodup, List.pairwise_singleton _ s, ?_⟩
    rintro k hk _ hk' rfl
    rw [List.mem_singleton.mp hk'] at hk
    exact h.free s hk hs
  · by_cases hks : k = s
    · rw [hks]
      exact hf.sleepQ
    · rw [hf.others k hks]
      refine h.idle k fun hmem => hk ?_
      rw [hf.staHash]
      exact List.mem_filter.mpr ⟨hmem, by simpa using hks⟩
  · rw [hf.staHash]
    intro k hk k' hk' hb hb'
    rw [haddr] at hb hb'
    exact h.one k (List.mem_filter.mp hk).1 k' (List.mem_filter.mp hk').1 hb hb'

/-! ## Associations -/

/-- The categories change under the frames that wait. -/
theorem TimTold.assocQos (h : TimTold g p) {s : StaSlot} {wmm : Option Nat}
    (hok : ((Rtl8812au.assocQos p s wmm).sta s).LegacyWaits →
      p.timBitmap.getLsbD (p.sta s).aid = true) :
    TimTold g (Rtl8812au.assocQos p s wmm) := by
  have hs : ((Rtl8812au.assocQos p s wmm).sta s).sleepQ = (p.sta s).sleepQ ∧
      ((Rtl8812au.assocQos p s wmm).sta s).sleepqLen = (p.sta s).sleepqLen ∧
      ((Rtl8812au.assocQos p s wmm).sta s).aid = (p.sta s).aid ∧
      ((Rtl8812au.assocQos p s wmm).sta s).hwaddr = (p.sta s).hwaddr := by
    cases wmm with
    | none => simp [Rtl8812au.assocQos, StaPriv.updSta]
    | some info => simp [Rtl8812au.assocQos, StaPriv.updSta]
  unfold Rtl8812au.assocQos at hs hok ⊢
  rw [StaPriv.updSta_self] at hs hok
  obtain ⟨hq, hlen, haid, haddr⟩ := hs
  refine h.updSta haddr haid (fun hn => hq.trans (h.idle s hn)) ⟨?_, ?_, ?_, ?_, ?_⟩
  · rw [hlen, hq]
    exact (h.told s).len
  · rw [haid]
    exact (h.told s).aid_lt
  · rw [haddr, haid]
    exact (h.told s).group_aid
  · rw [haddr, hq]
    exact (h.told s).group
  · rw [haid]
    exact hok

theorem freeAid_spec {p : StaPriv} (hmax : p.maxNumSta ≤ numSta) (hle : ¬ p.maxNumSta < p.freeAid) :
    0 < p.freeAid ∧ p.staAid (p.freeAid - 1) = none := by
  unfold StaPriv.freeAid at hle ⊢
  cases hfind : (List.range numSta).find? fun k => (p.staAid k).isNone with
  | none =>
      rw [hfind] at hle
      simp only [Option.getD_none] at hle
      omega
  | some k =>
      have hk := List.find?_some hfind
      exact ⟨Nat.succ_pos _, by simpa using hk⟩

/-- A station gets another AID, or none, and `sta_aid` says so. -/
theorem TimTold.setAid (h : TimTold g p) {s : StaSlot} {a : Nat} {tab : Nat → Option StaSlot}
    (htold : StaTold g p.timBitmap { p.sta s with aid := a })
    (hown : 0 < a → tab (a - 1) = some s)
    (hothers : ∀ k, k ≠ s → 0 < (p.sta k).aid → tab ((p.sta k).aid - 1) = some k) :
    TimTold g { p.updSta s (fun x => { x with aid := a }) with staAid := tab } := by
  have hself : (p.updSta s fun x => { x with aid := a }).sta s = { p.sta s with aid := a } :=
    p.updSta_self s _
  have haddr : ∀ k, ((p.updSta s fun x => { x with aid := a }).sta k).hwaddr =
      (p.sta k).hwaddr := by
    intro k
    by_cases hk : k = s
    · rw [hk, hself]
    · rw [p.updSta_ne _ hk]
  refine ⟨fun k => ?_, fun k => ?_, h.max, h.free, h.nodup, fun k hk => ?_, ?_⟩
  · show StaTold g p.timBitmap ((p.updSta s fun x => { x with aid := a }).sta k)
    by_cases hk : k = s
    · rw [hk, hself]
      exact htold
    · rw [p.updSta_ne _ hk]
      exact h.told k
  · show 0 < ((p.updSta s fun x => { x with aid := a }).sta k).aid →
      tab (((p.updSta s fun x => { x with aid := a }).sta k).aid - 1) = some k
    by_cases hk : k = s
    · rw [hk, hself]
      exact hown
    · rw [p.updSta_ne _ hk]
      exact hothers k hk
  · show ((p.updSta s fun x => { x with aid := a }).sta k).sleepQ = []
    by_cases hks : k = s
    · rw [hks, hself]
      exact h.idle s (hks ▸ hk)
    · rw [p.updSta_ne _ hks]
      exact h.idle k hk
  · intro k hk k' hk' hb hb'
    exact h.one k hk k' hk' ((haddr k).symm.trans hb) ((haddr k').symm.trans hb')

/-- A station gets an AID: a small one, and nothing that waits is unannounced under it. -/
theorem TimTold.assocAid (h : TimTold g p) {s : StaSlot}
    (hok : (p.sta s).aid = 0 → p.freeAid < 32 ∧ (p.sta s).hwaddr ≠ .bcast ∧
      ((p.sta s).hasLegacyAc = true → (∃ f ∈ (p.sta s).sleepQ, (p.sta s).delivers f = false) →
        p.timBitmap.getLsbD p.freeAid = true))
    (haid : Rtl8812au.assocAid p s = some p') : TimTold g p' := by
  unfold Rtl8812au.assocAid at haid
  split at haid
  · cases haid
    exact h
  · rename_i hzero
    split at haid
    · cases haid
    · rename_i hle
      cases haid
      obtain ⟨hlt, hb, hwait⟩ := hok (Nat.eq_zero_of_not_pos hzero)
      obtain ⟨hpos, hnone⟩ := freeAid_spec h.max hle
      refine h.setAid ⟨(h.told s).len, hlt, fun hb' => absurd hb' hb, (h.told s).group,
        fun hw => hwait hw.2.1 hw.2.2⟩ (fun _ => if_pos rfl) fun k _ hkpos => ?_
      have hk := h.aids k hkpos
      rw [if_neg]
      · exact hk
      · intro heq
        rw [heq, hnone] at hk
        cases hk

theorem TimTold.dropAid (h : TimTold g p) (s : StaSlot) : TimTold g (Rtl8812au.dropAid p s) :=
  h.setAid ⟨(h.told s).len, Nat.succ_pos 31, fun _ => rfl, (h.told s).group,
    fun hw => absurd hw.1 (Nat.lt_irrefl 0)⟩ (fun hpos => absurd hpos (Nat.lt_irrefl 0))
    fun k _ => h.aids k

end Ops

/-! ## Every run -/

/-- Group frames wait at a station other than `s`. -/
def StaPriv.groupWaits (p : StaPriv) (s : StaSlot) : Prop :=
  ∃ k, k ≠ s ∧ ¬ (p.sta k).NoGroup

/-- The steps after which every indication is still there. A station without an AID shares the
bit of the group frames: it may go away, wake up or be served only while none wait, or while
they leave with it. A request may not turn frames that wait into frames nobody was told
about, and no station may get the AID 32, whose bit is bit 0 again. -/
def PsTimOk (p : StaPriv) : PsOp → Prop
  | .free s => (p.sta s).aid = 0 → ¬ p.groupWaits s
  | .wakeup s => (p.sta s).aid = 0 → ¬ p.groupWaits s ∨ p.staDzBitmap &&& 0xfffe#16 = 0
  | .deliver s => (p.sta s).aid = 0 → (p.sta s).hasLegacyAc = false →
      (∃ f ∈ (p.sta s).sleepQ, ((p.sta s).uapsd (acOf f.priority)).trigger = true) →
      ∀ k, (p.sta k).NoGroup
  | .psPoll ta aid priority => ∀ s, PollServed p ta aid priority s → (p.sta s).aid = 0 →
      (p.sta s).sleepQ.length ≤ 1 → ¬ p.groupWaits s
  | .qos s wmm => ((assocQos p s wmm).sta s).LegacyWaits →
      p.timBitmap.getLsbD (p.sta s).aid = true
  | .aid s => (p.sta s).aid = 0 → p.freeAid < 32 ∧ (p.sta s).hwaddr ≠ .bcast ∧
      ((p.sta s).hasLegacyAc = true → (∃ f ∈ (p.sta s).sleepQ, (p.sta s).delivers f = false) →
        p.timBitmap.getLsbD p.freeAid = true)
  | _ => True

theorem not_groupWaits {p : StaPriv} {s : StaSlot} :
    ¬ p.groupWaits s ↔ ∀ k, k ≠ s → (p.sta k).NoGroup := by
  simp only [StaPriv.groupWaits, not_exists, not_and, not_not]

/-- **One step** keeps every indication. -/
theorem TimTold.psStep {p p' : StaPriv} {op : PsOp} (h : TimTold True p) (hok : PsTimOk p op)
    (hstep : Rtl8812au.psStep p op = .done p') : TimTold True p' := by
  unfold Rtl8812au.psStep at hstep
  split at hstep
  · rename_i happ
    cases op with
    | alloc a =>
        cases hstep
        cases halloc : Rtl8812au.allocStainfo p a with
        | none => exact h
        | some r => exact h.allocStainfo happ halloc
    | free s => cases hstep; exact h.freeStainfo happ fun h0 => not_groupWaits.mp (hok h0)
    | qos s wmm => cases hstep; exact h.assocQos hok
    | aid s =>
        cases hstep
        cases haid : Rtl8812au.assocAid p s with
        | none => exact h
        | some r => exact h.assocAid hok haid
    | refuse s => cases hstep; exact h.dropAid s
    | link s =>
        cases hstep
        exact h.updSta rfl rfl (h.idle s) ((h.told s).state true _ _ _)
    | enqueue f => cases hstep; exact h.enqueueForSleepingSta f
    | classify f => cases hstep; exact h.queuesOnly (QueuesOnly.halEnqueue p f)
    | dequeue inx =>
        cases hstep
        cases hdeq : rtwDequeueXframe p inx with
        | none => exact h
        | some r => exact h.queuesOnly (QueuesOnly.dequeueXframe hdeq)
    | stop s => exact h.stopStaXmit hstep
    | wakeup s =>
        cases hstep
        exact h.wakeupStaToXmit fun h0 => (hok h0).imp_left not_groupWaits.mp
    | deliver s => cases hstep; exact h.deliver hok
    | psPoll ta aid priority =>
        cases hstep
        exact h.recvPsPoll fun s hs h0 hlen => not_groupWaits.mp (hok s hs h0 hlen)
  · cases hstep
    exact h

theorem timTold_init (apState : Bool) (hiq : HiqFilter) (expireTo : Nat) :
    TimTold True (initStaPriv apState hiq expireTo numSta) where
  told := fun _ => ⟨rfl, Nat.succ_pos 31, fun _ => rfl, fun _ _ hq => absurd rfl hq,
    fun hw => absurd hw.1 (Nat.lt_irrefl 0)⟩
  aids := fun _ hpos => absurd hpos (Nat.lt_irrefl 0)
  max := Nat.le_refl _
  free := fun _ _ hs => by cases hs
  nodup := List.nodup_finRange numSta
  idle := fun _ _ => rfl
  one := fun _ hs => by cases hs

/-- **Nothing that waits is unannounced**: bit 0 is set while the broadcast station has frames;
the bit of a station is set while it has a frame to fetch; and no two of them share a bit. -/
structure StaPriv.Indicated (p : StaPriv) : Prop where
  group : ∀ b, p.getBcmcStainfo = some b → (p.sta b).sleepQ ≠ [] → p.timBitmap.getLsbD 0 = true
  legacy : ∀ s, (p.sta s).LegacyWaits → p.timBitmap.getLsbD (p.sta s).aid = true
  distinct : ∀ s s', s ≠ s' → (p.sta s).LegacyWaits → (p.sta s').LegacyWaits →
    bitU16 (p.sta s).aid ≠ bitU16 (p.sta s').aid
  notGroup : ∀ s, (p.sta s).LegacyWaits → bitU16 (p.sta s).aid ≠ bitU16 0

/-- **No lost traffic indication**, in every state that is reached by such steps. -/
theorem no_lost_indication {apState : Bool} {hiq : HiqFilter} {expireTo : Nat} {p : StaPriv}
    (h : Reach psStep PsTimOk (initStaPriv apState hiq expireTo numSta) p) : p.Indicated := by
  have hinv : TimTold True p := h.invariant (TimTold True) (timTold_init apState hiq expireTo)
    TimTold.psStep
  have hlt : ∀ s, (p.sta s).LegacyWaits → (p.sta s).aid < 16 := fun s hw =>
    BitVec.lt_of_getLsbD ((hinv.told s).legacy hw)
  refine ⟨fun b hget hq => ?_, fun s hw => (hinv.told s).legacy hw, fun s s' hne hw hw' => ?_,
    fun s hw => ?_⟩
  · exact (hinv.told b).group trivial (getStainfo_some hget).2 hq
  · exact bitU16_ne (hlt s hw) (hlt s' hw') (hinv.aid_ne hne hw.1)
  · exact bitU16_ne (hlt s hw) (by decide) (Nat.pos_iff_ne_zero.mp hw.1)

/-- A group frame. -/
def sampleGroup : TxFrame := { id := 7, psta := some 0, ra := .bcast }

/-- The broadcast station and a station that is not associated yet. -/
def sampleTwo : List PsOp := [.alloc .bcast, .link 0, .alloc sampleStaAddr]

/-- It has the AID 1 and sleeps; a frame for it comes, and a group frame. -/
def sampleDoze : List PsOp := [.link 1, .stop 1, .enqueue (sampleTo 0 0), .enqueue sampleGroup]

theorem no_lost_indication_sample : ∃ p,
    Reach psStep PsTimOk (initStaPriv true .allowAll 3 numSta) p ∧
      p.timBitmap = 3 ∧ p.Indicated := by
  have hqos : ∀ p, runActions psStep (initStaPriv true .allowAll 3 numSta) sampleTwo = .done p →
      PsTimOk p (.qos 1 none) := by
    intro p hp hw
    have haid : ((assocQos p 1 none).sta 1).aid = 0 :=
      Outcome.view_done (f := fun p => ((assocQos p 1 none).sta 1).aid) hp (by decide)
    have hpos := hw.1
    rw [haid] at hpos
    exact absurd hpos (Nat.lt_irrefl 0)
  have haid : ∀ p, runActions psStep (initStaPriv true .allowAll 3 numSta)
      (sampleTwo ++ [.qos 1 none]) = .done p → PsTimOk p (.aid 1) := by
    intro p hp _
    have hview : (p.freeAid, (p.sta 1).hwaddr, (p.sta 1).sleepQ.length) =
        (1, sampleStaAddr, 0) :=
      Outcome.view_done (f := fun p => (p.freeAid, (p.sta 1).hwaddr, (p.sta 1).sleepQ.length)) hp
        (by decide)
    obtain ⟨hfree, hrest⟩ := Prod.mk.inj hview
    obtain ⟨haddr, hlen⟩ := Prod.mk.inj hrest
    refine ⟨by rw [hfree]; decide, by rw [haddr]; decide, fun _ hf => ?_⟩
    rw [List.eq_nil_of_length_eq_zero hlen] at hf
    obtain ⟨f, hf, -⟩ := hf
    cases hf
  have hok : RunOk psStep PsTimOk (initStaPriv true .allowAll 3 numSta)
      (((sampleTwo ++ [.qos 1 none]) ++ [.aid 1]) ++ sampleDoze) := by
    refine RunOk.append (RunOk.append (RunOk.append (RunOk.of_all ?_) fun p hp =>
      ⟨hqos p hp, fun _ _ => trivial⟩) fun p hp => ⟨haid p hp, fun _ _ => trivial⟩)
      fun p hp => RunOk.of_all ?_
    · intro a ha t
      simp only [sampleTwo, List.mem_cons, List.not_mem_nil, or_false] at ha
      rcases ha with rfl | rfl | rfl <;> exact trivial
    · intro a ha t
      simp only [sampleDoze, List.mem_cons, List.not_mem_nil, or_false] at ha
      rcases ha with rfl | rfl | rfl | rfl <;> exact trivial
  obtain ⟨p, hp, hview⟩ := Outcome.of_view
    (o := runActions psStep (initStaPriv true .allowAll 3 numSta)
      (((sampleTwo ++ [.qos 1 none]) ++ [.aid 1]) ++ sampleDoze)) (f := StaPriv.timBitmap)
    (b := 3) (by decide)
  have hreach := reach_runActions Reach.start hok hp
  exact ⟨p, hreach, hview, no_lost_indication hreach⟩

/-- Without the condition: a group frame waits for a station that sleeps, and another station,
which has no AID yet, is freed. The frame still waits, and bit 0 is clear. -/
theorem freed_station_clears_group_bit : ∃ p,
    runActions psStep (initStaPriv true .allowAll 3 numSta)
      (sampleTwo ++ [.qos 1 none, .aid 1] ++ sampleDoze ++
        [.alloc ⟨2, 0, 0, 0, 0, 2⟩, .free 2]) = .done p ∧
      p.getBcmcStainfo = some 0 ∧ (p.sta 0).sleepQ.length = 1 ∧ ¬ p.Indicated := by
  obtain ⟨p, hp, hview⟩ := Outcome.of_view
    (o := runActions psStep (initStaPriv true .allowAll 3 numSta)
      (sampleTwo ++ [.qos 1 none, .aid 1] ++ sampleDoze ++
        [.alloc ⟨2, 0, 0, 0, 0, 2⟩, .free 2]))
    (f := fun p => (p.getBcmcStainfo, (p.sta 0).sleepQ.length, p.timBitmap.getLsbD 0))
    (b := (some 0, 1, false)) (by decide)
  obtain ⟨hget, hrest⟩ := Prod.mk.inj hview
  obtain ⟨hlen, hbit⟩ := Prod.mk.inj hrest
  refine ⟨p, hp, hget, hlen, fun hind => ?_⟩
  have hset := hind.group 0 hget fun hq => by
    rw [hq] at hlen
    cases hlen
  rw [hbit] at hset
  cases hset

end Rtl8812au
