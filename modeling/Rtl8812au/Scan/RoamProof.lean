import Rtl8812au.Scan.Roam
import Rtl8812au.Scan.NetworkProof

/-!
# The network that is joined is still the one that was chosen

From the selection of a roaming candidate to the join its entry must stay in the queue and go on being a
network that may be roamed to: no expiry, no eviction and no frame may take it away. The search of the
queue looks at the entries when it is made, and all that can go wrong is that the link that is given up
for the new one takes the new one with it.
-/

namespace Rtl8812au

open Pool Pick ScanTable

/-! ## What is to hold -/

/-- Networks that may be roamed to. -/
def Eligible (cfg : MlmeCfg) (b : WlanBssidEx) : Prop :=
  isDesiredNetwork cfg b = true ∧ isSameEss b cfg.curNetwork = true

namespace RoamMlme

/-- The call of `rtw_joinbss_cmd` with `s` is right: `m` is the state before, `m'` the state of the call. -/
structure JoinRight (env : ScanEnv) (m m' : RoamMlme) (s : BssSlot) : Prop where
  scanned : s ∈ m'.table.scannedQueue
  desired : isDesiredNetwork m'.cfg (m'.network s) = true
  sameEss : m.roamNetwork ≠ none → isSameEss (m'.network s) m'.cfg.curNetwork = true
  strongest : m.roamNetwork = none → m.joinFilter env s = true
    ∧ ∀ x ∈ m.table.scannedQueue, m.joinFilter env x = true → (m.network x).rssi ≤ (m.network s).rssi

end RoamMlme

/-! ## When it holds -/

/-- The entry takes over the elements of a frame: it has the network of the frame, and the frame is no probe
request and tells no less than what is there, or it is given up for that network. -/
def TakesOver (p2p : Bool) (t : ScanTable) (target : WlanBssidEx) (s : BssSlot) : Prop :=
  (∃ oldest, t.findTarget p2p target t.scannedQueue none = (some s, oldest)
      ∧ target.reserved0 ≠ 2 ∧ (t.net s).network.reserved0 ≤ target.reserved0)
    ∨ t.freeBssPool = [] ∧ t.findTarget p2p target t.scannedQueue none = (none, some s)

/-- The entry is not fixed, and all are freed or its time is over. -/
def Expires (env : ScanEnv) (isfreeall : Bool) (n : WlanNetwork) : Prop :=
  n.fixed = false ∧ (isfreeall = true ∨ (if env.adhoc then 1 else scanqueueLifetime)
    ≤ rtwGetPassingTimeMs env.hz env.jiffies n.lastScanned.toUInt32)

namespace RoamMlme

/-- The entry that is next to be joined: that of `roam_network`, or the first of the strongest. -/
def Next (env : ScanEnv) (m : RoamMlme) (s : BssSlot) : Prop :=
  m.roamNetwork = some s
    ∨ m.roamNetwork = none
      ∧ FirstBest (m.joinFilter env) (fun x => (m.network x).rssi) m.table.scannedQueue s

/-- The entry is not that of the link, and will do without `WIFI_UNDER_WPS` too. -/
structure Outlives (m : RoamMlme) (s : BssSlot) : Prop where
  notFreed : findNetwork m.table m.cfg.curNetwork.macAddress ≠ some s
  notCleared : m.cfg.curNetworkScanned ≠ some s
  desired : m.cfg.underWps = true → isDesiredNetwork { m.cfg with underWps := false } (m.network s) = true

end RoamMlme

/-- No step takes the candidate away. -/
def RoamOk (m : RoamMlme) : RoamEvent → Prop
  | .select _ => True
  | .scan p2p (.update _ target) => ∀ s, m.roamNetwork = some s → TakesOver p2p m.table target s →
      Eligible m.cfg ((m.network s).copyFrom target)
  | .scan _ (.freeQueue env isfreeall) => ∀ s, m.roamNetwork = some s →
      ¬ Expires env isfreeall (m.table.net s)
  | .join env => m.cfg.linked = true → ∀ s, m.Next env s → m.Outlives s
  | .configure cfg => ∀ s, m.roamNetwork = some s → Eligible cfg (m.network s)

section

variable {m : RoamMlme} {p2p : Bool} {env : ScanEnv} {s : BssSlot}

instance (cfg : MlmeCfg) (b : WlanBssidEx) : Decidable (Eligible cfg b) :=
  inferInstanceAs (Decidable (_ ∧ _))

instance (isfreeall : Bool) (n : WlanNetwork) : Decidable (Expires env isfreeall n) :=
  inferInstanceAs (Decidable (_ ∧ _))

instance (t : ScanTable) (target : WlanBssidEx) : Decidable (TakesOver p2p t target s) :=
  let found := t.findTarget p2p target t.scannedQueue none
  decidable_of_iff (found.1 = some s ∧ target.reserved0 ≠ 2
      ∧ (t.net s).network.reserved0 ≤ target.reserved0
    ∨ t.freeBssPool = [] ∧ found = (none, some s))
    (or_congr_left ⟨fun h => ⟨found.2, Prod.ext h.1 rfl, h.2⟩,
      fun ⟨_, hf, h⟩ => ⟨congrArg Prod.fst hf, h⟩⟩)

instance : Decidable (m.Outlives s) :=
  decidable_of_iff (_ ∧ _ ∧ _) ⟨fun h => ⟨h.1, h.2.1, h.2.2⟩, fun h => ⟨h.notFreed, h.notCleared, h.desired⟩⟩

end

/-! ## The scan table -/

namespace ScanTable

variable {t t' : ScanTable} {p2p : Bool} {env : ScanEnv} {target : WlanBssidEx} {s : BssSlot}
  {cfg : MlmeCfg}

theorem eligible_updateNetwork {old : WlanBssidEx} {updateIe : Bool} (h : Eligible cfg old)
    (htake : updateIe = true → Eligible cfg (old.copyFrom target)) :
    Eligible cfg (updateNetwork env old target updateIe) := by
  cases updateIe with
  | false => exact h
  | true => exact htake rfl

theorem eligible_enterNetwork {old : WlanBssidEx} (h : Eligible cfg (old.copyFrom target)) :
    Eligible cfg (enterNetwork old target) := by
  unfold enterNetwork
  dsimp only
  split
  · exact h
  · exact h

/-- **An update leaves the entry in the queue**, and a network that may be roamed to one. -/
theorem Writes.keeps (hplaced : Placed (List.finRange maxBssCnt) [] t.contents) (hs : s ∈ t.scannedQueue)
    (h : Eligible cfg (t.net s).network)
    (htake : TakesOver p2p t target s → Eligible cfg ((t.net s).network.copyFrom target))
    (hw : Writes p2p env target t t') : s ∈ t'.scannedQueue ∧ Eligible cfg (t'.net s).network := by
  cases hw with
  | @found x o hfind =>
      refine ⟨hs, ?_⟩
      by_cases hx : s = x
      · subst hx
        rw [setNet_self]
        refine eligible_updateNetwork h fun hupd => htake (Or.inl ⟨o, hfind, ?_⟩)
        obtain ⟨hreq, hmore⟩ := Bool.and_eq_true_iff.mp hupd
        exact ⟨bne_iff_ne.mp hreq, of_decide_eq_true hmore⟩
      · rw [setNet_of_ne _ _ hx]
        exact h
  | @evicted x hfind hpool =>
      refine ⟨hs, ?_⟩
      by_cases hx : s = x
      · subst hx
        rw [setNet_self]
        exact eligible_enterNetwork (htake (Or.inr ⟨hpool, hfind⟩))
      · rw [setNet_of_ne _ _ hx]
        exact h
  | stuck _ _ => exact ⟨hs, h⟩
  | @entered x pool o _ hpool =>
      refine ⟨List.mem_append_left _ hs, ?_⟩
      have hx : s ≠ x := by
        intro hsx
        refine notMem_pool hplaced hs ?_
        rw [hpool, hsx]
        exact List.mem_cons_self
      show Eligible cfg ((t.setNet x _).net s).network
      rw [setNet_of_ne _ _ hx]
      exact h

/-- **One entry freed**: no other leaves the queue, and it leaves only if its time is over. -/
theorem freeNetwork_keeps (env : ScanEnv) (isfreeall : Bool)
    (h : Placed (List.finRange maxBssCnt) [] t.contents)
    (hs : s ∈ t.scannedQueue) :
    Placed (List.finRange maxBssCnt) [] (t.freeNetwork env isfreeall s).contents
      ∧ (t.freeNetwork env isfreeall s).net = t.net
      ∧ ∀ x ∈ t.scannedQueue, (x = s → ¬ Expires env isfreeall (t.net s)) →
        x ∈ (t.freeNetwork env isfreeall s).scannedQueue := by
  have hstay : Placed (List.finRange maxBssCnt) [] t.contents ∧ t.net = t.net ∧
      ∀ x ∈ t.scannedQueue, (x = s → ¬ Expires env isfreeall (t.net s)) → x ∈ t.scannedQueue :=
    ⟨h, rfl, fun x hx _ => hx⟩
  unfold ScanTable.freeNetwork
  dsimp only
  by_cases hfixed : (t.net s).fixed = true
  · rw [if_pos hfixed]
    exact hstay
  · rw [if_neg hfixed]
    by_cases hearly : (!isfreeall && decide (rtwGetPassingTimeMs env.hz env.jiffies
        (t.net s).lastScanned.toUInt32 < if env.adhoc then 1 else scanqueueLifetime)) = true
    · rw [if_pos hearly]
      exact hstay
    · rw [if_neg hearly]
      refine ⟨?_, rfl, ?_⟩
      · rw [← pool_filter_eq h hs]
        exact placed_unlinked h
      · intro x hx hexp
        refine List.mem_filter.mpr ⟨hx, bne_iff_ne.mpr fun hxs => hexp hxs ⟨?_, ?_⟩⟩
        · exact Bool.eq_false_iff.mpr hfixed
        · rw [Bool.and_eq_true_iff, not_and_or, Bool.not_eq_true, Bool.not_eq_false',
            decide_eq_true_eq, UInt32.not_lt] at hearly
          exact hearly

/-- **The whole queue.** -/
theorem foldl_freeNetwork_keeps {isfreeall : Bool} : ∀ {l : List BssSlot} {t : ScanTable},
    Placed (List.finRange maxBssCnt) [] t.contents → l.Nodup → (∀ x ∈ l, x ∈ t.scannedQueue) →
      Placed (List.finRange maxBssCnt) [] (l.foldl (ScanTable.freeNetwork env isfreeall) t).contents
        ∧ (l.foldl (ScanTable.freeNetwork env isfreeall) t).net = t.net
        ∧ ∀ x ∈ t.scannedQueue, ¬ Expires env isfreeall (t.net x) →
          x ∈ (l.foldl (ScanTable.freeNetwork env isfreeall) t).scannedQueue := by
  intro l
  induction l with
  | nil => intro t h _ _; exact ⟨h, rfl, fun x hx _ => hx⟩
  | cons y l ih =>
      intro t h hnd hall
      obtain ⟨hy, hnd⟩ := List.nodup_cons.mp hnd
      obtain ⟨h1, hnet, hrest⟩ := freeNetwork_keeps env isfreeall h (hall y List.mem_cons_self)
      have hstill : ∀ x ∈ l, x ∈ (t.freeNetwork env isfreeall y).scannedQueue := by
        intro x hx
        refine hrest x (hall x (List.mem_cons_of_mem y hx)) fun hxy => ?_
        rw [hxy] at hx
        exact absurd hx hy
      obtain ⟨h2, hnet2, hkeep⟩ := ih h1 hnd hstill
      refine ⟨h2, hnet2.trans hnet, fun x hx hexp => hkeep x (hrest x hx fun hxy => ?_) ?_⟩
      · rw [← hxy]
        exact hexp
      · rw [hnet]
        exact hexp

end ScanTable

/-! ## Choosing -/

namespace RoamMlme

variable {env : ScanEnv} {m : RoamMlme} {s : BssSlot}

theorem checkRoamingCandidate_cases (env : ScanEnv) (m : RoamMlme) (cur : BssSlot)
    (candidate : Option BssSlot) (competitor : BssSlot) :
    m.checkRoamingCandidate env cur candidate competitor = candidate
      ∨ m.checkRoamingCandidate env cur candidate competitor = some competitor
        ∧ Eligible m.cfg (m.network competitor) := by
  unfold checkRoamingCandidate
  by_cases hess : isSameEss (m.network competitor) m.cfg.curNetwork = true
  · by_cases hdes : isDesiredNetwork m.cfg (m.network competitor) = true
    · rw [if_neg (by rw [hess]; exact Bool.false_ne_true), if_neg (by rw [hdes]; exact Bool.false_ne_true)]
      have htake : ∀ r : Option BssSlot, r = candidate ∨ r = some competitor →
          r = candidate ∨ r = some competitor ∧ Eligible m.cfg (m.network competitor) :=
        fun r h => h.imp_right fun h => ⟨h, hdes, hess⟩
      refine htake _ ?_
      split
      · split
        · exact Or.inr rfl
        · exact Or.inl rfl
      · split
        · exact Or.inl rfl
        · split
          · exact Or.inl rfl
          · cases candidate with
            | none => exact Or.inr rfl
            | some c =>
                dsimp only
                split
                · exact Or.inl rfl
                · exact Or.inr rfl
    · rw [if_neg (by rw [hess]; exact Bool.false_ne_true), if_pos (by rw [Bool.not_eq_true] at hdes; rw [hdes]; rfl)]
      exact Or.inl rfl
  · rw [if_pos (by rw [Bool.not_eq_true] at hess; rw [hess]; rfl)]
    exact Or.inl rfl

/-- **A roaming candidate may be roamed to**, and is in the queue. -/
theorem roaming_picks {cur : BssSlot}
    (h : m.table.scannedQueue.foldl (m.checkRoamingCandidate env cur) none = some s) :
    s ∈ m.table.scannedQueue ∧ Eligible m.cfg (m.network s) := by
  rcases foldl_picks (checkRoamingCandidate_cases env m cur) h with hnone | hpick
  · cases hnone
  · exact hpick

/-- The candidate for a join is the better one. -/
theorem checkJoinCandidate_eq (env : ScanEnv) (m : RoamMlme) :
    m.checkJoinCandidate env = better (m.joinFilter env) fun x => (m.network x).rssi := by
  funext candidate competitor
  unfold checkJoinCandidate better
  cases candidate with
  | none => rfl
  | some c => rfl

theorem join_picks (h : m.table.scannedQueue.foldl (m.checkJoinCandidate env) none = some s) :
    FirstBest (m.joinFilter env) (fun x => (m.network x).rssi) m.table.scannedQueue s := by
  rw [checkJoinCandidate_eq] at h
  exact firstBest_of_foldl h

theorem desired_of_joinFilter (h : m.joinFilter env s = true) :
    isDesiredNetwork m.cfg (m.network s) = true := by
  simp only [joinFilter, Bool.and_eq_true] at h
  exact h.1.2

/-! ## The link that is given up -/

theorem findNetwork_congr {t t' : ScanTable} (hq : t'.scannedQueue = t.scannedQueue)
    (haddr : ∀ x, (t'.net x).network.macAddress = (t.net x).network.macAddress) (addr : MacAddr) :
    findNetwork t' addr = findNetwork t addr := by
  unfold findNetwork
  simp only [hq, haddr]

theorem clearAt_address (b : WlanBssidEx) (at' : Option Nat) :
    (b.clearAt at').macAddress = b.macAddress := by
  cases at' with
  | none => rfl
  | some attr => rfl

theorem clearSelectedRegistrar_address (b : WlanBssidEx) :
    b.clearSelectedRegistrar.macAddress = b.macAddress := clearAt_address b b.selectedRegistrar

/-- What `rtw_indicate_disconnect` leaves of the table. -/
theorem indicateDisconnect_table (m : RoamMlme) :
    m.indicateDisconnect.table.scannedQueue = m.table.scannedQueue
      ∧ m.indicateDisconnect.table.contents = m.table.contents
      ∧ (∀ x, (m.indicateDisconnect.network x).macAddress = (m.network x).macAddress)
      ∧ (m.cfg.curNetworkScanned ≠ some s → m.indicateDisconnect.network s = m.network s) := by
  unfold indicateDisconnect network
  cases m.cfg.curNetworkScanned with
  | none => exact ⟨rfl, rfl, fun _ => rfl, fun _ => rfl⟩
  | some c =>
      refine ⟨rfl, rfl, ?_, ?_⟩
      · intro x
        by_cases hx : x = c
        · subst hx
          rw [setNet_self, clearSelectedRegistrar_address]
        · rw [setNet_of_ne _ _ hx]
      · intro hne
        rw [setNet_of_ne]
        intro hsc
        exact hne (congrArg some hsc.symm)

/-- **One entry freed.** -/
theorem freeNetworkNolock_keeps {t : ScanTable} (x : BssSlot)
    (h : Placed (List.finRange maxBssCnt) [] t.contents) :
    Placed (List.finRange maxBssCnt) [] (freeNetworkNolock t x).contents
      ∧ (freeNetworkNolock t x).net = t.net
      ∧ ∀ y ∈ t.scannedQueue, y ≠ x → y ∈ (freeNetworkNolock t x).scannedQueue := by
  unfold freeNetworkNolock
  split
  · exact ⟨h, rfl, fun y hy _ => hy⟩
  · exact ⟨placed_unlinked h, rfl, fun y hy hne => List.mem_filter.mpr ⟨hy, bne_iff_ne.mpr hne⟩⟩

/-- **What is freed with the link**: the entry that is found under its address, and no other. -/
theorem freeAssocResources_keeps (m : RoamMlme) {t : ScanTable}
    (h : Placed (List.finRange maxBssCnt) [] t.contents) :
    Placed (List.finRange maxBssCnt) [] (m.freeAssocResources t).contents
      ∧ (∀ y, ((m.freeAssocResources t).net y).network = (t.net y).network)
      ∧ ∀ y ∈ t.scannedQueue, findNetwork t m.cfg.curNetwork.macAddress ≠ some y →
        y ∈ (m.freeAssocResources t).scannedQueue := by
  unfold freeAssocResources
  cases hfind : findNetwork t m.cfg.curNetwork.macAddress with
  | none => exact ⟨h, fun _ => rfl, fun y hy _ => hy⟩
  | some x =>
      dsimp only
      have hset : ∀ y, ((t.setNet x { t.net x with fixed := false }).net y).network
          = (t.net y).network := by
        intro y
        by_cases hyx : y = x
        · subst hyx
          rw [setNet_self]
        · rw [setNet_of_ne _ _ hyx]
      obtain ⟨h1, hnet1, hq1⟩ := freeNetworkNolock_keeps (t := t.setNet x { t.net x with fixed := false }) x h
      have hne : ∀ y, some x ≠ some y → y ≠ x := fun y hxy hyx => hxy (congrArg some hyx.symm)
      split
      · obtain ⟨h2, hnet2, hq2⟩ := freeNetworkNolock_keeps x h1
        refine ⟨h2, fun y => ?_, fun y hy hxy => hq2 y (hq1 y hy (hne y hxy)) (hne y hxy)⟩
        rw [hnet2, hnet1]
        exact hset y
      · refine ⟨h1, fun y => ?_, fun y hy hxy => hq1 y hy (hne y hxy)⟩
        rw [hnet1]
        exact hset y

/-- The flags of the link are not looked at, but for that of WPS. -/
theorem isDesiredNetwork_unlinked (cfg : MlmeCfg) (b : WlanBssidEx) :
    isDesiredNetwork { cfg with underWps := false, linked := false } b
      = isDesiredNetwork { cfg with underWps := false } b := rfl

/-- **The link given up leaves a network that outlives it.** -/
theorem leave_keeps (m : RoamMlme) (hplaced : Placed (List.finRange maxBssCnt) [] m.table.contents)
    (hs : s ∈ m.table.scannedQueue) (hdes : isDesiredNetwork m.cfg (m.network s) = true)
    (hout : m.cfg.linked = true → m.Outlives s) :
    s ∈ m.leave.table.scannedQueue ∧ m.leave.network s = m.network s
      ∧ isDesiredNetwork m.leave.cfg (m.leave.network s) = true
      ∧ m.leave.cfg.curNetwork = m.cfg.curNetwork := by
  by_cases hlinked : m.cfg.linked = true
  · have ho := hout hlinked
    obtain ⟨hqueue, hcontents, haddr, hsame⟩ := indicateDisconnect_table (s := s) m
    have hplaced' : Placed (List.finRange maxBssCnt) [] m.indicateDisconnect.table.contents := by
      rw [hcontents]
      exact hplaced
    obtain ⟨-, hnet, hstay⟩ := freeAssocResources_keeps m.indicateDisconnect hplaced'
    -- the network that is given up is another one, so that this one is not freed with it
    have hfound : findNetwork m.indicateDisconnect.table m.cfg.curNetwork.macAddress ≠ some s := by
      rw [findNetwork_congr hqueue haddr]
      exact ho.notFreed
    have hnetwork : m.leave.network s = m.network s := by
      unfold leave
      rw [if_pos hlinked]
      exact (hnet s).trans (hsame ho.notCleared)
    refine ⟨?_, hnetwork, ?_, ?_⟩
    · unfold leave
      rw [if_pos hlinked]
      refine hstay s ?_ hfound
      rw [hqueue]
      exact hs
    · have hcfg : m.leave.cfg = { m.cfg with underWps := false, linked := false } := by
        unfold leave
        rw [if_pos hlinked]
        rfl
      rw [hnetwork, hcfg, isDesiredNetwork_unlinked]
      -- WPS ends with the link; what is desired without it is asked of the network
      by_cases hwps : m.cfg.underWps = true
      · exact ho.desired hwps
      · have hsame : { m.cfg with underWps := false } = m.cfg := by
          rw [Bool.not_eq_true] at hwps
          rw [← hwps]
        rw [hsame]
        exact hdes
    · unfold leave
      rw [if_pos hlinked]
      rfl
  -- without a link nothing is given up
  · have hstays : m.leave = m := by
      unfold leave
      rw [if_neg hlinked]
    rw [hstays]
    exact ⟨hs, rfl, hdes, rfl⟩

theorem leave_placed (m : RoamMlme) (h : Placed (List.finRange maxBssCnt) [] m.table.contents) :
    Placed (List.finRange maxBssCnt) [] m.leave.table.contents := by
  unfold leave
  split
  · refine (freeAssocResources_keeps m.indicateDisconnect ?_).1
    rw [(indicateDisconnect_table (s := 0) m).2.1]
    exact h
  · exact h

theorem leave_roamNetwork (m : RoamMlme) : m.leave.roamNetwork = m.roamNetwork := by
  unfold leave
  split
  · rfl
  · rfl

end RoamMlme

/-! ## Every run -/

/-- **What holds before every step**: nothing of the table is lost, and the candidate is still one. -/
structure RoamInv (m : RoamMlme) : Prop where
  placed : Placed (List.finRange maxBssCnt) [] m.table.contents
  candidate : ∀ s, m.roamNetwork = some s → s ∈ m.table.scannedQueue ∧ Eligible m.cfg (m.network s)

namespace RoamInv

variable {m m' : RoamMlme} {env : ScanEnv} {s : BssSlot}

theorem start (cfg : MlmeCfg) : RoamInv (.start cfg) where
  placed := (@scanInv_initMlmePriv false).placed
  candidate := fun s h => by cases h

theorem select (h : RoamInv m) (env : ScanEnv) : RoamInv (m.selectRoamingCandidate env).1 := by
  unfold RoamMlme.selectRoamingCandidate
  cases m.cfg.curNetworkScanned with
  | none => exact h
  | some cur =>
      dsimp only
      cases hpick : m.table.scannedQueue.foldl (m.checkRoamingCandidate env cur) none with
      | none => exact h
      | some c =>
          refine ⟨h.placed, fun s hs => ?_⟩
          cases Option.some.inj hs
          obtain ⟨hmem, hdes, hess⟩ := RoamMlme.roaming_picks hpick
          exact ⟨hmem, hdes, hess⟩

theorem scan {p2p : Bool} {e : ScanEvent} {t : ScanTable} (h : RoamInv m) (hok : RoamOk m (.scan p2p e))
    (hstep : scanStep p2p m.table e = .done t) : RoamInv { m with table := t } := by
  cases e with
  | update env target =>
      cases hstep
      have hw := writes p2p env target m.table
      refine ⟨hw.placed h.placed, fun s hs => ?_⟩
      obtain ⟨hmem, helig⟩ := h.candidate s hs
      exact hw.keeps h.placed hmem helig (hok s hs)
  | freeQueue env isfreeall =>
      cases hstep
      have hnd : m.table.scannedQueue.Nodup := h.placed.place_nodup .queue
      obtain ⟨hplaced, hnet, hkeep⟩ := @foldl_freeNetwork_keeps env isfreeall _ _
        h.placed hnd fun x hx => hx
      refine ⟨hplaced, fun s hs => ?_⟩
      obtain ⟨hmem, helig⟩ := h.candidate s hs
      refine ⟨hkeep s hmem (hok s hs), ?_⟩
      show Eligible m.cfg ((m.table.freeNetworkQueue env isfreeall).net s).network
      unfold freeNetworkQueue
      rw [hnet]
      exact helig

theorem join (h : RoamInv m) (env : ScanEnv) : RoamInv (m.selectAndJoin env).1 := by
  have hleft : ∀ m : RoamMlme, Placed (List.finRange maxBssCnt) [] m.table.contents →
      m.roamNetwork = none → RoamInv m.leave := by
    intro m hplaced hnone
    refine ⟨m.leave_placed hplaced, fun s hs => ?_⟩
    rw [m.leave_roamNetwork, hnone] at hs
    cases hs
  unfold RoamMlme.selectAndJoin
  cases hroam : m.roamNetwork with
  | some c => exact hleft { m with roamNetwork := none } h.placed rfl
  | none =>
      dsimp only
      cases m.table.scannedQueue.foldl (m.checkJoinCandidate env) none with
      | none => exact h
      | some c => exact hleft m h.placed hroam

/-- **Preserved by every step.** -/
theorem step {e : RoamEvent} (h : RoamInv m) (hok : RoamOk m e) (hstep : roamStep m e = .done m') :
    RoamInv m' := by
  cases e with
  | select env =>
      cases hstep
      exact h.select env
  | scan p2p e =>
      obtain ⟨t, ht, hm⟩ := Outcome.bind_eq_done.mp hstep
      cases hm
      exact h.scan hok ht
  | join env =>
      cases hstep
      exact h.join env
  | configure cfg =>
      cases hstep
      exact ⟨h.placed, fun s hs => ⟨(h.candidate s hs).1, hok s hs⟩⟩

/-- **A join from a state of the invariant is right.** -/
theorem joinRight (h : RoamInv m) (hok : RoamOk m (.join env)) (hjoin : m.selectAndJoin env = (m', some s)) :
    m.JoinRight env m' s := by
  unfold RoamMlme.selectAndJoin at hjoin
  cases hroam : m.roamNetwork with
  | some c =>
      rw [hroam] at hjoin
      cases hjoin
      obtain ⟨hmem, hdes, hess⟩ := h.candidate s hroam
      obtain ⟨hmem', hnet, hdes', hcur⟩ := RoamMlme.leave_keeps { m with roamNetwork := none } h.placed hmem hdes
        fun hl =>
          have ho := hok hl s (Or.inl hroam)
          ⟨ho.notFreed, ho.notCleared, ho.desired⟩
      refine ⟨hmem', hdes', fun _ => ?_, fun hnone => ?_⟩
      · rw [hnet, hcur]
        exact hess
      · rw [hnone] at hroam
        cases hroam
  | none =>
      rw [hroam] at hjoin
      dsimp only at hjoin
      cases hpick : m.table.scannedQueue.foldl (m.checkJoinCandidate env) none with
      | none =>
          rw [hpick] at hjoin
          cases hjoin
      | some c =>
          rw [hpick] at hjoin
          cases hjoin
          have hbest := RoamMlme.join_picks hpick
          obtain ⟨hmem, -, hdes, -⟩ := m.leave_keeps h.placed hbest.mem
            (RoamMlme.desired_of_joinFilter hbest.passes) fun hl => hok hl s (Or.inr ⟨hroam, hbest⟩)
          exact ⟨hmem, hdes, fun hne => absurd hroam hne,
            fun _ => ⟨hbest.passes, fun x hx hpass => hbest.le hx hpass⟩⟩

end RoamInv

/-- **In every run that does not take the candidate away, the join is right**: what is joined is in the
queue and will do, a network that was roamed to is in the same ESS, and one that was looked for is the
strongest that passes. -/
theorem roaming_joins_eligible (cfg : MlmeCfg) {m m' : RoamMlme} {env : ScanEnv} {s : BssSlot}
    (h : Reach roamStep RoamOk (.start cfg) m) (hok : RoamOk m (.join env))
    (hjoin : m.selectAndJoin env = (m', some s)) : m.JoinRight env m' s :=
  (h.invariant RoamInv (.start cfg) fun hinv hok hstep => hinv.step hok hstep).joinRight hok hjoin

/-- An access point heard with some strength, and the settings of a link to the first one. -/
def sampleRoamBeacon (last : UInt8) (rssi : Int) : WlanBssidEx :=
  { sampleBeacon ⟨2, 0, 0, 0, 0, last⟩ with rssi := rssi }

theorem maxBssCnt_pos : 0 < maxBssCnt := Nat.zero_lt_succ _

def sampleRoamCfg : MlmeCfg where
  underWps := false
  linked := true
  adhoc := false
  aloneMaster := false
  wifiSpec := false
  ndisencryptstatus := ndis802_11EncryptionDisabled
  ndisauthtype := 0
  curNetwork := sampleRoamBeacon 1 (-80)
  curNetworkScanned := some ⟨0, maxBssCnt_pos⟩
  assocByBssid := false
  assocBssid := .zero
  assocSsid := fun _ => 0
  assocSsidLength := 0
  toRoam := 1
  roamScanrExpMs := 5000
  roamRssiDiffTh := 10
  roamTgtAddr := .zero

/-- Two access points are heard, and the second one is chosen. -/
def sampleRoamRun : List RoamEvent :=
  [.scan false (.update { jiffies := 100 } (sampleRoamBeacon 1 (-80))),
   .scan false (.update { jiffies := 100 } (sampleRoamBeacon 2 (-50))),
   .select { jiffies := 200 }]

theorem roaming_joins_eligible_sample :
    ∃ m m', runActions roamStep (.start sampleRoamCfg) sampleRoamRun = .done m
      ∧ m.selectAndJoin { jiffies := 300 } = (m', some 1) ∧ m.JoinRight { jiffies := 300 } m' 1 := by
  have hview : (runActions roamStep (.start sampleRoamCfg) sampleRoamRun).view
      (fun m => (m.roamNetwork, RoamMlme.findNetwork m.table m.cfg.curNetwork.macAddress,
        m.cfg.curNetworkScanned, m.cfg.underWps))
      = some (some 1, some 0, some 0, false) := by decide
  obtain ⟨m, hrun, hm⟩ := Outcome.of_view hview
  simp only [Prod.mk.injEq] at hm
  obtain ⟨hroam, hfind, hscanned, hwps⟩ := hm
  have hjoin : m.selectAndJoin { jiffies := 300 } = (RoamMlme.leave { m with roamNetwork := none }, some 1) := by
    unfold RoamMlme.selectAndJoin
    rw [hroam]
  have hok : RoamOk m (.join { jiffies := 300 }) := by
    intro _ s hs
    have hs1 : s = 1 := by
      rcases hs with hs | ⟨hnone, -⟩
      · rw [hroam] at hs
        exact (Option.some.inj hs).symm
      · rw [hroam] at hnone
        cases hnone
    subst hs1
    refine ⟨?_, ?_, fun hw => ?_⟩
    · rw [hfind]
      decide
    · rw [hscanned]
      decide
    · rw [hwps] at hw
      cases hw
  refine ⟨m, _, hrun, hjoin, roaming_joins_eligible sampleRoamCfg (reach_runActions .start ?_ hrun) hok hjoin⟩
  have hstart : ∀ s, (RoamMlme.start sampleRoamCfg).roamNetwork ≠ some s := fun s hs => by cases hs
  refine ⟨fun s hs => absurd hs (hstart s), fun m1 h1 => ⟨fun s hs => ?_, fun _ _ => ⟨trivial, fun _ _ => trivial⟩⟩⟩
  have hnone : (runActions roamStep (.start sampleRoamCfg) (sampleRoamRun.take 1)).view
      (fun m => m.roamNetwork) = some none := by decide
  have hm1 : m1.roamNetwork = none := by
    refine Outcome.view_done ?_ hnone
    show (roamStep _ _ >>= fun s' => runActions roamStep s' []) = _
    rw [h1]
    rfl
  rw [hm1] at hs
  cases hs

/-! ## All the joins of a run -/

section

variable {m : RoamMlme} {env : ScanEnv} {s : BssSlot}

/-- The entry that is next is found by the walk. -/
theorem RoamMlme.next_iff : m.Next env s ↔ (m.selectAndJoin env).2 = some s := by
  unfold RoamMlme.Next RoamMlme.selectAndJoin
  cases m.roamNetwork with
  | some c => simp
  | none =>
      dsimp only
      rw [checkJoinCandidate_eq, ← foldl_better_iff]
      cases m.table.scannedQueue.foldl _ none with
      | none => simp
      | some c => simp

instance (m : RoamMlme) : ∀ e, Decidable (RoamOk m e)
  | .select _ => .isTrue trivial
  | .scan p2p (.update _ target) => inferInstanceAs (Decidable (∀ s ∈ m.roamNetwork,
      TakesOver p2p m.table target s → Eligible m.cfg ((m.network s).copyFrom target)))
  | .scan _ (.freeQueue env isfreeall) => inferInstanceAs (Decidable (∀ s ∈ m.roamNetwork,
      ¬ Expires env isfreeall (m.table.net s)))
  | .join env =>
    decidable_of_iff (m.cfg.linked = true → ∀ s ∈ (m.selectAndJoin env).2, m.Outlives s)
      (imp_congr_right fun _ => forall_congr' fun _ => imp_congr_left RoamMlme.next_iff.symm)
  | .configure cfg => inferInstanceAs (Decidable (∀ s ∈ m.roamNetwork, Eligible cfg (m.network s)))

end

/-- Whatever the run joins is right at the moment it is joined. -/
def JoinsRight (cfg : MlmeCfg) (es : List RoamEvent) : Prop :=
  ∀ pre env post m m' s, es = pre ++ .join env :: post →
    runActions roamStep (.start cfg) pre = .done m → m.selectAndJoin env = (m', some s) →
      m.JoinRight env m' s

/-- **A run joins only what is still eligible** if none of its steps takes away the candidate of the
selection before, or gives it up with the link. -/
theorem joins_still_eligible {cfg : MlmeCfg} {es : List RoamEvent}
    (h : RunOk roamStep RoamOk (.start cfg) es) : JoinsRight cfg es := by
  rintro pre env post m m' s rfl hrun hjoin
  obtain ⟨hpre, hrest⟩ := h.split
  have hinv : RoamInv m := (reach_runActions .start hpre hrun).invariant RoamInv (.start cfg)
    fun hinv hok hstep => hinv.step hok hstep
  exact hinv.joinRight (hrest m hrun).1 hjoin

/-- The candidate is heard again, an entry that is too old goes, and there is a second join when the link
is gone. -/
def sampleRoamJoins : List RoamEvent :=
  [.scan false (.update { jiffies := 100 } (sampleRoamBeacon 1 (-80))),
   .scan false (.update { jiffies := 100 } (sampleRoamBeacon 3 (-40))),
   .scan false (.update { jiffies := 5000 } (sampleRoamBeacon 1 (-80))),
   .scan false (.update { jiffies := 5000 } (sampleRoamBeacon 2 (-50))),
   .select { jiffies := 5100 },
   .scan false (.update { jiffies := 5200 } (sampleRoamBeacon 2 (-55))),
   .scan false (.freeQueue { jiffies := 5300 } false),
   .join { jiffies := 5400 },
   .join { jiffies := 5500 }]

/-- What is joined after the first `n` events, and the queue then. -/
def joinAfter (cfg : MlmeCfg) (es : List RoamEvent) (n : Nat) (env : ScanEnv) :
    Option (Option BssSlot × List BssSlot) :=
  (runActions roamStep (.start cfg) (es.take n)).view fun m =>
    ((m.selectAndJoin env).2, (m.selectAndJoin env).1.table.scannedQueue)

theorem joins_still_eligible_sample :
    joinAfter sampleRoamCfg sampleRoamJoins 7 { jiffies := 5400 } = some (some 2, [2])
      ∧ joinAfter sampleRoamCfg sampleRoamJoins 8 { jiffies := 5500 } = some (some 2, [2])
      ∧ JoinsRight sampleRoamCfg sampleRoamJoins :=
  ⟨by decide +kernel, by decide +kernel, joins_still_eligible (by decide +kernel)⟩

/-- All entries are freed after the selection, and the one that was chosen is joined all the same. -/
theorem freed_candidate_joined : ¬ ∀ cfg es, JoinsRight cfg es := by
  intro h
  have hview : (runActions roamStep (.start sampleRoamCfg) (sampleRoamRun
      ++ [.scan false (.freeQueue { jiffies := 250 } true)])).view
      (fun m => ((m.selectAndJoin { jiffies := 300 }).2,
        (m.selectAndJoin { jiffies := 300 }).1.table.scannedQueue)) = some (some 1, []) := by
    decide +kernel
  obtain ⟨m, hrun, hm⟩ := Outcome.of_view hview
  obtain ⟨hs, hq⟩ := Prod.mk.inj hm
  have hright := h sampleRoamCfg _ _ { jiffies := 300 } [] m _ 1 rfl hrun (Prod.ext rfl hs)
  have hmem := hright.scanned
  rw [hq] at hmem
  cases hmem

end Rtl8812au
