import Rtl8812au.Lib.Pool
import Rtl8812au.Scan.Network

/-!
# No network is in the scan table twice

`is_same_network` compares a key: the address alone while P2P is on, else the address, the SSID
and two capability bits. The entries of the queue have different keys, and an update only ever
writes the key of its target into an entry: into the one that has it already, or, when no entry
has it, into a new one or the one heard least recently.

The capability bits are in the elements, and a copy takes only `IELength` bytes of these. A target
without its fixed fields leaves the bits of the network that had the entry before.
`collect_bss_info` refuses such a frame, except for a probe request, which it takes for P2P only.
-/

namespace Rtl8812au

open Pool

/-! ## Keys -/

/-- What makes two networks the same. -/
def networkKey (feature : Bool) (b : WlanBssidEx) :
    MacAddr × Option (List UInt8 × UInt16 × UInt16) :=
  (b.macAddress, if feature then none else
    some (b.ssid.read 0 b.ssidLength, b.capability &&& wlanCapabilityIbss,
      b.capability &&& wlanCapabilityBss))

theorem isSameNetwork_iff {src dst : WlanBssidEx} {feature : Bool} :
    isSameNetwork src dst feature = true ↔ networkKey feature src = networkKey feature dst := by
  unfold isSameNetwork networkKey
  cases feature with
  | true =>
      by_cases hmac : src.macAddress = dst.macAddress
      · simp [hmac]
      · simp [hmac]
  | false =>
      simp only [Bool.false_and, Bool.false_eq_true, if_false, Bool.and_eq_true, decide_eq_true_eq,
        beq_iff_eq, Prod.mk.injEq, Option.some.injEq]
      constructor
      · rintro ⟨⟨⟨⟨hlen, hmac⟩, hssid⟩, hibss⟩, hbss⟩
        refine ⟨hmac, ?_, hibss, hbss⟩
        rw [hssid, hlen]
      · rintro ⟨hmac, hssid, hibss, hbss⟩
        have hlen : src.ssidLength = dst.ssidLength := by
          have h := congrArg List.length hssid
          rwa [Mem.length_read, Mem.length_read] at h
        refine ⟨⟨⟨⟨hlen, hmac⟩, ?_⟩, hibss⟩, hbss⟩
        rw [hssid, hlen]

/-- The copy takes the capability word along: while P2P is on none is looked at. -/
def CarriesKey (p2p : Bool) (target : WlanBssidEx) : Prop :=
  p2p = true ∨ fixedIeLength ≤ target.ieLength

instance (p2p : Bool) (target : WlanBssidEx) : Decidable (CarriesKey p2p target) :=
  inferInstanceAs (Decidable (_ ∨ _))

section

variable {p2p : Bool} {target : WlanBssidEx}

theorem capability_copyFrom (dst : WlanBssidEx) (h : fixedIeLength ≤ target.ieLength) :
    (dst.copyFrom target).capability = target.capability := by
  have hbyte : ∀ i < fixedIeLength, (dst.copyFrom target).ies i = target.ies i := by
    intro i hi
    have hlt : i < (target.ies.read 0 target.ieLength).length := by
      rw [Mem.length_read]
      omega
    have hw := Mem.write_inside (m := dst.ies) (a := 0) hlt
    rw [Nat.zero_add] at hw
    show dst.ies.write 0 (target.ies.read 0 target.ieLength) i = _
    rw [hw]
    simp [Mem.read]
  unfold WlanBssidEx.capability Mem.le16
  rw [hbyte 10 (by decide), hbyte 11 (by decide)]

theorem networkKey_copyFrom (dst : WlanBssidEx) (h : CarriesKey p2p target) :
    networkKey p2p (dst.copyFrom target) = networkKey p2p target := by
  unfold networkKey
  rcases h with rfl | h
  · rfl
  · rw [capability_copyFrom dst h]
    rfl

theorem networkKey_enterNetwork (dst : WlanBssidEx) (h : CarriesKey p2p target) :
    networkKey p2p (enterNetwork dst target) = networkKey p2p target := by
  have hcopy := networkKey_copyFrom dst h
  unfold enterNetwork
  dsimp only
  split
  · exact hcopy
  · exact hcopy

/-- An update of the entry with the key leaves it the key. -/
theorem networkKey_updateNetwork (env : ScanEnv) {dst : WlanBssidEx} (updateIe : Bool)
    (h : CarriesKey p2p target) (hsame : networkKey p2p dst = networkKey p2p target) :
    networkKey p2p (updateNetwork env dst target updateIe) = networkKey p2p target := by
  have hkey : networkKey p2p (updateNetwork env dst target updateIe)
      = networkKey p2p (if updateIe then dst.copyFrom target else dst) := rfl
  rw [hkey]
  split
  · exact networkKey_copyFrom dst h
  · exact hsame

end

/-! ## The walk -/

/-- Times of 32 bits compare as numbers. -/
theorem timeAfter_iff {a b : UInt64} (ha : a.toNat < 2 ^ 32) (hb : b.toNat < 2 ^ 32) :
    timeAfter a b = true ↔ b < a := by
  unfold timeAfter
  have hdiff : ((b - a).toInt64).toInt = (b.toNat : Int) - a.toNat := by
    show (b.toBitVec - a.toBitVec).toInt = _
    rw [BitVec.toInt_sub, BitVec.toInt_eq_toNat_of_lt (by simp; omega),
      BitVec.toInt_eq_toNat_of_lt (by simp; omega), UInt64.toNat_toBitVec, UInt64.toNat_toBitVec]
    exact Int.bmod_eq_of_le (by omega) (by omega)
  rw [decide_eq_true_eq, Int64.lt_iff_toInt_lt, UInt64.lt_iff_toNat_lt, hdiff, Int64.toInt_zero]
  omega

namespace ScanTable

section

variable {t : ScanTable} {p2p : Bool} {target : WlanBssidEx} {s : BssSlot}

theorem findTarget_some : ∀ {l : List BssSlot} {o : Option BssSlot} {r : Option BssSlot},
    t.findTarget p2p target l o = (some s, r) →
      s ∈ l ∧ networkKey p2p (t.net s).network = networkKey p2p target := by
  intro l
  induction l with
  | nil =>
      intro o r h
      cases h
  | cons x l ih =>
      intro o r h
      unfold findTarget at h
      split at h
      · rename_i hmac
        cases h
        rw [Bool.and_eq_true, decide_eq_true_eq] at hmac
        refine ⟨List.mem_cons_self .., ?_⟩
        unfold networkKey
        rw [hmac.1, hmac.2]
        rfl
      · split at h
        · rename_i hsame
          cases h
          exact ⟨List.mem_cons_self .., isSameNetwork_iff.mp hsame⟩
        · obtain ⟨hmem, hkey⟩ := ih h
          exact ⟨List.mem_cons_of_mem _ hmem, hkey⟩

/-- `oldest` was heard no later than any entry that was passed. -/
def Oldest (t : ScanTable) (l : List BssSlot) (o : Option BssSlot) (r : Option BssSlot) : Prop :=
  match r with
  | none => l = [] ∧ o = none
  | some e => (e ∈ l ∨ o = some e)
      ∧ (∀ x ∈ l, (t.net e).lastScanned ≤ (t.net x).lastScanned)
      ∧ ∀ x, o = some x → (t.net e).lastScanned ≤ (t.net x).lastScanned

theorem older_le (htime : ∀ s, (t.net s).lastScanned.toNat < 2 ^ 32) (o : Option BssSlot) :
    ∃ e, t.older o s = some e ∧ (e = s ∨ o = some e)
      ∧ (t.net e).lastScanned ≤ (t.net s).lastScanned
      ∧ ∀ x, o = some x → (t.net e).lastScanned ≤ (t.net x).lastScanned := by
  cases o with
  | none =>
      refine ⟨s, rfl, Or.inl rfl, UInt64.le_refl _, ?_⟩
      intro x hx
      cases hx
  | some o =>
      unfold older
      dsimp only
      split
      · rename_i hafter
        have hlt := (timeAfter_iff (htime o) (htime s)).mp hafter
        refine ⟨s, rfl, Or.inl rfl, UInt64.le_refl _, ?_⟩
        intro x hx
        cases hx
        exact UInt64.le_of_lt hlt
      · rename_i hafter
        have hle := UInt64.not_lt.mp fun hlt =>
          hafter ((timeAfter_iff (htime o) (htime s)).mpr hlt)
        refine ⟨o, rfl, Or.inr rfl, hle, ?_⟩
        intro x hx
        cases hx
        exact UInt64.le_refl _

theorem findTarget_none (htime : ∀ s, (t.net s).lastScanned.toNat < 2 ^ 32) :
    ∀ {l : List BssSlot} {o r : Option BssSlot}, t.findTarget p2p target l o = (none, r) →
      (∀ s ∈ l, networkKey p2p (t.net s).network ≠ networkKey p2p target) ∧ t.Oldest l o r := by
  intro l
  induction l with
  | nil =>
      intro o r h
      cases h
      refine ⟨?_, ?_⟩
      · intro s hs
        cases hs
      · cases o with
        | none => exact ⟨rfl, rfl⟩
        | some e =>
            refine ⟨Or.inr rfl, ?_, ?_⟩
            · intro x hx
              cases hx
            · intro x hx
              cases hx
              exact UInt64.le_refl _
  | cons x l ih =>
      intro o r h
      unfold findTarget at h
      split at h
      · cases h
      · split at h
        · cases h
        · rename_i hsame
          -- the slot is not that network, and the oldest one is carried on
          obtain ⟨hno, hold⟩ := ih h
          refine ⟨?_, ?_⟩
          · intro s hs
            rcases List.mem_cons.mp hs with rfl | hs
            · intro hkey
              exact hsame (isSameNetwork_iff.mpr hkey)
            · exact hno s hs
          -- the new oldest one is no younger than this slot and the one before
          · obtain ⟨m, hm, hmem, hle, hleo⟩ := older_le htime (s := x) o
            rw [hm] at hold
            cases r with
            | none => cases hold.2
            | some e =>
                obtain ⟨he, hel, hem⟩ := hold
                have hem := hem m rfl
                refine ⟨?_, ?_, ?_⟩
                · rcases he with he | he
                  · exact Or.inl (List.mem_cons_of_mem _ he)
                  · cases he
                    rcases hmem with rfl | hmem
                    · exact Or.inl (List.mem_cons_self ..)
                    · exact Or.inr hmem
                · intro y hy
                  rcases List.mem_cons.mp hy with rfl | hy
                  · exact UInt64.le_trans hem hle
                  · exact hel y hy
                · intro y hy
                  exact UInt64.le_trans hem (hleo y hy)

end

/-! ## The invariant -/

/-- Where an entry can be. -/
inductive ScanPlace where
  | pool
  | queue
  deriving DecidableEq

instance : Fintype ScanPlace where
  elems := {.pool, .queue}
  complete := by
    intro p
    cases p with
    | pool => exact Finset.mem_insert_self ..
    | queue => exact Finset.mem_insert_of_mem (Finset.mem_singleton_self _)

/-- The entries of each place. -/
def contents (t : ScanTable) : ScanPlace → List BssSlot
  | .pool => t.freeBssPool
  | .queue => t.scannedQueue

/-- What every event keeps. -/
structure ScanInv (p2p : Bool) (t : ScanTable) : Prop where
  placed : Placed (List.finRange maxBssCnt) [] t.contents
  count : t.numOfScanned = UInt32.ofNat t.scannedQueue.length
  distinct : ∀ s ∈ t.scannedQueue, ∀ s' ∈ t.scannedQueue,
    networkKey p2p (t.net s).network = networkKey p2p (t.net s').network → s = s'
  times : ∀ s, (t.net s).lastScanned.toNat < 2 ^ 32

section

variable {t t' : ScanTable} {p2p : Bool} {env : ScanEnv} {target : WlanBssidEx} {s : BssSlot}

theorem now_lt (env : ScanEnv) : env.now.toNat < 2 ^ 32 := by
  unfold ScanEnv.now
  rw [UInt32.toNat_toUInt64]
  exact UInt32.toNat_lt _

@[simp] theorem setNet_self (t : ScanTable) (s : BssSlot) (n : WlanNetwork) :
    (t.setNet s n).net s = n := if_pos rfl

theorem setNet_of_ne (t : ScanTable) {s s' : BssSlot} (n : WlanNetwork) (h : s' ≠ s) :
    (t.setNet s n).net s' = t.net s' := if_neg h

theorem net_setNet_setNet (t : ScanTable) (s : BssSlot) (n n' : WlanNetwork) :
    ((t.setNet s n').setNet s n).net = (t.setNet s n).net := by
  funext x
  by_cases hx : x = s
  · rw [hx, setNet_self, setNet_self]
  · rw [setNet_of_ne _ _ hx, setNet_of_ne _ _ hx, setNet_of_ne _ _ hx]

/-- **What an update writes**, before anything is said about keys. -/
inductive Writes (p2p : Bool) (env : ScanEnv) (target : WlanBssidEx) (t : ScanTable) : ScanTable → Prop where
  | found {s : BssSlot} {o : Option BssSlot} :
      t.findTarget p2p target t.scannedQueue none = (some s, o) →
      Writes p2p env target t (t.setNet s { t.net s with
        lastScanned := env.now
        network := updateNetwork env (t.net s).network target
          (target.reserved0 != 2 && target.reserved0 ≥ (t.net s).network.reserved0) })
  | evicted {s : BssSlot} : t.findTarget p2p target t.scannedQueue none = (none, some s) →
      t.freeBssPool = [] →
      Writes p2p env target t (t.setNet s
        { fixed := false, lastScanned := env.now, network := enterNetwork (t.net s).network target })
  | stuck : t.findTarget p2p target t.scannedQueue none = (none, none) → t.freeBssPool = [] →
      Writes p2p env target t t
  | entered {s : BssSlot} {pool : List BssSlot} {o : Option BssSlot} :
      t.findTarget p2p target t.scannedQueue none = (none, o) → t.freeBssPool = s :: pool →
      Writes p2p env target t
        { net := (t.setNet s
            { lastScanned := env.now, network := enterNetwork (t.net s).network target }).net
          freeBssPool := pool, scannedQueue := t.scannedQueue ++ [s], numOfScanned := t.numOfScanned + 1 }

theorem writes (p2p : Bool) (env : ScanEnv) (target : WlanBssidEx) (t : ScanTable) :
    Writes p2p env target t (t.updateScannedNetwork p2p env target) := by
  unfold updateScannedNetwork
  cases hfind : t.findTarget p2p target t.scannedQueue none with
  | mk found oldest =>
      cases found with
      | some s => exact .found hfind
      | none =>
          dsimp only
          cases hpool : t.freeBssPool with
          | nil =>
              rw [if_pos List.isEmpty_nil]
              cases oldest with
              | none => exact .stuck hfind hpool
              | some e => exact .evicted hfind hpool
          | cons s pool =>
              rw [if_neg (by simp)]
              unfold allocNetwork
              rw [hpool]
              dsimp only
              refine (congrArg (Writes p2p env target t) ?_).mp (Writes.entered hfind hpool)
              simp only [setNet_self]
              rw [net_setNet_setNet]
              rfl

/-- The first entry of the pool goes to the queue. -/
theorem placed_entered {pool : List BssSlot} {net : BssSlot → WlanNetwork} {n : UInt32}
    (h : Placed (List.finRange maxBssCnt) [] t.contents) (hpool : t.freeBssPool = s :: pool) :
    Placed (List.finRange maxBssCnt) [] (contents
      { net := net, freeBssPool := pool, scannedQueue := t.scannedQueue ++ [s], numOfScanned := n }) := by
  have h1 : Placed (List.finRange maxBssCnt) [s] (Function.update t.contents .pool pool) := by
    refine h.exchange ?_
    show ([] ++ t.freeBssPool).Perm _
    rw [hpool]
    exact List.Perm.refl _
  have h2 : Placed (List.finRange maxBssCnt) [] (Function.update
      (Function.update t.contents .pool pool) .queue (t.scannedQueue ++ [s])) := by
    refine h1.exchange ?_
    exact (List.perm_append_singleton _ _).symm
  refine (congrArg (Placed _ _) ?_).mp h2
  funext p
  cases p with
  | pool => rfl
  | queue => rfl

/-- **No update loses an entry.** -/
theorem Writes.placed (h : Placed (List.finRange maxBssCnt) [] t.contents)
    (hw : Writes p2p env target t t') : Placed (List.finRange maxBssCnt) [] t'.contents := by
  cases hw with
  | found _ => exact h
  | evicted _ _ => exact h
  | stuck _ _ => exact h
  | entered _ hpool => exact placed_entered h hpool

/-- An entry goes to the end of the pool from wherever it is. -/
theorem placed_unlinked {net : BssSlot → WlanNetwork} {n : UInt32}
    (h : Placed (List.finRange maxBssCnt) [] t.contents) :
    Placed (List.finRange maxBssCnt) [] (contents
      { net := net, freeBssPool := t.freeBssPool.filter (· != s) ++ [s]
        scannedQueue := t.scannedQueue.filter (· != s), numOfScanned := n }) := by
  obtain ⟨p, hp, -⟩ := h.existsUnique (List.mem_finRange s)
  have h1 := h.unlink_place hp
  have h2 : Placed (List.finRange maxBssCnt) [] (Function.update
      (fun p => (t.contents p).filter (· != s)) .pool (t.freeBssPool.filter (· != s) ++ [s])) := by
    refine h1.exchange ?_
    exact (List.perm_append_singleton _ _).symm
  refine (congrArg (Placed _ _) ?_).mp h2
  funext p
  cases p with
  | pool => rfl
  | queue => rfl

/-- **What an update can do**: `n` is what it writes, with the key of its target. -/
inductive Update (p2p : Bool) (target : WlanBssidEx) (t : ScanTable) : ScanTable → Prop where
  | found {s : BssSlot} {n : WlanNetwork} : s ∈ t.scannedQueue →
      networkKey p2p (t.net s).network = networkKey p2p target →
      networkKey p2p n.network = networkKey p2p target → n.lastScanned.toNat < 2 ^ 32 →
      Update p2p target t (t.setNet s n)
  | evicted {s : BssSlot} {n : WlanNetwork} :
      (∀ x ∈ t.scannedQueue, networkKey p2p (t.net x).network ≠ networkKey p2p target) →
      t.freeBssPool = [] → s ∈ t.scannedQueue →
      (∀ x ∈ t.scannedQueue, (t.net s).lastScanned ≤ (t.net x).lastScanned) →
      networkKey p2p n.network = networkKey p2p target → n.lastScanned.toNat < 2 ^ 32 →
      Update p2p target t (t.setNet s n)
  | entered {s : BssSlot} {pool : List BssSlot} {n : WlanNetwork} :
      (∀ x ∈ t.scannedQueue, networkKey p2p (t.net x).network ≠ networkKey p2p target) →
      t.freeBssPool = s :: pool →
      networkKey p2p n.network = networkKey p2p target → n.lastScanned.toNat < 2 ^ 32 →
      Update p2p target t
        { net := (t.setNet s n).net, freeBssPool := pool, scannedQueue := t.scannedQueue ++ [s]
          numOfScanned := t.numOfScanned + 1 }

/-- One of the places has something. -/
theorem ScanInv.nonempty (h : ScanInv p2p t) (hpool : t.freeBssPool = []) :
    t.scannedQueue ≠ [] := by
  intro hqueue
  have hlen := h.placed.length_eq
  have hempty : ∀ p, t.contents p = [] := by
    intro p
    cases p with
    | pool => exact hpool
    | queue => exact hqueue
  simp only [hempty, List.length_nil, Finset.sum_const_zero, List.length_finRange] at hlen
  cases hlen

theorem update_cases (h : ScanInv p2p t) (hkey : CarriesKey p2p target) :
    Update p2p target t (t.updateScannedNetwork p2p env target) := by
  have hw := writes p2p env target t
  generalize t.updateScannedNetwork p2p env target = t' at hw ⊢
  cases hw with
  | found hfind =>
      obtain ⟨hmem, hsame⟩ := findTarget_some hfind
      exact .found hmem hsame (networkKey_updateNetwork env _ hkey hsame) (now_lt env)
  | evicted hfind hpool =>
      obtain ⟨hno, hmem, hle, -⟩ := findTarget_none h.times hfind
      rcases hmem with hmem | hmem
      · exact .evicted hno hpool hmem hle (networkKey_enterNetwork _ hkey) (now_lt env)
      · cases hmem
  | stuck hfind hpool => exact absurd (findTarget_none h.times hfind).2.1 (h.nonempty hpool)
  | entered hfind hpool =>
      exact .entered (findTarget_none h.times hfind).1 hpool (networkKey_enterNetwork _ hkey) (now_lt env)

theorem notMem_pool (h : Placed (List.finRange maxBssCnt) [] t.contents) (hs : s ∈ t.scannedQueue) :
    s ∉ t.freeBssPool := by
  intro hpool
  have hsame := h.unique (p := .queue) (q := .pool) hs hpool
  cases hsame

/-- What is in the queue is not taken out of the pool. -/
theorem pool_filter_eq (h : Placed (List.finRange maxBssCnt) [] t.contents) (hs : s ∈ t.scannedQueue) :
    t.freeBssPool.filter (· != s) = t.freeBssPool := by
  refine List.filter_eq_self.mpr fun x hx => bne_iff_ne.mpr fun hxs => ?_
  rw [hxs] at hx
  exact notMem_pool h hs hx

/-- Other keys than that of `s`, and no one has the new one. -/
theorem distinct_setNet {n : WlanNetwork} {q : List BssSlot}
    (hkey : networkKey p2p n.network = networkKey p2p target)
    (hdist : ∀ x ∈ q, ∀ y ∈ q, x ≠ s → y ≠ s →
      networkKey p2p (t.net x).network = networkKey p2p (t.net y).network → x = y)
    (hno : ∀ x ∈ q, x ≠ s → networkKey p2p (t.net x).network ≠ networkKey p2p target) :
    ∀ x ∈ q, ∀ y ∈ q, networkKey p2p ((t.setNet s n).net x).network
      = networkKey p2p ((t.setNet s n).net y).network → x = y := by
  intro x hx y hy hxy
  by_cases hxs : x = s
  · by_cases hys : y = s
    · rw [hxs, hys]
    · rw [hxs, setNet_self, setNet_of_ne _ _ hys, hkey] at hxy
      exact absurd hxy.symm (hno y hy hys)
  · rw [setNet_of_ne _ _ hxs] at hxy
    by_cases hys : y = s
    · rw [hys, setNet_self, hkey] at hxy
      exact absurd hxy (hno x hx hxs)
    · rw [setNet_of_ne _ _ hys] at hxy
      exact hdist x hx y hy hxs hys hxy

theorem times_setNet {n : WlanNetwork} (h : ∀ s, (t.net s).lastScanned.toNat < 2 ^ 32)
    (hn : n.lastScanned.toNat < 2 ^ 32) (x : BssSlot) :
    ((t.setNet s n).net x).lastScanned.toNat < 2 ^ 32 := by
  by_cases hx : x = s
  · rw [hx, setNet_self]
    exact hn
  · rw [setNet_of_ne _ _ hx]
    exact h x

/-- An entry of the queue is written in place. -/
theorem ScanInv.setNet {n : WlanNetwork} (h : ScanInv p2p t)
    (hkey : networkKey p2p n.network = networkKey p2p target)
    (hno : ∀ x ∈ t.scannedQueue, x ≠ s → networkKey p2p (t.net x).network ≠ networkKey p2p target)
    (hn : n.lastScanned.toNat < 2 ^ 32) : ScanInv p2p (t.setNet s n) :=
  ⟨h.placed, h.count,
    distinct_setNet hkey (fun x hx y hy _ _ => h.distinct x hx y hy) hno, times_setNet h.times hn⟩

theorem ScanInv.mem_queue_iff (h : ScanInv p2p t) : s ∈ t.scannedQueue ↔ s ∉ t.freeBssPool := by
  obtain ⟨p, hp, huniq⟩ := h.placed.existsUnique (List.mem_finRange s)
  constructor
  · exact notMem_pool h.placed
  · intro hf
    cases p with
    | pool => exact absurd hp hf
    | queue => exact hp

theorem ScanInv.pool_head (h : ScanInv p2p t) {s : BssSlot} {pool : List BssSlot}
    (hpool : t.freeBssPool = s :: pool) : s ∉ t.scannedQueue := by
  intro hq
  refine h.mem_queue_iff.mp hq ?_
  rw [hpool]
  exact List.mem_cons_self ..

/-- **Every update keeps the invariant.** -/
theorem ScanInv.update (h : ScanInv p2p t) (hu : Update p2p target t t') : ScanInv p2p t' := by
  cases hu with
  | found hmem hsame hkey hn =>
      refine h.setNet hkey ?_ hn
      intro x hx hne heq
      exact hne (h.distinct x hx _ hmem (heq.trans hsame.symm))
  | evicted hno _ _ _ hkey hn => exact h.setNet hkey (fun x hx _ => hno x hx) hn
  | @entered s pool n hno hpool hkey hn =>
      -- an old entry, or the new one
      have hin : ∀ x ∈ t.scannedQueue ++ [s], x ≠ s → x ∈ t.scannedQueue := by
        intro x hx hne
        rcases List.mem_append.mp hx with hx | hx
        · exact hx
        · exact absurd (List.mem_singleton.mp hx) hne
      refine ⟨?_, ?_, ?_, times_setNet h.times hn⟩
      · exact placed_entered h.placed hpool
      · show t.numOfScanned + 1 = UInt32.ofNat (t.scannedQueue ++ [s]).length
        rw [h.count, List.length_append, List.length_singleton, UInt32.ofNat_add]
        rfl
      · refine distinct_setNet hkey ?_ ?_
        · intro x hx y hy hxs hys
          exact h.distinct x (hin x hx hxs) y (hin y hy hys)
        · intro x hx hxs
          exact hno x (hin x hx hxs)

/-- **An entry of the queue goes to the pool**, or stays. -/
theorem ScanInv.freeNetwork {isfreeall : Bool} (h : ScanInv p2p t) (hs : s ∈ t.scannedQueue) :
    ScanInv p2p (t.freeNetwork env isfreeall s)
      ∧ ∀ x ∈ t.scannedQueue, x ≠ s → x ∈ (t.freeNetwork env isfreeall s).scannedQueue := by
  have hstay : ScanInv p2p t ∧ ∀ x ∈ t.scannedQueue, x ≠ s → x ∈ t.scannedQueue :=
    ⟨h, fun x hx _ => hx⟩
  unfold ScanTable.freeNetwork
  dsimp only
  generalize (if env.adhoc then 1 else scanqueueLifetime) = lifetime
  split
  · exact hstay
  · split
    · exact hstay
    · have hsub : ∀ x ∈ t.scannedQueue.filter (· != s), x ∈ t.scannedQueue := by
        intro x hx
        exact (List.mem_filter.mp hx).1
      refine ⟨⟨?_, ?_, ?_, h.times⟩, ?_⟩
      · rw [← pool_filter_eq h.placed hs]
        exact placed_unlinked h.placed
      · have hnd : t.scannedQueue.Nodup := h.placed.place_nodup .queue
        have hlen := List.length_erase_of_mem hs
        rw [hnd.erase_eq_filter] at hlen
        have hpos : 0 < t.scannedQueue.length := List.length_pos_of_mem hs
        have hsucc : t.scannedQueue.length = (t.scannedQueue.filter (· != s)).length + 1 := by
          omega
        show t.numOfScanned - 1 = UInt32.ofNat (t.scannedQueue.filter (· != s)).length
        rw [h.count, hsucc, UInt32.ofNat_add]
        exact UInt32.add_sub_cancel _ _
      · intro x hx y hy
        exact h.distinct x (hsub x hx) y (hsub y hy)
      · intro x hx hne
        exact List.mem_filter.mpr ⟨hx, bne_iff_ne.mpr hne⟩

theorem ScanInv.foldl_freeNetwork {isfreeall : Bool} : ∀ {l : List BssSlot} {t : ScanTable},
    ScanInv p2p t → l.Nodup → (∀ s ∈ l, s ∈ t.scannedQueue) →
      ScanInv p2p (l.foldl (ScanTable.freeNetwork env isfreeall) t) := by
  intro l
  induction l with
  | nil => intro t h _ _; exact h
  | cons x l ih =>
      intro t h hnd hall
      obtain ⟨hx, hnd⟩ := List.nodup_cons.mp hnd
      obtain ⟨h1, hrest⟩ : ScanInv p2p (t.freeNetwork env isfreeall x) ∧ _ :=
        h.freeNetwork (hall x (List.mem_cons_self ..))
      refine ih h1 hnd ?_
      intro s hs
      refine hrest s (hall s (List.mem_cons_of_mem _ hs)) ?_
      intro hsx
      rw [hsx] at hs
      exact hx hs

theorem ScanInv.freeQueue {isfreeall : Bool} (h : ScanInv p2p t) :
    ScanInv p2p (t.freeNetworkQueue env isfreeall) :=
  h.foldl_freeNetwork (h.placed.place_nodup .queue) fun _ hs => hs

theorem scanInv_initMlmePriv : ScanInv p2p initMlmePriv := by
  refine ⟨⟨List.nodup_finRange _, ?_⟩, rfl, ?_, ?_⟩
  · intro s
    rw [List.count_nil, Nat.zero_add,
      Finset.sum_eq_single_of_mem ScanPlace.pool (Finset.mem_univ _)]
    · rfl
    · intro p _ hp
      cases p with
      | pool => exact absurd rfl hp
      | queue => rfl
  · intro s hs
    cases hs
  · intro s
    show (0 : UInt64).toNat < 2 ^ 32
    decide

end

/-! ## Every run -/

/-- What an update does to the table. -/
structure Updated (p2p : Bool) (target : WlanBssidEx) (t t' : ScanTable) : Prop where
  present : ∃ s ∈ t'.scannedQueue, isSameNetwork (t'.net s).network target p2p = true
  /-- all other networks stay but for at most one, and that one only when the pool was empty and
  no network has an older time -/
  others : ∃ evicted : Option BssSlot,
    (∀ s ∈ t.scannedQueue, isSameNetwork (t.net s).network target p2p = false →
      evicted ≠ some s → s ∈ t'.scannedQueue ∧ t'.net s = t.net s)
    ∧ ∀ e, evicted = some e → t.freeBssPool = [] ∧ e ∈ t.scannedQueue
      ∧ ∀ x ∈ t.scannedQueue, (t.net e).lastScanned ≤ (t.net x).lastScanned

/-- **The scan table is in order.** -/
structure ScanKept (p2p : Bool) (t : ScanTable) : Prop where
  /-- an entry is free or in the queue, not both -/
  place : ∀ s, (s ∈ t.freeBssPool ∧ s ∉ t.scannedQueue) ∨ (s ∉ t.freeBssPool ∧ s ∈ t.scannedQueue)
  /-- once -/
  once : t.freeBssPool.Nodup ∧ t.scannedQueue.Nodup
  count : t.numOfScanned.toNat = t.scannedQueue.length
  distinct : ∀ s ∈ t.scannedQueue, ∀ s' ∈ t.scannedQueue,
    isSameNetwork (t.net s).network (t.net s').network p2p = true → s = s'
  update : ∀ env target, CarriesKey p2p target →
    Updated p2p target t (t.updateScannedNetwork p2p env target)

/-- The targets of a run have their capability word, or P2P is on. -/
def EventCarries (p2p : Bool) : ScanEvent → Prop
  | .update _ target => CarriesKey p2p target
  | .freeQueue _ _ => True

instance (p2p : Bool) : DecidablePred (EventCarries p2p)
  | .update _ target => inferInstanceAs (Decidable (CarriesKey p2p target))
  | .freeQueue _ _ => inferInstanceAs (Decidable True)

section

variable {t t' : ScanTable} {p2p : Bool} {target : WlanBssidEx}

theorem ScanInv.step {e : ScanEvent} (h : ScanInv p2p t) (he : EventCarries p2p e)
    (hstep : scanStep p2p t e = .done t') : ScanInv p2p t' := by
  cases e with
  | update env target =>
      cases hstep
      exact h.update (update_cases h he)
  | freeQueue env isfreeall =>
      cases hstep
      exact h.freeQueue

theorem ScanInv.updated (hinv : ScanInv p2p t) (h : Update p2p target t t') :
    Updated p2p target t t' := by
  -- an entry that is written in place
  have hplace : ∀ {s : BssSlot} {n : WlanNetwork}, s ∈ t.scannedQueue →
      networkKey p2p n.network = networkKey p2p target →
      ∃ x ∈ (t.setNet s n).scannedQueue,
        isSameNetwork ((t.setNet s n).net x).network target p2p = true := by
    intro s n hmem hkey
    refine ⟨s, hmem, ?_⟩
    rw [setNet_self]
    exact isSameNetwork_iff.mpr hkey
  cases h with
  | @found s n hmem hsame hkey _ =>
      refine ⟨hplace hmem hkey, none, ?_, ?_⟩
      · intro x hx hdiff _
        have hne : x ≠ s := by
          intro hxs
          rw [hxs, isSameNetwork_iff.mpr hsame] at hdiff
          cases hdiff
        exact ⟨hx, setNet_of_ne _ _ hne⟩
      · intro e he
        cases he
  | @evicted s n _ hpool hmem hle hkey _ =>
      refine ⟨hplace hmem hkey, some s, ?_, ?_⟩
      · intro x hx _ hne
        refine ⟨hx, setNet_of_ne _ _ ?_⟩
        intro hxs
        exact hne (congrArg some hxs.symm)
      · intro e he
        cases he
        exact ⟨hpool, hmem, hle⟩
  | @entered s pool n hno hpool hkey _ =>
      refine ⟨⟨s, List.mem_append_right _ (List.mem_singleton_self s), ?_⟩, none, ?_, ?_⟩
      · show isSameNetwork ((t.setNet s n).net s).network target p2p = true
        rw [setNet_self]
        exact isSameNetwork_iff.mpr hkey
      · intro x hx _ _
        refine ⟨List.mem_append_left _ hx, setNet_of_ne _ _ ?_⟩
        intro hxs
        rw [hxs] at hx
        exact hinv.pool_head hpool hx
      · intro e he
        cases he

end

theorem ScanInv.kept {p2p : Bool} {t : ScanTable} (h : ScanInv p2p t) : ScanKept p2p t := by
  have hlen := h.placed.length_eq
  refine ⟨?_, ⟨h.placed.place_nodup .pool, h.placed.place_nodup .queue⟩, ?_, ?_, ?_⟩
  · intro s
    by_cases hf : s ∈ t.freeBssPool
    · exact Or.inl ⟨hf, fun hq => h.mem_queue_iff.mp hq hf⟩
    · exact Or.inr ⟨hf, h.mem_queue_iff.mpr hf⟩
  · have hle : t.scannedQueue.length ≤ maxBssCnt := by
      have hsub := Finset.single_le_sum (f := fun p => (t.contents p).length)
        (fun _ _ => Nat.zero_le _) (Finset.mem_univ ScanPlace.queue)
      rw [List.length_nil, List.length_finRange] at hlen
      have hq : (t.contents .queue).length = t.scannedQueue.length := rfl
      omega
    rw [h.count]
    exact UInt32.toNat_ofNat_of_lt' (by
      have hsize : maxBssCnt < UInt32.size := by decide
      omega)
  · intro s hs s' hs' hsame
    exact h.distinct s hs s' hs' (isSameNetwork_iff.mp hsame)
  · intro env target hkey
    exact h.updated (update_cases h hkey)

/-- **In every run no network is in the scan table twice**, nothing is lost and an update takes
from the table only the network that was heard least recently. -/
theorem scan_table_kept (p2p : Bool) {t : ScanTable}
    (h : Reach (scanStep p2p) (fun _ e => EventCarries p2p e) initMlmePriv t) : ScanKept p2p t := by
  have hinv : ScanInv p2p t :=
    h.invariant (ScanInv p2p) scanInv_initMlmePriv fun hinv hok hstep => hinv.step hok hstep
  exact hinv.kept

theorem noSsid_le : 0 ≤ 32 := by decide

theorem noIes_le : 0 ≤ maxIeSz := by decide

/-- A beacon of an access point. -/
def sampleBeacon (mac : MacAddr) : WlanBssidEx :=
  { ies := fun i => if i = 10 then 1 else 0, ieLength := 12, macAddress := mac, reserved0 := 1
    ssid_le := noSsid_le }

/-- Two networks, the first once more, and the rest is let expire. -/
def sampleScanRun : List ScanEvent :=
  [.update { jiffies := 100 } (sampleBeacon ⟨2, 0, 0, 0, 0, 1⟩),
   .update { jiffies := 100 } (sampleBeacon ⟨2, 0, 0, 0, 0, 2⟩),
   .update { jiffies := 6000 } (sampleBeacon ⟨2, 0, 0, 0, 0, 1⟩),
   .freeQueue { jiffies := 6000 } false]

theorem scan_table_kept_sample :
    ∃ t, runActions (scanStep false) initMlmePriv sampleScanRun = .done t
      ∧ t.scannedQueue = [0] ∧ ScanKept false t := by
  have hview : (runActions (scanStep false) initMlmePriv sampleScanRun).view
      (fun t => t.scannedQueue) = some [0] := by decide
  obtain ⟨t, hrun, hqueue⟩ := Outcome.of_view hview
  refine ⟨t, hrun, hqueue, scan_table_kept false (reach_runActions .start ?_ hrun)⟩
  have hall : ∀ e ∈ sampleScanRun, EventCarries false e := by decide
  exact RunOk.of_all fun e he _ => hall e he

/-- A target without its fixed fields; what is behind its length is whatever the buffer had. -/
def bareTarget : WlanBssidEx :=
  { ies := fun i => if i = 10 then 1 else 0, ssid_le := noSsid_le, ie_le := noIes_le }

/-- Such a target is not found after its update: the entry has the capability of the zeroed
buffer. -/
theorem bare_target_not_present :
    ¬ ∀ (p2p : Bool) (t : ScanTable),
      Reach (scanStep p2p) (fun _ _ => True) initMlmePriv t →
      ∀ env target, ∃ s ∈ (t.updateScannedNetwork p2p env target).scannedQueue,
        isSameNetwork ((t.updateScannedNetwork p2p env target).net s).network target p2p
          = true := by
  intro h
  obtain ⟨s, hs, hsame⟩ := h false initMlmePriv .start {} bareTarget
  have hqueue : (initMlmePriv.updateScannedNetwork false {} bareTarget).scannedQueue = [0] := by
    decide
  rw [hqueue, List.mem_singleton] at hs
  subst hs
  have hdiff : isSameNetwork ((initMlmePriv.updateScannedNetwork false {} bareTarget).net 0).network
      bareTarget false = false := by decide
  rw [hdiff] at hsame
  cases hsame

end ScanTable

end Rtl8812au
