import Mathlib.Data.Fintype.Card
import Rtl8812au.Security.Cam

/-!
# Keys in the table

An entry is all zeroes, a default key under its own id, a group key of the BSSID behind the default
keys, or a pairwise key there. Each command writes one such entry, and clearing takes out every entry
of an address that is not all zeroes. An all-zero address finds the free entries.
-/

namespace Rtl8812au

/-! ## Bits -/

/-- The entry whose bit is at `k`. Above 31 are copies of bit 31. -/
def slotOf (k : Nat) : CamId := ⟨min k 31, Nat.lt_of_le_of_lt (Nat.min_le_right k 31) (by decide)⟩

theorem slotOf_val (i : CamId) : slotOf i.val = i :=
  Fin.ext (Nat.min_eq_left (Nat.le_of_lt_succ i.isLt))

theorem getLsbD_camBit_fin : ∀ (i : CamId) (k : Fin 64),
    (camBit i).getLsbD k.val = decide (slotOf k.val = i) := by decide +kernel

theorem getLsbD_camBit (i : CamId) {k : Nat} (hk : k < 64) :
    (camBit i).getLsbD k = decide (slotOf k = i) :=
  getLsbD_camBit_fin i ⟨k, hk⟩

theorem id_lt_64 (i : CamId) : i.val < 64 := Nat.lt_trans i.isLt (by decide)

/-! ## Control words -/

section

variable (grp : Bool) (alg : Cipher)

theorem camCtrl_bits_fin : ∀ (k : Fin 4),
    (camCtrl grp alg (UInt8.ofNat k.val)).getLsbD 15 = true
      ∧ (camCtrl grp alg (UInt8.ofNat k.val)).getLsbD 6 = grp
      ∧ (camCtrl grp alg (UInt8.ofNat k.val) &&& 3#16).toNat = k.val := by
  cases grp <;> cases alg <;> decide

theorem camCtrl_bits {kid : UInt8} (h : kid.toNat ≤ 3) :
    (camCtrl grp alg kid).getLsbD 15 = true
      ∧ (camCtrl grp alg kid).getLsbD 6 = grp
      ∧ (camCtrl grp alg kid &&& 3#16).toNat = kid.toNat := by
  have hb := camCtrl_bits_fin grp alg ⟨kid.toNat, Nat.lt_succ_of_le h⟩
  rw [UInt8.ofNat_toNat] at hb
  exact hb

end

/-! ## The invariant -/

/-- Group keys go to the entry of their id. -/
def CamAdapter.fixedSlots (a : CamAdapter) : Prop := a.mode = .ap ∨ a.mode = .adhoc

/-- What an entry may hold. -/
def EntryOk (a : CamAdapter) (i : CamId) (e : CamEntry) : Prop :=
  e = .zero ∨ e.valid = true ∧
    (a.fixedSlots ∧ i.val < 4 ∧ e.grp = true ∧ e.mac = .zero ∧ e.keyId = i.val
      ∨ ¬ a.fixedSlots ∧ 4 ≤ i.val ∧ e.grp = true ∧ e.mac = a.bssid
      ∨ 4 ≤ i.val ∧ e.grp = false ∧ e.mac ≠ .zero)

/-- The invariant of the table. -/
structure CamInv (a : CamAdapter) (t : CamTable) : Prop where
  bits : ∀ k, k < 64 → t.bitmap.getLsbD k = (t.cache (slotOf k)).valid
  entry : ∀ i, EntryOk a i (t.cache i)
  unique : ∀ i j, (t.cache i).valid = true → (t.cache j).valid = true →
    (t.cache i).mac = (t.cache j).mac → (t.cache i).keyId = (t.cache j).keyId → i = j

theorem valid_zero : CamEntry.zero.valid = false := rfl

theorem camInv_empty (a : CamAdapter) : CamInv a .empty where
  bits := by
    intro k _
    show (0#64).getLsbD k = CamEntry.zero.valid
    rw [BitVec.getLsbD_zero, valid_zero]
  entry := fun _ => Or.inl rfl
  unique := by
    intro i j hi
    have hz : (CamTable.empty.cache i).valid = false := valid_zero
    rw [hz] at hi
    exact absurd hi Bool.false_ne_true

section

variable {a : CamAdapter} {t : CamTable} {i : CamId} {e : CamEntry}

theorem EntryOk.low (h : EntryOk a i e) (hi : i.val < 4) :
    e.mac = .zero ∧ (e.valid = true → e.grp = true ∧ e.keyId = i.val) := by
  rcases h with rfl | ⟨_, ⟨_, _, hg, hm, hk⟩ | ⟨_, h4, _⟩ | ⟨h4, _⟩⟩
  · exact ⟨rfl, fun hv => absurd hv (by decide)⟩
  · exact ⟨hm, fun _ => ⟨hg, hk⟩⟩
  · omega
  · omega

/-- Only a pairwise key and a group key of the BSSID have an address. -/
theorem EntryOk.valid_of_mac (h : EntryOk a i e) (hm : e.mac ≠ .zero) : e.valid = true := by
  rcases h with rfl | ⟨hv, _⟩
  · exact absurd rfl hm
  · exact hv

theorem CamInv.used_eq (h : CamInv a t) (i : CamId) : t.used i = (t.cache i).valid := by
  have hbit : t.bitmap.getLsbD i.val = (t.cache i).valid := by
    rw [h.bits i.val (id_lt_64 i), slotOf_val]
  cases hv : (t.cache i).valid with
  | true =>
      have hne : t.bitmap &&& camBit i ≠ 0 := by
        intro h0
        have hk := congrArg (fun b => b.getLsbD i.val) h0
        simp [hbit, hv, getLsbD_camBit i (id_lt_64 i), slotOf_val] at hk
      exact bne_iff_ne.mpr hne
  | false =>
      have hz : t.bitmap &&& camBit i = 0 := by
        refine BitVec.eq_of_getLsbD_eq fun k hk => ?_
        rw [BitVec.getLsbD_and, getLsbD_camBit i hk, h.bits k hk]
        by_cases hki : slotOf k = i
        · simp [hki, hv]
        · simp [hki]
      simp [CamTable.used, hz]

/-- A key goes to an entry, with its bit. -/
theorem CamInv.write (h : CamInv a t) (he : EntryOk a i e) (hv : e.valid = true)
    (hnew : ∀ j, j ≠ i → (t.cache j).valid = true → (t.cache j).mac = e.mac →
      (t.cache j).keyId ≠ e.keyId) :
    CamInv a ({ t with bitmap := t.bitmap ||| camBit i }.writeCam i e) where
  bits := by
    intro k hk
    show (t.bitmap ||| camBit i).getLsbD k = (if slotOf k = i then e else t.cache (slotOf k)).valid
    rw [BitVec.getLsbD_or, getLsbD_camBit i hk, h.bits k hk]
    by_cases hki : slotOf k = i
    · simp [hki, hv]
    · simp [hki]
  entry := by
    intro j
    show EntryOk a j (if j = i then e else t.cache j)
    by_cases hj : j = i
    · rw [if_pos hj, hj]
      exact he
    · rw [if_neg hj]
      exact h.entry j
  unique := by
    intro j k
    show (if j = i then e else t.cache j).valid = true → (if k = i then e else t.cache k).valid = true →
      (if j = i then e else t.cache j).mac = (if k = i then e else t.cache k).mac →
      (if j = i then e else t.cache j).keyId = (if k = i then e else t.cache k).keyId → j = k
    by_cases hj : j = i
    · by_cases hk : k = i
      · intros
        rw [hj, hk]
      · rw [if_pos hj, if_neg hk]
        intro _ hkv hm hid
        exact absurd hid.symm (hnew k hk hkv hm.symm)
    · by_cases hk : k = i
      · rw [if_neg hj, if_pos hk]
        intro hjv _ hm hid
        exact absurd hid (hnew j hj hjv hm)
      · rw [if_neg hj, if_neg hk]
        exact h.unique j k

end

/-! ## Searching -/

section

variable {a : CamAdapter} {t : CamTable} {addr : MacAddr} {i : CamId}

theorem camidSearch_mac {kid : Option Nat} (h : t.camidSearch addr kid = some i) :
    (t.cache i).mac = addr := by
  have hp := List.find?_some h
  rw [Bool.and_eq_true] at hp
  exact of_decide_eq_true hp.1

theorem camidSearch_keyId {k : Nat} (h : t.camidSearch addr (some k) = some i) :
    (t.cache i).keyId = k := by
  have hp := List.find?_some h
  rw [Bool.and_eq_true] at hp
  exact of_decide_eq_true hp.2

theorem camidSearch_none {k : Nat} (h : t.camidSearch addr (some k) = none) (j : CamId)
    (hm : (t.cache j).mac = addr) : (t.cache j).keyId ≠ k := by
  intro hk
  have hp := List.find?_eq_none.mp h j (List.mem_finRange j)
  simp [hm, hk] at hp

theorem camidSearch_addr_none (h : t.camidSearch addr none = none) (j : CamId) :
    (t.cache j).mac ≠ addr := by
  intro hm
  have hp := List.find?_eq_none.mp h j (List.mem_finRange j)
  simp [hm] at hp

theorem freeCamid_some (h : CamInv a t) (hf : t.freeCamid = some i) :
    4 ≤ i.val ∧ (t.cache i).valid = false := by
  have hp := List.find?_some hf
  rw [Bool.and_eq_true] at hp
  refine ⟨of_decide_eq_true hp.1, ?_⟩
  rw [← h.used_eq i]
  simpa using hp.2

/-- What the search finds under an address is the only key of that address and id. -/
theorem CamInv.found_unique (h : CamInv a t) {k : Nat}
    (hf : t.camidSearch addr (some k) = some i) (hv : (t.cache i).valid = true) (j : CamId)
    (hj : j ≠ i) (hjv : (t.cache j).valid = true) (hm : (t.cache j).mac = addr) :
    (t.cache j).keyId ≠ k := by
  intro hk
  refine hj (h.unique j i hjv hv ?_ ?_)
  · rw [hm, camidSearch_mac hf]
  · rw [hk, camidSearch_keyId hf]

/-- The search starts at the default keys, none of which has an address. -/
theorem CamInv.search_zero (h : CamInv a t) : t.camidSearch .zero (some 0) = some 0 := by
  have hlist : List.finRange totalCamEntry = 0 :: (List.finRange 31).map Fin.succ := List.finRange_succ
  have hlow := (h.entry 0).low (by decide)
  have hkid : (t.cache 0).keyId = 0 := by
    rcases h.entry 0 with hz | ⟨hv, _⟩
    · rw [hz]
      rfl
    · exact (hlow.2 hv).2
  unfold CamTable.camidSearch
  rw [hlist]
  refine List.find?_cons_of_pos ?_
  simp [hlow.1, hkid]

end

/-! ## Clearing -/

section

variable {addr : MacAddr}

/-- The entries of an address. -/
def entriesOf (t : CamTable) (addr : MacAddr) : Finset CamId :=
  Finset.univ.filter fun i => (t.cache i).mac = addr

theorem mem_entriesOf {t : CamTable} {i : CamId} : i ∈ entriesOf t addr ↔ (t.cache i).mac = addr := by
  simp [entriesOf]

/-- A turn of the loop. -/
def clearTurn (t : CamTable) (i : CamId) : CamTable := (t.clearCamEntry i).camidFree i

theorem clearTurn_cache (t : CamTable) (i j : CamId) :
    (clearTurn t i).cache j = if j = i then .zero else t.cache j := rfl

theorem clearTurn_bit (t : CamTable) (i : CamId) {k : Nat} (hk : k < 64) :
    (clearTurn t i).bitmap.getLsbD k = (t.bitmap.getLsbD k && !decide (slotOf k = i)) := by
  show (t.bitmap &&& ~~~ camBit i).getLsbD k = _
  rw [BitVec.getLsbD_and, BitVec.getLsbD_not, getLsbD_camBit i hk]
  simp [hk]

theorem entriesOf_clearTurn {t : CamTable} {i : CamId} (haddr : addr ≠ .zero) :
    entriesOf (clearTurn t i) addr = (entriesOf t addr).erase i := by
  ext j
  rw [Finset.mem_erase, mem_entriesOf, mem_entriesOf, clearTurn_cache]
  by_cases hj : j = i
  · rw [if_pos hj]
    exact ⟨fun h => absurd h.symm haddr, fun h => absurd hj h.1⟩
  · rw [if_neg hj]
    exact ⟨fun h => ⟨hj, h⟩, fun h => h.2⟩

/-- What a clear is for: the entries of the address are zeroes, their bits are off, and nothing else
has changed. -/
structure Cleared (addr : MacAddr) (t t' : CamTable) : Prop where
  cache : ∀ i, t'.cache i = if (t.cache i).mac = addr then .zero else t.cache i
  bits : ∀ k, k < 64 → t'.bitmap.getLsbD k
    = (t.bitmap.getLsbD k && !decide ((t.cache (slotOf k)).mac = addr))

theorem Cleared.of_none {t : CamTable} (h : t.camidSearch addr none = none) : Cleared addr t t where
  cache := fun i => by rw [if_neg (camidSearch_addr_none h i)]
  bits := fun k _ => by simp [camidSearch_addr_none h (slotOf k)]

theorem Cleared.turn {t t' : CamTable} {i : CamId} (hi : (t.cache i).mac = addr)
    (haddr : addr ≠ .zero) (h : Cleared addr (clearTurn t i) t') : Cleared addr t t' where
  cache := by
    intro j
    rw [h.cache j, clearTurn_cache]
    by_cases hj : j = i
    · rw [if_pos hj, hj, if_pos hi, if_neg]
      exact fun hz => haddr hz.symm
    · rw [if_neg hj]
  bits := by
    intro k hk
    rw [h.bits k hk, clearTurn_bit t i hk, clearTurn_cache]
    by_cases hki : slotOf k = i
    · simp [hki, hi]
    · simp [hki]

/-- **Clearing ends.** Each turn takes out one entry of the address. -/
theorem clearLoop_cleared (haddr : addr ≠ .zero) : ∀ (n : Nat) (t : CamTable),
    (entriesOf t addr).card < n → ∃ t', CamTable.clearLoop n t addr = some t' ∧ Cleared addr t t' := by
  intro n
  induction n with
  | zero => intro t hn; omega
  | succ n ih =>
      intro t hn
      unfold CamTable.clearLoop
      cases hs : t.camidSearch addr none with
      | none => exact ⟨t, rfl, Cleared.of_none hs⟩
      | some i =>
          have hi := camidSearch_mac hs
          have hmem : i ∈ entriesOf t addr := mem_entriesOf.mpr hi
          have hlt : (entriesOf (clearTurn t i) addr).card < n := by
            rw [entriesOf_clearTurn haddr]
            have hcard := Finset.card_erase_lt_of_mem hmem
            omega
          obtain ⟨t', hloop, hcl⟩ := ih (clearTurn t i) hlt
          exact ⟨t', hloop, hcl.turn hi haddr⟩

theorem card_entriesOf (t : CamTable) : (entriesOf t addr).card < totalCamEntry + 1 := by
  have hcard := Finset.card_le_univ (entriesOf t addr)
  rw [Fintype.card_fin] at hcard
  omega

/-- An entry that has been cleared has the all-zero address, so the loop finds it once more. -/
theorem clearLoop_zero : ∀ (n : Nat) (t : CamTable) {i : CamId}, (t.cache i).mac = .zero →
    CamTable.clearLoop n t .zero = none := by
  intro n
  induction n with
  | zero => intro t i _; rfl
  | succ n ih =>
      intro t i hi
      unfold CamTable.clearLoop
      cases hs : t.camidSearch .zero none with
      | none => exact absurd hi (camidSearch_addr_none hs i)
      | some j =>
          refine ih _ (i := j) ?_
          show ((clearTurn t j).cache j).mac = .zero
          rw [clearTurn_cache, if_pos rfl]
          rfl

/-- Turns beyond the number of entries make no difference. -/
theorem clearLoop_hangs {t : CamTable} (h : CamTable.clearLoop (totalCamEntry + 1) t addr = none)
    (n : Nat) : CamTable.clearLoop n t addr = none := by
  by_cases haddr : addr = .zero
  · subst haddr
    cases hs : t.camidSearch .zero none with
    | none =>
        have hdone : CamTable.clearLoop (totalCamEntry + 1) t .zero = some t := by
          unfold CamTable.clearLoop
          rw [hs]
        rw [hdone] at h
        cases h
    | some i => exact clearLoop_zero n t (camidSearch_mac hs)
  · obtain ⟨t', hdone, _⟩ := clearLoop_cleared haddr (totalCamEntry + 1) t (card_entriesOf t)
    rw [hdone] at h
    cases h

theorem CamInv.cleared {a : CamAdapter} {t t' : CamTable} (h : CamInv a t) (hc : Cleared addr t t') :
    CamInv a t' where
  bits := by
    intro k hk
    rw [hc.bits k hk, hc.cache, h.bits k hk]
    by_cases hm : (t.cache (slotOf k)).mac = addr
    · simp [hm, valid_zero]
    · simp [hm]
  entry := by
    intro i
    rw [hc.cache i]
    by_cases hm : (t.cache i).mac = addr
    · rw [if_pos hm]
      exact Or.inl rfl
    · rw [if_neg hm]
      exact h.entry i
  unique := by
    intro i j
    rw [hc.cache i, hc.cache j]
    by_cases hi : (t.cache i).mac = addr
    · rw [if_pos hi, valid_zero]
      exact fun hf => absurd hf Bool.false_ne_true
    · by_cases hj : (t.cache j).mac = addr
      · rw [if_pos hj, valid_zero]
        exact fun _ hf => absurd hf Bool.false_ne_true
      · rw [if_neg hi, if_neg hj]
        exact h.unique i j

end

/-! ## Where a key goes -/

section

variable {a : CamAdapter} {t u : CamTable} {assoc : Bool} {addr : MacAddr} {kid : UInt8} {i : CamId}

theorem CamInv.congr (h : CamInv a t) (hb : u.bitmap = t.bitmap) (hc : u.cache = t.cache) :
    CamInv a u where
  bits := by rw [hb, hc]; exact h.bits
  entry := by rw [hc]; exact h.entry
  unique := by rw [hc]; exact h.unique

/-- A group key goes to the entry of its id, or it takes the place of a group key, or it goes where
there is none. -/
theorem camidFor_group (h : CamInv a t) (hf : t.camidFor a assoc none kid = some i) :
    a.fixedSlots ∧ i.val = kid.toNat
      ∨ ¬ a.fixedSlots ∧ 4 ≤ i.val ∧
        (t.camidSearch a.bssid (some kid.toNat) = some i ∧ (t.cache i).valid = true
            ∧ (t.cache i).grp = true
          ∨ t.camidSearch a.bssid (some kid.toNat) = none ∧ (t.cache i).valid = false) := by
  unfold CamTable.camidFor at hf
  by_cases hm : a.fixedSlots
  · rw [if_pos ⟨hm, rfl⟩] at hf
    by_cases hk : kid.toNat ≤ 3
    · rw [dif_pos hk] at hf
      exact Or.inl ⟨hm, (congrArg Fin.val (Option.some.inj hf)).symm⟩
    · rw [dif_neg hk] at hf
      cases hf
  · refine Or.inr ⟨hm, ?_⟩
    rw [if_neg (fun hb => hm hb.1)] at hf
    cases assoc with
    | false =>
        rw [if_pos ⟨rfl, rfl⟩] at hf
        cases hf
    | true =>
        rw [if_neg (fun hb => by cases hb.2)] at hf
        cases hs : t.camidSearch a.bssid (some kid.toNat) with
        | none =>
            have hfree : t.freeCamid = some i := by simpa [hs] using hf
            obtain ⟨h4, hv⟩ := freeCamid_some h hfree
            exact ⟨h4, Or.inr ⟨rfl, hv⟩⟩
        | some j =>
            have hgk : t.camidIsGk j = true ∧ j = i := by simpa [hs] using hf
            obtain ⟨hgk, rfl⟩ := hgk
            unfold CamTable.camidIsGk at hgk
            rw [h.used_eq j] at hgk
            cases hv : (t.cache j).valid with
            | false => simp [hv] at hgk
            | true =>
                have hg : (t.cache j).grp = true := by simpa [hv] using hgk
                -- without default keys every group key is behind them
                have h4 : 4 ≤ j.val := by
                  rcases h.entry j with hz | ⟨_, ⟨hfix, _⟩ | ⟨_, h4, _⟩ | ⟨h4, _⟩⟩
                  · rw [hz] at hv
                    cases hv
                  · exact absurd hfix hm
                  · exact h4
                  · exact h4
                exact ⟨h4, Or.inl ⟨rfl, rfl, hg⟩⟩

/-- A pairwise key takes the place of the key of its address, or goes where there is none. -/
theorem camidFor_sta (h : CamInv a t) (haddr : addr ≠ .zero)
    (hf : t.camidFor a assoc (some addr) kid = some i) :
    4 ≤ i.val ∧
      (t.camidSearch addr (some kid.toNat) = some i ∧ (t.cache i).valid = true
        ∨ t.camidSearch addr (some kid.toNat) = none) := by
  unfold CamTable.camidFor at hf
  rw [if_neg (fun hb => by cases hb.2), if_neg (fun hb => by cases hb.1)] at hf
  cases hs : t.camidSearch addr (some kid.toNat) with
  | none =>
      have hfree : t.freeCamid = some i := by simpa [hs] using hf
      exact ⟨(freeCamid_some h hfree).1, Or.inr rfl⟩
  | some j =>
      have hij : j = i := by simpa [hs] using hf
      subst hij
      have hmac : (t.cache j).mac ≠ .zero := by rw [camidSearch_mac hs]; exact haddr
      refine ⟨?_, Or.inl ⟨rfl, (h.entry j).valid_of_mac hmac⟩⟩
      by_contra hlt
      exact hmac ((h.entry j).low (by omega)).1

/-- A pairwise key of the all-zero address goes to the first default entry. -/
theorem CamInv.camidFor_zero (h : CamInv a t) : t.camidFor a assoc (some .zero) 0 = some 0 := by
  unfold CamTable.camidFor
  rw [if_neg (fun hb => by cases hb.2), if_neg (fun hb => by cases hb.1)]
  have hs : t.camidSearch ((some MacAddr.zero).getD a.bssid) (some (0 : UInt8).toNat) = some 0 :=
    h.search_zero
  rw [hs]
  rfl

/-- Nothing else in the table has the address and the id of what the search found, or did not. -/
theorem CamInv.fresh (h : CamInv a t) {k : Nat}
    (hs : t.camidSearch addr (some k) = some i ∧ (t.cache i).valid = true
      ∨ t.camidSearch addr (some k) = none) (j : CamId) (hj : j ≠ i)
    (hv : (t.cache j).valid = true) (hm : (t.cache j).mac = addr) : (t.cache j).keyId ≠ k := by
  rcases hs with ⟨hs, hiv⟩ | hs
  · exact h.found_unique hs hiv j hj hv hm
  · exact camidSearch_none hs j hm

end

/-! ## The commands -/

/-- A pairwise key in use. -/
def CamEntry.pairwise (e : CamEntry) : Bool := e.valid && !e.grp

section

variable {a : CamAdapter} {t : CamTable}

/-- A group key in its place. -/
theorem CamInv.write_group (h : CamInv a t) {assoc : Bool} {p : SetkeyParm} {i : CamId}
    (hk : p.keyid.toNat ≤ 3) (hf : t.camidFor a assoc none p.keyid = some i) :
    CamInv a ({ t with bitmap := t.bitmap ||| camBit i }.writeCam i
        ⟨camCtrl true p.algorithm p.keyid, if i.val > 3 then a.bssid else .zero, p.key⟩)
      ∧ (t.cache i).pairwise = false := by
  obtain ⟨hvalid, hgrp, hkid⟩ := camCtrl_bits true p.algorithm hk
  rcases camidFor_group h hf with ⟨hfix, hik⟩ | ⟨hfix, h4, hplace⟩
  · have hi : i.val < 4 := by omega
    rw [if_neg (by omega)]
    refine ⟨h.write (Or.inr ⟨hvalid, Or.inl ⟨hfix, hi, hgrp, rfl, ?_⟩⟩) hvalid ?_, ?_⟩
    · exact hkid.trans hik.symm
    · -- with default keys only these are without an address
      intro j hj hjv hjm hjk
      have hjk : (t.cache j).keyId = p.keyid.toNat := hjk.trans hkid
      rcases h.entry j with hz | ⟨_, ⟨_, _, _, _, hid⟩ | ⟨hnf, _⟩ | ⟨_, _, hne⟩⟩
      · rw [hz] at hjv
        cases hjv
      · exact hj (Fin.ext (by omega))
      · exact hnf hfix
      · exact hne hjm
    · cases hv : (t.cache i).valid with
      | false => simp [CamEntry.pairwise, hv]
      | true => simp [CamEntry.pairwise, (((h.entry i).low hi).2 hv).1]
  · rw [if_pos (by omega)]
    refine ⟨h.write (Or.inr ⟨hvalid, Or.inr (Or.inl ⟨hfix, h4, hgrp, rfl⟩)⟩) hvalid ?_, ?_⟩
    · intro j hj hjv hjm hjk
      have hplace' : t.camidSearch a.bssid (some p.keyid.toNat) = some i ∧ (t.cache i).valid = true
          ∨ t.camidSearch a.bssid (some p.keyid.toNat) = none := by
        rcases hplace with ⟨hs, hv, _⟩ | ⟨hs, _⟩
        · exact Or.inl ⟨hs, hv⟩
        · exact Or.inr hs
      exact h.fresh hplace' j hj hjv hjm (hjk.trans hkid)
    · rcases hplace with ⟨_, _, hg⟩ | ⟨_, hv⟩
      · simp [CamEntry.pairwise, hg]
      · simp [CamEntry.pairwise, hv]

/-- `setkey_hdl` once the index of the sending key is stored. -/
def groupKey (a : CamAdapter) (assoc : Bool) (p : SetkeyParm) (t : CamTable) : H2cResult × CamTable :=
  match t.camidAlloc a assoc none p.keyid with
  | (t, none) => (.success, t)
  | (t, some i) =>
    (.success, t.writeCam i
      ⟨camCtrl true p.algorithm p.keyid, if i.val > 3 then a.bssid else .zero, p.key⟩)

theorem setkeyHdl_eq (assoc : Bool) (p : SetkeyParm) :
    setkeyHdl a assoc p t
      = groupKey a assoc p (if p.setTx then { t with keyIndex := p.keyid } else t) := rfl

theorem CamInv.groupKey (h : CamInv a t) (assoc : Bool) {p : SetkeyParm} (hk : p.keyid.toNat ≤ 3) :
    CamInv a (groupKey a assoc p t).2
      ∧ ∀ i, (t.cache i).pairwise = true → (Rtl8812au.groupKey a assoc p t).2.cache i = t.cache i := by
  unfold Rtl8812au.groupKey CamTable.camidAlloc
  cases hf : t.camidFor a assoc none p.keyid with
  | none => exact ⟨h, fun i _ => rfl⟩
  | some i =>
      obtain ⟨hinv, hpw⟩ := h.write_group hk hf
      refine ⟨hinv, ?_⟩
      intro j hj
      have hji : j ≠ i := by
        intro heq
        rw [heq, hpw] at hj
        cases hj
      exact if_neg hji

theorem setkeyHdl_inv (h : CamInv a t) (assoc : Bool) {p : SetkeyParm} (hk : p.keyid.toNat ≤ 3) :
    CamInv a (setkeyHdl a assoc p t).2
      ∧ ∀ i, (t.cache i).pairwise = true → (setkeyHdl a assoc p t).2.cache i = t.cache i := by
  rw [setkeyHdl_eq]
  cases p.setTx with
  | false => exact h.groupKey assoc hk
  | true =>
      have hu : CamInv a { t with keyIndex := p.keyid } := h.congr rfl rfl
      exact hu.groupKey assoc hk

section

variable {stations : StaTable} {fuel : Nat} {p : SetStakeyParm}

theorem setStakeyHdl_clear (halg : p.algorithm = .noPrivacy) :
    setStakeyHdl a stations fuel p t
      = (CamTable.clearLoop fuel t p.addr).map fun t => (.successRsp, t) :=
  if_pos halg

theorem setStakeyHdl_unknown (halg : p.algorithm ≠ .noPrivacy)
    (hg : stations.getStainfo p.addr = none) :
    setStakeyHdl a stations fuel p t = some (.rejected, t) := by
  unfold setStakeyHdl
  rw [if_neg halg, hg]

/-- A key for a station that has the address. -/
theorem setStakeyHdl_install {s : StaSlot} (halg : p.algorithm ≠ .noPrivacy)
    (hg : stations.getStainfo p.addr = some s) (ho : stations.hwaddr s = p.addr) :
    setStakeyHdl a stations fuel p t
      = match CamTable.camidFor { t with encAlgo := p.algorithm } a true (some p.addr) 0 with
        | none => some (.success, { t with encAlgo := p.algorithm })
        | some i =>
          some (.successRsp,
            CamTable.writeCam { t with encAlgo := p.algorithm, bitmap := t.bitmap ||| camBit i } i
              ⟨camCtrl false p.algorithm p.keyid, p.addr, p.key⟩) := by
  unfold setStakeyHdl
  rw [if_neg halg, hg]
  dsimp only
  rw [ho]
  unfold CamTable.camidAlloc
  cases CamTable.camidFor { t with encAlgo := p.algorithm } a true (some p.addr) 0 with
  | none => rfl
  | some i => rfl

end

/-- A pairwise key in its place. -/
theorem CamInv.write_sta (h : CamInv a t) {p : SetStakeyParm} {assoc : Bool} {i : CamId}
    (haddr : p.addr ≠ .zero) (hk : p.keyid = 0)
    (hf : t.camidFor a assoc (some p.addr) 0 = some i) :
    CamInv a ({ t with bitmap := t.bitmap ||| camBit i }.writeCam i
      ⟨camCtrl false p.algorithm p.keyid, p.addr, p.key⟩) := by
  have hk3 : p.keyid.toNat ≤ 3 := by rw [hk]; decide
  obtain ⟨hvalid, hgrp, hkid⟩ := camCtrl_bits false p.algorithm hk3
  obtain ⟨h4, hplace⟩ := camidFor_sta h haddr hf
  refine h.write (Or.inr ⟨hvalid, Or.inr (Or.inr ⟨h4, hgrp, haddr⟩)⟩) hvalid ?_
  intro j hj hjv hjm hjk
  refine h.fresh hplace j hj hjv hjm (hjk.trans (hkid.trans ?_))
  rw [hk]

end

/-! ## Runs -/

/-- The commands that come in: a group key has one of four ids, a pairwise key has id 0. -/
def CamCmd.Legal : CamCmd → Prop
  | .setkey _ p => p.keyid.toNat ≤ 3
  | .setStakey _ p => p.algorithm ≠ .noPrivacy → p.keyid = 0

/-- The station a key is for has the address of the command. -/
def CamCmd.OwnAddr : CamCmd → Prop
  | .setkey _ _ => True
  | .setStakey stations p => p.algorithm ≠ .noPrivacy →
    ∀ s, stations.getStainfo p.addr = some s → stations.hwaddr s = p.addr

/-- No clear for the all-zero address, and no key for a station that has it. -/
def CamCmd.NonZero : CamCmd → Prop
  | .setkey _ _ => True
  | .setStakey stations p => p.addr = .zero →
    p.algorithm ≠ .noPrivacy ∧ stations.getStainfo p.addr = none

/-- The bitmap says which entries hold a key, no two keys have an address and an id in common, and
pairwise keys leave the default entries alone. -/
structure CamOk (t : CamTable) : Prop where
  bitmap : ∀ i : CamId, t.bitmap.getLsbD i.val = (t.cache i).valid
  unique : ∀ i j, (t.cache i).valid = true → (t.cache j).valid = true →
    (t.cache i).mac = (t.cache j).mac → (t.cache i).keyId = (t.cache j).keyId → i = j
  pairwise : ∀ i, (t.cache i).pairwise = true → 4 ≤ i.val

/-- A group key replaces no pairwise key; a clear takes out the entries of the address with their
bits, and leaves the others. -/
def CmdOk (t t' : CamTable) : CamCmd → Prop
  | .setkey _ _ => ∀ i, (t.cache i).pairwise = true → t'.cache i = t.cache i
  | .setStakey _ p => p.algorithm = .noPrivacy →
    (∀ i, t'.cache i = if (t.cache i).mac = p.addr then .zero else t.cache i)
      ∧ ∀ i : CamId, t'.bitmap.getLsbD i.val
        = if (t.cache i).mac = p.addr then false else t.bitmap.getLsbD i.val

section

variable {a : CamAdapter} {t : CamTable}

theorem CamInv.camOk (h : CamInv a t) : CamOk t where
  bitmap := by
    intro i
    rw [h.bits i.val (id_lt_64 i), slotOf_val]
  unique := h.unique
  pairwise := by
    intro i hp
    unfold CamEntry.pairwise at hp
    rw [Bool.and_eq_true] at hp
    by_contra hlt
    have hg := (((h.entry i).low (by omega)).2 hp.1).1
    simp [hg] at hp

theorem camStep_setStakey (stations : StaTable) (p : SetStakeyParm) :
    camStep a t (.setStakey stations p)
      = (setStakeyHdl a stations (totalCamEntry + 1) p t).map Prod.snd := rfl

/-- One command. -/
theorem camStep_ok (h : CamInv a t) {c : CamCmd} (hl : c.Legal) (ho : c.OwnAddr) (hn : c.NonZero) :
    ∃ t', camStep a t c = some t' ∧ CamInv a t' ∧ CmdOk t t' c := by
  cases c with
  | setkey assoc p =>
      obtain ⟨hinv, hkeep⟩ := setkeyHdl_inv h assoc hl
      exact ⟨_, rfl, hinv, hkeep⟩
  | setStakey stations p =>
      rw [camStep_setStakey]
      by_cases halg : p.algorithm = .noPrivacy
      · rw [setStakeyHdl_clear halg]
        have haddr : p.addr ≠ .zero := fun hz => (hn hz).1 halg
        obtain ⟨t', hloop, hcl⟩ := clearLoop_cleared haddr (totalCamEntry + 1) t (card_entriesOf t)
        refine ⟨t', by rw [hloop]; rfl, h.cleared hcl, ?_⟩
        intro _
        refine ⟨hcl.cache, fun i => ?_⟩
        rw [hcl.bits i.val (id_lt_64 i), slotOf_val]
        by_cases hm : (t.cache i).mac = p.addr
        · simp [hm]
        · simp [hm]
      · have hcmd : ∀ t', CmdOk t t' (.setStakey stations p) := fun _ hf => absurd hf halg
        cases hg : stations.getStainfo p.addr with
        | none =>
            rw [setStakeyHdl_unknown halg hg]
            exact ⟨t, rfl, h, hcmd t⟩
        | some s =>
            have haddr : p.addr ≠ .zero := by
              intro hz
              have hnone := (hn hz).2
              rw [hg] at hnone
              cases hnone
            have hu : CamInv a { t with encAlgo := p.algorithm } := h.congr rfl rfl
            rw [setStakeyHdl_install halg hg (ho halg s hg)]
            cases hf : CamTable.camidFor { t with encAlgo := p.algorithm } a true (some p.addr) 0 with
            | none => exact ⟨_, rfl, hu, hcmd _⟩
            | some i => exact ⟨_, rfl, hu.write_sta haddr (hl halg) hf, hcmd _⟩

/-- The all-zero address finds the entries without an address: a clear never ends, and a key goes to
the first of the default entries. -/
theorem camStep_zero (h : CamInv a t) {c : CamCmd} (hl : c.Legal) (ho : c.OwnAddr)
    (hn : ¬ c.NonZero) {t' : CamTable} (hstep : camStep a t c = some t') : ¬ CamOk t' := by
  cases c with
  | setkey assoc p => exact absurd trivial hn
  | setStakey stations p =>
      have hz : p.addr = .zero := by
        by_contra hne
        exact hn fun hz => absurd hz hne
      rw [camStep_setStakey] at hstep
      by_cases halg : p.algorithm = .noPrivacy
      · rw [setStakeyHdl_clear halg, hz, clearLoop_zero _ t ((h.entry 0).low (by decide)).1] at hstep
        cases hstep
      · cases hg : stations.getStainfo p.addr with
        | none => exact absurd (fun _ => ⟨halg, hg⟩) hn
        | some s =>
            have hu : CamInv a { t with encAlgo := p.algorithm } := h.congr rfl rfl
            rw [setStakeyHdl_install halg hg (ho halg s hg), hz, hu.camidFor_zero] at hstep
            cases hstep
            intro hok
            have hk3 : p.keyid.toNat ≤ 3 := by rw [hl halg]; decide
            obtain ⟨hvalid, hgrp, _⟩ := camCtrl_bits false p.algorithm hk3
            have hpw : (CamEntry.mk (camCtrl false p.algorithm p.keyid) .zero p.key).pairwise = true := by
              unfold CamEntry.pairwise CamEntry.valid CamEntry.grp
              rw [hvalid, hgrp]
              rfl
            exact absurd (hok.pairwise 0 hpw) (by decide)

theorem camRun_inv : ∀ (cs : List CamCmd) {t : CamTable}, CamInv a t →
    (∀ c ∈ cs, c.Legal ∧ c.OwnAddr ∧ c.NonZero) → ∃ t', camRun a t cs = some t' ∧ CamInv a t' := by
  intro cs
  induction cs with
  | nil =>
      intro t h _
      exact ⟨t, rfl, h⟩
  | cons c cs ih =>
      intro t h hcs
      obtain ⟨hl, ho, hn⟩ := hcs c List.mem_cons_self
      obtain ⟨u, hstep, hinv, _⟩ := camStep_ok h hl ho hn
      obtain ⟨t', hrun, ht'⟩ := ih hinv fun c hc => hcs c (List.mem_cons_of_mem _ hc)
      refine ⟨t', ?_, ht'⟩
      show (camStep a t c).bind (fun u => camRun a u cs) = some t'
      rw [hstep]
      exact hrun

end

/-- **The key table.** A run in which no clear is for the all-zero address and no key is for a station
that has it returns from every command, and it leaves the table as it should be. From there the next
command does what it should exactly if it is of this kind too. -/
theorem key_table_ok_iff (a : CamAdapter) (cs : List CamCmd)
    (hcs : ∀ c ∈ cs, c.Legal ∧ c.OwnAddr ∧ c.NonZero) :
    ∃ t, camRun a .empty cs = some t ∧ CamOk t ∧
      ∀ c : CamCmd, c.Legal → c.OwnAddr →
        ((∃ t', camStep a t c = some t' ∧ CamOk t' ∧ CmdOk t t' c) ↔ c.NonZero) := by
  obtain ⟨t, hrun, hinv⟩ := camRun_inv cs (camInv_empty a) hcs
  refine ⟨t, hrun, hinv.camOk, ?_⟩
  intro c hl ho
  constructor
  · intro ⟨t', hstep, hok, _⟩
    by_contra hn
    exact camStep_zero hinv hl ho hn hstep hok
  · intro hn
    obtain ⟨t', hstep, hinv', hcmd⟩ := camStep_ok hinv hl ho hn
    exact ⟨t', hstep, hinv'.camOk, hcmd⟩

/-- An access point. -/
def camAp : CamAdapter := ⟨.ap, ⟨2, 0, 0, 0, 0, 0xaa⟩⟩

/-- The broadcast station and one with the address. -/
def stationsWith (addr : MacAddr) : StaTable := (StaTable.initStaPriv.initBcmcStainfo.allocStainfo addr).1

/-- A key for a station, or its clear. -/
def stakeyCmd (addr : MacAddr) (algorithm : Cipher) : CamCmd :=
  .setStakey (stationsWith addr) ⟨addr, algorithm, 0, .replicate 16 7⟩

theorem stakeyCmd_fine {addr : MacAddr} (hz : addr ≠ .zero)
    (hg : ∀ s, (stationsWith addr).getStainfo addr = some s → (stationsWith addr).hwaddr s = addr)
    (algorithm : Cipher) :
    (stakeyCmd addr algorithm).Legal ∧ (stakeyCmd addr algorithm).OwnAddr
      ∧ (stakeyCmd addr algorithm).NonZero :=
  ⟨fun _ => rfl, fun _ => hg, fun h => absurd h hz⟩

/-- A group key, a station's key and its clear. -/
def camCmds : List CamCmd :=
  [.setkey false ⟨.aes, 1, true, .replicate 16 9⟩, stakeyCmd ⟨2, 0, 0, 0, 0, 1⟩ .aes,
    stakeyCmd ⟨2, 0, 0, 0, 0, 1⟩ .noPrivacy]

theorem key_table_sample :
    (∀ c ∈ camCmds, c.Legal ∧ c.OwnAddr ∧ c.NonZero)
      ∧ ∃ t, camRun camAp .empty camCmds = some t ∧ CamOk t ∧
        ∀ c : CamCmd, c.Legal → c.OwnAddr →
          ((∃ t', camStep camAp t c = some t' ∧ CamOk t' ∧ CmdOk t t' c) ↔ c.NonZero) := by
  have hcs : ∀ c ∈ camCmds, c.Legal ∧ c.OwnAddr ∧ c.NonZero := by
    intro c hc
    have hsta : ∀ s, (stationsWith ⟨2, 0, 0, 0, 0, 1⟩).getStainfo ⟨2, 0, 0, 0, 0, 1⟩ = some s →
        (stationsWith ⟨2, 0, 0, 0, 0, 1⟩).hwaddr s = ⟨2, 0, 0, 0, 0, 1⟩ := by decide +kernel
    simp only [camCmds, List.mem_cons, List.not_mem_nil, or_false] at hc
    rcases hc with rfl | rfl | rfl
    · exact ⟨show (1 : UInt8).toNat ≤ 3 by decide, trivial, trivial⟩
    · exact stakeyCmd_fine (by decide) hsta .aes
    · exact stakeyCmd_fine (by decide) hsta .noPrivacy
  exact ⟨hcs, key_table_ok_iff camAp camCmds hcs⟩

/-- In the empty table of an access point, the key of the station 00:00:00:00:00:00 goes to the first
default entry, and its clear never returns. -/
theorem key_table_zero_addr :
    (∃ t', camStep camAp .empty (stakeyCmd .zero .aes) = some t'
        ∧ (t'.cache 0).pairwise = true ∧ ¬ CamOk t')
      ∧ ∀ fuel, setStakeyHdl camAp (stationsWith .zero) fuel
          ⟨.zero, .noPrivacy, 0, .replicate 16 7⟩ .empty = none := by
  constructor
  · have hstep : (camStep camAp .empty (stakeyCmd .zero .aes)).map
        (fun t' => (t'.cache 0).pairwise) = some true := by decide +kernel
    obtain ⟨t', hstep, hpw⟩ := Option.map_eq_some_iff.mp hstep
    exact ⟨t', hstep, hpw, fun hok => absurd (hok.pairwise 0 hpw) (by decide)⟩
  · intro fuel
    rw [setStakeyHdl_clear rfl]
    have hloop := clearLoop_zero fuel CamTable.empty (i := 0) rfl
    rw [hloop]
    rfl

end Rtl8812au
