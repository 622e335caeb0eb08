import Mathlib.Data.List.Pairwise
import Rtl8812au.Sta.Macid

/-!
# No two stations have one MAC ID

A bitmap is the set of the ids it has a bit for, and the operations on it add one id or take one
out. The invariant ties the set `used` to the stations that are live: each id in it is held by
one station, or is the id 1 that the broadcast stations of all interfaces share and that none of
them gives back.
-/

namespace Rtl8812au

/-! ## Bits -/

theorem test_macidBit (m : BitVec 32) {j : Nat} (hj : j < 32) :
    (m &&& macidBit j != 0) = m.getLsbD j := by
  have hbit : macidBit j ≠ 0 := by
    intro h
    have hlsb := congrArg (fun x => BitVec.getLsbD x j) h
    simp [macidBit, hj] at hlsb
  unfold macidBit at hbit ⊢
  rw [BitVec.and_twoPow]
  cases m.getLsbD j with
  | true => simpa using hbit
  | false => rfl

theorem test_or_macidBit (m : BitVec 32) {i j : Nat} (hi : i < 32) (hj : j < 32) :
    ((m ||| macidBit i) &&& macidBit j != 0) = ((m &&& macidBit j != 0) || decide (i = j)) := by
  rw [test_macidBit _ hj, test_macidBit _ hj, BitVec.getLsbD_or]
  simp [macidBit, BitVec.getLsbD_twoPow, hi]

theorem test_andNot_macidBit (m : BitVec 32) {i j : Nat} (hj : j < 32) :
    ((m &&& ~~~macidBit i) &&& macidBit j != 0) = ((m &&& macidBit j != 0) && !decide (i = j)) := by
  rw [test_macidBit _ hj, test_macidBit _ hj, BitVec.getLsbD_and, BitVec.getLsbD_not]
  simp [macidBit, hj, eq_comm]

/-! ## Bitmaps -/

section

variable {words : Fin 4} {map : MacidBmp} {i j : Nat}

theorem macidNumSwLimit_le (words : Fin 4) : macidNumSwLimit words ≤ 128 := by
  unfold macidNumSwLimit
  omega

/-- The words in a row. -/
def MacidBmp.word (map : MacidBmp) : Nat → BitVec 32
  | 0 => map.m0
  | 1 => map.m1
  | 2 => map.m2
  | _ => map.m3

/-- The four ranges of ids, as the code tells them apart. -/
theorem macid_ranges (hi : i < macidNumSwLimit words) :
    (i < 32 ∧ i / 32 = 0 ∧ i % 32 = i)
      ∨ (¬ i < 32 ∧ (32 < macidNumSwLimit words ∧ i < 64) ∧ i / 32 = 1 ∧ i % 32 = i - 32)
      ∨ (¬ i < 32 ∧ ¬ i < 64 ∧ (64 < macidNumSwLimit words ∧ i < 96) ∧ i / 32 = 2
        ∧ i % 32 = i - 64)
      ∨ (¬ i < 32 ∧ ¬ i < 64 ∧ ¬ i < 96 ∧ (96 < macidNumSwLimit words ∧ i < 128) ∧ i / 32 = 3
        ∧ i % 32 = i - 96) := by
  have hle := macidNumSwLimit_le words
  omega

theorem isSet_eq_word (hj : j < macidNumSwLimit words) :
    rtwMacidIsSet words map j = (map.word (j / 32) &&& macidBit (j % 32) != 0) := by
  unfold rtwMacidIsSet
  rcases macid_ranges hj with ⟨h, hd, hm⟩ | ⟨h0, h, hd, hm⟩ | ⟨h0, h1, h, hd, hm⟩
    | ⟨h0, h1, h2, h, hd, hm⟩
  · rw [if_pos h, hd, hm]
    rfl
  · rw [if_neg h0, if_pos h, hd, hm]
    rfl
  · rw [if_neg h0, if_neg (fun hc => h1 hc.2), if_pos h, hd, hm]
    rfl
  · rw [if_neg h0, if_neg (fun hc => h1 hc.2), if_neg (fun hc => h2 hc.2), if_pos h, hd, hm]
    rfl

theorem word_macidMapUpd {u : BitVec 32 → BitVec 32 → BitVec 32}
    (hi : i < macidNumSwLimit words) {k : Nat} (hk : k < 4) :
    (macidMapUpd words u map i).word k
      = if i / 32 = k then u (map.word k) (macidBit (i % 32)) else map.word k := by
  have hword : k = 0 ∨ k = 1 ∨ k = 2 ∨ k = 3 := by omega
  unfold macidMapUpd
  rcases macid_ranges hi with ⟨h, hd, hm⟩ | ⟨h0, h, hd, hm⟩ | ⟨h0, h1, h, hd, hm⟩
    | ⟨h0, h1, h2, h, hd, hm⟩
  · rw [if_pos h, hd, hm]
    rcases hword with rfl | rfl | rfl | rfl <;> rfl
  · rw [if_neg h0, if_pos h, hd, hm]
    rcases hword with rfl | rfl | rfl | rfl <;> rfl
  · rw [if_neg h0, if_neg (fun hc => h1 hc.2), if_pos h, hd, hm]
    rcases hword with rfl | rfl | rfl | rfl <;> rfl
  · rw [if_neg h0, if_neg (fun hc => h1 hc.2), if_neg (fun hc => h2 hc.2), if_pos h, hd, hm]
    rcases hword with rfl | rfl | rfl | rfl <;> rfl

/-- An id without a word is never set. -/
theorem isSet_of_ge (h : macidNumSwLimit words ≤ j) : rtwMacidIsSet words map j = false := by
  unfold macidNumSwLimit at h
  unfold rtwMacidIsSet macidNumSwLimit
  rw [if_neg (by omega), if_neg (by omega), if_neg (by omega), if_neg (by omega)]

/-- **An operation on one bit** changes what is set at that id and nowhere else. `p` says what
the operation makes of the bit. -/
theorem isSet_macidMapUpd {u : BitVec 32 → BitVec 32 → BitVec 32} {p : Bool → Bool}
    (hu : ∀ (m : BitVec 32) {i j : Nat}, i < 32 → j < 32 →
      (u m (macidBit i) &&& macidBit j != 0)
        = if i = j then p (m &&& macidBit j != 0) else (m &&& macidBit j != 0))
    (hi : i < macidNumSwLimit words) :
    rtwMacidIsSet words (macidMapUpd words u map i) j
      = if i = j then p (rtwMacidIsSet words map j) else rtwMacidIsSet words map j := by
  have hle := macidNumSwLimit_le words
  by_cases hj : j < macidNumSwLimit words
  · rw [isSet_eq_word hj, isSet_eq_word hj, word_macidMapUpd hi (by omega)]
    by_cases hw : i / 32 = j / 32
    · rw [if_pos hw, hu _ (by omega) (by omega)]
      have hsame : i % 32 = j % 32 ↔ i = j := by omega
      simp only [hsame]
    · have hne : i ≠ j := by
        rintro rfl
        exact hw rfl
      rw [if_neg hw, if_neg hne]
  · have hne : i ≠ j := by omega
    rw [isSet_of_ge (by omega), isSet_of_ge (by omega), if_neg hne]

/-- **`rtw_macid_map_set` adds one id.** -/
theorem isSet_mapSet (hi : i < macidNumSwLimit words) :
    rtwMacidIsSet words (rtwMacidMapSet words map i) j
      = (rtwMacidIsSet words map j || decide (i = j)) := by
  unfold rtwMacidMapSet
  rw [isSet_macidMapUpd (p := fun _ => true) ?_ hi]
  · by_cases hij : i = j
    · simp [hij]
    · simp [hij]
  · intro m i j hi hj
    rw [test_or_macidBit m hi hj]
    by_cases hij : i = j
    · simp [hij]
    · simp [hij]

/-- **`rtw_macid_map_clr` takes one id out.** -/
theorem isSet_mapClr (hi : i < macidNumSwLimit words) :
    rtwMacidIsSet words (rtwMacidMapClr words map i) j
      = (rtwMacidIsSet words map j && !decide (i = j)) := by
  unfold rtwMacidMapClr
  rw [isSet_macidMapUpd (p := fun _ => false) ?_ hi]
  · by_cases hij : i = j
    · simp [hij]
    · simp [hij]
  · intro m i j hi hj
    rw [test_andNot_macidBit m hj]
    by_cases hij : i = j
    · simp [hij]
    · simp [hij]

end

/-! ## Stations -/

section

variable {words : Fin 4} {myid : IfaceId → MacAddr}

/-- A station that is neither the broadcast station nor the one for the own address. -/
def MacidSta.Plain (myid : IfaceId → MacAddr) (x : MacidSta) : Prop :=
  x.hwaddr ≠ .bcast ∧ x.hwaddr ≠ myid x.iface

instance (x : MacidSta) : Decidable (x.Plain myid) := inferInstanceAs (Decidable (_ ∧ _))

/-- The maps of `struct macid_ctl_t`. -/
inductive MacidMap where
  | used | bmc | ifG (i : IfaceId) | chG (i : Fin 2)

/-- One of the maps. -/
def MacidCtl.map (ctl : MacidCtl) : MacidMap → MacidBmp
  | .used => ctl.used
  | .bmc => ctl.bmc
  | .ifG i => ctl.ifG i
  | .chG i => ctl.chG i

/-- **What holds of the ids in every state.** -/
structure MacidsKept (words : Fin 4) (myid : IfaceId → MacAddr) (s : MacidWorld) : Prop where
  /-- no two stations share an id -/
  distinct : ∀ x ∈ s.live, ∀ y ∈ s.live, x.Plain myid → y.Plain myid → x.macId < s.ctl.num →
    x.macId = y.macId → x = y
  /-- the id of the broadcast stations is theirs -/
  reserved : ∀ x ∈ s.live, x.Plain myid → x.macId ≠ 1
  /-- `used` has the ids that are held, and the shared one once it was given out -/
  used : ∀ id, rtwMacidIsUsed words s.ctl id = true ↔
    (∃ x ∈ s.live, x.macId = id ∧ id < s.ctl.num) ∨ (id = 1 ∧ s.shared = true)
  /-- a station that is released takes its id out of every map, and nothing else -/
  release : ∀ x ∈ s.live, ∀ m id,
    rtwMacidIsSet words ((rtwReleaseMacid words (myid x.iface) s.ctl x.hwaddr x.macId).1.map m) id
      = (rtwMacidIsSet words (s.ctl.map m) id && !decide (x.Plain myid ∧ id = x.macId))

/-- The invariant: which id each live station has, and that `used` is the set of them. -/
structure MacidInv (words : Fin 4) (myid : IfaceId → MacAddr) (s : MacidWorld) : Prop where
  num : s.ctl.num = macidNumSwLimit words
  keys : s.live.Pairwise fun x y => x.key ≠ y.key
  own : ∀ x ∈ s.live, x.hwaddr = myid x.iface → x.macId = s.ctl.num
  bcast : ∀ x ∈ s.live, x.hwaddr ≠ myid x.iface → x.hwaddr = .bcast →
    x.macId = 1 ∧ s.shared = true
  plain : ∀ x ∈ s.live, x.Plain myid → x.macId = s.ctl.num ∨ x.macId < s.ctl.num ∧ x.macId ≠ 1
  apart : s.live.Pairwise fun x y => x.Plain myid → y.Plain myid → x.macId < s.ctl.num →
    x.macId ≠ y.macId
  used : ∀ id, rtwMacidIsUsed words s.ctl id = true ↔
    (∃ x ∈ s.live, x.Plain myid ∧ x.macId = id ∧ id < s.ctl.num) ∨ (id = 1 ∧ s.shared = true)

variable {s s' : MacidWorld} {ctl : MacidCtl} {iface : IfaceId} {hwaddr own : MacAddr}

/-- **What `rtw_alloc_macid` can do**: nothing for the own address or when the ids have run out,
the shared id for the broadcast address, or an id that was not used. -/
theorem rtwAllocMacid_cases (words : Fin 4) (iface : IfaceId) (own : MacAddr) (ctl : MacidCtl)
    (hwaddr : MacAddr) :
    (hwaddr = own ∧ rtwAllocMacid words iface own ctl hwaddr = (ctl, ctl.num))
      ∨ (hwaddr ≠ own ∧ hwaddr = .bcast ∧ ∃ c, rtwAllocMacid words iface own ctl hwaddr = (c, 1)
        ∧ c.num = ctl.num ∧ c.used = rtwMacidMapSet words ctl.used 1)
      ∨ (hwaddr ≠ own ∧ hwaddr ≠ .bcast
        ∧ rtwAllocMacid words iface own ctl hwaddr = (ctl, ctl.num))
      ∨ (hwaddr ≠ own ∧ hwaddr ≠ .bcast ∧ ∃ c i,
        rtwAllocMacid words iface own ctl hwaddr = (c, i) ∧ c.num = ctl.num ∧ i < ctl.num ∧ i ≠ 1
          ∧ rtwMacidIsUsed words ctl i = false ∧ c.used = rtwMacidMapSet words ctl.used i) := by
  unfold rtwAllocMacid
  by_cases hown : hwaddr = own
  · rw [if_pos hown]
    exact Or.inl ⟨hown, rfl⟩
  · rw [if_neg hown]
    by_cases hbc : hwaddr = .bcast
    · rw [if_pos hbc]
      exact Or.inr (Or.inl ⟨hown, hbc, _, rfl, rfl, rfl⟩)
    · rw [if_neg hbc]
      cases hsearch : macidSearch words ctl with
      | none => exact Or.inr (Or.inr (Or.inl ⟨hown, hbc, rfl⟩))
      | some i =>
          have hmem := List.mem_of_find?_eq_some hsearch
          have hfree := List.find?_some hsearch
          rw [Bool.and_eq_true, bne_iff_ne, Bool.not_eq_true'] at hfree
          exact Or.inr (Or.inr (Or.inr
            ⟨hown, hbc, _, i, rfl, rfl, List.mem_range.mp hmem, hfree.1, hfree.2, rfl⟩))

theorem MacidInv.key_inj (h : MacidInv words myid s) {x y : MacidSta} (hx : x ∈ s.live)
    (hy : y ∈ s.live) (he : x.key = y.key) : x = y := by
  have hsymm : Std.Symm fun x y : MacidSta => x.key ≠ y.key := ⟨fun _ _ hne => hne.symm⟩
  by_contra hne
  exact h.keys.forall hx hy hne he

theorem MacidInv.macId_inj (h : MacidInv words myid s) {x y : MacidSta} (hx : x ∈ s.live)
    (hy : y ∈ s.live) (hpx : x.Plain myid) (hpy : y.Plain myid) (hlt : x.macId < s.ctl.num)
    (he : x.macId = y.macId) : x = y := by
  have hsymm : Std.Symm fun x y : MacidSta => x.Plain myid → y.Plain myid →
      x.macId < s.ctl.num → x.macId ≠ y.macId := by
    refine ⟨?_⟩
    intro x y hxy hy hx hlt he
    exact hxy hx hy (by omega) he.symm
  by_contra hne
  exact h.apart.forall hx hy hne hpx hpy hlt he

/-- **A new station** whose id was not used, or is none, or is the shared one. -/
theorem MacidInv.cons {x : MacidSta} {shared : Bool} (h : MacidInv words myid s)
    (hnum : ctl.num = s.ctl.num) (hkey : ∀ y ∈ s.live, x.key ≠ y.key)
    (hown : x.hwaddr = myid x.iface → x.macId = s.ctl.num)
    (hbc : x.hwaddr ≠ myid x.iface → x.hwaddr = .bcast → x.macId = 1 ∧ shared = true)
    (hplain : x.Plain myid → x.macId = s.ctl.num
      ∨ x.macId < s.ctl.num ∧ x.macId ≠ 1 ∧ rtwMacidIsUsed words s.ctl x.macId = false)
    (hmono : s.shared = true → shared = true)
    (hused : ∀ id, rtwMacidIsUsed words ctl id = true ↔ rtwMacidIsUsed words s.ctl id = true
      ∨ (x.Plain myid ∧ x.macId = id ∧ id < s.ctl.num) ∨ (id = 1 ∧ shared = true)) :
    MacidInv words myid { ctl := ctl, live := x :: s.live, shared := shared } := by
  refine ⟨hnum.trans h.num, List.pairwise_cons.mpr ⟨hkey, h.keys⟩, ?_, ?_, ?_, ?_, ?_⟩
  -- the own station, the shared one and the plain ones: the new station or one of before
  · intro y hy he
    dsimp only
    rw [hnum]
    rcases List.mem_cons.mp hy with rfl | hy
    · exact hown he
    · exact h.own y hy he
  · intro y hy hne he
    rcases List.mem_cons.mp hy with rfl | hy
    · exact hbc hne he
    · exact ⟨(h.bcast y hy hne he).1, hmono (h.bcast y hy hne he).2⟩
  · intro y hy hp
    dsimp only
    rw [hnum]
    rcases List.mem_cons.mp hy with rfl | hy
    · rcases hplain hp with he | ⟨hlt, hne, -⟩
      · exact Or.inl he
      · exact Or.inr ⟨hlt, hne⟩
    · exact h.plain y hy hp
  · dsimp only
    rw [hnum]
    refine List.pairwise_cons.mpr ⟨?_, h.apart⟩
    intro y hy hx hyp hlt he
    rcases hplain hx with hn | ⟨-, -, hfree⟩
    · omega
    · -- the id would be in `used` already
      have hin : rtwMacidIsUsed words s.ctl x.macId = true :=
        (h.used x.macId).mpr (Or.inl ⟨y, hy, hyp, he.symm, hlt⟩)
      rw [hin] at hfree
      cases hfree
  -- a bit is set for a station that has the number, and for the shared one
  · intro id
    dsimp only
    rw [hused id, h.used id, hnum]
    constructor
    · rintro ((⟨y, hy, hp, he, hlt⟩ | ⟨he, hs⟩) | ⟨hp, he, hlt⟩ | hshared)
      · exact Or.inl ⟨y, List.mem_cons_of_mem x hy, hp, he, hlt⟩
      · exact Or.inr ⟨he, hmono hs⟩
      · exact Or.inl ⟨x, List.mem_cons_self .., hp, he, hlt⟩
      · exact Or.inr hshared
    · rintro (⟨y, hy, hp, he, hlt⟩ | hshared)
      · rcases List.mem_cons.mp hy with rfl | hy
        · exact Or.inr (Or.inl ⟨hp, he, hlt⟩)
        · exact Or.inl (Or.inl ⟨y, hy, hp, he, hlt⟩)
      · exact Or.inr (Or.inr hshared)

theorem macidInv_alloc {key : Nat} (h : MacidInv words myid s)
    (hd : macidStep words myid s (.alloc key iface hwaddr) = .done s') :
    MacidInv words myid s' := by
  unfold macidStep at hd
  dsimp only at hd
  split at hd
  · obtain rfl := Outcome.done.inj hd
    exact h
  · rename_i hnew
    obtain rfl := Outcome.done.inj hd
    -- a key that a live station has is not given out again
    have hkeys : ∀ y ∈ s.live, key ≠ y.key := by
      intro y hy he
      refine hnew (List.any_eq_true.mpr ⟨y, hy, ?_⟩)
      rw [he]
      exact beq_self_eq_true _
    have hone : 1 < macidNumSwLimit words := by
      unfold macidNumSwLimit
      omega
    -- `shared` is remembered, and only a group address of another interface sets it
    have hmono : s.shared = true →
        (s.shared || (hwaddr == .bcast && hwaddr != myid iface)) = true := by
      intro hs
      rw [hs]
      rfl
    have hkept : hwaddr = myid iface ∨ hwaddr ≠ .bcast →
        (s.shared || (hwaddr == .bcast && hwaddr != myid iface)) = s.shared := by
      rintro (he | he) <;> simp [he]
    -- nothing is marked when the station gets no id: its number is then `num`, which is out of range
    have hnone : ∀ {id : Nat}, (hwaddr = myid iface ∨ hwaddr ≠ .bcast) →
        (rtwMacidIsUsed words s.ctl id = true ↔ rtwMacidIsUsed words s.ctl id = true
          ∨ (MacidSta.Plain myid ⟨key, iface, hwaddr, s.ctl.num⟩ ∧ s.ctl.num = id ∧ id < s.ctl.num)
          ∨ (id = 1 ∧ (s.shared || (hwaddr == .bcast && hwaddr != myid iface)) = true)) := by
      intro id hk
      rw [hkept hk]
      constructor
      · exact Or.inl
      · rintro (hu | ⟨-, he, hlt⟩ | ⟨he, hs⟩)
        · exact hu
        · omega
        · exact (h.used id).mpr (Or.inr ⟨he, hs⟩)
    rcases rtwAllocMacid_cases words iface (myid iface) s.ctl hwaddr with
      ⟨hown, hr⟩ | ⟨hown, hbc, c, hr, hnum, hused⟩ | ⟨hown, hbc, hr⟩
        | ⟨hown, hbc, c, i, hr, hnum, hi, hi1, hfree, hused⟩
    -- the interface itself: no id
    · rw [hr]
      exact h.cons rfl hkeys (fun _ => rfl) (fun hne => absurd hown hne)
        (fun hp => absurd hown hp.2) hmono (fun _ => hnone (Or.inl hown))
    -- the group address: id 1, which is marked for good
    · rw [hr]
      have hshared : (s.shared || (hwaddr == .bcast && hwaddr != myid iface)) = true := by
        rw [hbc] at hown ⊢
        simp [hown]
      refine h.cons hnum hkeys (fun he => absurd he hown) (fun _ _ => ⟨rfl, hshared⟩)
        (fun hp => absurd hbc hp.1) hmono ?_
      intro id
      have hset : rtwMacidIsUsed words c id
          = (rtwMacidIsUsed words s.ctl id || decide (1 = id)) := by
        unfold rtwMacidIsUsed
        rw [hused]
        exact isSet_mapSet hone
      rw [hset, Bool.or_eq_true, decide_eq_true_eq]
      -- the new mark is the shared one, and a group address is no plain station
      constructor
      · rintro (hu | rfl)
        · exact Or.inl hu
        · exact Or.inr (Or.inr ⟨rfl, hshared⟩)
      · rintro (hu | ⟨hp, -, -⟩ | ⟨he, -⟩)
        · exact Or.inl hu
        · exact absurd hbc hp.1
        · exact Or.inr he.symm
    -- a station for which every id is taken
    · rw [hr]
      exact h.cons rfl hkeys (fun he => absurd he hown) (fun _ he => absurd he hbc)
        (fun _ => Or.inl rfl) hmono (fun _ => hnone (Or.inr hbc))
    -- a station that gets the first free id, which was nobody's
    · rw [hr]
      refine h.cons hnum hkeys (fun he => absurd he hown) (fun _ he => absurd he hbc)
        (fun _ => Or.inr ⟨hi, hi1, hfree⟩) hmono ?_
      intro id
      have hset : rtwMacidIsUsed words c id
          = (rtwMacidIsUsed words s.ctl id || decide (i = id)) := by
        unfold rtwMacidIsUsed
        rw [hused]
        exact isSet_mapSet (by rw [← h.num]; exact hi)
      rw [hset, Bool.or_eq_true, decide_eq_true_eq, hkept (Or.inr hbc)]
      -- the new mark is that of the station that has just come
      constructor
      · rintro (hu | rfl)
        · exact Or.inl hu
        · exact Or.inr (Or.inl ⟨⟨hbc, hown⟩, rfl, hi⟩)
      · rintro (hu | ⟨-, he, -⟩ | hs)
        · exact Or.inl hu
        · exact Or.inr he
        · exact Or.inl ((h.used id).mpr (Or.inr hs))

/-! ## Release -/

/-- **What `rtw_release_macid` can do**: nothing, or clear the id in every map. -/
theorem rtwReleaseMacid_cases (words : Fin 4) (own : MacAddr) (ctl : MacidCtl) (hwaddr : MacAddr)
    (macId : Nat) :
    ((hwaddr = own ∨ hwaddr = .bcast ∨ macId = 1 ∨ ctl.num ≤ macId)
        ∧ (rtwReleaseMacid words own ctl hwaddr macId).1 = ctl)
      ∨ (hwaddr ≠ own ∧ hwaddr ≠ .bcast ∧ macId ≠ 1 ∧ macId < ctl.num
        ∧ (rtwReleaseMacid words own ctl hwaddr macId).1.num = ctl.num
        ∧ ∀ m, (rtwReleaseMacid words own ctl hwaddr macId).1.map m
          = rtwMacidMapClr words (ctl.map m) macId) := by
  unfold rtwReleaseMacid
  by_cases hown : hwaddr = own
  · rw [if_pos hown]
    exact Or.inl ⟨Or.inl hown, rfl⟩
  · rw [if_neg hown]
    by_cases hbc : hwaddr = .bcast
    · rw [if_pos hbc]
      exact Or.inl ⟨Or.inr (Or.inl hbc), rfl⟩
    · rw [if_neg hbc]
      by_cases h1 : macId = 1
      · rw [if_pos h1]
        exact Or.inl ⟨Or.inr (Or.inr (Or.inl h1)), rfl⟩
      · rw [if_neg h1]
        by_cases hlt : macId < ctl.num
        · rw [if_pos hlt]
          refine Or.inr ⟨hown, hbc, h1, hlt, rfl, ?_⟩
          intro m
          cases m <;> rfl
        · rw [if_neg hlt]
          exact Or.inl ⟨Or.inr (Or.inr (Or.inr (by omega))), rfl⟩

/-- In a state of a run a release takes exactly the id of the station out of every map. -/
theorem MacidInv.release_map (h : MacidInv words myid s) {x : MacidSta} (hx : x ∈ s.live)
    (m : MacidMap) (id : Nat) :
    rtwMacidIsSet words ((rtwReleaseMacid words (myid x.iface) s.ctl x.hwaddr x.macId).1.map m) id
      = (rtwMacidIsSet words (s.ctl.map m) id && !decide (x.Plain myid ∧ id = x.macId)) := by
  rcases rtwReleaseMacid_cases words (myid x.iface) s.ctl x.hwaddr x.macId with
    ⟨hwhy, hr⟩ | ⟨hown, hbc, -, hlt, -, hr⟩
  · rw [hr]
    by_cases hp : x.Plain myid ∧ id = x.macId
    · -- a plain station without an id: `num` has no bit
      have hge : macidNumSwLimit words ≤ id := by
        rw [hp.2, ← h.num]
        rcases hwhy with he | he | he | he
        · exact absurd he hp.1.2
        · exact absurd he hp.1.1
        · rcases h.plain x hx hp.1 with hn | ⟨-, hne⟩
          · omega
          · exact absurd he hne
        · exact he
      rw [isSet_of_ge hge]
      rfl
    · rw [decide_eq_false hp, Bool.not_false, Bool.and_true]
  · have hplain : x.Plain myid := ⟨hbc, hown⟩
    have hsame : (x.Plain myid ∧ id = x.macId) ↔ x.macId = id := by
      constructor
      · intro hc
        exact hc.2.symm
      · intro he
        exact ⟨hplain, he.symm⟩
    rw [hr m, isSet_mapClr (by rw [← h.num]; exact hlt)]
    simp only [hsame]

theorem macidInv_release {key : Nat} (h : MacidInv words myid s)
    (hd : macidStep words myid s (.release key) = .done s') : MacidInv words myid s' := by
  unfold macidStep at hd
  dsimp only at hd
  cases hfind : s.live.find? (·.key == key) with
  | none =>
      rw [hfind] at hd
      obtain rfl := Outcome.done.inj hd
      exact h
  | some x =>
      rw [hfind] at hd
      obtain rfl := Outcome.done.inj hd
      have hx := List.mem_of_find?_eq_some hfind
      have hkey : x.key = key := by simpa using List.find?_some hfind
      have hnum : (rtwReleaseMacid words (myid x.iface) s.ctl x.hwaddr x.macId).1.num
          = s.ctl.num := by
        rcases rtwReleaseMacid_cases words (myid x.iface) s.ctl x.hwaddr x.macId with
          ⟨-, hr⟩ | ⟨-, -, -, -, hr, -⟩
        · rw [hr]
        · exact hr
      -- the other stations stay
      have hsub : ∀ {y}, y ∈ s.live.filter (·.key != key) → y ∈ s.live ∧ y.key ≠ key := by
        intro y hy
        obtain ⟨hy, hne⟩ := List.mem_filter.mp hy
        exact ⟨hy, bne_iff_ne.mp hne⟩
      refine ⟨hnum.trans h.num, h.keys.filter _, ?_, ?_, ?_, ?_, ?_⟩
      · intro y hy he
        dsimp only
        rw [hnum]
        exact h.own y (hsub hy).1 he
      · intro y hy
        exact h.bcast y (hsub hy).1
      · intro y hy hp
        dsimp only
        rw [hnum]
        exact h.plain y (hsub hy).1 hp
      · dsimp only
        rw [hnum]
        exact h.apart.filter _
      · intro id
        dsimp only
        -- the bit is cleared, and no other station has the number
        have hclr := h.release_map hx .used id
        unfold rtwMacidIsUsed
        rw [show (rtwReleaseMacid words (myid x.iface) s.ctl x.hwaddr x.macId).1.used
          = (rtwReleaseMacid words (myid x.iface) s.ctl x.hwaddr x.macId).1.map .used from rfl, hclr,
          Bool.and_eq_true, Bool.not_eq_true', decide_eq_false_iff_not, hnum]
        rw [show rtwMacidIsSet words (s.ctl.map .used) id = rtwMacidIsUsed words s.ctl id from rfl,
          h.used id]
        constructor
        · rintro ⟨⟨y, hy, hp, he, hlt⟩ | hs, hne⟩
          · refine Or.inl ⟨y, List.mem_filter.mpr ⟨hy, bne_iff_ne.mpr ?_⟩, hp, he, hlt⟩
            intro hyk
            have hxy : y = x := h.key_inj hy hx (hyk.trans hkey.symm)
            rw [hxy] at hp he
            exact hne ⟨hp, he.symm⟩
          · exact Or.inr hs
        · rintro (⟨y, hy, hp, he, hlt⟩ | ⟨he, hs⟩)
          · obtain ⟨hy, hyk⟩ := hsub hy
            refine ⟨Or.inl ⟨y, hy, hp, he, hlt⟩, ?_⟩
            rintro ⟨hpx, hidx⟩
            have hxy : y = x := h.macId_inj hy hx hp hpx (by omega) (by omega)
            rw [hxy] at hyk
            exact hyk hkey
          · refine ⟨Or.inr ⟨he, hs⟩, ?_⟩
            rintro ⟨hpx, hidx⟩
            rcases h.plain x hx hpx with hn | ⟨-, h1⟩
            · have hone : 1 < macidNumSwLimit words := by
                unfold macidNumSwLimit
                omega
              have hnum := h.num
              omega
            · omega

/-! ## Runs -/

theorem macidInv_step {e : MacidEvent} (h : MacidInv words myid s)
    (hd : macidStep words myid s e = .done s') : MacidInv words myid s' := by
  cases e with
  | alloc key iface hwaddr => exact macidInv_alloc h hd
  | release key => exact macidInv_release h hd

theorem macidInv_start : MacidInv words myid { ctl := rtwMacidCtlInit words } := by
  refine ⟨?_, List.Pairwise.nil, ?_, ?_, ?_, List.Pairwise.nil, ?_⟩
  · show min halMacidNum (macidNumSwLimit words) = macidNumSwLimit words
    exact Nat.min_eq_right (macidNumSwLimit_le words)
  · intro x hx
    cases hx
  · intro x hx
    cases hx
  · intro x hx
    cases hx
  · intro id
    have hclear : rtwMacidIsUsed words (rtwMacidCtlInit words) id = false := by
      by_cases hid : id < macidNumSwLimit words
      · unfold rtwMacidIsUsed
        rw [isSet_eq_word hid, test_macidBit _ (Nat.mod_lt _ (by decide))]
        have hzero : (rtwMacidCtlInit words).used.word (id / 32) = 0#32 := by
          unfold MacidBmp.word
          split <;> rfl
        rw [hzero]
        exact BitVec.getLsbD_zero
      · exact isSet_of_ge (by omega)
    rw [hclear]
    constructor
    · intro h
      cases h
    · rintro (⟨x, hx, -⟩ | ⟨-, hs⟩)
      · cases hx
      · cases hs

/-- **MAC IDs are unique.** In every build and for all own addresses, in every state that
allocations for new stations and releases of live ones lead to. -/
theorem macids_kept (words : Fin 4) (myid : IfaceId → MacAddr)
    (h : Reach (macidStep words myid) (fun _ _ => True) { ctl := rtwMacidCtlInit words } s) :
    MacidsKept words myid s := by
  have hinv : MacidInv words myid s := by
    refine h.invariant (MacidInv words myid) macidInv_start ?_
    intro s s' e hs _ hd
    exact macidInv_step hs hd
  refine ⟨?_, ?_, ?_, ?_⟩
  · intro x hx y hy hpx hpy hlt he
    exact hinv.macId_inj hx hy hpx hpy hlt he
  · intro x hx hp
    have hone : 1 < macidNumSwLimit words := by
      unfold macidNumSwLimit
      omega
    have hnum := hinv.num
    rcases hinv.plain x hx hp with hn | ⟨-, hne⟩
    · omega
    · exact hne
  · intro id
    rw [hinv.used id]
    constructor
    · rintro (⟨x, hx, -, he, hlt⟩ | hs)
      · exact Or.inl ⟨x, hx, he, hlt⟩
      · exact Or.inr hs
    · rintro (⟨x, hx, he, hlt⟩ | hs)
      · by_cases hown : x.hwaddr = myid x.iface
        · have hnone := hinv.own x hx hown
          omega
        · by_cases hbc : x.hwaddr = .bcast
          · obtain ⟨h1, hs⟩ := hinv.bcast x hx hown hbc
            exact Or.inr ⟨by omega, hs⟩
          · exact Or.inl ⟨x, hx, ⟨hbc, hown⟩, he, hlt⟩
      · exact Or.inr hs
  · intro x hx m id
    exact hinv.release_map hx m id

end

/-- The broadcast station, two others, and the first of them goes. -/
def sampleMacidRun : List MacidEvent :=
  [.alloc 0 0 .bcast, .alloc 1 0 ⟨2, 0, 0, 0, 0, 1⟩, .alloc 2 0 ⟨2, 0, 0, 0, 0, 2⟩, .release 1]

theorem macids_kept_sample :
    ∃ s, runActions (macidStep 0 fun _ => .zero) { ctl := rtwMacidCtlInit 0 } sampleMacidRun
        = .done s
      ∧ s.live.map (·.macId) = [2, 1] ∧ MacidsKept 0 (fun _ => .zero) s := by
  have hview : (runActions (macidStep 0 fun _ => .zero) { ctl := rtwMacidCtlInit 0 }
      sampleMacidRun).view (fun s => s.live.map (·.macId)) = some [2, 1] := by decide
  obtain ⟨s, hrun, hids⟩ := Outcome.of_view hview
  exact ⟨s, hrun, hids, macids_kept 0 _
    (reach_runActions .start (RunOk.of_all fun _ _ _ => trivial) hrun)⟩

/-- The broadcast station goes, and its id stays in `used`. -/
theorem shared_macid_stays_used :
    ¬ ∀ (words : Fin 4) (myid : IfaceId → MacAddr) (s : MacidWorld),
      Reach (macidStep words myid) (fun _ _ => True) { ctl := rtwMacidCtlInit words } s →
      ∀ id, rtwMacidIsUsed words s.ctl id = true ↔ ∃ x ∈ s.live, x.macId = id ∧ id < s.ctl.num := by
  intro h
  have hview : (runActions (macidStep 0 fun _ => .zero) { ctl := rtwMacidCtlInit 0 }
      [.alloc 0 0 .bcast, .release 0]).view
        (fun s => (rtwMacidIsUsed 0 s.ctl 1, s.live.length)) = some (true, 0) := by decide
  obtain ⟨s, hrun, hseen⟩ := Outcome.of_view hview
  have hreach : Reach (macidStep 0 fun _ => .zero) (fun _ _ => True)
      { ctl := rtwMacidCtlInit 0 } s :=
    reach_runActions .start (RunOk.of_all fun _ _ _ => trivial) hrun
  obtain ⟨x, hx, -⟩ := (h 0 _ s hreach 1).mp (congrArg Prod.fst hseen)
  have hnil : s.live = [] := List.length_eq_zero_iff.mp (congrArg Prod.snd hseen)
  rw [hnil] at hx
  cases hx

end Rtl8812au
