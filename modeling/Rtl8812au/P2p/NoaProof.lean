import Rtl8812au.P2p.Noa

/-!
# Which notices of absence are decoded

Nothing compares the length of the attribute with anything but the offset. One descriptor more than there
are entries is written behind the arrays, and a descriptor that is not complete is read from the cleared
bytes behind the content. So the loop is right exactly for contents of `2 + 13 * n` bytes with at most two
descriptors, and then it stores them.
-/

namespace Rtl8812au.P2p

/-! ## The loop over the descriptors -/

section

variable {attr : Mem} {n : Nat}

/-- The loop is at the descriptor `k`. -/
structure NoaScan.At (s : NoaScan) (k : Nat) : Prop where
  offset : s.offset.toNat = 2 + 13 * k
  num : s.num.toNat = k

theorem NoaScan.At.offsets {s : NoaScan} {k : Nat} (h : s.At k) (hk : k < 19) :
    (s.offset + 1).toNat = 3 + 13 * k ∧ (s.offset + 5).toNat = 7 + 13 * k
      ∧ (s.offset + 9).toNat = 11 + 13 * k := by
  have hoff := h.offset
  have h1 : (1 : UInt8).toNat = 1 := rfl
  have h5 : (5 : UInt8).toNat = 5 := rfl
  have h9 : (9 : UInt8).toNat = 9 := rfl
  refine ⟨?_, ?_, ?_⟩
  · rw [UInt8.toNat_add, h1]
    omega
  · rw [UInt8.toNat_add, h5]
    omega
  · rw [UInt8.toNat_add, h9]
    omega

theorem NoaScan.At.take {s : NoaScan} {k : Nat} (h : s.At k) (hk : k < 18) : (s.take attr n).At (k + 1) := by
  have hoff := h.offset
  have hnum := h.num
  have h13 : (13 : UInt8).toNat = 13 := rfl
  have h1 : (1 : UInt8).toNat = 1 := rfl
  constructor
  · show (s.offset + 13).toNat = _
    rw [UInt8.toNat_add, h13]
    omega
  · show (s.num + 1).toNat = _
    rw [UInt8.toNat_add, h1]
    omega

/-- A descriptor uses an entry that is there and bytes of the content. -/
theorem take_used_ok {s : NoaScan} {k : Nat} (h : s.At k) (hk : k < maxNoaNum) :
    Access.AllOk (s.take attr n).used ↔ Access.AllOk s.used ∧ 2 + 13 * (k + 1) ≤ n := by
  unfold maxNoaNum at hk
  obtain ⟨h1, h5, h9⟩ := h.offsets (by omega)
  unfold NoaScan.take
  dsimp only
  rw [Access.allOk_append, h1, h5, h9, h.offset, h.num]
  refine and_congr_right fun _ => ?_
  simp only [Access.allOk_cons, Access.allOk_nil, maxNoaNum, and_true]
  omega

/-- The loop forgets nothing that was used. -/
theorem noaLoop_used {free : Nat} : ∀ {s s' : NoaScan}, noaLoop attr n free s = some s' →
    ∀ a ∈ s.used, a ∈ s'.used := by
  induction free with
  | zero =>
      intro s s' h
      rw [noaLoop] at h
      split at h
      · cases h
      · cases h
        exact fun a ha => ha
  | succ free ih =>
      intro s s' h
      rw [noaLoop] at h
      split at h
      · exact fun a ha => ih h a (List.mem_append_left _ ha)
      · cases h
        exact fun a ha => ha

/-- **The loop ends inside the arrays and the content** exactly when complete descriptors are left, and
no more than there are entries. -/
theorem noaLoop_ok_iff {free : Nat} : ∀ {k : Nat} {s : NoaScan}, s.At k → k + free = maxNoaNum →
    2 + 13 * k ≤ n → Access.AllOk s.used →
    ((∃ s', noaLoop attr n free s = some s' ∧ Access.AllOk s'.used)
      ↔ ∃ j ≤ free, n = 2 + 13 * (k + j)) := by
  induction free with
  | zero =>
      intro k s h _ hn hok
      rw [noaLoop, h.offset]
      by_cases hlt : 2 + 13 * k < n
      · rw [if_pos hlt]
        refine iff_of_false nofun ?_
        rintro ⟨j, hj, hnj⟩
        omega
      · rw [if_neg hlt]
        exact iff_of_true ⟨s, rfl, hok⟩ ⟨0, Nat.le_refl _, by omega⟩
  | succ free ih =>
      intro k s h hfree hn hok
      have hk : k < maxNoaNum := by omega
      have htake := @take_used_ok attr n s k h hk
      rw [noaLoop, h.offset]
      by_cases hlt : 2 + 13 * k < n
      · rw [if_pos hlt]
        by_cases hnext : 2 + 13 * (k + 1) ≤ n
        · have hat : (s.take attr n).At (k + 1) := h.take (by
            unfold maxNoaNum at hk
            omega)
          rw [ih hat (by omega) hnext (htake.mpr ⟨hok, hnext⟩)]
          constructor
          · rintro ⟨j, hj, hnj⟩
            exact ⟨j + 1, by omega, by omega⟩
          · rintro ⟨j, hj, hnj⟩
            exact ⟨j - 1, by omega, by omega⟩
        · -- the descriptor is cut short
          refine iff_of_false ?_ ?_
          · rintro ⟨s', hs', hok'⟩
            exact hnext (htake.mp (hok'.mono (noaLoop_used hs'))).2
          · rintro ⟨j, hj, hnj⟩
            have hz : j = 0 ∨ 1 ≤ j := by omega
            rcases hz with rfl | hone
            · omega
            · omega
      · rw [if_neg hlt]
        exact iff_of_true ⟨s, rfl, hok⟩ ⟨0, Nat.zero_le _, by omega⟩

end

/-! ## What is stored -/

/-- A descriptor as it is written. -/
def NoaSlot.bytes (d : NoaSlot) : List UInt8 := d.count :: (d.duration ++ (d.interval ++ d.startTime))

/-- Its three times have four bytes each. -/
def NoaSlot.Proper (d : NoaSlot) : Prop :=
  d.duration.length = 4 ∧ d.interval.length = 4 ∧ d.startTime.length = 4

instance : DecidablePred NoaSlot.Proper := fun _ => inferInstanceAs (Decidable (_ ∧ _ ∧ _))

section

variable {attr : Mem} {n : Nat}

/-- The descriptor in front of what is left. -/
theorem read_descriptor {p k : Nat} {d : NoaSlot} {rest : List UInt8} (hd : d.Proper)
    (h : attr.read p k = d.bytes ++ rest) :
    (⟨attr p, attr.read (p + 1) 4, attr.read (p + 5) 4, attr.read (p + 9) 4⟩ : NoaSlot) = d
      ∧ attr.read (p + 13) rest.length = rest := by
  obtain ⟨hdur, hint, hstart⟩ := hd
  have hpieces : attr.read p k
      = [d.count] ++ (d.duration ++ (d.interval ++ (d.startTime ++ rest))) := by
    rw [h]
    simp [NoaSlot.bytes]
  have hk : k = 1 + (4 + (4 + (4 + rest.length))) := by
    have hlen := congrArg List.length hpieces
    simp only [Mem.length_read, List.length_append, List.length_singleton] at hlen
    omega
  rw [hk, Mem.read_add, Mem.read_add, Mem.read_add, Mem.read_add] at hpieces
  obtain ⟨h1, hpieces⟩ := List.append_inj hpieces (Mem.length_read attr _ _)
  obtain ⟨h2, hpieces⟩ := List.append_inj hpieces ((Mem.length_read attr _ _).trans hdur.symm)
  obtain ⟨h3, hpieces⟩ := List.append_inj hpieces ((Mem.length_read attr _ _).trans hint.symm)
  obtain ⟨h4, hpieces⟩ := List.append_inj hpieces ((Mem.length_read attr _ _).trans hstart.symm)
  have hcount : attr p = d.count := (List.cons.inj h1).1
  refine ⟨?_, hpieces⟩
  rw [hcount, h2, h3, h4]

/-- **Complete descriptors are stored**, one behind the other, and nothing else is changed. -/
theorem noaLoop_stores {ds : List NoaSlot} : ∀ {free k p : Nat} {s : NoaScan} {rest : List UInt8},
    s.At k → ds.length ≤ free → k + free = maxNoaNum → (∀ d ∈ ds, d.Proper) →
    attr.read (2 + 13 * k) p = ds.flatMap NoaSlot.bytes ++ rest → n = 2 + 13 * (k + ds.length) →
    ∃ s', noaLoop attr n free s = some s' ∧ s'.num.toNat = k + ds.length
      ∧ ∀ i, s'.noa i = if i < k then s.noa i else (ds[i - k]?).getD (s.noa i) := by
  induction ds with
  | nil =>
      intro free k p s rest h _ _ _ _ hn
      have hend : ¬ s.offset.toNat < n := by
        rw [h.offset, hn, List.length_nil]
        omega
      refine ⟨s, ?_, h.num, fun i => by simp⟩
      cases free with
      | zero => rw [noaLoop, if_neg hend]
      | succ free => rw [noaLoop, if_neg hend]
  | cons d ds ih =>
      intro free k p s rest h hfit hfree hall hread hn
      rw [List.length_cons] at hfit hn
      cases free with
      | zero => omega
      | succ free =>
        have hk : k < 18 := by
          unfold maxNoaNum at hfree
          omega
        -- the offset stays below 256, so that none of the reads wraps
        obtain ⟨h1, h5, h9⟩ := h.offsets (by omega)
        rw [List.flatMap_cons, List.append_assoc] at hread
        obtain ⟨hd, hrest⟩ := read_descriptor (hall d (List.mem_cons_self ..)) hread
        have hlt : s.offset.toNat < n := by
          rw [h.offset]
          omega
        have hat : (s.take attr n).At (k + 1) := h.take hk
        -- a turn stores this descriptor in its slot
        have hslot : (s.take attr n).noa = Function.update s.noa k d := by
          unfold NoaScan.take
          dsimp only
          rw [h1, h5, h9, h.num, h.offset, ← hd]
          congr 2
          · congr 1
            omega
          · congr 1
            omega
          · congr 1
            omega
        have hbehind : 2 + 13 * k + 13 = 2 + 13 * (k + 1) := by omega
        rw [hbehind] at hrest
        obtain ⟨s', hs', hnum, hnoa⟩ := @ih free (k + 1) _ _ _ hat (by omega) (by omega)
          (fun x hx => hall x (List.mem_cons_of_mem _ hx)) hrest (by omega)
        refine ⟨s', by rw [noaLoop, if_pos hlt, hs'], by rw [hnum, List.length_cons]; omega, fun i => ?_⟩
        rw [hnoa i, hslot]
        -- a slot before, this one, and one behind it
        rcases Nat.lt_trichotomy i k with hlt' | rfl | hgt
        · rw [if_pos (by omega), if_pos hlt', Function.update_of_ne (by omega)]
        · rw [if_pos (Nat.lt_succ_self _), if_neg (Nat.lt_irrefl _), Function.update_self, Nat.sub_self]
          rfl
        · have hsub : i - k = (i - (k + 1)) + 1 := by omega
          rw [if_neg (by omega), if_neg (by omega), Function.update_of_ne (by omega), hsub,
            List.getElem?_cons_succ]

end

/-! ## The content -/

section

variable {attr : Mem} {n : Nat} {fw : Bool} {w : PsInfo} {used : List Access}

/-- Where the loop begins. -/
def noaStart (n : Nat) (w : PsInfo) (used : List Access) : NoaScan :=
  ⟨2, 0, w.noa, used ++ [⟨0, 1, n⟩] ++ [⟨1, 1, n⟩]⟩

theorem noaStart_at : (noaStart n w used).At 0 := ⟨rfl, rfl⟩

/-- The settings that do not depend on the descriptors. -/
def withHeader (w : PsInfo) (attr : Mem) : PsInfo :=
  { w with noaIndex := attr 0, oppPs := attr 1 >>> 7, ctwindow := attr 1 &&& 0x7f }

theorem noaContent_renewed (h : Renews w (attr 0)) : noaContent attr n fw w used =
    (noaLoop attr n maxNoaNum (noaStart n w used)).map (NoaScan.configure fw (withHeader w attr)) := by
  have hloop : (if 2 < n then noaLoop attr n maxNoaNum (noaStart n w used)
      else some (noaStart n w used)) = noaLoop attr n maxNoaNum (noaStart n w used) := by
    split
    · rfl
    · rename_i hn
      have hend : ¬ (noaStart n w used).offset.toNat < n := hn
      unfold maxNoaNum
      rw [noaLoop, if_neg hend]
  unfold noaContent
  dsimp only
  rw [if_pos h, ← hloop]
  rfl

theorem noaContent_kept (h : ¬ Renews w (attr 0)) :
    noaContent attr n fw w used = some ⟨w, [], used ++ [⟨0, 1, n⟩]⟩ := by
  unfold noaContent
  dsimp only
  rw [if_neg h]

theorem noaContent_used {r : PsRun} (h : noaContent attr n fw w used = some r) :
    ∀ a ∈ used, a ∈ r.used := by
  intro a ha
  by_cases hr : Renews w (attr 0)
  · rw [noaContent_renewed hr] at h
    obtain ⟨s, hs, rfl⟩ := Option.map_eq_some_iff.mp h
    exact noaLoop_used hs a (List.mem_append_left _ (List.mem_append_left _ ha))
  · rw [noaContent_kept hr] at h
    cases h
    exact List.mem_append_left _ ha

/-- **The content is used as it is** exactly when it has an index, and to be configured from it as many
complete descriptors as there are entries, or less. -/
theorem noaContent_ok_iff (hused : Access.AllOk used) :
    (∃ r, noaContent attr n fw w used = some r ∧ Access.AllOk r.used)
      ↔ if Renews w (attr 0) then ∃ k ≤ maxNoaNum, n = 2 + 13 * k else 0 < n := by
  have hstart : Access.AllOk (noaStart n w used).used ↔ 2 ≤ n := by
    unfold noaStart
    dsimp only
    rw [Access.allOk_append, Access.allOk_append, Access.allOk_singleton, Access.allOk_singleton]
    constructor
    · rintro ⟨-, h⟩
      exact h
    · intro h
      exact ⟨⟨hused, Nat.le_of_succ_le h⟩, h⟩
  by_cases hr : Renews w (attr 0)
  · rw [if_pos hr, noaContent_renewed hr]
    have hmap : (∃ r, (noaLoop attr n maxNoaNum (noaStart n w used)).map
          (NoaScan.configure fw (withHeader w attr)) = some r ∧ Access.AllOk r.used)
        ↔ ∃ s, noaLoop attr n maxNoaNum (noaStart n w used) = some s ∧ Access.AllOk s.used := by
      constructor
      · rintro ⟨r, hr, hok⟩
        obtain ⟨s, hs, rfl⟩ := Option.map_eq_some_iff.mp hr
        exact ⟨s, hs, hok⟩
      · rintro ⟨s, hs, hok⟩
        exact ⟨_, by rw [hs]; rfl, hok⟩
    rw [hmap]
    by_cases hn : 2 ≤ n
    · rw [noaLoop_ok_iff noaStart_at (Nat.zero_add _) hn (hstart.mpr hn)]
      simp only [Nat.zero_add]
    · refine iff_of_false ?_ ?_
      · rintro ⟨s, hs, hok⟩
        exact hn (hstart.mp (hok.mono (noaLoop_used hs)))
      · rintro ⟨k, -, hk⟩
        omega
  · rw [if_neg hr, noaContent_kept hr]
    constructor
    · rintro ⟨r, hr, hok⟩
      cases hr
      have hindex := hok ⟨0, 1, n⟩ (List.mem_append_right _ (List.mem_singleton.mpr rfl))
      exact hindex
    · intro hn
      refine ⟨_, rfl, ?_⟩
      rw [Access.allOk_append, Access.allOk_singleton]
      exact ⟨hused, hn⟩

end

/-! ## The search -/

section

variable {m : Mem} {iesLen : Nat}

theorem attrWalk_found {a : Ies.AttrLayout} {target stop fuel : Nat} :
    ∀ {ptr p l : Nat}, attrWalk a m target stop fuel ptr = .found p l → ptr ≤ p ∧ p < stop := by
  induction fuel with
  | zero => intro ptr p l h; cases h
  | succ fuel ih =>
      intro ptr p l h
      rw [attrWalk] at h
      split at h
      case isFalse => cases h
      case isTrue hlt =>
        split at h
        · cases h
          exact ⟨Nat.le_refl _, hlt⟩
        · split at h
          · cases h
          · have hrest := ih h
            omega

/-- An attribute is behind the OUI of its element. -/
theorem rtwGetP2pAttr_found {p2pIe p2pIelen target ptr len : Nat}
    (h : rtwGetP2pAttr m p2pIe p2pIelen target = .found ptr len) :
    p2pIe + 6 ≤ ptr ∧ ptr < p2pIe + p2pIelen := by
  unfold rtwGetP2pAttr attrOf at h
  split at h
  · exact attrWalk_found h
  · cases h

theorem findIe_found {oui : List UInt8} {start inLen limit : Nat} {ie : Nat × Nat} {fuel : Nat} :
    ∀ {cnt : Nat}, findIe m oui start inLen limit fuel cnt = some ie →
    start ≤ ie.1 ∧ ie.1 < start + inLen ∧ 2 ≤ ie.2 ∧ ie.2 ≤ 257 := by
  induction fuel with
  | zero => intro cnt h; cases h
  | succ fuel ih =>
      intro cnt h
      rw [findIe] at h
      split at h
      case isFalse => cases h
      case isTrue hin =>
        split at h
        · cases h
          have hbyte := (m (start + cnt + 1)).toNat_lt
          exact ⟨Nat.le_add_right _ _, by omega, by omega, by omega⟩
        · exact ih h

theorem nextP2pIe_found {ie ie' : Nat × Nat} (h : nextP2pIe m iesLen ie = some ie') :
    ie.1 + ie.2 ≤ ie'.1 ∧ ie'.1 < iesLen ∧ 2 ≤ ie'.2 ∧ ie'.2 ≤ 257 := by
  obtain ⟨hle, hlt, h2, h257⟩ := findIe_found h
  exact ⟨hle, by omega, h2, h257⟩

/-- What is found lies behind the OUI of an element, which has at most 257 bytes. -/
theorem noaSearch_found {fuel : Nat} {ie : Nat × Nat} {ptr len : Nat} : ∀ {o : Option (Nat × Nat)},
    (∀ ie, o = some ie → ie.2 ≤ 257) → noaSearch m iesLen fuel o = .found ie ptr len →
    ie.1 + 6 ≤ ptr ∧ ie.2 ≤ 257 := by
  induction fuel with
  | zero => intro o _ h; cases h
  | succ fuel ih =>
      intro o ho h
      cases o with
      | none => cases h
      | some ie₀ =>
          have hnext : ∀ ie', nextP2pIe m iesLen ie₀ = some ie' → ie'.2 ≤ 257 :=
            fun ie' hie => (nextP2pIe_found hie).2.2.2
          rw [noaSearch] at h
          cases hs : rtwGetP2pAttr m ie₀.1 ie₀.2 attrNoa with
          | missing =>
              rw [hs] at h
              exact ih hnext h
          | hangs =>
              rw [hs] at h
              cases h
          | found p l =>
              rw [hs] at h
              dsimp only at h
              split at h
              · exact ih hnext h
              · cases h
                exact ⟨(rtwGetP2pAttr_found hs).1, ho _ rfl⟩

theorem beaconNoa_found {ie : Nat × Nat} {ptr len : Nat} (h : beaconNoa m iesLen = .found ie ptr len) :
    ie.1 + 6 ≤ ptr ∧ ie.2 ≤ 257 :=
  noaSearch_found (fun _ hie => (findIe_found hie).2.2.2) h

end

/-! ## The function -/

section

variable {m : Mem} {ieLength : Nat} {port0 fw : Bool} {w : PsInfo}

/-- The elements are looked at. -/
def Looks (ieLength : Nat) (port0 : Bool) (w : PsInfo) : Prop :=
  w.state ≠ .none ∧ port0 = true ∧ beaconIeOffset < ieLength

/-- **It ends, and what it uses is there**: the copy fits `noa_attr` and reads the element, the content is
used below its length, and the arrays below their size. -/
def NoaSafe (m : Mem) (ieLength : Nat) (port0 fw : Bool) (w : PsInfo) : Prop :=
  ∃ r, processP2pPsIe m ieLength port0 fw w = some r ∧ Access.AllOk r.used

/-- **Complete descriptors are stored.** Of a content that is an index, another byte and at most as many
descriptors as there are entries, these are stored in their order where the index has changed, the rest of
the arrays stays, and `noa_num` is their number. -/
def NoaExact (m : Mem) (ieLength : Nat) (port0 fw : Bool) (w : PsInfo) : Prop :=
  ∀ ie ptr len index ctw (ds : List NoaSlot), Looks ieLength port0 w →
    beaconNoa m (ieLength - beaconIeOffset) = .found ie ptr len →
    m.read (ptr + 3) (contentLen 3 len) = index :: ctw :: ds.flatMap NoaSlot.bytes →
    ds.length ≤ maxNoaNum → (∀ d ∈ ds, d.Proper) → Renews w index →
    ∃ r, processP2pPsIe m ieLength port0 fw w = some r
      ∧ r.info.noaIndex = index ∧ r.info.oppPs = ctw >>> 7 ∧ r.info.ctwindow = ctw &&& 0x7f
      ∧ r.info.noaNum.toNat = ds.length
      ∧ ∀ i, r.info.noa i = (ds[i]?).getD (w.noa i)

/-- No search for the attribute meets one without any length, and the one that is found ends inside its
element; to be configured from it, it has the length of complete descriptors, no more than there are
entries, otherwise at least an index. -/
def NoaFits (m : Mem) (ieLength : Nat) (port0 : Bool) (w : PsInfo) : Prop :=
  Looks ieLength port0 w →
    match beaconNoa m (ieLength - beaconIeOffset) with
    | .missing => True
    | .hangs => False
    | .found ie ptr len =>
      ptr + 3 + contentLen 3 len ≤ ie.1 + ie.2
        ∧ if Renews w (m (ptr + 3)) then ∃ k ≤ maxNoaNum, contentLen 3 len = 2 + 13 * k
          else 0 < contentLen 3 len

theorem processP2pPsIe_off (h : ¬ Looks ieLength port0 w) :
    processP2pPsIe m ieLength port0 fw w = some ⟨w, [], []⟩ := by
  unfold processP2pPsIe
  refine if_pos ?_
  by_contra hno
  rw [not_or, not_or, Bool.not_eq_false, Nat.not_le] at hno
  exact h hno

theorem processP2pPsIe_on (h : Looks ieLength port0 w) : processP2pPsIe m ieLength port0 fw w =
    match beaconNoa m (ieLength - beaconIeOffset) with
    | .hangs => none
    | .missing =>
      some ⟨w, if (rtwGetP2pIe m 0 (intLength (ieLength - beaconIeOffset))).isSome = true
        ∧ w.psMode ≠ .none then [.disable] else [], []⟩
    | .found ie ptr len =>
      if contentLen 3 len ≤ maxP2pIeLen then
        noaContent (bufWith (fun _ => 0) (m.read (ptr + 3) (contentLen 3 len))) (contentLen 3 len) fw w
          [⟨ptr + 3, contentLen 3 len, ie.1 + ie.2⟩, ⟨0, contentLen 3 len, maxP2pIeLen⟩]
      else none := by
  have hon : ¬ (w.state = .none ∨ port0 = false ∨ ieLength ≤ beaconIeOffset) := by
    rintro (hs | hp | hl)
    · exact h.1 hs
    · exact absurd (h.2.1.symm.trans hp) (by decide)
    · exact absurd h.2.2 (Nat.not_lt.mpr hl)
  unfold processP2pPsIe
  exact if_neg hon

/-- The buffer holds what was copied. -/
theorem read_bufWith (bs : List UInt8) : (bufWith (fun _ => 0) bs).read 0 bs.length = bs :=
  Mem.read_write_self _ 0 bs

theorem bufWith_zero {a n : Nat} (h : 0 < n) : bufWith (fun _ => 0) (m.read a n) 0 = m a := by
  have hlen : 0 < (m.read a n).length := by
    rw [Mem.length_read]
    exact h
  have hget := @Mem.write_inside (fun _ => 0) 0 0 (m.read a n) hlen
  have hfirst := Mem.getElem?_read m (a := a) h
  rw [List.getElem?_eq_getElem hlen] at hfirst
  exact hget.trans (Option.some.inj hfirst)

theorem noaSafe_iff : NoaSafe m ieLength port0 fw w ↔ NoaFits m ieLength port0 w := by
  unfold NoaSafe NoaFits
  by_cases hlooks : Looks ieLength port0 w
  · rw [processP2pPsIe_on hlooks]
    cases hs : beaconNoa m (ieLength - beaconIeOffset) with
    | missing => exact iff_of_true ⟨_, rfl, nofun⟩ fun _ => trivial
    | hangs =>
        -- a search that hangs returns nothing
        refine iff_of_false ?_ fun h => h hlooks
        rintro ⟨r, hr, -⟩
        cases hr
    | found ie ptr len =>
        obtain ⟨hptr, hie⟩ := beaconNoa_found hs
        dsimp only
        -- both accesses: the copy out of the element, and into the buffer
        generalize contentLen 3 len = n
        by_cases hin : ptr + 3 + n ≤ ie.1 + ie.2
        · have hcap : n ≤ maxP2pIeLen := by
            unfold maxP2pIeLen
            omega
          have hused : Access.AllOk [⟨ptr + 3, n, ie.1 + ie.2⟩, ⟨0, n, maxP2pIeLen⟩] := by
            rw [Access.allOk_cons, Access.allOk_singleton, Nat.zero_add]
            exact ⟨hin, hcap⟩
          rw [if_pos hcap, noaContent_ok_iff hused]
          by_cases hn : 0 < n
          · rw [bufWith_zero hn]
            exact ⟨fun h _ => ⟨hin, h⟩, fun h => (h hlooks).2⟩
          · -- without an index nothing is right
            have hnone : ¬ ∃ k ≤ maxNoaNum, n = 2 + 13 * k := by
              rintro ⟨k, -, hk⟩
              omega
            refine iff_of_false ?_ ?_
            · split
              · exact hnone
              · exact hn
            · intro h
              have hr := (h hlooks).2
              split at hr
              · exact hnone hr
              · exact hn hr
        -- the content ends behind its element
        · refine iff_of_false ?_ fun h => hin (h hlooks).1
          rintro ⟨r, hr, hok⟩
          split at hr
          case isFalse => cases hr
          case isTrue =>
            exact hin (hok _ (noaContent_used hr _ (List.mem_cons_self ..)))
  · rw [processP2pPsIe_off hlooks]
    exact iff_of_true ⟨_, rfl, nofun⟩ fun h => absurd h hlooks

theorem length_descriptors {ds : List NoaSlot} (h : ∀ d ∈ ds, d.Proper) :
    (ds.flatMap NoaSlot.bytes).length = 13 * ds.length := by
  induction ds with
  | nil => rfl
  | cons d ds ih =>
      obtain ⟨hdur, hint, hstart⟩ := h d (List.mem_cons_self ..)
      have hd : d.bytes.length = 13 := by
        simp [NoaSlot.bytes, hdur, hint, hstart]
      rw [List.flatMap_cons, List.length_append, hd, ih fun x hx => h x (List.mem_cons_of_mem _ hx),
        List.length_cons]
      omega

/-- Power save is set up from the settings and changes none of them. -/
theorem configure_info (v : PsInfo) (s : NoaScan) : (s.configure fw v).info.noa = s.noa
    ∧ (s.configure fw v).info.noaNum = s.num ∧ (s.configure fw v).info.noaIndex = v.noaIndex
    ∧ (s.configure fw v).info.oppPs = v.oppPs ∧ (s.configure fw v).info.ctwindow = v.ctwindow := by
  unfold NoaScan.configure psCommand
  dsimp only
  split
  · exact ⟨rfl, rfl, rfl, rfl, rfl⟩
  · split
    · exact ⟨rfl, rfl, rfl, rfl, rfl⟩
    · exact ⟨rfl, rfl, rfl, rfl, rfl⟩

theorem noaExact (m : Mem) (ieLength : Nat) (port0 fw : Bool) (w : PsInfo) :
    NoaExact m ieLength port0 fw w := by
  intro ie ptr len index ctw ds hlooks hs hread hfit hall hrenew
  have hn : contentLen 3 len = 2 + 13 * ds.length := by
    have hlen := congrArg List.length hread
    rw [Mem.length_read, List.length_cons, List.length_cons, length_descriptors hall] at hlen
    omega
  have hcap : contentLen 3 len ≤ maxP2pIeLen := by
    unfold maxP2pIeLen
    unfold maxNoaNum at hfit
    omega
  rw [processP2pPsIe_on hlooks, hs]
  dsimp only
  rw [if_pos hcap]
  generalize hattr : bufWith (fun _ => 0) (m.read (ptr + 3) (contentLen 3 len)) = attr
  have hcontent : attr.read 0 (contentLen 3 len) = [index, ctw] ++ ds.flatMap NoaSlot.bytes := by
    have hbuf := read_bufWith (m.read (ptr + 3) (contentLen 3 len))
    rw [Mem.length_read, hattr] at hbuf
    rw [hbuf, hread]
    rfl
  rw [hn, Mem.read_add] at hcontent
  obtain ⟨hhead, hdescs⟩ := List.append_inj hcontent (Mem.length_read attr _ _)
  have htwo : [attr 0, attr 1] = [index, ctw] := hhead
  obtain ⟨h0, h1⟩ := List.cons.inj htwo
  have hctw : attr 1 = ctw := (List.cons.inj h1).1
  rw [← List.append_nil (ds.flatMap _)] at hdescs
  obtain ⟨s, hloop, hnum, hnoa⟩ := noaLoop_stores (n := contentLen 3 len) (k := 0)
    noaStart_at hfit (Nat.zero_add _) hall hdescs (by omega)
  rw [noaContent_renewed (h0.symm ▸ hrenew), hloop]
  obtain ⟨hcnoa, hcnum, hcindex, hcopp, hcctw⟩ := @configure_info fw (withHeader w attr) s
  refine ⟨s.configure fw (withHeader w attr), rfl, hcindex.trans h0, ?_, ?_, ?_, fun i => ?_⟩
  · rw [hcopp, ← hctw]
    rfl
  · rw [hcctw, ← hctw]
    rfl
  · rw [hcnum, hnum, Nat.zero_add]
  · rw [hcnoa, hnoa i, if_neg (Nat.not_lt_zero i), Nat.sub_zero]
    rfl

end

/-- **Decoding is safe and exact** exactly when no search meets an attribute without any length and the
one that is found has, inside its element, what the fields are configured from. -/
theorem noa_decoding_iff (m : Mem) (ieLength : Nat) (port0 fw : Bool) (w : PsInfo) :
    NoaSafe m ieLength port0 fw w ∧ NoaExact m ieLength port0 fw w ↔ NoaFits m ieLength port0 w := by
  rw [noaSafe_iff]
  exact and_iff_left (noaExact m ieLength port0 fw w)

/-- A device that listens, with power save not set up yet. -/
def listeningInfo : PsInfo where
  state := .listen
  psMode := .none
  noaIndex := 0
  ctwindow := 0
  oppPs := 0
  noaNum := 0
  noa := fun _ => ⟨0, [], [], []⟩

/-- A P2P element whose NoA attribute has three descriptors. -/
def threeDescriptors : Mem := fun k =>
  (([221, 48, 0x50, 0x6f, 0x9a, 0x09, 12, 41, 0] : List UInt8) ++ List.replicate 41 1).getD k 0

/-- **The third descriptor is written behind the arrays.** -/
theorem noa_decoding_overruns : ¬ NoaSafe threeDescriptors 62 true false listeningInfo := by
  have hnone : (processP2pPsIe threeDescriptors 62 true false listeningInfo).isSome = false := by
    decide
  rintro ⟨r, hr, -⟩
  rw [hr] at hnone
  cases hnone

end Rtl8812au.P2p
