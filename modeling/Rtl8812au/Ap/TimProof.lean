import Rtl8812au.Ap.Beacon
import Mathlib.Data.List.TakeWhile
import Mathlib.Tactic.IntervalCases

/-!
# What the beacon's TIM element says

A template is twelve fixed bytes and a list of elements. `update_BCNTIM` splits that list in
three (`before`, `old`, `after`), puts a new TIM element where `old` was and moves `after`
behind it. The result is read back twice: as a list of elements, which its bytes determine,
and as a set of AIDs by the rule of the standard.
-/

namespace Rtl8812au

/-! ## Templates -/

/-- A beacon template: SSID, Supported Rates and DS Parameter Set come first, and a TIM
element may follow. -/
structure BeaconTemplate where
  fixed : List UInt8
  ssid : Tlv
  rates : Tlv
  dsset : Tlv
  rest : List Tlv
  fixed_length : fixed.length = fixedIeLength
  ssid_id : ssid.id = ssidIe
  rates_id : rates.id = supportedratesIe
  dsset_id : dsset.id = dssetIe
  dsset_length : dsset.body.length = 1
  one_tim : (rest.filter (·.id = timIe)).length ≤ 1

namespace BeaconTemplate

variable (t : BeaconTemplate)

def head : List Tlv := [t.ssid, t.rates, t.dsset]

def elems : List Tlv := t.head ++ t.rest

/-- What stands before the place of the TIM element, the old TIM element if there is one,
and what stands behind it. -/
def before : List Tlv :=
  if t.rest.any (·.id = timIe) then t.head ++ t.rest.takeWhile (·.id ≠ timIe) else t.head

def old : List Tlv :=
  if t.rest.any (·.id = timIe) then (t.rest.dropWhile (·.id ≠ timIe)).take 1 else []

def after : List Tlv :=
  if t.rest.any (·.id = timIe) then (t.rest.dropWhile (·.id ≠ timIe)).drop 1 else t.rest

end BeaconTemplate

/-- The template `t` is what the buffer holds. -/
structure Stores (b : BssidEx) (fixed : List UInt8) (es : List Tlv) : Prop where
  length_eq : b.ieLength = fixedIeLength + Tlv.total es
  fits : b.ieLength ≤ maxIeSz
  fixed_eq : b.ies.read 0 fixedIeLength = fixed
  holds : Holds b.ies fixedIeLength es

/-- The AID rule of the standard over the body of a TIM element: octet 2 is the bitmap
control with the offset in its upper seven bits, the partial virtual bitmap follows. -/
def aidIndicated (body : List UInt8) (n : Nat) : Bool :=
  let n1 := 2 * ((body.getD 2 0).toNat / 2)
  decide (n1 ≤ n / 8) && ((body.drop 3).getD (n / 8 - n1) 0).toBitVec.getLsbD (n % 8)

/-- **What the beacon should say**: the elements of the template are there unchanged and in
order, with one TIM element that indicates the AIDs of `tim`. -/
def SaysTim (t : BeaconTemplate) (tim : BitVec 16) (r : Outcome BssidEx) : Prop :=
  ∃ b es e, r = .done b ∧ Stores b t.fixed es ∧
    es.filter (·.id ≠ timIe) = t.elems.filter (·.id ≠ timIe) ∧
    es.filter (·.id = timIe) = [e] ∧
    ∀ n, 1 ≤ n → n ≤ 15 → aidIndicated e.body n = tim.getLsbD n

/-! ## The element -/

theorem timIelen_cases (tim : BitVec 16) : timIelen tim = 5 ∨ timIelen tim = 4 := by
  unfold timIelen
  split
  · exact Or.inl rfl
  · exact Or.inr rfl

theorem length_timBody (tim : BitVec 16) : (timBody tim).length = timIelen tim := by
  rcases timIelen_cases tim with h | h <;> simp [timBody, h]

theorem timIelen_lt (tim : BitVec 16) : timIelen tim < 256 := by
  rcases timIelen_cases tim with h | h <;> omega

/-- The element that is written. -/
def timTlv (tim : BitVec 16) : Tlv :=
  ⟨timIe, timBody tim, (length_timBody tim).symm ▸ timIelen_lt tim⟩

theorem timElement_eq (tim : BitVec 16) : timElement tim = (timTlv tim).bytes := by
  rw [timElement, ← length_timBody]
  rfl

theorem length_timElement (tim : BitVec 16) : (timElement tim).length = (timTlv tim).size := by
  rw [timElement_eq, Tlv.length_bytes]

theorem drop_timBody (tim : BitVec 16) :
    (timBody tim).drop 3 = if timIelen tim = 4 then [timPvb tim] else [timLow tim, timHigh tim] :=
  rfl

/-- The bitmap control field never carries an offset. -/
theorem aidIndicated_timBody (tim : BitVec 16) (n : Nat) :
    aidIndicated (timBody tim) n =
      (((timBody tim).drop 3).getD (n / 8) 0).toBitVec.getLsbD (n % 8) := by
  unfold timBody
  split
  · simp [aidIndicated]
  · simp [aidIndicated]

/-- No AID above 7 is marked, or one in `1 .. 7` is. -/
def LowMarked (tim : BitVec 16) : Prop := tim &&& 0xff00#16 = 0 ∨ tim &&& 0x00fe#16 ≠ 0

instance (tim : BitVec 16) : Decidable (LowMarked tim) :=
  inferInstanceAs (Decidable (_ ∨ _))

theorem getLsbD_timLow (tim : BitVec 16) {k : Nat} (h : k < 8) :
    (timLow tim).toBitVec.getLsbD k = tim.getLsbD k := by
  simp [timLow, h]

theorem getLsbD_timHigh (tim : BitVec 16) {k : Nat} (h : k < 8) :
    (timHigh tim).toBitVec.getLsbD k = tim.getLsbD (8 + k) := by
  simp [timHigh, h]

/-- The upper octet is zero when its mask is. -/
theorem getLsbD_high {tim : BitVec 16} (h : tim &&& 0xff00#16 = 0) {n : Nat} (h8 : 8 ≤ n)
    (hn : n ≤ 15) : tim.getLsbD n = false := by
  have hmask : (tim &&& 0xff00#16).getLsbD n = false := by rw [h]; simp
  have hbit : (0xff00#16).getLsbD n = true := by
    interval_cases n <;> rfl
  simpa [BitVec.getLsbD_and, hbit] using hmask

/-- An octet that is not zero above its lowest bit has one of these bits set. -/
theorem exists_getLsbD {tim mask : BitVec 16} (h : tim &&& mask ≠ 0) :
    ∃ n, n < 16 ∧ tim.getLsbD n = true ∧ mask.getLsbD n = true := by
  by_contra hno
  refine h (BitVec.eq_of_getLsbD_eq fun n hn => ?_)
  have hand : ¬ (tim.getLsbD n = true ∧ mask.getLsbD n = true) := fun hb => hno ⟨n, hn, hb⟩
  simpa [BitVec.getLsbD_and] using hand

/-- **The map is right exactly when an octet is not sent in place of another.** -/
theorem aidIndicated_iff (tim : BitVec 16) :
    (∀ n, 1 ≤ n → n ≤ 15 → aidIndicated (timBody tim) n = tim.getLsbD n) ↔ LowMarked tim := by
  constructor
  · intro h
    by_contra hlow
    obtain ⟨hhigh, hzero⟩ := not_or.mp hlow
    -- a marked AID of the upper octet would have to be in an octet that was not sent
    obtain ⟨n, hn, hset, hmask⟩ := exists_getLsbD hhigh
    have h8 : 8 ≤ n := by
      by_contra hlt
      have : (0xff00#16).getLsbD n = false := by
        interval_cases n <;> rfl
      rw [hmask] at this
      cases this
    have hind := h n (by omega) (by omega)
    rw [aidIndicated_timBody, hset] at hind
    have hone : (timBody tim).drop 3 = [timPvb tim] := by
      have : timIelen tim = 4 := if_neg fun hc => hzero hc.2
      rw [drop_timBody, if_pos this]
    have hoct : n / 8 = 1 := by omega
    rw [hone, hoct] at hind
    simp at hind
  · intro hlow n h1 h15
    rw [aidIndicated_timBody, drop_timBody]
    by_cases hlt : n < 8
    · -- octet 0 is the lower one in every layout that is left
      have h0 : n / 8 = 0 := by omega
      have hmod : n % 8 = n := Nat.mod_eq_of_lt hlt
      have hpvb : timPvb tim = timLow tim := by
        unfold timPvb
        rcases hlow with hh | hl
        · simp [hh]
        · rw [if_pos hl]
      rw [h0, hmod]
      split
      · simp [hpvb, getLsbD_timLow tim hlt]
      · simp [getLsbD_timLow tim hlt]
    · have h1' : n / 8 = 1 := by omega
      have hmod : 8 + n % 8 = n := by omega
      rw [h1']
      split
      · rename_i h4
        -- one octet: the upper one is zero, or the lower mask would have to be
        have hhigh : tim &&& 0xff00#16 = 0 := by
          by_contra hh
          have hl : tim &&& 0x00fe#16 ≠ 0 := hlow.resolve_left hh
          rw [timIelen, if_pos ⟨hh, hl⟩] at h4
          cases h4
        rw [getLsbD_high hhigh (by omega) h15]
        simp
      · have := getLsbD_timHigh tim (Nat.mod_lt n (by omega : 0 < 8))
        rw [hmod] at this
        simpa using this

/-! ## Where it goes -/

/-- No element of the list is a TIM element. -/
def NoTim (es : List Tlv) : Prop := ∀ e ∈ es, e.id ≠ timIe

theorem NoTim.filter_ne {es : List Tlv} (h : NoTim es) : es.filter (·.id ≠ timIe) = es := by
  simpa [List.filter_eq_self, NoTim] using h

theorem NoTim.filter_eq {es : List Tlv} (h : NoTim es) : es.filter (·.id = timIe) = [] := by
  simpa [List.filter_eq_nil_iff, NoTim] using h

theorem noTim_of_filter_eq {es : List Tlv} (h : es.filter (·.id = timIe) = []) : NoTim es := by
  simpa [NoTim, List.filter_eq_nil_iff] using h

theorem NoTim.append {xs ys : List Tlv} (hx : NoTim xs) (hy : NoTim ys) : NoTim (xs ++ ys) := by
  intro e he
  rcases List.mem_append.mp he with h | h
  · exact hx e h
  · exact hy e h

namespace BeaconTemplate

variable (t : BeaconTemplate)

theorem noTim_head : NoTim t.head := by
  simp only [NoTim, head, List.forall_mem_cons, t.ssid_id, t.rates_id, t.dsset_id]
  exact ⟨by decide, by decide, by decide, by simp⟩

theorem total_head : Tlv.total t.head = t.ssid.size + (t.rates.size + 3) := by
  simp [head, Tlv.size, t.dsset_length]

/-- **The three parts of a template**: without a TIM element the new one goes behind the
head; otherwise there is one, and it is replaced. -/
theorem parts : (NoTim t.rest ∧ t.before = t.head ∧ t.old = [] ∧ t.after = t.rest) ∨
    ∃ xs e ys, t.rest = xs ++ e :: ys ∧ NoTim xs ∧ e.id = timIe ∧ NoTim ys ∧
      t.before = t.head ++ xs ∧ t.old = [e] ∧ t.after = ys := by
  by_cases hany : t.rest.any (·.id = timIe) = true
  · right
    obtain ⟨e, hmem, hid⟩ := List.any_eq_true.mp hany
    have hne : t.rest.dropWhile (·.id ≠ timIe) ≠ [] := by
      intro hnil
      have := List.dropWhile_eq_nil_iff.mp hnil e hmem
      simp_all
    obtain ⟨e', ys, hdrop⟩ := List.exists_cons_of_ne_nil hne
    have hrest : t.rest = t.rest.takeWhile (·.id ≠ timIe) ++ e' :: ys := by
      rw [← hdrop, List.takeWhile_append_dropWhile]
    have hxs : NoTim (t.rest.takeWhile (·.id ≠ timIe)) := by
      intro x hx
      simpa using List.mem_takeWhile_imp hx
    have he' : e'.id = timIe := by
      have := List.head?_dropWhile_not (fun x : Tlv => decide (x.id ≠ timIe)) t.rest
      rw [hdrop] at this
      simpa using this
    have hys : NoTim ys := by
      have hone := t.one_tim
      rw [hrest, List.filter_append, hxs.filter_eq, List.nil_append, List.filter_cons_of_pos
        (by simp [he']), List.length_cons] at hone
      exact noTim_of_filter_eq (List.length_eq_zero_iff.mp (by omega))
    exact ⟨_, e', ys, hrest, hxs, he', hys, if_pos hany, by rw [old, if_pos hany, hdrop]; rfl,
      by rw [after, if_pos hany, hdrop]; rfl⟩
  · left
    refine ⟨?_, if_neg hany, if_neg hany, if_neg hany⟩
    intro e he hid
    exact hany (List.any_eq_true.mpr ⟨e, he, by simpa using hid⟩)

theorem elems_eq : t.elems = t.before ++ (t.old ++ t.after) := by
  rcases t.parts with ⟨-, hb, ho, ha⟩ | ⟨xs, e, ys, hrest, -, -, -, hb, ho, ha⟩
  · rw [hb, ho, ha]
    rfl
  · rw [hb, ho, ha, elems, hrest, List.append_assoc]
    rfl

theorem noTim_before : NoTim t.before := by
  rcases t.parts with ⟨-, hb, -, -⟩ | ⟨xs, e, ys, -, hxs, -, -, hb, -, -⟩
  · rw [hb]
    exact t.noTim_head
  · rw [hb]
    exact t.noTim_head.append hxs

theorem noTim_after : NoTim t.after := by
  rcases t.parts with ⟨h, -, -, ha⟩ | ⟨xs, e, ys, -, -, -, hys, -, -, ha⟩
  · rw [ha]
    exact h
  · rw [ha]
    exact hys

/-- The elements that have to stay. -/
theorem filter_elems : t.elems.filter (·.id ≠ timIe) = t.before ++ t.after := by
  have hold : t.old.filter (·.id ≠ timIe) = [] := by
    rcases t.parts with ⟨-, -, ho, -⟩ | ⟨xs, e, ys, -, -, he, -, -, ho, -⟩
    · rw [ho]
      rfl
    · rw [ho]
      simp [he]
  rw [elems_eq, List.filter_append, List.filter_append, hold, t.noTim_before.filter_ne,
    t.noTim_after.filter_ne, List.nil_append]

end BeaconTemplate

section Place

variable {b : BssidEx} {t : BeaconTemplate}

/-- A search over the whole template. -/
theorem Stores.getIe_found {fixed : List UInt8} {xs ys : List Tlv} {e : Tlv} {index : UInt8}
    (h : Stores b fixed (xs ++ e :: ys)) (hne : ∀ x ∈ xs, x.id ≠ index) (he : e.id = index) :
    b.getIe index = some (fixedIeLength + Tlv.total xs, e.body.length) := by
  have hlim : (b.ieLength : Int) - fixedIeLength = (Tlv.total (xs ++ e :: ys) : Nat) := by
    rw [h.length_eq]
    push_cast
    omega
  rw [BssidEx.getIe, hlim]
  exact rtwGetIe_found h.holds hne he

theorem Stores.getIe_absent {fixed : List UInt8} {xs : List Tlv} {index : UInt8}
    (h : Stores b fixed xs) (hne : ∀ x ∈ xs, x.id ≠ index) : b.getIe index = none := by
  have hlim : (b.ieLength : Int) - fixedIeLength = (Tlv.total xs : Nat) := by
    rw [h.length_eq]
    push_cast
    omega
  rw [BssidEx.getIe, hlim]
  exact rtwGetIe_absent h.holds hne

/-- `head_len` is where the head ends. -/
theorem timHeadLen_eq (h : Stores b t.fixed t.elems) :
    timHeadLen b = fixedIeLength + Tlv.total t.head := by
  have hssid : b.getIe ssidIe = some (fixedIeLength, t.ssid.body.length) :=
    @Stores.getIe_found b t.fixed [] _ t.ssid ssidIe h (by simp) t.ssid_id
  have hrates : b.getIe supportedratesIe =
      some (fixedIeLength + Tlv.total [t.ssid], t.rates.body.length) :=
    @Stores.getIe_found b t.fixed [t.ssid] _ t.rates supportedratesIe h
      (fun x hx => by rw [List.mem_singleton.mp hx, t.ssid_id]; decide) t.rates_id
  rw [timHeadLen, hssid, hrates, t.total_head]
  simp only [Tlv.size]
  omega

/-- The place of the element, when an old TIM element is not empty. -/
theorem timPlace_eq (h : Stores b t.fixed t.elems) (hold : ∀ e ∈ t.old, e.body ≠ []) :
    timPlace b = (fixedIeLength + Tlv.total t.before, Tlv.total t.old) := by
  rcases t.parts with ⟨hrest, hb, ho, -⟩ | ⟨xs, e, ys, hrest, hxs, he, -, hb, ho, -⟩
  · have hnone : b.getIe timIe = none := h.getIe_absent (t.noTim_head.append hrest)
    rw [timPlace, hnone, timHeadLen_eq h, hb, ho]
    rfl
  · have hsome : b.getIe timIe = some (fixedIeLength + Tlv.total t.before, e.body.length) := by
      have h' : Stores b t.fixed ((t.head ++ xs) ++ e :: ys) := by
        rw [List.append_assoc, ← hrest]
        exact h
      rw [hb]
      exact h'.getIe_found (t.noTim_head.append hxs) he
    rw [ho] at hold
    obtain ⟨len, hlen⟩ : ∃ len, e.body.length = len + 1 :=
      Nat.exists_eq_succ_of_ne_zero fun h0 =>
        hold e (List.mem_singleton_self e) (List.length_eq_zero_iff.mp h0)
    rw [timPlace, hsome, hlen, ho]
    simp [Tlv.size, hlen]

/-- An empty TIM element is taken for none. -/
theorem timPlace_empty (h : Stores b t.fixed t.elems) {e : Tlv} (he : e ∈ t.old)
    (hnil : e.body = []) : timPlace b = (fixedIeLength + Tlv.total t.head, 0) := by
  rcases t.parts with ⟨-, -, ho, -⟩ | ⟨xs, e', ys, hrest, hxs, hid, -, hb, ho, -⟩
  · rw [ho] at he
    cases he
  · have heq : e = e' := List.mem_singleton.mp (ho ▸ he)
    subst heq
    have h' : Stores b t.fixed ((t.head ++ xs) ++ e :: ys) := by
      rw [List.append_assoc, ← hrest]
      exact h
    have hsome := h'.getIe_found (t.noTim_head.append hxs) hid
    rw [timPlace, hsome, hnil, timHeadLen_eq h]
    rfl

end Place

/-! ## Splicing it in -/

/-- The buffer after the element has been written behind `xs`, with `n` bytes of remainder
that read `tail`. -/
structure Spliced (b : BssidEx) (fixed : List UInt8) (xs : List Tlv) (tim : BitVec 16)
    (tail : List UInt8) : Prop where
  length_eq : b.ieLength = fixedIeLength + Tlv.total (xs ++ [timTlv tim]) + tail.length
  fixed_eq : b.ies.read 0 fixedIeLength = fixed
  holds : Holds b.ies fixedIeLength (xs ++ [timTlv tim])
  tail_eq : b.ies.read (fixedIeLength + Tlv.total (xs ++ [timTlv tim])) tail.length = tail

section Splice

variable {b : BssidEx} {fixed : List UInt8} {xs ys : List Tlv} {tim : BitVec 16} {malloc : Bool}
variable {o : Nat}

/-- Writing the element leaves what stands before it alone. -/
theorem spliced_write (hs : Stores b fixed (xs ++ ys)) {tail : List UInt8} {m : Mem} {n : Nat}
    (hm : m = b.ies.write (fixedIeLength + Tlv.total xs) (timElement tim))
    (hn : n = fixedIeLength + Tlv.total (xs ++ [timTlv tim]) + tail.length)
    {m' : Mem} (hlow : ∀ k, k < fixedIeLength + Tlv.total (xs ++ [timTlv tim]) → m' k = m k)
    (htail : m'.read (fixedIeLength + Tlv.total (xs ++ [timTlv tim])) tail.length = tail) :
    Spliced ⟨m', n⟩ fixed xs tim tail := by
  have htotal : Tlv.total (xs ++ [timTlv tim]) = Tlv.total xs + (timTlv tim).size := by simp
  have hbelow : ∀ k, k < fixedIeLength + Tlv.total xs → m' k = b.ies k := by
    intro k hk
    rw [hlow k (by omega), hm]
    exact Mem.write_of_lt hk
  refine ⟨hn, ?_, ?_, htail⟩
  · rw [← hs.fixed_eq]
    exact Mem.read_congr fun i hi => hbelow _ (by omega)
  · refine Holds.append.mpr ⟨?_, ?_⟩
    · rw [Holds, ← (Holds.append.mp hs.holds).1]
      exact Mem.read_congr fun i hi => hbelow _ (by omega)
    · have hread : m'.read (fixedIeLength + Tlv.total xs) (timElement tim).length =
          timElement tim := by
        refine (Mem.read_congr fun i hi => ?_).trans
          (Mem.read_write_self b.ies (fixedIeLength + Tlv.total xs) (timElement tim))
        rw [hlow _ (by rw [htotal, ← length_timElement]; omega), hm]
      rw [length_timElement, timElement_eq] at hread
      simpa [Holds] using hread

/-- **What one update leaves behind.** The remainder is where it belongs if it was kept, or
the bytes that stood there before are still there. -/
theorem updateBCNTIM_spec (hs : Stores b fixed (xs ++ ys))
    (hplace : timPlace b = (fixedIeLength + Tlv.total xs, o)) (ho : o ≤ Tlv.total ys)
    (hfit : fixedIeLength + Tlv.total (xs ++ [timTlv tim]) + (Tlv.total ys - o) ≤ maxIeSz) :
    ∃ b', updateBCNTIM malloc tim b = .done b' ∧ Spliced b' fixed xs tim
      (if malloc then b.ies.read (fixedIeLength + Tlv.total xs + o) (Tlv.total ys - o)
        else b.ies.read (fixedIeLength + Tlv.total (xs ++ [timTlv tim])) (Tlv.total ys - o)) := by
  have hlen := hs.length_eq
  have hmax : b.ieLength ≤ 768 := hs.fits
  have h768 : maxIeSz = 768 := rfl
  rw [Tlv.total_append] at hlen
  have htotal : Tlv.total (xs ++ [timTlv tim]) = Tlv.total xs + (timTlv tim).size := by simp
  have hrem : sub32 b.ieLength (fixedIeLength + Tlv.total xs + o) = Tlv.total ys - o := by
    rw [sub32_of_le (by omega) (by omega)]
    omega
  have htail : fixedIeLength + Tlv.total xs + (timTlv tim).size =
      fixedIeLength + Tlv.total (xs ++ [timTlv tim]) := by omega
  simp only [updateBCNTIM, hplace, hrem, length_timElement, htail]
  rw [if_neg (by omega), Nat.mod_eq_of_lt (by omega)]
  by_cases hmove : 0 < Tlv.total ys - o ∧ malloc = true
  · rw [if_pos hmove, if_neg (by omega), if_pos hmove.2]
    refine ⟨_, rfl, spliced_write hs rfl (by simp) (fun k hk => Mem.write_of_lt hk) ?_⟩
    exact Mem.read_write_self ..
  · rw [if_neg hmove]
    refine ⟨_, rfl, ?_⟩
    split
    · rename_i hm
      have h0 : Tlv.total ys - o = 0 := by
        by_contra hc
        exact hmove ⟨by omega, hm⟩
      rw [h0, Mem.read_zero]
      exact @spliced_write _ _ _ _ _ hs [] _ _ rfl rfl _ (fun k _ => rfl) rfl
    · refine spliced_write hs rfl (by simp) (fun k _ => rfl) ?_
      rw [Mem.length_read]
      exact Mem.read_write_disjoint (Or.inr (by rw [length_timElement]; omega))

/-- An update that does not fit either leaves the buffer or claims to be longer than it. -/
theorem updateBCNTIM_too_long (hs : Stores b fixed (xs ++ ys))
    (hplace : timPlace b = (fixedIeLength + Tlv.total xs, o)) (ho : o ≤ Tlv.total ys)
    (hbig : maxIeSz < fixedIeLength + Tlv.total (xs ++ [timTlv tim]) + (Tlv.total ys - o))
    {b' : BssidEx} (h : updateBCNTIM malloc tim b = .done b') : maxIeSz < b'.ieLength := by
  have hlen := hs.length_eq
  have hmax : b.ieLength ≤ 768 := hs.fits
  have h768 : maxIeSz = 768 := rfl
  rw [Tlv.total_append] at hlen
  have htotal : Tlv.total (xs ++ [timTlv tim]) = Tlv.total xs + (timTlv tim).size := by simp
  have hsmall : (timTlv tim).size < 258 := by
    have := (timTlv tim).short
    simp only [Tlv.size]
    omega
  have hrem : sub32 b.ieLength (fixedIeLength + Tlv.total xs + o) = Tlv.total ys - o := by
    rw [sub32_of_le (by omega) (by omega)]
    omega
  have htail : fixedIeLength + Tlv.total xs + (timTlv tim).size =
      fixedIeLength + Tlv.total (xs ++ [timTlv tim]) := by omega
  simp only [updateBCNTIM, hplace, hrem, length_timElement, htail] at h
  split at h
  · cases h
  · split at h
    · cases h
    · cases h
      show maxIeSz < _ % 2 ^ 32
      rw [Nat.mod_eq_of_lt (by omega)]
      exact hbig

end Splice

/-! ## Reading it back -/

/-- The elements of a spliced buffer are the ones in front, the new one, and what the
remainder encodes. -/
theorem Spliced.elems_eq {b : BssidEx} {fixed tail : List UInt8} {xs es : List Tlv}
    {tim : BitVec 16} (h : Spliced b fixed xs tim tail) (hs : Stores b fixed es) :
    ∃ zs, es = xs ++ timTlv tim :: zs ∧ Tlv.encode zs = tail := by
  have htotal : Tlv.total es = Tlv.total (xs ++ [timTlv tim]) + tail.length := by
    have h1 := hs.length_eq
    have h2 := h.length_eq
    omega
  have henc : Tlv.encode es = Tlv.encode (xs ++ [timTlv tim]) ++ tail := by
    rw [← hs.holds, htotal, Mem.read_add, h.tail_eq, h.holds]
  obtain ⟨zs, rfl, hzs⟩ := Tlv.encode_eq_append henc
  exact ⟨zs, by simp, hzs⟩

theorem Spliced.stores {b : BssidEx} {fixed : List UInt8} {xs zs : List Tlv} {tim : BitVec 16}
    (h : Spliced b fixed xs tim (Tlv.encode zs)) (hfit : b.ieLength ≤ maxIeSz) :
    Stores b fixed (xs ++ timTlv tim :: zs) := by
  have hsplit : xs ++ timTlv tim :: zs = (xs ++ [timTlv tim]) ++ zs := by simp
  have hlen := h.length_eq
  rw [Tlv.length_encode] at hlen
  rw [hsplit]
  refine ⟨?_, hfit, h.fixed_eq, Holds.append.mpr ⟨h.holds, ?_⟩⟩
  · rw [hlen, Tlv.total_append (xs ++ [timTlv tim]) zs, Nat.add_assoc]
  · have htail := h.tail_eq
    rwa [Tlv.length_encode] at htail

/-- **What a spliced buffer says** is right exactly when the map is and the remainder still
encodes what has to stay. -/
theorem saysTim_spliced {t : BeaconTemplate} {b : BssidEx} {xs : List Tlv} {tim : BitVec 16}
    {tail : List UInt8} (hxs : NoTim xs) (h : Spliced b t.fixed xs tim tail) :
    SaysTim t tim (.done b) ↔ b.ieLength ≤ maxIeSz ∧ LowMarked tim ∧
      ∃ zs, Tlv.encode zs = tail ∧ NoTim zs ∧ xs ++ zs = t.before ++ t.after := by
  have hid : (timTlv tim).id = timIe := rfl
  constructor
  · rintro ⟨b', es, e, hb, hs, hne, heq, haid⟩
    cases hb
    obtain ⟨zs, rfl, hzs⟩ := h.elems_eq hs
    rw [List.filter_append, hxs.filter_eq, List.nil_append, List.filter_cons_of_pos (by simp [hid])]
      at heq
    obtain ⟨rfl, hnil⟩ := List.cons.inj heq
    have hno : NoTim zs := noTim_of_filter_eq hnil
    rw [List.filter_append, hxs.filter_ne, List.filter_cons_of_neg (by simp [hid]),
      hno.filter_ne, t.filter_elems] at hne
    exact ⟨hs.fits, (aidIndicated_iff tim).mp haid, zs, hzs, hno, hne⟩
  · rintro ⟨hfit, hlow, zs, rfl, hno, heq⟩
    refine ⟨b, _, timTlv tim, rfl, h.stores hfit, ?_, ?_, (aidIndicated_iff tim).mpr hlow⟩
    · rw [List.filter_append, hxs.filter_ne, List.filter_cons_of_neg (by simp [hid]),
        hno.filter_ne, t.filter_elems, heq]
    · rw [List.filter_append, hxs.filter_eq, List.filter_cons_of_pos (by simp [hid]),
        hno.filter_eq]
      rfl

/-- When `update_BCNTIM` can do its work: no octet of the map takes the place of another, an
old TIM element is one the search takes for one, the new beacon fits the buffer, and what
has to move was kept aside or already stands where it has to be. -/
structure TimWritable (malloc : Bool) (tim : BitVec 16) (b : BssidEx) (t : BeaconTemplate) :
    Prop where
  lowMarked : LowMarked tim
  old_body : ∀ e ∈ t.old, e.body ≠ []
  fits : fixedIeLength + Tlv.total t.before + (timElement tim).length + Tlv.total t.after ≤ maxIeSz
  kept : malloc = true ∨
    b.ies.read (fixedIeLength + Tlv.total t.before + (timElement tim).length)
        (Tlv.total t.after) =
      b.ies.read (fixedIeLength + Tlv.total t.before + Tlv.total t.old) (Tlv.total t.after)

section Says

variable {b : BssidEx} {t : BeaconTemplate} {tim : BitVec 16} {malloc : Bool}

theorem Stores.read_after (h : Stores b t.fixed t.elems) :
    b.ies.read (fixedIeLength + Tlv.total t.before + Tlv.total t.old) (Tlv.total t.after) =
      Tlv.encode t.after := by
  have hholds := h.holds
  rw [t.elems_eq] at hholds
  exact (Holds.append.mp (Holds.append.mp hholds).2).2

/-- With a TIM element the search recognises, or none. -/
theorem saysTim_iff (h : Stores b t.fixed t.elems) (hold : ∀ e ∈ t.old, e.body ≠ []) :
    SaysTim t tim (updateBCNTIM malloc tim b) ↔ TimWritable malloc tim b t := by
  have hs : Stores b t.fixed (t.before ++ (t.old ++ t.after)) := t.elems_eq ▸ h
  have hplace := timPlace_eq h hold
  have ho : Tlv.total t.old ≤ Tlv.total (t.old ++ t.after) := by simp
  have hrem : Tlv.total (t.old ++ t.after) - Tlv.total t.old = Tlv.total t.after := by simp
  have hsize : fixedIeLength + Tlv.total (t.before ++ [timTlv tim]) =
      fixedIeLength + Tlv.total t.before + (timElement tim).length := by
    simp [length_timElement, Nat.add_assoc]
  by_cases hfit : fixedIeLength + Tlv.total t.before + (timElement tim).length
      + Tlv.total t.after ≤ maxIeSz
  · obtain ⟨b', hb', hsp⟩ := @updateBCNTIM_spec b t.fixed t.before (t.old ++ t.after) tim malloc
      (Tlv.total t.old) hs hplace ho (by rw [hrem, hsize]; exact hfit)
    rw [hrem, hsize, h.read_after] at hsp
    rw [hb', saysTim_spliced t.noTim_before hsp]
    constructor
    · rintro ⟨-, hlow, zs, hzs, -, heq⟩
      have : zs = t.after := List.append_cancel_left heq
      subst this
      refine ⟨hlow, hold, hfit, ?_⟩
      cases malloc with
      | true => exact Or.inl rfl
      | false => exact Or.inr (hzs.symm.trans h.read_after.symm)
    · rintro ⟨hlow, -, -, hkept⟩
      refine ⟨?_, hlow, t.after, ?_, t.noTim_after, rfl⟩
      · rw [hsp.length_eq, hsize]
        split
        · rw [Tlv.length_encode]
          exact hfit
        · rw [Mem.length_read]
          exact hfit
      · rcases hkept with hm | hk
        · rw [if_pos hm]
        · split
          · rfl
          · rw [hk, h.read_after]
  · constructor
    · rintro ⟨b', es, e, hb', hs', -⟩
      have := @updateBCNTIM_too_long b t.fixed t.before (t.old ++ t.after) tim malloc
        (Tlv.total t.old) hs hplace ho (by rw [hrem, hsize]; omega) b' hb'
      exact absurd hs'.fits (by omega)
    · intro hw
      exact absurd hw.fits hfit

/-- An empty TIM element stays, and a second one is put in front of it. -/
theorem not_saysTim_empty (h : Stores b t.fixed t.elems) {e : Tlv} (he : e ∈ t.old)
    (hnil : e.body = []) : ¬ SaysTim t tim (updateBCNTIM malloc tim b) := by
  intro hsaid
  have hplace := timPlace_empty h he hnil
  have hs : Stores b t.fixed (t.head ++ t.rest) := h
  by_cases hfit : fixedIeLength + Tlv.total (t.head ++ [timTlv tim]) + (Tlv.total t.rest - 0)
      ≤ maxIeSz
  · obtain ⟨b', hb', hsp⟩ := @updateBCNTIM_spec b t.fixed t.head t.rest tim malloc 0 hs hplace
      (Nat.zero_le _) hfit
    rw [hb', saysTim_spliced t.noTim_head hsp] at hsaid
    obtain ⟨-, -, zs, hzs, -, heq⟩ := hsaid
    -- the remainder is as long as all that followed the head, the old TIM element included
    have hlen : Tlv.total zs = Tlv.total t.rest := by
      rw [← Tlv.length_encode zs, hzs]
      split
      · simp
      · simp
    have hsum : Tlv.total t.head + Tlv.total zs = Tlv.total t.before + Tlv.total t.after := by
      rw [← Tlv.total_append, heq, Tlv.total_append]
    have hall : Tlv.total t.head + Tlv.total t.rest =
        Tlv.total t.before + (Tlv.total t.old + Tlv.total t.after) := by
      rw [← Tlv.total_append, ← Tlv.total_append, ← Tlv.total_append, ← t.elems_eq]
      rfl
    have hpos : 0 < Tlv.total t.old := by
      obtain ⟨x, xs, hx⟩ := List.exists_cons_of_ne_nil (List.ne_nil_of_mem he)
      rw [hx, Tlv.total_cons, Tlv.size]
      omega
    omega
  · obtain ⟨b', es, e', hb', hs', -⟩ := hsaid
    have := @updateBCNTIM_too_long b t.fixed t.head t.rest tim malloc 0 hs hplace
      (Nat.zero_le _) (by omega) b' hb'
    exact absurd hs'.fits (by omega)

/-- **The beacon says what `tim_bitmap` says exactly when the element can be written.** -/
theorem beacon_says_tim (h : Stores b t.fixed t.elems) :
    SaysTim t tim (updateBCNTIM malloc tim b) ↔ TimWritable malloc tim b t := by
  by_cases hold : ∀ e ∈ t.old, e.body ≠ []
  · exact saysTim_iff h hold
  · constructor
    · intro hsaid
      obtain ⟨e, he, hnil⟩ : ∃ e ∈ t.old, e.body = [] := by
        by_contra hno
        exact hold fun e he hn => hno ⟨e, he, hn⟩
      exact absurd hsaid (not_saysTim_empty h he hnil)
    · intro hw
      exact absurd hw.old_body hold

end Says

/-! ## Two beacons -/

/-- A template with an empty SSID, one rate and channel 6, an old TIM element for AID 1, and an ERP
element behind it. -/
def sampleTemplate : BeaconTemplate where
  fixed := List.replicate 12 0
  ssid := ⟨ssidIe, [], by decide⟩
  rates := ⟨supportedratesIe, [0x82], by decide⟩
  dsset := ⟨dssetIe, [6], by decide⟩
  rest := [⟨timIe, [0, 1, 0, 2], by decide⟩, ⟨42, [0], by decide⟩]
  fixed_length := rfl
  ssid_id := rfl
  rates_id := rfl
  dsset_id := rfl
  dsset_length := rfl
  one_tim := by decide

/-- The template in its buffer. -/
def sampleTemplateBuf : BssidEx where
  ies := fun k => (List.replicate 12 0 ++ Tlv.encode sampleTemplate.elems).getD k 0
  ieLength := 29

theorem sampleTemplateBuf_stores : Stores sampleTemplateBuf sampleTemplate.fixed sampleTemplate.elems where
  length_eq := rfl
  fits := by decide
  fixed_eq := by decide
  holds := by
    show sampleTemplateBuf.ies.read _ _ = _
    decide

/-- The beacon is right for the stations 1 and 9 together, with a TIM element of another length. -/
theorem beacon_says_tim_sample :
    Stores sampleTemplateBuf sampleTemplate.fixed sampleTemplate.elems ∧
      SaysTim sampleTemplate 0x0202#16 (updateBCNTIM true 0x0202#16 sampleTemplateBuf) := by
  refine ⟨sampleTemplateBuf_stores, (beacon_says_tim sampleTemplateBuf_stores).mpr ?_⟩
  exact ⟨by decide, by decide, by decide, Or.inl rfl⟩

/-- With a frame for AID 8 alone, the beacon speaks of AID 0 instead. -/
theorem beacon_misses_aid_eight :
    Stores sampleTemplateBuf sampleTemplate.fixed sampleTemplate.elems ∧
      ¬ SaysTim sampleTemplate 0x0100#16 (updateBCNTIM true 0x0100#16 sampleTemplateBuf) := by
  refine ⟨sampleTemplateBuf_stores, fun hsaid => ?_⟩
  have hw := (saysTim_iff sampleTemplateBuf_stores (by decide)).mp hsaid
  exact absurd hw.lowMarked (by decide)

end Rtl8812au
