import Rtl8812au.Ies.Wmm
import Rtl8812au.Ies.Lookup

/-!
# Where the search for the WMM element ends

From the second vendor element on the limit reaches beyond the frame, so the search ends inside it only
at an element it takes. It takes the first vendor element behind whose header the bytes of `WMM_IE`
stand, and these need not be the element's own.
-/

namespace Rtl8812au.Ies

/-- A WMM information element. -/
def IsWmm (e : Tlv) : Prop := e.id = vendorIe ∧ wmmIe <+: e.body

instance (e : Tlv) : Decidable (IsWmm e) := inferInstanceAs (Decidable (_ ∧ _))

/-- The bytes behind the header at `c` look like a WMM element's. -/
def Spells (bs : List UInt8) (c : Nat) : Prop := wmmIe <+: bs.drop (c + 2)

instance (bs : List UInt8) (c : Nat) : Decidable (Spells bs c) :=
  inferInstanceAs (Decidable (_ <+: _))

/-- The first vendor element of those from `c` on behind whose header they stand. -/
def firstSpelt (bs : List UInt8) : Nat → List Tlv → Option Nat
  | _, [] => none
  | c, e :: es =>
    if e.id = vendorIe ∧ Spells bs c then some c else firstSpelt bs (c + e.size) es

section

variable {bs : List UInt8}

theorem spells_inside {c : Nat} (h : Spells bs c) : c + 8 ≤ bs.length := by
  have hlen := h.length_le
  rw [List.length_drop] at hlen
  have hsix : wmmIe.length = 6 := rfl
  omega

/-- **What is found lies behind where the search began.** -/
theorem firstSpelt_le {es : List Tlv} {q : Nat} : ∀ {c : Nat}, firstSpelt bs c es = some q →
    c ≤ q ∧ Spells bs q := by
  induction es with
  | nil => intro c h; cases h
  | cons e es ih =>
      intro c h
      rw [firstSpelt] at h
      split at h
      case isTrue hc =>
        cases h
        exact ⟨Nat.le_refl _, hc.2⟩
      case isFalse =>
        obtain ⟨hle, hs⟩ := ih h
        exact ⟨by omega, hs⟩

/-- Elements that are none of a vendor's are passed. -/
theorem firstSpelt_skip (bs : List UInt8) {xs : List Tlv} (ys : List Tlv) : ∀ (c : Nat), (∀ x ∈ xs, x.id ≠ vendorIe) →
    firstSpelt bs c (xs ++ ys) = firstSpelt bs (c + Tlv.total xs) ys := by
  induction xs with
  | nil => intro c _; rfl
  | cons x xs ih =>
      intro c hno
      have hx : ¬ (x.id = vendorIe ∧ Spells bs c) := fun h => hno x (List.mem_cons_self ..) h.1
      rw [List.cons_append, firstSpelt, if_neg hx, ih _ fun y hy => hno y (List.mem_cons_of_mem _ hy),
        Tlv.total_cons, Nat.add_assoc]

/-- **One round of the search.** It ends with the element found if the bytes stand behind its header, and
otherwise goes on behind it, from where the comparison has not left the frame. -/
theorem wmmScan_round {p q l : Nat} {r : Option (Nat × UInt8)}
    (h : ∀ f, RtwGetIe bs p vendorIe bs.length f ↔ f = some (q, l)) :
    WmmScan bs p r ↔ if Spells bs q then ∃ info, bs[q + 8]? = some info ∧ r = some (q, info)
      else q + 8 ≤ bs.length ∧ WmmScan bs (q + l + 2) r := by
  have hfound := (h _).mpr rfl
  have hsix : wmmIe.length = 6 := rfl
  constructor
  · intro hs
    cases hs with
    | absent h' => exact absurd ((h _).mp h') nofun
    | wmm h' hm hq =>
        cases (h _).mp h'
        have hsp : Spells bs q := (memcmp_done.mp hm).2.mp rfl
        rw [if_pos hsp]
        exact ⟨_, fetch_done.mp hq, rfl⟩
    | other h' hm hrest =>
        cases (h _).mp h'
        obtain ⟨hin, hpre⟩ := memcmp_done.mp hm
        have hsp : ¬ Spells bs q := fun hp => Bool.false_ne_true (hpre.mpr hp)
        rw [if_neg hsp]
        rcases hin with hnil | hin
        · exact absurd hnil (by decide)
        · exact ⟨by omega, hrest⟩
  · intro hs
    split at hs
    case isTrue hsp =>
      obtain ⟨info, hq, rfl⟩ := hs
      refine .wmm hfound (memcmp_done.mpr ⟨?_, fun _ => hsp, fun _ => rfl⟩) (fetch_done.mpr hq)
      exact prefix_inside hsp
    case isFalse hsp =>
      refine .other hfound (memcmp_done.mpr ⟨Or.inr (by omega), nofun, fun hp => absurd hp hsp⟩) hs.2

/-- What a search comes to that ends only at an element it takes. -/
def Takes (bs : List UInt8) (o : Option Nat) (r : Option (Nat × UInt8)) : Prop :=
  ∃ q info, o = some q ∧ bs[q + 8]? = some info ∧ r = some (q, info)

/-- A round with the first vendor element, and what the search makes of those behind it. -/
theorem wmmScan_first {p : Nat} {xs ys : List Tlv} {e : Tlv} {r : Option (Nat × UInt8)}
    (he : e.id = vendorIe) (hno : ∀ x ∈ xs, x.id ≠ vendorIe)
    (hget : ∀ f, RtwGetIe bs p vendorIe bs.length f ↔ f = some (p + Tlv.total xs, e.body.length))
    (hrest : WmmScan bs (p + Tlv.total xs + e.size) r
      ↔ Takes bs (firstSpelt bs (p + Tlv.total xs + e.size) ys) r) :
    WmmScan bs p r ↔ Takes bs (firstSpelt bs p (xs ++ e :: ys)) r := by
  rw [wmmScan_round hget, firstSpelt_skip bs _ _ hno, firstSpelt]
  have hnext : p + Tlv.total xs + e.body.length + 2 = p + Tlv.total xs + e.size := rfl
  by_cases hsp : Spells bs (p + Tlv.total xs)
  · rw [if_pos hsp, if_pos ⟨he, hsp⟩]
    constructor
    · rintro ⟨info, hq, rfl⟩
      exact ⟨_, info, rfl, hq, rfl⟩
    · rintro ⟨q, info, ho, hq, rfl⟩
      cases ho
      exact ⟨info, hq, rfl⟩
  · rw [if_neg hsp, if_neg (fun h => hsp h.2), hnext, hrest]
    constructor
    · exact fun h => h.2
    · rintro ⟨q, info, ho, hq, hr⟩
      -- the comparison here is in front of the one that matches
      obtain ⟨hle, hs⟩ := firstSpelt_le ho
      have hin := spells_inside hs
      exact ⟨by omega, q, info, ho, hq, hr⟩

/-- **The search from behind the first vendor element** ends only at one that it takes. -/
theorem wmmScan_beyond : ∀ (n : Nat) {es : List Tlv} {p : Nat} {r : Option (Nat × UInt8)},
    es.length = n → bs.drop p = Tlv.encode es → 0 < p → p + Tlv.total es = bs.length →
    bs.length < 2 ^ 31 → (WmmScan bs p r ↔ Takes bs (firstSpelt bs p es) r) := by
  intro n
  induction n using Nat.strongRecOn with
  | _ n ih =>
      intro es p r hn hdrop hp htot hbig
      have hpos : ¬ ((bs.length : Nat) : Int) < 1 := by omega
      have hget : ∀ f, RtwGetIe bs p vendorIe bs.length f
          ↔ f = firstIe vendorIe p es ∧ firstIe vendorIe p es ≠ none := by
        intro f
        unfold RtwGetIe
        rw [if_neg hpos]
        exact getIe_beyond (i := 0) hdrop (by omega) hbig
      cases hfirst : firstIe vendorIe p es with
      | none =>
          -- the search leaves the frame
          have hnot : ∀ f, ¬ RtwGetIe bs p vendorIe bs.length f := by
            intro f hf
            exact ((hget f).mp hf).2 hfirst
          have hskip := firstSpelt_skip bs [] p (firstIe_eq_none.mp hfirst)
          rw [List.append_nil] at hskip
          constructor
          · intro hs
            cases hs with
            | absent h => exact absurd h (hnot _)
            | wmm h => exact absurd h (hnot _)
            | other h => exact absurd h (hnot _)
          · rintro ⟨q, info, ho, -, -⟩
            rw [hskip] at ho
            cases ho
      | some f =>
          obtain ⟨xs, e, ys, rfl, he, hno, hq, hl⟩ := firstIe_eq_some.mp hfirst
          rw [Tlv.total_append, Tlv.total_cons] at htot
          have hsize := e.two_le_size
          refine wmmScan_first he hno (fun f' => ?_) ?_
          · rw [hget, hfirst, ← hq, ← hl]
            exact ⟨fun h => h.1, fun h => ⟨h, nofun⟩⟩
          · refine ih ys.length ?_ rfl ?_ (by omega) (by omega) hbig
            · rw [← hn, List.length_append, List.length_cons]
              omega
            · rw [Nat.add_assoc, ← List.drop_drop, hdrop, Tlv.encode_append, Tlv.encode_cons,
                ← List.append_assoc]
              refine List.drop_left' ?_
              rw [List.length_append, Tlv.length_encode, Tlv.length_bytes]

/-- **The search over a whole frame** also ends where there is no vendor element at all. -/
theorem wmmScan_iff {es : List Tlv} {r : Option (Nat × UInt8)} (hbig : Tlv.total es < 2 ^ 31) :
    WmmScan (Tlv.encode es) 0 r ↔ Takes (Tlv.encode es) (firstSpelt (Tlv.encode es) 0 es) r
      ∨ (∀ e ∈ es, e.id ≠ vendorIe) ∧ r = none := by
  have hget : ∀ f, RtwGetIe (Tlv.encode es) 0 vendorIe (Tlv.encode es).length f
      ↔ f = firstIe vendorIe 0 es := by
    intro f
    rw [Tlv.length_encode]
    exact rtwGetIe_elements hbig
  cases hfirst : firstIe vendorIe 0 es with
  | none =>
      -- no vendor element: the first search fails
      have hno := firstIe_eq_none.mp hfirst
      have hskip := firstSpelt_skip (Tlv.encode es) [] 0 hno
      rw [List.append_nil] at hskip
      rw [hfirst] at hget
      constructor
      · intro hs
        cases hs with
        | absent h => exact Or.inr ⟨hno, rfl⟩
        | wmm h => exact absurd ((hget _).mp h) nofun
        | other h => exact absurd ((hget _).mp h) nofun
      · rintro (⟨q, info, ho, -, -⟩ | ⟨-, rfl⟩)
        · rw [hskip] at ho
          cases ho
        · exact .absent ((hget _).mpr rfl)
  | some f =>
      -- the search goes on behind the first vendor element
      obtain ⟨xs, e, ys, rfl, he, hno, hq, hl⟩ := firstIe_eq_some.mp hfirst
      have hsize := e.two_le_size
      have hlen : (Tlv.encode (xs ++ e :: ys)).length = Tlv.total xs + (e.size + Tlv.total ys) := by
        rw [Tlv.length_encode, Tlv.total_append, Tlv.total_cons]
      rw [Tlv.total_append, Tlv.total_cons] at hbig
      have hbehind : (Tlv.encode (xs ++ e :: ys)).drop (0 + Tlv.total xs + e.size) = Tlv.encode ys := by
        rw [Nat.zero_add, ← List.drop_drop, Tlv.encode_append, ← Tlv.length_encode, List.drop_left,
          Tlv.encode_cons]
        exact List.drop_left
      have hscan : WmmScan (Tlv.encode (xs ++ e :: ys)) 0 r
          ↔ Takes (Tlv.encode (xs ++ e :: ys))
            (firstSpelt (Tlv.encode (xs ++ e :: ys)) 0 (xs ++ e :: ys)) r := by
        refine wmmScan_first he hno (fun f' => ?_) ?_
        · rw [hget, hfirst, ← hq, ← hl]
        · exact wmmScan_beyond ys.length rfl hbehind (by omega) (by omega) (by omega)
      rw [hscan]
      constructor
      · exact Or.inl
      · rintro (h | ⟨hnone, -⟩)
        · exact h
        · exact absurd he (hnone e (by simp))

/-! ## Which element that is -/

/-- None in front of it is taken. -/
theorem firstSpelt_first {xs ys : List Tlv} {e : Tlv} {q : Nat} : ∀ {c : Nat},
    firstSpelt bs c (xs ++ e :: ys) = some q → e.id = vendorIe → Spells bs (c + Tlv.total xs) →
    q ≤ c + Tlv.total xs := by
  induction xs with
  | nil =>
      intro c h he hs
      rw [List.nil_append, firstSpelt, if_pos ⟨he, hs⟩] at h
      cases h
      exact Nat.le_add_right _ _
  | cons x xs ih =>
      intro c h he hs
      rw [List.cons_append, firstSpelt] at h
      split at h
      case isTrue =>
        cases h
        exact Nat.le_add_right _ _
      case isFalse =>
        rw [Tlv.total_cons, ← Nat.add_assoc] at hs ⊢
        exact ih h he hs

theorem firstSpelt_of_none_before {xs ys : List Tlv} {e : Tlv} : ∀ {c : Nat},
    (∀ us v vs, xs = us ++ v :: vs → v.id = vendorIe → ¬ Spells bs (c + Tlv.total us)) →
    e.id = vendorIe → Spells bs (c + Tlv.total xs) →
    firstSpelt bs c (xs ++ e :: ys) = some (c + Tlv.total xs) := by
  induction xs with
  | nil =>
      intro c _ he hs
      rw [List.nil_append, firstSpelt, if_pos ⟨he, hs⟩]
      rfl
  | cons x xs ih =>
      intro c hno he hs
      obtain ⟨hx, hrest⟩ := (Tlv.forall_split_cons
        (P := fun us v _ => v.id = vendorIe → ¬ Spells bs (c + Tlv.total us))).mp hno
      rw [Tlv.total_cons, ← Nat.add_assoc] at hs ⊢
      rw [List.cons_append, firstSpelt, if_neg (fun h => hx h.1 h.2)]
      refine ih (fun us v vs hs' hv => ?_) he hs
      rw [Nat.add_assoc, ← Tlv.total_cons]
      exact hrest us v vs hs' hv

/-- Behind the header of a WMM element its own bytes stand. -/
theorem spells_of_isWmm {xs ys : List Tlv} {e : Tlv} (h : IsWmm e) :
    Spells (Tlv.encode (xs ++ e :: ys)) (Tlv.total xs) := by
  unfold Spells
  rw [← List.drop_drop, Tlv.encode_append, ← Tlv.length_encode, List.drop_left, Tlv.encode_cons]
  exact h.2.trans (List.prefix_append _ _)

end

/-! ## The scan of a request -/

/-- The record has `qos_info` from offset 8 of the first WMM element, or 0 where there is none. -/
def FromFirstWmm (es : List Tlv) (r : Option (Nat × UInt8)) (s' : StaQos) : Prop :=
  (∃ xs e ys info, es = xs ++ e :: ys ∧ IsWmm e ∧ (∀ x ∈ xs, ¬ IsWmm x)
      ∧ (Tlv.encode es)[Tlv.total xs + 8]? = some info ∧ r = some (Tlv.total xs, info)
      ∧ s'.qosInfo = info)
    ∨ (∀ e ∈ es, ¬ IsWmm e) ∧ r = none ∧ s'.qosInfo = 0

/-- The search ends without leaving the frame, with what the first WMM element says. -/
def ScanInside (es : List Tlv) : Prop :=
  ∀ s, ∃ r s', SaveWmm true (Tlv.encode es) s r s' ∧ FromFirstWmm es r s'

/-- **What it takes**: there is no vendor element at all, or a WMM element whose offset 8 is still in the
frame, and behind no vendor element's header in front of it the bytes of `WMM_IE` stand. -/
def ScanReadable (es : List Tlv) : Prop :=
  (∀ e ∈ es, e.id ≠ vendorIe)
    ∨ ∃ xs e ys, es = xs ++ e :: ys ∧ IsWmm e ∧ Tlv.total xs + 8 < Tlv.total es
      ∧ ∀ us v vs, xs = us ++ v :: vs → v.id = vendorIe → ¬ Spells (Tlv.encode es) (Tlv.total us)

theorem take_qosInfo (s : StaQos) (info : UInt8) : (s.take info).qosInfo = info := by
  unfold StaQos.take
  dsimp only
  split
  · rfl
  · rfl

/-- **The scan stays inside the frame** and takes the first WMM element's `qos_info` exactly under
`ScanReadable`. -/
theorem wmm_scan_inside_iff (es : List Tlv) (hbig : Tlv.total es < 2 ^ 31) :
    ScanInside es ↔ ScanReadable es := by
  constructor
  · intro h
    obtain ⟨r, s', ⟨hscan, -⟩, hfrom⟩ := h ⟨false, 0, 0, 0, false, 0, 0, 0, 0⟩
    rcases (wmmScan_iff hbig).mp hscan with ⟨q, info, hq, hinfo, rfl⟩ | ⟨hnone, -⟩
    · rcases hfrom with ⟨xs, e, ys, info', rfl, hwmm, -, hget, hr, -⟩ | ⟨-, hr, -⟩
      · cases hr
        refine Or.inr ⟨xs, e, ys, rfl, hwmm, ?_, fun us v vs hs hv hsp => ?_⟩
        · rw [← Tlv.length_encode (xs ++ e :: ys)]
          exact lt_of_get hget
        · -- it would have been taken instead
          subst hs
          rw [List.append_assoc, List.cons_append] at hq hsp
          have hle := firstSpelt_first (c := 0) hq hv (by rw [Nat.zero_add]; exact hsp)
          have hsize := v.two_le_size
          rw [Tlv.total_append, Tlv.total_cons] at hle
          omega
      · cases hr
    · exact Or.inl hnone
  · intro h s
    rcases h with hnone | ⟨xs, e, ys, rfl, hwmm, hin, hno⟩
    · refine ⟨none, _, ⟨(wmmScan_iff hbig).mpr (Or.inr ⟨hnone, rfl⟩), rfl⟩, Or.inr ⟨?_, rfl, rfl⟩⟩
      exact fun e he hw => hnone e he hw.1
    · have hspelt : firstSpelt (Tlv.encode (xs ++ e :: ys)) 0 (xs ++ e :: ys) = some (Tlv.total xs) := by
        rw [firstSpelt_of_none_before (fun us v vs hs hv => by rw [Nat.zero_add]; exact hno us v vs hs hv)
          hwmm.1 (by rw [Nat.zero_add]; exact spells_of_isWmm hwmm), Nat.zero_add]
      rw [← Tlv.length_encode (xs ++ e :: ys)] at hin
      have hget := List.getElem?_eq_getElem hin
      refine ⟨_, _, ⟨(wmmScan_iff hbig).mpr (Or.inl ⟨_, _, hspelt, hget, rfl⟩), rfl⟩,
        Or.inl ⟨xs, e, ys, _, rfl, hwmm, fun x hx hw => ?_, hget, rfl, take_qosInfo _ _⟩⟩
      obtain ⟨us, vs, hs⟩ := List.append_of_mem hx
      refine hno us x vs hs hw.1 ?_
      rw [hs, List.append_assoc, List.cons_append]
      exact spells_of_isWmm hw

theorem ssidBody_short : ([0x61] : List UInt8).length < 256 := by decide

theorem wpsBody_short : ([0x00, 0x50, 0xf2, 0x04] : List UInt8).length < 256 := by decide

/-- An SSID element and a WMM element with its `qos_info`. -/
def wmmRequest : List Tlv :=
  [⟨0, [0x61], ssidBody_short⟩, ⟨221, [0x00, 0x50, 0xf2, 0x02, 0x00, 0x01, 0x0f], by decide⟩]

theorem wmm_scan_inside_sample : ScanInside wmmRequest := by
  refine (wmm_scan_inside_iff wmmRequest (by decide)).mpr (Or.inr ⟨[⟨0, [0x61], by decide⟩], _, [], rfl,
    by decide, by decide, fun us v vs hs hv => ?_⟩)
  have hmem : v ∈ us ++ v :: vs := by simp
  rw [← hs] at hmem
  rw [List.mem_singleton.mp hmem] at hv
  exact absurd hv (by decide)

/-- An SSID element and a WPS element. -/
def wpsRequest : List Tlv :=
  [⟨0, [0x61], ssidBody_short⟩, ⟨221, [0x00, 0x50, 0xf2, 0x04], wpsBody_short⟩]

/-- Behind the vendor element the search reads on behind the frame. -/
theorem wmm_scan_leaves_frame : ¬ ScanInside wpsRequest := by
  intro h
  obtain ⟨r, s', ⟨hscan, -⟩, -⟩ := h ⟨false, 0, 0, 0, false, 0, 0, 0, 0⟩
  rcases (wmmScan_iff (by decide)).mp hscan with ⟨q, info, hq, -, -⟩ | ⟨hnone, -⟩
  · have hnever : firstSpelt (Tlv.encode wpsRequest) 0 wpsRequest = none := by decide
    rw [hnever] at hq
    cases hq
  · exact hnone ⟨221, [0x00, 0x50, 0xf2, 0x04], by decide⟩ (by simp [wpsRequest]) rfl

end Rtl8812au.Ies
