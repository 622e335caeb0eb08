import Rtl8812au.Ies.Attr

/-!
# Steps of 16 bits

A length within the header's size of `2 ^ 16` makes the step shorter than the header, down to nothing.
Without such a length in front of the end every step is at least a header long, and the walk ends.
-/

namespace Rtl8812au.Ies

section

variable (a : AttrLayout) (m : Mem) (ielen target : Nat)

/-- The attributes in front of the one looked for, by their lengths as they are. -/
inductive AttrAt : Nat → Prop where
  | first : AttrAt 6
  | behind {p : Nat} (h : AttrAt p) (hlt : p < ielen) (hid : a.idAt m p ≠ target) :
      AttrAt (p + (a.lenAt m p + a.hdr))

/-- None of them has a length that wraps. -/
def NoWrap : Prop :=
  ∀ p, AttrAt a m ielen target p → p < ielen → a.idAt m p ≠ target → a.lenAt m p + a.hdr < 2 ^ 16

/-- **The search gets on and ends**: each step over an attribute is at least a header long, and there is
a result. -/
def GetsOn (oui : List UInt8) (w : Wants) : Prop :=
  (m 0 = vendorIe → m.read 2 4 = oui →
      ∀ p p', Loop.Visits (attrTurn a m ielen target w) 6 p →
        attrTurn a m ielen target w p = .done (.next p') → p + a.hdr ≤ p')
    ∧ ∃ r, attrSearch a m ielen target w oui r

end

section

variable {a : AttrLayout} {m : Mem} {ielen target : Nat} {w : Wants}

theorem attrTurn_next {p : Nat} (hlt : p < ielen) (hid : a.idAt m p ≠ target) :
    attrTurn a m ielen target w p = .done (.next (p + attrLen a m p)) := by
  unfold attrTurn
  rw [if_pos hlt, if_neg hid]
  rfl

theorem attrTurn_hit {p : Nat} (hlt : p < ielen) (hid : a.idAt m p = target) :
    ∃ f, attrTurn a m ielen target w p = .done (.stop (some f)) := by
  unfold attrTurn
  rw [if_pos hlt, if_pos hid]
  exact ⟨_, rfl⟩

theorem attrTurn_past {p : Nat} (h : ¬ p < ielen) :
    attrTurn a m ielen target w p = .done (.stop none) := by
  unfold attrTurn
  rw [if_neg h]
  rfl

theorem of_attrTurn_next {p p' : Nat} (h : attrTurn a m ielen target w p = .done (.next p')) :
    p < ielen ∧ a.idAt m p ≠ target ∧ p' = p + attrLen a m p := by
  unfold attrTurn at h
  split at h
  case isFalse => cases h
  case isTrue hlt =>
    split at h
    case isTrue => cases h
    case isFalse hid =>
      cases h
      exact ⟨hlt, hid, rfl⟩

theorem attrLen_eq {p : Nat} (h : a.lenAt m p + a.hdr < 2 ^ 16) :
    attrLen a m p = a.lenAt m p + a.hdr := Nat.mod_eq_of_lt h

/-- While nothing wraps the walk visits the attributes. -/
theorem attrAt_of_visits {p : Nat} (hno : NoWrap a m ielen target)
    (h : Loop.Visits (attrTurn a m ielen target w) 6 p) : AttrAt a m ielen target p := by
  induction h with
  | start => exact .first
  | turn _ hb ih =>
      obtain ⟨hlt, hid, rfl⟩ := of_attrTurn_next hb
      rw [attrLen_eq (hno _ ih hlt hid)]
      exact .behind ih hlt hid

/-- Where every step is a header long, no length has wrapped, so the attributes are visited. -/
theorem visits_of_attrAt (hlen : ∀ p, a.lenAt m p < 2 ^ 16)
    (hadv : ∀ p p', Loop.Visits (attrTurn a m ielen target w) 6 p →
      attrTurn a m ielen target w p = .done (.next p') → p + a.hdr ≤ p') {p : Nat}
    (h : AttrAt a m ielen target p) :
    Loop.Visits (attrTurn a m ielen target w) 6 p
      ∧ (p < ielen → a.idAt m p ≠ target → a.lenAt m p + a.hdr < 2 ^ 16) := by
  have hstep : ∀ p, Loop.Visits (attrTurn a m ielen target w) 6 p →
      p < ielen → a.idAt m p ≠ target → a.lenAt m p + a.hdr < 2 ^ 16 := by
    intro p hv hlt hid
    have hle := hadv p _ hv (attrTurn_next hlt hid)
    have hl := hlen p
    unfold attrLen at hle
    by_contra hge
    -- what is left of the step after the wrap is less than a header
    have hmod : (a.lenAt m p + a.hdr) % 2 ^ 16 ≤ a.lenAt m p + a.hdr - 2 ^ 16 := by
      rw [Nat.mod_eq_sub_mod (by omega)]
      exact Nat.mod_le _ _
    omega
  induction h with
  | first => exact ⟨.start, hstep 6 .start⟩
  | behind _ hlt hid ih =>
      have hv := ih.1.turn (attrTurn_next hlt hid)
      rw [attrLen_eq (ih.2 hlt hid)] at hv
      exact ⟨hv, hstep _ hv⟩

theorem getsOn_iff (hlen : ∀ p, a.lenAt m p < 2 ^ 16) (hhdr : 0 < a.hdr) (oui : List UInt8) :
    GetsOn a m ielen target oui w
      ↔ (m 0 = vendorIe → m.read 2 4 = oui → NoWrap a m ielen target) := by
  constructor
  · intro h h0 ho p hp hlt hid
    exact (visits_of_attrAt hlen (h.1 h0 ho) hp).2 hlt hid
  · intro h
    by_cases hie : m 0 ≠ vendorIe ∨ m.read 2 4 ≠ oui
    · refine ⟨fun h0 ho => ?_, none, ?_⟩
      · rcases hie with hc | hc
        · exact absurd h0 hc
        · exact absurd ho hc
      · unfold attrSearch
        rw [if_pos hie]
    · have hno : NoWrap a m ielen target := by
        rw [not_or, not_not, not_not] at hie
        exact h hie.1 hie.2
      refine ⟨fun _ _ p p' hv hb => ?_, ?_⟩
      · obtain ⟨hlt, hid, rfl⟩ := of_attrTurn_next hb
        rw [attrLen_eq (hno p (attrAt_of_visits hno hv) hlt hid)]
        omega
      · -- what is left of the element falls with every step
        have hends : ∃ r, Loop.Ends (attrTurn a m ielen target w) 6 r ∧ True :=
          Loop.ends_of_measure (AttrAt a m ielen target) (fun p => ielen - p)
          (by
            intro p hp
            by_cases hlt : p < ielen
            · by_cases hid : a.idAt m p = target
              · obtain ⟨f, hf⟩ := attrTurn_hit (w := w) hlt hid
                exact Or.inl ⟨some f, hf, trivial⟩
              · refine Or.inr ⟨_, attrTurn_next hlt hid, ?_⟩
                rw [attrLen_eq (hno p hp hlt hid)]
                exact ⟨.behind hp hlt hid, by omega⟩
            · exact Or.inl ⟨none, attrTurn_past hlt, trivial⟩)
          .first
        obtain ⟨r, hr, -⟩ := hends
        refine ⟨r, ?_⟩
        unfold attrSearch
        rw [if_neg hie]
        exact hr

end

theorem be16_lt (m : Mem) (p : Nat) : m.be16 p < 2 ^ 16 := by
  have h0 := (m p).toNat_lt
  have h1 := (m (p + 1)).toNat_lt
  unfold Mem.be16
  omega

theorem le16_lt (m : Mem) (p : Nat) : m.le16 p < 2 ^ 16 := by
  have h0 := (m p).toNat_lt
  have h1 := (m (p + 1)).toNat_lt
  unfold Mem.le16
  omega

/-- **Attribute searches** get on and end exactly when no attribute in front of the target has a length
that wraps. -/
theorem attr_search_ends_iff (m : Mem) (ielen target : Nat) (w : Wants) :
    (GetsOn wpsLayout m ielen target wpsOui w
      ↔ (m 0 = vendorIe → m.read 2 4 = wpsOui → NoWrap wpsLayout m ielen target))
    ∧ (GetsOn p2pLayout m ielen target p2pOui w
      ↔ (m 0 = vendorIe → m.read 2 4 = p2pOui → NoWrap p2pLayout m ielen target)) :=
  ⟨getsOn_iff (fun p => be16_lt m (p + 2)) (by decide) wpsOui,
    getsOn_iff (fun p => le16_lt m (p + 1)) (by decide) p2pOui⟩

/-- An element of ten bytes with one attribute, of length `0xfffc` for WPS and `0xfffd` for P2P, and
id 1. -/
def hangingWps : Mem := fun k => [221, 8, 0x00, 0x50, 0xf2, 0x04, 0, 1, 0xff, 0xfc].getD k 0

def hangingP2p : Mem := fun k => [221, 8, 0x50, 0x6f, 0x9a, 0x09, 1, 0xfd, 0xff, 0].getD k 0

/-- A step of no bytes is taken for ever. -/
theorem attr_search_hangs :
    ¬ (∃ r, RtwGetWpsAttr hangingWps 10 2 ⟨true, true⟩ r)
      ∧ ¬ ∃ r, RtwGetP2pAttr hangingP2p 10 2 ⟨true, true⟩ r := by
  refine ⟨?_, ?_⟩
  · rintro ⟨r, hr⟩
    unfold RtwGetWpsAttr attrSearch at hr
    rw [if_neg (by decide)] at hr
    exact Loop.not_ends_of_closed (· = 6) (fun s hs => ⟨6, by rw [hs]; rfl, rfl⟩) rfl hr
  · rintro ⟨r, hr⟩
    unfold RtwGetP2pAttr attrSearch at hr
    rw [if_neg (by decide)] at hr
    exact Loop.not_ends_of_closed (· = 6) (fun s hs => ⟨6, by rw [hs]; rfl, rfl⟩) rfl hr

end Rtl8812au.Ies
