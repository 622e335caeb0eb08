import Rtl8812au.P2p.Attr

/-!
# What an attribute search finds

The content of an attribute as a value of its own, and the copy of it as a copy of so many bytes; and that the
searches are those of `Ies`, which are loops that need not end.
-/

namespace Rtl8812au.P2p

open Copies Ies

/-! ## Looking up -/

/-- The content of what a search found: `none` if it never ends. -/
def contentOf (m : Mem) (hdr : Nat) : Search → Option (Option (List UInt8))
  | .missing => some none
  | .hangs => none
  | .found ptr attrLen =>
    if attrLen = 0 then some none else some (some (m.read (ptr + hdr) (contentLen hdr attrLen)))

/-- The content of an attribute. -/
def lookup (m : Mem) (ie : Nat × Nat) (a : P2pAttr) : Option (Option (List UInt8)) :=
  contentOf m 3 (rtwGetP2pAttr m ie.1 ie.2 a.id)

/-- The attribute, if it is there, has at most `cap` bytes. -/
def AtMost (m : Mem) (ie : Nat × Nat) (a : P2pAttr) (cap : Nat) : Prop :=
  ∀ bs, lookup m ie a = some (some bs) → bs.length ≤ cap

section

variable {m : Mem} {ie : Nat × Nat} {a : P2pAttr} {cap : Nat} {β : Type}

/-- The copy that goes with a content. -/
def copyOf (cap : Nat) : Option (Option (List UInt8)) → Copies (Option (List UInt8))
  | none => ofOption none
  | some none => pure none
  | some (some bs) => copy cap bs.length >>= fun _ => pure (some bs)

theorem copyOf_read (m : Mem) (cap ptr n : Nat) :
    (copy cap n >>= fun _ => pure (some (m.read ptr n))) = copyOf cap (some (some (m.read ptr n))) := by
  show _ = copy cap (m.read ptr n).length >>= fun _ => pure (some (m.read ptr n))
  rw [Mem.length_read]

theorem attrContent_eq (m : Mem) (hdr cap : Nat) (s : Search) :
    attrContent m hdr cap s = copyOf cap (contentOf m hdr s) := by
  cases s with
  | missing => rfl
  | hangs => rfl
  | found ptr attrLen =>
      by_cases hz : attrLen = 0
      · have hcode : attrContent m hdr cap (.found ptr attrLen) = pure none := if_pos hz
        have hcont : contentOf m hdr (.found ptr attrLen) = some none := if_pos hz
        rw [hcode, hcont]
        rfl
      · have hcode : attrContent m hdr cap (.found ptr attrLen)
            = (copy cap (contentLen hdr attrLen) >>= fun _ =>
                pure (some (m.read (ptr + hdr) (contentLen hdr attrLen)))) := if_neg hz
        have hcont : contentOf m hdr (.found ptr attrLen)
            = some (some (m.read (ptr + hdr) (contentLen hdr attrLen))) := if_neg hz
        rw [hcode, hcont]
        exact copyOf_read m cap (ptr + hdr) (contentLen hdr attrLen)

theorem attrContentLen_eq (m : Mem) (hdr : Nat) (s : Search) :
    attrContentLen hdr s = ofOption ((contentOf m hdr s).map (Option.map List.length)) := by
  cases s with
  | missing => rfl
  | hangs => rfl
  | found ptr attrLen =>
      by_cases hz : attrLen = 0
      · have hcont : contentOf m hdr (.found ptr attrLen) = some none := if_pos hz
        rw [hcont]
        exact congrArg pure (if_pos hz)
      · have hcont : contentOf m hdr (.found ptr attrLen)
            = some (some (m.read (ptr + hdr) (contentLen hdr attrLen))) := if_neg hz
        rw [hcont, Option.map_some, Option.map_some, Mem.length_read]
        exact congrArg pure (if_neg hz)

/-- The code's copy in terms of what is found. -/
theorem rtwGetP2pAttrContent_eq :
    rtwGetP2pAttrContent m ie a cap = copyOf cap (lookup m ie a) :=
  attrContent_eq m 3 cap (rtwGetP2pAttr m ie.1 ie.2 a.id)

theorem rtwGetP2pAttrContentLen_eq :
    rtwGetP2pAttrContentLen m ie a = ofOption ((lookup m ie a).map (Option.map List.length)) :=
  attrContentLen_eq m 3 (rtwGetP2pAttr m ie.1 ie.2 a.id)

/-- **A copy of an attribute and what comes behind it.** -/
theorem sound_look (f : Option (List UInt8) → Copies β) :
    Sound (rtwGetP2pAttrContent m ie a cap >>= f)
      ↔ AtMost m ie a cap ∧ ∀ o, lookup m ie a = some o → Sound (f o) := by
  rw [sound_bind, rtwGetP2pAttrContent_eq]
  unfold AtMost
  cases h : lookup m ie a with
  | none => simp [copyOf]
  | some o =>
      cases o with
      | none => simp [copyOf]
      | some bs =>
          unfold copyOf
          dsimp only
          rw [sound_bind, sound_copy]
          constructor
          · intro hs
            refine ⟨fun _ hbs => by cases hbs; exact hs.1.1, ?_⟩
            intro o ho
            cases ho
            refine hs.2 _ ?_
            rw [val_bind, val_copy hs.1.1]
            rfl
          · intro hs
            have hle := hs.1 bs rfl
            refine ⟨⟨hle, fun _ _ => sound_pure _⟩, ?_⟩
            intro o ho
            rw [val_bind, val_copy hle] at ho
            cases ho
            exact hs.2 _ rfl

theorem val_look (h : AtMost m ie a cap) (f : Option (List UInt8) → Copies β) :
    (rtwGetP2pAttrContent m ie a cap >>= f).val = (lookup m ie a).bind fun o => (f o).val := by
  rw [val_bind, rtwGetP2pAttrContent_eq]
  unfold AtMost at h
  cases hl : lookup m ie a with
  | none => rfl
  | some o =>
      cases o with
      | none => rfl
      | some bs =>
          unfold copyOf
          dsimp only
          rw [val_bind, val_copy (h bs hl)]
          rfl

end

/-- One attribute after the other, as long as the searches end. -/
def InOrder (m : Mem) (ie : Nat × Nat) : List (P2pAttr × Nat) → Prop → Prop
  | [], rest => rest
  | (a, cap) :: as, rest => AtMost m ie a cap ∧ (lookup m ie a ≠ none → InOrder m ie as rest)

/-- What is found, if the search ends. -/
def attr (m : Mem) (ie : Nat × Nat) (a : P2pAttr) : Option (List UInt8) := (lookup m ie a).getD none

theorem lookup_ne_none {m : Mem} {ie : Nat × Nat} {a : P2pAttr} {P : Option (List UInt8) → Prop} :
    (∀ o, lookup m ie a = some o → P o) ↔ (lookup m ie a ≠ none → P (attr m ie a)) := by
  unfold attr
  cases lookup m ie a with
  | none => simp
  | some o => simp

/-! ## What the walkers over bytes say -/

section

variable {a : AttrLayout} {m : Mem} {target stop ielen : Nat} {oui : List UInt8} {r : Option Found}

/-- What is found, counted from the element. -/
def Search.toFound (ie : Nat) : Search → Option Found
  | .found ptr len => some ⟨ptr - ie, some len, none⟩
  | _ => none

/-- **The loop is that of `Ies`**: with a turn for every byte it comes to the same, and where it hangs the other
does not end. -/
theorem attrWalk_ends {ie : Nat} (hid : ∀ p, a.idAt (m.shift ie) p = a.idAt m (ie + p))
    (hlen : ∀ p, a.lenAt (m.shift ie) p = a.lenAt m (ie + p)) : ∀ {fuel c : Nat}, ielen ≤ c + fuel →
      (Loop.Ends (attrTurn a (m.shift ie) ielen target ⟨true, false⟩) c r
        ↔ attrWalk a m target (ie + ielen) fuel (ie + c) ≠ .hangs
          ∧ r = (attrWalk a m target (ie + ielen) fuel (ie + c)).toFound ie) := by
  intro fuel
  induction fuel with
  | zero =>
      intro c hfuel
      have hturn : attrTurn a (m.shift ie) ielen target ⟨true, false⟩ c = .done (.stop none) :=
        if_neg (by omega)
      rw [Loop.ends_stop hturn]
      exact ⟨fun h => ⟨nofun, h⟩, And.right⟩
  | succ fuel ih =>
      intro c hfuel
      have hattr : attrLen a (m.shift ie) c = attrLen a m (ie + c) := by
        unfold attrLen
        rw [hlen]
      -- in front of the end: the attribute, or a turn to the next one
      by_cases hin : c < ielen
      · have hstop : ie + c < ie + ielen := Nat.add_lt_add_left hin ie
        by_cases hit : a.idAt m (ie + c) = target
        · have hturn : attrTurn a (m.shift ie) ielen target ⟨true, false⟩ c
              = .done (.stop (some ⟨c, some (attrLen a m (ie + c)), none⟩)) := by
            unfold attrTurn
            rw [if_pos hin, if_pos ((hid c).trans hit), hattr]
            rfl
          rw [Loop.ends_stop hturn, attrWalk, if_pos hstop, if_pos hit]
          simp [Search.toFound]
        · have hturn : attrTurn a (m.shift ie) ielen target ⟨true, false⟩ c
              = .done (.next (c + attrLen a m (ie + c))) := by
            unfold attrTurn
            rw [if_pos hin, if_neg fun h => hit ((hid c).symm.trans h), hattr]
            rfl
          rw [attrWalk, if_pos hstop, if_neg hit]
          by_cases hz : attrLen a m (ie + c) = 0
          · -- the turn comes back to where it was
            rw [if_pos hz]
            rw [hz] at hturn
            refine ⟨fun he => absurd he ?_, fun h => absurd rfl h.1⟩
            exact Loop.not_ends_of_closed (fun s => s = c) (fun s hs => ⟨c, hs ▸ hturn, rfl⟩) rfl
          · rw [if_neg hz, Loop.ends_next hturn, ih (by omega), Nat.add_assoc]
      · have hturn : attrTurn a (m.shift ie) ielen target ⟨true, false⟩ c = .done (.stop none) := if_neg hin
        rw [Loop.ends_stop hturn, attrWalk, if_neg (by omega)]
        exact ⟨fun h => ⟨nofun, h⟩, And.right⟩

/-- **The two models of an attribute search agree.** -/
theorem attrSearch_iff {ie : Nat} (hid : ∀ p, a.idAt (m.shift ie) p = a.idAt m (ie + p))
    (hlen : ∀ p, a.lenAt (m.shift ie) p = a.lenAt m (ie + p)) :
    attrSearch a (m.shift ie) ielen target ⟨true, false⟩ oui r
      ↔ attrOf a oui m ie ielen target ≠ .hangs ∧ r = (attrOf a oui m ie ielen target).toFound ie := by
  have hread : (m.shift ie).read 2 4 = m.read (ie + 2) 4 := rfl
  have hfirst : m.shift ie 0 = m ie := rfl
  unfold attrSearch attrOf
  rw [hread, hfirst]
  by_cases hit : m ie = vendorIe ∧ m.read (ie + 2) 4 = oui
  · rw [if_neg (by simp [hit.1, hit.2]), if_pos hit]
    exact attrWalk_ends hid hlen (by omega)
  · rw [if_pos (not_and_or.mp hit), if_neg hit]
    exact ⟨fun h => ⟨nofun, h⟩, And.right⟩

theorem rtwGetP2pAttr_iff {ie : Nat} : Ies.RtwGetP2pAttr (m.shift ie) ielen target ⟨true, false⟩ r
    ↔ rtwGetP2pAttr m ie ielen target ≠ .hangs ∧ r = (rtwGetP2pAttr m ie ielen target).toFound ie :=
  attrSearch_iff (fun _ => rfl) fun _ => rfl

theorem rtwGetWpsAttr_iff {ie : Nat} : Ies.RtwGetWpsAttr (m.shift ie) ielen target ⟨true, false⟩ r
    ↔ rtwGetWpsAttr m ie ielen target ≠ .hangs ∧ r = (rtwGetWpsAttr m ie ielen target).toFound ie :=
  attrSearch_iff (fun _ => rfl) fun _ => rfl

end

end Rtl8812au.P2p
