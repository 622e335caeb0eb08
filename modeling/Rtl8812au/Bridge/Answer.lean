import Rtl8812au.Bridge.Table

/-!
# Answers

A reply is answered by the short cut or by the database. The invariant says what the two know of an
address whose last frame is young enough; time, old entries and received frames keep it.
-/

namespace Rtl8812au.Nat25

/-! ## Answers -/

/-- The destination of a frame to an address that is not in the database. -/
def Bridge.unknownDa (b : Bridge) (ip : Ip) : MacAddr :=
  if ip.b3 = 0xff then .bcast else if b.brMac = .zero then b.brDevAddr else b.brMac

/-- What the database answers without the short cut: nothing if its entry is too old. -/
def Bridge.dbAnswer (c : Clock) (now : Nat) (b : Bridge) (ip : Ip) : Option MacAddr :=
  match b.scdbFindEntry ip with
  | some e => if e.hasExpired c now then none else some e.macAddr
  | none => some (b.unknownDa ip)

/-- A unicast frame with a whole header. -/
def IpFrame.RxOk (f : IpFrame) : Prop := f.da.isMcast = false ∧ f.malformed = false

/-- Such a frame of a bridged host. -/
def IpFrame.TxOk (f : IpFrame) : Prop := f.RxOk ∧ f.sa ≠ .zero ∧ f.saddr ≠ .zero

/-- The time since `t` is below the ageing time. -/
def Live (c : Clock) (w : World) (t : Nat) : Prop := w.now < t + c.ageing

instance (c : Clock) (w : World) (t : Nat) : Decidable (Live c w t) :=
  inferInstanceAs (Decidable (_ < _))

/-- **Replies reach the last sender**, while its last frame is young enough. -/
def Delivers (c : Clock) (w : World) : Prop :=
  ∀ f : IpFrame, f.RxOk → ∀ m t, w.last f.daddr = some (m, t) → Live c w t →
    (w.br.handleFrame c w.now f).2.1.da = m

section

variable {c : Clock} {now : Nat} {b : Bridge} {f : IpFrame}

theorem handleFrame_da (hf : f.RxOk) :
    (b.handleFrame c now f).2.1.da
      = if b.scdbIp = f.daddr then b.scdbMac else (b.dbAnswer c now f.daddr).getD f.da := by
  unfold Bridge.handleFrame Bridge.dbLookup Bridge.lookupAndReplace Bridge.dbAnswer
    Bridge.scdbFindEntry
  rw [hf.1, hf.2]
  by_cases hip : b.scdbIp = f.daddr
  · simp [hip]
  · cases he : b.findNet (generateIpv4NetworkAddr f.daddr) with
    | none =>
        by_cases hb3 : f.daddr.b3 = 0xff
        · simp [hip, hb3, Bridge.unknownDa]
        · by_cases hbr : b.brMac = .zero
          · simp [hip, hb3, hbr, Bridge.unknownDa]
          · simp [hip, hb3, hbr, Bridge.unknownDa]
    | some e =>
        cases hexp : e.hasExpired c now with
        | true => simp [hip, hexp]
        | false => simp [hip, hexp]

/-- The short cut's answer, or else that of the database. -/
def Bridge.Answers (c : Clock) (now : Nat) (b : Bridge) (ip : Ip) (m : MacAddr) : Prop :=
  if b.scdbIp = ip then b.scdbMac = m else b.dbAnswer c now ip = some m

theorem delivers_iff {w : World} :
    Delivers c w ↔ ∀ ip m t, w.last ip = some (m, t) → Live c w t →
      w.br.Answers c w.now ip m := by
  constructor
  · intro h ip m t hlast hlive
    -- a frame that does not have the answer as its destination already
    obtain ⟨da, hda, hne⟩ : ∃ da : MacAddr, da.isMcast = false ∧ da ≠ m := by
      by_cases hm : m = ⟨2, 0, 0, 0, 0, 0⟩
      · exact ⟨⟨4, 0, 0, 0, 0, 0⟩, by decide, by rw [hm]; decide⟩
      · exact ⟨⟨2, 0, 0, 0, 0, 0⟩, by decide, fun hc => hm hc.symm⟩
    have hf : IpFrame.RxOk ⟨da, .zero, .zero, ip, 5, 100⟩ := ⟨hda, rfl⟩
    have hrun := h ⟨da, .zero, .zero, ip, 5, 100⟩ hf m t hlast hlive
    rw [handleFrame_da hf] at hrun
    unfold Bridge.Answers
    by_cases hip : w.br.scdbIp = ip
    · rw [if_pos hip] at hrun ⊢
      exact hrun
    · rw [if_neg hip] at hrun ⊢
      cases hdb : w.br.dbAnswer c w.now ip with
      | none =>
          dsimp only at hrun
          rw [hdb] at hrun
          exact absurd hrun hne
      | some m' =>
          dsimp only at hrun
          rw [hdb] at hrun
          exact congrArg some hrun
  · intro h f hf m t hlast hlive
    have hans := h f.daddr m t hlast hlive
    rw [handleFrame_da hf]
    unfold Bridge.Answers at hans
    by_cases hip : w.br.scdbIp = f.daddr
    · rw [if_pos hip] at hans ⊢
      exact hans
    · rw [if_neg hip] at hans ⊢
      rw [hans, Option.getD_some]

end

/-! ## The invariant -/

/-- What is known of an address whose last frame came from `m` at `t`: an entry as young as the frame,
with `m` in it unless the short cut has the address, or no entry when `m` is who gets unknown
addresses. -/
def Tracked (b : Bridge) (ip : Ip) (m : MacAddr) (t : Nat) : Prop :=
  (∃ e, b.scdbFindEntry ip = some e ∧ t ≤ e.ageingTimer ∧ (e.macAddr = m ∨ b.scdbIp = ip))
    ∨ b.scdbFindEntry ip = none ∧ b.unknownDa ip = m

/-- The invariant. -/
structure Inv (c : Clock) (w : World) : Prop where
  table : TableInv w.br
  entry : ∀ p, w.br.scdbEntry = some p → ∃ e, w.br.scdbFindEntry w.br.scdbIp = some e ∧ e.ptr = p
  zero : w.last .zero = none
  short : w.br.scdbIp ≠ .zero → ∃ t, w.last w.br.scdbIp = some (w.br.scdbMac, t)
  timer : ∀ ip e, w.br.scdbFindEntry ip = some e → e.ageingTimer ≤ w.now
  lastLe : ∀ ip m t, w.last ip = some (m, t) → t ≤ w.now
  tracked : ∀ ip m t, w.last ip = some (m, t) → Live c w t → Tracked w.br ip m t

section

variable {c : Clock} {w : World}

theorem Inv.start (my br dev : MacAddr) (now : Nat) : Inv c (.start my br dev now) where
  table :=
    { ok := Chained.ok_empty
      ptrInj := fun _ _ _ _ he => nomatch he
      ptrLt := fun _ _ he => nomatch he }
  entry := fun _ hp => nomatch hp
  zero := rfl
  short := fun h => absurd rfl h
  timer := fun _ _ he => nomatch he
  lastLe := fun _ _ _ hl => nomatch hl
  tracked := fun _ _ _ hl => nomatch hl

theorem hasExpired_eq_false {e : DbEntry} {now : Nat} :
    e.hasExpired c now = false ↔ now < e.ageingTimer + c.ageing := by
  unfold DbEntry.hasExpired
  rw [decide_eq_false_iff_not]
  omega

theorem hasExpired_eq_true {e : DbEntry} {now : Nat} :
    e.hasExpired c now = true ↔ e.ageingTimer + c.ageing ≤ now := by
  unfold DbEntry.hasExpired
  rw [decide_eq_true_iff]

/-- The short cut's address was last used by the short cut's host. -/
theorem Inv.short_eq (h : Inv c w) {m : MacAddr} {t : Nat}
    (hlast : w.last w.br.scdbIp = some (m, t)) : w.br.scdbMac = m := by
  have hne : w.br.scdbIp ≠ .zero := by
    intro hz
    rw [hz, h.zero] at hlast
    cases hlast
  obtain ⟨t', ht'⟩ := h.short hne
  rw [hlast] at ht'
  cases ht'
  rfl

theorem Inv.delivers (h : Inv c w) : Delivers c w := by
  refine delivers_iff.mpr ?_
  intro ip m t hlast hlive
  unfold Bridge.Answers Bridge.dbAnswer
  by_cases hip : w.br.scdbIp = ip
  · rw [if_pos hip]
    exact h.short_eq (by rw [hip]; exact hlast)
  · rw [if_neg hip]
    rcases h.tracked ip m t hlast hlive with ⟨e, he, ht, hm⟩ | ⟨he, hm⟩
    · have hfresh : e.hasExpired c w.now = false := by
        rw [hasExpired_eq_false]
        unfold Live at hlive
        omega
      rw [he]
      dsimp only
      rw [hfresh, if_neg Bool.false_ne_true, hm.resolve_right hip]
    · rw [he]
      dsimp only
      rw [hm]

theorem Inv.wait (h : Inv c w) (d : Nat) : Inv c (w.step c (.wait d)) where
  table := h.table
  entry := h.entry
  zero := h.zero
  short := h.short
  timer := fun ip e he => Nat.le_add_right_of_le (h.timer ip e he)
  lastLe := fun ip m t hl => Nat.le_add_right_of_le (h.lastLe ip m t hl)
  tracked := by
    intro ip m t hl hlive
    refine h.tracked ip m t hl ?_
    exact Nat.lt_of_le_of_lt (Nat.le_add_right w.now d) hlive

theorem Inv.expire (h : Inv c w) : Inv c (w.step c .expire) := by
  obtain ⟨htable, hfind⟩ := h.table.expire c w.now
  have hfindIp : ∀ ip, (w.br.dbExpire c w.now).scdbFindEntry ip
      = (w.br.scdbFindEntry ip).bind (expireEntry c w.now) := fun ip => hfind _
  have htimer : ∀ ip e, (w.br.dbExpire c w.now).scdbFindEntry ip = some e →
      e.ageingTimer ≤ w.now := by
    intro ip e he
    rw [hfindIp] at he
    obtain ⟨e₀, he₀, hexp⟩ := Option.bind_eq_some_iff.mp he
    rw [(expireEntry_some hexp).2.2.2]
    exact h.timer ip e₀ he₀
  have hnone : ∀ ip, w.br.scdbFindEntry ip = none →
      (w.br.dbExpire c w.now).scdbFindEntry ip = none := by
    intro ip hn
    rw [hfindIp, hn, Option.bind_none]
  -- an entry as young as a frame that is young enough stays
  have hstay : ∀ ip t e, Live c w t → w.br.scdbFindEntry ip = some e → t ≤ e.ageingTimer →
      (w.br.dbExpire c w.now).scdbFindEntry ip = some e := by
    intro ip t e hlive he ht
    rw [hfindIp, he, Option.bind_some]
    refine expireEntry_live ?_
    rw [hasExpired_eq_false]
    unfold Live at hlive
    omega
  rcases dbExpire_scdb h.table c w.now with
    ⟨hmac, hip, hentry, hkeep⟩ | ⟨hip, hentry, n, e, he, hp, hdrop⟩
  · refine
      { table := htable
        entry := ?_
        zero := h.zero
        short := ?_
        timer := htimer
        lastLe := h.lastLe
        tracked := ?_ }
    · intro p hp
      have hp' : w.br.scdbEntry = some p := hentry.symm.trans hp
      obtain ⟨e, he, hep⟩ := h.entry p hp'
      obtain ⟨e', he'⟩ := Option.ne_none_iff_exists'.mp (hkeep _ e he (by rw [hep]; exact hp'))
      refine ⟨e', ?_, (expireEntry_some he').2.1.trans hep⟩
      show (w.br.dbExpire c w.now).scdbFindEntry (w.br.dbExpire c w.now).scdbIp = some e'
      rw [hip, hfindIp, he, Option.bind_some]
      exact he'
    · intro hne
      show ∃ t, w.last (w.br.dbExpire c w.now).scdbIp = some ((w.br.dbExpire c w.now).scdbMac, t)
      rw [hip, hmac]
      exact h.short fun hz => hne (hip.trans hz)
    · intro ip m t hl hlive
      rcases h.tracked ip m t hl hlive with ⟨e, he, ht, hm⟩ | ⟨hn, hm⟩
      · refine Or.inl ⟨e, hstay ip t e hlive he ht, ht, ?_⟩
        rcases hm with hm | hm
        · exact Or.inl hm
        · exact Or.inr (hip.trans hm)
      · exact Or.inr ⟨hnone ip hn, hm⟩
  · refine
      { table := htable
        entry := ?_
        zero := h.zero
        short := fun hne => absurd hip hne
        timer := htimer
        lastLe := h.lastLe
        tracked := ?_ }
    · intro p hp'
      have hc : (none : Option Nat) = some p := hentry.symm.trans hp'
      cases hc
    · intro ip m t hl hlive
      rcases h.tracked ip m t hl hlive with ⟨x, hx, ht, hm⟩ | ⟨hn, hm⟩
      · refine Or.inl ⟨x, hstay ip t x hlive hx ht, ht, ?_⟩
        rcases hm with hm | hm
        · exact Or.inl hm
        · -- the dropped entry is the short cut's, and too young to be dropped
          exfalso
          obtain ⟨y, hy, hyp⟩ := h.entry e.ptr hp
          rw [hm, hx] at hy
          rw [← Option.some.inj hy] at hyp
          have hn := h.table.ptrInj _ _ _ _ hx he hyp
          have hxe : some x = some e := by
            rw [← hx, ← he, ← hn]
            rfl
          have hlivee := hstay ip t x hlive hx ht
          rw [hfindIp, hx, Option.bind_some, Option.some.inj hxe, hdrop] at hlivee
          cases hlivee
      · exact Or.inr ⟨hnone ip hn, hm⟩

end

/-! ## A received frame -/

/-- What the invariant knows of an entry. -/
def DbEntry.known (e : DbEntry) : Nat × MacAddr × Nat := (e.ptr, e.macAddr, e.ageingTimer)

/-- The same entries, the same short cut, the same answer to an unknown address. -/
structure SameKnown (b b' : Bridge) : Prop where
  table : TableInv b'
  find : ∀ n, (b'.findNet n).map DbEntry.known = (b.findNet n).map DbEntry.known
  mac : b'.scdbMac = b.scdbMac
  ip : b'.scdbIp = b.scdbIp
  entry : b'.scdbEntry = b.scdbEntry
  unknown : ∀ ip, b'.unknownDa ip = b.unknownDa ip

section

variable {c : Clock} {w : World} {b b' : Bridge}

theorem SameKnown.refl (h : TableInv b) : SameKnown b b :=
  ⟨h, fun _ => rfl, rfl, rfl, rfl, fun _ => rfl⟩

/-- Counting a use changes nothing that is known. -/
theorem sameKnown_write (h : TableInv b) (p : Nat) :
    SameKnown b (b.write p fun e => { e with useCount := e.useCount + 1 }) := by
  obtain ⟨htable, hfind⟩ := h.write p (f := fun e => { e with useCount := e.useCount + 1 })
    fun _ => ⟨rfl, rfl⟩
  refine ⟨htable, fun n => ?_, rfl, rfl, rfl, fun _ => rfl⟩
  rw [hfind n]
  cases b.findNet n with
  | none => rfl
  | some e =>
      by_cases hp : e.ptr = p
      · simp [hp, DbEntry.known]
      · simp [hp, DbEntry.known]

theorem sameKnown_brMac (h : TableInv b) (hz : b.brMac = .zero) :
    SameKnown b { b with brMac := b.brDevAddr } := by
  refine ⟨⟨h.ok, h.ptrInj, h.ptrLt⟩, fun _ => rfl, rfl, rfl, rfl, fun ip => ?_⟩
  unfold Bridge.unknownDa
  rw [if_pos hz]
  by_cases hd : b.brDevAddr = .zero
  · rw [if_pos hd]
  · rw [if_neg hd]

theorem handleFrame_known (h : TableInv b) (now : Nat) (f : IpFrame) :
    SameKnown b (b.handleFrame c now f).1 := by
  unfold Bridge.handleFrame
  split
  · exact SameKnown.refl h
  · split
    · exact SameKnown.refl h
    · unfold Bridge.dbLookup Bridge.lookupAndReplace
      split
      · exact SameKnown.refl h
      · cases hfind : b.findNet (generateIpv4NetworkAddr f.daddr) with
        | some e =>
            dsimp only
            by_cases hexp : e.hasExpired c now = true
            · rw [if_pos hexp]
              exact SameKnown.refl h
            · rw [if_neg hexp]
              exact sameKnown_write h e.ptr
        | none =>
            dsimp only
            by_cases hb3 : f.daddr.b3 = 0xff
            · rw [if_pos hb3]
              exact SameKnown.refl h
            · rw [if_neg hb3]
              by_cases hz : b.brMac = .zero
              · rw [if_pos hz]
                exact sameKnown_brMac h hz
              · rw [if_neg hz]
                exact SameKnown.refl h

/-- An entry of one is an entry of the other. -/
theorem SameKnown.found (h : SameKnown b b') {ip : Ip} {e : DbEntry}
    (he : b.scdbFindEntry ip = some e) :
    ∃ e', b'.scdbFindEntry ip = some e' ∧ e'.ptr = e.ptr ∧ e'.macAddr = e.macAddr
      ∧ e'.ageingTimer = e.ageingTimer := by
  have hmap := h.find (generateIpv4NetworkAddr ip)
  unfold Bridge.scdbFindEntry at he ⊢
  rw [he, Option.map_some, Option.map_eq_some_iff] at hmap
  obtain ⟨e', he', hk⟩ := hmap
  simp only [DbEntry.known, Prod.mk.injEq] at hk
  exact ⟨e', he', hk⟩

theorem SameKnown.symm_found (h : SameKnown b b') {ip : Ip} {e' : DbEntry}
    (he : b'.scdbFindEntry ip = some e') :
    ∃ e, b.scdbFindEntry ip = some e ∧ e'.ptr = e.ptr ∧ e'.macAddr = e.macAddr
      ∧ e'.ageingTimer = e.ageingTimer := by
  cases hb : b.scdbFindEntry ip with
  | none =>
      have hmap := h.find (generateIpv4NetworkAddr ip)
      unfold Bridge.scdbFindEntry at he hb
      rw [he, hb] at hmap
      cases hmap
  | some e =>
      obtain ⟨x, hx, hk⟩ := h.found hb
      rw [he] at hx
      cases hx
      exact ⟨e, rfl, hk⟩

theorem Inv.of_known (h : Inv c w) (hs : SameKnown w.br b') : Inv c { w with br := b' } where
  table := hs.table
  entry := by
    intro p hp
    obtain ⟨e, he, hep⟩ := h.entry p (hs.entry.symm.trans hp)
    obtain ⟨e', he', hk⟩ := hs.found he
    refine ⟨e', ?_, hk.1.trans hep⟩
    dsimp only
    rw [hs.ip]
    exact he'
  zero := h.zero
  short := by
    dsimp only
    rw [hs.ip, hs.mac]
    exact h.short
  timer := by
    intro ip e' he'
    obtain ⟨e, he, _, _, ht⟩ := hs.symm_found he'
    rw [ht]
    exact h.timer ip e he
  lastLe := h.lastLe
  tracked := by
    intro ip m t hl hlive
    rcases h.tracked ip m t hl hlive with ⟨e, he, ht, hm⟩ | ⟨hn, hm⟩
    · obtain ⟨e', he', _, hmac, htimer⟩ := hs.found he
      refine Or.inl ⟨e', he', by rw [htimer]; exact ht, ?_⟩
      rw [hmac, hs.ip]
      exact hm
    · refine Or.inr ⟨?_, (hs.unknown ip).trans hm⟩
      cases he' : b'.scdbFindEntry ip with
      | none => rfl
      | some e' =>
          obtain ⟨e, he, _⟩ := hs.symm_found he'
          rw [hn] at he
          cases he

theorem Inv.rx (h : Inv c w) (f : IpFrame) : Inv c (w.step c (.rx f)) :=
  h.of_known (handleFrame_known h.table w.now f)

end

end Rtl8812au.Nat25
