import Rtl8812au.Bridge.Answer
import Rtl8812au.Lib.Reach

/-!
# Who gets a reply

The database and the short cut together are to answer with the last sender. A frame of another address
than the short cut's keeps the invariant only when the database needs no correction. A host that
transmits under a second address does not keep it: the frame is not entered at all.
-/

namespace Rtl8812au.Nat25

/-! ## A transmitted frame -/

/-- The database alone would answer with the last sender. -/
def DbRight (c : Clock) (w : World) (ip : Ip) : Prop :=
  ∀ m t, w.last ip = some (m, t) → Live c w t → w.br.dbAnswer c w.now ip = some m

/-- The database has the frame's sender under the frame's address, and will have it as long as if the
frame had been entered now. -/
def Entered (w : World) (f : IpFrame) : Prop :=
  (∃ e, w.br.scdbFindEntry f.saddr = some e ∧ e.macAddr = f.sa ∧ e.ageingTimer = w.now)
    ∨ w.br.scdbFindEntry f.saddr = none ∧ w.br.unknownDa f.saddr = f.sa

/-- The frames that do no harm. A host whose short cut has an entry transmits under the short cut's
address; a short cut that moves to another address, or is given up, is not needed for its old one; and
a sender whose address has no entry does not find that address in a short cut of another host. -/
structure Harmless (c : Clock) (w : World) (f : IpFrame) : Prop where
  same : w.br.scdbMac = f.sa → w.br.scdbEntry ≠ none →
    w.br.scdbIp = f.saddr ∨ Entered w f
  moved : (w.br.scdbMac = f.sa ∧ w.br.scdbEntry = none
      ∨ w.br.scdbMac ≠ f.sa ∧ w.br.scdbFindEntry f.saddr ≠ none) →
    w.br.scdbIp = f.saddr ∨ DbRight c w w.br.scdbIp
  stale : w.br.scdbMac ≠ f.sa → w.br.scdbFindEntry f.saddr = none → w.br.scdbIp ≠ f.saddr

section

variable {c : Clock} {w : World} {f : IpFrame}

theorem networkInsert_scdb (b : Bridge) (now : Nat) (mac : MacAddr) (n : NetworkAddr) :
    (b.networkInsert now mac n).scdbMac = b.scdbMac
      ∧ (b.networkInsert now mac n).scdbIp = b.scdbIp
      ∧ (b.networkInsert now mac n).scdbEntry = b.scdbEntry
      ∧ ∀ ip, (b.networkInsert now mac n).unknownDa ip = b.unknownDa ip := by
  unfold Bridge.networkInsert
  split
  · exact ⟨rfl, rfl, rfl, fun _ => rfl⟩
  · exact ⟨rfl, rfl, rfl, fun _ => rfl⟩

theorem dbInsert_eq (hf : f.TxOk) (b : Bridge) (now : Nat) :
    b.dbInsert now f = (b.networkInsert now f.sa (generateIpv4NetworkAddr f.saddr), 0) := by
  unfold Bridge.dbInsert
  rw [hf.1.2, if_neg Bool.false_ne_true, if_neg hf.2.2]

theorem shortCut_some {b : Bridge} {p : Nat} (h : b.shortCut f = some p) :
    b.scdbMac = f.sa ∧ b.scdbEntry = some p := by
  unfold Bridge.shortCut at h
  split at h
  case isTrue hcond => exact ⟨hcond.2.2.2, h⟩
  case isFalse => cases h

/-- The four ways a frame is taken. -/
theorem clientTx_cases (hf : f.TxOk) (b : Bridge) (now : Nat) : ∃ ip : Ip,
    (b.scdbMac = f.sa ∧ ∃ p, b.scdbEntry = some p
        ∧ (b.clientTx now f).1 = Bridge.touch now { b with brIp := ip } p)
      ∨ (b.scdbMac = f.sa ∧ b.scdbEntry = none ∧ (b.clientTx now f).1
          = Bridge.networkInsert now { b with brIp := ip, scdbMac := .zero, scdbIp := .zero } f.sa
              (generateIpv4NetworkAddr f.saddr))
      ∨ (b.scdbMac ≠ f.sa ∧ ∃ e, b.scdbFindEntry f.saddr = some e ∧ (b.clientTx now f).1
          = Bridge.touch now { b with
              brIp := ip, scdbEntry := some e.ptr, scdbMac := f.sa, scdbIp := f.saddr } e.ptr)
      ∨ (b.scdbMac ≠ f.sa ∧ b.scdbFindEntry f.saddr = none ∧ (b.clientTx now f).1
          = Bridge.networkInsert now { b with brIp := ip, scdbEntry := none } f.sa
              (generateIpv4NetworkAddr f.saddr)) := by
  cases hsc : b.shortCut f with
  | some p =>
      refine ⟨b.brIp, Or.inl ⟨(shortCut_some hsc).1, p, (shortCut_some hsc).2, ?_⟩⟩
      unfold Bridge.clientTx
      rw [hsc]
  | none =>
      refine ⟨if f.sa = b.brMac then f.saddr else b.brIp, ?_⟩
      have hb : (if f.sa = b.brMac then { b with brIp := f.saddr } else b)
          = { b with brIp := if f.sa = b.brMac then f.saddr else b.brIp } := by
        split <;> rfl
      unfold Bridge.clientTx
      rw [hsc]
      dsimp only
      rw [hb]
      generalize (if f.sa = b.brMac then f.saddr else b.brIp) = ip
      unfold Bridge.scdbUpdate
      dsimp only
      by_cases hmac : b.scdbMac = f.sa
      · rw [if_neg (not_not_intro hmac)]
        cases hent : b.scdbEntry with
        | some p => exact Or.inl ⟨hmac, p, rfl, rfl⟩
        | none =>
            refine Or.inr (Or.inl ⟨hmac, rfl, ?_⟩)
            dsimp only
            rw [dbInsert_eq hf]
            rfl
      · rw [if_pos hmac]
        refine Or.inr (Or.inr ?_)
        -- the field that was written is not one the search looks at
        have hsame : Bridge.scdbFindEntry { b with brIp := ip } f.saddr = b.scdbFindEntry f.saddr := rfl
        rw [hsame]
        cases he : b.scdbFindEntry f.saddr with
        | some e => exact Or.inl ⟨hmac, e, rfl, rfl⟩
        | none =>
            refine Or.inr ⟨hmac, rfl, ?_⟩
            dsimp only
            rw [dbInsert_eq hf]
            rfl

theorem TableInv.touch {b : Bridge} (h : TableInv b) {x : Ip} {e : DbEntry}
    (he : b.scdbFindEntry x = some e) (now : Nat) :
    TableInv (b.touch now e.ptr) ∧ ∀ ip, (b.touch now e.ptr).scdbFindEntry ip
      = if ip = x then some { e with ageingTimer := now } else b.scdbFindEntry ip := by
  have hf : ∀ e : DbEntry, ({ e with ageingTimer := now } : DbEntry).networkAddr = e.networkAddr
      ∧ ({ e with ageingTimer := now } : DbEntry).ptr = e.ptr := fun _ => ⟨rfl, rfl⟩
  refine ⟨(h.write e.ptr hf).1, fun ip => ?_⟩
  have hfind := h.findNet_write hf he (generateIpv4NetworkAddr ip)
  by_cases hip : ip = x
  · rw [if_pos (by rw [hip])] at hfind
    rw [if_pos hip]
    exact hfind
  · rw [if_neg fun hg => hip (generateIpv4NetworkAddr_inj hg)] at hfind
    rw [if_neg hip]
    exact hfind

theorem TableInv.insertIp {b : Bridge} (h : TableInv b) (now : Nat) (mac : MacAddr) (x : Ip) :
    TableInv (b.networkInsert now mac (generateIpv4NetworkAddr x))
      ∧ (∃ e, (b.networkInsert now mac (generateIpv4NetworkAddr x)).scdbFindEntry x = some e
          ∧ e.macAddr = mac ∧ e.ageingTimer = now)
      ∧ ∀ ip, ip ≠ x → (b.networkInsert now mac (generateIpv4NetworkAddr x)).scdbFindEntry ip
          = b.scdbFindEntry ip := by
  obtain ⟨htable, ⟨e, he, hm, ht, _⟩, hother⟩ := h.insert now mac (generateIpv4NetworkAddr x)
  exact ⟨htable, ⟨e, he, hm, ht⟩,
    fun ip hip => hother _ fun hg => hip (generateIpv4NetworkAddr_inj hg)⟩

/-- What a transmission leaves: the database, with at most one entry more or renewed, and the short
cut at its old address, at the frame's, or cleared. -/
structure TxLeaves (w : World) (f : IpFrame) (b' : Bridge) : Prop where
  table : TableInv b'
  entry : ∀ p, b'.scdbEntry = some p → ∃ e, b'.scdbFindEntry b'.scdbIp = some e ∧ e.ptr = p
  unknown : ∀ ip, b'.unknownDa ip = w.br.unknownDa ip
  others : ∀ ip, ip ≠ f.saddr → b'.scdbFindEntry ip = w.br.scdbFindEntry ip
    ∨ ∃ e, w.br.scdbFindEntry ip = some e
      ∧ b'.scdbFindEntry ip = some { e with ageingTimer := w.now }
  own : ∀ e, b'.scdbFindEntry f.saddr = some e → e.ageingTimer ≤ w.now

/-- The frame refreshes the short cut's entry. -/
theorem Inv.tx_refresh (h : Inv c w) {p : Nat} (hp : w.br.scdbEntry = some p) (ip : Ip) :
    TxLeaves w f (Bridge.touch w.now { w.br with brIp := ip } p)
      ∧ (∃ e, w.br.scdbFindEntry w.br.scdbIp = some e)
      ∧ ∀ x, (Bridge.touch w.now { w.br with brIp := ip } p).scdbFindEntry x
        = if x = w.br.scdbIp
          then (w.br.scdbFindEntry x).map fun e => { e with ageingTimer := w.now }
          else w.br.scdbFindEntry x := by
  obtain ⟨e, he, rfl⟩ := h.entry p hp
  have hb : TableInv { w.br with brIp := ip } := ⟨h.table.ok, h.table.ptrInj, h.table.ptrLt⟩
  obtain ⟨htable, hfind⟩ := hb.touch (x := w.br.scdbIp) (e := e) he w.now
  refine ⟨⟨htable, ?_, fun _ => rfl, ?_, ?_⟩, ⟨e, he⟩, ?_⟩
  · intro q hq
    have hq' : some e.ptr = some q := hp.symm.trans hq
    refine ⟨{ e with ageingTimer := w.now }, ?_, Option.some.inj hq'⟩
    exact (hfind w.br.scdbIp).trans (if_pos rfl)
  · intro x _
    by_cases hx : x = w.br.scdbIp
    · refine Or.inr ⟨e, by rw [hx]; exact he, ?_⟩
      exact (hfind x).trans (if_pos hx)
    · exact Or.inl ((hfind x).trans (if_neg hx))
  · intro e' he'
    rw [hfind] at he'
    by_cases hx : f.saddr = w.br.scdbIp
    · rw [if_pos hx] at he'
      cases he'
      exact Nat.le_refl _
    · rw [if_neg hx] at he'
      exact h.timer _ e' he'
  · intro x
    rw [hfind x]
    by_cases hx : x = w.br.scdbIp
    · rw [if_pos hx, if_pos hx, hx, he, Option.map_some]
    · rw [if_neg hx, if_neg hx]
      rfl

/-- The short cut moves to the frame's address. -/
theorem Inv.tx_move (h : Inv c w) {e : DbEntry} (he : w.br.scdbFindEntry f.saddr = some e)
    (ip : Ip) :
    TxLeaves w f (Bridge.touch w.now { w.br with
        brIp := ip, scdbEntry := some e.ptr, scdbMac := f.sa, scdbIp := f.saddr } e.ptr)
      ∧ ∀ x, (Bridge.touch w.now { w.br with
          brIp := ip, scdbEntry := some e.ptr, scdbMac := f.sa, scdbIp := f.saddr } e.ptr).scdbFindEntry x
        = if x = f.saddr then some { e with ageingTimer := w.now } else w.br.scdbFindEntry x := by
  have hb : TableInv { w.br with
      brIp := ip, scdbEntry := some e.ptr, scdbMac := f.sa, scdbIp := f.saddr } :=
    ⟨h.table.ok, h.table.ptrInj, h.table.ptrLt⟩
  obtain ⟨htable, hfind⟩ := hb.touch (x := f.saddr) (e := e) he w.now
  refine ⟨⟨htable, ?_, fun _ => rfl, ?_, ?_⟩, hfind⟩
  · intro q hq
    have hq' : some e.ptr = some q := hq
    exact ⟨{ e with ageingTimer := w.now }, (hfind f.saddr).trans (if_pos rfl), Option.some.inj hq'⟩
  · intro x hx
    exact Or.inl ((hfind x).trans (if_neg hx))
  · intro e' he'
    rw [hfind, if_pos rfl] at he'
    cases he'
    exact Nat.le_refl _

/-- The frame is entered; the short cut keeps no entry. -/
theorem Inv.tx_insert (h : Inv c w) {b : Bridge} (hnet : b.nethash = w.br.nethash)
    (hptr : b.nextPtr = w.br.nextPtr) (hnone : b.scdbEntry = none)
    (hun : ∀ ip, b.unknownDa ip = w.br.unknownDa ip) :
    TxLeaves w f (b.networkInsert w.now f.sa (generateIpv4NetworkAddr f.saddr))
      ∧ (∃ e, (b.networkInsert w.now f.sa (generateIpv4NetworkAddr f.saddr)).scdbFindEntry f.saddr
          = some e ∧ e.macAddr = f.sa ∧ e.ageingTimer = w.now)
      ∧ ∀ ip, ip ≠ f.saddr →
        (b.networkInsert w.now f.sa (generateIpv4NetworkAddr f.saddr)).scdbFindEntry ip
          = w.br.scdbFindEntry ip := by
  have hfb : ∀ n, b.findNet n = w.br.findNet n := by
    intro n
    unfold Bridge.findNet
    rw [hnet]
  have hb : TableInv b := by
    refine ⟨by rw [hnet]; exact h.table.ok, ?_, ?_⟩
    · intro n n' e e' he he'
      rw [hfb] at he he'
      exact h.table.ptrInj n n' e e' he he'
    · intro n e he
      rw [hfb] at he
      rw [hptr]
      exact h.table.ptrLt n e he
  obtain ⟨htable, ⟨e, he, hm, ht⟩, hother⟩ := hb.insertIp w.now f.sa f.saddr
  have hother' : ∀ ip, ip ≠ f.saddr →
      (b.networkInsert w.now f.sa (generateIpv4NetworkAddr f.saddr)).scdbFindEntry ip
        = w.br.scdbFindEntry ip := fun ip hip => (hother ip hip).trans (hfb _)
  obtain ⟨_, _, hentry, hunk⟩ := networkInsert_scdb b w.now f.sa (generateIpv4NetworkAddr f.saddr)
  refine ⟨⟨htable, ?_, fun ip => (hunk ip).trans (hun ip), fun ip hip => Or.inl (hother' ip hip), ?_⟩,
    ⟨e, he, hm, ht⟩, hother'⟩
  · intro p hp
    rw [hentry, hnone] at hp
    cases hp
  · intro e' he'
    rw [he] at he'
    cases he'
    exact Nat.le_of_eq ht

/-- The invariant after a frame: the sender is tracked, and a short cut that is gone from an address
was not needed there. -/
theorem Inv.tx_of_leaves (h : Inv c w) (hf : f.TxOk) {b' : Bridge} (hl : TxLeaves w f b')
    (hown : Tracked b' f.saddr f.sa w.now)
    (hshort : b'.scdbIp = f.saddr ∧ b'.scdbMac = f.sa ∨ b'.scdbIp = .zero
      ∨ b'.scdbIp ≠ f.saddr ∧ b'.scdbIp = w.br.scdbIp ∧ b'.scdbMac = w.br.scdbMac)
    (hdrop : b'.scdbIp = w.br.scdbIp ∨ w.br.scdbIp = f.saddr ∨ DbRight c w w.br.scdbIp) :
    Inv c { w with br := b', last := Function.update w.last f.saddr (some (f.sa, w.now)) } where
  table := hl.table
  entry := hl.entry
  zero := by
    dsimp only
    rw [Function.update_of_ne (fun hz => hf.2.2 hz.symm)]
    exact h.zero
  short := by
    intro hne
    dsimp only at hne ⊢
    -- the short cut is the sender, none, or the one of before for another address
    rcases hshort with ⟨hip, hmac⟩ | hz | ⟨hip, hsame, hmac⟩
    · rw [hip, hmac, Function.update_self]
      exact ⟨w.now, rfl⟩
    · exact absurd hz hne
    · rw [Function.update_of_ne hip, hmac, hsame]
      rw [hsame] at hne
      exact h.short hne
  timer := by
    intro ip e' he'
    by_cases hip : ip = f.saddr
    · rw [hip] at he'
      exact hl.own e' he'
    -- an entry of another address is at most refreshed
    · rcases hl.others ip hip with hsame | ⟨e, he, hnew⟩
      · exact h.timer ip e' (hsame.symm.trans he')
      · have heq : some { e with ageingTimer := w.now } = some e' := hnew.symm.trans he'
        cases heq
        exact Nat.le_refl _
  lastLe := by
    intro ip m t hlast
    dsimp only at hlast
    by_cases hip : ip = f.saddr
    · rw [hip, Function.update_self] at hlast
      cases hlast
      exact Nat.le_refl _
    · rw [Function.update_of_ne hip] at hlast
      exact h.lastLe ip m t hlast
  tracked := by
    intro ip m t hlast hlive
    dsimp only at hlast
    by_cases hip : ip = f.saddr
    · rw [hip, Function.update_self] at hlast
      cases hlast
      rw [hip]
      exact hown
    · rw [Function.update_of_ne hip] at hlast
      -- a host is tracked by its entry, or by the short cut to it
      rcases h.tracked ip m t hlast hlive with ⟨e, he, ht, hm⟩ | ⟨hn, hm⟩
      · -- a short cut that is gone leaves an entry with the sender in it
        have hm' : e.macAddr = m ∨ b'.scdbIp = ip := by
          rcases hm with hm | hm
          · exact Or.inl hm
          · rcases hdrop with hd | hd | hd
            · exact Or.inr (hd.trans hm)
            · exact absurd (hm.symm.trans hd) hip
            · rw [hm] at hd
              have hans := hd m t hlast hlive
              unfold Bridge.dbAnswer at hans
              rw [he] at hans
              dsimp only at hans
              split at hans
              · cases hans
              · exact Or.inl (Option.some.inj hans)
        rcases hl.others ip hip with hsame | ⟨e₀, he₀, hnew⟩
        · exact Or.inl ⟨e, hsame.trans he, ht, hm'⟩
        · rw [he] at he₀
          cases he₀
          exact Or.inl ⟨_, hnew, h.lastLe ip m t hlast, hm'⟩
      · refine Or.inr ⟨?_, (hl.unknown ip).trans hm⟩
        rcases hl.others ip hip with hsame | ⟨e₀, he₀, _⟩
        · exact hsame.trans hn
        · rw [hn] at he₀
          cases he₀

/-- A harmless frame keeps the invariant. -/
theorem Inv.tx (h : Inv c w) (hf : f.TxOk) (hh : Harmless c w f) : Inv c (w.step c (.tx f)) := by
  obtain ⟨ip, hcase⟩ := clientTx_cases hf w.br w.now
  unfold World.step
  dsimp only
  rcases hcase with ⟨hmac, p, hp, heq⟩ | ⟨hmac, hnone, heq⟩ | ⟨hmac, e, he, heq⟩
    | ⟨hmac, hnone, heq⟩
  · rw [heq]
    -- the short cut serves the frame: only its own entry is refreshed
    obtain ⟨hl, ⟨e, he⟩, hfind⟩ := h.tx_refresh (f := f) hp ip
    refine h.tx_of_leaves hf hl ?_ ?_ (Or.inl rfl)
    · rcases hh.same hmac (by rw [hp]; exact nofun) with hip | hent
      · refine Or.inl ⟨{ e with ageingTimer := w.now }, ?_, Nat.le_refl _, Or.inr hip⟩
        rw [hfind, if_pos hip.symm, ← hip, he, Option.map_some]
      · by_cases hip : f.saddr = w.br.scdbIp
        · refine Or.inl ⟨{ e with ageingTimer := w.now }, ?_, Nat.le_refl _, Or.inr hip.symm⟩
          rw [hfind, if_pos hip, hip, he, Option.map_some]
        · rcases hent with ⟨e', he', hm, ht⟩ | ⟨hn, hu⟩
          · refine Or.inl ⟨e', ?_, Nat.le_of_eq ht.symm, Or.inl hm⟩
            rw [hfind, if_neg hip]
            exact he'
          · refine Or.inr ⟨?_, hu⟩
            rw [hfind, if_neg hip]
            exact hn
    · by_cases hip : w.br.scdbIp = f.saddr
      · exact Or.inl ⟨hip, hmac⟩
      · exact Or.inr (Or.inr ⟨hip, rfl, rfl⟩)
  · rw [heq]
    -- a sender without an entry is entered, and the short cut is cleared
    obtain ⟨hl, ⟨e, he, hm, ht⟩, _⟩ := h.tx_insert (f := f)
      (b := { w.br with brIp := ip, scdbMac := .zero, scdbIp := .zero }) rfl rfl hnone fun _ => rfl
    obtain ⟨_, hip', _⟩ := networkInsert_scdb
      { w.br with brIp := ip, scdbMac := .zero, scdbIp := .zero } w.now f.sa
      (generateIpv4NetworkAddr f.saddr)
    exact h.tx_of_leaves hf hl (Or.inl ⟨e, he, Nat.le_of_eq ht.symm, Or.inl hm⟩)
      (Or.inr (Or.inl hip')) (Or.inr (hh.moved (Or.inl ⟨hmac, hnone⟩)))
  · rw [heq]
    -- an entry of the address is handed to the sender
    obtain ⟨hl, hfind⟩ := h.tx_move he ip
    refine h.tx_of_leaves hf hl ?_ (Or.inl ⟨rfl, rfl⟩)
      (Or.inr (hh.moved (Or.inr ⟨hmac, by rw [he]; exact nofun⟩)))
    exact Or.inl ⟨{ e with ageingTimer := w.now }, (hfind f.saddr).trans (if_pos rfl),
      Nat.le_refl _, Or.inr rfl⟩
  · rw [heq]
    obtain ⟨hl, ⟨e, he, hm, ht⟩, _⟩ := h.tx_insert (f := f)
      (b := { w.br with brIp := ip, scdbEntry := none }) rfl rfl rfl fun _ => rfl
    obtain ⟨hmac', hip', _⟩ := networkInsert_scdb
      { w.br with brIp := ip, scdbEntry := none } w.now f.sa (generateIpv4NetworkAddr f.saddr)
    have hne : w.br.scdbIp ≠ f.saddr := hh.stale hmac hnone
    exact h.tx_of_leaves hf hl (Or.inl ⟨e, he, Nat.le_of_eq ht.symm, Or.inl hm⟩)
      (Or.inr (Or.inr ⟨by rw [hip']; exact hne, hip', hmac'⟩)) (Or.inl hip')

/-! ## Harm -/

/-- Some time after the frame a reply would go astray. -/
def Harm (c : Clock) (w : World) (f : IpFrame) : Prop :=
  ∃ d, ¬ Delivers c ((w.step c (.tx f)).step c (.wait d))

/-- An address that is answered wrongly, `d` after the frame. -/
theorem harm_of_answer {d : Nat} {ip : Ip} {m : MacAddr} {t : Nat}
    (hlast : (w.step c (.tx f)).last ip = some (m, t)) (hlive : w.now + d < t + c.ageing)
    (hans : ¬ (w.br.clientTx w.now f).1.Answers c (w.now + d) ip m) : Harm c w f :=
  ⟨d, fun hd => hans (delivers_iff.mp hd ip m t hlast hlive)⟩

theorem last_tx_self : (w.step c (.tx f)).last f.saddr = some (f.sa, w.now) :=
  Function.update_self f.saddr _ w.last

theorem last_tx_ne {ip : Ip} (h : ip ≠ f.saddr) : (w.step c (.tx f)).last ip = w.last ip :=
  Function.update_of_ne h _ w.last

theorem ageing_pos (c : Clock) : 0 < c.ageing := Nat.mul_pos (by decide) c.pos

/-- What the database answers depends on the entry of the address and on who gets unknown ones. -/
theorem dbAnswer_congr {b b' : Bridge} {ip : Ip} {now : Nat}
    (hfind : b'.scdbFindEntry ip = b.scdbFindEntry ip)
    (hun : ∀ ip, b'.unknownDa ip = b.unknownDa ip) :
    b'.dbAnswer c now ip = b.dbAnswer c now ip := by
  unfold Bridge.dbAnswer
  rw [hfind, hun]

/-- A host transmits under a second address. -/
theorem Inv.harm_second (h : Inv c w) (hf : f.TxOk) (hmac : w.br.scdbMac = f.sa)
    (hent : w.br.scdbEntry ≠ none) (hip : w.br.scdbIp ≠ f.saddr) (hne : ¬ Entered w f) :
    Harm c w f := by
  obtain ⟨ip, ⟨_, p, hp, heq⟩ | ⟨_, hn, _⟩ | ⟨hc, _⟩ | ⟨hc, _⟩⟩ := clientTx_cases hf w.br w.now
  · obtain ⟨hl, _, hfind⟩ := h.tx_refresh (f := f) hp ip
    have hsame : (w.br.clientTx w.now f).1.scdbFindEntry f.saddr = w.br.scdbFindEntry f.saddr := by
      rw [heq, hfind, if_neg fun hc => hip hc.symm]
    have hun : ∀ x, (w.br.clientTx w.now f).1.unknownDa x = w.br.unknownDa x := by
      rw [heq]
      exact hl.unknown
    have hsc : (w.br.clientTx w.now f).1.scdbIp ≠ f.saddr := by
      rw [heq]
      exact hip
    -- the database has another answer by the time its entry is too old
    have hbad : ∃ d, d < c.ageing ∧ w.br.dbAnswer c (w.now + d) f.saddr ≠ some f.sa := by
      unfold Bridge.dbAnswer
      cases he : w.br.scdbFindEntry f.saddr with
      | none =>
          refine ⟨0, ageing_pos c, ?_⟩
          intro hans
          exact hne (Or.inr ⟨he, Option.some.inj hans⟩)
      | some e =>
          have htimer := h.timer _ e he
          by_cases hm : e.macAddr = f.sa
          · have hlt : e.ageingTimer < w.now :=
              Nat.lt_of_le_of_ne htimer fun ht => hne (Or.inl ⟨e, he, hm, ht⟩)
            refine ⟨e.ageingTimer + c.ageing - w.now, by have := ageing_pos c; omega, ?_⟩
            have hexp : e.hasExpired c (w.now + (e.ageingTimer + c.ageing - w.now)) = true := by
              rw [hasExpired_eq_true]
              omega
            dsimp only
            rw [if_pos hexp]
            exact nofun
          · refine ⟨0, ageing_pos c, ?_⟩
            dsimp only
            split
            · exact nofun
            · exact fun hans => hm (Option.some.inj hans)
    obtain ⟨d, hd, hans⟩ := hbad
    refine harm_of_answer (d := d) last_tx_self (by omega) ?_
    unfold Bridge.Answers
    rw [if_neg hsc, dbAnswer_congr hsame hun]
    exact hans
  · exact absurd hn hent
  · exact absurd hmac hc
  · exact absurd hmac hc

/-- The short cut leaves an address whose entry was never corrected. -/
theorem Inv.harm_moved (h : Inv c w) (hf : f.TxOk)
    (hcase : w.br.scdbMac = f.sa ∧ w.br.scdbEntry = none
      ∨ w.br.scdbMac ≠ f.sa ∧ w.br.scdbFindEntry f.saddr ≠ none)
    (hip : w.br.scdbIp ≠ f.saddr) (hwrong : ¬ DbRight c w w.br.scdbIp) : Harm c w f := by
  unfold DbRight at hwrong
  push Not at hwrong
  obtain ⟨m, t, hlast, hlive, hans⟩ := hwrong
  have hnz : w.br.scdbIp ≠ .zero := by
    intro hz
    rw [hz, h.zero] at hlast
    cases hlast
  -- the short cut is somewhere else afterwards, and the entry as it was
  obtain ⟨hsc, hsame, hun⟩ : (w.br.clientTx w.now f).1.scdbIp ≠ w.br.scdbIp
      ∧ (w.br.clientTx w.now f).1.scdbFindEntry w.br.scdbIp = w.br.scdbFindEntry w.br.scdbIp
      ∧ ∀ x, (w.br.clientTx w.now f).1.unknownDa x = w.br.unknownDa x := by
    obtain ⟨ip, ⟨hmac, p, hp, _⟩ | ⟨_, hn, heq⟩ | ⟨_, e, he, heq⟩ | ⟨hmac, hn, _⟩⟩ :=
      clientTx_cases hf w.br w.now
    · rcases hcase with ⟨_, hn⟩ | ⟨hc, _⟩
      · rw [hn] at hp
        cases hp
      · exact absurd hmac hc
    · obtain ⟨hl, _, hfind⟩ := h.tx_insert (f := f)
        (b := { w.br with brIp := ip, scdbMac := .zero, scdbIp := .zero }) rfl rfl hn fun _ => rfl
      obtain ⟨_, hip', _⟩ := networkInsert_scdb
        { w.br with brIp := ip, scdbMac := .zero, scdbIp := .zero } w.now f.sa
        (generateIpv4NetworkAddr f.saddr)
      rw [heq]
      exact ⟨fun hc => hnz (hc.symm.trans hip'), hfind _ hip, hl.unknown⟩
    · obtain ⟨hl, hfind⟩ := h.tx_move he ip
      rw [heq]
      exact ⟨fun hc => hip hc.symm, (hfind _).trans (if_neg hip), hl.unknown⟩
    · rcases hcase with ⟨hc, _⟩ | ⟨_, hs⟩
      · exact absurd hc hmac
      · exact absurd hn hs
  refine harm_of_answer (d := 0) ((last_tx_ne hip).trans hlast) hlive ?_
  unfold Bridge.Answers
  rw [if_neg hsc, dbAnswer_congr hsame hun]
  exact hans

/-- An address comes back with another host while the short cut still has the old one. -/
theorem Inv.harm_stale (hf : f.TxOk) (hmac : w.br.scdbMac ≠ f.sa)
    (hnone : w.br.scdbFindEntry f.saddr = none) (hip : w.br.scdbIp = f.saddr) : Harm c w f := by
  obtain ⟨ip, ⟨hc, _⟩ | ⟨hc, _⟩ | ⟨_, e, he, _⟩ | ⟨_, _, heq⟩⟩ := clientTx_cases hf w.br w.now
  · exact absurd hc hmac
  · exact absurd hc hmac
  · rw [hnone] at he
    cases he
  · obtain ⟨hmac', hip', _⟩ := networkInsert_scdb
      { w.br with brIp := ip, scdbEntry := none } w.now f.sa (generateIpv4NetworkAddr f.saddr)
    refine harm_of_answer (d := 0) last_tx_self (by have := ageing_pos c; omega) ?_
    unfold Bridge.Answers
    rw [heq, if_pos (hip'.trans hip), hmac']
    exact hmac

/-- A frame does no harm exactly when it is harmless. -/
theorem Inv.harmless_iff (h : Inv c w) (hf : f.TxOk) :
    (∀ d, Delivers c ((w.step c (.tx f)).step c (.wait d))) ↔ Harmless c w f := by
  constructor
  · intro hall
    have hno : ¬ Harm c w f := fun ⟨d, hd⟩ => hd (hall d)
    refine ⟨?_, ?_, ?_⟩
    · intro hmac hent
      by_contra hc
      rw [not_or] at hc
      exact hno (h.harm_second hf hmac hent hc.1 hc.2)
    · intro hcase
      by_contra hc
      rw [not_or] at hc
      exact hno (h.harm_moved hf hcase hc.1 hc.2)
    · intro hmac hnone hip
      exact hno (Inv.harm_stale hf hmac hnone hip)
  · intro hh d
    exact ((h.tx hf hh).wait d).delivers

end

/-! ## Runs -/

/-- The frames the bridge is given. -/
def Event.Valid : Event → Prop
  | .tx f => f.TxOk
  | .rx f => f.RxOk
  | _ => True

/-- A transmitted frame does no harm. -/
def Event.Harmless (c : Clock) (w : World) : Event → Prop
  | .tx f => Nat25.Harmless c w f
  | _ => True

/-- No network address is in the database twice. -/
def UniqueNet (b : Bridge) : Prop :=
  ((List.finRange 16).flatMap fun i => (b.nethash i).map DbEntry.networkAddr).Nodup

section

variable {c : Clock} {w : World}

theorem TableInv.uniqueNet {b : Bridge} (h : TableInv b) : UniqueNet b := by
  unfold UniqueNet
  rw [List.nodup_flatMap]
  refine ⟨fun i _ => h.ok.nodup i, ?_⟩
  refine (List.nodup_finRange 16).imp ?_
  intro i j hij n hi hj
  -- an address is in the chain it hashes to
  obtain ⟨e, he, hen⟩ := List.mem_map.mp hi
  obtain ⟨e', he', hen'⟩ := List.mem_map.mp hj
  exact hij (by rw [← h.ok.placed i e he, ← h.ok.placed j e' he', hen, hen'])

theorem TableInv.tx {b : Bridge} (h : TableInv b) (now : Nat) {f : IpFrame} (hf : f.TxOk) :
    TableInv (b.clientTx now f).1 := by
  have hkeep : ∀ (b' : Bridge) (p : Nat), TableInv b' → TableInv (b'.touch now p) :=
    fun b' p hb' => (hb'.write (f := fun e => { e with ageingTimer := now }) p
      fun _ => ⟨rfl, rfl⟩).1
  obtain ⟨ip, ⟨_, p, _, heq⟩ | ⟨_, _, heq⟩ | ⟨_, e, _, heq⟩ | ⟨_, _, heq⟩⟩ := clientTx_cases hf b now
  · rw [heq]
    exact hkeep _ _ ⟨h.ok, h.ptrInj, h.ptrLt⟩
  · rw [heq]
    refine TableInv.insertIp ?_ now f.sa f.saddr |>.1
    exact ⟨h.ok, h.ptrInj, h.ptrLt⟩
  · rw [heq]
    exact hkeep _ _ ⟨h.ok, h.ptrInj, h.ptrLt⟩
  · rw [heq]
    refine TableInv.insertIp ?_ now f.sa f.saddr |>.1
    exact ⟨h.ok, h.ptrInj, h.ptrLt⟩

theorem TableInv.step (h : TableInv w.br) {e : Event} (he : e.Valid) :
    TableInv (w.step c e).br := by
  cases e with
  | tx f => exact h.tx w.now he
  | rx f => exact (handleFrame_known h w.now f).table
  | expire => exact (h.expire c w.now).1
  | wait d => exact h

theorem Inv.step (h : Inv c w) {e : Event} (he : e.Valid) (hh : e.Harmless c w) :
    Inv c (w.step c e) := by
  cases e with
  | tx f => exact h.tx he hh
  | rx f => exact h.rx f
  | expire => exact h.expire
  | wait d => exact h.wait d

/-- The worlds that events satisfying `ok` lead to. -/
def Reached (c : Clock) (ok : World → Event → Prop) (w₀ w : World) : Prop :=
  Reach (fun w e => .done (w.step c e)) ok w₀ w

end

/-- **Replies and the database.** The database never has an address twice. In a run of harmless frames
every reply reaches the last sender, and the frames that may come next without harm are the harmless
ones. -/
theorem bridge_replies_reach_last_sender (c : Clock) (my br dev : MacAddr) (now : Nat) :
    (∀ w, Reached c (fun _ e => e.Valid) (.start my br dev now) w → UniqueNet w.br)
      ∧ ∀ w, Reached c (fun w e => e.Valid ∧ e.Harmless c w) (.start my br dev now) w →
        Delivers c w
          ∧ ∀ f : IpFrame, f.TxOk →
            ((∀ d, Delivers c ((w.step c (.tx f)).step c (.wait d))) ↔ Harmless c w f) := by
  refine ⟨fun w hw => ?_, fun w hw => ?_⟩
  · have htable : TableInv w.br := by
      refine hw.invariant (fun w => TableInv w.br) (Inv.start (c := c) my br dev now).table ?_
      intro s s' e hs hok hdone
      cases hdone
      exact hs.step hok
    exact htable.uniqueNet
  · have hinv : Inv c w := by
      refine hw.invariant (Inv c) (Inv.start my br dev now) ?_
      intro s s' e hs hok hdone
      cases hdone
      exact hs.step hok.1 hok.2
    exact ⟨hinv.delivers, fun f hf => hinv.harmless_iff hf⟩

/-- A tick of ten milliseconds. -/
def sampleClock : Clock := ⟨100, by decide⟩

def sampleStart : World := .start ⟨2, 0, 0, 0, 0, 9⟩ ⟨2, 0, 0, 0, 0, 8⟩ ⟨2, 0, 0, 0, 0, 8⟩ 1000

/-- A frame of the host with MAC address 02:00:00:00:00:`m` under 10.0.0.`a`. -/
def sampleTx (m a : UInt8) : IpFrame := ⟨⟨2, 0, 0, 0, 1, 1⟩, ⟨2, 0, 0, 0, 0, m⟩, ⟨10, 0, 0, a⟩, ⟨10, 0, 1, 1⟩, 5, 60⟩

/-- A reply to 10.0.0.`a`. -/
def sampleRx (a : UInt8) : IpFrame := ⟨⟨2, 0, 0, 0, 0, 9⟩, ⟨2, 0, 0, 0, 1, 1⟩, ⟨10, 0, 1, 1⟩, ⟨10, 0, 0, a⟩, 5, 60⟩

instance (w : World) (f : IpFrame) : Decidable (Entered w f) :=
  decidable_of_iff ((∃ e ∈ w.br.scdbFindEntry f.saddr, e.macAddr = f.sa ∧ e.ageingTimer = w.now)
    ∨ w.br.scdbFindEntry f.saddr = none ∧ w.br.unknownDa f.saddr = f.sa) Iff.rfl

instance (c : Clock) (w : World) (ip : Ip) : Decidable (DbRight c w ip) :=
  decidable_of_iff (∀ p ∈ w.last ip, Live c w p.2 → w.br.dbAnswer c w.now ip = some p.1)
    ⟨fun h m t => h (m, t), fun h p => h p.1 p.2⟩

instance (c : Clock) (w : World) (f : IpFrame) : Decidable (Harmless c w f) :=
  decidable_of_iff (_ ∧ _ ∧ _) ⟨fun h => ⟨h.1, h.2.1, h.2.2⟩, fun h => ⟨h.same, h.moved, h.stale⟩⟩

instance (f : IpFrame) : Decidable f.RxOk := inferInstanceAs (Decidable (_ ∧ _))

instance (f : IpFrame) : Decidable f.TxOk := inferInstanceAs (Decidable (_ ∧ _))

instance (c : Clock) (w : World) : ∀ e, Decidable (Event.Valid e ∧ Event.Harmless c w e)
  | .tx f => inferInstanceAs (Decidable (f.TxOk ∧ Harmless c w f))
  | .rx f => inferInstanceAs (Decidable (f.RxOk ∧ True))
  | .expire => .isTrue ⟨trivial, trivial⟩
  | .wait _ => .isTrue ⟨trivial, trivial⟩

/-- A host sends twice, which makes it the short cut's, and so does a second host after it; the first one is
replied to and sends again. -/
def sampleBridgeRun : List Event :=
  [.tx (sampleTx 1 1), .wait 200, .tx (sampleTx 1 1), .rx (sampleRx 1), .tx (sampleTx 2 2), .wait 300,
    .tx (sampleTx 2 2), .rx (sampleRx 1), .rx (sampleRx 2), .expire, .tx (sampleTx 1 1)]

/-- The short cut is the first host's again, and both hosts get their replies. -/
theorem bridge_replies_sample : ∃ w,
    runActions (fun w e => .done (w.step sampleClock e)) sampleStart sampleBridgeRun = .done w ∧
      (w.br.scdbMac, w.br.scdbIp) = (⟨2, 0, 0, 0, 0, 1⟩, ⟨10, 0, 0, 1⟩) ∧
      (w.br.handleFrame sampleClock w.now (sampleRx 1)).2.1.da = ⟨2, 0, 0, 0, 0, 1⟩ ∧
      (w.br.handleFrame sampleClock w.now (sampleRx 2)).2.1.da = ⟨2, 0, 0, 0, 0, 2⟩ := by
  have hok : RunOk (fun w e => .done (World.step sampleClock w e))
      (fun w e => Event.Valid e ∧ Event.Harmless sampleClock w e) sampleStart sampleBridgeRun := by
    decide +kernel
  have hview : (runActions (fun w e => .done (World.step sampleClock w e)) sampleStart sampleBridgeRun).view
      (fun w => ((w.br.scdbMac, w.br.scdbIp), w.now, w.last ⟨10, 0, 0, 1⟩, w.last ⟨10, 0, 0, 2⟩)) =
      some ((⟨2, 0, 0, 0, 0, 1⟩, ⟨10, 0, 0, 1⟩), 1500, some (⟨2, 0, 0, 0, 0, 1⟩, 1500),
        some (⟨2, 0, 0, 0, 0, 2⟩, 1500)) := by decide +kernel
  obtain ⟨w, hrun, hview⟩ := Outcome.of_view hview
  simp only [Prod.mk.injEq] at hview
  obtain ⟨hscdb, hnow, hlast1, hlast2⟩ := hview
  have hreach : Reached sampleClock (fun w e => e.Valid ∧ e.Harmless sampleClock w) sampleStart w :=
    reach_runActions .start hok hrun
  have hdelivers := ((bridge_replies_reach_last_sender sampleClock _ _ _ _).2 w hreach).1
  have hlive : Live sampleClock w 1500 := by
    unfold Live
    rw [hnow]
    decide
  exact ⟨w, hrun, Prod.ext hscdb.1 hscdb.2,
    hdelivers (sampleRx 1) ⟨by decide, by decide⟩ ⟨2, 0, 0, 0, 0, 1⟩ 1500 hlast1 hlive,
    hdelivers (sampleRx 2) ⟨by decide, by decide⟩ ⟨2, 0, 0, 0, 0, 2⟩ 1500 hlast2 hlive⟩

/-- A host sends twice under one address and then under a second one: the reply to the second address
goes to the bridge. -/
theorem bridge_second_address_lost :
    ∃ es : List Event, (∀ e ∈ es, e.Valid)
      ∧ ¬ Delivers sampleClock (es.foldl (World.step sampleClock) sampleStart) := by
  refine ⟨[.tx (sampleTx 1 1), .tx (sampleTx 1 1), .tx (sampleTx 1 2)], ?_, ?_⟩
  · intro e he
    simp only [List.mem_cons, List.not_mem_nil, or_false] at he
    rcases he with rfl | rfl | rfl
    all_goals exact ⟨⟨by decide, by decide⟩, by decide, by decide⟩
  · intro h
    have hda := h (sampleRx 2) ⟨by decide, by decide⟩ ⟨2, 0, 0, 0, 0, 1⟩ 1000 rfl (by decide)
    revert hda
    decide

end Rtl8812au.Nat25
