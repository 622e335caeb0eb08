import Rtl8812au.Ap.Mlme
import Rtl8812au.Lib.Reach
import Rtl8812au.P2p.AttrProof

/-!
# Bodies of elements in arrays of fixed size

Exactly which frames keep the copies of `OnAuthClient` and `OnAssocReq` inside their arrays.
The lengths are those of the elements the code finds; nothing on the way to a copy bounds them,
except for the element that goes into `wpa_ie`.
-/

namespace Rtl8812au

theorem copyInto_overrun {size at' : Nat} {m : Mem} {src n : Nat} :
    copyInto size at' m src n = .overrun ↔ size < at' + n := by
  unfold copyInto
  split
  · rename_i h
    exact ⟨fun _ => h, fun _ => rfl⟩
  · rename_i h
    exact ⟨fun h' => absurd h' (by simp), fun h' => absurd h' h⟩

/-! ## The challenge -/

/-- The second frame of the shared-key handshake, for this station and expected. -/
def TakesChallenge (a : AuthClient) (m : Mem) : Prop :=
  a.myid = Wifi.getDa m 0 ∧ a.authState = true ∧ a.authAlgo = .shared ∧
    m.le16 (wlanHdrA3Len + (if Wifi.getPrivacy m 0 then 4 else 0) + 4) = 0 ∧
    m.le16 (wlanHdrA3Len + (if Wifi.getPrivacy m 0 then 4 else 0) + 2) = 2

/-- Its challenge is no longer than `chg_txt`. -/
def ChallengeFits (m : Mem) (pktLen : Nat) : Prop :=
  ∀ p len, rtwGetIe m (wlanHdrA3Len + authIeOffset) chlgetxtIe
    ((pktLen : Int) - wlanHdrA3Len - authIeOffset) = some (p, len) → len ≤ 128

theorem onAuthClient_overrun {a : AuthClient} {m : Mem} {pktLen : Nat} :
    onAuthClient a m pktLen = .overrun ↔ TakesChallenge a m ∧ ¬ ChallengeFits m pktLen := by
  unfold onAuthClient TakesChallenge ChallengeFits
  dsimp only
  generalize m.le16 (wlanHdrA3Len + (if Wifi.getPrivacy m 0 then 4 else 0) + 4) = status
  generalize m.le16 (wlanHdrA3Len + (if Wifi.getPrivacy m 0 then 4 else 0) + 2) = seq
  generalize rtwGetIe m (wlanHdrA3Len + authIeOffset) chlgetxtIe
    ((pktLen : Int) - wlanHdrA3Len - authIeOffset) = found
  by_cases hmy : a.myid = Wifi.getDa m 0
  · by_cases hstate : a.authState = true
    · by_cases hstatus : status = 0
      · by_cases hseq : seq = 2
        · by_cases halg : a.authAlgo = .shared
          · -- the one way to the copy
            rw [if_neg (not_not.mpr hmy), if_neg (by simp [hstate]), if_neg (not_not.mpr hstatus),
              if_pos hseq, if_pos halg]
            cases found with
            | none => simp
            | some x =>
              obtain ⟨p, len⟩ := x
              dsimp only
              rw [Outcome.bind_eq_overrun, copyInto_overrun]
              simp [hmy, hstate, hstatus, hseq, halg]
          · simp [hmy, hstate, hstatus, hseq, halg]
        · rw [if_neg (not_not.mpr hmy), if_neg (by simp [hstate]), if_neg (not_not.mpr hstatus),
            if_neg hseq]
          constructor
          · intro h
            split at h
            · split at h
              · cases h
              · cases h
            · cases h
          · rintro ⟨⟨-, -, -, -, h⟩, -⟩
            exact absurd h hseq
      · simp [hmy, hstate, hstatus]
    · simp [hmy, hstate]
  · simp [hmy]

/-! ## The rates -/

/-- Both rate elements together are no longer than `supportRate`. -/
def RatesFit (m : Mem) (i : AssocIes) : Prop :=
  ∀ p len, i.getIe m supportedratesIe = some (p, len) →
    len ≤ 16 ∧ ∀ q extLen, i.getIe m extSupportedratesIe = some (q, extLen) → len + extLen ≤ 16

theorem checkRates_overrun {m : Mem} {i : AssocIes} :
    checkRates m i = .overrun ↔ ¬ RatesFit m i := by
  unfold checkRates RatesFit
  cases i.getIe m supportedratesIe with
  | none => simp
  | some x =>
    obtain ⟨p, len⟩ := x
    dsimp only
    by_cases hlen : len ≤ 16
    · have hcopy : copyInto 16 0 m (p + 2) len = .done (m.read (p + 2) len) := if_neg (by omega)
      rw [hcopy, Outcome.done_bind]
      cases i.getIe m extSupportedratesIe with
      | none => simp [hlen]
      | some y =>
        obtain ⟨q, extLen⟩ := y
        dsimp only
        rw [if_pos hlen, Outcome.bind_eq_overrun, copyInto_overrun]
        simp [hlen]
    · have hcopy : copyInto 16 0 m (p + 2) len = .overrun := if_pos (by omega)
      rw [hcopy]
      simp [hlen]

theorem checkRates_done {m : Mem} {i : AssocIes} (h : RatesFit m i) : ∃ x, checkRates m i = .done x := by
  unfold checkRates
  cases hie : i.getIe m supportedratesIe with
  | none => exact ⟨none, rfl⟩
  | some x =>
    obtain ⟨p, len⟩ := x
    obtain ⟨hlen, hext⟩ := h p len hie
    have hcopy : copyInto 16 0 m (p + 2) len = .done (m.read (p + 2) len) := if_neg (by omega)
    dsimp only
    rw [hcopy, Outcome.done_bind]
    cases hie2 : i.getIe m extSupportedratesIe with
    | none => exact ⟨some (m.read (p + 2) len), rfl⟩
    | some y =>
      obtain ⟨q, extLen⟩ := y
      have hsum := hext q extLen hie2
      have hcopy2 : copyInto 16 len m (q + 2) extLen = .done (m.read (q + 2) extLen) := if_neg (by omega)
      dsimp only
      rw [if_pos hlen, hcopy2]
      exact ⟨_, rfl⟩

theorem checkRates_none {m : Mem} {i : AssocIes} (h : checkRates m i = .done none) :
    i.getIe m supportedratesIe = none := by
  unfold checkRates at h
  split at h
  · assumption
  · obtain ⟨rates, -, h⟩ := Outcome.bind_eq_done.mp h
    split at h
    · cases h
    · split at h
      · obtain ⟨ext, -, h⟩ := Outcome.bind_eq_done.mp h
        cases h
      · cases h

/-- The rates are there when the checks go on. -/
theorem checkRates_some {m : Mem} {i : AssocIes} {rates : List UInt8}
    (h : checkRates m i = .done (some rates)) : (i.getIe m supportedratesIe).isSome := by
  unfold checkRates at h
  split at h
  · cases h
  · rename_i hie
    rw [hie]
    rfl

/-! ## The element of the security association -/

/-- The copy into `wpa_ie` is cut to its size. -/
theorem copyWpaIe_fits (c : AssocConf) (m : Mem) (e : Elems) (p len : Nat) :
    ∃ x, copyWpaIe c m e p len = .done x := by
  unfold copyWpaIe
  split
  · exact ⟨_, rfl⟩
  · dsimp only
    generalize hn : (if e.wps.isSome then 0 else if 32 < len + 2 then 32 else len + 2) = n
    have hle : n ≤ 32 := by
      rw [← hn]
      split
      · omega
      · split
        · omega
        · omega
    have hcopy : copyInto 32 0 m (p - 2) n = .done (m.read (p - 2) n) := if_neg (by omega)
    rw [hcopy]
    exact ⟨_, rfl⟩

/-- An element is only taken by an access point that has WPA. -/
theorem checkWpa_some {c : AssocConf} {m : Mem} {e : Elems} {x : Nat × Nat}
    (h : (checkWpa c m e).2 = some x) : c.wpaPsk ≠ 0 := by
  intro h0
  unfold checkWpa at h
  rw [h0, Nat.zero_testBit, Nat.zero_testBit] at h
  cases h

theorem copyWpaIe_status {c : AssocConf} {m : Mem} {e : Elems} {p len : Nat}
    {x : AssocStatus × List UInt8} (hpsk : c.wpaPsk ≠ 0) (h : copyWpaIe c m e p len = .done x) :
    x.1 = .successful := by
  unfold copyWpaIe at h
  rw [if_neg hpsk] at h
  obtain ⟨ie, -, h⟩ := Outcome.bind_eq_done.mp h
  cases h
  rfl

/-! ## The vendor elements -/

section Vendor

variable {c : AssocConf} {m ies : Mem} {i : AssocIes} {iesLen : Nat} {ie : Nat × Nat}

/-- The copies out of the device info are cut to their arrays. -/
theorem deviceInfoCopies_returns (buf : Mem) : (deviceInfoCopies buf).Returns () := by
  have hmin : ∀ n, (Copies.copy 32 (min 32 n)).Returns () := fun n => .copy (Nat.min_le_left 32 n)
  have hname : ∀ n, (if buf.be16 n = wpsAttrDeviceName then Copies.copy 32 (min 32 (buf.be16 (n + 2)))
      else pure ()).Returns () := by
    intro n
    split
    · exact hmin _
    · exact .pure ()
  unfold deviceInfoCopies
  refine .bind (.copy (Nat.le_refl 6)) (.bind (.copy (Nat.le_refl 2)) (.bind (.copy (Nat.le_refl 8)) ?_))
  dsimp only
  split
  · exact .bind (hmin _) (hname _)
  · exact hname _

open Copies P2p in
/-- The device info has a buffer of its length, so it fits whenever the search for it ends. -/
theorem assocReqDeviceInfo_eq : (lookup ies ie .deviceInfo ≠ none → (assocReqDeviceInfo c ies ie).Returns ()) ∧
    (lookup ies ie .deviceInfo = none → assocReqDeviceInfo c ies ie = ofOption none) := by
  unfold assocReqDeviceInfo
  rw [rtwGetP2pAttrContentLen_eq]
  constructor
  · intro hends
    cases hl : lookup ies ie .deviceInfo with
    | none => exact absurd hl hends
    | some o =>
        cases o with
        | none => exact .bind (.pure none) (.pure ())
        | some bs =>
            refine .bind (.pure (some bs.length)) ?_
            dsimp only
            split
            · have hbuf : (rtwGetP2pAttrContent ies ie .deviceInfo bs.length).Returns (some bs) := by
                rw [rtwGetP2pAttrContent_eq, hl]
                exact .bind (.copy (Nat.le_refl _)) (.pure _)
              exact hbuf.bind (deviceInfoCopies_returns _)
            · exact .pure ()
  · intro hl
    rw [hl]
    rfl

/-- Both searches in an element end. -/
def SearchesEnd (ies : Mem) (ie : Nat × Nat) : Prop :=
  P2p.lookup ies ie .capability ≠ none ∧ P2p.lookup ies ie .deviceInfo ≠ none

open Copies P2p in
/-- **One element**: the capability is all that may not fit, and the searches all that may not end. -/
theorem sound_assocReqP2pTurn : Sound (assocReqP2pTurn c ies ie) ↔ AtMost ies ie .capability 2 := by
  unfold assocReqP2pTurn
  rw [sound_look]
  refine and_iff_left fun o _ => ?_
  by_cases hl : lookup ies ie .deviceInfo = none
  · rw [assocReqDeviceInfo_eq.2 hl]
    exact sound_ofOption none
  · exact (assocReqDeviceInfo_eq.1 hl).sound

open Copies P2p in
theorem val_assocReqP2pTurn (h : AtMost ies ie .capability 2) :
    (assocReqP2pTurn c ies ie).val = some () ↔ SearchesEnd ies ie := by
  unfold assocReqP2pTurn SearchesEnd
  rw [val_look h]
  cases lookup ies ie .capability with
  | none => simp
  | some o =>
      by_cases hl : lookup ies ie .deviceInfo = none
      · rw [Option.bind_some, assocReqDeviceInfo_eq.2 hl, val_ofOption]
        simp [hl]
      · rw [Option.bind_some, (assocReqDeviceInfo_eq.1 hl).val]
        simp [hl]

/-- Every P2P element that is got to has a capability of two bytes at most. -/
def CapabilitiesFit (ies : Mem) (iesLen : Nat) : Nat → Option (Nat × Nat) → Prop
  | 0, _ => True
  | _ + 1, none => True
  | fuel + 1, some ie =>
    P2p.AtMost ies ie .capability 2 ∧
      (SearchesEnd ies ie → CapabilitiesFit ies iesLen fuel (P2p.nextP2pIe ies iesLen ie))

/-- The searches end in all of them. -/
def AllSearchesEnd (ies : Mem) (iesLen : Nat) : Nat → Option (Nat × Nat) → Prop
  | 0, _ => True
  | _ + 1, none => True
  | fuel + 1, some ie =>
    SearchesEnd ies ie ∧ AllSearchesEnd ies iesLen fuel (P2p.nextP2pIe ies iesLen ie)

open Copies in
/-- **The loop over the elements.** -/
theorem assocReqP2pLoop_iff : ∀ {fuel : Nat} {ie : Option (Nat × Nat)},
    (Sound (assocReqP2pLoop c ies iesLen fuel ie) ↔ CapabilitiesFit ies iesLen fuel ie) ∧
      (CapabilitiesFit ies iesLen fuel ie →
        ((assocReqP2pLoop c ies iesLen fuel ie).val = some () ↔ AllSearchesEnd ies iesLen fuel ie)) := by
  intro fuel
  induction fuel with
  | zero =>
      intro ie
      exact ⟨⟨fun _ => trivial, fun _ => sound_pure ()⟩, fun _ => ⟨fun _ => trivial, fun _ => rfl⟩⟩
  | succ fuel ih =>
      intro ie
      cases ie with
      | none => exact ⟨⟨fun _ => trivial, fun _ => sound_pure ()⟩, fun _ => ⟨fun _ => trivial, fun _ => rfl⟩⟩
      | some ie =>
          have hnext := @ih (P2p.nextP2pIe ies iesLen ie)
          rw [assocReqP2pLoop]
          refine ⟨?_, fun hfit => ?_⟩
          · rw [sound_bind, sound_assocReqP2pTurn]
            refine and_congr_right fun hcap => ?_
            rw [← hnext.1, ← val_assocReqP2pTurn hcap]
            exact ⟨fun h hv => h () hv, fun h _ hv => h hv⟩
          · rw [val_bind]
            have hv := val_assocReqP2pTurn (c := c) hfit.1
            by_cases hends : SearchesEnd ies ie
            · rw [hv.mpr hends, Option.bind_some, hnext.2 (hfit.2 hends)]
              exact (and_iff_right hends).symm
            · have hnone : (assocReqP2pTurn c ies ie).val = none := by
                cases hval : (assocReqP2pTurn c ies ie).val with
                | none => rfl
                | some u => exact absurd (hv.mp hval) hends
              rw [hnone]
              exact ⟨fun h => (nomatch h), fun h => absurd h.1 hends⟩

/-- The WFD element is no longer than `wfd_ie`, and its device info no longer than `attr_content`. -/
def WfdFits (c : AssocConf) (ies : Mem) (iesLen : Nat) : Prop :=
  ∀ wfd, rtwGetWfdIe ies 0 iesLen = some wfd → wfd.2 ≤ 128 ∧
    ∀ p n, wfdAttrOf (wfdIeArray c ies wfd.1 wfd.2) wfd.2 wfdAttrDeviceInfo = some (p, n) → n ≤ 10

open Copies in
theorem rtwGetWfdAttrContent_iff {wfdIelen target cap : Nat} :
    (Sound (rtwGetWfdAttrContent m wfdIelen target cap)
      ↔ ∀ p n, wfdAttrOf m wfdIelen target = some (p, n) → n ≤ cap) ∧
    (Sound (rtwGetWfdAttrContent m wfdIelen target cap) →
      ∃ o, (rtwGetWfdAttrContent m wfdIelen target cap).val = some o) := by
  unfold rtwGetWfdAttrContent
  cases wfdAttrOf m wfdIelen target with
  | none => exact ⟨⟨fun _ _ _ h => (nomatch h), fun _ => sound_pure none⟩, fun _ => ⟨none, rfl⟩⟩
  | some x =>
      obtain ⟨p, n⟩ := x
      dsimp only
      refine ⟨?_, fun hs => ?_⟩
      · rw [sound_bind, sound_copy]
        constructor
        · rintro ⟨hle, -⟩ p' n' heq
          cases heq
          exact hle
        · intro h
          exact ⟨h p n rfl, fun _ _ => sound_pure _⟩
      · have hle : n ≤ cap := (sound_copy cap n).mp ((sound_bind _ _).mp hs).1
        exact ⟨some (m.read p n), by rw [val_bind, val_copy hle]; rfl⟩

open Copies in
theorem checkWfd_iff : (Sound (checkWfd c ies iesLen) ↔ WfdFits c ies iesLen) ∧
    (Sound (checkWfd c ies iesLen) → (checkWfd c ies iesLen).val = some ()) := by
  unfold checkWfd WfdFits
  cases rtwGetWfdIe ies 0 iesLen with
  | none => exact ⟨⟨fun _ _ h => (nomatch h), fun _ => sound_pure ()⟩, fun _ => rfl⟩
  | some wfd =>
      have hattr := @rtwGetWfdAttrContent_iff (wfdIeArray c ies wfd.1 wfd.2) wfd.2 wfdAttrDeviceInfo 10
      dsimp only
      refine ⟨?_, fun hs => ?_⟩
      · rw [sound_bind, sound_copy]
        constructor
        · rintro ⟨hle, h⟩ wfd' heq
          cases heq
          exact ⟨hle, hattr.1.mp ((sound_bind _ _).mp (h () (val_copy hle))).1⟩
        · intro h
          obtain ⟨hle, hn⟩ := h wfd rfl
          exact ⟨hle, fun _ _ => (sound_bind _ _).mpr ⟨hattr.1.mpr hn, fun _ _ => sound_pure ()⟩⟩
      · obtain ⟨hcopy, hrest⟩ := (sound_bind _ _).mp hs
        have hle := (sound_copy 128 wfd.2).mp hcopy
        obtain ⟨o, ho⟩ := hattr.2 ((sound_bind _ _).mp (hrest () (val_copy hle))).1
        rw [val_bind, val_copy hle, Option.bind_some, val_bind, ho]
        rfl

/-- The vendor elements of a request to a group owner, as far as it gets with them. -/
def VendorFits (c : AssocConf) (ies : Mem) (iesLen : Nat) : Prop :=
  CapabilitiesFit ies iesLen iesLen (P2p.rtwGetP2pIe ies 0 iesLen) ∧
    (AllSearchesEnd ies iesLen iesLen (P2p.rtwGetP2pIe ies 0 iesLen) → WfdFits c ies iesLen)

theorem capabilitiesFit_none (fuel : Nat) : CapabilitiesFit ies iesLen fuel none := by
  cases fuel <;> trivial

theorem allSearchesEnd_none (fuel : Nat) : AllSearchesEnd ies iesLen fuel none := by
  cases fuel <;> trivial

open Copies in
/-- **`process_assoc_req_p2p_ie`** in a group owner, where there is a P2P element: it refuses nothing. -/
theorem processAssocReqP2pIe_iff (hgo : c.p2pGo = true) (hie : (P2p.rtwGetP2pIe ies 0 iesLen).isSome = true) :
    (Sound (processAssocReqP2pIe c ies iesLen)
      ↔ CapabilitiesFit ies iesLen iesLen (P2p.rtwGetP2pIe ies 0 iesLen)) ∧
    (CapabilitiesFit ies iesLen iesLen (P2p.rtwGetP2pIe ies 0 iesLen) → ∀ {n : Nat},
      ((processAssocReqP2pIe c ies iesLen).val = some n
        ↔ AllSearchesEnd ies iesLen iesLen (P2p.rtwGetP2pIe ies 0 iesLen) ∧ n = 0)) := by
  have hloop := @assocReqP2pLoop_iff c ies iesLen iesLen (P2p.rtwGetP2pIe ies 0 iesLen)
  have hcode : processAssocReqP2pIe c ies iesLen
      = (assocReqP2pLoop c ies iesLen iesLen (P2p.rtwGetP2pIe ies 0 iesLen) >>= fun _ => pure 0) := by
    unfold processAssocReqP2pIe
    rw [if_neg (by simp [hgo])]
    dsimp only
    rw [if_neg (by rw [Option.isNone_iff_eq_none]; exact Option.isSome_iff_ne_none.mp hie)]
  rw [hcode]
  refine ⟨?_, fun hfit n => ?_⟩
  · rw [sound_bind, hloop.1]
    exact and_iff_left fun _ _ => sound_pure 0
  · rw [val_bind, ← hloop.2 hfit]
    cases (assocReqP2pLoop c ies iesLen iesLen (P2p.rtwGetP2pIe ies 0 iesLen)).val with
    | none => simp
    | some u => simp [eq_comm]

open Copies in
theorem checkP2p_overrun :
    checkP2p c m i = .overrun ↔ c.p2pGo = true ∧ ¬ VendorFits c (m.shift i.at') i.len := by
  have hwfd : ∀ status, (if 0 < status then (.done .capFail : Outcome AssocStatus)
      else (checkWfd c (m.shift i.at') i.len).toOutcome >>= fun _ => .done .successful) = .overrun
        ↔ status = 0 ∧ ¬ WfdFits c (m.shift i.at') i.len := by
    intro status
    by_cases h0 : 0 < status
    · rw [if_pos h0]
      exact ⟨fun h => (nomatch h), fun h => absurd h.1 (Nat.ne_of_gt h0)⟩
    · rw [if_neg h0, Outcome.bind_eq_overrun, toOutcome_overrun, checkWfd_iff.1]
      simp [Nat.eq_zero_of_not_pos h0]
  unfold checkP2p VendorFits
  dsimp only
  by_cases hgo : c.p2pGo = true
  · rw [if_neg (by simp [hgo]), Outcome.bind_eq_overrun]
    simp only [hwfd, hgo, true_and]
    by_cases hie : (P2p.rtwGetP2pIe (m.shift i.at') 0 i.len).isSome = true
    · rw [if_pos hie, toOutcome_overrun]
      obtain ⟨hsound, hval⟩ := processAssocReqP2pIe_iff hgo hie
      by_cases hcap : CapabilitiesFit (m.shift i.at') i.len i.len (P2p.rtwGetP2pIe (m.shift i.at') 0 i.len)
      · constructor
        · rintro (hbad | ⟨status, hdone, -, hbad⟩) hfit
          · exact hbad (hsound.mpr hcap)
          · exact hbad (hfit.2 ((hval hcap).mp (toOutcome_done.mp hdone).val).1)
        · intro hbad
          have hends : AllSearchesEnd (m.shift i.at') i.len i.len (P2p.rtwGetP2pIe (m.shift i.at') 0 i.len) := by
            by_contra hno
            exact hbad ⟨hcap, fun h => absurd h hno⟩
          exact Or.inr ⟨0, toOutcome_done.mpr ⟨hsound.mpr hcap, (hval hcap).mpr ⟨hends, rfl⟩⟩, rfl,
            fun hw => hbad ⟨hcap, fun _ => hw⟩⟩
      · exact ⟨fun _ hfit => hcap hfit.1, fun _ => Or.inl fun hs => hcap (hsound.mp hs)⟩
    · rw [if_neg hie]
      have hnone : P2p.rtwGetP2pIe (m.shift i.at') 0 i.len = none := by
        rwa [Option.not_isSome_iff_eq_none] at hie
      rw [hnone]
      simp [capabilitiesFit_none, allSearchesEnd_none]
  · simp [hgo]

/-- A group owner refuses no request for its vendor elements. -/
theorem checkP2p_status {status : AssocStatus} (h : checkP2p c m i = .done status) : status = .successful := by
  unfold checkP2p at h
  dsimp only at h
  by_cases hgo : c.p2pGo = true
  · rw [if_neg (by simp [hgo])] at h
    obtain ⟨n, hn, h⟩ := Outcome.bind_eq_done.mp h
    have h0 : n = 0 := by
      split at hn
      · rename_i hie
        obtain ⟨hsound, hval⟩ := processAssocReqP2pIe_iff hgo hie
        have hret := Copies.toOutcome_done.mp hn
        exact ((hval (hsound.mp hret.sound)).mp hret.val).2
      · cases hn
        rfl
    rw [h0, if_neg (Nat.lt_irrefl 0)] at h
    obtain ⟨u, -, h⟩ := Outcome.bind_eq_done.mp h
    cases h
    rfl
  · rw [if_pos (by simp [hgo])] at h
    cases h
    rfl
end Vendor

/-! ## The whole request -/

/-- The checks get to the vendor elements. -/
structure ReachesVendor (c : AssocConf) (m : Mem) (i : AssocIes) (e : Elems) : Prop where
  rates : (i.getIe m supportedratesIe).isSome
  wpa : (checkWpa c m e).1 = .successful
  wps : (checkWpa c m e).2 = none → checkWps c = .successful
  ht : c.htOption = true ∨ ∀ h ∈ e.htCapabilities, h.2 < 26
  vht : c.vhtOption = true ∨ vhtOf e = false

/-- What the elements of a request have to be for every copy to fit. -/
def RequestFits (c : AssocConf) (m : Mem) (pktLen : Nat) : Prop :=
  ∀ e, rtwParseElems m (assocIes m pktLen).at' (assocIes m pktLen).len = some e →
    e.ssid.isSome → checkSsid c m (assocIes m pktLen) = true →
      RatesFit m (assocIes m pktLen) ∧
        (c.p2pGo = true → ReachesVendor c m (assocIes m pktLen) e →
          VendorFits c (m.shift (assocIes m pktLen).at') (assocIes m pktLen).len)

section Checks

variable {c : AssocConf} {m : Mem} {i : AssocIes} {e : Elems} {rates : List UInt8} {r : StaCaps}

theorem htOf_refused : (!c.htOption && (htOf m e r).ht) = false ↔
    (c.htOption = true ∨ ∀ h ∈ e.htCapabilities, h.2 < 26) := by
  unfold htOf
  cases e.htCapabilities with
  | none => simp
  | some h =>
    obtain ⟨p, len⟩ := h
    dsimp only
    by_cases hlen : 26 ≤ len
    · have hlong : ¬ len < 26 := by omega
      simp [hlen, hlong]
    · rw [if_neg hlen]
      simp
      omega

theorem checkTail_overrun : checkTail c m i e rates r = .overrun ↔
    (c.htOption = true ∨ ∀ h ∈ e.htCapabilities, h.2 < 26) ∧
      (c.vhtOption = true ∨ vhtOf e = false) ∧ c.p2pGo = true ∧ ¬ VendorFits c (m.shift i.at') i.len := by
  have hht := htOf_refused (c := c) (m := m) (e := e) (r := r)
  have hvht : (!c.vhtOption && vhtOf e) = false ↔ (c.vhtOption = true ∨ vhtOf e = false) := by
    cases c.vhtOption <;> simp
  unfold checkTail
  dsimp only
  rw [← hht, ← hvht]
  split
  · rename_i h; simp [h]
  rename_i hh
  split
  · rename_i h; simp [h]
  rename_i hv
  rw [Outcome.bind_eq_overrun, checkP2p_overrun]
  rw [Bool.not_eq_true] at hh hv
  simp only [hh, hv, true_and]
  simp

/-- After the rates only the copies of vendor elements can go wrong. -/
theorem checkSecurity_overrun : checkSecurity c m i e rates r = .overrun ↔
    ((checkWpa c m e).1 = .successful ∧
      ((checkWpa c m e).2 = none → checkWps c = .successful)) ∧
      checkTail c m i e rates r = .overrun := by
  unfold checkSecurity
  dsimp only
  by_cases hwpa : (checkWpa c m e).1 = .successful
  · rw [if_neg (not_not.mpr hwpa)]
    cases hie : (checkWpa c m e).2 with
    | none =>
      dsimp only
      by_cases hwps : checkWps c = .successful
      · simp [hwpa, hwps]
      · simp [hwps]
    | some x =>
      obtain ⟨p, len⟩ := x
      dsimp only
      obtain ⟨y, hcopy⟩ := copyWpaIe_fits c m e p len
      have hy := copyWpaIe_status (checkWpa_some hie) hcopy
      rw [hcopy, Outcome.done_bind, if_neg (not_not.mpr hy)]
      simp [hwpa]
  · simp [hwpa]

theorem assocChecks_overrun {pktLen : Nat} :
    assocChecks c m pktLen r = .overrun ↔ ¬ RequestFits c m pktLen := by
  unfold assocChecks RequestFits
  dsimp only
  generalize assocIes m pktLen = i
  cases hparse : rtwParseElems m i.at' i.len with
  | none => simp
  | some e =>
    dsimp only
    by_cases hssid : e.ssid.isSome = true
    · by_cases hcheck : checkSsid c m i = true
      · rw [if_neg (by simpa using Option.isSome_iff_ne_none.mp hssid), if_neg (by simp [hcheck]),
          Outcome.bind_eq_overrun, checkRates_overrun]
        constructor
        · rintro (h | ⟨x, hx, h⟩) hfit
          · exact h (hfit e rfl hssid hcheck).1
          · cases x with
            | none => cases h
            | some rates =>
              obtain ⟨⟨hwpa, hwps⟩, htail⟩ := checkSecurity_overrun.mp h
              obtain ⟨hht, hvht, hgo, hwfd⟩ := checkTail_overrun.mp htail
              exact hwfd ((hfit e rfl hssid hcheck).2 hgo
                ⟨checkRates_some hx, hwpa, hwps, hht, hvht⟩)
        · intro h
          by_cases hrates : RatesFit m i
          · right
            -- the rates fit, so what does not is a vendor element
            have hbad : ∃ _ : c.p2pGo = true, ReachesVendor c m i e ∧ ¬ VendorFits c (m.shift i.at') i.len := by
              by_contra hno
              refine h fun e' he' _ _ => ?_
              cases he'
              exact ⟨hrates, fun hgo hv => by_contra fun hw => hno ⟨hgo, hv, hw⟩⟩
            obtain ⟨hgo, hv, hw⟩ := hbad
            obtain ⟨x, hx⟩ := checkRates_done hrates
            cases x with
            | none => exact absurd hv.rates (by simp [checkRates_none hx])
            | some rates =>
              exact ⟨some rates, hx, checkSecurity_overrun.mpr ⟨⟨hv.wpa, hv.wps⟩,
                checkTail_overrun.mpr ⟨hv.ht, hv.vht, hgo, hw⟩⟩⟩
          · exact Or.inl hrates
      · simp [hcheck]
    · have hnone : e.ssid = none := by simpa using hssid
      simp [hnone]

end Checks

/-! ## The answer -/

/-- A request that passes all checks. -/
def Acceptable (c : AssocConf) (m : Mem) (pktLen : Nat) : Prop :=
  ∃ e, rtwParseElems m (assocIes m pktLen).at' (assocIes m pktLen).len = some e ∧
    e.ssid.isSome ∧ checkSsid c m (assocIes m pktLen) = true ∧
    ReachesVendor c m (assocIes m pktLen) e

section Request

variable {c : AssocConf} {m : Mem} {i : AssocIes} {e : Elems} {rates : List UInt8} {r : StaCaps}
  {x : AssocResult}

theorem checkTail_status (h : checkTail c m i e rates r = .done x) :
    x.status = .successful ↔ (c.htOption = true ∨ ∀ h ∈ e.htCapabilities, h.2 < 26) ∧
      (c.vhtOption = true ∨ vhtOf e = false) := by
  have hht := htOf_refused (c := c) (m := m) (e := e) (r := r)
  have hvht : (!c.vhtOption && vhtOf e) = false ↔ (c.vhtOption = true ∨ vhtOf e = false) := by
    cases c.vhtOption <;> simp
  unfold checkTail at h
  dsimp only at h
  rw [← hht, ← hvht]
  split at h
  · rename_i hh
    cases h
    simp [hh]
  · rename_i hh
    split at h
    · rename_i hv
      cases h
      simp [hv]
    · rename_i hv
      obtain ⟨status, hstatus, h⟩ := Outcome.bind_eq_done.mp h
      cases h
      rw [Bool.not_eq_true] at hh hv
      simp only [hh, hv, and_self, iff_true]
      exact checkP2p_status hstatus

theorem checkSecurity_status (h : checkSecurity c m i e rates r = .done x)
    (hrates : (i.getIe m supportedratesIe).isSome) :
    x.status = .successful ↔ ReachesVendor c m i e := by
  unfold checkSecurity at h
  dsimp only at h
  by_cases hwpa : (checkWpa c m e).1 = .successful
  · rw [if_neg (not_not.mpr hwpa)] at h
    -- whichever way is taken, the rest of the checks is the same
    have htail : ∀ {y}, checkTail c m i e rates r = .done y →
        ((checkWpa c m e).2 = none → checkWps c = .successful) →
        (y.status = .successful ↔ ReachesVendor c m i e) := by
      intro y hy hwps
      rw [checkTail_status hy]
      exact ⟨fun ⟨hht, hvht⟩ => ⟨hrates, hwpa, hwps, hht, hvht⟩, fun hv => ⟨hv.ht, hv.vht⟩⟩
    cases hie : (checkWpa c m e).2 with
    | none =>
      rw [hie] at h
      dsimp only at h
      split at h
      · rename_i hwps
        cases h
        exact ⟨fun h => absurd h hwps, fun hv => hv.wps hie⟩
      · rename_i hwps
        exact htail h fun _ => not_not.mp hwps
    | some y =>
      obtain ⟨p, len⟩ := y
      rw [hie] at h
      obtain ⟨z, hcopy, h⟩ := Outcome.bind_eq_done.mp h
      rw [if_neg (not_not.mpr (copyWpaIe_status (checkWpa_some hie) hcopy))] at h
      exact htail h fun hno => by rw [hie] at hno; cases hno
  · rw [if_pos hwpa] at h
    cases h
    exact ⟨fun h => absurd h hwpa, fun hv => absurd hv.wpa hwpa⟩

/-- The status of the answer is a fact about the request. -/
theorem assocChecks_status {pktLen : Nat} (h : assocChecks c m pktLen r = .done x) :
    x.status = .successful ↔ Acceptable c m pktLen := by
  unfold assocChecks at h
  unfold Acceptable
  dsimp only at h
  generalize assocIes m pktLen = i at h ⊢
  cases hparse : rtwParseElems m i.at' i.len with
  | none =>
    rw [hparse] at h
    cases h
    simp
  | some e =>
    rw [hparse] at h
    dsimp only at h
    split at h
    · rename_i hssid
      cases h
      have hnone : e.ssid = none := by simpa using hssid
      simp [hnone]
    · rename_i hssid
      split at h
      · rename_i hcheck
        cases h
        simp at hcheck
        simp [hcheck]
      · rename_i hcheck
        obtain ⟨y, hrates, h⟩ := Outcome.bind_eq_done.mp h
        have hok : e.ssid.isSome ∧ checkSsid c m i = true :=
          ⟨Option.isSome_iff_ne_none.mpr (by simpa using hssid), by simpa using hcheck⟩
        cases y with
        | none =>
          cases h
          refine ⟨fun h => absurd h (by simp), ?_⟩
          rintro ⟨e', -, -, -, hv⟩
          exact absurd hv.rates (by simp [checkRates_none hrates])
        | some rates =>
          rw [checkSecurity_status h (checkRates_some hrates)]
          constructor
          · intro hv
            exact ⟨e, rfl, hok.1, hok.2, hv⟩
          · rintro ⟨e', he', -, -, hv⟩
            cases he'
            exact hv

end Request

/-! ## The frames -/

/-- The request of a station that may ask, long enough for its fixed fields. -/
def Asks (a : Ap) (f : RecvFrame) (s : StaSlot) : Prop :=
  (assocIes (f.buf.shift f.rxData) f.len).at' ≤ f.len ∧
    a.priv.getStainfo (Wifi.getAddr2 (f.buf.shift f.rxData) 0) = some s ∧ a.mayAsk s = true

theorem onAssocReq_overrun {a : Ap} {f : RecvFrame} :
    onAssocReq a f = .overrun ↔
      (∃ s, Asks a f s) ∧ ¬ RequestFits a.assocConf (f.buf.shift f.rxData) f.len := by
  unfold onAssocReq Asks
  dsimp only
  generalize f.buf.shift f.rxData = m
  by_cases hlen : f.len < (assocIes m f.len).at'
  · have hpast : ¬ (assocIes m f.len).at' ≤ f.len := by omega
    simp [hlen, hpast]
  · rw [if_neg hlen]
    cases a.priv.getStainfo (Wifi.getAddr2 m 0) with
    | none => simp
    | some s =>
      dsimp only
      by_cases hask : a.mayAsk s = true
      · rw [if_neg (by simp [hask]), Outcome.bind_eq_overrun, assocChecks_overrun]
        simp [hask]
        omega
      · simp [hask]

/-- **When the bodies of received elements fit their arrays.** Of the frames `OnAuthClient`
handles, exactly those with a challenge of more than 128 bytes that is taken do not; of the
requests `OnAssocReq` handles, exactly those whose rates together are more than 16 bytes, or, when
a group owner gets to them, one of whose P2P elements has a capability of more than two bytes, or
whose WFD element is larger than `wfd_ie` or has a device info of more than ten. -/
theorem element_bodies_fit (c : AuthClient) (m : Mem) (pktLen : Nat) (a : Ap) (f : RecvFrame) :
    (onAuthClient c m pktLen ≠ .overrun ↔ (TakesChallenge c m → ChallengeFits m pktLen)) ∧
      (onAssocReq a f ≠ .overrun ↔ ((∃ s, Asks a f s) →
        RequestFits a.assocConf (f.buf.shift f.rxData) f.len)) := by
  constructor
  · rw [ne_eq, onAuthClient_overrun, not_and, not_not]
  · rw [ne_eq, onAssocReq_overrun, not_and, not_not]

/-- A management frame from `sa` to an access point whose address is zero. -/
def mgtFrame (fc0 fc1 : UInt8) (sa : MacAddr) (body : List UInt8) : RecvFrame :=
  let bytes := [fc0, fc1, 0, 0] ++ List.replicate 6 0 ++ sa.bytes ++ List.replicate 8 0 ++ body
  { id := 0, len := bytes.length, rxTail := bytes.length, rxEnd := 2048
    buf := fun k => bytes.getD k 0 }

/-- An open-system authentication. -/
def openAuth (sa : MacAddr) : RecvFrame := mgtFrame 0xb0 0 sa [0, 0, 1, 0, 0, 0]

/-- An association request for the network `a`. -/
def assocReq (sa : MacAddr) (elems : List UInt8) : RecvFrame :=
  mgtFrame 0 0 sa ([0x21, 0x04, 0, 0] ++ [0, 1, 0x61] ++ elems)

/-- The access point of the network `a`. -/
def sampleAp : Ap := startAp { assoc := { ssid := [0x61] } } .allowAll 3 numSta {}

/-- Eight rates and nine more. -/
def tooManyRates : RecvFrame :=
  assocReq ⟨2, 0, 0, 0, 0, 1⟩ ([1, 8] ++ List.replicate 8 2 ++ [50, 9] ++ List.replicate 9 2)

/-- The second frame of the handshake with a challenge of 200 bytes. -/
def longChallenge : RecvFrame :=
  mgtFrame 0xb0 0 ⟨2, 0, 0, 0, 0, 1⟩ ([1, 0, 2, 0, 0, 0] ++ [16, 200] ++ List.replicate 200 1)

/-- The rates do not fit, after an authentication anybody gets; nor does the challenge. -/
theorem long_elements_overrun :
    (∃ a, runActions apStep sampleAp [.auth (openAuth ⟨2, 0, 0, 0, 0, 1⟩)] = .done a ∧
      onAssocReq a tooManyRates = .overrun) ∧
    onAuthClient { authState := true, authAlgo := .shared } longChallenge.buf
      longChallenge.len = .overrun := by
  constructor
  · obtain ⟨a, ha, h⟩ := Outcome.of_view
      (f := fun a => (onAssocReq a tooManyRates).leaves)
      (show (runActions apStep sampleAp [.auth (openAuth ⟨2, 0, 0, 0, 0, 1⟩)]).view _ = some true
        by decide)
    exact ⟨a, ha, Outcome.leaves_iff.mp h⟩
  · have h : (onAuthClient { authState := true, authAlgo := .shared } longChallenge.buf
        longChallenge.len).leaves = true := by decide +kernel
    exact Outcome.leaves_iff.mp h

end Rtl8812au
