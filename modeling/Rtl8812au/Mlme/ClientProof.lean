import Rtl8812au.Lib.History
import Rtl8812au.Mlme.Client

/-!
# Every attempt to join comes to one end

The bits of `pmlmeinfo->state` only ever show one of a few phases, and everything the handlers do is a move
between these. From the moves it follows that a phase that waits for something has the timer set, that an
attempt has one result at the most, that it gives up after a bounded number of timeouts whatever is heard in
between, and that a station that takes itself for associated has heard a beacon, an authentication and an
association response in this order. None of the handlers asks who has sent the last two.

All of it is for runs in which a command that starts nothing does not come in the middle of an attempt: it
would stop the timer, or change the address, and leave the attempt as it is. Nor may an ad hoc link be turned
into that of a station; `rtw_set_802_11_infrastructure_mode` gives it up first. A challenge longer than
`chg_txt` is the end of a run.
-/

namespace Rtl8812au

/-! ## Phases -/

/-- `_HW_STATE_NOLINK_`, `_HW_STATE_ADHOC_`, `_HW_STATE_STATION_`, `_HW_STATE_AP_`. -/
inductive HwState where
  | nolink
  | adhoc
  | station
  | ap
  deriving DecidableEq

/-- Where an attempt stands. -/
inductive Phase where
  | idle (hw : HwState)
  /-- A beacon is waited for. -/
  | beacon
  | auth
  | assoc
  | linked
  /-- With another station in an ad hoc network, or its maker. -/
  | adhocLinked
  deriving DecidableEq

namespace Phase

/-- The bits of a phase. -/
def state : Phase → UInt32
  | .idle .nolink => wifiFwNullState
  | .idle .adhoc => wifiFwAdhocState
  | .idle .station => wifiFwStationState
  | .idle .ap => wifiFwApState
  | .beacon => wifiFwAuthNull ||| wifiFwStationState
  | .auth => wifiFwAuthState ||| wifiFwStationState
  | .assoc => wifiFwAuthSuccess ||| wifiFwAssocState ||| wifiFwStationState
  | .linked => wifiFwAuthSuccess ||| wifiFwAssocSuccess ||| wifiFwStationState
  | .adhocLinked => wifiFwAdhocState ||| wifiFwAssocSuccess

/-- Something is waited for. -/
def linking : Phase → Bool
  | .beacon | .auth | .assoc => true
  | _ => false

/-- No access point is joined, and none is being joined. -/
def apart : Phase → Bool
  | .idle _ | .adhocLinked => true
  | _ => false

theorem apart_of_not (p : Phase) (h : p.linking = false) (hl : p ≠ .linked) : p.apart = true := by
  cases p with
  | idle hw => rfl
  | adhocLinked => rfl
  | linked => exact absurd rfl hl
  | beacon => cases h
  | auth => cases h
  | assoc => cases h

end Phase

namespace Client

variable {c c' : Client} {p q : Phase} {env : BeaconEnv} {f : RecvFrame} {net : WlanBssidEx}
  {e : ClientEvent}

/-! What the tests of the handlers say in a phase. -/

theorem is_eq (h : c.state = p.state) (bits : UInt32) : c.is bits = (p.state &&& bits != 0) := by
  unfold Client.is
  rw [h]

theorem is_authNull (h : c.state = p.state) : c.is wifiFwAuthNull = true ↔ p = .beacon := by
  rw [is_eq h]
  rcases p with (_ | _ | _ | _) | _ | _ | _ | _ | _ <;> decide

theorem is_authState (h : c.state = p.state) : c.is wifiFwAuthState = true ↔ p = .auth := by
  rw [is_eq h]
  rcases p with (_ | _ | _ | _) | _ | _ | _ | _ | _ <;> decide

theorem is_assocState (h : c.state = p.state) : c.is wifiFwAssocState = true ↔ p = .assoc := by
  rw [is_eq h]
  rcases p with (_ | _ | _ | _) | _ | _ | _ | _ | _ <;> decide

theorem is_assocSuccess (h : c.state = p.state) :
    c.is wifiFwAssocSuccess = true ↔ p = .linked ∨ p = .adhocLinked := by
  rw [is_eq h]
  rcases p with (_ | _ | _ | _) | _ | _ | _ | _ | _ <;> decide

theorem is_linking (h : c.state = p.state) :
    c.is wifiFwLinkingState = true ↔ p.linking = true ∨ p = .linked := by
  rw [is_eq h]
  rcases p with (_ | _ | _ | _) | _ | _ | _ | _ | _ <;> decide

theorem is_asked (h : c.state = p.state) :
    c.is (wifiFwAuthSuccess ||| wifiFwAssocState) = true ↔ p = .assoc ∨ p = .linked := by
  rw [is_eq h]
  rcases p with (_ | _ | _ | _) | _ | _ | _ | _ | _ <;> decide

theorem isAdhoc_iff (h : c.state = p.state) :
    c.isAdhoc = true ↔ p = .idle .adhoc ∨ p = .adhocLinked := by
  unfold isAdhoc
  rw [h]
  rcases p with (_ | _ | _ | _) | _ | _ | _ | _ | _ <;> decide

theorem associated_iff (h : c.state = p.state) : c.isClientAssociatedToAp = true ↔ p = .linked := by
  unfold isClientAssociatedToAp isStation
  rw [is_eq h, h]
  rcases p with (_ | _ | _ | _) | _ | _ | _ | _ | _ <;> decide

theorem associatedToIbss_iff (h : c.state = p.state) :
    c.isClientAssociatedToIbss = true ↔ p = .adhocLinked := by
  unfold isClientAssociatedToIbss isAdhoc
  rw [is_eq h, h]
  rcases p with (_ | _ | _ | _) | _ | _ | _ | _ | _ <;> decide

/-! ## Which runs -/

/-- Something is waited for. -/
def waits (c : Client) : Bool := c.is (wifiFwAuthNull ||| wifiFwAuthState ||| wifiFwAssocState)

theorem waits_eq (h : c.state = p.state) : c.waits = p.linking := by
  unfold waits
  rw [is_eq h]
  rcases p with (_ | _ | _ | _) | _ | _ | _ | _ | _ <;> decide

/-- An attempt starts. -/
def isJoin : ClientEvent → Bool
  | .join _ _ => true
  | .createBss _ net => net.infrastructureMode = ndis802_11Ibss
  | _ => false

def isTimeout : ClientEvent → Bool
  | .linkTimer => true
  | _ => false

/-- Neither the start of an attempt nor a timeout. -/
def plain (e : ClientEvent) : Bool := !isJoin e && !isTimeout e

/-- A timer runs out only when it is set. What cannot be joined is not joined in the middle of an attempt,
what cannot be made is not made then or in a link, and an ad hoc link does not become that of a station. -/
def ok (c : Client) : ClientEvent → Prop
  | .join net tooLong =>
    tooLong = false ∧ (net.capability &&& capEss ≠ 0 ∨ net.capability &&& capIbss ≠ 0) ∨ c.waits = false
  | .createBss env net => net.infrastructureMode ≠ ndis802_11Ibss
    ∨ env.tooLong = false ∧ net.capability &&& capIbss ≠ 0
    ∨ c.waits = false ∧ c.isClientAssociatedToAp = false
  | .setopmode .infrastructure => c.isClientAssociatedToIbss = false
  | .linkTimer => c.linkTimer ≠ none
  | _ => True

instance (c : Client) : ∀ e, Decidable (ok c e)
  | .join _ _ => inferInstanceAs (Decidable (_ ∨ _))
  | .createBss _ _ => inferInstanceAs (Decidable (_ ∨ _))
  | .setopmode .infrastructure => inferInstanceAs (Decidable (_ = false))
  | .linkTimer => inferInstanceAs (Decidable (c.linkTimer ≠ none))
  | .setopmode .apMode => .isTrue trivial
  | .staAdd _ => .isTrue trivial
  | .disconnect => .isTrue trivial
  | .stopApMode => .isTrue trivial
  | .setauth _ => .isTrue trivial
  | .beacon _ _ => .isTrue trivial
  | .auth _ => .isTrue trivial
  | .assocRsp _ => .isTrue trivial
  | .deauth _ => .isTrue trivial
  | .disassoc _ => .isTrue trivial
  | .linkLost _ _ => .isTrue trivial

/-! ## Moves -/

/-- The course of an attempt is the same. -/
structure SameCourse (c c' : Client) : Prop where
  linkTimer : c'.linkTimer = c.linkTimer
  joinRes : c'.joinRes = c.joinRes
  reauthCount : c'.reauthCount = c.reauthCount
  reassocCount : c'.reassocCount = c.reassocCount
  aid : c'.aid = c.aid

theorem SameCourse.refl (c : Client) : SameCourse c c := ⟨rfl, rfl, rfl, rfl, rfl⟩

/-- An authentication frame that ends the authentication with the algorithm in use. -/
def Authenticates (me : MacAddr) (algo : AuthAlgrthm) (f : RecvFrame) : Prop :=
  Wifi.getDa f.buf f.rxData = me ∧ (authFields f).status = 0
    ∧ ((authFields f).seq = 2 ∧ algo ≠ .shared ∨ (authFields f).seq = 4 ∧ algo = .shared)

/-- An association response that lets the station in, with the number it is given. -/
def Admits (me : MacAddr) (aid : Nat) (f : RecvFrame) : Prop :=
  Wifi.getDa f.buf f.rxData = me ∧ f.buf.le16 (f.rxData + wlanHdrA3Len + 2) = 0
    ∧ aid = f.buf.le16 (f.rxData + wlanHdrA3Len + 4) &&& 0x3fff

/-- **Everything a step can do** to an attempt, from phase `p` to phase `q`. -/
inductive Goes (p : Phase) (c c' : Client) : ClientEvent → Phase → Prop where
  | same {e : ClientEvent} : plain e = true → SameCourse c c' → Goes p c c' e p
  | begun {net : WlanBssidEx} {t : Nat} : net.capability &&& capEss ≠ 0 → c'.linkTimer = some t →
      c'.joinRes = c.joinRes → Goes p c c' (.join net false) .beacon
  | answered {e : ClientEvent} {res : Int} {q : Phase} : isJoin e = true → q.apart = true →
      c'.joinRes = c.joinRes ++ [res] → Goes p c c' e q
  | unstarted {e : ClientEvent} {q : Phase} : isJoin e = true → q.apart = true →
      c'.joinRes = c.joinRes → Goes p c c' e q
  | dropped {e : ClientEvent} {q : Phase} : plain e = true → q.apart = true →
      (c'.linkTimer = c.linkTimer ∨ c'.linkTimer = none) → c'.joinRes = c.joinRes → Goes p c c' e q
  | lost {e : ClientEvent} : plain e = true → p.linking = true → c'.linkTimer = c.linkTimer →
      c'.joinRes = c.joinRes ++ [-2] → Goes p c c' e (.idle .nolink)
  | heard {env : BeaconEnv} {f : RecvFrame} {t : Nat} : p = .beacon → env.scanProcess = false →
      Wifi.getAddr3 f.buf f.rxData = c.bssid → c'.linkTimer = some t → c'.joinRes = c.joinRes →
      c'.reauthCount = 0 → c'.reassocCount = 0 → Goes p c c' (.beacon env f) .auth
  | retried {f : RecvFrame} {t : Nat} : p = .auth → c'.linkTimer = some t → c'.joinRes = c.joinRes →
      c'.reauthCount = c.reauthCount → c'.reassocCount = c.reassocCount → Goes p c c' (.auth f) .auth
  | proven {f : RecvFrame} {t : Nat} {algo : AuthAlgrthm} : p = .auth → Authenticates c.myid algo f →
      c'.linkTimer = some t → c'.joinRes = c.joinRes → c'.reassocCount = c.reassocCount →
      Goes p c c' (.auth f) .assoc
  | refused {f : RecvFrame} : p = .assoc → c'.linkTimer = none → c'.joinRes = c.joinRes ++ [-4] →
      Goes p c c' (.assocRsp f) (.idle .nolink)
  | admitted {f : RecvFrame} : p = .assoc → Admits c.myid c'.aid f → c'.linkTimer = none →
      c'.joinRes = c.joinRes ++ [(c'.aid : Int)] → Goes p c c' (.assocRsp f) .linked
  | reauth {t : Nat} : p = .auth → c.reauthCount < reauthLimit → c'.linkTimer = some t →
      c'.joinRes = c.joinRes → c'.reauthCount = c.reauthCount + 1 → c'.reassocCount = c.reassocCount →
      Goes p c c' .linkTimer .auth
  | reassoc {t : Nat} : p = .assoc → c.reassocCount < reassocLimit → c'.linkTimer = some t →
      c'.joinRes = c.joinRes → c'.reassocCount = c.reassocCount + 1 → Goes p c c' .linkTimer .assoc
  | gaveUp {res : Int} : p.linking = true → c'.linkTimer = none → c'.joinRes = c.joinRes ++ [res] →
      Goes p c c' .linkTimer (.idle .nolink)
  | stale : p.linking = false → SameCourse { c with linkTimer := none } c' → Goes p c c' .linkTimer p

/-- A step from phase `p`: its move, and what no step changes. -/
structure Moves (p : Phase) (c c' : Client) (e : ClientEvent) (q : Phase) : Prop where
  state : c'.state = q.state
  myid : c'.myid = c.myid
  bssid : isJoin e = false → q.apart = true ∨ c'.bssid = c.bssid
  goes : Goes p c c' e q

theorem Moves.stays (h : c.state = p.state) (he : plain e = true) : Moves p c c e p :=
  ⟨h, rfl, fun _ => Or.inr rfl, .same he (.refl c)⟩

theorem receiveDisconnect_moves {macAddr : MacAddr} {reason : Nat} (h : c.state = p.state)
    (he : plain e = true) : ∃ q, Moves p c (c.receiveDisconnect macAddr reason) e q := by
  unfold receiveDisconnect
  split
  · exact ⟨p, .stays h he⟩
  · split
    · by_cases hs : c.is wifiFwAssocSuccess = true
      · rw [if_pos hs]
        exact ⟨.idle .nolink, rfl, rfl, fun _ => Or.inr rfl, .dropped he rfl (Or.inl rfl) rfl⟩
      · rw [if_neg hs]
        by_cases hl : c.is wifiFwLinkingState = true
        · rw [if_pos hl]
          have hp : p.linking = true := by
            rcases (is_linking h).mp hl with hp | hp
            · exact hp
            · exact absurd ((is_assocSuccess h).mpr (Or.inl hp)) hs
          exact ⟨.idle .nolink, rfl, rfl, fun _ => Or.inr rfl, .lost he hp rfl rfl⟩
        · rw [if_neg hl]
          exact ⟨p, .stays h he⟩
    · exact ⟨p, .stays h he⟩

/-- What is left of the link before a join. -/
theorem leaveFirst_state (h : c.state = p.state) (hw : p.linking = false) :
    ∃ q : Phase, q.apart = true ∧ c.leaveFirst.state = q.state := by
  unfold leaveFirst
  by_cases hs : c.is wifiFwAssocSuccess = true
  · rw [if_pos hs]
    exact ⟨.idle .nolink, rfl, rfl⟩
  · rw [if_neg hs]
    exact ⟨p, p.apart_of_not hw fun hp => hs ((is_assocSuccess h).mpr (Or.inl hp)), h⟩

theorem leaveFirst_myid (c : Client) : c.leaveFirst.myid = c.myid := by
  unfold leaveFirst
  split <;> rfl

theorem leaveFirst_joinRes (c : Client) : c.leaveFirst.joinRes = c.joinRes := by
  unfold leaveFirst
  split <;> rfl

theorem joinCmdHdl_moves {tooLong : Bool} (h : c.state = p.state) (hok : ok c (.join net tooLong)) :
    ∃ q, Moves p c (c.joinCmdHdl net tooLong) (.join net tooLong) q := by
  have hnot : ¬ (tooLong = false ∧ (net.capability &&& capEss ≠ 0 ∨ net.capability &&& capIbss ≠ 0)) →
      ∃ q : Phase, q.apart = true ∧ c.leaveFirst.state = q.state := by
    intro hne
    have hw := hok.resolve_left hne
    rw [waits_eq h] at hw
    exact leaveFirst_state h hw
  unfold joinCmdHdl startClntJoin
  cases tooLong with
  | true =>
      obtain ⟨q, hq, hstate⟩ := hnot fun hne => nomatch hne.1
      exact ⟨q, hstate, c.leaveFirst_myid, nofun, .unstarted rfl hq c.leaveFirst_joinRes⟩
  | false =>
      dsimp only
      rw [if_neg Bool.false_ne_true]
      by_cases hess : net.capability &&& capEss = 0
      · rw [if_neg (by simpa using hess)]
        by_cases hibss : net.capability &&& capIbss = 0
        · rw [if_neg (by simpa using hibss)]
          obtain ⟨q, hq, hstate⟩ := hnot fun hne => hne.2.elim (absurd hess) (absurd hibss)
          exact ⟨q, hstate, c.leaveFirst_myid, nofun, .unstarted rfl hq c.leaveFirst_joinRes⟩
        · rw [if_pos (by simpa using hibss)]
          have hres : c.leaveFirst.joinRes ++ [1] = c.joinRes ++ [1] := by rw [c.leaveFirst_joinRes]
          exact ⟨.idle .adhoc, rfl, c.leaveFirst_myid, nofun, .answered rfl rfl hres⟩
      · rw [if_pos (by simpa using hess)]
        exact ⟨.beacon, rfl, c.leaveFirst_myid, nofun, .begun hess rfl c.leaveFirst_joinRes⟩

/-- An ad hoc network is made, or nothing is. -/
theorem createbssHdl_moves {env : CreateEnv} (h : c.state = p.state) (hok : ok c (.createBss env net)) :
    ∃ q, Moves p c (c.createbssHdl env net) (.createBss env net) q := by
  unfold createbssHdl
  by_cases hibss : net.infrastructureMode = ndis802_11Ibss
  · have hj : isJoin (.createBss env net) = true := decide_eq_true hibss
    have hbssid : ∀ {q : Phase} {b : MacAddr}, isJoin (.createBss env net) = false →
        q.apart = true ∨ b = c.bssid := fun hne => absurd (hj.symm.trans hne) (by decide)
    have hp : ¬ (env.tooLong = false ∧ net.capability &&& capIbss ≠ 0) → p.apart = true := by
      intro hne
      obtain ⟨hw, ha⟩ := (hok.resolve_left (not_not_intro hibss)).resolve_left hne
      rw [waits_eq h] at hw
      exact p.apart_of_not hw fun hl => absurd ((associated_iff h).mpr hl) (by rw [ha]; decide)
    by_cases hap : c.state = wifiFwApState
    · rw [if_pos hap]
      exact ⟨.idle .ap, hap, rfl, hbssid, .unstarted hj rfl rfl⟩
    · rw [if_neg hap, if_pos hibss]
      dsimp only
      by_cases hlong : env.tooLong = true
      · rw [if_pos hlong]
        exact ⟨p, h, rfl, hbssid, .unstarted hj (hp fun hne => Bool.false_ne_true (hne.1.symm.trans hlong)) rfl⟩
      · rw [if_neg hlong]
        unfold startCreateIbss
        by_cases hcap : net.capability &&& capIbss = 0
        · rw [if_neg (by simpa using hcap)]
          exact ⟨p, h, rfl, hbssid, .unstarted hj (hp fun hne => hne.2 hcap) rfl⟩
        · rw [if_pos (by simpa using hcap)]
          cases env.beaconSent with
          | true => exact ⟨.adhocLinked, rfl, rfl, hbssid, .answered hj rfl rfl⟩
          | false => exact ⟨.idle .nolink, rfl, rfl, hbssid, .answered hj rfl rfl⟩
  · have he : plain (.createBss env net) = true := by simp [plain, isJoin, isTimeout, hibss]
    by_cases hap : c.state = wifiFwApState
    · rw [if_pos hap]
      exact ⟨.idle .ap, hap, rfl, fun _ => Or.inl rfl, .dropped he rfl (Or.inl rfl) rfl⟩
    · rw [if_neg hap, if_neg hibss]
      exact ⟨p, .stays h he⟩

theorem staAdd_moves {beaconSent : Bool} (h : c.state = p.state) :
    ∃ q, Moves p c (c.mlmeextStaAddEventCallback beaconSent) (.staAdd beaconSent) q := by
  have he : plain (.staAdd beaconSent) = true := rfl
  unfold mlmeextStaAddEventCallback
  by_cases hadhoc : c.isAdhoc = true
  · rw [if_pos hadhoc]
    by_cases hs : c.is wifiFwAssocSuccess = true
    · rw [if_pos hs]
      exact ⟨p, .stays h he⟩
    · rw [if_neg hs]
      -- the first station: the network has been joined, and no more
      have hp : p = .idle .adhoc := by
        rcases (isAdhoc_iff h).mp hadhoc with hp | hp
        · exact hp
        · exact absurd ((is_assocSuccess h).mpr (Or.inr hp)) hs
      subst hp
      cases beaconSent with
      | true =>
          refine ⟨.adhocLinked, ?_, rfl, fun _ => Or.inr rfl, .dropped he rfl (Or.inl rfl) rfl⟩
          show c.state ||| wifiFwAssocSuccess = _
          rw [h]
          decide
      | false =>
          refine ⟨.idle .nolink, ?_, rfl, fun _ => Or.inr rfl, .dropped he rfl (Or.inl rfl) rfl⟩
          show c.state ^^^ wifiFwAdhocState = _
          rw [h]
          decide
  · rw [if_neg hadhoc]
    exact ⟨p, .stays h he⟩

theorem setopmodeHdl_moves {mode : OpMode} (h : c.state = p.state) (hok : ok c (.setopmode mode)) :
    ∃ q, Moves p c (c.setopmodeHdl mode) (.setopmode mode) q := by
  have he : plain (.setopmode mode) = true := rfl
  cases mode with
  | apMode => exact ⟨.idle .ap, rfl, rfl, fun _ => Or.inr rfl, .dropped he rfl (Or.inl rfl) rfl⟩
  | infrastructure =>
      have hstate : (c.setopmodeHdl .infrastructure).state = p.state &&& ~~~0x03 ||| wifiFwStationState := by
        rw [← h]
        rfl
      have hstay : p.state &&& ~~~0x03 ||| wifiFwStationState = p.state →
          Moves p c (c.setopmodeHdl .infrastructure) (.setopmode .infrastructure) p := fun hp =>
        ⟨hstate.trans hp, rfl, fun _ => Or.inr rfl, .same he ⟨rfl, rfl, rfl, rfl, rfl⟩⟩
      cases p with
      | idle hw =>
          refine ⟨.idle .station, ?_, rfl, fun _ => Or.inr rfl, .dropped he rfl (Or.inl rfl) rfl⟩
          rw [hstate]
          cases hw <;> decide
      | beacon => exact ⟨.beacon, hstay (by decide)⟩
      | auth => exact ⟨.auth, hstay (by decide)⟩
      | assoc => exact ⟨.assoc, hstay (by decide)⟩
      | linked => exact ⟨.linked, hstay (by decide)⟩
      | adhocLinked =>
          have hibss := (associatedToIbss_iff h).mpr rfl
          exact absurd (hibss.symm.trans hok) (by decide)

theorem onBeacon_moves (h : c.state = p.state) :
    ∃ q, Moves p c (c.onBeacon env f) (.beacon env f) q := by
  have he : plain (.beacon env f) = true := rfl
  unfold onBeacon
  by_cases hscan : env.scanProcess = true
  · rw [if_pos hscan]
    exact ⟨p, .stays h he⟩
  · rw [if_neg hscan]
    by_cases haddr : Wifi.getAddr3 f.buf f.rxData = c.bssid
    · rw [if_neg (not_not_intro haddr)]
      by_cases hnull : c.is wifiFwAuthNull = true
      · rw [if_pos hnull]
        have hp := (is_authNull h).mp hnull
        refine ⟨.auth, ?_, rfl, fun _ => Or.inr rfl,
          .heard hp (Bool.eq_false_iff.mpr hscan) haddr rfl rfl rfl rfl⟩
        show c.state &&& ~~~wifiFwAuthNull ||| wifiFwAuthState = _
        rw [h, hp]
        decide
      · rw [if_neg hnull]
        split
        · split
          · exact receiveDisconnect_moves h he
          · exact ⟨p, .stays h he⟩
        · split
          · exact ⟨p, h, rfl, fun _ => Or.inr rfl, .same he ⟨rfl, rfl, rfl, rfl, rfl⟩⟩
          · exact ⟨p, .stays h he⟩
    · rw [if_pos haddr]
      exact ⟨p, .stays h he⟩

/-- The authentication is done. -/
theorem startClntAssoc_moves (h : c.state = p.state) (hp : p = .auth) {algo : AuthAlgrthm}
    (hf : Authenticates c.myid algo f) : Moves p c c.startClntAssoc (.auth f) .assoc := by
  refine ⟨?_, rfl, fun _ => Or.inr rfl, .proven hp hf rfl rfl rfl⟩
  show c.state &&& ~~~(wifiFwAuthNull ||| wifiFwAuthState) ||| (wifiFwAuthSuccess ||| wifiFwAssocState) = _
  rw [h, hp]
  decide

theorem challenged_moves (h : c.state = p.state) (hp : p = .auth) (hdone : c.challenged f = .done c') :
    ∃ q, Moves p c c' (.auth f) q := by
  have he : plain (.auth f) = true := rfl
  unfold challenged at hdone
  split at hdone
  · cases hdone
    exact ⟨p, .stays h he⟩
  · split at hdone
    · cases hdone
      exact ⟨.auth, hp ▸ h, rfl, fun _ => Or.inr rfl, .retried hp rfl rfl rfl rfl⟩
    · cases hdone

theorem onAuthClient_moves (h : c.state = p.state) (hdone : c.onAuthClient f = .done c') :
    ∃ q, Moves p c c' (.auth f) q := by
  have he : plain (.auth f) = true := rfl
  have hstay : Outcome.done c = .done c' → ∃ q, Moves p c c' (.auth f) q := by
    intro hd
    cases hd
    exact ⟨p, .stays h he⟩
  unfold onAuthClient at hdone
  by_cases hda : c.myid = Wifi.getDa f.buf f.rxData
  · rw [if_neg (not_not_intro hda)] at hdone
    by_cases hauth : c.is wifiFwAuthState = true
    · rw [if_neg (by rw [hauth]; exact Bool.false_ne_true)] at hdone
      have hp := (is_authState h).mp hauth
      -- accepted: the second frame is the answer, or the challenge of a shared key
      by_cases hstatus : (authFields f).status = 0
      · rw [if_neg (not_not_intro hstatus)] at hdone
        by_cases h2 : (authFields f).seq = 2
        · rw [if_pos h2] at hdone
          by_cases hshared : c.authAlgo = .shared
          · rw [if_pos hshared] at hdone
            exact challenged_moves h hp hdone
          · rw [if_neg hshared] at hdone
            cases hdone
            exact ⟨.assoc, startClntAssoc_moves h hp ⟨hda.symm, hstatus, Or.inl ⟨h2, hshared⟩⟩⟩
        · rw [if_neg h2] at hdone
          -- the fourth one ends the exchange with a shared key
          by_cases h4 : (authFields f).seq = 4
          · rw [if_pos h4] at hdone
            by_cases hshared : c.authAlgo = .shared
            · rw [if_pos hshared] at hdone
              cases hdone
              exact ⟨.assoc, startClntAssoc_moves h hp ⟨hda.symm, hstatus, Or.inr ⟨h4, hshared⟩⟩⟩
            · rw [if_neg hshared] at hdone
              exact hstay hdone
          · rw [if_neg h4] at hdone
            exact hstay hdone
      · rw [if_pos hstatus] at hdone
        cases hdone
        -- refused: the same phase, with the timer set anew and, for status 13, the other algorithm
        refine ⟨.auth, ?_, ?_, fun _ => Or.inr ?_, .retried hp rfl ?_ ?_ ?_⟩
        all_goals
          unfold authRefused
          split
          · first | rfl | exact hp ▸ h
          · first | rfl | exact hp ▸ h
    · rw [if_pos (by rw [Bool.eq_false_iff.mpr hauth]; rfl)] at hdone
      exact hstay hdone
  · rw [if_pos hda] at hdone
    exact hstay hdone

theorem onAssocRsp_moves (h : c.state = p.state) : ∃ q, Moves p c (c.onAssocRsp f) (.assocRsp f) q := by
  have he : plain (.assocRsp f) = true := rfl
  unfold onAssocRsp
  by_cases hda : c.myid = Wifi.getDa f.buf f.rxData
  · rw [if_neg (not_not_intro hda)]
    by_cases hasked : c.is (wifiFwAuthSuccess ||| wifiFwAssocState) = true
    · rw [if_neg (by rw [hasked]; exact Bool.false_ne_true)]
      by_cases hs : c.is wifiFwAssocSuccess = true
      · rw [if_pos hs]
        exact ⟨p, .stays h he⟩
      · rw [if_neg hs]
        have hp : p = .assoc := by
          rcases (is_asked h).mp hasked with hp | hp
          · exact hp
          · exact absurd ((is_assocSuccess h).mpr (Or.inl hp)) hs
        dsimp only
        by_cases hstatus : 0 < f.buf.le16 (f.rxData + wlanHdrA3Len + 2)
        · rw [if_pos hstatus]
          exact ⟨.idle .nolink, rfl, rfl, fun _ => Or.inr rfl, .refused hp rfl rfl⟩
        · rw [if_neg hstatus]
          refine ⟨.linked, ?_, rfl, fun _ => Or.inr rfl,
            .admitted hp ⟨hda.symm, Nat.eq_zero_of_not_pos hstatus, rfl⟩ rfl rfl⟩
          show c.state &&& ~~~wifiFwAssocState ||| wifiFwAssocSuccess = _
          rw [h, hp]
          decide
    · rw [if_pos (by rw [Bool.eq_false_iff.mpr hasked]; rfl)]
      exact ⟨p, .stays h he⟩
  · rw [if_pos hda]
    exact ⟨p, .stays h he⟩

theorem onDeAuth_moves (h : c.state = p.state) : ∃ q, Moves p c (c.onDeAuth f) (.deauth f) q := by
  have he : plain (.deauth f) = true := rfl
  unfold onDeAuth
  dsimp only
  split
  · exact ⟨p, .stays h he⟩
  · split
    · exact ⟨p, .stays h he⟩
    · exact receiveDisconnect_moves h he

theorem onDisassoc_moves (h : c.state = p.state) : ∃ q, Moves p c (c.onDisassoc f) (.disassoc f) q := by
  have he : plain (.disassoc f) = true := rfl
  unfold onDisassoc
  split
  · exact ⟨p, .stays h he⟩
  · exact receiveDisconnect_moves h he

theorem linkTimerHdl_moves (h : c.state = p.state) : ∃ q, Moves p c c.linkTimerHdl .linkTimer q := by
  have hc : c.cancelLinkTimer.state = p.state := h
  unfold linkTimerHdl
  dsimp only
  by_cases hnull : c.cancelLinkTimer.is wifiFwAuthNull = true
  · rw [if_pos hnull]
    have hp := (is_authNull hc).mp hnull
    exact ⟨.idle .nolink, rfl, rfl, fun _ => Or.inr rfl, .gaveUp (by rw [hp]; rfl) rfl rfl⟩
  · rw [if_neg hnull]
    by_cases hauth : c.cancelLinkTimer.is wifiFwAuthState = true
    · rw [if_pos hauth]
      have hp := (is_authState hc).mp hauth
      by_cases hlimit : c.cancelLinkTimer.reauthCount + 1 > reauthLimit
      · rw [if_pos hlimit]
        exact ⟨.idle .nolink, rfl, rfl, fun _ => Or.inr rfl, .gaveUp (by rw [hp]; rfl) rfl rfl⟩
      · rw [if_neg hlimit]
        refine ⟨.auth, hp ▸ hc, rfl, fun _ => Or.inr rfl, .reauth hp ?_ rfl rfl rfl rfl⟩
        exact Nat.lt_of_succ_le (Nat.le_of_not_lt hlimit)
    · rw [if_neg hauth]
      by_cases hassoc : c.cancelLinkTimer.is wifiFwAssocState = true
      · rw [if_pos hassoc]
        have hp := (is_assocState hc).mp hassoc
        by_cases hlimit : c.cancelLinkTimer.reassocCount + 1 > reassocLimit
        · rw [if_pos hlimit]
          exact ⟨.idle .nolink, rfl, rfl, fun _ => Or.inr rfl, .gaveUp (by rw [hp]; rfl) rfl rfl⟩
        · rw [if_neg hlimit]
          refine ⟨.assoc, hp ▸ hc, rfl, fun _ => Or.inr rfl, .reassoc hp ?_ rfl rfl rfl⟩
          exact Nat.lt_of_succ_le (Nat.le_of_not_lt hlimit)
      · rw [if_neg hassoc]
        have hp : p.linking = false := by
          cases p with
          | idle hw => rfl
          | linked => rfl
          | adhocLinked => rfl
          | beacon => exact absurd ((is_authNull hc).mpr rfl) hnull
          | auth => exact absurd ((is_authState hc).mpr rfl) hauth
          | assoc => exact absurd ((is_assocState hc).mpr rfl) hassoc
        exact ⟨p, h, rfl, fun _ => Or.inr rfl, .stale hp ⟨rfl, rfl, rfl, rfl, rfl⟩⟩

/-- **Every step is a move.** -/
theorem clientStep_moves (h : c.state = p.state) (hok : ok c e) (hstep : clientStep c e = .done c') :
    ∃ q, Moves p c c' e q := by
  cases e with
  | join net tooLong => cases hstep; exact joinCmdHdl_moves h hok
  | createBss env net => cases hstep; exact createbssHdl_moves h hok
  | staAdd beaconSent => cases hstep; exact staAdd_moves h
  | disconnect =>
      cases hstep
      have he : plain .disconnect = true := rfl
      exact ⟨.idle .nolink, rfl, rfl, fun _ => Or.inr rfl, .dropped he rfl (Or.inr rfl) rfl⟩
  | setopmode mode => cases hstep; exact setopmodeHdl_moves h hok
  | stopApMode =>
      cases hstep
      have he : plain .stopApMode = true := rfl
      exact ⟨.idle .nolink, rfl, rfl, fun _ => Or.inr rfl, .dropped he rfl (Or.inl rfl) rfl⟩
  | setauth mode =>
      cases hstep
      have he : plain (.setauth mode) = true := rfl
      unfold setauthHdl
      split
      · exact ⟨p, .stays h he⟩
      · exact ⟨p, h, rfl, fun _ => Or.inr rfl, .same he ⟨rfl, rfl, rfl, rfl, rfl⟩⟩
  | beacon env f => cases hstep; exact onBeacon_moves h
  | auth f => exact onAuthClient_moves h hstep
  | assocRsp f => cases hstep; exact onAssocRsp_moves h
  | deauth f => cases hstep; exact onDeAuth_moves h
  | disassoc f => cases hstep; exact onDisassoc_moves h
  | linkTimer => cases hstep; exact linkTimerHdl_moves h
  | linkLost macAddr reason =>
      cases hstep
      exact receiveDisconnect_moves h rfl

/-! ## What holds in every run -/

/-- **What holds in a phase.** -/
structure ClientInv (p : Phase) (c : Client) : Prop where
  state : c.state = p.state
  timed : p.linking = true → c.linkTimer ≠ none
  untimed : p = .linked → c.linkTimer = none
  reauth : p = .auth → c.reauthCount ≤ reauthLimit ∧ c.reassocCount = 0
  reassoc : p = .assoc → c.reassocCount ≤ reassocLimit
  told : p = .linked → c.joinRes.getLast? = some (c.aid : Int)

/-- Nothing more is asked of a phase without an access point. -/
theorem ClientInv.of_apart (hp : p.apart = true) (h : c.state = p.state) : ClientInv p c := by
  have hne : ∀ {P : Prop} {q : Phase}, q.apart = false → p = q → P := by
    rintro P q hq rfl
    rw [hp] at hq
    cases hq
  refine ⟨h, fun hl => ?_, hne rfl, hne rfl, hne rfl, hne rfl⟩
  cases p <;> first | exact absurd hl Bool.false_ne_true | exact absurd hp Bool.false_ne_true

theorem clientInv_start (myid : MacAddr) : ClientInv (.idle .nolink) (.start myid) :=
  .of_apart rfl rfl

/-- **Preserved by every move.** -/
theorem ClientInv.moves (h : ClientInv p c) (hm : Moves p c c' e q) : ClientInv q c' := by
  obtain ⟨hstate, -, -, hgoes⟩ := hm
  cases hgoes with
  | same _ hs =>
      refine ⟨hstate, ?_, ?_, ?_, ?_, ?_⟩
      · rw [hs.linkTimer]; exact h.timed
      · rw [hs.linkTimer]; exact h.untimed
      · rw [hs.reauthCount, hs.reassocCount]; exact h.reauth
      · rw [hs.reassocCount]; exact h.reassoc
      · rw [hs.joinRes, hs.aid]; exact h.told
  -- the phase that is begun runs under the timer, and starts counting from what it clears
  | begun _ ht _ =>
      refine ⟨hstate, fun _ => ?_, nofun, nofun, nofun, nofun⟩
      rw [ht]
      exact Option.some_ne_none _
  | answered _ hq _ => exact .of_apart hq hstate
  | unstarted _ hq _ => exact .of_apart hq hstate
  | dropped _ hq _ _ => exact .of_apart hq hstate
  | lost _ _ _ _ => exact .of_apart rfl hstate
  | heard _ _ _ ht _ hra hrs =>
      refine ⟨hstate, fun _ => ?_, nofun, fun _ => ⟨?_, hrs⟩, nofun, nofun⟩
      · rw [ht]
        exact Option.some_ne_none _
      · rw [hra]
        exact Nat.zero_le _
  -- what moves on within a join keeps the counters that it does not clear
  | retried hp ht _ hra hrs =>
      refine ⟨hstate, fun _ => ?_, nofun, fun _ => ?_, nofun, nofun⟩
      · rw [ht]
        exact Option.some_ne_none _
      · rw [hra, hrs]
        exact h.reauth hp
  | proven hp _ ht _ hrs =>
      refine ⟨hstate, fun _ => ?_, nofun, nofun, fun _ => ?_, nofun⟩
      · rw [ht]
        exact Option.some_ne_none _
      · rw [hrs, (h.reauth hp).2]
        exact Nat.zero_le _
  | refused _ _ _ => exact .of_apart rfl hstate
  -- on the link no timer runs, and the last thing that was told is the AID
  | admitted _ _ ht hj =>
      refine ⟨hstate, nofun, fun _ => ht, nofun, nofun, fun _ => ?_⟩
      rw [hj]
      exact List.getLast?_concat
  | reauth hp hlt ht _ hra hrs =>
      refine ⟨hstate, fun _ => ?_, nofun, fun _ => ⟨?_, ?_⟩, nofun, nofun⟩
      · rw [ht]
        exact Option.some_ne_none _
      · rw [hra]
        exact hlt
      · rw [hrs]
        exact (h.reauth hp).2
  | reassoc _ hlt ht _ hrs =>
      refine ⟨hstate, fun _ => ?_, nofun, nofun, fun _ => ?_, nofun⟩
      · rw [ht]
        exact Option.some_ne_none _
      · rw [hrs]
        exact hlt
  | gaveUp _ _ _ => exact .of_apart rfl hstate
  | stale hp hs =>
      refine ⟨hstate, fun hl => ?_, fun _ => hs.linkTimer, ?_, ?_, ?_⟩
      · rw [hp] at hl
        cases hl
      · rw [hs.reauthCount, hs.reassocCount]; exact h.reauth
      · rw [hs.reassocCount]; exact h.reassoc
      · rw [hs.joinRes, hs.aid]; exact h.told

/-! ## What an attempt can still do -/

/-- The result that is still to be told. -/
def pending (c : Client) : Nat := if c.waits then 1 else 0

/-- The timeouts a phase can still see. -/
def timeouts (p : Phase) (c : Client) : Nat :=
  match p with
  | .beacon => reauthLimit + 1 + reassocLimit
  | .auth => reauthLimit + 1 + reassocLimit - c.reauthCount
  | .assoc => reassocLimit + 1 - c.reassocCount
  | _ => if c.linkTimer = none then 0 else 1

/-- One result for every attempt, and the rest of an attempt is paid for from what its phase has left. -/
structure Spends (p q : Phase) (c c' : Client) (e : ClientEvent) : Prop where
  results : c'.joinRes.length + (if q.linking then 1 else 0)
    ≤ c.joinRes.length + (if p.linking then 1 else 0) + (if isJoin e then 1 else 0)
  timeouts : isJoin e = false →
    (if isTimeout e then 1 else 0) + timeouts q c' ≤ timeouts p c

theorem timeouts_apart (hp : p.apart = true) :
    timeouts p c = if c.linkTimer = none then 0 else 1 := by
  cases p <;> first | rfl | exact absurd hp Bool.false_ne_true

/-- An attempt that is dropped leaves a timer at the most. -/
theorem timeouts_dropped (h : ClientInv p c) (hq : q.apart = true)
    (ht : c'.linkTimer = c.linkTimer ∨ c'.linkTimer = none) : timeouts q c' ≤ timeouts p c := by
  have hle : timeouts q c' ≤ if c.linkTimer = none then 0 else 1 := by
    rw [timeouts_apart hq]
    rcases ht with ht | ht
    · rw [ht]
    · rw [ht]
      exact Nat.zero_le _
  have hone : (if c.linkTimer = none then 0 else 1) ≤ 1 := by split <;> decide
  cases p with
  | idle hw => exact hle
  | linked => exact hle
  | adhocLinked => exact hle
  | beacon =>
      refine Nat.le_trans (Nat.le_trans hle hone) ?_
      rw [timeouts]
      decide
  | auth =>
      refine Nat.le_trans (Nat.le_trans hle hone) ?_
      have := (h.reauth rfl).1
      simp only [timeouts]
      omega
  | assoc =>
      refine Nat.le_trans (Nat.le_trans hle hone) ?_
      have := h.reassoc rfl
      simp only [timeouts]
      omega

/-- A phase without an access point waits for nothing. -/
theorem linking_of_apart (hp : p.apart = true) : p.linking = false := by
  cases p <;> first | rfl | exact absurd hp Bool.false_ne_true

theorem plain_iff : plain e = true ↔ isJoin e = false ∧ isTimeout e = false := by
  rw [plain, Bool.and_eq_true, Bool.not_eq_true', Bool.not_eq_true']

/-- **Every move is paid for.** -/
theorem ClientInv.spends (h : ClientInv p c) (hok : ok c e) (hm : Moves p c c' e q) : Spends p q c c' e := by
  obtain ⟨hstate, -, -, hgoes⟩ := hm
  cases hgoes with
  -- events that leave the join alone spend nothing
  | same he hs =>
      obtain ⟨hj, ht⟩ := plain_iff.mp he
      refine ⟨?_, fun _ => ?_⟩
      · rw [hs.joinRes]
        exact Nat.le_add_right _ _
      · rw [ht]
        cases p <;> simp [timeouts, hs.linkTimer, hs.reauthCount, hs.reassocCount]
  | begun _ _ hj =>
      refine ⟨?_, nofun⟩
      rw [hj]
      exact Nat.add_le_add_right (Nat.le_add_right _ _) 1
  | answered he hq hj =>
      refine ⟨?_, fun hne => absurd (he.symm.trans hne) (by decide)⟩
      rw [hj, he, linking_of_apart hq, List.length_append]
      exact Nat.add_le_add_right (Nat.le_add_right _ _) 1
  | unstarted he hq hj =>
      refine ⟨?_, fun hne => absurd (he.symm.trans hne) (by decide)⟩
      rw [hj, linking_of_apart hq]
      exact Nat.le_trans (Nat.le_add_right _ _) (Nat.le_add_right _ _)
  -- a join that is dropped takes with it the timeouts it still had
  | dropped he hq ht hj =>
      refine ⟨?_, fun _ => ?_⟩
      · rw [hj, linking_of_apart hq]
        exact Nat.le_trans (Nat.le_add_right _ _) (Nat.le_add_right _ _)
      · rw [(plain_iff.mp he).2, if_neg Bool.false_ne_true, Nat.zero_add]
        exact timeouts_dropped h hq ht
  | lost he hp ht hj =>
      refine ⟨?_, fun _ => ?_⟩
      · rw [hj, hp, List.length_append]
        exact Nat.le_add_right _ _
      · rw [(plain_iff.mp he).2, if_neg Bool.false_ne_true, Nat.zero_add]
        exact timeouts_dropped h rfl (Or.inl ht)
  -- within a join the counters go up by one for a timeout and are as before otherwise
  | heard hp _ _ _ hj hra _ =>
      subst hp
      refine ⟨by rw [hj]; exact Nat.le_add_right _ _, fun _ => ?_⟩
      simp [timeouts, isTimeout, hra]
  | retried hp _ hj hra _ =>
      subst hp
      refine ⟨by rw [hj]; exact Nat.le_add_right _ _, fun _ => ?_⟩
      simp [timeouts, isTimeout, hra]
  | proven hp _ _ hj hrs =>
      subst hp
      refine ⟨by rw [hj]; exact Nat.le_add_right _ _, fun _ => ?_⟩
      have := (h.reauth rfl).1
      simp only [timeouts, isTimeout, hrs, Bool.false_eq_true, if_false]
      omega
  | refused hp ht hj =>
      subst hp
      refine ⟨by rw [hj, List.length_append]; exact Nat.le_add_right _ _, fun _ => ?_⟩
      rw [if_neg nofun, Nat.zero_add]
      exact timeouts_dropped h rfl (Or.inr ht)
  | admitted hp _ ht hj =>
      subst hp
      refine ⟨by rw [hj, List.length_append]; exact Nat.le_add_right _ _, fun _ => ?_⟩
      simp [timeouts, isTimeout, ht]
  | reauth hp hlt _ hj hra _ =>
      subst hp
      refine ⟨by rw [hj]; exact Nat.le_add_right _ _, fun _ => ?_⟩
      simp only [timeouts, isTimeout, hra, if_true]
      omega
  | reassoc hp hlt _ hj hrs =>
      subst hp
      refine ⟨by rw [hj]; exact Nat.le_add_right _ _, fun _ => ?_⟩
      simp only [timeouts, isTimeout, hrs, if_true]
      omega
  -- the last timeout of a phase: its counter has come to the limit
  | gaveUp hp ht hj =>
      refine ⟨by rw [hj, hp, List.length_append]; exact Nat.le_add_right _ _, fun _ => ?_⟩
      rw [timeouts_apart rfl, if_pos ht]
      cases p with
      | idle hw => cases hp
      | linked => cases hp
      | adhocLinked => cases hp
      | beacon =>
          simp only [timeouts, isTimeout, if_true]
          decide
      | auth =>
          have := (h.reauth rfl).1
          simp only [timeouts, isTimeout, if_true]
          omega
      | assoc =>
          have := h.reassoc rfl
          simp only [timeouts, isTimeout, if_true]
          omega
  -- a timer that goes off without a join is still set, so the link is not up
  | stale hp hs =>
      refine ⟨by rw [hs.joinRes]; exact Nat.le_add_right _ _, fun _ => ?_⟩
      have hset : c.linkTimer ≠ none := hok
      cases p with
      | beacon => cases hp
      | auth => cases hp
      | assoc => cases hp
      | idle hw => simp [timeouts, isTimeout, hs.linkTimer, hset]
      | adhocLinked => simp [timeouts, isTimeout, hs.linkTimer, hset]
      | linked => exact absurd (h.untimed rfl) hset

/-! ## What an attempt has heard -/

/-- No attempt starts. -/
def quiet (e : ClientEvent) : Prop := isJoin e = false

/-- An attempt to join the access point `b` is under way: from its start on there is no other. -/
def Began (b : MacAddr) (es : List ClientEvent) : Prop :=
  After (fun _ => True) (fun e => ∃ net, e = .join net false ∧ net.capability &&& capEss ≠ 0 ∧ net.macAddress = b)
    quiet es

/-- And a beacon of `b` was heard. -/
def HeardBeacon (b : MacAddr) (es : List ClientEvent) : Prop :=
  After (Began b) (fun e => ∃ env f, e = .beacon env f ∧ env.scanProcess = false
    ∧ Wifi.getAddr3 f.buf f.rxData = b) quiet es

/-- And after it a frame to `me` that ends the authentication. -/
def Authenticated (me b : MacAddr) (es : List ClientEvent) : Prop :=
  After (HeardBeacon b) (fun e => ∃ algo f, e = .auth f ∧ Authenticates me algo f) quiet es

/-- And after that one that admits it as number `aid`. -/
def Admitted (me b : MacAddr) (aid : Nat) (es : List ClientEvent) : Prop :=
  After (Authenticated me b) (fun e => ∃ f, e = .assocRsp f ∧ Admits me aid f) quiet es

/-- What a phase has heard. -/
def Heard (p : Phase) (c : Client) (es : List ClientEvent) : Prop :=
  match p with
  | .idle _ | .adhocLinked => True
  | .beacon => Began c.bssid es
  | .auth => HeardBeacon c.bssid es
  | .assoc => Authenticated c.myid c.bssid es
  | .linked => Admitted c.myid c.bssid c.aid es

variable {es : List ClientEvent}

theorem Heard.of_apart (hp : p.apart = true) : Heard p c es := by
  cases p <;> trivial

/-- Later events that start nothing leave it so. -/
theorem Heard.later (h : Heard p c es) (hmyid : c'.myid = c.myid)
    (hbssid : p.apart = true ∨ c'.bssid = c.bssid) (haid : p = .linked → c'.aid = c.aid) (he : quiet e) :
    Heard p c' (es ++ [e]) := by
  rcases hbssid with hp | hbssid
  · exact .of_apart hp
  unfold Heard at *
  cases p with
  | idle hw => trivial
  | adhocLinked => trivial
  | beacon => rw [hbssid]; exact After.later h he
  | auth => rw [hbssid]; exact After.later h he
  | assoc => rw [hmyid, hbssid]; exact After.later h he
  | linked => rw [hmyid, hbssid, haid rfl]; exact After.later h he

theorem quiet_of_plain (h : plain e = true) : quiet e := (plain_iff.mp h).1

/-- The attempt is at the network it was started for. -/
theorem joinCmdHdl_bssid (hess : net.capability &&& capEss ≠ 0) :
    (c.joinCmdHdl net false).bssid = net.macAddress := by
  unfold joinCmdHdl startClntJoin
  dsimp only
  rw [if_neg Bool.false_ne_true, if_pos (by simpa using hess)]
  rfl

/-- **Heard by every move.** -/
theorem Heard.moves (h : Heard p c es) (hstep : clientStep c e = .done c') (hm : Moves p c c' e q) :
    Heard q c' (es ++ [e]) := by
  obtain ⟨hstate, hmyid, hbssid, hgoes⟩ := hm
  -- in a phase with an access point the address is that of the attempt
  have hb : isJoin e = false → q.apart = false → c'.bssid = c.bssid := by
    intro hj hq
    exact (hbssid hj).resolve_left (by rw [hq]; exact Bool.false_ne_true)
  cases hgoes with
  | same he hs =>
      have hj := quiet_of_plain he
      exact h.later hmyid (hbssid hj) (fun _ => hs.aid) hj
  | @begun net t hess _ _ =>
      cases hstep
      refine After.last trivial ⟨net, rfl, hess, ?_⟩
      exact (joinCmdHdl_bssid hess).symm
  | answered _ hq _ => exact .of_apart hq
  | unstarted _ hq _ => exact .of_apart hq
  | dropped _ hq _ _ => exact .of_apart hq
  | lost _ _ _ _ => trivial
  | @heard env f t hp hscan haddr _ _ _ _ =>
      subst hp
      unfold Heard
      rw [hb rfl rfl]
      exact After.last h ⟨env, f, rfl, hscan, haddr⟩
  | retried hp _ _ _ _ =>
      subst hp
      exact h.later hmyid (hbssid rfl) nofun rfl
  | @proven f t algo hp hf _ _ _ =>
      subst hp
      unfold Heard
      rw [hmyid, hb rfl rfl]
      exact After.last h ⟨algo, f, rfl, hf⟩
  | refused _ _ _ => trivial
  | @admitted f hp hf _ _ =>
      subst hp
      unfold Heard
      rw [hmyid, hb rfl rfl]
      exact After.last h ⟨f, rfl, hf⟩
  | reauth hp _ _ _ _ _ =>
      subst hp
      exact h.later hmyid (hbssid rfl) nofun rfl
  | reassoc hp _ _ _ _ =>
      subst hp
      exact h.later hmyid (hbssid rfl) nofun rfl
  | gaveUp _ _ _ => trivial
  | stale _ hs => exact h.later hmyid (hbssid rfl) (fun _ => hs.aid) rfl

/-! ## Every run -/

/-- What a run has kept, its phase included. -/
structure ClientRun (me : MacAddr) (es : List ClientEvent) (c : Client) (p : Phase) : Prop where
  inv : ClientInv p c
  myid : c.myid = me
  results : c.joinRes.length + (if p.linking then 1 else 0) ≤ es.countP isJoin
  heard : Heard p c es

theorem clientRun_history {me : MacAddr} (h : Traced clientStep ok (.start me) es c) :
    ∃ p, ClientRun me es c p := by
  refine h.invariant (fun es c => ∃ p, ClientRun me es c p)
    ⟨.idle .nolink, clientInv_start me, rfl, Nat.le_refl _, trivial⟩ ?_
  rintro es e c c' ⟨p, hrun⟩ hok hstep
  obtain ⟨q, hm⟩ := clientStep_moves hrun.inv.state hok hstep
  have hspent := (hrun.inv.spends hok hm).results
  refine ⟨q, hrun.inv.moves hm, hm.myid.trans hrun.myid, ?_, hrun.heard.moves hstep hm⟩
  rw [List.countP_append, List.countP_singleton]
  have hbefore := hrun.results
  omega

/-- A run without another attempt has no more timeouts than its phase has left. -/
theorem countP_isTimeout_le {es' : List ClientEvent} (h : ClientInv p c) (hok : RunOk clientStep ok c es')
    (hrun : runActions clientStep c es' = .done c') (hjoin : ∀ e ∈ es', isJoin e = false) :
    es'.countP isTimeout ≤ timeouts p c := by
  refine runActions_spends (fun n c => ∃ p, ClientInv p c ∧ timeouts p c = n) isTimeout ?_ ⟨p, h, rfl⟩
    hjoin hok hrun
  rintro _ c c' e ⟨p, hinv, rfl⟩ he hok hstep
  obtain ⟨q, hm⟩ := clientStep_moves hinv.state hok hstep
  exact ⟨_, ⟨q, hinv.moves hm, rfl⟩, (hinv.spends hok hm).timeouts he⟩

theorem timeouts_le : timeouts p c ≤ reauthLimit + 1 + reassocLimit := by
  cases p with
  | beacon => exact Nat.le_refl _
  | auth => exact Nat.sub_le _ _
  | assoc => exact Nat.le_trans (Nat.sub_le _ _) (by decide)
  | idle hw => simp only [timeouts]; split <;> decide
  | linked => simp only [timeouts]; split <;> decide
  | adhocLinked => simp only [timeouts]; split <;> decide

/-- A station that takes itself for associated has been through an attempt. -/
theorem ClientRun.admitted {me : MacAddr} (h : ClientRun me es c p)
    (hs : c.isClientAssociatedToAp = true) : Admitted me c.bssid c.aid es := by
  have hheard := h.heard
  rw [(associated_iff h.inv.state).mp hs] at hheard
  exact h.myid ▸ hheard

end Client

/-- **What an attempt is promised** after the events `es`. -/
structure JoinKept (me : MacAddr) (es : List ClientEvent) (c : Client) : Prop where
  /-- What is waited for will time out. -/
  timed : c.waits = true → c.linkTimer ≠ none
  /-- No attempt has more than one result, and one that has not ended none yet. -/
  oneResult : c.joinRes.length + c.pending ≤ es.countP Client.isJoin
  /-- A station that takes itself for associated was told so last. -/
  told : c.isClientAssociatedToAp = true → c.joinRes.getLast? = some (c.aid : Int)
  /-- And it has heard the network it joined, and was authenticated and admitted, in this order. -/
  heard : c.isClientAssociatedToAp = true → Client.Admitted me c.bssid c.aid es
  /-- Whatever is heard from now on, there are only so many timeouts until the next attempt. -/
  givesUp : ∀ {es' : List ClientEvent} {c' : Client}, RunOk clientStep Client.ok c es' →
    runActions clientStep c es' = .done c' → (∀ e ∈ es', Client.isJoin e = false) →
    es'.countP Client.isTimeout ≤ reauthLimit + 1 + reassocLimit

/-- A management frame to a station from its access point, with its subtype and a body. -/
def sampleMgntFrame (subtype : UInt8) (me b : MacAddr) (body : List UInt8) : RecvFrame :=
  { id := 0
    buf := fun k => ([subtype, 0, 0, 0] ++ [me, b, b].flatMap MacAddr.bytes ++ [0, 0] ++ body).getD k 0 }

/-- A network: the fixed elements, with a beacon interval of 100 and an access point's capabilities, and its
SSID. -/
def sampleNetwork (b : MacAddr) : WlanBssidEx :=
  { macAddress := b
    ies := fun k => ([0, 0, 0, 0, 0, 0, 0, 0, 100, 0, 1, 0, 0, 3, 97, 112, 49] : List UInt8).getD k 0
    ieLength := 17
    ssid := fun k => ([97, 112, 49] : List UInt8).getD k 0
    ssidLength := 3 }

/-- An ad hoc network, with its SSID. -/
def sampleIbss (b : MacAddr) : WlanBssidEx :=
  { macAddress := b
    ies := fun k => ([0, 0, 0, 0, 0, 0, 0, 0, 100, 0, 2, 0, 0, 5, 97, 100, 104, 111, 99] : List UInt8).getD k 0
    ieLength := 19
    ssid := fun k => ([97, 100, 104, 111, 99] : List UInt8).getD k 0
    ssidLength := 5 }

/-- An ad hoc network is made and left, and an access point is joined with open authentication, the first
request for which is not answered. -/
def sampleClientRun (me b : MacAddr) : List ClientEvent :=
  [.createBss {} (sampleIbss me),
    .disconnect,
    .setopmode .infrastructure,
    .join (sampleNetwork b) false,
    .beacon {} (sampleMgntFrame 0x80 .bcast b []),
    .linkTimer,
    .auth (sampleMgntFrame 0xb0 me b [0, 0, 2, 0, 0, 0]),
    .assocRsp (sampleMgntFrame 0x10 me b [1, 0, 0, 0, 5, 192])]

end Rtl8812au
