import Mathlib.Data.List.Induction
import Rtl8812au.Ap.MlmeRules

/-!
# The shared-key handshake

A station that waits for the third frame has been sent a challenge and has sent nothing since
that `OnAuth` would have taken up. What `OnAuth` then asks of the third frame is less than a
proof that the station knows the key: it does not ask for the Protected bit, nor for the ICV,
nor for the length of the element, and the text of the challenge is always the same.
-/

namespace Rtl8812au

/-- `rtw_get_stainfo` and `rtw_alloc_stainfo` know a station by this address. -/
def staAddr (a : MacAddr) : MacAddr := if a.isMcast then .bcast else a

theorem staAddr_staAddr (a : MacAddr) : staAddr (staAddr a) = staAddr a := by
  have hbcast : MacAddr.bcast.isMcast = true := rfl
  by_cases hm : a.isMcast = true
  · simp [staAddr, hm, hbcast]
  · simp [staAddr, hm]

/-- `chg_txt` as `OnAuth` fills it. -/
abbrev challengeText : List UInt8 := List.replicate 128 78

/-! ## What the other handlers leave alone -/

/-- Both lists name a station once. -/
structure ListsOnce (a : Ap) : Prop where
  auth : a.authList.Nodup
  asoc : a.asocList.Nodup

namespace ListsOnce

variable {a : Ap}

theorem offAuth (h : ListsOnce a) (s : StaSlot) : ListsOnce (a.offAuth s) := by
  unfold Ap.offAuth
  split
  · exact ⟨h.auth.filter _, h.asoc⟩
  · exact h

theorem offAsoc (h : ListsOnce a) (s : StaSlot) : ListsOnce (a.offAsoc s) := by
  unfold Ap.offAsoc
  split
  · exact ⟨h.auth, h.asoc.filter _⟩
  · exact h

theorem ontoAuth (h : ListsOnce a) (s : StaSlot) : ListsOnce (a.ontoAuth s) := by
  unfold Ap.ontoAuth
  split
  · exact h
  · rename_i hs
    exact ⟨nodup_snoc h.auth hs, h.asoc⟩

theorem ontoAsoc (h : ListsOnce a) (s : StaSlot) : ListsOnce (a.ontoAsoc s) := by
  unfold Ap.ontoAsoc
  split
  · exact h
  · rename_i hs
    exact ⟨h.auth, nodup_snoc h.asoc hs⟩

theorem freeSta (h : ListsOnce a) (s : StaSlot) : ListsOnce (a.freeSta s) :=
  ⟨(h.offAuth s).auth, (h.offAuth s).asoc⟩

theorem apFreeSta (h : ListsOnce a) (s : StaSlot) : ListsOnce (a.apFreeSta s) :=
  freeSta (a := { a with bss := (bssCapUpdateOnStaLeave a.bss s).1 }) ⟨h.auth, h.asoc⟩ s

end ListsOnce

/-- The handshake of every station that is still there is where it was. -/
structure HandshakeKept (a b : Ap) : Prop where
  conf : b.conf = a.conf
  hash : ∀ s ∈ b.priv.staHash, s ∈ a.priv.staHash
  hwaddr : ∀ s, (b.priv.sta s).hwaddr = (a.priv.sta s).hwaddr
  authSeq : ∀ s, (b.mlme s).authSeq = (a.mlme s).authSeq
  chgTxt : ∀ s, (b.mlme s).chgTxt = (a.mlme s).chgTxt

namespace HandshakeKept

variable {a b : Ap} {s : StaSlot}

theorem refl (a : Ap) : HandshakeKept a a :=
  ⟨rfl, fun _ h => h, fun _ => rfl, fun _ => rfl, fun _ => rfl⟩

theorem priv (h : HandshakeKept a b) {p : StaPriv} (hp : SameAids b.priv p) :
    HandshakeKept a { b with priv := p } := by
  refine ⟨h.conf, fun k hk => h.hash k ?_, fun k => ?_, h.authSeq, h.chgTxt⟩
  · rw [← hp.staHash]
    exact hk
  · exact (hp.sta k).1.trans (h.hwaddr k)

theorem updMlme (h : HandshakeKept a b) {u : MlmeSta → MlmeSta}
    (hseq : (u (b.mlme s)).authSeq = (b.mlme s).authSeq)
    (htxt : (u (b.mlme s)).chgTxt = (b.mlme s).chgTxt) : HandshakeKept a (b.updMlme s u) := by
  refine ⟨h.conf, h.hash, h.hwaddr, fun k => ?_, fun k => ?_⟩
  · refine Eq.trans ?_ (h.authSeq k)
    unfold Ap.updMlme
    dsimp only
    split
    · rename_i hk
      rw [hk]
      exact hseq
    · rfl
  · refine Eq.trans ?_ (h.chgTxt k)
    unfold Ap.updMlme
    dsimp only
    split
    · rename_i hk
      rw [hk]
      exact htxt
    · rfl

theorem lists (h : HandshakeKept a b) {b' : Ap} (hconf : b'.conf = b.conf) (hpriv : b'.priv = b.priv)
    (hmlme : b'.mlme = b.mlme) : HandshakeKept a b' := by
  refine ⟨hconf.trans h.conf, ?_, ?_, ?_, ?_⟩
  · rw [hpriv]
    exact h.hash
  · rw [hpriv]
    exact h.hwaddr
  · rw [hmlme]
    exact h.authSeq
  · rw [hmlme]
    exact h.chgTxt

theorem offAuth (h : HandshakeKept a b) (s : StaSlot) : HandshakeKept a (b.offAuth s) := by
  obtain ⟨hpriv, hmlme, -, hconf, -⟩ := offAuth_rest b s
  exact h.lists hconf hpriv hmlme

theorem offAsoc (h : HandshakeKept a b) (s : StaSlot) : HandshakeKept a (b.offAsoc s) := by
  obtain ⟨hpriv, hmlme, -, hconf, -⟩ := offAsoc_rest b s
  exact h.lists hconf hpriv hmlme

theorem freeSta (h : HandshakeKept a b) (s : StaSlot) : HandshakeKept a (b.freeSta s) := by
  have hoff := h.offAuth s
  have hf := freed_freeStainfo b.priv s
  refine ⟨hoff.conf, fun k hk => ?_, fun k => ?_, hoff.authSeq, hoff.chgTxt⟩
  · have hk' : k ∈ (freeStainfo b.priv s).staHash := hk
    rw [hf.staHash] at hk'
    exact h.hash k (List.mem_filter.mp hk').1
  · refine Eq.trans ?_ (h.hwaddr k)
    show ((freeStainfo b.priv s).sta k).hwaddr = (b.priv.sta k).hwaddr
    by_cases hk : k = s
    · rw [hk]
      exact hf.hwaddr
    · exact (congrArg TxSta.hwaddr (hf.others k hk)).trans rfl

end HandshakeKept

/-- The handlers besides `OnAuth` and `OnAssocReq`. -/
theorem passive_handshakeKept (a : Ap) : Passive fun b => ListsOnce b ∧ HandshakeKept a b where
  nodup h := ⟨h.1.auth, h.1.asoc⟩
  priv h hp := ⟨⟨h.1.auth, h.1.asoc⟩, h.2.priv hp⟩
  tries n h := ⟨⟨h.1.auth, h.1.asoc⟩,
    h.2.updMlme (u := fun x => { x with keepAliveTrycnt := n x }) rfl rfl⟩
  expire h _ := ⟨(h.1.offAuth _).freeSta _, (h.2.offAuth _).freeSta _⟩
  leave {b s} h _ := by
    refine ⟨(h.1.offAsoc s).apFreeSta s, ?_⟩
    have hbss : HandshakeKept a { b.offAsoc s with
        bss := (bssCapUpdateOnStaLeave (b.offAsoc s).bss s).1 } :=
      (h.2.offAsoc s).lists rfl rfl rfl
    exact hbss.freeSta s

/-! ## `OnAssocReq` -/

theorem assocAid_kept {p p' : StaPriv} {s : StaSlot} (h : assocAid p s = some p') :
    p'.staHash = p.staHash ∧ ∀ k, (p'.sta k).hwaddr = (p.sta k).hwaddr := by
  unfold assocAid at h
  split at h
  · cases h
    exact ⟨rfl, fun _ => rfl⟩
  · split at h
    · cases h
    · cases h
      refine ⟨rfl, fun k => ?_⟩
      by_cases hk : k = s
      · simp [StaPriv.updSta, hk]
      · simp [StaPriv.updSta, hk]

theorem handshakeKept_accept {a : Ap} (s : StaSlot) (h : ListsOnce a) :
    ListsOnce (a.accept s) ∧ HandshakeKept a (a.accept s) := by
  have hstate := (HandshakeKept.refl a).updMlme (s := s)
    (u := fun x => { x with assocState := false, assocSuccess := true }) rfl rfl
  have hoff := hstate.offAuth s
  have honce : ListsOnce ((a.updMlme s fun x =>
      { x with assocState := false, assocSuccess := true }).offAuth s) :=
    ListsOnce.offAuth (a := a.updMlme s fun x =>
      { x with assocState := false, assocSuccess := true }) ⟨h.auth, h.asoc⟩ s
  unfold Ap.accept
  dsimp only
  generalize (a.updMlme s fun x => { x with assocState := false, assocSuccess := true }).offAuth s =
    d at hoff honce ⊢
  have honto : HandshakeKept a (d.ontoAsoc s) := by
    unfold Ap.ontoAsoc
    split
    · exact hoff
    · exact (hoff.priv ((SameAids.refl _).updSta (s := s)
        (u := fun x => { x with expireTo := d.priv.expireTo }) ⟨rfl, rfl⟩)).lists rfl rfl rfl
  refine ⟨⟨(honce.ontoAsoc s).auth, (honce.ontoAsoc s).asoc⟩, ?_⟩
  exact (honto.priv ((SameAids.refl _).updSta (s := s)
    (u := fun x => { x with linked := true }) ⟨rfl, rfl⟩)).lists rfl rfl rfl

theorem handshakeKept_onAssocReq {a a' : Ap} {f : RecvFrame} (h : ListsOnce a)
    (hdone : onAssocReq a f = .done a') : ListsOnce a' ∧ HandshakeKept a a' := by
  rcases onAssocReq_cases hdone with ⟨rfl, -⟩ | ⟨s, r, -, -, rfl⟩
  · exact ⟨h, HandshakeKept.refl _⟩
  · have hask : ListsOnce (a.asking s) ∧ HandshakeKept a (a.asking s) := by
      unfold Ap.asking
      split
      · refine ⟨⟨h.auth, h.asoc⟩, ?_⟩
        have htx := (HandshakeKept.refl a).priv ((SameAids.refl a.priv).updSta (s := s)
          (u := fun x => { x with authSuccess := false }) ⟨rfl, rfl⟩)
        exact htx.updMlme (s := s) (u := fun x => { x with assocState := true }) rfl rfl
      · exact ⟨⟨h.auth, h.asoc⟩, (HandshakeKept.refl a).updMlme (s := s)
          (u := fun x => { x with assocSuccess := false, assocState := true }) rfl rfl⟩
    have hlearn : ListsOnce ((a.asking s).learn s r) ∧
        HandshakeKept a ((a.asking s).learn s r) := by
      refine ⟨⟨hask.1.auth, hask.1.asoc⟩, ?_⟩
      have hq : SameAids (a.asking s).priv ((a.asking s).learn s r).priv := by
        unfold Ap.learn
        dsimp only
        cases r.qos with
        | none => exact SameAids.refl _
        | some wmm => exact sameAids_assocQos _ s wmm
      exact (hask.2.priv hq).lists rfl rfl rfl
    generalize (a.asking s).learn s r = b at hlearn ⊢
    rcases assocFinish_cases b s r.status with ⟨heq, -⟩ | ⟨p, -, hp, heq⟩
    · rw [heq]
      refine ⟨⟨hlearn.1.auth, hlearn.1.asoc⟩, hlearn.2.conf, hlearn.2.hash, fun k => ?_,
        hlearn.2.authSeq, hlearn.2.chgTxt⟩
      refine Eq.trans ?_ (hlearn.2.hwaddr k)
      show ((dropAid b.priv s).sta k).hwaddr = _
      by_cases hk : k = s
      · simp [dropAid, StaPriv.updSta, hk]
      · simp [dropAid, StaPriv.updSta, hk]
    · rw [heq]
      obtain ⟨hhash, hwaddr⟩ := assocAid_kept hp
      obtain ⟨honce, hacc⟩ := handshakeKept_accept (a := { b with priv := p }) s
        ⟨hlearn.1.auth, hlearn.1.asoc⟩
      refine ⟨honce, hacc.conf.trans hlearn.2.conf, fun k hk => hlearn.2.hash k ?_,
        fun k => (hacc.hwaddr k).trans ((hwaddr k).trans (hlearn.2.hwaddr k)),
        fun k => (hacc.authSeq k).trans (hlearn.2.authSeq k),
        fun k => (hacc.chgTxt k).trans (hlearn.2.chgTxt k)⟩
      rw [← hhash]
      exact hacc.hash k hk

/-! ## `OnAuth` -/

section Auth

variable {a a' b : Ap} {s k : StaSlot}

theorem listsOnce_authWait (h : ListsOnce a) (s : StaSlot) : ListsOnce (authWait a s) := by
  unfold authWait
  dsimp only
  split
  · exact ⟨(h.ontoAuth s).auth, (h.ontoAuth s).asoc⟩
  · exact h.ontoAuth s

/-- The other stations do not notice what becomes of one. -/
theorem authApply_others (a : Ap) (e : AuthEnd) (hk : k ≠ s) :
    ((authApply a s e).priv.sta k).hwaddr = (a.priv.sta k).hwaddr ∧
      ((authApply a s e).priv.sta k).authSuccess = (a.priv.sta k).authSuccess ∧
      (authApply a s e).mlme k = a.mlme k ∧
      (k ∈ (authApply a s e).priv.staHash → k ∈ a.priv.staHash) := by
  have hsucc : (a.authSucceeds s).priv.sta k = a.priv.sta k := if_neg hk
  cases e with
  | fail =>
    have hf := freed_freeStainfo a.priv s
    have hsta := hf.others k hk
    refine ⟨(congrArg TxSta.hwaddr hsta).trans rfl, (congrArg TxSta.authSuccess hsta).trans rfl,
      congrFun (offAuth_rest a s).2.1 k, fun hmem => ?_⟩
    have hmem' : k ∈ (freeStainfo a.priv s).staHash := hmem
    rw [hf.staHash] at hmem'
    exact (List.mem_filter.mp hmem').1
  | opened =>
    refine ⟨congrArg TxSta.hwaddr hsucc, congrArg TxSta.authSuccess hsucc, ?_, fun h => h⟩
    simp [authApply, Ap.updMlme, Ap.authSucceeds, Ap.updTx, hk]
  | challenged =>
    refine ⟨rfl, rfl, ?_, fun h => h⟩
    simp [authApply, Ap.updMlme, hk]
  | proven =>
    refine ⟨congrArg TxSta.hwaddr hsucc, congrArg TxSta.authSuccess hsucc, ?_, fun h => h⟩
    simp [authApply, Ap.updMlme, Ap.authSucceeds, Ap.updTx, hk]

/-- A station that failed is gone. -/
theorem authApply_fail (a : Ap) (s : StaSlot) : s ∉ (authApply a s .fail).priv.staHash := by
  intro hmem
  have hmem' : s ∈ (freeStainfo a.priv s).staHash := hmem
  rw [(freed_freeStainfo a.priv s).staHash] at hmem'
  simpa using (List.mem_filter.mp hmem').2

/-- Before the decision: the station is the one of the frame, and every other one is as it
was. -/
theorem authStation_wait {sa : MacAddr} (h : authStation a sa = some (s, b)) :
    (authWait b s).conf = a.conf ∧
      staAddr (((authWait b s).priv.sta s).hwaddr) = staAddr sa ∧
      (∀ k, k ≠ s → (k ∈ (authWait b s).priv.staHash → k ∈ a.priv.staHash) ∧
        ((authWait b s).priv.sta k).hwaddr = (a.priv.sta k).hwaddr ∧
        ((authWait b s).priv.sta k).authSuccess = (a.priv.sta k).authSuccess ∧
        (authWait b s).mlme k = a.mlme k) ∧
      ((a.priv.getStainfo sa = some s ∧ (authWait b s).mlme s = a.mlme s ∧
          ((authWait b s).priv.sta s).authSuccess = (a.priv.sta s).authSuccess) ∨
        ((authWait b s).mlme s).authSeq = 0 ∧
          ((authWait b s).priv.sta s).authSuccess = false) := by
  obtain ⟨hconf, hmlme, hhash, hsta⟩ := authWait_rest b s
  rcases authStation_cases h with ⟨hget, rfl⟩ | halloc
  · obtain ⟨hpriv, hmlme', -, hconf', -⟩ := offAsoc_rest a s
    rw [hpriv] at hsta hhash
    rw [hmlme'] at hmlme
    refine ⟨hconf.trans hconf', ?_, fun k _ => ⟨?_, (hsta k).1, (hsta k).2, congrFun hmlme k⟩,
      Or.inl ⟨hget, congrFun hmlme s, (hsta s).2⟩⟩
    · rw [(hsta s).1, (getStainfo_some hget).2]
      exact staAddr_staAddr sa
    · rw [hhash]
      exact fun h => h
  · obtain ⟨hconf', -, -, hhash', hself, hmself, hother⟩ := allocSta_new halloc
    refine ⟨hconf.trans hconf', ?_, fun k hk => ⟨fun hmem => ?_, ?_, ?_, ?_⟩, Or.inr ⟨?_, ?_⟩⟩
    · rw [(hsta s).1, hself]
    · rw [hhash, hhash'] at hmem
      rcases List.mem_append.mp hmem with hold | hnew
      · exact hold
      · exact absurd (List.mem_singleton.mp hnew) hk
    · exact (hsta k).1.trans (congrArg TxSta.hwaddr (hother k hk).1)
    · exact (hsta k).2.trans (congrArg TxSta.authSuccess (hother k hk).1)
    · exact (congrFun hmlme k).trans (hother k hk).2
    · rw [hmlme, hmself]
    · rw [(hsta s).2, hself]

theorem listsOnce_onAuth {f : RecvFrame} (h : ListsOnce a) (hdone : onAuth a f = .done a') :
    ListsOnce a' := by
  rcases onAuth_cases hdone with rfl | ⟨d, off, s, b, -, -, -, hsta, rfl⟩
  · exact h
  · have hb : ListsOnce b := by
      rcases authStation_cases hsta with ⟨-, rfl⟩ | halloc
      · exact h.offAsoc s
      · obtain ⟨-, hauth, hasoc, -⟩ := allocSta_new halloc
        constructor
        · rw [hauth]
          exact h.auth
        · rw [hasoc]
          exact h.asoc
    have hw := listsOnce_authWait hb s
    generalize authEnd _ _ _ _ _ _ = e
    cases e with
    | fail => exact hw.freeSta s
    | opened => exact ⟨hw.auth, hw.asoc⟩
    | challenged => exact ⟨hw.auth, hw.asoc⟩
    | proven => exact ⟨hw.auth, hw.asoc⟩

end Auth

/-! ## The challenge -/

/-- The transmitter of an authentication frame. -/
def authSa (f : RecvFrame) : MacAddr := Wifi.getAddr2 (f.buf.shift f.rxData) 0

/-- The transaction sequence number of a frame as `OnAuth` reads it. -/
def authSeqNo (d : RecvFrame) (off : Nat) : Nat :=
  (d.buf.shift d.rxData).le16 (wlanHdrA3Len + off + 2)

/-- The decryption leaves the header alone. -/
theorem authFrame_sa {sec : SecurityPriv} {f d : RecvFrame} {off : Nat}
    (h : authFrame sec f = .done (d, off)) : authSa d = authSa f := by
  unfold authFrame at h
  split at h
  · obtain ⟨x, hx, h⟩ := Outcome.bind_eq_done.mp h
    cases h
    unfold rtwWepDecrypt at hx
    dsimp only at hx
    split at hx
    · cases hx
    · cases hx
      -- the address stands before the payload
      have hbyte : ∀ i < 28, ∀ bs, f.buf.write (f.rxData + 24 + 4) bs (f.rxData + i) =
          f.buf (f.rxData + i) := fun i hi bs => Mem.write_of_lt (by omega)
      unfold authSa Wifi.getAddr2 MacAddr.ofMem Mem.shift rc4Open payloadAt wlanHdrA3Len
      dsimp only
      simp only [hbyte _ (show 0 + 10 < 28 by decide), hbyte _ (show 0 + 10 + 1 < 28 by decide),
        hbyte _ (show 0 + 10 + 2 < 28 by decide), hbyte _ (show 0 + 10 + 3 < 28 by decide),
        hbyte _ (show 0 + 10 + 4 < 28 by decide), hbyte _ (show 0 + 10 + 5 < 28 by decide)]
  · cases h
    rfl

/-- A challenge answers a frame with the sequence number 1. -/
theorem authEnd_challenged {mode : AuthAlgrthm} {x : MlmeSta} {m : Mem} {len algorithm seq : Nat}
    (h : authEnd mode x m len algorithm seq = .challenged) : seq = 1 := by
  unfold authEnd at h
  split at h
  · cases h
  · split at h
    · split at h
      · cases h
      · cases h
    · split at h
      · assumption
      · split at h
        · split at h
          · cases h
          · cases h
        · cases h

/-- The first frame of a handshake: the station is sent a challenge. -/
def Challenges (b : Ap) (g : RecvFrame) (s : StaSlot) (b' : Ap) : Prop :=
  (∃ d off, authFrame b.conf.sec g = .done (d, off) ∧ authSeqNo d off = 1) ∧
    staAddr ((b'.priv.sta s).hwaddr) = staAddr (authSa g) ∧ (b'.mlme s).authSeq = 2 ∧
    (b'.mlme s).chgTxt = challengeText

/-- The station is the same, and its handshake has not moved. -/
def StillWaits (a a' : Ap) (s : StaSlot) : Prop :=
  (a'.priv.sta s).hwaddr = (a.priv.sta s).hwaddr ∧ (a'.mlme s).authSeq = (a.mlme s).authSeq ∧
    (a'.mlme s).chgTxt = (a.mlme s).chgTxt

/-- In the run `evs` the frame `g` has brought the station in slot `s` the challenge, and the
station has waited for its third frame ever since. -/
inductive ChallengedBy (start : Ap) (s : StaSlot) (g : RecvFrame) : List ApEvent → Ap → Prop where
  | sent {evs : List ApEvent} {b b' : Ap} : runActions apStep start evs = .done b →
      onAuth b g = .done b' → Challenges b g s b' → ChallengedBy start s g (evs ++ [.auth g]) b'
  | waited {evs : List ApEvent} {ev : ApEvent} {a a' : Ap} : ChallengedBy start s g evs a →
      apStep a ev = .done a' → StillWaits a a' s → ChallengedBy start s g (evs ++ [ev]) a'

/-- What is known of the station then. -/
theorem ChallengedBy.known {start a : Ap} {s : StaSlot} {g : RecvFrame} {evs : List ApEvent}
    (h : ChallengedBy start s g evs a) :
    staAddr ((a.priv.sta s).hwaddr) = staAddr (authSa g) ∧ (a.mlme s).authSeq = 2 ∧
      (a.mlme s).chgTxt = challengeText := by
  induction h with
  | sent _ _ hch => exact hch.2
  | waited _ _ hw ih =>
      obtain ⟨haddr, hseq, htxt⟩ := hw
      rw [haddr, hseq, htxt]
      exact ih

section Handshake

variable {a a' : Ap} {s : StaSlot}

theorem onAuth_handshake {f : RecvFrame} (hdone : onAuth a f = .done a') :
    a'.conf = a.conf ∧ ∀ k ∈ a'.priv.staHash, (a'.mlme k).authSeq ≠ 0 →
      (k ∈ a.priv.staHash ∧ StillWaits a a' k) ∨ Challenges a f k a' := by
  rcases onAuth_cases hdone with rfl | ⟨d, off, s, b, hframe, -, -, hsta, rfl⟩
  · exact ⟨rfl, fun k hk _ => Or.inl ⟨hk, rfl, rfl, rfl⟩⟩
  · obtain ⟨hconf, haddr, hothers, -⟩ := authStation_wait hsta
    have hsa : Wifi.getAddr2 (d.buf.shift d.rxData) 0 = authSa f := authFrame_sa hframe
    generalize hend : authEnd _ _ _ _ _ _ = e
    generalize authWait b s = w at hconf haddr hothers hend ⊢
    constructor
    · rw [← hconf]
      cases e with
      | fail => exact (offAuth_rest w s).2.2.2.1
      | opened => rfl
      | challenged => rfl
      | proven => rfl
    · intro k hk hseq
      by_cases hks : k = s
      · subst hks
        -- only a challenge leaves the station waiting
        cases e with
        | fail => exact absurd hk (authApply_fail w k)
        | opened => simp [authApply, Ap.updMlme] at hseq
        | proven => simp [authApply, Ap.updMlme] at hseq
        | challenged =>
          have hm : (authApply w k .challenged).mlme k =
              { w.mlme k with
                chgTxt := challengeText
                authNull := false
                authState := true
                authSeq := if (w.priv.sta k).authSuccess then 0 else 2 } := if_pos rfl
          rw [hm] at hseq
          refine Or.inr ⟨⟨d, off, hframe, authEnd_challenged hend⟩, ?_, ?_, ?_⟩
          · rw [← hsa]
            exact haddr
          · rw [hm]
            dsimp only at hseq ⊢
            split at hseq
            · exact absurd rfl hseq
            · rename_i hno
              rw [if_neg hno]
          · rw [hm]
      · obtain ⟨hhash, hwaddr, -, hmlme⟩ := hothers k hks
        obtain ⟨hwaddr', -, hmlme', hhash'⟩ := authApply_others w e hks
        refine Or.inl ⟨hhash (hhash' hk), hwaddr'.trans hwaddr, ?_, ?_⟩
        · rw [hmlme', hmlme]
        · rw [hmlme', hmlme]

/-- **One event**: a station that waits for its third frame waited before, or the event has
brought it the challenge. -/
theorem handshake_step {ev : ApEvent} (h : ListsOnce a) (hstep : apStep a ev = .done a') :
    ListsOnce a' ∧ a'.conf = a.conf ∧ ∀ k ∈ a'.priv.staHash, (a'.mlme k).authSeq ≠ 0 →
      (k ∈ a.priv.staHash ∧ StillWaits a a' k) ∨ ∃ g, ev = .auth g ∧ Challenges a g k a' := by
  cases ev with
  | auth f =>
      obtain ⟨hconf, hk⟩ := onAuth_handshake hstep
      refine ⟨listsOnce_onAuth h hstep, hconf, fun k hmem hseq => ?_⟩
      rcases hk k hmem hseq with hwait | hch
      · exact Or.inl hwait
      · exact Or.inr ⟨f, rfl, hch⟩
  | assocReq f =>
      obtain ⟨honce, hkept⟩ := handshakeKept_onAssocReq h hstep
      exact ⟨honce, hkept.conf, fun k hmem _ =>
        Or.inl ⟨hkept.hash k hmem, hkept.hwaddr k, hkept.authSeq k, hkept.chgTxt k⟩⟩
  | _ =>
      obtain ⟨honce, hkept⟩ := (passive_handshakeKept a).apStep ⟨h, HandshakeKept.refl a⟩ hstep
        (fun f he _ => by cases he) (fun f he _ => by cases he)
      exact ⟨honce, hkept.conf, fun k hmem _ =>
        Or.inl ⟨hkept.hash k hmem, hkept.hwaddr k, hkept.authSeq k, hkept.chgTxt k⟩⟩

/-- **A whole run**: who waits for a third frame has been challenged in it. -/
theorem waiting_challenged (start : Ap) (hl : ListsOnce start)
    (hfresh : ∀ s, (start.mlme s).authSeq = 0) : ∀ (evs : List ApEvent) {a : Ap},
    runActions apStep start evs = .done a → ListsOnce a ∧ a.conf = start.conf ∧
      ∀ s ∈ a.priv.staHash, (a.mlme s).authSeq ≠ 0 → ∃ g, ChallengedBy start s g evs a := by
  intro evs
  induction evs using List.reverseRecOn with
  | nil =>
      intro a hrun
      cases hrun
      exact ⟨hl, rfl, fun s _ hseq => absurd (hfresh s) hseq⟩
  | append_singleton evs ev ih =>
      intro a hrun
      rw [runActions_append] at hrun
      obtain ⟨b, hb, hrun⟩ := Outcome.bind_eq_done.mp hrun
      obtain ⟨c, hc, hrun⟩ := Outcome.bind_eq_done.mp hrun
      cases hrun
      obtain ⟨honce, hconf, hwait⟩ := ih hb
      obtain ⟨honce', hconf', hstep⟩ := handshake_step honce hc
      refine ⟨honce', hconf'.trans hconf, fun s hs hseq => ?_⟩
      rcases hstep s hs hseq with ⟨hold, hw⟩ | ⟨g, rfl, hch⟩
      · have hseq' : (b.mlme s).authSeq ≠ 0 := by
          rw [← hw.2.1]
          exact hseq
        obtain ⟨g, hg⟩ := hwait s hold hseq'
        exact ⟨g, hg.waited hc hw⟩
      · exact ⟨g, ChallengedBy.sent hb hc hch⟩

end Handshake

/-! ## The third frame -/

theorem authEnd_proven {mode : AuthAlgrthm} {x : MlmeSta} {m : Mem} {len algorithm seq : Nat}
    (h : authEnd mode x m len algorithm seq = .proven) :
    x.authSeq + 1 = seq ∧ seq = 3 ∧ challengeRight m len x.chgTxt = true := by
  unfold authEnd at h
  split at h
  · cases h
  · rename_i hseq
    split at h
    · split at h
      · cases h
      · cases h
    · split at h
      · cases h
      · split at h
        · rename_i h3
          split at h
          · rename_i hch
            exact ⟨not_not.mp hseq, h3, hch⟩
          · cases h
        · cases h

/-- The open system is not for an access point with shared keys. -/
theorem authEnd_shared {x : MlmeSta} {m : Mem} {len algorithm seq : Nat} :
    authEnd .shared x m len algorithm seq ≠ .opened := by
  intro h
  unfold authEnd at h
  split at h
  · cases h
  · rw [if_neg (by simp)] at h
    split at h
    · cases h
    · split at h
      · split at h
        · cases h
        · cases h
      · cases h

/-- The station was authenticated before the frame, or the frame is its third and shows the
text of the challenge. -/
theorem onAuth_authenticates {a a' : Ap} {f : RecvFrame} {s : StaSlot}
    (hmode : authMode a.conf.sec = .shared) (hdone : onAuth a f = .done a')
    (hs : s ∈ a'.priv.staHash) (hafter : (a'.priv.sta s).authSuccess = true) :
    (s ∈ a.priv.staHash ∧ (a.priv.sta s).authSuccess = true) ∨
      ∃ d off, authFrame a.conf.sec f = .done (d, off) ∧
        a.priv.getStainfo (authSa f) = some s ∧ (a.mlme s).authSeq ≠ 0 ∧ authSeqNo d off = 3 ∧
        challengeRight (d.buf.shift d.rxData) d.len (a.mlme s).chgTxt = true := by
  rcases onAuth_cases hdone with rfl | ⟨d, off, x, b, hframe, -, -, hsta, rfl⟩
  · exact Or.inl ⟨hs, hafter⟩
  · obtain ⟨-, -, hothers, hself⟩ := authStation_wait hsta
    have hsa : Wifi.getAddr2 (d.buf.shift d.rxData) 0 = authSa f := authFrame_sa hframe
    rw [hmode] at hafter hs
    rw [hsa] at hself
    generalize hend : authEnd _ _ _ _ _ _ = e at hafter hs
    generalize authWait b x = w at hothers hself hend hafter hs
    by_cases hx : s = x
    · subst hx
      cases e with
      | fail => exact absurd hs (authApply_fail w s)
      | opened => exact absurd hend authEnd_shared
      | challenged =>
        -- the bit is as it was, and a new station does not have it
        have hbit : (w.priv.sta s).authSuccess = true := hafter
        rcases hself with ⟨hget, -, hsame⟩ | ⟨-, hnew⟩
        · exact Or.inl ⟨(getStainfo_some hget).1, hsame ▸ hbit⟩
        · rw [hnew] at hbit
          cases hbit
      | proven =>
        obtain ⟨hseq, h3, hch⟩ := authEnd_proven hend
        rcases hself with ⟨hget, hsame, -⟩ | ⟨hnew, -⟩
        · rw [hsame] at hseq hch
          refine Or.inr ⟨d, off, hframe, hget, ?_, h3, hch⟩
          omega
        · omega
    · obtain ⟨hhash, -, hsucc, -⟩ := hothers s hx
      obtain ⟨-, hsucc', -, hhash'⟩ := authApply_others w e hx
      exact Or.inl ⟨hhash (hhash' hs), (hsucc'.trans hsucc) ▸ hafter⟩

/-- The frame is a proof that its sender knows the key: it is protected, its ICV is right, and
between its fixed fields and the ICV there is a challenge element with the text. -/
structure ProvesKey (sec : SecurityPriv) (f : RecvFrame) (txt : List UInt8) : Prop where
  privacy : Wifi.getPrivacy f.buf f.rxData = true
  opened : ∃ d off, authFrame sec f = .done (d, off) ∧ authSeqNo d off = 3 ∧
    icvRight d (decryptLength d).toNat = true ∧
    ∃ p, rtwGetIe (d.buf.shift d.rxData) (wlanHdrA3Len + 4 + authIeOffset) chlgetxtIe
        ((d.len : Int) - wlanHdrA3Len - authIeOffset - 4) = some (p, 128) ∧
      p + 2 + 128 + 4 ≤ d.len ∧ (d.buf.shift d.rxData).read (p + 2) 128 = txt

/-- The condition on a frame: if it is a third frame that shows the text where `OnAuth` looks,
it is protected, its ICV is right and the element is 128 bytes long and inside the frame. -/
def NotForged (sec : SecurityPriv) (f : RecvFrame) : Prop :=
  ∀ d off, authFrame sec f = .done (d, off) → authSeqNo d off = 3 →
    challengeRight (d.buf.shift d.rxData) d.len challengeText = true →
    Wifi.getPrivacy f.buf f.rxData = true ∧ icvRight d (decryptLength d).toNat = true ∧
    ∀ p len, rtwGetIe (d.buf.shift d.rxData) (wlanHdrA3Len + 4 + authIeOffset) chlgetxtIe
        ((d.len : Int) - wlanHdrA3Len - authIeOffset - 4) = some (p, len) →
      len = 128 ∧ p + 2 + 128 + 4 ≤ d.len

/-- **Shared-key authentication.** After any run of an access point with shared keys, a frame
that is not forged gives a station `WIFI_FW_AUTH_SUCCESS` only as the third frame of a handshake
that an earlier frame of this station has begun and that has waited for it ever since; and it
proves the key with the text of that challenge. -/
theorem shared_key_not_bypassed {conf : ApConf} {hiq : HiqFilter} {expireTo maxNumSta : Nat}
    {bss : Bss} (hshared : conf.sec.dot11AuthAlgrthm = .shared) {evs : List ApEvent} {a a' : Ap}
    (hrun : runActions apStep (startAp conf hiq expireTo maxNumSta bss) evs = .done a)
    {f : RecvFrame} (hf : NotForged conf.sec f) (hdone : onAuth a f = .done a') {s : StaSlot}
    (hbefore : ¬ (s ∈ a.priv.staHash ∧ (a.priv.sta s).authSuccess = true))
    (hafter : s ∈ a'.priv.staHash ∧ (a'.priv.sta s).authSuccess = true) :
    ∃ g, ChallengedBy (startAp conf hiq expireTo maxNumSta bss) s g evs a ∧
      staAddr (authSa g) = staAddr (authSa f) ∧ ProvesKey conf.sec f (a.mlme s).chgTxt := by
  obtain ⟨-, hconf, hwaiting⟩ := waiting_challenged
    (startAp conf hiq expireTo maxNumSta bss) ⟨List.nodup_nil, List.nodup_nil⟩
    (fun _ => rfl) evs hrun
  have hsec : a.conf.sec = conf.sec := congrArg ApConf.sec hconf
  have hmode : authMode a.conf.sec = .shared := by
    unfold authMode
    rw [hsec, hshared, if_neg (by simp)]
  rcases onAuth_authenticates hmode hdone hafter.1 hafter.2 with hold | ⟨d, off, hframe, hget, hseq,
      h3, hch⟩
  · exact absurd hold hbefore
  · obtain ⟨hmem, haddr⟩ := getStainfo_some hget
    obtain ⟨g, hg⟩ := hwaiting s hmem hseq
    obtain ⟨hknown, -, htxt⟩ := hg.known
    rw [hsec] at hframe
    rw [htxt] at hch
    obtain ⟨hprivacy, hicv, helem⟩ := hf d off hframe h3 hch
    refine ⟨g, hg, ?_, hprivacy, d, off, hframe, h3, hicv, ?_⟩
    · rw [← hknown, haddr]
      exact staAddr_staAddr (authSa f)
    · rw [htxt]
      unfold challengeRight at hch
      split at hch
      · cases hch
      · rename_i p len hie
        obtain ⟨rfl, hin⟩ := helem p len hie
        exact ⟨p, hie, hin, (of_decide_eq_true hch).2⟩

/-- An access point with shared keys. -/
def sharedAp : Ap :=
  startAp { sec := { dot11AuthAlgrthm := .shared, dot11PrivacyAlgrthm := .wep40
                     dot11DefKeylen := fun _ => 5 } } .allowAll 3 numSta {}

/-- The first frame of a handshake. -/
def firstFrame : RecvFrame := mgtFrame 0xb0 0 sampleStaAddr [1, 0, 1, 0, 0, 0]

/-- A third frame that is not protected: the text stands where it would be in a protected one. -/
def forgedFrame : RecvFrame :=
  mgtFrame 0xb0 0 sampleStaAddr ([1, 0, 3, 0, 0, 0] ++ List.replicate 4 0 ++ [16, 128] ++ challengeText)

/-- It authenticates a station that does not know the key. -/
theorem forged_frame_authenticates : ∃ a a',
    runActions apStep sharedAp [.auth firstFrame] = .done a ∧ onAuth a forgedFrame = .done a' ∧
    (1 ∈ a.priv.staHash ∧ (a.priv.sta 1).authSuccess = false) ∧
    (1 ∈ a'.priv.staHash ∧ (a'.priv.sta 1).authSuccess = true) ∧
    Wifi.getPrivacy forgedFrame.buf forgedFrame.rxData = false := by
  obtain ⟨a, ha, hview⟩ := Outcome.of_view
    (f := fun a : Ap => (decide (1 ∈ a.priv.staHash ∧ (a.priv.sta 1).authSuccess = false),
      (onAuth a forgedFrame).view fun a' : Ap =>
        decide (1 ∈ a'.priv.staHash ∧ (a'.priv.sta 1).authSuccess = true)))
    (show (runActions apStep sharedAp [.auth firstFrame]).view _ = some (true, some true)
      by decide +kernel)
  simp only [Prod.mk.injEq] at hview
  obtain ⟨a', ha', hafter⟩ := Outcome.of_view hview.2
  exact ⟨a, a', ha, ha', of_decide_eq_true hview.1, of_decide_eq_true hafter, by decide⟩

/-! ### A station that knows the key -/

/-- The decryption opens what the same key has sealed behind the bytes `hdr`. -/
theorem rc4Open_sealed (hdr : List UInt8) {key body : List UInt8} {f : RecvFrame}
    (hbuf : f.buf = fun k =>
      (hdr ++ (arcfourEncrypt (arcfourInit key key.length) body).1).getD k 0)
    (hpay : payloadAt f = hdr.length) :
    rc4Open key f body.length = { f with buf := fun k => (hdr ++ body).getD k 0 } := by
  have hlen := length_arcfourEncrypt body (arcfourInit key key.length)
  have hread : f.buf.read hdr.length body.length =
      (arcfourEncrypt (arcfourInit key key.length) body).1 := by
    have h := @Mem.read_getD 0 hdr (arcfourEncrypt (arcfourInit key key.length) body).1 []
    rw [List.append_nil, hlen] at h
    rw [hbuf]
    exact h
  unfold rc4Open
  rw [hpay, hread, arcfourEncrypt_arcfourEncrypt, hbuf]
  congr 1
  funext k
  unfold Mem.write
  by_cases hk : k < hdr.length
  · simp [hk, List.getD_eq_getElem?_getD, List.getElem?_append_left]
  · rw [if_neg hk]
    have hge : hdr.length ≤ k := by omega
    rcases Nat.lt_or_ge (k - hdr.length) body.length with hin | hout
    · simp [List.getD_eq_getElem?_getD, List.getElem?_append_right hge,
        List.getElem?_eq_getElem hin]
    · rw [List.getElem?_eq_none hout]
      simp [List.getD_eq_getElem?_getD, List.getElem?_append_right hge,
        List.getElem?_eq_none hout, List.getElem?_eq_none (hlen.symm ▸ hout)]

/-- What a third frame protects. -/
def thirdText : List UInt8 := [1, 0, 3, 0, 0, 0] ++ [16, 128] ++ challengeText

def thirdBody : List UInt8 := thirdText ++ le32Bytes (getcrc32 thirdText)

/-- The third frame of a station that has the same WEP key. -/
def thirdFrame : RecvFrame :=
  mgtFrame 0xb0 0x40 sampleStaAddr (List.replicate 4 0 ++
    (arcfourEncrypt (arcfourInit (List.replicate 8 0) 8) thirdBody).1)

/-- The same frame as it is decrypted. -/
def thirdOpened : RecvFrame :=
  { mgtFrame 0xb0 0x40 sampleStaAddr (List.replicate 4 0 ++ thirdBody) with
    attrib := { hdrlen := wlanHdrA3Len, encrypt := .wep40, ivLen := 4, icvLen := 4 } }

theorem thirdFrame_opened : authFrame sharedAp.conf.sec thirdFrame = .done (thirdOpened, 4) := by
  have hbody : thirdBody.length = 140 := by decide +kernel
  have hlen : thirdFrame.len = 168 := by
    simp [thirdFrame, mgtFrame, length_arcfourEncrypt, hbody]
  have hprivacy : Wifi.getPrivacy thirdFrame.buf thirdFrame.rxData = true := by decide
  have hindex : (thirdFrame.buf (thirdFrame.rxData + wlanHdrA3Len + 3)).toNat >>> 6 = 0 := by
    decide
  unfold authFrame
  rw [if_pos hprivacy, hindex]
  show (rtwWepDecrypt sharedAp.conf.sec { thirdFrame with attrib :=
      { thirdFrame.attrib with
        hdrlen := wlanHdrA3Len, encrypt := .wep40, keyIndex := 0, ivLen := 4, icvLen := 4 } } >>=
    fun f => .done (f, 4)) = _
  generalize hf : ({ thirdFrame with attrib :=
      { thirdFrame.attrib with
        hdrlen := wlanHdrA3Len, encrypt := .wep40, keyIndex := 0, ivLen := 4, icvLen := 4 } } :
      RecvFrame) = f
  have hkey : rxWepKey sharedAp.conf.sec f = List.replicate 8 0 := by
    rw [← hf]
    decide
  have hsize : decryptLength f = 140 := by
    rw [← hf]
    show ((thirdFrame.len : Int) - 24 - 4) = 140
    rw [hlen]
    rfl
  -- the header with the IV, then what the key has sealed
  have hopen : rc4Open (List.replicate 8 0) f thirdBody.length = thirdOpened := by
    rw [rc4Open_sealed ([0xb0, 0x40, 0, 0] ++ List.replicate 6 0 ++ sampleStaAddr.bytes ++
      List.replicate 8 0 ++ List.replicate 4 0) (f := f)]
    · rw [← hf]
      simp [thirdOpened, thirdFrame, mgtFrame, length_arcfourEncrypt]
    · rw [← hf]
      simp [thirdFrame, mgtFrame]
    · rw [← hf]
      rfl
  unfold rtwWepDecrypt
  rw [hsize, if_neg (by decide), hkey, ← hopen, hbody]
  rfl

theorem thirdOpened_icv : icvRight thirdOpened (decryptLength thirdOpened).toNat = true := by
  have hsize : (decryptLength thirdOpened).toNat = 140 := by decide +kernel
  have hpay : payloadAt thirdOpened = 28 := rfl
  generalize hhdr : [0xb0, 0x40, 0, 0] ++ List.replicate 6 0 ++ sampleStaAddr.bytes ++
    List.replicate 8 0 ++ List.replicate 4 (0 : UInt8) = hdr
  have hbuf : thirdOpened.buf = fun k =>
      (hdr ++ (thirdText ++ (le32Bytes (getcrc32 thirdText) ++ []))).getD k 0 := by
    rw [← hhdr]
    simp [thirdOpened, mgtFrame, thirdBody]
  have htext : thirdOpened.buf.read 28 136 = thirdText := by
    have h := @Mem.read_getD 0 hdr thirdText (le32Bytes (getcrc32 thirdText) ++ [])
    rw [← hbuf, ← hhdr] at h
    exact h
  have hicv : thirdOpened.buf.read 164 4 = le32Bytes (getcrc32 thirdText) := by
    have h := @Mem.read_getD 0 (hdr ++ thirdText) (le32Bytes (getcrc32 thirdText)) []
    rw [List.append_assoc, ← hbuf, ← hhdr] at h
    exact h
  unfold icvRight
  rw [hsize, hpay, htext, hicv]
  exact beq_self_eq_true _

/-- A station that knows the key is authenticated by its third frame. -/
theorem shared_key_not_bypassed_sample : ∃ a a',
    runActions apStep sharedAp [.auth firstFrame] = .done a ∧ onAuth a thirdFrame = .done a' ∧
    (a'.priv.sta 1).authSuccess = true ∧
    ∃ g, ChallengedBy sharedAp 1 g [.auth firstFrame] a ∧
      staAddr (authSa g) = staAddr (authSa thirdFrame) ∧
      ProvesKey sharedAp.conf.sec thirdFrame (a.mlme 1).chgTxt := by
  obtain ⟨a, ha, hview⟩ := Outcome.of_view
    (f := fun a : Ap => (decide (1 ∈ a.priv.staHash ∧ (a.priv.sta 1).authSuccess = true),
      decide (1 ∈ (authHandle a thirdOpened 4).priv.staHash ∧
        ((authHandle a thirdOpened 4).priv.sta 1).authSuccess = true)))
    (show (runActions apStep sharedAp [.auth firstFrame]).view _ = some (false, true)
      by decide +kernel)
  simp only [Prod.mk.injEq] at hview
  have hconf : a.conf = sharedAp.conf := (waiting_challenged sharedAp
    ⟨List.nodup_nil, List.nodup_nil⟩ (fun _ => rfl) [.auth firstFrame] ha).2.1
  have hdone : onAuth a thirdFrame = .done (authHandle a thirdOpened 4) := by
    unfold onAuth
    rw [hconf, thirdFrame_opened]
    rfl
  have hafter := of_decide_eq_true hview.2
  refine ⟨a, _, ha, hdone, hafter.2, ?_⟩
  refine shared_key_not_bypassed rfl ha ?_ hdone (of_decide_eq_false hview.1) hafter
  intro d off hframe _ _
  cases thirdFrame_opened.symm.trans hframe
  refine ⟨by decide, thirdOpened_icv, fun p len hie => ?_⟩
  have hfound : rtwGetIe (thirdOpened.buf.shift thirdOpened.rxData) (wlanHdrA3Len + 4 + authIeOffset)
      chlgetxtIe ((thirdOpened.len : Int) - wlanHdrA3Len - authIeOffset - 4) = some (34, 128) := by
    decide +kernel
  rw [hfound] at hie
  cases hie
  exact ⟨rfl, by decide +kernel⟩

end Rtl8812au
