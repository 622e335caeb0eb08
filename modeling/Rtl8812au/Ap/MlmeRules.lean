import Rtl8812au.Ap.ElemProof
import Rtl8812au.Ap.AidProof

/-!
# Rules for the handlers

What `OnAuth` and `OnAssocReq` can do, case by case, and one rule for everything else: a
property of the access point that the queues do not enter into is kept by a deauthentication,
a disassociation, a tick and all traffic when it is kept where a station is freed.
-/

namespace Rtl8812au

/-! ## What the lists leave alone -/

section Rest

variable (a : Ap) (s : StaSlot)

theorem offAuth_rest :
    (a.offAuth s).priv = a.priv ∧ (a.offAuth s).mlme = a.mlme ∧ (a.offAuth s).bss = a.bss ∧
      (a.offAuth s).conf = a.conf ∧ (a.offAuth s).asocList = a.asocList := by
  unfold Ap.offAuth
  split
  · exact ⟨rfl, rfl, rfl, rfl, rfl⟩
  · exact ⟨rfl, rfl, rfl, rfl, rfl⟩

theorem ontoAuth_rest :
    (a.ontoAuth s).priv = a.priv ∧ (a.ontoAuth s).mlme = a.mlme ∧ (a.ontoAuth s).bss = a.bss ∧
      (a.ontoAuth s).conf = a.conf ∧ (a.ontoAuth s).asocList = a.asocList := by
  unfold Ap.ontoAuth
  split
  · exact ⟨rfl, rfl, rfl, rfl, rfl⟩
  · exact ⟨rfl, rfl, rfl, rfl, rfl⟩

theorem offAsoc_rest :
    (a.offAsoc s).priv = a.priv ∧ (a.offAsoc s).mlme = a.mlme ∧ (a.offAsoc s).bss = a.bss ∧
      (a.offAsoc s).conf = a.conf ∧ (a.offAsoc s).authList = a.authList := by
  unfold Ap.offAsoc
  split
  · exact ⟨rfl, rfl, rfl, rfl, rfl⟩
  · exact ⟨rfl, rfl, rfl, rfl, rfl⟩

end Rest

variable {a a' b : Ap} {s k : StaSlot}

theorem mem_offAuth (hk : k ∈ a.authList) (hne : k ≠ s) : k ∈ (a.offAuth s).authList := by
  unfold Ap.offAuth
  split
  · exact List.mem_filter.mpr ⟨hk, by simpa using hne⟩
  · exact hk

theorem mem_offAsoc (hk : k ∈ a.asocList) (hne : k ≠ s) : k ∈ (a.offAsoc s).asocList := by
  unfold Ap.offAsoc
  split
  · exact List.mem_filter.mpr ⟨hk, by simpa using hne⟩
  · exact hk

/-- The others stay associated when one leaves. -/
theorem leave_keeps (hk : k ∈ a.asocList) (hne : k ≠ s) :
    k ∈ ((a.offAsoc s).apFreeSta s).asocList := by
  show k ∈ (Ap.offAuth { a.offAsoc s with
    bss := (bssCapUpdateOnStaLeave (a.offAsoc s).bss s).1 } s).asocList
  rw [(offAuth_rest _ s).2.2.2.2]
  exact mem_offAsoc hk hne

/-! ## `OnAuth` -/

/-- **What `OnAuth` can do**: nothing; or it finds or makes a station, has it wait, and decides. -/
theorem onAuth_cases {f : RecvFrame} (h : onAuth a f = .done a') :
    a' = a ∨ ∃ d off s b, authFrame a.conf.sec f = .done (d, off) ∧
      badAlg (authMode a.conf.sec) ((d.buf.shift d.rxData).le16 (wlanHdrA3Len + off)) = false ∧
      rtwAccessCtrl a.conf (Wifi.getAddr2 (d.buf.shift d.rxData) 0) = true ∧
      authStation a (Wifi.getAddr2 (d.buf.shift d.rxData) 0) = some (s, b) ∧
      a' = authApply (authWait b s) s (authEnd (authMode a.conf.sec) ((authWait b s).mlme s)
        (d.buf.shift d.rxData) d.len ((d.buf.shift d.rxData).le16 (wlanHdrA3Len + off))
        ((d.buf.shift d.rxData).le16 (wlanHdrA3Len + off + 2))) := by
  unfold onAuth at h
  obtain ⟨⟨d, off⟩, hframe, h⟩ := Outcome.bind_eq_done.mp h
  cases h
  unfold authHandle
  dsimp only
  split
  · exact Or.inl rfl
  · rename_i hbad
    split
    · exact Or.inl rfl
    · rename_i hacl
      split
      · exact Or.inl rfl
      · rename_i s b hsta
        exact Or.inr ⟨d, off, s, b, hframe, by simpa using hbad, by simpa using hacl, hsta, rfl⟩

/-- A station that `OnAuth` makes is a new one. -/
theorem allocSta_new {sa : MacAddr} (h : a.allocSta sa = some (s, b)) :
    b.conf = a.conf ∧ b.authList = a.authList ∧ b.asocList = a.asocList ∧
      b.priv.staHash = a.priv.staHash ++ [s] ∧ b.priv.sta s = { hwaddr := sa } ∧
      b.mlme s = { authNull := true } ∧
      ∀ k, k ≠ s → b.priv.sta k = a.priv.sta k ∧ b.mlme k = a.mlme k := by
  unfold Ap.allocSta at h
  obtain ⟨⟨x, p⟩, halloc, hr⟩ := Option.map_eq_some_iff.mp h
  cases hr
  unfold allocStainfo at halloc
  split at halloc
  · cases halloc
  · cases halloc
    refine ⟨rfl, rfl, rfl, rfl, if_pos rfl, if_pos rfl, fun k hk => ⟨if_neg hk, if_neg hk⟩⟩

theorem allocSta_bss {sa : MacAddr} (h : a.allocSta sa = some (s, b)) :
    b.bss.num = a.bss.num ∧
      ∀ k c, b.bss.isSet k c = if k = s then false else a.bss.isSet k c := by
  unfold Ap.allocSta at h
  obtain ⟨r, -, hr⟩ := Option.map_eq_some_iff.mp h
  cases hr
  exact ⟨rfl, fun _ _ => rfl⟩

theorem authStation_cases {sa : MacAddr} (h : authStation a sa = some (s, b)) :
    (a.priv.getStainfo sa = some s ∧ b = a.offAsoc s) ∨ a.allocSta sa = some (s, b) := by
  unfold authStation at h
  split at h
  · exact Or.inr h
  · rename_i x hget
    cases h
    exact Or.inl ⟨hget, rfl⟩

/-- Waiting changes nothing but the list and the time. -/
theorem authWait_rest (a : Ap) (s : StaSlot) :
    (authWait a s).conf = a.conf ∧ (authWait a s).mlme = a.mlme ∧
      (authWait a s).priv.staHash = a.priv.staHash ∧
      ∀ k, ((authWait a s).priv.sta k).hwaddr = (a.priv.sta k).hwaddr ∧
        ((authWait a s).priv.sta k).authSuccess = (a.priv.sta k).authSuccess := by
  obtain ⟨hpriv, hmlme, -, hconf, -⟩ := ontoAuth_rest a s
  unfold authWait
  dsimp only
  generalize a.ontoAuth s = d at hpriv hmlme hconf ⊢
  rw [← hpriv]
  split
  · refine ⟨hconf, hmlme, rfl, fun k => ?_⟩
    by_cases hk : k = s
    · simp [Ap.setExpireTo, Ap.updTx, StaPriv.updSta, hk]
    · simp [Ap.setExpireTo, Ap.updTx, StaPriv.updSta, hk]
  · exact ⟨hconf, hmlme, rfl, fun _ => ⟨rfl, rfl⟩⟩

theorem authWait_same (a : Ap) (s : StaSlot) :
    (authWait a s).bss = a.bss ∧ SameAids a.priv (authWait a s).priv := by
  obtain ⟨hpriv, -, hbss, -, -⟩ := ontoAuth_rest a s
  unfold authWait
  dsimp only
  generalize a.ontoAuth s = d at hpriv hbss ⊢
  rw [← hpriv]
  split
  · exact ⟨hbss, (SameAids.refl _).updSta (u := fun x => { x with expireTo := d.conf.authTo })
      ⟨rfl, rfl⟩⟩
  · exact ⟨hbss, SameAids.refl _⟩

/-! ## `OnAssocReq` -/

/-- **What `OnAssocReq` can do**: nothing; or a station that may ask has its request checked. -/
theorem onAssocReq_cases {f : RecvFrame} (h : onAssocReq a f = .done a') :
    (a' = a ∧ ∀ s, ¬ Asks a f s) ∨ ∃ s r, Asks a f s ∧
      assocChecks a.assocConf (f.buf.shift f.rxData) f.len (a.bss.caps s) = .done r ∧
      a' = assocFinish ((a.asking s).learn s r) s r.status := by
  unfold onAssocReq at h
  dsimp only at h
  split at h
  · rename_i hlen
    cases h
    exact Or.inl ⟨rfl, fun s hasks => absurd hasks.1 (by omega)⟩
  · rename_i hlen
    split at h
    · rename_i hget
      cases h
      refine Or.inl ⟨rfl, fun s hasks => ?_⟩
      rw [hasks.2.1] at hget
      cases hget
    · rename_i s hget
      split at h
      · rename_i hask
        cases h
        refine Or.inl ⟨rfl, fun k hasks => ?_⟩
        have hks : some s = some k := hget.symm.trans hasks.2.1
        cases hks
        rw [hasks.2.2] at hask
        cases hask
      · rename_i hask
        obtain ⟨r, hchecks, h⟩ := Outcome.bind_eq_done.mp h
        cases h
        exact Or.inr ⟨s, r, ⟨by omega, hget, by simpa using hask⟩, hchecks, rfl⟩

/-- The answer: refused, for the status or for want of an AID; or accepted. -/
theorem assocFinish_cases (a : Ap) (s : StaSlot) (status : AssocStatus) :
    (assocFinish a s status = a.refuse s ∧ (status ≠ .successful ∨ (a.priv.sta s).aid = 0)) ∨
      ∃ p, status = .successful ∧ assocAid a.priv s = some p ∧
        assocFinish a s status = { a with priv := p }.accept s := by
  unfold assocFinish
  split
  · rename_i hstatus
    split
    · rename_i hnone
      -- there is always room for a station that has an AID
      refine Or.inl ⟨rfl, Or.inr (Nat.eq_zero_of_not_pos fun hpos => ?_)⟩
      unfold assocAid at hnone
      rw [if_pos hpos] at hnone
      cases hnone
    · rename_i p hp
      exact Or.inr ⟨p, hstatus, hp, rfl⟩
  · rename_i hstatus
    exact Or.inl ⟨rfl, Or.inl hstatus⟩

/-! ## Everything else -/

/-- What a property has to survive besides `OnAuth`, `OnAssocReq` and the loop over
`auth_list`. -/
structure Calm (P : Ap → Prop) : Prop where
  /-- Both lists name a station once. -/
  nodup : ∀ {a}, P a → a.authList.Nodup ∧ a.asocList.Nodup
  /-- The queues, the bitmaps and the timers. -/
  priv : ∀ {a p}, P a → SameAids a.priv p → P { a with priv := p }
  tries : ∀ {a s} (n : MlmeSta → Nat), P a →
    P (a.updMlme s fun x => { x with keepAliveTrycnt := n x })
  /-- An associated station leaves. -/
  leave : ∀ {a s}, P a → s ∈ a.asocList → P ((a.offAsoc s).apFreeSta s)

/-- What a property has to survive besides `OnAuth` and `OnAssocReq`. -/
structure Passive (P : Ap → Prop) : Prop extends Calm P where
  /-- The time to authenticate, or to associate, is over. -/
  expire : ∀ {a s}, P a → s ∈ a.authList → P ((a.offAuth s).freeSta s)

/-! ### The loop over `auth_list` -/

/-- One turn says nothing about the other stations. -/
theorem expireAuth_others (hne : k ≠ s) :
    ((expireAuth a s).priv.sta k).expireTo = (a.priv.sta k).expireTo ∧
      (k ∈ a.authList → k ∈ (expireAuth a s).authList) := by
  have hset : ∀ n, ((a.setExpireTo s n).priv.sta k).expireTo = (a.priv.sta k).expireTo :=
    fun n => congrArg TxSta.expireTo (if_neg hne)
  unfold expireAuth
  dsimp only
  split
  · exact ⟨rfl, fun hk => hk⟩
  · split
    · constructor
      · have hfreed := freed_freeStainfo ((a.setExpireTo s 0).offAuth s).priv s
        refine ((congrArg TxSta.expireTo (hfreed.others k hne)).trans ?_).trans (hset 0)
        rw [(offAuth_rest (a.setExpireTo s 0) s).1]
      · intro hk
        exact mem_offAuth (a := (a.setExpireTo s 0).offAuth s)
          (mem_offAuth (a := a.setExpireTo s 0) hk hne) hne
    · exact ⟨hset _, fun hk => hk⟩

/-- **The loop over `auth_list`** keeps what the timers keep, when the stations it frees satisfy
`Q` and freeing such a station keeps it. -/
theorem expireAuths_keep {P : Ap → Prop} {Q : StaSlot → Prop}
    (hset : ∀ {a s} n, P a → P (a.setExpireTo s n))
    (hfree : ∀ {a s}, P a → s ∈ a.authList → Q s → P ((a.offAuth s).freeSta s)) :
    ∀ (l : List StaSlot) {a : Ap}, P a → l.Nodup → (∀ s ∈ l, s ∈ a.authList) →
      (∀ s ∈ l, (a.priv.sta s).expireTo = 1 → Q s) → P (l.foldl expireAuth a) := by
  intro l
  induction l with
  | nil => intro a h _ _ _; exact h
  | cons s l ih =>
      intro a h hnd hmem hmay
      obtain ⟨hs, hnd⟩ := List.nodup_cons.mp hnd
      have hne : ∀ k ∈ l, k ≠ s := fun k hk he => hs (he ▸ hk)
      have hstep : P (expireAuth a s) := by
        unfold expireAuth
        dsimp only
        split
        · exact h
        · split
          · rename_i hone
            refine hfree (hset 0 h) (hmem s (List.mem_cons_self ..)) ?_
            exact hmay s (List.mem_cons_self ..) hone
          · exact hset _ h
      refine ih hstep hnd ?_ ?_
      · intro k hk
        exact (expireAuth_others (hne k hk)).2 (hmem k (List.mem_cons_of_mem s hk))
      · intro k hk hone
        rw [(expireAuth_others (hne k hk)).1] at hone
        exact hmay k (List.mem_cons_of_mem s hk) hone

namespace Calm

variable {P : Ap → Prop} (hP : Calm P)

include hP

theorem setExpireTo (h : P a) (n : Nat) : P (a.setExpireTo s n) :=
  hP.priv h ((SameAids.refl _).updSta (u := fun x => { x with expireTo := n }) ⟨rfl, rfl⟩)

theorem stationLeaves (h : P a) (f : RecvFrame) : P (Rtl8812au.stationLeaves a f) := by
  unfold Rtl8812au.stationLeaves
  split
  · exact h
  · split
    · exact h
    · split
      · rename_i hs
        exact hP.leave h hs
      · exact h

theorem traffic {op : PsOp} (h : P a) (hstep : apStep a (.traffic op) = .done a') : P a' := by
  unfold apStep at hstep
  dsimp only at hstep
  split at hstep
  · rename_i htraffic
    obtain ⟨p, hp, hstep⟩ := Outcome.bind_eq_done.mp hstep
    cases hstep
    exact hP.priv h ((SameAids.refl _).psStep htraffic hp)
  · cases hstep
    exact h

theorem countDown (h : P a) (t : Tick) (s : StaSlot) :
    P (Rtl8812au.countDown a t s) ∧ (Rtl8812au.countDown a t s).asocList = a.asocList := by
  unfold Rtl8812au.countDown
  dsimp only
  split
  · exact ⟨hP.tries (fun _ => 0) (hP.setExpireTo h _), rfl⟩
  · exact ⟨hP.setExpireTo h _, rfl⟩

theorem callSleeping (h : P a) (s : StaSlot) : P (Rtl8812au.callSleeping a s) := by
  refine hP.priv h ?_
  exact ((SameAids.refl a.priv).updSta (s := s) (u := fun x =>
    { x with expireTo := a.priv.expireTo, authSuccess := true }) ⟨rfl, rfl⟩).bitmaps _ _ _

theorem timeUp (h : P a) (hs : s ∈ a.asocList) (chk : List StaSlot) :
    P (Rtl8812au.timeUp a s chk).1 ∧
      ∀ k ∈ a.asocList, k ≠ s → k ∈ (Rtl8812au.timeUp a s chk).1.asocList := by
  unfold Rtl8812au.timeUp
  split
  · exact ⟨hP.setExpireTo h _, fun k hk _ => hk⟩
  · dsimp only
    have hcalls : P (if (a.priv.sta s).sleep && !(a.priv.sta s).authSuccess
          then Rtl8812au.callSleeping a s else a) ∧
        (if (a.priv.sta s).sleep && !(a.priv.sta s).authSuccess
          then Rtl8812au.callSleeping a s else a).asocList = a.asocList := by
      split
      · exact ⟨hP.callSleeping h s, rfl⟩
      · exact ⟨h, rfl⟩
    generalize (if (a.priv.sta s).sleep && !(a.priv.sta s).authSuccess
      then Rtl8812au.callSleeping a s else a) = b at hcalls ⊢
    obtain ⟨hb, hlist⟩ := hcalls
    rw [← hlist] at hs ⊢
    split
    · exact ⟨hb, fun k hk _ => hk⟩
    · split
      · exact ⟨hb, fun k hk _ => hk⟩
      · exact ⟨hP.leave hb hs, fun k hk hne => leave_keeps hk hne⟩

theorem expireAsoc (h : P a) (hs : s ∈ a.asocList) (t : Tick) (chk : List StaSlot) :
    P (Rtl8812au.expireAsoc t (a, chk) s).1 ∧
      ∀ k ∈ a.asocList, k ≠ s → k ∈ (Rtl8812au.expireAsoc t (a, chk) s).1.asocList := by
  obtain ⟨hdown, hlist⟩ := hP.countDown h t s
  unfold Rtl8812au.expireAsoc
  dsimp only
  rw [← hlist] at hs ⊢
  split
  · exact hP.timeUp hdown hs chk
  · unfold Rtl8812au.ageSleepq
    dsimp only
    split
    · exact ⟨hP.priv hdown ((SameAids.refl _).wakeupStaToXmit s), fun k hk _ => hk⟩
    · exact ⟨hdown, fun k hk _ => hk⟩

/-- The loop over `asoc_list`. -/
theorem expireAsocs (t : Tick) : ∀ (l chk : List StaSlot) {a : Ap}, P a → l.Nodup →
    (∀ s ∈ l, s ∈ a.asocList) → P (l.foldl (Rtl8812au.expireAsoc t) (a, chk)).1 := by
  intro l
  induction l with
  | nil => intro chk a h _ _; exact h
  | cons s l ih =>
      intro chk a h hnd hmem
      obtain ⟨hs, hnd⟩ := List.nodup_cons.mp hnd
      obtain ⟨hstep, hkeep⟩ := hP.expireAsoc h (hmem s (List.mem_cons_self ..)) t chk
      refine ih _ hstep hnd fun k hk => ?_
      exact hkeep k (hmem k (List.mem_cons_of_mem s hk)) fun he => hs (he ▸ hk)

theorem keepAlive (h : P a) (t : Tick) (s : StaSlot) : P (Rtl8812au.keepAlive t a s) := by
  unfold Rtl8812au.keepAlive
  split
  · exact h
  · split
    · exact hP.tries (fun _ => 0) (hP.setExpireTo h _)
    · split
      · exact hP.tries (fun x => x.keepAliveTrycnt + 1) (hP.setExpireTo h _)
      · have hreset := hP.tries (s := s) (fun _ => 0) h
        dsimp only
        split
        · rename_i hs
          exact hP.leave hreset hs
        · exact hreset

/-- A tick, after the loop over `auth_list`. -/
theorem expireTimeoutChk (t : Tick) (hauth : P (a.authList.foldl expireAuth a)) :
    P (Rtl8812au.expireTimeoutChk a t) := by
  have hasoc := hP.expireAsocs t (a.authList.foldl expireAuth a).asocList [] hauth
    (hP.nodup hauth).2 fun _ hs => hs
  have hkeep : ∀ (l : List StaSlot) (b : Ap), P b → P (l.foldl (Rtl8812au.keepAlive t) b) := by
    intro l
    induction l with
    | nil => intro b hb; exact hb
    | cons s l ih => intro b hb; exact ih _ (hP.keepAlive hb t s)
  exact hkeep _ _ hasoc

/-- Every event keeps the property when the three others do. -/
theorem apStep {ev : ApEvent} (h : P a) (hstep : Rtl8812au.apStep a ev = .done a')
    (hauth : ∀ f, ev = .auth f → onAuth a f = .done a' → P a')
    (hassoc : ∀ f, ev = .assocReq f → onAssocReq a f = .done a' → P a')
    (hexpire : ∀ t, ev = .expire t → P (a.authList.foldl expireAuth a)) : P a' := by
  cases ev with
  | auth f => exact hauth f rfl hstep
  | assocReq f => exact hassoc f rfl hstep
  | deauth f => cases hstep; exact hP.stationLeaves h f
  | disassoc f => cases hstep; exact hP.stationLeaves h f
  | expire t => cases hstep; exact hP.expireTimeoutChk t (hexpire t rfl)
  | traffic op => exact hP.traffic h hstep

end Calm

/-- **Every event** keeps the property when `OnAuth` and `OnAssocReq` do. -/
theorem Passive.apStep {P : Ap → Prop} (hP : Passive P) {ev : ApEvent} (h : P a)
    (hstep : Rtl8812au.apStep a ev = .done a')
    (hauth : ∀ f, ev = .auth f → onAuth a f = .done a' → P a')
    (hassoc : ∀ f, ev = .assocReq f → onAssocReq a f = .done a' → P a') : P a' := by
  refine hP.toCalm.apStep h hstep hauth hassoc fun _ _ => ?_
  exact expireAuths_keep (P := P) (Q := fun _ => True) (fun n h => hP.toCalm.setExpireTo h n)
    (fun h hs _ => hP.expire h hs) a.authList h (hP.nodup h).1 (fun _ hs => hs)
    fun _ _ _ => trivial

end Rtl8812au
