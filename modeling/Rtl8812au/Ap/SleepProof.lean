import Rtl8812au.Ap.StaPriv
import Rtl8812au.Lib.Reach
import Mathlib.Data.List.Count

/-!
# The counters of the sleep queues

Every operation changes the sleep queue of one station at a time, so the invariant is a
property of one station (`StaCounted`), kept by each update; the queues the hardware serves
do not enter into it (`QueuesOnly`).
-/

namespace Rtl8812au

/-! ## What the hardware queues leave alone -/

/-- Only the hardware queues, their counts and the pool differ. -/
structure QueuesOnly (p p' : StaPriv) : Prop where
  sta : ∀ k, p'.sta k = { p.sta k with servq := (p'.sta k).servq }
  timBitmap : p'.timBitmap = p.timBitmap
  staDzBitmap : p'.staDzBitmap = p.staDzBitmap
  staAid : p'.staAid = p.staAid
  staHash : p'.staHash = p.staHash
  freeStaQueue : p'.freeStaQueue = p.freeStaQueue
  apState : p'.apState = p.apState
  expireTo : p'.expireTo = p.expireTo
  maxNumSta : p'.maxNumSta = p.maxNumSta

namespace QueuesOnly

variable {p p' p'' : StaPriv}

theorem refl (p : StaPriv) : QueuesOnly p p :=
  ⟨fun _ => rfl, rfl, rfl, rfl, rfl, rfl, rfl, rfl, rfl⟩

theorem trans (h : QueuesOnly p p') (h' : QueuesOnly p' p'') : QueuesOnly p p'' := by
  refine ⟨fun k => ?_, h'.2.trans h.2, h'.3.trans h.3, h'.4.trans h.4, h'.5.trans h.5,
    h'.6.trans h.6, h'.7.trans h.7, h'.8.trans h.8, h'.9.trans h.9⟩
  rw [h'.sta k, h.sta k]

theorem getStainfo (h : QueuesOnly p p') (a : MacAddr) : p'.getStainfo a = p.getStainfo a := by
  have hsta : ∀ s, (p'.sta s).hwaddr = (p.sta s).hwaddr := by
    intro s
    rw [h.sta s]
  simp only [StaPriv.getStainfo, h.staHash, hsta]

theorem updServq (p : StaPriv) (s : StaSlot) (ac : Ac) (u : TxServq → TxServq) :
    QueuesOnly p (p.updServq s ac u) := by
  refine ⟨fun k => ?_, rfl, rfl, rfl, rfl, rfl, rfl, rfl, rfl⟩
  unfold StaPriv.updServq StaPriv.updSta
  dsimp only
  split
  · rfl
  · rfl

theorem addAccnt (p : StaPriv) (ac : Ac) (d : Int) : QueuesOnly p (p.addAccnt ac d) :=
  ⟨fun _ => rfl, rfl, rfl, rfl, rfl, rfl, rfl, rfl, rfl⟩

theorem unlinkServq (p : StaPriv) (s : StaSlot) (ac : Ac) : QueuesOnly p (p.unlinkServq s ac) :=
  ⟨fun _ => rfl, rfl, rfl, rfl, rfl, rfl, rfl, rfl, rfl⟩

theorem classifier {f : TxFrame} (h : rtwXmitClassifier p f = some p') : QueuesOnly p p' := by
  unfold rtwXmitClassifier at h
  split at h
  · cases h
  · split at h
    · cases h
    · split at h
      · cases h
      · cases h
        refine QueuesOnly.trans ?_ (addAccnt _ _ _)
        refine QueuesOnly.trans ?_ (updServq _ _ _ _)
        split
        · exact refl p
        · exact ⟨fun _ => rfl, rfl, rfl, rfl, rfl, rfl, rfl, rfl, rfl⟩

theorem halEnqueue (p : StaPriv) (f : TxFrame) : QueuesOnly p (halXmitframeEnqueue p f) := by
  unfold halXmitframeEnqueue
  split
  · rename_i h
    exact classifier h
  · exact ⟨fun _ => rfl, rfl, rfl, rfl, rfl, rfl, rfl, rfl, rfl⟩

end QueuesOnly

/-! ## One station -/

/-- The frame's category is delivery-enabled at the station now. -/
def TxSta.delivers (x : TxSta) (f : TxFrame) : Bool := (x.uapsd (acOf f.priority)).delivery

/-- **The counters are right**: `sleepq_len` is the length of the sleep queue, `sleepq_ac_len`
the number of its frames that are delivery-enabled. -/
def TxSta.Counts (x : TxSta) : Prop :=
  x.sleepqLen = x.sleepQ.length ∧ x.sleepqAcLen = x.sleepQ.countP x.delivers

/-- A station's counters are right, both bits of a category are always set together, and the
broadcast station has none set. -/
structure StaCounted (x : TxSta) : Prop where
  counts : x.Counts
  both : ∀ ac, (x.uapsd ac).trigger = (x.uapsd ac).delivery
  group : x.hwaddr.isMcast = true → ∀ ac, (x.uapsd ac).delivery = false

/-- So at every station. -/
def SleepCounted (p : StaPriv) : Prop := ∀ s, StaCounted (p.sta s)

theorem StaCounted.servq {x : TxSta} (h : StaCounted x) (q : Ac → TxServq) :
    StaCounted { x with servq := q } := ⟨h.counts, h.both, h.group⟩

theorem SleepCounted.queuesOnly {p p' : StaPriv} (h : SleepCounted p) (hq : QueuesOnly p p') :
    SleepCounted p' := by
  intro s
  rw [hq.sta s]
  exact (h s).servq _

theorem SleepCounted.updSta {p : StaPriv} (h : SleepCounted p) {s : StaSlot} {u : TxSta → TxSta}
    (hu : StaCounted (u (p.sta s))) : SleepCounted (p.updSta s u) := by
  intro k
  unfold StaPriv.updSta
  dsimp only
  split
  · rename_i hk
    rw [hk]
    exact hu
  · exact h k

/-- A frame at the end of the queue. -/
theorem StaCounted.push {x : TxSta} (h : StaCounted x) {f : TxFrame} {ac : Bool}
    (hac : x.delivers f = ac) : StaCounted (x.push f ac) := by
  refine ⟨⟨?_, ?_⟩, h.both, h.group⟩
  · show x.sleepqLen + 1 = ((x.sleepQ ++ [f]).length : Int)
    rw [h.counts.1, List.length_append]
    rfl
  · show (if ac then x.sleepqAcLen + 1 else x.sleepqAcLen) =
      ((x.sleepQ ++ [f]).countP x.delivers : Int)
    rw [h.counts.2, List.countP_append]
    cases ac with
    | true => simp [hac]
    | false => simp [hac]

/-- A frame out of the queue. -/
theorem StaCounted.pull {x : TxSta} (h : StaCounted x) {l q : List TxFrame} {f : TxFrame}
    {b : Bool} (hq : x.sleepQ = l ++ f :: q) (hb : x.delivers f = b) :
    StaCounted (x.pull (l ++ q) b) := by
  refine ⟨⟨?_, ?_⟩, h.both, h.group⟩
  · show x.sleepqLen - 1 = ((l ++ q).length : Int)
    rw [h.counts.1, hq, List.length_append, List.length_append, List.length_cons]
    omega
  · show (if b then x.sleepqAcLen - 1 else x.sleepqAcLen) =
      ((l ++ q).countP x.delivers : Int)
    rw [h.counts.2, hq, List.countP_append, List.countP_append, List.countP_cons]
    cases b with
    | true =>
      simp [hb]
      omega
    | false => simp [hb]

/-! ## The bitmaps -/

section Bitmaps

variable (p : StaPriv) (aid : Nat)

@[simp] theorem markTim_sta : (p.markTim aid).sta = p.sta := by
  unfold StaPriv.markTim
  dsimp only
  split
  · rfl
  · rfl

@[simp] theorem clearTim_sta : (p.clearTim aid).sta = p.sta := rfl

@[simp] theorem updateTim_sta : p.updateTim.sta = p.sta := rfl

end Bitmaps

theorem SleepCounted.of_sta {p p' : StaPriv} (h : SleepCounted p) (hs : p'.sta = p.sta) :
    SleepCounted p' := by
  intro s
  rw [hs]
  exact h s

/-! ## The operations -/

@[simp] theorem StaPriv.updSta_self (p : StaPriv) (s : StaSlot) (u : TxSta → TxSta) :
    (p.updSta s u).sta s = u (p.sta s) := if_pos rfl

theorem StaPriv.updSta_ne (p : StaPriv) {s k : StaSlot} (u : TxSta → TxSta) (h : k ≠ s) :
    (p.updSta s u).sta k = p.sta k := if_neg h

/-- A station that a group address finds has the broadcast address. -/
theorem getStainfo_group {p : StaPriv} {a : MacAddr} {s : StaSlot} (ha : a.isMcast = true)
    (h : p.getStainfo a = some s) : (p.sta s).hwaddr.isMcast = true := by
  unfold StaPriv.getStainfo at h
  rw [if_pos ha] at h
  have := List.find?_some h
  rw [of_decide_eq_true this]
  rfl

/-- **What `xmitframe_enqueue_for_sleeping_sta` can do**: nothing, and the frame is not
taken; or it goes to the queue of the broadcast station; or to that of a station that
sleeps. -/
theorem enqueueForSleepingSta_cases (p : StaPriv) (f : TxFrame) :
    ((enqueueForSleepingSta p f).1 = p ∧ (enqueueForSleepingSta p f).2.2 = false) ∨
      ∃ s, f.psta = some s ∧ p.getStainfo f.ra = some s ∧ (p.sta s).linked = true ∧
        (enqueueForSleepingSta p f).2.2 = true ∧
        ((f.ra.isMcast = true ∧ p.staDzBitmap ≠ 0 ∧
            (enqueueForSleepingSta p f).1 = enqueueBmc p s f) ∨
          (f.ra.isMcast = false ∧ p.dozes s = true ∧
            (enqueueForSleepingSta p f).1 = enqueueUc p s f)) := by
  unfold enqueueForSleepingSta
  split
  · exact Or.inl ⟨rfl, rfl⟩
  · split
    · exact Or.inl ⟨rfl, rfl⟩
    · rename_i hpsta
      split
      · exact Or.inl ⟨rfl, rfl⟩
      · rename_i s hs
        have hget : p.getStainfo f.ra = some s := by
          rw [← hs]
          exact (not_not.mp hpsta).symm
        split
        · exact Or.inl ⟨rfl, rfl⟩
        · rename_i hl
          have hlinked : (p.sta s).linked = true := by simpa using hl
          split
          · exact Or.inl ⟨rfl, rfl⟩
          · split
            · rename_i hm
              split
              · rename_i hdz
                exact Or.inr ⟨s, hs, hget, hlinked, rfl, Or.inl ⟨hm, hdz, rfl⟩⟩
              · exact Or.inl ⟨rfl, rfl⟩
            · rename_i hm
              split
              · rename_i hd
                exact Or.inr ⟨s, hs, hget, hlinked, rfl, Or.inr ⟨by simpa using hm, hd, rfl⟩⟩
              · exact Or.inl ⟨rfl, rfl⟩

/-! ## Rules for the operations

A property of the state that the hardware queues do not enter into is kept by an operation
when it is kept by the few things the operation does to the sleep queues. -/

section Rules

variable {P : StaPriv → Prop} (hqueues : ∀ {p p'}, QueuesOnly p p' → P p → P p')

include hqueues

theorem moveToSleeping_rule (henqueue : ∀ {p} f, P p → P (enqueueForSleepingSta p f).1)
    {acc : StaPriv × List TxFrame} (h : P acc.1) (s : StaSlot) (f : TxFrame) :
    P (moveToSleeping s acc f).1 := by
  have hq := henqueue { f with triggered := false } h
  unfold moveToSleeping
  dsimp only
  split
  · exact hqueues ((QueuesOnly.updServq ..).trans (QueuesOnly.addAccnt ..)) hq
  · exact hq

theorem stopQueue_rule (henqueue : ∀ {p} f, P p → P (enqueueForSleepingSta p f).1)
    {p : StaPriv} (h : P p) (s : StaSlot) (ac : Ac) : P (stopQueue p s ac) := by
  have hmove : ∀ (q : List TxFrame) (acc : StaPriv × List TxFrame), P acc.1 →
      P (q.foldl (moveToSleeping s) acc).1 := by
    intro q
    induction q with
    | nil => intro acc h; exact h
    | cons f q ih => intro acc h; exact ih _ (moveToSleeping_rule hqueues henqueue h s f)
  unfold stopQueue dequeueXmitframesToSleepingQueue
  exact hqueues ((QueuesOnly.updServq ..).trans (QueuesOnly.unlinkServq ..)) (hmove _ _ h)

/-- `stop_sta_xmit` marks the station as sleeping and moves its frames. -/
theorem stopStaXmit_rule (henqueue : ∀ {p} f, P p → P (enqueueForSleepingSta p f).1)
    {p p' : StaPriv} {s : StaSlot}
    (hsleep : ∀ dz, P { p.updSta s (fun x => { x with sleep := true }) with staDzBitmap := dz })
    (hstop : stopStaXmit p s = .done p') : P p' := by
  have hqs : ∀ (acs : List Ac) (p : StaPriv), P p →
      P (acs.foldl (fun p ac => stopQueue p s ac) p) := by
    intro acs
    induction acs with
    | nil => intro p h; exact h
    | cons ac acs ih => intro p h; exact ih _ (stopQueue_rule hqueues henqueue h s ac)
  unfold stopStaXmit at hstop
  dsimp only at hstop
  split at hstop
  · cases hstop
  · cases hstop
    exact stopQueue_rule hqueues henqueue (hqs _ _ (hsleep _)) _ _

/-- The loop of `wakeup_sta_to_xmit` takes frame after frame from the head of the queue. -/
theorem wakeupLoop_rule {s : StaSlot}
    (hpull : ∀ {p f q}, P p → (p.sta s).sleepQ = f :: q →
      P (p.updSta s fun x => x.pull q ((p.sta s).uapsd (acOf f.priority)).trigger)) :
    ∀ (q : List TxFrame) {p : StaPriv}, P p → (p.sta s).sleepQ = q →
      P (wakeupLoop s p q) ∧ ((wakeupLoop s p q).sta s).sleepQ = [] := by
  intro q
  induction q with
  | nil => intro p h hq; exact ⟨h, hq⟩
  | cons f q ih =>
      intro p h hq
      unfold wakeupLoop
      refine ih (hqueues (QueuesOnly.halEnqueue ..) (hpull h hq)) ?_
      rw [(QueuesOnly.halEnqueue ..).sta s]
      simp [TxSta.pull]

theorem wakeupBmcLoop_rule {b : StaSlot}
    (hpull : ∀ {p f q}, P p → (p.sta b).sleepQ = f :: q →
      P (p.updSta b fun x => x.pull q false)) :
    ∀ (q : List TxFrame) {p : StaPriv}, P p → (p.sta b).sleepQ = q →
      P (wakeupBmcLoop b p q) ∧ ((wakeupBmcLoop b p q).sta b).sleepQ = [] := by
  intro q
  induction q with
  | nil => intro p h hq; exact ⟨h, hq⟩
  | cons f q ih =>
      intro p h hq
      unfold wakeupBmcLoop
      refine ih (hqueues (QueuesOnly.halEnqueue ..) (hpull h hq)) ?_
      rw [(QueuesOnly.halEnqueue ..).sta b]
      simp [TxSta.pull]

/-- `xmit_delivery_enabled_frames` takes the trigger-enabled frames from where they stand. -/
theorem deliverLoop_rule {s : StaSlot} {F : List TxFrame}
    (hpull : ∀ {p l f q}, P p → (p.sta s).sleepQ = l ++ f :: q →
      ((p.sta s).uapsd (acOf f.priority)).trigger = true →
      P (p.updSta s fun x => x.pull (l ++ q) true))
    (hclear : ∀ {p f}, P p → f ∈ F → ((p.sta s).uapsd (acOf f.priority)).trigger = true →
      (p.sta s).hasLegacyAc = false → P (p.clearTim (p.sta s).aid)) :
    ∀ (q l : List TxFrame) {p : StaPriv}, P p → (p.sta s).sleepQ = l ++ q → q ⊆ F →
      P (deliverLoop s p l q) := by
  intro q
  induction q with
  | nil => intro l p h _ _; exact h
  | cons f q ih =>
      intro l p h hq hF
      have hqF : q ⊆ F := fun g hg => hF (List.mem_cons_of_mem f hg)
      unfold deliverLoop
      split
      · rename_i htrig
        -- the frame leaves the sleep queue and goes to the hardware
        have hpop := fun f' => hqueues (QueuesOnly.halEnqueue _ f') (hpull h hq htrig)
        have hsta : ∀ f', (halXmitframeEnqueue (p.updSta s fun x => x.pull (l ++ q) true) f').sta s =
            { (p.sta s).pull (l ++ q) true with
              servq := ((halXmitframeEnqueue (p.updSta s fun x => x.pull (l ++ q) true) f').sta
                s).servq } := by
          intro f'
          rw [(QueuesOnly.halEnqueue ..).sta s, StaPriv.updSta_self]
        dsimp only
        split
        -- it was the last one of the period, and no other traffic waits
        · rename_i hdone
          have hc := hclear (hpop { f with
            mdata := ((p.updSta s fun x => x.pull (l ++ q) true).sta s).sleepqAcLen > 0
            eosp := ¬ ((p.updSta s fun x => x.pull (l ++ q) true).sta s).sleepqAcLen > 0
            triggered := true }) (hF (List.mem_cons_self ..))
            (by
              rw [hsta]
              exact htrig)
            (by
              rw [hsta]
              simpa [TxSta.pull] using hdone.2)
          refine ih l ?_ ?_ hqF
          · rw [hsta] at hc
            simpa [TxSta.pull] using hc
          · rw [clearTim_sta, hsta]
            rfl
        · refine ih l (hpop _) ?_ hqF
          rw [hsta]
          rfl
      -- a frame that is not trigger-enabled stays where it is
      · exact ih (l ++ [f]) h (by rw [hq, List.append_assoc]; rfl) hqF

end Rules

section Ops

variable {p : StaPriv}

theorem SleepCounted.enqueueForSleepingSta (h : SleepCounted p) (f : TxFrame) :
    SleepCounted (Rtl8812au.enqueueForSleepingSta p f).1 := by
  rcases enqueueForSleepingSta_cases p f with ⟨heq, -⟩ |
    ⟨s, -, hget, -, -, ⟨hm, -, heq⟩ | ⟨-, -, heq⟩⟩
  · rw [heq]
    exact h
  · rw [heq]
    have hno : (p.sta s).delivers f = false := (h s).group (getStainfo_group hm hget) _
    refine (h.updSta (u := fun x => x.push f false) ((h s).push hno)).of_sta ?_
    simp [enqueueBmc]
  · rw [heq]
    refine (h.updSta (u := fun x => x.push f ((p.sta s).delivers f)) ((h s).push rfl)).of_sta ?_
    unfold enqueueUc
    dsimp only
    split
    · simp [TxSta.delivers]
    · rfl

theorem SleepCounted.stopStaXmit {p' : StaPriv} (h : SleepCounted p) {s : StaSlot}
    (hstop : Rtl8812au.stopStaXmit p s = .done p') : SleepCounted p' := by
  refine stopStaXmit_rule (P := SleepCounted) (fun hq h => h.queuesOnly hq)
    (fun f h => h.enqueueForSleepingSta f) (fun dz => ?_) hstop
  exact h.updSta (u := fun x => { x with sleep := true })
    ⟨(h s).counts, (h s).both, (h s).group⟩

/-- **Waking up** empties the queue frame by frame; the bit that is tested is the other one. -/
theorem SleepCounted.wakeupLoop (h : SleepCounted p) (s : StaSlot) :
    SleepCounted (Rtl8812au.wakeupLoop s p (p.sta s).sleepQ) := by
  refine (wakeupLoop_rule (P := SleepCounted) (fun hq h => h.queuesOnly hq) ?_ _ h rfl).1
  intro p f q h hq
  exact h.updSta ((h s).pull (l := []) hq ((h s).both (acOf f.priority)).symm)

theorem SleepCounted.wakeupBmcLoop (h : SleepCounted p) {b : StaSlot}
    (hb : (p.sta b).hwaddr.isMcast = true) :
    SleepCounted (Rtl8812au.wakeupBmcLoop b p (p.sta b).sleepQ) := by
  refine (wakeupBmcLoop_rule
    (P := fun p => SleepCounted p ∧ (p.sta b).hwaddr.isMcast = true) ?_ ?_ _ ⟨h, hb⟩ rfl).1.1
  · rintro p p' hq ⟨h, hb⟩
    refine ⟨h.queuesOnly hq, ?_⟩
    rw [hq.sta b]
    exact hb
  · rintro p f q ⟨h, hb⟩ hq
    refine ⟨h.updSta ((h b).pull (l := []) hq ((h b).group hb (acOf f.priority))), ?_⟩
    rw [StaPriv.updSta_self]
    exact hb

/-- Fields that the invariant does not look at. -/
theorem StaCounted.state {x : TxSta} (h : StaCounted x) (linked sleep auth : Bool)
    (aid expireTo : Nat) : StaCounted { x with
      linked := linked, sleep := sleep, authSuccess := auth, aid := aid, expireTo := expireTo } :=
  ⟨h.counts, h.both, h.group⟩

theorem wakeupLoop_hwaddr (s k : StaSlot) : ∀ (q : List TxFrame) (p : StaPriv),
    ((Rtl8812au.wakeupLoop s p q).sta k).hwaddr = (p.sta k).hwaddr := by
  intro q
  induction q with
  | nil => intro p; rfl
  | cons f q ih =>
      intro p
      unfold Rtl8812au.wakeupLoop
      dsimp only
      rw [ih, (QueuesOnly.halEnqueue ..).sta k]
      unfold StaPriv.updSta
      dsimp only
      split
      · rfl
      · rfl

theorem wakeupSta_hwaddr (p : StaPriv) (s k : StaSlot) :
    ((wakeupSta p s).1.sta k).hwaddr = (p.sta k).hwaddr := by
  rw [← wakeupLoop_hwaddr s k (p.sta s).sleepQ p]
  unfold wakeupSta wakeupDone StaPriv.updSta
  dsimp only
  split
  · dsimp only
    split
    · rfl
    · rfl
  · rfl

theorem SleepCounted.wakeupSta (h : SleepCounted p) (s : StaSlot) :
    SleepCounted (Rtl8812au.wakeupSta p s).1 := by
  have hloop := h.wakeupLoop s
  unfold Rtl8812au.wakeupSta
  dsimp only
  split
  · exact hloop.updSta (u := fun x =>
      { x with
        sleep := false
        expireTo := if x.authSuccess then (Rtl8812au.wakeupLoop s p (p.sta s).sleepQ).expireTo
          else x.expireTo
        authSuccess := false }) ((hloop s).state _ false false _ _)
  · exact hloop

theorem SleepCounted.wakeupBmc (h : SleepCounted p) {b : StaSlot}
    (hb : (p.sta b).hwaddr.isMcast = true) : SleepCounted (Rtl8812au.wakeupBmc p b).1 := by
  unfold Rtl8812au.wakeupBmc
  split
  · have hloop := h.wakeupBmcLoop hb
    dsimp only
    split
    · exact hloop
    · exact hloop
  · exact h

theorem SleepCounted.wakeupStaToXmit (h : SleepCounted p) (s : StaSlot) :
    SleepCounted (Rtl8812au.wakeupStaToXmit p s) := by
  have hsta := h.wakeupSta s
  unfold Rtl8812au.wakeupStaToXmit
  split
  · dsimp only
    split
    · exact hsta
    · exact hsta
  · rename_i b hget
    have hb : ((Rtl8812au.wakeupSta p s).1.sta b).hwaddr.isMcast = true := by
      rw [wakeupSta_hwaddr]
      exact getStainfo_group rfl hget
    have hbmc := hsta.wakeupBmc hb
    dsimp only
    split
    · exact hbmc
    · exact hbmc

theorem SleepCounted.deliver (h : SleepCounted p) (s : StaSlot) :
    SleepCounted (xmitDeliveryEnabledFrames p s) := by
  refine deliverLoop_rule (P := SleepCounted) (fun hq h => h.queuesOnly hq) ?_ ?_ _ _ h rfl
    (List.Subset.refl _)
  · intro p l f q h hq htrig
    exact h.updSta ((h s).pull hq (((h s).both _).symm.trans htrig))
  · intro p f h _ _ _
    exact h.of_sta (clearTim_sta _ _)

/-- A PS-Poll from this address is answered from the sleep queue of `s`. -/
def PollServed (p : StaPriv) (ta : MacAddr) (aid priority : Nat) (s : StaSlot) : Prop :=
  p.getStainfo ta = some s ∧ (p.sta s).aid = aid ∧
    ((p.sta s).uapsd (acOf priority)).delivery = false ∧ p.dozes s = true

/-- What every PS-Poll that is looked at does to the state of the station. -/
def touched (expireTo : Nat) (x : TxSta) : TxSta :=
  { x with
    expireTo := if x.authSuccess then expireTo else x.expireTo
    authSuccess := false }

/-- **What a PS-Poll can do**: nothing; or it only touches the state of the station; or it
takes the first frame; or it finds the queue empty. -/
theorem recvPsPoll_cases (p : StaPriv) (ta : MacAddr) (aid priority : Nat) :
    recvPsPoll p ta aid priority = p ∨
      ∃ s, s ∈ p.staHash ∧
        (recvPsPoll p ta aid priority = p.updSta s (touched p.expireTo) ∨
          PollServed p ta aid priority s ∧
            ((∃ f q f', (p.sta s).sleepQ = f :: q ∧
                let p' := halXmitframeEnqueue
                  ((p.updSta s (touched p.expireTo)).updSta s fun x => x.pull q false) f'
                recvPsPoll p ta aid priority =
                  if (p'.sta s).sleepqLen = 0 then p'.clearTim (p'.sta s).aid else p') ∨
              (p.sta s).sleepQ = [] ∧ recvPsPoll p ta aid priority =
                ((p.updSta s (touched p.expireTo)).updSta s fun x =>
                  { x with sleepqLen := 0 }).clearTim (p.sta s).aid)) := by
  unfold recvPsPoll
  split
  · exact Or.inl rfl
  · rename_i s hget
    have hs : s ∈ p.staHash := List.mem_of_find?_eq_some hget
    split
    · exact Or.inl rfl
    · rename_i haid
      split
      · exact Or.inl rfl
      · rename_i hdel
        refine Or.inr ⟨s, hs, ?_⟩
        dsimp only
        split
        · rename_i hdoze
          have hserved : PollServed p ta aid priority s :=
            ⟨hget, not_not.mp haid, by simpa using hdel, by
              simpa [StaPriv.dozes, StaPriv.updSta] using hdoze⟩
          split
          · rename_i f q hq
            refine Or.inr ⟨hserved, Or.inl ⟨f, q, _, ?_, rfl⟩⟩
            simpa using hq
          · rename_i hq
            split
            · refine Or.inr ⟨hserved, Or.inr ⟨by simpa using hq, ?_⟩⟩
              rw [StaPriv.updSta_self]
              rfl
            · exact Or.inl rfl
        · exact Or.inl rfl

theorem SleepCounted.recvPsPoll (h : SleepCounted p) {ta : MacAddr} {aid priority : Nat}
    (hok : ∀ s f q, PollServed p ta aid priority s → (p.sta s).sleepQ = f :: q →
      (p.sta s).delivers f = false) :
    SleepCounted (Rtl8812au.recvPsPoll p ta aid priority) := by
  have hupd : ∀ s, SleepCounted (p.updSta s (touched p.expireTo)) := fun s =>
    h.updSta ((h s).state _ _ false _ _)
  rcases recvPsPoll_cases p ta aid priority with heq |
    ⟨s, -, heq | ⟨hserved, ⟨f, q, f', hq, heq⟩ | ⟨hq, heq⟩⟩⟩
  · rw [heq]
    exact h
  · rw [heq]
    exact hupd s
  · have hpull := (hupd s s).pull (l := []) (b := false) (q := q) (f := f)
      (by rw [StaPriv.updSta_self]; exact hq)
      (by rw [StaPriv.updSta_self]; exact hok s f q hserved hq)
    have hpop := ((hupd s).updSta (u := fun x => x.pull q false) hpull).queuesOnly
      (QueuesOnly.halEnqueue _ f')
    rw [heq]
    split
    · exact hpop.of_sta (clearTim_sta _ _)
    · exact hpop
  · rw [heq]
    refine SleepCounted.of_sta ((hupd s).updSta (u := fun x => { x with sleepqLen := 0 }) ?_)
      (clearTim_sta _ _)
    refine ⟨⟨?_, (hupd s s).counts.2⟩, (hupd s s).both, (hupd s s).group⟩
    show (0 : Int) = _
    rw [StaPriv.updSta_self]
    show (0 : Int) = ((p.sta s).sleepQ.length : Int)
    rw [hq]
    rfl

theorem SleepCounted.allocStainfo {p' : StaPriv} {s : StaSlot} {a : MacAddr} (h : SleepCounted p)
    (halloc : Rtl8812au.allocStainfo p a = some (s, p')) : SleepCounted p' := by
  unfold Rtl8812au.allocStainfo at halloc
  split at halloc
  · cases halloc
  · cases halloc
    exact h.updSta (u := fun _ => { hwaddr := a })
      ⟨⟨rfl, rfl⟩, fun _ => rfl, fun _ _ => rfl⟩

theorem QueuesOnly.freeServq (p : StaPriv) (s : StaSlot) (ac : Ac) :
    QueuesOnly p (Rtl8812au.freeServq p s ac) := by
  unfold Rtl8812au.freeServq
  refine QueuesOnly.trans (QueuesOnly.trans (QueuesOnly.trans ?_ (QueuesOnly.updServq ..))
    (QueuesOnly.unlinkServq ..)) (QueuesOnly.addAccnt ..)
  exact ⟨fun _ => rfl, rfl, rfl, rfl, rfl, rfl, rfl, rfl, rfl⟩

theorem QueuesOnly.freeServqs (s : StaSlot) : ∀ (acs : List Ac) (p : StaPriv),
    QueuesOnly p (acs.foldl (fun p ac => Rtl8812au.freeServq p s ac) p) := by
  intro acs
  induction acs with
  | nil => intro p; exact QueuesOnly.refl p
  | cons ac acs ih => intro p; exact (QueuesOnly.freeServq p s ac).trans (ih _)

/-- **What freeing a station does**: its queues are gone, its bits are cleared and its AID is
given back when `sta_aid` has it. -/
structure Freed (s : StaSlot) (p p' : StaPriv) : Prop where
  others : ∀ k, k ≠ s → p'.sta k = { p.sta k with servq := (p'.sta k).servq }
  hwaddr : (p'.sta s).hwaddr = (p.sta s).hwaddr
  sleepQ : (p'.sta s).sleepQ = []
  sleepqLen : (p'.sta s).sleepqLen = 0
  sleepqAcLen : (p'.sta s).sleepqAcLen = 0
  uapsd : (p'.sta s).uapsd = fun _ => {}
  hasLegacyAc : (p'.sta s).hasLegacyAc = false
  timBitmap : p'.timBitmap = p.timBitmap &&& ~~~bitU16 (p.sta s).aid
  staHash : p'.staHash = p.staHash.filter (· != s)
  freeStaQueue : p'.freeStaQueue = p.freeStaQueue ++ [s]
  maxNumSta : p'.maxNumSta = p.maxNumSta
  apState : p'.apState = p.apState
  kept : p.staAid ((p.sta s).aid - 1) ≠ some s ∨ (p.sta s).aid = 0 →
    (p'.sta s).aid = (p.sta s).aid ∧ p'.staAid = p.staAid
  given : p.staAid ((p.sta s).aid - 1) = some s → 0 < (p.sta s).aid → (p'.sta s).aid = 0 ∧
    p'.staAid = fun k => if k = (p.sta s).aid - 1 then none else p.staAid k

theorem freed_freeStainfo (p : StaPriv) (s : StaSlot) : Freed s p (Rtl8812au.freeStainfo p s) := by
  have hq := QueuesOnly.freeServqs s [Ac.vo, .vi, .be, .bk] (StaPriv.updSta { p with
    staHash := p.staHash.filter (· != s), freed := p.freed ++ (p.sta s).sleepQ } s
    fun x => { x with linked := false, sleepQ := [], sleepqLen := 0 })
  unfold Rtl8812au.freeStainfo
  dsimp only
  generalize List.foldl (fun p ac => Rtl8812au.freeServq p s ac) _ _ = r at hq ⊢
  -- the queues of other stations stay, and so does all of them but the queues
  have hothers : ∀ k, k ≠ s → r.sta k = { p.sta k with servq := (r.sta k).servq } := by
    intro k hk
    have hk' := hq.sta k
    rw [StaPriv.updSta_ne _ _ hk] at hk'
    exact hk'
  have hself := hq.sta s
  rw [StaPriv.updSta_self] at hself
  have haddr : (r.sta s).hwaddr = (p.sta s).hwaddr := (congrArg TxSta.hwaddr hself).trans rfl
  have haid : (r.sta s).aid = (p.sta s).aid := (congrArg TxSta.aid hself).trans rfl
  have hsleepQ : (r.sta s).sleepQ = [] := (congrArg TxSta.sleepQ hself).trans rfl
  have hlen : (r.sta s).sleepqLen = 0 := (congrArg TxSta.sleepqLen hself).trans rfl
  have htim : r.timBitmap = p.timBitmap := hq.timBitmap
  have haids : r.staAid = p.staAid := hq.staAid
  have hhash : r.staHash = p.staHash.filter (· != s) := hq.staHash
  have hfree : r.freeStaQueue = p.freeStaQueue := hq.freeStaQueue
  have hmax : r.maxNumSta = p.maxNumSta := hq.maxNumSta
  have hap : r.apState = p.apState := hq.apState
  clear hq hself
  simp only [StaPriv.updSta_self, haid]
  split
  · rename_i hgive
    -- the AID is given back where the table says that it is this station's
    have hgive' : 0 < (p.sta s).aid ∧ p.staAid ((p.sta s).aid - 1) = some s := haids ▸ hgive
    have hnot : ¬ (p.staAid ((p.sta s).aid - 1) ≠ some s ∨ (p.sta s).aid = 0) := by
      rintro (hne | hz)
      · exact hne hgive'.2
      · rw [hz] at hgive'
        exact absurd hgive'.1 (Nat.lt_irrefl 0)
    constructor
    case others =>
      intro k hk
      simp only [StaPriv.updSta, if_neg hk]
      exact hothers k hk
    case kept => exact fun h => absurd h hnot
    case given =>
      intro _ _
      refine ⟨by simp [StaPriv.updSta], ?_⟩
      rw [← haids]
      rfl
    all_goals simp [StaPriv.updSta, haddr, hsleepQ, hlen, htim, hhash, hfree, hmax, hap]
  · rename_i hgive
    constructor
    case others =>
      intro k hk
      simp only [StaPriv.updSta, if_neg hk]
      exact hothers k hk
    case kept =>
      intro _
      refine ⟨?_, haids⟩
      simp [StaPriv.updSta, haid]
    case given =>
      intro hs hpos
      refine absurd ⟨hpos, ?_⟩ hgive
      rw [← hs, ← haids]
      rfl
    all_goals simp [StaPriv.updSta, haddr, hsleepQ, hlen, htim, hhash, hfree, hmax, hap]

/-- A freed station has nothing left. -/
theorem SleepCounted.freeStainfo (h : SleepCounted p) (s : StaSlot) :
    SleepCounted (Rtl8812au.freeStainfo p s) := by
  have hf := freed_freeStainfo p s
  intro k
  by_cases hk : k = s
  · rw [hk]
    refine ⟨⟨?_, ?_⟩, fun ac => ?_, fun _ ac => ?_⟩
    · rw [hf.sleepqLen, hf.sleepQ]
      rfl
    · rw [hf.sleepqAcLen, hf.sleepQ]
      rfl
    · rw [hf.uapsd]
    · rw [hf.uapsd]
  · rw [hf.others k hk]
    exact (h k).servq _

theorem SleepCounted.assocQos (h : SleepCounted p) {s : StaSlot} {wmm : Option Nat}
    (hcount : (p.sta s).sleepQ.countP ((Rtl8812au.assocQos p s wmm).sta s).delivers =
      (p.sta s).sleepQ.countP (p.sta s).delivers)
    (hgroup : (p.sta s).hwaddr.isMcast = true →
      ∀ ac, (((Rtl8812au.assocQos p s wmm).sta s).uapsd ac).delivery = false) :
    SleepCounted (Rtl8812au.assocQos p s wmm) := by
  have hs : ((Rtl8812au.assocQos p s wmm).sta s).sleepQ = (p.sta s).sleepQ ∧
      ((Rtl8812au.assocQos p s wmm).sta s).sleepqLen = (p.sta s).sleepqLen ∧
      ((Rtl8812au.assocQos p s wmm).sta s).sleepqAcLen = (p.sta s).sleepqAcLen ∧
      ((Rtl8812au.assocQos p s wmm).sta s).hwaddr = (p.sta s).hwaddr := by
    cases wmm with
    | none => simp [Rtl8812au.assocQos, StaPriv.updSta]
    | some info => simp [Rtl8812au.assocQos, StaPriv.updSta]
  intro k
  by_cases hk : k = s
  · subst hk
    refine ⟨⟨?_, ?_⟩, ?_, ?_⟩
    · rw [hs.1, hs.2.1]
      exact (h k).counts.1
    · rw [hs.1, hs.2.2.1, hcount]
      exact (h k).counts.2
    · intro ac
      cases wmm with
      | none => simp [Rtl8812au.assocQos, StaPriv.updSta]
      | some info => cases ac <;> simp [Rtl8812au.assocQos, StaPriv.updSta]
    · rw [hs.2.2.2]
      exact hgroup
  · have : (Rtl8812au.assocQos p s wmm).sta k = p.sta k := by
      simp [Rtl8812au.assocQos, StaPriv.updSta, hk]
    rw [this]
    exact h k

theorem SleepCounted.assocAid {p' : StaPriv} {s : StaSlot} (h : SleepCounted p)
    (haid : Rtl8812au.assocAid p s = some p') : SleepCounted p' := by
  unfold Rtl8812au.assocAid at haid
  split at haid
  · cases haid
    exact h
  · split at haid
    · cases haid
    · cases haid
      exact h.updSta (u := fun x => { x with aid := p.freeAid }) ((h s).state _ _ _ _ _)

end Ops

theorem QueuesOnly.dequeueFrom {ac : Ac} : ∀ {l : List StaSlot} {p p' : StaPriv} {f : TxFrame},
    Rtl8812au.dequeueFrom p ac l = some (f, p') → QueuesOnly p p' := by
  intro l
  induction l with
  | nil => intro p p' f h; cases h
  | cons s l ih =>
      intro p p' f h
      unfold Rtl8812au.dequeueFrom at h
      split at h
      · exact ih h
      · cases h
        split
        · exact ((QueuesOnly.updServq ..).trans (QueuesOnly.addAccnt ..)).trans
            (QueuesOnly.unlinkServq ..)
        · exact (QueuesOnly.updServq ..).trans (QueuesOnly.addAccnt ..)

theorem QueuesOnly.dequeueXframe {p p' : StaPriv} {f : TxFrame} : ∀ {inx : List Ac},
    rtwDequeueXframe p inx = some (f, p') → QueuesOnly p p' := by
  intro inx
  induction inx with
  | nil => intro h; cases h
  | cons ac inx ih =>
      intro h
      unfold rtwDequeueXframe at h
      split at h
      · rename_i r hr
        cases h
        exact QueuesOnly.dequeueFrom hr
      · exact ih h

/-! ## Every run -/

/-- The steps after which the counters are still right. A PS-Poll is one unless the frame it
takes is delivery-enabled: the handler looks at the priority of the PS-Poll. A request that
changes the categories is one when it changes none that frames wait in, and the group frames,
which are never counted, stay what they are. -/
def PsCountOk (p : StaPriv) : PsOp → Prop
  | .psPoll ta aid priority => ∀ s f q, PollServed p ta aid priority s →
      (p.sta s).sleepQ = f :: q → (p.sta s).delivers f = false
  | .qos s wmm =>
    (p.sta s).sleepQ.countP ((assocQos p s wmm).sta s).delivers =
        (p.sta s).sleepQ.countP (p.sta s).delivers ∧
      ((p.sta s).hwaddr.isMcast = true →
        ∀ ac, (((assocQos p s wmm).sta s).uapsd ac).delivery = false)
  | _ => True

theorem SleepCounted.psOp {p p' : StaPriv} {op : PsOp} (h : SleepCounted p)
    (hok : PsCountOk p op) (hstep : Rtl8812au.psOp p op = .done p') : SleepCounted p' := by
  cases op with
  | alloc a =>
      cases hstep
      cases halloc : Rtl8812au.allocStainfo p a with
      | none => exact h
      | some r => exact h.allocStainfo halloc
  | free s => cases hstep; exact h.freeStainfo s
  | qos s wmm => cases hstep; exact h.assocQos hok.1 hok.2
  | aid s =>
      cases hstep
      cases haid : Rtl8812au.assocAid p s with
      | none => exact h
      | some r => exact h.assocAid haid
  | refuse s =>
      cases hstep
      exact h.updSta (u := fun x => { x with aid := 0 }) ((h s).state _ _ _ _ _)
  | link s =>
      cases hstep
      exact h.updSta (u := fun x => { x with linked := true }) ((h s).state _ _ _ _ _)
  | enqueue f => cases hstep; exact h.enqueueForSleepingSta f
  | classify f => cases hstep; exact h.queuesOnly (QueuesOnly.halEnqueue p f)
  | dequeue inx =>
      cases hstep
      cases hdeq : rtwDequeueXframe p inx with
      | none => exact h
      | some r => exact h.queuesOnly (QueuesOnly.dequeueXframe hdeq)
  | stop s => exact h.stopStaXmit hstep
  | wakeup s => cases hstep; exact h.wakeupStaToXmit s
  | deliver s => cases hstep; exact h.deliver s
  | psPoll ta aid priority => cases hstep; exact h.recvPsPoll hok

/-- **One step** keeps the counters right. -/
theorem SleepCounted.psStep {p p' : StaPriv} {op : PsOp} (h : SleepCounted p)
    (hok : PsCountOk p op) (hstep : Rtl8812au.psStep p op = .done p') : SleepCounted p' := by
  unfold Rtl8812au.psStep at hstep
  split at hstep
  · exact h.psOp hok hstep
  · cases hstep
    exact h

theorem sleepCounted_init (apState : Bool) (hiq : HiqFilter) (expireTo maxNumSta : Nat) :
    SleepCounted (initStaPriv apState hiq expireTo maxNumSta) :=
  fun _ => ⟨⟨rfl, rfl⟩, fun _ => rfl, fun _ _ => rfl⟩

/-- **The power-save counters**: in every state that is reached by such steps, the counters
of every station are right, and so neither is below zero. -/
theorem sleep_counters_right {apState : Bool} {hiq : HiqFilter} {expireTo maxNumSta : Nat}
    {p : StaPriv}
    (h : Reach psStep PsCountOk (initStaPriv apState hiq expireTo maxNumSta) p) (s : StaSlot) :
    (p.sta s).Counts ∧ 0 ≤ (p.sta s).sleepqLen ∧ 0 ≤ (p.sta s).sleepqAcLen := by
  have hinv : SleepCounted p := h.invariant SleepCounted
    (sleepCounted_init apState hiq expireTo maxNumSta) SleepCounted.psStep
  have hcounts := (hinv s).counts
  refine ⟨hcounts, ?_, ?_⟩
  · rw [hcounts.1]
    exact Int.natCast_nonneg _
  · rw [hcounts.2]
    exact Int.natCast_nonneg _

/-- The address of the station in the samples. -/
def sampleStaAddr : MacAddr := ⟨2, 0, 0, 0, 0, 1⟩

/-- The broadcast station in slot 0 and a station in slot 1 that is linked with AID 1. -/
def sampleLinked : List PsOp :=
  [.alloc .bcast, .link 0, .alloc sampleStaAddr, .aid 1, .link 1]

/-- A frame of the given priority for that station. -/
def sampleTo (id priority : Nat) : TxFrame :=
  { id := id, psta := some 1, ra := sampleStaAddr, priority := priority }

/-- The station is delivery-enabled for best effort; it sleeps, and a voice frame and a best
effort frame come. -/
def sampleBuffered : List PsOp :=
  sampleLinked ++ ([.qos 1 (some 8)] ++
    [.stop 1, .enqueue (sampleTo 0 6), .enqueue (sampleTo 1 0)])

/-- The queue of the station in slot 1, and its counters. -/
def StaPriv.sleepView (p : StaPriv) : List Nat × Int × Int :=
  ((p.sta 1).sleepQ.map TxFrame.id, (p.sta 1).sleepqLen, (p.sta 1).sleepqAcLen)

/-- The PS-Poll takes the voice frame, which is not counted as delivery-enabled. -/
theorem sleep_counters_right_sample : ∃ p,
    Reach psStep PsCountOk (initStaPriv true .allowAll 3 32) p ∧
      p.sleepView = ([1], 1, 1) ∧ (p.sta 1).Counts := by
  have hqos : ∀ p, runActions psStep (initStaPriv true .allowAll 3 32) sampleLinked = .done p →
      PsCountOk p (.qos 1 (some 8)) := by
    intro p hp
    have hempty : ((p.sta 1).sleepQ.length, (p.sta 1).hwaddr.isMcast) = (0, false) :=
      Outcome.view_done (f := fun p => ((p.sta 1).sleepQ.length, (p.sta 1).hwaddr.isMcast)) hp
        (by decide)
    obtain ⟨hlen, haddr⟩ := Prod.mk.inj hempty
    refine ⟨?_, fun h => ?_⟩
    · rw [List.eq_nil_of_length_eq_zero hlen]
      rfl
    · rw [haddr] at h
      cases h
  have hpoll : ∀ p, runActions psStep (initStaPriv true .allowAll 3 32) sampleBuffered = .done p →
      PsCountOk p (.psPoll sampleStaAddr 1 6) := by
    intro p hp s f q hserved hq
    have hview : (p.getStainfo sampleStaAddr, (p.sta 1).sleepQ.head?.map (p.sta 1).delivers) =
        (some 1, some false) :=
      Outcome.view_done (f := fun p =>
        (p.getStainfo sampleStaAddr, (p.sta 1).sleepQ.head?.map (p.sta 1).delivers)) hp
        (by decide)
    obtain ⟨hget, hhead⟩ := Prod.mk.inj hview
    obtain rfl : s = 1 := Option.some.inj (hserved.1.symm.trans hget)
    rw [hq] at hhead
    exact Option.some.inj hhead
  have hok : RunOk psStep PsCountOk (initStaPriv true .allowAll 3 32)
      (sampleBuffered ++ [.psPoll sampleStaAddr 1 6]) := by
    refine RunOk.append (RunOk.append (RunOk.of_all ?_) fun p hp => ?_)
      fun p hp => ⟨hpoll p hp, fun _ _ => trivial⟩
    · intro a ha t
      simp only [sampleLinked, List.mem_cons, List.not_mem_nil, or_false] at ha
      rcases ha with rfl | rfl | rfl | rfl | rfl <;> exact trivial
    · refine ⟨hqos p hp, fun _ _ => RunOk.of_all ?_⟩
      intro a ha t
      have ha' : a ∈ [PsOp.stop 1, .enqueue (sampleTo 0 6), .enqueue (sampleTo 1 0)] := ha
      simp only [List.mem_cons, List.not_mem_nil, or_false] at ha'
      rcases ha' with rfl | rfl | rfl <;> exact trivial
  obtain ⟨p, hp, hview⟩ := Outcome.of_view
    (o := runActions psStep (initStaPriv true .allowAll 3 32)
      (sampleBuffered ++ [.psPoll sampleStaAddr 1 6])) (f := StaPriv.sleepView)
    (b := ([1], 1, 1)) (by decide)
  have hreach := reach_runActions Reach.start hok hp
  exact ⟨p, hreach, hview, (sleep_counters_right hreach 1).1⟩

/-- Without the condition: the PS-Poll finds a best effort frame first, which was counted as
delivery-enabled, takes it and leaves the count. -/
theorem ps_poll_miscounts : ∃ p,
    runActions psStep (initStaPriv true .allowAll 3 32)
      (sampleLinked ++ [.qos 1 (some 8), .stop 1, .enqueue (sampleTo 0 0),
        .psPoll sampleStaAddr 1 6]) = .done p ∧
      p.sleepView = ([], 0, 1) ∧ ¬ (p.sta 1).Counts := by
  obtain ⟨p, hp, hview⟩ := Outcome.of_view
    (o := runActions psStep (initStaPriv true .allowAll 3 32)
      (sampleLinked ++ [.qos 1 (some 8), .stop 1, .enqueue (sampleTo 0 0),
        .psPoll sampleStaAddr 1 6])) (f := StaPriv.sleepView)
    (b := ([], 0, 1)) (by decide)
  refine ⟨p, hp, hview, fun h => ?_⟩
  obtain ⟨hq, hlen⟩ := Prod.mk.inj hview
  have hcount := h.2
  rw [List.map_eq_nil_iff.mp hq, (Prod.mk.inj hlen).2] at hcount
  cases hcount

end Rtl8812au
