import Rtl8812au.Ap.SleepProof
import Rtl8812au.Lib.TwoLevel
import Mathlib.Data.List.Find

/-!
# The transmit queues

One hardware queue with the station queues linked into it is a queue of queues: `hwq` takes
it out of the state. What the operations do to it is said once for each of them, and the
counters and the links follow from the library. The order of the frames is a property of a
run: what was put in is what came out and what still waits, in this order.
-/

namespace Rtl8812au

/-- The hardware queue of a category. -/
def StaPriv.hwq (p : StaPriv) (ac : Ac) : TwoLevel StaSlot TxFrame where
  pending s := ((p.sta s).servq ac).staPending
  cnt s := ((p.sta s).servq ac).qcnt
  total := p.accnt ac
  linked := p.staQueue ac

theorem hwq_ext {q q' : TwoLevel StaSlot TxFrame} (h1 : ∀ s, q.pending s = q'.pending s)
    (h2 : ∀ s, q.cnt s = q'.cnt s) (h3 : q.total = q'.total) (h4 : q.linked = q'.linked) :
    q = q' := by
  cases q
  cases q'
  simp only [TwoLevel.mk.injEq]
  exact ⟨funext h1, funext h2, h3, h4⟩

/-- A change of a station that leaves its queues alone. -/
theorem hwq_updSta (p : StaPriv) (s : StaSlot) (u : TxSta → TxSta)
    (hu : (u (p.sta s)).servq = (p.sta s).servq) (ac : Ac) : (p.updSta s u).hwq ac = p.hwq ac := by
  have hsta : ∀ k, ((p.updSta s u).sta k).servq = (p.sta k).servq := by
    intro k
    by_cases hk : k = s
    · rw [hk, p.updSta_self, hu]
    · rw [p.updSta_ne u hk]
  refine hwq_ext (fun k => ?_) (fun k => ?_) rfl rfl
  · show (((p.updSta s u).sta k).servq ac).staPending = _
    rw [hsta]
    rfl
  · show (((p.updSta s u).sta k).servq ac).qcnt = _
    rw [hsta]
    rfl

section Primitives

variable (p : StaPriv) (s : StaSlot) {ac c : Ac} (u : TxServq → TxServq)

theorem hwq_updServq : (p.updServq s ac u).hwq ac =
    { p.hwq ac with
      pending := Function.update (p.hwq ac).pending s (u ((p.sta s).servq ac)).staPending
      cnt := Function.update (p.hwq ac).cnt s (u ((p.sta s).servq ac)).qcnt } := by
  refine hwq_ext (fun k => ?_) (fun k => ?_) rfl rfl
  · by_cases hk : k = s
    · subst hk
      simp [StaPriv.hwq, StaPriv.updServq]
    · simp [StaPriv.hwq, StaPriv.updServq, StaPriv.updSta, hk]
  · by_cases hk : k = s
    · subst hk
      simp [StaPriv.hwq, StaPriv.updServq]
    · simp [StaPriv.hwq, StaPriv.updServq, StaPriv.updSta, hk]

theorem hwq_updServq_ne (h : c ≠ ac) : (p.updServq s ac u).hwq c = p.hwq c := by
  refine hwq_ext (fun k => ?_) (fun k => ?_) rfl rfl
  · by_cases hk : k = s
    · subst hk
      simp [StaPriv.hwq, StaPriv.updServq, h]
    · simp [StaPriv.hwq, StaPriv.updServq, StaPriv.updSta, hk]
  · by_cases hk : k = s
    · subst hk
      simp [StaPriv.hwq, StaPriv.updServq, h]
    · simp [StaPriv.hwq, StaPriv.updServq, StaPriv.updSta, hk]

theorem hwq_addAccnt (d : Int) :
    (p.addAccnt ac d).hwq ac = { p.hwq ac with total := (p.hwq ac).total + d } := by
  simp [StaPriv.hwq, StaPriv.addAccnt]

theorem hwq_addAccnt_ne (d : Int) (h : c ≠ ac) : (p.addAccnt ac d).hwq c = p.hwq c := by
  simp [StaPriv.hwq, StaPriv.addAccnt, h]

theorem hwq_unlinkServq : (p.unlinkServq s ac).hwq ac =
    { p.hwq ac with linked := (p.hwq ac).linked.filter (· != s) } := by
  simp [StaPriv.hwq, StaPriv.unlinkServq]

theorem hwq_unlinkServq_ne (h : c ≠ ac) : (p.unlinkServq s ac).hwq c = p.hwq c := by
  simp [StaPriv.hwq, StaPriv.unlinkServq, h]

end Primitives

/-! ## The operations on it -/

/-- The queue of the station is linked into the hardware queue, unless it is. -/
def linkServq (p : StaPriv) (s : StaSlot) (ac : Ac) : StaPriv :=
  if (p.staQueue ac).contains s then p
  else { p with staQueue := fun c => if c = ac then p.staQueue c ++ [s] else p.staQueue c }

theorem hwq_linkServq (p : StaPriv) (s : StaSlot) (ac : Ac) : (linkServq p s ac).hwq ac =
    { p.hwq ac with
      linked := if s ∈ (p.hwq ac).linked then (p.hwq ac).linked else (p.hwq ac).linked ++ [s] } := by
  unfold linkServq
  by_cases h : s ∈ p.staQueue ac
  · simp [StaPriv.hwq, h]
  · simp [StaPriv.hwq, h]

theorem hwq_linkServq_ne (p : StaPriv) (s : StaSlot) {ac c : Ac} (h : c ≠ ac) :
    (linkServq p s ac).hwq c = p.hwq c := by
  unfold linkServq
  split
  · rfl
  · simp [StaPriv.hwq, h]

theorem linkServq_sta (p : StaPriv) (s : StaSlot) (ac : Ac) : (linkServq p s ac).sta = p.sta := by
  unfold linkServq
  split
  · rfl
  · rfl

/-- **The classifier** puts the frame at the end of the queue of its station and category. -/
theorem classifier_spec {p p' : StaPriv} {f : TxFrame} (h : rtwXmitClassifier p f = some p') :
    ∃ s, f.psta = some s ∧ p.getStainfo f.ra = some s ∧ (p.sta s).linked = true ∧
      p'.hwq (acOf f.priority) = (p.hwq (acOf f.priority)).push s f ∧
      ∀ ac, ac ≠ acOf f.priority → p'.hwq ac = p.hwq ac := by
  unfold rtwXmitClassifier at h
  split at h
  · cases h
  · rename_i hpsta
    split at h
    · cases h
    · rename_i s hs
      split at h
      · cases h
      · rename_i hl
        have hp' : ((linkServq p s (acOf f.priority)).updServq s (acOf f.priority) fun q =>
            { staPending := q.staPending ++ [f], qcnt := q.qcnt + 1 }).addAccnt
              (acOf f.priority) 1 = p' := Option.some.inj h
        refine ⟨s, hs, ?_, by simpa using hl, ?_, fun ac hac => ?_⟩
        · rw [← hs]
          exact (not_not.mp hpsta).symm
        · rw [← hp', hwq_addAccnt, hwq_updServq, hwq_linkServq, linkServq_sta]
          rfl
        · rw [← hp', hwq_addAccnt_ne _ _ hac, hwq_updServq_ne _ _ _ hac, hwq_linkServq_ne _ _ hac]

/-- A frame that belongs to a station that is linked is taken. -/
theorem classifier_takes {p : StaPriv} {f : TxFrame} {s : StaSlot} (hs : f.psta = some s)
    (hget : p.getStainfo f.ra = some s) (hl : (p.sta s).linked = true) :
    ∃ p', rtwXmitClassifier p f = some p' := by
  unfold rtwXmitClassifier
  rw [if_neg (by rw [hs, hget]; exact fun h => h rfl), hs]
  dsimp only
  rw [if_neg (by simp [hl])]
  exact ⟨_, rfl⟩

/-- **The dequeue** takes the first frame of a queue that has one. -/
theorem dequeueFrom_spec {ac : Ac} : ∀ {l : List StaSlot} {p p' : StaPriv} {f : TxFrame},
    dequeueFrom p ac l = some (f, p') →
      ∃ s rest, (p.hwq ac).pending s = f :: rest ∧ p'.hwq ac = (p.hwq ac).pop s rest ∧
        ∀ c, c ≠ ac → p'.hwq c = p.hwq c := by
  intro l
  induction l with
  | nil => intro p p' f h; cases h
  | cons s l ih =>
      intro p p' f h
      unfold dequeueFrom at h
      split at h
      · exact ih h
      · rename_i g q hq
        cases h
        refine ⟨s, q, hq, ?_, fun c hc => ?_⟩
        · by_cases hnil : q = []
          · rw [if_pos (by rw [hnil]; rfl), hwq_unlinkServq, hwq_addAccnt, hwq_updServq,
              TwoLevel.pop, if_pos hnil]
            rfl
          · rw [if_neg (by simpa using hnil), hwq_addAccnt, hwq_updServq, TwoLevel.pop, if_neg hnil]
            rfl
        · split
          · rw [hwq_unlinkServq_ne _ _ hc, hwq_addAccnt_ne _ _ hc, hwq_updServq_ne _ _ _ hc]
          · rw [hwq_addAccnt_ne _ _ hc, hwq_updServq_ne _ _ _ hc]

theorem dequeueXframe_spec {p p' : StaPriv} {f : TxFrame} : ∀ {inx : List Ac},
    rtwDequeueXframe p inx = some (f, p') →
      ∃ s ac rest, (p.hwq ac).pending s = f :: rest ∧ p'.hwq ac = (p.hwq ac).pop s rest ∧
        ∀ c, c ≠ ac → p'.hwq c = p.hwq c := by
  intro inx
  induction inx with
  | nil => intro h; cases h
  | cons ac inx ih =>
      intro h
      unfold rtwDequeueXframe at h
      split at h
      · rename_i r hr
        cases h
        obtain ⟨s, rest, hs⟩ := dequeueFrom_spec hr
        exact ⟨s, ac, rest, hs⟩
      · exact ih h

theorem freeServq_hwq (p : StaPriv) (s : StaSlot) (ac : Ac) :
    (freeServq p s ac).hwq ac = (p.hwq ac).clear s ((p.hwq ac).cnt s) := by
  unfold freeServq
  dsimp only
  rw [hwq_addAccnt, hwq_unlinkServq, hwq_updServq, TwoLevel.clear, Int.sub_self]
  rfl

theorem freeServq_hwq_ne (p : StaPriv) (s : StaSlot) {ac c : Ac} (h : c ≠ ac) :
    (freeServq p s ac).hwq c = p.hwq c := by
  unfold freeServq
  dsimp only
  rw [hwq_addAccnt_ne _ _ h, hwq_unlinkServq_ne _ _ h, hwq_updServq_ne _ _ _ h]
  rfl

/-! ## What the queues rest on -/

/-- The stations are the same ones, and those that were linked still are. -/
structure Beside (p p' : StaPriv) : Prop where
  apState : p'.apState = p.apState
  staHash : p'.staHash = p.staHash
  freeStaQueue : p'.freeStaQueue = p.freeStaQueue
  hwaddr : ∀ k, (p'.sta k).hwaddr = (p.sta k).hwaddr
  linked : ∀ k, (p.sta k).linked = true → (p'.sta k).linked = true

namespace Beside

variable {p p' p'' : StaPriv}

theorem refl (p : StaPriv) : Beside p p := ⟨rfl, rfl, rfl, fun _ => rfl, fun _ h => h⟩

theorem trans (h : Beside p p') (h' : Beside p' p'') : Beside p p'' :=
  ⟨h'.1.trans h.1, h'.2.trans h.2, h'.3.trans h.3, fun k => (h'.4 k).trans (h.4 k),
    fun k hk => h'.5 k (h.5 k hk)⟩

theorem getStainfo (h : Beside p p') (a : MacAddr) : p'.getStainfo a = p.getStainfo a := by
  simp only [StaPriv.getStainfo, h.staHash, h.hwaddr]

theorem of_queuesOnly (h : QueuesOnly p p') : Beside p p' :=
  ⟨h.apState, h.staHash, h.freeStaQueue, fun k => by rw [h.sta k], fun k hk => by rw [h.sta k]; exact hk⟩

theorem updSta (p : StaPriv) {s : StaSlot} {u : TxSta → TxSta}
    (hu : (u (p.sta s)).hwaddr = (p.sta s).hwaddr)
    (hl : (p.sta s).linked = true → (u (p.sta s)).linked = true) : Beside p (p.updSta s u) := by
  refine ⟨rfl, rfl, rfl, fun k => ?_, fun k hk => ?_⟩
  · by_cases hks : k = s
    · rw [hks, p.updSta_self, hu]
    · rw [p.updSta_ne u hks]
  · by_cases hks : k = s
    · rw [hks, p.updSta_self]
      exact hl (hks ▸ hk)
    · rw [p.updSta_ne u hks]
      exact hk

end Beside

/-- The frame is for the station `s`, as it was when the frame was made. -/
def Own (p : StaPriv) (s : StaSlot) (f : TxFrame) : Prop :=
  f.psta = some s ∧ p.getStainfo f.ra = some s

theorem Beside.own {p p' : StaPriv} (h : Beside p p') {s : StaSlot} {f : TxFrame}
    (hf : Own p s f) : Own p' s f := ⟨hf.1, (h.getStainfo f.ra).trans hf.2⟩

/-! ## A queue is moved to the sleeping -/

/-- As `dequeue_xmitframes_to_sleeping_queue` leaves a frame. -/
def untrigger (f : TxFrame) : TxFrame := { f with triggered := false }

/-- The frame would wait in a sleep queue: some station sleeps, and if it is a frame for one
station, that one does. -/
def Waits (p : StaPriv) (s : StaSlot) (f : TxFrame) : Prop :=
  if f.ra.isMcast then p.staDzBitmap ≠ 0 else p.dozes s = true

/-- The frames `l` of station `s` and category `ac` are in its sleep queue now and are no
longer counted; they have not been taken out of the queue yet. -/
structure Moved (s : StaSlot) (ac : Ac) (l : List TxFrame) (p p' : StaPriv) : Prop where
  beside : Beside p p'
  waits : ∀ k f, Waits p k f → Waits p' k f
  sleepQ : (p'.sta s).sleepQ = (p.sta s).sleepQ ++ l.map untrigger
  sleepQ_ne : ∀ k, k ≠ s → (p'.sta k).sleepQ = (p.sta k).sleepQ
  hwq : p'.hwq ac =
    { p.hwq ac with
      cnt := Function.update (p.hwq ac).cnt s ((p.hwq ac).cnt s - l.length)
      total := (p.hwq ac).total - l.length }
  hwq_ne : ∀ c, c ≠ ac → p'.hwq c = p.hwq c

namespace Moved

variable {s : StaSlot} {ac : Ac} {p p' p'' : StaPriv}

theorem nil (s : StaSlot) (ac : Ac) (p : StaPriv) : Moved s ac [] p p := by
  refine ⟨Beside.refl p, fun _ _ h => h, by simp, fun _ _ => rfl, ?_, fun _ _ => rfl⟩
  simp

theorem cons {f : TxFrame} {l : List TxFrame} (h : Moved s ac [f] p p')
    (h' : Moved s ac l p' p'') : Moved s ac (f :: l) p p'' := by
  refine ⟨h.beside.trans h'.beside, fun k g hg => h'.waits k g (h.waits k g hg), ?_,
    fun k hk => (h'.sleepQ_ne k hk).trans (h.sleepQ_ne k hk), ?_,
    fun c hc => (h'.hwq_ne c hc).trans (h.hwq_ne c hc)⟩
  · rw [h'.sleepQ, h.sleepQ]
    simp
  · rw [h'.hwq, h.hwq]
    refine hwq_ext (fun _ => rfl) (fun k => ?_) ?_ rfl
    · by_cases hk : k = s
      · subst hk
        simp
        omega
      · simp [hk]
    · simp
      omega

end Moved

theorem dozes_mono {p p' : StaPriv} {k : StaSlot} (hs : (p'.sta k).sleep = (p.sta k).sleep)
    (ha : (p'.sta k).aid = (p.sta k).aid) {d : BitVec 16}
    (hdz : p'.staDzBitmap = p.staDzBitmap ||| d) (h : p.dozes k = true) : p'.dozes k = true := by
  unfold StaPriv.dozes at h ⊢
  rw [Bool.and_eq_true] at h ⊢
  refine ⟨hs.trans h.1, ?_⟩
  rw [bne_iff_ne] at h ⊢
  intro hz
  refine h.2 ?_
  rw [hdz, ha] at hz
  have hand : p.staDzBitmap &&& bitU16 (p.sta k).aid =
      p.staDzBitmap &&& ((p.staDzBitmap ||| d) &&& bitU16 (p.sta k).aid) := by
    rw [← BitVec.and_assoc]
    congr 1
    refine BitVec.eq_of_getLsbD_eq fun i _ => ?_
    simp only [BitVec.getLsbD_and, BitVec.getLsbD_or]
    cases p.staDzBitmap.getLsbD i <;> simp
  rw [hand, hz]
  simp

theorem markTim_rest (p : StaPriv) (aid : Nat) :
    (p.markTim aid).staHash = p.staHash ∧ (p.markTim aid).freeStaQueue = p.freeStaQueue ∧
      (p.markTim aid).apState = p.apState ∧ (p.markTim aid).staDzBitmap = p.staDzBitmap ∧
      (p.markTim aid).hwq = p.hwq := by
  unfold StaPriv.markTim
  dsimp only
  split
  · exact ⟨rfl, rfl, rfl, rfl, rfl⟩
  · exact ⟨rfl, rfl, rfl, rfl, rfl⟩

/-- A frame that has to wait is put at the end of the sleep queue of its station. -/
theorem enqueueForSleepingSta_waits {p : StaPriv} {s : StaSlot} {f : TxFrame}
    (hap : p.apState = true) (hown : Own p s f) (hl : (p.sta s).linked = true)
    (ht : f.triggered = false) (hw : Waits p s f) :
    ∃ p' d b, enqueueForSleepingSta p f = (p', f, true) ∧
      p'.sta = (p.updSta s fun x => x.push f b).sta ∧ p'.staDzBitmap = p.staDzBitmap ||| d ∧
      p'.staHash = p.staHash ∧ p'.freeStaQueue = p.freeStaQueue ∧ p'.apState = p.apState ∧
      p'.hwq = (p.updSta s fun x => x.push f b).hwq := by
  unfold enqueueForSleepingSta
  rw [if_neg (by simp [hap]), if_neg (by rw [hown.1, hown.2]; exact fun h => h rfl), hown.1]
  dsimp only
  rw [if_neg (by simp [hl]), if_neg (by simp [ht])]
  unfold Waits at hw
  split
  · rename_i hm
    rw [if_pos hm] at hw
    rw [if_pos hw]
    obtain ⟨h1, h2, h3, h4, h5⟩ := markTim_rest (p.updSta s fun x => x.push f false) 0
    refine ⟨_, bitU16 0, false, rfl, markTim_sta _ 0, ?_, h1, h2, h3, h5⟩
    show (StaPriv.markTim _ 0).staDzBitmap ||| bitU16 0 = _
    rw [h4]
    rfl
  · rename_i hm
    rw [if_neg hm] at hw
    rw [if_pos hw]
    refine ⟨_, 0#16, ((p.sta s).uapsd (acOf f.priority)).delivery, rfl, ?_⟩
    unfold enqueueUc
    dsimp only
    obtain ⟨h1, h2, h3, h4, h5⟩ := markTim_rest
      (p.updSta s fun x => x.push f ((p.sta s).uapsd (acOf f.priority)).delivery) (p.sta s).aid
    split
    · refine ⟨markTim_sta _ _, ?_, h1, h2, h3, h5⟩
      rw [h4, BitVec.or_zero]
      rfl
    · refine ⟨rfl, ?_, rfl, rfl, rfl, rfl⟩
      rw [BitVec.or_zero]
      rfl

/-- **One frame** of `dequeue_xmitframes_to_sleeping_queue` that has to wait. -/
theorem moveToSleeping_moved {p : StaPriv} {s : StaSlot} {ac : Ac} {f : TxFrame}
    (kept : List TxFrame) (hap : p.apState = true) (hown : Own p s f)
    (hac : acOf f.priority = ac) (hl : (p.sta s).linked = true) (hw : Waits p s f) :
    ∃ p', moveToSleeping s (p, kept) f = (p', kept) ∧ Moved s ac [f] p p' := by
  obtain ⟨r, d, b, henq, hsta, hdz, hhash, hfree, hap', hhwq⟩ :=
    enqueueForSleepingSta_waits (f := untrigger f) hap hown hl rfl hw
  -- the frame goes to the sleep queue of its station, and nothing else of a station changes
  have hpush : ∀ k, (r.sta k).servq = (p.sta k).servq ∧ (r.sta k).hwaddr = (p.sta k).hwaddr ∧
      (r.sta k).linked = (p.sta k).linked ∧ (r.sta k).sleep = (p.sta k).sleep ∧
      (r.sta k).aid = (p.sta k).aid := by
    intro k
    rw [hsta]
    by_cases hk : k = s
    · rw [hk, p.updSta_self]
      exact ⟨rfl, rfl, rfl, rfl, rfl⟩
    · rw [p.updSta_ne _ hk]
      exact ⟨rfl, rfl, rfl, rfl, rfl⟩
  have hbeside : Beside p r :=
    ⟨hap', hhash, hfree, fun k => (hpush k).2.1, fun k hk => (hpush k).2.2.1.trans hk⟩
  have hq := (QueuesOnly.updServq r s ac fun q => { q with qcnt := q.qcnt - 1 }).trans
    (QueuesOnly.addAccnt _ ac (-1))
  refine ⟨(r.updServq s ac fun q => { q with qcnt := q.qcnt - 1 }).addAccnt ac (-1), ?_, ?_⟩
  · unfold moveToSleeping
    dsimp only
    rw [show ({ f with triggered := false } : TxFrame) = untrigger f from rfl, henq]
    dsimp only
    rw [if_pos rfl, hac]
  refine ⟨hbeside.trans (Beside.of_queuesOnly hq), fun k g hg => ?_, ?_, fun k hk => ?_, ?_,
    fun c hc => ?_⟩
  -- who had to wait still has to: bits are only set
  · unfold Waits at hg ⊢
    split at hg
    · rename_i hm
      rw [if_pos hm, hq.staDzBitmap, hdz]
      intro hz
      refine hg (BitVec.eq_of_getLsbD_eq fun i _ => ?_)
      have hi := congrArg (fun t : BitVec 16 => t.getLsbD i) hz
      simp only [BitVec.getLsbD_or] at hi
      cases hpi : p.staDzBitmap.getLsbD i with
      | false => simp
      | true => simp [hpi] at hi
    · rename_i hm
      rw [if_neg hm]
      refine dozes_mono (p := p) (d := d) ?_ ?_ (hq.staDzBitmap.trans hdz) hg
      · rw [hq.sta k]
        exact (hpush k).2.2.2.1
      · rw [hq.sta k]
        exact (hpush k).2.2.2.2
  · rw [hq.sta s, hsta, p.updSta_self]
    rfl
  · rw [hq.sta k, hsta, p.updSta_ne _ hk]
  -- one frame less in the queue is one less in the count
  · have hservq : (r.sta s).servq ac = (p.sta s).servq ac := by rw [(hpush s).1]
    rw [hwq_addAccnt, hwq_updServq, hhwq, hwq_updSta _ _ _ rfl, hservq]
    refine hwq_ext (fun k => ?_) (fun _ => rfl) rfl rfl
    by_cases hk : k = s
    · subst hk
      simp [StaPriv.hwq]
    · simp [hk]
  · rw [hwq_addAccnt_ne _ _ hc, hwq_updServq_ne _ _ _ hc, hhwq, hwq_updSta _ _ _ rfl]

/-- All frames of the queue, when each of them has to wait. -/
theorem foldl_moveToSleeping {s : StaSlot} {ac : Ac} : ∀ (l : List TxFrame) {p : StaPriv},
    p.apState = true → (p.sta s).linked = true →
    (∀ f ∈ l, Own p s f ∧ acOf f.priority = ac ∧ Waits p s f) →
    ∃ p', l.foldl (moveToSleeping s) (p, []) = (p', []) ∧ Moved s ac l p p' := by
  intro l
  induction l with
  | nil => intro p _ _ _; exact ⟨p, rfl, Moved.nil s ac p⟩
  | cons f l ih =>
      intro p hap hl hf
      obtain ⟨hown, hac, hw⟩ := hf f (List.mem_cons_self ..)
      obtain ⟨r, hr, hmoved⟩ := moveToSleeping_moved [] hap hown hac hl hw
      obtain ⟨p', hp', hrest⟩ := ih (p := r) (hmoved.beside.apState.trans hap)
        (hmoved.beside.linked s hl) fun g hg => by
          obtain ⟨hown', hac', hw'⟩ := hf g (List.mem_cons_of_mem f hg)
          exact ⟨hmoved.beside.own hown', hac', hmoved.waits s g hw'⟩
      refine ⟨p', ?_, hmoved.cons hrest⟩
      rw [List.foldl_cons, hr]
      exact hp'

/-- **A queue is moved as a whole**: it is empty then and not linked, its frames are not
counted any more and stand at the end of the sleep queue. -/
structure Shifted (s : StaSlot) (ac : Ac) (p p' : StaPriv) : Prop where
  beside : Beside p p'
  waits : ∀ k f, Waits p k f → Waits p' k f
  sleepQ : (p'.sta s).sleepQ =
    (p.sta s).sleepQ ++ ((p.hwq ac).pending s).map untrigger
  sleepQ_ne : ∀ k, k ≠ s → (p'.sta k).sleepQ = (p.sta k).sleepQ
  hwq : p'.hwq ac = (p.hwq ac).clear s ((p.hwq ac).pending s).length
  hwq_ne : ∀ c, c ≠ ac → p'.hwq c = p.hwq c

theorem Shifted.pending {s : StaSlot} {ac : Ac} {p p' : StaPriv} (h : Shifted s ac p p') :
    (p'.hwq ac).pending = Function.update (p.hwq ac).pending s [] := by
  rw [h.hwq]
  rfl

theorem Shifted.mem {s k : StaSlot} {ac c : Ac} {p p' : StaPriv} {f : TxFrame}
    (h : Shifted s ac p p') (hf : f ∈ (p'.hwq c).pending k) : f ∈ (p.hwq c).pending k := by
  by_cases hc : c = ac
  · subst hc
    rw [h.pending] at hf
    by_cases hk : k = s
    · subst hk
      rw [Function.update_self] at hf
      cases hf
    · rw [Function.update_of_ne hk] at hf
      exact hf
  · rw [h.hwq_ne c hc] at hf
    exact hf

theorem stopQueue_shifted {p : StaPriv} {s : StaSlot} {ac : Ac} (hap : p.apState = true)
    (hl : (p.hwq ac).pending s ≠ [] → (p.sta s).linked = true)
    (hf : ∀ f ∈ (p.hwq ac).pending s, Own p s f ∧ acOf f.priority = ac ∧ Waits p s f) :
    Shifted s ac p (stopQueue p s ac) := by
  obtain ⟨r, hr, hmoved⟩ : ∃ r, ((p.sta s).servq ac).staPending.foldl (moveToSleeping s) (p, []) =
      (r, []) ∧ Moved s ac ((p.hwq ac).pending s) p r := by
    by_cases hnil : (p.hwq ac).pending s = []
    · rw [hnil, show ((p.sta s).servq ac).staPending = [] from hnil]
      exact ⟨p, rfl, Moved.nil s ac p⟩
    · exact foldl_moveToSleeping _ hap (hl hnil) hf
  have hq := (QueuesOnly.updServq r s ac fun q => { q with staPending := [] }).trans
    (QueuesOnly.unlinkServq _ s ac)
  have heq : stopQueue p s ac =
      (r.updServq s ac fun q => { q with staPending := [] }).unlinkServq s ac := by
    unfold stopQueue dequeueXmitframesToSleepingQueue
    rw [hr]
  rw [heq]
  refine ⟨hmoved.beside.trans (Beside.of_queuesOnly hq), fun k f hw => ?_, ?_, fun k hk => ?_, ?_,
    fun c hc => ?_⟩
  · have hw' := hmoved.waits k f hw
    unfold Waits StaPriv.dozes at hw' ⊢
    rw [hq.staDzBitmap, hq.sta k]
    exact hw'
  · rw [hq.sta s]
    exact hmoved.sleepQ
  · rw [hq.sta k]
    exact hmoved.sleepQ_ne k hk
  · rw [hwq_unlinkServq, hwq_updServq, show ((r.sta s).servq ac).qcnt = (r.hwq ac).cnt s from rfl,
      hmoved.hwq]
    refine hwq_ext (fun _ => rfl) (fun k => ?_) rfl rfl
    by_cases hk : k = s
    · subst hk
      simp [TwoLevel.clear]
    · simp [TwoLevel.clear, hk]
  · rw [hwq_unlinkServq_ne _ _ hc, hwq_updServq_ne _ _ _ hc]
    exact hmoved.hwq_ne c hc

/-! ## Runs -/

/-- The frames that were put in and that came out, for each station and category, since the
station was allocated. -/
structure TxLog where
  into : StaSlot → Ac → List Nat := fun _ _ => []
  out : StaSlot → Ac → List Nat := fun _ _ => []

/-- A list per station and category, with the frame at the end of its own. -/
def addFrame (m : StaSlot → Ac → List Nat) (f : TxFrame) : StaSlot → Ac → List Nat := fun s ac =>
  if f.psta = some s ∧ acOf f.priority = ac then m s ac ++ [f.id] else m s ac

/-- What the log says after an operation. -/
def TxLog.note (log : TxLog) (p : StaPriv) : PsOp → TxLog
  | .classify f =>
    if (rtwXmitClassifier p f).isSome then { log with into := addFrame log.into f } else log
  | .dequeue inx =>
    match rtwDequeueXframe p inx with
    | some (f, _) => { log with out := addFrame log.out f }
    | none => log
  | .free s =>
    { into := fun k ac => if k = s then [] else log.into k ac
      out := fun k ac => if k = s then [] else log.out k ac }
  | _ => log

/-- One operation, with the log. -/
def txqStep (r : TxLog × StaPriv) (op : PsOp) : Outcome (TxLog × StaPriv) :=
  if op.Applies r.2 then psOp r.2 op >>= fun p' => .done (r.1.note r.2 op, p') else .done r

/-- The frames of a station and category that wait, in the order they will be sent. -/
def StaPriv.waiting (p : StaPriv) (s : StaSlot) (ac : Ac) : List TxFrame :=
  (p.hwq ac).pending s ++ (p.sta s).sleepQ.filter fun f => acOf f.priority = ac

/-- The frame is for `s`, which is linked. -/
def Fits (p : StaPriv) (s : StaSlot) (f : TxFrame) : Prop :=
  Own p s f ∧ (p.sta s).linked = true

theorem Beside.fits {p p' : StaPriv} (h : Beside p p') {s : StaSlot} {f : TxFrame}
    (hf : Fits p s f) : Fits p' s f := ⟨h.own hf.1, h.linked s hf.2⟩

/-- Every frame that waits is where it belongs, and in the order in which it came. -/
structure TxqCore (log : TxLog) (p : StaPriv) : Prop where
  balanced : ∀ ac, (p.hwq ac).Balanced
  own : ∀ s ac, ∀ f ∈ (p.hwq ac).pending s, Fits p s f ∧ acOf f.priority = ac
  ownQ : ∀ s, ∀ f ∈ (p.sta s).sleepQ, Fits p s f
  fifo : ∀ s ac, log.into s ac = log.out s ac ++ (p.waiting s ac).map TxFrame.id
  ap : p.apState = true
  free : ∀ s ∈ p.freeStaQueue, s ∉ p.staHash
  nodup : p.freeStaQueue.Nodup

/-- No frame waits to be served while an older one of its category waits for the station to
wake up. -/
def Apart (p : StaPriv) : Prop := ∀ s ac, (p.hwq ac).pending s ≠ [] →
  ((p.sta s).sleepQ.filter fun f => acOf f.priority = ac) = []

/-- **The invariant of a run.** -/
structure TxqOk (log : TxLog) (p : StaPriv) : Prop extends TxqCore log p where
  apart : Apart p

/-- The stations are the same and every frame still belongs where it is. -/
theorem TxqCore.kept {log log' : TxLog} {p p' : StaPriv} (h : TxqCore log p) (hb : Beside p p')
    (hbal : ∀ ac, (p'.hwq ac).Balanced)
    (hown : ∀ s ac, ∀ f ∈ (p'.hwq ac).pending s, Fits p s f ∧ acOf f.priority = ac)
    (hownQ : ∀ s, ∀ f ∈ (p'.sta s).sleepQ, Fits p s f)
    (hfifo : ∀ s ac, log'.into s ac = log'.out s ac ++ (p'.waiting s ac).map TxFrame.id) :
    TxqCore log' p' := by
  refine ⟨hbal, fun s ac f hf => ?_, fun s f hf => hb.fits (hownQ s f hf), hfifo,
    hb.apState.trans h.ap, ?_, ?_⟩
  · exact ⟨hb.fits (hown s ac f hf).1, (hown s ac f hf).2⟩
  · rw [hb.freeStaQueue, hb.staHash]
    exact h.free
  · rw [hb.freeStaQueue]
    exact h.nodup

/-- Nothing of what waits changes. -/
theorem TxqCore.congr {log : TxLog} {p p' : StaPriv} (h : TxqCore log p) (hb : Beside p p')
    (hq : ∀ ac, p'.hwq ac = p.hwq ac) (hs : ∀ k, (p'.sta k).sleepQ = (p.sta k).sleepQ) :
    TxqCore log p' := by
  refine h.kept hb (fun ac => ?_) (fun s ac f hf => ?_) (fun s f hf => ?_) fun s ac => ?_
  · rw [hq]
    exact h.balanced ac
  · rw [hq] at hf
    exact h.own s ac f hf
  · rw [hs] at hf
    exact h.ownQ s f hf
  · rw [StaPriv.waiting, hq, hs]
    exact h.fifo s ac

theorem TxqOk.congr {log : TxLog} {p p' : StaPriv} (h : TxqOk log p) (hb : Beside p p')
    (hq : ∀ ac, p'.hwq ac = p.hwq ac) (hs : ∀ k, (p'.sta k).sleepQ = (p.sta k).sleepQ) :
    TxqOk log p' := by
  refine ⟨h.toTxqCore.congr hb hq hs, fun s ac => ?_⟩
  rw [hq, hs]
  exact h.apart s ac

/-- A station changes in what the queues do not depend on. -/
theorem TxqOk.updSta {log : TxLog} {p : StaPriv} (h : TxqOk log p) {s : StaSlot}
    {u : TxSta → TxSta} (haddr : (u (p.sta s)).hwaddr = (p.sta s).hwaddr)
    (hl : (p.sta s).linked = true → (u (p.sta s)).linked = true)
    (hsleep : (u (p.sta s)).sleepQ = (p.sta s).sleepQ)
    (hservq : (u (p.sta s)).servq = (p.sta s).servq) : TxqOk log (p.updSta s u) := by
  refine h.congr (Beside.updSta p haddr hl) (hwq_updSta p s u hservq) fun k => ?_
  by_cases hk : k = s
  · rw [hk, p.updSta_self, hsleep]
  · rw [p.updSta_ne u hk]

/-! ## Frames come and go -/

section Ops

variable {log : TxLog} {p p' : StaPriv}

theorem waiting_ne {s k : StaSlot} {ac c : Ac} {q : List TxFrame}
    (hq : (p'.hwq ac).pending = Function.update (p.hwq ac).pending s q)
    (hne : ∀ c, c ≠ ac → p'.hwq c = p.hwq c) (hs : (p'.sta k).sleepQ = (p.sta k).sleepQ)
    (h : ¬ (k = s ∧ c = ac)) : p'.waiting k c = p.waiting k c := by
  unfold StaPriv.waiting
  rw [hs]
  by_cases hc : c = ac
  · subst hc
    have hk : k ≠ s := fun hk => h ⟨hk, rfl⟩
    rw [hq, Function.update_of_ne hk]
  · rw [hne c hc]

/-- **A frame is put in**: when none of its category waits for the station to wake up, it is
the last. -/
theorem TxqOk.classify (h : TxqOk log p) {f : TxFrame}
    (hok : ∀ s, f.psta = some s →
      ((p.sta s).sleepQ.filter fun g => acOf g.priority = acOf f.priority) = [])
    (hc : rtwXmitClassifier p f = some p') :
    TxqOk { log with into := addFrame log.into f } p' := by
  obtain ⟨s, hpsta, hget, hl, hpush, hne⟩ := classifier_spec hc
  have hq := QueuesOnly.classifier hc
  have hsleep : ∀ k, (p'.sta k).sleepQ = (p.sta k).sleepQ := fun k => by rw [hq.sta k]
  have hpend : (p'.hwq (acOf f.priority)).pending = Function.update
      (p.hwq (acOf f.priority)).pending s ((p.hwq (acOf f.priority)).pending s ++ [f]) := by
    rw [hpush]
    rfl
  -- a frame that waits was there before or is the new one
  have hmem : ∀ k ac, ∀ g ∈ (p'.hwq ac).pending k,
      g ∈ (p.hwq ac).pending k ∨ k = s ∧ ac = acOf f.priority ∧ g = f := by
    intro k ac g hg
    by_cases hac : ac = acOf f.priority
    · subst hac
      rw [hpend] at hg
      by_cases hk : k = s
      · subst hk
        rw [Function.update_self] at hg
        rcases List.mem_append.mp hg with hg | hg
        · exact Or.inl hg
        · exact Or.inr ⟨rfl, rfl, List.mem_singleton.mp hg⟩
      · rw [Function.update_of_ne hk] at hg
        exact Or.inl hg
    · rw [hne ac hac] at hg
      exact Or.inl hg
  refine ⟨h.toTxqCore.kept (Beside.of_queuesOnly hq) (fun ac => ?_) (fun k ac g hg => ?_)
    (fun k g hg => ?_) (fun k ac => ?_), fun k ac hk => ?_⟩
  · by_cases hac : ac = acOf f.priority
    · rw [hac, hpush]
      exact (h.balanced _).push s f
    · rw [hne ac hac]
      exact h.balanced ac
  · rcases hmem k ac g hg with hg | ⟨rfl, rfl, rfl⟩
    · exact h.own k ac g hg
    · exact ⟨⟨⟨hpsta, hget⟩, hl⟩, rfl⟩
  · rw [hsleep] at hg
    exact h.ownQ k g hg
  -- at its own place it is the last that came and the last that waits, since none sleeps
  · by_cases hks : k = s ∧ ac = acOf f.priority
    · obtain ⟨rfl, rfl⟩ := hks
      show (if f.psta = some k ∧ acOf f.priority = acOf f.priority then
        log.into k (acOf f.priority) ++ [f.id] else log.into k (acOf f.priority)) = _
      rw [if_pos ⟨hpsta, rfl⟩, h.fifo, StaPriv.waiting, StaPriv.waiting, hsleep, hok k hpsta, hpend,
        Function.update_self]
      simp
    · rw [waiting_ne hpend hne (hsleep k) hks]
      show (if f.psta = some k ∧ acOf f.priority = ac then log.into k ac ++ [f.id]
        else log.into k ac) = _
      rw [if_neg]
      · exact h.fifo k ac
      · rintro ⟨hk, rfl⟩
        rw [hpsta] at hk
        exact hks ⟨(Option.some.inj hk).symm, rfl⟩
  · rw [hsleep]
    by_cases hks : k = s ∧ ac = acOf f.priority
    · obtain ⟨rfl, rfl⟩ := hks
      exact hok k hpsta
    · refine h.apart k ac fun hnil => hk ?_
      by_cases hac : ac = acOf f.priority
      · subst hac
        rw [hpend, Function.update_of_ne fun hk => hks ⟨hk, rfl⟩]
        exact hnil
      · rw [hne ac hac]
        exact hnil

/-- **A frame comes out**: it is the first. -/
theorem TxqOk.dequeue (h : TxqOk log p) {inx : List Ac} {f : TxFrame}
    (hd : rtwDequeueXframe p inx = some (f, p')) :
    TxqOk { log with out := addFrame log.out f } p' := by
  obtain ⟨s, c, rest, hpending, hpop, hne⟩ := dequeueXframe_spec hd
  have hq := QueuesOnly.dequeueXframe hd
  have hsleep : ∀ k, (p'.sta k).sleepQ = (p.sta k).sleepQ := fun k => by rw [hq.sta k]
  have hpend : (p'.hwq c).pending = Function.update (p.hwq c).pending s rest := by
    rw [hpop]
    rfl
  obtain ⟨hfits, hac⟩ := h.own s c f (by rw [hpending]; exact List.mem_cons_self ..)
  -- what waits has waited before
  have hmem : ∀ k ac, ∀ g ∈ (p'.hwq ac).pending k, g ∈ (p.hwq ac).pending k := by
    intro k ac g hg
    by_cases hcac : ac = c
    · subst hcac
      rw [hpend] at hg
      by_cases hk : k = s
      · subst hk
        rw [Function.update_self] at hg
        rw [hpending]
        exact List.mem_cons_of_mem f hg
      · rw [Function.update_of_ne hk] at hg
        exact hg
    · rw [hne ac hcac] at hg
      exact hg
  refine ⟨h.toTxqCore.kept (Beside.of_queuesOnly hq) (fun ac => ?_)
    (fun k ac g hg => h.own k ac g (hmem k ac g hg)) (fun k g hg => ?_) (fun k ac => ?_),
    fun k ac hk => ?_⟩
  · by_cases hcac : ac = c
    · rw [hcac, hpop]
      exact (h.balanced c).pop hpending
    · rw [hne ac hcac]
      exact h.balanced ac
  · rw [hsleep] at hg
    exact h.ownQ k g hg
  · by_cases hks : k = s ∧ ac = c
    -- the first of the queue goes to what came out; nothing of its category sleeps before it
    · obtain ⟨rfl, rfl⟩ := hks
      show log.into k ac = (if f.psta = some k ∧ acOf f.priority = ac then
        log.out k ac ++ [f.id] else log.out k ac) ++ _
      rw [if_pos ⟨hfits.1.1, hac⟩, h.fifo, StaPriv.waiting, StaPriv.waiting, hsleep, hpend,
        Function.update_self, hpending]
      simp
    · rw [waiting_ne hpend hne (hsleep k) hks]
      show log.into k ac = (if f.psta = some k ∧ acOf f.priority = ac then
        log.out k ac ++ [f.id] else log.out k ac) ++ _
      rw [if_neg]
      · exact h.fifo k ac
      · rintro ⟨hk, hk'⟩
        rw [hfits.1.1] at hk
        exact hks ⟨(Option.some.inj hk).symm, hk'.symm.trans hac⟩
  · rw [hsleep]
    refine h.apart k ac fun hnil => hk (List.eq_nil_iff_forall_not_mem.mpr fun g hg => ?_)
    have hg' := hmem k ac g hg
    rw [hnil] at hg'
    cases hg'

/-! ## A station goes to sleep -/

theorem filter_untrigger (l : List TxFrame) (ac : Ac) :
    ((l.map untrigger).filter fun f => acOf f.priority = ac) =
      (l.filter fun f => acOf f.priority = ac).map untrigger := by
  rw [List.filter_map]
  rfl

/-- **A queue is moved to the sleeping**: its frames were the next to be sent, and they still
are, since the sleep queue has no older ones of their category. -/
theorem TxqOk.shifted (h : TxqOk log p) {s : StaSlot} {ac : Ac} (hs : Shifted s ac p p') :
    TxqOk log p' := by
  have hpend := hs.pending
  -- what the sleep queue of the station holds of a category
  have hall : ((p.hwq ac).pending s).filter (fun f => acOf f.priority = ac) =
      (p.hwq ac).pending s :=
    List.filter_eq_self.mpr fun f hf => decide_eq_true (h.own s ac f hf).2
  have hnone : ∀ c, c ≠ ac →
      ((p.hwq ac).pending s).filter (fun f => acOf f.priority = c) = [] := by
    intro c hc
    refine List.filter_eq_nil_iff.mpr fun f hf => ?_
    rw [(h.own s ac f hf).2, decide_eq_true_eq]
    exact fun heq => hc heq.symm
  refine ⟨h.toTxqCore.kept hs.beside (fun c => ?_) (fun k c g hg => h.own k c g (hs.mem hg))
    (fun k g hg => ?_) (fun k c => ?_), fun k c hk => ?_⟩
  · by_cases hc : c = ac
    · rw [hc, hs.hwq]
      exact (h.balanced ac).clear rfl
    · rw [hs.hwq_ne c hc]
      exact h.balanced c
  · by_cases hk : k = s
    · subst hk
      rw [hs.sleepQ] at hg
      rcases List.mem_append.mp hg with hg | hg
      · exact h.ownQ k g hg
      · obtain ⟨f, hf, rfl⟩ := List.mem_map.mp hg
        exact (h.own k ac f hf).1
    · rw [hs.sleepQ_ne k hk] at hg
      exact h.ownQ k g hg
  · by_cases hk : k = s
    · subst hk
      rw [h.fifo, StaPriv.waiting, StaPriv.waiting, hs.sleepQ, List.filter_append, filter_untrigger]
      by_cases hc : c = ac
      · subst hc
        rw [hall, hpend, Function.update_self]
        by_cases hnil : (p.hwq c).pending k = []
        · rw [hnil]
          simp
        · rw [h.apart k c hnil]
          simp [Function.comp_def, untrigger]
      · rw [hnone c hc, hs.hwq_ne c hc]
        simp
    · rw [waiting_ne hpend hs.hwq_ne (hs.sleepQ_ne k hk) fun hks => hk hks.1]
      exact h.fifo k c
  · by_cases hks : k = s
    · subst hks
      by_cases hc : c = ac
      · subst hc
        rw [hpend, Function.update_self] at hk
        exact absurd rfl hk
      · rw [hs.hwq_ne c hc] at hk
        rw [hs.sleepQ, List.filter_append, h.apart k c hk, filter_untrigger, hnone c hc]
        rfl
    · rw [hs.sleepQ_ne k hks]
      refine h.apart k c fun hnil => hk (List.eq_nil_iff_forall_not_mem.mpr fun g hg => ?_)
      have hg' := hs.mem hg
      rw [hnil] at hg'
      cases hg'

theorem TxqOk.stopQueue (h : TxqOk log p) {s : StaSlot} {ac : Ac}
    (hw : ∀ f ∈ (p.hwq ac).pending s, Waits p s f) :
    TxqOk log (Rtl8812au.stopQueue p s ac) ∧ Shifted s ac p (Rtl8812au.stopQueue p s ac) := by
  have hshift : Shifted s ac p (Rtl8812au.stopQueue p s ac) := by
    refine stopQueue_shifted h.ap (fun hne => ?_) fun f hf => ?_
    · obtain ⟨f, hf⟩ := List.exists_mem_of_ne_nil _ hne
      exact (h.own s ac f hf).1.2
    · exact ⟨(h.own s ac f hf).1.1, (h.own s ac f hf).2, hw f hf⟩
  exact ⟨h.shifted hshift, hshift⟩

/-- The four queues of a station, one after the other. -/
theorem TxqOk.stopQueues (s : StaSlot) : ∀ (acs : List Ac) {p : StaPriv}, TxqOk log p →
    (∀ ac, ∀ f ∈ (p.hwq ac).pending s, Waits p s f) →
    TxqOk log (acs.foldl (fun p ac => Rtl8812au.stopQueue p s ac) p) ∧
      Beside p (acs.foldl (fun p ac => Rtl8812au.stopQueue p s ac) p) ∧
      (∀ k f, Waits p k f → Waits (acs.foldl (fun p ac => Rtl8812au.stopQueue p s ac) p) k f) ∧
      ∀ k c, ∀ f ∈ ((acs.foldl (fun p ac => Rtl8812au.stopQueue p s ac) p).hwq c).pending k,
        f ∈ (p.hwq c).pending k := by
  intro acs
  induction acs with
  | nil => intro p h _; exact ⟨h, Beside.refl p, fun _ _ hw => hw, fun _ _ _ hf => hf⟩
  | cons ac acs ih =>
      intro p h hw
      obtain ⟨hok, hshift⟩ := h.stopQueue (hw ac)
      obtain ⟨h1, h2, h3, h4⟩ := ih hok fun c f hf =>
        hshift.waits s f (hw c f (hshift.mem hf))
      exact ⟨h1, hshift.beside.trans h2, fun k f hk => h3 k f (hshift.waits k f hk),
        fun k c f hf => hshift.mem (h4 k c f hf)⟩

/-- The broadcast station has group frames only. -/
theorem Own.isMcast {b : StaSlot} {f : TxFrame} (hb : p.getBcmcStainfo = some b)
    (h : Own p b f) : f.ra.isMcast = true := by
  by_contra hm
  have haddr : (p.sta b).hwaddr = .bcast := of_decide_eq_true (List.find?_some hb :)
  have haddr' : (p.sta b).hwaddr = if f.ra.isMcast then .bcast else f.ra :=
    of_decide_eq_true (List.find?_some h.2 :)
  rw [if_neg hm, haddr] at haddr'
  rw [← haddr'] at hm
  exact hm rfl

/-- **A station goes to sleep**: its AID has a bit of its own in `sta_dz_bitmap`, or there is
nothing to move. -/
theorem TxqOk.stopStaXmit (h : TxqOk log p) {s : StaSlot}
    (hok : bitU16 (p.sta s).aid ≠ 0 ∨ (∀ ac, (p.hwq ac).pending s = []) ∧
      ∀ b, p.getBcmcStainfo = some b → p.staDzBitmap ≠ 0 ∨ (p.hwq .be).pending b = [])
    (hstop : Rtl8812au.stopStaXmit p s = .done p') : TxqOk log p' := by
  have hsleep : TxqOk log (p.updSta s fun x => { x with sleep := true }) :=
    h.updSta rfl (fun hl => hl) rfl rfl
  have hself : (p.updSta s fun x => { x with sleep := true }).sta s =
      { p.sta s with sleep := true } := p.updSta_self s _
  unfold Rtl8812au.stopStaXmit at hstop
  dsimp only at hstop
  split at hstop
  · cases hstop
  · rename_i b hb
    have hp' := Outcome.done.inj hstop
    rw [hself] at hp'
    -- the state in which the queues are moved
    generalize hr : ({ p.updSta s (fun x => { x with sleep := true }) with
        staDzBitmap := (p.updSta s fun x => { x with sleep := true }).staDzBitmap |||
          bitU16 (p.sta s).aid } : StaPriv) = r at hp'
    have hrhwq : ∀ ac, r.hwq ac = p.hwq ac := by
      intro ac
      rw [← hr]
      exact hwq_updSta p s (fun x => { x with sleep := true }) rfl ac
    have hrb : Beside p r := by
      rw [← hr]
      exact (Beside.updSta p (s := s) (u := fun x => { x with sleep := true }) rfl
        (fun hl => hl)).trans ⟨rfl, rfl, rfl, fun _ => rfl, fun _ hl => hl⟩
    have hrok : TxqOk log r := by
      rw [← hr]
      exact hsleep.congr ⟨rfl, rfl, rfl, fun _ => rfl, fun _ hl => hl⟩ (fun _ => rfl)
        (fun _ => rfl)
    have hdz : r.staDzBitmap = p.staDzBitmap ||| bitU16 (p.sta s).aid := by
      rw [← hr]
      rfl
    have hdz0 : (bitU16 (p.sta s).aid ≠ 0 ∨ p.staDzBitmap ≠ 0) → r.staDzBitmap ≠ 0 := by
      rw [hdz]
      rintro hne hz
      obtain ⟨h1, h2⟩ := BitVec.or_eq_zero_iff.mp hz
      rcases hne with hne | hne
      · exact hne h2
      · exact hne h1
    have hwaits : ∀ ac, ∀ f ∈ (r.hwq ac).pending s, Waits r s f := by
      intro ac f hf
      rcases hok with hbit | ⟨hempty, -⟩
      · unfold Waits
        split
        · exact hdz0 (Or.inl hbit)
        · unfold StaPriv.dozes
          rw [hdz, ← hr]
          dsimp only
          rw [hself, Bool.and_eq_true, bne_iff_ne]
          refine ⟨rfl, fun hz => hbit ?_⟩
          rw [← hz]
          refine BitVec.eq_of_getLsbD_eq fun i _ => ?_
          simp only [BitVec.getLsbD_and, BitVec.getLsbD_or]
          cases (bitU16 (p.sta s).aid).getLsbD i <;> simp
      · rw [hrhwq, hempty] at hf
        cases hf
    obtain ⟨hfold, hbeside, hmono, hsub⟩ := hrok.stopQueues s [Ac.vo, .vi, .be, .bk] hwaits
    rw [← hp']
    refine (hfold.stopQueue fun f hf => ?_).1
    have hfr : f ∈ (r.hwq .be).pending b := hsub b .be f hf
    have hm : f.ra.isMcast = true := by
      refine Own.isMcast (p := r) ?_ (hrok.own b .be f hfr).1.1
      rw [StaPriv.getBcmcStainfo, hrb.getStainfo]
      exact hb
    refine hmono b f ?_
    unfold Waits
    rw [if_pos hm]
    rcases hok with hbit | ⟨-, hgroup⟩
    · exact hdz0 (Or.inl hbit)
    · refine hdz0 (Or.inr ((hgroup b hb).resolve_right fun hnil => ?_))
      rw [hrhwq, hnil] at hfr
      cases hfr

/-! ## A station wakes up -/

/-- What waits is the same at every station but `s`. -/
def OthersWait (s : StaSlot) (p p' : StaPriv) : Prop :=
  ∀ k, k ≠ s → (p'.sta k).sleepQ = (p.sta k).sleepQ ∧
    ∀ ac, (p'.hwq ac).pending k = (p.hwq ac).pending k

/-- **The first frame of the sleep queue is sent**: it goes to the end of the queue of its
category, behind everything older. -/
theorem TxqCore.resend (h : TxqCore log p) {s : StaSlot} {f : TxFrame} {q : List TxFrame}
    (f' : TxFrame) (b : Bool) (hq : (p.sta s).sleepQ = f :: q) (hpsta : f'.psta = f.psta) (hra : f'.ra = f.ra)
    (hprio : f'.priority = f.priority) (hid : f'.id = f.id)
    (heq : p' = halXmitframeEnqueue (p.updSta s fun x => x.pull q b) f') :
    TxqCore log p' ∧ Beside p p' ∧ (p'.sta s).sleepQ = q ∧ OthersWait s p p' := by
  have hb := Beside.updSta p (s := s) (u := fun x => x.pull q b) rfl fun hl => hl
  have hfits := h.ownQ s f (by rw [hq]; exact List.mem_cons_self ..)
  -- the frame was at its station's queue, so that the classifier takes it there
  obtain ⟨r, hr⟩ := classifier_takes (p := p.updSta s fun x => x.pull q b) (f := f')
    (hpsta.trans hfits.1.1) (by rw [hra, hb.getStainfo]; exact hfits.1.2) (hb.linked s hfits.2)
  obtain rfl : p' = r := by
    rw [heq, halXmitframeEnqueue, hr]
  obtain ⟨s', hs', -, -, hpush, hne⟩ := classifier_spec hr
  obtain rfl : s' = s := by
    rw [hpsta, hfits.1.1] at hs'
    exact (Option.some.inj hs').symm
  rw [hwq_updSta p s' (fun x => x.pull q b) rfl, hprio] at hpush
  -- only the queue of its category changes, and only for this station
  have hne' : ∀ c, c ≠ acOf f.priority → p'.hwq c = p.hwq c := by
    intro c hc
    rw [hne c (by rw [hprio]; exact hc), hwq_updSta p s' (fun x => x.pull q b) rfl]
  have hqo := QueuesOnly.classifier hr
  have hself : (p'.sta s').sleepQ = q := by
    rw [hqo.sta s', StaPriv.updSta_self]
    rfl
  have hsleep : ∀ k, k ≠ s' → (p'.sta k).sleepQ = (p.sta k).sleepQ := by
    intro k hk
    rw [hqo.sta k, StaPriv.updSta_ne _ _ hk]
  have hpend : (p'.hwq (acOf f.priority)).pending = Function.update
      (p.hwq (acOf f.priority)).pending s' ((p.hwq (acOf f.priority)).pending s' ++ [f']) := by
    rw [hpush]
    rfl
  have hothers : ∀ k, k ≠ s' → ∀ ac, (p'.hwq ac).pending k = (p.hwq ac).pending k := by
    intro k hk ac
    by_cases hac : ac = acOf f.priority
    · rw [hac, hpend, Function.update_of_ne hk]
    · rw [hne' ac hac]
  have hb' := hb.trans (Beside.of_queuesOnly hqo)
  -- balance, both kinds of place, and the order of what waits
  refine ⟨h.kept hb' (fun ac => ?_) (fun k ac g hg => ?_) (fun k g hg => ?_) (fun k ac => ?_), hb',
    hself, fun k hk => ⟨hsleep k hk, hothers k hk⟩⟩
  · by_cases hac : ac = acOf f.priority
    · rw [hac, hpush]
      exact (h.balanced _).push s' f'
    · rw [hne' ac hac]
      exact h.balanced ac
  · by_cases hk : k = s'
    · subst hk
      by_cases hac : ac = acOf f.priority
      · subst hac
        rw [hpend, Function.update_self] at hg
        rcases List.mem_append.mp hg with hg | hg
        · exact h.own k _ g hg
        · rw [List.mem_singleton.mp hg]
          refine ⟨⟨⟨hpsta.trans hfits.1.1, ?_⟩, hfits.2⟩, by rw [hprio]⟩
          rw [hra]
          exact hfits.1.2
      · rw [hne' ac hac] at hg
        exact h.own k ac g hg
    · rw [hothers k hk] at hg
      exact h.own k ac g hg
  · by_cases hk : k = s'
    · subst hk
      rw [hself] at hg
      exact h.ownQ k g (by rw [hq]; exact List.mem_cons_of_mem f hg)
    · rw [hsleep k hk] at hg
      exact h.ownQ k g hg
  · by_cases hk : k = s'
    · subst hk
      -- it was the oldest one of its category that slept, and is the newest one that does not
      rw [h.fifo, StaPriv.waiting, StaPriv.waiting, hself, hq]
      by_cases hac : ac = acOf f.priority
      · subst hac
        rw [hpend, Function.update_self, List.filter_cons_of_pos (by simp)]
        simp [hid]
      · rw [hne' ac hac, List.filter_cons_of_neg (by simpa using fun heq => hac heq.symm)]
    · rw [StaPriv.waiting, hsleep k hk, hothers k hk]
      exact h.fifo k ac

theorem OthersWait.trans {s : StaSlot} {p'' : StaPriv} (h : OthersWait s p p')
    (h' : OthersWait s p' p'') : OthersWait s p p'' := fun k hk =>
  ⟨(h' k hk).1.trans (h k hk).1, fun ac => ((h' k hk).2 ac).trans ((h k hk).2 ac)⟩

theorem TxqCore.wakeupLoop (s : StaSlot) : ∀ (q : List TxFrame) {p : StaPriv}, TxqCore log p →
    (p.sta s).sleepQ = q → TxqCore log (Rtl8812au.wakeupLoop s p q) ∧
      Beside p (Rtl8812au.wakeupLoop s p q) ∧
      ((Rtl8812au.wakeupLoop s p q).sta s).sleepQ = [] ∧
      OthersWait s p (Rtl8812au.wakeupLoop s p q) := by
  intro q
  induction q with
  | nil => intro p h hq; exact ⟨h, Beside.refl p, hq, fun _ _ => ⟨rfl, fun _ => rfl⟩⟩
  | cons f q ih =>
      intro p h hq
      unfold Rtl8812au.wakeupLoop
      dsimp only
      obtain ⟨h1, h2, h3, h4⟩ := h.resend (if ((p.sta s).uapsd (acOf f.priority)).trigger then
          { f with
            mdata := ((p.updSta s fun x => x.pull q ((p.sta s).uapsd
              (acOf f.priority)).trigger).sta s).sleepqAcLen > 0
            eosp := ¬ ((p.updSta s fun x => x.pull q ((p.sta s).uapsd
              (acOf f.priority)).trigger).sta s).sleepqAcLen > 0
            triggered := true }
        else
          { f with
            mdata := ((p.updSta s fun x => x.pull q ((p.sta s).uapsd
              (acOf f.priority)).trigger).sta s).sleepqLen > 0
            triggered := true }) ((p.sta s).uapsd (acOf f.priority)).trigger hq
        (by split <;> rfl) (by split <;> rfl) (by split <;> rfl) (by split <;> rfl) rfl
      obtain ⟨i1, i2, i3, i4⟩ := ih h1 h3
      exact ⟨i1, h2.trans i2, i3, h4.trans i4⟩

theorem TxqCore.wakeupBmcLoop (b : StaSlot) : ∀ (q : List TxFrame) {p : StaPriv}, TxqCore log p →
    (p.sta b).sleepQ = q → TxqCore log (Rtl8812au.wakeupBmcLoop b p q) ∧
      Beside p (Rtl8812au.wakeupBmcLoop b p q) ∧
      ((Rtl8812au.wakeupBmcLoop b p q).sta b).sleepQ = [] ∧
      OthersWait b p (Rtl8812au.wakeupBmcLoop b p q) := by
  intro q
  induction q with
  | nil => intro p h hq; exact ⟨h, Beside.refl p, hq, fun _ _ => ⟨rfl, fun _ => rfl⟩⟩
  | cons f q ih =>
      intro p h hq
      unfold Rtl8812au.wakeupBmcLoop
      dsimp only
      obtain ⟨h1, h2, h3, h4⟩ := h.resend
        { f with
          mdata := ((p.updSta b fun x => x.pull q false).sta b).sleepqLen > 0
          triggered := true } false hq rfl rfl rfl rfl rfl
      obtain ⟨i1, i2, i3, i4⟩ := ih h1 h3
      exact ⟨i1, h2.trans i2, i3, h4.trans i4⟩

/-- With an empty sleep queue at `s` and the others as they were, nothing is out of order. -/
theorem TxqOk.emptied {p₀ : StaPriv} (h : TxqOk log p₀) {s : StaSlot} (hcore : TxqCore log p)
    (hempty : (p.sta s).sleepQ = []) (hothers : OthersWait s p₀ p) : TxqOk log p := by
  refine ⟨hcore, fun k ac hk => ?_⟩
  by_cases hks : k = s
  · rw [hks, hempty]
    rfl
  · rw [(hothers k hks).1]
    rw [(hothers k hks).2] at hk
    exact h.apart k ac hk

theorem TxqOk.wakeupSta (h : TxqOk log p) (s : StaSlot) :
    TxqOk log (Rtl8812au.wakeupSta p s).1 := by
  obtain ⟨hcore, hb, hempty, hothers⟩ := h.toTxqCore.wakeupLoop s _ rfl
  have hok := h.emptied hcore hempty hothers
  unfold Rtl8812au.wakeupSta
  dsimp only
  split
  · have hawake := hok.updSta (s := s) (u := fun x =>
      { x with
        sleep := false
        expireTo := if x.authSuccess then (Rtl8812au.wakeupLoop s p (p.sta s).sleepQ).expireTo
          else x.expireTo
        authSuccess := false }) rfl (fun hl => hl) rfl rfl
    exact hawake.congr ⟨rfl, rfl, rfl, fun _ => rfl, fun _ hl => hl⟩ (fun _ => rfl) (fun _ => rfl)
  · exact hok

theorem TxqOk.wakeupBmc (h : TxqOk log p) (b : StaSlot) :
    TxqOk log (Rtl8812au.wakeupBmc p b).1 := by
  unfold Rtl8812au.wakeupBmc
  split
  · obtain ⟨hcore, hb, hempty, hothers⟩ := h.toTxqCore.wakeupBmcLoop b _ rfl
    have hok := h.emptied hcore hempty hothers
    dsimp only
    split
    · exact hok.congr ⟨rfl, rfl, rfl, fun _ => rfl, fun _ hl => hl⟩ (fun _ => rfl) (fun _ => rfl)
    · exact hok
  · exact h

theorem TxqOk.wakeupStaToXmit (h : TxqOk log p) (s : StaSlot) :
    TxqOk log (Rtl8812au.wakeupStaToXmit p s) := by
  have htim : ∀ {r : StaPriv}, TxqOk log r → TxqOk log r.updateTim := fun hr =>
    hr.congr ⟨rfl, rfl, rfl, fun _ => rfl, fun _ hl => hl⟩ (fun _ => rfl) (fun _ => rfl)
  have hsta := h.wakeupSta s
  unfold Rtl8812au.wakeupStaToXmit
  split
  · dsimp only
    split
    · exact htim hsta
    · exact hsta
  · rename_i b _
    have hbmc := hsta.wakeupBmc b
    dsimp only
    split
    · exact htim hbmc
    · exact hbmc

/-! ## Stations come and go -/

theorem freeStainfo_hwq (p : StaPriv) (s : StaSlot) (ac : Ac) :
    (Rtl8812au.freeStainfo p s).hwq ac = (p.hwq ac).clear s ((p.hwq ac).cnt s) := by
  have hfold : ∀ r : StaPriv, (([Ac.vo, .vi, .be, .bk].foldl
      (fun p ac => Rtl8812au.freeServq p s ac) r).hwq ac) =
      (r.hwq ac).clear s ((r.hwq ac).cnt s) := by
    intro r
    simp only [List.foldl_cons, List.foldl_nil]
    cases ac with
    | vo => rw [freeServq_hwq_ne _ _ (by decide), freeServq_hwq_ne _ _ (by decide),
        freeServq_hwq_ne _ _ (by decide), freeServq_hwq]
    | vi => rw [freeServq_hwq_ne _ _ (by decide), freeServq_hwq_ne _ _ (by decide),
        freeServq_hwq, freeServq_hwq_ne _ _ (by decide)]
    | be => rw [freeServq_hwq_ne _ _ (by decide), freeServq_hwq,
        freeServq_hwq_ne _ _ (by decide), freeServq_hwq_ne _ _ (by decide)]
    | bk => rw [freeServq_hwq, freeServq_hwq_ne _ _ (by decide),
        freeServq_hwq_ne _ _ (by decide), freeServq_hwq_ne _ _ (by decide)]
  have hstart := hfold (StaPriv.updSta { p with
    staHash := p.staHash.filter (· != s), freed := p.freed ++ (p.sta s).sleepQ } s
    fun x => { x with linked := false, sleepQ := [], sleepqLen := 0 })
  rw [hwq_updSta _ s _ rfl] at hstart
  refine Eq.trans ?_ hstart
  unfold Rtl8812au.freeStainfo
  dsimp only
  generalize List.foldl (fun p ac => Rtl8812au.freeServq p s ac) _ _ = r
  have hclean : (r.updSta s fun x =>
      { x with
        expireTo := 0, sleepqAcLen := 0, qosInfo := 0, maxSpLen := 0, uapsd := fun _ => {}
        hasLegacyAc := false }).hwq ac = r.hwq ac := hwq_updSta r s _ rfl ac
  split
  · refine Eq.trans ?_ hclean
    exact hwq_updSta _ s (fun x => { x with aid := 0 }) rfl ac
  · exact hclean

/-- A station that is found is still found when another one leaves. -/
theorem getStainfo_freed {s k : StaSlot} {a : MacAddr} (hf : Freed s p p') (hk : k ≠ s)
    (h : p.getStainfo a = some k) : p'.getStainfo a = some k := by
  have haddr : ∀ j, (p'.sta j).hwaddr = (p.sta j).hwaddr := by
    intro j
    by_cases hj : j = s
    · rw [hj, hf.hwaddr]
    · rw [hf.others j hj]
  unfold StaPriv.getStainfo at h ⊢
  simp only [haddr, hf.staHash]
  generalize (if a.isMcast then MacAddr.bcast else a) = addr at h ⊢
  generalize p.staHash = l at h
  induction l with
  | nil => cases h
  | cons j l ih =>
      rw [List.find?_cons] at h
      split at h
      · rename_i hj
        obtain rfl : j = k := Option.some.inj h
        rw [List.filter_cons_of_pos (by simpa using hk)]
        simp only [List.find?_cons, hj]
      · rename_i hj
        by_cases hjs : j = s
        · rw [List.filter_cons_of_neg (by simp [hjs])]
          exact ih h
        · rw [List.filter_cons_of_pos (by simpa using hjs)]
          simp only [List.find?_cons, hj]
          exact ih h

/-- **A station is freed**: its frames and its log are gone, the others do not notice. -/
theorem TxqOk.freeStainfo (h : TxqOk log p) {s : StaSlot} (hs : s ∈ p.staHash) :
    TxqOk (log.note p (.free s)) (Rtl8812au.freeStainfo p s) := by
  have hf := freed_freeStainfo p s
  -- its queues are emptied, those of the others stay
  have hpend : ∀ ac, ((Rtl8812au.freeStainfo p s).hwq ac).pending =
      Function.update (p.hwq ac).pending s [] := by
    intro ac
    rw [freeStainfo_hwq]
    rfl
  have hfits : ∀ k, k ≠ s → ∀ f, Fits p k f → Fits (Rtl8812au.freeStainfo p s) k f := by
    intro k hk f hfit
    refine ⟨⟨hfit.1.1, getStainfo_freed hf hk hfit.1.2⟩, ?_⟩
    rw [hf.others k hk]
    exact hfit.2
  have hsleep : ∀ k, k ≠ s →
      ((Rtl8812au.freeStainfo p s).sta k).sleepQ = (p.sta k).sleepQ := fun k hk => by
    rw [hf.others k hk]
  refine ⟨⟨fun ac => ?_, fun k ac f hm => ?_, fun k f hm => ?_, fun k ac => ?_,
    hf.apState.trans h.ap, ?_, ?_⟩, fun k ac hk => ?_⟩
  · rw [freeStainfo_hwq]
    exact (h.balanced ac).clear ((h.balanced ac).cnt s)
  · rw [hpend] at hm
    by_cases hk : k = s
    · rw [hk, Function.update_self] at hm
      cases hm
    · rw [Function.update_of_ne hk] at hm
      exact ⟨hfits k hk f (h.own k ac f hm).1, (h.own k ac f hm).2⟩
  · by_cases hk : k = s
    · rw [hk, hf.sleepQ] at hm
      cases hm
    · rw [hsleep k hk] at hm
      exact hfits k hk f (h.ownQ k f hm)
  -- what went in is forgotten together with what came out
  · show (if k = s then [] else log.into k ac) = (if k = s then [] else log.out k ac) ++ _
    by_cases hk : k = s
    · rw [if_pos hk, if_pos hk, hk, StaPriv.waiting, hpend, Function.update_self, hf.sleepQ]
      rfl
    · rw [if_neg hk, if_neg hk, StaPriv.waiting, hpend, Function.update_of_ne hk, hsleep k hk]
      exact h.fifo k ac
  · rw [hf.freeStaQueue, hf.staHash]
    intro k hk hmem
    obtain ⟨hmem, hne⟩ := List.mem_filter.mp hmem
    rcases List.mem_append.mp hk with hk | hk
    · exact h.free k hk hmem
    · rw [List.mem_singleton.mp hk] at hne
      simp at hne
  · rw [hf.freeStaQueue]
    refine List.nodup_append.mpr ⟨h.nodup, List.pairwise_singleton _ s, ?_⟩
    rintro k hk _ hk' rfl
    rw [List.mem_singleton.mp hk'] at hk
    exact h.free s hk hs
  · rw [hpend] at hk
    by_cases hks : k = s
    · rw [hks, Function.update_self] at hk
      exact absurd rfl hk
    · rw [Function.update_of_ne hks] at hk
      rw [hsleep k hks]
      exact h.apart k ac hk

/-- Nothing waits at a slot that is free. -/
theorem TxqCore.idle (h : TxqCore log p) {s : StaSlot} (hs : s ∉ p.staHash) (ac : Ac) :
    (p.hwq ac).pending s = [] ∧ (p.sta s).sleepQ = [] := by
  constructor
  · refine List.eq_nil_iff_forall_not_mem.mpr fun f hf => hs ?_
    exact List.mem_of_find?_eq_some (h.own s ac f hf).1.1.2
  · refine List.eq_nil_iff_forall_not_mem.mpr fun f hf => hs ?_
    exact List.mem_of_find?_eq_some (h.ownQ s f hf).1.2

/-- **A station is allocated** in a slot where nothing waits. -/
theorem TxqOk.allocStainfo (h : TxqOk log p) {s : StaSlot} {a : MacAddr}
    (halloc : Rtl8812au.allocStainfo p a = some (s, p')) : TxqOk log p' := by
  unfold Rtl8812au.allocStainfo at halloc
  split at halloc
  · cases halloc
  · rename_i t q hfree
    cases halloc
    have hs : s ∉ p.staHash := h.free s (by rw [hfree]; exact List.mem_cons_self ..)
    have hnodup : s ∉ q ∧ q.Nodup := List.nodup_cons.mp (hfree ▸ h.nodup)
    have hself : (p.updSta s fun _ => { hwaddr := a }).sta s = { hwaddr := a } := p.updSta_self s _
    generalize hr : ({ p.updSta s (fun _ => { hwaddr := a }) with
      freeStaQueue := q, staHash := p.staHash ++ [s] } : StaPriv) = r
    have hrsta : r.sta = (p.updSta s fun _ => { hwaddr := a }).sta := by
      rw [← hr]
    have hrhash : r.staHash = p.staHash ++ [s] := by
      rw [← hr]
    -- the slot had nothing waiting, so that emptying it changes no queue
    have hhwq : ∀ ac, r.hwq ac = p.hwq ac := by
      intro ac
      have hcnt := (h.balanced ac).cnt s
      rw [(h.toTxqCore.idle hs ac).1] at hcnt
      rw [← hr]
      refine hwq_ext (fun k => ?_) (fun k => ?_) rfl rfl
      · show (((p.updSta s fun _ => { hwaddr := a }).sta k).servq ac).staPending = _
        by_cases hk : k = s
        · rw [hk, hself]
          exact (h.toTxqCore.idle hs ac).1.symm
        · rw [p.updSta_ne _ hk]
          rfl
      · show (((p.updSta s fun _ => { hwaddr := a }).sta k).servq ac).qcnt = _
        by_cases hk : k = s
        · rw [hk, hself]
          exact hcnt.symm
        · rw [p.updSta_ne _ hk]
          rfl
    have hsleep : ∀ k, (r.sta k).sleepQ = (p.sta k).sleepQ := by
      intro k
      rw [hrsta]
      by_cases hk : k = s
      · rw [hk, hself]
        exact (h.toTxqCore.idle hs .be).2.symm
      · rw [p.updSta_ne _ hk]
    -- a frame belongs where it did: the new station comes last in the table
    have hfits : ∀ k f, Fits p k f → Fits r k f := by
      intro k f hfit
      have hk : k ∈ p.staHash := List.mem_of_find?_eq_some hfit.1.2
      refine ⟨⟨hfit.1.1, ?_⟩, ?_⟩
      · have hget : p.staHash.find? (fun j => (r.sta j).hwaddr =
            if f.ra.isMcast then MacAddr.bcast else f.ra) = some k := by
          rw [← hfit.1.2]
          refine List.find?_congr fun j hj => ?_
          have hjs : j ≠ s := fun heq => hs (heq ▸ hj)
          rw [hrsta, p.updSta_ne _ hjs]
        rw [StaPriv.getStainfo, hrhash, List.find?_append, hget]
        rfl
      · have hks : k ≠ s := fun heq => hs (heq ▸ hk)
        rw [hrsta, p.updSta_ne _ hks]
        exact hfit.2
    refine ⟨⟨fun ac => ?_, fun k ac f hm => ?_, fun k f hm => ?_, fun k ac => ?_, ?_, ?_, ?_⟩,
      fun k ac hk => ?_⟩
    · rw [hhwq]
      exact h.balanced ac
    · rw [hhwq] at hm
      exact ⟨hfits k f (h.own k ac f hm).1, (h.own k ac f hm).2⟩
    · rw [hsleep] at hm
      exact hfits k f (h.ownQ k f hm)
    · rw [StaPriv.waiting, hhwq, hsleep]
      exact h.fifo k ac
    · rw [← hr]
      exact h.ap
    -- the slot is no longer free
    · rw [hrhash, ← hr]
      intro k hk hmem
      rcases List.mem_append.mp hmem with hmem | hmem
      · exact h.free k (by rw [hfree]; exact List.mem_cons_of_mem s hk) hmem
      · rw [List.mem_singleton.mp hmem] at hk
        exact hnodup.1 hk
    · rw [← hr]
      exact hnodup.2
    · rw [hhwq] at hk
      rw [hsleep]
      exact h.apart k ac hk

end Ops

/-! ## Every run -/

/-- The steps after which the queues are still right. A station may be put to sleep when its AID
has a bit in `sta_dz_bitmap`, or when there is nothing to move; a frame may be put in when no
frame of its category waits for the station to wake up. The other operations on the sleep
queues are not looked at here. -/
def TxqStepOk (r : TxLog × StaPriv) : PsOp → Prop
  | .classify f => ∀ s, f.psta = some s →
      ((r.2.sta s).sleepQ.filter fun g => acOf g.priority = acOf f.priority) = []
  | .stop s => bitU16 (r.2.sta s).aid ≠ 0 ∨ (∀ ac, (r.2.hwq ac).pending s = []) ∧
      ∀ b, r.2.getBcmcStainfo = some b → r.2.staDzBitmap ≠ 0 ∨ (r.2.hwq .be).pending b = []
  | .enqueue _ | .deliver _ | .psPoll .. => False
  | _ => True

theorem TxqOk.psOp {log : TxLog} {p p' : StaPriv} {op : PsOp} (h : TxqOk log p)
    (happ : op.Applies p) (hok : TxqStepOk (log, p) op) (hstep : Rtl8812au.psOp p op = .done p') :
    TxqOk (log.note p op) p' := by
  cases op with
  | alloc a =>
      cases hstep
      cases halloc : Rtl8812au.allocStainfo p a with
      | none => exact h
      | some r => exact h.allocStainfo halloc
  | free s => cases hstep; exact h.freeStainfo happ
  -- settings of a station say nothing of what waits
  | qos s wmm =>
      cases hstep
      refine h.updSta ?_ ?_ ?_ ?_
      · cases wmm <;> rfl
      · cases wmm <;> exact fun hl => hl
      · cases wmm <;> rfl
      · cases wmm <;> rfl
  | aid s =>
      cases hstep
      cases haid : Rtl8812au.assocAid p s with
      | none => exact h
      | some r =>
          unfold Rtl8812au.assocAid at haid
          split at haid
          · cases haid
            exact h
          · split at haid
            · cases haid
            · cases haid
              have haid' := h.updSta (s := s) (u := fun x => { x with aid := p.freeAid }) rfl
                (fun hl => hl) rfl rfl
              exact haid'.congr ⟨rfl, rfl, rfl, fun _ => rfl, fun _ hl => hl⟩ (fun _ => rfl)
                (fun _ => rfl)
  | refuse s => cases hstep; exact h.updSta rfl (fun hl => hl) rfl rfl
  | link s => cases hstep; exact h.updSta rfl (fun _ => rfl) rfl rfl
  -- a frame that is refused is noted nowhere
  | classify f =>
      cases hstep
      cases hc : rtwXmitClassifier p f with
      | none =>
          rw [TxLog.note, hc, halXmitframeEnqueue, hc]
          exact h.congr ⟨rfl, rfl, rfl, fun _ => rfl, fun _ hl => hl⟩ (fun _ => rfl) (fun _ => rfl)
      | some r =>
          rw [TxLog.note, hc, halXmitframeEnqueue, hc]
          exact h.classify hok hc
  | dequeue inx =>
      cases hstep
      cases hd : rtwDequeueXframe p inx with
      | none =>
          rw [TxLog.note, hd]
          exact h
      | some r =>
          rw [TxLog.note, hd]
          exact h.dequeue hd
  | stop s => exact h.stopStaXmit hok hstep
  | wakeup s => cases hstep; exact h.wakeupStaToXmit s
  -- these three are not among the operations
  | enqueue f => exact hok.elim
  | deliver s => exact hok.elim
  | psPoll ta aid priority => exact hok.elim

/-- **One step** keeps the queues right. -/
theorem TxqOk.step {r r' : TxLog × StaPriv} {op : PsOp} (h : TxqOk r.1 r.2)
    (hok : TxqStepOk r op) (hstep : txqStep r op = .done r') : TxqOk r'.1 r'.2 := by
  unfold txqStep at hstep
  split at hstep
  · rename_i happ
    obtain ⟨p', hp', heq⟩ := Outcome.bind_eq_done.mp hstep
    cases heq
    exact h.psOp happ hok hp'
  · cases hstep
    exact h

theorem txqOk_init (hiq : HiqFilter) (expireTo maxNumSta : Nat) :
    TxqOk {} (initStaPriv true hiq expireTo maxNumSta) where
  balanced _ := ⟨fun _ => rfl, by simp [StaPriv.hwq, initStaPriv], List.nodup_nil, fun _ => by
    simp [StaPriv.hwq, initStaPriv]⟩
  own _ _ _ hf := by cases hf
  ownQ _ _ hf := by cases hf
  fifo _ _ := rfl
  ap := rfl
  free _ _ hs := by cases hs
  nodup := List.nodup_finRange numSta
  apart _ _ _ := rfl

/-- **The transmit queues**: in every state that is reached by such steps the counters and the
links are right, and of each station and category the frames that were put in are those that
came out, in the same order, followed by those that wait. -/
theorem transmit_queues_right {hiq : HiqFilter} {expireTo maxNumSta : Nat}
    {log : TxLog} {p : StaPriv}
    (h : Reach txqStep TxqStepOk ({}, initStaPriv true hiq expireTo maxNumSta) (log, p)) (ac : Ac) :
    (∀ s, ((p.sta s).servq ac).qcnt = ((p.sta s).servq ac).staPending.length) ∧
      p.accnt ac = ∑ s, ((p.sta s).servq ac).qcnt ∧
      (p.staQueue ac).Nodup ∧
      (∀ s, s ∈ p.staQueue ac ↔ ((p.sta s).servq ac).staPending ≠ []) ∧
      ∀ s, log.into s ac = log.out s ac ++ (((p.sta s).servq ac).staPending ++
        (p.sta s).sleepQ.filter fun f => acOf f.priority = ac).map TxFrame.id := by
  have hinv : TxqOk log p := h.invariant (fun r => TxqOk r.1 r.2)
    (txqOk_init hiq expireTo maxNumSta) TxqOk.step
  have hbal := hinv.balanced ac
  exact ⟨hbal.cnt, hbal.total, hbal.nodup, hbal.linked, fun s => hinv.fifo s ac⟩

/-- Two frames are put in and one comes out; the station sleeps and wakes up; the other one
comes out. -/
theorem transmit_queues_right_sample : ∃ log p,
    Reach txqStep TxqStepOk ({}, initStaPriv true .allowAll 3 numSta) (log, p) ∧
      log.into 1 .be = [0, 1] ∧ log.out 1 .be = [0, 1] ∧ p.staQueue .be = [] ∧
      p.accnt .be = ∑ s, ((p.sta s).servq .be).qcnt := by
  have hclass : ∀ (ops : List PsOp) (f : TxFrame) r,
      runActions txqStep ({}, initStaPriv true .allowAll 3 numSta) ops = .done r →
      f.psta = some 1 → (runActions txqStep ({}, initStaPriv true .allowAll 3 numSta) ops).view
        (fun r => (r.2.sta 1).sleepQ.length) = some 0 → TxqStepOk r (.classify f) := by
    intro ops f r hr hf hview s hs
    obtain rfl : s = 1 := (Option.some.inj (hf.symm.trans hs)).symm
    have hlen : (r.2.sta 1).sleepQ.length = 0 :=
      Outcome.view_done (f := fun r => (r.2.sta 1).sleepQ.length) hr hview
    rw [List.eq_nil_of_length_eq_zero hlen]
    rfl
  have hstop : ∀ r, runActions txqStep ({}, initStaPriv true .allowAll 3 numSta)
      (sampleLinked ++ [.classify (sampleTo 0 0)] ++ [.classify (sampleTo 1 0)] ++
        [.dequeue [.be]]) = .done r → TxqStepOk r (.stop 1) := by
    intro r hr
    have haid : (r.2.sta 1).aid = 1 :=
      Outcome.view_done (f := fun r => (r.2.sta 1).aid) hr (by decide)
    refine Or.inl ?_
    rw [haid]
    decide
  have hok : RunOk txqStep TxqStepOk ({}, initStaPriv true .allowAll 3 numSta)
      (sampleLinked ++ [.classify (sampleTo 0 0)] ++ [.classify (sampleTo 1 0)] ++
        [.dequeue [.be]] ++ [.stop 1, .wakeup 1, .dequeue [.be]]) := by
    refine RunOk.append (RunOk.append (RunOk.append (RunOk.append (RunOk.of_all ?_) fun r hr =>
      ⟨hclass _ _ r hr rfl (by decide), fun _ _ => trivial⟩) fun r hr =>
      ⟨hclass _ _ r hr rfl (by decide), fun _ _ => trivial⟩) fun r _ =>
      ⟨trivial, fun _ _ => trivial⟩) fun r hr =>
      ⟨hstop r hr, fun _ _ => ⟨trivial, fun _ _ => ⟨trivial, fun _ _ => trivial⟩⟩⟩
    intro a ha t
    simp only [sampleLinked, List.mem_cons, List.not_mem_nil, or_false] at ha
    rcases ha with rfl | rfl | rfl | rfl | rfl <;> exact trivial
  obtain ⟨⟨log, p⟩, hr, hview⟩ := Outcome.of_view
    (o := runActions txqStep ({}, initStaPriv true .allowAll 3 numSta)
      (sampleLinked ++ [.classify (sampleTo 0 0)] ++ [.classify (sampleTo 1 0)] ++
        [.dequeue [.be]] ++ [.stop 1, .wakeup 1, .dequeue [.be]]))
    (f := fun r => (r.1.into 1 .be, r.1.out 1 .be, r.2.staQueue .be))
    (b := ([0, 1], [0, 1], [])) (by decide)
  obtain ⟨hinto, hrest⟩ := Prod.mk.inj hview
  obtain ⟨hout, hlinked⟩ := Prod.mk.inj hrest
  have hreach := reach_runActions Reach.start hok hr
  exact ⟨log, p, hreach, hinto, hout, hlinked, (transmit_queues_right hreach .be).2.1⟩

/-- Sixteen stations that are linked, with the AIDs 1 to 16 in the slots 1 to 16. -/
def sampleSixteen : List PsOp :=
  [.alloc .bcast, .link 0] ++ (List.range 16).flatMap fun k =>
    [.alloc ⟨2, 0, 0, 0, 1, k.toUInt8⟩, .aid (Fin.ofNat numSta (k + 1)),
      .link (Fin.ofNat numSta (k + 1))]

/-- Without the condition: a frame is pending for the station with the AID 16, whose bit does not
fit into `sta_dz_bitmap`, and the station goes to sleep. The frame stays in the queue, and the
queue is not linked any more. -/
theorem sleeping_station_strands_frame : ∃ log p,
    runActions txqStep ({}, initStaPriv true .allowAll 3 numSta)
      (sampleSixteen ++ [.classify { id := 0, psta := some 16, ra := ⟨2, 0, 0, 0, 1, 15⟩ },
        .stop 16]) = .done (log, p) ∧
      (p.sta 16).aid = 16 ∧ ((p.sta 16).servq .be).staPending ≠ [] ∧ 16 ∉ p.staQueue .be := by
  obtain ⟨⟨log, p⟩, hr, hview⟩ := Outcome.of_view
    (o := runActions txqStep ({}, initStaPriv true .allowAll 3 numSta)
      (sampleSixteen ++ [.classify { id := 0, psta := some 16, ra := ⟨2, 0, 0, 0, 1, 15⟩ },
        .stop 16]))
    (f := fun r => ((r.2.sta 16).aid, ((r.2.sta 16).servq .be).staPending.length, r.2.staQueue .be))
    (b := (16, 1, [])) (by decide)
  obtain ⟨haid, hrest⟩ := Prod.mk.inj hview
  obtain ⟨hlen, hlinked⟩ := Prod.mk.inj hrest
  refine ⟨log, p, hr, haid, fun hnil => ?_, ?_⟩
  · rw [hnil] at hlen
    cases hlen
  · rw [hlinked]
    exact List.not_mem_nil

end Rtl8812au
