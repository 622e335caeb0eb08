import Rtl8812au.Recv.AccountRun
import Rtl8812au.Recv.BlockAck
import Rtl8812au.Recv.PortProof

/-!
# Stations that come and go with frames in their queues

A station owns frames of the pool through seventeen queues: the fragments it has sent so far
and one reorder queue for each TID. `rtw_free_stainfo` empties the reorder queues. It leaves
`defrag_q` as it is, and the next `rtw_alloc_stainfo` of the slot makes the queue anew, so
fragments that waited there are lost to the pool.

Runs take stations, block-ack agreements and frames in any order. As long as no station is
freed with fragments in its queue, and indication takes every MSDU that a last fragment
completes, every frame is free or in a queue of a station that is there.
-/

namespace Rtl8812au

open Pool

/-! ## Events -/

/-- A station comes, its frames of a TID are reordered from now on, a frame is handled behind
validation, a reorder timer fires, a station goes. -/
inductive StaEvent where
  | allocStainfo (hwaddr : MacAddr)
  | addba (addr : MacAddr) (param : UInt16) (accept : Bool)
  | receive (os : Os) (tid : Tid) (f : RecvFrame)
  | timeout (os : Os) (s : StaSlot) (tid : Tid)
  | freeStainfo (s : StaSlot)

/-- A frame of the pool as `validate_recv_data_frame` leaves it, with the station that sent it. -/
def arriving (a : Adapter) (id : Nat) (tid : Tid) (f : RecvFrame) : RecvFrame :=
  { f with
    id := id
    psta := rtwGetStainfo a f.attrib.ta
    preorderCtrl := (rtwGetStainfo a f.attrib.ta).map fun s => (s, tid) }

variable (aes : AesKey → BlockMode.Block → BlockMode.Block)

/-- One event. A slot that is not in use has no station to free and no timer. -/
def staStep (a : Adapter) : StaEvent → Outcome Adapter
  | .allocStainfo hwaddr => .done (rtwAllocStainfo a hwaddr)
  | .addba addr param accept => .done (processAddbaReq a addr param accept)
  | .receive os tid f =>
    match rtwAllocRecvframe a with
    | none => .done a
    | some (id, b) => do
      let (c, _) ← recvFuncPosthandle os aes b (arriving b id tid f)
      return c
  | .timeout os s tid => .done (if s ∈ a.staHash then reorderTimeout os a s tid else a)
  | .freeStainfo s => .done (if s ∈ a.staHash then rtwFreeStainfo a s else a)

/-- A station is freed with no fragments in its queue, and the MSDU that a last fragment
completes is taken: `recv_func_posthandle` would free that fragment a second time, and not the
MSDU. -/
def StaEvent.Tidy (a : Adapter) : StaEvent → Prop
  | .freeStainfo s => (a.sta s).defragQ = []
  | .receive _ tid f => ∀ p ∈ rtwAllocRecvframe a, PostOk aes p.2 (arriving p.2 p.1 tid f)
  | _ => True

instance (a : Adapter) : ∀ e, Decidable (StaEvent.Tidy aes a e)
  | .freeStainfo s => inferInstanceAs (Decidable ((a.sta s).defragQ = []))
  | .receive _ tid f => inferInstanceAs
    (Decidable (∀ p ∈ rtwAllocRecvframe a, PostOk aes p.2 (arriving p.2 p.1 tid f)))
  | .allocStainfo _ => .isTrue trivial
  | .addba _ _ _ => .isTrue trivial
  | .timeout _ _ _ => .isTrue trivial

/-- The driver as it starts: it runs, all frames are free, all slots are. -/
structure StaStart (a : Adapter) : Prop extends RxStart a where
  running : a.running = true
  freeStaQueue : a.freeStaQueue = List.finRange numSta
  staHash : a.staHash = []

/-- Every frame is free or with a station that is there; once they are all gone, the pool is
whole again. -/
structure FramesReturned (a : Adapter) : Prop where
  held : ∀ id < nrRecvframe, id ∈ a.recvpriv.freeRecvQueue
    ∨ ∃ s ∈ a.staHash, id ∈ a.contents (.defrag s) ∨ ∃ t, id ∈ a.contents (.pending s t)
  whole : a.staHash = [] → a.recvpriv.freeRecvQueue.Perm (List.range nrRecvframe)

/-! ## Queues without a station -/

/-- The slots outside `hash` hold no frames, and a fragment waits at the station it is from. -/
structure Homed (hash : List StaSlot) (a : Adapter) : Prop where
  swdec : a.recvpriv.ucSwdecPendingQueue = []
  empty : ∀ s, s ∉ hash → EmptySlot (a.sta s)
  own : ∀ s, ∀ g ∈ (a.sta s).defragQ, ∀ p ∈ g.preorderCtrl, p.1 = s

section

variable {aes} {os : Os} {hash : List StaSlot} {a a' b : Adapter} {f g k : RecvFrame}

theorem Homed.congr (h : Homed hash a) (hsta : b.sta = a.sta)
    (hq : b.recvpriv.ucSwdecPendingQueue = a.recvpriv.ucSwdecPendingQueue) : Homed hash b := by
  refine ⟨hq.trans h.swdec, ?_, ?_⟩
  · rw [hsta]
    exact h.empty
  · rw [hsta]
    exact h.own

theorem Homed.free (h : Homed hash a) (g : RecvFrame) : Homed hash (rtwFreeRecvframe a g) := by
  refine ⟨?_, ?_, ?_⟩
  · show unlinkFrame g.id a.recvpriv.ucSwdecPendingQueue = []
    rw [h.swdec]
    rfl
  · intro s hs
    have he := h.empty s hs
    refine ⟨?_, ?_⟩
    · show unlinkFrame g.id (a.sta s).defragQ = []
      rw [he.defragQ]
      rfl
    · intro t
      show unlinkFrame g.id ((a.sta s).recvreorderCtrl t).pendingRecvframeQueue = []
      rw [he.pending t]
      rfl
  · intro s x hx
    exact h.own s x (List.mem_of_mem_filter hx)

theorem Homed.freeQueue : ∀ (q : List RecvFrame) {a : Adapter}, Homed hash a →
    Homed hash (rtwFreeRecvframeQueue a q) := by
  intro q
  induction q with
  | nil => intro a h; exact h
  | cons g q ih => intro a h; exact ih (h.free g)

/-- A station that is there gets other fragments, its own. -/
theorem Homed.updDefrag {s : StaSlot} {q : List RecvFrame} (h : Homed hash a) (hs : s ∈ hash)
    (hq : ∀ g ∈ q, ∀ p ∈ g.preorderCtrl, p.1 = s) :
    Homed hash (a.updSta s fun x => { x with defragQ := q }) := by
  refine ⟨h.swdec, ?_, ?_⟩
  · intro k hk
    have hne : k ≠ s := fun he => hk (he ▸ hs)
    have hsame : (a.updSta s fun x => { x with defragQ := q }).sta k = a.sta k := if_neg hne
    rw [hsame]
    exact h.empty k hk
  · intro k g hg
    by_cases hk : k = s
    · subst hk
      have hsame : (a.updSta k fun x => { x with defragQ := q }).sta k
          = { a.sta k with defragQ := q } := if_pos rfl
      rw [hsame] at hg
      exact hq g hg
    · have hsame : (a.updSta s fun x => { x with defragQ := q }).sta k = a.sta k := if_neg hk
      rw [hsame] at hg
      exact h.own k g hg

theorem Homed.updReorder {s : StaSlot} {t : Tid} {c : RecvReorderCtrl} (h : Homed hash a)
    (hs : s ∈ hash) : Homed hash (a.updReorder s t c) := by
  refine ⟨h.swdec, ?_, ?_⟩
  · intro k hk
    have hne : k ≠ s := fun he => hk (he ▸ hs)
    have hsame : (a.updReorder s t c).sta k = a.sta k := if_neg hne
    rw [hsame]
    exact h.empty k hk
  · intro k g hg
    have hsame : ((a.updReorder s t c).sta k).defragQ = (a.sta k).defragQ := by
      unfold Adapter.updReorder Adapter.updSta
      dsimp only
      split <;> rfl
    rw [hsame] at hg
    exact h.own k g hg

/-! ## Reassembly -/

/-- The station is there whose queue `recvframe_chk_defrag` works on. -/
theorem recvframeChkDefrag_hashed {r : Option RecvFrame}
    (hd : recvframeChkDefrag a f = .done (a', r)) :
    (∃ s ∈ a.staHash, chkDefragIn a (some s) f = .done (a', r)
        ∧ (rtwGetStainfo a f.attrib.ta = some s ∨ rtwGetStainfo a f.attrib.ta = none))
      ∨ chkDefragIn a none f = .done (a', r) := by
  unfold recvframeChkDefrag at hd
  cases hget : rtwGetStainfo a f.attrib.ta with
  | some s =>
      rw [hget] at hd
      exact Or.inl ⟨s, List.mem_of_find?_eq_some hget, hd, Or.inl rfl⟩
  | none =>
      rw [hget] at hd
      dsimp only at hd
      split at hd
      · exact Or.inr hd
      · split at hd
        · rename_i s hbc
          exact Or.inl ⟨s, List.mem_of_find?_eq_some hbc, hd, Or.inr rfl⟩
        · split at hd
          · exact Or.inr hd
          · exact absurd hd (by simp)

theorem joinFragment_preorderCtrl (f g : RecvFrame) :
    (joinFragment f g).joined.preorderCtrl = f.preorderCtrl := by
  unfold joinFragment
  dsimp only
  rw [RecvFrame.put_preorderCtrl]
  exact RecvFrame.pullTail_preorderCtrl f _

/-- What stands in the queue afterwards stood there before, or is the frame. -/
theorem chkDefragQueue_mem {q q' : List RecvFrame}
    (h : (chkDefragQueue (some q) f).queue = some q') : ∀ g ∈ q', g = f ∨ g ∈ q := by
  intro g hg
  unfold chkDefragQueue at h
  split at h
  · obtain rfl := Option.some.inj h
    exact Or.inr hg
  · dsimp only at h
    split at h
    · split at h
      · obtain rfl := Option.some.inj h
        exact Or.inl (List.mem_singleton.mp hg)
      · obtain rfl := Option.some.inj h
        rcases List.mem_append.mp hg with hg | hg
        · exact Or.inr hg
        · exact Or.inl (List.mem_singleton.mp hg)
    · obtain rfl := Option.some.inj h
      cases hg

/-- **Reassembly keeps the fragments at home**, and what comes out is from a station that is
there. -/
theorem homed_chkDefrag {r : Option RecvFrame} (h : Homed a.staHash a)
    (hf : ∀ p ∈ f.preorderCtrl, rtwGetStainfo a f.attrib.ta = some p.1)
    (hd : recvframeChkDefrag a f = .done (a', r)) :
    Homed a.staHash a' ∧ ∀ k ∈ r, ∀ p ∈ k.preorderCtrl, p.1 ∈ a.staHash := by
  rcases recvframeChkDefrag_hashed hd with ⟨s, hs, hin, hget⟩ | hin
  -- the frame belongs to the station whose queue it goes to
  · have hown : ∀ p ∈ f.preorderCtrl, p.1 = s := by
      intro p hp
      have hfound := hf p hp
      rcases hget with hget | hget
      · exact Option.some.inj (hfound.symm.trans hget)
      · rw [hget] at hfound
        cases hfound
    refine ⟨chkDefragIn_frees (fun g h => h.free g) ?_ hin, ?_⟩
    · unfold writeDefragQ
      split
      · rename_i s' q hslot hq
        obtain rfl := Option.some.inj hslot
        refine h.updDefrag hs ?_
        intro g hg
        rcases chkDefragQueue_mem hq g hg with rfl | hg
        · exact hown
        · exact h.own s g hg
      · exact h
    · intro k hk p hp
      have hr : r = some k := hk
      rw [hr] at hin
      -- joining and cutting keep whom a frame belongs to
      have hkept : ∀ p ∈ k.preorderCtrl, p.1 = s := by
        refine chkDefragIn_keeps (P := fun k => ∀ p ∈ k.preorderCtrl, p.1 = s) ?_ ?_ hown ?_ hin
        · intro f g hf _
          rw [joinFragment_preorderCtrl]
          exact hf
        · intro f hf
          rw [RecvFrame.pullTail_preorderCtrl]
          exact hf
        · rintro s' ⟨⟩
          exact h.own s
      rw [hkept p hp]
      exact hs
  · refine ⟨chkDefragIn_frees (fun g h => h.free g)
      (show Homed a.staHash (writeDefragQ a none f) from h) hin, ?_⟩
    intro k hk p hp
    have hr : r = some k := hk
    rw [hr] at hin
    have hkept : ∀ p ∈ k.preorderCtrl, p.1 ∈ a.staHash := by
      refine chkDefragIn_keeps (P := fun k => ∀ p ∈ k.preorderCtrl, p.1 ∈ a.staHash)
        ?_ ?_ ?_ ?_ hin
      · intro f g hf _
        rw [joinFragment_preorderCtrl]
        exact hf
      · intro f hf
        rw [RecvFrame.pullTail_preorderCtrl]
        exact hf
      · intro p hp
        exact List.mem_of_find?_eq_some (hf p hp)
      · rintro s ⟨⟩
    exact hkept p hp

/-! ## Indication -/

theorem homed_indicateSubframes : ∀ (ps : List Pkt) (k : Nat) {a : Adapter}, Homed hash a →
    Homed hash (indicateSubframes os f k ps a) := by
  intro ps
  induction ps with
  | nil => intro k a h; exact h
  | cons p ps ih => intro k a h; exact ih (k + 1) (h.congr rfl rfl)

theorem homed_recvIndicatepkt (h : Homed hash a) : Homed hash (rtwRecvIndicatepkt os a f) := by
  unfold rtwRecvIndicatepkt
  dsimp only
  split
  · refine Homed.free ?_ f
    exact h.congr rfl rfl
  · exact h.free f

theorem homed_indicateFrame {up : Bool} (h : Homed hash a) : Homed hash (indicateFrame os a f up) := by
  unfold indicateFrame
  split
  · exact (homed_indicateSubframes _ 0 h).free f
  · split
    · exact homed_recvIndicatepkt h
    · exact h

theorem homed_indicateFrames {up : Bool} : ∀ (q : List RecvFrame) {a : Adapter}, Homed hash a →
    Homed hash (q.foldl (fun b g => indicateFrame os b g up) a) := by
  intro q
  induction q with
  | nil => intro a h; exact h
  | cons g q ih => intro a h; exact ih (homed_indicateFrame h)

theorem homed_processRecvIndicatepkts {ret : RxRet} (h : Homed hash a)
    (hk : ∀ p ∈ k.preorderCtrl, p.1 ∈ hash)
    (hd : processRecvIndicatepkts os a k = .done (a', ret)) : Homed hash a' := by
  unfold processRecvIndicatepkts at hd
  dsimp only at hd
  split at hd
  · split at hd
    · exact absurd hd (by simp)
    · rename_i s tid hp
      obtain ⟨rfl, -⟩ := Prod.mk.inj (Outcome.done.inj hd)
      exact homed_indicateFrames _ (h.updReorder (hk (s, tid) hp))
  · split at hd
    · obtain ⟨rfl, -⟩ := Prod.mk.inj (Outcome.done.inj hd)
      exact h
    · split at hd
      · obtain ⟨rfl, -⟩ := Prod.mk.inj (Outcome.done.inj hd)
        exact homed_recvIndicatepkt h
      · obtain ⟨rfl, -⟩ := Prod.mk.inj (Outcome.done.inj hd)
        exact h

/-- **`recv_func_posthandle` leaves no frame with a station that is not there.** -/
theorem homed_posthandle {ret : RxRet} (h : Homed a.staHash a)
    (hf : ∀ p ∈ f.preorderCtrl, rtwGetStainfo a f.attrib.ta = some p.1)
    (hd : recvFuncPosthandle os aes a f = .done (a', ret)) : Homed a.staHash a' := by
  have hframe : ∀ {b : Adapter} {x : RecvFrame ⊕ RxRet}, posthandleFrame aes a f = .done (b, x) →
      Homed a.staHash b ∧ ∀ k, x = .inl k → ∀ p ∈ k.preorderCtrl, p.1 ∈ a.staHash := by
    intro b x hpost
    obtain ⟨d, -, -, ⟨g, -, -, rfl, rfl⟩ | ⟨g, c, r, -, hre, hchk, hrest⟩⟩ :=
      posthandleFrame_cases hpost
    · refine ⟨Homed.free ?_ g, fun k hk => absurd hk (by simp)⟩
      exact h.congr rfl rfl
    · have hg : ∀ p ∈ g.preorderCtrl, rtwGetStainfo a g.attrib.ta = some p.1 := by
        rw [hre]
        exact hf
      obtain ⟨hc, hk⟩ := homed_chkDefrag (a := { a with sec := d.sec, message := d.message })
        (h.congr rfl rfl) hg hchk
      rcases hrest with ⟨-, rfl, rfl⟩ | ⟨k, rfl, ⟨-, rfl, rfl⟩ | ⟨-, rfl, rfl⟩⟩
      · exact ⟨hc, fun k hx => absurd hx (by simp)⟩
      · exact ⟨hc.free k, fun k hx => absurd hx (by simp)⟩
      · refine ⟨hc, ?_⟩
        intro k' hx
        rw [← Sum.inl.inj hx]
        exact hk k rfl
  rcases recvFuncPosthandle_cases hd with hpost | ⟨b, k, c, hpost, hproc, hend⟩
  · exact (hframe hpost).1
  · obtain ⟨hb, hk⟩ := hframe hpost
    have hc := homed_processRecvIndicatepkts hb (hk k rfl) hproc
    rcases hend with ⟨-, rfl⟩ | ⟨-, rfl⟩
    · exact hc
    · exact hc.free f

/-! ## Steps and runs -/

/-- What holds between events. -/
structure Housed (a : Adapter) : Prop where
  acc : Accounted [] a
  homed : Homed a.staHash a
  apart : ∀ s ∈ a.freeStaQueue, s ∉ a.staHash
  nodup : a.freeStaQueue.Nodup
  running : a.running = true

theorem housed_start (h : StaStart a) : Housed a := by
  refine ⟨accounted_start h.toRxStart, ⟨?_, fun s _ => h.sta s, ?_⟩, ?_, ?_, h.running⟩
  · rw [h.recvpriv]
  · intro s g hg
    rw [(h.sta s).defragQ] at hg
    cases hg
  · intro s _
    rw [h.staHash]
    exact List.not_mem_nil
  · rw [h.freeStaQueue]
    exact List.nodup_finRange numSta

/-- The slot at the head of the free queue is empty, so nothing is overwritten. -/
theorem housed_alloc {hwaddr : MacAddr} (h : Housed a) : Housed (rtwAllocStainfo a hwaddr) := by
  have hacc : Accounted [] (rtwAllocStainfo a hwaddr) := by
    refine accounted_allocStainfo h.acc ?_
    intro s hs
    exact h.homed.empty s (h.apart s (List.mem_of_mem_head? hs))
  unfold rtwAllocStainfo at hacc ⊢
  cases hq : a.freeStaQueue with
  | nil => exact h
  | cons s q =>
      rw [hq] at hacc
      have hnd := h.nodup
      rw [hq, List.nodup_cons] at hnd
      refine ⟨hacc, ⟨h.homed.swdec, ?_, ?_⟩, ?_, hnd.2, h.running⟩
      · intro k hk
        have hne : k ≠ s := by
          rintro rfl
          exact hk (List.mem_append_right _ (List.mem_singleton_self k))
        have hnot : k ∉ a.staHash := fun hm => hk (List.mem_append_left _ hm)
        refine (congrArg EmptySlot ?_).mpr (h.homed.empty k hnot)
        exact if_neg hne
      · intro k g hg
        by_cases hk : k = s
        · -- the new station has no fragments
          subst hk
          have hnew : ∀ x : StaInfo, x.defragQ = [] → g ∈ x.defragQ → False := by
            intro x hx hg
            rw [hx] at hg
            cases hg
          exact (hnew _ (congrArg StaInfo.defragQ (if_pos rfl)) hg).elim
        · have hsame := congrArg StaInfo.defragQ
            (if_neg hk : (if k = s then ({
              hwaddr := hwaddr
              tidRxseq := fun _ => 0xffff
              recvreorderCtrl := fun _ => { enable := false } } : StaInfo) else a.sta k) = a.sta k)
          exact h.homed.own k g (hsame ▸ hg)
      · intro k hk hm
        rcases List.mem_append.mp hm with hm | hm
        · exact h.apart k (by rw [hq]; exact List.mem_cons_of_mem s hk) hm
        · rw [List.mem_singleton.mp hm] at hk
          exact hnd.1 hk

/-- A station without fragments leaves an empty slot. -/
theorem housed_free {s : StaSlot} (h : Housed a) (hs : s ∈ a.staHash)
    (hq : (a.sta s).defragQ = []) : Housed (rtwFreeStainfo a s) := by
  have hacc : Accounted [] (rtwFreeStainfo a s) := accounted_freeStainfo h.acc
  unfold rtwFreeStainfo at hacc ⊢
  dsimp only at hacc ⊢
  generalize hx : (a.updSta s fun x => { x with
    linked := false
    recvreorderCtrl := fun t => { x.recvreorderCtrl t with
      reorderingCtrlTimer := false, pendingRecvframeQueue := [] } }) = b at hacc ⊢
  -- only this slot is changed, and its windows are emptied
  have hother : ∀ k, k ≠ s → b.sta k = a.sta k := by
    intro k hk
    rw [← hx]
    exact if_neg hk
  have hself : b.sta s = { a.sta s with
      linked := false
      recvreorderCtrl := fun t => { (a.sta s).recvreorderCtrl t with
        reorderingCtrlTimer := false, pendingRecvframeQueue := [] } } := by
    rw [← hx]
    exact if_pos rfl
  have hhash : b.staHash = a.staHash := by rw [← hx]; rfl
  have hfree : b.freeStaQueue = a.freeStaQueue := by rw [← hx]; rfl
  have hrun : b.running = a.running := by rw [← hx]; rfl
  have hsw : b.recvpriv = a.recvpriv := by rw [← hx]; rfl
  generalize (List.finRange 16).flatMap (fun t =>
    ((a.sta s).recvreorderCtrl t).pendingRecvframeQueue) = pending at hacc ⊢
  have hcfg := sameConfig_freeQueue pending
    { b with staHash := b.staHash.filter (· != s), freeStaQueue := b.freeStaQueue ++ [s] }
  -- the homes of the frames, the two lists of slots, and that the device still runs
  refine ⟨hacc, ?_, ?_, ?_, ?_⟩
  · rw [hcfg.staHash]
    refine Homed.freeQueue pending ⟨?_, ?_, ?_⟩
    · show b.recvpriv.ucSwdecPendingQueue = []
      rw [hsw]
      exact h.homed.swdec
    · intro k hk
      show EmptySlot (b.sta k)
      by_cases hks : k = s
      · rw [hks, hself]
        exact ⟨hq, fun _ => rfl⟩
      · rw [hother k hks]
        refine h.homed.empty k ?_
        intro hm
        refine hk (List.mem_filter.mpr ⟨?_, bne_iff_ne.mpr hks⟩)
        show k ∈ b.staHash
        rw [hhash]
        exact hm
    · intro k g hg
      have hg : g ∈ (b.sta k).defragQ := hg
      by_cases hks : k = s
      · rw [hks, hself] at hg
        rw [hks]
        exact h.homed.own s g hg
      · rw [hother k hks] at hg
        exact h.homed.own k g hg
  · rw [hcfg.staHash, hcfg.freeStaQueue]
    dsimp only
    rw [hhash, hfree]
    intro k hk hm
    obtain ⟨hm, hne⟩ := List.mem_filter.mp hm
    rcases List.mem_append.mp hk with hk | hk
    · exact h.apart k hk hm
    · exact bne_iff_ne.mp hne (List.mem_singleton.mp hk)
  -- the slot was in use, so it is not in the list of free ones twice
  · rw [hcfg.freeStaQueue]
    dsimp only
    rw [hfree]
    refine List.nodup_append.mpr ⟨h.nodup, List.nodup_singleton s, ?_⟩
    rintro k hk _ hm rfl
    rw [List.mem_singleton.mp hm] at hk
    exact h.apart s hk hs
  · rw [hcfg.running]
    exact hrun.trans h.running

theorem housed_receive {tid : Tid} (h : Housed a) (hok : (StaEvent.receive os tid f).Tidy aes a)
    (hd : staStep aes a (.receive os tid f) = .done a') : Housed a' := by
  unfold staStep at hd
  cases halloc : rtwAllocRecvframe a with
  | none =>
      rw [halloc] at hd
      obtain rfl := Outcome.done.inj hd
      exact h
  | some y =>
      obtain ⟨id, b⟩ := y
      rw [halloc] at hd
      obtain ⟨⟨c, ret⟩, hpost, hc⟩ := Outcome.bind_eq_done.mp hd
      obtain rfl := Outcome.done.inj hc
      obtain ⟨hb, hrun⟩ := accounted_alloc h.acc halloc
      have hrb : b.running = true := hrun.trans h.running
      have hsame : b = { a with recvpriv := b.recvpriv }
          ∧ b.recvpriv.ucSwdecPendingQueue = a.recvpriv.ucSwdecPendingQueue := by
        unfold rtwAllocRecvframe at halloc
        split at halloc
        · cases halloc
        · obtain ⟨-, rfl⟩ := Prod.mk.inj (Option.some.inj halloc)
          exact ⟨rfl, rfl⟩
      have hsta : b.sta = a.sta := by rw [hsame.1]
      have hhash : b.staHash = a.staHash := by rw [hsame.1]
      have hfree : b.freeStaQueue = a.freeStaQueue := by rw [hsame.1]
      have hhomed : Homed b.staHash b := by
        rw [hhash]
        exact h.homed.congr hsta hsame.2
      have hcfg := sameConfig_posthandle hpost
      refine ⟨accounted_posthandle hrb hb (hok (id, b) halloc) hpost, ?_, ?_, ?_, ?_⟩
      · rw [hcfg.staHash]
        refine homed_posthandle hhomed ?_ hpost
        intro p hp
        obtain ⟨s, hs, hps⟩ := Option.map_eq_some_iff.mp hp
        rw [← hps]
        exact hs
      · rw [hcfg.staHash, hcfg.freeStaQueue, hhash, hfree]
        exact h.apart
      · rw [hcfg.freeStaQueue, hfree]
        exact h.nodup
      · rw [hcfg.running]
        exact hrb

/-- A block-ack request changes the window, and not what waits in it. -/
theorem housed_addba {addr : MacAddr} {param : UInt16} {accept : Bool} (h : Housed a) :
    Housed (processAddbaReq a addr param accept) := by
  unfold processAddbaReq
  cases hget : rtwGetStainfo a addr with
  | none => exact h
  | some s =>
      exact ⟨accounted_updReorder h.acc (List.Perm.refl _),
        h.homed.updReorder (List.mem_of_find?_eq_some hget), h.apart, h.nodup, h.running⟩

theorem housed_timeout {s : StaSlot} {t : Tid} (h : Housed a) (hs : s ∈ a.staHash) :
    Housed (reorderTimeout os a s t) := by
  have hcfg : SameConfig a (reorderTimeout os a s t) :=
    (sameConfig_updReorder a _ _ _).trans (sameConfig_indicateFrames _ _)
  refine ⟨accounted_reorderTimeout h.running h.acc, ?_, ?_, ?_, ?_⟩
  · rw [hcfg.staHash]
    exact homed_indicateFrames _ (h.homed.updReorder hs)
  · rw [hcfg.staHash, hcfg.freeStaQueue]
    exact h.apart
  · rw [hcfg.freeStaQueue]
    exact h.nodup
  · rw [hcfg.running]
    exact h.running

/-- **A tidy event leaves no frame behind.** -/
theorem housed_step {e : StaEvent} (h : Housed a) (hok : e.Tidy aes a)
    (hd : staStep aes a e = .done a') : Housed a' := by
  cases e with
  | allocStainfo hwaddr =>
      obtain rfl := Outcome.done.inj hd
      exact housed_alloc h
  | addba addr param accept =>
      obtain rfl := Outcome.done.inj hd
      exact housed_addba h
  | receive os tid f => exact housed_receive h hok hd
  | timeout os s tid =>
      obtain rfl := Outcome.done.inj hd
      split
      · rename_i hs
        exact housed_timeout h hs
      · exact h
  | freeStainfo s =>
      obtain rfl := Outcome.done.inj hd
      split
      · rename_i hs
        exact housed_free h hs hok
      · exact h

/-- Where a frame can be when the slots that are not in use are empty. -/
theorem Housed.returned (h : Housed a) : FramesReturned a := by
  have hplace : ∀ id < nrRecvframe, id ∈ a.recvpriv.freeRecvQueue
      ∨ ∃ s ∈ a.staHash, id ∈ a.contents (.defrag s) ∨ ∃ t, id ∈ a.contents (.pending s t) := by
    intro id hid
    obtain ⟨p, hp, -⟩ := h.acc.placed.existsUnique (List.mem_range.mpr hid)
    have hhash : ∀ s, (∀ hs : s ∉ a.staHash, id ∉ a.contents p) → s ∈ a.staHash := by
      intro s hs
      by_contra hn
      exact hs hn hp
    cases p with
    | free => exact Or.inl hp
    | swdec =>
        have hmem : id ∈ a.recvpriv.ucSwdecPendingQueue.map (·.id) := hp
        rw [h.homed.swdec] at hmem
        cases hmem
    | defrag s =>
        refine Or.inr ⟨s, hhash s ?_, Or.inl hp⟩
        intro hs hm
        have hm : id ∈ (a.sta s).defragQ.map (·.id) := hm
        rw [(h.homed.empty s hs).defragQ] at hm
        cases hm
    | pending s t =>
        refine Or.inr ⟨s, hhash s ?_, Or.inr ⟨t, hp⟩⟩
        intro hs hm
        have hm : id ∈ ((a.sta s).recvreorderCtrl t).pendingRecvframeQueue.map (·.id) := hm
        rw [(h.homed.empty s hs).pending t] at hm
        cases hm
  refine ⟨hplace, ?_⟩
  intro hnone
  have hnd : a.recvpriv.freeRecvQueue.Nodup := h.acc.placed.place_nodup .free
  refine (List.perm_ext_iff_of_nodup hnd List.nodup_range).mpr ?_
  intro id
  constructor
  · intro hm
    -- only frames of the pool are in a queue
    have honce := h.acc.placed.once id
    have hpos := List.count_pos_iff.mpr (show id ∈ a.contents .free from hm)
    have hle := count_le_sum a.contents .free id
    exact List.count_pos_iff.mp (by omega)
  · intro hm
    rcases hplace id (List.mem_range.mp hm) with hf | ⟨s, hs, -⟩
    · exact hf
    · rw [hnone] at hs
      cases hs

/-- **A station that goes returns its frames.** In every run that frees no station with
fragments in its queue and in which indication takes the MSDU of every last fragment. -/
theorem teardown_returns_frames {a₀ : Adapter} (h0 : StaStart a₀)
    (h : Reach (staStep aes) (fun a e => e.Tidy aes a) a₀ a) : FramesReturned a := by
  have hhoused : Housed a := by
    refine h.invariant Housed (housed_start h0) ?_
    intro s s' e hs hok hd
    exact housed_step hs hok hd
  exact hhoused.returned

end

/-! ## A station that comes and goes -/

/-- The station of the samples. -/
def fragmentingSta : MacAddr := ⟨2, 0, 0, 0, 0, 1⟩

/-- A frame of 40 bytes that it sends. -/
def staFrame (seq n : Nat) (more qos : Bool) : RecvFrame where
  id := 0
  len := 40
  rxTail := 40
  rxEnd := 1664
  attrib :=
    { ta := fragmentingSta, hdrlen := if qos then 26 else 24, qos := qos
      seqNum := seq, fragNum := n, mfrag := more }

/-- The first fragment of an MSDU. -/
def firstFragment : RecvFrame := staFrame 5 0 true false

/-- It comes, agrees on reordering for TID 0, sends frame 1, and frame 3, which waits for
frame 2; it sends an MSDU in two fragments, and goes. -/
def staComesAndGoes : List StaEvent :=
  [.allocStainfo fragmentingSta, .addba fragmentingSta 0 true,
    .receive {} 0 (staFrame 1 0 false true), .receive {} 0 (staFrame 3 0 false true),
    .receive {} 1 firstFragment, .receive {} 1 (staFrame 5 1 false false), .freeStainfo 0]

/-- A driver with `ht_option`. -/
def htDriver : Adapter := { mlme := { htOption := true } }

theorem htDriver_start : StaStart htDriver := ⟨⟨rfl, fun _ => ⟨rfl, fun _ => rfl⟩⟩, rfl, rfl, rfl⟩

/-- How many stations there are, how many packets went up, and how many frames are free. -/
def poolOf (a : Adapter) : Nat × Nat × Nat :=
  (a.staHash.length, a.indicated.length, a.recvpriv.freeRecvQueue.length)

/-- One frame waits while the station is there. Once it is gone the pool is whole. -/
theorem teardown_returns_frames_sample :
    (runActions (staStep fun _ b => b) htDriver (staComesAndGoes.take 6)).view poolOf
        = some (1, 2, 255)
      ∧ ∃ a, runActions (staStep fun _ b => b) htDriver staComesAndGoes = .done a
        ∧ poolOf a = (0, 2, 256) ∧ a.recvpriv.freeRecvQueue.Perm (List.range nrRecvframe) := by
  have hview : (runActions (staStep fun _ b => b) htDriver staComesAndGoes).view poolOf
      = some (0, 2, 256) := by decide +kernel
  have hok : RunOk (staStep fun _ b => b) (fun a e => e.Tidy (fun _ b => b) a) htDriver
      staComesAndGoes := by decide +kernel
  obtain ⟨a, hrun, hseen⟩ := Outcome.of_view hview
  refine ⟨by decide +kernel, a, hrun, hseen, ?_⟩
  have hret := teardown_returns_frames htDriver_start (reach_runActions .start hok hrun)
  exact hret.whole (List.length_eq_zero_iff.mp (congrArg Prod.fst hseen))

/-- A station that sends the first of two fragments and goes. -/
def fragmentLeft : List StaEvent :=
  [.allocStainfo fragmentingSta, .receive {} 0 firstFragment, .freeStainfo 0]

/-- The fragment that waited is neither free nor with a station. -/
theorem waiting_fragment_lost :
    ¬ ∀ (aes : AesKey → BlockMode.Block → BlockMode.Block) (a₀ a : Adapter), StaStart a₀ →
      Reach (staStep aes) (fun _ _ => True) a₀ a → FramesReturned a := by
  intro h
  have hview : (runActions (staStep fun _ b => b) htDriver fragmentLeft).view poolOf
      = some (0, 0, 255) := by decide +kernel
  obtain ⟨a, hrun, hseen⟩ := Outcome.of_view hview
  have hreach : Reach (staStep fun _ b => b) (fun _ _ => True) htDriver a :=
    reach_runActions .start (RunOk.of_all fun _ _ _ => trivial) hrun
  have hhash : a.staHash = [] := List.length_eq_zero_iff.mp (congrArg Prod.fst hseen)
  have hperm := (h (fun _ b => b) htDriver a htDriver_start hreach).whole hhash
  have hlen : a.recvpriv.freeRecvQueue.length = 255 := congrArg (fun x => x.2.2) hseen
  rw [hperm.length_eq, List.length_range] at hlen
  exact absurd hlen (by decide)

end Rtl8812au
