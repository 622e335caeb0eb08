import Mathlib.Data.Fintype.Sum
import Mathlib.Data.Fintype.Sigma
import Mathlib.Tactic.DeriveFintype
import Rtl8812au.Lib.Pool
import Rtl8812au.Recv.Taken

/-!
# Where the frames of the pool are

Each function of the receive path takes over the frame it is given. `Accounted hand a`
says that every frame of the pool is in exactly one queue or in hand, and that the
counter of free frames is right; one lemma for each function says what it does to the
hand. A run keeps its hands empty as long as it stays off the paths that free a frame
twice or forget one.
-/

namespace Rtl8812au

open Pool

/-! ## Places -/

/-- The queues of the driver. -/
inductive Place where
  | free
  | swdec
  | defrag (s : StaSlot)
  | pending (s : StaSlot) (t : Tid)
  deriving DecidableEq, Fintype

/-- The frames in each queue. -/
def Adapter.contents (a : Adapter) : Place → List Nat
  | .free => a.recvpriv.freeRecvQueue
  | .swdec => a.recvpriv.ucSwdecPendingQueue.map (·.id)
  | .defrag s => (a.sta s).defragQ.map (·.id)
  | .pending s t => ((a.sta s).recvreorderCtrl t).pendingRecvframeQueue.map (·.id)

/-- Every frame is in one queue or in hand, and the free ones are counted. -/
structure Accounted (hand : List Nat) (a : Adapter) : Prop where
  placed : Placed (List.range nrRecvframe) hand a.contents
  cnt : a.recvpriv.freeRecvframeCnt = a.recvpriv.freeRecvQueue.length

section

variable {a a' : Adapter} {f : RecvFrame} {hand hand' : List Nat}

theorem Accounted.perm (h : Accounted hand a) (hp : hand.Perm hand') : Accounted hand' a :=
  ⟨h.placed.perm hp, h.cnt⟩

/-- Only the queues and the counter matter. -/
theorem Accounted.congr (h : Accounted hand a) (hc : a'.contents = a.contents)
    (hn : a'.recvpriv.freeRecvframeCnt = a.recvpriv.freeRecvframeCnt) : Accounted hand a' := by
  refine ⟨?_, ?_⟩
  · rw [hc]
    exact h.placed
  · have hfree : a'.recvpriv.freeRecvQueue = a.recvpriv.freeRecvQueue := congrFun hc .free
    rw [hn, hfree]
    exact h.cnt

theorem map_unlinkFrame (id : Nat) (q : List RecvFrame) :
    (unlinkFrame id q).map (·.id) = (q.map (·.id)).filter (· != id) := by
  unfold unlinkFrame
  rw [List.filter_map]
  rfl

theorem contents_unlink (a : Adapter) (id : Nat) :
    (a.unlink id).contents = fun p => (a.contents p).filter (· != id) := by
  funext p
  cases p with
  | free => rfl
  | swdec => exact map_unlinkFrame id _
  | defrag s => exact map_unlinkFrame id _
  | pending s t => exact map_unlinkFrame id _

theorem contents_updSta_defrag (a : Adapter) (s : StaSlot) (q : List RecvFrame) :
    (a.updSta s fun x => { x with defragQ := q }).contents
      = Function.update a.contents (.defrag s) (q.map (·.id)) := by
  funext p
  unfold Adapter.updSta
  cases p with
  | free => rfl
  | swdec => rfl
  | defrag s' =>
      by_cases hs : s' = s
      · subst hs
        rw [Function.update_self]
        simp only [Adapter.contents, if_true]
      · rw [Function.update_of_ne (by simpa using hs)]
        simp only [Adapter.contents, if_neg hs]
  | pending s' t =>
      rw [Function.update_of_ne (by simp)]
      simp only [Adapter.contents]
      split <;> rfl

theorem contents_updReorder (a : Adapter) (s : StaSlot) (t : Tid) (c : RecvReorderCtrl) :
    (a.updReorder s t c).contents
      = Function.update a.contents (.pending s t) (c.pendingRecvframeQueue.map (·.id)) := by
  funext p
  unfold Adapter.updReorder Adapter.updSta
  cases p with
  | free => rfl
  | swdec => rfl
  | defrag s' =>
      rw [Function.update_of_ne (by simp)]
      simp only [Adapter.contents]
      split <;> rfl
  | pending s' t' =>
      by_cases hs : s' = s
      · subst hs
        by_cases ht : t' = t
        · subst ht
          rw [Function.update_self]
          simp only [Adapter.contents, if_true]
        · rw [Function.update_of_ne (by simpa using ht)]
          simp only [Adapter.contents, if_true, if_neg ht]
      · rw [Function.update_of_ne (by intro h; exact hs (Place.pending.inj h).1)]
        simp only [Adapter.contents, if_neg hs]

/-! ## Freeing -/

theorem contents_free (a : Adapter) (f : RecvFrame) :
    (rtwFreeRecvframe a f).contents
      = Function.update (a.unlink f.id).contents .free ((a.unlink f.id).contents .free ++ [f.id]) := by
  funext p
  cases p with
  | free => rw [Function.update_self]; rfl
  | swdec => rw [Function.update_of_ne (by simp)]; rfl
  | defrag s => rw [Function.update_of_ne (by simp)]; rfl
  | pending s t => rw [Function.update_of_ne (by simp)]; rfl

/-- **Freeing a frame that is in hand.** -/
theorem accounted_free (h : Accounted (f.id :: hand) a) : Accounted hand (rtwFreeRecvframe a f) := by
  have hsame : (a.unlink f.id).contents = a.contents := by
    rw [contents_unlink]
    exact h.placed.unlink_hand (List.mem_cons_self ..)
  refine ⟨?_, ?_⟩
  · rw [contents_free, hsame]
    refine h.placed.exchange ?_
    rw [List.cons_append, ← List.append_assoc]
    exact (List.perm_append_singleton _ _).symm
  · have hfree : (a.unlink f.id).recvpriv.freeRecvQueue = a.recvpriv.freeRecvQueue :=
      congrFun hsame .free
    show a.recvpriv.freeRecvframeCnt + 1 = ((a.unlink f.id).recvpriv.freeRecvQueue ++ [f.id]).length
    rw [hfree, h.cnt, List.length_append, List.length_singleton]

/-- Freeing a frame that is in a queue takes it off that queue. -/
theorem accounted_freeQueued {p : Place} (h : Accounted hand a) (hm : f.id ∈ a.contents p)
    (hp : p ≠ .free) : Accounted hand (rtwFreeRecvframe a f) := by
  have hplaced : Placed (List.range nrRecvframe) (f.id :: hand) (a.unlink f.id).contents := by
    rw [contents_unlink]
    exact h.placed.unlink_place hm
  have hnot : f.id ∉ a.contents .free := fun hf => hp (h.placed.unique hf hm)
  refine ⟨?_, ?_⟩
  · rw [contents_free]
    refine hplaced.exchange ?_
    rw [List.cons_append, ← List.append_assoc]
    exact (List.perm_append_singleton _ _).symm
  · show a.recvpriv.freeRecvframeCnt + 1
      = (a.recvpriv.freeRecvQueue.filter (· != f.id) ++ [f.id]).length
    have hself : a.recvpriv.freeRecvQueue.filter (· != f.id) = a.recvpriv.freeRecvQueue := by
      refine List.filter_eq_self.mpr ?_
      intro j hj
      refine bne_iff_ne.mpr ?_
      rintro rfl
      exact hnot hj
    rw [hself, h.cnt, List.length_append, List.length_singleton]

/-- Freeing a list of frames that are in hand. -/
theorem accounted_freeQueue : ∀ (q : List RecvFrame) {a : Adapter},
    Accounted (q.map (·.id) ++ hand) a → Accounted hand (rtwFreeRecvframeQueue a q)
  | [], _, h => h
  | f :: q, a, h => by
      unfold rtwFreeRecvframeQueue
      rw [List.foldl_cons]
      exact accounted_freeQueue q (accounted_free h)

end

/-! ## Reassembly -/

/-- The frames that are still someone's to deal with. -/
def ids (r : Option RecvFrame) : List Nat := r.toList.map (·.id)

theorem joinFragment_id (f g : RecvFrame) : (joinFragment f g).joined.id = f.id := by
  unfold joinFragment
  dsimp only
  rw [RecvFrame.put_id]
  exact RecvFrame.pullTail_id f _

theorem defragLoop_id : ∀ (q : List RecvFrame) {f out : RecvFrame} {cur : Nat},
    (defragLoop f cur q).1 = some out → out.id = f.id
  | [], f, out, cur, h => by rw [← Option.some.inj h]
  | g :: q, f, out, cur, h => by
      rw [defragLoop] at h
      split at h
      · exact absurd h (by simp)
      · rw [defragLoop_id q h, joinFragment_id]

/-- `recvframe_defrag` returns or frees each fragment once. -/
theorem recvframeDefrag_perm {l : List RecvFrame} :
    (ids (recvframeDefrag l).frame ++ (recvframeDefrag l).freed.map (·.id)).Perm (l.map (·.id)) := by
  cases l with
  | nil => exact List.Perm.refl _
  | cons f q =>
      rw [recvframeDefrag]
      split
      · exact List.Perm.refl _
      · rcases hl : defragLoop f 1 q with ⟨o, steps⟩
        cases o with
        | none => exact List.Perm.refl _
        | some f' =>
            have hid : f'.id = f.id := defragLoop_id q (congrArg Prod.fst hl)
            show (f'.id :: q.map (·.id)).Perm _
            rw [hid]
            exact List.Perm.refl _

/-- The frame and the fragments that waited are in the queue, returned or freed. -/
theorem chkDefragQueue_perm (q : List RecvFrame) (f : RecvFrame) :
    ∃ q', (chkDefragQueue (some q) f).queue = some q'
      ∧ (f.id :: q.map (·.id)).Perm (ids (chkDefragQueue (some q) f).frame
          ++ (chkDefragQueue (some q) f).freed.map (·.id) ++ q'.map (·.id)) := by
  have hsnoc : (f.id :: q.map (·.id)).Perm ((q ++ [f]).map (·.id)) := by
    rw [List.map_append, List.map_singleton]
    exact (List.perm_append_singleton _ _).symm
  unfold chkDefragQueue
  split
  · exact ⟨q, rfl, List.Perm.refl _⟩
  · dsimp only
    split
    · split
      · refine ⟨[f], rfl, ?_⟩
        show (f.id :: q.map (·.id)).Perm (q.map (·.id) ++ [f.id])
        exact (List.perm_append_singleton _ _).symm
      · exact ⟨q ++ [f], rfl, hsnoc⟩
    · refine ⟨[], rfl, ?_⟩
      rw [List.map_nil, List.append_nil]
      exact hsnoc.trans recvframeDefrag_perm.symm

theorem recvframeChkmic_id {a : Adapter} {f g : RecvFrame} {ok : Bool}
    (h : recvframeChkmic a f = .done (g, ok)) : g.id = f.id := by
  unfold recvframeChkmic at h
  split at h
  · rw [← (Prod.mk.inj (Outcome.done.inj h)).1]
  · split at h
    · rw [← (Prod.mk.inj (Outcome.done.inj h)).1]
      exact RecvFrame.pullTail_id f 8
    · split at h
      · rw [← (Prod.mk.inj (Outcome.done.inj h)).1]
      · split at h
        · exact absurd h (by simp)
        · rw [← (Prod.mk.inj (Outcome.done.inj h)).1]
          exact RecvFrame.pullTail_id f 8

section

variable {a a' : Adapter} {f : RecvFrame} {r : Option RecvFrame} {hand : List Nat}

theorem accounted_chkDefragMic {x : Option RecvFrame} (h : Accounted (ids x ++ hand) a)
    (hd : chkDefragMic a x = .done (a', r)) : Accounted (ids r ++ hand) a' := by
  unfold chkDefragMic at hd
  cases x with
  | none =>
      obtain ⟨rfl, rfl⟩ := Prod.mk.inj (Outcome.done.inj hd)
      exact h
  | some f =>
      dsimp only at hd
      split at hd
      · obtain ⟨rfl, rfl⟩ := Prod.mk.inj (Outcome.done.inj hd)
        exact h
      · obtain ⟨⟨g, ok⟩, hmic, hd⟩ := Outcome.bind_eq_done.mp hd
        have hid := recvframeChkmic_id hmic
        have hg : Accounted (g.id :: hand) a := by rw [hid]; exact h
        dsimp only at hd
        split at hd
        · obtain ⟨rfl, rfl⟩ := Prod.mk.inj (Outcome.done.inj hd)
          exact hg
        · obtain ⟨rfl, rfl⟩ := Prod.mk.inj (Outcome.done.inj hd)
          exact accounted_free hg

/-- **Reassembly takes the frame over**: it gives one back or none. -/
theorem accounted_chkDefragIn {slot : Option StaSlot} (h : Accounted (f.id :: hand) a)
    (hd : chkDefragIn a slot f = .done (a', r)) : Accounted (ids r ++ hand) a' := by
  unfold chkDefragIn at hd
  dsimp only at hd
  split at hd
  · refine accounted_chkDefragMic ?_ hd
    refine accounted_freeQueue _ ?_
    cases slot with
    | none =>
        refine h.perm ?_
        show (f.id :: hand).Perm ((chkDefragQueue none f).freed.map (·.id)
          ++ (ids (chkDefragQueue none f).frame ++ hand))
        unfold chkDefragQueue
        split <;> exact List.Perm.refl _
    | some s =>
        obtain ⟨q', hq', hperm⟩ := chkDefragQueue_perm (a.sta s).defragQ f
        simp only [Option.map_some, hq']
        have hcontents := contents_updSta_defrag a s q'
        refine ⟨?_, h.cnt⟩
        rw [hcontents]
        refine h.placed.exchange ?_
        have h1 : (f.id :: hand ++ a.contents (.defrag s)).Perm
            (f.id :: (a.sta s).defragQ.map (·.id) ++ hand) := by
          refine List.Perm.cons _ ?_
          exact List.perm_append_comm
        have h2 := hperm.append_right hand
        refine h1.trans (h2.trans ?_)
        simp only [List.append_assoc]
        exact List.perm_append_comm_assoc _ _ _ |>.trans
          (List.Perm.append_left _ (List.Perm.append_left _ List.perm_append_comm))
  · exact absurd hd (by simp)

theorem accounted_chkDefrag (h : Accounted (f.id :: hand) a)
    (hd : recvframeChkDefrag a f = .done (a', r)) : Accounted (ids r ++ hand) a' := by
  obtain ⟨slot, hs⟩ := recvframeChkDefrag_slot hd
  exact accounted_chkDefragIn h hs

end

/-! ## Indication -/

section

variable {os : Os} {a a' : Adapter} {f : RecvFrame} {hand : List Nat}

theorem accounted_osIndicate {dst : MacAddr} {b : Bool} {p : Pkt} (h : Accounted hand a) :
    Accounted hand (rtwOsRecvIndicatePkt a dst b p) := h.congr rfl rfl

theorem accounted_recvIndicatepkt (h : Accounted (f.id :: hand) a) :
    Accounted hand (rtwRecvIndicatepkt os a f) := by
  unfold rtwRecvIndicatepkt
  dsimp only
  split
  · exact accounted_free (accounted_osIndicate h)
  · exact accounted_free h

theorem accounted_indicateSubframes : ∀ (ps : List Pkt) (k : Nat) {a : Adapter},
    Accounted hand a → Accounted hand (indicateSubframes os f k ps a)
  | [], _, _, h => h
  | p :: ps, k, a, h => by
      rw [indicateSubframes]
      exact accounted_indicateSubframes ps (k + 1) (accounted_osIndicate h)

/-- A running driver frees what it indicates. -/
theorem accounted_indicateFrame (h : Accounted (f.id :: hand) a) :
    Accounted hand (indicateFrame os a f true) := by
  unfold indicateFrame
  split
  · exact accounted_free (accounted_indicateSubframes _ 0 h)
  · exact accounted_recvIndicatepkt h

theorem accounted_indicateFrames : ∀ (q : List RecvFrame) {a : Adapter},
    Accounted (q.map (·.id) ++ hand) a →
      Accounted hand (q.foldl (fun b g => indicateFrame os b g true) a)
  | [], _, h => h
  | g :: q, a, h => by
      rw [List.foldl_cons]
      exact accounted_indicateFrames q (accounted_indicateFrame h)

end

/-- **The reorder buffer keeps every frame**: let in, it is indicated or pending with
the others; turned away, nothing has moved. -/
theorem reorderInsert_perm (c : RecvReorderCtrl) (f : RecvFrame) :
    ((reorderInsert c f).ret = true
      ∧ (f.id :: c.pendingRecvframeQueue.map (·.id)).Perm
          ((reorderInsert c f).indicated.map (·.id)
            ++ (reorderInsert c f).ctrl.pendingRecvframeQueue.map (·.id)))
      ∨ ((reorderInsert c f).ret = false ∧ (reorderInsert c f).indicated = []
        ∧ (reorderInsert c f).ctrl.pendingRecvframeQueue = c.pendingRecvframeQueue) := by
  have hfr := checkIndicateSeq_frame c f.attrib.seqNum
  rcases reorderInsert_cases c f with ⟨-, hr⟩ | ⟨-, -, hr⟩ | ⟨q, b, -, hq, hr⟩
  · right
    rw [hr, hfr]
    exact ⟨rfl, rfl, rfl⟩
  · right
    rw [hr, hfr]
    exact ⟨rfl, rfl, rfl⟩
  · left
    rw [hr]
    refine ⟨rfl, ?_⟩
    dsimp only
    rw [← List.map_append, indicateLoop_append]
    exact ((enqueue_perm hq).map (·.id)).symm

theorem recvIndicatepktReorder_perm (mp : Bool) (c : RecvReorderCtrl) (f : RecvFrame) :
    ((recvIndicatepktReorder true mp c f).ret = true
      ∧ (f.id :: c.pendingRecvframeQueue.map (·.id)).Perm
          ((recvIndicatepktReorder true mp c f).indicated.map (·.id)
            ++ (recvIndicatepktReorder true mp c f).ctrl.pendingRecvframeQueue.map (·.id)))
      ∨ ((recvIndicatepktReorder true mp c f).ret = false
        ∧ (recvIndicatepktReorder true mp c f).indicated = []
        ∧ (recvIndicatepktReorder true mp c f).ctrl.pendingRecvframeQueue
          = c.pendingRecvframeQueue) := by
  have hid := wlanhdrToEthhdr_id mp f
  unfold recvIndicatepktReorder
  split
  · rcases hw : wlanhdrToEthhdr mp f with ⟨g, ok⟩
    rw [hw] at hid
    dsimp only at hid ⊢
    split
    · exact Or.inr ⟨rfl, rfl, rfl⟩
    · rw [← hid]
      split
      · exact Or.inl ⟨rfl, List.Perm.refl _⟩
      · split
        · exact Or.inl ⟨rfl, List.Perm.refl _⟩
        · exact reorderInsert_perm c g
  · split
    · exact Or.inl ⟨rfl, List.Perm.refl _⟩
    · exact reorderInsert_perm c f

section

variable {os : Os} {a a' : Adapter} {f : RecvFrame} {hand : List Nat}

/-- The reorder control of one TID is replaced by one with these frames. -/
theorem accounted_updReorder {s : StaSlot} {t : Tid} {c : RecvReorderCtrl} {hand' : List Nat}
    (h : Accounted hand a)
    (hp : (hand ++ ((a.sta s).recvreorderCtrl t).pendingRecvframeQueue.map (·.id)).Perm
      (hand' ++ c.pendingRecvframeQueue.map (·.id))) : Accounted hand' (a.updReorder s t c) := by
  refine ⟨?_, h.cnt⟩
  rw [contents_updReorder]
  exact h.placed.exchange hp

/-- **`process_recv_indicatepkts` takes the frame over if it returns `_SUCCESS`**, and
leaves it with its caller if not. -/
theorem accounted_processRecvIndicatepkts {ret : RxRet} (hr : a.running = true)
    (h : Accounted (f.id :: hand) a) (hd : processRecvIndicatepkts os a f = .done (a', ret)) :
    (ret = .success ∧ Accounted hand a') ∨ (ret = .fail ∧ Accounted (f.id :: hand) a') := by
  unfold processRecvIndicatepkts at hd
  dsimp only at hd
  rw [hr] at hd
  split at hd
  · split at hd
    · exact absurd hd (by simp)
    · rename_i s tid _
      rcases recvIndicatepktReorder_perm a.mlme.mpState ((a.sta s).recvreorderCtrl tid) f with
        ⟨hret, hperm⟩ | ⟨hret, hind, hpend⟩
      · left
        rw [hret] at hd
        obtain ⟨rfl, rfl⟩ := Prod.mk.inj (Outcome.done.inj hd)
        refine ⟨rfl, ?_⟩
        refine accounted_indicateFrames _ (accounted_updReorder h ?_)
        have h1 := hperm.append_right hand
        refine List.Perm.trans ?_ (h1.trans ?_)
        · refine List.Perm.cons _ ?_
          exact List.perm_append_comm
        · rw [List.append_assoc, List.append_assoc]
          exact List.Perm.append_left _ List.perm_append_comm
      · right
        rw [hret, hind] at hd
        obtain ⟨rfl, rfl⟩ := Prod.mk.inj (Outcome.done.inj hd)
        refine ⟨rfl, ?_⟩
        refine accounted_updReorder h ?_
        rw [hpend]
  · rcases hw : wlanhdrToEthhdr a.mlme.mpState f with ⟨g, ok⟩
    have hid : g.id = f.id := by
      have := wlanhdrToEthhdr_id a.mlme.mpState f
      rw [hw] at this
      exact this
    rw [hw] at hd
    dsimp only at hd
    split at hd
    · right
      obtain ⟨rfl, rfl⟩ := Prod.mk.inj (Outcome.done.inj hd)
      exact ⟨rfl, h⟩
    · left
      obtain ⟨rfl, rfl⟩ := Prod.mk.inj (Outcome.done.inj hd)
      refine ⟨rfl, ?_⟩
      refine accounted_recvIndicatepkt ?_
      rw [hid]
      exact h

theorem accounted_reorderTimeout {s : StaSlot} {t : Tid} (hr : a.running = true)
    (h : Accounted hand a) : Accounted hand (reorderTimeout os a s t) := by
  unfold reorderTimeout
  dsimp only
  rw [hr]
  rcases timeoutHandler_cases ((a.sta s).recvreorderCtrl t) with ⟨b, hq, hc⟩ | ⟨g, q, b, hq, hc⟩
  · rw [hc]
    refine accounted_updReorder h ?_
    exact List.Perm.refl _
  · rw [hc]
    refine accounted_indicateFrames _ (accounted_updReorder h ?_)
    have happ := indicateLoop_append (g :: q) g.attrib.seqNum
    dsimp only
    rw [hq]
    have hmap := congrArg (List.map (·.id)) happ
    rw [List.map_append] at hmap
    rw [← hmap, List.append_assoc]
    exact List.perm_append_comm.trans (by
      rw [List.append_assoc]
      exact List.Perm.append_left _ List.perm_append_comm)

end

/-! ## Behind validation -/

/-- Without a last fragment there is no reassembly: what comes back is the frame itself. -/
theorem chkDefragIn_id {a a' : Adapter} {slot : Option StaSlot} {f k : RecvFrame}
    (hl : isLastFragment f = false) (hd : chkDefragIn a slot f = .done (a', some k)) :
    k.id = f.id := by
  have hframe : ∀ q g, (chkDefragQueue q f).frame = some g → g.id = f.id := by
    intro q g hg
    cases hm : f.attrib.mfrag with
    | true =>
        rw [chkDefragQueue_more hm] at hg
        exact absurd hg (by simp)
    | false =>
        have h0 : f.attrib.fragNum = 0 := by
          unfold isLastFragment at hl
          rw [hm] at hl
          simpa using hl
        rw [chkDefragQueue_whole hm h0] at hg
        rw [Option.some.inj hg]
  unfold chkDefragIn at hd
  dsimp only at hd
  split at hd
  · unfold chkDefragMic at hd
    cases hg : (chkDefragQueue (slot.map fun s => (a.sta s).defragQ) f).frame with
    | none =>
        rw [hg] at hd
        exact absurd (Prod.mk.inj (Outcome.done.inj hd)).2 (by simp)
    | some g =>
        have hid := hframe _ g hg
        rw [hg] at hd
        dsimp only at hd
        split at hd
        · rw [← Option.some.inj (Prod.mk.inj (Outcome.done.inj hd)).2, hid]
        · obtain ⟨⟨x, ok⟩, hmic, hd⟩ := Outcome.bind_eq_done.mp hd
          dsimp only at hd
          split at hd
          · rw [← Option.some.inj (Prod.mk.inj (Outcome.done.inj hd)).2, recvframeChkmic_id hmic, hid]
          · exact absurd (Prod.mk.inj (Outcome.done.inj hd)).2 (by simp)
  · exact absurd hd (by simp)

section

variable {os : Os} {aes : AesKey → BlockMode.Block → BlockMode.Block} {a a' : Adapter}
variable {f : RecvFrame} {hand : List Nat}

theorem accounted_posthandleFrame {x : RecvFrame ⊕ RxRet} (h : Accounted (f.id :: hand) a)
    (hd : posthandleFrame aes a f = .done (a', x)) :
    (∃ r, x = .inr r ∧ Accounted hand a') ∨ ∃ k, x = .inl k ∧ Accounted (k.id :: hand) a' := by
  obtain ⟨d, -, -, ⟨g, -, hid, rfl, rfl⟩ | ⟨g, b, r, -, hre, hchk, hrest⟩⟩ :=
    posthandleFrame_cases hd
  · left
    refine ⟨_, rfl, accounted_free ?_⟩
    rw [hid]
    exact h.congr rfl rfl
  · have hid : g.id = f.id := by rw [hre]
    have hb : Accounted (ids r ++ hand) b := by
      refine accounted_chkDefrag ?_ hchk
      rw [hid]
      exact h.congr rfl rfl
    rcases hrest with ⟨rfl, rfl, rfl⟩ | ⟨k, rfl, ⟨-, rfl, rfl⟩ | ⟨-, rfl, rfl⟩⟩
    · exact Or.inl ⟨_, rfl, hb⟩
    · exact Or.inl ⟨_, rfl, accounted_free hb⟩
    · exact Or.inr ⟨k, rfl, hb⟩

/-- The frame that is indicated is the one that was handled, unless that was the last of
several fragments. -/
theorem posthandleFrame_id {k : RecvFrame} (hl : isLastFragment f = false)
    (hd : posthandleFrame aes a f = .done (a', .inl k)) : k.id = f.id := by
  obtain ⟨d, -, -, ⟨g, -, -, hx, -⟩ | ⟨g, b, r, -, hre, hchk, hrest⟩⟩ := posthandleFrame_cases hd
  · exact absurd hx (by simp)
  · rcases hrest with ⟨-, hx, -⟩ | ⟨k', rfl, ⟨-, hx, -⟩ | ⟨-, hx, -⟩⟩
    · exact absurd hx (by simp)
    · exact absurd hx (by simp)
    · obtain rfl := Sum.inl.inj hx
      obtain ⟨slot, hs⟩ := recvframeChkDefrag_slot hchk
      have hlg : isLastFragment g = false := by
        unfold isLastFragment at hl ⊢
        rw [hre]
        exact hl
      rw [chkDefragIn_id hlg hs, hre]

/-- **`recv_func_posthandle` takes the frame over.** -/
theorem accounted_posthandle {ret : RxRet} (hr : a.running = true)
    (h : Accounted (f.id :: hand) a) (hok : PostOk aes a f)
    (hd : recvFuncPosthandle os aes a f = .done (a', ret)) : Accounted hand a' := by
  rcases recvFuncPosthandle_cases hd with hpost | ⟨b, k, c, hpost, hproc, hend⟩
  · rcases accounted_posthandleFrame h hpost with ⟨-, -, hacc⟩ | ⟨k, hx, -⟩
    · exact hacc
    · exact absurd hx (by simp)
  · rcases accounted_posthandleFrame h hpost with ⟨r, hx, -⟩ | ⟨k', hx, hacc⟩
    · exact absurd hx (by simp)
    · obtain rfl := Sum.inl.inj hx
      have hrb : b.running = true := by rw [(sameConfig_posthandleFrame hpost).running, hr]
      rcases accounted_processRecvIndicatepkts hrb hacc hproc with ⟨rfl, hc⟩ | ⟨rfl, hc⟩
      · rcases hend with ⟨-, rfl⟩ | ⟨hne, -⟩
        · exact hc
        · exact absurd rfl hne
      · -- refused: what is freed is the frame that was handled
        rcases hend with ⟨he, -⟩ | ⟨-, rfl⟩
        · exact absurd he (by simp)
        · cases hl : isLastFragment f with
          | true =>
              -- the MSDU of a last fragment is taken
              have htaken := postOk_iff.mp hok hl b k hpost
              exact absurd ((processRecvIndicatepkts_ret hrb hproc).mpr htaken) (by simp)
          | false =>
              refine accounted_free ?_
              rw [← posthandleFrame_id hl hpost]
              exact hc

end

end Rtl8812au
