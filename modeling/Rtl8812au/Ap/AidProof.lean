import Rtl8812au.Ap.Mlme
import Rtl8812au.Ap.IndicationProof

/-!
# Slots and AIDs

What `sta_hash`, `free_sta_queue`, `sta_aid` and the AIDs of the stations say about each
other, and what keeps it: everything the queues do, and the three functions that change one
of them.
-/

namespace Rtl8812au

/-! ## What traffic leaves alone -/

/-- The stations, their addresses and their AIDs are the same. -/
structure SameAids (p p' : StaPriv) : Prop where
  sta : ∀ k, (p'.sta k).hwaddr = (p.sta k).hwaddr ∧ (p'.sta k).aid = (p.sta k).aid
  staAid : p'.staAid = p.staAid
  staHash : p'.staHash = p.staHash
  freeStaQueue : p'.freeStaQueue = p.freeStaQueue
  maxNumSta : p'.maxNumSta = p.maxNumSta

namespace SameAids

variable {p₀ p p' : StaPriv}

theorem refl (p : StaPriv) : SameAids p p := ⟨fun _ => ⟨rfl, rfl⟩, rfl, rfl, rfl, rfl⟩

theorem trans (h : SameAids p₀ p) (h' : SameAids p p') : SameAids p₀ p' where
  sta k := ⟨(h'.sta k).1.trans (h.sta k).1, (h'.sta k).2.trans (h.sta k).2⟩
  staAid := h'.staAid.trans h.staAid
  staHash := h'.staHash.trans h.staHash
  freeStaQueue := h'.freeStaQueue.trans h.freeStaQueue
  maxNumSta := h'.maxNumSta.trans h.maxNumSta

theorem queuesOnly (h : SameAids p₀ p) (hq : QueuesOnly p p') : SameAids p₀ p' := by
  refine ⟨fun k => ?_, hq.staAid.trans h.staAid, hq.staHash.trans h.staHash,
    hq.freeStaQueue.trans h.freeStaQueue, hq.maxNumSta.trans h.maxNumSta⟩
  rw [hq.sta k]
  exact h.sta k

theorem updSta (h : SameAids p₀ p) {s : StaSlot} {u : TxSta → TxSta}
    (hu : (u (p.sta s)).hwaddr = (p.sta s).hwaddr ∧ (u (p.sta s)).aid = (p.sta s).aid) :
    SameAids p₀ (p.updSta s u) := by
  refine ⟨fun k => ?_, h.staAid, h.staHash, h.freeStaQueue, h.maxNumSta⟩
  by_cases hk : k = s
  · subst hk
    rw [StaPriv.updSta_self]
    exact ⟨hu.1.trans (h.sta k).1, hu.2.trans (h.sta k).2⟩
  · rw [StaPriv.updSta_ne _ _ hk]
    exact h.sta k

theorem pull (h : SameAids p₀ p) {s : StaSlot} (q : List TxFrame) (ac : Bool) :
    SameAids p₀ (p.updSta s fun x => x.pull q ac) :=
  h.updSta (u := fun x => x.pull q ac) ⟨rfl, rfl⟩

/-- The bitmaps do not enter into it. -/
theorem bitmaps (h : SameAids p₀ p) (dz tim : BitVec 16) (bcn : List (BitVec 16)) :
    SameAids p₀ { p with staDzBitmap := dz, timBitmap := tim, bcnTim := bcn } :=
  ⟨h.sta, h.staAid, h.staHash, h.freeStaQueue, h.maxNumSta⟩

theorem markTim (h : SameAids p₀ p) (aid : Nat) : SameAids p₀ (p.markTim aid) := by
  rw [markTim_eq]
  exact h.bitmaps _ _ _

theorem enqueueForSleepingSta (h : SameAids p₀ p) (f : TxFrame) :
    SameAids p₀ (Rtl8812au.enqueueForSleepingSta p f).1 := by
  obtain ⟨heq, -⟩ | ⟨s, -, -, -, -, ⟨-, -, heq⟩ | ⟨-, -, heq⟩⟩ := enqueueForSleepingSta_cases p f
  · rw [heq]
    exact h
  · rw [heq]
    have hpush := h.updSta (s := s) (u := fun x => x.push f false) ⟨rfl, rfl⟩
    exact (hpush.markTim 0).bitmaps _ _ _
  · rw [heq]
    unfold enqueueUc
    have hpush := h.updSta (s := s)
      (u := fun x => x.push f ((p.sta s).uapsd (acOf f.priority)).delivery) ⟨rfl, rfl⟩
    dsimp only
    split
    · exact hpush.markTim _
    · exact hpush

theorem wakeupStaToXmit (h : SameAids p₀ p) (s : StaSlot) :
    SameAids p₀ (Rtl8812au.wakeupStaToXmit p s) := by
  have hloop : SameAids p₀ (wakeupLoop s p (p.sta s).sleepQ) :=
    (wakeupLoop_rule (P := SameAids p₀) (fun hq h => h.queuesOnly hq)
      (fun h _ => h.pull _ _) _ h rfl).1
  have hsta : SameAids p₀ (wakeupSta p s).1 := by
    unfold wakeupSta
    dsimp only
    split
    · exact (hloop.updSta (u := fun x =>
        { x with
          sleep := false
          expireTo := if x.authSuccess then (wakeupLoop s p (p.sta s).sleepQ).expireTo
            else x.expireTo
          authSuccess := false }) ⟨rfl, rfl⟩).bitmaps _ _ _
    · exact hloop
  have hbmc : ∀ b, SameAids p₀ (wakeupBmc (wakeupSta p s).1 b).1 := by
    intro b
    unfold wakeupBmc
    split
    · have hbloop := (wakeupBmcLoop_rule (P := SameAids p₀) (fun hq h => h.queuesOnly hq)
        (fun h _ => h.pull _ _) (((wakeupSta p s).1.sta b).sleepQ) hsta rfl).1
      dsimp only
      split
      · exact hbloop.bitmaps _ _ _
      · exact hbloop
    · exact hsta
  unfold Rtl8812au.wakeupStaToXmit
  split
  · dsimp only
    split
    · exact hsta.bitmaps _ _ _
    · exact hsta
  · dsimp only
    split
    · exact (hbmc _).bitmaps _ _ _
    · exact hbmc _

theorem recvPsPoll (h : SameAids p₀ p) (ta : MacAddr) (aid priority : Nat) :
    SameAids p₀ (Rtl8812au.recvPsPoll p ta aid priority) := by
  rcases recvPsPoll_cases p ta aid priority with heq | ⟨s, -, heq | ⟨-, hrest⟩⟩
  · rw [heq]
    exact h
  · rw [heq]
    exact h.updSta (u := touched p.expireTo) ⟨rfl, rfl⟩
  · have htouch := h.updSta (s := s) (u := touched p.expireTo) ⟨rfl, rfl⟩
    rcases hrest with ⟨f, q, f', -, heq⟩ | ⟨-, heq⟩
    · rw [heq]
      have hsent := (htouch.pull (s := s) q false).queuesOnly (QueuesOnly.halEnqueue _ f')
      split
      · exact hsent.bitmaps _ _ _
      · exact hsent
    · rw [heq]
      exact (htouch.updSta (s := s) (u := fun x => { x with sleepqLen := 0 })
        ⟨rfl, rfl⟩).bitmaps _ _ _

theorem psStep {op : PsOp} (h : SameAids p₀ p) (htraffic : op.traffic = true)
    (hstep : Rtl8812au.psStep p op = .done p') : SameAids p₀ p' := by
  unfold Rtl8812au.psStep at hstep
  split at hstep
  · cases op with
    | enqueue f => cases hstep; exact h.enqueueForSleepingSta f
    | classify f => cases hstep; exact h.queuesOnly (QueuesOnly.halEnqueue p f)
    | dequeue inx =>
        cases hstep
        cases hdeq : rtwDequeueXframe p inx with
        | none => exact h
        | some r => exact h.queuesOnly (QueuesOnly.dequeueXframe hdeq)
    | stop s =>
        refine stopStaXmit_rule (P := SameAids p₀) (fun hq h => h.queuesOnly hq)
          (fun f h => h.enqueueForSleepingSta f) (fun dz => ?_) hstep
        exact (h.updSta (s := s) (u := fun x => { x with sleep := true }) ⟨rfl, rfl⟩).bitmaps
          dz p.timBitmap p.bcnTim
    | wakeup s => cases hstep; exact h.wakeupStaToXmit s
    | deliver s =>
        cases hstep
        exact deliverLoop_rule (P := SameAids p₀) (fun hq h => h.queuesOnly hq)
          (fun h _ _ => h.pull _ _) (fun h _ _ _ => h.bitmaps _ _ _) _ _ h rfl
          (List.Subset.refl _)
    | psPoll ta aid priority => cases hstep; exact h.recvPsPoll ta aid priority
    | _ => cases htraffic
  · cases hstep
    exact h

end SameAids

theorem sameAids_assocQos (p : StaPriv) (s : StaSlot) (wmm : Option Nat) :
    SameAids p (assocQos p s wmm) := by
  refine (SameAids.refl p).updSta ?_
  cases wmm with
  | none => exact ⟨rfl, rfl⟩
  | some info => exact ⟨rfl, rfl⟩

/-- One more station in a list that names each once. -/
theorem nodup_snoc {l : List StaSlot} {s : StaSlot} (h : l.Nodup) (hs : s ∉ l) :
    (l ++ [s]).Nodup := by
  refine List.nodup_append.mpr ⟨h, by simp, ?_⟩
  intro k hk x hx he
  rw [he, List.mem_singleton.mp hx] at hk
  exact hs hk

/-! ## The AIDs -/

/-- A slot is free or allocated, and `sta_aid` and the AIDs of the stations say the same. -/
structure AidsOk (p : StaPriv) : Prop where
  max : p.maxNumSta ≤ numSta
  freeNodup : p.freeStaQueue.Nodup
  free : ∀ s ∈ p.freeStaQueue, s ∉ p.staHash
  aidTable : ∀ s ∈ p.staHash, 0 < (p.sta s).aid → p.staAid ((p.sta s).aid - 1) = some s
  tableAid : ∀ k s, p.staAid k = some s → s ∈ p.staHash ∧ (p.sta s).aid = k + 1

namespace AidsOk

variable {p p' : StaPriv} {s : StaSlot}

theorem same (h : AidsOk p) (hs : SameAids p p') : AidsOk p' := by
  obtain ⟨hsta, haid, hhash, hfree, hmax⟩ := hs
  refine ⟨?_, ?_, ?_, ?_, ?_⟩
  · rw [hmax]
    exact h.max
  · rw [hfree]
    exact h.freeNodup
  · rw [hfree, hhash]
    exact h.free
  · intro k hk hpos
    rw [hhash] at hk
    rw [(hsta k).2] at hpos ⊢
    rw [haid]
    exact h.aidTable k hk hpos
  · intro k x hx
    rw [haid] at hx
    rw [hhash, (hsta x).2]
    exact h.tableAid k x hx

/-- `rtw_alloc_stainfo` takes a slot that nothing knows. -/
theorem allocStainfo {addr : MacAddr} (h : AidsOk p)
    (halloc : Rtl8812au.allocStainfo p addr = some (s, p')) :
    AidsOk p' ∧ s ∉ p.staHash ∧ p'.staHash = p.staHash ++ [s] ∧ ∀ k, k ≠ s → p'.sta k = p.sta k := by
  unfold Rtl8812au.allocStainfo at halloc
  split at halloc
  · cases halloc
  · rename_i x q hfree
    cases halloc
    have hnew : s ∉ p.staHash := h.free s (by rw [hfree]; exact List.mem_cons_self ..)
    have hq : s ∉ q ∧ q.Nodup := by
      have hnd := h.freeNodup
      rw [hfree] at hnd
      exact List.nodup_cons.mp hnd
    have hother : ∀ k, k ≠ s → ({ p.updSta s (fun _ => { hwaddr := addr }) with
        freeStaQueue := q, staHash := p.staHash ++ [s] } : StaPriv).sta k = p.sta k :=
      fun k hk => if_neg hk
    refine ⟨⟨h.max, hq.2, ?_, ?_, ?_⟩, hnew, rfl, hother⟩
    · intro k hk hmem
      rcases List.mem_append.mp hmem with hold | hnewk
      · exact h.free k (by rw [hfree]; exact List.mem_cons_of_mem _ hk) hold
      · rw [List.mem_singleton.mp hnewk] at hk
        exact hq.1 hk
    · intro k hk hpos
      by_cases hks : k = s
      · -- the new station has no AID
        subst hks
        rw [show (({ p.updSta k (fun _ => { hwaddr := addr }) with
          freeStaQueue := q, staHash := p.staHash ++ [k] } : StaPriv).sta k).aid = 0 by
            simp [StaPriv.updSta]] at hpos
        exact absurd hpos (Nat.lt_irrefl 0)
      · rw [hother k hks] at hpos ⊢
        rcases List.mem_append.mp hk with hold | hnewk
        · exact h.aidTable k hold hpos
        · exact absurd (List.mem_singleton.mp hnewk) hks
    · intro k x hx
      obtain ⟨hmem, haid⟩ := h.tableAid k x hx
      have hxs : x ≠ s := fun e => hnew (e ▸ hmem)
      rw [hother x hxs]
      exact ⟨List.mem_append_left _ hmem, haid⟩

/-- `rtw_free_stainfo` gives the AID back. -/
theorem freeStainfo (h : AidsOk p) (hs : s ∈ p.staHash) : AidsOk (Rtl8812au.freeStainfo p s) := by
  have hf := freed_freeStainfo p s
  generalize Rtl8812au.freeStainfo p s = p' at hf ⊢
  have hother : ∀ k, k ≠ s → (p'.sta k).aid = (p.sta k).aid := by
    intro k hk
    exact (congrArg TxSta.aid (hf.others k hk)).trans rfl
  -- the entry of `sta_aid` that points to `s` is the one of its AID
  have htable : ∀ k x, p'.staAid k = some x → p.staAid k = some x ∧ x ≠ s := by
    intro k x hx
    rcases Nat.eq_zero_or_pos (p.sta s).aid with h0 | hpos
    · rw [(hf.kept (Or.inr h0)).2] at hx
      refine ⟨hx, ?_⟩
      rintro rfl
      have := (h.tableAid k x hx).2
      omega
    · have hgiven := (hf.given (h.aidTable s hs hpos) hpos).2
      rw [hgiven] at hx
      dsimp only at hx
      split at hx
      · cases hx
      · rename_i hk
        refine ⟨hx, ?_⟩
        rintro rfl
        have := (h.tableAid k x hx).2
        omega
  have hkept : ∀ k, k ≠ (p.sta s).aid - 1 ∨ (p.sta s).aid = 0 → p'.staAid k = p.staAid k := by
    intro k hk
    rcases Nat.eq_zero_or_pos (p.sta s).aid with h0 | hpos
    · rw [(hf.kept (Or.inr h0)).2]
    · rw [(hf.given (h.aidTable s hs hpos) hpos).2]
      exact if_neg (hk.resolve_right (by omega))
  refine ⟨?_, ?_, ?_, ?_, ?_⟩
  · rw [hf.maxNumSta]
    exact h.max
  · rw [hf.freeStaQueue]
    exact nodup_snoc h.freeNodup fun hmem => h.free s hmem hs
  · intro k hk hmem
    rw [hf.freeStaQueue] at hk
    rw [hf.staHash] at hmem
    obtain ⟨hmem, hne⟩ := List.mem_filter.mp hmem
    rcases List.mem_append.mp hk with hold | hnew
    · exact h.free k hold hmem
    · simp [List.mem_singleton.mp hnew] at hne
  · intro k hk hpos
    rw [hf.staHash] at hk
    obtain ⟨hk, hne⟩ := List.mem_filter.mp hk
    have hks : k ≠ s := by simpa using hne
    rw [hother k hks] at hpos ⊢
    have hsame := h.aidTable k hk hpos
    refine (hkept _ ?_).trans hsame
    by_contra hno
    rw [not_or, not_not] at hno
    have := h.aidTable s hs (Nat.pos_of_ne_zero hno.2)
    rw [← hno.1, hsame] at this
    exact hks (Option.some.inj this)
  · intro k x hx
    obtain ⟨hold, hxs⟩ := htable k x hx
    obtain ⟨hmem, haid⟩ := h.tableAid k x hold
    rw [hf.staHash, hother x hxs]
    exact ⟨List.mem_filter.mpr ⟨hmem, by simpa using hxs⟩, haid⟩

/-- "get a unique AID": the station has one then, and no other station loses its own. -/
theorem assocAid (h : AidsOk p) (hs : s ∈ p.staHash) (ha : Rtl8812au.assocAid p s = some p') :
    AidsOk p' ∧ 0 < (p'.sta s).aid ∧ p'.staHash = p.staHash ∧
      ∀ k, k ≠ s → p'.sta k = p.sta k := by
  unfold Rtl8812au.assocAid at ha
  split at ha
  -- it has an AID from an earlier association
  · rename_i hpos
    cases ha
    exact ⟨h, hpos, rfl, fun _ _ => rfl⟩
  · rename_i hzero
    split at ha
    · cases ha
    · rename_i hroom
      obtain ⟨hpos, hfree⟩ := freeAid_spec h.max hroom
      cases ha
      have hself : (({ p.updSta s (fun x => { x with aid := p.freeAid }) with
          staAid := fun k => if k = p.freeAid - 1 then some s else p.staAid k } : StaPriv).sta
            s).aid = p.freeAid := by
        simp [StaPriv.updSta]
      have hother : ∀ k, k ≠ s → ({ p.updSta s (fun x => { x with aid := p.freeAid }) with
          staAid := fun k => if k = p.freeAid - 1 then some s else p.staAid k } : StaPriv).sta k =
            p.sta k := fun k hk => if_neg hk
      refine ⟨⟨h.max, h.freeNodup, h.free, ?_, ?_⟩, ?_, rfl, hother⟩
      -- every station with an AID is in the table: this one at the free place, the others as before
      · intro k hk hkpos
        by_cases hks : k = s
        · subst hks
          rw [hself]
          exact if_pos rfl
        · rw [hother k hks] at hkpos ⊢
          have hold := h.aidTable k hk hkpos
          refine (if_neg ?_).trans hold
          intro he
          rw [he, hfree] at hold
          cases hold
      -- and the table names stations with that AID only
      · intro k x hx
        dsimp only at hx
        split at hx
        · rename_i hk
          cases hx
          rw [hself]
          exact ⟨hs, by omega⟩
        · obtain ⟨hmem, haid⟩ := h.tableAid k x hx
          have hxs : x ≠ s := by
            rintro rfl
            omega
          rw [hother x hxs]
          exact ⟨hmem, haid⟩
      · rw [hself]
        exact hpos

end AidsOk

theorem aidsOk_init (apState : Bool) (hiq : HiqFilter) (expireTo : Nat) {maxNumSta : Nat}
    (hmax : maxNumSta ≤ numSta) : AidsOk (initStaPriv apState hiq expireTo maxNumSta) := by
  refine ⟨hmax, List.nodup_finRange numSta, ?_, ?_, ?_⟩
  · intro s _ hs
    cases hs
  · intro s hs
    cases hs
  · intro k s hs
    cases hs

end Rtl8812au
