import Rtl8812au.Recv.Path

/-!
# What the receive path leaves alone

Behind validation a frame moves between queues and packets go up. Nothing else about the
driver changes but the buffer and the flag of the decryption functions, so a station that
was found for a frame is found again, and a port that was closed stays closed.
-/

namespace Rtl8812au

/-- Everything but the queues, the receive caches and the records of packets is as it was. -/
structure SameConfig (a b : Adapter) : Prop where
  mlme : b.mlme = a.mlme
  sec : b.sec = { a.sec with hwDecrypted := b.sec.hwDecrypted }
  myid : b.myid = a.myid
  mpMode : b.mpMode = a.mpMode
  bRTWSmbCfg : b.bRTWSmbCfg = a.bRTWSmbCfg
  rxBindicatePkt : b.rxBindicatePkt = a.rxBindicatePkt
  running : b.running = a.running
  freeStaQueue : b.freeStaQueue = a.freeStaQueue
  staHash : b.staHash = a.staHash
  sta : ∀ s, b.sta s = { a.sta s with
    tidRxseq := (b.sta s).tidRxseq, defragQ := (b.sta s).defragQ
    recvreorderCtrl := (b.sta s).recvreorderCtrl }

namespace SameConfig

variable {a b c : Adapter}

theorem refl (a : Adapter) : SameConfig a a :=
  ⟨rfl, rfl, rfl, rfl, rfl, rfl, rfl, rfl, rfl, fun _ => rfl⟩

theorem trans (h : SameConfig a b) (h' : SameConfig b c) : SameConfig a c := by
  refine ⟨h'.mlme.trans h.mlme, ?_, h'.myid.trans h.myid, h'.mpMode.trans h.mpMode,
    h'.bRTWSmbCfg.trans h.bRTWSmbCfg, h'.rxBindicatePkt.trans h.rxBindicatePkt,
    h'.running.trans h.running, h'.freeStaQueue.trans h.freeStaQueue,
    h'.staHash.trans h.staHash, ?_⟩
  · rw [h'.sec, h.sec]
  · intro s
    rw [h'.sta s, h.sta s]

theorem hwaddr (h : SameConfig a b) (s : StaSlot) : (b.sta s).hwaddr = (a.sta s).hwaddr := by
  rw [h.sta s]

theorem getStainfo (h : SameConfig a b) (addr : MacAddr) :
    rtwGetStainfo b addr = rtwGetStainfo a addr := by
  unfold rtwGetStainfo
  dsimp only
  rw [h.staHash]
  refine congrArg (fun p => List.find? p a.staHash) ?_
  funext s
  rw [h.hwaddr s]

theorem relays (h : SameConfig a b) (dst : MacAddr) :
    Rtl8812au.relays b dst = Rtl8812au.relays a dst := by
  unfold Rtl8812au.relays rtwGetBcmcStainfo
  rw [h.mlme, h.myid, h.getStainfo, h.getStainfo]

theorem goesUp (h : SameConfig a b) (dst : MacAddr) (ok : Bool) :
    Rtl8812au.goesUp b dst ok = Rtl8812au.goesUp a dst ok := by
  unfold Rtl8812au.goesUp
  rw [h.relays]

theorem portBlocked (h : SameConfig a b) (f : RecvFrame) :
    Rtl8812au.portBlocked b f = Rtl8812au.portBlocked a f := by
  unfold Rtl8812au.portBlocked
  rw [h.getStainfo, h.sec]
  cases rtwGetStainfo a f.attrib.ta with
  | none => rfl
  | some s =>
      dsimp only
      rw [h.sta s]

end SameConfig

/-! ## Moving frames -/

section

variable (a : Adapter) (f : RecvFrame)

theorem sameConfig_free : SameConfig a (rtwFreeRecvframe a f) :=
  ⟨rfl, rfl, rfl, rfl, rfl, rfl, rfl, rfl, rfl, fun _ => rfl⟩

theorem sameConfig_updDefrag (s : StaSlot) (q : List RecvFrame) :
    SameConfig a (a.updSta s fun x => { x with defragQ := q }) := by
  refine ⟨rfl, rfl, rfl, rfl, rfl, rfl, rfl, rfl, rfl, ?_⟩
  intro k
  unfold Adapter.updSta
  dsimp only
  split <;> rfl

theorem sameConfig_updReorder (s : StaSlot) (t : Tid) (c : RecvReorderCtrl) :
    SameConfig a (a.updReorder s t c) := by
  refine ⟨rfl, rfl, rfl, rfl, rfl, rfl, rfl, rfl, rfl, ?_⟩
  intro k
  unfold Adapter.updReorder Adapter.updSta
  dsimp only
  split <;> rfl

end

theorem sameConfig_freeQueue : ∀ (q : List RecvFrame) (a : Adapter),
    SameConfig a (rtwFreeRecvframeQueue a q) := by
  intro q
  induction q with
  | nil => intro a; exact SameConfig.refl a
  | cons g q ih => intro a; exact (sameConfig_free a g).trans (ih _)

section

variable {a a' : Adapter} {f : RecvFrame} {r : Option RecvFrame}

/-- `recvframe_chk_defrag` works on the queue of the station it finds, or on none. -/
theorem recvframeChkDefrag_slot (hd : recvframeChkDefrag a f = .done (a', r)) :
    ∃ slot, chkDefragIn a slot f = .done (a', r) := by
  unfold recvframeChkDefrag at hd
  split at hd
  · exact ⟨_, hd⟩
  · split at hd
    · exact ⟨_, hd⟩
    · split at hd
      · exact ⟨_, hd⟩
      · split at hd
        · exact ⟨_, hd⟩
        · exact absurd hd (by simp)

/-- The adapter with `defrag_q` as `recvframe_chk_defrag` writes it, before anything is freed. -/
def writeDefragQ (a : Adapter) (slot : Option StaSlot) (f : RecvFrame) : Adapter :=
  match slot, (chkDefragQueue (slot.map fun s => (a.sta s).defragQ) f).queue with
  | some s, some q => a.updSta s fun x => { x with defragQ := q }
  | _, _ => a

/-- After the queue is written `recvframe_chk_defrag` only frees frames. -/
theorem chkDefragIn_frees {P : Adapter → Prop} {slot : Option StaSlot}
    (hfree : ∀ {a} g, P a → P (rtwFreeRecvframe a g)) (h : P (writeDefragQ a slot f))
    (hd : chkDefragIn a slot f = .done (a', r)) : P a' := by
  have hqueue : ∀ (q : List RecvFrame) {a : Adapter}, P a → P (rtwFreeRecvframeQueue a q) := by
    intro q
    induction q with
    | nil => intro a h; exact h
    | cons g q ih => intro a h; exact ih (hfree g h)
  have hmic : ∀ {a : Adapter} {x : Option RecvFrame}, P a → chkDefragMic a x = .done (a', r) →
      P a' := by
    intro a x h hd
    unfold chkDefragMic at hd
    cases x with
    | none =>
        obtain ⟨rfl, -⟩ := Prod.mk.inj (Outcome.done.inj hd)
        exact h
    | some f =>
        dsimp only at hd
        split at hd
        · obtain ⟨rfl, -⟩ := Prod.mk.inj (Outcome.done.inj hd)
          exact h
        · obtain ⟨⟨g, ok⟩, -, hd⟩ := Outcome.bind_eq_done.mp hd
          dsimp only at hd
          split at hd
          · obtain ⟨rfl, -⟩ := Prod.mk.inj (Outcome.done.inj hd)
            exact h
          · obtain ⟨rfl, -⟩ := Prod.mk.inj (Outcome.done.inj hd)
            exact hfree g h
  unfold chkDefragIn at hd
  dsimp only at hd
  split at hd
  · exact hmic (hqueue _ h) hd
  · exact absurd hd (by simp)

/-- **What freeing a frame and writing a `defrag_q` keep** is kept by `recvframe_chk_defrag`. -/
theorem chkDefrag_keeps {P : Adapter → Prop} (hfree : ∀ {a} g, P a → P (rtwFreeRecvframe a g))
    (hupd : ∀ {a} s q, P a → P (a.updSta s fun x => { x with defragQ := q })) (h : P a)
    (hd : recvframeChkDefrag a f = .done (a', r)) : P a' := by
  obtain ⟨slot, hd⟩ := recvframeChkDefrag_slot hd
  refine chkDefragIn_frees hfree ?_ hd
  unfold writeDefragQ
  split
  · exact hupd _ _ h
  · exact h

theorem sameConfig_chkDefrag (hd : recvframeChkDefrag a f = .done (a', r)) : SameConfig a a' :=
  chkDefrag_keeps (fun g h => h.trans (sameConfig_free _ g))
    (fun s q h => h.trans (sameConfig_updDefrag _ s q)) (SameConfig.refl a) hd

end

/-! ## Indication -/

section

variable {os : Os}

theorem sameConfig_osIndicate (a : Adapter) (dst : MacAddr) (ok : Bool) (p : Pkt) :
    SameConfig a (rtwOsRecvIndicatePkt a dst ok p) :=
  ⟨rfl, rfl, rfl, rfl, rfl, rfl, rfl, rfl, rfl, fun _ => rfl⟩

theorem sameConfig_recvIndicatepkt (a : Adapter) (f : RecvFrame) :
    SameConfig a (rtwRecvIndicatepkt os a f) := by
  unfold rtwRecvIndicatepkt
  dsimp only
  split
  · exact (sameConfig_osIndicate a _ _ _).trans (sameConfig_free _ f)
  · exact sameConfig_free a f

theorem sameConfig_indicateSubframes {f : RecvFrame} : ∀ (ps : List Pkt) (k : Nat) (a : Adapter),
    SameConfig a (indicateSubframes os f k ps a)
  | [], _, a => SameConfig.refl a
  | p :: ps, k, a => by
      rw [indicateSubframes]
      exact (sameConfig_osIndicate a _ _ p).trans (sameConfig_indicateSubframes ps (k + 1) _)

theorem sameConfig_indicateFrame (a : Adapter) (f : RecvFrame) (up : Bool) :
    SameConfig a (indicateFrame os a f up) := by
  unfold indicateFrame
  split
  · exact (sameConfig_indicateSubframes _ 0 a).trans (sameConfig_free _ f)
  · split
    · exact sameConfig_recvIndicatepkt a f
    · exact SameConfig.refl a

theorem sameConfig_indicateFrames {up : Bool} : ∀ (q : List RecvFrame) (a : Adapter),
    SameConfig a (q.foldl (fun b g => indicateFrame os b g up) a)
  | [], a => SameConfig.refl a
  | g :: q, a => by
      rw [List.foldl_cons]
      exact (sameConfig_indicateFrame a g up).trans (sameConfig_indicateFrames q _)

theorem sameConfig_processRecvIndicatepkts {a a' : Adapter} {f : RecvFrame} {ret : RxRet}
    (hd : processRecvIndicatepkts os a f = .done (a', ret)) : SameConfig a a' := by
  unfold processRecvIndicatepkts at hd
  dsimp only at hd
  split at hd
  · split at hd
    · exact absurd hd (by simp)
    · obtain ⟨rfl, -⟩ := Prod.mk.inj (Outcome.done.inj hd)
      exact (sameConfig_updReorder a _ _ _).trans (sameConfig_indicateFrames _ _)
  · split at hd
    · obtain ⟨rfl, -⟩ := Prod.mk.inj (Outcome.done.inj hd)
      exact SameConfig.refl a
    · split at hd
      · obtain ⟨rfl, -⟩ := Prod.mk.inj (Outcome.done.inj hd)
        exact sameConfig_recvIndicatepkt a _
      · obtain ⟨rfl, -⟩ := Prod.mk.inj (Outcome.done.inj hd)
        exact SameConfig.refl a

end

/-! ## Decryption -/

section

variable {aes : AesKey → BlockMode.Block → BlockMode.Block} {sec : SecurityPriv}
variable {stainfo : Option StaInfo} {message : Mem} {f : RecvFrame}

/-- A decryption function changes the buffer of the frame and nothing else. -/
theorem swDecryptSwitch_frame {g : RecvFrame} {m : Mem} {ok : Bool}
    (h : swDecryptSwitch aes sec stainfo message f = .done (g, m, ok)) :
    g = { f with buf := g.buf } := by
  unfold swDecryptSwitch at h
  split at h
  · unfold rtwWepDecrypt at h
    dsimp only at h
    split_ifs at h
    rw [← (Prod.mk.inj (Outcome.done.inj h)).1]
    rfl
  · unfold rtwWepDecrypt at h
    dsimp only at h
    split_ifs at h
    rw [← (Prod.mk.inj (Outcome.done.inj h)).1]
    rfl
  · unfold rtwTkipDecrypt at h
    cases stainfo with
    | none => rw [← (Prod.mk.inj (Outcome.done.inj h)).1]
    | some psta =>
        dsimp only at h
        split_ifs at h
        · rw [← (Prod.mk.inj (Outcome.done.inj h)).1]
        · rw [← (Prod.mk.inj (Outcome.done.inj h)).1]; rfl
  · unfold rtwAesDecrypt at h
    cases stainfo with
    | none => rw [← (Prod.mk.inj (Outcome.done.inj h)).1]
    | some psta =>
        dsimp only at h
        split_ifs at h
        · rw [← (Prod.mk.inj (Outcome.done.inj h)).1]
        · rw [← (Prod.mk.inj (Outcome.done.inj h)).1]
        · rw [← (Prod.mk.inj (Outcome.done.inj h)).1]
  · rw [← (Prod.mk.inj (Outcome.done.inj h)).1]

/-- `g` is `f` decrypted: the buffer, the key index and the mark may differ. -/
def Reopened (f g : RecvFrame) : Prop :=
  g = { f with buf := g.buf, attrib := { f.attrib with
    keyIndex := g.attrib.keyIndex, bdecrypted := g.attrib.bdecrypted } }

theorem readKeyIndex_reopened (f : RecvFrame) : Reopened f (readKeyIndex f) := by
  unfold readKeyIndex
  split <;> rfl

/-- **`decryptor` gives the frame back or frees it**, and touches the flag of the last
decryption and no other setting. -/
theorem decryptor_cases {d : Decrypted} (h : decryptor aes sec stainfo message f = .done d) :
    d.sec = { sec with hwDecrypted := d.sec.hwDecrypted }
      ∧ ((∃ g, d.frame = some g ∧ d.freed = none ∧ Reopened f g)
        ∨ (∃ g, d.frame = none ∧ d.freed = some g ∧ g.id = f.id)) := by
  have hread := readKeyIndex_reopened f
  unfold decryptor at h
  dsimp only at h
  generalize readKeyIndex f = k at h hread
  split at h
  · split at h
    · exact absurd h (by simp)
    · exact absurd h (by simp)
    · rename_i g m hsw
      have hg := swDecryptSwitch_frame hsw
      obtain rfl := Outcome.done.inj h
      refine ⟨rfl, Or.inl ⟨_, rfl, rfl, ?_⟩⟩
      unfold Reopened at hread ⊢
      rw [hg, hread]
    · rename_i g m hsw
      have hg := swDecryptSwitch_frame hsw
      obtain rfl := Outcome.done.inj h
      refine ⟨rfl, Or.inr ⟨_, rfl, rfl, ?_⟩⟩
      rw [hg, hread]
  · obtain rfl := Outcome.done.inj h
    refine ⟨?_, Or.inl ⟨_, rfl, rfl, ?_⟩⟩
    · dsimp only
      split <;> rfl
    · unfold Reopened at hread ⊢
      rw [hread]

end

/-! ## Behind validation -/

section

variable {aes : AesKey → BlockMode.Block → BlockMode.Block} {a a' : Adapter} {f : RecvFrame}

/-- **`recv_func_posthandle` before it indicates**, unfolded once: refused by `decryptor`,
held or refused by `recvframe_chk_defrag`, refused by `portctrl`, or let through. -/
theorem posthandleFrame_cases {x : RecvFrame ⊕ RxRet}
    (h : posthandleFrame aes a f = .done (a', x)) :
    ∃ d, decryptor aes a.sec ((rtwGetStainfo a f.attrib.ta).map a.sta) a.message f = .done d
      ∧ SameConfig a { a with sec := d.sec, message := d.message }
      ∧ ((∃ g, d.frame = none ∧ g.id = f.id ∧ x = .inr .fail
          ∧ a' = rtwFreeRecvframe { a with sec := d.sec, message := d.message } g)
        ∨ ∃ g b r, d.frame = some g ∧ Reopened f g
          ∧ recvframeChkDefrag { a with sec := d.sec, message := d.message } g = .done (b, r)
          ∧ ((r = none ∧ x = .inr .success ∧ a' = b)
            ∨ ∃ k, r = some k
              ∧ ((portctrl b k = (rtwFreeRecvframe b k, none) ∧ x = .inr .fail
                  ∧ a' = rtwFreeRecvframe b k)
                ∨ (portctrl b k = (b, some k) ∧ x = .inl k ∧ a' = b)))) := by
  unfold posthandleFrame at h
  dsimp only at h
  obtain ⟨d, hd, h⟩ := Outcome.bind_eq_done.mp h
  obtain ⟨hsec, hcases⟩ := decryptor_cases hd
  refine ⟨d, hd, ⟨rfl, hsec, rfl, rfl, rfl, rfl, rfl, rfl, rfl, fun _ => rfl⟩, ?_⟩
  rcases hcases with ⟨g, hfr, -, hre⟩ | ⟨g, hfr, hfreed, hid⟩
  · right
    rw [hfr] at h
    obtain ⟨⟨b, r⟩, hchk, h⟩ := Outcome.bind_eq_done.mp h
    refine ⟨g, b, r, hfr, hre, hchk, ?_⟩
    cases r with
    | none =>
        obtain ⟨rfl, rfl⟩ := Prod.mk.inj (Outcome.done.inj h)
        exact Or.inl ⟨rfl, rfl, rfl⟩
    | some k =>
        right
        refine ⟨k, rfl, ?_⟩
        unfold portctrl at h ⊢
        dsimp only at h
        -- port control frees the frame or lets it on
        split at h
        · rename_i hp
          split_ifs at hp with hb
          · rw [if_pos hb]
            obtain ⟨hp1, -⟩ := Prod.mk.inj hp
            obtain ⟨rfl, rfl⟩ := Prod.mk.inj (Outcome.done.inj h)
            exact Or.inl ⟨rfl, rfl, hp1.symm⟩
          · exact absurd (Prod.mk.inj hp).2 (by simp)
        · rename_i hp
          split_ifs at hp with hb
          · exact absurd (Prod.mk.inj hp).2 (by simp)
          · rw [if_neg hb]
            obtain ⟨hp1, hp2⟩ := Prod.mk.inj hp
            obtain ⟨rfl, rfl⟩ := Prod.mk.inj (Outcome.done.inj h)
            exact Or.inr ⟨rfl, congrArg Sum.inl (Option.some.inj hp2).symm, hp1.symm⟩
  · left
    rw [hfr, hfreed] at h
    obtain ⟨rfl, rfl⟩ := Prod.mk.inj (Outcome.done.inj h)
    exact ⟨g, hfr, hid, rfl, rfl⟩

theorem sameConfig_posthandleFrame {x : RecvFrame ⊕ RxRet}
    (h : posthandleFrame aes a f = .done (a', x)) : SameConfig a a' := by
  obtain ⟨d, -, hcfg, ⟨g, -, -, -, rfl⟩ | ⟨g, b, r, -, -, hchk, hrest⟩⟩ := posthandleFrame_cases h
  · exact hcfg.trans (sameConfig_free _ g)
  · have hb := hcfg.trans (sameConfig_chkDefrag hchk)
    rcases hrest with ⟨-, -, rfl⟩ | ⟨k, -, ⟨-, -, rfl⟩ | ⟨-, -, rfl⟩⟩
    · exact hb
    · exact hb.trans (sameConfig_free _ k)
    · exact hb

/-- **`recv_func_posthandle`, unfolded once**: done before indication, indicated, or
refused there, when the frame it was called with is freed. -/
theorem recvFuncPosthandle_cases {os : Os} {ret : RxRet}
    (h : recvFuncPosthandle os aes a f = .done (a', ret)) :
    (posthandleFrame aes a f = .done (a', .inr ret))
      ∨ ∃ b k c, posthandleFrame aes a f = .done (b, .inl k)
        ∧ processRecvIndicatepkts os b k = .done (c, ret)
        ∧ ((ret = .success ∧ a' = c) ∨ (ret ≠ .success ∧ a' = rtwFreeRecvframe c f)) := by
  unfold recvFuncPosthandle at h
  obtain ⟨⟨b, x⟩, hpost, h⟩ := Outcome.bind_eq_done.mp h
  cases x with
  | inr r =>
      left
      obtain ⟨rfl, rfl⟩ := Prod.mk.inj (Outcome.done.inj h)
      exact hpost
  | inl k =>
      right
      obtain ⟨⟨c, r⟩, hproc, h⟩ := Outcome.bind_eq_done.mp h
      refine ⟨b, k, c, hpost, ?_⟩
      dsimp only at h
      split at h
      · rename_i hr
        obtain ⟨rfl, rfl⟩ := Prod.mk.inj (Outcome.done.inj h)
        exact ⟨hproc, Or.inl ⟨hr, rfl⟩⟩
      · rename_i hr
        obtain ⟨rfl, rfl⟩ := Prod.mk.inj (Outcome.done.inj h)
        exact ⟨hproc, Or.inr ⟨hr, rfl⟩⟩

theorem sameConfig_posthandle {os : Os} {ret : RxRet}
    (hd : recvFuncPosthandle os aes a f = .done (a', ret)) : SameConfig a a' := by
  rcases recvFuncPosthandle_cases hd with hpost | ⟨b, k, c, hpost, hproc, hend⟩
  · exact sameConfig_posthandleFrame hpost
  · have hc := (sameConfig_posthandleFrame hpost).trans (sameConfig_processRecvIndicatepkts hproc)
    rcases hend with ⟨-, rfl⟩ | ⟨-, rfl⟩
    · exact hc
    · exact hc.trans (sameConfig_free c f)

end

end Rtl8812au
