import Rtl8812au.Recv.Defrag

/-!
# What reassembly guarantees

A reassembled frame is made of fragments that were fed in that order and carry
the fragment numbers `0, 1, .., n`; nothing else about them is compared. Their
payloads end up one behind the other if each fragment is long enough for what is
cut off it and the first fragment's buffer has room.

The copy is made before `recvframe_put` checks for room and regardless of what it
answers, so the copies stay inside the buffer exactly when the lengths say so.
-/

namespace Rtl8812au

variable {f g : RecvFrame}

/-! ## The buffer of a received frame -/

/-- The frame comes from `rtw_os_alloc_recvframe` and `recvframe_put`, as
`recvbuf2recvframe` makes it: what was done since has left the pointers alone. -/
structure Received (f : RecvFrame) : Prop where
  made : ∃ (skb : Option Nat) (cloneOk : Bool) (urb : Mem) (pdata : Nat) (d : RecvFrame),
    let g := (rtwOsAllocRecvframe skb cloneOk urb pdata d).1
    (rtwOsAllocRecvframe skb cloneOk urb pdata d).2 = true
      ∧ d.len = 0 ∧ 0 < d.attrib.pktLen ∧ d.attrib.pktLen < 2 ^ 14
      ∧ f.rxHead = g.rxHead ∧ f.rxData = g.rxData ∧ f.rxEnd = g.rxEnd
      ∧ f.rxTail = (g.put d.attrib.pktLen).1.rxTail ∧ f.len = (g.put d.attrib.pktLen).1.len

theorem recvAllocSz_bounds (a : RxPktAttrib) (h : a.pktLen < 2 ^ 14) :
    a.pktLen + 14 ≤ recvAllocSz a ∧ recvAllocSz a < 2 ^ 15 := by
  unfold recvAllocSz
  split_ifs <;> omega

/-- **Every received frame has its pointers in order.** -/
theorem received_wf (h : Received f) : f.WF := by
  obtain ⟨skb, cloneOk, urb, pdata, d, hok, hlen, hpos, hlt, h1, h2, h3, h4, h5⟩ := h.made
  have hsz := recvAllocSz_bounds d.attrib hlt
  -- an empty frame with room for the packet behind its data pointer
  have key : ∀ g : RecvFrame, g.rxHead ≤ g.rxData → g.rxTail = g.rxData → g.len = 0 →
      g.rxData + d.attrib.pktLen ≤ g.rxEnd → g.rxEnd < g.rxHead + 2 ^ 32 →
      f.rxHead = g.rxHead → f.rxData = g.rxData → f.rxEnd = g.rxEnd →
      f.rxTail = (g.put d.attrib.pktLen).1.rxTail → f.len = (g.put d.attrib.pktLen).1.len →
      f.WF := by
    intro g k1 k2 k3 k4 k5 e1 e2 e3 e4 e5
    have hw : g.WF := ⟨k1, by omega, by omega, by omega, k5⟩
    rw [RecvFrame.put_eq hw, if_pos (by omega)] at e4 e5
    refine ⟨?_, ?_, ?_, ?_, ?_⟩ <;> dsimp only at * <;> omega
  cases skb with
  | some addr =>
      refine key (rtwOsAllocRecvframe (some addr) cloneOk urb pdata d).1 ?_ rfl hlen ?_ ?_
        h1 h2 h3 h4 h5
      · simp only [rtwOsAllocRecvframe]; split_ifs <;> omega
      · simp only [rtwOsAllocRecvframe]; split_ifs <;> omega
      · simp only [rtwOsAllocRecvframe]; omega
  | none =>
      unfold rtwOsAllocRecvframe at hok h1 h2 h3 h4 h5
      dsimp only at hok h1 h2 h3 h4 h5
      split at hok
      · exact absurd hok (by simp)
      · rename_i hfirst
        rw [if_neg hfirst] at h1 h2 h3 h4 h5
        cases cloneOk with
        | false => exact absurd hok (by simp)
        | true =>
            simp only [if_true] at h1 h2 h3 h4 h5
            refine key { d with pkt := true, rxHead := pdata, rxData := pdata, rxTail := pdata,
                                rxEnd := pdata + recvAllocSz d.attrib, buf := urb }
              (Nat.le_refl _) rfl hlen ?_ ?_ h1 h2 h3 h4 h5
            · dsimp only; omega
            · dsimp only; omega

/-! ## One turn of the loop -/

/-- MAC header and IV of a fragment, as `recvframe_defrag` computes their length. -/
def hdrIv (g : RecvFrame) : Nat := (g.attrib.hdrlen + g.attrib.ivLen) % 256

/-- What is left of `len` bytes after a `recvframe_pull` or `recvframe_pull_tail`
of `n`: these do nothing when there are fewer. -/
def lenAfterCut (len n : Nat) : Nat := if n ≤ len then len - n else len

/-- The bytes of a fragment that are copied. -/
def bodyLen (g : RecvFrame) : Nat := lenAfterCut g.len (hdrIv g)

/-- The frame pointers are in order after each of the three operations. -/
structure DefragStep.Pointers (s : DefragStep) : Prop where
  pulled : s.pulled.WF
  trimmed : s.trimmed.WF
  joined : s.joined.WF

theorem pullFragment_len (hg : g.WF) : (pullFragment g).len = bodyLen g := by
  unfold pullFragment bodyLen lenAfterCut hdrIv
  rw [RecvFrame.pull_eq hg]
  split <;> rfl

theorem trim_eq (hf : f.WF) (n : Nat) :
    (f.pullTail n).1 = { f with rxTail := f.rxData + lenAfterCut f.len n,
                                len := lenAfterCut f.len n } := by
  have h1 := hf.data_le
  have h2 := hf.len_eq
  unfold lenAfterCut
  rw [RecvFrame.pullTail_eq hf]
  split
  · have : f.rxTail - n = f.rxData + (f.len - n) := by omega
    rw [this]
  · have : f.rxTail = f.rxData + f.len := by omega
    rw [← this]

theorem joinFragment_pointers (hf : f.WF) (hg : g.WF) : (joinFragment f g).Pointers := by
  have ht := RecvFrame.wf_pullTail (n := f.attrib.icvLen) hf
  have hj : ∀ b : Mem, RecvFrame.WF { (f.pullTail f.attrib.icvLen).1 with buf := b } :=
    fun b => ⟨ht.head_le, ht.data_le, ht.tail_le, ht.len_eq, ht.small⟩
  have hp := RecvFrame.wf_put (n := (pullFragment g).len)
    (hj ((f.pullTail f.attrib.icvLen).1.buf.copy (f.pullTail f.attrib.icvLen).1.rxTail
      (pullFragment g).buf (pullFragment g).rxData (pullFragment g).len))
  exact ⟨RecvFrame.wf_pull hg, ht, ⟨hp.head_le, hp.data_le, hp.tail_le, hp.len_eq, hp.small⟩⟩

/-- **The copy stays inside exactly when the lengths fit.** -/
theorem joinFragment_inBounds (hf : f.WF) (hg : g.WF) :
    (joinFragment f g).InBounds
      ↔ lenAfterCut f.len f.attrib.icvLen + bodyLen g ≤ f.rxEnd - f.rxData := by
  have h1 := hf.data_le
  have h2 := hf.tail_le
  have h3 : lenAfterCut f.len f.attrib.icvLen ≤ f.len := by unfold lenAfterCut; split <;> omega
  have h4 := hf.len_eq
  unfold DefragStep.InBounds joinFragment
  dsimp only
  rw [pullFragment_len hg, trim_eq hf]
  dsimp only
  omega

/-- **When it does, the fragment's bytes stand behind the trimmed first frame.** -/
theorem joinFragment_joined (hf : f.WF) (hg : g.WF) (hb : (joinFragment f g).InBounds) :
    (joinFragment f g).joined.len = lenAfterCut f.len f.attrib.icvLen + bodyLen g
      ∧ (joinFragment f g).joined.rxData = f.rxData
      ∧ (joinFragment f g).joined.rxEnd = f.rxEnd
      ∧ (joinFragment f g).joined.attrib = { f.attrib with icvLen := g.attrib.icvLen }
      ∧ (joinFragment f g).joined.bytes
        = f.bytes.take (lenAfterCut f.len f.attrib.icvLen) ++ (pullFragment g).bytes := by
  have hle : lenAfterCut f.len f.attrib.icvLen ≤ f.len := by unfold lenAfterCut; split <;> omega
  have htrim := trim_eq hf f.attrib.icvLen
  have hp := joinFragment_pointers hf hg
  have hpt := hp.trimmed
  unfold DefragStep.InBounds at hb
  unfold joinFragment at hb hpt ⊢
  dsimp only at hb hpt ⊢
  have hwf : RecvFrame.WF { (f.pullTail f.attrib.icvLen).1 with
      buf := (f.pullTail f.attrib.icvLen).1.buf.copy (f.pullTail f.attrib.icvLen).1.rxTail
        (pullFragment g).buf (pullFragment g).rxData (pullFragment g).len } :=
    ⟨hpt.head_le, hpt.data_le, hpt.tail_le, hpt.len_eq, hpt.small⟩
  rw [RecvFrame.put_eq hwf, if_pos (by exact hb)]
  rw [htrim, pullFragment_len hg]
  refine ⟨rfl, rfl, rfl, rfl, ?_⟩
  show Mem.read (f.buf.write (f.rxData + lenAfterCut f.len f.attrib.icvLen)
      ((pullFragment g).buf.read (pullFragment g).rxData (bodyLen g)))
    f.rxData (lenAfterCut f.len f.attrib.icvLen + bodyLen g) = _
  rw [Mem.read_write_append _ (Mem.length_read _ _ _), RecvFrame.bytes, RecvFrame.bytes,
    Mem.take_read _ hle, pullFragment_len hg]

/-! ## The loop -/

/-- The length of the first frame after each fragment joined to it, starting from
`len` bytes of which the last `icv` are its ICV, up to the first fragment that is
out of number. -/
def joinedLens (len icv cur : Nat) : List RecvFrame → List Nat
  | [] => []
  | g :: q =>
    if cur = g.attrib.fragNum then
      (lenAfterCut len icv + bodyLen g)
        :: joinedLens (lenAfterCut len icv + bodyLen g) g.attrib.icvLen (cur + 1) q
    else []

/-- The first fragment's buffer has room for every fragment that is joined to it. -/
def RoomFor : List RecvFrame → Prop
  | [] => True
  | f :: q => f.attrib.fragNum = 0 →
    ∀ l ∈ joinedLens f.len f.attrib.icvLen 1 q, l ≤ f.rxEnd - f.rxData

theorem defragLoop_pointers : ∀ (q : List RecvFrame) (f : RecvFrame) (cur : Nat), f.WF →
    (∀ g ∈ q, g.WF) → ∀ s ∈ (defragLoop f cur q).2, s.Pointers
  | [], _, _, _, _ => by simp [defragLoop]
  | g :: q, f, cur, hf, hq => by
      have hp := joinFragment_pointers hf (hq g (List.mem_cons_self ..))
      intro s hs
      rw [defragLoop] at hs
      split at hs
      · simp at hs
      · rcases List.mem_cons.mp hs with rfl | hs'
        · exact hp
        · exact defragLoop_pointers q _ _ hp.joined
            (fun y hy => hq y (List.mem_cons_of_mem _ hy)) s hs'

/-- **All copies of a reassembly stay inside exactly when all joined lengths fit.**
Once one copy overruns, both sides have failed, so the lengths need not be followed
past a failed `recvframe_put`. -/
theorem defragLoop_inBounds : ∀ (q : List RecvFrame) (f : RecvFrame) (cur : Nat), f.WF →
    (∀ g ∈ q, g.WF) →
    ((∀ s ∈ (defragLoop f cur q).2, s.InBounds)
      ↔ ∀ l ∈ joinedLens f.len f.attrib.icvLen cur q, l ≤ f.rxEnd - f.rxData)
  | [], _, _, _, _ => by simp [defragLoop, joinedLens]
  | g :: q, f, cur, hf, hq => by
      have hg := hq g (List.mem_cons_self ..)
      have hp := joinFragment_pointers hf hg
      have hib := joinFragment_inBounds hf hg
      have ih := defragLoop_inBounds q (joinFragment f g).joined (cur + 1) hp.joined
        (fun y hy => hq y (List.mem_cons_of_mem _ hy))
      rw [defragLoop, joinedLens]
      by_cases hcur : cur = g.attrib.fragNum
      · rw [if_pos hcur, if_neg (by simp [hcur])]
        simp only [List.mem_cons, forall_eq_or_imp]
        constructor
        · rintro ⟨h1, h2⟩
          obtain ⟨e1, e2, e3, e4, -⟩ := joinFragment_joined hf hg h1
          rw [e1, e2, e3, e4] at ih
          exact ⟨hib.mp h1, ih.mp h2⟩
        · rintro ⟨h1, h2⟩
          have hb := hib.mpr h1
          obtain ⟨e1, e2, e3, e4, -⟩ := joinFragment_joined hf hg hb
          rw [e1, e2, e3, e4] at ih
          exact ⟨hb, ih.mpr h2⟩
      · rw [if_neg hcur, if_pos (by simp [hcur])]
        simp

/-- **Only consecutively numbered fragments are joined.** -/
theorem defragLoop_fragNums : ∀ (q : List RecvFrame) (f out : RecvFrame) (cur : Nat),
    (defragLoop f cur q).1 = some out →
      q.map (·.attrib.fragNum) = List.range' cur q.length
  | [], _, _, _, _ => rfl
  | g :: q, f, out, cur, h => by
      rw [defragLoop] at h
      split at h
      · exact absurd h (by simp)
      · rename_i hcur
        have ih := defragLoop_fragNums q _ out (cur + 1) h
        have hc : cur = g.attrib.fragNum := by simpa using hcur
        rw [List.map_cons, ih, ← hc]
        rfl

/-! ## Payloads -/

/-- What a fragment carries behind its MAC header and IV. -/
def payload (g : RecvFrame) : List UInt8 := g.bytes.drop (g.attrib.hdrlen + g.attrib.ivLen)

/-- The same without its ICV. -/
def payloadNoIcv (g : RecvFrame) : List UInt8 :=
  (payload g).take ((payload g).length - g.attrib.icvLen)

/-- The payloads one behind the other, only the last with its ICV. -/
def joinPayloads : List RecvFrame → List UInt8
  | [] => []
  | [g] => payload g
  | g :: q => payloadNoIcv g ++ joinPayloads q

/-- Every fragment is long enough for what is cut off it: MAC header and IV, and
for all but the last the ICV. -/
structure LongEnough (frs : List RecvFrame) : Prop where
  hdr : ∀ g ∈ frs, g.attrib.hdrlen + g.attrib.ivLen < 256
    ∧ g.attrib.hdrlen + g.attrib.ivLen ≤ g.len
  icv : ∀ g ∈ frs.dropLast, g.attrib.hdrlen + g.attrib.ivLen + g.attrib.icvLen ≤ g.len

theorem length_bytes_frame (g : RecvFrame) : g.bytes.length = g.len := by
  simp [RecvFrame.bytes]

theorem pullFragment_bytes (hg : g.WF) (h1 : g.attrib.hdrlen + g.attrib.ivLen < 256)
    (h2 : g.attrib.hdrlen + g.attrib.ivLen ≤ g.len) : (pullFragment g).bytes = payload g := by
  unfold pullFragment payload RecvFrame.bytes
  rw [Nat.mod_eq_of_lt h1, RecvFrame.pull_eq hg, if_pos h2, Mem.drop_read _ h2]

/-- **The loop appends payloads.** The invariant is that the first frame ends with
the payload of the fragment joined last, ICV included. -/
theorem defragLoop_bytes : ∀ (q : List RecvFrame) (g f out : RecvFrame) (cur : Nat)
    (pre : List UInt8), f.WF → (∀ x ∈ g :: q, x.WF) → LongEnough (g :: q) →
    f.bytes = pre ++ payload g → f.attrib.icvLen = g.attrib.icvLen →
    (∀ s ∈ (defragLoop f cur q).2, s.InBounds) → (defragLoop f cur q).1 = some out →
    out.bytes = pre ++ joinPayloads (g :: q)
  | [], g, f, out, cur, pre, _, _, _, hb, _, _, h => by
      rw [defragLoop] at h
      rw [← Option.some.inj h, hb]
      rfl
  | g' :: q, g, f, out, cur, pre, hf, hq, hl, hb, hicv, hin, h => by
      rw [defragLoop] at h hin
      split at h
      · exact absurd h (by simp)
      · rename_i hcur
        rw [if_neg hcur] at hin
        have hg' := hq g' (by simp)
        have hl' := hl.hdr g' (by simp)
        have hlg := hl.hdr g (by simp)
        have hgi := hl.icv g (by simp)
        have hin1 := hin _ (List.mem_cons_self ..)
        have hpay : (payload g).length = g.len - (g.attrib.hdrlen + g.attrib.ivLen) := by
          rw [payload, List.length_drop, length_bytes_frame]
        have hflen : f.len = pre.length + (payload g).length := by
          rw [← length_bytes_frame, hb, List.length_append]
        -- the ICV that is trimmed is the one of the payload joined last
        have htrim : f.bytes.take (lenAfterCut f.len f.attrib.icvLen)
            = pre ++ payloadNoIcv g := by
          have hcut : lenAfterCut f.len f.attrib.icvLen
              = pre.length + ((payload g).length - g.attrib.icvLen) := by
            unfold lenAfterCut
            rw [if_pos (by omega), hicv]
            omega
          rw [hcut, hb, List.take_length_add_append]
          rfl
        obtain ⟨-, -, -, ha, hbytes⟩ := joinFragment_joined hf hg' hin1
        rw [htrim, pullFragment_bytes hg' hl'.1 hl'.2] at hbytes
        have hlq : LongEnough (g' :: q) :=
          ⟨fun x hx => hl.hdr x (List.mem_cons_of_mem _ hx),
            fun x hx => hl.icv x (by
              rw [List.dropLast_cons_of_ne_nil (by simp)]
              exact List.mem_cons_of_mem _ hx)⟩
        have ih := defragLoop_bytes q g' (joinFragment f g').joined out (cur + 1)
          (pre ++ payloadNoIcv g) (joinFragment_pointers hf hg').joined
          (fun x hx => hq x (List.mem_cons_of_mem _ hx)) hlq hbytes (by rw [ha])
          (fun s hs => hin s (List.mem_cons_of_mem _ hs)) h
        rw [ih, List.append_assoc]
        rfl

/-! ## Runs of one station's queue -/

/-- A station's `defrag_q` and the fragment lists `recvframe_defrag` was called on. -/
structure DefragRun where
  queue : List RecvFrame := []
  joins : List (List RecvFrame) := []

/-- The frame is the last fragment of a longer MSDU. -/
def isLastFragment (f : RecvFrame) : Bool := !f.attrib.mfrag && f.attrib.fragNum != 0

def DefragRun.step (r : DefragRun) (f : RecvFrame) : DefragRun where
  queue := ((chkDefragQueue (some r.queue) f).queue).getD []
  joins := if isLastFragment f then r.joins ++ [r.queue ++ [f]] else r.joins

def DefragRun.run (fs : List RecvFrame) : DefragRun := fs.foldl DefragRun.step {}

/-- The queue holds frames that were fed, in that order, all with more to come;
and so does every list that was reassembled, up to its last frame. -/
structure DefragRun.Inv (r : DefragRun) (fs : List RecvFrame) : Prop where
  queue : r.queue.Sublist fs
  more : ∀ g ∈ r.queue, g.attrib.mfrag = true
  joins : ∀ frs ∈ r.joins, frs.Sublist fs
    ∧ ∃ q g, frs = q ++ [g] ∧ (∀ x ∈ q, x.attrib.mfrag = true) ∧ isLastFragment g = true

/-- What one frame does to the queue. -/
theorem DefragRun.queue_step (r : DefragRun) (f : RecvFrame) :
    (r.step f).queue = r.queue
      ∨ (r.step f).queue = []
      ∨ f.attrib.mfrag = true
        ∧ ((r.step f).queue = [f] ∨ (r.step f).queue = r.queue ++ [f]) := by
  unfold DefragRun.step chkDefragQueue
  cases hm : f.attrib.mfrag with
  | true =>
      by_cases h0 : f.attrib.fragNum = 0
      · right; right; exact ⟨rfl, Or.inl (by simp [h0])⟩
      · right; right; exact ⟨rfl, Or.inr (by simp [h0])⟩
  | false =>
      by_cases h0 : f.attrib.fragNum = 0
      · left; simp [h0]
      · right; left; simp [h0]

theorem DefragRun.inv_step {r : DefragRun} {fs : List RecvFrame} (h : r.Inv fs) (f : RecvFrame) :
    (r.step f).Inv (fs ++ [f]) := by
  have hq : (r.queue ++ [f]).Sublist (fs ++ [f]) := h.queue.append (List.Sublist.refl _)
  have hfs : ∀ {l : List RecvFrame}, l.Sublist fs → l.Sublist (fs ++ [f]) :=
    fun hl => hl.trans (List.sublist_append_left _ _)
  refine ⟨?_, ?_, ?_⟩
  · rcases r.queue_step f with hs | hs | ⟨-, hs | hs⟩
    · rw [hs]; exact hfs h.queue
    · rw [hs]; exact List.nil_sublist _
    · rw [hs]; exact List.sublist_append_right _ _
    · rw [hs]; exact hq
  · intro g hg
    rcases r.queue_step f with hs | hs | ⟨hm, hs | hs⟩
    · rw [hs] at hg; exact h.more g hg
    · rw [hs] at hg; simp at hg
    · rw [hs] at hg; rw [List.mem_singleton.mp hg]; exact hm
    · rw [hs] at hg
      rcases List.mem_append.mp hg with hg | hg
      · exact h.more g hg
      · rw [List.mem_singleton.mp hg]; exact hm
  · intro frs hfrs
    unfold DefragRun.step at hfrs
    dsimp only at hfrs
    split at hfrs
    · rename_i hlast
      rcases List.mem_append.mp hfrs with hfrs | hfrs
      · exact ⟨hfs (h.joins frs hfrs).1, (h.joins frs hfrs).2⟩
      · rw [List.mem_singleton.mp hfrs]
        exact ⟨hq, r.queue, f, rfl, h.more, hlast⟩
    · exact ⟨hfs (h.joins frs hfrs).1, (h.joins frs hfrs).2⟩

theorem DefragRun.inv_foldl : ∀ (gs : List RecvFrame) (r : DefragRun) (fs : List RecvFrame),
    r.Inv fs → (gs.foldl DefragRun.step r).Inv (fs ++ gs)
  | [], r, fs, h => by rw [List.append_nil]; exact h
  | g :: gs, r, fs, h => by
      have ih := DefragRun.inv_foldl gs (r.step g) (fs ++ [g]) (DefragRun.inv_step h g)
      rwa [List.append_assoc] at ih

theorem DefragRun.inv_run (fs : List RecvFrame) : (DefragRun.run fs).Inv fs :=
  DefragRun.inv_foldl fs {} [] ⟨List.nil_sublist _, by simp, by simp⟩

/-- `recvframe_defrag` returns a frame only from its loop. -/
theorem recvframeDefrag_some {frs : List RecvFrame} {out : RecvFrame}
    (h : (recvframeDefrag frs).frame = some out) :
    ∃ f q, frs = f :: q ∧ f.attrib.fragNum = 0 ∧ (defragLoop f 1 q).1 = some out
      ∧ (recvframeDefrag frs).steps = (defragLoop f 1 q).2 := by
  cases frs with
  | nil => simp [recvframeDefrag] at h
  | cons f q =>
      rw [recvframeDefrag] at h ⊢
      split at h
      · exact absurd h (by simp)
      · rename_i h0
        rw [if_neg h0]
        have hf0 : f.attrib.fragNum = 0 := by simpa using h0
        cases hl : defragLoop f 1 q with
        | mk o steps =>
            rw [hl] at h
            cases o with
            | none => exact absurd h (by simp)
            | some f' => exact ⟨f, q, rfl, hf0, by rw [hl]; exact h, by rw [hl]⟩

/-- **What a reassembled frame is made of.** Over any sequence of frames fed to one
station's queue: the fragments were fed in this order, are numbered `0, 1, .., n`
with more to follow on all but the last; and if every fragment is long enough for
what is cut off it and the first buffer has room, the payload is the concatenation
of theirs. -/
theorem defrag_joins_numbered_fragments {fs frs : List RecvFrame} {out : RecvFrame}
    (hfs : ∀ f ∈ fs, f.WF) (hj : frs ∈ (DefragRun.run fs).joins)
    (h : (recvframeDefrag frs).frame = some out) :
    frs.Sublist fs
      ∧ frs.map (·.attrib.fragNum) = List.range frs.length
      ∧ (∃ q g, frs = q ++ [g] ∧ (∀ x ∈ q, x.attrib.mfrag = true) ∧ g.attrib.mfrag = false)
      ∧ (LongEnough frs → RoomFor frs → ∀ f ∈ frs.head?,
          out.bytes.drop (f.attrib.hdrlen + f.attrib.ivLen) = joinPayloads frs) := by
  obtain ⟨hsub, q, g, hqg, hmore, hlast⟩ := (DefragRun.inv_run fs).joins frs hj
  obtain ⟨f, q', rfl, h0, hl, -⟩ := recvframeDefrag_some h
  have hwf : ∀ x ∈ f :: q', x.WF := fun x hx => hfs x (hsub.subset hx)
  refine ⟨hsub, ?_, ⟨q, g, hqg, hmore, ?_⟩, ?_⟩
  · rw [List.map_cons, defragLoop_fragNums q' f out 1 hl, h0, List.length_cons,
      List.range_eq_range', List.range'_succ]
  · unfold isLastFragment at hlast
    revert hlast
    cases g.attrib.mfrag <;> simp
  · intro hlong hroom f' hf'
    rw [List.head?_cons, Option.mem_def, Option.some.injEq] at hf'
    subst hf'
    have hf := hwf f (List.mem_cons_self ..)
    have hin := (defragLoop_inBounds q' f 1 hf
      (fun x hx => hwf x (List.mem_cons_of_mem _ hx))).mpr (hroom h0)
    have hfl := (hlong.hdr f (List.mem_cons_self ..)).2
    have hsplit : f.bytes = f.bytes.take (f.attrib.hdrlen + f.attrib.ivLen) ++ payload f :=
      (List.take_append_drop _ _).symm
    rw [defragLoop_bytes q' f f out 1 _ hf hwf hlong hsplit rfl hin hl]
    refine List.drop_left' ?_
    rw [List.length_take, length_bytes_frame]
    omega

/-- A fragment as it comes in: 24 bytes of header, `n` bytes of payload. -/
def sampleFragment (id seq frag n : Nat) (more : Bool) (cipher : Cipher) : RecvFrame :=
  { id := id, len := 24 + n, rxHead := 64, rxData := 72, rxTail := 96 + n, rxEnd := 64 + 1664,
    buf := fun k => UInt8.ofNat (k + id),
    attrib := { hdrlen := 24, seqNum := seq, fragNum := frag, mfrag := more, encrypt := cipher } }

theorem sampleFragment_wf {id seq frag n : Nat} {more : Bool} {c : Cipher} (h : n ≤ 1000) :
    (sampleFragment id seq frag n more c).WF := by
  refine ⟨?_, ?_, ?_, ?_, ?_⟩ <;> dsimp only [sampleFragment] <;> omega

/-- Two fragments of three and two bytes: five bytes of payload come out. -/
theorem defrag_joins_numbered_fragments_sample :
    ∃ out, (recvframeDefrag [sampleFragment 0 7 0 3 true .noPrivacy,
        sampleFragment 1 7 1 2 false .noPrivacy]).frame = some out
      ∧ out.bytes.drop 24 = [96, 97, 98, 97, 98] := by
  have hmain := @defrag_joins_numbered_fragments
    [sampleFragment 0 7 0 3 true .noPrivacy, sampleFragment 1 7 1 2 false .noPrivacy]
    [sampleFragment 0 7 0 3 true .noPrivacy, sampleFragment 1 7 1 2 false .noPrivacy] _
    (by
      intro f hf
      simp only [List.mem_cons, List.not_mem_nil, or_false] at hf
      rcases hf with rfl | rfl <;> exact sampleFragment_wf (by decide))
    (List.mem_singleton.mpr rfl) rfl
  refine ⟨_, rfl, (hmain.2.2.2 ⟨by decide, by decide⟩ ?_ _ rfl).trans (by decide)⟩
  show _ → _
  decide

/-- The sequence number is not compared: fragment 0 of frame 1 and fragment 1 of
frame 2 are joined, and so are an encrypted and a plain fragment. -/
theorem defrag_mixes_frames :
    ¬ ∀ (fs frs : List RecvFrame) (out : RecvFrame), (∀ f ∈ fs, f.WF) →
      frs ∈ (DefragRun.run fs).joins → (recvframeDefrag frs).frame = some out →
      ∀ x ∈ frs, ∀ y ∈ frs, x.attrib.seqNum = y.attrib.seqNum
        ∧ x.attrib.encrypt = y.attrib.encrypt := by
  intro h
  have h2 := h [sampleFragment 0 1 0 8 true .aes, sampleFragment 1 2 1 8 false .noPrivacy]
    [sampleFragment 0 1 0 8 true .aes, sampleFragment 1 2 1 8 false .noPrivacy] _ (by
      intro f hf
      simp only [List.mem_cons, List.not_mem_nil, or_false] at hf
      rcases hf with rfl | rfl <;> exact sampleFragment_wf (by decide))
    (List.mem_singleton.mpr rfl) rfl (sampleFragment 0 1 0 8 true .aes) (by simp)
    (sampleFragment 1 2 1 8 false .noPrivacy) (by simp)
  exact absurd h2.1 (by decide)

/-- **Reassembly stays inside the first buffer exactly when there is room.** Over any
sequence of received frames: all copies of all reassemblies end inside the first
fragment's buffer if and only if the joined lengths fit in it. The pointers are in
order after every pull, trim and put regardless. -/
theorem defrag_in_bounds_iff_room {fs : List RecvFrame} (hfs : ∀ f ∈ fs, Received f) :
    ((∀ frs ∈ (DefragRun.run fs).joins, ∀ s ∈ (recvframeDefrag frs).steps,
        s.InBounds ∧ s.Pointers)
      ↔ ∀ frs ∈ (DefragRun.run fs).joins, RoomFor frs)
    ∧ ∀ frs ∈ (DefragRun.run fs).joins, ∀ s ∈ (recvframeDefrag frs).steps, s.Pointers := by
  -- the steps of one reassembly are those of the loop, or none
  have key : ∀ frs ∈ (DefragRun.run fs).joins,
      ((∀ s ∈ (recvframeDefrag frs).steps, s.InBounds) ↔ RoomFor frs)
        ∧ ∀ s ∈ (recvframeDefrag frs).steps, s.Pointers := by
    intro frs hj
    have hsub := ((DefragRun.inv_run fs).joins frs hj).1
    cases frs with
    | nil => simp [recvframeDefrag, RoomFor]
    | cons f q =>
        have hf : f.WF := received_wf (hfs f (hsub.subset (List.mem_cons_self ..)))
        have hq : ∀ g ∈ q, g.WF := fun g hg =>
          received_wf (hfs g (hsub.subset (List.mem_cons_of_mem _ hg)))
        by_cases h0 : f.attrib.fragNum = 0
        · have hsteps : (recvframeDefrag (f :: q)).steps = (defragLoop f 1 q).2 := by
            rw [recvframeDefrag, if_neg (by simp [h0])]
            cases defragLoop f 1 q with
            | mk o steps => cases o <;> rfl
          rw [hsteps]
          refine ⟨?_, defragLoop_pointers q f 1 hf hq⟩
          rw [defragLoop_inBounds q f 1 hf hq]
          unfold RoomFor
          exact ⟨fun h _ => h, fun h => h h0⟩
        · have hsteps : (recvframeDefrag (f :: q)).steps = [] := by
            rw [recvframeDefrag, if_pos (by simpa using h0)]
          rw [hsteps]
          unfold RoomFor
          exact ⟨⟨fun _ h => absurd h h0, by simp⟩, by simp⟩
  refine ⟨⟨?_, ?_⟩, fun frs hj => (key frs hj).2⟩
  · intro h frs hj
    exact (key frs hj).1.mp (fun s hs => (h frs hj s hs).1)
  · intro h frs hj s hs
    exact ⟨(key frs hj).1.mpr (h frs hj) s hs, (key frs hj).2 s hs⟩

/-- A plain fragment of `n` bytes as `recvbuf2recvframe` makes it, from an skb at
address 64. -/
def receivedFragment (id frag n : Nat) (more : Bool) : RecvFrame :=
  let d : RecvFrame :=
    { id := id, attrib := { pktLen := n, hdrlen := 24, fragNum := frag, mfrag := more } }
  ((rtwOsAllocRecvframe (some 64) true (fun _ => 0) 0 d).1.put n).1

theorem receivedFragment_received {id frag n : Nat} {more : Bool} (h : 0 < n) (h' : n < 2 ^ 14) :
    Received (receivedFragment id frag n more) := by
  refine ⟨some 64, true, fun _ => 0, 0, { id := id, attrib :=
    { pktLen := n, hdrlen := 24, fragNum := frag, mfrag := more } }, rfl, rfl, h, h', ?_⟩
  unfold receivedFragment
  dsimp only
  unfold RecvFrame.put
  split <;> exact ⟨rfl, rfl, rfl, rfl, rfl⟩

/-- Two fragments of 800 bytes fit. -/
theorem defrag_in_bounds_iff_room_sample :
    (DefragRun.run
        [receivedFragment 0 0 800 true, receivedFragment 1 1 800 false]).joins.length = 1
      ∧ ∀ frs ∈ (DefragRun.run
          [receivedFragment 0 0 800 true, receivedFragment 1 1 800 false]).joins,
        ∀ s ∈ (recvframeDefrag frs).steps, s.InBounds ∧ s.Pointers := by
  refine ⟨rfl, (defrag_in_bounds_iff_room ?_).1.mpr ?_⟩
  · intro f hf
    simp only [List.mem_cons, List.not_mem_nil, or_false] at hf
    rcases hf with rfl | rfl <;> exact receivedFragment_received (by decide) (by decide)
  · intro frs hj
    rw [List.mem_singleton.mp hj]
    show _ → _
    decide

/-- Two fragments of 1600 bytes overrun the first one's buffer of 1664. -/
theorem defrag_overruns_buffer :
    ¬ ∀ fs : List RecvFrame, (∀ f ∈ fs, Received f) →
      ∀ frs ∈ (DefragRun.run fs).joins, ∀ s ∈ (recvframeDefrag frs).steps,
        s.InBounds ∧ s.Pointers := by
  intro h
  have h2 := h [receivedFragment 0 0 1600 true, receivedFragment 1 1 1600 false] (by
    intro f hf
    simp only [List.mem_cons, List.not_mem_nil, or_false] at hf
    rcases hf with rfl | rfl <;> exact receivedFragment_received (by decide) (by decide))
    _ (List.mem_singleton.mpr rfl) _ (List.mem_cons_self ..)
  exact absurd h2.1 (by decide)

end Rtl8812au
