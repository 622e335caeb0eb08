import Rtl8812au.Wifi

/-!
# Receive frames

`struct rx_pkt_attrib` and `struct recv_frame_hdr` of `include/rtw_recv.h`, with
the pointer operations on a frame's buffer: `recvframe_pull`, `recvframe_put` and
`recvframe_pull_tail`.

A frame is one of the `NR_RECVFRAME` slots of the pool, known by its index `id`.
Its four pointers are addresses of its own buffer `buf`. `len` is a `uint`, so it
wraps modulo `2 ^ 32`.
-/

namespace Rtl8812au

/-- `struct rx_pkt_attrib`, the fields the receive path reads. -/
structure RxPktAttrib where
  pktLen : Nat := 0
  hdrlen : Nat := 0
  toFrDs : Nat := 0
  amsdu : Bool := false
  qos : Bool := false
  priority : Nat := 0
  pwSave : Bool := false
  mdata : Bool := false
  seqNum : Nat := 0
  fragNum : Nat := 0
  mfrag : Bool := false
  order : Bool := false
  privacy : Bool := false
  bdecrypted : Bool := false
  encrypt : Cipher := .noPrivacy
  ivLen : Nat := 0
  icvLen : Nat := 0
  crcErr : Bool := false
  icvErr : Bool := false
  ethType : Nat := 0
  dst : MacAddr := .zero
  src : MacAddr := .zero
  ta : MacAddr := .zero
  ra : MacAddr := .zero
  bssid : MacAddr := .zero
  ackPolicy : Nat := 0
  keyIndex : Nat := 0

abbrev numSta : Nat := 32

/-- A station, by its slot of the `NUM_STA` in `pstainfo_buf`. -/
abbrev StaSlot := Fin numSta

instance staSlotLawful : LawfulBEq StaSlot := inferInstance

/-- A TID: the low four bits of the QoS control field. -/
abbrev Tid := Fin 16

/-- `union recv_frame`. `psta` is the station slot the frame was matched to and
`preorderCtrl` the slot and TID of the reorder control it belongs to; `pkt` says
whether an skb is attached. -/
structure RecvFrame where
  id : Nat
  attrib : RxPktAttrib := {}
  len : Nat := 0
  rxHead : Nat := 0
  rxData : Nat := 0
  rxTail : Nat := 0
  rxEnd : Nat := 0
  buf : Mem := fun _ => 0
  pkt : Bool := true
  psta : Option StaSlot := none
  preorderCtrl : Option (StaSlot × Tid) := none

namespace RecvFrame

/-- `len` after `len += d`, a `uint`. -/
def addLen (len : Nat) (d : Int) : Nat := (((len : Int) + d) % 2 ^ 32).toNat

/-- `recvframe_pull`: `NULL` (here `false`) leaves the frame as it was. -/
def pull (f : RecvFrame) (sz : Int) : RecvFrame × Bool :=
  if (f.rxTail : Int) < f.rxData + sz then (f, false)
  else ({ f with rxData := (f.rxData + sz).toNat, len := addLen f.len (-sz) }, true)

/-- `recvframe_put`. -/
def put (f : RecvFrame) (sz : Int) : RecvFrame × Bool :=
  if (f.rxEnd : Int) < f.rxTail + sz then (f, false)
  else ({ f with rxTail := (f.rxTail + sz).toNat, len := addLen f.len sz }, true)

/-- `recvframe_pull_tail`. -/
def pullTail (f : RecvFrame) (sz : Int) : RecvFrame × Bool :=
  if f.rxTail - sz < (f.rxData : Int) then (f, false)
  else ({ f with rxTail := (f.rxTail - sz).toNat, len := addLen f.len (-sz) }, true)

/-- The bytes between `rx_data` and `rx_data + len`. -/
def bytes (f : RecvFrame) : List UInt8 := f.buf.read f.rxData f.len

/-- The pointers are in order, `len` is the distance between data and tail, and
the buffer is no larger than a `uint` can measure. -/
structure WF (f : RecvFrame) : Prop where
  head_le : f.rxHead ≤ f.rxData
  data_le : f.rxData ≤ f.rxTail
  tail_le : f.rxTail ≤ f.rxEnd
  len_eq : f.len = f.rxTail - f.rxData
  small : f.rxEnd < f.rxHead + 2 ^ 32

variable {f : RecvFrame} {n : Nat}

theorem addLen_of_le {len : Nat} (h : n ≤ len) (hl : len < 2 ^ 32) :
    addLen len (-(n : Int)) = len - n := by
  unfold addLen
  rw [Int.emod_eq_of_lt (by omega) (by omega)]
  omega

theorem addLen_add {len : Nat} (hl : len + n < 2 ^ 32) : addLen len n = len + n := by
  unfold addLen
  rw [Int.emod_eq_of_lt (by omega) (by omega)]
  omega

/-! ## Each operation either fails and does nothing, or moves one pointer -/

theorem pull_eq (hw : f.WF) :
    f.pull n = if n ≤ f.len then ({ f with rxData := f.rxData + n, len := f.len - n }, true)
      else (f, false) := by
  obtain ⟨h1, h2, h3, h4, h5⟩ := hw
  unfold pull
  by_cases hn : n ≤ f.len
  · rw [if_neg (by omega), if_pos hn, addLen_of_le hn (by omega)]
    rfl
  · rw [if_pos (by omega), if_neg hn]

theorem put_eq (hw : f.WF) :
    f.put n = if f.rxTail + n ≤ f.rxEnd then
        ({ f with rxTail := f.rxTail + n, len := f.len + n }, true)
      else (f, false) := by
  obtain ⟨h1, h2, h3, h4, h5⟩ := hw
  unfold put
  by_cases hn : f.rxTail + n ≤ f.rxEnd
  · rw [if_neg (by omega), if_pos hn, addLen_add (by omega)]
    rfl
  · rw [if_pos (by omega), if_neg hn]

theorem pullTail_eq (hw : f.WF) :
    f.pullTail n = if n ≤ f.len then ({ f with rxTail := f.rxTail - n, len := f.len - n }, true)
      else (f, false) := by
  obtain ⟨h1, h2, h3, h4, h5⟩ := hw
  unfold pullTail
  by_cases hn : n ≤ f.len
  · rw [if_neg (by omega), if_pos hn, addLen_of_le hn (by omega)]
    have ht : ((f.rxTail : Int) - n).toNat = f.rxTail - n := by omega
    rw [ht]
  · rw [if_pos (by omega), if_neg hn]

/-! ## The pointer invariant survives every operation -/

theorem wf_pull (hw : f.WF) : (f.pull n).1.WF := by
  rw [pull_eq hw]
  obtain ⟨h1, h2, h3, h4, h5⟩ := hw
  split
  · refine ⟨?_, ?_, ?_, ?_, ?_⟩ <;> dsimp only <;> omega
  · exact ⟨h1, h2, h3, h4, h5⟩

theorem wf_put (hw : f.WF) : (f.put n).1.WF := by
  rw [put_eq hw]
  obtain ⟨h1, h2, h3, h4, h5⟩ := hw
  split
  · refine ⟨?_, ?_, ?_, ?_, ?_⟩ <;> dsimp only <;> omega
  · exact ⟨h1, h2, h3, h4, h5⟩

theorem wf_pullTail (hw : f.WF) : (f.pullTail n).1.WF := by
  rw [pullTail_eq hw]
  obtain ⟨h1, h2, h3, h4, h5⟩ := hw
  split
  · refine ⟨?_, ?_, ?_, ?_, ?_⟩ <;> dsimp only <;> omega
  · exact ⟨h1, h2, h3, h4, h5⟩

/-! ## What no pointer operation touches -/

@[simp] theorem pull_id (f : RecvFrame) (sz : Int) : (f.pull sz).1.id = f.id := by
  unfold pull; split <;> rfl

@[simp] theorem pullTail_id (f : RecvFrame) (sz : Int) : (f.pullTail sz).1.id = f.id := by
  unfold pullTail; split <;> rfl

@[simp] theorem put_id (f : RecvFrame) (sz : Int) : (f.put sz).1.id = f.id := by
  unfold put; split <;> rfl

@[simp] theorem pull_attrib (f : RecvFrame) (sz : Int) : (f.pull sz).1.attrib = f.attrib := by
  unfold pull; split <;> rfl

@[simp] theorem pullTail_attrib (f : RecvFrame) (sz : Int) :
    (f.pullTail sz).1.attrib = f.attrib := by
  unfold pullTail; split <;> rfl

@[simp] theorem put_attrib (f : RecvFrame) (sz : Int) : (f.put sz).1.attrib = f.attrib := by
  unfold put; split <;> rfl

@[simp] theorem pullTail_preorderCtrl (f : RecvFrame) (sz : Int) :
    (f.pullTail sz).1.preorderCtrl = f.preorderCtrl := by
  unfold pullTail; split <;> rfl

@[simp] theorem put_preorderCtrl (f : RecvFrame) (sz : Int) :
    (f.put sz).1.preorderCtrl = f.preorderCtrl := by
  unfold put; split <;> rfl

end RecvFrame

end Rtl8812au
