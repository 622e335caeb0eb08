import Rtl8812au.Recv.BulkIn
import Rtl8812au.Recv.DefragProof

/-!
# What a bulk-in transfer comes to

The loop always ends: a turn that goes on moves past a descriptor and a packet. It looks at the
next descriptor whenever a byte is left, so it stays inside the transfer exactly when no packet
that is taken leaves 1 to 23 bytes behind. And it gives the rest of the transfer up at a packet
with an error, so it passes all good packets on exactly when none of these stands behind such a
packet.

`Walk` says what the loop does in each turn; both answers are inductions over it.
-/

namespace Rtl8812au

/-! ## Descriptors -/

section

variable (m : Mem) (pos : Nat)

theorem leBitsTo4Byte_lt (off len : Nat) : leBitsTo4Byte m pos off len < 2 ^ len :=
  Nat.mod_lt _ (Nat.two_pow_pos len)

theorem pktLen_lt : (queryRxDescStatus m pos).attrib.pktLen < 2 ^ 14 := leBitsTo4Byte_lt m pos 0 14

theorem pktOffset_lt : (queryRxDescStatus m pos).pktOffset < 2 ^ 15 := by
  have h1 := pktLen_lt m pos
  have h2 : (queryRxDescStatus m pos).drvinfoSz < 256 := Nat.mod_lt _ (by decide)
  have h3 : (queryRxDescStatus m pos).shiftSz < 2 ^ 2 := leBitsTo4Byte_lt m pos 24 2
  unfold RxDesc.pktOffset RxDesc.dataOffset rxdescSize
  omega

/-- The `u16` is wide enough. -/
theorem nextOffset_eq : (queryRxDescStatus m pos).nextOffset
    = rnd8 (queryRxDescStatus m pos).pktOffset := by
  have h1 := pktOffset_lt m pos
  have h2 := rnd8_lt (queryRxDescStatus m pos).pktOffset
  exact Nat.mod_eq_of_lt (by omega)

theorem le_nextOffset : (queryRxDescStatus m pos).pktOffset ≤ (queryRxDescStatus m pos).nextOffset := by
  rw [nextOffset_eq]
  exact rnd8_ge _

theorem le_pktOffset : 24 ≤ (queryRxDescStatus m pos).pktOffset := by
  unfold RxDesc.pktOffset RxDesc.dataOffset rxdescSize
  omega

end

/-- The frame has the bytes of the packet. -/
theorem bytes_osAlloc {skb : Option Nat} {cloneOk : Bool} {m : Mem} {p id : Nat} {a : RxPktAttrib}
    {f : RecvFrame} (ha : a.pktLen < 2 ^ 14)
    (h : rtwOsAllocRecvframe skb cloneOk m p { id := id, attrib := a, pkt := false } = (f, true)) :
    (f.put a.pktLen).1.bytes = m.read p a.pktLen := by
  have hsz := recvAllocSz_bounds a ha
  -- an empty frame with room for the packet, and the packet there already
  have key : ∀ g : RecvFrame, g.rxTail = g.rxData → g.len = 0 → g.rxData + a.pktLen ≤ g.rxEnd →
      g.buf.read g.rxData a.pktLen = m.read p a.pktLen →
      (g.put a.pktLen).1.bytes = m.read p a.pktLen := by
    intro g htail hlen hroom hbuf
    have hroom : ¬ (g.rxEnd : Int) < g.rxTail + a.pktLen := by omega
    have hlen' : RecvFrame.addLen g.len a.pktLen = a.pktLen := by
      unfold RecvFrame.addLen
      omega
    unfold RecvFrame.put RecvFrame.bytes
    rw [if_neg hroom, hlen']
    exact hbuf
  unfold rtwOsAllocRecvframe at h
  cases skb with
  | some addr =>
      cases h
      refine key _ rfl rfl ?_ ?_
      · dsimp only
        split
        · omega
        · omega
      · dsimp only
        unfold Mem.copy
        have hread := Mem.read_write_self (fun _ => 0)
          (addr + (8 - addr % 8) + if a.qos then 6 else 0) (m.read p a.pktLen)
        rw [Mem.length_read] at hread
        exact hread
  | none =>
      dsimp only at h
      split at h
      · cases h
      · split at h
        · cases h
          refine key _ rfl rfl ?_ rfl
          dsimp only
          omega
        · cases h

theorem osAlloc_snd {env : TurnEnv} {m : Mem} {p : Nat} {f : RecvFrame} :
    (rtwOsAllocRecvframe env.skb env.cloneOk m p f).2 = true ↔
      env.skb.isSome = true
        ∨ ((f.attrib.mfrag && f.attrib.fragNum == 0) = false ∧ env.cloneOk = true) := by
  unfold rtwOsAllocRecvframe
  cases env.skb with
  | some addr => simp
  | none =>
      dsimp only
      split
      · rename_i hfirst
        simp [hfirst]
      · rename_i hfirst
        cases env.cloneOk with
        | true => simpa using hfirst
        | false => simp

/-! ## What the loop does -/

/-- The packet at `pos` is taken: there is a frame and an skb for it, it has no error that counts,
and its bytes are there. -/
structure Taken (mpMode : Bool) (env : TurnEnv) (m : Mem) (len pos : Nat) : Prop where
  frame : env.frame.isSome = true
  good : mpMode = true ∨ (queryRxDescStatus m pos).err = false
  pktLen_pos : 0 < (queryRxDescStatus m pos).attrib.pktLen
  fits : pos + (queryRxDescStatus m pos).pktOffset ≤ len
  skb : env.skb.isSome = true
    ∨ (((queryRxDescStatus m pos).attrib.mfrag
        && (queryRxDescStatus m pos).attrib.fragNum == 0) = false ∧ env.cloneOk = true)

/-- What a turn does with a packet that is taken, `f` being the frame it makes. -/
def takenEvents (m : Mem) (pos : Nat) (f : RecvFrame) : List BulkEvent :=
  let d := queryRxDescStatus m pos
  .desc pos :: .packet (pos + d.dataOffset) d.attrib.pktLen ::
    if d.normalRx then [.entry f] else []

section

variable (mpMode : Bool) (env : Nat → TurnEnv) (m : Mem) (len : Nat)

/-- The turns from `k` on, at `pos`. -/
inductive Walk : (k pos : Nat) → List BulkEvent → Prop where
  | noFrame {k pos : Nat} : (env k).frame = none → Walk k pos []
  | stop {k pos : Nat} : (env k).frame.isSome = true → ¬ Taken mpMode (env k) m len pos →
      Walk k pos [.desc pos]
  | last {k pos : Nat} {f : RecvFrame} : Taken mpMode (env k) m len pos →
      f.bytes = m.read (pos + (queryRxDescStatus m pos).dataOffset)
        (queryRxDescStatus m pos).attrib.pktLen →
      len ≤ pos + (queryRxDescStatus m pos).nextOffset → Walk k pos (takenEvents m pos f)
  | next {k pos : Nat} {f : RecvFrame} {events : List BulkEvent} :
      Taken mpMode (env k) m len pos →
      f.bytes = m.read (pos + (queryRxDescStatus m pos).dataOffset)
        (queryRxDescStatus m pos).attrib.pktLen →
      pos + (queryRxDescStatus m pos).nextOffset < len →
      Walk (k + 1) (pos + (queryRxDescStatus m pos).nextOffset) events →
      Walk k pos (takenEvents m pos f ++ events)

end

section

variable {mpMode : Bool} {env : Nat → TurnEnv} {m : Mem} {len : Nat}

/-- A packet that is not taken ends the loop. -/
theorem loop_stop {k pos fuel : Nat} (hpos : pos ≤ len)
    (hframe : (env k).frame.isSome = true) (hnot : ¬ Taken mpMode (env k) m len pos) :
    recvbufLoop mpMode env m (fuel + 1) k pos ((len : Int) - pos) = some [.desc pos] := by
  obtain ⟨id, hid⟩ := Option.isSome_iff_exists.mp hframe
  rw [recvbufLoop, hid]
  dsimp only
  split
  · rfl
  · rename_i herr
    split
    · rfl
    · rename_i hfit
      rw [not_or] at hfit
      cases halloc : rtwOsAllocRecvframe (env k).skb (env k).cloneOk m
          (pos + (queryRxDescStatus m pos).dataOffset)
          { id := id, attrib := (queryRxDescStatus m pos).attrib, pkt := false } with
      | mk f ok =>
          cases ok with
          | false => rfl
          | true =>
              -- every condition for a packet to be taken holds
              exfalso
              refine hnot ⟨hframe, ?_, by omega, by omega, osAlloc_snd.mp (congrArg Prod.snd halloc)⟩
              cases mpMode with
              | true => exact Or.inl rfl
              | false => exact Or.inr (by simpa using herr)

/-- A packet that is taken, and what is left behind it. -/
theorem loop_taken {k pos : Nat} (hlen : len < 2 ^ 31) (ht : Taken mpMode (env k) m len pos) :
    ∃ f : RecvFrame, f.bytes = m.read (pos + (queryRxDescStatus m pos).dataOffset)
        (queryRxDescStatus m pos).attrib.pktLen
      ∧ ∀ fuel, recvbufLoop mpMode env m (fuel + 1) k pos ((len : Int) - pos)
        = if pos + (queryRxDescStatus m pos).nextOffset < len then
            (recvbufLoop mpMode env m fuel (k + 1) (pos + (queryRxDescStatus m pos).nextOffset)
              ((len : Int) - (pos + (queryRxDescStatus m pos).nextOffset : Nat))).map
                (takenEvents m pos f ++ ·)
          else some (takenEvents m pos f) := by
  obtain ⟨id, hid⟩ := Option.isSome_iff_exists.mp ht.frame
  have hok : (rtwOsAllocRecvframe (env k).skb (env k).cloneOk m
      (pos + (queryRxDescStatus m pos).dataOffset)
      { id := id, attrib := (queryRxDescStatus m pos).attrib, pkt := false }).2 = true :=
    osAlloc_snd.mpr ht.skb
  cases halloc : rtwOsAllocRecvframe (env k).skb (env k).cloneOk m
      (pos + (queryRxDescStatus m pos).dataOffset)
      { id := id, attrib := (queryRxDescStatus m pos).attrib, pkt := false } with
  | mk f ok =>
      rw [halloc] at hok
      obtain rfl : ok = true := hok
      refine ⟨_, bytes_osAlloc (pktLen_lt m pos) halloc, ?_⟩
      intro fuel
      have herr : ¬ (!mpMode && (queryRxDescStatus m pos).err) = true := by
        rcases ht.good with h | h
        · simp [h]
        · simp [h]
      have hfits := ht.fits
      have hpos := ht.pktLen_pos
      have hfit : ¬ ((queryRxDescStatus m pos).attrib.pktLen = 0
          ∨ ((len : Int) - pos) % 2 ^ 32 < (queryRxDescStatus m pos).pktOffset) := by
        omega
      rw [recvbufLoop, hid]
      dsimp only
      rw [if_neg herr, if_neg hfit, halloc]
      dsimp only
      by_cases hnext : pos + (queryRxDescStatus m pos).nextOffset < len
      · rw [if_pos hnext, if_pos (by omega)]
        congr 2
        omega
      · rw [if_neg hnext, if_neg (by omega)]
        rfl

/-- **The loop ends**, within as many turns as there are bytes. -/
theorem loop_walks (hlen : len < 2 ^ 31) : ∀ (n : Nat) {k pos : Nat}, pos < len → len - pos ≤ n →
    ∃ events, Walk mpMode env m len k pos events
      ∧ ∀ fuel, n ≤ fuel →
        recvbufLoop mpMode env m fuel k pos ((len : Int) - pos) = some events := by
  intro n
  induction n with
  | zero =>
      intro k pos hpos hn
      omega
  | succ n ih =>
      intro k pos hpos hn
      cases hframe : (env k).frame with
      | none =>
          refine ⟨[], .noFrame hframe, ?_⟩
          intro fuel hfuel
          obtain ⟨fuel, rfl⟩ := Nat.exists_eq_succ_of_ne_zero (show fuel ≠ 0 by omega)
          rw [recvbufLoop, hframe]
      | some id =>
          have hsome : (env k).frame.isSome = true := by rw [hframe]; rfl
          by_cases ht : Taken mpMode (env k) m len pos
          · obtain ⟨f, hbytes, hloop⟩ := loop_taken hlen ht
            by_cases hnext : pos + (queryRxDescStatus m pos).nextOffset < len
            · have hge := le_nextOffset m pos
              have hdesc := le_pktOffset m pos
              obtain ⟨events, hwalk, hrest⟩ := ih (k := k + 1) hnext (by omega)
              refine ⟨_, .next ht hbytes hnext hwalk, ?_⟩
              intro fuel hfuel
              obtain ⟨fuel, rfl⟩ := Nat.exists_eq_succ_of_ne_zero (show fuel ≠ 0 by omega)
              rw [hloop fuel, if_pos hnext, hrest fuel (by omega)]
              rfl
            · refine ⟨_, .last ht hbytes (by omega), ?_⟩
              intro fuel hfuel
              obtain ⟨fuel, rfl⟩ := Nat.exists_eq_succ_of_ne_zero (show fuel ≠ 0 by omega)
              rw [hloop fuel, if_neg hnext]
          · refine ⟨_, .stop hsome ht, ?_⟩
            intro fuel hfuel
            obtain ⟨fuel, rfl⟩ := Nat.exists_eq_succ_of_ne_zero (show fuel ≠ 0 by omega)
            exact loop_stop (by omega) hsome ht

end

/-! ## Inside the transfer -/

/-- The position of the `n`-th packet from `pos` on. -/
def packetPos (m : Mem) (pos : Nat) : Nat → Nat
  | 0 => pos
  | n + 1 => packetPos m (pos + (queryRxDescStatus m pos).nextOffset) n

/-- Whatever is left behind the packets that are taken, it is nothing or has room for a
descriptor. -/
def RoomForDesc (mpMode : Bool) (env : Nat → TurnEnv) (m : Mem) (len k pos : Nat) : Prop :=
  ∀ n, (∀ j < n, Taken mpMode (env (k + j)) m len (packetPos m pos j)) →
    (env (k + n)).frame.isSome = true → packetPos m pos n < len →
    packetPos m pos n + rxdescSize ≤ len

section

variable {mpMode : Bool} {env : Nat → TurnEnv} {m : Mem} {len : Nat}

theorem roomForDesc_iff {k pos : Nat} : RoomForDesc mpMode env m len k pos ↔
    ((env k).frame.isSome = true → pos < len → pos + rxdescSize ≤ len)
      ∧ (Taken mpMode (env k) m len pos →
        RoomForDesc mpMode env m len (k + 1) (pos + (queryRxDescStatus m pos).nextOffset)) := by
  constructor
  · intro h
    refine ⟨fun hframe hpos => h 0 (fun j hj => absurd hj (Nat.not_lt_zero j)) hframe hpos, ?_⟩
    intro ht n hall hframe hpos
    refine h (n + 1) ?_ ?_ hpos
    · intro j hj
      cases j with
      | zero => exact ht
      | succ j =>
          have hj := hall j (by omega)
          rwa [Nat.add_right_comm] at hj
    · rwa [Nat.add_right_comm] at hframe
  · rintro ⟨h0, hnext⟩ n hall hframe hpos
    cases n with
    | zero => exact h0 hframe hpos
    | succ n =>
        refine hnext (hall 0 (Nat.succ_pos n)) n ?_ ?_ hpos
        · intro j hj
          have hj := hall (j + 1) (by omega)
          rwa [Nat.add_right_comm]
        · rwa [Nat.add_right_comm]

theorem takenEvents_inTransfer {k pos : Nat} {f : RecvFrame}
    (ht : Taken mpMode (env k) m len pos) :
    ∀ e ∈ takenEvents m pos f, e.InTransfer len := by
  have hfits := ht.fits
  intro e he
  unfold takenEvents at he
  dsimp only at he
  rcases List.mem_cons.mp he with rfl | he
  · have hdesc := le_pktOffset m pos
    exact Nat.le_trans (Nat.add_le_add_left hdesc pos) hfits
  · rcases List.mem_cons.mp he with rfl | he
    · show pos + (queryRxDescStatus m pos).dataOffset + (queryRxDescStatus m pos).attrib.pktLen ≤ len
      rw [Nat.add_assoc]
      exact hfits
    · split at he
      · rw [List.mem_singleton] at he
        subst he
        trivial
      · cases he

/-- **The reads of a walk are inside the transfer** exactly when there is room. -/
theorem walk_inTransfer_iff {k pos : Nat} {events : List BulkEvent}
    (hw : Walk mpMode env m len k pos events) (hpos : pos < len) :
    (∀ e ∈ events, e.InTransfer len) ↔ RoomForDesc mpMode env m len k pos := by
  induction hw with
  -- nothing is read without a frame; a walk that stops has read one descriptor
  | @noFrame k pos hnone =>
      rw [roomForDesc_iff]
      have hno : ¬ (env k).frame.isSome = true := by simp [hnone]
      constructor
      · intro _
        exact ⟨fun h => absurd h hno, fun ht => absurd ht.frame hno⟩
      · intro _ e he
        cases he
  | @stop k pos hframe hnot =>
      rw [roomForDesc_iff]
      constructor
      · intro h
        exact ⟨fun _ _ => h _ (List.mem_singleton_self _), fun ht => absurd ht hnot⟩
      · intro h e he
        rw [List.mem_singleton] at he
        subst he
        exact h.1 hframe hpos
  | @last k pos f ht _ hend =>
      rw [roomForDesc_iff]
      have hdesc := le_pktOffset m pos
      have hfits := ht.fits
      refine iff_of_true (takenEvents_inTransfer ht) ⟨fun _ _ => ?_, fun _ => ?_⟩
      · show pos + 24 ≤ len
        omega
      · rw [roomForDesc_iff]
        -- there is no room for another packet
        refine ⟨fun _ h => absurd h (by omega), fun ht' => ?_⟩
        have h1 := ht'.fits
        have h2 := le_pktOffset m (pos + (queryRxDescStatus m pos).nextOffset)
        omega
  | @next k pos f events ht _ hnext _ ih =>
      rw [roomForDesc_iff]
      have hdesc := le_pktOffset m pos
      have hfits := ht.fits
      constructor
      · intro h
        refine ⟨fun _ _ => ?_, fun _ => (ih hnext).mp fun e he => h e (List.mem_append_right _ he)⟩
        show pos + 24 ≤ len
        omega
      · intro h e he
        rcases List.mem_append.mp he with he | he
        · exact takenEvents_inTransfer ht e he
        · exact (ih hnext).mpr (h.2 ht) e he

end

/-! ## Transfers that are lists of packets -/

/-- What the bytes of a descriptor say. -/
def descOf (bs : List UInt8) : RxDesc := queryRxDescStatus (fun i => bs.getD i 0) 0

/-- A packet as the device puts it into a transfer. -/
structure BulkPacket where
  desc : List UInt8
  drvinfo : List UInt8
  shift : List UInt8
  payload : List UInt8
  pad : List UInt8
  length_desc : desc.length = rxdescSize
  length_drvinfo : drvinfo.length = (descOf desc).drvinfoSz
  length_shift : shift.length = (descOf desc).shiftSz
  length_payload : payload.length = (descOf desc).attrib.pktLen
  payload_pos : 0 < payload.length
  /-- padded to a multiple of 8 -/
  padded : ((descOf desc).pktOffset + pad.length) % 8 = 0
  pad_lt : pad.length < 8

namespace BulkPacket

def bytes (p : BulkPacket) : List UInt8 := p.desc ++ (p.drvinfo ++ (p.shift ++ (p.payload ++ p.pad)))

def good (p : BulkPacket) : Bool := !(descOf p.desc).err

def normalRx (p : BulkPacket) : Bool := (descOf p.desc).normalRx

end BulkPacket

/-- A descriptor is its 24 bytes. -/
theorem queryRxDescStatus_read (m : Mem) (pos : Nat) :
    queryRxDescStatus m pos = descOf (m.read pos rxdescSize) := by
  have hbyte : ∀ i < rxdescSize, (m.read pos rxdescSize).getD i 0 = m (pos + i) := by
    intro i hi
    rw [List.getD_eq_getElem?_getD, Mem.getElem?_read m hi]
    rfl
  have hle : ∀ i, i + 3 < rxdescSize → ∀ off len, leBitsTo4Byte m (pos + i) off len
      = leBitsTo4Byte (fun i => (m.read pos rxdescSize).getD i 0) (0 + i) off len := by
    intro i hi off len
    unfold leBitsTo4Byte le32At Mem.le16
    dsimp only
    rw [Nat.zero_add, hbyte i (by omega), hbyte (i + 1) (by omega), hbyte (i + 2) (by omega),
      hbyte (i + 2 + 1) (by omega)]
    rfl
  have h0 := hle 0 (by decide)
  have h4 := hle 4 (by decide)
  have h8 := hle 8 (by decide)
  simp only [Nat.add_zero] at h0
  unfold descOf queryRxDescStatus
  simp only [h0, h4, h8]

/-- The frames that are passed to `rtw_recv_entry`. -/
def entries (events : List BulkEvent) : List RecvFrame := events.filterMap BulkEvent.entry?

/-- Every allocation of the run succeeds. -/
def AllocsOk (env : Nat → TurnEnv) : Prop :=
  ∀ k, (env k).frame.isSome = true ∧ (env k).skb.isSome = true

theorem entries_append (es es' : List BulkEvent) : entries (es ++ es') = entries es ++ entries es' :=
  List.filterMap_append

theorem entries_takenEvents (m : Mem) (pos : Nat) (f : RecvFrame) :
    entries (takenEvents m pos f) = if (queryRxDescStatus m pos).normalRx then [f] else [] := by
  unfold takenEvents
  dsimp only
  split
  · rfl
  · rfl

section

variable {env : Nat → TurnEnv} {m : Mem} {len : Nat}

/-- The first packet of a transfer: its descriptor, its payload, and how far the next one is. -/
theorem first_packet {pos : Nat} {p : BulkPacket} {rest : List UInt8} (hpos : pos ≤ len)
    (h : m.read pos (len - pos) = p.bytes ++ rest) :
    queryRxDescStatus m pos = descOf p.desc
      ∧ m.read (pos + (descOf p.desc).dataOffset) (descOf p.desc).attrib.pktLen = p.payload
      ∧ pos + (descOf p.desc).pktOffset ≤ len
      ∧ pos + (queryRxDescStatus m pos).nextOffset ≤ len
      ∧ m.read (pos + (queryRxDescStatus m pos).nextOffset)
          (len - (pos + (queryRxDescStatus m pos).nextOffset)) = rest := by
  have h1 := p.length_desc
  have h2 := p.length_drvinfo
  have h3 := p.length_shift
  have h4 := p.length_payload
  have hoff : (descOf p.desc).pktOffset + p.pad.length = p.bytes.length := by
    unfold BulkPacket.bytes RxDesc.pktOffset RxDesc.dataOffset
    simp only [List.length_append]
    omega
  have hlen := congrArg List.length h
  rw [Mem.length_read, List.length_append] at hlen
  -- the descriptor is the first 24 bytes
  have hdesc : queryRxDescStatus m pos = descOf p.desc := by
    have hall : m.read pos (len - pos)
        = [] ++ (p.desc ++ (p.drvinfo ++ (p.shift ++ (p.payload ++ p.pad)) ++ rest)) := by
      rw [h, BulkPacket.bytes, List.append_assoc]
      rfl
    have hread := Mem.read_middle hall
    rw [List.length_nil, Nat.add_zero, h1] at hread
    rw [queryRxDescStatus_read, hread]
  have hnext : (queryRxDescStatus m pos).nextOffset = p.bytes.length := by
    rw [nextOffset_eq, hdesc, rnd8_add p.pad_lt p.padded, hoff]
  refine ⟨hdesc, ?_, by omega, by omega, ?_⟩
  · have hall : m.read pos (len - pos)
        = p.desc ++ (p.drvinfo ++ p.shift) ++ (p.payload ++ (p.pad ++ rest)) := by
      simp only [h, BulkPacket.bytes, List.append_assoc]
    have hread := Mem.read_middle hall
    -- the payload is behind the driver info and the shift
    have hstart : (p.desc ++ (p.drvinfo ++ p.shift)).length = (descOf p.desc).dataOffset := by
      unfold RxDesc.dataOffset
      simp only [List.length_append]
      omega
    rw [hstart, h4] at hread
    exact hread
  · have hall : m.read pos (len - pos) = p.bytes ++ (rest ++ []) := by
      rw [h, List.append_nil]
    have hread := Mem.read_middle hall
    have hrest : len - (pos + p.bytes.length) = rest.length := by omega
    rw [hnext, hrest]
    exact hread

/-- The packets in front of the first one with an error. -/
def untilError (ps : List BulkPacket) : List BulkPacket := ps.takeWhile BulkPacket.good

/-- **What a walk over a list of packets passes on.** -/
theorem walk_entries (halloc : AllocsOk env) : ∀ {ps : List BulkPacket} {k pos : Nat}
    {events : List BulkEvent}, pos < len → m.read pos (len - pos) = ps.flatMap BulkPacket.bytes →
    Walk false env m len k pos events →
    (entries events).map RecvFrame.bytes
      = ((untilError ps).filter BulkPacket.normalRx).map BulkPacket.payload := by
  intro ps
  induction ps with
  | nil =>
      intro k pos events hpos hread _
      have hlen := congrArg List.length hread
      rw [Mem.length_read] at hlen
      simp only [List.flatMap_nil, List.length_nil] at hlen
      omega
  | cons p ps ih =>
      intro k pos events hpos hread hw
      rw [List.flatMap_cons] at hread
      obtain ⟨hdesc, hpayload, hfits, hend, hrest⟩ := first_packet (Nat.le_of_lt hpos) hread
      have hlen := p.length_payload
      have hppos := p.payload_pos
      -- with its allocations a packet is taken unless it has an error
      have htaken : p.good = true → Taken false (env k) m len pos := by
        intro hgood
        refine ⟨(halloc k).1, Or.inr ?_, ?_, ?_, Or.inl (halloc k).2⟩
        · rw [hdesc]
          simpa [BulkPacket.good] using hgood
        · rw [hdesc]
          omega
        · rw [hdesc]
          exact hfits
      have hgood : Taken false (env k) m len pos → p.good = true := by
        intro ht
        have herr := ht.good
        rw [hdesc] at herr
        simpa [BulkPacket.good] using herr
      -- the entry of a packet that is taken
      have hentry : ∀ {f : RecvFrame}, f.bytes
          = m.read (pos + (queryRxDescStatus m pos).dataOffset)
            (queryRxDescStatus m pos).attrib.pktLen →
          (entries (takenEvents m pos f)).map RecvFrame.bytes
            = ([p].filter BulkPacket.normalRx).map BulkPacket.payload := by
        intro f hbytes
        rw [hdesc, hpayload] at hbytes
        rw [entries_takenEvents, hdesc]
        by_cases hn : (descOf p.desc).normalRx = true
        · rw [if_pos hn, List.filter_cons_of_pos (show p.normalRx = true from hn)]
          simp [hbytes]
        · rw [if_neg hn, List.filter_cons_of_neg (show ¬ p.normalRx = true from hn)]
          rfl
      have hsplit : p.good = true → (untilError (p :: ps)).filter BulkPacket.normalRx
          = [p].filter BulkPacket.normalRx ++ (untilError ps).filter BulkPacket.normalRx := by
        intro hg
        rw [untilError, List.takeWhile_cons_of_pos hg, ← List.singleton_append, List.filter_append]
        rfl
      cases hw with
      | noFrame hnone =>
          have hsome := (halloc k).1
          rw [hnone] at hsome
          cases hsome
      | stop _ hnot =>
          have hbad : ¬ p.good = true := fun hg => hnot (htaken hg)
          rw [untilError, List.takeWhile_cons_of_neg hbad]
          rfl
      | last ht hbytes hlast =>
          have hnil : ps = [] := by
            have hl := congrArg List.length hrest
            rw [Mem.length_read] at hl
            cases ps with
            | nil => rfl
            | cons q qs =>
                have hq := q.payload_pos
                rw [List.flatMap_cons, List.length_append] at hl
                simp only [BulkPacket.bytes, List.length_append] at hl
                omega
          rw [hsplit (hgood ht), hentry hbytes, hnil]
          simp [untilError]
      | next ht hbytes hnext hrestw =>
          rw [hsplit (hgood ht), entries_append, List.map_append, List.map_append, hentry hbytes,
            ih hnext hrest hrestw]

/-- Up to the first error all good packets are there exactly when none stands behind an error. -/
theorem untilError_eq_iff : ∀ {ps : List BulkPacket},
    ((untilError ps).filter BulkPacket.normalRx).map BulkPacket.payload
        = (ps.filter fun p => p.good && p.normalRx).map BulkPacket.payload
      ↔ ps.Pairwise fun p q => p.good = false → (q.good && q.normalRx) = false := by
  intro ps
  induction ps with
  | nil => exact iff_of_true rfl List.Pairwise.nil
  | cons p ps ih =>
      rw [List.pairwise_cons]
      cases hg : p.good with
      | true =>
          rw [untilError, List.takeWhile_cons_of_pos hg]
          have hhead : ∀ q ∈ ps, (true = false → (q.good && q.normalRx) = false) := by
            intro q _ h
            cases h
          cases hn : p.normalRx with
          | true =>
              rw [List.filter_cons_of_pos hn, List.filter_cons_of_pos (by rw [hg, hn]; rfl),
                List.map_cons, List.map_cons, List.cons_inj_right]
              exact ih.trans (and_iff_right hhead).symm
          | false =>
              rw [List.filter_cons_of_neg (by simp [hn]), List.filter_cons_of_neg (by simp [hn])]
              exact ih.trans (and_iff_right hhead).symm
      | false =>
          rw [untilError, List.takeWhile_cons_of_neg (by simp [hg]),
            List.filter_cons_of_neg (by simp [hg])]
          have hnone : [] = (ps.filter fun p => p.good && p.normalRx).map BulkPacket.payload
              ↔ ∀ q ∈ ps, (q.good && q.normalRx) = false := by
            rw [eq_comm, List.map_eq_nil_iff, List.filter_eq_nil_iff]
            simp only [Bool.not_eq_true]
          refine hnone.trans ⟨fun h => ⟨fun q hq _ => h q hq, ?_⟩, fun h q hq => h.1 q hq rfl⟩
          refine List.pairwise_of_forall_mem_list ?_
          intro _ _ q hq _
          exact h q hq

end

/-! ## One turn on the adapter -/

section

variable {os : Os} {aes : AesKey → BlockMode.Block → BlockMode.Block} {a b : Adapter}
variable {m : Mem} {env : TurnEnv} {len pos id : Nat}

/-- **The turn of the adapter is the turn of the walk**: a packet that is taken goes to
`rtw_recv_entry` with its bytes, or back to the pool when it is not from the air. -/
theorem turn_taken (hlen : len < 2 ^ 31)
    (halloc : rtwAllocRecvframe a = some (id, b)) (ht : Taken b.mpMode env m len pos) :
    ∃ f : RecvFrame, f.bytes = m.read (pos + (queryRxDescStatus m pos).dataOffset)
        (queryRxDescStatus m pos).attrib.pktLen
      ∧ recvbuf2recvframe os aes a (rxPacketAt m env pos ((len : Int) - pos))
        = if (queryRxDescStatus m pos).normalRx then
            rtwRecvEntry os aes b f >>= fun r => .done r.1
          else .done (rtwFreeRecvframe b f) := by
  have hok : (rtwOsAllocRecvframe env.skb env.cloneOk m
      (pos + (queryRxDescStatus m pos).dataOffset)
      { id := id, attrib := (queryRxDescStatus m pos).attrib, pkt := false }).2 = true :=
    osAlloc_snd.mpr ht.skb
  cases hos : rtwOsAllocRecvframe env.skb env.cloneOk m
      (pos + (queryRxDescStatus m pos).dataOffset)
      { id := id, attrib := (queryRxDescStatus m pos).attrib, pkt := false } with
  | mk f ok =>
      rw [hos] at hok
      obtain rfl : ok = true := hok
      refine ⟨_, bytes_osAlloc (pktLen_lt m pos) hos, ?_⟩
      have herr : ¬ (!b.mpMode && ((queryRxDescStatus m pos).attrib.crcErr
          || (queryRxDescStatus m pos).attrib.icvErr)) = true := by
        rcases ht.good with h | h
        · simp [h]
        · simp only [RxDesc.err] at h
          simp [h]
      have hfits := ht.fits
      have hppos := ht.pktLen_pos
      have hfit : ¬ ((queryRxDescStatus m pos).attrib.pktLen = 0
          || !!decide (((len : Int) - pos) % 2 ^ 32 < (queryRxDescStatus m pos).pktOffset)) = true := by
        simp only [Bool.not_not, Bool.or_eq_true, decide_eq_true_eq]
        omega
      unfold recvbuf2recvframe rxPacketAt
      rw [halloc]
      dsimp only
      rw [if_neg herr, if_neg hfit, hos]
      rfl

end

/-! ## Every transfer -/

/-- **Every bulk-in transfer.** The loop ends. It stays inside the transfer exactly when there is
room for a descriptor wherever it goes on, and it passes every good packet on, once and in order,
exactly when none stands behind a packet with an error. -/
theorem bulk_in_handed_on (mpMode : Bool) (env : Nat → TurnEnv) (m : Mem) (len : Nat)
    (hdesc : rxdescSize ≤ len) (hlen : len < 2 ^ 31) :
    ∃ events, (∀ fuel, len ≤ fuel → recvbufWalk mpMode env m len fuel = some events)
      ∧ ((∀ e ∈ events, e.InTransfer len) ↔ RoomForDesc mpMode env m len 0 0)
      ∧ (mpMode = false → AllocsOk env → ∀ ps : List BulkPacket, m.read 0 len = ps.flatMap BulkPacket.bytes →
        ((entries events).map RecvFrame.bytes
            = (ps.filter fun p => p.good && p.normalRx).map BulkPacket.payload
          ↔ ps.Pairwise fun p q => p.good = false → (q.good && q.normalRx) = false)) := by
  have hpos : 0 < len := Nat.lt_of_lt_of_le (by decide) hdesc
  obtain ⟨events, hw, hloop⟩ : ∃ events, Walk mpMode env m len 0 0 events ∧ _ :=
    loop_walks hlen len hpos (Nat.sub_le _ _)
  refine ⟨events, ?_, walk_inTransfer_iff hw hpos, ?_⟩
  · intro fuel hfuel
    have h := hloop fuel hfuel
    rwa [Int.natCast_zero, Int.sub_zero] at h
  · intro hmp halloc ps hread
    subst hmp
    rw [walk_entries halloc hpos hread hw]
    exact untilError_eq_iff

/-- A packet of eight bytes. -/
def goodPacket : BulkPacket where
  desc := [8, 0] ++ List.replicate 22 0
  drvinfo := []
  shift := []
  payload := List.replicate 8 1
  pad := []
  length_desc := by decide
  length_drvinfo := by decide
  length_shift := by decide
  length_payload := by decide
  payload_pos := by decide
  padded := by decide
  pad_lt := by decide

/-- The same with a CRC error. -/
def badPacket : BulkPacket where
  desc := [8, 0x40] ++ List.replicate 22 0
  drvinfo := []
  shift := []
  payload := List.replicate 8 1
  pad := []
  length_desc := by decide
  length_drvinfo := by decide
  length_shift := by decide
  length_payload := by decide
  payload_pos := by decide
  padded := by decide
  pad_lt := by decide

/-- The transfer of some packets. -/
def transferOf (ps : List BulkPacket) : Mem := fun i => (ps.flatMap BulkPacket.bytes).getD i 0

theorem bulk_in_handed_on_sample :
    ∃ events, recvbufWalk false (fun _ => {}) (transferOf [goodPacket, goodPacket]) 64 64 = some events
      ∧ (entries events).map RecvFrame.bytes = [List.replicate 8 1, List.replicate 8 1] := by
  obtain ⟨events, hloop, -, hpass⟩ := bulk_in_handed_on false (fun _ => {})
    (transferOf [goodPacket, goodPacket]) 64 (by decide) (by decide)
  have hread : (transferOf [goodPacket, goodPacket]).read 0 64
      = [goodPacket, goodPacket].flatMap BulkPacket.bytes := by decide
  have hall := (hpass rfl (fun _ => ⟨rfl, rfl⟩) [goodPacket, goodPacket] hread).mpr (by decide)
  exact ⟨events, hloop 64 (Nat.le_refl _), hall.trans (by decide)⟩

/-- Eight bytes are left behind a packet, and the loop reads a descriptor there; and a good packet
is lost behind one with an error. -/
theorem bulk_in_loses :
    (¬ ∀ (m : Mem) (len : Nat), rxdescSize ≤ len → len < 2 ^ 31 → ∀ events,
      recvbufWalk false (fun _ => {}) m len len = some events → ∀ e ∈ events, e.InTransfer len)
    ∧ ¬ ∀ (m : Mem) (len : Nat) (ps : List BulkPacket), rxdescSize ≤ len → len < 2 ^ 31 →
      m.read 0 len = ps.flatMap BulkPacket.bytes → ∀ events,
      recvbufWalk false (fun _ => {}) m len len = some events →
      (entries events).map RecvFrame.bytes
        = (ps.filter fun p => p.good && p.normalRx).map BulkPacket.payload := by
  constructor
  · intro h
    have hbad : (recvbufWalk false (fun _ => {}) (transferOf [goodPacket]) 40 40).map
        (fun events => decide (∀ e ∈ events, e.InTransfer 40)) = some false := by decide
    obtain ⟨events, hrun, hout⟩ := Option.map_eq_some_iff.mp hbad
    exact of_decide_eq_false hout
      (h (transferOf [goodPacket]) 40 (by decide) (by decide) events hrun)
  · intro h
    have hnone : (recvbufWalk false (fun _ => {}) (transferOf [badPacket, goodPacket]) 64 64).map
        (fun events => (entries events).length) = some 0 := by decide
    obtain ⟨events, hrun, hzero⟩ := Option.map_eq_some_iff.mp hnone
    have hall := h (transferOf [badPacket, goodPacket]) 64 [badPacket, goodPacket] (by decide)
      (by decide) (by decide) events hrun
    have hlen := congrArg List.length hall
    rw [List.length_map, hzero] at hlen
    exact absurd hlen (by decide)

end Rtl8812au
