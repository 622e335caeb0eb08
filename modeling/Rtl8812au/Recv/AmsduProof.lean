import Rtl8812au.Recv.PortProof

/-!
# Splitting an A-MSDU

A list of subframes, each padded to a multiple of four except for the last, comes back from
`amsdu_to_msdu` payload by payload, with up to eight bytes of ICV behind it. Whatever the bytes are, what is
cut out lies inside the frame, and there are at most `MAX_SUBFRAME_COUNT` pieces of it.
-/

namespace Rtl8812au

/-- A subframe, with what is put behind its payload. -/
structure Subframe where
  da : MacAddr
  sa : MacAddr
  payload : List UInt8
  pad : List UInt8
  nonempty : payload ≠ []
  short : payload.length < 2 ^ 16
  padShort : pad.length ≤ 3

namespace Subframe

/-- The subframe as it is sent. -/
def bytes (s : Subframe) : List UInt8 :=
  s.da.bytes ++ s.sa.bytes ++ (htons s.payload.length ++ (s.payload ++ s.pad))

/-- The next subframe begins at a multiple of four. -/
def Padded (s : Subframe) : Prop := (ethHlen + s.payload.length + s.pad.length) % 4 = 0

/-- The 16-bit value at `i` of a payload. -/
def be16At (l : List UInt8) (i : Nat) : Nat := (l.getD i 0).toNat * 256 + (l.getD (i + 1) 0).toNat

/-- A payload that begins with an LLC/SNAP header, which an Ethernet packet does without. -/
def Snapped (l : List UInt8) : Prop :=
  8 ≤ l.length ∧ ((l.take snapSize = rfc1042Header ∧ be16At l snapSize ≠ ethPIpx
    ∧ be16At l snapSize ≠ ethPAarp) ∨ l.take snapSize = bridgeTunnelHeader)

instance (l : List UInt8) : Decidable (Snapped l) := inferInstanceAs (Decidable (_ ∧ _))

/-- The payload as an Ethernet packet with the addresses of the frame. -/
def packet (a : RxPktAttrib) (s : Subframe) : Pkt :=
  if Snapped s.payload then a.dst.bytes ++ a.src.bytes ++ s.payload.drop snapSize
  else a.dst.bytes ++ a.src.bytes ++ htons s.payload.length ++ s.payload

theorem length_bytes (s : Subframe) : s.bytes.length = ethHlen + s.payload.length + s.pad.length := by
  have h6 : ∀ a : MacAddr, a.bytes.length = 6 := fun _ => rfl
  have h2 : ∀ n, (htons n).length = 2 := fun _ => rfl
  simp only [bytes, List.length_append, h6, h2, ethHlen]
  omega

/-- The padding is what the receiver skips. -/
theorem Padded.eq {s : Subframe} (h : s.Padded) :
    s.pad.length = (4 - (s.payload.length + ethHlen) % 4) % 4 := by
  have hle := s.padShort
  unfold Padded at h
  omega

end Subframe

/-! ## One subframe -/

variable {m : Mem} {p : Nat} {s : Subframe} {a : RxPktAttrib}

theorem be16_of_read {q n : Nat} (h : m.read q 2 = htons n) (hn : n < 2 ^ 16) : m.be16 q = n := by
  have hvalue := htons_value n []
  rw [List.append_nil, ← h, getD_read, getD_read, if_pos (by omega), if_pos (by omega)] at hvalue
  rw [Mem.be16]
  exact hvalue.trans (Nat.mod_eq_of_lt hn)

/-- The fields of a subframe that stands at `p`. -/
theorem subframe_fields {rest : List UInt8} {k : Nat} (h : m.read p k = s.bytes ++ rest) :
    m.be16 (p + 12) = s.payload.length ∧ m.read (p + ethHlen) s.payload.length = s.payload := by
  constructor
  · have hsplit : s.bytes ++ rest
        = (s.da.bytes ++ s.sa.bytes) ++ (htons s.payload.length ++ ((s.payload ++ s.pad) ++ rest)) := by
      simp only [Subframe.bytes, List.append_assoc]
    exact be16_of_read (Mem.read_middle (h.trans hsplit)) s.short
  · have hsplit : s.bytes ++ rest
        = (s.da.bytes ++ s.sa.bytes ++ htons s.payload.length) ++ (s.payload ++ (s.pad ++ rest)) := by
      simp only [Subframe.bytes, List.append_assoc]
    exact Mem.read_middle (h.trans hsplit)

/-- The receiver looks for the header in the memory, where the payload is. -/
theorem snapRemoved_iff {l : List UInt8} (h : m.read p l.length = l) (h8 : 8 ≤ l.length) :
    snapRemoved m p = true ↔ Subframe.Snapped l := by
  have hhead : m.read p snapSize = l.take snapSize := by
    rw [← Mem.take_read m (show snapSize ≤ l.length by unfold snapSize; omega), h]
  have hget : ∀ i < 8, m (p + i) = l.getD i 0 := fun i hi => by
    have hread := getD_read m p l.length i
    rw [h, if_pos (by omega)] at hread
    exact hread.symm
  have htype : m.be16 (p + snapSize) = Subframe.be16At l snapSize := by
    have h6 : m (p + snapSize) = l.getD snapSize 0 := hget 6 (by omega)
    have h7 : m (p + snapSize + 1) = l.getD (snapSize + 1) 0 := hget 7 (by omega)
    rw [Mem.be16, Subframe.be16At, h6, h7]
  unfold snapRemoved Subframe.Snapped
  rw [hhead, htype]
  simp [h8, and_assoc]

/-- **The packet of a subframe** is its payload in Ethernet form. -/
theorem msduPkt_eq {rest : List UInt8} {k : Nat} (h : m.read p k = s.bytes ++ rest) :
    rtwOsAllocMsduPkt a m s.payload.length p = s.packet a := by
  obtain ⟨-, hpay⟩ := subframe_fields h
  rw [rtwOsAllocMsduPkt, Subframe.packet, hpay]
  by_cases h8 : 8 ≤ s.payload.length
  · have hiff := snapRemoved_iff hpay h8
    by_cases hsnap : Subframe.Snapped s.payload
    · rw [if_pos ⟨h8, hiff.mpr hsnap⟩, if_pos hsnap]
    · rw [if_neg fun hs => hsnap (hiff.mp hs.2), if_neg hsnap]
  · rw [if_neg fun hs => h8 hs.1, if_neg fun hs : Subframe.Snapped _ => h8 hs.1]

/-! ## The loop -/

/-- Nothing is left to cut. -/
theorem parseSubframes_short {alloc : Nat → Bool} (room : Nat) {aLen : Int} (h : aLen ≤ ethHlen) :
    parseSubframes a m alloc room p aLen = [] := by
  cases room with
  | zero => rfl
  | succ room => rw [parseSubframes, if_pos h]

/-- **The loop on subframes.** -/
theorem parseSubframes_subframes {subs : List Subframe} {icv : List UInt8} (hicv : icv.length ≤ 8) :
    ∀ (room p : Nat), subs ≠ [] → subs.length ≤ room → (∀ s ∈ subs.dropLast, s.Padded) →
      m.read p (subs.flatMap Subframe.bytes ++ icv).length = subs.flatMap Subframe.bytes ++ icv →
      parseSubframes a m (fun _ => true) room p ((subs.flatMap Subframe.bytes ++ icv).length : Nat)
        = subs.map (Subframe.packet a) := by
  induction subs with
  | nil => intro room p h; exact absurd rfl h
  | cons s subs ih =>
      intro room p _ hroom hpad h
      cases room with
      | zero => exact absurd hroom (Nat.not_succ_le_zero _)
      | succ room =>
          rw [List.flatMap_cons, List.append_assoc] at h ⊢
          obtain ⟨hn, -⟩ := subframe_fields h
          have hpay := s.nonempty
          have hpos : 0 < s.payload.length := List.length_pos_iff.mpr hpay
          have hlen : (s.bytes ++ (subs.flatMap Subframe.bytes ++ icv)).length
              = ethHlen + s.payload.length + s.pad.length + (subs.flatMap Subframe.bytes ++ icv).length := by
            rw [List.length_append, s.length_bytes]
          rw [parseSubframes, if_neg (by omega), hn]
          dsimp only
          rw [if_neg (by omega), if_neg (by simp), msduPkt_eq h]
          cases subs with
          | nil =>
              -- the last one: the padding and the ICV are too short for another header
              have hrest : (([] : List Subframe).flatMap Subframe.bytes ++ icv).length = icv.length := rfl
              have hpadShort := s.padShort
              have heth : ethHlen = 14 := rfl
              split_ifs
              · rfl
              · rfl
              · rw [parseSubframes_short room (by omega)]
                rfl
          | cons t subs =>
              have hs : s.Padded := hpad s (List.mem_cons_self ..)
              have hskip := hs.eq
              have hmore : 0 < ((t :: subs).flatMap Subframe.bytes ++ icv).length := by
                rw [List.flatMap_cons, List.append_assoc, List.length_append, t.length_bytes]
                unfold ethHlen
                omega
              rw [if_neg (by omega), ← hskip, if_neg (by omega), List.map_cons]
              congr 1
              have hleft : (((s.bytes ++ ((t :: subs).flatMap Subframe.bytes ++ icv)).length : Nat) : Int)
                  - ethHlen - s.payload.length - s.pad.length
                  = (((t :: subs).flatMap Subframe.bytes ++ icv).length : Nat) := by omega
              have hnext : m.read (p + ethHlen + s.payload.length + s.pad.length)
                  ((t :: subs).flatMap Subframe.bytes ++ icv).length
                  = (t :: subs).flatMap Subframe.bytes ++ icv := by
                have hmid : m.read p (s.bytes ++ ((t :: subs).flatMap Subframe.bytes ++ icv)).length
                    = s.bytes ++ (((t :: subs).flatMap Subframe.bytes ++ icv) ++ []) := by
                  rw [List.append_nil, h]
                have hread := Mem.read_middle hmid
                rwa [s.length_bytes, ← Nat.add_assoc, ← Nat.add_assoc] at hread
              rw [hleft]
              exact ih room _ (List.cons_ne_nil t subs) (Nat.le_of_succ_le_succ hroom)
                (fun x hx => hpad x (List.mem_cons_of_mem s hx)) hnext

/-! ## What is cut out of any bytes -/

/-- The spans lie between `pdata` and the end. -/
theorem subframeSpans_inside (m : Mem) (alloc : Nat → Bool) :
    ∀ (room pdata : Nat) (aLen : Int), ∀ s ∈ subframeSpans m alloc room pdata aLen,
      pdata ≤ s.1 ∧ ((s.1 + ethHlen + s.2 : Nat) : Int) ≤ pdata + aLen := by
  intro room
  induction room with
  | zero => intro pdata aLen s hs; cases hs
  | succ room ih =>
      intro pdata aLen s hs
      unfold subframeSpans at hs
      dsimp only at hs
      split at hs
      · cases hs
      · split at hs
        · cases hs
        · rename_i hfits
          have hhead : pdata ≤ pdata ∧ ((pdata + ethHlen + m.be16 (pdata + 12) : Nat) : Int) ≤ pdata + aLen :=
            ⟨Nat.le_refl pdata, by omega⟩
          split at hs
          · cases hs
          · split at hs
            · rw [List.mem_singleton.mp hs]
              exact hhead
            · rcases List.mem_cons.mp hs with rfl | hs
              · exact hhead
              · have hind := ih _ _ s hs
                omega

theorem length_subframeSpans (m : Mem) (alloc : Nat → Bool) :
    ∀ (room pdata : Nat) (aLen : Int), (subframeSpans m alloc room pdata aLen).length ≤ room := by
  intro room
  induction room with
  | zero => intro pdata aLen; exact Nat.le_refl 0
  | succ room ih =>
      intro pdata aLen
      unfold subframeSpans
      dsimp only
      split_ifs
      · exact Nat.zero_le _
      · exact Nat.zero_le _
      · exact Nat.zero_le _
      · exact Nat.succ_le_succ (Nat.zero_le room)
      · exact Nat.succ_le_succ (ih _ _)

/-- The frame behind the header and the IV, which is what is cut up. -/
def amsduBody (f : RecvFrame) : RecvFrame :=
  let f := (f.pull f.attrib.hdrlen).1
  if 0 < f.attrib.ivLen then (f.pull f.attrib.ivLen).1 else f

theorem amsduSubframes_eq (alloc : Nat → Bool) (f : RecvFrame) : amsduSubframes alloc f
    = parseSubframes (amsduBody f).attrib (amsduBody f).buf alloc maxSubframeCount (amsduBody f).rxData
        (toInt32 (amsduBody f).len) := rfl

/-- **What is cut out of any frame**: at most `MAX_SUBFRAME_COUNT` packets, each from a span of its own
inside the frame. -/
def CutInside (f : RecvFrame) : Prop :=
  ∀ alloc : Nat → Bool, ∃ spans : List (Nat × Nat),
    amsduSubframes alloc f
        = spans.map (fun s => rtwOsAllocMsduPkt (amsduBody f).attrib (amsduBody f).buf s.2 s.1)
      ∧ spans.length ≤ maxSubframeCount
      ∧ ∀ s ∈ spans, (amsduBody f).rxData ≤ s.1
        ∧ s.1 + ethHlen + s.2 ≤ (amsduBody f).rxData + (amsduBody f).len

theorem cutInside (f : RecvFrame) : CutInside f := by
  intro alloc
  refine ⟨subframeSpans (amsduBody f).buf alloc maxSubframeCount (amsduBody f).rxData
    (toInt32 (amsduBody f).len), ?_, length_subframeSpans _ _ _ _ _, fun s hs => ?_⟩
  · rw [amsduSubframes_eq, parseSubframes_eq]
  · obtain ⟨hlo, hhi⟩ := subframeSpans_inside _ _ _ _ _ s hs
    have hlen : toInt32 (amsduBody f).len ≤ (amsduBody f).len := by
      unfold toInt32
      split_ifs
      · exact Int.le_refl _
      · omega
    exact ⟨hlo, by omega⟩

/-- Header and IV are pulled off a frame that has them. -/
theorem amsduBody_eq {f : RecvFrame} (hw : f.WF) (h : f.attrib.hdrlen + f.attrib.ivLen ≤ f.len) :
    (amsduBody f).buf = f.buf ∧ (amsduBody f).attrib = f.attrib
      ∧ (amsduBody f).rxData = f.rxData + (f.attrib.hdrlen + f.attrib.ivLen)
      ∧ (amsduBody f).len = f.len - (f.attrib.hdrlen + f.attrib.ivLen) := by
  have hpull := RecvFrame.pull_eq (n := f.attrib.hdrlen) hw
  rw [if_pos (by omega)] at hpull
  have hw1 := RecvFrame.wf_pull (n := f.attrib.hdrlen) hw
  rw [hpull] at hw1
  unfold amsduBody
  rw [hpull]
  dsimp only
  by_cases hiv : 0 < f.attrib.ivLen
  · rw [if_pos hiv, RecvFrame.pull_eq hw1]
    dsimp only
    rw [if_pos (by omega)]
    exact ⟨rfl, rfl, Nat.add_assoc _ _ _, Nat.sub_sub _ _ _⟩
  · have h0 : f.attrib.ivLen = 0 := by omega
    rw [if_neg hiv, h0, Nat.add_zero]
    exact ⟨rfl, rfl, rfl, rfl⟩

/-- At most 64 subframes are no more than an `int` can count. -/
theorem length_flatMap_bytes (subs : List Subframe) :
    (subs.flatMap Subframe.bytes).length ≤ subs.length * (2 ^ 16 + 17) := by
  induction subs with
  | nil => exact Nat.le_refl 0
  | cons s subs ih =>
      have hs := s.short
      have hp := s.padShort
      rw [List.flatMap_cons, List.length_append, s.length_bytes, List.length_cons, Nat.succ_mul]
      unfold ethHlen
      omega

/-- **Splitting an A-MSDU recovers its subframes.** With every skb at hand, a frame of one to 64 subframes
with up to eight bytes behind them is indicated payload by payload, in order. Out of any frame only what
lies inside it is cut, in at most 64 pieces. -/
theorem amsdu_split_recovers {f : RecvFrame} (hw : f.WF) {subs : List Subframe} {icv : List UInt8}
    (hne : subs ≠ []) (hcount : subs.length ≤ maxSubframeCount) (hpad : ∀ s ∈ subs.dropLast, s.Padded)
    (hicv : icv.length ≤ 8)
    (hbody : f.bytes.drop (f.attrib.hdrlen + f.attrib.ivLen) = subs.flatMap Subframe.bytes ++ icv) :
    amsduSubframes (fun _ => true) f = subs.map (Subframe.packet f.attrib) ∧ ∀ g, CutInside g := by
  refine ⟨?_, cutInside⟩
  have hlen := congrArg List.length hbody
  rw [List.length_drop, RecvFrame.bytes, Mem.length_read] at hlen
  have hpos : 0 < (subs.flatMap Subframe.bytes ++ icv).length := by
    obtain ⟨s, rest, rfl⟩ := List.exists_cons_of_ne_nil hne
    rw [List.flatMap_cons, List.append_assoc, List.length_append, s.length_bytes]
    unfold ethHlen
    omega
  have hsmall : (subs.flatMap Subframe.bytes ++ icv).length < 2 ^ 31 := by
    have hle := length_flatMap_bytes subs
    rw [List.length_append]
    unfold maxSubframeCount at hcount
    omega
  obtain ⟨hbuf, hattrib, hdata, hleft⟩ := amsduBody_eq hw (by omega)
  have hread : f.buf.read (f.rxData + (f.attrib.hdrlen + f.attrib.ivLen))
      (subs.flatMap Subframe.bytes ++ icv).length = subs.flatMap Subframe.bytes ++ icv := by
    rw [RecvFrame.bytes, Mem.drop_read _ (by omega), hlen] at hbody
    exact hbody
  have hint : toInt32 (amsduBody f).len = ((subs.flatMap Subframe.bytes ++ icv).length : Nat) := by
    rw [hleft, hlen, toInt32, if_pos hsmall]
  rw [amsduSubframes_eq, hint, hbuf, hattrib, hdata]
  exact parseSubframes_subframes hicv _ _ hne hcount hpad hread

/-- Two subframes in a QoS data frame that was encrypted with TKIP. -/
def twoSubframes : List Subframe :=
  [⟨⟨1, 2, 3, 4, 5, 6⟩, ⟨7, 8, 9, 10, 11, 12⟩, [0xaa, 0xaa, 3, 0, 0, 0, 8, 6, 1], [0], by decide, by decide,
      by decide⟩,
    ⟨⟨1, 2, 3, 4, 5, 6⟩, ⟨7, 8, 9, 10, 11, 12⟩, [13, 14, 15], [], by decide, by decide, by decide⟩]

def twoSubframesFrame : RecvFrame where
  id := 0
  attrib := { hdrlen := 26, ivLen := 8, icvLen := 4, qos := true, amsdu := true }
  len := 79
  rxTail := 79
  rxEnd := 79
  buf := fun k =>
    (List.replicate 34 0 ++ (twoSubframes.flatMap Subframe.bytes ++ [1, 2, 3, 4])).getD k 0

theorem amsdu_split_sample :
    amsduSubframes (fun _ => true) twoSubframesFrame
        = twoSubframes.map (Subframe.packet twoSubframesFrame.attrib) ∧ ∀ g, CutInside g := by
  have hpad : ∀ s ∈ twoSubframes.dropLast, s.Padded := by
    intro s hs
    obtain rfl := List.mem_singleton.mp hs
    rfl
  have hicv : ([1, 2, 3, 4] : List UInt8).length ≤ 8 := by decide
  exact amsdu_split_recovers (f := twoSubframesFrame) ⟨by decide, by decide, by decide, by decide, by decide⟩
    (by decide) (by decide) hpad hicv (by decide)

end Rtl8812au
