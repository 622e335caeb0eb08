import Mathlib.Data.List.Perm.Basic
import Rtl8812au.Xmit.Aggregate
import Rtl8812au.Xmit.DumpProof

/-!
# The device finds the frames of an aggregate

`xmitframe_need_length` says exactly how long an MPDU of one fragment is going to be, for every
cipher. So the frames stand one behind the other, each at a multiple of eight, and the device that
walks from descriptor to descriptor finds them and nothing else. The eight bytes in front of the
first MPDU can go without moving it, since its descriptor moves up by as many.

`Packed` says how the frames behind the first one lie in the buffer. The loop keeps it, because
building a frame changes nothing in front of that frame.
-/

namespace Rtl8812au

/-! ## One frame -/

/-- Making a header changes nothing in front of it. -/
theorem rtwMakeWlanhdr_below {mlme : MlmePriv} {lookup : Option (Nat × StaInfo)} {m m' : Mem}
    {hdr k : Nat} {a a' : PktAttrib} (h : rtwMakeWlanhdr mlme lookup m hdr a = some (m', a'))
    (hk : k < hdr) : m' k = m k := by
  have hlen := hdrlen_ge a
  unfold rtwMakeWlanhdr at h
  cases hmode : wlanhdrForMode mlme a with
  | none => rw [hmode] at h; cases h
  | some r =>
      obtain ⟨ds, addr1, addr2, addr3, qosOption⟩ := r
      rw [hmode] at h
      dsimp only at h
      cases lookup with
      | none => cases h
      | some st =>
          obtain ⟨id, psta⟩ := st
          dsimp only at h
          split_ifs at h with h1 h2 h3
          all_goals obtain ⟨rfl, -⟩ := Prod.mk.inj (Option.some.inj h)
          · unfold orLe16
            rw [Mem.write_of_lt (by omega), Mem.write_of_lt (by omega), Mem.write_of_lt (by omega),
              Mem.write_of_lt hk, Mem.write_of_lt hk]
          · rw [Mem.write_of_lt (by omega), Mem.write_of_lt (by omega), Mem.write_of_lt hk,
              Mem.write_of_lt hk]

theorem wlanhdrMem_below {mlme : MlmePriv} {m : Mem} {hdr k : Nat} {a : PktAttrib} (hk : k < hdr) :
    wlanhdrMem mlme m hdr a k = m k := by
  have hlen := hdrlen_ge a
  unfold wlanhdrMem
  cases hmode : wlanhdrForMode mlme a with
  | none =>
      dsimp only
      rw [Mem.write_of_lt hk, Mem.write_of_lt hk]
  | some r =>
      obtain ⟨ds, addr1, addr2, addr3, qosOption⟩ := r
      dsimp only
      split
      · unfold orLe16
        rw [Mem.write_of_lt (by omega), Mem.write_of_lt (by omega), Mem.write_of_lt hk,
          Mem.write_of_lt hk]
      · rw [Mem.write_of_lt (by omega), Mem.write_of_lt hk, Mem.write_of_lt hk]

theorem rc4Seal_below {key : List UInt8} {m : Mem} {payload length k : Nat} (h : k < payload) :
    rc4Seal key m payload length k = m k := rc4Seal_outside (Or.inl h)

/-- Nor does the encryption of a sole fragment. -/
theorem xmitframeSwencrypt_below {aes : AesKey → BlockMode.Block → BlockMode.Block} {fragLen : Nat}
    {sec : SecurityPriv} {x : XmitFrame} {k : Nat} (hn : x.attrib.nrFrags = 1)
    (hk : k < x.firstStart) : (xmitframeSwencrypt aes fragLen sec x).mem k = x.mem k := by
  obtain ⟨len, hw⟩ : ∃ len, x.walk fragLen = [(x.firstStart, len)] := by
    unfold XmitFrame.walk
    rw [hn]
    exact ⟨_, rfl⟩
  unfold xmitframeSwencrypt
  split
  · cases x.attrib.encrypt with
    | wep40 =>
        unfold rtwWepEncrypt
        rw [hw]
        exact rc4Seal_below (by omega)
    | wep104 =>
        unfold rtwWepEncrypt
        rw [hw]
        exact rc4Seal_below (by omega)
    | tkip =>
        unfold rtwTkipEncrypt
        rw [hw]
        exact rc4Seal_below (by omega)
    | aes =>
        unfold rtwAesEncrypt
        rw [hw]
        exact if_pos hk
    | noPrivacy => rfl
    | tkipWtmic => rfl
    | sms4 => rfl
    | wepWpaMixed => rfl
  · rfl

section

variable {aes : AesKey → BlockMode.Block → BlockMode.Block} {p : XmitPriv} {mlme : MlmePriv}
  {sec : SecurityPriv}

/-- What fits is read in one turn: `pktlen` bytes of a group-addressed packet are all of it. -/
theorem QueuedFrame.readLen (f : QueuedFrame) (hfit : FitsOneFragment p.fragLen f.attrib f.pkt) :
    (f.pkt.drop f.attrib.pktHdrlen).length ≤ Rtl8812au.readLen p.fragLen f.attrib 8 := by
  cases hra : f.attrib.ra.isMcast with
  | false => exact readLen_of_fits p hra hfit
  | true =>
      unfold Rtl8812au.readLen
      rw [if_pos hra, f.pktlen]
      exact Nat.le_of_eq List.length_drop

/-- A frame that `rtw_xmitframe_coalesce` built: where it was to be built, one fragment of the
length that was foreseen, and nothing changed in front of it. -/
structure Built (f : QueuedFrame) (x y : XmitFrame) : Prop where
  bufAddr : y.bufAddr = x.bufAddr
  pktOffset : y.pktOffset = x.pktOffset
  size : y.attrib.lastTxcmdsz = xmitframeNeedLength f.attrib
  need : xmitframeNeedLength y.attrib = xmitframeNeedLength f.attrib
  mpdu : mpdusOf y.attrib y.frags = [(y.firstStart, y.attrib.lastTxcmdsz)]
  below : ∀ k < x.firstStart, y.mem k = x.mem k

theorem Built.firstStart {f : QueuedFrame} {x y : XmitFrame} (h : Built f x y) :
    y.firstStart = x.firstStart := by
  unfold XmitFrame.firstStart
  rw [h.bufAddr, h.pktOffset]

theorem soleFragment_below {x : XmitFrame} {a : PktAttrib} {m : Mem} {data : List UInt8} {k : Nat}
    (hk : k < x.firstStart) : (soleFragment x a m data).mem k = m k := by
  unfold soleFragment clearMFrag
  dsimp only
  rw [Mem.write_of_lt hk, layFragment_below hk]

/-- What `xmitframe_addmic` leaves of a sole fragment. -/
theorem addmic_sole {fragLen : Nat} {x x2 : XmitFrame} {a : PktAttrib} {m : Mem}
    {data : List UInt8}
    (h : xmitframeAddmic fragLen sec (soleFragment x a m data) = some x2) :
    x2.bufAddr = x.bufAddr ∧ x2.pktOffset = x.pktOffset
      ∧ x2.frags = [⟨x.firstStart, 8, data.length⟩]
      ∧ x2.attrib = { a with
          nrFrags := 1
          lastTxcmdsz := a.hdrlen + a.ivLen + 8 + icvRoom a + data.length
            + if a.encrypt = .tkip then 8 else 0 }
      ∧ ∀ k < x.firstStart, x2.mem k = m k := by
  rcases xmitframeAddmic_soleFragment h with ⟨hne, rfl⟩ | ⟨htk, mic, -, rfl⟩
  · rw [if_neg hne]
    exact ⟨rfl, rfl, rfl, rfl, fun k hk => soleFragment_below hk⟩
  · rw [if_pos htk]
    refine ⟨rfl, rfl, rfl, rfl, ?_⟩
    intro k hk
    dsimp only
    rw [Mem.write_of_lt (by omega), soleFragment_below hk]

/-- **The length is foreseen exactly.** -/
theorem coalesce_built {f : QueuedFrame} {bufAddr pktOffset : Nat} {aligned : bufAddr % 4 = 0}
    {mem : Mem} {y : XmitFrame} (hfit : FitsOneFragment p.fragLen f.attrib f.pkt)
    (h : f.coalesce aes p mlme sec (f.toXmit bufAddr pktOffset aligned mem) = some y) :
    Built f (f.toXmit bufAddr pktOffset aligned mem) y := by
  generalize hx : f.toXmit bufAddr pktOffset aligned mem = x at h ⊢
  have hattr : x.attrib = f.attrib := by rw [← hx]; rfl
  unfold QueuedFrame.coalesce rtwXmitframeCoalesce at h
  cases h1 : coalesceFrags p.fragLen mlme f.lookup f.pkt x with
  | none => rw [h1] at h; cases h
  | some x1 =>
      rw [h1] at h
      dsimp only at h
      -- one fragment takes the whole of the MSDU
      have hread := f.readLen hfit
      rw [← hattr] at hread
      obtain ⟨m, seqnum, hmk, rfl⟩ := coalesceFrags_sole hread h1
      cases h2 : xmitframeAddmic p.fragLen sec (soleFragment x { x.attrib with seqnum := seqnum } m
          (f.pkt.drop x.attrib.pktHdrlen)) with
      | none => rw [h2] at h; cases h
      | some x2 =>
          rw [h2] at h
          obtain rfl := Option.some.inj h
          obtain ⟨hbuf, hoff, hfrags, hattr2, hmem⟩ := addmic_sole h2
          obtain ⟨m', hm'⟩ := xmitframeSwencrypt_eq aes p.fragLen sec x2
          have hstart : x2.firstStart = x.firstStart := by
            unfold XmitFrame.firstStart
            rw [hbuf, hoff]
          have hlen : (f.pkt.drop x.attrib.pktHdrlen).length = f.attrib.pktlen := by
            rw [hattr, List.length_drop, f.pktlen]
          -- the MIC, where there is one, has been counted in the ICV room
          have hneed : x2.attrib.lastTxcmdsz = xmitframeNeedLength f.attrib := by
            have hroom : icvRoom { x.attrib with seqnum := seqnum }
              = if f.attrib.bswenc then f.attrib.icvLen else 0 := by rw [hattr]; rfl
            rw [hattr2, hlen, hroom]
            unfold xmitframeNeedLength
            dsimp only
            rw [hattr]
            omega
          refine ⟨?_, ?_, ?_, ?_, ?_, ?_⟩
          · rw [hm']
            exact hbuf
          · rw [hm']
            exact hoff
          · rw [hm']
            exact hneed
          · rw [hm', hattr2, hattr]
            rfl
          · rw [hm']
            show mpdusOf x2.attrib x2.frags = [(x2.firstStart, x2.attrib.lastTxcmdsz)]
            rw [hfrags, hstart]
            refine congrArg (fun n => [(x.firstStart, n)]) ?_
            have hroom : icvRoom x2.attrib = icvRoom { x.attrib with seqnum := seqnum } := by
              rw [hattr2]
              rfl
            unfold Fragment.mpduSz
            rw [hroom, hattr2]
            dsimp only
            omega
          -- none of the three steps writes before the frame
          · intro k hk
            rw [xmitframeSwencrypt_below (by rw [hattr2]) (by rw [hstart]; exact hk), hmem k hk,
              rtwMakeWlanhdr_below hmk hk]

/-- A frame that cannot be built leaves what is in front of it, too. -/
theorem refusedMem_below {f : QueuedFrame} {bufAddr pktOffset k : Nat} {aligned : bufAddr % 4 = 0}
    {mem : Mem} (hfit : FitsOneFragment p.fragLen f.attrib f.pkt)
    (hk : k < (f.toXmit bufAddr pktOffset aligned mem).firstStart) :
    refusedMem p.fragLen mlme f.lookup f.pkt (f.toXmit bufAddr pktOffset aligned mem) k = mem k := by
  unfold refusedMem
  cases h1 : coalesceFrags p.fragLen mlme f.lookup f.pkt
      (f.toXmit bufAddr pktOffset aligned mem) with
  | none =>
      dsimp only
      split
      · rfl
      · exact wlanhdrMem_below hk
  | some y =>
      obtain ⟨m, seqnum, hmk, rfl⟩ := coalesceFrags_sole (f.readLen hfit) h1
      dsimp only
      rw [soleFragment_below hk, rtwMakeWlanhdr_below hmk hk]
      rfl

end

/-! ## Descriptors -/

section

variable {env : TxEnv} {fields : PktAttrib → Nat → UInt8} {x : XmitFrame}
  {bufAddr pktOffset aggNum : Nat} {mem : Mem}

theorem length_txdescBytes (d : TxDesc) (n : Nat) (g : Nat → UInt8) :
    (txdescBytes d n g).length = 40 := by
  unfold txdescBytes txdescSize
  rw [List.length_map, List.length_range]

/-- Byte `i` of a descriptor in memory. -/
theorem write_txdescBytes (m : Mem) (addr : Nat) (d : TxDesc) (n : Nat) (g : Nat → UInt8) {i : Nat}
    (hi : i < 40) : (m.write addr (txdescBytes d n g)) (addr + i)
      = if i = 0 then UInt8.ofNat d.pktSize
        else if i = 1 then UInt8.ofNat (d.pktSize / 256)
        else if i = 7 then UInt8.ofNat d.pktOffset
        else if i = 31 then UInt8.ofNat (if 1 < n then n else 0)
        else g i := by
  have hlen : i < (txdescBytes d n g).length := by
    rw [length_txdescBytes]
    exact hi
  rw [Mem.write_inside hlen]
  simp [txdescBytes]

/-- In an aggregate the descriptor stays where the frame starts. -/
theorem writeTxdesc_eq : writeTxdesc env fields x bufAddr pktOffset aggNum mem
    = mem.write bufAddr (txdescBytes ⟨bufAddr, x.attrib.lastTxcmdsz % 2 ^ 16, pktOffset % 2 ^ 5⟩
        aggNum (fields x.attrib)) := by
  have hpull : (!env.mpMode && !true
      && !rtwUsbBulkSizeBoundary env.speed (txdescSize + x.attrib.lastTxcmdsz)) = false := by simp
  unfold writeTxdesc updateTxdesc
  dsimp only
  rw [hpull]
  rfl

theorem writeTxdesc_outside {k : Nat} (h : k < bufAddr ∨ bufAddr + 40 ≤ k) :
    writeTxdesc env fields x bufAddr pktOffset aggNum mem k = mem k := by
  rw [writeTxdesc_eq]
  rcases h with h | h
  · exact Mem.write_of_lt h
  · exact Mem.write_of_ge (by rw [length_txdescBytes]; exact h)

/-- What the device reads of a descriptor. -/
theorem txdescAt_writeTxdesc (hsz : x.attrib.lastTxcmdsz < 2 ^ 16) (hoff : pktOffset < 2 ^ 5) :
    txdescAt (writeTxdesc env fields x bufAddr pktOffset aggNum mem) bufAddr
      = ⟨bufAddr, x.attrib.lastTxcmdsz, pktOffset⟩ := by
  rw [writeTxdesc_eq, Nat.mod_eq_of_lt hsz, Nat.mod_eq_of_lt hoff]
  -- bytes 0, 1 and 7
  have hbyte := fun i (hi : i < 40) => write_txdescBytes mem bufAddr
    ⟨bufAddr, x.attrib.lastTxcmdsz, pktOffset⟩ aggNum (fields x.attrib) hi
  have h0 := hbyte 0 (by decide)
  have h1 := hbyte 1 (by decide)
  have h7 := hbyte 7 (by decide)
  rw [if_pos rfl, Nat.add_zero] at h0
  rw [if_neg (by decide), if_pos rfl] at h1
  rw [if_neg (by decide), if_neg (by decide), if_pos rfl] at h7
  unfold txdescAt Mem.le16
  rw [h0, h1, h7, UInt8.toNat_ofNat', UInt8.toNat_ofNat', UInt8.toNat_ofNat']
  have hsize : x.attrib.lastTxcmdsz % 2 ^ 8 + x.attrib.lastTxcmdsz / 256 % 2 ^ 8 * 256
      = x.attrib.lastTxcmdsz := by omega
  have hoffset : pktOffset % 2 ^ 8 % 2 ^ 5 = pktOffset := by omega
  rw [hsize, hoffset]

end

/-! ## Frames one behind the other -/

/-- The start of a frame's MPDU, and its length. -/
def XmitFrame.mpdu (y : XmitFrame) : Nat × Nat := (y.firstStart, y.attrib.lastTxcmdsz)

/-- The MPDU is in memory as it was built. -/
def XmitFrame.StandsIn (y : XmitFrame) (m : Mem) : Prop :=
  m.read y.firstStart y.attrib.lastTxcmdsz = y.mem.read y.firstStart y.attrib.lastTxcmdsz

/-- A frame behind the first one: its descriptor is at `addr`, and the MPDU follows. -/
structure Follows (m : Mem) (addr : Nat) (y : XmitFrame) : Prop where
  bufAddr : y.bufAddr = addr
  firstStart : y.firstStart = addr + 40
  desc : txdescAt m addr = ⟨addr, y.attrib.lastTxcmdsz, 0⟩
  stands : y.StandsIn m
  sole : mpdusOf y.attrib y.frags = [y.mpdu]

/-- The frames `ys` follow what ends `tail` bytes behind `base`, each at the next multiple of eight,
and the last one ends at `tail'`. -/
inductive Packed (m : Mem) (base : Nat) : Nat → List XmitFrame → Nat → Prop where
  | nil {tail : Nat} : Packed m base tail [] tail
  | cons {tail tail' : Nat} {y : XmitFrame} {ys : List XmitFrame} :
      Follows m (base + rnd8 tail) y →
      rnd8 tail + 40 + y.attrib.lastTxcmdsz ≤ maxXmitbufSz →
      Packed m base (rnd8 tail + 40 + y.attrib.lastTxcmdsz) ys tail' →
      Packed m base tail (y :: ys) tail'

theorem XmitFrame.StandsIn.congr {y : XmitFrame} {m m' : Mem} (h : y.StandsIn m)
    (heq : ∀ k, y.firstStart ≤ k → k < y.firstStart + y.attrib.lastTxcmdsz → m' k = m k) :
    y.StandsIn m' := by
  unfold XmitFrame.StandsIn at h ⊢
  rw [← h]
  exact Mem.read_congr fun i hi => heq _ (by omega) (by omega)

theorem txdescAt_congr {m m' : Mem} {addr : Nat} (h : ∀ k, addr ≤ k → k < addr + 40 → m' k = m k) :
    txdescAt m' addr = txdescAt m addr := by
  unfold txdescAt Mem.le16
  rw [h addr (by omega) (by omega), h (addr + 1) (by omega) (by omega),
    h (addr + 7) (by omega) (by omega)]

theorem Follows.congr {m m' : Mem} {addr : Nat} {y : XmitFrame} (h : Follows m addr y)
    (heq : ∀ k, addr ≤ k → k < addr + 40 + y.attrib.lastTxcmdsz → m' k = m k) :
    Follows m' addr y := by
  refine ⟨h.bufAddr, h.firstStart, ?_, ?_, h.sole⟩
  · rw [txdescAt_congr fun k h1 h2 => heq k h1 (by omega)]
    exact h.desc
  · have hstart := h.firstStart
    exact h.stands.congr fun k h1 h2 => heq k (by omega) (by omega)

namespace Packed

variable {m : Mem} {base tail tail' : Nat} {ys : List XmitFrame}

/-- Only what is behind `tail` matters. -/
theorem congr {m' : Mem} (h : Packed m base tail ys tail')
    (heq : ∀ k, base + tail ≤ k → m' k = m k) : Packed m' base tail ys tail' := by
  induction h with
  | nil => exact .nil
  | @cons tail tail' y ys hy hsz _ ih =>
      have hge := rnd8_ge tail
      refine .cons (hy.congr fun k h1 _ => heq k (by omega)) hsz (ih fun k hk => heq k (by omega))

/-- Every frame takes its descriptor at least. -/
theorem tail_le (h : Packed m base tail ys tail') : tail + 40 * ys.length ≤ tail' := by
  induction h with
  | nil => simp
  | @cons tail tail' y ys _ _ _ ih =>
      have hge := rnd8_ge tail
      rw [List.length_cons]
      omega

/-- The frames lie behind `tail` and inside the buffer. -/
theorem inside (h : Packed m base tail ys tail') {y : XmitFrame} (hy : y ∈ ys) :
    base + tail ≤ y.bufAddr ∧ y.bufAddr + 40 ≤ y.firstStart
      ∧ y.firstStart + y.attrib.lastTxcmdsz ≤ base + maxXmitbufSz := by
  induction h with
  | nil => cases hy
  | @cons tail tail' z ys hz hsz _ ih =>
      have hge := rnd8_ge tail
      rcases List.mem_cons.mp hy with rfl | hy
      · have h1 := hz.bufAddr
        have h2 := hz.firstStart
        omega
      · have h := ih hy
        omega

/-- None of them reaches into the next one. -/
theorem pairwise (h : Packed m base tail ys tail') :
    ys.Pairwise fun y z => y.firstStart + y.attrib.lastTxcmdsz ≤ z.bufAddr := by
  induction h with
  | nil => exact List.Pairwise.nil
  | @cons tail tail' y ys hy _ hrest ih =>
      refine List.Pairwise.cons ?_ ih
      intro z hz
      have h1 := hy.firstStart
      have h2 := (hrest.inside hz).1
      omega

theorem follows (h : Packed m base tail ys tail') {y : XmitFrame} (hy : y ∈ ys) :
    ∃ addr, Follows m addr y := by
  induction h with
  | nil => cases hy
  | cons hz _ _ ih =>
      rcases List.mem_cons.mp hy with rfl | hy
      · exact ⟨_, hz⟩
      · exact ih hy

/-- The last one ends at `tail'`. -/
theorem getLast (h : Packed m base tail ys tail') {x : XmitFrame}
    (hx : x.firstStart + x.attrib.lastTxcmdsz = base + tail) :
    ∃ y, (x :: ys).getLast? = some y ∧ y.firstStart + y.attrib.lastTxcmdsz = base + tail' := by
  induction h generalizing x with
  | nil => exact ⟨x, rfl, hx⟩
  | @cons tail tail' y ys hy _ _ ih =>
      have h1 := hy.firstStart
      obtain ⟨z, hz, hend⟩ := @ih y (by omega)
      exact ⟨z, by rw [List.getLast?_cons_cons]; exact hz, hend⟩

/-- **The walk of the device over the frames behind the first one**, in a transfer that starts
`d` bytes behind `base`. -/
theorem walk (h : Packed m base tail ys tail') {d len : Nat} (hd : d % 8 = 0)
    (hlen : len + d = tail') : ∀ {fuel pos : Nat}, pos + d = rnd8 tail → ys.length < fuel →
    (deviceWalk m (base + d) len fuel pos).map TxDesc.mpdu = ys.map XmitFrame.mpdu := by
  induction h with
  | @nil tail =>
      intro fuel pos hpos hfuel
      have hge := rnd8_ge tail
      obtain ⟨fuel, rfl⟩ : ∃ n, fuel = n + 1 := ⟨fuel - 1, by simp at hfuel; omega⟩
      rw [deviceWalk, if_neg (by omega)]
      rfl
  | @cons tail tail' y ys hy _ hrest ih =>
      intro fuel pos hpos hfuel
      have htail := hrest.tail_le
      have h1 := hy.firstStart
      rw [List.length_cons] at hfuel
      obtain ⟨fuel, rfl⟩ : ∃ n, fuel = n + 1 := ⟨fuel - 1, by omega⟩
      have haddr : base + d + pos = base + rnd8 tail := by omega
      have hnext : rnd8 (pos + 40 + 0 * 8 + y.attrib.lastTxcmdsz) + d
          = rnd8 (rnd8 tail + 40 + y.attrib.lastTxcmdsz) := by
        rw [← rnd8_add_of_mod hd]
        congr 1
        omega
      rw [deviceWalk, if_pos (by omega), haddr, hy.desc]
      dsimp only [txdescSize, packetOffsetSz]
      rw [List.map_cons, List.map_cons, ih hlen hnext (by omega)]
      refine congrArg (· :: ys.map XmitFrame.mpdu) ?_
      unfold TxDesc.mpdu XmitFrame.mpdu
      rw [h1]
      rfl

end Packed

/-! ## The loops -/

/-- The frames that were built, in the order in which they were taken off their queues. -/
def TakenFrames.built (ts : TakenFrames) : List XmitFrame := ts.filterMap (·.2)

theorem built_append (ts us : TakenFrames) :
    TakenFrames.built (ts ++ us) = TakenFrames.built ts ++ TakenFrames.built us :=
  List.filterMap_append

theorem AggState.next_fst (hal : UsbOut) (s : AggState) :
    (s.next hal).1.pbuf = s.pbuf ∧ (s.next hal).1.pbufTail = s.pbufTail
      ∧ (s.next hal).1.aggNum = s.aggNum ∧ (s.next hal).1.mem = s.mem := by
  unfold AggState.next
  split
  · exact ⟨rfl, rfl, rfl, rfl⟩
  · split
    · exact ⟨rfl, rfl, rfl, rfl⟩
    · exact ⟨rfl, rfl, rfl, rfl⟩

/-- The loop goes on only while `agg_num` can still grow. -/
theorem AggState.next_snd {hal : UsbOut} {s : AggState} (h : (s.next hal).2 = false) :
    s.aggNum ≠ 255 := by
  intro h255
  have hmax : s.aggNum = maxTxAggPacketNumber := h255
  unfold AggState.next at h
  rw [if_pos hmax] at h
  cases h

section

variable {aes : AesKey → BlockMode.Block → BlockMode.Block} {p : XmitPriv} {mlme : MlmePriv}
  {sec : SecurityPriv} {env : TxEnv} {fields : PktAttrib → Nat → UInt8} {hal : UsbOut}
  {buf : XmitBuf}

/-- What is recorded for a frame is what `rtw_xmitframe_coalesce` made of it. -/
def Honest (aes : AesKey → BlockMode.Block → BlockMode.Block) (p : XmitPriv) (mlme : MlmePriv)
    (sec : SecurityPriv) (t : QueuedFrame × Option XmitFrame) : Prop :=
  ∃ bufAddr pktOffset aligned mem,
    t.2 = t.1.coalesce aes p mlme sec (t.1.toXmit bufAddr pktOffset aligned mem)

/-- What the loop over the pending frames `fs` makes of `s`. -/
structure Looped (aes : AesKey → BlockMode.Block → BlockMode.Block) (p : XmitPriv)
    (mlme : MlmePriv) (sec : SecurityPriv) (buf : XmitBuf) (fs : List QueuedFrame) (s : AggState)
    (r : AggState × List QueuedFrame × TakenFrames) : Prop where
  packed : Packed r.1.mem buf.pbuf s.pbufTail (TakenFrames.built r.2.2) r.1.pbufTail
  below : ∀ k < buf.pbuf + s.pbuf, r.1.mem k = s.mem k
  aggNum : r.1.aggNum = s.aggNum + (TakenFrames.built r.2.2).length
  queue : fs = r.2.2.map Prod.fst ++ r.2.1
  honest : ∀ t ∈ r.2.2, Honest aes p mlme sec t

/-- Where the loop stops nothing changes. -/
theorem Looped.stop {fs : List QueuedFrame} {s : AggState} :
    Looped aes p mlme sec buf fs s (s, fs, []) :=
  ⟨.nil, fun _ _ => rfl, rfl, rfl, fun _ h => absurd h List.not_mem_nil⟩

/-- A frame that could not be built, and then the rest. -/
theorem Looped.refused {f : QueuedFrame} {fs : List QueuedFrame} {s : AggState} {mem : Mem}
    {r : AggState × List QueuedFrame × TakenFrames} (hf : Honest aes p mlme sec (f, none))
    (hmem : ∀ k < buf.pbuf + s.pbuf, mem k = s.mem k)
    (h : Looped aes p mlme sec buf fs { s with mem := mem } r) :
    Looped aes p mlme sec buf (f :: fs) s (r.1, r.2.1, (f, none) :: r.2.2) := by
  refine ⟨h.packed, ?_, h.aggNum, ?_, ?_⟩
  · intro k hk
    rw [h.below k hk]
    exact hmem k hk
  · rw [List.map_cons, List.cons_append, ← h.queue]
  · intro t ht
    rcases List.mem_cons.mp ht with rfl | ht
    · exact hf
    · exact h.honest t ht

/-- A frame that was built, and then the rest from `s'` on. -/
theorem Looped.built {f : QueuedFrame} {fs : List QueuedFrame} {s s' : AggState} {y : XmitFrame}
    {r : AggState × List QueuedFrame × TakenFrames} (hf : Honest aes p mlme sec (f, some y))
    (hs : s.pbuf = rnd8 s.pbufTail) (hagg : s'.aggNum = s.aggNum + 1)
    (htail : s'.pbufTail = s.pbuf + 40 + y.attrib.lastTxcmdsz) (hs' : s'.pbuf = rnd8 s'.pbufTail)
    (hmax : s.pbuf + 40 + y.attrib.lastTxcmdsz ≤ maxXmitbufSz)
    (hmem : ∀ k < buf.pbuf + s.pbuf, s'.mem k = s.mem k)
    (hy : Follows s'.mem (buf.pbuf + s.pbuf) y) (h : Looped aes p mlme sec buf fs s' r) :
    Looped aes p mlme sec buf (f :: fs) s (r.1, r.2.1, (f, some y) :: r.2.2) := by
  have hge := rnd8_ge s'.pbufTail
  have hbuilt : TakenFrames.built ((f, some y) :: r.2.2) = y :: TakenFrames.built r.2.2 := rfl
  have hpacked := h.packed
  rw [htail, hs] at hpacked
  rw [hs] at hy hmax
  refine ⟨?_, ?_, ?_, ?_, ?_⟩
  · dsimp only
    rw [hbuilt]
    refine .cons (hy.congr fun k _ hk => h.below k ?_) hmax hpacked
    omega
  · intro k hk
    dsimp only
    rw [h.below k (by omega), hmem k hk]
  · dsimp only
    rw [hbuilt, List.length_cons, h.aggNum, hagg]
    omega
  · rw [List.map_cons, List.cons_append, ← h.queue]
  · intro t ht
    rcases List.mem_cons.mp ht with rfl | ht
    · exact hf
    · exact h.honest t ht

/-- A frame that was built at `addr`, with its descriptor. -/
theorem coalesce_follows {f : QueuedFrame} {addr : Nat} {aligned : addr % 4 = 0} {mem : Mem}
    {y : XmitFrame} (hfit : FitsOneFragment p.fragLen f.attrib f.pkt)
    (h : f.coalesce aes p mlme sec (f.toXmit addr 0 aligned mem) = some y)
    (hsz : xmitframeNeedLength f.attrib < 2 ^ 16) :
    Follows (writeTxdesc env fields y y.bufAddr y.pktOffset 0 y.mem) addr y
      ∧ ∀ k < addr, writeTxdesc env fields y y.bufAddr y.pktOffset 0 y.mem k = mem k := by
  have hy := coalesce_built hfit h
  have hbuf : y.bufAddr = addr := hy.bufAddr
  have hoff : y.pktOffset = 0 := hy.pktOffset
  have hstart : y.firstStart = addr + 40 := hy.firstStart
  rw [← hy.size] at hsz
  rw [hbuf, hoff]
  refine ⟨⟨hbuf, hstart, txdescAt_writeTxdesc hsz (by decide), ?_, hy.mpdu⟩, ?_⟩
  · unfold XmitFrame.StandsIn
    exact Mem.read_congr fun i _ => writeTxdesc_outside (Or.inr (by omega))
  · intro k hk
    rw [writeTxdesc_outside (Or.inl hk)]
    refine hy.below k ?_
    show k < addr + 40
    omega

/-- **The loop packs the frames it takes**, and takes them from the front of the queue. -/
theorem aggLoop_looped {qsel : Nat} : ∀ (fs : List QueuedFrame) (s : AggState),
    (∀ f ∈ fs, FitsOneFragment p.fragLen f.attrib f.pkt) → s.pbuf = rnd8 s.pbufTail →
    s.aggNum < 255 →
    Looped aes p mlme sec buf fs s (aggLoop aes p mlme sec env fields hal buf qsel fs s) := by
  intro fs
  induction fs with
  | nil =>
      intro s _ _ _
      exact .stop
  | cons f fs ih =>
      intro s hfit hs hagg
      have hf := hfit f List.mem_cons_self
      have hfs : ∀ g ∈ fs, FitsOneFragment p.fragLen g.attrib g.pkt :=
        fun g hg => hfit g (List.mem_cons_of_mem f hg)
      rw [aggLoop]
      split
      · exact .stop
      dsimp only
      split
      · exact .stop
      rename_i hmax
      have hoff : hwHdrOffset 0 = 40 := rfl
      cases hc : f.coalesce aes p mlme sec
          (f.toXmit (buf.pbuf + s.pbuf) 0 (buf.aligned_add s.aligned) s.mem) with
      | none =>
          -- a frame that is refused writes only behind the packets before it
          refine .refused ⟨_, _, _, _, hc.symm⟩ ?_ (ih _ hfs hs hagg)
          intro k hk
          refine refusedMem_below hf ?_
          unfold XmitFrame.firstStart QueuedFrame.toXmit
          dsimp only
          omega
      | some y =>
          have hsize := (coalesce_built hf hc).size
          have hge := rnd8_ge (s.pbuf + (xmitframeNeedLength f.attrib + txdescSize))
          have hdesc : txdescSize = 40 := rfl
          have hbufsz : maxXmitbufSz = 20480 := rfl
          obtain ⟨hfol, hmem⟩ := @coalesce_follows aes p mlme sec env fields f _ _ _ y hf hc (by omega)
          dsimp only
          -- the frame is added, and the next one starts behind its descriptor and its bytes
          generalize hs1 : s.add (xmitframeNeedLength f.attrib + txdescSize)
            (writeTxdesc env fields y y.bufAddr y.pktOffset 0 y.mem) = s1
          have htail1 : s1.pbufTail = s.pbuf + 40 + y.attrib.lastTxcmdsz := by
            rw [← hs1]
            show s.pbuf + _ = _
            omega
          have hpbuf1 : s1.pbuf = rnd8 s1.pbufTail := by rw [← hs1]; rfl
          have hagg1 : s1.aggNum = s.aggNum + 1 := by
            rw [← hs1]
            show (s.aggNum + 1) % 256 = _
            omega
          have hmem1 : s1.mem = writeTxdesc env fields y y.bufAddr y.pktOffset 0 y.mem := by
            rw [← hs1]
            rfl
          obtain ⟨hpbuf, htail, hnum, hm⟩ := s1.next_fst hal
          rw [← hmem1, ← hm] at hfol hmem
          -- whatever follows, the frame is the next one of the packet
          have hrest : ∀ r, Looped aes p mlme sec buf fs (s1.next hal).1 r →
              Looped aes p mlme sec buf (f :: fs) s (r.1, r.2.1, (f, some y) :: r.2.2) := by
            intro r hr
            refine .built ⟨_, _, _, _, hc.symm⟩ hs (by omega) (by omega) (by rw [hpbuf, htail, hpbuf1])
              (by omega) hmem hfol hr
          split
          · exact hrest _ .stop
          · rename_i hgo
            have h255 := AggState.next_snd (Bool.eq_false_iff.mpr hgo)
            exact hrest _ (ih _ hfs (by rw [hpbuf, htail, hpbuf1]) (by omega))

end

/-! ## Nothing is lost from the queues -/

theorem frames_cons (s : DataServq) (q : HwXmits) :
    HwXmits.frames (s :: q) = s.pending ++ HwXmits.frames q := List.flatMap_cons

theorem frames_relink (s : DataServq) (fs : List QueuedFrame) (q : HwXmits) :
    HwXmits.frames (s.relink fs q) = fs ++ HwXmits.frames q := by
  unfold DataServq.relink
  cases fs with
  | nil => rfl
  | cons f fs => exact frames_cons _ _

theorem dequeueAc_perm {ac : Ac} {f : QueuedFrame} : ∀ {q q' : HwXmits},
    dequeueAc ac q = some (f, q') → q.frames.Perm (f :: HwXmits.frames q') := by
  intro q
  induction q with
  | nil =>
      intro q' h
      cases h
  | cons s q ih =>
      intro q' h
      rw [dequeueAc] at h
      split at h
      · -- the frame at the head of this queue
        rename_i g fs hpend
        obtain ⟨rfl, rfl⟩ := Prod.mk.inj (Option.some.inj h)
        have hs : s.pending = g :: fs := by
          split at hpend
          · exact hpend
          · cases hpend
        rw [frames_cons, frames_relink, hs]
        exact List.Perm.refl _
      · obtain ⟨r, hr, heq⟩ := Option.map_eq_some_iff.mp h
        obtain ⟨g, q1⟩ := r
        obtain ⟨rfl, rfl⟩ := Prod.mk.inj heq
        rw [frames_cons, frames_cons]
        exact ((ih hr).append_left s.pending).trans List.perm_middle

theorem dequeueXframe_perm {f : QueuedFrame} {q q' : HwXmits} : ∀ {inx : List Ac},
    HwXmits.rtwDequeueXframe inx q = some (f, q') → q.frames.Perm (f :: HwXmits.frames q') := by
  intro inx
  induction inx with
  | nil =>
      intro h
      cases h
  | cons ac inx ih =>
      intro h
      rw [HwXmits.rtwDequeueXframe] at h
      cases hac : dequeueAc ac q with
      | none =>
          rw [hac] at h
          exact ih h
      | some r =>
          rw [hac] at h
          obtain rfl := Option.some.inj h
          exact dequeueAc_perm hac

/-- Frames that are taken off the front of one queue. -/
theorem setServq_perm {sta : Option Nat} {ac : Ac} {ts left : List QueuedFrame} : ∀ {q : HwXmits},
    servqPending sta ac q = ts ++ left →
    q.frames.Perm (ts ++ HwXmits.frames (setServq sta ac left q)) := by
  intro q
  induction q with
  | nil =>
      intro h
      have hts : ts = [] := (List.append_eq_nil_iff.mp h.symm).1
      rw [hts]
      exact List.Perm.refl _
  | cons s q ih =>
      intro h
      unfold servqPending at h
      rw [List.find?_cons] at h
      rw [setServq]
      by_cases hs : some s.sta = sta ∧ s.ac = ac
      · rw [if_pos hs, frames_relink, frames_cons, ← List.append_assoc]
        simp only [hs, and_self, decide_true, Option.map_some, Option.getD_some] at h
        rw [h]
      · rw [if_neg hs, frames_cons, frames_cons]
        simp only [hs, decide_false] at h
        exact ((ih h).append_left s.pending).trans (List.perm_append_comm_assoc _ _ _)

theorem servqPending_subset {sta : Option Nat} {ac : Ac} {q : HwXmits} {f : QueuedFrame}
    (h : f ∈ servqPending sta ac q) : f ∈ q.frames := by
  unfold servqPending at h
  cases hfind : q.find? (fun s => some s.sta = sta ∧ s.ac = ac) with
  | none =>
      rw [hfind] at h
      cases h
  | some s =>
      rw [hfind] at h
      exact List.mem_flatMap.mpr ⟨s, List.mem_of_find?_eq_some hfind, h⟩

section

variable {aes : AesKey → BlockMode.Block → BlockMode.Block} {p : XmitPriv} {mlme : MlmePriv}
  {sec : SecurityPriv} {buf : XmitBuf} {inx : List Ac}

/-- What the first loop makes of the queues `q`. -/
structure Picked (aes : AesKey → BlockMode.Block → BlockMode.Block) (p : XmitPriv)
    (mlme : MlmePriv) (sec : SecurityPriv) (buf : XmitBuf) (inx : List Ac) (q : HwXmits)
    (r : Option (QueuedFrame × XmitFrame) × HwXmits × TakenFrames) : Prop where
  perm : q.frames.Perm (r.2.2.map Prod.fst ++ r.2.1.frames)
  honest : ∀ t ∈ r.2.2, Honest aes p mlme sec t
  built : TakenFrames.built r.2.2 = (r.1.map Prod.snd).toList
  none : r.1 = none → HwXmits.rtwDequeueXframe inx r.2.1 = none
  some : ∀ f y, r.1 = some (f, y) → f ∈ q.frames
    ∧ ∃ mem, f.coalesce aes p mlme sec
        (f.toXmit (buf.pbuf + 0) 1 (buf.aligned_add rfl) mem) = some y

/-- **The first loop ends**, with a frame or without any left. -/
theorem pickFirst_picked : ∀ (fuel : Nat) (q : HwXmits) (m : Mem), q.frames.length < fuel →
    Picked aes p mlme sec buf inx q (pickFirst aes p mlme sec inx buf fuel q m) := by
  intro fuel
  induction fuel with
  | zero =>
      intro q m h
      omega
  | succ fuel ih =>
      intro q m hfuel
      rw [pickFirst]
      cases hd : HwXmits.rtwDequeueXframe inx q with
      | none =>
          exact ⟨List.Perm.refl _, fun _ h => absurd h List.not_mem_nil, rfl, fun _ => hd,
            fun f y h => by cases h⟩
      | some r =>
          obtain ⟨f, q1⟩ := r
          have hperm := dequeueXframe_perm hd
          have hlen : q.frames.length = (HwXmits.frames q1).length + 1 := hperm.length_eq
          dsimp only
          cases hc : f.coalesce aes p mlme sec
              (f.toXmit (buf.pbuf + 0) 1 (buf.aligned_add rfl) m) with
          | none =>
              have h := ih q1 (refusedMem p.fragLen mlme f.lookup f.pkt
                (f.toXmit (buf.pbuf + 0) 1 (buf.aligned_add rfl) m)) (by omega)
              dsimp only
              refine ⟨hperm.trans (h.perm.cons f), ?_, h.built, h.none, ?_⟩
              · intro t ht
                rcases List.mem_cons.mp ht with rfl | ht
                · exact ⟨_, _, _, _, hc.symm⟩
                · exact h.honest t ht
              · intro g y hg
                obtain ⟨hmem, hbuilt⟩ := h.some g y hg
                exact ⟨hperm.mem_iff.mpr (List.mem_cons_of_mem f hmem), hbuilt⟩
          | some y =>
              refine ⟨hperm, ?_, rfl, ?_, ?_⟩
              · intro t ht
                obtain rfl := List.mem_singleton.mp ht
                exact ⟨_, _, _, _, hc.symm⟩
              · intro h
                cases h
              · intro g z hg
                obtain ⟨rfl, rfl⟩ := Prod.mk.inj (Option.some.inj hg)
                exact ⟨hperm.mem_iff.mpr List.mem_cons_self, m, hc⟩

end

/-! ## The transfer -/

/-- A transfer out of the buffer at `base` conveys the frames `ys`, as `rtw_xmitframe_coalesce`
left them. -/
structure Conveys (base bulkSize : Nat) (t : Transfer) (ys : List XmitFrame) : Prop where
  /-- The device visits `agg_num` descriptors, -/
  count : t.descriptors.length = t.aggNum
  /-- and behind each the MPDU of a frame, in order; -/
  mpdus : t.descriptors.map TxDesc.mpdu = ys.flatMap fun y => mpdusOf y.attrib y.frags
  /-- every frame is one MPDU, -/
  sole : ∀ y ∈ ys, mpdusOf y.attrib y.frags = [y.mpdu]
  /-- which is in the buffer as it was built. -/
  stands : ∀ y ∈ ys, y.StandsIn t.mem
  disjoint : ys.Pairwise fun y z => y.firstStart + y.attrib.lastTxcmdsz ≤ z.bufAddr
  inside : ∀ y ∈ ys, base ≤ y.bufAddr ∧ y.bufAddr + txdescSize ≤ y.firstStart
    ∧ y.firstStart + y.attrib.lastTxcmdsz ≤ base + maxXmitbufSz
  ends : ∃ y, ys.getLast? = some y
    ∧ t.bufAddr + t.len = y.firstStart + y.attrib.lastTxcmdsz
  bulk : t.len % bulkSize ≠ 0
  /-- `USB_TXAGG_NUM` of the first descriptor. -/
  announced : t.mem (t.bufAddr + 31) = UInt8.ofNat (if 1 < t.aggNum then t.aggNum else 0)

/-- Eight bytes less than a multiple of the bulk size is not one. -/
theorem UsbOut.sub_mod (hal : UsbOut) {n : Nat} (hn : 8 ≤ n) (h : n % hal.bulkSize = 0) :
    (n - 8) % hal.bulkSize ≠ 0 := by
  obtain ⟨hpos, h64⟩ := hal.bulk
  intro h8
  have hdvd : hal.bulkSize ∣ n - (n - 8) :=
    Nat.dvd_sub (Nat.dvd_of_mod_eq_zero h) (Nat.dvd_of_mod_eq_zero h8)
  have heq : n - (n - 8) = 8 := by omega
  rw [heq] at hdvd
  have hle := Nat.le_of_dvd (by decide) hdvd
  omega

section

variable {env : TxEnv} {fields : PktAttrib → Nat → UInt8} {hal : UsbOut}

/-- The two ways to end: the descriptor and what is in front of the first MPDU are 48 bytes, less
the `d` that the transfer leaves out. -/
theorem aggEnd_eq {y : XmitFrame} {s : AggState} (hoff : y.pktOffset = 1) (htail : 48 ≤ s.pbufTail) :
    ∃ d o, d % 8 = 0 ∧ d + o * 8 = 8 ∧ (s.pbufTail - d) % hal.bulkSize ≠ 0
      ∧ aggEnd env fields hal y s = ⟨y.bufAddr + d, s.pbufTail - d, s.aggNum,
          writeTxdesc env fields y (y.bufAddr + d) o s.aggNum s.mem⟩ := by
  unfold aggEnd
  rw [hoff]
  by_cases hb : s.pbufTail % hal.bulkSize = 0
  · rw [if_pos hb]
    exact ⟨8, 0, rfl, rfl, hal.sub_mod (by omega) hb, rfl⟩
  · rw [if_neg hb]
    exact ⟨0, 1, rfl, rfl, hb, rfl⟩

/-- **The transfer conveys the first frame and those packed behind it.** -/
theorem aggEnd_conveys {base : Nat} {y : XmitFrame} {ys : List XmitFrame} {s : AggState}
    (hbuf : y.bufAddr = base) (hoff : y.pktOffset = 1) (hsole : mpdusOf y.attrib y.frags = [y.mpdu])
    (hsz : y.attrib.lastTxcmdsz < 4096)
    (hpacked : Packed s.mem base (48 + y.attrib.lastTxcmdsz) ys s.pbufTail)
    (hstands : y.StandsIn s.mem) (hagg : s.aggNum = 1 + ys.length) :
    Conveys base hal.bulkSize (aggEnd env fields hal y s) (y :: ys) := by
  have hstart : y.firstStart = base + 48 := by
    unfold XmitFrame.firstStart
    rw [hbuf, hoff]
    rfl
  have htail := hpacked.tail_le
  have hbufsz : maxXmitbufSz = 20480 := rfl
  obtain ⟨d, o, hd, ho, hbulk, heq⟩ :=
    @aggEnd_eq env fields hal y s hoff (by omega)
  rw [hbuf] at heq
  rw [heq]
  -- the first descriptor is written in front of the first MPDU
  have hkeep : ∀ k, base + 48 ≤ k →
      writeTxdesc env fields y (base + d) o s.aggNum s.mem k = s.mem k := by
    intro k hk
    exact writeTxdesc_outside (Or.inr (by omega))
  have hpacked' := hpacked.congr fun k hk => hkeep k (by omega)
  have hstands' : ∀ z ∈ y :: ys,
      z.StandsIn (writeTxdesc env fields y (base + d) o s.aggNum s.mem) := by
    intro z hz
    rcases List.mem_cons.mp hz with rfl | hz
    · exact hstands.congr fun k hk _ => hkeep k (by omega)
    · obtain ⟨addr, hfol⟩ := hpacked'.follows hz
      exact hfol.stands
  have hsoles : ∀ z ∈ y :: ys, mpdusOf z.attrib z.frags = [z.mpdu] := by
    intro z hz
    rcases List.mem_cons.mp hz with rfl | hz
    · exact hsole
    · obtain ⟨addr, hfol⟩ := hpacked.follows hz
      exact hfol.sole
  have hwalk : (deviceWalk (writeTxdesc env fields y (base + d) o s.aggNum s.mem) (base + d)
      (s.pbufTail - d) (s.pbufTail - d) 0).map TxDesc.mpdu = (y :: ys).map XmitFrame.mpdu := by
    obtain ⟨fuel, hfuel⟩ : ∃ n, s.pbufTail - d = n + 1 := ⟨s.pbufTail - d - 1, by omega⟩
    have hnext : rnd8 (0 + 40 + o * 8 + y.attrib.lastTxcmdsz) + d
        = rnd8 (48 + y.attrib.lastTxcmdsz) := by
      rw [← rnd8_add_of_mod hd]
      congr 1
      omega
    have hrest := hpacked'.walk hd (show s.pbufTail - d + d = s.pbufTail by omega) hnext
      (show ys.length < fuel by omega)
    have hdesc := @txdescAt_writeTxdesc env fields y (base + d) o s.aggNum s.mem (by omega) (by omega)
    nth_rewrite 2 [hfuel]
    rw [deviceWalk, if_pos (by omega), Nat.add_zero, hdesc]
    dsimp only [txdescSize, packetOffsetSz]
    rw [List.map_cons, List.map_cons, hrest]
    refine congrArg (· :: ys.map XmitFrame.mpdu) ?_
    unfold TxDesc.mpdu XmitFrame.mpdu
    dsimp only [txdescSize, packetOffsetSz]
    rw [hstart]
    congr 1
    omega
  refine ⟨?_, ?_, hsoles, hstands', ?_, ?_, ?_, hbulk, ?_⟩
  · have hlen := congrArg List.length hwalk
    rw [List.length_map, List.length_map, List.length_cons] at hlen
    have hcount : ys.length + 1 = s.aggNum := by omega
    exact hlen.trans hcount
  · have hflat : (y :: ys).flatMap (fun z => mpdusOf z.attrib z.frags) = (y :: ys).map XmitFrame.mpdu := by
      rw [List.map_eq_flatMap]
      exact List.flatMap_congr hsoles
    rw [hflat]
    exact hwalk
  · refine List.Pairwise.cons ?_ hpacked.pairwise
    intro z hz
    have h := (hpacked.inside hz).1
    omega
  · intro z hz
    rcases List.mem_cons.mp hz with rfl | hz
    · refine ⟨by omega, ?_, by omega⟩
      show z.bufAddr + 40 ≤ _
      omega
    · obtain ⟨h1, h2, h3⟩ := hpacked.inside hz
      exact ⟨by omega, h2, h3⟩
  · obtain ⟨z, hz, hend⟩ := @Packed.getLast _ _ _ _ _ hpacked y (by omega)
    refine ⟨z, hz, ?_⟩
    dsimp only
    omega
  · dsimp only
    rw [writeTxdesc_eq]
    exact write_txdescBytes _ _ _ _ _ (by decide)

end

/-- The MPDU of a frame that fits is not long. -/
theorem needLength_lt {p : XmitPriv} {f : QueuedFrame}
    (h : FitsOneFragment p.fragLen f.attrib f.pkt) : xmitframeNeedLength f.attrib < 4096 := by
  have hmax := p.range.2
  have hpktlen := f.pktlen
  have htkip : (if f.attrib.encrypt = .tkip then 8 else 0) ≤ 8 := by
    split
    · exact Nat.le_refl _
    · exact Nat.zero_le _
  unfold FitsOneFragment icvRoom at h
  unfold xmitframeNeedLength
  omega

/-- **The device finds the frames of an aggregate.** Whatever is queued, as long as every MSDU fits
one fragment: a transfer conveys the frames that were built, in the order in which they were taken
off their queues; there is none only when no frame is left to take; and a frame that was taken off
is in the transfer or was refused by `rtw_xmitframe_coalesce`. -/
theorem aggregate_conveys_frames (aes : AesKey → BlockMode.Block → BlockMode.Block) (p : XmitPriv)
    (mlme : MlmePriv) (sec : SecurityPriv) (env : TxEnv) (fields : PktAttrib → Nat → UInt8)
    (inx : List Ac) (hal : UsbOut) (buf : XmitBuf) (q : HwXmits) (m : Mem) {r : Complete}
    (hr : r = rtl8812auXmitframeComplete aes p mlme sec env fields inx hal buf q m)
    (hfit : ∀ f ∈ q.frames, FitsOneFragment p.fragLen f.attrib f.pkt) :
    (∀ t, r.transfer = some t → Conveys buf.pbuf hal.bulkSize t (TakenFrames.built r.taken))
      ∧ (r.transfer = none →
        TakenFrames.built r.taken = [] ∧ HwXmits.rtwDequeueXframe inx r.queues = none)
      ∧ q.frames.Perm (r.taken.map Prod.fst ++ r.queues.frames)
      ∧ ∀ t ∈ r.taken, Honest aes p mlme sec t := by
  have hpick := @pickFirst_picked aes p mlme sec buf inx (q.frames.length + 1) q m (by omega)
  unfold rtl8812auXmitframeComplete at hr
  generalize pickFirst aes p mlme sec inx buf (q.frames.length + 1) q m = r1 at hr hpick
  obtain ⟨first, q1, ts⟩ := r1
  cases first with
  | none =>
      subst hr
      refine ⟨fun t ht => (by cases ht), fun _ => ⟨hpick.built, hpick.none rfl⟩, hpick.perm,
        hpick.honest⟩
  | some fy =>
      obtain ⟨f, y⟩ := fy
      obtain ⟨hmem, mem, hc⟩ := hpick.some f y rfl
      have hy := coalesce_built (hfit f hmem) hc
      have hbuf : y.bufAddr = buf.pbuf := hy.bufAddr
      have hoff : y.pktOffset = 1 := hy.pktOffset
      have hsz : y.attrib.lastTxcmdsz < 4096 := by
        rw [hy.size]
        exact needLength_lt (hfit f hmem)
      have hlen : xmitframeNeedLength y.attrib + txdescSize + y.pktOffset * packetOffsetSz
          = 48 + y.attrib.lastTxcmdsz := by
        rw [hy.need, hy.size, hoff]
        show _ + 40 + 1 * 8 = _
        omega
      dsimp only at hr
      generalize (if rnd8 (xmitframeNeedLength y.attrib + txdescSize + y.pktOffset * packetOffsetSz)
        < hal.bulkSize then 1 else 0) = descCount at hr
      split at hr
      · -- no other frame goes with it
        subst hr
        refine ⟨?_, fun ht => (by cases ht), hpick.perm, hpick.honest⟩
        intro t ht
        obtain rfl := Option.some.inj ht
        dsimp only
        rw [hpick.built]
        refine aggEnd_conveys hbuf hoff hy.mpdu hsz ?_ rfl rfl
        dsimp only
        rw [hlen]
        exact .nil
      · have hperm := hpick.perm
        have hpend : ∀ g ∈ servqPending f.attrib.psta (acOf f.attrib.priority) q1,
            FitsOneFragment p.fragLen g.attrib g.pkt := by
          intro g hg
          refine hfit g (hperm.mem_iff.mpr ?_)
          exact List.mem_append_right _ (servqPending_subset hg)
        have hloop := @aggLoop_looped aes p mlme sec env fields hal buf f.qsel
          (servqPending f.attrib.psta (acOf f.attrib.priority) q1)
          ⟨rnd8 (xmitframeNeedLength y.attrib + txdescSize + y.pktOffset * packetOffsetSz),
            rnd8_mod _, xmitframeNeedLength y.attrib + txdescSize + y.pktOffset * packetOffsetSz, 1,
            0, (rnd8 (xmitframeNeedLength y.attrib + txdescSize + y.pktOffset * packetOffsetSz)
              / hal.bulkSize + 1) * hal.bulkSize, y.mem⟩ hpend rfl (show 1 < 255 by decide)
        generalize aggLoop aes p mlme sec env fields hal buf f.qsel _ _ = l at hr hloop
        subst hr
        refine ⟨?_, fun ht => (by cases ht), ?_, ?_⟩
        · intro t ht
          obtain rfl := Option.some.inj ht
          have hfirst : TakenFrames.built ts = [y] := hpick.built
          have hbuilt : TakenFrames.built (ts ++ l.2.2) = y :: TakenFrames.built l.2.2 := by
            rw [built_append, hfirst]
            rfl
          dsimp only
          rw [hbuilt]
          have hpacked := hloop.packed
          dsimp only at hpacked
          rw [hlen] at hpacked
          refine aggEnd_conveys hbuf hoff hy.mpdu hsz hpacked ?_ hloop.aggNum
          -- the loop writes behind the first frame
          have hstart : y.firstStart = buf.pbuf + 48 := by rw [hy.firstStart]; rfl
          have hbelow := hloop.below
          dsimp only at hbelow
          rw [hlen] at hbelow
          have hge := rnd8_ge (48 + y.attrib.lastTxcmdsz)
          unfold XmitFrame.StandsIn
          exact Mem.read_congr fun i hi => hbelow _ (by omega)
        · have hset := setServq_perm hloop.queue
          dsimp only
          rw [List.map_append, List.append_assoc]
          exact hperm.trans (hset.append_left _)
        · intro t ht
          rcases List.mem_append.mp ht with ht | ht
          · exact hpick.honest t ht
          · exact hloop.honest t ht

/-- A frame of `n` bytes for the access point, under cipher `c`. -/
def sampleQueued (c : Cipher) (n : Nat) : QueuedFrame where
  attrib := { (sampleXmit c).attrib with pktlen := n }
  pkt := samplePkt n
  lookup := some (0, sampleSta)
  pktlen := by
    show n = (List.replicate (14 + n) (7 : UInt8)).length - 14
    rw [List.length_replicate]
    omega

/-- Three frames wait for the access point, and the first one cannot get its MIC. -/
def sampleQueues : HwXmits :=
  [⟨0, .be, [{ sampleQueued .tkip 40 with
      attrib := { (sampleQueued .tkip 40).attrib with dot11tkiptxmickey := fun _ => 0 } },
    sampleQueued .tkip 30, sampleQueued .aes 288]⟩]

/-- The high-speed bulk size. -/
def sampleUsbOut : UsbOut := ⟨512, by decide, 6⟩

def sampleXmitBuf : XmitBuf := ⟨1024, rfl, by decide⟩

/-- The other two go together. They would end at 512, so the eight bytes are left out. -/
theorem aggregate_conveys_frames_sample :
    ∃ r, r = rtl8812auXmitframeComplete (fun _ b => b) ⟨2346, by decide⟩ sampleMlme {} {}
        (fun _ _ => 0) [.vo, .vi, .be, .bk] sampleUsbOut sampleXmitBuf sampleQueues (fun _ => 0)
      ∧ r.transfer.map (fun t => (t.bufAddr, t.len, t.aggNum)) = some (1032, 504, 2)
      ∧ ∀ t, r.transfer = some t → Conveys 1024 512 t (TakenFrames.built r.taken) := by
  refine ⟨_, rfl, by decide +kernel, ?_⟩
  refine (aggregate_conveys_frames _ _ _ _ _ _ _ sampleUsbOut sampleXmitBuf _ _ rfl ?_).1
  intro f hf
  have hall : ∀ g ∈ HwXmits.frames sampleQueues,
      g.attrib.hdrlen + g.attrib.ivLen + 8 + (g.pkt.length - g.attrib.pktHdrlen)
        + icvRoom g.attrib + 4 ≤ 2346 := by decide +kernel
  exact hall f hf

end Rtl8812au
