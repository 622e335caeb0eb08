import Rtl8812au.Recv.Validate
import Rtl8812au.Recv.DefragProof

/-!
# Lengths of protected frames

`validate_recv_frame` computes where the payload of a frame starts from its header bits
and chooses its cipher, but compares neither with the length of the frame. The decryption
functions then subtract the header, the IV and the integrity value from that length. The
theorem says for exactly which frames these differences are not negative.
-/

namespace Rtl8812au

/-! ## What validation leaves of a frame -/

/-- `g` is `f` with other addresses. -/
def SameButAddrs (f g : RecvFrame) : Prop :=
  g = { f with attrib := { f.attrib with
    dst := g.attrib.dst, src := g.attrib.src, bssid := g.attrib.bssid
    ra := g.attrib.ra, ta := g.attrib.ta } }

section

variable (a : Adapter) (f : RecvFrame)

theorem sta2staStation_frame (ret : RxRet) (b : Bool) (addr : Option MacAddr) :
    (sta2staStation a ret b f addr).2.1 = f := by
  unfold sta2staStation
  split <;> rfl

theorem sta2staDataFrame_same : SameButAddrs f (sta2staDataFrame a f).2.1 := by
  unfold sta2staDataFrame
  dsimp only
  split_ifs
  all_goals first
    | rfl
    | (rw [sta2staStation_frame]; rfl)

theorem mpDataFrame_same : SameButAddrs f (mpDataFrame a f).2.1 := by
  unfold mpDataFrame
  dsimp only
  split_ifs
  · cases rtwGetStainfo a (mpAddrs f).attrib.bssid <;> rfl
  · cases rtwGetStainfo a a.mlme.bssid <;> rfl

theorem ap2staDataFrame_same : SameButAddrs f (ap2staDataFrame a f).2.1 := by
  unfold ap2staDataFrame
  dsimp only
  split_ifs
  all_goals first
    | rfl
    | exact mpDataFrame_same a f
    | (cases rtwGetBcmcStainfo a <;> rfl)
    | (cases rtwGetStainfo a f.attrib.bssid <;> rfl)

theorem sta2apDataFrame_same : SameButAddrs f (sta2apDataFrame a f).2.1 := by
  unfold sta2apDataFrame
  split_ifs
  all_goals first
    | rfl
    | exact mpDataFrame_same a f
    | (cases rtwGetStainfo a f.attrib.src <;> rfl)

/-- **The three directions fill in addresses and nothing else**, and a frame between
two distribution systems is refused. -/
theorem dsDataFrame_same :
    SameButAddrs f (dsDataFrame a f).2.1
      ∧ ((dsDataFrame a f).1 = .success → f.attrib.toFrDs < 3) := by
  unfold dsDataFrame
  dsimp only
  split
  · rename_i h
    refine ⟨?_, fun _ => by omega⟩
    rw [SameButAddrs, sta2staDataFrame_same]
  · rename_i h
    refine ⟨?_, fun _ => by omega⟩
    rw [SameButAddrs, ap2staDataFrame_same]
  · rename_i h
    refine ⟨?_, fun _ => by omega⟩
    rw [SameButAddrs, sta2apDataFrame_same]
  · exact ⟨rfl, fun h => absurd h (by simp)⟩

end

/-- The MAC header of a data frame, by its QoS subtype and its order bit. -/
def airHdrlen (f : RecvFrame) : Nat :=
  24 + (if (Wifi.getFrameSubType f.buf f.rxData).testBit 7 then 2 else 0)
    + if Wifi.getOrder f.buf f.rxData then 4 else 0

/-- What holds of every frame that `validate_recv_frame` accepts, with the frame `f` it
was given. -/
structure Accepted (f g : RecvFrame) : Prop where
  id : g.id = f.id
  pkt : g.pkt = f.pkt
  len : g.len = f.len
  buf : g.buf = f.buf
  rxHead : g.rxHead = f.rxHead
  rxData : g.rxData = f.rxData
  rxTail : g.rxTail = f.rxTail
  rxEnd : g.rxEnd = f.rxEnd
  psta : g.psta.isSome = true
  hdrlen : g.attrib.hdrlen = airHdrlen f
  ivLen : g.attrib.ivLen = g.attrib.encrypt.ivLen
  icvLen : g.attrib.icvLen = g.attrib.encrypt.icvLen
  mfrag : g.attrib.mfrag = Wifi.getMFrag f.buf f.rxData
  fragNum : g.attrib.fragNum = Wifi.getFragNum f.buf f.rxData
  privacy : g.attrib.privacy = Wifi.getPrivacy f.buf f.rxData
  type : Wifi.getFrameType f.buf f.rxData = .data

/-- What a data frame looks like once its QoS control field and its cipher are known. -/
theorem validateRecvDataFrame_success {a a' : Adapter} {f g : RecvFrame}
    (h : validateRecvDataFrame a f = (.success, a', g)) :
    ∃ k s, (dsDataFrame a f).1 = .success ∧ (dsDataFrame a f).2.1 = k
      ∧ g = setEncrypt a' (a'.sta s) { parseQos { k with psta := some s } with
          preorderCtrl := some (s,
            Fin.ofNat 16 (parseQos { k with psta := some s }).attrib.priority) } := by
  unfold validateRecvDataFrame at h
  rcases hd : dsDataFrame a f with ⟨ret, k, psta⟩
  rw [hd] at h
  cases ret with
  | fail => cases psta <;> exact absurd (congrArg Prod.fst h) (by simp)
  | handled => cases psta <;> exact absurd (congrArg Prod.fst h) (by simp)
  | success =>
      cases psta with
      | none => exact absurd (congrArg Prod.fst h) (by simp)
      | some s =>
          dsimp only at h
          split at h
          · exact absurd (congrArg Prod.fst h) (by simp)
          · simp only [Prod.mk.injEq, true_and] at h
            obtain ⟨rfl, rfl⟩ := h
            exact ⟨k, s, rfl, rfl, rfl⟩

/-- The header length behind `parseQos`. -/
theorem parseQos_hdrlen {f : RecvFrame} (h : f.attrib.toFrDs < 3) :
    (parseQos f).attrib.hdrlen
      = 24 + (if f.attrib.qos then 2 else 0) + if f.attrib.order then 4 else 0 := by
  have h3 : f.attrib.toFrDs ≠ 3 := by omega
  unfold parseQos
  dsimp only
  rw [if_neg h3, if_neg h3]
  cases f.attrib.qos <;> cases f.attrib.order <;> simp

/-- What `parseQos` leaves alone. -/
theorem parseQos_same (f : RecvFrame) :
    parseQos f = { f with attrib := { f.attrib with
      priority := (parseQos f).attrib.priority, ackPolicy := (parseQos f).attrib.ackPolicy
      amsdu := (parseQos f).attrib.amsdu, hdrlen := (parseQos f).attrib.hdrlen } } := by
  unfold parseQos
  dsimp only
  split_ifs <;> rfl

/-- **What an accepted frame is.** -/
theorem validateRecvFrame_accepted {a a' : Adapter} {f g : RecvFrame}
    (h : validateRecvFrame a f = .done (.success, a', g)) : Accepted f g := by
  unfold validateRecvFrame at h
  split at h
  · exact absurd (congrArg Prod.fst (Outcome.done.inj h)) (by simp)
  · dsimp only at h
    split at h
    · -- a management frame is never accepted
      obtain ⟨b, -, hb⟩ := Outcome.bind_eq_done.mp h
      exact absurd (congrArg Prod.fst (Outcome.done.inj hb)) (by simp)
    · exact absurd (congrArg Prod.fst (Outcome.done.inj h)) (by simp)
    · rename_i htype
      obtain ⟨k, s, hds, hk, rfl⟩ := validateRecvDataFrame_success (Outcome.done.inj h)
      obtain ⟨hsame, hto⟩ := dsDataFrame_same a { readHeader f with attrib :=
        { (readHeader f).attrib with
          qos := (Wifi.getFrameSubType (readHeader f).buf (readHeader f).rxData).testBit 7 } }
      have hto3 := hto hds
      rw [hk] at hsame
      have hk3 : k.attrib.toFrDs < 3 := by rw [hsame]; exact hto3
      have hhdr := @parseQos_hdrlen { k with psta := some s } hk3
      unfold setEncrypt
      dsimp only
      rw [parseQos_same] at hhdr ⊢
      refine ⟨?_, ?_, ?_, ?_, ?_, ?_, ?_, ?_, rfl, ?_, rfl, rfl, ?_, ?_, ?_, htype⟩
      all_goals try (rw [hsame]; rfl)
      rw [hhdr, hsame]
      rfl
    · exact absurd (congrArg Prod.fst (Outcome.done.inj h)) (by simp)

theorem Accepted.wf {f g : RecvFrame} (h : Accepted f g) (hf : f.WF) : g.WF := by
  obtain ⟨h1, h2, h3, h4, h5⟩ := hf
  have e1 := h.rxHead
  have e2 := h.rxData
  have e3 := h.rxTail
  have e4 := h.rxEnd
  have e5 := h.len
  refine ⟨?_, ?_, ?_, ?_, ?_⟩ <;> omega

/-! ## The length of a reassembled frame -/

/-- The length of a reassembled frame and of the ICV at its end, from the lengths of the
fragments behind its first one, whose buffer holds `room` bytes; nothing if a fragment is
out of number. -/
def reassembledLen (room : Nat) : (len icv cur : Nat) → List RecvFrame → Option (Nat × Nat)
  | len, icv, _, [] => some (len, icv)
  | len, icv, cur, g :: q =>
    if cur = g.attrib.fragNum then
      let cut := lenAfterCut len icv
      reassembledLen room (if cut + bodyLen g ≤ room then cut + bodyLen g else cut)
        g.attrib.icvLen (cur + 1) q
    else none

/-- One turn of the loop, whether or not there is room. -/
theorem joinFragment_lens {f g : RecvFrame} (hf : f.WF) (hg : g.WF) :
    (joinFragment f g).joined.len
        = (if lenAfterCut f.len f.attrib.icvLen + bodyLen g ≤ f.rxEnd - f.rxData
          then lenAfterCut f.len f.attrib.icvLen + bodyLen g
          else lenAfterCut f.len f.attrib.icvLen)
      ∧ (joinFragment f g).joined.rxData = f.rxData
      ∧ (joinFragment f g).joined.rxEnd = f.rxEnd
      ∧ (joinFragment f g).joined.attrib = { f.attrib with icvLen := g.attrib.icvLen } := by
  by_cases hb : (joinFragment f g).InBounds
  · obtain ⟨h1, h2, h3, h4, -⟩ := joinFragment_joined hf hg hb
    rw [if_pos ((joinFragment_inBounds hf hg).mp hb)]
    exact ⟨h1, h2, h3, h4⟩
  · rw [if_neg (fun h => hb ((joinFragment_inBounds hf hg).mpr h))]
    have hpt := (joinFragment_pointers hf hg).trimmed
    unfold DefragStep.InBounds at hb
    unfold joinFragment at hb hpt ⊢
    dsimp only at hb hpt ⊢
    have hwf : RecvFrame.WF { (f.pullTail f.attrib.icvLen).1 with
        buf := (f.pullTail f.attrib.icvLen).1.buf.copy (f.pullTail f.attrib.icvLen).1.rxTail
          (pullFragment g).buf (pullFragment g).rxData (pullFragment g).len } :=
      ⟨hpt.head_le, hpt.data_le, hpt.tail_le, hpt.len_eq, hpt.small⟩
    rw [RecvFrame.put_eq hwf, if_neg (by exact hb), trim_eq hf]
    exact ⟨rfl, rfl, rfl, rfl⟩

/-- **The loop reassembles to the length that the fragments give**, and the frame keeps
all attributes of its first fragment but the ICV length. -/
theorem defragLoop_len : ∀ (q : List RecvFrame) (f : RecvFrame) (cur : Nat), f.WF →
    (∀ g ∈ q, g.WF) →
    (defragLoop f cur q).1.map (fun o => (o.len, o.attrib.icvLen))
        = reassembledLen (f.rxEnd - f.rxData) f.len f.attrib.icvLen cur q
      ∧ ∀ o, (defragLoop f cur q).1 = some o →
          o.attrib = { f.attrib with icvLen := o.attrib.icvLen }
  | [], f, cur, _, _ => by
      refine ⟨rfl, ?_⟩
      intro o ho
      obtain rfl := Option.some.inj ho
      rfl
  | g :: q, f, cur, hf, hq => by
      have hg := hq g (List.mem_cons_self ..)
      obtain ⟨e1, e2, e3, e4⟩ := joinFragment_lens hf hg
      obtain ⟨ih1, ih2⟩ := defragLoop_len q (joinFragment f g).joined (cur + 1)
        (joinFragment_pointers hf hg).joined (fun y hy => hq y (List.mem_cons_of_mem _ hy))
      rw [e1, e2, e3, e4] at ih1
      rw [defragLoop, reassembledLen]
      by_cases hcur : cur = g.attrib.fragNum
      · rw [if_pos hcur, if_neg (by simp [hcur])]
        refine ⟨ih1, ?_⟩
        intro o ho
        rw [ih2 o ho, e4]
      · rw [if_neg hcur, if_pos (by simp [hcur])]
        exact ⟨rfl, fun o ho => absurd ho (by simp)⟩

/-! ## When the lengths fit -/

/-- No length that is computed from the accepted frame `g` is negative: what is left for
the cipher is at least its ICV, and if `recvframe_chk_defrag` checks a TKIP MIC with the
`defrag_q` it finds, the bytes under the MIC are not less than none. -/
structure LengthsFit (q : Option (List RecvFrame)) (g : RecvFrame) : Prop where
  icv : g.attrib.encrypt.Software → (g.attrib.encrypt.icvLen : Int) ≤ decryptLength g
  mic : ∀ h, (chkDefragQueue q g).frame = some h → h.attrib.privacy = true →
    h.attrib.encrypt = .tkip → 0 ≤ micDatalen h

/-- The on-air frame `f`, accepted as `g`, is long enough for what is cut off it, and so
is the frame that it completes. -/
structure LongOnAir (q : Option (List RecvFrame)) (f g : RecvFrame) : Prop where
  icv : g.attrib.encrypt.Software →
    airHdrlen f + g.attrib.encrypt.ivLen + g.attrib.encrypt.icvLen ≤ f.len
  mic : g.attrib.encrypt = .tkip → g.attrib.mfrag = false → g.attrib.fragNum = 0 →
    airHdrlen f + 8 + 4 + 8 ≤ f.len
  joined : ∀ x rest, g.attrib.mfrag = false → g.attrib.fragNum ≠ 0 → q = some (x :: rest) →
    x.attrib.fragNum = 0 → x.attrib.privacy = true → x.attrib.encrypt = .tkip →
    ∀ l icv, reassembledLen (x.rxEnd - x.rxData) x.len x.attrib.icvLen 1 (rest ++ [g])
        = some (l, icv) →
      x.attrib.hdrlen + x.attrib.ivLen + icv + 8 ≤ l

/-- A frame that is no fragment goes on as it is. -/
theorem chkDefragQueue_whole {q : Option (List RecvFrame)} {g : RecvFrame}
    (hm : g.attrib.mfrag = false) (h0 : g.attrib.fragNum = 0) :
    (chkDefragQueue q g).frame = some g := by
  unfold chkDefragQueue
  rw [if_pos (by simp [hm, h0])]

/-- With more fragments to come there is nothing to go on with. -/
theorem chkDefragQueue_more {q : Option (List RecvFrame)} {g : RecvFrame}
    (hm : g.attrib.mfrag = true) : (chkDefragQueue q g).frame = none := by
  unfold chkDefragQueue
  rw [if_neg (by simp [hm])]
  cases q with
  | none => rfl
  | some q => simp only [hm, if_true]; split <;> rfl

/-- The last fragment completes a frame if the queue starts with fragment 0. -/
theorem chkDefragQueue_last {q : Option (List RecvFrame)} {g h : RecvFrame}
    (hm : g.attrib.mfrag = false) (h0 : g.attrib.fragNum ≠ 0) :
    (chkDefragQueue q g).frame = some h
      ↔ ∃ x rest, q = some (x :: rest) ∧ x.attrib.fragNum = 0
        ∧ (defragLoop x 1 (rest ++ [g])).1 = some h := by
  unfold chkDefragQueue
  rw [if_neg (by simp [hm, h0])]
  cases q with
  | none =>
      refine ⟨fun h => absurd h (by simp), ?_⟩
      rintro ⟨x, rest, hq, -⟩
      exact absurd hq (by simp)
  | some q =>
      simp only [hm, Bool.false_eq_true, if_false]
      constructor
      · intro hr
        obtain ⟨x, q', hxq, hx0, hl, -⟩ := recvframeDefrag_some hr
        cases q with
        | nil =>
            obtain ⟨rfl, -⟩ := List.cons.inj hxq
            exact absurd hx0 h0
        | cons y rest =>
            obtain ⟨rfl, rfl⟩ := List.cons.inj hxq
            exact ⟨y, rest, rfl, hx0, hl⟩
      · rintro ⟨x, rest, hq, hx0, hl⟩
        obtain rfl := Option.some.inj hq
        rw [List.cons_append, recvframeDefrag, if_neg (by simp [hx0])]
        rcases hd : defragLoop x 1 (rest ++ [g]) with ⟨o, steps⟩
        rw [hd] at hl
        cases o with
        | none => exact absurd hl (by simp)
        | some o => exact hl

section

variable {a a' : Adapter} {f g : RecvFrame} {q : Option (List RecvFrame)}

/-- The MIC check of a frame that is no fragment. -/
theorem micFits_whole (hacc : Accepted f g) (hp : g.attrib.privacy = true)
    (hm : g.attrib.mfrag = false) (h0 : g.attrib.fragNum = 0) :
    (∀ h, (chkDefragQueue q g).frame = some h → h.attrib.privacy = true →
        h.attrib.encrypt = .tkip → 0 ≤ micDatalen h)
      ↔ (g.attrib.encrypt = .tkip → airHdrlen f + 8 + 4 + 8 ≤ f.len) := by
  rw [chkDefragQueue_whole hm h0]
  have hiff : g.attrib.encrypt = .tkip →
      (0 ≤ micDatalen g ↔ airHdrlen f + 8 + 4 + 8 ≤ f.len) := by
    intro ht
    unfold micDatalen
    rw [hacc.len, hacc.hdrlen, hacc.ivLen, hacc.icvLen, ht]
    simp only [Cipher.ivLen, Cipher.icvLen]
    omega
  constructor
  · intro h ht
    exact (hiff ht).mp (h g rfl hp ht)
  · intro h k hk _ ht
    obtain rfl := Option.some.inj hk
    exact (hiff ht).mpr (h ht)

/-- The MIC check of a frame that the last fragment completes. -/
theorem micFits_last (hg : g.WF) (hq : ∀ x ∈ q.getD [], x.WF)
    (hm : g.attrib.mfrag = false) (h0 : g.attrib.fragNum ≠ 0) :
    (∀ h, (chkDefragQueue q g).frame = some h → h.attrib.privacy = true →
        h.attrib.encrypt = .tkip → 0 ≤ micDatalen h)
      ↔ ∀ x rest, q = some (x :: rest) → x.attrib.fragNum = 0 → x.attrib.privacy = true →
          x.attrib.encrypt = .tkip →
          ∀ l icv, reassembledLen (x.rxEnd - x.rxData) x.len x.attrib.icvLen 1 (rest ++ [g])
              = some (l, icv) →
            x.attrib.hdrlen + x.attrib.ivLen + icv + 8 ≤ l := by
  -- the frame has the length and the attributes that the fragments give it
  have key : ∀ x rest, q = some (x :: rest) →
      (defragLoop x 1 (rest ++ [g])).1.map (fun o => (o.len, o.attrib.icvLen))
          = reassembledLen (x.rxEnd - x.rxData) x.len x.attrib.icvLen 1 (rest ++ [g])
        ∧ ∀ o, (defragLoop x 1 (rest ++ [g])).1 = some o →
            o.attrib = { x.attrib with icvLen := o.attrib.icvLen } := by
    intro x rest hx
    have hall : ∀ y ∈ x :: rest, y.WF := by
      intro y hy
      exact hq y (by rw [hx]; exact hy)
    refine defragLoop_len _ _ _ (hall x (List.mem_cons_self ..)) ?_
    intro y hy
    rcases List.mem_append.mp hy with hy | hy
    · exact hall y (List.mem_cons_of_mem _ hy)
    · rw [List.mem_singleton.mp hy]
      exact hg
  constructor
  · intro h x rest hx hx0 hxp hxt l icv hl
    obtain ⟨k1, k2⟩ := key x rest hx
    rw [hl] at k1
    obtain ⟨o, ho, hpair⟩ := Option.map_eq_some_iff.mp k1
    have hat := k2 o ho
    have hfit := h o ((chkDefragQueue_last hm h0).mpr ⟨x, rest, hx, hx0, ho⟩)
      (by rw [hat]; exact hxp) (by rw [hat]; exact hxt)
    obtain ⟨rfl, rfl⟩ := Prod.mk.inj hpair
    unfold micDatalen at hfit
    rw [hat] at hfit
    dsimp only at hfit
    omega
  · intro h o ho hop hot
    obtain ⟨x, rest, hx, hx0, hl⟩ := (chkDefragQueue_last hm h0).mp ho
    obtain ⟨k1, k2⟩ := key x rest hx
    have hat := k2 o hl
    rw [hl] at k1
    have hfit := h x rest hx hx0 (by rw [hat] at hop; exact hop) (by rw [hat] at hot; exact hot)
      o.len o.attrib.icvLen k1.symm
    unfold micDatalen
    rw [hat]
    dsimp only
    omega

/-- **Exactly which accepted frames have no negative length.** For every driver state, every
received frame that `validate_recv_frame` accepts with the Protected bit set, and every
`defrag_q` of received frames. -/
theorem decrypt_lengths_fit_iff (hf : f.WF) (hq : ∀ x ∈ q.getD [], x.WF)
    (hv : validateRecvFrame a f = .done (.success, a', g)) (hp : g.attrib.privacy = true) :
    LengthsFit q g ↔ LongOnAir q f g := by
  have hacc := validateRecvFrame_accepted hv
  have hicv : (g.attrib.encrypt.icvLen : Int) ≤ decryptLength g
      ↔ airHdrlen f + g.attrib.encrypt.ivLen + g.attrib.encrypt.icvLen ≤ f.len := by
    unfold decryptLength
    rw [hacc.len, hacc.hdrlen, hacc.ivLen]
    omega
  cases hm : g.attrib.mfrag with
  | true =>
      have hnone := @chkDefragQueue_more q g hm
      constructor
      · intro h
        exact ⟨fun hs => hicv.mp (h.icv hs), fun _ h' => absurd (hm.symm.trans h') (by simp),
          fun _ _ h' => absurd (hm.symm.trans h') (by simp)⟩
      · intro h
        refine ⟨fun hs => hicv.mpr (h.icv hs), ?_⟩
        intro k hk
        rw [hnone] at hk
        exact absurd hk (by simp)
  | false =>
      by_cases h0 : g.attrib.fragNum = 0
      · have hmic := @micFits_whole f g q hacc hp hm h0
        constructor
        · intro h
          exact ⟨fun hs => hicv.mp (h.icv hs), fun ht _ _ => hmic.mp h.mic ht,
            fun _ _ _ h' => absurd h0 h'⟩
        · intro h
          exact ⟨fun hs => hicv.mpr (h.icv hs), hmic.mpr fun ht => h.mic ht hm h0⟩
      · have hmic := micFits_last (hacc.wf hf) hq hm h0
        constructor
        · intro h
          exact ⟨fun hs => hicv.mp (h.icv hs), fun _ _ h' => absurd h' h0,
            fun x rest _ _ => hmic.mp h.mic x rest⟩
        · intro h
          exact ⟨fun hs => hicv.mpr (h.icv hs), hmic.mpr fun x rest => h.joined x rest hm h0⟩

end

/-- A station linked to the access point `02:00:00:00:00:01` with WEP. -/
def sampleStation : Adapter where
  mlme := { stationState := true, fwLinked := true, bssid := ⟨2, 0, 0, 0, 0, 1⟩ }
  sec := { dot11PrivacyAlgrthm := .wep40 }
  myid := ⟨2, 0, 0, 0, 0, 2⟩
  staHash := [0]
  sta := fun _ => { hwaddr := ⟨2, 0, 0, 0, 0, 1⟩, tidRxseq := fun _ => 0xffff }

/-- A protected data frame from that access point, `n` bytes long on the air. -/
def sampleProtected (n : Nat) : RecvFrame where
  id := 0
  len := n
  rxHead := 0
  rxData := 8
  rxTail := 8 + n
  rxEnd := 8 + n + 64
  buf := fun k =>
    [0x08, 0x42, 0, 0, 2, 0, 0, 0, 0, 2, 2, 0, 0, 0, 0, 1, 2, 0, 0, 0, 0, 3, 0x10, 0].getD (k - 8) 0

theorem sampleProtected_wf (n : Nat) (h : n ≤ 1000) : (sampleProtected n).WF := by
  refine ⟨?_, ?_, ?_, ?_, ?_⟩ <;> dsimp only [sampleProtected] <;> omega

/-- The frame is accepted, as no fragment and with WEP. -/
def acceptedWep (x : Outcome (RxRet × Adapter × RecvFrame)) : Bool :=
  match x with
  | .done (.success, _, g) =>
    g.attrib.privacy && g.attrib.encrypt = .wep40 && !g.attrib.mfrag && g.attrib.fragNum = 0
  | _ => false

theorem acceptedWep_spec {x : Outcome (RxRet × Adapter × RecvFrame)} (h : acceptedWep x = true) :
    ∃ a g, x = .done (.success, a, g) ∧ g.attrib.privacy = true ∧ g.attrib.encrypt = .wep40
      ∧ g.attrib.mfrag = false ∧ g.attrib.fragNum = 0 := by
  unfold acceptedWep at h
  split at h
  · rename_i a g
    simp only [Bool.and_eq_true, decide_eq_true_eq, Bool.not_eq_true'] at h
    exact ⟨a, g, rfl, h.1.1.1, h.1.1.2, h.1.2, h.2⟩
  · exact absurd h (by simp)

/-- Forty bytes are enough for header, IV and ICV. -/
theorem decrypt_lengths_fit_iff_sample :
    ∃ a g, validateRecvFrame sampleStation (sampleProtected 40) = .done (.success, a, g)
      ∧ g.attrib.encrypt = .wep40 ∧ LengthsFit (some []) g := by
  have hacc : acceptedWep (validateRecvFrame sampleStation (sampleProtected 40)) = true := by
    decide
  have hlen : airHdrlen (sampleProtected 40) = 24 := by decide
  obtain ⟨a, g, hv, hp, hc, hm, h0⟩ := acceptedWep_spec hacc
  refine ⟨a, g, hv, hc, ?_⟩
  rw [decrypt_lengths_fit_iff (sampleProtected_wf 40 (by omega)) (by simp) hv hp]
  refine ⟨?_, ?_, ?_⟩
  · intro _
    rw [hc, hlen]
    decide
  · intro ht
    exact absurd (hc.symm.trans ht) (by decide)
  · intro x rest _ hx
    exact absurd h0 hx

/-- Nothing but its header: a frame of 24 bytes is accepted, and its length for RC4 comes
out as minus four. -/
theorem decrypt_length_underflows :
    ¬ ∀ (a a' : Adapter) (f g : RecvFrame) (q : Option (List RecvFrame)), f.WF →
      (∀ x ∈ q.getD [], x.WF) → validateRecvFrame a f = .done (.success, a', g) →
      g.attrib.privacy = true → LengthsFit q g := by
  intro h
  have hacc : acceptedWep (validateRecvFrame sampleStation (sampleProtected 24)) = true := by
    decide
  have hlen : airHdrlen (sampleProtected 24) = 24 := by decide
  obtain ⟨a, g, hv, hp, hc, -, -⟩ := acceptedWep_spec hacc
  have hfit := (h _ _ _ _ (some []) (sampleProtected_wf 24 (by omega)) (by simp) hv hp).icv
    (Or.inl hc)
  have hshape := validateRecvFrame_accepted hv
  unfold decryptLength at hfit
  rw [hshape.len, hshape.hdrlen, hshape.ivLen, hc, hlen] at hfit
  exact absurd hfit (by decide)

end Rtl8812au
