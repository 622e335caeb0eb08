import Rtl8812au.Xmit.CoalesceProof

/-!
# Packet numbers on the air

A run of MSDUs to one station, each through `update_attrib_sec_info` and
`rtw_xmitframe_coalesce`, and the packet numbers a receiver finds in the MPDUs that
come out. The station's counter is threaded through the run; everything else about
the driver and the station may change from one MSDU to the next.
-/

namespace Rtl8812au

open BlockMode

/-! ## Reading a packet number back -/

theorem toNat_tsc (pn i : Nat) : (tsc pn i).toNat = pn / 256 ^ i % 256 := by
  unfold tsc
  rw [UInt8.toNat_ofNat']

/-- The number that `aes_decipher` holds in `pn_vector`. -/
def pnOfVector (v : Nat → UInt8) : Nat :=
  (v 0).toNat + (v 1).toNat * 2 ^ 8 + (v 2).toNat * 2 ^ 16 + (v 3).toNat * 2 ^ 24
    + (v 4).toNat * 2 ^ 32 + (v 5).toNat * 2 ^ 40

theorem tsc_sum {pn : Nat} (h : pn < 2 ^ 48) :
    (tsc pn 0).toNat + (tsc pn 1).toNat * 2 ^ 8 + (tsc pn 2).toNat * 2 ^ 16
      + (tsc pn 3).toNat * 2 ^ 24 + (tsc pn 4).toNat * 2 ^ 32 + (tsc pn 5).toNat * 2 ^ 40 = pn := by
  simp only [toNat_tsc]
  omega

theorem byte_of_read {m : Mem} {p n i : Nat} {bs : List UInt8} (h : m.read p n = bs)
    (hi : i < n) : m (p + i) = bs.getD i 0 := by
  rw [← h, List.getD_eq_getElem?_getD, Mem.getElem?_read m hi]
  rfl

/-- `GET_TKIP_PN` undoes `TKIP_IV`. -/
theorem getTkipPn_tkipIv {m : Mem} {p pn kid : Nat} (hpn : pn < 2 ^ 48)
    (h : m.read p 8 = tkipIv pn kid) : Tkip.getTkipPn m p = pn := by
  have h0 := byte_of_read (i := 0) h (by decide)
  have h2 := byte_of_read (i := 2) h (by decide)
  have h4 := byte_of_read (i := 4) h (by decide)
  have h5 := byte_of_read (i := 5) h (by decide)
  have h6 := byte_of_read (i := 6) h (by decide)
  have h7 := byte_of_read (i := 7) h (by decide)
  unfold Tkip.getTkipPn
  rw [Nat.add_zero] at h0
  rw [h0, h2, h4, h5, h6, h7]
  exact tsc_sum hpn

/-- The packet number vector of `aes_decipher` undoes `AES_IV`. -/
theorem pnVector_aesIv {m : Mem} {start hdrlen pn kid : Nat} (hpn : pn < 2 ^ 48)
    (h : m.read (start + hdrlen) 8 = aesIv pn kid) :
    pnOfVector (Ccmp.pnVector (m.shift start) hdrlen) = pn := by
  have hb : ∀ i < 8, m (start + (hdrlen + i)) = (aesIv pn kid).getD i 0 := by
    intro i hi
    rw [← Nat.add_assoc]
    exact byte_of_read h hi
  have h0 := hb 0 (by decide)
  have h1 := hb 1 (by decide)
  have h4 := hb 4 (by decide)
  have h5 := hb 5 (by decide)
  have h6 := hb 6 (by decide)
  have h7 := hb 7 (by decide)
  show (m (start + (hdrlen + 0))).toNat + (m (start + (hdrlen + 1))).toNat * 2 ^ 8
    + (m (start + (hdrlen + 4))).toNat * 2 ^ 16 + (m (start + (hdrlen + 5))).toNat * 2 ^ 24
    + (m (start + (hdrlen + 6))).toNat * 2 ^ 32 + (m (start + (hdrlen + 7))).toNat * 2 ^ 40 = pn
  rw [h0, h1, h4, h5, h6, h7]
  exact tsc_sum hpn

/-! ## What `update_attrib_sec_info` takes -/

/-- The ciphers with a 48-bit packet number. -/
def Cipher.HasPn48 (c : Cipher) : Prop := c = .tkip ∨ c = .aes

/-- The IV for packet number `pn` under a pairwise key. -/
def pairwiseIv (c : Cipher) (pn : Nat) : List UInt8 :=
  if c = .tkip then tkipIv pn 0 else aesIv pn 0

/-- Two attributes agree in everything that `update_attrib_sec_info` does not set. -/
structure PktAttrib.SameFrame (a a' : PktAttrib) : Prop where
  subtype : a'.subtype = a.subtype
  hdrlen : a'.hdrlen = a.hdrlen
  pktHdrlen : a'.pktHdrlen = a.pktHdrlen
  ra : a'.ra = a.ra

theorem chooseEncrypt_fst {sec : SecurityPriv} {psta : StaInfo} {a : PktAttrib} {c : Cipher}
    (hc : c.HasPn48) (hra : a.ra.isMcast = false)
    (halg : getEncryAlgo sec psta.dot118021XPrivacy false = c) :
    (chooseEncrypt sec psta a).1 = c := by
  unfold chooseEncrypt
  dsimp only
  rw [hra, halg]
  rcases hc with rfl | rfl <;> simp

/-- **A packet number is taken exactly when the MSDU is to be encrypted**, and the IV is
made from it. -/
theorem updateAttribSecInfo_cases {mpState : Bool} {sec : SecurityPriv} {psta : StaInfo}
    {a : PktAttrib} {c : Cipher} (hc : c.HasPn48) (hra : a.ra.isMcast = false)
    (halg : getEncryAlgo sec psta.dot118021XPrivacy false = c) :
    ((updateAttribSecInfo mpState sec psta a).ok = false
        ∧ (updateAttribSecInfo mpState sec psta a).dot11txpn = psta.dot11txpn)
      ∨ ((updateAttribSecInfo mpState sec psta a).attrib.encrypt = .noPrivacy
        ∧ (updateAttribSecInfo mpState sec psta a).dot11txpn = psta.dot11txpn)
      ∨ (psta.ieee8021xBlocked = false
        ∧ (updateAttribSecInfo mpState sec psta a).dot11txpn
            = nextPn 0xffffffffffff psta.dot11txpn
        ∧ (updateAttribSecInfo mpState sec psta a).attrib.encrypt = c
        ∧ (updateAttribSecInfo mpState sec psta a).attrib.Secured
        ∧ (updateAttribSecInfo mpState sec psta a).attrib.iv = pairwiseIv c psta.dot11txpn
        ∧ (updateAttribSecInfo mpState sec psta a).attrib.bswenc
            = (sec.swEncrypt || !sec.hwDecrypted)
        ∧ a.SameFrame (updateAttribSecInfo mpState sec psta a).attrib) := by
  cases hb : psta.ieee8021xBlocked with
  | true =>
      -- a blocked station gets EAPOL only, in the clear
      unfold updateAttribSecInfo
      rw [hb]
      by_cases he : (a.etherType != 0x888e && !mpState) = true
      · left
        simp [he]
      · right; left
        simp [he, fillIv]
  | false =>
      unfold updateAttribSecInfo
      rw [hb]
      dsimp only
      rw [chooseEncrypt_fst hc (by exact hra) halg]
      rcases hc with rfl | rfl
      · cases hk : sec.busetkipkey with
        | false =>
            left
            simp [fillIv, hk]
        | true =>
            right; right
            simp [fillIv, hk, hra, pairwiseIv]
            exact ⟨⟨rfl, rfl, rfl⟩, ⟨rfl, rfl, rfl, rfl⟩⟩
      · right; right
        simp [fillIv, hra, pairwiseIv]
        exact ⟨⟨rfl, rfl, rfl⟩, ⟨rfl, rfl, rfl, rfl⟩⟩

/-! ## A run of MSDUs -/

/-- One MSDU for the station, with the driver and station state it meets. -/
structure TxMsdu where
  mlme : MlmePriv := {}
  sec : SecurityPriv := {}
  sta : StaInfo := {}
  xmitPriv : XmitPriv
  /-- The station that `rtw_get_stainfo` finds. -/
  lookup : Option (Nat × StaInfo) := none
  attrib : PktAttrib := {}
  pkt : List UInt8
  bufAddr : Nat
  aligned : bufAddr % 4 = 0
  pktOffset : Nat := 0
  mem : Mem

/-- An MPDU in the transmit buffer, with the packet number that was taken for it. -/
structure Mpdu where
  mem : Mem
  start : Nat
  hdrlen : Nat
  encrypt : Cipher
  txpn : Nat

/-- The packet number that the receiver reads. -/
def Mpdu.rxpn (u : Mpdu) : Nat :=
  match u.encrypt with
  | .tkip => Tkip.getTkipPn u.mem (u.start + u.hdrlen)
  | .aes => pnOfVector (Ccmp.pnVector (u.mem.shift u.start) u.hdrlen)
  | _ => 0

section

variable (aes : AesKey → Block → Block)

/-- One MSDU: the next packet number of the station and the MPDUs that leave. -/
def txStep (pn : Nat) (x : TxMsdu) : Nat × List Mpdu :=
  let r := updateAttribSecInfo x.mlme.mpState x.sec { x.sta with dot11txpn := pn } x.attrib
  if !r.ok then (r.dot11txpn, [])
  else
    let frame : XmitFrame := ⟨r.attrib, x.bufAddr, x.aligned, x.pktOffset, x.mem, []⟩
    match rtwXmitframeCoalesce aes x.xmitPriv.fragLen x.mlme x.sec x.lookup x.pkt frame with
    | none => (r.dot11txpn, [])
    | some y =>
      (r.dot11txpn, y.frags.map fun f => ⟨y.mem, f.memStart, y.attrib.hdrlen, y.attrib.encrypt, pn⟩)

/-- The MPDUs of a whole run that starts at packet number `pn`. -/
def txRun : Nat → List TxMsdu → List Mpdu
  | _, [] => []
  | pn, x :: xs => (txStep aes pn x).2 ++ txRun (txStep aes pn x).1 xs

end

/-- The MPDUs that leave encrypted. -/
def encrypted (us : List Mpdu) : List Mpdu := us.filter fun u => u.encrypt ≠ .noPrivacy

/-- The MSDU goes to one station under cipher `c`. -/
structure TxMsdu.Pairwise (x : TxMsdu) (c : Cipher) : Prop where
  ra : x.attrib.ra.isMcast = false
  algo : getEncryAlgo x.sec x.sta.dot118021XPrivacy false = c

/-- If the station is not blocked, the packet fits one fragment with its IV, its LLC
header and, under software encryption, its ICV. -/
def TxMsdu.OneFragment (x : TxMsdu) (c : Cipher) : Prop :=
  x.sta.ieee8021xBlocked = false →
    x.attrib.hdrlen + c.ivLen + 8 + (x.pkt.length - x.attrib.pktHdrlen)
      + (if x.sec.swEncrypt || !x.sec.hwDecrypted then c.icvLen else 0) + 4 ≤ x.xmitPriv.fragLen

/-! ## The IV survives -/

theorem SoleSeen.payload_start {aes : AesKey → Block → Block} {fragLen : Nat} {sec : SecurityPriv}
    {x x' : XmitFrame} {f : Fragment} {r : Ranges} (h : SoleSeen aes fragLen sec x x' f r) :
    r.payload.1 = (f.ranges x.attrib).payload.1 := by
  by_cases hc : x.attrib.encrypt = .tkip
  · obtain ⟨-, -, -, -, hp, -⟩ := h.tkip hc
    rw [hp]
  · have hs := (h.seen hc).2
    rw [h.walk, h.frags] at hs
    have hr : r = f.ranges x.attrib := (List.cons.inj hs).1
    rw [hr]

theorem xmitframeSwencrypt_frags {aes : AesKey → Block → Block} {fragLen : Nat}
    {sec : SecurityPriv} (x : XmitFrame) :
    (xmitframeSwencrypt aes fragLen sec x).frags = x.frags
      ∧ (xmitframeSwencrypt aes fragLen sec x).attrib = x.attrib := by
  unfold xmitframeSwencrypt
  split
  · split <;> exact ⟨rfl, rfl⟩
  · exact ⟨rfl, rfl⟩

section

variable {aes : AesKey → Block → Block} {fragLen : Nat} {sec : SecurityPriv}
variable {x x' : XmitFrame} {a : PktAttrib} {m : Mem} {data : List UInt8}

/-- Neither the MIC nor the encryption reaches below the payload. -/
theorem swencrypt_below_payload (hs : a.Secured) (hc : a.encrypt.Software)
    (hfc : FctrlOf a.subtype (m.le16 x.firstStart)) (hlen : data.length ≤ 2346)
    (h : xmitframeAddmic fragLen sec (soleFragment x a m data) = some x') {k : Nat}
    (hk : k < x.firstStart + a.hdrlen + a.ivLen) :
    (xmitframeSwencrypt aes fragLen sec x').mem k = (soleFragment x a m data).mem k := by
  have hmic : x'.mem k = (soleFragment x a m data).mem k := by
    rcases xmitframeAddmic_soleFragment h with ⟨-, rfl⟩ | ⟨-, mic, -, rfl⟩
    · rfl
    · exact Mem.write_of_lt (by omega)
  have hb' : x'.attrib.bswenc = a.bswenc := by
    rcases xmitframeAddmic_soleFragment h with ⟨-, rfl⟩ | ⟨-, mic, -, rfl⟩ <;> rfl
  rw [← hmic]
  cases hb : a.bswenc with
  | false =>
      unfold xmitframeSwencrypt
      rw [if_neg (by rw [hb', hb]; decide)]
  | true =>
      obtain ⟨f, r, hseen⟩ := @soleSeen_of _ _ _ _ aes _ _ _ hs hc hb hfc hlen h
      have hf : f = ⟨x.firstStart, 8, data.length⟩ := (List.cons.inj hseen.frags).1.symm
      refine hseen.outside k (Or.inl ?_)
      rw [hseen.payload_start, hf]
      exact hk

end

/-- **An MSDU that fits one fragment leaves as one MPDU with its IV in place.** -/
theorem coalesce_one_fragment {aes : AesKey → Block → Block} (p : XmitPriv) {mlme : MlmePriv}
    {sec : SecurityPriv} {lookup : Option (Nat × StaInfo)} {pkt : List UInt8} {x y : XmitFrame}
    (hra : x.attrib.ra.isMcast = false) (hs : x.attrib.Secured) (hc : x.attrib.encrypt.Software)
    (hfit : FitsOneFragment p.fragLen x.attrib pkt)
    (h : rtwXmitframeCoalesce aes p.fragLen mlme sec lookup pkt x = some y) :
    ∃ f, y.frags = [f] ∧ y.attrib.hdrlen = x.attrib.hdrlen ∧ y.attrib.encrypt = x.attrib.encrypt
      ∧ y.mem.read (f.memStart + x.attrib.hdrlen) x.attrib.ivLen = x.attrib.iv := by
  unfold rtwXmitframeCoalesce at h
  cases h1 : coalesceFrags p.fragLen mlme lookup pkt x with
  | none => rw [h1] at h; exact absurd h (by simp)
  | some x1 =>
      rw [h1] at h
      cases h2 : xmitframeAddmic p.fragLen sec x1 with
      | none => dsimp only at h; rw [h2] at h; exact absurd h (by simp)
      | some x2 =>
          dsimp only at h
          rw [h2] at h
          obtain rfl := Option.some.inj h
          obtain ⟨m, seqnum, hfc, rfl⟩ := coalesceFrags_single p hra hfit h1
          have hlen : (pkt.drop x.attrib.pktHdrlen).length ≤ 2346 := by
            have hmax := p.range.2
            unfold FitsOneFragment at hfit
            rw [List.length_drop]
            omega
          have hs' : ({ x.attrib with seqnum := seqnum } : PktAttrib).Secured :=
            ⟨hs.ivLen, hs.icvLen, hs.iv⟩
          obtain ⟨hfr, hat⟩ := @xmitframeSwencrypt_frags aes p.fragLen sec x2
          refine ⟨⟨x.firstStart, 8, (pkt.drop x.attrib.pktHdrlen).length⟩, ?_, ?_, ?_, ?_⟩
          · rw [hfr]
            rcases xmitframeAddmic_soleFragment h2 with ⟨-, rfl⟩ | ⟨-, mic, -, rfl⟩ <;> rfl
          · rw [hat]
            rcases xmitframeAddmic_soleFragment h2 with ⟨-, rfl⟩ | ⟨-, mic, -, rfl⟩ <;> rfl
          · rw [hat]
            rcases xmitframeAddmic_soleFragment h2 with ⟨-, rfl⟩ | ⟨-, mic, -, rfl⟩ <;> rfl
          · rw [← @iv_soleFragment x _ m (pkt.drop x.attrib.pktHdrlen) hs'.iv]
            refine Mem.read_congr fun i hi => ?_
            have hk : x.firstStart + x.attrib.hdrlen + i
                < x.firstStart + x.attrib.hdrlen + x.attrib.ivLen := by omega
            exact swencrypt_below_payload hs' hc hfc hlen h2 hk

theorem coalesce_encrypt {aes : AesKey → Block → Block} {fragLen : Nat} {mlme : MlmePriv}
    {sec : SecurityPriv} {lookup : Option (Nat × StaInfo)} {pkt : List UInt8} {x y : XmitFrame}
    (h : rtwXmitframeCoalesce aes fragLen mlme sec lookup pkt x = some y) :
    y.attrib.encrypt = x.attrib.encrypt := by
  unfold rtwXmitframeCoalesce at h
  cases h1 : coalesceFrags fragLen mlme lookup pkt x with
  | none => rw [h1] at h; exact absurd h (by simp)
  | some x1 =>
      rw [h1] at h
      dsimp only at h
      have e1 : x1.attrib.encrypt = x.attrib.encrypt := by
        unfold coalesceFrags at h1
        split_ifs at h1
        cases hmk : rtwMakeWlanhdr mlme lookup x.mem x.firstStart x.attrib with
        | none => rw [hmk] at h1; exact absurd h1 (by simp)
        | some r =>
            obtain ⟨m, a⟩ := r
            obtain ⟨⟨seqnum, rfl⟩, -⟩ := rtwMakeWlanhdr_some hmk
            rw [hmk] at h1
            dsimp only at h1
            split at h1
            · exact absurd h1 (by simp)
            · rw [← Option.some.inj h1]
      cases h2 : xmitframeAddmic fragLen sec x1 with
      | none => rw [h2] at h; exact absurd h (by simp)
      | some x2 =>
          rw [h2] at h
          rw [← Option.some.inj h, (xmitframeSwencrypt_frags x2).2, ← e1]
          unfold xmitframeAddmic at h2
          dsimp only at h2
          split at h2
          · rw [← Option.some.inj h2]
          · split at h2
            · exact absurd h2 (by simp)
            · rw [← Option.some.inj h2]

/-- **One MSDU**: no encrypted MPDU and the counter stays, or one at most, whose packet
number was the counter's, and the counter moves on. -/
theorem txStep_cases {aes : AesKey → Block → Block} {x : TxMsdu} {c : Cipher} {pn : Nat}
    (hc : c.HasPn48) (hx : x.Pairwise c) (hfit : x.OneFragment c) (hpn : pn < 2 ^ 48) :
    (encrypted (txStep aes pn x).2 = [] ∧ (txStep aes pn x).1 = pn)
      ∨ ((txStep aes pn x).1 = nextPn 0xffffffffffff pn
        ∧ (encrypted (txStep aes pn x).2 = []
          ∨ ∃ u : Mpdu, encrypted (txStep aes pn x).2 = [u] ∧ u.rxpn = pn ∧ u.txpn = pn)) := by
  unfold txStep
  dsimp only
  have hcases := @updateAttribSecInfo_cases x.mlme.mpState x.sec { x.sta with dot11txpn := pn }
    x.attrib c hc hx.ra hx.algo
  generalize updateAttribSecInfo x.mlme.mpState x.sec { x.sta with dot11txpn := pn } x.attrib = r
    at hcases ⊢
  rcases hcases with ⟨hok, hp⟩ | ⟨henc, hp⟩ | ⟨hbl, hp, henc, hsec, hiv, hsw, hsame⟩
  · -- refused
    left
    rw [if_pos (by simp [hok])]
    exact ⟨rfl, hp⟩
  · -- in the clear
    left
    split_ifs with hok
    · exact ⟨rfl, hp⟩
    · split
      · exact ⟨rfl, hp⟩
      · rename_i y hy
        refine ⟨?_, hp⟩
        have hye := coalesce_encrypt hy
        refine List.filter_eq_nil_iff.mpr fun u hu => ?_
        obtain ⟨f, -, rfl⟩ := List.mem_map.mp hu
        simp [hye, henc]
  -- the counter is read for the IV, and moves on whether or not a frame comes of it
  · right
    split_ifs with hok
    · exact ⟨hp, Or.inl rfl⟩
    · split
      · exact ⟨hp, Or.inl rfl⟩
      · rename_i y hy
        refine ⟨hp, Or.inr ?_⟩
        -- the MSDU is one fragment, with the room that the ICV takes
        have hfit' : FitsOneFragment x.xmitPriv.fragLen r.attrib x.pkt := by
          have hroom : icvRoom r.attrib
              = if x.sec.swEncrypt || !x.sec.hwDecrypted then c.icvLen else 0 := by
            unfold icvRoom
            rw [hsw, hsec.icvLen, henc]
          unfold FitsOneFragment
          rw [hsame.hdrlen, hsame.pktHdrlen, hsec.ivLen, henc, hroom]
          exact hfit hbl
        have hsoft : r.attrib.encrypt.Software := by
          rw [henc]
          rcases hc with h | h
          · exact Or.inr (Or.inr (Or.inl h))
          · exact Or.inr (Or.inr (Or.inr h))
        -- what is read back from the one frame is the IV that was put there
        obtain ⟨f, hfr, hyh, hye, hread⟩ := coalesce_one_fragment x.xmitPriv
          (x := ⟨r.attrib, x.bufAddr, x.aligned, x.pktOffset, x.mem, []⟩)
          (by rw [hsame.ra]; exact hx.ra) hsec hsoft hfit' hy
        refine ⟨⟨y.mem, f.memStart, y.attrib.hdrlen, y.attrib.encrypt, pn⟩, ?_, ?_, rfl⟩
        · rw [hfr]
          unfold encrypted
          rw [List.map_cons, List.map_nil, List.filter_cons_of_pos, List.filter_nil]
          rw [hye, henc]
          rcases hc with rfl | rfl <;> rfl
        · unfold Mpdu.rxpn
          dsimp only at hread hyh hye ⊢
          rw [hye, henc, hyh]
          rw [hiv, hsec.ivLen, henc] at hread
          rcases hc with rfl | rfl
          · exact getTkipPn_tkipIv hpn hread
          · exact pnVector_aesIv hpn hread

theorem encrypted_append (us vs : List Mpdu) :
    encrypted (us ++ vs) = encrypted us ++ encrypted vs := List.filter_append ..

/-- Every encrypted MPDU of a run is read with the number that was taken for it, which
is at least the counter at the start; and they all differ. -/
theorem txRun_numbers {aes : AesKey → Block → Block} {c : Cipher} (hc : c.HasPn48) :
    ∀ (xs : List TxMsdu) (pn : Nat), pn + xs.length ≤ 2 ^ 48 →
      (∀ x ∈ xs, x.Pairwise c ∧ x.OneFragment c) →
      (∀ u ∈ encrypted (txRun aes pn xs), u.rxpn = u.txpn ∧ pn ≤ u.txpn)
        ∧ ((encrypted (txRun aes pn xs)).map Mpdu.rxpn).Nodup
  -- by induction on the run; the counter only grows, and does not come to its end
  | [], pn, _, _ => by simp [txRun, encrypted]
  | x :: xs, pn, hlen, hxs => by
      rw [List.length_cons] at hlen
      obtain ⟨hx, hfit⟩ := hxs x (List.mem_cons_self ..)
      have htail := fun y hy => hxs y (List.mem_cons_of_mem _ hy)
      rw [txRun, encrypted_append]
      rcases @txStep_cases aes _ _ pn hc hx hfit (by omega)
        with ⟨hnil, hp⟩ | ⟨hp, hnil | ⟨u, hu, hrx, htx⟩⟩
      · rw [hnil, hp, List.nil_append]
        exact txRun_numbers hc xs pn (by omega) htail
      · -- the number is used up, but nothing leaves
        rw [hnil, List.nil_append, hp]
        cases xs with
        | nil => simp [txRun, encrypted]
        | cons y ys =>
            rw [List.length_cons] at hlen
            have hnext : nextPn 0xffffffffffff pn = pn + 1 := by
              unfold nextPn
              rw [if_neg (by omega), Nat.mod_eq_of_lt (by omega)]
            rw [hnext]
            obtain ⟨h1, h2⟩ := txRun_numbers hc (y :: ys) (pn + 1)
              (by rw [List.length_cons]; omega) htail
            exact ⟨fun v hv => ⟨(h1 v hv).1, by have := (h1 v hv).2; omega⟩, h2⟩
      · rw [hu, hp]
        cases xs with
        | nil =>
            refine ⟨fun v hv => ?_, by simp [txRun, encrypted]⟩
            have hvu : v = u := by simpa [txRun, encrypted] using hv
            subst hvu
            exact ⟨hrx.trans htx.symm, by omega⟩
        | cons y ys =>
            rw [List.length_cons] at hlen
            have hnext : nextPn 0xffffffffffff pn = pn + 1 := by
              unfold nextPn
              rw [if_neg (by omega), Nat.mod_eq_of_lt (by omega)]
            rw [hnext]
            obtain ⟨h1, h2⟩ := txRun_numbers hc (y :: ys) (pn + 1)
              (by rw [List.length_cons]; omega) htail
            refine ⟨fun v hv => ?_, ?_⟩
            · rcases List.mem_append.mp hv with hv | hv
              · rw [List.mem_singleton.mp hv]
                exact ⟨hrx.trans htx.symm, by omega⟩
              · exact ⟨(h1 v hv).1, by have := (h1 v hv).2; omega⟩
            · -- what comes later is numbered above this one
              rw [List.singleton_append, List.map_cons, List.nodup_cons]
              refine ⟨fun hmem => ?_, h2⟩
              obtain ⟨v, hv, hvu⟩ := List.mem_map.mp hmem
              have := h1 v hv
              omega

/-- **No packet number is used twice.** In every run of MSDUs to one station under a
TKIP or CCMP pairwise key whose counter does not run out, if every MSDU fits one
fragment then no two encrypted MPDUs carry the same packet number, and the receiver
reads the number that was taken. -/
theorem packet_numbers_unique (aes : AesKey → Block → Block) {c : Cipher} (hc : c.HasPn48)
    {pn : Nat} {xs : List TxMsdu} (hpn : pn + xs.length ≤ 2 ^ 48)
    (hxs : ∀ x ∈ xs, x.Pairwise c) (hfit : ∀ x ∈ xs, x.OneFragment c) :
    ((encrypted (txRun aes pn xs)).map Mpdu.rxpn).Nodup
      ∧ ∀ u ∈ encrypted (txRun aes pn xs), u.rxpn = u.txpn := by
  obtain ⟨h1, h2⟩ := @txRun_numbers aes _ hc xs pn hpn fun x hx => ⟨hxs x hx, hfit x hx⟩
  exact ⟨h2, fun u hu => (h1 u hu).1⟩

/-- An MSDU of `n` bytes to the access point under CCMP, encrypted by the hardware. -/
def sampleMsdu (fragLen n : Nat) (h : 256 ≤ fragLen ∧ fragLen ≤ 2346) : TxMsdu where
  mlme := sampleMlme
  sec := { dot11AuthAlgrthm := .ieee8021x }
  sta := { sampleSta with dot118021XPrivacy := .aes }
  xmitPriv := ⟨fragLen, h⟩
  lookup := some (0, sampleSta)
  attrib := { hdr := plainHdr, etherType := 0x0800, ra := ⟨2, 0, 0, 0, 0, 1⟩,
              ta := ⟨2, 0, 0, 0, 0, 2⟩, psta := some 0 }
  pkt := samplePkt n
  bufAddr := 512
  aligned := aligned_512
  mem := fun _ => 0

theorem packet_numbers_unique_sample :
    ((encrypted (txRun (fun _ b => b) 5 [sampleMsdu 2346 30 (by decide),
          sampleMsdu 256 60 (by decide)])).map Mpdu.rxpn).Nodup
      ∧ ∀ u ∈ encrypted (txRun (fun _ b => b) 5 [sampleMsdu 2346 30 (by decide),
          sampleMsdu 256 60 (by decide)]), u.rxpn = u.txpn := by
  refine packet_numbers_unique _ (c := .aes) (Or.inr rfl) (by decide) ?_ ?_
  · intro x hx
    simp only [List.mem_cons, List.not_mem_nil, or_false] at hx
    rcases hx with rfl | rfl <;> exact ⟨rfl, rfl⟩
  · intro x hx
    simp only [List.mem_cons, List.not_mem_nil, or_false] at hx
    rcases hx with rfl | rfl
    · intro _
      show _ ≤ 2346
      decide
    · intro _
      show _ ≤ 256
      decide

/-- 300 bytes at a threshold of 256 leave as two MPDUs with one packet number. -/
theorem packet_number_reused :
    ¬ ∀ (c : Cipher) (pn : Nat) (xs : List TxMsdu), c.HasPn48 → pn + xs.length ≤ 2 ^ 48 →
      (∀ x ∈ xs, x.Pairwise c) →
      ((encrypted (txRun (fun _ b => b) pn xs)).map Mpdu.rxpn).Nodup := by
  intro h
  have h2 := h .aes 5 [sampleMsdu 256 300 (by decide)] (Or.inr rfl) (by decide) (by
    intro x hx
    rw [List.mem_singleton.mp hx]
    exact ⟨rfl, rfl⟩)
  have hrun : (encrypted (txRun (fun _ b => b) 5 [sampleMsdu 256 300 (by decide)])).map Mpdu.rxpn
      = [5, 5] := by decide +kernel
  rw [hrun] at h2
  exact absurd h2 (by decide)

end Rtl8812au
