import Rtl8812au.Recv.Validate
import Rtl8812au.Security.MichaelProof
import Rtl8812au.Security.Rc4Proof

/-!
# The MIC on its way

`xmitframe_addmic` and `recvframe_chkmic` take the addresses, the priority and the payload of a
frame by themselves, from other fields and with other lengths. For an MSDU in one fragment they
take the same bytes, so the receiver accepts what the sender has appended.
-/

namespace Rtl8812au

/-! ## The two ends -/

/-- A unicast MSDU laid out in one fragment for TKIP, with `n` bytes behind its IV. A size is a
`sint`. -/
structure MicReady (x : XmitFrame) (n : Nat) : Prop where
  encrypt : x.attrib.encrypt = .tkip
  ivLen : x.attrib.ivLen = Cipher.tkip.ivLen
  icvLen : x.attrib.icvLen = Cipher.tkip.icvLen
  unicast : x.attrib.ra.isMcast = false
  sole : x.attrib.nrFrags = 1
  size : x.attrib.lastTxcmdsz = x.attrib.hdrlen + x.attrib.ivLen + n + icvRoom x.attrib
  small : x.attrib.lastTxcmdsz < 2 ^ 31

/-- The priority as a receiver parses it. -/
def parsedPriority (a : PktAttrib) : Nat := if a.qosEn then a.priority else 0

/-- The decrypted frame: what validation reads from it is what `x` says, `n` bytes stand behind
the IV and are those of `x`, the addresses and the direction are those of `x`. On the air the
header may change in its other fields. -/
structure Heard (x : XmitFrame) (n : Nat) (f : RecvFrame) : Prop where
  encrypt : f.attrib.encrypt = .tkip
  hdrlen : f.attrib.hdrlen = x.attrib.hdrlen
  ivLen : f.attrib.ivLen = x.attrib.ivLen
  icvLen : f.attrib.icvLen = x.attrib.icvLen
  unicast : f.attrib.ra.isMcast = false
  priority : f.attrib.priority = parsedPriority x.attrib
  len : f.len = x.attrib.hdrlen + x.attrib.ivLen + n + x.attrib.icvLen
  toDs : (f.buf (f.rxData + 1)) &&& 1 = (x.mem (x.firstStart + 1)) &&& 1
  frDs : (f.buf (f.rxData + 1)) &&& 2 = (x.mem (x.firstStart + 1)) &&& 2
  addrs : f.buf.read (f.rxData + 4) 18 = x.mem.read (x.firstStart + 4) 18
  /-- A fourth address is there in a frame to and from the distribution system only. -/
  addr4 : (x.mem (x.firstStart + 1)) &&& 1 ≠ 0 → (x.mem (x.firstStart + 1)) &&& 2 ≠ 0 →
    f.buf.read (f.rxData + 24) 6 = x.mem.read (x.firstStart + 24) 6
  payload : f.buf.read (payloadAt f) n = x.mem.read x.payloadStart n

/-- `rtw_seccalctkipmic` is `rtw_secgetmic` after the header, the priority and the payload. -/
theorem rtwSeccalctkipmic_eq (key : Nat → UInt8) (m : Mem) (h data n : Nat) (pri : UInt8) :
    rtwSeccalctkipmic key m h data n pri
      = rtwSecgetmic (rtwSecmicappend (rtwSecmicappend (rtwSecmicappend (rtwSecmicsetkey key)
          (micHeader m h)) [pri, 0, 0, 0]) (m.read data n)) := by
  unfold rtwSeccalctkipmic micHeader
  dsimp only
  split
  · split
    · rw [Michael.append_append (rtwSecmicsetkey key)]
    · rw [Michael.append_append (rtwSecmicsetkey key)]
  · split
    · rw [Michael.append_append (rtwSecmicsetkey key)]
    · rw [Michael.append_append (rtwSecmicsetkey key)]

/-- What is written behind the header is not in it. -/
theorem micHeader_write {m : Mem} {p q : Nat} {bs : List UInt8} (h : p + 30 ≤ q) :
    micHeader (m.write q bs) p = micHeader m p := by
  have hread : ∀ k, k + 6 ≤ 30 → (m.write q bs).read (p + k) 6 = m.read (p + k) 6 := fun k hk =>
    Mem.read_write_disjoint (Or.inl (by omega))
  have hone : m.write q bs (p + 1) = m (p + 1) := Mem.write_of_lt (by omega)
  unfold micHeader
  rw [hone, hread 16 (by omega), hread 24 (by omega), hread 10 (by omega), hread 4 (by omega)]

/-- A part of the three addresses. -/
theorem read_addrs {m m' : Mem} {p q k : Nat} (h : m.read (p + 4) 18 = m'.read (q + 4) 18)
    (hk : 4 ≤ k) (hk' : k + 6 ≤ 22) : m.read (p + k) 6 = m'.read (q + k) 6 := by
  refine List.map_congr_left fun i hi => ?_
  have hi' := List.mem_range.mp hi
  have hat : ∀ (b : Mem) (r : Nat), (b.read (r + 4) 18)[k - 4 + i]? = some (b (r + k + i)) := by
    intro b r
    rw [Mem.getElem?_read _ (by omega)]
    refine congrArg (fun a => some (b a)) ?_
    omega
  have hsame := hat m p
  rw [h, hat m' q] at hsame
  exact (Option.some.inj hsame).symm

section

variable {fragLen n : Nat} {sec : SecurityPriv} {x x' : XmitFrame} {f : RecvFrame} {a : Adapter}

/-- A packet that `rtw_xmitframe_coalesce` has laid out in one fragment for TKIP is ready: its
payload is behind the LLC header. -/
theorem micReady_soleFragment {b : PktAttrib} {m : Mem} {data : List UInt8} (hb : b.Secured)
    (henc : b.encrypt = .tkip) (hra : b.ra.isMcast = false)
    (hsmall : (soleFragment x b m data).attrib.lastTxcmdsz < 2 ^ 31) :
    MicReady (soleFragment x b m data) (8 + data.length) := by
  refine ⟨henc, ?_, ?_, hra, rfl, ?_, hsmall⟩
  · rw [← henc]
    exact hb.ivLen
  · rw [← henc]
    exact hb.icvLen
  · show b.hdrlen + b.ivLen + 8 + icvRoom b + data.length
      = b.hdrlen + b.ivLen + (8 + data.length) + icvRoom b
    omega

/-- Both take the same bytes of the header. -/
theorem Heard.micHeader (h : Heard x n f) :
    micHeader f.buf f.rxData = micHeader x.mem x.firstStart := by
  unfold Rtl8812au.micHeader
  rw [h.toDs, h.frDs, read_addrs h.addrs (k := 16) (by omega) (by omega),
    read_addrs h.addrs (k := 10) (by omega) (by omega),
    read_addrs h.addrs (k := 4) (by omega) (by omega)]
  by_cases hto : (x.mem (x.firstStart + 1)) &&& 1 = 0
  · simp only [hto, bne_self_eq_false, Bool.false_eq_true, if_false]
  · by_cases hfr : (x.mem (x.firstStart + 1)) &&& 2 = 0
    · simp only [hfr, bne_self_eq_false, Bool.false_eq_true, if_false]
    · rw [h.addr4 hto hfr]

/-- The loop of `xmitframe_addmic` takes one turn, over the payload. -/
theorem MicReady.addmicWalk (h : MicReady x n) (fragLen : Nat) :
    addmicWalk fragLen x.attrib x.attrib.nrFrags x.firstStart = [(x.payloadStart, (n : Int))] := by
  have hsize := h.size
  rw [h.sole, Rtl8812au.addmicWalk, rnd4_of_dvd (firstStart_mod x)]
  refine congrArg (fun l => [(_, l)]) ?_
  omega

/-- The eight bytes that are appended. -/
def addedMic (x : XmitFrame) (n : Nat) : List UInt8 :=
  rtwSecgetmic (rtwSecmicappend (rtwSecmicappend (rtwSecmicappend
    (rtwSecmicsetkey x.attrib.dot11tkiptxmickey.skey) (micHeader x.mem x.firstStart))
    [UInt8.ofNat (parsedPriority x.attrib), 0, 0, 0]) (x.mem.read x.payloadStart n))

/-- **What the sender appends**, unless it has no key. -/
theorem MicReady.addmic (h : MicReady x n) (hadd : xmitframeAddmic fragLen sec x = some x') :
    x' = { x with mem := x.mem.write (x.payloadStart + n) (addedMic x n)
                  attrib := { x.attrib with lastTxcmdsz := x.attrib.lastTxcmdsz + 8 } } := by
  have hkey : txMicKey sec x.attrib = x.attrib.dot11tkiptxmickey := by
    unfold txMicKey
    rw [h.unicast]
    rfl
  have hu32 : toU32 (n : Int) = n := by
    have hsize := h.size
    have hsmall := h.small
    rw [toU32_of_nonneg (by omega) (by omega)]
    rfl
  have hpri : (if x.attrib.qosEn then UInt8.ofNat x.attrib.priority else 0)
      = UInt8.ofNat (parsedPriority x.attrib) := by
    unfold parsedPriority
    cases x.attrib.qosEn with
    | true => rfl
    | false => rfl
  have hmicAt : micAt [(x.payloadStart, (n : Int))] x.firstStart = x.payloadStart + n := rfl
  unfold xmitframeAddmic at hadd
  rw [if_neg (by rw [not_not]; exact h.encrypt), hkey] at hadd
  dsimp only at hadd
  by_cases hnull : x.attrib.dot11tkiptxmickey.isNull = true
  · rw [if_pos hnull] at hadd
    cases hadd
  · rw [if_neg hnull, h.addmicWalk, hmicAt, List.foldl_cons, List.foldl_nil, hu32, hpri] at hadd
    exact (Option.some.inj hadd).symm

/-- **The receiver accepts it**: it finds the same payload and behind it the same bytes that it
computes itself. -/
theorem mic_accepted (h : MicReady x n) (hadd : xmitframeAddmic fragLen sec x = some x')
    (hf : Heard x' (n + 8) f)
    (hkey : ∀ s, rtwGetStainfo a f.attrib.ta = some s →
      (a.sta s).dot11tkiprxmickey = x.attrib.dot11tkiptxmickey) :
    recvframeChkmic a f = .done ((f.pullTail 8).1, true) := by
  obtain rfl := h.addmic hadd
  have hhdr := hdrlen_ge x.attrib
  have hiv : x.attrib.ivLen = 8 := h.ivLen
  have hstart : x.firstStart + 30 ≤ x.payloadStart + n := by
    unfold XmitFrame.payloadStart
    omega
  have hheader : micHeader f.buf f.rxData = micHeader x.mem x.firstStart :=
    hf.micHeader.trans (micHeader_write hstart)
  have hmic : (addedMic x n).length = 8 := rfl
  -- the payload and the MIC behind it
  have hread : f.buf.read (payloadAt f) (n + 8) = x.mem.read x.payloadStart n ++ addedMic x n :=
    hf.payload.trans (Mem.read_write_append _ hmic)
  rw [Mem.read_add] at hread
  obtain ⟨hpay, hback⟩ := List.append_inj hread (by rw [Mem.length_read, Mem.length_read])
  have hlen : micDatalen f = (n : Int) := by
    have hl : f.len = x.attrib.hdrlen + x.attrib.ivLen + (n + 8) + x.attrib.icvLen := hf.len
    have hh : f.attrib.hdrlen = x.attrib.hdrlen := hf.hdrlen
    have hi : f.attrib.ivLen = x.attrib.ivLen := hf.ivLen
    have hc : f.attrib.icvLen = x.attrib.icvLen := hf.icvLen
    unfold micDatalen
    omega
  unfold recvframeChkmic
  rw [if_neg (by rw [not_not]; exact hf.encrypt)]
  cases hs : rtwGetStainfo a f.attrib.ta with
  | none => rfl
  | some s =>
    have hrxkey : rxMicKey a.sec (a.sta s) f = x.attrib.dot11tkiptxmickey := by
      unfold rxMicKey
      rw [hf.unicast]
      exact hkey s hs
    have hpri : f.attrib.priority = parsedPriority x.attrib := hf.priority
    dsimp only
    rw [hf.unicast, Bool.false_and, if_neg Bool.false_ne_true, hlen, if_neg (by omega),
      Int.toNat_natCast, hrxkey, rtwSeccalctkipmic_eq, hheader, hpri, hpay, hback]
    exact congrArg (fun ok => Outcome.done ((f.pullTail 8).1, ok)) (beq_self_eq_true (addedMic x n))

/-! ## Software encryption in between -/

/-- With room for the ICV, the frame with its MIC is one that software encryption seals. -/
theorem MicReady.oneFragment (h : MicReady x n) (hadd : xmitframeAddmic fragLen sec x = some x')
    (hbuf : x.bufAddr ≠ 0) (hsw : x.attrib.bswenc = true)
    (hsmall : x.attrib.lastTxcmdsz + 8 < 2 ^ 31) : OneFragment x' .tkip (n + 8) := by
  obtain rfl := h.addmic hadd
  have hsize := h.size
  have hicv := h.icvLen
  have hiv := h.ivLen
  refine ⟨hbuf, h.encrypt, hiv, hicv, h.sole, ?_, hsmall⟩
  show x.attrib.lastTxcmdsz + 8
    = x.attrib.hdrlen + Cipher.tkip.ivLen + (n + 8) + Cipher.tkip.icvLen
  rw [icvRoom, if_pos hsw] at hsize
  omega

/-- The fields of the received frame that validation fills in. -/
structure Parsed (x : XmitFrame) (f : RecvFrame) : Prop where
  icvLen : f.attrib.icvLen = x.attrib.icvLen
  unicast : f.attrib.ra.isMcast = false
  priority : f.attrib.priority = parsedPriority x.attrib

/-- What software decryption restores is the decrypted frame. -/
theorem Restored.heard {g : RecvFrame} {key : List UInt8} (h : Restored x n g)
    (ho : OneFragment x .tkip n) (ha : Arrives (x.sealed key n) f) (hp : Parsed x f) (hattr : g.attrib = f.attrib) (hlen : g.len = f.len) :
    Heard x n g := by
  have hsize := ho.size
  have hicv := ho.icvLen
  have hiv : x.attrib.ivLen = 8 := ho.ivLen
  have hhdr := hdrlen_ge x.attrib
  have hbytes : (f.buf.read f.rxData f.len).length
      = ((x.sealed key n).mem.read x.firstStart x.attrib.lastTxcmdsz).length :=
    congrArg List.length ha.bytes
  have hfront : ∀ i < x.attrib.hdrlen + x.attrib.ivLen,
      g.buf (g.rxData + i) = x.mem (x.firstStart + i) := by
    intro i hi
    have hat : (g.buf.read g.rxData (x.attrib.hdrlen + x.attrib.ivLen))[i]? = _ :=
      congrArg (fun l : List UInt8 => l[i]?) h.header
    rw [Mem.getElem?_read _ hi, Mem.getElem?_read _ hi] at hat
    exact Option.some.inj hat
  have hread : ∀ k l, k + l ≤ x.attrib.hdrlen + x.attrib.ivLen →
      g.buf.read (g.rxData + k) l = x.mem.read (x.firstStart + k) l := by
    intro k l hkl
    refine List.map_congr_left fun i hi => ?_
    have hi' := List.mem_range.mp hi
    rw [Nat.add_assoc, Nat.add_assoc]
    exact hfront _ (by omega)
  have hone := hfront 1 (by omega)
  refine
    { encrypt := by rw [hattr, ha.encrypt]; exact ho.encrypt
      hdrlen := by rw [hattr, ha.hdrlen]; rfl
      ivLen := by rw [hattr, ha.ivLen]; rfl
      icvLen := by rw [hattr, hp.icvLen]
      unicast := by rw [hattr, hp.unicast]
      priority := by rw [hattr, hp.priority]
      len := ?_
      toDs := by rw [hone]
      frDs := by rw [hone]
      addrs := hread 4 18 (by omega)
      addr4 := fun _ _ => hread 24 6 (by omega)
      payload := h.payload }
  rw [Mem.length_read, Mem.length_read] at hbytes
  have hivLen : Cipher.tkip.ivLen = 8 := rfl
  rw [hlen]
  omega

/-- Decryption changes the bytes and nothing else of a frame. -/
theorem rtwTkipDecrypt_fields {rsec : SecurityPriv} {stainfo : Option StaInfo} {g : RecvFrame}
    {ok : Bool} (h : rtwTkipDecrypt rsec stainfo f = .done (g, ok)) :
    g.attrib = f.attrib ∧ g.len = f.len := by
  cases stainfo with
  | none =>
    cases h
    exact ⟨rfl, rfl⟩
  | some psta =>
    unfold rtwTkipDecrypt at h
    dsimp only at h
    split at h
    · cases h
      exact ⟨rfl, rfl⟩
    · split at h
      · cases h
      · cases h
        exact ⟨rfl, rfl⟩

/-- **From end to end in software**: with its MIC an MSDU is encrypted, decrypted under the same
temporal key, and accepted. -/
theorem mic_survives_tkip {rsec : SecurityPriv} {stainfo : Option StaInfo} (h : MicReady x n)
    (hadd : xmitframeAddmic fragLen sec x = some x') (hbuf : x.bufAddr ≠ 0)
    (hsw : x.attrib.bswenc = true) (hsmall : x.attrib.lastTxcmdsz + 8 < 2 ^ 31)
    (ha : Arrives (rtwTkipEncrypt fragLen sec x') f) (hp : Parsed x' f)
    (hk : HoldsKey rsec stainfo f (txKey sec x'.attrib))
    (hkey : ∀ s, rtwGetStainfo a f.attrib.ta = some s →
      (a.sta s).dot11tkiprxmickey = x.attrib.dot11tkiptxmickey) :
    ∃ g, rtwTkipDecrypt rsec stainfo f = .done (g, true)
      ∧ recvframeChkmic a g = .done ((g.pullTail 8).1, true) := by
  have ho := h.oneFragment hadd hbuf hsw hsmall
  obtain ⟨g, hdec, hres⟩ := tkip_restored ho ha hk
  obtain ⟨hattr, hlen⟩ := rtwTkipDecrypt_fields hdec
  rw [rtwTkipEncrypt_sealed ho] at ha
  refine ⟨g, hdec, mic_accepted h hadd (hres.heard ho ha hp hattr hlen) ?_⟩
  rw [hattr]
  exact hkey

end

/-- **The Michael MIC.** In whatever pieces the messages come, `rtw_secgetmic` gives each its
Michael value and leaves the state of the key; and what `xmitframe_addmic` appends to a unicast
MSDU in one fragment, with QoS or without, in either direction and of any length, is accepted by
`recvframe_chkmic` on the decrypted frame of a receiver with the same key. -/
theorem michael_mic (key : Nat → UInt8) (chunks : List (List UInt8))
    (msgs : List (List (List UInt8))) (fragLen n : Nat) (sec : SecurityPriv) (x x' : XmitFrame)
    (f : RecvFrame) (a : Adapter) :
    rtwSecgetmic (chunks.foldl rtwSecmicappend (rtwSecmicsetkey key))
        = Michael.michael key chunks.flatten
      ∧ Michael.getmicState (chunks.foldl rtwSecmicappend (rtwSecmicsetkey key))
        = rtwSecmicsetkey key
      ∧ Michael.micsOf (rtwSecmicsetkey key) msgs
        = (msgs.map fun chunks => Michael.michael key chunks.flatten)
      ∧ (MicReady x n → xmitframeAddmic fragLen sec x = some x' → Heard x' (n + 8) f →
          (∀ s, rtwGetStainfo a f.attrib.ta = some s →
            (a.sta s).dot11tkiprxmickey = x.attrib.dot11tkiptxmickey) →
          recvframeChkmic a f = .done ((f.pullTail 8).1, true)) :=
  ⟨(Michael.getmic_eq key chunks).1, (Michael.getmic_eq key chunks).2, Michael.micsOf_eq key msgs,
    fun h hadd hf hkey => mic_accepted h hadd hf hkey⟩

/-- The frame as it is heard and decrypted, with what validation reads from it. -/
def plainHeard (x : XmitFrame) : RecvFrame :=
  { heard x with
    attrib := { (heard x).attrib with
                icvLen := x.attrib.icvLen, priority := parsedPriority x.attrib } }

theorem heard_plainHeard {x : XmitFrame} {n : Nat} (henc : x.attrib.encrypt = .tkip)
    (hsize : x.attrib.lastTxcmdsz = x.attrib.hdrlen + x.attrib.ivLen + n + x.attrib.icvLen) :
    Heard x n (plainHeard x) := by
  have hread : ∀ k l, (plainHeard x).buf.read (0 + k) l = x.mem.read (x.firstStart + k) l := by
    intro k l
    refine List.map_congr_left fun i _ => ?_
    show x.mem (x.firstStart + (0 + k + i)) = x.mem (x.firstStart + k + i)
    rw [Nat.zero_add, Nat.add_assoc]
  have hbyte : (plainHeard x).buf (0 + 1) = x.mem (x.firstStart + 1) := rfl
  have hra : MacAddr.zero.isMcast = false := by decide
  refine ⟨henc, rfl, rfl, rfl, hra, rfl, hsize, ?_, ?_, hread 4 18, fun _ _ => hread 24 6, ?_⟩
  · exact congrArg (· &&& 1) hbyte
  · exact congrArg (· &&& 2) hbyte
  · have hp := hread (x.attrib.hdrlen + x.attrib.ivLen) n
    rw [← Nat.add_assoc, ← Nat.add_assoc] at hp
    exact hp

/-- Five bytes to be sent with TKIP. -/
def sampleMicFrame : XmitFrame :=
  { sampleSealing .tkip with
    attrib := { (sampleSealing .tkip).attrib with
                bswenc := true, dot11tkiptxmickey := fun _ => 1 } }

/-- The station it is from has the same MIC key there. -/
def sampleMicPeer : Adapter :=
  { staHash := [3]
    sta := fun _ => { hwaddr := ⟨2, 0, 0, 0, 0, 2⟩, dot11tkiprxmickey := fun _ => 1 } }

theorem michael_mic_sample :
    ∃ x', xmitframeAddmic 2346 {} sampleMicFrame = some x'
      ∧ recvframeChkmic sampleMicPeer (plainHeard x')
        = .done (((plainHeard x').pullTail 8).1, true) := by
  have hready : MicReady sampleMicFrame 5 := ⟨rfl, rfl, rfl, rfl, rfl, rfl, by decide⟩
  have hsome : (xmitframeAddmic 2346 {} sampleMicFrame).isSome = true := by decide
  obtain ⟨x', hadd⟩ := Option.isSome_iff_exists.mp hsome
  obtain rfl := hready.addmic hadd
  refine ⟨_, hadd, ?_⟩
  exact (michael_mic (fun _ => 1) [] [] 2346 5 {} sampleMicFrame _ _ sampleMicPeer).2.2.2 hready
    hadd (heard_plainHeard rfl rfl) (fun _ _ => rfl)

end Rtl8812au
