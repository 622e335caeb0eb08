import Rtl8812au.Recv.LengthProof
import Rtl8812au.Recv.PathProof
import Rtl8812au.Recv.ReorderProof

/-!
# The frame that is let through

What `recv_func_posthandle` hands to indication is said here without running it: on the bytes
of the frame, on the keys of its station and on the fragments that wait there. A frame is
opened, it completes an MSDU, the MIC of that is right, and port control has nothing against
it; the last two theorems say that this is exact.
-/

namespace Rtl8812au

/-! ## Decryption -/

section

variable (aes : AesKey → BlockMode.Block → BlockMode.Block) (a : Adapter)

/-- The key for a group frame is installed. -/
def GroupKey (f : RecvFrame) : Prop := f.attrib.ra.isMcast = true → a.sec.binstallGrpkey = true

/-- `g` is `f` with its payload deciphered. TKIP and AES frames have a station, and their ICV
or MIC is right; what WEP leaves in the place of the ICV is not looked at. -/
def Deciphers (f g : RecvFrame) : Prop :=
  match f.attrib.encrypt with
  | .wep40 | .wep104 =>
    0 ≤ decryptLength f ∧ g = rc4Open (rxWepKey a.sec f) f (decryptLength f).toNat
  | .tkip =>
    ∃ s, rtwGetStainfo a f.attrib.ta = some s ∧ GroupKey a f ∧ 0 ≤ decryptLength f ∧
      g = rc4Open (Tkip.rc4Key (rxKey a.sec (a.sta s) f) f.attrib.ta f.buf
        (f.rxData + f.attrib.hdrlen)) f (decryptLength f).toNat ∧
      icvRight g (decryptLength f).toNat = true
  | .aes =>
    ∃ s, rtwGetStainfo a f.attrib.ta = some s ∧ GroupKey a f ∧
      (f.attrib.ra.isMcast = true → a.sec.dot118021XGrpKeyid = f.attrib.keyIndex) ∧
      8 ≤ decryptLength f ∧
      Ccmp.adjustHdrlen (f.buf.shift f.rxData) f.attrib.hdrlen + (decryptLength f).toNat + 8
        ≤ maxMsgSize ∧
      let r := Ccmp.aesDecipher aes (rxKey a.sec (a.sta s) f) a.message f.attrib.hdrlen
        (f.buf.shift f.rxData) (decryptLength f).toNat
      r.ok = true ∧ g = { f with buf := f.buf.onFrom f.rxData fun _ => r.pframe }
  | _ => g = f

/-- `g` is `f` opened: deciphered where that is left to software, and marked. -/
def Opens (f g : RecvFrame) : Prop :=
  ∃ h, (if swDecrypts a.sec (readKeyIndex f) = true then Deciphers aes a (readKeyIndex f) h
      else h = readKeyIndex f) ∧
    g = { h with attrib := { h.attrib with bdecrypted := true } }

end

section

variable {aes : AesKey → BlockMode.Block → BlockMode.Block} {a : Adapter} {f g : RecvFrame}

instance : Decidable (GroupKey a f) := inferInstanceAs (Decidable (_ → _))

theorem not_groupKey : (f.attrib.ra.isMcast && !a.sec.binstallGrpkey) = true ↔ ¬ GroupKey a f := by
  unfold GroupKey
  rw [Bool.and_eq_true, Bool.not_eq_true', Classical.not_imp, Bool.not_eq_true]

theorem rtwTkipDecrypt_iff {sec : SecurityPriv} (hs : sec = { a.sec with hwDecrypted := false }) :
    rtwTkipDecrypt sec ((rtwGetStainfo a f.attrib.ta).map a.sta) f = .done (g, true) ↔
      ∃ s, rtwGetStainfo a f.attrib.ta = some s ∧ GroupKey a f ∧ 0 ≤ decryptLength f ∧
        g = rc4Open (Tkip.rc4Key (rxKey a.sec (a.sta s) f) f.attrib.ta f.buf
          (f.rxData + f.attrib.hdrlen)) f (decryptLength f).toNat ∧
        icvRight g (decryptLength f).toNat = true := by
  subst hs
  unfold rtwTkipDecrypt
  cases rtwGetStainfo a f.attrib.ta with
  | none => simp
  | some s =>
      dsimp only [Option.map_some]
      by_cases hg : GroupKey a f
      · rw [if_neg (fun hc => not_groupKey.mp hc hg)]
        by_cases hl : decryptLength f < 0
        · rw [if_pos hl]
          constructor
          · intro h
            cases h
          · rintro ⟨s', -, -, hl', -⟩
            omega
        · rw [if_neg hl]
          constructor
          · intro h
            obtain ⟨rfl, hi⟩ := Prod.mk.inj (Outcome.done.inj h)
            exact ⟨s, rfl, hg, by omega, rfl, hi⟩
          · rintro ⟨s', hs', -, -, rfl, hi⟩
            cases hs'
            exact congrArg Outcome.done (Prod.ext rfl hi)
      · rw [if_pos (not_groupKey.mpr hg)]
        constructor
        · intro h
          exact absurd (Prod.mk.inj (Outcome.done.inj h)).2 (by simp)
        · rintro ⟨s', -, hg', -⟩
          exact absurd hg' hg

theorem rtwAesDecrypt_iff {sec : SecurityPriv} (hs : sec = { a.sec with hwDecrypted := false }) :
    (∃ m, rtwAesDecrypt aes sec ((rtwGetStainfo a f.attrib.ta).map a.sta) a.message f =
        .done (g, m, true)) ↔
      ∃ s, rtwGetStainfo a f.attrib.ta = some s ∧ GroupKey a f ∧
        (f.attrib.ra.isMcast = true → a.sec.dot118021XGrpKeyid = f.attrib.keyIndex) ∧
        8 ≤ decryptLength f ∧
        Ccmp.adjustHdrlen (f.buf.shift f.rxData) f.attrib.hdrlen + (decryptLength f).toNat + 8
          ≤ maxMsgSize ∧
        let r := Ccmp.aesDecipher aes (rxKey a.sec (a.sta s) f) a.message f.attrib.hdrlen
          (f.buf.shift f.rxData) (decryptLength f).toNat
        r.ok = true ∧ g = { f with buf := f.buf.onFrom f.rxData fun _ => r.pframe } := by
  subst hs
  unfold rtwAesDecrypt
  cases rtwGetStainfo a f.attrib.ta with
  | none => simp
  | some s =>
      dsimp only [Option.map_some]
      -- a group frame needs a key, then its number has to be the one that is set,
      -- and then the length has to leave something
      by_cases hg : GroupKey a f
      · rw [if_neg (fun hc => not_groupKey.mp hc hg)]
        by_cases hid : f.attrib.ra.isMcast = true → a.sec.dot118021XGrpKeyid = f.attrib.keyIndex
        · rw [if_neg (by
            rw [Bool.and_eq_true, bne_iff_ne]
            exact fun hc => hc.2 (hid hc.1))]
          by_cases hl : decryptLength f < 8
          · rw [if_pos hl]
            constructor
            · rintro ⟨m, h⟩
              cases h
            · rintro ⟨s', -, -, -, hl', -⟩
              omega
          · rw [if_neg hl]
            split
            · rename_i hmax
              constructor
              · rintro ⟨m, h⟩
                cases h
              · rintro ⟨s', -, -, -, -, hmax', -⟩
                omega
            · rename_i hmax
              have hkey : rxKey { a.sec with hwDecrypted := false } (a.sta s) f =
                  rxKey a.sec (a.sta s) f := rfl
              rw [hkey]
              constructor
              · rintro ⟨m, h⟩
                -- the result is that of the cipher
                obtain ⟨hfr, hrest⟩ := Prod.mk.inj (Outcome.done.inj h)
                exact ⟨s, rfl, hg, hid, by omega, by omega, (Prod.mk.inj hrest).2, hfr.symm⟩
              · rintro ⟨s', hs', -, -, -, -, hr⟩
                cases hs'
                generalize Ccmp.aesDecipher aes (rxKey a.sec (a.sta s) f) a.message
                  f.attrib.hdrlen (f.buf.shift f.rxData) (decryptLength f).toNat = r at hr ⊢
                refine ⟨r.message, ?_⟩
                rw [hr.1, hr.2]
        · rw [if_pos (by
            rw [Bool.and_eq_true, bne_iff_ne]
            exact Classical.not_imp.mp hid)]
          constructor
          · rintro ⟨m, h⟩
            exact absurd (Prod.mk.inj (Prod.mk.inj (Outcome.done.inj h)).2).2 (by simp)
          · rintro ⟨s', -, -, hid', -⟩
            exact absurd hid' hid
      · rw [if_pos (not_groupKey.mpr hg)]
        constructor
        · rintro ⟨m, h⟩
          exact absurd (Prod.mk.inj (Prod.mk.inj (Outcome.done.inj h)).2).2 (by simp)
        · rintro ⟨s', -, hg', -⟩
          exact absurd hg' hg

theorem rtwWepDecrypt_iff {sec : SecurityPriv} (hs : sec = { a.sec with hwDecrypted := false }) :
    rtwWepDecrypt sec f = .done g ↔
      0 ≤ decryptLength f ∧ g = rc4Open (rxWepKey a.sec f) f (decryptLength f).toNat := by
  subst hs
  unfold rtwWepDecrypt
  dsimp only
  split
  · rename_i hl
    constructor
    · intro h
      cases h
    · rintro ⟨hl', -⟩
      omega
  · rename_i hl
    constructor
    · intro h
      exact ⟨by omega, (Outcome.done.inj h).symm⟩
    · rintro ⟨-, rfl⟩
      rfl

/-- **The `switch` of `decryptor`**, cipher by cipher. -/
theorem swDecryptSwitch_iff {sec : SecurityPriv} (hs : sec = { a.sec with hwDecrypted := false }) :
    (∃ m, swDecryptSwitch aes sec ((rtwGetStainfo a f.attrib.ta).map a.sta) a.message f =
      .done (g, m, true)) ↔ Deciphers aes a f g := by
  unfold swDecryptSwitch Deciphers
  cases f.attrib.encrypt with
  | wep40 | wep104 =>
      dsimp only
      rw [← rtwWepDecrypt_iff hs]
      cases rtwWepDecrypt sec f with
      | overrun => simp
      | hangs => simp
      | done k => simp
  | tkip =>
      dsimp only
      rw [← rtwTkipDecrypt_iff hs]
      cases rtwTkipDecrypt sec ((rtwGetStainfo a f.attrib.ta).map a.sta) f with
      | overrun => simp
      | hangs => simp
      | done r => simp [Prod.ext_iff]
  | aes => exact rtwAesDecrypt_iff hs
  | _ => simp [eq_comm]

/-- **`decryptor` gives a frame back** when it opens, and that one. -/
theorem decryptor_iff :
    (∃ d, decryptor aes a.sec ((rtwGetStainfo a f.attrib.ta).map a.sta) a.message f = .done d ∧
      d.frame = some g) ↔ Opens aes a f g := by
  have hta : (readKeyIndex f).attrib.ta = f.attrib.ta := by
    unfold readKeyIndex
    split <;> rfl
  unfold decryptor Opens
  rw [← hta]
  dsimp only
  generalize readKeyIndex f = k
  by_cases hsw : swDecrypts a.sec k = true
  · simp only [hsw, if_true, ← swDecryptSwitch_iff rfl]
    rcases swDecryptSwitch aes { a.sec with hwDecrypted := false }
      ((rtwGetStainfo a k.attrib.ta).map a.sta) a.message k with _ | _ | ⟨h, m, ok⟩
    · simp
    · simp
    · cases ok with
      | false => simp
      | true => simp [eq_comm]
  · rw [if_neg hsw]
    constructor
    · rintro ⟨d, hd, hframe⟩
      obtain rfl := Outcome.done.inj hd
      exact ⟨k, by rw [if_neg hsw], (Option.some.inj hframe).symm⟩
    · rintro ⟨h, hh, rfl⟩
      rw [if_neg hsw] at hh
      subst hh
      exact ⟨_, rfl, rfl⟩

end

/-! ## Fragments -/

/-- The fragments of `q` behind `f`, one after the other. -/
def joinAll (f : RecvFrame) (q : List RecvFrame) : RecvFrame :=
  q.foldl (fun f g => (joinFragment f g).joined) f

/-- Each of them fits in the buffer of `f`. -/
def JoinsFit : RecvFrame → List RecvFrame → Prop
  | _, [] => True
  | f, g :: q => (joinFragment f g).InBounds ∧ JoinsFit (joinFragment f g).joined q

/-- With the fragments `q` waiting, `g` completes the MSDU `m`, and the frames `gone` have
done their work: `g` is no fragment, or it is the last one, the numbers are `0, 1, .., n`, and
the buffer of the first fragment holds them all. -/
inductive Completes : Option (List RecvFrame) → RecvFrame → RecvFrame → List RecvFrame → Prop where
  | whole {q : Option (List RecvFrame)} {g : RecvFrame} (hm : g.attrib.mfrag = false)
      (h0 : g.attrib.fragNum = 0) : Completes q g g []
  | last {x g : RecvFrame} {q : List RecvFrame} (hm : g.attrib.mfrag = false)
      (h0 : g.attrib.fragNum ≠ 0)
      (hnum : (x :: (q ++ [g])).map (·.attrib.fragNum) = List.range (q.length + 2))
      (hfit : JoinsFit x (q ++ [g])) :
      Completes (some (x :: q)) g (joinAll x (q ++ [g])) (q ++ [g])

/-- The station whose `defrag_q` the frame belongs to. -/
def defragSlot (a : Adapter) (g : RecvFrame) : Option StaSlot :=
  match rtwGetStainfo a g.attrib.ta with
  | some s => some s
  | none => if Wifi.getFrameType g.buf g.rxData = .data then none else rtwGetBcmcStainfo a

/-- The fragments that wait there. -/
def waiting (a : Adapter) (g : RecvFrame) : Option (List RecvFrame) :=
  (defragSlot a g).map fun s => (a.sta s).defragQ

/-- The loop of `recvframe_defrag` ends with a frame, inside its buffer, when the numbers go
on from `cur` and the fragments fit. -/
theorem defragLoop_iff : ∀ (q : List RecvFrame) (f out : RecvFrame) (cur : Nat),
    ((defragLoop f cur q).1 = some out ∧ ∀ s ∈ (defragLoop f cur q).2, s.InBounds) ↔
      q.map (·.attrib.fragNum) = List.range' cur q.length ∧ JoinsFit f q ∧ out = joinAll f q
  | [], f, out, cur => by simp [defragLoop, JoinsFit, joinAll, eq_comm]
  | g :: q, f, out, cur => by
      have ih := defragLoop_iff q (joinFragment f g).joined out (cur + 1)
      have hjoin : joinAll f (g :: q) = joinAll (joinFragment f g).joined q := rfl
      rw [hjoin, List.map_cons, List.length_cons, List.range'_succ, List.cons.injEq, defragLoop,
        JoinsFit]
      by_cases hcur : cur = g.attrib.fragNum
      · rw [if_neg (by simp [hcur])]
        simp only [List.mem_cons, forall_eq_or_imp]
        constructor
        · rintro ⟨hout, hb, hrest⟩
          obtain ⟨hnum, hfit, heq⟩ := ih.mp ⟨hout, hrest⟩
          exact ⟨⟨hcur.symm, hnum⟩, ⟨hb, hfit⟩, heq⟩
        · rintro ⟨⟨-, hnum⟩, ⟨hb, hfit⟩, heq⟩
          obtain ⟨hout, hrest⟩ := ih.mpr ⟨hnum, hfit, heq⟩
          exact ⟨hout, hb, hrest⟩
      · rw [if_pos (by simpa using hcur)]
        constructor
        · rintro ⟨h, -⟩
          cases h
        · rintro ⟨⟨h, -⟩, -⟩
          exact absurd h.symm hcur

/-- The last fragment of a queue whose numbers are right. -/
theorem chkDefragQueue_joined {x g m : RecvFrame} {q : List RecvFrame}
    (hm : g.attrib.mfrag = false) (h0 : g.attrib.fragNum ≠ 0) (hx : x.attrib.fragNum = 0)
    (hloop : (defragLoop x 1 (q ++ [g])).1 = some m) :
    chkDefragQueue (some (x :: q)) g =
      ⟨some [], some m, q ++ [g], (defragLoop x 1 (q ++ [g])).2⟩ := by
  unfold chkDefragQueue
  rw [if_neg (by simp [hm, h0])]
  simp only [hm, Bool.false_eq_true, if_false, List.cons_append]
  rw [recvframeDefrag, if_neg (by simp [hx])]
  rcases hd : defragLoop x 1 (q ++ [g]) with ⟨o, steps⟩
  rw [hd] at hloop
  subst hloop
  rfl

/-- **`recvframe_chk_defrag` up to the MIC check**: the frame it goes on with, the frames it
frees, and that its copies stay inside. -/
theorem chkDefragQueue_iff {q : Option (List RecvFrame)} {g m : RecvFrame} {gone : List RecvFrame} :
    ((chkDefragQueue q g).frame = some m ∧ (chkDefragQueue q g).freed = gone ∧
      ∀ s ∈ (chkDefragQueue q g).steps, s.InBounds) ↔ Completes q g m gone := by
  cases hm : g.attrib.mfrag with
  | true =>
      -- more fragments follow: nothing comes out
      rw [chkDefragQueue_more hm]
      constructor
      · rintro ⟨h, -⟩
        cases h
      · intro h
        cases h with
        | whole hm' => exact absurd hm' (by rw [hm]; simp)
        | last hm' => exact absurd hm' (by rw [hm]; simp)
  | false =>
      by_cases h0 : g.attrib.fragNum = 0
      -- not fragmented at all
      · have hwhole : chkDefragQueue q g = { queue := q, frame := some g } := by
          unfold chkDefragQueue
          rw [if_pos (by simp [hm, h0])]
        rw [hwhole]
        constructor
        · rintro ⟨h, rfl, -⟩
          cases h
          exact Completes.whole hm h0
        · intro h
          cases h with
          | whole => exact ⟨rfl, rfl, fun s hs => absurd hs List.not_mem_nil⟩
          | last _ h0' => exact absurd h0 h0'
      · -- the last fragment: what is queued must start with number 0
        constructor
        · rintro ⟨hframe, hfreed, hsteps⟩
          obtain ⟨x, rest, rfl, hx0, hloop⟩ := (chkDefragQueue_last hm h0).mp hframe
          rw [chkDefragQueue_joined hm h0 hx0 hloop] at hfreed hsteps
          obtain ⟨hnum, hfit, rfl⟩ := (defragLoop_iff _ _ _ _).mp ⟨hloop, hsteps⟩
          subst hfreed
          refine Completes.last hm h0 ?_ hfit
          rw [List.map_cons, hnum, hx0, List.length_append, List.length_singleton,
            List.range_eq_range']
          rfl
        · intro h
          cases h with
          | whole _ h0' => exact absurd h0' h0
          | @last x _ rest _ _ hnum hfit =>
              rw [List.map_cons, List.range_eq_range', List.range'_succ, List.cons.injEq] at hnum
              obtain ⟨hloop, hsteps⟩ := (defragLoop_iff (rest ++ [g]) x _ 1).mpr
                ⟨by rw [hnum.2, List.length_append, List.length_singleton], hfit, rfl⟩
              rw [chkDefragQueue_joined hm h0 hnum.1 hloop]
              exact ⟨rfl, rfl, hsteps⟩

/-! ## The TKIP MIC -/

/-- A TKIP frame of a known station has the MIC of its payload behind it, by a key that is
installed. -/
def TkipMicRight (a : Adapter) (m : RecvFrame) : Prop :=
  m.attrib.encrypt = .tkip → ∀ s ∈ rtwGetStainfo a m.attrib.ta,
    GroupKey a m ∧ (0 ≤ micDatalen m →
      m.buf.read (payloadAt m + (micDatalen m).toNat) 8 =
        rtwSeccalctkipmic (rxMicKey a.sec (a.sta s) m).skey m.buf m.rxData (payloadAt m)
          (micDatalen m).toNat (UInt8.ofNat m.attrib.priority))

instance (a : Adapter) (m : RecvFrame) : Decidable (TkipMicRight a m) :=
  inferInstanceAs (Decidable (_ → ∀ s ∈ rtwGetStainfo a m.attrib.ta, _ ∧ (_ → _)))

/-- There is room for a MIC. -/
def TkipMicThere (a : Adapter) (m : RecvFrame) : Prop :=
  m.attrib.encrypt = .tkip → (rtwGetStainfo a m.attrib.ta).isSome = true → 0 ≤ micDatalen m

/-- `m` without its MIC. -/
def cutMic (m : RecvFrame) : RecvFrame :=
  if m.attrib.encrypt = .tkip then (m.pullTail 8).1 else m

/-- The MSDU `m` goes on as `k`. -/
def MicPasses (a : Adapter) (m k : RecvFrame) : Prop :=
  if m.attrib.privacy = true then TkipMicRight a m ∧ TkipMicThere a m ∧ k = cutMic m else k = m

section

variable {a b : Adapter} {m k : RecvFrame}

theorem recvframeChkmic_iff :
    recvframeChkmic a m = .done (k, true) ↔ TkipMicRight a m ∧ TkipMicThere a m ∧ k = cutMic m := by
  unfold recvframeChkmic TkipMicRight TkipMicThere cutMic
  by_cases he : m.attrib.encrypt = .tkip
  · rw [if_neg (not_not.mpr he), if_pos he]
    cases hs : rtwGetStainfo a m.attrib.ta with
    | none => simp [eq_comm]
    | some s =>
        dsimp only
        by_cases hg : GroupKey a m
        · rw [if_neg (fun hc => not_groupKey.mp hc hg)]
          by_cases hl : micDatalen m < 0
          · rw [if_pos hl]
            constructor
            · intro h
              cases h
            · rintro ⟨-, hl', -⟩
              have := hl' he rfl
              omega
          · rw [if_neg hl]
            constructor
            · intro h
              obtain ⟨rfl, hmic⟩ := Prod.mk.inj (Outcome.done.inj h)
              refine ⟨fun _ s' hs' => ?_, fun _ _ => by omega, rfl⟩
              cases hs'
              exact ⟨hg, fun _ => by simpa using hmic⟩
            · rintro ⟨hmic, -, rfl⟩
              have hm := (hmic he s rfl).2 (by omega)
              rw [hm]
              simp
        · rw [if_pos (not_groupKey.mpr hg)]
          constructor
          · intro h
            exact absurd (Prod.mk.inj (Outcome.done.inj h)).2 (by simp)
          · rintro ⟨hmic, -⟩
            exact absurd (hmic he s rfl).1 hg
  · rw [if_pos he, if_neg he]
    constructor
    · intro h
      exact ⟨fun he' => absurd he' he, fun he' => absurd he' he,
        (Prod.mk.inj (Outcome.done.inj h)).1.symm⟩
    · rintro ⟨-, -, rfl⟩
      rfl

/-- A wrong MIC is told. -/
theorem tkipMicRight_of_chkmic {ok : Bool} (h : recvframeChkmic a m = .done (k, ok))
    (hm : TkipMicRight a m) : ok = true := by
  unfold recvframeChkmic at h
  unfold TkipMicRight at hm
  split at h
  · exact (Prod.mk.inj (Outcome.done.inj h)).2.symm
  · rename_i he
    split at h
    · exact (Prod.mk.inj (Outcome.done.inj h)).2.symm
    · rename_i s hs
      obtain ⟨hg, hmic⟩ := hm (not_not.mp he) s hs
      rw [if_neg (fun hc => not_groupKey.mp hc hg)] at h
      split at h
      · cases h
      · rename_i hl
        rw [← (Prod.mk.inj (Outcome.done.inj h)).2, hmic (by omega)]
        simp

theorem chkDefragMic_iff {x : Option RecvFrame} :
    chkDefragMic a x = .done (b, some k) ↔ ∃ m, x = some m ∧ MicPasses a m k ∧ b = a := by
  unfold chkDefragMic
  cases x with
  | none =>
      constructor
      · intro h
        exact absurd (Prod.mk.inj (Outcome.done.inj h)).2 (by simp)
      · rintro ⟨m, hm, -⟩
        cases hm
  | some m =>
      have hsome : (∃ m', some m = some m' ∧ MicPasses a m' k ∧ b = a) ↔
          MicPasses a m k ∧ b = a :=
        ⟨fun ⟨m', hm', h⟩ => by cases hm'; exact h, fun h => ⟨m, rfl, h⟩⟩
      rw [hsome]
      dsimp only
      unfold MicPasses
      cases hp : m.attrib.privacy with
      | false =>
          rw [if_pos (by simp), if_neg (by simp)]
          constructor
          · intro h
            obtain ⟨rfl, hk⟩ := Prod.mk.inj (Outcome.done.inj h)
            exact ⟨(Option.some.inj hk).symm, rfl⟩
          · rintro ⟨rfl, rfl⟩
            rfl
      | true =>
          rw [if_neg (by simp), if_pos rfl, ← recvframeChkmic_iff]
          constructor
          · intro h
            obtain ⟨⟨g, ok⟩, hmic, h⟩ := Outcome.bind_eq_done.mp h
            cases ok with
            | false => exact absurd (Prod.mk.inj (Outcome.done.inj h)).2 (by simp)
            | true =>
                obtain ⟨rfl, hk⟩ := Prod.mk.inj (Outcome.done.inj h)
                cases hk
                exact ⟨hmic, rfl⟩
          · rintro ⟨hmic, rfl⟩
            rw [hmic]
            rfl

end

/-! ## Port control -/

/-- The port of the frame's station is open, or the two bytes are those of EAPOL. -/
def PortLets (a : Adapter) (k : RecvFrame) : Prop :=
  portBlocked a k = true → k.buf.be16 (payloadAt k + llcHeaderSize) = eapolType

theorem portctrl_iff {a : Adapter} {k : RecvFrame} :
    portctrl a k = (a, some k) ↔ PortLets a k := by
  unfold portctrl PortLets
  split
  · rename_i hb
    rw [Bool.and_eq_true, bne_iff_ne] at hb
    constructor
    · intro h
      exact absurd (Prod.mk.inj h).2 (by simp)
    · intro h
      exact absurd (h hb.1) hb.2
  · rename_i hb
    rw [Bool.and_eq_true, bne_iff_ne, not_and, not_not] at hb
    exact ⟨fun _ => hb, fun _ => rfl⟩

/-! ## The frame that is let through -/

/-- Handling `f` in the state `a` comes to the frame `k` behind port control, and is done with
the frames `gone`. -/
inductive LetThrough (aes : AesKey → BlockMode.Block → BlockMode.Block) (a : Adapter)
    (f k : RecvFrame) (gone : List RecvFrame) : Prop where
  | intro (g m : RecvFrame) (opens : Opens aes a f g)
      (completes : Completes (waiting a g) g m gone) (mic : MicPasses a m k) (port : PortLets a k)

/-- The driver without these frames in its queues. -/
def Adapter.without (a : Adapter) (gone : List RecvFrame) : Adapter :=
  gone.foldl (fun a g => a.unlink g.id) a

theorem Adapter.without_mlme : ∀ (gone : List RecvFrame) (a : Adapter),
    (a.without gone).mlme = a.mlme ∧ (a.without gone).running = a.running
  | [], _ => ⟨rfl, rfl⟩
  | g :: gone, a => Adapter.without_mlme gone (a.unlink g.id)

/-- The reorder windows are the same. -/
def SameWindows (a b : Adapter) : Prop :=
  ∀ s t, (b.sta s).recvreorderCtrl t = (a.sta s).recvreorderCtrl t

section

variable {aes : AesKey → BlockMode.Block → BlockMode.Block} {a b : Adapter} {f g m k : RecvFrame}

theorem SameConfig.groupKey (h : SameConfig a b) : GroupKey b m ↔ GroupKey a m := by
  unfold GroupKey
  rw [h.sec]

theorem SameConfig.micPasses (h : SameConfig a b) : MicPasses b m k ↔ MicPasses a m k := by
  have hkey : ∀ s, rxMicKey b.sec (b.sta s) m = rxMicKey a.sec (a.sta s) m := by
    intro s
    unfold rxMicKey
    rw [h.sec, h.sta s]
  unfold MicPasses TkipMicRight TkipMicThere
  simp only [h.getStainfo, h.groupKey, hkey]

theorem SameConfig.portLets (h : SameConfig a b) : PortLets b k ↔ PortLets a k := by
  unfold PortLets
  rw [h.portBlocked]

theorem sameConfig_writeDefragQ (a : Adapter) (slot : Option StaSlot) (g : RecvFrame) :
    SameConfig a (writeDefragQ a slot g) := by
  unfold writeDefragQ
  split
  · exact sameConfig_updDefrag a _ _
  · exact SameConfig.refl a

theorem sameWindows_writeDefragQ (a : Adapter) (slot : Option StaSlot) (g : RecvFrame) :
    SameWindows a (writeDefragQ a slot g) := by
  unfold writeDefragQ
  split
  · intro s t
    unfold Adapter.updSta
    dsimp only
    split <;> rfl
  · intro s t
    rfl

/-- Freed frames leave the windows. -/
theorem sameWindows_freeQueue : ∀ (gone : List RecvFrame) {a b : Adapter}, SameWindows a b →
    SameWindows (a.without gone) (rtwFreeRecvframeQueue b gone)
  | [], _, _, h => h
  | g :: gone, a, b, h => by
      have hone : SameWindows (a.unlink g.id) (rtwFreeRecvframe b g) := by
        intro s t
        show ({ (b.sta s).recvreorderCtrl t with pendingRecvframeQueue := _ } : RecvReorderCtrl) = _
        rw [h s t]
        rfl
      exact sameWindows_freeQueue gone hone

/-- The slot is the one that is looked up, unless a fragment has nowhere to go. -/
theorem recvframeChkDefrag_eq (a : Adapter) (g : RecvFrame) :
    recvframeChkDefrag a g = chkDefragIn a (defragSlot a g) g
      ∨ (recvframeChkDefrag a g = .overrun ∧ waiting a g = none
        ∧ ¬ (g.attrib.mfrag = false ∧ g.attrib.fragNum = 0)) := by
  unfold recvframeChkDefrag waiting defragSlot
  cases rtwGetStainfo a g.attrib.ta with
  | some s => exact Or.inl rfl
  | none =>
      dsimp only
      split
      · exact Or.inl rfl
      · cases rtwGetBcmcStainfo a with
        | some s => exact Or.inl rfl
        | none =>
            dsimp only
            split
            · exact Or.inl rfl
            · rename_i h
              refine Or.inr ⟨rfl, rfl, ?_⟩
              simpa using h

/-- **`recvframe_chk_defrag` gives a frame back** when one is completed and its MIC passes. -/
theorem recvframeChkDefrag_iff :
    recvframeChkDefrag a g = .done (b, some k) ↔
      ∃ m gone, Completes (waiting a g) g m gone ∧ MicPasses a m k
        ∧ b = rtwFreeRecvframeQueue (writeDefragQ a (defragSlot a g) g) gone := by
  have hcfg : ∀ gone, SameConfig a
      (rtwFreeRecvframeQueue (writeDefragQ a (defragSlot a g) g) gone) := fun gone =>
    (sameConfig_writeDefragQ a _ g).trans (sameConfig_freeQueue gone _)
  have hin : chkDefragIn a (defragSlot a g) g =
      if (chkDefragQueue (waiting a g) g).steps.all fun s => s.InBounds then
        chkDefragMic (rtwFreeRecvframeQueue (writeDefragQ a (defragSlot a g) g)
          (chkDefragQueue (waiting a g) g).freed) (chkDefragQueue (waiting a g) g).frame
      else .overrun := rfl
  rcases recvframeChkDefrag_eq a g with heq | ⟨heq, hnone, hfrag⟩
  · rw [heq, hin]
    constructor
    · intro h
      split at h
      · rename_i hsteps
        obtain ⟨m, hframe, hmic, rfl⟩ := chkDefragMic_iff.mp h
        refine ⟨m, _, chkDefragQueue_iff.mp ⟨hframe, rfl, ?_⟩, (hcfg _).micPasses.mp hmic, rfl⟩
        intro s hs
        exact of_decide_eq_true (List.all_eq_true.mp hsteps s hs)
      · cases h
    · rintro ⟨m, gone, hcomp, hmic, rfl⟩
      obtain ⟨hframe, rfl, hsteps⟩ := chkDefragQueue_iff.mpr hcomp
      rw [if_pos (List.all_eq_true.mpr fun s hs => decide_eq_true (hsteps s hs))]
      exact chkDefragMic_iff.mpr ⟨m, hframe, (hcfg _).micPasses.mpr hmic, rfl⟩
  · -- a fragment without a queue completes nothing
    rw [heq, hnone]
    constructor
    · intro h
      cases h
    · rintro ⟨m, gone, hcomp, -⟩
      cases hcomp with
      | whole hm h0 => exact absurd ⟨hm, h0⟩ hfrag

/-- **What `recv_func_posthandle` comes to behind port control** is let through, and the
windows have lost the frames that are done with. -/
theorem letThrough_of_posthandle (h : posthandleFrame aes a f = .done (b, .inl k)) :
    ∃ gone, LetThrough aes a f k gone ∧ SameWindows (a.without gone) b := by
  have hb := sameConfig_posthandleFrame h
  obtain ⟨d, hd, hcfg, ⟨g, -, -, hx, -⟩ | ⟨g, c, r, hframe, -, hchk, hrest⟩⟩ :=
    posthandleFrame_cases h
  · cases hx
  · rcases hrest with ⟨-, hx, -⟩ | ⟨k', rfl, ⟨-, hx, -⟩ | ⟨hport, hx, rfl⟩⟩
    · cases hx
    · cases hx
    · obtain rfl := Sum.inl.inj hx
      obtain ⟨m, gone, hcomp, hmic, rfl⟩ := recvframeChkDefrag_iff.mp hchk
      refine ⟨gone, ⟨g, m, decryptor_iff.mp ⟨d, hd, hframe⟩, hcomp, hcfg.micPasses.mp hmic,
        hb.portLets.mp (portctrl_iff.mp hport)⟩, ?_⟩
      exact sameWindows_freeQueue gone fun s t => sameWindows_writeDefragQ _ _ g s t

/-- **And what is let through is what it comes to.** -/
theorem LetThrough.posthandle {gone : List RecvFrame} (h : LetThrough aes a f k gone) :
    ∃ b, posthandleFrame aes a f = .done (b, .inl k) ∧ SameWindows (a.without gone) b := by
  obtain ⟨g, m, hopens, hcomp, hmic, hport⟩ := h
  obtain ⟨d, hd, hframe⟩ := decryptor_iff.mpr hopens
  obtain ⟨hsec, -⟩ := decryptor_cases hd
  have hcfg : SameConfig a { a with sec := d.sec, message := d.message } :=
    ⟨rfl, hsec, rfl, rfl, rfl, rfl, rfl, rfl, rfl, fun _ => rfl⟩
  have hchk := recvframeChkDefrag_iff (a := { a with sec := d.sec, message := d.message }).mpr
    ⟨m, gone, hcomp, hcfg.micPasses.mpr hmic, rfl⟩
  have hb := hcfg.trans (sameConfig_chkDefrag hchk)
  refine ⟨rtwFreeRecvframeQueue (writeDefragQ { a with sec := d.sec, message := d.message }
      (defragSlot a g) g) gone, ?_,
    sameWindows_freeQueue gone fun s t => sameWindows_writeDefragQ
      { a with sec := d.sec, message := d.message } (defragSlot a g) g s t⟩
  unfold posthandleFrame
  dsimp only
  rw [hd, Outcome.done_bind, hframe]
  dsimp only
  rw [hchk, Outcome.done_bind]
  dsimp only
  have hlets := portctrl_iff.mpr (hb.portLets.mpr hport)
  rw [hlets]
  rfl

end

end Rtl8812au
