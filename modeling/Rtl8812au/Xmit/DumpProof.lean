import Mathlib.Data.List.Forall2
import Rtl8812au.Xmit.Dump
import Rtl8812au.Xmit.CoalesceProof

/-!
# Are the fragments that are sent the fragments that were laid out?

`rtw_xmitframe_coalesce` cuts an MSDU into fragments whose payloads, one behind the other, are the
LLC header and the MSDU. `rtw_dump_xframe` looks for them again. The first one it always finds.
From the second one on it needs two things: it must take nothing off for the ICV, since the layout
has `frag_len - 4` bytes with or without one; and it must pull the descriptor, since otherwise
`buf_addr` stays at an earlier fragment. It pulls when the transfer does not end on a bulk boundary.
-/

namespace Rtl8812au

/-! ## The layout -/

/-- The bytes of a fragment from its header to its ICV. -/
def Fragment.mpduSz (a : PktAttrib) (f : Fragment) : Nat :=
  a.hdrlen + a.ivLen + f.llcSz + f.memSz + icvRoom a

/-- The LLC header and the data of a fragment. -/
def Fragment.payload (a : PktAttrib) (m : Mem) (f : Fragment) : List UInt8 :=
  m.read (f.memStart + a.hdrlen + a.ivLen) (f.llcSz + f.memSz)

/-- Fragments one behind the other: all but the last have `frag_len - 4` bytes, and each starts at
the next multiple of four and `offset`. Only the first has an LLC header. -/
inductive Laid (fragLen : Nat) (a : PktAttrib) (offset : Nat) : Nat → Nat → List Fragment → Prop where
  | last {f : Fragment} : f.mpduSz a + 4 ≤ fragLen → Laid fragLen a offset f.llcSz f.memStart [f]
  | more {f : Fragment} {rest : List Fragment} : f.mpduSz a + 4 = fragLen →
      Laid fragLen a offset 0 (rnd4 (f.memStart + f.mpduSz a) + offset) rest →
      Laid fragLen a offset f.llcSz f.memStart (f :: rest)

/-- The lengths that go with a cipher are small. -/
structure PktAttrib.Small (a : PktAttrib) : Prop where
  ivLen : a.ivLen ≤ 18
  icvLen : a.icvLen ≤ 16

theorem PktAttrib.Secured.small {a : PktAttrib} (h : a.Secured) : a.Small := by
  have h1 := h.ivLen
  have h2 := h.icvLen
  have hiv : ∀ c : Cipher, c.ivLen ≤ 18 := by intro c; cases c <;> decide
  have hicv : ∀ c : Cipher, c.icvLen ≤ 16 := by intro c; cases c <;> decide
  exact ⟨h1 ▸ hiv _, h2 ▸ hicv _⟩

theorem rnd4_ge (x : Nat) : x ≤ rnd4 x := by
  unfold rnd4
  split
  · omega
  · omega

section

variable {a : PktAttrib} {memStart : Nat} {snap data : List UInt8} {m : Mem}

/-- A turn writes nothing in front of its fragment. -/
theorem layFragment_below {k : Nat} (h : k < memStart) :
    layFragment a memStart snap data m k = m k := by
  unfold layFragment setMFrag orLe16
  rw [Mem.write_of_lt (by omega), Mem.write_of_lt (by omega), Mem.write_of_lt (by omega),
    Mem.write_of_lt (by omega), Mem.write_of_lt h]

/-- The payload of a turn. -/
theorem read_layFragment :
    (layFragment a memStart snap data m).read (memStart + a.hdrlen + a.ivLen)
      (snap.length + data.length) = snap ++ data := by
  unfold layFragment
  dsimp only
  rw [Mem.read_write_disjoint (Or.inl (by omega)), Mem.read_write_append _ rfl, Mem.read_write_self]

end

theorem hdrlen_le (a : PktAttrib) : a.hdrlen ≤ 26 := by
  rcases a.hdr with ⟨-, h⟩ | ⟨-, h⟩
  · omega
  · omega

section

variable {fragLen : Nat} {a : PktAttrib} {offset hdr0 : Nat}

/-- What a unicast fragment has room for. -/
theorem readLen_eq (hfrag : 256 ≤ fragLen) (hlt : fragLen < 2 ^ 31) (hra : a.ra.isMcast = false)
    (hs : a.Small) {llcSz : Nat} (hllc : llcSz ≤ 8) :
    a.hdrlen + a.ivLen + llcSz + readLen fragLen a llcSz + icvRoom a + 4 = fragLen
      ∧ 0 < readLen fragLen a llcSz := by
  have h1 := hs.ivLen
  have h2 := hs.icvLen
  have h3 := hdrlen_le a
  have h4 : icvRoom a ≤ a.icvLen := by
    unfold icvRoom
    split
    · exact Nat.le_refl _
    · exact Nat.zero_le _
  unfold readLen mpduLen
  rw [if_neg (by simp [hra]), toU32_of_nonneg (by omega) (by omega)]
  omega

/-- The LLC header of a turn. -/
def snapOf (a : PktAttrib) (frgInx : Nat) : List UInt8 :=
  if frgInx = 0 then rtwPutSnap a.etherType else []

theorem length_snapOf (a : PktAttrib) (frgInx : Nat) : (snapOf a frgInx).length ≤ 8 := by
  unfold snapOf
  split
  · exact Nat.le_refl 8
  · exact Nat.zero_le 8

/-- **The loop lays the packet out**, and leaves what is in front of it. -/
theorem coalesceLoop_laid (hfrag : 256 ≤ fragLen) (hlt : fragLen < 2 ^ 31)
    (hra : a.ra.isMcast = false) (hs : a.Small) :
    ∀ (fuel frgInx memStart : Nat) (pkt : List UInt8) (m : Mem), pkt.length < fuel →
      ∃ m' frags, coalesceLoop fragLen a offset hdr0 fuel frgInx memStart pkt m = some (m', frags)
        ∧ Laid fragLen a offset (snapOf a frgInx).length memStart frags
        ∧ (∀ k < memStart, m' k = m k)
        ∧ frags.flatMap (·.payload a m') = snapOf a frgInx ++ pkt := by
  intro fuel
  induction fuel with
  | zero =>
      intro frgInx memStart pkt m hfuel
      omega
  | succ fuel ih =>
      intro frgInx memStart pkt m hfuel
      obtain ⟨hroom, hpos⟩ := readLen_eq hfrag hlt hra hs (length_snapOf a frgInx)
      have hsnap : (if frgInx = 0 then rtwPutSnap a.etherType else []) = snapOf a frgInx := rfl
      rw [coalesceLoop]
      dsimp only
      rw [hra, Bool.false_or, hsnap]
      by_cases hlast : pkt.length ≤ readLen fragLen a (snapOf a frgInx).length
      · -- all of it fits: the loop ends here
        rw [Nat.min_eq_right hlast, List.take_length, List.drop_length, if_pos List.isEmpty_nil]
        refine ⟨_, _, rfl, ?_, ?_, ?_⟩
        · refine Laid.last (f := ⟨memStart, (snapOf a frgInx).length, pkt.length⟩) ?_
          unfold Fragment.mpduSz
          dsimp only
          omega
        · intro k hk
          unfold clearMFrag
          rw [Mem.write_of_lt hk, layFragment_below hk]
        · have hh := hdrlen_ge a
          simp only [List.flatMap_cons, List.flatMap_nil, List.append_nil, Fragment.payload]
          rw [read_clearMFrag (by omega), read_layFragment]
      · -- the fragment is full, and the rest goes behind it
        have hmin : min (readLen fragLen a (snapOf a frgInx).length) pkt.length
            = readLen fragLen a (snapOf a frgInx).length := Nat.min_eq_left (by omega)
        have hrest : ¬ (pkt.drop (readLen fragLen a (snapOf a frgInx).length)).isEmpty = true := by
          rw [List.isEmpty_iff, List.drop_eq_nil_iff]
          exact hlast
        rw [hmin, if_neg hrest]
        generalize hn : readLen fragLen a (snapOf a frgInx).length = n at hroom hpos hlast hrest ⊢
        have hdrop : (pkt.drop n).length < fuel := by
          rw [List.length_drop]
          omega
        have htake : (pkt.take n).length = n := by
          rw [List.length_take]
          omega
        obtain ⟨m', frags, hloop, hlaid, hbelow, hpay⟩ := ih (frgInx + 1)
          (rnd4 (memStart + a.hdrlen + a.ivLen + (snapOf a frgInx).length + n + icvRoom a) + offset)
          (pkt.drop n)
          ((layFragment a memStart (snapOf a frgInx) (pkt.take n) m).copy
            (rnd4 (memStart + a.hdrlen + a.ivLen + (snapOf a frgInx).length + n + icvRoom a) + offset)
            (layFragment a memStart (snapOf a frgInx) (pkt.take n) m) hdr0 a.hdrlen) hdrop
        have hge := rnd4_ge (memStart + a.hdrlen + a.ivLen + (snapOf a frgInx).length + n + icvRoom a)
        -- what the turn wrote is still there at the end
        have hkeep : ∀ k < memStart + a.hdrlen + a.ivLen + (snapOf a frgInx).length + n,
            m' k = layFragment a memStart (snapOf a frgInx) (pkt.take n) m k := by
          intro k hk
          rw [hbelow k (by omega), Mem.copy, Mem.write_of_lt (by omega)]
        have hlen : memStart + a.hdrlen + a.ivLen + (snapOf a frgInx).length + n + icvRoom a
            = memStart + (⟨memStart, (snapOf a frgInx).length, n⟩ : Fragment).mpduSz a := by
          unfold Fragment.mpduSz
          dsimp only
          omega
        rw [hloop]
        refine ⟨m', _, rfl, ?_, ?_, ?_⟩
        · have hnil : (snapOf a (frgInx + 1)).length = 0 := rfl
          rw [hnil, hlen] at hlaid
          refine Laid.more (f := ⟨memStart, (snapOf a frgInx).length, n⟩) ?_ hlaid
          unfold Fragment.mpduSz
          dsimp only
          omega
        · intro k hk
          rw [hkeep k (by omega), layFragment_below hk]
        · have hnil : snapOf a (frgInx + 1) = [] := rfl
          rw [List.flatMap_cons, hpay, hnil, List.nil_append]
          have hread : Fragment.payload a m' ⟨memStart, (snapOf a frgInx).length, n⟩
              = snapOf a frgInx ++ pkt.take n := by
            unfold Fragment.payload
            dsimp only
            have hsame : m'.read (memStart + a.hdrlen + a.ivLen) ((snapOf a frgInx).length + n)
                = (layFragment a memStart (snapOf a frgInx) (pkt.take n) m).read
                  (memStart + a.hdrlen + a.ivLen) ((snapOf a frgInx).length + n) :=
              Mem.read_congr fun i hi => hkeep _ (by omega)
            have hr := @read_layFragment a memStart (snapOf a frgInx) (pkt.take n) m
            rw [htake] at hr
            rw [hsame, hr]
          rw [hread, List.append_assoc, List.take_append_drop]

end

/-! ## What is submitted -/

/-- The MPDUs of a frame: start and length. Under TKIP the MIC is behind the last payload. -/
def mpdusOf (a : PktAttrib) : List Fragment → List (Nat × Nat)
  | [] => []
  | [f] => [(f.memStart, f.mpduSz a + if a.encrypt = .tkip then 8 else 0)]
  | f :: g :: rest => (f.memStart, f.mpduSz a) :: mpdusOf a (g :: rest)

/-- The transfer starts with the descriptor, ends with the MPDU, and the descriptor says where
that is. -/
structure Sent (p : TxPiece) (r : Nat × Nat) : Prop where
  buf : p.bufAddr = p.desc.addr
  mpdu : p.desc.mpdu = r
  size : p.bufAddr + p.wSz = r.1 + r.2

/-- `pull` for a fragment of `sz` bytes. -/
def pulls (env : TxEnv) (sz : Nat) : Bool :=
  !env.mpMode && !rtwUsbBulkSizeBoundary env.speed (txdescSize + sz)

/-- `sz` with `n` more fragments behind this one. -/
def dumpSz (fragLen : Nat) (swEncrypt : Bool) (a : PktAttrib) (n : Nat) : Nat :=
  if n ≠ 0 then fragLen - 4 - (if swEncrypt then 0 else a.icvLen) else a.lastTxcmdsz

section

variable {env : TxEnv} {fragLen : Nat} {swEncrypt : Bool} {a : PktAttrib}

theorem dumpLoop_pull {n memAddr bufAddr k : Nat}
    (h : pulls env (dumpSz fragLen swEncrypt a n) = true) :
    dumpLoop env fragLen swEncrypt a (n + 1) memAddr bufAddr k
      = ⟨memAddr + 8, dumpSz fragLen swEncrypt a n + 40,
          ⟨memAddr + 8, dumpSz fragLen swEncrypt a n % 2 ^ 16, (k - 1) % 2 ^ 5⟩⟩ ::
        dumpLoop env fragLen swEncrypt a n
          (rnd4 (memAddr + 48 + dumpSz fragLen swEncrypt a n)) (memAddr + 8) (k - 1) := by
  have hpull : (!env.mpMode && !false
      && !rtwUsbBulkSizeBoundary env.speed (txdescSize + dumpSz fragLen swEncrypt a n)) = true := by
    simpa [pulls] using h
  have hk : (if true && decide (0 < k) then k - 1 else k) = k - 1 := by
    split
    · rfl
    · rename_i hk
      simp at hk
      omega
  have hend : memAddr + 8 + (dumpSz fragLen swEncrypt a n + 40)
      = memAddr + 48 + dumpSz fragLen swEncrypt a n := by omega
  have hsz : (if n ≠ 0 then fragLen - 4 - (if swEncrypt then 0 else a.icvLen) else a.lastTxcmdsz)
      = dumpSz fragLen swEncrypt a n := rfl
  rw [dumpLoop]
  unfold updateTxdesc
  dsimp only
  rw [hsz, hpull, hk]
  simp only [if_true, txdescSize, packetOffsetSz, hend]

theorem dumpLoop_stay {n memAddr bufAddr k : Nat}
    (h : pulls env (dumpSz fragLen swEncrypt a n) = false) :
    dumpLoop env fragLen swEncrypt a (n + 1) memAddr bufAddr k
      = ⟨bufAddr, dumpSz fragLen swEncrypt a n + 48,
          ⟨memAddr, dumpSz fragLen swEncrypt a n % 2 ^ 16, k % 2 ^ 5⟩⟩ ::
        dumpLoop env fragLen swEncrypt a n
          (rnd4 (memAddr + 48 + dumpSz fragLen swEncrypt a n)) bufAddr k := by
  have hpull : (!env.mpMode && !false
      && !rtwUsbBulkSizeBoundary env.speed (txdescSize + dumpSz fragLen swEncrypt a n)) = false := by
    simpa [pulls] using h
  have hend : memAddr + (dumpSz fragLen swEncrypt a n + 40 + 8)
      = memAddr + 48 + dumpSz fragLen swEncrypt a n := by omega
  have hsz : (if n ≠ 0 then fragLen - 4 - (if swEncrypt then 0 else a.icvLen) else a.lastTxcmdsz)
      = dumpSz fragLen swEncrypt a n := rfl
  rw [dumpLoop]
  unfold updateTxdesc
  dsimp only
  rw [hsz, hpull]
  simp only [Bool.false_eq_true, if_false, Bool.false_and, txdescSize, packetOffsetSz, hend]

/-- Nothing is taken off a fragment for the ICV. -/
def NoIcvTaken (swEncrypt : Bool) (a : PktAttrib) : Prop := swEncrypt = true ∨ a.icvLen = 0

theorem dumpSz_more (hfrag : 256 ≤ fragLen) (hs : a.Small) {n : Nat} (hn : n ≠ 0) :
    dumpSz fragLen swEncrypt a n = fragLen - 4 ↔ NoIcvTaken swEncrypt a := by
  have hicv := hs.icvLen
  unfold dumpSz NoIcvTaken
  rw [if_pos hn]
  cases swEncrypt with
  | true => simp
  | false =>
      simp only [Bool.false_eq_true, if_false, false_or]
      omega

theorem sent_pull {memAddr sz len k : Nat} (hsz : sz < 2 ^ 16) (hk : k ≤ 1) :
    Sent ⟨memAddr + 8, sz + 40, ⟨memAddr + 8, sz % 2 ^ 16, (k - 1) % 2 ^ 5⟩⟩ (memAddr + 48, len)
      ↔ sz = len := by
  have hk0 : (k - 1) % 2 ^ 5 = 0 := by omega
  have hmod : sz % 2 ^ 16 = sz := Nat.mod_eq_of_lt hsz
  rw [hk0, hmod]
  constructor
  · intro h
    exact congrArg Prod.snd h.mpdu
  · intro h
    refine ⟨rfl, ?_, ?_⟩
    · rw [h]
      rfl
    · dsimp only
      omega

/-- Without a pull the descriptor is in front of its MPDU when `buf_addr` is there too. -/
theorem sent_stay {memAddr sz len : Nat} (hsz : sz < 2 ^ 16) :
    Sent ⟨memAddr, sz + 48, ⟨memAddr, sz % 2 ^ 16, 1 % 2 ^ 5⟩⟩ (memAddr + 48, len) ↔ sz = len := by
  have hmod : sz % 2 ^ 16 = sz := Nat.mod_eq_of_lt hsz
  rw [hmod]
  constructor
  · intro h
    exact congrArg Prod.snd h.mpdu
  · intro h
    refine ⟨rfl, ?_, ?_⟩
    · rw [h]
      rfl
    · dsimp only
      omega

theorem Laid.ne_nil {offset llc start : Nat} {frags : List Fragment}
    (h : Laid fragLen a offset llc start frags) : frags ≠ [] := by
  cases h with
  | last _ => exact List.cons_ne_nil _ _
  | more _ _ => exact List.cons_ne_nil _ _

/-- `last_txcmdsz` is what the last MPDU has. -/
def LastSz (a : PktAttrib) (frags : List Fragment) : Prop :=
  ∀ f, frags.getLast? = some f → a.lastTxcmdsz = f.mpduSz a + if a.encrypt = .tkip then 8 else 0

theorem LastSz.tail {f : Fragment} {rest : List Fragment} (h : LastSz a (f :: rest))
    (hne : rest ≠ []) : LastSz a rest := by
  intro g hg
  refine h g ?_
  cases rest with
  | nil => exact absurd rfl hne
  | cons g' rest => rwa [List.getLast?_cons_cons]

theorem lastTxcmdsz_lt (hmax : fragLen ≤ 2346) {f : Fragment} (hlast : LastSz a [f])
    (hsz : f.mpduSz a + 4 ≤ fragLen) : a.lastTxcmdsz < 2 ^ 16 := by
  have h := hlast f rfl
  split at h
  · omega
  · omega

theorem dumpSz_lt (hmax : fragLen ≤ 2346) {n : Nat} (hn : n ≠ 0) :
    dumpSz fragLen swEncrypt a n < 2 ^ 16 := by
  unfold dumpSz
  rw [if_pos hn]
  omega

/-- **From the second fragment on** each one has to be pulled, at its full size. -/
theorem dump_tail_iff (hfrag : 256 ≤ fragLen) (hmax : fragLen ≤ 2346) (hs : a.Small)
    {llc start : Nat} {frags : List Fragment} (hlaid : Laid fragLen a 48 llc start frags) :
    ∀ {memAddr bufAddr k : Nat}, start = memAddr + 48 → bufAddr < memAddr → k ≤ 1 →
      LastSz a frags →
      (List.Forall₂ Sent (dumpLoop env fragLen swEncrypt a frags.length memAddr bufAddr k)
          (mpdusOf a frags)
        ↔ (1 < frags.length → NoIcvTaken swEncrypt a ∧ pulls env (fragLen - 4) = true)
          ∧ pulls env a.lastTxcmdsz = true) := by
  induction hlaid with
  | @last f hsz =>
      intro memAddr bufAddr k hstart hbuf hk hlast
      -- the last fragment is pulled at the size that was kept
      have hlt := lastTxcmdsz_lt hmax hlast hsz
      have hlen := hlast f rfl
      have hone : ¬ 1 < [f].length := Nat.lt_irrefl 1
      cases hp : pulls env a.lastTxcmdsz with
      | true =>
          show List.Forall₂ Sent (dumpLoop env fragLen swEncrypt a (0 + 1) memAddr bufAddr k)
            [(f.memStart, _)] ↔ _
          rw [dumpLoop_pull hp, List.forall₂_cons, hstart]
          exact iff_of_true ⟨(sent_pull hlt hk).mpr hlen, .nil⟩ ⟨fun h => absurd h hone, rfl⟩
      | false =>
          show List.Forall₂ Sent (dumpLoop env fragLen swEncrypt a (0 + 1) memAddr bufAddr k)
            [(f.memStart, _)] ↔ _
          rw [dumpLoop_stay hp, List.forall₂_cons]
          refine iff_of_false (fun h => ?_) (fun h => absurd h.2 (by simp))
          have hsame := h.1.buf
          dsimp only at hsame
          omega
  | @more f rest hsz hrest ih =>
      intro memAddr bufAddr k hstart hbuf hk hlast
      obtain ⟨g, gs, rfl⟩ := List.exists_cons_of_ne_nil hrest.ne_nil
      have hne : (g :: gs).length ≠ 0 := by simp
      have hlong : 1 < (f :: g :: gs).length := by simp
      -- another one is pulled at the full size, unless room for the ICV is taken off it
      have hszlt : dumpSz fragLen swEncrypt a (g :: gs).length < 2 ^ 16 := dumpSz_lt hmax hne
      have hiff : dumpSz fragLen swEncrypt a (g :: gs).length = fragLen - 4
          ↔ NoIcvTaken swEncrypt a := dumpSz_more hfrag hs hne
      show List.Forall₂ Sent (dumpLoop env fragLen swEncrypt a ((g :: gs).length + 1) memAddr bufAddr k)
        ((f.memStart, f.mpduSz a) :: mpdusOf a (g :: gs)) ↔ _
      cases hp : pulls env (dumpSz fragLen swEncrypt a (g :: gs).length) with
      | false =>
          rw [dumpLoop_stay hp, List.forall₂_cons]
          -- not pulled, the transfer starts where the one before it did
          refine iff_of_false (fun h => ?_) (fun h => ?_)
          · have hsame := h.1.buf
            dsimp only at hsame
            omega
          · obtain ⟨hno, hpull⟩ := h.1 hlong
            rw [hiff.mpr hno, hpull] at hp
            cases hp
      | true =>
          rw [dumpLoop_pull hp, List.forall₂_cons, hstart, sent_pull hszlt hk]
          by_cases hno : NoIcvTaken swEncrypt a
          · -- the size is right, and so is where the next one is looked for
            have hfull := hiff.mpr hno
            have hnext : memAddr + 48 + dumpSz fragLen swEncrypt a (g :: gs).length
                = f.memStart + f.mpduSz a := by omega
            have hge := rnd4_ge (f.memStart + f.mpduSz a)
            rw [hnext, ih rfl (by omega) (by omega) (hlast.tail (List.cons_ne_nil _ _))]
            rw [hfull] at hp
            constructor
            · rintro ⟨-, -, hlastp⟩
              exact ⟨fun _ => ⟨hno, hp⟩, hlastp⟩
            · rintro ⟨hall, hlastp⟩
              exact ⟨by omega, fun _ => ⟨hno, hp⟩, hlastp⟩
          · refine iff_of_false (fun h => hno (hiff.mp ?_)) (fun h => hno (h.1 hlong).1)
            have hsame := h.1
            omega

/-- When the fragments are sent as they were laid out: there is one, or nothing is taken off for
the ICV, and from the second one on no transfer ends on a bulk boundary. -/
def DumpsWhole (env : TxEnv) (fragLen : Nat) (swEncrypt : Bool) (a : PktAttrib) (n : Nat) : Prop :=
  n = 1 ∨ (NoIcvTaken swEncrypt a ∧ (2 < n → pulls env (fragLen - 4) = true)
    ∧ pulls env a.lastTxcmdsz = true)

/-- **All fragments**, the first one included. -/
theorem dump_iff (hfrag : 256 ≤ fragLen) (hmax : fragLen ≤ 2346) (hs : a.Small)
    {llc bufAddr : Nat} {frags : List Fragment}
    (hlaid : Laid fragLen a 48 llc (bufAddr + 48) frags) (hlast : LastSz a frags) :
    List.Forall₂ Sent (dumpLoop env fragLen swEncrypt a frags.length bufAddr bufAddr 1)
        (mpdusOf a frags)
      ↔ DumpsWhole env fragLen swEncrypt a frags.length := by
  generalize hstart : bufAddr + 48 = start at hlaid
  cases hlaid with
  | @last f hsz =>
      have hlt := lastTxcmdsz_lt hmax hlast hsz
      have hlen := hlast f rfl
      show List.Forall₂ Sent (dumpLoop env fragLen swEncrypt a (0 + 1) bufAddr bufAddr 1)
        [(f.memStart, _)] ↔ _
      refine iff_of_true ?_ (Or.inl rfl)
      rw [← hstart]
      cases hp : pulls env a.lastTxcmdsz with
      | true =>
          rw [dumpLoop_pull hp, List.forall₂_cons]
          exact ⟨(sent_pull hlt (Nat.le_refl 1)).mpr hlen, .nil⟩
      | false =>
          rw [dumpLoop_stay hp, List.forall₂_cons]
          exact ⟨(sent_stay hlt).mpr hlen, .nil⟩
  | @more f rest hsz hrest =>
      obtain ⟨g, gs, rfl⟩ := List.exists_cons_of_ne_nil hrest.ne_nil
      have hne : (g :: gs).length ≠ 0 := by simp
      have hszlt : dumpSz fragLen swEncrypt a (g :: gs).length < 2 ^ 16 := dumpSz_lt hmax hne
      have hiff : dumpSz fragLen swEncrypt a (g :: gs).length = fragLen - 4
          ↔ NoIcvTaken swEncrypt a := dumpSz_more hfrag hs hne
      have hcount : (f :: g :: gs).length = (g :: gs).length + 1 := rfl
      -- whether the first one is pulled or not, it is found when its size is right
      have key : ∀ {piece : TxPiece} {buf k : Nat},
          (Sent piece (bufAddr + 48, f.mpduSz a)
            ↔ dumpSz fragLen swEncrypt a (g :: gs).length = f.mpduSz a) →
          buf ≤ bufAddr + 8 → k ≤ 1 →
          (List.Forall₂ Sent (piece :: dumpLoop env fragLen swEncrypt a (g :: gs).length
              (rnd4 (bufAddr + 48 + dumpSz fragLen swEncrypt a (g :: gs).length)) buf k)
              ((bufAddr + 48, f.mpduSz a) :: mpdusOf a (g :: gs))
            ↔ DumpsWhole env fragLen swEncrypt a (f :: g :: gs).length) := by
        intro piece buf k hpiece hbuf hk
        rw [List.forall₂_cons, hpiece]
        by_cases hno : NoIcvTaken swEncrypt a
        · have hfull := hiff.mpr hno
          have hnext : bufAddr + 48 + dumpSz fragLen swEncrypt a (g :: gs).length
              = f.memStart + f.mpduSz a := by omega
          have hge := rnd4_ge (f.memStart + f.mpduSz a)
          rw [hnext, dump_tail_iff hfrag hmax hs hrest rfl (by omega) hk
            (hlast.tail (List.cons_ne_nil _ _))]
          constructor
          · rintro ⟨-, hmore, hlastp⟩
            exact Or.inr ⟨hno, fun h2 => (hmore (by omega)).2, hlastp⟩
          · rintro (h1 | ⟨-, hmore, hlastp⟩)
            · omega
            · exact ⟨by omega, fun h1 => ⟨hno, hmore (by omega)⟩, hlastp⟩
        · refine iff_of_false (fun h => hno (hiff.mp ?_)) ?_
          · have hsame := h.1
            omega
          · rintro (h1 | ⟨h, -⟩)
            · omega
            · exact hno h
      show List.Forall₂ Sent (dumpLoop env fragLen swEncrypt a ((g :: gs).length + 1) bufAddr bufAddr 1)
        ((f.memStart, f.mpduSz a) :: mpdusOf a (g :: gs)) ↔ _
      rw [← hstart]
      cases hp : pulls env (dumpSz fragLen swEncrypt a (g :: gs).length) with
      | true =>
          rw [dumpLoop_pull hp]
          exact key (sent_pull hszlt (Nat.le_refl 1)) (Nat.le_refl _) (Nat.zero_le _)
      | false =>
          rw [dumpLoop_stay hp]
          exact key (sent_stay hszlt) (Nat.le_add_right _ _) (Nat.le_refl _)

theorem length_dumpLoop : ∀ (n memAddr bufAddr k : Nat),
    (dumpLoop env fragLen swEncrypt a n memAddr bufAddr k).length = n := by
  intro n
  induction n with
  | zero => intro _ _ _; rfl
  | succ n ih => intro memAddr bufAddr k; exact congrArg (· + 1) (ih _ _ _)

theorem length_mpdusOf : ∀ frags : List Fragment, (mpdusOf a frags).length = frags.length
  | [] => rfl
  | [_] => rfl
  | _ :: g :: rest => congrArg (· + 1) (length_mpdusOf (g :: rest))

theorem Laid.congr {b : PktAttrib} (hsz : ∀ f : Fragment, f.mpduSz a = f.mpduSz b)
    {offset llc start : Nat} {frags : List Fragment} (h : Laid fragLen a offset llc start frags) :
    Laid fragLen b offset llc start frags := by
  induction h with
  | @last f hf => exact .last (by rw [← hsz f]; exact hf)
  | @more f rest hf _ ih =>
      rw [hsz f] at hf ih
      exact .more hf ih

/-- Only the first fragment has an LLC header. -/
theorem Laid.last_llcSz {offset llc start : Nat} {frags : List Fragment}
    (h : Laid fragLen a offset llc start frags) :
    ∀ f, frags.getLast? = some f → f.llcSz = if frags.length = 1 then llc else 0 := by
  induction h with
  | @last f _ =>
      intro g hg
      cases hg
      rfl
  | @more f rest _ hrest ih =>
      intro g hg
      obtain ⟨r, rs, rfl⟩ := List.exists_cons_of_ne_nil hrest.ne_nil
      rw [List.getLast?_cons_cons] at hg
      have hllc := ih g hg
      rw [if_neg (by simp)]
      rw [hllc]
      split
      · rfl
      · rfl

end

/-! ## The descriptors -/

/-- The 40 bytes of a descriptor miss an MPDU. -/
def DescMisses (p : TxPiece) (r : Nat × Nat) : Prop :=
  p.desc.addr + txdescSize ≤ r.1 ∨ r.1 + r.2 ≤ p.desc.addr

section

variable {env : TxEnv} {fragLen : Nat} {swEncrypt : Bool} {a : PktAttrib}

theorem pktOffset_le_one : ∀ (n memAddr bufAddr k : Nat), k ≤ 1 →
    ∀ p ∈ dumpLoop env fragLen swEncrypt a n memAddr bufAddr k, p.desc.pktOffset ≤ 1 := by
  intro n
  induction n with
  | zero =>
      intro _ _ _ _ p hp
      cases hp
  | succ n ih =>
      intro memAddr bufAddr k hk p hp
      cases hpull : pulls env (dumpSz fragLen swEncrypt a n) with
      | true =>
          rw [dumpLoop_pull hpull] at hp
          rcases List.mem_cons.mp hp with rfl | hp
          · dsimp only
            omega
          · exact ih _ _ _ (by omega) p hp
      | false =>
          rw [dumpLoop_stay hpull] at hp
          rcases List.mem_cons.mp hp with rfl | hp
          · dsimp only
            omega
          · exact ih _ _ _ hk p hp

/-- Descriptors in the room in front of their MPDUs miss all of them. -/
theorem descs_miss {llc start : Nat} {frags : List Fragment}
    (h : Laid fragLen a 48 llc start frags) : ∀ {pieces : List TxPiece},
    List.Forall₂ (fun p r => p.desc.addr + 40 ≤ r.1 ∧ r.1 ≤ p.desc.addr + 48) pieces
      (mpdusOf a frags) →
    (∀ r ∈ mpdusOf a frags, start ≤ r.1) ∧ (∀ p ∈ pieces, start ≤ p.desc.addr + 48)
      ∧ ∀ p ∈ pieces, ∀ r ∈ mpdusOf a frags, DescMisses p r := by
  induction h with
  | @last f _ =>
      intro pieces hall
      obtain ⟨p, ps, ⟨hp1, hp2⟩, hnil, rfl⟩ := List.forall₂_cons_right_iff.mp hall
      cases hnil
      refine ⟨?_, ?_, ?_⟩
      · intro r hr
        obtain rfl := List.mem_singleton.mp hr
        exact Nat.le_refl _
      · intro q hq
        rw [List.mem_singleton.mp hq]
        exact hp2
      · intro q hq r hr
        rw [List.mem_singleton.mp hq, List.mem_singleton.mp hr]
        exact Or.inl hp1
  | @more f rest _ hrest ih =>
      intro pieces hall
      obtain ⟨g, gs, rfl⟩ := List.exists_cons_of_ne_nil hrest.ne_nil
      obtain ⟨p, ps, ⟨hp1, hp2⟩, htail, rfl⟩ := List.forall₂_cons_right_iff.mp hall
      -- what comes later lies behind this MPDU, and its descriptor in the room between
      obtain ⟨hr, hq, hmiss⟩ := ih htail
      have hge := rnd4_ge (f.memStart + f.mpduSz a)
      dsimp only at hp1 hp2
      refine ⟨?_, ?_, ?_⟩
      · intro r hmem
        rcases List.mem_cons.mp hmem with rfl | hmem
        · exact Nat.le_refl _
        · have h1 := hr r hmem
          omega
      · intro q hmem
        rcases List.mem_cons.mp hmem with rfl | hmem
        · exact hp2
        · have h1 := hq q hmem
          omega
      · intro q hqm r hrm
        unfold DescMisses txdescSize
        rcases List.mem_cons.mp hqm with rfl | hqm
        · rcases List.mem_cons.mp hrm with rfl | hrm
          · exact Or.inl hp1
          · have h1 := hr r hrm
            exact Or.inl (by omega)
        · rcases List.mem_cons.mp hrm with rfl | hrm
          · have h1 := hq q hqm
            refine Or.inr ?_
            dsimp only
            omega
          · exact hmiss q hqm r hrm

end

/-! ## Every MSDU -/

/-- **What `rtw_xmitframe_coalesce` lays out**, before the MIC and the encryption. -/
theorem coalesceFrags_laid (p : XmitPriv) {mlme : MlmePriv} {lookup : Option (Nat × StaInfo)}
    {pkt : List UInt8} {x x1 : XmitFrame} (hra : x.attrib.ra.isMcast = false) (hs : x.attrib.Small)
    (h : coalesceFrags p.fragLen mlme lookup pkt x = some x1) :
    (∃ seqnum, x1.attrib = { x.attrib with
        seqnum := seqnum, nrFrags := x1.frags.length % 256
        lastTxcmdsz := lastTxcmdszOf x.attrib (x1.frags.length % 256)
          (x1.frags.getLastD ⟨0, 0, 0⟩) })
      ∧ x1.bufAddr = x.bufAddr ∧ x1.pktOffset = x.pktOffset
      ∧ Laid p.fragLen x.attrib (hwHdrOffset x.pktOffset) 8 x.firstStart x1.frags
      ∧ x1.frags.flatMap (·.payload x1.attrib x1.mem)
        = rtwPutSnap x.attrib.etherType ++ pkt.drop x.attrib.pktHdrlen := by
  have hrange := p.range
  unfold coalesceFrags at h
  split_ifs at h with h0
  cases hmk : rtwMakeWlanhdr mlme lookup x.mem x.firstStart x.attrib with
  | none => rw [hmk] at h; cases h
  | some r =>
      obtain ⟨m, a⟩ := r
      obtain ⟨⟨seqnum, ha⟩, -⟩ := rtwMakeWlanhdr_some hmk
      have hra' : a.ra.isMcast = false := by rw [ha]; exact hra
      have hs' : a.Small := by rw [ha]; exact ⟨hs.ivLen, hs.icvLen⟩
      have hhdr : a.pktHdrlen = x.attrib.pktHdrlen := by rw [ha]
      have hether : a.etherType = x.attrib.etherType := by rw [ha]
      rw [hmk] at h
      dsimp only at h
      obtain ⟨m', frags, hloop, hlaid, -, hpay⟩ : ∃ m' frags, coalesceLoop p.fragLen a
          (hwHdrOffset x.pktOffset) x.firstStart ((pkt.drop a.pktHdrlen).length + 2) 0 x.firstStart
          (pkt.drop a.pktHdrlen) m = some (m', frags) ∧ _ :=
        coalesceLoop_laid hrange.1 (by omega) hra' hs' _ _ _ _ _ (by omega)
      rw [hloop] at h
      obtain rfl := Option.some.inj h
      have hsnap : snapOf a 0 = rtwPutSnap a.etherType := rfl
      rw [hsnap, hether, hhdr] at hpay
      refine ⟨⟨seqnum, ?_⟩, rfl, rfl, ?_, ?_⟩
      · dsimp only
        rw [ha]
        rfl
      · refine hlaid.congr ?_
        intro f
        rw [ha]
        rfl
      · exact hpay

/-- Encryption changes the bytes only. -/
theorem xmitframeSwencrypt_eq (aes : AesKey → BlockMode.Block → BlockMode.Block) (fragLen : Nat)
    (sec : SecurityPriv) (x : XmitFrame) :
    ∃ m, xmitframeSwencrypt aes fragLen sec x = { x with mem := m } := by
  unfold xmitframeSwencrypt
  split
  · cases x.attrib.encrypt <;> exact ⟨_, rfl⟩
  · exact ⟨_, rfl⟩

/-- What the MIC and the encryption leave of a frame. -/
theorem rtwXmitframeCoalesce_some {aes : AesKey → BlockMode.Block → BlockMode.Block}
    {fragLen : Nat} {mlme : MlmePriv} {sec : SecurityPriv} {lookup : Option (Nat × StaInfo)}
    {pkt : List UInt8} {x y : XmitFrame}
    (h : rtwXmitframeCoalesce aes fragLen mlme sec lookup pkt x = some y) :
    ∃ x1, coalesceFrags fragLen mlme lookup pkt x = some x1
      ∧ y.bufAddr = x1.bufAddr ∧ y.pktOffset = x1.pktOffset ∧ y.frags = x1.frags
      ∧ y.attrib = { x1.attrib with lastTxcmdsz :=
          x1.attrib.lastTxcmdsz + if x1.attrib.encrypt = .tkip then 8 else 0 } := by
  unfold rtwXmitframeCoalesce at h
  cases h1 : coalesceFrags fragLen mlme lookup pkt x with
  | none => rw [h1] at h; cases h
  | some x1 =>
      rw [h1] at h
      dsimp only at h
      cases h2 : xmitframeAddmic fragLen sec x1 with
      | none => rw [h2] at h; cases h
      | some x2 =>
          rw [h2] at h
          obtain rfl := Option.some.inj h
          obtain ⟨m, hm⟩ := xmitframeSwencrypt_eq aes fragLen sec x2
          rw [hm]
          refine ⟨x1, rfl, ?_⟩
          unfold xmitframeAddmic at h2
          split at h2
          · rename_i hne
            obtain rfl := Option.some.inj h2
            rw [if_neg hne]
            exact ⟨rfl, rfl, rfl, rfl⟩
          · rename_i htkip
            rw [not_not] at htkip
            dsimp only at h2
            split at h2
            · cases h2
            · obtain rfl := Option.some.inj h2
              rw [if_pos htkip]
              exact ⟨rfl, rfl, rfl, rfl⟩

/-- **Whether a fragmented MSDU goes to the device whole.** The transfers are the MPDUs of the
layout exactly when there is one fragment, or fewer than 256 of which nothing is taken off for the
ICV and which from the second one on do not end on a bulk boundary. Then the descriptors miss the
MPDUs. The payloads of the layout are the LLC header and the MSDU. -/
theorem fragments_sent_iff (aes : AesKey → BlockMode.Block → BlockMode.Block) (p : XmitPriv)
    (env : TxEnv) {mlme : MlmePriv} {sec : SecurityPriv} {lookup : Option (Nat × StaInfo)}
    {pkt : List UInt8} {x y : XmitFrame} (hra : x.attrib.ra.isMcast = false)
    (hs : x.attrib.Secured) (hoff : x.pktOffset = 1)
    (h : rtwXmitframeCoalesce aes p.fragLen mlme sec lookup pkt x = some y) :
    (List.Forall₂ Sent (rtwDumpXframe env p.fragLen sec.swEncrypt y) (mpdusOf y.attrib y.frags)
        ↔ y.frags.length < 256
          ∧ DumpsWhole env p.fragLen sec.swEncrypt y.attrib y.frags.length)
      ∧ (List.Forall₂ Sent (rtwDumpXframe env p.fragLen sec.swEncrypt y)
          (mpdusOf y.attrib y.frags) →
        ∀ piece ∈ rtwDumpXframe env p.fragLen sec.swEncrypt y,
          ∀ r ∈ mpdusOf y.attrib y.frags, DescMisses piece r)
      ∧ ∃ x1, coalesceFrags p.fragLen mlme lookup pkt x = some x1 ∧ x1.frags = y.frags
        ∧ x1.frags.flatMap (·.payload x1.attrib x1.mem)
          = rtwPutSnap x.attrib.etherType ++ pkt.drop x.attrib.pktHdrlen := by
  obtain ⟨x1, h1, hbuf, hpo, hfrags, hattr⟩ := rtwXmitframeCoalesce_some h
  obtain ⟨⟨seqnum, ha⟩, hbuf1, hpo1, hlaid, hpay⟩ := coalesceFrags_laid p hra hs.small h1
  have hrange := p.range
  have hs' : y.attrib.Small := by
    rw [hattr, ha]
    exact ⟨hs.small.ivLen, hs.small.icvLen⟩
  -- the layout starts behind one packet offset
  have hlaid' : Laid p.fragLen y.attrib 48 8 (y.bufAddr + 48) y.frags := by
    rw [hfrags, hbuf, hbuf1]
    have hoff' : hwHdrOffset x.pktOffset = 48 := by rw [hoff]; rfl
    unfold XmitFrame.firstStart at hlaid
    rw [hoff'] at hlaid
    refine hlaid.congr ?_
    intro f
    rw [hattr, ha]
    rfl
  -- the last size that was kept is that of the last fragment
  have hlast : LastSz y.attrib y.frags := by
    intro f hf
    have hllc := hlaid'.last_llcSz f hf
    have hget : x1.frags.getLastD ⟨0, 0, 0⟩ = f := by
      rw [← hfrags, List.getLastD_eq_getLast?, hf]
      rfl
    have hone : (if x1.frags.length % 256 = 1 then f.llcSz else 0) = f.llcSz := by
      rw [hfrags] at hllc
      by_cases h1 : x1.frags.length = 1
      · rw [h1]
        rfl
      · rw [if_neg h1] at hllc
        rw [hllc]
        split
        · rfl
        · rfl
    rw [hattr, ha, hget]
    unfold lastTxcmdszOf Fragment.mpduSz
    dsimp only
    rw [hone]
    have hroom : ∀ (n l : Nat), icvRoom { x.attrib with seqnum := seqnum, nrFrags := n, lastTxcmdsz := l }
        = icvRoom x.attrib := fun _ _ => rfl
    rw [hroom]
    omega
  -- the count of fragments is one byte
  have hnr : y.attrib.nrFrags = y.frags.length % 256 := by
    rw [hattr, ha, hfrags]
  have hdump : rtwDumpXframe env p.fragLen sec.swEncrypt y
      = dumpLoop env p.fragLen sec.swEncrypt y.attrib (y.frags.length % 256) y.bufAddr y.bufAddr 1 := by
    unfold rtwDumpXframe
    rw [hnr, hpo, hpo1, hoff]
  rw [hdump]
  refine ⟨?_, ?_, x1, h1, hfrags.symm, hpay⟩
  -- with 256 fragments or more there are too few transfers
  · by_cases hlt : y.frags.length < 256
    · rw [Nat.mod_eq_of_lt hlt, dump_iff hrange.1 hrange.2 hs' hlaid' hlast]
      exact ⟨fun h => ⟨hlt, h⟩, fun h => h.2⟩
    · refine iff_of_false (fun h => ?_) (fun h => hlt h.1)
      have hlen := h.length_eq
      rw [length_dumpLoop, length_mpdusOf] at hlen
      omega
  · intro hsent
    have hoffs := (List.forall₂_and_left _ _).mpr ⟨pktOffset_le_one _ _ _ _ (Nat.le_refl 1), hsent⟩
    refine (descs_miss hlaid' (hoffs.imp ?_)).2.2
    intro piece r hpiece
    have hmpdu := congrArg Prod.fst hpiece.2.mpdu
    have hone := hpiece.1
    unfold TxDesc.mpdu txdescSize packetOffsetSz at hmpdu
    dsimp only at hmpdu
    omega

/-- A frame to the access point under cipher `c` in hardware, with the `pkt_offset` of
`rtw_init_xmitframe`. -/
def sampleDump (c : Cipher) : XmitFrame where
  attrib := { (sampleXmit c).attrib with bswenc := false }
  bufAddr := 512
  aligned := aligned_512
  pktOffset := 1
  mem := fun _ => 0

theorem fragments_sent_sample :
    ∃ y, rtwXmitframeCoalesce (fun _ b => b) 256 sampleMlme {} (some (0, sampleSta)) (samplePkt 500)
        (sampleDump .noPrivacy) = some y ∧ y.frags.length = 3
      ∧ List.Forall₂ Sent (rtwDumpXframe {} 256 false y) (mpdusOf y.attrib y.frags) := by
  have hview : (rtwXmitframeCoalesce (fun _ b => b) 256 sampleMlme {} (some (0, sampleSta))
      (samplePkt 500) (sampleDump .noPrivacy)).map
        (fun y => (y.frags.length, y.attrib.lastTxcmdsz, y.attrib.icvLen)) = some (3, 76, 0) := by
    decide +kernel
  obtain ⟨y, hrun, hseen⟩ := Option.map_eq_some_iff.mp hview
  obtain ⟨hlen, hsz, hicv⟩ : y.frags.length = 3 ∧ y.attrib.lastTxcmdsz = 76 ∧ y.attrib.icvLen = 0 := by
    simpa using hseen
  refine ⟨y, hrun, hlen, ?_⟩
  refine (fragments_sent_iff (fun _ b => b) ⟨256, by decide⟩ {} rfl ⟨rfl, rfl, rfl⟩ rfl hrun).1.mpr ?_
  refine ⟨by omega, Or.inr ⟨Or.inr hicv, fun _ => by decide, ?_⟩⟩
  rw [hsz]
  decide

/-- Under CCMP in hardware eight bytes of every fragment but the last are lost. -/
theorem fragments_not_sent :
    ¬ ∀ (c : Cipher) (n : Nat) (y : XmitFrame),
      rtwXmitframeCoalesce (fun _ b => b) 256 sampleMlme {} (some (0, sampleSta)) (samplePkt n)
        (sampleDump c) = some y →
      List.Forall₂ Sent (rtwDumpXframe {} 256 false y) (mpdusOf y.attrib y.frags) := by
  intro h
  have hview : (rtwXmitframeCoalesce (fun _ b => b) 256 sampleMlme {} (some (0, sampleSta))
      (samplePkt 300) (sampleDump .aes)).map (fun y =>
        decide ((rtwDumpXframe {} 256 false y).map (·.desc.mpdu) = mpdusOf y.attrib y.frags))
      = some false := by decide +kernel
  obtain ⟨y, hrun, hseen⟩ := Option.map_eq_some_iff.mp hview
  have hsent := h .aes 300 y hrun
  refine of_decide_eq_false hseen ?_
  have hmap := List.forall₂_map_left_iff.mpr (hsent.imp fun p r hp => hp.mpdu)
  exact List.forall₂_eq_eq_eq ▸ hmap

end Rtl8812au
