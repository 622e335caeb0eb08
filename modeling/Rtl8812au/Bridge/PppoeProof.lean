import Rtl8812au.Bridge.Pppoe
import Rtl8812au.Bridge.RewriteProof
import Rtl8812au.Lib.Splice

/-!
# Relay tags going and coming

A reply loses what its request was to carry, and has the tags it would have had without the bridge,
unless the client's own relay tag was empty, which cannot be told from none, or another relay tag stands
in front. But no request is ever right, because the length of the tag to be added is read in the byte
order of the host.
-/

namespace Rtl8812au.Nat25

/-! ## The search -/

/-- Turns enough to reach the end of the payload. -/
theorem findRun_total (m : Mem) (type : Nat) : ∀ {fuel cur : Nat}, phTag + m.be16 phLength - cur < fuel →
    ∃ r, Loop.run (findPppoeTagTurn m type) fuel cur = some (.done r) := by
  intro fuel
  induction fuel with
  | zero => intro cur h; exact absurd h (Nat.not_lt_zero _)
  | succ fuel ih =>
      intro cur h
      rw [Loop.run]
      unfold findPppoeTagTurn
      by_cases hin : cur - phTag < m.be16 phLength
      · rw [if_pos hin]
        by_cases htype : m.be16 cur = type
        · rw [if_pos htype]
          exact ⟨some cur, rfl⟩
        · have hhdr : tagHdrLen = 4 := rfl
          rw [if_neg htype]
          exact ih (by omega)
      · rw [if_neg hin]
        exact ⟨none, rfl⟩

/-- **The function returns what the search ends with.** -/
theorem findPppoeTag_eq {m : Mem} {type : Nat} {r : Option Nat} (h : FindsPppoeTag m type r) :
    nat25FindPppoeTag m type = r := by
  obtain ⟨r', hrun⟩ := findRun_total m type
    (show phTag + m.be16 phLength - phTag < m.be16 phLength + 1 by omega)
  have hends : FindsPppoeTag m type r' := ⟨_, hrun⟩
  unfold nat25FindPppoeTag
  rw [hrun]
  exact hends.unique h

theorem stand_append {m : Mem} {a : Nat} {xs ys : List PppoeTag} :
    Stand m a (xs ++ ys) ↔ Stand m a xs ∧ Stand m (a + PppoeTag.total xs) ys := by
  induction xs generalizing a with
  | nil => exact ⟨fun h => ⟨rfl, h⟩, fun h => h.2⟩
  | cons t xs ih =>
      rw [List.cons_append, stand_cons, stand_cons, ih, PppoeTag.total_cons, Nat.add_assoc, and_assoc]

/-- The payload holds the tags and no more. -/
def Payload (m : Mem) (ts : List PppoeTag) : Prop :=
  Stand m phTag ts ∧ m.be16 phLength = PppoeTag.total ts

section

variable {m : Mem} {type : Nat}

/-- The first tag of its type is found where it stands. -/
theorem find_split {pre post : List PppoeTag} {t : PppoeTag} (h : Payload m (pre ++ t :: post))
    (hpre : ∀ s ∈ pre, s.tagType ≠ t.tagType) :
    nat25FindPppoeTag m t.tagType = some (phTag + PppoeTag.total pre) := by
  obtain ⟨hstand, hlen⟩ := h
  obtain ⟨hfront, hback⟩ := stand_append.mp hstand
  have htag := (stand_cons.mp hback).1
  have hsize : 4 ≤ t.size := Nat.le_add_right _ _
  have hin : PppoeTag.total pre < m.be16 phLength := by
    rw [hlen, PppoeTag.total_append, PppoeTag.total_cons]
    omega
  exact findPppoeTag_eq (finds_first
    ⟨hpre, hfront, hin, (tag_fields (htag.trans (List.append_nil _).symm)).1⟩)

/-- Without a tag of the type the search finds none. -/
theorem find_none {ts : List PppoeTag} (h : Payload m ts) (hts : ∀ s ∈ ts, s.tagType ≠ type) :
    nat25FindPppoeTag m type = none := by
  obtain ⟨hstand, hlen⟩ := h
  refine findPppoeTag_eq ?_
  suffices hall : ∀ (rest : List PppoeTag) (d : Nat), (∀ s ∈ rest, s.tagType ≠ type) →
      Stand m (phTag + d) rest → d + PppoeTag.total rest = m.be16 phLength →
      Loop.Ends (findPppoeTagTurn m type) (phTag + d) none from
    hall ts 0 hts hstand (by rw [Nat.zero_add, hlen])
  intro rest
  induction rest with
  | nil =>
      intro d _ _ hd
      have hend : d = m.be16 phLength := hd
      have hturn : findPppoeTagTurn m type (phTag + d) = .done (.stop none) := by
        rw [findPppoeTagTurn, Nat.add_sub_cancel_left]
        exact if_neg (by omega)
      exact (Loop.ends_stop hturn).mpr rfl
  | cons t rest ih =>
      intro d hothers hst hd
      obtain ⟨ht, hrest⟩ := stand_cons.mp hst
      have hsize : 4 ≤ t.size := Nat.le_add_right _ _
      rw [PppoeTag.total_cons] at hd
      have hturn := findTurn_other (show phTag + d - phTag < m.be16 phLength by omega) ht
        (hothers t List.mem_cons_self)
      rw [Loop.ends_next hturn, Nat.add_assoc]
      rw [Nat.add_assoc] at hrest
      exact ih (d + t.size) (fun x hx => hothers x (List.mem_cons_of_mem t hx)) hrest (by omega)

end

/-! ## Frames -/

/-- A frame of the discovery phase, with what stands behind its tags. -/
structure PppoeFrame where
  dst : MacAddr
  src : MacAddr
  verType : UInt8
  code : UInt8
  /-- The session, which a PADS gives. -/
  sid : Fin (2 ^ 16)
  tags : List PppoeTag
  rest : List UInt8

namespace PppoeFrame

variable (f : PppoeFrame)

/-- The source, the type of the frame and the PPPoE header up to its length. -/
def middle : List UInt8 := f.src.bytes ++ ([0x88, 0x63, f.verType, f.code] ++ netBytes f.sid)

def bytes : List UInt8 :=
  f.dst.bytes ++ (f.middle ++ (netBytes (PppoeTag.total f.tags) ++ (PppoeTag.encode f.tags ++ f.rest)))

@[simp] theorem length_middle : f.middle.length = 12 := rfl

end PppoeFrame

@[simp] theorem PppoeTag.length_encode (ts : List PppoeTag) :
    (PppoeTag.encode ts).length = PppoeTag.total ts := by
  induction ts with
  | nil => rfl
  | cons t ts ih => rw [encode_cons, List.length_append, length_bytes, total_cons, ih]

theorem PppoeFrame.length_bytes (f : PppoeFrame) :
    f.bytes.length = phTag + PppoeTag.total f.tags + f.rest.length := by
  have htag : phTag = 20 := rfl
  unfold bytes
  simp only [List.length_append, MacAddr.length_bytes, length_middle, PppoeTag.length_netBytes,
    PppoeTag.length_encode]
  omega

/-- The buffer holds the frame, and its lengths are those of the frame. -/
def Skb.Holds (skb : Skb) (f : PppoeFrame) : Prop :=
  skb.data.read 0 skb.len = f.bytes ∧ PppoeTag.total f.tags < 2 ^ 16

section

variable {skb : Skb} {f : PppoeFrame}

theorem Skb.Holds.len_eq (h : skb.Holds f) : skb.len = phTag + PppoeTag.total f.tags + f.rest.length := by
  rw [← f.length_bytes, ← h.1, Mem.length_read]

/-- The fields of a frame. -/
theorem Skb.Holds.fields (h : skb.Holds f) : skb.data phCode = f.code ∧ skb.data.be16 phSid = f.sid
    ∧ skb.data.read 6 6 = f.src.bytes ∧ Payload skb.data f.tags := by
  obtain ⟨h, hfits⟩ := h
  unfold PppoeFrame.bytes at h
  have hcodeAt : skb.data.read 0 skb.len = (f.dst.bytes ++ f.src.bytes ++ [0x88, 0x63, f.verType])
      ++ ([f.code] ++ (netBytes f.sid ++ (netBytes (PppoeTag.total f.tags)
        ++ (PppoeTag.encode f.tags ++ f.rest)))) := h.trans (by unfold PppoeFrame.middle; simp)
  have hsidAt : skb.data.read 0 skb.len = (f.dst.bytes ++ f.src.bytes ++ [0x88, 0x63, f.verType, f.code])
      ++ (netBytes f.sid ++ (netBytes (PppoeTag.total f.tags) ++ (PppoeTag.encode f.tags ++ f.rest))) :=
    h.trans (by unfold PppoeFrame.middle; simp)
  have hlenAt : skb.data.read 0 skb.len = (f.dst.bytes ++ f.middle)
      ++ (netBytes (PppoeTag.total f.tags) ++ (PppoeTag.encode f.tags ++ f.rest)) := h.trans (by simp)
  have htagsAt : skb.data.read 0 skb.len
      = (f.dst.bytes ++ (f.middle ++ netBytes (PppoeTag.total f.tags))) ++ (PppoeTag.encode f.tags ++ f.rest) :=
    h.trans (by simp)
  have hsrcAt : skb.data.read 0 skb.len = f.dst.bytes ++ (f.src.bytes
      ++ ([0x88, 0x63, f.verType, f.code] ++ netBytes f.sid ++ (netBytes (PppoeTag.total f.tags)
        ++ (PppoeTag.encode f.tags ++ f.rest)))) := h.trans (by unfold PppoeFrame.middle; simp)
  have hcode : [skb.data phCode] = [f.code] := Mem.read_middle hcodeAt
  have htags := Mem.read_middle htagsAt
  rw [PppoeTag.length_encode] at htags
  exact ⟨(List.cons.inj hcode).1, be16_netBytes (Mem.read_middle hsidAt) f.sid.isLt, Mem.read_middle hsrcAt,
    htags, be16_netBytes (Mem.read_middle hlenAt) hfits⟩

end

/-! ## Requests -/

/-- A relay tag. -/
def PppoeTag.isRelay (t : PppoeTag) : Bool := decide (t.tagType = pttRelaySid)

/-- What the client's own relay tag holds. -/
def relayValue (ts : List PppoeTag) : List UInt8 := ((ts.find? PppoeTag.isRelay).map PppoeTag.tagData).getD []

/-- A PADI or a PADR with one short relay tag at most, and room behind it. -/
structure PppoeRequest (skb : RoomySkb) (f : PppoeFrame) : Prop where
  holds : skb.Holds f
  code : f.code = padiCode ∨ f.code = padrCode
  one : f.tags.countP PppoeTag.isRelay ≤ 1
  short : ∀ t ∈ f.tags, t.isRelay = true → t.tagData.length ≤ 28
  room : 12 ≤ skb.tailroom

/-- The request succeeds with the relay tag in front of the other tags, lengths exact. -/
def InsertRight (f : PppoeFrame) (r : Int × PppoeInfo × RoomySkb) : Prop :=
  r.1 = 0 ∧ ∃ t : PppoeTag, t.tagType = pttRelaySid
    ∧ t.tagData = netBytes magicCode ++ (f.src.bytes ++ relayValue f.tags)
    ∧ r.2.2.Holds { f with tags := t :: f.tags.filter fun t => !t.isRelay }

theorem notRelay_of {ts : List PppoeTag} (h : ∀ t ∈ ts, (!t.isRelay) = true) :
    ∀ t ∈ ts, t.tagType ≠ pttRelaySid := by
  intro t ht htype
  have hnot := h t ht
  rw [PppoeTag.isRelay, decide_eq_true htype] at hnot
  cases hnot

/-- A small number in the byte order of the network is a large one for the host. -/
theorem le16_netBytes {m : Mem} {a n : Nat} (h : m.read a 2 = netBytes n) (hn : n < 256) :
    m.le16 a = n * 256 := by
  have hpair : [m a, m (a + 1)] = netBytes n := h
  have hhigh := (List.cons.inj hpair).1
  have hlow := (List.cons.inj (List.cons.inj hpair).2).1
  unfold Mem.le16
  rw [hhigh, hlow, UInt8.toNat_ofNat', UInt8.toNat_ofNat']
  omega

/-- **The tag that is added is far too long.** -/
theorem putRelayTag_len {skb : RoomySkb} {tagBuf : Mem} {n : Nat} (hn : n ≤ 28)
    (h : (putRelayTag skb tagBuf n).1 = 0) :
    (putRelayTag skb tagBuf n).2.len = skb.len + ((8 + n) * 256 + 4) := by
  have htag : ∀ bs : List UInt8, (tagBuf.write 0 (netBytes pttRelaySid
      ++ (netBytes (magicCodeLen + rtlRelayTagLen + n) ++ bs))).le16 2 = (8 + n) * 256 := by
    intro bs
    have hread := Mem.read_middle (Mem.read_write_self tagBuf 0 (netBytes pttRelaySid
      ++ (netBytes (magicCodeLen + rtlRelayTagLen + n) ++ bs)))
    exact le16_netBytes hread (show 8 + n < 256 by omega)
  unfold putRelayTag nat25AddPppoeTag at h ⊢
  simp only [htag] at h ⊢
  split at h
  · next hnone => cases h
  · next skb' hsome =>
    split at hsome
    · cases hsome
    · next hroom =>
      cases hsome
      rfl

/-- What `nat25_db_handle` comes to for a request. With a session id it is taken for a frame of the session. -/
theorem pppoeInsert_request {skb : RoomySkb} {f : PppoeFrame} (h : PppoeRequest skb f) {p : PppoeInfo}
    (hp : p.addPppoeTag = true) (tagBuf : Mem) :
    pppoeInsert p skb tagBuf =
      if f.sid = 0 then ((insertRelayTag skb tagBuf).1, p, (insertRelayTag skb tagBuf).2) else (0, p, skb) := by
  obtain ⟨hcode, hsid, -, -⟩ := h.holds.fields
  have hreq : skb.data phCode = padiCode ∨ skb.data phCode = padrCode := by
    rw [hcode]
    exact h.code
  unfold pppoeInsert
  by_cases hzero : f.sid = 0
  · have hsid0 : skb.data.be16 phSid = 0 := by
      rw [hsid, hzero]
      rfl
    simp only [hsid0, hreq, hp, if_true, if_pos hzero]
  · have hsid0 : skb.data.be16 phSid ≠ 0 := fun h0 => hzero (Fin.ext (hsid.symm.trans h0))
    simp [hsid0, hp, hzero]

/-- The length of a request that had a relay tag. -/
theorem insertRelayTag_some {skb : RoomySkb} {tagBuf : Mem} {old n : Nat}
    (hfound : nat25FindPppoeTag skb.data pttRelaySid = some old) (hold : skb.data.be16 (old + 2) = n)
    (hzero : (insertRelayTag skb tagBuf).1 = 0) :
    (insertRelayTag skb tagBuf).2.len = skb.len - (4 + n) + ((8 + n) * 256 + 4) := by
  unfold insertRelayTag at hzero ⊢
  simp only [hfound, hold] at hzero ⊢
  split at hzero
  · cases hzero
  · next hshort =>
    rw [if_neg hshort]
    unfold skbPullAndMerge at hzero ⊢
    split at hzero
    · next hnone => cases hzero
    · next skb' hsome =>
      split at hsome
      · cases hsome
      · next hin =>
        cases hsome
        have hhdr : tagHdrLen = 4 := rfl
        have hmagic : magicCodeLen = 2 := rfl
        have hrelay : rtlRelayTagLen = 6 := rfl
        exact putRelayTag_len (by omega) hzero

theorem others_of_none {ts : List PppoeTag} (h : ts.find? PppoeTag.isRelay = none) :
    ts.filter (fun t => !t.isRelay) = ts := by
  refine List.filter_eq_self.mpr fun t ht => ?_
  have hnot := List.find?_eq_none.mp h t ht
  simpa using hnot

/-- The only relay tag, and what stands around it. -/
theorem relay_split {f : PppoeFrame} (hone : f.tags.countP PppoeTag.isRelay ≤ 1) {old : PppoeTag}
    (hfind : f.tags.find? PppoeTag.isRelay = some old) : ∃ pre post, f.tags = pre ++ old :: post ∧
      (∀ s ∈ pre, (!s.isRelay) = true) ∧ f.tags.filter (fun t => !t.isRelay) = pre ++ post := by
  obtain ⟨hrelay, pre, post, htags, hpre⟩ := List.find?_eq_some_iff_append.mp hfind
  rw [htags, List.countP_append, List.countP_cons_of_pos hrelay] at hone
  have hpre' : pre.filter (fun t => !t.isRelay) = pre := List.filter_eq_self.mpr hpre
  have hpost' : post.filter (fun t => !t.isRelay) = post := by
    refine List.filter_eq_self.mpr fun s hs => ?_
    have hnot := List.countP_eq_zero.mp (show post.countP PppoeTag.isRelay = 0 by omega) s hs
    simpa using hnot
  refine ⟨pre, post, htags, hpre, ?_⟩
  rw [htags, List.filter_append, hpre', List.filter_cons_of_neg (by simpa using hrelay), hpost']

/-- By how much the relay tag makes the tags longer. -/
theorem relayed_total {f : PppoeFrame} (hone : f.tags.countP PppoeTag.isRelay ≤ 1) {t : PppoeTag}
    (hdata : t.tagData = netBytes magicCode ++ (f.src.bytes ++ relayValue f.tags)) :
    t.size + PppoeTag.total (f.tags.filter fun t => !t.isRelay)
      = PppoeTag.total f.tags + if (f.tags.find? PppoeTag.isRelay).isSome then 8 else 12 := by
  have hsize : t.size = 12 + (relayValue f.tags).length := by
    have htag := congrArg List.length hdata
    rw [List.length_append, List.length_append, MacAddr.length_bytes, PppoeTag.length_netBytes] at htag
    show 4 + t.tagData.length = _
    omega
  unfold relayValue at hsize
  cases hfind : f.tags.find? PppoeTag.isRelay with
  | none =>
      rw [hfind] at hsize
      rw [others_of_none hfind, hsize]
      exact Nat.add_comm _ _
  | some old =>
      obtain ⟨pre, post, htags, -, hothers⟩ := relay_split hone hfind
      have hold : old.size = 4 + old.tagData.length := rfl
      have hnew : t.size = 12 + old.tagData.length := by
        rw [hfind] at hsize
        exact hsize
      rw [hothers, htags, PppoeTag.total_append, PppoeTag.total_append, PppoeTag.total_cons, hnew,
        Option.isSome_some, if_pos rfl]
      omega

/-- **No request is right.** The tag is too long, or with a session id there is none. -/
theorem insert_not_right {skb : RoomySkb} {f : PppoeFrame} (h : PppoeRequest skb f) {p : PppoeInfo}
    (hp : p.addPppoeTag = true) (tagBuf : Mem) : ¬ InsertRight f (pppoeInsert p skb tagBuf) := by
  rw [pppoeInsert_request h hp]
  rintro ⟨hzero, t, -, hdata, hholds⟩
  have hlen := h.holds.len_eq
  -- the lengths tell it: the frame would have to have grown by the tag
  have hlen' := hholds.len_eq
  have htotal := relayed_total h.one hdata
  rw [PppoeTag.total_cons, htotal] at hlen'
  split at hzero
  case isFalse hne =>
    rw [if_neg hne] at hlen'
    have hsame : skb.len = phTag + (PppoeTag.total f.tags
      + if (f.tags.find? PppoeTag.isRelay).isSome then 8 else 12) + f.rest.length := hlen'
    split at hsame <;> omega
  case isTrue hsid =>
    rw [if_pos hsid] at hlen'
    have hzero : (insertRelayTag skb tagBuf).1 = 0 := hzero
    have hlen' : (insertRelayTag skb tagBuf).2.len = phTag + (PppoeTag.total f.tags
      + if (f.tags.find? PppoeTag.isRelay).isSome then 8 else 12) + f.rest.length := hlen'
    obtain ⟨-, -, -, hpayload⟩ := h.holds.fields
    cases hfind : f.tags.find? PppoeTag.isRelay with
    | none =>
        have hnone : nat25FindPppoeTag skb.data pttRelaySid = none := by
          refine find_none hpayload fun s hs htype => ?_
          exact List.find?_eq_none.mp hfind s hs (decide_eq_true htype)
        have hput : insertRelayTag skb tagBuf = putRelayTag skb tagBuf 0 := by
          unfold insertRelayTag
          rw [hnone]
        rw [hput] at hzero hlen'
        have hput' := putRelayTag_len (by omega) hzero
        rw [hfind, Option.isSome_none, if_neg Bool.false_ne_true] at hlen'
        omega
    | some old =>
        -- a tag of another relay is put into the new one, which is then longer than it says
        obtain ⟨pre, post, htags, hpre, -⟩ := relay_split h.one hfind
        have hrelay : old.isRelay = true := List.find?_some hfind
        have hshort : old.tagData.length ≤ 28 :=
          h.short old (by rw [htags]; exact List.mem_append_right _ List.mem_cons_self) hrelay
        rw [htags] at hpayload
        have hfound : nat25FindPppoeTag skb.data pttRelaySid = some (phTag + PppoeTag.total pre) := by
          have htype : old.tagType = pttRelaySid := of_decide_eq_true hrelay
          rw [← htype]
          exact find_split hpayload fun s hs hsame => notRelay_of hpre s hs (hsame.trans htype)
        have hold : skb.data.be16 (phTag + PppoeTag.total pre + 2) = old.tagData.length :=
          (tag_fields ((stand_cons.mp (stand_append.mp hpayload.1).2).1.trans (List.append_nil _).symm)).2
        have hput := insertRelayTag_some hfound hold hzero
        rw [hfind, Option.isSome_some, if_pos rfl] at hlen'
        have htotalOld : 4 + old.tagData.length ≤ PppoeTag.total f.tags := by
          rw [htags, PppoeTag.total_append, PppoeTag.total_cons]
          exact Nat.le_trans (Nat.le_add_right _ _) (Nat.le_add_left _ _)
        omega

/-! ## Replies -/

theorem pttRelaySid_lt : pttRelaySid < 2 ^ 16 := by decide

/-- The relay tag that holds these bytes. -/
def relayTag (data : List UInt8) (h : data.length < 2 ^ 16) : PppoeTag :=
  ⟨pttRelaySid, data, pttRelaySid_lt, h⟩

/-- The tags that stand for the client's relay tag in a reply without the bridge. -/
def Restored : Option (List UInt8) → List PppoeTag → Prop
  | none, ts => ts = []
  | some value, ts => ∃ t : PppoeTag, ts = [t] ∧ t.tagType = pttRelaySid ∧ t.tagData = value

/-- A PADO or a PADS that carries back the relay tag of a client: its address, and what its own relay tag
held, if it had one. `pre` stands before the first such tag. -/
structure PppoeReply (skb : RoomySkb) (f : PppoeFrame) (client : MacAddr) (old : Option (List UInt8))
    (pre post : List PppoeTag) : Prop where
  holds : skb.Holds f
  code : f.code = padoCode ∨ f.code = padsCode
  tags : ∃ t : PppoeTag, f.tags = pre ++ t :: post ∧ t.tagType = pttRelaySid
    ∧ t.tagData = netBytes magicCode ++ (client.bytes ++ old.getD []) ∧ t ∉ pre

/-- The reply goes to the client with its own relay tag, lengths exact. -/
def LookupRight (f : PppoeFrame) (client : MacAddr) (old : Option (List UInt8)) (pre post : List PppoeTag)
    (r : Int × PppoeInfo × RoomySkb) : Prop :=
  r.1 = 0 ∧ ∃ ts, Restored old ts ∧ r.2.2.Holds { f with dst := client, tags := pre ++ (ts ++ post) }

/-- `netBytes` is of 16 bits. -/
theorem netBytes_add (n : Nat) : netBytes (n + 2 ^ 16) = netBytes n := by
  have hhigh : UInt8.ofNat ((n + 2 ^ 16) / 256) = UInt8.ofNat (n / 256) := by
    rw [← UInt8.toNat_inj, UInt8.toNat_ofNat', UInt8.toNat_ofNat']
    omega
  have hlow : UInt8.ofNat (n + 2 ^ 16) = UInt8.ofNat n := by
    rw [← UInt8.toNat_inj, UInt8.toNat_ofNat', UInt8.toNat_ofNat']
    omega
  unfold netBytes
  rw [hhigh, hlow]

theorem netBytes_inj {n k : Nat} (hn : n < 2 ^ 16) (hk : k < 2 ^ 16) (h : netBytes n = netBytes k) : n = k := by
  obtain ⟨hhigh, hlow⟩ := List.cons.inj h
  have hhigh' := congrArg UInt8.toNat hhigh
  have hlow' := congrArg UInt8.toNat (List.cons.inj hlow).1
  rw [UInt8.toNat_ofNat', UInt8.toNat_ofNat'] at hhigh' hlow'
  omega

section

variable {skb : RoomySkb} {l₁ l₂ l₃ : List UInt8}

/-- **A range is taken out** and what is behind it closes up. -/
theorem pullAndMerge_read (skb : RoomySkb) (h : skb.data.read 0 skb.len = l₁ ++ (l₂ ++ l₃))
    {src len : Nat} (hsrc : src = l₁.length) (hlen : len = l₂.length) :
    ∃ skb', skbPullAndMerge skb src len = some skb' ∧ skb'.data.read 0 skb'.len = l₁ ++ l₃ := by
  subst hsrc hlen
  have hn : skb.len = l₁.length + (l₂.length + l₃.length) := by
    have hl := congrArg List.length h
    rwa [Mem.length_read, List.length_append, List.length_append] at hl
  have hin : ¬ (skb.len < l₁.length + l₂.length ∨ skb.len < l₂.length) := by omega
  refine ⟨_, if_neg hin, ?_⟩
  have hfront : skb.data.read 0 l₁.length = l₁ := by
    have hfirst : skb.data.read 0 skb.len = [] ++ (l₁ ++ (l₂ ++ l₃)) := h
    exact Mem.read_middle hfirst
  have hback : skb.data.read (l₁.length + l₂.length) l₃.length = l₃ := by
    have hassoc : skb.data.read 0 skb.len = (l₁ ++ l₂) ++ (l₃ ++ []) := by
      rw [h, List.append_nil, List.append_assoc]
    have hmid := Mem.read_middle hassoc
    rwa [List.length_append, Nat.zero_add] at hmid
  have hleft : skb.len - (l₁.length + l₂.length) = l₃.length := by omega
  have hnew : skb.len - l₂.length = l₁.length + l₃.length := by omega
  show (skb.data.copy _ skb.data _ (skb.len - (l₁.length + l₂.length))).read 0 (skb.len - l₂.length) = _
  rw [hleft, hnew, Mem.copy, hback]
  have happend : (skb.data.write (0 + l₁.length) l₃).read 0 (l₁.length + l₃.length)
      = skb.data.read 0 l₁.length ++ l₃ := Mem.read_write_append skb.data rfl
  rw [Nat.zero_add, hfront] at happend
  exact happend

/-- The length field of the PPPoE header, less a number. -/
theorem lessLength_read {n cut : Nat} (h : skb.data.read 0 skb.len = l₁ ++ (netBytes n ++ l₃))
    (hat : l₁.length = phLength) (hcut : cut ≤ n) (hn : n < 2 ^ 16) :
    (lessLength skb cut).data.read 0 skb.len = l₁ ++ (netBytes (n - cut) ++ l₃) := by
  have hfield : skb.data.be16 phLength = n := by
    have hmid := Mem.read_middle h
    rw [Nat.zero_add, hat] at hmid
    exact be16_netBytes hmid hn
  have hbytes : netBytes (n + 2 ^ 16 - cut) = netBytes (n - cut) := by
    have hsum : n + 2 ^ 16 - cut = (n - cut) + 2 ^ 16 := by omega
    rw [hsum, netBytes_add]
  have hwrite := Mem.read_write_splice h (show (netBytes (n - cut)).length = (netBytes n).length from rfl)
  rw [Nat.zero_add, hat] at hwrite
  show (skb.data.write phLength (netBytes (skb.data.be16 phLength + 2 ^ 16 - cut))).read 0 skb.len = _
  rw [hfield, hbytes]
  exact hwrite

end

section

variable {skb : RoomySkb} {f : PppoeFrame} {client : MacAddr} {pre post : List PppoeTag} {t : PppoeTag}
  {value : List UInt8}

/-- The frame of a reply, byte by byte around the relay tag. -/
theorem reply_read (h : skb.Holds f) (htags : f.tags = pre ++ t :: post) (htype : t.tagType = pttRelaySid)
    (hdata : t.tagData = netBytes magicCode ++ (client.bytes ++ value)) :
    skb.data.read 0 skb.len = f.dst.bytes ++ (f.middle ++ (netBytes (PppoeTag.total f.tags)
      ++ (PppoeTag.encode pre ++ (netBytes pttRelaySid ++ (netBytes (8 + value.length)
        ++ (netBytes magicCode ++ (client.bytes ++ (value ++ (PppoeTag.encode post ++ f.rest))))))))) := by
  have hlen : t.tagData.length = 8 + value.length := by
    rw [hdata, List.length_append, List.length_append, MacAddr.length_bytes, PppoeTag.length_netBytes]
    omega
  have hencode : PppoeTag.encode f.tags = PppoeTag.encode pre ++ (netBytes pttRelaySid
      ++ (netBytes (8 + value.length) ++ (netBytes magicCode ++ (client.bytes ++ (value
        ++ PppoeTag.encode post))))) := by
    rw [htags, PppoeTag.encode_append, PppoeTag.encode_cons, PppoeTag.bytes, htype, hlen, hdata]
    simp only [List.append_assoc]
  rw [h.1, PppoeFrame.bytes, hencode]
  simp only [List.append_assoc]

/-- What the handler reads of the relay tag, and the frame with the address of the client in front. -/
theorem reply_fields (h : skb.Holds f) (htags : f.tags = pre ++ t :: post) (htype : t.tagType = pttRelaySid)
    (hdata : t.tagData = netBytes magicCode ++ (client.bytes ++ value)) :
    skb.data.be16 (phTag + PppoeTag.total pre) = pttRelaySid
      ∧ skb.data.be16 (phTag + PppoeTag.total pre + 2) = 8 + value.length
      ∧ skb.data.be16 (phTag + PppoeTag.total pre + tagHdrLen) = magicCode
      ∧ (skb.data.copy 0 skb.data (phTag + PppoeTag.total pre + tagHdrLen + magicCodeLen) 6).read 0 skb.len
        = client.bytes ++ (f.middle ++ (netBytes (PppoeTag.total f.tags) ++ (PppoeTag.encode pre
          ++ (netBytes pttRelaySid ++ (netBytes (8 + value.length) ++ (netBytes magicCode
            ++ (client.bytes ++ (value ++ (PppoeTag.encode post ++ f.rest))))))))) := by
  have hread := reply_read h htags htype hdata
  obtain ⟨-, -, -, hpayload⟩ := h.fields
  rw [htags] at hpayload
  have hfields := tag_fields ((stand_cons.mp (stand_append.mp hpayload.1).2).1.trans (List.append_nil _).symm)
  have hlen : t.tagData.length = 8 + value.length := by
    rw [hdata, List.length_append, List.length_append, MacAddr.length_bytes, PppoeTag.length_netBytes]
    omega
  have hfront : (f.dst.bytes ++ (f.middle ++ (netBytes (PppoeTag.total f.tags)
      ++ (PppoeTag.encode pre ++ (netBytes pttRelaySid ++ netBytes (8 + value.length)))))).length
        = phTag + PppoeTag.total pre + tagHdrLen := by
    simp only [List.length_append, MacAddr.length_bytes, PppoeFrame.length_middle, PppoeTag.length_netBytes,
      PppoeTag.length_encode]
    have htag : phTag = 20 := rfl
    have hhdr : tagHdrLen = 4 := rfl
    omega
  have hmagic : skb.data.read 0 skb.len = (f.dst.bytes ++ (f.middle ++ (netBytes (PppoeTag.total f.tags)
      ++ (PppoeTag.encode pre ++ (netBytes pttRelaySid ++ netBytes (8 + value.length))))))
        ++ (netBytes magicCode ++ (client.bytes ++ (value ++ (PppoeTag.encode post ++ f.rest)))) := by
    rw [hread]
    simp only [List.append_assoc]
  have hclient : skb.data.read 0 skb.len = ((f.dst.bytes ++ (f.middle ++ (netBytes (PppoeTag.total f.tags)
      ++ (PppoeTag.encode pre ++ (netBytes pttRelaySid ++ netBytes (8 + value.length))))))
        ++ netBytes magicCode) ++ (client.bytes ++ (value ++ (PppoeTag.encode post ++ f.rest))) := by
    rw [hmagic, List.append_assoc _ (netBytes magicCode)]
  have hmagicAt := Mem.read_middle hmagic
  have hclientAt := Mem.read_middle hclient
  rw [Nat.zero_add, hfront] at hmagicAt
  rw [List.length_append, Nat.zero_add, hfront] at hclientAt
  refine ⟨hfields.1.trans htype, hfields.2.trans hlen, be16_netBytes hmagicAt (by decide), ?_⟩
  have hcopy : skb.data.copy 0 skb.data (phTag + PppoeTag.total pre + tagHdrLen + magicCodeLen) 6
      = skb.data.write 0 client.bytes := congrArg (skb.data.write 0) hclientAt
  have hfirst : skb.data.read 0 skb.len = [] ++ (f.dst.bytes ++ _) := hread
  have hsplice := Mem.read_write_splice hfirst (show client.bytes.length = f.dst.bytes.length from rfl)
  rw [hcopy]
  exact hsplice

/-- The reply's relay tag is the one that is found. -/
theorem reply_find (h : skb.Holds f) (htags : f.tags = pre ++ t :: post) (htype : t.tagType = pttRelaySid)
    (hpre : ∀ s ∈ pre, s.tagType ≠ pttRelaySid) :
    nat25FindPppoeTag skb.data pttRelaySid = some (phTag + PppoeTag.total pre) := by
  obtain ⟨-, -, -, hpayload⟩ := h.fields
  rw [htags] at hpayload
  rw [← htype] at hpre ⊢
  exact find_split hpayload hpre

/-- The handler from where the address of the client is in front. -/
theorem lookup_pulled {ptr tagLen offset : Nat} {pulled : RoomySkb}
    (hfound : nat25FindPppoeTag skb.data pttRelaySid = some ptr) (htypeAt : skb.data.be16 ptr = pttRelaySid)
    (hlenAt : skb.data.be16 (ptr + 2) = tagLen) (hlong : 8 ≤ tagLen)
    (hmagicAt : skb.data.be16 (ptr + tagHdrLen) = magicCode)
    (hoffset : (if magicCodeLen + rtlRelayTagLen < tagLen then tagHdrLen else 0) = offset)
    (hpull : skbPullAndMerge { skb with
      data := skb.data.copy 0 skb.data (ptr + tagHdrLen + magicCodeLen) 6 } (ptr + offset) (12 - offset)
        = some pulled) :
    lookupRelayTag skb = if 0 < offset then
      (0, { lessLength pulled (12 - offset) with
        data := (lessLength pulled (12 - offset)).data.write (ptr + 2) (netBytes (tagLen - 8)) })
      else (0, lessLength pulled (12 - offset)) := by
  have htag : ¬ (pttRelaySid ≠ pttRelaySid ∨ tagLen < magicCodeLen + rtlRelayTagLen) := by
    rintro (h | h)
    · exact h rfl
    · exact absurd h (Nat.not_lt.mpr hlong)
  have hcode : ¬ magicCode ≠ magicCode := not_not_intro rfl
  unfold lookupRelayTag
  simp only [hfound, hlenAt, htypeAt, hmagicAt, hoffset, if_neg htag, if_neg hcode]
  have hcut : tagHdrLen + magicCodeLen + rtlRelayTagLen - offset = 12 - offset := rfl
  rw [hcut, hpull]
  rfl

/-- **A tag with nothing of the client's** is taken out whole. -/
theorem lookup_empty (h : skb.Holds f) (htags : f.tags = pre ++ t :: post) (htype : t.tagType = pttRelaySid)
    (hdata : t.tagData = netBytes magicCode ++ (client.bytes ++ []))
    (hpre : ∀ s ∈ pre, s.tagType ≠ pttRelaySid) :
    ∃ skb', lookupRelayTag skb = (0, skb')
      ∧ skb'.data.read 0 skb'.len = client.bytes ++ (f.middle ++ (netBytes (PppoeTag.total (pre ++ post))
        ++ (PppoeTag.encode (pre ++ post) ++ f.rest))) := by
  have hfound := reply_find h htags htype hpre
  obtain ⟨htypeAt, hlenAt, hmagicAt, hread⟩ := reply_fields h htags htype hdata
  have hsplit : (skb.data.copy 0 skb.data (phTag + PppoeTag.total pre + tagHdrLen + magicCodeLen) 6).read 0
      skb.len = (client.bytes ++ (f.middle ++ (netBytes (PppoeTag.total f.tags) ++ PppoeTag.encode pre)))
        ++ ((netBytes pttRelaySid ++ (netBytes (8 + ([] : List UInt8).length)
          ++ (netBytes magicCode ++ client.bytes))) ++ (PppoeTag.encode post ++ f.rest)) := by
    rw [hread]
    simp only [List.append_assoc, List.nil_append]
  have hsrc : phTag + PppoeTag.total pre
      = (client.bytes ++ (f.middle ++ (netBytes (PppoeTag.total f.tags) ++ PppoeTag.encode pre))).length := by
    simp only [List.length_append, MacAddr.length_bytes, PppoeFrame.length_middle, PppoeTag.length_netBytes,
      PppoeTag.length_encode]
    have htag : phTag = 20 := rfl
    omega
  obtain ⟨pulled, hpull, hpulled⟩ := pullAndMerge_read
    { skb with data := skb.data.copy 0 skb.data (phTag + PppoeTag.total pre + tagHdrLen + magicCodeLen) 6 }
    hsplit hsrc (show 12 = _ from rfl)
  have htotal : PppoeTag.total f.tags = PppoeTag.total (pre ++ post) + 12 := by
    have hsize : t.size = 12 := by
      show 4 + t.tagData.length = 12
      rw [hdata]
      rfl
    rw [htags, PppoeTag.total_append, PppoeTag.total_append, PppoeTag.total_cons, hsize]
    omega
  have hfield : pulled.data.read 0 pulled.len = (client.bytes ++ f.middle)
      ++ (netBytes (PppoeTag.total f.tags) ++ (PppoeTag.encode (pre ++ post) ++ f.rest)) := by
    rw [hpulled, PppoeTag.encode_append]
    simp only [List.append_assoc]
  have hless := lessLength_read hfield rfl (show 12 ≤ PppoeTag.total f.tags by omega) h.2
  refine ⟨lessLength pulled 12, ?_, ?_⟩
  · exact lookup_pulled hfound htypeAt hlenAt (by decide) hmagicAt rfl hpull
  · have hlen : PppoeTag.total f.tags - 12 = PppoeTag.total (pre ++ post) := by omega
    rw [hlen] at hless
    rw [← List.append_assoc client.bytes]
    exact hless

/-- **A tag with a value of the client's** keeps its header and that value. -/
theorem lookup_value (h : skb.Holds f) (htags : f.tags = pre ++ t :: post) (htype : t.tagType = pttRelaySid)
    (hdata : t.tagData = netBytes magicCode ++ (client.bytes ++ value))
    (hpre : ∀ s ∈ pre, s.tagType ≠ pttRelaySid) (hvalue : 0 < value.length) (t' : PppoeTag)
    (htype' : t'.tagType = pttRelaySid) (hdata' : t'.tagData = value) :
    ∃ skb', lookupRelayTag skb = (0, skb')
      ∧ skb'.data.read 0 skb'.len = client.bytes ++ (f.middle
        ++ (netBytes (PppoeTag.total (pre ++ t' :: post))
          ++ (PppoeTag.encode (pre ++ t' :: post) ++ f.rest))) := by
  have hfound := reply_find h htags htype hpre
  obtain ⟨htypeAt, hlenAt, hmagicAt, hread⟩ := reply_fields h htags htype hdata
  have htag : phTag = 20 := rfl
  have hhdr : tagHdrLen = 4 := rfl
  have hsplit : (skb.data.copy 0 skb.data (phTag + PppoeTag.total pre + tagHdrLen + magicCodeLen) 6).read 0
      skb.len = (client.bytes ++ (f.middle ++ (netBytes (PppoeTag.total f.tags) ++ (PppoeTag.encode pre
          ++ (netBytes pttRelaySid ++ netBytes (8 + value.length))))))
        ++ ((netBytes magicCode ++ client.bytes) ++ (value ++ (PppoeTag.encode post ++ f.rest))) := by
    rw [hread]
    simp only [List.append_assoc]
  have hsrc : phTag + PppoeTag.total pre + 4
      = (client.bytes ++ (f.middle ++ (netBytes (PppoeTag.total f.tags) ++ (PppoeTag.encode pre
          ++ (netBytes pttRelaySid ++ netBytes (8 + value.length)))))).length := by
    simp only [List.length_append, MacAddr.length_bytes, PppoeFrame.length_middle, PppoeTag.length_netBytes,
      PppoeTag.length_encode]
    omega
  obtain ⟨pulled, hpull, hpulled⟩ := pullAndMerge_read
    { skb with data := skb.data.copy 0 skb.data (phTag + PppoeTag.total pre + tagHdrLen + magicCodeLen) 6 }
    hsplit hsrc (show 8 = _ from rfl)
  have htotal : PppoeTag.total f.tags = PppoeTag.total (pre ++ t' :: post) + 8 := by
    have hsize : t.size = t'.size + 8 := by
      show 4 + t.tagData.length = 4 + t'.tagData.length + 8
      rw [hdata, hdata', List.length_append, List.length_append, MacAddr.length_bytes,
        PppoeTag.length_netBytes]
      omega
    rw [htags, PppoeTag.total_append, PppoeTag.total_append, PppoeTag.total_cons, PppoeTag.total_cons, hsize]
    omega
  have hfield : pulled.data.read 0 pulled.len = (client.bytes ++ f.middle)
      ++ (netBytes (PppoeTag.total f.tags) ++ (PppoeTag.encode pre ++ (netBytes pttRelaySid
        ++ (netBytes (8 + value.length) ++ (value ++ (PppoeTag.encode post ++ f.rest)))))) := by
    rw [hpulled]
    simp only [List.append_assoc]
  have hless := lessLength_read hfield rfl (show 8 ≤ PppoeTag.total f.tags by omega) h.2
  have hlen : PppoeTag.total f.tags - 8 = PppoeTag.total (pre ++ t' :: post) := by omega
  rw [hlen] at hless
  -- the header that is left gets the length of the value
  have hheader : (lessLength pulled 8).data.read 0 pulled.len
      = (client.bytes ++ (f.middle ++ (netBytes (PppoeTag.total (pre ++ t' :: post)) ++ (PppoeTag.encode pre
          ++ netBytes pttRelaySid))))
        ++ (netBytes (8 + value.length) ++ (value ++ (PppoeTag.encode post ++ f.rest))) := by
    rw [hless]
    simp only [List.append_assoc]
  have hat : (client.bytes ++ (f.middle ++ (netBytes (PppoeTag.total (pre ++ t' :: post))
      ++ (PppoeTag.encode pre ++ netBytes pttRelaySid)))).length = phTag + PppoeTag.total pre + 2 := by
    simp only [List.length_append, MacAddr.length_bytes, PppoeFrame.length_middle, PppoeTag.length_netBytes,
      PppoeTag.length_encode]
    omega
  have hdone := Mem.read_write_splice hheader
    (show (netBytes (8 + value.length - 8)).length = (netBytes (8 + value.length)).length from rfl)
  rw [hat, Nat.zero_add, Nat.add_sub_cancel_left] at hdone
  have hoffset : (if magicCodeLen + rtlRelayTagLen < 8 + value.length then tagHdrLen else 0) = 4 :=
    if_pos (Nat.lt_add_of_pos_right hvalue)
  have hresult := lookup_pulled hfound htypeAt hlenAt (Nat.le_add_right _ _) hmagicAt hoffset hpull
  rw [if_pos (by decide), Nat.add_sub_cancel_left] at hresult
  refine ⟨_, hresult, ?_⟩
  have hencode : PppoeTag.encode (pre ++ t' :: post) ++ f.rest = PppoeTag.encode pre ++ (netBytes pttRelaySid
      ++ (netBytes value.length ++ (value ++ (PppoeTag.encode post ++ f.rest)))) := by
    rw [PppoeTag.encode_append, PppoeTag.encode_cons, PppoeTag.bytes, htype', hdata']
    simp only [List.append_assoc]
  refine hdone.trans ?_
  rw [hencode]
  simp only [List.append_assoc]

/-- A reply that is accepted has an address in its first relay tag. -/
theorem lookup_accepts (h : skb.Holds f) (htags : f.tags = pre ++ t :: post) (htype : t.tagType = pttRelaySid)
    (hpre : ∀ s ∈ pre, s.tagType ≠ pttRelaySid) (hzero : (lookupRelayTag skb).1 = 0) :
    ∃ (client : MacAddr) (value : List UInt8), t.tagData = netBytes magicCode ++ (client.bytes ++ value) := by
  have hfound := reply_find h htags htype hpre
  obtain ⟨-, -, -, hpayload⟩ := h.fields
  rw [htags] at hpayload
  have htagAt := (stand_cons.mp (stand_append.mp hpayload.1).2).1
  have hlenAt := (tag_fields (htagAt.trans (List.append_nil _).symm)).2
  have hdataAt : skb.data.read (phTag + PppoeTag.total pre + 4) t.tagData.length = t.tagData := by
    have hbytes : skb.data.read (phTag + PppoeTag.total pre) t.size
        = (netBytes t.tagType ++ netBytes t.tagData.length) ++ (t.tagData ++ []) := by
      rw [htagAt, List.append_nil, List.append_assoc]
      rfl
    exact Mem.read_middle hbytes
  unfold lookupRelayTag at hzero
  simp only [hfound, hlenAt] at hzero
  split at hzero
  · cases hzero
  · next hlong =>
    split at hzero
    · cases hzero
    · next hmagic =>
      have hcode : skb.data.be16 (phTag + PppoeTag.total pre + 4) = magicCode := not_not.mp hmagic
      have hsplit : t.tagData.length = 2 + (6 + (t.tagData.length - 8)) := by
        have hshort := not_or.mp hlong
        have hmagicLen : magicCodeLen = 2 := rfl
        have hrelayLen : rtlRelayTagLen = 6 := rfl
        omega
      refine ⟨.ofMem skb.data (phTag + PppoeTag.total pre + 4 + 2),
        skb.data.read (phTag + PppoeTag.total pre + 4 + 2 + 6) (t.tagData.length - 8), ?_⟩
      calc
        t.tagData = skb.data.read (phTag + PppoeTag.total pre + 4) (2 + (6 + (t.tagData.length - 8))) := by
          rw [← hsplit, hdataAt]
        _ = _ := by
          rw [Mem.read_add, Mem.read_add, ← netBytes_be16, hcode]
          rfl

/-- A frame says where it goes and what its tags are. -/
theorem PppoeFrame.bytes_inj {a b : MacAddr} {xs ys : List PppoeTag}
    (h : ({ f with dst := a, tags := xs } : PppoeFrame).bytes
      = ({ f with dst := b, tags := ys } : PppoeFrame).bytes) :
    a.bytes = b.bytes ∧ PppoeTag.encode xs = PppoeTag.encode ys := by
  obtain ⟨haddr, hbehind⟩ := List.append_inj h rfl
  obtain ⟨-, hlength⟩ := List.append_inj hbehind rfl
  obtain ⟨-, htags⟩ := List.append_inj hlength rfl
  exact ⟨haddr, List.append_cancel_right htags⟩

/-- A tag without its address and magic code begins another way. -/
theorem encode_head_ne {s s' : PppoeTag} (hlen : s.tagData.length = 8 + s'.tagData.length)
    (xs ys : List PppoeTag) : PppoeTag.encode (s' :: xs) ≠ PppoeTag.encode (s :: ys) := by
  intro h
  rw [PppoeTag.encode_cons, PppoeTag.encode_cons, PppoeTag.bytes, PppoeTag.bytes, List.append_assoc,
    List.append_assoc, List.append_assoc, List.append_assoc] at h
  obtain ⟨-, hbehind⟩ := List.append_inj h rfl
  obtain ⟨hlens, -⟩ := List.append_inj hbehind rfl
  have hsame := netBytes_inj s'.short s.short hlens
  omega

/-- **Another relay tag in front** is taken for the one that was carried back. -/
theorem lookup_other_wrong {s : PppoeTag} {pre₂ : List PppoeTag} {old : Option (List UInt8)} (h : skb.Holds f)
    (htags : f.tags = pre ++ s :: (pre₂ ++ t :: post)) (hs : s.tagType = pttRelaySid)
    (hpre : ∀ x ∈ pre, x.tagType ≠ pttRelaySid) (htype : t.tagType = pttRelaySid)
    (hdata : t.tagData = netBytes magicCode ++ (client.bytes ++ old.getD [])) (hne : s ≠ t)
    (hzero : (lookupRelayTag skb).1 = 0) {ts : List PppoeTag} (hrestored : Restored old ts) :
    ¬ (lookupRelayTag skb).2.Holds { f with dst := client, tags := pre ++ s :: (pre₂ ++ (ts ++ post)) } := by
  intro hholds
  obtain ⟨other, value, hother⟩ := lookup_accepts h htags hs hpre hzero
  have hsLen : s.tagData.length = 8 + value.length := by
    rw [hother, List.length_append, List.length_append, MacAddr.length_bytes, PppoeTag.length_netBytes]
    omega
  have htLen : t.tagData.length = 8 + (old.getD []).length := by
    rw [hdata, List.length_append, List.length_append, MacAddr.length_bytes, PppoeTag.length_netBytes]
    omega
  cases value with
  | nil =>
      -- the other tag has nothing behind the address, and the whole tag is taken out
      obtain ⟨skb', hresult, hread⟩ := lookup_empty h htags hs hother hpre
      rw [hresult] at hholds
      obtain ⟨haddr, hencode⟩ := PppoeFrame.bytes_inj (hread.symm.trans hholds.1)
      have htotal := congrArg List.length hencode
      have hsSize : s.size = 4 + s.tagData.length := rfl
      have htSize : t.size = 4 + t.tagData.length := rfl
      simp only [PppoeTag.length_encode, PppoeTag.total_append, PppoeTag.total_cons] at htotal
      cases old with
      | none =>
          -- both tags empty: they would be the same
          refine hne (PppoeTag.ext (hs.trans htype.symm) ?_)
          rw [hother, hdata, haddr]
          rfl
      | some old =>
          obtain ⟨t', rfl, -, hdata'⟩ := hrestored
          have hsize' : t'.size = 4 + t'.tagData.length := rfl
          have hold : (some old).getD [] = t'.tagData := hdata'.symm
          rw [hold] at htLen
          simp only [PppoeTag.total_cons, PppoeTag.total_nil, List.length_nil] at htotal hsLen
          omega
  | cons b bs =>
      -- it has, and what is put back is shorter than the tag that was there
      have hshort : (b :: bs).length < 2 ^ 16 := by
        have hs := s.short
        omega
      obtain ⟨skb', hresult, hread⟩ := lookup_value h htags hs hother hpre (Nat.succ_pos _)
        (relayTag (b :: bs) hshort) rfl rfl
      rw [hresult] at hholds
      obtain ⟨-, hencode⟩ := PppoeFrame.bytes_inj (hread.symm.trans hholds.1)
      rw [PppoeTag.encode_append, PppoeTag.encode_append] at hencode
      exact encode_head_ne hsLen _ _ (List.append_cancel_left hencode)

/-- What `nat25_db_handle` comes to for a reply. -/
theorem pppoeLookup_reply (h : skb.Holds f) (hcode : f.code = padoCode ∨ f.code = padsCode) {p : PppoeInfo}
    (hp : p.addPppoeTag = true) :
    pppoeLookup p skb = ((lookupRelayTag skb).1, p, (lookupRelayTag skb).2) := by
  have hreply : skb.data phCode = padoCode ∨ skb.data phCode = padsCode := by
    rw [h.fields.1]
    exact hcode
  unfold pppoeLookup
  simp only [hreply, hp, if_true]

end

section

variable {skb : RoomySkb} {f : PppoeFrame} {client : MacAddr} {old : Option (List UInt8)}
  {pre post : List PppoeTag} {p : PppoeInfo}

/-- With no other relay tag in front, a reply is right exactly if the client's own relay tag was not empty. -/
theorem lookup_first_iff (h : PppoeReply skb f client old pre post) (hp : p.addPppoeTag = true)
    (hpre : ∀ s ∈ pre, s.tagType ≠ pttRelaySid) :
    LookupRight f client old pre post (pppoeLookup p skb) ↔ old ≠ some [] := by
  obtain ⟨t, htags, htype, hdata, -⟩ := h.tags
  have hfits := h.holds.2
  rw [pppoeLookup_reply h.holds h.code hp]
  cases hvalue : old.getD [] with
  | nil =>
      rw [hvalue] at hdata
      obtain ⟨skb', hresult, hread⟩ := lookup_empty h.holds htags htype hdata hpre
      rw [hresult]
      have hshorter : PppoeTag.total (pre ++ post) < 2 ^ 16 := by
        rw [htags, PppoeTag.total_append, PppoeTag.total_cons] at hfits
        rw [PppoeTag.total_append]
        omega
      cases old with
      | none =>
          refine iff_of_true ⟨rfl, [], rfl, hread, hshorter⟩ ?_
          intro hsome
          cases hsome
      | some value =>
          have hempty : value = [] := hvalue
          subst hempty
          refine iff_of_false ?_ fun hne => hne rfl
          -- an empty tag would take four bytes
          rintro ⟨-, ts, ⟨t', rfl, -, hdata'⟩, hholds⟩
          have hlen := hholds.len_eq
          have hlen' := congrArg List.length hread
          have hsize : 4 ≤ t'.size := Nat.le_add_right _ _
          have htag : phTag = 20 := rfl
          simp only [Mem.length_read, List.length_append, MacAddr.length_bytes, PppoeFrame.length_middle,
            PppoeTag.length_netBytes, PppoeTag.length_encode, PppoeTag.total_append] at hlen'
          simp only [PppoeTag.total_append, PppoeTag.total_cons, PppoeTag.total_nil] at hlen
          omega
  | cons b bs =>
      rw [hvalue] at hdata
      have hold : old = some (b :: bs) := by
        cases old with
        | none => cases hvalue
        | some value => exact congrArg some hvalue
      have hshort : (b :: bs).length < 2 ^ 16 := by
        have hdataShort := t.short
        rw [hdata, List.length_append, List.length_append] at hdataShort
        omega
      obtain ⟨skb', hresult, hread⟩ := lookup_value h.holds htags htype hdata hpre (Nat.succ_pos _)
        (relayTag (b :: bs) hshort) rfl rfl
      rw [hresult, hold]
      refine iff_of_true ⟨rfl, [relayTag (b :: bs) hshort], ⟨_, rfl, rfl, rfl⟩, hread, ?_⟩ ?_
      · rw [htags, PppoeTag.total_append, PppoeTag.total_cons] at hfits
        have hsize : t.size = 4 + (8 + (b :: bs).length) := by
          show 4 + t.tagData.length = _
          rw [hdata, List.length_append, List.length_append, MacAddr.length_bytes, PppoeTag.length_netBytes]
          omega
        show PppoeTag.total (pre ++ ([_] ++ post)) < 2 ^ 16
        rw [PppoeTag.total_append, PppoeTag.total_append, PppoeTag.total_cons, PppoeTag.total_nil]
        show PppoeTag.total pre + (4 + (b :: bs).length + 0 + PppoeTag.total post) < 2 ^ 16
        omega
      · intro hsome
        cases hsome

/-- **A reply is right exactly if its relay tag is the first one, and the client's own was not empty.** -/
theorem lookup_right_iff (h : PppoeReply skb f client old pre post) (hp : p.addPppoeTag = true) :
    LookupRight f client old pre post (pppoeLookup p skb)
      ↔ (∀ s ∈ pre, s.tagType ≠ pttRelaySid) ∧ old ≠ some [] := by
  by_cases hpre : ∀ s ∈ pre, s.tagType ≠ pttRelaySid
  · rw [lookup_first_iff h hp hpre]
    exact ⟨fun hold => ⟨hpre, hold⟩, fun hboth => hboth.2⟩
  · refine iff_of_false ?_ fun hboth => hpre hboth.1
    rw [pppoeLookup_reply h.holds h.code hp]
    obtain ⟨t, htags, htype, hdata, hmem⟩ := h.tags
    cases hfind : pre.find? PppoeTag.isRelay with
    | none =>
        refine absurd (fun s hs htype => ?_) hpre
        exact List.find?_eq_none.mp hfind s hs (decide_eq_true htype)
    | some s =>
        obtain ⟨hrelay, pre₁, pre₂, rfl, hbefore⟩ := List.find?_eq_some_iff_append.mp hfind
        have hs : s.tagType = pttRelaySid := of_decide_eq_true hrelay
        have hne : s ≠ t := by
          rintro rfl
          exact hmem (List.mem_append_right _ List.mem_cons_self)
        rw [List.append_assoc, List.cons_append] at htags
        rintro ⟨hzero, ts, hrestored, hholds⟩
        rw [List.append_assoc, List.cons_append] at hholds
        exact lookup_other_wrong h.holds htags hs (notRelay_of hbefore) htype hdata hne hzero hrestored hholds

end

/-- **Relay tags are never put right, and are taken out right exactly if they come first and the client's was
not empty.** -/
theorem relay_tags_iff {p : PppoeInfo} (hp : p.addPppoeTag = true) :
    (∀ (skb : RoomySkb) (f : PppoeFrame) (tagBuf : Mem), PppoeRequest skb f →
        ¬ InsertRight f (pppoeInsert p skb tagBuf))
      ∧ ∀ (skb : RoomySkb) (f : PppoeFrame) (client : MacAddr) (old : Option (List UInt8))
        (pre post : List PppoeTag), PppoeReply skb f client old pre post →
        (LookupRight f client old pre post (pppoeLookup p skb)
          ↔ (∀ s ∈ pre, s.tagType ≠ pttRelaySid) ∧ old ≠ some []) :=
  ⟨fun _ _ tagBuf h => insert_not_right h hp tagBuf, fun _ _ _ _ _ _ h => lookup_right_iff h hp⟩

/-! ## A request and replies -/

/-- The buffer of a frame. -/
def PppoeFrame.skb (f : PppoeFrame) (room : Nat) : RoomySkb where
  data := memOf f.bytes
  len := f.bytes.length
  tailroom := room

theorem PppoeFrame.skb_holds {f : PppoeFrame} {room : Nat} (h : PppoeTag.total f.tags < 2 ^ 16) :
    (f.skb room).Holds f := by
  refine ⟨?_, h⟩
  show (memOf f.bytes).read 0 f.bytes.length = f.bytes
  rw [read_memOf, List.drop_zero, List.take_length, Nat.sub_zero, Nat.sub_self, List.replicate_zero,
    List.append_nil]

def sampleClient : MacAddr := ⟨2, 0, 0, 0, 0, 1⟩

/-- A frame between the client and all stations, or the bridge. -/
def discovery (code : UInt8) (sid : Fin (2 ^ 16)) (tags : List PppoeTag) : PppoeFrame where
  dst := .bcast
  src := sampleClient
  verType := 0x11
  code := code
  sid := sid
  tags := tags
  rest := []

theorem padi_request (room : Nat) (h : 12 ≤ room) :
    PppoeRequest ((discovery padiCode 0 []).skb room) (discovery padiCode 0 []) where
  holds := PppoeFrame.skb_holds (by decide)
  code := Or.inl rfl
  one := by decide
  short := fun _ ht => absurd ht List.not_mem_nil
  room := h

theorem answer_short : (netBytes magicCode ++ (sampleClient.bytes ++ [7])).length < 2 ^ 16 := by decide

theorem emptyAnswer_short : (netBytes magicCode ++ (sampleClient.bytes ++ [])).length < 2 ^ 16 := by decide

/-- The relay tag of a client whose own holds one byte, and of one whose own is empty. -/
def answerTag : PppoeTag := relayTag _ answer_short
def emptyAnswerTag : PppoeTag := relayTag _ emptyAnswer_short

/-- A Service-Name. -/
def serviceTag : PppoeTag := ⟨0x0101, [0x69, 0x73, 0x70], by decide, by decide⟩

theorem emptyPado_reply : PppoeReply ((discovery padoCode 0 [emptyAnswerTag]).skb 0)
    (discovery padoCode 0 [emptyAnswerTag]) sampleClient (some []) [] [] where
  holds := PppoeFrame.skb_holds (by decide)
  code := Or.inl rfl
  tags := ⟨emptyAnswerTag, rfl, rfl, rfl, List.not_mem_nil⟩

/-- A PADS of session 7, with another tag on either side of the relay tag. -/
theorem pads_reply : PppoeReply ((discovery padsCode 7 [serviceTag, answerTag, serviceTag]).skb 0)
    (discovery padsCode 7 [serviceTag, answerTag, serviceTag]) sampleClient (some [7]) [serviceTag]
    [serviceTag] where
  holds := PppoeFrame.skb_holds (by decide)
  code := Or.inr rfl
  tags := by
    refine ⟨answerTag, rfl, rfl, rfl, fun hmem => ?_⟩
    have hdata := congrArg PppoeTag.tagData (List.mem_singleton.mp hmem)
    exact absurd hdata (by decide)

/-- The bridge adds relay tags. -/
def sampleInfo : PppoeInfo where
  addPppoeTag := true
  connectionInProgress := 0
  pppoeAddr := .zero

theorem relay_tags_sample :
    ¬ InsertRight (discovery padiCode 0 []) (pppoeInsert sampleInfo ((discovery padiCode 0 []).skb 64) (memOf []))
      ∧ LookupRight (discovery padsCode 7 [serviceTag, answerTag, serviceTag]) sampleClient (some [7])
        [serviceTag] [serviceTag]
        (pppoeLookup sampleInfo ((discovery padsCode 7 [serviceTag, answerTag, serviceTag]).skb 0)) := by
  have hp : sampleInfo.addPppoeTag = true := rfl
  obtain ⟨hinsert, hlookup⟩ := relay_tags_iff hp
  refine ⟨hinsert _ _ _ (padi_request 64 (by decide)), (hlookup _ _ _ _ _ _ pads_reply).mpr ⟨?_, ?_⟩⟩
  · intro s hs
    rw [List.mem_singleton.mp hs]
    decide
  · intro hempty
    cases hempty

/-- A PADI without a relay tag, with little room behind it and with much, and a reply to a client whose own
relay tag was empty. -/
theorem relay_tags_wrong :
    ¬ InsertRight (discovery padiCode 0 []) (pppoeInsert sampleInfo ((discovery padiCode 0 []).skb 12) (memOf []))
      ∧ ¬ InsertRight (discovery padiCode 0 [])
        (pppoeInsert sampleInfo ((discovery padiCode 0 []).skb 4096) (memOf []))
      ∧ ¬ LookupRight (discovery padoCode 0 [emptyAnswerTag]) sampleClient (some []) [] []
        (pppoeLookup sampleInfo ((discovery padoCode 0 [emptyAnswerTag]).skb 0)) := by
  refine ⟨insert_not_right (padi_request 12 (by decide)) rfl _,
    insert_not_right (padi_request 4096 (by decide)) rfl _, fun hright => ?_⟩
  exact ((lookup_right_iff emptyPado_reply rfl).mp hright).2 rfl

end Rtl8812au.Nat25
