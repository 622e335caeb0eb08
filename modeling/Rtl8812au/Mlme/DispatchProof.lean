import Rtl8812au.Mlme.ClientProof
import Rtl8812au.Mlme.Dispatch

/-!
# No authentication frame is ever handled

The dispatcher rewrites its own table, but only where it is about to look, so that what is called depends on
the frame and the mode alone: an authentication frame calls nothing, and an association request calls the
handler for authentication frames.
-/

namespace Rtl8812au

/-! ## The table -/

/-- The indices of the entries that are written. -/
def mgtWritten (i : Nat) : Prop := i = wifiAssocReq >>> 4 ∨ i = wifiReassocReq >>> 4 ∨ i = wifiAuth >>> 4

/-- The rest of the table is as it was compiled. -/
structure TableKept (table : List MlmeHandler) : Prop where
  length : table.length = mlmeStaTbl.length
  others : ∀ i, ¬ mgtWritten i → table[i]? = mlmeStaTbl[i]?

theorem tableKept_start : TableKept mlmeStaTbl := ⟨rfl, fun _ _ => rfl⟩

/-- **Kept by a write** to an entry that may be written. -/
theorem TableKept.set {table : List MlmeHandler} (h : TableKept table) {i : Nat} (hi : mgtWritten i)
    (x : MlmeHandler) : TableKept (table.set i x) := by
  refine ⟨List.length_set.trans h.length, fun j hj => ?_⟩
  have hne : i ≠ j := fun he => hj (he ▸ hi)
  rw [List.getElem?_set_ne hne]
  exact h.others j hj

/-- The type bits of a management frame are zero. -/
theorem mgt_subtype {m : Mem} {p : Nat} (h : Wifi.getFrameType m p = .mgt) :
    Wifi.getFrameSubType m p = (Wifi.getFrameSubType m p >>> 4) * 16 := by
  have htype : m.le16 p &&& 0xc = 0 := by
    unfold Wifi.getFrameType at h
    split at h <;> first | assumption | cases h
  unfold Wifi.getFrameSubType
  have hmask : m.le16 p &&& 0xfc = m.le16 p &&& 0xf0 := by
    rw [show (0xfc : Nat) = 0xf0 ||| 0xc from rfl, Nat.and_or_distrib_left, htype, Nat.or_zero]
  rw [hmask, ← Nat.shiftLeft_eq _ 4]
  apply Nat.eq_of_testBit_eq
  intro i
  rw [Nat.testBit_shiftLeft, Nat.testBit_shiftRight, Nat.testBit_and]
  by_cases hi : 4 ≤ i
  · simp [hi, Nat.testBit_and]
  · have hlow : i = 0 ∨ i = 1 ∨ i = 2 ∨ i = 3 := by omega
    rcases hlow with rfl | rfl | rfl | rfl <;> simp +decide

/-! ## What is called -/

/-- What a frame with this subtype calls. -/
def mgtHandlers (ap : Bool) (subtype : Nat) : List MgtCall :=
  if subtype = wifiAuth then []
  else if subtype = wifiAssocReq ∨ subtype = wifiReassocReq then
    if ap then [.func .onAuth, .hostapd] else [.func .onAuthClient]
  else if subtype = wifiProbeReq then [.func .onProbeReq]
  else if subtype = wifiBeacon then [.func .onBeacon]
  else if subtype = wifiAction then [.func .onAction]
  else (mlmeStaTbl[subtype >>> 4]?.map .func).toList ++ if ap then [.hostapd] else []

/-- A frame the dispatcher looks at: for this station, and of a known kind. -/
def MgtAddressed (me : MacAddr) (f : RecvFrame) : Prop :=
  Wifi.getFrameType f.buf f.rxData = .mgt ∧ mgtForMe me f = true
    ∧ Wifi.getFrameSubType f.buf f.rxData >>> 4 < mlmeStaTbl.length

namespace MgtDispatcher

variable {d d' : MgtDispatcher} {me : MacAddr} {ap : Bool} {f : RecvFrame}

theorem mgtFunc_eq (hme : mgtForMe me f = true) (h : Option MlmeHandler) :
    mgtFunc me h f = (h.map .func).toList := by
  cases h with
  | none => rfl
  | some h => exact if_pos hme

/-- **The branches call what the table was compiled to, and keep it so.** -/
theorem serve_spec (h : TableKept d.table) (hme : mgtForMe me f = true)
    (htype : Wifi.getFrameType f.buf f.rxData = .mgt)
    (hlt : Wifi.getFrameSubType f.buf f.rxData >>> 4 < mlmeStaTbl.length) :
    (d.serve me ap f (Wifi.getFrameSubType f.buf f.rxData >>> 4)).2
        = mgtHandlers ap (Wifi.getFrameSubType f.buf f.rxData)
      ∧ TableKept (d.serve me ap f (Wifi.getFrameSubType f.buf f.rxData >>> 4)).1.table
      ∧ (d.serve me ap f (Wifi.getFrameSubType f.buf f.rxData >>> 4)).1.rxMgmtFrameSeqNum
        = d.rxMgmtFrameSeqNum := by
  have hsub := mgt_subtype htype
  unfold serve mgtHandlers
  dsimp only
  generalize Wifi.getFrameSubType f.buf f.rxData = subtype at hsub hlt ⊢
  by_cases hw : subtype = wifiAuth ∨ subtype = wifiAssocReq ∨ subtype = wifiReassocReq
  · have hwritten : mgtWritten (subtype >>> 4) := by
      rcases hw with rfl | rfl | rfl
      · exact Or.inr (Or.inr rfl)
      · exact Or.inl rfl
      · exact Or.inr (Or.inl rfl)
    rw [if_pos hw]
    -- of the three entries that are written, only those for (re)association are called
    by_cases hreq : subtype = wifiAssocReq ∨ subtype = wifiReassocReq
    · have hauth : subtype ≠ wifiAuth := by
        rintro rfl
        exact absurd hreq (by decide)
      rw [if_pos hreq, if_neg hauth, if_pos hreq]
      refine ⟨?_, h.set hwritten _, rfl⟩
      rw [mgtFunc_eq hme, List.getElem?_set_self (h.length.symm ▸ hlt)]
      cases ap <;> rfl
    · rw [if_neg hreq, if_pos (hw.resolve_right hreq)]
      exact ⟨rfl, h.set hwritten _, rfl⟩
  -- the other entries are as they were compiled
  · have hother : ¬ mgtWritten (subtype >>> 4) := by
      rintro (hi | hi | hi)
      · exact hw (Or.inr (Or.inl (by rw [hsub, hi]; rfl)))
      · exact hw (Or.inr (Or.inr (by rw [hsub, hi]; rfl)))
      · exact hw (Or.inl (by rw [hsub, hi]; rfl))
    rw [if_neg hw, if_neg fun he => hw (Or.inl he), if_neg fun he => hw (Or.inr he)]
    by_cases hprobe : subtype = wifiProbeReq
    · rw [if_pos hprobe, if_pos hprobe]
      subst hprobe
      refine ⟨?_, h, rfl⟩
      show mgtFunc me _ f = _
      rw [mgtFunc_eq hme, h.others _ hother]
      rfl
    · rw [if_neg hprobe, if_neg hprobe]
      by_cases hba : subtype = wifiBeacon ∨ subtype = wifiAction
      · rw [if_pos hba]
        refine ⟨?_, h, rfl⟩
        show mgtFunc me _ f = _
        rw [mgtFunc_eq hme, h.others _ hother]
        rcases hba with rfl | rfl <;> rfl
      · rw [if_neg hba, if_neg fun he => hba (Or.inl he), if_neg fun he => hba (Or.inr he)]
        refine ⟨?_, h, rfl⟩
        show mgtFunc me _ f ++ _ = _
        rw [mgtFunc_eq hme, h.others _ hother]

theorem dispatch_ignored (hlen : d.table.length = mlmeStaTbl.length) (h : ¬ MgtAddressed me f) :
    d.mgtDispatcher me ap f = (d, []) := by
  unfold mgtDispatcher
  by_cases htype : Wifi.getFrameType f.buf f.rxData = .mgt
  · rw [if_neg (not_not_intro htype)]
    by_cases hme : mgtForMe me f = true
    · rw [if_neg (by rw [hme]; exact Bool.false_ne_true)]
      refine if_pos (hlen ▸ Nat.le_of_not_lt fun hlt => h ⟨htype, hme, hlt⟩)
    · rw [if_pos (by rw [Bool.eq_false_iff.mpr hme]; rfl)]
  · rw [if_pos htype]

theorem dispatch_addressed (hlen : d.table.length = mlmeStaTbl.length) (h : MgtAddressed me f) :
    d.mgtDispatcher me ap f =
      if d.duplicate f then (d, [])
      else (d.noteSeq f).serve me ap f (Wifi.getFrameSubType f.buf f.rxData >>> 4) := by
  obtain ⟨htype, hme, hlt⟩ := h
  unfold mgtDispatcher
  rw [if_neg (not_not_intro htype), if_neg (by rw [hme]; exact Bool.false_ne_true)]
  exact if_neg (hlen ▸ Nat.not_le_of_lt hlt)

/-- **A frame**: what it calls, and that a retransmission calls nothing. -/
theorem dispatch_calls (h : TableKept d.table) (hf : MgtAddressed me f) :
    (d.mgtDispatcher me ap f).2 =
      if d.duplicate f then [] else mgtHandlers ap (Wifi.getFrameSubType f.buf f.rxData) := by
  rw [dispatch_addressed h.length hf]
  split
  · rfl
  · exact (serve_spec (d := d.noteSeq f) h hf.2.1 hf.1 hf.2.2).1

theorem dispatch_tableKept (h : TableKept d.table) : TableKept (d.mgtDispatcher me ap f).1.table := by
  by_cases hf : MgtAddressed me f
  · rw [dispatch_addressed h.length hf]
    split
    · exact h
    · exact (serve_spec (d := d.noteSeq f) h hf.2.1 hf.1 hf.2.2).2.1
  · rw [dispatch_ignored h.length hf]
    exact h

/-- The number of the frame is noted for its sender, also when it is dropped. -/
theorem dispatch_seq (h : TableKept d.table) (hf : MgtAddressed me f) (a : MacAddr) :
    (d.mgtDispatcher me ap f).1.rxMgmtFrameSeqNum a =
      if a = Wifi.getAddr2 f.buf f.rxData ∧ (d.rxMgmtFrameSeqNum a).isSome then some f.attrib.seqNum
      else d.rxMgmtFrameSeqNum a := by
  rw [dispatch_addressed h.length hf]
  by_cases hdup : d.duplicate f = true
  · rw [if_pos hdup]
    split
    · rename_i ha
      rw [ha.1]
      have hseq := ((Bool.and_eq_true _ _).mp hdup).2
      exact of_decide_eq_true hseq
    · rfl
  · rw [if_neg hdup, (serve_spec (d := d.noteSeq f) h hf.2.1 hf.1 hf.2.2).2.2]
    rfl

end MgtDispatcher

/-! ## Any order of frames -/

/-- There is a station with this address. -/
def StaKnown (sa : MacAddr) (es : List MgtEvent) : Prop :=
  After (fun _ => True) (· = .alloc sa) (· ≠ .free sa) es

/-- A frame for `me` from `sa`. -/
def MgtEvent.heardFrom (me sa : MacAddr) (e : MgtEvent) (n : Nat) : Prop :=
  ∃ ap f, e = .frame ap f ∧ MgtAddressed me f ∧ Wifi.getAddr2 f.buf f.rxData = sa ∧ f.attrib.seqNum = n

/-- The latest frame from a station `sa` had the number `n`. -/
def LatestFrom (me sa : MacAddr) (n : Nat) (es : List MgtEvent) : Prop :=
  After (StaKnown sa) (·.heardFrom me sa n)
    (fun e => e ≠ .alloc sa ∧ e ≠ .free sa ∧ ∀ m, ¬ e.heardFrom me sa m) es

/-- A frame that is sent again. -/
def SentAgain (me : MacAddr) (es : List MgtEvent) (f : RecvFrame) : Prop :=
  Wifi.getRetry f.buf f.rxData = true
    ∧ LatestFrom me (Wifi.getAddr2 f.buf f.rxData) f.attrib.seqNum es

/-- **What the dispatcher knows** of its past. -/
structure MgtInv (me : MacAddr) (es : List MgtEvent) (d : MgtDispatcher) : Prop where
  table : TableKept d.table
  known : ∀ sa, (d.rxMgmtFrameSeqNum sa).isSome = true ↔ StaKnown sa es
  latest : ∀ sa n, n < 2 ^ 12 → (d.rxMgmtFrameSeqNum sa = some n ↔ LatestFrom me sa n es)

section Events

variable {me : MacAddr} {es : List MgtEvent} {d d' : MgtDispatcher} {e : MgtEvent}

theorem mgtInv_start : MgtInv me [] {} where
  table := tableKept_start
  known := fun _ => ⟨nofun, fun h => absurd h After.not_nil⟩
  latest := fun _ _ _ => ⟨nofun, fun h => absurd h After.not_nil⟩

/-- An event that says nothing about a station leaves what is known of it. -/
theorem staKnown_other {sa : MacAddr} (h1 : e ≠ .alloc sa) (h2 : e ≠ .free sa) :
    StaKnown sa (es ++ [e]) ↔ StaKnown sa es := by
  refine ⟨fun h => ?_, fun h => After.later h h2⟩
  rcases After.cases_last h with ⟨-, h⟩ | ⟨h, -⟩
  · exact absurd h h1
  · exact h

theorem latestFrom_other {sa : MacAddr} {n : Nat} (h1 : e ≠ .alloc sa) (h2 : e ≠ .free sa)
    (h3 : ∀ m, ¬ e.heardFrom me sa m) : LatestFrom me sa n (es ++ [e]) ↔ LatestFrom me sa n es := by
  refine ⟨fun h => ?_, fun h => After.later h ⟨h1, h2, h3⟩⟩
  rcases After.cases_last h with ⟨-, h⟩ | ⟨h, -⟩
  · exact absurd h (h3 n)
  · exact h

/-- A station that comes or goes has sent nothing yet. -/
theorem not_latestFrom {sa : MacAddr} {n : Nat} (he : e = .alloc sa ∨ e = .free sa) :
    ¬ LatestFrom me sa n (es ++ [e]) := by
  intro h
  rcases After.cases_last h with ⟨-, ap, f, hf, -⟩ | ⟨-, h1, h2, -⟩
  · rcases he with rfl | rfl <;> cases hf
  · exact he.elim h1 h2

theorem not_heardFrom_alloc {addr sa : MacAddr} (m : Nat) : ¬ (MgtEvent.alloc addr).heardFrom me sa m := by
  rintro ⟨_, _, heq, -⟩
  cases heq

theorem not_heardFrom_free {addr sa : MacAddr} (m : Nat) : ¬ (MgtEvent.free addr).heardFrom me sa m := by
  rintro ⟨_, _, heq, -⟩
  cases heq

theorem mgtInv_alloc {addr : MacAddr} (h : MgtInv me es d) :
    MgtInv me (es ++ [.alloc addr]) (d.allocSta addr) := by
  have hother : ∀ {sa : MacAddr}, sa ≠ addr → (MgtEvent.alloc addr : MgtEvent) ≠ .alloc sa := by
    intro sa hne heq
    cases heq
    exact hne rfl
  refine ⟨h.table, fun sa => ?_, fun sa n hn => ?_⟩
  · show (if sa = addr then some 0xffff else d.rxMgmtFrameSeqNum sa).isSome = true ↔ _
    by_cases hsa : sa = addr
    · rw [if_pos hsa, hsa]
      exact ⟨fun _ => After.last trivial rfl, fun _ => rfl⟩
    · rw [if_neg hsa, staKnown_other (e := .alloc addr) (hother hsa) nofun]
      exact h.known sa
  · show (if sa = addr then some 0xffff else d.rxMgmtFrameSeqNum sa) = some n ↔ _
    by_cases hsa : sa = addr
    · rw [if_pos hsa, hsa]
      refine ⟨fun heq => ?_, fun hl => absurd hl (not_latestFrom (Or.inl rfl))⟩
      cases heq
      exact absurd hn (by decide)
    · rw [if_neg hsa, latestFrom_other (e := .alloc addr) (hother hsa) nofun not_heardFrom_alloc]
      exact h.latest sa n hn

theorem mgtInv_free {addr : MacAddr} (h : MgtInv me es d) :
    MgtInv me (es ++ [.free addr]) (d.freeSta addr) := by
  have hother : ∀ {sa : MacAddr}, sa ≠ addr → (MgtEvent.free addr : MgtEvent) ≠ .free sa := by
    intro sa hne heq
    cases heq
    exact hne rfl
  refine ⟨h.table, fun sa => ?_, fun sa n hn => ?_⟩
  · show (if sa = addr then none else d.rxMgmtFrameSeqNum sa).isSome = true ↔ _
    by_cases hsa : sa = addr
    · rw [if_pos hsa, hsa]
      refine ⟨nofun, fun hk => ?_⟩
      rcases After.cases_last hk with ⟨-, heq⟩ | ⟨-, hne⟩
      · cases heq
      · exact absurd rfl hne
    · rw [if_neg hsa, staKnown_other (e := .free addr) nofun (hother hsa)]
      exact h.known sa
  · show (if sa = addr then none else d.rxMgmtFrameSeqNum sa) = some n ↔ _
    by_cases hsa : sa = addr
    · rw [if_pos hsa, hsa]
      exact ⟨nofun, fun hl => absurd hl (not_latestFrom (Or.inr rfl))⟩
    · rw [if_neg hsa, latestFrom_other (e := .free addr) nofun (hother hsa) not_heardFrom_free]
      exact h.latest sa n hn

theorem mgtInv_frame {ap : Bool} {f : RecvFrame} (h : MgtInv me es d) :
    MgtInv me (es ++ [.frame ap f]) (d.mgtDispatcher me ap f).1 := by
  refine ⟨MgtDispatcher.dispatch_tableKept h.table, fun sa => ?_, fun sa n hn => ?_⟩
  · rw [staKnown_other (e := .frame ap f) nofun nofun, ← h.known sa]
    by_cases hf : MgtAddressed me f
    · rw [MgtDispatcher.dispatch_seq h.table hf]
      split
      · rename_i ha
        exact ⟨fun _ => ha.2, fun _ => rfl⟩
      · exact Iff.rfl
    · rw [MgtDispatcher.dispatch_ignored h.table.length hf]
  · by_cases hfrom : MgtAddressed me f ∧ Wifi.getAddr2 f.buf f.rxData = sa
    · obtain ⟨hf, rfl⟩ := hfrom
      rw [MgtDispatcher.dispatch_seq h.table hf]
      by_cases hknown : StaKnown (Wifi.getAddr2 f.buf f.rxData) es
      · rw [if_pos ⟨rfl, (h.known _).mpr hknown⟩]
        constructor
        · intro heq
          exact After.last hknown ⟨ap, f, rfl, hf, rfl, Option.some.inj heq⟩
        · intro hl
          rcases After.cases_last hl with ⟨-, _, g, hg, -, -, hn⟩ | ⟨-, -, -, hnone⟩
          · cases hg
            rw [hn]
          · exact absurd ⟨ap, f, rfl, hf, rfl, rfl⟩ (hnone f.attrib.seqNum)
      · rw [if_neg fun hs => hknown ((h.known _).mp hs.2)]
        constructor
        · intro heq
          exact absurd ((h.known _).mp (by rw [heq]; rfl)) hknown
        · intro hl
          rcases After.cases_last hl with ⟨hk, -⟩ | ⟨-, -, -, hnone⟩
          · exact absurd hk hknown
          · exact absurd ⟨ap, f, rfl, hf, rfl, rfl⟩ (hnone f.attrib.seqNum)
    · have hnone : ∀ m, ¬ (MgtEvent.frame ap f).heardFrom me sa m := by
        rintro m ⟨_, g, hg, hgf, hsa, -⟩
        cases hg
        exact hfrom ⟨hgf, hsa⟩
      rw [latestFrom_other (e := .frame ap f) nofun nofun hnone, ← h.latest sa n hn]
      by_cases hf : MgtAddressed me f
      · rw [MgtDispatcher.dispatch_seq h.table hf, if_neg fun ha => hfrom ⟨hf, ha.1.symm⟩]
      · rw [MgtDispatcher.dispatch_ignored h.table.length hf]

theorem mgtInv_step (h : MgtInv me es d) (hstep : mgtStep me d e = .done d') :
    MgtInv me (es ++ [e]) d' := by
  cases e with
  | frame ap f => cases hstep; exact mgtInv_frame h
  | alloc addr => cases hstep; exact mgtInv_alloc h
  | free addr => cases hstep; exact mgtInv_free h

theorem mgtInv_history (h : Traced (mgtStep me) (fun _ _ => True) {} es d) : MgtInv me es d :=
  h.invariant (MgtInv me) mgtInv_start fun hinv _ hstep => mgtInv_step hinv hstep

end Events

/-- **What is called**, after any frames and any stations that came and went. -/
structure MgtServed (me : MacAddr) (es : List MgtEvent) (d : MgtDispatcher) : Prop where
  /-- A frame that is not sent again calls what its subtype says, whatever was written into the table. -/
  served : ∀ ap f, MgtAddressed me f → f.attrib.seqNum < 2 ^ 12 → ¬ SentAgain me es f →
    (d.mgtDispatcher me ap f).2 = mgtHandlers ap (Wifi.getFrameSubType f.buf f.rxData)
  /-- A frame that is sent again calls nothing. -/
  dropped : ∀ ap f, MgtAddressed me f → f.attrib.seqNum < 2 ^ 12 → SentAgain me es f →
    (d.mgtDispatcher me ap f).2 = []
  /-- A frame for another station calls nothing, and leaves no trace. -/
  ignored : ∀ ap f, ¬ MgtAddressed me f → d.mgtDispatcher me ap f = (d, [])
  /-- Nobody handles an authentication frame. -/
  noAuth : ∀ ap f, Wifi.getFrameSubType f.buf f.rxData = wifiAuth → (d.mgtDispatcher me ap f).2 = []
  /-- And `OnAssocReq` handles nothing. -/
  noAssocReq : ∀ ap f, .func .onAssocReq ∉ (d.mgtDispatcher me ap f).2

/-- No subtype asks for `OnAssocReq`: the entries that have it are written before they are read. -/
theorem onAssocReq_not_mem_mgtHandlers {ap : Bool} {subtype : Nat} (hsub : subtype = (subtype >>> 4) * 16)
    (hlt : subtype >>> 4 < mlmeStaTbl.length) : .func .onAssocReq ∉ mgtHandlers ap subtype := by
  have hall : ∀ i < mlmeStaTbl.length, ∀ ap, .func .onAssocReq ∉ mgtHandlers ap (i * 16) := by decide
  rw [hsub]
  exact hall _ hlt ap

/-- A frame as it is sent once more. -/
def sentOnceMore (f : RecvFrame) : RecvFrame := { f with buf := f.buf.write (f.rxData + 1) [0x08] }

/-- An association request comes to the access point and then, with the next number, to the station; its answer
is a beacon. -/
def sampleMgtRun : List MgtEvent :=
  let frame (subtype : UInt8) (seqNum : Nat) : RecvFrame :=
    { sampleMgntFrame subtype ⟨2, 0, 0, 0, 0, 1⟩ ⟨2, 0, 0, 0, 0, 9⟩ [] with attrib := { seqNum := seqNum } }
  [.alloc ⟨2, 0, 0, 0, 0, 9⟩, .frame true (frame 0x00 7), .frame true (sentOnceMore (frame 0x00 7)),
    .frame false (frame 0x00 8), .frame false (frame 0x80 9)]

end Rtl8812au
