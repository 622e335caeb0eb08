import Rtl8812au.P2p.ChListProof
import Rtl8812au.P2p.NegoFrameProof
import Mathlib.Data.List.Destutter

/-!
# Which common channels are found

`rtw_p2p_ch_inclusion` looks for each channel of the peer from where it found the last one in
`channel_set`. What it returns lies in both lists, and is empty only if there is no common channel; but it
misses the channels that come in another order than in `channel_set`.
-/

namespace Rtl8812au.P2p

/-! ## The search -/

section

variable {c d : Nat} {set s f peer : List Nat}

/-- The channels of the peer that are in `channel_set`, in the order of the peer. -/
def commonChannels (set peer : List Nat) : List Nat := peer.filter (· ∈ set)

/-- The common channels, one that is repeated at once taken as one, come in the order of `channel_set`. -/
def InPlanOrder (set peer : List Nat) : Prop :=
  ((commonChannels set peer).destutter (· ≠ ·)).Sublist set

theorem mem_commonChannels : c ∈ commonChannels set peer ↔ c ∈ peer ∧ c ∈ set := by
  unfold commonChannels
  rw [List.mem_filter, decide_eq_true_eq]

theorem commonChannels_eq_nil : commonChannels set peer = [] ↔ ∀ c ∈ peer, c ∉ set := by
  unfold commonChannels
  simp [List.filter_eq_nil_iff]

/-- A channel that is searched for is found where it stands, or it is not there. -/
theorem search_cases (d : Nat) (s : List Nat) :
    (d ∉ s ∧ s.dropWhile (· != d) = []) ∨ ∃ rest, s.dropWhile (· != d) = d :: rest
      ∧ (d :: rest).IsSuffix s := by
  induction s with
  | nil => exact Or.inl ⟨List.not_mem_nil, rfl⟩
  | cons b s ih =>
      by_cases hb : b = d
      · subst hb
        refine Or.inr ⟨s, ?_, List.suffix_refl _⟩
        rw [List.dropWhile_cons_of_neg (by simp)]
      · have hskip : (b :: s).dropWhile (· != d) = s.dropWhile (· != d) :=
          List.dropWhile_cons_of_pos (by simp [hb])
        rw [hskip]
        rcases ih with ⟨hnot, hnil⟩ | ⟨rest, hrest, hsuf⟩
        · refine Or.inl ⟨?_, hnil⟩
          intro hmem
          rcases List.mem_cons.mp hmem with hd | hd
          · exact hb hd.symm
          · exact hnot hd
        · exact Or.inr ⟨rest, hrest, hsuf.trans (List.suffix_cons b s)⟩

theorem inclusion_missed (h : s.dropWhile (· != d) = []) :
    rtwP2pChInclusion s (d :: peer) = rtwP2pChInclusion s peer := by
  rw [rtwP2pChInclusion, h]

theorem inclusion_found {rest : List Nat} (h : s.dropWhile (· != d) = d :: rest) :
    rtwP2pChInclusion s (d :: peer) = d :: rtwP2pChInclusion (d :: rest) peer := by
  rw [rtwP2pChInclusion, h]

/-- **What is found is in both lists**, in the order of the peer. -/
theorem inclusion_sublist (peer : List Nat) : ∀ s, (rtwP2pChInclusion s peer).Sublist peer := by
  induction peer with
  | nil => intro s; exact List.Sublist.refl _
  | cons d peer ih =>
      intro s
      rcases search_cases d s with ⟨-, hnil⟩ | ⟨rest, hrest, -⟩
      · rw [inclusion_missed hnil]
        exact (ih s).cons d
      · rw [inclusion_found hrest]
        exact (ih _).cons_cons d

theorem inclusion_subset (peer : List Nat) : ∀ s, ∀ c ∈ rtwP2pChInclusion s peer, c ∈ s := by
  induction peer with
  | nil => intro s c hc; exact absurd hc List.not_mem_nil
  | cons d peer ih =>
      intro s c hc
      rcases search_cases d s with ⟨-, hnil⟩ | ⟨rest, hrest, hsuf⟩
      · rw [inclusion_missed hnil] at hc
        exact ih s c hc
      · rw [inclusion_found hrest] at hc
        rcases List.mem_cons.mp hc with hd | hd
        · rw [hd]
          exact hsuf.subset List.mem_cons_self
        · exact hsuf.subset (ih _ c hd)

/-- Nothing is found only where the lists are disjoint: the first common channel is never missed. -/
theorem inclusion_eq_nil (peer : List Nat) (set : List Nat) :
    rtwP2pChInclusion set peer = [] ↔ ∀ c ∈ peer, c ∉ set := by
  induction peer with
  | nil => exact iff_of_true rfl fun c hc => absurd hc List.not_mem_nil
  | cons d peer ih =>
      rw [List.forall_mem_cons]
      rcases search_cases d set with ⟨hnot, hnil⟩ | ⟨rest, hrest, hsuf⟩
      · rw [inclusion_missed hnil, ih, and_iff_right hnot]
      · rw [inclusion_found hrest]
        refine iff_of_false (List.cons_ne_nil _ _) ?_
        intro h
        exact h.1 (hsuf.subset List.mem_cons_self)

/-- The channels that are not in `channel_set` make no difference. -/
theorem inclusion_common (peer : List Nat) :
    ∀ s, s.IsSuffix set → rtwP2pChInclusion s peer = rtwP2pChInclusion s (commonChannels set peer) := by
  induction peer with
  | nil => intro s _; rfl
  | cons d peer ih =>
      intro s hs
      unfold commonChannels
      by_cases hd : d ∈ set
      · rw [List.filter_cons_of_pos (by simpa using hd)]
        rcases search_cases d s with ⟨-, hnil⟩ | ⟨rest, hrest, hsuf⟩
        · rw [inclusion_missed hnil, inclusion_missed hnil]
          exact ih s hs
        · rw [inclusion_found hrest, inclusion_found hrest]
          exact congrArg (d :: ·) (ih _ (hsuf.trans hs))
      · rw [List.filter_cons_of_neg (by simpa using hd)]
        rcases search_cases d s with ⟨-, hnil⟩ | ⟨rest, -, hsuf⟩
        · rw [inclusion_missed hnil]
          exact ih s hs
        · exact absurd (hs.subset (hsuf.subset List.mem_cons_self)) hd

theorem cons_sublist_dropWhile (d : Nat) (t s : List Nat) :
    (d :: t).Sublist s ↔ (d :: t).Sublist (s.dropWhile (· != d)) := by
  induction s with
  | nil => exact Iff.rfl
  | cons b s ih =>
      by_cases hb : b = d
      · subst hb
        rw [List.dropWhile_cons_of_neg (by simp)]
      · rw [List.dropWhile_cons_of_pos (by simp [hb]), ← ih, List.cons_sublist_cons']
        constructor
        · intro h
          rcases h with h | ⟨hd, -⟩
          · exact h
          · exact absurd hd.symm hb
        · exact Or.inl

/-- What has no repetition at once begins as it did. -/
theorem destutter'_head (f : List Nat) : ∀ d, ∃ t, f.destutter' (· ≠ ·) d = d :: t := by
  induction f with
  | nil => intro d; exact ⟨[], rfl⟩
  | cons b f ih =>
      intro d
      by_cases hb : d = b
      · rw [List.destutter'_cons_neg _ (not_not.mpr hb)]
        exact ih d
      · rw [List.destutter'_cons_pos _ hb]
        exact ⟨_, rfl⟩

/-- Where the first channel is not there, something is missed. -/
theorem inclusion_ne_of_missed (hnil : s.dropWhile (· != d) = []) :
    rtwP2pChInclusion s (d :: f) ≠ d :: f := by
  rw [inclusion_missed hnil]
  intro h
  have hlen := (inclusion_sublist f s).length_le
  rw [h, List.length_cons] at hlen
  omega

/-- **From a channel on, nothing is missed** exactly when the rest comes in order. The induction is on the
list of the peer, for whatever is left of `channel_set`. -/
theorem inclusion_from_iff (f : List Nat) : ∀ c rest, rtwP2pChInclusion (c :: rest) f = f
    ↔ (f.destutter' (· ≠ ·) c).Sublist (c :: rest) := by
  induction f with
  | nil =>
      intro c rest
      refine iff_of_true rfl ?_
      rw [List.destutter'_nil]
      exact (List.nil_sublist rest).cons_cons c
  | cons d f ih =>
      intro c rest
      by_cases hd : c = d
      · subst hd
        have hhere : (c :: rest).dropWhile (· != c) = c :: rest :=
          List.dropWhile_cons_of_neg (by simp)
        rw [inclusion_found hhere, List.destutter'_cons_neg _ (not_not.mpr rfl), List.cons_inj_right]
        exact ih c rest
      · have hskip : (c :: rest).dropWhile (· != d) = rest.dropWhile (· != d) :=
          List.dropWhile_cons_of_pos (by simp [hd])
        obtain ⟨t, ht⟩ := destutter'_head f d
        rw [List.destutter'_cons_pos _ hd, List.cons_sublist_cons, ht, cons_sublist_dropWhile, ← ht]
        rcases search_cases d rest with ⟨-, hnil⟩ | ⟨rest', hrest, -⟩
        · refine iff_of_false (inclusion_ne_of_missed (hskip.trans hnil)) ?_
          rw [hnil, ht]
          exact fun h => List.cons_ne_nil _ _ (List.sublist_nil.mp h)
        · rw [inclusion_found (hskip.trans hrest), hrest, List.cons_inj_right]
          exact ih d rest'

theorem inclusion_self_iff (set f : List Nat) :
    rtwP2pChInclusion set f = f ↔ (f.destutter (· ≠ ·)).Sublist set := by
  cases f with
  | nil => exact iff_of_true rfl (List.nil_sublist _)
  | cons d f =>
      obtain ⟨t, ht⟩ := destutter'_head f d
      rw [List.destutter_cons', ht, cons_sublist_dropWhile, ← ht]
      rcases search_cases d set with ⟨-, hnil⟩ | ⟨rest, hrest, -⟩
      · refine iff_of_false (inclusion_ne_of_missed hnil) ?_
        rw [hnil, ht]
        exact fun h => List.cons_ne_nil _ _ (List.sublist_nil.mp h)
      · rw [inclusion_found hrest, hrest, List.cons_inj_right]
        exact inclusion_from_iff f d rest

/-- **Every common channel is found** exactly when they come in the order of `channel_set`. -/
theorem inclusion_exact_iff (set peer : List Nat) :
    rtwP2pChInclusion set peer = commonChannels set peer ↔ InPlanOrder set peer := by
  rw [inclusion_common peer set (List.suffix_refl set)]
  exact inclusion_self_iff set (commonChannels set peer)

end

/-! ## The list of the peer -/

/-- **A channel list that fits its buffer is read as it is.** -/
theorem peerChLoop_complete {buf : Mem} (es : List Tlv) : ∀ {fuel ptr : Nat} {chs : List Nat},
    Holds buf ptr es → ptr + Tlv.total es ≤ 100 → es.length < fuel → chs.length ≤ ptr →
    peerChLoop buf fuel ptr (Tlv.total es) chs = some (chs ++ (channels es).map UInt8.toNat) := by
  induction es with
  | nil =>
      intro fuel ptr chs _ _ hfuel _
      obtain ⟨fuel, rfl⟩ : ∃ k, fuel = k + 1 := ⟨fuel - 1, by rw [List.length_nil] at hfuel; omega⟩
      rw [peerChLoop, Tlv.total_nil, if_neg (Nat.lt_irrefl 0), channels_nil, List.map_nil, List.append_nil]
  | cons e es ih =>
      intro fuel ptr chs h hin hfuel hchs
      obtain ⟨fuel, rfl⟩ : ∃ k, fuel = k + 1 := ⟨fuel - 1, by omega⟩
      obtain ⟨-, hlen, hbody⟩ := entry_bytes h
      have hsize : e.size = 2 + e.body.length := by
        rw [Tlv.size]
        omega
      rw [Tlv.total_cons, hsize] at hin
      have hpos : 0 < Tlv.total (e :: es) := by
        rw [Tlv.total_cons, hsize]
        omega
      have hleft : (Tlv.total (e :: es) + 512 - 1 - (e.body.length + 1)) % 256 = Tlv.total es := by
        rw [Tlv.total_cons, hsize]
        omega
      have hnext : ptr + 1 + e.body.length + 1 = ptr + e.size := by
        rw [hsize]
        omega
      have hroom : ptr + 1 + e.body.length < 100 ∧ chs.length + e.body.length ≤ 100 :=
        ⟨by omega, by omega⟩
      rw [peerChLoop, if_pos hpos]
      dsimp only
      rw [hbody, hlen, if_pos hroom, hleft, hnext, ih (Holds.cons.mp h).2 (by omega)
        (by rw [List.length_cons] at hfuel; omega)
        (by rw [List.length_append, List.length_map]; omega),
        channels_cons, List.map_append, List.append_assoc]

theorem entries_le_total (es : List Tlv) : es.length ≤ Tlv.total es := by
  induction es with
  | nil => exact Nat.le_refl _
  | cons e es ih =>
      have hsize := e.two_le_size
      rw [List.length_cons, Tlv.total_cons]
      omega

/-- A Channel List attribute: a country string, and these entries. -/
def ListContent (bs : List UInt8) (es : List Tlv) : Prop :=
  ∃ country : List UInt8, country.length = 3 ∧ bs = country ++ Tlv.encode es

theorem getPeerChList_content {bs : List UInt8} {es : List Tlv} (buf : Mem) (h : ListContent bs es)
    (hfit : bs.length ≤ 100) :
    rtwP2pGetPeerChList (bufWith buf bs) bs.length = some ((channels es).map UInt8.toNat) := by
  obtain ⟨country, hthree, rfl⟩ := h
  rw [List.length_append, hthree, Tlv.length_encode] at hfit
  have hlen : (country ++ Tlv.encode es).length = 3 + Tlv.total es := by
    rw [List.length_append, hthree, Tlv.length_encode]
  have hcnt : (3 + Tlv.total es + 256 - 3) % 256 = Tlv.total es := by omega
  have hholds : Holds (bufWith buf (country ++ Tlv.encode es)) 3 es := by
    unfold bufWith Holds
    rw [← Mem.write_append, hthree, Nat.zero_add, ← Tlv.length_encode, Mem.read_write_self]
  have hfew := entries_le_total es
  unfold rtwP2pGetPeerChList
  rw [hlen, hcnt, peerChLoop_complete es hholds hfit (by omega) (Nat.zero_le _)]
  rfl

/-! ## The request -/

section

variable {m : Mem} {ie : Nat × Nat} {a : P2pAttr} {cap : Nat} {β : Type}

/-- The search for an attribute ends, and what it finds fits a buffer of `cap` bytes. -/
def Fits (m : Mem) (ie : Nat × Nat) (a : P2pAttr) (cap : Nat) : Prop :=
  lookup m ie a ≠ none ∧ AtMost m ie a cap

theorem val_fits (h : Fits m ie a cap) (k : Option (List UInt8) → Copies β) :
    (rtwGetP2pAttrContent m ie a cap >>= k).val = (k (attr m ie a)).val := by
  obtain ⟨o, ho⟩ := Option.ne_none_iff_exists'.mp h.1
  rw [val_look h.2]
  unfold attr
  rw [ho]
  rfl

theorem fits_of_val {k : Option (List UInt8) → Copies β}
    (h : (rtwGetP2pAttrContent m ie a cap >>= k).val ≠ none) : Fits m ie a cap := by
  rw [Copies.val_bind, rtwGetP2pAttrContent_eq] at h
  unfold Fits AtMost
  cases hl : lookup m ie a with
  | none =>
      rw [hl] at h
      exact absurd rfl h
  | some o =>
      refine ⟨Option.some_ne_none o, ?_⟩
      intro bs hbs
      cases hbs
      by_contra hlong
      have hcopy : (Copies.copy cap bs.length).val = none := if_neg hlong
      rw [hl] at h
      unfold copyOf at h
      dsimp only at h
      rw [Copies.val_bind, hcopy] at h
      exact h rfl

/-- The intent changes neither channel. -/
theorem reqDev_channels (d : NegoDev) (intent : Option (List UInt8)) :
    (reqDev d intent).wd.channelSet = d.wd.channelSet
      ∧ (reqDev d intent).wd.operatingChannel = d.wd.operatingChannel := by
  unfold reqDev intentOfReq
  cases intent with
  | none => exact ⟨rfl, rfl⟩
  | some bs =>
      dsimp only
      split
      · exact ⟨rfl, rfl⟩
      · exact ⟨rfl, rfl⟩

/-- A device that is to be the group owner has not failed over its intent. -/
theorem intentOfReq_owner {result : UInt8} {w : WdInfo} {o : Option (List UInt8)}
    (h : (intentOfReq 0 w o).2.role = .go) : (intentOfReq result w o).1 = result := by
  cases o with
  | none => rfl
  | some bs =>
      unfold intentOfReq at h ⊢
      dsimp only at h ⊢
      split
      case isTrue hmax =>
        rw [if_pos hmax] at h
        cases h
      case isFalse => rfl

/-- What a turn with these common channels comes to. -/
def Answers (set peer : List Nat) (opCh : Nat) (status : UInt8) (d' : NegoDev) : Prop :=
  (status = P2pStatus.failNoCommonCh.code ↔ ∀ c ∈ peer, c ∉ set)
    ∧ (status ≠ P2pStatus.failNoCommonCh.code →
      d'.wd.operatingChannel ∈ peer ∧ d'.wd.operatingChannel ∈ set
        ∧ (opCh ∈ peer → opCh ∈ set → d'.wd.operatingChannel = opCh))

/-- The channel that is chosen is a common one. -/
theorem chooseChannel_mem {w : WdInfo} {common : List Nat} (opCh : Nat) (hrole : w.role = .go)
    (hsome : common ≠ []) (hown : w.operatingChannel ∉ common) :
    (w.chooseChannel opCh common).operatingChannel ∈ common := by
  unfold WdInfo.chooseChannel
  rw [if_pos ⟨hrole, hown⟩]
  dsimp only
  split
  case isTrue hop => exact hop
  case isFalse =>
    cases common with
    | nil => exact absurd rfl hsome
    | cons c cs => exact List.mem_cons_self

/-- **The channels of a group owner** that finds every common one. -/
theorem channelTurn_answers {buf : Mem} {bs : List UInt8} {peer : List Nat} {d : NegoDev}
    (hpeer : rtwP2pGetPeerChList buf bs.length = some peer) (hrole : d.wd.role = .go)
    (hall : rtwP2pChInclusion d.wd.channelSet peer = commonChannels d.wd.channelSet peer)
    (hfit : commonChannels d.wd.channelSet peer ≠ [] →
      d.wd.operatingChannel ∉ commonChannels d.wd.channelSet peer → Fits m ie .operatingCh 5) :
    ∃ on status d', (channelTurn m ie buf bs P2pStatus.success.code d).val = some (on, status, d')
      ∧ Answers d.wd.channelSet peer d.wd.operatingChannel status d' := by
  unfold channelTurn
  rw [hpeer, Copies.val_bind, Copies.val_guarded, Option.bind_some]
  dsimp only
  rw [hall]
  by_cases hnone : commonChannels d.wd.channelSet peer = []
  · rw [if_pos hnone]
    refine ⟨_, _, _, rfl, iff_of_true rfl (commonChannels_eq_nil.mp hnone), ?_⟩
    intro hother
    exact absurd rfl hother
  · have hstatus : (P2pStatus.success.code = P2pStatus.failNoCommonCh.code
        ↔ ∀ c ∈ peer, c ∉ d.wd.channelSet) :=
      iff_of_false (by decide) fun h => hnone (commonChannels_eq_nil.mpr h)
    rw [if_neg hnone]
    by_cases hown : d.wd.operatingChannel ∈ commonChannels d.wd.channelSet peer
    · rw [if_neg (fun h => h.2 hown)]
      obtain ⟨hinpeer, hinset⟩ := mem_commonChannels.mp hown
      exact ⟨_, _, _, rfl, hstatus, fun _ => ⟨hinpeer, hinset, fun _ _ => rfl⟩⟩
    · rw [if_pos ⟨hrole, hown⟩, val_fits (hfit hnone hown)]
      refine ⟨_, _, _, rfl, hstatus, fun _ => ?_⟩
      obtain ⟨hinpeer, hinset⟩ := mem_commonChannels.mp (chooseChannel_mem
        (((attr m ie .operatingCh).getD []).getD 4 0).toNat hrole hnone hown)
      refine ⟨hinpeer, hinset, ?_⟩
      intro hpeer' hset'
      exact absurd (mem_commonChannels.mpr ⟨hpeer', hset'⟩) hown

/-- Where another channel has to be chosen, the operating channel of the peer is copied. -/
theorem fits_of_channelTurn {buf : Mem} {bs : List UInt8} {peer : List Nat} {d : NegoDev} {result : UInt8}
    (hpeer : rtwP2pGetPeerChList buf bs.length = some peer) (hrole : d.wd.role = .go)
    (hval : (channelTurn m ie buf bs result d).val ≠ none)
    (hsome : rtwP2pChInclusion d.wd.channelSet peer ≠ [])
    (hown : d.wd.operatingChannel ∉ rtwP2pChInclusion d.wd.channelSet peer) :
    Fits m ie .operatingCh 5 := by
  unfold channelTurn at hval
  rw [hpeer, Copies.val_bind, Copies.val_guarded, Option.bind_some] at hval
  dsimp only at hval
  rw [if_neg hsome, if_pos ⟨hrole, hown⟩] at hval
  exact fits_of_val hval

end

/-- A request with one P2P element, whose Channel List has these entries, by which the device becomes the
group owner. -/
structure GoRequest (f : NegoFrame) (d : NegoDev) (wps ie : Nat × Nat) (es : List Tlv) : Prop where
  wpsIe : rtwGetWpsIe f.ies 0 f.iesLen = some wps
  gotInfo : d.wd.gotWpsInfo = true
  p2pIe : rtwGetP2pIe f.ies 0 f.iesLen = some ie
  noOther : nextP2pIe f.ies f.iesLen ie = none
  chList : ∃ bs, lookup f.ies ie .chList = some (some bs) ∧ ListContent bs es
  owner : (reqDev d (attr f.ies ie .goIntent)).wd.role = .go

/-- The channels of the peer as numbers. -/
def peerChannels (es : List Tlv) : List Nat := (channels es).map UInt8.toNat

/-- What is looked up is found or missed in the end, and fits its buffer; the operating channel of the
peer only where the own one is not common. -/
structure ReqEnds (f : NegoFrame) (d : NegoDev) (wps ie : Nat × Nat) (peer : List Nat) : Prop where
  pwid : d.cmUnset = true → PwidFits f wps
  capability : Fits f.ies ie .capability 2
  goIntent : Fits f.ies ie .goIntent 1
  address : Fits f.ies ie .intentedIfAddr 6
  chList : Fits f.ies ie .chList 100
  operatingCh : commonChannels d.wd.channelSet peer ≠ [] →
    d.wd.operatingChannel ∉ commonChannels d.wd.channelSet peer → Fits f.ies ie .operatingCh 5

/-- Every common channel is found, and the request is answered after them. -/
structure ChannelChosen (f : NegoFrame) (d : NegoDev) (peer : List Nat) : Prop where
  found : rtwP2pChInclusion d.wd.channelSet peer = commonChannels d.wd.channelSet peer
  answered : ∃ status d', (negotationReq f d).val = some (status, d')
    ∧ Answers d.wd.channelSet peer d.wd.operatingChannel status d'

section

variable {f : NegoFrame} {d : NegoDev} {wps ie : Nat × Nat} {es : List Tlv}

/-- The loop makes one turn. -/
theorem reqRest_val (hgot : d.wd.gotWpsInfo = true) (hie : rtwGetP2pIe f.ies 0 f.iesLen = some ie)
    (hlast : nextP2pIe f.ies f.iesLen ie = none) :
    (reqRest f d).val
      = (reqTurn f.ies ie P2pStatus.success.code d).val.map fun t => (t.2.1, t.2.2) := by
  obtain ⟨k, hk⟩ : ∃ k, f.iesLen = k + 1 := by
    refine Nat.exists_eq_succ_of_ne_zero ?_
    intro hz
    rw [hz] at hie
    cases hie
  unfold reqRest
  rw [hgot, if_neg (by decide), hie]
  dsimp only
  have hloop : ieLoop f (reqTurn f.ies) f.iesLen (some ie) P2pStatus.success.code d
      = (reqTurn f.ies ie P2pStatus.success.code d >>= fun r => pure r.2) := by
    rw [hk, ieLoop, hlast]
    refine congrArg _ (funext fun r => ?_)
    split
    · cases k with
      | zero => rfl
      | succ k => rfl
    · rfl
  rw [hloop, Copies.val_bind]
  cases (reqTurn f.ies ie P2pStatus.success.code d).val with
  | none => rfl
  | some t => rfl

/-- The request, behind the device password id. -/
theorem negotationReq_val (h : GoRequest f d wps ie es) (hpwid : d.cmUnset = true → PwidFits f wps) :
    (negotationReq f d).val
      = (reqTurn f.ies ie P2pStatus.success.code { d with cmUnset := false }).val.map
        fun t => (t.2.1, t.2.2) := by
  have hrest := reqRest_val (d := { d with cmUnset := false }) h.gotInfo h.p2pIe h.noOther
  unfold negotationReq
  rw [h.wpsIe]
  show (if d.cmUnset = true then
      attrContent f.ies 4 2 (rtwGetWpsAttr f.ies wps.1 wps.2 0x1012) >>= fun _ =>
        reqRest f { d with cmUnset := false }
    else reqRest f { d with cmUnset := false }).val = _
  split
  case isFalse => exact hrest
  case isTrue hunset =>
    obtain ⟨o, ho⟩ := Option.ne_none_iff_exists'.mp (pwid_val.mpr (hpwid hunset))
    rw [Copies.val_bind, ho]
    exact hrest

theorem pwid_of_val (h : GoRequest f d wps ie es) (hval : (negotationReq f d).val ≠ none) :
    d.cmUnset = true → PwidFits f wps := by
  intro hunset
  refine pwid_val.mp ?_
  intro hnone
  refine hval ?_
  unfold negotationReq
  rw [h.wpsIe]
  dsimp only
  rw [if_pos hunset, Copies.val_bind, hnone]
  rfl

/-- The status before the channels are looked at. -/
theorem owner_result (h : GoRequest f d wps ie es) :
    (intentOfReq P2pStatus.success.code { d.wd with state := .gonegoIng } (attr f.ies ie .goIntent)).1
      = P2pStatus.success.code := intentOfReq_owner h.owner

/-- A turn whose attributes all fit comes to what stands behind them. -/
theorem reqTurn_val (hends : ReqEnds f d wps ie (peerChannels es)) (result : UInt8) (d' : NegoDev) :
    (reqTurn f.ies ie result d').val
      = (reqTail f.ies ie result d' (attr f.ies ie .goIntent) (attr f.ies ie .chList)).val := by
  rw [reqTurn_eq, val_fits hends.capability, val_fits hends.goIntent, val_fits hends.address,
    val_fits hends.chList]

/-- Where a turn comes to an end, its attributes fit. -/
theorem fits_of_reqTurn {result : UInt8} {d' : NegoDev} (hval : (reqTurn f.ies ie result d').val ≠ none) :
    Fits f.ies ie .capability 2 ∧ Fits f.ies ie .goIntent 1 ∧ Fits f.ies ie .intentedIfAddr 6
      ∧ Fits f.ies ie .chList 100
      ∧ (reqTail f.ies ie result d' (attr f.ies ie .goIntent) (attr f.ies ie .chList)).val ≠ none := by
  rw [reqTurn_eq] at hval
  have hcap := fits_of_val hval
  rw [val_fits hcap] at hval
  have hintent := fits_of_val hval
  rw [val_fits hintent] at hval
  have haddr := fits_of_val hval
  rw [val_fits haddr] at hval
  have hlist := fits_of_val hval
  rw [val_fits hlist] at hval
  exact ⟨hcap, hintent, haddr, hlist, hval⟩

/-- Behind the attributes of such a request stand the channels. -/
theorem owner_tail (h : GoRequest f d wps ie es) (hlist : Fits f.ies ie .chList 100) :
    ∃ bs, rtwP2pGetPeerChList (bufWith (fun _ => 0) bs) bs.length = some (peerChannels es)
      ∧ reqTail f.ies ie P2pStatus.success.code { d with cmUnset := false } (attr f.ies ie .goIntent)
          (attr f.ies ie .chList)
        = channelTurn f.ies ie (bufWith (fun _ => 0) bs) bs P2pStatus.success.code
          (reqDev { d with cmUnset := false } (attr f.ies ie .goIntent)) := by
  obtain ⟨bs, hbs, hcontent⟩ := h.chList
  have hattr : attr f.ies ie .chList = some bs := by
    unfold attr
    rw [hbs]
    rfl
  refine ⟨bs, getPeerChList_content _ hcontent (hlist.2 bs hbs), ?_⟩
  rw [hattr]
  unfold reqTail
  dsimp only
  rw [owner_result h]

/-- **A request is answered after the common channels** exactly when these come in order and the
attributes fit. -/
theorem channelChosen_iff (h : GoRequest f d wps ie es) :
    ChannelChosen f d (peerChannels es)
      ↔ InPlanOrder d.wd.channelSet (peerChannels es) ∧ ReqEnds f d wps ie (peerChannels es) := by
  obtain ⟨hset, hop⟩ := reqDev_channels { d with cmUnset := false } (attr f.ies ie .goIntent)
  have howner : (reqDev { d with cmUnset := false } (attr f.ies ie .goIntent)).wd.role = .go := h.owner
  constructor
  · rintro ⟨hfound, status, d', hval, -⟩
    have hsome : (negotationReq f d).val ≠ none := by
      rw [hval]
      exact Option.some_ne_none _
    have hpwid := pwid_of_val h hsome
    rw [negotationReq_val h hpwid] at hsome
    obtain ⟨hcap, hintent, haddr, hlist, htail⟩ :=
      fits_of_reqTurn (fun hnone => hsome (by rw [hnone]; rfl))
    obtain ⟨bs, hpeer, heq⟩ := owner_tail h hlist
    rw [heq] at htail
    refine ⟨(inclusion_exact_iff _ _).mp hfound, hpwid, hcap, hintent, haddr, hlist, ?_⟩
    intro hcommon hown
    rw [← hfound] at hcommon hown
    exact fits_of_channelTurn hpeer howner htail (by rw [hset]; exact hcommon)
      (by rw [hset, hop]; exact hown)
  · rintro ⟨horder, hends⟩
    have hfound := (inclusion_exact_iff _ _).mpr horder
    obtain ⟨bs, hpeer, heq⟩ := owner_tail h hends.chList
    obtain ⟨on, status, d', hval, hans⟩ := channelTurn_answers hpeer howner (by rw [hset]; exact hfound)
      (by rw [hset, hop]; exact hends.operatingCh)
    rw [hset, hop] at hans
    refine ⟨hfound, status, d', ?_, hans⟩
    rw [negotationReq_val h hends.pwid, reqTurn_val hends, heq, hval]
    rfl

end

/-- **The common channels, and the request that is answered after them.** -/
theorem channel_choice_iff (set peer : List Nat) (f : NegoFrame) (d : NegoDev) (wps ie : Nat × Nat)
    (es : List Tlv) :
    (rtwP2pChInclusion set peer = commonChannels set peer ↔ InPlanOrder set peer)
      ∧ (GoRequest f d wps ie es →
        (ChannelChosen f d (peerChannels es)
          ↔ InPlanOrder d.wd.channelSet (peerChannels es) ∧ ReqEnds f d wps ie (peerChannels es))) :=
  ⟨inclusion_exact_iff set peer, channelChosen_iff⟩

/-! ## Two requests -/

/-- A WPS element, and a P2P element with an intent of 1 and three channels of one class. -/
def listRequest (a b c : UInt8) : NegoFrame where
  ies := fun k => ([0xdd, 0x04, 0x00, 0x50, 0xf2, 0x04, 0xdd, 0x13, 0x50, 0x6f, 0x9a, 0x09, 0x04, 0x01, 0x00,
    0x02, 0x0b, 0x08, 0x00, 0x55, 0x53, 0x04, 81, 0x03, a, b, c] : List UInt8).getD k 0
  iesLen := 27

theorem fits_of_lookup {m : Mem} {ie : Nat × Nat} {a : P2pAttr} {cap : Nat} {o : Option (List UInt8)}
    (h : lookup m ie a = some o) (hle : (o.getD []).length ≤ cap) : Fits m ie a cap := by
  unfold Fits AtMost
  rw [h]
  refine ⟨Option.some_ne_none o, ?_⟩
  intro bs hbs
  cases hbs
  exact hle

/-- The channels in the order of `channel_set`: its own one stays. -/
theorem channel_choice_sample :
    rtwP2pChInclusion [1, 6, 11] [1, 6, 11] = [1, 6, 11]
      ∧ ChannelChosen (listRequest 1 6 11) listeningDev [1, 6, 11] := by
  have horder : InPlanOrder [1, 6, 11] [1, 6, 11] := by
    unfold InPlanOrder
    decide
  have hlist : lookup (listRequest 1 6 11).ies (6, 21) .chList
      = some (some [0x55, 0x53, 0x04, 81, 0x03, 1, 6, 11]) := by decide
  have hintent : lookup (listRequest 1 6 11).ies (6, 21) .goIntent = some (some [0x02]) := by
    decide
  have hcap : lookup (listRequest 1 6 11).ies (6, 21) .capability = some none := by decide
  have haddr : lookup (listRequest 1 6 11).ies (6, 21) .intentedIfAddr = some none := by
    decide
  have hpwid : contentOf (listRequest 1 6 11).ies 4
      (rtwGetWpsAttr (listRequest 1 6 11).ies 0 6 0x1012) = some none := by decide
  have hrequest : GoRequest (listRequest 1 6 11) listeningDev (0, 6) (6, 21)
      [⟨81, [1, 6, 11], by decide⟩] :=
    { wpsIe := by decide
      gotInfo := rfl
      p2pIe := by decide
      noOther := by decide
      chList := ⟨_, hlist, [0x55, 0x53, 0x04], rfl, rfl⟩
      owner := by
        unfold attr
        rw [hintent]
        decide }
  have hends : ReqEnds (listRequest 1 6 11) listeningDev (0, 6) (6, 21) [1, 6, 11] :=
    { pwid := fun _ => ⟨none, hpwid, fun _ h => nomatch h⟩
      capability := fits_of_lookup hcap (by decide)
      goIntent := fits_of_lookup hintent (by decide)
      address := fits_of_lookup haddr (by decide)
      chList := fits_of_lookup hlist (by decide)
      operatingCh := fun _ hown => absurd hown (by decide) }
  obtain ⟨hfound, hanswer⟩ := channel_choice_iff [1, 6, 11] [1, 6, 11] (listRequest 1 6 11) listeningDev
    (0, 6) (6, 21) [⟨81, [1, 6, 11], by decide⟩]
  exact ⟨hfound.mpr horder, (hanswer hrequest).mpr ⟨horder, hends⟩⟩

/-- **In the other order only the first channel is found**, and the group owner leaves its own, which is
in both sets. -/
theorem channel_choice_misses :
    rtwP2pChInclusion [1, 6, 11] [11, 6, 1] = [11]
      ∧ commonChannels [1, 6, 11] [11, 6, 1] = [11, 6, 1]
      ∧ listeningDev.wd.operatingChannel = 6
      ∧ (negotationReq (listRequest 11 6 1) listeningDev).val.map
          (fun r => (r.1, r.2.wd.role, r.2.wd.operatingChannel))
        = some (P2pStatus.success.code, .go, 11)
      ∧ ¬ ChannelChosen (listRequest 11 6 1) listeningDev [11, 6, 1] := by
  have hfound : rtwP2pChInclusion [1, 6, 11] [11, 6, 1] = [11] := by decide
  have hcommon : commonChannels [1, 6, 11] [11, 6, 1] = [11, 6, 1] := by decide
  refine ⟨hfound, hcommon, rfl, by decide, ?_⟩
  intro h
  have hsame : rtwP2pChInclusion [1, 6, 11] [11, 6, 1] = commonChannels [1, 6, 11] [11, 6, 1] := h.found
  rw [hfound, hcommon] at hsame
  exact absurd hsame (by decide)

end Rtl8812au.P2p
