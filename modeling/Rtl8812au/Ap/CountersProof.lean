import Rtl8812au.Ap.TableProof
import Rtl8812au.Ap.CapsProof

/-!
# The counters of the BSS and the stations in it

`bss_cap_update_on_sta_leave` takes a station out of the six counters, and only `ap_free_sta`
calls it. The counters are right in a run in which no other function frees a station that is
counted, and in which no station that is counted as HT without greenfield, or without 40 MHz,
associates again as something else.

What a station asked for last is not a part of the driver's state, so the run carries it along.
-/

namespace Rtl8812au

/-! ## What a request lacks -/

/-- The rates of both elements. -/
def requestRates (m : Mem) (i : AssocIes) : List UInt8 :=
  match i.getIe m supportedratesIe with
  | none => []
  | some (p, len) =>
    m.read (p + 2) len ++
      match i.getIe m extSupportedratesIe with
      | none => []
      | some (q, extLen) => m.read (q + 2) extLen

/-- What a station that sends the request is capable of: the capability field, the rates and
the HT element. -/
def requestCaps (m : Mem) (pktLen : Nat) : StaCaps :=
  let i := assocIes m pktLen
  htOf m ((rtwParseElems m i.at' i.len).getD {})
    { shortPreamble := (m.le16 wlanHdrA3Len).testBit 5
      shortSlot := (m.le16 wlanHdrA3Len).testBit 10
      nonerp := (requestRates m i).all fun x => (x &&& 0x7f) ≤ 22 }

/-- The same of a frame. -/
def RecvFrame.requestCaps (f : RecvFrame) : StaCaps :=
  Rtl8812au.requestCaps (f.buf.shift f.rxData) f.len

section Checks

variable {c : AssocConf} {m : Mem} {i : AssocIes} {e : Elems} {rates : List UInt8} {r : StaCaps}
  {x : AssocResult}

theorem copyInto_done {size at' : Nat} {src n : Nat} {bytes : List UInt8}
    (h : copyInto size at' m src n = .done bytes) : at' + n ≤ size ∧ bytes = m.read src n := by
  unfold copyInto at h
  split at h
  · cases h
  · rename_i hfit
    cases h
    exact ⟨by omega, rfl⟩

/-- The rates that are kept are those of the request. -/
theorem checkRates_eq (h : checkRates m i = .done (some rates)) : rates = requestRates m i := by
  unfold checkRates at h
  unfold requestRates
  cases hsup : i.getIe m supportedratesIe with
  | none =>
    rw [hsup] at h
    cases h
  | some y =>
    obtain ⟨p, len⟩ := y
    rw [hsup] at h
    dsimp only at h ⊢
    obtain ⟨first, hfirst, h⟩ := Outcome.bind_eq_done.mp h
    obtain ⟨hlen, rfl⟩ := copyInto_done hfirst
    cases hext : i.getIe m extSupportedratesIe with
    | none =>
      rw [hext] at h
      cases h
      rw [List.append_nil]
    | some z =>
      obtain ⟨q, extLen⟩ := z
      rw [hext] at h
      dsimp only at h ⊢
      rw [if_pos (by omega)] at h
      obtain ⟨ext, hcopy, h⟩ := Outcome.bind_eq_done.mp h
      cases h
      rw [(copyInto_done hcopy).2]

/-- Of the old capabilities only the two HT fields are looked at, and both are overwritten. -/
theorem htOf_caps (m : Mem) (e : Elems) (r : StaCaps) (pre erp : Bool) :
    { htOf m e r with nonerp := erp, shortPreamble := pre } =
      htOf m e { shortPreamble := pre, nonerp := erp, shortSlot := r.shortSlot } := by
  unfold htOf
  cases e.htCapabilities with
  | none => rfl
  | some h =>
    obtain ⟨p, len⟩ := h
    dsimp only
    split
    · rfl
    · rfl

theorem checkTail_caps (h : checkTail c m i e rates r = .done x) (hok : x.status = .successful) :
    x.caps = htOf m e
      { shortPreamble := (m.le16 wlanHdrA3Len).testBit 5
        nonerp := rates.all fun x => (x &&& 0x7f) ≤ 22
        shortSlot := r.shortSlot } := by
  unfold checkTail at h
  dsimp only at h
  split at h
  · cases h
    cases hok
  · split at h
    · cases h
      cases hok
    · obtain ⟨status, -, h⟩ := Outcome.bind_eq_done.mp h
      cases h
      exact htOf_caps m e r _ _

/-- A request that is not refused for its ciphers gets to the rest of the checks. -/
theorem checkSecurity_tail (h : checkSecurity c m i e rates r = .done x)
    (hok : x.status = .successful) : checkTail c m i e rates r = .done x := by
  unfold checkSecurity at h
  dsimp only at h
  split at h
  · rename_i hwpa
    cases h
    exact absurd hok hwpa
  · split at h
    · split at h
      · rename_i hwps
        cases h
        exact absurd hok hwps
      · exact h
    · obtain ⟨y, -, h⟩ := Outcome.bind_eq_done.mp h
      split at h
      · rename_i hie
        cases h
        exact absurd hok hie
      · exact h

/-- **What the checks leave in the station** is what the request says, when it passes them. -/
theorem assocChecks_caps {pktLen : Nat} (h : assocChecks c m pktLen r = .done x)
    (hok : x.status = .successful) : x.caps = requestCaps m pktLen := by
  unfold assocChecks at h
  unfold requestCaps
  dsimp only at h ⊢
  generalize assocIes m pktLen = i at h ⊢
  cases hparse : rtwParseElems m i.at' i.len with
  | none =>
    rw [hparse] at h
    cases h
    cases hok
  | some e =>
    rw [hparse] at h
    dsimp only at h
    split at h
    · cases h
      cases hok
    · split at h
      · cases h
        cases hok
      · obtain ⟨y, hrates, h⟩ := Outcome.bind_eq_done.mp h
        cases y with
        | none =>
          cases h
          cases hok
        | some rates =>
          rw [checkTail_caps (checkSecurity_tail h hok) hok, checkRates_eq hrates]
          rfl

end Checks

/-! ## The history -/

/-- The access point, with the last request of each station that `OnAssocReq` has looked at. -/
structure History where
  ap : Ap
  latest : StaSlot → Option RecvFrame := fun _ => none

instance (a : Ap) (f : RecvFrame) (s : StaSlot) : Decidable (Asks a f s) :=
  inferInstanceAs (Decidable (_ ∧ _ ∧ _))

/-- What an event makes the last requests. -/
def noteRequest (a : Ap) (latest : StaSlot → Option RecvFrame) :
    ApEvent → StaSlot → Option RecvFrame
  | .assocReq f, s => if Asks a f s then some f else latest s
  | _, s => latest s

/-- An event. A station that is freed takes its request with it. -/
def History.step (h : History) (ev : ApEvent) : Outcome History :=
  (apStep h.ap ev) >>= fun a' =>
    .done ⟨a', fun s =>
      if s ∈ a'.priv.staHash then noteRequest h.ap h.latest ev s else none⟩

/-- The station is allocated, has completed its association, and its last request lacks `c`. -/
def Lacking (latest : StaSlot → Option RecvFrame) (a : Ap) (s : StaSlot) (c : Cap) : Prop :=
  s ∈ a.priv.staHash ∧ (a.mlme s).assocSuccess = true ∧
    (latest s).any (fun g => g.requestCaps.lacks c) = true

instance (latest : StaSlot → Option RecvFrame) (a : Ap) (s : StaSlot) (c : Cap) :
    Decidable (Lacking latest a s c) := inferInstanceAs (Decidable (_ ∧ _ ∧ _))

/-- **What the counters say**: the number of such stations. -/
def History.CountersRight (h : History) : Prop :=
  ∀ c, h.ap.bss.num c =
      ((Finset.univ.filter fun s => Lacking h.latest h.ap s c).card : Int) ∧
    0 ≤ h.ap.bss.num c

/-! ## The invariant -/

/-- The flag of every station says whether it lacks something, and the counters count the
flags. -/
structure CountsOk (latest : StaSlot → Option RecvFrame) (a : Ap) : Prop extends TableOk a where
  aided : ∀ s ∈ a.priv.staHash, (a.mlme s).assocSuccess = true → 0 < (a.priv.sta s).aid
  counted : Counted a.bss
  flags : ∀ s c, a.bss.isSet s c = true ↔ Lacking latest a s c

/-- For the stations other than `s` nothing is different that the counters depend on. -/
structure SameOthers (s : StaSlot) (a a' : Ap) : Prop where
  hash : ∀ k, k ≠ s → (k ∈ a'.priv.staHash ↔ k ∈ a.priv.staHash)
  aid : ∀ k, k ≠ s → (a'.priv.sta k).aid = (a.priv.sta k).aid
  done : ∀ k, k ≠ s → (a'.mlme k).assocSuccess = (a.mlme k).assocSuccess
  isSet : ∀ k, k ≠ s → a'.bss.isSet k = a.bss.isSet k

theorem SameOthers.trans {s : StaSlot} {a b d : Ap} (h : SameOthers s a b) (h' : SameOthers s b d) :
    SameOthers s a d where
  hash k hk := (h'.hash k hk).trans (h.hash k hk)
  aid k hk := (h'.aid k hk).trans (h.aid k hk)
  done k hk := (h'.done k hk).trans (h.done k hk)
  isSet k hk := (h'.isSet k hk).trans (h.isSet k hk)

section Invariant

variable {latest latest' : StaSlot → Option RecvFrame} {a a' : Ap} {s : StaSlot}

theorem CountsOk.right (h : CountsOk latest a) : History.CountersRight ⟨a, latest⟩ := by
  intro c
  refine ⟨?_, h.counted.nonneg c⟩
  rw [h.counted c]
  have hset : (Finset.univ.filter fun s => a.bss.isSet s c = true) =
      Finset.univ.filter fun s => Lacking latest a s c :=
    Finset.filter_congr fun s _ => h.flags s c
  rw [hset]

/-- The requests of stations that are not there do not matter. -/
theorem CountsOk.congr (h : CountsOk latest a) (hl : ∀ k ∈ a.priv.staHash, latest' k = latest k) :
    CountsOk latest' a := by
  refine ⟨h.toTableOk, h.aided, h.counted, fun k c => ?_⟩
  rw [h.flags k c]
  constructor
  · rintro ⟨hk, hdone, hany⟩
    exact ⟨hk, hdone, by rwa [hl k hk]⟩
  · rintro ⟨hk, hdone, hany⟩
    exact ⟨hk, hdone, by rwa [← hl k hk]⟩

/-- **One station changes**: what is left to show is about that station. -/
theorem CountsOk.update (h : CountsOk latest a) (hothers : SameOthers s a a') (htable : TableOk a')
    (hcounted : Counted a'.bss) (hl : ∀ k, k ≠ s → latest' k = latest k)
    (haided : (a'.mlme s).assocSuccess = true → s ∈ a'.priv.staHash → 0 < (a'.priv.sta s).aid)
    (hflags : ∀ c, a'.bss.isSet s c = true ↔ Lacking latest' a' s c) : CountsOk latest' a' := by
  refine ⟨htable, fun k hk hdone => ?_, hcounted, fun k c => ?_⟩
  · by_cases hks : k = s
    · subst hks
      exact haided hdone hk
    · rw [hothers.aid k hks]
      rw [hothers.done k hks] at hdone
      exact h.aided k ((hothers.hash k hks).mp hk) hdone
  · by_cases hks : k = s
    · subst hks
      exact hflags c
    · rw [hothers.isSet k hks, h.flags k c]
      unfold Lacking
      rw [hothers.hash k hks, hothers.done k hks, hl k hks]

/-- No station changes. -/
theorem CountsOk.keep (h : CountsOk latest a) (htable : TableOk a') (hpriv : SameAids a.priv a'.priv)
    (hdone : ∀ k, (a'.mlme k).assocSuccess = (a.mlme k).assocSuccess) (hbss : a'.bss = a.bss) :
    CountsOk latest a' := by
  refine ⟨htable, fun k hk hk' => ?_, ?_, fun k c => ?_⟩
  · rw [(hpriv.sta k).2]
    rw [hpriv.staHash] at hk
    rw [hdone k] at hk'
    exact h.aided k hk hk'
  · rw [hbss]
    exact h.counted
  · rw [hbss, h.flags k c]
    unfold Lacking
    rw [hpriv.staHash, hdone k]

/-! ## A station is freed -/

theorem freeSta_others (a : Ap) (s : StaSlot) :
    SameOthers s a (a.freeSta s) ∧ s ∉ (a.freeSta s).priv.staHash ∧ (a.freeSta s).bss = a.bss := by
  obtain ⟨-, hmlme, hbss, -, -⟩ := offAuth_rest a s
  have hf := freed_freeStainfo a.priv s
  have hhash : (a.freeSta s).priv.staHash = a.priv.staHash.filter (· != s) := hf.staHash
  refine ⟨⟨fun k hk => ?_, fun k hk => ?_, fun k _ => ?_, fun k _ => ?_⟩, ?_, hbss⟩
  · rw [hhash, List.mem_filter]
    exact ⟨fun h => h.1, fun h => ⟨h, by simpa using hk⟩⟩
  · exact (congrArg TxSta.aid (hf.others k hk)).trans rfl
  · exact congrArg MlmeSta.assocSuccess (congrFun hmlme k)
  · exact congrArg (fun b : Bss => b.isSet k) hbss
  · rw [hhash]
    intro hmem
    simpa using (List.mem_filter.mp hmem).2

/-- A station that is in no counter can be freed without a word to the BSS. -/
theorem CountsOk.freeSta (h : CountsOk latest a) (hs : s ∈ a.priv.staHash) (hno : s ∉ a.asocList)
    (hclear : ∀ c, a.bss.isSet s c = false) : CountsOk latest (a.freeSta s) := by
  obtain ⟨hothers, hgone, hbss⟩ := freeSta_others a s
  refine h.update hothers (h.toTableOk.freeSta hs hno) ?_ (fun _ _ => rfl)
    (fun _ hs' => absurd hs' hgone) fun c => ?_
  · rw [hbss]
    exact h.counted
  · rw [hbss, hclear c]
    exact ⟨fun hf => absurd hf (by simp), fun hl => absurd hl.1 hgone⟩

/-- `ap_free_sta` takes the station out of the counters first. -/
theorem CountsOk.leave (h : CountsOk latest a) (hs : s ∈ a.asocList) :
    CountsOk latest ((a.offAsoc s).apFreeSta s) := by
  obtain ⟨hpriv, hmlme, hbss, -, -⟩ := offAsoc_rest a s
  obtain ⟨hothers, hgone, hbss'⟩ :=
    freeSta_others { a.offAsoc s with bss := (bssCapUpdateOnStaLeave (a.offAsoc s).bss s).1 } s
  have hfirst : SameOthers s a
      { a.offAsoc s with bss := (bssCapUpdateOnStaLeave (a.offAsoc s).bss s).1 } := by
    refine ⟨fun k _ => ?_, fun k _ => ?_, fun k _ => ?_, fun k hk => ?_⟩
    · rw [hpriv]
    · rw [hpriv]
    · rw [hmlme]
    · funext c
      rw [hbss]
      exact (leave_isSet a.bss s k c).trans (if_neg hk)
  refine h.update (hfirst.trans hothers) (h.toTableOk.leave hs) ?_ (fun _ _ => rfl)
    (fun _ hs' => absurd hs' hgone) fun c => ?_
  · show Counted (Ap.freeSta _ s).bss
    rw [hbss', hbss]
    exact h.counted.leave s
  · show (Ap.freeSta _ s).bss.isSet s c = true ↔ _
    rw [hbss']
    refine ⟨fun hf => ?_, fun hl => absurd hl.1 hgone⟩
    rw [leave_isSet, if_pos rfl] at hf
    exact absurd hf (by simp)

theorem calm_countsOk (latest : StaSlot → Option RecvFrame) : Calm (CountsOk latest) where
  nodup h := ⟨h.auth.nodup, h.asoc.nodup⟩
  priv h hp := h.keep (passive_tableOk.priv h.toTableOk hp) hp (fun _ => rfl) rfl
  tries n h := h.keep (passive_tableOk.tries n h.toTableOk) (SameAids.refl _)
    (updMlme_assocSuccess (u := fun x => { x with keepAliveTrycnt := n x }) rfl) rfl
  leave h hs := h.leave hs

end Invariant

/-! ## `OnAuth` -/

/-- `OnAuth` knows the station the frame comes from, and ends at `auth_fail` with it. -/
def AuthFails (a : Ap) (f : RecvFrame) (s : StaSlot) : Prop :=
  ∃ d off, authFrame a.conf.sec f = .done (d, off) ∧
    badAlg (authMode a.conf.sec) ((d.buf.shift d.rxData).le16 (wlanHdrA3Len + off)) = false ∧
    rtwAccessCtrl a.conf (Wifi.getAddr2 (d.buf.shift d.rxData) 0) = true ∧
    a.priv.getStainfo (Wifi.getAddr2 (d.buf.shift d.rxData) 0) = some s ∧
    authEnd (authMode a.conf.sec) (a.mlme s) (d.buf.shift d.rxData) d.len
      ((d.buf.shift d.rxData).le16 (wlanHdrA3Len + off))
      ((d.buf.shift d.rxData).le16 (wlanHdrA3Len + off + 2)) = .fail

section Auth

variable {latest : StaSlot → Option RecvFrame} {a a' b : Ap} {s : StaSlot}

/-- A new station is in no counter. -/
theorem CountsOk.allocSta {sa : MacAddr} (h : CountsOk latest a)
    (ha : a.allocSta sa = some (s, b)) : CountsOk latest b ∧ ∀ c, b.bss.isSet s c = false := by
  obtain ⟨-, -, -, hhash, -, hmlme, hrest⟩ := allocSta_new ha
  obtain ⟨hnum, hset⟩ := allocSta_bss ha
  have hnew : s ∉ a.priv.staHash := by
    unfold Ap.allocSta at ha
    obtain ⟨r, halloc, hr⟩ := Option.map_eq_some_iff.mp ha
    cases hr
    exact (h.aids.allocStainfo halloc).2.1
  have hclear : ∀ c, b.bss.isSet s c = false := fun c => (hset s c).trans (if_pos rfl)
  have hsame : b.bss.isSet = a.bss.isSet := by
    funext k c
    rw [hset k c]
    split
    · rename_i hk
      rw [hk, eq_comm, Bool.eq_false_iff]
      exact fun hs => hnew ((h.flags s c).mp hs).1
    · rfl
  have hdone : (b.mlme s).assocSuccess = false := by rw [hmlme]
  refine ⟨h.update (s := s) ?_ (h.toTableOk.allocSta ha).1 (h.counted.of_eq hnum hsame)
    (fun _ _ => rfl) ?_ fun c => ?_, hclear⟩
  · refine ⟨fun k hk => ?_, fun k hk => ?_, fun k hk => ?_, fun k _ => congrFun hsame k⟩
    · rw [hhash, List.mem_append, List.mem_singleton, or_iff_left hk]
    · rw [(hrest k hk).1]
    · rw [(hrest k hk).2]
  · intro hs
    rw [hdone] at hs
    cases hs
  · rw [hclear c]
    refine ⟨fun hf => absurd hf (by simp), fun hl => ?_⟩
    exact absurd hl.2.1 (by simp [hdone])

/-- Whatever `OnAuth` decides, a station that it does not free stays as it is. -/
theorem CountsOk.authApply (h : CountsOk latest a) (hs : s ∈ a.priv.staHash) (hno : s ∉ a.asocList)
    (e : AuthEnd) (hfail : e = .fail → ∀ c, a.bss.isSet s c = false) :
    CountsOk latest (Rtl8812au.authApply a s e) := by
  have htable := h.toTableOk.authApply hs hno e
  have hsucc : SameAids a.priv (a.authSucceeds s).priv := (SameAids.refl _).updSta
    (u := fun x => { x with authSuccess := true, expireTo := a.conf.assocTo }) ⟨rfl, rfl⟩
  cases e with
  | fail => exact h.freeSta hs hno (hfail rfl)
  | opened =>
    exact h.keep htable hsucc (updMlme_assocSuccess (a := a.authSucceeds s)
      (u := fun x => { x with authNull := false, authSeq := 0 }) rfl) rfl
  | challenged =>
    exact h.keep htable (SameAids.refl _) (updMlme_assocSuccess (u := fun x =>
      { x with
        chgTxt := List.replicate 128 78
        authNull := false
        authState := true
        authSeq := if (a.priv.sta s).authSuccess then 0 else 2 }) rfl) rfl
  | proven =>
    exact h.keep htable hsucc (updMlme_assocSuccess (a := a.authSucceeds s)
      (u := fun x => { x with authState := false, authSeq := 0 }) rfl) rfl

theorem CountsOk.onAuth {f : RecvFrame} (h : CountsOk latest a)
    (hok : ∀ s, AuthFails a f s → ∀ c, a.bss.isSet s c = false)
    (hdone : Rtl8812au.onAuth a f = .done a') : CountsOk latest a' := by
  rcases onAuth_cases hdone with rfl | ⟨d, off, s, b, hframe, hbad, hacl, hsta, rfl⟩
  · exact h
  · obtain ⟨htable, hs, hno⟩ := h.toTableOk.authStation hsta
    obtain ⟨hwtable, hs', hno'⟩ := htable.authWait hs hno
    obtain ⟨hwbss, hwsame⟩ := authWait_same b s
    have hwmlme := (authWait_rest b s).2.1
    have hwait : ∀ {b : Ap}, CountsOk latest b → TableOk (authWait b s) →
        CountsOk latest (authWait b s) := by
      intro b hb htable
      obtain ⟨hbss, hsame⟩ := authWait_same b s
      refine hb.keep htable hsame (fun k => ?_) hbss
      rw [(authWait_rest b s).2.1]
    rcases authStation_cases hsta with ⟨hget, rfl⟩ | halloc
    · -- a station that is counted comes again: it must not fail
      obtain ⟨hpriv, hmlme, hbss, -, -⟩ := offAsoc_rest a s
      have hoff : CountsOk latest (a.offAsoc s) := by
        refine h.keep htable ?_ (fun k => ?_) hbss
        · rw [hpriv]
          exact SameAids.refl _
        · rw [hmlme]
      refine (hwait hoff hwtable).authApply hs' hno' _ fun hfail => ?_
      rw [hwbss, hbss]
      rw [hwmlme, hmlme] at hfail
      exact hok s ⟨d, off, hframe, hbad, hacl, hget, hfail⟩
    · obtain ⟨hb, hclear⟩ := h.allocSta halloc
      refine (hwait hb hwtable).authApply hs' hno' _ fun _ => ?_
      rw [hwbss]
      exact hclear

end Auth

/-! ## `OnAssocReq` -/

section Assoc

variable {latest latest' : StaSlot → Option RecvFrame} {a a' : Ap} {s : StaSlot}

/-- `b` is `a` after the checks of a request of `s`: the station has at most lost its
association, and nobody is in another counter. -/
structure Learned (a : Ap) (s : StaSlot) (r : StaCaps) (b : Ap) : Prop where
  others : SameOthers s a b
  aids : SameAids a.priv b.priv
  lost : (b.mlme s).assocSuccess = true → (a.mlme s).assocSuccess = true
  bss : b.bss = a.bss.setCaps s r

theorem learned (a : Ap) (s : StaSlot) (r : AssocResult) :
    Learned a s r.caps ((a.asking s).learn s r) := by
  obtain ⟨hsame, hmlme⟩ := sameTable_asking a s
  have hlearn := sameTable_learn (a.asking s) s r
  have haids : SameAids a.priv ((a.asking s).learn s r).priv :=
    hsame.priv.trans hlearn.priv
  have hbss : ((a.asking s).learn s r).bss = a.bss.setCaps s r.caps := by
    show (a.asking s).bss.setCaps s r.caps = _
    unfold Ap.asking
    split
    · rfl
    · rfl
  refine ⟨⟨fun k _ => ?_, fun k _ => (haids.sta k).2, hmlme, fun k _ => ?_⟩, haids, ?_, hbss⟩
  · rw [haids.staHash]
  · rw [hbss]
    rfl
  · show ((a.asking s).mlme s).assocSuccess = true → _
    unfold Ap.asking
    split
    · intro h
      rwa [updMlme_assocSuccess (u := fun x => { x with assocState := true }) rfl] at h
    · intro h
      simp [Ap.updMlme] at h

/-- A station that is accepted is in the counters its capabilities put it in. -/
theorem accept_others (a : Ap) (s : StaSlot) :
    SameOthers s a (a.accept s) ∧ SameAids a.priv (a.accept s).priv ∧
      ((a.accept s).mlme s).assocSuccess = true ∧
      (a.accept s).bss = (bssCapUpdateOnStaJoin a.bss s).1 := by
  obtain ⟨hpriv, hmlme, hbss, -, -⟩ := offAuth_rest
    (a.updMlme s fun x => { x with assocState := false, assocSuccess := true }) s
  have hself : ((a.updMlme s fun x =>
      { x with assocState := false, assocSuccess := true }).mlme s).assocSuccess = true :=
    congrArg MlmeSta.assocSuccess (if_pos rfl)
  have hother : ∀ k, k ≠ s → ((a.updMlme s fun x =>
      { x with assocState := false, assocSuccess := true }).mlme k).assocSuccess =
        (a.mlme k).assocSuccess := fun k hk => congrArg MlmeSta.assocSuccess (if_neg hk)
  unfold Ap.accept
  dsimp only
  rw [← hmlme] at hself hother
  generalize (a.updMlme s fun x => { x with assocState := false, assocSuccess := true }).offAuth s =
    d at hpriv hmlme hbss hself hother ⊢
  have honto : SameAids d.priv (d.ontoAsoc s).priv ∧ (d.ontoAsoc s).mlme = d.mlme ∧
      (d.ontoAsoc s).bss = d.bss := by
    unfold Ap.ontoAsoc
    split
    · exact ⟨SameAids.refl _, rfl, rfl⟩
    · exact ⟨(SameAids.refl _).updSta (u := fun x => { x with expireTo := d.priv.expireTo })
        ⟨rfl, rfl⟩, rfl, rfl⟩
  obtain ⟨hpriv', hmlme', hbss'⟩ := honto
  rw [hpriv] at hpriv'
  have haids : SameAids a.priv (linkSta (d.ontoAsoc s).priv s) :=
    hpriv'.updSta (u := fun x => { x with linked := true }) ⟨rfl, rfl⟩
  have hbssEq : (bssCapUpdateOnStaJoin (d.ontoAsoc s).bss s).1 =
      (bssCapUpdateOnStaJoin a.bss s).1 := by
    rw [hbss', hbss]
    rfl
  refine ⟨⟨fun k _ => ?_, fun k _ => (haids.sta k).2, fun k hk => ?_, fun k hk => ?_⟩, haids, ?_,
    hbssEq⟩
  · rw [haids.staHash]
  · rw [hmlme']
    exact hother k hk
  · funext c
    rw [hbssEq, join_isSet, if_neg hk]
  · rw [hmlme']
    exact hself

/-- The condition on a request. A station that has an AID is not refused; and when it is
counted as HT without greenfield, or without 40 MHz, it asks as such a station again. -/
def RejoinsAlike (a : Ap) (f : RecvFrame) : Prop :=
  ∀ s, Asks a f s → 0 < (a.priv.sta s).aid →
    Acceptable a.assocConf (f.buf.shift f.rxData) f.len ∧
      ∀ c, c = .htNoGf ∨ c = .ht20mhz → a.bss.isSet s c = true → f.requestCaps.lacks c = true

/-- A station without an AID is in no counter. -/
theorem CountsOk.fresh (h : CountsOk latest a) (hs : s ∈ a.priv.staHash)
    (h0 : (a.priv.sta s).aid = 0) :
    (a.mlme s).assocSuccess = false ∧ ∀ c, a.bss.isSet s c = false := by
  have hno : ¬ (a.mlme s).assocSuccess = true := by
    intro hdone
    have := h.aided s hs hdone
    omega
  refine ⟨by simpa using hno, fun c => ?_⟩
  rw [Bool.eq_false_iff]
  exact fun hset => hno ((h.flags s c).mp hset).2.1

/-- A request is refused to a station without an AID. -/
theorem CountsOk.refuse {b : Ap} {r : StaCaps} (h : CountsOk latest a) (hb : Learned a s r b)
    (hs : s ∈ a.priv.staHash) (h0 : (a.priv.sta s).aid = 0)
    (hl : ∀ k, k ≠ s → latest' k = latest k) (htable : TableOk (b.refuse s)) :
    CountsOk latest' (b.refuse s) := by
  obtain ⟨hundone, hclear⟩ := h.fresh hs h0
  have hundone' : ¬ (b.mlme s).assocSuccess = true := by
    intro hdone
    rw [hb.lost hdone] at hundone
    cases hundone
  have hrefuse : SameOthers s b (b.refuse s) :=
    ⟨fun k _ => Iff.rfl, fun k hk => congrArg TxSta.aid (if_neg hk), fun k _ => rfl,
      fun k _ => rfl⟩
  refine h.update (hb.others.trans hrefuse) htable ?_ hl (fun hdone => absurd hdone hundone') ?_
  · show Counted b.bss
    rw [hb.bss]
    exact h.counted.of_eq rfl rfl
  · intro c
    refine ⟨fun hset => ?_, fun hlack => absurd hlack.2.1 hundone'⟩
    have hset' : b.bss.isSet s c = true := hset
    rw [hb.bss] at hset'
    exact absurd ((hclear c).symm.trans hset') (by simp)

/-- In the two counters that a join never leaves, the flag is right only for a station that
belongs there still. -/
theorem joinFlag_eq {c : Cap} {old lacks : Bool}
    (h : c = .htNoGf ∨ c = .ht20mhz → old = true → lacks = true) : joinFlag c old lacks = lacks := by
  cases c with
  | htNoGf => cases old <;> simp_all [joinFlag]
  | ht20mhz => cases old <;> simp_all [joinFlag]
  | nonErp => rfl
  | noShortPreamble => rfl
  | noShortSlotTime => rfl
  | noHt => rfl

/-- A request is granted. -/
theorem CountsOk.accept {b : Ap} {p : StaPriv} {f : RecvFrame} (h : CountsOk latest a)
    (hb : Learned a s f.requestCaps b) (hs : s ∈ a.priv.staHash) (hp : assocAid b.priv s = some p)
    (hl : ∀ k, k ≠ s → latest' k = latest k) (hself : latest' s = some f)
    (halike : ∀ c, c = .htNoGf ∨ c = .ht20mhz → a.bss.isSet s c = true →
      f.requestCaps.lacks c = true)
    (htable : TableOk ({ b with priv := p }.accept s)) :
    CountsOk latest' ({ b with priv := p }.accept s) := by
  have hs' : s ∈ b.priv.staHash := by rwa [hb.aids.staHash]
  obtain ⟨-, hpos, hhash, hother⟩ := (h.aids.same hb.aids).assocAid hs' hp
  obtain ⟨haccept, haids, hsuccess, hjoin⟩ := accept_others { b with priv := p } s
  have hmid : SameOthers s b { b with priv := p } := by
    refine ⟨fun k _ => ?_, fun k hk => ?_, fun k _ => rfl, fun k _ => rfl⟩
    · rw [hhash]
    · rw [hother k hk]
  refine h.update ((hb.others.trans hmid).trans haccept) htable ?_ hl ?_ ?_
  · rw [hjoin]
    refine Counted.join ?_ s
    show Counted b.bss
    rw [hb.bss]
    exact h.counted.of_eq rfl rfl
  · intro _ _
    rw [(haids.sta s).2]
    exact hpos
  · intro c
    have hcaps : (a.bss.setCaps s f.requestCaps).caps s = f.requestCaps := if_pos rfl
    have hflag : ({ b with priv := p }.accept s).bss.isSet s c = f.requestCaps.lacks c := by
      rw [hjoin, join_isSet, if_pos rfl]
      show joinFlag c (b.bss.isSet s c) ((b.bss.caps s).lacks c) = _
      rw [hb.bss, hcaps]
      exact joinFlag_eq (halike c)
    rw [hflag]
    unfold Lacking
    rw [hself, hsuccess, haids.staHash, hhash]
    simp [hs']

theorem CountsOk.onAssocReq {f : RecvFrame} (h : CountsOk latest a) (hok : RejoinsAlike a f)
    (hdone : Rtl8812au.onAssocReq a f = .done a') :
    CountsOk (noteRequest a latest (.assocReq f)) a' := by
  have htable : TableOk a' :=
    h.toTableOk.onAssocReq (fun s hasks hpos => (hok s hasks hpos).1) hdone
  rcases onAssocReq_cases hdone with ⟨rfl, hnone⟩ | ⟨s, r, hasks, hchecks, rfl⟩
  · exact h.congr fun k _ => if_neg (hnone k)
  · have hnote : ∀ k, k ≠ s → noteRequest a latest (.assocReq f) k = latest k := by
      intro k hk
      exact if_neg fun hk' => hk (Option.some.inj (hk'.2.1.symm.trans hasks.2.1))
    have hs : s ∈ a.priv.staHash := (getStainfo_some hasks.2.1).1
    have hb := learned a s r
    generalize (a.asking s).learn s r = b at hb htable ⊢
    rcases assocFinish_cases b s r.status with ⟨heq, hwhy⟩ | ⟨p, hsucc, hp, heq⟩
    · rw [heq] at htable ⊢
      have h0 : (a.priv.sta s).aid = 0 := by
        rcases hwhy with hbad | h0
        · refine Nat.eq_zero_of_not_pos fun hpos => ?_
          exact hbad ((assocChecks_status hchecks).mpr (hok s hasks hpos).1)
        · rwa [(hb.aids.sta s).2] at h0
      exact h.refuse hb hs h0 hnote htable
    · rw [heq] at htable ⊢
      have hcaps : r.caps = f.requestCaps := assocChecks_caps hchecks hsucc
      rw [hcaps] at hb
      refine h.accept hb hs hp hnote (if_pos hasks) ?_ htable
      intro c hc hset
      rcases Nat.eq_zero_or_pos (a.priv.sta s).aid with h0 | hpos
      · rw [(h.fresh hs h0).2 c] at hset
        cases hset
      · exact (hok s hasks hpos).2 c hc hset

end Assoc

/-! ## Runs -/

/-- **The condition of one event**: `OnAuth` and the loop over `auth_list` free no station that
is in a counter, and the requests are as above. -/
def CountersEventOk (a : Ap) : ApEvent → Prop
  | .auth f => ∀ s, AuthFails a f s → ∀ c, a.bss.isSet s c = false
  | .assocReq f => RejoinsAlike a f
  | .expire _ => ∀ s ∈ a.authList, (a.priv.sta s).expireTo = 1 → ∀ c, a.bss.isSet s c = false
  | _ => True

/-- The loop over `auth_list` does not touch the counters, so who is in them when it starts is
all that matters. -/
theorem CountsOk.expireAuths {latest : StaSlot → Option RecvFrame} {a : Ap} (h : CountsOk latest a)
    (hok : ∀ s ∈ a.authList, (a.priv.sta s).expireTo = 1 → ∀ c, a.bss.isSet s c = false) :
    CountsOk latest (a.authList.foldl expireAuth a) := by
  refine (expireAuths_keep (P := fun b => CountsOk latest b ∧ b.bss = a.bss)
    (Q := fun s => ∀ c, a.bss.isSet s c = false) ?_ ?_ a.authList ⟨h, rfl⟩ h.auth.nodup
    (fun _ hs => hs) hok).1
  · rintro b s n ⟨hb, hbss⟩
    exact ⟨(calm_countsOk latest).setExpireTo hb n, hbss⟩
  · rintro b s ⟨hb, hbss⟩ hs hclear
    obtain ⟨hpriv, hmlme, hbss', -, hasoc⟩ := offAuth_rest b s
    have hoff : CountsOk latest (b.offAuth s) := by
      refine hb.keep (hb.toTableOk.offAuth s) ?_ (fun k => ?_) hbss'
      · rw [hpriv]
        exact SameAids.refl _
      · rw [hmlme]
    have hfree : CountsOk latest ((b.offAuth s).freeSta s) := by
      refine hoff.freeSta ?_ ?_ ?_
      · rw [hpriv]
        exact hb.authAlloc s hs
      · rw [hasoc]
        exact hb.apart s hs
      · rw [hbss', hbss]
        exact hclear
    refine ⟨hfree, ?_⟩
    rw [(freeSta_others _ s).2.2, hbss', hbss]

/-- **One event** keeps the counters right. -/
theorem CountsOk.step {h h' : History} {ev : ApEvent} (hinv : CountsOk h.latest h.ap)
    (hok : CountersEventOk h.ap ev) (hstep : h.step ev = .done h') : CountsOk h'.latest h'.ap := by
  obtain ⟨a', ha, hdone⟩ := Outcome.bind_eq_done.mp hstep
  cases hdone
  -- before the requests of the stations that are gone are forgotten
  have hnote : CountsOk (noteRequest h.ap h.latest ev) a' := by
    cases ev with
    | auth f => exact hinv.onAuth hok ha
    | assocReq f => exact hinv.onAssocReq hok ha
    | deauth f =>
      cases ha
      exact (calm_countsOk h.latest).stationLeaves hinv f
    | disassoc f =>
      cases ha
      exact (calm_countsOk h.latest).stationLeaves hinv f
    | expire t =>
      cases ha
      exact (calm_countsOk h.latest).expireTimeoutChk t (hinv.expireAuths hok)
    | traffic op => exact (calm_countsOk h.latest).traffic hinv ha
  exact hnote.congr fun k hk => if_pos hk

theorem countsOk_start (conf : ApConf) (hiq : HiqFilter) (expireTo : Nat) {maxNumSta : Nat}
    (hmax : maxNumSta ≤ numSta) (b : Bss) :
    CountsOk (fun _ => none) (startAp conf hiq expireTo maxNumSta b) := by
  refine ⟨tableOk_start conf hiq expireTo hmax b, ?_, ?_, ?_⟩
  · intro s _ hdone
    cases hdone
  · intro c
    show (0 : Int) = _
    simp [startAp]
  · intro s c
    refine ⟨fun hset => ?_, fun hlack => ?_⟩
    · cases hset
    · cases hlack.2.1

/-- **The counters match the stations** in every state that is reached from the start by events
that meet the condition. -/
theorem capability_counters_match {conf : ApConf} {hiq : HiqFilter} {expireTo maxNumSta : Nat}
    {b : Bss} {h : History} (hmax : maxNumSta ≤ numSta)
    (hreach : Reach History.step (fun h ev => CountersEventOk h.ap ev)
      ⟨startAp conf hiq expireTo maxNumSta b, fun _ => none⟩ h) : h.CountersRight := by
  have hinv : CountsOk h.latest h.ap :=
    hreach.invariant (fun h => CountsOk h.latest h.ap) (countsOk_start conf hiq expireTo hmax b)
      fun hinv hev hstep => hinv.step hev hstep
  exact hinv.right

/-- The station is in the counter of its old rates when it has associated. -/
theorem capability_counters_match_sample : ∃ h,
    runActions History.step ⟨sampleAp, fun _ => none⟩ sampleJoin = .done h ∧
      h.ap.bss.num .nonErp = 1 ∧ h.CountersRight := by
  obtain ⟨h, hrun, hview⟩ := Outcome.of_view
    (f := fun h : History => h.ap.bss.num .nonErp)
    (show (runActions History.step ⟨sampleAp, fun _ => none⟩ sampleJoin).view _ = some (1 : Int)
      by decide)
  -- when the request comes no station has an AID
  have hfirst : ∀ h', History.step ⟨sampleAp, fun _ => none⟩ (.auth (openAuth sampleStaAddr)) =
      .done h' → ∀ s, (h'.ap.priv.sta s).aid = 0 := by
    intro h' hstep
    have hnone : (History.step ⟨sampleAp, fun _ => none⟩ (.auth (openAuth sampleStaAddr))).view
        (fun h => decide (∀ s, (h.ap.priv.sta s).aid = 0)) = some true := by decide
    rw [hstep] at hnone
    exact of_decide_eq_true (Option.some.inj hnone)
  refine ⟨h, hrun, hview, ?_⟩
  refine capability_counters_match (Nat.le_refl numSta) (reach_runActions Reach.start ?_ hrun)
  refine ⟨fun s _ c => rfl, fun h' hstep => ⟨?_, fun _ _ => trivial⟩⟩
  intro s _ hpos
  rw [hfirst h' hstep s] at hpos
  exact absurd hpos (Nat.lt_irrefl 0)

/-- It authenticates again, with a frame that says it is the second: `OnAuth` frees the station,
and the counter keeps it for good. -/
theorem failed_auth_leaves_counter : ∃ h,
    runActions History.step ⟨sampleAp, fun _ => none⟩
      (sampleJoin ++ [.auth (mgtFrame 0xb0 0 sampleStaAddr [0, 0, 2, 0, 0, 0])]) = .done h ∧
    h.ap.bss.num .nonErp = 1 ∧ (∀ s, ¬ Lacking h.latest h.ap s .nonErp) ∧
    ¬ h.CountersRight := by
  obtain ⟨h, hrun, hview⟩ := Outcome.of_view
    (f := fun h : History => (h.ap.bss.num .nonErp, decide (∀ s, ¬ Lacking h.latest h.ap s .nonErp)))
    (show (runActions History.step ⟨sampleAp, fun _ => none⟩
      (sampleJoin ++ [.auth (mgtFrame 0xb0 0 sampleStaAddr [0, 0, 2, 0, 0, 0])])).view _ =
        some ((1 : Int), true)
      by decide)
  simp only [Prod.mk.injEq, decide_eq_true_eq] at hview
  obtain ⟨hnum, hnone⟩ := hview
  refine ⟨h, hrun, hnum, hnone, ?_⟩
  intro hright
  have hcard := (hright .nonErp).1
  have hempty : (Finset.univ.filter fun s => Lacking h.latest h.ap s .nonErp) = ∅ :=
    Finset.filter_eq_empty_iff.mpr fun s _ => hnone s
  rw [hnum, hempty] at hcard
  cases hcard

end Rtl8812au
