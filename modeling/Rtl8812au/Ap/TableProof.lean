import Rtl8812au.Ap.MlmeRules

/-!
# The association table

Five handlers change the two lists, their counts, `sta_aid` and the state bits of a station,
each some of them. What they keep is `TableOk`; the one way out of it is a request that is
refused to a station that has an AID, after which `sta_aid` still points to the station.
-/

namespace Rtl8812au

/-! ## The lists -/

/-- A list of stations with its count. -/
structure ListCount (l : List StaSlot) (n : Int) : Prop where
  nodup : l.Nodup
  count : n = l.length

namespace ListCount

variable {l : List StaSlot} {n : Int} {s : StaSlot}

theorem remove (h : ListCount l n) (hs : s ∈ l) : ListCount (l.filter (· != s)) (n - 1) := by
  have herase : l.erase s = l.filter (· != s) := h.nodup.erase_eq_filter s
  refine ⟨h.nodup.filter _, ?_⟩
  rw [h.count, ← herase, List.length_erase_of_mem hs]
  have := List.length_pos_of_mem hs
  omega

theorem append (h : ListCount l n) (hs : s ∉ l) : ListCount (l ++ [s]) (n + 1) := by
  constructor
  · exact nodup_snoc h.nodup hs
  · rw [h.count, List.length_append]
    rfl

end ListCount

/-- The table, but for the state of the associated stations. -/
structure TableCore (a : Ap) : Prop where
  aids : AidsOk a.priv
  auth : ListCount a.authList a.authListCnt
  asoc : ListCount a.asocList a.asocListCnt
  authAlloc : ∀ s ∈ a.authList, s ∈ a.priv.staHash
  asocAlloc : ∀ s ∈ a.asocList, s ∈ a.priv.staHash
  apart : ∀ s ∈ a.authList, s ∉ a.asocList
  asocAid : ∀ s ∈ a.asocList, 0 < (a.priv.sta s).aid

/-- **The invariant of the table.** -/
structure TableOk (a : Ap) : Prop extends TableCore a where
  asocDone : ∀ s ∈ a.asocList, (a.mlme s).assocSuccess = true

/-- The table is the same. -/
structure SameTable (a a' : Ap) : Prop where
  priv : SameAids a.priv a'.priv
  authList : a'.authList = a.authList
  authListCnt : a'.authListCnt = a.authListCnt
  asocList : a'.asocList = a.asocList
  asocListCnt : a'.asocListCnt = a.asocListCnt

section Table

variable {a a' : Ap} {s : StaSlot}

theorem TableCore.same (h : TableCore a) (hs : SameTable a a') : TableCore a' := by
  obtain ⟨hpriv, hauth, hauthCnt, hasoc, hasocCnt⟩ := hs
  refine ⟨h.aids.same hpriv, ?_, ?_, ?_, ?_, ?_, ?_⟩
  · rw [hauth, hauthCnt]
    exact h.auth
  · rw [hasoc, hasocCnt]
    exact h.asoc
  · rw [hauth, hpriv.staHash]
    exact h.authAlloc
  · rw [hasoc, hpriv.staHash]
    exact h.asocAlloc
  · rw [hauth, hasoc]
    exact h.apart
  · intro k hk
    rw [hasoc] at hk
    rw [(hpriv.sta k).2]
    exact h.asocAid k hk

theorem TableOk.same (h : TableOk a) (hs : SameTable a a')
    (hm : ∀ k, (a'.mlme k).assocSuccess = (a.mlme k).assocSuccess) : TableOk a' := by
  refine ⟨h.toTableCore.same hs, ?_⟩
  intro k hk
  rw [hs.asocList] at hk
  rw [hm k]
  exact h.asocDone k hk

theorem SameTable.refl (a : Ap) : SameTable a a := ⟨SameAids.refl _, rfl, rfl, rfl, rfl⟩

theorem sameTable_updTx {u : TxSta → TxSta}
    (hu : (u (a.priv.sta s)).hwaddr = (a.priv.sta s).hwaddr ∧
      (u (a.priv.sta s)).aid = (a.priv.sta s).aid) : SameTable a (a.updTx s u) :=
  ⟨(SameAids.refl _).updSta hu, rfl, rfl, rfl, rfl⟩

theorem updMlme_assocSuccess {u : MlmeSta → MlmeSta}
    (hu : (u (a.mlme s)).assocSuccess = (a.mlme s).assocSuccess) (k : StaSlot) :
    ((a.updMlme s u).mlme k).assocSuccess = (a.mlme k).assocSuccess := by
  unfold Ap.updMlme
  dsimp only
  split
  · rename_i hk
    rw [hk]
    exact hu
  · rfl

theorem TableOk.updMlme (h : TableOk a) {u : MlmeSta → MlmeSta}
    (hu : (u (a.mlme s)).assocSuccess = (a.mlme s).assocSuccess) : TableOk (a.updMlme s u) :=
  h.same ⟨SameAids.refl _, rfl, rfl, rfl, rfl⟩ (updMlme_assocSuccess hu)

theorem TableOk.updTx (h : TableOk a) {u : TxSta → TxSta}
    (hu : (u (a.priv.sta s)).hwaddr = (a.priv.sta s).hwaddr ∧
      (u (a.priv.sta s)).aid = (a.priv.sta s).aid) : TableOk (a.updTx s u) :=
  h.same (sameTable_updTx hu) fun _ => rfl

theorem TableOk.setExpireTo (h : TableOk a) (n : Nat) : TableOk (a.setExpireTo s n) :=
  h.updTx (u := fun x => { x with expireTo := n }) ⟨rfl, rfl⟩

theorem TableOk.setBss (h : TableOk a) (b : Bss) : TableOk { a with bss := b } :=
  h.same ⟨SameAids.refl _, rfl, rfl, rfl, rfl⟩ fun _ => rfl

/-! ## Onto the lists and off them -/

theorem TableOk.offAsoc (h : TableOk a) (s : StaSlot) :
    TableOk (a.offAsoc s) ∧ s ∉ (a.offAsoc s).asocList := by
  unfold Ap.offAsoc
  split
  · rename_i hs
    have hsub : ∀ k, k ∈ a.asocList.filter (· != s) → k ∈ a.asocList :=
      fun k hk => (List.mem_filter.mp hk).1
    refine ⟨⟨⟨h.aids, h.auth, h.asoc.remove hs, h.authAlloc, fun k hk => h.asocAlloc k (hsub k hk),
      fun k hk hk' => h.apart k hk (hsub k hk'), fun k hk => h.asocAid k (hsub k hk)⟩,
      fun k hk => h.asocDone k (hsub k hk)⟩, ?_⟩
    intro hmem
    simpa using (List.mem_filter.mp hmem).2
  · rename_i hs
    exact ⟨h, hs⟩

theorem TableCore.offAuth (h : TableCore a) (s : StaSlot) :
    TableCore (a.offAuth s) ∧ s ∉ (a.offAuth s).authList := by
  unfold Ap.offAuth
  split
  · rename_i hs
    have hsub : ∀ k, k ∈ a.authList.filter (· != s) → k ∈ a.authList :=
      fun k hk => (List.mem_filter.mp hk).1
    refine ⟨⟨h.aids, h.auth.remove hs, h.asoc, fun k hk => h.authAlloc k (hsub k hk), h.asocAlloc,
      fun k hk => h.apart k (hsub k hk), h.asocAid⟩, ?_⟩
    intro hmem
    simpa using (List.mem_filter.mp hmem).2
  · rename_i hs
    exact ⟨h, hs⟩

theorem TableOk.offAuth (h : TableOk a) (s : StaSlot) : TableOk (a.offAuth s) := by
  obtain ⟨-, hmlme, -, -, hasoc⟩ := offAuth_rest a s
  refine ⟨(h.toTableCore.offAuth s).1, ?_⟩
  rw [hmlme, hasoc]
  exact h.asocDone

theorem TableOk.ontoAuth (h : TableOk a) (hs : s ∈ a.priv.staHash) (hno : s ∉ a.asocList) :
    TableOk (a.ontoAuth s) := by
  unfold Ap.ontoAuth
  split
  · exact h
  · rename_i hnew
    refine ⟨⟨h.aids, h.auth.append hnew, h.asoc, ?_, h.asocAlloc, ?_, h.asocAid⟩, h.asocDone⟩
    · intro k hk
      rcases List.mem_append.mp hk with hold | hk
      · exact h.authAlloc k hold
      · rw [List.mem_singleton.mp hk]
        exact hs
    · intro k hk
      rcases List.mem_append.mp hk with hold | hk
      · exact h.apart k hold
      · rw [List.mem_singleton.mp hk]
        exact hno

/-- A station that is not associated, or not any more, can be freed. -/
theorem TableOk.freeSta (h : TableOk a) (hs : s ∈ a.priv.staHash) (hno : s ∉ a.asocList) :
    TableOk (a.freeSta s) := by
  obtain ⟨hpriv, hmlme, -, -, hasoc⟩ := offAuth_rest a s
  obtain ⟨hoff, hgone⟩ := h.toTableCore.offAuth s
  have hf := freed_freeStainfo a.priv s
  have hkeep : ∀ k, k ∈ a.priv.staHash → k ≠ s → k ∈ (freeStainfo a.priv s).staHash := by
    intro k hk hne
    rw [hf.staHash]
    exact List.mem_filter.mpr ⟨hk, by simpa using hne⟩
  have hne : ∀ k ∈ a.asocList, k ≠ s := fun k hk he => hno (he ▸ hk)
  unfold Ap.freeSta
  refine ⟨⟨h.aids.freeStainfo hs, hoff.auth, hoff.asoc, ?_, ?_, hoff.apart, ?_⟩, ?_⟩
  · intro k hk
    refine hkeep k ?_ fun he => hgone (he ▸ hk)
    have := hoff.authAlloc k hk
    rwa [hpriv] at this
  · intro k hk
    have hk' : k ∈ a.asocList := by rwa [← hasoc]
    exact hkeep k (h.asocAlloc k hk') (hne k hk')
  · intro k hk
    have hk' : k ∈ a.asocList := by rwa [← hasoc]
    show 0 < ((freeStainfo a.priv s).sta k).aid
    rw [show ((freeStainfo a.priv s).sta k).aid = (a.priv.sta k).aid from
      (congrArg TxSta.aid (hf.others k (hne k hk'))).trans rfl]
    exact h.asocAid k hk'
  · intro k hk
    have hk' : k ∈ a.asocList := by rwa [← hasoc]
    show ((a.offAuth s).mlme k).assocSuccess = true
    rw [hmlme]
    exact h.asocDone k hk'

theorem TableOk.apFreeSta (h : TableOk a) (hs : s ∈ a.priv.staHash) (hno : s ∉ a.asocList) :
    TableOk (a.apFreeSta s) :=
  (h.setBss (bssCapUpdateOnStaLeave a.bss s).1).freeSta hs hno

/-- An associated station leaves. -/
theorem TableOk.leave (h : TableOk a) (hs : s ∈ a.asocList) :
    TableOk ((a.offAsoc s).apFreeSta s) := by
  obtain ⟨hpriv, -, -, -, -⟩ := offAsoc_rest a s
  obtain ⟨hoff, hgone⟩ := h.offAsoc s
  refine hoff.apFreeSta ?_ hgone
  rw [hpriv]
  exact h.asocAlloc s hs

theorem TableOk.allocSta {addr : MacAddr} (h : TableOk a) (ha : a.allocSta addr = some (s, a')) :
    TableOk a' ∧ s ∈ a'.priv.staHash ∧ s ∉ a'.asocList := by
  unfold Ap.allocSta at ha
  obtain ⟨r, halloc, hr⟩ := Option.map_eq_some_iff.mp ha
  cases hr
  obtain ⟨haids, hnew, hhash, hother⟩ := h.aids.allocStainfo halloc
  have hne : ∀ k ∈ a.asocList, k ≠ r.1 := fun k hk he => hnew (he ▸ h.asocAlloc k hk)
  have hold : ∀ k, k ∈ a.priv.staHash → k ∈ r.2.staHash := by
    intro k hk
    rw [hhash]
    exact List.mem_append_left _ hk
  refine ⟨⟨⟨haids, h.auth, h.asoc, fun k hk => hold k (h.authAlloc k hk),
    fun k hk => hold k (h.asocAlloc k hk), h.apart, ?_⟩, ?_⟩, ?_, fun hk => hne _ hk rfl⟩
  · intro k hk
    show 0 < (r.2.sta k).aid
    rw [hother k (hne k hk)]
    exact h.asocAid k hk
  · intro k hk
    dsimp only
    rw [if_neg (hne k hk)]
    exact h.asocDone k hk
  · rw [hhash]
    exact List.mem_append_right _ (List.mem_singleton_self _)

end Table

/-! ## `OnAuth` -/

section Auth

variable {a a' : Ap} {s : StaSlot}

theorem TableOk.authStation {sa : MacAddr} (h : TableOk a)
    (ha : Rtl8812au.authStation a sa = some (s, a')) :
    TableOk a' ∧ s ∈ a'.priv.staHash ∧ s ∉ a'.asocList := by
  unfold Rtl8812au.authStation at ha
  split at ha
  · exact h.allocSta ha
  · rename_i hget
    cases ha
    obtain ⟨hoff, hgone⟩ := h.offAsoc s
    refine ⟨hoff, ?_, hgone⟩
    rw [(offAsoc_rest a s).1]
    exact (getStainfo_some hget).1

theorem TableOk.authWait (h : TableOk a) (hs : s ∈ a.priv.staHash) (hno : s ∉ a.asocList) :
    TableOk (Rtl8812au.authWait a s) ∧ s ∈ (Rtl8812au.authWait a s).priv.staHash ∧
      s ∉ (Rtl8812au.authWait a s).asocList := by
  obtain ⟨hpriv, -, -, -, hasoc⟩ := ontoAuth_rest a s
  have hon := h.ontoAuth hs hno
  have hs' : s ∈ (a.ontoAuth s).priv.staHash := by rwa [hpriv]
  have hno' : s ∉ (a.ontoAuth s).asocList := by rwa [hasoc]
  unfold Rtl8812au.authWait
  dsimp only
  split
  · exact ⟨hon.setExpireTo _, hs', hno'⟩
  · exact ⟨hon, hs', hno'⟩

theorem TableOk.authSucceeds (h : TableOk a) (s : StaSlot) : TableOk (a.authSucceeds s) :=
  h.updTx (u := fun x => { x with authSuccess := true, expireTo := a.conf.assocTo }) ⟨rfl, rfl⟩

theorem TableOk.authApply (h : TableOk a) (hs : s ∈ a.priv.staHash) (hno : s ∉ a.asocList)
    (e : AuthEnd) : TableOk (Rtl8812au.authApply a s e) := by
  cases e with
  | fail => exact h.freeSta hs hno
  | opened =>
    exact (h.authSucceeds s).updMlme (u := fun x => { x with authNull := false, authSeq := 0 }) rfl
  | challenged =>
    exact h.updMlme (u := fun x =>
      { x with
        chgTxt := List.replicate 128 78
        authNull := false
        authState := true
        authSeq := if (a.priv.sta s).authSuccess then 0 else 2 }) rfl
  | proven =>
    exact (h.authSucceeds s).updMlme (u := fun x => { x with authState := false, authSeq := 0 }) rfl

theorem TableOk.onAuth {f : RecvFrame} (h : TableOk a) (hdone : Rtl8812au.onAuth a f = .done a') :
    TableOk a' := by
  rcases onAuth_cases hdone with rfl | ⟨d, off, s, b, -, -, -, hsta, rfl⟩
  · exact h
  · obtain ⟨hb, hs, hno⟩ := h.authStation hsta
    obtain ⟨hw, hs, hno⟩ := hb.authWait hs hno
    exact hw.authApply hs hno _

end Auth

/-! ## `OnAssocReq` -/

section Assoc

variable {a a' : Ap} {s : StaSlot}

/-- While a station asks, only its own state may be off. -/
theorem sameTable_asking (a : Ap) (s : StaSlot) :
    SameTable a (a.asking s) ∧
      ∀ k, k ≠ s → ((a.asking s).mlme k).assocSuccess = (a.mlme k).assocSuccess := by
  unfold Ap.asking
  split
  · refine ⟨⟨(sameTable_updTx (u := fun x => { x with authSuccess := false }) ⟨rfl, rfl⟩).priv,
      rfl, rfl, rfl, rfl⟩, ?_⟩
    intro k hk
    exact congrArg MlmeSta.assocSuccess (if_neg hk)
  · refine ⟨⟨SameAids.refl _, rfl, rfl, rfl, rfl⟩, ?_⟩
    intro k hk
    exact congrArg MlmeSta.assocSuccess (if_neg hk)

theorem sameTable_learn (a : Ap) (s : StaSlot) (r : AssocResult) : SameTable a (a.learn s r) := by
  refine ⟨?_, rfl, rfl, rfl, rfl⟩
  unfold Ap.learn
  cases r.qos with
  | none => exact SameAids.refl _
  | some wmm => exact sameAids_assocQos a.priv s wmm

/-- A refused request does no harm to a station without an AID. -/
theorem TableCore.refuse (h : TableCore a) (h0 : (a.priv.sta s).aid = 0) :
    TableCore (a.refuse s) ∧ s ∉ (a.refuse s).asocList := by
  have hsame : SameAids a.priv (dropAid a.priv s) :=
    (SameAids.refl _).updSta (u := fun x => { x with aid := 0 }) ⟨rfl, h0.symm⟩
  refine ⟨h.same ⟨hsame, rfl, rfl, rfl, rfl⟩, ?_⟩
  intro hs
  have := h.asocAid s hs
  omega

/-- The accepted station goes from one list to the other. -/
theorem TableCore.accept (h : TableCore a) (hs : s ∈ a.priv.staHash) (hpos : 0 < (a.priv.sta s).aid)
    (hdone : ∀ k ∈ a.asocList, k ≠ s → (a.mlme k).assocSuccess = true) : TableOk (a.accept s) := by
  unfold Ap.accept
  dsimp only
  -- the state bits first: from here on the whole invariant holds
  have hok : TableOk (a.updMlme s fun x => { x with assocState := false, assocSuccess := true }) := by
    refine ⟨h.same ⟨SameAids.refl _, rfl, rfl, rfl, rfl⟩, ?_⟩
    intro k hk
    unfold Ap.updMlme
    dsimp only
    split
    · rfl
    · rename_i hne
      exact hdone k hk hne
  have hself : ((a.updMlme s fun x => { x with assocState := false, assocSuccess := true }).mlme
      s).assocSuccess = true := congrArg MlmeSta.assocSuccess (if_pos rfl)
  have hs' : s ∈ (a.updMlme s fun x =>
      { x with assocState := false, assocSuccess := true }).priv.staHash := hs
  have hpos' : 0 < ((a.updMlme s fun x =>
      { x with assocState := false, assocSuccess := true }).priv.sta s).aid := hpos
  generalize (a.updMlme s fun x => { x with assocState := false, assocSuccess := true }) = b
    at hok hself hs' hpos' ⊢
  obtain ⟨hpriv, hmlme, -, -, hasoc⟩ := offAuth_rest b s
  have hgone := (hok.toTableCore.offAuth s).2
  have hoff := hok.offAuth s
  rw [← hpriv] at hs' hpos'
  rw [← hmlme] at hself
  generalize b.offAuth s = d at hoff hgone hs' hpos' hself ⊢
  have honto : TableOk (d.ontoAsoc s) := by
    unfold Ap.ontoAsoc
    split
    · exact hoff
    · rename_i hnew
      have hexp := hoff.setExpireTo (s := s) d.priv.expireTo
      refine ⟨⟨hexp.aids, hexp.auth, hexp.asoc.append hnew, hexp.authAlloc, ?_, ?_, ?_⟩, ?_⟩
      · intro k hk
        rcases List.mem_append.mp hk with hold | hk
        · exact hexp.asocAlloc k hold
        · rw [List.mem_singleton.mp hk]
          exact hs'
      · intro k hk hk'
        rcases List.mem_append.mp hk' with hold | hk'
        · exact hoff.apart k hk hold
        · rw [List.mem_singleton.mp hk'] at hk
          exact hgone hk
      · intro k hk
        rcases List.mem_append.mp hk with hold | hk
        · exact hexp.asocAid k hold
        · rw [List.mem_singleton.mp hk]
          rw [← ((sameTable_updTx (a := d) (s := s) (u := fun x =>
            { x with expireTo := d.priv.expireTo }) ⟨rfl, rfl⟩).priv.sta s).2] at hpos'
          exact hpos'
      · intro k hk
        rcases List.mem_append.mp hk with hold | hk
        · exact hoff.asocDone k hold
        · rw [List.mem_singleton.mp hk]
          exact hself
  refine honto.same ⟨?_, rfl, rfl, rfl, rfl⟩ fun _ => rfl
  exact (SameAids.refl _).updSta (u := fun x => { x with linked := true }) ⟨rfl, rfl⟩

/-- The condition of one event: no request that fails a check comes from a station that has
an AID. -/
def TableEventOk (a : Ap) : ApEvent → Prop
  | .assocReq f => ∀ s, Asks a f s → 0 < (a.priv.sta s).aid →
      Acceptable a.assocConf (f.buf.shift f.rxData) f.len
  | _ => True

theorem TableOk.assocFinish {status : AssocStatus} (h : TableCore a) (hs : s ∈ a.priv.staHash)
    (hdone : ∀ k ∈ a.asocList, k ≠ s → (a.mlme k).assocSuccess = true)
    (hok : status = .successful ∨ (a.priv.sta s).aid = 0) :
    TableOk (Rtl8812au.assocFinish a s status) := by
  rcases assocFinish_cases a s status with ⟨heq, hwhy⟩ | ⟨p, -, hp, heq⟩
  · rw [heq]
    have h0 : (a.priv.sta s).aid = 0 := by
      rcases hwhy with hbad | h0
      · exact hok.resolve_left hbad
      · exact h0
    obtain ⟨hcore, hno⟩ := h.refuse h0
    refine ⟨hcore, ?_⟩
    intro k hk
    exact hdone k hk fun he => hno (he ▸ hk)
  · rw [heq]
    obtain ⟨haids, hpos, hhash, hother⟩ := h.aids.assocAid hs hp
    have haid : ∀ k ∈ a.asocList, 0 < (p.sta k).aid := by
      intro k hk
      by_cases hks : k = s
      · rw [hks]
        exact hpos
      · rw [hother k hks]
        exact h.asocAid k hk
    refine TableCore.accept (a := { a with priv := p }) ⟨haids, h.auth, h.asoc, ?_, ?_, h.apart, haid⟩
      ?_ hpos hdone
    · rw [hhash]
      exact h.authAlloc
    · rw [hhash]
      exact h.asocAlloc
    · rw [hhash]
      exact hs

theorem TableOk.onAssocReq {f : RecvFrame} (h : TableOk a) (hok : TableEventOk a (.assocReq f))
    (hdone : Rtl8812au.onAssocReq a f = .done a') : TableOk a' := by
  rcases onAssocReq_cases hdone with ⟨rfl, -⟩ | ⟨s, r, hasks, hchecks, rfl⟩
  · exact h
  · obtain ⟨hsame, hmlme⟩ := sameTable_asking a s
    have hlearn := sameTable_learn (a.asking s) s r
    have hcore := (h.toTableCore.same hsame).same hlearn
    have haid : (((a.asking s).learn s r).priv.sta s).aid = (a.priv.sta s).aid :=
      (hlearn.priv.sta s).2.trans (hsame.priv.sta s).2
    refine TableOk.assocFinish hcore ?_ ?_ ?_
    · rw [hlearn.priv.staHash, hsame.priv.staHash]
      exact (getStainfo_some hasks.2.1).1
    · intro k hk hne
      rw [hlearn.asocList, hsame.asocList] at hk
      exact (hmlme k hne).trans (h.asocDone k hk)
    · rw [haid, assocChecks_status hchecks]
      rcases Nat.eq_zero_or_pos (a.priv.sta s).aid with h0 | hpos
      · exact Or.inr h0
      · exact Or.inl (hok s hasks hpos)

end Assoc

/-! ## Runs -/

/-- The rest of the handlers. -/
theorem passive_tableOk : Passive TableOk where
  nodup h := ⟨h.auth.nodup, h.asoc.nodup⟩
  priv h hp := h.same ⟨hp, rfl, rfl, rfl, rfl⟩ fun _ => rfl
  tries n h := h.updMlme (u := fun x => { x with keepAliveTrycnt := n x }) rfl
  expire {a s} h hs := by
    obtain ⟨hpriv, -, -, -, hasoc⟩ := offAuth_rest a s
    refine (h.offAuth s).freeSta ?_ ?_
    · rw [hpriv]
      exact h.authAlloc s hs
    · rw [hasoc]
      exact h.apart s hs
  leave h hs := h.leave hs

/-- **One event** keeps the table. -/
theorem TableOk.apStep {a a' : Ap} {ev : ApEvent} (h : TableOk a) (hok : TableEventOk a ev)
    (hstep : Rtl8812au.apStep a ev = .done a') : TableOk a' := by
  refine passive_tableOk.apStep h hstep (fun f _ hdone => h.onAuth hdone) ?_
  rintro f rfl hdone
  exact h.onAssocReq hok hdone

theorem tableOk_start (conf : ApConf) (hiq : HiqFilter) (expireTo : Nat) {maxNumSta : Nat}
    (hmax : maxNumSta ≤ numSta) (b : Bss) : TableOk (startAp conf hiq expireTo maxNumSta b) := by
  have hinit := aidsOk_init true hiq expireTo hmax
  have hnone : ∀ {P : StaSlot → Prop}, ∀ s ∈ ([] : List StaSlot), P s := by
    intro P s hs
    cases hs
  refine ⟨⟨?_, ⟨List.nodup_nil, rfl⟩, ⟨List.nodup_nil, rfl⟩, hnone, hnone, hnone, hnone⟩, hnone⟩
  show AidsOk ((allocStainfo (initStaPriv true hiq expireTo maxNumSta) .bcast).elim
    (initStaPriv true hiq expireTo maxNumSta) Prod.snd)
  cases halloc : allocStainfo (initStaPriv true hiq expireTo maxNumSta) .bcast with
  | none => exact hinit
  | some r => exact (hinit.allocStainfo halloc).1

/-- **What the table says.** -/
structure Ap.TableRight (a : Ap) : Prop where
  /-- Every station in `asoc_list` has an AID, has its place in `sta_aid` and is associated. -/
  associated : ∀ s ∈ a.asocList, 1 ≤ (a.priv.sta s).aid ∧
    a.priv.staAid ((a.priv.sta s).aid - 1) = some s ∧ (a.mlme s).assocSuccess = true
  /-- Every entry of `sta_aid` points to an allocated station with that AID. -/
  table : ∀ k s, a.priv.staAid k = some s → s ∈ a.priv.staHash ∧ (a.priv.sta s).aid = k + 1
  apart : ∀ s, ¬ (s ∈ a.authList ∧ s ∈ a.asocList)
  asocCount : a.asocListCnt = a.asocList.length
  authCount : a.authListCnt = a.authList.length

/-- **The association table is right** in every state that is reached from the start by events
of which none is a refused request of a station that has an AID. -/
theorem association_table_right {conf : ApConf} {hiq : HiqFilter} {expireTo maxNumSta : Nat}
    {b : Bss} {a : Ap} (hmax : maxNumSta ≤ numSta)
    (h : Reach apStep TableEventOk (startAp conf hiq expireTo maxNumSta b) a) :
    a.TableRight := by
  have hok : TableOk a := h.invariant TableOk (tableOk_start conf hiq expireTo hmax b)
    fun hinv hev hstep => hinv.apStep hev hstep
  refine ⟨?_, hok.aids.tableAid, ?_, hok.asoc.count, hok.auth.count⟩
  · intro s hs
    exact ⟨hok.asocAid s hs, hok.aids.aidTable s (hok.asocAlloc s hs) (hok.asocAid s hs),
      hok.asocDone s hs⟩
  · rintro s ⟨hauth, hasoc⟩
    exact hok.apart s hauth hasoc

/-- A station authenticates and associates. -/
def sampleJoin : List ApEvent :=
  [.auth (openAuth sampleStaAddr), .assocReq (assocReq sampleStaAddr [1, 4, 2, 4, 11, 22])]

/-- The request is the first of a station without an AID. -/
def FirstRequest (a : Ap) : ApEvent → Prop
  | .assocReq f => ∀ s ∈ a.priv.getStainfo (Wifi.getAddr2 (f.buf.shift f.rxData) 0), (a.priv.sta s).aid = 0
  | _ => True

instance (a : Ap) : ∀ ev, Decidable (FirstRequest a ev)
  | .assocReq f => inferInstanceAs (Decidable
      (∀ s ∈ a.priv.getStainfo (Wifi.getAddr2 (f.buf.shift f.rxData) 0), (a.priv.sta s).aid = 0))
  | .auth _ => .isTrue trivial
  | .deauth _ => .isTrue trivial
  | .disassoc _ => .isTrue trivial
  | .expire _ => .isTrue trivial
  | .traffic _ => .isTrue trivial

theorem FirstRequest.ok {a : Ap} {ev : ApEvent} (h : FirstRequest a ev) : TableEventOk a ev := by
  cases ev with
  | assocReq f =>
      intro s hasks hpos
      have hzero := h s hasks.2.1
      omega
  | _ => trivial

/-- Two stations join and the first one leaves. -/
def sampleTwoJoin : List ApEvent :=
  sampleJoin ++ [.auth (openAuth ⟨2, 0, 0, 0, 0, 2⟩), .assocReq (assocReq ⟨2, 0, 0, 0, 0, 2⟩ [1, 4, 2, 4, 11, 22]),
    .deauth (mgtFrame 0xc0 0 sampleStaAddr [3, 0])]

/-- The second one stays associated under its AID. -/
theorem association_table_right_sample : ∃ a,
    runActions apStep sampleAp sampleTwoJoin = .done a ∧ a.asocList = [2] ∧ (a.priv.sta 2).aid = 2 ∧
      a.priv.staAid 0 = none ∧ a.priv.staAid 1 = some 2 ∧ a.TableRight := by
  have hview : (runActions apStep sampleAp sampleTwoJoin).view
      (fun a => (a.asocList, (a.priv.sta 2).aid, a.priv.staAid 0, a.priv.staAid 1)) =
      some ([2], 2, none, some 2) := by decide +kernel
  have hfirst : RunOk apStep FirstRequest sampleAp sampleTwoJoin := by decide +kernel
  obtain ⟨a, ha, hview⟩ := Outcome.of_view hview
  simp only [Prod.mk.injEq] at hview
  obtain ⟨hlist, haid, hzero, hone⟩ := hview
  have hok := hfirst.mono fun _ _ h => FirstRequest.ok h
  exact ⟨a, ha, hlist, haid, hzero, hone,
    association_table_right (Nat.le_refl numSta) (reach_runActions Reach.start hok ha)⟩

/-- An associated station asks again, for a network with another name. It stays in `asoc_list`
without an AID, and `sta_aid` still points to it. -/
theorem refused_request_breaks_table : ∃ a,
    runActions apStep sampleAp (sampleJoin ++
      [.assocReq (mgtFrame 0 0 sampleStaAddr [0x21, 0x04, 0, 0, 0, 1, 0x62])]) = .done a ∧
    a.asocList = [1] ∧ (a.priv.sta 1).aid = 0 ∧ (a.mlme 1).assocSuccess = false ∧
    a.priv.staAid 0 = some 1 ∧ ¬ a.TableRight := by
  obtain ⟨a, ha, hview⟩ := Outcome.of_view
    (f := fun a => (a.asocList, (a.priv.sta 1).aid, (a.mlme 1).assocSuccess, a.priv.staAid 0))
    (show (runActions apStep sampleAp (sampleJoin ++
      [.assocReq (mgtFrame 0 0 sampleStaAddr [0x21, 0x04, 0, 0, 0, 1, 0x62])])).view _ =
        some (([1] : List StaSlot), 0, false, some (1 : StaSlot))
      by decide)
  simp only [Prod.mk.injEq] at hview
  obtain ⟨hlist, haid, hdone, htable⟩ := hview
  refine ⟨a, ha, hlist, haid, hdone, htable, ?_⟩
  intro h
  have := (h.table 0 1 htable).2
  omega

end Rtl8812au
