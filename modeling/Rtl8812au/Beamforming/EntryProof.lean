import Rtl8812au.Beamforming.Entry

/-!
# What the entry table holds

Sounding changes the state of an entry and never its parameters, so the addresses of the used entries
stay distinct: only a station that has no entry gets one. A station that enters again finds its entry
and leaves the parameters of its first visit in it.
-/

namespace Rtl8812au.Beamforming

/-! ## Parameters -/

/-- What an entry says of its station. -/
def Entry.params (e : Entry) : Bool × MacAddr × UInt16 × UInt16 × ChannelWidth × Cap :=
  (e.used, e.macAddr, e.aid, e.macId, e.soundBw, e.cap)

/-- The parameters of an entry made for the station. -/
def Station.params (s : Station) : Bool × MacAddr × UInt16 × UInt16 × ChannelWidth × Cap :=
  (true, s.hwaddr, s.aid.toUInt16, s.macId.toUInt16, s.bwMode, s.beamformCap)

/-- Two tables with the same stations in the same entries. -/
def SameParams (b b' : Info) : Prop := ∀ i, (b'.entry i).params = (b.entry i).params

theorem SameParams.refl (b : Info) : SameParams b b := fun _ => rfl

theorem SameParams.trans {b b' b'' : Info} (h : SameParams b b') (h' : SameParams b' b'') :
    SameParams b b'' := fun i => (h' i).trans (h i)

theorem sameParams_of_entry {b b' : Info} (h : b'.entry = b.entry) : SameParams b b' := by
  intro i
  rw [h]

section

variable (b : Info) (i : EntryId)

theorem setEntry_self (e : Entry) : (b.setEntry i e).entry i = e := if_pos rfl

theorem setEntry_ne (e : Entry) {j : EntryId} (h : j ≠ i) :
    (b.setEntry i e).entry j = b.entry j := if_neg h

theorem sameParams_setEntry {e : Entry} (h : e.params = (b.entry i).params) :
    SameParams b (b.setEntry i e) := by
  intro j
  by_cases hj : j = i
  · rw [hj, setEntry_self, h]
  · rw [setEntry_ne b i e hj]

theorem sameParams_setBeamformFwTxBF : SameParams b (b.setBeamformFwTxBF i) := by
  unfold Info.setBeamformFwTxBF
  split
  · exact sameParams_setEntry b i rfl
  · exact SameParams.refl b

theorem sameParams_startFw : SameParams b (b.startFw i).1 := by
  unfold Info.startFw
  split
  · exact SameParams.refl b
  · have hset : SameParams b (b.setEntry i { b.entry i with state := .progressing, sound := true }) :=
      sameParams_setEntry b i rfl
    exact hset.trans (sameParams_setBeamformFwTxBF _ i)

theorem selectBeamEntry_entry : b.selectBeamEntry.entry = b.entry := by
  simp only [Info.selectBeamEntry]
  split <;> rfl

theorem sameParams_startPeriod : SameParams b b.startPeriod.1 := by
  have hsel : SameParams b b.selectBeamEntry := sameParams_of_entry (selectBeamEntry_entry b)
  simp only [Info.startPeriod]
  split
  · exact hsel.trans (sameParams_startFw _ _)
  · exact hsel

theorem sameParams_endPeriod : SameParams b b.endPeriod := by
  unfold Info.endPeriod
  split
  · exact sameParams_setBeamformFwTxBF b 0
  · exact SameParams.refl b

end

/-! ## What a notification leaves -/

/-- `sound_idx` names a used entry of a station we may sound. -/
def NamesBeamformer (b : Info) : Prop :=
  (b.entry b.soundingInfo.soundIdx).used = true
    ∧ (b.entry b.soundingInfo.soundIdx).cap.sounds = true

instance (b : Info) : Decidable (NamesBeamformer b) := inferInstanceAs (Decidable (_ ∧ _))

section

variable {b b' : Info}

theorem startFw_info (i : EntryId) : (b.startFw i).1.soundingInfo = b.soundingInfo := by
  unfold Info.startFw Info.setBeamformFwTxBF
  split
  · rfl
  · dsimp only
    split <;> rfl

/-- A firmware timer is chosen by the capability of the entry chosen with it. -/
theorem sounds_of_fwTimer (h : b.selectBeamEntry.fwTimer = true) :
    (b.entry b.selectBeamEntry.soundingInfo.soundIdx).cap.sounds = true := by
  have hidx : b.selectBeamEntry.soundingInfo.soundIdx = b.soundingIdx := by
    simp only [Info.selectBeamEntry]
    split <;> rfl
  have hmode : b.selectBeamEntry.soundingInfo.soundMode = b.soundingMode b.soundingIdx := by
    simp only [Info.selectBeamEntry]
    split <;> rfl
  rw [hidx]
  unfold Info.fwTimer at h
  rw [hmode] at h
  unfold Cap.sounds
  unfold Info.soundingMode at h
  split at h
  case isTrue hv => rw [hv, Bool.true_or]
  case isFalse =>
    split at h
    case isTrue hh => rw [hh, Bool.or_true]
    case isFalse => simp at h

theorem used_of_startFw {i : EntryId} (h : (b.startFw i).2 = true) : (b.entry i).used = true := by
  unfold Info.startFw at h
  split at h
  case isTrue => exact absurd h Bool.false_ne_true
  case isFalse hu => exact Bool.of_not_eq_false hu

theorem namesBeamformer_of_startPeriod (h : b.startPeriod.2 = true) :
    NamesBeamformer b.startPeriod.1 := by
  cases htimer : b.selectBeamEntry.fwTimer with
  | false =>
      simp [Info.startPeriod, htimer] at h
  | true =>
      have heq : b.startPeriod = b.selectBeamEntry.startFw b.selectBeamEntry.soundingInfo.soundIdx := by
        simp [Info.startPeriod, htimer]
      rw [heq] at h ⊢
      have hsame := sameParams_startFw b.selectBeamEntry b.selectBeamEntry.soundingInfo.soundIdx
        b.selectBeamEntry.soundingInfo.soundIdx
      obtain ⟨hused, _, _, _, _, hcap⟩ : _ ∧ _ ∧ _ ∧ _ ∧ _ ∧ _ := by
        simpa only [Entry.params, Prod.mk.injEq] using hsame
      unfold NamesBeamformer
      rw [startFw_info, hused, hcap]
      refine ⟨used_of_startFw h, ?_⟩
      rw [selectBeamEntry_entry]
      exact sounds_of_fwTimer htimer

theorem startFw_state (i : EntryId) : (b.startFw i).1.state = b.state := by
  unfold Info.startFw Info.setBeamformFwTxBF
  split
  · rfl
  · dsimp only
    split <;> rfl

theorem startPeriod_state (b : Info) : b.startPeriod.1.state = b.state := by
  have hsel : b.selectBeamEntry.state = b.state := by
    simp only [Info.selectBeamEntry]
    split <;> rfl
  simp only [Info.startPeriod]
  split
  · rw [startFw_state, hsel]
  · exact hsel

/-- A notification starts a period and is in `START`, or is not in `START`. -/
theorem notify_cases (b : Info) :
    (b.startPeriod.2 = true ∧ b.notify = { b.startPeriod.1 with state := .start })
      ∨ b.notify.state ≠ .start
        ∧ (b.notify.entry = b.startPeriod.1.entry ∨ b.notify.entry = b.entry
          ∨ b.notify.entry = b.endPeriod.entry) := by
  have hstate := startPeriod_state b
  cases hb : b.bSounding with
  | false =>
      -- nothing to sound: a period that was started ends
      by_cases hs : b.state = .start
      · have hn : b.notify = { b.endPeriod with state := .ended } := by
          simp [Info.notify, hs, hb]
        rw [hn]
        exact Or.inr ⟨nofun, Or.inr (Or.inr rfl)⟩
      · have hn : b.notify = b := by
          cases hcase : b.state <;> simp_all [Info.notify]
        rw [hn]
        exact Or.inr ⟨hs, Or.inr (Or.inl rfl)⟩
  | true =>
      rcases hp : b.startPeriod with ⟨b', started⟩
      rw [hp] at hstate
      cases started with
      | true =>
          have hn : b.notify = { b' with state := .start } := by
            cases hs : b.state <;> simp [Info.notify, hs, hb, hp]
            rw [← hs, ← hstate]
          rw [hn]
          exact Or.inl ⟨rfl, rfl⟩
      | false =>
          by_cases hs : b.state = .start
          · have hn : b.notify = { b' with state := .ended } := by
              simp [Info.notify, hs, hb, hp]
            rw [hn]
            exact Or.inr ⟨nofun, Or.inl rfl⟩
          · have hn : b.notify = b' := by
              cases hcase : b.state <;> simp_all [Info.notify]
            rw [hn]
            exact Or.inr ⟨fun hc => hs (hstate.symm.trans hc), Or.inl rfl⟩

theorem sameParams_notify (b : Info) : SameParams b b.notify := by
  rcases notify_cases b with ⟨_, heq⟩ | ⟨_, heq | heq | heq⟩
  · rw [heq]
    exact sameParams_startPeriod b
  · exact (sameParams_startPeriod b).trans (sameParams_of_entry heq)
  · exact sameParams_of_entry heq
  · exact (sameParams_endPeriod b).trans (sameParams_of_entry heq)

/-- A notification ends in `START` only when it started a period, and then with an entry that is
sounded. -/
theorem namesBeamformer_notify (b : Info) (h : b.notify.state = .start) :
    NamesBeamformer b.notify := by
  rcases notify_cases b with ⟨hstarted, heq⟩ | ⟨hne, _⟩
  · rw [heq]
    exact namesBeamformer_of_startPeriod hstarted
  · exact absurd h hne

end

/-! ## Addresses -/

/-- No two used entries have the same address. -/
def UniqueAddr (b : Info) : Prop :=
  ∀ i j, (b.entry i).used = true → (b.entry j).used = true →
    (b.entry i).macAddr = (b.entry j).macAddr → i = j

/-- The entry of the station's address holds what the station has now. -/
def HoldsCurrent (b : Info) (s : Station) : Prop :=
  ∃ i, (b.entry i).params = s.params

instance (b : Info) (s : Station) : Decidable (HoldsCurrent b s) :=
  inferInstanceAs (Decidable (∃ _, _))

section

variable {b b' : Info}

theorem SameParams.used (h : SameParams b b') (i : EntryId) :
    (b'.entry i).used = (b.entry i).used := congrArg Prod.fst (h i)

theorem SameParams.macAddr (h : SameParams b b') (i : EntryId) :
    (b'.entry i).macAddr = (b.entry i).macAddr := congrArg (fun p => p.2.1) (h i)

theorem SameParams.uniqueAddr (h : SameParams b b') (hu : UniqueAddr b) : UniqueAddr b' := by
  intro i j hi hj hij
  rw [h.used] at hi hj
  rw [h.macAddr, h.macAddr] at hij
  exact hu i j hi hj hij

theorem SameParams.holdsCurrent (h : SameParams b b') (s : Station) :
    HoldsCurrent b' s ↔ HoldsCurrent b s := by
  unfold HoldsCurrent
  constructor
  · rintro ⟨i, hi⟩
    exact ⟨i, (h i).symm.trans hi⟩
  · rintro ⟨i, hi⟩
    exact ⟨i, (h i).trans hi⟩

theorem getEntryByAddr_none {ra : MacAddr} :
    b.getEntryByAddr ra = none ↔ ∀ i, (b.entry i).used = true → (b.entry i).macAddr ≠ ra := by
  unfold Info.getEntryByAddr
  rw [List.find?_eq_none]
  constructor
  · intro h i hu hm
    exact h i (List.mem_finRange i) (by simp [hu, hm])
  · intro h i _ hc
    simp only [Bool.and_eq_true, decide_eq_true_eq] at hc
    exact h i hc.1 hc.2

theorem UniqueAddr.release (h : UniqueAddr b) (i : EntryId) : UniqueAddr (b.releaseEntry i) := by
  -- what is used afterwards was used before, under the same address
  have hkeep : ∀ j, ((b.releaseEntry i).entry j).used = true → j ≠ i := by
    intro j hj hji
    rw [Info.releaseEntry, hji, setEntry_self] at hj
    exact Bool.false_ne_true hj
  intro j k hj hk hjk
  have hji := hkeep j hj
  have hki := hkeep k hk
  unfold Info.releaseEntry at hj hk hjk
  rw [setEntry_ne _ _ _ hji] at hj hjk
  rw [setEntry_ne _ _ _ hki] at hk hjk
  exact h j k hj hk hjk

/-- A station without an entry may be put into any entry. -/
theorem UniqueAddr.set (h : UniqueAddr b) {i : EntryId} {e : Entry}
    (hnone : b.getEntryByAddr e.macAddr = none) : UniqueAddr (b.setEntry i e) := by
  have hnew := getEntryByAddr_none.mp hnone
  intro j k hj hk hjk
  by_cases hji : j = i
  · by_cases hki : k = i
    · rw [hji, hki]
    · rw [hji, setEntry_self, setEntry_ne _ _ _ hki] at hjk
      rw [setEntry_ne _ _ _ hki] at hk
      exact absurd hjk.symm (hnew k hk)
  · rw [setEntry_ne _ _ _ hji] at hj hjk
    by_cases hki : k = i
    · rw [hki, setEntry_self] at hjk
      exact absurd hjk (hnew j hj)
    · rw [setEntry_ne _ _ _ hki] at hk hjk
      exact h j k hj hk hjk

end

/-! ## The calls -/

/-- The checks of `beamforming_init_entry` that do not look at the table. -/
def Capable (env : Env) (s : Station) : Prop :=
  ¬ (env.htBeamformCap = 0 ∧ env.vhtBeamformCap = 0)
    ∧ (isSupportedHT s.wirelessMode || isSupportedVHT s.wirelessMode) = true
    ∧ s.beamformCap ≠ .none

instance (env : Env) (s : Station) : Decidable (Capable env s) :=
  inferInstanceAs (Decidable (_ ∧ _ ∧ _))

/-- An entry is free, or is the station's own. -/
def Room (b : Info) (ra : MacAddr) : Prop :=
  (∃ i, (b.entry i).used = false) ∨ ∃ i, (b.entry i).used = true ∧ (b.entry i).macAddr = ra

instance (b : Info) (ra : MacAddr) : Decidable (Room b ra) := inferInstanceAs (Decidable (_ ∨ _))

section

variable {b b' : Info} {env : Env} {s : Station}

theorem addEntry_cases (env : Env) {x : Option (EntryId × Info)}
    (h : b.addEntry env s.hwaddr s.aid.toUInt16 s.macId.toUInt16 s.bwMode s.beamformCap = x) :
    x = none ∧ b.getFreeEntry = none
      ∨ ∃ i e, x = some (i, b.setEntry i e) ∧ e.params = s.params := by
  unfold Info.addEntry at h
  cases hf : b.getFreeEntry with
  | none =>
      rw [hf] at h
      exact Or.inl ⟨h.symm, rfl⟩
  | some i =>
      rw [hf] at h
      exact Or.inr ⟨i, _, h.symm, rfl⟩

theorem setEntry_setEntry (b : Info) (i : EntryId) (e e' : Entry) :
    (b.setEntry i e).setEntry i e' = b.setEntry i e' := by
  unfold Info.setEntry
  congr 1
  funext j
  dsimp only
  by_cases hj : j = i
  · rw [if_pos hj, if_pos hj]
  · rw [if_neg hj, if_neg hj, if_neg hj]

/-- A station without an entry gets one with what it has, unless there is no room. -/
theorem initEntry_new (hcap : Capable env s) (hnone : b.getEntryByAddr s.hwaddr = none) :
    b.initEntry env s = none ∧ b.getFreeEntry = none
      ∨ ∃ i e, b.initEntry env s = some (b.setEntry i e) ∧ e.params = s.params := by
  unfold Info.initEntry
  rw [if_neg hcap.1, if_pos hcap.2.1, if_neg hcap.2.2, hnone]
  dsimp only
  rcases addEntry_cases env (b := b) (s := s) rfl with ⟨hadd, hfree⟩ | ⟨i, e, hadd, he⟩
  · rw [hadd]
    exact Or.inl ⟨rfl, hfree⟩
  · rw [hadd]
    dsimp only
    rw [setEntry_setEntry, setEntry_self]
    exact Or.inr ⟨i, _, rfl, he⟩

/-- A station with an entry changes nothing that is said of a station. -/
theorem initEntry_again {i : EntryId} (hsome : b.getEntryByAddr s.hwaddr = some i)
    (h : b.initEntry env s = some b') : SameParams b b' := by
  unfold Info.initEntry at h
  rw [hsome] at h
  dsimp only at h
  split at h
  · cases h
  · split at h
    · split at h
      · cases h
      · split at h
        · cases h
        · cases h
          exact sameParams_setEntry b i rfl
    · cases h

theorem capable_of_initEntry (h : b.initEntry env s = some b') : Capable env s := by
  unfold Info.initEntry at h
  split at h
  case isTrue => cases h
  case isFalse hcfg =>
    split at h
    case isFalse => cases h
    case isTrue hmode =>
      split at h
      case isTrue => cases h
      case isFalse hcap => exact ⟨hcfg, hmode, hcap⟩

theorem sameParams_enter (h : b.initEntry env s = some b') : SameParams b' (b.enter env s) := by
  unfold Info.enter
  rw [h]
  exact (sameParams_of_entry rfl).trans (sameParams_notify _)

theorem enter_none (h : b.initEntry env s = none) : b.enter env s = b := by
  unfold Info.enter
  rw [h]

theorem UniqueAddr.enter (h : UniqueAddr b) (env : Env) (s : Station) :
    UniqueAddr (b.enter env s) := by
  cases hinit : b.initEntry env s with
  | none =>
      rw [enter_none hinit]
      exact h
  | some b' =>
      refine (sameParams_enter hinit).uniqueAddr ?_
      cases hby : b.getEntryByAddr s.hwaddr with
      | some i => exact (initEntry_again hby hinit).uniqueAddr h
      | none =>
          rcases initEntry_new (capable_of_initEntry hinit) hby with ⟨hn, _⟩ | ⟨i, e, he, hp⟩
          · rw [hn] at hinit
            cases hinit
          · have hmac : e.macAddr = s.hwaddr := congrArg (fun p => p.2.1) hp
            rw [hinit] at he
            cases he
            exact h.set (by rw [hmac]; exact hby)

theorem UniqueAddr.deinit (h : UniqueAddr b) (ra : MacAddr) : UniqueAddr (b.deinitEntry ra) := by
  unfold Info.deinitEntry Info.removeEntry
  cases b.getEntryByAddr ra with
  | none => exact h
  | some i => exact (sameParams_of_entry rfl).uniqueAddr (h.release i)

theorem UniqueAddr.reset (h : UniqueAddr b) : UniqueAddr b.reset := by
  unfold Info.reset
  generalize List.finRange entryNum = ids
  induction ids generalizing b with
  | nil => exact h
  | cons i ids ih =>
      refine ih ?_
      unfold Info.resetTurn
      split
      · exact (sameParams_of_entry rfl).uniqueAddr (h.release i)
      · exact h

theorem UniqueAddr.soundingFail (h : UniqueAddr b) : UniqueAddr b.soundingFail := by
  have hset : SameParams b (b.setEntry b.curIdx { b.entry b.curIdx with sound := false }) :=
    sameParams_setEntry b b.curIdx rfl
  exact ((hset.trans (sameParams_setBeamformFwTxBF _ _)).uniqueAddr h).deinit _

theorem UniqueAddr.step (h : UniqueAddr b) (c : Call) : UniqueAddr (b.step c) := by
  cases c with
  | enter env s => exact h.enter env s
  | notify => exact (sameParams_notify b).uniqueAddr h
  | soundingFail => exact h.soundingFail
  | leave ra =>
      cases ra with
      | none => exact (sameParams_notify _).uniqueAddr h.reset
      | some ra => exact (sameParams_notify _).uniqueAddr (h.deinit ra)

theorem uniqueAddr_run (calls : List Call) : UniqueAddr (run calls) := by
  have hstart : UniqueAddr {} := by
    intro i j hi
    exact absurd hi Bool.false_ne_true
  unfold run
  generalize ({} : Info) = b at hstart ⊢
  induction calls generalizing b with
  | nil => exact hstart
  | cons c calls ih => exact ih _ (hstart.step c)

theorem getFreeEntry_of_room (hnone : b.getEntryByAddr s.hwaddr = none) (hroom : Room b s.hwaddr) :
    b.getFreeEntry ≠ none := by
  intro hfull
  have hall : ∀ i, (b.entry i).used = true := by
    intro i
    simpa using (List.find?_eq_none.mp hfull) i (List.mem_finRange i)
  rcases hroom with ⟨i, hi⟩ | ⟨i, hi, hm⟩
  · rw [hall i] at hi
    exact Bool.false_ne_true hi.symm
  · exact getEntryByAddr_none.mp hnone i hi hm

/-- A station that enters is found with what it has when it is new, or has it in its entry already. -/
theorem holdsCurrent_enter (hcap : Capable env s) (hroom : Room b s.hwaddr) :
    HoldsCurrent (b.enter env s) s ↔ b.getEntryByAddr s.hwaddr = none ∨ HoldsCurrent b s := by
  cases hby : b.getEntryByAddr s.hwaddr with
  | none =>
      rcases initEntry_new hcap hby with ⟨_, hfull⟩ | ⟨i, e, hinit, he⟩
      · exact absurd hfull (getFreeEntry_of_room hby hroom)
      · rw [(sameParams_enter hinit).holdsCurrent s]
        have hnew : HoldsCurrent (b.setEntry i e) s := ⟨i, by rw [setEntry_self]; exact he⟩
        exact iff_of_true hnew (Or.inl rfl)
  | some i =>
      have hkeep : HoldsCurrent (b.enter env s) s ↔ HoldsCurrent b s := by
        cases hinit : b.initEntry env s with
        | none => rw [enter_none hinit]
        | some b' =>
            exact ((initEntry_again hby hinit).trans (sameParams_enter hinit)).holdsCurrent s
      rw [hkeep]
      exact ⟨Or.inr, fun h => h.resolve_left nofun⟩

/-- The calls that end in a notification. -/
def Notified (b : Info) (env : Env) (s : Station) : Info → Prop := fun b' =>
  b' = b.notify ∨ (∃ ra, b' = b.leave ra) ∨ b.initEntry env s ≠ none ∧ b' = b.enter env s

theorem namesBeamformer_of_notified (h : Notified b env s b') (hs : b'.state = .start) :
    NamesBeamformer b' := by
  -- each of them is a notification of some table
  obtain ⟨t, ht⟩ : ∃ t : Info, b' = t.notify := by
    rcases h with h | ⟨ra, h⟩ | ⟨hne, h⟩
    · exact ⟨b, h⟩
    · cases ra with
      | none => exact ⟨b.reset, h⟩
      | some ra => exact ⟨b.deinitEntry ra, h⟩
    · cases hinit : b.initEntry env s with
      | none => exact absurd hinit hne
      | some t =>
          refine ⟨t.setBeamformRfMode, ?_⟩
          rw [h, Info.enter, hinit]
  rw [ht] at hs ⊢
  exact namesBeamformer_notify t hs

end

/-- **The entry table.** After any calls the used entries have distinct addresses, and a notification
that leaves the driver sounding has chosen a used entry of a station we may sound. A station that
enters is found with what it has exactly when it had no entry, or one that said so already. -/
theorem beamforming_entry_table (calls : List Call) :
    UniqueAddr (run calls)
      ∧ (∀ env s, Capable env s → Room (run calls) s.hwaddr →
          (HoldsCurrent ((run calls).enter env s) s
            ↔ (run calls).getEntryByAddr s.hwaddr = none ∨ HoldsCurrent (run calls) s))
      ∧ ∀ env s b', Notified (run calls) env s b' → b'.state = .start → NamesBeamformer b' :=
  ⟨uniqueAddr_run calls, fun _ _ hcap hroom => holdsCurrent_enter hcap hroom,
    fun _ _ _ hn hs => namesBeamformer_of_notified hn hs⟩

/-- An access point that does both, and a station that is to be sounded. -/
def sampleEnv : Env := ⟨3, 3, true, false, 0x21⟩

def sampleStation : Station := ⟨⟨2, 0, 0, 0, 0, 1⟩, 1, 2, 0x58, .w80, 2, 2⟩

/-- A second station is found with what it has, and the first is the one sounded. -/
theorem beamforming_entry_table_sample :
    HoldsCurrent ((run [.enter sampleEnv sampleStation]).enter sampleEnv
        { sampleStation with hwaddr := ⟨2, 0, 0, 0, 0, 2⟩, aid := 2, macId := 3 })
        { sampleStation with hwaddr := ⟨2, 0, 0, 0, 0, 2⟩, aid := 2, macId := 3 }
      ∧ (run [.enter sampleEnv sampleStation]).notify.state = .start
      ∧ NamesBeamformer (run [.enter sampleEnv sampleStation]).notify := by
  have h := beamforming_entry_table [.enter sampleEnv sampleStation]
  have hstart : (run [.enter sampleEnv sampleStation]).notify.state = .start := by decide
  refine ⟨(h.2.1 sampleEnv _ (by decide) (by decide)).mpr (Or.inl ?_), hstart,
    h.2.2 sampleEnv sampleStation _ (Or.inl rfl) hstart⟩
  decide

/-- The first station comes back with another association id: its entry keeps the old one. -/
theorem beamforming_entry_stale :
    ∃ calls env s, Capable env s ∧ Room (run calls) s.hwaddr
      ∧ ¬ HoldsCurrent ((run calls).enter env s) s :=
  ⟨[.enter sampleEnv sampleStation], sampleEnv, { sampleStation with aid := 2 }, by decide,
    by decide, by decide⟩

end Rtl8812au.Beamforming
