import Rtl8812au.P2p.GoNego

/-!
# Do the devices agree?

Every request carries tie breaker 0, so every response carries 1. Where the intents are the same, the
device that is asked becomes the owner and the one that asks the client; if both ask, each of them
takes the other's response for the last word and both are clients. The comment in
`issue_p2p_GO_request` says as much: "Todo the tie breaker bit".

The invariant names, for each attribute that a device may have sent, who has asked for it: `Asked` and
`Answered` speak of the frames ever sent, so they only grow.
-/

namespace Rtl8812au.P2p

/-! ## Attributes -/

/-- The attribute of a request, and that of a response. -/
def reqAttr (intent : Nat) : Nat := (intent <<< 1) &&& 0xfe
def ansAttr (intent : Nat) : Nat := ((intent <<< 1) ||| 1) % 256

theorem attr_bits : ∀ n : Fin 16, reqAttr n.val >>> 1 = n.val ∧ reqAttr n.val &&& 1 = 0
    ∧ ansAttr n.val >>> 1 = n.val ∧ ansAttr n.val &&& 1 = 1 := by decide

theorem reqAttr_intent {n : Nat} (h : n ≤ maxIntent) : reqAttr n >>> 1 = n :=
  (attr_bits ⟨n, Nat.lt_succ_of_le h⟩).1

theorem reqAttr_tie {n : Nat} (h : n ≤ maxIntent) : reqAttr n &&& 1 = 0 :=
  (attr_bits ⟨n, Nat.lt_succ_of_le h⟩).2.1

theorem ansAttr_intent {n : Nat} (h : n ≤ maxIntent) : ansAttr n >>> 1 = n :=
  (attr_bits ⟨n, Nat.lt_succ_of_le h⟩).2.2.1

theorem ansAttr_tie {n : Nat} (h : n ≤ maxIntent) : ansAttr n &&& 1 = 1 :=
  (attr_bits ⟨n, Nat.lt_succ_of_le h⟩).2.2.2

/-! ## What an event can do -/

/-- What an event at device `i` leaves of it and makes it send. -/
inductive Effect (w : World) (i : Bool) : WdInfo → List GoFrame → Prop where
  /-- Nothing is sent, and no success is new. -/
  | quiet {d : WdInfo} : d.peerIntent = (w.dev i).peerIntent →
      (d.state = .gonegoOk → (w.dev i).state = .gonegoOk ∧ d.role = (w.dev i).role) → Effect w i d []
  | asks {d : WdInfo} {c : Nat} {l : List Nat} : d.peerIntent = (w.dev i).peerIntent →
      (d.state = .gonegoOk → (w.dev i).state = .gonegoOk ∧ d.role = (w.dev i).role) →
      Effect w i d [.req (reqAttr (w.dev i).intent) c l]
  /-- A request is answered, with the other tie breaker. -/
  | answers {d : WdInfo} {s : P2pStatus} {v u c c' : Nat} {l l' : List Nat} :
      (!i, GoFrame.req v c l) ∈ w.sent → d.peerIntent = v → d.state ≠ .gonegoOk →
      (v &&& 1 = 0 → u = ansAttr (w.dev i).intent) → Effect w i d [.resp s u c' l']
  /-- A response is taken, and confirmed. -/
  | confirms {d : WdInfo} {s s' : P2pStatus} {v c c' : Nat} {l : List Nat} :
      (!i, GoFrame.resp s v c l) ∈ w.sent → d.peerIntent = (w.dev i).peerIntent ∨ d.peerIntent = v →
      (d.state = .gonegoOk → d.role = roleFrom (w.dev i).intent v ∧ s' = .success) →
      (s' = .success → ¬ ((w.dev i).intent = v >>> 1 ∧ (w.dev i).intent = maxIntent)) →
      Effect w i d [.conf s' c']
  /-- A confirm is taken. -/
  | ends {d : WdInfo} {s : P2pStatus} {c : Nat} : (!i, GoFrame.conf s c) ∈ w.sent →
      d.peerIntent = (w.dev i).peerIntent →
      (d.state = .gonegoOk → s = .success ∧ d.role = roleFrom (w.dev i).intent (w.dev i).peerIntent) →
      Effect w i d []

/-- Only the channel. -/
theorem chooseChannel_fields (w : WdInfo) (opCh : Nat) (common : List Nat) :
    (w.chooseChannel opCh common).intent = w.intent
      ∧ (w.chooseChannel opCh common).gotWpsInfo = w.gotWpsInfo
      ∧ (w.chooseChannel opCh common).peerIntent = w.peerIntent
      ∧ (w.chooseChannel opCh common).state = w.state
      ∧ (w.chooseChannel opCh common).role = w.role := by
  unfold WdInfo.chooseChannel
  split
  · exact ⟨rfl, rfl, rfl, rfl, rfl⟩
  · exact ⟨rfl, rfl, rfl, rfl, rfl⟩

/-- Only the states. -/
theorem restoreState_fields (w : WdInfo) :
    w.restoreState.intent = w.intent ∧ w.restoreState.gotWpsInfo = w.gotWpsInfo := by
  unfold WdInfo.restoreState
  dsimp only
  split
  · split
    · split
      · exact ⟨rfl, rfl⟩
      · exact ⟨rfl, rfl⟩
    · split
      · exact ⟨rfl, rfl⟩
      · exact ⟨rfl, rfl⟩
  · split
    · split
      · exact ⟨rfl, rfl⟩
      · exact ⟨rfl, rfl⟩
    · split
      · exact ⟨rfl, rfl⟩
      · exact ⟨rfl, rfl⟩

/-- A request leaves the negotiation open, or it has failed. -/
theorem processReq_spec {w : WdInfo} (hwps : w.gotWpsInfo = true) (v c : Nat) (l : List Nat) :
    (processP2pGroupNegotationReq w v c l).2.intent = w.intent
      ∧ (processP2pGroupNegotationReq w v c l).2.gotWpsInfo = true
      ∧ (processP2pGroupNegotationReq w v c l).2.peerIntent = v
      ∧ (processP2pGroupNegotationReq w v c l).2.state ≠ .gonegoOk := by
  unfold processP2pGroupNegotationReq
  rw [hwps, if_neg (by decide)]
  dsimp only
  by_cases hcommon : rtwP2pChInclusion w.channelSet l = []
  · rw [if_pos hcommon]
    split
    · exact ⟨rfl, rfl, rfl, by simp⟩
    · exact ⟨rfl, rfl, rfl, by simp⟩
  · rw [if_neg hcommon]
    dsimp only
    split
    · obtain ⟨h1, h2, h3, h4, -⟩ := chooseChannel_fields
        { w with gotWpsInfo := true, state := .gonegoIng, peerIntent := v, role := .device } c
        (rtwP2pChInclusion w.channelSet l)
      exact ⟨h1, h2, h3, by rw [h4]; simp⟩
    · obtain ⟨h1, h2, h3, h4, -⟩ := chooseChannel_fields
        { w with gotWpsInfo := true, state := .gonegoIng, peerIntent := v
                 role := roleFrom w.intent v } c
        (rtwP2pChInclusion w.channelSet l)
      exact ⟨h1, h2, h3, by rw [h4]; simp⟩

/-- A response decides the role, unless it or the negotiation has failed. -/
theorem processResp_spec (w : WdInfo) (s : P2pStatus) (v c : Nat) (l : List Nat) :
    (processP2pGroupNegotationResp w s v c l).2.intent = w.intent
      ∧ (processP2pGroupNegotationResp w s v c l).2.gotWpsInfo = w.gotWpsInfo
      ∧ ((processP2pGroupNegotationResp w s v c l).2.peerIntent = w.peerIntent
        ∨ (processP2pGroupNegotationResp w s v c l).2.peerIntent = v)
      ∧ ((processP2pGroupNegotationResp w s v c l).2.state = .gonegoOk →
        (processP2pGroupNegotationResp w s v c l).2.role = roleFrom w.intent v
          ∧ (processP2pGroupNegotationResp w s v c l).1 = .success)
      ∧ ((processP2pGroupNegotationResp w s v c l).1 = .success →
        ¬ (w.intent = v >>> 1 ∧ w.intent = maxIntent)) := by
  unfold processP2pGroupNegotationResp
  by_cases hs : s = .success
  · rw [if_neg (not_not.mpr hs)]
    dsimp only
    by_cases hcommon : rtwP2pChInclusion w.channelSet l = []
    · rw [if_pos (by split <;> exact hcommon)]
      split
      · exact ⟨rfl, rfl, Or.inr rfl, fun h => by simp at h, fun h => by simp at h⟩
      · exact ⟨rfl, rfl, Or.inr rfl, fun h => by simp at h, fun h => by simp at h⟩
    · rw [if_neg (by split <;> exact hcommon)]
      by_cases hmax : w.intent = v >>> 1 ∧ w.intent = maxIntent
      · rw [if_pos hmax]
        obtain ⟨h1, h2, h3, h4, -⟩ := chooseChannel_fields
          { w with peerIntent := v, role := .device, state := .gonegoFail, peerOperatingCh := c } c
          (rtwP2pChInclusion w.channelSet l)
        exact ⟨h1, h2, Or.inr h3, fun h => absurd (h4.symm.trans h) (by simp),
          fun h => by simp at h⟩
      · rw [if_neg hmax]
        obtain ⟨h1, h2, h3, -, h5⟩ := chooseChannel_fields
          { w with peerIntent := v, role := roleFrom w.intent v, state := .gonegoOk
                   preState := .gonegoOk, peerOperatingCh := c } c
          (rtwP2pChInclusion w.channelSet l)
        exact ⟨h1, h2, Or.inr h3, fun _ => ⟨h5, rfl⟩, fun _ => hmax⟩
  · rw [if_pos hs]
    refine ⟨rfl, rfl, Or.inl rfl, ?_, fun h => absurd h hs⟩
    intro h
    dsimp only at h
    split at h
    · simp at h
    · simp at h

/-- **What an event can do.** The own intent and the WPS information stay. -/
theorem handle_effect {w : World} {i : Bool} (hwps : (w.dev i).gotWpsInfo = true) (e : Event) :
    (w.handle i e).1.intent = (w.dev i).intent ∧ (w.handle i e).1.gotWpsInfo = true
      ∧ Effect w i (w.handle i e).1 (w.handle i e).2 := by
  cases e with
  | connect =>
      unfold World.handle rtwP2pConnect
      dsimp only
      split
      · exact ⟨rfl, hwps, .quiet rfl fun h => ⟨h, rfl⟩⟩
      · exact ⟨rfl, hwps, .quiet rfl fun h => by simp at h⟩
  | probeRsp =>
      unfold World.handle
      dsimp only
      split
      · exact ⟨rfl, hwps, .asks rfl fun h => ⟨h, rfl⟩⟩
      · exact ⟨rfl, hwps, .quiet rfl fun h => ⟨h, rfl⟩⟩
  | deliver n =>
      -- a frame that is not there, or that the device has sent itself, does nothing
      have hquiet : Effect w i (w.dev i) [] := .quiet rfl fun h => ⟨h, rfl⟩
      unfold World.handle
      dsimp only
      cases hget : w.sent[n]? with
      | none => exact ⟨rfl, hwps, hquiet⟩
      | some m =>
          obtain ⟨src, f⟩ := m
          dsimp only
          by_cases hsrc : src = !i
          · have hmem : (!i, f) ∈ w.sent := hsrc ▸ List.mem_of_getElem? hget
            rw [if_pos hsrc]
            unfold onActionPublicP2p
            by_cases hidle : (w.dev i).state = .none ∨ (w.dev i).state = .idle
            · rw [if_pos hidle]
              exact ⟨rfl, hwps, hquiet⟩
            · rw [if_neg hidle]
              cases f with
              | req v c l =>
                  dsimp only
                  -- a request is answered, with both intents compared
                  obtain ⟨hri, hrw⟩ := restoreState_fields (w.dev i)
                  obtain ⟨h1, h2, h3, h4⟩ := processReq_spec (hrw.trans hwps) v c l
                  refine ⟨h1.trans hri, h2, .answers hmem h3 h4 ?_⟩
                  intro htie
                  rw [h3, if_neg (by omega), h1, hri]
                  rfl
              | resp s v c l =>
                  dsimp only
                  split
                  -- a response is looked at only while one is waited for
                  · obtain ⟨h1, h2, h3, h4, h5⟩ :=
                      processResp_spec { w.dev i with negoReqEnable := false } s v c l
                    exact ⟨h1, h2.trans hwps, .confirms hmem h3 h4 h5⟩
                  · exact ⟨rfl, hwps, hquiet⟩
              | conf s c =>
                  dsimp only
                  unfold processP2pGroupNegotationConfirm
                  split
                  · rename_i hs
                    exact ⟨rfl, hwps, .ends hmem rfl fun _ => ⟨hs, rfl⟩⟩
                  · exact ⟨rfl, hwps, .ends hmem rfl fun h => by simp at h⟩
          · rw [if_neg hsrc]
            exact ⟨rfl, hwps, hquiet⟩

/-! ## Frames ever sent -/

/-- Device `i` has sent a request. -/
def Asked (w : World) (i : Bool) : Prop := ∃ v c l, (i, GoFrame.req v c l) ∈ w.sent

/-- Device `i` has sent a response. -/
def Answered (w : World) (i : Bool) : Prop := ∃ s v c l, (i, GoFrame.resp s v c l) ∈ w.sent

/-- Device `i` may have sent the attribute `v`: it has asked, or it was asked. -/
def Carries (w : World) (i : Bool) (v : Nat) : Prop :=
  v = reqAttr (w.dev i).intent ∧ Asked w i ∨ v = ansAttr (w.dev i).intent ∧ Asked w (!i)

/-- No negotiation can succeed. -/
def BothMax (w : World) : Prop := ∀ i, (w.dev i).intent = maxIntent

/-- Every frame on the air and every success is accounted for. -/
structure Inv (w : World) : Prop where
  intent : ∀ i, (w.dev i).intent ≤ maxIntent
  wps : ∀ i, (w.dev i).gotWpsInfo = true
  req : ∀ i v c l, (i, GoFrame.req v c l) ∈ w.sent → v = reqAttr (w.dev i).intent
  /-- A response has been asked for. -/
  resp : ∀ i s v c l, (i, GoFrame.resp s v c l) ∈ w.sent → v = ansAttr (w.dev i).intent ∧ Asked w (!i)
  /-- Who has answered has an attribute of the peer. -/
  peer : ∀ i, Answered w i → Carries w (!i) (w.dev i).peerIntent
  /-- A confirm has been answered for. -/
  conf : ∀ i s c, (i, GoFrame.conf s c) ∈ w.sent →
    Answered w (!i) ∧ (s = .success → ¬ BothMax w)
  /-- A success comes from an attribute of the peer. -/
  ok : ∀ i, (w.dev i).state = .gonegoOk →
    ¬ BothMax w ∧ ∃ v, Carries w (!i) v ∧ (w.dev i).role = roleFrom (w.dev i).intent v

/-- The world behind an event at device `i`. -/
def World.after (w : World) (i : Bool) (d : WdInfo) (fs : List GoFrame) : World where
  dev := fun j => if j = i then d else w.dev j
  sent := w.sent ++ fs.map fun f => (i, f)

section

variable {w : World} {i : Bool} {d : WdInfo} {fs : List GoFrame}

theorem after_dev_self : (w.after i d fs).dev i = d := if_pos rfl

theorem mem_after {j : Bool} {f : GoFrame} :
    (j, f) ∈ (w.after i d fs).sent ↔ (j, f) ∈ w.sent ∨ j = i ∧ f ∈ fs := by
  unfold World.after
  rw [List.mem_append, List.mem_map]
  constructor
  · intro h
    rcases h with h | ⟨g, hg, heq⟩
    · exact Or.inl h
    · cases heq
      exact Or.inr ⟨rfl, hg⟩
  · intro h
    rcases h with h | ⟨rfl, hf⟩
    · exact Or.inl h
    · exact Or.inr ⟨f, hf, rfl⟩

theorem after_intent (hi : d.intent = (w.dev i).intent) (j : Bool) :
    ((w.after i d fs).dev j).intent = (w.dev j).intent := by
  by_cases hj : j = i
  · rw [hj, after_dev_self, hi]
  · exact congrArg WdInfo.intent (if_neg hj)

theorem Asked.after {j : Bool} (h : Asked w j) : Asked (w.after i d fs) j := by
  obtain ⟨v, c, l, hmem⟩ := h
  exact ⟨v, c, l, mem_after.mpr (Or.inl hmem)⟩

theorem Answered.after {j : Bool} (h : Answered w j) : Answered (w.after i d fs) j := by
  obtain ⟨s, v, c, l, hmem⟩ := h
  exact ⟨s, v, c, l, mem_after.mpr (Or.inl hmem)⟩

theorem Carries.after {j : Bool} {v : Nat} (hi : d.intent = (w.dev i).intent) (h : Carries w j v) :
    Carries (w.after i d fs) j v := by
  unfold Carries
  rw [after_intent hi]
  rcases h with ⟨hv, hask⟩ | ⟨hv, hask⟩
  · exact Or.inl ⟨hv, hask.after⟩
  · exact Or.inr ⟨hv, hask.after⟩

theorem bothMax_after (hi : d.intent = (w.dev i).intent) : BothMax (w.after i d fs) ↔ BothMax w := by
  unfold BothMax
  refine forall_congr' fun j => ?_
  rw [after_intent hi]

/-- What the new frames and the new state of device `i` have to be accounted for with. -/
theorem Inv.extend (h : Inv w) (hi : d.intent = (w.dev i).intent) (hwps : d.gotWpsInfo = true)
    (hreq : ∀ v c l, GoFrame.req v c l ∈ fs → v = reqAttr (w.dev i).intent)
    (hresp : ∀ s v c l, GoFrame.resp s v c l ∈ fs → v = ansAttr (w.dev i).intent ∧ Asked w (!i))
    (hpeer : Answered w i ∨ (∃ s v c l, GoFrame.resp s v c l ∈ fs) → Carries w (!i) d.peerIntent)
    (hconf : ∀ s c, GoFrame.conf s c ∈ fs → Answered w (!i) ∧ (s = .success → ¬ BothMax w))
    (hok : d.state = .gonegoOk →
      ¬ BothMax w ∧ ∃ v, Carries w (!i) v ∧ d.role = roleFrom (w.dev i).intent v) :
    Inv (w.after i d fs) where
  -- the intents stay what they were
  intent := by
    intro j
    rw [after_intent hi]
    exact h.intent j
  wps := by
    intro j
    by_cases hj : j = i
    · rw [hj, after_dev_self]
      exact hwps
    · rw [show (w.after i d fs).dev j = w.dev j from if_neg hj]
      exact h.wps j
  -- a frame is an old one or a new one, and the new ones are from this device
  req := by
    intro j v c l hmem
    rw [after_intent hi]
    rcases mem_after.mp hmem with hold | ⟨rfl, hnew⟩
    · exact h.req j v c l hold
    · exact hreq v c l hnew
  resp := by
    intro j s v c l hmem
    rw [after_intent hi]
    rcases mem_after.mp hmem with hold | ⟨rfl, hnew⟩
    · obtain ⟨hv, hask⟩ := h.resp j s v c l hold
      exact ⟨hv, hask.after⟩
    · obtain ⟨hv, hask⟩ := hresp s v c l hnew
      exact ⟨hv, hask.after⟩
  -- an answer that has been given stays given, and so does what it has carried
  peer := by
    intro j hans
    obtain ⟨s, v, c, l, hmem⟩ := hans
    by_cases hj : j = i
    · subst hj
      rw [after_dev_self]
      refine (hpeer ?_).after hi
      rcases mem_after.mp hmem with hold | ⟨-, hnew⟩
      · exact Or.inl ⟨s, v, c, l, hold⟩
      · exact Or.inr ⟨s, v, c, l, hnew⟩
    · rw [show (w.after i d fs).dev j = w.dev j from if_neg hj]
      rcases mem_after.mp hmem with hold | ⟨hji, -⟩
      · exact (h.peer j ⟨s, v, c, l, hold⟩).after hi
      · exact absurd hji hj
  conf := by
    intro j s c hmem
    rw [bothMax_after hi]
    rcases mem_after.mp hmem with hold | ⟨rfl, hnew⟩
    · obtain ⟨hans, hmax⟩ := h.conf j s c hold
      exact ⟨hans.after, hmax⟩
    · obtain ⟨hans, hmax⟩ := hconf s c hnew
      exact ⟨hans.after, hmax⟩
  -- of this device by what is asked above, of the other one by the invariant
  ok := by
    intro j hst
    rw [bothMax_after hi, after_intent hi]
    by_cases hj : j = i
    · subst hj
      rw [after_dev_self] at hst ⊢
      obtain ⟨hmax, v, hv, hrole⟩ := hok hst
      exact ⟨hmax, v, hv.after hi, hrole⟩
    · rw [show (w.after i d fs).dev j = w.dev j from if_neg hj] at hst ⊢
      obtain ⟨hmax, v, hv, hrole⟩ := h.ok j hst
      exact ⟨hmax, v, hv.after hi, hrole⟩

end

/-- **Every event keeps the account.** -/
theorem Inv.handle {w : World} (h : Inv w) (i : Bool) (e : Event) :
    Inv (w.after i (w.handle i e).1 (w.handle i e).2) := by
  obtain ⟨hi, hwps, heff⟩ := handle_effect (h.wps i) e
  generalize (w.handle i e).1 = d at hi hwps heff ⊢
  generalize (w.handle i e).2 = fs at heff ⊢
  -- an old success stays one
  have hold : (d.state = .gonegoOk → (w.dev i).state = .gonegoOk ∧ d.role = (w.dev i).role) →
      d.state = .gonegoOk →
        ¬ BothMax w ∧ ∃ v, Carries w (!i) v ∧ d.role = roleFrom (w.dev i).intent v := by
    intro hsame hst
    obtain ⟨hst', hrole⟩ := hsame hst
    rw [hrole]
    exact h.ok i hst'
  cases heff with
  | quiet hp hst =>
      refine h.extend hi hwps (by simp) (by simp) ?_ (by simp) (hold hst)
      intro hans
      rw [hp]
      exact h.peer i (by simpa using hans)
  | asks hp hst =>
      refine h.extend hi hwps ?_ (by simp) ?_ (by simp) (hold hst)
      · intro v c l hmem
        cases List.mem_singleton.mp hmem
        rfl
      · intro hans
        rw [hp]
        exact h.peer i (by simpa using hans)
  | answers hmem hp hst hu =>
      have hv := h.req _ _ _ _ hmem
      have hask : Asked w (!i) := ⟨_, _, _, hmem⟩
      refine h.extend hi hwps (by simp) ?_ ?_ (by simp) (fun h => absurd h hst)
      · intro s v c l hnew
        cases List.mem_singleton.mp hnew
        refine ⟨hu ?_, hask⟩
        rw [hv]
        exact reqAttr_tie (h.intent _)
      · intro _
        rw [hp]
        exact Or.inl ⟨hv, hask⟩
  | confirms hmem hp hst hs =>
      obtain ⟨hv, hask⟩ := h.resp _ _ _ _ _ hmem
      rw [Bool.not_not] at hask
      subst hv
      have hcar : Carries w (!i) (ansAttr (w.dev (!i)).intent) :=
        Or.inr ⟨rfl, by rw [Bool.not_not]; exact hask⟩
      have hmax : ¬ ((w.dev i).intent = (w.dev (!i)).intent ∧ (w.dev i).intent = maxIntent) →
          ¬ BothMax w := by
        intro hne hmax
        exact hne ⟨(hmax i).trans (hmax (!i)).symm, hmax i⟩
      rw [ansAttr_intent (h.intent _)] at hs
      refine h.extend hi hwps (by simp) (by simp) ?_ ?_ ?_
      · intro hans
        rcases hp with hp | hp
        · rw [hp]
          exact h.peer i (by simpa using hans)
        · rw [hp]
          exact hcar
      · intro s c hnew
        cases List.mem_singleton.mp hnew
        exact ⟨⟨_, _, _, _, hmem⟩, fun hs' => hmax (hs hs')⟩
      · intro hst'
        obtain ⟨hrole, hs'⟩ := hst hst'
        exact ⟨hmax (hs hs'), _, hcar, hrole⟩
  | ends hmem hp hst =>
      obtain ⟨hans, hmax⟩ := h.conf _ _ _ hmem
      rw [Bool.not_not] at hans
      refine h.extend hi hwps (by simp) (by simp) ?_ (by simp) ?_
      · intro _
        rw [hp]
        exact h.peer i hans
      · intro hst'
        obtain ⟨hs, hrole⟩ := hst hst'
        exact ⟨hmax hs, _, h.peer i hans, hrole⟩

/-! ## Agreement -/

/-- Two devices with the WPS information, none of which has negotiated yet. -/
structure Fresh (w : World) : Prop where
  intent : ∀ i, (w.dev i).intent ≤ maxIntent
  wps : ∀ i, (w.dev i).gotWpsInfo = true
  state : ∀ i, (w.dev i).state ≠ .gonegoOk
  sent : w.sent = []

/-- The device sends no request, or the intents are not the same (or are both 15), or the other device
has sent none so far. -/
def AsksAlone (w : World) (a : Bool × Event) : Prop :=
  a.2 = .probeRsp → (w.dev a.1).requestDue = true → (w.dev a.1).intent = (w.dev (!a.1)).intent →
    (w.dev a.1).intent ≠ maxIntent → ¬ Asked w (!a.1)

theorem Fresh.inv {w : World} (h : Fresh w) : Inv w where
  intent := h.intent
  wps := h.wps
  req := by simp [h.sent]
  resp := by simp [h.sent]
  peer := by
    intro i hans
    obtain ⟨s, v, c, l, hmem⟩ := hans
    simp [h.sent] at hmem
  conf := by simp [h.sent]
  ok := fun i hst => absurd hst (h.state i)

/-- Where the intents are the same, only one device asks. -/
def OneAsks (w : World) : Prop :=
  (w.dev true).intent = (w.dev false).intent → (w.dev true).intent ≠ maxIntent →
    ¬ (Asked w true ∧ Asked w false)

/-- Only a request that is due makes a device ask. -/
theorem asked_handle {w : World} {i j : Bool} {e : Event}
    (h : Asked (w.after i (w.handle i e).1 (w.handle i e).2) j) :
    Asked w j ∨ j = i ∧ e = .probeRsp ∧ (w.dev i).requestDue = true := by
  obtain ⟨v, c, l, hmem⟩ := h
  rcases mem_after.mp hmem with hold | ⟨hji, hnew⟩
  · exact Or.inl ⟨v, c, l, hold⟩
  · refine Or.inr ⟨hji, ?_⟩
    cases e with
    | connect => exact absurd hnew (by simp [World.handle])
    | probeRsp =>
        refine ⟨rfl, ?_⟩
        by_contra hdue
        simp [World.handle, hdue] at hnew
    | deliver n =>
        exfalso
        unfold World.handle at hnew
        dsimp only at hnew
        cases hget : w.sent[n]? with
        | none => simp [hget] at hnew
        | some m =>
            obtain ⟨src, f⟩ := m
            rw [hget] at hnew
            dsimp only at hnew
            split at hnew
            · unfold onActionPublicP2p at hnew
              split at hnew
              · simp at hnew
              · cases f with
                | req v c l => simp [issueP2pGoResponse] at hnew
                | resp s v c l =>
                    dsimp only at hnew
                    split at hnew
                    · simp [issueP2pGoConfirm] at hnew
                    · simp at hnew
                | conf s c => simp at hnew
            · simp at hnew

theorem OneAsks.handle {w : World} (hinv : Inv w) (h : OneAsks w) {i : Bool} {e : Event}
    (hok : AsksAlone w (i, e)) : OneAsks (w.after i (w.handle i e).1 (w.handle i e).2) := by
  have hi := (handle_effect (hinv.wps i) e).1
  intro heq hne hboth
  rw [after_intent hi, after_intent hi] at heq
  rw [after_intent hi] at hne
  have hsame : ∀ j, (w.dev j).intent = (w.dev (!j)).intent ∧ (w.dev j).intent ≠ maxIntent := by
    intro j
    cases j with
    | true => exact ⟨heq, hne⟩
    | false => exact ⟨heq.symm, fun h => hne (heq.trans h)⟩
  -- the device that asks now is not the first one
  have hall : ∀ j, Asked (w.after i (w.handle i e).1 (w.handle i e).2) j := by
    intro j
    cases j with
    | true => exact hboth.1
    | false => exact hboth.2
  rcases asked_handle (hall i) with hask | ⟨-, hev, hdue⟩
  · rcases asked_handle (hall (!i)) with hask' | ⟨hji, -, -⟩
    · refine h heq hne ?_
      cases i with
      | true => exact ⟨hask, hask'⟩
      | false => exact ⟨hask', hask⟩
    · exact (Bool.not_eq_self i).mp hji
  · rcases asked_handle (hall (!i)) with hask' | ⟨hji, -, -⟩
    · exact hok hev hdue (hsame i).1 (hsame i).2 hask'
    · exact (Bool.not_eq_self i).mp hji

theorem Inv.carries {w : World} (h : Inv w) {i : Bool} {v : Nat} (hv : Carries w i v) :
    v >>> 1 = (w.dev i).intent := by
  rcases hv with ⟨rfl, -⟩ | ⟨rfl, -⟩
  · exact reqAttr_intent (h.intent i)
  · exact ansAttr_intent (h.intent i)

/-- Where the intents differ, the larger one wins. -/
theorem Inv.role_of_ne {w : World} (h : Inv w) {i : Bool} (hok : (w.dev i).state = .gonegoOk)
    (hne : (w.dev i).intent ≠ (w.dev (!i)).intent) :
    (w.dev i).role = if (w.dev (!i)).intent < (w.dev i).intent then .go else .client := by
  obtain ⟨-, v, hv, hrole⟩ := h.ok i hok
  have hint := h.carries hv
  rw [hrole, roleFrom, hint, if_neg hne]

/-- Where they are the same, a device that was asked becomes the owner, and one that asked the
client. -/
theorem Inv.role_of_eq {w : World} (h : Inv w) {i : Bool} (hok : (w.dev i).state = .gonegoOk)
    (heq : (w.dev i).intent = (w.dev (!i)).intent) :
    (w.dev i).role = .go ∧ Asked w (!i) ∨ (w.dev i).role = .client ∧ Asked w i := by
  obtain ⟨-, v, hv, hrole⟩ := h.ok i hok
  have hint := h.carries hv
  rw [roleFrom, hint, if_pos heq] at hrole
  rcases hv with ⟨rfl, hask⟩ | ⟨rfl, hask⟩
  · rw [reqAttr_tie (h.intent _), if_neg (by decide)] at hrole
    exact Or.inl ⟨hrole, hask⟩
  · rw [ansAttr_tie (h.intent _), if_pos rfl] at hrole
    rw [Bool.not_not] at hask
    exact Or.inr ⟨hrole, hask⟩

theorem Inv.agree {w : World} (h : Inv w) (hone : OneAsks w)
    (hok : ∀ i, (w.dev i).state = .gonegoOk) :
    ∃ go, (w.dev go).role = .go ∧ (w.dev (!go)).role = .client := by
  by_cases heq : (w.dev true).intent = (w.dev false).intent
  · have hmax : (w.dev true).intent ≠ maxIntent := by
      intro hmax
      refine (h.ok true (hok true)).1 fun i => ?_
      cases i with
      | true => exact hmax
      | false => exact heq.symm.trans hmax
    have hnot := hone heq hmax
    rcases h.role_of_eq (hok true) heq with ⟨ht, hasked⟩ | ⟨ht, hasked⟩
    · rcases h.role_of_eq (hok false) heq.symm with ⟨-, hasked'⟩ | ⟨hf, -⟩
      · exact absurd ⟨hasked', hasked⟩ hnot
      · exact ⟨true, ht, hf⟩
    · rcases h.role_of_eq (hok false) heq.symm with ⟨hf, -⟩ | ⟨-, hasked'⟩
      · exact ⟨false, hf, ht⟩
      · exact absurd ⟨hasked, hasked'⟩ hnot
  · have ht := h.role_of_ne (hok true) heq
    have hf := h.role_of_ne (hok false) (Ne.symm heq)
    rw [Bool.not_true] at ht
    rw [Bool.not_false] at hf
    rcases Nat.lt_or_gt_of_ne heq with hlt | hgt
    · rw [if_neg (by omega)] at ht
      rw [if_pos hlt] at hf
      exact ⟨false, hf, ht⟩
    · rw [if_pos hgt] at ht
      rw [if_neg (by omega)] at hf
      exact ⟨true, ht, hf⟩

/-- **The devices agree.** However the frames are ordered, lost and repeated: whenever both devices have
succeeded, one is the group owner and the other the client, as long as the intents differ, are both
15, or only one of the devices asks. -/
theorem go_negotiation_agrees {w₀ w : World} (h₀ : Fresh w₀) (h : Reach World.step AsksAlone w₀ w)
    (hok : ∀ i, (w.dev i).state = .gonegoOk) :
    ∃ go, (w.dev go).role = .go ∧ (w.dev (!go)).role = .client := by
  have hinv : Inv w ∧ OneAsks w := by
    refine Reach.invariant (fun w => Inv w ∧ OneAsks w) ⟨h₀.inv, ?_⟩ ?_ h
    · intro _ _ hboth
      obtain ⟨v, c, l, hmem⟩ := hboth.1
      simp [h₀.sent] at hmem
    · intro w w' a hw hstep hdone
      cases hdone
      exact ⟨hw.1.handle a.1 a.2, hw.2.handle hw.1 hstep⟩
  exact hinv.1.agree hinv.2 hok

/-! ## Two runs -/

/-- A device that listens, with intent 7. -/
def sampleDev : WdInfo where
  intent := 7
  peerIntent := 0
  role := .device
  state := .listen
  preState := .listen
  gotWpsInfo := true
  negoReqEnable := false
  operatingChannel := 6
  peerOperatingCh := 0
  channelSet := [1, 6, 11]
  channelList := [1, 6, 11]

def sampleWorld : World := ⟨fun _ => sampleDev, []⟩

theorem sampleWorld_fresh : Fresh sampleWorld :=
  ⟨by decide, by decide, by decide, rfl⟩

/-- States and roles. -/
def World.outcome (w : World) : (P2pState × P2pRole) × (P2pState × P2pRole) :=
  (((w.dev true).state, (w.dev true).role), ((w.dev false).state, (w.dev false).role))

/-- One device asks, the other one answers, and the confirm arrives. -/
def cleanRun : List (Bool × Event) :=
  [(true, .connect), (true, .probeRsp), (false, .deliver 0), (true, .deliver 1), (false, .deliver 2)]

theorem cleanRun_ok : RunOk World.step AsksAlone sampleWorld cleanRun := by
  have hquiet : ∀ {w : World} {i : Bool} {e : Event}, e ≠ .probeRsp → AsksAlone w (i, e) :=
    fun hne he => absurd he hne
  refine ⟨hquiet (by decide), fun w hw => ⟨?_, fun _ _ => ⟨hquiet (by decide), fun _ _ =>
    ⟨hquiet (by decide), fun _ _ => ⟨hquiet (by decide), fun _ _ => trivial⟩⟩⟩⟩⟩
  -- no frame has been sent so far
  cases hw
  intro _ _ _ _ hask
  obtain ⟨v, c, l, hmem⟩ := hask
  exact absurd hmem List.not_mem_nil

theorem go_negotiation_agrees_sample :
    ∃ w, Reach World.step AsksAlone sampleWorld w
      ∧ w.outcome = ((.gonegoOk, .client), (.gonegoOk, .go))
      ∧ ∃ go, (w.dev go).role = .go ∧ (w.dev (!go)).role = .client := by
  have hview : (runActions World.step sampleWorld cleanRun).view World.outcome
      = some ((.gonegoOk, .client), (.gonegoOk, .go)) := by decide
  obtain ⟨w, hrun, hout⟩ := Outcome.of_view hview
  have hreach := reach_runActions Reach.start cleanRun_ok hrun
  have hok : ∀ i, (w.dev i).state = .gonegoOk := by
    intro i
    cases i with
    | true => exact congrArg (fun o => o.1.1) hout
    | false => exact congrArg (fun o => o.2.1) hout
  exact ⟨w, hreach, hout, go_negotiation_agrees sampleWorld_fresh hreach hok⟩

/-- Both ask before either of them is heard. -/
def crossedRun : List (Bool × Event) :=
  [(true, .connect), (false, .connect), (true, .probeRsp), (false, .probeRsp), (false, .deliver 0),
    (true, .deliver 1), (true, .deliver 2), (false, .deliver 3)]

/-- Then both succeed, and both are clients. -/
theorem go_negotiation_crossed :
    Fresh sampleWorld
      ∧ ∃ w, Reach World.step (fun _ _ => True) sampleWorld w
        ∧ (∀ i, (w.dev i).state = .gonegoOk) ∧ (∀ i, (w.dev i).role = .client)
        ∧ ¬ ∃ go, (w.dev go).role = .go ∧ (w.dev (!go)).role = .client := by
  have hview : (runActions World.step sampleWorld crossedRun).view World.outcome
      = some ((.gonegoOk, .client), (.gonegoOk, .client)) := by decide
  obtain ⟨w, hrun, hout⟩ := Outcome.of_view hview
  have hany : RunOk World.step (fun _ _ => True) sampleWorld crossedRun :=
    RunOk.of_all fun _ _ _ => trivial
  have hreach := reach_runActions Reach.start hany hrun
  have hrole : ∀ i, (w.dev i).role = .client := by
    intro i
    cases i with
    | true => exact congrArg (fun o => o.1.2) hout
    | false => exact congrArg (fun o => o.2.2) hout
  refine ⟨sampleWorld_fresh, w, hreach, ?_, hrole, ?_⟩
  · intro i
    cases i with
    | true => exact congrArg (fun o => o.1.1) hout
    | false => exact congrArg (fun o => o.2.1) hout
  · intro hgo
    obtain ⟨go, hgo, -⟩ := hgo
    rw [hrole go] at hgo
    exact absurd hgo (by decide)

end Rtl8812au.P2p
