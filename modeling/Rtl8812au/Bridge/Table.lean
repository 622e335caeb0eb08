import Rtl8812au.Bridge.Nat25

/-!
# The database as a map

What a lookup finds after an entry is written, added or taken out for its age. Nothing here knows of
the frames.
-/

namespace Rtl8812au.Nat25

/-! ## The table -/

theorem generateIpv4NetworkAddr_inj {a b : Ip}
    (h : generateIpv4NetworkAddr a = generateIpv4NetworkAddr b) : a = b := by
  cases a
  cases b
  simpa [generateIpv4NetworkAddr] using h

/-- The chains are in order, and an entry is where its pointer says. -/
structure TableInv (b : Bridge) : Prop where
  ok : Chained.Ok DbEntry.networkAddr networkHash b.nethash
  ptrInj : ∀ n n' e e', b.findNet n = some e → b.findNet n' = some e' → e.ptr = e'.ptr → n = n'
  ptrLt : ∀ n e, b.findNet n = some e → e.ptr < b.nextPtr

/-- A walk over the entries that keeps their pointers and addresses. -/
theorem TableInv.walk {b : Bridge} (h : TableInv b) (b' : Bridge) {f : DbEntry → Option DbEntry}
    (hf : ∀ e e', f e = some e' → e'.networkAddr = e.networkAddr ∧ e'.ptr = e.ptr)
    (hb : b'.nethash = Chained.walk f b.nethash) (hp : b'.nextPtr = b.nextPtr) :
    TableInv b' ∧ ∀ n, b'.findNet n = (b.findNet n).bind f := by
  have hkey : ∀ e e', f e = some e' → e'.networkAddr = e.networkAddr := fun e e' he => (hf e e' he).1
  have hfind : ∀ n, b'.findNet n = (b.findNet n).bind f := by
    intro n
    unfold Bridge.findNet
    rw [hb]
    exact h.ok.find_walk hkey n
  have hback : ∀ n e', b'.findNet n = some e' → ∃ e, b.findNet n = some e ∧ e'.ptr = e.ptr := by
    intro n e' he'
    rw [hfind] at he'
    obtain ⟨e, he, hfe⟩ := Option.bind_eq_some_iff.mp he'
    exact ⟨e, he, (hf e e' hfe).2⟩
  refine ⟨⟨?_, ?_, ?_⟩, hfind⟩
  · rw [hb]
    exact h.ok.walk hkey
  · intro n n' e e' he he' hpp
    obtain ⟨a, ha, hae⟩ := hback n e he
    obtain ⟨a', ha', hae'⟩ := hback n' e' he'
    exact h.ptrInj n n' a a' ha ha' (by rw [← hae, ← hae', hpp])
  · intro n e he
    obtain ⟨a, ha, hae⟩ := hback n e he
    rw [hp, hae]
    exact h.ptrLt n a ha

section

variable {b : Bridge} {f : DbEntry → DbEntry}

theorem TableInv.write (h : TableInv b) (p : Nat)
    (hf : ∀ e, (f e).networkAddr = e.networkAddr ∧ (f e).ptr = e.ptr) :
    TableInv (b.write p f)
      ∧ ∀ n, (b.write p f).findNet n = (b.findNet n).map fun e => if e.ptr = p then f e else e := by
  obtain ⟨h1, h2⟩ := h.walk (b.write p f) (f := fun e => some (if e.ptr = p then f e else e))
    (by
      intro e e' he
      cases he
      by_cases hp : e.ptr = p
      · rw [if_pos hp]
        exact hf e
      · rw [if_neg hp]
        exact ⟨rfl, rfl⟩)
    rfl rfl
  refine ⟨h1, fun n => ?_⟩
  rw [h2 n]
  cases b.findNet n with
  | none => rfl
  | some e => rfl

/-- A write through the pointer of an entry changes that entry and no other. -/
theorem TableInv.findNet_write (h : TableInv b)
    (hf : ∀ e, (f e).networkAddr = e.networkAddr ∧ (f e).ptr = e.ptr) {n : NetworkAddr} {e : DbEntry}
    (he : b.findNet n = some e) (n' : NetworkAddr) :
    (b.write e.ptr f).findNet n' = if n' = n then some (f e) else b.findNet n' := by
  rw [(h.write e.ptr hf).2 n']
  by_cases hn : n' = n
  · rw [if_pos hn, hn, he, Option.map_some, if_pos rfl]
  · rw [if_neg hn]
    cases he' : b.findNet n' with
    | none => rfl
    | some e' =>
        have hne : e'.ptr ≠ e.ptr := fun hp => hn (h.ptrInj n' n e' e he' he hp)
        rw [Option.map_some, if_neg hne]

/-- After an insertion the address is found with the sender and the time, and no other address is
found differently. -/
theorem TableInv.insert (h : TableInv b) (now : Nat) (mac : MacAddr) (n : NetworkAddr) :
    TableInv (b.networkInsert now mac n)
      ∧ (∃ e, (b.networkInsert now mac n).findNet n = some e ∧ e.macAddr = mac
          ∧ e.ageingTimer = now ∧ ∀ e₀, b.findNet n = some e₀ → e.ptr = e₀.ptr)
      ∧ ∀ n', n' ≠ n → (b.networkInsert now mac n).findNet n' = b.findNet n' := by
  unfold Bridge.networkInsert
  cases he : b.findNet n with
  | some e =>
      -- an entry that is there is only written to
      have hf : ∀ x : DbEntry, ({ x with macAddr := mac, ageingTimer := now } : DbEntry).networkAddr
          = x.networkAddr ∧ ({ x with macAddr := mac, ageingTimer := now } : DbEntry).ptr = x.ptr :=
        fun _ => ⟨rfl, rfl⟩
      have hfind := h.findNet_write hf he
      refine ⟨(h.write e.ptr hf).1, ⟨{ e with macAddr := mac, ageingTimer := now }, ?_, rfl, rfl, ?_⟩,
        fun n' hn => ?_⟩
      · dsimp only
        rw [hfind n, if_pos rfl]
      · intro e₀ he₀
        cases he₀
        rfl
      · dsimp only
        rw [hfind n', if_neg hn]
  | none =>
      -- a new one is linked in at the head of its chain
      have hfind : ∀ n', Chained.find DbEntry.networkAddr networkHash
          (Chained.link DbEntry.networkAddr networkHash b.nethash
            { ptr := b.nextPtr, useCount := 1, macAddr := mac, ageingTimer := now,
              networkAddr := n }) n'
          = if n = n' then some
              { ptr := b.nextPtr, useCount := 1, macAddr := mac, ageingTimer := now,
                networkAddr := n }
            else b.findNet n' := fun n' => Chained.find_link _ n'
      refine ⟨⟨h.ok.link he, ?_, ?_⟩, ⟨_, (hfind n).trans (if_pos rfl), rfl, rfl, nofun⟩,
        fun n' hn => (hfind n').trans (if_neg fun hc => hn hc.symm)⟩
      · -- the new pointer is none of the old ones
        intro n₁ n₂ e₁ e₂ h₁ h₂ hp
        have h₁' := (hfind n₁).symm.trans h₁
        have h₂' := (hfind n₂).symm.trans h₂
        by_cases hn₁ : n = n₁
        · by_cases hn₂ : n = n₂
          · rw [← hn₁, ← hn₂]
          · rw [if_pos hn₁] at h₁'
            rw [if_neg hn₂] at h₂'
            cases h₁'
            have hlt := h.ptrLt n₂ e₂ h₂'
            dsimp only at hp
            omega
        · rw [if_neg hn₁] at h₁'
          by_cases hn₂ : n = n₂
          · rw [if_pos hn₂] at h₂'
            cases h₂'
            have hlt := h.ptrLt n₁ e₁ h₁'
            dsimp only at hp
            omega
          · rw [if_neg hn₂] at h₂'
            exact h.ptrInj n₁ n₂ e₁ e₂ h₁' h₂' hp
      · intro n' e' he'
        have he'' := (hfind n').symm.trans he'
        by_cases hn : n = n'
        · rw [if_pos hn] at he''
          cases he''
          exact Nat.lt_succ_self _
        · rw [if_neg hn] at he''
          exact Nat.lt_succ_of_lt (h.ptrLt n' e' he'')

end

/-! ## Old entries -/

/-- What `nat25_db_expire` leaves of an entry. -/
def expireEntry (c : Clock) (now : Nat) (e : DbEntry) : Option DbEntry :=
  if e.hasExpired c now then
    if e.useCount - 1 = 0 then none else some { e with useCount := e.useCount - 1 }
  else some e

section

variable {c : Clock} {now : Nat}

theorem expireEntry_some {e e' : DbEntry} (h : expireEntry c now e = some e') :
    e'.networkAddr = e.networkAddr ∧ e'.ptr = e.ptr ∧ e'.macAddr = e.macAddr
      ∧ e'.ageingTimer = e.ageingTimer := by
  unfold expireEntry at h
  split at h
  · split at h
    · cases h
    · cases h
      exact ⟨rfl, rfl, rfl, rfl⟩
  · cases h
    exact ⟨rfl, rfl, rfl, rfl⟩

theorem expireEntry_live {e : DbEntry} (h : e.hasExpired c now = false) :
    expireEntry c now e = some e := by
  unfold expireEntry
  rw [h, if_neg Bool.false_ne_true]

/-- One entry of a chain, then the rest. -/
theorem expireChain_cons (e : DbEntry) (l : List DbEntry) (sc : Bridge.Scdb) :
    Bridge.expireChain c now (e :: l) sc =
      match expireEntry c now e with
      | none => Bridge.expireChain c now l (if sc.entry = some e.ptr then .zero else sc)
      | some e' => (e' :: (Bridge.expireChain c now l sc).1, (Bridge.expireChain c now l sc).2) := by
  unfold expireEntry
  rw [Bridge.expireChain]
  by_cases hexp : e.hasExpired c now = true
  · rw [if_pos hexp, if_pos hexp]
    by_cases hcnt : e.useCount - 1 = 0
    · rw [if_pos hcnt, if_pos hcnt]
    · rw [if_neg hcnt, if_neg hcnt]
  · rw [if_neg hexp, if_neg hexp]

theorem expireChain_fst : ∀ (l : List DbEntry) (sc : Bridge.Scdb),
    (Bridge.expireChain c now l sc).1 = l.filterMap (expireEntry c now) := by
  intro l
  induction l with
  | nil => intro sc; rfl
  | cons e l ih =>
      intro sc
      rw [expireChain_cons]
      cases he : expireEntry c now e with
      | none =>
          rw [List.filterMap_cons_none he]
          exact ih _
      | some e' =>
          rw [List.filterMap_cons_some he]
          exact congrArg _ (ih sc)

/-- The short cut is cleared exactly when its entry is dropped. -/
def Cleared (c : Clock) (now : Nat) (es : List DbEntry) (sc sc' : Bridge.Scdb) : Prop :=
  sc' = sc ∧ (∀ e ∈ es, sc.entry = some e.ptr → expireEntry c now e ≠ none)
    ∨ sc' = .zero ∧ ∃ e ∈ es, sc.entry = some e.ptr ∧ expireEntry c now e = none

theorem Cleared.append {es es' : List DbEntry} {sc sc' sc'' : Bridge.Scdb}
    (h : Cleared c now es sc sc') (h' : Cleared c now es' sc' sc'') :
    Cleared c now (es ++ es') sc sc'' := by
  rcases h with ⟨rfl, hkeep⟩ | ⟨rfl, e, he, hp, hdrop⟩
  · rcases h' with ⟨rfl, hkeep'⟩ | ⟨rfl, e, he, hp, hdrop⟩
    · refine Or.inl ⟨rfl, fun e he => ?_⟩
      rcases List.mem_append.mp he with he | he
      · exact hkeep e he
      · exact hkeep' e he
    · exact Or.inr ⟨rfl, e, List.mem_append_right es he, hp, hdrop⟩
  · -- a cleared short cut has no entry that could be dropped
    refine Or.inr ⟨?_, e, List.mem_append_left es' he, hp, hdrop⟩
    rcases h' with ⟨rfl, _⟩ | ⟨rfl, _⟩
    · rfl
    · rfl

theorem expireChain_cleared : ∀ (l : List DbEntry) (sc : Bridge.Scdb),
    Cleared c now l sc (Bridge.expireChain c now l sc).2 := by
  intro l
  induction l with
  | nil =>
      intro sc
      exact Or.inl ⟨rfl, fun e he => nomatch he⟩
  | cons e l ih =>
      intro sc
      rw [expireChain_cons]
      cases he : expireEntry c now e with
      | some e' =>
          have hone : Cleared c now [e] sc sc := by
            refine Or.inl ⟨rfl, fun x hx _ => ?_⟩
            rw [List.mem_singleton.mp hx, he]
            exact nofun
          exact hone.append (ih sc)
      | none =>
          have hone : Cleared c now [e] sc (if sc.entry = some e.ptr then .zero else sc) := by
            by_cases hp : sc.entry = some e.ptr
            · rw [if_pos hp]
              exact Or.inr ⟨rfl, e, List.mem_singleton_self e, hp, he⟩
            · rw [if_neg hp]
              refine Or.inl ⟨rfl, fun x hx hpx => ?_⟩
              rw [List.mem_singleton.mp hx] at hpx
              exact absurd hpx hp
          exact hone.append (ih _)

theorem foldl_cleared (c : Clock) (now : Nat) (t : Fin 16 → List DbEntry) : ∀ (is : List (Fin 16)) (sc : Bridge.Scdb),
    Cleared c now (is.flatMap t) sc
      (is.foldl (fun sc i => (Bridge.expireChain c now (t i) sc).2) sc) := by
  intro is
  induction is with
  | nil =>
      intro sc
      exact Or.inl ⟨rfl, fun e he => nomatch he⟩
  | cons i is ih =>
      intro sc
      rw [List.flatMap_cons]
      exact (expireChain_cleared (t i) sc).append (ih _)

theorem TableInv.expire {b : Bridge} (h : TableInv b) (c : Clock) (now : Nat) :
    TableInv (b.dbExpire c now)
      ∧ ∀ n, (b.dbExpire c now).findNet n = (b.findNet n).bind (expireEntry c now) := by
  refine h.walk _ ?_ ?_ rfl
  · intro e e' he
    exact ⟨(expireEntry_some he).1, (expireEntry_some he).2.1⟩
  · funext i
    exact expireChain_fst (b.nethash i) _

/-- The short cut after old entries are taken out: as it was, with its entry still there, or cleared,
with its entry dropped. -/
theorem dbExpire_scdb {b : Bridge} (h : TableInv b) (c : Clock) (now : Nat) :
    ((b.dbExpire c now).scdbMac = b.scdbMac ∧ (b.dbExpire c now).scdbIp = b.scdbIp
        ∧ (b.dbExpire c now).scdbEntry = b.scdbEntry
        ∧ ∀ n e, b.findNet n = some e → b.scdbEntry = some e.ptr → expireEntry c now e ≠ none)
      ∨ (b.dbExpire c now).scdbIp = .zero ∧ (b.dbExpire c now).scdbEntry = none
        ∧ ∃ n e, b.findNet n = some e ∧ b.scdbEntry = some e.ptr ∧ expireEntry c now e = none := by
  have hcl := foldl_cleared c now b.nethash (List.finRange 16)
    ⟨b.scdbMac, b.scdbIp, b.scdbEntry⟩
  rcases hcl with ⟨heq, hkeep⟩ | ⟨heq, e, he, hp, hdrop⟩
  · refine Or.inl ⟨congrArg Bridge.Scdb.mac heq, congrArg Bridge.Scdb.ip heq,
      congrArg Bridge.Scdb.entry heq, fun n e he hp => hkeep e ?_ hp⟩
    exact List.mem_flatMap.mpr ⟨networkHash n, List.mem_finRange _, Chained.mem_of_find he⟩
  · obtain ⟨i, _, hei⟩ := List.mem_flatMap.mp he
    exact Or.inr ⟨congrArg Bridge.Scdb.ip heq, congrArg Bridge.Scdb.entry heq, e.networkAddr, e,
      h.ok.find_of_mem hei, hp, hdrop⟩

end

end Rtl8812au.Nat25
