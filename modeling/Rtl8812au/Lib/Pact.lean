import Mathlib.Data.List.Basic

/-!
# An agreement over channels that lose

One side asks, the other answers, and either may end what was agreed, over two channels that keep the order.
Nothing numbers the questions, and most of what is on its way can be lost. What the two sides can still promise
each other is that the side that answered remembers an agreement for as long as the side that asked may go by it:
a refusal that may be lost is no reason to forget.

The side that asked must not end an agreement while a question of its own is open. The answer would bring it back
to life on one side only.
-/

/-- What the side that asks can hear. -/
inductive PactReply where
  | yes
  | no
  | ends
  deriving DecidableEq

/-- What the side that answers can hear. -/
inductive PactCall where
  | ask
  | ends
  deriving DecidableEq

/-- Whether the asker goes by the agreement, whether the answerer remembers one, and what is on its way, the
oldest first. -/
structure Pact where
  asker : Bool := false
  answerer : Bool := false
  forth : List PactCall := []
  back : List PactReply := []

namespace Pact

variable {p q : Pact} {a b : Bool} {r : PactReply} {back rest : List PactReply}

/-- What the asker may go by after a word it may not hear, unless this is the end of the agreement. -/
def hear (a : Bool) : PactReply → Bool
  | .yes => true
  | .no => a
  | .ends => false

/-- What can happen. -/
inductive Step : Pact → Pact → Prop where
  | stay {p : Pact} : Step p p
  | ask {p : Pact} : Step p { p with forth := p.forth ++ [.ask] }
  | accept {p : Pact} {rest : List PactCall} : p.forth = .ask :: rest →
      Step p { p with forth := rest, answerer := true, back := p.back ++ [.yes] }
  | refuse {p : Pact} {rest : List PactCall} : p.forth = .ask :: rest →
      Step p { p with forth := rest, back := p.back ++ [.no] }
  | hearReply {p : Pact} {r : PactReply} {rest : List PactReply} (b : Bool) : p.back = r :: rest →
      (b = true → hear p.asker r = true) → Step p { p with back := rest, asker := b }
  | hearEnd {p : Pact} {rest : List PactCall} (b : Bool) : p.forth = .ends :: rest →
      Step p { p with forth := rest, answerer := b }
  | askerEnds {p : Pact} : .ask ∉ p.forth → .yes ∉ p.back →
      Step p { p with forth := p.forth ++ [.ends], asker := false }
  | answererEnds {p : Pact} (b : Bool) : Step p { p with back := p.back ++ [.ends], answerer := b }
  | askerDrops {p : Pact} : Step p { p with asker := false }
  | remember {p : Pact} : Step p { p with answerer := true }
  | loseForth {p : Pact} {rest : List PactCall} : rest.Sublist p.forth → Step p { p with forth := rest }
  | loseBack {p : Pact} {r : PactReply} {pre post : List PactReply} : p.back = pre ++ r :: post →
      r ≠ .ends → Step p { p with back := pre ++ post }

/-- Whether the asker may still come to go by the agreement, with what is on its way. -/
def hopes (p : Pact) : Bool := p.back.foldl hear p.asker

/-- **What keeps the two sides together.** -/
structure Sound (p : Pact) : Prop where
  agreed : p.hopes = true → p.answerer = true
  ended : .ends ∈ p.forth → p.asker = false ∧ .yes ∉ p.back
  /-- An end on its way is before every question. -/
  ordered : p.forth.Pairwise fun x y => x = .ask → y ≠ .ends

/-! ## What is on its way -/

theorem hear_mono (h : a = true → b = true) (r : PactReply) : hear a r = true → hear b r = true := by
  cases r with
  | yes => exact id
  | no => exact h
  | ends => exact id

theorem foldl_hear_mono (h : a = true → b = true) :
    back.foldl hear a = true → back.foldl hear b = true := by
  induction back generalizing a b with
  | nil => exact h
  | cons r rest ih => exact ih (hear_mono h r)

/-- Losing anything but the end leaves no more to hope for. -/
theorem foldl_hear_lose (hr : r ≠ .ends) (pre post : List PactReply) :
    (pre ++ post).foldl hear a = true → (pre ++ r :: post).foldl hear a = true := by
  rw [List.foldl_append, List.foldl_append]
  refine foldl_hear_mono fun ha => ?_
  cases r with
  | yes => rfl
  | no => exact ha
  | ends => exact absurd rfl hr

/-- Without a yes on its way, an asker that does not go by the agreement will not. -/
theorem foldl_hear_false (h : .yes ∉ back) : back.foldl hear false = false := by
  induction back with
  | nil => rfl
  | cons r rest ih =>
      have hrest : .yes ∉ rest := fun hmem => h (List.mem_cons_of_mem r hmem)
      cases r with
      | yes => exact absurd List.mem_cons_self h
      | no => exact ih hrest
      | ends => exact ih hrest

/-- Without an end on its way, an asker that goes by the agreement may go on. -/
theorem foldl_hear_true (h : .ends ∉ back) : back.foldl hear true = true := by
  induction back with
  | nil => rfl
  | cons r rest ih =>
      have hrest : .ends ∉ rest := fun hmem => h (List.mem_cons_of_mem r hmem)
      cases r with
      | yes => exact ih hrest
      | no => exact ih hrest
      | ends => exact absurd List.mem_cons_self h

theorem foldl_hear_concat (r : PactReply) : (back ++ [r]).foldl hear a = hear (back.foldl hear a) r := by
  rw [List.foldl_append]
  rfl

/-! ## One step -/

/-- A question that comes first has no end behind it. -/
theorem Sound.no_end (h : Sound p) {rest : List PactCall} (hforth : p.forth = .ask :: rest) :
    .ends ∉ rest := by
  have hord := h.ordered
  rw [hforth] at hord
  exact fun hends => (List.pairwise_cons.mp hord).1 _ hends rfl rfl

/-- What is left when less is on its way to the answerer. -/
theorem Sound.of_sublist (h : Sound p) {rest : List PactCall} (hsub : rest.Sublist p.forth) :
    Sound { p with forth := rest } :=
  ⟨h.agreed, fun hends => h.ended (hsub.mem hends), h.ordered.sublist hsub⟩

/-- **Kept by every step.** -/
theorem Sound.step (h : Sound p) (hs : Step p q) : Sound q := by
  cases hs with
  | stay => exact h
  | ask =>
      -- a new request comes behind all that is on its way
      refine ⟨h.agreed, fun hends => h.ended ?_, ?_⟩
      · rcases List.mem_append.mp hends with hold | hnew
        · exact hold
        · exact absurd (List.mem_singleton.mp hnew) nofun
      · refine List.pairwise_append.mpr ⟨h.ordered, List.pairwise_singleton _ _, fun x _ y hy _ => ?_⟩
        rw [List.mem_singleton.mp hy]
        exact nofun
  | @accept rest hforth =>
      have hno := h.no_end hforth
      have hsub : rest.Sublist p.forth := hforth ▸ List.sublist_cons_self _ _
      -- a request in front means that no end is behind it
      exact ⟨fun _ => rfl, fun hends => absurd hends hno, h.ordered.sublist hsub⟩
  | @refuse rest hforth =>
      have hno := h.no_end hforth
      have hsub : rest.Sublist p.forth := hforth ▸ List.sublist_cons_self _ _
      refine ⟨fun hhope => h.agreed ?_, fun hends => absurd hends hno, h.ordered.sublist hsub⟩
      unfold hopes at hhope
      rw [foldl_hear_concat] at hhope
      exact hhope
  | @hearReply r rest b hback hb =>
      refine ⟨fun hhope => h.agreed ?_, fun hends => ?_, h.ordered⟩
      · unfold hopes at hhope ⊢
        rw [hback, List.foldl_cons]
        exact foldl_hear_mono hb hhope
      -- once the asker has ended, no reply makes it believe again
      · obtain ⟨hasker, hyes⟩ := h.ended hends
        rw [hback] at hyes
        have hr : hear p.asker r = false := by
          rw [hasker]
          cases r with
          | yes => exact absurd List.mem_cons_self hyes
          | no => rfl
          | ends => rfl
        refine ⟨Bool.eq_false_iff.mpr fun hbt => ?_, fun hmem => hyes (List.mem_cons_of_mem _ hmem)⟩
        rw [hb hbt] at hr
        cases hr
  | @hearEnd rest b hforth =>
      obtain ⟨hasker, hyes⟩ := h.ended (hforth ▸ List.mem_cons_self)
      have hsub : rest.Sublist p.forth := hforth ▸ List.sublist_cons_self _ _
      refine ⟨fun hhope => ?_, fun _ => ⟨hasker, hyes⟩, h.ordered.sublist hsub⟩
      unfold hopes at hhope
      rw [hasker, foldl_hear_false hyes] at hhope
      cases hhope
  | askerEnds hask hyes =>
      refine ⟨fun hhope => ?_, fun _ => ⟨rfl, hyes⟩, ?_⟩
      · unfold hopes at hhope
        rw [foldl_hear_false hyes] at hhope
        cases hhope
      · refine List.pairwise_append.mpr ⟨h.ordered, List.pairwise_singleton _ _, fun x hx y _ hxa => ?_⟩
        exact absurd (hxa ▸ hx) hask
  | answererEnds b =>
      refine ⟨fun hhope => ?_, fun hends => ?_, h.ordered⟩
      · unfold hopes at hhope
        rw [foldl_hear_concat] at hhope
        cases hhope
      · obtain ⟨hasker, hyes⟩ := h.ended hends
        refine ⟨hasker, fun hmem => ?_⟩
        rcases List.mem_append.mp hmem with hold | hnew
        · exact hyes hold
        · exact absurd (List.mem_singleton.mp hnew) nofun
  | askerDrops =>
      refine ⟨fun hhope => h.agreed ?_, fun hends => ⟨rfl, (h.ended hends).2⟩, h.ordered⟩
      exact foldl_hear_mono (fun hfalse => absurd hfalse Bool.false_ne_true) hhope
  | remember => exact ⟨fun _ => rfl, h.ended, h.ordered⟩
  | loseForth hsub => exact h.of_sublist hsub
  | @loseBack r pre post hback hr =>
      refine ⟨fun hhope => h.agreed ?_, fun hends => ?_, h.ordered⟩
      · unfold hopes
        rw [hback]
        exact foldl_hear_lose hr pre post hhope
      · obtain ⟨hasker, hyes⟩ := h.ended hends
        refine ⟨hasker, fun hmem => hyes ?_⟩
        rw [hback]
        exact ((List.Sublist.refl pre).append (List.sublist_cons_self r post)).mem hmem

/-- The answerer that may say more than once that it is over, and forgets only when it has said so. -/
theorem Sound.endsAll (h : Sound p) {w : List PactReply} (hw : ∀ r ∈ w, r = .ends)
    (hb : w = [] → p.answerer = true → b = true) : Sound { p with back := p.back ++ w, answerer := b } := by
  induction w generalizing p with
  | nil =>
      rw [List.append_nil]
      exact ⟨fun hhope => hb rfl (h.agreed hhope), h.ended, h.ordered⟩
  | cons r w ih =>
      have hends := h.step (.answererEnds b)
      rw [← hw r List.mem_cons_self] at hends
      have hall := ih hends (fun r hr => hw r (List.mem_cons_of_mem _ hr)) fun _ ha => ha
      rw [List.append_assoc] at hall
      exact hall

/-- **Who goes by an agreement is remembered**, or will hear that it is over. -/
theorem Sound.remembered (h : Sound p) (ha : p.asker = true) : p.answerer = true ∨ .ends ∈ p.back := by
  by_cases hends : .ends ∈ p.back
  · exact Or.inr hends
  · refine Or.inl (h.agreed ?_)
    unfold hopes
    rw [ha]
    exact foldl_hear_true hends

end Pact
