import Mathlib.Algebra.Ring.Int.Defs
import Mathlib.Algebra.Ring.Nat
import Mathlib.Data.List.Basic
import Mathlib.Data.List.Nodup
import Mathlib.Logic.Function.Basic

/-!
# Chained hash tables

A table of chains, each element in the chain its key hashes to. What a reader sees of the table is
`find`; linking an element at the head of its chain and walking all chains to change or drop elements
are described by what they do to `find`.
-/

variable {ε κ β : Type}

namespace Chained

/-- The first element of the key's chain that has the key. -/
def find [DecidableEq κ] (key : ε → κ) (hash : κ → β) (t : β → List ε) (k : κ) : Option ε :=
  (t (hash k)).find? fun e => decide (key e = k)

/-- The element goes to the head of its chain. -/
def link [DecidableEq β] (key : ε → κ) (hash : κ → β) (t : β → List ε) (e : ε) : β → List ε :=
  Function.update t (hash (key e)) (e :: t (hash (key e)))

/-- Every element is replaced or dropped. -/
def walk (f : ε → Option ε) (t : β → List ε) : β → List ε := fun i => (t i).filterMap f

/-- Each element is in the chain of its key, and no key is there twice. -/
structure Ok (key : ε → κ) (hash : κ → β) (t : β → List ε) : Prop where
  placed : ∀ i, ∀ e ∈ t i, hash (key e) = i
  nodup : ∀ i, ((t i).map key).Nodup

section

variable {key : ε → κ} {hash : κ → β} {t : β → List ε} {f : ε → Option ε}

theorem ok_empty : Ok key hash (fun _ => ([] : List ε)) where
  placed := by
    intro i e he
    cases he
  nodup := fun _ => List.nodup_nil

theorem nodup_filterMap (hf : ∀ e e', f e = some e' → key e' = key e) :
    ∀ {l : List ε}, (l.map key).Nodup → ((l.filterMap f).map key).Nodup := by
  intro l
  induction l with
  | nil => intro _; exact List.nodup_nil
  | cons a l ih =>
      intro hnd
      rw [List.map_cons, List.nodup_cons] at hnd
      cases hfa : f a with
      | none =>
          rw [List.filterMap_cons_none hfa]
          exact ih hnd.2
      | some a' =>
          rw [List.filterMap_cons_some hfa, List.map_cons, List.nodup_cons]
          refine ⟨?_, ih hnd.2⟩
          intro hmem
          -- an element of the rest with the key of `a` comes from one with that key
          obtain ⟨x, hx, hxk⟩ := List.mem_map.mp hmem
          obtain ⟨y, hy, hyx⟩ := List.mem_filterMap.mp hx
          have hkey : key y = key a := by rw [← hf y x hyx, hxk, hf a a' hfa]
          exact hnd.1 (hkey ▸ List.mem_map_of_mem hy)

/-- A walk that keeps the keys keeps the table in order. -/
theorem Ok.walk (h : Ok key hash t) (hf : ∀ e e', f e = some e' → key e' = key e) :
    Ok key hash (walk f t) where
  placed := by
    intro i a ha
    obtain ⟨e, he, hea⟩ := List.mem_filterMap.mp ha
    rw [hf e a hea]
    exact h.placed i e he
  nodup := fun i => nodup_filterMap hf (h.nodup i)

end

section

variable [DecidableEq κ] {key : ε → κ} {hash : κ → β} {t : β → List ε} {k : κ} {e : ε}

theorem key_of_find (h : find key hash t k = some e) : key e = k := by
  simpa using List.find?_some h

theorem mem_of_find (h : find key hash t k = some e) : e ∈ t (hash k) := List.mem_of_find?_eq_some h

theorem find_eq_none : find key hash t k = none ↔ ∀ e ∈ t (hash k), key e ≠ k := by
  unfold find
  rw [List.find?_eq_none]
  simp

/-- In a list without two equal keys an element is the one its key finds. -/
theorem find?_key_of_mem : ∀ {l : List ε}, (l.map key).Nodup → e ∈ l →
    l.find? (fun x => decide (key x = key e)) = some e := by
  intro l
  induction l with
  | nil => intro _ he; cases he
  | cons a l ih =>
      intro hnd he
      rw [List.map_cons, List.nodup_cons] at hnd
      rcases List.mem_cons.mp he with rfl | htail
      · simp
      · have hne : key a ≠ key e := by
          intro h
          exact hnd.1 (h ▸ List.mem_map_of_mem htail)
        rw [List.find?_cons_of_neg (by simpa using hne)]
        exact ih hnd.2 htail

theorem Ok.find_of_mem (h : Ok key hash t) {i : β} (he : e ∈ t i) :
    find key hash t (key e) = some e := by
  have hi := h.placed i e he
  unfold find
  rw [hi]
  exact find?_key_of_mem (h.nodup i) he

/-- No two elements have one key. -/
theorem Ok.eq_of_key (h : Ok key hash t) {i j : β} {e' : ε} (he : e ∈ t i) (he' : e' ∈ t j)
    (hk : key e = key e') : e = e' := by
  have h1 := h.find_of_mem he
  have h2 := h.find_of_mem he'
  rw [hk, h2] at h1
  exact (Option.some.inj h1).symm

/-- What is found afterwards is what was found, replaced or dropped. -/
theorem Ok.find_walk {f : ε → Option ε} (h : Ok key hash t)
    (hf : ∀ e e', f e = some e' → key e' = key e) (k : κ) :
    find key hash (Chained.walk f t) k = (find key hash t k).bind f := by
  cases hfind : find key hash t k with
  | none =>
      refine find_eq_none.mpr ?_
      intro a ha hak
      obtain ⟨e, he, hea⟩ := List.mem_filterMap.mp ha
      exact find_eq_none.mp hfind e he ((hf e a hea).symm.trans hak)
  | some e =>
      have hmem := mem_of_find hfind
      have hkey := key_of_find hfind
      rw [Option.bind_some]
      cases hfe : f e with
      | some e' =>
          have hin : e' ∈ Chained.walk f t (hash k) := List.mem_filterMap.mpr ⟨e, hmem, hfe⟩
          rw [← hkey, ← hf e e' hfe]
          exact (h.walk hf).find_of_mem hin
      | none =>
          refine find_eq_none.mpr ?_
          intro a ha hak
          obtain ⟨x, hx, hxa⟩ := List.mem_filterMap.mp ha
          -- the only element with the key is the dropped one
          have hxe : x = e := h.eq_of_key hx hmem (by rw [← hf x a hxa, hak, hkey])
          rw [hxe, hfe] at hxa
          cases hxa

variable [DecidableEq β]

theorem find_link (e : ε) (k : κ) :
    find key hash (link key hash t e) k = if key e = k then some e else find key hash t k := by
  unfold find link
  by_cases hk : key e = k
  · rw [if_pos hk, ← hk, Function.update_self]
    simp
  · rw [if_neg hk]
    by_cases hh : hash k = hash (key e)
    · rw [hh, Function.update_self, List.find?_cons_of_neg (by simpa using hk)]
    · rw [Function.update_of_ne hh]

theorem Ok.link (h : Ok key hash t) (hnew : find key hash t (key e) = none) :
    Ok key hash (link key hash t e) where
  placed := by
    intro i a ha
    unfold Chained.link at ha
    by_cases hi : i = hash (key e)
    · rw [hi, Function.update_self] at ha
      rcases List.mem_cons.mp ha with rfl | htail
      · exact hi.symm
      · rw [hi]
        exact h.placed _ a htail
    · rw [Function.update_of_ne hi] at ha
      exact h.placed i a ha
  nodup := by
    intro i
    unfold Chained.link
    by_cases hi : i = hash (key e)
    · rw [hi, Function.update_self, List.map_cons, List.nodup_cons]
      refine ⟨?_, h.nodup _⟩
      intro hmem
      obtain ⟨a, ha, hak⟩ := List.mem_map.mp hmem
      exact find_eq_none.mp hnew a ha hak
    · rw [Function.update_of_ne hi]
      exact h.nodup i

end

end Chained
