import Mathlib.Algebra.Ring.Int.Defs
import Mathlib.Algebra.Ring.Nat
import Mathlib.Data.List.Basic
import Mathlib.Tactic.Common

/-!
# Type-length-value lists

An element is a one-byte type, a one-byte length and that many bytes of body. A list of
them is written one behind the other with nothing in between, so a reader walks it from
the front; the lengths alone decide where each element starts, and a byte string is the
encoding of at most one list.
-/

/-- One element. The body's length is a byte. -/
@[ext] structure Tlv where
  id : UInt8
  body : List UInt8
  short : body.length < 256

namespace Tlv

theorem empty_short : ([] : List UInt8).length < 256 := by decide

/-- What an element takes up. -/
def size (e : Tlv) : Nat := e.body.length + 2

/-- The element as it is written. -/
def bytes (e : Tlv) : List UInt8 := e.id :: UInt8.ofNat e.body.length :: e.body

/-- A list of elements, one behind the other. -/
def encode (es : List Tlv) : List UInt8 := es.flatMap bytes

/-- What a list of elements takes up. -/
def total (es : List Tlv) : Nat := (es.map size).sum

@[simp] theorem length_bytes (e : Tlv) : e.bytes.length = e.size := rfl

@[simp] theorem encode_nil : encode [] = [] := rfl

@[simp] theorem encode_cons (e : Tlv) (es : List Tlv) :
    encode (e :: es) = e.bytes ++ encode es := rfl

@[simp] theorem encode_append (xs ys : List Tlv) :
    encode (xs ++ ys) = encode xs ++ encode ys := List.flatMap_append

@[simp] theorem total_nil : total [] = 0 := rfl

@[simp] theorem total_cons (e : Tlv) (es : List Tlv) : total (e :: es) = e.size + total es := rfl

@[simp] theorem total_append (xs ys : List Tlv) : total (xs ++ ys) = total xs + total ys := by
  simp [total]

@[simp] theorem length_encode (es : List Tlv) : (encode es).length = total es := by
  induction es with
  | nil => rfl
  | cons e es ih => rw [encode_cons, List.length_append, length_bytes, total_cons, ih]

/-- The length byte says how long the body is. -/
theorem toNat_length (e : Tlv) : (UInt8.ofNat e.body.length).toNat = e.body.length := by
  rw [UInt8.toNat_ofNat']
  exact Nat.mod_eq_of_lt e.short

theorem two_le_size (e : Tlv) : 2 ≤ e.size := Nat.le_add_left 2 _

theorem size_le (e : Tlv) : e.size ≤ 257 := Nat.add_le_add_right (Nat.le_of_lt_succ e.short) 2

/-- The splits of a list at an element are the one at its head and those of its tail. -/
theorem forall_split_cons {P : List Tlv → Tlv → List Tlv → Prop} {e : Tlv} {es : List Tlv} :
    (∀ xs x ys, e :: es = xs ++ x :: ys → P xs x ys) ↔
      P [] e es ∧ ∀ xs x ys, es = xs ++ x :: ys → P (e :: xs) x ys := by
  constructor
  · intro h
    exact ⟨h [] e es rfl, fun xs x ys hs => h (e :: xs) x ys (by rw [hs]; rfl)⟩
  · rintro ⟨hhead, htail⟩ xs x ys hs
    cases xs with
    | nil =>
        cases hs
        exact hhead
    | cons y xs =>
        obtain ⟨rfl, hrest⟩ := List.cons.inj hs
        exact htail xs x ys hrest

/-- The first element of a byte string and what follows it are decided by the bytes. -/
theorem bytes_append_inj {e e' : Tlv} {r r' : List UInt8} (h : e.bytes ++ r = e'.bytes ++ r') :
    e = e' ∧ r = r' := by
  have hid : e.id = e'.id := (List.cons.inj h).1
  have hrest := (List.cons.inj h).2
  have hlen : e.body.length = e'.body.length := by
    rw [← toNat_length e, ← toNat_length e', (List.cons.inj hrest).1]
  have hbody := List.append_inj (List.cons.inj hrest).2 hlen
  exact ⟨Tlv.ext hid hbody.1, hbody.2⟩

/-- **A byte string encodes at most one list of elements.** -/
theorem encode_injective : ∀ {xs ys : List Tlv}, encode xs = encode ys → xs = ys
  | [], [], _ => rfl
  | [], _ :: _, h => by cases h
  | _ :: _, [], h => by cases h
  | _ :: _, _ :: _, h => by
      obtain ⟨rfl, hrest⟩ := bytes_append_inj h
      exact congrArg _ (encode_injective hrest)

/-- What starts with the encoding of a list is the encoding of a list that starts so. -/
theorem encode_eq_append : ∀ {xs es : List Tlv} {r : List UInt8}, encode es = encode xs ++ r →
    ∃ ys, es = xs ++ ys ∧ encode ys = r
  | [], es, _, h => ⟨es, rfl, h⟩
  | _ :: _, [], _, h => by cases h
  | x :: xs, e :: es, r, h => by
      rw [encode_cons, encode_cons, List.append_assoc] at h
      obtain ⟨rfl, hrest⟩ := bytes_append_inj h
      obtain ⟨ys, rfl, hys⟩ := encode_eq_append hrest
      exact ⟨ys, rfl, hys⟩

end Tlv
