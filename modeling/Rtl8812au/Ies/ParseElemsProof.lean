import Rtl8812au.Ies.ParseElems
import Rtl8812au.Ies.Lookup

/-!
# What the parser accepts and what it points at

A buffer is a list of complete elements and what is left of it, which does not begin with one. The parser
takes the elements one by one and fails at what is left, if there is any; a later element of a class
replaces an earlier one. `rtw_get_ie` on the same bytes finds the first of an identifier, so with one
element at most both say the same.
-/

namespace Rtl8812au.Ies

/-! ## What an element is for -/

/-- The class of a vendor element, by its OUI, type and subtype. -/
def vendorClass (body : List UInt8) : Option ElemField :=
  if [0x00, 0x50, 0xf2, 1] <+: body then some .wpaIe
  else if [0x00, 0x50, 0xf2, 2, 0] <+: body ∨ [0x00, 0x50, 0xf2, 2, 1] <+: body then some .wme
  else if [0x00, 0x50, 0xf2, 2, 2] <+: body then some .wmeTspec
  else if [0x00, 0x50, 0xf2, 4] <+: body then some .wpsIe
  else if [0x00, 0x90, 0x4c, 0x33] <+: body then some .vendorHtCap
  else none

/-- The field that points to elements like this one. -/
def classOf (e : Tlv) : Option ElemField :=
  if e.id = vendorIe then vendorClass e.body else fieldOfId e.id

/-- The identifier of the elements that a field points to. -/
def ElemField.eid : ElemField → UInt8
  | .ssid => 0
  | .suppRates => 1
  | .fhParams => 2
  | .dsParams => 3
  | .cfParams => 4
  | .tim => 5
  | .ibssParams => 6
  | .challenge => 16
  | .erpInfo => 42
  | .extSuppRates => 50
  | .rsnIe => 48
  | .powerCap => 33
  | .suppChannels => 36
  | .mdie => 54
  | .ftie => 55
  | .timeoutInt => 56
  | .htCapabilities => 45
  | .htOperation => 61
  | .vhtCapabilities => 191
  | .vhtOperation => 192
  | .vhtOpModeNotify => 199
  | .wpaIe | .wme | .wmeTspec | .wpsIe | .vendorHtCap => 221

theorem eid_of_fieldOfId {id : UInt8} {f : ElemField} (h : fieldOfId id = some f) : f.eid = id := by
  refine UInt8.toNat_inj.mp ?_
  unfold fieldOfId at h
  split at h
  all_goals first | (cases h; rename_i hid; rw [hid]; rfl) | cases h

theorem fieldOfId_eid {f : ElemField} (h : f.eid ≠ vendorIe) : fieldOfId f.eid = some f := by
  cases f
  all_goals first | rfl | exact absurd rfl h

theorem eid_of_vendorClass {body : List UInt8} {f : ElemField} (h : vendorClass body = some f) :
    f.eid = vendorIe := by
  unfold vendorClass at h
  repeat (split at h; · cases h; rfl)
  cases h

/-- **An element is of the class of its identifier's field**, but for vendor elements. -/
theorem classOf_iff {f : ElemField} (hf : f.eid ≠ vendorIe) {e : Tlv} :
    classOf e = some f ↔ e.id = f.eid := by
  unfold classOf
  split
  case isTrue hv =>
    constructor
    · intro h
      exact absurd (eid_of_vendorClass h) hf
    · intro h
      exact absurd (h.symm.trans hv) hf
  case isFalse =>
    constructor
    · intro h
      exact (eid_of_fieldOfId h).symm
    · intro h
      rw [h]
      exact fieldOfId_eid hf

/-! ## The vendor elements -/

section

variable {bs rest : List UInt8} {pos : Nat}

theorem fetch_of_drop {b : UInt8} (h : bs.drop pos = b :: rest) :
    fetch bs pos = .done b ∧ bs.drop (pos + 1) = rest := by
  refine ⟨?_, ?_⟩
  · rw [fetch_done, ← Nat.add_zero pos, ← List.getElem?_drop, h]
    rfl
  · rw [← List.drop_drop, h]
    rfl

/-- Three bytes make the number of three bytes only. -/
theorem be24_eq_iff {a b c x y z : UInt8} :
    a.toNat * 65536 + b.toNat * 256 + c.toNat = x.toNat * 65536 + y.toNat * 256 + z.toNat
      ↔ a = x ∧ b = y ∧ c = z := by
  have ha := a.toNat_lt
  have hb := b.toNat_lt
  have hc := c.toNat_lt
  have hx := x.toNat_lt
  have hy := y.toNat_lt
  have hz := z.toNat_lt
  rw [← UInt8.toNat_inj, ← UInt8.toNat_inj, ← UInt8.toNat_inj]
  omega

/-- An element too short for its type is of no class. -/
theorem vendorClass_short {body : List UInt8} (h : body.length < 4) : vendorClass body = none := by
  have hno : ∀ {pat : List UInt8}, 4 ≤ pat.length → ¬ pat <+: body := by
    intro pat hpat hp
    have hle := hp.length_le
    omega
  unfold vendorClass
  rw [if_neg (hno (by decide)), if_neg (not_or.mpr ⟨hno (by decide), hno (by decide)⟩),
    if_neg (hno (by decide)), if_neg (hno (by decide)), if_neg (hno (by decide))]

/-- The class of a WME element, by what is behind its type. -/
def wmeClass : List UInt8 → Option ElemField
  | [] => none
  | subtype :: _ =>
    if subtype = 0 ∨ subtype = 1 then some .wme
    else if subtype = 2 then some .wmeTspec
    else none

/-- What the class is once the four bytes are there. -/
theorem vendorClass_cons {a b c type : UInt8} {t : List UInt8} :
    vendorClass (a :: b :: c :: type :: t) =
      if a = 0x00 ∧ b = 0x50 ∧ c = 0xf2 then
        if type = 1 then some .wpaIe
        else if type = 2 then wmeClass t
        else if type = 4 then some .wpsIe
        else none
      else if a = 0x00 ∧ b = 0x90 ∧ c = 0x4c then
        if type = 0x33 then some .vendorHtCap else none
      else none := by
  unfold vendorClass
  simp only [List.cons_prefix_cons, List.nil_prefix, and_true]
  cases t with
  | nil =>
      simp only [List.prefix_nil, wmeClass]
      grind
  | cons subtype t =>
      simp only [List.cons_prefix_cons, List.nil_prefix, and_true, wmeClass]
      grind

theorem four_cons {l : List UInt8} (h : 4 ≤ l.length) :
    ∃ a b c d t, l = a :: b :: c :: d :: t := by
  match l, h with
  | a :: b :: c :: d :: t, _ => exact ⟨a, b, c, d, t, rfl⟩

/-- The subtype of a WME element that is long enough to have one. -/
theorem parseWme_eq {a b c type : UInt8} {t : List UInt8} (h : bs.drop (pos + 1 + 1 + 1 + 1) = t ++ rest) :
    parseWme bs pos (a :: b :: c :: type :: t).length = .done (wmeClass t) := by
  unfold parseWme wmeClass
  cases t with
  | nil => rfl
  | cons subtype t =>
      obtain ⟨hsub, -⟩ := fetch_of_drop h
      rw [if_neg (by simp), hsub, Outcome.done_bind]
      dsimp only
      split
      · rfl
      · split
        · rfl
        · rfl

/-- **The parser tells a vendor element's class** and reads nothing behind it. -/
theorem rtwParseVendorSpecific_eq {body : List UInt8} (h : bs.drop pos = body ++ rest) :
    rtwParseVendorSpecific bs pos body.length = .done (vendorClass body) := by
  unfold rtwParseVendorSpecific
  by_cases hshort : body.length < 4
  · rw [if_pos hshort, vendorClass_short hshort]
    rfl
  · obtain ⟨a, b, c, type, t, rfl⟩ := four_cons (Nat.not_lt.mp hshort)
    obtain ⟨ha, h1⟩ := fetch_of_drop h
    obtain ⟨hb, h2⟩ := fetch_of_drop h1
    obtain ⟨hc, h3⟩ := fetch_of_drop h2
    obtain ⟨htype, h4⟩ := fetch_of_drop h3
    have hms : a.toNat * 65536 + b.toNat * 256 + c.toNat = ouiMicrosoft
        ↔ a = 0x00 ∧ b = 0x50 ∧ c = 0xf2 := be24_eq_iff (x := 0x00) (y := 0x50) (z := 0xf2)
    have hbc : a.toNat * 65536 + b.toNat * 256 + c.toNat = ouiBroadcom
        ↔ a = 0x00 ∧ b = 0x90 ∧ c = 0x4c := be24_eq_iff (x := 0x00) (y := 0x90) (z := 0x4c)
    have hget : getBe24 bs pos = .done (a.toNat * 65536 + b.toNat * 256 + c.toNat) := by
      unfold getBe24
      rw [ha, Outcome.done_bind, hb, Outcome.done_bind, hc]
      rfl
    rw [if_neg hshort, vendorClass_cons, hget, Outcome.done_bind]
    simp only [hms, hbc]
    by_cases hm : a = 0x00 ∧ b = 0x50 ∧ c = 0xf2
    · rw [if_pos hm, if_pos hm]
      unfold parseMicrosoft
      rw [htype, Outcome.done_bind, parseWme_eq h4]
      simp only [Outcome.pure_eq_done, apply_ite Outcome.done]
    · rw [if_neg hm, if_neg hm]
      by_cases hb : a = 0x00 ∧ b = 0x90 ∧ c = 0x4c
      · rw [if_pos hb, if_pos hb]
        unfold parseBroadcom
        rw [htype, Outcome.done_bind, apply_ite Outcome.done]
        rfl
      · rw [if_neg hb, if_neg hb]
        rfl

/-- The field that an element sets is its class. -/
theorem parseField_eq {e : Tlv} (h : bs.drop pos = e.body ++ rest) :
    parseField bs e.id pos e.body.length = .done (classOf e) := by
  unfold parseField classOf
  split
  · exact rtwParseVendorSpecific_eq h
  · rfl

end

/-! ## What is left of a buffer -/

/-- It does not begin with a complete element. -/
inductive Cut : List UInt8 → Prop where
  | short {bs : List UInt8} (h : bs.length < 2) : Cut bs
  | body {id l : UInt8} {rest : List UInt8} (h : rest.length < l.toNat) : Cut (id :: l :: rest)

/-- **Every buffer is complete elements and a rest that is cut off.** -/
theorem exists_elements : ∀ (n : Nat) (bs : List UInt8), bs.length = n →
    ∃ es rest, bs = Tlv.encode es ++ rest ∧ Cut rest := by
  intro n
  induction n using Nat.strongRecOn with
  | _ n ih =>
      intro bs hn
      match bs, hn with
      | [], _ => exact ⟨[], [], rfl, .short (by decide)⟩
      | [b], _ => exact ⟨[], [b], rfl, .short (Nat.lt_succ_self 1)⟩
      | id :: l :: tail, hn =>
          by_cases hcut : tail.length < l.toNat
          · exact ⟨[], id :: l :: tail, rfl, .body hcut⟩
          · -- the first element is complete
            have hid : (id :: l :: tail)[0]? = some id := rfl
            have hl : (id :: l :: tail)[0 + 1]? = some l := rfl
            obtain ⟨e, -, -, -, hdrop⟩ := drop_element hid hl
              (by simp only [List.length_cons]; omega)
            have hsplit : id :: l :: tail = e.bytes ++ (id :: l :: tail).drop (0 + (l.toNat + 2)) := hdrop
            have hshorter : ((id :: l :: tail).drop (0 + (l.toNat + 2))).length < n := by
              rw [List.length_drop, ← hn]
              simp only [List.length_cons]
              omega
            obtain ⟨es, rest, hes, hrest⟩ := ih _ hshorter _ rfl
            refine ⟨e :: es, rest, ?_, hrest⟩
            rw [Tlv.encode_cons, List.append_assoc, ← hes]
            exact hsplit

/-- A rest that is cut off is not elements. -/
theorem cut_not_elements {es ys : List Tlv} {rest : List UInt8} (hcut : Cut rest)
    (h : Tlv.encode ys = Tlv.encode es ++ rest) : rest = [] := by
  obtain ⟨zs, -, hz⟩ := Tlv.encode_eq_append h
  cases zs with
  | nil => exact hz.symm
  | cons z zs =>
      exfalso
      rw [Tlv.encode_cons] at hz
      have hlen := congrArg List.length hz
      rw [List.length_append, Tlv.length_bytes, Tlv.size] at hlen
      cases hcut with
      | short hs => omega
      | body hb =>
          have hl := (List.cons.inj (List.cons.inj hz).2).1
          rw [← hl, Tlv.toNat_length] at hb
          simp only [List.length_cons] at hlen
          omega

/-! ## The run -/

/-- The last element of a class from `c` on: the offset of its body, and its length. -/
def lastOf (f : ElemField) : Nat → List Tlv → Option (Nat × Nat)
  | _, [] => none
  | c, e :: es =>
    match lastOf f (c + e.size) es with
    | some r => some r
    | none => if classOf e = some f then some (c + 2, e.body.length) else none

/-- The elements that set no field. -/
def unknownIn (es : List Tlv) : Nat := es.countP fun e => decide (classOf e = none)

/-- The fields once the elements from `c` on are taken. -/
def elemsAfter (c : Nat) (es : List Tlv) (elems : Elems) : Elems := fun f =>
  match lastOf f c es with
  | some r => some r
  | none => elems f

/-- The result once they are taken, with `rest` behind them. -/
def resAfter (unknown : Nat) (rest : List UInt8) : ParseRes :=
  if rest ≠ [] then .failed else if unknown ≠ 0 then .unknown else .ok

theorem elemsAfter_cons {c : Nat} {e : Tlv} {es : List Tlv} {elems : Elems} {left unknown : Nat} :
    elemsAfter (c + e.size) es
        (ParseState.take ⟨c, left, elems, unknown⟩ (classOf e) e.body.length).elems
      = elemsAfter c (e :: es) elems := by
  funext f
  unfold elemsAfter
  rw [lastOf]
  cases lastOf f (c + e.size) es with
  | some r => rfl
  | none =>
      dsimp only [ParseState.take]
      cases hc : classOf e with
      | none => rw [if_neg nofun]
      | some g =>
          by_cases hg : g = f
          · subst hg
            rw [if_pos rfl]
            exact Function.update_self _ _ _
          · rw [if_neg (fun h => hg (Option.some.inj h))]
            exact Function.update_of_ne (fun h => hg h.symm) _ _

section

variable {bs : List UInt8}

theorem take_eq {c k unknown : Nat} {e : Tlv} {es : List Tlv} {elems : Elems} :
    ParseState.take ⟨c, Tlv.total (e :: es) + k, elems, unknown⟩ (classOf e) e.body.length
      = ⟨c + e.size, Tlv.total es + k,
        (ParseState.take ⟨c, Tlv.total (e :: es) + k, elems, unknown⟩ (classOf e) e.body.length).elems,
        unknown + if classOf e = none then 1 else 0⟩ := by
  have hsize : e.size = e.body.length + 2 := rfl
  have hpos : c + 2 + e.body.length = c + e.size := by omega
  have hleft : Tlv.total (e :: es) + k - 2 - e.body.length = Tlv.total es + k := by
    rw [Tlv.total_cons]
    omega
  cases hc : classOf e with
  | none =>
      unfold ParseState.take
      dsimp only
      rw [hpos, hleft, if_pos rfl]
  | some f =>
      unfold ParseState.take
      dsimp only
      rw [hpos, hleft, if_neg nofun]
      rfl

theorem unknownIn_cons (e : Tlv) (es : List Tlv) :
    unknownIn (e :: es) = (if classOf e = none then 1 else 0) + unknownIn es := by
  unfold unknownIn
  rw [List.countP_cons, Nat.add_comm]
  congr 1
  by_cases hc : classOf e = none
  · rw [if_pos hc, if_pos (decide_eq_true hc)]
  · rw [if_neg hc, if_neg (by simpa using hc)]

/-- What is left of the buffer stops the parser. -/
theorem parse_rest {c : Nat} {rest : List UInt8} {elems : Elems} {unknown : Nat}
    {r : ParseRes × Elems} (hdrop : bs.drop c = rest) (hcut : Cut rest) :
    Loop.Ends (parseTurn bs) ⟨c, rest.length, elems, unknown⟩ r
      ↔ r = (resAfter unknown rest, elems) := by
  refine Loop.ends_stop ?_
  unfold parseTurn resAfter
  cases hcut with
  | short hs =>
      rw [if_pos hs]
      by_cases hnil : rest = []
      · subst hnil
        rfl
      · rw [if_pos hnil, if_pos (fun h => hnil (List.length_eq_zero_iff.mp h))]
        rfl
  | @body id l tail hb =>
      obtain ⟨hid, h1⟩ := fetch_of_drop hdrop
      obtain ⟨hl, -⟩ := fetch_of_drop h1
      dsimp only
      rw [if_neg (by simp), hid, Outcome.done_bind, hl, Outcome.done_bind, if_pos (by simpa using hb)]
      rfl

/-- **The parser takes the elements one by one** and ends at what is left. -/
theorem parse_run {es : List Tlv} {rest : List UInt8} (hcut : Cut rest) :
    ∀ {c : Nat} {elems : Elems} {unknown : Nat} {r : ParseRes × Elems},
    bs.drop c = Tlv.encode es ++ rest →
    (Loop.Ends (parseTurn bs) ⟨c, Tlv.total es + rest.length, elems, unknown⟩ r
      ↔ r = (resAfter (unknown + unknownIn es) rest, elemsAfter c es elems)) := by
  induction es with
  | nil =>
      intro c elems unknown r hdrop
      rw [Tlv.total_nil, Nat.zero_add]
      exact parse_rest hdrop hcut
  | cons e es ih =>
      intro c elems unknown r hdrop
      rw [Tlv.encode_cons, List.append_assoc] at hdrop
      obtain ⟨hid, hl, hbody, hrest, -⟩ := get_of_drop hdrop
      have hsize : e.size = e.body.length + 2 := rfl
      have hturn : parseTurn bs ⟨c, Tlv.total (e :: es) + rest.length, elems, unknown⟩
          = .done (.next (ParseState.take ⟨c, Tlv.total (e :: es) + rest.length, elems, unknown⟩
            (classOf e) e.body.length)) := by
        unfold parseTurn
        dsimp only
        rw [Tlv.total_cons, if_neg (by omega), fetch_done.mpr hid, Outcome.done_bind, fetch_done.mpr hl,
          Outcome.done_bind, Tlv.toNat_length, if_neg (by omega), parseField_eq hbody]
        rfl
      have hnext : bs.drop (c + e.size) = Tlv.encode es ++ rest := hrest
      rw [Loop.ends_next hturn, take_eq, ih hnext, elemsAfter_cons, unknownIn_cons, Nat.add_assoc]

/-- **The parser on a whole buffer.** -/
theorem parse_iff {es : List Tlv} {rest : List UInt8} (hbs : bs = Tlv.encode es ++ rest)
    (hcut : Cut rest) {res : ParseRes} {elems : Elems} :
    RtwParseElems bs res elems
      ↔ res = resAfter (unknownIn es) rest ∧ elems = fun f => lastOf f 0 es := by
  have hlen : bs.length = Tlv.total es + rest.length := by
    rw [hbs, List.length_append, Tlv.length_encode]
  have hafter : elemsAfter 0 es (fun _ => none) = fun f => lastOf f 0 es := by
    funext f
    unfold elemsAfter
    cases lastOf f 0 es with
    | some r => rfl
    | none => rfl
  have hdrop : bs.drop 0 = Tlv.encode es ++ rest := hbs
  unfold RtwParseElems
  rw [hlen, parse_run hcut hdrop, hafter, Nat.zero_add, Prod.mk.injEq]

/-! ## The last of a class -/

theorem lastOf_eq_none {f : ElemField} {es : List Tlv} :
    ∀ {c : Nat}, lastOf f c es = none ↔ ∀ e ∈ es, classOf e ≠ some f := by
  induction es with
  | nil => intro c; simp [lastOf]
  | cons e es ih =>
      intro c
      rw [lastOf]
      cases hrest : lastOf f (c + e.size) es with
      | some r =>
          have hno := mt ih.mpr (by rw [hrest]; exact nofun)
          exact ⟨nofun, fun h => absurd (fun x hx => h x (List.mem_cons_of_mem _ hx)) hno⟩
      | none =>
          have hno := ih.mp hrest
          dsimp only
          by_cases hc : classOf e = some f
          · rw [if_pos hc]
            exact ⟨nofun, fun h => absurd hc (h e (List.mem_cons_self ..))⟩
          · rw [if_neg hc]
            simpa [hc] using hno

/-- What a field points to. -/
theorem lastOf_eq_some {f : ElemField} {es : List Tlv} {pos len : Nat} :
    ∀ {c : Nat}, lastOf f c es = some (pos, len) → ∃ xs e ys, es = xs ++ e :: ys ∧ classOf e = some f
      ∧ (∀ y ∈ ys, classOf y ≠ some f) ∧ pos = c + Tlv.total xs + 2 ∧ len = e.body.length := by
  induction es with
  | nil => intro c h; cases h
  | cons e es ih =>
      intro c h
      rw [lastOf] at h
      cases hrest : lastOf f (c + e.size) es with
      | some r =>
          rw [hrest] at h
          cases h
          obtain ⟨xs, x, ys, rfl, hx, hys, rfl, rfl⟩ := ih hrest
          refine ⟨e :: xs, x, ys, rfl, hx, hys, ?_, rfl⟩
          rw [Tlv.total_cons, Nat.add_assoc c]
      | none =>
          rw [hrest] at h
          dsimp only at h
          split at h
          case isTrue hc =>
            cases h
            exact ⟨[], e, es, rfl, hc, lastOf_eq_none.mp hrest, rfl, rfl⟩
          case isFalse => cases h

end

/-! ## Both walkers -/

/-- The field points at the body, inside the buffer, of the last element of its class, or is not set and
there is none. For all but vendor elements the class is the identifier. -/
def PointsAtLast (es : List Tlv) (f : ElemField) (v : Option (Nat × Nat)) : Prop :=
  (∀ pos len, v = some (pos, len) → pos + len ≤ Tlv.total es ∧ ∃ xs e ys, es = xs ++ e :: ys
      ∧ classOf e = some f ∧ (∀ y ∈ ys, classOf y ≠ some f) ∧ pos = Tlv.total xs + 2
      ∧ len = e.body.length)
    ∧ (v = none → ∀ e ∈ es, classOf e ≠ some f)

/-- With one element of the identifier at most, the field is set exactly when `rtw_get_ie` finds it, and
to what it finds. -/
def AgreesWithGetIe (es : List Tlv) (f : ElemField) (v : Option (Nat × Nat)) : Prop :=
  f.eid ≠ vendorIe → es.countP (fun e => decide (e.id = f.eid)) ≤ 1 →
    ∀ r, RtwGetIe (Tlv.encode es) 0 f.eid (Tlv.total es : Nat) r ↔ v = r.map fun q => (q.1 + 2, q.2)

theorem pointsAtLast_lastOf (es : List Tlv) (f : ElemField) : PointsAtLast es f (lastOf f 0 es) := by
  refine ⟨fun pos len h => ?_, fun h => lastOf_eq_none.mp h⟩
  obtain ⟨xs, e, ys, rfl, he, hys, rfl, rfl⟩ := lastOf_eq_some h
  rw [Nat.zero_add]
  refine ⟨?_, xs, e, ys, rfl, he, hys, rfl, rfl⟩
  rw [Tlv.total_append, Tlv.total_cons, Tlv.size]
  omega

theorem agrees_lastOf {es : List Tlv} (hbig : Tlv.total es < 2 ^ 31) (f : ElemField) :
    AgreesWithGetIe es f (lastOf f 0 es) := by
  intro hf hone r
  rw [rtwGetIe_elements hbig]
  cases hlast : lastOf f 0 es with
  | none =>
      have hno : firstIe f.eid 0 es = none :=
        firstIe_eq_none.mpr fun e he hid => lastOf_eq_none.mp hlast e he ((classOf_iff hf).mpr hid)
      rw [hno]
      cases r with
      | none => exact ⟨fun _ => rfl, fun _ => rfl⟩
      | some q => exact ⟨nofun, nofun⟩
  | some v =>
      have hv : lastOf f 0 es = some (v.1, v.2) := hlast
      obtain ⟨xs, e, ys, rfl, he, -, hpos, hlen⟩ := lastOf_eq_some hv
      have hid := (classOf_iff hf).mp he
      -- the only one is the first one
      rw [List.countP_append, List.countP_cons_of_pos (by simpa using hid)] at hone
      have hxs : ∀ x ∈ xs, x.id ≠ f.eid := by
        intro x hx hxid
        have hcount : 0 < xs.countP fun e => decide (e.id = f.eid) :=
          List.countP_pos_iff.mpr ⟨x, hx, decide_eq_true hxid⟩
        omega
      have hfirst : firstIe f.eid 0 (xs ++ e :: ys) = some (Tlv.total xs, e.body.length) :=
        firstIe_eq_some.mpr ⟨xs, e, ys, rfl, hid, hxs, (Nat.zero_add _).symm, rfl⟩
      have hval : v = (Tlv.total xs + 2, e.body.length) := by
        rw [Nat.zero_add] at hpos
        exact Prod.ext hpos hlen
      rw [hfirst, hval]
      constructor
      · rintro rfl
        rfl
      · intro h
        cases r with
        | none => cases h
        | some q =>
            have hq := Option.some.inj h
            have h1 := congrArg Prod.fst hq
            have h2 := congrArg Prod.snd hq
            dsimp only at h1 h2
            exact congrArg some (Prod.ext (by dsimp only; omega) h2.symm)

/-- **The parser accepts exactly complete elements**; then every field points at the last element of its
class, and where an identifier occurs once at most `rtw_get_ie`, whose limit is an `sint`, finds the
same. -/
theorem parse_elems_agrees (bs : List UInt8) :
    ∃ res elems, (∀ res' elems', RtwParseElems bs res' elems' ↔ res' = res ∧ elems' = elems)
      ∧ (res = .failed ↔ ¬ ∃ es, bs = Tlv.encode es)
      ∧ ∀ es, bs = Tlv.encode es → ∀ f, PointsAtLast es f (elems f)
        ∧ (bs.length < 2 ^ 31 → AgreesWithGetIe es f (elems f)) := by
  obtain ⟨es, rest, hbs, hcut⟩ := exists_elements bs.length bs rfl
  refine ⟨resAfter (unknownIn es) rest, fun f => lastOf f 0 es, fun res' elems' => parse_iff hbs hcut,
    ?_, fun es' hes' f => ?_⟩
  · unfold resAfter
    by_cases hrest : rest = []
    · -- all of the buffer is elements
      have hall : ∃ es, bs = Tlv.encode es := ⟨es, by rw [hbs, hrest, List.append_nil]⟩
      rw [if_neg (fun h => h hrest)]
      constructor
      · intro h
        split at h
        · cases h
        · cases h
      · intro h
        exact absurd hall h
    · rw [if_pos hrest]
      refine ⟨fun _ ⟨es', hes'⟩ => hrest ?_, fun _ => rfl⟩
      exact cut_not_elements hcut (hes'.symm.trans hbs)
  · have hnil := cut_not_elements hcut (hes'.symm.trans hbs)
    rw [hnil, List.append_nil, hes'] at hbs
    have hsame := Tlv.encode_injective hbs
    subst hsame
    refine ⟨pointsAtLast_lastOf es' f, fun hbig => ?_⟩
    rw [hes', Tlv.length_encode] at hbig
    exact agrees_lastOf hbig f

/-- Of two SSID elements the parser points at the second. -/
example : lastOf .ssid 0 [⟨0, [0x61], by decide⟩, ⟨0, [], by decide⟩] = some (5, 0) := by decide

end Rtl8812au.Ies
