import Rtl8812au.Cmd.Queue

/-!
# Every command object is accounted for

An object is with a caller, in the queue or in the hand of the thread until it is freed, and its
buffer until the command has run or been dropped. So much holds in a run without the six slips: a
command longer than `MAX_CMDSZ`, a refused command with a buffer, a dropped disassociation, a waiter
left in the queue at the end, a caller that comes between the last look at the queue and the end
of `cmdthd_running`, and a `_Set_Drv_Extra` that is shorter than its parameters, whose handler reads
those of the command before.
-/

namespace Rtl8812au.Cmd

/-! ## The accounts -/

/-- The object is freed once, and its buffer too. -/
def FreedOnce (log : List Note) (o : CmdObj) : Prop :=
  log.count (.freed o.id) = 1 ∧ ∀ p, o.buf = some p → log.count (.freedBuf p) = 1

/-- Wherever `b` stands in the log, `a` stands before. -/
def Before (a b : Note) (log : List Note) : Prop :=
  ∀ n : Nat, log[n]? = some b → ∃ m, m < n ∧ log[m]? = some a

/-- The objects in the order in which they came into the queue. -/
def queuedIds (log : List Note) : List Nat :=
  log.filterMap fun
    | .queued i => some i
    | _ => none

/-- The objects in the order in which their handlers ran. -/
def ranIds (log : List Note) : List Nat :=
  log.filterMap fun
    | .ran i => some i
    | _ => none

/-- No command runs twice or out of order, and every object that was refused or has come to its end is freed,
a waiter's after its signal. -/
structure Accounted (s : CmdSys) : Prop where
  once : ∀ i, s.log.count (.ran i) ≤ 1
  order : (ranIds s.log).Sublist (queuedIds s.log)
  refused : ∀ o ∈ s.failed, FreedOnce s.log o
  freed : ∀ b, s.pc = .done → b ∈ s.succeeded →
    FreedOnce s.log b ∧ (b.sctx = true → Before (.signalled b.id) (.freed b.id) s.log)

/-- A new object has an allocation of its own, and so has its buffer. -/
def Fresh (s : CmdSys) : CmdEvent → Prop
  | .enqueue o => ∀ o' ∈ s.callers ++ s.raisers ++ s.succeeded ++ s.failed,
      o'.id ≠ o.id ∧ (o.buf = none ∨ o'.buf ≠ o.buf)
  | _ => True

/-- The thread has looked at the queue for the last time and `cmdthd_running` is still set. -/
def Pc.closing : Pc → Bool
  | .raise => true
  | .leave => true
  | _ => false

/-- A caller brings nothing that gets lost: a refused object has no buffer; one that gets in is not too
long, nor shorter than the parameters that its handler reads, nor too late. -/
def EnqueueFine (s : CmdSys) (o : CmdObj) : Prop :=
  if cmdFilter s o then
    o.cmdsz ≤ maxCmdsz ∧ (o.cmdcode = setDrvExtra → extraParmSz ≤ rnd4 o.cmdsz) ∧ s.pc.closing = false
  else o.buf = none

/-- The end of the thread finds no waiter in the queue and no caller on the way to it. -/
def DrainFine (callers : List CmdObj) : List CmdObj → Prop
  | [] => callers = []
  | o :: _ => o.sctx = false

/-- The thread drops no disassociation, and comes to an end in this way. -/
def ThreadFine (s : CmdSys) : Pc → Prop
  | .run o => o.cmdcode = disConnect → cmdFilter s o = true
  | .drain => DrainFine s.callers s.queue
  | _ => True

/-- The step is none of the slips. -/
def Fine (s : CmdSys) : CmdEvent → Prop
  | .enqueue o => EnqueueFine s o
  | .thread _ _ => ThreadFine s s.pc
  | _ => True

/-! ## The invariant -/

/-- The object in the hand of the thread. -/
def Pc.hand : Pc → List CmdObj
  | .run o => [o]
  | .post o _ => [o]
  | .back o _ => [o]
  | _ => []

/-- The object that the thread is about to run. -/
def Pc.toRun : Pc → List CmdObj
  | .run o => [o]
  | _ => []

/-- The thread has looked at the queue for the last time. -/
def Pc.over : Pc → Bool
  | .raise => true
  | .leave => true
  | .done => true
  | _ => false

/-- The objects of an id. -/
def cnt (l : List CmdObj) (i : Nat) : Nat := l.countP fun o => o.id = i

/-- The objects with a buffer. -/
def bufCnt (l : List CmdObj) (p : Nat) : Nat := l.countP fun o => o.buf = some p

structure CmdInv (s : CmdSys) : Prop where
  ids : ∀ i, cnt s.callers i + cnt s.raisers i + cnt s.succeeded i + cnt s.failed i ≤ 1
  bufs : ∀ p, bufCnt s.callers p + bufCnt s.raisers p + bufCnt s.succeeded p + bufCnt s.failed p ≤ 1
  objects : ∀ i, cnt s.queue i + cnt s.pc.hand i + s.log.count (.freed i)
    = cnt s.raisers i + cnt s.succeeded i + cnt s.failed i
  buffers : ∀ p, bufCnt s.queue p + bufCnt s.pc.toRun p + s.log.count (.freedBuf p)
    = bufCnt s.raisers p + bufCnt s.succeeded p + bufCnt s.failed p
  runs : ∀ i, cnt s.queue i + cnt s.pc.toRun i + s.log.count (.ran i)
    ≤ cnt s.raisers i + cnt s.succeeded i
  members : ∀ o ∈ s.queue ++ s.pc.hand, o ∈ s.raisers ++ s.succeeded
  sizes : ∀ o ∈ s.callers ++ s.queue ++ s.pc.toRun,
    o.cmdsz ≤ maxCmdsz ∧ (o.cmdcode = setDrvExtra → extraParmSz ≤ rnd4 o.cmdsz)
  order : ∃ out, queuedIds s.log = out ++ (s.pc.toRun ++ s.queue).map CmdObj.id
    ∧ (ranIds s.log).Sublist out
  signals : ∀ o ∈ s.raisers ++ s.succeeded, o.sctx = true →
    Before (.signalled o.id) (.freed o.id) s.log
  handed : ∀ o res, s.pc = .back o res →
    (o.sctx = true → .signalled o.id ∈ s.log) ∧ (o.cmdcode = disConnect → res = h2cSuccess)
  posted : ∀ o res, s.pc = .post o res → o.cmdcode = disConnect → res = h2cSuccess
  atEnd : s.pc.over = true → s.queue = [] ∧ s.callers = []
  stopped : s.pc = .done → s.running = false

/-! ## Counting -/

@[simp] theorem cnt_nil (i : Nat) : cnt [] i = 0 := rfl

@[simp] theorem bufCnt_nil (p : Nat) : bufCnt [] p = 0 := rfl

@[simp] theorem cnt_append (l l' : List CmdObj) (i : Nat) : cnt (l ++ l') i = cnt l i + cnt l' i :=
  List.countP_append

@[simp] theorem bufCnt_append (l l' : List CmdObj) (p : Nat) :
    bufCnt (l ++ l') p = bufCnt l p + bufCnt l' p := List.countP_append

theorem cnt_cons (o : CmdObj) (l : List CmdObj) (i : Nat) : cnt (o :: l) i = cnt [o] i + cnt l i :=
  cnt_append [o] l i

theorem bufCnt_cons (o : CmdObj) (l : List CmdObj) (p : Nat) :
    bufCnt (o :: l) p = bufCnt [o] p + bufCnt l p := bufCnt_append [o] l p

theorem cnt_pos {l : List CmdObj} {o : CmdObj} (h : o ∈ l) : 0 < cnt l o.id :=
  List.countP_pos_iff.mpr ⟨o, h, decide_eq_true rfl⟩

theorem bufCnt_pos {l : List CmdObj} {o : CmdObj} {p : Nat} (h : o ∈ l) (hp : o.buf = some p) :
    0 < bufCnt l p :=
  List.countP_pos_iff.mpr ⟨o, h, decide_eq_true hp⟩

/-- Taking the only object of an id out of a list. -/
theorem countP_take {l : List CmdObj} {o : CmdObj} {id : Nat} (P : CmdObj → Bool)
    (hf : l.find? (fun o => o.id = id) = some o) (hone : cnt l id ≤ 1) :
    l.countP P = (l.filter fun o => o.id ≠ id).countP P + [o].countP P := by
  induction l with
  | nil => cases hf
  | cons a l ih =>
      by_cases ha : a.id = id
      · have hao : a = o := by simpa [ha] using hf
        have hrest : l.filter (fun o => o.id ≠ id) = l := by
          refine List.filter_eq_self.mpr fun b hb => ?_
          have hpos : 0 < cnt [a] id := by simp [cnt, ha]
          rw [cnt_cons] at hone
          have hzero : cnt l id = 0 := by omega
          have hbid : b.id ≠ id := by
            intro hbid
            have hb' := cnt_pos hb
            rw [hbid] at hb'
            omega
          simpa using hbid
        subst hao
        rw [List.filter_cons_of_neg (by simpa using ha), hrest, List.countP_cons]
        simp [List.countP_cons]
      · rw [cnt_cons] at hone
        have hf' : l.find? (fun o => o.id = id) = some o := by simpa [ha] using hf
        have hih := ih hf' (by omega)
        rw [List.filter_cons_of_pos (by simpa using ha), List.countP_cons, List.countP_cons, hih]
        omega

/-- Two objects of one id are the same one. -/
theorem eq_of_id {l : List CmdObj} (hone : ∀ i, cnt l i ≤ 1) {o o' : CmdObj} (ho : o ∈ l)
    (ho' : o' ∈ l) (hid : o.id = o'.id) : o = o' := by
  induction l with
  | nil => cases ho
  | cons a l ih =>
      have hsplit : ∀ i, cnt [a] i + cnt l i ≤ 1 := by
        intro i
        rw [← cnt_cons]
        exact hone i
      have hself : cnt [a] a.id = 1 := by simp [cnt]
      rcases List.mem_cons.mp ho with rfl | hl
      · rcases List.mem_cons.mp ho' with rfl | hl'
        · rfl
        · have hpos := cnt_pos hl'
          rw [← hid] at hpos
          have := hsplit o.id
          omega
      · rcases List.mem_cons.mp ho' with rfl | hl'
        · have hpos := cnt_pos hl
          rw [hid] at hpos
          have := hsplit o'.id
          omega
        · exact ih (fun i => Nat.le_trans (Nat.le_add_left _ _) (hsplit i)) hl hl'

/-! ## Logs -/

theorem Before.append {a b : Note} {log ns : List Note} (h : Before a b log)
    (hb : b ∉ ns ∨ a ∈ log) : Before a b (log ++ ns) := by
  intro n hn
  by_cases hlt : n < log.length
  · rw [List.getElem?_append_left hlt] at hn
    obtain ⟨m, hm, ha⟩ := h n hn
    exact ⟨m, hm, by rw [List.getElem?_append_left (by omega)]; exact ha⟩
  · rw [List.getElem?_append_right (by omega)] at hn
    rcases hb with hb | ha
    · exact absurd (List.mem_of_getElem? hn) hb
    · obtain ⟨m, hm⟩ := List.getElem?_of_mem ha
      have hml : m < log.length := (List.getElem?_eq_some_iff.mp hm).1
      exact ⟨m, by omega, by rw [List.getElem?_append_left hml]; exact hm⟩

@[simp] theorem queuedIds_append (l l' : List Note) :
    queuedIds (l ++ l') = queuedIds l ++ queuedIds l' := List.filterMap_append

@[simp] theorem ranIds_append (l l' : List Note) : ranIds (l ++ l') = ranIds l ++ ranIds l' :=
  List.filterMap_append

@[simp] theorem queuedIds_freeBuf (b : Option Nat) : queuedIds (freeBuf b) = [] := by
  cases b <;> rfl

@[simp] theorem ranIds_freeBuf (b : Option Nat) : ranIds (freeBuf b) = [] := by
  cases b <;> rfl

@[simp] theorem count_freed_freeBuf (b : Option Nat) (i : Nat) : (freeBuf b).count (.freed i) = 0 := by
  cases b <;> simp [freeBuf]

@[simp] theorem count_ran_freeBuf (b : Option Nat) (i : Nat) : (freeBuf b).count (.ran i) = 0 := by
  cases b <;> simp [freeBuf]

/-- Freeing the buffer of an object is what counts for its buffer. -/
theorem count_freedBuf_freeBuf (o : CmdObj) (p : Nat) :
    (freeBuf o.buf).count (.freedBuf p) = bufCnt [o] p := by
  unfold bufCnt
  cases hb : o.buf with
  | none => simp [freeBuf, hb]
  | some q =>
      by_cases hq : q = p
      · simp [freeBuf, hb, hq]
      · simp [freeBuf, hb, hq]

/-- The handler of a `_Set_Drv_Extra` that has been copied as a whole finds its own buffer. -/
theorem extraBuf_copy {m parm : Mem} {n : Nat} (hn : extraParmSz ≤ n) :
    extraBuf (m.copy 0 parm 0 n) = extraBuf parm := by
  have hbyte : ∀ k, k < 24 → m.copy 0 parm 0 n k = parm k := by
    intro k hk
    rw [Mem.copy_apply, if_pos ⟨Nat.zero_le k, by simp only [extraParmSz] at hn; omega⟩]
    simp
  unfold extraBuf le64 le32 Mem.le16
  simp only [hbyte 8, hbyte 9, hbyte 10, hbyte 11, hbyte 16, hbyte 17, hbyte 18, hbyte 19, hbyte 20,
    hbyte 21, hbyte 22, hbyte 23, Nat.reduceAdd, Nat.reduceLT]

theorem cnt_eq_zero {l : List CmdObj} {i : Nat} (h : ∀ o ∈ l, o.id ≠ i) : cnt l i = 0 :=
  List.countP_eq_zero.mpr fun o ho => by simpa using h o ho

theorem bufCnt_eq_zero {l : List CmdObj} {p : Nat} (h : ∀ o ∈ l, o.buf ≠ some p) : bufCnt l p = 0 :=
  List.countP_eq_zero.mpr fun o ho => by simpa using h o ho

theorem count_freed_singleton (o : CmdObj) (i : Nat) :
    [Note.freed o.id].count (.freed i) = cnt [o] i := by
  by_cases h : o.id = i
  · simp [cnt, h]
  · simp [cnt, h]

theorem count_ran_singleton (o : CmdObj) (i : Nat) : [Note.ran o.id].count (.ran i) = cnt [o] i := by
  by_cases h : o.id = i
  · simp [cnt, h]
  · simp [cnt, h]

theorem hand_eq_nil_toRun {pc : Pc} (h : pc.hand = []) : pc.toRun = [] := by
  cases pc with
  | run o => cases h
  | _ => rfl

theorem over_cases {pc : Pc} (h : pc.over = true) : pc.closing = true ∨ pc = .done := by
  cases pc with
  | raise => exact Or.inl rfl
  | leave => exact Or.inl rfl
  | done => exact Or.inr rfl
  | _ => cases h

/-! ## Steps -/

theorem cmdInv_init (hw : Bool) : CmdInv (.init hw) where
  ids := fun _ => Nat.zero_le 1
  bufs := fun _ => Nat.zero_le 1
  objects := fun _ => rfl
  buffers := fun _ => rfl
  runs := fun _ => Nat.le_refl 0
  members := fun _ h => h
  sizes := fun _ h => absurd h (List.not_mem_nil)
  order := ⟨[], rfl, List.Sublist.refl []⟩
  signals := fun _ h => absurd h (List.not_mem_nil)
  handed := fun _ _ h => by cases h
  posted := fun _ _ h => by cases h
  atEnd := fun h => by cases h
  stopped := fun h => by cases h

section

variable {s : CmdSys}

/-- The accounts do not depend on the flags that others set. -/
theorem CmdInv.flags (h : CmdInv s) (sema : Nat) (stopReq hw stopped : Bool) :
    CmdInv { s with sema := sema, stopReq := stopReq, hwInitCompleted := hw, stopped := stopped } :=
  ⟨h.ids, h.bufs, h.objects, h.buffers, h.runs, h.members, h.sizes, h.order, h.signals, h.handed,
    h.posted, h.atEnd, h.stopped⟩

/-- The thread moves with nothing in its hand. -/
theorem CmdInv.move (h : CmdInv s) (pc : Pc) (hs : s.pc.hand = []) (hpc : pc.hand = [])
    (hover : pc.over = true → s.queue = [] ∧ s.callers = []) (running : Bool)
    (hrun : pc = .done → running = false) : CmdInv { s with pc := pc, running := running } where
  ids := h.ids
  bufs := h.bufs
  -- what is in hand is empty before and behind the move, so that no count changes
  objects := by
    intro i
    have hi := h.objects i
    rw [hs] at hi
    show cnt s.queue i + cnt pc.hand i + _ = _
    rw [hpc]
    exact hi
  buffers := by
    intro p
    have hp := h.buffers p
    rw [hand_eq_nil_toRun hs] at hp
    show bufCnt s.queue p + bufCnt pc.toRun p + _ = _
    rw [hand_eq_nil_toRun hpc]
    exact hp
  runs := by
    intro i
    have hi := h.runs i
    rw [hand_eq_nil_toRun hs] at hi
    show cnt s.queue i + cnt pc.toRun i + _ ≤ _
    rw [hand_eq_nil_toRun hpc]
    exact hi
  members := by
    intro o ho
    have ho : o ∈ s.queue ++ pc.hand := ho
    rw [hpc] at ho
    refine h.members o ?_
    rw [hs]
    exact ho
  sizes := by
    intro o ho
    have ho : o ∈ s.callers ++ s.queue ++ pc.toRun := ho
    rw [hand_eq_nil_toRun hpc] at ho
    refine h.sizes o ?_
    rw [hand_eq_nil_toRun hs]
    exact ho
  order := by
    obtain ⟨out, hq, hr⟩ := h.order
    rw [hand_eq_nil_toRun hs] at hq
    refine ⟨out, ?_, hr⟩
    show _ = out ++ (pc.toRun ++ s.queue).map CmdObj.id
    rw [hand_eq_nil_toRun hpc]
    exact hq
  signals := h.signals
  -- with a command in the new place the hand would not be empty
  handed := by
    intro o res heq
    have heq : pc = .back o res := heq
    rw [heq] at hpc
    cases hpc
  posted := by
    intro o res heq
    have heq : pc = .post o res := heq
    rw [heq] at hpc
    cases hpc
  atEnd := hover
  stopped := hrun

/-- With a new object there is still at most one of each id. -/
theorem CmdInv.ids_fresh (h : CmdInv s) {o : CmdObj} (hfresh : Fresh s (.enqueue o)) (i : Nat) :
    cnt s.callers i + cnt s.raisers i + cnt s.succeeded i + cnt s.failed i + cnt [o] i ≤ 1 := by
  have hi := h.ids i
  by_cases hio : o.id = i
  · have hzero : cnt (s.callers ++ s.raisers ++ s.succeeded ++ s.failed) i = 0 :=
      cnt_eq_zero fun o' ho' => by rw [← hio]; exact (hfresh o' ho').1
    have hone : cnt [o] i = 1 := by simp [cnt, hio]
    simp only [cnt_append] at hzero
    omega
  · have hno : cnt [o] i = 0 := by simp [cnt, hio]
    omega

theorem CmdInv.bufs_fresh (h : CmdInv s) {o : CmdObj} (hfresh : Fresh s (.enqueue o)) (p : Nat) :
    bufCnt s.callers p + bufCnt s.raisers p + bufCnt s.succeeded p + bufCnt s.failed p
      + bufCnt [o] p ≤ 1 := by
  have hp := h.bufs p
  by_cases hop : o.buf = some p
  · have hzero : bufCnt (s.callers ++ s.raisers ++ s.succeeded ++ s.failed) p = 0 :=
      bufCnt_eq_zero fun o' ho' hp' => by
        rcases (hfresh o' ho').2 with hnone | hne
        · rw [hop] at hnone
          cases hnone
        · exact hne (hp'.trans hop.symm)
    have hone : bufCnt [o] p = 1 := by simp [bufCnt, hop]
    simp only [bufCnt_append] at hzero
    omega
  · have hno : bufCnt [o] p = 0 := by simp [bufCnt, hop]
    omega

/-- A caller gets through the filter. -/
theorem CmdInv.enqueue (h : CmdInv s) {o : CmdObj} (hfresh : Fresh s (.enqueue o))
    (hfilter : cmdFilter s o = true) (hfine : EnqueueFine s o) :
    CmdInv { s with callers := s.callers ++ [o] } := by
  unfold EnqueueFine at hfine
  rw [if_pos hfilter] at hfine
  obtain ⟨hsz, hextra, hpc⟩ := hfine
  refine { h with
    ids := ?_, bufs := ?_, sizes := ?_, atEnd := ?_ }
  · intro i
    dsimp only
    have hi := h.ids_fresh hfresh i
    rw [cnt_append]
    omega
  · intro p
    dsimp only
    have hp := h.bufs_fresh hfresh p
    rw [bufCnt_append]
    omega
  · intro o' ho'
    have ho' : o' ∈ s.callers ++ [o] ++ s.queue ++ s.pc.toRun := ho'
    simp only [List.mem_append, List.mem_singleton] at ho'
    rcases ho' with ((hc | rfl) | hq) | hr
    · exact h.sizes o' (by simp [hc])
    · exact ⟨hsz, hextra⟩
    · exact h.sizes o' (by simp [hq])
    · exact h.sizes o' (by simp [hr])
  · -- the filter lets nobody in once the thread is done
    intro hover
    exfalso
    rcases over_cases hover with hclose | hdone
    · rw [hpc] at hclose
      cases hclose
    · have hrun := h.stopped hdone
      simp [cmdFilter, hrun] at hfilter

/-- Notes that say nothing about frees, buffers, runs or the queue. -/
theorem CmdInv.order_append (h : CmdInv s) (ns : List Note) (hq : queuedIds ns = [])
    (hr : ranIds ns = []) : ∃ out,
      queuedIds (s.log ++ ns) = out ++ (s.pc.toRun ++ s.queue).map CmdObj.id
        ∧ (ranIds (s.log ++ ns)).Sublist out := by
  obtain ⟨out, hqo, hro⟩ := h.order
  refine ⟨out, ?_, ?_⟩
  · rw [queuedIds_append, hq, List.append_nil]
    exact hqo
  · rw [ranIds_append, hr, List.append_nil]
    exact hro

/-- A caller is refused. -/
theorem CmdInv.refuse (h : CmdInv s) {o : CmdObj} (hfresh : Fresh s (.enqueue o))
    (hbuf : o.buf = none) :
    CmdInv { s with failed := s.failed ++ [o], log := s.log ++ [.freed o.id] } where
  -- the object is new, so that freeing it at once is all that is known of it
  ids := by
    intro i
    dsimp only
    have hi := h.ids_fresh hfresh i
    rw [cnt_append]
    omega
  bufs := by
    intro p
    dsimp only
    have hp := h.bufs_fresh hfresh p
    rw [bufCnt_append]
    omega
  objects := by
    intro i
    dsimp only
    rw [List.count_append, count_freed_singleton, cnt_append]
    have hi := h.objects i
    omega
  buffers := by
    intro p
    dsimp only
    have hno : bufCnt [o] p = 0 := by simp [bufCnt, hbuf]
    rw [List.count_append, bufCnt_append, hno]
    have hp := h.buffers p
    simpa using hp
  runs := by
    intro i
    dsimp only
    rw [List.count_append]
    simpa using h.runs i
  members := h.members
  sizes := h.sizes
  order := h.order_append _ rfl rfl
  signals := by
    intro o' ho' hs
    refine (h.signals o' ho' hs).append (Or.inl ?_)
    have hmem : o' ∈ s.callers ++ s.raisers ++ s.succeeded ++ s.failed := by
      simp only [List.mem_append] at ho' ⊢
      rcases ho' with hr | hr
      · exact Or.inl (Or.inl (Or.inr hr))
      · exact Or.inl (Or.inr hr)
    have hne := (hfresh o' hmem).1
    simpa using hne
  handed := by
    intro o' res hpc
    obtain ⟨hs, hres⟩ := h.handed o' res hpc
    exact ⟨fun hsctx => List.mem_append_left _ (hs hsctx), hres⟩
  posted := h.posted
  atEnd := h.atEnd
  stopped := h.stopped

/-- A caller puts its object into the queue. -/
theorem CmdInv.insert (h : CmdInv s) (id : Nat) : CmdInv (insertCmd s id) := by
  unfold insertCmd
  cases hf : s.callers.find? (fun o => o.id = id) with
  | none => exact h
  | some o =>
      have hmem : o ∈ s.callers := List.mem_of_find?_eq_some hf
      have hone : cnt s.callers id ≤ 1 := by
        have := h.ids id
        omega
      -- the object goes from the callers to the queue, its identity and its buffer with it
      have hcnt : ∀ i, cnt s.callers i = cnt (s.callers.filter fun o => o.id ≠ id) i + cnt [o] i :=
        fun i => countP_take _ hf hone
      have hbuf : ∀ p, bufCnt s.callers p
          = bufCnt (s.callers.filter fun o => o.id ≠ id) p + bufCnt [o] p :=
        fun p => countP_take _ hf hone
      have hsz := h.sizes o (by simp [hmem])
      dsimp only
      rw [if_neg (Nat.not_lt.mpr hsz.1)]
      refine
        { ids := ?_, bufs := ?_, objects := ?_, buffers := ?_, runs := ?_, members := ?_, sizes := ?_
          order := ?_, signals := ?_, handed := ?_, posted := h.posted, atEnd := ?_
          stopped := h.stopped }
      -- one caller fewer and one in the queue more
      · intro i
        dsimp only
        have hi := h.ids i
        rw [hcnt i] at hi
        rw [cnt_append]
        omega
      · intro p
        dsimp only
        have hp := h.bufs p
        rw [hbuf p] at hp
        rw [bufCnt_append]
        omega
      -- the log grows by a note that frees nothing and runs nothing
      · intro i
        dsimp only
        have hi := h.objects i
        rw [cnt_append, cnt_append, List.count_append]
        have hz : [Note.queued o.id].count (Note.freed i) = 0 := by simp
        omega
      · intro p
        dsimp only
        have hp := h.buffers p
        rw [bufCnt_append, bufCnt_append, List.count_append]
        have hz : [Note.queued o.id].count (Note.freedBuf p) = 0 := by simp
        omega
      · intro i
        dsimp only
        have hi := h.runs i
        rw [cnt_append, cnt_append, List.count_append]
        have hz : [Note.queued o.id].count (Note.ran i) = 0 := by simp
        omega
      -- what is queued or in hand is that of a call which succeeds: `o` has still to raise the semaphore
      · intro o' ho'
        simp only [List.mem_append, List.mem_singleton] at ho' ⊢
        rcases ho' with (hq | rfl) | hh
        · have := h.members o' (by simp [hq])
          simp only [List.mem_append] at this
          rcases this with hr | hr
          · exact Or.inl (Or.inl hr)
          · exact Or.inr hr
        · exact Or.inl (Or.inr rfl)
        · have := h.members o' (by simp [hh])
          simp only [List.mem_append] at this
          rcases this with hr | hr
          · exact Or.inl (Or.inl hr)
          · exact Or.inr hr
      · intro o' ho'
        simp only [List.mem_append, List.mem_singleton] at ho'
        rcases ho' with (hc | hq | rfl) | hr
        · exact h.sizes o' (by simp [List.mem_of_mem_filter hc])
        · exact h.sizes o' (by simp [hq])
        · exact hsz
        · exact h.sizes o' (by simp [hr])
      -- `o` joins at the end, as in the log
      · obtain ⟨out, hq, hr⟩ := h.order
        refine ⟨out, ?_, ?_⟩
        · dsimp only
          rw [queuedIds_append, hq]
          simp [queuedIds]
        · dsimp only
          rw [ranIds_append]
          simpa [ranIds] using hr
      · intro o' ho' hs
        have hnot : ∀ i, Note.freed i ∉ [Note.queued o.id] := fun i => by simp
        have ho' : o' ∈ (s.raisers ++ [o]) ++ s.succeeded := ho'
        simp only [List.mem_append, List.mem_singleton] at ho'
        rcases ho' with (hr | rfl) | hr
        · exact (h.signals o' (by simp [hr]) hs).append (Or.inl (hnot _))
        · -- the object has just come in, so it has not been freed
          have hpos := cnt_pos hmem
          have hids := h.ids o'.id
          have hobj := h.objects o'.id
          have hfree : s.log.count (Note.freed o'.id) = 0 := by omega
          intro n hn
          have hmemlog := List.mem_of_getElem? hn
          rcases List.mem_append.mp hmemlog with hlog | hnew
          · exact absurd hlog (List.count_eq_zero.mp hfree)
          · exact absurd hnew (hnot _)
        · exact (h.signals o' (by simp [hr]) hs).append (Or.inl (hnot _))
      · intro o' res hpc
        obtain ⟨hs, hres⟩ := h.handed o' res hpc
        exact ⟨fun hsctx => List.mem_append_left _ (hs hsctx), hres⟩
      -- after the end nobody is left who could call
      · intro hover
        have hempty := (h.atEnd hover).2
        rw [hempty] at hmem
        cases hmem

/-- A caller returns. -/
theorem CmdInv.raise (h : CmdInv s) (id : Nat) : CmdInv (raiseSema s id) := by
  unfold raiseSema
  cases hf : s.raisers.find? (fun o => o.id = id) with
  | none => exact h
  | some o =>
      have hmem : o ∈ s.raisers := List.mem_of_find?_eq_some hf
      -- the caller is there once, so that it is only moved to those that have succeeded
      have hone : cnt s.raisers id ≤ 1 := by
        have := h.ids id
        omega
      have hcnt : ∀ i, cnt s.raisers i = cnt (s.raisers.filter fun o => o.id ≠ id) i + cnt [o] i :=
        fun i => countP_take _ hf hone
      have hbuf : ∀ p, bufCnt s.raisers p
          = bufCnt (s.raisers.filter fun o => o.id ≠ id) p + bufCnt [o] p :=
        fun p => countP_take _ hf hone
      have hsame : ∀ o', o' ∈ (s.raisers.filter fun o => o.id ≠ id) ++ (s.succeeded ++ [o]) ↔
          o' ∈ s.raisers ++ s.succeeded := by
        intro o'
        simp only [List.mem_append, List.mem_singleton, List.mem_filter]
        constructor
        · intro ho'
          rcases ho' with hr | hr | rfl
          · exact Or.inl hr.1
          · exact Or.inr hr
          · exact Or.inl hmem
        · intro ho'
          rcases ho' with hr | hr
          · by_cases hid : o'.id = id
            · have hid' : o.id = id := by simpa using List.find?_some hf
              have honce : ∀ i, cnt s.raisers i ≤ 1 := fun i => by
                have := h.ids i
                omega
              exact Or.inr (Or.inr (eq_of_id honce hr hmem (hid.trans hid'.symm)))
            · exact Or.inl ⟨hr, by simpa using hid⟩
          · exact Or.inr (Or.inl hr)
      refine
        { h with
          ids := ?_, bufs := ?_, objects := ?_, buffers := ?_, runs := ?_, members := ?_, signals := ?_ }
      -- counts over both lists are as before
      · intro i
        dsimp only
        have hi := h.ids i
        rw [hcnt i] at hi
        rw [cnt_append]
        omega
      · intro p
        dsimp only
        have hp := h.bufs p
        rw [hbuf p] at hp
        rw [bufCnt_append]
        omega
      · intro i
        dsimp only
        have hi := h.objects i
        rw [hcnt i] at hi
        rw [cnt_append]
        omega
      · intro p
        dsimp only
        have hp := h.buffers p
        rw [hbuf p] at hp
        rw [bufCnt_append]
        omega
      · intro i
        dsimp only
        have hi := h.runs i
        rw [hcnt i] at hi
        rw [cnt_append]
        omega
      · intro o' ho'
        exact (hsame o').mpr (h.members o' ho')
      · intro o' ho'
        exact h.signals o' ((hsame o').mp ho')

/-- The thread takes the first object. -/
theorem CmdInv.take (h : CmdInv s) {o : CmdObj} {q : List CmdObj} (hs : s.pc.hand = [])
    (hq : s.queue = o :: q) : CmdInv { s with queue := q, pc := .run o } where
  ids := h.ids
  bufs := h.bufs
  -- the object goes from the queue to the hand, so that it is counted once as before
  objects := by
    intro i
    have hi := h.objects i
    rw [hs, hq, cnt_cons] at hi
    dsimp only [Pc.hand]
    rw [cnt_nil] at hi
    omega
  buffers := by
    intro p
    have hp := h.buffers p
    rw [hand_eq_nil_toRun hs, hq, bufCnt_cons] at hp
    dsimp only [Pc.toRun]
    rw [bufCnt_nil] at hp
    omega
  runs := by
    intro i
    have hi := h.runs i
    rw [hand_eq_nil_toRun hs, hq, cnt_cons] at hi
    dsimp only [Pc.toRun]
    rw [cnt_nil] at hi
    omega
  members := by
    intro o' ho'
    have ho' : o' ∈ q ++ [o] := ho'
    refine h.members o' ?_
    rw [hs, hq]
    simp only [List.mem_append, List.mem_singleton] at ho'
    rcases ho' with ho' | rfl
    · simp [ho']
    · simp
  sizes := by
    intro o' ho'
    have ho' : o' ∈ s.callers ++ q ++ [o] := ho'
    refine h.sizes o' ?_
    rw [hand_eq_nil_toRun hs, hq]
    simp only [List.mem_append, List.mem_singleton] at ho'
    rcases ho' with (hc | ho') | rfl
    · simp [hc]
    · simp [ho']
    · simp
  -- what is next to run was next in the queue
  order := by
    obtain ⟨out, hqo, hr⟩ := h.order
    rw [hand_eq_nil_toRun hs, hq] at hqo
    exact ⟨out, hqo, hr⟩
  signals := h.signals
  handed := fun _ _ hpc => by cases hpc
  posted := fun _ _ hpc => by cases hpc
  atEnd := fun hover => by cases hover
  stopped := fun hpc => by cases hpc

/-- A command has run, or has been dropped: its buffer is gone, and it has been run at most this once. -/
theorem CmdInv.ran (h : CmdInv s) {o : CmdObj} (hpc : s.pc = .run o) {ns : List Note} (res : UInt8)
    (buf : Mem) (hns : ns = freeBuf o.buf ∨ ns = .ran o.id :: freeBuf o.buf)
    (hres : o.cmdcode = disConnect → res = h2cSuccess) :
    CmdInv { s with cmdbuf := buf, pc := .post o res, log := s.log ++ ns } := by
  -- what is noted: the buffer is freed, the object is not, and the command has run at most once
  have hfreed : ∀ i, ns.count (Note.freed i) = 0 := by
    intro i
    rcases hns with rfl | rfl
    · simp
    · simp
  have hbuf : ∀ p, ns.count (Note.freedBuf p) = bufCnt [o] p := by
    intro p
    rcases hns with rfl | rfl
    · exact count_freedBuf_freeBuf o p
    · rw [List.count_cons_of_ne (by simp)]
      exact count_freedBuf_freeBuf o p
  have hran : ∀ i, ns.count (Note.ran i) ≤ cnt [o] i := by
    intro i
    rcases hns with rfl | rfl
    · simp
    · have happ : Note.ran o.id :: freeBuf o.buf = [Note.ran o.id] ++ freeBuf o.buf := rfl
      rw [happ, List.count_append, count_ran_freeBuf, count_ran_singleton]
      omega
  have hhand : s.pc.hand = [o] := by rw [hpc]; rfl
  have hrun : s.pc.toRun = [o] := by rw [hpc]; rfl
  refine
    { ids := h.ids, bufs := h.bufs, objects := ?_, buffers := ?_, runs := ?_, members := ?_
      sizes := ?_, order := ?_, signals := ?_, handed := ?_, posted := ?_, atEnd := ?_, stopped := ?_ }
  -- the object stays in hand, its buffer does not
  · intro i
    have hi := h.objects i
    rw [hhand] at hi
    dsimp only [Pc.hand]
    rw [List.count_append, hfreed i]
    exact hi
  · intro p
    have hp := h.buffers p
    rw [hrun] at hp
    dsimp only [Pc.toRun]
    rw [List.count_append, hbuf p, bufCnt_nil]
    omega
  · intro i
    have hi := h.runs i
    rw [hrun] at hi
    dsimp only [Pc.toRun]
    rw [List.count_append, cnt_nil]
    have := hran i
    omega
  · intro o' ho'
    refine h.members o' ?_
    rw [hhand]
    exact ho'
  · intro o' ho'
    refine h.sizes o' ?_
    have ho' : o' ∈ s.callers ++ s.queue ++ [] := ho'
    rw [List.append_nil] at ho'
    exact List.mem_append_left _ ho'
  -- it leaves the order of the queue, and what has run stays a part of that
  · obtain ⟨out, hqo, hr⟩ := h.order
    rw [hrun] at hqo
    refine ⟨out ++ [o.id], ?_, ?_⟩
    · show queuedIds (s.log ++ ns) = (out ++ [o.id]) ++ ([] ++ s.queue).map CmdObj.id
      have hnone : queuedIds ns = [] := by
        rcases hns with rfl | rfl
        · exact queuedIds_freeBuf _
        · exact queuedIds_freeBuf o.buf
      rw [queuedIds_append, hqo, hnone]
      simp
    · show (ranIds (s.log ++ ns)).Sublist (out ++ [o.id])
      rw [ranIds_append]
      refine hr.append ?_
      rcases hns with rfl | rfl
      · rw [ranIds_freeBuf]
        exact List.nil_sublist _
      · have happ : ranIds (Note.ran o.id :: freeBuf o.buf) = o.id :: ranIds (freeBuf o.buf) := rfl
        rw [happ, ranIds_freeBuf]
  · intro o' ho' hs
    refine (h.signals o' ho' hs).append (Or.inl ?_)
    exact List.count_eq_zero.mp (hfreed o'.id)
  · intro o' res' hpost
    cases hpost
  · intro o' res' hpost hdis
    cases hpost
    exact hres hdis
  -- the thread has not come to its end
  · intro hover
    cases hover
  · intro hdone
    cases hdone

/-- The waiter of a command is signalled. -/
theorem CmdInv.post (h : CmdInv s) {o : CmdObj} {res : UInt8} (hpc : s.pc = .post o res) :
    CmdInv { s with
      pc := .back o res
      log := s.log ++ if o.sctx then [Note.signalled o.id] else [] } := by
  have hhand : s.pc.hand = [o] := by rw [hpc]; rfl
  have hrun : s.pc.toRun = [] := by rw [hpc]; rfl
  generalize hns : (if o.sctx then [Note.signalled o.id] else []) = ns
  -- nothing is noted but a signal to the one who waits
  have hnote : ∀ n ∈ ns, n = Note.signalled o.id := by
    intro n hn
    rw [← hns] at hn
    cases hsctx : o.sctx with
    | false => simp [hsctx] at hn
    | true => simpa [hsctx] using hn
  have hcount : ∀ n, n ≠ Note.signalled o.id → ns.count n = 0 := by
    intro n hn
    exact List.count_eq_zero.mpr fun hmem => hn (hnote n hmem)
  have hq : queuedIds ns = [] := by
    rw [← hns]
    cases o.sctx <;> rfl
  have hr : ranIds ns = [] := by
    rw [← hns]
    cases o.sctx <;> rfl
  refine
    { ids := h.ids, bufs := h.bufs, objects := ?_, buffers := ?_, runs := ?_, members := ?_
      sizes := ?_, order := ?_, signals := ?_, handed := ?_, posted := ?_, atEnd := ?_, stopped := ?_ }
  -- no count changes: the object stays in hand until it is given back
  · intro i
    have hi := h.objects i
    rw [hhand] at hi
    dsimp only [Pc.hand]
    rw [List.count_append, hcount _ (by simp)]
    exact hi
  · intro p
    have hp := h.buffers p
    rw [hrun] at hp
    dsimp only [Pc.toRun]
    rw [List.count_append, hcount _ (by simp)]
    exact hp
  · intro i
    have hi := h.runs i
    rw [hrun] at hi
    dsimp only [Pc.toRun]
    rw [List.count_append, hcount _ (by simp)]
    exact hi
  · intro o' ho'
    refine h.members o' ?_
    rw [hhand]
    exact ho'
  · intro o' ho'
    refine h.sizes o' ?_
    rw [hrun]
    exact ho'
  · have horder := h.order_append ns hq hr
    rw [hrun] at horder
    exact horder
  · intro o' ho' hs
    refine (h.signals o' ho' hs).append (Or.inl ?_)
    exact fun hmem => by cases hnote _ hmem
  · intro o' res' hback
    cases hback
    -- the signal comes before the object is given back
    refine ⟨?_, h.posted o res hpc⟩
    intro hsctx
    rw [← hns, hsctx]
    exact List.mem_append_right _ List.mem_cons_self
  · intro o' res' hpost
    cases hpost
  · intro hover
    cases hover
  · intro hdone
    cases hdone

/-- An object of the thread or of the queue is freed: its waiter knows by then, or there is none. -/
theorem CmdInv.signals_freed (h : CmdInv s) {o : CmdObj} (hmem : o ∈ s.raisers ++ s.succeeded)
    (hsig : o.sctx = true → Note.signalled o.id ∈ s.log) {ns : List Note}
    (hns : ∀ i, Note.freed i ∈ ns → i = o.id) (o' : CmdObj) (ho' : o' ∈ s.raisers ++ s.succeeded)
    (hs : o'.sctx = true) : Before (.signalled o'.id) (.freed o'.id) (s.log ++ ns) := by
  refine (h.signals o' ho' hs).append ?_
  by_cases hid : o'.id = o.id
  · have honce : ∀ i, cnt (s.raisers ++ s.succeeded) i ≤ 1 := by
      intro i
      have := h.ids i
      rw [cnt_append]
      omega
    have heq := eq_of_id honce ho' hmem hid
    subst heq
    exact Or.inr (hsig hs)
  · exact Or.inl fun hmem' => hid (hns _ hmem')

/-- The end of a command. -/
theorem CmdInv.back (h : CmdInv s) {o : CmdObj} {res : UInt8} (hpc : s.pc = .back o res) :
    CmdInv (callbackCmd s o res) := by
  obtain ⟨hsig, hdis⟩ := h.handed o res hpc
  have hhand : s.pc.hand = [o] := by rw [hpc]; rfl
  have hrun : s.pc.toRun = [] := by rw [hpc]; rfl
  have hmem : o ∈ s.raisers ++ s.succeeded := h.members o (by rw [hhand]; simp)
  -- whatever the callback is, the object is freed: the one that does not is for a failed disconnect
  have hfrees : callbackCmd s o res = { s with pc := .next, log := s.log ++ [Note.freed o.id] } := by
    unfold callbackCmd
    by_cases hcode : o.cmdcode = disConnect
    · simp [hcode, disConnect, rtwCmdCallback, Callback.frees, hdis hcode]
    · cases hcb : rtwCmdCallback o.cmdcode with
      | none => rfl
      | some c =>
          have hc : c ≠ .disassoc := by
            intro hc
            subst hc
            unfold rtwCmdCallback at hcb
            split at hcb <;> first | (cases hcb; done) | skip
            exact hcode (by assumption)
          cases c with
          | disassoc => exact absurd rfl hc
          | _ => rfl
  rw [hfrees]
  refine
    { ids := h.ids, bufs := h.bufs, objects := ?_, buffers := ?_, runs := ?_, members := ?_
      sizes := ?_, order := ?_, signals := ?_, handed := ?_, posted := ?_, atEnd := ?_, stopped := ?_ }
  -- the object goes from the hand to what is freed
  · intro i
    have hi := h.objects i
    rw [hhand] at hi
    dsimp only [Pc.hand]
    rw [List.count_append, count_freed_singleton, cnt_nil]
    omega
  · intro p
    have hp := h.buffers p
    rw [hrun] at hp
    dsimp only [Pc.toRun]
    rw [List.count_append]
    simpa using hp
  · intro i
    have hi := h.runs i
    rw [hrun] at hi
    dsimp only [Pc.toRun]
    rw [List.count_append]
    simpa using hi
  · intro o' ho'
    have ho' : o' ∈ s.queue ++ [] := ho'
    rw [List.append_nil] at ho'
    exact h.members o' (List.mem_append_left _ ho')
  · intro o' ho'
    refine h.sizes o' ?_
    rw [hrun]
    exact ho'
  · have horder := h.order_append [Note.freed o.id] rfl rfl
    rw [hrun] at horder
    exact horder
  -- it was signalled before, if somebody waits for it
  · exact h.signals_freed hmem hsig (fun i hi => by simpa using hi)
  · intro o' res' hback
    cases hback
  · intro o' res' hpost
    cases hpost
  · intro hover
    cases hover
  · intro hdone
    cases hdone

/-- An object that is left when the thread ends. -/
theorem CmdInv.drop (h : CmdInv s) {o : CmdObj} {q : List CmdObj} (hpc : s.pc = .drain)
    (hq : s.queue = o :: q) (hsctx : o.sctx = false) :
    CmdInv { s with queue := q, log := s.log ++ (freeBuf o.buf ++ [Note.freed o.id]) } := by
  have hhand : s.pc.hand = [] := by rw [hpc]; rfl
  have hrun : s.pc.toRun = [] := by rw [hpc]; rfl
  have hmem : o ∈ s.raisers ++ s.succeeded := h.members o (by rw [hq]; simp)
  refine
    { ids := h.ids, bufs := h.bufs, objects := ?_, buffers := ?_, runs := ?_, members := ?_
      sizes := ?_, order := ?_, signals := ?_, handed := ?_, posted := ?_, atEnd := ?_
      stopped := h.stopped }
  -- the object goes from the queue to what is freed, with its buffer, and has not run
  · intro i
    dsimp only
    have hi := h.objects i
    rw [hhand, hq, cnt_cons] at hi
    rw [List.count_append, List.count_append, count_freed_freeBuf, count_freed_singleton, hhand]
    omega
  · intro p
    dsimp only
    have hp := h.buffers p
    rw [hrun, hq, bufCnt_cons] at hp
    rw [List.count_append, List.count_append, count_freedBuf_freeBuf, hrun]
    have hz : [Note.freed o.id].count (Note.freedBuf p) = 0 := by simp
    omega
  · intro i
    dsimp only
    have hi := h.runs i
    rw [hrun, hq, cnt_cons] at hi
    rw [List.count_append, List.count_append, count_ran_freeBuf, hrun]
    have hz : [Note.freed o.id].count (Note.ran i) = 0 := by simp
    omega
  · intro o' ho'
    refine h.members o' ?_
    rw [hq]
    exact List.mem_cons_of_mem o ho'
  · intro o' ho'
    refine h.sizes o' ?_
    have ho' : o' ∈ s.callers ++ q ++ s.pc.toRun := ho'
    rw [hq]
    simp only [List.mem_append, List.mem_cons] at ho' ⊢
    rcases ho' with (hc | ho') | hr
    · exact Or.inl (Or.inl hc)
    · exact Or.inl (Or.inr (Or.inr ho'))
    · exact Or.inr hr
  -- it leaves the order of the queue without having run
  · obtain ⟨out, hqo, hr⟩ := h.order
    rw [hrun, hq] at hqo
    refine ⟨out ++ [o.id], ?_, ?_⟩
    · show queuedIds (s.log ++ (freeBuf o.buf ++ [Note.freed o.id]))
        = (out ++ [o.id]) ++ (s.pc.toRun ++ q).map CmdObj.id
      rw [queuedIds_append, queuedIds_append, hqo, hrun, queuedIds_freeBuf]
      simp [queuedIds]
    · show (ranIds (s.log ++ (freeBuf o.buf ++ [Note.freed o.id]))).Sublist (out ++ [o.id])
      rw [ranIds_append, ranIds_append, ranIds_freeBuf]
      simpa [ranIds] using hr.trans (List.sublist_append_left out [o.id])
  -- nobody waits for it: it has no context
  · refine h.signals_freed hmem ?_ ?_
    · intro hs
      rw [hsctx] at hs
      cases hs
    · intro i hi
      rcases List.mem_append.mp hi with hb | hf
      · have hz := count_freed_freeBuf o.buf i
        exact absurd hb (List.count_eq_zero.mp hz)
      · simpa using hf
  · intro o' res' hback
    -- the thread is nowhere else
    have hback : s.pc = .back o' res' := hback
    rw [hpc] at hback
    cases hback
  · intro o' res' hpost
    have hpost : s.pc = .post o' res' := hpost
    rw [hpc] at hpost
    cases hpost
  · intro hover
    have hover : s.pc.over = true := hover
    rw [hpc] at hover
    cases hover

/-- A command that is run, with its handler or without one, or is dropped. -/
theorem CmdInv.run (h : CmdInv s) {o : CmdObj} (hpc : s.pc = .run o)
    (hdis : o.cmdcode = disConnect → cmdFilter s o = true) (ret : UInt8) :
    CmdInv (runCmd s o ret) := by
  have hrun : s.pc.toRun = [o] := by rw [hpc]; rfl
  have hsz := (h.sizes o (by rw [hrun]; simp)).2
  unfold runCmd
  cases hfilter : cmdFilter s o with
  | false =>
      rw [if_pos rfl]
      refine h.ran hpc h2cDropped s.cmdbuf (Or.inl rfl) ?_
      intro hcode
      rw [hdis hcode] at hfilter
      cases hfilter
  | true =>
      rw [if_neg (by simp)]
      dsimp only
      -- without a handler there is no buffer either
      have hnobuf : o.cmdcode ≠ setDrvExtra → o.buf = none := fun hne => if_neg hne
      have hnone : o.buf = none → s.log = s.log ++ freeBuf o.buf := by
        intro hb
        rw [hb]
        exact (List.append_nil _).symm
      by_cases htab : o.cmdcode < cmdTableSz
      · rw [if_pos htab]
        by_cases hhdl : o.cmdcode ∈ h2cfuns
        · rw [if_pos hhdl]
          have hfrees : (if o.cmdcode = setDrvExtra then
              freeBuf (extraBuf (s.cmdbuf.copy 0 o.parm 0 (rnd4 o.cmdsz))) else []) = freeBuf o.buf := by
            by_cases hcode : o.cmdcode = setDrvExtra
            · rw [if_pos hcode, extraBuf_copy (hsz hcode)]
              unfold CmdObj.buf
              rw [if_pos hcode]
            · rw [if_neg hcode, hnobuf hcode]
              rfl
          rw [hfrees]
          refine h.ran hpc _ _ (Or.inr rfl) ?_
          intro hcode
          simp [hdlResult, hcode]
        · rw [if_neg hhdl]
          have hbuf : o.buf = none := hnobuf fun hcode => hhdl (by rw [hcode]; decide)
          have hran := h.ran hpc o.res (s.cmdbuf.copy 0 o.parm 0 (rnd4 o.cmdsz)) (Or.inl rfl)
            (fun hcode => absurd (by rw [hcode]; decide) hhdl)
          rw [← hnone hbuf] at hran
          exact hran
      · rw [if_neg htab]
        have hbuf : o.buf = none := hnobuf fun hcode => htab (by rw [hcode]; decide)
        have hran := h.ran hpc h2cParametersError (s.cmdbuf.copy 0 o.parm 0 (rnd4 o.cmdsz))
          (Or.inl rfl) (fun hcode => absurd (by rw [hcode]; decide) htab)
        rw [← hnone hbuf] at hran
        exact hran

/-- The thread takes a step. -/
theorem CmdInv.thread (h : CmdInv s) (up : Bool) (ret : UInt8) (hfine : ThreadFine s s.pc) :
    CmdInv (threadStep s up ret) := by
  unfold threadStep
  cases hpc : s.pc with
  -- where the thread has nothing in hand it only moves on
  | start =>
      have hhand : s.pc.hand = [] := by rw [hpc]; rfl
      have hmove := h.move .wait hhand rfl (fun hf => by cases hf) true (fun hf => by cases hf)
      exact hmove.flags s.sema false s.hwInitCompleted s.stopped
  | wait =>
      have hhand : s.pc.hand = [] := by rw [hpc]; rfl
      dsimp only
      by_cases hup : up = false
      · rw [if_pos hup]
        exact h.move _ hhand rfl (fun hf => by cases hf) s.running (fun hf => by cases hf)
      · rw [if_neg hup]
        by_cases hsema : s.sema = 0
        · rw [if_pos hsema]
          exact h
        · rw [if_neg hsema]
          have hmove := h.move .woken hhand rfl (fun hf => by cases hf) s.running
            (fun hf => by cases hf)
          exact hmove.flags (s.sema - 1) s.stopReq s.hwInitCompleted s.stopped
  | woken =>
      have hhand : s.pc.hand = [] := by rw [hpc]; rfl
      dsimp only
      split
      · exact h.move _ hhand rfl (fun hf => by cases hf) s.running (fun hf => by cases hf)
      · split
        · exact h.move _ hhand rfl (fun hf => by cases hf) s.running (fun hf => by cases hf)
        · exact h.move _ hhand rfl (fun hf => by cases hf) s.running (fun hf => by cases hf)
  | next =>
      have hhand : s.pc.hand = [] := by rw [hpc]; rfl
      dsimp only
      split
      · exact h.move _ hhand rfl (fun hf => by cases hf) s.running (fun hf => by cases hf)
      · cases hq : s.queue with
        | nil =>
            have hmove := h.move .wait hhand rfl (fun hf => by cases hf) s.running
              (fun hf => by cases hf)
            rw [hq] at hmove
            exact hmove
        | cons o q => exact h.take hhand hq
  -- a command in hand: it runs, is answered and is given back
  | run o =>
      rw [hpc] at hfine
      exact h.run hpc hfine ret
  | post o res => exact h.post hpc
  | back o res => exact h.back hpc
  -- the queue is emptied before the thread says that it has ended
  | drain =>
      have hhand : s.pc.hand = [] := by rw [hpc]; rfl
      rw [hpc] at hfine
      have hfine : DrainFine s.callers s.queue := hfine
      dsimp only
      cases hq : s.queue with
      | nil =>
          rw [hq] at hfine
          have hmove := h.move .raise hhand rfl (fun _ => ⟨hq, hfine⟩) s.running
            (fun hf => by cases hf)
          rw [hq] at hmove
          exact hmove
      | cons o q =>
          rw [hq] at hfine
          have hdrop := h.drop hpc hq hfine
          rw [hpc] at hdrop
          exact hdrop
  | raise =>
      have hhand : s.pc.hand = [] := by rw [hpc]; rfl
      have hover := h.atEnd (by rw [hpc]; rfl)
      exact h.move _ hhand rfl (fun _ => hover) s.running (fun hf => by cases hf)
  | leave =>
      have hhand : s.pc.hand = [] := by rw [hpc]; rfl
      have hover := h.atEnd (by rw [hpc]; rfl)
      exact h.move _ hhand rfl (fun _ => hover) false (fun _ => rfl)
  | done => exact h

/-- One step. -/
theorem CmdInv.step (h : CmdInv s) {e : CmdEvent} (hfresh : Fresh s e) (hfine : Fine s e) :
    CmdInv (cmdStep s e) := by
  cases e with
  | enqueue o =>
      show CmdInv (enqueueCmd s o)
      unfold enqueueCmd
      cases hfilter : cmdFilter s o with
      | true =>
          rw [if_pos rfl]
          exact h.enqueue hfresh hfilter hfine
      | false =>
          have hfine : EnqueueFine s o := hfine
          unfold EnqueueFine at hfine
          rw [hfilter, if_neg Bool.false_ne_true] at hfine
          rw [if_neg Bool.false_ne_true]
          exact h.refuse hfresh hfine
  | insert id => exact h.insert id
  | raise id => exact h.raise id
  | thread up ret => exact h.thread up ret hfine
  | stop =>
      show CmdInv (if s.running = true ∧ s.stopReq = false then _ else _)
      split
      · exact h.flags (s.sema + 1) true s.hwInitCompleted s.stopped
      · exact h
  | setHwInitCompleted b => exact h.flags s.sema s.stopReq b s.stopped
  | setStopped b => exact h.flags s.sema s.stopReq s.hwInitCompleted b

/-! ## The accounts -/

/-- What an object of an id is counted by. -/
theorem exists_of_cnt_pos {l : List CmdObj} {i : Nat} (h : 0 < cnt l i) : ∃ o ∈ l, o.id = i := by
  obtain ⟨o, ho, hid⟩ := List.countP_pos_iff.mp h
  exact ⟨o, ho, of_decide_eq_true hid⟩

theorem exists_of_bufCnt_pos {l : List CmdObj} {p : Nat} (h : 0 < bufCnt l p) :
    ∃ o ∈ l, o.buf = some p := by
  obtain ⟨o, ho, hp⟩ := List.countP_pos_iff.mp h
  exact ⟨o, ho, of_decide_eq_true hp⟩

theorem mem_hand_of_toRun {pc : Pc} {o : CmdObj} (h : o ∈ pc.toRun) : o ∈ pc.hand := by
  cases pc with
  | run o' => exact h
  | _ => cases h

/-- A refused object is nowhere in the queue. -/
theorem CmdInv.failed_freed (h : CmdInv s) {o : CmdObj} (ho : o ∈ s.failed) : FreedOnce s.log o := by
  constructor
  · have hpos := cnt_pos ho
    have hids := h.ids o.id
    have hobj := h.objects o.id
    have hout : cnt (s.queue ++ s.pc.hand) o.id = 0 := by
      by_contra hne
      obtain ⟨o', ho', hid⟩ := exists_of_cnt_pos (Nat.pos_of_ne_zero hne)
      have hpos' := cnt_pos (h.members o' ho')
      rw [hid, cnt_append] at hpos'
      omega
    rw [cnt_append] at hout
    omega
  · intro p hp
    have hpos := bufCnt_pos ho hp
    have hbufs := h.bufs p
    have hbuf := h.buffers p
    have hout : bufCnt (s.queue ++ s.pc.toRun) p = 0 := by
      by_contra hne
      obtain ⟨o', ho', hp'⟩ := exists_of_bufCnt_pos (Nat.pos_of_ne_zero hne)
      have hmem : o' ∈ s.queue ++ s.pc.hand := by
        rcases List.mem_append.mp ho' with hq | hr
        · exact List.mem_append_left _ hq
        · exact List.mem_append_right _ (mem_hand_of_toRun hr)
      have hpos' := bufCnt_pos (h.members o' hmem) hp'
      rw [bufCnt_append] at hpos'
      omega
    rw [bufCnt_append] at hout
    omega

/-- When the thread has ended, nothing is in the queue. -/
theorem CmdInv.succeeded_freed (h : CmdInv s) (hpc : s.pc = .done) {o : CmdObj}
    (ho : o ∈ s.succeeded) : FreedOnce s.log o := by
  have hqueue := (h.atEnd (by rw [hpc]; rfl)).1
  constructor
  · have hpos := cnt_pos ho
    have hids := h.ids o.id
    have hobj := h.objects o.id
    rw [hqueue, hpc] at hobj
    have hempty : cnt [] o.id + cnt Pc.done.hand o.id = 0 := rfl
    omega
  · intro p hp
    have hpos := bufCnt_pos ho hp
    have hbufs := h.bufs p
    have hbuf := h.buffers p
    rw [hqueue, hpc] at hbuf
    have hempty : bufCnt [] p + bufCnt Pc.done.toRun p = 0 := rfl
    omega

theorem CmdInv.accounted (h : CmdInv s) : Accounted s where
  once := by
    intro i
    have hruns := h.runs i
    have hids := h.ids i
    omega
  order := by
    obtain ⟨out, hq, hr⟩ := h.order
    rw [hq]
    exact hr.trans (List.sublist_append_left _ _)
  refused := fun o ho => h.failed_freed ho
  freed := by
    intro o hpc ho
    exact ⟨h.succeeded_freed hpc ho, h.signals o (List.mem_append_right _ ho)⟩

end

/-- **The accounts of the command queue.** In every run without a slip every object is accounted for,
in every state. -/
theorem command_queue_accounted (hw : Bool) (s : CmdSys)
    (h : Reach (fun s e => .done (cmdStep s e)) (fun s e => Fresh s e ∧ Fine s e) (.init hw) s) :
    Accounted s := by
  have hinv : CmdInv s := by
    refine Reach.invariant CmdInv (cmdInv_init hw) ?_ h
    intro s s' e hs hok hstep
    cases hstep
    exact hs.step hok.1 hok.2
  exact hinv.accounted

/-! ## Runs -/

instance (s : CmdSys) (e : CmdEvent) : Decidable (Fresh s e) :=
  match e with
  | .enqueue o => inferInstanceAs (Decidable (∀ o' ∈ s.callers ++ s.raisers ++ s.succeeded ++ s.failed,
      o'.id ≠ o.id ∧ (o.buf = none ∨ o'.buf ≠ o.buf)))
  | .insert _ => isTrue trivial
  | .raise _ => isTrue trivial
  | .thread _ _ => isTrue trivial
  | .stop => isTrue trivial
  | .setHwInitCompleted _ => isTrue trivial
  | .setStopped _ => isTrue trivial

instance (s : CmdSys) (o : CmdObj) : Decidable (EnqueueFine s o) :=
  inferInstanceAs (Decidable (if cmdFilter s o then _ else _))

instance (callers queue : List CmdObj) : Decidable (DrainFine callers queue) :=
  match queue with
  | [] => inferInstanceAs (Decidable (callers = []))
  | o :: _ => inferInstanceAs (Decidable (o.sctx = false))

instance (s : CmdSys) (pc : Pc) : Decidable (ThreadFine s pc) :=
  match pc with
  | .run o => inferInstanceAs (Decidable (o.cmdcode = disConnect → cmdFilter s o = true))
  | .drain => inferInstanceAs (Decidable (DrainFine s.callers s.queue))
  | .start => isTrue trivial
  | .wait => isTrue trivial
  | .woken => isTrue trivial
  | .next => isTrue trivial
  | .post _ _ => isTrue trivial
  | .back _ _ => isTrue trivial
  | .raise => isTrue trivial
  | .leave => isTrue trivial
  | .done => isTrue trivial

instance (s : CmdSys) (e : CmdEvent) : Decidable (Fine s e) :=
  match e with
  | .enqueue o => inferInstanceAs (Decidable (EnqueueFine s o))
  | .thread _ _ => inferInstanceAs (Decidable (ThreadFine s s.pc))
  | .insert _ => isTrue trivial
  | .raise _ => isTrue trivial
  | .stop => isTrue trivial
  | .setHwInitCompleted _ => isTrue trivial
  | .setStopped _ => isTrue trivial

/-- The state after a list of events. -/
def play (s : CmdSys) (es : List CmdEvent) : CmdSys := es.foldl cmdStep s

/-- Each event satisfies a condition where it happens. -/
def allOk (ok : CmdSys → CmdEvent → Bool) : CmdSys → List CmdEvent → Bool
  | _, [] => true
  | s, e :: es => ok s e && allOk ok (cmdStep s e) es

theorem reach_play {ok : CmdSys → CmdEvent → Prop} [∀ s e, Decidable (ok s e)] {s₀ : CmdSys} :
    ∀ {es : List CmdEvent} {s : CmdSys}, Reach (fun s e => .done (cmdStep s e)) ok s₀ s →
      allOk (fun s e => decide (ok s e)) s es = true →
      Reach (fun s e => .done (cmdStep s e)) ok s₀ (play s es) := by
  intro es
  induction es with
  | nil =>
      intro s h _
      exact h
  | cons e es ih =>
      intro s h hok
      have hok : (decide (ok s e) && allOk (fun s e => decide (ok s e)) (cmdStep s e) es) = true := hok
      rw [Bool.and_eq_true] at hok
      exact ih (h.next (of_decide_eq_true hok.1) rfl) hok.2

/-- Parameters of a `_Set_Drv_Extra` with a buffer of eight bytes at an address. -/
def extraParm (p : UInt8) : Mem := fun k => if k = 8 then 8 else if k = 16 then p else 0

/-- A `_Set_Drv_Extra` with a buffer. -/
def extraCmd (id : Nat) (p : UInt8) (cmdsz : Nat) (sctx : Bool) : CmdObj :=
  { id := id, cmdcode := setDrvExtra, parm := extraParm p, cmdsz := cmdsz, sctx := sctx }

/-- A command without one. -/
def plainCmd (id cmdcode cmdsz : Nat) (sctx : Bool) : CmdObj :=
  { id := id, cmdcode := cmdcode, parm := fun _ => 0, cmdsz := cmdsz, sctx := sctx }

/-- A whole call of `rtw_enqueue_cmd`. -/
def call (o : CmdObj) : List CmdEvent := [.enqueue o, .insert o.id, .raise o.id]

/-- So many steps of the thread. -/
def steps (n : Nat) : List CmdEvent := List.replicate n (.thread true 0)

/-- Two commands, one with a waiter and a buffer and one that is left when the thread stops. -/
def sampleRun : List CmdEvent :=
  steps 1 ++ call (extraCmd 1 7 24 true) ++ steps 6 ++ [.stop] ++ call (extraCmd 2 9 24 false)
    ++ [.setStopped true] ++ steps 5

theorem command_queue_sample :
    Reach (fun s e => .done (cmdStep s e)) (fun s e => Fresh s e ∧ Fine s e) (.init true)
        (play (.init true) sampleRun)
      ∧ (play (.init true) sampleRun).succeeded.map CmdObj.id = [1, 2]
      ∧ (play (.init true) sampleRun).running = false
      ∧ Accounted (play (.init true) sampleRun) := by
  have hreach : Reach (fun s e => .done (cmdStep s e)) (fun s e => Fresh s e ∧ Fine s e) (.init true)
      (play (.init true) sampleRun) := reach_play .start (by decide)
  exact ⟨hreach, by decide, by decide, command_queue_accounted true _ hreach⟩

/-! ## The slips -/

/-- A command of 1025 bytes. -/
def longRun : List CmdEvent := steps 1 ++ call (plainCmd 1 20 1025 false) ++ [.stop] ++ steps 6

/-- A command with a buffer before the thread has started. -/
def refusedRun : List CmdEvent := call (extraCmd 1 7 24 false)

/-- A disassociation, and the hardware goes away before its turn. -/
def disassocRun : List CmdEvent :=
  steps 1 ++ call (plainCmd 1 disConnect 8 false) ++ [.setHwInitCompleted false] ++ steps 6 ++ [.stop]
    ++ steps 6

/-- A stop while a command with a waiter is in the queue. -/
def waiterRun : List CmdEvent := steps 1 ++ call (plainCmd 1 20 8 true) ++ [.stop] ++ steps 6

/-- A call between the last look at the queue and the end of `cmdthd_running`. -/
def lateRun : List CmdEvent :=
  steps 1 ++ [.stop] ++ steps 3 ++ call (plainCmd 1 20 8 false) ++ steps 2

/-- A command with a buffer whose length does not cover its parameters, behind one with another. -/
def shortRun : List CmdEvent :=
  steps 1 ++ call (extraCmd 1 7 24 false) ++ call (extraCmd 2 9 0 false) ++ steps 11 ++ [.stop] ++ steps 6

/-- An object that is not freed once when the thread has ended. -/
theorem not_accounted_of_freed {s : CmdSys} {i : Nat} (hpc : s.pc = .done)
    (hi : i ∈ s.succeeded.map CmdObj.id) (hcount : s.log.count (.freed i) ≠ 1) : ¬ Accounted s := by
  intro h
  obtain ⟨o, ho, rfl⟩ := List.mem_map.mp hi
  exact hcount (h.freed o hpc ho).1.1

/-- Each of the slips leaves the accounts open: an object that is not freed, a buffer that is not freed
or freed twice, or a waiter that nobody signals. -/
theorem command_queue_slips :
    (∀ run ∈ [longRun, disassocRun, waiterRun, lateRun, shortRun],
      Reach (fun s e => .done (cmdStep s e)) Fresh (.init true) (play (.init true) run)
        ∧ ¬ Accounted (play (.init true) run))
      ∧ Reach (fun s e => .done (cmdStep s e)) Fresh (.init true) (play (.init true) refusedRun)
      ∧ ¬ Accounted (play (.init true) refusedRun) := by
  refine ⟨?_, reach_play .start (by decide), ?_⟩
  · intro run hrun
    simp only [List.mem_cons, List.not_mem_nil, or_false] at hrun
    rcases hrun with rfl | rfl | rfl | rfl | rfl
    · exact ⟨reach_play .start (by decide),
        not_accounted_of_freed (i := 1) rfl (by decide) (by decide)⟩
    · exact ⟨reach_play .start (by decide),
        not_accounted_of_freed (i := 1) rfl (by decide) (by decide)⟩
    · refine ⟨reach_play .start (by decide), ?_⟩
      intro h
      have hsucc : (play (.init true) waiterRun).succeeded = [plainCmd 1 20 8 true] := rfl
      have hlog : (play (.init true) waiterRun).log = [.queued 1, .freed 1] := by decide
      have hbefore := (h.freed (plainCmd 1 20 8 true) rfl (by rw [hsucc]; exact List.mem_cons_self)).2 rfl
      rw [hlog] at hbefore
      obtain ⟨m, hm, hsig⟩ := hbefore 1 rfl
      have hm0 : m = 0 := by omega
      rw [hm0] at hsig
      cases hsig
    · exact ⟨reach_play .start (by decide),
        not_accounted_of_freed (i := 1) rfl (by decide) (by decide)⟩
    · refine ⟨reach_play .start (by decide), ?_⟩
      intro h
      have hsucc : (play (.init true) shortRun).succeeded = [extraCmd 1 7 24 false, extraCmd 2 9 0 false] :=
        rfl
      have hbuf := (h.freed (extraCmd 1 7 24 false) rfl (by rw [hsucc]; exact List.mem_cons_self)).1.2 7
        (by decide)
      exact absurd hbuf (by decide)
  · intro h
    have hfail : (play (.init true) refusedRun).failed = [extraCmd 1 7 24 false] := rfl
    have hbuf := (h.refused (extraCmd 1 7 24 false) (by rw [hfail]; exact List.mem_cons_self)).2 7
      (by decide)
    exact absurd hbuf (by decide)

end Rtl8812au.Cmd
