import SocksProxy.Selecting

/-! `struct fdselector` as the code lays it out: the growing table of items and
the sets of bits that mirror their interests.  The selector of the other modules
is what it represents. -/

namespace SocksProxy

/-- `struct item`; `none` stands for `FD_UNUSED` and for a null handler. -/
structure Slot where
  fd : Option Fd
  interest : Interest
  handler : Option FdHandler
  data : Ptr
  deriving DecidableEq, Repr

def Slot.zeroed : Slot := ⟨some 0, opNoop, none, 0⟩

def itemInit (slot : Slot) : Slot := { slot with fd := none }

def Slot.item (slot : Slot) : Option Item :=
  slot.fd.bind fun _ => slot.handler.map fun handler =>
    ⟨slot.interest, handler, slot.data⟩

/-- `fds` has `fd_size` slots; a null pointer is the empty table. -/
structure FdSelector where
  fds : List Slot
  maxFd : Nat
  masterR : Fd → Bool
  masterW : Fd → Bool
  slaveR : Fd → Bool
  slaveW : Fd → Bool
  resolutionJobs : List Job

/-- The loop of `next_capacity`, which counts how often `tmp` can be halved. -/
def halvings : Nat → Nat → Nat
  | 0, _ => 0
  | fuel + 1, tmp => if tmp = 0 then 0 else halvings fuel (tmp / 2) + 1

def nextCapacity (n : Nat) : Nat :=
  let tmp := 1 <<< halvings n n
  (if tmp > itemsMaxSize then itemsMaxSize else tmp) + 1

/-- A table of `size` slots: the old ones, and new ones that `item_init`
marked. -/
def grown (fds : List Slot) (size : Nat) (fresh : Nat → Slot) : List Slot :=
  (List.range size).map fun i => (fds[i]?).getD (itemInit (fresh i))

namespace FdSelector

def zeroed : FdSelector where
  fds := []
  maxFd := 0
  masterR := fun _ => false
  masterW := fun _ => false
  slaveR := fun _ => false
  slaveW := fun _ => false
  resolutionJobs := []

def fdSize (s : FdSelector) : Nat := s.fds.length

/-- `memory` is what the allocator has: nothing, or slots whose contents nobody
knows. Those of `calloc` are blank. -/
def ensureCapacity (s : FdSelector) (n : Nat) (memory : Option (Nat → Slot)) :
    FdSelector × SelectorStatus :=
  if n < s.fdSize then (s, .success)
  else if n > itemsMaxSize then (s, .maxfd)
  else
    match memory with
    | none => (s, .enomem)
    | some fresh =>
        let fresh := if s.fds = [] then fun _ => Slot.zeroed else fresh
        ({ s with fds := grown s.fds (nextCapacity n) fresh }, .success)

/-- `selector_new`; `object` tells whether `malloc` found room for the
selector. -/
def selectorNew (initialElements : Nat) (object : Bool)
    (memory : Option (Nat → Slot)) : Option FdSelector :=
  if object then
    match zeroed.ensureCapacity initialElements memory with
    | (s, .success) => some s
    | _ => none
  else none

/-- `items_update_fdset_for_fd`; there is no bit for an item that is not in
use. -/
def itemsUpdateFdsetForFd (s : FdSelector) (slot : Slot) : Option FdSelector :=
  slot.fd.map fun fd =>
    { s with
      masterR := Function.update s.masterR fd slot.interest.read
      masterW := Function.update s.masterW fd slot.interest.write }

/-- `items_max_fd`; like the functions below it is `none` when it would look at
a slot outside the table. -/
def itemsMaxFd (s : FdSelector) : Option Nat :=
  (List.range (s.maxFd + 1)).foldlM
    (fun max i => (s.fds[i]?).map fun slot =>
      match slot.fd with
      | some fd => if fd > max then fd else max
      | none => max) 0

def selectorRegister (s : FdSelector) (fd : Fd) (handler : FdHandler)
    (interest : Interest) (data : Ptr) (memory : Option (Nat → Slot)) :
    Option (FdSelector × SelectorStatus) :=
  if invalidFd fd then some (s, .iargs)
  else
    match if fd > s.fdSize then s.ensureCapacity fd memory
          else (s, .success) with
    | (s, .success) =>
        (s.fds[fd]?).bind fun slot =>
          if slot.fd.isSome then some (s, .fdinuse)
          else
            let slot : Slot := ⟨some fd, interest, some handler, data⟩
            let s := { s with
              fds := s.fds.set fd slot
              maxFd := if fd > s.maxFd then fd else s.maxFd }
            (s.itemsUpdateFdsetForFd slot).map fun s => (s, .success)
    | (s, status) => some (s, status)

/-- `selector_unregister_fd`, whose close callback does not look at the
selector. -/
def selectorUnregisterFd (s : FdSelector) (fd : Fd) :
    Option (FdSelector × SelectorStatus) :=
  if invalidFd fd then some (s, .iargs)
  else
    (s.fds[fd]?).bind fun slot =>
      if slot.fd.isNone then some (s, .iargs)
      else
        let slot := { slot with interest := opNoop }
        ({ s with fds := s.fds.set fd slot }.itemsUpdateFdsetForFd slot).bind
            fun s =>
          let s := { s with fds := s.fds.set fd (itemInit .zeroed) }
          s.itemsMaxFd.map fun max => ({ s with maxFd := max }, .success)

def selectorSetInterest (s : FdSelector) (fd : Fd) (i : Interest) :
    Option (FdSelector × SelectorStatus) :=
  if invalidFd fd then some (s, .iargs)
  else
    (s.fds[fd]?).bind fun slot =>
      if slot.fd.isNone then some (s, .iargs)
      else
        let slot := { slot with interest := i }
        ({ s with fds := s.fds.set fd slot }.itemsUpdateFdsetForFd slot).map
            fun s =>
          (s, .success)

end FdSelector

private theorem lt_halvings {fuel tmp : Nat} (enough : tmp ≤ fuel) :
    tmp < 1 <<< halvings fuel tmp := by
  induction fuel generalizing tmp with
  | zero =>
      obtain rfl := Nat.le_zero.mp enough
      exact Nat.one_pos
  | succ fuel induction =>
      unfold halvings
      split
      next zero =>
        subst zero
        exact Nat.one_pos
      next nonzero =>
        have half := @induction (tmp / 2) (by omega)
        rw [Nat.shiftLeft_succ]
        omega

/-- The assertion of `next_capacity` holds, and the number itself gets a
slot. -/
theorem lt_nextCapacity {n : Nat} (small : n ≤ itemsMaxSize) :
    n < nextCapacity n := by
  have power := lt_halvings (Nat.le_refl n)
  unfold nextCapacity
  dsimp only
  split <;> omega

theorem getElem?_grown (fds : List Slot) (size : Nat) (fresh : Nat → Slot)
    {i : Nat} (inside : i < size) :
    (grown fds size fresh)[i]? =
      some ((fds[i]?).getD (itemInit (fresh i))) := by
  simp [grown, inside]

@[simp] theorem length_grown (fds : List Slot) (size : Nat)
    (fresh : Nat → Slot) :
    (grown fds size fresh).length = size := by
  simp [grown]

/-- The calls that use a selector.  One that may grow the table says what memory
there is; `notified` is the end of a job in `handle_block_notifications`. -/
inductive SelectorCall
  | register (fd : Fd) (handler : FdHandler) (interest : Interest) (data : Ptr)
      (memory : Option (Nat → Slot))
  | unregister (fd : Fd)
  | setInterest (fd : Fd) (i : Interest)
  | select (readable writable : Fd → Bool)
  | notifyBlock (job : Job)
  | notified

def FdSelector.perform (s : FdSelector) :
    SelectorCall → Option (FdSelector × SelectorStatus)
  | .register fd handler interest data memory =>
      s.selectorRegister fd handler interest data memory
  | .unregister fd => s.selectorUnregisterFd fd
  | .setInterest fd i => s.selectorSetInterest fd i
  | .select readable writable =>
      some ({ s with
        slaveR := fun fd => readable fd && s.masterR fd
        slaveW := fun fd => writable fd && s.masterW fd }, .success)
  | .notifyBlock job =>
      some ({ s with resolutionJobs := job :: s.resolutionJobs }, .success)
  | .notified =>
      some ({ s with resolutionJobs := s.resolutionJobs.tail }, .success)

namespace Selector

def perform (s : Selector) : SelectorCall → Selector × SelectorStatus
  | .register fd handler interest data _ =>
      selectorRegister s fd handler interest data
  | .unregister fd =>
      if invalidFd fd ∨ s.items fd = none then (s, .iargs)
      else (selectorRemove s fd, .success)
  | .setInterest fd i => selectorSetInterest s fd i
  | .select readable writable =>
      ({ s with
        slaveR := fun fd => readable fd && s.masterR fd
        slaveW := fun fd => writable fd && s.masterW fd }, .success)
  | .notifyBlock job =>
      ({ s with resolutionJobs := job :: s.resolutionJobs }, .success)
  | .notified => ({ s with resolutionJobs := s.resolutionJobs.tail }, .success)

theorem masterR_setItem (s : Selector) (fd : Fd) (item : Option Item) :
    (s.setItem fd item).masterR =
      Function.update s.masterR fd (item.any fun item =>
        item.interest.read) := by
  funext other
  unfold masterR
  by_cases same : other = fd
  · subst same
    rw [items_setItem_self, Function.update_self]
  · rw [items_setItem_ne _ _ same, Function.update_of_ne same]

theorem masterW_setItem (s : Selector) (fd : Fd) (item : Option Item) :
    (s.setItem fd item).masterW =
      Function.update s.masterW fd (item.any fun item =>
        item.interest.write) := by
  funext other
  unfold masterW
  by_cases same : other = fd
  · subst same
    rw [items_setItem_self, Function.update_self]
  · rw [items_setItem_ne _ _ same, Function.update_of_ne same]

end Selector

inductive Slot.Holds : Slot → Fd → Option Item → Prop
  | unused {slot : Slot} {fd : Fd} (free : slot.fd = none) : Holds slot fd none
  | used (fd : Fd) (item : Item) :
      Holds ⟨some fd, item.interest, some item.handler, item.data⟩
        fd (some item)

theorem Slot.Holds.isSome {slot : Slot} {fd : Fd} {item : Option Item}
    (holds : slot.Holds fd item) : slot.fd.isSome = item.isSome := by
  cases holds with
  | unused free => exact congrArg Option.isSome free
  | used => rfl

structure FdSelector.Represents (raw : FdSelector) (s : Selector) : Prop where
  slots : ∀ fd (slot : Slot), raw.fds[fd]? = some slot →
    slot.Holds fd (s.items fd)
  beyond : ∀ fd, raw.fdSize ≤ fd → s.items fd = none
  maxFd : raw.maxFd = s.maxFd
  inside : raw.maxFd < raw.fdSize
  masterR : raw.masterR = s.masterR
  masterW : raw.masterW = s.masterW
  slaveR : raw.slaveR = s.slaveR
  slaveW : raw.slaveW = s.slaveW
  resolutionJobs : raw.resolutionJobs = s.resolutionJobs

namespace FdSelector.Represents

variable {raw : FdSelector} {s : Selector}

theorem slot (represents : raw.Represents s) {fd : Fd}
    (inside : fd < raw.fdSize) :
    ∃ slot, raw.fds[fd]? = some slot ∧ slot.Holds fd (s.items fd) := by
  obtain ⟨slot, held⟩ : ∃ slot, raw.fds[fd]? = some slot :=
    ⟨_, List.getElem?_eq_getElem inside⟩
  exact ⟨slot, held, represents.slots fd slot held⟩

theorem setItem (represents : raw.Represents s) {fd : Fd}
    (inside : fd < raw.fdSize) {slot : Slot} {item : Option Item}
    (holds : slot.Holds fd item) {max : Nat} (below : max < raw.fdSize) :
    Represents { raw with
      fds := raw.fds.set fd slot
      masterR :=
        Function.update raw.masterR fd (item.any fun item => item.interest.read)
      masterW :=
        Function.update raw.masterW fd (item.any fun item =>
        item.interest.write)
      maxFd := max } { s.setItem fd item with maxFd := max } where
  slots other found held := by
    by_cases same : other = fd
    · subst same
      rw [List.getElem?_set_self inside] at held
      cases held
      change slot.Holds other ((s.setItem other item).items other)
      rwa [Selector.items_setItem_self]
    · rw [List.getElem?_set_ne (Ne.symm same)] at held
      change found.Holds other ((s.setItem fd item).items other)
      rw [Selector.items_setItem_ne _ _ same]
      exact represents.slots other found held
  beyond other above := by
    have beyond : raw.fdSize ≤ other := by simpa [fdSize] using above
    have apart : other ≠ fd := fun same => absurd inside (same ▸ beyond).not_gt
    change (s.setItem fd item).items other = none
    rw [Selector.items_setItem_ne _ _ apart]
    exact represents.beyond other beyond
  maxFd := rfl
  inside := by simpa [fdSize] using below
  masterR := by
    change _ = (s.setItem fd item).masterR
    rw [Selector.masterR_setItem, represents.masterR]
  masterW := by
    change _ = (s.setItem fd item).masterW
    rw [Selector.masterW_setItem, represents.masterW]
  slaveR := represents.slaveR
  slaveW := represents.slaveW
  resolutionJobs := represents.resolutionJobs

theorem marked (represents : raw.Represents s)
    {readable writable slaveR slaveW : Fd → Bool} {queue jobs : List Job}
    (reads : readable = slaveR) (writes : writable = slaveW)
    (same : queue = jobs) :
    Represents
      { raw with
        slaveR := readable
        slaveW := writable
        resolutionJobs := queue }
      { s with slaveR := slaveR, slaveW := slaveW, resolutionJobs := jobs }
      where
  slots := represents.slots
  beyond := represents.beyond
  maxFd := represents.maxFd
  inside := represents.inside
  masterR := represents.masterR
  masterW := represents.masterW
  slaveR := reads
  slaveW := writes
  resolutionJobs := same

/-- Both loops find the same greatest descriptor. -/
theorem itemsMaxFd (represents : raw.Represents s) :
    raw.itemsMaxFd = some (SocksProxy.itemsMaxFd s) := by
  have loop : ∀ (fds : List Fd) (max : Nat), (∀ fd ∈ fds, fd < raw.fdSize) →
      fds.foldlM (fun max i => (raw.fds[i]?).map fun slot =>
        match slot.fd with
        | some fd => if fd > max then fd else max
        | none => max) max =
      some (fds.foldl (fun max i =>
        if (s.items i).isSome ∧ i > max then i else max) max) := by
    intro fds
    induction fds with
    | nil => exact fun _ _ => rfl
    | cons fd fds induction =>
        intro max inside
        obtain ⟨slot, held, holds⟩ :=
          represents.slot (inside fd List.mem_cons_self)
        rw [List.foldlM_cons, held, List.foldl_cons]
        refine (induction _ fun other among =>
          inside other (List.mem_cons_of_mem _ among)).trans ?_
        generalize s.items fd = item at holds
        cases holds with
        | unused free => simp [free]
        | used => simp
  unfold FdSelector.itemsMaxFd SocksProxy.itemsMaxFd
  rw [represents.maxFd]
  refine loop _ 0 fun fd among => ?_
  have below := List.mem_range.mp among
  have room := represents.inside
  rw [represents.maxFd] at room
  exact Nat.lt_of_le_of_lt (Nat.le_of_lt_succ below) room

theorem grow (represents : raw.Represents s) {size : Nat}
    (more : raw.fdSize ≤ size) (fresh : Nat → Slot) :
    Represents { raw with fds := grown raw.fds size fresh } s where
  slots fd slot held := by
    have inside : fd < size := by
      simpa using (List.getElem?_eq_some_iff.mp held).1
    rw [getElem?_grown _ _ _ inside] at held
    by_cases old : fd < raw.fdSize
    · obtain ⟨before, found, holds⟩ := represents.slot old
      rw [found] at held
      cases held
      exact holds
    · rw [List.getElem?_eq_none (Nat.le_of_not_lt old)] at held
      cases held
      rw [represents.beyond fd (Nat.le_of_not_lt old)]
      exact .unused rfl
  beyond fd above := by
    have above : size ≤ fd := by simpa [fdSize] using above
    exact represents.beyond fd (more.trans above)
  maxFd := represents.maxFd
  inside := by
    have room := represents.inside.trans_le more
    simpa [fdSize] using room
  masterR := represents.masterR
  masterW := represents.masterW
  slaveR := represents.slaveR
  slaveW := represents.slaveW
  resolutionJobs := represents.resolutionJobs

theorem ensureCapacity (represents : raw.Represents s) {fd : Fd}
    (above : raw.fdSize ≤ fd) (valid : fd < itemsMaxSize) (fresh : Nat → Slot) :
    ∃ after, raw.ensureCapacity fd (some fresh) = (after, .success) ∧
      after.Represents s ∧ fd < after.fdSize ∧ raw.fdSize ≤ after.fdSize := by
  have nonempty : raw.fds ≠ [] := by
    intro none
    have room := represents.inside
    rw [fdSize, none] at room
    cases room
  have more := lt_nextCapacity (Nat.le_of_lt valid)
  refine ⟨{ raw with fds := grown raw.fds (nextCapacity fd) fresh },
    ?_, ?_, ?_, ?_⟩
  · unfold FdSelector.ensureCapacity
    rw [if_neg above.not_gt, if_neg (Nat.le_of_lt valid).not_gt]
    simp [nonempty]
  · exact represents.grow (above.trans (Nat.le_of_lt more)) fresh
  · simpa [fdSize] using more
  · simpa [fdSize] using above.trans (Nat.le_of_lt more)

end FdSelector.Represents

/-- A call looks at a slot that the table does not have. -/
def SelectorCall.Overruns (size : Nat) : SelectorCall → Prop
  | .register fd _ _ _ _ => fd < itemsMaxSize ∧ fd = size
  | .unregister fd | .setInterest fd _ => fd < itemsMaxSize ∧ size ≤ fd
  | .select _ _ | .notifyBlock _ | .notified => False

inductive Performed (call : SelectorCall) (raw : FdSelector) (s : Selector) :
    Option (FdSelector × SelectorStatus) → Prop
  | overrun (overruns : call.Overruns raw.fdSize) : Performed call raw s none
  | starved (fd : Fd) (handler : FdHandler) (interest : Interest) (data : Ptr)
      (register : call = .register fd handler interest data none)
      (valid : fd < itemsMaxSize) (above : raw.fdSize < fd) :
      Performed call raw s (some (raw, .enomem))
  | done {after : FdSelector} {status : SelectorStatus}
      (within : ¬ call.Overruns raw.fdSize)
      (agrees : (s.perform call).2 = status)
      (represents : after.Represents (s.perform call).1)
      (size : raw.fdSize ≤ after.fdSize) :
      Performed call raw s (some (after, status))

section Calls

variable {raw : FdSelector} {s : Selector}

theorem Performed.refused {call : SelectorCall} {status : SelectorStatus}
    (represents : raw.Represents s) (within : ¬ call.Overruns raw.fdSize)
    (same : s.perform call = (s, status)) :
    Performed call raw s (some (raw, status)) := by
  refine .done within (congrArg Prod.snd same) ?_ (Nat.le_refl _)
  rw [same]
  exact represents

theorem valid_of_not {fd : Fd} (valid : ¬ invalidFd fd = true) :
    fd < itemsMaxSize :=
  Nat.lt_of_not_le fun above => valid (decide_eq_true above)

theorem performed_setInterest (represents : raw.Represents s) (fd : Fd)
    (i : Interest) :
    Performed (.setInterest fd i) raw s (raw.selectorSetInterest fd i) := by
  unfold FdSelector.selectorSetInterest
  by_cases invalid : invalidFd fd
  · rw [if_pos invalid]
    refine .refused represents (fun overruns => ?_) (if_pos invalid)
    exact absurd overruns.1 (of_decide_eq_true invalid).not_gt
  rw [if_neg invalid]
  by_cases inside : fd < raw.fdSize
  · have within : ¬ SelectorCall.Overruns raw.fdSize (.setInterest fd i) :=
      fun overruns => absurd inside overruns.2.not_gt
    obtain ⟨slot, held, holds⟩ := represents.slot inside
    rw [held]
    generalize known : s.items fd = item at holds
    cases holds with
    | unused free =>
        simp only [Option.bind_some, free, Option.isNone_none, if_true]
        refine .refused represents within ?_
        change selectorSetInterest s fd i = _
        unfold selectorSetInterest
        rw [if_neg invalid, known]
    | used _ item =>
        have same : s.perform (.setInterest fd i) =
            (s.setItem fd (some { item with interest := i }), .success) := by
          change selectorSetInterest s fd i = _
          unfold selectorSetInterest
          rw [if_neg invalid, known]
        refine .done within (congrArg Prod.snd same) ?_
          (Nat.le_of_eq List.length_set.symm)
        rw [same]
        have after :=
          represents.setItem inside (.used fd { item with interest := i })
          represents.inside
        rw [represents.maxFd] at after
        exact represents.maxFd ▸ after
  · rw [List.getElem?_eq_none (Nat.le_of_not_lt inside)]
    exact .overrun ⟨valid_of_not invalid, Nat.le_of_not_lt inside⟩

theorem performed_unregister (represents : raw.Represents s) (fd : Fd) :
    Performed (.unregister fd) raw s (raw.selectorUnregisterFd fd) := by
  unfold FdSelector.selectorUnregisterFd
  by_cases invalid : invalidFd fd
  · rw [if_pos invalid]
    refine .refused represents (fun overruns => ?_) (if_pos (.inl invalid))
    exact absurd overruns.1 (of_decide_eq_true invalid).not_gt
  rw [if_neg invalid]
  by_cases inside : fd < raw.fdSize
  · have within : ¬ SelectorCall.Overruns raw.fdSize (.unregister fd) :=
      fun overruns => absurd inside overruns.2.not_gt
    obtain ⟨slot, held, holds⟩ := represents.slot inside
    rw [held]
    generalize known : s.items fd = item at holds
    cases holds with
    | unused free =>
        simp only [Option.bind_some, free, Option.isNone_none, if_true]
        exact .refused represents within (if_pos (.inr known))
    | used _ item =>
        have same : s.perform (.unregister fd) =
            (selectorRemove s fd, .success) := by
          refine if_neg fun refused => ?_
          rcases refused with refused | free
          · exact invalid refused
          · rw [known] at free
            cases free
        have free : Slot.Holds (itemInit .zeroed) fd none := .unused rfl
        have emptied := represents.setItem inside free represents.inside
        have max : FdSelector.itemsMaxFd { raw with
            fds := raw.fds.set fd (itemInit .zeroed)
            masterR := Function.update raw.masterR fd opNoop.read
            masterW := Function.update raw.masterW fd opNoop.write } =
              some (itemsMaxFd { s.setItem fd none with maxFd := raw.maxFd }) :=
          emptied.itemsMaxFd
        simp only [Option.bind_some, Option.isNone_some, Bool.false_eq_true,
          if_false, FdSelector.itemsUpdateFdsetForFd, Option.map_some,
          List.set_set, max]
        rw [represents.maxFd]
        refine .done within (congrArg Prod.snd same) ?_
          (Nat.le_of_eq List.length_set.symm)
        rw [same]
        refine represents.setItem inside free
          (Nat.lt_of_le_of_lt ?_ represents.inside)
        exact (itemsMaxFd_le (s.setItem fd none)).trans_eq represents.maxFd.symm
  · rw [List.getElem?_eq_none (Nat.le_of_not_lt inside)]
    exact .overrun ⟨valid_of_not invalid, Nat.le_of_not_lt inside⟩

theorem performed_insert {table : FdSelector} (represents : table.Represents s)
    (more : raw.fdSize ≤ table.fdSize) {fd : Fd} (inside : fd < table.fdSize)
    (within : fd ≠ raw.fdSize) (invalid : ¬ invalidFd fd = true)
    (handler : FdHandler) (interest : Interest) (data : Ptr)
    (memory : Option (Nat → Slot)) :
    Performed (.register fd handler interest data memory) raw s
      ((table.fds[fd]?).bind fun slot =>
        if slot.fd.isSome then some (table, .fdinuse)
        else
          let slot : Slot := ⟨some fd, interest, some handler, data⟩
          let after := { table with
            fds := table.fds.set fd slot
            maxFd := if fd > table.maxFd then fd else table.maxFd }
          (after.itemsUpdateFdsetForFd slot).map fun after =>
            (after, .success)) := by
  have within : ¬ SelectorCall.Overruns raw.fdSize
      (.register fd handler interest data memory) :=
    fun overruns => within overruns.2
  obtain ⟨slot, held, holds⟩ := represents.slot inside
  rw [held]
  generalize known : s.items fd = item at holds
  cases holds with
  | used _ item =>
      have same : s.perform (.register fd handler interest data memory) =
          (s, .fdinuse) := by
        change selectorRegister s fd handler interest data = _
        unfold selectorRegister
        rw [if_neg invalid, known]
      simp only [Option.bind_some, Option.isSome_some, if_true]
      refine .done within (congrArg Prod.snd same) ?_ more
      rw [same]
      exact represents
  | unused free =>
      have same : s.perform (.register fd handler interest data memory) =
          ({ s.setItem fd (some ⟨interest, handler, data⟩) with
              maxFd := if fd > s.maxFd then fd else s.maxFd }, .success) := by
        change selectorRegister s fd handler interest data = _
        unfold selectorRegister
        rw [if_neg invalid, known]
      simp only [Option.bind_some, free, Option.isSome_none, Bool.false_eq_true,
        if_false, FdSelector.itemsUpdateFdsetForFd, Option.map_some]
      refine .done within (congrArg Prod.snd same) ?_
        (more.trans (Nat.le_of_eq List.length_set.symm))
      rw [same, represents.maxFd]
      refine represents.setItem inside (.used fd ⟨interest, handler, data⟩) ?_
      have room := represents.inside
      rw [represents.maxFd] at room
      split
      · exact inside
      · exact room

theorem performed_register (represents : raw.Represents s) (fd : Fd)
    (handler : FdHandler) (interest : Interest) (data : Ptr)
    (memory : Option (Nat → Slot)) :
    Performed (.register fd handler interest data memory) raw s
      (raw.selectorRegister fd handler interest data memory) := by
  unfold FdSelector.selectorRegister
  by_cases invalid : invalidFd fd
  · rw [if_pos invalid]
    refine .refused represents (fun overruns => ?_) (if_pos invalid)
    exact absurd overruns.1 (of_decide_eq_true invalid).not_gt
  rw [if_neg invalid]
  have valid := valid_of_not invalid
  by_cases above : fd > raw.fdSize
  · rw [if_pos above]
    cases memory with
    | none =>
        have starved : raw.ensureCapacity fd none = (raw, .enomem) := by
          unfold FdSelector.ensureCapacity
          rw [if_neg (Nat.le_of_lt above).not_gt,
            if_neg (Nat.le_of_lt valid).not_gt]
        rw [starved]
        exact .starved fd handler interest data rfl valid above
    | some fresh =>
        obtain ⟨table, grown, same, inside, more⟩ :=
          represents.ensureCapacity (Nat.le_of_lt above) valid fresh
        rw [grown]
        exact performed_insert same more inside (Nat.ne_of_gt above) invalid
          handler interest data (some fresh)
  · rw [if_neg above]
    by_cases inside : fd < raw.fdSize
    · exact performed_insert represents (Nat.le_refl _) inside
        (Nat.ne_of_lt inside) invalid handler interest data memory
    · have out : raw.fds[fd]? = none :=
        List.getElem?_eq_none (Nat.le_of_not_lt inside)
      simp only [out, Option.bind_none]
      exact .overrun
        ⟨valid, Nat.le_antisymm (Nat.le_of_not_lt above)
        (Nat.le_of_not_lt inside)⟩

theorem performed (represents : raw.Represents s) (call : SelectorCall) :
    Performed call raw s (raw.perform call) := by
  cases call with
  | register fd handler interest data memory =>
      exact performed_register represents fd handler interest data memory
  | unregister fd => exact performed_unregister represents fd
  | setInterest fd i => exact performed_setInterest represents fd i
  | select readable writable =>
      refine .done id rfl ?_ (Nat.le_refl _)
      refine represents.marked (funext fun fd => ?_) (funext fun fd => ?_)
        represents.resolutionJobs
      · rw [represents.masterR]
      · rw [represents.masterW]
  | notifyBlock job =>
      refine .done id rfl ?_ (Nat.le_refl _)
      exact represents.marked represents.slaveR represents.slaveW
        (congrArg (job :: ·) represents.resolutionJobs)
  | notified =>
      refine .done id rfl ?_ (Nat.le_refl _)
      exact represents.marked represents.slaveR represents.slaveW
        (congrArg List.tail represents.resolutionJobs)

end Calls

/-! Calls one after another -/

def FdSelector.performs : List SelectorCall → FdSelector →
    Option (FdSelector × List SelectorStatus)
  | [], s => some (s, [])
  | call :: calls, s =>
      (s.perform call).bind fun (s, status) =>
        (performs calls s).map fun (s, statuses) => (s, status :: statuses)

def Selector.performs :
    List SelectorCall → Selector → Selector × List SelectorStatus
  | [], s => (s, [])
  | call :: calls, s =>
      let (s, status) := s.perform call
      let (s, statuses) := performs calls s
      (s, status :: statuses)

theorem Selector.performs_append (first second : List SelectorCall)
    (s : Selector) :
    (performs (first ++ second) s).1 =
      (performs second (performs first s).1).1 := by
  induction first generalizing s with
  | nil => rfl
  | cons call first induction => exact induction (s.perform call).1

def SelectorCall.plain : SelectorCall → Prop
  | .register _ _ _ _ _ | .unregister _ | .setInterest _ _ => True
  | .select _ _ | .notifyBlock _ | .notified => False

def Selector.Operated (s t : Selector) : Prop :=
  ∃ calls, (∀ call ∈ calls, SelectorCall.plain call) ∧ (performs calls s).1 = t

namespace Selector

variable {s t u : Selector}

theorem Spanned.perform (spanned : s.Spanned) (call : SelectorCall) :
    (s.perform call).1.Spanned := by
  cases call with
  | register fd handler interest data =>
      exact spanned.register fd handler interest data
  | unregister fd =>
      unfold Selector.perform
      dsimp only
      split
      · exact spanned
      · exact spanned.remove fd
  | setInterest fd i => exact spanned.setInterest fd i
  | select | notifyBlock | notified => exact spanned.congr rfl fun _ => rfl

theorem Spanned.performs (spanned : s.Spanned) (calls : List SelectorCall) :
    (s.performs calls).1.Spanned := by
  induction calls generalizing s with
  | nil => exact spanned
  | cons call calls induction => exact induction (spanned.perform call)

theorem perform_kept {call : SelectorCall} (plain : call.plain) :
    (s.perform call).1.slaveR = s.slaveR ∧
      (s.perform call).1.slaveW = s.slaveW ∧
      (s.perform call).1.resolutionJobs = s.resolutionJobs := by
  cases call with
  | register fd handler interest data =>
      unfold Selector.perform selectorRegister
      dsimp only
      split
      · exact ⟨rfl, rfl, rfl⟩
      · split <;> exact ⟨rfl, rfl, rfl⟩
  | unregister fd =>
      unfold Selector.perform
      dsimp only
      split <;> exact ⟨rfl, rfl, rfl⟩
  | setInterest fd i =>
      unfold Selector.perform selectorSetInterest
      dsimp only
      split
      · exact ⟨rfl, rfl, rfl⟩
      · split <;> exact ⟨rfl, rfl, rfl⟩
  | select | notifyBlock | notified => exact plain.elim

namespace Operated

theorem refl (s : Selector) : Operated s s :=
  ⟨[], fun _ among => absurd among List.not_mem_nil, rfl⟩

theorem trans (first : Operated s t) (second : Operated t u) :
    Operated s u := by
  obtain ⟨front, plain, ran⟩ := first
  obtain ⟨back, other, then_⟩ := second
  refine ⟨front ++ back, fun call among => ?_, ?_⟩
  · exact (List.mem_append.mp among).elim (plain call) (other call)
  · rw [performs_append, ran, then_]

theorem call (before : Operated s t) (made : SelectorCall)
    (plain : made.plain) :
    Operated s (t.perform made).1 := by
  refine before.trans ⟨[made], fun call among => ?_, rfl⟩
  exact List.mem_singleton.mp among ▸ plain

theorem setInterest (before : Operated s t) (fd : Fd) (i : Interest) :
    Operated s (selectorSetInterest t fd i).1 :=
  before.call (.setInterest fd i) trivial

theorem register (before : Operated s t) (fd : Fd) (handler : FdHandler)
    (i : Interest) (data : Ptr) :
    Operated s (selectorRegister t fd handler i data).1 :=
  before.call (.register fd handler i data none) trivial

theorem remove (before : Operated s t) (fd : Fd) (valid : ¬ invalidFd fd = true)
    (used : (t.items fd).isSome) : Operated s (selectorRemove t fd) := by
  have same : (t.perform (.unregister fd)).1 = selectorRemove t fd := by
    refine congrArg Prod.fst (if_neg fun refused => ?_)
    rcases refused with invalid | free
    · exact valid invalid
    · rw [free] at used
      cases used
  exact same ▸ before.call (.unregister fd) trivial

theorem kept (operated : Operated s t) :
    t.slaveR = s.slaveR ∧ t.slaveW = s.slaveW ∧
      t.resolutionJobs = s.resolutionJobs := by
  obtain ⟨calls, plain, rfl⟩ := operated
  induction calls generalizing s with
  | nil => exact ⟨rfl, rfl, rfl⟩
  | cons call calls induction =>
      have one := @perform_kept s call (plain call List.mem_cons_self)
      have rest := @induction (s.perform call).1 fun other among =>
        plain other (List.mem_cons_of_mem _ among)
      exact ⟨rest.1.trans one.1, rest.2.1.trans one.2.1, rest.2.2.trans one.2.2⟩

end Operated

end Selector

theorem represents_selectorNew {initialElements : Nat} {object : Bool}
    {memory : Option (Nat → Slot)} {raw : FdSelector}
    (made : FdSelector.selectorNew initialElements object memory = some raw) :
    raw.Represents selectorNew ∧ raw.fdSize = nextCapacity initialElements := by
  have empty (size : Nat) (room : 0 < size) : FdSelector.Represents
      { FdSelector.zeroed with fds := grown [] size fun _ => .zeroed }
      selectorNew :=
    { slots := fun fd slot held => by
        have inside :
            fd < size := by simpa using (List.getElem?_eq_some_iff.mp held).1
        rw [getElem?_grown _ _ _ inside] at held
        cases held
        exact .unused rfl
      beyond := fun _ _ => rfl
      maxFd := rfl
      inside := room.trans_eq (length_grown ..).symm
      masterR := rfl
      masterW := rfl
      slaveR := rfl
      slaveW := rfl
      resolutionJobs := rfl }
  unfold FdSelector.selectorNew FdSelector.ensureCapacity at made
  cases object with
  | false => cases made
  | true =>
      have unmade : ¬ initialElements < FdSelector.zeroed.fdSize :=
        Nat.not_lt_zero _
      rw [if_pos rfl, if_neg unmade] at made
      split at made
      next table grew =>
        split at grew
        · cases grew
        next small =>
          cases memory with
          | none => cases grew
          | some fresh =>
              cases grew
              cases made
              have room := lt_nextCapacity (Nat.le_of_not_lt small)
              refine ⟨empty _ (Nat.zero_lt_of_lt room), length_grown ..⟩
      next => cases made

theorem Performed.overruns_iff {call : SelectorCall} {raw : FdSelector}
    {s : Selector} {result : Option (FdSelector × SelectorStatus)}
    (one : Performed call raw s result) :
    result = none ↔ call.Overruns raw.fdSize := by
  cases one with
  | overrun overruns => exact iff_of_true rfl overruns
  | starved fd handler interest data register valid above =>
      refine iff_of_false (by simp) fun overruns => ?_
      rw [register] at overruns
      exact absurd overruns.2 (Nat.ne_of_gt above)
  | done within => exact iff_of_false (by simp) within

theorem represents_run {raw after : FdSelector} {s : Selector}
    {calls : List SelectorCall} {statuses : List SelectorStatus}
    (represents : raw.Represents s)
    (ran : raw.performs calls = some (after, statuses)) :
    ∃ t, after.Represents t := by
  induction calls generalizing raw s statuses with
  | nil =>
      cases ran
      exact ⟨s, represents⟩
  | cons call calls induction =>
      have one := performed represents call
      obtain ⟨⟨middle, status⟩, first, mapped⟩ := Option.bind_eq_some_iff.mp ran
      obtain ⟨⟨last, others⟩, rest, same⟩ := Option.map_eq_some_iff.mp mapped
      cases same
      rw [first] at one
      cases one with
      | starved => exact induction represents rest
      | done within agrees represents size => exact induction represents rest

/-- A table of any size does what the selector does that it represents, growing
where it has to, but for want of memory; and it is overrun by those calls alone
that look at a slot it does not have.  Among them is the registration of the
number right behind the table, for which `selector_register` does not make
room. -/
theorem table_grows {initialElements : Nat} {object : Bool}
    {memory : Option (Nat → Slot)} {raw after : FdSelector}
    {calls : List SelectorCall} {statuses : List SelectorStatus}
    (made : FdSelector.selectorNew initialElements object memory = some raw)
    (ran : raw.performs calls = some (after, statuses)) :
    ∃ s, after.Represents s ∧
      ∀ call, Performed call after s (after.perform call) ∧
      (after.perform call = none ↔ call.Overruns after.fdSize) := by
  obtain ⟨s, represents⟩ := represents_run (represents_selectorNew made).1 ran
  refine ⟨s, represents, fun call => ⟨performed represents call, ?_⟩⟩
  exact (performed represents call).overruns_iff

theorem table_grows_short : ∃ raw,
    FdSelector.selectorNew 0 true (some fun _ => .zeroed) = some raw ∧
    raw.perform (.register 2 .socks5 opRead 0 (some fun _ => .zeroed)) =
      none := by
  obtain ⟨raw, made⟩ :
      ∃ raw, FdSelector.selectorNew 0 true (some fun _ => .zeroed) = some raw :=
    ⟨_, rfl⟩
  have ran : raw.performs [] = some (raw, []) := rfl
  obtain ⟨s, -, calls⟩ := table_grows made ran
  refine ⟨raw, made, (calls _).2.mpr ⟨by decide, ?_⟩⟩
  exact (represents_selectorNew made).2.symm

/-- No call finds a table too small that was made for every valid descriptor. -/
theorem represents_performs {raw : FdSelector} {s : Selector}
    (represents : raw.Represents s) (large : itemsMaxSize ≤ raw.fdSize)
    (calls : List SelectorCall) :
    ∃ after, raw.performs calls = some (after, (s.performs calls).2) ∧
      after.Represents (s.performs calls).1 ∧ itemsMaxSize ≤ after.fdSize := by
  induction calls generalizing raw s with
  | nil => exact ⟨raw, rfl, represents, large⟩
  | cons call calls induction =>
      have one := performed represents call
      unfold FdSelector.performs
      cases ran : raw.perform call with
      | none =>
          rw [ran] at one
          cases one with
          | overrun overruns =>
              cases call with
              | register => exact absurd (overruns.2 ▸ overruns.1) large.not_gt
              | unregister | setInterest =>
                  exact absurd (overruns.2.trans_lt overruns.1) large.not_gt
              | _ => exact overruns.elim
      | some result =>
          rw [ran] at one
          cases one with
          | starved fd handler interest data register valid above =>
              exact absurd (above.trans valid) large.not_gt
          | done within agrees represents size =>
              obtain ⟨after, rest, same, room⟩ :=
                induction represents (large.trans size)
              refine ⟨after, ?_, same, room⟩
              simp only [Option.bind_some, rest, Option.map_some]
              rw [← agrees]
              rfl

end SocksProxy
