import Mathlib.Data.Int.Notation
import Mathlib.Data.List.Nodup
import Softwinner.Framework.Ledger
import Softwinner.Framework.Loop
import Softwinner.Framework.Runs

/-!
# Saving the pictures

`takePicture`, `setFd` and `savePictureThread` of `CallbackNotifier.cpp` with the list of
`BufferListManager.cpp`.  `takePicture` encodes a frame into a node and pushes it.  The thread pops
a node, waits for the descriptor that the client gives for it, writes the picture, and releases the
node.  In the single mode (`mIsSinglePicture`) it asks for each descriptor and waits for it in
`mFd`; else the client gives the descriptors of a burst as the pictures are taken, into the ten
places of `mContinuousFd`.

The thread goes on in steps between the places where it holds no mutex, and everything else may
happen between two of them.  `takePicture` is one step, since nobody else knows its node before the
push.  A write that fails closes the descriptor and releases the node like one that succeeds, so its
result is left out; the branches for a picture without a descriptor are never reached.

Here are the nodes: `nodes_iff` says exactly when each of them is released once.  The descriptors
are in `Camera/PictureFds.lean`.
-/

namespace Softwinner.Camera

open Framework

/-- A `buffer_node`, with the number of its allocation. -/
structure Picture where
  handle : ℕ
  id : ℤ
  deriving DecidableEq

/-- The increment of an `int`. -/
def succInt (n : ℤ) : ℤ := if n = 2147483647 then -2147483648 else n + 1

/-! ## The list -/

/-- A `BufferListManager`, and what has been allocated with it.  `pushed` and `popped` are the nodes
that have been.  There is no memory for so many that `mItemCnt` would overflow. -/
structure PictureList where
  mList : List Picture
  mItemCnt : ℤ
  nodes : Ledger
  pushed : List ℕ
  popped : List ℕ

namespace PictureList

def create : PictureList := ⟨[], 0, .empty, [], []⟩

variable (l : PictureList)

def allocBuffer : ℕ × PictureList := (l.nodes.next, { l with nodes := l.nodes.alloc })

def releaseBuffer (h : ℕ) : PictureList := { l with nodes := l.nodes.release h }

/-- The fields of a node are read or written. -/
def use (h : ℕ) : PictureList := { l with nodes := l.nodes.use h }

def push (p : Picture) : PictureList :=
  { l with
    mList := l.mList ++ [p], mItemCnt := l.mItemCnt + 1, nodes := l.nodes.use p.handle,
    pushed := l.pushed ++ [p.handle] }

/-- The head of an empty list is no node; `mItemCnt` keeps `pop` from it. -/
def pop : Option (Picture × PictureList) :=
  if l.mItemCnt ≤ 0 then none
  else match l.mList with
    | [] => none
    | p :: ps => some (p, { l with
      mList := ps, mItemCnt := l.mItemCnt - 1, nodes := l.nodes.use p.handle,
      popped := l.popped ++ [p.handle] })

/-- The destructor: it pops and releases as long as there is a node. -/
def destroy : Option PictureList :=
  Loop.run (fun l => l.pop.map fun (x : Picture × PictureList) => x.2.releaseBuffer x.1.handle)
    (l.mList.length + 1) l

end PictureList

/-! ## The descriptors -/

/-- The variables for a descriptor; there is one for every index, also outside of the array. -/
inductive Place
  | mFd
  | mContinuousFd (i : ℤ)
  deriving DecidableEq

/-- Descriptors are numbered as the client supplies them.  The last fields record the indices into
`mContinuousFd`, the pictures that the client still has to supply for and those that it has, the
descriptors that the thread has taken out and closed, and what it has written. -/
structure Descriptors where
  fd : Place → Option ℕ
  mContinuousFdIndex : ℤ
  indices : List ℤ
  asked : List Picture
  supplied : List Picture
  taken : List ℕ
  closed : List ℕ
  writes : List (Picture × ℕ)

namespace Descriptors

def create : Descriptors := ⟨fun _ => none, 0, [], [], [], [], [], []⟩

variable (d : Descriptors)

def ask (p : Picture) : Descriptors := { d with asked := d.asked ++ [p] }

/-- The client supplies a descriptor for the next picture that it was notified of. -/
def setFd (mIsSinglePicture : Bool) : Option Descriptors :=
  match d.asked with
  | [] => none
  | p :: ps =>
    let d' := { d with asked := ps, supplied := d.supplied ++ [p] }
    if mIsSinglePicture then
      some { d' with fd := Function.update d.fd .mFd (some d.supplied.length) }
    else
      let i := d.mContinuousFdIndex.tmod 10
      some { d' with
        fd := Function.update d.fd (.mContinuousFd i) (some d.supplied.length)
        mContinuousFdIndex := succInt d.mContinuousFdIndex
        indices := d.indices ++ [i] }

/-- The thread takes what is in a variable, which is zero then. -/
def take (x : Place) : Descriptors :=
  { d with fd := Function.update d.fd x none, taken := d.taken ++ (d.fd x).toList }

def look (i : ℤ) : Descriptors := { d with indices := d.indices ++ [i] }

/-- `write` and `close`. -/
def write (p : Picture) (n : ℕ) : Descriptors :=
  { d with closed := d.closed ++ [n], writes := d.writes ++ [(p, n)] }

end Descriptors

/-! ## The threads -/

/-- Where `savePictureThread` is. -/
inductive Saver
  | top
  /-- It waits for a picture. -/
  | waiting
  /-- The list was not empty. -/
  | popping
  /-- At the lock in the loop, with a node, and `wait_cnt` behind its decrement. -/
  | single (p : Picture) (wait_cnt : ℤ)
  /-- In `pthread_cond_timedwait`. -/
  | singleWait (p : Picture) (wait_cnt : ℤ)
  | continuous (p : Picture)
  | continuousWait (p : Picture)
  /-- With a descriptor. -/
  | write (p : Picture) (n : ℕ)
  | exited
  deriving DecidableEq

/-- The node that it has popped. -/
def Saver.node : Saver → Option Picture
  | .single p _ | .singleWait p _ | .continuous p | .continuousWait p | .write p _ => some p
  | .top | .waiting | .popping | .exited => none

/-- The fields of `CallbackNotifier` that these functions use; `exit` is the status
`THREAD_STATE_EXIT`, `destroyed` says that the list is deleted. -/
structure Saving where
  list : PictureList
  fds : Descriptors
  mSavePictureCnt : ℤ
  mIsSinglePicture : Bool
  exit : Bool
  mSaveThreadExited : Bool
  destroyed : Bool
  saver : Saver

/-- What a call of `takePicture` finds: whether there is memory, whether the encoder succeeds, and
whether there is a path and the message is enabled. -/
structure TakeCall where
  is_continuous : Bool
  allocated : Bool
  encoded : Bool
  snapPath : Bool
  msgEnabled : Bool

inductive SaveAct
  | takePicture (a : TakeCall)
  | startContinuousPicture
  | setPictureMode (single : Bool)
  | setFd
  | stopThread
  /-- The start of `savePictureThread`, as far as the list. -/
  | begin
  | wakeUp
  /-- The thread pops a node, and in the single mode asks for a descriptor if there is memory. -/
  | pop (memory : Bool)
  /-- It looks whether there is a descriptor. -/
  | look
  /-- It comes back from the wait. -/
  | wait (timedOut : Bool)
  | write
  /-- The list is deleted. -/
  | destroy

namespace Saving

def initial : Saving := ⟨.create, .create, 0, true, false, false, false, .top⟩

variable (s : Saving)

def takePicture (a : TakeCall) : Saving :=
  if !a.allocated then s
  else
    let (h, list) := s.list.allocBuffer
    if !a.encoded then { s with list := list }
    else if a.is_continuous then
      let p : Picture := ⟨h, s.mSavePictureCnt⟩
      { s with
        list := list.push p
        fds := if a.msgEnabled && !s.mIsSinglePicture then s.fds.ask p else s.fds
        mSavePictureCnt := succInt s.mSavePictureCnt }
    else if a.snapPath then { s with list := list.push ⟨h, -1⟩ }
    else { s with list := (list.use h).releaseBuffer h }

/-- `SAVE_PICTURE_END`. -/
def finish (p : Picture) : Saving := { s with list := s.list.releaseBuffer p.handle, saver := .top }

/-- The thread has seen the exit status. -/
def leave : Saving := { s with mSaveThreadExited := true, saver := .exited }

/-- The test `wait_cnt-- >= 0`, and what follows the loop when it fails. -/
def singleLoop (p : Picture) (wait_cnt : ℤ) : Saving :=
  if 0 ≤ wait_cnt then { s with saver := .single p (wait_cnt - 1) } else s.finish p

/-- The test of the list at the start. -/
def begin : Saving :=
  if s.mIsSinglePicture then
    if s.exit then s.leave
    else if s.list.mList.isEmpty then { s with saver := .waiting } else { s with saver := .popping }
  else if s.list.mList.isEmpty then
    if s.exit then s.leave else { s with saver := .waiting }
  else { s with saver := .popping }

def pop (memory : Bool) : Saving :=
  match s.list.pop with
  | none => { s with saver := .top }
  | some (p, list) =>
    let s := { s with list := list }
    if s.mIsSinglePicture then
      if memory then { s with fds := s.fds.ask p }.singleLoop p 5 else s.finish p
    else { s with saver := .continuous p }

/-- `pNode->fd = mFd`, and what follows the loop. -/
def takeSingle (p : Picture) (wait_cnt : ℤ) : Saving :=
  let fd := s.fds.fd .mFd
  let s := { s with list := s.list.use p.handle, fds := s.fds.take .mFd }
  match fd with
  | none => s.finish p
  | some n => if wait_cnt < 0 then s.finish p else { s with saver := .write p n }

def takeContinuous (p : Picture) : Saving :=
  let fd := s.fds.fd (.mContinuousFd p.id)
  let s := { s with list := s.list.use p.handle, fds := s.fds.take (.mContinuousFd p.id) }
  match fd with
  | none => s.finish p
  | some n => { s with saver := .write p n }

def write (p : Picture) (n : ℕ) : Saving :=
  { s with list := s.list.use p.handle, fds := s.fds.write p n }.finish p

def step (s : Saving) : SaveAct → Option Saving
  | .takePicture a => if s.destroyed then none else some (s.takePicture a)
  | .startContinuousPicture => some { s with mSavePictureCnt := 0 }
  | .setPictureMode single => some { s with mIsSinglePicture := single }
  | .setFd => (s.fds.setFd s.mIsSinglePicture).map fun fds => { s with fds := fds }
  | .stopThread => some { s with exit := true }
  | .begin => if s.saver = .top ∧ s.destroyed = false then some s.begin else none
  | .wakeUp => if s.saver = .waiting then some { s with saver := .top } else none
  | .pop memory => if s.saver = .popping then some (s.pop memory) else none
  | .look =>
    match s.saver with
    | .single p wait_cnt =>
      some (if s.fds.fd .mFd = none then { s with saver := .singleWait p wait_cnt }
        else s.takeSingle p wait_cnt)
    | .continuous p =>
      let s := { s with fds := s.fds.look p.id }
      some (if s.fds.fd (.mContinuousFd p.id) = none then { s with saver := .continuousWait p }
        else s.takeContinuous p)
    | _ => none
  | .wait timedOut =>
    match s.saver with
    | .singleWait p wait_cnt =>
      some (if !timedOut then s.takeSingle p wait_cnt
        else if s.exit then s.leave
        else s.singleLoop p wait_cnt)
    | .continuousWait p => some (if timedOut then s.finish p else s.takeContinuous p)
    | _ => none
  | .write =>
    match s.saver with
    | .write p n => some (s.write p n)
    | _ => none
  | .destroy =>
    if (s.saver = .top ∨ s.saver = .waiting ∨ s.saver = .exited) ∧ s.destroyed = false then
      s.list.destroy.map fun list => { s with list := list, destroyed := true }
    else none

end Saving

/-! ## The operations of the list -/

namespace PictureList

variable {l l' : PictureList} {owned owned' : List ℕ} {h : ℕ} {p : Picture}

/-- The nodes of the list and the `owned` ones are all that have not been released. -/
structure Kept (l : PictureList) (owned : List ℕ) : Prop where
  cnt : l.mItemCnt = l.mList.length
  order : l.pushed = l.popped ++ l.mList.map Picture.handle
  distinct : l.pushed.Nodup
  known : ∀ h ∈ l.pushed, h < l.nodes.next
  apart : (l.mList.map Picture.handle ++ owned).Nodup
  balanced : l.nodes.Balanced (· ∈ l.mList.map Picture.handle ++ owned)

lemma kept_create : create.Kept [] :=
  ⟨rfl, rfl, List.nodup_nil, nofun, List.nodup_nil, Ledger.balanced_empty fun _ => nofun⟩

lemma Kept.perm (hl : l.Kept owned) (hperm : owned.Perm owned') : l.Kept owned' where
  cnt := hl.cnt
  order := hl.order
  distinct := hl.distinct
  known := hl.known
  apart := (hperm.append_left _).nodup_iff.mp hl.apart
  balanced := hl.balanced.congr fun _ => ((hperm.append_left _).mem_iff).symm

lemma Kept.allocBuffer (hl : l.Kept owned) :
    l.allocBuffer.2.Kept (l.nodes.next :: owned) ∧ l.nodes.next ∉ l.pushed := by
  refine ⟨⟨hl.cnt, hl.order, hl.distinct,
      fun h hmem => Nat.lt_succ_of_lt (hl.known h hmem), ?_, ?_⟩,
    fun hmem => absurd (hl.known _ hmem) (Nat.lt_irrefl _)⟩
  · refine List.nodup_middle.mpr (List.nodup_cons.mpr ⟨fun hmem => ?_, hl.apart⟩)
    exact absurd (hl.balanced.owned_lt _ hmem) (Nat.lt_irrefl _)
  · exact hl.balanced.alloc fun h => List.perm_middle.mem_iff.trans List.mem_cons

lemma Kept.use (hl : l.Kept (h :: owned)) : (l.use h).Kept (h :: owned) where
  cnt := hl.cnt
  order := hl.order
  distinct := hl.distinct
  known := hl.known
  apart := hl.apart
  balanced := hl.balanced.use (List.mem_append_right _ List.mem_cons_self)

lemma Kept.releaseBuffer (hl : l.Kept (h :: owned)) : (l.releaseBuffer h).Kept owned := by
  obtain ⟨hnot, hapart⟩ := List.nodup_cons.mp (List.nodup_middle.mp hl.apart)
  refine ⟨hl.cnt, hl.order, hl.distinct, hl.known, hapart, ?_⟩
  refine hl.balanced.release (List.mem_append_right _ List.mem_cons_self) fun h' => ?_
  rw [List.perm_middle.mem_iff, List.mem_cons]
  constructor
  · exact fun hmem => ⟨fun heq => hnot (heq ▸ hmem), .inr hmem⟩
  · exact fun ⟨hne, hmem⟩ => hmem.resolve_left hne

lemma Kept.push (hl : l.Kept (p.handle :: owned)) (hnew : p.handle ∉ l.pushed) :
    (l.push p).Kept owned := by
  have hmove : (l.mList ++ [p]).map Picture.handle ++ owned =
      l.mList.map Picture.handle ++ p.handle :: owned := by
    rw [List.map_append, List.append_assoc]
    rfl
  have hmem : p.handle ∈ l.mList.map Picture.handle ++ p.handle :: owned :=
    List.mem_append_right _ List.mem_cons_self
  refine ⟨?_, ?_, ?_, fun h hpushed => ?_, ?_, ?_⟩
  · show l.mItemCnt + 1 = ((l.mList ++ [p]).length : ℤ)
    rw [hl.cnt, List.length_append]
    rfl
  · show l.pushed ++ [p.handle] = l.popped ++ (l.mList ++ [p]).map Picture.handle
    rw [hl.order, List.map_append, List.append_assoc]
    rfl
  · show (l.pushed ++ [p.handle]).Nodup
    rw [← List.concat_eq_append]
    exact hl.distinct.concat hnew
  · rcases List.mem_append.mp hpushed with hold | hp
    · exact hl.known h hold
    · obtain rfl := List.mem_singleton.mp hp
      exact hl.balanced.owned_lt _ hmem
  · exact hmove ▸ hl.apart
  · refine (hl.balanced.use hmem).congr fun h => ?_
    show h ∈ (l.mList ++ [p]).map Picture.handle ++ owned ↔ _
    rw [hmove]

/-- The test of `mItemCnt` is one of the list. -/
lemma Kept.pop_eq (hl : l.Kept owned) : l.pop = none ∧ l.mList = [] ∨
    ∃ p l', l.pop = some (p, l') ∧ l.mList = p :: l'.mList ∧ l'.Kept (p.handle :: owned) ∧
      l'.popped = l.popped ++ [p.handle] := by
  unfold pop
  cases hlist : l.mList with
  | nil => exact .inl ⟨by simp only [hl.cnt, hlist]; rfl, rfl⟩
  | cons p ps =>
    have hpos : ¬ l.mItemCnt ≤ 0 := by
      rw [hl.cnt, hlist, List.length_cons]
      omega
    have hmove : (l.mList.map Picture.handle ++ owned).Perm
        (ps.map Picture.handle ++ p.handle :: owned) := by
      rw [hlist]
      exact List.perm_middle.symm
    have hmem : p.handle ∈ ps.map Picture.handle ++ p.handle :: owned :=
      List.mem_append_right _ List.mem_cons_self
    rw [if_neg hpos]
    refine .inr ⟨p, _, rfl, rfl, ⟨?_, ?_, hl.distinct, hl.known, ?_, ?_⟩, rfl⟩
    · show l.mItemCnt - 1 = (ps.length : ℤ)
      rw [hl.cnt, hlist, List.length_cons]
      omega
    · show l.pushed = (l.popped ++ [p.handle]) ++ ps.map Picture.handle
      rw [hl.order, hlist, List.append_assoc]
      rfl
    · exact hmove.nodup_iff.mp hl.apart
    · exact (hl.balanced.use (hmove.mem_iff.mpr hmem)).congr fun _ => hmove.mem_iff.symm

/-- The destructor ends, and leaves no node in the list. -/
lemma Kept.destroy (hl : l.Kept owned) : ∃ l', l.destroy = some l' ∧ l'.Kept owned ∧
    l'.mList = [] ∧ l.popped.Sublist l'.popped := by
  have hturn : ∀ l₁ l₂ : PictureList, l₁.Kept owned ∧ l.popped.Sublist l₁.popped →
      (l₁.pop.map fun x => x.2.releaseBuffer x.1.handle) = some l₂ →
      (l₂.Kept owned ∧ l.popped.Sublist l₂.popped) ∧ l₂.mList.length < l₁.mList.length := by
    rintro l₁ l₂ ⟨hkept, hsub⟩ hnext
    rcases hkept.pop_eq with ⟨hnone, -⟩ | ⟨p, l', hpop, hlist, hkept', hpopped⟩
    · rw [hnone] at hnext
      exact absurd hnext nofun
    · rw [hpop] at hnext
      obtain rfl := Option.some.inj hnext
      refine ⟨⟨hkept'.releaseBuffer, ?_⟩, ?_⟩
      · show l.popped.Sublist l'.popped
        rw [hpopped]
        exact hsub.trans (List.sublist_append_left _ _)
      · rw [hlist]
        exact Nat.lt_succ_self _
  obtain ⟨l', hrun, ⟨hkept, hsub⟩, hdone⟩ :=
    Loop.run_ends (P := fun l' : PictureList => l'.Kept owned ∧ l.popped.Sublist l'.popped)
      (μ := fun l' : PictureList => l'.mList.length) hturn ⟨hl, List.Sublist.refl _⟩
      (Nat.lt_succ_self _)
  refine ⟨l', hrun, hkept, ?_, hsub⟩
  rcases hkept.pop_eq with ⟨-, hlist⟩ | ⟨p, l'', hpop, -⟩
  · exact hlist
  · rw [hpop] at hdone
    exact absurd hdone nofun

end PictureList

/-! ## The nodes of the threads -/

namespace Saving

variable {s s' : Saving} {p : Picture} {o : Option Picture} {lost : List ℕ}

/-- The step loses no node: the encoder does not fail, and the thread does not see the exit status
while it waits for the descriptor of a node. -/
def NodeKept : SaveAct → Saving → Prop
  | .takePicture a, _ => a.allocated = true → a.encoded = true
  | .wait timedOut, s => ∀ p wait_cnt, s.saver = .singleWait p wait_cnt → timedOut = true →
      s.exit = false
  | _, _ => True

/-- No node is used behind its release or released twice, `mItemCnt` is the length of the list, and
the nodes are saved in the order in which they were pushed. -/
structure Ordered (s : Saving) : Prop where
  sound : s.list.nodes.Sound
  cnt : s.list.mItemCnt = s.list.mList.length
  distinct : s.list.pushed.Nodup
  saved : (s.fds.writes.map fun w => w.1.handle).Sublist s.list.pushed

/-- The thread has the node `o`, and the ones of `lost` are lost. -/
structure Kept (s : Saving) (o : Option Picture) (lost : List ℕ) : Prop where
  list : s.list.Kept ((o.map Picture.handle).toList ++ lost)
  saved : ((s.fds.writes.map fun w => w.1.handle) ++ (o.map Picture.handle).toList).Sublist
    s.list.popped
  gone : s.destroyed = true → s.list.mList = [] ∧ o = none

/-- Nothing but the nodes of `lost` is lost. -/
def Loses (s : Saving) (lost : List ℕ) : Prop := s.Kept s.saver.node lost

lemma loses_initial : initial.Loses [] := ⟨PictureList.kept_create, List.Sublist.refl _, nofun⟩

lemma Kept.ordered (hs : s.Kept o lost) : s.Ordered where
  sound := hs.list.balanced.sound
  cnt := hs.list.cnt
  distinct := hs.list.distinct
  saved := by
    rw [hs.list.order]
    exact ((List.sublist_append_left _ _).trans hs.saved).trans (List.sublist_append_left _ _)

/-- Behind the destructor, what has not been released is lost. -/
lemma Kept.freed_iff (hs : s.Kept o lost) (hgone : s.destroyed = true) :
    (∀ h < s.list.nodes.next, s.list.nodes.released h = 1) ↔ lost = [] := by
  obtain ⟨hlist, rfl⟩ := hs.gone hgone
  have howned : ∀ h, h ∈ s.list.mList.map Picture.handle ++
      ((none : Option Picture).map Picture.handle).toList ++ lost ↔ h ∈ lost := fun h => by
    rw [hlist]
    rfl
  have hbalanced := hs.list.balanced.congr fun h => by rw [← List.append_assoc, howned h]
  constructor
  · intro hall
    refine List.eq_nil_iff_forall_not_mem.mpr fun h hmem => ?_
    have hzero := hbalanced.owned h hmem
    rw [hall h (hbalanced.owned_lt h hmem)] at hzero
    exact absurd hzero Nat.one_ne_zero
  · rintro rfl h hlt
    exact hbalanced.others h hlt List.not_mem_nil

/-! ### Where the thread goes on -/

lemma step_look (hstep : s.step .look = some s') :
    (∃ p wait_cnt, s.saver = .single p wait_cnt ∧ s' = if s.fds.fd .mFd = none then
      { s with saver := .singleWait p wait_cnt } else s.takeSingle p wait_cnt) ∨
    ∃ p, s.saver = .continuous p ∧ s' = if s.fds.fd (.mContinuousFd p.id) = none then
      { s with fds := s.fds.look p.id, saver := .continuousWait p }
        else ({ s with fds := s.fds.look p.id } : Saving).takeContinuous p := by
  unfold step at hstep
  cases hsaver : s.saver with
  | single p wait_cnt =>
    rw [hsaver] at hstep
    exact .inl ⟨p, wait_cnt, rfl, (Option.some.inj hstep).symm⟩
  | continuous p =>
    rw [hsaver] at hstep
    exact .inr ⟨p, rfl, (Option.some.inj hstep).symm⟩
  | _ =>
    rw [hsaver] at hstep
    exact absurd hstep nofun

lemma step_wait {timedOut : Bool} (hstep : s.step (.wait timedOut) = some s') :
    (∃ p wait_cnt, s.saver = .singleWait p wait_cnt ∧
      s' = if !timedOut then s.takeSingle p wait_cnt
        else if s.exit then s.leave else s.singleLoop p wait_cnt) ∨
    ∃ p, s.saver = .continuousWait p ∧
      s' = if timedOut then s.finish p else s.takeContinuous p := by
  unfold step at hstep
  cases hsaver : s.saver with
  | singleWait p wait_cnt =>
    rw [hsaver] at hstep
    exact .inl ⟨p, wait_cnt, rfl, (Option.some.inj hstep).symm⟩
  | continuousWait p =>
    rw [hsaver] at hstep
    exact .inr ⟨p, rfl, (Option.some.inj hstep).symm⟩
  | _ =>
    rw [hsaver] at hstep
    exact absurd hstep nofun

lemma step_write (hstep : s.step .write = some s') :
    ∃ p n, s.saver = .write p n ∧ s' = s.write p n := by
  unfold step at hstep
  cases hsaver : s.saver with
  | write p n =>
    rw [hsaver] at hstep
    exact ⟨p, n, rfl, (Option.some.inj hstep).symm⟩
  | _ =>
    rw [hsaver] at hstep
    exact absurd hstep nofun

/-! ### One lemma for each function -/

lemma Loses.kept (hs : s.Loses lost) (hnode : s.saver.node = o) : s.Kept o lost := hnode ▸ hs

lemma Kept.use (hs : s.Kept (some p) lost) :
    ({ s with list := s.list.use p.handle } : Saving).Kept (some p) lost :=
  ⟨hs.list.use, hs.saved, hs.gone⟩

lemma Kept.finish (hs : s.Kept (some p) lost) : (s.finish p).Loses lost :=
  ⟨hs.list.releaseBuffer, (List.append_nil _).symm ▸ (List.sublist_append_left _ _).trans hs.saved,
    fun hgone => absurd (hs.gone hgone).2 nofun⟩

/-- The node of the thread is lost. -/
lemma Kept.leave (hs : s.Kept (some p) lost) : s.leave.Loses (p.handle :: lost) :=
  ⟨hs.list, (List.append_nil _).symm ▸ (List.sublist_append_left _ _).trans hs.saved,
    fun hgone => absurd (hs.gone hgone).2 nofun⟩

lemma Kept.singleLoop (hs : s.Kept (some p) lost) (wait_cnt : ℤ) :
    (s.singleLoop p wait_cnt).Loses lost := by
  unfold Saving.singleLoop
  split_ifs
  · exact ⟨hs.list, hs.saved, hs.gone⟩
  · exact hs.finish

lemma Kept.takeSingle (hs : s.Kept (some p) lost) (wait_cnt : ℤ) :
    (s.takeSingle p wait_cnt).Loses lost := by
  have hused : ({ s with list := s.list.use p.handle, fds := s.fds.take .mFd } : Saving).Kept
      (some p) lost := ⟨hs.list.use, hs.saved, hs.gone⟩
  unfold Saving.takeSingle
  cases s.fds.fd .mFd with
  | none => exact hused.finish
  | some n =>
    simp only
    split_ifs
    · exact hused.finish
    · exact ⟨hused.list, hused.saved, hused.gone⟩

lemma Kept.takeContinuous (hs : s.Kept (some p) lost) : (s.takeContinuous p).Loses lost := by
  have hused : ({ s with
      list := s.list.use p.handle,
      fds := s.fds.take (.mContinuousFd p.id) } : Saving).Kept (some p) lost :=
    ⟨hs.list.use, hs.saved, hs.gone⟩
  unfold Saving.takeContinuous
  cases s.fds.fd (.mContinuousFd p.id) with
  | none => exact hused.finish
  | some n => exact ⟨hused.list, hused.saved, hused.gone⟩

lemma Kept.write (hs : s.Kept (some p) lost) (n : ℕ) : (s.write p n).Loses lost := by
  refine ⟨hs.list.use.releaseBuffer, ?_, fun hgone => absurd (hs.gone hgone).2 nofun⟩
  show (((s.fds.writes ++ [(p, n)]).map fun w : Picture × ℕ => w.1.handle) ++ []).Sublist
    s.list.popped
  rw [List.map_append, List.append_nil]
  exact hs.saved

lemma Kept.pop (hs : s.Kept none lost) (memory : Bool) : (s.pop memory).Loses lost := by
  unfold Saving.pop
  rcases hs.list.pop_eq with ⟨hnone, -⟩ | ⟨p, l', hpop, hlist, hkept, hpopped⟩
  · rw [hnone]
    exact ⟨hs.list, hs.saved, hs.gone⟩
  · have htaken : ∀ fds : Descriptors, fds.writes = s.fds.writes →
        ({ s with list := l', fds := fds } : Saving).Kept (some p) lost := fun fds hwrites => by
      refine ⟨hkept, ?_, fun hgone => ?_⟩
      · show ((fds.writes.map fun w => w.1.handle) ++ [p.handle]).Sublist l'.popped
        rw [hwrites, hpopped]
        exact ((List.append_nil _) ▸ hs.saved).append (List.Sublist.refl _)
      · exact absurd (hlist.symm.trans (hs.gone hgone).1) nofun
    rw [hpop]
    simp only
    split_ifs
    · exact (htaken (s.fds.ask p) rfl).singleLoop 5
    · exact (htaken _ rfl).finish
    · exact ⟨(htaken s.fds rfl).list, (htaken s.fds rfl).saved, (htaken s.fds rfl).gone⟩

lemma Loses.begin (hs : s.Loses lost) (hsaver : s.saver = .top) : s.begin.Loses lost := by
  have hkept : s.Kept none lost := hs.kept (congrArg Saver.node hsaver)
  unfold Saving.begin
  split_ifs
  all_goals exact ⟨hkept.list, hkept.saved, hkept.gone⟩

/-- The node that a picture is encoded into is pushed or released, unless the encoder fails. -/
lemma Loses.takePicture (hs : s.Loses lost) (hgone : s.destroyed = false) (a : TakeCall) :
    ((a.allocated = true → a.encoded = true) → (s.takePicture a).Loses lost) ∧
      (¬ (a.allocated = true → a.encoded = true) →
        (s.takePicture a).Loses (s.list.nodes.next :: lost)) := by
  obtain ⟨is_continuous, allocated, encoded, snapPath, msgEnabled⟩ := a
  obtain ⟨hnode, hnew⟩ := hs.list.allocBuffer
  have hlive : ∀ {P : Prop}, s.destroyed = true → P := fun h => absurd (hgone.symm.trans h) nofun
  cases allocated with
  | false => exact ⟨fun _ => hs, fun h => absurd nofun h⟩
  | true =>
    cases encoded with
    | false =>
      refine ⟨fun h => absurd (h rfl) nofun, fun _ => ?_⟩
      exact ⟨hnode.perm List.perm_middle.symm, hs.saved, hlive⟩
    | true =>
      refine ⟨fun _ => ?_, fun h => absurd (fun _ => rfl) h⟩
      have hpush : ∀ id fds cnt, fds.writes = s.fds.writes → ({ s with
          list := s.list.allocBuffer.2.push ⟨s.list.nodes.next, id⟩
          fds := fds
          mSavePictureCnt := cnt } : Saving).Loses lost := by
        intro id fds cnt hwrites
        refine ⟨PictureList.Kept.push (p := ⟨s.list.nodes.next, id⟩) hnode hnew, ?_, hlive⟩
        show ((fds.writes.map fun w : Picture × ℕ => w.1.handle) ++ _).Sublist s.list.popped
        rw [hwrites]
        exact hs.saved
      cases is_continuous with
      | true =>
        refine hpush _ _ _ ?_
        split_ifs <;> rfl
      | false =>
        cases snapPath with
        | true => exact hpush (-1) _ _ rfl
        | false => exact ⟨hnode.use.releaseBuffer, hs.saved, hlive⟩

lemma Loses.destroy (hs : s.Loses lost) (hnode : s.saver.node = none) {l : PictureList}
    (hl : s.list.destroy = some l) :
    ({ s with list := l, destroyed := true } : Saving).Loses lost := by
  obtain ⟨l', hl', hkept, hlist, hsub⟩ := hs.list.destroy
  obtain rfl := Option.some.inj (hl.symm.trans hl')
  exact ⟨hkept, hs.saved.trans hsub, fun _ => ⟨hlist, hnode⟩⟩

lemma setFd_writes {d d' : Descriptors} {mIsSinglePicture : Bool}
    (h : d.setFd mIsSinglePicture = some d') : d'.writes = d.writes := by
  unfold Descriptors.setFd at h
  cases hasked : d.asked with
  | nil =>
    rw [hasked] at h
    exact absurd h nofun
  | cons p ps =>
    rw [hasked] at h
    cases mIsSinglePicture <;>
    · obtain rfl := Option.some.inj h
      rfl

lemma Loses.look (hs : s.Loses lost) (hstep : s.step .look = some s') : s'.Loses lost := by
  rcases step_look hstep with ⟨p, wait_cnt, hpc, rfl⟩ | ⟨p, hpc, rfl⟩
  · have hkept : s.Kept (some p) lost := hs.kept (congrArg Saver.node hpc)
    split_ifs
    · exact ⟨hkept.list, hkept.saved, hkept.gone⟩
    · exact hkept.takeSingle wait_cnt
  · have hkept : ({ s with fds := s.fds.look p.id } : Saving).Kept (some p) lost :=
      have h := hs.kept (congrArg Saver.node hpc)
      ⟨h.list, h.saved, h.gone⟩
    split_ifs
    · exact ⟨hkept.list, hkept.saved, hkept.gone⟩
    · exact hkept.takeContinuous

/-- A wait loses the node if it times out and the exit status is seen. -/
lemma Loses.wait {timedOut : Bool} (hs : s.Loses lost)
    (hstep : s.step (.wait timedOut) = some s') :
    (NodeKept (.wait timedOut) s → s'.Loses lost) ∧
      (¬ NodeKept (.wait timedOut) s → ∃ h, s'.Loses (h :: lost)) := by
  rcases step_wait hstep with ⟨p, wait_cnt, hpc, rfl⟩ | ⟨p, hpc, rfl⟩
  · have hkept : s.Kept (some p) lost := hs.kept (congrArg Saver.node hpc)
    constructor
    · intro hok
      split_ifs with htime hexit
      · exact hkept.takeSingle wait_cnt
      · have hrun := hok p wait_cnt hpc (by simpa using htime)
        exact absurd (hrun.symm.trans hexit) Bool.false_ne_true
      · exact hkept.singleLoop wait_cnt
    · intro hnot
      split_ifs with htime hexit
      · refine absurd (fun p' w' _ htimed => ?_) hnot
        rw [htimed] at htime
        exact absurd htime Bool.false_ne_true
      · exact ⟨_, hkept.leave⟩
      · exact absurd (fun _ _ _ _ => Bool.eq_false_iff.mpr hexit) hnot
  · have hkept : s.Kept (some p) lost := hs.kept (congrArg Saver.node hpc)
    have hok : NodeKept (.wait timedOut) s := fun p' w' hsingle => by cases hpc.symm.trans hsingle
    refine ⟨fun _ => ?_, fun hnot => absurd hok hnot⟩
    split_ifs
    · exact hkept.finish
    · exact hkept.takeContinuous

/-! ### Runs -/

lemma Loses.step {a : SaveAct} (hs : s.Loses lost) (hstep : s.step a = some s') :
    (NodeKept a s → s'.Loses lost) ∧ (¬ NodeKept a s → ∃ h, s'.Loses (h :: lost)) := by
  -- most steps lose nothing
  have hnone : NodeKept a s → s'.Loses lost →
      (NodeKept a s → s'.Loses lost) ∧ (¬ NodeKept a s → ∃ h, s'.Loses (h :: lost)) :=
    fun hok hs' => ⟨fun _ => hs', fun h => absurd hok h⟩
  cases a with
  | takePicture a =>
    simp only [Saving.step] at hstep
    split_ifs at hstep with hgone
    obtain rfl := Option.some.inj hstep
    obtain ⟨hok, hfail⟩ := hs.takePicture (Bool.eq_false_iff.mpr hgone) a
    exact ⟨hok, fun h => ⟨_, hfail h⟩⟩
  | startContinuousPicture =>
    obtain rfl := Option.some.inj hstep
    exact hnone trivial ⟨hs.list, hs.saved, hs.gone⟩
  | setPictureMode single =>
    obtain rfl := Option.some.inj hstep
    exact hnone trivial ⟨hs.list, hs.saved, hs.gone⟩
  | setFd =>
    obtain ⟨fds, hfds, rfl⟩ := Option.map_eq_some_iff.mp hstep
    exact hnone trivial ⟨hs.list, (setFd_writes hfds).symm ▸ hs.saved, hs.gone⟩
  | stopThread =>
    obtain rfl := Option.some.inj hstep
    exact hnone trivial ⟨hs.list, hs.saved, hs.gone⟩
  | begin =>
    simp only [Saving.step] at hstep
    split_ifs at hstep with hpc
    obtain rfl := Option.some.inj hstep
    exact hnone trivial (hs.begin hpc.1)
  | wakeUp =>
    simp only [Saving.step] at hstep
    split_ifs at hstep with hpc
    obtain rfl := Option.some.inj hstep
    have hkept : s.Kept none lost := hs.kept (congrArg Saver.node hpc)
    exact hnone trivial ⟨hkept.list, hkept.saved, hkept.gone⟩
  | pop memory =>
    simp only [Saving.step] at hstep
    split_ifs at hstep with hpc
    obtain rfl := Option.some.inj hstep
    exact hnone trivial ((hs.kept (congrArg Saver.node hpc)).pop memory)
  | look => exact hnone trivial (hs.look hstep)
  | wait timedOut => exact hs.wait hstep
  | write =>
    obtain ⟨p, n, hpc, rfl⟩ := step_write hstep
    exact hnone trivial ((hs.kept (congrArg Saver.node hpc)).write n)
  | destroy =>
    simp only [Saving.step] at hstep
    split_ifs at hstep with hpc
    obtain ⟨l, hl, rfl⟩ := Option.map_eq_some_iff.mp hstep
    refine hnone trivial (hs.destroy ?_ hl)
    rcases hpc.1 with h | h | h
    all_goals exact congrArg Saver.node h

/-- In every run no node is used behind its release or released twice, the list is counted, and the
nodes are saved in their order.  When the list is deleted, each one has been released if and only if
the encoder never failed, and the thread has not seen the exit status in the wait for a
descriptor. -/
theorem nodes_iff (as : List SaveAct) (s : Saving) (hrun : as.foldlM step initial = some s) :
    s.Ordered ∧ (s.destroyed = true → ((∀ h < s.list.nodes.next, s.list.nodes.released h = 1) ↔
      Meets step NodeKept initial as)) := by
  have hgood : ∀ {a : SaveAct} {s s' : Saving}, s.Loses [] → NodeKept a s → s.step a = some s' →
      s'.Loses [] := fun hs hok hstep => (hs.step hstep).1 hok
  have hfail : ∀ {a : SaveAct} {s s' : Saving}, s.Loses [] → ¬ NodeKept a s →
      s.step a = some s' → ∃ lost, lost ≠ [] ∧ s'.Loses lost := by
    intro a s s' hs hnot hstep
    obtain ⟨h, hs'⟩ := (hs.step hstep).2 hnot
    exact ⟨_, List.cons_ne_nil _ _, hs'⟩
  -- what is lost stays lost
  have hbad : ∀ {a : SaveAct} {s s' : Saving}, (∃ lost, lost ≠ [] ∧ s.Loses lost) →
      s.step a = some s' → ∃ lost, lost ≠ [] ∧ s'.Loses lost := by
    intro a s s' hs hstep
    obtain ⟨lost, hne, hs⟩ := hs
    by_cases hok : NodeKept a s
    · exact ⟨lost, hne, (hs.step hstep).1 hok⟩
    · obtain ⟨h, hs'⟩ := (hs.step hstep).2 hok
      exact ⟨_, List.cons_ne_nil _ _, hs'⟩
  rcases meets_or_not_meets hgood hfail hbad as loses_initial hrun with
    ⟨hall, hs⟩ | ⟨hnot, lost, hne, hs⟩
  · exact ⟨hs.ordered, fun hgone => iff_of_true ((hs.freed_iff hgone).mpr rfl) hall⟩
  · exact ⟨hs.ordered, fun hgone => iff_of_false (fun h => hne ((hs.freed_iff hgone).mp h)) hnot⟩

/-- A picture with a path is saved, and the thread is stopped. -/
theorem nodes_iff_one :
    ∃ s, [.takePicture ⟨false, true, true, true, true⟩, .begin, .pop true, .look, .setFd,
        .wait false, .write, .stopThread, .begin, .destroy].foldlM step initial = some s ∧
      s.Ordered ∧ ((∀ h < s.list.nodes.next, s.list.nodes.released h = 1) ↔
        Meets step NodeKept initial [.takePicture ⟨false, true, true, true, true⟩, .begin,
          .pop true, .look, .setFd, .wait false, .write, .stopThread, .begin, .destroy]) := by
  obtain ⟨hordered, hfreed⟩ := nodes_iff [.takePicture ⟨false, true, true, true, true⟩, .begin,
    .pop true, .look, .setFd, .wait false, .write, .stopThread, .begin, .destroy] _ rfl
  exact ⟨_, rfl, hordered, hfreed rfl⟩

/-- The encoder fails; the thread is stopped while it waits for the descriptor of a picture. -/
theorem nodes_lost :
    (∃ s, [.takePicture ⟨false, true, false, true, true⟩, .stopThread, .begin,
        .destroy].foldlM step initial = some s ∧ s.destroyed = true ∧
      ∃ h < s.list.nodes.next, s.list.nodes.released h = 0) ∧
    ∃ s, [.takePicture ⟨false, true, true, true, true⟩, .begin, .pop true, .look, .stopThread,
        .wait true, .destroy].foldlM step initial = some s ∧ s.destroyed = true ∧
      ∃ h < s.list.nodes.next, s.list.nodes.released h = 0 :=
  ⟨⟨_, rfl, rfl, 0, Nat.zero_lt_one, rfl⟩, ⟨_, rfl, rfl, 0, Nat.zero_lt_one, rfl⟩⟩

end Saving

end Softwinner.Camera
