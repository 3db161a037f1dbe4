import Softwinner.Camera.PictureSaving

/-!
# The descriptors of the pictures

Which descriptors `savePictureThread` writes the pictures to, and whether it closes them, over the
runs of `Camera/PictureSaving.lean`.  In the continuous mode a picture goes to the descriptor that
has been supplied for it as long as the places of `mContinuousFd` are filled by the numbers of the
pictures, which is the case for bursts of ten pictures that do not overlap; in the single mode, as
long as no descriptor is left from an earlier picture.  A descriptor is closed unless it comes only
in the last turn of the loop.
-/

namespace Softwinner.Camera

open Framework

/-! ## The places -/

namespace Descriptors

variable {d d' : Descriptors} {x : Place} {n : ℕ}

/-- What is in the places has been supplied, and has not been taken; no two places have the same. -/
structure Fresh (d : Descriptors) : Prop where
  lt : ∀ x n, d.fd x = some n → n < d.supplied.length
  untaken : ∀ x n, d.fd x = some n → n ∉ d.taken
  apart : ∀ x y n, d.fd x = some n → d.fd y = some n → x = y
  taken_lt : ∀ n ∈ d.taken, n < d.supplied.length
  nodup : d.taken.Nodup

lemma fresh_create : create.Fresh :=
  ⟨fun _ _ h => (nomatch h), fun _ _ h => (nomatch h), fun _ _ _ h => (nomatch h), nofun,
    List.nodup_nil⟩

lemma Fresh.congr (hd : d.Fresh) (hfd : d'.fd = d.fd) (hsupplied : d'.supplied = d.supplied)
    (htaken : d'.taken = d.taken) : d'.Fresh := by
  refine ⟨?_, ?_, ?_, ?_, ?_⟩
  · rw [hfd, hsupplied]
    exact hd.lt
  · rw [hfd, htaken]
    exact hd.untaken
  · rw [hfd]
    exact hd.apart
  · rw [hsupplied, htaken]
    exact hd.taken_lt
  · rw [htaken]
    exact hd.nodup

/-- Where `setFd` puts a descriptor. -/
def place (d : Descriptors) (mIsSinglePicture : Bool) : Place :=
  if mIsSinglePicture then .mFd else .mContinuousFd (d.mContinuousFdIndex.tmod 10)

lemma setFd_eq {mIsSinglePicture : Bool} (h : d.setFd mIsSinglePicture = some d') :
    ∃ p ps, d.asked = p :: ps ∧ d'.asked = ps ∧ d'.supplied = d.supplied ++ [p] ∧
      d'.fd = Function.update d.fd (d.place mIsSinglePicture) (some d.supplied.length) ∧
      d'.taken = d.taken ∧ d'.closed = d.closed ∧ d'.writes = d.writes ∧
      d'.indices = d.indices ++
        if mIsSinglePicture then [] else [d.mContinuousFdIndex.tmod 10] := by
  unfold setFd at h
  cases hasked : d.asked with
  | nil =>
    rw [hasked] at h
    exact absurd h nofun
  | cons p ps =>
    rw [hasked] at h
    cases mIsSinglePicture with
    | true =>
      obtain rfl := Option.some.inj h
      exact ⟨p, ps, rfl, rfl, rfl, rfl, rfl, rfl, rfl, (List.append_nil _).symm⟩
    | false =>
      obtain rfl := Option.some.inj h
      exact ⟨p, ps, rfl, rfl, rfl, rfl, rfl, rfl, rfl, rfl⟩

lemma Fresh.setFd {mIsSinglePicture : Bool} (hd : d.Fresh)
    (h : d.setFd mIsSinglePicture = some d') : d'.Fresh := by
  obtain ⟨p, ps, -, -, hsupplied, hfd, htaken, -⟩ := setFd_eq h
  have hlen : d'.supplied.length = d.supplied.length + 1 := by
    rw [hsupplied, List.length_append]
    rfl
  -- the new descriptor, or one that was there
  have hcases : ∀ y n, d'.fd y = some n →
      y = d.place mIsSinglePicture ∧ n = d.supplied.length ∨
        y ≠ d.place mIsSinglePicture ∧ d.fd y = some n := by
    intro y n hy
    rw [hfd] at hy
    by_cases heq : y = d.place mIsSinglePicture
    · rw [heq, Function.update_self] at hy
      exact .inl ⟨heq, (Option.some.inj hy).symm⟩
    · rw [Function.update_of_ne heq] at hy
      exact .inr ⟨heq, hy⟩
  refine ⟨fun y n hy => ?_, fun y n hy => ?_, fun y z n hy hz => ?_, fun n hn => ?_,
    htaken.symm ▸ hd.nodup⟩
  · rw [hlen]
    rcases hcases y n hy with ⟨-, rfl⟩ | ⟨-, hold⟩
    · exact Nat.lt_succ_self _
    · exact Nat.lt_succ_of_lt (hd.lt y n hold)
  · rw [htaken]
    rcases hcases y n hy with ⟨-, rfl⟩ | ⟨-, hold⟩
    · exact fun hmem => absurd (hd.taken_lt _ hmem) (Nat.lt_irrefl _)
    · exact hd.untaken y n hold
  · rcases hcases y n hy with ⟨rfl, rfl⟩ | ⟨-, hold⟩
    · rcases hcases z _ hz with ⟨rfl, -⟩ | ⟨-, hold⟩
      · rfl
      · exact absurd (hd.lt z _ hold) (Nat.lt_irrefl _)
    · rcases hcases z n hz with ⟨rfl, rfl⟩ | ⟨-, hold'⟩
      · exact absurd (hd.lt y _ hold) (Nat.lt_irrefl _)
      · exact hd.apart y z n hold hold'
  · rw [hlen]
    rw [htaken] at hn
    exact Nat.lt_succ_of_lt (hd.taken_lt n hn)

lemma take_fd_of_ne {y : Place} (hne : y ≠ x) : (d.take x).fd y = d.fd y :=
  Function.update_of_ne hne ..

lemma take_fd_eq_some {y : Place} (h : (d.take x).fd y = some n) : y ≠ x ∧ d.fd y = some n := by
  by_cases heq : y = x
  · rw [heq] at h
    have hnone : (d.take x).fd x = none := Function.update_self ..
    exact absurd (hnone.symm.trans h) nofun
  · exact ⟨heq, take_fd_of_ne heq ▸ h⟩

lemma mem_take_taken : n ∈ (d.take x).taken ↔ n ∈ d.taken ∨ d.fd x = some n :=
  List.mem_append.trans (or_congr Iff.rfl Option.mem_toList)

lemma Fresh.take (hd : d.Fresh) (x : Place) : (d.take x).Fresh := by
  refine ⟨fun y n hy => hd.lt y n (take_fd_eq_some hy).2, fun y n hy => ?_, fun y z n hy hz => ?_,
    fun n hn => ?_, ?_⟩
  · obtain ⟨hne, hold⟩ := take_fd_eq_some hy
    rw [mem_take_taken]
    rintro (hmem | hx)
    · exact hd.untaken y n hold hmem
    · exact hne (hd.apart y x n hold hx)
  · exact hd.apart y z n (take_fd_eq_some hy).2 (take_fd_eq_some hz).2
  · rcases mem_take_taken.mp hn with hmem | hx
    · exact hd.taken_lt n hmem
    · exact hd.lt x n hx
  · refine hd.nodup.append (Option.toList_nodup _) fun n hmem hx => ?_
    exact hd.untaken x n (Option.mem_toList.mp hx) hmem

/-! ### Each descriptor is used once -/

variable {h h' : Option ℕ}

/-- Each descriptor that has been taken is used for at most one picture, and closed at most once;
`h` is the one that the thread writes to. -/
structure Used (d : Descriptors) (h : Option ℕ) : Prop where
  fresh : d.Fresh
  closed_eq : d.closed = d.writes.map Prod.snd
  sub : (d.closed ++ h.toList).Sublist d.taken

/-- Each descriptor that has been taken is closed, but for `h`. -/
def AllClosed (d : Descriptors) (h : Option ℕ) : Prop := ∀ n ∈ d.taken, n ∈ d.closed ∨ h = some n

lemma used_create : create.Used none := ⟨fresh_create, rfl, List.Sublist.refl _⟩

lemma Used.nodup (hd : d.Used h) : (d.writes.map Prod.snd).Nodup := by
  rw [← hd.closed_eq]
  exact hd.fresh.nodup.sublist ((List.sublist_append_left _ _).trans hd.sub)

lemma Used.ask (hd : d.Used h) (p : Picture) : (d.ask p).Used h :=
  ⟨hd.fresh.congr rfl rfl rfl, hd.closed_eq, hd.sub⟩

lemma Used.look (hd : d.Used h) (i : ℤ) : (d.look i).Used h :=
  ⟨hd.fresh.congr rfl rfl rfl, hd.closed_eq, hd.sub⟩

lemma Used.setFd {mIsSinglePicture : Bool} (hd : d.Used h)
    (hset : d.setFd mIsSinglePicture = some d') :
    d'.Used h ∧ (d'.AllClosed h ↔ d.AllClosed h) := by
  obtain ⟨p, ps, -, -, -, -, htaken, hclosed, hwrites, -⟩ := setFd_eq hset
  refine ⟨⟨hd.fresh.setFd hset, ?_, ?_⟩, ?_⟩
  · rw [hclosed, hwrites]
    exact hd.closed_eq
  · rw [hclosed, htaken]
    exact hd.sub
  · rw [AllClosed, AllClosed, hclosed, htaken]

/-- What the thread takes is closed if it writes to it. -/
lemma Used.take (hd : d.Used none) (hh : h = d.fd x ∨ h = none) :
    (d.take x).Used h ∧ ((d.take x).AllClosed h ↔ d.AllClosed none ∧ h = d.fd x) := by
  have hsub : d.closed.Sublist d.taken := (List.sublist_append_left _ _).trans hd.sub
  refine ⟨⟨hd.fresh.take x, hd.closed_eq, ?_⟩, ?_⟩
  · refine hsub.append ?_
    rcases hh with rfl | rfl
    · exact List.Sublist.refl _
    · exact List.nil_sublist _
  · constructor
    · intro hall
      have hheld : h = d.fd x := by
        rcases hh with heq | rfl
        · exact heq
        · cases hx : d.fd x with
          | none => rfl
          | some n =>
            rcases hall n (mem_take_taken.mpr (.inr hx)) with hmem | hno
            · exact absurd (hsub.subset hmem) (hd.fresh.untaken x n hx)
            · exact absurd hno nofun
      refine ⟨fun n hn => ?_, hheld⟩
      rcases hall n (mem_take_taken.mpr (.inl hn)) with hmem | heq
      · exact .inl hmem
      · exact absurd hn (hd.fresh.untaken x n (hheld.symm.trans heq))
    · rintro ⟨hall, rfl⟩ n hn
      rcases mem_take_taken.mp hn with hold | hx
      · exact .inl ((hall n hold).resolve_right nofun)
      · exact .inr hx

lemma Used.write (hd : d.Used (some n)) (p : Picture) :
    (d.write p n).Used none ∧ ((d.write p n).AllClosed none ↔ d.AllClosed (some n)) := by
  refine ⟨⟨hd.fresh.congr rfl rfl rfl, ?_, ?_⟩, ?_⟩
  · show d.closed ++ [n] = (d.writes ++ [(p, n)]).map Prod.snd
    rw [List.map_append, hd.closed_eq]
    rfl
  · show ((d.closed ++ [n]) ++ []).Sublist d.taken
    rw [List.append_nil]
    exact hd.sub
  · refine forall₂_congr fun m _ => ?_
    show m ∈ d.closed ++ [n] ∨ none = some m ↔ m ∈ d.closed ∨ some n = some m
    rw [List.mem_append, List.mem_singleton, or_iff_left (a := m ∈ d.closed ∨ m = n) nofun,
      Option.some.injEq, eq_comm (a := m)]

end Descriptors

/-! ## The steps -/

/-- What the thread does with its node. -/
inductive Hold
  | nothing
  | single (p : Picture)
  | continuous (p : Picture)
  | write (p : Picture) (n : ℕ)
  deriving DecidableEq

def Saver.hold : Saver → Hold
  | .single p _ | .singleWait p _ => .single p
  | .continuous p | .continuousWait p => .continuous p
  | .write p n => .write p n
  | .top | .waiting | .popping | .exited => .nothing

/-- The descriptor that it writes to. -/
def Hold.fd : Hold → Option ℕ
  | .write _ n => some n
  | _ => none

lemma Saver.node_eq {saver : Saver} {p : Picture}
    (h : saver.hold = .single p ∨ saver.hold = .continuous p) : saver.node = some p := by
  cases saver <;> rcases h with h | h <;> cases h <;> rfl

/-- The thread writes the picture if it has found a descriptor for it. -/
def Hold.found (p : Picture) : Option ℕ → Hold
  | none => .nothing
  | some n => .write p n

namespace Saving

variable {s s' : Saving}

/-- A descriptor does not come in the last turn of the loop only. -/
def InTime : SaveAct → Saving → Prop
  | .look, s => ∀ p wait_cnt, s.saver = .single p wait_cnt → wait_cnt < 0 → s.fds.fd .mFd = none
  | .wait timedOut, s => ∀ p wait_cnt, s.saver = .singleWait p wait_cnt → timedOut = false →
      wait_cnt < 0 → s.fds.fd .mFd = none
  | _, _ => True

/-- In the continuous mode, also when it begins, the pictures are the first ten of a burst;
`mContinuousFdIndex` has not overflowed. -/
def InRange : SaveAct → Saving → Prop
  | .takePicture a, s => s.mIsSinglePicture = false → a.allocated = true → a.encoded = true →
      if a.is_continuous then 0 ≤ s.mSavePictureCnt ∧ s.mSavePictureCnt < 10
      else a.snapPath = false
  | .setPictureMode single, s => single = false → s.mIsSinglePicture = true →
      ∀ p ∈ s.list.mList, 0 ≤ p.id ∧ p.id < 10
  | .setFd, s => s.mIsSinglePicture = false → 0 ≤ s.fds.mContinuousFdIndex
  | _, _ => True

instance (a : SaveAct) (s : Saving) : Decidable (InRange a s) := by
  cases a <;> unfold InRange <;> infer_instance

/-- In the continuous mode, a picture is taken when its place is empty and nothing else is on the
way to it, and a descriptor comes when `mContinuousFdIndex` is at the place of its picture; the mode
begins when no picture or descriptor is on the way.  In the single mode, the descriptor for a
picture of a burst is asked for when no other one is left or on the way. -/
def Aligned : SaveAct → Saving → Prop
  | .takePicture a, s => s.mIsSinglePicture = false → a.is_continuous = true →
      a.allocated = true → a.encoded = true →
      s.fds.fd (.mContinuousFd s.mSavePictureCnt) = none ∧
      (∀ p ∈ s.saver.node, s.saver.hold = .continuous p → p.id ≠ s.mSavePictureCnt) ∧
      ∀ p ∈ s.list.mList ++ s.fds.asked, p.id ≠ s.mSavePictureCnt
  | .setPictureMode single, s => single = false → s.mIsSinglePicture = true →
      s.list.mList = [] ∧ s.fds.asked = [] ∧ ∀ p ∈ s.saver.node, s.saver.hold ≠ .single p
  | .setFd, s => s.mIsSinglePicture = false →
      ∀ p ∈ s.fds.asked.head?, p.id = s.fds.mContinuousFdIndex.tmod 10
  | .pop memory, s => s.mIsSinglePicture = true → memory = true →
      ∀ p ∈ s.list.mList.head?, 0 ≤ p.id → s.fds.fd .mFd = none ∧ s.fds.asked = []
  | _, _ => True

instance (a : SaveAct) (s : Saving) : Decidable (Aligned a s) := by
  cases a <;> unfold Aligned <;> infer_instance

/-- What a step does with the descriptors, the pictures and the mode. -/
inductive Effect (s : Saving) : SaveAct → Saving → Prop
  | quiet {a : SaveAct} {t : Saving} (hfds : t.fds = s.fds)
      (hlist : t.list.mList ⊆ s.list.mList) (hmode : t.mIsSinglePicture = s.mIsSinglePicture)
      (hhold : t.saver.hold = s.saver.hold ∨
        t.saver.hold = .nothing ∧ s.saver.hold.fd = none)
      (htime : InTime a s) : Effect s a t
  | push {a : TakeCall} {t : Saving} (p : Picture) (halloc : a.allocated = true)
      (henc : a.encoded = true)
      (hfds : t.fds = s.fds ∨ a.is_continuous = true ∧ s.mIsSinglePicture = false ∧
        t.fds = s.fds.ask p)
      (hid : if a.is_continuous then p.id = s.mSavePictureCnt else a.snapPath = true ∧ p.id = -1)
      (hlist : t.list.mList = s.list.mList ++ [p])
      (hmode : t.mIsSinglePicture = s.mIsSinglePicture) (hsaver : t.saver = s.saver) :
      Effect s (.takePicture a) t
  | mode (single : Bool) : Effect s (.setPictureMode single) { s with mIsSinglePicture := single }
  | supply (fds : Descriptors) (hfds : s.fds.setFd s.mIsSinglePicture = some fds) :
      Effect s .setFd { s with fds := fds }
  | popSingle {t : Saving} (p : Picture) (hmode : s.mIsSinglePicture = true)
      (hlist : s.list.mList = p :: t.list.mList) (hfds : t.fds = s.fds.ask p)
      (hmode' : t.mIsSinglePicture = s.mIsSinglePicture) (hnone : s.saver.hold = .nothing)
      (hhold : t.saver.hold = .single p) : Effect s (.pop true) t
  | popContinuous {t : Saving} {memory : Bool} (p : Picture) (hmode : s.mIsSinglePicture = false)
      (hlist : s.list.mList = p :: t.list.mList) (hfds : t.fds = s.fds)
      (hmode' : t.mIsSinglePicture = s.mIsSinglePicture) (hnone : s.saver.hold = .nothing)
      (hhold : t.saver.hold = .continuous p) : Effect s (.pop memory) t
  | look {t : Saving} (p : Picture) (hfds : t.fds = s.fds.look p.id)
      (hlist : t.list.mList = s.list.mList) (hmode : t.mIsSinglePicture = s.mIsSinglePicture)
      (hheld : s.saver.hold = .continuous p) (hhold : t.saver.hold = .continuous p)
      (htime : InTime .look s) : Effect s .look t
  | take {a : SaveAct} {t : Saving} (p : Picture) (x : Place) (d : Descriptors)
      (hx : s.saver.hold = .single p ∧ x = .mFd ∧ d = s.fds ∨
        s.saver.hold = .continuous p ∧ x = .mContinuousFd p.id ∧
          (d = s.fds ∨ d = s.fds.look p.id))
      (hfds : t.fds = d.take x) (hlist : t.list.mList = s.list.mList)
      (hmode : t.mIsSinglePicture = s.mIsSinglePicture)
      (hhold : t.saver.hold = .found p (s.fds.fd x) ∨ t.saver.hold = .nothing)
      (htime : InTime a s ↔ t.saver.hold = .found p (s.fds.fd x)) : Effect s a t
  | write {t : Saving} (p : Picture) (n : ℕ) (hheld : s.saver.hold = .write p n)
      (hfds : t.fds = s.fds.write p n) (hlist : t.list.mList = s.list.mList)
      (hmode : t.mIsSinglePicture = s.mIsSinglePicture) (hhold : t.saver.hold = .nothing) :
      Effect s .write t

lemma effect_takePicture (a : TakeCall) : Effect s (.takePicture a) (s.takePicture a) := by
  obtain ⟨is_continuous, allocated, encoded, snapPath, msgEnabled⟩ := a
  have hquiet : ∀ {t : Saving}, t.fds = s.fds → t.list.mList = s.list.mList →
      t.mIsSinglePicture = s.mIsSinglePicture → t.saver = s.saver → Effect s (.takePicture
        ⟨is_continuous, allocated, encoded, snapPath, msgEnabled⟩) t :=
    fun hfds hlist hmode hsaver => .quiet hfds (hlist ▸ List.Subset.refl _) hmode
      (.inl (congrArg Saver.hold hsaver)) trivial
  cases allocated with
  | false => exact hquiet rfl rfl rfl rfl
  | true =>
    cases encoded with
    | false => exact hquiet rfl rfl rfl rfl
    | true =>
      cases is_continuous with
      | true =>
        refine .push ⟨s.list.nodes.next, s.mSavePictureCnt⟩ rfl rfl ?_ rfl rfl rfl rfl
        show (if msgEnabled && !s.mIsSinglePicture then _ else _) = _ ∨ _
        split_ifs with hasks
        · rw [Bool.and_eq_true, Bool.not_eq_true'] at hasks
          exact .inr ⟨rfl, hasks.2, if_pos (by rw [hasks.1, hasks.2]; rfl)⟩
        · exact .inl rfl
      | false =>
        cases snapPath with
        | true => exact .push ⟨s.list.nodes.next, -1⟩ rfl rfl (.inl rfl) ⟨rfl, rfl⟩ rfl rfl rfl
        | false => exact hquiet rfl rfl rfl rfl

lemma begin_hold (s : Saving) : s.begin.saver.hold = .nothing ∧ s.begin.fds = s.fds ∧
    s.begin.list = s.list ∧ s.begin.mIsSinglePicture = s.mIsSinglePicture := by
  unfold Saving.begin leave
  split_ifs
  all_goals exact ⟨rfl, rfl, rfl, rfl⟩

lemma effect_pop (hpc : s.saver = .popping) (memory : Bool) :
    Effect s (.pop memory) (s.pop memory) := by
  have hnone : s.saver.hold = .nothing := congrArg Saver.hold hpc
  have hfree : s.saver.hold.fd = none := congrArg Hold.fd hnone
  unfold Saving.pop PictureList.pop
  by_cases hcnt : s.list.mItemCnt ≤ 0
  · rw [if_pos hcnt]
    exact .quiet rfl (List.Subset.refl _) rfl (.inr ⟨rfl, hfree⟩) trivial
  · rw [if_neg hcnt]
    cases hlist : s.list.mList with
    | nil => exact .quiet rfl (List.Subset.refl _) rfl (.inr ⟨rfl, hfree⟩) trivial
    | cons p ps =>
      simp only
      split_ifs with hmode hmemory
      · obtain rfl := hmemory
        exact .popSingle p hmode hlist rfl rfl hnone rfl
      · exact .quiet rfl (hlist ▸ List.subset_cons_self p ps) rfl (.inr ⟨rfl, hfree⟩) trivial
      · exact .popContinuous p (Bool.eq_false_iff.mpr hmode) hlist rfl rfl hnone rfl

lemma singleLoop_hold (s : Saving) (p : Picture) (wait_cnt : ℤ) :
    ((s.singleLoop p wait_cnt).saver.hold = .single p ∨
      (s.singleLoop p wait_cnt).saver.hold = .nothing) ∧
    (s.singleLoop p wait_cnt).fds = s.fds ∧
    (s.singleLoop p wait_cnt).list.mList = s.list.mList ∧
    (s.singleLoop p wait_cnt).mIsSinglePicture = s.mIsSinglePicture := by
  unfold singleLoop
  split_ifs
  · exact ⟨.inl rfl, rfl, rfl, rfl⟩
  · exact ⟨.inr rfl, rfl, rfl, rfl⟩

lemma takeSingle_eq (s : Saving) (p : Picture) (wait_cnt : ℤ) :
    (s.takeSingle p wait_cnt).fds = s.fds.take .mFd ∧
    (s.takeSingle p wait_cnt).list.mList = s.list.mList ∧
    (s.takeSingle p wait_cnt).mIsSinglePicture = s.mIsSinglePicture ∧
    ((s.takeSingle p wait_cnt).saver.hold = .found p (s.fds.fd .mFd) ∨
      (s.takeSingle p wait_cnt).saver.hold = .nothing) ∧
    ((wait_cnt < 0 → s.fds.fd .mFd = none) ↔
      (s.takeSingle p wait_cnt).saver.hold = .found p (s.fds.fd .mFd)) := by
  unfold takeSingle
  cases hfd : s.fds.fd .mFd with
  | none => exact ⟨rfl, rfl, rfl, .inl rfl, iff_of_true (fun _ => rfl) rfl⟩
  | some n =>
    simp only
    split_ifs with hlast
    · exact ⟨rfl, rfl, rfl, .inr rfl, iff_of_false (fun h => absurd (h hlast) nofun) nofun⟩
    · exact ⟨rfl, rfl, rfl, .inl rfl, iff_of_true (fun h => absurd h hlast) rfl⟩

lemma takeContinuous_eq (s : Saving) (p : Picture) :
    (s.takeContinuous p).fds = s.fds.take (.mContinuousFd p.id) ∧
    (s.takeContinuous p).list.mList = s.list.mList ∧
    (s.takeContinuous p).mIsSinglePicture = s.mIsSinglePicture ∧
    (s.takeContinuous p).saver.hold = .found p (s.fds.fd (.mContinuousFd p.id)) := by
  unfold takeContinuous
  cases hfd : s.fds.fd (.mContinuousFd p.id) with
  | none => exact ⟨rfl, rfl, rfl, rfl⟩
  | some n => exact ⟨rfl, rfl, rfl, rfl⟩

lemma destroy_subset {l l' : PictureList} (h : l.destroy = some l') : l'.mList ⊆ l.mList := by
  refine Loop.run_keeps (P := fun k : PictureList => k.mList ⊆ l.mList) ?_ (List.Subset.refl _) h
  intro k k' hsub hturn
  unfold PictureList.pop at hturn
  split_ifs at hturn
  · exact absurd hturn nofun
  · cases hlist : k.mList with
    | nil =>
      rw [hlist] at hturn
      exact absurd hturn nofun
    | cons p ps =>
      rw [hlist] at hturn
      obtain rfl := Option.some.inj hturn
      rw [hlist] at hsub
      exact List.Subset.trans (List.subset_cons_self p ps) hsub

lemma effect_look (hstep : s.step .look = some s') : Effect s .look s' := by
  rcases step_look hstep with ⟨p, wait_cnt, hpc, rfl⟩ | ⟨p, hpc, rfl⟩
  · have hhold : s.saver.hold = .single p := congrArg Saver.hold hpc
    have htime : InTime .look s ↔ (wait_cnt < 0 → s.fds.fd .mFd = none) := by
      refine ⟨fun h => h p wait_cnt hpc, fun h p' w' hpc' => ?_⟩
      obtain ⟨-, rfl⟩ := Saver.single.inj (hpc.symm.trans hpc')
      exact h
    split_ifs with hnone
    · exact .quiet rfl (List.Subset.refl _) rfl (.inl hhold.symm) (htime.mpr fun _ => hnone)
    · obtain ⟨hfds, hlist, hmode, hfound, hlast⟩ := takeSingle_eq s p wait_cnt
      exact .take p .mFd s.fds (.inl ⟨hhold, rfl, rfl⟩) hfds hlist hmode hfound
        (htime.trans hlast)
  · have hhold : s.saver.hold = .continuous p := congrArg Saver.hold hpc
    have htime : InTime .look s := fun p' w' hpc' => by cases hpc.symm.trans hpc'
    split_ifs with hnone
    · exact .look p rfl rfl rfl hhold rfl htime
    · obtain ⟨hfds, hlist, hmode, hfound⟩ :=
        takeContinuous_eq ({ s with fds := s.fds.look p.id } : Saving) p
      exact .take p _ _ (.inr ⟨hhold, rfl, .inr rfl⟩) hfds hlist hmode (.inl hfound)
        (iff_of_true htime hfound)

lemma effect_wait {timedOut : Bool} (hstep : s.step (.wait timedOut) = some s') :
    Effect s (.wait timedOut) s' := by
  rcases step_wait hstep with ⟨p, wait_cnt, hpc, rfl⟩ | ⟨p, hpc, rfl⟩
  · have hhold : s.saver.hold = .single p := congrArg Saver.hold hpc
    cases timedOut with
    | false =>
      have htime : InTime (.wait false) s ↔ (wait_cnt < 0 → s.fds.fd .mFd = none) := by
        refine ⟨fun h => h p wait_cnt hpc rfl, fun h p' w' hpc' _ => ?_⟩
        obtain ⟨-, rfl⟩ := Saver.singleWait.inj (hpc.symm.trans hpc')
        exact h
      obtain ⟨hfds, hlist, hmode, hfound, hlast⟩ := takeSingle_eq s p wait_cnt
      exact .take p .mFd s.fds (.inl ⟨hhold, rfl, rfl⟩) hfds hlist hmode hfound
        (htime.trans hlast)
    | true =>
      have htime : InTime (.wait true) s := fun _ _ _ h => by cases h
      have hnone : s.saver.hold.fd = none := congrArg Hold.fd hhold
      show Effect s _ (if s.exit then s.leave else s.singleLoop p wait_cnt)
      split_ifs with hexit
      · exact .quiet rfl (List.Subset.refl _) rfl (.inr ⟨rfl, hnone⟩) htime
      · obtain ⟨hheld, hfds, hlist, hmode⟩ := singleLoop_hold s p wait_cnt
        refine .quiet hfds (hlist ▸ List.Subset.refl _) hmode ?_ htime
        exact hheld.imp (fun h => h.trans hhold.symm) fun h => ⟨h, hnone⟩
  · have hhold : s.saver.hold = .continuous p := congrArg Saver.hold hpc
    have htime : ∀ timedOut, InTime (.wait timedOut) s :=
      fun _ p' w' hpc' => by cases hpc.symm.trans hpc'
    split_ifs
    · exact .quiet rfl (List.Subset.refl _) rfl (.inr ⟨rfl, congrArg Hold.fd hhold⟩) (htime _)
    · obtain ⟨hfds, hlist, hmode, hfound⟩ := takeContinuous_eq s p
      exact .take p _ _ (.inr ⟨hhold, rfl, .inl rfl⟩) hfds hlist hmode (.inl hfound)
        (iff_of_true (htime _) hfound)

/-- Every step has one of these effects. -/
lemma step_effect {a : SaveAct} (hstep : s.step a = some s') : Effect s a s' := by
  cases a with
  | takePicture a =>
    simp only [Saving.step] at hstep
    split_ifs at hstep
    obtain rfl := Option.some.inj hstep
    exact effect_takePicture a
  | startContinuousPicture =>
    obtain rfl := Option.some.inj hstep
    exact .quiet rfl (List.Subset.refl _) rfl (.inl rfl) trivial
  | setPictureMode single =>
    obtain rfl := Option.some.inj hstep
    exact .mode single
  | setFd =>
    obtain ⟨fds, hfds, rfl⟩ := Option.map_eq_some_iff.mp hstep
    exact .supply fds hfds
  | stopThread =>
    obtain rfl := Option.some.inj hstep
    exact .quiet rfl (List.Subset.refl _) rfl (.inl rfl) trivial
  | begin =>
    simp only [Saving.step] at hstep
    split_ifs at hstep with hpc
    obtain rfl := Option.some.inj hstep
    obtain ⟨hhold, hfds, hlist, hmode⟩ := begin_hold s
    have hnone : s.saver.hold.fd = none := by rw [hpc.1]; rfl
    exact .quiet hfds (hlist ▸ List.Subset.refl _) hmode (.inr ⟨hhold, hnone⟩) trivial
  | wakeUp =>
    simp only [Saving.step] at hstep
    split_ifs at hstep with hpc
    obtain rfl := Option.some.inj hstep
    have hnone : s.saver.hold.fd = none := by rw [hpc]; rfl
    exact .quiet rfl (List.Subset.refl _) rfl (.inr ⟨rfl, hnone⟩) trivial
  | pop memory =>
    simp only [Saving.step] at hstep
    split_ifs at hstep with hpc
    obtain rfl := Option.some.inj hstep
    exact effect_pop hpc memory
  | look => exact effect_look hstep
  | wait timedOut => exact effect_wait hstep
  | write =>
    obtain ⟨p, n, hpc, rfl⟩ := step_write hstep
    exact .write p n (congrArg Saver.hold hpc) rfl rfl rfl rfl
  | destroy =>
    simp only [Saving.step] at hstep
    split_ifs at hstep
    obtain ⟨l, hl, rfl⟩ := Option.map_eq_some_iff.mp hstep
    exact .quiet rfl (destroy_subset hl) rfl (.inl rfl) trivial

/-! ## The descriptors are closed -/

lemma found_fd (p : Picture) (o : Option ℕ) : (Hold.found p o).fd = o := by
  cases o <;> rfl

lemma eq_found_iff {p : Picture} {o : Option ℕ} {held : Hold}
    (h : held = .found p o ∨ held = .nothing) : held = .found p o ↔ held.fd = o := by
  refine ⟨fun heq => heq ▸ found_fd p o, fun heq => ?_⟩
  rcases h with h | rfl
  · exact h
  · obtain rfl : none = o := heq
    rfl

/-- A step keeps all descriptors closed exactly if it is in time. -/
lemma used_step {a : SaveAct} (hs : s.fds.Used s.saver.hold.fd) (hstep : s.step a = some s') :
    s'.fds.Used s'.saver.hold.fd ∧ (s'.fds.AllClosed s'.saver.hold.fd ↔
      s.fds.AllClosed s.saver.hold.fd ∧ InTime a s) := by
  cases step_effect hstep with
  | quiet hfds hlist hmode hhold htime =>
    have hfd : s'.saver.hold.fd = s.saver.hold.fd := by
      rcases hhold with heq | ⟨heq, hnone⟩
      · rw [heq]
      · rw [heq, hnone]
        rfl
    rw [hfds, hfd]
    exact ⟨hs, (and_iff_left htime).symm⟩
  | push p halloc henc hfds hid hlist hmode hsaver =>
    rcases hfds with hfds | ⟨-, -, hfds⟩
    · rw [hfds, hsaver]
      exact ⟨hs, (and_iff_left trivial).symm⟩
    · rw [hfds, hsaver]
      exact ⟨hs.ask p, (and_iff_left trivial).symm⟩
  | mode single => exact ⟨hs, (and_iff_left trivial).symm⟩
  | supply fds hfds =>
    obtain ⟨hused, hiff⟩ := hs.setFd hfds
    exact ⟨hused, hiff.trans (and_iff_left trivial).symm⟩
  | popSingle p hmode hlist hfds hmode' hnone hhold =>
    rw [hnone] at hs ⊢
    rw [hfds, hhold]
    exact ⟨hs.ask p, (and_iff_left trivial).symm⟩
  | popContinuous p hmode hlist hfds hmode' hnone hhold =>
    rw [hnone] at hs ⊢
    rw [hfds, hhold]
    exact ⟨hs, (and_iff_left trivial).symm⟩
  | look p hfds hlist hmode hheld hhold htime =>
    rw [hheld] at hs ⊢
    rw [hfds, hhold]
    exact ⟨hs.look p.id, (and_iff_left htime).symm⟩
  | take p x d hx hfds hlist hmode hhold htime =>
    have hd : d.Used none ∧ d.fd x = s.fds.fd x ∧
        (d.AllClosed none ↔ s.fds.AllClosed s.saver.hold.fd) := by
      rcases hx with ⟨hheld, rfl, rfl⟩ | ⟨hheld, rfl, rfl | rfl⟩
      all_goals rw [hheld] at hs ⊢
      · exact ⟨hs, rfl, Iff.rfl⟩
      · exact ⟨hs, rfl, Iff.rfl⟩
      · exact ⟨hs.look p.id, rfl, Iff.rfl⟩
    obtain ⟨hd, hfd, hclosed⟩ := hd
    have hheld : s'.saver.hold.fd = d.fd x ∨ s'.saver.hold.fd = none := by
      rw [hfd]
      rcases hhold with heq | heq
      · exact .inl ((congrArg Hold.fd heq).trans (found_fd p _))
      · exact .inr (congrArg Hold.fd heq)
    obtain ⟨hused, hiff⟩ := hd.take hheld
    rw [hfds]
    refine ⟨hused, hiff.trans (and_congr hclosed ?_)⟩
    rw [htime, hfd, eq_found_iff hhold]
  | write p n hheld hfds hlist hmode hhold =>
    rw [hheld] at hs ⊢
    obtain ⟨hused, hiff⟩ := Descriptors.Used.write (n := n) hs p
    rw [hfds, hhold]
    exact ⟨hused, hiff.trans (and_iff_left trivial).symm⟩

/-! ## The indices -/

/-- The indices are in the array, and so are those of the pictures that it will be used for. -/
structure Within (s : Saving) : Prop where
  indices : ∀ i ∈ s.fds.indices, 0 ≤ i ∧ i < 10
  list : s.mIsSinglePicture = false → ∀ p ∈ s.list.mList, 0 ≤ p.id ∧ p.id < 10
  held : ∀ p, s.saver.hold = .continuous p → 0 ≤ p.id ∧ p.id < 10

lemma within_initial : initial.Within :=
  ⟨nofun, fun h => absurd h nofun, fun _ h => absurd h nofun⟩

lemma Within.step {a : SaveAct} (hs : s.Within) (hok : InRange a s)
    (hstep : s.step a = some s') : s'.Within := by
  cases step_effect hstep with
  | quiet hfds hlist hmode hhold htime =>
    refine ⟨hfds ▸ hs.indices, fun h p hp => hs.list (hmode.symm.trans h) p (hlist hp),
      fun p hp => ?_⟩
    rcases hhold with heq | ⟨heq, -⟩
    · exact hs.held p (heq.symm.trans hp)
    · exact absurd (heq.symm.trans hp) nofun
  | push p halloc henc hfds hid hlist hmode hsaver =>
    refine ⟨?_, fun h q hq => ?_, fun q hq => hs.held q (hsaver ▸ hq)⟩
    · rcases hfds with hfds | ⟨-, -, hfds⟩
      all_goals exact hfds ▸ hs.indices
    · rw [hmode] at h
      rw [hlist] at hq
      rcases List.mem_append.mp hq with hold | hnew
      · exact hs.list h q hold
      · obtain rfl := List.mem_singleton.mp hnew
        have hrange := hok h halloc henc
        split_ifs at hid hrange
        · rw [hid]
          exact hrange
        · exact absurd (hid.1.symm.trans hrange) nofun
  | mode single =>
    refine ⟨hs.indices, fun h p hp => ?_, hs.held⟩
    cases hmode : s.mIsSinglePicture with
    | false => exact hs.list hmode p hp
    | true => exact hok h hmode p hp
  | supply fds hfds =>
    obtain ⟨p, ps, -, -, -, -, -, -, -, hindices⟩ := Descriptors.setFd_eq hfds
    refine ⟨fun i hi => ?_, hs.list, hs.held⟩
    rw [hindices] at hi
    rcases List.mem_append.mp hi with hold | hnew
    · exact hs.indices i hold
    · split_ifs at hnew with hmode
      · exact absurd hnew List.not_mem_nil
      · have hpos := hok (Bool.eq_false_iff.mpr hmode)
        rw [List.mem_singleton.mp hnew]
        exact ⟨Int.tmod_nonneg _ hpos, Int.tmod_lt_of_pos _ (by decide)⟩
  | popSingle p hmode hlist hfds hmode' hnone hhold =>
    refine ⟨hfds ▸ hs.indices, fun h => ?_, fun q hq => ?_⟩
    · exact absurd (hmode.symm.trans (hmode'.symm.trans h)) nofun
    · exact absurd (hhold.symm.trans hq) nofun
  | popContinuous p hmode hlist hfds hmode' hnone hhold =>
    have hrange := hs.list hmode
    rw [hlist] at hrange
    refine ⟨hfds ▸ hs.indices, fun _ q hq => hrange q (List.mem_cons_of_mem p hq), fun q hq => ?_⟩
    obtain rfl := Hold.continuous.inj (hhold.symm.trans hq)
    exact hrange p List.mem_cons_self
  | look p hfds hlist hmode hheld hhold htime =>
    refine ⟨fun i hi => ?_, fun h => ?_, fun q hq => hs.held q ?_⟩
    · rw [hfds] at hi
      rcases List.mem_append.mp hi with hold | hnew
      · exact hs.indices i hold
      · rw [List.mem_singleton.mp hnew]
        exact hs.held p hheld
    · rw [hlist]
      exact hs.list (hmode.symm.trans h)
    · exact hheld.trans (hhold.symm.trans hq)
  | take p x d hx hfds hlist hmode hhold htime =>
    refine ⟨fun i hi => ?_, fun h => ?_, fun q hq => ?_⟩
    · rw [hfds] at hi
      rcases hx with ⟨hheld, rfl, rfl⟩ | ⟨hheld, rfl, rfl | rfl⟩
      · exact hs.indices i hi
      · exact hs.indices i hi
      · rcases List.mem_append.mp hi with hold | hnew
        · exact hs.indices i hold
        · rw [List.mem_singleton.mp hnew]
          exact hs.held p hheld
    · rw [hlist]
      exact hs.list (hmode.symm.trans h)
    · rcases hhold with heq | heq
      · exact absurd (heq.symm.trans hq) (by cases s.fds.fd x <;> exact nofun)
      · exact absurd (heq.symm.trans hq) nofun
  | write p n hheld hfds hlist hmode hhold =>
    refine ⟨hfds ▸ hs.indices, fun h => ?_, fun q hq => absurd (hhold.symm.trans hq) nofun⟩
    rw [hlist]
    exact hs.list (hmode.symm.trans h)

/-! ## The pictures -/

/-- A picture that the thread looks for in `mContinuousFd`, or will unless the mode changes. -/
def Pending (held : Hold) (mIsSinglePicture : Bool) (ps : List Picture) (p : Picture) : Prop :=
  held = .continuous p ∨ mIsSinglePicture = false ∧ p ∈ ps

/-- Pictures of a burst are written to their descriptors, and what is in the place that the thread
looks into for one, or on the way to it, is the one for it. -/
structure Served (d : Descriptors) (held : Hold) (mIsSinglePicture : Bool) (ps : List Picture) :
    Prop where
  written : ∀ w ∈ d.writes, 0 ≤ w.1.id → d.supplied[w.2]? = some w.1
  writing : ∀ p n, held = .write p n → 0 ≤ p.id → d.supplied[n]? = some p
  single : ∀ p, held = .single p → 0 ≤ p.id → mIsSinglePicture = true ∧
    (∀ n, d.fd .mFd = some n → d.supplied[n]? = some p) ∧ ∀ q ∈ d.asked, q = p
  continuous : ∀ p, Pending held mIsSinglePicture ps p →
    ∀ n, d.fd (.mContinuousFd p.id) = some n → d.supplied[n]? = some p
  asked : mIsSinglePicture = false → ∀ p, Pending held mIsSinglePicture ps p →
    ∀ q ∈ d.asked, q.id = p.id → q = p

variable {d d' : Descriptors} {held held' : Hold} {mIsSinglePicture : Bool} {ps ps' : List Picture}
  {p : Picture}

lemma served_create : Served .create .nothing true [] :=
  ⟨nofun, fun _ _ h => absurd h nofun, fun _ h => absurd h nofun,
    fun _ _ _ h => absurd h nofun, fun h => absurd h nofun⟩

/-- The thread may let go its node, and the list may lose others. -/
lemma Served.mono (hs : Served d held mIsSinglePicture ps) (hsub : ps' ⊆ ps)
    (hheld : held' = held ∨ held' = .nothing) : Served d held' mIsSinglePicture ps' := by
  have hback : ∀ {h : Hold}, h ≠ .nothing → held' = h → held = h := by
    rintro h hne rfl
    exact (hheld.resolve_right hne).symm
  have hpending : ∀ p, Pending held' mIsSinglePicture ps' p → Pending held mIsSinglePicture ps p :=
    fun p => Or.imp (hback nofun) (And.imp_right fun hmem => hsub hmem)
  exact ⟨hs.written, fun p n h => hs.writing p n (hback nofun h),
    fun p h => hs.single p (hback nofun h), fun p hp => hs.continuous p (hpending p hp),
    fun h p hp => hs.asked h p (hpending p hp)⟩

/-- In the single mode the list does not matter. -/
lemma Served.list (hs : Served d held true ps) : Served d held true ps' :=
  have hpending : ∀ p, Pending held true ps' p → Pending held true ps p :=
    fun _ => Or.imp id fun h => absurd h.1 nofun
  ⟨hs.written, hs.writing, hs.single, fun p hp => hs.continuous p (hpending p hp),
    fun h => absurd h nofun⟩

/-- A picture with an empty place that nothing else is on the way to. -/
lemma Served.push (hs : Served d held false ps) (hplace : d.fd (.mContinuousFd p.id) = none)
    (hnew : ∀ q, Pending held false ps q ∨ q ∈ d.asked → q.id ≠ p.id) (asks : Bool) :
    Served (if asks then d.ask p else d) held false (ps ++ [p]) := by
  have hasked : ∀ q ∈ (if asks then d.ask p else d).asked, q ∈ d.asked ∨ q = p := by
    intro q hq
    split_ifs at hq
    · exact (List.mem_append.mp hq).imp_right fun h => List.mem_singleton.mp h
    · exact .inl hq
  have hsame : (if asks then d.ask p else d).writes = d.writes ∧
      (if asks then d.ask p else d).supplied = d.supplied ∧
      (if asks then d.ask p else d).fd = d.fd := by
    split_ifs
    all_goals exact ⟨rfl, rfl, rfl⟩
  obtain ⟨hwrites, hsupplied, hfd⟩ := hsame
  have hpending : ∀ q, Pending held false (ps ++ [p]) q → Pending held false ps q ∨ q = p := by
    rintro q (heq | ⟨-, hmem⟩)
    · exact .inl (.inl heq)
    · rcases List.mem_append.mp hmem with hold | hlast
      · exact .inl (.inr ⟨rfl, hold⟩)
      · exact .inr (List.mem_singleton.mp hlast)
  refine ⟨?_, ?_, fun q h hid => ?_, fun q hq n hn => ?_, fun _ q hq r hr hid => ?_⟩
  · rw [hwrites, hsupplied]
    exact hs.written
  · rw [hsupplied]
    exact hs.writing
  · exact absurd (hs.single q h hid).1 nofun
  · rw [hfd] at hn
    rw [hsupplied]
    rcases hpending q hq with hold | rfl
    · exact hs.continuous q hold n hn
    · exact absurd (hplace.symm.trans hn) nofun
  · rcases hpending q hq, hasked r hr with ⟨hold | rfl, hold' | rfl⟩
    · exact hs.asked rfl q hold r hold' hid
    · exact absurd hid.symm (hnew q (.inl hold))
    · exact absurd hid (hnew r (.inr hold'))
    · rfl

/-- The mode changes; to the continuous one only when nothing is on the way. -/
lemma Served.mode (hs : Served d held mIsSinglePicture ps) (single : Bool)
    (hok : single = false → mIsSinglePicture = true →
      ps = [] ∧ d.asked = [] ∧ ∀ p, held ≠ .single p) : Served d held single ps := by
  cases single with
  | true =>
    cases mIsSinglePicture with
    | true => exact hs
    | false =>
      refine ⟨hs.written, hs.writing, fun p h hid => absurd (hs.single p h hid).1 nofun,
        fun p hp => hs.continuous p (hp.imp_right fun h => absurd h.1 nofun),
        fun h => absurd h nofun⟩
  | false =>
    cases mIsSinglePicture with
    | false => exact hs
    | true =>
      obtain ⟨hempty, hasked, hheld⟩ := hok rfl rfl
      refine ⟨hs.written, hs.writing, fun p h => absurd h (hheld p), fun p hp => ?_,
        fun _ p _ q hq => ?_⟩
      · refine hs.continuous p (hp.imp_right fun ⟨_, hmem⟩ => ?_)
        rw [hempty] at hmem
        exact absurd hmem List.not_mem_nil
      · rw [hasked] at hq
        exact absurd hq List.not_mem_nil

/-- A descriptor comes; in the continuous mode to the place of its picture. -/
lemma Served.setFd (hs : Served d held mIsSinglePicture ps)
    (hok : mIsSinglePicture = false → ∀ p ∈ d.asked.head?, p.id = d.mContinuousFdIndex.tmod 10)
    (h : d.setFd mIsSinglePicture = some d') : Served d' held mIsSinglePicture ps := by
  obtain ⟨q, qs, hasked, hasked', hsupplied, hfd, -, -, hwrites, -⟩ := Descriptors.setFd_eq h
  have hold : ∀ {n : ℕ} {p : Picture}, d.supplied[n]? = some p → d'.supplied[n]? = some p := by
    intro n p hn
    rw [hsupplied, List.getElem?_append_left (List.getElem?_eq_some_iff.mp hn).1]
    exact hn
  have hnew : d'.supplied[d.supplied.length]? = some q := by
    rw [hsupplied, List.getElem?_concat_length]
  have hq : q ∈ d.asked := hasked ▸ List.mem_cons_self
  have hsub : ∀ r ∈ d'.asked, r ∈ d.asked := fun r hr => by
    rw [hasked]
    exact List.mem_cons_of_mem q (hasked' ▸ hr)
  refine ⟨?_, fun p n h hid => hold (hs.writing p n h hid), fun p h hid => ?_, fun p hp n hn => ?_,
    fun h p hp r hr => hs.asked h p hp r (hsub r hr)⟩
  · rw [hwrites]
    exact fun w hw hid => hold (hs.written w hw hid)
  · obtain ⟨hmode, hplace, hall⟩ := hs.single p h hid
    refine ⟨hmode, fun n hn => ?_, fun r hr => hall r (hsub r hr)⟩
    rw [hfd, Descriptors.place, if_pos hmode, Function.update_self] at hn
    obtain rfl := Option.some.inj hn
    exact hall q hq ▸ hnew
  · rw [hfd] at hn
    by_cases heq : Place.mContinuousFd p.id = d.place mIsSinglePicture
    · rw [heq, Function.update_self] at hn
      obtain rfl := Option.some.inj hn
      unfold Descriptors.place at heq
      split_ifs at heq with hmode
      have hmode := Bool.eq_false_iff.mpr hmode
      have hid : q.id = p.id :=
        (hok hmode q (hasked ▸ rfl)).trans (Place.mContinuousFd.inj heq).symm
      exact hs.asked hmode p hp q hq hid ▸ hnew
    · rw [Function.update_of_ne heq] at hn
      exact hold (hs.continuous p hp n hn)

lemma Served.popSingle (hs : Served d .nothing true ps)
    (hok : 0 ≤ p.id → d.fd .mFd = none ∧ d.asked = []) : Served (d.ask p) (.single p) true ps' := by
  refine ⟨hs.written, fun _ _ h => absurd h nofun, fun q h hid => ?_,
    fun q hq => absurd hq (by rintro (h | h) <;> exact absurd h nofun), fun h => absurd h nofun⟩
  obtain rfl := Hold.single.inj h
  obtain ⟨hplace, hasked⟩ := hok hid
  refine ⟨rfl, fun n hn => absurd (hplace.symm.trans hn) nofun, fun q hq => ?_⟩
  rw [show (d.ask p).asked = [p] by rw [Descriptors.ask, hasked]; rfl] at hq
  exact List.mem_singleton.mp hq

lemma Served.popContinuous (hs : Served d .nothing false (p :: ps)) :
    Served d (.continuous p) false ps := by
  have hpending : ∀ q, Pending (.continuous p) false ps q → Pending .nothing false (p :: ps) q := by
    rintro q (heq | ⟨-, hmem⟩)
    · exact .inr ⟨rfl, Hold.continuous.inj heq ▸ List.mem_cons_self⟩
    · exact .inr ⟨rfl, List.mem_cons_of_mem p hmem⟩
  exact ⟨hs.written, fun _ _ h => absurd h nofun, fun _ h => absurd h nofun,
    fun q hq => hs.continuous q (hpending q hq), fun h q hq => hs.asked h q (hpending q hq)⟩

lemma Served.look (hs : Served d held mIsSinglePicture ps) (i : ℤ) :
    Served (d.look i) held mIsSinglePicture ps :=
  ⟨hs.written, hs.writing, hs.single, hs.continuous, hs.asked⟩

/-- What the thread takes for its picture is the descriptor for it. -/
lemma Served.take {x : Place} (hs : Served d held mIsSinglePicture ps)
    (hx : held = .single p ∧ x = .mFd ∨ held = .continuous p ∧ x = .mContinuousFd p.id) :
    Served (d.take x) (.found p (d.fd x)) mIsSinglePicture ps := by
  have hright : ∀ n, d.fd x = some n → 0 ≤ p.id → d.supplied[n]? = some p := by
    intro n hn hid
    rcases hx with ⟨rfl, rfl⟩ | ⟨rfl, rfl⟩
    · exact (hs.single p rfl hid).2.1 n hn
    · exact hs.continuous p (.inl rfl) n hn
  have hpending : ∀ {q}, Pending (.found p (d.fd x)) mIsSinglePicture ps q →
      Pending held mIsSinglePicture ps q := by
    rintro q (heq | h)
    · exact absurd heq (by cases d.fd x <;> exact nofun)
    · exact .inr h
  refine ⟨hs.written, fun q n h hid => ?_, fun q h => ?_, fun q hq n hn => ?_,
    fun h q hq => hs.asked h q (hpending hq)⟩
  · cases hfd : d.fd x with
    | none =>
      rw [hfd] at h
      exact absurd h nofun
    | some m =>
      rw [hfd] at h
      obtain ⟨rfl, rfl⟩ := Hold.write.inj h
      exact hright m hfd hid
  · exact absurd h (by cases d.fd x <;> exact nofun)
  · exact hs.continuous q (hpending hq) n (Descriptors.take_fd_eq_some hn).2

lemma Served.write {n : ℕ} (hs : Served d (.write p n) mIsSinglePicture ps) :
    Served (d.write p n) .nothing mIsSinglePicture ps := by
  have hpending : ∀ q, Pending .nothing mIsSinglePicture ps q →
      Pending (.write p n) mIsSinglePicture ps q := fun q => Or.imp_left fun h => absurd h nofun
  refine ⟨fun w hw hid => ?_, fun _ _ h => absurd h nofun, fun _ h => absurd h nofun,
    fun q hq => hs.continuous q (hpending q hq), fun h q hq => hs.asked h q (hpending q hq)⟩
  rcases List.mem_append.mp hw with hold | hnew
  · exact hs.written w hold hid
  · obtain rfl := List.mem_singleton.mp hnew
    exact hs.writing p n rfl hid

lemma served_step {a : SaveAct}
    (hs : Served s.fds s.saver.hold s.mIsSinglePicture s.list.mList)
    (hok : InRange a s ∧ Aligned a s) (hstep : s.step a = some s') :
    Served s'.fds s'.saver.hold s'.mIsSinglePicture s'.list.mList := by
  obtain ⟨hrange, haligned⟩ := hok
  cases step_effect hstep with
  | quiet hfds hlist hmode hhold htime =>
    rw [hfds, hmode]
    exact hs.mono hlist (hhold.imp_right And.left)
  | push p halloc henc hfds hid hlist hmode hsaver =>
    rw [hlist, hmode, hsaver]
    cases hsingle : s.mIsSinglePicture with
    | true =>
      rw [hsingle] at hs
      rcases hfds with hfds | ⟨-, hcont, -⟩
      · rw [hfds]
        exact hs.list
      · exact absurd (hsingle.symm.trans hcont) nofun
    | false =>
      rw [hsingle] at hs
      have hten := hrange hsingle halloc henc
      split_ifs at hid hten with hcont
      · obtain ⟨hplace, hnode, hothers⟩ := haligned hsingle hcont halloc henc
        have hnew : ∀ q, Pending s.saver.hold false s.list.mList q ∨ q ∈ s.fds.asked →
            q.id ≠ s.mSavePictureCnt := by
          rintro q ((hlooks | ⟨-, hmem⟩) | hasked)
          · exact hnode q (Saver.node_eq (.inr hlooks)) hlooks
          · exact hothers q (List.mem_append_left _ hmem)
          · exact hothers q (List.mem_append_right _ hasked)
        rw [← hid] at hplace hnew
        rcases hfds with hfds | ⟨-, -, hfds⟩
        · rw [hfds]
          exact hs.push hplace hnew false
        · rw [hfds]
          exact hs.push hplace hnew true
      · exact absurd (hid.1.symm.trans hten) nofun
  | mode single =>
    refine hs.mode single fun h h' => ?_
    obtain ⟨hlist, hasked, hnode⟩ := haligned h h'
    exact ⟨hlist, hasked, fun p hp => hnode p (Saver.node_eq (.inl hp)) hp⟩
  | supply fds hfds => exact hs.setFd haligned hfds
  | popSingle p hmode hlist hfds hmode' hnone hhold =>
    rw [hnone, hmode] at hs
    rw [hfds, hhold, hmode', hmode]
    exact hs.popSingle (haligned hmode rfl p (by rw [hlist]; rfl))
  | popContinuous p hmode hlist hfds hmode' hnone hhold =>
    rw [hnone, hmode, hlist] at hs
    rw [hfds, hhold, hmode', hmode]
    exact hs.popContinuous
  | look p hfds hlist hmode hheld hhold htime =>
    rw [hfds, hlist, hmode, hhold, ← hheld]
    exact hs.look p.id
  | take p x d hx hfds hlist hmode hhold htime =>
    have hd : Served d s.saver.hold s.mIsSinglePicture s.list.mList ∧ d.fd x = s.fds.fd x := by
      rcases hx with ⟨-, -, rfl⟩ | ⟨-, -, rfl | rfl⟩
      · exact ⟨hs, rfl⟩
      · exact ⟨hs, rfl⟩
      · exact ⟨hs.look p.id, rfl⟩
    obtain ⟨hd, hfd⟩ := hd
    have htaken := hd.take (hx.imp (fun h => ⟨h.1, h.2.1⟩) fun h => ⟨h.1, h.2.1⟩)
    rw [hfds, hlist, hmode]
    rw [hfd] at htaken
    exact htaken.mono (List.Subset.refl _) hhold
  | write p n hheld hfds hlist hmode hhold =>
    rw [hheld] at hs
    rw [hfds, hlist, hmode, hhold]
    exact hs.write

/-- With at most ten pictures in a burst, the indices are those of the array, a descriptor is used
for one picture and closed once, and all are closed if and only if none came in the last turn.  Each
picture of a burst has been written to the descriptor for it, if the places are kept in step. -/
theorem fds_iff (as : List SaveAct) (s : Saving) (hrun : as.foldlM step initial = some s)
    (hten : Meets step InRange initial as) :
    (∀ i ∈ s.fds.indices, 0 ≤ i ∧ i < 10) ∧
    (s.fds.writes.map Prod.snd).Nodup ∧ s.fds.closed = s.fds.writes.map Prod.snd ∧
    (s.fds.AllClosed s.saver.hold.fd ↔ Meets step InTime initial as) ∧
    (Meets step Aligned initial as → ∀ w ∈ s.fds.writes, 0 ≤ w.1.id →
      s.fds.supplied[w.2]? = some w.1) := by
  have hwithin : s.Within := Runs.invariant (fun hs hok hstep => hs.step hok hstep) within_initial
    (runs_of_meets as hten hrun)
  have hused : s.fds.Used s.saver.hold.fd := Runs.invariant
    (P := fun s : Saving => s.fds.Used s.saver.hold.fd) (fun hs _ hstep => (used_step hs hstep).1)
    Descriptors.used_create (runs_of_foldlM as hrun)
  refine ⟨hwithin.indices, hused.nodup, hused.closed_eq, ?_, fun haligned => ?_⟩
  · refine holds_iff_meets (P := fun s : Saving => s.fds.AllClosed s.saver.hold.fd) used_step as
      Descriptors.used_create ?_ hrun
    exact nofun
  · have hserved : Served s.fds s.saver.hold s.mIsSinglePicture s.list.mList := Runs.invariant
      (P := fun s : Saving => Served s.fds s.saver.hold s.mIsSinglePicture s.list.mList)
      (fun hs hok hstep => served_step hs hok hstep) served_create
      (runs_of_meets as (Meets.and as hten haligned) hrun)
    exact hserved.written

/-- A picture of a burst, with its descriptor. -/
def burstPicture : List SaveAct := [.takePicture ⟨true, true, true, true, true⟩, .setFd]

/-- The thread looks for the descriptor of the next picture. -/
def lookFor : List SaveAct := [.begin, .pop true, .look]

def save : List SaveAct := lookFor ++ [.write]

def startBurst : List SaveAct := [.setPictureMode false, .startContinuousPicture]

/-- A burst of two pictures. -/
theorem fds_iff_two :
    ∃ s, (startBurst ++ burstPicture ++ burstPicture ++ save ++ save).foldlM step initial =
        some s ∧ s.fds.writes.length = 2 ∧
      (s.fds.writes.map Prod.snd).Nodup ∧ s.fds.closed = s.fds.writes.map Prod.snd ∧
      (s.fds.AllClosed s.saver.hold.fd ↔ Meets step InTime initial
        (startBurst ++ burstPicture ++ burstPicture ++ save ++ save)) ∧
      ∀ w ∈ s.fds.writes, 0 ≤ w.1.id → s.fds.supplied[w.2]? = some w.1 := by
  obtain ⟨-, hnodup, hclosed, hiff, hright⟩ := fds_iff
    (startBurst ++ burstPicture ++ burstPicture ++ save ++ save) _ rfl
    (meets_of_exec _ (by decide +kernel))
  exact ⟨_, rfl, rfl, hnodup, hclosed, hiff, hright (meets_of_exec _ (by decide +kernel))⟩

/-- The eleventh picture of a burst; the second burst behind one of a single picture, where the
thread has waited for the first picture in vain; a descriptor in the last turn. -/
theorem fds_wrong :
    (∃ s, (startBurst ++ (List.replicate 10 (burstPicture ++ save)).flatten ++ burstPicture ++
        lookFor).foldlM step initial = some s ∧ 10 ∈ s.fds.indices) ∧
    (∃ s, (startBurst ++ burstPicture ++ save ++ startBurst ++ burstPicture ++ burstPicture ++
        lookFor ++ [.wait true] ++ save : List SaveAct).foldlM step initial = some s ∧
      ∃ w ∈ s.fds.writes, 0 ≤ w.1.id ∧ s.fds.supplied[w.2]? ≠ some w.1) ∧
    ∃ s, (.takePicture ⟨false, true, true, true, true⟩ :: (lookFor ++
        (List.replicate 4 [.wait true, .look]).flatten ++ [.wait true, .setFd, .look]) :
          List SaveAct).foldlM step initial = some s ∧
      ∃ n ∈ s.fds.taken, n ∉ s.fds.closed ∧ s.saver.hold.fd = none := by
  refine ⟨⟨_, rfl, ?_⟩, ⟨_, rfl, ?_⟩, ⟨_, rfl, ?_⟩⟩
  · decide +kernel
  · decide +kernel
  · decide +kernel

end Saving

end Softwinner.Camera
