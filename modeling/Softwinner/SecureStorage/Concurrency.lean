import Softwinner.Framework.Mutex
import Softwinner.SecureStorage.Agreement

/-!
# Sessions of many threads

Any number of threads call `private_data_write` and `private_data_read`.  The secure store is
protected by `sec_mutex`, which is taken in `sunxi_secure_storage_init` and released in
`sunxi_secure_storage_exit`, in the middle of other functions and with several ways out.  The
private store has no mutex at all.

`SessionRules` is what a thread has to know about the functions of the secure store, in terms of
a condition on the store while the mutex is free and one while a session is open.  From it
follows once and for all how `api.c` uses the mutex.  The rules have two instances.
`disciplineRules` knows only that `secure_storage_inited` is set in a session; it holds whatever
fails, and gives the discipline of the mutex.  `listingRules` follows the names of the map, and
gives what a return code of 0 means for the flash.
-/

namespace Softwinner.SecureStorage

open Framework Prog

/-! ## Calls -/

/-- What a thread may call. -/
inductive ApiCall
  | write (itemName buffer : Option Bytes)
  | read (itemName buffer : Bytes) (dataLen : ℤ)

/-- What a thread's last call has returned. -/
inductive Outcome
  /-- The thread has not called anything. -/
  | idle
  | write (itemName : Option Bytes) (ret : ℤ)
  | read (out : ReadOut)

def ApiCall.prog (crc32 : Bytes → UInt32) : ApiCall → Api Outcome
  | .write a b => privateDataWrite crc32 a b >>= fun r => pure (.write a r)
  | .read a b d => privateDataRead crc32 a b d >>= fun r => pure (.read r)

/-- Pools of threads that call the data interface. -/
abbrev ApiPool (ι : Type) := Pool ι ApiOp ApiOp.Res Outcome ApiState

/-- The operations that are allowed without the mutex: those on the partition, and the test for
the device file. -/
def ApiOp.Free : ApiOp → Prop
  | .inl .accessSocInfo => True
  | .inl _ => False
  | .inr _ => True

/-- Choices are restricted for the secure store only. -/
def PoolOk (Ok : Op → Choice → Store → Prop) : ApiOp → Choice → ApiState → Prop
  | .inl op, c, x => Ok op c x.1
  | .inr _, _, _ => True

lemma part_of_free (op : ApiOp) (c : Choice) (x : ApiState) (r : ApiOp.Res op) (x' : ApiState)
    (hfree : ApiOp.Free op) (hr : performApi op c x = some (r, x')) : x'.1 = x.1 := by
  cases op with
  | inl op =>
    cases op with
    | accessSocInfo =>
      have hx := (Prod.mk.inj (Option.some.inj hr)).2
      rw [← hx]
    | _ => exact hfree.elim
  | inr op =>
    obtain ⟨y, -, hy⟩ := Option.map_eq_some_iff.mp hr
    rw [← (Prod.mk.inj hy).2]

/-! ## The shape of the sections -/

section Shape

variable {crc32 : Bytes → UInt32} {Ok : Op → Choice → Store → Prop} {s : Store}

/-- A write of any buffer changes the flash at most. -/
lemma wp_nvWrite_frame {id : ℕ} {buf : Bytes} {h : Bool} {Q : ℤ → Bool → Store → Prop}
    (hQ : ∀ r s', s' = { s with emmc := s'.emmc, nand := s'.nand } → Q r h s') :
    wp perform Ok (nvWrite id buf) Q h s := by
  unfold nvWrite
  refine wp_step fun _ _ => ⟨_, _, rfl, ?_⟩
  split_ifs
  · unfold nandWrite
    split_ifs
    · exact hQ _ s rfl
    refine wp_step fun _ _ => ⟨_, _, rfl, ?_⟩
    split_ifs
    · exact hQ _ s rfl
    refine wp_step fun c _ => ⟨_, _, rfl, ?_⟩
    split_ifs
    · exact hQ _ _ rfl
    · exact hQ _ _ rfl
  · refine wp_mono wp_sdWrite ?_
    rintro r h' s' ⟨rfl, w0, w1, -, -, rfl, -⟩
    exact hQ _ _ rfl
  · exact hQ _ s rfl

/-- `init` takes the mutex first, and returns as soon as it has given it back. -/
lemma exists_init_eq (crc32 : Bytes → UInt32) :
    ∃ p : Sec ℤ, sunxiSecureStorageInit crc32 = .lock p ∧
      ∀ (Ok : Op → Choice → Store → Prop) (s : Store), p.Tidy perform Ok s := by
  refine ⟨_, rfl, fun Ok s => ?_⟩
  refine tidy_step fun inited s => ?_
  split_ifs
  · exact tidy_step fun _ _ => trivial
  have htype : ∀ h, wp perform Ok getFlashType (fun _ _ _ => True) h s :=
    fun h => wp_getFlashType fun _ _ _ => trivial
  refine tidy_bind (htype true) (htype false) fun _ s => ?_
  refine tidy_step fun map s => ?_
  have hread : ∀ h, wp perform Ok (nvRead crc32 0 map) (fun _ _ _ => True) h s :=
    fun h => wp_nvRead_frame fun _ _ _ => trivial
  refine tidy_bind (hread true) (hread false) fun x s => ?_
  refine tidy_step fun _ s => ?_
  split_ifs
  · exact tidy_release
  · exact tidy_step fun _ _ => tidy_step fun _ _ => trivial

lemma tidy_closeSession : (closeSession).Tidy perform Ok s :=
  tidy_step fun _ _ => tidy_step fun _ _ => tidy_release

lemma tidy_exit : (sunxiSecureStorageExit crc32 0).Tidy perform Ok s := by
  unfold sunxiSecureStorageExit
  refine tidy_step fun inited s => ?_
  split_ifs with hclosed hmode
  · trivial
  · exact absurd rfl hmode
  refine tidy_step fun dirty s => ?_
  cases dirty with
  | false => exact tidy_closeSession
  | true =>
    refine tidy_step fun map s => tidy_step fun _ s => ?_
    have hwrite : ∀ h, wp perform Ok (nvWrite 0 (sealedMap crc32 map)) (fun _ _ _ => True) h s :=
      fun h => wp_nvWrite_frame fun _ _ _ => trivial
    refine tidy_bind (hwrite true) (hwrite false) fun ret s => ?_
    split_ifs
    · exact tidy_release
    · exact tidy_closeSession

end Shape

/-! ## Rules of a session -/

/-- The admitted choices of defined operations. -/
def Defined (Ok : Op → Choice → Store → Prop) : Op → Choice → Store → Prop :=
  fun op c s => Ok op c s ∧ op ≠ .fault

/-- What a thread has to know about a session: `free` holds while nobody has the mutex, `opened`
in a session and `wrote a` in one that has written `a`.  `done a` is what a return code of 0
from a write of `a` stands for; `Name` are the names that are written. -/
structure SessionRules (crc32 : Bytes → UInt32) (Ok : Op → Choice → Store → Prop)
    (Name : Bytes → Prop) where
  free : Store → Prop
  opened : Store → Prop
  wrote : Bytes → Store → Prop
  done : Bytes → Store → Prop
  init : ∀ {s}, free s → wp perform (Defined Ok) (sunxiSecureStorageInit crc32)
    (fun r h s' => r = -1 ∧ h = false ∧ free s' ∧ (∀ a, done a s') ∨
      r = 0 ∧ h = true ∧ opened s') false s
  write : ∀ {s a p} (h : Bool), Name a → opened s →
    wp perform (Defined Ok) (sunxiSecureObjectWrite crc32 a p)
      (fun r h' s' => h' = h ∧ (r < 0 → opened s') ∧ (0 ≤ r → wrote a s')) h s
  exit : ∀ {s}, opened s → wp perform (Defined Ok) (sunxiSecureStorageExit crc32 0)
    (fun _ h s' => h = false ∧ free s') true s
  exitWrote : ∀ {s a}, wrote a s → wp perform (Defined Ok) (sunxiSecureStorageExit crc32 0)
    (fun r h s' => h = false ∧ free s' ∧ (0 ≤ r → done a s')) true s
  unsupported : ∀ {s a}, s.socInfo = false → done a s

section Rules

variable {crc32 : Bytes → UInt32} {Ok : Op → Choice → Store → Prop} {Name : Bytes → Prop}
  (R : SessionRules crc32 Ok Name) {α β : Type} {s : Store} {a p buf : Bytes} {dl : ℤ}

/-- The precondition of a program of the interface among others. -/
abbrev SessionRules.among (p : Api α) (Q : α → Bool → Store → Prop) (h : Bool) (s : Store) : Prop :=
  p.cwp performApi (PoolOk Ok) Prod.fst ApiOp.Free R.free Q h s

lemma defined_of_some (op : Op) (c : Choice) (s : Store) (t : EnvStore) (r : op.Res × Store)
    (hc : PoolOk Ok (.inl op) c (s, t)) (hr : perform op c s = some r) : Defined Ok op c s :=
  ⟨hc, noFault_of_some hr⟩

lemma sec_bind (p : Sec α) (f : α → Sec β) : sec (p >>= f) = sec p >>= fun a => sec (f a) :=
  liftLeft_bind p f

lemma SessionRules.among_init :
    R.among (sec (sunxiSecureStorageInit crc32))
      (fun r h s' => r = -1 ∧ h = false ∧ R.free s' ∧ (∀ a, R.done a s') ∨
        r = 0 ∧ h = true ∧ R.opened s') false s := by
  obtain ⟨q, hq, htidy⟩ := exists_init_eq crc32
  rw [hq]
  refine cwp_of_wp_lock defined_of_some (fun s' hs' => ⟨?_, htidy _ s'⟩) ?_
  · rw [← hq]
    exact R.init hs'
  · rintro r s' (⟨-, -, hfree, -⟩ | ⟨-, hheld, -⟩)
    · exact hfree
    · cases hheld

lemma SessionRules.among_exit (hs : R.opened s) :
    R.among (sec (sunxiSecureStorageExit crc32 0)) (fun _ h _ => h = false) true s := by
  refine cwp_mono (cwp_of_wp defined_of_some (R.exit hs) tidy_exit fun _ _ h => h.2) ?_
  rintro r h s' ⟨rfl, -⟩
  rfl

lemma SessionRules.among_exitWrote (hs : R.wrote a s) :
    R.among (sec (sunxiSecureStorageExit crc32 0))
      (fun r h s' => h = false ∧ (0 ≤ r → R.done a s')) true s := by
  refine cwp_mono (cwp_of_wp defined_of_some (R.exitWrote hs) tidy_exit fun _ _ h => h.2.1) ?_
  rintro r h s' ⟨rfl, -, hdone⟩
  exact ⟨rfl, hdone⟩

lemma SessionRules.among_write (ha : Name a) (hs : R.opened s) :
    R.among (sec (sunxiSecureObjectWrite crc32 a p))
      (fun r h s' => h = true ∧ (r < 0 → R.opened s') ∧ (0 ≤ r → R.wrote a s')) true s := by
  refine cwp_of_wp defined_of_some (R.write true ha hs)
    (tidy_of_wp (R.write true ha hs) (R.write false ha hs)) ?_
  rintro r s' ⟨hheld, -⟩
  cases hheld

lemma SessionRules.among_read (hs : R.opened s) :
    R.among (sec (sunxiSecureObjectRead crc32 a buf dl))
      (fun _ h s' => h = true ∧ R.opened s') true s := by
  have hframe : ∀ h, wp perform (Defined Ok) (sunxiSecureObjectRead crc32 a buf dl)
      (fun _ h' s' => h' = h ∧ R.opened s') h s :=
    fun h => wp_sunxiSecureObjectRead_frame (fun _ _ hc => hc.2 rfl) fun _ => ⟨rfl, hs⟩
  refine cwp_of_wp defined_of_some (hframe true) (tidy_of_wp (hframe true) (hframe false)) ?_
  rintro r s' ⟨hheld, -⟩
  cases hheld

lemma SessionRules.among_support :
    R.among (sec (secureStorageSupport crc32))
      (fun r h s' => h = false ∧ (r ≠ 0 → ∀ a, R.done a s')) false s := by
  unfold secureStorageSupport
  refine ⟨fun _ => trivial, ?_⟩
  rintro c ⟨s₁, t⟩ r x' - - hr
  obtain ⟨rfl, rfl⟩ := Prod.mk.inj (Option.some.inj hr)
  cases hsoc : s₁.socInfo with
  | false => exact ⟨rfl, fun _ a => R.unsupported hsoc⟩
  | true =>
    change R.among (sec (sunxiSecureStorageInit crc32 >>= fun r =>
      if r < 0 then pure (-1) else sunxiSecureStorageExit crc32 0 >>= fun _ => pure 0)) _ false s₁
    rw [sec_bind]
    refine cwp_bind_of R.among_init ?_
    rintro r h s' (⟨rfl, rfl, -, hdone⟩ | ⟨rfl, rfl, hopen⟩)
    · rw [if_pos (by decide)]
      exact ⟨rfl, fun _ => hdone⟩
    · rw [if_neg (by decide), sec_bind]
      refine cwp_bind_of (R.among_exit hopen) ?_
      rintro _ h s'' rfl
      exact ⟨rfl, fun hne => absurd rfl hne⟩

/-- The secure half of a write. -/
lemma SessionRules.among_writeSecure (ha : Name a) :
    R.among (sec (writeSecure crc32 a p)) (fun r h s' => h = false ∧ (r = 0 → R.done a s')) false
      s := by
  unfold writeSecure
  rw [sec_bind]
  refine cwp_bind_of R.among_support ?_
  rintro r h s₁ ⟨rfl, hdone⟩
  by_cases hr : r = 0
  swap
  · rw [if_neg hr]
    exact ⟨rfl, fun _ => hdone hr a⟩
  rw [if_pos hr, sec_bind]
  refine cwp_bind_of R.among_init ?_
  rintro r h s₂ (⟨rfl, rfl, -, -⟩ | ⟨rfl, rfl, hopen⟩)
  · rw [if_pos (by decide)]
    exact ⟨rfl, fun hzero => nomatch hzero⟩
  rw [if_neg (by decide), sec_bind]
  refine cwp_bind_of (R.among_write ha hopen) ?_
  rintro r h s₃ ⟨rfl, hopen', hwrote⟩
  by_cases hneg : r < 0
  · rw [if_pos hneg, sec_bind]
    refine cwp_bind_of (R.among_exit (hopen' hneg)) ?_
    rintro _ h s₄ rfl
    exact ⟨rfl, fun hzero => nomatch hzero⟩
  · rw [if_neg hneg, sec_bind]
    refine cwp_bind_of (R.among_exitWrote (hwrote (Int.not_lt.mp hneg))) ?_
    rintro r h s₄ ⟨rfl, hdone'⟩
    by_cases hexit : r < 0
    · rw [if_pos hexit]
      exact ⟨rfl, fun hzero => nomatch hzero⟩
    · rw [if_neg hexit]
      exact ⟨rfl, fun _ => hdone' (Int.not_lt.mp hexit)⟩

/-- The secure half of a read. -/
lemma SessionRules.among_readSecure :
    R.among (sec (readSecure crc32 a buf dl)) (fun _ h _ => h = false) false s := by
  unfold readSecure
  rw [sec_bind]
  refine cwp_bind_of R.among_support ?_
  rintro r h s₁ ⟨rfl, -⟩
  by_cases hr : r = 0
  swap
  · rw [if_neg hr]
    rfl
  rw [if_pos hr, sec_bind]
  refine cwp_bind_of R.among_init ?_
  rintro r h s₂ (⟨rfl, rfl, -, -⟩ | ⟨rfl, rfl, hopen⟩)
  · rw [if_pos (by decide)]
    rfl
  rw [if_neg (by decide), sec_bind]
  refine cwp_bind_of (R.among_read hopen) ?_
  rintro r h s₃ ⟨rfl, hopen'⟩
  by_cases hneg : r.ret < 0
  · rw [if_pos hneg, sec_bind]
    refine cwp_bind_of (R.among_exit hopen') ?_
    rintro _ h s₄ rfl
    rfl
  · rw [if_neg hneg, sec_bind]
    refine cwp_bind_of (R.among_exit hopen') ?_
    rintro r' h s₄ rfl
    split_ifs
    · rfl
    · rfl

end Rules

/-! ## Calls among others -/

section Calls

variable {a src buf : Bytes} {dl : ℤ} {α : Type}

lemma mutexFree_orEnvFault (o : Option α) : (orEnvFault o).MutexFree := by
  cases o with
  | some x => trivial
  | none => exact fun e => nomatch e

lemma mutexFree_privateStoreWrite : (sunxiPrivateStoreWrite a src).MutexFree := by
  unfold sunxiPrivateStoreWrite
  refine mutexFree_step fun ok => ?_
  split_ifs
  · trivial
  refine mutexFree_step fun priBuf => ?_
  cases priBuf with
  | none => trivial
  | some priBuf =>
    refine mutexFree_bind (mutexFree_orEnvFault _) fun priBuf => ?_
    refine mutexFree_step fun ok => ?_
    split_ifs
    · trivial
    · trivial

lemma mutexFree_privateStoreRead : (sunxiPrivateStoreRead a buf dl).MutexFree := by
  unfold sunxiPrivateStoreRead
  split_ifs
  · trivial
  refine mutexFree_step fun ok => ?_
  split_ifs
  · trivial
  refine mutexFree_step fun priBuf => ?_
  cases priBuf with
  | none => trivial
  | some priBuf =>
    refine mutexFree_bind (mutexFree_orEnvFault _) fun r => ?_
    obtain ⟨ret, buffer⟩ := r
    dsimp only
    split_ifs
    · trivial
    · trivial

/-- The names a call writes. -/
def ApiCall.Writes (Name : Bytes → Prop) : ApiCall → Prop
  | .write (some a) _ => Name a
  | _ => True

/-- What threads run: calls that write names with `Name`. -/
def Calls (crc32 : Bytes → UInt32) (Name : Bytes → Prop) (p : Api Outcome) : Prop :=
  ∃ c : ApiCall, c.Writes Name ∧ p = c.prog crc32

variable {crc32 : Bytes → UInt32} {Ok : Op → Choice → Store → Prop} {Name : Bytes → Prop}
  (R : SessionRules crc32 Ok Name) {s : Store}

/-- A return code of 0 from a write means what the rules say. -/
def SessionRules.Returned : Outcome → Store → Prop
  | .write (some a) r, s => r = 0 → R.done a s
  | _, _ => True

lemma SessionRules.among_call (c : ApiCall) (hc : c.Writes Name) :
    R.among (c.prog crc32) (fun o h s' => h = false ∧ R.Returned o s') false s := by
  cases c with
  | write itemName buffer =>
    unfold ApiCall.prog privateDataWrite
    match itemName, buffer with
    | none, _ => exact ⟨rfl, trivial⟩
    | some a, none => exact ⟨rfl, fun hzero => nomatch hzero⟩
    | some a, some b =>
      refine cwp_bind_of (R := fun r h s' => h = false ∧ (r = 0 → R.done a s')) ?_ ?_
      · dsimp only
        split_ifs
        · exact ⟨rfl, fun hzero => nomatch hzero⟩
        refine cwp_bind_of (cwp_of_mutexFree mutexFree_privateStoreWrite (fun _ => trivial)
          (Q := fun _ h _ => h = false) fun _ _ => rfl) ?_
        rintro r h s' rfl
        split_ifs
        · exact ⟨rfl, fun hzero => nomatch hzero⟩
        · exact R.among_writeSecure hc
      · rintro r h s' ⟨rfl, hdone⟩
        exact ⟨rfl, hdone⟩
  | read a buffer dataLen =>
    unfold ApiCall.prog privateDataRead
    refine cwp_bind_of (R := fun _ h _ => h = false) ?_ ?_
    · refine cwp_bind_of R.among_readSecure ?_
      rintro r h s' rfl
      split_ifs
      · rfl
      · exact cwp_of_mutexFree mutexFree_privateStoreRead (fun _ => trivial) fun _ _ => rfl
    · rintro r h s' rfl
      exact ⟨rfl, trivial⟩

/-- Threads that have not started yet. -/
def startPool (ι : Type) (x : ApiState) : ApiPool ι := ⟨fun _ => .ret .idle, none, x⟩

variable {ι : Type} [DecidableEq ι] {x : ApiState} {w w' : ApiPool ι} {i : ι}

/-- Every thread of every run has its precondition. -/
lemma SessionRules.inv (hx : R.free x.1)
    (hreach : Pool.Reach performApi (PoolOk Ok) (Calls crc32 Name) (startPool ι x) w) :
    w.Inv performApi (PoolOk Ok) Prod.fst ApiOp.Free R.free R.Returned := by
  have hstart : (startPool ι x).Inv performApi (PoolOk Ok) Prod.fst ApiOp.Free R.free
      R.Returned := by
    exact ⟨fun _ => hx, fun i hi => (nomatch hi), fun i _ => ⟨x.1, rfl, trivial⟩⟩
  refine hstart.reach part_of_free ?_ hreach
  rintro p ⟨c, hc, rfl⟩ s
  exact R.among_call c hc

/-- A write that returns 0 does so in a state with `done`. -/
lemma SessionRules.returned (hx : R.free x.1)
    (hreach : Pool.Reach performApi (PoolOk Ok) (Calls crc32 Name) (startPool ι x) w)
    (hstep : Pool.Step performApi (PoolOk Ok) (Calls crc32 Name) i w w') {a : Bytes}
    (hret : w'.rest i = .ret (.write (some a) 0)) : R.done a w'.st.1 := by
  have hcalls : ∀ p, Calls crc32 Name p → ∀ s,
      R.among p (fun o h s' => h = false ∧ R.Returned o s') false s := by
    rintro p ⟨c, hc, rfl⟩ s
    exact R.among_call c hc
  exact ((R.inv hx hreach).step part_of_free hcalls hstep).2 _ hret rfl

end Calls

/-! ## The discipline of the mutex -/

section Discipline

variable {crc32 : Bytes → UInt32} {Ok : Op → Choice → Store → Prop} {s : Store} {a p : Bytes}

/-- Whatever the map looks like, a write leaves the session open. -/
lemma wp_objectWrite_inited {h : Bool} (hs : s.secureStorageInited = true) :
    wp perform (Defined Ok) (sunxiSecureObjectWrite crc32 a p)
      (fun _ h' s' => h' = h ∧ s'.secureStorageInited = true) h s := by
  have hfault : ∀ c s', ¬ Defined Ok .fault c s' := fun _ _ hc => hc.2 rfl
  have hwrite : wp perform (Defined Ok) (writeObject crc32 a p)
      (fun _ h' s' => h' = h ∧ s'.secureStorageInited = true) h s := by
    unfold writeObject
    cases wrapSecureObject crc32 p a (zeros secBlkSize) with
    | none => exact ⟨rfl, hs⟩
    | some obj =>
      dsimp only
      unfold sunxiSecureStorageWrite
      refine wp_step fun _ _ => ⟨_, _, rfl, ?_⟩
      split_ifs
      · exact ⟨rfl, hs⟩
      refine wp_step fun _ _ => ⟨_, _, rfl, ?_⟩
      rw [wp_bind]
      refine wp_orFault (fun x _ => ?_) fun _ => hfault
      obtain ⟨index, map⟩ := x
      dsimp only
      refine wp_step fun _ _ => ⟨_, _, rfl, ?_⟩
      split_ifs
      · exact ⟨rfl, hs⟩
      rw [wp_bind]
      refine wp_nvWrite_frame fun r s' hs' => ?_
      have hinited : s'.secureStorageInited = true := by
        rw [hs']
        exact hs
      split_ifs
      · exact ⟨rfl, hinited⟩
      · exact wp_step fun _ _ => ⟨_, _, rfl, rfl, hinited⟩
  unfold sunxiSecureObjectWrite
  refine wp_step fun _ _ => ⟨_, _, rfl, ?_⟩
  have hprobe : wp perform (Defined Ok) (sunxiSecureStorageProbe a)
      (fun _ h' s' => h' = h ∧ s' = s) h s := by
    unfold sunxiSecureStorageProbe
    refine wp_step fun _ _ => ⟨_, _, rfl, ?_⟩
    split_ifs
    · exact ⟨rfl, rfl⟩
    refine wp_step fun _ _ => ⟨_, _, rfl, ?_⟩
    rw [wp_bind]
    refine wp_orFault (fun x _ => ?_) fun _ => hfault
    cases x with
    | none => exact ⟨rfl, rfl⟩
    | some x => exact ⟨rfl, rfl⟩
  refine wp_bind_of hprobe ?_
  rintro r h' s' ⟨rfl, rfl⟩
  split_ifs
  · rw [wp_bind]
    refine wp_sunxiSecureObjectRead_frame hfault fun so => ?_
    split_ifs
    · exact ⟨rfl, hs⟩
    · exact hwrite
  · exact hwrite

/-- `exit` closes the session or leaves it, and releases the mutex in both cases. -/
lemma wp_exit_released (hs : s.secureStorageInited = true) :
    wp perform Ok (sunxiSecureStorageExit crc32 0) (fun _ h _ => h = false) true s := by
  unfold sunxiSecureStorageExit
  refine wp_step fun _ _ => ⟨_, _, rfl, ?_⟩
  rw [hs, if_neg (by decide), if_neg (by decide)]
  have hclose : ∀ s', wp perform Ok closeSession (fun _ h _ => h = false) true s' := by
    intro s'
    refine wp_step fun _ _ => ⟨_, _, rfl, ?_⟩
    refine wp_step fun _ _ => ⟨_, _, rfl, ?_⟩
    exact ⟨rfl, rfl⟩
  refine wp_step fun _ _ => ⟨_, _, rfl, ?_⟩
  cases s.mapDirty with
  | false => exact hclose s
  | true =>
    refine wp_step fun _ _ => ⟨_, _, rfl, ?_⟩
    refine wp_step fun _ _ => ⟨_, _, rfl, ?_⟩
    rw [wp_bind]
    refine wp_nvWrite_frame fun r s' _ => ?_
    split_ifs
    · exact ⟨rfl, rfl⟩
    · exact hclose s'

/-- `init` returns with the mutex held exactly when it succeeds. -/
lemma wp_init_inited :
    wp perform Ok (sunxiSecureStorageInit crc32) (fun r h s' => r = -1 ∧ h = false ∨
      r = 0 ∧ h = true ∧ s'.secureStorageInited = true) false s := by
  unfold sunxiSecureStorageInit
  refine ⟨rfl, ?_⟩
  refine wp_step fun _ _ => ⟨_, _, rfl, ?_⟩
  split_ifs
  · exact wp_step fun _ _ => ⟨_, _, rfl, Or.inr ⟨rfl, rfl, rfl⟩⟩
  rw [wp_bind]
  refine wp_getFlashType fun _ b _ => ?_
  refine wp_step fun _ _ => ⟨_, _, rfl, ?_⟩
  rw [wp_bind]
  refine wp_nvRead_frame fun r map _ => ?_
  refine wp_step fun _ _ => ⟨_, _, rfl, ?_⟩
  split_ifs
  · exact ⟨rfl, Or.inl ⟨rfl, rfl⟩⟩
  · refine wp_step fun _ _ => ⟨_, _, rfl, ?_⟩
    exact wp_step fun _ _ => ⟨_, _, rfl, Or.inr ⟨rfl, rfl, rfl⟩⟩

/-- All that a thread has to know for its use of the mutex: a session is open. -/
def disciplineRules (crc32 : Bytes → UInt32) : SessionRules crc32 AnyOk fun _ => True where
  free _ := True
  opened s := s.secureStorageInited = true
  wrote _ s := s.secureStorageInited = true
  done _ _ := True
  init := by
    intro s _
    refine wp_mono wp_init_inited ?_
    rintro r h s' (⟨hr, hh⟩ | hopen)
    · exact Or.inl ⟨hr, hh, trivial, fun _ => trivial⟩
    · exact Or.inr hopen
  write := by
    intro s a p h _ hs
    refine wp_mono (wp_objectWrite_inited hs) ?_
    rintro r h' s' ⟨hh, hopen⟩
    exact ⟨hh, fun _ => hopen, fun _ => hopen⟩
  exit hs := wp_mono (wp_exit_released hs) fun _ _ _ hh => ⟨hh, trivial⟩
  exitWrote hs := wp_mono (wp_exit_released hs) fun _ _ _ hh => ⟨hh, trivial, fun _ => trivial⟩
  unsupported _ := trivial

end Discipline

/-! ## What a return code of 0 means -/

section Persistence

/-- Names that the prefix lookup of the map keeps apart. -/
structure Separate (Name : Bytes → Prop) : Prop where
  item : ∀ a, Name a → ItemName a
  prefixFree : ∀ a b, Name a → Name b → a <+: b → a = b

/-- While no session is open, that is while the map is being loaded, nothing fails. -/
def LoadsOk : Op → Choice → Store → Prop :=
  fun op c s => s.secureStorageInited = false → op.writes = false → c.ok = true

/-- On a device with secure storage, the map on the flash contains the name. -/
def Persisted (crc32 : Bytes → UInt32) (s : Store) (a : Bytes) : Prop :=
  Supports s → ∃ names, FlashLists crc32 s names ∧ a ∈ names

variable {crc32 : Bytes → UInt32} {Name : Bytes → Prop} {s : Store} {names names' base : List Bytes}
  {a p m m' : Bytes} {k : ℕ}

lemma opens_loadsOk : Opens (Defined LoadsOk) := fun _ hclosed _ _ hc => hc.1 hclosed

/-- Names that are kept apart are found only under themselves. -/
lemma Separate.mem_of_slot (hsep : Separate Name) (ha : Name a) (hnames : ∀ n ∈ names, Name n)
    (hsl : Slot m names a k m' names') : (∀ n ∈ names', Name n) ∧ a ∈ names' := by
  cases hsl with
  | found hk =>
    refine ⟨hnames, ?_⟩
    by_contra hno
    have hnone : indexOf names a = none := by
      rw [indexOf_eq_none]
      intro n hn hpre
      rw [hsep.prefixFree a n ha (hnames n hn) hpre] at hno
      exact hno hn
    exact nomatch hnone.symm.trans hk
  | added _ _ =>
    constructor
    · intro n hn
      rcases List.mem_append.mp hn with hn | hn
      · exact hnames n hn
      · rw [List.mem_singleton.mp hn]
        exact ha
    · simp

/-- The map lists names with `Name` only, in memory and on the flash. -/
structure Listed (crc32 : Bytes → UInt32) (Name : Bytes → Prop) (s : Store)
    (names base : List Bytes) : Prop extends InSession crc32 s names base where
  names : ∀ n ∈ names, Name n
  base : ∀ n ∈ base, Name n

/-- A thread follows the names of the map. -/
def listingRules (crc32 : Bytes → UInt32) {Name : Bytes → Prop} (hsep : Separate Name) :
    SessionRules crc32 LoadsOk Name where
  free s := ∃ names, Lists crc32 s names ∧ ∀ n ∈ names, Name n
  opened s := ∃ names base, Listed crc32 Name s names base
  wrote a s := ∃ names base, Listed crc32 Name s names base ∧ s.mapDirty = true ∧ a ∈ names
  done a s := Persisted crc32 s a
  init := by
    rintro s ⟨names, hL, hnames⟩
    refine wp_init_lists hL opens_loadsOk.blank ?_ ?_
    · intro hwhy s' hL' hmoved
      refine Or.inl ⟨rfl, rfl, ⟨names, hL', hnames⟩, fun a hsup => ?_⟩
      exact absurd (hmoved.supports_iff.mp hsup).2 (hwhy opens_loadsOk)
    · intro s' hs' _ _
      exact Or.inr ⟨rfl, rfl, names, names, hs', hnames, hnames⟩
  write := by
    rintro s a p h ha ⟨names, base, hs⟩
    have hopen : ∃ names base, Listed crc32 Name s names base := ⟨names, base, hs⟩
    refine wp_objectWrite_session hs.toInSession (hsep.item a ha)
      (fun _ _ _ hc => hc.2 rfl) ?_ ?_ ?_
    · intro _
      exact ⟨rfl, fun _ => hopen, fun hr => absurd hr (by decide)⟩
    · intro k m' names' s' hsl _ hs' _ _
      have hnames' := (hsep.mem_of_slot ha hs.names hsl).1
      exact ⟨rfl, fun _ => ⟨names', base, hs', hnames', hs.base⟩, fun hr => absurd hr (by decide)⟩
    · intro k m' names' s' obj hsl _ hs' hdirty _ _
      obtain ⟨hnames', hmem⟩ := hsep.mem_of_slot ha hs.names hsl
      exact ⟨rfl, fun hr => absurd hr (by decide),
        fun _ => ⟨names', base, ⟨hs', hnames', hs.base⟩, hdirty, hmem⟩⟩
  exit := by
    rintro s ⟨names, base, hs⟩
    refine wp_exit_lists hs.toInSession ?_ ?_ ?_
    · exact fun _ s' hL _ _ => ⟨rfl, base, hL, hs.base⟩
    · exact fun _ s' hL _ _ => ⟨rfl, names, hL, hs.names⟩
    · exact fun _ _ s' hL _ => ⟨rfl, names, hL, hs.names⟩
  exitWrote := by
    rintro s a ⟨names, base, hs, hdirty, hmem⟩
    refine wp_exit_lists hs.toInSession ?_ ?_ ?_
    · intro hclean
      exact absurd (hclean.symm.trans hdirty) (by decide)
    · intro _ s' hL hclosed _
      exact ⟨rfl, ⟨names, hL, hs.names⟩, fun _ _ => ⟨names, (hL.closed hclosed).2, hmem⟩⟩
    · intro _ _ s' hL _
      exact ⟨rfl, ⟨names, hL, hs.names⟩, fun hr => absurd hr (by decide)⟩
  unsupported hsoc hsup := absurd (hsoc.symm.trans hsup.1) (by decide)

variable {ι : Type} [DecidableEq ι]

/-- The use of the mutex in one state: it is released by its owner only, nobody has returned
with it, and the map, its flags and the flash are accessed by its owner only. -/
structure Disciplined (w : ApiPool ι) : Prop where
  release : ∀ i k, w.rest i = .unlock k → w.owner = some i
  returned : ∀ i o, w.rest i = .ret o → w.owner ≠ some i
  access : ∀ i op k, w.rest i = .call (.inl op) k → op ≠ .accessSocInfo → w.owner = some i

/-- **Sessions of many threads.**  In every run of any number of threads, with any names and any
failures, the mutex is used as it should be.  When the names written and listed are kept apart
by the map's lookup and nothing fails while the map is loaded, a write returns 0 on a device with
secure storage only after the map on the flash contains its name. -/
theorem privateData_sessions (crc32 : Bytes → UInt32) (x : ApiState) :
    (∀ w : ApiPool ι, Pool.Reach performApi (PoolOk AnyOk) (Calls crc32 fun _ => True)
      (startPool ι x) w → Disciplined w) ∧
    ∀ Name : Bytes → Prop, Separate Name →
      (∃ names, Lists crc32 x.1 names ∧ ∀ n ∈ names, Name n) →
      ∀ (w w' : ApiPool ι) (i : ι) (a : Bytes),
        Pool.Reach performApi (PoolOk LoadsOk) (Calls crc32 Name) (startPool ι x) w →
        Pool.Step performApi (PoolOk LoadsOk) (Calls crc32 Name) i w w' →
        w'.rest i = .ret (.write (some a) 0) → Persisted crc32 w'.st.1 a := by
  constructor
  · intro w hreach
    have hinv := (disciplineRules crc32).inv trivial hreach
    refine ⟨fun i k hnext => hinv.unlock_owner hnext, fun i o hret => hinv.ret_owner hret, ?_⟩
    intro i op k hnext hop
    refine hinv.call_owner hnext ?_
    cases op with
    | accessSocInfo => exact absurd rfl hop
    | _ => exact id
  · intro Name hsep hx w w' i a hreach hstep hret
    exact (listingRules crc32 hsep).returned hx hreach hstep hret

/-! ### One thread -/

/-- An undisturbed write of a thread on its own, with its last step apart. -/
lemma exists_write_steps (Ok : Op → Choice → Store → Prop) (Name : Bytes → Prop)
    {w : ApiPool Unit} {o : Outcome} {b : Bytes} {Q : ApiState → Prop} (hOk : ∀ op c s, c.ok = true → Ok op c s) (ha : Name a)
    (hidle : w.rest () = .ret o) (howner : w.owner = none)
    (hwp : wp performApi (fun _ c _ => c.ok = true) (privateDataWrite crc32 (some a) (some b))
      (fun r h y => r = 0 ∧ h = false ∧ Q y) false w.st) :
    ∃ w₁ w₂ : ApiPool Unit, Pool.Reach performApi (PoolOk Ok) (Calls crc32 Name) w w₁ ∧
      Pool.Step performApi (PoolOk Ok) (Calls crc32 Name) () w₁ w₂ ∧
      w₂.rest () = .ret (.write (some a) 0) ∧ w₂.owner = none ∧ Q w₂.st := by
  have hcall : wp performApi (fun _ c _ => c.ok = true) ((ApiCall.write (some a) (some b)).prog crc32)
      (fun o h y => o = .write (some a) 0 ∧ h = false ∧ Q y) false w.st := by
    refine wp_bind_of hwp ?_
    rintro r h y ⟨rfl, rfl, hQ⟩
    exact ⟨rfl, rfl, hQ⟩
  obtain ⟨o', c', hrun, rfl, hheld, hQ⟩ := wp_run (G := fun c : Choice => c.ok = true)
    (c := (⟨false, smooth, w.st⟩ : Conf Choice ApiState)) hcall fun _ => rfl
  have hadm : ((ApiCall.write (some a) (some b)).prog crc32).Admits performApi (PoolOk Ok)
      ⟨false, smooth, w.st⟩ := by
    refine admits_of_returned (fun n op y r _ => ?_) hrun
    cases op with
    | inl op => exact hOk op _ _ rfl
    | inr op => trivial
  have hstart : Pool.Step performApi (PoolOk Ok) (Calls crc32 Name) () w
      ⟨Function.update w.rest () ((ApiCall.write (some a) (some b)).prog crc32), w.owner, w.st⟩ :=
    .start hidle ⟨.write (some a) (some b), ha, rfl⟩
  have hgo : Pool.Reach performApi (PoolOk Ok) (Calls crc32 Name)
      ⟨Function.update w.rest () ((ApiCall.write (some a) (some b)).prog crc32), w.owner, w.st⟩
      ⟨Function.update (Function.update w.rest () _) () (.ret (.write (some a) 0)),
        if c'.held then some () else none, c'.st⟩ :=
    Pool.reach_of_run (by simp) (by simp [howner]) rfl hadm hrun
  have hfinal : (Function.update (Function.update w.rest ()
      ((ApiCall.write (some a) (some b)).prog crc32)) () (.ret (.write (some a) 0))) () =
      .ret (.write (some a) 0) := Function.update_self ..
  rcases Relation.ReflTransGen.cases_tail hgo with heq | ⟨w₁, hreach, ⟨⟩, hlast⟩
  · rw [← heq] at hstart
    exact ⟨w, _, .refl, hstart, hfinal, by simp [hheld], hQ⟩
  · exact ⟨w₁, _, .head ⟨(), hstart⟩ hreach, hlast, hfinal, by simp [hheld], hQ⟩

lemma separate_sample : Separate fun a => a = [110] := by
  refine ⟨?_, ?_⟩
  · rintro a rfl
    decide
  · rintro a b rfl rfl _
    rfl

/-- A run in which the name `n` is written, and is on the flash. -/
theorem privateData_sessions_one :
    ∃ (w w' : ApiPool Unit), Pool.Step performApi (PoolOk LoadsOk)
      (Calls Framework.crc32 fun a => a = [110]) () w w' ∧
      w'.rest () = .ret (.write (some [110]) 0) ∧ Persisted Framework.crc32 w'.st.1 [110] := by
  obtain ⟨w, w', hreach, hstep, hret, -, -⟩ := exists_write_steps LoadsOk
    (fun a => a = [110]) (w := startPool Unit (blankDevice true, erasedEnv))
    (fun _ _ _ hc _ _ => hc) rfl rfl rfl
    (wp_privateDataWrite_first (erased_blankDevice true) (show ItemName [110] by decide) (by decide)
      (show ([118] : Bytes).length ≤ 127 by decide))
  refine ⟨w, w', hstep, hret, ?_⟩
  exact (privateData_sessions Framework.crc32 (blankDevice true, erasedEnv)).2 (fun a => a = [110])
    separate_sample ⟨[], (erased_blankDevice true).lists, by simp⟩ w w' () [110] hreach hstep hret

/-! ### A name in front of another -/

/-- An undisturbed write of a name that starts a listed one: it returns 0 and lists nothing. -/
lemma wp_privateDataWrite_begins {t : EnvStore} {n v q : Bytes} (hL : Lists crc32 s [n])
    (hsup : Supports s) (htable : TableOf t.userData [(n, q)]) (ha : ApiName a) (hv : EnvValue v)
    (hpre : a <+: n) (hq : devicePayload crc32 s 1 = some q) (hqlen : q.length ≤ 127)
    (hprot : ∀ junk : Bytes, ¬ LooksProtected (q ++ junk)) :
    wp performApi (fun _ c _ => c.ok = true) (privateDataWrite crc32 (some a) (some v))
      (fun r h y => r = 0 ∧ h = false ∧ Supports y.1 ∧ FlashLists crc32 y.1 [n]) false (s, t) := by
  have hblk : secBlkSize = 4096 := rfl
  have hmax : maxStoreLen = 3072 := rfl
  have hshort := hv.short
  have hsrc : cstr (bufferBak v) = some v := by
    rw [cstr_bufferBak (by omega), cvalue_eq_self.mpr hv.noNul]
  have hidx : indexOf [n] a = some 1 := by rw [indexOf_cons, if_pos hpre]
  unfold privateDataWrite
  simp only
  rw [if_neg (by omega), wp_bind]
  refine wp_liftRight ?_
  refine wp_sunxiPrivateStoreWrite_ok (Or.inr htable) ha.env hv hsrc fun t' _ => ?_
  rw [if_neg (by decide), take_bufferBak, strncpy_eq_self hv.noNul]
  refine wp_liftLeft ?_
  refine wp_writeSecure_listed hL hsup ha.item hidx readsOk_allOk (writesOk_allOk 1) hq hqlen
    (fun c _ _ => hprot _) (by omega) ?_
  intro r s' hr hL' hmoved _
  obtain ⟨rfl, hclosed⟩ := hr fun s' => writesOk_allOk 0 s'
  exact ⟨rfl, rfl, hmoved.supports_iff.mpr hsup, (hL'.closed hclosed).2⟩

/-- After `ab` a write of `a` returns 0, and the map on the flash lists `ab` only. -/
theorem privateData_sessions_prefix :
    ¬ ∀ s : Store, Erased Framework.crc32 s → ∀ (w w' : ApiPool Unit) (a : Bytes),
      Pool.Reach performApi (PoolOk AllOk) (Calls Framework.crc32 ItemName)
        (startPool Unit (s, erasedEnv)) w →
      Pool.Step performApi (PoolOk AllOk) (Calls Framework.crc32 ItemName) () w w' →
      w'.rest () = .ret (.write (some a) 0) → Persisted Framework.crc32 w'.st.1 a := by
  intro hall
  have hvis : ¬ ffs 8 <+: ([97, 98] : Bytes) := by
    rw [ffs]
    decide
  have hname : ApiName [97] := by
    refine ⟨by decide, ⟨⟨by decide, by decide⟩, ?_⟩⟩
    rw [ffs]
    decide
  have hprot : ∀ junk : Bytes, ¬ LooksProtected ([120, 120, 120, 120] ++ junk) := by
    rintro junk ⟨hmagic, -⟩
    have hword : u32 ([120, 120, 120, 120] ++ junk) 0 = 2021161080 := by
      simp [u32]
    rw [hword] at hmagic
    exact absurd hmagic (by decide)
  have hblank : Erased Framework.crc32 (blankDevice true) := erased_blankDevice true
  obtain ⟨w₁, w₂, hreach₁, hstep₁, hret₁, howner₁, hfirst⟩ := exists_write_steps AllOk ItemName
    (w := startPool Unit (blankDevice true, erasedEnv)) (fun _ _ _ hc => hc)
    (show ItemName [97, 98] by decide) rfl rfl
    (wp_privateDataWrite_first hblank (by decide) (by decide)
      (show ([120, 120, 120, 120] : Bytes).length ≤ 127 by decide))
  obtain ⟨hsup, -, hL, hpay⟩ := hfirst.secure supports_blankDevice
  have hno : (0 : UInt8) ∉ ([120, 120, 120, 120] : Bytes) := by decide
  have htable := hfirst.table hvis
  rw [cvalue_eq_self.mpr hno] at htable
  rw [strncpy_eq_self hno] at hpay
  obtain ⟨w₃, w₄, hreach₂, hstep₂, hret₂, -, hsup₂, hflash₂⟩ := exists_write_steps AllOk ItemName
    (fun _ _ _ hc => hc) hname.item hret₁ howner₁
    (wp_privateDataWrite_begins hL hsup htable hname (show EnvValue [121] from ⟨by decide, by decide⟩)
      (by decide) hpay (by decide) hprot)
  have hreach : Pool.Reach performApi (PoolOk AllOk) (Calls Framework.crc32 ItemName)
      (startPool Unit (blankDevice true, erasedEnv)) w₃ :=
    (hreach₁.tail ⟨(), hstep₁⟩).trans hreach₂
  obtain ⟨names, hflash, hmem⟩ :=
    hall _ hblank w₃ w₄ [97] hreach hstep₂ hret₂ hsup₂
  rw [hflash.unique hflash₂ hsup₂.2] at hmem
  exact absurd hmem (by decide)

end Persistence

end Softwinner.SecureStorage
