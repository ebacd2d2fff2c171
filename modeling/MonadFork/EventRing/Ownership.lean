import Mathlib.Data.Fintype.Basic

/-!
`create_owned_event_ring`: several processes taking possession of one event
ring path.

Each caller runs `claim_event_ring_file` (open the ring path read-only, take a
non-blocking exclusive `flock`, unlink the path, close), then
`allocate_event_ring_file` (create `<ring>.<pid>` with `O_CREAT|O_EXCL`, lock it,
initialize it), then `renameat2(..., RENAME_NOREPLACE)` onto the ring path, and
unlinks `<ring>.<pid>` if a step after the claim failed. Each of those
file-system calls is one atomic step of `World.step`, and any process may take
the next one; the environment may also fail the initialization or crash a
process, which closes its descriptors and so drops its locks.

A step is not a system call of the source: `getpid()`, which touches nothing
shared, is not a step; `monad_event_ring_init_simple`, whose own calls are not
in the source, is one step; a claim that finds the file locked closes its
descriptor and calls `monad_event_ring_find_writer_pids` within the step that
returns `EWOULDBLOCK`; and the return of `create_owned_event_ring` is part of
its last step. On a failure after the claim the source returns with the
descriptor of the unlinked `<ring>.<pid>` still open and locked, for its caller
to close; the model drops it, which no other caller can see, as the file has no
path left.

The claim step unlinks the ring path, not the file it locked: between its
`open` and its `flock` another caller can destroy the zombie it opened and
install its own ring there, which the claim then unlinks.

* `ownership_race` — from an unlocked zombie, two callers both return 0, and
  the first one's claim unlinks the ring the second installed.
* `OwnershipInv.step` — every action but the crash of an owner keeps the
  invariant `OwnershipInv`.
* `single_live_owner` — from a state with no ring file, if no owner crashes, at
  most one live process has returned 0, and its ring stays at the path.
-/

namespace MonadFork

/-- A file, told apart by its inode number. -/
abbrev Inode := Nat

/-- `ENOENT`, `EWOULDBLOCK` and `EEXIST` on Linux. -/
def enoent : Nat := 2

def ewouldblock : Nat := 11

def eexist : Nat := 17

/-- Where a caller of `create_owned_event_ring` is: the step it takes next,
with the file its open descriptor refers to. -/
inductive Pc where
  /-- about to `open(ring_path, O_RDONLY)` -/
  | start
  /-- about to `flock(ring_fd, LOCK_EX | LOCK_NB)` on the file it opened -/
  | claimOpened (file : Inode)
  /-- holds the lock; about to `unlink(ring_path)` -/
  | claimLocked (file : Inode)
  /-- about to close the claimed descriptor -/
  | claimUnlinked (file : Inode)
  /-- the claim returned 0; about to create `<ring>.<pid>` -/
  | claimed
  /-- about to `flock(*init_ring_fd, LOCK_EX)` -/
  | created (file : Inode)
  /-- about to initialize the ring -/
  | locked (file : Inode)
  /-- about to `renameat2` onto the ring path -/
  | initialized (file : Inode)
  /-- failed with `rc`; about to `unlink(init_file_path)` -/
  | failed (rc : Nat)
  /-- returned `rc`, keeping the descriptor `ringFd` (only on success) -/
  | returned (rc : Nat) (ringFd : Option Inode)
  | crashed
deriving DecidableEq, Repr

/-- The file a process holds an exclusive `flock` on, through the descriptor
it has open. -/
def Pc.lock : Pc → Option Inode
  | .claimLocked file | .claimUnlinked file => some file
  | .locked file | .initialized file => some file
  | .returned _ ringFd => ringFd
  | _ => none

/-- The file system and the processes sharing one ring path. -/
structure World (n : Nat) where
  /-- the file at the ring path -/
  ring : Option Inode
  /-- the file at each process's `<ring>.<pid>` -/
  init : Fin n → Option Inode
  /-- the inode the next created file gets -/
  fresh : Inode
  proc : Fin n → Pc

/-- What the environment or a process does next. -/
inductive Action (n : Nat) where
  /-- process `p` takes its next step -/
  | step (p : Fin n)
  /-- `monad_event_ring_init_simple` fails with `rc` in process `p` -/
  | initFails (p : Fin n) (rc : Nat)
  /-- process `p` dies: its descriptors close and its locks go -/
  | crash (p : Fin n)
deriving DecidableEq

namespace World

variable {n : Nat}

/-- Process `p` moves to `pc`. -/
def setProc (w : World n) (p : Fin n) (pc : Pc) : World n :=
  { w with proc := Function.update w.proc p pc }

/-- Some process other than `p` holds a lock on `file`. -/
def lockedByOther (w : World n) (p : Fin n) (file : Inode) : Bool :=
  (List.finRange n).any fun q => q != p && (w.proc q).lock == some file

/-- The next step of process `p`, if it can take one: one file-system call of
`create_owned_event_ring` and its helpers, `monad_event_ring_init_simple` as a
whole, or the final `unlink` of `<ring>.<pid>`. -/
def stepProcess (w : World n) (p : Fin n) : Option (World n) :=
  match w.proc p with
  | .start =>
    match w.ring with
    | some file => some (w.setProc p (.claimOpened file))
    | none => some (w.setProc p .claimed)
  | .claimOpened file =>
    if w.lockedByOther p file then some (w.setProc p (.returned ewouldblock none))
    else some (w.setProc p (.claimLocked file))
  | .claimLocked file => some ({ w with ring := none }.setProc p (.claimUnlinked file))
  | .claimUnlinked _ => some (w.setProc p .claimed)
  | .claimed =>
    match w.init p with
    | none =>
      some ({ w with init := Function.update w.init p (some w.fresh), fresh := w.fresh + 1 }.setProc
        p (.created w.fresh))
    | some _ => some (w.setProc p (.failed eexist))
  | .created file =>
    if w.lockedByOther p file then none else some (w.setProc p (.locked file))
  | .locked file => some (w.setProc p (.initialized file))
  | .initialized file =>
    match w.ring, w.init p with
    | none, some moved =>
      some ({ w with ring := some moved, init := Function.update w.init p none }.setProc p
        (.returned 0 (some file)))
    | none, none => some (w.setProc p (.failed enoent))
    | some _, _ => some (w.setProc p (.failed eexist))
  | .failed rc => some ({ w with init := Function.update w.init p none }.setProc p (.returned rc none))
  | .returned .. | .crashed => none

/-- One action, if it is enabled. -/
def step (w : World n) : Action n → Option (World n)
  | .step p => w.stepProcess p
  | .initFails p rc =>
    match w.proc p with
    | .locked _ => if rc = 0 then none else some (w.setProc p (.failed rc))
    | _ => none
  | .crash p =>
    match w.proc p with
    | .crashed => none
    | _ => some (w.setProc p .crashed)

/-- A schedule of actions, each enabled in turn. -/
def run (w : World n) : List (Action n) → Option (World n)
  | [] => some w
  | a :: as => (w.step a).bind (·.run as)

end World

/-! ### Frame lemmas -/

section Frame

variable {n : Nat} {w : World n} {p q : Fin n} {pc : Pc}

@[simp] theorem World.setProc_proc_self : (w.setProc p pc).proc p = pc := by
  simp [World.setProc]

@[simp] theorem World.setProc_proc_ne (h : q ≠ p) : (w.setProc p pc).proc q = w.proc q := by
  simp [World.setProc, h]

@[simp] theorem World.setProc_ring : (w.setProc p pc).ring = w.ring := rfl

@[simp] theorem World.setProc_init : (w.setProc p pc).init = w.init := rfl

theorem World.lockedByOther_iff {file : Inode} :
    w.lockedByOther p file = true ↔ ∃ q, q ≠ p ∧ (w.proc q).lock = some file := by
  simp [World.lockedByOther]

end Frame

/-! ### A zombie claimed twice -/

/-- Two callers and an unlocked zombie ring (inode 0) left by a crashed owner. -/
def zombieWorld : World 2 :=
  ⟨some 0, fun _ => none, 1, fun _ => .start⟩

/-- Caller 0 opens the zombie; caller 1 then claims it, creates, initializes
and installs its ring (inode 1) and returns 0. Caller 0's `flock` now succeeds
on the zombie, nobody holding it, and its unlink removes the ring caller 1
installed; it then installs its own (inode 2) and returns 0 too. -/
theorem ownership_race :
    ∃ w w',
      zombieWorld.run [.step 0, .step 1, .step 1, .step 1, .step 1, .step 1, .step 1, .step 1,
        .step 1, .step 0] = some w ∧
      w.proc 0 = .claimLocked 0 ∧ w.proc 1 = .returned 0 (some 1) ∧ w.ring = some 1 ∧
      w.step (.step 0) = some w' ∧ w'.ring = none ∧
      ∃ w'', w'.run [.step 0, .step 0, .step 0, .step 0, .step 0] = some w'' ∧
        w''.proc 0 = .returned 0 (some 2) ∧ w''.proc 1 = .returned 0 (some 1) ∧
        w''.ring = some 2 :=
  ⟨_, _, rfl, rfl, rfl, rfl, rfl, rfl, _, rfl, rfl, rfl, rfl⟩

/-! ### Without a zombie -/

/-- A live owner: returned 0, keeping the descriptor of the ring it installed. -/
def Pc.owns (pc : Pc) (file : Inode) : Prop := pc = .returned 0 (some file)

/-- The states a run from `w₀` reaches when no owner dies, so that no zombie
ever appears. -/
inductive KeepsOwners {n : Nat} (w₀ : World n) : World n → Prop
  | refl : KeepsOwners w₀ w₀
  | step {w w' : World n} {a : Action n} : KeepsOwners w₀ w → w.step a = some w' →
      (∀ p, a = .crash p → ∀ file, ¬ (w.proc p).owns file) → KeepsOwners w₀ w'

/-- What holds while no zombie exists: the ring path holds exactly the file of
the one live owner, a process that opened it finds it owned, no claim holds a
lock, and a process building its ring finds it at its own `<ring>.<pid>`. -/
structure OwnershipInv {n : Nat} (w : World n) : Prop where
  owner_ring : ∀ p file, (w.proc p).owns file → w.ring = some file
  ring_owner : ∀ file, w.ring = some file → ∃ p, (w.proc p).owns file
  owner_unique : ∀ p q f g, (w.proc p).owns f → (w.proc q).owns g → p = q
  opened_owned : ∀ q file, w.proc q = .claimOpened file → ∃ p, p ≠ q ∧ (w.proc p).owns file
  not_claiming : ∀ q file, w.proc q ≠ .claimLocked file ∧ w.proc q ≠ .claimUnlinked file
  init_building : ∀ p file, (w.proc p = .created file ∨ w.proc p = .locked file ∨
    w.proc p = .initialized file) → w.init p = some file

section Invariant

variable {n : Nat} {w : World n} {p : Fin n}

/-- **A move of one process that installs nothing** keeps the invariant: a
process that owned nothing moves to a state that owns nothing and claims no
lock, having opened only an owned file, and building only at its own
`<ring>.<pid>`; it may create or remove that file. -/
theorem OwnershipInv.move (hw : OwnershipInv w) (hp : ∀ file, ¬ (w.proc p).owns file)
    {pc : Pc} (hown : ∀ file, ¬ pc.owns file)
    (hclaim : ∀ file, pc ≠ .claimLocked file ∧ pc ≠ .claimUnlinked file)
    (hopen : ∀ file, pc = .claimOpened file → ∃ r, r ≠ p ∧ (w.proc r).owns file)
    {init : Fin n → Option Inode} (hinit : ∀ q, q ≠ p → init q = w.init q)
    (hbuild : ∀ file, (pc = .created file ∨ pc = .locked file ∨ pc = .initialized file) →
      init p = some file) (fresh : Inode) :
    OwnershipInv ({ w with init := init, fresh := fresh }.setProc p pc) := by
  have hproc : ∀ q, q ≠ p →
      ({ w with init := init, fresh := fresh }.setProc p pc).proc q = w.proc q :=
    fun q hq => World.setProc_proc_ne hq
  constructor
  · intro q file hq
    by_cases hqp : q = p
    · subst hqp; simp only [World.setProc_proc_self] at hq; exact absurd hq (hown file)
    · exact hw.owner_ring q file (by rwa [hproc q hqp] at hq)
  · intro file hr
    obtain ⟨q, hq⟩ := hw.ring_owner file hr
    have hqp : q ≠ p := by rintro rfl; exact hp file hq
    exact ⟨q, by rwa [hproc q hqp]⟩
  · intro q r f g hq hr
    by_cases hqp : q = p
    · subst hqp; simp only [World.setProc_proc_self] at hq; exact absurd hq (hown f)
    by_cases hrp : r = p
    · subst hrp; simp only [World.setProc_proc_self] at hr; exact absurd hr (hown g)
    exact hw.owner_unique q r f g (by rwa [hproc q hqp] at hq) (by rwa [hproc r hrp] at hr)
  · intro q file hq
    have owned : ∀ r, r ≠ q → (w.proc r).owns file → ∃ r, r ≠ q ∧
        (({ w with init := init, fresh := fresh }.setProc p pc).proc r).owns file := by
      intro r hrq hr
      have hrp : r ≠ p := by rintro rfl; exact hp file hr
      exact ⟨r, hrq, by rwa [hproc r hrp]⟩
    by_cases hqp : q = p
    · subst hqp; simp only [World.setProc_proc_self] at hq
      obtain ⟨r, hrq, hr⟩ := hopen file hq
      exact owned r hrq hr
    · obtain ⟨r, hrq, hr⟩ := hw.opened_owned q file (by rwa [hproc q hqp] at hq)
      exact owned r hrq hr
  · intro q file
    by_cases hqp : q = p
    · subst hqp; simpa only [World.setProc_proc_self] using hclaim file
    · rw [hproc q hqp]; exact hw.not_claiming q file
  · intro q file hq
    by_cases hqp : q = p
    · subst hqp; simp only [World.setProc_proc_self] at hq; exact hbuild file hq
    · rw [hproc q hqp] at hq
      simpa [hinit q hqp] using hw.init_building q file hq

/-- A program counter that owns, opens, claims and builds nothing. -/
def Pc.Idle : Pc → Prop
  | .start | .claimed | .failed _ | .returned _ none | .crashed => True
  | _ => False

/-- The moves to an idle state. -/
theorem OwnershipInv.idle (hw : OwnershipInv w) (hp : ∀ file, ¬ (w.proc p).owns file)
    {pc : Pc} (hpc : pc.Idle) {init : Fin n → Option Inode}
    (hinit : ∀ q, q ≠ p → init q = w.init q) (fresh : Inode) :
    OwnershipInv ({ w with init := init, fresh := fresh }.setProc p pc) :=
  hw.move hp (by rintro file rfl; exact hpc) (fun _ => ⟨by rintro rfl; exact hpc, by rintro rfl; exact hpc⟩)
    (by rintro file rfl; exact hpc.elim) hinit (by rintro file (rfl | rfl | rfl) <;> exact hpc.elim)
    fresh

/-- **Installing the ring** keeps the invariant: it is only done onto an empty
path, where no owner exists, and makes the installer the one owner. -/
theorem OwnershipInv.install (hw : OwnershipInv w) {file moved : Inode}
    (hpc : w.proc p = .initialized file) (hring : w.ring = none) (hinit : w.init p = some moved) :
    OwnershipInv ({ w with ring := some moved, init := Function.update w.init p none }.setProc p
      (.returned 0 (some file))) := by
  have hnone : ∀ q g, ¬ (w.proc q).owns g := fun q g hq => by
    simpa [hring] using hw.owner_ring q g hq
  have hmoved : moved = file := by
    simpa [hinit] using hw.init_building p file (.inr (.inr hpc))
  subst hmoved
  constructor
  · intro q g hq
    by_cases hqp : q = p
    · subst hqp; simp only [World.setProc_proc_self, Pc.owns, Pc.returned.injEq, Option.some.injEq,
        true_and] at hq
      simp [hq]
    · simp only [World.setProc_proc_ne hqp] at hq; exact absurd hq (hnone q g)
  · intro g hg
    exact ⟨p, by simp only [World.setProc_ring, Option.some.injEq] at hg; simp [Pc.owns, hg]⟩
  · intro q r f g hq hr
    by_cases hqp : q = p
    · by_cases hrp : r = p
      · rw [hqp, hrp]
      · simp only [World.setProc_proc_ne hrp] at hr; exact absurd hr (hnone r g)
    · simp only [World.setProc_proc_ne hqp] at hq; exact absurd hq (hnone q f)
  · intro q g hq
    have hqp : q ≠ p := by rintro rfl; simp at hq
    simp only [World.setProc_proc_ne hqp] at hq
    obtain ⟨r, -, hr⟩ := hw.opened_owned q g hq
    exact absurd hr (hnone r g)
  · intro q g
    by_cases hqp : q = p
    · subst hqp; simp
    · simp only [World.setProc_proc_ne hqp]; exact hw.not_claiming q g
  · intro q g hq
    have hqp : q ≠ p := by rintro rfl; simp at hq
    simp only [World.setProc_proc_ne hqp] at hq
    simpa [Function.update_noteq hqp] using hw.init_building q g hq

/-- The moves between the building states of one file. -/
theorem OwnershipInv.build (hw : OwnershipInv w) {file : Inode}
    (hpc : w.proc p = .created file ∨ w.proc p = .locked file) {pc : Pc}
    (hnext : pc = .locked file ∨ pc = .initialized file) : OwnershipInv (w.setProc p pc) := by
  have hinit := hw.init_building p file (by rcases hpc with h | h <;> simp [h])
  refine hw.move (by rcases hpc with h | h <;> simp [Pc.owns, h]) ?_ ?_ ?_ (fun _ _ => rfl) ?_
    w.fresh <;> rcases hnext with rfl | rfl <;> simp [Pc.owns, hinit]

/-- A process with a step to take owns nothing: an owner has returned. -/
theorem World.stepProcess_not_owner {w' : World n} (h : w.stepProcess p = some w') (file : Inode) :
    ¬ (w.proc p).owns file := by
  intro hown
  rw [World.stepProcess, show w.proc p = _ from hown] at h
  cases h

/-- **A step keeps the invariant.** -/
theorem OwnershipInv.stepProcess (hw : OwnershipInv w) {w' : World n}
    (h : w.stepProcess p = some w') : OwnershipInv w' := by
  have hp := World.stepProcess_not_owner h
  have idle : ∀ {pc : Pc}, pc.Idle → OwnershipInv (w.setProc p pc) :=
    fun hpc => hw.idle hp hpc (fun _ _ => rfl) w.fresh
  unfold World.stepProcess at h
  rcases hpc : w.proc p with _ | file | file | file | _ | file | file | file | rc | ⟨rc, fd⟩ | _ <;>
    simp only [hpc] at h
  · -- `open` of the ring path
    rcases hr : w.ring with _ | file <;> simp only [hr, Option.some.injEq] at h <;> subst h
    · exact idle (by trivial)
    · refine hw.move hp (by simp [Pc.owns]) (by simp) ?_ (fun _ _ => rfl) (by simp) w.fresh
      rintro f ⟨⟩
      obtain ⟨r, hr'⟩ := hw.ring_owner file hr
      exact ⟨r, fun hrp => hp file (hrp ▸ hr'), hr'⟩
  · -- `flock` of the opened file: its owner holds it
    split at h
    · cases h
      exact idle (by trivial)
    · obtain ⟨r, hrp, hr⟩ := hw.opened_owned p file hpc
      exact absurd (World.lockedByOther_iff.mpr ⟨r, hrp, by rw [hr]; rfl⟩) ‹_›
  · exact absurd hpc (hw.not_claiming p file).1
  · exact absurd hpc (hw.not_claiming p file).2
  · -- `open(O_CREAT | O_EXCL)` of `<ring>.<pid>`
    rcases hi : w.init p with _ | f <;> simp only [hi, Option.some.injEq] at h <;> subst h
    · exact hw.move hp (by simp [Pc.owns]) (by simp) (by simp)
        (fun q hq => Function.update_noteq hq _ _) (by simp) (w.fresh + 1)
    · exact idle (by trivial)
  · split at h
    · cases h
    · cases h
      exact hw.build (.inl hpc) (.inl rfl)
  · cases h
    exact hw.build (.inr hpc) (.inr rfl)
  · -- `renameat2` onto the ring path
    rcases hr : w.ring with _ | g <;> rcases hi : w.init p with _ | moved <;>
      simp only [hr, hi, Option.some.injEq] at h <;> subst h
    · exact idle (by trivial)
    · exact hw.install hpc hr hi
    · exact idle (by trivial)
    · exact idle (by trivial)
  · cases h
    exact hw.idle hp (by trivial) (fun q hq => Function.update_noteq hq _ _) w.fresh
  · cases h
  · cases h

/-- **One action keeps the invariant**, unless it crashes an owner. -/
theorem OwnershipInv.step (hw : OwnershipInv w) {a : Action n} {w' : World n}
    (h : w.step a = some w') (hcrash : ∀ p, a = .crash p → ∀ file, ¬ (w.proc p).owns file) :
    OwnershipInv w' := by
  rcases a with p | ⟨p, rc⟩ | p <;> simp only [World.step] at h
  · exact hw.stepProcess h
  · split at h
    · rename_i file hpc
      split at h
      · cases h
      · cases h
        exact hw.idle (by simp [Pc.owns, hpc]) (by trivial) (fun _ _ => rfl) w.fresh
    · cases h
  · split at h
    · cases h
    · cases h
      exact hw.idle (hcrash p rfl) (by trivial) (fun _ _ => rfl) w.fresh

/-- No ring file and no caller started yet. -/
theorem OwnershipInv.initial (hring : w.ring = none) (hstart : ∀ p, w.proc p = .start) :
    OwnershipInv w where
  owner_ring p _ h := by simp [Pc.owns, hstart p] at h
  ring_owner _ h := by simp [hring] at h
  owner_unique p _ _ _ h := by simp [Pc.owns, hstart p] at h
  opened_owned q _ h := by simp [hstart q] at h
  not_claiming q _ := by simp [hstart q]
  init_building p _ h := by simp [hstart p] at h

theorem KeepsOwners.inv {w₀ : World n} (hw₀ : OwnershipInv w₀) (h : KeepsOwners w₀ w) :
    OwnershipInv w := by
  induction h with
  | refl => exact hw₀
  | step _ hstep hcrash ih => exact ih.step hstep hcrash

/-- A schedule with no crash keeps every owner. -/
theorem KeepsOwners.run {w₀ w' : World n} (h : KeepsOwners w₀ w) {as : List (Action n)}
    (hrun : w.run as = some w') (hno : ∀ p, Action.crash p ∉ as) : KeepsOwners w₀ w' := by
  induction as generalizing w with
  | nil => cases hrun; exact h
  | cons a as ih =>
    rcases hstep : w.step a with _ | v <;> simp only [World.run, hstep, Option.none_bind,
      Option.some_bind, reduceCtorEq] at hrun
    · exact ih (h.step hstep fun p hp => absurd (hp ▸ List.mem_cons_self _ _) (hno p)) hrun
        fun p hp => hno p (List.mem_cons_of_mem _ hp)

end Invariant

/-- **Without a zombie the protocol is safe.** From a state with no ring file,
in every interleaving in which no caller crashes after its rename (which, with
its return of 0, is one step), at most one process has returned 0 and keeps its
ring, and that ring stays at the path: no claim step unlinks it. -/
theorem single_live_owner {n : Nat} {w₀ w : World n} (hring : w₀.ring = none)
    (hstart : ∀ p, w₀.proc p = .start) (h : KeepsOwners w₀ w) :
    (∀ p q f g, (w.proc p).owns f → (w.proc q).owns g → p = q) ∧
      ∀ p f, (w.proc p).owns f → w.ring = some f :=
  have hw := h.inv (OwnershipInv.initial hring hstart)
  ⟨hw.owner_unique, hw.owner_ring⟩

/-- Two callers and no ring file. -/
def cleanWorld : World 2 :=
  ⟨none, fun _ => none, 0, fun _ => .start⟩

/-- Caller 0 installs its ring; caller 1's rename then fails with `EEXIST`. -/
theorem single_live_owner_two_callers :
    ∃ w, cleanWorld.run [.step 0, .step 1, .step 0, .step 0, .step 0, .step 0, .step 1, .step 1,
        .step 1, .step 1, .step 1] = some w ∧
      w.proc 0 = .returned 0 (some 0) ∧ w.proc 1 = .returned eexist none ∧
      (∀ p q f g, (w.proc p).owns f → (w.proc q).owns g → p = q) ∧
      ∀ p f, (w.proc p).owns f → w.ring = some f :=
  ⟨_, rfl, rfl, rfl, single_live_owner rfl (fun _ => rfl)
    (@KeepsOwners.run 2 cleanWorld cleanWorld _ .refl [.step 0, .step 1, .step 0, .step 0, .step 0,
      .step 0, .step 1, .step 1, .step 1, .step 1, .step 1] rfl (by decide))⟩

end MonadFork
