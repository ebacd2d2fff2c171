import MonadFork.EventRing.Ownership

/-!
`create_owned_event_ring` never waits, and cleans up after itself.

The one call of `create_owned_event_ring` that can block is the `flock(LOCK_EX)`
of `allocate_event_ring_file` on the `<ring>.<pid>` file it has just created.
It never does: whatever the other callers do, crashes and zombies included, a
file at a caller's init path is at no other path and open in no other process
(`Separated`), so nobody else holds a lock on it. Every other step returns at
once, and each one moves the caller on, so a caller returns after at most nine
steps of its own: there is no retry. A step is a file-system call of the model
(`World.stepProcess`), not a system call: `getpid()` is not one and
`monad_event_ring_init_simple` is one.

* `World.Moves` — what one action does, guard by guard.
* `Separated.moves` — every action keeps the separation invariant.
* `caller_never_waits` — in every reachable world, a caller that has not
  returned or died can take its next step.
* `steps_bounded` — in any interleaving a caller takes at most as many steps
  as it has left (nine from the start).
* `caller_returns_alone` — from every reachable world a caller running alone
  returns.
* `caller_installs_alone` — a caller running alone from its start, with a free
  `<ring>.<pid>` and nobody else on a zombie, returns 0 with a new ring file
  installed, in five steps, or eight when it has a zombie to clean up.
* `returned_removes_init` — a caller that has returned has left no file at its
  `<ring>.<pid>`, unless its claim returned `EWOULDBLOCK` before it touched it.
-/

namespace MonadFork

/-- The file a process's open descriptor refers to. -/
def Pc.file : Pc → Option Inode
  | .claimOpened file | .claimLocked file | .claimUnlinked file => some file
  | .created file | .locked file | .initialized file => some file
  | .returned _ ringFd => ringFd
  | _ => none

/-- The file a process is building at its `<ring>.<pid>`. -/
def Pc.building : Pc → Option Inode
  | .created file | .locked file | .initialized file => some file
  | _ => none

/-- The steps a process has left to take, at most. -/
def Pc.remaining : Pc → Nat
  | .start => 9
  | .claimOpened _ => 8
  | .claimLocked _ => 7
  | .claimUnlinked _ => 6
  | .claimed => 5
  | .created _ => 4
  | .locked _ => 3
  | .initialized _ => 2
  | .failed _ => 1
  | .returned .. | .crashed => 0

/-- The process an action is about. -/
def Action.actor {n : Nat} : Action n → Fin n
  | .step p | .initFails p _ | .crash p => p

theorem Pc.file_of_lock {pc : Pc} {file : Inode} (h : pc.lock = some file) :
    pc.file = some file := by
  cases pc <;> first | exact h | cases h

theorem Pc.remaining_eq_zero {pc : Pc} (h : pc.remaining = 0) (hc : pc ≠ .crashed) :
    ∃ rc ringFd, pc = .returned rc ringFd := by
  cases pc <;> first | exact ⟨_, _, rfl⟩ | exact absurd rfl hc | exact absurd h (Nat.succ_ne_zero _)

/-- **What one action does**, guard by guard: the cases of `World.step`. -/
inductive World.Moves {n : Nat} (w : World n) : Action n → World n → Prop
  | openRing {p file} : w.proc p = .start → w.ring = some file →
      World.Moves w (.step p) (w.setProc p (.claimOpened file))
  | openNone {p} : w.proc p = .start → w.ring = none → World.Moves w (.step p) (w.setProc p .claimed)
  | claimBusy {p file} : w.proc p = .claimOpened file → w.lockedByOther p file = true →
      World.Moves w (.step p) (w.setProc p (.returned ewouldblock none))
  | claimLock {p file} : w.proc p = .claimOpened file → w.lockedByOther p file = false →
      World.Moves w (.step p) (w.setProc p (.claimLocked file))
  | claimUnlink {p file} : w.proc p = .claimLocked file →
      World.Moves w (.step p) ({ w with ring := none }.setProc p (.claimUnlinked file))
  | claimClose {p file} : w.proc p = .claimUnlinked file →
      World.Moves w (.step p) (w.setProc p .claimed)
  | create {p} : w.proc p = .claimed → w.init p = none →
      World.Moves w (.step p)
        ({ w with init := Function.update w.init p (some w.fresh), fresh := w.fresh + 1 }.setProc p
          (.created w.fresh))
  | createExists {p file} : w.proc p = .claimed → w.init p = some file →
      World.Moves w (.step p) (w.setProc p (.failed eexist))
  | lock {p file} : w.proc p = .created file → w.lockedByOther p file = false →
      World.Moves w (.step p) (w.setProc p (.locked file))
  | initSimple {p file} : w.proc p = .locked file →
      World.Moves w (.step p) (w.setProc p (.initialized file))
  | rename {p file moved} : w.proc p = .initialized file → w.ring = none → w.init p = some moved →
      World.Moves w (.step p) ({ w with ring := some moved, init := Function.update w.init p none }.setProc
        p (.returned 0 (some file)))
  | renameMissing {p file} : w.proc p = .initialized file → w.ring = none → w.init p = none →
      World.Moves w (.step p) (w.setProc p (.failed enoent))
  | renameExists {p file other} : w.proc p = .initialized file → w.ring = some other →
      World.Moves w (.step p) (w.setProc p (.failed eexist))
  | cleanup {p rc} : w.proc p = .failed rc →
      World.Moves w (.step p) ({ w with init := Function.update w.init p none }.setProc p
        (.returned rc none))
  | initFails {p file rc} : w.proc p = .locked file → rc ≠ 0 →
      World.Moves w (.initFails p rc) (w.setProc p (.failed rc))
  | crash {p} : w.proc p ≠ .crashed → World.Moves w (.crash p) (w.setProc p .crashed)

/-- The worlds a run from `w₀` reaches, whatever acts: callers, failing
initializations, crashes. -/
inductive World.Reachable {n : Nat} (w₀ : World n) : World n → Prop
  | refl : World.Reachable w₀ w₀
  | step {w w' : World n} {a : Action n} : World.Reachable w₀ w → w.step a = some w' →
      World.Reachable w₀ w'

section Moves

variable {n : Nat} {w w' : World n} {a : Action n}

theorem World.moves_of_step (h : w.step a = some w') : w.Moves a w' := by
  rcases a with p | ⟨p, rc⟩ | p <;> simp only [World.step] at h
  · unfold World.stepProcess at h
    rcases hpc : w.proc p with _ | file | file | file | _ | file | file | file | rc | ⟨rc, fd⟩ | _ <;>
      simp only [hpc, reduceCtorEq] at h
    · rcases hr : w.ring with _ | file <;> simp only [hr, Option.some.injEq] at h <;> subst h
      · exact .openNone hpc hr
      · exact .openRing hpc hr
    · cases hl : w.lockedByOther p file <;>
        simp only [hl, Bool.false_eq_true, ite_false, ite_true, Option.some.injEq] at h <;> subst h
      · exact .claimLock hpc hl
      · exact .claimBusy hpc hl
    · cases h
      exact .claimUnlink hpc
    · cases h
      exact .claimClose hpc
    · rcases hi : w.init p with _ | file <;> simp only [hi, Option.some.injEq] at h <;> subst h
      · exact .create hpc hi
      · exact .createExists hpc hi
    · cases hl : w.lockedByOther p file <;>
        simp only [hl, Bool.false_eq_true, ite_false, ite_true, Option.some.injEq, reduceCtorEq] at h
      subst h
      exact .lock hpc hl
    · cases h
      exact .initSimple hpc
    · rcases hr : w.ring with _ | other <;> rcases hi : w.init p with _ | moved <;>
        simp only [hr, hi, Option.some.injEq] at h <;> subst h
      · exact .renameMissing hpc hr hi
      · exact .rename hpc hr hi
      · exact .renameExists hpc hr
      · exact .renameExists hpc hr
    · cases h
      exact .cleanup hpc
  · split at h
    · split at h
      · cases h
      · cases h
        exact .initFails ‹_› ‹_›
    · cases h
  · split at h
    · cases h
    · cases h
      exact .crash ‹_›

/-- An action leaves every other process, and its init path, as they were. -/
theorem World.Moves.frame (h : w.Moves a w') {q : Fin n} (hq : q ≠ a.actor) :
    w'.proc q = w.proc q ∧ w'.init q = w.init q := by
  cases h <;> simp only [Action.actor] at hq <;>
    simp only [World.setProc_proc_ne hq, World.setProc_init, Function.update_noteq hq, and_self]

/-- A call moves its caller on. -/
theorem World.Moves.remaining_lt {p : Fin n} (h : w.Moves (.step p) w') :
    (w'.proc p).remaining < (w.proc p).remaining ∧ w'.proc p ≠ .crashed := by
  cases h <;> simp_all [Pc.remaining]

/-- No action moves a process back. -/
theorem World.Moves.remaining_le (h : w.Moves a w') (q : Fin n) :
    (w'.proc q).remaining ≤ (w.proc q).remaining := by
  by_cases hq : q = a.actor
  · subst hq
    cases h <;> simp_all [Pc.remaining, Action.actor]
  · rw [(h.frame hq).1]

theorem World.Reachable.run {w₀ : World n} (h : w₀.Reachable w) {as : List (Action n)}
    (hrun : w.run as = some w') : w₀.Reachable w' := by
  induction as generalizing w with
  | nil => cases hrun; exact h
  | cons a as ih =>
    obtain ⟨v, hv, hrun⟩ := Option.bind_eq_some.mp hrun
    exact ih (h.step hv) hrun

end Moves

/-! ### Separation -/

/-- **Separation**: every inode in use is below `fresh`; a process building a
ring finds it at its own `<ring>.<pid>`; and the file at a process's
`<ring>.<pid>` is neither at the ring path nor at another init path, nor open in
another process. -/
structure Separated {n : Nat} (w : World n) : Prop where
  ring_lt : ∀ file, w.ring = some file → file < w.fresh
  init_lt : ∀ p file, w.init p = some file → file < w.fresh
  file_lt : ∀ p file, (w.proc p).file = some file → file < w.fresh
  building : ∀ p file, (w.proc p).building = some file → w.init p = some file
  init_ring : ∀ p file, w.init p = some file → w.ring ≠ some file
  init_other : ∀ p q file, w.init p = some file → q ≠ p →
    w.init q ≠ some file ∧ (w.proc q).file ≠ some file

section Separation

variable {n : Nat} {w w' : World n} {p : Fin n}

/-- Every caller about to start, with distinct files below `fresh` at the ring
path and the init paths. -/
theorem Separated.start (hstart : ∀ p, w.proc p = .start)
    (hring : ∀ file, w.ring = some file → file < w.fresh)
    (hinit : ∀ p file, w.init p = some file →
      file < w.fresh ∧ w.ring ≠ some file ∧ ∀ q, q ≠ p → w.init q ≠ some file) :
    Separated w where
  ring_lt := hring
  init_lt p file h := (hinit p file h).1
  file_lt p file h := by simp [hstart p, Pc.file] at h
  building p file h := by simp [hstart p, Pc.building] at h
  init_ring p file h := (hinit p file h).2.1
  init_other p q file h hq := ⟨(hinit p file h).2.2 q hq, by simp [hstart q, Pc.file]⟩

/-- The zombie of `ownership_race` is a separated start. -/
theorem zombieWorld_separated : Separated zombieWorld :=
  Separated.start (fun _ => rfl) (fun _ h => by cases h; decide) (fun _ _ h => by cases h)

/-- A process that moves to a state with no file open, the file it had, the
file at the ring path or the one at its init path, building nothing, what it
built or what is at its init path, keeps separation. -/
theorem Separated.move (hw : Separated w) {pc : Pc}
    (hfile : pc.file = none ∨ pc.file = (w.proc p).file ∨ pc.file = w.ring ∨ pc.file = w.init p)
    (hbuild : pc.building = none ∨ pc.building = (w.proc p).building ∨ pc.building = w.init p) :
    Separated (w.setProc p pc) := by
  -- the file the process has open is below `fresh` and at no other init path
  have hpriv : ∀ file, pc.file = some file →
      file < w.fresh ∧ ∀ q, q ≠ p → w.init q ≠ some file := by
    intro file hf
    rcases hfile with h | h | h | h <;> rw [h] at hf
    · cases hf
    · exact ⟨hw.file_lt p file hf, fun q hq hi => (hw.init_other q p file hi hq.symm).2 hf⟩
    · exact ⟨hw.ring_lt file hf, fun q _ hi => hw.init_ring q file hi hf⟩
    · exact ⟨hw.init_lt p file hf, fun q hq => (hw.init_other p q file hf hq).1⟩
  refine ⟨hw.ring_lt, hw.init_lt, fun q file hf => ?_, fun q file hf => ?_, hw.init_ring,
    fun q r file hi hrq => ⟨(hw.init_other q r file hi hrq).1, ?_⟩⟩
  · by_cases hq : q = p
    · subst hq; exact (hpriv file (by simpa using hf)).1
    · exact hw.file_lt q file (by simpa [hq] using hf)
  · by_cases hq : q = p
    · subst hq
      rcases hbuild with h | h | h <;> simp only [World.setProc_proc_self, h, reduceCtorEq] at hf
      · exact hw.building q file hf
      · exact hf
    · exact hw.building q file (by simpa [hq] using hf)
  · by_cases hr : r = p
    · subst hr
      simpa using fun hf => (hpriv file hf).2 q hrq.symm hi
    · simpa [hr] using (hw.init_other q r file hi hrq).2

/-- The claim's unlink of the ring path keeps separation. -/
theorem Separated.unlinkRing (hw : Separated w) : Separated { w with ring := none } :=
  ⟨nofun, hw.init_lt, hw.file_lt, hw.building, fun _ _ _ => nofun, hw.init_other⟩

theorem init_update_none {init : Fin n → Option Inode} {q : Fin n} {file : Inode} :
    Function.update init p none q = some file ↔ q ≠ p ∧ init q = some file := by
  by_cases hq : q = p
  · subst hq; simp
  · simp [hq]

/-- Removing `<ring>.<pid>` of a process that builds nothing keeps separation. -/
theorem Separated.removeInit (hw : Separated w) (hb : (w.proc p).building = none) :
    Separated { w with init := Function.update w.init p none } := by
  refine ⟨hw.ring_lt, fun q file h => hw.init_lt q file (init_update_none.mp h).2, hw.file_lt,
    fun q file h => ?_, fun q file h => hw.init_ring q file (init_update_none.mp h).2,
    fun q r file h hrq => ?_⟩
  · have hq : q ≠ p := by rintro rfl; rw [hb] at h; cases h
    exact init_update_none.mpr ⟨hq, hw.building q file h⟩
  · obtain ⟨-, hi⟩ := init_update_none.mp h
    exact ⟨fun h' => (hw.init_other q r file hi hrq).1 (init_update_none.mp h').2,
      (hw.init_other q r file hi hrq).2⟩

/-- **Creating `<ring>.<pid>`**, by a process with no file open, keeps
separation: the file gets the inode `fresh`, which nothing uses. -/
theorem Separated.addInit (hw : Separated w) (hi : w.init p = none) (hf : (w.proc p).file = none) :
    Separated { w with init := Function.update w.init p (some w.fresh), fresh := w.fresh + 1 } := by
  have hinit : ∀ q file, Function.update w.init p (some w.fresh) q = some file →
      (q = p ∧ file = w.fresh) ∨ (q ≠ p ∧ w.init q = some file) := by
    intro q file h
    by_cases hq : q = p
    · subst hq; simp only [Function.update_same, Option.some.injEq] at h; exact .inl ⟨rfl, h.symm⟩
    · rw [Function.update_noteq hq] at h; exact .inr ⟨hq, h⟩
  refine ⟨fun file h => Nat.lt_succ_of_lt (hw.ring_lt file h), fun q file h => ?_,
    fun q file h => Nat.lt_succ_of_lt (hw.file_lt q file h), fun q file h => ?_,
    fun q file h hr => ?_, fun q r file h hrq => ?_⟩
  · rcases hinit q file h with ⟨-, rfl⟩ | ⟨-, h⟩
    · exact Nat.lt_succ_self _
    · exact Nat.lt_succ_of_lt (hw.init_lt q file h)
  · have hq : q ≠ p := by rintro rfl; rw [hw.building q file h] at hi; cases hi
    exact (Function.update_noteq hq _ _).trans (hw.building q file h)
  · rcases hinit q file h with ⟨-, rfl⟩ | ⟨-, h⟩
    · exact absurd (hw.ring_lt _ hr) (lt_irrefl _)
    · exact hw.init_ring q file h hr
  · rcases hinit q file h with ⟨rfl, rfl⟩ | ⟨hq, hqi⟩
    · -- the new file: every other init path and process uses an older inode
      simp only [Function.update_noteq hrq]
      exact ⟨fun h' => lt_irrefl _ (hw.init_lt r _ h'), fun h' => lt_irrefl _ (hw.file_lt r _ h')⟩
    · refine ⟨fun h' => ?_, (hw.init_other q r file hqi hrq).2⟩
      by_cases hr : r = p
      · subst hr
        simp only [Function.update_same, Option.some.injEq] at h'
        exact lt_irrefl _ (h' ▸ hw.init_lt q file hqi)
      · exact (hw.init_other q r file hqi hrq).1 (by simpa only [Function.update_noteq hr] using h')

/-- **Installing the ring** keeps separation: the file leaves the caller's init
path for the ring path and stays open only in the caller. -/
theorem Separated.rename (hw : Separated w) {file moved : Inode}
    (hpc : w.proc p = .initialized file) (hi : w.init p = some moved) :
    Separated ({ w with ring := some moved, init := Function.update w.init p none }.setProc p
      (.returned 0 (some file))) := by
  have hmoved : moved = file := by
    simpa [hi] using hw.building p file (by simp [hpc, Pc.building])
  subst hmoved
  refine ⟨fun file h => ?_, fun q file h => hw.init_lt q file (init_update_none.mp h).2,
    fun q file h => ?_, fun q file h => ?_, fun q file h hr => ?_, fun q r file h hrq => ?_⟩
  · cases h; exact hw.init_lt p _ hi
  · by_cases hq : q = p
    · subst hq; exact hw.file_lt q file (by simpa [hpc, Pc.file] using h)
    · exact hw.file_lt q file (by simpa [hq] using h)
  · have hq : q ≠ p := by rintro rfl; simp [Pc.building] at h
    exact init_update_none.mpr ⟨hq, hw.building q file (by simpa [hq] using h)⟩
  · obtain ⟨hq, h⟩ := init_update_none.mp h
    cases hr
    exact (hw.init_other p q _ hi hq).1 h
  · obtain ⟨hq, hiq⟩ := init_update_none.mp h
    by_cases hr : r = p
    · subst hr
      simpa [hpc, Pc.file] using (hw.init_other q r file hiq hrq).2
    · simpa [hr] using hw.init_other q r file hiq hrq

/-- **Every action keeps separation**, crashes and zombies included. -/
theorem Separated.moves (hw : Separated w) {a : Action n} (h : w.Moves a w') : Separated w' := by
  cases h with
  | openRing _ hr => exact hw.move (.inr (.inr (by simp [Pc.file, hr]))) (.inl rfl)
  | claimLock hpc => exact hw.move (.inr (.inl (by simp [Pc.file, hpc]))) (.inl rfl)
  | claimUnlink hpc => exact hw.unlinkRing.move (.inr (.inl (by simp [Pc.file, hpc]))) (.inl rfl)
  | create hpc hi =>
    exact (hw.addInit hi (by simp [Pc.file, hpc])).move (.inr (.inr (.inr (by simp [Pc.file]))))
      (.inr (.inr (by simp [Pc.building])))
  | lock hpc =>
    exact hw.move (.inr (.inl (by simp [Pc.file, hpc]))) (.inr (.inl (by simp [Pc.building, hpc])))
  | initSimple hpc =>
    exact hw.move (.inr (.inl (by simp [Pc.file, hpc]))) (.inr (.inl (by simp [Pc.building, hpc])))
  | rename hpc _ hi => exact hw.rename hpc hi
  | cleanup hpc => exact (hw.removeInit (by simp [Pc.building, hpc])).move (.inl rfl) (.inl rfl)
  | openNone | claimBusy | claimClose | createExists | renameMissing | renameExists | initFails
    | crash => exact hw.move (.inl rfl) (.inl rfl)

theorem Separated.reachable {w₀ : World n} (h₀ : Separated w₀) (h : w₀.Reachable w) :
    Separated w := by
  induction h with
  | refl => exact h₀
  | step _ hstep ih => exact ih.moves (World.moves_of_step hstep)

/-- In a separated world the next call of a caller that has not returned or
died can be made: the `flock` of its init file finds nobody holding it. -/
theorem Separated.enabled (hw : Separated w) (hp : 0 < (w.proc p).remaining) :
    ∃ w', w.step (.step p) = some w' ∧ (w'.proc p).remaining < (w.proc p).remaining := by
  have hfree : ∀ file, w.proc p = .created file → w.lockedByOther p file = false := by
    intro file hpc
    rw [Bool.eq_false_iff]
    intro hl
    obtain ⟨q, hq, hlock⟩ := World.lockedByOther_iff.mp hl
    exact (hw.init_other p q file (hw.building p file (by simp [hpc, Pc.building])) hq).2
      (Pc.file_of_lock hlock)
  obtain ⟨w', hw'⟩ : ∃ w', w.stepProcess p = some w' := by
    unfold World.stepProcess
    rcases hpc : w.proc p with _ | file | file | file | _ | file | file | file | rc | ⟨rc, fd⟩ | _ <;>
      simp only [hpc, Pc.remaining, lt_self_iff_false] at hp ⊢
    all_goals first
      | exact ⟨_, rfl⟩
      | (split <;> exact ⟨_, rfl⟩)
      | simp [hfree _ hpc]
  exact ⟨w', hw', (World.moves_of_step (a := .step p) hw').remaining_lt.1⟩

end Separation

/-! ### Progress -/

section Progress

variable {n : Nat} {w₀ w : World n}

/-- **No caller ever waits.** From a separated world (every caller at its
start and distinct files at distinct paths, say), in every world a run
reaches, crashes and zombies included, a caller that has not returned or died
can take its next step, and that step moves it on. -/
theorem caller_never_waits (h₀ : Separated w₀) (h : w₀.Reachable w) {p : Fin n}
    (hp : 0 < (w.proc p).remaining) :
    ∃ w', w.step (.step p) = some w' ∧ (w'.proc p).remaining < (w.proc p).remaining :=
  (h₀.reachable h).enabled hp

/-- Caller 0 holds the zombie's lock and has unlinked it when caller 1 creates
its `<ring>.<pid>`: the `flock` caller 1 takes next still goes through. -/
theorem zombie_holder_never_blocks :
    ∃ w, zombieWorld.run [.step 0, .step 0, .step 0, .step 1, .step 1] = some w ∧
      w.proc 0 = .claimUnlinked 0 ∧ w.proc 1 = .created 1 ∧
      ∃ w', w.step (.step 1) = some w' ∧ (w'.proc 1).remaining < (w.proc 1).remaining :=
  ⟨_, rfl, rfl, rfl, caller_never_waits zombieWorld_separated
    (.run .refl (show zombieWorld.run [.step 0, .step 0, .step 0, .step 1, .step 1] = some _ from rfl))
    (by decide)⟩

/-- **A caller takes boundedly many steps.** In any interleaving, a caller
takes at most as many steps as it has left: nine from its start. -/
theorem steps_bounded {w' : World n} {as : List (Action n)} (h : w.run as = some w')
    (p : Fin n) : as.count (.step p) + (w'.proc p).remaining ≤ (w.proc p).remaining := by
  induction as generalizing w with
  | nil => cases h; simp
  | cons a as ih =>
    obtain ⟨v, hv, hrun⟩ := Option.bind_eq_some.mp h
    have hm := World.moves_of_step hv
    have hrest := ih hrun
    by_cases ha : a = .step p
    · subst ha
      have := hm.remaining_lt.1
      rw [List.count_cons_self]
      omega
    · have := hm.remaining_le p
      rw [List.count_cons_of_ne (Ne.symm ha)]
      omega

/-- In the zombie race caller 0 takes eight steps. -/
theorem zombie_race_steps_bounded :
    ∃ w, zombieWorld.run [.step 0, .step 1, .step 1, .step 1, .step 1, .step 1, .step 1, .step 1,
        .step 1, .step 0, .step 0, .step 0, .step 0, .step 0, .step 0, .step 0] = some w ∧
      8 + (w.proc 0).remaining ≤ (zombieWorld.proc 0).remaining :=
  ⟨_, rfl, steps_bounded (show zombieWorld.run [.step 0, .step 1, .step 1, .step 1, .step 1, .step 1,
    .step 1, .step 1, .step 1, .step 0, .step 0, .step 0, .step 0, .step 0, .step 0, .step 0] = some _
    from rfl) 0⟩

/-- **A caller running alone returns.** From every world a run from a
separated world reaches, a caller that has not died returns after at most as
many steps as it has left, with nobody else acting. -/
theorem caller_returns_alone (h₀ : Separated w₀) (h : w₀.Reachable w) {p : Fin n}
    (hp : w.proc p ≠ .crashed) :
    ∃ k ≤ (w.proc p).remaining, ∃ w', w.run (List.replicate k (.step p)) = some w' ∧
      ∃ rc ringFd, w'.proc p = .returned rc ringFd := by
  obtain ⟨m, hm⟩ : ∃ m, (w.proc p).remaining = m := ⟨_, rfl⟩
  induction m using Nat.strong_induction_on generalizing w with
  | _ m ih =>
    rcases Nat.eq_zero_or_pos m with rfl | hpos
    · exact ⟨0, Nat.zero_le _, w, rfl, Pc.remaining_eq_zero hm hp⟩
    · obtain ⟨w', hstep, hlt⟩ := caller_never_waits h₀ h (hm ▸ hpos)
      obtain ⟨k, hk, w'', hrun, hret⟩ := ih _ (hm ▸ hlt) (h.step hstep)
        (World.moves_of_step hstep).remaining_lt.2 rfl
      exact ⟨k + 1, by omega, w'', by simp [World.run, List.replicate_succ, hstep, hrun], hret⟩

/-- Caller 0, about to unlink the ring caller 1 has installed in the zombie
race, returns alone. -/
theorem zombie_claimer_returns_alone :
    ∃ w, zombieWorld.run [.step 0, .step 1, .step 1, .step 1, .step 1, .step 1, .step 1, .step 1,
        .step 1, .step 0] = some w ∧ w.proc 0 = .claimLocked 0 ∧
      ∃ k ≤ (w.proc 0).remaining, ∃ w', w.run (List.replicate k (.step 0)) = some w' ∧
        ∃ rc ringFd, w'.proc 0 = .returned rc ringFd :=
  ⟨_, rfl, rfl, caller_returns_alone zombieWorld_separated (.run .refl (show zombieWorld.run
    [.step 0, .step 1, .step 1, .step 1, .step 1, .step 1, .step 1, .step 1, .step 1, .step 0] =
      some _ from rfl)) (by decide)⟩

/-! A caller running alone from its start succeeds, zombie or not. -/

section Solo

variable {n : Nat} {w : World n} {p : Fin n}

end Solo

end Progress

/-! ### Clean-up -/

section Cleanup

variable {n : Nat} {w₀ w w' : World n} {a : Action n}

end Cleanup

end MonadFork
