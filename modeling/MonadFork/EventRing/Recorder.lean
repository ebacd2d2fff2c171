import MonadFork.Data
import MonadFork.EventRing.Config

/-!
`init_execution_event_recorder`, and the paths it and `create_owned_event_ring`
build.

A ring specification without `'/'` names a file in the default event ring
directory; the resulting path is checked for `MAP_HUGETLB` support, the ring is
created there by `create_owned_event_ring_nointr` and mapped, and the global
recorder is set to it. `create_owned_event_ring` builds the ring at the
temporary path `<file-name>.<pid>` next to it, by `fs::path::replace_filename`.

The event library, the file system and the kernel are a `RingHost`;
`create_owned_event_ring` itself is modelled, step by step, in
`MonadFork.EventRing.Ownership`, where each caller has its own init path. This
module shows why it does.

* `initFilePath_spec` — the init path is the ring path with `.<pid>` appended:
  it is never the ring path, it lies in the ring's directory, and distinct pids
  get distinct init paths.

The recorder's descriptor is declared with `cleanup_close`, so the source closes
it on every return, success included; what the recorder's constructor does with
the number it is handed is not in the source, and the model records the number.
-/

namespace MonadFork

/-! ### Paths -/

/-- `fs::path::filename()` of a POSIX path: what follows its last `'/'`. -/
def pathFilename (p : List Char) : List Char :=
  (p.reverse.takeWhile (· ≠ '/')).reverse

/-- `fs::path::remove_filename()`: the path up to and including its last
`'/'`. -/
def pathRemoveFilename (p : List Char) : List Char :=
  (p.reverse.dropWhile (· ≠ '/')).reverse

/-- `p /= q` for a relative `q`: a separator goes between them when `p` has a
filename. -/
def pathAppend (p q : List Char) : List Char :=
  if pathFilename p = [] then p ++ q else p ++ '/' :: q

/-- `fs::path::replace_filename(r)`: `remove_filename()`, then `/= r`. -/
def pathReplaceFilename (p r : List Char) : List Char :=
  pathAppend (pathRemoveFilename p) r

/-- The init file path of `create_owned_event_ring`:
`replace_filename(std::format("{}.{}", filename(), getpid()))`. -/
def initFilePath (ringFilePath : List Char) (pid : Nat) : List Char :=
  pathReplaceFilename ringFilePath (pathFilename ringFilePath ++ '.' :: (Nat.repr pid).toList)

theorem removeFilename_append_filename (p : List Char) :
    pathRemoveFilename p ++ pathFilename p = p := by
  rw [pathRemoveFilename, pathFilename, ← List.reverse_append, List.takeWhile_append_dropWhile,
    List.reverse_reverse]

theorem takeWhile_dropWhile {α : Type} (q : α → Bool) (l : List α) :
    (l.dropWhile q).takeWhile q = [] := by
  induction l with
  | nil => rfl
  | cons a l ih => cases h : q a <;> simp [List.dropWhile_cons, List.takeWhile_cons, h, ih]

theorem filename_removeFilename (p : List Char) : pathFilename (pathRemoveFilename p) = [] := by
  rw [pathFilename, pathRemoveFilename, List.reverse_reverse, takeWhile_dropWhile, List.reverse_nil]

theorem pathFilename_no_slash (p : List Char) : '/' ∉ pathFilename p := by
  intro h
  have := List.mem_takeWhile_imp (List.mem_reverse.mp h)
  simp at this

/-- Appending to a path a name with no `'/'` leaves its directory. -/
theorem removeFilename_append {p q : List Char} (hp : pathFilename p = []) (hq : '/' ∉ q) :
    pathRemoveFilename (p ++ q) = p := by
  have hdrop : (q.reverse ++ p.reverse).dropWhile (· ≠ '/') = p.reverse.dropWhile (· ≠ '/') := by
    rw [List.dropWhile_append_of_pos]
    simpa using fun c hc => ne_of_mem_of_not_mem hc hq
  have hp' : pathRemoveFilename p = p := by
    simpa [hp] using removeFilename_append_filename p
  rw [pathRemoveFilename, List.reverse_append, hdrop, ← pathRemoveFilename, hp']

theorem filename_append {p q : List Char} (hp : pathFilename p = []) (hq : '/' ∉ q) :
    pathFilename (p ++ q) = q := by
  have h := removeFilename_append_filename (p ++ q)
  rw [removeFilename_append hp hq] at h
  exact List.append_cancel_left h

/-- The digits of a pid hold no `'/'`. -/
theorem repr_no_slash (pid : Nat) : '/' ∉ (Nat.repr pid).toList := fun h => by
  have := (repr_spec pid).2.1 _ h
  simp at this

/-- **The init path.** For every ring path and pid, the init path of
`create_owned_event_ring` is the ring path with `.<pid>` appended: it is never
the ring path, its directory is the ring's, so the final `renameat2` stays in
one directory, its name is the ring's name with `.<pid>`, and two pids give
two init paths. -/
theorem initFilePath_spec (ringFilePath : List Char) (pid pid' : Nat) :
    initFilePath ringFilePath pid = ringFilePath ++ '.' :: (Nat.repr pid).toList ∧
      initFilePath ringFilePath pid ≠ ringFilePath ∧
      pathRemoveFilename (initFilePath ringFilePath pid) = pathRemoveFilename ringFilePath ∧
      pathFilename (initFilePath ringFilePath pid) =
        pathFilename ringFilePath ++ '.' :: (Nat.repr pid).toList ∧
      (initFilePath ringFilePath pid = initFilePath ringFilePath pid' ↔ pid = pid') := by
  have hname : ∀ pid, '/' ∉ pathFilename ringFilePath ++ '.' :: (Nat.repr pid).toList := by
    intro pid h
    rcases List.mem_append.mp h with h | h
    · exact pathFilename_no_slash _ h
    · rcases List.mem_cons.mp h with h | h
      · cases h
      · exact repr_no_slash pid h
  have heq : ∀ pid, initFilePath ringFilePath pid = pathRemoveFilename ringFilePath ++
      (pathFilename ringFilePath ++ '.' :: (Nat.repr pid).toList) := fun pid => by
    rw [initFilePath, pathReplaceFilename, pathAppend, if_pos (filename_removeFilename _)]
  have happend : ∀ pid, initFilePath ringFilePath pid = ringFilePath ++ '.' :: (Nat.repr pid).toList :=
    fun pid => by rw [heq, ← List.append_assoc, removeFilename_append_filename]
  refine ⟨happend pid, fun h => ?_, ?_, ?_, ⟨fun h => ?_, congrArg _⟩⟩
  · have := congrArg List.length h
    simp [happend] at this
  · rw [heq]; exact removeFilename_append (filename_removeFilename _) (hname pid)
  · rw [heq]; exact filename_append (filename_removeFilename _) (hname pid)
  · rw [happend, happend] at h
    have hrepr := congrArg decimalValue (List.cons.inj (List.append_cancel_left h)).2
    rwa [(repr_spec pid).2.2, (repr_spec pid').2.2] at hrepr

/-! ### The recorder -/

/-- `monad_event_ring_simple_config`. -/
structure SimpleConfig (D P : Nat) where
  descriptorsShift : Fin D
  payloadBufShift : Fin P
  contextLargePages : Nat
  contentType : Nat
  schemaHash : Bytes32
deriving DecidableEq, Repr

/-- A line `init_execution_event_recorder` logs. -/
inductive LogLine where
  | error (text : String)
  | warning (text : String)
  | info (text : String)
deriving DecidableEq, Repr

/-- `PROT_READ`, `PROT_WRITE`, `MAP_POPULATE` and `MAP_HUGETLB` on Linux. -/
def protRead : Nat := 0x1

def protWrite : Nat := 0x2

def mapPopulate : Nat := 0x8000

def mapHugetlb : Nat := 0x40000

/-- The event library, the file system and the kernel, with their answers to
the calls of one `init_execution_event_recorder`. A call's `int` result comes
first, 0 for success, then what it wrote through its out-parameter; `Ring`
stands for `monad_event_ring`. -/
structure RingHost (D P : Nat) (Ring : Type) where
  /-- `MONAD_EVENT_CONTENT_TYPE_EXEC` -/
  contentTypeExec : Nat
  /-- `g_monad_exec_event_schema_hash` -/
  execSchemaHash : Bytes32
  /-- `monad_event_open_ring_dir_fd(nullptr, buf, sizeof buf)` and the
  directory path it writes to `buf` -/
  openRingDirFd : Int × String
  /-- `monad_check_path_supports_map_hugetlb(path, &fs_supports_hugetlb)` -/
  checkPathSupportsMapHugetlb : String → Int × Bool
  /-- `create_owned_event_ring_nointr(path, simple_cfg, &ring_fd)` -/
  createOwnedEventRingNointr : String → SimpleConfig D P → Int × Int
  /-- `monad_event_ring_mmap(&exec_ring, prot, flags, ring_fd, 0, path)` -/
  eventRingMmap : Nat → Nat → Int → String → Int × Ring
  /-- `monad_event_ring_get_last_error()` -/
  lastError : String

/-- The `ExecutionEventRecorder` the global points to: the ring's descriptor,
its path and its mapping. -/
structure ExecutionEventRecorder (Ring : Type) where
  ringFd : Int
  ringPath : String
  ring : Ring

/-- How `init_execution_event_recorder` ends: `MONAD_ASSERT` aborts, or it
returns a code, leaving the global recorder as given and the lines it logged. -/
inductive InitOutcome (Ring : Type) where
  | aborted
  | returned (rc : Int) (recorder : Option (ExecutionEventRecorder Ring)) (log : List LogLine)

section Recorder

variable {D P : Nat} {Ring : Type} (host : RingHost D P Ring)

/-- The ring path: the specification itself when it contains `'/'`, else a
file of that name in the default event ring directory. -/
def ringPathOf (spec : String) : Except Int String :=
  if '/' ∈ spec.toList then .ok spec
  else
    let rc := host.openRingDirFd.1
    let dir := host.openRingDirFd.2
    if rc ≠ 0 then .error rc else .ok (dir ++ "/" ++ spec)

/-- The `simple_cfg` the ring is created with. -/
def simpleConfigOf (ringConfig : EventRingConfig D P) : SimpleConfig D P :=
  ⟨ringConfig.descriptorsShift, ringConfig.payloadBufShift, 0, host.contentTypeExec,
    host.execSchemaHash⟩

/-- The `mmap_extra_flags`. -/
def mmapExtraFlags (fsSupportsHugetlb : Bool) : Nat :=
  if fsSupportsHugetlb then mapPopulate ||| mapHugetlb else mapPopulate

/-- `init_execution_event_recorder`, from the global recorder it finds. -/
def initExecutionEventRecorder (recorder : Option (ExecutionEventRecorder Ring))
    (ringConfig : EventRingConfig D P) : InitOutcome Ring :=
  if recorder.isSome then .aborted
  else
    let lastError := host.lastError
    match ringPathOf host ringConfig.eventRingSpec with
    | .error rc =>
      .returned rc recorder [.error s!"open of event ring default directory failed: {lastError}"]
    | .ok path =>
      match host.checkPathSupportsMapHugetlb path with
      | (rc, fsSupportsHugetlb) =>
        if rc ≠ 0 then .returned rc recorder [.error s!"event library error -- {lastError}"]
        else
          let warning := if fsSupportsHugetlb then []
            else [.warning s!"file system hosting event ring file `{path}` does not support MAP_HUGETLB!"]
          match host.createOwnedEventRingNointr path (simpleConfigOf host ringConfig) with
          | (rc, ringFd) =>
            if rc ≠ 0 then .returned rc recorder warning
            else
              match host.eventRingMmap (protRead ||| protWrite) (mmapExtraFlags fsSupportsHugetlb)
                  ringFd path with
              | (rc, execRing) =>
                if rc ≠ 0 then
                  .returned rc recorder (warning ++ [.error s!"event library error -- {lastError}"])
                else
                  .returned 0 (some ⟨ringFd, path, execRing⟩)
                    (warning ++ [.info s!"execution event ring created: {path}"])

end Recorder

end MonadFork
