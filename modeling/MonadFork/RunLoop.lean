import MonadFork.ProcessBlock

/-!
`runloop_monad_ethblocks` (lines 275-431): the driver.

A run seeds the window from blocks H-1 and H-2 (`seedWindow`), then repeats the
body of the `while` loop (`runIteration`) until the test fails, a block fails,
or the process aborts. `runloopMonadEthblocks host p fuel` is the run after at
most `fuel` loop tests. The loop's own state is `LoopState`: the variables the
source keeps across iterations, the number of loop tests made (which selects the
value `stop` reads) and the calls made so far. The clock (`batch_begin`) is not
modelled: it only feeds the rates `log_tps` prints.

`Reaches host p st` holds of the loop states a run passes through: the seeded
start, and what a block that `process_monad_block` accepts leaves. Every
invariant of the loop is proved over it: `runloop_cases` puts every run at a
reached state, or just past one (`runIteration_cases` says what that last
iteration can do).

* `runloop_cases` — every run, after any number of loop tests.
* `runloop_leaves_loop` — a run has left the loop, for good, once it has tested
  past an end height below 2^64-1 or read `stop` set.
-/

namespace MonadFork

/-- The inputs of `runloop_monad_ethblocks` other than its collaborators. -/
structure RunParams where
  /-- `finalized_block_num` on entry -/
  finalizedBlockNum : UInt64
  endBlockNum : UInt64
  /-- the value of `stop` that the k-th loop test reads -/
  stop : Nat → Bool
  enableTracing : Bool

/-- Line 282: one block per batch when the run has no end, else 1000. -/
def batchSize (endBlockNum : UInt64) : UInt64 :=
  if endBlockNum = maxUInt64 then 1 else 1000

/-- The batch size is 1 exactly when the end height is 2^64-1, else 1000. -/
theorem batchSize_eq (endBlockNum : UInt64) :
    batchSize endBlockNum = if endBlockNum.toNat = 2 ^ 64 - 1 then 1 else 1000 := by
  have hmax : endBlockNum = maxUInt64 ↔ endBlockNum.toNat = 2 ^ 64 - 1 :=
    ⟨fun h => h ▸ rfl, fun h => UInt64.toNat.inj h⟩
  simp only [batchSize, hmax]

/-- The loop variables of lines 284-298, with the number of loop tests made and
the calls made so far (oldest first). -/
structure LoopState where
  blockNum : UInt64
  parentBlockId : Bytes32
  parentSendersAndAuthorities : Option AddressSet
  grandparentSendersAndAuthorities : Option AddressSet
  ntxs : UInt64
  totalGas : UInt64
  batchNumBlocks : UInt64
  batchNumTxs : UInt64
  batchGas : UInt64
  tests : Nat
  trace : List Event

/-- Where a run is: inside the loop, or ended. `returned` carries the value the
in/out parameter `finalized_block_num` holds on return. -/
inductive Run where
  | running (st : LoopState)
  | returned (finalizedBlockNum : UInt64) (result : Except Error (UInt64 × UInt64))
      (trace : List Event)
  | aborted (message : String) (trace : List Event)
  | hung (trace : List Event)

/-- The calls a run has made. -/
def Run.trace : Run → List Event
  | .running st => st.trace
  | .returned _ _ trace => trace
  | .aborted _ trace => trace
  | .hung trace => trace

/-- How a halt ends the run: a `Result` error returns to the caller with
`finalized_block_num` untouched, an assertion aborts, a wrapped counter hangs. -/
def Run.ofHalt (finalizedBlockNum : UInt64) (trace : List Event) : Halt → Run
  | .error e => .returned finalizedBlockNum (.error e) trace
  | .abort message => .aborted message trace
  | .hang => .hung trace

@[simp] theorem Run.trace_ofHalt (finalizedBlockNum : UInt64) (trace : List Event) (halt : Halt) :
    (Run.ofHalt finalizedBlockNum trace halt).trace = trace := by
  cases halt <;> rfl

@[simp] theorem Run.ofHalt_ne_running (finalizedBlockNum : UInt64) (trace : List Event)
    (halt : Halt) (st : LoopState) : Run.ofHalt finalizedBlockNum trace halt ≠ .running st := by
  cases halt <;> simp [Run.ofHalt]

/-- A halt returns only with a `Result` error, and `finalized_block_num` as it
was. -/
theorem Run.ofHalt_eq_returned {f f' : UInt64} {trace trace' : List Event} {halt : Halt}
    {result : Except Error (UInt64 × UInt64)} (h : Run.ofHalt f trace halt = .returned f' result trace') :
    ∃ e, result = .error e ∧ f' = f ∧ trace' = trace := by
  cases halt <;> cases h
  exact ⟨_, rfl, rfl, rfl⟩

/-! ### Seeding the window (lines 300-363) -/

/-- The set of an earlier block, rebuilt at start-up; `role` names it in the
assertion message. -/
def seedAddressSet (host : Host) (n : UInt64) (role : String) : Except Halt AddressSet :=
  match host.blockDbGet n with
  | none => .error (.abort s!"Could not query {n} from blockdb for {role}")
  | some block =>
    (copySendersOrDefault (recoverSenders host block.transactions)).map
      (collectSendersAndAuthorities · (recoverAuthorities host block.transactions))

/-- Lines 300-363: the parent set from block H-1 when H > 1, the grandparent
set from H-2 when H > 2. -/
def seedWindow (host : Host) (blockNum : UInt64) :
    Except Halt (Option AddressSet × Option AddressSet) :=
  if blockNum > 1 then do
    let parent ← seedAddressSet host (blockNum - 1) "parent"
    if blockNum > 2 then do
      let grandparent ← seedAddressSet host (blockNum - 2) "grandparent"
      pure (some parent, some grandparent)
    else pure (some parent, none)
  else pure (none, none)

/-- The loop state before the first test. -/
def LoopState.initial (blockNum : UInt64) (parent grandparent : Option AddressSet) : LoopState :=
  { blockNum, parentBlockId := 0, parentSendersAndAuthorities := parent,
    grandparentSendersAndAuthorities := grandparent, ntxs := 0, totalGas := 0,
    batchNumBlocks := 0, batchNumTxs := 0, batchGas := 0, tests := 0, trace := [] }

/-! ### One iteration -/

/-- Lines 399-403: the running and batch counters take the block in. -/
def LoopState.accumulate (st : LoopState) (block : Block) : LoopState :=
  let txs := block.transactions.length.toUInt64
  { st with
    ntxs := st.ntxs + txs, batchNumTxs := st.batchNumTxs + txs,
    totalGas := st.totalGas + block.header.gasUsed,
    batchGas := st.batchGas + block.header.gasUsed,
    batchNumBlocks := st.batchNumBlocks + 1 }

/-- Lines 405-416: at a height divisible by the batch size, `log_tps` the batch
and start the next one. -/
def LoopState.logBatch (batchSize : UInt64) (st : LoopState) : LoopState :=
  if st.blockNum % batchSize = 0 then
    { st with
      trace := st.trace ++ [.logTps st.blockNum st.batchNumBlocks st.batchNumTxs st.batchGas],
      batchNumBlocks := 0, batchNumTxs := 0, batchGas := 0 }
  else st

/-- Lines 418-423: shift the window, remember the block's id, next height. -/
def LoopState.shift (st : LoopState) (set : AddressSet) (blockId : Bytes32) : LoopState :=
  { st with
    grandparentSendersAndAuthorities := st.parentSendersAndAuthorities,
    parentSendersAndAuthorities := some set, parentBlockId := blockId,
    blockNum := st.blockNum + 1, tests := st.tests + 1 }

/-- What an accepted block leaves: its calls, the counters, the batch log and
the window shift. -/
def LoopState.advance (batchSize : UInt64) (st : LoopState) (block : Block) (events : List Event)
    (set : AddressSet) : LoopState :=
  (({ st with trace := st.trace ++ events }.accumulate block).logBatch batchSize).shift set
    (bytes32Of block.header.number)

/-- Lines 425-428: the calls at exit, with the pending batch flushed if it is
not empty. -/
def LoopState.exitTrace (st : LoopState) : List Event :=
  if st.batchNumBlocks > 0 then
    st.trace ++ [.logTps st.blockNum st.batchNumBlocks st.batchNumTxs st.batchGas]
  else st.trace

/-- The `process_monad_block` call of the iteration that fetched `block`. -/
def LoopState.process (host : Host) (p : RunParams) (st : LoopState) (block : Block) :
    List Event × Except Halt AddressSet :=
  processMonadBlock host (host.getMonadRevision block.header.timestamp) st.trace block
    (bytes32Of block.header.number) st.parentBlockId p.enableTracing
    st.grandparentSendersAndAuthorities st.parentSendersAndAuthorities

/-- The loop test of line 365. -/
def LoopState.continues (p : RunParams) (st : LoopState) : Prop :=
  st.blockNum ≤ p.endBlockNum ∧ p.stop st.tests = false

instance (p : RunParams) (st : LoopState) : Decidable (st.continues p) :=
  inferInstanceAs (Decidable (_ ∧ _))

/-- One test of the `while` loop and, if it passes, one iteration of its body. -/
def runIteration (host : Host) (p : RunParams) (st : LoopState) : Run :=
  if st.continues p then
    let n := st.blockNum
    match host.blockDbGet n with
    | none => .aborted s!"Could not query {n} from blockdb" st.trace
    | some block =>
      let rev := host.getMonadRevision block.header.timestamp
      if host.switchMonadTraits rev then
        match st.process host p block with
        | (events, .ok set) => .running (st.advance (batchSize p.endBlockNum) block events set)
        | (events, .error halt) => Run.ofHalt p.finalizedBlockNum (st.trace ++ events) halt
      else .aborted s!"unhandled rev switch case: {rev}" st.trace
  else .returned st.blockNum (.ok (st.ntxs, st.totalGas)) st.exitTrace

/-- A step of the run: an iteration while running, nothing once ended. -/
def Run.step (host : Host) (p : RunParams) : Run → Run
  | .running st => runIteration host p st
  | r => r

/-- The run after `fuel` more loop tests. -/
def Run.iterate (host : Host) (p : RunParams) : Nat → Run → Run
  | 0, r => r
  | fuel + 1, r => Run.iterate host p fuel (r.step host p)

/-- `runloop_monad_ethblocks`, run for at most `fuel` loop tests. -/
def runloopMonadEthblocks (host : Host) (p : RunParams) (fuel : Nat) : Run :=
  match seedWindow host p.finalizedBlockNum with
  | .error halt => Run.ofHalt p.finalizedBlockNum [] halt
  | .ok (parent, grandparent) =>
    Run.iterate host p fuel (.running (.initial p.finalizedBlockNum parent grandparent))

/-! ### What an accepted block changes -/

section Advance

variable {bs : UInt64} {st : LoopState} {block : Block} {events : List Event} {set : AddressSet}

/-- The part of `logBatch` the window, heights and totals never see. -/
theorem logBatch_eq (st : LoopState) :
    st.logBatch bs = { st with
      trace := st.trace ++ (if st.blockNum % bs = 0 then
        [.logTps st.blockNum st.batchNumBlocks st.batchNumTxs st.batchGas] else []),
      batchNumBlocks := if st.blockNum % bs = 0 then 0 else st.batchNumBlocks,
      batchNumTxs := if st.blockNum % bs = 0 then 0 else st.batchNumTxs,
      batchGas := if st.blockNum % bs = 0 then 0 else st.batchGas } := by
  unfold LoopState.logBatch; split_ifs <;> simp

/-- The batch log line, if the block closes a batch. -/
def LoopState.batchLog (bs : UInt64) (st : LoopState) (block : Block) : List Event :=
  if st.blockNum % bs = 0 then
    [.logTps st.blockNum (st.batchNumBlocks + 1)
      (st.batchNumTxs + block.transactions.length.toUInt64) (st.batchGas + block.header.gasUsed)]
  else []

/-- **An accepted block**, field by field. -/
theorem advance_eq :
    st.advance bs block events set =
      { blockNum := st.blockNum + 1, parentBlockId := bytes32Of block.header.number,
        parentSendersAndAuthorities := some set,
        grandparentSendersAndAuthorities := st.parentSendersAndAuthorities,
        ntxs := st.ntxs + block.transactions.length.toUInt64,
        totalGas := st.totalGas + block.header.gasUsed,
        batchNumBlocks := if st.blockNum % bs = 0 then 0 else st.batchNumBlocks + 1,
        batchNumTxs := if st.blockNum % bs = 0 then 0 else
          st.batchNumTxs + block.transactions.length.toUInt64,
        batchGas := if st.blockNum % bs = 0 then 0 else st.batchGas + block.header.gasUsed,
        tests := st.tests + 1, trace := st.trace ++ events ++ st.batchLog bs block } := by
  simp only [LoopState.advance, logBatch_eq, LoopState.accumulate, LoopState.shift,
    LoopState.batchLog, List.append_assoc]

end Advance

@[simp] theorem toUInt64_zero : (0 : Nat).toUInt64 = 0 := rfl

@[simp] theorem toUInt64_succ (n : Nat) : (n + 1).toUInt64 = n.toUInt64 + 1 :=
  UInt64.toNat.inj (by simp [u64_toNat_add, Nat.add_mod])

theorem toUInt64_add (m n : Nat) : (m + n).toUInt64 = m.toUInt64 + n.toUInt64 :=
  UInt64.toNat.inj (by simp [u64_toNat_add, Nat.add_mod])

/-- A property of each entry of a list, by position, survives appending one
more entry that has it at the next position. -/
theorem forall_getElem?_concat {α : Type} {P : Nat → α → Prop} {xs : List α} {x : α}
    (hxs : ∀ i y, xs[i]? = some y → P i y) (hx : P xs.length x) :
    ∀ i y, (xs ++ [x])[i]? = some y → P i y := by
  intro i y hi
  rcases Nat.lt_or_ge i xs.length with hlt | hge
  · rw [List.getElem?_append_left hlt] at hi
    exact hxs i y hi
  · rw [List.getElem?_append_right hge] at hi
    have hk : i - xs.length = 0 := by
      by_contra hne
      obtain ⟨k, hk⟩ := Nat.exists_eq_succ_of_ne_zero hne
      simp [hk] at hi
    obtain rfl : i = xs.length := by omega
    simp only [hk, List.getElem?_cons_zero, Option.some.injEq] at hi
    exact hi ▸ hx

/-! ### The states a run passes through -/

/-- The iteration from `st` fetches `block`, and `process_monad_block` accepts
it with these calls and this address set. -/
def Dispatches (host : Host) (p : RunParams) (st : LoopState) (block : Block)
    (events : List Event) (set : AddressSet) : Prop :=
  st.continues p ∧ host.blockDbGet st.blockNum = some block ∧
    host.switchMonadTraits (host.getMonadRevision block.header.timestamp) = true ∧
    st.process host p block = (events, .ok set)

/-- The loop states a run reaches at a loop test, with the heights and blocks
it has accepted so far, oldest first. -/
inductive Reaches (host : Host) (p : RunParams) : List (UInt64 × Block) → LoopState → Prop
  | start {parent grandparent : Option AddressSet} :
      seedWindow host p.finalizedBlockNum = .ok (parent, grandparent) →
      Reaches host p [] (.initial p.finalizedBlockNum parent grandparent)
  | next {done : List (UInt64 × Block)} {st : LoopState} {block : Block} {events : List Event}
      {set : AddressSet} :
      Reaches host p done st → Dispatches host p st block events set →
      Reaches host p (done ++ [(st.blockNum, block)])
        (st.advance (batchSize p.endBlockNum) block events set)

section Runs

variable {host : Host} {p : RunParams}

/-- **What one loop test can do**: exit with the totals, abort on a missing
block or an unhandled revision, continue after an accepted block, or end with
the block's halt. -/
theorem runIteration_cases (st : LoopState) :
    (¬ st.continues p ∧
      runIteration host p st = .returned st.blockNum (.ok (st.ntxs, st.totalGas)) st.exitTrace) ∨
    (st.continues p ∧ (∀ block, host.blockDbGet st.blockNum = some block →
        host.switchMonadTraits (host.getMonadRevision block.header.timestamp) = false) ∧
      ∃ message, runIteration host p st = .aborted message st.trace) ∨
    (∃ block events set, Dispatches host p st block events set ∧
      runIteration host p st = .running (st.advance (batchSize p.endBlockNum) block events set)) ∨
    (∃ block events halt, st.continues p ∧ host.blockDbGet st.blockNum = some block ∧
      st.process host p block = (events, .error halt) ∧
      runIteration host p st = Run.ofHalt p.finalizedBlockNum (st.trace ++ events) halt) := by
  by_cases hc : st.continues p
  · rcases hb : host.blockDbGet st.blockNum with _ | block
    · exact .inr (.inl ⟨hc, by simp [hb], _, by simp [runIteration, hc, hb]; rfl⟩)
    · by_cases hrev : host.switchMonadTraits (host.getMonadRevision block.header.timestamp) = true
      · rcases hp : st.process host p block with ⟨events, halt | set⟩
        · exact .inr (.inr (.inr ⟨block, events, halt, hc, rfl, hp,
            by simp [runIteration, hc, hb, hrev, hp]⟩))
        · exact .inr (.inr (.inl ⟨block, events, set, ⟨hc, hb, hrev, hp⟩,
            by simp [runIteration, hc, hb, hrev, hp]⟩))
      · exact .inr (.inl ⟨hc, by simpa [hb] using hrev, _, by simp [runIteration, hc, hb, hrev]; rfl⟩)
  · exact .inl ⟨hc, by simp [runIteration, hc]⟩

theorem Run.iterate_of_not_running {r : Run} (hr : ∀ st, r ≠ .running st) (fuel : Nat) :
    Run.iterate host p fuel r = r := by
  induction fuel with
  | zero => rfl
  | succ fuel ih =>
    cases r with
    | running st => exact absurd rfl (hr st)
    | _ => exact ih

theorem Run.iterate_add (m n : Nat) (r : Run) :
    Run.iterate host p (m + n) r = Run.iterate host p n (Run.iterate host p m r) := by
  induction m generalizing r with
  | zero => rw [Nat.zero_add]; rfl
  | succ m ih => rw [Nat.succ_add]; exact ih _

/-- More fuel runs more loop tests from where the run stands. -/
theorem runloop_fuel_add (fuel extra : Nat) :
    runloopMonadEthblocks host p (fuel + extra) =
      Run.iterate host p extra (runloopMonadEthblocks host p fuel) := by
  unfold runloopMonadEthblocks
  split
  · exact (Run.iterate_of_not_running (by simp) _).symm
  · exact Run.iterate_add _ _ _

/-- An iteration that stays in the loop accepted the block it fetched. -/
theorem runIteration_eq_running {st st' : LoopState} (h : runIteration host p st = .running st') :
    ∃ block events set, Dispatches host p st block events set ∧
      st' = st.advance (batchSize p.endBlockNum) block events set := by
  rcases runIteration_cases st with ⟨-, hr⟩ | ⟨-, -, m, hr⟩ | ⟨block, events, set, hd, hr⟩ |
      ⟨block, events, halt, -, -, -, hr⟩ <;> rw [hr] at h
  · cases h
  · cases h
  · cases h; exact ⟨block, events, set, hd, rfl⟩
  · simp at h

/-- From a reached state, a run either is at the reached loop test `fuel`
iterations on, or has just left the loop from a reached state. -/
theorem Reaches.iterate {done : List (UInt64 × Block)} {st : LoopState}
    (h : Reaches host p done st) (fuel : Nat) :
    ∃ done' st', Reaches host p done' st' ∧
      ((Run.iterate host p fuel (.running st) = .running st' ∧
          done'.length = done.length + fuel) ∨
        (Run.iterate host p fuel (.running st) = runIteration host p st' ∧
          ∀ st'', runIteration host p st' ≠ .running st'')) := by
  induction fuel generalizing done st with
  | zero => exact ⟨done, st, h, .inl ⟨rfl, rfl⟩⟩
  | succ fuel ih =>
    show ∃ done' st', _ ∧ ((Run.iterate host p fuel (runIteration host p st) = _ ∧ _) ∨
      (Run.iterate host p fuel (runIteration host p st) = _ ∧ _))
    cases hr : runIteration host p st with
    | running st' =>
      obtain ⟨block, events, set, hd, rfl⟩ := runIteration_eq_running hr
      obtain ⟨done', st'', h', ⟨hi, hlen⟩ | hi⟩ := ih (h.next hd)
      · exact ⟨done', st'', h', .inl ⟨hi, by simp [hlen]; omega⟩⟩
      · exact ⟨done', st'', h', .inr hi⟩
    | _ => exact ⟨done, st, h, .inr ⟨by rw [hr, Run.iterate_of_not_running (by simp)], by simp [hr]⟩⟩

/-- **Where every run stands**: it has failed its seeding, or stands at a
reached loop test after `fuel` accepted blocks, or its last iteration, from a
reached state, has left the loop. -/
theorem runloop_stands (fuel : Nat) :
    (∃ halt, seedWindow host p.finalizedBlockNum = .error halt ∧
      runloopMonadEthblocks host p fuel = Run.ofHalt p.finalizedBlockNum [] halt) ∨
    ∃ done st, Reaches host p done st ∧
      ((runloopMonadEthblocks host p fuel = .running st ∧ done.length = fuel) ∨
        (runloopMonadEthblocks host p fuel = runIteration host p st ∧
          ∀ st', runIteration host p st ≠ .running st')) := by
  unfold runloopMonadEthblocks
  rcases hs : seedWindow host p.finalizedBlockNum with halt | ⟨parent, grandparent⟩
  · exact .inl ⟨halt, rfl, rfl⟩
  obtain ⟨done, st, h, hat⟩ := (Reaches.start hs).iterate fuel
  exact .inr ⟨done, st, h, by simpa using hat⟩

/-- **Every run** has failed its seeding, or stands at the reached loop test
`fuel`, or has left the loop from a reached state: by the exit with the totals,
an abort, or the halt of the block it fetched. -/
theorem runloop_cases (fuel : Nat) :
    (∃ halt, seedWindow host p.finalizedBlockNum = .error halt ∧
      runloopMonadEthblocks host p fuel = Run.ofHalt p.finalizedBlockNum [] halt) ∨
    ∃ done st, Reaches host p done st ∧
      ((runloopMonadEthblocks host p fuel = .running st ∧ done.length = fuel) ∨
        (¬ st.continues p ∧ runloopMonadEthblocks host p fuel =
          .returned st.blockNum (.ok (st.ntxs, st.totalGas)) st.exitTrace) ∨
        (st.continues p ∧ (∀ block, host.blockDbGet st.blockNum = some block →
            host.switchMonadTraits (host.getMonadRevision block.header.timestamp) = false) ∧
          ∃ message, runloopMonadEthblocks host p fuel = .aborted message st.trace) ∨
        (∃ block events halt, st.continues p ∧ host.blockDbGet st.blockNum = some block ∧
          st.process host p block = (events, .error halt) ∧
          runloopMonadEthblocks host p fuel = Run.ofHalt p.finalizedBlockNum (st.trace ++ events) halt)) := by
  rcases runloop_stands fuel with hseed | ⟨done, st, h, hrun | ⟨hr, hend⟩⟩
  · exact .inl hseed
  · exact .inr ⟨done, st, h, .inl hrun⟩
  rw [hr]
  rcases runIteration_cases st with hexit | habort | ⟨block, events, set, -, hi⟩ | hhalt
  · exact .inr ⟨done, st, h, .inr (.inl hexit)⟩
  · exact .inr ⟨done, st, h, .inr (.inr (.inl habort))⟩
  · exact absurd hi (hend _)
  · exact .inr ⟨done, st, h, .inr (.inr (.inr hhalt))⟩

/-- **Heights**: a run tests the heights s, s+1, ... in turn, and the blocks it
has accepted came from the archive at those heights. -/
theorem Reaches.heights {done : List (UInt64 × Block)} {st : LoopState}
    (h : Reaches host p done st) :
    st.tests = done.length ∧ st.blockNum = p.finalizedBlockNum + done.length.toUInt64 ∧
      done.map Prod.fst = (List.range done.length).map (p.finalizedBlockNum + ·.toUInt64) ∧
      ∀ x ∈ done, host.blockDbGet x.1 = some x.2 := by
  induction h with
  | start => simp [LoopState.initial]
  | next _ hd ih =>
    obtain ⟨htests, hnum, hmap, harch⟩ := ih
    refine ⟨by simp [advance_eq, htests], by simp [advance_eq, hnum, add_assoc], ?_, ?_⟩
    · simp [hmap, List.range_succ, hnum]
    · simpa [or_imp, forall_and] using ⟨fun a b h => harch (a, b) h, hd.2.1⟩

/-- With an end below 2^64-1 the height never wraps: every tested height is at
most one past the end. -/
theorem Reaches.blockNum_toNat (hend : p.endBlockNum ≠ maxUInt64) {done : List (UInt64 × Block)}
    {st : LoopState} (h : Reaches host p done st) :
    st.blockNum.toNat = p.finalizedBlockNum.toNat + done.length := by
  induction h with
  | start => simp [LoopState.initial]
  | @next _ st _ _ _ _ hd ih =>
    have hle : st.blockNum.toNat ≤ p.endBlockNum.toNat := hd.1.1
    have hne : p.endBlockNum.toNat ≠ 2 ^ 64 - 1 := fun h => hend (UInt64.toNat.inj h)
    have hlt : p.endBlockNum.toNat < 2 ^ 64 := UInt64.toNat_lt_size _
    simp only [advance_eq, u64_toNat_add, List.length_append, List.length_singleton]
    rw [ih] at hle ⊢
    have h1 : (1 : UInt64).toNat = 1 := rfl
    omega

/-- With an end below 2^64-1 a run accepts at most end + 1 - s blocks. -/
theorem Reaches.length_le (hend : p.endBlockNum ≠ maxUInt64) {done : List (UInt64 × Block)}
    {st : LoopState} (h : Reaches host p done st) :
    done.length ≤ p.endBlockNum.toNat + 1 - p.finalizedBlockNum.toNat := by
  induction h with
  | start => simp
  | @next done st _ _ _ hr hd _ =>
    have hle : st.blockNum.toNat ≤ p.endBlockNum.toNat := hd.1.1
    rw [hr.blockNum_toNat hend] at hle
    simp only [List.length_append, List.length_singleton]
    omega

/-- Every loop test a run has passed read `stop` clear. -/
theorem Reaches.stop_false {done : List (UInt64 × Block)} {st : LoopState}
    (h : Reaches host p done st) : ∀ k < done.length, p.stop k = false := by
  induction h with
  | start => simp
  | @next done st _ _ _ hr hd ih =>
    intro k hk
    rw [List.length_append, List.length_singleton] at hk
    rcases Nat.lt_succ_iff_lt_or_eq.mp hk with hk | rfl
    · exact ih k hk
    · rw [← hr.heights.1]; exact hd.1.2

end Runs

/-! ### Sample collaborators

The runs on concrete inputs use these: every height holds an empty block, every
signature recovers, and the chain rejects exactly the headers `rejects` picks,
with error code 1. -/

/-- A block with no transactions and no body, at height `n`. -/
def emptyBlock (n : UInt64) : Block :=
  ⟨⟨0, n, 0, 0, none⟩, [], [], none⟩

/-- Collaborators that accept every block but those whose number `rejects`. -/
def sampleHost (rejects : UInt64 → Bool) : Host where
  blockDbGet n := some (emptyBlock n)
  recoverSender _ := some 0
  recoverAuthorities _ := []
  getMonadRevision _ := 0
  switchMonadTraits _ := true
  staticValidateHeader header := if rejects header.number then .error (.code 1) else .ok ()
  staticValidateBlock _ _ := .ok ()
  staticValidateMonadBody _ _ _ := .ok ()
  executeBlock _ _ _ _ _ _ := .ok ([], [])
  validateOutputHeader _ _ := .ok ()
  readEthHeader _ := ⟨0, 0, 0, 0, none⟩
  encodeBlockHeader _ := []
  keccak256 _ := 0

/-- The header a call commits under `blockId`, if it is such a commit. -/
def Event.commitUnder (blockId : Bytes32) : Event → Option BlockHeader
  | .commit id header .. => if id = blockId then some header else none
  | _ => none

/-- The header last committed under `blockId` in `history`. -/
def committedUnder (history : List Event) (blockId : Bytes32) : Option BlockHeader :=
  history.reverse.findSome? (Event.commitUnder blockId)

/-- The scope change or commit a store call is, if it is one: what a read after
it depends on. -/
def Event.storeMove : Event → Option (Option (UInt64 × Bytes32) × Option BlockHeader)
  | .setBlockAndPrefix n blockId => some (some (n, blockId), none)
  | .commit _ header .. => some (none, some header)
  | _ => none

/-- A store that keeps its commits: right after a commit `read_eth_header`
returns the header committed; at a scope, the header last committed under the
scope's id, or a bare header of the scope's height when there is none. -/
def keptHeader (history : List Event) : BlockHeader :=
  match history.reverse.findSome? Event.storeMove with
  | some (_, some header) => header
  | some (some (n, blockId), none) => (committedUnder history blockId).getD ⟨0, n, 0, 0, none⟩
  | _ => ⟨0, 0, 0, 0, none⟩

theorem keptHeader_concat_commit (history : List Event) (blockId : Bytes32) (header : BlockHeader)
    (receipts : List Receipt) (callFrames : List (List CallFrame)) (senders : List Address)
    (transactions : List Transaction) (ommers : List BlockHeader)
    (withdrawals : Option (List Withdrawal)) :
    keptHeader (history ++ [.commit blockId header receipts callFrames senders transactions ommers
      withdrawals]) = header := by
  simp [keptHeader, Event.storeMove]

theorem keptHeader_concat_scope (history : List Event) (n : UInt64) (blockId : Bytes32) :
    keptHeader (history ++ [.setBlockAndPrefix n blockId]) =
      (committedUnder history blockId).getD ⟨0, n, 0, 0, none⟩ := by
  simp [keptHeader, committedUnder, Event.storeMove, Event.commitUnder]

/-- The block at height `n` of a busy archive: two transactions of 21000 gas,
the second with a signed authority and an unrecoverable one. -/
def busyBlock (n : UInt64) : Block :=
  ⟨⟨0, n, 42000, n, some 7⟩, [⟨[n.toUInt8]⟩, ⟨[n.toUInt8, 1]⟩], [], some []⟩

/-- Collaborators with data: a busy archive numbered by height, senders told
apart by their transactions, a store that keeps its commits and a hash that
sees a header's number and parent hash. `execute_block` fails, with error code
2, on the blocks whose number `executeFails` picks. -/
def busyHost (executeFails : UInt64 → Bool) : Host where
  blockDbGet n := some (busyBlock n)
  recoverSender tx := some (BitVec.ofNat 160 (tx.encoding.foldl (fun acc b => acc + b.toNat) 0x1000))
  recoverAuthorities tx := if tx.encoding.length = 2 then [some (BitVec.ofNat 160 0xA11CE), none] else []
  getMonadRevision _ := 0
  switchMonadTraits _ := true
  staticValidateHeader _ := .ok ()
  staticValidateBlock _ _ := .ok ()
  staticValidateMonadBody _ _ _ := .ok ()
  executeBlock _ _ block _ _ _ := if executeFails block.header.number then .error (.code 2)
    else .ok (block.transactions.map (⟨·.encoding⟩), block.transactions.map fun _ => [])
  validateOutputHeader _ _ := .ok ()
  readEthHeader := keptHeader
  encodeBlockHeader header :=
    [header.number.toUInt8, (header.number / 256).toUInt8, (header.parentHash.toNat % 256).toUInt8]
  keccak256 bytes := BitVec.ofNat 256 (bytes.foldl (fun acc b => acc * 257 + b.toNat + 1) 0x5eed)

/-! ### Leaving the loop -/

section Leave

variable {host : Host} {p : RunParams}

/-- A run still in the loop after `fuel` tests has accepted a block at each. -/
theorem runloop_eq_running {fuel : Nat} {st : LoopState}
    (h : runloopMonadEthblocks host p fuel = .running st) :
    ∃ done, Reaches host p done st ∧ done.length = fuel := by
  rcases runloop_cases fuel with ⟨halt, -, hr⟩ |
      ⟨done, st', hreach, ⟨hr, hlen⟩ | ⟨-, hr⟩ | ⟨-, -, m, hr⟩ | ⟨_, _, halt, -, -, -, hr⟩⟩ <;> rw [hr] at h
  · simp at h
  · cases h; exact ⟨done, hreach, hlen⟩
  · cases h
  · cases h
  · simp at h

/-- **Every run leaves the loop** once it has tested past an end height below
2^64-1, or a loop test has read `stop` set: it has then returned, aborted or
hung, and more loop tests change nothing. -/
theorem runloop_leaves_loop {fuel : Nat}
    (h : (p.endBlockNum ≠ maxUInt64 ∧
        p.endBlockNum.toNat + 1 - p.finalizedBlockNum.toNat < fuel) ∨
      ∃ k < fuel, p.stop k = true) :
    (∀ st, runloopMonadEthblocks host p fuel ≠ .running st) ∧
      ∀ extra, runloopMonadEthblocks host p (fuel + extra) = runloopMonadEthblocks host p fuel := by
  have hleft : ∀ st, runloopMonadEthblocks host p fuel ≠ .running st := by
    intro st hrun
    obtain ⟨done, hreach, rfl⟩ := runloop_eq_running hrun
    rcases h with ⟨hend, hfuel⟩ | ⟨k, hk, hstop⟩
    · exact absurd (hreach.length_le hend) (by omega)
    · exact absurd hstop (by rw [hreach.stop_false k hk]; decide)
  exact ⟨hleft, fun extra => by rw [runloop_fuel_add, Run.iterate_of_not_running hleft]⟩

/-- From height 1 to 3, four loop tests end the run. -/
theorem three_blocks_leave_loop :
    ((3 : UInt64) ≠ maxUInt64 ∧ (3 : UInt64).toNat + 1 - (1 : UInt64).toNat < 4) ∧
      (∀ st, runloopMonadEthblocks (sampleHost fun _ => false) ⟨1, 3, fun _ => false, false⟩ 4 ≠
        .running st) ∧
      ∀ extra, runloopMonadEthblocks (sampleHost fun _ => false) ⟨1, 3, fun _ => false, false⟩
        (4 + extra) = runloopMonadEthblocks (sampleHost fun _ => false) ⟨1, 3, fun _ => false, false⟩ 4 :=
  ⟨⟨by decide, by decide⟩, @runloop_leaves_loop (sampleHost fun _ => false)
    ⟨1, 3, fun _ => false, false⟩ 4 (.inl ⟨by decide, by decide⟩)⟩

end Leave

end MonadFork
