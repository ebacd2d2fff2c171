import MonadFork.RunLoop

/-!
The value `runloop_monad_ethblocks` leaves in its in/out parameter
`finalized_block_num`.

The loop counts in a local copy, `block_num`, and writes it back once, after
the loop (line 429). A block that fails returns through `BOOST_OUTCOME_TRY`
(line 377) before that line, so the parameter keeps its value on entry however
many blocks the run had finalized.

* `runloop_finalizedBlockNum` — on success the parameter is the start height
  plus the number of `db.finalize` calls; on failure it is the start height.
* `finalizedBlockNum_after_failure` — a run from height 1 that finalizes block 1
  and fails at block 2 returns with the parameter still 1.
-/

namespace MonadFork

section Watermark

variable {host : Host} {p : RunParams}

/-- An accepted block is finalized once, under its header's number. -/
theorem Dispatches.finalizeCalls {st : LoopState} {block : Block} {events : List Event}
    {set : AddressSet} (hd : Dispatches host p st block events set) :
    finalizeCalls events = [block.header.number] := by
  obtain ⟨r, -, hc, -⟩ := processMonadBlock_eq_ok hd.2.2.2
  simpa [Except.isOk, Except.toBool] using finalizeCalls_commitBlock hc

@[simp] theorem finalizeCalls_append (xs ys : List Event) :
    finalizeCalls (xs ++ ys) = finalizeCalls xs ++ finalizeCalls ys :=
  List.filterMap_append _ _ _

theorem finalizeCalls_batchLog (bs : UInt64) (st : LoopState) (block : Block) :
    finalizeCalls (st.batchLog bs block) = [] := by
  unfold LoopState.batchLog; split_ifs <;> rfl

theorem finalizeCalls_exitTrace (st : LoopState) :
    finalizeCalls st.exitTrace = finalizeCalls st.trace := by
  unfold LoopState.exitTrace; split_ifs <;> simp [finalizeCalls]

/-- A reached loop state has finalized each accepted block once. -/
theorem Reaches.finalizeCalls_length {done : List (UInt64 × Block)} {st : LoopState}
    (h : Reaches host p done st) : (finalizeCalls st.trace).length = done.length := by
  induction h with
  | start => rfl
  | next _ hd ih => simp [advance_eq, hd.finalizeCalls, finalizeCalls_batchLog, ih]

/-- **The watermark a run returns.** On success `finalized_block_num` is the
start height plus the number of blocks finalized (in `uint64_t` arithmetic);
when a block fails it is the start height, whatever the run finalized. -/
theorem runloop_finalizedBlockNum (fuel : Nat) {f : UInt64}
    {result : Except Error (UInt64 × UInt64)} {trace : List Event}
    (h : runloopMonadEthblocks host p fuel = .returned f result trace) :
    (result.isOk = true → f = p.finalizedBlockNum + (finalizeCalls trace).length.toUInt64) ∧
      (result.isOk = false → f = p.finalizedBlockNum) := by
  rcases runloop_cases fuel with ⟨halt, -, hr⟩ |
      ⟨done, st, hreach, ⟨hr, -⟩ | ⟨-, hr⟩ | ⟨-, -, m, hr⟩ | ⟨_, _, halt, -, -, -, hr⟩⟩ <;> rw [hr] at h
  · obtain ⟨e, rfl, rfl, -⟩ := Run.ofHalt_eq_returned h
    exact ⟨nofun, fun _ => rfl⟩
  · cases h
  · cases h
    obtain ⟨-, hnum, -, -⟩ := hreach.heights
    exact ⟨fun _ => by rw [finalizeCalls_exitTrace, hreach.finalizeCalls_length, hnum], nofun⟩
  · cases h
  · obtain ⟨e, rfl, rfl, -⟩ := Run.ofHalt_eq_returned h
    exact ⟨nofun, fun _ => rfl⟩

/-- From height 1 to 3 every block is accepted: the run returns 4 = 1 + 3. -/
theorem finalizedBlockNum_after_three_blocks :
    ∃ trace, runloopMonadEthblocks (sampleHost fun _ => false) ⟨1, 3, fun _ => false, false⟩ 4 =
      .returned 4 (.ok (0, 0)) trace ∧
      (4 : UInt64) = 1 + (finalizeCalls trace).length.toUInt64 :=
  ⟨_, rfl, (@runloop_finalizedBlockNum (sampleHost fun _ => false) ⟨1, 3, fun _ => false, false⟩
    4 _ _ _ rfl).1 rfl⟩

end Watermark

/-! ### A run that fails after finalizing a block -/

/-- From height 1 to 5 with no stop: block 1 is finalized, block 2 fails, and
`finalized_block_num` comes back as 1, not 2. -/
theorem finalizedBlockNum_after_failure :
    ∃ trace, runloopMonadEthblocks (sampleHost (· = 2)) ⟨1, 5, fun _ => false, false⟩ 2 =
      .returned 1 (.error (.code 1)) trace ∧ finalizeCalls trace = [1] :=
  ⟨_, rfl, rfl⟩

end MonadFork
