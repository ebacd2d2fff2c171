import MonadFork.RunLoop
import Mathlib.Algebra.BigOperators.Group.List

/-!
The counters of `runloop_monad_ethblocks` and its `log_tps` calls (lines
282-290, 399-430).

`ntxs` and `total_gas` run over the whole run; `batch_num_blocks`,
`batch_num_txs` and `batch_gas` over the current batch, which a block at a
height divisible by `batch_size` closes with a `log_tps` call, and the exit
flushes if it is not empty. All of them are `uint64_t`, so every sum below is
taken modulo 2^64.

* `BatchSplit` — the invariant: the accepted blocks are the logged batches,
  each closed at a multiple of the batch size, followed by the pending batch
  the counters hold.
* `runloop_throughput` — a successful run returns the sums of the transaction
  counts and gas of the blocks it accepted, and its `log_tps` calls cut those
  blocks into consecutive non-empty batches whose counts add up to the totals.
* `runloop_logTps_nblocks` — every `log_tps` call of any run reports between
  one block and `batch_size`.
-/

namespace MonadFork

/-- `block.transactions.size()` of an accepted block, as the loop adds it. -/
def txCount (x : UInt64 × Block) : UInt64 := x.2.transactions.length.toUInt64

/-- `block.header.gas_used` of an accepted block. -/
def gasUsed (x : UInt64 × Block) : UInt64 := x.2.header.gasUsed

/-- The transaction count of some accepted blocks, modulo 2^64. -/
def sumTxs (xs : List (UInt64 × Block)) : UInt64 := (xs.map txCount).sum

/-- The gas of some accepted blocks, modulo 2^64. -/
def sumGas (xs : List (UInt64 × Block)) : UInt64 := (xs.map gasUsed).sum

/-- The height of the last block of a batch. -/
def lastHeight (batch : List (UInt64 × Block)) : UInt64 := (batch.getLast?.map Prod.fst).getD 0

/-- The arguments of `log_tps` for a batch logged at `blockNum`. -/
def batchSummary (blockNum : UInt64) (batch : List (UInt64 × Block)) :
    UInt64 × UInt64 × UInt64 × UInt64 :=
  (blockNum, batch.length.toUInt64, sumTxs batch, sumGas batch)

@[simp] theorem sumTxs_nil : sumTxs [] = 0 := rfl

@[simp] theorem sumTxs_singleton (x : UInt64 × Block) :
    sumTxs [x] = x.2.transactions.length.toUInt64 := by simp [sumTxs, txCount]

@[simp] theorem sumGas_nil : sumGas [] = 0 := rfl

@[simp] theorem sumGas_singleton (x : UInt64 × Block) : sumGas [x] = x.2.header.gasUsed := by
  simp [sumGas, gasUsed]

@[simp] theorem sumTxs_append (xs ys : List (UInt64 × Block)) :
    sumTxs (xs ++ ys) = sumTxs xs + sumTxs ys := by simp [sumTxs, List.sum_append]

@[simp] theorem sumGas_append (xs ys : List (UInt64 × Block)) :
    sumGas (xs ++ ys) = sumGas xs + sumGas ys := by simp [sumGas, List.sum_append]

@[simp] theorem lastHeight_concat (xs : List (UInt64 × Block)) (x : UInt64 × Block) :
    lastHeight (xs ++ [x]) = x.1 := by simp [lastHeight]

@[simp] theorem logTpsCalls_append (xs ys : List Event) :
    logTpsCalls (xs ++ ys) = logTpsCalls xs ++ logTpsCalls ys :=
  List.filterMap_append _ _ _

theorem lastHeight_mem {b : List (UInt64 × Block)} (h : b ≠ []) : ∃ x ∈ b, lastHeight b = x.1 :=
  ⟨b.getLast h, List.getLast_mem h, by simp [lastHeight, List.getLast?_eq_getLast _ h]⟩

theorem sumTxs_flatten (batches : List (List (UInt64 × Block))) :
    sumTxs batches.flatten = (batches.map sumTxs).sum := by
  induction batches with
  | nil => rfl
  | cons b batches ih => simp [ih]

theorem sumGas_flatten (batches : List (List (UInt64 × Block))) :
    sumGas batches.flatten = (batches.map sumGas).sum := by
  induction batches with
  | nil => rfl
  | cons b batches ih => simp [ih]

theorem sum_lengths_toUInt64 (batches : List (List (UInt64 × Block))) :
    (batches.map fun b => b.length.toUInt64).sum = batches.flatten.length.toUInt64 := by
  induction batches with
  | nil => rfl
  | cons b batches ih => simp [ih, toUInt64_add]

@[simp] theorem logTpsCalls_logTps (blockNum nblocks ntxs gas : UInt64) :
    logTpsCalls [.logTps blockNum nblocks ntxs gas] = [(blockNum, nblocks, ntxs, gas)] := rfl

/-- The accepted blocks, cut into the batches the loop has logged and the
pending batch its counters hold. -/
structure BatchSplit (bs : UInt64) (done : List (UInt64 × Block)) (st : LoopState) where
  batches : List (List (UInt64 × Block))
  pending : List (UInt64 × Block)
  split : done = batches.flatten ++ pending
  closed : ∀ b ∈ batches, b ≠ [] ∧ lastHeight b % bs = 0
  unclosed : ∀ x ∈ pending, x.1 % bs ≠ 0
  logged : logTpsCalls st.trace = batches.map fun b => batchSummary (lastHeight b) b
  counters : st.batchNumBlocks = pending.length.toUInt64 ∧ st.batchNumTxs = sumTxs pending ∧
    st.batchGas = sumGas pending

section Batches

variable {host : Host} {p : RunParams}

/-- An accepted block logs nothing itself. -/
theorem Dispatches.logTpsCalls {st : LoopState} {block : Block} {events : List Event}
    {set : AddressSet} (hd : Dispatches host p st block events set) : logTpsCalls events = [] := by
  obtain ⟨r, -, hc, -⟩ := processMonadBlock_eq_ok hd.2.2.2
  exact logTpsCalls_commitBlock hc

/-- **One accepted block keeps the split**: it joins the pending batch, and
closes it when its height is a multiple of the batch size. -/
def BatchSplit.advance {bs : UInt64} {done : List (UInt64 × Block)} {st : LoopState}
    {block : Block} {events : List Event} {set : AddressSet} (sp : BatchSplit bs done st)
    (hlog : logTpsCalls events = []) :
    BatchSplit bs (done ++ [(st.blockNum, block)]) (st.advance bs block events set) :=
  if hb : st.blockNum % bs = 0 then
    { batches := sp.batches ++ [sp.pending ++ [(st.blockNum, block)]], pending := []
      split := by simp [sp.split]
      closed := by
        simp only [List.mem_append, List.mem_singleton]
        rintro b (hb' | rfl)
        · exact sp.closed b hb'
        · simpa using hb
      unclosed := by simp
      logged := by
        simp [advance_eq, LoopState.batchLog, hb, hlog, sp.logged, sp.counters, batchSummary]
      counters := by simp [advance_eq, hb, sumTxs, sumGas] }
  else
    { batches := sp.batches, pending := sp.pending ++ [(st.blockNum, block)]
      split := by simp [sp.split]
      closed := sp.closed
      unclosed := by simpa [or_imp, forall_and] using ⟨fun a b h => sp.unclosed (a, b) h, hb⟩
      logged := by simp [advance_eq, LoopState.batchLog, hb, hlog, sp.logged]
      counters := by
        simp [advance_eq, hb, sp.counters] }

/-- Every reached loop state has a batch split, and its totals are the sums
over every accepted block. -/
theorem Reaches.batchSplit {done : List (UInt64 × Block)} {st : LoopState}
    (h : Reaches host p done st) :
    Nonempty (BatchSplit (batchSize p.endBlockNum) done st) ∧
      st.ntxs = sumTxs done ∧ st.totalGas = sumGas done := by
  induction h with
  | start =>
    exact ⟨⟨⟨[], [], rfl, by simp, by simp, rfl, by simp [LoopState.initial]⟩⟩, rfl, rfl⟩
  | next _ hd ih =>
    obtain ⟨⟨sp⟩, hntxs, hgas⟩ := ih
    exact ⟨⟨sp.advance hd.logTpsCalls⟩, by simp [advance_eq, hntxs], by simp [advance_eq, hgas]⟩

/-- A pending batch is shorter than 2^64: with no end the batch size is 1, so
every block closes its batch; with an end no height wraps. -/
theorem BatchSplit.pending_length_lt {done : List (UInt64 × Block)} {st : LoopState}
    (sp : BatchSplit (batchSize p.endBlockNum) done st) (h : Reaches host p done st) :
    sp.pending.length < 2 ^ 64 := by
  by_cases hend : p.endBlockNum = maxUInt64
  · have hnil : sp.pending = [] := List.eq_nil_iff_forall_not_mem.mpr fun x hx =>
      sp.unclosed x hx (by simp only [batchSize, hend, if_true]; exact UInt64.toNat.inj (by simp [Nat.mod_one]))
    simp [hnil]
  · have hlen : sp.pending.length ≤ done.length := by simp [sp.split]
    have := h.blockNum_toNat hend
    have : st.blockNum.toNat < 2 ^ 64 := UInt64.toNat_lt_size _
    omega

/-- The exit flushes the pending batch exactly when it is not empty. -/
theorem BatchSplit.logTpsCalls_exitTrace {bs : UInt64} {done : List (UInt64 × Block)}
    {st : LoopState} (sp : BatchSplit bs done st) (hlen : sp.pending.length < 2 ^ 64) :
    logTpsCalls st.exitTrace = sp.batches.map (fun b => batchSummary (lastHeight b) b) ++
      if sp.pending = [] then [] else [batchSummary st.blockNum sp.pending] := by
  obtain ⟨hblocks, htxs, hgas⟩ := sp.counters
  have hpos : st.batchNumBlocks > 0 ↔ ¬ sp.pending = [] := by
    show 0 < st.batchNumBlocks.toNat ↔ _
    rw [hblocks, u64_toNat_toUInt64, Nat.mod_eq_of_lt hlen, Nat.pos_iff_ne_zero, Ne,
      List.length_eq_zero]
  unfold LoopState.exitTrace
  by_cases hp : sp.pending = []
  · rw [if_neg (by simpa [hpos] using hp)]; simp [hp, sp.logged]
  · rw [if_pos (hpos.mpr hp)]; simp [hp, sp.logged, batchSummary, hblocks, htxs, hgas]

end Batches

/-! ### What a successful run returns -/

/-- What a successful return at `f` with totals `ntxs` and `gas` says about a
run with parameters `p` and batch size `bs`: the blocks `done` it accepted from
the start height on, and the batches its `log_tps` calls cut them into. -/
structure ThroughputReport (host : Host) (p : RunParams) (bs f ntxs gas : UInt64)
    (trace : List Event) where
  done : List (UInt64 × Block)
  batches : List (List (UInt64 × Block))
  /-- the run accepted the heights s, s+1, ... in turn, from the archive -/
  heights : done.map Prod.fst = (List.range done.length).map (p.finalizedBlockNum + ·.toUInt64)
  archived : ∀ x ∈ done, host.blockDbGet x.1 = some x.2
  returned : f = p.finalizedBlockNum + done.length.toUInt64
  totals : ntxs = sumTxs done ∧ gas = sumGas done
  /-- the batches are the accepted blocks, none lost and none twice -/
  split : batches.flatten = done
  nonempty : ∀ b ∈ batches, b ≠ []
  closed : ∀ b ∈ batches.dropLast, lastHeight b % bs = 0
  /-- each batch is logged once: at its last height if that closes it, else by
  the flush at exit -/
  logged : logTpsCalls trace = batches.map fun b =>
    batchSummary (if lastHeight b % bs = 0 then lastHeight b else f) b
  counts : (batches.map fun b => b.length.toUInt64).sum = f - p.finalizedBlockNum ∧
    (batches.map sumTxs).sum = ntxs ∧ (batches.map sumGas).sum = gas

section Returns

variable {host : Host} {p : RunParams}

/-- The exit of a reached state reports on the blocks it accepted: the logged
batches, then the pending one if it is not empty. -/
theorem Reaches.throughputReport {done : List (UInt64 × Block)} {st : LoopState}
    (h : Reaches host p done st) :
    Nonempty (ThroughputReport host p (batchSize p.endBlockNum) st.blockNum st.ntxs st.totalGas
      st.exitTrace) := by
  obtain ⟨-, hnum, hmap, harch⟩ := h.heights
  obtain ⟨⟨sp⟩, hntxs, hgas⟩ := h.batchSplit
  have hlog := sp.logTpsCalls_exitTrace (sp.pending_length_lt h)
  have hlast : ∀ b ∈ sp.batches, lastHeight b % batchSize p.endBlockNum = 0 :=
    fun b hb => (sp.closed b hb).2
  -- the logged batches, then the pending one if the exit flushes it
  obtain ⟨batches, hsplit, hne, hclosed, hlogged⟩ : ∃ batches : List (List (UInt64 × Block)),
      batches.flatten = done ∧ (∀ b ∈ batches, b ≠ []) ∧
      (∀ b ∈ batches.dropLast, lastHeight b % batchSize p.endBlockNum = 0) ∧
      logTpsCalls st.exitTrace = batches.map fun b => batchSummary
        (if lastHeight b % batchSize p.endBlockNum = 0 then lastHeight b else st.blockNum) b := by
    have hsame : sp.batches.map (fun b => batchSummary (lastHeight b) b) =
        sp.batches.map fun b => batchSummary
          (if lastHeight b % batchSize p.endBlockNum = 0 then lastHeight b else st.blockNum) b :=
      List.map_congr_left fun b hb => by rw [if_pos (hlast b hb)]
    by_cases hp : sp.pending = []
    · refine ⟨sp.batches, by simp [sp.split, hp], fun b hb => (sp.closed b hb).1,
        fun b hb => hlast b (List.dropLast_subset _ hb), ?_⟩
      rw [hlog, if_pos hp, List.append_nil, hsame]
    · obtain ⟨x, hx, hxlast⟩ := lastHeight_mem hp
      refine ⟨sp.batches ++ [sp.pending], by simp [sp.split], ?_, by simpa using hlast, ?_⟩
      · simpa [or_imp, forall_and, hp] using fun b hb => (sp.closed b hb).1
      · rw [hlog, if_neg hp, List.map_append, List.map_singleton, hsame,
          if_neg (by rw [hxlast]; exact sp.unclosed x hx)]
  refine ⟨⟨done, batches, hmap, harch, hnum, ⟨hntxs, hgas⟩, hsplit, hne, hclosed, hlogged, ?_⟩⟩
  rw [hnum, add_sub_cancel_left, sum_lengths_toUInt64, ← sumTxs_flatten, ← sumGas_flatten, hsplit]
  exact ⟨rfl, hntxs.symm, hgas.symm⟩

/-- **Throughput.** A run that returns successfully returns the sums, modulo
2^64, of the transaction counts and gas of the blocks it accepted, and its
`log_tps` calls cut those blocks into consecutive non-empty batches, each
closed at a multiple of the batch size (1 with no end, else 1000) but perhaps
the last, which the exit flushes; the batches' counts add up to the blocks run
and the two totals. -/
theorem runloop_throughput (fuel : Nat) {f ntxs gas : UInt64} {trace : List Event}
    (h : runloopMonadEthblocks host p fuel = .returned f (.ok (ntxs, gas)) trace) :
    Nonempty (ThroughputReport host p (if p.endBlockNum.toNat = 2 ^ 64 - 1 then 1 else 1000)
      f ntxs gas trace) := by
  rw [← batchSize_eq]
  rcases runloop_cases fuel with ⟨halt, -, hr⟩ |
      ⟨done, st, hreach, ⟨hr, -⟩ | ⟨-, hr⟩ | ⟨-, -, m, hr⟩ | ⟨_, _, halt, -, -, -, hr⟩⟩ <;> rw [hr] at h
  · obtain ⟨e, he, -⟩ := Run.ofHalt_eq_returned h
    cases he
  · cases h
  · cases h
    exact hreach.throughputReport
  · cases h
  · obtain ⟨e, he, -⟩ := Run.ofHalt_eq_returned h
    cases he

/-- From height 999 to 1001 over the busy archive the run returns 6
transactions and 126000 gas at 1002: two blocks in the batch closed at 1000,
then block 1001, which the exit flushes. -/
theorem throughput_from_999 :
    ∃ trace, runloopMonadEthblocks (busyHost fun _ => false) ⟨999, 1001, fun _ => false, false⟩ 4 =
      .returned 1002 (.ok (6, 126000)) trace ∧
      logTpsCalls trace = [(1000, 2, 4, 84000), (1002, 1, 2, 42000)] ∧
      Nonempty (ThroughputReport (busyHost fun _ => false) ⟨999, 1001, fun _ => false, false⟩
        (if (1001 : UInt64).toNat = 2 ^ 64 - 1 then 1 else 1000) 1002 6 126000 trace) :=
  ⟨_, rfl, rfl, runloop_throughput 4 rfl⟩

end Returns

/-! ### Batch sizes -/

section BatchSizes

variable {host : Host} {p : RunParams}

/-- The pending batch holds the blocks since the last multiple of the batch
size: before testing height n it has at most (n-1) mod `batch_size` blocks. -/
theorem Reaches.batchNumBlocks_le {done : List (UInt64 × Block)} {st : LoopState}
    (h : Reaches host p done st) :
    st.batchNumBlocks.toNat ≤
      (st.blockNum.toNat + (batchSize p.endBlockNum).toNat - 1) % (batchSize p.endBlockNum).toNat := by
  induction h with
  | start => simp [LoopState.initial]
  | @next done st block events set _ hd ih =>
    simp only [advance_eq]
    split_ifs with hb
    · exact Nat.zero_le _
    by_cases hend : p.endBlockNum = maxUInt64
    · exact absurd (UInt64.toNat.inj (by simp [batchSize, hend, Nat.mod_one])) hb
    have hbs : batchSize p.endBlockNum = 1000 := if_neg hend
    have hle : st.blockNum.toNat ≤ p.endBlockNum.toNat := hd.1.1
    have hne : p.endBlockNum.toNat ≠ 2 ^ 64 - 1 := fun h => hend (UInt64.toNat.inj h)
    have hlt : p.endBlockNum.toNat < 2 ^ 64 := UInt64.toNat_lt_size _
    have h1 : (1 : UInt64).toNat = 1 := rfl
    have h1000 : (1000 : UInt64).toNat = 1000 := rfl
    have hb' : st.blockNum.toNat % 1000 ≠ 0 := fun h0 =>
      hb (UInt64.toNat.inj (by rw [UInt64.toNat_mod, hbs, h1000, h0]; rfl))
    rw [hbs, h1000] at ih
    rw [hbs, h1000, u64_toNat_add, u64_toNat_add, h1]
    omega

/-- The pending batch is smaller than the batch size. -/
theorem Reaches.batchNumBlocks_lt {done : List (UInt64 × Block)} {st : LoopState}
    (h : Reaches host p done st) : st.batchNumBlocks.toNat < (batchSize p.endBlockNum).toNat := by
  have hpos : 0 < (batchSize p.endBlockNum).toNat := by unfold batchSize; split_ifs <;> decide
  exact lt_of_le_of_lt h.batchNumBlocks_le (Nat.mod_lt _ hpos)

/-- Every batch a reached state has logged has between one block and the batch
size. -/
theorem Reaches.logTps_nblocks {done : List (UInt64 × Block)} {st : LoopState}
    (h : Reaches host p done st) :
    ∀ c ∈ logTpsCalls st.trace, 0 < c.2.1.toNat ∧ c.2.1.toNat ≤ (batchSize p.endBlockNum).toNat := by
  induction h with
  | start => simp [LoopState.initial, logTpsCalls]
  | @next done st block events set hr hd ih =>
    have hk := hr.batchNumBlocks_lt
    have hbs : (batchSize p.endBlockNum).toNat ≤ 1000 := by unfold batchSize; split_ifs <;> decide
    simp only [advance_eq, logTpsCalls_append, hd.logTpsCalls, List.append_nil, List.mem_append]
    rintro c (hc | hc)
    · exact ih c hc
    · unfold LoopState.batchLog at hc
      split_ifs at hc
      · rw [logTpsCalls_logTps, List.mem_singleton] at hc
        subst hc
        have h1 : (1 : UInt64).toNat = 1 := rfl
        rw [u64_toNat_add, h1]
        omega
      · simp [logTpsCalls] at hc

/-- The exit's flush, if any, also has between one block and the batch size. -/
theorem Reaches.logTps_nblocks_exitTrace {done : List (UInt64 × Block)} {st : LoopState}
    (h : Reaches host p done st) :
    ∀ c ∈ logTpsCalls st.exitTrace,
      0 < c.2.1.toNat ∧ c.2.1.toNat ≤ (batchSize p.endBlockNum).toNat := by
  unfold LoopState.exitTrace
  split_ifs with hpos
  · simp only [logTpsCalls_append, logTpsCalls_logTps, List.mem_append, List.mem_singleton]
    rintro c (hc | rfl)
    · exact h.logTps_nblocks c hc
    · exact ⟨hpos, h.batchNumBlocks_lt.le⟩
  · exact h.logTps_nblocks

/-- **Every batch fits**: each `log_tps` call of a run, whatever its outcome,
reports at least one block and at most `batch_size` (1 with no end, else 1000),
so `batch_num_blocks` never wraps. -/
theorem runloop_logTps_nblocks (fuel : Nat) :
    ∀ blockNum nblocks ntxs gas,
      (blockNum, nblocks, ntxs, gas) ∈ logTpsCalls (runloopMonadEthblocks host p fuel).trace →
        0 < nblocks ∧ nblocks ≤ if p.endBlockNum.toNat = 2 ^ 64 - 1 then 1 else 1000 := by
  rw [← batchSize_eq]
  intro blockNum nblocks ntxs gas hc
  suffices ∀ c ∈ logTpsCalls (runloopMonadEthblocks host p fuel).trace,
      0 < c.2.1.toNat ∧ c.2.1.toNat ≤ (batchSize p.endBlockNum).toNat from this _ hc
  rcases runloop_cases fuel with ⟨halt, -, hr⟩ |
      ⟨done, st, hreach, ⟨hr, -⟩ | ⟨-, hr⟩ | ⟨-, -, m, hr⟩ | ⟨_, _, halt, -, -, hp, hr⟩⟩ <;> rw [hr]
  · simp [logTpsCalls]
  · exact hreach.logTps_nblocks
  · exact hreach.logTps_nblocks_exitTrace
  · exact hreach.logTps_nblocks
  · rw [Run.trace_ofHalt, logTpsCalls_append, (processMonadBlock_error_calls hp).2, List.append_nil]
    exact hreach.logTps_nblocks

/-- From height 999 to 1001 over the busy archive the batch closed at 1000
has two blocks, and the exit flushes the third alone. -/
theorem batches_from_999 :
    logTpsCalls (runloopMonadEthblocks (busyHost fun _ => false)
        ⟨999, 1001, fun _ => false, false⟩ 4).trace = [(1000, 2, 4, 84000), (1002, 1, 2, 42000)] ∧
      0 < (2 : UInt64) ∧ (2 : UInt64) ≤ if (1001 : UInt64).toNat = 2 ^ 64 - 1 then 1 else 1000 :=
  have h : logTpsCalls (runloopMonadEthblocks (busyHost fun _ => false)
      ⟨999, 1001, fun _ => false, false⟩ 4).trace = [(1000, 2, 4, 84000), (1002, 1, 2, 42000)] := rfl
  ⟨h, @runloop_logTps_nblocks (busyHost fun _ => false) ⟨999, 1001, fun _ => false, false⟩ 4
    1000 2 4 84000 (by rw [h]; exact List.mem_cons_self _ _)⟩

end BatchSizes

end MonadFork
