import MonadFork.Window

/-!
Two things a run of `runloop_monad_ethblocks` never does.

It never executes a block with a sender it could not recover: every
`execute_block` call gets, for each transaction, the sender recovered from it
(lines 114-121 return `MissingSender` before anything is executed otherwise),
with the recovered authorities, after the monad body validated with those
senders. And it never touches the block-hash buffer before a block is verified:
every `block_hash_buffer.set(n, hash)` comes right after the commit of a header
numbered `n`, the read of an output header that `validate_output_header`
accepted, `db.finalize(n, id)` and `db.update_verified_block(n)`, and `hash` is
that output header's hash (lines 219-226).

Both are properties of a trace that hold of each block's calls on their own and
of the throughput log lines, and survive concatenation; `runloop_segments`
carries such a property to every run.

* `runloop_segments` — a property of traces closed under concatenation that
  holds of each block's calls and each `log_tps` line holds of every run.
* `runloop_executes_recovered` — no `execute_block` call with an unrecovered
  sender.
* `runloop_buffer_verified` — no `block_hash_buffer.set` before verification.
-/

namespace MonadFork

/-! ### Properties of segments -/

section Segments

variable {host : Host} {p : RunParams} (Q : List Event → Prop) (hnil : Q [])
  (happend : ∀ xs ys, Q xs → Q ys → Q (xs ++ ys))
  (hprocess : ∀ (st : LoopState) block, host.blockDbGet st.blockNum = some block →
    Q (st.process host p block).1)
  (hlog : ∀ blockNum nblocks ntxs gas, Q [.logTps blockNum nblocks ntxs gas])
include hnil happend hprocess hlog

theorem Reaches.segments {done : List (UInt64 × Block)} {st : LoopState}
    (h : Reaches host p done st) : Q st.trace := by
  induction h with
  | start => exact hnil
  | @next done st block events set _ hd ih =>
    have hev : Q events := by
      have := hprocess st block hd.2.1
      rwa [hd.2.2.2] at this
    rw [advance_eq]
    refine happend _ _ (happend _ _ ih hev) ?_
    unfold LoopState.batchLog
    split_ifs
    · exact hlog _ _ _ _
    · exact hnil

/-- **Segment properties hold of every run**: a property of traces that holds
of the empty trace, of the calls of each block and of each `log_tps` line, and
survives concatenation, holds of the trace of every run, whatever the block
that fails. -/
theorem runloop_segments (fuel : Nat) : Q (runloopMonadEthblocks host p fuel).trace := by
  rcases runloop_cases fuel with ⟨halt, -, hr⟩ |
      ⟨done, st, hreach, ⟨hr, -⟩ | ⟨-, hr⟩ | ⟨-, -, m, hr⟩ | ⟨block, events, halt, -, hb, hp, hr⟩⟩ <;>
    rw [hr]
  · rw [Run.trace_ofHalt]
    exact hnil
  · exact hreach.segments Q hnil happend hprocess hlog
  · unfold LoopState.exitTrace
    split_ifs
    · exact happend _ _ (hreach.segments Q hnil happend hprocess hlog) (hlog _ _ _ _)
    · exact hreach.segments Q hnil happend hprocess hlog
  · exact hreach.segments Q hnil happend hprocess hlog
  · rw [Run.trace_ofHalt]
    have hev := hprocess st block hb
    rw [hp] at hev
    exact happend _ _ (hreach.segments Q hnil happend hprocess hlog) hev

end Segments

/-! ### Recovered senders -/

/-- An `execute_block` call with the sender recovered from each transaction of
its block, the authorities recovered from them, and a monad body that
validated with those senders. -/
def ExecutesRecovered (host : Host) :
    Block × List Address × List (List (Option Address)) × MonadChainContext → Prop
  | (block, senders, authorities, _) =>
    senders.map some = recoverSenders host block.transactions ∧
      authorities = recoverAuthorities host block.transactions ∧
      host.staticValidateMonadBody (host.getMonadRevision block.header.timestamp) senders
        block.transactions = .ok ()

theorem LoopState.executesRecovered_process (host : Host) (p : RunParams) (st : LoopState)
    (block : Block) :
    ∀ x ∈ executeCalls (st.process host p block).1, ExecutesRecovered host x := by
  rcases st.executeCalls_process host p block with h | ⟨r, parentHash, hr, h⟩ <;> rw [h]
  · exact List.forall_mem_nil _
  · rintro x (_ | ⟨_, ⟨⟩⟩)
    obtain ⟨hsenders, hauthorities, -⟩ := recoverBlock_ok_spec hr
    exact ⟨hsenders, hauthorities, (recoverBlock_eq_ok.mp hr).2.2.2.1⟩

/-- **No execution with an unknown sender.** Every `execute_block` call of
every run gets, for each transaction of its block, the sender recovered from
it, with the authorities recovered from the block, after the monad body
validated with those senders. -/
theorem runloop_executes_recovered {host : Host} {p : RunParams} (fuel : Nat) :
    ∀ x ∈ executeCalls (runloopMonadEthblocks host p fuel).trace, ExecutesRecovered host x :=
  runloop_segments (fun trace => ∀ x ∈ executeCalls trace, ExecutesRecovered host x)
    (List.forall_mem_nil _)
    (fun xs ys hxs hys x hx => by
      rw [executeCalls_append] at hx
      exact (List.mem_append.mp hx).elim (hxs x) (hys x))
    (fun st block _ => st.executesRecovered_process host p block)
    (fun _ _ _ _ => List.forall_mem_nil _) fuel

/-- The third block of the busy run from height 3, which has senders and an
authority, is executed with what its transactions recover. -/
theorem busy_block_executes_recovered :
    2 < (executeCalls (runloopMonadEthblocks (busyHost fun _ => false)
        ⟨3, 5, fun _ => false, false⟩ 4).trace).length ∧
      ExecutesRecovered (busyHost fun _ => false)
        ((executeCalls (runloopMonadEthblocks (busyHost fun _ => false)
          ⟨3, 5, fun _ => false, false⟩ 4).trace).get ⟨2, by decide⟩) :=
  ⟨by decide, runloop_executes_recovered 4 _ (List.get_mem _ _ _)⟩

/-! ### The block-hash buffer -/

/-- **Verified before buffered**: every `block_hash_buffer.set(n, hash)` of the
trace comes right after the commit of a header numbered `n`, the read of an
output header `validate_output_header` accepted for it, `db.finalize(n, id)`
under the commit's id and `db.update_verified_block(n)`; `hash` is the output
header's hash. -/
def BufferVerified (host : Host) (trace : List Event) : Prop :=
  ∀ pre n hash post, trace = pre ++ .blockHashBufferSet n hash :: post →
    ∃ pre' blockId header receipts callFrames senders transactions ommers withdrawals outputHeader,
      pre = pre' ++ [.commit blockId header receipts callFrames senders transactions ommers
        withdrawals, .readEthHeader outputHeader, .finalize n blockId, .updateVerifiedBlock n] ∧
      header.number = n ∧ host.validateOutputHeader header outputHeader = .ok () ∧
      hash = host.headerHash outputHeader

/-- Whether a call sets an entry of the block-hash buffer. -/
def Event.setsBuffer : Event → Bool
  | .blockHashBufferSet .. => true
  | _ => false

section Buffer

variable {host : Host}

theorem BufferVerified.append {xs ys : List Event} (hxs : BufferVerified host xs)
    (hys : BufferVerified host ys) : BufferVerified host (xs ++ ys) := by
  intro pre n hash post h
  rcases List.append_eq_append_iff.mp h with ⟨a, rfl, hsplit⟩ | ⟨c, hsplit, hpost⟩
  · obtain ⟨pre', blockId, header, receipts, callFrames, senders, transactions, ommers, withdrawals,
      outputHeader, rfl, hrest⟩ := hys a n hash post hsplit
    exact ⟨xs ++ pre', blockId, header, receipts, callFrames, senders, transactions, ommers,
      withdrawals, outputHeader, by simp, hrest⟩
  · rcases c with _ | ⟨e, c⟩
    · -- a set first in `ys` would have nothing before it
      obtain ⟨_, _, _, _, _, _, _, _, _, _, h, -⟩ := hys [] n hash post (by simpa using hpost.symm)
      simp at h
    · obtain ⟨rfl, rfl⟩ := List.cons.inj hpost
      exact hxs pre n hash c hsplit

theorem BufferVerified.of_no_set {ys : List Event} (hys : ys.any Event.setsBuffer = false) :
    BufferVerified host ys := by
  intro pre n hash post h
  have := List.any_eq_false.mp hys _ (h ▸ List.mem_append_right pre (List.mem_cons_self _ _))
  simp [Event.setsBuffer] at this

/-- A verified block's last five calls. -/
theorem BufferVerified.committed {xs : List Event} (hxs : xs.any Event.setsBuffer = false)
    {blockId : Bytes32} {header outputHeader : BlockHeader} {receipts : List Receipt}
    {callFrames : List (List CallFrame)} {senders : List Address} {transactions : List Transaction}
    {ommers : List BlockHeader} {withdrawals : Option (List Withdrawal)}
    (hvalid : host.validateOutputHeader header outputHeader = .ok ()) :
    BufferVerified host (xs ++ [.commit blockId header receipts callFrames senders transactions ommers
      withdrawals, .readEthHeader outputHeader, .finalize header.number blockId,
      .updateVerifiedBlock header.number, .blockHashBufferSet header.number
        (host.headerHash outputHeader)]) := by
  intro pre n hash post h
  rcases List.append_eq_append_iff.mp h with ⟨a, rfl, hsplit⟩ | ⟨c, hsplit, hpost⟩
  · -- the set is one of the last five calls: the last
    rcases a with _ | ⟨x₁, _ | ⟨x₂, _ | ⟨x₃, _ | ⟨x₄, _ | ⟨x₅, a⟩⟩⟩⟩⟩ <;>
      simp only [List.nil_append, List.cons_append, List.cons.injEq, reduceCtorEq, false_and,
        and_false] at hsplit
    · obtain ⟨rfl, rfl, rfl, rfl, ⟨rfl, rfl⟩, rfl⟩ := hsplit
      exact ⟨xs, blockId, header, receipts, callFrames, senders, transactions, ommers, withdrawals,
        outputHeader, by simp, rfl, hvalid, rfl⟩
    · obtain ⟨-, -, -, -, -, h⟩ := hsplit
      simp at h
  · rcases c with _ | ⟨e, c⟩
    · simp at hpost
    · obtain ⟨rfl, rfl⟩ := List.cons.inj hpost
      have := List.any_eq_false.mp hxs _ (hsplit ▸ List.mem_append_right pre (List.mem_cons_self _ _))
      simp [Event.setsBuffer] at this

theorem LoopState.bufferVerified_process (p : RunParams) (st : LoopState) (block : Block) :
    BufferVerified host (st.process host p block).1 := by
  rcases h : st.process host p block with ⟨events, result⟩
  rcases processMonadBlock_cases h with ⟨_, _, rfl, -⟩ | ⟨r, -, ⟨e, hc, -⟩ | ⟨hc, -⟩⟩
  · exact BufferVerified.of_no_set rfl
  · rcases commitBlock_cases hc with ⟨_, -, rfl, -⟩ | ⟨_, _, -, ⟨_, -, rfl, -⟩ | ⟨h, -⟩⟩
    · exact BufferVerified.of_no_set rfl
    · exact BufferVerified.of_no_set rfl
    · cases h
  · rcases commitBlock_cases hc with ⟨_, h, -⟩ | ⟨_, _, -, ⟨_, h, -⟩ | ⟨-, rfl, hvalid⟩⟩
    · cases h
    · cases h
    · rw [List.append_assoc]
      exact BufferVerified.committed (by rfl) hvalid

end Buffer

/-- **Verified before buffered.** In every run, whatever block fails, every
`block_hash_buffer.set(n, hash)` comes right after the commit of a header
numbered `n`, the read of an output header `validate_output_header` accepted,
`db.finalize(n, id)` under the commit's id and `db.update_verified_block(n)`,
and buffers that output header's hash. -/
theorem runloop_buffer_verified {host : Host} {p : RunParams} (fuel : Nat) :
    BufferVerified host (runloopMonadEthblocks host p fuel).trace :=
  runloop_segments (BufferVerified host) (BufferVerified.of_no_set rfl)
    (fun _ _ => BufferVerified.append) (fun st block _ => st.bufferVerified_process p block)
    (fun _ _ _ _ => BufferVerified.of_no_set rfl) fuel

end MonadFork
