import MonadFork.RunLoop

/-!
The block hash chain a run of `runloop_monad_ethblocks` builds.

Each block is committed with a parent hash the loop takes from the store: it
sets the store's scope to the parent's height and id and hashes the header the
store reads there (lines 168-169). Once verified, the block puts the hash of its
output header into the block-hash buffer (lines 223-226), and the loop commits
the next block on top of its id (lines 381, 422). So when the store reads back,
at a committed block's scope, the header it reported right after that commit
(`ReadsBackCommits`), the parent hash of every block a run commits after its
first is the hash the buffer holds for the height below: the committed headers
and the buffer form one hash chain.

* `HashChained` — the chain property of a trace.
* `commitBlock_hashChained` — one block keeps it, and leaves the store and the
  buffer holding its own header for the next.
* `runloop_hashChained` — every run over an archive numbered by height and a
  store that reads back its commits is hash-chained, whatever block fails.
-/

namespace MonadFork

/-- The header a call commits, if it is a commit. -/
def Event.commitHeader : Event → Option BlockHeader
  | .commit _ header .. => some header
  | _ => none

/-- The id a call commits under, if it is a commit. -/
def Event.commitId : Event → Option Bytes32
  | .commit blockId .. => some blockId
  | _ => none

/-- The hash the last `block_hash_buffer.set(n, ·)` of a trace wrote. -/
def bufferedHash (trace : List Event) (n : UInt64) : Option Bytes32 :=
  trace.reverse.findSome? fun
    | .blockHashBufferSet m hash => if m = n then some hash else none
    | _ => none

/-- The store reads back what it committed: with the scope set to a committed
block's number and id, and nothing committed under that id since,
`read_eth_header` returns the header it returned right after that commit. -/
def ReadsBackCommits (host : Host) : Prop :=
  ∀ (history : List Event) (blockId : Bytes32) (header : BlockHeader) (receipts : List Receipt)
    (callFrames : List (List CallFrame)) (senders : List Address) (transactions : List Transaction)
    (ommers : List BlockHeader) (withdrawals : Option (List Withdrawal)) (rest : List Event),
    (∀ e ∈ rest, e.commitId ≠ some blockId) →
    let commit := Event.commit blockId header receipts callFrames senders transactions ommers
      withdrawals
    host.readEthHeader (history ++ commit :: .readEthHeader (host.readEthHeader (history ++ [commit])) ::
        rest ++ [.setBlockAndPrefix header.number blockId]) =
      host.readEthHeader (history ++ [commit])

/-- **Hash-chained**: every commit of the trace after the first carries, as the
parent hash of its header, the hash the trace last put into the block-hash
buffer at the height below it. -/
def HashChained (trace : List Event) : Prop :=
  ∀ pre e post header, trace = pre ++ e :: post → e.commitHeader = some header →
    (∃ e' ∈ pre, e'.commitHeader.isSome) →
    bufferedHash pre (header.number - 1) = some header.parentHash

/-- The trace ends with a committed block: its commit under `blockId` of a
header numbered `number`, the read of the output header right after, and calls
that commit nothing more under `blockId`; and the buffer holds the output
header's hash at `number`. -/
def LastCommitted (host : Host) (trace : List Event) (number : UInt64) (blockId : Bytes32) :
    Prop :=
  ∃ history header receipts callFrames senders transactions ommers withdrawals rest,
    let commit := Event.commit blockId header receipts callFrames senders transactions ommers
      withdrawals
    let outputHeader := host.readEthHeader (history ++ [commit])
    trace = history ++ commit :: .readEthHeader outputHeader :: rest ∧ header.number = number ∧
      (∀ e ∈ rest, e.commitId ≠ some blockId) ∧
      bufferedHash trace number = some (host.headerHash outputHeader)

/-! ### Traces -/

theorem bufferedHash_append (xs ys : List Event) (n : UInt64) :
    bufferedHash (xs ++ ys) n = (bufferedHash ys n).or (bufferedHash xs n) := by
  simp [bufferedHash, List.findSome?_append]

/-- Calls none of which a field reader sees, checked by evaluation. -/
theorem forall_eq_none_of_all {α : Type} {f : Event → Option α} {ys : List Event}
    (h : ys.all (fun e => (f e).isNone) = true) : ∀ e ∈ ys, f e = none :=
  fun e he => Option.isNone_iff_eq_none.mp (List.all_eq_true.mp h e he)

theorem hashChained_nil : HashChained [] := by
  intro pre e post header h
  simp at h

section Chain

variable {xs ys : List Event}

/-- A trace stays hash-chained when each commit appended carries the hash the
buffer holds, at that point, for the height below. -/
theorem HashChained.append (hxs : HashChained xs)
    (hys : ∀ a e b header, ys = a ++ e :: b → e.commitHeader = some header →
      (∃ e' ∈ xs ++ a, e'.commitHeader.isSome) →
      bufferedHash (xs ++ a) (header.number - 1) = some header.parentHash) :
    HashChained (xs ++ ys) := by
  intro pre e post header h he hpre
  rcases List.append_eq_append_iff.mp h with ⟨a, rfl, hsplit⟩ | ⟨c, hsplit, hpost⟩
  · exact hys a e post header hsplit he hpre
  · rcases c with _ | ⟨e', c⟩
    · rw [List.append_nil] at hsplit
      subst hsplit
      simpa using hys [] e post header hpost.symm he (by simpa using hpre)
    · obtain ⟨rfl, rfl⟩ := List.cons.inj hpost
      exact hxs pre e c header hsplit he hpre

theorem HashChained.append_of_no_commit (hxs : HashChained xs)
    (hys : ∀ e ∈ ys, e.commitHeader = none) : HashChained (xs ++ ys) :=
  hxs.append fun a e b header hsplit he _ => by
    rw [hys e (hsplit ▸ List.mem_append_right a (List.mem_cons_self e b))] at he
    cases he

theorem HashChained.concat {c : Event} (hxs : HashChained xs)
    (hc : ∀ header, c.commitHeader = some header → (∃ e' ∈ xs, e'.commitHeader.isSome) →
      bufferedHash xs (header.number - 1) = some header.parentHash) :
    HashChained (xs ++ [c]) :=
  hxs.append fun a e b header hsplit he hpre => by
    rcases a with _ | ⟨x, a⟩
    · obtain ⟨rfl, -⟩ := List.cons.inj hsplit
      simpa using hc header he (by simpa using hpre)
    · simp at hsplit

end Chain

/-- Calls that neither commit nor touch the buffer leave the last committed
block as it was. -/
theorem LastCommitted.append {host : Host} {trace ys : List Event} {number : UInt64}
    {blockId : Bytes32} (h : LastCommitted host trace number blockId)
    (hcommit : ∀ e ∈ ys, e.commitId = none) (hbuf : bufferedHash ys number = none) :
    LastCommitted host (trace ++ ys) number blockId := by
  obtain ⟨history, header, receipts, callFrames, senders, transactions, ommers, withdrawals, rest,
    rfl, hnum, hrest, hbuffered⟩ := h
  refine ⟨history, header, receipts, callFrames, senders, transactions, ommers, withdrawals,
    rest ++ ys, by simp, hnum, ?_, by rw [bufferedHash_append, hbuf, Option.none_or, hbuffered]⟩
  intro e he
  rcases List.mem_append.mp he with he | he
  · exact hrest e he
  · rw [hcommit e he]; exact nofun

/-- **The scope read**: at the last committed block's scope, a store that
reads back its commits returns the header whose hash the buffer holds. -/
theorem LastCommitted.scopeRead {host : Host} {trace : List Event} {number : UInt64}
    {blockId : Bytes32} (hstore : ReadsBackCommits host) (h : LastCommitted host trace number blockId) :
    bufferedHash trace number =
      some (host.headerHash (host.readEthHeader (trace ++ [.setBlockAndPrefix number blockId]))) := by
  obtain ⟨history, header, receipts, callFrames, senders, transactions, ommers, withdrawals, rest,
    rfl, rfl, hrest, hbuffered⟩ := h
  rw [hbuffered]
  exact congrArg (fun header => some (host.headerHash header))
    (hstore history blockId header receipts callFrames senders transactions ommers withdrawals rest
      hrest).symm

/-- Calls whose one commit, after calls that neither commit nor touch the
buffer, carries the hash the buffer holds for the height below keep the
chain. -/
theorem HashChained.append_commit {xs u v : List Event} {blockId : Bytes32}
    {header : BlockHeader} {receipts : List Receipt} {callFrames : List (List CallFrame)}
    {senders : List Address} {transactions : List Transaction} {ommers : List BlockHeader}
    {withdrawals : Option (List Withdrawal)} (hxs : HashChained xs)
    (hu : ∀ e ∈ u, e.commitHeader = none) (hbuf : ∀ n, bufferedHash u n = none)
    (hv : ∀ e ∈ v, e.commitHeader = none)
    (hc : (∃ e ∈ xs, e.commitHeader.isSome) →
      bufferedHash xs (header.number - 1) = some header.parentHash) :
    HashChained (xs ++ (u ++ .commit blockId header receipts callFrames senders transactions ommers
      withdrawals :: v)) := by
  have hcu : HashChained (xs ++ u ++ [.commit blockId header receipts callFrames senders
      transactions ommers withdrawals]) :=
    (hxs.append_of_no_commit hu).concat fun header' hh ⟨e, he, hsome⟩ => by
      cases hh
      rw [bufferedHash_append, hbuf, Option.none_or]
      rcases List.mem_append.mp he with he | he
      · exact hc ⟨e, he, hsome⟩
      · rw [hu e he] at hsome
        cases hsome
  simpa using hcu.append_of_no_commit hv

/-- A commit and the read of the output header right after it, then calls
that commit nothing more under its id and end with the buffer holding that
header's hash, leave it the last committed block. -/
theorem lastCommitted_of_commit {host : Host} {xs u v : List Event} {blockId : Bytes32}
    {header : BlockHeader} {receipts : List Receipt} {callFrames : List (List CallFrame)}
    {senders : List Address} {transactions : List Transaction} {ommers : List BlockHeader}
    {withdrawals : Option (List Withdrawal)}
    (hv : ∀ e ∈ v, e.commitId = none)
    (hbuf : bufferedHash v header.number = some (host.headerHash (host.readEthHeader (xs ++ u ++
      [.commit blockId header receipts callFrames senders transactions ommers withdrawals])))) :
    LastCommitted host (xs ++ (u ++ [.commit blockId header receipts callFrames senders
      transactions ommers withdrawals, .readEthHeader (host.readEthHeader (xs ++ u ++
        [.commit blockId header receipts callFrames senders transactions ommers withdrawals]))] ++
      v)) header.number blockId :=
  ⟨xs ++ u, header, receipts, callFrames, senders, transactions, ommers, withdrawals, v, by simp,
    rfl, fun e he => by rw [hv e he]; exact nofun,
    by rw [← List.append_assoc, bufferedHash_append, hbuf]; rfl⟩

/-! ### One block -/

section Block

variable {host : Host} {rev : MonadRevision} {history : List Event} {block : Block}
  {parentBlockId : Bytes32} {enableTracing : Bool} {context : MonadChainContext}
  {events : List Event} {result : Except Error Unit}

/-- **One block keeps the chain.** From a hash-chained history that has
committed nothing, or whose last committed block is the parent (its number,
and the id the block is put on top of), the second half of a block leaves a
hash-chained trace; on success its own commit is then the last committed
block. -/
theorem commitBlock_hashChained (hstore : ReadsBackCommits host) (hchain : HashChained history)
    (hlast : (∀ e ∈ history, e.commitHeader = none) ∨
      LastCommitted host history (block.header.number - 1) parentBlockId)
    (h : commitBlock host rev history block (bytes32Of block.header.number) parentBlockId
      enableTracing context = (events, result)) :
    HashChained (history ++ events) ∧
      (result = .ok () → LastCommitted host (history ++ events) block.header.number
        (bytes32Of block.header.number)) := by
  -- the parent hash the commit will carry is the one the buffer holds for the parent
  have hparent : (∃ e ∈ history, e.commitHeader.isSome) →
      bufferedHash history (block.header.number - 1) = some (host.headerHash (host.readEthHeader
        (history ++ [.setBlockAndPrefix (block.header.number - 1) parentBlockId]))) := by
    rintro ⟨e, he, hsome⟩
    rcases hlast with hnone | hl
    · rw [hnone e he] at hsome
      cases hsome
    · exact hl.scopeRead hstore
  rcases commitBlock_cases h with ⟨e, rfl, rfl, -⟩ |
      ⟨receipts, callFrames, -, ⟨e, rfl, rfl, -⟩ | ⟨rfl, rfl, -⟩⟩
  · exact ⟨hchain.append_of_no_commit (forall_eq_none_of_all rfl), nofun⟩
  · exact ⟨hchain.append_commit (forall_eq_none_of_all rfl) (fun _ => rfl)
      (forall_eq_none_of_all rfl) hparent, nofun⟩
  · refine ⟨?_, fun _ => lastCommitted_of_commit (forall_eq_none_of_all rfl)
      (by simp [bufferedHash, rewriteParentHash])⟩
    rw [List.append_assoc _ [_, _]]
    exact hchain.append_commit (forall_eq_none_of_all rfl) (fun _ => rfl)
      (forall_eq_none_of_all rfl) hparent

end Block

/-! ### A whole run -/

section Runs

variable {host : Host} {p : RunParams}
  (hnum : ∀ n b, host.blockDbGet n = some b → b.header.number = n)
  (hstore : ReadsBackCommits host)
include hnum hstore

/-- **The chain over a run**: every reached state's trace is hash-chained, and
it has committed nothing yet or its last committed block is the one below the
height it tests, under the id the loop holds. -/
theorem Reaches.hashChained {done : List (UInt64 × Block)} {st : LoopState}
    (h : Reaches host p done st) :
    HashChained st.trace ∧ ((∀ e ∈ st.trace, e.commitHeader = none) ∨
      LastCommitted host st.trace (st.blockNum - 1) st.parentBlockId) := by
  induction h with
  | start => exact ⟨hashChained_nil, .inl (by simp [LoopState.initial])⟩
  | @next done st block events set _ hd ih =>
    obtain ⟨r, -, hc, -⟩ := processMonadBlock_eq_ok hd.2.2.2
    have hn : block.header.number = st.blockNum := hnum _ _ hd.2.1
    obtain ⟨hchain, hlast⟩ := commitBlock_hashChained hstore ih.1 (by rw [hn]; exact ih.2) hc
    -- the batch log is at most one throughput line
    have hlog {α : Type} {f : Event → Option α} (hf : ∀ n k txs gas, f (.logTps n k txs gas) = none) :
        ∀ e ∈ st.batchLog (batchSize p.endBlockNum) block, f e = none := by
      unfold LoopState.batchLog; split_ifs <;> simp [hf]
    rw [advance_eq]
    refine ⟨hchain.append_of_no_commit (hlog fun _ _ _ _ => rfl), .inr ?_⟩
    rw [add_sub_cancel_right, ← hn]
    exact (hlast rfl).append (hlog fun _ _ _ _ => rfl)
      (by unfold LoopState.batchLog; split_ifs <;> rfl)

/-- **The block hash chain.** Over an archive whose block k has number k and a
store that reads back its commits, every commit a run makes after its first,
that of a block whose output header is then rejected included, carries as
parent hash the hash the run last put into the block-hash buffer for the
height below. -/
theorem runloop_hashChained (fuel : Nat) :
    HashChained (runloopMonadEthblocks host p fuel).trace := by
  rcases runloop_cases fuel with ⟨halt, -, hr⟩ |
      ⟨done, st, hreach, ⟨hr, -⟩ | ⟨-, hr⟩ | ⟨-, -, m, hr⟩ | ⟨block, events, halt, -, hb, hp, hr⟩⟩ <;>
    rw [hr]
  · rw [Run.trace_ofHalt]
    exact hashChained_nil
  · exact (hreach.hashChained hnum hstore).1
  · unfold LoopState.exitTrace
    split_ifs
    · exact (hreach.hashChained hnum hstore).1.append_of_no_commit (forall_eq_none_of_all rfl)
    · exact (hreach.hashChained hnum hstore).1
  · exact (hreach.hashChained hnum hstore).1
  · obtain ⟨hchain, hlast⟩ := hreach.hashChained hnum hstore
    rw [Run.trace_ofHalt]
    rcases processMonadBlock_cases hp with ⟨_, _, rfl, -⟩ | ⟨r, -, ⟨e, hc, -⟩ | ⟨-, hres⟩⟩
    · simpa using hchain
    · exact (commitBlock_hashChained hstore hchain (by rw [hnum _ _ hb]; exact hlast) hc).1
    · cases hres

end Runs

/-! ### A store that keeps its commits -/

theorem Event.commitUnder_eq_none {e : Event} {blockId : Bytes32} (h : e.commitId ≠ some blockId) :
    e.commitUnder blockId = none := by
  cases e with
  | commit id _ _ _ _ _ _ _ => exact if_neg fun hid => h (congrArg some hid)
  | _ => rfl

/-- The busy store reads back its commits: at a committed block's scope it
returns the header committed there. -/
theorem busyHost_readsBack (executeFails : UInt64 → Bool) : ReadsBackCommits (busyHost executeFails) := by
  intro history blockId header receipts callFrames senders transactions ommers withdrawals rest hrest
  have hskip : rest.reverse.findSome? (Event.commitUnder blockId) = none :=
    List.findSome?_eq_none_iff.mpr fun e he => Event.commitUnder_eq_none (hrest e (List.mem_reverse.mp he))
  show keptHeader (_ ++ [_]) = keptHeader _
  rw [keptHeader_concat_scope, keptHeader_concat_commit]
  simp [committedUnder, List.findSome?_append, hskip, Event.commitUnder]

/-- From height 3 to 5 over the busy archive and its store, the run is
hash-chained, and blocks 3 and 4 buffer different hashes. -/
theorem busy_blocks_hashChained :
    HashChained (runloopMonadEthblocks (busyHost fun _ => false) ⟨3, 5, fun _ => false, false⟩ 4).trace ∧
      bufferedHash (runloopMonadEthblocks (busyHost fun _ => false)
          ⟨3, 5, fun _ => false, false⟩ 4).trace 3 ≠
        bufferedHash (runloopMonadEthblocks (busyHost fun _ => false)
          ⟨3, 5, fun _ => false, false⟩ 4).trace 4 :=
  ⟨@runloop_hashChained (busyHost fun _ => false) ⟨3, 5, fun _ => false, false⟩
    (fun _ _ h => by cases h; rfl) (busyHost_readsBack _) 4, by decide⟩

end MonadFork
