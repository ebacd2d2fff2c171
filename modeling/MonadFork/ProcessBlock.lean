import MonadFork.Recovery

/-!
`process_monad_block` (lines 84-269): one block, from validation to the hash
buffer.

The function falls in two halves at the point where it first touches the store.
`recoverBlock` (lines 101-136) validates the header and body, recovers the
senders and authorities, checks that every sender recovered and validates the
Monad body; it calls no collaborator with an effect, so every failure there
leaves the store as it was. `commitBlock` (lines 157-233) sets the store's
scope, rewrites the parent hash from the header the store returns, executes,
commits, checks the output header and finalizes. Each `BOOST_OUTCOME_TRY`
returns at once, so a failure leaves a prefix of the calls.

* `recoverBlock_eq_ok` — what a successful first half has checked and hands on.
* `commitBlock_cases` — the three ways the second half ends and the calls each
  one makes.
* `processMonadBlock_cases` — the same for the whole function.

The metrics log line, the commit timer and the call tracers' storage are not
modelled: the first two only log, and a `NoopCallTracer` leaves each call frame
list empty, which `commitBlock` writes out.
-/

namespace MonadFork

/-- What lines 101-136 hand on: the senders, the recovered authorities and the
block's address set. -/
structure Recovered where
  senders : List Address
  authorities : List (List (Option Address))
  sendersAndAuthorities : AddressSet

/-- `BOOST_OUTCOME_TRY` on a collaborator's `Result`. -/
def liftResult {α : Type} (result : Except Error α) : Except Halt α :=
  result.mapError Halt.error

/-- Lines 101-136: validation, recovery and the sender check. -/
def recoverBlock (host : Host) (rev : MonadRevision) (block : Block) : Except Halt Recovered := do
  liftResult (host.staticValidateHeader block.header)
  liftResult (host.staticValidateBlock rev block)
  let recoveredSenders := recoverSenders host block.transactions
  let recoveredAuthorities := recoverAuthorities host block.transactions
  let senders ← copySenders recoveredSenders
  let sendersAndAuthorities := collectSendersAndAuthorities senders recoveredAuthorities
  liftResult (host.staticValidateMonadBody rev senders block.transactions)
  pure ⟨senders, recoveredAuthorities, sendersAndAuthorities⟩

/-- Lines 157-163: the `MonadChainContext` the revert callback captures. -/
def chainContext (grandparent parent : Option AddressSet) (r : Recovered) : MonadChainContext :=
  ⟨grandparent, parent, r.sendersAndAuthorities, r.senders, r.authorities⟩

/-- The header `execute_block` and the commit see: the block's own, with the
parent hash taken from the header the store returned at the block's scope
(lines 168-169). -/
def rewriteParentHash (host : Host) (header scopeHeader : BlockHeader) : BlockHeader :=
  { header with parentHash := host.headerHash scopeHeader }

/-- Lines 165-233, given the calls made before: the calls the block makes and
its result. -/
def commitBlock (host : Host) (rev : MonadRevision) (history : List Event) (block : Block)
    (blockId parentBlockId : Bytes32) (enableTracing : Bool) (context : MonadChainContext) :
    List Event × Except Error Unit :=
  let scope := Event.setBlockAndPrefix (block.header.number - 1) parentBlockId
  let scopeHeader := host.readEthHeader (history ++ [scope])
  let header := rewriteParentHash host block.header scopeHeader
  let executed := { block with header }
  let begun := [scope, .readEthHeader scopeHeader,
    .executeBlock executed context.senders context.authorities context]
  match host.executeBlock rev (history ++ [scope, .readEthHeader scopeHeader]) executed
      context.senders context.authorities context with
  | .error e => (begun, .error e)
  | .ok (receipts, frames) =>
    let callFrames := if enableTracing then frames else List.replicate block.transactions.length []
    let commit := Event.commit blockId header receipts callFrames context.senders
      block.transactions block.ommers block.withdrawals
    let outputHeader := host.readEthHeader (history ++ begun ++ [commit])
    let committed := begun ++ [commit, .readEthHeader outputHeader]
    match host.validateOutputHeader header outputHeader with
    | .error e => (committed, .error e)
    | .ok () =>
      (committed ++ [.finalize header.number blockId, .updateVerifiedBlock header.number,
        .blockHashBufferSet header.number (host.headerHash outputHeader)], .ok ())

/-- `process_monad_block<traits>`: the calls it makes, and on success the
block's address set (`senders_and_authorities_out`). -/
def processMonadBlock (host : Host) (rev : MonadRevision) (history : List Event) (block : Block)
    (blockId parentBlockId : Bytes32) (enableTracing : Bool)
    (grandparent parent : Option AddressSet) : List Event × Except Halt AddressSet :=
  match recoverBlock host rev block with
  | .error halt => ([], .error halt)
  | .ok r =>
    match commitBlock host rev history block blockId parentBlockId enableTracing
        (chainContext grandparent parent r) with
    | (events, .error e) => (events, .error (.error e))
    | (events, .ok ()) => (events, .ok r.sendersAndAuthorities)

/-! ### What each half can do -/

section Cases

variable {host : Host} {rev : MonadRevision} {history : List Event} {block : Block}
  {blockId parentBlockId : Bytes32} {enableTracing : Bool}

@[simp] theorem liftResult_eq_ok {α : Type} {x : Except Error α} {a : α} :
    liftResult x = .ok a ↔ x = .ok a := by
  cases x <;> simp [liftResult, Except.mapError]

/-- **A successful first half** has passed the three validators and the sender
check, and hands on the senders, the authorities and the set they make. -/
theorem recoverBlock_eq_ok {r : Recovered} :
    recoverBlock host rev block = .ok r ↔
      host.staticValidateHeader block.header = .ok () ∧
      host.staticValidateBlock rev block = .ok () ∧
      copySenders (recoverSenders host block.transactions) = .ok r.senders ∧
      host.staticValidateMonadBody rev r.senders block.transactions = .ok () ∧
      r = ⟨r.senders, recoverAuthorities host block.transactions,
        collectSendersAndAuthorities r.senders (recoverAuthorities host block.transactions)⟩ := by
  simp only [recoverBlock, except_bind_eq_ok, liftResult_eq_ok, pure, Except.pure, Except.ok.injEq]
  constructor
  · rintro ⟨⟨⟩, h1, ⟨⟩, h2, senders, h3, ⟨⟩, h4, rfl⟩
    exact ⟨h1, h2, h3, h4, rfl⟩
  · rintro ⟨h1, h2, h3, h4, hr⟩
    exact ⟨(), h1, (), h2, _, h3, (), h4, hr.symm⟩

/-- The first half hands on every recovered sender, in order, and the block's
`AS`. -/
theorem recoverBlock_ok_spec {r : Recovered} (h : recoverBlock host rev block = .ok r) :
    r.senders.map some = recoverSenders host block.transactions ∧
      r.authorities = recoverAuthorities host block.transactions ∧
      r.sendersAndAuthorities = addressSetOf host block := by
  obtain ⟨-, -, hcopy, -, hr⟩ := recoverBlock_eq_ok.mp h
  have hsenders := (copySenders_eq_ok.mp hcopy).2
  rw [hr]
  exact ⟨hsenders, rfl, collectSendersAndAuthorities_eq_addressSetOf hsenders⟩

variable {context : MonadChainContext}

/-- **The three ends of the second half**: `execute_block` fails after the
scope change; `validate_output_header` rejects after the commit; or the block
is finalized and its hash buffered. -/
theorem commitBlock_cases {events : List Event} {result : Except Error Unit}
    (h : commitBlock host rev history block blockId parentBlockId enableTracing context =
      (events, result)) :
    let scope := Event.setBlockAndPrefix (block.header.number - 1) parentBlockId
    let scopeHeader := host.readEthHeader (history ++ [scope])
    let header := rewriteParentHash host block.header scopeHeader
    let begun := [scope, .readEthHeader scopeHeader,
      .executeBlock { block with header } context.senders context.authorities context]
    (∃ e, result = .error e ∧ events = begun ∧
      host.executeBlock rev (history ++ [scope, .readEthHeader scopeHeader]) { block with header }
        context.senders context.authorities context = .error e) ∨
    ∃ receipts callFrames,
      (∃ frames, host.executeBlock rev (history ++ [scope, .readEthHeader scopeHeader])
        { block with header } context.senders context.authorities context = .ok (receipts, frames)) ∧
      let commit := Event.commit blockId header receipts callFrames context.senders
        block.transactions block.ommers block.withdrawals
      let outputHeader := host.readEthHeader (history ++ begun ++ [commit])
      let committed := begun ++ [commit, .readEthHeader outputHeader]
      ((∃ e, result = .error e ∧ events = committed ∧
          host.validateOutputHeader header outputHeader = .error e) ∨
        (result = .ok () ∧ events = committed ++ [.finalize block.header.number blockId,
          .updateVerifiedBlock block.header.number,
          .blockHashBufferSet block.header.number (host.headerHash outputHeader)] ∧
          host.validateOutputHeader header outputHeader = .ok ())) := by
  dsimp only [commitBlock] at h ⊢
  revert h
  generalize host.executeBlock _ _ _ _ _ _ = exec
  rcases exec with e | ⟨receipts, frames⟩
  · intro h
    simp only [Prod.mk.injEq] at h
    exact .inl ⟨e, h.2.symm, h.1.symm, rfl⟩
  · intro h
    dsimp only at h
    revert h
    generalize hcheck : host.validateOutputHeader _ _ = check
    rcases check with e | ⟨⟩ <;> intro h <;> simp only [Prod.mk.injEq] at h
    · exact .inr ⟨receipts, _, ⟨frames, rfl⟩, .inl ⟨e, h.2.symm, h.1.symm, hcheck⟩⟩
    · exact .inr ⟨receipts, _, ⟨frames, rfl⟩, .inr ⟨h.2.symm, h.1.symm, hcheck⟩⟩

/-- Every way the second half ends goes through exactly one `execute_block`
call, with the context it was given. -/
theorem executeCalls_commitBlock {events : List Event} {result : Except Error Unit}
    (h : commitBlock host rev history block blockId parentBlockId enableTracing context =
      (events, result)) :
    executeCalls events =
      [({ block with header := rewriteParentHash host block.header (host.readEthHeader
            (history ++ [.setBlockAndPrefix (block.header.number - 1) parentBlockId])) },
        context.senders, context.authorities, context)] := by
  rcases commitBlock_cases h with ⟨e, -, rfl, -⟩ | ⟨_, _, -, ⟨e, -, rfl, -⟩ | ⟨-, rfl, -⟩⟩ <;>
    simp [executeCalls]

/-- The second half calls `db.finalize` once if it succeeds, and not at all
otherwise. -/
theorem finalizeCalls_commitBlock {events : List Event} {result : Except Error Unit}
    (h : commitBlock host rev history block blockId parentBlockId enableTracing context =
      (events, result)) :
    finalizeCalls events = if result.isOk then [block.header.number] else [] := by
  rcases commitBlock_cases h with ⟨e, rfl, rfl, -⟩ | ⟨_, _, -, ⟨e, rfl, rfl, -⟩ | ⟨rfl, rfl, -⟩⟩ <;>
    simp [finalizeCalls, Except.isOk, Except.toBool]

theorem logTpsCalls_commitBlock {events : List Event} {result : Except Error Unit}
    (h : commitBlock host rev history block blockId parentBlockId enableTracing context =
      (events, result)) :
    logTpsCalls events = [] := by
  rcases commitBlock_cases h with ⟨e, -, rfl, -⟩ | ⟨_, _, -, ⟨e, -, rfl, -⟩ | ⟨-, rfl, -⟩⟩ <;>
    simp [logTpsCalls]

variable {grandparent parent : Option AddressSet}

/-- **The ends of `process_monad_block`**: the first half fails and nothing
is called, or it hands on `r` and the second half ends as `commitBlock_cases`
says, with the block's address set as the result on success. -/
theorem processMonadBlock_cases {events : List Event} {result : Except Halt AddressSet}
    (h : processMonadBlock host rev history block blockId parentBlockId enableTracing
      grandparent parent = (events, result)) :
    (∃ halt, recoverBlock host rev block = .error halt ∧ events = [] ∧ result = .error halt) ∨
    ∃ r, recoverBlock host rev block = .ok r ∧
      ((∃ e, commitBlock host rev history block blockId parentBlockId enableTracing
          (chainContext grandparent parent r) = (events, .error e) ∧ result = .error (.error e)) ∨
        (commitBlock host rev history block blockId parentBlockId enableTracing
          (chainContext grandparent parent r) = (events, .ok ()) ∧
          result = .ok r.sendersAndAuthorities)) := by
  unfold processMonadBlock at h
  rcases hr : recoverBlock host rev block with halt | r <;> rw [hr] at h
  · simp only [Prod.mk.injEq] at h
    exact .inl ⟨halt, rfl, h.1.symm, h.2.symm⟩
  · refine .inr ⟨r, rfl, ?_⟩
    rcases hc : commitBlock host rev history block blockId parentBlockId enableTracing
      (chainContext grandparent parent r) with ⟨evs, e | ⟨⟩⟩ <;>
      simp only [hc, Prod.mk.injEq] at h <;> obtain ⟨rfl, rfl⟩ := h <;> simp

/-- An accepted block went through both halves. -/
theorem processMonadBlock_eq_ok {events : List Event} {set : AddressSet}
    (h : processMonadBlock host rev history block blockId parentBlockId enableTracing
      grandparent parent = (events, .ok set)) :
    ∃ r, recoverBlock host rev block = .ok r ∧
      commitBlock host rev history block blockId parentBlockId enableTracing
        (chainContext grandparent parent r) = (events, .ok ()) ∧
      set = r.sendersAndAuthorities := by
  rcases processMonadBlock_cases h with ⟨_, _, _, hres⟩ | ⟨r, hr, ⟨_, _, hres⟩ | ⟨hc, hres⟩⟩
  · cases hres
  · cases hres
  · exact ⟨r, hr, hc, Except.ok.inj hres⟩

/-- A rejected block neither finalizes nor logs throughput. -/
theorem processMonadBlock_error_calls {events : List Event} {halt : Halt}
    (h : processMonadBlock host rev history block blockId parentBlockId enableTracing
      grandparent parent = (events, .error halt)) :
    finalizeCalls events = [] ∧ logTpsCalls events = [] := by
  rcases processMonadBlock_cases h with ⟨_, _, rfl, -⟩ | ⟨r, -, ⟨e, hc, -⟩ | ⟨-, hres⟩⟩
  · exact ⟨rfl, rfl⟩
  · exact ⟨by simpa [Except.isOk, Except.toBool] using finalizeCalls_commitBlock hc,
      logTpsCalls_commitBlock hc⟩
  · cases hres

end Cases

end MonadFork
