import Mathlib.Data.Finset.Basic
import Mathlib.Data.UInt

/-!
The data that `runloop_monad_ethblocks.cpp` moves between its collaborators.

Words keep the widths the source gives them: heights, counters and gas are
`UInt64` (so `++block_num` and `number - 1` wrap as `uint64_t` does), an
`Address` is 20 bytes and a `bytes32_t` is 32. Transactions, receipts, call
frames and withdrawals are opaque to the loop: it only hands them from one
collaborator to the next, so each is its encoding. A header keeps the fields the
loop reads.

The loop's observable behaviour is the list of calls it makes to the state
store, the block-hash buffer, the execution engine and the throughput log, in
order: an `Event` each. A store read is recorded with the header it returned.
-/

namespace MonadFork

/-- An account address: 20 bytes. -/
abbrev Address := BitVec 160

/-- A 32-byte word (`bytes32_t`). -/
abbrev Bytes32 := BitVec 256

/-- `bytes32_t{n}` for a `uint64_t` n: the value in the low bytes of the word.
`bytes32_t{}` is `bytes32Of 0`. -/
def bytes32Of (n : UInt64) : Bytes32 := BitVec.ofNat 256 n.toNat

/-- `std::numeric_limits<uint64_t>::max()`. -/
def maxUInt64 : UInt64 := 0xFFFFFFFFFFFFFFFF

/-! `uint64_t` arithmetic, read through `toNat`. The core library states these
for `BitVec` only; here they are in the `UInt64` spelling the model uses. -/

theorem u64_toNat_add (a b : UInt64) : (a + b).toNat = (a.toNat + b.toNat) % 2 ^ 64 :=
  BitVec.toNat_add _ _

@[simp] theorem u64_toNat_toUInt64 (n : Nat) : n.toUInt64.toNat = n % 2 ^ 64 :=
  BitVec.toNat_ofNat _ _

/-- A `Result` chain succeeds exactly when each step does. -/
theorem except_bind_eq_ok {ε α β : Type} {x : Except ε α} {f : α → Except ε β} {b : β} :
    x >>= f = .ok b ↔ ∃ a, x = .ok a ∧ f a = .ok b := by
  cases x <;> simp [bind, Except.bind]

/-- The value of the `monad_revision` enum a timestamp falls in. -/
abbrev MonadRevision := Nat

/-- A signed transaction, opaque here: its encoding. -/
structure Transaction where
  encoding : List UInt8
deriving DecidableEq, Repr

/-- A transaction receipt, as `execute_block` returns it. -/
structure Receipt where
  encoding : List UInt8
deriving DecidableEq, Repr

/-- One call frame a `CallTracer` records. -/
structure CallFrame where
  encoding : List UInt8
deriving DecidableEq, Repr

/-- A withdrawal of the block body. -/
structure Withdrawal where
  encoding : List UInt8
deriving DecidableEq, Repr

/-- The header fields the loop reads or rewrites. -/
structure BlockHeader where
  parentHash : Bytes32
  number : UInt64
  gasUsed : UInt64
  timestamp : UInt64
  baseFeePerGas : Option Nat
deriving DecidableEq, Repr

/-- A block as the block archive stores it. -/
structure Block where
  header : BlockHeader
  transactions : List Transaction
  ommers : List BlockHeader
  withdrawals : Option (List Withdrawal)
deriving DecidableEq, Repr

/-- `ankerl::unordered_dense::segmented_set<Address>`: insertion order does not
matter, only membership. -/
abbrev AddressSet := Finset Address

/-- `MonadChainContext`: what the revert callback sees of the window. A null
pointer is `none`. -/
structure MonadChainContext where
  grandparentSendersAndAuthorities : Option AddressSet
  parentSendersAndAuthorities : Option AddressSet
  sendersAndAuthorities : AddressSet
  senders : List Address
  authorities : List (List (Option Address))
deriving DecidableEq

/-- The error of a `Result`: `TransactionError::MissingSender`, or the error
code a collaborator (a validator, `execute_block`) returned. -/
inductive Error where
  | missingSender
  | code (value : Nat)
deriving DecidableEq, Repr

/-- Why a block, or the start of a run, ends early: a `Result` error handed to
the caller, a `MONAD_ASSERT_PRINTF`/`MONAD_ABORT_PRINTF` with its message, or a
copy loop whose `unsigned` counter wraps and never reaches the end. -/
inductive Halt where
  | error (e : Error)
  | abort (message : String)
  | hang
deriving DecidableEq, Repr

/-- One call of the run loop to a collaborator. -/
inductive Event where
  /-- `db.set_block_and_prefix(number, parent_block_id)` -/
  | setBlockAndPrefix (blockNumber : UInt64) (blockId : Bytes32)
  /-- `db.read_eth_header()` and the header it returned -/
  | readEthHeader (header : BlockHeader)
  /-- `execute_block(chain, block, senders, authorities, ...)` with the context
  its revert callback captures -/
  | executeBlock (block : Block) (senders : List Address)
      (authorities : List (List (Option Address))) (context : MonadChainContext)
  /-- `block_state.commit(block_id, header, receipts, call_frames, senders,
  transactions, ommers, withdrawals)` -/
  | commit (blockId : Bytes32) (header : BlockHeader) (receipts : List Receipt)
      (callFrames : List (List CallFrame)) (senders : List Address)
      (transactions : List Transaction) (ommers : List BlockHeader)
      (withdrawals : Option (List Withdrawal))
  /-- `db.finalize(number, block_id)` -/
  | finalize (blockNumber : UInt64) (blockId : Bytes32)
  /-- `db.update_verified_block(number)` -/
  | updateVerifiedBlock (blockNumber : UInt64)
  /-- `block_hash_buffer.set(number, hash)` -/
  | blockHashBufferSet (blockNumber : UInt64) (hash : Bytes32)
  /-- `log_tps(block_num, nblocks, ntxs, gas, begin)`, less the clock -/
  | logTps (blockNum nblocks ntxs gas : UInt64)
deriving DecidableEq

/-- Calls to the state store or the block-hash buffer: everything but the
execution engine and the throughput log. -/
def Event.isStoreCall : Event → Bool
  | .executeBlock .. => false
  | .logTps .. => false
  | _ => true

/-- The arguments of the `execute_block` calls of a trace, in order. -/
def executeCalls (trace : List Event) :
    List (Block × List Address × List (List (Option Address)) × MonadChainContext) :=
  trace.filterMap fun
    | .executeBlock block senders authorities context =>
        some (block, senders, authorities, context)
    | _ => none

/-- The `log_tps` calls of a trace, as (block_num, nblocks, ntxs, gas). -/
def logTpsCalls (trace : List Event) : List (UInt64 × UInt64 × UInt64 × UInt64) :=
  trace.filterMap fun
    | .logTps blockNum nblocks ntxs gas => some (blockNum, nblocks, ntxs, gas)
    | _ => none

/-- The heights of the `db.finalize` calls of a trace, in order. -/
def finalizeCalls (trace : List Event) : List UInt64 :=
  trace.filterMap fun
    | .finalize blockNumber _ => some blockNumber
    | _ => none

/-! ### Collaborators -/

/-- The collaborators of the loop: the block archive, signature recovery, the
chain's rules, the execution engine, the state store and hashing. The store and
the engine answer as functions of the calls made before (`List Event`), which
covers every deterministic store. -/
structure Host where
  /-- `block_db.get(n, block)`; `none` where it fails -/
  blockDbGet : UInt64 → Option Block
  /-- one entry of `recover_senders` -/
  recoverSender : Transaction → Option Address
  /-- one entry of `recover_authorities` -/
  recoverAuthorities : Transaction → List (Option Address)
  /-- `chain.get_monad_revision(timestamp)` -/
  getMonadRevision : UInt64 → MonadRevision
  /-- whether `SWITCH_MONAD_TRAITS` has a case for the revision -/
  switchMonadTraits : MonadRevision → Bool
  /-- `chain.static_validate_header(header)` -/
  staticValidateHeader : BlockHeader → Except Error Unit
  /-- `static_validate_block<traits>(block)` -/
  staticValidateBlock : MonadRevision → Block → Except Error Unit
  /-- `static_validate_monad_body<traits>(senders, transactions)` -/
  staticValidateMonadBody : MonadRevision → List Address → List Transaction → Except Error Unit
  /-- `execute_block<traits>`: the receipts, and the frames a `CallTracer` would
  record; the revert callback it runs reads the block and the context -/
  executeBlock : MonadRevision → List Event → Block → List Address →
    List (List (Option Address)) → MonadChainContext →
    Except Error (List Receipt × List (List CallFrame))
  /-- `validate_output_header(header, output_header)` -/
  validateOutputHeader : BlockHeader → BlockHeader → Except Error Unit
  /-- `db.read_eth_header()` after the given calls -/
  readEthHeader : List Event → BlockHeader
  /-- `rlp::encode_block_header` -/
  encodeBlockHeader : BlockHeader → List UInt8
  /-- `keccak256`, with `to_bytes` -/
  keccak256 : List UInt8 → Bytes32

/-- `to_bytes(keccak256(rlp::encode_block_header(header)))`. -/
def Host.headerHash (host : Host) (header : BlockHeader) : Bytes32 :=
  host.keccak256 (host.encodeBlockHeader header)

end MonadFork
