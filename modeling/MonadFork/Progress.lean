import MonadFork.Watermark

/-!
When a run of `runloop_monad_ethblocks` succeeds.

The other modules say what a run that returns has done; this one says when it
returns successfully. If the archive holds every block from the start height to
the end and the collaborators accept each of them, whatever the store holds and
whatever window it is run with, a run with an end below 2^64-1 and no stop
returns successfully after end - s + 2 loop tests, at end+1, having finalized
every height in between. So the loop adds no failure of its own: every abort,
halt or error a run can end with comes from a missing block, an unhandled
revision, a collaborator, or a copy loop over 2^32 transactions or more.

* `processMonadBlock_of_accepts` — an accepted block is processed successfully
  after any calls, with any ids and any window.
* `runloop_returns_ok` — a run over accepted blocks returns successfully, at
  end+1, having finalized each height once.
-/

namespace MonadFork

/-- The collaborators accept `block` whatever the store holds and whatever
window it is run with: its revision has a case, it passes the three static
validators, it has fewer than 2^32 transactions, each with a recoverable
sender, it executes with any parent hash, and its output header validates. -/
structure Accepts (host : Host) (block : Block) : Prop where
  revision : host.switchMonadTraits (host.getMonadRevision block.header.timestamp) = true
  header : host.staticValidateHeader block.header = .ok ()
  body : host.staticValidateBlock (host.getMonadRevision block.header.timestamp) block = .ok ()
  size : block.transactions.length < UInt32.size
  recovers : AllSendersRecover host block
  monadBody : host.staticValidateMonadBody (host.getMonadRevision block.header.timestamp)
    (recoverSenders host block.transactions).reduceOption block.transactions = .ok ()
  execute : ∀ history parentHash (context : MonadChainContext), ∃ out,
    host.executeBlock (host.getMonadRevision block.header.timestamp) history
      { block with header := { block.header with parentHash } } context.senders
      context.authorities context = .ok out
  output : ∀ parentHash outputHeader,
    host.validateOutputHeader { block.header with parentHash } outputHeader = .ok ()

section Accepted

variable {host : Host} {block : Block}

/-- The first half of an accepted block hands on its recovered senders. -/
theorem Accepts.recoverBlock (h : Accepts host block) :
    recoverBlock host (host.getMonadRevision block.header.timestamp) block =
      .ok ⟨(recoverSenders host block.transactions).reduceOption,
        recoverAuthorities host block.transactions,
        collectSendersAndAuthorities (recoverSenders host block.transactions).reduceOption
          (recoverAuthorities host block.transactions)⟩ :=
  recoverBlock_eq_ok.mpr ⟨h.header, h.body,
    copySenders_eq_ok.mpr ⟨by simpa [recoverSenders] using h.size,
      map_some_reduceOption (allSendersRecover_iff.mp h.recovers)⟩, h.monadBody, rfl⟩

/-- **An accepted block is processed successfully**, from any history, with
any ids and any window, and hands on its own address set. -/
theorem processMonadBlock_of_accepts (h : Accepts host block) (history : List Event)
    (blockId parentBlockId : Bytes32) (enableTracing : Bool)
    (grandparent parent : Option AddressSet) :
    ∃ events, processMonadBlock host (host.getMonadRevision block.header.timestamp) history block
      blockId parentBlockId enableTracing grandparent parent =
        (events, .ok (addressSetOf host block)) := by
  have hrec := h.recoverBlock
  have hset := (recoverBlock_ok_spec hrec).2.2
  rw [processMonadBlock, hrec]
  dsimp only at hset ⊢
  rw [← hset]
  rcases hc : commitBlock host _ history block blockId parentBlockId enableTracing _ with
    ⟨events, e | ⟨⟩⟩
  · exfalso
    rcases commitBlock_cases hc with ⟨e, -, -, he⟩ | ⟨_, _, -, ⟨e, -, -, he⟩ | ⟨he, -, -⟩⟩
    · obtain ⟨out, hout⟩ := h.execute _ _ _
      rw [rewriteParentHash, hout] at he
      cases he
    · rw [rewriteParentHash, h.output] at he
      cases he
    · cases he
  · exact ⟨events, rfl⟩

end Accepted

/-! ### Seeding -/

section Seeding

variable {host : Host}

/-- Seeding from a present block with fewer than 2^32 transactions succeeds. -/
theorem seedAddressSet_isOk {n : UInt64} {block : Block}
    (hb : host.blockDbGet n = some block) (hsize : block.transactions.length < UInt32.size) :
    ∃ set, ∀ role, seedAddressSet host n role = .ok set := by
  have hcopy : copySendersOrDefault (recoverSenders host block.transactions) =
      .ok ((recoverSenders host block.transactions).map fun r => r.getD 0) := by
    simp [copySendersOrDefault, recoverSenders, hsize]
  exact ⟨_, fun _ => by rw [seedAddressSet, hb]; simp only [hcopy]; rfl⟩

/-- Seeding succeeds when blocks H-1 and H-2, where it reads them, are present
with fewer than 2^32 transactions each. -/
theorem seedWindow_isOk {s : UInt64}
    (h1 : 1 < s → ∃ b, host.blockDbGet (s - 1) = some b ∧ b.transactions.length < UInt32.size)
    (h2 : 2 < s → ∃ b, host.blockDbGet (s - 2) = some b ∧ b.transactions.length < UInt32.size) :
    ∃ parent grandparent, seedWindow host s = .ok (parent, grandparent) := by
  unfold seedWindow
  by_cases hp : 1 < s
  · obtain ⟨parent, hpar⟩ := (h1 hp).elim fun _ hb => seedAddressSet_isOk hb.1 hb.2
    by_cases hg : 2 < s
    · obtain ⟨grandparent, hgp⟩ := (h2 hg).elim fun _ hb => seedAddressSet_isOk hb.1 hb.2
      exact ⟨some parent, some grandparent,
        by simp [hp, hg, hpar, hgp, bind, Except.bind, pure, Except.pure]⟩
    · exact ⟨some parent, none, by simp [hp, hg, hpar, bind, Except.bind, pure, Except.pure]⟩
  · exact ⟨none, none, by simp [hp, pure, Except.pure]⟩

end Seeding

/-! ### The run -/

section Run

variable {host : Host} {p : RunParams} (hend : p.endBlockNum ≠ maxUInt64)
  (haccept : ∀ n, p.finalizedBlockNum ≤ n → n ≤ p.endBlockNum →
    ∃ block, host.blockDbGet n = some block ∧ Accepts host block)
include hend haccept

/-- The block a reached state tests, while the loop goes on, is present and
accepted. -/
theorem Reaches.accepted {done : List (UInt64 × Block)} {st : LoopState}
    (h : Reaches host p done st) (hc : st.continues p) :
    ∃ block, host.blockDbGet st.blockNum = some block ∧ Accepts host block := by
  refine haccept _ ?_ hc.1
  show p.finalizedBlockNum.toNat ≤ st.blockNum.toNat
  rw [h.blockNum_toNat hend]
  omega

/-- **A run over accepted blocks succeeds.** With an end below 2^64-1, `stop`
never set, blocks H-1 and H-2 present for seeding with fewer than 2^32
transactions, and every block from the start height to the end present and
accepted, the run has returned successfully once it has made end - s + 2 loop
tests: at end+1 (at s if it starts past the end), having finalized each height
in between once. -/
theorem runloop_returns_ok (hstop : ∀ k, p.stop k = false)
    (h1 : 1 < p.finalizedBlockNum → ∃ b, host.blockDbGet (p.finalizedBlockNum - 1) = some b ∧
      b.transactions.length < UInt32.size)
    (h2 : 2 < p.finalizedBlockNum → ∃ b, host.blockDbGet (p.finalizedBlockNum - 2) = some b ∧
      b.transactions.length < UInt32.size)
    {fuel : Nat} (hfuel : p.endBlockNum.toNat + 1 - p.finalizedBlockNum.toNat < fuel) :
    ∃ ntxs gas trace, runloopMonadEthblocks host p fuel =
        .returned (if p.finalizedBlockNum ≤ p.endBlockNum then p.endBlockNum + 1
          else p.finalizedBlockNum) (.ok (ntxs, gas)) trace ∧
      (finalizeCalls trace).length = p.endBlockNum.toNat + 1 - p.finalizedBlockNum.toNat := by
  obtain ⟨parent, grandparent, hs⟩ := seedWindow_isOk h1 h2
  have hne : p.endBlockNum.toNat ≠ 2 ^ 64 - 1 := fun h => hend (UInt64.toNat.inj h)
  have hlt : p.endBlockNum.toNat < 2 ^ 64 := UInt64.toNat_lt_size _
  rcases runloop_cases fuel with ⟨halt, hseed, -⟩ | ⟨done, st, hreach, ⟨-, hlen⟩ | ⟨hexit, hr⟩ |
      ⟨hc, hmiss, -⟩ | ⟨block, events, halt, hc, hb, hp, -⟩⟩
  · rw [hs] at hseed
    cases hseed
  · have := hreach.length_le hend
    omega
  · -- the exit: the test fails at end+1 (or at s), after every block in between
    have hle := hreach.length_le hend
    have hnum := hreach.blockNum_toNat hend
    have hpast : p.endBlockNum.toNat < st.blockNum.toNat := by
      by_contra hle'
      exact hexit ⟨not_lt.mp hle', hstop _⟩
    have h1 : (1 : UInt64).toNat = 1 := rfl
    have hf : st.blockNum = if p.finalizedBlockNum ≤ p.endBlockNum then p.endBlockNum + 1
        else p.finalizedBlockNum := by
      split_ifs with hse
      · exact UInt64.toNat.inj (by rw [u64_toNat_add, h1]; change p.finalizedBlockNum.toNat ≤ p.endBlockNum.toNat at hse; omega)
      · exact UInt64.toNat.inj (by change ¬ p.finalizedBlockNum.toNat ≤ p.endBlockNum.toNat at hse; omega)
    rw [hf] at hr
    refine ⟨_, _, _, hr, ?_⟩
    rw [finalizeCalls_exitTrace, hreach.finalizeCalls_length]
    omega
  · obtain ⟨block, hb, ha⟩ := hreach.accepted hend haccept hc
    exact (Bool.false_ne_true ((hmiss block hb).symm.trans ha.revision)).elim
  · obtain ⟨block', hb', ha⟩ := hreach.accepted hend haccept hc
    obtain rfl : block' = block := Option.some.inj (hb'.symm.trans hb)
    obtain ⟨events', hp'⟩ := processMonadBlock_of_accepts ha st.trace
      (bytes32Of block'.header.number) st.parentBlockId p.enableTracing
      st.grandparentSendersAndAuthorities st.parentSendersAndAuthorities
    rw [LoopState.process, hp'] at hp
    cases hp

end Run

/-- From height 3 to 5 over the busy archive, seeded from blocks 1 and 2,
the run returns at 6, having finalized blocks 3, 4 and 5. -/
theorem busy_blocks_return_ok :
    ∃ ntxs gas trace, runloopMonadEthblocks (busyHost fun _ => false)
        ⟨3, 5, fun _ => false, false⟩ 4 = .returned 6 (.ok (ntxs, gas)) trace ∧
      (finalizeCalls trace).length = 3 :=
  @runloop_returns_ok (busyHost fun _ => false) ⟨3, 5, fun _ => false, false⟩ (by decide)
    (fun n _ _ => ⟨busyBlock n, rfl, ⟨rfl, rfl, rfl, show 2 < UInt32.size by decide, fun _ _ => rfl,
      rfl, fun _ _ _ => ⟨_, rfl⟩, fun _ _ => rfl⟩⟩)
    (fun _ => rfl) (fun _ => ⟨_, rfl, by decide⟩) (fun _ => ⟨_, rfl, by decide⟩) 4 (by decide)

end MonadFork
