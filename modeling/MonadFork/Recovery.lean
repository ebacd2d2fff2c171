import MonadFork.Data
import Mathlib.Data.List.ReduceOption

/-!
Sender and authority recovery, and the address set a block contributes to the
window.

The source builds that set in three places: `process_monad_block` (lines
105-134) for the block it runs, and the start of `runloop_monad_ethblocks`
(lines 300-363) for blocks H-1 and H-2. All three insert every sender, then
every recovered authority (`collectSendersAndAuthorities`). They differ in how
they copy the recovered senders: the per-block loop returns `MissingSender` at
the first one missing (`copySenders`), the seeding loops leave the default
address in its place (`copySendersOrDefault`). Both count with an `unsigned`
index, which wraps at 2^32.

* `copySenders_eq_ok` — the per-block loop succeeds exactly on fewer than 2^32
  entries, none missing, and then yields every recovered sender in order.
* `collectSendersAndAuthorities_eq` — the set is the senders and the present
  authorities, in any order.
* `collectSendersAndAuthorities_eq_addressSetOf` and
  `seedSet_eq_addressSetOf` — when every sender recovers, both paths build
  `addressSetOf`, the set the window is specified by.
-/

namespace MonadFork

/-- `recover_senders(transactions, priority_pool)`: one entry per transaction. -/
def recoverSenders (host : Host) (transactions : List Transaction) : List (Option Address) :=
  transactions.map host.recoverSender

/-- `recover_authorities(transactions, priority_pool)`: one list per transaction. -/
def recoverAuthorities (host : Host) (transactions : List Transaction) :
    List (List (Option Address)) :=
  transactions.map host.recoverAuthorities

/-- The sender copy loop of `process_monad_block` (lines 114-122). Its index is
an `unsigned`: on 2^32 entries or more with none missing among the first 2^32
it wraps to 0 and runs forever. -/
def copySenders (recovered : List (Option Address)) : Except Halt (List Address) :=
  if (recovered.take UInt32.size).all Option.isSome then
    if recovered.length < UInt32.size then .ok recovered.reduceOption else .error .hang
  else .error (.error .missingSender)

/-- The sender copy loops of the seeding code (lines 310-315 and 340-348): a
missing sender keeps the value-initialised (zero) address. -/
def copySendersOrDefault (recovered : List (Option Address)) : Except Halt (List Address) :=
  if recovered.length < UInt32.size then .ok (recovered.map fun r => r.getD 0)
  else .error .hang

/-- One step of the authority loop: insert a recovered authority, skip a
failed one. -/
def insertAuthority (set : AddressSet) : Option Address → AddressSet
  | some authority => insert authority set
  | none => set

/-- Lines 123-134 (and 316-327, 349-360): every sender, then every recovered
authority, inserted into one set. -/
def collectSendersAndAuthorities (senders : List Address)
    (authorities : List (List (Option Address))) : AddressSet :=
  authorities.foldl (fun set auths => auths.foldl insertAuthority set)
    (senders.foldl (fun set sender => insert sender set) ∅)

/-- `AS(b)`: every recovered sender and every recovered authority of a block's
transactions. -/
def addressSetOf (host : Host) (block : Block) : AddressSet :=
  (recoverSenders host block.transactions).reduceOption.toFinset ∪
    (recoverAuthorities host block.transactions).flatten.reduceOption.toFinset

/-- Every sender of the block recovers. -/
def AllSendersRecover (host : Host) (block : Block) : Prop :=
  ∀ tx ∈ block.transactions, (host.recoverSender tx).isSome

/-! ### The copy loops -/

theorem map_some_reduceOption {rs : List (Option Address)} (h : rs.all Option.isSome = true) :
    rs.reduceOption.map some = rs := by
  induction rs with
  | nil => rfl
  | cons r rs ih =>
    obtain ⟨a, rfl⟩ := Option.isSome_iff_exists.mp (List.all_eq_true.mp h _ (.head _))
    simp only [List.all_cons, Option.isSome_some, Bool.true_and] at h
    simp [List.reduceOption_cons_of_some, ih h]

theorem reduceOption_map_some (l : List Address) : (l.map some).reduceOption = l := by
  induction l with
  | nil => rfl
  | cons a l ih => simp [List.reduceOption_cons_of_some, ih]

/-- **The per-block copy loop**: it succeeds exactly on fewer than 2^32
entries with none missing, and then yields each recovered sender in order. -/
theorem copySenders_eq_ok {rs : List (Option Address)} {senders : List Address} :
    copySenders rs = .ok senders ↔ rs.length < UInt32.size ∧ senders.map some = rs := by
  unfold copySenders
  constructor
  · intro h
    split at h
    · rename_i hall
      split at h
      · rename_i hlen
        rw [List.take_of_length_le hlen.le] at hall
        cases h
        exact ⟨hlen, map_some_reduceOption hall⟩
      · cases h
    · cases h
  · rintro ⟨hlen, rfl⟩
    rw [List.take_of_length_le hlen.le]
    simp_all [reduceOption_map_some]

theorem copySendersOrDefault_of_all_isSome {rs : List (Option Address)}
    (hlen : rs.length < UInt32.size) (hall : rs.all Option.isSome = true) :
    copySendersOrDefault rs = .ok rs.reduceOption := by
  simp only [copySendersOrDefault, hlen, if_true, Except.ok.injEq]
  conv_lhs => rw [← map_some_reduceOption hall]
  simp [Function.comp_def]

theorem copySendersOrDefault_length_lt {rs : List (Option Address)} {senders : List Address}
    (h : copySendersOrDefault rs = .ok senders) : rs.length < UInt32.size := by
  unfold copySendersOrDefault at h
  split at h
  · assumption
  · cases h

/-! ### The address set -/

theorem foldl_insert (set : AddressSet) (l : List Address) :
    l.foldl (fun set a => insert a set) set = set ∪ l.toFinset := by
  induction l generalizing set with
  | nil => simp
  | cons a l ih => rw [List.foldl_cons, ih]; ext; simp [or_comm, or_left_comm]

theorem foldl_insertAuthority (set : AddressSet) (l : List (Option Address)) :
    l.foldl insertAuthority set = set ∪ l.reduceOption.toFinset := by
  induction l generalizing set with
  | nil => ext; simp [List.reduceOption_mem_iff]
  | cons a l ih =>
    cases a <;> rw [List.foldl_cons, ih] <;> ext <;>
      simp [insertAuthority, List.reduceOption_mem_iff, or_comm, or_left_comm]

/-- The set the loops build holds the senders and the recovered authorities:
the order of the transactions, and of their authorities, does not matter. -/
theorem collectSendersAndAuthorities_eq (senders : List Address)
    (authorities : List (List (Option Address))) :
    collectSendersAndAuthorities senders authorities =
      senders.toFinset ∪ authorities.flatten.reduceOption.toFinset := by
  have outer : ∀ (set : AddressSet) (ls : List (List (Option Address))),
      ls.foldl (fun set auths => auths.foldl insertAuthority set) set =
        set ∪ ls.flatten.reduceOption.toFinset := by
    intro set ls
    induction ls generalizing set with
    | nil => ext; simp [List.reduceOption_mem_iff]
    | cons l ls ih =>
      rw [List.foldl_cons, ih, foldl_insertAuthority, List.flatten_cons]
      ext; simp [List.reduceOption_mem_iff, or_assoc]
  rw [collectSendersAndAuthorities, outer, foldl_insert, Finset.empty_union]

/-- **The per-block path builds `AS(b)`**: from the exact recovered senders. -/
theorem collectSendersAndAuthorities_eq_addressSetOf {host : Host} {block : Block}
    {senders : List Address}
    (h : senders.map some = recoverSenders host block.transactions) :
    collectSendersAndAuthorities senders (recoverAuthorities host block.transactions) =
      addressSetOf host block := by
  rw [collectSendersAndAuthorities_eq, addressSetOf, ← h, reduceOption_map_some]

theorem allSendersRecover_iff {host : Host} {block : Block} :
    AllSendersRecover host block ↔
      (recoverSenders host block.transactions).all Option.isSome = true := by
  simp [AllSendersRecover, recoverSenders]

/-- **The seeding path builds `AS(b)`** when every sender of the block
recovers, so that the zero address a missing sender would leave never enters. -/
theorem seedSet_eq_addressSetOf {host : Host} {block : Block}
    (hlen : block.transactions.length < UInt32.size) (hall : AllSendersRecover host block) :
    (copySendersOrDefault (recoverSenders host block.transactions)).map
        (collectSendersAndAuthorities · (recoverAuthorities host block.transactions)) =
      .ok (addressSetOf host block) := by
  have hall' := allSendersRecover_iff.mp hall
  rw [copySendersOrDefault_of_all_isSome (by simpa [recoverSenders] using hlen) hall']
  exact congrArg Except.ok
    (collectSendersAndAuthorities_eq_addressSetOf (map_some_reduceOption hall'))

end MonadFork
