import Mathlib.Algebra.Order.Group.Multiset
import Mathlib.Tactic.Abel
import SystemsManager.Metrics.Disk

/-!
# No sample is lost or duplicated

`Sound s disk` is the invariant of a session: the file holds `disk`, every enqueued sample is in
exactly one of the committed batches, the evicted lines, the file and the deque, and the open
claim covers a prefix of the file's lines and a prefix of the deque. It is kept by every call;
`no_sample_lost` reads the counters and the accounting off it.
-/

namespace SystemsManager.Metrics

open Python

variable {Sample : Type} {c : Jsonl Sample}

namespace BufferStore

variable {b b' : BufferStore Sample} {disk : List Sample}

/-- The most samples that stay in memory while no claim is open. -/
def bound (b : BufferStore Sample) : ℕ := b.maxMemorySamples.toNat

theorem SameDeque.bound (h : SameDeque b b') : b'.bound = b.bound := by
  rw [BufferStore.bound, h.maxMemorySamples, BufferStore.bound]

/-- A spill moves samples from behind the protected front of the deque to the end of the file,
and then the deque is within the bound or is the protected front. -/
theorem spill_spec (h : OnDisk c b disk) {protect : ℕ} (hprotect : protect ≤ b.memory.length) :
    ∃ spilled rest k, b.memory = b.memory.take protect ++ spilled ++ rest ∧
      (b.spillOverflow c protect).1.memory = b.memory.take protect ++ rest ∧
      Sheds c { b with memory := b.memory.take protect ++ rest } (disk ++ spilled)
        (b.spillOverflow c protect).1 k ∧
      (b.memory.take protect ++ rest).length ≤ max protect b.bound := by
  have hstay : b.memory.length ≤ max protect b.bound → ∃ spilled rest k,
      b.memory = b.memory.take protect ++ spilled ++ rest ∧
      b.memory = b.memory.take protect ++ rest ∧
      Sheds c { b with memory := b.memory.take protect ++ rest } (disk ++ spilled) b k ∧
      (b.memory.take protect ++ rest).length ≤ max protect b.bound := by
    intro hle
    have hsplit := (List.take_append_drop protect b.memory).symm
    refine ⟨[], b.memory.drop protect, 0, ?_, hsplit, ?_, ?_⟩
    · rw [List.append_nil]
      exact hsplit
    · rw [← hsplit, List.append_nil]
      exact .of_onDisk h rfl .refl fun _ => rfl
    · rwa [← hsplit]
  have hbound : (b.bound : Int) = max b.maxMemorySamples 0 := by
    rw [bound, Int.toNat_eq_max]
  unfold spillOverflow
  split
  · apply hstay
    omega
  · rename_i hmore
    split
    · rename_i hfew
      apply hstay
      unfold spillCount at hfew
      omega
    · rename_i hmany
      dsimp only
      have hafter : OnDisk c { b with memory := b.memory.take protect ++
          (b.memory.drop protect).drop (b.spillCount protect).toNat } disk :=
        h.congr rfl rfl rfl rfl
      obtain ⟨k, hk⟩ := append_sheds hafter
        ((b.memory.drop protect).take (b.spillCount protect).toNat)
      refine ⟨_, _, k, ?_, hk.same.memory, hk, ?_⟩
      · rw [List.append_assoc, List.take_append_drop, List.take_append_drop]
      · simp only [List.length_append, List.length_take, List.length_drop]
        unfold spillCount at hmany ⊢
        omega

theorem enqueue_spec (h : OnDisk c b disk) (hclosed : b.claimOpen = false → b.claimedMem = 0)
    (hclaimed : b.claimedMem ≤ b.memory.length) (sample : Sample) :
    ∃ moved rest k, b.memory ++ [sample] = b.memory.take b.claimedMem ++ moved ++ rest ∧
      (b.enqueue c sample).1.memory = b.memory.take b.claimedMem ++ rest ∧
      Sheds c { b with memory := b.memory.take b.claimedMem ++ rest } (disk ++ moved)
        (b.enqueue c sample).1 k ∧
      (b.memory.take b.claimedMem ++ rest).length ≤
        if b.claimOpen then max b.claimedMem (2 * b.bound) else b.bound := by
  have hlonger : OnDisk c { b with memory := b.memory ++ [sample] } disk :=
    h.congr rfl rfl rfl rfl
  have htake : (b.memory ++ [sample]).take b.claimedMem = b.memory.take b.claimedMem :=
    List.take_append_of_le_length hclaimed
  have hprotect : b.claimedMem ≤ (b.memory ++ [sample]).length := by
    rw [List.length_append]
    omega
  have hspill := spill_spec hlonger hprotect
  simp only [htake] at hspill
  obtain ⟨moved, rest, k, hmemory, hafter, hsheds, hlength⟩ := hspill
  have hlength : (b.memory.take b.claimedMem ++ rest).length ≤ max b.claimedMem b.bound := hlength
  unfold enqueue
  dsimp only
  split
  · split
    · rename_i hroom
      have hsplit : b.memory ++ [sample] =
          b.memory.take b.claimedMem ++ (b.memory ++ [sample]).drop b.claimedMem := by
        rw [← htake, List.take_append_drop]
      refine ⟨[], (b.memory ++ [sample]).drop b.claimedMem, 0, ?_, hsplit, ?_, ?_⟩
      · rw [List.append_nil]
        exact hsplit
      · rw [← hsplit, List.append_nil]
        exact .of_onDisk hlonger rfl .refl fun _ => rfl
      · rw [← hsplit]
        unfold bound
        omega
    · refine ⟨moved, rest, k, hmemory, hafter, hsheds, ?_⟩
      omega
  · rename_i hopen
    have hzero := hclosed (Bool.eq_false_iff.mpr hopen)
    rw [hzero] at hafter hsheds hlength ⊢
    refine ⟨moved, rest, k, ?_, hafter, hsheds, ?_⟩
    · rwa [hzero] at hmemory
    · omega

theorem read_lines_eq (limit : ℕ) (out disk : List Sample) :
    readLines c limit out (disk.map c.line) =
      (out ++ disk.take (limit - out.length), min (limit - out.length) disk.length,
        (c.write (disk.take (limit - out.length))).length) := by
  induction disk generalizing out with
  | nil => simp [readLines]
  | cons s disk ih =>
      simp only [List.map_cons, readLines, Jsonl.read_line]
      split
      · rename_i hfull
        simp [Nat.sub_eq_zero_of_le hfull]
      · rename_i hmore
        rw [ih]
        obtain ⟨n, hn⟩ : ∃ n, limit - out.length = n + 1 := ⟨limit - out.length - 1, by omega⟩
        have hn' : limit - (out ++ [s]).length = n := by
          simp only [List.length_append, List.length_cons, List.length_nil]
          omega
        rw [hn, hn']
        simp [Jsonl.write, Nat.add_min_add_right]

theorem read_disk_eq (h : OnDisk c b disk) (limit : ℕ) :
    b.readDisk c limit = (b, disk.take limit, min limit disk.length,
      b.offset + (c.write (disk.take limit)).length) := by
  have hcount := h.count
  unfold readDisk
  split
  · rename_i hsome
    cases hfile : b.cacheFile with
    | none =>
        have htail := h.tail
        rw [contents, hfile] at htail
        have hdisk : disk = [] := Jsonl.write_eq_nil.mp (by simpa using htail.symm)
        rw [hdisk] at hcount
        rw [hcount] at hsome
        exact absurd hsome (by simp)
    | some bytes =>
        have htail := h.tail
        rw [contents, hfile, Option.getD_some] at htail
        dsimp only
        rw [htail, Jsonl.lines_write, read_lines_eq]
        simp
  · have hdisk : disk = [] := List.length_eq_zero_iff.mp (by omega)
    simp [hdisk]

/-- The samples of memory that a snapshot of `n` samples claims. -/
def claims (b : BufferStore Sample) (disk : List Sample) (n : ℕ) : ℕ :=
  min (n - disk.length) b.memory.length

theorem snapshot_spec (h : OnDisk c b disk) (hclosed : b.claimOpen = false) {limit : Int}
    (hlimit : 0 < limit) :
    b.snapshot c limit =
      (b.openClaim (b.claims disk limit.toNat) ((disk ++ b.memory).take limit.toNat),
       (disk ++ b.memory).take limit.toNat,
       ⟨min limit.toNat disk.length, b.offset + (c.write (disk.take limit.toNat)).length,
        b.claims disk limit.toNat⟩) := by
  have hguard : ¬ (limit ≤ 0 ∨ b.claimOpen = true) := by
    rw [hclosed]
    simp
    omega
  have hmem : min (limit.toNat - (disk.take limit.toNat).length) b.memory.length =
      b.claims disk limit.toNat := by
    unfold claims
    rw [List.length_take]
    omega
  have hout : disk.take limit.toNat ++ b.memory.take (b.claims disk limit.toNat) =
      (disk ++ b.memory).take limit.toNat := by
    unfold claims
    rw [List.take_append, ← List.take_take, List.take_length]
  unfold snapshot
  rw [if_neg hguard, h.resync, read_disk_eq h]
  dsimp only
  rw [hmem, hout]

theorem settle_spec (h : OnDisk c b disk) :
    ∃ moved rest k, b.memory = moved ++ rest ∧ (b.settle c).1.memory = rest ∧
      Sheds c { b with memory := rest } (disk ++ moved) (b.settle c).1 k ∧
      rest.length ≤ b.bound := by
  have hspill := spill_spec h (Nat.zero_le b.memory.length)
  simp only [List.take_zero, List.nil_append, Nat.zero_max] at hspill
  obtain ⟨moved, rest, k, hmemory, hafter, hsheds, hlength⟩ := hspill
  obtain ⟨j, hfit⟩ := fit_sheds hsheds.onDisk
  exact ⟨moved, rest, k + j, hmemory, hfit.same.memory.trans hafter, hsheds.trans hfit, hlength⟩

theorem consume_onDisk (h : OnDisk c b disk) {claim : Claim}
    (hoffset : claim.newOffset = b.offset + (c.write (disk.take claim.diskLines)).length) :
    OnDisk c (b.consumeDisk claim false) (disk.drop claim.diskLines) := by
  unfold consumeDisk
  split
  · obtain ⟨consumed, hfile, hstart⟩ := h.file
    refine ⟨⟨consumed ++ c.write (disk.take claim.diskLines), ?_, ?_⟩, ?_, h.bytes⟩
    · rw [List.append_assoc, ← Jsonl.write_append, List.take_append_drop]
      exact hfile
    · simp [hoffset, hstart]
    · simp [h.count]
  · rename_i hnone
    have hzero : claim.diskLines = 0 := by
      by_contra hne
      exact hnone ⟨hne, rfl⟩
    rw [hzero, List.drop_zero]
    exact h

theorem consume_same (b : BufferStore Sample) (claim : Claim) (stale : Bool) :
    SameDeque b (b.consumeDisk claim stale) ∧ (b.consumeDisk claim stale).dropped = b.dropped := by
  unfold consumeDisk
  split
  · exact ⟨⟨rfl, rfl, rfl, rfl, rfl⟩, rfl⟩
  · exact ⟨.refl, rfl⟩

theorem tidy_sheds (h : OnDisk c b disk) (hclosed : b.claimOpen = false) :
    Sheds c b disk b.tidy 0 := by
  unfold tidy
  split
  · rename_i hzero
    have hdisk : disk = [] := List.length_eq_zero_iff.mp (h.count.symm.trans hzero)
    rw [hdisk]
    exact unlink_sheds hclosed
  · split
    · exact compact_sheds h hclosed
    · exact .of_onDisk h rfl .refl fun _ => rfl

theorem Sheds.congr {b₀ : BufferStore Sample} {k : ℕ} (h : Sheds c b disk b' k)
    (hsame : SameDeque b₀ b) (hdropped : b.dropped = b₀.dropped)
    (hclosed : b₀.claimOpen = false) : Sheds c b₀ disk b' k :=
  ⟨h.onDisk, hdropped ▸ h.dropped, hsame.trans h.same, closed_not_open hclosed⟩

theorem commit_spec (h : OnDisk c b disk) (hfresh : b.claimStale = false) {claim : Claim}
    (hoffset : claim.newOffset = b.offset + (c.write (disk.take claim.diskLines)).length) :
    ∃ moved rest k, b.memory.drop claim.mem = moved ++ rest ∧
      (b.commit c claim).1.memory = rest ∧
      Sheds c { b with memory := rest, claimOpen := false, claimedMem := 0 }
        (disk.drop claim.diskLines ++ moved) (b.commit c claim).1 k ∧
      rest.length ≤ b.bound := by
  unfold commit
  rw [h.resync]
  dsimp only
  rw [hfresh, Bool.false_or]
  have hbase : OnDisk c { b with claimStale := false } disk := h.congr rfl rfl rfl rfl
  have hconsumed := consume_onDisk hbase hoffset
  obtain ⟨hsame, hdropped⟩ := consume_same { b with claimStale := false } claim false
  generalize consumeDisk { b with claimStale := false } claim false = b₁ at *
  have hclosed : (b₁.consumeMemory claim).claimOpen = false := rfl
  have hpopped : OnDisk c (b₁.consumeMemory claim) (disk.drop claim.diskLines) :=
    hconsumed.congr rfl rfl rfl rfl
  have htidy := tidy_sheds hpopped hclosed
  obtain ⟨moved, rest, k, hmemory, hafter, hsheds, hlength⟩ := settle_spec htidy.onDisk
  have htidied : (b₁.consumeMemory claim).tidy.memory = b.memory.drop claim.mem := by
    rw [htidy.same.memory]
    show b₁.memory.drop claim.mem = _
    rw [hsame.memory]
  have hmax : (b₁.consumeMemory claim).tidy.maxMemorySamples = b.maxMemorySamples :=
    htidy.same.maxMemorySamples.trans hsame.maxMemorySamples
  refine ⟨moved, rest, k, htidied ▸ hmemory, hafter, hsheds.congr ?_ ?_ rfl, ?_⟩
  · exact ⟨rfl, htidy.same.claimOpen, htidy.same.claimedMem,
      htidy.same.claimStale.trans hsame.claimStale, hmax⟩
  · have hnone := htidy.dropped
    simp only [List.take_zero, List.map_nil, List.append_nil] at hnone
    exact hnone.trans hdropped
  · rwa [bound, hmax] at hlength

theorem abort_spec (h : OnDisk c b disk) (hfresh : b.claimStale = false) :
    ∃ moved rest k, b.memory = moved ++ rest ∧ (b.abort c).1.memory = rest ∧
      Sheds c { b with memory := rest, claimOpen := false, claimedMem := 0 }
        (disk ++ moved) (b.abort c).1 k ∧
      rest.length ≤ b.bound := by
  unfold abort
  rw [h.resync]
  have hbase : OnDisk c { b with claimOpen := false, claimedMem := 0, claimStale := false } disk :=
    h.congr rfl rfl rfl rfl
  obtain ⟨moved, rest, k, hmemory, hafter, hsheds, hlength⟩ := settle_spec hbase
  exact ⟨moved, rest, k, hmemory, hafter,
    hsheds.congr ⟨rfl, rfl, rfl, hfresh.symm, rfl⟩ rfl rfl, hlength⟩

end BufferStore

open BufferStore

/-- What an open claim covers: the first lines of the file and the front of the deque, which
make up the batch. -/
structure Covers (c : Jsonl Sample) (b : BufferStore Sample) (disk batch : List Sample)
    (claim : Claim) : Prop where
  claimOpen : b.claimOpen = true
  newOffset : claim.newOffset = b.offset + (c.write (disk.take claim.diskLines)).length
  claimedMem : b.claimedMem = claim.mem
  lines : claim.diskLines ≤ disk.length
  front : claim.mem ≤ b.memory.length
  small : claim.mem ≤ b.bound
  room : b.memory.length ≤ 2 * b.bound
  batch : batch = disk.take claim.diskLines ++ b.memory.take claim.mem

/-- What holds while no claim is open. -/
structure Free (b : BufferStore Sample) : Prop where
  claimOpen : b.claimOpen = false
  claimedMem : b.claimedMem = 0
  room : b.memory.length ≤ b.bound

/-- The owner's claim and the store's agree. -/
def ClaimAgrees (c : Jsonl Sample) (b : BufferStore Sample) (disk : List Sample) :
    Option (List Sample × Claim) → Prop
  | none => Free b
  | some (batch, claim) => Covers c b disk batch claim

/-- The invariant of a session with memory bound `m` whose file holds `disk`. -/
structure Sound (c : Jsonl Sample) (m : Int) (s : Session Sample) (disk : List Sample) :
    Prop where
  bounded : s.store.maxMemorySamples = m
  onDisk : OnDisk c s.store disk
  fresh : s.store.claimStale = false
  claim : ClaimAgrees c s.store disk s.pending
  account : s.enqueued.Perm
    (s.committed.flatten ++ s.store.evicted c ++ (disk ++ s.store.memory))

namespace Sound

variable {m : Int} {s : Session Sample} {disk : List Sample}

theorem claimed_le (h : Sound c m s disk) : s.store.claimedMem ≤ s.store.memory.length := by
  have hclaim := h.claim
  cases hp : s.pending with
  | none =>
      rw [hp] at hclaim
      have hfree : Free s.store := hclaim
      rw [hfree.claimedMem]
      exact Nat.zero_le _
  | some pending =>
      rw [hp] at hclaim
      have hcovers : Covers c s.store disk pending.1 pending.2 := hclaim
      rw [hcovers.claimedMem]
      exact hcovers.front

theorem free (h : Sound c m s disk) (hclosed : s.store.claimOpen = false) :
    s.pending = none ∧ Free s.store := by
  have hclaim := h.claim
  cases hp : s.pending with
  | none =>
      rw [hp] at hclaim
      exact ⟨rfl, hclaim⟩
  | some pending =>
      rw [hp] at hclaim
      have hcovers : Covers c s.store disk pending.1 pending.2 := hclaim
      exact absurd hcovers.claimOpen (by simp [hclosed])

theorem claimed_zero (h : Sound c m s disk) (hclosed : s.store.claimOpen = false) :
    s.store.claimedMem = 0 :=
  (h.free hclosed).2.claimedMem

end Sound

theorem BufferStore.Sheds.evicted {b b' : BufferStore Sample} {disk : List Sample} {k : ℕ}
    (h : Sheds c b disk b' k) : b'.evicted c = b.evicted c ++ disk.take k := by
  rw [BufferStore.evicted, h.dropped, List.filterMap_append, Jsonl.filter_map_read]
  rfl

theorem account_shed {out evicted disk rest : List Sample} (k : ℕ) :
    out ++ (evicted ++ disk.take k) ++ (disk.drop k ++ rest) =
      out ++ evicted ++ (disk ++ rest) := by
  conv_rhs => rw [← List.take_append_drop k disk]
  simp only [List.append_assoc]

theorem perm_spill {out disk front moved rest : List Sample} :
    (out ++ (disk ++ (front ++ moved ++ rest))).Perm
      (out ++ (disk ++ moved ++ (front ++ rest))) := by
  rw [← Multiset.coe_eq_coe]
  simp only [← Multiset.coe_add]
  abel

theorem perm_commit {out evicted lines disk front memory : List Sample} :
    (out ++ evicted ++ (lines ++ disk ++ (front ++ memory))).Perm
      (out ++ (lines ++ front) ++ evicted ++ (disk ++ memory)) := by
  rw [← Multiset.coe_eq_coe]
  simp only [← Multiset.coe_add]
  abel

namespace Sound

variable {m : Int} {s : Session Sample} {disk : List Sample}

/-- An enqueue keeps the invariant. -/
theorem enqueue (h : Sound c m s disk) (sample : Sample) :
    ∃ disk', Sound c m (s.enqueue c sample) disk' := by
  obtain ⟨moved, rest, k, hmemory, hafter, hsheds, hlength⟩ :=
    enqueue_spec h.onDisk h.claimed_zero h.claimed_le sample
  refine ⟨(disk ++ moved).drop k, hsheds.same.maxMemorySamples.trans h.bounded, hsheds.onDisk,
    hsheds.same.claimStale.trans h.fresh, ?_, ?_⟩
  · have hclaim := h.claim
    have hbound : (s.store.enqueue c sample).1.bound = s.store.bound := hsheds.same.bound
    cases hp : s.pending with
    | none =>
        rw [hp] at hclaim
        have hfree : Free s.store := hclaim
        rw [hfree.claimOpen] at hlength
        have hroom : (s.store.enqueue c sample).1.memory.length ≤
            (s.store.enqueue c sample).1.bound := by
          rw [hafter, hbound]
          simpa using hlength
        simp only [Session.enqueue, hp]
        exact ⟨hsheds.same.claimOpen.trans hfree.claimOpen,
          hsheds.same.claimedMem.trans hfree.claimedMem, hroom⟩
    | some pending =>
        rw [hp] at hclaim
        have hcovers : Covers c s.store disk pending.1 pending.2 := hclaim
        obtain ⟨hk, hoffset⟩ := hsheds.frozen hcovers.claimOpen
        have htake : (disk ++ moved).take pending.2.diskLines = disk.take pending.2.diskLines :=
          List.take_append_of_le_length hcovers.lines
        rw [hcovers.claimedMem] at hafter hlength hmemory
        have hfront : (s.store.memory.take pending.2.mem).length = pending.2.mem := by
          rw [List.length_take]
          exact Nat.min_eq_left hcovers.front
        rw [hcovers.claimOpen, if_pos rfl] at hlength
        have hsmall := hcovers.small
        subst hk
        simp only [Session.enqueue, hp]
        refine ⟨hsheds.same.claimOpen.trans hcovers.claimOpen, ?_,
          hsheds.same.claimedMem.trans hcovers.claimedMem, ?_, ?_, ?_, ?_, ?_⟩
        · rw [List.drop_zero, htake, hoffset]
          exact hcovers.newOffset
        · have := hcovers.lines
          rw [List.drop_zero, List.length_append]
          omega
        · rw [hafter, List.length_append, hfront]
          omega
        · rw [hbound]
          exact hsmall
        · rw [hafter, hbound]
          omega
        · rw [hafter, List.drop_zero, htake, List.take_left' hfront]
          exact hcovers.batch
  · have hevicted : (s.store.enqueue c sample).1.evicted c =
        s.store.evicted c ++ (disk ++ moved).take k := hsheds.evicted
    simp only [Session.enqueue]
    rw [hafter, hevicted, account_shed]
    refine (h.account.append_right [sample]).trans ?_
    rw [List.append_assoc, List.append_assoc disk, hmemory]
    exact perm_spill

theorem snapshot (h : Sound c m s disk) (limit : Int) : Sound c m (s.snapshot c limit) disk := by
  by_cases hguard : limit ≤ 0 ∨ s.store.claimOpen = true
  · have hsame : s.snapshot c limit = s := by
      simp [Session.snapshot, BufferStore.snapshot, hguard]
    rwa [hsame]
  · rw [not_or, Bool.not_eq_true] at hguard
    have hfree := h.free hguard.2
    unfold Session.snapshot
    rw [snapshot_spec h.onDisk hguard.2 (by omega)]
    dsimp only
    cases hbatch : (disk ++ s.store.memory).take limit.toNat with
    | nil => exact h
    | cons first batch =>
        refine ⟨h.bounded, h.onDisk.congr rfl rfl rfl rfl, h.fresh, ?_, h.account⟩
        have hroom := hfree.2.room
        refine ⟨rfl, ?_, rfl, Nat.min_le_right _ _, Nat.min_le_right _ _, ?_, ?_, ?_⟩
        · show s.store.offset + _ = s.store.offset + _
          rw [← List.take_take, List.take_length]
        · exact (Nat.min_le_right _ _).trans hroom
        · exact hroom.trans (Nat.le_mul_of_pos_left _ (by omega))
        · show first :: batch = disk.take (min _ _) ++ s.store.memory.take (min _ _)
          rw [← hbatch, List.take_append, ← List.take_take, List.take_length, ← List.take_take,
            List.take_length]

/-- A commit keeps the invariant. -/
theorem commit (h : Sound c m s disk) {batch : List Sample} {claim : Claim}
    (hp : s.pending = some (batch, claim)) : ∃ disk', Sound c m (s.commit c batch claim) disk' := by
  have hcovers : Covers c s.store disk batch claim := by
    have hclaim := h.claim
    rwa [hp] at hclaim
  obtain ⟨moved, rest, k, hmemory, hafter, hsheds, hlength⟩ :=
    commit_spec h.onDisk h.fresh hcovers.newOffset
  refine ⟨(disk.drop claim.diskLines ++ moved).drop k,
    hsheds.same.maxMemorySamples.trans h.bounded, hsheds.onDisk,
    hsheds.same.claimStale.trans h.fresh, ?_, ?_⟩
  · refine ⟨hsheds.same.claimOpen, hsheds.same.claimedMem, ?_⟩
    have hbound : (s.store.commit c claim).1.bound = s.store.bound := hsheds.same.bound
    simp only [Session.commit]
    rw [hafter, hbound]
    exact hlength
  · have hevicted : (s.store.commit c claim).1.evicted c =
        s.store.evicted c ++ (disk.drop claim.diskLines ++ moved).take k := hsheds.evicted
    have haccount := h.account
    rw [← List.take_append_drop claim.diskLines disk,
      ← List.take_append_drop claim.mem s.store.memory] at haccount
    simp only [Session.commit, List.flatten_append, List.flatten_singleton]
    rw [hafter, hevicted, account_shed, hcovers.batch]
    refine (haccount.trans perm_commit).trans ?_
    rw [hmemory, List.append_assoc (disk.drop claim.diskLines)]

/-- An abort keeps the invariant. -/
theorem abort (h : Sound c m s disk) : ∃ disk', Sound c m (s.abort c) disk' := by
  obtain ⟨moved, rest, k, hmemory, hafter, hsheds, hlength⟩ := abort_spec h.onDisk h.fresh
  refine ⟨(disk ++ moved).drop k, hsheds.same.maxMemorySamples.trans h.bounded, hsheds.onDisk,
    hsheds.same.claimStale.trans h.fresh, ?_, ?_⟩
  · refine ⟨hsheds.same.claimOpen, hsheds.same.claimedMem, ?_⟩
    have hbound : (s.store.abort c).1.bound = s.store.bound := hsheds.same.bound
    simp only [Session.abort]
    rw [hafter, hbound]
    exact hlength
  · have hevicted : (s.store.abort c).1.evicted c =
        s.store.evicted c ++ (disk ++ moved).take k := hsheds.evicted
    have haccount := h.account
    simp only [Session.abort]
    rw [hafter, hevicted, account_shed, List.append_assoc disk, ← hmemory]
    exact haccount

theorem step (h : Sound c m s disk) {op : Call Sample} {s' : Session Sample}
    (hstep : s.step c op = some s') : ∃ disk', Sound c m s' disk' := by
  cases op with
  | enqueue sample =>
      have hs' : s.enqueue c sample = s' := Option.some.inj hstep
      exact hs' ▸ h.enqueue sample
  | snapshot limit =>
      have hs' : s.snapshot c limit = s' := Option.some.inj hstep
      exact ⟨disk, hs' ▸ h.snapshot limit⟩
  | commit =>
      obtain ⟨pending, hp, hs'⟩ := Option.map_eq_some_iff.mp hstep
      exact hs' ▸ h.commit hp
  | abort =>
      obtain ⟨pending, hp, hs'⟩ := Option.map_eq_some_iff.mp hstep
      exact hs' ▸ h.abort

theorem of_reached {allow : Session Sample → Call Sample → Prop} {maxDiskBytes : Int}
    (h : Reached c allow maxDiskBytes m s) : ∃ disk, Sound c m s disk := by
  induction h with
  | new =>
      refine ⟨[], rfl, ⟨⟨[], rfl, rfl⟩, rfl, rfl⟩, rfl, ⟨rfl, rfl, ?_⟩, ?_⟩
      · exact Nat.zero_le _
      · exact List.Perm.refl _
  | call _ _ hstep ih =>
      obtain ⟨disk, hsound⟩ := ih
      exact hsound.step hstep

end Sound

/-- The accounting and the counters of a session: every enqueued sample is in exactly one of the
committed batches, the evicted samples and the buffer; the counters agree with the file; the
deque is within its bound, or twice the bound under an open claim. -/
structure Accounted (c : Jsonl Sample) (bound : Int) (s : Session Sample) : Prop where
  samples : (s.enqueued : Multiset Sample) =
    ↑s.committed.flatten + ↑(s.store.evicted c) + ↑(s.store.buffered c)
  diskCount : s.store.diskCount = s.store.countLinesFrom s.store.offset
  diskBytes : s.store.diskBytes = s.store.contents.length
  claimedMem : s.store.claimedMem ≤ s.store.memory.length
  free : s.store.claimOpen = false → s.store.memory.length ≤ bound
  claimed : s.store.claimOpen = true → s.store.memory.length ≤ 2 * bound

/-- Whatever calls are made, no sample is lost or duplicated and the counters stay in step. -/
theorem no_sample_lost (c : Jsonl Sample) (maxDiskBytes maxMemorySamples : Int)
    (s : Session Sample) (h : Reached c (fun _ _ => True) maxDiskBytes maxMemorySamples s) :
    Accounted c (max 0 maxMemorySamples) s := by
  obtain ⟨disk, hsound⟩ := Sound.of_reached h
  have hbound : (s.store.bound : Int) = max 0 maxMemorySamples := by
    rw [bound, hsound.bounded, Int.toNat_eq_max, max_comm]
  have hclaim := hsound.claim
  refine ⟨?_, hsound.onDisk.count_lines, hsound.onDisk.bytes, hsound.claimed_le, ?_, ?_⟩
  · rw [Multiset.coe_add, Multiset.coe_add, Multiset.coe_eq_coe, buffered,
      hsound.onDisk.unread]
    exact hsound.account
  · intro hclosed
    have hroom := (hsound.free hclosed).2.room
    omega
  · intro hopen
    cases hp : s.pending with
    | none =>
        rw [hp] at hclaim
        exact absurd (Free.claimOpen hclaim) (by simp [hopen])
    | some pending =>
        rw [hp] at hclaim
        have hcovers : Covers c s.store disk pending.1 pending.2 := hclaim
        have hroom := hcovers.room
        omega

/-- Two samples spill past an open claim, and the claim is committed. -/
def valve : List (Call (Fin 10)) :=
  [.enqueue 0, .snapshot 1, .enqueue 1, .enqueue 2, .commit]

/-- The accounting after a spill under a claim: one sample committed, two on disk. -/
theorem valve_accounted :
    ∃ s, Reached digits (fun _ _ => True) 1024 1 s ∧ Accounted digits (max 0 1) s ∧
      s.committed = [[0]] ∧ s.store.unread digits = [1, 2] := by
  have hplays : ((Session.new 1024 1).plays digits (fun _ _ => true) valve).any
      (fun s => s.committed = [[0]] ∧ s.store.unread digits = [1, 2]) = true := by
    decide +kernel
  obtain ⟨s, hs, hstate⟩ := (Option.any_eq_true _ _).mp hplays
  have hreached := reached_of_plays (fun _ _ _ => trivial) hs
  have hstate : s.committed = [[0]] ∧ s.store.unread digits = [1, 2] := by simpa using hstate
  exact ⟨s, hreached, no_sample_lost digits 1024 1 s hreached, hstate⟩

/-- A negative bound is no bound: the empty deque is longer. -/
theorem negative_bound_exceeded :
    ∃ s, Reached digits (fun _ _ => True) 1024 (-1) s ∧ ¬ Accounted digits (-1) s := by
  refine ⟨.new 1024 (-1), .new, ?_⟩
  intro h
  have hfree := h.free rfl
  exact absurd hfree (by decide)

end SystemsManager.Metrics
