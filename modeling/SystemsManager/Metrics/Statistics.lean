import SystemsManager.Metrics.Conservation
import SystemsManager.Metrics.FailedSpills

/-!
# The statistics of the metric client

`BufferedMetricClient` counts what it enqueues, posts and evicts. An eviction reaches the statistics
in the tuple that a spill returns; the budget that `commit` and `abort` enforce after the spill
returns its count to nobody. `Settles` is the condition under which a claim closes without such an
eviction. Read `stats_balance`.
-/

namespace SystemsManager.Metrics

open Python

variable {Sample : Type} (c : Jsonl Sample)

/-- `MetricStats` -/
structure MetricStats where
  enqueued : ℕ
  spilledToDisk : ℕ
  evictedForBudget : ℕ
  flushAttempts : ℕ
  flushSuccesses : ℕ
  flushFailures : ℕ
  samplesPosted : ℕ
  deriving DecidableEq

/-- A client. Its session is the store with the flush that is in flight. -/
structure Client (Sample : Type) where
  batchLimit : Int
  session : Session Sample
  stats : MetricStats

/-- `breakdown`, for what it does to the store: it looks at the file first. -/
def Session.breakdown (s : Session Sample) : Session Sample :=
  { s with store := s.store.resyncIfRotated.1 }

/-- `total` -/
def BufferStore.total (b : BufferStore Sample) : ℕ :=
  let b := b.resyncIfRotated.1
  b.diskCount + b.memory.length

namespace Client

/-- A client without samples. -/
def new (maxDiskBytes maxMemorySamples batchLimit : Int) : Client Sample :=
  ⟨batchLimit, .new maxDiskBytes maxMemorySamples, ⟨0, 0, 0, 0, 0, 0, 0⟩⟩

/-- What a spill reports is added to the statistics: the end of `enqueue`, and
`_note_deferred_spill`. -/
def note (client : Client Sample) (spill : Spill) : Client Sample :=
  if spill.spilled = 0 then client
  else
    { client with
      session := client.session.breakdown
      stats := { client.stats with
        spilledToDisk := client.stats.spilledToDisk + spill.spilled
        evictedForBudget := client.stats.evictedForBudget + spill.evicted } }

/-- `enqueue` -/
def enqueue (client : Client Sample) (sample : Sample) : Client Sample :=
  note { client with
    session := client.session.enqueue c sample
    stats := { client.stats with enqueued := client.stats.enqueued + 1 } }
    (client.session.store.enqueue c sample).2

/-- The start of `_flush_once`: a batch is claimed, if there is one. -/
def flush (client : Client Sample) : Client Sample :=
  let session := client.session.snapshot c client.batchLimit
  match (client.session.store.snapshot c client.batchLimit).2.1 with
  | [] => { client with session := session }
  | _ :: _ =>
      { client with
        session := session.breakdown
        stats := { client.stats with flushAttempts := client.stats.flushAttempts + 1 } }

/-- The end of a flush whose batch was posted. -/
def posted (client : Client Sample) (batch : List Sample) (claim : Claim) : Client Sample :=
  note { client with
    session := client.session.commit c batch claim
    stats := { client.stats with
      flushSuccesses := client.stats.flushSuccesses + 1
      samplesPosted := client.stats.samplesPosted + batch.length } }
    (client.session.store.commit c claim).2

/-- The end of a flush whose post failed. -/
def failed (client : Client Sample) : Client Sample :=
  note { client with
    session := client.session.abort c
    stats := { client.stats with flushFailures := client.stats.flushFailures + 1 } }
    (client.session.store.abort c).2

end Client

/-- What happens at a client. -/
inductive ClientOp (Sample : Type) where
  | enqueue (sample : Sample)
  | flush
  | posted
  | failed
  deriving DecidableEq

/-- One event; a flush can only end that is in flight. -/
def Client.step (client : Client Sample) : ClientOp Sample → Option (Client Sample)
  | .enqueue sample => some (client.enqueue c sample)
  | .flush => some (client.flush c)
  | .posted => client.session.pending.map fun pending => client.posted c pending.1 pending.2
  | .failed => client.session.pending.map fun _ => client.failed c

/-- A claim closes without an eviction that is not reported: after `consumed` samples of memory are
gone a spill follows, which enforces the budget itself, or the file from `offset` on is within the
budget. -/
def BufferStore.Settles (b : BufferStore Sample) (consumed offset : ℕ) : Prop :=
  max b.maxMemorySamples 0 < (b.memory.length - consumed : ℕ) ∨
    ((b.diskBytes - offset : ℕ) : Int) ≤ max b.maxDiskBytes 0

instance (b : BufferStore Sample) (consumed offset : ℕ) : Decidable (b.Settles consumed offset) :=
  inferInstanceAs (Decidable (_ ∨ _))

/-- The condition on the end of a flush. -/
def Client.settles (client : Client Sample) : ClientOp Sample → Bool
  | .posted => client.session.pending.all fun pending =>
      client.session.store.Settles pending.2.mem
        (if pending.2.diskLines = 0 then client.session.store.offset else pending.2.newOffset)
  | .failed => client.session.store.Settles 0 client.session.store.offset
  | _ => true

/-- The condition, as a proposition. -/
def Client.Settles (client : Client Sample) (op : ClientOp Sample) : Prop :=
  client.settles op = true

/-- The clients that are reached from an empty cache by events that meet a condition. -/
inductive Runs (allow : Client Sample → ClientOp Sample → Prop)
    (maxDiskBytes maxMemorySamples batchLimit : Int) : Client Sample → Prop where
  | new : Runs allow maxDiskBytes maxMemorySamples batchLimit
      (.new maxDiskBytes maxMemorySamples batchLimit)
  | step {client client' : Client Sample} {op : ClientOp Sample} :
      Runs allow maxDiskBytes maxMemorySamples batchLimit client → allow client op →
      client.step c op = some client' → Runs allow maxDiskBytes maxMemorySamples batchLimit client'

/-- One sequence of events, if it can happen and meets a condition. -/
def Client.plays (allow : Client Sample → ClientOp Sample → Bool) (client : Client Sample)
    (ops : List (ClientOp Sample)) : Option (Client Sample) :=
  ops.foldlM (fun client op => if allow client op then client.step c op else none) client

/-- Every sample that was enqueued is counted as posted, counted as evicted, or still buffered. -/
def Client.Balanced (client : Client Sample) : Prop :=
  client.stats.enqueued = client.stats.samplesPosted + client.stats.evictedForBudget +
    client.session.store.total

variable {c}

namespace BufferStore

variable {b b' : BufferStore Sample}

/-- A method evicts some lines and counts them. -/
def Counts (b b' : BufferStore Sample) : Prop :=
  ∃ k, b'.evictedTotal = b.evictedTotal + k ∧ b'.dropped.length = b.dropped.length + k

/-- One method after another. -/
theorem Counts.trans {b'' : BufferStore Sample} (h : Counts b b') (h' : Counts b' b'') :
    Counts b b'' := by
  obtain ⟨k, htotal, hdropped⟩ := h
  obtain ⟨k', htotal', hdropped'⟩ := h'
  exact ⟨k + k', by omega, by omega⟩

theorem Counts.of_same (htotal : b'.evictedTotal = b.evictedTotal)
    (hdropped : b'.dropped = b.dropped) :
    Counts b b' := ⟨0, htotal, by rw [hdropped]; rfl⟩

/-- Compaction evicts nothing. -/
theorem compact_same (b : BufferStore Sample) :
    b.compact.evictedTotal = b.evictedTotal ∧ b.compact.dropped = b.dropped := by
  unfold compact
  split
  · exact ⟨rfl, rfl⟩
  · split
    · exact ⟨rfl, rfl⟩
    · dsimp only
      split
      · exact ⟨rfl, rfl⟩
      · exact ⟨rfl, rfl⟩

theorem compact_open (b : BufferStore Sample) (hclosed : b.claimOpen = false) :
    b.compact.claimOpen = false := by
  unfold compact
  split
  · exact hclosed
  · split
    · exact hclosed
    · dsimp only
      split
      · exact hclosed
      · exact hclosed

theorem enforce_counts (b : BufferStore Sample) : Counts b b.enforceBudget := by
  unfold enforceBudget
  split
  · exact .of_same rfl rfl
  · refine (Counts.of_same (compact_same b).1 (compact_same b).2).trans ?_
    dsimp only
    split
    · exact .of_same rfl rfl
    · split
      · exact .of_same rfl rfl
      · split
        · exact .of_same rfl rfl
        · exact ⟨_, rfl, List.length_append⟩

theorem fit_counts (b : BufferStore Sample) : Counts b b.fitBudget := by
  unfold fitBudget
  split
  · exact enforce_counts b
  · exact .of_same rfl rfl

/-- A resync evicts nothing. -/
theorem resync_same (b : BufferStore Sample) :
    b.resyncIfRotated.1.evictedTotal = b.evictedTotal ∧ b.resyncIfRotated.1.dropped = b.dropped ∧
      b.resyncIfRotated.1.maxDiskBytes = b.maxDiskBytes := by
  unfold resyncIfRotated
  split
  · split
    · exact ⟨rfl, rfl, rfl⟩
    · exact ⟨rfl, rfl, rfl⟩
  · dsimp only
    split
    · exact ⟨rfl, rfl, rfl⟩
    · exact ⟨rfl, rfl, rfl⟩

theorem append_counts (b : BufferStore Sample) (samples : List Sample) :
    Counts b (b.appendDisk c samples) := by
  obtain ⟨htotal, hdropped, -⟩ := resync_same b
  unfold appendDisk
  refine Counts.trans ?_ (fit_counts _)
  exact .of_same htotal hdropped

theorem spill_counts (b : BufferStore Sample) (protect : ℕ) :
    Counts b (b.spillOverflow c protect).1 ∧
      (b.spillOverflow c protect).1.dropped.length = b.dropped.length +
        if (b.spillOverflow c protect).2.spilled = 0 then 0
        else (b.spillOverflow c protect).2.evicted := by
  unfold spillOverflow
  split
  · exact ⟨.of_same rfl rfl, rfl⟩
  · split
    · exact ⟨.of_same rfl rfl, rfl⟩
    · rename_i hcount
      dsimp only
      have happend := append_counts (c := c) { b with
        memory := b.memory.take protect ++
          (b.memory.drop protect).drop (b.spillCount protect).toNat }
        ((b.memory.drop protect).take (b.spillCount protect).toNat)
      refine ⟨happend, ?_⟩
      obtain ⟨k, htotal, hdropped⟩ := happend
      dsimp only at htotal hdropped
      have hmin : b.spillCount protect ≤ b.memory.length - protect := min_le_right _ _
      have hsome : ((b.memory.drop protect).take (b.spillCount protect).toNat).length ≠ 0 := by
        rw [List.length_take, List.length_drop]
        omega
      rw [if_neg hsome]
      omega

theorem over_budget_fits (limit : Int) (ls : List Bytes) :
    ((overBudget limit ls.flatten.length ls).2.flatten.length : Int) ≤ max limit 0 := by
  induction ls with
  | nil => exact le_max_right _ _
  | cons line rest ih =>
      rw [overBudget]
      have hrest : (line :: rest).flatten.length - line.length = rest.flatten.length := by
        rw [List.flatten_cons, List.length_append, Nat.add_sub_cancel_left]
      split
      · rw [hrest]
        exact ih
      · rename_i hfits
        exact (not_lt.mp hfits).trans (le_max_left _ _)

/-- The unread part of the file is within the budget. -/
def Within (b : BufferStore Sample) : Prop :=
  ((b.diskBytes - b.offset : ℕ) : Int) ≤ max b.maxDiskBytes 0

theorem compact_within (h : b.InSync) : b.compact.maxDiskBytes = b.maxDiskBytes ∧
    b.compact.diskBytes - b.compact.offset = b.diskBytes - b.offset := by
  unfold compact
  split
  · exact ⟨rfl, rfl⟩
  · cases hfile : b.cacheFile with
    | none =>
        unfold InSync at h
        rw [hfile] at h
        exact ⟨rfl, by dsimp only; rw [h.2.2, Nat.zero_sub, Nat.zero_sub]⟩
    | some bytes =>
        unfold InSync at h
        rw [hfile] at h
        have htail : (bytes.drop b.offset).length = b.diskBytes - b.offset := by
          rw [List.length_drop, h.1]
        dsimp only
        split
        · rename_i hnone
          rw [hnone, List.length_nil] at htail
          exact ⟨rfl, htail⟩
        · exact ⟨rfl, htail⟩

theorem fit_same (c : Jsonl Sample) (h : b.InSync) (hwithin : b.Within) :
    b.fitBudget.dropped = b.dropped := by
  unfold fitBudget
  split
  · unfold enforceBudget
    split
    · rfl
    · obtain ⟨hcompact, hoffset⟩ := compact_shrinks (c := c) h
      obtain ⟨hmax, hsize⟩ := compact_within h
      obtain ⟨-, hdropped⟩ := compact_same b
      unfold Within at hwithin
      rw [← hsize, ← hmax, hoffset, Nat.sub_zero] at hwithin
      dsimp only
      cases hfile : b.compact.cacheFile with
      | none => exact hdropped
      | some bytes =>
          have hsync := hcompact.sync
          unfold InSync at hsync
          rw [hfile] at hsync
          dsimp only at hsync ⊢
          split
          · exact hdropped
          · rename_i hover
            -- only the empty file is larger than a budget below zero
            have hempty : bytes = [] := List.length_eq_zero_iff.mp (by omega)
            rw [hempty]
            exact hdropped
  · rfl

theorem fit_within (c : Jsonl Sample) (h : b.InSync) (hclosed : b.claimOpen = false) :
    b.fitBudget.Within := by
  unfold fitBudget
  split
  · unfold enforceBudget
    rw [if_neg (by rw [hclosed]; exact Bool.false_ne_true)]
    obtain ⟨hcompact, hoffset⟩ := compact_shrinks (c := c) h
    dsimp only
    cases hfile : b.compact.cacheFile with
    | none =>
        have hsync := hcompact.sync
        unfold InSync at hsync
        rw [hfile] at hsync
        unfold Within
        rw [hsync.2.2, Nat.zero_sub]
        exact le_max_right _ _
    | some bytes =>
        have hfits := over_budget_fits b.compact.maxDiskBytes (lines bytes)
        rw [flatten_lines] at hfits
        obtain ⟨hparts, -⟩ := lines_over_budget b.compact.maxDiskBytes bytes bytes.length _ rfl
        unfold Within
        dsimp only
        split
        · rename_i hle
          show ((bytes.length - b.compact.offset : ℕ) : Int) ≤ _
          rw [hoffset, Nat.sub_zero]
          exact hle.trans (le_max_left _ _)
        · split
          · rename_i hnone
            rw [hnone, List.nil_append] at hparts
            rw [hparts, flatten_lines] at hfits
            show ((bytes.length - b.compact.offset : ℕ) : Int) ≤ _
            rw [hoffset, Nat.sub_zero]
            exact hfits
          · show (((overBudget b.compact.maxDiskBytes bytes.length (lines bytes)).2.flatten.length -
              b.compact.offset : ℕ) : Int) ≤ _
            rw [hoffset, Nat.sub_zero]
            exact hfits
  · rename_i hfits
    unfold Within
    omega

theorem spill_within (h : b.InSync) (hclosed : b.claimOpen = false) (hspills : b.Spills 0) :
    (b.spillOverflow c 0).1.InSync ∧ (b.spillOverflow c 0).1.Within := by
  obtain ⟨hlong, hcount⟩ := hspills
  unfold spillOverflow
  rw [if_neg (not_le.mpr hlong), if_neg (not_le.mpr hcount)]
  dsimp only
  unfold appendDisk
  rw [resync_memory, h.resync]
  dsimp only
  have hgrown : ∀ samples rest, ({ b with
      memory := rest
      cacheFile := some (b.contents ++ c.write samples)
      diskCount := b.diskCount + samples.length
      diskBytes := b.diskBytes + (c.write samples).length } : BufferStore Sample).InSync := by
    intro samples rest
    unfold InSync at h ⊢
    dsimp only
    unfold contents
    cases hfile : b.cacheFile with
    | none =>
        rw [hfile] at h
        dsimp only at h
        rw [Option.getD_none, List.nil_append]
        omega
    | some bytes =>
        rw [hfile] at h
        dsimp only at h
        rw [Option.getD_some, List.length_append]
        omega
  refine ⟨(fit_shrinks (c := c) (hgrown _ _)).sync, fit_within c (hgrown _ _) hclosed⟩

theorem settle_counts (h : b.InSync) (hclosed : b.claimOpen = false)
    (hsettles : max b.maxMemorySamples 0 < b.memory.length ∨ b.Within) :
    Counts b (b.settle c).1 ∧ (b.settle c).1.dropped.length = b.dropped.length +
      if (b.settle c).2.spilled = 0 then 0 else (b.settle c).2.evicted := by
  obtain ⟨hcounts, hreported⟩ := spill_counts (c := c) b 0
  have hrest : (b.spillOverflow c 0).1.fitBudget.dropped = (b.spillOverflow c 0).1.dropped := by
    by_cases hspills : b.Spills 0
    · obtain ⟨hsync, hwithin⟩ := spill_within (c := c) h hclosed hspills
      exact fit_same c hsync hwithin
    · have hshort : ¬ max b.maxMemorySamples 0 < b.memory.length := by
        intro hlong
        apply hspills
        unfold Spills spillCount
        refine ⟨lt_of_le_of_lt (le_max_left _ _) hlong, lt_min ?_ ?_⟩
        · omega
        · omega
      have hsame : (b.spillOverflow c 0).1 = b := by
        unfold Spills at hspills
        unfold spillOverflow
        split
        · rfl
        · rename_i hlong
          rw [if_pos (not_lt.mp fun hcount => hspills ⟨not_le.mp hlong, hcount⟩)]
      rw [hsame]
      exact fit_same c h (hsettles.resolve_left hshort)
  refine ⟨hcounts.trans (fit_counts _), ?_⟩
  show (b.spillOverflow c 0).1.fitBudget.dropped.length = _
  rw [hrest]
  exact hreported

end BufferStore

open BufferStore

namespace BufferStore

variable {b : BufferStore Sample} {disk : List Sample}

theorem OnDisk.in_sync (h : OnDisk c b disk) : b.InSync := by
  have hsync := (resync_cases b).1
  rwa [h.resync] at hsync

theorem tidy_same (h : b.InSync) (hclosed : b.claimOpen = false) :
    Counts b b.tidy ∧ b.tidy.dropped = b.dropped ∧ b.tidy.claimOpen = false ∧
      (b.Within → b.tidy.Within) := by
  obtain ⟨htotal, hdropped⟩ := compact_same b
  obtain ⟨hmax, hsize⟩ := compact_within h
  unfold tidy
  split
  · exact ⟨.of_same rfl rfl, rfl, hclosed, fun _ => le_max_right _ _⟩
  · split
    · refine ⟨.of_same htotal hdropped, hdropped, compact_open b hclosed, fun hwithin => ?_⟩
      unfold Within at hwithin ⊢
      rwa [hmax, hsize]
    · exact ⟨.of_same rfl rfl, rfl, hclosed, fun hwithin => hwithin⟩

theorem enqueue_counts (b : BufferStore Sample) (sample : Sample) :
    Counts b (b.enqueue c sample).1 ∧ (b.enqueue c sample).1.dropped.length = b.dropped.length +
      if (b.enqueue c sample).2.spilled = 0 then 0 else (b.enqueue c sample).2.evicted := by
  unfold enqueue
  dsimp only
  split
  · split
    · exact ⟨.of_same rfl rfl, rfl⟩
    · exact spill_counts (b.joined sample) b.claimedMem
  · exact spill_counts (b.joined sample) 0

theorem commit_counts (h : OnDisk c b disk) (hfresh : b.claimStale = false) {claim : Claim}
    (hoffset : claim.newOffset = b.offset + (c.write (disk.take claim.diskLines)).length)
    (hsettles : b.Settles claim.mem (if claim.diskLines = 0 then b.offset else claim.newOffset)) :
    Counts b (b.commit c claim).1 ∧ (b.commit c claim).1.dropped.length = b.dropped.length +
      if (b.commit c claim).2.spilled = 0 then 0 else (b.commit c claim).2.evicted := by
  have hreleased : b.released claim =
    (consumeDisk { b with claimStale := false } claim false).consumeMemory
      claim := by
    unfold released
    rw [h.resync]
    dsimp only
    rw [hfresh]
    rfl
  have hbase : OnDisk c { b with claimStale := false } disk := h.congr rfl rfl rfl rfl
  have hsync : (b.released claim).InSync := by
    rw [hreleased]
    exact ((consume_onDisk hbase hoffset).congr rfl rfl rfl rfl :
      OnDisk c ((consumeDisk { b with claimStale := false } claim false).consumeMemory
        claim) _).in_sync
  have hclosed : (b.released claim).claimOpen = false := by
    rw [hreleased]
    rfl
  -- what the claim leaves: the rest of the deque, and the file from the claim's end on
  have hleft : (b.released claim).maxMemorySamples = b.maxMemorySamples ∧
      (b.released claim).memory = b.memory.drop claim.mem ∧
      (b.released claim).maxDiskBytes = b.maxDiskBytes ∧
      (b.released claim).diskBytes = b.diskBytes ∧
      (b.released claim).offset = (if claim.diskLines = 0 then b.offset else claim.newOffset) ∧
      (b.released claim).evictedTotal = b.evictedTotal ∧
        (b.released claim).dropped = b.dropped := by
    rw [hreleased]
    unfold consumeMemory consumeDisk
    by_cases hnone : claim.diskLines = 0
    · rw [if_neg (fun hboth => hboth.1 hnone), if_pos hnone]
      exact ⟨rfl, rfl, rfl, rfl, rfl, rfl, rfl⟩
    · rw [if_pos ⟨hnone, rfl⟩, if_neg hnone]
      exact ⟨rfl, rfl, rfl, rfl, rfl, rfl, rfl⟩
  obtain ⟨hmax, hmemory, hbudget, hbytes, hstart, htotal, hdropped⟩ := hleft
  obtain ⟨hcounts, hsame, hstill, hwithin⟩ := tidy_same hsync hclosed
  have htidy := tidy_shrinks (c := c) hsync
  have hsettled := settle_counts (c := c) htidy.sync hstill (by
    rw [htidy.maxMemorySamples, htidy.memory, hmax, hmemory, List.length_drop]
    refine hsettles.imp_right fun hfits => hwithin ?_
    unfold Within
    rwa [hbudget, hbytes, hstart])
  refine ⟨((Counts.of_same htotal hdropped).trans hcounts).trans hsettled.1, ?_⟩
  rw [← hdropped, ← hsame]
  exact hsettled.2

theorem abort_counts (h : OnDisk c b disk) (hsettles : b.Settles 0 b.offset) :
    Counts b (b.abort c).1 ∧ (b.abort c).1.dropped.length = b.dropped.length +
      if (b.abort c).2.spilled = 0 then 0 else (b.abort c).2.evicted := by
  have hsync : ({ b with claimOpen := false, claimedMem := 0, claimStale := false } :
      BufferStore Sample).InSync := h.in_sync
  have hsettled := settle_counts (c := c) hsync rfl hsettles
  unfold abort
  rw [h.resync]
  exact hsettled

/-- A snapshot evicts nothing. -/
theorem snapshot_same (h : b.InSync) (limit : Int) :
    (b.snapshot c limit).1.evictedTotal = b.evictedTotal ∧
      (b.snapshot c limit).1.dropped = b.dropped := by
  unfold snapshot
  split
  · exact ⟨rfl, rfl⟩
  · obtain ⟨hsame, -⟩ := read_disk_fits (c := c) h limit.toNat
    rw [h.resync]
    dsimp only
    generalize b.readDisk c limit.toNat = read at hsame
    obtain ⟨store, out, diskLines, newOffset⟩ := read
    dsimp only at hsame ⊢
    rw [hsame]
    generalize out ++ List.take _ b.memory = batch
    cases batch with
    | nil => exact ⟨rfl, rfl⟩
    | cons first rest => exact ⟨rfl, rfl⟩

theorem Sheds.legible {b' : BufferStore Sample} {k : ℕ} (h : Sheds c b disk b' k)
    (hlegible : (b.evicted c).length = b.dropped.length) :
    (b'.evicted c).length = b'.dropped.length := by
  rw [h.evicted, h.dropped, List.length_append, List.length_append, List.length_map, hlegible]

end BufferStore

namespace Client

variable {m : Int} {client client' : Client Sample} {disk : List Sample}

/-- The invariant of the statistics. -/
structure Counted (c : Jsonl Sample) (m : Int) (client : Client Sample) (disk : List Sample) :
    Prop where
  sound : Sound c m client.session disk
  enqueued : client.stats.enqueued = client.session.enqueued.length
  posted : client.stats.samplesPosted = client.session.committed.flatten.length
  total : client.session.store.evictedTotal = client.session.store.dropped.length
  evicted : client.stats.evictedForBudget = client.session.store.dropped.length
  legible : (client.session.store.evicted c).length = client.session.store.dropped.length

theorem Counted.balanced (h : Counted c m client disk) : client.Balanced := by
  have haccount := h.sound.account.length_eq
  simp only [List.length_append] at haccount
  unfold Balanced BufferStore.total
  rw [h.sound.onDisk.resync, h.enqueued, h.posted, h.evicted, ← h.legible]
  dsimp only
  rw [h.sound.onDisk.count]
  omega

theorem counted_note {spill : Spill} (hsound : Sound c m client.session disk)
    (henqueued : client.stats.enqueued = client.session.enqueued.length)
    (hposted : client.stats.samplesPosted = client.session.committed.flatten.length)
    (htotal : client.session.store.evictedTotal = client.session.store.dropped.length)
    (hlegible : (client.session.store.evicted c).length = client.session.store.dropped.length)
    (hreported : client.session.store.dropped.length = client.stats.evictedForBudget +
      if spill.spilled = 0 then 0 else spill.evicted) : Counted c m (client.note spill) disk := by
  have hbreakdown : client.session.breakdown = client.session := by
    unfold Session.breakdown
    rw [hsound.onDisk.resync]
  unfold note
  split
  · rename_i hnone
    rw [if_pos hnone] at hreported
    exact ⟨hsound, henqueued, hposted, htotal, hreported.symm, hlegible⟩
  · rename_i hsome
    rw [if_neg hsome] at hreported
    rw [hbreakdown]
    exact ⟨hsound, henqueued, hposted, htotal, hreported.symm, hlegible⟩

theorem Counted.enqueue (h : Counted c m client disk) (sample : Sample) :
    ∃ disk', Counted c m (client.enqueue c sample) disk' := by
  obtain ⟨disk', hsound⟩ := h.sound.enqueue sample
  obtain ⟨⟨k, htotal, hdropped⟩, hreported⟩ := enqueue_counts (c := c) client.session.store sample
  obtain ⟨_, _, _, -, -, hsheds, -⟩ :=
    enqueue_spec h.sound.onDisk h.sound.claimed_zero h.sound.claimed_le sample
  refine ⟨disk', counted_note hsound ?_ h.posted ?_ (hsheds.legible h.legible) ?_⟩
  · show client.stats.enqueued + 1 = (client.session.enqueued ++ [sample]).length
    rw [List.length_append, h.enqueued]
    rfl
  · show (client.session.store.enqueue c sample).1.evictedTotal =
      (client.session.store.enqueue c sample).1.dropped.length
    have := h.total
    omega
  · show (client.session.store.enqueue c sample).1.dropped.length =
      client.stats.evictedForBudget + _
    rw [hreported, h.evicted]

theorem Counted.flush (h : Counted c m client disk) : Counted c m (client.flush c) disk := by
  have hsound := h.sound.snapshot client.batchLimit
  obtain ⟨htotal, hdropped⟩ := snapshot_same (c := c) h.sound.onDisk.in_sync client.batchLimit
  have hstore : (client.session.snapshot c client.batchLimit).store =
      (client.session.store.snapshot c client.batchLimit).1 := rfl
  have hbreakdown : (client.session.snapshot c client.batchLimit).breakdown =
      client.session.snapshot c client.batchLimit := by
    unfold Session.breakdown
    rw [hsound.onDisk.resync]
  have hcounted : ∀ stats : MetricStats, stats.enqueued = client.stats.enqueued →
      stats.samplesPosted = client.stats.samplesPosted →
      stats.evictedForBudget = client.stats.evictedForBudget →
      Counted c m { client with
        session := client.session.snapshot c client.batchLimit
        stats := stats } disk := by
    intro stats henqueued hposted hevicted
    refine ⟨hsound, henqueued.trans h.enqueued, hposted.trans h.posted, ?_, ?_, ?_⟩
    · show (client.session.snapshot c client.batchLimit).store.evictedTotal =
        (client.session.snapshot c client.batchLimit).store.dropped.length
      rw [hstore, htotal, hdropped]
      exact h.total
    · show stats.evictedForBudget =
        (client.session.snapshot c client.batchLimit).store.dropped.length
      rw [hstore, hdropped]
      exact hevicted.trans h.evicted
    · show ((client.session.snapshot c client.batchLimit).store.evicted c).length =
        (client.session.snapshot c client.batchLimit).store.dropped.length
      rw [hstore]
      unfold BufferStore.evicted
      rw [hdropped]
      exact h.legible
  unfold Client.flush
  dsimp only
  split
  · exact hcounted client.stats rfl rfl rfl
  · rw [hbreakdown]
    exact hcounted _ rfl rfl rfl

theorem Counted.posted_step (h : Counted c m client disk) {batch : List Sample} {claim : Claim}
    (hpending : client.session.pending = some (batch, claim))
    (hsettles : client.Settles .posted) :
    ∃ disk', Counted c m (client.posted c batch claim) disk' := by
  have hcovers : Covers c client.session.store disk batch claim := by
    have hclaim := h.sound.claim
    rwa [hpending] at hclaim
  obtain ⟨disk', hsound⟩ := h.sound.commit hpending
  have hstore : client.session.store.Settles claim.mem
      (if claim.diskLines = 0 then client.session.store.offset else claim.newOffset) := by
    unfold Settles settles at hsettles
    rw [hpending] at hsettles
    exact of_decide_eq_true hsettles
  obtain ⟨⟨k, htotal, hdropped⟩, hreported⟩ := commit_counts h.sound.onDisk h.sound.fresh
    hcovers.newOffset hstore
  obtain ⟨_, _, _, -, -, hsheds, -⟩ :=
    commit_spec h.sound.onDisk h.sound.fresh hcovers.newOffset
  refine ⟨disk', counted_note hsound h.enqueued ?_ ?_ (hsheds.legible h.legible) ?_⟩
  · show client.stats.samplesPosted + batch.length =
      (client.session.committed ++ [batch]).flatten.length
    rw [List.flatten_append, List.length_append, List.flatten_singleton, h.posted]
  · show (client.session.store.commit c claim).1.evictedTotal =
      (client.session.store.commit c claim).1.dropped.length
    have := h.total
    omega
  · show (client.session.store.commit c claim).1.dropped.length = client.stats.evictedForBudget + _
    rw [hreported, h.evicted]

theorem Counted.failed_step (h : Counted c m client disk) (hsettles : client.Settles .failed) :
    ∃ disk', Counted c m (client.failed c) disk' := by
  obtain ⟨disk', hsound⟩ := h.sound.abort
  have hstore : client.session.store.Settles 0 client.session.store.offset :=
    of_decide_eq_true hsettles
  obtain ⟨⟨k, htotal, hdropped⟩, hreported⟩ := abort_counts h.sound.onDisk hstore
  obtain ⟨_, _, _, -, -, hsheds, -⟩ := abort_spec h.sound.onDisk h.sound.fresh
  refine ⟨disk', counted_note hsound h.enqueued h.posted ?_ (hsheds.legible h.legible) ?_⟩
  · show (client.session.store.abort c).1.evictedTotal =
      (client.session.store.abort c).1.dropped.length
    have := h.total
    omega
  · show (client.session.store.abort c).1.dropped.length = client.stats.evictedForBudget + _
    rw [hreported, h.evicted]

theorem Counted.step (h : Counted c m client disk) {op : ClientOp Sample}
    (hsettles : client.Settles op) (hstep : client.step c op = some client') :
    ∃ disk', Counted c m client' disk' := by
  cases op with
  | enqueue sample =>
      cases hstep
      exact h.enqueue sample
  | flush =>
      cases hstep
      exact ⟨disk, h.flush⟩
  | posted =>
      obtain ⟨⟨batch, claim⟩, hpending, rfl⟩ := Option.map_eq_some_iff.mp hstep
      exact h.posted_step hpending hsettles
  | failed =>
      obtain ⟨_, -, rfl⟩ := Option.map_eq_some_iff.mp hstep
      exact h.failed_step hsettles

end Client

/-- In every run whose claims settle, the statistics balance in every state: what was enqueued is
what was posted, evicted for the budget and is still buffered. -/
theorem stats_balance (c : Jsonl Sample) (maxDiskBytes maxMemorySamples batchLimit : Int)
    (client : Client Sample)
    (h : Runs c Client.Settles maxDiskBytes maxMemorySamples batchLimit client) :
    client.Balanced := by
  have hcounted : ∃ disk, Client.Counted c maxMemorySamples client disk := by
    induction h with
    | new =>
        refine ⟨[], ⟨rfl, ⟨⟨[], rfl, rfl⟩, rfl, rfl⟩, rfl, ⟨rfl, rfl, Nat.zero_le _⟩,
          ?_⟩, rfl, rfl, rfl,
          rfl, rfl⟩
        exact List.Perm.refl _
    | step _ hsettles hstep ih =>
        obtain ⟨disk, hdisk⟩ := ih
        exact hdisk.step hsettles hstep
  obtain ⟨disk, hdisk⟩ := hcounted
  exact hdisk.balanced

theorem runs_of_plays {check : Client Sample → ClientOp Sample → Bool}
    {allow : Client Sample → ClientOp Sample → Prop}
    (hcheck : ∀ client op, check client op = true → allow client op)
    {maxDiskBytes maxMemorySamples batchLimit : Int} {ops : List (ClientOp Sample)}
    {client : Client Sample}
    (h : (Client.new maxDiskBytes maxMemorySamples batchLimit).plays c check ops = some client) :
    Runs c allow maxDiskBytes maxMemorySamples batchLimit client := by
  induction ops using List.reverseRecOn generalizing client with
  | nil =>
      cases h
      exact .new
  | append_singleton ops op ih =>
      rw [Client.plays, List.foldlM_append] at h
      obtain ⟨middle, hmiddle, hlast⟩ := Option.bind_eq_some_iff.mp h
      obtain ⟨final, hfinal, hsame⟩ := Option.bind_eq_some_iff.mp hlast
      cases hsame
      dsimp only at hfinal
      split at hfinal
      · rename_i hallow
        exact .step (ih hmiddle) (hcheck middle op hallow) hfinal
      · cases hfinal

/-- Two samples spill past a flush of one sample, and the flush is posted. -/
def valveFlush : List (ClientOp (Fin 10)) :=
  [.enqueue 0, .flush, .enqueue 1, .enqueue 2, .posted]

/-- Where the budget has room for both, the statistics balance. -/
theorem valve_flush_balanced : ∃ client, Runs digits Client.Settles 20 1 1 client ∧
    client.Balanced ∧ client.stats.enqueued = 3 ∧ client.stats.samplesPosted = 1 ∧
      client.session.store.total = 2 := by
  have hplays : ((Client.new 20 1 1).plays digits Client.settles valveFlush).any (fun client =>
      client.stats.enqueued = 3 ∧ client.stats.samplesPosted = 1 ∧
        client.session.store.total = 2) = true := by
    decide +kernel
  obtain ⟨client, hclient, hstate⟩ := (Option.any_eq_true _ _).mp hplays
  have hruns : Runs digits Client.Settles 20 1 1 client := runs_of_plays (fun _ _ h => h) hclient
  exact ⟨client, hruns, stats_balance digits 20 1 1 client hruns, by simpa using hstate⟩

/-- Where it has room for one, the commit evicts the other and nobody counts it. -/
theorem valve_flush_unbalanced : ∃ client, Runs digits (fun _ _ => True) 15 1 1 client ∧
    client.session.pending = none ∧ client.stats.enqueued = 3 ∧ client.stats.samplesPosted = 1 ∧
      client.stats.evictedForBudget = 0 ∧ client.session.store.total = 1 ∧ ¬ client.Balanced := by
  have hplays : ((Client.new 15 1 1).plays digits (fun _ _ => true) valveFlush).any (fun client =>
      client.session.pending = none ∧ client.stats.enqueued = 3 ∧ client.stats.samplesPosted = 1 ∧
        client.stats.evictedForBudget = 0 ∧ client.session.store.total = 1) = true := by
    decide +kernel
  obtain ⟨client, hclient, hstate⟩ := (Option.any_eq_true _ _).mp hplays
  have hstate : client.session.pending = none ∧ client.stats.enqueued = 3 ∧
      client.stats.samplesPosted = 1 ∧ client.stats.evictedForBudget = 0 ∧
        client.session.store.total = 1 := by simpa using hstate
  obtain ⟨hidle, henqueued, hposted, hevicted, htotal⟩ := hstate
  refine ⟨client, runs_of_plays (fun _ _ _ => trivial) hclient, hidle, henqueued, hposted, hevicted,
    htotal, fun hbalanced => ?_⟩
  unfold Client.Balanced at hbalanced
  omega

end SystemsManager.Metrics
