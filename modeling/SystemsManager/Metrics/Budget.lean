import SystemsManager.Metrics.Disk

/-!
# The disk budget

`_enforce_budget` waits while a claim is open, since the claim counts the lines of the file, and the
file may then grow past its budget. Read `disk_within_budget`: whenever no claim is open the file
keeps to it.
-/

namespace SystemsManager.Metrics

open Python

variable {Sample : Type} {c : Jsonl Sample} {maxDiskBytes : Int}

namespace BufferStore

variable {b b' : BufferStore Sample}

/-- The size that the store goes by is that of the file. -/
structure Counted (maxDiskBytes : Int) (b : BufferStore Sample) : Prop where
  bytes : b.diskBytes = b.contents.length
  limit : b.maxDiskBytes = maxDiskBytes

/-- What holds between two calls: unless a claim is open the file keeps to its budget. -/
structure Kept (maxDiskBytes : Int) (b : BufferStore Sample) : Prop extends
    Counted maxDiskBytes b where
  fits : b.claimOpen = false → (b.contents.length : Int) ≤ max 0 maxDiskBytes

theorem over_budget_length (limit : Int) (lines : List Bytes) :
    ((overBudget limit lines.flatten.length lines).2.flatten.length : Int) ≤ max 0 limit := by
  induction lines with
  | nil => exact le_max_left ..
  | cons line rest ih =>
      rw [overBudget]
      split
      · rw [List.flatten_cons, List.length_append, Nat.add_sub_cancel_left]
        exact ih
      · rename_i hfits
        exact le_trans (not_lt.mp hfits) (le_max_right ..)

theorem over_budget_rest {limit : Int} {n : ℕ} {lines : List Bytes}
    (h : (overBudget limit n lines).1 = []) : (overBudget limit n lines).2 = lines := by
  cases lines with
  | nil => rfl
  | cons line rest =>
      rw [overBudget] at h ⊢
      split at h
      · cases h
      · rename_i hfits
        rw [if_neg hfits]

/-- A resync reads the size of the file and leaves the file alone. -/
theorem resync_counted (h : b.maxDiskBytes = maxDiskBytes) :
    Counted maxDiskBytes b.resyncIfRotated.1 ∧ b.resyncIfRotated.1.contents = b.contents := by
  unfold resyncIfRotated
  split
  · rename_i hfile
    split
    · rename_i hzero
      exact ⟨⟨by simp [contents, hfile, hzero.2.2], h⟩, rfl⟩
    · exact ⟨⟨by simp [contents, resetDiskState, hfile], h⟩, rfl⟩
  · rename_i bytes hfile
    dsimp only
    split
    · rename_i hsame
      exact ⟨⟨by simp [contents, hfile, hsame.1.symm], h⟩, rfl⟩
    · exact ⟨⟨by simp [contents, hfile], h⟩, rfl⟩

theorem compact_counted (h : Counted maxDiskBytes b) : Counted maxDiskBytes b.compact := by
  unfold compact
  split
  · exact h
  · split
    · rename_i hfile
      exact ⟨by simp [contents, hfile], h.limit⟩
    · dsimp only
      split
      · exact ⟨rfl, h.limit⟩
      · exact ⟨rfl, h.limit⟩

theorem tidy_counted (h : Counted maxDiskBytes b) : Counted maxDiskBytes b.tidy := by
  unfold tidy
  split
  · exact ⟨rfl, h.limit⟩
  · split
    · exact compact_counted h
    · exact h

theorem enforce_kept (h : Counted maxDiskBytes b) : Kept maxDiskBytes b.enforceBudget := by
  unfold enforceBudget
  split
  · rename_i hopen
    refine ⟨h, fun hclosed => ?_⟩
    rw [hopen] at hclosed
    cases hclosed
  · have hlimit := (compact_counted h).limit
    dsimp only
    split
    · rename_i hfile
      exact ⟨compact_counted h, fun _ => by simp [contents, hfile]⟩
    · rename_i bytes hfile
      split
      · rename_i hfits
        refine ⟨⟨by simp [contents, hfile], hlimit⟩, fun _ => ?_⟩
        simp only [contents, hfile, Option.getD_some]
        exact le_trans hfits (hlimit ▸ le_max_right ..)
      · have hlines : (lines bytes).flatten = bytes := flatten_lines bytes
        have hrest := over_budget_length b.compact.maxDiskBytes (lines bytes)
        rw [hlines] at hrest
        have hmax : max 0 b.compact.maxDiskBytes = max 0 maxDiskBytes := by rw [hlimit]
        split
        · rename_i hnone
          exact ⟨⟨by simp [contents, over_budget_rest hnone, hlines], hlimit⟩,
            fun _ => hrest.trans_eq hmax⟩
        · exact ⟨⟨rfl, hlimit⟩, fun _ => hrest.trans_eq hmax⟩

theorem fit_kept (h : Counted maxDiskBytes b) : Kept maxDiskBytes b.fitBudget := by
  unfold fitBudget
  split
  · exact enforce_kept h
  · rename_i hfits
    refine ⟨h, fun _ => ?_⟩
    rw [← h.bytes, ← h.limit]
    exact le_trans (not_lt.mp hfits) (le_max_right ..)

theorem append_kept (h : b.maxDiskBytes = maxDiskBytes) (samples : List Sample) :
    Kept maxDiskBytes (b.appendDisk c samples) := by
  obtain ⟨hbytes, hlimit⟩ := (resync_counted h).1
  exact fit_kept ⟨by simp [contents, hbytes], hlimit⟩

/-- A spill appends to the file or leaves the store as it is. -/
theorem spill_cases {P : BufferStore Sample → Prop} (protect : ℕ) (h : P b)
    (happend : ∀ (b' : BufferStore Sample) samples, b'.maxDiskBytes = b.maxDiskBytes →
      P (b'.appendDisk c samples)) :
    P (b.spillOverflow c protect).1 := by
  unfold spillOverflow
  split
  · exact h
  · split
    · exact h
    · exact happend _ _ rfl

theorem settle_kept (h : Counted maxDiskBytes b) : Kept maxDiskBytes (b.settle c).1 :=
  fit_kept (spill_cases 0 h fun _ samples hsame =>
    (append_kept (hsame.trans h.limit) samples).toCounted)

theorem enqueue_kept (h : Kept maxDiskBytes b) (sample : Sample) :
    Kept maxDiskBytes (b.enqueue c sample).1 := by
  have hmore : Kept maxDiskBytes { b with memory := b.memory ++ [sample] } :=
    ⟨⟨h.bytes, h.limit⟩, h.fits⟩
  have hspill : ∀ protect,
      Kept maxDiskBytes (spillOverflow c { b with memory := b.memory ++ [sample] } protect).1 :=
    fun protect => spill_cases protect hmore fun _ samples hsame =>
      append_kept (hsame.trans hmore.limit) samples
  unfold enqueue
  dsimp only
  split
  · split
    · exact hmore
    · exact hspill _
  · exact hspill 0

theorem snapshot_kept (h : Kept maxDiskBytes b) (limit : Int) :
    Kept maxDiskBytes (b.snapshot c limit).1 := by
  unfold snapshot
  split
  · exact h
  · rename_i hlimit
    have hfits := h.fits (Bool.eq_false_iff.mpr fun hclaim => hlimit (.inr hclaim))
    obtain ⟨hcounted, hcontents⟩ := resync_counted h.limit
    have hread : Counted maxDiskBytes (b.resyncIfRotated.1.readDisk c limit.toNat).1 ∧
        (b.resyncIfRotated.1.readDisk c limit.toNat).1.contents = b.contents := by
      unfold readDisk
      split
      · split
        · rename_i hfile
          exact ⟨⟨by simp [contents, resetDiskState, hfile], hcounted.limit⟩, hcontents⟩
        · exact ⟨hcounted, hcontents⟩
      · exact ⟨hcounted, hcontents⟩
    obtain ⟨hcounted, hsame⟩ := hread
    rw [← hsame] at hfits
    dsimp only
    unfold openClaim
    split
    · exact ⟨hcounted, fun _ => hfits⟩
    · exact ⟨⟨hcounted.bytes, hcounted.limit⟩, fun _ => hfits⟩

theorem commit_kept (h : Kept maxDiskBytes b) (claim : Claim) :
    Kept maxDiskBytes (b.commit c claim).1 := by
  have hresync := (resync_counted h.limit).1
  unfold commit
  dsimp only
  refine settle_kept (tidy_counted ?_)
  unfold consumeDisk
  split
  · exact ⟨hresync.bytes, hresync.limit⟩
  · exact ⟨hresync.bytes, hresync.limit⟩

theorem abort_kept (h : Kept maxDiskBytes b) : Kept maxDiskBytes (b.abort c).1 := by
  obtain ⟨hbytes, hlimit⟩ := (resync_counted h.limit).1
  exact settle_kept ⟨hbytes, hlimit⟩

end BufferStore

variable {s s' : Session Sample}

theorem Session.step_kept {op : Call Sample} (h : s.store.Kept maxDiskBytes)
    (hstep : s.step c op = some s') : s'.store.Kept maxDiskBytes := by
  cases op with
  | enqueue sample =>
      cases hstep
      exact BufferStore.enqueue_kept h sample
  | snapshot limit =>
      cases hstep
      exact BufferStore.snapshot_kept h limit
  | commit =>
      obtain ⟨pending, -, rfl⟩ := Option.map_eq_some_iff.mp hstep
      exact BufferStore.commit_kept h pending.2
  | abort =>
      obtain ⟨pending, -, rfl⟩ := Option.map_eq_some_iff.mp hstep
      exact BufferStore.abort_kept h

/-- Whatever was enqueued, posted and put back before, the cache file is no larger than its budget
when no claim is open. -/
theorem disk_within_budget {maxMemorySamples : Int}
    (h : Reached c (fun _ _ => True) maxDiskBytes maxMemorySamples s)
    (hclosed : s.store.claimOpen = false) :
    (s.store.contents.length : Int) ≤ max 0 maxDiskBytes := by
  have hkept : s.store.Kept maxDiskBytes := by
    clear hclosed
    induction h with
    | new => exact ⟨⟨rfl, rfl⟩, fun _ => le_max_left ..⟩
    | call _ _ hstep ih => exact Session.step_kept ih hstep
  exact hkept.fits hclosed

/-- Two samples for a budget that has room for one. -/
theorem disk_within_budget_two :
    ∃ s : Session (Fin 10), s.enqueued = [3, 5] ∧ (s.store.contents.length : Int) ≤ max 0 15 := by
  have hplays : ((Session.new 15 0).plays digits (fun _ _ => true) [.enqueue 3, .enqueue 5]).any
      (fun s => s.enqueued = [3, 5] ∧ s.store.claimOpen = false) = true := by
    decide +kernel
  obtain ⟨s, hs, hstate⟩ := (Option.any_eq_true _ _).mp hplays
  have hreached : Reached digits (fun _ _ => True) 15 0 s :=
    reached_of_plays (fun _ _ _ => trivial) hs
  have hstate : s.enqueued = [3, 5] ∧ s.store.claimOpen = false := by simpa using hstate
  exact ⟨s, hstate.1, disk_within_budget hreached hstate.2⟩

end SystemsManager.Metrics
