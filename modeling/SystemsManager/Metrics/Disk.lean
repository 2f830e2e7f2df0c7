import SystemsManager.Metrics.BufferStore

/-!
# What the cache file holds

`OnDisk c b disk` ties the four disk counters of a store to the samples that are still to be
posted from its file: the file is a consumed part of `_offset` bytes followed by the lines of
`disk`. Each method that touches the file has one lemma here that says which samples the file
holds after it; `Sheds` is the common form, in which the disk budget may have cost the oldest
ones. The proofs about whole sessions use these lemmas and never look at bytes.
-/

namespace SystemsManager.Metrics

open Python

variable {Sample : Type} {c : Jsonl Sample}

namespace Jsonl

/-- A written line is read back. -/
@[simp] theorem read_line (s : Sample) : c.read (c.line s) = some s := by
  obtain ⟨middle, hmiddle⟩ := c.braces s
  have hstrip : stripBytes (c.line s) = c.dumps s := by
    rw [line, hmiddle]
    exact strip_bytes_line (by decide) (by decide)
  have hne : c.dumps s ≠ [] := by simp [hmiddle]
  simp only [read, hstrip, hne, if_false, c.loads_dumps]

/-- Written lines are read back. -/
@[simp] theorem filter_map_read (samples : List Sample) :
    (samples.map c.line).filterMap c.read = samples := by
  induction samples with
  | nil => rfl
  | cons s samples ih => simp [ih]

@[simp] theorem lines_write (samples : List Sample) :
    lines (c.write samples) = samples.map c.line :=
  lines_records c.one_line samples

@[simp] theorem write_nil : c.write [] = [] := rfl

@[simp] theorem write_append (front back : List Sample) :
    c.write (front ++ back) = c.write front ++ c.write back := by
  simp [write]

@[simp] theorem flatten_map_line (samples : List Sample) :
    (samples.map c.line).flatten = c.write samples := by
  simp [write, List.flatMap]

theorem length_le_length_write (samples : List Sample) :
    samples.length ≤ (c.write samples).length := by
  induction samples with
  | nil => simp
  | cons s samples ih =>
      simp only [write, line, List.flatMap_cons, List.length_append, List.length_cons] at ih ⊢
      omega

theorem write_eq_nil {samples : List Sample} : c.write samples = [] ↔ samples = [] := by
  constructor
  · intro h
    have hlength := length_le_length_write (c := c) samples
    rw [h] at hlength
    exact List.length_eq_zero_iff.mp (Nat.le_zero.mp hlength)
  · rintro rfl
    rfl

end Jsonl

namespace BufferStore

variable {b b' : BufferStore Sample} {disk disk' : List Sample}

/-- The file holds these samples, and the counters agree with it. -/
structure OnDisk (c : Jsonl Sample) (b : BufferStore Sample) (disk : List Sample) : Prop where
  file : ∃ consumed, b.contents = consumed ++ c.write disk ∧ b.offset = consumed.length
  count : b.diskCount = disk.length
  bytes : b.diskBytes = b.contents.length

namespace OnDisk

theorem tail (h : OnDisk c b disk) : b.contents.drop b.offset = c.write disk := by
  obtain ⟨consumed, hfile, hoffset⟩ := h.file
  rw [hfile, hoffset, List.drop_left]

theorem unread (h : OnDisk c b disk) : b.unread c = disk := by
  rw [BufferStore.unread, h.tail, Jsonl.lines_write, Jsonl.filter_map_read]

theorem count_lines (h : OnDisk c b disk) : b.diskCount = b.countLinesFrom b.offset := by
  rw [h.count, countLinesFrom, h.tail, Jsonl.lines_write, List.length_map]

/-- The offset is inside the file. -/
theorem offset_le (h : OnDisk c b disk) : b.offset ≤ b.contents.length := by
  obtain ⟨consumed, hfile, hoffset⟩ := h.file
  rw [hfile, hoffset]
  simp

theorem of_write (hfile : b.cacheFile = some (c.write disk)) (hoffset : b.offset = 0)
    (hcount : b.diskCount = disk.length) (hbytes : b.diskBytes = (c.write disk).length) :
    OnDisk c b disk := by
  have hcontents : b.contents = c.write disk := by rw [contents, hfile, Option.getD_some]
  exact ⟨⟨[], hcontents, hoffset⟩, hcount, by rw [hbytes, hcontents]⟩

theorem congr (h : OnDisk c b disk) (hfile : b'.cacheFile = b.cacheFile)
    (hoffset : b'.offset = b.offset) (hcount : b'.diskCount = b.diskCount)
    (hbytes : b'.diskBytes = b.diskBytes) : OnDisk c b' disk := by
  have hcontents : b'.contents = b.contents := by rw [contents, hfile, contents]
  exact ⟨by rw [hcontents, hoffset]; exact h.file, hcount.trans h.count,
    by rw [hbytes, h.bytes, hcontents]⟩

theorem resync (h : OnDisk c b disk) : b.resyncIfRotated = (b, false) := by
  obtain ⟨consumed, hfile, hoffset⟩ := h.file
  have hbytes := h.bytes
  unfold resyncIfRotated
  cases hc : b.cacheFile with
  | none =>
      rw [contents, hc] at hfile hbytes
      have hnil := List.append_eq_nil_iff.mp hfile.symm
      have hdisk := Jsonl.write_eq_nil.mp hnil.2
      have hcount := h.count
      rw [hdisk] at hcount
      rw [hnil.1] at hoffset
      rw [if_pos ⟨hcount, hoffset, hbytes⟩]
  | some bytes =>
      have hle := h.offset_le
      rw [contents, hc] at hbytes hle
      exact if_pos ⟨hbytes.symm, hle⟩

end OnDisk

/-- What a method on the file leaves alone: the deque, the claim and the bounds. -/
structure SameDeque (b b' : BufferStore Sample) : Prop where
  memory : b'.memory = b.memory
  claimOpen : b'.claimOpen = b.claimOpen
  claimedMem : b'.claimedMem = b.claimedMem
  claimStale : b'.claimStale = b.claimStale
  maxMemorySamples : b'.maxMemorySamples = b.maxMemorySamples

theorem SameDeque.refl : SameDeque b b := ⟨rfl, rfl, rfl, rfl, rfl⟩

/-- One method after another. -/
theorem SameDeque.trans {b'' : BufferStore Sample} (h : SameDeque b b') (h' : SameDeque b' b'') :
    SameDeque b b'' :=
  ⟨h'.memory.trans h.memory, h'.claimOpen.trans h.claimOpen, h'.claimedMem.trans h.claimedMem,
    h'.claimStale.trans h.claimStale, h'.maxMemorySamples.trans h.maxMemorySamples⟩

/-- The file holds these samples but for the oldest ones, which the budget may have cost; under
an open claim it costs none and the offset stays. -/
structure Sheds (c : Jsonl Sample) (b : BufferStore Sample) (disk : List Sample)
    (b' : BufferStore Sample) (k : ℕ) : Prop where
  onDisk : OnDisk c b' (disk.drop k)
  dropped : b'.dropped = b.dropped ++ (disk.take k).map c.line
  same : SameDeque b b'
  frozen : b.claimOpen = true → k = 0 ∧ b'.offset = b.offset

/-- A method that sheds nothing. -/
theorem Sheds.of_onDisk (h : OnDisk c b' disk) (hdropped : b'.dropped = b.dropped)
    (hsame : SameDeque b b') (hoffset : b.claimOpen = true → b'.offset = b.offset) :
    Sheds c b disk b' 0 :=
  ⟨by simpa using h, by simpa using hdropped, hsame, fun hopen => ⟨rfl, hoffset hopen⟩⟩

theorem Sheds.trans {b'' : BufferStore Sample} {j k : ℕ} (h : Sheds c b disk b' j)
    (h' : Sheds c b' (disk.drop j) b'' k) : Sheds c b disk b'' (j + k) := by
  refine ⟨?_, ?_, h.same.trans h'.same, ?_⟩
  · rw [← List.drop_drop]
    exact h'.onDisk
  · rw [h'.dropped, h.dropped, List.take_add, List.map_append, List.append_assoc]
  · intro hopen
    obtain ⟨hj, hoffset⟩ := h.frozen hopen
    obtain ⟨hk, hoffset'⟩ := h'.frozen (h.same.claimOpen.trans hopen)
    exact ⟨by omega, hoffset'.trans hoffset⟩

theorem closed_not_open {p : Prop} (h : b.claimOpen = false) : b.claimOpen = true → p := by
  rw [h]
  intro hopen
  cases hopen

theorem unlink_sheds (hclosed : b.claimOpen = false) : Sheds c b [] b.unlinkCache 0 := by
  refine .of_onDisk ⟨⟨[], by simp [unlinkCache, resetDiskState, contents], rfl⟩, rfl, rfl⟩ rfl ?_
    ?_
  · exact ⟨rfl, rfl, rfl, by simp [unlinkCache, resetDiskState, hclosed], rfl⟩
  · exact closed_not_open hclosed

theorem compact_sheds (h : OnDisk c b disk) (hclosed : b.claimOpen = false) :
    Sheds c b disk b.compact 0 := by
  unfold compact
  split
  · exact .of_onDisk h rfl .refl fun _ => rfl
  · have htail := h.tail
    split
    · rename_i hnone
      have hdisk : disk = [] := by
        rw [contents, hnone] at htail
        exact Jsonl.write_eq_nil.mp (by simpa using htail.symm)
      have hcount := h.count
      rw [hdisk] at hcount ⊢
      refine .of_onDisk ⟨⟨[], ?_, rfl⟩, hcount, ?_⟩ rfl ⟨rfl, rfl, rfl, rfl, rfl⟩
        (closed_not_open hclosed)
      · simp [contents, hnone]
      · simp [contents, hnone]
    · rename_i bytes hsome
      rw [contents, hsome, Option.getD_some] at htail
      dsimp only
      rw [htail]
      split
      · rename_i hempty
        have hdisk := Jsonl.write_eq_nil.mp hempty
        rw [hdisk]
        exact unlink_sheds hclosed
      · exact .of_onDisk (.of_write rfl rfl h.count rfl) rfl ⟨rfl, rfl, rfl, rfl, rfl⟩
          (closed_not_open hclosed)

theorem compact_offset (b : BufferStore Sample) : b.compact.offset = 0 := by
  unfold compact
  split
  · assumption
  · split
    · rfl
    · dsimp only
      split <;> rfl

theorem over_budget_eq (limit : Int) (running : ℕ) (disk : List Sample) :
    ∃ k, overBudget limit running (disk.map c.line) =
      ((disk.take k).map c.line, (disk.drop k).map c.line) := by
  induction disk generalizing running with
  | nil => exact ⟨0, rfl⟩
  | cons s disk ih =>
      simp only [List.map_cons, overBudget]
      split
      · obtain ⟨k, hk⟩ := ih (running - (c.line s).length)
        exact ⟨k + 1, by simp [hk]⟩
      · exact ⟨0, by simp⟩

theorem enforce_sheds (h : OnDisk c b disk) : ∃ k, Sheds c b disk b.enforceBudget k := by
  unfold enforceBudget
  cases hopen : b.claimOpen with
  | true => exact ⟨0, .of_onDisk h rfl .refl fun _ => rfl⟩
  | false =>
      rw [if_neg (by simp)]
      dsimp only
      have hcompact := compact_sheds h hopen
      have hdisk : OnDisk c b.compact disk := hcompact.onDisk
      have hclosed : b.compact.claimOpen = false := hcompact.same.claimOpen.trans hopen
      have htail := hdisk.tail
      rw [compact_offset, List.drop_zero] at htail
      split
      · exact ⟨0, hcompact⟩
      · rename_i bytes hsome
        have hbytes : bytes = c.write disk := by
          rw [contents, hsome] at htail
          exact htail
        subst hbytes
        obtain ⟨k, hk⟩ := over_budget_eq (c := c) b.compact.maxDiskBytes (c.write disk).length disk
        rw [Jsonl.lines_write, hk]
        split
        · have hsame : Sheds c b.compact disk
              { b.compact with diskBytes := (c.write disk).length } 0 :=
            .of_onDisk (.of_write hsome (compact_offset b) hdisk.count rfl) rfl
              ⟨rfl, rfl, rfl, rfl, rfl⟩ (closed_not_open hclosed)
          exact ⟨_, hcompact.trans hsame⟩
        · dsimp only
          rw [Jsonl.flatten_map_line]
          split
          · rename_i hnone
            have htake : disk.take k = [] := by simpa using hnone
            have hrest : disk.drop k = disk := by
              have := List.take_append_drop k disk
              rwa [htake, List.nil_append] at this
            rw [hrest]
            have hsame : Sheds c b.compact disk
                { b.compact with
                  diskBytes := (c.write disk).length
                  cacheFile := some (c.write disk) } 0 :=
              .of_onDisk (.of_write rfl (compact_offset b) hdisk.count rfl) rfl
                ⟨rfl, rfl, rfl, rfl, rfl⟩ (closed_not_open hclosed)
            exact ⟨_, hcompact.trans hsame⟩
          · refine ⟨_, hcompact.trans (k := k) ⟨.of_write rfl (compact_offset b) ?_ rfl, rfl,
              ⟨rfl, rfl, rfl, rfl, rfl⟩, closed_not_open hclosed⟩⟩
            simp only [hdisk.count, List.length_map, List.length_take, List.length_drop]
            omega

theorem fit_sheds (h : OnDisk c b disk) : ∃ k, Sheds c b disk b.fitBudget k := by
  unfold fitBudget
  split
  · exact enforce_sheds h
  · exact ⟨0, .of_onDisk h rfl .refl fun _ => rfl⟩

/-- Samples go to the end of the file. -/
theorem append_sheds (h : OnDisk c b disk) (samples : List Sample) :
    ∃ k, Sheds c b (disk ++ samples) (b.appendDisk c samples) k := by
  unfold appendDisk
  rw [h.resync]
  have happend : Sheds c b (disk ++ samples) { b with
      cacheFile := some (b.contents ++ c.write samples)
      diskCount := b.diskCount + samples.length
      diskBytes := b.diskBytes + (c.write samples).length } 0 := by
    obtain ⟨consumed, hfile, hoffset⟩ := h.file
    refine .of_onDisk ⟨⟨consumed, ?_, hoffset⟩, ?_, ?_⟩ rfl ⟨rfl, rfl, rfl, rfl, rfl⟩
      fun _ => rfl
    · simp [contents] at hfile ⊢
      simp [hfile]
    · simp [h.count]
    · simp [contents, h.bytes]
  obtain ⟨k, hk⟩ := fit_sheds happend.onDisk
  exact ⟨0 + k, happend.trans hk⟩

end BufferStore

end SystemsManager.Metrics
