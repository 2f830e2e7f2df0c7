import SystemsManager.Metrics.Disk

/-!
# Spills whose write fails

`_append_disk` reports an `OSError` and says that the samples remain in memory, but
`_spill_overflow` has popped them from the deque before it writes them. Here the methods that spill
are stated for what their append does, so that a run may mix appends that work with appends that
fail; the cache file may also be replaced from outside between two calls. Read
`failed_spill_keeps_iff`: which of the calls with a failing append keep what was buffered.
-/

namespace SystemsManager.Metrics

open Python

variable {Sample : Type} (c : Jsonl Sample)

namespace BufferStore

section Methods

variable (b : BufferStore Sample) (append : BufferStore Sample → List Sample → BufferStore Sample)

/-- `_append_disk` where the file cannot be opened or written: nothing is written. -/
def appendFails (_ : List Sample) : BufferStore Sample := b.resyncIfRotated.1

/-- `_append_disk`, failing or not. -/
def appendMay (fails : Bool) (samples : List Sample) : BufferStore Sample :=
  if fails then b.appendFails samples else b.appendDisk c samples

/-- `_spill_overflow`: what it takes is out of the deque before it is appended. -/
def spillOverflowBy (protect : ℕ) : BufferStore Sample × Spill :=
  if (b.memory.length : Int) ≤ b.maxMemorySamples then (b, .none)
  else if b.spillCount protect ≤ 0 then (b, .none)
  else
    let wasFirst := b.diskCount = 0 ∧ b.offset = 0
    let head := b.memory.take protect
    let spilled := (b.memory.drop protect).take (b.spillCount protect).toNat
    let rest := (b.memory.drop protect).drop (b.spillCount protect).toNat
    let after := append { b with memory := head ++ rest } spilled
    (after, ⟨spilled.length, wasFirst, after.evictedTotal - b.evictedTotal⟩)

/-- `self._memory.append(sample)` -/
def joined (sample : Sample) : BufferStore Sample := { b with memory := b.memory ++ [sample] }

/-- `enqueue` -/
def enqueueBy (sample : Sample) : BufferStore Sample × Spill :=
  let b := b.joined sample
  if b.claimOpen then
    if (b.memory.length : Int) ≤ b.maxMemorySamples * 2 then (b, .none)
    else b.spillOverflowBy append b.claimedMem
  else b.spillOverflowBy append 0

/-- The end of `commit` and of `abort`. -/
def settleBy : BufferStore Sample × Spill :=
  let (b, spill) := b.spillOverflowBy append 0
  (b.fitBudget, spill)

/-- A commit up to the point where what the claim covers is consumed. -/
def released (claim : Claim) : BufferStore Sample :=
  let (b, rotated) := b.resyncIfRotated
  let stale := b.claimStale || rotated
  (consumeDisk { b with claimStale := false } claim stale).consumeMemory claim

/-- `commit` -/
def commitBy (claim : Claim) : BufferStore Sample × Spill := (b.released claim).tidy.settleBy append

/-- An abort up to the point where the claim is closed. -/
def closed : BufferStore Sample :=
  { b.resyncIfRotated.1 with claimOpen := false, claimedMem := 0, claimStale := false }

/-- `abort` -/
def abortBy : BufferStore Sample × Spill := b.closed.settleBy append

/-- The store on a cache file that is there already. -/
def opened (maxDiskBytes maxMemorySamples : Int) (file : Option Bytes) : BufferStore Sample :=
  { (new maxDiskBytes maxMemorySamples : BufferStore Sample) with
    cacheFile := file
    diskCount := (lines (file.getD [])).length
    diskBytes := (file.getD []).length }

/-- The front of the deque that an enqueue protects. -/
def front : ℕ := if b.claimOpen then b.claimedMem else 0

/-- `_spill_overflow` comes to its append. -/
def Spills (protect : ℕ) : Prop :=
  b.maxMemorySamples < b.memory.length ∧ 0 < b.spillCount protect

instance (protect : ℕ) : Decidable (b.Spills protect) := inferInstanceAs (Decidable (_ ∧ _))

/-- What the store holds, once it has looked at its file. -/
def seen : List Sample := b.resyncIfRotated.1.buffered c

end Methods

end BufferStore

/-- The store and the claim that its owner holds. -/
structure Owner (Sample : Type) where
  store : BufferStore Sample
  claim : Option Claim

/-- What happens to a store: a call whose appends work or fail, or somebody else writes or removes
the cache file. -/
inductive Event (Sample : Type) where
  | call (op : Call Sample) (fails : Bool)
  | replaced (file : Option Bytes)

namespace Owner

/-- A call; `none` where there is no claim to close. -/
def call (s : Owner Sample) (fails : Bool) : Call Sample → Option (Owner Sample)
  | .enqueue sample =>
      some { s with store := (s.store.enqueueBy (fun b => b.appendMay c fails) sample).1 }
  | .snapshot limit =>
      let (store, batch, claim) := s.store.snapshot c limit
      some ⟨store, match batch with
        | [] => s.claim
        | _ :: _ => some claim⟩
  | .commit => s.claim.map fun claim =>
      ⟨(s.store.commitBy (fun b => b.appendMay c fails) claim).1, none⟩
  | .abort => s.claim.map fun _ => ⟨(s.store.abortBy fun b => b.appendMay c fails).1, none⟩

/-- One event. -/
def step (s : Owner Sample) : Event Sample → Option (Owner Sample)
  | .call op fails => s.call c fails op
  | .replaced file => some { s with store := { s.store with cacheFile := file } }

/-- The call comes to an append. -/
def Appends (s : Owner Sample) : Call Sample → Prop
  | .enqueue sample =>
      (s.store.claimOpen = true → s.store.maxMemorySamples * 2 < s.store.memory.length + 1) ∧
        (s.store.joined sample).Spills s.store.front
  | .snapshot _ => False
  | .commit => ∃ claim, s.claim = some claim ∧ (s.store.released claim).Spills 0
  | .abort => s.claim ≠ none ∧ s.store.Spills 0

/-- The samples that were buffered before a call and are not consumed by it. -/
def remaining (s : Owner Sample) : Call Sample → List Sample
  | .commit => match s.claim with
      | some claim => (s.store.released claim).buffered c
      | none => s.store.seen c
  | _ => s.store.seen c

/-- A call whose append fails keeps them, in their order. -/
def Keeps (s : Owner Sample) (op : Call Sample) : Prop :=
  ∀ s', s.call c true op = some s' → (s.remaining c op).Sublist (s'.store.seen c)

end Owner

/-- The states of a store that was opened on some cache file, after any events. -/
inductive Used (maxDiskBytes maxMemorySamples : Int) : Owner Sample → Prop where
  | opened (file : Option Bytes) :
      Used maxDiskBytes maxMemorySamples ⟨.opened maxDiskBytes maxMemorySamples file, none⟩
  | step {s s' : Owner Sample} {event : Event Sample} :
      Used maxDiskBytes maxMemorySamples s → s.step c event = some s' →
      Used maxDiskBytes maxMemorySamples s'

variable {c}

theorem lines_rest {bytes line : Bytes} {rest : List Bytes} (h : lines bytes = line :: rest) :
    lines rest.flatten = rest := by
  induction bytes generalizing line rest with
  | nil => cases h
  | cons b bytes ih =>
      rw [lines] at h
      split at h
      · cases h
        rw [flatten_lines]
      · cases hmore : lines bytes with
        | nil =>
            rw [hmore] at h
            cases h
            rfl
        | cons next more =>
            rw [hmore] at h
            cases h
            exact ih hmore

namespace BufferStore

variable {b : BufferStore Sample}

/-- The counters agree with the size of the file. -/
def InSync (b : BufferStore Sample) : Prop := match b.cacheFile with
  | none => b.diskCount = 0 ∧ b.offset = 0 ∧ b.diskBytes = 0
  | some bytes => bytes.length = b.diskBytes ∧ b.offset ≤ bytes.length

theorem InSync.resync (h : b.InSync) : b.resyncIfRotated = (b, false) := by
  unfold InSync at h
  unfold resyncIfRotated
  cases hfile : b.cacheFile with
  | none =>
      rw [hfile] at h
      exact if_pos h
  | some bytes =>
      rw [hfile] at h
      exact if_pos h

theorem resync_cases (b : BufferStore Sample) : b.resyncIfRotated.1.InSync ∧
    b.resyncIfRotated.1.memory = b.memory ∧
    b.resyncIfRotated.1.maxMemorySamples = b.maxMemorySamples ∧
    b.resyncIfRotated.1.claimOpen = b.claimOpen ∧
    (b.resyncIfRotated = (b, false) ∨
      b.resyncIfRotated.2 = true ∧
      b.resyncIfRotated.1.claimStale = (b.claimOpen || b.claimStale)) := by
  by_cases hsync : b.InSync
  · rw [hsync.resync]
    exact ⟨hsync, rfl, rfl, rfl, Or.inl rfl⟩
  · unfold InSync at hsync
    unfold resyncIfRotated
    cases hfile : b.cacheFile with
    | none =>
        rw [hfile] at hsync
        dsimp only at hsync ⊢
        rw [if_neg hsync]
        refine ⟨?_, rfl, rfl, rfl, Or.inr ⟨rfl, rfl⟩⟩
        unfold InSync
        show match b.cacheFile with
          | none => _
          | some _ => _
        rw [hfile]
        exact ⟨rfl, rfl, rfl⟩
    | some bytes =>
        rw [hfile] at hsync
        dsimp only at hsync ⊢
        rw [if_neg hsync]
        refine ⟨?_, rfl, rfl, rfl, Or.inr ⟨rfl, rfl⟩⟩
        refine ⟨rfl, ?_⟩
        show (if bytes.length < b.offset ∨ bytes.length < b.diskBytes then 0 else b.offset) ≤
          bytes.length
        split
        · exact Nat.zero_le _
        · rename_i hshrunk
          omega

theorem InSync.seen (h : b.InSync) : b.seen c = b.buffered c := by
  unfold BufferStore.seen
  rw [h.resync]

theorem unread_congr {b' : BufferStore Sample} (hfile : b'.cacheFile = b.cacheFile)
    (hoffset : b'.offset = b.offset) : b'.unread c = b.unread c := by
  unfold unread contents
  rw [hfile, hoffset]

/-- A step of the store on its file that gains no samples: the deque stays, and there are not more
samples to be read than before. -/
structure Shrinks (c : Jsonl Sample) (b b' : BufferStore Sample) : Prop where
  sync : b'.InSync
  memory : b'.memory = b.memory
  maxMemorySamples : b'.maxMemorySamples = b.maxMemorySamples
  fewer : (b'.unread c).length ≤ (b.unread c).length

/-- One step after another. -/
theorem Shrinks.trans {b' b'' : BufferStore Sample} (h : Shrinks c b b') (h' : Shrinks c b' b'') :
    Shrinks c b b'' :=
  ⟨h'.sync, h'.memory.trans h.memory, h'.maxMemorySamples.trans h.maxMemorySamples,
    h'.fewer.trans h.fewer⟩

theorem Shrinks.refl (h : b.InSync) : Shrinks c b b := ⟨h, rfl, rfl, le_refl _⟩

theorem unlink_shrinks (c : Jsonl Sample) (b : BufferStore Sample) : Shrinks c b b.unlinkCache := by
  refine ⟨⟨rfl, rfl, rfl⟩, rfl, rfl, ?_⟩
  exact Nat.zero_le _

theorem compact_shrinks (h : b.InSync) : Shrinks c b b.compact ∧ b.compact.offset = 0 := by
  unfold compact
  split
  · rename_i hzero
    exact ⟨.refl h, hzero⟩
  · rename_i hoffset
    cases hfile : b.cacheFile with
    | none =>
        unfold InSync at h
        rw [hfile] at h
        exact absurd h.2.1 hoffset
    | some bytes =>
        dsimp only
        split
        · exact ⟨unlink_shrinks c b, rfl⟩
        · refine ⟨⟨⟨rfl, Nat.zero_le _⟩, rfl, rfl, ?_⟩, rfl⟩
          show ((lines ((bytes.drop b.offset).drop 0)).filterMap c.read).length ≤ _
          unfold unread contents
          rw [hfile, List.drop_zero]
          exact le_refl _

theorem lines_over_budget (limit : Int) (bytes : Bytes) (running : ℕ) (ls : List Bytes)
    (hlines : lines bytes = ls) :
    (overBudget limit running ls).1 ++ (overBudget limit running ls).2 = ls ∧
      lines (overBudget limit running ls).2.flatten = (overBudget limit running ls).2 := by
  induction ls generalizing bytes running with
  | nil => exact ⟨rfl, rfl⟩
  | cons line rest ih =>
      rw [overBudget]
      split
      · obtain ⟨hparts, hrest⟩ := ih rest.flatten (running - line.length) (lines_rest hlines)
        exact ⟨congrArg _ hparts, hrest⟩
      · refine ⟨rfl, ?_⟩
        show lines (line :: rest).flatten = line :: rest
        rw [← hlines, flatten_lines]

theorem enforce_shrinks (h : b.InSync) : Shrinks c b b.enforceBudget := by
  unfold enforceBudget
  split
  · exact .refl h
  · obtain ⟨hcompact, hoffset⟩ := compact_shrinks (c := c) h
    dsimp only
    cases hfile : b.compact.cacheFile with
    | none => exact hcompact
    | some bytes =>
        have hunread : b.compact.unread c = (lines bytes).filterMap c.read := by
          unfold unread contents
          rw [hfile, hoffset, Option.getD_some, List.drop_zero]
        obtain ⟨hparts, hrest⟩ := lines_over_budget b.compact.maxDiskBytes bytes bytes.length _ rfl
        -- whatever the counters say, a file of the lines that are left has no more samples
        have hfewer : ∀ b' : BufferStore Sample, b'.offset = 0 → b'.cacheFile =
            some (overBudget b.compact.maxDiskBytes bytes.length (lines bytes)).2.flatten →
            (b'.unread c).length ≤ (b.compact.unread c).length := by
          intro b' hzero hwritten
          rw [hunread]
          unfold unread contents
          rw [hwritten, hzero, Option.getD_some, List.drop_zero, hrest]
          conv_rhs => rw [← hparts, List.filterMap_append, List.length_append]
          exact Nat.le_add_left _ _
        dsimp only
        split
        · refine hcompact.trans ⟨⟨rfl, hoffset ▸ Nat.zero_le _⟩, rfl, rfl, ?_⟩
          exact le_of_eq (congrArg _ (unread_congr hfile.symm rfl))
        · split
          · rename_i hnone
            refine hcompact.trans ⟨⟨?_, hoffset ▸ Nat.zero_le _⟩, rfl, rfl, hfewer _ hoffset rfl⟩
            rw [hnone, List.nil_append] at hparts
            show _ = bytes.length
            rw [hparts, flatten_lines]
          · exact hcompact.trans ⟨⟨rfl, hoffset ▸ Nat.zero_le _⟩, rfl, rfl, hfewer _ hoffset rfl⟩

theorem fit_shrinks (h : b.InSync) : Shrinks c b b.fitBudget := by
  unfold fitBudget
  split
  · exact enforce_shrinks h
  · exact .refl h

theorem tidy_shrinks (h : b.InSync) : Shrinks c b b.tidy := by
  unfold tidy
  split
  · exact unlink_shrinks c b
  · split
    · exact (compact_shrinks h).1
    · exact .refl h

theorem resync_memory (b : BufferStore Sample) (memory : List Sample) :
    ({ b with memory := memory } : BufferStore Sample).resyncIfRotated =
      ({ b.resyncIfRotated.1 with memory := memory }, b.resyncIfRotated.2) := by
  obtain ⟨_, _, _, _, _, _, _, _, _, _, file, _⟩ := b
  unfold resyncIfRotated
  cases file with
  | none =>
      dsimp only
      split
      · rfl
      · rfl
  | some bytes =>
      dsimp only
      split
      · rfl
      · rfl

/-- The deque without the samples that a spill takes. -/
def spilt (b : BufferStore Sample) (protect : ℕ) : List Sample :=
  b.memory.take protect ++ (b.memory.drop protect).drop (b.spillCount protect).toNat

theorem spill_fails {protect : ℕ} (h : b.Spills protect) :
    (b.spillOverflowBy appendFails protect).1 =
      { b.resyncIfRotated.1 with memory := b.spilt protect } := by
  obtain ⟨hlong, hcount⟩ := h
  unfold spillOverflowBy
  rw [if_neg (not_le.mpr hlong), if_neg (not_le.mpr hcount)]
  exact congrArg Prod.fst (resync_memory b _)

theorem length_spilt {protect : ℕ} (h : b.Spills protect) :
    ((b.spilt protect).length : Int) = b.memory.length - b.spillCount protect ∧
      b.spillCount protect ≤ b.memory.length - protect := by
  obtain ⟨-, hcount⟩ := h
  have hmin : b.spillCount protect ≤ b.memory.length - protect := min_le_right _ _
  refine ⟨?_, hmin⟩
  unfold spilt
  rw [List.length_append, List.length_take, List.length_drop, List.length_drop]
  omega

/-- A claim closes on a store in step, and the spill that waited for it fails: there are fewer
samples than before. -/
theorem settle_fails (hsync : b.InSync) (hspills : b.Spills 0) :
    ((b.settleBy appendFails).1.seen c).length < (b.buffered c).length := by
  have hspill := spill_fails hspills
  rw [hsync.resync] at hspill
  have hsettle : (b.settleBy appendFails).1 =
      ({ b with memory := b.spilt 0 } : BufferStore Sample).fitBudget := by
    rw [← hspill]
    rfl
  have hleft : ({ b with memory := b.spilt 0 } : BufferStore Sample).InSync := hsync
  have hfit := fit_shrinks (c := c) hleft
  have hfewer : (({ b with memory := b.spilt 0 } : BufferStore Sample).fitBudget.unread c).length ≤
      (b.unread c).length := hfit.fewer
  have hmemory : ({ b with memory := b.spilt 0 } :
    BufferStore Sample).fitBudget.memory = b.spilt 0 :=
    hfit.memory
  obtain ⟨hlength, -⟩ := length_spilt hspills
  have hcount := hspills.2
  rw [hsettle, hfit.sync.seen]
  unfold buffered
  rw [List.length_append, List.length_append, hmemory]
  omega

/-- A claim that was not made stale ends inside the file as the store knows it. -/
def Fits (b : BufferStore Sample) (claim : Claim) : Prop :=
  b.claimOpen = true ∧ (b.claimStale = true ∨ claim.newOffset ≤ b.diskBytes)

theorem Fits.resync {claim : Claim} (h : b.Fits claim) : b.resyncIfRotated.1.Fits claim := by
  obtain ⟨-, -, -, hopen, hcases⟩ := resync_cases b
  rcases hcases with hsame | ⟨-, hstale⟩
  · rw [hsame]
    exact h
  · refine ⟨hopen.trans h.1, Or.inl ?_⟩
    rw [hstale, h.1, Bool.true_or]

theorem Fits.append {claim : Claim} (h : b.Fits claim) (fails : Bool) (samples : List Sample) :
    (b.appendMay c fails samples).Fits claim := by
  cases fails with
  | true => exact h.resync
  | false =>
      obtain ⟨hopen, hfits⟩ := h.resync
      show (b.appendDisk c samples).Fits claim
      unfold appendDisk fitBudget
      dsimp only
      -- the budget waits for the claim
      have hgrown : ({ b.resyncIfRotated.1 with
          cacheFile := some (b.resyncIfRotated.1.contents ++ c.write samples)
          diskCount := b.resyncIfRotated.1.diskCount + samples.length
          diskBytes := b.resyncIfRotated.1.diskBytes + (c.write samples).length } :
          BufferStore Sample).Fits claim :=
        ⟨hopen, hfits.imp_right fun hle => hle.trans (Nat.le_add_right _ _)⟩
      split
      · unfold enforceBudget
        rw [if_pos hopen]
        exact hgrown
      · exact hgrown

theorem Fits.spill {claim : Claim} (h : b.Fits claim) (fails : Bool) (protect : ℕ) :
    (b.spillOverflowBy (fun b => b.appendMay c fails) protect).1.Fits claim := by
  unfold spillOverflowBy
  split
  · exact h
  · split
    · exact h
    · have hmoved : ({ b with memory := b.spilt protect } : BufferStore Sample).Fits claim := h
      exact hmoved.append fails _

theorem read_lines_size (limit : ℕ) (out : List Sample) (ls : List Bytes) :
    (readLines c limit out ls).2.2 ≤ ls.flatten.length := by
  induction ls generalizing out with
  | nil => exact Nat.zero_le _
  | cons line rest ih =>
      rw [readLines]
      split
      · exact Nat.zero_le _
      · rw [List.flatten_cons, List.length_append]
        exact Nat.add_le_add_left (ih _) _

theorem read_disk_fits (h : b.InSync) (limit : ℕ) : (b.readDisk c limit).1 = b ∧
    (b.readDisk c limit).2.2.2 ≤ b.diskBytes := by
  unfold InSync at h
  unfold readDisk
  cases hfile : b.cacheFile with
  | none =>
      rw [hfile] at h
      dsimp only at h ⊢
      rw [if_neg (by omega)]
      exact ⟨rfl, by dsimp only; omega⟩
  | some bytes =>
      rw [hfile] at h
      dsimp only at h ⊢
      split
      · refine ⟨rfl, ?_⟩
        have hsize := read_lines_size (c := c) limit [] (lines (bytes.drop b.offset))
        rw [flatten_lines, List.length_drop] at hsize
        have hend : b.offset + (bytes.length - b.offset) ≤ b.diskBytes := by omega
        exact (Nat.add_le_add_left hsize _).trans hend
      · exact ⟨rfl, by dsimp only; omega⟩

/-- A snapshot leaves an open claim alone, and opens one that ends inside the file only where it
returns samples. -/
theorem snapshot_fits (c : Jsonl Sample) (b : BufferStore Sample) (limit : Int) :
    (b.snapshot c limit).1 = b ∧ (b.snapshot c limit).2.1 = [] ∨
      b.claimOpen = false ∧ ((b.snapshot c limit).2.1 ≠ [] →
        (b.snapshot c limit).1.Fits (b.snapshot c limit).2.2) := by
  unfold snapshot
  split
  · exact Or.inl ⟨rfl, rfl⟩
  · rename_i hguard
    rw [not_or, Bool.not_eq_true] at hguard
    obtain ⟨hsync, -⟩ := resync_cases b
    obtain ⟨hsame, hsize⟩ := read_disk_fits (c := c) hsync limit.toNat
    refine Or.inr ⟨hguard.2, ?_⟩
    dsimp only
    generalize b.resyncIfRotated.1.readDisk c limit.toNat = read at hsame hsize
    obtain ⟨store, out, diskLines, newOffset⟩ := read
    dsimp only at hsame hsize ⊢
    generalize out ++ List.take _ store.memory = batch
    intro hbatch
    cases batch with
    | nil => exact absurd rfl hbatch
    | cons first rest => exact ⟨rfl, Or.inr (hsame ▸ hsize)⟩

theorem released_sync {claim : Claim} (h : b.Fits claim) : (b.released claim).InSync := by
  obtain ⟨hopen, hfits⟩ := h
  obtain ⟨hsync, -, -, -, hcases⟩ := resync_cases b
  -- the lines of the claim are consumed only where nothing made it stale
  have hconsumed : ∀ stale, (stale = false → claim.newOffset ≤ b.resyncIfRotated.1.diskBytes) →
      (consumeDisk { b.resyncIfRotated.1 with claimStale := false } claim stale).InSync := by
    intro stale hroom
    unfold consumeDisk
    split
    · rename_i hfresh
      have hle := hroom hfresh.2
      unfold InSync at hsync ⊢
      dsimp only
      cases hfile : b.resyncIfRotated.1.cacheFile with
      | none =>
          rw [hfile] at hsync
          dsimp only at hsync ⊢
          omega
      | some bytes =>
          rw [hfile] at hsync
          dsimp only at hsync ⊢
          omega
    · exact hsync
  show (consumeDisk { b.resyncIfRotated.1 with claimStale := false } claim
    (b.resyncIfRotated.1.claimStale || b.resyncIfRotated.2)).InSync
  refine hconsumed _ fun hstale => ?_
  rw [Bool.or_eq_false_iff] at hstale
  rcases hcases with hsame | ⟨hrotated, -⟩
  · rw [hsame] at hstale ⊢
    exact hfits.resolve_left fun hold => by rw [hstale.1] at hold; cases hold
  · rw [hrotated] at hstale
    cases hstale.2

end BufferStore

namespace Owner

open BufferStore

variable {s : Owner Sample}

/-- The claim that the owner holds is the store's. -/
def Agrees (s : Owner Sample) : Prop := ∀ claim, s.claim = some claim → s.store.Fits claim

theorem seen_enqueue {sample : Sample} (h : s.Appends (.enqueue sample)) :
    (s.store.enqueueBy appendFails sample).1.seen c = s.store.resyncIfRotated.1.unread c ++
      (s.store.joined sample).spilt s.store.front := by
  obtain ⟨hvalve, hspills⟩ := h
  obtain ⟨hsync, -⟩ := resync_cases s.store
  have hlength : ((s.store.memory ++ [sample]).length : Int) = s.store.memory.length + 1 := by
    rw [List.length_append]
    rfl
  have henqueue : (s.store.enqueueBy appendFails sample).1 =
      ((s.store.joined sample).spillOverflowBy appendFails s.store.front).1 := by
    have hstill : (s.store.joined sample).claimOpen = s.store.claimOpen := rfl
    unfold enqueueBy front
    dsimp only
    rw [hstill]
    by_cases hopen : s.store.claimOpen = true
    · have hlong : ¬ ((s.store.joined sample).memory.length : Int) ≤
          (s.store.joined sample).maxMemorySamples * 2 := by
        have hmore := hvalve hopen
        show ¬ ((s.store.memory ++ [sample]).length : Int) ≤ s.store.maxMemorySamples * 2
        omega
      rw [if_pos hopen, if_pos hopen, if_neg hlong]
      rfl
    · rw [if_neg hopen, if_neg hopen]
  have hafter : ∀ memory, ({ s.store.resyncIfRotated.1 with memory := memory } :
      BufferStore Sample).InSync := fun _ => hsync
  have hresync : (s.store.joined sample).resyncIfRotated.1 =
      { s.store.resyncIfRotated.1 with memory := s.store.memory ++ [sample] } :=
    congrArg Prod.fst (resync_memory s.store _)
  rw [henqueue, spill_fails hspills, hresync, (hafter _).seen]
  rfl

theorem enqueue_keeps_iff {sample : Sample} (h : s.Appends (.enqueue sample)) :
    s.Keeps c (.enqueue sample) ↔ s.store.memory.length ≤ s.store.front := by
  obtain ⟨-, hmemory, -⟩ := resync_cases s.store
  have hkeeps : s.Keeps c (.enqueue sample) ↔
      (s.store.resyncIfRotated.1.unread c ++ s.store.memory).Sublist
        (s.store.resyncIfRotated.1.unread c ++ (s.store.joined sample).spilt s.store.front) := by
    rw [← seen_enqueue h]
    unfold Keeps remaining seen buffered
    rw [hmemory]
    exact ⟨fun hall => hall _ rfl, fun hsub s' hs' => by cases hs'; exact hsub⟩
  obtain ⟨hlength, hroom⟩ := length_spilt h.2
  obtain ⟨hlong, hcount⟩ := h.2
  have hone : (s.store.joined sample).spillCount s.store.front ≤ 1 →
      ((s.store.joined sample).memory.length : Int) - s.store.maxMemorySamples / 2 ≤ 1 ∨
        ((s.store.joined sample).memory.length : Int) - s.store.front ≤ 1 :=
          fun h => min_le_iff.mp h
  have hjoined : (s.store.joined sample).memory.length = s.store.memory.length + 1 :=
    List.length_append
  have hmax : (s.store.joined sample).maxMemorySamples = s.store.maxMemorySamples := rfl
  rw [hjoined] at hlength hroom hlong hone
  rw [hmax] at hlong
  rw [hkeeps]
  constructor
  · intro hsub
    -- one sample came in, so at most one may have been taken
    have hle := hsub.length_le
    rw [List.length_append, List.length_append] at hle
    rcases hone (by omega) with hhalf | hlast
    · omega
    · omega
  · intro hprotected
    refine (List.Sublist.refl _).append ?_
    unfold spilt
    have hfront : s.store.front = s.store.memory.length := by omega
    show s.store.memory.Sublist ((s.store.memory ++ [sample]).take s.store.front ++ _)
    rw [hfront, List.take_left]
    exact List.sublist_append_left _ _

theorem Agrees.step {s' : Owner Sample} {event : Event Sample} (h : s.Agrees)
    (hstep : s.step c event = some s') : s'.Agrees := by
  cases event with
  | replaced file =>
      cases hstep
      exact h
  | call op fails =>
      cases op with
      | enqueue sample =>
          cases hstep
          intro claim hclaim
          have hfits : (s.store.joined sample).Fits claim := h claim hclaim
          show (s.store.enqueueBy _ sample).1.Fits claim
          unfold enqueueBy
          dsimp only
          split
          · split
            · exact hfits
            · exact hfits.spill fails _
          · exact hfits.spill fails _
      | snapshot limit =>
          have hs' : (⟨(s.store.snapshot c limit).1, match (s.store.snapshot c limit).2.1 with
              | [] => s.claim
              | _ :: _ => some (s.store.snapshot c limit).2.2⟩ : Owner Sample) = s' :=
            Option.some.inj hstep
          have hfits := snapshot_fits c s.store limit
          rw [← hs']
          intro claim hclaim
          dsimp only at hclaim ⊢
          generalize s.store.snapshot c limit = taken at hclaim hfits ⊢
          obtain ⟨store, batch, opened⟩ := taken
          rcases hfits with ⟨hsame, hnone⟩ | ⟨hclosed, hfits⟩
          · dsimp only at hsame hnone hclaim ⊢
            rw [hnone] at hclaim
            rw [hsame]
            exact h claim hclaim
          · cases batch with
            | nil =>
                -- without an open claim the owner holds none
                have hopen := (h claim hclaim).1
                rw [hclosed] at hopen
                cases hopen
            | cons first rest =>
                cases hclaim
                exact hfits (List.cons_ne_nil _ _)
      | commit =>
          obtain ⟨claim, -, rfl⟩ := Option.map_eq_some_iff.mp hstep
          intro other hother
          cases hother
      | abort =>
          obtain ⟨claim, -, rfl⟩ := Option.map_eq_some_iff.mp hstep
          intro other hother
          cases hother

end Owner

open BufferStore Owner

/-- It is so in every state. -/
theorem Used.agrees {maxDiskBytes maxMemorySamples : Int} {s : Owner Sample}
    (h : Used c maxDiskBytes maxMemorySamples s) : s.Agrees := by
  induction h with
  | opened file =>
      intro claim hclaim
      cases hclaim
  | step _ hstep ih => exact ih.step hstep

/-- In every state of a store, of the calls whose append fails exactly those enqueues keep what was
buffered that find nothing unprotected in the deque. -/
theorem failed_spill_keeps_iff (c : Jsonl Sample) (maxDiskBytes maxMemorySamples : Int)
    (s : Owner Sample) (hused : Used c maxDiskBytes maxMemorySamples s) (op : Call Sample)
    (happends : s.Appends op) :
    s.Keeps c op ↔ (∃ sample, op = .enqueue sample) ∧ s.store.memory.length ≤ s.store.front := by
  cases op with
  | enqueue sample =>
      rw [enqueue_keeps_iff happends]
      exact ⟨fun h => ⟨⟨sample, rfl⟩, h⟩, And.right⟩
  | snapshot limit => cases happends
  | commit =>
      obtain ⟨claim, hclaim, hspills⟩ := happends
      refine ⟨fun hkeeps => ?_, fun h => by obtain ⟨⟨_, hop⟩, -⟩ := h; cases hop⟩
      have hcall : s.call c true .commit = some ⟨(s.store.commitBy appendFails claim).1, none⟩ := by
        unfold call
        rw [hclaim]
        rfl
      have hsub := hkeeps _ hcall
      unfold remaining at hsub
      rw [hclaim] at hsub
      -- what is consumed is gone as it should be, but the spill that follows loses more
      have hsync := released_sync (hused.agrees claim hclaim)
      have htidy := tidy_shrinks (c := c) hsync
      have hspills' : (s.store.released claim).tidy.Spills 0 := by
        unfold Spills spillCount at hspills ⊢
        rw [htidy.memory, htidy.maxMemorySamples]
        exact hspills
      have hfewer := settle_fails (c := c) htidy.sync hspills'
      have htidied : ((s.store.released claim).tidy.buffered c).length ≤
          ((s.store.released claim).buffered c).length := by
        unfold buffered
        rw [List.length_append, List.length_append, htidy.memory]
        exact Nat.add_le_add_right htidy.fewer _
      exact absurd hsub.length_le (not_le.mpr (lt_of_lt_of_le hfewer htidied))
  | abort =>
      obtain ⟨hclaim, hspills⟩ := happends
      refine ⟨fun hkeeps => ?_, fun h => by obtain ⟨⟨_, hop⟩, -⟩ := h; cases hop⟩
      obtain ⟨claim, hclaim⟩ := Option.ne_none_iff_exists'.mp hclaim
      have hcall : s.call c true .abort = some ⟨(s.store.abortBy appendFails).1, none⟩ := by
        unfold call
        rw [hclaim]
        rfl
      obtain ⟨hsync, hmemory, hmax, -⟩ := resync_cases s.store
      have hspills' : s.store.closed.Spills 0 := by
        unfold Spills spillCount at hspills ⊢
        show s.store.resyncIfRotated.1.maxMemorySamples < s.store.resyncIfRotated.1.memory.length ∧
          0 < min (s.store.resyncIfRotated.1.memory.length -
            s.store.resyncIfRotated.1.maxMemorySamples / 2)
            (s.store.resyncIfRotated.1.memory.length - (0 : ℕ))
        rw [hmemory, hmax]
        exact hspills
      have hclosed : s.store.closed.InSync := hsync
      have hfewer := settle_fails (c := c) hclosed hspills'
      exact absurd (hkeeps _ hcall).length_le (not_le.mpr hfewer)

/-- A store that keeps nothing in memory, before its first enqueue. -/
def unbuffered : Owner (Fin 10) := ⟨.opened 1024 0 none, none⟩

/-- The only sample that its failing spill takes is the new one. -/
theorem unbuffered_keeps : Used digits 1024 0 unbuffered ∧ unbuffered.Appends (.enqueue 0) ∧
    unbuffered.Keeps digits (.enqueue 0) := by
  have hused : Used digits 1024 0 unbuffered := .opened none
  have happends : unbuffered.Appends (.enqueue 0) := ⟨fun hopen => (by cases hopen), by decide⟩
  exact ⟨hused, happends,
    (failed_spill_keeps_iff digits 1024 0 unbuffered hused (.enqueue 0) happends).mpr
      ⟨⟨0, rfl⟩, by decide⟩⟩

/-- A store for one sample that holds one. -/
def filled : Owner (Fin 10) :=
  ⟨{ (.opened 1024 1 none : BufferStore (Fin 10)) with memory := [0] }, none⟩

/-- The next enqueue spills both samples, and where the write fails both are gone. -/
theorem failed_spill_loses : Used digits 1024 1 filled ∧ filled.Appends (.enqueue 1) ∧
    ¬ filled.Keeps digits (.enqueue 1) := by
  have hstep : (⟨.opened 1024 1 none, none⟩ : Owner (Fin 10)).step digits
      (.call (.enqueue 0) false) = some filled := rfl
  have hused : Used digits 1024 1 filled := .step (.opened none) hstep
  refine ⟨hused, ⟨fun hopen => (by cases hopen), by decide⟩, fun hkeeps => ?_⟩
  have hsub := hkeeps _ rfl
  exact absurd hsub (by decide)

end SystemsManager.Metrics
