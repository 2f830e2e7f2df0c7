import Mathlib.Data.List.FinRange
import Mathlib.Data.List.Induction
import SystemsManager.Python.Lines

/-!
# The metric buffer

`BufferStore` keeps the samples that the agent has still to post: a deque in memory and, behind
its bound, a JSONL file on disk of which `_offset` bytes are already posted. A snapshot opens a
claim on the oldest samples; while it is open the file may only grow at its end and the claimed
front of the deque stays. Every method below is the method of the same name of the source, the
cache file included: it is the list of its bytes, or `none` when there is no file.

`Session` adds the caller: which batch and claim are open, and the history of what was enqueued,
committed and evicted. Read and write errors and other writers of the file are outside the model.
-/

namespace SystemsManager.Metrics

open Python

/-- How `json` turns a sample into a line and back: a JSON object on one line, between its
braces, whose round trip is the identity. -/
structure Jsonl (Sample : Type) where
  dumps : Sample → Bytes
  loads : Bytes → Option Sample
  one_line : ∀ s, newline ∉ dumps s
  braces : ∀ s, ∃ middle, dumps s = 123 :: middle ++ [125]
  loads_dumps : ∀ s, loads (dumps s) = some s

variable {Sample : Type} (c : Jsonl Sample)

namespace Jsonl

/-- A line of the cache file. -/
def line (s : Sample) : Bytes := c.dumps s ++ [newline]

/-- `_write_jsonl`: what a list of samples adds to the file. -/
def write (samples : List Sample) : Bytes := samples.flatMap c.line

/-- The sample on a line; blank lines and lines that do not decode are skipped. -/
def read (raw : Bytes) : Option Sample :=
  let s := stripBytes raw
  if s = [] then none else c.loads s

end Jsonl

/-- `_Claim`. -/
structure Claim where
  diskLines : Nat
  newOffset : Nat
  mem : Nat
  deriving DecidableEq

/-- What a spill did: how many samples it wrote, whether the file was unused before, and how
many samples the disk budget evicted. -/
structure Spill where
  spilled : Nat
  first : Bool
  evicted : Nat
  deriving DecidableEq

/-- Nothing was spilled. -/
def Spill.none : Spill := ⟨0, false, 0⟩

/-- `_COMPACT_THRESHOLD_BYTES`. -/
def compactThresholdBytes : Nat := 1024 * 1024

/-- The state of a `BufferStore` with its cache file; `dropped` is the history of the lines that
the disk budget cost. -/
structure BufferStore (Sample : Type) where
  maxDiskBytes : Int
  maxMemorySamples : Int
  memory : List Sample
  offset : Nat
  diskCount : Nat
  diskBytes : Nat
  evictedTotal : Nat
  claimOpen : Bool
  claimedMem : Nat
  claimStale : Bool
  cacheFile : Option Bytes
  dropped : List Bytes

namespace BufferStore

/-- A store on a directory without a cache file. -/
def new (maxDiskBytes maxMemorySamples : Int) : BufferStore Sample where
  maxDiskBytes := maxDiskBytes
  maxMemorySamples := maxMemorySamples
  memory := []
  offset := 0
  diskCount := 0
  diskBytes := 0
  evictedTotal := 0
  claimOpen := false
  claimedMem := 0
  claimStale := false
  cacheFile := none
  dropped := []

variable (b : BufferStore Sample)

/-- The bytes of the cache file. -/
def contents : Bytes := b.cacheFile.getD []

/-- `_count_lines_from`. -/
def countLinesFrom (offset : Nat) : Nat := (lines (b.contents.drop offset)).length

/-- `_reset_disk_state`. -/
def resetDiskState : BufferStore Sample :=
  { b with
    offset := 0
    diskCount := 0
    diskBytes := 0
    claimStale := b.claimOpen || b.claimStale }

/-- `_resync_if_rotated`: the state after it and whether it had to resync. -/
def resyncIfRotated : BufferStore Sample × Bool :=
  match b.cacheFile with
  | none =>
      if b.diskCount = 0 ∧ b.offset = 0 ∧ b.diskBytes = 0 then (b, false)
      else (b.resetDiskState, true)
  | some bytes =>
      let size := bytes.length
      if size = b.diskBytes ∧ b.offset ≤ size then (b, false)
      else
        let offset := if size < b.offset ∨ size < b.diskBytes then 0 else b.offset
        ({ b with
            offset := offset
            diskBytes := size
            diskCount := b.countLinesFrom offset
            claimStale := b.claimOpen || b.claimStale }, true)

/-- `_unlink_cache`. -/
def unlinkCache : BufferStore Sample := resetDiskState { b with cacheFile := none }

/-- `_compact`: the file without its consumed prefix. -/
def compact : BufferStore Sample :=
  if b.offset = 0 then b
  else
    match b.cacheFile with
    | none => { b with offset := 0, diskBytes := 0 }
    | some bytes =>
        let tail := bytes.drop b.offset
        if tail = [] then b.unlinkCache
        else { b with cacheFile := some tail, offset := 0, diskBytes := tail.length }

/-- The loop of `_enforce_budget`: the lines read until the rest fits, and the rest. -/
def overBudget (maxDiskBytes : Int) : Nat → List Bytes → List Bytes × List Bytes
  | _, [] => ([], [])
  | running, line :: rest =>
      if maxDiskBytes < running then
        let (evicted, tail) := overBudget maxDiskBytes (running - line.length) rest
        (line :: evicted, tail)
      else ([], line :: rest)

/-- `_enforce_budget`. -/
def enforceBudget : BufferStore Sample :=
  if b.claimOpen then b
  else
    let b := b.compact
    match b.cacheFile with
    | none => b
    | some bytes =>
        let b := { b with diskBytes := bytes.length }
        if (bytes.length : Int) ≤ b.maxDiskBytes then b
        else
          let (evicted, rest) := overBudget b.maxDiskBytes bytes.length (lines bytes)
          let tail := rest.flatten
          if evicted = [] then { b with cacheFile := some tail }
          else
            { b with
              cacheFile := some tail
              diskCount := b.diskCount - evicted.length
              diskBytes := tail.length
              evictedTotal := b.evictedTotal + evicted.length
              dropped := b.dropped ++ evicted }

/-- The budget is enforced when the file is larger than it. -/
def fitBudget : BufferStore Sample :=
  if b.maxDiskBytes < b.diskBytes then b.enforceBudget else b

/-- `_append_disk`. -/
def appendDisk (samples : List Sample) : BufferStore Sample :=
  let b := b.resyncIfRotated.1
  let written := c.write samples
  fitBudget { b with
    cacheFile := some (b.contents ++ written)
    diskCount := b.diskCount + samples.length
    diskBytes := b.diskBytes + written.length }

/-- How many samples `_spill_overflow` moves to disk. -/
def spillCount (protect : Nat) : Int :=
  min (b.memory.length - b.maxMemorySamples / 2) (b.memory.length - protect)

/-- `_spill_overflow`. -/
def spillOverflow (protect : Nat) : BufferStore Sample × Spill :=
  if (b.memory.length : Int) ≤ b.maxMemorySamples then (b, .none)
  else if b.spillCount protect ≤ 0 then (b, .none)
  else
    let wasFirst := b.diskCount = 0 ∧ b.offset = 0
    let head := b.memory.take protect
    let spilled := (b.memory.drop protect).take (b.spillCount protect).toNat
    let rest := (b.memory.drop protect).drop (b.spillCount protect).toNat
    let after := appendDisk c { b with memory := head ++ rest } spilled
    (after, ⟨spilled.length, wasFirst, after.evictedTotal - b.evictedTotal⟩)

/-- `enqueue`. -/
def enqueue (sample : Sample) : BufferStore Sample × Spill :=
  let b := { b with memory := b.memory ++ [sample] }
  if b.claimOpen then
    if (b.memory.length : Int) ≤ b.maxMemorySamples * 2 then (b, .none)
    else b.spillOverflow c b.claimedMem
  else b.spillOverflow c 0

/-- The loop of `snapshot` over the lines from the offset: the samples, how many lines were read
and how many bytes they have. -/
def readLines (limit : Nat) : List Sample → List Bytes → List Sample × Nat × Nat
  | out, [] => (out, 0, 0)
  | out, raw :: rest =>
      if limit ≤ out.length then (out, 0, 0)
      else
        let out := match c.read raw with
          | some s => out ++ [s]
          | none => out
        let (out, diskLines, size) := readLines limit out rest
        (out, diskLines + 1, raw.length + size)

/-- The disk part of `snapshot`: the samples read, how many lines they took, and the offset
behind them. -/
def readDisk (limit : Nat) : BufferStore Sample × List Sample × Nat × Nat :=
  if 0 < b.diskCount then
    match b.cacheFile with
    | none => (b.resetDiskState, [], 0, 0)
    | some bytes =>
        let (out, diskLines, size) := readLines c limit [] (lines (bytes.drop b.offset))
        (b, out, diskLines, b.offset + size)
  else (b, [], 0, b.offset)

/-- A snapshot that returns samples opens a claim. -/
def openClaim (memConsumed : Nat) : List Sample → BufferStore Sample
  | [] => b
  | _ :: _ => { b with claimOpen := true, claimedMem := memConsumed }

/-- `snapshot`. -/
def snapshot (limit : Int) : BufferStore Sample × List Sample × Claim :=
  if limit ≤ 0 ∨ b.claimOpen then (b, [], ⟨0, b.offset, 0⟩)
  else
    let (b, out, diskLines, newOffset) := b.resyncIfRotated.1.readDisk c limit.toNat
    let memConsumed := min (limit.toNat - out.length) b.memory.length
    let out := out ++ b.memory.take memConsumed
    let claim : Claim := ⟨diskLines, newOffset, memConsumed⟩
    (b.openClaim memConsumed out, out, claim)

/-- The end of `commit` and of `abort`: the spill that had to wait, then the budget. -/
def settle : BufferStore Sample × Spill :=
  let (b, spill) := b.spillOverflow c 0
  (b.fitBudget, spill)

/-- The claimed lines are consumed. -/
def consumeDisk (claim : Claim) (stale : Bool) : BufferStore Sample :=
  if claim.diskLines ≠ 0 ∧ stale = false then
    { b with offset := claim.newOffset, diskCount := b.diskCount - claim.diskLines }
  else b

/-- The claimed samples of memory are popped and the claim is closed. -/
def consumeMemory (claim : Claim) : BufferStore Sample :=
  { b with
    memory := b.memory.drop claim.mem
    claimOpen := false
    claimedMem := 0 }

/-- A file without unread lines is removed, one with a long consumed part is compacted. -/
def tidy : BufferStore Sample :=
  if b.diskCount = 0 then b.unlinkCache
  else if compactThresholdBytes ≤ b.offset then b.compact
  else b

/-- `commit`. -/
def commit (claim : Claim) : BufferStore Sample × Spill :=
  let (b, rotated) := b.resyncIfRotated
  let stale := b.claimStale || rotated
  let b := consumeDisk { b with claimStale := false } claim stale
  (b.consumeMemory claim).tidy.settle c

/-- `abort`. -/
def abort : BufferStore Sample × Spill :=
  let b := b.resyncIfRotated.1
  settle c { b with claimOpen := false, claimedMem := 0, claimStale := false }

/-- The samples on the lines that are still to be posted. -/
def unread : List Sample := (lines (b.contents.drop b.offset)).filterMap c.read

/-- The samples still buffered: unread lines and memory. -/
def buffered : List Sample := b.unread c ++ b.memory

/-- The samples that the disk budget cost. -/
def evicted : List Sample := b.dropped.filterMap c.read

end BufferStore

/-- A call of the buffer's owner; `commit` and `abort` are for the claim that is open. -/
inductive Call (Sample : Type) where
  | enqueue (sample : Sample)
  | snapshot (limit : Int)
  | commit
  | abort
  deriving DecidableEq

/-- The store and its owner: the batch and the claim of the open snapshot, everything enqueued
and committed so far, and the samples that left the store in the order in which they left. -/
structure Session (Sample : Type) where
  store : BufferStore Sample
  pending : Option (List Sample × Claim)
  enqueued : List Sample
  committed : List (List Sample)
  gone : List Sample

namespace Session

/-- An empty store. -/
def new (maxDiskBytes maxMemorySamples : Int) : Session Sample :=
  ⟨.new maxDiskBytes maxMemorySamples, none, [], [], []⟩

variable (s : Session Sample)

/-- The samples that were evicted on the way to another state of the store. -/
def newlyEvicted (b : BufferStore Sample) : List Sample :=
  (b.dropped.drop s.store.dropped.length).filterMap c.read

/-- After `enqueue`. -/
def enqueue (sample : Sample) : Session Sample :=
  { s with
    store := (s.store.enqueue c sample).1
    enqueued := s.enqueued ++ [sample]
    gone := s.gone ++ s.newlyEvicted c (s.store.enqueue c sample).1 }

/-- After `snapshot`. -/
def snapshot (limit : Int) : Session Sample :=
  let (store, batch, claim) := s.store.snapshot c limit
  { s with
    store := store
    pending := match batch with
      | [] => s.pending
      | _ :: _ => some (batch, claim) }

/-- After `commit` of the open claim. -/
def commit (batch : List Sample) (claim : Claim) : Session Sample :=
  { s with
    store := (s.store.commit c claim).1
    pending := none
    committed := s.committed ++ [batch]
    gone := s.gone ++ batch ++ s.newlyEvicted c (s.store.commit c claim).1 }

/-- After `abort` of the open claim. -/
def abort : Session Sample :=
  { s with
    store := (s.store.abort c).1
    pending := none
    gone := s.gone ++ s.newlyEvicted c (s.store.abort c).1 }

/-- What a call does; `none` when it is not allowed here: there is no claim to close. -/
def step : Call Sample → Option (Session Sample)
  | .enqueue sample => some (s.enqueue c sample)
  | .snapshot limit => some (s.snapshot c limit)
  | .commit => s.pending.map fun pending => s.commit c pending.1 pending.2
  | .abort => s.pending.map fun _ => s.abort c

end Session

/-- The sessions from an empty store all of whose calls meet a condition on the call and the
session before it. -/
inductive Reached (allow : Session Sample → Call Sample → Prop)
    (maxDiskBytes maxMemorySamples : Int) :
    Session Sample → Prop where
  | new : Reached allow maxDiskBytes maxMemorySamples (.new maxDiskBytes maxMemorySamples)
  | call {s s' : Session Sample} {op : Call Sample} :
      Reached allow maxDiskBytes maxMemorySamples s → allow s op → s.step c op = some s' →
      Reached allow maxDiskBytes maxMemorySamples s'

/-- One sequence of calls, if it is allowed and meets a condition. -/
def Session.plays (allow : Session Sample → Call Sample → Bool) (s : Session Sample)
    (calls : List (Call Sample)) : Option (Session Sample) :=
  calls.foldlM (fun s op => if allow s op then s.step c op else none) s

/-- A sequence of allowed calls reaches its last session. -/
theorem reached_of_plays {c : Jsonl Sample} {check : Session Sample → Call Sample → Bool}
    {allow : Session Sample → Call Sample → Prop}
    (hcheck : ∀ s op, check s op = true → allow s op) {maxDiskBytes maxMemorySamples : Int}
    {calls : List (Call Sample)} {s : Session Sample}
    (h : (Session.new maxDiskBytes maxMemorySamples).plays c check calls = some s) :
    Reached c allow maxDiskBytes maxMemorySamples s := by
  induction calls using List.reverseRecOn generalizing s with
  | nil =>
      cases h
      exact .new
  | append_singleton calls op ih =>
      rw [Session.plays, List.foldlM_append] at h
      obtain ⟨middle, hmiddle, hlast⟩ := Option.bind_eq_some_iff.mp h
      obtain ⟨final, hfinal, hsame⟩ := Option.bind_eq_some_iff.mp hlast
      cases hsame
      dsimp only at hfinal
      split at hfinal
      · rename_i hallow
        exact .call (ih hmiddle) (hcheck middle op hallow) hfinal
      · cases hfinal

instance tenNeZero : NeZero 10 := ⟨by decide⟩

/-- The text of the sample with this `id`, a digit. -/
def digitText (d : Fin 10) : Bytes := [123, 34, 105, 100, 34, 58, 32, 48 + UInt8.ofNat d, 125]

/-- Samples with one field, as `json` writes and reads them. -/
def digits : Jsonl (Fin 10) where
  dumps := digitText
  loads bytes := (List.finRange 10).find? fun d => digitText d = bytes
  one_line := by decide
  braces d := ⟨[34, 105, 100, 34, 58, 32, 48 + UInt8.ofNat d], rfl⟩
  loads_dumps := by decide

end SystemsManager.Metrics
