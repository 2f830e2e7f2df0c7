import SystemsManager.Metrics.Conservation

/-!
# First in, first out

While a claim is open, a spill takes samples from behind the claimed front of the deque to the
end of the file. A commit then removes the front and the order is whole again; an abort leaves
older samples in memory than on disk. `fifo_of_reached` states the order for every run whose
aborts do not close such a claim, and `valve_then_abort_reorders` is a run in which one does.
-/

namespace SystemsManager.Metrics

open Python BufferStore

variable {Sample : Type} {c : Jsonl Sample}

/-- The order in which a session keeps its samples: they leave as they came, the committed
batches one after the other are a subsequence of what was enqueued, and a snapshot returns the
oldest samples that have not left. -/
structure Fifo (c : Jsonl Sample) (s : Session Sample) : Prop where
  leaving : s.gone <+: s.enqueued
  committed : s.committed.flatten.Sublist s.enqueued
  snapshot : s.store.claimOpen = false → ∀ limit : Int,
    (s.store.snapshot c limit).2.1 = (s.enqueued.drop s.gone.length).take limit.toNat

/-- An abort closes only a claim without samples of memory, or one during which the cache file
did not grow. -/
def keepsOrder (s : Session Sample) : Call Sample → Bool
  | .abort =>
      match s.pending with
      | some (_, claim) => claim.mem = 0 ∨ s.store.diskBytes = claim.newOffset
      | none => true
  | _ => true

/-- The condition on a run under which the buffer keeps its order. -/
def KeepsOrder (s : Session Sample) (op : Call Sample) : Prop := keepsOrder s op = true

/-- The buffered samples, oldest first: what the open claim covers, then the rest of the file and
of the deque. -/
def queue (disk memory : List Sample) : Option (List Sample × Claim) → List Sample
  | none => disk ++ memory
  | some (_, claim) =>
      disk.take claim.diskLines ++ memory.take claim.mem ++
        (disk.drop claim.diskLines ++ memory.drop claim.mem)

/-- The samples have left in order and the others wait in order. -/
structure InOrder (c : Jsonl Sample) (s : Session Sample) : Prop where
  order : s.enqueued = s.gone ++ queue (s.store.unread c) s.store.memory s.pending
  committed : s.committed.flatten.Sublist s.gone

theorem newly_evicted_eq {s : Session Sample} {b b' : BufferStore Sample} {disk : List Sample}
    {k : ℕ} (h : Sheds c b disk b' k) (hb : b.dropped = s.store.dropped) :
    s.newlyEvicted c b' = disk.take k := by
  rw [Session.newlyEvicted, h.dropped, hb, List.drop_left, Jsonl.filter_map_read]

theorem order_shed {gone disk rest : List Sample} (k : ℕ) :
    gone ++ disk.take k ++ (disk.drop k ++ rest) = gone ++ (disk ++ rest) := by
  rw [List.append_assoc, ← List.append_assoc (disk.take k), List.take_append_drop]

/-- A claim that covers a front of the file and, of the deque, nothing unless the file is covered
whole, leaves the order of file and deque. -/
theorem queue_covered {disk memory batch : List Sample} {claim : Claim}
    (h : claim.mem = 0 ∨ disk.drop claim.diskLines = []) :
    queue disk memory (some (batch, claim)) = disk ++ memory := by
  have hdisk := List.take_append_drop claim.diskLines disk
  have hmemory := List.take_append_drop claim.mem memory
  simp only [queue]
  rcases h with hmem | hdrop
  · rw [hmem, List.take_zero, List.append_nil, List.drop_zero, ← List.append_assoc, hdisk]
  · rw [hdrop, List.append_nil] at hdisk
    rw [hdrop, hdisk, List.nil_append, List.append_assoc, hmemory]

namespace InOrder

variable {m : Int} {s : Session Sample} {disk : List Sample}

theorem enqueue (h : Sound c m s disk) (ho : InOrder c s) (sample : Sample) :
    InOrder c (s.enqueue c sample) := by
  obtain ⟨moved, rest, k, hmemory, hafter, hsheds, _⟩ :=
    enqueue_spec h.onDisk h.claimed_zero h.claimed_le sample
  have hevicted : s.newlyEvicted c (s.store.enqueue c sample).1 = (disk ++ moved).take k :=
    newly_evicted_eq hsheds rfl
  have horder := ho.order
  rw [h.onDisk.unread] at horder
  refine ⟨?_, ho.committed.trans (List.sublist_append_left _ _)⟩
  simp only [Session.enqueue]
  rw [hevicted, hsheds.onDisk.unread, hafter, horder]
  have hclaim := h.claim
  cases hp : s.pending with
  | none =>
      rw [hp] at hclaim
      have hzero := Free.claimedMem hclaim
      rw [hzero, List.take_zero, List.nil_append] at hmemory ⊢
      simp only [queue]
      rw [order_shed, List.append_assoc, List.append_assoc, hmemory, List.append_assoc]
  | some pending =>
      rw [hp] at hclaim
      have hcovers : Covers c s.store disk pending.1 pending.2 := hclaim
      obtain ⟨hk, _⟩ := hsheds.frozen hcovers.claimOpen
      rw [hcovers.claimedMem] at hmemory ⊢
      have hfront : (s.store.memory.take pending.2.mem).length = pending.2.mem := by
        rw [List.length_take]
        exact Nat.min_eq_left hcovers.front
      have hrest : s.store.memory.drop pending.2.mem ++ [sample] = moved ++ rest := by
        have hboth : s.store.memory.take pending.2.mem ++
            (s.store.memory.drop pending.2.mem ++ [sample]) =
            s.store.memory.take pending.2.mem ++ (moved ++ rest) := by
          rw [← List.append_assoc, List.take_append_drop, hmemory, List.append_assoc]
        exact List.append_cancel_left hboth
      subst hk
      simp only [queue, List.drop_zero, List.take_zero, List.append_nil]
      rw [List.take_append_of_le_length hcovers.lines, List.drop_append_of_le_length hcovers.lines,
        List.take_left' hfront, List.drop_left' hfront]
      simp only [List.append_assoc]
      rw [hrest]

theorem snapshot (h : Sound c m s disk) (ho : InOrder c s) (limit : Int) :
    InOrder c (s.snapshot c limit) := by
  by_cases hguard : limit ≤ 0 ∨ s.store.claimOpen = true
  · have hsame : s.snapshot c limit = s := by
      simp [Session.snapshot, BufferStore.snapshot, hguard]
    rwa [hsame]
  · rw [not_or, Bool.not_eq_true] at hguard
    have hfree := h.free hguard.2
    unfold Session.snapshot
    rw [snapshot_spec h.onDisk hguard.2 (by omega)]
    dsimp only
    cases hbatch : (disk ++ s.store.memory).take limit.toNat with
    | nil => exact ho
    | cons first batch =>
        refine ⟨?_, ho.committed⟩
        have horder := ho.order
        rw [h.onDisk.unread, hfree.1] at horder
        have hcovered : s.store.claims disk limit.toNat = 0 ∨
            disk.drop (min limit.toNat disk.length) = [] := by
          by_cases hall : limit.toNat ≤ disk.length
          · left
            simp [claims, Nat.sub_eq_zero_of_le hall]
          · right
            rw [List.drop_eq_nil_iff]
            omega
        show s.enqueued = s.gone ++ queue (s.store.unread c) s.store.memory (some (_, ⟨_, _, _⟩))
        rw [h.onDisk.unread, queue_covered hcovered, horder]
        rfl

theorem commit (h : Sound c m s disk) (ho : InOrder c s) {batch : List Sample} {claim : Claim}
    (hp : s.pending = some (batch, claim)) : InOrder c (s.commit c batch claim) := by
  have hcovers : Covers c s.store disk batch claim := by
    have hclaim := h.claim
    rwa [hp] at hclaim
  obtain ⟨moved, rest, k, hmemory, hafter, hsheds, _⟩ :=
    commit_spec h.onDisk h.fresh hcovers.newOffset
  have hevicted : s.newlyEvicted c (s.store.commit c claim).1 =
      (disk.drop claim.diskLines ++ moved).take k := newly_evicted_eq hsheds rfl
  have horder := ho.order
  rw [h.onDisk.unread, hp] at horder
  refine ⟨?_, ?_⟩
  · simp only [Session.commit, queue]
    simp only [queue] at horder
    rw [hevicted, hsheds.onDisk.unread, hafter, order_shed, horder, ← hcovers.batch, hmemory]
    simp only [List.append_assoc]
  · simp only [Session.commit, List.flatten_append, List.flatten_singleton]
    exact (ho.committed.append (List.Sublist.refl batch)).trans (List.sublist_append_left _ _)

theorem abort (h : Sound c m s disk) (ho : InOrder c s) {batch : List Sample} {claim : Claim}
    (hp : s.pending = some (batch, claim))
    (hallow : claim.mem = 0 ∨ s.store.diskBytes = claim.newOffset) :
    InOrder c (s.abort c) := by
  have hcovers : Covers c s.store disk batch claim := by
    have hclaim := h.claim
    rwa [hp] at hclaim
  have hwhole : claim.mem = 0 ∨ disk.drop claim.diskLines = [] := by
    refine hallow.imp_right fun hbytes => ?_
    -- the file ends where the claim ends
    obtain ⟨consumed, hfile, hoffset⟩ := h.onDisk.file
    rw [h.onDisk.bytes, hcovers.newOffset, hfile, hoffset, List.length_append] at hbytes
    have hsplit := congrArg List.length
      (congrArg c.write (List.take_append_drop claim.diskLines disk))
    rw [Jsonl.write_append, List.length_append] at hsplit
    have hzero : (c.write (disk.drop claim.diskLines)).length = 0 := by omega
    exact Jsonl.write_eq_nil.mp (List.length_eq_zero_iff.mp hzero)
  obtain ⟨moved, rest, k, hmemory, hafter, hsheds, _⟩ := abort_spec h.onDisk h.fresh
  have hevicted : s.newlyEvicted c (s.store.abort c).1 = (disk ++ moved).take k :=
    newly_evicted_eq hsheds rfl
  have horder := ho.order
  rw [h.onDisk.unread, hp, queue_covered hwhole] at horder
  refine ⟨?_, ho.committed.trans (List.sublist_append_left _ _)⟩
  simp only [Session.abort, queue]
  rw [hevicted, hsheds.onDisk.unread, hafter, order_shed, horder, hmemory, List.append_assoc disk]

end InOrder

theorem in_order_step {m : Int} {s s' : Session Sample} {disk : List Sample} {op : Call Sample}
    (h : Sound c m s disk) (ho : InOrder c s) (hallow : KeepsOrder s op)
    (hstep : s.step c op = some s') : InOrder c s' := by
  cases op with
  | enqueue sample =>
      have hs' : s.enqueue c sample = s' := Option.some.inj hstep
      exact hs' ▸ ho.enqueue h sample
  | snapshot limit =>
      have hs' : s.snapshot c limit = s' := Option.some.inj hstep
      exact hs' ▸ ho.snapshot h limit
  | commit =>
      obtain ⟨pending, hp, hs'⟩ := Option.map_eq_some_iff.mp hstep
      exact hs' ▸ ho.commit h hp
  | abort =>
      obtain ⟨pending, hp, hs'⟩ := Option.map_eq_some_iff.mp hstep
      have hallow : pending.2.mem = 0 ∨ s.store.diskBytes = pending.2.newOffset := by
        simpa [KeepsOrder, keepsOrder, hp] using hallow
      exact hs' ▸ ho.abort h hp hallow

theorem in_order_of_reached {maxDiskBytes m : Int} {s : Session Sample}
    (h : Reached c KeepsOrder maxDiskBytes m s) : InOrder c s := by
  induction h with
  | new => exact ⟨rfl, List.Sublist.refl _⟩
  | call hbefore hallow hstep ih =>
      obtain ⟨disk, hsound⟩ := Sound.of_reached hbefore
      exact in_order_step hsound ih hallow hstep

/-- In every run whose aborts close only claims without samples of memory, or during which the
cache file did not grow, the buffer is first in, first out. -/
theorem fifo_of_reached (c : Jsonl Sample) (maxDiskBytes maxMemorySamples : Int)
    (s : Session Sample) (h : Reached c KeepsOrder maxDiskBytes maxMemorySamples s) :
    Fifo c s := by
  obtain ⟨disk, hsound⟩ := Sound.of_reached h
  have ho := in_order_of_reached h
  have hleaving : s.gone <+: s.enqueued := ⟨_, ho.order.symm⟩
  refine ⟨hleaving, ho.committed.trans hleaving.sublist, ?_⟩
  intro hclosed limit
  have horder := ho.order
  rw [(hsound.free hclosed).1, hsound.onDisk.unread] at horder
  have hrest : s.enqueued.drop s.gone.length = disk ++ s.store.memory := by
    rw [horder, List.drop_left]
    rfl
  rw [hrest]
  by_cases hlimit : 0 < limit
  · rw [snapshot_spec hsound.onDisk hclosed hlimit]
  · have hzero : limit.toNat = 0 := by omega
    simp [BufferStore.snapshot, Int.not_lt.mp hlimit, hzero]

/-- A claim on a sample of memory is aborted before anything spills. -/
def shortAbort : List (Call (Fin 10)) :=
  [.enqueue 0, .snapshot 1, .enqueue 1, .abort, .snapshot 10, .commit]

/-- The samples are committed in order. -/
theorem short_abort_fifo :
    ∃ s, Reached digits KeepsOrder 1024 1 s ∧ Fifo digits s ∧ s.committed = [[0, 1]] := by
  have hplays : ((Session.new 1024 1).plays digits keepsOrder shortAbort).any
      (fun s => s.committed = [[0, 1]]) = true := by
    decide +kernel
  obtain ⟨s, hs, hstate⟩ := (Option.any_eq_true _ _).mp hplays
  have hreached : Reached digits KeepsOrder 1024 1 s := reached_of_plays (fun _ _ h => h) hs
  exact ⟨s, hreached, fifo_of_reached digits 1024 1 s hreached, by simpa using hstate⟩

/-- Two samples spill past an open claim on an older one, and the claim is aborted. -/
def valveThenAbort : List (Call (Fin 10)) :=
  [.enqueue 0, .snapshot 1, .enqueue 1, .enqueue 2, .abort, .snapshot 10, .commit]

/-- The next batch starts with the newer samples. -/
theorem valve_then_abort_reorders :
    ∃ s, Reached digits (fun _ _ => True) 1024 1 s ∧ s.enqueued = [0, 1, 2] ∧
      s.committed = [[1, 2, 0]] ∧ ¬ Fifo digits s := by
  have hplays : ((Session.new 1024 1).plays digits (fun _ _ => true) valveThenAbort).any
      (fun s => s.enqueued = [0, 1, 2] ∧ s.committed = [[1, 2, 0]]) = true := by
    decide +kernel
  obtain ⟨s, hs, hstate⟩ := (Option.any_eq_true _ _).mp hplays
  have hstate : s.enqueued = [0, 1, 2] ∧ s.committed = [[1, 2, 0]] := by simpa using hstate
  refine ⟨s, reached_of_plays (fun _ _ _ => trivial) hs, hstate.1, hstate.2, ?_⟩
  intro h
  have hsub := h.committed
  rw [hstate.1, hstate.2] at hsub
  exact absurd hsub (by decide)

end SystemsManager.Metrics
