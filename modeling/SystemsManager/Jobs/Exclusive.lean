import SystemsManager.Jobs.Workers

/-!
# Exclusive keys

No two handlers of different jobs that share an exclusive key run at the same time. The set of held
keys lives in a local variable of `_start_due`, so the argument is about that loop: `Held` says that
the local set covers the keys of every live thread, and every turn of the loop keeps it. `KeepsKeys`
is what this needs: the row that is read again after a launch is running unless the thread is gone,
no sweep takes the row of a live thread, and no job has the empty key. `exclusive_apart` is the
result, and `exclusive_shared` is a run in which a cancel between the launch and the second read
releases the key of a live thread. `one_thread_per_job` needs no condition.
-/

namespace SystemsManager.Jobs

open Python Concurrency Relation

variable {W : World}

/-- The job has a worker thread that is alive. -/
def Sys.busy (s : Sys W) (id : String) : Bool :=
  (s.workers.get? id).any fun ref => (s.phase ref).alive

/-- The operation releases no key of a live thread and brings no empty key. -/
def keepsKeys (op : Op W) (s : Sys W) : Bool :=
  match op with
  | .get .after id => s.status id == some .running || !s.busy id
  | .sweep cutoff => s.workers.keys.all fun id =>
      !s.busy id || ((s.rows.sweep cutoff).get? id).isSome
  | .insert row => !row.exclusive.contains ""
  | _ => true

/-- After a launch the row is read running unless its thread is gone, no sweep takes the row of
a live thread, and no submitted job has the empty key. -/
abbrev KeepsKeys : Condition Tid (Op W) (Sys W) := fun _ op s _ => keepsKeys op s = true

/-- No job of the ledger has the empty key. -/
def Ledger.NoEmptyKey (rows : Ledger) : Prop :=
  ∀ id r, rows.get? id = some r → "" ∉ r.exclusive

/-- The rows belong to one job or share no key. -/
def Apart (row row' : Row) : Prop := row.id ≠ row'.id → ∀ key ∈ row.exclusive, key ∉ row'.exclusive

/-- What is known of the keys. -/
structure KeysInv (s : Sys W) : Prop where
  workers : WorkersInv s
  keys : s.rows.NoEmptyKey
  present : ∀ ref row, (s.phase ref).job = some row → (s.rows.get? row.id).isSome = true
  apart : ∀ ref ref' row row', (s.phase ref).job = some row → (s.phase ref').job = some row' →
    Apart row row'

/-- What a thread may do to the keys: only the dispatcher launches and sweeps. -/
structure KeysGuar (t : Tid) (s s' : Sys W) : Prop where
  keeps : Keeps s s'
  frame : t ≠ .dispatcher → Frame s s' ∧
    ∀ id, (s.rows.get? id).isSome = true → (s'.rows.get? id).isSome = true

/-- The promise of every thread about the keys. -/
def keysContract : Contract Tid (Sys W) where
  inv := KeysInv
  guar := KeysGuar
  idle _ _ := True

/-- The condition of the runs of which the keys are looked at. -/
abbrev KeysRun : Condition Tid (Op W) (Sys W) := fun t op s s' =>
  KeepsKeys t op s s' ∧ Tended t op s s'

/-- A step after which the live threads are some of those before it. -/
structure Shrinks (s s' : Sys W) : Prop where
  keeps : Keeps s s'
  job : ∀ ref row, (s'.phase ref).job = some row → (s.phase ref).job = some row

/-- The assertion is kept where no thread is launched. -/
def Shrinking (P : Sys W → Prop) : Prop := ∀ s s', Shrinks s s' → P s → P s'

theorem Shrinking.stable {P : Sys W → Prop} (h : Shrinking P) : keysContract.Stable .dispatcher P :=
  fun _ hu s s' _ _ hguar hs =>
    h s s' ⟨hguar.keeps, fun ref _ hrow => ((hguar.frame hu).1.phase ref).job hrow⟩ hs

theorem Shrinking.and {P Q : Sys W → Prop} (hP : Shrinking P) (hQ : Shrinking Q) :
    Shrinking fun s => P s ∧ Q s :=
  fun s s' hstep h => ⟨hP s s' hstep h.1, hQ s s' hstep h.2⟩

variable {s s' : Sys W} {op : Op W}

theorem no_empty_key_step {t : Tid} {a : Ans W op} {r : Res W op} (h : s.rows.NoEmptyKey)
    (hexec : exec t op a s = some (r, s')) (hallow : KeysRun t op s s') : s'.rows.NoEmptyKey := by
  intro id q hq
  have hold : ∀ old, s.rows.get? id = some old → "" ∉ q.exclusive := by
    intro old hget
    rw [(hallow.2.lawful.keeps.job id old q hget hq).exclusive]
    exact h id old hget
  cases rows_step hexec with
  | same hrows =>
      rw [hrows] at hq
      exact h id q hq
  | write other old new hget hrows hended =>
      have hid := (hallow.2.lawful.before.1 other old hget).1
      by_cases heq : id = old.id
      · exact hold old (by rw [heq, hid]; exact hget)
      · rw [hrows, Dict.get?_set, if_neg heq] at hq
        exact h id q hq
  | insert row other hop hother hrows =>
      subst hop
      rw [hrows, Dict.get?_set] at hq
      split at hq
      · cases hq
        have hcond : keepsKeys (.insert row) s = true := hallow.1
        simpa [keepsKeys] using hcond
      · exact h id q hq
  | sweep cutoff hop hrows =>
      rw [hrows, Ledger.sweep, Dict.get?_filter, Option.filter_eq_some_iff] at hq
      exact h id q hq.1

theorem present_step {t : Tid} {a : Ans W op} {r : Res W op} (hexec : exec t op a s = some (r, s'))
    (hallow : KeysRun t op s s') {ref : Ref} {row : Row} (hrow : (s.phase ref).job = some row)
    (hpresent : (s.rows.get? row.id).isSome = true) : (s'.rows.get? row.id).isSome = true := by
  cases op with
  | sweep cutoff =>
      cases hexec
      have htable := hallow.2.before.table ref row hrow
      have hbusy : s.busy row.id = true := by
        simp [Sys.busy, htable, Phase.alive_eq, hrow]
      have hcond : keepsKeys (.sweep cutoff) s = true := hallow.1
      simp only [keepsKeys, List.all_eq_true] at hcond
      simpa [hbusy] using hcond row.id (Dict.mem_keys_of_get htable)
  | _ => exact (rows_step hexec).stays rfl hpresent

theorem KeysInv.shrinks {t : Tid} {a : Ans W op} {r : Res W op} (h : KeysInv s)
    (hexec : exec t op a s = some (r, s')) (hallow : KeysRun t op s s') (hstep : Shrinks s s') :
    KeysInv s' := by
  refine ⟨hallow.2.after, no_empty_key_step h.keys hexec hallow, ?_, ?_⟩
  · intro ref row hrow
    have hrow := hstep.job ref row hrow
    exact present_step hexec hallow hrow (h.present ref row hrow)
  · intro ref ref' row row' hrow hrow'
    exact h.apart ref ref' row row' (hstep.job ref row hrow) (hstep.job ref' row' hrow')

theorem unmoved_step {a : Ans W op} {r : Res W op} (hmoves : op.moves = false) (h : KeysInv s)
    (hexec : exec .dispatcher op a s = some (r, s')) (hallow : KeysRun .dispatcher op s s') :
    KeysInv s' ∧ KeysGuar .dispatcher s s' ∧ Shrinks s s' := by
  have hphase := (scope hexec).phase hmoves
  have hshrinks : Shrinks s s' :=
    ⟨hallow.2.lawful.keeps, fun ref row hrow => by rwa [hphase] at hrow⟩
  exact ⟨h.shrinks hexec hallow hshrinks,
    ⟨hallow.2.lawful.keeps, fun hne => absurd rfl hne⟩, hshrinks⟩

section Keys

variable {svc : Service W} {permits : Call → Bool} {s : Sys W}

theorem unmoved_safe {α : Type} {p : Code W α} {P : Sys W → Prop}
    (hp : p.All fun op => op.moves = false) (hP : Shrinking P) (h : P s) :
    Safe (machine svc permits) KeysRun keysContract .dispatcher p (fun _ => P) s := by
  refine safe_of_all hp hP.stable h ?_ fun _ _ h => h
  intro op hop s a r s' hinv hs hexec hallow
  obtain ⟨hinv', hguar, hshrinks⟩ := unmoved_step hop hinv hexec hallow
  exact ⟨hinv', hguar, hP s s' hshrinks hs⟩

theorem unmoved_ask {β : Type} {op : Op W} {f : Res W op → Code W β} {P : Sys W → Prop}
    {Q : β → Sys W → Prop} (hop : op.moves = false) (hP : Shrinking P) (h : P s)
    (hrest : ∀ s a r s', KeysInv s → KeysInv s' → P s → P s' →
      exec .dispatcher op a s = some (r, s') →
      Safe (machine svc permits) KeysRun keysContract .dispatcher (f r) Q s') :
    Safe (machine svc permits) KeysRun keysContract .dispatcher (Code.ask op >>= f) Q s := by
  refine Code.safe_ask hP.stable h ?_
  intro s a r s' hinv hs hexec hallow
  obtain ⟨hinv', hguar, hshrinks⟩ := unmoved_step hop hinv hexec hallow
  exact ⟨hinv', hguar, hrest s a r s' hinv hinv' hs (hP s s' hshrinks hs) hexec⟩

/-- The set covers the keys of every live thread. -/
def Held (held : List String) (s : Sys W) : Prop :=
  ∀ ref row, (s.phase ref).job = some row → ∀ key ∈ row.exclusive, key ∈ held

/-- The set covers the keys of every live thread of other jobs. -/
def HeldBut (id : String) (held : List String) (s : Sys W) : Prop :=
  ∀ ref row, (s.phase ref).job = some row → row.id ≠ id → ∀ key ∈ row.exclusive, key ∈ held

theorem held_shrinking (held : List String) : Shrinking (Held (W := W) held) :=
  fun _ _ hstep h ref row hrow => h ref row (hstep.job ref row hrow)

theorem held_but_shrinking (id : String) (held : List String) :
    Shrinking (HeldBut (W := W) id held) :=
  fun _ _ hstep h ref row hrow => h ref row (hstep.job ref row hrow)

theorem known_shrinking (rows : List Row) : Shrinking fun s : Sys W => ∀ r ∈ rows, Knows r s :=
  fun _ _ hstep h r hr => hstep.keeps.knows (h r hr)

/-- Two rows of one job have the same keys. -/
theorem exclusive_eq {row row' : Row} (hrow : Knows row s) (hrow' : Knows row' s)
    (hid : row.id = row'.id) (hpresent : (s.rows.get? row.id).isSome = true) :
    row.exclusive = row'.exclusive := by
  obtain ⟨r, hr⟩ := Option.isSome_iff_exists.mp hpresent
  rw [← (hrow.2 r hr).exclusive, ← (hrow'.2 r (hid ▸ hr)).exclusive]

/-- Every live thread is still to be looked at, or its keys are among those of the rows. -/
def Covered (ids : List String) (live : List Row) (s : Sys W) : Prop :=
  ∀ ref row, (s.phase ref).job = some row →
    row.id ∈ ids ∨ ∀ key ∈ row.exclusive, key ∈ live.flatMap Row.exclusive

theorem covered_shrinking (ids : List String) (live : List Row) :
    Shrinking (Covered (W := W) ids live) :=
  fun _ _ hstep h ref row hrow => h ref row (hstep.job ref row hrow)

theorem Covered.next {id : String} {ids : List String} {live live' : List Row}
    (h : Covered (id :: ids) live s) (hlive : ∀ r ∈ live, r ∈ live')
    (hid : ∀ ref row, (s.phase ref).job = some row → row.id = id →
      ∃ r ∈ live', row.exclusive = r.exclusive) : Covered ids live' s := by
  intro ref row hrow
  have hcover : ∀ r ∈ live', row.exclusive = r.exclusive →
      ∀ key ∈ row.exclusive, key ∈ live'.flatMap Row.exclusive := by
    intro r hr heq key hkey
    exact List.mem_flatMap.mpr ⟨r, hr, heq ▸ hkey⟩
  rcases h ref row hrow with hmem | hkeys
  · rcases List.mem_cons.mp hmem with heq | hmem
    · obtain ⟨r, hr, hexcl⟩ := hid ref row hrow heq
      exact .inr (hcover r hr hexcl)
    · exact .inl hmem
  · right
    intro key hkey
    obtain ⟨r, hr, hmem⟩ := List.mem_flatMap.mp (hkeys key hkey)
    exact List.mem_flatMap.mpr ⟨r, hlive r hr, hmem⟩

theorem worker_rows_safe {ids : List String} {live : List Row} (hinv : KeysInv s)
    (hlive : ∀ r ∈ live, Knows r s) (h : Covered ids live s) :
    Safe (machine svc permits) KeysRun keysContract .dispatcher (Service.workerRows live ids)
      (fun live s => Held (live.flatMap Row.exclusive) s) s := by
  induction ids generalizing live s with
  | nil =>
      refine safe_ret (covered_shrinking [] live).stable h ?_
      intro s hs ref row hrow
      exact (hs ref row hrow).resolve_left (by simp)
  | cons id rest ih =>
      unfold Service.workerRows
      split
      · rename_i hany
        simp only [List.any_eq_true, beq_iff_eq] at hany
        obtain ⟨r, hr, hid⟩ := hany
        refine ih hinv hlive (h.next (fun _ h => h) ?_)
        intro ref row hrow hrid
        have hknows := hinv.workers.known ref row hrow
        exact ⟨r, hr, exclusive_eq hknows (hlive r hr) (hrid.trans hid.symm)
          (hinv.present ref row hrow)⟩
      · refine unmoved_ask rfl ((covered_shrinking _ live).and (known_shrinking live))
          ⟨h, hlive⟩ ?_
        intro s a found s' hinv _ hs _ hexec
        cases hexec
        split
        · rename_i r hr
          obtain ⟨hid, hknows⟩ := knows_of_get hinv.workers.ledger hr
          refine ih hinv ?_ (hs.1.next (fun r' hr' => List.mem_append_left _ hr') ?_)
          · intro r' hr'
            rcases List.mem_append.mp hr' with hr' | hr'
            · exact hs.2 r' hr'
            · rw [List.mem_singleton] at hr'
              exact hr' ▸ hknows
          · intro ref row hrow hrid
            refine ⟨r, List.mem_append_right _ (List.mem_singleton_self _), ?_⟩
            exact exclusive_eq (hinv.workers.known ref row hrow) hknows (hrid.trans hid.symm)
              (hinv.present ref row hrow)
        · rename_i hnone
          refine ih hinv hs.2 (hs.1.next (fun _ h => h) ?_)
          intro ref row hrow hrid
          have hpresent := hinv.present ref row hrow
          rw [hrid, hnone] at hpresent
          cases hpresent

/-- The dispatcher is about to start the thread of a job whose keys are free. -/
structure Ready (row : Row) (held : List String) (s : Sys W) : Prop where
  but : HeldBut row.id held s
  present : (s.rows.get? row.id).isSome = true

/-- Nobody else takes the row away. -/
theorem ready_stable (row : Row) (held : List String) :
    keysContract.Stable .dispatcher (Ready (W := W) row held) := by
  intro u hu s s' hinv hinv' hguar h
  exact ⟨(held_but_shrinking row.id held).stable u hu s s' hinv hinv' hguar h.but,
    (hguar.frame hu).2 row.id h.present⟩

theorem created_phase_stable (ref : Ref) (row : Row) :
    keysContract.Stable .dispatcher fun s : Sys W => s.phase ref = .created row := by
  intro u hu s s' _ _ hguar h
  rw [((hguar.frame hu).1.phase ref).still (by rw [h]; rfl), h]

variable {row : Row}

theorem start_thread_job {s s' : Sys W} {t : Tid} {ref : Ref} {a r : Unit}
    (hphase : s.phase ref = .created row) (hexec : exec t (.startThread ref) a s = some (r, s'))
    {ref' : Ref} {row' : Row} (hrow' : (s'.phase ref').job = some row') :
    (ref' = ref ∧ row' = row) ∨ (s.phase ref').job = some row' := by
  simp only [exec, hphase, Option.some.injEq, Prod.mk.injEq] at hexec
  obtain ⟨-, rfl⟩ := hexec
  by_cases heq : ref' = ref
  · simp only [heq, Function.update_self, Phase.job, Option.some.injEq] at hrow'
    exact .inl ⟨heq, hrow'.symm⟩
  · simp only [Function.update_of_ne heq] at hrow'
    exact .inr hrow'

variable {held : List String}

theorem KeysInv.start_thread {s s' : Sys W} {ref : Ref} {a r : Unit} (h : KeysInv s)
    (hclear : ∀ key ∈ row.exclusive, key ∉ held) (hready : Ready row held s)
    (hphase : s.phase ref = .created row)
    (hexec : exec .dispatcher (.startThread ref) a s = some (r, s'))
    (hallow : KeysRun .dispatcher (.startThread ref) s s') : KeysInv s' := by
  have hstep : RowsStep .dispatcher (.startThread ref) s s' := rows_step (a := a) hexec
  have hrows : ∀ id, (s.rows.get? id).isSome = true → (s'.rows.get? id).isSome = true :=
    fun id hid => hstep.stays rfl hid
  refine ⟨hallow.2.after, no_empty_key_step (a := a) h.keys hexec hallow, ?_, ?_⟩
  · intro ref' row' hrow'
    rcases start_thread_job hphase hexec hrow' with ⟨-, rfl⟩ | hrow'
    · exact hrows _ hready.present
    · exact hrows _ (h.present ref' row' hrow')
  · intro ref₁ ref₂ row₁ row₂ hrow₁ hrow₂ hid key hkey
    rcases start_thread_job hphase hexec hrow₁ with ⟨-, rfl⟩ | hrow₁
    · rcases start_thread_job hphase hexec hrow₂ with ⟨-, rfl⟩ | hrow₂
      · exact absurd rfl hid
      · exact fun hkey' => hclear key hkey (hready.but ref₂ row₂ hrow₂ hid.symm key hkey')
    · rcases start_thread_job hphase hexec hrow₂ with ⟨-, rfl⟩ | hrow₂
      · exact fun hkey' => hclear key hkey' (hready.but ref₁ row₁ hrow₁ hid key hkey)
      · exact h.apart ref₁ ref₂ row₁ row₂ hrow₁ hrow₂ hid key hkey

theorem launch_keys_safe (hinline : svc.inline = false) (hclear : ∀ key ∈ row.exclusive, key ∉ held)
    (h : Ready row held s) :
    Safe (machine svc permits) KeysRun keysContract .dispatcher (svc.launch row)
      (fun _ => HeldBut row.id held) s := by
  unfold Service.launch
  split
  · refine unmoved_safe ((Service.apply_quiet_or row.id _).mono ?_)
      (held_but_shrinking row.id held) h.but
    rintro op (hquiet | ⟨row', o, now, rfl, -⟩)
    · exact hquiet.moves
    · rfl
  · rename_i k hk
    refine Code.safe_ask (ready_stable row held) h ?_
    intro s a ref s' hinv hs hexec hallow
    obtain ⟨hinv', hguar, hshrinks⟩ := unmoved_step rfl hinv hexec hallow
    have hs' : Ready row held s' := by
      refine ⟨held_but_shrinking row.id held s s' hshrinks hs.but, ?_⟩
      exact (rows_step hexec).stays rfl hs.present
    refine ⟨hinv', hguar, ?_⟩
    rw [hinline]
    refine Code.safe_act (ready_stable row held) hs' ?_
    intro s₁ a _ s₁' hinv hs hexec hallow
    have hshrinks : Shrinks s₁ s₁' := by
      refine ⟨hallow.2.lawful.keeps, ?_⟩
      intro ref' row' hrow'
      cases hexec
      by_cases heq : ref' = ref
      · simp only [heq, Function.update_self] at hrow'
        cases hrow'
      · simpa only [Function.update_of_ne heq] using hrow'
    have hs₁' : Ready row held s₁' ∧ s₁'.phase ref = .created row := by
      refine ⟨⟨held_but_shrinking row.id held s₁ s₁' hshrinks hs.but,
        (rows_step hexec).stays rfl hs.present⟩, ?_⟩
      cases hexec
      exact Function.update_self ..
    refine ⟨hinv.shrinks hexec hallow hshrinks,
      ⟨hallow.2.lawful.keeps, fun hne => absurd rfl hne⟩, ?_⟩
    refine Code.safe_last ((ready_stable row held).and (created_phase_stable ref row)) hs₁'
      (held_but_shrinking row.id held).stable ?_
    intro s₂ a _ s₂' hinv hs hexec hallow
    refine ⟨hinv.start_thread (a := a) hclear hs.1 hs.2 hexec hallow,
      ⟨hallow.2.lawful.keeps, fun hne => absurd rfl hne⟩, ?_⟩
    intro ref' row' hrow' hid
    rcases start_thread_job (a := a) hs.2 hexec hrow' with ⟨-, rfl⟩ | hrow'
    · exact absurd rfl hid
    · exact hs.1.but ref' row' hrow' hid

/-- The first key of the row that is held, if it is not empty: without one, all keys are
free. -/
theorem clear_of_no_clash (hempty : "" ∉ row.exclusive)
    (h : ((row.exclusive.find? fun key => held.contains key).filter fun key => key != "") = none) :
    ∀ key ∈ row.exclusive, key ∉ held := by
  intro key hkey hheld
  cases hfind : row.exclusive.find? fun key => held.contains key with
  | none =>
      rw [List.find?_eq_none] at hfind
      exact hfind key hkey (by simpa using hheld)
  | some first =>
      rw [hfind, Option.filter_some] at h
      have hne : first ≠ "" := fun heq => hempty (heq ▸ List.mem_of_find?_eq_some hfind)
      rw [if_pos (by simpa using hne)] at h
      cases h

theorem held_running (hinv : KeysInv s) (hbut : HeldBut row.id held s) (hrow : Knows row s) :
    Held (held ++ row.exclusive) s := by
  intro ref row' hrow' key hkey
  by_cases hid : row'.id = row.id
  · rw [exclusive_eq (hinv.workers.known ref row' hrow') hrow hid
      (hinv.present ref row' hrow')] at hkey
    exact List.mem_append_right _ hkey
  · exact List.mem_append_left _ (hbut ref row' hrow' hid key hkey)

theorem held_released (hinv : KeysInv s) (hclear : ∀ key ∈ row.exclusive, key ∉ held)
    (hbut : HeldBut row.id held s) (hbusy : s.busy row.id = false) :
    Held ((held ++ row.exclusive).filter fun key => !row.exclusive.contains key) s := by
  intro ref row' hrow' key hkey
  have hid : row'.id ≠ row.id := by
    intro hid
    have htable := hinv.workers.table ref row' hrow'
    rw [hid] at htable
    simp [Sys.busy, htable, Phase.alive_eq, hrow'] at hbusy
  have hheld := hbut ref row' hrow' hid key hkey
  rw [List.mem_filter]
  refine ⟨List.mem_append_left _ hheld, ?_⟩
  simp only [Bool.not_eq_true', List.contains_eq_mem, decide_eq_false_iff_not]
  exact fun hmem => hclear key hmem hheld

theorem reread_same (hledger : ledgerContract.inv s) (hrow : Knows row s) :
    ((s.rows.get? row.id).getD row).id = row.id ∧
      ((s.rows.get? row.id).getD row).exclusive = row.exclusive := by
  cases hr : s.rows.get? row.id with
  | none => exact ⟨rfl, rfl⟩
  | some r => exact ⟨(hledger.1 _ r hr).1, (hrow.2 r hr).exclusive⟩

theorem start_loop_keys_safe {now : ℚ} {limit : Int} {due : List Row} {count : Int} {started : Nat}
    (hinline : svc.inline = false) (hempty : ∀ row ∈ due, "" ∉ row.exclusive)
    (hdue : ∀ row ∈ due, Knows row s) (h : Held held s) :
    Safe (machine svc permits) KeysRun keysContract .dispatcher
      (svc.startLoop now limit due held count started) (fun _ _ => True) s := by
  induction due generalizing held count started s with
  | nil => exact safe_ret (Contract.stable_const True) trivial fun _ _ => trivial
  | cons row rest ih =>
      have hempty' : ∀ r ∈ rest, "" ∉ r.exclusive :=
        fun r hr => hempty r (List.mem_cons_of_mem _ hr)
      have hkept : (keysContract (W := W)).Kept fun s => ∀ r ∈ row :: rest, Knows r s :=
        fun u s s' _ _ hguar hs r hr => hguar.keeps.knows (hs r hr)
      have hrest : ∀ {s : Sys W}, (∀ r ∈ row :: rest, Knows r s) → ∀ r ∈ rest, Knows r s :=
        fun hs r hr => hs r (List.mem_cons_of_mem _ hr)
      unfold Service.startLoop
      split
      · rename_i clash hclash
        split
        · refine unmoved_ask rfl ((held_shrinking held).and (known_shrinking _)) ⟨h, hdue⟩ ?_
          intro s _ _ s' _ _ _ hs' _
          exact ih hempty' (hrest hs'.2) hs'.1
        · exact ih hempty' (hrest hdue) h
      · rename_i hclash
        have hclear := clear_of_no_clash (hempty row (List.mem_cons_self ..)) hclash
        split
        · exact safe_ret (Contract.stable_const True) trivial fun _ _ => trivial
        · refine Code.safe_ask ((held_shrinking held).and (known_shrinking _)).stable ⟨h, hdue⟩ ?_
          intro s a ok s' hinv hs hexec hallow
          obtain ⟨hinv', hguar, hshrinks⟩ := unmoved_step rfl hinv hexec hallow
          have hs' := ((held_shrinking held).and (known_shrinking _)) s s' hshrinks hs
          refine ⟨hinv', hguar, ?_⟩
          split
          · rename_i htrue
            -- The row is claimed, so it is in the ledger.
            have hstatus := ((claim_step (a := a) hallow.2.lawful hexec).2 htrue).2
            have hpresent : (s'.rows.get? row.id).isSome = true := by
              simp only [Sys.status, Option.map_eq_some_iff] at hstatus
              obtain ⟨r, hr, -⟩ := hstatus
              simp [hr]
            have hready : Ready row held s' := ⟨fun ref r hr _ => hs'.1 ref r hr, hpresent⟩
            refine Code.safe_ask ((ready_stable row held).and (hkept.stable _)) ⟨hready, hs'.2⟩ ?_
            intro s a found s' hinv hs hexec hallow
            obtain ⟨hinv', hguar, -⟩ := unmoved_step rfl hinv hexec hallow
            cases hexec
            refine ⟨hinv', hguar, ?_⟩
            have hrow := hs.2 row (List.mem_cons_self ..)
            obtain ⟨hid, hexcl⟩ := reread_same hinv.workers.ledger hrow
            have hready : Ready ((s.rows.get? row.id).getD row) held s := by
              refine ⟨?_, ?_⟩
              · rw [hid]
                exact hs.1.but
              · rw [hid]
                exact hs.1.present
            have hlaunch : Safe (machine svc permits) KeysRun keysContract .dispatcher
                (svc.launch ((s.rows.get? row.id).getD row))
                (fun _ => HeldBut ((s.rows.get? row.id).getD row).id held) s :=
              launch_keys_safe hinline (by rw [hexcl]; exact hclear) hready
            rw [hid] at hlaunch
            refine safe_bind ((hlaunch.frame hkept hs.2).mono ?_)
            intro _ s hs
            refine Code.safe_ask
              ((held_but_shrinking row.id held).stable.and (hkept.stable _)) hs ?_
            intro s a after s' hinv hs hexec hallow
            obtain ⟨hinv', hguar, hshrinks⟩ := unmoved_step rfl hinv hexec hallow
            have hbut := held_but_shrinking row.id held s s' hshrinks hs.1
            have hknown := known_shrinking (row :: rest) s s' hshrinks hs.2
            have hcond : keepsKeys (.get .after row.id) s = true := hallow.1
            cases hexec
            refine ⟨hinv', hguar, ?_⟩
            have hreleased : s.status row.id ≠ some .running →
                Held ((held ++ row.exclusive).filter fun key => !row.exclusive.contains key)
                  (s.note .dispatcher (.reread row.id)) := by
              intro hst
              have hbusy : s.busy row.id = false := by simpa [keepsKeys, hst] using hcond
              exact held_released hinv' hclear hbut hbusy
            split
            · rename_i r hr
              split
              · exact ih hempty' (hrest hknown)
                  (held_running hinv' hbut (hknown row (List.mem_cons_self ..)))
              · rename_i hst
                exact ih hempty' (hrest hknown) (hreleased (by simpa [Sys.status, hr] using hst))
            · rename_i hr
              exact ih hempty' (hrest hknown) (hreleased (by simp [Sys.status, hr]))
          · exact ih hempty' (hrest hs'.2) hs'.1

theorem start_due_keys_safe {now : ℚ} (hinline : svc.inline = false) :
    Safe (machine svc permits) KeysRun keysContract .dispatcher (svc.startDue now)
      (fun _ _ => True) s := by
  refine unmoved_ask rfl (P := fun _ => True) (fun _ _ _ _ => trivial) trivial ?_
  intro s _ running s' hinv hinv' _ _ hexec
  cases hexec
  have hrunning : ∀ r ∈ s.rows.running, Knows r s := by
    intro r hr
    obtain ⟨id, hget, -⟩ := Ledger.get_of_mem_running hr
    exact (knows_of_get hinv.workers.ledger hget).2
  refine unmoved_ask rfl (known_shrinking s.rows.running) hrunning ?_
  intro s₁ _ ids s₁' hinv hinv' hs₁ _ hexec
  cases hexec
  have hcovered : Covered s₁.workers.keys s.rows.running s₁ := by
    intro ref row hrow
    exact .inl (Dict.mem_keys_of_get (hinv.workers.table ref row hrow))
  refine safe_bind ((worker_rows_safe hinv hs₁ hcovered).mono ?_)
  intro live s hs
  refine unmoved_ask rfl (held_shrinking _) hs ?_
  intro s _ workers s' _ _ _ hs' _
  refine unmoved_ask rfl (held_shrinking _) hs' ?_
  intro s _ due s' hinv _ hs _ hexec
  cases hexec
  refine start_loop_keys_safe hinline ?_ ?_ hs
  · intro row hrow
    obtain ⟨id, hget⟩ := Ledger.get_of_mem_due hrow
    exact hinv.keys id row hget
  · intro row hrow
    obtain ⟨id, hget⟩ := Ledger.get_of_mem_due hrow
    exact (knows_of_get hinv.workers.ledger hget).2

theorem tick_keys_safe (hinline : svc.inline = false) :
    Safe (machine svc permits) KeysRun keysContract .dispatcher svc.tick (fun _ _ => True) s := by
  have hall : ∀ {α : Type} {p : Code W α} {s : Sys W}, (p.All fun op => op.moves = false) →
      Safe (machine svc permits) KeysRun keysContract .dispatcher p (fun _ _ => True) s :=
    fun hp => unmoved_safe hp (fun _ _ _ _ => trivial) trivial
  have hreap : svc.reap.All fun op => op.moves = false := by
    refine Code.all_ask rfl fun done => Prog.All.forEach fun item _ => ?_
    refine (Service.apply_quiet_or _ _).mono ?_
    rintro op (hquiet | ⟨row', o, now, rfl, -⟩)
    · exact hquiet.moves
    · rfl
  refine unmoved_ask rfl (P := fun _ => True) (fun _ _ _ _ => trivial) trivial ?_
  intro _ _ now _ _ _ _ _ _
  refine safe_bind ((hall hreap).mono fun _ _ _ => ?_)
  refine safe_bind ((hall ((Service.quiet_of_tame (Service.timeouts_tame now)).mono
    fun _ => Op.Quiet.moves)).mono fun _ _ _ => ?_)
  refine safe_bind ((hall ((Service.quiet_of_plain (Service.leases_plain now)).mono
    fun _ => Op.Quiet.moves)).mono fun _ _ _ => ?_)
  refine safe_bind ((start_due_keys_safe hinline).mono fun _ _ _ => ?_)
  refine hall (Code.all_ask rfl fun sweeps => ?_)
  split
  · exact Code.all_ask rfl fun days => ⟨rfl, fun _ => trivial⟩
  · trivial

theorem keys_start_safe {t : Tid} {call : Call} {p : Code W Unit} (hinline : svc.inline = false)
    (hpermits : permits .recover = false) (hp : (machine svc permits).start t call s = some p) :
    Safe (machine svc permits) KeysRun keysContract t p (fun _ _ => True) s := by
  by_cases ht : t = .dispatcher
  · subst ht
    cases dispatcher_start hpermits hp
    exact tick_keys_safe hinline
  · refine safe_of_all (start_sweeps_not ht hp) (Contract.stable_const True) trivial ?_
      fun _ _ _ => trivial
    intro op hop s a r s' hinv _ hexec hallow
    obtain ⟨hframe, -⟩ := hallow.2.guar.frame ht
    have hkeeps := hallow.2.lawful.keeps
    refine ⟨hinv.shrinks hexec hallow ⟨hkeeps, fun ref row hrow => (hframe.phase ref).job hrow⟩,
      ⟨hkeeps, fun _ => ⟨hframe, fun id hid => (rows_step hexec).stays hop hid⟩⟩, trivial⟩

end Keys

/-- In every run of a threaded service in which no key of a live thread is released, no two
handlers of different jobs that share an exclusive key run at the same time. -/
theorem exclusive_apart {svc : Service W} {permits : Call → Bool} {rows : Ledger}
    {c : Config Tid (Op W) (Res W) (Sys W)} (hrows : rows.Consistent)
    (hempty : rows.NoEmptyKey) (hinline : svc.inline = false)
    (hpermits : permits .recover = false)
    (h : Reachable (machine svc permits) KeepsKeys (Sys.boot rows) c) :
    ∀ ref ref' row row', c.state.phase ref = .running row → c.state.phase ref' = .running row' →
      row.id ≠ row'.id → ∀ key ∈ row.exclusive, key ∉ row'.exclusive := by
  have hinit : KeysInv (Sys.boot rows : Sys W) := by
    refine ⟨workers_inv_boot hrows, hempty, ?_, ?_⟩
    · exact fun _ _ hrow => nomatch hrow
    · exact fun _ _ _ _ hrow => nomatch hrow
  have hholds := keysContract.sound hinit (fun _ => trivial)
    (fun t => Contract.stable_const True)
    (fun t call s p _ _ hp => keys_start_safe hinline hpermits hp)
    (tended_run hrows hinline hpermits h)
  intro ref ref' row row' hrow hrow'
  exact hholds.inv.apart ref ref' row row' (by rw [hrow]; rfl) (by rw [hrow']; rfl)

/-- Two queued jobs with the same key. -/
def twoQueued : Ledger :=
  ⟨[("a", echoRow "a" .queued ["k"]), ("b", echoRow "b" .queued ["k"])], by decide⟩

theorem two_queued_consistent : twoQueued.Consistent ∧ twoQueued.NoEmptyKey := by
  have hmem : ∀ id r, twoQueued.get? id = some r →
      (id = "a" ∧ r = echoRow "a" .queued ["k"]) ∨ (id = "b" ∧ r = echoRow "b" .queued ["k"]) := by
    intro id r hr
    simpa [twoQueued] using Dict.mem_items_iff.mpr hr
  refine ⟨?_, ?_⟩
  · intro id r hr
    rcases hmem id r hr with ⟨rfl, rfl⟩ | ⟨rfl, rfl⟩
    · exact ⟨rfl, by simp [echoRow, Status.terminal], by simp [echoRow],
        by simp [echoRow, Status.terminal], by simp [echoRow]⟩
    · exact ⟨rfl, by simp [echoRow, Status.terminal], by simp [echoRow],
        by simp [echoRow, Status.terminal], by simp [echoRow]⟩
  · intro id r hr
    rcases hmem id r hr with ⟨rfl, rfl⟩ | ⟨rfl, rfl⟩
    · simp [echoRow]
    · simp [echoRow]

/-- A tick has launched the first job and its handler runs. -/
def firstRuns : List (Choice Tid (Ans noWorld) Call) :=
  .start .dispatcher .tick :: steps .dispatcher 13 ++ .start (.worker 0) .work ::
    steps (.worker 0) 1

/-- The first job is cancelled before `_start_due` reads it again: its key is released while
its handler runs, and the second job is launched. -/
theorem exclusive_shared :
    twoQueued.Consistent ∧ twoQueued.NoEmptyKey ∧
    ∃ c, Reachable (machine echoService noRecover) (fun _ _ _ _ => True)
        (Sys.boot twoQueued) c ∧
      (c.state.phase 0).runs = some ("a", ["k"]) ∧ (c.state.phase 1).runs = some ("b", ["k"]) := by
  refine ⟨two_queued_consistent.1, two_queued_consistent.2, ?_⟩
  have hrun : ((Config.idle (Sys.boot twoQueued)).plays (machine echoService noRecover)
      (fun _ _ _ _ => True) (firstRuns ++
        .start (.request 0) (.cancel "a" "" CANCELLED) :: steps (.request 0) 2 ++
          steps .dispatcher 6 ++ .start (.worker 1) .work :: steps (.worker 1) 1)).bind (fun c =>
            some ((c.state.phase 0).runs, (c.state.phase 1).runs)) =
      some (some ("a", ["k"]), some ("b", ["k"])) := by decide +kernel
  obtain ⟨c, hc, hphase⟩ := exists_run_of_plays hrun
  obtain ⟨hfirst, hsecond⟩ : (c.state.phase 0).runs = some ("a", ["k"]) ∧
      (c.state.phase 1).runs = some ("b", ["k"]) := by simpa using hphase
  exact ⟨c, hc, hfirst, hsecond⟩

/-- While the handler of the first job runs, the second job waits for the key. -/
theorem exclusive_waits :
    twoQueued.Consistent ∧ twoQueued.NoEmptyKey ∧ echoService.inline = false ∧
    noRecover .recover = false ∧
    ∃ c, Reachable (machine echoService noRecover) KeepsKeys (Sys.boot twoQueued) c ∧
      (c.state.phase 0).runs = some ("a", ["k"]) ∧ c.state.status "b" = some .queued ∧
      ∀ ref ref' row row', c.state.phase ref = .running row → c.state.phase ref' = .running row' →
        row.id ≠ row'.id → ∀ key ∈ row.exclusive, key ∉ row'.exclusive := by
  refine ⟨two_queued_consistent.1, two_queued_consistent.2, rfl, rfl, ?_⟩
  have hrun : ((Config.idle (Sys.boot twoQueued)).plays (machine echoService noRecover)
      KeepsKeys (firstRuns ++ steps .dispatcher 3)).bind (fun c =>
        some ((c.state.phase 0).runs, c.state.status "b")) =
      some (some ("a", ["k"]), some .queued) := by decide +kernel
  obtain ⟨c, hc, hphase⟩ := exists_run_of_plays hrun
  obtain ⟨hfirst, hsecond⟩ : (c.state.phase 0).runs = some ("a", ["k"]) ∧
      c.state.status "b" = some .queued := by simpa using hphase
  exact ⟨c, hc, hfirst, hsecond, exclusive_apart two_queued_consistent.1 two_queued_consistent.2
    rfl rfl hc⟩

/-- In every run of a threaded service a job has one thread at most, whatever was cancelled, timed
out and launched again before. The service finds that thread under the id of the job, the job is not
queued, and it is still the job that the thread was given. -/
theorem one_thread_per_job {svc : Service W} {permits : Call → Bool} {rows : Ledger}
    {c : Config Tid (Op W) (Res W) (Sys W)} (hrows : rows.Consistent) (hinline : svc.inline = false)
    (hpermits : permits .recover = false)
    (h : Reachable (machine svc permits) (fun _ _ _ _ => True) (Sys.boot rows) c) :
    ∀ ref row, (c.state.phase ref).job = some row →
      c.state.workers.get? row.id = some ref ∧ c.state.status row.id ≠ some .queued ∧
        (∀ r, c.state.rows.get? row.id = some r → SameJob row r) ∧
        ∀ ref' row', (c.state.phase ref').job = some row' → row'.id = row.id → ref' = ref := by
  have hinv : WorkersInv c.state :=
    (tended_run hrows hinline hpermits h).invariant (workers_inv_boot hrows)
      fun _ _ _ _ _ _ _ _ hallow => hallow.2.after
  intro ref row hrow
  have htable := hinv.table ref row hrow
  refine ⟨htable, (hinv.listed row.id ref htable).2, (hinv.known ref row hrow).2, ?_⟩
  intro ref' row' hrow' hid
  have htable' := hinv.table ref' row' hrow'
  rw [hid, htable] at htable'
  exact (Option.some.inj htable').symm

/-- The thread of a job whose handler runs. -/
theorem one_thread_per_job_first :
    ∃ (c : Config Tid (Op noWorld) (Res noWorld) (Sys noWorld)) (row : Row),
      (c.state.phase 0).job = some row ∧ row.id = "a" ∧ c.state.workers.get? row.id = some 0 := by
  have hrun : ((Config.idle (Sys.boot twoQueued)).plays (machine echoService noRecover)
      (fun _ _ _ _ => True) firstRuns).bind (fun c => some ((c.state.phase 0).job.map Row.id)) =
      some (some "a") := by decide +kernel
  obtain ⟨c, hc, hjob⟩ := exists_run_of_plays hrun
  obtain ⟨row, hrow, hid⟩ := Option.map_eq_some_iff.mp (Option.some.inj hjob)
  exact ⟨c, row, hrow, hid,
    (one_thread_per_job two_queued_consistent.1 rfl rfl hc 0 row hrow).1⟩

end SystemsManager.Jobs
