import SystemsManager.Python.Items
import SystemsManager.Users.Store

/-!
# The last usable admin stays

A store that has an admin who can sign in keeps one, whatever its operations are called with and
whether they return or raise. Read `usable_admin_kept`. Each operation is reduced to what it writes:
`save_keeps` asks for a usable admin in the written document, and `mutate_keeps` asks of the change
of one record that it takes no usable admin away unless there is another.
-/

namespace SystemsManager.Users

open Python Concurrency

/-- Some user is a usable admin. -/
def UsableIn (users : Fields) : Prop := ∃ name u, (name, Json.dict u) ∈ users ∧ usableAdmin u = true

/-- Some user of another name is one. -/
def UsableBeside (name : String) (users : Fields) : Prop :=
  ∃ other u, (other, Json.dict u) ∈ users ∧ other ≠ name ∧ usableAdmin u = true

/-- A document with a usable admin. -/
def UsableDoc (data : Fields) : Prop := ∃ users, getItem data "users" = .dict users ∧ UsableIn users

/-- At least one admin of the store is neither disabled nor has to be given a new password. -/
def HasUsableAdmin (st : UserStore) : Prop := ∃ data, st.file.parsed = .ok data ∧ UsableDoc data

section Dictionaries

variable {key other name : String} {value : Json} {items users : Fields} {item : String × Json}

theorem get_item_pop (h : other ≠ key) : getItem (popItem key items) other =
    getItem items other := by
  unfold getItem popItem
  induction items with
  | nil => rfl
  | cons item rest ih =>
      rw [List.filter_cons, lookup_items_cons]
      by_cases hkey : item.1 = key
      · simpa [hkey, h] using ih
      · by_cases hother : other = item.1
        · simp [hkey, hother, lookup_items_cons]
        · simpa [hkey, hother, lookup_items_cons] using ih

theorem get_item_pop_self : getItem (popItem key items) key = .null := by
  unfold getItem popItem
  induction items with
  | nil => rfl
  | cons item rest ih =>
      rw [List.filter_cons]
      by_cases hkey : item.1 = key
      · simpa [hkey] using ih
      · simpa [hkey, Ne.symm hkey, lookup_items_cons] using ih

theorem usable_admin_iff {u : Fields} : usableAdmin u = true ↔
    isText (getItem u "role") "admin" = true ∧ (getItem u "disabled").truthy = false ∧
      (getItem u "reset_required").truthy = false := by
  simp [usableAdmin, isText, and_assoc]

theorem mem_set_or_found (h : item ∈ items) :
    item ∈ setItems key value items ∨ (item.1 = key ∧ items.lookup key = some item.2) := by
  induction items with
  | nil => cases h
  | cons first rest ih =>
      rw [setItems, lookup_items_cons]
      by_cases hkey : first.1 = key
      · rw [if_pos hkey, if_pos hkey.symm]
        cases h with
        | head => exact Or.inr ⟨hkey, rfl⟩
        | tail _ h => exact Or.inl (List.mem_cons_of_mem _ h)
      · rw [if_neg hkey, if_neg (Ne.symm hkey)]
        cases h with
        | head => exact Or.inl (List.mem_cons_self ..)
        | tail _ h => exact (ih h).imp_left (List.mem_cons_of_mem _)

/-- So is what a deletion removes. -/
theorem mem_del_or_found (h : item ∈ items) :
    item ∈ delItem key items ∨ (item.1 = key ∧ items.lookup key = some item.2) := by
  unfold delItem
  induction items with
  | nil => cases h
  | cons first rest ih =>
      rw [lookup_items_cons]
      by_cases hkey : first.1 = key
      · rw [List.eraseP_cons_of_pos (by simpa using hkey), if_pos hkey.symm]
        cases h with
        | head => exact Or.inr ⟨hkey, rfl⟩
        | tail _ h => exact Or.inl h
      · rw [List.eraseP_cons_of_neg (by simpa using hkey), if_neg (Ne.symm hkey)]
        cases h with
        | head => exact Or.inl (List.mem_cons_self ..)
        | tail _ h => exact (ih h).imp_left (List.mem_cons_of_mem _)

theorem mem_set_self : (key, value) ∈ setItems key value items := by
  have hlookup : (setItems key value items).lookup key = some value := by
    rw [lookup_set_items, if_pos rfl]
  exact mem_of_lookup_items hlookup

/-- The defaults leave the users alone. -/
theorem users_with_defaults {data : Fields} (husers : getItem data "users" = .dict users) :
    getItem (withDefaults data) "users" = .dict users := by
  have hfound : (data.lookup "users").isSome = true := by
    unfold getItem at husers
    cases hlookup : data.lookup "users" with
    | none => rw [hlookup] at husers; cases husers
    | some value => rfl
  have hkept : getItem (setDefault "schema_version" (.int 1) data) "users" = .dict users := by
    unfold setDefault
    split
    · exact husers
    · rw [get_item_set, if_neg (by decide)]
      exact husers
  have hthere : ((setDefault "schema_version" (.int 1) data).lookup "users").isSome = true := by
    unfold setDefault
    split
    · exact hfound
    · rw [lookup_set_items, if_neg (by decide)]
      exact hfound
  unfold withDefaults
  rw [setDefault, if_pos hthere]
  exact hkept

theorem usable_doc_with_defaults {data : Fields} (h : UsableDoc data) :
    UsableDoc (withDefaults data) := by
  obtain ⟨users, husers, husable⟩ := h
  exact ⟨users, users_with_defaults husers, husable⟩

end Dictionaries

section Rules

/-- `HasUsableAdmin` as an assertion of the rules. -/
abbrev Usable : Assertion Call Call.Answer UserStore := fun st _ => HasUsableAdmin st

variable {lower : String → String} {α : Type}

theorem call_keeps {c : Call} : Keeps Usable (call c) := keeps_ask fun _ _ _ h => h

@[simp] theorem remember_file (st : UserStore) : st.remember.file = st.file := by
  unfold UserStore.remember
  split <;> rfl

theorem doc_read {A : File → Log Call Call.Answer → Prop}
    (hopen : ∀ file log opened, A file log → A file (log ++ [⟨.openFile, opened⟩])) :
    Triple (fun st log => A st.file log) doc
      (fun data st log => A st.file log ∧ st.file.parsed = .ok data)
      (fun e st log => A st.file log ∧ ∀ message, e ≠ .valueError message) := by
  refine Triple.seq (R := fun read st log => read = st ∧ A st.file log)
    (triple_get fun st l h => ⟨rfl, h⟩) fun read => ?_
  split
  · rename_i data hcached
    refine triple_pure fun st l ⟨hread, h⟩ => ⟨h, ?_⟩
    subst hread
    unfold UserStore.cached at hcached
    split at hcached
    · rename_i key doc hcache
      split at hcached
      · rename_i hkey
        rw [hkey] at hcache
        exact Option.some.inj hcached ▸ read.current doc hcache
      · cases hcached
    · cases hcached
  · refine Triple.seq (R := fun _ st log => read = st ∧ A st.file log)
      (triple_ask fun opened st l h => ⟨h.1, hopen _ _ opened h.2⟩) fun opened => ?_
    split
    · refine Triple.seq (R := fun data st log => A st.file log ∧ st.file.parsed = .ok data)
        (triple_lift (fun data st l hparsed h => ?_) fun e st l herror h =>
          ⟨h.2, fun message => ?_⟩)
        fun data => ?_
      · obtain ⟨rfl, h⟩ := h
        exact ⟨h, hparsed⟩
      · rintro rfl
        unfold File.parsed at herror
        split at herror <;> cases herror
      · refine Triple.seq (R := fun _ st log => A st.file log ∧ st.file.parsed = .ok data)
          (triple_modify fun st l h => ?_) fun _ => triple_pure fun _ _ h => h
        rw [remember_file]
        exact h
    · exact triple_raise fun st l h => ⟨h.2, fun message => by rintro ⟨⟩⟩

theorem doc_usable : Triple Usable doc (fun data st _ => HasUsableAdmin st ∧ UsableDoc data)
    (fun _ => Usable) := by
  refine (doc_read (A := fun file _ => ∃ data, file.parsed = .ok data ∧ UsableDoc data)
    fun _ _ _ h => h).conseq (fun _ _ h => h) (fun data st _ h => ⟨h.1, ?_⟩) fun _ _ _ h => h.1
  obtain ⟨⟨other, hother, husable⟩, hparsed⟩ := h
  rw [hother] at hparsed
  exact Except.ok.inj hparsed ▸ husable

theorem save_keeps {data : Fields} (h : UsableDoc data) : Keeps Usable (save data) := by
  have hwritten : ∀ st : UserStore, HasUsableAdmin (st.replace data) := fun st =>
    ⟨withDefaults data, rfl, usable_doc_with_defaults h⟩
  refine call_keeps.seq fun written => ?_
  cases written with
  | done => exact keeps_modify fun st l _ => hwritten st
  | raised => exact keeps_raise
  | raisedAfterRename =>
      exact Keeps.seq (keeps_modify fun st l _ => hwritten st) fun _ => keeps_raise

theorem save_users_keeps {data users : Fields} (h : UsableIn users) :
    Keeps Usable (save (setItems "users" (.dict users) data)) := by
  refine save_keeps ⟨users, ?_, h⟩
  rw [get_item_set, if_pos rfl]

theorem enabled_admins_beside {name : String} {users : Fields} {n : ℕ}
    (h : enabledAdmins users name = .ok n) (hn : n ≠ 0) : UsableBeside name users := by
  induction users generalizing n with
  | nil => exact absurd (Except.ok.inj h).symm hn
  | cons item rest ih =>
      obtain ⟨other, u⟩ := item
      cases u with
      | dict u =>
          obtain ⟨others, hothers, hcount⟩ := bind_eq_ok.mp h
          by_cases hu : (usableAdmin u && other != name) = true
          · obtain ⟨husable, hne⟩ := Bool.and_eq_true_iff.mp hu
            exact ⟨other, u, List.mem_cons_self .., by simpa using hne, husable⟩
          · rw [if_neg hu] at hcount
            have hrest := ih hothers (by rw [pure_eq_ok.mp hcount]; exact hn)
            obtain ⟨third, v, hmem, hv⟩ := hrest
            exact ⟨third, v, List.mem_cons_of_mem _ hmem, hv⟩
      | null | bool _ | int _ | float _ | str _ | list _ => cases h

theorem guard_last_beside {applies : Bool} {users : Fields} {name message : String} :
    Triple Usable (guardLast applies users name message)
      (fun _ st _ => HasUsableAdmin st ∧ (applies = true → UsableBeside name users))
      (fun _ => Usable) := by
  refine triple_only_if (fun _ => ?_) fun st l hb h => ⟨h, fun happlies => ?_⟩
  · refine Triple.seq (R := fun others st _ => HasUsableAdmin st ∧
      enabledAdmins users name = .ok others)
      (triple_lift (fun others st l heq h => ⟨h, heq⟩) fun _ st l _ h => h) fun others => ?_
    refine triple_only_if (fun _ => triple_raise fun st l h => h.1) fun st l hb h =>
      ⟨h.1, fun _ => ?_⟩
    exact enabled_admins_beside h.2 (of_decide_eq_false hb)
  · rw [hb] at happlies
    cases happlies

theorem users_of_eq {data users : Fields} (h : usersOf data = .ok users) :
    getItem data "users" = .dict users := by
  unfold usersOf at h
  split at h
  · rename_i other hother
    rw [hother, Except.ok.inj h]
  · cases h

/-- The users of a document that was read. -/
theorem lift_users_usable {data : Fields} :
    Triple (fun st _ => HasUsableAdmin st ∧ UsableDoc data)
      ((Proc.lift (usersOf data) : Method Fields))
      (fun users st _ => HasUsableAdmin st ∧ UsableIn users) (fun _ => Usable) := by
  refine triple_lift (fun users st l hread h => ⟨h.1, ?_⟩) fun _ st l _ h => h.1
  obtain ⟨others, hothers, husable⟩ := h.2
  rw [users_of_eq hread] at hothers
  cases hothers
  exact husable

theorem usable_with {φ : Prop} {p : Method α} {Q : α → Assertion Call Call.Answer UserStore}
    (h : φ → Triple Usable p Q fun _ => Usable) :
    Triple (fun st _ => HasUsableAdmin st ∧ φ) p Q fun _ => Usable :=
  fun st past hst => h hst.2 st past hst.1

theorem raise_if_keeps {b : Bool} {e : Raised} : Keeps Usable (Proc.onlyIf b (Proc.raise e)) :=
  Keeps.only_if keeps_raise

theorem mutate_keeps {username : String} {fn : Fields → String → Fields → Method Fields}
    (h : ∀ users name u, Triple Usable (fn users name u)
      (fun changed st _ => HasUsableAdmin st ∧
        (UsableBeside name users ∨ (usableAdmin u = true → usableAdmin changed = true)))
      (fun _ => Usable)) : Keeps Usable (mutate lower username fn) := by
  refine doc_usable.seq fun data => lift_users_usable.seq fun users => usable_with fun husers => ?_
  refine raise_if_keeps.seq fun _ => ?_
  split
  · rename_i u hu
    refine (h users _ u).seq fun changed => usable_with fun hchanged => ?_
    refine call_keeps.seq fun ts => ?_
    refine Keeps.seq (save_users_keeps ?_) fun _ => keeps_pure
    have hstamped : usableAdmin (setItems "updated_at" (.str ts) changed) =
      usableAdmin changed := by
      unfold usableAdmin
      simp [get_item_set]
    rcases hchanged with ⟨other, v, hmem, hne, hv⟩ | hsame
    · rcases mem_set_or_found hmem with hkept | ⟨hname, -⟩
      · exact ⟨other, v, hkept, hv⟩
      · exact absurd hname hne
    · obtain ⟨other, v, hmem, hv⟩ := husers
      rcases mem_set_or_found hmem with hkept | ⟨hname, hfound⟩
      · exact ⟨other, v, hkept, hv⟩
      · -- The usable admin is the user that changes.
        have huv : u = v := by
          unfold getItem at hu
          rw [hfound] at hu
          cases hu
          rfl
        exact ⟨_, _, mem_set_self, by rw [hstamped]; exact hsame (huv ▸ hv)⟩
  · exact keeps_raise

end Rules

section Operations

variable {lower : String → String} {username passwordHash : String}

theorem check_role_keeps {role : Json} : Keeps Usable (checkRole role) := raise_if_keeps

/-- A new user takes nobody's place. -/
theorem create_keeps {role : Json} {mustChange : Bool} :
    Keeps Usable (create lower username passwordHash role mustChange) := by
  refine raise_if_keeps.seq fun _ => check_role_keeps.seq fun _ => ?_
  refine doc_usable.seq fun data => lift_users_usable.seq fun users => usable_with fun husers => ?_
  refine Triple.seq (R := fun _ st _ => HasUsableAdmin st ∧
    (users.lookup (normalize lower username)).isSome = false) ?_ fun _ => usable_with fun hnew => ?_
  · exact triple_only_if (fun _ => triple_raise fun _ _ h => h) fun st l hb h => ⟨h, hb⟩
  · refine call_keeps.seq fun ts => Keeps.seq (save_users_keeps ?_) fun _ => keeps_pure
    obtain ⟨other, u, hmem, hu⟩ := husers
    rcases mem_set_or_found hmem with hkept | ⟨hname, hfound⟩
    · exact ⟨other, u, hkept, hu⟩
    · rw [hfound] at hnew
      cases hnew

theorem set_password_keeps {mustChange : Bool} :
    Keeps Usable (setPassword lower username passwordHash mustChange) := by
  refine mutate_keeps fun users name u => Triple.seq call_keeps fun ts => ?_
  refine triple_pure fun st l h => ⟨h, Or.inr fun hu => ?_⟩
  have hparts := usable_admin_iff.mp hu
  have hpopped : ∀ items : Fields, getItem items "role" = getItem u "role" →
      getItem items "disabled" = getItem u "disabled" →
      usableAdmin (popItem "must_change" (popItem "reset_required" items)) = true := by
    intro items hrole hdisabled
    refine usable_admin_iff.mpr ⟨?_, ?_, ?_⟩
    · rw [get_item_pop (by decide), get_item_pop (by decide), hrole]
      exact hparts.1
    · rw [get_item_pop (by decide), get_item_pop (by decide), hdisabled]
      exact hparts.2.1
    · rw [get_item_pop (by decide), get_item_pop_self]
      rfl
  have hbase := hpopped (setItems "password_changed_at" (.str ts)
    (setItems "password_hash" (.str passwordHash) u)) (by simp [get_item_set])
    (by simp [get_item_set])
  split
  · have hkeep : ∀ items : Fields,
        usableAdmin (setItems "must_change" (.bool true) items) = usableAdmin items := by
      intro items
      unfold usableAdmin
      simp [get_item_set]
    rw [hkeep]
    exact hbase
  · exact hbase

theorem set_temporary_keeps : Keeps Usable (setTemporary lower username passwordHash) := by
  refine doc_usable.seq fun data => lift_users_usable.seq fun users => usable_with fun _ => ?_
  split
  · refine Keeps.seq (mutate_keeps fun users name u => triple_pure fun st l h => ?_) fun _ =>
      set_password_keeps.seq fun _ => keeps_pure
    refine ⟨h, Or.inr fun hu => ?_⟩
    obtain ⟨hrole, -, hreset⟩ := usable_admin_iff.mp hu
    refine usable_admin_iff.mpr ⟨?_, ?_, ?_⟩
    · simpa [get_item_set] using hrole
    · rw [get_item_set, if_pos rfl]
      rfl
    · simpa [get_item_set] using hreset
  · exact create_keeps.seq fun _ => keeps_pure

theorem set_role_keeps {role : Json} : Keeps Usable (setRole lower username role) := by
  refine check_role_keeps.seq fun _ => mutate_keeps fun users name u => ?_
  refine guard_last_beside.seq fun _ => triple_pure fun st l ⟨h, hguard⟩ => ⟨h, ?_⟩
  by_cases happlies : (isText (getItem u "role") "admin" && !isText role "admin") = true
  · exact Or.inl (hguard happlies)
  · refine Or.inr fun hu => ?_
    obtain ⟨hrole, hdisabled, hreset⟩ := usable_admin_iff.mp hu
    refine usable_admin_iff.mpr ⟨?_, ?_, ?_⟩
    · rw [get_item_set, if_pos rfl]
      simpa [hrole] using happlies
    · simpa [get_item_set] using hdisabled
    · simpa [get_item_set] using hreset

theorem set_disabled_keeps {disabled : Bool} :
    Keeps Usable (setDisabled lower username disabled) := by
  refine mutate_keeps fun users name u => ?_
  refine guard_last_beside.seq fun _ => triple_pure fun st l ⟨h, hguard⟩ => ⟨h, ?_⟩
  by_cases happlies : (disabled && isText (getItem u "role") "admin" &&
      !(getItem u "disabled").truthy) = true
  · exact Or.inl (hguard happlies)
  · refine Or.inr fun hu => ?_
    obtain ⟨hrole, hdisabled, hreset⟩ := usable_admin_iff.mp hu
    refine usable_admin_iff.mpr ⟨?_, ?_, ?_⟩
    · simpa [get_item_set] using hrole
    · rw [get_item_set, if_pos rfl]
      show disabled = false
      simpa [hrole, hdisabled] using happlies
    · simpa [get_item_set] using hreset

/-- And so is one deleted. -/
theorem delete_keeps : Keeps Usable (delete lower username) := by
  refine doc_usable.seq fun data => lift_users_usable.seq fun users => usable_with fun husers => ?_
  refine raise_if_keeps.seq fun _ => ?_
  split
  · rename_i u hu
    refine guard_last_beside.seq fun _ => usable_with fun hguard => save_users_keeps ?_
    by_cases happlies : (isText (getItem u "role") "admin" && !(getItem u "disabled").truthy) = true
    · obtain ⟨other, v, hmem, hne, hv⟩ := hguard happlies
      rcases mem_del_or_found hmem with hkept | ⟨hname, -⟩
      · exact ⟨other, v, hkept, hv⟩
      · exact absurd hname hne
    · obtain ⟨other, v, hmem, hv⟩ := husers
      rcases mem_del_or_found hmem with hkept | ⟨hname, hfound⟩
      · exact ⟨other, v, hkept, hv⟩
      · -- The guard applies to every usable admin.
        have huv : u = v := by
          unfold getItem at hu
          rw [hfound] at hu
          cases hu
          rfl
        obtain ⟨hrole, hdisabled, -⟩ := usable_admin_iff.mp (huv ▸ hv)
        exact absurd (by simp [hrole, hdisabled]) happlies
  · exact keeps_raise

theorem stamp_login_keeps : Keeps Usable (stampLogin lower username) := by
  refine Keeps.catch ?_ fun e => ?_
  · refine Keeps.seq (mutate_keeps fun users name u => Triple.seq call_keeps fun ts => ?_) fun _ =>
      keeps_pure
    refine triple_pure fun st l h => ⟨h, Or.inr fun hu => ?_⟩
    rw [usable_admin_iff] at hu ⊢
    simpa [get_item_set] using hu
  · cases e with
    | keyError _ => exact keeps_pure
    | valueError _ | malformed | osError => exact keeps_raise

theorem seed_admin_keeps : Keeps Usable (seedAdmin lower username passwordHash) := by
  refine doc_usable.seq fun data => usable_with fun _ => ?_
  split
  · exact keeps_pure
  · exact create_keeps.seq fun _ => keeps_pure

end Operations

/-- A call of one of the operations. -/
inductive Operation where
  | create (username passwordHash : String) (role : Json) (mustChange : Bool)
  | setPassword (username passwordHash : String) (mustChange : Bool)
  | setTemporary (username passwordHash : String)
  | setRole (username : String) (role : Json)
  | setDisabled (username : String) (disabled : Bool)
  | delete (username : String)
  | stampLogin (username : String)
  | seedAdmin (username passwordHash : String)

/-- The call, without its result. -/
def Operation.perform (lower : String → String) : Operation → Method Unit
  | .create username passwordHash role mustChange => do
      let _ ← Users.create lower username passwordHash role mustChange
      pure ()
  | .setPassword username passwordHash mustChange => do
      let _ ← Users.setPassword lower username passwordHash mustChange
      pure ()
  | .setTemporary username passwordHash => do
      let _ ← Users.setTemporary lower username passwordHash
      pure ()
  | .setRole username role => do
      let _ ← Users.setRole lower username role
      pure ()
  | .setDisabled username disabled => do
      let _ ← Users.setDisabled lower username disabled
      pure ()
  | .delete username => Users.delete lower username
  | .stampLogin username => Users.stampLogin lower username
  | .seedAdmin username passwordHash => do
      let _ ← Users.seedAdmin lower username passwordHash
      pure ()

/-- The store that a sequence of calls leaves, each of which returned or raised. -/
inductive After (lower : String → String) (st : UserStore) : UserStore → Prop where
  | start : After lower st st
  | call (op : Operation) (mid last : UserStore) (log : Log Call Call.Answer)
      (result : Except Raised Unit) (h : After lower st mid)
      (hrun : (op.perform lower mid).Runs log (result, last)) : After lower st last

section Sequences

variable {lower : String → String} {st last : UserStore}

theorem operation_keeps (op : Operation) : Keeps Usable (op.perform lower) := by
  cases op with
  | create username passwordHash role mustChange => exact create_keeps.seq fun _ => keeps_pure
  | setPassword username passwordHash mustChange => exact set_password_keeps.seq fun _ => keeps_pure
  | setTemporary username passwordHash => exact set_temporary_keeps.seq fun _ => keeps_pure
  | setRole username role => exact set_role_keeps.seq fun _ => keeps_pure
  | setDisabled username disabled => exact set_disabled_keeps.seq fun _ => keeps_pure
  | delete username => exact delete_keeps
  | stampLogin username => exact stamp_login_keeps
  | seedAdmin username passwordHash => exact seed_admin_keeps.seq fun _ => keeps_pure

/-- After every call of a sequence there still is a usable admin. -/
theorem usable_admin_kept (h : HasUsableAdmin st) (hafter : After lower st last) :
    HasUsableAdmin last := by
  induction hafter with
  | start => exact h
  | call op mid last log result _ hrun ih =>
      have hends := operation_keeps op mid [] ih log (result, last) hrun
      cases result with
      | ok _ => exact hends
      | error _ => exact hends

/-- A store with two admins. -/
def twoAdmins : UserStore := .open_ (.holds (.dict [("users", .dict
  [("a", .dict [("role", .str "admin")]), ("b", .dict [("role", .str "admin")])])]))

/-- Every call succeeds. -/
def succeeding : (c : Call) → c.Answer
  | .openFile => true
  | .writeDurable _ => .done
  | .nowIso => "now"

/-- The first admin is demoted. -/
def demoted : Except Raised Unit × UserStore :=
  (Prog.follow succeeding ((Operation.setRole "a" (.str "operator")).perform id twoAdmins)).2

/-- Then the other one cannot be disabled. -/
def refused : Except Raised Unit × UserStore :=
  (Prog.follow succeeding ((Operation.setDisabled "b" true).perform id demoted.2)).2

/-- The demotion returns, the other call raises, and the second admin is still usable. -/
theorem usable_admin_kept_refused : demoted.1.isOk = true ∧ refused.1.isOk = false ∧
    HasUsableAdmin refused.2 := by
  have hstart : HasUsableAdmin twoAdmins := by
    refine ⟨_, rfl, _, rfl, "a", [("role", .str "admin")], List.mem_cons_self .., ?_⟩
    decide
  have hfirst : After id twoAdmins demoted.2 :=
    .call (.setRole "a" (.str "operator")) _ _ _ _ .start (runs_follow succeeding _)
  have hsecond : After id twoAdmins refused.2 :=
    .call (.setDisabled "b" true) _ _ _ _ hfirst (runs_follow succeeding _)
  exact ⟨by decide +kernel, by decide +kernel, usable_admin_kept hstart hsecond⟩

end Sequences

end SystemsManager.Users
