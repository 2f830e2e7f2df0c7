import SystemsManager.Users.Processes

/-!
# What the operations write

Each method of the store writes a document that it has made from the one that it read. `Writes W`
says of a run that every document it has written, or tried to write, satisfies `W`; the rules below
follow the methods. Read `session_keeps`: a request that neither gives a user another password nor
deletes the user writes the password hash that it has read.
-/

namespace SystemsManager.Users

open Python Concurrency

section Hashes

variable {data users u : Fields} {n name : String}

theorem hash_in_set (husers : getItem data "users" = .dict users) :
    hashIn (setItems "users" (.dict (setItems n (.dict u) users)) data) name =
      if name = n then (getItem u "password_hash").str? else hashIn data name := by
  unfold hashIn
  rw [get_item_set, if_pos rfl, husers]
  dsimp only
  rw [get_item_set]
  by_cases hname : name = n
  · rw [if_pos hname, if_pos hname]
  · rw [if_neg hname, if_neg hname]

theorem get_item_del (hne : name ≠ n) : getItem (delItem n users) name = getItem users name := by
  unfold getItem delItem
  congr 1
  induction users with
  | nil => rfl
  | cons item rest ih =>
      by_cases hitem : item.1 = n
      · rw [List.eraseP_cons_of_pos (by simpa using hitem), lookup_items_cons, if_neg]
        rw [hitem]
        exact hne
      · rw [List.eraseP_cons_of_neg (by
          simpa using hitem), lookup_items_cons, lookup_items_cons, ih]

theorem hash_with_defaults : hashIn (withDefaults data) name = hashIn data name := by
  have hother : getItem (setDefault "schema_version" (.int 1) data) "users" =
    getItem data "users" := by
    unfold setDefault
    split
    · rfl
    · rw [get_item_set, if_neg (by decide)]
  have husers : getItem (withDefaults data) "users" = getItem data "users" ∨
      (getItem data "users" = .null ∧ getItem (withDefaults data) "users" = .dict []) := by
    unfold withDefaults
    rw [setDefault]
    split
    · exact Or.inl hother
    next hnone =>
        refine Or.inr ⟨?_, by rw [get_item_set, if_pos rfl]⟩
        rw [← hother]
        unfold getItem
        rw [Option.not_isSome_iff_eq_none.mp hnone]
        rfl
  unfold hashIn
  rcases husers with hsame | ⟨hnull, hempty⟩
  · rw [hsame]
  · rw [hnull, hempty]
    rfl

theorem hash_holds : (File.holds (.dict data)).hash name = hashIn data name := hash_with_defaults

end Hashes

section Rules

/-- Every document that the run has written satisfies `W`, and so does every one that it tried to
write. -/
def Writes (W : Fields → Prop) (log : Log Call Call.Answer) : Prop :=
  ∀ data r, (⟨.writeDurable data, r⟩ : (c : Call) × c.Answer) ∈ log → W data

/-- The run has written a document that satisfies `W`. -/
def Saved (W : Fields → Prop) (log : Log Call Call.Answer) : Prop :=
  ∃ data, (⟨.writeDurable data, .done⟩ : (c : Call) × c.Answer) ∈ log ∧ W data

/-- The method has not written yet what it shall write from this file. -/
abbrev Reads (loaded : File) (W : Fields → Prop) : Assertion Call Call.Answer UserStore :=
  fun st log => st.file = loaded ∧ Writes W log

/-- `Writes` as an assertion of the rules. -/
abbrev Wrote (W : Fields → Prop) : Assertion Call Call.Answer UserStore := fun _ log => Writes W log

variable {lower : String → String} {W : Fields → Prop} {loaded : File} {username : String}

theorem Writes.part {log rest : Log Call Call.Answer} (h : Writes W (log ++ rest)) : Writes W log :=
  fun data r hmem => h data r (List.mem_append_left _ hmem)

/-- A call that writes nothing. -/
theorem Writes.concat {log : Log Call Call.Answer} {c : Call} {r : c.Answer} (h : Writes W log)
    (hc : ∀ data, c = .writeDurable data → W data) : Writes W (log ++ [⟨c, r⟩]) := by
  intro data r' hmem
  rcases List.mem_append.mp hmem with hmem | hmem
  · exact h data r' hmem
  · cases List.mem_singleton.mp hmem
    exact hc data rfl

theorem now_writes : Keeps (Wrote W) (call .nowIso) :=
  triple_ask fun _ _ _ h => h.concat fun _ hc => by cases hc

theorem doc_reads : Triple (Reads loaded W) doc
    (fun data _ log => loaded.parsed = .ok data ∧ Writes W log) (fun _ => Wrote W) := by
  refine (doc_read (A := fun file log => file = loaded ∧ Writes W log) fun file log
    opened h => ?_).conseq
    (fun _ _ h => h) (fun data st _ h => ⟨h.1.1 ▸ h.2, h.1.2⟩) fun _ _ _ h => h.1.2
  exact ⟨h.1, h.2.concat fun _ hc => by cases hc⟩

theorem save_writes {data : Fields} (hW : W data) :
    Triple (Wrote W) (save data) (fun _ _ log => Writes W log ∧ Saved W log)
      (fun _ => Wrote W) := by
  refine Triple.seq (R := fun written _ log => Writes W log ∧ (written = .done → Saved W log))
    (triple_ask fun written st l h => ⟨h.concat fun other hc => ?_, fun hdone => ?_⟩) fun written =>
      ?_
  · cases hc
    exact hW
  · subst hdone
    exact ⟨data, List.mem_append_right _ (List.mem_singleton_self _), hW⟩
  · cases written with
    | done => exact triple_modify fun _ _ h => ⟨h.1, h.2 rfl⟩
    | raised => exact triple_raise fun _ _ h => h.1
    | raisedAfterRename =>
        exact Triple.seq (R := fun _ => Wrote W) (triple_modify fun _ _ h => h.1)
          fun _ => triple_raise fun _ _ h => h

theorem writes_with {α : Type} {φ : Prop} {p : Method α}
    {Q : α → Assertion Call Call.Answer UserStore}
    {E : Raised → Assertion Call Call.Answer UserStore} (h : φ → Triple (Wrote W) p Q E) :
    Triple (fun _ log => φ ∧ Writes W log) p Q E :=
  fun st past hst => h hst.1 st past hst.2

/-- `raise` under a condition. -/
theorem raise_if_writes {P : Assertion Call Call.Answer UserStore} {b : Bool} {e : Raised}
    (h : ∀ st log, P st log → Writes W log) :
    Triple P (Proc.onlyIf b (Proc.raise e) : Method Unit) (fun _ st log => b = false ∧ P st log)
      (fun _ => Wrote W) :=
  triple_only_if (fun _ => triple_raise fun _ _ hst => h _ _ hst) fun _ _ hb hst => ⟨hb, hst⟩

/-- A change of one record. -/
theorem mutate_writes {fn : Fields → String → Fields → Method Fields}
    (hfn : ∀ data users u, loaded.parsed = .ok data → getItem data "users" = .dict users →
      getItem users (normalize lower username) = .dict u →
      Triple (Wrote W) (fn users (normalize lower username) u)
        (fun changed _ log => (∀ ts, W (setItems "users" (.dict (setItems (normalize lower username)
          (.dict (setItems "updated_at" (.str ts) changed)) users)) data)) ∧ Writes W log)
        (fun _ => Wrote W)) :
    Triple (Reads loaded W) (mutate lower username fn) (fun _ _ log => Writes W log ∧ Saved W log)
      (fun _ => Wrote W) := by
  refine doc_reads.seq fun data => writes_with fun hparsed => ?_
  refine Triple.seq (R := fun users _ log => getItem data "users" = .dict users ∧ Writes W log)
    (triple_lift (fun users _ _ hread h => ⟨users_of_eq hread, h⟩) fun _ _ _ _ h =>
      h) fun users => ?_
  refine writes_with fun husers => (raise_if_writes fun _ _ h => h).seq fun _ =>
    writes_with fun _ => ?_
  split
  · rename_i u hu
    refine (hfn data users u hparsed husers hu).seq fun changed => writes_with fun hW => ?_
    refine Triple.seq now_writes fun ts => (save_writes (hW ts)).seq fun _ => ?_
    exact triple_pure fun _ _ h => h
  · exact triple_raise fun _ _ h => h

theorem create_writes {passwordHash : String} {role : Json} {mustChange : Bool}
    (hW : ∀ data users ts, loaded.parsed = .ok data → getItem data "users" = .dict users →
      users.lookup (normalize lower username) = none →
      W (setItems "users" (.dict (setItems (normalize lower username)
        (.dict (newUser passwordHash role mustChange ts)) users)) data)) :
    Triple (Reads loaded W) (create lower username passwordHash role mustChange)
      (fun _ _ log => Writes W log ∧ Saved W log) (fun _ => Wrote W) := by
  refine Triple.seq (R := fun _ => Reads loaded W)
    ((raise_if_writes fun _ _ h => h.2).conseq (fun _ _ h => h) (fun _ _ _ h => h.2)
      fun _ _ _ h => h) fun _ => ?_
  refine Triple.seq (R := fun _ => Reads loaded W)
    ((raise_if_writes fun _ _ h => h.2).conseq (fun _ _ h => h) (fun _ _ _ h => h.2)
      fun _ _ _ h => h) fun _ => ?_
  refine doc_reads.seq fun data => writes_with fun hparsed => ?_
  refine Triple.seq (R := fun users _ log => getItem data "users" = .dict users ∧ Writes W log)
    (triple_lift (fun users _ _ hread h => ⟨users_of_eq hread, h⟩) fun _ _ _ _ h =>
      h) fun users => ?_
  refine writes_with fun husers => (raise_if_writes fun _ _ h => h).seq fun _ =>
    writes_with fun hnew => ?_
  refine Triple.seq now_writes fun ts =>
    (save_writes (hW data users ts hparsed husers ?_)).seq fun _ => ?_
  · simpa using hnew
  · exact triple_pure fun _ _ h => h

end Rules

section Hash

/-- The document has this password hash for the user, if the file that was read has it. -/
def HashKept (name hash : String) (loaded : File) (data : Fields) : Prop :=
  loaded.hash name = some hash → hashIn data name = some hash

/-- Whatever the method reads, it writes the password hash that it has read. -/
def KeepsHash (name hash : String) (m : Method Bool) : Prop :=
  ∀ loaded, Triple (Reads loaded (HashKept name hash loaded)) m
    (fun _ => Wrote (HashKept name hash loaded)) (fun _ => Wrote (HashKept name hash loaded))

/-- The method writes this password hash and no other, and where it returns it has written it. -/
def SavesHash (name hash : String) (m : Method Bool) : Prop :=
  ∀ loaded, Triple (Reads loaded fun data => hashIn data name = some hash) m
    (fun _ _ log => Writes (fun data => hashIn data name = some hash) log ∧
      Saved (fun data => hashIn data name = some hash) log)
    fun _ => Wrote fun data => hashIn data name = some hash

/-- All methods of a session. -/
def Session.All (φ : Method Bool → Prop) : Session → Prop
  | .done => True
  | .method m next => φ m ∧ ∀ b, (next b).All φ

/-- Where the session returns, its last method has written this password hash. -/
def Session.Saves (name hash : String) : Session → Prop
  | .done => False
  | .method m next => (SavesHash name hash m ∧ ∀ b, next b = .done) ∨ ∀ b, (next b).Saves name hash

variable {lower : String → String} {name hash username : String} {loaded : File}
variable {data users u : Fields}

theorem Triple.ignoring {α : Type} {p : Method α} {P Q : Assertion Call Call.Answer UserStore}
    {E : Raised → Assertion Call Call.Answer UserStore} (h : Triple P p (fun _ => Q) E) :
    Triple P (Users.ignoring p) (fun _ => Q) E :=
  h.seq fun _ => triple_pure fun _ _ h => h

theorem hash_of_parsed (hparsed : loaded.parsed = .ok data) :
    loaded.hash name = hashIn data name := by
  unfold File.hash
  rw [hparsed]

theorem hash_of_user (husers : getItem data "users" = .dict users)
    (hu : getItem users name = .dict u) :
    hashIn data name = (getItem u "password_hash").str? := by
  unfold hashIn
  rw [husers]
  dsimp only
  rw [hu]

/-- The change leaves the password hash of this user alone, and writes nothing. -/
def LeavesHash (lower : String → String) (name username : String)
    (fn : Fields → String → Fields → Method Fields) : Prop :=
  ∀ W users u, Triple (Wrote W) (fn users (normalize lower username) u)
    (fun changed _ log => (normalize lower username = name →
      getItem changed "password_hash" = getItem u "password_hash") ∧ Writes W log)
    (fun _ => Wrote W)

theorem mutate_keeps_hash {fn : Fields → String → Fields → Method Fields}
    (hfn : LeavesHash lower name username fn) :
    Triple (Reads loaded (HashKept name hash loaded)) (mutate lower username fn)
      (fun _ => Wrote (HashKept name hash loaded))
        (fun _ => Wrote (HashKept name hash loaded)) := by
  refine (mutate_writes fun data users u hparsed husers hu => ?_).conseq
    (fun _ _ h => h) (fun _ _ _ h => h.1) fun _ _ _ h => h
  refine (hfn _ users u).conseq (fun _ _ h => h) (fun changed _ _ h => ⟨fun ts hhas => ?_, h.2⟩)
    fun _ _ _ h => h
  rw [hash_of_parsed hparsed] at hhas
  rw [hash_in_set husers]
  split
  next hname =>
      rw [get_item_set, if_neg (by decide), h.1 hname.symm]
      rw [← hname] at hu
      rwa [hash_of_user husers hu] at hhas
  next => exact hhas

/-- A new user takes nobody's place. -/
theorem create_keeps_hash {passwordHash : String} {role : Json} {mustChange : Bool} :
    KeepsHash name hash (ignoring (create lower username passwordHash role mustChange)) := by
  intro loaded
  refine Triple.ignoring ((create_writes fun data users ts hparsed husers hnew hhas => ?_).conseq
    (fun _ _ h => h) (fun _ _ _ h => h.1) fun _ _ _ h => h)
  rw [hash_of_parsed hparsed] at hhas
  rw [hash_in_set husers]
  split
  next hname =>
      -- the user that has a hash is not missing
      unfold hashIn at hhas
      rw [husers] at hhas
      dsimp only at hhas
      unfold getItem at hhas
      rw [hname, hnew] at hhas
      cases hhas
  next => exact hhas

theorem guard_last_writes {W : Fields → Prop} {applies : Bool} {message : String} :
    Keeps (Wrote W) (guardLast applies users name message) :=
  Keeps.only_if (Keeps.seq keeps_lift fun _ => Keeps.only_if keeps_raise)

/-- Another user is deleted. -/
theorem delete_keeps_hash (hne : normalize lower username ≠ name) :
    KeepsHash name hash (ignoring (delete lower username)) := by
  intro loaded
  refine Triple.ignoring ?_
  refine doc_reads.seq fun data => writes_with fun hparsed => ?_
  refine Triple.seq (R := fun users _ log => getItem data "users" = .dict users ∧ Writes _ log)
    (triple_lift (fun users _ _ hread h => ⟨users_of_eq hread, h⟩) fun _ _ _ _ h =>
      h) fun users => ?_
  refine writes_with fun husers => (raise_if_writes fun _ _ h => h).seq fun _ =>
    writes_with fun _ => ?_
  split
  · refine Triple.seq guard_last_writes fun _ =>
      (save_writes fun hhas => ?_).conseq (fun _ _ h => h)
      (fun _ _ _ h => h.1) fun _ _ _ h => h
    rw [hash_of_parsed hparsed] at hhas
    unfold hashIn at hhas ⊢
    rw [get_item_set, if_pos rfl]
    rw [husers] at hhas
    dsimp only at hhas ⊢
    rw [get_item_del hne.symm]
    exact hhas
  · exact triple_raise fun _ _ h => h

theorem retired_names_spec {isRetired : Json → Bool} {names hit : List String}
    (h : retiredNames isRetired users names = .ok hit) (hmem : name ∈ hit) :
    ∃ u, getItem users name = .dict u ∧ isRetired (if (getItem u "password_hash").truthy
      then getItem u "password_hash" else .str "") = true := by
  induction names generalizing hit with
  | nil =>
      cases h
      cases hmem
  | cons n rest ih =>
      rw [retiredNames] at h
      obtain ⟨retired, hretired, h⟩ := bind_eq_ok.mp h
      obtain ⟨others, hothers, h⟩ := bind_eq_ok.mp h
      have hhit := pure_eq_ok.mp h
      subst hhit
      split at hmem
      next hyes =>
          rcases List.mem_cons.mp hmem with rfl | hmem
          · unfold retiredUser at hretired
            split at hretired
            next u hu => exact ⟨u, hu, (Except.ok.inj hretired).trans hyes⟩
            next => cases hretired
          · exact ih hothers hmem
      next => exact ih hothers hmem

theorem retire_all_keeps {W : Fields → Prop} (name : String) {hit : List String} :
    ∀ {users : Fields}, Triple (Wrote W) (retireAll hit users)
      (fun after _ log => (name ∉ hit → getItem after name = getItem users name) ∧ Writes W log)
      (fun _ => Wrote W) := by
  induction hit with
  | nil => exact triple_pure fun _ _ h => ⟨fun _ => rfl, h⟩
  | cons n rest ih =>
      intro users
      refine Triple.seq now_writes fun ts => ?_
      split
      · refine ih.conseq (fun _ _ h => h)
          (fun after _ _ h => ⟨fun hmem => ?_, h.2⟩) fun _ _ _ h => h
        rw [List.mem_cons, not_or] at hmem
        rw [h.1 hmem.2, get_item_set, if_neg hmem.1]
      · exact triple_raise fun _ _ h => h

theorem not_retired {isRetired : Json → Bool} (hnot : isRetired (.str hash) = false)
    {names hit : List String} (hhit : retiredNames isRetired users names = .ok hit)
    (husers : getItem data "users" = .dict users) (hhas : hashIn data name = some hash) :
    name ∉ hit := by
  intro hmem
  obtain ⟨u, hu, hretired⟩ := retired_names_spec hhit hmem
  rw [hash_of_user husers hu] at hhas
  have hstr : getItem u "password_hash" = .str hash := by
    cases hvalue : getItem u "password_hash" with
    | str text =>
        rw [hvalue] at hhas
        exact congrArg Json.str (Option.some.inj hhas)
    | null | bool _ | int _ | float _ | list _ | dict _ =>
        rw [hvalue] at hhas
        cases hhas
  rw [hstr] at hretired
  split at hretired
  next =>
      rw [hnot] at hretired
      cases hretired
  next hfalsy =>
      have hempty : hash = "" := by simpa [Json.truthy] using hfalsy
      rw [← hempty, hnot] at hretired
      cases hretired

theorem retire_keeps_hash {isRetired : Json → Bool} (hnot : isRetired (.str hash) = false) :
    KeepsHash name hash (ignoring (retire isRetired)) := by
  intro loaded
  refine Triple.ignoring ?_
  refine doc_reads.seq fun data => writes_with fun hparsed => ?_
  refine Triple.seq (R := fun users _ log => getItem data "users" = .dict users ∧ Writes _ log)
    (triple_lift (fun users _ _ hread h => ⟨users_of_eq hread, h⟩) fun _ _ _ _ h =>
      h) fun users => ?_
  refine writes_with fun husers => ?_
  refine Triple.seq (R := fun hit _ log =>
    retiredNames isRetired users (users.map Prod.fst) = .ok hit ∧
      Writes _ log) (triple_lift (fun hit _ _ hread h => ⟨hread, h⟩) fun _ _ _ _ h =>
        h) fun hit => ?_
  refine writes_with fun hhit => (retire_all_keeps name).seq fun after =>
    writes_with fun hafter => ?_
  refine Triple.seq (R := fun _ => Wrote _) ?_ fun _ => triple_pure fun _ _ h => h
  refine Keeps.only_if ((save_writes fun hhas => ?_).conseq (fun _ _ h => h) (fun _ _ _ h => h.1)
    fun _ _ _ h => h)
  rw [hash_of_parsed hparsed] at hhas
  have hkept := hafter (not_retired hnot hhit husers hhas)
  unfold hashIn at hhas ⊢
  rw [get_item_set, if_pos rfl]
  rw [husers] at hhas
  dsimp only at hhas ⊢
  rw [hkept]
  exact hhas

theorem known_keeps_hash {username : String} : KeepsHash name hash (known username) :=
  fun _ => doc_reads.seq fun _ => writes_with fun _ =>
    Keeps.seq keeps_lift fun _ => keeps_pure

theorem has_users_keeps_hash : KeepsHash name hash hasUsers :=
  fun _ => doc_reads.seq fun _ => writes_with fun _ => keeps_pure

theorem enable_keeps_hash : KeepsHash name hash (ignoring (enable lower username)) :=
  fun _ => Triple.ignoring <| mutate_keeps_hash fun _ _ _ => triple_pure fun _ _ h =>
    ⟨fun _ => by rw [get_item_set, if_neg (by decide)], h⟩

theorem set_password_keeps_hash {passwordHash : String} {mustChange : Bool}
    (hne : normalize lower username ≠ name) :
    KeepsHash name hash (ignoring (setPassword lower username passwordHash mustChange)) :=
  fun _ => Triple.ignoring <| mutate_keeps_hash fun _ _ _ => Triple.seq now_writes fun _ =>
    triple_pure fun _ _ h => ⟨fun hname => absurd hname hne, h⟩

theorem set_role_keeps_hash {role : Json} :
    KeepsHash name hash (ignoring (setRole lower username role)) := by
  intro loaded
  refine Triple.ignoring (Triple.seq (R := fun _ => Reads loaded (HashKept name hash loaded)) ?_
    fun _ => ?_)
  · exact (raise_if_writes fun _ _ h => h.2).conseq (fun _ _ h => h) (fun _ _ _ h => h.2)
      fun _ _ _ h => h
  · exact mutate_keeps_hash fun _ _ _ => Triple.seq guard_last_writes fun _ =>
      triple_pure fun _ _ h => ⟨fun _ => by rw [get_item_set, if_neg (by decide)], h⟩

/-- So does the switch of an account. -/
theorem set_disabled_keeps_hash {disabled : Bool} :
    KeepsHash name hash (ignoring (setDisabled lower username disabled)) :=
  fun _ => Triple.ignoring <| mutate_keeps_hash fun _ _ _ => Triple.seq guard_last_writes fun _ =>
    triple_pure fun _ _ h => ⟨fun _ => by rw [get_item_set, if_neg (by decide)], h⟩

theorem stamp_login_keeps_hash : KeepsHash name hash (ignoring (stampLogin lower username)) := by
  intro loaded
  refine Triple.ignoring (Triple.catch (F := fun _ => Wrote (HashKept name hash loaded)) ?_ fun e =>
    ?_)
  · refine Triple.seq (mutate_keeps_hash ?_) fun _ => triple_pure fun _ _ h => h
    exact fun _ _ _ => Triple.seq now_writes fun _ => triple_pure fun _ _ h =>
      ⟨fun _ => by rw [get_item_set, if_neg (by decide)], h⟩
  · cases e with
    | keyError _ => exact keeps_pure
    | valueError _ | malformed | osError => exact keeps_raise

/-- A request that neither gives this user another password nor deletes the user writes the password
hash that it has read. -/
theorem session_keeps (hlower :
    ∀ name, normalize lower (normalize lower name) = normalize lower name)
    {request : Request} (h : request.replaces lower name hash = false) :
    (request.session lower).All (KeepsHash name hash) := by
  cases request with
  | retire isRetired => exact ⟨retire_keeps_hash h, fun _ => trivial⟩
  | operation op =>
      have hone : ∀ {p : Method Unit}, KeepsHash name hash (ignoring p) →
          (Session.method (ignoring p) fun _ => .done).All (KeepsHash name hash) :=
        fun hp => ⟨hp, fun _ => trivial⟩
      have hforget : ∀ {α : Type} {p : Method α}, KeepsHash name hash (ignoring p) →
          KeepsHash name hash (ignoring (do let _ ← p; pure ())) := by
        intro α p hp
        have heq : ignoring (do let _ ← p; pure ()) = ignoring p := method_assoc _ _ _
        rw [heq]
        exact hp
      cases op with
      | create username passwordHash role mustChange => exact hone (hforget create_keeps_hash)
      | setPassword username passwordHash mustChange =>
          exact hone (hforget (set_password_keeps_hash (by simpa [Request.replaces] using h)))
      | setTemporary username passwordHash =>
          have hne : normalize lower username ≠ name := by simpa [Request.replaces] using h
          refine ⟨known_keeps_hash, fun b => ?_⟩
          cases b with
          | true =>
              refine ⟨enable_keeps_hash, fun _ => ⟨set_password_keeps_hash ?_, fun _ => trivial⟩⟩
              rw [hlower]
              exact hne
          | false => exact ⟨create_keeps_hash, fun _ => trivial⟩
      | setRole username role => exact hone (hforget set_role_keeps_hash)
      | setDisabled username disabled => exact hone (hforget set_disabled_keeps_hash)
      | delete username => exact hone (delete_keeps_hash (by simpa [Request.replaces] using h))
      | stampLogin username => exact hone stamp_login_keeps_hash
      | seedAdmin username passwordHash =>
          refine ⟨has_users_keeps_hash, fun b => ?_⟩
          cases b with
          | true => trivial
          | false => exact ⟨create_keeps_hash, fun _ => trivial⟩

theorem set_password_saves {mustChange : Bool} (hname : normalize lower username = name) :
    SavesHash name hash (ignoring (setPassword lower username hash mustChange)) := by
  intro loaded
  refine Triple.ignoring ((mutate_writes fun data users u _ husers _ => ?_).conseq
    (fun _ _ h => h) (fun _ _ _ h => h) fun _ _ _ h => h)
  refine Triple.seq now_writes fun ts => triple_pure fun _ _ h => ⟨fun ts' => ?_, h⟩
  rw [hash_in_set husers, if_pos hname.symm, get_item_set, if_neg (by decide)]
  split
  · rw [get_item_set, if_neg (by decide), get_item_pop (by decide), get_item_pop (by decide),
      get_item_set, if_neg (by decide), get_item_set, if_pos rfl]
    rfl
  · rw [get_item_pop (by decide), get_item_pop (by decide), get_item_set, if_neg (by decide),
      get_item_set, if_pos rfl]
    rfl

/-- So is that of a new user. -/
theorem create_saves {role : Json} {mustChange : Bool} (hname : normalize lower username = name) :
    SavesHash name hash (ignoring (create lower username hash role mustChange)) := by
  intro loaded
  refine Triple.ignoring ((create_writes fun data users ts _ husers _ => ?_).conseq
    (fun _ _ h => h) (fun _ _ _ h => h) fun _ _ _ h => h)
  rw [hash_in_set husers, if_pos hname.symm]
  rfl

theorem temporary_saves
    (hlower : ∀ name, normalize lower (normalize lower name) = normalize lower name) :
    (temporarySession lower username hash).Saves (normalize lower username) hash := by
  refine Or.inr fun b => ?_
  cases b with
  | true => exact Or.inr fun _ => Or.inl ⟨set_password_saves (hlower username), fun _ => rfl⟩
  | false => exact Or.inl ⟨create_saves (hlower username), fun _ => rfl⟩

end Hash

end SystemsManager.Users
