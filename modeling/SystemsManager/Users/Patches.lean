import Mathlib.Data.List.Infix
import SystemsManager.Users.LastAdmin

/-!
# The update of a user

`admin_users_patch` makes up to three writes, one after another: of the role, of the disabled flag
and of the password. Each is checked when it is its turn, so that a field which is refused does not
undo the ones that were accepted before it. Read `refused_unchanged_iff`: a refused update leaves
the record as it was if and only if no field was accepted before, or the accepted ones were in the
record already. An exception other than `ValueError` leaves the function, which then answers
nothing.
-/

namespace SystemsManager.Users

open Python Concurrency

/-- An answer of the server. -/
structure Response where
  error : Option String
  status : ℕ
  deriving DecidableEq

/-- `_bad` -/
def bad (msg : String) (code : ℕ) : Response := ⟨some msg, code⟩

/-- `jsonify({"ok": True})` -/
def done : Response := ⟨none, 200⟩

/-- `MIN_PASSWORD` -/
def MIN_PASSWORD : ℕ := 8

/-- `auth.DEFAULT_AUTH_USER` -/
def DEFAULT_AUTH_USER : String := "llmadmin"

/-- `len(value)`, where there is one -/
def lengthOf : Json → Option ℕ
  | .str text => some text.length
  | .list values => some values.length
  | .dict items => some items.length
  | _ => none

/-- `password_error` -/
def passwordError (password : Json) : Except Raised (Option String) := match lengthOf password with
  | none => .error .malformed
  | some length =>
      if length < MIN_PASSWORD then .ok (some "password must be at least 8 characters")
      else if isText password DEFAULT_AUTH_USER then
        .ok (some "choose a different password; this one is no longer accepted")
      else .ok none

/-- `get_json(silent=True) or {}` as a dictionary -/
def fieldsOf (body : Json) : Except Raised Fields :=
  if body.truthy then match body with
    | .dict b => .ok b
    | _ => .error .malformed
  else .ok []

/-- What is answered to a `ValueError`. -/
def rejected (message : String) : Response :=
  if "last enabled admin".toList <:+: message.toList then bad
    "cannot modify the last enabled admin" 409
  else bad "invalid role or request" 400

section Patch

variable (lower : String → String)

-- `auth.scrypt_hash` with its salt, or the message of its `ValueError` where the text has no
-- encoding
variable (scryptHash : String → Except String String)

/-- `get`: whether there is such a user. -/
def getUser (username : String) : Method Bool := do
  let data ← doc
  let users ← Proc.lift (usersOf data)
  match getItem users (normalize lower username) with
  | .null => pure false
  | .dict _ => pure true
  | _ => Proc.raise .malformed

/-- The hash of a password that is a text. -/
def hashed : Json → Except Raised String
  | .str text => match scryptHash text with
    | .ok hash => .ok hash
    | .error message => .error (.valueError message)
  | _ => .error .malformed

/-- The last part of an update. -/
def patchPassword (target : String) (b : Fields) : Method Response :=
  let password := getItem b "password"
  if password.truthy then do
    let err ← Proc.lift (passwordError password)
    match err with
    | some err => pure (bad err 400)
    | none => do
        let hash ← Proc.lift (hashed scryptHash password)
        let _ ← setPassword lower target hash false
        pure done
  else pure done

/-- The update from the disabled flag on. -/
def patchDisabled (me target : String) (b : Fields) : Method Response :=
  match b.lookup "disabled" with
  | none => patchPassword lower scryptHash target b
  | some disabled =>
      if target = me && disabled.truthy then pure (bad "cannot disable yourself" 409)
      else do
        let _ ← setDisabled lower target disabled.truthy
        patchPassword lower scryptHash target b

/-- The writes of an update. -/
def patchFields (me target : String) (b : Fields) : Method Response := match b.lookup "role" with
  | none => patchDisabled lower scryptHash me target b
  | some role => do
      let _ ← setRole lower target role
      patchDisabled lower scryptHash me target b

/-- `admin_users_patch`, with what `require_admin` answers and the user of the session. -/
def adminUsersPatch (deny : Option Response) (sessionUser username : String) (body : Json) :
    Method Response :=
  match deny with
  | some response => pure response
  | none => do
      let me := normalize lower sessionUser
      let target := normalize lower username
      let there ← getUser lower target
      if there then do
        let b ← Proc.lift (fieldsOf body)
        Proc.catch_ (patchFields lower scryptHash me target b) fun
          | .valueError message => pure (rejected message)
          | other => Proc.raise other
      else pure (bad "no such user" 404)

end Patch

section Accepted

/-- No other user is an enabled admin. -/
def noOthers (users : Fields) (name : String) : Bool := match enabledAdmins users name with
  | .ok others => others = 0
  | .error _ => false

/-- The role is not one, or it would demote the last enabled admin. -/
def roleRefused (users : Fields) (name : String) (u : Fields) (role : Json) : Bool :=
  (!ROLES.any fun known => isText role known) ||
    (isText (getItem u "role") "admin" && !isText role "admin" && noOthers users name)

/-- A user would be disabled who is signed in, or the last enabled admin. -/
def disabledRefused (me target : String) (users : Fields) (name : String) (u : Fields)
    (disabled : Bool) :
    Bool :=
  (target = me && disabled) ||
    (disabled && isText (getItem u "role") "admin" && !(getItem u "disabled").truthy &&
      noOthers users name)

/-- The disabled flag, if it is given and not refused. -/
def acceptedFlag (me target : String) (users : Fields) (name : String) (u b : Fields) : Fields :=
  match b.lookup "disabled" with
  | none => []
  | some disabled =>
      if disabledRefused me target users name u disabled.truthy then []
      else [("disabled", .bool disabled.truthy)]

/-- The role and the disabled flag of a request, up to the one that is refused. -/
def acceptedFields (me target : String) (users : Fields) (name : String) (u b : Fields) : Fields :=
  match b.lookup "role" with
  | none => acceptedFlag me target users name u b
  | some role =>
      if roleRefused users name u role then []
      else ("role", role) :: acceptedFlag me target users name (setItems "role" role u) b

/-- A record after some writes, each with its time. -/
def stampAll : Fields → List String → Fields → Fields
  | (key, value) :: writes, ts :: stamps, u =>
      stampAll writes stamps (setItems "updated_at" (.str ts) (setItems key value u))
  | _, _, u => u

/-- The times that a run has asked for. -/
def times (log : Log Call Call.Answer) : List String := log.filterMap fun
  | ⟨.nowIso, ts⟩ => some ts
  | _ => none

/-- The record of a user in the store file. -/
def File.record (file : File) (name : String) : Json := match file.parsed with
  | .error _ => .null
  | .ok data => match getItem data "users" with
    | .dict users => getItem users name
    | _ => .null

end Accepted

section Rules

variable {lower : String → String} {users : Fields} {stamps : List String} {username name : String}

/-- The users of the file, and the times that were asked for. -/
def Holds (users : Fields) (stamps : List String) (file : File)
    (log : Log Call Call.Answer) : Prop :=
  (∃ data, file.parsed = .ok data ∧ getItem data "users" = .dict users) ∧ times log = stamps

/-- `Holds` as an assertion of the rules. -/
abbrev Stands (users : Fields) (stamps : List String) : Assertion Call Call.Answer UserStore :=
  fun st log => Holds users stamps st.file log

/-- What is known where a `ValueError` is raised. -/
abbrev OnValueError (P : Assertion Call Call.Answer UserStore) : Raised →
    Assertion Call Call.Answer UserStore :=
  fun e st log => ∀ message, e = .valueError message → P st log

variable {log : Log Call Call.Answer}

theorem times_concat_other {c : Call} {r : c.Answer} (h : c ≠ .nowIso) :
    times (log ++ [⟨c, r⟩]) = times log := by
  unfold times
  rw [List.filterMap_append]
  cases c with
  | openFile => exact List.append_nil _
  | writeDurable data => exact List.append_nil _
  | nowIso => exact absurd rfl h

theorem times_concat_now {ts : String} : times (log ++ [⟨.nowIso, ts⟩]) = times log ++ [ts] := by
  unfold times
  rw [List.filterMap_append]
  rfl

theorem Holds.record {file : File} (h : Holds users stamps file log) :
    file.record name = getItem users name := by
  obtain ⟨⟨data, hparsed, husers⟩, -⟩ := h
  unfold File.record
  rw [hparsed]
  dsimp only
  rw [husers]

variable {P : Assertion Call Call.Answer UserStore}

theorem on_other_error {e : Raised} (h : ∀ message, e ≠ .valueError message) (st : UserStore)
    (log : Log Call Call.Answer) :
    OnValueError P e st log := fun message heq => absurd heq (h message)

theorem doc_stands : Triple (Stands users stamps) doc
    (fun data st log => getItem data "users" = .dict users ∧ Stands users stamps st log)
    (OnValueError fun _ _ => False) := by
  refine (doc_read (A := Holds users stamps) fun file log opened h => ?_).conseq (fun _ _ h => h)
    (fun data st log h => ⟨?_, h.1⟩) fun e st log h => on_other_error h.2 st log
  · exact ⟨h.1, (times_concat_other (by rintro ⟨⟩)).trans h.2⟩
  · obtain ⟨⟨⟨other, hother, husers⟩, -⟩, hparsed⟩ := h
    rw [hparsed] at hother
    exact Except.ok.inj hother ▸ husers

theorem lift_users_stands {data : Fields} (husers : getItem data "users" = .dict users) :
    Triple P (Proc.lift (usersOf data) : Method Fields) (fun read st log => read = users ∧ P st log)
      (OnValueError fun _ _ => False) := by
  refine triple_lift (fun read st log hread h => ⟨?_, h⟩) fun e st log herror => ?_
  · rw [users_of_eq hread] at husers
    exact Json.dict.inj husers
  · unfold usersOf at herror
    rw [husers] at herror
    cases herror

theorem triple_with {α : Type} {φ : Prop} {p : Method α}
    {Q : α → Assertion Call Call.Answer UserStore}
    {E : Raised → Assertion Call Call.Answer UserStore} (h : φ → Triple P p Q E) :
    Triple (fun st log => φ ∧ P st log) p Q E :=
  fun st past hst => h hst.1 st past hst.2

theorem save_stands {data : Fields} (husers : getItem data "users" = .dict users) :
    Triple (fun _ log => times log = stamps) (save data) (fun _ => Stands users stamps)
      (OnValueError fun _ _ => False) := by
  refine Triple.seq (R := fun _ _ log => times log = stamps)
    (triple_ask fun written st log h => (times_concat_other (by rintro ⟨⟩)).trans h) fun written =>
      ?_
  cases written with
  | done => exact triple_modify fun st log h => ⟨⟨_, rfl, users_with_defaults husers⟩, h⟩
  | raised => exact triple_raise fun st log _ => on_other_error (fun _ => by rintro ⟨⟩) st log
  | raisedAfterRename =>
      exact Triple.seq (R := fun _ _ _ => True) (triple_modify fun _ _ _ => trivial)
        fun _ => triple_raise fun st log _ => on_other_error (fun _ => by rintro ⟨⟩) st log

theorem mutate_stands {fn : Fields → String → Fields → Method Fields}
    {φ : Fields → Fields → List String → Prop} {F : Assertion Call Call.Answer UserStore}
    (hfn : ∀ u, getItem users (normalize lower username) = .dict u →
      Triple (Stands users stamps) (fn users (normalize lower username) u)
        (fun changed _ log => φ u changed (times log)) (OnValueError F)) :
    Triple (Stands users stamps) (mutate lower username fn)
      (fun _ st log => ∃ u changed before ts, getItem users (normalize lower username) = .dict u ∧
        φ u changed before ∧ Stands (setItems (normalize lower username)
          (.dict (setItems "updated_at" (.str ts) changed)) users) (before ++ [ts]) st log)
      (OnValueError F) := by
  have hweak : ∀ e st log, OnValueError (fun _ _ => False) e st log → OnValueError F e st log :=
    fun e st log h message heq => (h message heq).elim
  refine (doc_stands.conseq (fun _ _ h => h) (fun _ _ _ h => h) hweak).seq fun data =>
    triple_with fun husers => ?_
  refine ((lift_users_stands husers).conseq (fun _ _ h => h)
    (fun _ _ _ h => h) hweak).seq fun read =>
    triple_with fun hread => ?_
  subst hread
  refine Triple.seq (R := fun _ => Stands read stamps)
    (triple_only_if (fun _ => triple_raise fun st log _ =>
    on_other_error (fun _ => by rintro ⟨⟩) st log) fun _ _ _ h => h) fun _ => ?_
  split
  · rename_i u hu
    refine (hfn u hu).seq fun changed => ?_
    refine Triple.seq (R := fun ts _ log => ∃ before, φ u changed before ∧
      times log = before ++ [ts])
      (triple_ask fun ts st log h => ⟨_, h, times_concat_now⟩) fun ts => ?_
    intro st past hpast
    obtain ⟨before, hchanged, htimes⟩ := hpast
    have hsaved : Triple (fun _ log => times log = before ++ [ts])
        (save (setItems "users" (.dict (setItems (normalize lower username)
          (.dict (setItems "updated_at" (.str ts) changed)) read)) data))
        (fun _ => Stands (setItems (normalize lower username)
          (.dict (setItems "updated_at" (.str ts) changed)) read) (before ++ [ts]))
        (OnValueError fun _ _ => False) := save_stands (by rw [get_item_set, if_pos rfl])
    refine (hsaved.seq fun _ => triple_pure fun st log h => ?_).conseq (fun _ _ h => h)
      (fun _ _ _ h => h)
      hweak st past htimes
    exact ⟨u, changed, before, ts, hu, hchanged, h⟩
  · exact triple_raise fun st log _ => on_other_error (fun _ => by rintro ⟨⟩) st log

end Rules

section Stamps

variable {key : String} {u : Fields}

variable {stamps : List String} {writes : Fields}

theorem lookup_stamp_other (hkey : key ∉ writes.map Prod.fst) (htime : key ≠ "updated_at") :
    (stampAll writes stamps u).lookup key = u.lookup key := by
  induction writes generalizing stamps u with
  | nil => cases stamps <;> rfl
  | cons write rest ih =>
      rw [List.map_cons, List.mem_cons, not_or] at hkey
      cases stamps with
      | nil => rfl
      | cons ts stamps =>
          rw [stampAll, ih hkey.2, lookup_set_items, if_neg htime, lookup_set_items, if_neg hkey.1]

theorem lookup_stamp_write {write : String × Json} (hlength : stamps.length = writes.length)
    (hnodup : (writes.map Prod.fst).Nodup) (htime : "updated_at" ∉ writes.map Prod.fst)
    (hwrite : write ∈ writes) : (stampAll writes stamps u).lookup write.1 = some write.2 := by
  induction writes generalizing stamps u with
  | nil => cases hwrite
  | cons first rest ih =>
      rw [List.map_cons] at hnodup htime
      rw [List.nodup_cons] at hnodup
      rw [List.mem_cons, not_or] at htime
      cases stamps with
      | nil => cases hlength
      | cons ts stamps =>
          rw [stampAll]
          rcases List.mem_cons.mp hwrite with rfl | hmem
          · rw [lookup_stamp_other hnodup.1 (Ne.symm htime.1), lookup_set_items,
              if_neg (Ne.symm htime.1), lookup_set_items, if_pos rfl]
          · exact ih (Nat.succ.inj hlength) hnodup.2 htime.2 hmem

theorem lookup_stamp_time (hlength : stamps.length = writes.length)
    (htime : "updated_at" ∉ writes.map Prod.fst) (hwrites : writes ≠ []) :
    ∃ ts, stamps.getLast? = some ts ∧ (stampAll writes stamps u).lookup "updated_at" =
      some (.str ts) := by
  induction writes generalizing stamps u with
  | nil => exact absurd rfl hwrites
  | cons first rest ih =>
      rw [List.map_cons, List.mem_cons, not_or] at htime
      cases stamps with
      | nil => cases hlength
      | cons ts stamps =>
          cases rest with
          | nil =>
              have hnil : stamps = [] := List.length_eq_zero_iff.mp (Nat.succ.inj hlength)
              subst hnil
              refine ⟨ts, rfl, ?_⟩
              show (setItems "updated_at" (Json.str ts)
                (setItems first.1 first.2 u)).lookup "updated_at" =
                some (Json.str ts)
              rw [lookup_set_items, if_pos rfl]
          | cons second rest =>
              obtain ⟨last, hlast, hlookup⟩ := ih (u := setItems "updated_at" (.str ts)
                (setItems first.1 first.2 u)) (Nat.succ.inj hlength) htime.2 (by rintro ⟨⟩)
              refine ⟨last, ?_, hlookup⟩
              rw [List.getLast?_cons, hlast]
              rfl

theorem set_items_set {κ ν : Type} [DecidableEq κ] (key : κ) (first second : ν)
    (items : List (κ × ν)) :
    setItems key second (setItems key first items) = setItems key second items := by
  induction items with
  | nil => simp [setItems]
  | cons item rest ih =>
      by_cases hkey : item.1 = key
      · simp [setItems, hkey]
      · simp [setItems, hkey, ih]

theorem stamp_all_same {last : String} (hlength : stamps.length = writes.length)
    (htime : "updated_at" ∉ writes.map Prod.fst) (hlast : stamps.getLast? = some last)
    (hthere : ∀ write ∈ writes, u.lookup write.1 = some write.2) :
    stampAll writes stamps u = setItems "updated_at" (.str last) u := by
  induction writes generalizing stamps u with
  | nil =>
      rw [List.length_eq_zero_iff.mp hlength] at hlast
      cases hlast
  | cons first rest ih =>
      rw [List.map_cons, List.mem_cons, not_or] at htime
      cases stamps with
      | nil => cases hlast
      | cons ts stamps =>
          rw [stampAll, set_items_of_lookup (hthere first List.mem_cons_self)]
          cases stamps with
          | nil =>
              have hnil : rest = [] := List.length_eq_zero_iff.mp (Nat.succ.inj hlength).symm
              subst hnil
              cases hlast
              rfl
          | cons second stamps =>
              rw [List.getLast?_cons_cons] at hlast
              rw [ih (Nat.succ.inj hlength) htime.2 hlast fun write hwrite => ?_, set_items_set]
              have hne : write.1 ≠ "updated_at" :=
                fun heq => htime.2 (heq ▸ List.mem_map_of_mem hwrite)
              rw [lookup_set_items, if_neg hne]
              exact hthere write (List.mem_cons_of_mem _ hwrite)

/-- The writes change nothing: there are none, or all of them are there, and so is the time of the
last. -/
def Unchanging (u writes : Fields) (stamps : List String) : Prop :=
  writes = [] ∨ (∀ write ∈ writes, u.lookup write.1 = some write.2) ∧
    ∃ ts, stamps.getLast? = some ts ∧ u.lookup "updated_at" = some (.str ts)

theorem stamp_all_eq_iff (hlength : stamps.length = writes.length)
    (hnodup : (writes.map Prod.fst).Nodup) (htime : "updated_at" ∉ writes.map Prod.fst) :
    stampAll writes stamps u = u ↔ Unchanging u writes stamps := by
  by_cases hwrites : writes = []
  · subst hwrites
    refine ⟨fun _ => Or.inl rfl, fun _ => ?_⟩
    cases stamps <;> rfl
  · constructor
    · intro hsame
      refine Or.inr ⟨fun write hwrite => ?_, ?_⟩
      · have hlookup := lookup_stamp_write (u := u) hlength hnodup htime hwrite
        rwa [hsame] at hlookup
      · obtain ⟨ts, hts, hlookup⟩ := lookup_stamp_time (u := u) hlength htime hwrites
        rw [hsame] at hlookup
        exact ⟨ts, hts, hlookup⟩
    · rintro (hnone | ⟨hthere, ts, hts, hlookup⟩)
      · exact absurd hnone hwrites
      · rw [stamp_all_same hlength htime hts hthere]
        exact set_items_of_lookup hlookup

end Stamps

section Chain

variable {lower : String → String} {scryptHash : String → Except String String}
variable {users : Fields} {stamps : List String} {me target name : String} {u b : Fields}

theorem set_items_same (hu : getItem users name = .dict u) :
    setItems name (.dict u) users = users := by
  refine set_items_of_lookup ?_
  unfold getItem at hu
  cases hlookup : users.lookup name with
  | none =>
      rw [hlookup] at hu
      cases hu
  | some record =>
      rw [hlookup] at hu
      exact congrArg some hu

theorem enabled_admins_set {v : Fields} (hu : getItem users name = .dict u) :
    enabledAdmins (setItems name (.dict v) users) name = enabledAdmins users name := by
  induction users with
  | nil => cases hu
  | cons item rest ih =>
      obtain ⟨other, record⟩ := item
      unfold getItem at hu
      rw [lookup_items_cons] at hu
      rw [setItems]
      by_cases hname : other = name
      · rw [if_pos hname.symm] at hu
        cases hu
        rw [if_pos hname, enabledAdmins, enabledAdmins, hname, bne_self_eq_false, Bool.and_false,
          Bool.and_false]
      · rw [if_neg (Ne.symm hname)] at hu
        rw [if_neg hname]
        cases record with
        | dict w => rw [enabledAdmins, enabledAdmins, ih hu]
        | null | bool _ | int _ | float _ | str _ | list _ => rfl

theorem enabled_admins_no_value_error (message : String) :
    enabledAdmins users name ≠ .error (.valueError message) := by
  induction users with
  | nil => rintro ⟨⟩
  | cons item rest ih =>
      obtain ⟨other, record⟩ := item
      cases record with
      | dict w =>
          rw [enabledAdmins]
          cases hrest : enabledAdmins rest name with
          | ok others => rintro ⟨⟩
          | error e =>
              intro heq
              rw [hrest] at ih
              cases heq
              exact ih rfl
      | null | bool _ | int _ | float _ | str _ | list _ => rintro ⟨⟩

theorem guard_stands {applies : Bool} {message : String} :
    Triple (Stands users stamps) (guardLast applies users name message)
      (fun _ st log => (applies && noOthers users name) = false ∧ Stands users stamps st log)
      (OnValueError fun st log => (applies && noOthers users name) = true ∧
        Stands users stamps st log) := by
  refine triple_only_if (fun happlies => ?_) fun st log hnot h => ⟨by rw [hnot]; rfl, h⟩
  rw [happlies, Bool.true_and]
  refine Triple.seq (R := fun others st log => enabledAdmins users name = .ok others ∧
    Stands users stamps st log) (triple_lift (fun others st log hothers h => ⟨hothers, h⟩)
      fun e st log herror _ message heq => ?_) fun others => ?_
  · subst heq
    exact absurd herror (enabled_admins_no_value_error _)
  · refine triple_with fun hothers => ?_
    have hcount : noOthers users name = decide (others = 0) := by
      unfold noOthers
      rw [hothers]
    rw [hcount]
    exact triple_only_if (fun hzero => triple_raise fun st log h message _ => ⟨hzero, h⟩)
      fun st log hzero h => ⟨hzero, h⟩

theorem set_role_stands {username : String} {role : Json}
    (hu : getItem users (normalize lower username) = .dict u) :
    Triple (Stands users stamps) (setRole lower username role)
      (fun _ st log => roleRefused users (normalize lower username) u role = false ∧
        ∃ ts, Stands (setItems (normalize lower username)
          (.dict (setItems "updated_at" (.str ts) (setItems "role" role u))) users)
            (stamps ++ [ts]) st log)
      (OnValueError fun st log => roleRefused users (normalize lower username) u role = true ∧
        Stands users stamps st log) := by
  unfold roleRefused
  refine Triple.seq (R := fun _ st log => (!ROLES.any fun known => isText role known) = false ∧
    Stands users stamps st log)
      (triple_only_if (fun hunknown => triple_raise fun st log h _ _ => ?_)
      fun st log hknown h => ⟨hknown, h⟩) fun _ => triple_with fun hknown => ?_
  · rw [hunknown]
    exact ⟨rfl, h⟩
  rw [hknown, Bool.false_or]
  refine (mutate_stands (φ := fun v changed before => (isText (getItem v "role") "admin" &&
    !isText role "admin" && noOthers users (normalize lower username)) = false ∧
      changed = setItems "role" role v ∧ before = stamps) fun v hv => ?_).conseq (fun _ _ h => h)
        (fun _ st log h => ?_) fun _ _ _ h => h
  · rw [hu] at hv
    cases hv
    exact guard_stands.seq fun _ => triple_pure fun st log h => ⟨h.1, rfl, h.2.2⟩
  · obtain ⟨v, changed, before, ts, hv, ⟨hguard, rfl, rfl⟩, hstands⟩ := h
    rw [hu] at hv
    cases hv
    exact ⟨hguard, ts, hstands⟩

theorem set_disabled_stands {username : String} {disabled : Bool}
    (hu : getItem users (normalize lower username) = .dict u) :
    Triple (Stands users stamps) (setDisabled lower username disabled)
      (fun _ st log => (disabled && isText (getItem u "role") "admin" &&
        !(getItem u "disabled").truthy &&
          noOthers users (normalize lower username)) = false ∧
        ∃ ts, Stands (setItems (normalize lower username)
          (.dict (setItems "updated_at" (.str ts) (setItems "disabled" (.bool disabled) u))) users)
            (stamps ++ [ts]) st log)
      (OnValueError fun st log => (disabled && isText (getItem u "role") "admin" &&
          !(getItem u "disabled").truthy && noOthers users (normalize lower username)) = true ∧
        Stands users stamps st log) := by
  refine (mutate_stands (φ := fun v changed before =>
    (disabled && isText (getItem v "role") "admin" &&
    !(getItem v "disabled").truthy && noOthers users (normalize lower username)) = false ∧
      changed = setItems "disabled" (.bool disabled) v ∧ before = stamps) fun v hv => ?_).conseq
        (fun _ _ h => h) (fun _ st log h => ?_) fun _ _ _ h => h
  · rw [hu] at hv
    cases hv
    exact guard_stands.seq fun _ => triple_pure fun st log h => ⟨h.1, rfl, h.2.2⟩
  · obtain ⟨v, changed, before, ts, hv, ⟨hguard, rfl, rfl⟩, hstands⟩ := h
    rw [hu] at hv
    cases hv
    exact ⟨hguard, ts, hstands⟩

theorem set_password_stands {username passwordHash : String} {mustChange : Bool} :
    Triple (Stands users stamps) (setPassword lower username passwordHash mustChange)
    (fun _ _ _ => True)
      (OnValueError fun _ _ => False) := by
  refine (mutate_stands (φ := fun _ _ _ => True) fun v _ => ?_).conseq (fun _ _ h => h)
    (fun _ _ _ _ => trivial) fun _ _ _ h => h
  exact Triple.seq (R := fun _ _ _ => True) (triple_ask fun _ _ _ _ => trivial)
    fun _ => triple_pure fun _ _ _ => trivial

/-- What a request that is refused has written of the user: these fields, each with its time. -/
def HasWritten (name : String) (users : Fields) (stamps : List String) (u writes : Fields) :
    Assertion Call Call.Answer UserStore :=
  fun st log => ∃ added : List String, added.length = writes.length ∧
    Stands (setItems name (.dict (stampAll writes added u)) users) (stamps ++ added) st log

/-- What is known where an update is refused. -/
abbrev OnRefusal (P : Assertion Call Call.Answer UserStore) (response : Response) :
    Assertion Call Call.Answer UserStore :=
  fun st log => response.status ≠ 200 → P st log

/-- Nothing was written yet. -/
theorem after_nothing (hu : getItem users name = .dict u) {st : UserStore}
    {log : Log Call Call.Answer} (h : Stands users stamps st log) :
    HasWritten name users stamps u [] st log := by
  refine ⟨[], rfl, ?_⟩
  show Stands (setItems name (.dict u) users) (stamps ++ []) st log
  rw [set_items_same hu, List.append_nil]
  exact h

/-- Something was written before. -/
theorem after_write {key ts : String} {value : Json} {writes : Fields} {st : UserStore}
    {log : Log Call Call.Answer}
    (h :
      HasWritten name (setItems name
        (.dict (setItems "updated_at" (.str ts) (setItems key value u))) users)
      (stamps ++ [ts]) (setItems "updated_at" (.str ts) (setItems key value u)) writes st log) :
    HasWritten name users stamps u ((key, value) :: writes) st log := by
  obtain ⟨added, hlength, hstands⟩ := h
  refine ⟨ts :: added, congrArg Nat.succ hlength, ?_⟩
  rw [set_items_set, List.append_assoc] at hstands
  exact hstands

theorem patch_password_stands :
    Triple (Stands users stamps) (patchPassword lower scryptHash target b)
      (OnRefusal (Stands users stamps)) (OnValueError (Stands users stamps)) := by
  unfold patchPassword
  dsimp only
  split
  · refine Triple.seq (R := fun _ => Stands users stamps) (triple_lift (fun _ _ _ _ h => h)
      fun _ _ _ _ h _ _ => h) fun err => ?_
    cases err with
    | some err => exact triple_pure fun _ _ h _ => h
    | none =>
        refine Triple.seq (R := fun _ => Stands users stamps) (triple_lift (fun _ _ _ _ h => h)
          fun _ _ _ _ h _ _ => h) fun hash => ?_
        refine Triple.seq (R := fun _ _ _ => True) (set_password_stands.conseq (fun _ _ h => h)
          (fun _ _ _ h => h) fun e st log h message heq => (h message heq).elim) fun _ => ?_
        exact triple_pure fun _ _ _ hrefused => absurd rfl hrefused
  · exact triple_pure fun _ _ _ hrefused => absurd rfl hrefused

theorem get_item_user {v : Fields} : getItem (setItems name (.dict v) users) name = .dict v := by
  rw [get_item_set, if_pos rfl]

theorem patch_disabled_stands (hu : getItem users (normalize lower target) = .dict u) :
    Triple (Stands users stamps) (patchDisabled lower scryptHash me target b)
      (OnRefusal (HasWritten (normalize lower target) users stamps u
        (acceptedFlag me target users (normalize lower target) u b)))
      (OnValueError (HasWritten (normalize lower target) users stamps u
        (acceptedFlag me target users (normalize lower target) u b))) := by
  unfold patchDisabled acceptedFlag
  cases b.lookup "disabled" with
  | none =>
      exact patch_password_stands.conseq (fun _ _ h => h)
        (fun _ _ _ h hrefused => after_nothing hu (h hrefused))
        fun _ _ _ h message heq => after_nothing hu (h message heq)
  | some disabled =>
      dsimp only
      unfold disabledRefused
      by_cases hself : (target = me && disabled.truthy) = true
      · rw [if_pos hself, hself, Bool.true_or, if_pos rfl]
        exact triple_pure fun _ _ h _ => after_nothing hu h
      · rw [if_neg hself, Bool.eq_false_iff.mpr hself, Bool.false_or]
        refine Triple.seq ((set_disabled_stands hu).conseq (fun _ _ h => h) (fun _ _ _ h => h)
          fun e st log h message heq => ?_) fun _ => triple_with fun hguard => ?_
        · obtain ⟨hguard, hstands⟩ := h message heq
          rw [if_pos hguard]
          exact after_nothing hu hstands
        · rw [if_neg (Bool.eq_false_iff.mp hguard)]
          intro st past ⟨ts, hstands⟩
          refine patch_password_stands.conseq (fun _ _ h => h) (fun _ st log h hrefused => ?_)
            (fun _ st log h message heq => ?_) st past hstands
          · exact after_write (after_nothing get_item_user (h hrefused))
          · exact after_write (after_nothing get_item_user (h message heq))

theorem accepted_flag_stamped {ts : String} {v : Fields} (hu : getItem users name = .dict u) :
    acceptedFlag me target (setItems name (.dict (setItems "updated_at" (.str ts) v)) users) name
        (setItems "updated_at" (.str ts) v) b =
      acceptedFlag me target users name v b := by
  have hothers : noOthers (setItems name (.dict (setItems "updated_at" (.str ts) v)) users) name =
      noOthers users name := by
    unfold noOthers
    rw [enabled_admins_set hu]
  unfold acceptedFlag disabledRefused
  rw [hothers, get_item_set, if_neg (by decide), get_item_set, if_neg (by decide)]

/-- The fields of a request, one after the other: where one is refused, the ones that were accepted
before it are written. -/
theorem patch_fields_stands (hu : getItem users (normalize lower target) = .dict u) :
    Triple (Stands users stamps) (patchFields lower scryptHash me target b)
      (OnRefusal (HasWritten (normalize lower target) users stamps u
        (acceptedFields me target users (normalize lower target) u b)))
      (OnValueError (HasWritten (normalize lower target) users stamps u
        (acceptedFields me target users (normalize lower target) u b))) := by
  unfold patchFields acceptedFields
  cases b.lookup "role" with
  | none => exact patch_disabled_stands hu
  | some role =>
      dsimp only
      refine Triple.seq ((set_role_stands hu).conseq (fun _ _ h => h) (fun _ _ _ h => h)
        fun e st log h message heq => ?_) fun _ => triple_with fun hrefused => ?_
      · obtain ⟨hrefused, hstands⟩ := h message heq
        rw [if_pos hrefused]
        exact after_nothing hu hstands
      · rw [if_neg (Bool.eq_false_iff.mp hrefused)]
        intro st past ⟨ts, hstands⟩
        refine (patch_disabled_stands get_item_user).conseq (fun _ _ h => h)
          (fun _ st log h hno => ?_)
          (fun _ st log h message heq => ?_) st past hstands
        · have hwritten := h hno
          rw [accepted_flag_stamped hu] at hwritten
          exact after_write hwritten
        · have hwritten := h message heq
          rw [accepted_flag_stamped hu] at hwritten
          exact after_write hwritten

end Chain

section Main

variable {lower : String → String} {scryptHash : String → Except String String}

/-- The user of a request, in a file with these users. -/
structure Addressed (lower : String → String) (username : String) (file : File) (users u : Fields) :
    Prop where
  read : ∃ data, file.parsed = .ok data ∧ getItem data "users" = .dict users
  user : getItem users (normalize lower (normalize lower username)) = .dict u

/-- The record of the user. -/
theorem Addressed.record {username : String} {file : File} {users u : Fields}
    (h : Addressed lower username file users u) :
    file.record (normalize lower (normalize lower username)) = .dict u := by
  obtain ⟨⟨data, hparsed, husers⟩, hu⟩ := h
  unfold File.record
  rw [hparsed]
  dsimp only
  rw [husers]
  exact hu

theorem get_user_stands {username : String} {file : File} :
    Triple (fun st log => st.file = file ∧ times log = [])
      (getUser lower (normalize lower username))
      (fun there st log => (st.file = file ∧ times log = []) ∧
        if there then ∃ users u, Addressed lower username file users u
        else ∀ users u, ¬ Addressed lower username file users u)
      (fun _ _ _ => True) := by
  refine Triple.seq ((doc_read (A := fun other log => other = file ∧ times log = [])
    fun other log opened h => ⟨h.1, (times_concat_other (by rintro ⟨⟩)).trans h.2⟩).conseq
      (fun _ _ h => h) (fun _ _ _ h => h) fun _ _ _ _ => trivial) fun data => ?_
  refine Triple.seq (R := fun users st log =>
    (file.parsed = .ok data ∧ getItem data "users" = .dict users) ∧
    (st.file = file ∧ times log = [])) (triple_lift (fun users st log husers h => ?_)
      fun _ _ _ _ _ => trivial) fun users => triple_with fun hread => ?_
  · exact ⟨⟨h.1.1 ▸ h.2, users_of_eq husers⟩, h.1⟩
  · cases hu : getItem users (normalize lower (normalize lower username)) with
    | null =>
        refine triple_pure fun st log h => ⟨h, ?_⟩
        rw [if_neg Bool.false_ne_true]
        rintro others u ⟨⟨other, hparsed, hothers⟩, hother⟩
        rw [hread.1] at hparsed
        cases hparsed
        rw [hread.2] at hothers
        cases hothers
        rw [hu] at hother
        cases hother
    | dict u =>
        refine triple_pure fun st log h => ⟨h, ?_⟩
        rw [if_pos rfl]
        exact ⟨users, u, ⟨data, hread⟩, hu⟩
    | bool _ | int _ | float _ | str _ | list _ => exact triple_raise fun _ _ _ => trivial

/-- The fields of a request that were accepted are written into the file that it found. -/
def AcceptedWritten (lower : String → String) (sessionUser username : String)
    (body : Json) (file : File) :
    Assertion Call Call.Answer UserStore := fun st log =>
  ∃ users u b, Addressed lower username file users u ∧ fieldsOf body = .ok b ∧
    HasWritten (normalize lower (normalize lower username)) users [] u
      (acceptedFields (normalize lower sessionUser) (normalize lower username) users
        (normalize lower (normalize lower username)) u b) st log

/-- What an answer with an error says: no user was addressed and nothing happened, or the fields
that were accepted are written. -/
theorem patch_stands {deny : Option Response} {sessionUser username : String} {body : Json}
    {file : File} :
    Triple (fun st log => st.file = file ∧ times log = [])
      (adminUsersPatch lower scryptHash deny sessionUser username body)
      (OnRefusal fun st log =>
        (st.file = file ∧ (deny ≠ none ∨ ∀ users u, ¬ Addressed lower username file users u)) ∨
        deny = none ∧ AcceptedWritten lower sessionUser username body file st log)
      (fun _ _ _ => True) := by
  unfold adminUsersPatch
  cases deny with
  | some response => exact triple_pure fun st log h _ => Or.inl ⟨h.1, Or.inl (by rintro ⟨⟩)⟩
  | none =>
      refine Triple.seq get_user_stands fun there => ?_
      cases there with
      | false => exact triple_pure fun st log h _ => Or.inl ⟨h.1.1, Or.inr h.2⟩
      | true =>
          rw [if_pos rfl]
          intro st past ⟨h, users, u, haddressed⟩
          refine Triple.seq (R := fun b st log => fieldsOf body = .ok b ∧ Stands users [] st log)
            (E := fun _ _ _ => True) (P := Stands users [])
              (triple_lift (fun b st log hb h => ⟨hb, h⟩)
              fun _ _ _ _ _ => trivial) (fun b => triple_with fun hb => ?_) st past
                ⟨h.1 ▸ haddressed.read, h.2⟩
          refine Triple.catch (F := OnValueError
            (AcceptedWritten lower sessionUser username body file))
            ((patch_fields_stands haddressed.user).conseq (fun _ _ h => h)
              (fun _ st log h hrefused => ?_)
              fun _ st log h message heq => ?_) fun e => ?_
          · exact Or.inr ⟨rfl, users, u, b, haddressed, hb, h hrefused⟩
          · exact ⟨users, u, b, haddressed, hb, h message heq⟩
          cases e with
          | valueError message => exact triple_pure fun st log h _ => Or.inr ⟨rfl, h message rfl⟩
          | keyError _ | malformed | osError => exact triple_raise fun _ _ _ => trivial

theorem accepted_keys (me target : String) (users : Fields) (name : String) (u b : Fields) :
    ((acceptedFields me target users name u b).map Prod.fst).Nodup ∧
      "updated_at" ∉ (acceptedFields me target users name u b).map Prod.fst := by
  have hflag : ∀ v : Fields, acceptedFlag me target users name v b = [] ∨
      ∃ disabled, acceptedFlag me target users name v b = [("disabled", .bool disabled)] := by
    intro v
    unfold acceptedFlag
    cases b.lookup "disabled" with
    | none => exact Or.inl rfl
    | some disabled =>
        dsimp only
        split
        · exact Or.inl rfl
        · exact Or.inr ⟨_, rfl⟩
  unfold acceptedFields
  cases b.lookup "role" with
  | none =>
      rcases hflag u with hnone | ⟨disabled, hsome⟩
      · simp [hnone]
      · simp [hsome]
  | some role =>
      dsimp only
      split
      · simp
      · rcases hflag (setItems "role" role u) with hnone | ⟨disabled, hsome⟩
        · simp [hnone]
        · simp [hsome]

/-- The fields that a request has accepted before it is refused change nothing. The clock is the one
of the run. -/
def AcceptedUnchanging (lower : String → String) (sessionUser username : String)
    (body : Json) (file : File)
    (stamps : List String) : Prop :=
  ∀ users u b, Addressed lower username file users u → fieldsOf body = .ok b →
    Unchanging u (acceptedFields (normalize lower sessionUser) (normalize lower username) users
      (normalize lower (normalize lower username)) u b) stamps

/-- Where an update of a user is answered with an error, the record of the user is what it was if
and only if the request was denied, or no field of it was accepted before one was refused, or the
accepted ones and the time are in the record already. -/
theorem refused_unchanged_iff (deny : Option Response) (sessionUser username : String) (body : Json)
    (st st' : UserStore) (log : Log Call Call.Answer) (response : Response)
    (hrun : (adminUsersPatch lower scryptHash deny sessionUser username body st).Runs log
      (.ok response, st'))
    (hrefused : response.status ≠ 200) :
    st'.file.record (normalize lower (normalize lower username)) =
        st.file.record (normalize lower (normalize lower username)) ↔
      (deny = none → AcceptedUnchanging lower sessionUser username body st.file (times log)) := by
  have hends := patch_stands st [] ⟨rfl, rfl⟩ log _ hrun hrefused
  rw [List.nil_append] at hends
  rcases hends with ⟨hsame, hnone⟩ | ⟨hdeny, users, u, b, haddressed, hb, added, hlength, hstands⟩
  · rw [hsame]
    refine ⟨fun _ hdeny users u b haddressed _ => ?_, fun _ => rfl⟩
    rcases hnone with hdenied | hnone
    · exact absurd hdeny hdenied
    · exact absurd haddressed (hnone users u)
  · obtain ⟨hnodup, htime⟩ :=
      accepted_keys (normalize lower sessionUser) (normalize lower username) users
      (normalize lower (normalize lower username)) u b
    have htimes : times log = added := hstands.2
    rw [hstands.record, get_item_user, haddressed.record, Json.dict.injEq,
      stamp_all_eq_iff hlength hnodup htime, htimes]
    refine ⟨fun h _ others v c hother hc => ?_, fun h => h hdeny users u b haddressed hb⟩
    obtain ⟨⟨data, hparsed, husers⟩, hu⟩ := haddressed
    obtain ⟨⟨data', hparsed', hothers⟩, hv⟩ := hother
    rw [hparsed] at hparsed'
    cases hparsed'
    rw [husers] at hothers
    cases hothers
    rw [hu] at hv
    cases hv
    rw [hb] at hc
    cases hc
    exact h

/-- An admin and an operator. -/
def twoUsers : File := .holds (.dict [("users", .dict
  [("boss", .dict [("role", .str "admin"), ("disabled", .bool false), ("updated_at", .str "then")]),
    ("bob", .dict [("role", .str "operator"), ("disabled", .bool false),
      ("updated_at", .str "then")])])])

/-- A file that can be read and written, at some time. -/
def sound : (c : Call) → c.Answer
  | .openFile => true
  | .writeDurable _ => .done
  | .nowIso => "now"

/-- The admin updates the operator. -/
def patchBob (body : Json) : Log Call Call.Answer × Except Raised Response × UserStore :=
  (adminUsersPatch id (fun text => .ok text) none "boss" "bob" body
    (UserStore.open_ twoUsers)).follow sound

theorem patch_bob_runs {body : Json} {response : Response}
    (h : (patchBob body).2.1 = .ok response) :
    (adminUsersPatch id (fun text => .ok text) none "boss" "bob" body
      (UserStore.open_ twoUsers)).Runs
      (patchBob body).1 (.ok response, (patchBob body).2.2) := by
  rw [← h]
  exact runs_follow sound _

/-- A role that is not one is refused and changes nothing. -/
theorem wrong_role_unchanged :
    (patchBob (.dict [("role", .str "root")])).2.1 = .ok (bad "invalid role or request" 400) ∧
      (patchBob (.dict [("role", .str "root")])).2.2.file.record
      (normalize id (normalize id "bob")) =
        twoUsers.record (normalize id (normalize id "bob")) := by
  refine ⟨rfl, (refused_unchanged_iff none "boss" "bob" _ (UserStore.open_ twoUsers) _ _ _
    (patch_bob_runs rfl) (by decide)).mpr fun _ users u b _ hb => Or.inl ?_⟩
  cases hb
  exact rfl

/-- The role in a record. -/
def roleOf : Json → Option String
  | .dict u => (getItem u "role").str?
  | _ => none

/-- A new role with a password that is too short is refused as well, and the user has the role. -/
theorem refused_patch_promotes :
    (patchBob (.dict [("role", .str "admin"), ("password", .str "short")])).2.1 =
        .ok (bad "password must be at least 8 characters" 400) ∧
      (patchBob (.dict [("role", .str "admin"), ("password", .str "short")])).2.2.file.record
      "bob" ≠
        twoUsers.record "bob" := by
  refine ⟨rfl, fun h => ?_⟩
  have hrole : some "admin" = some "operator" := congrArg roleOf h
  revert hrole
  decide

end Main

end SystemsManager.Users
