import SystemsManager.Concurrency.Procedure
import SystemsManager.Python.Dict
import SystemsManager.Python.Value

/-!
# The user store

`UserStore` of `backend/manager_users.py`: the document of users with its cached copy and the
operations that change it. Each operation runs under the lock of the store, so it is one procedure;
opening the file and writing it are calls, and each of them may raise. `str.lower` is an argument.
-/

namespace SystemsManager.Users

open Python Concurrency

/-- The fields of a JSON object. -/
abbrev Fields := List (String × Json)

/-- `ROLES` -/
def ROLES : List String := ["admin", "operator"]

/-- What an operation raises. -/
inductive Raised where
  | valueError (message : String)
  | keyError (name : String)
  /-- A document that is not of the expected form: `AttributeError` or `TypeError`. -/
  | malformed
  | osError

/-- The store file. -/
inductive File where
  | missing
  /-- `json.load` raises `ValueError`. -/
  | unreadable
  | holds (doc : Json)

/-- `d.setdefault(key, value)` -/
def setDefault (key : String) (value : Json) (items : Fields) : Fields :=
  if (items.lookup key).isSome then items else setItems key value items

/-- The defaults that `_doc` adds. -/
def withDefaults (items : Fields) : Fields :=
  setDefault "users" (.dict []) (setDefault "schema_version" (.int 1) items)

/-- What `_doc` makes of the file. -/
def File.parsed : File → Except Raised Fields
  | .missing => .ok (withDefaults [])
  | .unreadable => .ok (withDefaults [])
  | .holds (.dict items) => .ok (withDefaults items)
  | .holds _ => .error .malformed

/-- `_file_key`; every file that is renamed to the path has a key of its own. -/
def File.key (file : File) (written : ℕ) : Option ℕ :=
  match file with
  | .missing => none
  | _ => some written

/-- The store: its file, how often the file was written, and the cached document with its key. -/
structure UserStore where
  file : File
  written : ℕ
  cache : Option (Option ℕ × Fields)
  known : ∀ key doc, cache = some (some key, doc) → key ≤ written
  current : ∀ doc, cache = some (file.key written, doc) → file.parsed = .ok doc

/-- `UserStore(path)` -/
def UserStore.open_ (file : File) : UserStore where
  file := file
  written := 0
  cache := none
  known _ _ h := by cases h
  current _ h := by cases h

namespace UserStore

/-- The cached document, if it is that of the file. -/
def cached (st : UserStore) : Option Fields :=
  match st.cache with
  | some (key, doc) => if key = st.file.key st.written then some doc else none
  | none => none

/-- `self._cache, self._cache_key = d, key` -/
def remember (st : UserStore) : UserStore :=
  match h : st.file.parsed with
  | .error _ => st
  | .ok doc =>
      { st with
        cache := some (st.file.key st.written, doc)
        known := by
          intro key other heq
          have hkey : st.file.key st.written = some key := congrArg Prod.fst (Option.some.inj heq)
          unfold File.key at hkey
          split at hkey
          · cases hkey
          · exact Option.some.inj hkey ▸ Nat.le_refl _
        current := by
          intro other heq
          have hdoc : doc = other := congrArg Prod.snd (Option.some.inj heq)
          exact hdoc ▸ h }

/-- `os.replace(tmp, p)` -/
def replace (st : UserStore) (doc : Fields) : UserStore where
  file := .holds (.dict doc)
  written := st.written + 1
  cache := st.cache
  known key other h := Nat.le_succ_of_le (st.known key other h)
  current other h := absurd (st.known _ other h) (by omega)

/-- `self._cache, self._cache_key = None, None` -/
def forget (st : UserStore) : UserStore where
  file := st.file
  written := st.written
  cache := none
  known _ _ h := by cases h
  current _ h := by cases h

end UserStore

/-- How `write_durable` ends. -/
inductive Written where
  | done
  | raised
  | raisedAfterRename

/-- The calls of the store. -/
inductive Call where
  | openFile
  | writeDurable (doc : Fields)
  | nowIso

/-- The answers: whether the file was opened, how the write ended, the time. -/
abbrev Call.Answer : Call → Type
  | .openFile => Bool
  | .writeDurable _ => Written
  | .nowIso => String

/-- A method of the store. -/
abbrev Method (α : Type) := Proc Call Call.Answer UserStore Raised α

section Persistence

/-- One call. -/
def call (c : Call) : Method c.Answer := Proc.ask c

/-- `_doc` -/
def doc : Method Fields := do
  let st ← Proc.get
  match st.cached with
  | some doc => pure doc
  | none => do
      let opened ← call .openFile
      -- A missing file is no error, any other failure to open it is one.
      if opened then do
        let doc ← Proc.lift st.file.parsed
        Proc.modify UserStore.remember
        pure doc
      else Proc.raise .osError

/-- `_save` -/
def save (data : Fields) : Method Unit := do
  let written ← call (.writeDurable data)
  match written with
  | .done => Proc.modify fun st => (st.replace data).forget
  | .raised => Proc.raise .osError
  | .raisedAfterRename => do
      Proc.modify fun st => st.replace data
      Proc.raise .osError

end Persistence

section Helpers

/-- `normalize` -/
def normalize (lower : String → String) (username : String) : String := lower (strip username)

/-- The characters of `_NAME_RE`. -/
def nameChar (c : Char) : Bool :=
  ('a' ≤ c && c ≤ 'z') || ('0' ≤ c && c ≤ '9') || c = '.' || c = '_' || c = '-'

/-- `valid_name`; the dollar sign also matches before a newline at the end. -/
def validName (username : String) : Bool :=
  let chars := username.toList
  let body := if chars.getLast? = some '\n' then chars.dropLast else chars
  0 < body.length && body.length ≤ 32 && body.all nameChar

/-- `data["users"]`, which every caller uses as a dictionary. -/
def usersOf (data : Fields) : Except Raised Fields :=
  match getItem data "users" with
  | .dict users => .ok users
  | _ => .error .malformed

/-- The user is an admin who is neither disabled nor has to be given a new password. -/
def usableAdmin (u : Fields) : Bool :=
  (getItem u "role").str? = some "admin" && !(getItem u "disabled").truthy &&
    !(getItem u "reset_required").truthy

/-- `_enabled_admins` -/
def enabledAdmins (users : Fields) (exclude : String) : Except Raised ℕ :=
  match users with
  | [] => .ok 0
  | (n, .dict u) :: rest => do
      let others ← enabledAdmins rest exclude
      pure (if usableAdmin u && n != exclude then others + 1 else others)
  | _ :: _ => .error .malformed

/-- `del users[name]` -/
def delItem (name : String) (users : Fields) : Fields := users.eraseP fun item => item.1 = name

/-- `u.pop(key, None)` -/
def popItem (key : String) (u : Fields) : Fields := u.filter fun item => item.1 != key

/-- `value == text` -/
def isText (value : Json) (text : String) : Bool := value.str? = some text

end Helpers

section Writes

variable (lower : String → String)

/-- The record of a new user. -/
def newUser (passwordHash : String) (role : Json) (mustChange : Bool) (ts : String) : Fields :=
  [("password_hash", .str passwordHash), ("role", role), ("disabled", .bool false),
    ("created_at", .str ts), ("updated_at", .str ts), ("last_login", .null),
    ("password_changed_at", .str ts)] ++ if mustChange then [("must_change", .bool true)] else []

/-- `role not in ROLES` raises. -/
def checkRole (role : Json) : Method Unit :=
  Proc.onlyIf (!ROLES.any fun known => isText role known)
    (Proc.raise (.valueError "invalid role (use one of admin, operator)"))

/-- `create` -/
def create (username passwordHash : String) (role : Json) (mustChange : Bool) : Method Fields := do
  let name := normalize lower username
  Proc.onlyIf (!validName name)
    (Proc.raise (.valueError "invalid username (use a-z 0-9 . _ - up to 32 chars)"))
  checkRole role
  let data ← doc
  let users ← Proc.lift (usersOf data)
  Proc.onlyIf (users.lookup name).isSome (Proc.raise (.valueError "user already exists"))
  let ts ← call .nowIso
  let u := newUser passwordHash role mustChange ts
  save (setItems "users" (.dict (setItems name (.dict u) users)) data)
  pure u

/-- `_mutate`; `fn` gives the changed record. -/
def mutate (username : String) (fn : Fields → String → Fields → Method Fields) : Method Fields := do
  let name := normalize lower username
  let data ← doc
  let users ← Proc.lift (usersOf data)
  let u := getItem users name
  Proc.onlyIf (!u.truthy) (Proc.raise (.keyError name))
  match u with
  | .dict u => do
      let u ← fn users name u
      let ts ← call .nowIso
      let u := setItems "updated_at" (.str ts) u
      save (setItems "users" (.dict (setItems name (.dict u) users)) data)
      pure u
  | _ => Proc.raise .malformed

/-- `set_password` -/
def setPassword (username passwordHash : String) (mustChange : Bool) : Method Fields :=
  mutate lower username fun _ _ u => do
    let ts ← call .nowIso
    let u := setItems "password_changed_at" (.str ts)
      (setItems "password_hash" (.str passwordHash) u)
    let u := popItem "must_change" (popItem "reset_required" u)
    pure (if mustChange then setItems "must_change" (.bool true) u else u)

/-- `set_temporary` -/
def setTemporary (username passwordHash : String) : Method String := do
  let name := normalize lower username
  let data ← doc
  let users ← Proc.lift (usersOf data)
  if (users.lookup name).isSome then do
    let _ ← mutate lower name fun _ _ u => pure (setItems "disabled" (.bool false) u)
    let _ ← setPassword lower name passwordHash true
    pure name
  else do
    let _ ← create lower name passwordHash (.str "admin") true
    pure name

/-- The guard of `set_role`, `set_disabled` and `delete`. -/
def guardLast (applies : Bool) (users : Fields) (name message : String) : Method Unit :=
  Proc.onlyIf applies do
    let others ← Proc.lift (enabledAdmins users name)
    Proc.onlyIf (decide (others = 0)) (Proc.raise (.valueError message))

/-- `set_role` -/
def setRole (username : String) (role : Json) : Method Fields := do
  checkRole role
  mutate lower username fun users name u => do
    guardLast (isText (getItem u "role") "admin" && !isText role "admin") users name
      "cannot demote the last enabled admin"
    pure (setItems "role" role u)

/-- `set_disabled` -/
def setDisabled (username : String) (disabled : Bool) : Method Fields :=
  mutate lower username fun users name u => do
    guardLast (disabled && isText (getItem u "role") "admin" && !(getItem u "disabled").truthy)
      users name "cannot disable the last enabled admin"
    pure (setItems "disabled" (.bool disabled) u)

/-- `delete` -/
def delete (username : String) : Method Unit := do
  let name := normalize lower username
  let data ← doc
  let users ← Proc.lift (usersOf data)
  let u := getItem users name
  Proc.onlyIf (!u.truthy) (Proc.raise (.keyError name))
  match u with
  | .dict u => do
      guardLast (isText (getItem u "role") "admin" && !(getItem u "disabled").truthy) users name
        "cannot delete the last enabled admin"
      save (setItems "users" (.dict (delItem name users)) data)
  | _ => Proc.raise .malformed

/-- `stamp_login` -/
def stampLogin (username : String) : Method Unit :=
  Proc.catch_
    (do
      let _ ← mutate lower username fun _ _ u => do
        let ts ← call .nowIso
        pure (setItems "last_login" (.str ts) u)
      pure ())
    fun
      | .keyError _ => pure ()
      | other => Proc.raise other

/-- `seed_admin` -/
def seedAdmin (username passwordHash : String) : Method (Option Fields) := do
  let data ← doc
  if (getItem data "users").truthy then pure none
  else do
    let u ← create lower username passwordHash (.str "admin") false
    pure (some u)

end Writes

end SystemsManager.Users
