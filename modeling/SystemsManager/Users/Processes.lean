import SystemsManager.Concurrency.Partial
import SystemsManager.Concurrency.Reaches
import SystemsManager.Users.LastAdmin

/-!
# Two processes on one store file

The manager and `admin_password.py reset` each have a `UserStore` of their own on the same file.
The lock of a store orders the operations of its process only. An operation is a session of methods
that read the file once: a method reads, goes on with its own copy, and may replace the file, and
between these steps the other process may take steps of its own. `Processes.step` is one event.
Read `session_alone`: without the other process a session is the operation of the store.
-/

namespace SystemsManager.Users

open Python Concurrency

section Sessions

variable (lower : String → String)

/-- Methods that read the file once, one after the other. The answer of a method says how its
session goes on. -/
inductive Session where
  | done
  | method (m : Method Bool) (next : Bool → Session)

/-- A method whose result does not matter. -/
def ignoring {α : Type} (p : Method α) : Method Bool := do
  let _ ← p
  pure true

/-- `name not in self._doc()["users"]`, negated. -/
def known (name : String) : Method Bool := do
  let data ← doc
  let users ← Proc.lift (usersOf data)
  pure (users.lookup name).isSome

/-- `self._load()["users"]`, as a condition. -/
def hasUsers : Method Bool := do
  let data ← doc
  pure (getItem data "users").truthy

/-- `_mutate` with the assignment that enables a user. -/
def enable (name : String) : Method Fields :=
  mutate lower name fun _ _ u => pure (setItems "disabled" (.bool false) u)

/-- `is_retired(u.get("password_hash") or "")` -/
def retiredUser (isRetired : Json → Bool) : Json → Except Raised Bool
  | .dict u =>
      let hash := getItem u "password_hash"
      .ok (isRetired (if hash.truthy then hash else .str ""))
  | _ => .error .malformed

/-- `hit` in `retire`: the users whose password hash is retired. -/
def retiredNames (isRetired : Json → Bool) (users : Fields) : List String →
    Except Raised (List String)
  | [] => .ok []
  | n :: rest => do
      let hit ← retiredUser isRetired (getItem users n)
      let others ← retiredNames isRetired users rest
      pure (if hit then n :: others else others)

/-- The loop of `retire` over the hits. -/
def retireAll : List String → Fields → Method Fields
  | [], users => pure users
  | n :: rest, users => do
      let ts ← call .nowIso
      match getItem users n with
      | .dict u =>
          let u := setItems "updated_at" (.str ts) (setItems "reset_required" (.bool true)
            (setItems "password_hash" (.str "") u))
          retireAll rest (setItems n (.dict (popItem "must_change" u)) users)
      | _ => Proc.raise .malformed

/-- `retire` -/
def retire (isRetired : Json → Bool) : Method (List String) := do
  let data ← doc
  let users ← Proc.lift (usersOf data)
  let hit ← Proc.lift (retiredNames isRetired users (users.map Prod.fst))
  let users ← retireAll hit users
  Proc.onlyIf (!hit.isEmpty) (save (setItems "users" (.dict users) data))
  pure hit

/-- What a process asks of its store. -/
inductive Request where
  | operation (op : Operation)
  | retire (isRetired : Json → Bool)

/-- `set_temporary` as a session. -/
def temporarySession (username passwordHash : String) : Session :=
  let name := normalize lower username
  .method (known name) fun
    | true => .method (ignoring (enable lower name)) fun _ =>
        .method (ignoring (setPassword lower name passwordHash true)) fun _ => .done
    | false => .method (ignoring (create lower name passwordHash (.str "admin") true)) fun _ =>
        .done

/-- `seed_admin` as a session. -/
def seedSession (username passwordHash : String) : Session :=
  .method hasUsers fun
    | true => .done
    | false => .method (ignoring (create lower username passwordHash (.str "admin") false)) fun _ =>
        .done

/-- The session of a request. -/
def Request.session : Request → Session
  | .operation (.setTemporary username passwordHash) => temporarySession lower username passwordHash
  | .operation (.seedAdmin username passwordHash) => seedSession lower username passwordHash
  | .operation op => .method (ignoring (op.perform lower)) fun _ => .done
  | .retire isRetired => .method (ignoring (Users.retire isRetired)) fun _ => .done

/-- Procedures one after another. -/
theorem method_assoc {α β γ : Type} (p : Method α) (f : α → Method β) (g : β → Method γ) :
    (p >>= f) >>= g = p >>= fun a => f a >>= g := by
  funext st
  show Prog.bind (Prog.bind (p st) _) _ = Prog.bind (p st) _
  rw [Prog.bind_assoc]
  congr 1
  funext out
  obtain ⟨result, st'⟩ := out
  cases result with
  | ok a => rfl
  | error e => rfl

end Sessions

section Steps

/-- The two processes. -/
inductive Side where
  | manager
  | tool
  deriving DecidableEq

/-- A method under way: its request, what comes after it, the store as it has read it, the calls it
has made, and the rest of it. -/
structure Running where
  request : Request
  method : Method Bool
  next : Bool → Session
  view : UserStore
  log : Log Call Call.Answer
  rest : Prog Call Call.Answer (Except Raised Bool × UserStore)

/-- What a process is doing. -/
inductive Activity where
  | idle
  | between (request : Request) (session : Session)
  | running (r : Running)
  | returned
  | raised

/-- What a process does after a request that returned; the tool has only one. -/
def Side.returned : Side → Activity
  | .manager => .idle
  | .tool => .returned

/-- What it does after a request that raised. -/
def Side.raised : Side → Activity
  | .manager => .idle
  | .tool => .raised

/-- Both stores with what their processes are doing. `savedAt` is the version of the last file of
the tool, if it holds the temporary password, and `overwritten` notes that since then the manager
has given the user another password or deleted the user. -/
structure Processes where
  store : Side → UserStore
  activity : Side → Activity
  savedAt : Option ℕ
  overwritten : Bool

/-- An event of a process: it takes its lock for a request, a method reads the file, the method
makes its next call, or it ends. -/
inductive Event where
  | begin_ (side : Side) (request : Request)
  | read (side : Side) (opened : Bool)
  | call (side : Side) (reply : (c : Call) → c.Answer)
  | finish (side : Side)

variable (lower : String → String) (username passwordHash : String)

/-- The password hash that a document has for a user. -/
def hashIn (data : Fields) (name : String) : Option String :=
  match getItem data "users" with
  | .dict users =>
      match getItem users name with
      | .dict u => (getItem u "password_hash").str?
      | _ => none
  | _ => none

/-- The password hash that the file has for a user. -/
def File.hash (file : File) (name : String) : Option String :=
  match file.parsed with
  | .ok data => hashIn data name
  | .error _ => none

/-- The request gives this user another password, or deletes the user. -/
def Request.replaces (name hash : String) : Request → Bool
  | .operation (.setPassword username _ _) => normalize lower username = name
  | .operation (.setTemporary username _) => normalize lower username = name
  | .operation (.delete username) => normalize lower username = name
  | .operation _ => false
  | .retire isRetired => isRetired (.str hash)

namespace Processes

/-- What a process is doing next. -/
def act (s : Processes) (side : Side) (a : Activity) : Processes :=
  { s with activity := Function.update s.activity side a }

/-- The store of a process changes. -/
def keep (s : Processes) (side : Side) (st : UserStore) : Processes :=
  { s with store := Function.update s.store side st }

/-- A file is renamed to the path of both stores. -/
def rename (s : Processes) (data : Fields) : Processes :=
  { s with store := fun side => (s.store side).replace data }

/-- What a rename by a process says about the temporary password. -/
def note (s : Processes) (side : Side) (request : Request) (data : Fields) : Processes :=
  match side with
  | .tool =>
      { s with
        savedAt := if hashIn data (normalize lower username) = some passwordHash
          then some ((s.store .tool).written + 1) else none
        overwritten := false }
  | .manager =>
      { s with
        overwritten := s.overwritten || (request.replaces lower (normalize lower username)
          passwordHash && hashIn data (normalize lower username) != some passwordHash) }

/-- The store of a process after one of its calls was answered. -/
def answer (s : Processes) (side : Side) (request : Request) : (c : Call) → c.Answer → Processes
  | .writeDurable data, .done =>
      let s := (s.note lower username passwordHash side request data).rename data
      s.keep side (s.store side).forget
  | .writeDurable data, .raisedAfterRename =>
      (s.note lower username passwordHash side request data).rename data
  | .writeDurable _, .raised => s
  | .openFile, _ => s
  | .nowIso, _ => s

/-- One event. The tool has one request, to reset the password of the user. -/
def step (s : Processes) : Event → Option Processes
  | .begin_ .tool _ =>
      match s.activity .tool with
      | .idle => some (s.act .tool (.between (.operation (.setTemporary username passwordHash))
          (temporarySession lower username passwordHash)))
      | _ => none
  | .begin_ .manager request =>
      match s.activity .manager with
      | .idle => some (s.act .manager (.between request (request.session lower)))
      | _ => none
  | .read side opened =>
      match s.activity side with
      | .between request (.method m next) =>
          let view := s.store side
          match m view with
          | .call .openFile k =>
              some ((s.keep side (if opened then view.remember else view)).act side
                (.running ⟨request, m, next, view, [⟨.openFile, opened⟩], k opened⟩))
          | rest => some (s.act side (.running ⟨request, m, next, view, [], rest⟩))
      | _ => none
  | .call side reply =>
      match s.activity side with
      | .running r =>
          match r.rest with
          | .call c k =>
              let s := s.answer lower username passwordHash side r.request c (reply c)
              some (s.act side (.running
                { r with log := r.log ++ [⟨c, reply c⟩], rest := k (reply c) }))
          | .ret _ => none
      | _ => none
  | .finish side =>
      match s.activity side with
      | .running r =>
          match r.rest with
          | .ret (.ok b, _) =>
              match r.next b with
              | .done => some (s.act side side.returned)
              | session => some (s.act side (.between r.request session))
          | .ret (.error _, _) => some (s.act side side.raised)
          | .call _ _ => none
      | _ => none

/-- The file. -/
def file (s : Processes) : File := (s.store .manager).file

/-- Both stores have just been opened, and nothing has begun. -/
def open_ (file : File) : Processes where
  store _ := .open_ file
  activity _ := .idle
  savedAt := none
  overwritten := false

end Processes

end Steps

end SystemsManager.Users
