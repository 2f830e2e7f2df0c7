import SystemsManager.Concurrency.RelyGuarantee
import SystemsManager.Users.Store
import Mathlib.Data.Finset.Card

/-!
# The lockout

`LockoutTracker` and `authenticate` of `backend/manager_users.py`. Any number of threads call
`authenticate`; each check of a lock, each read of the store, each password check and each record
of a failure is one operation, and the clock never goes back. A `Watch` follows one key through the
run: which calls have passed its lock check and not yet recorded their failure, and when those that
checked a password had their lock checked. Nothing that the code does depends on it.
-/

namespace SystemsManager.Users

open Python Concurrency

/-- The limits of a tracker, each at least one. -/
structure Limits where
  threshold : ℕ
  windowS : ℕ
  durationS : ℕ
  threshold_pos : 0 < threshold
  window_pos : 0 < windowS
  duration_pos : 0 < durationS

/-- `LockoutTracker(threshold, window_s, duration_s)` -/
def Limits.of (threshold windowS durationS : ℤ) : Limits where
  threshold := (max 1 threshold).toNat
  windowS := (max 1 windowS).toNat
  durationS := (max 1 durationS).toNat
  threshold_pos := by omega
  window_pos := by omega
  duration_pos := by omega

/-- The default limits. -/
def Limits.default : Limits := .of 5 900 900

/-- `_fails` and `_locked_until`. -/
structure LockoutTracker where
  fails : String → List ℚ
  lockedUntil : String → Option ℚ

/-- A tracker that has recorded nothing. -/
def LockoutTracker.new : LockoutTracker := ⟨fun _ => [], fun _ => none⟩

section Tracker

variable (limits : Limits)

/-- The failures of a key that are in the window. -/
def LockoutTracker.recent (tracker : LockoutTracker) (key : String) (now : ℚ) : List ℚ :=
  (tracker.fails key).filter fun t => now - t < limits.windowS

/-- `record_failure` -/
def LockoutTracker.recordFailure (tracker : LockoutTracker) (key : String) (now : ℚ) :
    LockoutTracker :=
  if key = "" then tracker
  else
    let fails := tracker.recent limits key now ++ [now]
    if limits.threshold ≤ fails.length then
      { fails := Function.update tracker.fails key []
        lockedUntil := Function.update tracker.lockedUntil key (some (now + limits.durationS)) }
    else { tracker with fails := Function.update tracker.fails key fails }

/-- `is_locked` -/
def LockoutTracker.isLocked (tracker : LockoutTracker) (key : String) (now : ℚ) :
    Bool × LockoutTracker :=
  if key = "" then (false, tracker)
  else if (tracker.lockedUntil key).getD 0 ≤ now then
    (false, { tracker with lockedUntil := Function.update tracker.lockedUntil key none })
  else (true, tracker)

/-- `retry_after` -/
def LockoutTracker.retryAfter (tracker : LockoutTracker) (key : String) (now : ℚ) : ℤ :=
  let till := (tracker.lockedUntil key).getD 0
  if now < till then (till - now).floor else 0

/-- `clear` -/
def LockoutTracker.clear (tracker : LockoutTracker) (key : String) : LockoutTracker where
  fails := Function.update tracker.fails key []
  lockedUntil := Function.update tracker.lockedUntil key none

end Tracker

/-- The operations of `authenticate`. -/
inductive Check where
  | isLocked (key : String)
  | retryAfter (key : String)
  | getUser (name : String)
  | scryptVerify (password : String) (passwordHash : Json)
  | recordFailure (key : String)
  | clear (key : String)
  | stampLogin (name : String)

/-- Their answers. -/
abbrev Check.Answer : Check → Type
  | .isLocked _ => Bool
  | .retryAfter _ => ℤ
  | .getUser _ => Option Fields
  | .scryptVerify .. => Bool
  | .recordFailure _ => Unit
  | .clear _ => Unit
  | .stampLogin _ => Unit

/-- What the state does not determine: the clock, the user store and the password. -/
abbrev Check.Outside : Check → Type
  | .isLocked _ => ℚ
  | .retryAfter _ => ℚ
  | .getUser _ => Option Fields
  | .scryptVerify .. => Bool
  | .recordFailure _ => ℚ
  | .clear _ => Unit
  | .stampLogin _ => Unit

/-- The result of `authenticate`. -/
inductive Login where
  | locked (retryAfter : ℤ)
  | refused
  | ok (role : Json) (username : String)

section Authenticate

/-- Code of a login. -/
abbrev Auth (α : Type) := Prog Check Check.Answer α

/-- One operation. -/
def operate (op : Check) : Auth op.Answer := .perform op

/-- `any(LOCKOUT.is_locked(k) for k in keys)` -/
def anyLocked : List String → Auth Bool
  | [] => .ret false
  | key :: rest => .call (.isLocked key) fun (locked : Bool) =>
      if locked then .ret true else anyLocked rest

/-- `max(LOCKOUT.retry_after(k) for k in keys)` -/
def longestRetry : List String → ℤ → Auth ℤ
  | [], longest => .ret longest
  | key :: rest, longest => .call (.retryAfter key) fun (seconds : ℤ) =>
      longestRetry rest (max longest seconds)

/-- The key of a user name. -/
def userKey (name : String) : String := "user:" ++ name

/-- The key of a source address; a blank one has none. -/
def ipKeys (remoteIp : String) : List String := if remoteIp = "" then [] else ["ip:" ++ remoteIp]

/-- `(u or {}).get("password_hash") or _DECOY_HASH` -/
def hashOf (decoyHash : Json) (u : Option Fields) : Json :=
  let passwordHash := getItem (u.getD []) "password_hash"
  if passwordHash.truthy then passwordHash else decoyHash

/-- `not u or u.get("disabled") or u.get("reset_required")` -/
def unusable : Option Fields → Bool
  | none => true
  | some u => u.isEmpty || (getItem u "disabled").truthy || (getItem u "reset_required").truthy

/-- `authenticate`, once the password is checked. -/
def settleLogin (name : String) (keys : List String) (u : Option Fields)
    (pwOk : Bool) : Auth Login :=
  if unusable u || !pwOk then do
    Prog.forEach keys fun key => operate (.recordFailure key)
    pure .refused
  else do
    Prog.forEach keys fun key => operate (.clear key)
    let _ ← operate (.stampLogin name)
    pure (.ok (getItemD (u.getD []) "role" (.str "operator")) name)

/-- `authenticate` -/
def authenticate (lower : String → String) (decoyHash : Json)
    (username password remoteIp : String) : Auth Login := do
  let name := normalize lower username
  let keys := userKey name :: ipKeys remoteIp
  let locked ← anyLocked keys
  if locked then do
    let seconds ← longestRetry keys 0
    pure (.locked seconds)
  else do
    let u ← operate (.getUser name)
    let pwOk ← operate (.scryptVerify password (hashOf decoyHash u))
    settleLogin name keys u pwOk

end Authenticate

/-- What is followed of one key. -/
structure Watch where
  /-- The time of its first lock check. -/
  first : Option ℚ
  /-- The threads that passed the lock check and have not checked a password. -/
  waiting : Finset ℕ
  /-- The threads that checked a password and have not recorded the failure. -/
  guessing : Finset ℕ
  /-- When the lock was last checked for a thread. -/
  checkedAt : ℕ → ℚ
  /-- For each call that went on to check a password, when its lock was checked. -/
  guesses : List ℚ
  /-- The failures recorded. -/
  recorded : ℕ
  /-- The most calls that were ever waiting or guessing at a time. -/
  peak : ℕ

/-- Nothing has been seen. -/
def Watch.start : Watch := ⟨none, ∅, ∅, fun _ => 0, [], 0, 0⟩

section Watching

variable (t : ℕ) (w : Watch)

/-- The lock of the key is checked. -/
def Watch.begin_ (now : ℚ) : Watch := { w with first := some (w.first.getD now) }

/-- The lock check is passed. -/
def Watch.passed (now : ℚ) : Watch :=
  { w with
    waiting := insert t w.waiting
    checkedAt := Function.update w.checkedAt t now
    peak := max w.peak (w.waiting.card + w.guessing.card + 1) }

/-- A lock check of the key. -/
def Watch.checked (locked : Bool) (now : ℚ) : Watch :=
  if locked then w.begin_ now else (w.begin_ now).passed t now

/-- A lock check of another key. -/
def Watch.checkedOther (locked : Bool) : Watch :=
  if locked then { w with waiting := w.waiting.erase t } else w

/-- A password check. -/
def Watch.verified : Watch :=
  if t ∈ w.waiting then
    { w with
      waiting := w.waiting.erase t
      guessing := insert t w.guessing
      guesses := w.guesses ++ [w.checkedAt t] }
  else w

/-- A failure of the key is recorded. -/
def Watch.failed : Watch := { w with guessing := w.guessing.erase t, recorded := w.recorded + 1 }

end Watching

/-- The state that the threads share. -/
structure World where
  tracker : LockoutTracker
  clock : ℚ
  watch : Watch

/-- An operation of a thread, where the given key is watched. -/
def exec (limits : Limits) (watched : String) (t : ℕ) : (op : Check) → op.Outside → World →
    Option (op.Answer × World)
  | .isLocked key, (now : ℚ), s =>
      if s.clock ≤ now then
        let (locked, tracker) := s.tracker.isLocked key now
        let watch := if key = watched then s.watch.checked t locked now
          else s.watch.checkedOther t locked
        some (locked, { tracker, clock := now, watch })
      else none
  | .retryAfter key, (now : ℚ), s =>
      if s.clock ≤ now then some (s.tracker.retryAfter key now, { s with clock := now }) else none
  | .getUser _, u, s => some (u, s)
  | .scryptVerify .., pwOk, s => some (pwOk, { s with watch := s.watch.verified t })
  | .recordFailure key, (now : ℚ), s =>
      if s.clock ≤ now then
        let watch := if key = watched then s.watch.failed t else s.watch
        some ((), { tracker := s.tracker.recordFailure limits key now, clock := now, watch })
      else none
  | .clear key, _, s => some ((), { s with tracker := s.tracker.clear key })
  | .stampLogin _, _, s => some ((), s)

/-- A call of `authenticate`. -/
structure Attempt where
  username : String
  password : String
  remoteIp : String

/-- Threads that call `authenticate`. -/
def logins (lower : String → String) (decoyHash : Json) (limits : Limits) (watched : String) :
    Machine ℕ Check Check.Answer Check.Outside Attempt World where
  exec := exec limits watched
  start _ attempt _ :=
    some ((authenticate lower decoyHash attempt.username attempt.password attempt.remoteIp).bind
      fun _ => .ret ())

/-- The lock of the key is not cleared, by a login that succeeds or otherwise. -/
def NotCleared (watched : String) : Condition ℕ Check World := fun _ op _ _ =>
  match op with
  | .clear key => key ≠ watched
  | _ => True

instance (watched : String) (t : ℕ) (op : Check) (s s' : World) :
    Decidable (NotCleared watched t op s s') := by
  unfold NotCleared
  split <;> infer_instance

end SystemsManager.Users
