import Mathlib.Data.List.DropRight
import Mathlib.Data.List.TakeWhile
import SystemsManager.Users.Writes

/-!
# A password reset beside the manager

`admin_password.py reset` gives a user a temporary password while the manager goes on. An operation
of the manager that has read the file before the last save of the reset writes an older copy of the
whole file over it: in `reset_undone` a sign-in brings the old password back. `upToDate` says that
no such operation writes. Read `reset_kept`: in every run whose steps all meet this condition, the
user has the temporary password from the end of the reset until another operation replaces it.
-/

namespace SystemsManager.Users

open Python Concurrency

section Condition

variable (lower : String → String) (username passwordHash : String)

/-- The version of the shared file. -/
def Processes.written (s : Processes) : ℕ := (s.store .manager).written

/-- What the running method writes with its next call, if that renames a file. -/
def Running.renames (r : Running) (reply : (c : Call) → c.Answer) : Bool :=
  match r.rest with
  | .call (.writeDurable data) _ =>
      match reply (.writeDurable data) with
      | .raised => false
      | .done | .raisedAfterRename => true
  | .call .openFile _ | .call .nowIso _ | .ret _ => false

/-- An operation of the manager that writes has read the file that the reset saved last, unless it
gives the user another password or deletes the user. -/
def upToDate (s : Processes) : Event → Bool
  | .call .manager reply =>
      match s.activity .manager with
      | .running r =>
          !r.renames reply || r.request.replaces lower (normalize lower username) passwordHash ||
            s.savedAt.all fun v => v ≤ r.view.written
      | .idle | .between _ _ | .returned | .raised => true
  | .begin_ _ _ | .read _ _ | .call .tool _ | .finish _ => true

/-- `upToDate` of an event. -/
abbrev UpToDate (s : Processes) (e : Event) : Prop :=
  upToDate lower username passwordHash s e = true

variable {lower username passwordHash}

theorem up_to_date_renames {s : Processes} {reply : (c : Call) → c.Answer} {r : Running} {v : ℕ}
    (h : UpToDate lower username passwordHash s (.call .manager reply))
    (hr : s.activity .manager = .running r) (hrenames : r.renames reply = true)
    (hsaved : s.savedAt = some v) :
    r.request.replaces lower (normalize lower username) passwordHash = true ∨
    v ≤ r.view.written := by
  unfold UpToDate upToDate at h
  rw [hr] at h
  dsimp only at h
  rw [hrenames, hsaved] at h
  simpa using h

end Condition

section Invariant

variable {lower : String → String} {name hash : String}

/-- What a request of the manager keeps of the temporary password. -/
def ManagerHolds (lower : String → String) (name hash : String) (s : Processes) : Activity → Prop
  | .between request session =>
      request.replaces lower name hash = false → session.All (KeepsHash name hash)
  | .running r =>
      Partly (r.method r.view) r.log r.rest ∧ r.view.written ≤ s.written ∧
      (r.request.replaces lower name hash = false →
        KeepsHash name hash r.method ∧ ∀ b, (r.next b).All (KeepsHash name hash)) ∧
      ∀ v, s.savedAt = some v → v ≤ r.view.written → s.overwritten = false →
        r.view.file.hash name = some hash
  | .idle | .returned | .raised => True

/-- How far the reset has come. -/
def ToolHolds (name hash : String) (s : Processes) : Activity → Prop
  | .between _ session => session.Saves name hash
  | .running r =>
      Partly (r.method r.view) r.log r.rest ∧
      ((∀ b, (r.next b).Saves name hash) ∨
        SavesHash name hash r.method ∧ (∀ b, r.next b = .done) ∧
          (Saved (fun data => hashIn data name = some hash) r.log → s.savedAt ≠ none))
  | .returned => s.savedAt ≠ none
  | .idle | .raised => True

/-- What a process has to do with the temporary password. -/
def SideHolds (lower : String → String) (name hash : String) (s : Processes) :
    Side → Activity → Prop
  | .manager => ManagerHolds lower name hash s
  | .tool => ToolHolds name hash s

/-- Both stores are on one file, and since its last save, if that was the temporary password, it has
the password, unless the manager has replaced it. -/
structure Held (lower : String → String) (name hash : String) (s : Processes) : Prop where
  shared : ∀ side, (s.store side).file = s.file ∧ (s.store side).written = s.written
  saved : ∀ v, s.savedAt = some v →
    v ≤ s.written ∧ (s.overwritten = false → s.file.hash name = some hash)
  sides : ∀ side, SideHolds lower name hash s side (s.activity side)

theorem SideHolds.same {s t : Processes} {side : Side} {a : Activity}
    (hwritten : t.written = s.written) (hsaved : t.savedAt = s.savedAt)
    (hover : t.overwritten = s.overwritten) (h : SideHolds lower name hash s side a) :
    SideHolds lower name hash t side a := by
  cases side with
  | manager =>
      cases a with
      | running r =>
          obtain ⟨hpartly, hview, hkeeps, hhash⟩ := h
          exact ⟨hpartly, hwritten ▸ hview, hkeeps, fun v hv hle ho =>
            hhash v (hsaved ▸ hv) hle (hover ▸ ho)⟩
      | idle | between | returned | raised => exact h
  | tool =>
      cases a with
      | running r =>
          obtain ⟨hpartly, hnext⟩ := h
          exact ⟨hpartly, hnext.imp id fun ⟨hsaves, hdone, hlog⟩ =>
            ⟨hsaves, hdone, fun hlogged => hsaved ▸ hlog hlogged⟩⟩
      | returned =>
          show t.savedAt ≠ none
          rw [hsaved]
          exact h
      | idle | between | raised => exact h

theorem Held.act {s : Processes} {side : Side} {a : Activity} (h : Held lower name hash s)
    (ha : SideHolds lower name hash s side a) : Held lower name hash (s.act side a) := by
  refine ⟨h.shared, h.saved, fun other => ?_⟩
  by_cases hother : other = side
  · subst hother
    show SideHolds _ _ _ _ _ (Function.update s.activity other a other)
    rw [Function.update_self]
    exact ha.same rfl rfl rfl
  · show SideHolds _ _ _ _ _ (Function.update s.activity side a other)
    rw [Function.update_of_ne hother]
    exact (h.sides other).same rfl rfl rfl

theorem keep_store {s : Processes} {side : Side} {st : UserStore}
    (hfile : st.file = (s.store side).file) (hversion : st.written = (s.store side).written)
    (other : Side) : ((s.keep side st).store other).file = (s.store other).file ∧
      ((s.keep side st).store other).written = (s.store other).written := by
  by_cases hother : other = side
  · subst hother
    show (Function.update s.store other st other).file = _ ∧
      (Function.update s.store other st other).written = _
    rw [Function.update_self]
    exact ⟨hfile, hversion⟩
  · show (Function.update s.store side st other).file = _ ∧
      (Function.update s.store side st other).written = _
    rw [Function.update_of_ne hother]
    exact ⟨rfl, rfl⟩

theorem Held.keep {s : Processes} {side : Side} {st : UserStore} (h : Held lower name hash s)
    (hfile : st.file = (s.store side).file) (hversion : st.written = (s.store side).written) :
    Held lower name hash (s.keep side st) := by
  have hstore := keep_store hfile hversion
  have hsame : (s.keep side st).file = s.file := (hstore .manager).1
  have hwritten : (s.keep side st).written = s.written := (hstore .manager).2
  refine ⟨fun other => ?_, fun v hv => ?_, fun other => (h.sides other).same hwritten rfl rfl⟩
  · rw [hsame, hwritten, (hstore other).1, (hstore other).2]
    exact h.shared other
  · rw [hsame, hwritten]
    exact h.saved v hv

end Invariant

section Steps

variable {lower : String → String} {username passwordHash : String}

@[simp] theorem remember_written (st : UserStore) : st.remember.written = st.written := by
  unfold UserStore.remember
  split <;> rfl

/-- The assertion of the reset. -/
abbrev Resetting (lower : String → String) (username passwordHash : String) : Processes → Prop :=
  Held lower (normalize lower username) passwordHash

theorem manager_writes {name hash : String} {s : Processes} {r : Running} {c : Call}
    {k : c.Answer → Prog Call Call.Answer (Except Raised Bool × UserStore)}
    (h : ManagerHolds lower name hash s (.running r)) (hrest : r.rest = .call c k)
    (hkeeps : r.request.replaces lower name hash = false) (reply : (c : Call) → c.Answer) :
    Writes (HashKept name hash r.view.file) (r.log ++ [⟨c, reply c⟩]) := by
  obtain ⟨hpartly, _, hmethod, _⟩ := h
  rw [hrest] at hpartly
  exact ((hmethod hkeeps).1 r.view.file).partly (fun _ _ => Writes.part) reply
    ⟨rfl, fun _ _ hmem => by cases hmem⟩ (.call (reply c) hpartly)

theorem tool_writes {name hash : String} {r : Running} {c : Call}
    {k : c.Answer → Prog Call Call.Answer (Except Raised Bool × UserStore)}
    (hsaves : SavesHash name hash r.method) (hpartly : Partly (r.method r.view) r.log r.rest)
    (hrest : r.rest = .call c k) (reply : (c : Call) → c.Answer) :
    Writes (fun data => hashIn data name = some hash) (r.log ++ [⟨c, reply c⟩]) := by
  rw [hrest] at hpartly
  exact ((hsaves r.view.file).conseq (fun _ _ h => h) (fun _ _ _ h => h.1) fun _ _ _ h => h).partly
    (fun _ _ => Writes.part) reply ⟨rfl, fun _ _ hmem => by cases hmem⟩ (.call (reply c) hpartly)

theorem renamed_by_manager {s : Processes} {r : Running} {data : Fields}
    (h : Resetting lower username passwordHash s) (hr : s.activity .manager = .running r)
    (hwrites : r.request.replaces lower (normalize lower username) passwordHash = false →
      HashKept (normalize lower username) passwordHash r.view.file data)
    (hfresh : ∀ v, s.savedAt = some v →
      r.request.replaces lower (normalize lower username) passwordHash = true ∨
      v ≤ r.view.written) :
    Resetting lower username passwordHash
      ((s.note lower username passwordHash .manager r.request data).rename data) := by
  have hmanager : ManagerHolds lower (normalize lower username) passwordHash s (.running r) :=
    hr ▸ h.sides .manager
  refine ⟨fun side => ⟨rfl, congrArg (· + 1) (h.shared side).2⟩, fun v hv => ?_, fun side => ?_⟩
  · refine ⟨Nat.le_succ_of_le (h.saved v hv).1, fun hover => ?_⟩
    show (File.holds (.dict data)).hash _ = _
    rw [hash_holds]
    obtain ⟨hbefore, hnow⟩ := Bool.or_eq_false_iff.mp hover
    by_cases hreplaces : r.request.replaces lower (normalize lower username) passwordHash = true
    · -- it may give the user the same password again
      rw [hreplaces, Bool.true_and] at hnow
      simpa using hnow
    · have hview := (hfresh v hv).resolve_left hreplaces
      exact hwrites (by simpa using hreplaces) (hmanager.2.2.2 v hv hview hbefore)
  · cases side with
    | manager =>
        show ManagerHolds _ _ _ _ (s.activity .manager)
        rw [hr]
        obtain ⟨hpartly, hview, hkeeps, hhash⟩ := hmanager
        exact ⟨hpartly, Nat.le_succ_of_le hview, hkeeps, fun v hv hle hover =>
          hhash v hv hle (Bool.or_eq_false_iff.mp hover).1⟩
    | tool =>
        show ToolHolds _ _ _ (s.activity .tool)
        have htool : ToolHolds _ _ s (s.activity .tool) := h.sides .tool
        generalize s.activity .tool = a at htool
        cases a with
        | idle | between | running | returned | raised => exact htool

/-- A rename by the reset. -/
theorem renamed_by_tool {s : Processes} {r : Running} {data : Fields}
    (h : Resetting lower username passwordHash s) (hr : s.activity .tool = .running r)
    (hwrites : SavesHash (normalize lower username) passwordHash r.method →
      hashIn data (normalize lower username) = some passwordHash) :
    Resetting lower username passwordHash
      ((s.note lower username passwordHash .tool r.request data).rename data) := by
  refine ⟨fun side => ⟨rfl, congrArg (· + 1) (h.shared side).2⟩, fun v hv => ?_, fun side => ?_⟩
  · have hsaved : (if hashIn data (normalize lower username) = some passwordHash
        then some ((s.store .tool).written + 1) else none) = some v := hv
    split at hsaved
    next hhash =>
        refine ⟨?_, fun _ => hash_holds.trans hhash⟩
        rw [← Option.some.inj hsaved, (h.shared .tool).2]
        exact Nat.le_refl _
    next => cases hsaved
  · cases side with
    | manager =>
        show ManagerHolds _ _ _ _ (s.activity .manager)
        have hmanager : ManagerHolds _ _ _ s (s.activity .manager) := h.sides .manager
        generalize s.activity .manager = a at hmanager
        cases a with
        | running r =>
            obtain ⟨hpartly, hview, hkeeps, hhash⟩ := hmanager
            refine ⟨hpartly, Nat.le_succ_of_le hview, hkeeps, fun v hv hle _ => ?_⟩
            -- what the manager has read is older than this save
            have hsaved : (if hashIn data (normalize lower username) = some passwordHash
              then some ((s.store .tool).written + 1) else none) = some v := hv
            split at hsaved
            · have hversion := (h.shared .tool).2
              have := Option.some.inj hsaved
              omega
            · cases hsaved
        | idle | between | returned | raised => exact hmanager
    | tool =>
        show ToolHolds _ _ _ (s.activity .tool)
        have htool : ToolHolds _ _ s (s.activity .tool) := h.sides .tool
        rw [hr] at htool ⊢
        obtain ⟨hpartly, hnext⟩ := htool
        refine ⟨hpartly, hnext.imp id fun ⟨hsaves, hdone, _⟩ => ⟨hsaves, hdone, fun _ => ?_⟩⟩
        show (if _ then _ else _) ≠ none
        rw [if_pos (hwrites hsaves)]
        exact Option.some_ne_none _

theorem answer_holds {s : Processes} {side : Side} {r : Running} {c : Call}
    {k : c.Answer → Prog Call Call.Answer (Except Raised Bool × UserStore)}
    {reply : (c : Call) → c.Answer} (h : Resetting lower username passwordHash s)
    (hr : s.activity side = .running r) (hrest : r.rest = .call c k)
    (hfresh : UpToDate lower username passwordHash s (.call side reply)) :
    Resetting lower username passwordHash
      (s.answer lower username passwordHash side r.request c (reply c)) := by
  cases c with
  | openFile | nowIso => exact h
  | writeDurable data =>
      -- every rename says the same, whether the call raises after it or not
      have hrename : r.renames reply = true → Resetting lower username passwordHash
          ((s.note lower username passwordHash side r.request data).rename data) := by
        intro hrenames
        have hmem : ∀ log, (⟨.writeDurable data, reply (.writeDurable data)⟩ :
          (c : Call) × c.Answer) ∈
            log ++ [⟨.writeDurable data, reply (.writeDurable data)⟩] :=
          fun log => List.mem_append_right _ (List.mem_singleton_self _)
        have hside := h.sides side
        rw [hr] at hside
        cases side with
        | manager =>
            have hwrites := fun hkeeps => manager_writes hside hrest hkeeps reply _ _ (hmem _)
            exact renamed_by_manager h hr hwrites fun v => up_to_date_renames hfresh hr hrenames
        | tool =>
            exact renamed_by_tool h hr fun hsaves =>
              tool_writes hsaves hside.1 hrest reply _ _ (hmem _)
      unfold Running.renames at hrename
      rw [hrest] at hrename
      dsimp only at hrename
      show Resetting _ _ _ (Processes.answer _ _ _ _ _ _ _ (reply (.writeDurable data)))
      cases hreply : reply (.writeDurable data) with
      | done =>
          rw [hreply] at hrename
          exact (hrename rfl).keep rfl rfl
      | raised => exact h
      | raisedAfterRename =>
          rw [hreply] at hrename
          exact hrename rfl

theorem answer_activity {s : Processes} {side : Side} {request : Request} {c : Call}
    {x : c.Answer} :
    (s.answer lower username passwordHash side request c x).activity = s.activity := by
  have hnote : ∀ data,
      (s.note lower username passwordHash side request data).activity = s.activity := by
    intro data
    cases side with
    | manager | tool => rfl
  cases c with
  | openFile | nowIso => rfl
  | writeDurable data =>
      cases x with
      | done => exact hnote data
      | raised => rfl
      | raisedAfterRename => exact hnote data

theorem saved_by_answer {s : Processes} {side : Side} {r : Running} {c : Call}
    {k : c.Answer → Prog Call Call.Answer (Except Raised Bool × UserStore)}
    {reply : (c : Call) → c.Answer} (hrest : r.rest = .call c k)
    (h : SideHolds lower (normalize lower username) passwordHash
      (s.answer lower username passwordHash side r.request c (reply c)) side (.running r)) :
    SideHolds lower (normalize lower username) passwordHash
      (s.answer lower username passwordHash side r.request c (reply c)) side
      (.running { r with log := r.log ++ [⟨c, reply c⟩], rest := k (reply c) }) := by
  have hpartly : Partly (r.method r.view) r.log r.rest →
      Partly (r.method r.view) (r.log ++ [⟨c, reply c⟩]) (k (reply c)) := by
    intro hbefore
    rw [hrest] at hbefore
    exact .call _ hbefore
  cases side with
  | manager => exact ⟨hpartly h.1, h.2⟩
  | tool =>
      refine ⟨hpartly h.1, h.2.imp id fun ⟨hsaves, hdone, hlog⟩ => ⟨hsaves, hdone, ?_⟩⟩
      rintro ⟨data, hmem, hdata⟩
      rcases List.mem_append.mp hmem with hmem | hmem
      · exact hlog ⟨data, hmem, hdata⟩
      · -- the call is the save
        have hcall := List.mem_singleton.mp hmem
        cases c with
        | openFile | nowIso => cases hcall
        | writeDurable other =>
            obtain rfl : data = other := Call.writeDurable.inj (congrArg Sigma.fst hcall)
            have hreply : reply (.writeDurable data) = .done :=
              (eq_of_heq (Sigma.mk.inj hcall).2).symm
            rw [hreply]
            show (if _ then _ else _) ≠ none
            rw [if_pos hdata]
            exact Option.some_ne_none _

theorem read_holds {s : Processes} {side : Side} {request : Request} {m : Method Bool}
    {next : Bool → Session} (h : Resetting lower username passwordHash s)
    (hbetween : s.activity side = .between request (.method m next)) (log rest)
    (hpartly : Partly (m (s.store side)) log rest) (hlog : ∀ P, ¬ Saved P log) :
    SideHolds lower (normalize lower username) passwordHash s side
      (.running ⟨request, m, next, s.store side, log, rest⟩) := by
  have hside := h.sides side
  rw [hbetween] at hside
  cases side with
  | manager =>
      refine ⟨hpartly, Nat.le_refl _, hside, fun v hv hle hover => ?_⟩
      exact (h.saved v hv).2 hover
  | tool =>
      refine ⟨hpartly, hside.symm.imp id fun ⟨hsaves, hdone⟩ => ⟨hsaves, hdone, fun hsaved => ?_⟩⟩
      exact absurd hsaved (hlog _)

/-- A method has come to its end. -/
theorem finish_holds {s s' : Processes} {side : Side} (h : Resetting lower username passwordHash s)
    (hstep : s.step lower username passwordHash (.finish side) = some s') :
    Resetting lower username passwordHash s' := by
  rw [Processes.step] at hstep
  split at hstep
  · rename_i r hr
    have hside := h.sides side
    rw [hr] at hside
    split at hstep
    · rename_i b st hend
      split at hstep
      · rename_i hdone
        cases hstep
        refine h.act ?_
        cases side with
        | manager => trivial
        | tool =>
            obtain ⟨hpartly, hnext⟩ := hside
            rw [hend] at hpartly
            rcases hnext with hnext | ⟨hsaves, _, hlog⟩
            · have hdid := hnext b
              rw [hdone] at hdid
              exact hdid.elim
            · have hreads : Reads r.view.file (fun data =>
                  hashIn data (normalize lower username) = some passwordHash) r.view [] :=
                ⟨rfl, fun _ _ hmem => by cases hmem⟩
              exact hlog ((hsaves r.view.file).returned hreads hpartly).2
      · rename_i hmore
        cases hstep
        refine h.act ?_
        cases side with
        | manager => exact fun hkeeps => (hside.2.2.1 hkeeps).2 b
        | tool =>
            rcases hside.2 with hnext | ⟨_, hdone, _⟩
            · exact hnext b
            · exact absurd (hdone b) hmore
    · cases hstep
      refine h.act ?_
      cases side with
      | manager => trivial
      | tool => trivial
    · cases hstep
  · cases hstep

theorem step_holds (hlower : ∀ name, normalize lower (normalize lower name) = normalize lower name)
    {s s' : Processes} {e : Event} (h : Resetting lower username passwordHash s)
    (hfresh : UpToDate lower username passwordHash s e)
    (hstep : s.step lower username passwordHash e = some s') :
    Resetting lower username passwordHash s' := by
  cases e with
  | begin_ side request =>
      cases side with
      | tool =>
          rw [Processes.step] at hstep
          split at hstep
          · cases hstep
            exact h.act (temporary_saves hlower)
          · cases hstep
      | manager =>
          rw [Processes.step] at hstep
          split at hstep
          · cases hstep
            exact h.act (a := .between request (request.session lower)) (session_keeps hlower)
          · cases hstep
  | read side opened =>
      rw [Processes.step] at hstep
      split at hstep
      · rename_i request m next hbetween
        dsimp only at hstep
        split at hstep
        · rename_i k hopen
          cases hstep
          have hpartly : Partly (m (s.store side)) [⟨.openFile, opened⟩] (k opened) := by
            have hstart : Partly (m (s.store side)) [] (.call .openFile k) := hopen ▸ .start
            exact hstart.call opened
          have hread := read_holds h hbetween _ _ hpartly fun P ⟨data, hmem, _⟩ => by
            cases List.mem_singleton.mp hmem
          have hfile : (if opened then (s.store side).remember else s.store side).file =
              (s.store side).file := by
            split
            · exact remember_file _
            · rfl
          have hversion : (if opened then (s.store side).remember else s.store side).written =
              (s.store side).written := by
            split
            · exact remember_written _
            · rfl
          have hkept := keep_store hfile hversion .manager
          exact (h.keep hfile hversion).act (hread.same hkept.2 rfl rfl)
        · cases hstep
          exact h.act (read_holds h hbetween _ _ .start fun P ⟨data, hmem, _⟩ => by cases hmem)
      · cases hstep
  | call side reply =>
      rw [Processes.step] at hstep
      split at hstep
      · rename_i r hr
        split at hstep
        · rename_i c k hrest
          cases hstep
          have hanswer := answer_holds h hr hrest hfresh
          refine hanswer.act (saved_by_answer hrest ?_)
          have hside := hanswer.sides side
          rwa [answer_activity, hr] at hside
        · cases hstep
      · cases hstep
  | finish side => exact finish_holds h hstep

theorem open_holds (file : File) : Resetting lower username passwordHash (.open_ file) where
  shared _ := ⟨rfl, rfl⟩
  saved _ h := by cases h
  sides side := by
    cases side with
    | manager | tool => trivial

end Steps

section Runs

theorem strip_front (chars : List Char) :
    ((chars.dropWhile isSpace).reverse.dropWhile isSpace).reverse.dropWhile isSpace =
      ((chars.dropWhile isSpace).reverse.dropWhile isSpace).reverse := by
  have hbefore : ((chars.dropWhile isSpace).reverse.dropWhile isSpace).reverse <+:
      chars.dropWhile isSpace := by
    have hsuffix := List.dropWhile_suffix isSpace (l := (chars.dropWhile isSpace).reverse)
    have hreverse := List.reverse_prefix.mpr hsuffix
    rwa [List.reverse_reverse] at hreverse
  rw [List.dropWhile_eq_self_iff]
  intro hlength
  have hfront := List.dropWhile_get_zero_not isSpace chars
    (Nat.lt_of_lt_of_le hlength hbefore.length_le)
  rwa [hbefore.getElem hlength]

theorem normalize_id (name : String) : normalize id (normalize id name) = normalize id name := by
  have hchars : ∀ chars : List Char, ((((chars.dropWhile isSpace).reverse.dropWhile
      isSpace).reverse.dropWhile isSpace).reverse.dropWhile isSpace).reverse =
      ((chars.dropWhile isSpace).reverse.dropWhile isSpace).reverse := by
    intro chars
    rw [strip_front chars, List.reverse_reverse, List.dropWhile_idempotent]
  have hstrip : stripChars (strip name) = stripChars name := by
    unfold strip stripChars
    rw [String.toList_ofList]
    exact hchars _
  exact congrArg String.ofList hstrip

/-- The user has the temporary password on disk, unless the manager has replaced it since. -/
def Processes.Kept (lower : String → String) (username passwordHash : String)
    (s : Processes) : Prop :=
  s.activity .tool = .returned → s.overwritten = false →
    s.file.hash (normalize lower username) = some passwordHash

/-- In a run without a save of an older copy a reset that has returned is not undone. -/
theorem reset_kept {lower : String → String} {username passwordHash : String}
    (hlower : ∀ name, normalize lower (normalize lower name) = normalize lower name) {file : File}
    {s : Processes} (h : Reaches (Processes.step lower username passwordHash)
      (UpToDate lower username passwordHash) (.open_ file) s) :
    s.Kept lower username passwordHash := by
  intro hreturned hover
  have hheld : Resetting lower username passwordHash s :=
    Reaches.invariant (open_holds file)
      (fun hs hallowed hstep => step_holds hlower hs hallowed hstep) h
  have htool := hheld.sides .tool
  rw [hreturned] at htool
  obtain ⟨v, hv⟩ := Option.ne_none_iff_exists'.mp htool
  exact (hheld.saved v hv).2 hover

/-- A file with one admin. -/
def oneAdmin : File := .holds (.dict [("users", .dict
  [("admin", .dict [("role", .str "admin"), ("password_hash", .str "old")])])])

/-- The reset of `admin`, which finds the user: a lookup, the switch of the account, the password.
-/
def resetEvents : List Event :=
  [.begin_ .tool (.operation (.setTemporary "admin" "new")),
    .read .tool true, .finish .tool,
    .read .tool true, .call .tool succeeding, .call .tool succeeding, .finish .tool,
    .read .tool true, .call .tool succeeding, .call .tool succeeding, .call .tool succeeding,
    .finish .tool]

/-- A sign-in of `admin`. -/
def signIn : Event := .begin_ .manager (.operation (.stampLogin "admin"))

/-- What the sign-in does after it has read the file. -/
def stampEvents : List Event :=
  [.call .manager succeeding, .call .manager succeeding, .call .manager succeeding,
    .finish .manager]

/-- The reset has returned, nothing has replaced the password, and the user has this one. -/
def shows (password : String) (s : Processes) : Bool :=
  (match s.activity .tool with
    | .returned => true
    | .idle | .between _ _ | .running _ | .raised => false) &&
  !s.overwritten && s.file.hash "admin" = some password

theorem shown_at_end {ok : Processes → Event → Bool} {events : List Event} {password : String}
    (h : ((play (Processes.step id "admin" "new") ok (.open_ oneAdmin) events).any
      (shows password)) = true) :
    ∃ s, play (Processes.step id "admin" "new") ok (.open_ oneAdmin) events = some s ∧
      s.activity .tool = .returned ∧ s.overwritten = false ∧
      s.file.hash "admin" = some password := by
  obtain ⟨s, hs, hshows⟩ := (Option.any_eq_true _ _).mp h
  refine ⟨s, hs, ?_⟩
  unfold shows at hshows
  rw [Bool.and_eq_true, Bool.and_eq_true] at hshows
  obtain ⟨⟨hreturned, hover⟩, hhash⟩ := hshows
  refine ⟨?_, by simpa using hover, by simpa using hhash⟩
  revert hreturned
  generalize s.activity .tool = a
  cases a with
  | returned => exact fun _ => rfl
  | idle | between | running | raised => exact fun h => by cases h

/-- The sign-in after the reset reads the new file, and the temporary password stays. -/
theorem reset_kept_at_sign_in : ∃ s : Processes, s.activity .tool = .returned ∧
    s.overwritten = false ∧ s.Kept id "admin" "new" := by
  have hrun : ((play (Processes.step id "admin" "new") (upToDate id "admin" "new") (.open_ oneAdmin)
      (resetEvents ++ [signIn, .read .manager true] ++ stampEvents)).any (shows "new")) = true := by
    decide +kernel
  obtain ⟨s, hs, hreturned, hover, _⟩ := shown_at_end hrun
  exact ⟨s, hreturned, hover, reset_kept normalize_id (reaches_of_play (fun _ _ h => h) hs)⟩

/-- The sign-in that has read the file before the reset writes the old password again. -/
theorem reset_undone : ¬ ∀ (lower : String → String) (username passwordHash : String) (file : File)
    (s : Processes), (∀ name, normalize lower (normalize lower name) = normalize lower name) →
    Reaches (Processes.step lower username passwordHash) (fun _ _ => True) (.open_ file) s →
    s.Kept lower username passwordHash := by
  intro hall
  have hrun : ((play (Processes.step id "admin" "new") (fun _ _ => true) (.open_ oneAdmin)
      ([signIn, .read .manager true] ++ resetEvents ++ stampEvents)).any (shows "old")) = true := by
    decide +kernel
  obtain ⟨s, hs, hreturned, hover, hhash⟩ := shown_at_end hrun
  have hkept := hall id "admin" "new" oneAdmin s normalize_id
    (reaches_of_play (fun _ _ _ => trivial) hs) hreturned hover
  have hname : normalize id "admin" = "admin" := by decide +kernel
  rw [hname, hhash] at hkept
  exact absurd (Option.some.inj hkept) (by decide)

end Runs

end SystemsManager.Users
