import SystemsManager.Python.Weave
import SystemsManager.Toml.Value

/-!
# The origins a browser may come from

`corrected_origins` of `toml_reconcile.py`: on a host that runs the alarm engine alone the origins
that name the manager on the alarm-engine port are given its own address, and each http origin is
followed by its https twin. `corrected_again` is the theorem to read: a second run changes nothing
unless a twin of the first is itself an origin to rewrite, which needs a manager whose TLS port is
the alarm-engine port. `twin_rewritten` is such a config.
-/

namespace SystemsManager.Installer.Origins

open Python Toml

variable {F : Type}

section Program

/-- An origin, or another text. -/
abbrev Text := List Char

/-- What the correction raises. -/
inductive Raised where
  | attributeError
  | valueError
  deriving DecidableEq

/-- `SplitResult.port`, which may raise. -/
inductive Port where
  | invalid
  | absent
  | number (n : Nat)

/-- `SplitResult` -/
structure SplitResult where
  scheme : Text
  netloc : Text
  path : Text
  query : Text
  fragment : Text
  hostname : Option Text
  port : Port

/-- What Python computes: `urlsplit`, which may raise, `str` of a value that is not a text, and
whether a float is a number. -/
structure Runtime (F : Type) where
  urlsplit : Text → Option SplitResult
  shown : Value F → Text
  floatIs : F → Int → Bool

/-- `LOOPBACK_HOSTS` -/
def LOOPBACK_HOSTS : List Text := ["localhost".toList, "127.0.0.1".toList, "::1".toList]

/-- What `origin_parts` returns. -/
structure Parts where
  scheme : Text
  hostname : Text
  address : Text
  port : Nat

/-- `rsplit(sep, 1)[0]` -/
def beforeLast (sep : Char) (text : Text) : Text :=
  if sep ∈ text then ((text.reverse.dropWhile (· ≠ sep)).drop 1).reverse else text

variable (rt : Runtime F)

/-- `origin_parts` -/
def originParts (origin : Text) : Option Parts :=
  match rt.urlsplit origin with
  | none => none
  | some p =>
      match p.port with
      | .number port =>
          let hostname := p.hostname.getD []
          if p.scheme ∉ ["http".toList, "https".toList] ∨ hostname = [] then none
          else if p.path ≠ [] ∨ p.query ≠ [] ∨ p.fragment ≠ [] then none
          else some ⟨p.scheme, hostname, beforeLast ':' p.netloc, port⟩
      | _ => none

/-- `str` -/
def str : Value F → Text
  | .str text => text
  | value => rt.shown value

/-- Whether a port equals a value of the config. -/
def equals (port : Nat) : Value F → Bool
  | .int n => (port : Int) == n
  | .bool b => port == b.toNat
  | .float x => rt.floatIs x port
  | _ => false

/-- `isinstance(value, int) and value > 0`; a truth value is an `int`. -/
def positive : Value F → Bool
  | .int n => 0 < n
  | .bool b => b
  | _ => false

/-- `cfg.get(name, {})`, of which `get` is called. -/
def tableOf (cfg : Items F) (name : Name) : Except Raised (Items F) :=
  match cfg.lookup name with
  | none => .ok []
  | some (.table _ items) => .ok items
  | some _ => .error .attributeError

/-- What the correction takes from the config and its arguments. -/
structure Settings (F : Type) where
  localIp : Text
  aePort : Value F
  mgrPort : Value F
  tlsPort : Value F
  mgrHost : Text
  swap : Bool

/-- The first lines of `corrected_origins`. -/
def settingsOf (cfg : Items F) (localIp : Text) (aeOnly : Bool) : Except Raised (Settings F) := do
  let ae ← tableOf cfg "alarm_engine".toList
  let mgr ← tableOf cfg "manager".toList
  match rt.urlsplit (str rt ((ae.lookup "manager_url".toList).getD (.str []))) with
  | none => .error .valueError
  | some url =>
      let mgrHost := url.hostname.getD []
      .ok {
        localIp := localIp
        aePort := (ae.lookup "port".toList).getD (.int 8081)
        mgrPort := (mgr.lookup "port".toList).getD (.int 5000)
        tlsPort := (mgr.lookup "tls_port".toList).getD (.int 5443)
        mgrHost := mgrHost
        swap := aeOnly && localIp ≠ [] && mgrHost ≠ [] && mgrHost ∉ LOOPBACK_HOSTS &&
          mgrHost ≠ localIp }

variable (s : Settings F)

/-- `f"{scheme}://{host}:{port}"` -/
def originOf (scheme host port : Text) : Text := scheme ++ "://".toList ++ host ++ ':' :: port

/-- This host on the alarm-engine port. -/
def ownOrigin (scheme : Text) : Text := originOf scheme s.localIp (str rt s.aePort)

/-- What an origin becomes. -/
def rewrite (origin : Text) : Text :=
  match originParts rt origin with
  | some parts =>
      if s.swap ∧ parts.hostname = s.mgrHost ∧ equals rt parts.port s.aePort then
        ownOrigin rt s parts.scheme
      else origin
  | none => origin

/-- The https twin of an http origin. -/
def twinOf (origin : Text) : Option Text :=
  match originParts rt origin with
  | some parts =>
      if parts.scheme ≠ "http".toList then none
      else if equals rt parts.port s.aePort then
        some (originOf "https".toList parts.address (str rt s.aePort))
      else if equals rt parts.port s.mgrPort ∧ positive s.tlsPort then
        some (originOf "https".toList parts.address (str rt s.tlsPort))
      else none
  | none => none

/-- `corrected_origins` -/
def correctedOrigins (items : List Text) (cfg : Items F) (localIp : Text) (aeOnly : Bool) :
    Except Raised (List Text) := do
  let s ← settingsOf rt cfg localIp aeOnly
  let fixed := items.foldl (fun fixed o => addNew fixed (rewrite rt s o)) []
  .ok (fixed.foldl (weaveStep (twinOf rt s) fixed) [])

end Program

section Correctness

variable {rt : Runtime F} {s : Settings F}

/-- `urlsplit` reads the scheme of an address as it stands. -/
def ReadsSchemes (rt : Runtime F) : Prop :=
  ∀ scheme ∈ ["http".toList, "https".toList], ∀ rest p,
    rt.urlsplit (scheme ++ "://".toList ++ rest) = some p → p.scheme = scheme

theorem scheme_mem {origin : Text} {parts : Parts} (h : originParts rt origin = some parts) :
    parts.scheme ∈ ["http".toList, "https".toList] := by
  unfold originParts at h
  grind

theorem origin_of_scheme (hread : ReadsSchemes rt) {scheme host port : Text} {parts : Parts}
    (hscheme : scheme ∈ ["http".toList, "https".toList])
    (h : originParts rt (originOf scheme host port) = some parts) : parts.scheme = scheme := by
  have hsplit := hread scheme hscheme (host ++ ':' :: port)
  unfold originParts originOf at h
  simp only [List.append_assoc] at h hsplit
  grind

theorem rewrite_origin (hread : ReadsSchemes rt) {scheme host port : Text}
    (hscheme : scheme ∈ ["http".toList, "https".toList]) :
    rewrite rt s (originOf scheme host port) = originOf scheme host port ∨
      rewrite rt s (originOf scheme host port) = ownOrigin rt s scheme := by
  unfold rewrite
  cases hparts : originParts rt (originOf scheme host port) with
  | none => exact Or.inl rfl
  | some parts =>
      have := origin_of_scheme hread hscheme hparts
      grind

theorem twin_eq {origin twin : Text} (h : twinOf rt s origin = some twin) :
    ∃ host port, twin = originOf "https".toList host port := by
  unfold twinOf at h
  grind

theorem no_twin_of_https (hread : ReadsSchemes rt) (host port : Text) :
    twinOf rt s (originOf "https".toList host port) = none := by
  unfold twinOf
  cases hparts : originParts rt (originOf "https".toList host port) with
  | none => rfl
  | some parts =>
      have hscheme := origin_of_scheme hread (by simp) hparts
      have hne : parts.scheme ≠ "http".toList := by
        rw [hscheme]
        decide
      exact if_pos hne

theorem rewrites_to (hread : ReadsSchemes rt) :
    FixesTo (twinOf rt s) (rewrite rt s) (ownOrigin rt s "https".toList) where
  fix_fix := by
    have hown : ∀ scheme ∈ ["http".toList, "https".toList],
        rewrite rt s (ownOrigin rt s scheme) = ownOrigin rt s scheme := by
      intro scheme hscheme
      exact (rewrite_origin hread hscheme).elim id id
    intro o
    cases hparts : originParts rt o with
    | none =>
        have : rewrite rt s o = o := by simp [rewrite, hparts]
        rw [this, this]
    | some parts =>
        have : rewrite rt s o = o ∨ rewrite rt s o = ownOrigin rt s parts.scheme := by
          simp only [rewrite, hparts]
          grind
        rcases this with h | h
        · rw [h, h]
        · rw [h, hown _ (scheme_mem hparts)]
  twin_twin := by
    intro a t h
    obtain ⟨host, port, rfl⟩ := twin_eq h
    exact no_twin_of_https hread host port
  fix_twin := by
    intro a t h
    obtain ⟨host, port, rfl⟩ := twin_eq h
    exact rewrite_origin hread (by simp)
  fix_goal := (rewrite_origin hread (by simp)).elim id id
  twin_goal := no_twin_of_https hread _ _

theorem corrected_eq (items : List Text) (cfg : Items F) (localIp : Text) (aeOnly : Bool) :
    correctedOrigins rt items cfg localIp aeOnly =
      (settingsOf rt cfg localIp aeOnly).map fun s => run (twinOf rt s) (rewrite rt s) items := by
  unfold correctedOrigins
  cases settingsOf rt cfg localIp aeOnly with
  | error e => rfl
  | ok s =>
      have hfold : items.foldl (fun fixed o => addNew fixed (rewrite rt s o)) [] =
          firsts (items.map (rewrite rt s)) := by
        rw [firsts, List.foldl_map]
      show Except.ok _ = Except.ok _
      rw [hfold]
      rfl

/-- A correction is a projection: a second one with the same settings changes nothing, no origin is
there twice, the origins that are not rewritten are kept, the order is that of the rewritten list,
and each origin that calls for an https twin has it. -/
def Projects (rt : Runtime F) (cfg : Items F) (localIp : Text) (aeOnly : Bool)
    (items : List Text) : Prop :=
  ∀ s out, settingsOf rt cfg localIp aeOnly = .ok s →
    correctedOrigins rt items cfg localIp aeOnly = .ok out →
    correctedOrigins rt out cfg localIp aeOnly = .ok out ∧ out.Nodup ∧
      (∀ o ∈ items, rewrite rt s o = o → o ∈ out) ∧
      (firsts (items.map (rewrite rt s))).Sublist out ∧
      ∀ o ∈ out, ∀ twin, twinOf rt s o = some twin → twin ∈ out

/-- The correction is a projection exactly where the own https origin is settled: at the first
origin whose twin would be rewritten, it stands or is put before, or comes next. -/
theorem corrected_again (hread : ReadsSchemes rt) (cfg : Items F) (localIp : Text) (aeOnly : Bool)
    (items : List Text) :
    Projects rt cfg localIp aeOnly items ↔
      ∀ s, settingsOf rt cfg localIp aeOnly = .ok s →
        Settled (twinOf rt s) (rewrite rt s) (ownOrigin rt s "https".toList) items := by
  have hrun : ∀ (s : Settings F) (items : List Text), settingsOf rt cfg localIp aeOnly = .ok s →
      correctedOrigins rt items cfg localIp aeOnly =
        .ok (run (twinOf rt s) (rewrite rt s) items) := by
    intro s items hs
    rw [corrected_eq, hs]
    rfl
  constructor
  · intro hproj s hs
    have hagain := (hproj s _ hs (hrun s items hs)).1
    rw [hrun s _ hs] at hagain
    exact ((rewrites_to hread).run_again_iff items).mp (Except.ok.inj hagain)
  · intro hsettled s out hs hout
    rw [hrun s items hs] at hout
    cases hout
    have hfixed := nodup_firsts (items.map (rewrite rt s))
    have hwoven := woven_weave (twinOf rt s) hfixed
    refine ⟨?_, hwoven.nodup, ?_, ?_, ?_⟩
    · rw [hrun s _ hs, ((rewrites_to hread).run_again_iff items).mpr (hsettled s hs)]
    · intro o ho hsame
      refine (hwoven.mem o).mpr (Or.inl ?_)
      exact mem_firsts.mpr (List.mem_map.mpr ⟨o, ho, hsame⟩)
    · have hstand := filter_weave (twinOf rt s) hfixed
      conv_lhs => rw [← hstand]
      exact List.filter_sublist
    · intro o ho twin htwin
      rcases (hwoven.mem o).mp ho with hin | ⟨-, a, -, ha⟩
      · exact twin_mem_weave hfixed hin htwin
      · rw [(rewrites_to hread).twin_twin ha] at htwin
        cases htwin

/-- An address without user, query or fragment. -/
def plainParts (scheme rest : Text) : SplitResult :=
  let netloc := rest.takeWhile (· ≠ '/')
  let port := (netloc.dropWhile (· ≠ ':')).drop 1
  { scheme := scheme
    netloc := netloc
    path := rest.dropWhile (· ≠ '/')
    query := []
    fragment := []
    hostname := some ((netloc.takeWhile (· ≠ ':')).map Char.toLower)
    port :=
      if port = [] then .absent
      else if port.all Char.isDigit then
        .number (port.foldl (fun n c => 10 * n + (c.toNat - '0'.toNat)) 0)
      else .invalid }

/-- `urlsplit` on such addresses. -/
def plainSplit (text : Text) : Option SplitResult :=
  if text.take 7 = "http://".toList then some (plainParts "http".toList (text.drop 7))
  else if text.take 8 = "https://".toList then some (plainParts "https".toList (text.drop 8))
  else some ⟨[], [], text, [], [], none, .absent⟩

/-- A runtime for configs without floats. -/
def plainRuntime : Runtime Empty where
  urlsplit := plainSplit
  shown
    | .int n => (toString n).toList
    | .bool b => (if b then "True" else "False").toList
    | _ => []
  floatIs := nofun

theorem plain_reads : ReadsSchemes plainRuntime := by
  intro scheme hscheme rest p h
  have hcases : scheme = "http".toList ∨ scheme = "https".toList := by simpa using hscheme
  rcases hcases with rfl | rfl
  · obtain rfl : plainParts "http".toList rest = p := by simpa [plainRuntime, plainSplit] using h
    rfl
  · obtain rfl : plainParts "https".toList rest = p := by simpa [plainRuntime, plainSplit] using h
    rfl

/-- The config of an alarm engine that names its manager. -/
def splitConfig (tlsPort : Int) : Items Empty :=
  [("alarm_engine".toList,
      .table false [("manager_url".toList, .str "http://192.0.2.10:5000".toList)]),
    ("manager".toList, .table false [("tls_port".toList, .int tlsPort)])]

/-- The origins of a split host are settled after one correction. -/
theorem corrected_again_split :
    Projects plainRuntime (splitConfig 5443) "192.0.2.20".toList true
      ["http://192.0.2.10:5000".toList, "http://localhost:5000".toList,
        "http://192.0.2.10:8081".toList] := by
  refine (corrected_again plain_reads _ _ _ _).mpr fun s hs before a after heq hstray => ?_
  have hstill : (settingsOf plainRuntime (splitConfig 5443) "192.0.2.20".toList true).map
      (fun s => ["http://192.0.2.10:5000".toList, "http://localhost:5000".toList,
          "http://192.0.2.10:8081".toList].all fun o =>
        (twinOf plainRuntime s (rewrite plainRuntime s o)).all fun t =>
          rewrite plainRuntime s t = t) = .ok true := by
    decide +kernel
  rw [hs, heq] at hstill
  obtain ⟨t, ht, hchange⟩ := hstray
  have hall := List.all_eq_true.mp (Except.ok.inj hstill) a (by simp)
  rw [ht] at hall
  exact absurd (of_decide_eq_true hall) hchange

/-- With the TLS port of the manager on the alarm-engine port, the twin of the manager's origin is
rewritten by the second correction, which puts a new twin before it. -/
theorem twin_rewritten :
    correctedOrigins plainRuntime ["http://192.0.2.10:5000".toList] (splitConfig 8081)
        "192.0.2.20".toList true =
      .ok ["http://192.0.2.10:5000".toList, "https://192.0.2.10:8081".toList] ∧
    correctedOrigins plainRuntime ["http://192.0.2.10:5000".toList,
      "https://192.0.2.10:8081".toList]
        (splitConfig 8081) "192.0.2.20".toList true =
      .ok ["http://192.0.2.10:5000".toList, "https://192.0.2.10:8081".toList,
        "https://192.0.2.20:8081".toList] ∧
    ¬ Projects plainRuntime (splitConfig 8081) "192.0.2.20".toList true
      ["http://192.0.2.10:5000".toList] := by
  refine ⟨by decide +kernel, by decide +kernel, fun h => ?_⟩
  have hagain := (h _ _ rfl rfl).1
  have hne : ¬ correctedOrigins plainRuntime ["http://192.0.2.10:5000".toList,
      "https://192.0.2.10:8081".toList] (splitConfig 8081) "192.0.2.20".toList true =
      .ok ["http://192.0.2.10:5000".toList, "https://192.0.2.10:8081".toList] := by
    decide +kernel
  exact hne hagain

end Correctness

end SystemsManager.Installer.Origins
