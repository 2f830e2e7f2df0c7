import SystemsManager.Power.Arbiter

/-!
# Which hold counts

What the holds of an arbiter are for, said without its dictionaries: a `Book` lists, for each
owner, the holders that still hold it in the order of their last request. The profile that the
owner holds is the one of the last request in the book. The arbiter instead recomputes it from
the insertion order of a dictionary, in which a repeated request keeps its old place.
`holds_are_latest` is the statement to read first; `overtaken_hold` is a run in which a repeated
request is forgotten.
-/

namespace SystemsManager.Power

open Python

/-- Who holds what, the latest request last. -/
structure Book where
  live : Owner → List (String × Profile)
  lastAggregate : Option String

namespace Book

/-- Nobody holds anything. -/
def empty : Book := ⟨fun _ => [], none⟩

/-- The profile of the most recent request among the holders that still hold the owner. -/
def latest (b : Book) (o : Owner) : Option Profile := (b.live o).getLast?.map Prod.snd

/-- The holders of one owner change. -/
def put (b : Book) (o : Owner) (items : List (String × Profile)) : Book :=
  { b with live := Function.update b.live o items }

/-- The holders other than the named one. -/
def without (b : Book) (o : Owner) (holder : String) : List (String × Profile) :=
  (b.live o).filter fun item => item.1 != holder

/-- The holder asks for a profile. -/
def request (b : Book) (o : Owner) (holder : String) (p : Profile) : Book :=
  b.put o (b.without o holder ++ [(holder, p)])

/-- One holder lets go of the owner, or all of them do. -/
def release (b : Book) (o : Owner) : Option String → Book
  | none => b.put o []
  | some holder => b.put o (b.without o holder)

/-- A change of the aggregate ends the manual holds. -/
def onAggregate (b : Book) (aggregate : String) : Book :=
  if b.lastAggregate ≠ none ∧ some aggregate ≠ b.lastAggregate then
    { b.put .manual [] with lastAggregate := some aggregate }
  else { b with lastAggregate := some aggregate }

/-- What an event means for the books. -/
def record (books : ℕ → Book) : Event → ℕ → Book
  | .request n profile owner holder =>
      match Profile.parse profile, Owner.parse owner with
      | some p, some o => Function.update books n ((books n).request o (holder.getD "") p)
      | _, _ => books
  | .release n owner holder =>
      match Owner.parse owner with
      | some o => Function.update books n ((books n).release o holder)
      | none => books
  | .onAggregate n aggregate => Function.update books n ((books n).onAggregate aggregate)
  | .adoptHolds n other => Function.update books n (books other)
  | _ => books

/-- The books after a sequence of events. -/
def after (events : List Event) : ℕ → Book := events.foldl record fun _ => empty

@[simp] theorem after_snoc (events : List Event) (e : Event) :
    after (events ++ [e]) = record (after events) e := by
  simp [after]

end Book

/-- The profile of the last entry. -/
def lastProfile (items : List (String × Profile)) : Option Profile :=
  items.getLast?.map Prod.snd

@[simp] theorem last_profile_nil : lastProfile [] = none := rfl

@[simp] theorem last_profile_concat (items : List (String × Profile)) (item : String × Profile) :
    lastProfile (items ++ [item]) = some item.2 := by
  simp [lastProfile]

/-- The entries of the kept holders. -/
def kept (keep : String → Bool) (items : List (String × Profile)) : List (String × Profile) :=
  items.filter fun item => keep item.1

/-- Insertion order and request order name the same profile, whichever holders are kept. -/
def Agree (names live : List (String × Profile)) : Prop :=
  ∀ keep : String → Bool, lastProfile (kept keep names) = lastProfile (kept keep live)

/-- The profiles of the holders inserted after the named one. -/
def behind (holder : String) (names : List (String × Profile)) : List Profile :=
  ((names.dropWhile fun item => item.1 != holder).drop 1).map Prod.snd

/-- A request by a holder of the owner finds only its own profile behind its entry. -/
def keepsOrder (w : World) : Event → Bool
  | .request n profile owner holder =>
      match Profile.parse profile, Owner.parse owner with
      | some p, some o =>
          (behind (holder.getD "") ((w.arbiter n).holders o).items).all fun q => q = p
      | _, _ => true
  | _ => true

/-- The condition on a run under which its holds are those of the latest requests. -/
def KeepsOrder (w : World) (e : Event) : Prop := keepsOrder w e = true

/-- The holds of every arbiter are those of the latest requests, and a stranger cannot change
them. -/
structure HoldsLatest (books : ℕ → Book) (w : World) : Prop where
  latest : ∀ n o, (w.arbiter n).holds o = (books n).latest o
  absent : ∀ n o, (w.arbiter n).holds o = none ↔ (books n).live o = []
  release : ∀ n o owner holder, Owner.parse owner = some o →
    (∀ p, (holder, p) ∉ (books n).live o) →
    (w.arbiter n).release owner (some holder) = .ok (w.arbiter n)

section Lists

variable {keep : String → Bool} {names live rest : List (String × Profile)} {h : String}
variable {p : Profile} {item : String × Profile}

theorem last_profile_cons (hlast : lastProfile rest = some p) :
    lastProfile (item :: rest) = some p := by
  cases rest with
  | nil => cases hlast
  | cons next rest => simpa [lastProfile] using hlast

theorem last_profile_of_all (hitem : item.2 = p) (hall : ∀ x ∈ rest, x.2 = p) :
    lastProfile (item :: rest) = some p := by
  have hmem := List.getLast_mem (List.cons_ne_nil item rest)
  have hp : ((item :: rest).getLast (List.cons_ne_nil item rest)).2 = p := by
    rcases List.mem_cons.mp hmem with heq | htail
    · rw [heq, hitem]
    · exact hall _ htail
  simp [lastProfile, List.getLast?_eq_some_getLast (List.cons_ne_nil item rest), hp]

theorem last_profile_eq_none : lastProfile names = none ↔ names = [] := by
  simp [lastProfile]

theorem kept_all : kept (fun _ => true) names = names := by
  simp [kept]

theorem kept_set_items_of_not (hkeep : keep h = false) :
    kept keep (setItems h p names) = kept keep names := by
  induction names with
  | nil => simp [setItems, kept, hkeep]
  | cons item rest ih =>
      by_cases hi : item.1 = h
      · simp [setItems, kept, hi, hkeep]
      · simp only [kept] at ih
        simp [setItems, kept, hi, List.filter_cons, ih]

theorem last_kept_set_items (hkeep : keep h = true) (hbehind : ∀ q ∈ behind h names, q = p) :
    lastProfile (kept keep (setItems h p names)) = some p := by
  induction names with
  | nil => simp [setItems, kept, hkeep, lastProfile]
  | cons item rest ih =>
      by_cases hi : item.1 = h
      · have hrest : ∀ x ∈ rest, x.2 = p := by
          intro x hx
          apply hbehind
          simpa [behind, hi] using ⟨x.1, hx⟩
        simp only [setItems, hi, if_true, kept, List.filter_cons, hkeep]
        exact last_profile_of_all rfl fun x hx => hrest x (List.mem_filter.mp hx).1
      · have hlast := ih fun q hq => hbehind q (by simpa [behind, hi] using hq)
        simp only [setItems, hi, if_false, kept, List.filter_cons]
        split
        · exact last_profile_cons hlast
        · exact hlast

theorem kept_filter (names : List (String × Profile)) :
    kept keep (names.filter fun item => item.1 != h) =
      kept (fun other => keep other && other != h) names := by
  simp [kept, List.filter_filter]

theorem Agree.request (hagree : Agree names live) (hbehind : ∀ q ∈ behind h names, q = p) :
    Agree (setItems h p names) (live.filter (fun item => item.1 != h) ++ [(h, p)]) := by
  intro keep
  cases hkeep : keep h with
  | true =>
      rw [last_kept_set_items hkeep hbehind]
      simp [kept, hkeep]
  | false =>
      rw [kept_set_items_of_not hkeep, hagree keep]
      have hsame : kept keep (live.filter fun item => item.1 != h) = kept keep live := by
        rw [kept_filter]
        apply List.filter_congr
        intro item _
        by_cases hi : item.1 = h
        · simp [hi, hkeep]
        · simp [hi]
      rw [← hsame]
      simp [kept, hkeep]

theorem Agree.release (hagree : Agree names live) :
    Agree (names.filter fun item => item.1 != h) (live.filter fun item => item.1 != h) := by
  intro keep
  rw [kept_filter, kept_filter]
  exact hagree _

theorem Agree.not_mem (hagree : Agree names live) (hnot : ∀ p, (h, p) ∉ live) :
    ∀ item ∈ names, item.1 ≠ h := by
  intro item hitem heq
  have hempty : kept (fun other => other == h) live = [] := by
    rw [kept, List.filter_eq_nil_iff]
    rintro ⟨other, q⟩ hmem hother
    have hother : other = h := by simpa using hother
    exact hnot q (hother ▸ hmem)
  have hnames := hagree fun other => other == h
  rw [hempty, last_profile_nil, last_profile_eq_none, kept, List.filter_eq_nil_iff] at hnames
  exact hnames item hitem (by simpa using heq)

end Lists

/-- An arbiter that follows its book. -/
structure Follows (b : Book) (a : Arbiter) : Prop where
  agree : ∀ o, Agree (a.holders o).items (b.live o)
  held : ∀ o, a.holds o = b.latest o
  aggregate : a.lastAggregate = b.lastAggregate

namespace Follows

variable {b : Book} {a a' : Arbiter} {o : Owner}

theorem absent_iff (h : Follows b a) : a.holds o = none ↔ b.live o = [] := by
  rw [h.held o]
  exact last_profile_eq_none

theorem newest_eq (h : Follows b a) : newest (a.holders o) = a.holds o := by
  have hall := h.agree o fun _ => true
  rw [kept_all, kept_all] at hall
  rw [h.held o]
  exact hall

/-- One owner gets new holders. -/
theorem update (h : Follows b a) {items : List (String × Profile)} {names : Dict String Profile}
    {held : Option Profile} (hagree : Agree names.items items)
    (hheld : held = lastProfile items) :
    Follows (b.put o items)
      { a with
        holds := Function.update a.holds o held
        holders := Function.update a.holders o names } := by
  refine ⟨?_, ?_, h.aggregate⟩
  · intro other
    by_cases ho : other = o
    · subst ho
      simpa [Book.put] using hagree
    · simpa [Book.put, ho] using h.agree other
  · intro other
    by_cases ho : other = o
    · subst ho
      simpa [Book.put, Book.latest, lastProfile] using hheld
    · simpa [Book.put, Book.latest, ho] using h.held other

theorem release_stranger (h : Follows b a) {owner holder : String}
    (howner : Owner.parse owner = some o) (hnot : ∀ p, (holder, p) ∉ b.live o) :
    a.release owner (some holder) = .ok a := by
  have hsame : (a.holders o).erase holder = a.holders o := by
    apply Dict.ext
    apply List.filter_eq_self.mpr
    intro item hitem
    simpa using (h.agree o).not_mem hnot item hitem
  simp only [Arbiter.release, howner, Arbiter.remaining, hsame, h.newest_eq,
    Function.update_eq_self]

theorem onAggregate (h : Follows b a) (aggregate : String) :
    Follows (b.onAggregate aggregate) (a.onAggregate aggregate) := by
  unfold Arbiter.onAggregate Book.onAggregate
  rw [h.aggregate]
  by_cases hchange : b.lastAggregate ≠ none ∧ some aggregate ≠ b.lastAggregate
  · by_cases hmanual : a.holds .manual = none
    · have hempty := h.absent_iff.mp hmanual
      have hput : b.put .manual [] = b := by
        simp [Book.put, ← hempty]
      have hkeep : ¬ (b.lastAggregate ≠ none ∧ some aggregate ≠ b.lastAggregate ∧
          a.holds .manual ≠ none) := fun hall => hall.2.2 hmanual
      rw [if_pos hchange, if_neg hkeep, hput]
      exact ⟨h.agree, h.held, rfl⟩
    · rw [if_pos hchange, if_pos ⟨hchange.1, hchange.2, hmanual⟩]
      have hnil : Agree (∅ : Dict String Profile).items [] := fun _ => rfl
      have hcleared := h.update (o := .manual) hnil rfl
      exact ⟨hcleared.agree, hcleared.held, rfl⟩
  · have hkeep : ¬ (b.lastAggregate ≠ none ∧ some aggregate ≠ b.lastAggregate ∧
        a.holds .manual ≠ none) := fun hall => hchange ⟨hall.1, hall.2.1⟩
    rw [if_neg hchange, if_neg hkeep]
    exact ⟨h.agree, h.held, rfl⟩

theorem of_same (h : Follows b a) (hholds : a'.holds = a.holds)
    (hholders : a'.holders = a.holders) (haggregate : a'.lastAggregate = a.lastAggregate) :
    Follows b a' :=
  ⟨hholders ▸ h.agree, hholds ▸ h.held, haggregate ▸ h.aggregate⟩

end Follows

/-- Every arbiter follows its book. -/
def AllFollow (books : ℕ → Book) (w : World) : Prop := ∀ n, Follows (books n) (w.arbiter n)

section Steps

variable {books : ℕ → Book} {w w' : World}

/-- One arbiter and its book change. -/
theorem AllFollow.put (h : AllFollow books w) {n : ℕ} {b : Book} {a : Arbiter}
    (hn : Follows b a) : AllFollow (Function.update books n b) (w.put n a) := by
  intro m
  by_cases hm : m = n
  · subst hm
    simpa [World.put] using hn
  · simpa [World.put, hm] using h m

theorem AllFollow.of_same (h : AllFollow books w) {n : ℕ} {a : Arbiter}
    (hw : w'.arbiter = Function.update w.arbiter n a) (hholds : a.holds = (w.arbiter n).holds)
    (hholders : a.holders = (w.arbiter n).holders)
    (haggregate : a.lastAggregate = (w.arbiter n).lastAggregate) : AllFollow books w' := by
  intro m
  rw [hw]
  by_cases hm : m = n
  · subst hm
    rw [Function.update_self]
    exact (h m).of_same hholds hholders haggregate
  · rw [Function.update_of_ne hm]
    exact h m

theorem AllFollow.of_arbiter (h : AllFollow books w) (hw : w'.arbiter = w.arbiter) :
    AllFollow books w' := by
  intro n
  rw [hw]
  exact h n

theorem AllFollow.converge (h : AllFollow books w) (n : ℕ) :
    AllFollow books (w.put n (w.arbiter n).converge) := by
  unfold Arbiter.converge
  split <;> exact h.of_same rfl rfl rfl rfl

theorem AllFollow.look (h : AllFollow books w) (n : ℕ) (now : ℚ) :
    AllFollow books (w.look n now) := by
  unfold World.look
  dsimp only
  split
  · exact h.of_arbiter rfl
  · split
    · exact h.converge n
    · split
      · exact h.converge n
      · split
        · exact h
        · split
          · split
            · exact h
            · exact h.of_same rfl rfl rfl rfl
          · exact h.of_same rfl rfl rfl rfl

/-- `_apply` leaves the holds alone. -/
theorem AllFollow.apply (h : AllFollow books w) (n : ℕ) (profile : Profile)
    (source : Option Source) (now : ℚ) : AllFollow books (w.apply n profile source now) := by
  unfold World.apply
  dsimp only
  split
  · split <;> exact h.of_same rfl rfl rfl rfl
  · exact h.of_same rfl rfl rfl rfl

/-- Every event keeps the arbiters on their books, provided that a repeated request keeps the
order. -/
theorem AllFollow.step (h : AllFollow books w) {e : Event} (hallow : KeepsOrder w e)
    (hstep : w.step e = some w') : AllFollow (Book.record books e) w' := by
  cases e with
  | request n profile owner holder =>
      simp only [World.step, Arbiter.request] at hstep
      simp only [KeepsOrder, keepsOrder] at hallow
      simp only [Book.record]
      cases hp : Profile.parse profile with
      | none =>
          simp only [hp] at hstep ⊢
          cases hstep
          exact h
      | some p =>
          cases ho : Owner.parse owner with
          | none =>
              simp only [hp, ho] at hstep ⊢
              cases hstep
              exact h
          | some o =>
              simp only [hp, ho, List.all_eq_true, decide_eq_true_eq] at hstep hallow ⊢
              cases hstep
              exact h.put ((h n).update ((h n).agree o |>.request hallow) (by simp))
  | release n owner holder =>
      simp only [World.step, Arbiter.release] at hstep
      simp only [Book.record]
      cases ho : Owner.parse owner with
      | none =>
          simp only [ho] at hstep ⊢
          cases hstep
          exact h
      | some o =>
          simp only [ho] at hstep ⊢
          cases hstep
          cases holder with
          | none => exact h.put ((h n).update (fun _ => rfl) rfl)
          | some holder =>
              have hagree := ((h n).agree o).release (h := holder)
              refine h.put ((h n).update hagree ?_)
              have hall := hagree fun _ => true
              rw [kept_all, kept_all] at hall
              exact hall
  | setPolicy n profile =>
      cases hstep
      cases profile with
      | none => exact h.of_same rfl rfl rfl rfl
      | some profile => exact h.of_same rfl rfl rfl rfl
  | onAggregate n aggregate =>
      cases hstep
      exact h.put ((h n).onAggregate aggregate)
  | adoptHolds n other =>
      cases hstep
      exact h.put ((h other).of_same rfl rfl rfl)
  | start n =>
      simp only [World.step] at hstep
      split at hstep
      · cases hstep
        exact h.of_same rfl rfl rfl rfl
      · cases hstep
        exact h
  | stop n =>
      cases hstep
      exact h.of_same rfl rfl rfl rfl
  | look n now =>
      simp only [World.step] at hstep
      split at hstep
      · cases hstep
        exact (h.look n now).of_arbiter rfl
      · cases hstep
  | apply n now =>
      simp only [World.step] at hstep
      split at hstep
      · split at hstep
        · cases hstep
          exact (h.apply n _ _ now).of_arbiter rfl
        · cases hstep
      · cases hstep
  | settle n verdict recorded later =>
      simp only [World.step] at hstep
      split at hstep
      · rename_i profile source hphase
        split at hstep
        · cases hstep
          unfold Arbiter.settle
          dsimp only
          split <;> exact h.of_same rfl rfl rfl rfl
        · cases hstep
      · cases hstep
  | finish n =>
      simp only [World.step] at hstep
      split at hstep
      · cases hstep
        exact h.of_same rfl rfl rfl rfl
      · cases hstep

theorem all_follow_of_runs {settings : ℕ → Settings} {clock : ℚ} {events : List Event}
    (h : Runs KeepsOrder (World.boot settings clock) events w) :
    AllFollow (Book.after events) w := by
  induction h with
  | nil => exact fun n => ⟨fun o keep => rfl, fun o => rfl, rfl⟩
  | snoc _ hallow hstep ih =>
      rw [Book.after_snoc]
      exact ih.step hallow hstep

end Steps

/-- In every run in which a holder that asks again finds only the profile it asks for behind its
entry, every owner holds the profile of the most recent request among its holders, and a release
by a holder that does not hold the owner changes nothing. -/
theorem holds_are_latest (settings : ℕ → Settings) (clock : ℚ) (events : List Event) (w : World)
    (h : Runs KeepsOrder (World.boot settings clock) events w) :
    HoldsLatest (Book.after events) w := by
  have hall := all_follow_of_runs h
  exact ⟨fun n o => (hall n).held o, fun n o => (hall n).absent_iff,
    fun n o owner holder howner hnot => (hall n).release_stranger howner hnot⟩

/-- Two holders of the job hold, the newer of which asks again. -/
def orderly : List Event :=
  [.request 0 "performance" "job" (some "autotune"), .request 0 "performance" "job" (some "bench"),
    .request 0 "powersave" "job" (some "bench"), .release 0 "job" (some "bench")]

/-- The hold falls back to the holder that is left. -/
theorem orderly_holds_are_latest :
    ∃ w, Runs KeepsOrder (World.boot (fun _ => {}) 0) orderly w ∧
      HoldsLatest (Book.after orderly) w ∧ (w.arbiter 0).holds .job = some .performance := by
  have hruns : Runs KeepsOrder (World.boot (fun _ => {}) 0) orderly _ :=
    .snoc (.snoc (.snoc (.snoc .nil rfl rfl) rfl rfl) rfl rfl) rfl rfl
  exact ⟨_, hruns, holds_are_latest _ _ _ _ hruns, rfl⟩

/-- The older of two holders of the job hold asks again; then a stranger lets go. -/
def overtaking : List Event :=
  [.request 0 "performance" "job" (some "a"), .request 0 "powersave" "job" (some "b"),
    .request 0 "performance" "job" (some "a"), .release 0 "job" (some "c")]

/-- The release of a holder that holds nothing takes the hold back to an older request. -/
theorem overtaken_hold :
    ∃ w, Runs (fun _ _ => True) (World.boot (fun _ => {}) 0) overtaking w ∧
      (w.arbiter 0).holds .job = some .powersave ∧
      (Book.after overtaking 0).latest .job = some .performance ∧
      ¬ HoldsLatest (Book.after overtaking) w := by
  have hruns : Runs (fun _ _ => True) (World.boot (fun _ => {}) 0) overtaking _ :=
    .snoc (.snoc (.snoc (.snoc .nil trivial rfl) trivial rfl) trivial rfl) trivial rfl
  refine ⟨_, hruns, rfl, rfl, ?_⟩
  intro h
  have hlatest := h.latest 0 .job
  cases hlatest

end SystemsManager.Power
