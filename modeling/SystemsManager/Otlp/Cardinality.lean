import Mathlib.Tactic.Linarith
import SystemsManager.Otlp.Receiver

/-!
# The cardinality of the tags

However many exports arrive, with whatever attributes: a tag key that no allow-listed attribute is
stored under carries few values, few such keys carry any value but the capped one and the booleans,
each record has few attribute tags, and no attribute replaces a tag that the receiver sets itself.
Read `tags_bounded`. What one attribute can do to a point is `Applied`.
-/

namespace SystemsManager.Otlp

open Python SeenValues

/-- The tags that the receiver sets itself. -/
def receiverTags : List String := ["source", "metric_name", "unit", "hostname", "scope"]

/-- The values that are not counted by the table. -/
def plainValues : List String := [CAPPED_VALUE, "true", "false"]

section Attributes

variable {F : Type} {rt : Runtime F} {cfg : Policy}

variable (rt cfg) in
/-- No attribute that is stored under the key is allow-listed. -/
def NotAllowed (key : String) : Prop :=
  ∀ spelling, safeTag spelling = key → classify rt cfg spelling ≠ .allow

variable (rt cfg) in
/-- The attributes that are allow-listed. -/
def allowedAttrs (attrs : List (KeyValue F)) : List (KeyValue F) :=
  attrs.filter fun attr => classify rt cfg attr.key = .allow

/-- The attribute tags of a record. -/
def attributeTags (record : Record F) : List String :=
  record.tags.keys.filter fun key => key ∉ receiverTags

theorem safe_tag_not_reserved {key : String} (h : classify rt cfg key ≠ .deny) :
    safeTag key ∉ RESERVED_TAGS := by
  intro hmem
  refine h ?_
  unfold classify
  exact if_pos (Or.inl hmem)

theorem receiver_tags_reserved {key : String} (h : key ∈ receiverTags) : key ∈ RESERVED_TAGS := by
  have hall : ∀ key ∈ receiverTags, key ∈ RESERVED_TAGS := by decide
  exact hall key h

/-- What an attribute can do to a point. -/
inductive Applied (rt : Runtime F) (cfg : Policy) (r : Receiver) (p : Routed F)
    (attr : KeyValue F) :
    Receiver → Routed F → Prop
  | dropped (r' : Receiver) (hseen : r'.seenValues = r.seenValues) : Applied rt cfg r p attr r' p
  | field (r' : Receiver) (num : F) (hseen : r'.seenValues = r.seenValues) :
      Applied rt cfg r p attr r'
        { tags := p.tags.erase (safeTag attr.key), fields := p.fields.set (safeTag attr.key) num
          allowed := p.allowed.erase (safeTag attr.key) }
  | allowed (value : String) (hclass : classify rt cfg attr.key = .allow) :
      Applied rt cfg r p attr r
        { p with
          fields := p.fields.erase (safeTag attr.key)
          allowed := p.allowed.set (safeTag attr.key) value }
  | plain (value : String) (hclass : classify rt cfg attr.key ≠ .deny)
      (hplain : value ∈ plainValues) :
      Applied rt cfg r p attr r
        { p with
          fields := p.fields.erase (safeTag attr.key)
          tags := p.tags.set (safeTag attr.key) value }
  | capped (value : String) (hclass : classify rt cfg attr.key ≠ .deny) :
      Applied rt cfg r p attr (capValue cfg r (safeTag attr.key) value).1
        { p with
          fields := p.fields.erase (safeTag attr.key)
          tags := p.tags.set (safeTag attr.key) (capValue cfg r (safeTag attr.key) value).2 }

theorem applied (r : Receiver) (p : Routed F) (attr : KeyValue F) :
    Applied rt cfg r p attr (applyAttr rt cfg (r, p) attr).1 (applyAttr rt cfg (r, p) attr).2 := by
  unfold applyAttr
  dsimp only
  split
  · exact .dropped _ rfl
  · rename_i hdeny
    split
    · split
      · exact .dropped _ rfl
      · exact .field _ _ rfl
    · split
      · rename_i hallow
        exact .allowed _ hallow
      · split
        · rename_i value hvalue
          refine .plain _ hdeny ?_
          rw [hvalue]
          cases value with
          | true => exact List.mem_cons_of_mem _ (List.mem_cons_self ..)
          | false => exact List.mem_cons_of_mem _ (List.mem_cons_of_mem _ (List.mem_cons_self ..))
        · exact .capped _ hdeny

/-- The bounds of the table. -/
def Bounded (cfg : Policy) (r : Receiver) : Prop :=
  Within MAX_TRACKED_KEYS cfg.tagValueCap r.seenValues

/-- Nothing is forgotten. -/
def Remembers (r r' : Receiver) : Prop := Grows r.seenValues r'.seenValues

theorem cap_value_spec {r : Receiver} (h : Bounded cfg r) (key value : String) :
    Bounded cfg (capValue cfg r key value).1 ∧ Remembers r (capValue cfg r key value).1 ∧
      ((capValue cfg r key value).2 ∈ plainValues ∨
        (capValue cfg r key value).1.seenValues.Known key (capValue cfg r key value).2) := by
  have hwithin := let_in_within key value h
  have hgrows := let_in_grows MAX_TRACKED_KEYS cfg.tagValueCap r.seenValues key value
  have hknown := let_in_known MAX_TRACKED_KEYS cfg.tagValueCap r.seenValues key value
  unfold capValue
  generalize r.seenValues.letIn MAX_TRACKED_KEYS cfg.tagValueCap key value = admitted at *
  obtain ⟨seen, ok⟩ := admitted
  cases ok with
  | true => exact ⟨hwithin, hgrows, Or.inr (hknown rfl)⟩
  | false => exact ⟨hwithin, hgrows, Or.inl (List.mem_cons_self ..)⟩

/-- What holds of a point while its attributes are routed. -/
structure RoutedWell (rt : Runtime F) (cfg : Policy) (r : Receiver) (p : Routed F) : Prop where
  known : ∀ key value, p.tags.get? key = some value →
    value ∈ plainValues ∨ r.seenValues.Known key value
  allowed : ∀ key value, p.allowed.get? key = some value → ¬NotAllowed rt cfg key
  tagsFree : ∀ key value, p.tags.get? key = some value → key ∉ RESERVED_TAGS
  allowedFree : ∀ key value, p.allowed.get? key = some value → key ∉ RESERVED_TAGS

/-- Nothing is routed yet. -/
theorem routed_well_empty (r : Receiver) : RoutedWell rt cfg r Routed.empty where
  known key value h := by cases h
  allowed key value h := by cases h
  tagsFree key value h := by cases h
  allowedFree key value h := by cases h

/-- Routing one attribute. -/
theorem routed_well_step {r r' : Receiver} {p p' : Routed F} {attr : KeyValue F}
    (h : Applied rt cfg r p attr r' p') (hbounded : Bounded cfg r) (hwell : RoutedWell rt cfg r p) :
    Bounded cfg r' ∧ Remembers r r' ∧ RoutedWell rt cfg r' p' ∧
      p'.allowed.items.length ≤ p.allowed.items.length + (allowedAttrs rt cfg [attr]).length := by
  cases h with
  | dropped _ hseen =>
      refine ⟨?_, ?_, ⟨?_, hwell.allowed, hwell.tagsFree, hwell.allowedFree⟩, Nat.le_add_right ..⟩
      · rw [Bounded, hseen]
        exact hbounded
      · rw [Remembers, hseen]
        exact Grows.refl _
      · rw [hseen]
        exact hwell.known
  | field _ num hseen =>
      have hold : ∀ {d : Dict String String} {key value},
          (d.erase (safeTag attr.key)).get? key = some value → d.get? key = some value := by
        intro d key value hget
        rw [Dict.get?_erase] at hget
        split at hget
        · cases hget
        · exact hget
      refine ⟨?_, ?_, ⟨?_, ?_, ?_, ?_⟩, ?_⟩
      · rw [Bounded, hseen]
        exact hbounded
      · rw [Remembers, hseen]
        exact Grows.refl _
      · rw [hseen]
        exact fun key value hget => hwell.known key value (hold hget)
      · exact fun key value hget => hwell.allowed key value (hold hget)
      · exact fun key value hget => hwell.tagsFree key value (hold hget)
      · exact fun key value hget => hwell.allowedFree key value (hold hget)
      · exact (Dict.length_erase_le _ _).trans (Nat.le_add_right ..)
  | allowed value hclass =>
      have hdeny : classify rt cfg attr.key ≠ .deny := by
        rw [hclass]
        decide
      have hfree := safe_tag_not_reserved hdeny
      refine ⟨hbounded, Grows.refl _, ⟨hwell.known, ?_, hwell.tagsFree, ?_⟩, ?_⟩
      · intro key other hget
        rw [Dict.get?_set] at hget
        split at hget
        · rename_i hkey
          exact fun hnot => hnot attr.key hkey.symm hclass
        · exact hwell.allowed key other hget
      · intro key other hget
        rw [Dict.get?_set] at hget
        split at hget
        · rename_i hkey
          exact hkey ▸ hfree
        · exact hwell.allowedFree key other hget
      · have hone : (allowedAttrs rt cfg [attr]).length = 1 := by
          simp [allowedAttrs, hclass]
        rw [hone]
        rw [Dict.length_set]
        split
        · exact Nat.le_succ _
        · exact le_rfl
  | plain value hclass hplain =>
      refine ⟨hbounded, Grows.refl _, ⟨?_, hwell.allowed, ?_, hwell.allowedFree⟩,
        Nat.le_add_right ..⟩
      · intro key other hget
        rw [Dict.get?_set] at hget
        split at hget
        · cases hget
          exact Or.inl hplain
        · exact hwell.known key other hget
      · intro key other hget
        rw [Dict.get?_set] at hget
        split at hget
        · rename_i hkey
          exact hkey ▸ safe_tag_not_reserved hclass
        · exact hwell.tagsFree key other hget
  | capped value hclass =>
      obtain ⟨hbounded', hgrows, hvalue⟩ := cap_value_spec hbounded (safeTag attr.key) value
      refine ⟨hbounded', hgrows, ⟨?_, hwell.allowed, ?_, hwell.allowedFree⟩, Nat.le_add_right ..⟩
      · intro key other hget
        rw [Dict.get?_set] at hget
        split at hget
        · rename_i hkey
          cases hget
          exact hkey ▸ hvalue
        · exact (hwell.known key other hget).imp_right (hgrows key other)
      · intro key other hget
        rw [Dict.get?_set] at hget
        split at hget
        · rename_i hkey
          exact hkey ▸ safe_tag_not_reserved hclass
        · exact hwell.tagsFree key other hget

theorem routed_well (attrs : List (KeyValue F)) {s : Receiver × Routed F}
    (hbounded : Bounded cfg s.1) (hwell : RoutedWell rt cfg s.1 s.2) :
    Bounded cfg (attrs.foldl (applyAttr rt cfg) s).1 ∧
      Remembers s.1 (attrs.foldl (applyAttr rt cfg) s).1 ∧
      RoutedWell rt cfg (attrs.foldl (applyAttr rt cfg) s).1
        (attrs.foldl (applyAttr rt cfg) s).2 ∧
      (attrs.foldl (applyAttr rt cfg) s).2.allowed.items.length ≤
        s.2.allowed.items.length + (allowedAttrs rt cfg attrs).length := by
  induction attrs generalizing s with
  | nil => exact ⟨hbounded, Grows.refl _, hwell, Nat.le_add_right ..⟩
  | cons attr rest ih =>
      obtain ⟨hbounded', hgrows, hwell', hlength⟩ :=
        routed_well_step (applied s.1 s.2 attr) hbounded hwell
      rw [List.foldl_cons]
      generalize applyAttr rt cfg s attr = s' at *
      obtain ⟨hbounded'', hgrows', hwell'', hlength'⟩ := ih hbounded' hwell'
      refine ⟨hbounded'', hgrows.trans hgrows', hwell'', hlength'.trans ?_⟩
      have hsplit : allowedAttrs rt cfg (attr :: rest) =
          allowedAttrs rt cfg [attr] ++ allowedAttrs rt cfg rest :=
        List.filter_append [attr] rest
      rw [hsplit, List.length_append]
      omega

/-- The tags that the receiver sets itself, in a point of this kind. -/
structure OwnTags (c : Context F) (record : Record F) : Prop where
  source : record.tags.get? "source" = some c.source
  metricName : ∃ suffix ∈ ["", ".sum", ".count"],
    record.tags.get? "metric_name" = some (c.name ++ suffix)
  unit : record.tags.get? "unit" = some c.unit
  hostname : record.tags.get? "hostname" = c.hostname.filter (· ≠ "")
  scope : record.tags.get? "scope" = if c.scopeName = "" then none else some c.scopeName

/-- The tags of a data point with these attributes, before the name of the metric is set. -/
structure TaggedWell (rt : Runtime F) (cfg : Policy) (r : Receiver) (attrs : List (KeyValue F))
    (own tags : Dict String String) : Prop where
  own : ∀ key ∈ receiverTags, tags.get? key = own.get? key
  known : ∀ key value, tags.get? key = some value → key ∉ receiverTags → NotAllowed rt cfg key →
    value ∈ plainValues ∨ r.seenValues.Known key value
  count : ((tags.keys.filter fun key => key ∉ receiverTags).length : ℤ) ≤
    max cfg.maxTags (allowedAttrs rt cfg attrs).length

theorem own_tags_get (source metricName unit : String) (hostname : Option String)
    (scopeName : String) :
    (ownTags source metricName unit hostname scopeName).get? "source" = some source ∧
      (ownTags source metricName unit hostname scopeName).get? "metric_name" = some metricName ∧
      (ownTags source metricName unit hostname scopeName).get? "unit" = some unit ∧
      (ownTags source metricName unit hostname scopeName).get? "hostname" =
        hostname.filter (· ≠ "") ∧
      (ownTags source metricName unit hostname scopeName).get? "scope" =
        if scopeName = "" then none else some scopeName := by
  have hbase : ∀ key, (Dict.empty : Dict String String).get? key = none := fun key => rfl
  unfold ownTags
  cases hostname with
  | none => by_cases hscope : scopeName = "" <;> simp [hscope, hbase]
  | some host =>
      by_cases hhost : host = "" <;> by_cases hscope : scopeName = "" <;>
        simp [hhost, hscope, hbase, Option.filter]

theorem own_tags_outside (source metricName unit : String) (hostname : Option String)
    (scopeName : String) {key : String} (h : key ∉ receiverTags) :
    (ownTags source metricName unit hostname scopeName).get? key = none := by
  have hbase : (Dict.empty : Dict String String).get? key = none := rfl
  simp only [receiverTags, List.mem_cons, List.not_mem_nil, or_false, not_or] at h
  obtain ⟨hsource, hname, hunit, hhostname, hscope⟩ := h
  unfold ownTags
  cases hostname with
  | none =>
      by_cases hempty : scopeName = "" <;> simp [hempty, hsource, hname, hunit, hscope, hbase]
  | some host =>
      by_cases hhost : host = "" <;> by_cases hempty : scopeName = "" <;>
        simp [hhost, hempty, hsource, hname, hunit, hhostname, hscope, hbase]

theorem tagged_well {r r' : Receiver} (hbounded : Bounded cfg r) {source metricName unit : String}
    {hostname : Option String} {resourceAttrs dpAttrs : List (KeyValue F)} {scopeName : String}
    {tags : Dict String String} {fields : Dict String F}
    (h : buildTags rt cfg r source metricName unit hostname resourceAttrs dpAttrs scopeName =
      (r', tags, fields)) :
    Bounded cfg r' ∧ Remembers r r' ∧ TaggedWell rt cfg r' (resourceAttrs ++ dpAttrs)
      (ownTags source metricName unit hostname scopeName) tags := by
  obtain ⟨hbounded', hgrows, hwell, hlength⟩ :=
    routed_well (resourceAttrs ++ dpAttrs) (s := (r, Routed.empty)) hbounded
      (show RoutedWell rt cfg r Routed.empty from routed_well_empty r)
  unfold buildTags at h
  generalize (resourceAttrs ++ dpAttrs).foldl (applyAttr rt cfg) (r, Routed.empty) = routed at *
  obtain ⟨routedBy, p⟩ := routed
  dsimp only at hbounded' hgrows hwell hlength h
  have hlength : p.allowed.items.length ≤ (allowedAttrs rt cfg (resourceAttrs ++ dpAttrs)).length :=
    hlength.trans (le_of_eq (Nat.zero_add _))
  generalize hroom : (cfg.maxTags - p.allowed.items.length).toNat = room at h
  cases h
  have hget : ∀ key, (((ownTags source metricName unit hostname scopeName).update p.allowed).update
      (p.tags.take room)).get? key = ((p.tags.take room).get? key).or
      ((p.allowed.get? key).or ((ownTags source metricName unit hostname scopeName).get? key)) := by
    intro key
    rw [Dict.get?_update, Dict.get?_update]
  generalize ((ownTags source metricName unit hostname scopeName).update p.allowed).update
    (p.tags.take room) = tags at hget
  refine ⟨hbounded', hgrows, ⟨?_, ?_, ?_⟩⟩
  · intro key hkey
    have hreserved := receiver_tags_reserved hkey
    have htags : (p.tags.take room).get? key = none := by
      by_contra hne
      obtain ⟨value, hvalue⟩ := Option.ne_none_iff_exists'.mp hne
      exact hwell.tagsFree key value (Dict.get?_of_take hvalue) hreserved
    have hallowed : p.allowed.get? key = none := by
      by_contra hne
      obtain ⟨value, hvalue⟩ := Option.ne_none_iff_exists'.mp hne
      exact hwell.allowedFree key value hvalue hreserved
    rw [hget, htags, hallowed]
    rfl
  · intro key value hvalue hkey hnot
    rw [hget] at hvalue
    cases htag : (p.tags.take room).get? key with
    | some other =>
        rw [htag] at hvalue
        cases hvalue
        exact hwell.known key value (Dict.get?_of_take htag)
    | none =>
        cases hallowed : p.allowed.get? key with
        | some other => exact absurd hnot (hwell.allowed key other hallowed)
        | none =>
            rw [htag, hallowed, own_tags_outside _ _ _ _ _ hkey] at hvalue
            cases hvalue
  · -- The attribute tags are among the allowed ones and those that found room.
    have hsub : (tags.keys.filter fun key => decide (key ∉ receiverTags)) ⊆
        p.allowed.keys ++ (p.tags.take room).keys := by
      intro key hmem
      obtain ⟨hmem, hkey⟩ := List.mem_filter.mp hmem
      obtain ⟨value, hvalue⟩ := Dict.exists_get_of_mem_keys hmem
      rw [hget, own_tags_outside _ _ _ _ _ (of_decide_eq_true hkey), Option.or_none] at hvalue
      rw [List.mem_append]
      rcases Option.or_eq_some_iff.mp hvalue with htag | ⟨-, hallowed⟩
      · exact Or.inr (Dict.mem_keys_of_get htag)
      · exact Or.inl (Dict.mem_keys_of_get hallowed)
    have hnodup : (tags.keys.filter fun key => decide (key ∉ receiverTags)).Nodup :=
      tags.keys_nodup.filter _
    have hle := (List.subperm_of_subset hnodup hsub).length_le
    have htaken : (p.tags.take room).keys.length ≤ room := by
      show ((p.tags.items.take room).map Prod.fst).length ≤ room
      rw [List.length_map]
      exact List.length_take_le ..
    have hkeys : p.allowed.keys.length = p.allowed.items.length := List.length_map _
    rw [List.length_append, hkeys] at hle
    omega

/-- A record of a data point. -/
structure Fits (rt : Runtime F) (cfg : Policy) (c : Context F)
    (attrs : List (KeyValue F)) (r : Receiver)
    (record : Record F) : Prop where
  known : ∀ key value, record.tags.get? key = some value → key ∉ receiverTags →
    NotAllowed rt cfg key → value ∈ plainValues ∨ r.seenValues.Known key value
  own : OwnTags c record
  count : ((attributeTags record).length : ℤ) ≤
    max cfg.maxTags (allowedAttrs rt cfg (c.resourceAttrs ++ attrs)).length

theorem Fits.mono {c : Context F} {attrs : List (KeyValue F)} {r r' : Receiver} {record : Record F}
    (h : Fits rt cfg c attrs r record) (hgrows : Remembers r r') : Fits rt cfg c attrs r' record :=
  { h with
    known := fun key value hvalue hkey hnot =>
      (h.known key value hvalue hkey hnot).imp_right (hgrows key value) }

theorem fits_build {c : Context F} {attrs : List (KeyValue F)} {r : Receiver}
    {tags : Dict String String}
    (h : TaggedWell rt cfg r (c.resourceAttrs ++ attrs)
      (ownTags c.source c.name c.unit c.hostname c.scopeName) tags)
    {suffix : String} (hsuffix : suffix ∈ ["", ".sum", ".count"]) (value : F) (time : ℤ)
    (fields : Dict String F) :
    Fits rt cfg c attrs r (buildRecord (c.name ++ suffix) value tags time fields) := by
  obtain ⟨hsource, hname, hunit, hhostname, hscope⟩ :=
    own_tags_get c.source c.name c.unit c.hostname c.scopeName
  have hget : ∀ key, (buildRecord (c.name ++ suffix) value tags time fields).tags.get? key =
      if key = "metric_name" then some (c.name ++ suffix) else tags.get? key :=
    fun key => Dict.get?_set tags "metric_name" key _
  have hown : ∀ key ∈ receiverTags, key ≠ "metric_name" →
      (buildRecord (c.name ++ suffix) value tags time fields).tags.get? key =
        (ownTags c.source c.name c.unit c.hostname c.scopeName).get? key := by
    intro key hkey hne
    rw [hget, if_neg hne]
    exact h.own key hkey
  refine ⟨?_, ⟨?_, ⟨suffix, hsuffix, ?_⟩, ?_, ?_, ?_⟩, ?_⟩
  · intro key other hother hkey hnot
    rw [hget, if_neg] at hother
    · exact h.known key other hother hkey hnot
    · rintro rfl
      exact hkey (by decide)
  · rw [hown _ (by decide) (by decide), hsource]
  · rw [hget, if_pos rfl]
  · rw [hown _ (by decide) (by decide), hunit]
  · rw [hown _ (by decide) (by decide), hhostname]
  · rw [hown _ (by decide) (by decide), hscope]
  · -- The name of the metric is there already, so the keys are the same.
    have hkeys : (buildRecord (c.name ++ suffix) value tags time fields).tags.keys = tags.keys := by
      refine (keys_set_items "metric_name" (c.name ++ suffix) tags.items).trans (if_pos ?_)
      have hthere : tags.get? "metric_name" = some c.name := by
        rw [h.own _ (by decide), hname]
      exact Dict.mem_keys_of_get hthere
    unfold attributeTags
    rw [hkeys]
    exact h.count

end Attributes

section Loops

variable {F : Type} {rt : Runtime F} {cfg : Policy} {α : Type}

variable (cfg) in
/-- What a part of an export does: the table keeps its bounds, nothing is forgotten, and each record
is of this kind. -/
structure Emits (Q : Receiver → Record F → Prop) (r : Receiver) (out : Receiver × List (Record F)) :
    Prop where
  bounded : Bounded cfg out.1
  grows : Remembers r out.1
  each : ∀ record ∈ out.2, Q out.1 record

theorem emits_collect {f : Receiver → α → Receiver × List (Record F)}
    {Q : α → Receiver → Record F → Prop}
    (hmono : ∀ a r r' record, Remembers r r' → Q a r record → Q a r' record) {values : List α}
    (hf : ∀ a ∈ values, ∀ r, Bounded cfg r → Emits cfg (Q a) r (f r a)) {r : Receiver}
    (hr : Bounded cfg r) :
    Emits cfg (fun r' record => ∃ a ∈ values, Q a r' record) r (collect f r values) := by
  induction values generalizing r with
  | nil => exact ⟨hr, Grows.refl _, fun record hrecord => by cases hrecord⟩
  | cons a rest ih =>
      have hfirst := hf a (List.mem_cons_self ..) r hr
      have hrest := ih (fun b hb => hf b (List.mem_cons_of_mem _ hb)) hfirst.bounded
      refine ⟨hrest.bounded, hfirst.grows.trans hrest.grows, fun record hrecord => ?_⟩
      rcases List.mem_append.mp hrecord with hrecord | hrecord
      · exact ⟨a, List.mem_cons_self ..,
          hmono a _ _ record hrest.grows (hfirst.each record hrecord)⟩
      · obtain ⟨b, hb, hq⟩ := hrest.each record hrecord
        exact ⟨b, List.mem_cons_of_mem _ hb, hq⟩

/-- The attributes of the data points of a metric. -/
def MetricData.attributes : MetricData F → List (List (KeyValue F))
  | .sum points => points.map (·.attributes)
  | .gauge points => points.map (·.attributes)
  | .histogram points => points.map (·.attributes)
  | .other => []

theorem emits_number_point (c : Context F) (dp : NumberPoint F) {r : Receiver}
    (hr : Bounded cfg r) :
    Emits cfg (Fits rt cfg c dp.attributes) r (emitNumberPoint rt cfg c r dp) := by
  unfold emitNumberPoint
  generalize hbuilt : buildTags rt cfg r c.source c.name c.unit c.hostname c.resourceAttrs
    dp.attributes c.scopeName = built
  obtain ⟨r', tags, fields⟩ := built
  obtain ⟨hbounded, hgrows, hwell⟩ := tagged_well hr hbuilt
  refine ⟨hbounded, hgrows, fun record hrecord => ?_⟩
  rw [List.mem_singleton] at hrecord
  rw [hrecord]
  have hempty : "" ∈ ["", ".sum", ".count"] := by decide
  have hfits := fits_build hwell hempty
  rw [String.append_empty] at hfits
  exact hfits _ _ _

/-- A data point of a histogram. -/
theorem emits_histogram_point (c : Context F) (dp : HistogramPoint F) {r : Receiver}
    (hr : Bounded cfg r) :
    Emits cfg (Fits rt cfg c dp.attributes) r (emitHistogramPoint rt cfg c r dp) := by
  unfold emitHistogramPoint
  generalize hbuilt : buildTags rt cfg r c.source c.name c.unit c.hostname c.resourceAttrs
    dp.attributes c.scopeName = built
  obtain ⟨r', tags, fields⟩ := built
  obtain ⟨hbounded, hgrows, hwell⟩ := tagged_well hr hbuilt
  refine ⟨hbounded, hgrows, fun record hrecord => ?_⟩
  rcases List.mem_append.mp hrecord with hrecord | hrecord
  · obtain ⟨sum, -, rfl⟩ := Option.map_eq_some_iff.mp (Option.mem_toList.mp hrecord)
    exact fits_build hwell (by decide) _ _ _
  · rw [List.mem_singleton] at hrecord
    rw [hrecord]
    exact fits_build hwell (by decide) _ _ _

theorem emits_metric (c : Context F) (data : MetricData F) {r : Receiver} (hr : Bounded cfg r) :
    Emits cfg (fun r' record => ∃ attrs ∈ data.attributes, Fits rt cfg c attrs r' record) r
      (flattenMetric rt cfg c r data) := by
  have hlift : ∀ {β : Type} (points : List β) (attributes : β → List (KeyValue F))
      {out : Receiver × List (Record F)},
      Emits cfg (fun r' record => ∃ dp ∈ points, Fits rt cfg c (attributes dp) r' record) r out →
      Emits cfg (fun r' record => ∃ attrs ∈ points.map attributes, Fits rt cfg c attrs r' record) r
        out := by
    intro β points attributes out h
    refine ⟨h.bounded, h.grows, fun record hrecord => ?_⟩
    obtain ⟨dp, hdp, hfits⟩ := h.each record hrecord
    exact ⟨attributes dp, List.mem_map_of_mem hdp, hfits⟩
  have hmono : ∀ attrs r r' record, Remembers r r' → Fits rt cfg c attrs r record →
      Fits rt cfg c attrs r' record := fun _ _ _ _ hgrows h => h.mono hgrows
  cases data with
  | sum points =>
      exact hlift points _ (emits_collect (fun dp => hmono _) (fun dp _ r hr =>
        emits_number_point c dp hr) hr)
  | gauge points =>
      exact hlift points _ (emits_collect (fun dp => hmono _) (fun dp _ r hr =>
        emits_number_point c dp hr) hr)
  | histogram points =>
      exact hlift points _ (emits_collect (fun dp => hmono _) (fun dp _ r hr =>
        emits_histogram_point c dp hr) hr)
  | other => exact ⟨hr, Grows.refl _, fun record hrecord => by cases hrecord⟩

variable (rt cfg) in
/-- The record is one of a data point of this export. -/
def FromPoint (req : List (ResourceMetrics F)) (r : Receiver) (record : Record F) : Prop :=
  ∃ rm ∈ req, ∃ sm ∈ rm.scopeMetrics, ∃ metric ∈ sm.metrics, ∃ attrs ∈ metric.data.attributes,
    Fits rt cfg (contextOf rt rm sm metric) attrs r record

theorem emits_flatten (req : List (ResourceMetrics F)) {r : Receiver} (hr : Bounded cfg r) :
    Emits cfg (FromPoint rt cfg req) r (flattenMetrics rt cfg r req) := by
  refine emits_collect ?_ (fun rm _ r hr => ?_) hr
  · rintro rm r r' record hgrows ⟨sm, hsm, metric, hmetric, attrs, hattrs, hfits⟩
    exact ⟨sm, hsm, metric, hmetric, attrs, hattrs, hfits.mono hgrows⟩
  · refine emits_collect ?_ (fun sm _ r hr => ?_) hr
    · rintro sm r r' record hgrows ⟨metric, hmetric, attrs, hattrs, hfits⟩
      exact ⟨metric, hmetric, attrs, hattrs, hfits.mono hgrows⟩
    · refine emits_collect ?_ (fun metric _ r hr => emits_metric _ _ hr) hr
      rintro metric r r' record hgrows ⟨attrs, hattrs, hfits⟩
      exact ⟨attrs, hattrs, hfits.mono hgrows⟩

variable (rt cfg) in
theorem emits_all (requests : List (List (ResourceMetrics F))) :
    Emits cfg (fun r record => ∃ req ∈ requests, FromPoint rt cfg req r record) Receiver.start
      (exportAll rt cfg requests) := by
  refine emits_collect ?_ (fun req _ r hr => emits_flatten req hr) within_empty
  rintro req r r' record hgrows ⟨rm, hrm, sm, hsm, metric, hmetric, attrs, hattrs, hfits⟩
  exact ⟨rm, hrm, sm, hsm, metric, hmetric, attrs, hattrs, hfits.mono hgrows⟩

end Loops

section Bounds

variable {F : Type}

/-- The distinct values of a tag in these records. -/
def valuesOf (records : List (Record F)) (key : String) : Finset String :=
  (records.filterMap fun record => record.tags.get? key).toFinset

theorem mem_values_of {records : List (Record F)} {key value : String} :
    value ∈ valuesOf records key ↔ ∃ record ∈ records, record.tags.get? key = some value := by
  rw [valuesOf, List.mem_toFinset, List.mem_filterMap]

/-- For every tag policy and every sequence of metric exports: a tag key that is no tag of the
receiver and that no allow-listed attribute is stored under carries at most `tag_value_cap` values
and three more; no more than `_MAX_TRACKED_KEYS` such keys carry any other value than the capped one
and the two booleans; and each record is that of a data point, with the receiver's own tags as they
were set, and with no more attribute tags than `max_tags` or the number of allow-listed attributes.
-/
theorem tags_bounded (rt : Runtime F) (cfg : Policy) (requests : List (List (ResourceMetrics F))) :
    (∀ key, key ∉ receiverTags → NotAllowed rt cfg key →
      ((valuesOf (exportAll rt cfg requests).2 key).card : ℤ) ≤ max cfg.tagValueCap 0 + 3) ∧
    (∀ keys : Finset String, (∀ key ∈ keys, key ∉ receiverTags ∧ NotAllowed rt cfg key ∧
        ∃ value ∈ valuesOf (exportAll rt cfg requests).2 key, value ∉ plainValues) →
      keys.card ≤ MAX_TRACKED_KEYS) ∧
    ∀ record ∈ (exportAll rt cfg requests).2, ∃ req ∈ requests, ∃ rm ∈ req,
      ∃ sm ∈ rm.scopeMetrics, ∃ metric ∈ sm.metrics, ∃ attrs ∈ metric.data.attributes,
        OwnTags (contextOf rt rm sm metric) record ∧
          ((attributeTags record).length : ℤ) ≤ max cfg.maxTags
            (allowedAttrs rt cfg ((contextOf rt rm sm metric).resourceAttrs ++ attrs)).length := by
  have hemits := emits_all rt cfg requests
  have hknown : ∀ key, key ∉ receiverTags → NotAllowed rt cfg key →
      ∀ value ∈ valuesOf (exportAll rt cfg requests).2 key, value ∈ plainValues ∨
        (exportAll rt cfg requests).1.seenValues.Known key value := by
    intro key hkey hnot value hvalue
    obtain ⟨record, hrecord, hget⟩ := mem_values_of.mp hvalue
    obtain ⟨req, -, rm, -, sm, -, metric, -, attrs, -, hfits⟩ := hemits.each record hrecord
    exact hfits.known key value hget hkey hnot
  refine ⟨fun key hkey hnot => ?_, fun keys hkeys => ?_, fun record hrecord => ?_⟩
  · -- The values outside the table are three at most.
    have hsplit := Finset.card_le_card_sdiff_add_card
      (s := valuesOf (exportAll rt cfg requests).2 key) (t := plainValues.toFinset)
    have hplain : plainValues.toFinset.card = 3 := by decide
    have hrest : ∀ value ∈ valuesOf (exportAll rt cfg requests).2 key \ plainValues.toFinset,
        (exportAll rt cfg requests).1.seenValues.Known key value := by
      intro value hvalue
      obtain ⟨hvalue, hout⟩ := Finset.mem_sdiff.mp hvalue
      exact (hknown key hkey hnot value hvalue).resolve_left fun hin =>
        hout (List.mem_toFinset.mpr hin)
    have hcounted := card_known_le hemits.bounded hrest
    omega
  · refine card_known_keys_le hemits.bounded fun key hkey => ?_
    obtain ⟨hfree, hnot, value, hvalue, hout⟩ := hkeys key hkey
    exact ⟨value, (hknown key hfree hnot value hvalue).resolve_left hout⟩
  · obtain ⟨req, hreq, rm, hrm, sm, hsm, metric, hmetric, attrs, hattrs, hfits⟩ :=
      hemits.each record hrecord
    exact ⟨req, hreq, rm, hrm, sm, hsm, metric, hmetric, attrs, hattrs, hfits.own, hfits.count⟩

theorem safe_tag_eq_self {key : String} (h : '_' ∉ (safeTag key).toList) : safeTag key = key := by
  unfold safeTag at h ⊢
  rw [String.toList_ofList] at h
  refine (congrArg String.ofList (List.map_congr_left (g := id) fun c hc => ?_)).trans ?_
  · split
    · rename_i hsep
      refine absurd (List.mem_map.mpr ⟨c, hc, ?_⟩) h
      exact if_pos hsep
    · rfl
  · rw [List.map_id, String.ofList_toList]

/-- Python on ASCII text and whole numbers. -/
def asciiRuntime : Runtime ℚ where
  lower text := String.ofList (text.toList.map Char.toLower)
  parseFloat _ := none
  isFinite _ := true
  floatText value := toString value.num
  ofInt value := value
  decode _ := ""
  recordTime nanos := nanos

/-- One data point with one text attribute. -/
def paintExport : List (ResourceMetrics ℚ) :=
  [{ attributes := []
     scopeMetrics :=
      [{ scope := none
         metrics :=
          [{ name := "drops", unit := "1"
             data := .gauge
              [{ attributes := [⟨"color", .string "red"⟩], timeUnixNano := 1, value := .inr 1 }] }]
                }] }]

/-- With a cap of -3 the attribute still carries the capped value, which is more than none. -/
theorem negative_cap_exceeded :
    ∃ (rt : Runtime ℚ) (cfg : Policy) (requests : List (List (ResourceMetrics ℚ))) (key : String),
      key ∉ receiverTags ∧ NotAllowed rt cfg key ∧
        cfg.tagValueCap + 3 < ((valuesOf (exportAll rt cfg requests).2 key).card : ℤ) := by
  refine ⟨asciiRuntime, ⟨-3, 32, [], []⟩, [paintExport], "color", by decide, ?_, by decide +kernel⟩
  intro spelling hspelling
  have hself : spelling = "color" := by
    rw [← hspelling]
    exact (safe_tag_eq_self (by rw [hspelling]; decide)).symm
  rw [hself]
  decide +kernel

end Bounds

end SystemsManager.Otlp
