import SystemsManager.Otlp.Receiver

/-!
# Denied attributes

The tag policy denies an attribute whose key names an identity, a secret or free text. Read
`denied_leave_no_trace`: the records of any exports are those of the same exports without their
denied attributes, and so is the table of seen values that later exports are judged by.
-/

namespace SystemsManager.Otlp

open Python

section Redaction

variable {F : Type} (rt : Runtime F) (cfg : Policy)

/-- The attributes that the policy does not deny. -/
def permitted (attrs : List (KeyValue F)) : List (KeyValue F) :=
  attrs.filter fun attr => classify rt cfg attr.key ≠ .deny

/-- The data points without their denied attributes. -/
def MetricData.redact : MetricData F → MetricData F
  | .sum points =>
      .sum (points.map fun dp => { dp with attributes := permitted rt cfg dp.attributes })
  | .gauge points =>
      .gauge (points.map fun dp => { dp with attributes := permitted rt cfg dp.attributes })
  | .histogram points =>
      .histogram (points.map fun dp => { dp with attributes := permitted rt cfg dp.attributes })
  | .other => .other

/-- The metrics of a resource without their denied attributes. The keys that name the service and
the host are not for the policy. -/
def ResourceMetrics.redact (rm : ResourceMetrics F) : ResourceMetrics F where
  attributes := rm.attributes.filter fun attr =>
    attr.key ∈ RESOURCE_KEYS ∨ classify rt cfg attr.key ≠ .deny
  scopeMetrics := rm.scopeMetrics.map fun sm =>
    { sm with metrics := sm.metrics.map fun metric =>
        { metric with data := metric.data.redact rt cfg } }

end Redaction

section Loops

variable {F : Type} {rt : Runtime F} {cfg : Policy}

/-- Two receivers that differ in the count of dropped tags at most. -/
def SameSeen (r r' : Receiver) : Prop := ∃ dropped, r' = { r with tagsDropped := dropped }

/-- The receivers stay the same and the rest is equal. -/
def Agree {β : Type} (out out' : Receiver × β) : Prop := SameSeen out.1 out'.1 ∧ out.2 = out'.2

variable {r r' : Receiver}

variable (rt cfg)

theorem apply_attr_agree (hr : SameSeen r r') (p : Routed F) (attr : KeyValue F) :
    Agree (applyAttr rt cfg (r, p) attr) (applyAttr rt cfg (r', p) attr) := by
  obtain ⟨dropped, rfl⟩ := hr
  unfold applyAttr
  dsimp only
  split
  · exact ⟨⟨_, rfl⟩, rfl⟩
  · split
    · split
      · exact ⟨⟨_, rfl⟩, rfl⟩
      · exact ⟨⟨_, rfl⟩, rfl⟩
    · split
      · exact ⟨⟨_, rfl⟩, rfl⟩
      · split
        · exact ⟨⟨_, rfl⟩, rfl⟩
        · unfold capValue
          dsimp only
          split
          · exact ⟨⟨_, rfl⟩, rfl⟩
          · exact ⟨⟨_, rfl⟩, rfl⟩

theorem routed_agree (attrs : List (KeyValue F)) (hr : SameSeen r r') (p : Routed F) :
    Agree (attrs.foldl (applyAttr rt cfg) (r, p))
      ((permitted rt cfg attrs).foldl (applyAttr rt cfg) (r', p)) := by
  induction attrs generalizing r r' p with
  | nil => exact ⟨hr, rfl⟩
  | cons attr rest ih =>
      by_cases hdeny : classify rt cfg attr.key = .deny
      · have hskip : permitted rt cfg (attr :: rest) = permitted rt cfg rest :=
          List.filter_cons_of_neg (by simp [hdeny])
        have hdropped : applyAttr rt cfg (r, p) attr =
            ({ r with tagsDropped := r.tagsDropped + 1 }, p) := by
          simp [applyAttr, hdeny]
        rw [hskip, List.foldl_cons, hdropped]
        obtain ⟨dropped, rfl⟩ := hr
        exact ih ⟨dropped, rfl⟩ p
      · have hkeep : permitted rt cfg (attr :: rest) = attr :: permitted rt cfg rest :=
          List.filter_cons_of_pos (by simp [hdeny])
        obtain ⟨hsame, hrouted⟩ := apply_attr_agree rt cfg hr p attr
        rw [hkeep, List.foldl_cons, List.foldl_cons]
        generalize applyAttr rt cfg (r, p) attr = s at *
        generalize applyAttr rt cfg (r', p) attr = s' at *
        obtain ⟨r₁, p₁⟩ := s
        obtain ⟨r₂, p₂⟩ := s'
        cases hrouted
        exact ih hsame p₁

theorem build_tags_agree (hr : SameSeen r r') (source metricName unit : String)
    (hostname : Option String) (resourceAttrs dpAttrs : List (KeyValue F)) (scopeName : String) :
    Agree (buildTags rt cfg r source metricName unit hostname resourceAttrs dpAttrs scopeName)
      (buildTags rt cfg r' source metricName unit hostname (permitted rt cfg resourceAttrs)
        (permitted rt cfg dpAttrs) scopeName) := by
  have hrouted := routed_agree rt cfg (resourceAttrs ++ dpAttrs) hr Routed.empty
  have hsplit : permitted rt cfg (resourceAttrs ++ dpAttrs) =
      permitted rt cfg resourceAttrs ++ permitted rt cfg dpAttrs := List.filter_append ..
  rw [hsplit] at hrouted
  unfold buildTags
  generalize (resourceAttrs ++ dpAttrs).foldl (applyAttr rt cfg) (r, Routed.empty) = s at *
  generalize (permitted rt cfg resourceAttrs ++ permitted rt cfg dpAttrs).foldl (applyAttr rt cfg)
    (r', Routed.empty) = s' at *
  obtain ⟨r₁, p⟩ := s
  obtain ⟨r₂, p'⟩ := s'
  obtain ⟨⟨dropped, hsame⟩, hrouted⟩ := hrouted
  cases hsame
  cases hrouted
  exact ⟨⟨_, rfl⟩, rfl⟩

/-- A loop over redacted elements, each round of which agrees. -/
theorem collect_agree {α α' β : Type} {f : Receiver → α → Receiver × List β}
    {g : Receiver → α' → Receiver × List β} {redact : α → α'}
    (hfg : ∀ a r r', SameSeen r r' → Agree (f r a) (g r' (redact a))) (values : List α)
    (hr : SameSeen r r') : Agree (collect f r values) (collect g r' (values.map redact)) := by
  induction values generalizing r r' with
  | nil => exact ⟨hr, rfl⟩
  | cons a rest ih =>
      obtain ⟨hsame, hfirst⟩ := hfg a r r' hr
      obtain ⟨hlast, hrest⟩ := ih hsame
      refine ⟨hlast, ?_⟩
      rw [List.map_cons, collect, collect, hfirst, hrest]

theorem flatten_metric_agree (c : Context F) (data : MetricData F) (hr : SameSeen r r') :
    Agree (flattenMetric rt cfg c r data)
      (flattenMetric rt cfg { c with resourceAttrs := permitted rt cfg c.resourceAttrs } r'
        (data.redact rt cfg)) := by
  have hnumber : ∀ (dp : NumberPoint F) r r', SameSeen r r' →
      Agree (emitNumberPoint rt cfg c r dp)
        (emitNumberPoint rt cfg { c with resourceAttrs := permitted rt cfg c.resourceAttrs } r'
          { dp with attributes := permitted rt cfg dp.attributes }) := by
    intro dp r r' hr
    obtain ⟨hsame, hbuilt⟩ := build_tags_agree rt cfg hr c.source c.name c.unit
      c.hostname c.resourceAttrs dp.attributes c.scopeName
    exact ⟨hsame, by simp only [emitNumberPoint, hbuilt]⟩
  cases data with
  | sum points => exact collect_agree hnumber points hr
  | gauge points => exact collect_agree hnumber points hr
  | histogram points =>
      refine collect_agree (fun dp r r' hr => ?_) points hr
      obtain ⟨hsame, hbuilt⟩ := build_tags_agree rt cfg hr c.source c.name c.unit
        c.hostname c.resourceAttrs dp.attributes c.scopeName
      exact ⟨hsame, by simp only [emitHistogramPoint, hbuilt]⟩
  | other => exact ⟨hr, rfl⟩

theorem context_redact (rm : ResourceMetrics F) (sm : ScopeMetrics F) (metric : Metric F)
    (metrics : List (Metric F)) (data : MetricData F) :
    contextOf rt (rm.redact rt cfg) { sm with metrics := metrics } { metric with data := data } =
      { contextOf rt rm sm metric with
        resourceAttrs := permitted rt cfg (contextOf rt rm sm metric).resourceAttrs } := by
  have hkeys : (rm.redact rt cfg).attributes.filter (fun kv => kv.key ∈ RESOURCE_KEYS) =
      rm.attributes.filter fun kv => kv.key ∈ RESOURCE_KEYS := by
    rw [ResourceMetrics.redact, List.filter_filter]
    refine List.filter_congr fun kv _ => ?_
    by_cases hkey : kv.key ∈ RESOURCE_KEYS <;> simp [hkey]
  have hrest : (rm.redact rt cfg).attributes.filter (fun kv => kv.key ∉ RESOURCE_KEYS) =
      permitted rt cfg (rm.attributes.filter fun kv => kv.key ∉ RESOURCE_KEYS) := by
    rw [ResourceMetrics.redact, permitted, List.filter_filter, List.filter_filter]
    refine List.filter_congr fun kv _ => ?_
    by_cases hkey : kv.key ∈ RESOURCE_KEYS <;> simp [hkey]
  simp only [contextOf, splitResource, hkeys, hrest]

/-- Denied attributes leave no trace: neither in the records of any sequence of exports nor in the
table of seen values. -/
theorem denied_leave_no_trace (requests : List (List (ResourceMetrics F))) :
    (exportAll rt cfg requests).2 =
        (exportAll rt cfg (requests.map (·.map (ResourceMetrics.redact rt cfg)))).2 ∧
      (exportAll rt cfg requests).1.seenValues =
        (exportAll rt cfg (requests.map (·.map (ResourceMetrics.redact rt cfg)))).1.seenValues := by
  have hagree : Agree (exportAll rt cfg requests)
      (exportAll rt cfg (requests.map (·.map (ResourceMetrics.redact rt cfg)))) := by
    refine collect_agree (fun req r r' hr => ?_) requests ⟨_, rfl⟩
    refine collect_agree (fun rm r r' hr => ?_) req hr
    refine collect_agree (fun sm r r' hr => ?_) rm.scopeMetrics hr
    refine collect_agree (fun metric r r' hr => ?_) sm.metrics hr
    rw [context_redact rt cfg]
    exact flatten_metric_agree rt cfg _ metric.data hr
  obtain ⟨⟨dropped, hsame⟩, hrecords⟩ := hagree
  exact ⟨hrecords, by rw [hsame]⟩

end Loops

end SystemsManager.Otlp
