import SystemsManager.Otlp.Cardinality

/-!
# Attributes under one tag key

`_safe_tag` gives one key to spellings that differ in dots and spaces, and `_classify` looks at the
spelling, so that one key may hold text in `allowed` and in `attr_tags`. `data_point_wins` is the
theorem to read: the last attribute of a data point that is kept under a key is what the record
carries there, unless an earlier attribute left text in the map that is merged after its own, or
its own entry is cut and text is left before it. `resource_wins` is a point where the first happens.
-/

namespace SystemsManager.Otlp

open Python

section Collision

variable {F : Type} (rt : Runtime F) (cfg : Policy)

/-- What the policy keeps of an attribute. -/
inductive Kept (F : Type) where
  | field (num : F)
  | allowed (text : String)
  | tag (text : String)
  deriving DecidableEq

/-- What is kept of an attribute, by the receiver before it. -/
def kept (r : Receiver) (attr : KeyValue F) : Option (Kept F) :=
  let cls := classify rt cfg attr.key
  if cls = .deny then none
  else if cls = .measure ∨ (attr.value.numeric = true ∧ cls ≠ .allow) then
    (attrNumber rt attr.value).map .field
  else if cls = .allow then some (.allowed (attrValue rt attr.value))
  else
    match attr.value with
    | .bool _ => some (.tag (attrValue rt attr.value))
    | _ => some (.tag (capValue cfg r (safeTag attr.key) (attrValue rt attr.value)).2)

/-- What an attribute does to the maps. -/
def put (p : Routed F) (key : String) : Option (Kept F) → Routed F
  | none => p
  | some (.field num) => ⟨p.tags.erase key, p.fields.set key num, p.allowed.erase key⟩
  | some (.allowed text) =>
    { p with fields := p.fields.erase key, allowed := p.allowed.set key text }
  | some (.tag text) => { p with fields := p.fields.erase key, tags := p.tags.set key text }

/-- The attribute is not denied, and not dropped as it is not a number. -/
def IsKept (attr : KeyValue F) : Prop :=
  classify rt cfg attr.key ≠ .deny ∧
    (classify rt cfg attr.key = .measure ∨
        (attr.value.numeric = true ∧ classify rt cfg attr.key ≠ .allow) →
      attrNumber rt attr.value ≠ none)

/-- The attributes of a point, routed by a receiver. -/
def routedOf (r : Receiver) (attrs : List (KeyValue F)) : Receiver × Routed F :=
  attrs.foldl (applyAttr rt cfg) (r, Routed.empty)

/-- The cap of tags for a point cuts the tag of a key. -/
def CapRemoves (p : Routed F) (key : String) : Prop :=
  p.tags.get? key ≠ none ∧
    (p.tags.take (cfg.maxTags - p.allowed.items.length).toNat).get? key = none

/-- A record carries under a key what was kept, and nothing else. -/
def Carries (tags : Dict String String) (fields : Dict String F) (key : String) : Kept F → Prop
  | .field num => tags.get? key = none ∧ fields.get? key = some num
  | .allowed text => tags.get? key = some text ∧ fields.get? key = none
  | .tag text => tags.get? key = some text ∧ fields.get? key = none

/-- What the maps hold under the key of an attribute does not come before it in the record. -/
def Yields (p : Routed F) (key : String) (removed : Prop) : Kept F → Prop
  | .field _ => True
  | .allowed text => removed ∨ ∀ left, p.tags.get? key = some left → left = text
  | .tag text => removed → ∀ left, p.allowed.get? key = some left → left = text

variable {rt cfg}

theorem apply_attr_eq (r : Receiver) (p : Routed F) (attr : KeyValue F) :
    (applyAttr rt cfg (r, p) attr).2 = put p (safeTag attr.key) (kept rt cfg r attr) := by
  unfold applyAttr kept
  dsimp only
  split
  · rfl
  · split
    · cases attrNumber rt attr.value <;> rfl
    · split
      · rfl
      · cases attr.value <;> rfl

theorem is_kept_iff (r : Receiver) (attr : KeyValue F) :
    IsKept rt cfg attr ↔ (kept rt cfg r attr).isSome := by
  unfold IsKept kept
  dsimp only
  split
  · rename_i hdeny
    simp [hdeny]
  · rename_i hdeny
    split
    · rename_i hnum
      cases hnumber : attrNumber rt attr.value with
      | none => simp [hnum]
      | some num => simp [hdeny]
    · rename_i hnum
      have htext : (if classify rt cfg attr.key = .allow then
          some (Kept.allowed (F := F) (attrValue rt attr.value)) else
          match attr.value with
          | .bool _ => some (.tag (attrValue rt attr.value))
          | _ => some (.tag (capValue cfg r (safeTag attr.key)
              (attrValue rt attr.value)).2)).isSome = true := by
        split
        · rfl
        · cases attr.value <;> rfl
      rw [htext]
      simp [hdeny, hnum]

/-- What the maps hold under a key. -/
def heldAt (p : Routed F) (key : String) : Option String × Option F × Option String :=
  (p.tags.get? key, p.fields.get? key, p.allowed.get? key)

theorem apply_attr_outside {r : Receiver} {p : Routed F} {attr : KeyValue F} {key : String}
    (h : safeTag attr.key = key → ¬ IsKept rt cfg attr) :
    heldAt (applyAttr rt cfg (r, p) attr).2 key = heldAt p key := by
  rw [apply_attr_eq]
  cases hkept : kept rt cfg r attr with
  | none => rfl
  | some k =>
      have hne : key ≠ safeTag attr.key := by
        intro heq
        exact h heq.symm ((is_kept_iff r attr).mpr (by rw [hkept]; rfl))
      cases k <;> simp [put, heldAt, hne]

theorem foldl_apply_outside {attrs : List (KeyValue F)} {key : String}
    (h : ∀ attr ∈ attrs, safeTag attr.key = key → ¬ IsKept rt cfg attr) (s : Receiver × Routed F) :
    heldAt (attrs.foldl (applyAttr rt cfg) s).2 key = heldAt s.2 key := by
  induction attrs generalizing s with
  | nil => rfl
  | cons attr attrs ih =>
      rw [List.foldl_cons, ih fun a ha => h a (List.mem_cons_of_mem attr ha)]
      exact apply_attr_outside (h attr List.mem_cons_self)

/-- The last attribute of a data point that is kept under a key is what the record carries there,
or its entry is cut and the key is gone, exactly where the text that earlier attributes left under
the key does not come before it. -/
theorem data_point_wins (r : Receiver) (source metricName unit : String) (hostname : Option String)
    (resourceAttrs before after : List (KeyValue F)) (attr : KeyValue F) (scopeName : String)
    (hkept : IsKept rt cfg attr)
    (hlast : ∀ a ∈ after, safeTag a.key = safeTag attr.key → ¬ IsKept rt cfg a) :
    let dpAttrs := before ++ attr :: after
    let built := buildTags rt cfg r source metricName unit hostname resourceAttrs dpAttrs scopeName
    let earlier := routedOf rt cfg r (resourceAttrs ++ before)
    let removed := CapRemoves cfg (routedOf rt cfg r (resourceAttrs ++ dpAttrs)).2
      (safeTag attr.key)
    ∃ k, kept rt cfg earlier.1 attr = some k ∧
      (Carries built.2.1 built.2.2 (safeTag attr.key) k ∨
          (removed ∧ built.2.1.get? (safeTag attr.key) = none) ↔
        Yields earlier.2 (safeTag attr.key) removed k) := by
  intro dpAttrs built earlier removed
  obtain ⟨k, hk⟩ := Option.isSome_iff_exists.mp ((is_kept_iff earlier.1 attr).mp hkept)
  refine ⟨k, hk, ?_⟩
  have hdeny : classify rt cfg attr.key ≠ .deny := hkept.1
  have hall : routedOf rt cfg r (resourceAttrs ++ dpAttrs) =
      after.foldl (applyAttr rt cfg) (applyAttr rt cfg earlier attr) := by
    simp only [routedOf, dpAttrs, earlier, List.foldl_append, List.foldl_cons]
  have hheld : heldAt (routedOf rt cfg r (resourceAttrs ++ dpAttrs)).2 (safeTag attr.key) =
      heldAt (put earlier.2 (safeTag attr.key) (some k)) (safeTag attr.key) := by
    rw [hall, foldl_apply_outside hlast, apply_attr_eq, hk]
  have hown : (ownTags source metricName unit hostname scopeName).get? (safeTag attr.key) = none :=
    own_tags_outside _ _ _ _ _ fun hin =>
      safe_tag_not_reserved hdeny (receiver_tags_reserved hin)
  set p := (routedOf rt cfg r (resourceAttrs ++ dpAttrs)).2 with hp
  have hfields : built.2.2 = p.fields := rfl
  have htags : built.2.1.get? (safeTag attr.key) =
      ((p.tags.take (cfg.maxTags - p.allowed.items.length).toNat).get? (safeTag attr.key)).or
        (p.allowed.get? (safeTag attr.key)) := by
    show (((ownTags source metricName unit hostname scopeName).update p.allowed).update
      (p.tags.take (cfg.maxTags - p.allowed.items.length).toNat)).get? (safeTag attr.key) = _
    rw [Dict.get?_update, Dict.get?_update, hown, Option.or_none]
  have hremoved : removed ↔ p.tags.get? (safeTag attr.key) ≠ none ∧
      (p.tags.take (cfg.maxTags - p.allowed.items.length).toNat).get? (safeTag attr.key) = none :=
    Iff.rfl
  have htake : ∀ text, (p.tags.take (cfg.maxTags - p.allowed.items.length).toNat).get?
      (safeTag attr.key) = some text → p.tags.get? (safeTag attr.key) = some text :=
    fun text => Dict.get?_of_take
  generalize (p.tags.take (cfg.maxTags - p.allowed.items.length).toNat).get? (safeTag attr.key) =
    taken at htags hremoved htake
  simp only [heldAt, Prod.mk.injEq] at hheld
  obtain ⟨htag, hfield, hallowed⟩ := hheld
  cases k with
  | field num =>
      have hnone : taken = none := by
        cases taken with
        | none => rfl
        | some text => simpa [htag, put] using htake text rfl
      simp [Carries, Yields, htags, hfields, hnone, hfield, hallowed, put]
  | allowed text =>
      have hin : p.allowed.get? (safeTag attr.key) = some text := by simpa [put] using hallowed
      have hout : p.fields.get? (safeTag attr.key) = none := by simpa [put] using hfield
      have htag : p.tags.get? (safeTag attr.key) = earlier.2.tags.get? (safeTag attr.key) := htag
      rw [htag] at hremoved htake
      simp only [Carries, Yields, htags, hfields, hin, hout, hremoved]
      cases taken with
      | none => cases earlier.2.tags.get? (safeTag attr.key) <;> simp
      | some left =>
          rw [htake left rfl]
          simp
  | tag text =>
      have hin : p.allowed.get? (safeTag attr.key) = earlier.2.allowed.get? (safeTag attr.key) :=
        hallowed
      have hout : p.fields.get? (safeTag attr.key) = none := by simpa [put] using hfield
      have htag : p.tags.get? (safeTag attr.key) = some text := by simpa [put] using htag
      rw [htag] at hremoved htake
      simp only [Carries, Yields, htags, hfields, hin, hout, hremoved]
      cases taken with
      | none => cases earlier.2.allowed.get? (safeTag attr.key) <;> simp
      | some left =>
          obtain rfl : text = left := by simpa using htake left rfl
          simp

/-- A policy that lists one spelling of a key. -/
def spelledPolicy : Policy := ⟨50, 32, ["tool name"], []⟩

theorem data_point_wins_spelled :
    (buildTags asciiRuntime spelledPolicy Receiver.start "agent" "calls" "1" none
      [⟨"tool.name", .string "shell"⟩] [⟨"tool.name", .string "editor"⟩] "").2.1.get? "tool_name" =
        some "editor" := by
  have hkept : IsKept asciiRuntime spelledPolicy ⟨"tool.name", .string "editor"⟩ := by
    unfold IsKept
    decide +kernel
  obtain ⟨k, hk, hiff⟩ := data_point_wins Receiver.start "agent" "calls" "1" none
    [⟨"tool.name", .string "shell"⟩] [] [] ⟨"tool.name", .string "editor"⟩ "" hkept (by simp)
  simp only [List.append_nil, List.nil_append] at hk hiff
  have hk' : kept asciiRuntime spelledPolicy (routedOf asciiRuntime spelledPolicy Receiver.start
      [⟨"tool.name", .string "shell"⟩]).1 ⟨"tool.name", .string "editor"⟩ =
        some (.tag "editor") := by
    decide +kernel
  obtain rfl : Kept.tag "editor" = k := Option.some.inj (hk'.symm.trans hk)
  have hkey : safeTag "tool.name" = "tool_name" := by decide +kernel
  rw [hkey] at hiff
  have hnone : (routedOf asciiRuntime spelledPolicy Receiver.start
      [⟨"tool.name", .string "shell"⟩]).2.allowed.get? "tool_name" = none := by
    decide +kernel
  have hyields : ∀ left, (routedOf asciiRuntime spelledPolicy Receiver.start
      [⟨"tool.name", .string "shell"⟩]).2.allowed.get? "tool_name" = some left →
        left = "editor" := by
    intro left hleft
    rw [hnone] at hleft
    cases hleft
  rcases hiff.mpr fun _ => hyields with h | h
  · exact h.1
  · exact absurd h.1.2 (by decide +kernel)

/-- A resource attribute under another spelling is written over the data point's value, with one
tag of the 32 that fit. -/
theorem resource_wins :
    IsKept asciiRuntime spelledPolicy ⟨"tool name", .string "editor"⟩ ∧
    kept asciiRuntime spelledPolicy (routedOf asciiRuntime spelledPolicy Receiver.start
      [⟨"tool.name", .string "shell"⟩]).1 ⟨"tool name", .string "editor"⟩ =
        some (.allowed "editor") ∧
    ¬ CapRemoves spelledPolicy (routedOf asciiRuntime spelledPolicy Receiver.start
      [⟨"tool.name", .string "shell"⟩, ⟨"tool name", .string "editor"⟩]).2 "tool_name" ∧
    (buildTags asciiRuntime spelledPolicy Receiver.start "agent" "calls" "1" none
      [⟨"tool.name", .string "shell"⟩] [⟨"tool name", .string "editor"⟩] "").2.1.get? "tool_name" =
        some "shell" := by
  refine ⟨by unfold IsKept; decide +kernel, by decide +kernel, ?_, by decide +kernel⟩
  unfold CapRemoves
  decide +kernel

end Collision

end SystemsManager.Otlp
