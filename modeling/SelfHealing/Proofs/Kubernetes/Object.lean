import SelfHealing.Kubernetes.Request
import SelfHealing.Proofs.Lookup

/-!
Pods that are read and sent back. Main statements: but for its annotations, whatever the server has told of a pod is told
to it again when the pod is replaced, also what nothing here asks for; and the annotations are told as they are.
-/

namespace SelfHealing.Kubernetes

open Data Labels

section Members

variable {fields : List (Key × Value)} {own : List (String × Option Value)} {name : String}

theorem value_get?_append (front back : List (Key × Value)) (name : String) :
    (Value.object (front ++ back)).get? name =
      ((Value.object back).get? name).or ((Value.object front).get? name) := by
  simp only [Value.get?, List.reverse_append, List.find?_append, Option.map_or]

theorem value_get?_but (fields : List (Key × Value)) (names : List String) (name : String) :
    (Value.object (fields.filter fun entry ↦ entry.1 ∉ names.map Key.name)).get? name =
      if name ∈ names then none else (Value.object fields).get? name := by
  simp only [Value.get?, ← List.filter_reverse, List.find?_filter]
  by_cases h : name ∈ names
  · rw [if_pos h, Option.map_eq_none_iff, List.find?_eq_none]
    intro entry _
    simp only [decide_eq_true_eq, not_and]
    intro hother hname
    exact hother (hname ▸ List.mem_map_of_mem h)
  · rw [if_neg h]
    congr 2
    funext entry
    by_cases hentry : entry.1 = .name name <;> simp [hentry, h]

theorem members_cons (field : String × Option Value) (rest : List (String × Option Value)) :
    members (field :: rest) = members [field] ++ members rest := by
  obtain ⟨name, _ | v⟩ := field <;> rfl

theorem value_get?_single (field : String × Option Value) (name : String) :
    (Value.object (members [field])).get? name = if field.1 = name then field.2 else none := by
  obtain ⟨key, _ | v⟩ := field
  · simp [members, Value.get?]
  · by_cases h : key = name <;> simp [members, Value.get?, h]

theorem value_get?_members_none (h : name ∉ own.map Prod.fst) : (Value.object (members own)).get? name = none := by
  induction own with
  | nil => rfl
  | cons field rest ih =>
    obtain ⟨hne, hrest⟩ := not_or.mp (mt List.mem_cons.mpr h)
    rw [members_cons, value_get?_append, ih hrest, value_get?_single, if_neg (Ne.symm hne)]
    rfl

theorem value_get?_members {v : Option Value} (hnodup : (own.map Prod.fst).Nodup) (h : (name, v) ∈ own) :
    (Value.object (members own)).get? name = v := by
  induction own with
  | nil => cases h
  | cons field rest ih =>
    obtain ⟨hfirst, hrest⟩ := List.nodup_cons.mp hnodup
    rw [members_cons, value_get?_append, value_get?_single]
    rcases List.mem_cons.mp h with rfl | hmem
    · rw [value_get?_members_none hfirst, if_pos rfl]
      rfl
    · have hne : field.1 ≠ name := fun heq ↦ hfirst (heq ▸ List.mem_map_of_mem hmem)
      rw [ih hrest hmem, if_neg hne, Option.or_none]

/-- A part that is put together of the rest and of fields of its own tells what it told, in every field that still has
its value. -/
theorem get?_rejoined (own : List (String × Option Value)) (hnodup : (own.map Prod.fst).Nodup)
    (hkept : ∀ v, (name, v) ∈ own → v = get? (.object fields) name) :
    get? (.object (fields.filter (fun entry ↦ entry.1 ∉ (own.map Prod.fst).map Key.name) ++ members own)) name =
      get? (.object fields) name := by
  rw [get?, value_get?_append, value_get?_but]
  by_cases hname : name ∈ own.map Prod.fst
  · obtain ⟨⟨_, v⟩, hmem, rfl⟩ := List.mem_map.mp hname
    rw [if_pos hname, Option.or_none, value_get?_members hnodup hmem, hkept v hmem, get?, Option.filter_filter]
    simp only [Bool.and_self]
  · rw [if_neg hname, value_get?_members_none hname, Option.none_or, get?]

end Members

section Schema

variable {known : List (String × Schema)} {fields : List (Key × Value)} {name : String} {v w : Value} {s : Schema}

theorem get?_eq_some : get? (.object fields) name = some w → w ∈ Schema.keyed name fields ∧ Schema.isNull w = false := by
  intro h
  obtain ⟨hvalue, hnull⟩ := Option.filter_eq_some_iff.mp h
  obtain ⟨⟨key, _⟩, hfound, rfl⟩ := Option.map_eq_some_iff.mp hvalue
  have hkey : key = .name name := by simpa using List.find?_some hfound
  have hmem := List.mem_reverse.mp (List.mem_of_find?_eq_some hfound)
  exact ⟨List.mem_filterMap.mpr ⟨_, hmem, if_pos hkey⟩, by simpa using hnull⟩

theorem accepts_of_known (h : Schema.acceptsFields known fields = true) (hknown : (name, s) ∈ known)
    (hw : get? (.object fields) name = some w) : s.accepts w = true := by
  induction known with
  | nil => cases hknown
  | cons field rest ih =>
    obtain ⟨first, shape⟩ := field
    rw [Schema.acceptsFields, Bool.and_eq_true] at h
    rcases List.mem_cons.mp hknown with heq | hrest
    · obtain ⟨rfl, rfl⟩ := Prod.mk.inj heq
      obtain ⟨hmem, hnull⟩ := get?_eq_some hw
      simpa [hnull] using List.all_eq_true.mp h.1 w hmem
    · exact ih h.2 hrest

theorem string_of_text (h : Schema.text.accepts v = true) : (v.asString?).map .string = some v := by
  cases v <;> simp_all [Schema.accepts, Value.asString?]

theorem object_of_accepts (h : (Schema.object known).accepts v = true) :
    ∃ fields, v = .object fields ∧ Schema.acceptsFields known fields = true := by
  cases v <;> simp_all [Schema.accepts]

theorem text_of_known (h : Schema.acceptsFields known fields = true) (hknown : (name, .text) ∈ known) :
    ((get? (.object fields) name).bind Value.asString?).map .string = get? (.object fields) name := by
  rcases hw : get? (.object fields) name with _ | w
  · rfl
  · exact string_of_text (accepts_of_known h hknown hw)

end Schema

section Pods

variable {v : Value} {p : Pod} {part name : String} {known : List (String × Schema)}

theorem part_cases (h : Schema.pod.accepts v = true)
    (hpart : (part, .object known) ∈ [("metadata", Schema.metadata), ("spec", Schema.spec), ("status", Schema.status)])
    (names : List String) :
    (get? v part = none ∧ restAt? v part names = none) ∨
      ∃ fields, get? v part = some (.object fields) ∧ Schema.acceptsFields known fields = true ∧
        restAt? v part names = some (fields.filter fun entry ↦ entry.1 ∉ names.map Key.name) := by
  obtain ⟨parts, rfl, hparts⟩ := object_of_accepts h
  rcases hw : get? (.object parts) part with _ | w
  · exact .inl ⟨rfl, by rw [restAt?, hw]⟩
  · obtain ⟨fields, rfl, hfields⟩ := object_of_accepts (accepts_of_known hparts hpart hw)
    exact .inr ⟨fields, rfl, hfields, by rw [restAt?, hw]⟩

theorem encodePart_some (rest : List (Key × Value)) (own : List (String × Option Value)) :
    encodePart (some rest) own = some (.object (rest ++ members own)) := rfl

theorem encodePart_none (h : members own = []) : encodePart none own = none := by
  unfold encodePart
  rw [h]

theorem encodePart_told (rest : Option (List (Key × Value))) (own : List (String × Option Value)) :
    (encodePart rest own).filter (!Schema.isNull ·) = encodePart rest own := by
  unfold encodePart
  split <;> rfl

theorem get?_encodePod (p : Pod) :
    get? (encodePod p) "metadata" = some (.object (p.rest.metadata ++ members (ownMetadata p))) ∧
      get? (encodePod p) "spec" = encodePart p.rest.spec (ownSpec p) ∧
      get? (encodePod p) "status" = encodePart p.rest.status (ownStatus p) := by
  unfold get? encodePod
  refine ⟨?_, ?_, ?_⟩
  · rw [value_get?_members (by simp) (.tail _ (.tail _ (.head _)))]
    rfl
  · rw [value_get?_members (by simp) (.tail _ (.tail _ (.tail _ (.head _)))), encodePart_told]
  · rw [value_get?_members (by simp) (.tail _ (.tail _ (.tail _ (.tail _ (.head _))))), encodePart_told]

theorem textAt?_of_known (h : Schema.pod.accepts v = true)
    (hpart : (part, .object known) ∈ [("metadata", Schema.metadata), ("spec", Schema.spec), ("status", Schema.status)])
    (hknown : (name, .text) ∈ known) : (textAt? v part name).map .string = memberAt? v part name := by
  unfold textAt? memberAt?
  rcases part_cases h hpart [] with ⟨hnone, -⟩ | ⟨fields, hfound, hfields, -⟩
  · rw [hnone]
    rfl
  · rw [hfound]
    exact text_of_known hfields hknown

theorem get?_restAt?_rejoined (own : List (String × Option Value)) (h : Schema.pod.accepts v = true)
    (hpart : (part, .object known) ∈ [("metadata", Schema.metadata), ("spec", Schema.spec), ("status", Schema.status)])
    (hnodup : (own.map Prod.fst).Nodup) (hkept : ∀ w, (name, w) ∈ own → w = memberAt? v part name) :
    get? (.object ((restAt? v part (own.map Prod.fst)).getD [] ++ members own)) name = memberAt? v part name := by
  -- A part that is missing is as good as one without fields.
  obtain ⟨fields, hrest, hmember⟩ : ∃ fields : List (Key × Value),
      (restAt? v part (own.map Prod.fst)).getD [] =
        fields.filter (fun entry ↦ entry.1 ∉ (own.map Prod.fst).map Key.name) ∧
      memberAt? v part name = get? (.object fields) name := by
    rcases part_cases h hpart (own.map Prod.fst) with ⟨hnone, hrest⟩ | ⟨fields, hfound, -, hrest⟩
    · exact ⟨[], by rw [hrest]; rfl, by rw [memberAt?, hnone]; rfl⟩
    · exact ⟨fields, by rw [hrest]; rfl, by rw [memberAt?, hfound]; rfl⟩
  rw [hmember, hrest]
  exact get?_rejoined own hnodup fun w hw ↦ (hkept w hw).trans hmember

/-- A part that may be missing is told as it was, if its own fields have the values that were read. -/
theorem encodePart_kept (own : List (String × Option Value)) (h : Schema.pod.accepts v = true)
    (hpart : (part, .object known) ∈ [("metadata", Schema.metadata), ("spec", Schema.spec), ("status", Schema.status)])
    (hnodup : (own.map Prod.fst).Nodup) (hown : ∀ field ∈ own, field.2 = memberAt? v part field.1) (name : String) :
    (encodePart (restAt? v part (own.map Prod.fst)) own).bind (get? · name) = memberAt? v part name := by
  rcases part_cases h hpart (own.map Prod.fst) with ⟨hnone, hrest⟩ | ⟨fields, hfound, -, hrest⟩
  · have hmissing : members own = [] := by
      refine List.filterMap_eq_nil_iff.mpr fun field hfield ↦ ?_
      simp [hown field hfield, memberAt?, hnone]
    rw [hrest, memberAt?, hnone, encodePart_none hmissing]
  · have hrejoined := get?_restAt?_rejoined own h hpart hnodup fun w hw ↦ hown (name, w) hw
    rw [hrest] at hrejoined ⊢
    rw [encodePart_some]
    exact hrejoined

theorem decodePod?_eq_some (h : decodePod? v = some p) :
    Schema.pod.accepts v = true ∧ p.name = textAt? v "metadata" "name" ∧ p.space = textAt? v "metadata" "namespace" ∧
      p.version = textAt? v "metadata" "resourceVersion" ∧ p.node = textAt? v "spec" "nodeName" ∧
      p.hostText = textAt? v "status" "hostIP" ∧ p.annotations = annotationsOf? v ∧
      p.rest.metadata =
        (restAt? v "metadata" ["name", "namespace", "annotations", "resourceVersion"]).getD [] ∧
      p.rest.spec = restAt? v "spec" ["nodeName"] ∧ p.rest.status = restAt? v "status" ["hostIP"] := by
  unfold decodePod? at h
  split at h
  · rename_i hread
    cases h
    simp only [Bool.and_eq_true] at hread
    exact ⟨hread.1.1.2, rfl, rfl, rfl, rfl, rfl, rfl, rfl, rfl, rfl⟩
  · cases h

/-- But for its annotations, a pod that was read is told to the server as the server has told it, in every field of
every part. -/
theorem encodePod_kept (h : decodePod? v = some p) (shown : Option Labels)
    (hpart : part ∈ ["metadata", "spec", "status"]) (hname : ¬(part = "metadata" ∧ name = "annotations")) :
    memberAt? (encodePod { p with annotations := shown }) part name = memberAt? v part name := by
  obtain ⟨haccepts, hpod, hspace, hversion, hnode, hhost, -, hmetadata, hspec, hstatus⟩ := decodePod?_eq_some h
  obtain ⟨htold, htold', htold''⟩ := get?_encodePod { p with annotations := shown }
  simp only [List.mem_cons, List.not_mem_nil, or_false] at hpart
  rcases hpart with rfl | rfl | rfl
  · have hother : name ≠ "annotations" := fun hannotations ↦ hname ⟨rfl, hannotations⟩
    rw [memberAt?, htold, Option.bind_some, hmetadata]
    refine get?_restAt?_rejoined (ownMetadata { p with annotations := shown }) haccepts (.head _)
      (by simp [ownMetadata]) fun w hw ↦ ?_
    simp only [ownMetadata, List.mem_cons, Prod.mk.injEq, hother, false_and, List.not_mem_nil, or_false,
      false_or] at hw
    rcases hw with ⟨rfl, rfl⟩ | ⟨rfl, rfl⟩ | ⟨rfl, rfl⟩
    · rw [hpod, textAt?_of_known haccepts (.head _) (by simp [Schema.texts])]
    · rw [hspace, textAt?_of_known haccepts (.head _) (by simp [Schema.texts])]
    · rw [hversion, textAt?_of_known haccepts (.head _) (by simp [Schema.texts])]
  · rw [memberAt?, htold', hspec]
    refine encodePart_kept (ownSpec { p with annotations := shown }) haccepts (.tail _ (.head _))
      (by simp [ownSpec]) ?_ name
    refine List.forall_mem_singleton.mpr ?_
    rw [hnode, textAt?_of_known haccepts (.tail _ (.head _)) (by simp [Schema.texts])]
  · rw [memberAt?, htold'', hstatus]
    refine encodePart_kept (ownStatus { p with annotations := shown }) haccepts (.tail _ (.tail _ (.head _)))
      (by simp [ownStatus]) ?_ name
    refine List.forall_mem_singleton.mpr ?_
    rw [hhost, textAt?_of_known haccepts (.tail _ (.tail _ (.head _))) (by simp [Schema.texts])]

theorem ordered_annotationsOf? {labels : Labels} (h : annotationsOf? v = some labels) : Ordered labels := by
  obtain ⟨w, -, hlabels⟩ := Option.bind_eq_some_iff.mp h
  cases w with
  | object fields =>
    obtain rfl := Option.some.inj hlabels
    exact ordered_foldl _ List.Pairwise.nil
  | _ => cases hlabels

theorem ordered_annotations (h : decodePod? v = some p) : Ordered (p.annotations.getD []) := by
  obtain ⟨-, -, -, -, -, -, hannotations, -⟩ := decodePod?_eq_some h
  rcases hshown : p.annotations with _ | labels
  · exact List.Pairwise.nil
  · exact ordered_annotationsOf? (hannotations ▸ hshown)

theorem filterMap_annotation? (labels : Labels) :
    (labels.map fun (name, text) ↦ (Key.name name, Value.string text)).filterMap annotation? = labels := by
  rw [List.filterMap_map]
  exact List.filterMap_some

theorem annotationsOf?_encodePod {labels : Labels} (h : Ordered labels) (hshown : p.annotations = some labels) :
    annotationsOf? (encodePod p) = some labels := by
  have htold : memberAt? (encodePod p) "metadata" "annotations" = some (encodeLabels labels) := by
    have hown : (Value.object (members (ownMetadata p))).get? "annotations" = p.annotations.map encodeLabels :=
      value_get?_members (by simp [ownMetadata]) (.tail _ (.tail _ (.head _)))
    rw [memberAt?, (get?_encodePod p).1, Option.bind_some, get?, value_get?_append, hown, hshown]
    rfl
  rw [annotationsOf?, htold]
  have hread := filterMap_annotation? labels
  refine congrArg some ?_
  rw [List.map_map, Function.comp_def, hread]
  exact @foldl_setLabel_ordered [] labels h

end Pods

end SelfHealing.Kubernetes
