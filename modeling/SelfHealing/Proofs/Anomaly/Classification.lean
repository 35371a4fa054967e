import SelfHealing.Anomaly.Encoding
import SelfHealing.Proofs.Data.Reading
import SelfHealing.Proofs.Lookup
import SelfHealing.Query.Encoding

/-!
From the data of a result to its anomalies. Main statement: each element of a vector or a matrix gives one anomaly, in
the order of the elements, whose parts are the texts under its own labels.
-/

namespace SelfHealing

open Data

theorem lookup_foldl_setLabel (entries : List (String × String)) (labels : Labels) (name : String) :
    (entries.foldl (fun labels (own, value) ↦ setLabel own value labels) labels).lookup name =
      (entries.reverse.lookup name).or (labels.lookup name) := by
  induction entries generalizing labels with
  | nil => rfl
  | cons entry rest ih =>
    obtain ⟨own, value⟩ := entry
    rw [List.foldl_cons, ih, lookup_setLabel, List.reverse_cons, List.lookup_append, Option.or_assoc, lookup_cons_if]
    by_cases hname : name = own
    · rw [if_pos hname, if_pos hname, Option.some_or]
    · rw [if_neg hname, if_neg hname, List.lookup_nil, Option.none_or]

theorem label_decoded {v : Value} {labels : Labels} (h : decodeLabels? v = some labels) (name : String) :
    label labels name = (v.textUnder? name).getD "" := by
  obtain ⟨entries, hentries, hlabels⟩ := Option.bind_eq_some_iff.mp h
  obtain ⟨fields, rfl, hfields⟩ := entries?_eq_some.mp hentries
  obtain rfl := Option.some.inj hlabels
  have hfound := find?_entries (List.rel_reverse hfields) name
  rw [label, lookup_foldl_setLabel, ← hfound, List.lookup_nil, Option.or_none]
  rfl

def resultItems? (v : Value) : Option (List Value) :=
  match v.member? "result" 1 with
  | some (.array items) => some items
  | _ => none

/-- The text of a label of an element, empty when it is missing. -/
def labelText (item : Value) (name : String) : String :=
  ((item.member? "metric" 0).bind (·.textUnder? name)).getD ""

def Anomaly.ofItem (workload : Workload) (item : Value) : Anomaly :=
  match workload with
  | .pod => .pod ⟨labelText item "pod", labelText item "namespace", labelText item "instance"⟩
  | .service => .service ⟨labelText item "name", labelText item "pod", labelText item "instance"⟩

theorem labelText_of_record {count : Nat} {item : Value} {r : Record} {labels : Labels}
    (hr : Record.ofValue? count item = some r) (h : r.required? ⟨["metric"], 0⟩ decodeLabels? = some labels)
    (name : String) : labelText item name = label labels name := by
  obtain ⟨x, hx, hlabels⟩ := Record.required?_eq_some.mp h
  rw [labelText, Record.field?_ofValue? hr hx, label_decoded hlabels]
  rfl

theorem Sample.labelText_decoded {item : Value} {s : Sample} (h : Sample.decode? item = some s) (name : String) :
    labelText item name = label s.labels name := by
  simp only [Sample.decode?, Option.bind_eq_bind, Option.bind_eq_some_iff, Option.some.injEq] at h
  obtain ⟨r, hr, labels, hlabels, point, -, rfl⟩ := h
  exact labelText_of_record hr hlabels name

theorem Series.labelText_decoded {item : Value} {s : Series} (h : Series.decode? item = some s) (name : String) :
    labelText item name = label s.labels name := by
  simp only [Series.decode?, Option.bind_eq_bind, Option.bind_eq_some_iff, Option.some.injEq] at h
  obtain ⟨r, hr, labels, hlabels, points, -, rfl⟩ := h
  exact labelText_of_record hr hlabels name

theorem Anomaly.ofItem_eq {item : Value} {labels : Labels} (h : ∀ name, labelText item name = label labels name)
    (workload : Workload) : Anomaly.ofItem workload item = Anomaly.ofLabels workload labels := by
  cases workload <;> simp only [ofItem, ofLabels, h]

theorem items_decoded {α : Type} {decode : Decoder α} {v content : Value} {xs : List α}
    (hcontent : v.member? "result" 1 = some content) (h : Value.asList? decode content = some xs) :
    ∃ items, resultItems? v = some items ∧ List.Forall₂ (fun item x ↦ decode item = some x) items xs := by
  obtain ⟨items, rfl, hitems⟩ := Value.asList?_eq_some.mp h
  exact ⟨items, by rw [resultItems?, hcontent], hitems⟩

theorem map_ofItem {α : Type} {decode : Decoder α} {labelsOf : α → Labels}
    (hdecode : ∀ {item x}, decode item = some x → ∀ name, labelText item name = label (labelsOf x) name)
    {items : List Value} {xs : List α} (h : List.Forall₂ (fun item x ↦ decode item = some x) items xs)
    (workload : Workload) :
    items.map (Anomaly.ofItem workload) = (xs.map labelsOf).map (Anomaly.ofLabels workload) := by
  induction h with
  | nil => rfl
  | cons hx _ ih => rw [List.map_cons, List.map_cons, List.map_cons, ih, Anomaly.ofItem_eq (hdecode hx)]

namespace QueryResult

theorem content_decoded {v : Value} {q : QueryResult} (h : QueryResult.decode? v = some q) :
    ∃ kind content, v.member? "result" 1 = some content ∧ decodeContent? kind content = some q := by
  cases v with
  | object fields =>
    simp only [decode?, Option.bind_eq_bind, Option.bind_eq_some_iff] at h
    obtain ⟨kind, -, content, hcontent, h⟩ := h
    obtain ⟨x, hx, hsome⟩ := Record.required?_eq_some.mp hcontent
    obtain rfl := Option.some.inj hsome
    split at h
    · cases h
    · have hread : Record.ofValue? 2 (.object fields) = some (.named fields) := rfl
      exact ⟨kind, x, Record.field?_ofValue? hread hx, h⟩
  | array items =>
    -- An array is read as a type and its content, and nothing else.
    obtain ⟨kind, content, rfl⟩ : ∃ kind content, items = [kind, content] := by
      unfold decode? at h
      split at h <;> simp_all
    simp only [decode?, Option.bind_eq_bind, Option.bind_eq_some_iff] at h
    obtain ⟨name, -, h⟩ := h
    exact ⟨name, content, rfl, h⟩
  | _ => cases h

theorem asList?_of_vector {kind : String} {content : Value} {samples : List Sample}
    (h : decodeContent? kind content = some (.vector samples)) :
    Value.asList? Sample.decode? content = some samples := by
  unfold decodeContent? at h
  split at h <;> simp_all

theorem asList?_of_matrix {kind : String} {content : Value} {series : List Series}
    (h : decodeContent? kind content = some (.matrix series)) :
    Value.asList? Series.decode? content = some series := by
  unfold decodeContent? at h
  split at h <;> simp_all

end QueryResult

theorem classify_of_labelSets {result : QueryResult} {sets : List Labels} (h : result.labelSets? = some sets)
    (workload : Workload) : classify workload result = .ok (sets.map (Anomaly.ofLabels workload)) := by
  simp only [classify, h]

theorem classify_decoded {v : Value} {result : QueryResult} (h : QueryResult.decode? v = some result)
    (workload : Workload) :
    ((∃ samples, result = .vector samples) ∨ (∃ series, result = .matrix series) →
        ∃ items, resultItems? v = some items ∧
          classify workload result = .ok (items.map (Anomaly.ofItem workload)) ∧
          ∀ item, (Anomaly.ofItem workload item).workload = workload) ∧
      (∀ point, result = .scalar point → classify workload result = .error (.unsupportedResult "scalar")) ∧
      (∀ point, result = .text point → classify workload result = .error (.unsupportedResult "string")) ∧
      ∀ samples series, samples.map Sample.labels = series.map Series.labels →
        classify workload (.vector samples) = classify workload (.matrix series) := by
  refine ⟨?items, fun point hpoint ↦ by rw [hpoint]; rfl, fun point hpoint ↦ by rw [hpoint]; rfl,
    fun samples series hsets ↦ ?_⟩
  case items =>
    have hkind (item : Value) : (Anomaly.ofItem workload item).workload = workload := by cases workload <;> rfl
    obtain ⟨kind, content, hcontent, hresult⟩ := QueryResult.content_decoded h
    rintro (⟨samples, rfl⟩ | ⟨series, rfl⟩)
    · obtain ⟨items, hitems, hsamples⟩ := items_decoded hcontent (QueryResult.asList?_of_vector hresult)
      refine ⟨items, hitems, ?_, hkind⟩
      rw [classify_of_labelSets rfl, map_ofItem Sample.labelText_decoded hsamples]
    · obtain ⟨items, hitems, hseries⟩ := items_decoded hcontent (QueryResult.asList?_of_matrix hresult)
      refine ⟨items, hitems, ?_, hkind⟩
      rw [classify_of_labelSets rfl, map_ofItem Series.labelText_decoded hseries]
  · rw [classify_of_labelSets rfl, classify_of_labelSets rfl, hsets]

def repeatedItems : List Value :=
  let first := Value.named
    [("metric", .named [("pod", .string "old"), ("name", .string "kubelet"), ("pod", .string "api-0")])]
  [first, .array [.named [("instance", .string "n1")]], first]

theorem classify_decoded_repeated :
    classify .service (.matrix [⟨[("name", "kubelet"), ("pod", "api-0")], []⟩, ⟨[("instance", "n1")], []⟩,
        ⟨[("name", "kubelet"), ("pod", "api-0")], []⟩]) =
      .ok [.service ⟨"kubelet", "api-0", ""⟩, .service ⟨"", "", "n1"⟩, .service ⟨"kubelet", "api-0", ""⟩] := by
  have hread : QueryResult.decode? (.named [("result", .array repeatedItems), ("resultType", .string "matrix")]) =
      some (.matrix [⟨[("name", "kubelet"), ("pod", "api-0")], []⟩, ⟨[("instance", "n1")], []⟩,
        ⟨[("name", "kubelet"), ("pod", "api-0")], []⟩]) := by decide +kernel
  obtain ⟨items, hitems, hrecords, -⟩ := (classify_decoded hread .service).1 (.inr ⟨_, rfl⟩)
  obtain rfl : repeatedItems = items := Option.some.inj hitems
  exact hrecords

end SelfHealing
